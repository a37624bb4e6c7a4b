/-!
Log records and how urgent they are.
-/

namespace GmlLayout

inductive Level where
  | debug
  | info
  | warning
  | error
deriving DecidableEq, Repr

namespace Level

def name : Level → String
  | .debug => "DEBUG"
  | .info => "INFO"
  | .warning => "WARNING"
  | .error => "ERROR"

def rank : Level → Nat
  | .debug => 10
  | .info => 20
  | .warning => 30
  | .error => 40

end Level

structure LogRecord where
  level : Level
  message : String
deriving DecidableEq, Repr

end GmlLayout
