/-!
The shortest decimal that reads back as a given binary fraction. A positive number is held as a
quotient of naturals together with the ends of the interval of numbers that round to it. For one digit,
two digits, and so on, its two neighbours on that decimal grid are tried; the first grid on which one
of them lies in the interval wins, and of two the nearer.
-/

namespace GmlLayout.Decimal

/-- A decimal number `digits * 10 ^ exponent`. -/
structure Scientific where
  digits : Nat
  exponent : Int
deriving DecidableEq, Repr

/-- The numbers between `low` and `high`, both over `unit`, with the ends if `closed`; `value` lies
between them. -/
structure Interval where
  low : Nat
  value : Nat
  high : Nat
  unit : Nat
  closed : Bool

namespace Interval

/-- The numbers that round to `mantissa * 2 ^ exponent`. Below a power of two the neighbour is only half
as far away; `narrow` says that this is so here. -/
def ofBinary (mantissa : Nat) (exponent : Int) (narrow : Bool) : Interval where
  low := (4 * mantissa - (if narrow then 1 else 2)) * Nat.pow 2 exponent.toNat
  value := 4 * mantissa * Nat.pow 2 exponent.toNat
  high := (4 * mantissa + 2) * Nat.pow 2 exponent.toNat
  unit := 4 * Nat.pow 2 (-exponent).toNat
  closed := mantissa % 2 = 0

/-- Whether `digits * 10 ^ exponent` lies in the interval. -/
def contains (interval : Interval) (digits : Nat) (exponent : Int) : Bool :=
  let low := interval.low * Nat.pow 10 (-exponent).toNat
  let high := interval.high * Nat.pow 10 (-exponent).toNat
  let point := digits * Nat.pow 10 exponent.toNat * interval.unit
  if interval.closed then low ≤ point && point ≤ high else low < point && point < high

end Interval

/-- The quotient of `number` by `10 ^ exponent`, as numerator and denominator. -/
def scaled (number unit : Nat) (exponent : Int) : Nat × Nat :=
  (number * Nat.pow 10 (-exponent).toNat, unit * Nat.pow 10 exponent.toNat)

/-- The decimal exponent of the leading digit of `number / unit`, searched upwards from `exponent`. -/
def leadingExponent (number unit : Nat) : Nat → Int → Int
  | 0, exponent => exponent
  | fuel + 1, exponent =>
    let (numerator, denominator) := scaled number unit (exponent + 1)
    if numerator < denominator then exponent else leadingExponent number unit fuel (exponent + 1)

/-- The neighbour of the value on the grid `10 ^ exponent` that lies in the interval, the nearer one if
both do, and the even one if both are as near. -/
def onGrid? (interval : Interval) (exponent : Int) : Option Nat :=
  let (numerator, denominator) := scaled interval.value interval.unit exponent
  let below := numerator / denominator
  let rest := numerator % denominator
  match interval.contains below exponent, interval.contains (below + 1) exponent with
  | false, false => none
  | true, false => some below
  | false, true => some (below + 1)
  | true, true =>
    if 2 * rest < denominator then some below
    else if denominator < 2 * rest then some (below + 1)
    else some (below + below % 2)

/-- The first hit on the grids that start at `exponent` and get finer. -/
def search (interval : Interval) : Nat → Int → Option Scientific
  | 0, _ => none
  | grids + 1, exponent =>
    match onGrid? interval exponent with
    | some digits => some ⟨digits, exponent⟩
    | none => search interval grids (exponent - 1)

def Scientific.strip : Nat → Scientific → Scientific
  | 0, decimal => decimal
  | fuel + 1, decimal =>
    if decimal.digits ≠ 0 ∧ decimal.digits % 10 = 0 then
      strip fuel ⟨decimal.digits / 10, decimal.exponent + 1⟩
    else decimal

/-- The shortest decimal in the interval. Seventeen digits tell all doubles apart, so a hit is found. -/
def shortest (interval : Interval) : Scientific :=
  let leading := leadingExponent interval.value interval.unit 700 (-350)
  match search interval 17 leading with
  | some decimal => decimal.strip 20
  | none => ⟨0, 0⟩

end GmlLayout.Decimal
