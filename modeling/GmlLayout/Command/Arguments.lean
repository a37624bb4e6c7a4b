import GmlLayout.Diagnostic.Guidance

/-!
The command line: its flags, its usage text, and what is wrong with arguments it does not take.
-/

namespace GmlLayout.Command

structure Arguments where
  path : Option String := none
  singleFile : Bool := false
  overwrite : Bool := true
  showTexts : Bool := false
  showTree : Bool := false
  checkOnly : Bool := false
  verbose : Bool := false
deriving DecidableEq, Repr

inductive ArgumentError where
  | unknownFlag (flag : String)
  | tooManyPaths
deriving DecidableEq, Repr

namespace ArgumentError

def guidance : ArgumentError → Guidance
  | .unknownFlag flag =>
    { what := s!"Unknown flag '{flag}'."
      why := some "gml_fmt only accepts the flags listed in its usage."
      fix := some "Run gml_fmt --help to see the supported flags."
      sample := some "gml_fmt -f scripts/player.gml --check" }
  | .tooManyPaths =>
    { what := "Too many paths were given."
      why := some "gml_fmt formats one file or one directory per run."
      fix := some "Pass a single path."
      sample := some "gml_fmt scripts/" }

end ArgumentError

namespace Arguments

def take (arguments : Arguments) (argument : String) : Except ArgumentError Arguments :=
  match argument with
  | "-f" | "--file" => .ok { arguments with singleFile := true }
  | "-l" | "--log" => .ok { arguments with showTexts := true }
  | "-s" | "--ast" => .ok { arguments with showTree := true }
  | "-n" | "--no-overwrite" => .ok { arguments with overwrite := false }
  | "-c" | "--check" => .ok { arguments with checkOnly := true }
  | "--verbose" => .ok { arguments with verbose := true }
  | _ =>
    if argument.toList.head? = some '-' then .error (.unknownFlag argument)
    else if arguments.path.isSome then .error .tooManyPaths
    else .ok { arguments with path := some argument }

/-- Takes the arguments in turn; the first bad one is reported. -/
def ofList (arguments : List String) : Except ArgumentError Arguments :=
  arguments.foldlM take {}

end Arguments

inductive Request where
  | help
  | version
  | formatting (arguments : Arguments)
deriving DecidableEq, Repr

namespace Request

/-- A request for help wins over one for the version, and both over everything else. -/
def ofList (arguments : List String) : Except ArgumentError Request :=
  if "--help" ∈ arguments ∨ "-h" ∈ arguments then .ok .help
  else if "--version" ∈ arguments ∨ "-v" ∈ arguments then .ok .version
  else (Arguments.ofList arguments).map .formatting

end Request

def usage : String :=
  "Usage:\n" ++
  "  gml_fmt [PATH] [flags]\n" ++
  "\n" ++
  "  PATH                     # directory to walk for .gml files (default: current directory)\n" ++
  "  -f, --file               # PATH is a single file\n" ++
  "  -l, --log                # print input and output of every file to stderr\n" ++
  "  -s, --ast                # print the parsed tree of every file to stderr\n" ++
  "  -n, --no-overwrite       # do not write formatted output back\n" ++
  "  -c, --check              # report files that need formatting, write nothing\n" ++
  "  --verbose                # debug logging\n" ++
  "  -v, --version            # print the version\n" ++
  "  -h, --help               # show this help\n" ++
  "\n" ++
  "Configuration is read from gml_fmt.toml, .gml_fmt.toml or .gml_fmt in the current directory:\n" ++
  "  use_spaces = true\n" ++
  "  space_size = 4\n" ++
  "  newlines_at_end = 1"

end GmlLayout.Command
