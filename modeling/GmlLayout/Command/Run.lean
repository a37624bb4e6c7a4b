import GmlLayout.Command.Arguments
import GmlLayout.Command.Target
import GmlLayout.Layout.Format
import GmlLayout.Release
import GmlLayout.Settings.Lookup

/-!
A run of the program: what it does to the files of the working directory, what it prints, and how it
ends.
-/

namespace GmlLayout.Command

/-- A run in progress. Log records below the threshold are not shown. -/
structure Session where
  workspace : Workspace
  threshold : Level := .warning
  stdout : String := ""
  stderr : String := ""
  /-- The files that the run tried to write, in order. -/
  attempts : List Target := []

abbrev Run := StateM Session

namespace Run

def say (line : String) : Run Unit :=
  modify fun session => { session with stdout := session.stdout ++ line ++ "\n" }

def complain (line : String) : Run Unit :=
  modify fun session => { session with stderr := session.stderr ++ line ++ "\n" }

def log (level : Level) (message : String) : Run Unit := do
  if (← get).threshold.rank ≤ level.rank then
    complain (level.name ++ ": " ++ message)

def logAll (records : List LogRecord) : Run Unit :=
  records.forM fun record => log record.level record.message

end Run

inductive Outcome where
  | failed
  | skipped
  | unchanged
  | needsFormatting
  | formatted
deriving DecidableEq, Repr

open Run

def fileFailure (verb : String) (target : Target) (error : FileError) : Run Outcome := do
  let reason := error.message target.shown
  log .error s!"Could not {verb} {target.shown}: {reason}"
  complain s!"Could not {verb} file {target.shown}: {reason}"
  return .failed

def parseFailure (target : Target) (source : String) (cause : ParseError) : Run Outcome := do
  log .error s!"Could not parse {target.shown}"
  complain s!"Could not parse file {target.shown}"
  complain ((cause.diagnostic.withDefault "file" target.shown).render source)
  return .failed

def overwrite (target : Target) (output : String) : Run Outcome := do
  modify fun session => { session with attempts := session.attempts ++ [target] }
  match (← get).workspace.writeText target.location output with
  | .error error => fileFailure "write" target error
  | .ok workspace =>
    modify fun session => { session with workspace := workspace }
    log .info s!"Formatted {target.shown}"
    return .formatted

def settle (arguments : Arguments) (target : Target) (source output : String) : Run Outcome := do
  if output = source then
    log .debug s!"Already formatted: {target.shown}"
    return .unchanged
  if arguments.checkOnly then
    say s!"Needs formatting: {target.shown}"
    return .needsFormatting
  if arguments.overwrite then
    overwrite target output
  else
    return .formatted

def formatText (arguments : Arguments) (settings : Settings) (target : Target) (source : String) :
    Run Outcome := do
  if isIgnored source then
    log .info s!"Skipping {target.shown} (ignore pragma)"
    return .skipped
  if arguments.showTexts then
    complain "=========INPUT========="
    complain source
  match formatWithTree settings source with
  | .error cause => parseFailure target source cause
  | .ok (output, tree) =>
    if arguments.showTexts then
      complain "=========OUTPUT========="
      complain output
    if arguments.showTree then
      complain "==========AST==========="
      complain tree
    settle arguments target source output

def formatTarget (arguments : Arguments) (settings : Settings) (target : Target) : Run Outcome := do
  match (← get).workspace.readText target.location with
  | .error error => fileFailure "read" target error
  | .ok source => formatText arguments settings target source

/-- The exit code for what became of the files, after the closing line. -/
def conclude (arguments : Arguments) (outcomes : List Outcome) : Run Nat := do
  if arguments.checkOnly then
    if .failed ∈ outcomes ∨ .needsFormatting ∈ outcomes then
      return 1
    say "OK"
    return 0
  say "Format complete."
  return if .failed ∈ outcomes then 1 else 0

def formatWith (arguments : Arguments) (resolved : ResolvedSettings) : Run (Except Crash Nat) := do
  let path := Path.ofText (arguments.path.getD ".")
  match Target.collect (← get).workspace path arguments.singleFile with
  | .error crash => return .error crash
  | .ok (.error error) =>
    complain error.guidance.text
    return .ok 1
  | .ok (.ok targets) =>
    log .debug (s!"Formatting {targets.length} file(s) with {resolved.settings.summary} from "
      ++ resolved.origin.getD resolved.kind)
    let outcomes ← targets.mapM (formatTarget arguments resolved.settings)
    return .ok (← conclude arguments outcomes)

/-- Finds the settings and formats; gives the exit code, unless the program goes down. -/
def formatAll (decode : Toml.Decoder) (arguments : Arguments) : Run (Except Crash Nat) := do
  modify fun session =>
    { session with threshold := if arguments.verbose then .debug else .warning }
  match ResolvedSettings.find decode (← get).workspace none with
  | .error crash => return .error crash
  | .ok resolved =>
    logAll resolved.log
    formatWith arguments resolved

/-- Carries out a command line and gives the exit code, unless the program goes down. -/
def run (decode : Toml.Decoder) (arguments : List String) : Run (Except Crash Nat) := do
  match Request.ofList arguments with
  | .error error =>
    complain error.guidance.text
    return .ok 1
  | .ok .help =>
    say usage
    return .ok 0
  | .ok .version =>
    say s!"gml_fmt {Release.installed}"
    return .ok 0
  | .ok (.formatting arguments) => formatAll decode arguments

def runIn (decode : Toml.Decoder) (workspace : Workspace) (arguments : List String) :
    Except Crash Nat × Session :=
  (run decode arguments).run { workspace := workspace }

end GmlLayout.Command
