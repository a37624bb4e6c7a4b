import GmlLayout.Proofs.Command.Arguments
import GmlLayout.Proofs.Command.Verdict
import GmlLayout.Proofs.Settings.Resolution

/-!
What a run does to the files of the working directory, and how it ends: with which exit code, or that it
dies. Everything that is said here about the files is about those that the run finds: which of them are
targets, what their texts are, and which of them may be written. How settings files are decoded is left
open.
-/

namespace GmlLayout

def Place.Holds : Place → Location → Prop
  | .above _, location => location ≠ []
  | .inside directory, location => ∃ rest, rest ≠ [] ∧ location = directory ++ rest

namespace Command

namespace Arguments

def start (arguments : Arguments) : Path :=
  .ofText (arguments.path.getD ".")

end Arguments

section Targets

variable {workspace : Workspace} {arguments : Arguments} {location : Location} {targets : List Target}

/-- The system tells what everything is that is named like a source file below the place. -/
def Told (workspace : Workspace) : Place → Prop
  | .above _ => ∀ location ∈ workspace.entriesBelow [], location.getLast?.any isSourceName = true →
      workspace.hidden location = none
  | .inside directory => ∀ location ∈ workspace.entriesBelow directory,
      location.getLast?.any isSourceName = true → workspace.hidden location = none

/-- The path names a file if a single file is to be formatted, and else a directory that can be searched. -/
def PathFits (workspace : Workspace) (arguments : Arguments) : Prop :=
  if arguments.singleFile then ∃ location, workspace.find arguments.start = .ok (some (.file location))
  else ∃ place, workspace.find arguments.start = .ok (some (.directory place)) ∧ Told workspace place

/-- The program dies of the path: the system does not tell what it names, or what lies below it. -/
def PathDies (workspace : Workspace) (arguments : Arguments) : Prop :=
  (∃ error, workspace.find arguments.start = .error error) ∨
    arguments.singleFile = false ∧
      ∃ place, workspace.find arguments.start = .ok (some (.directory place)) ∧ ¬Told workspace place

/-- The file is the one that is named, or a source file below the directory that is named. -/
def IsTarget (workspace : Workspace) (arguments : Arguments) (location : Location) : Prop :=
  if arguments.singleFile then workspace.find arguments.start = .ok (some (.file location))
  else ∃ place, workspace.find arguments.start = .ok (some (.directory place)) ∧ Told workspace place ∧
    place.Holds location ∧ workspace.isFile location = true ∧ location.getLast?.any isSourceName = true

theorem crashBelow?_eq_none_iff {path : Path} {place : Place} :
    Target.crashBelow? workspace path place = none ↔ Told workspace place := by
  unfold Target.crashBelow? Told
  cases place <;> simp [List.findSome?_eq_none_iff]

theorem PathFits.alive (fits : PathFits workspace arguments) : ¬PathDies workspace arguments := by
  unfold PathFits at fits
  rintro (⟨error, untold⟩ | ⟨several, place, found, untold⟩)
  · simp [untold] at fits
  · simp [several, found, untold] at fits

/-- The ways in which a path is taken: it fits and gives the targets, or it is refused, or the program dies
of it. -/
inductive Collected (workspace : Workspace) (arguments : Arguments) :
    Except Crash (Except TargetError (List Target)) → Prop where
  | targets {targets : List Target} (fits : PathFits workspace arguments) :
      Collected workspace arguments (.ok (.ok targets))
  | refused {error : TargetError} (unfit : ¬PathFits workspace arguments)
      (alive : ¬PathDies workspace arguments) : Collected workspace arguments (.ok (.error error))
  | died {crash : Crash} (unfit : ¬PathFits workspace arguments) (dies : PathDies workspace arguments) :
      Collected workspace arguments (.error crash)

theorem collected_collect : Collected workspace arguments
    (Target.collect workspace arguments.start arguments.singleFile) := by
  unfold Target.collect
  cases found : workspace.find arguments.start with
  | error error => exact .died (by simp [PathFits, found]) (.inl ⟨error, found⟩)
  | ok entry =>
    cases single : arguments.singleFile with
    | true =>
      rcases entry with _ | location | place
      · exact .refused (by simp [PathFits, single, found]) (by simp [PathDies, single, found])
      · exact .targets (by simp [PathFits, single, found])
      · exact .refused (by simp [PathFits, single, found]) (by simp [PathDies, single, found])
    | false =>
      rcases entry with _ | location | place
      · exact .refused (by simp [PathFits, single, found]) (by simp [PathDies, found])
      · exact .refused (by simp [PathFits, single, found]) (by simp [PathDies, found])
      · dsimp only
        rw [if_neg Bool.false_ne_true]
        have told := @crashBelow?_eq_none_iff workspace arguments.start place
        cases below : Target.crashBelow? workspace arguments.start place with
        | none => exact .targets (by simp [PathFits, single, found, told.mp below])
        | some crash =>
          have untold : ¬Told workspace place := fun all => by
            rw [told.mpr all] at below
            cases below
          exact .died (by simp [PathFits, single, found, untold]) (by simp [PathDies, single, found, untold])

theorem mem_below {place : Place} :
    location ∈ (Target.below workspace arguments.start place).map Target.location ↔
      place.Holds location ∧ workspace.isFile location = true ∧
        location.getLast?.any isSourceName = true := by
  cases place with
  | above levels =>
    simp [Target.below, Place.Holds, Workspace.mem_filesBelow]
  | inside directory =>
    simp only [Target.below, List.map_map, List.mem_map, Workspace.mem_filesBelow, Place.Holds,
      Function.comp_apply]
    constructor
    · rintro ⟨rest, ⟨nonempty, exists_, named⟩, rfl⟩
      exact ⟨⟨rest, nonempty, rfl⟩, exists_, named⟩
    · rintro ⟨⟨rest, nonempty, rfl⟩, exists_, named⟩
      exact ⟨rest, ⟨nonempty, exists_, named⟩, rfl⟩

theorem nodup_below (distinct : workspace.Distinct) {place : Place} :
    ((Target.below workspace arguments.start place).map Target.location).Nodup := by
  cases place with
  | above levels =>
    have same : (Target.below workspace arguments.start (.above levels)).map Target.location =
        workspace.filesBelow [] isSourceName := by
      simp [Target.below, Function.comp_def]
    rw [same]
    exact Workspace.nodup_filesBelow distinct
  | inside directory =>
    have same : (Target.below workspace arguments.start (.inside directory)).map Target.location =
        (workspace.filesBelow directory isSourceName).map (directory ++ ·) := by
      simp [Target.below, Function.comp_def]
    rw [same]
    exact (Workspace.nodup_filesBelow distinct).map (List.append_right_injective directory)

theorem collect_targets (distinct : workspace.Distinct)
    (collected : Target.collect workspace arguments.start arguments.singleFile = .ok (.ok targets)) :
    (targets.map Target.location).Nodup ∧
      ∀ location, location ∈ targets.map Target.location ↔ IsTarget workspace arguments location := by
  unfold Target.collect at collected
  unfold IsTarget
  cases found : workspace.find arguments.start with
  | error error =>
    rw [found] at collected
    cases collected
  | ok entry =>
    rw [found] at collected
    rcases entry with _ | named | place
    · cases collected
    · dsimp only at collected
      split at collected
      case isTrue single =>
        cases collected
        refine ⟨List.nodup_singleton _, fun location => ?_⟩
        rw [if_pos single]
        simp [eq_comm]
      case isFalse several => cases collected
    · dsimp only at collected
      split at collected
      case isTrue single => cases collected
      case isFalse several =>
        split at collected
        case h_1 crash below => cases collected
        case h_2 below =>
          cases collected
          have told := crashBelow?_eq_none_iff.mp below
          refine ⟨nodup_below distinct, fun location => ?_⟩
          rw [if_neg several, mem_below]
          simp [told]

end Targets

def settingsOf (decode : Toml.Decoder) (workspace : Workspace) : Except Crash Settings :=
  (ResolvedSettings.find decode workspace none).map ResolvedSettings.settings

section Run

variable {workspace : Workspace} {options : Arguments} {outcomes : List Outcome} {targets : List Target}
  {deeds : Deeds} {decode : Toml.Decoder} {settings : Settings} {crash : Crash}

def exitCode (options : Arguments) (outcomes : List Outcome) : Nat :=
  if .failed ∈ outcomes ∨ options.checkOnly = true ∧ .needsFormatting ∈ outcomes then 1 else 0

def closing (options : Arguments) (outcomes : List Outcome) : String :=
  if options.checkOnly then if exitCode options outcomes = 0 then "OK\n" else ""
  else "Format complete.\n"

theorem does_conclude : Does (conclude options outcomes) deeds (exitCode options outcomes)
    (deeds.printing (closing options outcomes)) := by
  unfold conclude closing exitCode
  cases checks : options.checkOnly with
  | true =>
    rw [if_pos rfl, if_pos rfl]
    by_cases bad : .failed ∈ outcomes ∨ .needsFormatting ∈ outcomes
    · have silent : deeds.printing "" = deeds := by simp [Deeds.printing]
      simpa [bad, silent] using Does.pure
    · rw [if_neg bad]
      simp only [true_and, if_neg bad, if_true]
      exact (does_say "OK").bind .pure
  | false =>
    rw [if_neg Bool.false_ne_true, if_neg Bool.false_ne_true]
    simp only [Bool.false_eq_true, false_and, or_false]
    exact (does_say "Format complete.").bind .pure

theorem does_threshold : Does (modify fun session : Session =>
    { session with threshold := if options.verbose then .debug else .warning }) deeds () deeds := by
  rintro session rfl
  exact ⟨rfl, rfl⟩

theorem does_formatWith_of_died {resolved : ResolvedSettings}
    (died : Target.collect deeds.workspace options.start options.singleFile = .error crash) :
    Does (formatWith options resolved) deeds (.error crash) deeds := by
  refine .get fun session same => ?_
  have here : session.workspace = deeds.workspace := congrArg Deeds.workspace same
  rw [Arguments.start] at died
  rw [here, died]
  exact .pure

theorem does_formatWith_of_error {resolved : ResolvedSettings} {error : TargetError}
    (failed : Target.collect deeds.workspace options.start options.singleFile = .ok (.error error)) :
    Does (formatWith options resolved) deeds (.ok 1) deeds := by
  refine .get fun session same => ?_
  have here : session.workspace = deeds.workspace := congrArg Deeds.workspace same
  rw [Arguments.start] at failed
  rw [here, failed]
  exact (does_complain _).bind .pure

theorem does_formatWith_of_ok {resolved : ResolvedSettings} (apart : (targets.map Target.location).Nodup)
    (collected : Target.collect deeds.workspace options.start options.singleFile = .ok (.ok targets)) :
    Does (formatWith options resolved) deeds
      (.ok (exitCode options (targets.map (outcomeOf options resolved.settings deeds.workspace))))
      ((deeds.afterAll options resolved.settings deeds.workspace targets).printing
        (closing options (targets.map (outcomeOf options resolved.settings deeds.workspace)))) := by
  refine .get fun session same => ?_
  have here : session.workspace = deeds.workspace := congrArg Deeds.workspace same
  rw [Arguments.start] at collected
  rw [here, collected]
  have pristine : Pristine deeds.workspace deeds.workspace targets := ⟨rfl, rfl, fun _ _ => rfl⟩
  exact (does_log _ _).bind ((does_formatTargets apart pristine).bind (does_conclude.bind .pure))

theorem does_formatAll_of_lost (lost : settingsOf decode deeds.workspace = .error crash) :
    Does (formatAll decode options) deeds (.error crash) deeds := by
  refine does_threshold.bind (.get fun session same => ?_)
  have here : session.workspace = deeds.workspace := congrArg Deeds.workspace same
  unfold settingsOf at lost
  rw [here]
  cases found : ResolvedSettings.find decode deeds.workspace none with
  | error other =>
    rw [found] at lost
    cases lost
    exact .pure
  | ok resolved =>
    rw [found] at lost
    cases lost

theorem does_formatAll_of_found {ending : Except Crash Nat} {after : Deeds}
    (given : settingsOf decode deeds.workspace = .ok settings)
    (rest : ∀ resolved : ResolvedSettings, resolved.settings = settings →
      Does (formatWith options resolved) deeds ending after) :
    Does (formatAll decode options) deeds ending after := by
  refine does_threshold.bind (.get fun session same => ?_)
  have here : session.workspace = deeds.workspace := congrArg Deeds.workspace same
  unfold settingsOf at given
  rw [here]
  cases found : ResolvedSettings.find decode deeds.workspace none with
  | error other =>
    rw [found] at given
    cases given
  | ok resolved =>
    rw [found] at given
    exact (does_logAll _).bind (rest resolved (Except.ok.inj given))

end Run

section RunIn

variable {decode : Toml.Decoder} {workspace : Workspace} {settings : Settings} {arguments : List String}
  {targets : List Target} {ending : Except Crash Nat}

theorem does_run_of_help (help : Request.AsksHelp arguments) {deeds : Deeds} :
    Does (run decode arguments) deeds (.ok 0) (deeds.printing (usage ++ "\n")) := by
  rw [run, Request.ofList_of_help help]
  exact (does_say usage).bind .pure

theorem does_run_of_version (noHelp : ¬Request.AsksHelp arguments)
    (version : Request.AsksVersion arguments) {deeds : Deeds} :
    Does (run decode arguments) deeds (.ok 0)
      (deeds.printing ("gml_fmt " ++ Release.installed ++ "\n")) := by
  rw [run, Request.ofList_of_version noHelp version]
  exact (does_say _).bind .pure

theorem does_run_of_refused (noHelp : ¬Request.AsksHelp arguments)
    (noVersion : ¬Request.AsksVersion arguments) (refused : ¬Arguments.Accepted arguments)
    {deeds : Deeds} : Does (run decode arguments) deeds (.ok 1) deeds := by
  obtain ⟨cause, read⟩ := Request.exists_error_of_refused noHelp noVersion refused
  rw [run, read]
  exact (does_complain _).bind .pure

theorem does_run_of_formats (formats : Request.Formats arguments) {deeds after : Deeds}
    (all : Does (formatAll decode (.given arguments)) deeds ending after) :
    Does (run decode arguments) deeds ending after := by
  rw [run, Request.ofList_of_formats formats]
  exact all

theorem runIn_of_does {after : Deeds}
    (does : Does (run decode arguments) { workspace := workspace } ending after) :
    (runIn decode workspace arguments).1 = ending ∧ (runIn decode workspace arguments).2.deeds = after :=
  does _ rfl

def outcomesOf (settings : Settings) (workspace : Workspace) (arguments : List String) (targets : List Target) :
    List Outcome :=
  targets.map (outcomeOf (.given arguments) settings workspace)

structure Idles (decode : Toml.Decoder) (workspace : Workspace) (arguments : List String)
    (ending : Except Crash Nat) (text : String) : Prop where
  ends : (runIn decode workspace arguments).1 = ending
  deeds : (runIn decode workspace arguments).2.deeds = ({ workspace := workspace } : Deeds).printing text

theorem Idles.of_silent (silent : Does (run decode arguments) { workspace := workspace } ending
    { workspace := workspace }) : Idles decode workspace arguments ending "" :=
  ⟨(runIn_of_does silent).1, (runIn_of_does silent).2⟩

inductive Course (decode : Toml.Decoder) (workspace : Workspace) (arguments : List String) : Prop where
  | help (help : Request.AsksHelp arguments)
      (idles : Idles decode workspace arguments (.ok 0) (usage ++ "\n"))
  | version (noHelp : ¬Request.AsksHelp arguments) (version : Request.AsksVersion arguments)
      (idles : Idles decode workspace arguments (.ok 0) ("gml_fmt " ++ Release.installed ++ "\n"))
  | refused (noHelp : ¬Request.AsksHelp arguments) (noVersion : ¬Request.AsksVersion arguments)
      (refused : ¬Arguments.Accepted arguments) (idles : Idles decode workspace arguments (.ok 1) "")
  | lost {crash : Crash} (formats : Request.Formats arguments)
      (lost : settingsOf decode workspace = .error crash)
      (idles : Idles decode workspace arguments (.error crash) "")
  | died {settings : Settings} {crash : Crash} (formats : Request.Formats arguments)
      (given : settingsOf decode workspace = .ok settings) (unfit : ¬PathFits workspace (.given arguments))
      (dies : PathDies workspace (.given arguments)) (idles : Idles decode workspace arguments (.error crash) "")
  | unfit {settings : Settings} (formats : Request.Formats arguments)
      (given : settingsOf decode workspace = .ok settings) (unfit : ¬PathFits workspace (.given arguments))
      (alive : ¬PathDies workspace (.given arguments)) (idles : Idles decode workspace arguments (.ok 1) "")
  | busy {settings : Settings} (formats : Request.Formats arguments)
      (given : settingsOf decode workspace = .ok settings) (fits : PathFits workspace (.given arguments))

theorem course (decode : Toml.Decoder) (workspace : Workspace) (arguments : List String) :
    Course decode workspace arguments := by
  by_cases help : Request.AsksHelp arguments
  · have does := @runIn_of_does decode workspace _ _ _ (does_run_of_help help)
    exact .help help ⟨does.1, does.2⟩
  by_cases version : Request.AsksVersion arguments
  · have does := @runIn_of_does decode workspace _ _ _ (does_run_of_version help version)
    exact .version help version ⟨does.1, does.2⟩
  by_cases accepted : Arguments.Accepted arguments
  · have formats : Request.Formats arguments := ⟨help, version, accepted⟩
    cases given : settingsOf decode workspace with
    | error crash =>
      exact .lost formats given (.of_silent (does_run_of_formats formats (does_formatAll_of_lost given)))
    | ok settings =>
      have collected := @collected_collect workspace (.given arguments)
      generalize result : Target.collect workspace _ _ = taken at collected
      cases collected with
      | targets fits => exact .busy formats given fits
      | refused unfit alive =>
        exact .unfit formats given unfit alive
          (.of_silent (does_run_of_formats formats (does_formatAll_of_found given fun _ _ =>
            does_formatWith_of_error result)))
      | died unfit dies =>
        exact .died formats given unfit dies
          (.of_silent (does_run_of_formats formats (does_formatAll_of_found given fun _ _ =>
            does_formatWith_of_died result)))
  · exact .refused help version accepted (.of_silent (does_run_of_refused help version accepted))

theorem collect_of_fits {options : Arguments} (fits : PathFits workspace options) :
    ∃ targets, Target.collect workspace options.start options.singleFile = .ok (.ok targets) := by
  have collected := @collected_collect workspace options
  generalize Target.collect workspace options.start options.singleFile = taken at collected
  cases collected with
  | targets => exact ⟨_, rfl⟩
  | refused unfit => exact absurd fits unfit
  | died unfit => exact absurd fits unfit

theorem runIn_of_targets (formats : Request.Formats arguments)
    (given : settingsOf decode workspace = .ok settings) (apart : (targets.map Target.location).Nodup)
    (collected : Target.collect workspace (Arguments.given arguments).start
      (Arguments.given arguments).singleFile = .ok (.ok targets)) :
    (runIn decode workspace arguments).1 =
        .ok (exitCode (.given arguments) (outcomesOf settings workspace arguments targets)) ∧
      (runIn decode workspace arguments).2.deeds =
        (Deeds.afterAll (.given arguments) settings workspace { workspace := workspace }
          targets).printing (closing (.given arguments) (outcomesOf settings workspace arguments targets)) :=
  runIn_of_does (does_run_of_formats formats (does_formatAll_of_found given fun _ same =>
    same ▸ does_formatWith_of_ok apart collected))

structure Busy (decode : Toml.Decoder) (workspace : Workspace) (arguments : List String)
    (settings : Settings) : Prop where
  formats : Request.Formats arguments
  given : settingsOf decode workspace = .ok settings
  fits : PathFits workspace (.given arguments)

theorem runIn_of_idle (idle : ∀ settings, ¬Busy decode workspace arguments settings) :
    ∃ text, (runIn decode workspace arguments).2.deeds =
      ({ workspace := workspace } : Deeds).printing text := by
  cases course decode workspace arguments with
  | help help idles => exact ⟨_, idles.deeds⟩
  | version noHelp version idles => exact ⟨_, idles.deeds⟩
  | refused noHelp noVersion refused idles => exact ⟨_, idles.deeds⟩
  | lost formats lost idles => exact ⟨_, idles.deeds⟩
  | died formats given unfit dies idles => exact ⟨_, idles.deeds⟩
  | unfit formats given unfit alive idles => exact ⟨_, idles.deeds⟩
  | busy formats given fits => exact absurd ⟨formats, given, fits⟩ (idle _)

end RunIn

section Effect

variable {decode : Toml.Decoder} {workspace : Workspace} {settings : Settings} {arguments : List String}
  {options : Arguments} {location : Location} {output : String}

def Reforms (settings : Settings) (workspace : Workspace) (location : Location) (output : String) : Prop :=
  ∃ text, workspace.Reads location text ∧ isIgnored text = false ∧
    format settings text = .ok output ∧ output ≠ text

/-- The file is dealt with: it is read, and it is left alone on purpose or its text is parsed; and if
the formatted text differs, that is no failure of a check, and the file is written if it is to be. -/
def Passes (settings : Settings) (workspace : Workspace) (options : Arguments) (location : Location) : Prop :=
  ∃ text, workspace.Reads location text ∧ (isIgnored text = true ∨
    ∃ output, format settings text = .ok output ∧ (output ≠ text →
      options.checkOnly = false ∧ (options.overwrite = true → location ∉ workspace.unwritable)))

/-- Everything holds that it takes for the run to replace the content of the file by the text. -/
structure Rewrites (decode : Toml.Decoder) (workspace : Workspace) (arguments : List String)
    (location : Location) (output : String) : Prop where
  formats : Request.Formats arguments
  noCheck : "-c" ∉ arguments ∧ "--check" ∉ arguments
  noKeep : "-n" ∉ arguments ∧ "--no-overwrite" ∉ arguments
  target : IsTarget workspace (.given arguments) location
  reforms : ∃ settings, settingsOf decode workspace = .ok settings ∧
    Reforms settings workspace location output
  writable : location ∉ workspace.unwritable

/-- Only a text was asked for, or the arguments are in order and every target passes under the settings that
apply. -/
def Succeeds (decode : Toml.Decoder) (workspace : Workspace) (arguments : List String) : Prop :=
  Request.AsksHelp arguments ∨ Request.AsksVersion arguments ∨
    Arguments.Accepted arguments ∧ PathFits workspace (.given arguments) ∧
      ∃ settings, settingsOf decode workspace = .ok settings ∧
        ∀ location, IsTarget workspace (.given arguments) location →
          Passes settings workspace (.given arguments) location

def Dies (decode : Toml.Decoder) (workspace : Workspace) (arguments : List String) : Prop :=
  Request.Formats arguments ∧ ((∃ crash, settingsOf decode workspace = .error crash) ∨
    PathDies workspace (.given arguments))

theorem Verdict.ofText_cases (settings : Settings) (text : String) :
    isIgnored text = true ∧ ofText settings text = .ignored ∨
    isIgnored text = false ∧ (∃ cause, format settings text = .error cause) ∧
      ofText settings text = .unparsable ∨
    isIgnored text = false ∧ format settings text = .ok text ∧ ofText settings text = .neat ∨
    isIgnored text = false ∧ ∃ output, format settings text = .ok output ∧ output ≠ text ∧
      ofText settings text = .differs output := by
  unfold ofText
  cases ignored : isIgnored text with
  | true => simp
  | false =>
    cases formatted : format settings text with
    | error cause => simp
    | ok output => by_cases same : output = text <;> simp [same]

theorem Verdict.ofFile_eq_differs_iff :
    Verdict.ofFile settings workspace location = .differs output ↔
      Reforms settings workspace location output := by
  unfold Verdict.ofFile Reforms
  simp only [← Workspace.readText_eq_ok_iff]
  cases workspace.readText location with
  | error error => simp
  | ok text =>
    have cases := Verdict.ofText_cases settings text
    simp only [Except.ok.injEq, exists_eq_left']
    obtain ⟨ignored, verdict⟩ | ⟨kept, ⟨cause, failed⟩, verdict⟩ | ⟨kept, formatted, verdict⟩ |
      ⟨kept, other, formatted, differs, verdict⟩ := cases
    · simp [verdict, ignored]
    · simp [verdict, failed]
    · rw [verdict, formatted]
      exact ⟨nofun, fun ⟨_, same, apart⟩ => absurd (Except.ok.inj same).symm apart⟩
    · rw [verdict]
      simp only [kept, formatted, Verdict.differs.injEq, Except.ok.injEq, true_and]
      exact ⟨fun same => ⟨same, same ▸ differs⟩, fun same => same.1⟩

theorem passes_iff {target : Target} : Passes settings workspace options target.location ↔
    outcomeOf options settings workspace target ≠ .failed ∧
      ¬(options.checkOnly = true ∧
        outcomeOf options settings workspace target = .needsFormatting) := by
  unfold Passes outcomeOf Verdict.ofFile
  simp only [← Workspace.readText_eq_ok_iff]
  cases workspace.readText target.location with
  | error error => simp [Verdict.outcome]
  | ok text =>
    have cases := Verdict.ofText_cases settings text
    simp only [Except.ok.injEq, exists_eq_left']
    obtain ⟨ignored, verdict⟩ | ⟨kept, ⟨cause, failed⟩, verdict⟩ | ⟨kept, formatted, verdict⟩ |
      ⟨kept, other, formatted, differs, verdict⟩ := cases
    · simp [verdict, ignored, Verdict.outcome]
    · simp [verdict, kept, failed, Verdict.outcome]
    · simp [verdict, formatted, Verdict.outcome]
    · cases checks : options.checkOnly <;> cases overwrites : options.overwrite <;>
        by_cases denied : target.location ∈ workspace.unwritable <;>
        simp [verdict, kept, formatted, differs, Verdict.outcome, checks, overwrites, denied]

theorem exitCode_eq_zero_iff {targets : List Target} :
    exitCode (.given arguments) (outcomesOf settings workspace arguments targets) = 0 ↔
      ∀ location ∈ targets.map Target.location, Passes settings workspace (.given arguments) location := by
  have each : (∀ location ∈ targets.map Target.location, Passes settings workspace (.given arguments) location) ↔
      ∀ target ∈ targets, Passes settings workspace (.given arguments) target.location := by
    simp
  rw [each]
  simp only [passes_iff]
  unfold exitCode outcomesOf
  split
  case isTrue bad =>
    refine ⟨nofun, fun all => ?_⟩
    obtain failed | ⟨checks, needs⟩ := bad
    · obtain ⟨target, member, failed⟩ := List.mem_map.mp failed
      exact absurd failed (all target member).1
    · obtain ⟨target, member, needs⟩ := List.mem_map.mp needs
      exact absurd ⟨checks, needs⟩ (all target member).2
  case isFalse good =>
    rw [not_or] at good
    refine ⟨fun _ target member => ⟨fun failed => ?_, fun needs => ?_⟩, fun _ => rfl⟩
    · exact good.1 (failed ▸ List.mem_map_of_mem member)
    · exact good.2 ⟨needs.1, needs.2 ▸ List.mem_map_of_mem member⟩

theorem IsTarget.fits (target : IsTarget workspace options location) : PathFits workspace options := by
  unfold IsTarget at target
  unfold PathFits
  split at target
  case isTrue single => rw [if_pos single]; exact ⟨location, target⟩
  case isFalse several =>
    obtain ⟨place, found, told, _⟩ := target
    rw [if_neg several]
    exact ⟨place, found, told⟩

theorem Verdict.output?_eq_some_iff {verdict : Verdict} : verdict.output? options = some output ↔
    verdict = .differs output ∧ options.checkOnly = false ∧ options.overwrite = true := by
  cases verdict with
  | differs other =>
    by_cases writes : options.checkOnly = false ∧ options.overwrite = true
    · simp [Verdict.output?, writes]
    · simp [Verdict.output?, writes]
  | unreadable | ignored | unparsable | neat => simp [Verdict.output?]

theorem Arguments.given_writes : (Arguments.given arguments).checkOnly = false ∧
    (Arguments.given arguments).overwrite = true ↔
      ("-c" ∉ arguments ∧ "--check" ∉ arguments) ∧ "-n" ∉ arguments ∧ "--no-overwrite" ∉ arguments := by
  simp [Arguments.given]

theorem written?_eq_some_iff :
    written? (.given arguments) settings workspace location = some output ↔
      (("-c" ∉ arguments ∧ "--check" ∉ arguments) ∧ "-n" ∉ arguments ∧ "--no-overwrite" ∉ arguments) ∧
        Reforms settings workspace location output ∧ location ∉ workspace.unwritable := by
  unfold written?
  rw [← Arguments.given_writes, ← Verdict.ofFile_eq_differs_iff]
  split
  case isTrue denied => exact ⟨nofun, fun all => absurd denied all.2.2⟩
  case isFalse allowed =>
    rw [Verdict.output?_eq_some_iff]
    exact ⟨fun all => ⟨all.2, all.1, allowed⟩, fun all => ⟨all.2.1, all.1⟩⟩

def Leaves (decode : Toml.Decoder) (workspace : Workspace) (arguments : List String) (location : Location)
    (bytes : Option ByteArray) : Prop :=
  (∀ output, Rewrites decode workspace arguments location output → bytes = some output.toUTF8) ∧
    ((∀ output, ¬Rewrites decode workspace arguments location output) → bytes = workspace.bytes? location)

theorem leaves_of_idle (idle : ∀ output, ¬Rewrites decode workspace arguments location output) :
    Leaves decode workspace arguments location (workspace.bytes? location) :=
  ⟨fun output rewrites => absurd rewrites (idle output), fun _ => rfl⟩

theorem leaves_of_target (busy : Busy decode workspace arguments settings)
    (target : IsTarget workspace (.given arguments) location) :
    Leaves decode workspace arguments location
      (overlaid (written? (.given arguments) settings workspace location)
        (workspace.bytes? location)) := by
  constructor
  · rintro output ⟨_, noCheck, noKeep, _, ⟨other, given, reforms⟩, writable⟩
    obtain rfl := Except.ok.inj (given.symm.trans busy.given)
    rw [written?_eq_some_iff.mpr ⟨⟨noCheck, noKeep⟩, reforms, writable⟩]
    obtain ⟨text, reads, _⟩ := reforms
    obtain ⟨bytes, _, found, _⟩ := reads.decoded
    rw [found]
    rfl
  · intro idle
    cases written : written? (.given arguments) settings workspace location with
    | none => rfl
    | some output =>
      obtain ⟨⟨noCheck, noKeep⟩, reforms, writable⟩ := written?_eq_some_iff.mp written
      exact absurd ⟨busy.formats, noCheck, noKeep, target, ⟨settings, busy.given, reforms⟩, writable⟩ (idle output)

theorem Rewrites.busy (rewrites : Rewrites decode workspace arguments location output) :
    ∃ settings, Busy decode workspace arguments settings := by
  obtain ⟨settings, given, _⟩ := rewrites.reforms
  exact ⟨settings, rewrites.formats, given, rewrites.target.fits⟩

theorem leaves_runIn (distinct : workspace.Distinct) (location : Location) :
    Leaves decode workspace arguments location
      ((runIn decode workspace arguments).2.workspace.bytes? location) := by
  by_cases busy : ∃ settings, Busy decode workspace arguments settings
  · obtain ⟨settings, busy⟩ := busy
    obtain ⟨targets, collected⟩ := collect_of_fits busy.fits
    obtain ⟨apart, exact⟩ := collect_targets distinct collected
    have after : (runIn decode workspace arguments).2.workspace =
        (Deeds.afterAll (.given arguments) settings workspace { workspace := workspace } targets).workspace :=
      congrArg Deeds.workspace (runIn_of_targets busy.formats busy.given apart collected).2
    rw [after, @bytes?_afterAll _ _ workspace _ _ rfl]
    split
    case isTrue member => exact leaves_of_target busy ((exact location).mp member)
    case isFalse elsewhere =>
      exact leaves_of_idle fun output rewrites => elsewhere ((exact location).mpr rewrites.target)
  · obtain ⟨text, after⟩ := runIn_of_idle (not_exists.mp busy)
    have same : (runIn decode workspace arguments).2.workspace = workspace := congrArg Deeds.workspace after
    rw [same]
    exact leaves_of_idle fun output rewrites => busy rewrites.busy

theorem runIn_fst_eq_zero_iff (distinct : workspace.Distinct) :
    (runIn decode workspace arguments).1 = .ok 0 ↔ Succeeds decode workspace arguments := by
  cases course decode workspace arguments with
  | help help idles => simp [idles.ends, Succeeds, help]
  | version noHelp version idles => simp [idles.ends, Succeeds, version]
  | refused noHelp noVersion refused idles => simp [idles.ends, Succeeds, noHelp, noVersion, refused]
  | lost formats lost idles => simp [idles.ends, Succeeds, formats.noHelp, formats.noVersion, lost]
  | died formats given unfit dies idles => simp [idles.ends, Succeeds, formats.noHelp, formats.noVersion, unfit]
  | unfit formats given unfit alive idles =>
    simp [idles.ends, Succeeds, formats.noHelp, formats.noVersion, unfit]
  | busy formats given fits =>
    obtain ⟨targets, collected⟩ := collect_of_fits fits
    obtain ⟨apart, exact⟩ := collect_targets distinct collected
    rw [(runIn_of_targets formats given apart collected).1, Except.ok.injEq, exitCode_eq_zero_iff]
    simp [Succeeds, formats.noHelp, formats.noVersion, formats.accepted, fits, exact, given]

theorem exists_runIn_fst_eq_error_iff (distinct : workspace.Distinct) :
    (∃ crash, (runIn decode workspace arguments).1 = .error crash) ↔ Dies decode workspace arguments := by
  cases course decode workspace arguments with
  | help help idles => exact iff_of_false (by simp [idles.ends]) fun dies => dies.1.noHelp help
  | version noHelp version idles => exact iff_of_false (by simp [idles.ends]) fun dies => dies.1.noVersion version
  | refused noHelp noVersion refused idles =>
    exact iff_of_false (by simp [idles.ends]) fun dies => refused dies.1.accepted
  | lost formats lost idles => exact iff_of_true ⟨_, idles.ends⟩ ⟨formats, .inl ⟨_, lost⟩⟩
  | died formats given unfit dies idles => exact iff_of_true ⟨_, idles.ends⟩ ⟨formats, .inr dies⟩
  | unfit formats given unfit alive idles =>
    exact iff_of_false (by simp [idles.ends]) fun dies => by simpa [given, alive] using dies.2
  | busy formats given fits =>
    obtain ⟨targets, collected⟩ := collect_of_fits fits
    have ends := (runIn_of_targets formats given (collect_targets distinct collected).1 collected).1
    exact iff_of_false (by simp [ends]) fun dies => by simpa [given, fits.alive] using dies.2

end Effect

/-- What a run does to the files: a target whose formatted text differs is replaced by it where that is
asked for and possible, and nothing else is. The targets are the file that is named, or the source
files below the directory that is named, each once. The exit code is 0 exactly if help or the version
was asked for, or every target was dealt with; and there is none exactly if the program dies, of the settings
or of the path. -/
theorem runIn_effect (decode : Toml.Decoder) (workspace : Workspace) (arguments : List String)
    (distinct : workspace.Distinct) :
    (∀ location,
      (∀ output, Rewrites decode workspace arguments location output →
        (runIn decode workspace arguments).2.workspace.bytes? location = some output.toUTF8) ∧
      ((∀ output, ¬Rewrites decode workspace arguments location output) →
        (runIn decode workspace arguments).2.workspace.bytes? location = workspace.bytes? location)) ∧
    (PathFits workspace (.given arguments) → ∃ targets,
      Target.collect workspace (Arguments.given arguments).start
        (Arguments.given arguments).singleFile = .ok (.ok targets) ∧
      (targets.map Target.location).Nodup ∧
      ∀ location, location ∈ targets.map Target.location ↔
        IsTarget workspace (.given arguments) location) ∧
    ((runIn decode workspace arguments).1 = .ok 0 ↔ Succeeds decode workspace arguments) ∧
    ((∃ crash, (runIn decode workspace arguments).1 = .error crash) ↔ Dies decode workspace arguments) := by
  refine ⟨leaves_runIn distinct, fun fits => ?_, runIn_fst_eq_zero_iff distinct,
    exists_runIn_fst_eq_error_iff distinct⟩
  obtain ⟨targets, collected⟩ := collect_of_fits fits
  exact ⟨targets, collected, collect_targets distinct collected⟩

/-- The one file that is named is written, with the settings that the file beside it holds. -/
theorem runIn_effect_named_file :
    let workspace : Workspace :=
      { home := "/w"
        files := [(["gml_fmt.toml"], "newlines_at_end = 2\n".toUTF8), (["a.gml"], "x=1".toUTF8)] }
    workspace.Distinct ∧
      (runIn Toml.read workspace ["-f", "a.gml"]).2.workspace.bytes? ["a.gml"] = some "x = 1;\n\n".toUTF8 := by
  intro workspace
  have distinct : workspace.Distinct := by
    unfold Workspace.Distinct
    decide
  have formats : Request.Formats ["-f", "a.gml"] := by
    refine ⟨?_, ?_, ?_⟩
    · unfold Request.AsksHelp
      decide
    · unfold Request.AsksVersion
      decide
    · unfold Arguments.Accepted
      decide
  have settings : settingsOf Toml.read workspace = .ok { newlinesAtEnd := 2 } := by
    have lies : SettingsFile.Lies workspace none ⟨"gml_fmt.toml", "/w/gml_fmt.toml", ["gml_fmt.toml"]⟩ :=
      ⟨rfl, by decide +kernel⟩
    have reads : workspace.Reads ["gml_fmt.toml"] "newlines_at_end = 2\n" :=
      Workspace.reads_of_stored (by decide) rfl (by decide)
    have denotes : Toml.read "newlines_at_end = 2\n" = .ok [("newlines_at_end", .int 2)] := rfl
    obtain ⟨resolved, found, reflects, _⟩ := ResolvedSettings.find_of_usable
      ⟨lies, [], _, rfl, by simp⟩ ⟨⟨_, reads, denotes⟩, by decide⟩
    rw [settingsOf, found]
    exact congrArg Except.ok (reflects.unique ⟨rfl, rfl, rfl⟩)
  have start : Path.ofText "a.gml" = { parts := ["a.gml"] } := by decide +kernel
  have found : workspace.find (.ofText "a.gml") = .ok (some (.file ["a.gml"])) := by
    rw [start]
    rfl
  have reads : workspace.Reads ["a.gml"] "x=1" :=
    Workspace.reads_of_stored (by decide) rfl (by decide)
  have reforms : Reforms { newlinesAtEnd := 2 } workspace ["a.gml"] "x = 1;\n\n" :=
    ⟨_, reads, by decide, by decide +kernel, by decide⟩
  have rewrites : Rewrites Toml.read workspace ["-f", "a.gml"] ["a.gml"] "x = 1;\n\n" :=
    ⟨formats, by decide, by decide, found, ⟨_, settings, reforms⟩, by decide⟩
  exact ⟨distinct, ((runIn_effect Toml.read workspace _ distinct).1 _).1 _ rewrites⟩

/-- There is nothing to format in the directory, and the program dies of its settings. -/
theorem runIn_dies_of_long_integer :
    (runIn Toml.read .longSetting []).1 = .error .longInteger ∧
      ∀ location, ¬IsTarget .longSetting (.given []) location := by
  have formats : Request.Formats [] := by
    refine ⟨?_, ?_, ?_⟩
    · unfold Request.AsksHelp
      decide
    · unfold Request.AsksVersion
      decide
    · unfold Arguments.Accepted
      decide
  have lost : settingsOf Toml.read .longSetting = .error .longInteger := by
    have first : SettingsFile.First .longSetting none _ := SettingsFile.first_withSettings _
    rw [settingsOf, ResolvedSettings.find_of_fatal first SettingsFile.fatal_longSetting]
    rfl
  refine ⟨(runIn_of_does (does_run_of_formats formats (does_formatAll_of_lost lost))).1, fun location target => ?_⟩
  obtain ⟨place, _, _, _, stored, named⟩ := target
  by_cases here : location = ["gml_fmt.toml"]
  · subst here
    revert named
    decide
  · simp [Workspace.isFile, Workspace.bytes?, Workspace.longSetting, Workspace.withSettings, here] at stored

end Command

end GmlLayout
