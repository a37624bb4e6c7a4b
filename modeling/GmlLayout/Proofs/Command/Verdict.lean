import GmlLayout.Command.Run
import GmlLayout.Proofs.Workspace.Files

/-!
What formatting a file comes to is decided by its text alone, before anything is written. A run makes of
each such verdict what its arguments say; and since it writes no file but the one at hand, the verdicts
are those of the files as they were at the start.
-/

namespace GmlLayout

/-- Whether a file may be written is a question of its location as a value. -/
instance Location.lawfulBEq : LawfulBEq Location :=
  inferInstance

theorem formatWithTree_eq {settings : Settings} {source : String} : formatWithTree settings source =
    (parse source).map fun program => ((layOut settings program).output, Stmt.dumpProgram program) := by
  unfold formatWithTree
  cases parse source <;> rfl

theorem format_eq {settings : Settings} {source : String} : format settings source =
    (parse source).map fun program => (layOut settings program).output := by
  unfold format
  cases parse source <;> rfl

namespace Command

/-- What a run does that lasts: the files it leaves, what it prints, and what it tries to write. -/
structure Deeds where
  workspace : Workspace
  stdout : String := ""
  attempts : List Target := []

def Deeds.printing (deeds : Deeds) (text : String) : Deeds :=
  { deeds with stdout := deeds.stdout ++ text }

def Session.deeds (session : Session) : Deeds where
  workspace := session.workspace
  stdout := session.stdout
  attempts := session.attempts

section Does

variable {α β : Type} {program : Run α} {before middle after : Deeds} {value : α}

/-- Whatever it has complained of before, the program gives the value and goes on to the deeds
`after`. -/
def Does (program : Run α) (before : Deeds) (value : α) (after : Deeds) : Prop :=
  ∀ session : Session, session.deeds = before →
    (program.run session).1 = value ∧ (program.run session).2.deeds = after

namespace Does

theorem pure : Does (pure value) before value before :=
  fun _ same => ⟨rfl, same⟩

theorem bind {next : α → Run β} {result : β} (first : Does program before value middle)
    (second : Does (next value) middle result after) : Does (program >>= next) before result after := by
  intro session same
  obtain ⟨given, reached⟩ := first session same
  rw [StateT.run_bind]
  change ((next (program.run session).1).run (program.run session).2).1 = result ∧
    ((next (program.run session).1).run (program.run session).2).2.deeds = after
  rw [given]
  exact second _ reached

theorem ite {condition : Prop} [Decidable condition] {other : Run α}
    (yes : condition → Does program before value after) (no : ¬condition → Does other before value after) :
    Does (if condition then program else other) before value after := by
  split
  · exact yes ‹_›
  · exact no ‹_›

theorem get {next : Session → Run β} {result : β}
    (rest : ∀ session : Session, session.deeds = before → Does (next session) before result after) :
    Does (get >>= next) before result after :=
  fun session same => rest session same session same

end Does

theorem does_say (line : String) : Does (Run.say line) before () (before.printing (line ++ "\n")) := by
  rintro session rfl
  refine ⟨rfl, ?_⟩
  change Deeds.mk session.workspace (session.stdout ++ line ++ "\n") session.attempts =
    Deeds.mk session.workspace (session.stdout ++ (line ++ "\n")) session.attempts
  rw [String.append_assoc]

theorem does_complain (line : String) : Does (Run.complain line) before () before := by
  rintro session rfl
  exact ⟨rfl, rfl⟩

theorem does_log (level : Level) (message : String) : Does (Run.log level message) before () before :=
  .get fun _ _ => .ite (fun _ => does_complain _) (fun _ => .pure)

theorem does_logAll (records : List LogRecord) : Does (Run.logAll records) before () before := by
  induction records with
  | nil => exact .pure
  | cons record records ih => exact (does_log record.level record.message).bind ih

theorem does_fileFailure (verb : String) (target : Target) (error : FileError) :
    Does (fileFailure verb target error) before .failed before :=
  (does_log _ _).bind ((does_complain _).bind .pure)

theorem does_parseFailure (target : Target) (source : String) (cause : ParseError) :
    Does (parseFailure target source cause) before .failed before :=
  (does_log _ _).bind ((does_complain _).bind ((does_complain _).bind .pure))

theorem does_optionally {asked : Bool} {first second : String} {next : Unit → Run β} {result : β}
    (rest : Does (next ()) before result after) :
    Does (if asked then do Run.complain first; let done ← Run.complain second; next done else next ())
      before result after :=
  .ite (fun _ => (does_complain _).bind ((does_complain _).bind rest)) (fun _ => rest)

end Does

inductive Verdict where
  | unreadable
  | ignored
  | unparsable
  | neat
  | differs (output : String)
deriving DecidableEq

namespace Verdict

def ofText (settings : Settings) (source : String) : Verdict :=
  if isIgnored source then .ignored
  else
    match format settings source with
    | .error _ => .unparsable
    | .ok output => if output = source then .neat else .differs output

def ofFile (settings : Settings) (workspace : Workspace) (location : Location) : Verdict :=
  match workspace.readText location with
  | .error _ => .unreadable
  | .ok source => ofText settings source

def output? (arguments : Arguments) : Verdict → Option String
  | .differs output => if arguments.checkOnly = false ∧ arguments.overwrite = true then some output else none
  | _ => none

def report (arguments : Arguments) (target : Target) : Verdict → String
  | .differs _ => if arguments.checkOnly then "Needs formatting: " ++ target.shown ++ "\n" else ""
  | _ => ""

def outcome (arguments : Arguments) (writable : Bool) : Verdict → Outcome
  | .unreadable | .unparsable => .failed
  | .ignored => .skipped
  | .neat => .unchanged
  | .differs _ =>
    if arguments.checkOnly then .needsFormatting
    else if arguments.overwrite ∧ writable = false then .failed
    else .formatted

end Verdict

def stored (workspace : Workspace) (location : Location) (output : String) : Workspace :=
  if location ∈ workspace.unwritable then workspace else workspace.replace location output.toUTF8

def Deeds.after (arguments : Arguments) (deeds : Deeds) (target : Target) (verdict : Verdict) : Deeds where
  workspace := (verdict.output? arguments).elim deeds.workspace (stored deeds.workspace target.location)
  stdout := deeds.stdout ++ verdict.report arguments target
  attempts := deeds.attempts ++ ((verdict.output? arguments).map fun _ => target).toList

section File

variable {arguments : Arguments} {settings : Settings} {target : Target} {deeds : Deeds}

theorem does_overwrite (output : String) : Does (overwrite target output) deeds
    (if target.location ∈ deeds.workspace.unwritable then .failed else .formatted)
    { deeds with
      workspace := stored deeds.workspace target.location output
      attempts := deeds.attempts ++ [target] } := by
  have noted : Does (modify fun session => { session with attempts := session.attempts ++ [target] })
      deeds () { deeds with attempts := deeds.attempts ++ [target] } := by
    rintro session rfl
    exact ⟨rfl, rfl⟩
  refine noted.bind (.get fun session same => ?_)
  have here : session.workspace = deeds.workspace := congrArg Deeds.workspace same
  unfold Workspace.writeText stored
  rw [here]
  by_cases denied : target.location ∈ deeds.workspace.unwritable
  · rw [if_pos (by simpa using denied), if_pos denied, if_pos denied]
    exact does_fileFailure "write" target .denied
  · rw [if_neg (by simpa using denied), if_neg denied, if_neg denied]
    have replaced : Does
        (modify fun session => { session with
          workspace := deeds.workspace.replace target.location output.toUTF8 })
        { deeds with attempts := deeds.attempts ++ [target] } ()
        { deeds with
          workspace := deeds.workspace.replace target.location output.toUTF8
          attempts := deeds.attempts ++ [target] } := by
      intro session same
      have printed : session.stdout = deeds.stdout := congrArg Deeds.stdout same
      have tried : session.attempts = deeds.attempts ++ [target] := congrArg Deeds.attempts same
      refine ⟨rfl, ?_⟩
      change Deeds.mk (deeds.workspace.replace target.location output.toUTF8) session.stdout
        session.attempts = _
      rw [printed, tried]
    exact replaced.bind ((does_log _ _).bind .pure)

theorem does_settle (source output : String) :
    Does (settle arguments target source output) deeds
      ((if output = source then Verdict.neat else .differs output).outcome arguments
        (target.location ∉ deeds.workspace.unwritable))
      (deeds.after arguments target (if output = source then .neat else .differs output)) := by
  unfold settle
  by_cases same : output = source
  · rw [if_pos same, if_pos same]
    have kept : deeds.after arguments target .neat = deeds := by
      simp [Deeds.after, Verdict.output?, Verdict.report]
    rw [kept]
    exact (does_log _ _).bind .pure
  · rw [if_neg same, if_neg same]
    cases checks : arguments.checkOnly with
    | true =>
      have reported : deeds.after arguments target (.differs output) =
          deeds.printing ("Needs formatting: " ++ target.shown ++ "\n") := by
        simp [Deeds.after, Deeds.printing, Verdict.output?, Verdict.report, checks]
      rw [reported, if_pos rfl]
      simp only [Verdict.outcome, checks, if_true]
      exact (does_say _).bind .pure
    | false =>
      rw [if_neg Bool.false_ne_true]
      cases overwrites : arguments.overwrite with
      | true =>
        have written := @does_overwrite target deeds output
        simpa [Verdict.outcome, Deeds.after, Verdict.output?, Verdict.report, checks, overwrites] using written
      | false =>
        have kept : deeds.after arguments target (.differs output) = deeds := by
          simp [Deeds.after, Verdict.output?, Verdict.report, checks, overwrites]
        rw [kept]
        simpa [Verdict.outcome, checks, overwrites] using Does.pure

theorem Deeds.after_of_quiet {verdict : Verdict} (quiet : ∀ output, verdict ≠ .differs output) :
    deeds.after arguments target verdict = deeds := by
  cases verdict with
  | differs output => exact absurd rfl (quiet output)
  | unreadable | ignored | unparsable | neat => simp [Deeds.after, Verdict.output?, Verdict.report]

theorem does_formatText (source : String) :
    Does (formatText arguments settings target source) deeds
      ((Verdict.ofText settings source).outcome arguments
        (target.location ∉ deeds.workspace.unwritable))
      (deeds.after arguments target (.ofText settings source)) := by
  unfold formatText Verdict.ofText
  cases ignored : isIgnored source with
  | true =>
    rw [if_pos rfl, if_pos rfl, Deeds.after_of_quiet (by simp)]
    exact (does_log _ _).bind .pure
  | false =>
    rw [if_neg Bool.false_ne_true, if_neg Bool.false_ne_true, formatWithTree_eq, format_eq]
    cases parse source with
    | error cause =>
      simp only [Except.map]
      rw [Deeds.after_of_quiet (by simp)]
      exact does_optionally (does_parseFailure target source cause)
    | ok program =>
      have settled := @does_settle arguments target deeds source (layOut settings program).output
      exact does_optionally (does_optionally (does_optionally settled))

theorem does_formatTarget :
    Does (formatTarget arguments settings target) deeds
      ((Verdict.ofFile settings deeds.workspace target.location).outcome arguments
        (target.location ∉ deeds.workspace.unwritable))
      (deeds.after arguments target (.ofFile settings deeds.workspace target.location)) := by
  refine .get fun session same => ?_
  have here : session.workspace = deeds.workspace := congrArg Deeds.workspace same
  rw [here]
  unfold Verdict.ofFile
  cases deeds.workspace.readText target.location with
  | error error =>
    dsimp only
    rw [Deeds.after_of_quiet (by simp)]
    exact does_fileFailure "read" target error
  | ok source => exact does_formatText source

end File

section Files

variable {arguments : Arguments} {settings : Settings} {original current : Workspace}
  {target : Target} {targets : List Target} {deeds : Deeds}

structure Pristine (original current : Workspace) (targets : List Target) : Prop where
  unreadable : current.unreadable = original.unreadable
  unwritable : current.unwritable = original.unwritable
  bytes : ∀ target ∈ targets, current.bytes? target.location = original.bytes? target.location

theorem Pristine.ofFile (pristine : Pristine original current (target :: targets)) :
    Verdict.ofFile settings current target.location = .ofFile settings original target.location := by
  unfold Verdict.ofFile
  rw [Workspace.readText_congr (pristine.bytes target List.mem_cons_self) pristine.unreadable]

theorem Pristine.after (verdict : Verdict) (pristine : Pristine original deeds.workspace (target :: targets))
    (apart : ∀ other ∈ targets, other.location ≠ target.location) :
    Pristine original (deeds.after arguments target verdict).workspace targets := by
  have kept : Pristine original deeds.workspace targets :=
    ⟨pristine.unreadable, pristine.unwritable,
      fun other member => pristine.bytes other (List.mem_cons_of_mem _ member)⟩
  unfold Deeds.after stored
  cases verdict.output? arguments with
  | none => exact kept
  | some output =>
    dsimp only [Option.elim]
    split
    · exact kept
    · refine ⟨kept.unreadable, kept.unwritable, fun other member => ?_⟩
      rw [Workspace.bytes?_replace_of_ne (apart other member)]
      exact kept.bytes other member

def Deeds.afterAll (arguments : Arguments) (settings : Settings) (original : Workspace) (deeds : Deeds)
    (targets : List Target) : Deeds :=
  targets.foldl (fun deeds target =>
    deeds.after arguments target (.ofFile settings original target.location)) deeds

def outcomeOf (arguments : Arguments) (settings : Settings) (original : Workspace) (target : Target) :
    Outcome :=
  (Verdict.ofFile settings original target.location).outcome arguments
    (target.location ∉ original.unwritable)

/-- Several files in turn. The verdict on each is that on the file as it was at the start. -/
theorem does_formatTargets (apart : (targets.map Target.location).Nodup)
    (pristine : Pristine original deeds.workspace targets) :
    Does (targets.mapM (formatTarget arguments settings)) deeds
      (targets.map (outcomeOf arguments settings original))
      (deeds.afterAll arguments settings original targets) := by
  induction targets generalizing deeds with
  | nil => exact .pure
  | cons target targets ih =>
    rw [List.map_cons, List.nodup_cons] at apart
    have others : ∀ other ∈ targets, other.location ≠ target.location :=
      fun other member same => apart.1 (same ▸ List.mem_map_of_mem member)
    have first := @does_formatTarget arguments settings target deeds
    rw [pristine.ofFile, pristine.unwritable] at first
    have still := @Pristine.after arguments _ _ _ _ (.ofFile settings original target.location) pristine others
    have rest := ih apart.2 still
    rw [List.mapM_cons]
    exact first.bind (rest.bind .pure)

theorem stdout_afterAll : (deeds.afterAll arguments settings original targets).stdout =
    deeds.stdout ++ String.join (targets.map fun target =>
      (Verdict.ofFile settings original target.location).report arguments target) := by
  induction targets generalizing deeds with
  | nil => simp [Deeds.afterAll]
  | cons target targets ih =>
    have rest := @ih (deeds.after arguments target (.ofFile settings original target.location))
    rw [List.map_cons, String.join_cons, ← String.append_assoc]
    exact rest

theorem attempts_afterAll : (deeds.afterAll arguments settings original targets).attempts =
    deeds.attempts ++ targets.filter fun target =>
      ((Verdict.ofFile settings original target.location).output? arguments).isSome := by
  induction targets generalizing deeds with
  | nil => simp [Deeds.afterAll]
  | cons target targets ih =>
    have rest := @ih (deeds.after arguments target (.ofFile settings original target.location))
    refine Eq.trans rest ?_
    cases tried : (Verdict.ofFile settings original target.location).output? arguments with
    | none => simp [Deeds.after, tried]
    | some output => simp [Deeds.after, tried]

def written? (arguments : Arguments) (settings : Settings) (original : Workspace) (location : Location) :
    Option String :=
  if location ∈ original.unwritable then none
  else (Verdict.ofFile settings original location).output? arguments

def overlaid (written : Option String) (bytes : Option ByteArray) : Option ByteArray :=
  written.elim bytes fun output => bytes.map fun _ => output.toUTF8

theorem overlaid_overlaid (written : Option String) (bytes : Option ByteArray) :
    overlaid written (overlaid written bytes) = overlaid written bytes := by
  cases written <;> cases bytes <;> rfl

theorem unwritable_after (verdict : Verdict) :
    (deeds.after arguments target verdict).workspace.unwritable = deeds.workspace.unwritable := by
  unfold Deeds.after stored
  cases verdict.output? arguments with
  | none => rfl
  | some output =>
    dsimp only [Option.elim]
    split <;> rfl

theorem bytes?_after (allowed : deeds.workspace.unwritable = original.unwritable) (location : Location) :
    (deeds.after arguments target (.ofFile settings original target.location)).workspace.bytes? location =
      if location = target.location then
        overlaid (written? arguments settings original location) (deeds.workspace.bytes? location)
      else deeds.workspace.bytes? location := by
  unfold Deeds.after stored written?
  rw [allowed]
  by_cases here : location = target.location
  · subst here
    rw [if_pos rfl]
    cases (Verdict.ofFile settings original target.location).output? arguments with
    | none => simp [overlaid]
    | some output =>
      by_cases denied : target.location ∈ original.unwritable
      · simp [denied, overlaid]
      · simp [denied, overlaid, Workspace.bytes?_replace]
  · rw [if_neg here]
    cases (Verdict.ofFile settings original target.location).output? arguments with
    | none => rfl
    | some output =>
      dsimp only [Option.elim]
      split
      · rfl
      · exact Workspace.bytes?_replace_of_ne here

theorem bytes?_afterAll (allowed : deeds.workspace.unwritable = original.unwritable) (location : Location) :
    (deeds.afterAll arguments settings original targets).workspace.bytes? location =
      if location ∈ targets.map Target.location then
        overlaid (written? arguments settings original location) (deeds.workspace.bytes? location)
      else deeds.workspace.bytes? location := by
  induction targets generalizing deeds with
  | nil => simp [Deeds.afterAll]
  | cons target targets ih =>
    have allowed' := (@unwritable_after arguments target _
      (.ofFile settings original target.location)).trans allowed
    refine Eq.trans (ih allowed') ?_
    rw [bytes?_after allowed]
    by_cases here : location = target.location
    · simp [here, overlaid_overlaid]
    · simp [here]

end Files

end Command

end GmlLayout
