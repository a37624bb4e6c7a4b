import GmlLayout.Proofs.Command.Effect
import GmlLayout.Proofs.Layout.Breaks

/-!
A check tells what formatting would do. It succeeds exactly if formatting would succeed and leave every
file as it is, and it names the files that formatting would try to write.
-/

namespace GmlLayout

theorem Workspace.Reads.bytes?_ne {workspace : Workspace} {location : Location} {text output : String}
    (reads : workspace.Reads location text) (none : '\r' ∉ output.toList) (differs : output ≠ text) :
    workspace.bytes? location ≠ some output.toUTF8 := by
  obtain ⟨bytes, content, found, decoded, rfl⟩ := reads.decoded
  intro same
  obtain rfl := Option.some.inj (found.symm.trans same)
  have again : String.fromUTF8? output.toUTF8 = some output := dif_pos output.isValidUTF8
  obtain rfl := Option.some.inj (again.symm.trans decoded)
  rw [Text.unifyBreaks_of_unreturned none, String.ofList_toList] at differs
  exact differs rfl

namespace Command

namespace Arguments

def restraints : List String :=
  ["-c", "--check", "-n", "--no-overwrite"]

def unrestrained (arguments : List String) : List String :=
  arguments.filter fun argument => argument ∉ restraints

def writing (options : Arguments) : Arguments :=
  { options with checkOnly := false, overwrite := true }

variable {arguments : List String} {argument : String}

theorem mem_flags_of_mem_restraints (restrains : argument ∈ restraints) : argument ∈ flags := by
  revert argument
  decide

theorem mem_unrestrained (kept : argument ∉ restraints) :
    argument ∈ unrestrained arguments ↔ argument ∈ arguments := by
  rw [unrestrained, List.mem_filter]
  exact and_iff_left (decide_eq_true kept)

theorem kept_of_isPath (path : isPath argument = true) : argument ∉ restraints := by
  intro restrains
  rw [isPath_of_mem_flags (mem_flags_of_mem_restraints restrains)] at path
  cases path

theorem given_unrestrained : given (unrestrained arguments) = (given arguments).writing := by
  have path : (unrestrained arguments).find? isPath = arguments.find? isPath := by
    rw [unrestrained, List.find?_filter]
    congr 1
    funext argument
    cases path : isPath argument with
    | true => simpa using kept_of_isPath path
    | false => simp
  have none : ∀ argument ∈ restraints, argument ∉ unrestrained arguments := by
    intro argument restrains member
    exact absurd restrains (of_decide_eq_true (List.mem_filter.mp member).2)
  simp only [restraints, List.forall_mem_cons] at none
  obtain ⟨check, checkLong, keep, keepLong, _⟩ := none
  simp [given, writing, path, check, checkLong, keep, keepLong,
    @mem_unrestrained arguments "-f" (by decide),
    @mem_unrestrained arguments "--file" (by decide),
    @mem_unrestrained arguments "-l" (by decide),
    @mem_unrestrained arguments "--log" (by decide),
    @mem_unrestrained arguments "-s" (by decide),
    @mem_unrestrained arguments "--ast" (by decide),
    @mem_unrestrained arguments "--verbose" (by decide)]

theorem accepted_unrestrained : Accepted (unrestrained arguments) ↔ Accepted arguments := by
  have paths : (unrestrained arguments).filter isPath = arguments.filter isPath := by
    rw [unrestrained, List.filter_filter]
    refine List.filter_congr fun argument _ => ?_
    cases path : isPath argument with
    | true => simpa using kept_of_isPath path
    | false => simp
  have known : (∀ argument ∈ unrestrained arguments, isPath argument = true ∨ argument ∈ flags) ↔
      ∀ argument ∈ arguments, isPath argument = true ∨ argument ∈ flags := by
    refine ⟨fun all argument member => ?_, fun all argument member => all argument (List.mem_filter.mp member).1⟩
    by_cases restrains : argument ∈ restraints
    · exact .inr (mem_flags_of_mem_restraints restrains)
    · exact all argument ((mem_unrestrained restrains).mpr member)
  rw [Accepted, Accepted, paths, known]

end Arguments

open Arguments (unrestrained)

section Unrestrained

variable {decode : Toml.Decoder} {workspace : Workspace} {settings : Settings} {arguments : List String}
  {location : Location}

theorem asksHelp_unrestrained : Request.AsksHelp (unrestrained arguments) ↔ Request.AsksHelp arguments := by
  unfold Request.AsksHelp
  rw [Arguments.mem_unrestrained (by decide), Arguments.mem_unrestrained (by decide)]

theorem asksVersion_unrestrained :
    Request.AsksVersion (unrestrained arguments) ↔ Request.AsksVersion arguments := by
  unfold Request.AsksVersion
  rw [Arguments.mem_unrestrained (by decide), Arguments.mem_unrestrained (by decide)]

theorem formats_unrestrained : Request.Formats (unrestrained arguments) ↔ Request.Formats arguments :=
  ⟨fun ⟨noHelp, noVersion, accepted⟩ =>
    ⟨mt asksHelp_unrestrained.mpr noHelp, mt asksVersion_unrestrained.mpr noVersion,
      Arguments.accepted_unrestrained.mp accepted⟩,
  fun ⟨noHelp, noVersion, accepted⟩ =>
    ⟨mt asksHelp_unrestrained.mp noHelp, mt asksVersion_unrestrained.mp noVersion,
      Arguments.accepted_unrestrained.mpr accepted⟩⟩

theorem pathFits_unrestrained :
    PathFits workspace (.given (unrestrained arguments)) ↔ PathFits workspace (.given arguments) := by
  rw [Arguments.given_unrestrained]
  exact Iff.rfl

theorem isTarget_unrestrained :
    IsTarget workspace (.given (unrestrained arguments)) location ↔
      IsTarget workspace (.given arguments) location := by
  rw [Arguments.given_unrestrained]
  exact Iff.rfl

theorem busy_unrestrained : Busy decode workspace (unrestrained arguments) settings ↔
    Busy decode workspace arguments settings :=
  ⟨fun ⟨formats, given, fits⟩ => ⟨formats_unrestrained.mp formats, given, pathFits_unrestrained.mp fits⟩,
    fun ⟨formats, given, fits⟩ => ⟨formats_unrestrained.mpr formats, given, pathFits_unrestrained.mpr fits⟩⟩

theorem not_mem_unrestrained {argument : String} (restrains : argument ∈ Arguments.restraints) :
    argument ∉ unrestrained arguments :=
  fun member => absurd restrains (of_decide_eq_true (List.mem_filter.mp member).2)

end Unrestrained

section Agreement

variable {decode : Toml.Decoder} {workspace : Workspace} {settings : Settings} {arguments : List String}
  {location : Location}

theorem passes_check_iff {options : Arguments} (checks : options.checkOnly = true) :
    Passes settings workspace options location ↔
      Passes settings workspace options.writing location ∧
        ∀ output, ¬(Reforms settings workspace location output ∧ location ∉ workspace.unwritable) := by
  have here (options : Arguments) := @passes_iff workspace settings options ⟨"", location⟩
  rw [here, here]
  simp only [outcomeOf, ← Verdict.ofFile_eq_differs_iff]
  cases Verdict.ofFile settings workspace location with
  | unreadable | ignored | unparsable | neat => simp [Verdict.outcome]
  | differs output =>
    by_cases denied : location ∈ workspace.unwritable <;>
      simp [Verdict.outcome, Arguments.writing, checks, denied]

theorem unchanged_iff (distinct : workspace.Distinct) :
    (runIn decode workspace arguments).2.workspace.bytes? location = workspace.bytes? location ↔
      ∀ output, ¬Rewrites decode workspace arguments location output := by
  obtain ⟨rewritten, untouched⟩ := @leaves_runIn decode workspace arguments distinct location
  refine ⟨fun same output rewrites => ?_, untouched⟩
  have stored := same.symm.trans (rewritten output rewrites)
  obtain ⟨settings, _, text, reads, _, formatted, differs⟩ := rewrites.reforms
  have unreturned : '\r' ∉ text.toList := by
    obtain ⟨_, content, _, _, rfl⟩ := reads.decoded
    rw [String.toList_ofList]
    exact Text.not_mem_unifyBreaks _
  exact reads.bytes?_ne (format_unreturned unreturned formatted) differs stored

theorem rewrites_unrestrained {output : String} :
    Rewrites decode workspace (unrestrained arguments) location output ↔
      Request.Formats arguments ∧ IsTarget workspace (.given arguments) location ∧
        (∃ settings, settingsOf decode workspace = .ok settings ∧
          Reforms settings workspace location output) ∧ location ∉ workspace.unwritable := by
  constructor
  · rintro ⟨formats, _, _, target, reforms, writable⟩
    exact ⟨formats_unrestrained.mp formats, isTarget_unrestrained.mp target, reforms, writable⟩
  · rintro ⟨formats, target, reforms, writable⟩
    exact ⟨formats_unrestrained.mpr formats,
      ⟨not_mem_unrestrained (by decide), not_mem_unrestrained (by decide)⟩,
      ⟨not_mem_unrestrained (by decide), not_mem_unrestrained (by decide)⟩,
      isTarget_unrestrained.mpr target, reforms, writable⟩

theorem succeeds_check_iff (checks : (Arguments.given arguments).checkOnly = true) :
    Succeeds decode workspace arguments ↔ Succeeds decode workspace (unrestrained arguments) ∧
      ∀ location output, ¬Rewrites decode workspace (unrestrained arguments) location output := by
  unfold Succeeds
  rw [asksHelp_unrestrained, asksVersion_unrestrained, Arguments.accepted_unrestrained,
    pathFits_unrestrained]
  simp only [rewrites_unrestrained, Arguments.given_unrestrained, passes_check_iff checks]
  constructor
  · rintro (help | version | ⟨accepted, fits, settings, given, all⟩)
    · exact ⟨.inl help, fun _ _ rewrites => rewrites.1.noHelp help⟩
    · exact ⟨.inr (.inl version), fun _ _ rewrites => rewrites.1.noVersion version⟩
    · refine ⟨.inr (.inr ⟨accepted, fits, settings, given, fun location target => (all location target).1⟩), ?_⟩
      rintro location output ⟨_, target, ⟨other, also, reforms⟩, writable⟩
      obtain rfl := Except.ok.inj (given.symm.trans also)
      exact (all location target).2 output ⟨reforms, writable⟩
  · rintro ⟨help | version | ⟨accepted, fits, settings, given, all⟩, none⟩
    · exact .inl help
    · exact .inr (.inl version)
    · by_cases help : Request.AsksHelp arguments
      · exact .inl help
      by_cases version : Request.AsksVersion arguments
      · exact .inr (.inl version)
      refine .inr (.inr ⟨accepted, fits, settings, given, fun location target => ⟨all location target, ?_⟩⟩)
      rintro output ⟨reforms, writable⟩
      exact none location output ⟨⟨help, version, accepted⟩, target, ⟨settings, given, reforms⟩, writable⟩

def needsLine (target : Target) : String :=
  "Needs formatting: " ++ target.shown ++ "\n"

theorem join_report {options : Arguments} (checks : options.checkOnly = true) (settings : Settings)
    (targets : List Target) :
    String.join (targets.map fun target =>
        (Verdict.ofFile settings workspace target.location).report options target) =
      String.join ((targets.filter fun target =>
        ((Verdict.ofFile settings workspace target.location).output? options.writing).isSome).map
          needsLine) := by
  induction targets with
  | nil => rfl
  | cons target targets ih =>
    rw [List.map_cons, String.join_cons, ih, List.filter_cons]
    cases Verdict.ofFile settings workspace target.location with
    | differs output =>
      have reported : (Verdict.differs output).report options target = needsLine target := if_pos checks
      have tried : ((Verdict.differs output).output? options.writing).isSome = true := rfl
      rw [reported, if_pos tried, List.map_cons, String.join_cons]
    | unreadable | ignored | unparsable | neat => simp [Verdict.report, Verdict.output?]

def checkClosing (arguments : List String) (ending : Except Crash Nat) : String :=
  if Request.AsksHelp arguments then usage ++ "\n"
  else if Request.AsksVersion arguments then "gml_fmt " ++ Release.installed ++ "\n"
  else if ending.toOption = some 0 then "OK\n"
  else ""

theorem checkClosing_of_failed {ending : Except Crash Nat} (noHelp : ¬Request.AsksHelp arguments)
    (noVersion : ¬Request.AsksVersion arguments) (failed : ending ≠ .ok 0) : checkClosing arguments ending = "" := by
  rw [checkClosing, if_neg noHelp, if_neg noVersion, if_neg]
  cases ending with
  | error crash => simp [Except.toOption]
  | ok code => simpa [Except.toOption] using failed

theorem attempts_of_idle (idle : ∀ settings, ¬Busy decode workspace arguments settings) :
    (runIn decode workspace (unrestrained arguments)).2.attempts = [] := by
  obtain ⟨text, after⟩ := runIn_of_idle fun settings busy => idle settings (busy_unrestrained.mp busy)
  exact congrArg Deeds.attempts after

theorem stdout_of_idle {ending : Except Crash Nat} {text : String}
    (idles : Idles decode workspace arguments ending text)
    (idle : ∀ settings, ¬Busy decode workspace arguments settings) (closes : checkClosing arguments ending = text) :
    (runIn decode workspace arguments).2.stdout =
      String.join ((runIn decode workspace (unrestrained arguments)).2.attempts.map needsLine)
        ++ checkClosing arguments (runIn decode workspace arguments).1 := by
  have printed : (runIn decode workspace arguments).2.stdout = "" ++ text := congrArg Deeds.stdout idles.deeds
  rw [printed, attempts_of_idle idle, idles.ends, closes]
  rfl

theorem attempts_of_targets {targets : List Target} (formats : Request.Formats arguments)
    (given : settingsOf decode workspace = .ok settings) (apart : (targets.map Target.location).Nodup)
    (collected : Target.collect workspace (Arguments.given arguments).start
      (Arguments.given arguments).singleFile = .ok (.ok targets)) :
    (runIn decode workspace arguments).2.attempts = targets.filter fun target =>
      ((Verdict.ofFile settings workspace target.location).output? (.given arguments)).isSome := by
  have tried : (runIn decode workspace arguments).2.attempts = _ :=
    congrArg Deeds.attempts (runIn_of_targets formats given apart collected).2
  rw [tried, Deeds.printing, attempts_afterAll]
  rfl

theorem stdout_check (checks : (Arguments.given arguments).checkOnly = true) (distinct : workspace.Distinct) :
    (runIn decode workspace arguments).2.stdout =
      String.join ((runIn decode workspace (unrestrained arguments)).2.attempts.map needsLine)
        ++ checkClosing arguments (runIn decode workspace arguments).1 := by
  cases course decode workspace arguments with
  | help help idles =>
    exact stdout_of_idle idles (fun _ busy => busy.formats.noHelp help) (by simp [checkClosing, help])
  | version noHelp version idles =>
    exact stdout_of_idle idles (fun _ busy => busy.formats.noVersion version)
      (by simp [checkClosing, noHelp, version])
  | refused noHelp noVersion refused idles =>
    exact stdout_of_idle idles (fun _ busy => refused busy.formats.accepted)
      (checkClosing_of_failed noHelp noVersion nofun)
  | lost formats lost idles =>
    exact stdout_of_idle idles (fun _ busy => by cases lost.symm.trans busy.given)
      (checkClosing_of_failed formats.noHelp formats.noVersion nofun)
  | died formats given unfit dies idles =>
    exact stdout_of_idle idles (fun _ busy => unfit busy.fits)
      (checkClosing_of_failed formats.noHelp formats.noVersion nofun)
  | unfit formats given unfit alive idles =>
    exact stdout_of_idle idles (fun _ busy => unfit busy.fits)
      (checkClosing_of_failed formats.noHelp formats.noVersion nofun)
  | @busy settings formats given fits =>
    obtain ⟨targets, collected⟩ := collect_of_fits fits
    obtain ⟨apart, _⟩ := collect_targets distinct collected
    have collectedToo : Target.collect workspace (Arguments.given (unrestrained arguments)).start
        (Arguments.given (unrestrained arguments)).singleFile = .ok (.ok targets) := by
      rw [Arguments.given_unrestrained]
      exact collected
    obtain ⟨code, after⟩ := runIn_of_targets formats given apart collected
    have tried := attempts_of_targets (formats_unrestrained.mpr formats) given apart collectedToo
    have printed : (runIn decode workspace arguments).2.stdout = _ ++ _ := congrArg Deeds.stdout after
    rw [printed, stdout_afterAll, join_report checks, tried, Arguments.given_unrestrained, code, checkClosing,
      closing, if_neg formats.noHelp, if_neg formats.noVersion, if_pos checks]
    simp only [Except.toOption, Option.some.injEq]
    rfl

end Agreement

/-- A check ends with exit code 0 exactly if formatting would and would leave every file as it is; and
the files that it tells of are, in order, those that formatting would try to write. -/
theorem check_agrees (decode : Toml.Decoder) (workspace : Workspace) (arguments : List String)
    (checks : "-c" ∈ arguments ∨ "--check" ∈ arguments) (distinct : workspace.Distinct) :
    ((runIn decode workspace arguments).1 = .ok 0 ↔
      (runIn decode workspace (unrestrained arguments)).1 = .ok 0 ∧
        ∀ location, (runIn decode workspace (unrestrained arguments)).2.workspace.bytes? location =
          workspace.bytes? location) ∧
    (runIn decode workspace arguments).2.stdout =
      String.join ((runIn decode workspace (unrestrained arguments)).2.attempts.map fun target =>
        "Needs formatting: " ++ target.shown ++ "\n")
        ++ checkClosing arguments (runIn decode workspace arguments).1 := by
  have checks : (Arguments.given arguments).checkOnly = true := decide_eq_true checks
  refine ⟨?_, stdout_check checks distinct⟩
  simp only [runIn_fst_eq_zero_iff distinct, unchanged_iff distinct]
  exact succeeds_check_iff checks

/-- A file that is not neat is told of, and formatting would try to write it. -/
theorem check_agrees_named_file :
    let workspace : Workspace := { home := "/w", files := [(["a.gml"], "x=1".toUTF8)] }
    workspace.Distinct ∧
      (runIn Toml.read workspace ["-f", "a.gml"]).2.attempts = [⟨"a.gml", ["a.gml"]⟩] ∧
      (runIn Toml.read workspace ["-f", "a.gml", "--check"]).2.stdout = "Needs formatting: a.gml\n" := by
  intro workspace
  have distinct : workspace.Distinct := by
    unfold Workspace.Distinct
    decide
  have formats : Request.Formats ["-f", "a.gml"] := by
    refine ⟨?_, ?_, ?_⟩
    · unfold Request.AsksHelp
      decide
    · unfold Request.AsksVersion
      decide
    · unfold Arguments.Accepted
      decide
  have absent : ∀ name ∈ SettingsFile.names, SettingsFile.Absent workspace none name := by
    intro name member
    refine ⟨none, ?_, nofun⟩
    revert name
    decide
  have given : settingsOf Toml.read workspace = .ok {} := by
    rw [settingsOf, ResolvedSettings.find_of_absent absent]
    rfl
  have reads : workspace.Reads ["a.gml"] "x=1" :=
    Workspace.reads_of_stored (by decide) rfl (by decide)
  have differs : Verdict.ofFile {} workspace ["a.gml"] = .differs "x = 1;\n" :=
    Verdict.ofFile_eq_differs_iff.mpr ⟨"x=1", reads, by decide, by decide +kernel, by decide⟩
  have start : (Arguments.given ["-f", "a.gml"]).start = { parts := ["a.gml"] } := by decide +kernel
  have collected : Target.collect workspace (Arguments.given ["-f", "a.gml"]).start
      (Arguments.given ["-f", "a.gml"]).singleFile = .ok (.ok [⟨"a.gml", ["a.gml"]⟩]) := by
    rw [start]
    rfl
  have attempts : (runIn Toml.read workspace ["-f", "a.gml"]).2.attempts = [⟨"a.gml", ["a.gml"]⟩] := by
    rw [attempts_of_targets formats given (by decide) collected, List.filter_cons, differs]
    rfl
  have rewrites : Rewrites Toml.read workspace ["-f", "a.gml"] ["a.gml"] "x = 1;\n" := by
    have target : IsTarget workspace (.given ["-f", "a.gml"]) ["a.gml"] := by
      rw [IsTarget, if_pos (by decide), start]
      rfl
    exact ⟨formats, by decide, by decide, target, ⟨_, given, Verdict.ofFile_eq_differs_iff.mp differs⟩, by decide⟩
  have same : unrestrained ["-f", "a.gml", "--check"] = ["-f", "a.gml"] := by decide
  obtain ⟨code, told⟩ := check_agrees Toml.read workspace ["-f", "a.gml", "--check"] (by decide) distinct
  rw [same] at code told
  have failed : (runIn Toml.read workspace ["-f", "a.gml", "--check"]).1 ≠ .ok 0 := fun succeeds =>
    (unchanged_iff distinct).mp ((code.mp succeeds).2 ["a.gml"]) _ rewrites
  have closing : checkClosing ["-f", "a.gml", "--check"] _ = "" :=
    checkClosing_of_failed (by unfold Request.AsksHelp; decide) (by unfold Request.AsksVersion; decide) failed
  refine ⟨distinct, attempts, ?_⟩
  rw [told, attempts, closing]
  decide

end Command

end GmlLayout
