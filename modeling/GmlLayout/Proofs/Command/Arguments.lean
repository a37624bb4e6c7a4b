import GmlLayout.Command.Arguments

/-!
The command line is read argument by argument. Read at once it says the same: which flags stand in it,
in whatever order, and which one argument is the path.
-/

namespace GmlLayout.Command

namespace Arguments

def flags : List String :=
  ["-f", "--file", "-l", "--log", "-s", "--ast", "-n", "--no-overwrite", "-c", "--check", "--verbose"]

def isPath (argument : String) : Bool :=
  argument.toList.head? ≠ some '-'

def given (arguments : List String) : Arguments where
  path := arguments.find? isPath
  singleFile := "-f" ∈ arguments ∨ "--file" ∈ arguments
  overwrite := ¬("-n" ∈ arguments ∨ "--no-overwrite" ∈ arguments)
  showTexts := "-l" ∈ arguments ∨ "--log" ∈ arguments
  showTree := "-s" ∈ arguments ∨ "--ast" ∈ arguments
  checkOnly := "-c" ∈ arguments ∨ "--check" ∈ arguments
  verbose := "--verbose" ∈ arguments

def Accepted (arguments : List String) : Prop :=
  (∀ argument ∈ arguments, isPath argument = true ∨ argument ∈ flags) ∧
    (arguments.filter isPath).length ≤ 1

variable {done : List String} {argument : String}

theorem isPath_of_mem_flags (flag : argument ∈ flags) : isPath argument = false := by
  revert argument
  decide

theorem take_flag (flag : argument ∈ flags) :
    (given done).take argument = .ok (given (done ++ [argument])) := by
  have noPath := isPath_of_mem_flags flag
  have kept : (done ++ [argument]).find? isPath = done.find? isPath := by
    simp [List.find?_append, noPath]
  simp only [flags, List.mem_cons, List.not_mem_nil, or_false] at flag
  obtain rfl | rfl | rfl | rfl | rfl | rfl | rfl | rfl | rfl | rfl | rfl := flag
  all_goals simp [take, given, kept]

theorem take_path (path : isPath argument = true) :
    (given done).take argument =
      if (done.find? isPath).isSome then .error .tooManyPaths else .ok (given (done ++ [argument])) := by
  have noFlag : argument ∉ flags := fun flag => by
    rw [isPath_of_mem_flags flag] at path
    cases path
  have noDash : ¬argument.toList.head? = some '-' := by simpa [isPath] using path
  simp only [flags, List.mem_cons, List.not_mem_nil, or_false, not_or] at noFlag
  unfold take
  split
  all_goals try simp at noFlag
  rw [if_neg noDash]
  cases found : done.find? isPath with
  | some first => simp [given, found]
  | none =>
    have here : (done ++ [argument]).find? isPath = some argument := by
      simp [List.find?_append, found, path]
    simp [given, found, here, eq_comm, noFlag]

theorem take_unknown (noPath : isPath argument = false) (noFlag : argument ∉ flags) :
    (given done).take argument = .error (.unknownFlag argument) := by
  have dash : argument.toList.head? = some '-' := by simpa [isPath] using noPath
  simp only [flags, List.mem_cons, List.not_mem_nil, or_false, not_or] at noFlag
  unfold take
  split
  all_goals try simp at noFlag
  rw [if_pos dash]

theorem Accepted.before {rest : List String} (accepted : Accepted (done ++ rest)) : Accepted done := by
  refine ⟨fun argument member => accepted.1 argument (List.mem_append_left _ member), ?_⟩
  have all := accepted.2
  rw [List.filter_append, List.length_append] at all
  omega

theorem find?_isPath_eq_none : done.find? isPath = none ↔ (done.filter isPath).length = 0 := by
  simp [List.find?_eq_none, List.filter_eq_nil_iff]

theorem accepted_snoc (accepted : Accepted done) : Accepted (done ++ [argument]) ↔
    argument ∈ flags ∨ isPath argument = true ∧ (done.find? isPath).isSome = false := by
  have one := accepted.2
  have known : (∀ other ∈ done ++ [argument], isPath other = true ∨ other ∈ flags) ↔
      isPath argument = true ∨ argument ∈ flags := by
    refine ⟨fun all => all argument (by simp), fun last other member => ?_⟩
    obtain member | member := List.mem_append.mp member
    · exact accepted.1 other member
    · exact List.mem_singleton.mp member ▸ last
  rw [Accepted, known, Option.isSome_eq_false_iff, Option.isNone_iff_eq_none, find?_isPath_eq_none,
    List.filter_append, List.length_append]
  by_cases flag : argument ∈ flags
  · have noPath := isPath_of_mem_flags flag
    simp [flag, noPath, one]
  · cases path : isPath argument <;> simp [flag, path]

theorem take_given (accepted : Accepted done) :
    (Accepted (done ++ [argument]) ∧ (given done).take argument = .ok (given (done ++ [argument]))) ∨
      (¬Accepted (done ++ [argument]) ∧ ∃ cause, (given done).take argument = .error cause) := by
  rw [accepted_snoc accepted]
  by_cases flag : argument ∈ flags
  · exact .inl ⟨.inl flag, take_flag flag⟩
  · cases path : isPath argument with
    | false => exact .inr ⟨by simp [flag], _, take_unknown path flag⟩
    | true =>
      have taken := @take_path done argument path
      cases found : (done.find? isPath).isSome with
      | true =>
        rw [found] at taken
        exact .inr ⟨by simp [flag], _, taken⟩
      | false =>
        rw [found] at taken
        exact .inl ⟨.inr ⟨rfl, rfl⟩, taken⟩

/-- Taking the arguments in turn comes to what they ask for together, exactly if all are accepted. -/
theorem foldlM_take (rest : List String) (accepted : Accepted done) :
    (Accepted (done ++ rest) ∧ rest.foldlM take (given done) = .ok (given (done ++ rest))) ∨
      (¬Accepted (done ++ rest) ∧ ∃ cause, rest.foldlM take (given done) = .error cause) := by
  induction rest generalizing done with
  | nil => exact .inl ⟨by rwa [List.append_nil], by rw [List.append_nil]; rfl⟩
  | cons argument rest ih =>
    rw [List.foldlM_cons, List.append_cons]
    obtain ⟨more, taken⟩ | ⟨refused, cause, taken⟩ := @take_given done argument accepted
    · rw [taken]
      exact ih more
    · exact .inr ⟨fun all => refused all.before, cause, by rw [taken]; rfl⟩

theorem given_nil : given [] = {} := by
  simp [given]

theorem ofList_eq_ok_iff {arguments : List String} {options : Arguments} :
    ofList arguments = .ok options ↔ Accepted arguments ∧ options = given arguments := by
  have empty : Accepted [] := ⟨(fun _ member => nomatch member), Nat.zero_le _⟩
  have read := foldlM_take arguments empty
  rw [List.nil_append, given_nil] at read
  obtain ⟨accepted, read⟩ | ⟨refused, cause, read⟩ := read
  · have read : ofList arguments = .ok (given arguments) := read
    rw [read]
    exact ⟨fun same => ⟨accepted, (Except.ok.inj same).symm⟩, fun same => congrArg _ same.2.symm⟩
  · have read : ofList arguments = .error cause := read
    rw [read]
    exact ⟨(fun same => nomatch same), fun same => absurd same.1 refused⟩

end Arguments

namespace Request

def AsksHelp (arguments : List String) : Prop :=
  "--help" ∈ arguments ∨ "-h" ∈ arguments

def AsksVersion (arguments : List String) : Prop :=
  "--version" ∈ arguments ∨ "-v" ∈ arguments

variable {arguments : List String}

instance : Decidable (AsksHelp arguments) :=
  inferInstanceAs (Decidable (_ ∨ _))

instance : Decidable (AsksVersion arguments) :=
  inferInstanceAs (Decidable (_ ∨ _))

theorem ofList_of_help (help : AsksHelp arguments) : ofList arguments = .ok .help :=
  if_pos help

theorem ofList_of_version (noHelp : ¬AsksHelp arguments) (version : AsksVersion arguments) :
    ofList arguments = .ok .version := by
  rw [AsksHelp] at noHelp
  rw [AsksVersion] at version
  rw [ofList, if_neg noHelp, if_pos version]

theorem ofList_of_neither (noHelp : ¬AsksHelp arguments) (noVersion : ¬AsksVersion arguments) :
    ofList arguments = (Arguments.ofList arguments).map .formatting := by
  rw [AsksHelp] at noHelp
  rw [AsksVersion] at noVersion
  rw [ofList, if_neg noHelp, if_neg noVersion]

/-- Neither help nor the version is asked for, and all arguments are accepted. -/
structure Formats (arguments : List String) : Prop where
  noHelp : ¬AsksHelp arguments
  noVersion : ¬AsksVersion arguments
  accepted : Arguments.Accepted arguments

theorem ofList_of_formats (formats : Formats arguments) :
    ofList arguments = .ok (.formatting (.given arguments)) := by
  rw [ofList_of_neither formats.noHelp formats.noVersion,
    Arguments.ofList_eq_ok_iff.mpr ⟨formats.accepted, rfl⟩]
  rfl

theorem exists_error_of_refused (noHelp : ¬AsksHelp arguments) (noVersion : ¬AsksVersion arguments)
    (refused : ¬Arguments.Accepted arguments) : ∃ cause, ofList arguments = .error cause := by
  rw [ofList_of_neither noHelp noVersion]
  cases read : Arguments.ofList arguments with
  | error cause => exact ⟨cause, rfl⟩
  | ok options => exact absurd (Arguments.ofList_eq_ok_iff.mp read).1 refused

end Request

end GmlLayout.Command
