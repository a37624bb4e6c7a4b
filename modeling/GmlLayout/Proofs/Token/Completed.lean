import GmlLayout.Proofs.Token.Apart

/-!
Completed numbers. A number that starts or ends with a point is completed by a zero. The two parts are no two
tokens, but together they are cut off as one number in front of everything that the second part stays apart
from.
-/

namespace GmlLayout

open Munch

/-- The two parts of a number that is written with a zero in front of its point or behind it. -/
def completes (first second : String) : Bool :=
  match first.toList, second.toList with
  | ['0'], '.' :: digit :: _ => digit.isDigit
  | digit :: others, ['0'] => digit.isDigit && others.getLast? = some '.'
  | _, _ => false

variable {first second : String}

theorem shapes_of_completes (isNumber : completes first second = true) :
    (first.toList = ['0'] ∧ ∃ digit digits, second.toList = '.' :: digit :: digits ∧ digit.isDigit = true) ∨
      second.toList = ['0'] ∧ ∃ digit others, first.toList = digit :: (others ++ ['.']) ∧
        digit.isDigit = true := by
  unfold completes at isNumber
  split at isNumber
  · rename_i digit digits zero dotted
    exact .inl ⟨zero, digit, digits, dotted, isNumber⟩
  · rename_i digit others shape zero
    rw [Bool.and_eq_true, decide_eq_true_eq, List.getLast?_eq_some_iff] at isNumber
    obtain ⟨starts, inner, rfl⟩ := isNumber
    exact .inr ⟨zero, digit, inner, shape, starts⟩
  · cases isNumber

namespace Cut

variable {kind : Kind} {rest : List Char}

theorem kind_of_isDigit {digit : Char} {others : List Char} (cut : Cut kind (digit :: others) rest)
    (starts : digit.isDigit = true) : kind = .number ∨ kind = .numberEndDot := by
  obtain ⟨_, _, shape, reread⟩ := cut.read
  cases shape
  rw [read_of_isDigit starts] at reread
  unfold number at reread
  split at reread
  · exact .inl (Munch.mk.inj reread).1.symm
  · unfold decimal at reread
    split at reread
    · split at reread
      · exact .inl (Munch.mk.inj reread).1.symm
      · exact .inr (Munch.mk.inj reread).1.symm
    · exact .inr (Munch.mk.inj reread).1.symm
    · exact .inl (Munch.mk.inj reread).1.symm

theorem of_zero (cut : Cut kind ['0'] rest) : Stops (fun c => c.isDigit || c == '.') rest := by
  have isNumber := cut.kind_of_isDigit rfl
  generalize textEq : ['0'] = text at cut
  cases cut with
  | whole starts inside stops plain => exact stops
  | endDot => simp at textEq
  | fraction => simp at textEq
  | hexadecimal => cases textEq
  | color => cases textEq
  | word starts =>
    cases textEq
    cases starts
  | _ => simp at isNumber

theorem of_startDot {digit : Char} {digits : List Char} (cut : Cut kind ('.' :: digit :: digits) rest)
    (goesOn : digit.isDigit = true) : (∀ c ∈ digits, c.isDigit = true) ∧ Stops Char.isDigit rest := by
  obtain ⟨_, _, shape, reread⟩ := cut.read
  cases shape
  have taken : Munch.read '.' (digit :: digits ++ rest) =
      ofSplit .numberStartDot ['.'] (run Char.isDigit (digit :: digits ++ rest)) := by
    simp [Munch.read, dot, goesOn, isWordStart]
  rw [taken] at reread
  have split : run Char.isDigit (digit :: digits ++ rest) = (digit :: digits, rest) := by
    simpa [Prod.ext_iff] using (Munch.mk.inj reread).2
  obtain ⟨inside, stops⟩ := run_eq_iff.mp split
  exact ⟨fun c member => inside c (List.mem_cons_of_mem _ member), stops⟩

theorem of_endDot {digit : Char} {others : List Char} (cut : Cut kind (digit :: (others ++ ['.'])) rest)
    (starts : digit.isDigit = true) : (∀ c ∈ others, c.isDigit = true) ∧ Stops Char.isDigit rest := by
  have isNumber := cut.kind_of_isDigit starts
  generalize textEq : digit :: (others ++ ['.']) = text at cut
  have dotted : '.' ∈ others ++ ['.'] := List.mem_concat_self
  cases cut with
  | endDot _ inside stops =>
    obtain ⟨-, same⟩ := List.cons.inj textEq
    obtain ⟨rfl, -⟩ := List.append_inj' same rfl
    exact ⟨inside, stops⟩
  | whole _ inside =>
    rw [(List.cons.inj textEq).2] at dotted
    cases inside _ dotted
  | @fraction first last inner digits _ _ _ goesOn within =>
    have atEnd : (first :: inner ++ '.' :: last :: digits).getLast? = some '.' := by
      rw [← textEq, ← List.cons_append, List.getLast?_concat]
    rw [List.getLast?_append_of_ne_nil _ (List.cons_ne_nil _ _), List.getLast?_cons_cons] at atEnd
    obtain _ | ⟨_, inside⟩ := List.mem_of_getLast? atEnd
    · cases goesOn
    · cases within _ inside
  | hexadecimal inside =>
    obtain ⟨rfl, same⟩ := List.cons.inj textEq
    rw [same] at dotted
    obtain _ | ⟨_, dotted⟩ := dotted
    cases inside _ dotted
  | color =>
    obtain ⟨rfl, -⟩ := List.cons.inj textEq
    cases starts
  | word starts' =>
    obtain ⟨rfl, -⟩ := List.cons.inj textEq
    rw [isWordStart_of_isDigit starts] at starts'
    cases starts'
  | _ => simp at isNumber

end Cut

theorem not_apart_of_completes (isNumber : completes first second = true) : ¬ Apart first second := by
  rintro ⟨kind, _, cut⟩
  have cut := cut second.toList fun _ member => member
  obtain ⟨zero, digit, digits, dotted, _⟩ | ⟨zero, digit, others, dotted, starts⟩ := shapes_of_completes isNumber
  · rw [zero, dotted] at cut
    cases cut.of_zero.head
  · rw [zero, dotted] at cut
    cases (cut.of_endDot starts).2.head

theorem Cut.completed {front back : Kind} {rest : List Char} (isNumber : completes first second = true)
    (first' : Cut front first.toList []) (second' : Cut back second.toList rest) :
    Cut .number (first ++ second).toList rest := by
  rw [String.toList_append]
  obtain ⟨zero, digit, digits, dotted, goesOn⟩ | ⟨zero, digit, others, dotted, starts⟩ :=
    shapes_of_completes isNumber
  · rw [dotted] at second'
    obtain ⟨inside, stops⟩ := second'.of_startDot goesOn
    rw [zero, dotted]
    exact @Cut.fraction '0' digit [] digits rest rfl nofun goesOn inside stops
  · rw [dotted] at first'
    rw [zero] at second'
    have stops := second'.of_zero.weaken fun c outside => (Bool.or_eq_false_iff.mp outside).1
    rw [zero, dotted, ← List.cons_append, List.append_assoc]
    exact .fraction starts (first'.of_endDot starts).1 rfl nofun stops

theorem Apart.completed {next : String} (isNumber : completes first second = true) (alone : Apart first "")
    (apart : Apart second next) : Apart (first ++ second) next := by
  obtain ⟨_, _, front⟩ := alone
  obtain ⟨_, _, back⟩ := apart
  exact ⟨.number, nofun, fun rest starts => .completed isNumber (front [] nofun) (back rest starts)⟩

theorem head?_completed (isNumber : completes first second = true) :
    (first ++ second).toList.head? = first.toList.head? := by
  obtain ⟨zero, _⟩ | ⟨_, _, _, dotted, _⟩ := shapes_of_completes isNumber
  · rw [String.toList_append, zero]
    rfl
  · rw [String.toList_append, dotted]
    rfl

theorem noRemark_of_toList {text : String} {c : Char} {others : List Char} (shape : text.toList = c :: others)
    (isPart : (c.isDigit || c == '.') = true) : isRemarkText text = false := by
  rw [← @String.ofList_toList text, shape]
  refine isRemarkText_eq_false ?_ ?_
  · rintro rfl
    cases isPart
  · rintro rfl
    cases isPart

theorem noRemark_of_completes (isNumber : completes first second = true) :
    isRemarkText first = false ∧ isRemarkText second = false := by
  obtain ⟨zero, digit, _, dotted, _⟩ | ⟨zero, digit, _, dotted, starts⟩ := shapes_of_completes isNumber
  · exact ⟨noRemark_of_toList zero rfl, noRemark_of_toList dotted rfl⟩
  · exact ⟨noRemark_of_toList dotted (by rw [starts]; rfl), noRemark_of_toList zero rfl⟩

theorem noRemark_completed (isNumber : completes first second = true) : isRemarkText (first ++ second) = false := by
  have append : (first ++ second).toList = first.toList ++ second.toList := String.toList_append
  obtain ⟨zero, _⟩ | ⟨_, digit, others, dotted, starts⟩ := shapes_of_completes isNumber
  · rw [zero] at append
    exact noRemark_of_toList append rfl
  · rw [dotted] at append
    exact noRemark_of_toList append (by rw [starts]; rfl)

theorem not_completes_of_remark (remark : isRemarkText second = true) (first : String) :
    completes first second = false := by
  rw [Bool.eq_false_iff]
  intro isNumber
  rw [(noRemark_of_completes isNumber).2] at remark
  cases remark

end GmlLayout
