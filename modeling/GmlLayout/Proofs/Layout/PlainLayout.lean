import GmlLayout.Proofs.Layout.Moves
import GmlLayout.Proofs.Tree.Woven

/-!
Plain expressions are laid out on one line: exactly their pieces are added to the page, and a space where
one is left behind them.
-/

namespace GmlLayout

open Piece (mark gap)

def Piece.toFragment : Piece → Fragment
  | none => .space
  | some token => .ofText token.lexeme

namespace Page

def weave (page : Page) (pieces : List Piece) : Page :=
  { page with buffer := (pieces.map Piece.toFragment).reverse ++ page.buffer }

/-- The page with blanks behind what stands on it, and the indentation that they lead to. -/
def shift (page : Page) (indentation : Int) (blanks : List Fragment) : Page :=
  { page with indentation := indentation, buffer := blanks ++ page.buffer }

structure Quiet (page : Page) : Prop where
  ungrouped : page.groupRequests = []
  running : page.lineEnded = false

/-- A page on which nothing is asked of the next expression or statement. -/
structure Ready (page : Page) : Prop where
  ungrouped : page.groupRequests = []
  running : page.lineEnded = false
  unmoved : page.indentation = 0
  owed : page.exemptions = 0

theorem Ready.quiet {page : Page} (ready : page.Ready) : page.Quiet :=
  ⟨ready.ungrouped, ready.running⟩

end Page

def EndsShown (pieces : List Piece) : Prop :=
  ∃ before last, pieces = before ++ [some last] ∧ Token.Shown last

namespace EndsShown

variable {pieces : List Piece}

theorem append (ends : EndsShown pieces) (old : List Piece) : EndsShown (old ++ pieces) := by
  obtain ⟨before, last, rfl, shown⟩ := ends
  exact ⟨old ++ before, last, (List.append_assoc ..).symm, shown⟩

theorem snoc {token : Token} (shown : token.Shown) (old : List Piece) : EndsShown (old ++ [some token]) :=
  ⟨old, token, rfl, shown⟩

end EndsShown

theorem Token.Spelled.spells {token : Token} (spelled : token.Spelled) :
    Spells token.kind token.lexeme.toList := by
  have cut := spelled.cut [] .nil
  obtain ⟨first, others, shape, reread⟩ := cut.read
  have noGap : Munch.isGap first = false := by
    have noGap := cut.visible
    rw [shape] at noGap
    exact noGap
  have spells := Munch.read_spells (others ++ []) noGap
  rw [reread] at spells
  exact spells

theorem Token.Spelled.shown {token : Token} (spelled : token.Spelled) (visible : token.kind ≠ .newline) :
    token.Shown := by
  have noBlank := spelled.spells.visible visible
  refine Fragment.ofText_eq_text ⟨?_, ?_, ?_⟩
  all_goals
    intro blank
    rw [blank] at noBlank
    revert noBlank
    decide

theorem Woven.endsShown {strength : Strength} {expr : Expr} {first last : Token}
    (woven : Woven strength expr first last) : EndsShown expr.pieces := by
  obtain ⟨before, shape⟩ := woven.weave.exists_append
  have spelled := woven.weave.spelled last (by rw [shape]; simp)
  exact ⟨before, last, shape, spelled.shown woven.noBreak⟩

theorem Plain.endsShown {strength : Strength} {expr : Expr} (plain : Plain strength expr) :
    EndsShown expr.pieces := by
  obtain ⟨first, last, woven⟩ := plain.woven
  exact woven.endsShown

theorem Buffer.dropBlanks_blanks {blanks : List Fragment} (blank : ∀ fragment ∈ blanks, fragment.isBlank = true)
    (content : String) (earlier : Buffer) :
    Buffer.dropBlanks (blanks ++ .text content :: earlier) = (blanks.count .newline, .text content :: earlier) := by
  induction blanks with
  | nil => cases earlier <;> rfl
  | cons last blanks ih =>
    obtain ⟨isBlank, others⟩ := List.forall_mem_cons.mp blank
    obtain ⟨next, rest, shape⟩ := List.exists_cons_of_ne_nil
      (List.append_ne_nil_of_right_ne_nil blanks (List.cons_ne_nil (.text content) earlier))
    have later := ih others
    rw [shape] at later
    rw [List.cons_append, shape, Buffer.dropBlanks, if_pos isBlank, later, List.count_cons]
    simp only [beq_iff_eq]

namespace Page

variable {page : Page} {pieces : List Piece}

theorem weave_buffer {before : List Piece} {last : Token} (shown : last.Shown) (page : Page) :
    (page.weave (before ++ [some last])).buffer = .text last.lexeme :: (page.weave before).buffer := by
  have shown : Fragment.ofText last.lexeme = .text last.lexeme := shown
  simp [weave, Piece.toFragment, shown]

theorem begun_weave (ends : EndsShown pieces) (page : Page) : (page.weave pieces).buffer.isEmpty = false := by
  obtain ⟨before, last, rfl, shown⟩ := ends
  rw [weave_buffer shown]
  rfl

theorem write_weave (old : List Piece) (token : Token) {content : String} (spelling : token.lexeme = content)
    (spaceAfter : Bool) :
    (page.weave old).write content spaceAfter = page.weave (old ++ some token :: gap spaceAfter) := by
  subst spelling
  cases spaceAfter <;> simp [write, push, weave, gap, Piece.toFragment]

theorem onBlankLine_text (content : String) (earlier : Buffer) :
    Buffer.onBlankLine (.text content :: earlier) = false := by
  cases earlier <;> rfl

theorem dropSpace_text (content : String) (earlier : Buffer) :
    Buffer.dropSpace (.space :: .text content :: earlier) = .text content :: earlier :=
  if_neg (by rw [Buffer.onBlankLine, onBlankLine_text]; decide)

theorem weave_gap_buffer {before : List Piece} {last : Token} (shown : last.Shown) (page : Page)
    (spaced : Bool) : (page.weave (before ++ [some last] ++ gap spaced)).buffer =
      (if spaced then [.space] else []) ++ .text last.lexeme :: (page.weave before).buffer := by
  rw [← weave_buffer shown]
  cases spaced <;> simp [weave, gap, Piece.toFragment]

theorem weave_gap (page : Page) (pieces : List Piece) (spaced : Bool) : page.weave (pieces ++ gap spaced) =
    (page.weave pieces).shift page.indentation (if spaced then [.space] else []) := by
  cases spaced <;> simp [weave, shift, gap, Piece.toFragment]

theorem with_buffer_weave {old new : List Piece} {buffer : Buffer} (same : buffer = (page.weave new).buffer) :
    { page.weave old with buffer := buffer } = page.weave new :=
  congrArg (fun buffer => { page with buffer := buffer }) same

theorem dropSpace_weave (ends : EndsShown pieces) (spaced : Bool) :
    (page.weave (pieces ++ gap spaced)).dropSpace = page.weave pieces := by
  obtain ⟨before, last, rfl, shown⟩ := ends
  refine with_buffer_weave ?_
  rw [weave_gap_buffer shown, weave_buffer shown]
  cases spaced with
  | false => rfl
  | true => exact dropSpace_text _ _

theorem dropBlanks_shift (ends : EndsShown pieces) {blanks : List Fragment}
    (blank : ∀ fragment ∈ blanks, fragment.isBlank = true) :
    ((page.weave pieces).shift page.indentation blanks).dropBlanks =
      (blanks.count .newline, page.weave pieces) := by
  obtain ⟨before, last, rfl, shown⟩ := ends
  have dropped := Buffer.dropBlanks_blanks blank last.lexeme (page.weave before).buffer
  rw [← weave_buffer shown] at dropped
  unfold dropBlanks shift
  rw [dropped]
  rfl

theorem dropBlanks_weave (ends : EndsShown pieces) (spaced : Bool) :
    (page.weave (pieces ++ gap spaced)).dropBlanks = (0, page.weave pieces) := by
  rw [weave_gap, dropBlanks_shift ends (by cases spaced <;> simp [Fragment.isBlank])]
  cases spaced <;> rfl

theorem ensureSpace_weave (ends : EndsShown pieces) (spaced : Bool) :
    (page.weave (pieces ++ gap spaced)).ensureSpace = page.weave (pieces ++ [none]) := by
  obtain ⟨before, last, rfl, shown⟩ := ends
  unfold ensureSpace last?
  rw [weave_gap_buffer shown]
  cases spaced with
  | true => rfl
  | false => exact with_buffer_weave (by simp [weave, Piece.toFragment, gap])

theorem Quiet.openFrame (quiet : page.Quiet) : page.openFrame.Quiet :=
  ⟨quiet.ungrouped, quiet.running⟩

def chained (page : Page) : Page :=
  { page.openFrame with chainIndents := false }

theorem Quiet.chained (quiet : page.Quiet) : page.chained.Quiet :=
  ⟨quiet.ungrouped, quiet.running⟩

end Page

namespace Print

open Page

variable {α β : Type} {page middle later : Page} {value : α} {result : β}

theorem run_bind {step : Print α} {next : α → Print β} (first : step.run page = (value, middle))
    (second : (next value).run middle = (result, later)) : (step >>= next).run page = (result, later) := by
  show (next (step.run page).1).run (step.run page).2 = _
  rw [first]
  exact second

theorem run_write (page : Page) (old : List Piece) (token : Token) {content : String}
    (spelling : token.lexeme = content) (spaceAfter : Bool) :
    (write content spaceAfter).run (page.weave old) = ((), page.weave (old ++ some token :: gap spaceAfter)) :=
  congrArg ((), ·) (write_weave old token spelling spaceAfter)

theorem run_mark (page : Page) (old : List Piece) (symbol : Symbol) (spaceAfter : Bool) :
    (write symbol.text spaceAfter).run (page.weave old) =
      ((), page.weave (old ++ mark symbol :: gap spaceAfter)) :=
  run_write page old (.ofKind (.symbol symbol)) rfl spaceAfter

theorem run_writeToken (page : Page) (old : List Piece) (token : Token) (spaceAfter : Bool) :
    (writeToken token spaceAfter).run (page.weave old) =
      ((), page.weave (old ++ some token :: gap spaceAfter)) :=
  run_write page old token rfl spaceAfter

theorem setLineEnded_weave (quiet : page.Quiet) (pieces : List Piece) :
    (page.weave pieces).setLineEnded false = page.weave pieces := by
  rw [← quiet.running]
  rfl

theorem run_closeExpression (quiet : page.Quiet) (pieces : List Piece) :
    (closeExpression []).run (page.weave pieces) = ((), page.weave pieces) :=
  congrArg ((), ·) (setLineEnded_weave quiet pieces)

theorem run_dropSpace {pieces : List Piece} (page : Page) (ends : EndsShown pieces) (spaced : Bool) :
    dropSpace.run (page.weave (pieces ++ gap spaced)) = ((), page.weave pieces) :=
  congrArg ((), ·) (dropSpace_weave ends spaced)

theorem run_dropBlanks {pieces : List Piece} (page : Page) (ends : EndsShown pieces) (spaced : Bool) :
    dropBlanks.run (page.weave (pieces ++ gap spaced)) = ((), page.weave pieces) :=
  congrArg (fun dropped : Nat × Page => ((), dropped.2)) (dropBlanks_weave ends spaced)

theorem run_dropSpace_text {pieces : List Piece} (page : Page) (ends : EndsShown pieces) :
    dropSpace.run (page.weave pieces) = ((), page.weave pieces) := by
  simpa using run_dropSpace page ends false

theorem run_dropBlanks_text {pieces : List Piece} (page : Page) (ends : EndsShown pieces) :
    dropBlanks.run (page.weave pieces) = ((), page.weave pieces) := by
  simpa using run_dropBlanks page ends false

theorem run_ensureSpace {pieces : List Piece} (page : Page) (ends : EndsShown pieces) (spaced : Bool) :
    ensureSpace.run (page.weave (pieces ++ gap spaced)) = ((), page.weave (pieces ++ [none])) :=
  congrArg ((), ·) (ensureSpace_weave ends spaced)

def LaidPlain (expr : Expr) : Prop :=
  ∀ page : Page, page.Quiet → ∀ old : List Piece,
    (Print.expr expr).run (page.weave old) = ((), page.weave (old ++ expr.pieces ++ gap expr.spaced))

/-- The expression is laid out as its pieces, and these blanks are left behind them. -/
def LaidWith (value : Expr) (page : Page) (old : List Piece) (indentation : Int) (blanks : List Fragment) : Prop :=
  (Print.expr value).run (page.weave old) = ((), (page.weave (old ++ value.pieces)).shift indentation blanks)

/-- An expression that is laid out as its pieces leaves a space behind them or nothing. -/
theorem laidPlain_iff {value : Expr} : LaidPlain value ↔ ∀ page : Page, page.Quiet → ∀ old,
    LaidWith value page old page.indentation (if value.spaced then [.space] else []) := by
  refine forall_congr' fun page => forall_congr' fun _ => forall_congr' fun old => ?_
  rw [LaidWith, weave_gap]

theorem trivia_passed {slot : Trivia} (passed : slot.all Token.isNewline = true) {how : Instruction}
    (regardless : how.respect = false) (page : Page) : page.trivia slot how = (false, page) := by
  rw [Page.trivia, regardless, passed]
  exact if_pos (Bool.or_true _)

theorem run_slot_passed {slot : Trivia} (passed : slot.all Token.isNewline = true) {how : Instruction}
    (regardless : how.respect = false) (page : Page) : (Print.slot slot how).run page = ((), page) :=
  congrArg (fun laid : Bool × Page => ((), laid.2)) (trivia_passed passed regardless page)

theorem run_trivia_passed {slot : Trivia} (passed : slot.all Token.isNewline = true) {how : Instruction}
    (regardless : how.respect = false) (page : Page) : (trivia slot how).run page = (false, page) :=
  trivia_passed passed regardless page

theorem run_slot_nil (page : Page) (how : Instruction) : (Print.slot [] how).run page = ((), page) := rfl

theorem run_trivia_nil (page : Page) (how : Instruction) : (trivia [] how).run page = (false, page) := rfl

theorem run_openFrame (page : Page) (pieces : List Piece) :
    (modify Page.openFrame : Print Unit).run (page.weave pieces) = ((), page.openFrame.weave pieces) :=
  rfl

theorem run_closeFrame (page : Page) (pieces : List Piece) :
    (modify Page.closeFrame : Print Unit).run (page.openFrame.weave pieces) = ((), page.weave pieces) :=
  rfl

section Shift

variable {indentation : Int} {blanks : List Fragment} {old : List Piece}

theorem run_closeFrame_shift (page : Page) (pieces : List Piece) :
    (modify Page.closeFrame : Print Unit).run ((page.openFrame.weave pieces).shift indentation blanks) =
      ((), (page.weave pieces).shift page.indentation blanks) :=
  rfl

theorem run_closeExpression_shift (quiet : page.Quiet) (pieces : List Piece) :
    (closeExpression []).run ((page.weave pieces).shift indentation blanks) =
      ((), (page.weave pieces).shift indentation blanks) :=
  congrArg (fun page : Page => ((), page.shift indentation blanks)) (setLineEnded_weave quiet pieces)

end Shift

theorem run_same {step : Print α} {before : Page} {new wanted : List Piece}
    (run : step.run before = (value, page.weave new)) (same : new = wanted) :
    step.run before = (value, page.weave wanted) :=
  same ▸ run

theorem run_same_shift {step : Print α} {before : Page} {new wanted : List Piece} {indentation : Int}
    {blanks : List Fragment} (run : step.run before = (value, (page.weave new).shift indentation blanks))
    (same : new = wanted) : step.run before = (value, (page.weave wanted).shift indentation blanks) :=
  same ▸ run

attribute [simp] Print.expr Print.exprs entries indexList

attribute [simp] Expr.pieces Expr.itemPieces Expr.indexPieces

theorem laid_leaf (token : Token) {after : Trivia} (passed : after.all Token.isNewline = true)
    (quiet : page.Quiet) (old : List Piece) :
    (do writeToken token true; Print.slot after { leading := .all }; closeExpression [] : Print Unit).run
      (page.weave old) = ((), page.weave (old ++ [some token] ++ gap true)) := by
  refine run_same (run_bind (run_writeToken page old token true) ?_) (List.append_cons ..)
  exact run_bind (run_slot_passed passed rfl _) (run_closeExpression quiet _)

section Right

-- What is left behind the last operand of a node is left behind the node.

variable {indentation : Int} {blanks : List Fragment} {old : List Piece} {operator : Token}

theorem laidWith_binary {left right : Expr} (ends : EndsShown left.pieces) (leftLaid : LaidPlain left)
    (quiet : page.Quiet) (rightLaid : LaidWith right page.openFrame
      (old ++ left.pieces ++ [none] ++ [some operator, none]) indentation blanks) :
    LaidWith (.binary left operator [] right) page old page.indentation blanks := by
  rw [LaidWith, Print.expr]
  refine run_same_shift (run_bind (leftLaid page quiet old) <|
    run_bind (run_ensureSpace page (ends.append old) left.spaced) <|
    run_bind (run_writeToken page _ operator true) <|
    run_bind (run_openFrame page _) <|
    run_bind (run_slot_nil _ _) <|
    run_bind rightLaid <|
    run_bind (run_closeFrame_shift page _) (run_closeExpression_shift quiet _)) ?_
  simp [Expr.pieces]

theorem laidWith_unary {operand : Expr} {slot : Trivia} (passed : slot.all Token.isNewline = true)
    (quiet : page.Quiet) (laid : LaidWith operand page
      (old ++ some operator :: gap (operator.kind = .keyword .notWord)) indentation blanks) :
    LaidWith (.unary operator slot operand) page old indentation blanks := by
  rw [LaidWith, Print.expr]
  refine run_same_shift (run_bind (run_writeToken page old operator _) <|
    run_bind (run_slot_passed passed rfl _) <|
    run_bind laid (run_closeExpression_shift quiet _)) ?_
  simp [Expr.pieces]

theorem laidWith_assign {target value : Expr} {slot : Trivia} (passed : slot.all Token.isNewline = true)
    (targetLaid : LaidPlain target) (quiet : page.Quiet) (valueLaid : LaidWith value page
      (old ++ target.pieces ++ gap target.spaced ++ [some operator, none]) indentation blanks) :
    LaidWith (.assign target operator slot value) page old indentation blanks := by
  rw [LaidWith, Print.expr]
  refine run_same_shift (run_bind (targetLaid page quiet old) <|
    run_bind (run_writeToken page _ operator true) <|
    run_bind (run_slot_passed passed rfl _) <|
    run_bind valueLaid (run_closeExpression_shift quiet _)) ?_
  simp [Expr.pieces]

theorem laidWith_ternary {condition whenTrue whenFalse : Expr} {afterHook afterColon : Trivia}
    (hookPassed : afterHook.all Token.isNewline = true) (colonPassed : afterColon.all Token.isNewline = true)
    (conditionLaid : LaidPlain condition) (trueLaid : LaidPlain whenTrue) (quiet : page.Quiet)
    (falseLaid : LaidWith whenFalse page.openFrame (old ++ condition.pieces ++ gap condition.spaced ++
      [mark .hook, none] ++ whenTrue.pieces ++ gap whenTrue.spaced ++ [mark .colon, none]) indentation blanks) :
    LaidWith (.ternary condition afterHook whenTrue afterColon whenFalse) page old page.indentation blanks := by
  rw [LaidWith, Print.expr]
  refine run_same_shift (run_bind (conditionLaid page quiet old) <|
    run_bind (run_mark page _ .hook true) <|
    run_bind (run_openFrame page _) <|
    run_bind (run_slot_passed hookPassed rfl _) <|
    run_bind (trueLaid page.openFrame quiet.openFrame _) <|
    run_bind (run_mark page.openFrame _ .colon true) <|
    run_bind (run_trivia_passed colonPassed rfl _) <|
    run_bind falseLaid <|
    run_bind (run_closeFrame_shift page _) (run_closeExpression_shift quiet _)) ?_
  simp [Expr.pieces]

end Right

theorem laid_binary {left right : Expr} {operator : Token} (ends : EndsShown left.pieces)
    (leftLaid : LaidPlain left) (rightLaid : LaidPlain right) :
    LaidPlain (.binary left operator [] right) := by
  rw [laidPlain_iff] at rightLaid ⊢
  exact fun page quiet old => laidWith_binary ends leftLaid quiet (rightLaid page.openFrame quiet.openFrame _)

theorem laid_unary {operator : Token} {operand : Expr} {slot : Trivia}
    (passed : slot.all Token.isNewline = true) (laid : LaidPlain operand) :
    LaidPlain (.unary operator slot operand) := by
  rw [laidPlain_iff] at laid ⊢
  exact fun page quiet old => laidWith_unary passed quiet (laid page quiet _)

theorem laid_step {operand : Expr} {operator : Token} {slot : Trivia}
    (passed : slot.all Token.isNewline = true) (ends : EndsShown operand.pieces)
    (laid : LaidPlain operand) : LaidPlain (.step operand operator slot) := by
  intro page quiet old
  rw [Print.expr]
  refine run_same (run_bind (laid page quiet old) <|
    run_bind (run_dropSpace page (ends.append old) _) <|
    run_bind (run_writeToken page _ operator true) <|
    run_bind (run_slot_passed passed rfl _) (run_closeExpression quiet _)) ?_
  simp [Expr.pieces, Expr.spaced]

theorem laid_assign {target value : Expr} {operator : Token} {slot : Trivia}
    (passed : slot.all Token.isNewline = true) (targetLaid : LaidPlain target)
    (valueLaid : LaidPlain value) : LaidPlain (.assign target operator slot value) := by
  rw [laidPlain_iff] at valueLaid ⊢
  exact fun page quiet old => laidWith_assign passed targetLaid quiet (valueLaid page quiet _)

theorem laid_ternary {condition whenTrue whenFalse : Expr} {afterHook afterColon : Trivia}
    (hookPassed : afterHook.all Token.isNewline = true) (colonPassed : afterColon.all Token.isNewline = true)
    (conditionLaid : LaidPlain condition) (trueLaid : LaidPlain whenTrue) (falseLaid : LaidPlain whenFalse) :
    LaidPlain (.ternary condition afterHook whenTrue afterColon whenFalse) := by
  rw [laidPlain_iff] at falseLaid ⊢
  exact fun page quiet old => laidWith_ternary hookPassed colonPassed conditionLaid trueLaid quiet
    (falseLaid page.openFrame quiet.openFrame _)

theorem laid_grouping {inner : Expr} {afterClose : Trivia} (passed : afterClose.all Token.isNewline = true)
    (ends : EndsShown inner.pieces) (laid : LaidPlain inner) :
    LaidPlain (.grouping [] [inner] afterClose) := by
  intro page quiet old
  have asked : ∀ pieces, (modifyGet Page.takeGroupRequest : Print GroupRequest).run (page.weave pieces) =
      ({}, page.weave pieces) := by
    intro pieces
    show Page.takeGroupRequest (page.weave pieces) = _
    have none : (page.weave pieces).groupRequests = [] := quiet.ungrouped
    rw [takeGroupRequest, none]
  have closed : ∀ pieces : List Piece, EndsShown pieces → ∀ spaced,
      (closeGrouping false afterClose).run (page.weave (pieces ++ gap spaced)) =
        ((), page.weave (pieces ++ mark .rightParen :: gap true)) := fun pieces ends spaced =>
    run_bind (run_dropSpace page ends spaced) <| run_bind (run_mark page pieces .rightParen true) <|
      run_bind (asked _) (run_slot_passed passed rfl _)
  have nested : ∀ old, (Print.exprs [inner]).run (page.weave old) =
      ((), page.weave (old ++ inner.pieces ++ gap inner.spaced)) := by
    intro old
    rw [Print.exprs, Print.exprs]
    exact run_bind (laid page quiet old) rfl
  rw [Print.expr]
  refine run_same (run_bind (run_mark page old .leftParen false) <|
    run_bind (run_trivia_nil _ _) <|
    run_bind (nested _) <|
    run_bind (closed _ (ends.append _) _) (run_closeExpression quiet _)) ?_
  simp [Expr.pieces, Expr.spaced]

theorem run_closeChain (page : Page) (pieces : List Piece) (blanks : List Fragment) :
    (closeChain page.chainIndents).run
      (({ page with chainIndents := false }.weave pieces).shift page.indentation blanks) =
        ((), (page.weave pieces).shift page.indentation blanks) := by
  obtain ⟨settings, buffer, indentation, lineEnded, blockRequests, groupRequests, frames, chainIndents,
    forDepth, exemptions, oddities⟩ := page
  cases chainIndents <;> rfl

theorem laidWith_dotted {owner member : Expr} {old : List Piece} {indentation : Int} {blanks : List Fragment}
    (ends : EndsShown owner.pieces) (ownerLaid : LaidPlain owner) (quiet : page.Quiet)
    (memberLaid : LaidWith member page.chained (old ++ owner.pieces ++ [mark .dot]) indentation blanks) :
    LaidWith (.dotted owner [] member []) page old page.indentation blanks := by
  have opened : ∀ pieces, openChain.run (page.openFrame.weave pieces) =
      (page.chainIndents, page.chained.weave pieces) := fun _ => rfl
  have framed : ∀ pieces, (modify Page.closeFrame : Print Unit).run
      ((page.chained.weave pieces).shift indentation blanks) =
        ((), ({ page with chainIndents := false }.weave pieces).shift page.indentation blanks) := fun _ => rfl
  rw [LaidWith, Print.expr]
  refine run_same_shift (run_bind (ownerLaid page quiet old) <|
    run_bind (run_dropSpace page (ends.append old) _) <|
    run_bind (run_mark page _ .dot false) <|
    run_bind (run_openFrame page _) <|
    run_bind (opened _) <|
    run_bind (run_slot_nil _ _) <|
    run_bind memberLaid <|
    run_bind (framed _) <|
    run_bind (run_closeChain page _ blanks) (run_closeExpression_shift quiet _)) ?_
  simp [Expr.pieces]

theorem laid_dotted {owner member : Expr} (ends : EndsShown owner.pieces) (ownerLaid : LaidPlain owner)
    (memberLaid : LaidPlain member) : LaidPlain (.dotted owner [] member []) := by
  rw [laidPlain_iff] at memberLaid ⊢
  exact fun page quiet old => laidWith_dotted ends ownerLaid quiet (memberLaid page.chained quiet.chained _)

theorem laid_entries {items : List (Item Expr)} (bare : ∀ item ∈ items, item.trailing = [])
    (laid : ∀ item ∈ items, EndsShown item.value.pieces ∧ LaidPlain item.value) (quiet : page.Quiet)
    (old : List Piece) : (entries false false false items).run (page.weave old) =
      ((), page.weave (old ++ separated (Expr.itemPieces items))) := by
  induction items generalizing old with
  | nil =>
    rw [Expr.itemPieces, separated, List.append_nil]
    rfl
  | cons item items ih =>
    obtain ⟨value, trailing⟩ := item
    have none : trailing = [] := bare _ List.mem_cons_self
    subst none
    obtain ⟨ends, first⟩ := laid _ List.mem_cons_self
    have later := ih (fun item member => bare item (List.mem_cons_of_mem _ member)) fun item member =>
      laid item (List.mem_cons_of_mem _ member)
    rw [entries]
    cases items with
    | nil =>
      have closed : (closeEntry false false false true []).run
          (page.weave (old ++ value.pieces ++ gap value.spaced)) = ((), page.weave (old ++ value.pieces)) :=
        run_bind (run_dropSpace page (ends.append old) _) rfl
      refine run_same (run_bind (first page quiet old) (run_bind closed (later _))) ?_
      simp [Expr.itemPieces, separated]
    | cons next items =>
      have closed : (closeEntry false false false false []).run
          (page.weave (old ++ value.pieces ++ gap value.spaced)) =
            ((), page.weave (old ++ value.pieces ++ mark .comma :: gap true)) :=
        run_bind (run_dropSpace page (ends.append old) _) (run_bind (run_mark page _ .comma true) rfl)
      refine run_same (run_bind (first page quiet old) (run_bind closed (later _))) ?_
      simp [Expr.itemPieces, separated]

theorem laid_indices {indices : List (Trivia × Expr)}
    (passed : ∀ index ∈ indices, index.1.all Token.isNewline = true)
    (laid : ∀ index ∈ indices, EndsShown index.2.pieces ∧ LaidPlain index.2) (quiet : page.Quiet)
    (old : List Piece) : (indexList indices).run (page.weave old) =
      ((), page.weave (old ++ separated (Expr.indexPieces indices))) := by
  induction indices generalizing old with
  | nil =>
    rw [Expr.indexPieces, separated, List.append_nil]
    rfl
  | cons index indices ih =>
    obtain ⟨before, value⟩ := index
    have skipped : before.all Token.isNewline = true := passed _ List.mem_cons_self
    obtain ⟨ends, first⟩ := laid _ List.mem_cons_self
    have later := ih (fun index member => passed index (List.mem_cons_of_mem _ member)) fun index member =>
      laid index (List.mem_cons_of_mem _ member)
    rw [indexList]
    cases indices with
    | nil =>
      refine run_same (run_bind (run_openFrame page old) <|
        run_bind (run_slot_passed skipped rfl _) <|
        run_bind (first page.openFrame quiet.openFrame old) <|
        run_bind (run_closeFrame page _) <|
        run_bind (run_dropSpace page (ends.append old) _) (later _)) ?_
      simp [Expr.indexPieces, separated]
    | cons next indices =>
      refine run_same (run_bind (run_openFrame page old) <|
        run_bind (run_slot_passed skipped rfl _) <|
        run_bind (first page.openFrame quiet.openFrame old) <|
        run_bind (run_closeFrame page _) <|
        run_bind (run_dropSpace page (ends.append old) _) <|
        run_bind (run_mark page _ .comma true) (later _)) ?_
      simp [Expr.indexPieces, separated]

theorem run_entries {items : List (Item Expr)} (bare : ∀ item ∈ items, item.trailing = [])
    (laid : ∀ item ∈ items, EndsShown item.value.pieces ∧ LaidPlain item.value) (quiet : page.Quiet)
    (old : List Piece) : (entries items.isEmpty false false items).run (page.weave old) =
      ((), page.weave (old ++ separated (Expr.itemPieces items))) := by
  cases items with
  | nil =>
    rw [Expr.itemPieces, separated, List.append_nil]
    rfl
  | cons item items => exact laid_entries bare laid quiet old

theorem laid_array {elements : List (Item Expr)} (bare : ∀ item ∈ elements, item.trailing = [])
    (laid : ∀ item ∈ elements, EndsShown item.value.pieces ∧ LaidPlain item.value) :
    LaidPlain (.array [] ⟨elements, elements.isEmpty⟩) := by
  intro page quiet old
  rw [Print.expr]
  refine run_same (run_bind (run_mark page old .leftBracket false) <|
    run_bind (run_trivia_nil _ _) <|
    run_bind (run_entries bare laid quiet _) <|
    run_bind (run_mark page _ .rightBracket false) (run_closeExpression quiet _)) ?_
  simp [Expr.pieces, Expr.spaced]

theorem shown_mark {symbol : Symbol} (known : symbol ≠ .hash) : (Token.ofKind (.symbol symbol)).Shown :=
  (Token.spelled_mark known).shown (by simp [Token.ofKind])

theorem endsShown_separated {entries : List (List Piece)} (nonempty : entries ≠ [])
    (ends : ∀ entry ∈ entries, EndsShown entry) : EndsShown (separated entries) := by
  induction entries with
  | nil => exact absurd rfl nonempty
  | cons entry entries ih =>
    cases entries with
    | nil => exact ends entry List.mem_cons_self
    | cons next entries =>
      have later := ih (List.cons_ne_nil _ _) fun entry member => ends entry (List.mem_cons_of_mem _ member)
      exact later.append _

theorem run_access {collection : Expr} {accessor : Token} {indices : List (Trivia × Expr)} {trailing : Trivia}
    (ends : EndsShown collection.pieces) (collectionLaid : LaidPlain collection) (nonempty : indices ≠ [])
    (passed : ∀ index ∈ indices, index.1.all Token.isNewline = true)
    (laid : ∀ index ∈ indices, EndsShown index.2.pieces ∧ LaidPlain index.2) (quiet : page.Quiet)
    {old : List Piece} (closes : (closeExpression trailing).run
      (page.weave (old ++ (Expr.access collection accessor indices trailing).pieces ++ gap true)) =
        ((), later)) :
    (Print.expr (.access collection accessor indices trailing)).run (page.weave old) = ((), later) := by
  have listEnds : EndsShown (separated (Expr.indexPieces indices)) := by
    rw [Expr.indexPieces_eq_map]
    refine endsShown_separated (by simpa using nonempty) fun entry member => ?_
    obtain ⟨index, found, rfl⟩ := List.mem_map.mp member
    exact (laid index found).1
  rw [Print.expr]
  refine run_bind (collectionLaid page quiet old) <|
    run_bind (run_dropSpace page (ends.append old) _) <|
    run_bind (run_writeToken page _ accessor _) <|
    run_bind (laid_indices passed laid quiet _) <|
    run_bind (run_dropSpace_text page (listEnds.append _)) <|
    run_bind (run_mark page _ .rightBracket true) ?_
  rw [← closes]
  simp [Expr.pieces]

theorem laid_access {collection : Expr} {accessor : Token} {indices : List (Trivia × Expr)}
    (ends : EndsShown collection.pieces) (collectionLaid : LaidPlain collection) (nonempty : indices ≠ [])
    (passed : ∀ index ∈ indices, index.1.all Token.isNewline = true)
    (laid : ∀ index ∈ indices, EndsShown index.2.pieces ∧ LaidPlain index.2) :
    LaidPlain (.access collection accessor indices []) := by
  intro page quiet old
  exact run_access ends collectionLaid nonempty passed laid quiet (run_closeExpression quiet _)

theorem laid_identifier (token : Token) {after : Trivia} (passed : after.all Token.isNewline = true) :
    LaidPlain (.identifier token after) := by
  intro page quiet old
  rw [Print.expr]
  exact laid_leaf token passed quiet old

theorem laid_literal (token : Token) {after : Trivia} (passed : after.all Token.isNewline = true) :
    LaidPlain (.literal token after) := by
  intro page quiet old
  rw [Print.expr]
  exact laid_leaf token passed quiet old

theorem run_call {callee : Token} {after trailing : Trivia} {arguments : List (Item Expr)}
    (shown : callee.Shown) (passed : after.all Token.isNewline = true)
    (bare : ∀ item ∈ arguments, item.trailing = [])
    (laid : ∀ item ∈ arguments, EndsShown item.value.pieces ∧ LaidPlain item.value)
    (closed : passesLambda arguments = false) (quiet : page.Quiet) {old : List Piece}
    (closes : (closeExpression trailing).run (page.weave (old ++ (Expr.call (.identifier callee after) []
      ⟨arguments, arguments.isEmpty⟩ trailing).pieces ++ gap true)) = ((), later)) :
    (Print.expr (.call (.identifier callee after) [] ⟨arguments, arguments.isEmpty⟩ trailing)).run
      (page.weave old) = ((), later) := by
  have parenthesis : ∀ pieces : List Piece, EndsShown pieces →
      (closeCall false arguments).run (page.weave pieces) =
        ((), page.weave (pieces ++ mark .rightParen :: gap true)) := by
    intro pieces ends
    unfold closeCall
    rw [closed]
    exact run_bind (run_dropBlanks_text page ends) (run_mark page pieces .rightParen true)
  rw [Print.expr]
  refine run_bind (laid_identifier callee passed page quiet old) <|
    run_bind (run_dropSpace page (.snoc shown old) _) <|
    run_bind (run_mark page _ .leftParen false) <|
    run_bind (run_trivia_nil _ _) <|
    run_bind (run_entries bare laid quiet _) <|
    run_bind (parenthesis _ ?_) ?_
  · cases arguments with
    | nil =>
      have ends := EndsShown.snoc (shown_mark (show Symbol.leftParen ≠ .hash by decide)) (old ++ [some callee])
      simpa [Expr.itemPieces, separated, mark] using ends
    | cons item items =>
      refine EndsShown.append (endsShown_separated ?_ fun entry member => ?_) _
      · rw [Expr.itemPieces_eq_map]
        exact List.cons_ne_nil _ _
      · rw [Expr.itemPieces_eq_map] at member
        obtain ⟨item, found, rfl⟩ := List.mem_map.mp member
        exact (laid item found).1
  · rw [← closes]
    simp [Expr.pieces]

theorem laid_call {callee : Token} {after : Trivia} {arguments : List (Item Expr)}
    (shown : callee.Shown) (passed : after.all Token.isNewline = true)
    (bare : ∀ item ∈ arguments, item.trailing = [])
    (laid : ∀ item ∈ arguments, EndsShown item.value.pieces ∧ LaidPlain item.value)
    (closed : passesLambda arguments = false) :
    LaidPlain (.call (.identifier callee after) [] ⟨arguments, arguments.isEmpty⟩ []) := by
  intro page quiet old
  exact run_call shown passed bare laid closed quiet (run_closeExpression quiet _)

theorem unidentifiedCallee?_of_plain {strength : Strength} {expr : Expr} (plain : Plain strength expr) :
    expr.unidentifiedCallee? = none := by
  induction plain with
  | owned plain ih | called plain ih | stepped plain ih | operand plain ih | tighter plain ih
  | binary plain ih | value plain ih => exact ih
  | _ => rfl

theorem laid_plain {strength : Strength} {expr : Expr} (plain : Plain strength expr) : LaidPlain expr := by
  induction plain with
  | @identifier token name => exact laid_identifier token rfl
  | @literal token isLiteral => exact laid_literal token rfl
  | grouping plain ih => exact laid_grouping rfl plain.endsShown ih
  | array bare plain ih =>
    exact laid_array bare fun item member => ⟨(plain item member).endsShown, ih item member⟩
  | @call callee arguments name bare plain ih =>
    have shown : callee.Shown := (Token.spelled_name name.1 name.2).shown (by simp [name.1])
    refine laid_call shown rfl bare (fun item member => ⟨(plain item member).endsShown, ih item member⟩) ?_
    have none : arguments.filterMap (fun item => item.value.unidentifiedCallee?) = [] :=
      List.filterMap_eq_nil_iff.mpr fun item member => unidentifiedCallee?_of_plain (plain item member)
    rw [passesLambda, none]
    rfl
  | @access collection accessor indices owner operator nonempty bare plain ihOwner ih =>
    have passed : ∀ index ∈ indices, index.1.all Token.isNewline = true := fun index member => by
      rw [bare index member]
      rfl
    exact laid_access owner.endsShown ihOwner nonempty passed fun index member =>
      ⟨(plain index member).endsShown, ih index member⟩
  | dotted plain owns named starts ihOwner ihMember => exact laid_dotted plain.endsShown ihOwner ihMember
  | step plain isStep ih => exact laid_step rfl plain.endsShown ih
  | unary isUnary plain apart ih => exact laid_unary rfl ih
  | owned plain ih | called plain ih | stepped plain ih | operand plain ih | tighter plain ih
  | binary plain ih | value plain ih => exact ih
  | leftward known side leftPlain joins rightPlain ihLeft ihRight
  | rightward known side leftPlain joins rightPlain ihLeft ihRight =>
    exact laid_binary leftPlain.endsShown ihLeft ihRight
  | ternary conditionPlain truePlain falsePlain ihCondition ihTrue ihFalse =>
    exact laid_ternary rfl rfl ihCondition ihTrue ihFalse
  | assign targetPlain isAssignment valuePlain ihTarget ihValue => exact laid_assign rfl ihTarget ihValue

section Restarts

/-- What a statement before has left in `lineEnded` has no part in what comes out. -/
def Restarts (step : Print α) : Prop :=
  ∀ (page : Page) (ended : Bool), step.run (page.setLineEnded ended) = step.run page

theorem Restarts.bind {step : Print α} (restarts : Restarts step) (next : α → Print β) :
    Restarts (step >>= next) := by
  intro page ended
  show (next (step.run _).1).run (step.run _).2 = (next (step.run page).1).run (step.run page).2
  rw [restarts page ended]

theorem Restarts.afterWrite {step : Print α} (restarts : Restarts step) (content : String)
    (spaceAfter : Bool) : Restarts (do write content spaceAfter; step) := by
  intro page ended
  have same : (page.setLineEnded ended).write content spaceAfter =
      (page.write content spaceAfter).setLineEnded ended := by
    cases spaceAfter <;> rfl
  show step.run ((page.setLineEnded ended).write content spaceAfter) = _
  rw [same]
  exact restarts _ _

theorem restarts_leaf (token : Token) (how : Instruction) :
    Restarts (do writeToken token true; Print.slot [] how; closeExpression []) :=
  fun _ _ => rfl

theorem restarts_identifier (token : Token) : Restarts (Print.expr (.identifier token [])) := by
  rw [Print.expr]
  exact restarts_leaf token _

theorem restarts_array {elements : List (Item Expr)}
    (restarts : ∀ item ∈ elements, Restarts (Print.expr item.value)) :
    Restarts (Print.expr (.array [] ⟨elements, elements.isEmpty⟩)) := by
  rw [Print.expr]
  refine Restarts.afterWrite ?_ "[" false
  cases elements with
  | nil => exact fun _ _ => rfl
  | cons item items =>
    have first := restarts item List.mem_cons_self
    obtain ⟨value, trailing⟩ := item
    have entered : Restarts (Print.entries false false false (⟨value, trailing⟩ :: items)) := by
      rw [Print.entries]
      exact first.bind _
    show Restarts (do
      Print.entries false false false (⟨value, trailing⟩ :: items)
      write "]"
      closeExpression [])
    exact entered.bind _

theorem restarts_plain {strength : Strength} {expr : Expr} (plain : Plain strength expr) :
    Restarts (Print.expr expr) := by
  induction plain with
  | @identifier token known => exact restarts_identifier token
  | @literal token known =>
    rw [Print.expr]
    exact restarts_leaf token _
  | @grouping inner plain ih =>
    have nested : Restarts (Print.exprs [inner]) := by
      rw [Print.exprs]
      exact ih.bind _
    rw [Print.expr]
    exact (nested.bind fun _ => do closeGrouping false []; closeExpression []).afterWrite "(" false
  | array bare plain ih => exact restarts_array ih
  | @call callee arguments name bare plain ih =>
    rw [Print.expr]
    exact (restarts_identifier callee).bind _
  | @unary operator operand isUnary plain apart ih =>
    rw [Print.expr]
    exact (ih.bind fun _ => closeExpression []).afterWrite operator.lexeme _
  | access _ _ _ _ _ ih _ | dotted _ _ _ _ ih _ | step _ _ ih | leftward _ _ _ _ _ ih _
  | rightward _ _ _ _ _ ih _ | ternary _ _ _ ih _ _ | assign _ _ _ ih _ =>
    rw [Print.expr]
    exact ih.bind _
  | owned plain ih | called plain ih | stepped plain ih | operand plain ih | tighter plain ih
  | binary plain ih | value plain ih => exact ih

end Restarts

/-- A plain expression is laid out as its pieces, and the line is no longer just ended. -/
theorem run_plain {strength : Strength} {expr : Expr} (plain : Plain strength expr)
    (ungrouped : page.groupRequests = []) (old : List Piece) :
    (Print.expr expr).run (page.weave old) =
      ((), (page.setLineEnded false).weave (old ++ expr.pieces ++ gap expr.spaced)) := by
  rw [← restarts_plain plain (page.weave old) false]
  exact laid_plain plain (page.setLineEnded false) ⟨ungrouped, rfl⟩ old

def endsStatement (c : Char) : Bool :=
  ['/', ';', '\x7d'].contains c

theorem starts_closesPlain {token : Token} (spelled : token.Spelled)
    (closes : token.kind.closesPlain = true) : token.lexeme.toList.head?.any endsStatement = false := by
  have word : ∀ c : Char, Munch.isWordChar c = true → endsStatement c = false := by
    intro c inside
    rw [Bool.eq_false_iff]
    intro ends
    simp only [endsStatement, List.contains_eq_mem, List.mem_cons, List.not_mem_nil, or_false,
      decide_eq_true_eq] at ends
    obtain rfl | rfl | rfl := ends <;> exact absurd inside (by decide)
  have spells := spelled.spells
  generalize token.kind = kind at closes spells
  generalize token.lexeme.toList = text at spells
  cases spells with
  | symbol mark =>
    revert closes
    cases mark <;> decide
  | identifier starts unreserved => exact word _ (by rw [Munch.isWordChar, starts, Bool.true_or])
  | string body quotes => obtain rfl | rfl := quotes <;> rfl
  | rawString body quotes => rfl
  | number others starts =>
    obtain digit | rfl := starts
    · exact word _ (by rw [Munch.isWordChar, digit, Bool.or_true])
    · rfl
  | _ => cases closes

theorem writeSemicolon_weave {pieces : List Piece} (page : Page) (ends : EndsShown pieces) (spaced : Bool) :
    (page.weave (pieces ++ gap spaced)).writeSemicolon =
      page.weave (pieces ++ mark .semicolon :: gap true) := by
  rw [writeSemicolon, dropSpace_weave ends]
  exact write_weave pieces (.ofKind (.symbol .semicolon)) rfl true

theorem writeMargin_of_unmoved (unmoved : page.indentation = 0) : page.writeMargin = page := by
  have none : page.margin = [] := by
    rw [margin, unmoved]
    rfl
  rw [writeMargin, none]
  rfl

theorem newline_shown {pieces : List Piece} (page : Page) (ends : EndsShown pieces) (spaced : Bool)
    (move : Move) : (page.weave (pieces ++ gap spaced)).newline move =
      ((page.weave pieces).push .newline).indent move := by
  have dropped : (page.weave (pieces ++ gap spaced)).dropSpace = page.weave pieces :=
    dropSpace_weave ends spaced
  obtain ⟨before, last, rfl, shown⟩ := ends
  have shape := @weave_gap_buffer before last shown page spaced
  have started : (page.weave (before ++ [some last] ++ gap spaced)).buffer.isEmpty = false := by
    rw [shape]
    cases spaced <;> rfl
  have noBlank : (page.weave (before ++ [some last] ++ gap spaced)).blankLineAbove = false := by
    unfold blankLineAbove
    rw [shape]
    generalize (page.weave before).buffer = earlier
    cases spaced <;> cases earlier <;> rfl
  unfold Page.newline
  rw [started, noBlank, dropped]
  rfl

theorem newline_unmoved (unmoved : page.indentation = 0) (begun : page.buffer.isEmpty = false)
    (noBlank : page.blankLineAbove = false) : page.newline .stay = page.dropSpace.push .newline := by
  have same : ((page.dropSpace.push .newline).setIndentation .stay).indentation = 0 := unmoved
  unfold Page.newline
  rw [begun, noBlank]
  exact writeMargin_of_unmoved same

theorem newline_weave {pieces : List Piece} (unmoved : page.indentation = 0) (ends : EndsShown pieces)
    (spaced : Bool) :
    (page.weave (pieces ++ gap spaced)).newline .stay = page.weave (pieces ++ [some .lineBreak]) := by
  have unmoved : (((page.weave pieces).push .newline).setIndentation .stay).indentation = 0 := unmoved
  have broken : Fragment.ofText Token.lineBreak.lexeme = .newline := rfl
  rw [newline_shown page ends, indent, writeMargin_of_unmoved unmoved]
  simp [weave, push, setIndentation, indentationAfter, Piece.toFragment, broken]

theorem weave_separator_buffer {before : List Piece} {last : Token} (shown : last.Shown) (page : Page)
    (breaks : Nat) : (page.weave (before ++ [some last] ++ separator (breaks + 1))).buffer =
      List.replicate (breaks + 1) .newline ++ .text last.lexeme :: (page.weave before).buffer := by
  have broken : Piece.toFragment (some .lineBreak) = .newline := rfl
  rw [← weave_buffer shown]
  simp [weave, separator, broken]

/-- A line break is added to what separates two statements, unless there is a blank line already. -/
theorem newline_separator {pieces : List Piece} (unmoved : page.indentation = 0) (ends : EndsShown pieces)
    {breaks : Nat} (few : breaks ≤ 2) : (page.weave (pieces ++ separator breaks)).newline .stay =
      page.weave (pieces ++ separator (min (breaks + 1) 2)) := by
  match breaks, few with
  | 0, _ => exact newline_weave unmoved ends true
  | 1, _ =>
    obtain ⟨before, last, rfl, shown⟩ := ends
    have buffer := @weave_separator_buffer before last shown page 0
    have begun : (page.weave (before ++ [some last] ++ separator 1)).buffer.isEmpty = false := by
      rw [buffer]
      rfl
    have noBlank : (page.weave (before ++ [some last] ++ separator 1)).blankLineAbove = false := by
      rw [blankLineAbove, buffer]
      generalize (page.weave before).buffer = earlier
      cases earlier <;> rfl
    have written := @newline_unmoved (page.weave _) unmoved begun noBlank
    have same : .newline :: Buffer.dropSpace (page.weave (before ++ [some last] ++ separator 1)).buffer =
        (page.weave (before ++ [some last] ++ separator 2)).buffer := by
      rw [buffer]
      exact (weave_separator_buffer shown page 1).symm
    exact written.trans (@with_buffer_weave page (before ++ [some last] ++ separator 1) _ _ same)
  | 2, _ =>
    obtain ⟨before, last, rfl, shown⟩ := ends
    have blank : (page.weave (before ++ [some last] ++ separator 2)).blankLineAbove = true := by
      rw [blankLineAbove, weave_separator_buffer shown page 1]
      rfl
    rw [Page.newline, blank, Bool.or_true, if_pos rfl]
    rfl

theorem newlines_separator {pieces : List Piece} (unmoved : page.indentation = 0) (ends : EndsShown pieces)
    {breaks : Nat} (few : breaks ≤ 2) (count : Nat) : (page.weave (pieces ++ separator breaks)).newlines count =
      page.weave (pieces ++ separator (min (breaks + count) 2)) := by
  induction count generalizing breaks with
  | zero => rw [Nat.add_zero, Nat.min_eq_left few, newlines]
  | succ count ih =>
    rw [newlines, newline_separator unmoved ends few, ih (Nat.min_le_right ..)]
    congr 3
    omega

theorem run_takeExemption (ready : page.Ready) (pieces : List Piece) :
    takeExemption.run (page.weave pieces) = (false, page.weave pieces) := by
  have none : (page.weave pieces).exemptions = 0 := ready.owed
  show (decide (0 < (page.weave pieces).exemptions), { page.weave pieces with
    exemptions := (page.weave pieces).exemptions - 1 }) = _
  rw [none]
  have same : { page.weave pieces with exemptions := 0 - 1 } = page.weave pieces := by
    rw [show 0 - 1 = (page.weave pieces).exemptions from none.symm]
  rw [same]
  rfl

theorem code_weave {before : List Piece} {last : Token} (page : Page) (spelled : last.Spelled)
    (closes : last.kind.closesPlain = true) :
    (page.weave (before ++ [some last])).buffer.afterCode.isEmpty = true ∧
      ∃ content, (page.weave (before ++ [some last])).buffer.code.head? = some (.text content) ∧
        content ≠ ";" ∧ content ≠ "\x7d" := by
  have visible : last.kind ≠ .newline := by
    intro isBreak
    rw [isBreak] at closes
    cases closes
  have starts := starts_closesPlain spelled closes
  have code : Buffer.trailsCode (.text last.lexeme) = false := by
    rw [Buffer.trailsCode, Fragment.isBlank, Bool.false_or, Fragment.isLineComment]
    generalize last.lexeme.toList = text at starts
    cases text with
    | nil => rfl
    | cons c text =>
      have noSlash : ('/' == c) = false := by
        rw [beq_eq_false_iff_ne]
        rintro rfl
        cases starts
      show (('/' == c) && _) = false
      rw [noSlash, Bool.false_and]
  rw [weave_buffer (spelled.shown visible)]
  refine ⟨?_, last.lexeme, ?_, ?_, ?_⟩
  · rw [Buffer.afterCode, List.takeWhile_cons_of_neg (by rw [code]; decide)]
    rfl
  · rw [Buffer.code, List.dropWhile_cons_of_neg (by rw [code]; decide)]
    rfl
  · rintro same
    rw [same] at starts
    exact absurd starts (by decide)
  · rintro same
    rw [same] at starts
    exact absurd starts (by decide)

theorem code_plain {expr : Expr} (plain : Plain .assignment expr) (page : Page) (old : List Piece) :
    (page.weave (old ++ expr.pieces)).buffer.afterCode.isEmpty = true ∧
      ∃ content, (page.weave (old ++ expr.pieces)).buffer.code.head? = some (.text content) ∧
        content ≠ ";" ∧ content ≠ "\x7d" := by
  obtain ⟨first, last, woven⟩ := plain.woven
  obtain ⟨before, shape⟩ := woven.weave.exists_append
  have spelled := woven.weave.spelled last (by rw [shape]; simp)
  have whole : old ++ expr.pieces = old ++ before ++ [some last] := by rw [shape, List.append_assoc]
  rw [whole]
  exact code_weave page spelled woven.closes

theorem placeSemicolon_plain {expr : Expr} (plain : Plain .assignment expr) (page : Page)
    (old : List Piece) : (page.weave (old ++ expr.pieces)).placeSemicolon =
      page.weave (old ++ expr.pieces ++ mark .semicolon :: gap true) := by
  have semicolon := writeSemicolon_weave page (plain.endsShown.append old) false
  rw [Piece.gap_false, List.append_nil] at semicolon
  rw [placeSemicolon, if_pos (code_plain plain page old).1, semicolon]

/-- Behind an expression without a semicolon one is written, and the line breaks that were dropped are
written again, as far as they are kept. -/
theorem run_terminate_plain {expr : Expr} (plain : Plain .assignment expr) (ready : page.Ready)
    (old : List Piece) {blanks : List Fragment} (blank : ∀ fragment ∈ blanks, fragment.isBlank = true) :
    (terminate false).run ((page.weave (old ++ expr.pieces)).shift page.indentation blanks) =
      ((), page.weave (old ++ expr.statementPieces (min (max (blanks.count .newline) 1) 2))) := by
  have ends := plain.endsShown.append old
  have exempt : takeExemption.run ((page.weave (old ++ expr.pieces)).shift page.indentation blanks) =
      (false, (page.weave (old ++ expr.pieces)).shift page.indentation blanks) :=
    congrArg (fun exempted : Bool × Page => (exempted.1, exempted.2.shift page.indentation blanks))
      (run_takeExemption ready (old ++ expr.pieces))
  have dropped : (modifyGet Page.dropBlanks : Print Nat).run
      ((page.weave (old ++ expr.pieces)).shift page.indentation blanks) =
        (blanks.count .newline, page.weave (old ++ expr.pieces)) :=
    dropBlanks_shift ends blank
  refine run_bind exempt (run_bind dropped (run_bind rfl ?_))
  obtain ⟨_, content, code, noSemicolon, noBrace⟩ := code_plain plain page old
  have placed : ((page.weave (old ++ expr.pieces)).placeSemicolon).newlines (max (blanks.count .newline) 1) =
      page.weave (old ++ expr.statementPieces (min (max (blanks.count .newline) 1) 2)) := by
    have semicolonEnds := EndsShown.snoc (shown_mark (show Symbol.semicolon ≠ .hash by decide))
      (old ++ expr.pieces)
    have broken := newlines_separator ready.unmoved semicolonEnds (Nat.zero_le 2) (max (blanks.count .newline) 1)
    rw [placeSemicolon_plain plain, List.append_cons]
    refine broken.trans (congrArg page.weave ?_)
    simp [Expr.statementPieces, mark]
  simp only [begun_weave ends page, code, Bool.not_false, ↓reduceIte]
  split
  · rename_i isSemicolon
    cases isSemicolon
    exact absurd rfl noSemicolon
  · rename_i isBrace
    cases isBrace
    exact absurd rfl noBrace
  · exact congrArg ((), ·) placed

theorem run_closedStatement {expr : Expr} (laid : LaidPlain expr) (ends : EndsShown expr.pieces)
    (ready : page.Ready) (old : List Piece) : (stmt (.expression expr true)).run (page.weave old) =
      ((), page.weave (old ++ expr.statementPieces 0)) := by
  have semicolon : (semicolonIf true).run (page.weave (old ++ expr.pieces ++ gap expr.spaced)) =
      ((), page.weave (old ++ expr.pieces ++ mark .semicolon :: gap true)) :=
    congrArg ((), ·) (writeSemicolon_weave page (ends.append old) expr.spaced)
  rw [stmt]
  refine run_same (run_bind (run_bind (laid page ready.quiet old) semicolon)
    (run_bind (run_takeExemption ready _) rfl)) ?_
  simp [Expr.statementPieces, separator]

theorem laid_statement {expr : Expr} (plain : Plain .assignment expr) (closed : Bool) (ready : page.Ready)
    (old : List Piece) : (stmt (.expression expr closed)).run (page.weave old) =
      ((), page.weave (old ++ expr.statementPieces (if closed then 0 else 1))) := by
  have laid := laid_plain plain
  cases closed with
  | true => exact run_closedStatement laid plain.endsShown ready old
  | false =>
    have ended := @run_terminate_plain page expr plain ready old (if expr.spaced then [.space] else [])
      (by cases expr.spaced <;> simp [Fragment.isBlank])
    rw [stmt]
    refine run_same (run_bind (run_bind (laidPlain_iff.mp laid page ready.quiet old) rfl) ended) ?_
    cases expr.spaced <;> rfl

end Print

end GmlLayout
