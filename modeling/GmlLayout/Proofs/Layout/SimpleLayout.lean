import GmlLayout.Proofs.Layout.PlainLayout
import GmlLayout.Proofs.Tree.Simple

/-!
Simple expressions are laid out as plain ones: the line breaks in them are passed over. Those that end a
statement without a semicolon leave blanks behind the last piece, and the end of the statement takes these
off again.
-/

namespace GmlLayout

open Piece (mark gap)

theorem Buffer.exists_dropSpace {blanks : List Fragment}
    (blank : ∀ fragment ∈ blanks, fragment.isBlank = true) (content : String) (earlier : Buffer) :
    ∃ fewer : List Fragment, (∀ fragment ∈ fewer, fragment.isBlank = true) ∧
      Buffer.dropSpace (blanks ++ .text content :: earlier) = fewer ++ .text content :: earlier := by
  unfold Buffer.dropSpace
  split
  · rename_i rest shape
    split
    · exact ⟨blanks, blank, rfl⟩
    · cases blanks with
      | nil => cases shape
      | cons last blanks =>
        refine ⟨blanks, fun fragment member => blank fragment (List.mem_cons_of_mem _ member), ?_⟩
        exact (List.tail_eq_of_cons_eq shape).symm
  · exact ⟨blanks, blank, rfl⟩

namespace Page

variable {page : Page} {pieces : List Piece} {blanks : List Fragment}

theorem exists_breakLine (ends : EndsShown pieces) (blank : ∀ fragment ∈ blanks, fragment.isBlank = true)
    (indentation hint : Int) : ∃ more : List Fragment, (∀ fragment ∈ more, fragment.isBlank = true) ∧
      (((page.weave pieces).shift indentation blanks).dropSpace.push .newline).indentTo hint =
        (page.weave pieces).shift hint more := by
  obtain ⟨before, last, rfl, shown⟩ := ends
  obtain ⟨fewer, fewerBlank, dropped⟩ := Buffer.exists_dropSpace blank last.lexeme (page.weave before).buffer
  rw [← weave_buffer shown] at dropped
  let started : Page := { page with indentation := hint }
  refine ⟨started.margin ++ .newline :: fewer, ?_, ?_⟩
  · exact List.forall_mem_append.mpr
      ⟨isBlank_of_mem_margin started, List.forall_mem_cons.mpr ⟨rfl, fewerBlank⟩⟩
  · have buffer : started.margin ++ .newline ::
        Buffer.dropSpace (blanks ++ (page.weave (before ++ [some last])).buffer) =
        started.margin ++ .newline :: fewer ++ (page.weave (before ++ [some last])).buffer := by
      rw [dropped, List.append_assoc]
      rfl
    exact congrArg (fun buffer : Buffer => { page with indentation := hint, buffer := buffer }) buffer

theorem exists_newline (ends : EndsShown pieces) (blank : ∀ fragment ∈ blanks, fragment.isBlank = true)
    (indentation : Int) : ∃ more : List Fragment, (∀ fragment ∈ more, fragment.isBlank = true) ∧
      ((page.weave pieces).shift indentation blanks).newline .stay =
        (page.weave pieces).shift indentation more := by
  unfold Page.newline
  split
  · exact ⟨blanks, blank, rfl⟩
  · exact exists_breakLine ends blank indentation indentation

theorem exists_lineBreaks {slot : Trivia} (breaks : slot.all Token.isNewline = true) (ends : EndsShown pieces)
    (blank : ∀ fragment ∈ blanks, fragment.isBlank = true) (indentation : Int) :
    ∃ more : List Fragment, (∀ fragment ∈ more, fragment.isBlank = true) ∧
      (triviaFrom .afterExpression .over true slot ((page.weave pieces).shift indentation blanks)).2 =
        (page.weave pieces).shift indentation more := by
  induction slot generalizing blanks with
  | nil => exact ⟨blanks, blank, rfl⟩
  | cons token slot ih =>
    rw [List.all_cons, Bool.and_eq_true] at breaks
    obtain ⟨more, moreBlank, written⟩ := @exists_newline page _ _ ends blank indentation
    rw [triviaFrom, if_pos breaks.1]
    simp only [↓reduceIte, written]
    exact ih breaks.2 moreBlank

/-- The first line break behind an expression. Inside a frame it may take over the author's indentation. -/
theorem exists_firstBreak (ends : EndsShown pieces) (hint : Int) :
    ∃ indentation blanks, (∀ fragment ∈ blanks, fragment.isBlank = true) ∧
      (page.frames = [] → indentation = page.indentation) ∧
      (page.weave (pieces ++ gap true)).firstBreak .afterExpression hint =
        (page.weave pieces).shift indentation blanks := by
  have space : ∀ fragment ∈ [Fragment.space], fragment.isBlank = true := by decide
  have noBlank : (page.weave (pieces ++ gap true)).blankLineAbove = false := by
    obtain ⟨before, last, rfl, shown⟩ := ends
    rw [blankLineAbove, weave_gap_buffer shown]
    generalize (page.weave before).buffer = earlier
    cases earlier <;> rfl
  unfold firstBreak
  split
  · rename_i respected
    rw [noBlank, weave_gap]
    obtain ⟨blanks, blank, written⟩ := @exists_breakLine page _ _ ends space page.indentation hint
    refine ⟨hint, blanks, blank, fun frameless => ?_, written⟩
    have frameless : (page.weave (pieces ++ gap true)).frames = [] := frameless
    rw [frameless] at respected
    cases respected
  · rw [weave_gap]
    obtain ⟨blanks, blank, written⟩ := @exists_newline page _ _ ends space page.indentation
    exact ⟨page.indentation, blanks, blank, fun _ => rfl, written⟩

theorem exists_afterExpression {slot : Trivia} (breaks : slot.all Token.isNewline = true)
    (ends : EndsShown pieces) :
    ∃ indentation blanks, (∀ fragment ∈ blanks, fragment.isBlank = true) ∧
      (page.frames = [] → indentation = page.indentation) ∧
      ((page.weave (pieces ++ gap true)).trivia slot .afterExpression).2 =
        (page.weave pieces).shift indentation blanks := by
  cases slot with
  | nil => exact ⟨page.indentation, [.space], by decide, fun _ => rfl, weave_gap page pieces true⟩
  | cons token slot =>
    rw [List.all_cons, Bool.and_eq_true] at breaks
    obtain ⟨indentation, blanks, blank, framed, first⟩ := @exists_firstBreak page _ ends token.indentHint
    obtain ⟨more, moreBlank, others⟩ := @exists_lineBreaks page _ _ _ breaks.2 ends blank indentation
    refine ⟨indentation, more, moreBlank, framed, ?_⟩
    rw [← others, ← first]
    show (triviaFrom .afterExpression .over false (token :: slot) _).2 = _
    rw [triviaFrom, if_pos breaks.1]
    rfl

end Page

namespace Expr

variable {source : String}

theorem endsShown_of_isSimple {expr : Expr} {last : Bool} (simple : expr.isSimple last = true)
    (read : expr.IsRead source) : EndsShown expr.pieces := by
  rw [← pieces_bare]
  exact (plain_bare simple read).endsShown

theorem unidentifiedCallee?_of_isSimple {expr : Expr} {last : Bool} (simple : expr.isSimple last = true) :
    expr.unidentifiedCallee? = none := by
  cases expr with
  | call callee afterOpen arguments trailing =>
    cases callee with
    | unidentified => simp [isSimple, isIdentifier] at simple
    | _ => rfl
  | _ => rfl

theorem passesLambda_of_areSimple {items : List (Item Expr)} (simple : areSimple items = true) :
    Print.passesLambda items = false := by
  have none : items.filterMap (fun item => item.value.unidentifiedCallee?) = [] := by
    induction items with
    | nil => rfl
    | cons item items ih =>
      simp only [areSimple, Bool.and_eq_true] at simple
      simp [unidentifiedCallee?_of_isSimple simple.1.1, ih simple.2]
  rw [Print.passesLambda, none]
  rfl

end Expr

namespace Print

open Page

variable {source : String} {page : Page}

/-- What an expression may leave behind its last piece: a space or nothing, but blanks of any kind where its
statement ends. Then the indentation is the same, unless there is a frame to take it back. -/
structure Trailing (spaced last : Bool) (page : Page) (indentation : Int) (blanks : List Fragment) : Prop where
  blank : ∀ fragment ∈ blanks, fragment.isBlank = true
  framed : page.frames = [] → indentation = page.indentation
  inside : last = false → indentation = page.indentation ∧ blanks = if spaced then [.space] else []

/-- What it means that an expression is laid out as its pieces, up to the blanks behind them. -/
def LaidSimple (last : Bool) (expr : Expr) : Prop :=
  ∀ page : Page, page.Quiet → ∀ old : List Piece, ∃ indentation blanks,
    Trailing expr.spaced last page indentation blanks ∧ LaidWith expr page old indentation blanks

theorem LaidPlain.simple {expr : Expr} (laid : LaidPlain expr) (last : Bool) : LaidSimple last expr := by
  intro page quiet old
  refine ⟨page.indentation, _, ⟨?_, fun _ => rfl, fun _ => ⟨rfl, rfl⟩⟩, laidPlain_iff.mp laid page quiet old⟩
  cases expr.spaced <;> simp [Fragment.isBlank]

theorem LaidSimple.plain {expr : Expr} (laid : LaidSimple false expr) : LaidPlain expr := by
  rw [laidPlain_iff]
  intro page quiet old
  obtain ⟨indentation, blanks, trails, written⟩ := laid page quiet old
  obtain ⟨rfl, rfl⟩ := trails.inside rfl
  exact written

theorem Trailing.close {spaced last : Bool} {indentation : Int} {blanks : List Fragment}
    (trails : Trailing spaced last page.openFrame indentation blanks) :
    Trailing spaced last page page.indentation blanks :=
  ⟨trails.blank, fun _ => rfl, fun inside => ⟨rfl, (trails.inside inside).2⟩⟩

theorem exists_closeExpression {last : Bool} {trailing : Trivia} (simple : isSimpleEnd last trailing = true)
    (quiet : page.Quiet) {pieces : List Piece} (ends : EndsShown pieces) :
    ∃ indentation blanks, Trailing true last page indentation blanks ∧
      (closeExpression trailing).run (page.weave (pieces ++ gap true)) =
        ((), (page.weave pieces).shift indentation blanks) := by
  rw [isSimpleEnd, Bool.or_eq_true, Bool.and_eq_true, List.isEmpty_iff] at simple
  obtain rfl | ⟨rfl, breaks⟩ := simple
  · refine ⟨page.indentation, [.space], ⟨by decide, fun _ => rfl, fun _ => ⟨rfl, rfl⟩⟩, ?_⟩
    rw [weave_gap]
    exact run_closeExpression_shift quiet pieces
  · obtain ⟨indentation, blanks, blank, framed, written⟩ := @exists_afterExpression page _ _ breaks ends
    refine ⟨indentation, blanks, ⟨blank, framed, fun inside => by cases inside⟩, ?_⟩
    have slot : (Print.slot trailing .afterExpression).run (page.weave (pieces ++ gap true)) =
        ((), (page.weave pieces).shift indentation blanks) := congrArg ((), ·) written
    exact run_bind slot (run_closeExpression_shift quiet pieces)

section

variable {last : Bool} {expr left right : Expr} {operator : Token} {slot : Trivia}

theorem simple_binary (ends : EndsShown left.pieces) (leftLaid : LaidPlain left)
    (rightLaid : LaidSimple last right) : LaidSimple last (.binary left operator [] right) := by
  intro page quiet old
  obtain ⟨indentation, blanks, trails, written⟩ := rightLaid page.openFrame quiet.openFrame
    (old ++ left.pieces ++ [none] ++ [some operator, none])
  exact ⟨page.indentation, blanks, trails.close, laidWith_binary ends leftLaid quiet written⟩

theorem simple_unary (passed : slot.all Token.isNewline = true) (laid : LaidSimple last expr) :
    LaidSimple last (.unary operator slot expr) := by
  intro page quiet old
  obtain ⟨indentation, blanks, trails, written⟩ := laid page quiet
    (old ++ some operator :: gap (operator.kind = .keyword .notWord))
  exact ⟨indentation, blanks, trails, laidWith_unary passed quiet written⟩

theorem simple_assign (passed : slot.all Token.isNewline = true) (leftLaid : LaidPlain left)
    (rightLaid : LaidSimple last right) : LaidSimple last (.assign left operator slot right) := by
  intro page quiet old
  obtain ⟨indentation, blanks, trails, written⟩ := rightLaid page quiet
    (old ++ left.pieces ++ gap left.spaced ++ [some operator, none])
  exact ⟨indentation, blanks, trails, laidWith_assign passed leftLaid quiet written⟩

theorem simple_ternary {afterColon : Trivia} (hookPassed : slot.all Token.isNewline = true)
    (colonPassed : afterColon.all Token.isNewline = true) (conditionLaid : LaidPlain expr)
    (trueLaid : LaidPlain left) (falseLaid : LaidSimple last right) :
    LaidSimple last (.ternary expr slot left afterColon right) := by
  intro page quiet old
  obtain ⟨indentation, blanks, trails, written⟩ := falseLaid page.openFrame quiet.openFrame
    (old ++ expr.pieces ++ gap expr.spaced ++ [mark .hook, none] ++ left.pieces ++ gap left.spaced ++
      [mark .colon, none])
  exact ⟨page.indentation, blanks, trails.close,
    laidWith_ternary hookPassed colonPassed conditionLaid trueLaid quiet written⟩

theorem simple_dotted (ends : EndsShown left.pieces) (ownerLaid : LaidPlain left)
    (memberLaid : LaidSimple last right) : LaidSimple last (.dotted left [] right []) := by
  intro page quiet old
  obtain ⟨indentation, blanks, trails, written⟩ := memberLaid page.chained quiet.chained
    (old ++ left.pieces ++ [mark .dot])
  have closed : Trailing right.spaced last page page.indentation blanks :=
    ⟨trails.blank, fun _ => rfl, fun inside => ⟨rfl, (trails.inside inside).2⟩⟩
  exact ⟨page.indentation, blanks, closed, laidWith_dotted ends ownerLaid quiet written⟩

end

mutual

theorem laid_simple : ∀ {expr : Expr} {last : Bool}, expr.isSimple last = true → expr.IsRead source →
    LaidSimple last expr
  | .identifier token after, last, simple, read => by
    simp only [Expr.isSimple, Bool.and_eq_true] at simple
    exact (laid_identifier token simple.2).simple last
  | .literal token after, last, simple, read => by
    simp only [Expr.isSimple, Bool.and_eq_true] at simple
    exact (laid_literal token simple.2).simple last
  | .grouping afterOpen [inner] afterClose, last, simple, read => by
    simp only [Expr.isSimple, Bool.and_eq_true, List.isEmpty_iff] at simple
    obtain ⟨⟨rfl, innerSimple⟩, passed⟩ := simple
    have innerRead : inner.IsRead source := by
      simp only [Expr.IsRead, Expr.All, Expr.parts, Expr.listParts, List.forall_mem_cons,
        List.append_nil] at read
      exact read.2
    exact (laid_grouping passed (Expr.endsShown_of_isSimple innerSimple innerRead)
      (laid_simple innerSimple innerRead).plain).simple last
  | .array afterOpen ⟨elements, endDelimited⟩, last, simple, read => by
    simp only [Expr.isSimple, Bool.and_eq_true, List.isEmpty_iff, beq_iff_eq] at simple
    obtain ⟨⟨rfl, itemsSimple⟩, rfl⟩ := simple
    simp only [Expr.IsRead, Expr.All, Expr.parts, List.forall_mem_cons] at read
    have items := laid_simpleItems itemsSimple read.2
    exact (laid_array (fun item member => (items item member).1) fun item member =>
      (items item member).2).simple last
  | .call callee afterOpen ⟨arguments, endDelimited⟩ trailing, last, simple, read => by
    have ends := Expr.endsShown_of_isSimple simple read
    simp only [Expr.isSimple, Bool.and_eq_true, List.isEmpty_iff, beq_iff_eq] at simple
    obtain ⟨⟨⟨⟨⟨isName, calleeSimple⟩, rfl⟩, itemsSimple⟩, rfl⟩, trailingSimple⟩ := simple
    simp only [Expr.IsRead, Expr.All, Expr.parts, List.forall_mem_cons, List.forall_mem_append] at read
    obtain ⟨token, after, rfl⟩ := Expr.exists_identifier isName
    have name := Expr.isName_of_isSimple calleeSimple read.2.1
    have shown : token.Shown := (Token.spelled_name name.1 name.2).shown (by simp [name.1])
    have items := laid_simpleItems itemsSimple read.2.2
    simp only [Expr.isSimple, Bool.and_eq_true] at calleeSimple
    intro page quiet old
    obtain ⟨indentation, blanks, trails, closes⟩ := exists_closeExpression trailingSimple quiet (ends.append old)
    exact ⟨indentation, blanks, trails, run_call shown calleeSimple.2 (fun item member => (items item member).1)
      (fun item member => (items item member).2) (Expr.passesLambda_of_areSimple itemsSimple) quiet closes⟩
  | .access collection accessor indices trailing, last, simple, read => by
    have ends := Expr.endsShown_of_isSimple simple read
    simp only [Expr.isSimple, Bool.and_eq_true, Bool.not_eq_true', List.isEmpty_eq_false_iff] at simple
    obtain ⟨⟨⟨⟨⟨_, collectionSimple⟩, _⟩, nonempty⟩, indicesSimple⟩, trailingSimple⟩ := simple
    simp only [Expr.IsRead, Expr.All, Expr.parts, List.forall_mem_cons, List.forall_mem_append] at read
    have each := laid_simpleIndices indicesSimple read.2.2
    intro page quiet old
    obtain ⟨indentation, blanks, trails, closes⟩ := exists_closeExpression trailingSimple quiet (ends.append old)
    exact ⟨indentation, blanks, trails, run_access (Expr.endsShown_of_isSimple collectionSimple read.2.1)
      (laid_simple collectionSimple read.2.1).plain nonempty (fun index member => (each index member).1)
      (fun index member => (each index member).2) quiet closes⟩
  | .dotted owner afterDot member trailing, last, simple, read => by
    simp only [Expr.isSimple, Bool.and_eq_true, List.isEmpty_iff] at simple
    obtain ⟨⟨⟨⟨⟨_, ownerSimple⟩, rfl⟩, _⟩, memberSimple⟩, rfl⟩ := simple
    simp only [Expr.IsRead, Expr.All, Expr.parts, List.forall_mem_cons, List.forall_mem_append] at read
    exact simple_dotted (Expr.endsShown_of_isSimple ownerSimple read.2.1)
      (laid_simple ownerSimple read.2.1).plain (laid_simple memberSimple read.2.2)
  | .step operand operator afterOperator, last, simple, read => by
    simp only [Expr.isSimple, Bool.and_eq_true] at simple
    simp only [Expr.IsRead, Expr.All, Expr.parts, List.forall_mem_cons] at read
    exact (laid_step simple.2 (Expr.endsShown_of_isSimple simple.1.1 read.2)
      (laid_simple simple.1.1 read.2).plain).simple last
  | .unary operator afterOperator operand, last, simple, read => by
    simp only [Expr.isSimple, Bool.and_eq_true] at simple
    simp only [Expr.IsRead, Expr.All, Expr.parts, List.forall_mem_cons] at read
    exact simple_unary simple.1.2 (laid_simple simple.2 read.2)
  | .binary left operator afterOperator right, last, simple, read => by
    simp only [Expr.isSimple, Bool.and_eq_true, List.isEmpty_iff] at simple
    obtain ⟨⟨leftSimple, rfl⟩, rightSimple⟩ := simple
    simp only [Expr.IsRead, Expr.All, Expr.parts, List.forall_mem_cons, List.forall_mem_append] at read
    exact simple_binary (Expr.endsShown_of_isSimple leftSimple read.2.1)
      (laid_simple leftSimple read.2.1).plain (laid_simple rightSimple read.2.2)
  | .ternary condition afterHook whenTrue afterColon whenFalse, last, simple, read => by
    simp only [Expr.isSimple, Bool.and_eq_true] at simple
    obtain ⟨⟨⟨⟨conditionSimple, hookPassed⟩, trueSimple⟩, colonPassed⟩, falseSimple⟩ := simple
    simp only [Expr.IsRead, Expr.All, Expr.parts, List.forall_mem_cons, List.forall_mem_append] at read
    exact simple_ternary hookPassed colonPassed (laid_simple conditionSimple read.2.1.1).plain
      (laid_simple trueSimple read.2.1.2).plain (laid_simple falseSimple read.2.2)
  | .assign target operator afterOperator value, last, simple, read => by
    simp only [Expr.isSimple, Bool.and_eq_true] at simple
    obtain ⟨⟨⟨targetSimple, _⟩, passed⟩, valueSimple⟩ := simple
    simp only [Expr.IsRead, Expr.All, Expr.parts, List.forall_mem_cons, List.forall_mem_append] at read
    exact simple_assign passed (laid_simple targetSimple read.2.1).plain (laid_simple valueSimple read.2.2)
  | .grouping _ [] _, _, simple, _ | .grouping _ (_ :: _ :: _) _, _, simple, _ => by cases simple
  | .function .., _, simple, _ | .numberStartDot .., _, simple, _ | .numberEndDot .., _, simple, _ => by
    cases simple
  | .lifetime .., _, simple, _ | .unidentified .., _, simple, _ | .newline, _, simple, _ => by cases simple
  | .lineComment _, _, simple, _ | .blockComment _, _, simple, _ => by cases simple

theorem laid_simpleItems : ∀ {items : List (Item Expr)}, Expr.areSimple items = true →
    Expr.All (fun part => part.Graded ∧ part.Formed (· ∈ scan source)) (Expr.entryParts items) →
    ∀ item ∈ items, item.trailing = [] ∧ EndsShown item.value.pieces ∧ LaidPlain item.value
  | [], _, _ => nofun
  | ⟨value, trailing⟩ :: others, simple, read => by
    simp only [Expr.areSimple, Bool.and_eq_true, List.isEmpty_iff] at simple
    simp only [Expr.All, Expr.entryParts, List.forall_mem_append] at read
    obtain ⟨⟨valueSimple, bare⟩, othersSimple⟩ := simple
    exact List.forall_mem_cons.mpr ⟨⟨bare, Expr.endsShown_of_isSimple valueSimple read.1,
      (laid_simple valueSimple read.1).plain⟩, laid_simpleItems othersSimple read.2⟩

theorem laid_simpleIndices : ∀ {indices : List (Trivia × Expr)}, Expr.indicesSimple indices = true →
    Expr.All (fun part => part.Graded ∧ part.Formed (· ∈ scan source)) (Expr.indexParts indices) →
    ∀ index ∈ indices, index.1.all Token.isNewline = true ∧ EndsShown index.2.pieces ∧ LaidPlain index.2
  | [], _, _ => nofun
  | (before, index) :: others, simple, read => by
    simp only [Expr.indicesSimple, Bool.and_eq_true] at simple
    simp only [Expr.All, Expr.indexParts, List.forall_mem_append] at read
    obtain ⟨⟨passed, indexSimple⟩, othersSimple⟩ := simple
    exact List.forall_mem_cons.mpr ⟨⟨passed, Expr.endsShown_of_isSimple indexSimple read.1,
      (laid_simple indexSimple read.1).plain⟩, laid_simpleIndices othersSimple read.2⟩

end

end Print

end GmlLayout
