import GmlLayout.Proofs.Layout.LevelStatements
import GmlLayout.Proofs.Layout.NormalForm

/-!
The indentation comes back. A program whose tree is balanced is at the margin again behind each of its
statements, under all settings. One that ends a branch without braces with a blank line is not: the step back
from the branch is passed over, and everything behind it stays indented.
-/

namespace GmlLayout

namespace Page

/-- A page that keeps to the limit of a statement; if `framed` does not hold, no frame is open. -/
def Aligned (limit : Nat) (framed : Bool) (rows : Nat) (page : Page) : Prop :=
  ∃ frames, (framed = false → frames = []) ∧ page.Within (.plain limit frames) rows

def Standing (limit : Nat) (framed : Bool) (rows : Nat) (page : Page) : Prop :=
  ∃ frames, (framed = false → frames = []) ∧ page.Poised (.plain limit frames) rows

variable {limit : Nat} {framed : Bool} {rows : Nat} {page : Page}

theorem Aligned.tidy (aligned : page.Aligned limit framed rows) : page.Tidy := by
  obtain ⟨frames, unframed, within⟩ := aligned
  exact within.tidy

theorem Aligned.relax (aligned : page.Aligned limit framed rows) {count : Nat} (le : rows ≤ count) :
    page.Aligned limit framed count := by
  obtain ⟨frames, unframed, within⟩ := aligned
  exact ⟨frames, unframed, within.relax le⟩

theorem Aligned.forget (aligned : page.Aligned limit framed rows) : page.Aligned limit framed 2 := by
  obtain ⟨frames, unframed, within⟩ := aligned
  exact ⟨frames, unframed, within.forget⟩

theorem Aligned.standing (aligned : page.Aligned limit framed rows) (begun : page.Begun) :
    page.Standing limit framed rows := by
  obtain ⟨frames, unframed, within⟩ := aligned
  exact ⟨frames, unframed, begun, within⟩

theorem Standing.begun (standing : page.Standing limit framed rows) : page.Begun := by
  obtain ⟨frames, unframed, begun, within⟩ := standing
  exact begun

theorem Standing.aligned (standing : page.Standing limit framed rows) : page.Aligned limit framed rows := by
  obtain ⟨frames, unframed, begun, within⟩ := standing
  exact ⟨frames, unframed, within⟩

theorem Standing.forget (standing : page.Standing limit framed rows) : page.Standing limit framed 2 :=
  standing.aligned.forget.standing standing.begun

end Page

theorem Stmt.bodyDepth_le (depth : Nat) (body : List Stmt) : bodyDepth depth body ≤ depth + 1 := by
  rcases body with _ | ⟨only, _ | ⟨next, others⟩⟩
  · exact Nat.le_succ depth
  · show (if only.isExpression then depth else depth + 1) ≤ depth + 1
    split
    · exact Nat.le_succ depth
    · exact Nat.le_refl _
  · exact Nat.le_refl _

theorem depthBehind_le {afterOpen : Trivia} {depth limit : Nat} (le : depth ≤ limit) :
    depthBehind afterOpen depth ≤ limit + (afterOpen.any Token.isNewline).toNat := by
  unfold depthBehind
  cases afterOpen.any Token.isNewline with
  | false => exact le
  | true => exact Nat.succ_le_succ le

/-- An `else` branch is one deeper than its `if` at most, and not on the line of its `else`. -/
theorem Stmt.elseDepth_le {whenFalse : Stmt} {afterElse : Trivia} {depth limit : Nat} (le : depth ≤ limit)
    {moved : Bool} (isMoved : moved = (!whenFalse.continues && afterElse.any Token.isNewline)) :
    (if whenFalse.continues then depth else depthBehind afterElse depth) ≤ limit + moved.toNat := by
  rw [isMoved]
  cases whenFalse.continues with
  | true => exact le
  | false => exact depthBehind_le le

namespace Print

open Page

section

variable {α : Type} {limit later rows count : Nat} {framed : Bool} {action : Print α}

theorem Brings.opening (each : ∀ frames, (framed = false → frames = []) →
      Brings (Within (.plain limit frames) rows) action fun _ => Poised (.plain later frames) count) :
    Brings (Aligned limit framed rows) action fun _ => Standing later framed count := by
  rintro page ⟨frames, unframed, within⟩
  exact ⟨frames, unframed, each frames unframed page within⟩

theorem Brings.standing (each : ∀ frames, (framed = false → frames = []) →
      Brings (Poised (.plain limit frames) rows) action fun _ => Poised (.plain later frames) count) :
    Brings (Standing limit framed rows) action fun _ => Standing later framed count := by
  rintro page ⟨frames, unframed, poised⟩
  exact ⟨frames, unframed, each frames unframed page poised⟩

theorem Brings.whichever {ι : Type} {kept : ι → Prop} {pre : ι → Page → Prop} {post : α → Page → Prop}
    (each : ∀ index, kept index → Brings (pre index) action post) :
    Brings (fun page => ∃ index, kept index ∧ pre index page) action post := by
  rintro page ⟨index, keeps, holds⟩
  exact each index keeps page holds

theorem Brings.loosely {pre holds : Page → Prop} {post ends : α → Page → Prop} (loose : Loose pre action post)
    (tidy : ∀ page, holds page → page.Tidy) (brings : Brings holds action ends) :
    Brings (fun page => pre page ∧ holds page) action fun value page => post value page ∧ ends value page :=
  fun page both => ⟨(loose page (tidy page both.2) both.1).2.1, brings page both.2⟩

theorem aligned_terminate (closed : Bool) : Brings (Aligned limit framed rows) (terminate closed)
    fun _ => Aligned limit framed (if closed then rows else max 1 rows) := by
  rintro page ⟨frames, unframed, within⟩
  exact ⟨frames, unframed, within_terminate closed page within⟩

theorem Brings.ended {pre : Page → Prop} {action : Print Unit} {closed : Bool} (one : 1 ≤ count)
    (few : rows ≤ count) (brings : Brings pre action fun _ => Aligned limit framed rows) :
    Brings pre (Print.ended closed action) fun _ => Aligned limit framed count := by
  refine brings.bind fun _ => (aligned_terminate closed).behind fun _ page aligned => aligned.relax ?_
  split
  · exact few
  · exact Nat.max_le.mpr ⟨one, few⟩

theorem Brings.endedBy {pre : Page → Prop} {action : Print Unit} {written closed : Bool}
    (same : closed = written)
    (brings : Brings pre action fun _ => Aligned limit framed (if written then 0 else rows)) :
    Brings pre (Print.ended closed action) fun _ => Aligned limit framed (Stmt.endedRows written rows) := by
  rw [same]
  refine brings.bind fun _ => (aligned_terminate written).behind fun _ page aligned => ?_
  cases written <;> exact aligned

theorem standing_semicolonIf (written : Bool) : Brings (Standing limit framed rows) (semicolonIf written)
    fun _ => Aligned limit framed (if written then 0 else rows) :=
  (Brings.standing fun _ _ => poised_semicolonIf written).behind fun _ _ => Standing.aligned

end

section

variable {drawn : Token → Prop} (shown : ∀ token, drawn token → token.kind ≠ .newline → token.Shown)
  {limit depth rows : Nat} {framed : Bool}

include shown

theorem standing_stmt {statement : Stmt} (formed : statement.Formed drawn) {behind : Bool} {count : Nat}
    (brings : Brings (Aligned limit framed 2) (stmt statement) fun _ => Aligned limit behind count) :
    Brings (Standing limit framed rows) (stmt statement) fun _ => Standing limit behind count :=
  fun page standing => (brings page standing.forget.aligned).standing
    ((quiet_stmt shown formed).inner page standing.aligned.tidy standing.begun).2

theorem standing_openBlock {afterOpen : Trivia} (formed : SlotFormed drawn afterOpen) (body : List Stmt)
    (le : depth ≤ limit) : Brings (Aligned limit framed rows) (openBlock afterOpen body) fun opened page =>
      Stmt.bodyDepth depth body ≤ limit + opened.2.toNat ∧ page.Standing (limit + opened.2.toNat) framed 2 := by
  rintro page ⟨frames, unframed, within⟩
  obtain ⟨stays, poised⟩ := poised_openBlock shown formed body page within
  rw [Bounds.inside_plain] at poised
  refine ⟨?_, frames, unframed, poised⟩
  cases onLines : (given (openBlock afterOpen body) page).2 with
  | false =>
    rw [stays onLines]
    exact le
  | true => exact Nat.le_trans (Stmt.bodyDepth_le depth body) (Nat.succ_le_succ le)

theorem standing_openConditional {afterKeyword : Trivia} {condition : Expr}
    (keywordFormed : SlotFormed drawn afterKeyword) (conditionFormed : condition.Formed drawn)
    {whenTrue : Stmt} (le : depth ≤ limit)
    (fit : Stmt.conditionBalanced framed depth condition whenTrue = true) :
    Brings (Aligned limit framed rows) (openConditional afterKeyword condition whenTrue.isBlock)
      fun indented page => ∃ deeper : Bool, (deeper = true → indented = true ∧ whenTrue.rowsBehind < 2) ∧
        page.Standing (limit + deeper.toNat) framed 2 := by
  rintro page ⟨frames, unframed, within⟩
  obtain ⟨deeper, steps, poised⟩ :=
    poised_openConditional shown keywordFormed conditionFormed unframed le fit page within
  rw [Bounds.inside_plain] at poised
  exact ⟨deeper, steps, frames, unframed, poised⟩

theorem standing_betweenBranches {between : Trivia} (formed : SlotFormed drawn between) (le : depth ≤ limit)
    (fit : slotWithin framed depth between = true) {indented deeper : Bool}
    (steps : deeper = true → indented = true ∧ rows < 2) :
    Brings (Standing (limit + deeper.toNat) framed rows) (betweenBranches between indented)
      fun _ => Standing limit framed (Stmt.branchRows rows between) := by
  rintro page ⟨frames, unframed, poised⟩
  rw [← Bounds.inside_plain] at poised
  exact ⟨frames, unframed, poised_betweenBranches shown formed unframed le fit steps page poised⟩

theorem standing_openElse {between afterElse : Trivia} (betweenFormed : SlotFormed drawn between)
    (elseFormed : SlotFormed drawn afterElse) (le : depth ≤ limit)
    (fit : slotWithin framed depth between = true) {indented deeper continues : Bool}
    (steps : deeper = true → indented = true ∧ rows < 2)
    (elseFit : (continues || slotWithin framed (depth + 1) afterElse) = true) :
    Brings (Standing (limit + deeper.toNat) framed rows) (openElse between indented afterElse continues)
      fun moved page => moved = (!continues && afterElse.any Token.isNewline) ∧
        page.Standing (limit + moved.toNat) framed 2 := by
  rintro page ⟨frames, unframed, poised⟩
  rw [← Bounds.inside_plain] at poised
  obtain ⟨isMoved, ends⟩ :=
    poised_openElse shown betweenFormed elseFormed unframed le fit steps elseFit page poised
  rw [Bounds.inside_plain] at ends
  exact ⟨isMoved, frames, unframed, ends⟩

omit shown in
theorem standing_closeBlock (request : BlockRequest) (onLines written : Bool) :
    Brings (Standing (limit + onLines.toNat) framed rows) (closeBlock request onLines written)
      fun _ => Standing limit framed 1 := by
  refine .standing fun frames _ => ?_
  rw [← Bounds.inside_plain]
  exact poised_closeBlock request onLines written

omit shown in
theorem standing_closeElse (continues moved : Bool) :
    Brings (Standing (limit + moved.toNat) framed rows) (closeElse continues moved)
      fun _ => Standing limit framed rows := by
  refine .standing fun frames _ => ?_
  rw [← Bounds.inside_plain]
  exact poised_closeElse continues moved

theorem standing_openFor {afterKeyword afterOpen : Trivia} (keywordFormed : SlotFormed drawn afterKeyword)
    (openFormed : SlotFormed drawn afterOpen) (le : depth ≤ limit)
    (fit : slotWithin framed (depth + 1) afterOpen = true) :
    Brings (Aligned limit framed rows) (openFor afterKeyword afterOpen) fun moved page =>
      moved = afterOpen.any Token.isNewline ∧ page.Standing (limit + moved.toNat) framed 2 := by
  rintro page ⟨frames, unframed, within⟩
  obtain ⟨isMoved, poised⟩ :=
    poised_openFor shown keywordFormed openFormed unframed (Bounds.passes_plain le fit) page within
  rw [Bounds.inside_plain] at poised
  exact ⟨isMoved, frames, unframed, poised⟩

theorem standing_forHeader {afterOpen afterStart : Trivia} {condition : Option Expr} {afterCondition : Trivia}
    {increment : Option Expr} {afterIncrement afterClose : Trivia}
    (startFormed : SlotFormed drawn afterStart) (conditionFormed : OptionFormed drawn condition)
    (afterConditionFormed : SlotFormed drawn afterCondition) (incrementFormed : OptionFormed drawn increment)
    (afterIncrementFormed : SlotFormed drawn afterIncrement) (closeFormed : SlotFormed drawn afterClose)
    (le : depth ≤ limit)
    (fit : Stmt.headerBalanced framed depth afterOpen condition afterCondition increment afterIncrement = true) :
    Brings (Standing (limit + (afterOpen.any Token.isNewline).toNat) framed rows)
      (forHeader afterStart condition afterCondition increment afterIncrement
        (afterOpen.any Token.isNewline) afterClose)
      fun _ => Standing limit framed 2 := by
  refine .standing fun frames unframed => ?_
  rw [← Bounds.inside_plain]
  exact poised_forHeader shown startFormed conditionFormed afterConditionFormed incrementFormed
    afterIncrementFormed closeFormed unframed le fit

theorem aligned_jump {word : String} (visible : Fragment.ofText word = .text word) {value : Option Expr}
    (formed : OptionFormed drawn value) (le : depth ≤ limit)
    (fit : Expr.optionBalanced framed depth value = true) (written : Bool) :
    Brings (Aligned limit framed rows) (jump word value written) fun _ => Aligned limit framed 1 :=
  Brings.behind (Brings.opening fun _ unframed => poised_jump shown visible formed unframed rfl
    (Bounds.passes_plain le fit) written) fun _ _ => Standing.aligned

theorem aligned_openBranch {label : Option Expr} {afterKeyword afterColon : Trivia}
    (labelFormed : OptionFormed drawn label) (keywordFormed : SlotFormed drawn afterKeyword)
    (colonFormed : SlotFormed drawn afterColon) (le : depth ≤ limit)
    (fit : Expr.optionBalanced framed depth label = true) :
    Brings (Aligned limit framed rows) (openBranch label afterKeyword afterColon)
      fun saved page => (0 ≤ saved ∧ saved ≤ limit) ∧ page.Aligned (limit + 1) framed 2 := by
  rintro page ⟨frames, unframed, within⟩
  obtain ⟨bounded, poised⟩ :=
    poised_openBranch shown labelFormed keywordFormed colonFormed unframed le fit page within
  exact ⟨bounded, frames, unframed, poised.2⟩

end

theorem aligned_closeBranch {limit rows : Nat} {framed : Bool} {saved : Int} (nonneg : 0 ≤ saved)
    (le : saved ≤ limit) :
    Brings (fun page => (page.Begun ∧ page.Settled) ∧ page.Aligned (limit + 1) framed rows) (closeBranch saved)
      fun _ page => (page.Begun ∧ page.Broken) ∧ page.Aligned limit framed 2 := by
  rintro page ⟨settled, frames, unframed, within⟩
  obtain ⟨tidy, broken, _⟩ := loose_closeBranch saved page within.tidy settled
  refine ⟨broken, frames, unframed, tidy, nonneg, ?_, within.requests, within.frames,
    tidy.neat.breaks_le_two⟩
  exact Bounds.admits_calm.mpr le

section

variable (drawn : Token → Prop)

/-- Behind the statement the indentation is back where it was in front of it, if it has been checked for no
more than is allowed there. -/
def Returns (statement : Stmt) : Prop :=
  statement.Formed drawn → ∀ {framed : Bool} {depth limit : Nat}, statement.balanced framed depth = true →
    depth ≤ limit → Brings (Aligned limit framed 2) (stmt statement)
      fun _ => Aligned limit (framed || statement.leavesFrames) statement.rowsBehind

def ReturnsAll (statements : List Stmt) : Prop :=
  Stmt.ListFormed drawn statements → ∀ {framed : Bool} {depth limit : Nat},
    Stmt.listBalanced framed depth statements = true → depth ≤ limit →
    Brings (Aligned limit framed 2) (stmts statements)
      fun _ => Aligned limit (framed || Stmt.listLeavesFrames statements) 2

def ReturnsBlock (statements : List Stmt) : Prop :=
  Stmt.ListFormed drawn statements → ∀ {onLines framed : Bool} {depth limit : Nat},
    Stmt.listBalanced framed depth statements = true → depth ≤ limit →
    Brings (Standing limit framed 2) (blockStmts onLines statements)
      fun _ => Standing limit (framed || Stmt.listLeavesFrames statements) 2

def ReturnsCases (cases : List (Case Stmt)) : Prop :=
  Stmt.CasesFormed drawn cases → ∀ {framed : Bool} {depth limit : Nat},
    Stmt.casesBalanced framed depth cases = true → depth ≤ limit →
    Brings (fun page => (page.Begun ∧ page.Broken) ∧ page.Aligned (limit + 1) framed 2) (branches cases)
      fun _ page => (page.Begun ∧ page.Broken) ∧
        page.Aligned (limit + 1) (framed || Stmt.casesLeaveFrames cases) 2

end

attribute [simp] Stmt.balanced Stmt.listBalanced Stmt.casesBalanced

attribute [simp] Stmt.leavesFrames Stmt.listLeavesFrames Stmt.casesLeaveFrames

variable {drawn : Token → Prop}

namespace Returns

variable (shown : ∀ token, drawn token → token.kind ≠ .newline → token.Shown)

include shown

theorem declaration {keyword : Token} {afterKeyword : Trivia} {written : Bool} :
    Returns drawn (.declaration keyword afterKeyword declared written) := by
  intro formed framed depth limit fit le
  obtain ⟨keywordFormed, afterFormed, declaredFormed⟩ := formed
  simp only [Stmt.balanced, List.all_eq_true] at fit
  rw [stmt]
  refine Brings.ended (Nat.le_max_left 1 _) (Nat.le_refl _) ?_
  rintro page ⟨frames, unframed, within⟩
  obtain ⟨later, same, poised⟩ :=
    poised_declaration shown keywordFormed afterFormed declaredFormed written le fit page within
  refine ⟨later, fun none => ?_, poised.2⟩
  rw [Stmt.leavesFrames, Bool.or_eq_false_iff] at none
  exact (same none.2).trans (unframed none.1)

theorem enumeration {name : Expr} {afterKeyword afterOpen : Trivia} {written : Bool} :
    Returns drawn (.enumeration afterKeyword name afterOpen members written) := by
  intro formed framed depth limit fit le
  obtain ⟨keywordFormed, nameFormed, openFormed, membersFormed⟩ := formed
  simp only [Stmt.balanced, Bool.and_eq_true] at fit
  simp only [stmt, Stmt.leavesFrames, Bool.or_false]
  refine Brings.ended (Nat.le_refl 1) (Nat.zero_le 1) ?_
  refine Brings.bind (Brings.opening fun frames unframed => poised_enumerationMembers shown keywordFormed
    nameFormed openFormed membersFormed unframed (Bounds.passes_plain le fit.1)
    (Bounds.passes_plain le fit.2)) fun _ => ?_
  have closed : Brings (Standing (limit + 1) framed 2) (closeEnumeration written)
      fun _ => Standing limit framed 0 :=
    .standing fun frames _ => @poised_closeEnumeration (.plain limit frames) 2 written
  exact closed.behind fun _ _ => Standing.aligned

theorem expression {value : Expr} {written : Bool} : Returns drawn (.expression value written) := by
  intro formed framed depth limit fit le
  simp only [stmt, Stmt.leavesFrames, Bool.or_false]
  refine Brings.endedBy (Bool.or_false written) ?_
  rintro page ⟨frames, unframed, within⟩
  have laid := contained shown _ formed unframed (Bounds.passes_plain le fit) 2 page within
  exact ⟨frames, unframed, within_semicolonIf written _ laid⟩

theorem block {body : List Stmt} {afterOpen : Trivia} {written : Bool}
    (bodyReturns : ReturnsBlock drawn body) : Returns drawn (.block afterOpen body written) := by
  intro formed framed depth limit fit le
  rw [stmt, Stmt.leavesFrames]
  refine Brings.ended (Nat.le_refl 1) (Nat.le_refl 1) ?_
  refine (standing_openBlock shown formed.1 body le).bind fun opened => .assuming fun deep => ?_
  refine (bodyReturns formed.2 fit deep).bind fun _ => ?_
  exact (standing_closeBlock _ _ written).behind fun _ _ => Standing.aligned

theorem conditionalAlone {test : Expr} {whenTrue : Stmt} {afterKeyword between afterElse : Trivia}
    {written : Bool} (trueReturns : Returns drawn whenTrue) :
    Returns drawn (.conditional afterKeyword test whenTrue between afterElse none written) := by
  intro formed framed depth limit fit le
  obtain ⟨keywordFormed, testFormed, trueFormed, betweenFormed, _⟩ := formed
  simp only [Stmt.balanced, Bool.and_eq_true] at fit
  obtain ⟨⟨conditionFit, trueFit⟩, betweenFit⟩ := fit
  rw [stmt, Stmt.leavesFrames]
  refine Brings.endedBy (Bool.or_false written) ?_
  refine (standing_openConditional shown keywordFormed testFormed le conditionFit).bind fun indented => ?_
  refine .whichever fun deeper steps => ?_
  refine (standing_stmt shown trueFormed
    (trueReturns trueFormed trueFit (Nat.le_add_right_of_le le))).bind fun _ => ?_
  refine (standing_betweenBranches shown betweenFormed le betweenFit steps).bind fun _ => ?_
  exact standing_semicolonIf written

theorem conditional {test : Expr} {whenTrue whenFalse : Stmt} {afterKeyword between afterElse : Trivia}
    {written : Bool} (trueReturns : Returns drawn whenTrue) (falseReturns : Returns drawn whenFalse) :
    Returns drawn (.conditional afterKeyword test whenTrue between afterElse (some whenFalse) written) := by
  intro formed framed depth limit fit le
  obtain ⟨keywordFormed, testFormed, trueFormed, betweenFormed, elseFormed, falseFormed⟩ := formed
  simp only [Stmt.balanced, Bool.and_eq_true] at fit
  obtain ⟨⟨⟨⟨conditionFit, trueFit⟩, betweenFit⟩, elseFit⟩, falseFit⟩ := fit
  rw [stmt, Stmt.leavesFrames, ← Bool.or_assoc]
  refine Brings.endedBy (Bool.or_false written) ?_
  refine (standing_openConditional shown keywordFormed testFormed le conditionFit).bind fun indented => ?_
  refine .whichever fun deeper steps => ?_
  refine (standing_stmt shown trueFormed
    (trueReturns trueFormed trueFit (Nat.le_add_right_of_le le))).bind fun _ => ?_
  refine (standing_openElse shown betweenFormed elseFormed le betweenFit steps elseFit).bind fun moved =>
    .assuming fun isMoved => ?_
  refine (standing_stmt shown falseFormed
    (falseReturns falseFormed falseFit (Stmt.elseDepth_le le isMoved))).bind fun _ => ?_
  exact (standing_closeElse _ moved).bind fun _ => standing_semicolonIf written

theorem loop {keyword : Token} {test : Expr} {body : Stmt} {afterKeyword : Trivia} {written : Bool}
    (bodyReturns : Returns drawn body) : Returns drawn (.loop keyword afterKeyword test body written) := by
  intro formed framed depth limit fit le
  obtain ⟨keywordFormed, afterFormed, testFormed, bodyFormed⟩ := formed
  simp only [Stmt.balanced, Bool.and_eq_true] at fit
  rw [stmt, Stmt.leavesFrames]
  refine Brings.endedBy (Bool.or_false written) ?_
  refine Brings.bind (Brings.opening fun frames unframed => poised_openLoop shown keywordFormed afterFormed
    testFormed unframed (Bounds.passes_plain le fit.1)) fun _ => ?_
  refine (standing_stmt shown bodyFormed (bodyReturns bodyFormed fit.2 le)).bind fun _ => ?_
  exact standing_semicolonIf written

theorem doUntil {test : Expr} {body : Stmt} {afterKeyword between : Trivia} {written : Bool}
    (bodyReturns : Returns drawn body) :
    Returns drawn (.doUntil afterKeyword body between test written) := by
  intro formed framed depth limit fit le
  obtain ⟨keywordFormed, bodyFormed, betweenFormed, testFormed⟩ := formed
  simp only [Stmt.balanced, Bool.and_eq_true] at fit
  rw [stmt, Stmt.leavesFrames]
  refine Brings.ended (Nat.le_refl 1) (Nat.le_refl 1) ?_
  refine Brings.bind (Brings.opening fun frames _ => poised_openDo shown keywordFormed) fun _ => ?_
  refine (standing_stmt shown bodyFormed (bodyReturns bodyFormed fit.1 le)).bind fun _ => ?_
  refine Brings.behind (Brings.standing fun frames unframed => poised_closeDo shown betweenFormed testFormed
    unframed (Bounds.passes_plain le fit.2) written) fun _ _ => Standing.aligned

theorem forLoopBare {body : Stmt} {test increment : Option Expr}
    {afterKeyword afterOpen afterStart afterCondition afterIncrement afterClose : Trivia} {written : Bool}
    (bodyReturns : Returns drawn body) :
    Returns drawn (.forLoop afterKeyword afterOpen none afterStart test afterCondition increment
      afterIncrement afterClose body written) := by
  intro formed framed depth limit fit le
  obtain ⟨keywordFormed, openFormed, startFormed, testFormed, conditionFormed, incrementFormed,
    afterIncrementFormed, closeFormed, bodyFormed⟩ := formed
  simp only [Stmt.balanced, Bool.and_eq_true] at fit
  obtain ⟨⟨openFit, headerFit⟩, bodyFit⟩ := fit
  rw [stmt, Stmt.leavesFrames]
  refine Brings.endedBy (Bool.or_false written) ?_
  refine (standing_openFor shown keywordFormed openFormed le openFit).bind fun moved => .assuming ?_
  rintro rfl
  refine Brings.bind (Brings.standing fun frames _ => poised_write rfl true) fun _ => ?_
  refine (standing_forHeader shown startFormed testFormed conditionFormed incrementFormed
    afterIncrementFormed closeFormed le headerFit).bind fun _ => ?_
  refine (standing_stmt shown bodyFormed (bodyReturns bodyFormed bodyFit le)).bind fun _ => ?_
  exact standing_semicolonIf written

theorem forLoop {start body : Stmt} {test increment : Option Expr}
    {afterKeyword afterOpen afterStart afterCondition afterIncrement afterClose : Trivia} {written : Bool}
    (firstReturns : Returns drawn start) (bodyReturns : Returns drawn body) :
    Returns drawn (.forLoop afterKeyword afterOpen (some start) afterStart test afterCondition
      increment afterIncrement afterClose body written) := by
  intro formed framed depth limit fit le
  obtain ⟨keywordFormed, openFormed, firstFormed, startFormed, testFormed, conditionFormed,
    incrementFormed, afterIncrementFormed, closeFormed, bodyFormed⟩ := formed
  simp only [Stmt.balanced, Bool.and_eq_true] at fit
  obtain ⟨⟨⟨openFit, firstFit⟩, headerFit⟩, bodyFit⟩ := fit
  rw [stmt, Stmt.leavesFrames, ← Bool.or_assoc]
  refine Brings.endedBy (Bool.or_false written) ?_
  refine (standing_openFor shown keywordFormed openFormed le openFit).bind fun moved => .assuming ?_
  rintro rfl
  refine (standing_stmt shown firstFormed
    (firstReturns firstFormed firstFit (depthBehind_le le))).bind fun _ => ?_
  refine Brings.bind (Brings.standing fun frames _ => poised_ensureSpace) fun _ => ?_
  refine (standing_forHeader shown startFormed testFormed conditionFormed incrementFormed
    afterIncrementFormed closeFormed le headerFit).bind fun _ => ?_
  refine (standing_stmt shown bodyFormed (bodyReturns bodyFormed bodyFit le)).bind fun _ => ?_
  exact standing_semicolonIf written

theorem switch {subject : Expr} {cases : List (Case Stmt)} {afterKeyword afterOpen : Trivia}
    {written : Bool} (casesReturns : ReturnsCases drawn cases) :
    Returns drawn (.switch afterKeyword subject afterOpen cases written) := by
  intro formed framed depth limit fit le
  obtain ⟨keywordFormed, subjectFormed, openFormed, casesFormed⟩ := formed
  simp only [Stmt.balanced, Bool.and_eq_true] at fit
  rw [stmt, Stmt.leavesFrames]
  refine Brings.ended (Nat.le_refl 1) (Nat.zero_le 1) ?_
  have opened : Brings (Aligned limit framed 2) (openSwitch afterKeyword subject afterOpen)
      fun _ => Standing (limit + 1) framed 2 := .opening fun frames unframed =>
    poised_openSwitch shown keywordFormed subjectFormed openFormed unframed (Bounds.passes_plain le fit.1)
  have below := Brings.loosely (steady_openSwitch shown keywordFormed subjectFormed openFormed).loose
    (fun _ => Aligned.tidy) opened
  have closed : Brings (Standing (limit + 1) (framed || Stmt.casesLeaveFrames cases) 2) (closeSwitch written)
      fun _ => Standing limit (framed || Stmt.casesLeaveFrames cases) 0 :=
    .standing fun frames _ => @poised_closeSwitch (.plain limit frames) 2 written
  refine Brings.bind (below.before fun _ aligned => ⟨trivial, aligned⟩) fun _ => ?_
  refine Brings.bind ((casesReturns casesFormed fit.2 le).before fun _ => .imp_right Standing.aligned)
    fun _ => ?_
  exact (closed.before fun _ ends => ends.2.standing ends.1.1).behind fun _ _ => Standing.aligned

theorem returning {value : Option Expr} {written : Bool} : Returns drawn (.returning value written) := by
  intro formed framed depth limit fit le
  simp only [stmt, Stmt.leavesFrames, Bool.or_false]
  refine Brings.ended (Nat.le_refl 1) (Nat.le_refl 1) ?_
  exact aligned_jump shown rfl formed le fit written

theorem breaking {written : Bool} : Returns drawn (.breaking written) := by
  intro formed framed depth limit fit le
  simp only [stmt, Stmt.leavesFrames, Bool.or_false]
  refine Brings.ended (Nat.le_refl 1) (Nat.le_refl 1) ?_
  exact @aligned_jump _ shown _ _ _ _ _ rfl none trivial le rfl written

theorem exiting {written : Bool} : Returns drawn (.exiting written) := by
  intro formed framed depth limit fit le
  simp only [stmt, Stmt.leavesFrames, Bool.or_false]
  refine Brings.ended (Nat.le_refl 1) (Nat.le_refl 1) ?_
  exact @aligned_jump _ shown _ _ _ _ _ rfl none trivial le rfl written

theorem remark {token : Token} {form : RemarkForm} : Returns drawn (.remark form token) := by
  intro formed framed depth limit fit le
  simp only [stmt, Stmt.leavesFrames, Bool.or_false]
  refine Brings.ended (Nat.le_refl 1) (Nat.le_refl 1) ?_
  exact Brings.behind (Brings.opening fun frames _ => poised_remark shown form formed)
    fun _ _ => Standing.aligned

theorem define {name : Expr} {body : List Stmt} {afterKeyword : Trivia}
    (bodyReturns : ReturnsAll drawn body) : Returns drawn (.define afterKeyword name body) := by
  intro formed framed depth limit fit le
  obtain ⟨keywordFormed, nameFormed, bodyFormed⟩ := formed
  simp only [Stmt.balanced, Bool.and_eq_true] at fit
  rw [stmt, Stmt.leavesFrames]
  refine Brings.ended (Nat.le_succ 1) (Nat.le_refl 2) ?_
  refine Brings.bind (Brings.opening fun frames unframed => poised_openDefine shown keywordFormed nameFormed
    unframed (Bounds.passes_plain le fit.1)) fun _ => ?_
  exact (bodyReturns bodyFormed fit.2 le).before fun _ => Standing.aligned

omit shown in
theorem nil : ReturnsAll drawn [] := by
  intro _ framed depth limit fit le
  rw [Stmt.listLeavesFrames, Bool.or_false]
  exact .pure fun _ => id

omit shown in
theorem cons {first : Stmt} {others : List Stmt} (here : Returns drawn first) (later : ReturnsAll drawn others) :
    ReturnsAll drawn (first :: others) := by
  intro formed framed depth limit fit le
  rw [Stmt.listBalanced, Bool.and_eq_true] at fit
  rw [stmts, Stmt.listLeavesFrames, ← Bool.or_assoc]
  refine (here formed.1 fit.1 le).bind fun _ => ?_
  exact (later formed.2 fit.2 le).before fun _ => Aligned.forget

omit shown in
theorem blockNil : ReturnsBlock drawn [] := by
  intro _ onLines framed depth limit fit le
  rw [Stmt.listLeavesFrames, Bool.or_false]
  exact .pure fun _ => id

theorem blockCons {first : Stmt} {others : List Stmt} (here : Returns drawn first)
    (later : ReturnsBlock drawn others) : ReturnsBlock drawn (first :: others) := by
  intro formed onLines framed depth limit fit le
  rw [Stmt.listBalanced, Bool.and_eq_true] at fit
  rw [blockStmts, Stmt.listLeavesFrames, ← Bool.or_assoc]
  refine (standing_stmt shown formed.1 (here formed.1 fit.1 le)).bind fun _ => ?_
  refine Brings.bind (.standing fun _ _ => poised_closeBlockStatement onLines _) fun _ => ?_
  exact later formed.2 fit.2 le

omit shown in
theorem casesNil : ReturnsCases drawn [] := by
  intro _ framed depth limit fit le
  rw [Stmt.casesLeaveFrames, Bool.or_false]
  exact .pure fun _ => id

theorem casesCons {label : Option Expr} {body : List Stmt} {others : List (Case Stmt)}
    {afterKeyword afterColon : Trivia} (here : ReturnsAll drawn body) (later : ReturnsCases drawn others) :
    ReturnsCases drawn (⟨label, afterKeyword, afterColon, body⟩ :: others) := by
  intro formed framed depth limit fit le
  obtain ⟨labelFormed, keywordFormed, colonFormed, bodyFormed, othersFormed⟩ := formed
  simp only [Stmt.casesBalanced, Bool.and_eq_true] at fit
  obtain ⟨⟨labelFit, bodyFit⟩, othersFit⟩ := fit
  rw [branches, Stmt.casesLeaveFrames, ← Bool.or_assoc]
  refine Brings.bind (Brings.loosely (steady_openBranch shown labelFormed keywordFormed colonFormed).loose
    (fun _ => Aligned.tidy) (aligned_openBranch shown labelFormed keywordFormed colonFormed
      (Nat.succ_le_succ le) labelFit)) fun saved => ?_
  rintro page ⟨settled, ⟨nonneg, low⟩, aligned⟩
  have behind := (Brings.loosely (quiet_stmts shown bodyFormed).inner.settled.loose (fun _ => Aligned.tidy)
    (here bodyFormed bodyFit (Nat.add_le_add_right le 2))).bind fun _ =>
      (aligned_closeBranch nonneg low).bind fun _ => later othersFormed othersFit le
  exact behind page ⟨settled, aligned⟩

end Returns

mutual

theorem returns (shown : ∀ token, drawn token → token.kind ≠ .newline → token.Shown) :
    (statement : Stmt) → Returns drawn statement
  | .declaration .. => .declaration shown
  | .enumeration .. => .enumeration shown
  | .expression .. => .expression shown
  | .block _ body _ => .block shown (returnsBlock shown body)
  | .conditional _ _ whenTrue _ _ none _ => .conditionalAlone shown (returns shown whenTrue)
  | .conditional _ _ whenTrue _ _ (some whenFalse) _ =>
    .conditional shown (returns shown whenTrue) (returns shown whenFalse)
  | .loop _ _ _ body _ => .loop shown (returns shown body)
  | .doUntil _ body _ _ _ => .doUntil shown (returns shown body)
  | .forLoop _ _ none _ _ _ _ _ _ body _ => .forLoopBare shown (returns shown body)
  | .forLoop _ _ (some start) _ _ _ _ _ _ body _ =>
    .forLoop shown (returns shown start) (returns shown body)
  | .switch _ _ _ cases _ => .switch shown (returnsCases shown cases)
  | .returning .. => .returning shown
  | .breaking _ => .breaking shown
  | .exiting _ => .exiting shown
  | .remark .. => .remark shown
  | .define _ _ body => .define shown (returnsAll shown body)

theorem returnsAll (shown : ∀ token, drawn token → token.kind ≠ .newline → token.Shown) :
    (statements : List Stmt) → ReturnsAll drawn statements
  | [] => Returns.nil
  | first :: others => Returns.cons (returns shown first) (returnsAll shown others)

theorem returnsBlock (shown : ∀ token, drawn token → token.kind ≠ .newline → token.Shown) :
    (statements : List Stmt) → ReturnsBlock drawn statements
  | [] => Returns.blockNil
  | first :: others => Returns.blockCons shown (returns shown first) (returnsBlock shown others)

theorem returnsCases (shown : ∀ token, drawn token → token.kind ≠ .newline → token.Shown) :
    (cases : List (Case Stmt)) → ReturnsCases drawn cases
  | [] => Returns.casesNil
  | ⟨_, _, _, body⟩ :: others => Returns.casesCons shown (returnsAll shown body) (returnsCases shown others)

end

end Print

open Print

theorem Stmt.listBalanced_front {front back : List Stmt} {framed : Bool} {depth : Nat}
    (balanced : listBalanced framed depth (front ++ back) = true) : listBalanced framed depth front = true := by
  induction front generalizing framed with
  | nil => rfl
  | cons first others ih =>
    rw [List.cons_append, listBalanced, Bool.and_eq_true] at balanced
    rw [listBalanced, Bool.and_eq_true]
    exact ⟨balanced.1, ih balanced.2⟩

theorem Page.aligned_blank : (Page.blank { useSpaces := false }).Aligned 0 false 2 :=
  ⟨[], fun _ => rfl, tidy_blank, Int.le_refl 0, Bounds.admits_calm.mpr (Int.le_refl 0), Nat.le_refl 0, rfl,
    Nat.zero_le 2⟩

/-- However a page is set up, the layout of a balanced program is at the margin again behind each of its
top-level statements. -/
theorem indentation_balanced {source : String} {program : List Stmt} (parsed : parse source = .ok program)
    (balanced : Stmt.listBalanced false 0 program = true) (settings : Settings) (front back : List Stmt)
    (split : program = front ++ back) : (after (stmts front) (Page.blank settings)).indentation = 0 := by
  have formed : Stmt.ListFormed (· ∈ scan source) front := by
    have all := (Stmt.listFormed_iff _ _).mp (parse_formed parsed)
    refine (Stmt.listFormed_iff _ _).mpr fun statement member => all statement ?_
    rw [split]
    exact List.mem_append_left back member
  have fits : Stmt.listBalanced false 0 front = true := by
    rw [split] at balanced
    exact Stmt.listBalanced_front balanced
  obtain ⟨frames, _, within⟩ :=
    returnsAll shown_of_mem_scan front formed fits (Nat.le_refl 0) _ Page.aligned_blank
  have same : after (stmts front) (Page.blank settings) =
      (after (stmts front) (Page.blank { useSpaces := false })).under settings :=
    ((quiet_stmts shown_of_mem_scan formed).loose.passes tidy_blank trivial settings).2.2.2
  rw [same]
  exact Int.le_antisymm within.indentation_le within.nonneg

/-- An indented branch and a list of variables that goes on to a new line both bring the indentation back. -/
theorem indentation_balanced_branch : ∃ program,
    parse "if (a)\n    f()\nvar b = [\n    1,\n    2\n],\n    c = 3" = .ok program ∧
      ∀ (settings : Settings) (front back : List Stmt), program = front ++ back →
        (after (stmts front) (Page.blank settings)).indentation = 0 := by
  have balances : ∃ program, parse "if (a)\n    f()\nvar b = [\n    1,\n    2\n],\n    c = 3" = .ok program ∧
      Stmt.listBalanced false 0 program = true :=
    exists_ok (by decide +kernel)
  obtain ⟨program, parsed, balanced⟩ := balances
  exact ⟨program, parsed, indentation_balanced parsed balanced⟩

/-- A blank line behind an indented branch keeps the step back from being taken, and all that follows stays
indented. -/
theorem indentation_left_over : ∃ program, parse "if (a)\n    f()\n\ng()" = .ok program ∧
    (Stmt.listBalanced false 0 program = false ∧
      (after (stmts (program.take 1)) (Page.blank {})).indentation = 1 ∧
      (layOut {} program).output = "if (a)\n    f();\n    \n    g();\n") :=
  exists_ok (by decide +kernel)

end GmlLayout
