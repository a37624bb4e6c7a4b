import GmlLayout.Proofs.Layout.Moments

/-!
What is torn out of a page while statements are laid out on it. Everything a statement writes stays on
the page in its order, but for the last lines that stand in the place of an enumeration's closing brace
or at the end of a `switch` branch.
-/

namespace GmlLayout

open Print

/-- From one page to a later one, the `ink` was added in its order, but for what was torn out on the way. -/
structure Laid (keep : String → Bool) (before after : Page) (ink : List String) (way : List Moment) : Prop where
  order : (after.kept keep).Sublist (before.kept keep ++ ink)
  whole : (after.kept keep ++ (way.flatMap Moment.torn).filter keep).Perm (before.kept keep ++ ink)

namespace Laid

variable {keep : String → Bool} {before middle later : Page} {first second ink : List String}
  {way further : List Moment}

theorem of_kept (same : later.kept keep = before.kept keep ++ ink) : Laid keep before later ink [] := by
  refine ⟨?_, ?_⟩
  · exact same ▸ List.Sublist.refl _
  · rw [same, List.flatMap_nil, List.filter_nil, List.append_nil]

theorem of_torn (split : later.kept keep ++ middle.buffer.lineInk.filter keep = before.kept keep) :
    Laid keep before later [] [.tearing middle] := by
  refine ⟨?_, ?_⟩
  · rw [List.append_nil, ← split]
    exact List.sublist_append_left _ _
  · rw [List.append_nil, ← split]
    simp [Moment.torn]

theorem trans (front : Laid keep before middle first way) (back : Laid keep middle later second further) :
    Laid keep before later (first ++ second) (way ++ further) := by
  refine ⟨?_, ?_⟩
  · rw [← List.append_assoc]
    exact back.order.trans (front.order.append_right second)
  · rw [List.flatMap_append, List.filter_append]
    calc later.kept keep ++ ((way.flatMap Moment.torn).filter keep ++ (further.flatMap Moment.torn).filter keep)
      List.Perm _ (later.kept keep ++ (further.flatMap Moment.torn).filter keep
          ++ (way.flatMap Moment.torn).filter keep) := by
        rw [List.append_assoc]
        exact List.perm_append_comm.append_left _
      List.Perm _ (middle.kept keep ++ second ++ (way.flatMap Moment.torn).filter keep) :=
        back.whole.append_right _
      List.Perm _ (middle.kept keep ++ (way.flatMap Moment.torn).filter keep ++ second) := by
        rw [List.append_assoc, List.append_assoc]
        exact List.perm_append_comm.append_left _
      List.Perm _ (before.kept keep ++ first ++ second) := front.whole.append_right _
      _ = before.kept keep ++ (first ++ second) := List.append_assoc ..

theorem then_same (front : Laid keep before middle ink way) (same : later.kept keep = middle.kept keep) :
    Laid keep before later ink way :=
  ⟨same ▸ front.order, same ▸ front.whole⟩

theorem then_kept (front : Laid keep before middle first way)
    (same : later.kept keep = middle.kept keep ++ second) :
    Laid keep before later (first ++ second) way := by
  simpa using front.trans (of_kept same)

theorem after_kept (same : middle.kept keep = before.kept keep ++ first)
    (back : Laid keep middle later second way) : Laid keep before later (first ++ second) way := by
  simpa using (of_kept same).trans back

end Laid

variable {keep : String → Bool}

theorem Laid.ended (unkept : keep ";" = false) {closed : Bool} {written : Print Unit} {page last : Page}
    {ink : List String} {way : List Moment} (laid : Laid keep page (after written page) ink way) :
    Laid keep page (after (Print.ended closed written) page) ink (way ++ [.ended last]) := by
  have same : (way ++ [Moment.ended last]).flatMap Moment.torn = way.flatMap Moment.torn := by
    simp [Moment.torn]
  obtain ⟨order, whole⟩ := laid.then_same (kept_terminate unkept (after written page) closed)
  exact ⟨order, same ▸ whole⟩

theorem keptInk_forLoop (afterKeyword afterOpen : Trivia) (start : Option Stmt) (afterStart : Trivia)
    (condition : Option Expr) (afterCondition : Trivia) (increment : Option Expr)
    (afterIncrement afterClose : Trivia) (body : Stmt) (written : Bool) :
    keptInk keep (Stmt.forLoop afterKeyword afterOpen start afterStart condition afterCondition increment
        afterIncrement afterClose body written).leaves =
      keptInk keep
          ([.word .forWord] ++ slotLeaves afterKeyword ++ [.mark .leftParen] ++ slotLeaves afterOpen)
        ++ (keptInk keep (Stmt.listLeaves start.toList)
          ++ (keptInk keep (headerLeaves afterStart condition afterCondition increment afterIncrement
              afterClose) ++ keptInk keep body.leaves)) := by
  cases start <;> simp [Stmt.leaves, Stmt.listLeaves, headerLeaves]

section

variable (keep)

/-- What the statement writes is on the page behind it, but for what has been torn out meanwhile. -/
def Stmt.Accounted (statement : Stmt) : Prop :=
  ∀ page, Laid keep page (after (stmt statement) page) (keptInk keep statement.leaves) (statement.moments page)

def Stmt.ListAccounted (statements : List Stmt) : Prop :=
  ∀ page, Laid keep page (after (stmts statements) page) (keptInk keep (listLeaves statements))
    (listMoments statements page)

def Stmt.BlockAccounted (statements : List Stmt) : Prop :=
  ∀ onLines page, Laid keep page (after (blockStmts onLines statements) page)
    (keptInk keep (listLeaves statements)) (blockMoments onLines statements page)

def Stmt.CasesAccounted (cases : List (Case Stmt)) : Prop :=
  ∀ page, Laid keep page (after (branches cases) page) (keptInk keep (caseLeaves cases))
    (branchMoments cases page)

end

attribute [simp] Stmt.leaves Stmt.listLeaves Stmt.caseLeaves

namespace Stmt.Accounted

variable (unkept : keep ";" = false)

include unkept

theorem declaration {keyword : Token} {declared : Series Variable} {afterKeyword : Trivia} {written : Bool}
    : Accounted keep (.declaration keyword afterKeyword declared written) := by
  intro page
  rw [Print.stmt, Stmt.moments]
  exact (Laid.of_kept (kept_declaration unkept page keyword afterKeyword declared written)).ended unkept

theorem enumeration {name : Expr} {members : Series Expr} {afterKeyword afterOpen : Trivia} {written : Bool}
    : Accounted keep (.enumeration afterKeyword name afterOpen members written) := by
  intro page
  rw [Print.stmt, Stmt.moments, Stmt.leaves, keptInk_append]
  apply Laid.ended unkept
  have dropped := Laid.of_torn (Page.kept_dropLine keep
    (after (enumerationMembers afterKeyword name afterOpen members) page))
  have front := dropped.after_kept (kept_enumerationMembers page afterKeyword name afterOpen members)
  rw [List.append_nil] at front
  exact front.then_kept (kept_closeEnumeration _ unkept written)

theorem expression {value : Expr} {written : Bool} : Accounted keep (.expression value written) := by
  intro page
  rw [Print.stmt, Stmt.moments, Stmt.leaves]
  apply Laid.ended unkept
  exact Laid.of_kept (by simp [kept_semicolonIf unkept, kept_expr])

theorem block {body : List Stmt} {afterOpen : Trivia} {written : Bool} (inside : BlockAccounted keep body) :
    Accounted keep (.block afterOpen body written) := by
  intro page
  rw [Print.stmt, Stmt.moments, Stmt.leaves, keptInk_append, keptInk_append]
  apply Laid.ended unkept
  have filled := (inside (given (openBlock afterOpen body) page).2 _).after_kept
    (kept_openBlock page afterOpen body)
  exact filled.then_kept (kept_closeBlock _ unkept _ _ written)

theorem conditionalAlone {test : Expr} {whenTrue : Stmt} {afterKeyword between afterElse : Trivia}
    {written : Bool} (first : Accounted keep whenTrue) :
    Accounted keep (.conditional afterKeyword test whenTrue between afterElse none written) := by
  intro page
  rw [Print.stmt, Stmt.moments, Stmt.leaves, List.append_nil, keptInk_append, keptInk_append]
  apply Laid.ended unkept
  have filled := (first _).after_kept
    (kept_openConditional page afterKeyword test whenTrue.isBlock)
  exact (filled.then_kept (kept_betweenBranches _ between _)).then_same
    (kept_semicolonIf unkept _ written)

theorem conditional {test : Expr} {whenTrue whenFalse : Stmt} {afterKeyword between afterElse : Trivia}
    {written : Bool} (first : Accounted keep whenTrue) (second : Accounted keep whenFalse) :
    Accounted keep (.conditional afterKeyword test whenTrue between afterElse (some whenFalse)
      written) := by
  intro page
  have leaves : (Stmt.conditional afterKeyword test whenTrue between afterElse (some whenFalse)
      written).leaves = ([.word .ifWord] ++ slotLeaves afterKeyword ++ test.leaves) ++ whenTrue.leaves
        ++ ((slotLeaves between ++ [.word .elseWord] ++ slotLeaves afterElse) ++ whenFalse.leaves) := by
    simp [Stmt.leaves]
  rw [Print.stmt, Stmt.moments, leaves, keptInk_append, keptInk_append, keptInk_append _ (_ ++ _ ++ _)]
  apply Laid.ended unkept
  have first := (first _).after_kept
    (kept_openConditional page afterKeyword test whenTrue.isBlock)
  have second := (second _).after_kept (kept_openElse (after (stmt whenTrue)
    (after (openConditional afterKeyword test whenTrue.isBlock) page)) between
      (given (openConditional afterKeyword test whenTrue.isBlock) page) afterElse
        (whenFalse.isBlock || whenFalse.isConditional))
  exact ((first.trans second).then_same (kept_closeElse _ _ _)).then_same
    (kept_semicolonIf unkept _ written)

theorem loop {keyword : Token} {test : Expr} {body : Stmt} {afterKeyword : Trivia} {written : Bool}
    (inside : Accounted keep body) : Accounted keep (.loop keyword afterKeyword test body written) := by
  intro page
  rw [Print.stmt, Stmt.moments, Stmt.leaves, keptInk_append]
  apply Laid.ended unkept
  have filled := (inside _).after_kept (kept_openLoop page keyword afterKeyword test)
  exact filled.then_same (kept_semicolonIf unkept _ written)

theorem doUntil {test : Expr} {body : Stmt} {afterKeyword between : Trivia} {written : Bool}
    (inside : Accounted keep body) : Accounted keep (.doUntil afterKeyword body between test written) := by
  intro page
  have leaves : (Stmt.doUntil afterKeyword body between test written).leaves =
      ([.word .doWord] ++ slotLeaves afterKeyword) ++ body.leaves
        ++ (slotLeaves between ++ [.word .untilWord] ++ test.leaves) := by
    simp [Stmt.leaves]
  rw [Print.stmt, Stmt.moments, leaves, keptInk_append, keptInk_append]
  apply Laid.ended unkept
  have filled := (inside _).after_kept (kept_openDo page afterKeyword)
  exact filled.then_kept (kept_closeDo _ unkept between test written)

theorem forLoopBare {body : Stmt} {test increment : Option Expr}
    {afterKeyword afterOpen afterStart afterCondition afterIncrement afterClose : Trivia} {written : Bool}
    (inside : Accounted keep body) :
    Accounted keep (.forLoop afterKeyword afterOpen none afterStart test afterCondition increment
      afterIncrement afterClose body written) := by
  intro page
  rw [Print.stmt, Stmt.moments, keptInk_forLoop, Option.toList_none, Stmt.listLeaves, keptInk_nil,
    List.nil_append]
  apply Laid.ended unkept
  have headed : (after (forHeader afterStart test afterCondition increment afterIncrement
      (given (openFor afterKeyword afterOpen) page) afterClose)
        (after (write ";" true) (after (openFor afterKeyword afterOpen) page))).kept keep =
      (after (openFor afterKeyword afterOpen) page).kept keep ++ keptInk keep
        (headerLeaves afterStart test afterCondition increment afterIncrement afterClose) := by
    rw [kept_forHeader _ unkept, kept_write, filter_textInk unkept, List.append_nil]
  have filled := ((inside _).after_kept headed).after_kept
    (kept_openFor page afterKeyword afterOpen)
  exact filled.then_same (kept_semicolonIf unkept _ written)

theorem forLoop {start body : Stmt} {test increment : Option Expr}
    {afterKeyword afterOpen afterStart afterCondition afterIncrement afterClose : Trivia} {written : Bool}
    (first : Accounted keep start) (inside : Accounted keep body) :
    Accounted keep (.forLoop afterKeyword afterOpen (some start) afterStart test afterCondition
      increment afterIncrement afterClose body written) := by
  intro page
  rw [Print.stmt, Stmt.moments, keptInk_forLoop, Option.toList_some, Stmt.listLeaves, Stmt.listLeaves,
    List.append_nil]
  apply Laid.ended unkept
  have headed : (after (forHeader afterStart test afterCondition increment afterIncrement
      (given (openFor afterKeyword afterOpen) page) afterClose)
        (after ensureSpace (after (stmt start) (after (openFor afterKeyword afterOpen) page)))).kept keep =
      (after (stmt start) (after (openFor afterKeyword afterOpen) page)).kept keep ++ keptInk keep
        (headerLeaves afterStart test afterCondition increment afterIncrement afterClose) := by
    rw [kept_forHeader _ unkept, kept_ensureSpace]
  have started := first (after (openFor afterKeyword afterOpen) page)
  have filled := (started.trans ((inside _).after_kept headed)).after_kept
    (kept_openFor page afterKeyword afterOpen)
  exact filled.then_same (kept_semicolonIf unkept _ written)

theorem switch {subject : Expr} {cases : List (Case Stmt)} {afterKeyword afterOpen : Trivia}
    {written : Bool} (inside : CasesAccounted keep cases) :
    Accounted keep (.switch afterKeyword subject afterOpen cases written) := by
  intro page
  rw [Print.stmt, Stmt.moments, Stmt.leaves, keptInk_append, keptInk_append]
  apply Laid.ended unkept
  have filled := (inside _).after_kept
    (kept_openSwitch page afterKeyword subject afterOpen)
  exact filled.then_kept (kept_closeSwitch _ unkept written)

theorem returning {value : Option Expr} {written : Bool} : Accounted keep (.returning value written) := by
  intro page
  rw [Print.stmt, Stmt.moments, Stmt.leaves]
  apply Laid.ended unkept
  exact Laid.of_kept (by simp [kept_jump _ unkept, Leaf.ink, Keyword.text])

theorem breaking {written : Bool} : Accounted keep (.breaking written) := by
  intro page
  rw [Print.stmt, Stmt.moments, Stmt.leaves]
  apply Laid.ended unkept
  exact Laid.of_kept (by simp [kept_jump _ unkept, optionLeaves, Leaf.ink, Keyword.text])

theorem exiting {written : Bool} : Accounted keep (.exiting written) := by
  intro page
  rw [Print.stmt, Stmt.moments, Stmt.leaves]
  apply Laid.ended unkept
  exact Laid.of_kept (by simp [kept_jump _ unkept, optionLeaves, Leaf.ink, Keyword.text])

theorem remark {token : Token} {form : RemarkForm} : Accounted keep (.remark form token) := by
  intro page
  rw [Print.stmt, Stmt.moments, Stmt.leaves]
  apply Laid.ended unkept
  exact Laid.of_kept (by simp [Leaf.ink])

theorem define {name : Expr} {body : List Stmt} {afterKeyword : Trivia} (inside : ListAccounted keep body) :
    Accounted keep (.define afterKeyword name body) := by
  intro page
  rw [Print.stmt, Stmt.moments, Stmt.leaves, keptInk_append]
  apply Laid.ended unkept
  exact (inside _).after_kept (kept_openDefine page afterKeyword name)

omit unkept in
theorem nil : ListAccounted keep [] := by
  intro page
  rw [Print.stmts, Stmt.listLeaves, Stmt.listMoments]
  exact Laid.of_kept (by simp)

omit unkept in
theorem cons {first : Stmt} {others : List Stmt} (here : Accounted keep first)
    (later : ListAccounted keep others) : ListAccounted keep (first :: others) := by
  intro page
  rw [Print.stmts, Stmt.listLeaves, Stmt.listMoments, keptInk_append]
  exact (here page).trans (later _)

omit unkept in
theorem blockNil : BlockAccounted keep [] := by
  intro onLines page
  rw [Print.blockStmts, Stmt.listLeaves, Stmt.blockMoments]
  exact Laid.of_kept (by simp)

omit unkept in
theorem blockCons {first : Stmt} {others : List Stmt} (here : Accounted keep first)
    (later : BlockAccounted keep others) : BlockAccounted keep (first :: others) := by
  intro onLines page
  rw [Print.blockStmts, Stmt.listLeaves, Stmt.blockMoments, keptInk_append]
  have closed := (here page).then_same (kept_closeBlockStatement _ onLines first.hasSemicolon)
  exact closed.trans (later onLines _)

omit unkept in
theorem casesNil : CasesAccounted keep [] := by
  intro page
  rw [Print.branches, Stmt.caseLeaves, Stmt.branchMoments]
  exact Laid.of_kept (by simp)

omit unkept in
theorem casesCons {label : Option Expr} {body : List Stmt} {others : List (Case Stmt)}
    {afterKeyword afterColon : Trivia} (here : ListAccounted keep body) (later : CasesAccounted keep others) :
    CasesAccounted keep (⟨label, afterKeyword, afterColon, body⟩ :: others) := by
  intro page
  rw [Print.branches, Stmt.caseLeaves, Stmt.branchMoments, keptInk_append, keptInk_append]
  have filled := (here _).after_kept (kept_openBranch page label afterKeyword afterColon)
  have closed := filled.trans (Laid.of_torn (kept_closeBranch _
    (given (openBranch label afterKeyword afterColon) page)))
  rw [List.append_nil] at closed
  exact closed.trans (later _)

end Stmt.Accounted

mutual

theorem Stmt.accounted (unkept : keep ";" = false) : (statement : Stmt) → statement.Accounted keep
  | .declaration .. => Accounted.declaration unkept
  | .enumeration .. => Accounted.enumeration unkept
  | .expression .. => Accounted.expression unkept
  | .block _ body _ => Accounted.block unkept (blockAccounted unkept body)
  | .conditional _ _ whenTrue _ _ none _ => Accounted.conditionalAlone unkept (accounted unkept whenTrue)
  | .conditional _ _ whenTrue _ _ (some whenFalse) _ =>
    Accounted.conditional unkept (accounted unkept whenTrue) (accounted unkept whenFalse)
  | .loop _ _ _ body _ => Accounted.loop unkept (accounted unkept body)
  | .doUntil _ body _ _ _ => Accounted.doUntil unkept (accounted unkept body)
  | .forLoop _ _ none _ _ _ _ _ _ body _ => Accounted.forLoopBare unkept (accounted unkept body)
  | .forLoop _ _ (some start) _ _ _ _ _ _ body _ =>
    Accounted.forLoop unkept (accounted unkept start) (accounted unkept body)
  | .switch _ _ _ cases _ => Accounted.switch unkept (casesAccounted unkept cases)
  | .returning .. => Accounted.returning unkept
  | .breaking _ => Accounted.breaking unkept
  | .exiting _ => Accounted.exiting unkept
  | .remark .. => Accounted.remark unkept
  | .define _ _ body => Accounted.define unkept (listAccounted unkept body)

theorem Stmt.listAccounted (unkept : keep ";" = false) : (statements : List Stmt) → ListAccounted keep statements
  | [] => Accounted.nil
  | first :: others => Accounted.cons (accounted unkept first) (listAccounted unkept others)

theorem Stmt.blockAccounted (unkept : keep ";" = false) : (statements : List Stmt) → BlockAccounted keep statements
  | [] => Accounted.blockNil
  | first :: others => Accounted.blockCons (accounted unkept first) (blockAccounted unkept others)

theorem Stmt.casesAccounted (unkept : keep ";" = false) : (cases : List (Case Stmt)) → CasesAccounted keep cases
  | [] => Accounted.casesNil
  | ⟨_, _, _, body⟩ :: others => Accounted.casesCons (listAccounted unkept body) (casesAccounted unkept others)

end

theorem layOut_laid (unkept : keep ";" = false) (settings : Settings) (program : List Stmt) :
    ((layOut settings program).kept keep).Sublist (keptInk keep (Stmt.listLeaves program)) ∧
      ((layOut settings program).kept keep ++ (tornTexts settings program).filter keep).Perm
        (keptInk keep (Stmt.listLeaves program)) := by
  have laid := Stmt.listAccounted unkept program (Page.blank settings)
  have finished : (layOut settings program).kept keep =
      (after (stmts program) (Page.blank settings)).kept keep := kept_finish _
  rw [finished]
  exact ⟨laid.order, laid.whole⟩

end GmlLayout
