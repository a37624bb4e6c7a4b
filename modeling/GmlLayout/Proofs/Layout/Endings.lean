import GmlLayout.Proofs.Layout.Intact
import GmlLayout.Proofs.Layout.Torn

/-!
How statements end: what stands last on the page, whether a semicolon of the statement is due there, and
whether a line break that follows counts. A semicolon that is due is put behind the code of the last line,
so that code must be open.
-/

namespace GmlLayout

/-! What stands last after a statement. -/

/-- Whether more may follow on the line, when `ink` was written where more might follow if `before` holds. -/
def tailOpen (before : Bool) (ink : List String) : Bool :=
  match ink.getLast? with
  | none => before
  | some text => !isLineBound text

theorem tailOpen_append (before : Bool) (first second : List String) :
    tailOpen before (first ++ second) = tailOpen (tailOpen before first) second := by
  unfold tailOpen
  rw [List.getLast?_append]
  cases second.getLast? with
  | none => rfl
  | some text => rfl

theorem tailOpen_of_endsOpen {keep : String → Bool} {leaves : List Leaf} (ends : endsOpen keep leaves = true)
    (before : Bool) : tailOpen before (keptInk keep leaves) = true := by
  unfold endsOpen at ends
  unfold tailOpen
  cases last : (keptInk keep leaves).getLast? with
  | none =>
    rw [last] at ends
    cases ends
  | some text =>
    rw [last] at ends
    exact ends

namespace Print

open Page

/-- The layout writes `ink` among the texts to keep, and nothing behind it that takes up its line. -/
def Ends {α : Type} (keep : String → Bool) (ink : List String) (action : Print α) : Prop :=
  ∀ page before, (before = true → page.EndsOpen keep) → tailOpen before ink = true →
    (after action page).EndsOpen keep

namespace Ends

variable {α β : Type} {keep : String → Bool} {first second : List String} {action : Print α}

theorem of_kept (same : ∀ page, (after action page).kept keep = page.kept keep ++ first) :
    Ends keep first action := by
  intro page before holds ends
  rw [EndsOpen, same, List.getLast?_append]
  unfold tailOpen at ends
  cases last : first.getLast? with
  | none =>
    rw [last] at ends
    exact holds ends
  | some text =>
    rw [last] at ends
    exact ends

theorem of_same (same : ∀ page, (after action page).kept keep = page.kept keep) : Ends keep [] action :=
  of_kept fun page => by rw [same, List.append_nil]

theorem bind {next : α → Print β} (front : Ends keep first action)
    (back : ∀ value, Ends keep second (next value)) : Ends keep (first ++ second) (action >>= next) := by
  intro page before holds ends
  rw [tailOpen_append] at ends
  exact back _ _ _ (front page before holds) ends

theorem then_same {next : α → Print β} (front : Ends keep first action)
    (same : ∀ value page, (after (next value) page).kept keep = page.kept keep) :
    Ends keep first (action >>= next) := by
  have whole := front.bind fun value => of_same (same value)
  rwa [List.append_nil] at whole

end Ends

section

variable {keep : String → Bool}

theorem Ends.ended {ink : List String} {written : Print Unit} (ends : Ends keep ink written)
    (unkept : keep ";" = false) (closed : Bool) : Ends keep ink (Print.ended closed written) :=
  ends.then_same fun _ page => kept_terminate unkept page closed

theorem Ends.semicolonIf {α : Type} {ink : List String} {action : Print α} (ends : Ends keep ink action)
    (unkept : keep ";" = false) (written : Bool) :
    Ends keep ink (action >>= fun _ => Print.semicolonIf written) :=
  ends.then_same fun _ page => kept_semicolonIf unkept page written

theorem ends_braced (brace : keep "\x7d" = true) (leaves : List Leaf) {action : Print Unit}
    (closes : ∀ page, ∃ before,
      (after action page).kept keep = before ++ keptInk keep [.mark .rightBrace]) :
    Ends keep (keptInk keep (leaves ++ [.mark .rightBrace])) action := by
  have ink : keptInk keep [.mark .rightBrace] = ["\x7d"] := by
    simp [Leaf.ink, textInk, Symbol.text, Fragment.ofText, Fragment.ink, brace]
  intro page before _ _
  obtain ⟨earlier, shape⟩ := closes page
  rw [EndsOpen, shape, ink, List.getLast?_concat]
  decide

mutual

theorem ends_stmt (unkept : keep ";" = false) (brace : keep "\x7d" = true) : ∀ statement : Stmt,
    Ends keep (keptInk keep statement.leaves) (stmt statement)
  | .declaration keyword afterKeyword declared written => by
    rw [stmt]
    refine Ends.ended (Ends.of_kept fun page => ?_) unkept _
    exact kept_declaration unkept page keyword afterKeyword declared written
  | .enumeration afterKeyword name afterOpen members written => by
    rw [stmt, Stmt.leaves]
    refine Ends.ended (ends_braced brace _ fun page => ?_) unkept _
    rw [after_bind]
    exact ⟨_, kept_closeEnumeration _ unkept written⟩
  | .expression value written => by
    rw [stmt, Stmt.leaves]
    exact ((Ends.of_kept (kept_expr keep value)).semicolonIf unkept written).ended unkept _
  | .block afterOpen body written => by
    rw [stmt, Stmt.leaves]
    refine Ends.ended (ends_braced brace _ fun page => ?_) unkept _
    rw [after_bind]
    exact ⟨_, kept_closeBlock (after (blockStmts _ body) _) unkept _ _ written⟩
  | .conditional afterKeyword test whenTrue between afterElse none written => by
    rw [stmt, Stmt.leaves, List.append_nil, keptInk_append, keptInk_append, List.append_assoc]
    refine Ends.ended ?_ unkept _
    refine (Ends.of_kept fun page => kept_openConditional page afterKeyword test _).bind fun indented => ?_
    refine (ends_stmt unkept brace whenTrue).bind fun _ => ?_
    exact (Ends.of_kept fun page => kept_betweenBranches page between indented).semicolonIf unkept written
  | .conditional afterKeyword test whenTrue between afterElse (some whenFalse) written => by
    have leaves : (Stmt.conditional afterKeyword test whenTrue between afterElse (some whenFalse)
        written).leaves = ([.word .ifWord] ++ slotLeaves afterKeyword ++ test.leaves) ++ (whenTrue.leaves
          ++ ((slotLeaves between ++ [.word .elseWord] ++ slotLeaves afterElse) ++ whenFalse.leaves)) := by
      simp [Stmt.leaves]
    rw [stmt, leaves, keptInk_append, keptInk_append _ whenTrue.leaves, keptInk_append _ (_ ++ _ ++ _)]
    refine Ends.ended ?_ unkept _
    refine (Ends.of_kept fun page => kept_openConditional page afterKeyword test _).bind fun indented => ?_
    refine (ends_stmt unkept brace whenTrue).bind fun _ => ?_
    refine (Ends.of_kept fun page => kept_openElse page between indented afterElse _).bind fun moved => ?_
    refine (ends_stmt unkept brace whenFalse).then_same fun _ page => ?_
    rw [after_bind, kept_semicolonIf unkept, kept_closeElse]
  | .loop keyword afterKeyword test body written => by
    rw [stmt, Stmt.leaves, keptInk_append]
    refine Ends.ended ?_ unkept _
    refine (Ends.of_kept fun page => kept_openLoop page keyword afterKeyword test).bind fun _ => ?_
    exact (ends_stmt unkept brace body).semicolonIf unkept written
  | .doUntil afterKeyword body between test written => by
    have leaves : (Stmt.doUntil afterKeyword body between test written).leaves =
        ([.word .doWord] ++ slotLeaves afterKeyword) ++ (body.leaves
          ++ (slotLeaves between ++ [.word .untilWord] ++ test.leaves)) := by
      simp [Stmt.leaves]
    rw [stmt, leaves, keptInk_append, keptInk_append _ body.leaves]
    refine Ends.ended ?_ unkept _
    refine (Ends.of_kept fun page => kept_openDo page afterKeyword).bind fun _ => ?_
    refine (ends_stmt unkept brace body).bind fun _ => ?_
    exact Ends.of_kept fun page => kept_closeDo page unkept between test written
  | .forLoop afterKeyword afterOpen none afterStart test afterCondition increment afterIncrement
      afterClose body written => by
    rw [stmt, keptInk_forLoop, Option.toList_none, Stmt.listLeaves, keptInk_nil, List.nil_append]
    refine Ends.ended ?_ unkept _
    refine (Ends.of_kept fun page => kept_openFor page afterKeyword afterOpen).bind fun moved => ?_
    have headed : Ends keep (keptInk keep (headerLeaves afterStart test afterCondition increment
        afterIncrement afterClose)) (do
          write ";" true
          forHeader afterStart test afterCondition increment afterIncrement moved afterClose) := by
      refine Ends.of_kept fun page => ?_
      rw [after_bind, kept_forHeader _ unkept, kept_write, filter_textInk unkept, List.append_nil]
    have filled := headed.bind fun _ => (ends_stmt unkept brace body).semicolonIf unkept written
    exact filled
  | .forLoop afterKeyword afterOpen (some start) afterStart test afterCondition increment
      afterIncrement afterClose body written => by
    rw [stmt, keptInk_forLoop, Option.toList_some, Stmt.listLeaves, Stmt.listLeaves, List.append_nil]
    refine Ends.ended ?_ unkept _
    refine (Ends.of_kept fun page => kept_openFor page afterKeyword afterOpen).bind fun moved => ?_
    refine (ends_stmt unkept brace start).bind fun _ => ?_
    have headed : Ends keep (keptInk keep (headerLeaves afterStart test afterCondition increment
        afterIncrement afterClose)) (do
          ensureSpace
          forHeader afterStart test afterCondition increment afterIncrement moved afterClose) := by
      refine Ends.of_kept fun page => ?_
      rw [after_bind, kept_forHeader _ unkept, kept_ensureSpace]
    have filled := headed.bind fun _ => (ends_stmt unkept brace body).semicolonIf unkept written
    exact filled
  | .switch afterKeyword subject afterOpen cases written => by
    rw [stmt, Stmt.leaves]
    refine Ends.ended (ends_braced brace _ fun page => ?_) unkept _
    rw [after_bind, after_bind]
    exact ⟨_, kept_closeSwitch _ unkept written⟩
  | .returning value written => by
    rw [stmt, Stmt.leaves]
    refine Ends.ended (Ends.of_kept fun page => ?_) unkept _
    simp [kept_jump _ unkept, Leaf.ink, Keyword.text]
  | .breaking written => by
    rw [stmt, Stmt.leaves]
    refine Ends.ended (Ends.of_kept fun page => ?_) unkept _
    simp [kept_jump _ unkept, optionLeaves, Leaf.ink, Keyword.text]
  | .exiting written => by
    rw [stmt, Stmt.leaves]
    refine Ends.ended (Ends.of_kept fun page => ?_) unkept _
    simp [kept_jump _ unkept, optionLeaves, Leaf.ink, Keyword.text]
  | .remark form token => by
    rw [stmt, Stmt.leaves]
    refine Ends.ended (Ends.of_kept fun page => ?_) unkept _
    simp [Leaf.ink]
  | .define afterKeyword name body => by
    rw [stmt, Stmt.leaves, keptInk_append]
    refine Ends.ended ?_ unkept _
    refine (Ends.of_kept fun page => kept_openDefine page afterKeyword name).bind fun _ => ?_
    exact ends_stmts unkept brace body

theorem ends_stmts (unkept : keep ";" = false) (brace : keep "\x7d" = true) : ∀ statements : List Stmt,
    Ends keep (keptInk keep (Stmt.listLeaves statements)) (stmts statements)
  | [] => by
    rw [stmts, Stmt.listLeaves]
    exact Ends.of_same fun _ => rfl
  | first :: others => by
    rw [stmts, Stmt.listLeaves, keptInk_append]
    exact (ends_stmt unkept brace first).bind fun _ => ends_stmts unkept brace others

end

end

end Print

/-! Semicolons, and the ends of statements. -/

namespace Buffer

theorem free_code {buffer : Buffer} (whole : intact buffer = true)
    (ends : ((ink buffer).filter isCode).getLast?.any (fun text => !isLineBound text) = true) :
    Free buffer.code := by
  induction buffer with
  | nil => cases ends
  | cons fragment buffer ih =>
    have later : intact buffer = true := @intact_of_append [fragment] buffer whole
    rw [code, List.dropWhile_cons]
    by_cases trails : trailsCode fragment = true
    · rw [if_pos trails]
      refine ih later ?_
      have nothing : fragment.ink.filter isCode = [] := by
        cases fragment with
        | text content => simpa [trailsCode, Fragment.isBlank, Fragment.isLineComment, Fragment.ink, isCode] using trails
        | _ => rfl
      rwa [ink, List.filter_append, nothing, List.append_nil] at ends
    · rw [if_neg trails]
      cases fragment with
      | text content =>
        have code : isCode content = true := by
          rw [trailsCode, Fragment.isBlank, Fragment.isLineComment, Bool.false_or, Bool.not_eq_true] at trails
          rw [isCode, trails]
          rfl
        refine ⟨whole, ?_⟩
        rw [ink, Fragment.ink, List.filter_append, List.filter_cons_of_pos code, List.filter_nil,
          List.getLast?_concat, Option.any_some, Bool.not_eq_true'] at ends
        exact ends
      | _ => exact absurd rfl trails

theorem unblocked_insert {later earlier middle : Buffer} (unblocked : blocked (later ++ earlier) = false)
    (free : Free middle) : blocked (later ++ middle) = false := by
  induction later with
  | nil => exact free.unblocked
  | cons fragment later ih =>
    cases fragment with
    | newline => rfl
    | text content => exact unblocked
    | space | tab => exact ih unblocked

theorem intact_insert {later earlier middle : Buffer} (whole : intact (later ++ earlier) = true)
    (free : Free middle) : intact (later ++ middle) = true := by
  induction later with
  | nil => exact free.intact
  | cons fragment later ih =>
    cases fragment with
    | text content =>
      rw [List.cons_append, intact, Bool.and_eq_true, Bool.not_eq_true'] at whole ⊢
      exact ⟨unblocked_insert whole.1 free, ih whole.2⟩
    | newline | space | tab => exact ih whole

theorem Free.dropBlanks_of_count {buffer : Buffer} (free : Free buffer) (none : buffer.dropBlanks.1 = 0) :
    Free buffer.dropBlanks.2 := by
  fun_induction Buffer.dropBlanks buffer with
  | case1 => exact free
  | case2 => exact free
  | case3 last before rest blank ih =>
    cases last with
    | newline => simp at none
    | text content => cases blank
    | space | tab => exact ih ⟨free.intact, free.unblocked⟩ (by simpa using none)
  | case4 last before rest shown => exact free

end Buffer

namespace Page

variable {page : Page}

theorem Free.writeSemicolon (free : page.Free) : page.writeSemicolon.Free :=
  free.dropSpace.write rfl true

theorem placeSemicolon_intact (whole : page.buffer.intact = true) (ends : page.EndsOpen isCode) :
    page.placeSemicolon.buffer.intact = true ∧ (page.Free → page.placeSemicolon.Free) := by
  have code : page.buffer.code.Free := Buffer.free_code whole ends
  have split := page.buffer.afterCode_append_code
  unfold Page.placeSemicolon
  split
  · rename_i none
    have same : page.buffer = page.buffer.code := by rw [List.isEmpty_iff.mp none] at split; exact split.symm
    have free : page.Free := by rw [Page.Free, same]; exact code
    exact ⟨free.writeSemicolon.intact, fun _ => free.writeSemicolon⟩
  · have behind : Buffer.Free (.text ";" :: page.buffer.code) := code.text rfl
    rw [← split] at whole
    have inserted := Buffer.intact_insert whole behind
    refine ⟨inserted, fun free => ⟨inserted, ?_⟩⟩
    have unblocked := free.unblocked
    rw [← split] at unblocked
    exact Buffer.unblocked_insert unblocked behind

theorem free_newlines (whole : page.buffer.intact = true) {count : Nat} (some : 0 < count) :
    (page.newlines count).Free := by
  cases count with
  | zero => cases some
  | succ count => exact (free_newline whole .stay).newlines count

end Page

namespace Print

open Page

/-- The end of a statement leaves the page free: it is closed or exempt, or its code is open. -/
theorem free_terminate {page : Page} (free : page.Free) {closed : Bool}
    (ready : closed = true ∨ 0 < page.exemptions ∨ page.EndsOpen isCode) :
    (after (terminate closed) page).Free := by
  unfold terminate
  rw [after_bind]
  have taken : (after takeExemption page).Free := free
  have exempt : given takeExemption page = decide (0 < page.exemptions) := rfl
  rw [exempt]
  split
  · rename_i unended
    have neither : closed = false ∧ page.exemptions = 0 := by simpa using unended
    have ends : page.EndsOpen isCode := by
      obtain isClosed | isExempt | ends := ready
      · rw [isClosed] at neither
        cases neither.1
      · omega
      · exact ends
    let bare := (after takeExemption page).dropBlanks.2
    have whole : bare.buffer.intact = true := Buffer.intact_dropBlanks free.intact
    have bareEnds : bare.EndsOpen isCode := by
      have same : bare.kept isCode = page.kept isCode :=
        Page.kept_dropBlanks isCode (after takeExemption page)
      rw [EndsOpen, same]
      exact ends
    rw [after_bind, after_bind]
    split
    · split
      · exact free_newlines whole (by omega)
      · by_cases none : page.dropBlanks.1 = 0
        · rw [after_modify]
          have kept : bare.Free := Buffer.Free.dropBlanks_of_count free none
          exact kept.newlines _
        · exact free_newlines whole (Nat.pos_of_ne_zero none)
      · exact free_newlines (placeSemicolon_intact whole bareEnds).1 (by omega)
    · rename_i empty
      have nothing : bare.buffer = [] := by
        rwa [Bool.not_eq_true, Bool.not_eq_false', List.isEmpty_iff] at empty
      show Buffer.Free bare.buffer
      rw [nothing]
      exact .nil
  · exact taken

/-- Leaves that end in open code leave open code on the page, even in front of the statement's own end. -/
theorem endsOpen_of_leaves {statement : Stmt} {closed : Bool} {written : Print Unit}
    (shape : stmt statement = ended closed written) (ends : endsOpen isOwnCode statement.leaves = true)
    (page : Page) : (after written page).EndsOpen isCode := by
  have whole := ends_stmt rfl rfl statement page false (absurd · Bool.false_ne_true) (tailOpen_of_endsOpen ends false)
  have same : (after (ended closed written) page).kept isOwnCode = (after written page).kept isOwnCode :=
    kept_terminate rfl (after written page) closed
  rw [shape, EndsOpen, same] at whole
  apply any_getLast?_of_own
  rw [kept, List.filter_filter]
  exact whole

theorem safe_ended {statement : Stmt} {written : Print Unit}
    (shape : stmt statement = ended (statement.hasSemicolon || statement.isRemark) written)
    (safe : Safe written) (ready : (statement.hasSemicolon || endsOpen isOwnCode statement.leaves) = true) :
    Safe (stmt statement) := by
  intro page free
  rw [shape]
  refine free_terminate (safe page free) ?_
  rw [Bool.or_eq_true] at ready
  obtain closed | ends := ready
  · exact .inl (by rw [closed]; rfl)
  · exact .inr (.inr (endsOpen_of_leaves shape ends page))

theorem endsOpen_braced (leaves : List Leaf) : endsOpen isOwnCode (leaves ++ [.mark .rightBrace]) = true := by
  have brace : keptInk isOwnCode [.mark .rightBrace] = ["\x7d"] := by decide
  rw [endsOpen, keptInk_append, brace, List.getLast?_concat]
  decide

/-! Behind an expression without a semicolon, line breaks of the source count. -/

theorem lineEnded_newlines (page : Page) (count : Nat) :
    (page.newlines count).lineEnded = page.lineEnded := by
  induction count generalizing page with
  | zero => rfl
  | succ count ih =>
    rw [Page.newlines, ih]
    unfold Page.newline
    split <;> rfl

theorem lineEnded_placeSemicolon (page : Page) : page.placeSemicolon.lineEnded = page.lineEnded := by
  unfold Page.placeSemicolon
  split <;> rfl

theorem lineEnded_terminate (closed : Bool) (page : Page) :
    (after (terminate closed) page).lineEnded = page.lineEnded := by
  unfold terminate
  rw [after_bind]
  split
  · rw [after_bind, after_bind]
    split
    · split
      · exact lineEnded_newlines _ _
      · exact lineEnded_newlines _ _
      · exact (lineEnded_newlines _ _).trans (lineEnded_placeSemicolon _)
    · rfl
  · rfl

theorem lineEnded_expr (expr : Expr) (page : Page) : (after (Print.expr expr) page).lineEnded = false := by
  have closed : ∀ trailing page, (after (closeExpression trailing) page).lineEnded = false :=
    fun _ _ => rfl
  cases expr with
  | call callee afterOpen arguments trailing =>
    obtain ⟨arguments, endDelimited⟩ := arguments
    rw [Print.expr]
    split <;> exact closed trailing _
  | function afterKeyword signature afterSignature isConstructor trailing =>
    rw [Print.expr]
    cases isConstructor <;> exact closed trailing _
  | array afterOpen elements =>
    obtain ⟨elements, endDelimited⟩ := elements
    rw [Print.expr]
    simp only [after_bind]
    split <;> exact closed [] _
  | ternary condition afterHook whenTrue afterColon whenFalse =>
    rw [Print.expr]
    simp only [after_bind]
    split <;> exact closed [] _
  | newline =>
    rw [Print.expr]
    simp only [after_bind]
    split <;> exact closed [] _
  | unidentified token trailing =>
    rw [Print.expr]
    split <;> exact closed trailing _
  | _ =>
    rw [Print.expr]
    exact closed _ _

theorem lineEnded_of_leavesFresh {statement : Stmt} (fresh : statement.leavesFresh = true) (page : Page) :
    (after (stmt statement) page).lineEnded = false := by
  cases statement with
  | expression expr written =>
    cases written with
    | true => cases fresh
    | false =>
      rw [stmt]
      exact (lineEnded_terminate _ _).trans (lineEnded_expr expr page)
  | _ => cases fresh

end Print

end GmlLayout
