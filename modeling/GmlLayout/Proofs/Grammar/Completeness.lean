import GmlLayout.Proofs.Grammar.Program
import GmlLayout.Proofs.Token.Position

/-!
Which tokens of a source its tree holds. All tokens with a text of their own, and every `then`, are
held, but for the trivia behind a word that opens a longer form: `function`, `new` and `delete`, and a
repeated `var` or `globalvar` that declares nothing. What is lost can be told from the source and the
tree, and the tree is complete exactly when nothing is.
-/

namespace GmlLayout

/-- The words that lose the trivia behind them when they open a longer form. -/
def Kind.mayOpen : Kind → Bool
  | .keyword .functionWord | .keyword .newWord | .keyword .deleteWord => true
  | .keyword .varWord | .keyword .globalvarWord => true
  | _ => false

/-- The trivia behind those words that are not among the tokens `held` for themselves. -/
def lostBehind (held : List Token) : List Token → List Token
  | [] => []
  | token :: rest =>
    if token.kind.mayOpen ∧ token ∉ held then
      rest.takeWhile (·.kind.isTrivia) ++ lostBehind held rest
    else
      lostBehind held rest

theorem mayOpen_of_isTrivia {kind : Kind} (trivia : kind.isTrivia = true) : kind.mayOpen = false := by
  cases kind with
  | keyword word => cases word <;> first | rfl | cases trivia
  | _ => rfl

theorem lostBehind_dropWhile (held tokens : List Token) :
    lostBehind held (tokens.dropWhile (·.kind.isTrivia)) = lostBehind held tokens := by
  induction tokens with
  | nil => rfl
  | cons token rest ih =>
    by_cases trivia : token.kind.isTrivia = true
    · rw [List.dropWhile_cons, if_pos trivia, ih, lostBehind, mayOpen_of_isTrivia trivia]
      rfl
    · rw [List.dropWhile_cons, if_neg trivia]

namespace Reads

variable {token : Token} {leaf : List Leaf}

theorem mem_plain (reads : Reads token leaf) (opens : token.kind.mayOpen = true) :
    token ∈ leaf.filterMap Leaf.plain := by
  cases reads with
  | token | startDot | endDot => simp [Leaf.plain, Leaf.stored]
  | trivia kind | unwritten kind => simp [Leaf.plain, Leaf.stored]
  | @word word kind implied =>
    rw [kind] at opens
    revert opens implied
    cases word <;> simp [Kind.mayOpen, Keyword.isImplied]
  | skipped implied =>
    revert opens implied
    cases token.kind <;> simp [Kind.mayOpen, Kind.isImplied]

theorem stored_subset (reads : Reads token leaf) : leaf.filterMap Leaf.stored ⊆ [token] := by
  cases reads <;> simp [Leaf.stored]

end Reads

namespace Opens

variable {broken : Bool} {token : Token} {leaf : List Leaf}

theorem mayOpen (opens : Opens broken token leaf) : token.kind.mayOpen = true := by
  cases opens with
  | function kind => rw [kind]; rfl
  | lifetime kind =>
    obtain kind | kind := kind
    · rw [kind]; rfl
    · rw [kind]; rfl
  | repeated kind =>
    revert kind
    cases token.kind with
    | keyword word => cases word <;> simp [Parse.isVariableKeyword, Kind.mayOpen]
    | _ => simp [Parse.isVariableKeyword]

theorem stored_subset (opens : Opens broken token leaf) : leaf.filterMap Leaf.stored ⊆ [token] := by
  cases opens <;> simp [Leaf.stored]

theorem plain_eq_nil (opens : Opens broken token leaf) : leaf.filterMap Leaf.plain = [] := by
  cases opens <;> rfl

end Opens

theorem mem_stored_of_mem_plain {token : Token} {leaves : List Leaf}
    (member : token ∈ leaves.filterMap Leaf.plain) : token ∈ leaves.filterMap Leaf.stored := by
  obtain ⟨leaf, among, plain⟩ := List.mem_filterMap.mp member
  refine List.mem_filterMap.mpr ⟨leaf, among, ?_⟩
  cases leaf <;> first | exact plain | cases plain

theorem Passes.stored_subset {broken : Bool} {start stop : List Token} {leaves : List Leaf}
    (passes : Passes broken start leaves stop) : leaves.filterMap Leaf.stored ⊆ start := by
  induction passes with
  | done => exact List.nil_subset _
  | read one _ ih =>
    rw [List.filterMap_append]
    apply List.append_subset.mpr
    exact ⟨fun _ member => by simpa using Or.inl (List.mem_singleton.mp (one.stored_subset member)),
      fun _ member => List.mem_cons_of_mem _ (ih member)⟩
  | opened one _ ih =>
    rw [List.filterMap_append]
    apply List.append_subset.mpr
    refine ⟨fun _ member => by simpa using Or.inl (List.mem_singleton.mp (one.stored_subset member)),
      fun _ member => List.mem_cons_of_mem _ ?_⟩
    exact (List.dropWhile_suffix _).subset (ih member)
  | supplied _ ih => exact ih

def Kind.isHeld (kind : Kind) : Bool :=
  kind.carriesText || kind = .keyword .thenWord

section

variable {kept : Kind → Bool} (held : ∀ kind, kept kind = true → kind.isHeld = true)

include held

theorem kept_of_isImplied {kind : Kind} (implied : kind.isImplied = true) : kept kind = false := by
  cases keeps : kept kind with
  | false => rfl
  | true =>
    have here := held kind keeps
    revert here implied
    cases kind <;> simp [Kind.isImplied, Kind.isHeld, Kind.carriesText]

theorem kept_of_word {word : Keyword} (other : word ≠ .thenWord) : kept (.keyword word) = false := by
  cases keeps : kept (.keyword word) with
  | false => rfl
  | true =>
    have here := held _ keeps
    simp [Kind.isHeld, Kind.carriesText, other] at here

theorem Reads.stored_filter {token : Token} {leaf : List Leaf} (reads : Reads token leaf) :
    (leaf.filterMap Leaf.stored).filter (kept ·.kind) = [token].filter (kept ·.kind) := by
  cases reads with
  | token | startDot | endDot => rfl
  | trivia kind | unwritten kind => rfl
  | @word word kind implied =>
    have unkept : kept token.kind = false := by
      rw [kind]
      apply kept_of_word held
      rintro rfl
      cases implied
    simp [Leaf.stored, unkept]
  | skipped implied => simp [kept_of_isImplied held implied]

theorem Opens.kept_eq_false {broken : Bool} {token : Token} {leaf : List Leaf}
    (opens : Opens broken token leaf) : kept token.kind = false := by
  have shape := opens.mayOpen
  revert shape
  cases token.kind with
  | keyword word =>
    intro shape
    apply kept_of_word held
    rintro rfl
    cases shape
  | _ => simp [Kind.mayOpen]

/-- A whole passage: the kept tokens are stored in their order, and those that are not stored are lost
behind opening words. -/
theorem Passes.account {broken : Bool} {start stop : List Token} {leaves : List Leaf}
    (passes : Passes broken start leaves stop) (finished : stop = []) (distinct : start.Nodup)
    {plain : List Token} (same : ∀ token ∈ start, token ∈ plain ↔ token ∈ leaves.filterMap Leaf.plain) :
    ((leaves.filterMap Leaf.stored).filter (kept ·.kind)).Sublist (start.filter (kept ·.kind)) ∧
      ((leaves.filterMap Leaf.stored).filter (kept ·.kind)
        ++ (lostBehind plain start).filter (kept ·.kind)).Perm (start.filter (kept ·.kind)) := by
  induction passes with
  | done =>
    subst finished
    exact ⟨.refl _, .refl _⟩
  | @read token leaf leaves rest stop one more ih =>
    obtain ⟨fresh, distinct⟩ := List.nodup_cons.mp distinct
    have sameRest : ∀ other ∈ rest, other ∈ plain ↔ other ∈ leaves.filterMap Leaf.plain := by
      intro other member
      rw [same other (List.mem_cons_of_mem _ member), List.filterMap_append, List.mem_append]
      refine or_iff_right fun here => fresh ?_
      have only := List.mem_singleton.mp (one.stored_subset (mem_stored_of_mem_plain here))
      exact only ▸ member
    have passedOver : lostBehind plain (token :: rest) = lostBehind plain rest := by
      rw [lostBehind, if_neg]
      rintro ⟨opens, unheld⟩
      apply unheld
      rw [same token List.mem_cons_self, List.filterMap_append]
      exact List.mem_append_left _ (one.mem_plain opens)
    obtain ⟨order, whole⟩ := ih finished distinct sameRest
    have front : (token :: rest).filter (kept ·.kind) =
        [token].filter (kept ·.kind) ++ rest.filter (kept ·.kind) := by
      rw [← List.filter_append, List.singleton_append]
    rw [front, passedOver, List.filterMap_append, List.filter_append, one.stored_filter held,
      List.append_assoc]
    exact ⟨order.append_left _, whole.append_left _⟩
  | @opened token leaf leaves rest stop one more ih =>
    obtain ⟨fresh, distinct⟩ := List.nodup_cons.mp distinct
    have later : (rest.dropWhile (·.kind.isTrivia)).Sublist rest := (List.dropWhile_suffix _).sublist
    have sameRest : ∀ other ∈ rest.dropWhile (·.kind.isTrivia),
        other ∈ plain ↔ other ∈ leaves.filterMap Leaf.plain := by
      intro other member
      rw [same other (List.mem_cons_of_mem _ (later.subset member)), List.filterMap_append,
        one.plain_eq_nil, List.nil_append]
    have unheld : token ∉ plain := by
      rw [same token List.mem_cons_self, List.filterMap_append, one.plain_eq_nil, List.nil_append]
      exact fun here => fresh (later.subset (more.stored_subset (mem_stored_of_mem_plain here)))
    have unkept : kept token.kind = false := one.kept_eq_false held
    have unstored : (leaf.filterMap Leaf.stored).filter (kept ·.kind) = [] := by
      apply List.filter_eq_nil_iff.mpr
      intro other member
      rw [List.mem_singleton.mp (one.stored_subset member), unkept]
      simp
    have lost : lostBehind plain (token :: rest) =
        rest.takeWhile (·.kind.isTrivia) ++ lostBehind plain (rest.dropWhile (·.kind.isTrivia)) := by
      rw [lostBehind, if_pos ⟨one.mayOpen, unheld⟩, lostBehind_dropWhile]
    obtain ⟨order, whole⟩ := ih finished (distinct.sublist later) sameRest
    have skipped : (token :: rest).filter (kept ·.kind) = rest.filter (kept ·.kind) := by
      rw [List.filter_cons, unkept]
      rfl
    rw [skipped, lost, List.filterMap_append, List.filter_append, unstored, List.nil_append,
      List.filter_append]
    refine ⟨order.trans (later.filter _), ?_⟩
    calc (leaves.filterMap Leaf.stored).filter (kept ·.kind)
          ++ ((rest.takeWhile (·.kind.isTrivia)).filter (kept ·.kind)
            ++ (lostBehind plain (rest.dropWhile (·.kind.isTrivia))).filter (kept ·.kind))
      List.Perm _ ((rest.takeWhile (·.kind.isTrivia)).filter (kept ·.kind)
          ++ ((leaves.filterMap Leaf.stored).filter (kept ·.kind)
            ++ (lostBehind plain (rest.dropWhile (·.kind.isTrivia))).filter (kept ·.kind))) := by
        rw [← List.append_assoc, ← List.append_assoc]
        exact List.perm_append_comm.append_right _
      List.Perm _ ((rest.takeWhile (·.kind.isTrivia)).filter (kept ·.kind)
          ++ (rest.dropWhile (·.kind.isTrivia)).filter (kept ·.kind)) := whole.append_left _
      _ = rest.filter (kept ·.kind) := by rw [← List.filter_append, List.takeWhile_append_dropWhile]
  | supplied more ih => exact ih finished distinct same

end

theorem filterMap_content {read : Leaf → Option Token}
    (unread : ∀ leaf : Leaf, leaf.isMark = true → read leaf = none) (leaves : List Leaf) :
    (content leaves).filterMap read = leaves.filterMap read := by
  induction leaves with
  | nil => rfl
  | cons leaf leaves ih =>
    rw [content_cons]
    split
    · rw [List.filterMap_cons, unread leaf ‹_›, ih]
    · rw [List.filterMap_cons, List.filterMap_cons, ih]

theorem stored_content (leaves : List Leaf) :
    (content leaves).filterMap Leaf.stored = leaves.filterMap Leaf.stored :=
  filterMap_content (fun leaf mark => by cases leaf <;> first | rfl | cases mark) leaves

theorem plain_content (leaves : List Leaf) :
    (content leaves).filterMap Leaf.plain = leaves.filterMap Leaf.plain :=
  filterMap_content (fun leaf mark => by cases leaf <;> first | rfl | cases mark) leaves

def heldTokens (program : List Stmt) : List Token :=
  (Stmt.listLeaves program).filterMap Leaf.stored

def lostTokens (source : String) (program : List Stmt) : List Token :=
  lostBehind ((Stmt.listLeaves program).filterMap Leaf.plain) (scan source)

/-- What becomes of the tokens of a source: they are held, in their order unless a statement was kept for
later, or lost. -/
theorem parse_account {kept : Kind → Bool} (held : ∀ kind, kept kind = true → kind.isHeld = true)
    {source : String} {program : List Stmt} (parsed : parse source = .ok program) :
    ((heldTokens program).filter (kept ·.kind)
        ++ (lostTokens source program).filter (kept ·.kind)).Perm ((scan source).filter (kept ·.kind)) ∧
      (leftovers source = [] → ((heldTokens program).filter (kept ·.kind)).Sublist
        ((scan source).filter (kept ·.kind))) := by
  obtain ⟨broken, passed, passes, perm, same⟩ := parse_passes parsed
  have samePlain : ∀ token, token ∈ (Stmt.listLeaves program).filterMap Leaf.plain ↔
      token ∈ passed.filterMap Leaf.plain := by
    intro token
    rw [← plain_content]
    exact (perm.filterMap Leaf.plain).mem_iff.symm
  obtain ⟨order, whole⟩ := passes.account held rfl (scan_nodup source) fun token _ => samePlain token
  have stored : (passed.filterMap Leaf.stored).Perm (heldTokens program) := by
    unfold heldTokens
    rw [← stored_content (Stmt.listLeaves program)]
    exact perm.filterMap Leaf.stored
  refine ⟨((stored.filter _).symm.append_right _).trans whole, fun none => ?_⟩
  obtain ⟨_, rfl⟩ := same none
  rwa [stored_content] at order

/-- A program holds every token with a text of its own and every `then`, each once and in the order of
the source unless a statement was kept for later, exactly when none of them stands behind an opening
word; together with those that do, they are all tokens of the source. -/
theorem parse_complete_iff {source : String} {program : List Stmt} (parsed : parse source = .ok program) :
    ((((heldTokens program).filter (·.kind.isHeld)).Perm ((scan source).filter (·.kind.isHeld)) ∧
        (leftovers source = [] →
          (heldTokens program).filter (·.kind.isHeld) = (scan source).filter (·.kind.isHeld))) ↔
      (lostTokens source program).filter (·.kind.isHeld) = []) ∧
    ((heldTokens program).filter (·.kind.isHeld)
      ++ (lostTokens source program).filter (·.kind.isHeld)).Perm
        ((scan source).filter (·.kind.isHeld)) := by
  obtain ⟨whole, order⟩ := parse_account (fun _ keeps => keeps) parsed
  refine ⟨⟨?_, ?_⟩, whole⟩
  · rintro ⟨complete, _⟩
    have count := whole.length_eq
    rw [List.length_append, complete.length_eq] at count
    exact List.length_eq_zero_iff.mp (by omega)
  · intro nothing
    rw [nothing, List.append_nil] at whole
    exact ⟨whole, fun none => (order none).eq_of_length whole.length_eq⟩

theorem exists_ok {ε α : Type} {result : Except ε α} {good : α → Prop} [DecidablePred good]
    (checked : result.toOption.any (good ·) = true) : ∃ value, result = .ok value ∧ good value := by
  cases result with
  | ok value => exact ⟨value, rfl, by simpa [Except.toOption] using checked⟩
  | error cause => cases checked

/-- The comments of a call and of a condition are held, as is its `then`. -/
theorem parse_complete_iff_call : ∃ program,
    parse "if (a /* b */) then f(.5 // c\n);" = .ok program ∧
      (((heldTokens program).filter (·.kind.isHeld)).Perm
          ((scan "if (a /* b */) then f(.5 // c\n);").filter (·.kind.isHeld)) ∧
        (leftovers "if (a /* b */) then f(.5 // c\n);" = [] →
          (heldTokens program).filter (·.kind.isHeld) =
            (scan "if (a /* b */) then f(.5 // c\n);").filter (·.kind.isHeld))) := by
  have unharmed : ∃ program, parse "if (a /* b */) then f(.5 // c\n);" = .ok program ∧
      (lostTokens "if (a /* b */) then f(.5 // c\n);" program).filter (·.kind.isHeld) = [] :=
    exists_ok (by decide +kernel)
  obtain ⟨program, parsed, nothing⟩ := unharmed
  exact ⟨program, parsed, (parse_complete_iff parsed).1.mpr nothing⟩

/-- The comment between `function` and its name is lost. -/
theorem parse_incomplete : ∃ program, parse "function /* c */ f() \x7b\x7d" = .ok program ∧
    leftovers "function /* c */ f() \x7b\x7d" = [] ∧
    ¬((heldTokens program).filter (·.kind.isHeld)).Perm
      ((scan "function /* c */ f() \x7b\x7d").filter (·.kind.isHeld)) :=
  exists_ok (by decide +kernel)

end GmlLayout
