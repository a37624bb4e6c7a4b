import GmlLayout.Grammar.Statement
import GmlLayout.Proofs.Tree.Leaves

/-!
How leaves arise from tokens. A passage goes from the tokens in front of a parser to those behind it and
lists the leaves that were made on the way. Punctuation leaves no trace, since trees do not store it. The
words `function`, `new` and `delete`, when they open a longer form, lose the trivia behind them. A
declaration that breaks off behind a repeated keyword loses that keyword too.
-/

namespace GmlLayout

def content (leaves : List Leaf) : List Leaf :=
  leaves.filter fun leaf => !leaf.isMark

@[simp] theorem content_nil : content [] = [] := rfl

@[simp] theorem content_append (first second : List Leaf) :
    content (first ++ second) = content first ++ content second :=
  List.filter_append ..

@[simp] theorem content_cons (leaf : Leaf) (leaves : List Leaf) :
    content (leaf :: leaves) = if leaf.isMark then content leaves else leaf :: content leaves := by
  unfold content
  rw [List.filter_cons]
  cases leaf.isMark <;> rfl

@[simp] theorem content_slotLeaves (slot : Trivia) : content (slotLeaves slot) = slotLeaves slot := by
  unfold content slotLeaves
  rw [List.filter_eq_self]
  intro leaf member
  obtain ⟨token, _, rfl⟩ := List.mem_map.mp member
  rfl

@[simp] theorem content_unwritten (slot : Trivia) :
    content (slot.map .unwritten) = slot.map .unwritten := by
  unfold content
  rw [List.filter_eq_self]
  intro leaf member
  obtain ⟨token, _, rfl⟩ := List.mem_map.mp member
  rfl

@[simp] theorem content_delimiterLeaves (endDelimited isLast : Bool) :
    content (delimiterLeaves endDelimited isLast) = [] := by
  unfold delimiterLeaves
  split <;> rfl

/-- Words that a node implies without storing them. The other words are stored, or open a form that
loses the trivia behind them. -/
def Keyword.isImplied : Keyword → Bool
  | .thenWord | .functionWord | .newWord | .deleteWord | .varWord | .globalvarWord => false
  | _ => true

def Kind.isImplied : Kind → Bool
  | .symbol _ | .define | .newline => true
  | _ => false

def Kind.isDotted : Kind → Bool
  | .numberStartDot | .numberEndDot => true
  | _ => false

inductive Reads : Token → List Leaf → Prop where
  | token {token : Token} (undotted : token.kind.isDotted = false) : Reads token [.token token]
  | startDot {token : Token} (kind : token.kind = .numberStartDot) : Reads token [.startDot token]
  | endDot {token : Token} (kind : token.kind = .numberEndDot) : Reads token [.endDot token]
  | trivia {token : Token} (kind : token.kind.isTrivia = true) : Reads token [.trivia token]
  | unwritten {token : Token} (kind : token.kind.isTrivia = true) : Reads token [.unwritten token]
  | word {token : Token} {word : Keyword} (kind : token.kind = .keyword word)
      (implied : word.isImplied = true) : Reads token [.word word]
  | skipped {token : Token} (implied : token.kind.isImplied = true) : Reads token []

theorem Reads.some (token : Token) : ∃ leaf, Reads token leaf := by
  by_cases start : token.kind = .numberStartDot
  · exact ⟨_, .startDot start⟩
  · by_cases stop : token.kind = .numberEndDot
    · exact ⟨_, .endDot stop⟩
    · refine ⟨_, .token ?_⟩
      unfold Kind.isDotted
      split
      · exact absurd ‹token.kind = _› start
      · exact absurd ‹token.kind = _› stop
      · rfl

/-- The words that lose the trivia behind them. A repeated keyword is only lost where a passage may be
`broken` by a statement that is kept for later. -/
inductive Opens (broken : Bool) : Token → List Leaf → Prop where
  | function {token : Token} (kind : token.kind = .keyword .functionWord) :
      Opens broken token [.word .functionWord]
  | lifetime {token : Token}
      (kind : token.kind = .keyword .newWord ∨ token.kind = .keyword .deleteWord) :
      Opens broken token [.opening token]
  | repeated {token : Token} (kind : Parse.isVariableKeyword token.kind = true)
      (allowed : broken = true) : Opens broken token []

/-- From the tokens in front of a parser to those behind it, with the leaves that were made. The word
`until` may be missing in the source. -/
inductive Passes (broken : Bool) : List Token → List Leaf → List Token → Prop where
  | done {rest : List Token} : Passes broken rest [] rest
  | read {token : Token} {leaf leaves : List Leaf} {rest stop : List Token}
      (one : Reads token leaf) (more : Passes broken rest leaves stop) :
      Passes broken (token :: rest) (leaf ++ leaves) stop
  | opened {token : Token} {leaf leaves : List Leaf} {rest stop : List Token}
      (one : Opens broken token leaf)
      (more : Passes broken (rest.dropWhile (·.kind.isTrivia)) leaves stop) :
      Passes broken (token :: rest) (leaf ++ leaves) stop
  | supplied {leaves : List Leaf} {rest stop : List Token} (more : Passes broken rest leaves stop) :
      Passes broken rest (.word .untilWord :: leaves) stop

theorem Opens.broaden {broken wider : Bool} {token : Token} {leaf : List Leaf}
    (opens : Opens broken token leaf) (allowed : broken = true → wider = true) :
    Opens wider token leaf := by
  cases opens with
  | function kind => exact .function kind
  | lifetime kind => exact .lifetime kind
  | repeated kind here => exact .repeated kind (allowed here)

namespace Passes

variable {broken : Bool}

theorem broaden {start stop : List Token} {leaves : List Leaf} (passes : Passes broken start leaves stop)
    {wider : Bool} (allowed : broken = true → wider = true) : Passes wider start leaves stop := by
  induction passes with
  | done => exact .done
  | read one _ ih => exact .read one ih
  | opened one _ ih => exact .opened (one.broaden allowed) ih
  | supplied _ ih => exact .supplied ih

theorem append {start middle stop : List Token} {first second : List Leaf}
    (front : Passes broken start first middle) (back : Passes broken middle second stop) :
    Passes broken start (first ++ second) stop := by
  induction front with
  | done => exact back
  | read one _ ih =>
    rw [List.append_assoc]
    exact .read one (ih back)
  | opened one _ ih =>
    rw [List.append_assoc]
    exact .opened one (ih back)
  | supplied _ ih => exact .supplied (ih back)

theorem one {token : Token} {leaf : List Leaf} {rest : List Token} (read : Reads token leaf) :
    Passes broken (token :: rest) leaf rest := by
  have last : Passes broken rest [] rest := .done
  simpa using Passes.read read last

theorem length_le {start stop : List Token} {leaves : List Leaf}
    (passes : Passes broken start leaves stop) :
    stop.length ≤ start.length := by
  induction passes with
  | done => exact Nat.le_refl _
  | read _ _ ih =>
    rw [List.length_cons]
    omega
  | @opened _ _ _ rest _ _ _ ih =>
    have shorter : (rest.dropWhile (·.kind.isTrivia)).length ≤ rest.length :=
      (List.dropWhile_suffix _).length_le
    rw [List.length_cons]
    omega
  | supplied _ ih => exact ih

theorem slot {make : Token → Leaf}
    (reads : ∀ token : Token, token.kind.isTrivia = true → Reads token [make token])
    (tokens : List Token) :
    Passes broken tokens ((tokens.takeWhile (·.kind.isTrivia)).map make)
      (tokens.dropWhile (·.kind.isTrivia)) := by
  induction tokens with
  | nil => exact .done
  | cons token rest ih =>
    by_cases kind : token.kind.isTrivia = true
    · simp only [List.takeWhile_cons, List.dropWhile_cons, kind, if_true]
      exact Passes.read (reads token kind) ih
    · simp only [List.takeWhile_cons, List.dropWhile_cons, kind]
      exact .done

end Passes

end GmlLayout
