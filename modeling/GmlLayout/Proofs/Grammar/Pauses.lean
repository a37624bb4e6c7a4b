import GmlLayout.Proofs.Grammar.Completeness
import GmlLayout.Proofs.Grammar.Gathering

/-!
A line break or a comment where an expression was due is a pause, and it ends the expression: behind it
pairing is off, so that no operator, call or assignment takes it for an operand. The test for a member or an
element does not ask whether pairing is on, and this is the one place where a pause gets more than its due: a
dot or an accessor right behind it is taken as its own.
-/

namespace GmlLayout

namespace Expr

def isPause : Expr → Bool
  | .newline | .lineComment _ | .blockComment _ => true
  | _ => false

def PausesAt (token : Token) : Expr → Prop
  | .newline => token.kind = .newline
  | .lineComment own => own = token ∧ token.kind = .lineComment
  | .blockComment own => own = token ∧ token.kind = .blockComment
  | _ => False

/-- The operands of a node, but for what a member or an element is taken of. -/
def operands : Expr → List Expr
  | .call callee _ _ _ => [callee]
  | .binary left _ _ right => [left, right]
  | .unary _ _ operand => [operand]
  | .step operand _ _ => [operand]
  | .assign target _ _ value => [target, value]
  | .dotted _ _ member _ => [member]
  | .ternary condition _ whenTrue _ whenFalse => [condition, whenTrue, whenFalse]
  | _ => []

def owner? : Expr → Option Expr
  | .dotted owner _ _ _ => some owner
  | .access collection _ _ _ => some collection
  | _ => none

theorem PausesAt.isTrivia {token : Token} {expr : Expr} (pauses : expr.PausesAt token) :
    token.kind.isTrivia = true := by
  cases expr with
  | newline => simp [show token.kind = .newline from pauses, Kind.isTrivia]
  | lineComment own => simp [pauses.2, Kind.isTrivia]
  | blockComment own => simp [pauses.2, Kind.isTrivia]
  | _ => cases pauses

end Expr

def Kind.isReach (kind : Kind) : Bool :=
  kind = .symbol .dot || kind.isAccessor

variable (tokens : List Token)

/-- A pause stands right in front of a token that takes a member or an element. -/
def Overreached (owner : Expr) : Prop :=
  ∃ pause reach : Token, owner.PausesAt pause ∧ reach.kind.isReach = true ∧ [pause, reach] <:+: tokens

/-- No operand is a pause; only a member or an element may be taken of one, if it overreaches. -/
def Expr.Paired (expr : Expr) : Prop :=
  (∀ operand ∈ expr.operands, operand.isPause = false) ∧
    ∀ owner ∈ expr.owner?, owner.isPause = true → Overreached tokens owner

def Halts (start : Reader) (expr : Expr) (stop : Reader) : Prop :=
  expr.isPause = true → stop.canPair = false ∧ ∃ pause, expr.PausesAt pause ∧ start.rest = pause :: stop.rest

/-- The parser returns an expression that is paired in all its parts, or else it halts. -/
def PairsExpr (parser : Parse Expr) : Prop :=
  ∀ start, Gathers tokens (Expr.Paired tokens) parser start
    fun expr stop => Expr.All (Expr.Paired tokens) expr.parts ∧ Halts start expr stop

structure Rules.Pairing (rules : Rules) : Prop where
  statement : GathersStmt tokens (Expr.Paired tokens) rules.statement
  expression : GathersExpr tokens (Expr.Paired tokens) rules.expression
  assignment : PairsExpr tokens rules.assignment
  ternary : PairsExpr tokens rules.ternary
  binary : ∀ tiers, PairsExpr tokens (rules.binary tiers)
  unary : PairsExpr tokens rules.unary
  call : PairsExpr tokens rules.call

variable {tokens}

theorem Rules.pairing_empty : Rules.empty.Pairing tokens where
  statement _ := Gathers.throw
  expression _ := Gathers.throw
  assignment _ := Gathers.throw
  ternary _ := Gathers.throw
  binary _ _ := Gathers.throw
  unary _ := Gathers.throw
  call _ := Gathers.throw

namespace Halts

variable {start stop : Reader} {expr : Expr}

theorem of_not_pause (goesOn : expr.isPause = false) : Halts start expr stop :=
  fun pause => absurd pause (by simp [goesOn])

theorem not_pause (halts : Halts start expr stop) (pairs : stop.canPair = true) : expr.isPause = false := by
  cases pause : expr.isPause with
  | false => rfl
  | true => simp [(halts pause).1] at pairs

theorem not_pause_of_slot (halts : Halts start expr stop)
    (apart : ∀ token rest, start.rest = token :: rest → token.kind.isTrivia = false) :
    expr.isPause = false := by
  cases pause : expr.isPause with
  | false => rfl
  | true =>
    obtain ⟨_, token, pauses, shape⟩ := halts pause
    exact absurd pauses.isTrivia (by simp [apart token _ shape])

end Halts

theorem Expr.paired_of_operands {expr : Expr} (whole : expr.owner? = none)
    (goOn : ∀ operand ∈ expr.operands, operand.isPause = false) : expr.Paired tokens :=
  ⟨goOn, by simp [whole]⟩

theorem Expr.all_paired_leaf {expr : Expr} (alone : expr.parts = [expr]) (whole : expr.owner? = none)
    (none : expr.operands = []) : Expr.All (Expr.Paired tokens) expr.parts := by
  rw [alone]
  exact .cons (paired_of_operands whole (by simp [none])) .nil

namespace Pairs

open Gathers

variable {rules : Rules} {start : Reader}

section

variable (pairing : rules.Pairing tokens)

include pairing

theorem grouping : Gathers tokens (Expr.Paired tokens) (Parse.grouping rules) start
    fun expr _ => Expr.All (Expr.Paired tokens) expr.parts ∧ expr.isPause = false := by
  refine slot.bind fun afterOpen _ _ => (pairing.expression _).bind fun first _ paired => ?_
  refine (groupRest pairing.expression _).bind fun others _ further => slot.bind fun afterClose _ _ => ?_
  exact pure ⟨.cons (Expr.paired_of_operands rfl (by simp [Expr.operands])) (paired.append further), rfl⟩

theorem array : Gathers tokens (Expr.Paired tokens) (Parse.array rules) start
    fun expr _ => Expr.All (Expr.Paired tokens) expr.parts ∧ expr.isPause = false := by
  refine slot.bind fun afterOpen _ _ => (series pairing.expression _).bind fun elements _ paired => ?_
  exact pure ⟨.cons (Expr.paired_of_operands rfl (by simp [Expr.operands])) paired, rfl⟩

theorem primary : PairsExpr tokens (Parse.primary rules) := by
  intro start
  refine advance.bind fun token middle ⟨shape, _⟩ => ?_
  have halts : ∀ {expr : Expr}, expr.PausesAt token → Halts start expr { middle with canPair := false } :=
    fun pauses _ => ⟨rfl, token, pauses, shape⟩
  split
  case h_6 => exact (grouping pairing).weaken fun _ _ known => ⟨known.1, .of_not_pause known.2⟩
  case h_7 => exact (array pairing).weaken fun _ _ known => ⟨known.1, .of_not_pause known.2⟩
  case h_8 kind =>
    refine setCanPair.bind fun _ _ same => same ▸ pure ⟨Expr.all_paired_leaf rfl rfl rfl, halts kind⟩
  case h_9 kind =>
    refine setCanPair.bind fun _ _ same => same ▸ pure ⟨Expr.all_paired_leaf rfl rfl rfl, halts ⟨rfl, kind⟩⟩
  case h_10 kind =>
    refine setCanPair.bind fun _ _ same => same ▸ pure ⟨Expr.all_paired_leaf rfl rfl rfl, halts ⟨rfl, kind⟩⟩
  case h_11 =>
    refine get.bind fun _ _ _ => ite (slot.bind fun trailing _ _ => pure ?_) throw
    exact ⟨Expr.all_paired_leaf rfl rfl rfl, .of_not_pause rfl⟩
  all_goals
    exact slot.bind fun after _ _ => pure ⟨Expr.all_paired_leaf rfl rfl rfl, .of_not_pause rfl⟩

theorem arguments {callee : Expr} (paired : Expr.All (Expr.Paired tokens) callee.parts)
    (goesOn : start.canPair = true → callee.isPause = false) :
    Gathers tokens (Expr.Paired tokens) (Parse.arguments rules callee) start
      fun called stop => Expr.All (Expr.Paired tokens) called.parts ∧
        (called.isPause = true → called = callee ∧ stop = start) := by
  refine accept.bind fun taken stop ⟨refused, pairs⟩ => ?_
  cases taken with
  | true =>
    refine slot.bind fun afterOpen _ _ => (series pairing.expression _).bind fun arguments _ further => ?_
    refine slot.bind fun trailing _ _ => pure ⟨.cons ?_ (paired.append further), (fun pause => nomatch pause)⟩
    exact Expr.paired_of_operands rfl (by simp [Expr.operands, goesOn (pairs rfl)])
  | false =>
    obtain rfl := refused rfl
    exact pure ⟨paired, fun _ => ⟨rfl, rfl⟩⟩

/-- What a member or an element is taken of is a pause only where the pause stands right in front. -/
theorem accesses (count : Nat) {owner : Expr} (paired : Expr.All (Expr.Paired tokens) owner.parts)
    (stands : owner.isPause = true → ∃ pause, owner.PausesAt pause ∧ pause :: start.rest <:+ tokens) :
    Gathers tokens (Expr.Paired tokens) (Parse.accesses rules count owner) start
      fun expr stop => Expr.All (Expr.Paired tokens) expr.parts ∧
        (expr.isPause = true → expr = owner ∧ stop = start) := by
  induction count generalizing start owner with
  | zero => exact pure ⟨paired, fun _ => ⟨rfl, rfl⟩⟩
  | succ left ih =>
    have further : ∀ {node : Expr} {start : Reader} {good : Reader → Prop}, node.isPause = false →
        Expr.All (Expr.Paired tokens) node.parts →
        Gathers tokens (Expr.Paired tokens) (Parse.accesses rules left node) start
          fun expr stop => Expr.All (Expr.Paired tokens) expr.parts ∧
            (expr.isPause = true → expr = owner ∧ good stop) := by
      intro node start good goesOn nodePaired
      refine (ih nodePaired fun pause => absurd pause (by simp [goesOn])).weaken fun expr stop known => ?_
      refine ⟨known.1, fun pause => ?_⟩
      simp [(known.2 pause).1, goesOn] at pause
    have overreached : ∀ {reach rest}, start.rest = reach :: rest → reach.kind.isReach = true →
        owner.isPause = true → Overreached tokens owner := by
      intro reach rest shape isReach pause
      obtain ⟨token, pauses, within⟩ := stands pause
      rw [shape] at within
      have here : [token, reach] <:+: token :: reach :: rest := (List.prefix_append [token, reach] rest).isInfix
      exact ⟨token, reach, pauses, isReach, here.trans within.isInfix⟩
    unfold Parse.accesses
    refine ifSees (fun dot _ kind shape _ => ?_) (ifSees (fun accessor _ kind shape _ => ?_) ?_)
    · have reaches := overreached shape (by simp_all [Kind.isReach])
      refine slot.bind fun afterDot behind read => (pairing.call behind).bind fun member _ known => ?_
      have goesOn := known.2.not_pause_of_slot read.2
      refine slot.bind fun trailing _ _ => further rfl (.cons ⟨?_, ?_⟩ (paired.append known.1))
      · simp [Expr.operands, goesOn]
      · simpa [Expr.owner?] using reaches
    · have reaches := overreached shape (by simp [Kind.isReach, kind])
      refine (indices pairing.expression _).bind fun indices _ known => ?_
      refine accept.bind fun _ _ _ => slot.bind fun trailing _ _ => ?_
      refine further rfl (.cons ⟨?_, ?_⟩ (paired.append known))
      · simp [Expr.operands]
      · simpa [Expr.owner?] using reaches
    · exact pure ⟨paired, fun _ => ⟨rfl, rfl⟩⟩

theorem call : PairsExpr tokens (Parse.call rules) := by
  intro start
  refine assuming fun within => (primary pairing start).bind fun callee middle known => ?_
  have goesOn : middle.canPair = true → callee.isPause = false := known.2.not_pause
  refine (arguments pairing known.1 goesOn).bind fun called stop calledKnown => ?_
  refine (accesses pairing _ calledKnown.1 fun pause => ?_).weaken fun expr _ exprKnown => ?_
  · obtain ⟨rfl, rfl⟩ := calledKnown.2 pause
    obtain ⟨_, token, pauses, shape⟩ := known.2 pause
    exact ⟨token, pauses, shape ▸ within⟩
  · refine ⟨exprKnown.1, fun pause => ?_⟩
    obtain ⟨rfl, rfl⟩ := exprKnown.2 pause
    obtain ⟨rfl, rfl⟩ := calledKnown.2 pause
    exact known.2 pause

theorem stepped : PairsExpr tokens (Parse.stepped rules) := by
  intro start
  refine (call pairing start).bind fun operand middle known => ?_
  refine ifCheck (fun operator _ _ pairs => ?_) (pure known)
  refine slot.bind fun afterOperator _ _ => pure ⟨.cons ?_ known.1, .of_not_pause rfl⟩
  exact Expr.paired_of_operands rfl (by simp [Expr.operands, known.2.not_pause pairs])

theorem unary : PairsExpr tokens (Parse.unary rules) := by
  intro start
  refine ifCheck (fun operator _ _ pairs => ?_) (stepped pairing start)
  refine slot.bind fun afterOperator behind ⟨_, apart⟩ => (pairing.unary behind).bind fun operand _ known => ?_
  refine pure ⟨.cons ?_ known.1, .of_not_pause rfl⟩
  exact Expr.paired_of_operands rfl (by simp [Expr.operands, known.2.not_pause_of_slot apart])

end

theorem chain {operand : Parse Expr} {joins : Kind → Bool} (each : PairsExpr tokens operand) (count : Nat)
    {left : Expr} (paired : Expr.All (Expr.Paired tokens) left.parts) (goesOn : left.isPause = false) :
    Gathers tokens (Expr.Paired tokens) (Parse.chain operand joins count left) start
      fun expr _ => Expr.All (Expr.Paired tokens) expr.parts ∧ expr.isPause = false := by
  induction count generalizing start left with
  | zero => exact pure ⟨paired, goesOn⟩
  | succ count ih =>
    unfold Parse.chain
    refine ifSees (fun operator _ _ _ _ => ?_) (pure ⟨paired, goesOn⟩)
    refine slot.bind fun afterOperator behind read => (each behind).bind fun right _ known => ?_
    refine ih (.cons ?_ (paired.append known.1)) rfl
    exact Expr.paired_of_operands rfl (by simp [Expr.operands, goesOn, known.2.not_pause_of_slot read.2])

section

variable (pairing : rules.Pairing tokens)

include pairing

theorem binary (tiers : List Tier) : PairsExpr tokens (Parse.binary rules tiers) := by
  induction tiers with
  | nil => exact unary pairing
  | cons tier tighter ih =>
    intro start
    unfold Parse.binary
    refine (ih start).bind fun left middle known => ?_
    split
    · refine get.bind fun reader stop ⟨same, here⟩ => ?_
      subst same here
      split
      · rename_i pairs
        have goesOn := known.2.not_pause pairs
        exact (chain (pairing.binary tighter) _ known.1 goesOn).weaken
          fun _ _ chained => ⟨chained.1, .of_not_pause chained.2⟩
      · exact pure known
    · refine ifCheck (fun operator _ _ pairs => ?_) (pure known)
      refine slot.bind fun afterOperator behind ⟨_, apart⟩ => ?_
      refine (pairing.binary _ behind).bind fun right _ rightKnown => ?_
      refine pure ⟨.cons ?_ (known.1.append rightKnown.1), .of_not_pause rfl⟩
      exact Expr.paired_of_operands rfl
        (by simp [Expr.operands, known.2.not_pause pairs, rightKnown.2.not_pause_of_slot apart])

theorem ternary : PairsExpr tokens (Parse.ternary rules) := by
  intro start
  refine (binary pairing Tier.all start).bind fun condition middle known => ?_
  refine accept.bind fun taken stop ⟨refused, pairs⟩ => ?_
  cases taken with
  | true =>
    have goesOn := known.2.not_pause (pairs rfl)
    refine slot.bind fun afterHook first ⟨_, apart⟩ => (pairing.ternary first).bind fun whenTrue _ yes => ?_
    refine accept.bind fun _ _ _ => slot.bind fun afterColon second ⟨_, apart'⟩ => ?_
    refine (pairing.ternary second).bind fun whenFalse _ no => ?_
    refine pure ⟨.cons ?_ ((known.1.append yes.1).append no.1), .of_not_pause rfl⟩
    have goOn := And.intro (yes.2.not_pause_of_slot apart) (no.2.not_pause_of_slot apart')
    exact Expr.paired_of_operands rfl (by simp [Expr.operands, goesOn, goOn])
  | false =>
    obtain rfl := refused rfl
    exact pure known

theorem completed {opening : Expr} (paired : Expr.All (Expr.Paired tokens) opening.parts) :
    Gathers tokens (Expr.Paired tokens) (Parse.completed rules opening) start
      fun expr stop => Expr.All (Expr.Paired tokens) expr.parts ∧
        (expr.isPause = true → expr = opening ∧ stop = start) := by
  have same : Expr.All (Expr.Paired tokens) opening.parts ∧
    (opening.isPause = true → opening = opening ∧ start = start) := ⟨paired, fun _ => ⟨rfl, rfl⟩⟩
  have lifetimeRest : ∀ operator, Gathers tokens (Expr.Paired tokens) (Parse.lifetimeRest rules operator) start
      fun expr stop => Expr.All (Expr.Paired tokens) expr.parts ∧
        (expr.isPause = true → expr = opening ∧ stop = start) := by
    intro operator
    refine slot.bind fun afterOperator _ _ => (pairing.expression _).bind fun operand _ known => ?_
    refine slot.bind fun trailing _ _ => pure ⟨.cons ?_ known, (fun pause => nomatch pause)⟩
    exact Expr.paired_of_operands rfl (by simp [Expr.operands])
  unfold Parse.completed
  split
  · split
    · refine slot.bind fun afterKeyword _ _ => (pairing.expression _).bind fun signature _ known => ?_
      refine slot.bind fun afterSignature _ _ => accept.bind fun isConstructor _ _ => ?_
      refine slot.bind fun trailing _ _ => pure ⟨.cons ?_ known, (fun pause => nomatch pause)⟩
      exact Expr.paired_of_operands rfl (by simp [Expr.operands])
    · exact lifetimeRest _
    · exact lifetimeRest _
    · exact pure same
  · exact pure same

theorem assignment : PairsExpr tokens (Parse.assignment rules) := by
  intro start
  refine (ternary pairing start).bind fun opening middle known => ?_
  refine (completed pairing known.1).bind fun target stop targetKnown => ?_
  have halts : Halts start target stop := by
    intro pause
    obtain ⟨rfl, rfl⟩ := targetKnown.2 pause
    exact known.2 pause
  refine ifCheck (fun operator _ _ pairs => ?_) (pure ⟨targetKnown.1, halts⟩)
  refine slot.bind fun afterOperator behind ⟨_, apart⟩ => ?_
  refine (pairing.assignment behind).bind fun value _ valueKnown => ?_
  refine pure ⟨.cons ?_ (targetKnown.1.append valueKnown.1), .of_not_pause rfl⟩
  exact Expr.paired_of_operands rfl
    (by simp [Expr.operands, halts.not_pause pairs, valueKnown.2.not_pause_of_slot apart])

theorem expression : GathersExpr tokens (Expr.Paired tokens) (Parse.expression rules) := by
  intro start
  refine setAllowUnidentified.bind fun _ _ _ => (assignment pairing _).bind fun expr _ known => ?_
  exact setCanPair.bind fun _ _ _ => setAllowUnidentified.bind fun _ _ _ => pure known.1

end

end Pairs

namespace Rules

theorem Pairing.next {rules : Rules} (pairing : rules.Pairing tokens) : rules.next.Pairing tokens where
  statement := Gathers.statement ⟨pairing.statement, pairing.expression⟩ (Pairs.expression pairing)
  expression := Pairs.expression pairing
  assignment := Pairs.assignment pairing
  ternary := Pairs.ternary pairing
  binary := Pairs.binary pairing
  unary := Pairs.unary pairing
  call := Pairs.call pairing

theorem pairing_upTo (bound : Nat) : (upTo bound).Pairing tokens := by
  induction bound with
  | zero => exact pairing_empty
  | succ bound ih => exact ih.next

end Rules

/-- No operand of a program that was read is a pause; a member or an element is taken of one only where a dot
or an accessor stands right behind the pause. -/
theorem parse_paired {source : String} {program : List Stmt} (parsed : parse source = .ok program) :
    ∀ expr ∈ Stmt.listParts program, expr.Paired (scan source) :=
  all_of_parse (fun bound => (Rules.pairing_upTo bound).statement) parsed

/-- Three pauses in front of an assignment whose parts are joined in seven ways. -/
theorem parse_paired_return : ∃ program,
    parse "return // c\n\nx = f(a, -b) ? c.d + 1 : e[0]++" = .ok program ∧
      (Stmt.listParts program).map Expr.isPause =
        [true, true, true, false, false, false, false, false, false, false, false, false, false, false,
          false, false, false, false, false, false] ∧
      ∀ expr ∈ Stmt.listParts program,
        expr.Paired (scan "return // c\n\nx = f(a, -b) ? c.d + 1 : e[0]++") := by
  have read : ∃ program, parse "return // c\n\nx = f(a, -b) ? c.d + 1 : e[0]++" = .ok program ∧
      (Stmt.listParts program).map Expr.isPause =
        [true, true, true, false, false, false, false, false, false, false, false, false, false, false,
          false, false, false, false, false, false] :=
    exists_ok (by decide +kernel)
  obtain ⟨program, parsed, pauses⟩ := read
  exact ⟨program, parsed, pauses, parse_paired parsed⟩

/-- An index on a line of its own is taken of the line break in front of it. -/
theorem pause_taken_as_owner : ¬∀ (source : String) (program : List Stmt), parse source = .ok program →
    ∀ expr ∈ Stmt.listParts program, ∀ operand ∈ expr.operands ++ expr.owner?.toList,
      operand.isPause = false := by
  intro claimed
  have read : ∃ program, parse "\n[1]" = .ok program ∧ ((Stmt.listParts program).any fun expr =>
      (expr.operands ++ expr.owner?.toList).any Expr.isPause) = true :=
    exists_ok (by decide +kernel)
  obtain ⟨program, parsed, taken⟩ := read
  obtain ⟨expr, member, taken⟩ := List.any_eq_true.mp taken
  obtain ⟨operand, among, pause⟩ := List.any_eq_true.mp taken
  rw [claimed _ program parsed expr member operand among] at pause
  cases pause

end GmlLayout
