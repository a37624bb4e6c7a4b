import GmlLayout.Proofs.Grammar.Yield

/-!
What a parser looks at. It goes forward and looks at most at the next token, so two runs on tokens that
start alike go on alike until one of them has come to where the tokens may differ. This is stated of two
parsers at once, which may be built from different rules, for inputs of a bounded number of tokens: so it
also says that a bound which is large enough does not show. Where a run fails, the error names the token
that was taken last, or the tokens are at their end.
-/

namespace GmlLayout

namespace ParseError

def token? : ParseError → Option Token
  | .unexpectedToken token => some token
  | .unknownInSwitch token => some token
  | .unexpectedEnd => none

theorem eq_unexpectedEnd {cause : ParseError} (none : cause.token? = none) : cause = .unexpectedEnd := by
  cases cause with
  | unexpectedEnd => rfl
  | unexpectedToken token | unknownInSwitch token => cases none

/-- Between the tokens in front of a parser and those behind its failure, the error names the last one.
Without a token to name, nothing is left. -/
def Located (cause : ParseError) (start stop : List Token) : Prop :=
  match cause.token? with
  | some token => ∃ before, start = before ++ token :: stop
  | none => stop = []

/-- The failure is decided by the first `shared` tokens. The end of the tokens has to lie in front of
where they may differ. -/
def Within (cause : ParseError) (shared : Nat) (start stop : List Token) : Prop :=
  start.length ≤ stop.length + shared ∧ (cause.token? = none → start.length < shared)

theorem Located.nil_or_length_lt {cause : ParseError} {start stop : List Token}
    (located : cause.Located start stop) :
    (cause.token? = none ∧ stop = []) ∨ stop.length < start.length := by
  unfold Located at located
  split at located
  · obtain ⟨before, rfl⟩ := located
    right
    simp only [List.length_append, List.length_cons]
    omega
  · rename_i unnamed
    exact .inl ⟨unnamed, located⟩

theorem Located.length_le {cause : ParseError} {start stop : List Token}
    (located : cause.Located start stop) : stop.length ≤ start.length := by
  obtain ⟨_, rfl⟩ | shorter := located.nil_or_length_lt
  · exact Nat.zero_le _
  · exact Nat.le_of_lt shorter

theorem Located.extend {cause : ParseError} {start stop : List Token}
    (located : cause.Located start stop) (taken : List Token) : cause.Located (taken ++ start) stop := by
  unfold Located at located ⊢
  split
  · rename_i token named
    rw [named] at located
    obtain ⟨before, rfl⟩ := located
    exact ⟨taken ++ before, by rw [List.append_assoc]⟩
  · rename_i none
    rw [none] at located
    exact located

/-- A failure that is decided by the shared tokens comes behind what was taken before it, so that was
shared too. -/
theorem Located.early {cause : ParseError} {taken start stop : List Token} {shared : Nat}
    (located : cause.Located start stop) (within : cause.Within shared (taken ++ start) stop) :
    taken.length < shared ∧ cause.Within (shared - taken.length) start stop := by
  have long := located.length_le
  have reach := within.1
  have whole := within.2
  rw [List.length_append] at reach whole
  have early : taken.length < shared := by
    obtain ⟨unnamed, _⟩ | shorter := located.nil_or_length_lt
    · have := whole unnamed
      omega
    · omega
  exact ⟨early, by omega, fun none => by have := whole none; omega⟩

end ParseError

/-- Tokens that start alike share what one of them starts with, and go on alike behind it. -/
theorem shared_append {rest taken left : List Token} {shared : Nat}
    (same : rest.take shared = (taken ++ left).take shared) (within : taken.length ≤ shared) :
    rest = taken ++ rest.drop taken.length ∧
      (rest.drop taken.length).take (shared - taken.length) = left.take (shared - taken.length) := by
  have front : rest.take taken.length = taken := by
    have both := congrArg (List.take taken.length) same
    rwa [List.take_take, List.take_take, Nat.min_eq_left within, List.take_left] at both
  refine ⟨?_, ?_⟩
  · have whole := List.take_append_drop taken.length rest
    rw [front] at whole
    exact whole.symm
  · have both := congrArg (List.drop taken.length) same
    rwa [List.drop_take, List.drop_take, List.drop_left] at both

theorem head?_of_shared {first second : List Token} {shared : Nat}
    (same : first.take shared = second.take shared) (some : 0 < shared) : first.head? = second.head? := by
  have heads := congrArg List.head? same
  rwa [List.head?_take, List.head?_take, if_neg (Nat.ne_of_gt some), if_neg (Nat.ne_of_gt some)] at heads

/-- Where the trivia that comes next is shared, with the token behind it, it ends at the same token. -/
theorem slot_of_shared {first second : List Token} {shared : Nat}
    (same : first.take shared = second.take shared)
    (within : (second.takeWhile (·.kind.isTrivia)).length < shared) :
    first.takeWhile (·.kind.isTrivia) = second.takeWhile (·.kind.isTrivia) ∧
      first.dropWhile (·.kind.isTrivia) =
        first.drop (second.takeWhile (·.kind.isTrivia)).length := by
  have split : second.takeWhile (·.kind.isTrivia) ++ second.dropWhile (·.kind.isTrivia) = second :=
    List.takeWhile_append_dropWhile
  rw [← split] at same
  obtain ⟨whole, alike⟩ := shared_append same (Nat.le_of_lt within)
  have inside : ∀ token ∈ second.takeWhile (·.kind.isTrivia), token.kind.isTrivia = true :=
    List.all_eq_true.mp List.all_takeWhile
  have next := head?_of_shared alike (Nat.sub_pos_of_lt within)
  have stops := List.head?_dropWhile_not (fun token : Token => token.kind.isTrivia) second
  rw [← next] at stops
  generalize first.drop (second.takeWhile (·.kind.isTrivia)).length = behind at whole stops
  rw [whole, List.takeWhile_append_of_pos inside, List.dropWhile_append_of_pos inside]
  cases behind with
  | nil => simp
  | cons token behind =>
    have other : token.kind.isTrivia = false := by simpa using stops
    simp [other]

/-- For inputs of at most `most` tokens, `other` does what `parser` does, also when it is given other
tokens, as long as those that `parser` takes, and the one behind them, are among the first `shared` and
these are the same. If it `takes`, it takes at least one token. An error may name the tokens that are
`held`, which were taken right before. -/
structure Alike {α : Type} (most : Nat) (takes : Bool) (held : List Token) (parser other : Parse α) :
    Prop where
  returns : ∀ {start : Reader} {value : α} {stop : Reader}, start.rest.length ≤ most →
    parser start = .ok value stop →
    ∃ taken, start.rest = taken ++ stop.rest ∧ (takes = true → taken ≠ []) ∧
      ∀ {shared : Nat} {rest : List Token}, rest.length ≤ most →
        rest.take shared = start.rest.take shared → taken.length < shared →
        other { start with rest := rest } = .ok value { stop with rest := rest.drop taken.length }
  refuses : ∀ {start : Reader} {cause : ParseError} {stop : Reader}, start.rest.length ≤ most →
    parser start = .error cause stop →
    cause.Located (held ++ start.rest) stop.rest ∧
      ∀ {shared : Nat} {rest : List Token}, rest.length ≤ most →
        rest.take shared = start.rest.take shared → cause.Within shared start.rest stop.rest →
        ∃ finish, other { start with rest := rest } = .error cause finish ∧
          finish.rest = rest.drop (start.rest.length - stop.rest.length)

theorem bind_eq_error {α β : Type} {parser : Parse α} {next : α → Parse β} {start stop : Reader}
    {cause : ParseError} (failed : (parser >>= next) start = .error cause stop) :
    parser start = .error cause stop ∨
      ∃ first middle, parser start = .ok first middle ∧ next first middle = .error cause stop := by
  change EStateM.bind parser next start = _ at failed
  unfold EStateM.bind at failed
  split at failed
  · rename_i first middle ran
    exact .inr ⟨first, middle, ran, failed⟩
  · rename_i ran
    cases failed
    exact .inl ran

theorem bind_of_error {α β : Type} {parser : Parse α} {next : α → Parse β} {start stop : Reader}
    {cause : ParseError} (failed : parser start = .error cause stop) :
    (parser >>= next) start = .error cause stop := by
  change EStateM.bind parser next start = _
  unfold EStateM.bind
  rw [failed]

namespace Parse

theorem advance_cons {start : Reader} {token : Token} {rest : List Token}
    (shape : start.rest = token :: rest) :
    advance start = .ok token { start with rest := rest } := by
  unfold advance
  rw [bind_of_ok (show (get : Parse Reader) start = .ok start start from rfl), shape]
  rfl

theorem advance_nil {start : Reader} (none : start.rest = []) :
    advance start = .error .unexpectedEnd start := by
  unfold advance
  rw [bind_of_ok (show (get : Parse Reader) start = .ok start start from rfl), none]
  rfl

end Parse

def FailsAtEnd {α : Type} (parser : Parse α) : Prop :=
  ∀ start : Reader, start.rest = [] → ∃ stop, parser start = .error .unexpectedEnd stop ∧ stop.rest = []

/-- At the end of the tokens the parser returns `value` and changes nothing. -/
def RestsAtEnd {α : Type} (parser : Parse α) (value : α) : Prop :=
  ∀ start : Reader, start.rest = [] → parser start = .ok value start

namespace RestsAtEnd

variable {α β : Type}

theorem pure {value : α} : RestsAtEnd (Pure.pure value) value :=
  fun _ _ => rfl

theorem bind {parser : Parse α} {next : α → Parse β} {first : α} {value : β}
    (front : RestsAtEnd parser first) (back : RestsAtEnd (next first) value) : RestsAtEnd (parser >>= next) value := by
  intro start none
  rw [bind_of_ok (front start none)]
  exact back start none

theorem peek : RestsAtEnd Parse.peek none := by
  intro start none
  change EStateM.Result.ok (start.rest.head?.map Token.kind) start = _
  rw [none]
  rfl

theorem sees {accepted : Kind → Bool} : RestsAtEnd (Parse.sees accepted) false := by
  intro start none
  rw [Parse.sees_run, none]
  rfl

theorem check {accepted : Kind → Bool} : RestsAtEnd (Parse.check accepted) false := by
  intro start none
  rw [Parse.check_run, none]
  simp

theorem accept {kind : Kind} : RestsAtEnd (Parse.accept kind) false :=
  check.bind pure

end RestsAtEnd

namespace FailsAtEnd

variable {α β : Type}

theorem throw : FailsAtEnd (MonadExcept.throw ParseError.unexpectedEnd : Parse α) :=
  fun start none => ⟨start, rfl, none⟩

theorem advance : FailsAtEnd Parse.advance :=
  fun start none => ⟨start, Parse.advance_nil none, none⟩

theorem bind {parser : Parse α} {next : α → Parse β} (front : FailsAtEnd parser) : FailsAtEnd (parser >>= next) := by
  intro start none
  obtain ⟨stop, failed, left⟩ := front start none
  exact ⟨stop, bind_of_error failed, left⟩

theorem after {parser : Parse α} {next : α → Parse β} {first : α} (front : RestsAtEnd parser first)
    (back : FailsAtEnd (next first)) : FailsAtEnd (parser >>= next) := by
  intro start none
  rw [bind_of_ok (front start none)]
  exact back start none

end FailsAtEnd

namespace Alike

variable {α β : Type} {most left : Nat} {takes further : Bool} {held : List Token}

theorem length_le_of_taken {start stop taken : List Token} (split : start = taken ++ stop)
    (some : takes = true → taken ≠ []) (short : start.length ≤ most)
    (fewer : most ≤ left + takes.toNat) : stop.length ≤ left := by
  have count := congrArg List.length split
  rw [List.length_append] at count
  cases takes with
  | true =>
    have := List.length_pos_iff.mpr (some rfl)
    simp only [Bool.toNat_true] at fewer
    omega
  | false =>
    simp only [Bool.toNat_false] at fewer
    omega

/-- Step by step. What comes second starts from fewer tokens if the first step takes one. -/
theorem bindTo {parser other : Parse α} {next otherNext : α → Parse β}
    (front : Alike most takes held parser other)
    (back : ∀ value, Alike left further [] (next value) (otherNext value))
    (fewer : most ≤ left + takes.toNat) :
    Alike most (takes || further) held (parser >>= next) (other >>= otherNext) where
  returns {start value stop} short done := by
    obtain ⟨first, middle, ran, rest⟩ := bind_eq_ok done
    obtain ⟨taken, split, some, same⟩ := front.returns short ran
    obtain ⟨later, split', some', same'⟩ :=
      (back first).returns (length_le_of_taken split some short fewer) rest
    refine ⟨taken ++ later, by rw [split, split', List.append_assoc], ?_, ?_⟩
    · intro either none
      obtain ⟨noneFirst, noneLater⟩ := List.append_eq_nil_iff.mp none
      obtain yes | yes := Bool.or_eq_true_iff.mp either
      · exact some yes noneFirst
      · exact some' yes noneLater
    · intro shared tokens few alike within
      rw [List.length_append] at within
      rw [bind_of_ok (same few alike (by omega)), List.length_append, ← List.drop_drop]
      rw [split] at alike
      obtain ⟨again, alike⟩ := shared_append alike (by omega)
      exact same' (length_le_of_taken again some few fewer) alike (by omega)
  refuses {start cause stop} short failed := by
    obtain failed | ⟨first, middle, ran, rest⟩ := bind_eq_error failed
    · obtain ⟨located, same⟩ := front.refuses short failed
      refine ⟨located, fun few alike within => ?_⟩
      obtain ⟨finish, failed', ends⟩ := same few alike within
      exact ⟨finish, bind_of_error failed', ends⟩
    · obtain ⟨taken, split, some, same⟩ := front.returns short ran
      obtain ⟨located, same'⟩ :=
        (back first).refuses (length_le_of_taken split some short fewer) rest
      rw [List.nil_append] at located
      refine ⟨by rw [split]; exact (located.extend taken).extend held, ?_⟩
      intro shared tokens few alike within
      obtain ⟨early, within'⟩ := located.early (by rwa [← split])
      have long := located.length_le
      have count := congrArg List.length split
      rw [List.length_append] at count
      rw [bind_of_ok (same few alike early)]
      rw [split] at alike
      obtain ⟨again, alike⟩ := shared_append alike (by omega)
      obtain ⟨finish, failed', ends⟩ := same' (length_le_of_taken again some few fewer) alike within'
      refine ⟨finish, failed', ?_⟩
      rw [ends, List.drop_drop]
      congr 1
      omega

theorem relax {parser other : Parse α} (alike : Alike most true held parser other) :
    Alike most false held parser other where
  returns short done := by
    obtain ⟨taken, split, _, same⟩ := alike.returns short done
    exact ⟨taken, split, nofun, same⟩
  refuses := alike.refuses

theorem mono {parser other : Parse α} (alike : Alike most takes held parser other)
    (fewer : left ≤ most) : Alike left takes held parser other where
  returns short done := by
    obtain ⟨taken, split, some, same⟩ := alike.returns (Nat.le_trans short fewer) done
    exact ⟨taken, split, some, fun few => same (Nat.le_trans few fewer)⟩
  refuses short failed := by
    obtain ⟨located, same⟩ := alike.refuses (Nat.le_trans short fewer) failed
    exact ⟨located, fun few => same (Nat.le_trans few fewer)⟩

theorem hold {parser other : Parse α} (alike : Alike most takes [] parser other) (held : List Token) :
    Alike most takes held parser other where
  returns := alike.returns
  refuses short failed := by
    obtain ⟨located, same⟩ := alike.refuses short failed
    exact ⟨located.extend held, same⟩

theorem bind {parser other : Parse α} {next otherNext : α → Parse β}
    (front : Alike most takes held parser other)
    (back : ∀ value, Alike most false [] (next value) (otherNext value)) :
    Alike most false held (parser >>= next) (other >>= otherNext) := by
  have both := front.bindTo back (Nat.le_add_right _ _)
  cases takes with
  | true => exact both.relax
  | false => exact both

theorem after {parser other : Parse α} {next otherNext : α → Parse β}
    (front : Alike (left + 1) true held parser other)
    (back : ∀ value, Alike left false [] (next value) (otherNext value)) :
    Alike (left + 1) true held (parser >>= next) (other >>= otherNext) :=
  front.bindTo back (Nat.le_refl _)

theorem before {parser other : Parse α} {next otherNext : α → Parse β}
    (front : Alike most false held parser other)
    (back : ∀ value, Alike most true [] (next value) (otherNext value)) :
    Alike most true held (parser >>= next) (other >>= otherNext) :=
  front.bindTo back (Nat.le_add_right _ _)

theorem ite {test : Prop} [Decidable test] {first second otherFirst otherSecond : Parse α}
    (yes : Alike most takes held first otherFirst) (no : Alike most takes held second otherSecond) :
    Alike most takes held (if test then first else second)
      (if test then otherFirst else otherSecond) := by
  split
  · exact yes
  · exact no

theorem idle {parser : Parse α}
    (still : ∀ (start : Reader) (rest : List Token), rest.head? = start.rest.head? →
      ∃ value stop, parser start = .ok value stop ∧ stop.rest = start.rest ∧
        parser { start with rest := rest } = .ok value { stop with rest := rest }) :
    Alike most false [] parser parser where
  returns {start value stop} short done := by
    refine ⟨[], ?_, nofun, fun few alike within => ?_⟩
    · obtain ⟨_, _, ran, kept, _⟩ := still start start.rest rfl
      rw [ran] at done
      cases done
      exact kept.symm
    · obtain ⟨_, _, ran, _, again⟩ := still start _ (head?_of_shared alike within)
      rw [ran] at done
      cases done
      exact again
  refuses {start cause stop} short failed := by
    obtain ⟨_, _, ran, _⟩ := still start start.rest rfl
    rw [ran] at failed
    cases failed

theorem pure {value : α} : Alike most false [] (Pure.pure value) (Pure.pure value) :=
  idle fun start _ _ => ⟨value, start, rfl, rfl, rfl⟩

theorem setCanPair {canPair : Bool} :
    Alike most false [] (Parse.setCanPair canPair) (Parse.setCanPair canPair) :=
  idle fun _ _ _ => ⟨(), _, rfl, rfl, rfl⟩

theorem setAllowUnidentified {allowed : Bool} :
    Alike most false [] (Parse.setAllowUnidentified allowed) (Parse.setAllowUnidentified allowed) :=
  idle fun _ _ _ => ⟨(), _, rfl, rfl, rfl⟩

theorem postpone {stmt : Stmt} :
    Alike most false [] (Parse.postpone stmt) (Parse.postpone stmt) :=
  idle fun _ _ _ => ⟨(), _, rfl, rfl, rfl⟩

theorem takeLeftovers : Alike most false [] Parse.takeLeftovers Parse.takeLeftovers :=
  idle fun _ _ _ => ⟨_, _, rfl, rfl, rfl⟩

theorem peek : Alike most false [] Parse.peek Parse.peek :=
  idle fun start rest same => ⟨start.rest.head?.map Token.kind, start, rfl, rfl, by rw [← same]; rfl⟩

theorem sees {accepted : Kind → Bool} :
    Alike most false [] (Parse.sees accepted) (Parse.sees accepted) :=
  idle fun start rest same => ⟨_, start, Parse.sees_run accepted start, rfl, by
    rw [Parse.sees_run, same]⟩

theorem check {accepted : Kind → Bool} :
    Alike most false [] (Parse.check accepted) (Parse.check accepted) :=
  idle fun start rest same => ⟨_, start, Parse.check_run accepted start, rfl, by
    rw [Parse.check_run, same]⟩

theorem onFlag {flag : Reader → Bool}
    (blind : ∀ reader rest, flag { reader with rest := rest } = flag reader)
    {first second otherFirst otherSecond : Parse α} (yes : Alike most takes held first otherFirst)
    (no : Alike most takes held second otherSecond) :
    Alike most takes held (MonadState.get >>= fun reader => if flag reader then first else second)
      (MonadState.get >>= fun reader => if flag reader then otherFirst else otherSecond) where
  returns {start value stop} short done := by
    obtain ⟨taken, shape, some, same⟩ := (@ite _ _ _ _ (flag start) _ _ _ _ _ yes no).returns short done
    refine ⟨taken, shape, some, fun {shared rest} few shares within => ?_⟩
    have again := same few shares within
    rwa [← blind start rest] at again
  refuses {start cause stop} short failed := by
    obtain ⟨located, same⟩ := (@ite _ _ _ _ (flag start) _ _ _ _ _ yes no).refuses short failed
    refine ⟨located, fun {shared rest} few shares within => ?_⟩
    have again := same few shares within
    rwa [← blind start rest] at again

theorem onHead {parser other : Parse α}
    (split : ∀ head : Option Token, ∃ chosen otherChosen, Alike most takes [] chosen otherChosen ∧
      ∀ start : Reader, start.rest.head? = head →
        parser start = chosen start ∧ other start = otherChosen start) :
    Alike most takes [] parser other where
  returns {start value stop} short done := by
    obtain ⟨chosen, otherChosen, alike, ran⟩ := split start.rest.head?
    rw [(ran start rfl).1] at done
    obtain ⟨taken, shape, some, same⟩ := alike.returns short done
    refine ⟨taken, shape, some, fun {shared rest} few shares within => ?_⟩
    have next := head?_of_shared shares (Nat.zero_lt_of_lt within)
    rw [(ran { start with rest := rest } next).2]
    exact same few shares within
  refuses {start cause stop} short failed := by
    obtain ⟨chosen, otherChosen, alike, ran⟩ := split start.rest.head?
    rw [(ran start rfl).1] at failed
    obtain ⟨located, same⟩ := alike.refuses short failed
    refine ⟨located, fun {shared rest} few shares within => ?_⟩
    have next := head?_of_shared shares (@ParseError.Located.early cause [] _ _ _ located within).1
    rw [(ran { start with rest := rest } next).2]
    exact same few shares within

theorem slot : Alike most false [] Parse.slot Parse.slot where
  returns {start value stop} short done := by
    cases done
    refine ⟨_, List.takeWhile_append_dropWhile.symm, nofun, fun {shared rest} few shares within => ?_⟩
    obtain ⟨same, behind⟩ := slot_of_shared shares within
    change EStateM.Result.ok (rest.takeWhile _) _ = _
    rw [same]
    simp only [behind]
  refuses short failed := nomatch failed

theorem refuse {cause : ParseError} {token : Token} (names : cause.token? = some token) :
    Alike most takes [token] (MonadExcept.throw cause : Parse α) (MonadExcept.throw cause) where
  returns short done := nomatch done
  refuses {start _ stop} short failed := by
    cases failed
    refine ⟨?_, fun few shares within => ⟨_, rfl, by simp⟩⟩
    simp only [ParseError.Located, names]
    exact ⟨[], rfl⟩

theorem take {next otherNext : Token → Parse α}
    (back : ∀ token, Alike left false [token] (next token) (otherNext token)) :
    Alike (left + 1) true [] (Parse.advance >>= next) (Parse.advance >>= otherNext) := by
  constructor
  · intro start value stop short done
    obtain ⟨token, middle, ran, rest⟩ := bind_eq_ok done
    obtain ⟨behind, shape, rfl⟩ := Parse.advance_run ran
    rw [shape, List.length_cons] at short
    obtain ⟨taken, split, _, same⟩ := (back token).returns (Nat.le_of_succ_le_succ short) rest
    refine ⟨token :: taken, by rw [shape]; exact congrArg (token :: ·) split, nofun, ?_⟩
    intro shared tokens few shares within
    rw [shape] at shares
    obtain ⟨again, shares⟩ :=
      @shared_append tokens [token] behind shared shares (Nat.one_le_of_lt within)
    have fewer := congrArg List.length again
    rw [List.length_append, List.length_singleton] at fewer
    rw [bind_of_ok (Parse.advance_cons again)]
    have later := same (by simp only [List.length_singleton]; omega) shares
      (by rw [List.length_cons] at within; simp only [List.length_singleton]; omega)
    rwa [List.drop_drop, List.length_singleton, Nat.add_comm] at later
  · intro start cause stop short failed
    cases shape : start.rest with
    | nil =>
      rw [bind_of_error (Parse.advance_nil shape)] at failed
      cases failed
      refine ⟨by simp [ParseError.Located, ParseError.token?, shape], fun few shares within => ?_⟩
      have none := head?_of_shared shares (within.2 rfl)
      have none := List.head?_eq_none_iff.mp none
      exact ⟨_, bind_of_error (Parse.advance_nil none), by simp [none]⟩
    | cons token behind =>
      rw [bind_of_ok (Parse.advance_cons shape)] at failed
      rw [shape, List.length_cons] at short
      obtain ⟨located, same⟩ := (back token).refuses (Nat.le_of_succ_le_succ short) failed
      refine ⟨located, fun {shared tokens} few shares within => ?_⟩
      have some : 0 < shared := (@ParseError.Located.early cause [] _ _ _ located within).1
      obtain ⟨again, shares⟩ := @shared_append tokens [token] behind shared shares some
      have fewer := congrArg List.length again
      rw [List.length_append, List.length_singleton] at fewer
      have later : stop.rest.length ≤ behind.length := by
        obtain ⟨_, left⟩ | shorter := located.nil_or_length_lt
        · rw [left]
          exact Nat.zero_le _
        · exact Nat.le_of_lt_succ shorter
      have inner : cause.Within (shared - 1) behind stop.rest := by
        have reach := within.1
        have whole := within.2
        rw [List.length_cons] at reach whole
        exact ⟨by omega, fun none => by have := whole none; omega⟩
      rw [bind_of_ok (Parse.advance_cons again)]
      obtain ⟨finish, failed', ends⟩ := same (by simp only [List.length_singleton]; omega) shares inner
      refine ⟨finish, failed', ?_⟩
      rw [ends, List.drop_drop]
      congr 1
      simp only [List.length_cons, List.length_nil]
      omega

theorem ended {parser other : Parse α} (own : FailsAtEnd parser) (others : FailsAtEnd other) :
    Alike 0 takes [] parser other where
  returns {start value stop} short done := by
    obtain ⟨_, failed, _⟩ := own start (List.length_eq_zero_iff.mp (Nat.le_zero.mp short))
    rw [failed] at done
    cases done
  refuses {start cause stop} short failed := by
    have none : start.rest = [] := List.length_eq_zero_iff.mp (Nat.le_zero.mp short)
    obtain ⟨_, failed', left⟩ := own start none
    rw [failed'] at failed
    cases failed
    refine ⟨by simpa [ParseError.Located, ParseError.token?] using left, fun {_ rest} few _ _ => ?_⟩
    have empty : rest = [] := List.length_eq_zero_iff.mp (Nat.le_zero.mp few)
    obtain ⟨finish, again, left'⟩ := others { start with rest := rest } empty
    exact ⟨finish, again, by simp [left', empty]⟩

theorem rested {parser other : Parse α} {value : α} (own : RestsAtEnd parser value)
    (others : RestsAtEnd other value) : Alike 0 false [] parser other where
  returns {start _ stop} short done := by
    rw [own start (List.length_eq_zero_iff.mp (Nat.le_zero.mp short))] at done
    cases done
    refine ⟨[], rfl, nofun, fun {_ rest} few _ _ => ?_⟩
    exact others _ (List.length_eq_zero_iff.mp (Nat.le_zero.mp few))
  refuses {start cause stop} short failed := by
    rw [own start (List.length_eq_zero_iff.mp (Nat.le_zero.mp short))] at failed
    cases failed

theorem failsAtEnd {parser other : Parse α} (alike : Alike most true [] parser other) : FailsAtEnd parser := by
  intro start empty
  have short : start.rest.length ≤ most := by simp [empty]
  cases ran : parser start with
  | ok value stop =>
    obtain ⟨taken, split, some, _⟩ := alike.returns short ran
    rw [empty] at split
    exact absurd (List.append_eq_nil_iff.mp split.symm).1 (some rfl)
  | error cause stop =>
    obtain ⟨located, _⟩ := alike.refuses short ran
    rw [empty, List.append_nil] at located
    obtain ⟨unnamed, left⟩ | shorter := located.nil_or_length_lt
    · exact ⟨stop, by rw [ParseError.eq_unexpectedEnd unnamed], left⟩
    · exact absurd shorter (Nat.not_lt_zero _)

theorem other_failsAtEnd {parser other : Parse α} (alike : Alike most true [] parser other) : FailsAtEnd other := by
  intro start none
  obtain ⟨stop, failed, left⟩ := alike.failsAtEnd start none
  have short : start.rest.length ≤ most := by simp [none]
  have within : ParseError.unexpectedEnd.Within 1 start.rest stop.rest := by
    simp [ParseError.Within, none]
  obtain ⟨finish, failed', ends⟩ := (alike.refuses short failed).2 short rfl within
  exact ⟨finish, failed', by rw [ends, none, List.drop_nil]⟩

theorem advance : Alike most true [] Parse.advance Parse.advance := by
  cases most with
  | zero => exact ended .advance .advance
  | succ left =>
    have alike : Alike (left + 1) true [] (Parse.advance >>= Pure.pure) (Parse.advance >>= Pure.pure) :=
      take fun token => pure.hold [token]
    rwa [bind_pure] at alike

theorem accept {kind : Kind} : Alike most false [] (Parse.accept kind) (Parse.accept kind) :=
  check.bind fun _ => ite (advance.bind fun _ => pure) pure

end Alike

end GmlLayout
