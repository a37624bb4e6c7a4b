import GmlLayout.Proofs.Grammar.Completeness
import GmlLayout.Proofs.Grammar.StatementForms
import GmlLayout.Proofs.Layout.Moments
import GmlLayout.Proofs.Layout.SteadyStatements
import GmlLayout.Proofs.Token.Spelling

/-!
The normal form of the blanks in formatted text, read from its beginning on: on the page of a program, and
on every page on the way there that a statement, at whatever depth, ends on.
-/

namespace GmlLayout

/-- Fragments, first to last, whose blanks are in normal form; the margins consist of `blank`. -/
structure NormalForm (blank : Fragment) (fragments : List Fragment) : Prop where
  /-- A text stands first. -/
  textFirst : ∀ first later, fragments = first :: later → first.isBlank = false
  /-- Among blanks in a row there are at most two line breaks. -/
  fewBreaks : ∀ before run later, fragments = before ++ run ++ later →
    (∀ fragment ∈ run, fragment.isBlank = true) → run.count .newline ≤ 2
  /-- A space is next to another blank of its line in the margin only. -/
  spaceAlone : ∀ before left right later, fragments = before ++ left :: right :: later →
    left.Indents → right.Indents → left = .space ∨ right = .space →
    ∃ earlier margin, before = earlier ++ .newline :: margin ∧
      ∀ fragment ∈ margin ++ [left, right], fragment = blank
  /-- A line that ends in a blank has nothing else. -/
  noTrailing : ∀ before last later, fragments = before ++ last :: .newline :: later → last.Indents →
    ∃ earlier line, before = earlier ++ .newline :: line ∧ ∀ fragment ∈ line, fragment.Indents

namespace Buffer.Neat

variable {blank : Fragment} {buffer : Buffer}

theorem breaks_le (neat : Neat blank buffer) : breaks buffer ≤ 2 := by
  induction neat with
  | nil => exact Nat.zero_le _
  | text content neat ih => exact Nat.zero_le _
  | space neat ih => exact Nat.zero_le _
  | newline neat breakable few ih => exact Nat.succ_le_succ few
  | margin same indents neat below ih => rwa [breaks_of_indents indents]

theorem exists_margin (neat : Neat blank buffer) (below : 0 < breaks buffer) :
    ∃ margin earlier, buffer = margin ++ .newline :: earlier ∧
      ∀ fragment ∈ margin, fragment = blank ∧ fragment.Indents := by
  induction neat with
  | nil => exact absurd below (by decide)
  | text content neat ih => exact absurd below (by simp [breaks])
  | space neat ih => exact absurd below (by simp [breaks])
  | @newline buffer neat breakable few ih => exact ⟨[], buffer, rfl, by simp⟩
  | @margin fragment buffer same indents neat above ih =>
    obtain ⟨margin, earlier, rfl, blanks⟩ := ih above
    refine ⟨fragment :: margin, earlier, rfl, fun other member => ?_⟩
    obtain rfl | member := List.mem_cons.mp member
    · exact ⟨same, indents⟩
    · exact blanks other member

theorem exists_margin_of_indents {last : Fragment} (neat : Neat blank (last :: buffer))
    (below : 0 < breaks (last :: buffer)) (indents : last.Indents) :
    last = blank ∧ ∃ margin earlier, buffer = margin ++ .newline :: earlier ∧
      ∀ fragment ∈ margin, fragment = blank ∧ fragment.Indents := by
  obtain ⟨margin, earlier, shape, blanks⟩ := neat.exists_margin below
  cases margin with
  | nil =>
    cases shape
    obtain isSpace | isTab := indents
    · cases isSpace
    · cases isTab
  | cons first margin =>
    cases shape
    refine ⟨(blanks _ List.mem_cons_self).1, margin, earlier, rfl, fun fragment member => ?_⟩
    exact blanks fragment (List.mem_cons_of_mem _ member)

theorem count_le_breaks {run : List Fragment} (blanks : ∀ fragment ∈ run, fragment.isBlank = true) :
    run.count .newline ≤ breaks (run ++ buffer) := by
  induction run with
  | nil => exact Nat.zero_le _
  | cons fragment run ih =>
    have inner := ih fun other member => blanks other (List.mem_cons_of_mem _ member)
    cases fragment with
    | newline =>
      rw [List.count_cons_self]
      exact Nat.succ_le_succ inner
    | space | tab =>
      rw [List.count_cons_of_ne (by simp)]
      exact inner
    | text content => exact absurd (blanks _ List.mem_cons_self) (by simp [Fragment.isBlank])

theorem of_reverse {before later : List Fragment} (neat : Neat blank buffer)
    (shape : buffer.reverse = before ++ later) : Neat blank before.reverse := by
  have whole : buffer = later.reverse ++ before.reverse := by
    rw [← List.reverse_append, ← shape, List.reverse_reverse]
  rw [whole] at neat
  exact neat.of_append

theorem normalForm (neat : Neat blank buffer) : NormalForm blank buffer.reverse where
  textFirst first later shape := by
    have shape : buffer.reverse = [first] ++ later := shape
    have alone : Neat blank [first] := neat.of_reverse shape
    cases alone with
    | text content neat => rfl
    | newline neat breakable few => exact absurd rfl breakable.ne_nil
    | margin same indents neat below => exact absurd below (by decide)
  fewBreaks before run later shape blanks := by
    have upTo := neat.of_reverse shape
    rw [List.reverse_append] at upTo
    rw [← List.count_reverse]
    exact Nat.le_trans (count_le_breaks fun fragment member => blanks fragment (List.mem_reverse.mp member))
      upTo.breaks_le
  spaceAlone before left right later shape leftIndents rightIndents _ := by
    have split : buffer.reverse = before ++ [left, right] ++ later := by simp [shape]
    have upTo := neat.of_reverse split
    rw [List.reverse_append] at upTo
    change Neat blank (right :: left :: before.reverse) at upTo
    cases upTo with
    | text content neat => obtain isSpace | isTab := rightIndents <;> contradiction
    | space neat => obtain isSpace | isTab := leftIndents <;> contradiction
    | newline neat breakable few => obtain isSpace | isTab := rightIndents <;> contradiction
    | margin same indents neat below =>
      obtain ⟨leftSame, margin, earlier, behind, blanks⟩ := neat.exists_margin_of_indents below leftIndents
      refine ⟨earlier.reverse, margin.reverse, ?_, fun fragment member => ?_⟩
      · rw [← List.reverse_reverse before, behind]
        simp
      · simp only [List.mem_append, List.mem_reverse, List.mem_cons, List.not_mem_nil, or_false] at member
        obtain member | rfl | rfl := member
        · exact (blanks fragment member).1
        · exact leftSame
        · exact same
  noTrailing before last later shape lastIndents := by
    have split : buffer.reverse = before ++ [last, .newline] ++ later := by simp [shape]
    have upTo := neat.of_reverse split
    rw [List.reverse_append] at upTo
    change Neat blank (.newline :: last :: before.reverse) at upTo
    cases upTo with
    | newline neat breakable few =>
      obtain below | ⟨content, earlier, isText⟩ := breakable
      · obtain ⟨_, margin, earlier, behind, blanks⟩ := neat.exists_margin_of_indents below lastIndents
        refine ⟨earlier.reverse, margin.reverse, ?_, fun fragment member => ?_⟩
        · rw [← List.reverse_reverse before, behind]
          simp
        · exact (blanks fragment (List.mem_reverse.mp member)).2
      · cases isText
        obtain isSpace | isTab := lastIndents <;> contradiction
    | margin same indents neat below => obtain isSpace | isTab := indents <;> contradiction

end Buffer.Neat

open Print

/-- A page that a layout under the given settings passes: it is as wide as they want it, and in normal form
if its margins are tabs. -/
def Page.Passed (settings : Settings) (page : Page) : Prop :=
  ∃ tidy : Page, tidy.Tidy ∧ page = tidy.under settings

theorem Page.Passed.neat {settings : Settings} {page : Page} (passed : page.Passed settings) :
    Buffer.Neat settings.blank page.buffer := by
  obtain ⟨tidy, isTidy, rfl⟩ := passed
  exact isTidy.neat.spread settings.eq_blank_of_mem_unit settings.blank_indents

section

variable {α : Type} {pre : Page → Prop} {action : Print α} {post : α → Page → Prop}

theorem Print.Loose.passes (loose : Loose pre action post) {page : Page} (tidy : page.Tidy)
    (holds : pre page) (settings : Settings) :
    (after action page).Tidy ∧ post (given action page) (after action page) ∧
      given action (page.under settings) = given action page ∧
      after action (page.under settings) = (after action page).under settings := by
  obtain ⟨laid, ends, under⟩ := loose page tidy holds
  refine ⟨laid, ends, ?_, ?_⟩
  · rw [given, under]
  · rw [after, under]

end

section

variable {drawn : Token → Prop} (shown : ∀ token, drawn token → token.kind ≠ .newline → token.Shown)

include shown

theorem stmt_passes {statement : Stmt} (formed : statement.Formed drawn) {page : Page} (tidy : page.Tidy)
    (settings : Settings) :
    (after (stmt statement) page).Tidy ∧
      after (stmt statement) (page.under settings) = (after (stmt statement) page).under settings := by
  obtain ⟨laid, _, _, under⟩ := (quiet_stmt shown formed).loose.passes tidy trivial settings
  exact ⟨laid, under⟩

theorem passed_snoc {statement : Stmt} (formed : statement.Formed drawn) {page : Page} (tidy : page.Tidy)
    {settings : Settings} {inside : List Moment} (passed : ∀ moment ∈ inside, moment.page.Passed settings) :
    ∀ moment ∈ inside ++ [.ended (after (stmt statement) (page.under settings))],
      moment.page.Passed settings := by
  refine List.forall_mem_append.mpr ⟨passed, fun moment member => ?_⟩
  obtain rfl := List.mem_singleton.mp member
  exact ⟨_, stmt_passes shown formed tidy settings⟩

end

section

variable (drawn : Token → Prop) (settings : Settings)

/-- The pages at all moments of the statement's layout are passed, if it starts on a tidy one. -/
def Stmt.Passes (statement : Stmt) : Prop :=
  statement.Formed drawn → ∀ {page : Page}, page.Tidy →
    ∀ moment ∈ statement.moments (page.under settings), moment.page.Passed settings

def Stmt.ListPasses (statements : List Stmt) : Prop :=
  ListFormed drawn statements → ∀ {page : Page}, page.Tidy →
    ∀ moment ∈ listMoments statements (page.under settings), moment.page.Passed settings

def Stmt.BlockPasses (statements : List Stmt) : Prop :=
  ListFormed drawn statements → ∀ {onLines : Bool} {page : Page}, page.Tidy → page.Begun →
    ∀ moment ∈ blockMoments onLines statements (page.under settings), moment.page.Passed settings

def Stmt.CasesPass (cases : List (Case Stmt)) : Prop :=
  CasesFormed drawn cases → ∀ {page : Page}, page.Tidy → page.Begun ∧ page.Broken →
    ∀ moment ∈ branchMoments cases (page.under settings), moment.page.Passed settings

end

variable {drawn : Token → Prop} {settings : Settings}

namespace Stmt.Passes

variable (shown : ∀ token, drawn token → token.kind ≠ .newline → token.Shown)

include shown

theorem block {body : List Stmt} {afterOpen : Trivia} {written : Bool}
    (inside : BlockPasses drawn settings body) : Passes drawn settings (.block afterOpen body written) := by
  intro formed page tidy
  rw [Stmt.moments]
  refine passed_snoc shown formed tidy ?_
  obtain ⟨opened, begun, gives, ends⟩ :=
    (opens_openBlock shown formed.1 body).loose.passes tidy trivial settings
  rw [gives, ends]
  exact inside formed.2 opened begun

theorem conditionalAlone {test : Expr} {whenTrue : Stmt} {afterKeyword between afterElse : Trivia}
    {written : Bool} (first : Passes drawn settings whenTrue) :
    Passes drawn settings (.conditional afterKeyword test whenTrue between afterElse none written) := by
  intro formed page tidy
  rw [Stmt.moments]
  refine passed_snoc shown formed tidy ?_
  obtain ⟨keywordFormed, testFormed, trueFormed, _⟩ := formed
  obtain ⟨opened, _, _, ends⟩ :=
    (opens_openConditional shown keywordFormed testFormed whenTrue.isBlock).loose.passes tidy trivial settings
  rw [ends]
  exact first trueFormed opened

theorem conditional {test : Expr} {whenTrue whenFalse : Stmt} {afterKeyword between afterElse : Trivia}
    {written : Bool} (first : Passes drawn settings whenTrue) (second : Passes drawn settings whenFalse) :
    Passes drawn settings
      (.conditional afterKeyword test whenTrue between afterElse (some whenFalse) written) := by
  intro formed page tidy
  rw [Stmt.moments]
  refine passed_snoc shown formed tidy ?_
  obtain ⟨keywordFormed, testFormed, trueFormed, betweenFormed, elseFormed, falseFormed⟩ := formed
  obtain ⟨opened, begun, gives, ends⟩ :=
    (opens_openConditional shown keywordFormed testFormed whenTrue.isBlock).loose.passes tidy trivial settings
  obtain ⟨filled, begun, _, fills⟩ :=
    (quiet_stmt shown trueFormed).inner.loose.passes opened begun settings
  obtain ⟨turned, _, _, turns⟩ :=
    (inner_openElse shown betweenFormed elseFormed (given _ page) _).loose.passes filled begun settings
  dsimp only
  rw [gives, ends, fills, turns]
  exact List.forall_mem_append.mpr
    ⟨first trueFormed opened, second falseFormed turned⟩

theorem loop {keyword : Token} {test : Expr} {body : Stmt} {afterKeyword : Trivia} {written : Bool}
    (inside : Passes drawn settings body) :
    Passes drawn settings (.loop keyword afterKeyword test body written) := by
  intro formed page tidy
  rw [Stmt.moments]
  refine passed_snoc shown formed tidy ?_
  obtain ⟨keywordFormed, afterFormed, testFormed, bodyFormed⟩ := formed
  obtain ⟨opened, _, _, ends⟩ :=
    (opens_openLoop shown keywordFormed afterFormed testFormed).loose.passes tidy trivial settings
  rw [ends]
  exact inside bodyFormed opened

theorem doUntil {test : Expr} {body : Stmt} {afterKeyword between : Trivia} {written : Bool}
    (inside : Passes drawn settings body) :
    Passes drawn settings (.doUntil afterKeyword body between test written) := by
  intro formed page tidy
  rw [Stmt.moments]
  refine passed_snoc shown formed tidy ?_
  obtain ⟨keywordFormed, bodyFormed, _⟩ := formed
  obtain ⟨opened, _, _, ends⟩ := (opens_openDo shown keywordFormed).loose.passes tidy trivial settings
  rw [ends]
  exact inside bodyFormed opened

theorem forLoopBare {body : Stmt} {test increment : Option Expr}
    {afterKeyword afterOpen afterStart afterCondition afterIncrement afterClose : Trivia} {written : Bool}
    (inside : Passes drawn settings body) :
    Passes drawn settings (.forLoop afterKeyword afterOpen none afterStart test afterCondition
      increment afterIncrement afterClose body written) := by
  intro formed page tidy
  rw [Stmt.moments]
  refine passed_snoc shown formed tidy ?_
  obtain ⟨keywordFormed, openFormed, startFormed, testFormed, conditionFormed, incrementFormed,
    afterIncrementFormed, closeFormed, bodyFormed⟩ := formed
  obtain ⟨opened, begun, gives, ends⟩ :=
    (opens_openFor shown keywordFormed openFormed).loose.passes tidy trivial settings
  obtain ⟨stopped, begun, _, stops⟩ :=
    (opens_write (rfl : Fragment.ofText ";" = .text ";") true).inner.loose.passes opened begun settings
  obtain ⟨headed, _, _, heads⟩ := (inner_forHeader shown startFormed testFormed conditionFormed
    incrementFormed afterIncrementFormed closeFormed (given _ page)).loose.passes stopped begun settings
  dsimp only
  rw [gives, ends, stops, heads]
  exact inside bodyFormed headed

theorem forLoop {start body : Stmt} {test increment : Option Expr}
    {afterKeyword afterOpen afterStart afterCondition afterIncrement afterClose : Trivia} {written : Bool}
    (first : Passes drawn settings start) (inside : Passes drawn settings body) :
    Passes drawn settings (.forLoop afterKeyword afterOpen (some start) afterStart test afterCondition
      increment afterIncrement afterClose body written) := by
  intro formed page tidy
  rw [Stmt.moments]
  refine passed_snoc shown formed tidy ?_
  obtain ⟨keywordFormed, openFormed, firstFormed, startFormed, testFormed, conditionFormed,
    incrementFormed, afterIncrementFormed, closeFormed, bodyFormed⟩ := formed
  obtain ⟨opened, begun, gives, ends⟩ :=
    (opens_openFor shown keywordFormed openFormed).loose.passes tidy trivial settings
  obtain ⟨started, begun, _, starts⟩ :=
    (quiet_stmt shown firstFormed).inner.loose.passes opened begun settings
  obtain ⟨spaced, begun, _, spaces⟩ := inner_ensureSpace.loose.passes started begun settings
  obtain ⟨headed, _, _, heads⟩ := (inner_forHeader shown startFormed testFormed conditionFormed
    incrementFormed afterIncrementFormed closeFormed (given _ page)).loose.passes spaced begun settings
  dsimp only
  rw [gives, ends, starts, spaces, heads]
  exact List.forall_mem_append.mpr
    ⟨first firstFormed opened, inside bodyFormed headed⟩

theorem switch {subject : Expr} {cases : List (Case Stmt)} {afterKeyword afterOpen : Trivia}
    {written : Bool} (inside : CasesPass drawn settings cases) :
    Passes drawn settings (.switch afterKeyword subject afterOpen cases written) := by
  intro formed page tidy
  rw [Stmt.moments]
  refine passed_snoc shown formed tidy ?_
  obtain ⟨keywordFormed, subjectFormed, openFormed, casesFormed⟩ := formed
  obtain ⟨opened, below, _, ends⟩ :=
    (steady_openSwitch shown keywordFormed subjectFormed openFormed).loose.passes tidy trivial settings
  rw [ends]
  exact inside casesFormed opened below

theorem define {name : Expr} {body : List Stmt} {afterKeyword : Trivia}
    (inside : ListPasses drawn settings body) : Passes drawn settings (.define afterKeyword name body) := by
  intro formed page tidy
  rw [Stmt.moments]
  refine passed_snoc shown formed tidy ?_
  obtain ⟨keywordFormed, nameFormed, bodyFormed⟩ := formed
  obtain ⟨opened, _, _, ends⟩ :=
    (opens_openDefine shown keywordFormed nameFormed).loose.passes tidy trivial settings
  rw [ends]
  exact inside bodyFormed opened

theorem enumeration {name : Expr} {members : Series Expr} {afterKeyword afterOpen : Trivia} {written : Bool} :
    Passes drawn settings (.enumeration afterKeyword name afterOpen members written) := by
  intro formed page tidy
  rw [Stmt.moments]
  refine passed_snoc shown formed tidy ?_
  obtain ⟨keywordFormed, nameFormed, openFormed, membersFormed⟩ := formed
  obtain ⟨filled, _, _, ends⟩ := (opens_enumerationMembers shown keywordFormed nameFormed openFormed
    membersFormed).loose.passes tidy trivial settings
  rw [ends]
  exact List.forall_mem_singleton.mpr ⟨_, filled, rfl⟩

/-- Inside of a statement without parts that are statements there is no other moment than its end. -/
theorem plain {statement : Stmt} (bare : ∀ page, statement.moments page = [.ended (after (stmt statement) page)]) :
    Passes drawn settings statement := by
  intro formed page tidy
  rw [bare]
  exact @passed_snoc _ shown _ formed _ tidy settings [] (List.forall_mem_nil _)

omit shown in
theorem nil : ListPasses drawn settings [] := by
  intro _ page tidy
  rw [Stmt.listMoments]
  exact List.forall_mem_nil _

theorem cons {first : Stmt} {others : List Stmt} (here : Passes drawn settings first)
    (later : ListPasses drawn settings others) : ListPasses drawn settings (first :: others) := by
  intro formed page tidy
  rw [Stmt.listMoments]
  obtain ⟨laid, ends⟩ := stmt_passes shown formed.1 tidy settings
  rw [ends]
  exact List.forall_mem_append.mpr ⟨here formed.1 tidy, later formed.2 laid⟩

omit shown in
theorem blockNil : BlockPasses drawn settings [] := by
  intro _ onLines page tidy begun
  rw [Stmt.blockMoments]
  exact List.forall_mem_nil _

theorem blockCons {first : Stmt} {others : List Stmt} (here : Passes drawn settings first)
    (later : BlockPasses drawn settings others) : BlockPasses drawn settings (first :: others) := by
  intro formed onLines page tidy begun
  rw [Stmt.blockMoments]
  obtain ⟨laid, filled, _, fills⟩ := (quiet_stmt shown formed.1).inner.loose.passes tidy begun settings
  obtain ⟨closed, filled, _, closes⟩ :=
    (inner_closeBlockStatement onLines first.hasSemicolon).loose.passes laid filled settings
  simp only [fills, closes]
  exact List.forall_mem_append.mpr ⟨here formed.1 tidy, later formed.2 closed filled⟩

omit shown in
theorem casesNil : CasesPass drawn settings [] := by
  intro _ page tidy below
  rw [Stmt.branchMoments]
  exact List.forall_mem_nil _

theorem casesCons {label : Option Expr} {body : List Stmt} {others : List (Case Stmt)}
    {afterKeyword afterColon : Trivia} (here : ListPasses drawn settings body)
    (later : CasesPass drawn settings others) :
    CasesPass drawn settings (⟨label, afterKeyword, afterColon, body⟩ :: others) := by
  intro formed page tidy below
  rw [Stmt.branchMoments]
  obtain ⟨labelFormed, keywordFormed, colonFormed, bodyFormed, othersFormed⟩ := formed
  obtain ⟨opened, settled, gives, ends⟩ :=
    (steady_openBranch shown labelFormed keywordFormed colonFormed).loose.passes tidy below settings
  obtain ⟨filled, settled, _, fills⟩ :=
    (quiet_stmts shown bodyFormed).inner.settled.loose.passes opened settled settings
  obtain ⟨closed, below, _, closes⟩ := (loose_closeBranch (given _ page)).passes filled settled settings
  rw [gives, ends, fills, closes]
  refine List.forall_mem_append.mpr ⟨List.forall_mem_append.mpr ⟨here bodyFormed opened, ?_⟩,
    later othersFormed closed below⟩
  exact List.forall_mem_singleton.mpr ⟨_, filled, rfl⟩

end Stmt.Passes

namespace Stmt

mutual

theorem passes (shown : ∀ token, drawn token → token.kind ≠ .newline → token.Shown) :
    (statement : Stmt) → Passes drawn settings statement
  | .enumeration .. => Passes.enumeration shown
  | .block _ body _ => Passes.block shown (blockPasses shown body)
  | .conditional _ _ whenTrue _ _ none _ => Passes.conditionalAlone shown (passes shown whenTrue)
  | .conditional _ _ whenTrue _ _ (some whenFalse) _ =>
    Passes.conditional shown (passes shown whenTrue) (passes shown whenFalse)
  | .loop _ _ _ body _ => Passes.loop shown (passes shown body)
  | .doUntil _ body _ _ _ => Passes.doUntil shown (passes shown body)
  | .forLoop _ _ none _ _ _ _ _ _ body _ => Passes.forLoopBare shown (passes shown body)
  | .forLoop _ _ (some start) _ _ _ _ _ _ body _ =>
    Passes.forLoop shown (passes shown start) (passes shown body)
  | .switch _ _ _ cases _ => Passes.switch shown (casesPass shown cases)
  | .define _ _ body => Passes.define shown (listPasses shown body)
  | .declaration .. | .expression .. | .returning .. | .breaking _ | .exiting _ | .remark .. =>
    Passes.plain shown fun _ => by rw [moments]; rfl

theorem listPasses (shown : ∀ token, drawn token → token.kind ≠ .newline → token.Shown) :
    (statements : List Stmt) → ListPasses drawn settings statements
  | [] => Passes.nil
  | first :: others => Passes.cons shown (passes shown first) (listPasses shown others)

theorem blockPasses (shown : ∀ token, drawn token → token.kind ≠ .newline → token.Shown) :
    (statements : List Stmt) → BlockPasses drawn settings statements
  | [] => Passes.blockNil
  | first :: others => Passes.blockCons shown (passes shown first) (blockPasses shown others)

theorem casesPass (shown : ∀ token, drawn token → token.kind ≠ .newline → token.Shown) :
    (cases : List (Case Stmt)) → CasesPass drawn settings cases
  | [] => Passes.casesNil
  | ⟨_, _, _, body⟩ :: others => Passes.casesCons shown (listPasses shown body) (casesPass shown others)

end

end Stmt

theorem tidy_blank : (Page.blank { useSpaces := false }).Tidy :=
  ⟨rfl, .nil, fun ended => by cases ended⟩

theorem shown_of_mem_scan {source : String} (token : Token) (member : token ∈ scan source)
    (visible : token.kind ≠ .newline) : token.Shown :=
  Fragment.ofText_eq_text (lexeme_ne_blank member visible)

def Page.filled (statements : List Stmt) : Page :=
  after (stmts statements) (Page.blank { useSpaces := false })

section

variable {source : String} {program : List Stmt} (parsed : parse source = .ok program)

include parsed

theorem tidy_filled : (Page.filled program).Tidy :=
  ((quiet_stmts shown_of_mem_scan (parse_formed parsed)).loose.passes tidy_blank trivial {}).1

theorem after_stmts_under (settings : Settings) :
    after (stmts program) (Page.blank settings) = (Page.filled program).under settings :=
  ((quiet_stmts shown_of_mem_scan (parse_formed parsed)).loose.passes tidy_blank trivial settings).2.2.2

theorem buffer_layOut (settings : Settings) :
    (layOut settings program).buffer = List.replicate settings.newlinesAtEnd .newline
      ++ Buffer.spread settings.unit ((Page.filled program).buffer.dropWhile Fragment.isBlank) := by
  have blanks : ∀ fragment ∈ settings.unit, fragment.isBlank = true := fun fragment member =>
    settings.eq_blank_of_mem_unit fragment member ▸ settings.blank_indents.isBlank
  have finished : (layOut settings program).buffer =
      List.replicate ((Page.filled program).under settings).settings.newlinesAtEnd .newline
        ++ ((Page.filled program).under settings).buffer.dropWhile Fragment.isBlank := by
    rw [← after_stmts_under parsed]
    rfl
  rw [finished]
  exact congrArg _ (Buffer.takeWhile_spread rfl blanks (Page.filled program).buffer).2

end

/-- The page of a program is the same under all settings, but for the width of its margins and the line
breaks at its end. -/
theorem layOut_spread {source : String} {program : List Stmt} (parsed : parse source = .ok program) :
    ∃ body : Buffer, Buffer.Neat .tab body ∧ body.breaks = 0 ∧
      ∀ settings, (layOut settings program).buffer =
        List.replicate settings.newlinesAtEnd .newline ++ body.spread settings.unit :=
  ⟨(Page.filled program).buffer.dropWhile Fragment.isBlank, (tidy_filled parsed).neat.dropWhile _,
    Buffer.breaks_dropWhile _, buffer_layOut parsed⟩

/-- Whatever the settings, the blanks of a formatted text are in normal form, up to the line breaks at its
end, and so they are after each statement on the way. -/
theorem layOut_normalForm (settings : Settings) {source : String} {program : List Stmt}
    (parsed : parse source = .ok program) :
    (∃ body, (layOut settings program).buffer.reverse =
        body ++ List.replicate settings.newlinesAtEnd .newline ∧ NormalForm settings.blank body) ∧
      ∀ page ∈ Stmt.listPages program (Page.blank settings),
        NormalForm settings.blank page.buffer.reverse := by
  constructor
  · obtain ⟨body, neat, _, laid⟩ := layOut_spread parsed
    refine ⟨(body.spread settings.unit).reverse, ?_, ?_⟩
    · rw [laid, List.reverse_append, List.reverse_replicate]
    · exact (neat.spread settings.eq_blank_of_mem_unit settings.blank_indents).normalForm
  · intro page member
    have start : Page.blank settings = (Page.blank { useSpaces := false }).under settings := rfl
    rw [start] at member
    obtain ⟨moment, member, ended⟩ := List.mem_filterMap.mp member
    have passed := Stmt.listPasses shown_of_mem_scan program (parse_formed parsed) tidy_blank moment member
    cases moment with
    | ended other =>
      obtain rfl := Option.some.inj ended
      exact passed.neat.normalForm
    | tearing other => cases ended

/-- A blank line inside a block keeps its margin, and two of them become one. -/
theorem layOut_normalForm_block : ∃ program,
    parse "if a  \x7b\n b;\n\n\n\n c\n\x7d" = .ok program ∧
      (layOut {} program).output = "if a \x7b\n    b;\n    \n    c;\n\x7d\n" ∧
      (∃ body, (layOut {} program).buffer.reverse = body ++ [.newline] ∧ NormalForm .space body) ∧
      ∀ page ∈ Stmt.listPages program (Page.blank {}), NormalForm .space page.buffer.reverse := by
  have parses : ∃ program, parse "if a  \x7b\n b;\n\n\n\n c\n\x7d" = .ok program ∧
      (layOut {} program).output = "if a \x7b\n    b;\n    \n    c;\n\x7d\n" :=
    exists_ok (by decide +kernel)
  obtain ⟨program, parsed, output⟩ := parses
  exact ⟨program, parsed, output, layOut_normalForm {} parsed⟩

end GmlLayout
