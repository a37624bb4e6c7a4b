import GmlLayout.Proofs.Layout.Keeps

/-!
What a layout does to its surroundings. The frames, the chain of member accesses and the `for` headers that
are open belong to the constructs around an expression, and requests and exemptions are left for those behind
it. An expression closes every frame that it opens, uses up requests to groupings but makes none, and takes
back no request to a block and no exemption.
-/

namespace GmlLayout

namespace Page

/-- From one page to the other no frame, no chain and no header has been opened or closed, requests to blocks
and exemptions have only been added, and requests to groupings have only been used up. -/
structure Nests (page later : Page) : Prop where
  frames : later.frames = page.frames
  chain : later.chainIndents = page.chainIndents
  headers : later.forDepth = page.forDepth
  blocks : page.blockRequests <:+ later.blockRequests
  groups : later.groupRequests <:+ page.groupRequests
  exemptions : page.exemptions ≤ later.exemptions

/-- From one page to the other no chain and no header has been opened or closed, no frame has been closed, and
requests to groupings have only been used up. -/
structure Precedes (page later : Page) : Prop where
  frames : page.frames <:+ later.frames
  chain : later.chainIndents = page.chainIndents
  headers : later.forDepth = page.forDepth
  groups : later.groupRequests <:+ page.groupRequests

variable {page later last : Page}

/-- Neither the fragments nor the indentation, the end of the line or the oddities count. -/
theorem Nests.of_same (frames : later.frames = page.frames) (chain : later.chainIndents = page.chainIndents)
    (headers : later.forDepth = page.forDepth) (blocks : later.blockRequests = page.blockRequests)
    (groups : later.groupRequests = page.groupRequests) (exemptions : later.exemptions = page.exemptions) :
    page.Nests later :=
  ⟨frames, chain, headers, blocks ▸ List.suffix_rfl, groups ▸ List.suffix_rfl,
    Nat.le_of_eq exemptions.symm⟩

theorem Nests.refl (page : Page) : page.Nests page :=
  .of_same rfl rfl rfl rfl rfl rfl

theorem Nests.trans (first : page.Nests later) (second : later.Nests last) : page.Nests last where
  frames := second.frames.trans first.frames
  chain := second.chain.trans first.chain
  headers := second.headers.trans first.headers
  blocks := first.blocks.trans second.blocks
  groups := second.groups.trans first.groups
  exemptions := Nat.le_trans first.exemptions second.exemptions

theorem Nests.precedes (nests : page.Nests later) : page.Precedes later where
  frames := nests.frames ▸ List.suffix_rfl
  chain := nests.chain
  headers := nests.headers
  groups := nests.groups

theorem Precedes.refl (page : Page) : page.Precedes page :=
  (Nests.refl page).precedes

theorem Precedes.trans (first : page.Precedes later) (second : later.Precedes last) : page.Precedes last where
  frames := first.frames.trans second.frames
  chain := second.chain.trans first.chain
  headers := second.headers.trans first.headers
  groups := second.groups.trans first.groups

section

variable (page : Page)

theorem nests_write (content : String) (spaceAfter : Bool) : page.Nests (page.write content spaceAfter) := by
  cases spaceAfter <;> exact .of_same rfl rfl rfl rfl rfl rfl

theorem nests_ensureSpace : page.Nests page.ensureSpace := by
  unfold ensureSpace
  split <;> exact .of_same rfl rfl rfl rfl rfl rfl

theorem nests_newline (move : Move) : page.Nests (page.newline move) := by
  unfold newline
  split <;> exact .of_same rfl rfl rfl rfl rfl rfl

theorem nests_newlines (count : Nat) : page.Nests (page.newlines count) := by
  induction count generalizing page with
  | zero => exact .refl page
  | succ count ih => exact (page.nests_newline .stay).trans (ih _)

theorem nests_dropSpace : page.Nests page.dropSpace :=
  .of_same rfl rfl rfl rfl rfl rfl

theorem nests_writeSemicolon : page.Nests page.writeSemicolon :=
  page.nests_dropSpace.trans (nests_write _ ";" true)

theorem nests_placeSemicolon : page.Nests page.placeSemicolon := by
  unfold placeSemicolon
  split
  · exact page.nests_writeSemicolon
  · exact .of_same rfl rfl rfl rfl rfl rfl

theorem nests_exempt : page.Nests page.exempt :=
  ⟨rfl, rfl, rfl, List.suffix_rfl, List.suffix_rfl, Nat.le_succ _⟩

theorem nests_exemptIf (trailing : Bool) : page.Nests (page.exemptIf trailing) := by
  cases trailing
  · exact .refl page
  · exact page.nests_exempt

theorem nests_requestBlock (request : BlockRequest) : page.Nests (page.requestBlock request) :=
  ⟨rfl, rfl, rfl, List.suffix_cons _ _, List.suffix_rfl, Nat.le_refl _⟩

theorem groupRequests_takeGroupRequest :
    page.takeGroupRequest.2.groupRequests = page.groupRequests.tail := by
  unfold takeGroupRequest
  split <;> simp [*]

theorem nests_takeGroupRequest : page.Nests page.takeGroupRequest.2 := by
  have groups : page.takeGroupRequest.2.groupRequests <:+ page.groupRequests :=
    page.groupRequests_takeGroupRequest ▸ List.tail_suffix _
  unfold takeGroupRequest at groups ⊢
  split
  · exact .refl page
  · rename_i asked
    rw [asked] at groups
    exact ⟨rfl, rfl, rfl, List.suffix_rfl, asked ▸ List.suffix_cons _ _, Nat.le_refl _⟩

theorem nests_firstBreak (how : Instruction) (hint : Int) : page.Nests (page.firstBreak how hint) := by
  unfold firstBreak
  split
  · simp only
    split <;> exact .of_same rfl rfl rfl rfl rfl rfl
  · exact page.nests_newline how.move

theorem nests_writeRemark (how : Instruction) (token : Token) : page.Nests (page.writeRemark how token) :=
  ((page.nests_exemptIf _).trans (nests_ensureSpace _)).trans (nests_write _ _ _)

theorem nests_writeOddity (how : Instruction) (token : Token) : page.Nests (page.writeOddity how token) := by
  have noted : page.Nests { page with oddities := token :: page.oddities } := .of_same rfl rfl rfl rfl rfl rfl
  exact (noted.trans (nests_exemptIf _ how.trailing)).trans (nests_write _ token.lexeme true)

theorem nests_triviaFrom (how : Instruction) (opening : Opening) (moved : Bool) (slot : Trivia) :
    page.Nests (triviaFrom how opening moved slot page).2 := by
  induction slot generalizing opening moved page with
  | nil => exact .refl page
  | cons token rest ih =>
    unfold triviaFrom
    split
    · cases opening with
      | collapsing => exact ih page .collapsing moved
      | pending =>
        simp only
        split
        · exact ih page .collapsing moved
        · split
          · exact (page.nests_newline .stay).trans (ih _ _ _)
          · exact (page.nests_firstBreak how _).trans (ih _ _ _)
      | _ =>
        simp only
        split
        · exact (page.nests_newline .stay).trans (ih _ _ _)
        · exact (page.nests_firstBreak how _).trans (ih _ _ _)
    · split
      · exact (page.nests_writeRemark how token).trans (ih _ _ _)
      · exact (page.nests_writeOddity how token).trans (ih _ _ _)

theorem nests_trivia (slot : Trivia) (how : Instruction) : page.Nests (page.trivia slot how).2 := by
  unfold trivia
  split
  · exact .refl page
  · exact page.nests_triviaFrom how _ _ slot

end

/-- A frame opened on a page of which something holds, and not closed yet. -/
def InFrame (holds : Page → Prop) (page : Page) : Prop :=
  ∃ before, holds before ∧ before.openFrame.Nests page

/-- It would hold of the page if the chain that has been opened on it were closed. -/
def Chained (holds : Page → Prop) (outermost : Bool) (page : Page) : Prop :=
  page.chainIndents = false ∧ holds { page with chainIndents := outermost }

theorem Nests.closeFrame (nests : page.openFrame.Nests later) : page.Nests later.closeFrame := by
  obtain ⟨_, _, _, _, _, _, frames, _, _, _, _⟩ := later
  obtain ⟨opened, chain, headers, blocks, groups, exemptions⟩ := nests
  cases opened
  exact ⟨rfl, chain, headers, blocks, groups, exemptions⟩

end Page

namespace Print

open Page

variable {α β : Type}

/-- The layout keeps whatever holds of the surroundings of an expression. -/
def Stays (action : Print α) : Prop :=
  ∀ page : Page, page.Nests (after action page)

/-- Of a page that follows in the surroundings of an expression, the same holds. -/
def Lasting (holds : Page → Prop) : Prop :=
  ∀ page later, holds page → page.Nests later → holds later

theorem lasting_nests (base : Page) : Lasting base.Nests :=
  fun _ _ => Nests.trans

theorem lasting_precedes (base : Page) : Lasting base.Precedes :=
  fun _ _ first second => first.trans second.precedes

theorem lasting_inFrame (holds : Page → Prop) : Lasting (InFrame holds) := by
  rintro page later ⟨before, here, nests⟩ further
  exact ⟨before, here, nests.trans further⟩

theorem lasting_chained {holds : Page → Prop} (lasting : Lasting holds) (outermost : Bool) :
    Lasting (Chained holds outermost) := by
  rintro page later ⟨opened, here⟩ nests
  refine ⟨nests.chain.trans opened, lasting _ _ here ?_⟩
  exact ⟨nests.frames, rfl, nests.headers, nests.blocks, nests.groups, nests.exemptions⟩

namespace Stays

variable {action : Print α}

theorem keeps (stays : Stays action) {holds : Page → Prop} (lasting : Lasting holds) : Keeps holds action :=
  fun page here => lasting page _ here (stays page)

theorem brings (stays : Stays action) {holds : Page → Prop} (lasting : Lasting holds) :
    Brings holds action fun _ => holds :=
  stays.keeps lasting

theorem of_brings (brings : ∀ base : Page, Brings base.Nests action fun _ => base.Nests) : Stays action :=
  fun page => brings page page (.refl page)

theorem bind {next : α → Print β} (first : Stays action) (second : ∀ value, Stays (next value)) :
    Stays (action >>= next) :=
  fun page => (first page).trans (second _ _)

theorem pure {value : α} : Stays (Pure.pure value) :=
  fun page => .refl page

theorem ite {test : Prop} [Decidable test] {other : Print α} (yes : Stays action) (no : Stays other) :
    Stays (if test then action else other) := by
  split
  · exact yes
  · exact no

theorem optional {test : Prop} [Decidable test] {step : Print Unit} {rest : Unit → Print α}
    (first : Stays step) (further : Stays (rest ())) :
    Stays (if test then step >>= rest else rest ()) :=
  ite (first.bind fun _ => further) further

theorem read {next : Page → Print α} (each : ∀ page, Stays (next page)) :
    Stays (MonadState.get >>= next) :=
  fun page => each page page

end Stays

theorem stays_write (content : String) (spaceAfter : Bool) : Stays (write content spaceAfter) :=
  fun page => page.nests_write content spaceAfter

theorem stays_writeToken (token : Token) (spaceAfter : Bool) : Stays (writeToken token spaceAfter) :=
  fun page => page.nests_write token.lexeme spaceAfter

theorem stays_trivia (slot : Trivia) (how : Instruction) : Stays (trivia slot how) :=
  fun page => page.nests_trivia slot how

theorem stays_slot (slot : Trivia) (how : Instruction) : Stays (Print.slot slot how) :=
  fun page => page.nests_trivia slot how

theorem stays_dropSpace : Stays dropSpace :=
  fun page => page.nests_dropSpace

theorem stays_dropBlanks : Stays dropBlanks :=
  fun _ => .of_same rfl rfl rfl rfl rfl rfl

theorem stays_ensureSpace : Stays ensureSpace :=
  fun page => page.nests_ensureSpace

theorem stays_newline (move : Move) : Stays (newline move) :=
  fun page => page.nests_newline move

theorem stays_exempt : Stays (modify exempt) :=
  fun page => page.nests_exempt

theorem stays_setIndentation (move : Move) : Stays (modify fun page => page.setIndentation move) :=
  fun _ => .of_same rfl rfl rfl rfl rfl rfl

theorem stays_requestBlock (request : BlockRequest) : Stays (modify fun page => page.requestBlock request) :=
  fun page => page.nests_requestBlock request

theorem stays_setLineEnded (ended : Bool) : Stays (setLineEnded ended) :=
  fun _ => .of_same rfl rfl rfl rfl rfl rfl

theorem stays_stepBack : Stays stepBack := by
  intro page
  show page.Nests (if page.onBlankLine then page.dropLine.indent .left else page.newline .left)
  split
  · exact .of_same rfl rfl rfl rfl rfl rfl
  · exact page.nests_newline .left

theorem stays_closeExpression (trailing : Trivia) : Stays (closeExpression trailing) :=
  (stays_slot trailing _).bind fun _ => stays_setLineEnded false

theorem stays_closeEntry (endDelimited breakBetween breakAtEnd isLast : Bool) (trailing : Trivia) :
    Stays (closeEntry endDelimited breakBetween breakAtEnd isLast trailing) := by
  unfold closeEntry
  refine stays_dropSpace.bind fun _ => .optional (stays_write _ true) (.ite ?_ ?_)
  · exact .ite (stays_newline .stay) .pure
  · exact (stays_trivia trailing _).bind fun moved => .ite (stays_newline .stay) .pure

theorem stays_closeCall (moved : Bool) (arguments : List (Item Expr)) : Stays (closeCall moved arguments) := by
  unfold closeCall
  refine stays_dropBlanks.bind fun _ => .optional (stays_newline .left) ?_
  exact .ite (stays_requestBlock _) (stays_write _ true)

theorem stays_takeGroupRequest : Stays (modifyGet takeGroupRequest) :=
  fun page => page.nests_takeGroupRequest

theorem stays_closeGrouping (moved : Bool) (afterClose : Trivia) : Stays (closeGrouping moved afterClose) := by
  unfold closeGrouping
  refine stays_dropSpace.bind fun _ => .optional stays_stepBack ?_
  exact (stays_write _ true).bind fun _ => stays_takeGroupRequest.bind fun request => stays_slot afterClose _

theorem stays_leaf (token : Token) (behind : Trivia) (how : Instruction) :
    Stays (do writeToken token true; Print.slot behind how; closeExpression []) :=
  (stays_writeToken token true).bind fun _ => (stays_slot behind how).bind fun _ => stays_closeExpression []

section

variable {holds : Page → Prop}

theorem brings_openFrame_inFrame : Brings holds (modify openFrame) fun _ => InFrame holds :=
  fun page here => ⟨page, here, .refl _⟩

theorem brings_closeFrame_inFrame (lasting : Lasting holds) :
    Brings (InFrame holds) (modify closeFrame) fun _ => holds := by
  rintro page ⟨before, here, nests⟩
  exact lasting before _ here nests.closeFrame

theorem brings_openChain : Brings holds openChain fun outermost => Chained holds outermost :=
  fun _ here => ⟨rfl, here⟩

theorem brings_closeDotFrame (lasting : Lasting holds) (outermost : Bool) :
    Brings (Chained (InFrame holds) outermost) (modify closeFrame) fun _ => Chained holds outermost := by
  rintro ⟨_, _, _, _, _, _, frames, _, _, _, _⟩ ⟨opened, framed⟩
  have closed := brings_closeFrame_inFrame lasting _ framed
  cases frames <;> exact ⟨opened, closed⟩

theorem brings_closeChain (outermost : Bool) :
    Brings (Chained holds outermost) (closeChain outermost) fun _ => holds := by
  rintro ⟨_, _, _, _, _, _, _, chainIndents, _, _, _⟩ ⟨opened, here⟩
  cases opened
  cases outermost <;> exact here

end

mutual

/-- An expression leaves its surroundings as they were, but for requests and exemptions. -/
theorem stays_expr : ∀ expr : Expr, Stays (Print.expr expr)
  | .call callee afterOpen ⟨arguments, endDelimited⟩ trailing => by
    rw [Print.expr]
    refine .optional stays_exempt ((stays_expr callee).bind fun _ => stays_dropSpace.bind fun _ => ?_)
    refine (stays_write _ _).bind fun _ => (stays_trivia afterOpen _).bind fun moved => ?_
    refine (stays_entries endDelimited false false arguments).bind fun _ => ?_
    exact (stays_closeCall moved arguments).bind fun _ => stays_closeExpression trailing
  | .function afterKeyword signature afterSignature isConstructor trailing => by
    rw [Print.expr]
    refine (stays_write _ _).bind fun _ => (stays_slot afterKeyword _).bind fun _ => ?_
    refine (stays_expr signature).bind fun _ => .optional stays_dropBlanks ?_
    refine (stays_slot afterSignature _).bind fun _ => .optional (stays_write _ true) ?_
    exact stays_exempt.bind fun _ => stays_closeExpression trailing
  | .lifetime operator afterOperator operand trailing => by
    rw [Print.expr]
    refine (stays_writeToken operator true).bind fun _ => (stays_slot afterOperator _).bind fun _ => ?_
    exact (stays_expr operand).bind fun _ => stays_dropBlanks.bind fun _ => stays_closeExpression trailing
  | .binary left operator afterOperator right => by
    rw [Print.expr]
    refine (stays_expr left).bind fun _ => stays_ensureSpace.bind fun _ => ?_
    refine (stays_writeToken operator true).bind fun _ => .of_brings fun base => ?_
    have framed := lasting_inFrame base.Nests
    refine brings_openFrame_inFrame.bind fun _ => ((stays_slot afterOperator _).brings framed).bind fun _ => ?_
    refine ((stays_expr right).brings framed).bind fun _ => ?_
    exact (brings_closeFrame_inFrame (lasting_nests base)).bind fun _ =>
      (stays_closeExpression []).brings (lasting_nests base)
  | .grouping afterOpen inner afterClose => by
    rw [Print.expr]
    refine (stays_write _ _).bind fun _ => (stays_trivia afterOpen _).bind fun moved => ?_
    exact (stays_exprs inner).bind fun _ => (stays_closeGrouping moved afterClose).bind fun _ =>
      stays_closeExpression []
  | .array afterOpen ⟨elements, endDelimited⟩ => by
    rw [Print.expr]
    refine (stays_write _ _).bind fun _ => (stays_trivia afterOpen _).bind fun moved => ?_
    refine (stays_entries endDelimited false false elements).bind fun _ => .optional (stays_newline .left) ?_
    exact (stays_write _ _).bind fun _ => stays_closeExpression []
  | .literal token behind => stays_leaf token behind _
  | .identifier token behind => stays_leaf token behind _
  | .numberStartDot token behind => (stays_write _ _).bind fun _ => stays_leaf token behind _
  | .numberEndDot token behind =>
    (stays_writeToken token false).bind fun _ => (stays_write _ _).bind fun _ =>
      (stays_slot behind _).bind fun _ => stays_closeExpression []
  | .unary operator afterOperator operand => by
    rw [Print.expr]
    refine (stays_writeToken operator _).bind fun _ => (stays_slot afterOperator _).bind fun _ => ?_
    exact (stays_expr operand).bind fun _ => stays_closeExpression []
  | .step operand operator afterOperator => by
    rw [Print.expr]
    exact (stays_expr operand).bind fun _ => stays_dropSpace.bind fun _ => stays_leaf operator afterOperator _
  | .assign target operator afterOperator value => by
    rw [Print.expr]
    refine (stays_expr target).bind fun _ => (stays_writeToken operator true).bind fun _ => ?_
    refine (stays_slot afterOperator _).bind fun _ => ?_
    exact (stays_expr value).bind fun _ => stays_closeExpression []
  | .dotted owner afterDot member trailing => by
    rw [Print.expr]
    refine (stays_expr owner).bind fun _ => stays_dropSpace.bind fun _ => ?_
    refine (stays_write _ _).bind fun _ => .of_brings fun base => ?_
    refine brings_openFrame_inFrame.bind fun _ => brings_openChain.bind fun outermost => ?_
    have chained := lasting_chained (lasting_inFrame base.Nests) outermost
    refine ((stays_slot afterDot _).brings chained).bind fun _ => ?_
    refine ((stays_expr member).brings chained).bind fun _ => ?_
    refine (brings_closeDotFrame (lasting_nests base) outermost).bind fun _ => ?_
    exact (brings_closeChain outermost).bind fun _ =>
      (stays_closeExpression trailing).brings (lasting_nests base)
  | .access collection accessor indices trailing => by
    rw [Print.expr]
    refine (stays_expr collection).bind fun _ => stays_dropSpace.bind fun _ => ?_
    refine (stays_writeToken accessor _).bind fun _ => (stays_indexList indices).bind fun _ => ?_
    refine stays_dropSpace.bind fun _ => (stays_write _ _).bind fun _ => ?_
    exact stays_closeExpression trailing
  | .ternary condition afterHook whenTrue afterColon whenFalse => by
    rw [Print.expr]
    refine (stays_expr condition).bind fun _ => (stays_write _ _).bind fun _ => .of_brings fun base => ?_
    have framed := lasting_inFrame base.Nests
    refine brings_openFrame_inFrame.bind fun _ => ((stays_slot afterHook _).brings framed).bind fun _ => ?_
    refine ((stays_expr whenTrue).brings framed).bind fun _ => ?_
    refine ((stays_write _ _).brings framed).bind fun _ => ?_
    refine ((stays_trivia afterColon _).brings framed).bind fun moved => ?_
    refine ((stays_expr whenFalse).brings framed).bind fun _ => ?_
    refine (brings_closeFrame_inFrame (lasting_nests base)).bind fun _ => ?_
    exact Stays.brings (.optional (stays_setIndentation .left) (stays_closeExpression [])) (lasting_nests base)
  | .newline => by
    rw [Print.expr]
    refine stays_exempt.bind fun _ => .read fun page => .optional (stays_newline .stay) ?_
    exact stays_closeExpression []
  | .lineComment token =>
    stays_exempt.bind fun _ => (stays_writeToken token false).bind fun _ => stays_closeExpression []
  | .blockComment token =>
    stays_exempt.bind fun _ => (stays_writeToken token false).bind fun _ => stays_closeExpression []
  | .unidentified token trailing => by
    rw [Print.expr]
    refine (stays_writeToken token true).bind fun _ => .optional stays_exempt ?_
    exact stays_closeExpression trailing

theorem stays_exprs : ∀ exprs : List Expr, Stays (Print.exprs exprs)
  | [] => .pure
  | first :: others => (stays_expr first).bind fun _ => stays_exprs others

theorem stays_entries (endDelimited breakBetween breakAtEnd : Bool) : ∀ items : List (Item Expr),
    Stays (entries endDelimited breakBetween breakAtEnd items)
  | [] => .pure
  | ⟨value, trailing⟩ :: others =>
    (stays_expr value).bind fun _ => (stays_closeEntry _ _ _ _ trailing).bind fun _ =>
      stays_entries endDelimited breakBetween breakAtEnd others

theorem stays_indexList : ∀ indices : List (Trivia × Expr), Stays (indexList indices)
  | [] => .pure
  | (before, index) :: others => by
    rw [indexList]
    refine .of_brings fun base => ?_
    have framed := lasting_inFrame base.Nests
    refine brings_openFrame_inFrame.bind fun _ => ((stays_slot before _).brings framed).bind fun _ => ?_
    refine ((stays_expr index).brings framed).bind fun _ => ?_
    refine (brings_closeFrame_inFrame (lasting_nests base)).bind fun _ => ?_
    refine (stays_dropSpace.brings (lasting_nests base)).bind fun _ => ?_
    exact Stays.brings (.optional (stays_write _ true) (stays_indexList others)) (lasting_nests base)

end

end Print

end GmlLayout
