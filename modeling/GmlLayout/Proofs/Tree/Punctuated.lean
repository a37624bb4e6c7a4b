import GmlLayout.Proofs.Layout.Exemptions

/-!
What a tree holds, from left to right, with a semicolon at every place where the layout may write one: at
the end of each statement unless it ends in a closing brace or claims an exemption, at the end of a list
of variables, and between the parts of a `for` header. Which of these semicolons are written depends on
the page.
-/

namespace GmlLayout

def semicolonLeaves (possible : Bool) : List Leaf :=
  if possible then [.mark .semicolon] else []

def closingLeaves (written : Bool) : List Leaf :=
  [.mark .rightBrace] ++ semicolonLeaves written

/-- The variables of a declaration. The last one gets a semicolon unless a comma stands behind it or the
declaration is `exempt`. -/
def variablesPunctuated (endDelimited exempt : Bool) : List (Item Variable) → List Leaf
  | [] => []
  | ⟨declared, trailing⟩ :: others =>
    declared.keywordLeaves ++ declared.target.leaves
      ++ delimiterLeaves endDelimited others.isEmpty
      ++ semicolonLeaves (others.isEmpty && !endDelimited && !exempt) ++ slotLeaves trailing
      ++ variablesPunctuated endDelimited exempt others

def headerPunctuated (afterStart : Trivia) (condition : Option Expr) (afterCondition : Trivia)
    (increment : Option Expr) (afterIncrement afterClose : Trivia) : List Leaf :=
  slotLeaves afterStart ++ optionLeaves condition ++ [.mark .semicolon] ++ slotLeaves afterCondition
    ++ optionLeaves increment ++ slotLeaves afterIncrement ++ [.mark .rightParen] ++ slotLeaves afterClose

namespace Stmt

mutual

def punctuated : Stmt → List Leaf
  | .declaration keyword afterKeyword declared written =>
    [.token keyword] ++ slotLeaves afterKeyword
      ++ variablesPunctuated declared.endDelimited (variablesClaim declared.items) declared.items
      ++ semicolonLeaves (declared.items.isEmpty || !written && !variablesClaim declared.items)
  | .enumeration afterKeyword name afterOpen members written =>
    [.word .enumWord] ++ slotLeaves afterKeyword ++ name.leaves ++ [.mark .leftBrace] ++ slotLeaves afterOpen
      ++ Expr.entryLeaves members.endDelimited members.items ++ closingLeaves written
  | .expression expr written => expr.leaves ++ semicolonLeaves (written || !expr.claims)
  | .block afterOpen body written =>
    [.mark .leftBrace] ++ slotLeaves afterOpen ++ listPunctuated body ++ closingLeaves written
  | .conditional afterKeyword condition whenTrue between _ none written =>
    [.word .ifWord] ++ slotLeaves afterKeyword ++ condition.leaves ++ whenTrue.punctuated
      ++ slotLeaves between ++ semicolonLeaves (written || !hasRemark between)
  | .conditional afterKeyword condition whenTrue between afterElse (some whenFalse) _ =>
    [.word .ifWord] ++ slotLeaves afterKeyword ++ condition.leaves ++ whenTrue.punctuated
      ++ (slotLeaves between ++ [.word .elseWord] ++ slotLeaves afterElse) ++ whenFalse.punctuated
      ++ [.mark .semicolon]
  | .loop keyword afterKeyword condition body _ =>
    [.token keyword] ++ slotLeaves afterKeyword ++ condition.leaves ++ body.punctuated
      ++ [.mark .semicolon]
  | .doUntil afterKeyword body between condition _ =>
    [.word .doWord] ++ slotLeaves afterKeyword ++ body.punctuated
      ++ (slotLeaves between ++ [.word .untilWord] ++ condition.leaves ++ [.mark .semicolon])
  | .forLoop afterKeyword afterOpen start afterStart condition afterCondition increment
      afterIncrement afterClose body _ =>
    [.word .forWord] ++ slotLeaves afterKeyword ++ [.mark .leftParen] ++ slotLeaves afterOpen
      ++ (match start with
        | none => [.mark .semicolon]
        | some start => start.punctuated)
      ++ headerPunctuated afterStart condition afterCondition increment afterIncrement afterClose
      ++ body.punctuated ++ [.mark .semicolon]
  | .switch afterKeyword subject afterOpen cases written =>
    [.word .switchWord] ++ slotLeaves afterKeyword ++ subject.leaves ++ [.mark .leftBrace]
      ++ slotLeaves afterOpen ++ casesPunctuated cases ++ closingLeaves written
  | .returning value _ => [.word .returnWord] ++ optionLeaves value ++ [.mark .semicolon]
  | .breaking _ => [.word .breakWord] ++ [.mark .semicolon]
  | .exiting _ => [.word .exitWord] ++ [.mark .semicolon]
  | .remark _ token => [.token token]
  | .define afterKeyword name body =>
    [.directive] ++ slotLeaves afterKeyword ++ name.leaves ++ listPunctuated body ++ [.mark .semicolon]

def listPunctuated : List Stmt → List Leaf
  | [] => []
  | first :: others => first.punctuated ++ listPunctuated others

def casesPunctuated : List (Case Stmt) → List Leaf
  | [] => []
  | ⟨label, afterKeyword, afterColon, body⟩ :: others =>
    labelLeaves label afterKeyword ++ [.mark .colon] ++ slotLeaves afterColon ++ listPunctuated body
      ++ casesPunctuated others

end

variable {keep : String → Bool}

theorem filter_semicolon (unkept : keep ";" = false) : (Leaf.mark .semicolon).ink.filter keep = [] :=
  filter_textInk unkept

theorem keptInk_semicolonLeaves (unkept : keep ";" = false) (possible : Bool) :
    keptInk keep (semicolonLeaves possible) = [] := by
  cases possible with
  | false => rfl
  | true => exact filter_semicolon unkept

theorem keptInk_variablesPunctuated (unkept : keep ";" = false) (endDelimited exempt : Bool)
    (items : List (Item Variable)) :
    keptInk keep (variablesPunctuated endDelimited exempt items) =
      keptInk keep (variableLeaves endDelimited items) := by
  induction items with
  | nil => rfl
  | cons item others ih =>
    simp [variablesPunctuated, variableLeaves, keptInk_semicolonLeaves unkept, ih]

mutual

theorem keptInk_punctuated (unkept : keep ";" = false) : ∀ statement : Stmt,
    keptInk keep statement.punctuated = keptInk keep statement.leaves
  | .declaration keyword afterKeyword declared written => by
    simp [punctuated, leaves, keptInk_semicolonLeaves unkept, keptInk_variablesPunctuated unkept]
  | .enumeration afterKeyword name afterOpen members written => by
    simp [punctuated, leaves, closingLeaves, keptInk_semicolonLeaves unkept]
  | .expression expr written => by simp [punctuated, leaves, keptInk_semicolonLeaves unkept]
  | .block afterOpen body written => by
    simp [punctuated, leaves, closingLeaves, keptInk_semicolonLeaves unkept,
      keptInk_listPunctuated unkept body]
  | .conditional afterKeyword condition whenTrue between afterElse none written => by
    simp [punctuated, leaves, keptInk_semicolonLeaves unkept, keptInk_punctuated unkept whenTrue]
  | .conditional afterKeyword condition whenTrue between afterElse (some whenFalse) written => by
    simp [punctuated, leaves, filter_semicolon unkept, keptInk_punctuated unkept whenTrue,
      keptInk_punctuated unkept whenFalse]
  | .loop keyword afterKeyword condition body written => by
    simp [punctuated, leaves, filter_semicolon unkept, keptInk_punctuated unkept body]
  | .doUntil afterKeyword body between condition written => by
    simp [punctuated, leaves, filter_semicolon unkept, keptInk_punctuated unkept body]
  | .forLoop afterKeyword afterOpen none afterStart condition afterCondition increment afterIncrement
      afterClose body written => by
    simp [punctuated, leaves, headerPunctuated, filter_semicolon unkept, keptInk_punctuated unkept body]
  | .forLoop afterKeyword afterOpen (some start) afterStart condition afterCondition increment
      afterIncrement afterClose body written => by
    simp [punctuated, leaves, headerPunctuated, filter_semicolon unkept, keptInk_punctuated unkept start,
      keptInk_punctuated unkept body]
  | .switch afterKeyword subject afterOpen cases written => by
    simp [punctuated, leaves, closingLeaves, keptInk_semicolonLeaves unkept,
      keptInk_casesPunctuated unkept cases]
  | .returning value written => by simp [punctuated, leaves, filter_semicolon unkept]
  | .breaking written => by simp [punctuated, leaves, filter_semicolon unkept]
  | .exiting written => by simp [punctuated, leaves, filter_semicolon unkept]
  | .remark form token => rfl
  | .define afterKeyword name body => by
    simp [punctuated, leaves, filter_semicolon unkept, keptInk_listPunctuated unkept body]

theorem keptInk_listPunctuated (unkept : keep ";" = false) : ∀ statements : List Stmt,
    keptInk keep (listPunctuated statements) = keptInk keep (listLeaves statements)
  | [] => rfl
  | first :: others => by
    simp [listPunctuated, listLeaves, keptInk_punctuated unkept first, keptInk_listPunctuated unkept others]

theorem keptInk_casesPunctuated (unkept : keep ";" = false) : ∀ cases : List (Case Stmt),
    keptInk keep (casesPunctuated cases) = keptInk keep (caseLeaves cases)
  | [] => rfl
  | ⟨label, afterKeyword, afterColon, body⟩ :: others => by
    simp [casesPunctuated, caseLeaves, keptInk_listPunctuated unkept body,
      keptInk_casesPunctuated unkept others]

end

end Stmt

end GmlLayout
