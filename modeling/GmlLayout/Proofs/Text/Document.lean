import GmlLayout.Text.Json

/-!
The text of a document determines the document. The first character tells its sort, a quoted text ends at the
first quotation mark that is not escaped, and behind an item comes a comma or the line break in front of the
closing bracket. So what is written behind a document can be told apart from it, unless it goes on a number.
-/

namespace GmlLayout.Json

/-! Quoted texts. -/

def digitValue (c : Char) : Nat :=
  if c.isDigit then c.toNat - '0'.toNat else c.toNat - 'a'.toNat + 10

def shortEscape (c : Char) : Char :=
  if c = 'n' then '\n'
  else if c = 'r' then '\r'
  else if c = 't' then '\t'
  else if c = 'b' then '\x08'
  else if c = 'f' then '\x0c'
  else c

def unescape : List Char → Option (Char × List Char)
  | '\\' :: 'u' :: _ :: _ :: high :: low :: rest =>
    some (Char.ofNat (16 * digitValue high + digitValue low), rest)
  | '\\' :: c :: rest => some (shortEscape c, rest)
  | c :: rest => some (c, rest)
  | [] => none

theorem digitValue_hexDigit (value : Nat) : digitValue (hexDigit value) = value % 16 := by
  have digits : ∀ digit < 16, digitValue (Nat.digitChar digit) = digit := by decide
  exact digits _ (Nat.mod_lt value (by decide))

theorem unescape_escapeChar (c : Char) (rest : List Char) :
    unescape (escapeChar c ++ rest) = some (c, rest) := by
  unfold escapeChar
  iterate 7
    split
    · simp [unescape, shortEscape, *]
  split
  · rename_i control
    have code : 16 * (c.toNat / 16 % 16) + c.toNat % 16 = c.toNat := by omega
    simp only [List.cons_append, List.nil_append, unescape, digitValue_hexDigit, code, Char.ofNat_toNat]
  · show unescape (c :: rest) = some (c, rest)
    unfold unescape
    split <;> simp_all

theorem escapeChar_append_inj {c d : Char} {rest other : List Char}
    (same : escapeChar c ++ rest = escapeChar d ++ other) : c = d ∧ rest = other := by
  have read := congrArg unescape same
  rw [unescape_escapeChar, unescape_escapeChar] at read
  exact Prod.mk.inj (Option.some.inj read)

theorem escapeChar_append_ne (c : Char) (rest other : List Char) : escapeChar c ++ rest ≠ '"' :: other := by
  unfold escapeChar
  repeat' split
  all_goals simp [*]

theorem flatMap_escapeChar_inj {content text : List Char} {rest other : List Char}
    (same : content.flatMap escapeChar ++ '"' :: rest = text.flatMap escapeChar ++ '"' :: other) :
    content = text ∧ rest = other := by
  induction content generalizing text with
  | nil =>
    cases text with
    | nil => exact ⟨rfl, List.tail_eq_of_cons_eq same⟩
    | cons d text =>
      rw [List.flatMap_cons, List.append_assoc] at same
      exact absurd same.symm (escapeChar_append_ne d _ _)
  | cons c content ih =>
    rw [List.flatMap_cons, List.append_assoc] at same
    cases text with
    | nil => exact absurd same (escapeChar_append_ne c _ _)
    | cons d text =>
      rw [List.flatMap_cons, List.append_assoc] at same
      obtain ⟨rfl, behind⟩ := escapeChar_append_inj same
      obtain ⟨rfl, last⟩ := ih behind
      exact ⟨rfl, last⟩

theorem toList_quote (content : String) :
    (quote content).toList = '"' :: (content.toList.flatMap escapeChar ++ ['"']) := by
  simp [quote]

theorem quote_append_inj {content text : String} {rest other : List Char}
    (same : (quote content).toList ++ rest = (quote text).toList ++ other) :
    content = text ∧ rest = other := by
  rw [toList_quote, toList_quote, List.cons_append, List.cons_append, List.append_assoc,
    List.append_assoc] at same
  obtain ⟨chars, same⟩ := flatMap_escapeChar_inj (List.tail_eq_of_cons_eq same)
  exact ⟨String.toList_inj.mp chars, same⟩

/-! Numbers. -/

def Stops (text : List Char) : Prop :=
  ∀ c ∈ text.head?, c.isDigit = false

theorem Stops.nil : Stops [] := by
  simp [Stops]

theorem Stops.cons {c : Char} (stop : c.isDigit = false) (text : List Char) : Stops (c :: text) := by
  simp [Stops, stop]

theorem Stops.takeWhile_eq_nil {text : List Char} (stops : Stops text) : text.takeWhile Char.isDigit = [] := by
  cases text with
  | nil => rfl
  | cons c text => exact List.takeWhile_cons_of_neg (by simp [stops c rfl])

theorem takeWhile_toDigits_append (value : Nat) {rest : List Char} (stops : Stops rest) :
    (Nat.toDigits 10 value ++ rest).takeWhile Char.isDigit = Nat.toDigits 10 value := by
  rw [List.takeWhile_append_of_pos fun _ => Nat.isDigit_of_mem_toDigits (by decide) (by decide),
    stops.takeWhile_eq_nil, List.append_nil]

theorem toDigits_append_inj {value number : Nat} {rest other : List Char} (stops : Stops rest)
    (ends : Stops other) (same : Nat.toDigits 10 value ++ rest = Nat.toDigits 10 number ++ other) :
    value = number ∧ rest = other := by
  have digits := congrArg (List.takeWhile Char.isDigit) same
  rw [takeWhile_toDigits_append value stops, takeWhile_toDigits_append number ends] at digits
  have read := congrArg (Nat.ofDigitChars 10 · 0) digits
  simp only [Nat.ofDigitChars_ten_toDigits] at read
  exact ⟨read, List.append_cancel_left (digits ▸ same)⟩

theorem toList_toString (value : Int) : (toString value).toList =
    if 0 ≤ value then Nat.toDigits 10 value.toNat else '-' :: Nat.toDigits 10 (-value).toNat := by
  rw [Int.toString_eq_repr, Int.repr_eq_if]
  split <;> simp [Nat.repr_eq_ofList_toDigits]

theorem exists_toDigits_eq_cons (value : Nat) :
    ∃ c digits, Nat.toDigits 10 value = c :: digits ∧ c.isDigit = true := by
  obtain ⟨c, digits, shape⟩ := List.exists_cons_of_ne_nil (Nat.toDigits_ne_nil (n := value) (b := 10))
  have member : c ∈ Nat.toDigits 10 value := by simp [shape]
  exact ⟨c, digits, shape, Nat.isDigit_of_mem_toDigits (by decide) (by decide) member⟩

theorem toDigits_append_ne (value : Nat) (rest other : List Char) :
    Nat.toDigits 10 value ++ rest ≠ '-' :: other := by
  obtain ⟨c, digits, shape, digit⟩ := exists_toDigits_eq_cons value
  rw [shape]
  rintro same
  cases same
  cases digit

theorem toString_append_inj {value number : Int} {rest other : List Char} (stops : Stops rest)
    (ends : Stops other) (same : (toString value).toList ++ rest = (toString number).toList ++ other) :
    value = number ∧ rest = other := by
  rw [toList_toString, toList_toString] at same
  split at same <;> split at same
  · obtain ⟨size, behind⟩ := toDigits_append_inj stops ends same
    exact ⟨by omega, behind⟩
  · exact absurd same (toDigits_append_ne _ _ _)
  · exact absurd same.symm (toDigits_append_ne _ _ _)
  · obtain ⟨size, behind⟩ := toDigits_append_inj stops ends (List.tail_eq_of_cons_eq same)
    exact ⟨by omega, behind⟩

/-! Documents. -/

attribute [simp] renderAt renderItems renderMembers

@[simp]
theorem toList_lineBreak (depth : Nat) : (lineBreak depth).toList = '\n' :: List.replicate (2 * depth) ' ' := by
  simp [lineBreak]

def sort : Json → Nat
  | .null => 0
  | .bool _ => 1
  | .int _ => 2
  | .text _ => 3
  | .list _ => 4
  | .object _ => 5

def sortOf (c : Char) : Nat :=
  if c = 'n' then 0
  else if c = 't' ∨ c = 'f' then 1
  else if c = '"' then 3
  else if c = '[' then 4
  else if c = '\x7b' then 5
  else 2

theorem sortOf_digit {c : Char} (digit : c.isDigit = true) : sortOf c = 2 := by
  have other : ∀ d : Char, d.isDigit = false → c ≠ d := by
    rintro d letter rfl
    simp [letter] at digit
  simp [sortOf, other]

theorem sortOf_head?_renderAt (depth : Nat) (document : Json) :
    (renderAt depth document).toList.head?.map sortOf = some document.sort := by
  cases document with
  | null => simp [sortOf, sort]
  | bool value => cases value <;> simp [sortOf, sort]
  | int value =>
    rw [renderAt, toList_toString]
    split
    · obtain ⟨c, digits, shape, digit⟩ := exists_toDigits_eq_cons value.toNat
      simp [shape, sortOf_digit digit, sort]
    · simp [sortOf, sort]
  | text value => simp [toList_quote, sortOf, sort]
  | list items => cases items <;> simp [sortOf, sort]
  | object members => cases members <;> simp [sortOf, sort]

theorem sort_eq_of_renderAt_append {depth : Nat} {document another : Json} {rest other : List Char}
    (same : (renderAt depth document).toList ++ rest = (renderAt depth another).toList ++ other) :
    document.sort = another.sort := by
  have heads := congrArg (·.head?.map sortOf) same
  simpa [List.head?_append, Option.map_or, sortOf_head?_renderAt] using heads

theorem stops_renderItems (depth : Nat) (items : List Json) (rest : List Char) :
    Stops ((renderItems depth items).toList ++ '\n' :: rest) := by
  cases items <;> simp [Stops.cons]

theorem stops_renderMembers (depth : Nat) (members : List (String × Json)) (rest : List Char) :
    Stops ((renderMembers depth members).toList ++ '\n' :: rest) := by
  cases members <;> simp [Stops.cons]

/-- A line break, the indentation of the given depth, and what stands on the line. -/
def line (depth : Nat) (text : List Char) : List Char :=
  '\n' :: (List.replicate (2 * depth) ' ' ++ text)

theorem line_inj {depth : Nat} {text other : List Char} (same : line depth text = line depth other) :
    text = other :=
  List.append_cancel_left (List.tail_eq_of_cons_eq same)

theorem renderAt_list_append (depth : Nat) (item : Json) (items : List Json) (rest : List Char) :
    (renderAt depth (.list (item :: items))).toList ++ rest =
      '[' :: line (depth + 1) ((renderAt (depth + 1) item).toList ++
        ((renderItems (depth + 1) items).toList ++ line depth (']' :: rest))) := by
  simp [line]

theorem renderAt_object_append (depth : Nat) (key : String) (value : Json) (members : List (String × Json))
    (rest : List Char) :
    (renderAt depth (.object ((key, value) :: members))).toList ++ rest =
      '\x7b' :: line (depth + 1) ((quote key).toList ++ ':' :: ' ' :: ((renderAt (depth + 1) value).toList ++
        ((renderMembers (depth + 1) members).toList ++ line depth ('\x7d' :: rest)))) := by
  simp [line]

theorem renderItems_cons_append (depth : Nat) (item : Json) (items : List Json) (rest : List Char) :
    (renderItems depth (item :: items)).toList ++ rest =
      ',' :: line depth ((renderAt depth item).toList ++ ((renderItems depth items).toList ++ rest)) := by
  simp [line]

theorem renderMembers_cons_append (depth : Nat) (key : String) (value : Json)
    (members : List (String × Json)) (rest : List Char) :
    (renderMembers depth ((key, value) :: members)).toList ++ rest =
      ',' :: line depth ((quote key).toList ++ ':' :: ' ' :: ((renderAt depth value).toList ++
        ((renderMembers depth members).toList ++ rest))) := by
  simp [line]

/-- The text of a document determines the document and what stands behind it. -/
def Readable (document : Json) : Prop :=
  ∀ (depth : Nat) (another : Json) {rest other : List Char}, Stops rest → Stops other →
    (renderAt depth document).toList ++ rest = (renderAt depth another).toList ++ other →
    document = another ∧ rest = other

/-- The text of the items after the first determines the items and what stands behind them. -/
def ReadableItems (items : List Json) : Prop :=
  ∀ (depth : Nat) (others : List Json) {rest other : List Char},
    (renderItems depth items).toList ++ '\n' :: rest = (renderItems depth others).toList ++ '\n' :: other →
    items = others ∧ rest = other

/-- The text of the members after the first determines the members and what stands behind them. -/
def ReadableMembers (members : List (String × Json)) : Prop :=
  ∀ (depth : Nat) (others : List (String × Json)) {rest other : List Char},
    (renderMembers depth members).toList ++ '\n' :: rest =
      (renderMembers depth others).toList ++ '\n' :: other →
    members = others ∧ rest = other

theorem readable_null : Readable .null := by
  intro depth another rest other _ _ same
  have sorts := sort_eq_of_renderAt_append same
  cases another with
  | null => exact ⟨rfl, by simpa using same⟩
  | _ => simp [sort] at sorts

theorem readable_bool (value : Bool) : Readable (.bool value) := by
  intro depth another rest other _ _ same
  have sorts := sort_eq_of_renderAt_append same
  cases another with
  | bool flag => cases value <;> cases flag <;> simp_all
  | _ => simp [sort] at sorts

theorem readable_int (value : Int) : Readable (.int value) := by
  intro depth another rest other stops ends same
  have sorts := sort_eq_of_renderAt_append same
  cases another with
  | int number =>
    rw [renderAt, renderAt] at same
    obtain ⟨rfl, behind⟩ := toString_append_inj stops ends same
    exact ⟨rfl, behind⟩
  | _ => simp [sort] at sorts

theorem readable_text (value : String) : Readable (.text value) := by
  intro depth another rest other _ _ same
  have sorts := sort_eq_of_renderAt_append same
  cases another with
  | text content =>
    rw [renderAt, renderAt] at same
    obtain ⟨rfl, behind⟩ := quote_append_inj same
    exact ⟨rfl, behind⟩
  | _ => simp [sort] at sorts

theorem readable_list_nil : Readable (.list []) := by
  intro depth another rest other _ _ same
  have sorts := sort_eq_of_renderAt_append same
  cases another with
  | list items => cases items <;> simp_all
  | _ => simp [sort] at sorts

theorem readable_list_cons {item : Json} {items : List Json} (first : Readable item)
    (others : ReadableItems items) : Readable (.list (item :: items)) := by
  intro depth another rest other _ _ same
  have sorts := sort_eq_of_renderAt_append same
  cases another with
  | list entries =>
    cases entries with
    | nil => simp at same
    | cons entry entries =>
      rw [renderAt_list_append, renderAt_list_append] at same
      obtain ⟨rfl, behind⟩ := first (depth + 1) entry (stops_renderItems _ _ _) (stops_renderItems _ _ _)
        (line_inj (List.tail_eq_of_cons_eq same))
      obtain ⟨rfl, closed⟩ := others (depth + 1) entries behind
      exact ⟨rfl, List.tail_eq_of_cons_eq (List.append_cancel_left closed)⟩
  | _ => simp [sort] at sorts

theorem readable_object_nil : Readable (.object []) := by
  intro depth another rest other _ _ same
  have sorts := sort_eq_of_renderAt_append same
  cases another with
  | object members => cases members <;> simp_all
  | _ => simp [sort] at sorts

theorem readable_object_cons (key : String) {value : Json} {members : List (String × Json)}
    (first : Readable value) (others : ReadableMembers members) :
    Readable (.object ((key, value) :: members)) := by
  intro depth another rest other _ _ same
  have sorts := sort_eq_of_renderAt_append same
  cases another with
  | object entries =>
    cases entries with
    | nil => simp at same
    | cons entry entries =>
      obtain ⟨name, field⟩ := entry
      rw [renderAt_object_append, renderAt_object_append] at same
      obtain ⟨rfl, named⟩ := quote_append_inj (line_inj (List.tail_eq_of_cons_eq same))
      obtain ⟨rfl, behind⟩ := first (depth + 1) field (stops_renderMembers _ _ _)
        (stops_renderMembers _ _ _) (List.tail_eq_of_cons_eq (List.tail_eq_of_cons_eq named))
      obtain ⟨rfl, closed⟩ := others (depth + 1) entries behind
      exact ⟨rfl, List.tail_eq_of_cons_eq (List.append_cancel_left closed)⟩
  | _ => simp [sort] at sorts

theorem readableItems_nil : ReadableItems [] := by
  intro depth others rest other same
  cases others <;> simp_all

theorem readableItems_cons {item : Json} {items : List Json} (first : Readable item)
    (others : ReadableItems items) : ReadableItems (item :: items) := by
  intro depth entries rest other same
  cases entries with
  | nil => simp at same
  | cons entry entries =>
    rw [renderItems_cons_append, renderItems_cons_append] at same
    obtain ⟨rfl, behind⟩ := first depth entry (stops_renderItems _ _ _) (stops_renderItems _ _ _)
      (line_inj (List.tail_eq_of_cons_eq same))
    obtain ⟨rfl, last⟩ := others depth entries behind
    exact ⟨rfl, last⟩

theorem readableMembers_nil : ReadableMembers [] := by
  intro depth others rest other same
  cases others <;> simp_all

theorem readableMembers_cons (key : String) {value : Json} {members : List (String × Json)}
    (first : Readable value) (others : ReadableMembers members) :
    ReadableMembers ((key, value) :: members) := by
  intro depth entries rest other same
  cases entries with
  | nil => simp at same
  | cons entry entries =>
    obtain ⟨name, field⟩ := entry
    rw [renderMembers_cons_append, renderMembers_cons_append] at same
    obtain ⟨rfl, named⟩ := quote_append_inj (line_inj (List.tail_eq_of_cons_eq same))
    obtain ⟨rfl, behind⟩ := first depth field (stops_renderMembers _ _ _) (stops_renderMembers _ _ _)
      (List.tail_eq_of_cons_eq (List.tail_eq_of_cons_eq named))
    obtain ⟨rfl, last⟩ := others depth entries behind
    exact ⟨rfl, last⟩

mutual

theorem readable : ∀ document : Json, Readable document
  | .null => readable_null
  | .bool value => readable_bool value
  | .int value => readable_int value
  | .text value => readable_text value
  | .list [] => readable_list_nil
  | .list (item :: items) => readable_list_cons (readable item) (readableItems items)
  | .object [] => readable_object_nil
  | .object ((key, value) :: members) =>
    readable_object_cons key (readable value) (readableMembers members)

theorem readableItems : ∀ items : List Json, ReadableItems items
  | [] => readableItems_nil
  | item :: items => readableItems_cons (readable item) (readableItems items)

theorem readableMembers : ∀ members : List (String × Json), ReadableMembers members
  | [] => readableMembers_nil
  | (key, value) :: members => readableMembers_cons key (readable value) (readableMembers members)

end

theorem render_inj {document another : Json} (same : document.render = another.render) :
    document = another := by
  exact (readable document 0 another .nil .nil (congrArg (·.toList ++ []) same)).1

end GmlLayout.Json
