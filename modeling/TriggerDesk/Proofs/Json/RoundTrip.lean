import TriggerDesk.Proofs.Json.Numerals

/-!
# What is written is read

A value whose numbers are read back is read from its text as it is, up to the order of members,
whatever its texts hold: quotes, backslashes and control characters are escaped, everything else
stands for itself (`readValue_write`, `readLenient?_write`). Its text has no control characters, so
it takes one line (`printable_chars`).
-/

namespace TriggerDesk.Json

variable {c : Char} {rest more : List Char} {text : List Char}

/-! ## Texts -/

/-- A control character is read from the digits of its escape. -/
theorem unitOf?_digitChar : ∀ n < 0x20,
    unitOf? '0' '0' (Nat.digitChar (n / 16)) (Nat.digitChar (n % 16)) = some n := by
  decide

/-- A numbered escape is read as its character. -/
theorem scanText_unitEscape (h : c.toNat < 0x20) (rest : List Char) :
    scanText (Value.unitEscape c ++ rest) = consChar c (scanText rest) := by
  have hunit := unitOf?_digitChar c.toNat h
  have hhigh : isHighSurrogate c.toNat = false := by
    simp only [isHighSurrogate, Bool.and_eq_false_iff, decide_eq_false_iff_not]
    omega
  have hlow : isLowSurrogate c.toNat = false := by
    simp only [isLowSurrogate, Bool.and_eq_false_iff, decide_eq_false_iff_not]
    omega
  simp only [Value.unitEscape, List.cons_append, List.nil_append, scanText, hunit, hlow, hhigh,
    Bool.false_eq_true, if_false, Char.ofNat_toNat]

/-- A character that needs no escape stands for itself. -/
theorem scanText_plain (hquote : c ≠ '"') (hslash : c ≠ '\\') (hplain : ¬ c.toNat < 0x20) :
    scanText (c :: rest) = consChar c (scanText rest) := by
  rw [scanText, if_neg hplain]
  all_goals simp_all

/-- A character that stands for itself is passed over. -/
theorem skipText_plain (hquote : c ≠ '"') (hslash : c ≠ '\\') (hplain : ¬ c.toNat < 0x20) :
    skipText (c :: rest) = skipText rest := by
  rw [skipText, if_neg hplain]
  all_goals simp_all

/-- The spelling of a character is read as that character. -/
theorem scanText_escapeChar (c : Char) (rest : List Char) :
    scanText (Value.escapeChar c ++ rest) = consChar c (scanText rest) := by
  unfold Value.escapeChar
  split
  · simp [scanText, letterEscape?]
  · simp [scanText, letterEscape?]
  · simp [scanText, letterEscape?]
  · simp [scanText, letterEscape?]
  · simp [scanText, letterEscape?]
  · simp [scanText, letterEscape?]
  · simp [scanText, letterEscape?]
  · next hquote hslash _ _ _ _ _ =>
    split
    · next hcontrol => exact scanText_unitEscape hcontrol rest
    · next hplain => exact scanText_plain hquote hslash hplain

/-- A text is read up to its closing quote. -/
theorem scanText_escaped (text : List Char) (rest : List Char) :
    scanText (text.flatMap Value.escapeChar ++ '"' :: rest) = .ok (text, rest) := by
  induction text with
  | nil => simp [scanText]
  | cons c text ih =>
    rw [List.flatMap_cons, List.append_assoc, scanText_escapeChar, ih]
    rfl

/-- The spelling of a character is passed over. -/
theorem skipText_escapeChar (c : Char) (rest : List Char) :
    skipText (Value.escapeChar c ++ rest) = skipText rest := by
  unfold Value.escapeChar
  split
  · simp [skipText, letterEscape?]
  · simp [skipText, letterEscape?]
  · simp [skipText, letterEscape?]
  · simp [skipText, letterEscape?]
  · simp [skipText, letterEscape?]
  · simp [skipText, letterEscape?]
  · simp [skipText, letterEscape?]
  · next hquote hslash _ _ _ _ _ =>
    split
    · next hcontrol =>
      simp only [Value.unitEscape, List.cons_append, List.nil_append, skipText,
        unitOf?_digitChar c.toNat hcontrol]
    · next hplain => exact skipText_plain hquote hslash hplain

/-- The spelling of a text is passed over, with its closing quote. -/
theorem skipText_escaped (text : List Char) (rest : List Char) :
    skipText (text.flatMap Value.escapeChar ++ '"' :: rest) = .ok rest := by
  induction text with
  | nil => simp [skipText]
  | cons c text ih => rw [List.flatMap_cons, List.append_assoc, skipText_escapeChar, ih]

/-! ## Values that can be read -/

/-- How many brackets may be open inside one more. -/
def below (depth : Option Nat) : Option Nat := depth.map (· - 1)

/-- A bracket may be opened unless all are open. -/
theorem deeper_eq_ok {depth : Option Nat} (h : depth ≠ some 0) (chars : List Char) :
    deeper chars depth = .ok (below depth) := by
  match depth with
  | none => rfl
  | some 0 => exact absurd rfl h
  | some (n + 1) => rfl

namespace Value

mutual

/-- Whether a value can be read from its text when so many brackets may be open: it is not too deep,
and each of its numbers is read as what it means. -/
def ReadableAs (meaning : Number → Number) (depth : Option Nat) : Value → Prop
  | .number n => Spells (writeNumber n) (meaning n)
  | .array items => depth ≠ some 0 ∧ ReadableItemsAs meaning (below depth) items
  | .object members => depth ≠ some 0 ∧ ReadableMembersAs meaning (below depth) members
  | .null | .bool _ | .text _ => True

def ReadableItemsAs (meaning : Number → Number) (depth : Option Nat) : List Value → Prop
  | [] => True
  | item :: rest => ReadableAs meaning depth item ∧ ReadableItemsAs meaning depth rest

def ReadableMembersAs (meaning : Number → Number) (depth : Option Nat) :
    List (String × Value) → Prop
  | [] => True
  | (_, value) :: rest => ReadableAs meaning depth value ∧ ReadableMembersAs meaning depth rest

end

/-- Whether a value is read as it is: each of its numbers means itself. -/
def Readable (depth : Option Nat) : Value → Prop := ReadableAs id depth

def ReadableItems (depth : Option Nat) : List Value → Prop := ReadableItemsAs id depth

def ReadableMembers (depth : Option Nat) : List (String × Value) → Prop :=
  ReadableMembersAs id depth

variable {τ ν : Type}

mutual

/-- The document with other texts and numbers. -/
def image (text : String → τ) (number : Number → ν) : Value → Document τ ν
  | .null => .null
  | .bool b => .bool b
  | .number n => .number (number n)
  | .text t => .text (text t)
  | .array items => .array (imageItems text number items)
  | .object members => .object (imageMembers text number members)

def imageItems (text : String → τ) (number : Number → ν) : List Value → List (Document τ ν)
  | [] => []
  | item :: rest => image text number item :: imageItems text number rest

def imageMembers (text : String → τ) (number : Number → ν) :
    List (String × Value) → List (τ × Document τ ν)
  | [] => []
  | (name, value) :: rest => (text name, image text number value) :: imageMembers text number rest

end

mutual

/-- With the same texts and numbers a value is as it is. -/
theorem image_id (value : Value) : value.image id id = value := by
  cases value with
  | null | bool | number | text => rfl
  | array items => exact congrArg Document.array (imageItems_id items)
  | object members => exact congrArg Document.object (imageMembers_id members)

/-- With the same texts and numbers the items of an array are as they are. -/
theorem imageItems_id (items : List Value) : imageItems id id items = items := by
  cases items with
  | nil => rfl
  | cons item rest => exact congrArg₂ List.cons (image_id item) (imageItems_id rest)

/-- With the same texts and numbers the members of an object are as they are. -/
theorem imageMembers_id (members : List (String × Value)) :
    imageMembers id id members = members := by
  match members with
  | [] => rfl
  | (name, value) :: rest =>
    exact congrArg₂ List.cons (congrArg (Prod.mk name) (image_id value)) (imageMembers_id rest)

end

section Image

variable (text : String → τ) (number : Number → ν) (meaning : Number → Number)

mutual

/-- Numbers may be changed first. -/
theorem image_comp (value : Value) :
    value.image text (number ∘ meaning) = Value.image text number (value.image id meaning) := by
  cases value with
  | null | bool | number | text => rfl
  | array items => exact congrArg Document.array (imageItems_comp items)
  | object members => exact congrArg Document.object (imageMembers_comp members)

/-- Two changes of the numbers of some items are one. -/
theorem imageItems_comp (items : List Value) :
    imageItems text (number ∘ meaning) items =
      imageItems text number (imageItems id meaning items) := by
  cases items with
  | nil => rfl
  | cons item rest => exact congrArg₂ List.cons (image_comp item) (imageItems_comp rest)

/-- Two changes of the numbers of some members are one. -/
theorem imageMembers_comp (members : List (String × Value)) :
    imageMembers text (number ∘ meaning) members =
      imageMembers text number (imageMembers id meaning members) := by
  match members with
  | [] => rfl
  | (name, value) :: rest =>
    exact congrArg₂ List.cons (congrArg (Prod.mk (text name)) (image_comp value))
      (imageMembers_comp rest)

end

end Image

end Value

/-- What is written is read under some rules, its texts and numbers in the form of the rules. -/
structure Rules.Accepts {τ ν : Type} (rules : Rules τ ν) (text : String → τ) (number : Number → ν) :
    Prop where
  text : ∀ (t : String) (rest : List Char),
    rules.text (t.toList.flatMap Value.escapeChar ++ '"' :: rest) = .ok (text t, rest)
  number : ∀ (numeral : Numeral) (n : Number) (rest : List Char), numeral.number? = some n →
    rules.number numeral rest = .ok (number n)

/-- The strict rules read what is written as it is. -/
theorem accepts_strict : Rules.strict.Accepts id id where
  text t rest := by
    simp only [Rules.strict, scanText_escaped, Except.map, String.ofList_toList, id]
  number numeral n rest hnumber := by
    simp only [Rules.strict, hnumber, id]

/-- The lenient rules read every text and every number that is written. -/
theorem accepts_lenient : Rules.lenient.Accepts some some where
  text t rest := by
    simp only [Rules.lenient, skipText_escaped, scanText_escaped, String.ofList_toList]
    rfl
  number numeral n rest hnumber := by
    simp only [Rules.lenient, hnumber]

/-! ## Documents -/

section Documents

variable {τ ν : Type} {rules : Rules τ ν} {text : String → τ} {number : Number → ν}
  {meaning : Number → Number} {depth : Option Nat} {fuel : Nat}

/-- What does not begin with a blank is read where it begins. -/
theorem skipSpace_cons (h : isSpace c = false) (rest : List Char) :
    skipSpace (c :: rest) = c :: rest := by
  simp [skipSpace, h]

/-- What starts with a digit or a minus is read as a numeral. -/
theorem scanDocument_numeral (hc : c = '-' ∨ c.isDigit = true) (more : List Char) :
    scanDocument rules depth (fuel + 1) (c :: more) =
      (scanNumeral (c :: more) >>= fun found =>
        rules.number found.1 found.2 >>= fun n => .ok (.number n, found.2)) := by
  have hspace : isSpace c = false := by
    refine not_isSpace_of_isNumeralChar ?_
    rcases hc with rfl | hc
    · rfl
    · exact isNumeralChar_of_isDigit hc
  rw [scanDocument, skipSpace_cons hspace]
  split
  · next heq => cases heq
  -- No literal, text, array or object starts with a digit or a minus.
  · next heq =>
    cases heq
    rcases hc with hc | hc <;> cases hc
  · next heq =>
    cases heq
    rcases hc with hc | hc <;> cases hc
  · next heq =>
    cases heq
    rcases hc with hc | hc <;> cases hc
  · next heq =>
    cases heq
    rcases hc with hc | hc <;> cases hc
  · next heq =>
    cases heq
    rcases hc with hc | hc <;> cases hc
  · next heq =>
    cases heq
    rcases hc with hc | hc <;> cases hc
  · next heq =>
    cases heq
    rw [if_pos hc]
    rfl

/-- A number is read from its spelling, whatever ends it. -/
theorem scanDocument_number (haccepts : rules.Accepts text number) {chars : List Char} {n : Number}
    (hspells : Spells chars n) (hends : EndsNumeral rest) :
    scanDocument rules depth (fuel + 1) (chars ++ rest) = .ok (.number (number n), rest) := by
  obtain ⟨numeral, hscan, hnumber⟩ := hspells.scans
  obtain ⟨c, more, rfl, hc⟩ := hspells.head
  have hlong := scanNumeral_append hscan hends
  rw [List.cons_append] at hlong ⊢
  rw [scanDocument_numeral hc, hlong]
  show (rules.number numeral rest >>= _) = _
  rw [haccepts.number numeral n rest hnumber]
  rfl

/-- A text, as a document or as a name. -/
theorem text_writeText (haccepts : rules.Accepts text number) (t : String) (rest : List Char) :
    ∃ body, Value.writeText t ++ rest = '"' :: body ∧ rules.text body = .ok (text t, rest) :=
  ⟨t.toList.flatMap Value.escapeChar ++ '"' :: rest,
    by simp [Value.writeText], haccepts.text t rest⟩

/-- A value starts with a character that starts nothing else. -/
theorem head_chars {value : Value} (h : value.ReadableAs meaning depth) :
    ∃ c more, value.chars = c :: more ∧ isSpace c = false ∧ c ≠ ']' := by
  cases value with
  | null => exact ⟨_, _, rfl, rfl, by decide⟩
  | bool b => cases b <;> exact ⟨_, _, rfl, rfl, by decide⟩
  | number n =>
    obtain ⟨c, more, hchars, hc⟩ := Spells.head h
    refine ⟨c, more, by rw [Value.chars, hchars], ?_, ?_⟩
    · exact not_isSpace_of_isNumeralChar (Spells.plain h c (hchars ▸ List.mem_cons_self))
    · rintro rfl
      rcases hc with hc | hc <;> cases hc
  | text t => exact ⟨_, _, rfl, rfl, by decide⟩
  | array items => cases items <;> exact ⟨_, _, rfl, rfl, by decide⟩
  | object members =>
    rcases members with _ | ⟨⟨name, value⟩, rest⟩ <;> exact ⟨_, _, rfl, rfl, by decide⟩

/-- Where the blanks of an array end something starts that does not end it, and is an item. -/
theorem scanItems_head {chars more : List Char} (hskip : skipSpace chars = c :: more)
    (hne : c ≠ ']') :
    scanItems rules depth (fuel + 1) chars =
      (scanDocument rules depth fuel (c :: more) >>= fun item =>
        scanMoreItems rules depth fuel item.2 >>= fun items =>
          .ok (item.1 :: items.1, items.2)) := by
  rw [scanItems, hskip]
  split
  · next heq => cases heq
  · next heq => exact absurd (List.cons.inj heq).1 hne
  · rfl

/-- What starts behind a comma in an array, and does not end it, is an item. -/
theorem scanMoreItems_head {chars after more : List Char} (hcomma : skipSpace chars = ',' :: after)
    (hskip : skipSpace after = c :: more) (hne : c ≠ ']') :
    scanMoreItems rules depth (fuel + 1) chars =
      (scanDocument rules depth fuel (c :: more) >>= fun item =>
        scanMoreItems rules depth fuel item.2 >>= fun items =>
          .ok (item.1 :: items.1, items.2)) := by
  rw [scanMoreItems, hcomma]
  split
  · next heq => cases heq
  · next heq => cases heq
  · next heq =>
    cases heq
    rw [hskip]
    split
    · next heq => cases heq
    · next heq => exact absurd (List.cons.inj heq).1 hne
    · rfl
  · next hnone => exact absurd rfl (hnone after)

/-- An item at the start of an array. -/
theorem scanItems_item {item : Value} (h : item.ReadableAs meaning depth) (after : List Char) :
    scanItems rules depth (fuel + 1) (item.chars ++ after) =
      (scanDocument rules depth fuel (item.chars ++ after) >>= fun item =>
        scanMoreItems rules depth fuel item.2 >>= fun items =>
          .ok (item.1 :: items.1, items.2)) := by
  obtain ⟨c, more, hchars, hspace, hne⟩ := head_chars h
  rw [hchars, List.cons_append]
  exact scanItems_head (skipSpace_cons hspace _) hne

/-- An item behind another one. -/
theorem scanMoreItems_item {item : Value} (h : item.ReadableAs meaning depth) (after : List Char) :
    scanMoreItems rules depth (fuel + 1) (',' :: (item.chars ++ after)) =
      (scanDocument rules depth fuel (item.chars ++ after) >>= fun item =>
        scanMoreItems rules depth fuel item.2 >>= fun items =>
          .ok (item.1 :: items.1, items.2)) := by
  obtain ⟨c, more, hchars, hspace, hne⟩ := head_chars h
  rw [hchars, List.cons_append]
  exact scanMoreItems_head (skipSpace_cons rfl _) (skipSpace_cons hspace _) hne

/-- A member, up to the value, and the members behind it. -/
theorem scanMember_name (haccepts : rules.Accepts text number) (name : String)
    (after : List Char) :
    scanMember rules depth (fuel + 1) (Value.writeText name ++ ':' :: after) =
      (scanDocument rules depth fuel after >>= fun value =>
        scanMoreMembers rules depth fuel value.2 >>= fun members =>
          .ok ((text name, value.1) :: members.1, members.2)) := by
  obtain ⟨body, hbody, hname⟩ := text_writeText haccepts name (':' :: after)
  rw [hbody]
  show (rules.text body >>= _) = _
  rw [hname]
  rfl

/-- The first member begins with its name. -/
theorem scanMembers_member (name : String) (after : List Char) :
    scanMembers rules depth (fuel + 1) (Value.writeText name ++ after) =
      scanMember rules depth fuel (Value.writeText name ++ after) := rfl

/-- A further member begins behind a comma with its name. -/
theorem scanMoreMembers_member (name : String) (after : List Char) :
    scanMoreMembers rules depth (fuel + 1) (',' :: (Value.writeText name ++ after)) =
      scanMember rules depth fuel (Value.writeText name ++ after) := rfl

/-- A numeral ends in front of a character that does not belong to one. -/
theorem endsNumeral_cons (hc : c.isDigit = false ∧ c ≠ '.' ∧ c ≠ 'e' ∧ c ≠ 'E') :
    EndsNumeral (c :: rest) := by
  intro d hd
  cases hd
  exact hc

/-- A numeral ends in front of further items. -/
theorem endsNumeral_itemChars (items : List Value) :
    EndsNumeral (Value.itemChars items ++ rest) := by
  cases items <;> exact endsNumeral_cons (by decide)

/-- A numeral ends in front of further members. -/
theorem endsNumeral_memberChars (members : List (String × Value)) :
    EndsNumeral (Value.memberChars members ++ rest) := by
  rcases members with _ | ⟨⟨name, value⟩, members⟩ <;> exact endsNumeral_cons (by decide)

/-- A value is written with one character at least. -/
theorem length_chars_pos {value : Value} (h : value.ReadableAs meaning depth) :
    0 < value.chars.length := by
  obtain ⟨c, more, hchars, _⟩ := head_chars h
  rw [hchars, List.length_cons]
  omega

/-- The items of an array, with the bracket behind them, are written with at least one
character. -/
theorem length_itemChars_pos (items : List Value) : 0 < (Value.itemChars items).length := by
  cases items <;> simp [Value.itemChars]

/-- The members of an object, with the brace behind them, are written with at least one
character. -/
theorem length_memberChars_pos (members : List (String × Value)) :
    0 < (Value.memberChars members).length := by
  rcases members with _ | ⟨⟨name, value⟩, members⟩ <;> simp [Value.memberChars]

mutual

/-- The characters of a value are read as what it means, whatever comes behind it. No more steps are
needed than there are characters. -/
theorem scanDocument_chars (haccepts : rules.Accepts text number) (value : Value)
    (depth : Option Nat) (fuel : Nat) (rest : List Char) (h : value.ReadableAs meaning depth)
    (hfuel : value.chars.length ≤ fuel) (hends : EndsNumeral rest) :
    scanDocument rules depth fuel (value.chars ++ rest) =
      .ok (value.image text (number ∘ meaning), rest) := by
  have hpos := length_chars_pos h
  obtain ⟨fuel, rfl⟩ : ∃ n, fuel = n + 1 := ⟨fuel - 1, by omega⟩
  -- The calls go by the value. Fuel is spent on brackets too, and each has a character of its own.
  match value with
  | .null => rfl
  | .bool true => rfl
  | .bool false => rfl
  | .number n => exact scanDocument_number haccepts h hends
  | .text t =>
    obtain ⟨body, hbody, htext⟩ := text_writeText haccepts t rest
    rw [Value.chars, hbody]
    show (rules.text body >>= _) = _
    rw [htext]
    rfl
  | .array [] =>
    obtain ⟨fuel, rfl⟩ : ∃ n, fuel = n + 1 := by
      simp only [Value.chars, List.length_cons, List.length_nil] at hfuel
      exact ⟨fuel - 1, by omega⟩
    show (deeper ('[' :: ']' :: rest) depth >>= _) = _
    rw [deeper_eq_ok h.1]
    rfl
  | .array (item :: items) =>
    have hitem := length_chars_pos h.2.1
    have hitems := length_itemChars_pos items
    simp only [Value.chars, List.length_cons, List.length_append] at hfuel
    obtain ⟨fuel, rfl⟩ : ∃ n, fuel = n + 1 := ⟨fuel - 1, by omega⟩
    have hfirst := scanDocument_chars haccepts item _ fuel (Value.itemChars items ++ rest) h.2.1
      (by omega) (endsNumeral_itemChars items)
    have hrest := scanMoreItems_chars haccepts items _ fuel rest h.2.2 (by omega)
    rw [Value.chars, List.cons_append, List.append_assoc]
    show (deeper _ depth >>= fun depth => scanItems rules depth (fuel + 1) _ >>= _) = _
    rw [deeper_eq_ok h.1]
    show (scanItems rules (below depth) (fuel + 1) _ >>= _) = _
    rw [scanItems_item h.2.1, hfirst]
    show ((scanMoreItems rules (below depth) fuel _ >>= _) >>= _) = _
    rw [hrest]
    rfl
  | .object [] =>
    obtain ⟨fuel, rfl⟩ : ∃ n, fuel = n + 1 := by
      simp only [Value.chars, List.length_cons, List.length_nil] at hfuel
      exact ⟨fuel - 1, by omega⟩
    show (deeper ('\x7b' :: '\x7d' :: rest) depth >>= _) = _
    rw [deeper_eq_ok h.1]
    rfl
  | .object ((name, value) :: members) =>
    have hvalue := length_chars_pos h.2.1
    have hmembers := length_memberChars_pos members
    simp only [Value.chars, List.length_cons, List.length_append] at hfuel
    obtain ⟨fuel, rfl⟩ : ∃ n, fuel = n + 2 := ⟨fuel - 2, by omega⟩
    have hfirst := scanDocument_chars haccepts value _ fuel (Value.memberChars members ++ rest)
      h.2.1 (by omega) (endsNumeral_memberChars members)
    have hrest := scanMoreMembers_chars haccepts members _ fuel rest h.2.2 (by omega)
    rw [Value.chars, List.cons_append, List.append_assoc, List.cons_append, List.append_assoc]
    show (deeper _ depth >>= fun depth => scanMembers rules depth (fuel + 2) _ >>= _) = _
    rw [deeper_eq_ok h.1]
    show (scanMembers rules (below depth) (fuel + 2) _ >>= _) = _
    rw [scanMembers_member, scanMember_name haccepts, hfirst]
    show ((scanMoreMembers rules (below depth) fuel _ >>= _) >>= _) = _
    rw [hrest]
    rfl

/-- Items that can be read are read from what is written, up to the closing bracket. -/
theorem scanMoreItems_chars (haccepts : rules.Accepts text number) (items : List Value)
    (depth : Option Nat) (fuel : Nat) (rest : List Char)
    (h : Value.ReadableItemsAs meaning depth items)
    (hfuel : (Value.itemChars items).length ≤ fuel) :
    scanMoreItems rules depth fuel (Value.itemChars items ++ rest) =
      .ok (Value.imageItems text (number ∘ meaning) items, rest) := by
  have hpos := length_itemChars_pos items
  obtain ⟨fuel, rfl⟩ : ∃ n, fuel = n + 1 := ⟨fuel - 1, by omega⟩
  match items with
  | [] => rfl
  | item :: items =>
    have hitems := length_itemChars_pos items
    simp only [Value.itemChars, List.length_cons, List.length_append] at hfuel
    have hfirst := scanDocument_chars haccepts item _ fuel (Value.itemChars items ++ rest) h.1
      (by omega) (endsNumeral_itemChars items)
    have hrest := scanMoreItems_chars haccepts items _ fuel rest h.2 (by omega)
    rw [Value.itemChars, List.cons_append, List.append_assoc, scanMoreItems_item h.1, hfirst]
    show (scanMoreItems rules depth fuel _ >>= _) = _
    rw [hrest]
    rfl

/-- Members that can be read are read from what is written, up to the closing brace. -/
theorem scanMoreMembers_chars (haccepts : rules.Accepts text number)
    (members : List (String × Value)) (depth : Option Nat) (fuel : Nat) (rest : List Char)
    (h : Value.ReadableMembersAs meaning depth members)
    (hfuel : (Value.memberChars members).length ≤ fuel) :
    scanMoreMembers rules depth fuel (Value.memberChars members ++ rest) =
      .ok (Value.imageMembers text (number ∘ meaning) members, rest) := by
  have hpos := length_memberChars_pos members
  match members with
  | [] =>
    obtain ⟨fuel, rfl⟩ : ∃ n, fuel = n + 1 := ⟨fuel - 1, by omega⟩
    rfl
  | (name, value) :: members =>
    have hmembers := length_memberChars_pos members
    simp only [Value.memberChars, List.length_cons, List.length_append] at hfuel
    obtain ⟨fuel, rfl⟩ : ∃ n, fuel = n + 2 := ⟨fuel - 2, by omega⟩
    have hfirst := scanDocument_chars haccepts value _ fuel (Value.memberChars members ++ rest)
      h.1 (by omega) (endsNumeral_memberChars members)
    have hrest := scanMoreMembers_chars haccepts members _ fuel rest h.2 (by omega)
    rw [Value.memberChars, List.cons_append, List.append_assoc, List.cons_append,
      List.append_assoc, scanMoreMembers_member, scanMember_name haccepts, hfirst]
    show (scanMoreMembers rules depth fuel _ >>= _) = _
    rw [hrest]
    rfl

end

end Documents

/-! ## Whole texts -/

section Texts

variable {τ ν : Type} {rules : Rules τ ν} {text : String → τ} {number : Number → ν} {value : Value}
  {meaning : Number → Number} {depth : Option Nat}

/-- A value that can be read is read from its whole text. -/
theorem scanWholeDocument_chars (haccepts : rules.Accepts text number)
    (h : value.ReadableAs meaning rules.depth) :
    scanWholeDocument rules value.chars = .ok (value.image text (number ∘ meaning)) := by
  have hscan := scanDocument_chars haccepts value rules.depth (readingSteps value.chars) [] h
    (by unfold readingSteps; omega) nofun
  rw [List.append_nil] at hscan
  unfold scanWholeDocument
  rw [hscan]
  rfl

/-- A value is read from its text as what it means, with its members in order. -/
theorem readValue_writeAs (h : value.ReadableAs meaning (some 127)) :
    readValue value.write = .ok (Value.sorted (value.image id meaning)) := by
  unfold readValue Value.write
  rw [String.toList_ofList, scanWholeDocument_chars accepts_strict h]
  rfl

/-- A value that is read as it is comes back sorted. -/
theorem readValue_write (h : value.Readable (some 127)) :
    readValue value.write = .ok value.sorted := by
  rw [readValue_writeAs h, Value.image_id]

/-- The members of a value need no order where only some of them are looked for. -/
theorem readLenient?_writeAs (h : value.ReadableAs meaning none) :
    readLenient? value.write = some (Value.image some some (value.image id meaning)) := by
  unfold readLenient? Value.write
  rw [String.toList_ofList, scanWholeDocument_chars accepts_lenient h, Value.image_comp]
  rfl

/-- The lenient reader gives the value as it is. -/
theorem readLenient?_write (h : value.Readable none) :
    readLenient? value.write = some (value.image some some) := by
  rw [readLenient?_writeAs h, Value.image_id]

/-! ## The characters of a text -/

/-- Some characters among which there are no control characters. -/
def Printable (chars : List Char) : Prop := ∀ c ∈ chars, 0x20 ≤ c.toNat

/-- Two pieces of text have no control characters if neither of them has one. -/
theorem printable_append {first second : List Char} :
    Printable (first ++ second) ↔ Printable first ∧ Printable second :=
  List.forall_mem_append

/-- One more character is no control character, and neither are the others. -/
theorem printable_cons {c : Char} {rest : List Char} :
    Printable (c :: rest) ↔ 0x20 ≤ c.toNat ∧ Printable rest :=
  List.forall_mem_cons

/-- That some characters have no control characters can be tested one by one. -/
theorem printable_of_all {chars : List Char}
    (h : (chars.all fun c => decide (0x20 ≤ c.toNat)) = true) : Printable chars := by
  simpa [Printable] using h

/-- No hexadecimal digit is a control character. -/
theorem printable_digitChar : ∀ n < 16, 0x20 ≤ (Nat.digitChar n).toNat := by
  decide

/-- The spelling of a character has no control characters. -/
theorem printable_escapeChar (c : Char) : Printable (Value.escapeChar c) := by
  unfold Value.escapeChar
  split
  · exact printable_of_all rfl
  · exact printable_of_all rfl
  · exact printable_of_all rfl
  · exact printable_of_all rfl
  · exact printable_of_all rfl
  · exact printable_of_all rfl
  · exact printable_of_all rfl
  · split
    · intro d hd
      simp only [Value.unitEscape, List.mem_cons, List.not_mem_nil, or_false] at hd
      rcases hd with rfl | rfl | rfl | rfl | rfl | rfl
      · decide
      · decide
      · decide
      · decide
      · exact printable_digitChar _ (by omega)
      · exact printable_digitChar _ (by omega)
    · intro d hd
      rw [List.mem_singleton.1 hd]
      omega

/-- The spelling of a text has none. -/
theorem printable_writeText (t : String) : Printable (Value.writeText t) := by
  intro d hd
  simp only [Value.writeText, List.mem_cons, List.mem_append, List.mem_flatMap, List.not_mem_nil,
    or_false] at hd
  rcases hd with rfl | ⟨c, _, hd⟩ | rfl
  · decide
  · exact printable_escapeChar c d hd
  · decide

/-- The characters of a number are no control characters. -/
theorem printable_of_isNumeralChar {chars : List Char}
    (h : ∀ c ∈ chars, isNumeralChar c = true) : Printable chars := by
  intro c hc
  have hplain := h c hc
  simp only [isNumeralChar, Bool.or_eq_true, decide_eq_true_eq] at hplain
  rcases hplain with (((hdigit | rfl) | rfl) | rfl) | rfl
  · exact Nat.le_trans (by decide) (Char.isDigit_iff_toNat.1 hdigit).1
  · decide
  · decide
  · decide
  · decide

mutual

/-- Control characters are escaped, and there are no blanks between the parts. -/
theorem printable_chars (value : Value) (depth : Option Nat) (h : value.ReadableAs meaning depth) :
    Printable value.chars := by
  match value with
  | .null | .bool true | .bool false | .array [] | .object [] => exact printable_of_all rfl
  | .number n => exact printable_of_isNumeralChar (Spells.plain h)
  | .text t => exact printable_writeText t
  | .array (item :: items) =>
    have hitem := printable_chars item _ h.2.1
    have hitems := printable_itemChars items _ h.2.2
    simp only [Value.chars, printable_cons, printable_append]
    exact ⟨by decide, hitem, hitems⟩
  | .object ((name, value) :: members) =>
    have hvalue := printable_chars value _ h.2.1
    have hmembers := printable_memberChars members _ h.2.2
    simp only [Value.chars, printable_cons, printable_append]
    exact ⟨by decide, printable_writeText name, by decide, hvalue, hmembers⟩

/-- What items are written with has no control characters. -/
theorem printable_itemChars (items : List Value) (depth : Option Nat)
    (h : Value.ReadableItemsAs meaning depth items) : Printable (Value.itemChars items) := by
  match items with
  | [] => exact printable_of_all rfl
  | item :: items =>
    have hitem := printable_chars item _ h.1
    have hitems := printable_itemChars items _ h.2
    simp only [Value.itemChars, printable_cons, printable_append]
    exact ⟨by decide, hitem, hitems⟩

/-- What members are written with has none. -/
theorem printable_memberChars (members : List (String × Value)) (depth : Option Nat)
    (h : Value.ReadableMembersAs meaning depth members) :
    Printable (Value.memberChars members) := by
  match members with
  | [] => exact printable_of_all rfl
  | (name, value) :: members =>
    have hvalue := printable_chars value _ h.1
    have hmembers := printable_memberChars members _ h.2
    simp only [Value.memberChars, printable_cons, printable_append]
    exact ⟨by decide, printable_writeText name, by decide, hvalue, hmembers⟩

end

end Texts

end TriggerDesk.Json
