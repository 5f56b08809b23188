import TriggerDesk.Proofs.Json.Numerals
import TriggerDesk.Proofs.Json.RoundTrip

/-!
# The grammar of JSON

What the texts of JSON are, without a reader: a numeral and the characters of a text are said by
their parts (`IsNumeral`, `IsQuoted`), a document by what it is made of (`Derives`). A lexicon says
what numerals and texts stand for. The readers of numerals and texts find what the grammar says and
nothing else (`isNumeral_of_scanNumeral`, `scanText_iff`).
-/

namespace TriggerDesk.Json

variable {chars digits rest after body : List Char} {c : Char}

/-! ## Numerals -/

/-- Digits, at least one. -/
def Digits (chars : List Char) : Prop := chars ≠ [] ∧ ∀ c ∈ chars, c.isDigit = true

/-- A point and digits behind it, or nothing. -/
inductive IsFraction : List Char → Option (List Char) → Prop where
  | absent : IsFraction [] none
  | present {digits : List Char} : Digits digits → IsFraction ('.' :: digits) (some digits)

/-- The sign of an exponent, and whether it is a minus. -/
inductive IsSign : List Char → Bool → Prop where
  | absent : IsSign [] false
  | plus : IsSign ['+'] false
  | minus : IsSign ['-'] true

/-- An `e` in either case, perhaps a sign, and digits; or nothing. -/
inductive IsExponent : List Char → Option (Bool × List Char) → Prop where
  | absent : IsExponent [] none
  | present {mark : Char} {sign digits : List Char} {negative : Bool} : mark = 'e' ∨ mark = 'E' →
      IsSign sign negative → Digits digits →
      IsExponent (mark :: (sign ++ digits)) (some (negative, digits))

/-- Digits that may stand in front of the point: some, and none behind a zero. -/
structure IsWhole (digits : List Char) : Prop where
  all : ∀ c ∈ digits, c.isDigit = true
  ne : digits ≠ []
  zero : ∀ more, digits = '0' :: more → more = []

/-- A numeral: perhaps a minus, whole digits, and perhaps a fraction and an exponent. -/
inductive IsNumeral : List Char → Numeral → Prop where
  | intro {negative : Bool} {whole point power : List Char} {fraction : Option (List Char)}
      {exponent : Option (Bool × List Char)} :
      IsWhole whole → IsFraction point fraction → IsExponent power exponent →
      IsNumeral ((if negative then ['-'] else []) ++ (whole ++ (point ++ power)))
        ⟨negative, whole, fraction, exponent⟩

/-- Digits end in front of some characters. -/
def EndsDigits (rest : List Char) : Prop := ∀ c, rest.head? = some c → c.isDigit = false

/-- Where a numeral ends, digits end. -/
theorem EndsNumeral.endsDigits (h : EndsNumeral rest) : EndsDigits rest :=
  fun c hc => (h c hc).1

/-- Digits are found, up to where they end. -/
theorem scanDigits_of_digits (h : Digits digits) (hends : EndsDigits rest) :
    scanDigits (digits ++ rest) = .ok (digits, rest) := by
  refine scanDigits_of_span ?_ h.1
  have hrest : rest.takeWhile Char.isDigit = [] ∧ rest.dropWhile Char.isDigit = rest := by
    cases rest with
    | nil => exact ⟨rfl, rfl⟩
    | cons c rest => simp [hends c rfl]
  rw [Decimal.spanDigits, List.takeWhile_append_of_pos h.2, List.dropWhile_append_of_pos h.2,
    hrest.1, hrest.2, List.append_nil]

/-- What is found are digits, and they stood in front of the rest. -/
theorem digits_of_scanDigits (h : scanDigits chars = .ok (digits, after)) :
    chars = digits ++ after ∧ Digits digits := by
  obtain ⟨hchars, hdigits⟩ := scanDigits_spells h
  exact ⟨hchars, (scanDigits_eq_ok h).2, hdigits⟩

/-- Whole digits are found, up to where digits end. -/
theorem scanWhole_of_isWhole (h : IsWhole digits) (hends : EndsDigits rest) :
    scanWhole (digits ++ rest) = .ok (digits, rest) := by
  unfold scanWhole
  split
  · next d more heq =>
    cases digits with
    | nil => exact absurd rfl h.ne
    | cons first others =>
      obtain ⟨rfl, htail⟩ := List.cons.inj heq
      cases h.zero others rfl
      obtain rfl : rest = d :: more := htail
      rw [if_neg (by rw [hends d rfl]; exact Bool.false_ne_true)]
  · exact scanDigits_of_digits ⟨h.ne, h.all⟩ hends

/-- What is found are whole digits, and they stood in front of the rest. -/
theorem isWhole_of_scanWhole (h : scanWhole chars = .ok (digits, after)) :
    chars = digits ++ after ∧ IsWhole digits := by
  unfold scanWhole at h
  split at h
  · split at h
    · cases h
    · cases h
      exact ⟨rfl, List.forall_mem_singleton.2 rfl, nofun,
        fun more hmore => (List.cons.inj hmore).2.symm⟩
  · next hshape =>
    obtain ⟨rfl, hdigits⟩ := digits_of_scanDigits h
    refine ⟨rfl, hdigits.2, hdigits.1, fun more hmore => ?_⟩
    cases more with
    | nil => rfl
    | cons d more =>
      subst hmore
      exact absurd rfl (hshape d (more ++ after))

/-- A fraction is found as it is, or that there is none, if no further digit and no point follow. -/
theorem scanFraction_of_isFraction {fraction : Option (List Char)} (h : IsFraction chars fraction)
    (hends : EndsDigits rest) (hpoint : rest.head? ≠ some '.') :
    scanFraction (chars ++ rest) = .ok (fraction, rest) := by
  cases h with
  | absent =>
    rw [List.nil_append]
    unfold scanFraction
    split
    · exact absurd rfl hpoint
    · rfl
  | present hdigits =>
    rw [List.cons_append, scanFraction, scanDigits_of_digits hdigits hends]
    rfl

/-- What is found is a fraction or none, and it stood in front of the rest. -/
theorem isFraction_of_scanFraction {fraction : Option (List Char)}
    (h : scanFraction chars = .ok (fraction, after)) :
    ∃ body, chars = body ++ after ∧ IsFraction body fraction := by
  unfold scanFraction at h
  split at h
  · obtain ⟨⟨digits, behind⟩, hscan, h⟩ := bind_eq_ok h
    cases h
    obtain ⟨rfl, hdigits⟩ := digits_of_scanDigits hscan
    exact ⟨_, rfl, .present hdigits⟩
  · cases h
    exact ⟨[], rfl, .absent⟩

/-- A sign is taken from in front of digits. -/
theorem takeSign_of_isSign {sign : List Char} {negative : Bool} (h : IsSign sign negative)
    (hdigits : Digits digits) :
    Decimal.takeSign (sign ++ (digits ++ rest)) = (negative, digits ++ rest) := by
  cases h with
  | plus | minus => rfl
  | absent =>
    cases digits with
    | nil => exact absurd rfl hdigits.1
    | cons d more =>
      have hd := hdigits.2 d List.mem_cons_self
      show Decimal.takeSign (d :: (more ++ rest)) = _
      unfold Decimal.takeSign
      split
      · next heq =>
        cases heq
        cases hd
      · next heq =>
        cases heq
        cases hd
      · rfl

/-- What is taken is a sign, perhaps an empty one. -/
theorem isSign_takeSign (chars : List Char) :
    ∃ sign, chars = sign ++ (Decimal.takeSign chars).2 ∧
      IsSign sign (Decimal.takeSign chars).1 := by
  unfold Decimal.takeSign
  split
  · exact ⟨['-'], rfl, .minus⟩
  · exact ⟨['+'], rfl, .plus⟩
  · exact ⟨[], rfl, .absent⟩

/-- An exponent is found as it is, or that there is none, if the numeral ends there. -/
theorem scanExponent_of_isExponent {exponent : Option (Bool × List Char)}
    (h : IsExponent chars exponent) (hends : EndsNumeral rest) :
    scanExponent (chars ++ rest) = .ok (exponent, rest) := by
  cases h with
  | absent =>
    cases rest with
    | nil => rfl
    | cons c rest =>
      obtain ⟨_, _, he, hE⟩ := hends c rfl
      rw [List.nil_append, scanExponent, if_neg (by simp [he, hE])]
  | present hmark hsign hdigits =>
    rw [List.cons_append, List.append_assoc, scanExponent, if_pos hmark,
      takeSign_of_isSign hsign hdigits]
    dsimp only
    rw [scanDigits_of_digits hdigits hends.endsDigits]
    rfl

/-- What is found is an exponent or none, and it stood in front of the rest. -/
theorem isExponent_of_scanExponent {exponent : Option (Bool × List Char)}
    (h : scanExponent chars = .ok (exponent, after)) :
    ∃ body, chars = body ++ after ∧ IsExponent body exponent := by
  unfold scanExponent at h
  split at h
  · next c more =>
    split at h
    · next hmark =>
      obtain ⟨sign, hchars, hsign⟩ := isSign_takeSign more
      cases htake : Decimal.takeSign more with
      | mk negative unsigned =>
        rw [htake] at h hchars hsign
        obtain ⟨⟨digits, behind⟩, hscan, h⟩ := bind_eq_ok h
        cases h
        obtain ⟨rfl, hdigits⟩ := digits_of_scanDigits hscan
        refine ⟨_, ?_, .present hmark hsign hdigits⟩
        rw [List.cons_append, List.append_assoc, ← hchars]
    · cases h
      exact ⟨[], rfl, .absent⟩
  · cases h
    exact ⟨[], rfl, .absent⟩

/-- What may stand behind the whole digits of a numeral. -/
theorem endsDigits_point {point power : List Char} {fraction : Option (List Char)}
    {exponent : Option (Bool × List Char)} (hpoint : IsFraction point fraction)
    (hpower : IsExponent power exponent) (hends : EndsNumeral rest) :
    EndsDigits (power ++ rest) ∧ (power ++ rest).head? ≠ some '.' ∧
      EndsDigits (point ++ (power ++ rest)) := by
  have hbehind : EndsDigits (power ++ rest) ∧ (power ++ rest).head? ≠ some '.' := by
    cases hpower with
    | absent => exact ⟨hends.endsDigits, fun hdot => (hends '.' hdot).2.1 rfl⟩
    | present hmark =>
      refine ⟨fun c hc => ?_, fun hdot => ?_⟩
      · cases hc
        rcases hmark with rfl | rfl <;> rfl
      · cases hdot
        rcases hmark with hmark | hmark <;> cases hmark
  refine ⟨hbehind.1, hbehind.2, ?_⟩
  cases hpoint with
  | absent => exact hbehind.1
  | present =>
    intro c hc
    cases hc
    rfl

/-- A numeral is found with its parts, if it ends there. -/
theorem scanNumeral_of_isNumeral {numeral : Numeral} (h : IsNumeral chars numeral)
    (hends : EndsNumeral rest) : scanNumeral (chars ++ rest) = .ok (numeral, rest) := by
  cases h with
  | @intro negative whole point power fraction exponent hwhole hpoint hpower =>
    obtain ⟨hpowerEnds, hdot, hpointEnds⟩ := endsDigits_point hpoint hpower hends
    have hsign : splitMinus
        ((if negative then ['-'] else []) ++ (whole ++ (point ++ power)) ++ rest) =
          (negative, whole ++ (point ++ (power ++ rest))) := by
      simp only [List.append_assoc]
      cases negative with
      | true => rfl
      | false =>
        cases whole with
        | nil => exact absurd rfl hwhole.ne
        | cons d more =>
          have hd := hwhole.all d List.mem_cons_self
          show splitMinus (d :: (more ++ (point ++ (power ++ rest)))) = _
          unfold splitMinus
          split
          · next heq =>
            cases heq
            cases hd
          · rfl
    refine scanNumeral_of_parts (by rw [hsign]) ?_
      (scanFraction_of_isFraction hpoint hpowerEnds hdot) (scanExponent_of_isExponent hpower hends)
    rw [hsign]
    exact scanWhole_of_isWhole hwhole hpointEnds

/-- What is found is a numeral, and it stood in front of the rest. -/
theorem isNumeral_of_scanNumeral {numeral : Numeral}
    (h : scanNumeral chars = .ok (numeral, after)) :
    ∃ body, chars = body ++ after ∧ IsNumeral body numeral := by
  obtain ⟨behindWhole, behindFraction, hsign, hwhole, hfraction, hexponent⟩ := scanNumeral_eq_ok h
  obtain ⟨hchars, hdigits⟩ := isWhole_of_scanWhole hwhole
  obtain ⟨point, rfl, hpoint⟩ := isFraction_of_scanFraction hfraction
  obtain ⟨power, rfl, hpower⟩ := isExponent_of_scanExponent hexponent
  refine ⟨_, ?_, .intro hdigits hpoint hpower⟩
  have hsplit : chars = (if numeral.negative then ['-'] else []) ++ (splitMinus chars).2 := by
    rw [← hsign]
    unfold splitMinus
    split <;> rfl
  rw [hsplit, hchars]
  simp only [List.append_assoc]

/-! ## Texts -/

/-- The characters that stand for one character of a text: itself, or an escape. A numbered escape
is a code unit, and those of a pair of surrogates are one character. -/
inductive IsLetter : List Char → Char → Prop where
  | plain {c : Char} : c ≠ '"' → c ≠ '\\' → 0x20 ≤ c.toNat → IsLetter [c] c
  | escape {c d : Char} : letterEscape? c = some d → IsLetter ['\\', c] d
  | unit {p q r s : Char} {unit : Nat} : unitOf? p q r s = some unit →
      isLowSurrogate unit = false → isHighSurrogate unit = false →
      IsLetter ['\\', 'u', p, q, r, s] (Char.ofNat unit)
  | pair {p q r s p' q' r' s' : Char} {high low : Nat} : unitOf? p q r s = some high →
      isHighSurrogate high = true → unitOf? p' q' r' s' = some low → isLowSurrogate low = true →
      IsLetter ['\\', 'u', p, q, r, s, '\\', 'u', p', q', r', s'] (pairChar high low)

/-- The characters between the quotes of a text. -/
inductive IsQuoted : List Char → List Char → Prop where
  | nil : IsQuoted [] []
  | cons {letter body text : List Char} {c : Char} : IsLetter letter c → IsQuoted body text →
      IsQuoted (letter ++ body) (c :: text)

/-- A code unit is the first or the second one of a pair, never both. -/
theorem isLowSurrogate_of_isHighSurrogate {unit : Nat} (h : isHighSurrogate unit = true) :
    isLowSurrogate unit = false := by
  simp only [isHighSurrogate, Bool.and_eq_true, decide_eq_true_eq] at h
  simp only [isLowSurrogate, Bool.and_eq_false_iff, decide_eq_false_iff_not]
  omega

/-- What stands for a character of a text is read as that character, whatever follows. -/
theorem scanText_letter {letter : List Char} (h : IsLetter letter c) (rest : List Char) :
    scanText (letter ++ rest) = consChar c (scanText rest) := by
  cases h with
  | plain hquote hslash hplain => exact scanText_plain hquote hslash (Nat.not_lt.2 hplain)
  | @escape e _ hescape =>
    have hunit : e ≠ 'u' := by
      rintro rfl
      cases hescape
    show scanText ('\\' :: e :: rest) = _
    rw [scanText, hescape]
    all_goals simp_all
  | unit hunit hlow hhigh =>
    simp only [List.cons_append, List.nil_append, scanText, hunit, hlow, hhigh, Bool.false_eq_true,
      if_false]
  | pair hhigh hisHigh hlow hisLow =>
    have hnotLow := isLowSurrogate_of_isHighSurrogate hisHigh
    simp only [List.cons_append, List.nil_append, scanText, hhigh, hisHigh, hnotLow, hlow, hisLow,
      Bool.false_eq_true, if_false, if_true]

/-- The characters between the quotes are read as their text, up to the closing quote. -/
theorem scanText_of_isQuoted {text : List Char} (h : IsQuoted body text) (rest : List Char) :
    scanText (body ++ '"' :: rest) = .ok (text, rest) := by
  induction h with
  | nil => rw [List.nil_append, scanText]
  | cons hletter _ ih =>
    rw [List.append_assoc, scanText_letter hletter, ih]
    rfl

/-- A character in front of a text that is read. -/
theorem consChar_eq_ok {scan : Except Fault (List Char × List Char)} {text : List Char}
    (h : consChar c scan = .ok (text, rest)) :
    ∃ more, scan = .ok (more, rest) ∧ text = c :: more := by
  obtain ⟨⟨more, behind⟩, hscan, heq⟩ := map_eq_ok h
  cases heq
  exact ⟨more, hscan, rfl⟩

/-- A letter in front of what was read. -/
theorem isQuoted_letter {letter text : List Char} (hletter : IsLetter letter c)
    (ih : ∀ {text rest}, scanText chars = .ok (text, rest) →
      ∃ body, chars = body ++ '"' :: rest ∧ IsQuoted body text)
    (h : consChar c (scanText chars) = .ok (text, rest)) :
    ∃ body, letter ++ chars = body ++ '"' :: rest ∧ IsQuoted body text := by
  obtain ⟨more, hscan, rfl⟩ := consChar_eq_ok h
  obtain ⟨body, rfl, htext⟩ := ih hscan
  exact ⟨letter ++ body, (List.append_assoc ..).symm, .cons hletter htext⟩

/-- What is read as a text stood between quotes, and is what its characters stand for. -/
theorem isQuoted_of_scanText {text : List Char} (h : scanText chars = .ok (text, rest)) :
    ∃ body, chars = body ++ '"' :: rest ∧ IsQuoted body text := by
  fun_induction scanText chars generalizing text rest with
  | case2 =>
    cases h
    exact ⟨[], rfl, .nil⟩
  | case6 p q r s high hhigh _ hisHigh p' q' r' s' more low hlow hisLow ih =>
    exact isQuoted_letter (.pair hhigh hisHigh hlow hisLow) ih h
  | case13 p q r s more unit hunit hlow hhigh ih =>
    exact isQuoted_letter (.unit hunit (Bool.eq_false_iff.2 hlow) (Bool.eq_false_iff.2 hhigh)) ih h
  | case16 e more _ _ d hescape ih => exact isQuoted_letter (.escape hescape) ih h
  | case19 d more hquote _ _ hend hslash hplain ih =>
    refine isQuoted_letter (.plain hquote (fun heq => ?_) (Nat.not_lt.1 hplain)) ih h
    cases more with
    | nil => exact hend heq rfl
    | cons e more => exact hslash e more heq rfl
  -- Everything else is a fault.
  | case1 | case3 | case4 | case5 | case7 | case8 | case9 | case10 | case11 | case12 | case14
  | case15 | case17 | case18 => cases h

/-- A text is read from characters exactly if they begin with a spelling of it and a closing
quote. -/
theorem scanText_iff {text : List Char} :
    scanText chars = .ok (text, rest) ↔
      ∃ body, chars = body ++ '"' :: rest ∧ IsQuoted body text := by
  refine ⟨isQuoted_of_scanText, ?_⟩
  rintro ⟨body, rfl, htext⟩
  exact scanText_of_isQuoted htext rest

/-! ## Documents -/

/-- Blanks only. -/
def Blank (chars : List Char) : Prop := ∀ c ∈ chars, isSpace c = true

/-- What the characters of a text and the parts of a numeral stand for. -/
structure Lexicon (τ ν : Type) where
  text : List Char → τ → Prop
  number : Numeral → ν → Prop

/-- Every escape and every numeral has a value. -/
def Lexicon.strict : Lexicon String Number where
  text body t := IsQuoted body t.toList
  number numeral n := numeral.number? = some n

section Documents

variable {τ ν : Type}

/-- A document between blanks. -/
structure Item (τ ν : Type) where
  before : List Char
  chars : List Char
  after : List Char
  value : Document τ ν

/-- The characters of an item, its blanks included. -/
def Item.spelling (item : Item τ ν) : List Char := item.before ++ (item.chars ++ item.after)

/-- Around the document there are only blanks. -/
structure Item.Padded (item : Item τ ν) : Prop where
  before : Blank item.before
  after : Blank item.after

/-- A name between blanks, and an item. -/
structure Member (τ ν : Type) where
  before : List Char
  nameChars : List Char
  after : List Char
  name : τ
  item : Item τ ν

def Member.spelling (member : Member τ ν) : List Char :=
  member.before ++ ('"' :: (member.nameChars ++
    ('"' :: (member.after ++ (':' :: member.item.spelling)))))

/-- The name is read by a lexicon, and around both parts there are only blanks. -/
structure Member.Padded (lexicon : Lexicon τ ν) (member : Member τ ν) : Prop where
  before : Blank member.before
  after : Blank member.after
  name : lexicon.text member.nameChars member.name
  item : member.item.Padded

/-- The member as it stands in a document. -/
def Member.entry (member : Member τ ν) : τ × Document τ ν := (member.name, member.item.value)

/-- The items behind the first one, each behind a comma. -/
def moreItems (items : List (Item τ ν)) : List Char :=
  items.flatMap fun item => ',' :: item.spelling

def moreMembers (members : List (Member τ ν)) : List Char :=
  members.flatMap fun member => ',' :: member.spelling

/-- The characters of a document in which so many brackets may be open. -/
inductive Derives (lexicon : Lexicon τ ν) : Option Nat → List Char → Document τ ν → Prop where
  | null {depth : Option Nat} : Derives lexicon depth ['n', 'u', 'l', 'l'] .null
  | trueWord {depth : Option Nat} : Derives lexicon depth ['t', 'r', 'u', 'e'] (.bool true)
  | falseWord {depth : Option Nat} : Derives lexicon depth ['f', 'a', 'l', 's', 'e'] (.bool false)
  | number {depth : Option Nat} {chars : List Char} {numeral : Numeral} {n : ν} :
      IsNumeral chars numeral → lexicon.number numeral n → Derives lexicon depth chars (.number n)
  | text {depth : Option Nat} {body : List Char} {t : τ} : lexicon.text body t →
      Derives lexicon depth ('"' :: (body ++ ['"'])) (.text t)
  | noItems {depth : Option Nat} {blanks : List Char} : depth ≠ some 0 → Blank blanks →
      Derives lexicon depth ('[' :: (blanks ++ [']'])) (.array [])
  | items {depth : Option Nat} {first : Item τ ν} {others : List (Item τ ν)} : depth ≠ some 0 →
      (∀ item ∈ first :: others, item.Padded) →
      (∀ item ∈ first :: others, Derives lexicon (below depth) item.chars item.value) →
      Derives lexicon depth ('[' :: (first.spelling ++ (moreItems others ++ [']'])))
        (.array (first.value :: others.map (·.value)))
  | noMembers {depth : Option Nat} {blanks : List Char} : depth ≠ some 0 → Blank blanks →
      Derives lexicon depth ('\x7b' :: (blanks ++ ['\x7d'])) (.object [])
  | members {depth : Option Nat} {first : Member τ ν} {others : List (Member τ ν)} :
      depth ≠ some 0 → (∀ member ∈ first :: others, member.Padded lexicon) →
      (∀ member ∈ first :: others,
        Derives lexicon (below depth) member.item.chars member.item.value) →
      Derives lexicon depth ('\x7b' :: (first.spelling ++ (moreMembers others ++ ['\x7d'])))
        (.object (first.entry :: others.map (·.entry)))

/-- The characters of a whole text: a document between blanks. -/
def DerivesWhole (lexicon : Lexicon τ ν) (depth : Option Nat) (chars : List Char)
    (document : Document τ ν) : Prop :=
  ∃ item : Item τ ν, item.spelling = chars ∧ item.value = document ∧ item.Padded ∧
    Derives lexicon depth item.chars document

end Documents

end TriggerDesk.Json
