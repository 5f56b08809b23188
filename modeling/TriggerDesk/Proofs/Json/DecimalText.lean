import TriggerDesk.Proofs.Json.Grammar
import TriggerDesk.Proofs.Json.Scaling

/-!
# The text of a decimal is read as that decimal

`Parts` are the whole digits, the fraction and the exponent of a text without a sign. Parts that are
plain, which means that all digits are kept and no exponent is large, are read as the decimal that
they are (`Parts.Plain.real?_eq`). The text of every decimal with few digits has such parts
(`exists_isText`).
-/

namespace TriggerDesk.Json

open Decimal

variable {digits rest : List Char} {start : Scaled} {n : ℕ}

/-! ## The value of digits -/

/-- The value of digits behind others. -/
def valueFrom (value : ℕ) (digits : List Char) : ℕ :=
  digits.foldl (fun value c => 10 * value + digitValue c) value

/-- More digits never make the value less. -/
theorem le_valueFrom (value : ℕ) (digits : List Char) : value ≤ valueFrom value digits := by
  induction digits generalizing value with
  | nil => exact le_refl value
  | cons d digits ih =>
    have hstep := ih (10 * value + digitValue d)
    show value ≤ valueFrom (10 * value + digitValue d) digits
    omega

/-- The value of digits in a row is that of the later ones behind the earlier ones. -/
theorem valueFrom_append (value : ℕ) (first second : List Char) :
    valueFrom value (first ++ second) = valueFrom (valueFrom value first) second :=
  List.foldl_append

/-- Each zero behind a value makes it ten times as large. -/
theorem valueFrom_zeros (value count : ℕ) :
    valueFrom value (List.replicate count '0') = value * 10 ^ count := by
  induction count generalizing value with
  | zero => exact (Nat.mul_one value).symm
  | succ count ih =>
    show valueFrom (10 * value + digitValue '0') (List.replicate count '0') = _
    have hzero : digitValue '0' = 0 := rfl
    rw [hzero, ih, pow_succ]
    ring

/-- The digits of a number have it as their value. -/
theorem valueFrom_digitsOf (n : ℕ) : valueFrom 0 (digitsOf n) = n := digitsValue_digitsOf n

/-- Whole digits that fit are kept. -/
theorem appendWhole_eq (h : valueFrom start.kept digits < wordBound) :
    start.appendWhole digits = { start with kept := valueFrom start.kept digits } := by
  induction digits generalizing start with
  | nil => rfl
  | cons d digits ih =>
    have hnext : 10 * start.kept + digitValue d < wordBound := (le_valueFrom _ digits).trans_lt h
    rw [Scaled.appendWhole, if_pos hnext]
    exact ih h

/-- The digits of a fraction that fit are kept, and each takes the power down. -/
theorem appendFraction_eq (h : valueFrom start.kept digits < wordBound) :
    start.appendFraction digits =
      ⟨valueFrom start.kept digits, start.power - digits.length⟩ := by
  induction digits generalizing start with
  | nil =>
    rw [Scaled.appendFraction]
    simp [valueFrom]
  | cons d digits ih =>
    have hnext : 10 * start.kept + digitValue d < wordBound := (le_valueFrom _ digits).trans_lt h
    rw [Scaled.appendFraction, if_pos hnext, ih h, List.length_cons]
    refine Scaled.mk.injEq _ _ _ _ ▸ ⟨rfl, ?_⟩
    push_cast
    ring

/-- The digits and the power of a numeral without its exponent. -/
def Numeral.scaled (numeral : Numeral) : Scaled :=
  ((Scaled.mk 0 0).appendWhole numeral.whole).appendFraction (numeral.fraction.getD [])

/-- Digits that fit a word are all kept, and the power counts those behind the point. -/
theorem scaled_eq {numeral : Numeral}
    (h : valueFrom 0 (numeral.whole ++ numeral.fraction.getD []) < wordBound) :
    numeral.scaled = ⟨valueFrom 0 (numeral.whole ++ numeral.fraction.getD []),
      -((numeral.fraction.getD []).length : ℤ)⟩ := by
  rw [valueFrom_append] at h ⊢
  rw [Numeral.scaled, appendWhole_eq ((le_valueFrom _ _).trans_lt h), appendFraction_eq h, zero_sub]

/-! ## Exponents -/

/-- The exponent that stands behind a numeral. -/
def Numeral.shift (numeral : Numeral) : ℤ :=
  match numeral.exponent with
  | none => 0
  | some (negative, digits) => if negative then -digitsValue digits else digitsValue digits

/-- The decimal that a numeral is without its sign: all of its digits, in front of the point and
behind it, and the power of ten at which the last of them stands. -/
def Numeral.decimal (numeral : Numeral) : Scaled :=
  ⟨digitsValue (numeral.whole ++ numeral.fraction.getD []),
    numeral.shift - (numeral.fraction.getD []).length⟩

/-- Digits of a small number never leave 32 bits. -/
theorem overflowingDigits?_eq_none (h : digitsValue digits < exponentBound) :
    overflowingDigits? digits = none := by
  rw [overflowingDigits?, Option.map_eq_none_iff, List.find?_eq_none]
  intro i _
  have hsplit := valueFrom_append 0 (digits.take (i + 1)) (digits.drop (i + 1))
  rw [List.take_append_drop] at hsplit
  have hle : digitsValue (digits.take (i + 1)) ≤ digitsValue digits := by
    show valueFrom 0 _ ≤ valueFrom 0 digits
    rw [hsplit]
    exact le_valueFrom _ _
  rw [decide_eq_true_eq, not_le]
  omega

/-- The magnitude of a numeral whose exponent is small. -/
theorem real?_eq {numeral : Numeral} (hshift : |numeral.shift| < 1000)
    (hpower : |numeral.scaled.power| < 1000) :
    numeral.real? = ({ numeral.scaled with
      power := numeral.scaled.power + numeral.shift }.toFloat?).map
        fun x => if numeral.negative then -x else x := by
  have hbound : exponentBound = 2147483648 := rfl
  rw [abs_lt] at hshift hpower
  rw [Numeral.real?]
  show Option.map _ (match numeral.exponent with
    | none => numeral.scaled.toFloat?
    | some (negative, digits) => _) = _
  congr 1
  rw [Numeral.shift] at hshift ⊢
  split
  · rw [add_zero]
  · next negative digits hexponent =>
    rw [hexponent] at hshift
    dsimp only at hshift ⊢
    have hsmall : digitsValue digits < exponentBound := by
      cases negative <;> simp at hshift <;> omega
    rw [overflowingDigits?_eq_none hsmall]
    dsimp only
    have hclamp : clampExponent (numeral.scaled.power +
        (if negative = true then -(digitsValue digits : ℤ) else digitsValue digits)) =
        numeral.scaled.power +
        (if negative = true then -(digitsValue digits : ℤ) else digitsValue digits) := by
      rw [clampExponent, hbound]
      omega
    exact congrArg (fun power => Scaled.toFloat? { numeral.scaled with power }) hclamp

/-! ## The texts of decimals -/

/-- The digits of a number are a whole part, with no zero in front unless it is the only digit. -/
theorem isWhole_digitsOf (n : ℕ) : IsWhole (digitsOf n) where
  all _ hc := isDigit_of_mem_digitsOf hc
  ne := Nat.toDigits_ne_nil
  zero _ h := eq_nil_of_digitsOf h

/-- The digits of a number are digits, and there is one at least. -/
theorem digits_digitsOf (n : ℕ) : Digits (digitsOf n) :=
  ⟨Nat.toDigits_ne_nil, fun _ hc => isDigit_of_mem_digitsOf hc⟩

/-- What the text of an exponent is. -/
theorem isExponent_exponentText (power : ℤ) :
    IsExponent ('e' :: exponentText power)
      (some (decide (power < 0), digitsOf power.natAbs)) := by
  unfold exponentText
  split
  · next hneg =>
    rw [decide_eq_true hneg]
    exact .present (.inl rfl) .minus (digits_digitsOf _)
  · next hpos =>
    rw [decide_eq_false hpos]
    exact .present (.inl rfl) .plus (digits_digitsOf _)

/-- A fraction behind its point, if there is one. -/
def fractionText : Option (List Char) → List Char
  | none => []
  | some digits => '.' :: digits

/-- An exponent behind its mark, if there is one. -/
def powerText : Option ℤ → List Char
  | none => []
  | some power => 'e' :: exponentText power

/-- A decimal without a sign as it stands in a text. -/
structure Parts where
  whole : List Char
  fraction : Option (List Char)
  power : Option ℤ

namespace Parts

variable {parts : Parts}

def chars (parts : Parts) : List Char :=
  parts.whole ++ (fractionText parts.fraction ++ powerText parts.power)

def numeral (parts : Parts) (negative : Bool) : Numeral :=
  ⟨negative, parts.whole, parts.fraction,
    parts.power.map fun power => (decide (power < 0), digitsOf power.natAbs)⟩

/-- All digits in front of the exponent. -/
def allDigits (parts : Parts) : List Char := parts.whole ++ parts.fraction.getD []

/-- What is kept of the digits and the power of ten that goes with it. -/
def scaled (parts : Parts) : Scaled :=
  ⟨valueFrom 0 parts.allDigits, parts.power.getD 0 - (parts.fraction.getD []).length⟩

/-- Parts that are read as they stand. -/
structure Plain (parts : Parts) : Prop where
  whole : IsWhole parts.whole
  fraction : ∀ digits, parts.fraction = some digits → digits ≠ [] ∧ ∀ c ∈ digits, c.isDigit = true
  fits : valueFrom 0 parts.allDigits < wordBound
  few : (parts.fraction.getD []).length < 1000
  small : ∀ power, parts.power = some power → |power| < 1000

/-- The text of a power is that of an exponent, with its sign and its digits. -/
theorem isExponent_powerText (power : Option ℤ) :
    IsExponent (powerText power)
      (power.map fun power => (decide (power < 0), digitsOf power.natAbs)) := by
  cases power with
  | none => exact .absent
  | some power => exact isExponent_exponentText power

/-- The characters are a numeral, with a minus in front or without one. -/
theorem Plain.isNumeral (h : parts.Plain) (negative : Bool) :
    IsNumeral ((if negative then ['-'] else []) ++ parts.chars) (parts.numeral negative) := by
  refine .intro h.whole ?_ (isExponent_powerText parts.power)
  cases hfraction : parts.fraction with
  | none => exact .absent
  | some digits => exact .present (h.fraction digits hfraction)

/-- Plain parts are scanned as the numeral that they are, and nothing is left over. -/
theorem Plain.scanNumeral (h : parts.Plain) (negative : Bool) :
    scanNumeral ((if negative then ['-'] else []) ++ parts.chars) =
      .ok (parts.numeral negative, []) := by
  have hends : EndsNumeral [] := nofun
  have hscan := scanNumeral_of_isNumeral (h.isNumeral negative) hends
  rwa [List.append_nil] at hscan

/-- The exponent that is written is the power that is read. -/
theorem shift_numeral (parts : Parts) (negative : Bool) :
    (parts.numeral negative).shift = parts.power.getD 0 := by
  cases hpower : parts.power with
  | none =>
    rw [Numeral.shift, numeral, hpower]
    rfl
  | some power =>
    rw [Numeral.shift, numeral, hpower]
    show (if decide (power < 0) = true then -(digitsValue (digitsOf power.natAbs) : ℤ)
      else digitsValue (digitsOf power.natAbs)) = power
    rw [digitsValue_digitsOf]
    by_cases hneg : power < 0
    · rw [if_pos (decide_eq_true hneg)]
      omega
    · rw [if_neg (by simpa using hneg)]
      omega

/-- The parts are the decimal that their numeral is. -/
theorem decimal_numeral (parts : Parts) (negative : Bool) :
    (parts.numeral negative).decimal = parts.scaled := by
  rw [Numeral.decimal, shift_numeral]
  rfl

/-- Parts are read as the kept digits and the power say. -/
theorem Plain.real?_eq (h : parts.Plain) (negative : Bool) :
    (parts.numeral negative).real? =
      parts.scaled.toFloat?.map fun x => if negative then -x else x := by
  have hscaled : (parts.numeral negative).scaled =
      ⟨valueFrom 0 parts.allDigits, -((parts.fraction.getD []).length : ℤ)⟩ := scaled_eq h.fits
  have hshift := parts.shift_numeral negative
  have hsmall : |(parts.numeral negative).shift| < 1000 := by
    rw [hshift]
    cases hpower : parts.power with
    | none => norm_num
    | some power => exact h.small power hpower
  have hfew : |(parts.numeral negative).scaled.power| < 1000 := by
    have hlength := h.few
    rw [hscaled, abs_lt]
    dsimp only
    omega
  have hpower : -((parts.fraction.getD []).length : ℤ) + parts.power.getD 0 =
      parts.scaled.power := by
    rw [scaled]
    ring
  rw [Json.real?_eq hsmall hfew, hscaled, hshift, hpower]
  rfl

end Parts

/-! ## The decimals that are written -/

variable {c : ℕ} {place : ℤ}

/-- The first digit of a positive number is not a zero. -/
theorem exists_head_digitsOf (hc : 0 < c) :
    ∃ d rest, digitsOf c = d :: rest ∧ d ≠ '0' ∧ d.isDigit = true ∧
      ∀ c ∈ rest, c.isDigit = true := by
  obtain ⟨d, rest, hdigits, hd⟩ := exists_digit_digitsOf c
  refine ⟨d, rest, hdigits, ?_, hd, fun c hc => ?_⟩
  · rintro rfl
    have hvalue := valueFrom_digitsOf c
    rw [hdigits, eq_nil_of_digitsOf hdigits] at hvalue
    exact hc.ne' hvalue.symm
  · refine isDigit_of_mem_digitsOf (n := ‹ℕ›) ?_
    rw [hdigits]
    exact List.mem_cons_of_mem _ hc

/-- Digits are a whole part when the first one is not zero. -/
theorem isWhole_of_head {d : Char} (hd : d ≠ '0') (hdigit : d.isDigit = true)
    (hall : ∀ c ∈ rest, c.isDigit = true) : IsWhole (d :: rest) where
  all c hc := by
    rcases List.mem_cons.1 hc with rfl | hc
    · exact hdigit
    · exact hall c hc
  ne := List.cons_ne_nil _ _
  zero _ h := absurd (List.cons.inj h).1 hd

/-- What the text of a positive decimal is read as. -/
structure IsText (c : ℕ) (place : ℤ) (chars : List Char) (parts : Parts) : Prop where
  plain : parts.Plain
  chars_eq : parts.chars = chars
  value : (parts.scaled.kept : ℚ) * 10 ^ parts.scaled.power = c * 10 ^ place
  power : parts.scaled.power = place ∨ parts.scaled.power = -1

/-- Parts that have the digits of the decimal in order, and the last of them at its place, are what
their text is read as. -/
theorem IsText.of_digits {parts : Parts} {chars : List Char} (hwhole : IsWhole parts.whole)
    (hfraction : ∀ digits, parts.fraction = some digits →
      digits ≠ [] ∧ ∀ c ∈ digits, c.isDigit = true)
    (hvalue : valueFrom 0 parts.allDigits = c) (hfits : c < wordBound)
    (hfew : (parts.fraction.getD []).length < 1000)
    (hsmall : ∀ power, parts.power = some power → |power| < 1000)
    (hpower : parts.scaled.power = place) (hchars : parts.chars = chars) :
    IsText c place chars parts where
  plain := ⟨hwhole, hfraction, hvalue ▸ hfits, hfew, hsmall⟩
  chars_eq := hchars
  value := congrArg₂ (fun (n : ℕ) (k : ℤ) => (n : ℚ) * 10 ^ k) hvalue hpower
  power := .inl hpower

/-- A decimal with no digits behind its point is read with a zero behind it. -/
theorem isText_whole (hc : 0 < c) (hplace : 0 ≤ place)
    (hfits : 10 * (c * 10 ^ place.toNat) < wordBound) :
    IsText c place (placePositional true (digitsOf c) place)
      ⟨digitsOf c ++ List.replicate place.toNat '0', some ['0'], none⟩ := by
  obtain ⟨d, rest, hdigits, hd, hdigit, hall⟩ := exists_head_digitsOf hc
  have hvalue : valueFrom 0 (digitsOf c ++ List.replicate place.toNat '0' ++ ['0']) =
      10 * (c * 10 ^ place.toNat) := by
    rw [valueFrom_append, valueFrom_append, valueFrom_digitsOf, valueFrom_zeros]
    rfl
  refine ⟨⟨?_, ?_, ?_, ?_, nofun⟩, ?_, ?_, .inr rfl⟩
  · rw [hdigits]
    refine isWhole_of_head hd hdigit fun c hc => ?_
    rcases List.mem_append.1 hc with hc | hc
    · exact hall c hc
    · rw [List.eq_of_mem_replicate hc]
      rfl
  · intro digits hsome
    cases hsome
    exact ⟨List.cons_ne_nil _ _, by simp⟩
  · show valueFrom 0 _ < wordBound
    rw [Parts.allDigits, Option.getD_some, hvalue]
    exact hfits
  · show 1 < 1000
    norm_num
  · rw [placePositional, if_pos hplace, if_pos rfl, Parts.chars]
    rfl
  · show ((valueFrom 0 (digitsOf c ++ List.replicate place.toNat '0' ++ ['0']) : ℕ) : ℚ) *
      10 ^ (0 - (1 : ℕ) : ℤ) = _
    obtain ⟨n, rfl⟩ := Int.eq_ofNat_of_zero_le hplace
    rw [hvalue, Int.toNat_natCast, zpow_natCast]
    norm_num
    ring

/-- A decimal that begins in front of the point and ends behind it. -/
theorem isText_split (hc : 0 < c) (hfits : c < wordBound) {count : ℕ} (hcount : 0 < count)
    (hlt : count < (digitsOf c).length) (hfew : count < 1000) :
    IsText c (-count) (placePositional true (digitsOf c) (-count))
      ⟨(digitsOf c).take ((digitsOf c).length - count),
        some ((digitsOf c).drop ((digitsOf c).length - count)), none⟩ := by
  obtain ⟨d, rest, hdigits, hd, hdigit, hall⟩ := exists_head_digitsOf hc
  have hfraction : ((digitsOf c).drop ((digitsOf c).length - count)).length = count := by
    rw [List.length_drop]
    omega
  have hvalue : valueFrom 0 ((digitsOf c).take ((digitsOf c).length - count) ++
      (digitsOf c).drop ((digitsOf c).length - count)) = c := by
    rw [List.take_append_drop, valueFrom_digitsOf]
  have hpower : (0 : ℤ) - ((digitsOf c).drop ((digitsOf c).length - count)).length = -count := by
    rw [hfraction, zero_sub]
  refine .of_digits ?_ ?_ hvalue hfits (hfraction.trans_lt hfew) nofun hpower ?_
  · obtain ⟨k, hk⟩ : ∃ k, (digitsOf c).length - count = k + 1 :=
      ⟨(digitsOf c).length - count - 1, by omega⟩
    rw [hk, hdigits, List.take_succ_cons]
    exact isWhole_of_head hd hdigit fun c hc => hall c (List.mem_of_mem_take hc)
  · intro digits hsome
    cases hsome
    refine ⟨List.ne_nil_of_length_pos (by rw [hfraction]; exact hcount), fun c hc => ?_⟩
    exact isDigit_of_mem_digitsOf (List.mem_of_mem_drop hc)
  · rw [placePositional, if_neg (by omega)]
    dsimp only
    rw [neg_neg, Int.toNat_natCast, if_pos hlt, Parts.chars, powerText, List.append_nil]
    rfl

/-- A decimal behind the point. -/
theorem isText_fraction (hfits : c < wordBound) {count : ℕ}
    (hle : (digitsOf c).length ≤ count) (hfew : count < 1000) :
    IsText c (-count) (placePositional true (digitsOf c) (-count))
      ⟨['0'], some (List.replicate (count - (digitsOf c).length) '0' ++ digitsOf c), none⟩ := by
  have hpos : 0 < (digitsOf c).length := Nat.length_toDigits_pos
  have hlength : (List.replicate (count - (digitsOf c).length) '0' ++ digitsOf c).length =
      count := by
    rw [List.length_append, List.length_replicate]
    omega
  have hvalue : valueFrom 0 (['0'] ++
      (List.replicate (count - (digitsOf c).length) '0' ++ digitsOf c)) = c := by
    have hzero : valueFrom 0 ['0'] = 0 := rfl
    rw [valueFrom_append, valueFrom_append, hzero, valueFrom_zeros, zero_mul, valueFrom_digitsOf]
  have hpower : (0 : ℤ) -
      (List.replicate (count - (digitsOf c).length) '0' ++ digitsOf c).length = -count := by
    rw [hlength, zero_sub]
  refine .of_digits (isWhole_digitsOf 0) ?_ hvalue hfits (hlength.trans_lt hfew) nofun hpower ?_
  · intro digits hsome
    cases hsome
    refine ⟨List.ne_nil_of_length_pos (by rw [hlength]; omega), fun c hc => ?_⟩
    rcases List.mem_append.1 hc with hc | hc
    · rw [List.eq_of_mem_replicate hc]
      rfl
    · exact isDigit_of_mem_digitsOf hc
  · rw [placePositional, if_neg (by omega)]
    dsimp only
    rw [neg_neg, Int.toNat_natCast, if_neg (by omega), Parts.chars, powerText, List.append_nil]
    rfl

/-- A decimal with an exponent. -/
theorem isText_scientific (hc : 0 < c) (hfits : c < wordBound) {power : ℤ} (hsmall : |power| < 1000)
    (hpower : power = place + (digitsOf c).length - 1) (hfew : (digitsOf c).length ≤ 1000) :
    ∃ parts, IsText c place (placeScientific (digitsOf c) power) parts := by
  obtain ⟨d, rest, hdigits, hd, hdigit, hall⟩ := exists_head_digitsOf hc
  have hvalue := valueFrom_digitsOf c
  rw [hdigits] at hvalue hpower hfew ⊢
  rw [List.length_cons] at hpower hfew
  have hbounded : ∀ found, some power = some found → |found| < 1000 := by
    rintro _ ⟨⟩
    exact hsmall
  cases rest with
  | nil =>
    have hplace : power - ((0 : ℕ) : ℤ) = place := by
      rw [hpower]
      simp
    exact ⟨⟨[d], none, some power⟩, .of_digits (isWhole_of_head hd hdigit hall) nofun hvalue hfits
      (by norm_num) hbounded hplace rfl⟩
  -- The point stands behind the first digit, and the power that is written counts from there.
  | cons e rest =>
    have hplace : power - ((e :: rest).length : ℤ) = place := by
      rw [hpower]
      push_cast
      ring
    have hfraction : ∀ digits, some (e :: rest) = some digits →
        digits ≠ [] ∧ ∀ c ∈ digits, c.isDigit = true := by
      rintro _ ⟨⟩
      exact ⟨List.cons_ne_nil _ _, hall⟩
    exact ⟨⟨[d], some (e :: rest), some power⟩, .of_digits (isWhole_of_head hd hdigit nofun)
      hfraction hvalue hfits (Nat.lt_of_succ_le hfew) hbounded hplace rfl⟩

/-- Every decimal with few digits and a power in range is written so that it is read as it is. -/
theorem exists_isText (hc : 0 < c) (hfits : c < 2 ^ 58) (hplace : -348 ≤ place ∧ place ≤ 308) :
    ∃ parts, IsText c place
      (if Decimal.Layout.json.isPositional (place + (digitsOf c).length - 1)
        then placePositional true (digitsOf c) place
        else placeScientific (digitsOf c) (place + (digitsOf c).length - 1)) parts := by
  have hword : c < wordBound := hfits.trans (by decide)
  have hlength : (digitsOf c).length ≤ 18 :=
    (Nat.length_toDigits_le_iff (by norm_num) (by norm_num)).2 (hfits.trans (by norm_num))
  obtain ⟨hleast, hgreatest⟩ := hplace
  split
  · next hpositional =>
    -- The positional layout is kept for powers so small that the zeros behind still fit a word.
    rcases le_or_gt 0 place with hwhole | hpoint
    · have hpower : place + (digitsOf c).length - 1 ≤ 15 := by
        simp only [Decimal.Layout.isPositional, Decimal.Layout.json, Bool.and_eq_true,
          decide_eq_true_eq] at hpositional
        exact hpositional.2
      have hpos : 0 < (digitsOf c).length := Nat.length_toDigits_pos
      have hlt : c < 10 ^ (digitsOf c).length :=
        (Nat.length_toDigits_le_iff (by norm_num) hpos).1 (le_refl _)
      refine ⟨_, isText_whole hc hwhole ?_⟩
      calc 10 * (c * 10 ^ place.toNat)
          ≤ 10 * (10 ^ (digitsOf c).length * 10 ^ place.toNat) :=
            Nat.mul_le_mul_left _ (Nat.mul_le_mul_right _ hlt.le)
        _ = 10 ^ ((digitsOf c).length + place.toNat + 1) := by
            rw [← pow_add, pow_succ]
            ring
        _ ≤ 10 ^ 17 := Nat.pow_le_pow_right (by norm_num) (by omega)
        _ < wordBound := by decide
    · obtain ⟨count, rfl⟩ : ∃ count : ℕ, place = -count := ⟨(-place).toNat, by omega⟩
      by_cases hlt : count < (digitsOf c).length
      · exact ⟨_, isText_split hc hword (by omega) hlt (by omega)⟩
      · exact ⟨_, isText_fraction hword (by omega) (by omega)⟩
  · have hpos : 0 < (digitsOf c).length := Nat.length_toDigits_pos
    exact isText_scientific hc hword (abs_lt.2 ⟨by omega, by omega⟩) rfl (by omega)

end TriggerDesk.Json
