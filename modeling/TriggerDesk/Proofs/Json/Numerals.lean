import Mathlib.Data.List.TakeWhile
import TriggerDesk.Json.Document
import TriggerDesk.Json.Reader

/-!
# Numerals that are read back

The reader of numerals looks no further than the numeral: what it finds in some characters it finds
in longer ones too, if the numeral does not go on (`scanNumeral_append`). So it is enough to say of
the characters of a number that they are read as that number when they stand alone (`Spells`).
Integers of 64 bits always are (`spells_ofInt`). Whether a binary64 number is depends on how many
digits it has (`ReadsBack`, `spells_real`).
-/

namespace TriggerDesk.Json

variable {chars digits rest after : List Char} {c : Char} {n : Nat} {numeral : Numeral}

/-! ## Where a numeral ends -/

/-- A numeral that ends in front of some characters does not go on with them. -/
def EndsNumeral (rest : List Char) : Prop :=
  ∀ c, rest.head? = some c → c.isDigit = false ∧ c ≠ '.' ∧ c ≠ 'e' ∧ c ≠ 'E'

/-- Digits are found in longer characters, too, if no further digit follows. -/
theorem spanDigits_append (hends : EndsNumeral rest) (chars : List Char) :
    Decimal.spanDigits (chars ++ rest) =
      ((Decimal.spanDigits chars).1, (Decimal.spanDigits chars).2 ++ rest) := by
  have hrest : rest.takeWhile Char.isDigit = [] ∧ rest.dropWhile Char.isDigit = rest := by
    cases rest with
    | nil => exact ⟨rfl, rfl⟩
    | cons c rest => simp [(hends c rfl).1]
  unfold Decimal.spanDigits
  induction chars with
  | nil => simp [hrest]
  | cons c chars ih =>
    rw [Prod.mk.injEq] at ih
    by_cases hc : c.isDigit = true
    · simp [hc, ih]
    · simp [hc]

/-- Digits that are found are those in front, and there is one at least. -/
theorem scanDigits_eq_ok (h : scanDigits chars = .ok (digits, after)) :
    Decimal.spanDigits chars = (digits, after) ∧ digits ≠ [] := by
  unfold scanDigits at h
  split at h
  · cases h
  · cases h
  · next hne heq =>
    cases h
    exact ⟨heq, hne⟩

/-- Digits in front are found if there is one at least. -/
theorem scanDigits_of_span (h : Decimal.spanDigits chars = (digits, after)) (hne : digits ≠ []) :
    scanDigits chars = .ok (digits, after) := by
  unfold scanDigits
  rw [h]
  cases digits with
  | nil => exact absurd rfl hne
  | cons d digits => rfl

/-- What digits are found does not depend on what follows them. -/
theorem scanDigits_append (h : scanDigits chars = .ok (digits, after)) (hends : EndsNumeral rest) :
    scanDigits (chars ++ rest) = .ok (digits, after ++ rest) := by
  obtain ⟨hspan, hne⟩ := scanDigits_eq_ok h
  exact scanDigits_of_span (by rw [spanDigits_append hends, hspan]) hne

/-- The digits and what comes behind them are all that was there. -/
theorem scanDigits_spells (h : scanDigits chars = .ok (digits, after)) :
    chars = digits ++ after ∧ ∀ c ∈ digits, c.isDigit = true := by
  obtain ⟨hspan, _⟩ := scanDigits_eq_ok h
  cases hspan
  exact ⟨List.takeWhile_append_dropWhile.symm,
    fun c hc => List.all_eq_true.1 List.all_takeWhile c hc⟩

/-- What whole digits are found does not depend on what follows the numeral. -/
theorem scanWhole_append (h : scanWhole chars = .ok (digits, after)) (hends : EndsNumeral rest) :
    scanWhole (chars ++ rest) = .ok (digits, after ++ rest) := by
  unfold scanWhole at h
  split at h
  · next d more =>
    split at h
    · cases h
    · next hd =>
      cases h
      show scanWhole ('0' :: d :: (more ++ rest)) = _
      rw [scanWhole, if_neg hd]
      rfl
  · next hzero =>
    have hlong := scanDigits_append h hends
    unfold scanWhole
    split
    · next d more heq =>
      -- A zero is followed by what does not belong to it.
      cases chars with
      | nil => cases h
      | cons c chars =>
        cases chars with
        | cons e chars =>
          cases heq
          exact absurd rfl (hzero _ _)
        | nil =>
          obtain ⟨rfl, hrest⟩ := List.cons.inj heq
          have hd := (hends d (by rw [show rest = d :: more from hrest]; rfl)).1
          rw [if_neg (by rw [hd]; exact Bool.false_ne_true)]
          cases h
          rw [← hrest]
          rfl
    · exact hlong

/-- The whole digits and what comes behind them are all that was there. -/
theorem scanWhole_spells (h : scanWhole chars = .ok (digits, after)) :
    chars = digits ++ after ∧ ∀ c ∈ digits, c.isDigit = true := by
  unfold scanWhole at h
  split at h
  · split at h
    · cases h
    · cases h
      exact ⟨rfl, by simp⟩
  · exact scanDigits_spells h

/-! ## The parts of a numeral -/

/-- A step of a reader and what is done with its result, when both succeed. -/
theorem bind_eq_ok {ε α β : Type} {scan : Except ε α} {next : α → Except ε β} {b : β}
    (h : (scan >>= next) = .ok b) : ∃ a, scan = .ok a ∧ next a = .ok b := by
  cases scan with
  | error fault => cases h
  | ok a => exact ⟨a, rfl, h⟩

/-- A result that was changed came from a result. -/
theorem map_eq_ok {ε α β : Type} {read : Except ε α} {f : α → β} {b : β}
    (h : read.map f = .ok b) : ∃ a, read = .ok a ∧ f a = b := by
  cases read with
  | error fault => cases h
  | ok a =>
    cases h
    exact ⟨a, rfl, rfl⟩

/-- What fraction is found does not depend on what follows the numeral. -/
theorem scanFraction_append {fraction : Option (List Char)}
    (h : scanFraction chars = .ok (fraction, after)) (hends : EndsNumeral rest) :
    scanFraction (chars ++ rest) = .ok (fraction, after ++ rest) := by
  unfold scanFraction at h
  split at h
  · next more =>
    obtain ⟨⟨digits, behind⟩, hscan, h⟩ := bind_eq_ok h
    cases h
    show scanFraction ('.' :: (more ++ rest)) = _
    rw [scanFraction, scanDigits_append hscan hends]
    rfl
  · next hpoint =>
    cases h
    unfold scanFraction
    split
    · next more heq =>
      cases chars with
      | nil => exact absurd rfl (hends '.' (by rw [show rest = '.' :: more from heq]; rfl)).2.1
      | cons c chars =>
        cases heq
        exact absurd rfl (hpoint chars)
    · rfl

/-- What follows does not change the sign of an exponent, if there are characters. -/
theorem takeSign_append (hne : chars ≠ []) (rest : List Char) :
    Decimal.takeSign (chars ++ rest) =
      ((Decimal.takeSign chars).1, (Decimal.takeSign chars).2 ++ rest) := by
  cases chars with
  | nil => exact absurd rfl hne
  | cons c chars =>
    rw [List.cons_append]
    unfold Decimal.takeSign
    split <;> simp_all

/-- What exponent is found does not depend on what follows the numeral. -/
theorem scanExponent_append {exponent : Option (Bool × List Char)}
    (h : scanExponent chars = .ok (exponent, after)) (hends : EndsNumeral rest) :
    scanExponent (chars ++ rest) = .ok (exponent, after ++ rest) := by
  cases chars with
  | nil =>
    cases h
    cases rest with
    | nil => rfl
    | cons c rest =>
      obtain ⟨_, _, he, hE⟩ := hends c rfl
      rw [List.nil_append, scanExponent, if_neg (by simp [he, hE])]
  | cons c chars =>
    rw [scanExponent] at h
    rw [List.cons_append, scanExponent]
    split at h
    · next hmark =>
      cases hsign : Decimal.takeSign chars with
      | mk negative unsigned =>
        rw [hsign] at h
        obtain ⟨⟨digits, behind⟩, hscan, h⟩ := bind_eq_ok h
        cases h
        have hne : chars ≠ [] := by
          rintro rfl
          cases hsign
          cases hscan
        rw [if_pos hmark, takeSign_append hne, hsign]
        dsimp only
        rw [scanDigits_append hscan hends]
        rfl
    · next hmark =>
      cases h
      rw [if_neg hmark]
      rfl

/-- The sign of a numeral and the characters behind it. -/
def splitMinus (chars : List Char) : Bool × List Char :=
  match chars with
  | '-' :: rest => (true, rest)
  | _ => (false, chars)

/-- A numeral is read part by part. -/
theorem scanNumeral_eq (chars : List Char) :
    scanNumeral chars = (scanWhole (splitMinus chars).2 >>= fun whole =>
      scanFraction whole.2 >>= fun fraction => scanExponent fraction.2 >>= fun exponent =>
        .ok (⟨(splitMinus chars).1, whole.1, fraction.1, exponent.1⟩, exponent.2)) := rfl

/-- A numeral is found part by part. -/
theorem scanNumeral_eq_ok (h : scanNumeral chars = .ok (numeral, after)) :
    ∃ behindWhole behindFraction,
      (splitMinus chars).1 = numeral.negative ∧
      scanWhole (splitMinus chars).2 = .ok (numeral.whole, behindWhole) ∧
      scanFraction behindWhole = .ok (numeral.fraction, behindFraction) ∧
      scanExponent behindFraction = .ok (numeral.exponent, after) := by
  rw [scanNumeral_eq] at h
  obtain ⟨⟨whole, behindWhole⟩, hwhole, h⟩ := bind_eq_ok h
  obtain ⟨⟨fraction, behindFraction⟩, hfraction, h⟩ := bind_eq_ok h
  obtain ⟨⟨exponent, behindExponent⟩, hexponent, h⟩ := bind_eq_ok h
  cases h
  exact ⟨behindWhole, behindFraction, rfl, hwhole, hfraction, hexponent⟩

/-- If each part is found, so is the numeral. -/
theorem scanNumeral_of_parts {behindWhole behindFraction : List Char}
    (hsign : (splitMinus chars).1 = numeral.negative)
    (hwhole : scanWhole (splitMinus chars).2 = .ok (numeral.whole, behindWhole))
    (hfraction : scanFraction behindWhole = .ok (numeral.fraction, behindFraction))
    (hexponent : scanExponent behindFraction = .ok (numeral.exponent, after)) :
    scanNumeral chars = .ok (numeral, after) := by
  rw [scanNumeral_eq, hwhole]
  show (scanFraction behindWhole >>= _) = _
  rw [hfraction]
  show (scanExponent behindFraction >>= _) = _
  rw [hexponent, hsign]
  rfl

/-- A minus is found whatever follows, if there are characters. -/
theorem splitMinus_append (hne : chars ≠ []) (rest : List Char) :
    splitMinus (chars ++ rest) = ((splitMinus chars).1, (splitMinus chars).2 ++ rest) := by
  cases chars with
  | nil => exact absurd rfl hne
  | cons c chars =>
    rw [List.cons_append]
    unfold splitMinus
    split <;> simp_all

/-- What is found in front of some characters is found in front of more of them. -/
theorem scanNumeral_append (h : scanNumeral chars = .ok (numeral, after))
    (hends : EndsNumeral rest) : scanNumeral (chars ++ rest) = .ok (numeral, after ++ rest) := by
  obtain ⟨behindWhole, behindFraction, hsign, hwhole, hfraction, hexponent⟩ :=
    scanNumeral_eq_ok h
  have hne : chars ≠ [] := by
    rintro rfl
    cases hwhole
  refine scanNumeral_of_parts ?_ ?_ (scanFraction_append hfraction hends)
    (scanExponent_append hexponent hends)
  · rw [splitMinus_append hne, hsign]
  · rw [splitMinus_append hne]
    exact scanWhole_append hwhole hends

/-! ## Numbers -/

/-- The characters of the numbers that are finite. -/
def isNumeralChar (c : Char) : Bool := c.isDigit || c = '.' || c = 'e' || c = '-' || c = '+'

/-- No character of a number is a blank. -/
theorem not_isSpace_of_isNumeralChar (h : isNumeralChar c = true) : isSpace c = false := by
  refine Bool.eq_false_iff.2 fun hspace => ?_
  simp only [isSpace, Bool.or_eq_true, decide_eq_true_eq] at hspace
  rcases hspace with ((rfl | rfl) | rfl) | rfl <;> cases h

/-- A digit is a character of a number. -/
theorem isNumeralChar_of_isDigit (h : c.isDigit = true) : isNumeralChar c = true := by
  simp [isNumeralChar, h]

/-- Some characters are read as a number when they stand alone. -/
structure Spells (chars : List Char) (number : Number) : Prop where
  plain : ∀ c ∈ chars, isNumeralChar c = true
  head : ∃ c rest, chars = c :: rest ∧ (c = '-' ∨ c.isDigit = true)
  scans : ∃ numeral, scanNumeral chars = .ok (numeral, []) ∧ numeral.number? = some number

/-- What a number is written with are digits. -/
theorem isDigit_of_mem_digitsOf (hc : c ∈ Decimal.digitsOf n) : c.isDigit = true :=
  Nat.isDigit_of_mem_toDigits (by decide) (by decide) hc

/-- The digits of a number have its value. -/
theorem digitsValue_digitsOf (n : Nat) : Decimal.digitsValue (Decimal.digitsOf n) = n :=
  Nat.ofDigitChars_ten_toDigits

/-- No number but zero is written with a zero in front. -/
theorem eq_nil_of_digitsOf (h : Decimal.digitsOf n = '0' :: rest) : rest = [] := by
  induction n using Nat.strongRecOn generalizing rest with
  | ind n ih =>
    rw [Decimal.digitsOf, Nat.toDigits_eq_if (by decide)] at h
    split at h
    · exact (List.cons.inj h).2.symm
    · next hlarge =>
      cases hfront : Decimal.digitsOf (n / 10) with
      | nil => exact absurd hfront Nat.toDigits_ne_nil
      | cons d front =>
        rw [show Nat.toDigits 10 (n / 10) = d :: front from hfront] at h
        cases h
        have hnil := ih (n / 10) (by omega) hfront
        have hvalue := digitsValue_digitsOf (n / 10)
        rw [hfront, hnil] at hvalue
        have hzero : n / 10 = 0 := hvalue.symm
        omega

/-- The digits of a number are whole digits. -/
theorem scanWhole_digitsOf (n : Nat) :
    scanWhole (Decimal.digitsOf n) = .ok (Decimal.digitsOf n, []) := by
  unfold scanWhole
  split
  · next d more heq => cases eq_nil_of_digitsOf heq
  · refine scanDigits_of_span ?_ Nat.toDigits_ne_nil
    have hdigits : ∀ c ∈ Decimal.digitsOf n, c.isDigit = true :=
      fun c hc => isDigit_of_mem_digitsOf hc
    rw [Decimal.spanDigits, List.takeWhile_eq_self_iff.2 hdigits,
      List.dropWhile_eq_nil_iff.2 hdigits]

/-- A number is written with one digit at least. -/
theorem exists_digit_digitsOf (n : Nat) :
    ∃ c rest, Decimal.digitsOf n = c :: rest ∧ c.isDigit = true := by
  cases hdigits : Decimal.digitsOf n with
  | nil => exact absurd hdigits Nat.toDigits_ne_nil
  | cons c rest =>
    exact ⟨c, rest, rfl, isDigit_of_mem_digitsOf (hdigits ▸ List.mem_cons_self)⟩

/-- Digits alone are a numeral, with a minus in front or without one. -/
theorem scanNumeral_digitsOf (negative : Bool) (n : Nat)
    (hsign : splitMinus chars = (negative, Decimal.digitsOf n)) :
    scanNumeral chars = .ok (⟨negative, Decimal.digitsOf n, none, none⟩, []) := by
  refine scanNumeral_of_parts ?_ ?_ (show scanFraction [] = .ok (none, []) from rfl) rfl
  · rw [hsign]
  · rw [hsign]
    exact scanWhole_digitsOf n

/-- A natural number of 64 bits is read from its text. -/
theorem spells_natural (h : n < wordBound) :
    Spells (Value.writeNumber (.natural n)) (.natural n) := by
  obtain ⟨c, rest, hdigits, hc⟩ := exists_digit_digitsOf n
  refine ⟨fun c hc => isNumeralChar_of_isDigit (isDigit_of_mem_digitsOf hc),
    ⟨c, rest, hdigits, .inr hc⟩, _, scanNumeral_digitsOf false n ?_, ?_⟩
  · show splitMinus (Decimal.digitsOf n) = _
    rw [hdigits]
    unfold splitMinus
    split
    · next heq =>
      cases heq
      cases hc
    · rfl
  · simp [Numeral.number?, digitsValue_digitsOf, Nat.not_le.2 h]

/-- A negative number of 64 bits is read from its text. -/
theorem spells_negative (hpos : 0 < n) (h : n ≤ Nat.pow 2 63) :
    Spells (Value.writeNumber (.negative n)) (.negative n) := by
  have hbound : ¬ wordBound ≤ n := by
    have hpow : Nat.pow 2 63 < wordBound := by decide
    omega
  refine ⟨fun c hc => ?_, ⟨'-', Decimal.digitsOf n, rfl, .inl rfl⟩, _,
    scanNumeral_digitsOf true n rfl, ?_⟩
  · rcases List.mem_cons.1 hc with rfl | hc
    · rfl
    · exact isNumeralChar_of_isDigit (isDigit_of_mem_digitsOf hc)
  have hzero : n ≠ 0 := by omega
  have hlarge : ¬ Nat.pow 2 63 < n := by omega
  simp [Numeral.number?, digitsValue_digitsOf, hbound, hzero, hlarge]

/-! ## Binary64 numbers -/

/-- Whether the text of a binary64 number is read as that number. Not every one is: the reader keeps
fewer digits than the writer may need. -/
def ReadsBack (x : Float) : Prop :=
  ∃ number, readValue (Decimal.Layout.json.write x) = .ok (.number number) ∧ number.toFloat = x

/-- What a text is read as, if that is a number. -/
def readNumber? (text : String) : Option Number :=
  match readValue text with
  | .ok (.number number) => some number
  | _ => none

/-- A text is read as a number if all of it is that number. -/
theorem readNumber?_eq_some {text : String} {number : Number} :
    readNumber? text = some number ↔ readValue text = .ok (.number number) := by
  unfold readNumber?
  split
  · next hread => simp [hread]
  · next hnone =>
    refine ⟨nofun, fun hread => absurd hread (hnone number)⟩

instance (x : Float) : Decidable (ReadsBack x) :=
  decidable_of_iff ((readNumber? (Decimal.Layout.json.write x)).map Number.toFloat = some x) <| by
    simp [ReadsBack, Option.map_eq_some_iff, readNumber?_eq_some]

/-- Some characters of a number that is written with a point or an exponent. -/
structure Pointed (chars : List Char) : Prop where
  plain : ∀ c ∈ chars, isNumeralChar c = true
  pointed : '.' ∈ chars ∨ 'e' ∈ chars

/-- A number with its digits in place is written with a point. -/
theorem pointed_placePositional (hdigits : ∀ c ∈ digits, c.isDigit = true) (place : Int) :
    Pointed (Decimal.placePositional true digits place) := by
  have hzero : ∀ n, ∀ c ∈ List.replicate n '0', isNumeralChar c = true := by
    intro n c hc
    rw [List.eq_of_mem_replicate hc]
    rfl
  have hall : ∀ c ∈ digits, isNumeralChar c = true :=
    fun c hc => isNumeralChar_of_isDigit (hdigits c hc)
  unfold Decimal.placePositional
  split
  · refine ⟨fun c hc => ?_, .inl (by simp)⟩
    simp only [if_true, List.mem_append, List.mem_cons, List.not_mem_nil, or_false] at hc
    rcases hc with (hc | hc) | rfl | rfl
    · exact hall c hc
    · exact hzero _ c hc
    · rfl
    · rfl
  · dsimp only
    split
    · refine ⟨fun c hc => ?_, .inl (by simp)⟩
      rcases List.mem_append.1 hc with hc | hc
      · exact hall c (List.mem_of_mem_take hc)
      · rcases List.mem_cons.1 hc with rfl | hc
        · rfl
        · exact hall c (List.mem_of_mem_drop hc)
    · refine ⟨fun c hc => ?_, .inl (by simp)⟩
      simp only [List.mem_cons, List.mem_append] at hc
      rcases hc with rfl | rfl | hc | hc
      · rfl
      · rfl
      · exact hzero _ c hc
      · exact hall c hc

/-- The text of an exponent has characters of numbers only. -/
theorem isNumeralChar_of_mem_exponentText {power : Int} (hc : c ∈ Decimal.exponentText power) :
    isNumeralChar c = true := by
  rcases List.mem_cons.1 hc with rfl | hc
  · split <;> rfl
  · exact isNumeralChar_of_isDigit (isDigit_of_mem_digitsOf hc)

/-- A number in scientific notation is written with an exponent. -/
theorem pointed_placeScientific (hdigits : ∀ c ∈ digits, c.isDigit = true) (hne : digits ≠ [])
    (power : Int) : Pointed (Decimal.placeScientific digits power) := by
  have hall : ∀ c ∈ digits, isNumeralChar c = true :=
    fun c hc => isNumeralChar_of_isDigit (hdigits c hc)
  unfold Decimal.placeScientific
  split
  · exact absurd rfl hne
  · refine ⟨fun c hc => ?_, .inr (by simp)⟩
    simp only [List.mem_cons] at hc
    rcases hc with rfl | rfl | hc
    · exact hall c (by simp)
    · rfl
    · exact isNumeralChar_of_mem_exponentText hc
  · refine ⟨fun c hc => ?_, .inr (by simp)⟩
    simp only [List.mem_cons, List.mem_append] at hc
    rcases hc with rfl | rfl | hc | rfl | hc
    · exact hall c (by simp)
    · rfl
    · exact hall c (by simp [hc])
    · rfl
    · exact isNumeralChar_of_mem_exponentText hc

/-- The magnitude of any binary64 number is written with a point or an exponent. -/
theorem pointed_magnitude (significand : Nat) (exponent : Int) :
    Pointed (Decimal.Layout.json.magnitude significand exponent) := by
  unfold Decimal.Layout.magnitude
  split
  · exact pointed_placePositional (by simp) 0
  · dsimp only
    split
    · exact pointed_placePositional (fun c hc => isDigit_of_mem_digitsOf hc) _
    · exact pointed_placeScientific (fun c hc => isDigit_of_mem_digitsOf hc)
        Nat.toDigits_ne_nil _

/-- A number that is not finite is written as `null`, any other one with a point or an exponent. -/
theorem write_json_cases (x : Float) :
    Decimal.Layout.json.write x = "null" ∨ Pointed (Decimal.Layout.json.write x).toList := by
  unfold Decimal.Layout.write
  split
  · exact .inl rfl
  · exact .inl rfl
  · exact .inl rfl
  · next negative significand exponent _ =>
    have hmagnitude := pointed_magnitude significand exponent
    refine .inr ?_
    rw [String.toList_ofList]
    refine ⟨fun c hc => ?_, ?_⟩
    · rcases List.mem_append.1 hc with hc | hc
      · split at hc
        · rw [List.mem_singleton.1 hc]
          rfl
        · cases hc
      · exact hmagnitude.plain c hc
    · exact hmagnitude.pointed.imp (List.mem_append_right _) (List.mem_append_right _)

/-! ## What stands in a numeral -/

/-- A fraction and what comes behind it are all that was there. -/
theorem scanFraction_spells {fraction : Option (List Char)}
    (h : scanFraction chars = .ok (fraction, after)) :
    ∃ part, chars = part ++ after ∧ (fraction = none → part = []) := by
  unfold scanFraction at h
  split at h
  · next more =>
    obtain ⟨⟨digits, behind⟩, hscan, h⟩ := bind_eq_ok h
    cases h
    exact ⟨'.' :: digits, congrArg (List.cons '.') (scanDigits_spells hscan).1, nofun⟩
  · cases h
    exact ⟨[], rfl, fun _ => rfl⟩

/-- A sign and what comes behind it are all that was there. -/
theorem exists_takeSign (chars : List Char) :
    ∃ sign, chars = sign ++ (Decimal.takeSign chars).2 := by
  unfold Decimal.takeSign
  split
  · exact ⟨['-'], rfl⟩
  · exact ⟨['+'], rfl⟩
  · exact ⟨[], rfl⟩

/-- An exponent and what comes behind it are all that was there. -/
theorem scanExponent_spells {exponent : Option (Bool × List Char)}
    (h : scanExponent chars = .ok (exponent, after)) :
    ∃ part, chars = part ++ after ∧ (exponent = none → part = []) := by
  cases chars with
  | nil =>
    cases h
    exact ⟨[], rfl, fun _ => rfl⟩
  | cons c chars =>
    rw [scanExponent] at h
    split at h
    · obtain ⟨sign, hsign⟩ := exists_takeSign chars
      obtain ⟨⟨digits, behind⟩, hscan, h⟩ := bind_eq_ok h
      cases h
      refine ⟨c :: (sign ++ digits), ?_, nofun⟩
      rw [List.cons_append, List.append_assoc, ← (scanDigits_spells hscan).1]
      exact congrArg (List.cons c) hsign
    · cases h
      exact ⟨[], rfl, fun _ => rfl⟩

/-- The characters of a numeral, part by part, and those behind it. -/
theorem scanNumeral_spells (h : scanNumeral chars = .ok (numeral, after)) :
    ∃ sign fraction exponent,
      chars = sign ++ numeral.whole ++ fraction ++ exponent ++ after ∧
      (∀ c ∈ sign, c = '-') ∧ (∀ c ∈ numeral.whole, c.isDigit = true) ∧
      (numeral.fraction = none → fraction = []) ∧ (numeral.exponent = none → exponent = []) := by
  obtain ⟨behindWhole, behindFraction, _, hwhole, hfraction, hexponent⟩ := scanNumeral_eq_ok h
  have hsign : ∃ sign, chars = sign ++ (splitMinus chars).2 ∧ ∀ c ∈ sign, c = '-' := by
    unfold splitMinus
    split
    · exact ⟨['-'], rfl, by simp⟩
    · exact ⟨[], rfl, by simp⟩
  obtain ⟨sign, hchars, hminus⟩ := hsign
  obtain ⟨hfront, hdigits⟩ := scanWhole_spells hwhole
  obtain ⟨fraction, hbehind, hnone⟩ := scanFraction_spells hfraction
  obtain ⟨exponent, hlast, hnone'⟩ := scanExponent_spells hexponent
  refine ⟨sign, fraction, exponent, ?_, hminus, hdigits, hnone, hnone'⟩
  rw [hlast] at hbehind
  rw [hbehind] at hfront
  rw [hfront] at hchars
  simpa only [List.append_assoc] using hchars

/-- A numeral with a point or an exponent is no integer. -/
theorem number?_of_pointed (h : scanNumeral chars = .ok (numeral, after)) (hafter : after = [])
    (hpointed : Pointed chars) : numeral.number? = numeral.real?.map .real := by
  obtain ⟨sign, fraction, exponent, hchars, hsign, hdigits, hfraction, hexponent⟩ :=
    scanNumeral_spells h
  have hparts : numeral.fraction.isSome = true ∨ numeral.exponent.isSome = true := by
    by_contra hnone
    simp only [not_or, Option.not_isSome_iff_eq_none] at hnone
    rw [hfraction hnone.1, hexponent hnone.2, hafter] at hchars
    simp only [List.append_nil] at hchars
    have hplain : ∀ c ∈ chars, c = '-' ∨ c.isDigit = true := by
      intro c hc
      rw [hchars] at hc
      exact (List.mem_append.1 hc).imp (hsign c) (hdigits c)
    rcases hpointed.pointed with hc | hc <;> rcases hplain _ hc with hbad | hbad <;> cases hbad
  rw [Numeral.number?, if_pos]
  rcases hparts with hsome | hsome <;> simp [hsome]

/-! ## Numbers on their own -/

/-- When a number is read, it is a numeral that is read. -/
theorem scanNumeral_of_scanDocument {depth : Option Nat} {fuel : Nat} {number : Number}
    (h : scanDocument Rules.strict depth fuel chars = .ok (.number number, rest)) :
    ∃ numeral, scanNumeral (skipSpace chars) = .ok (numeral, rest) ∧
      numeral.number? = some number ∧
      ∃ c more, skipSpace chars = c :: more ∧ (c = '-' ∨ c.isDigit = true) := by
  cases fuel with
  | zero => cases h
  | succ fuel =>
    -- Whatever starts otherwise is no number, so only the last branch is left.
    rw [scanDocument] at h
    split at h
    · cases h
    · obtain ⟨_, _, h⟩ := bind_eq_ok h
      cases h
    · obtain ⟨_, _, h⟩ := bind_eq_ok h
      cases h
    · obtain ⟨_, _, h⟩ := bind_eq_ok h
      cases h
    · obtain ⟨_, _, h⟩ := bind_eq_ok h
      cases h
    · obtain ⟨_, _, h⟩ := bind_eq_ok h
      obtain ⟨_, _, h⟩ := bind_eq_ok h
      cases h
    · obtain ⟨_, _, h⟩ := bind_eq_ok h
      obtain ⟨_, _, h⟩ := bind_eq_ok h
      cases h
    · next c more _ _ _ _ _ _ hskip =>
      rw [hskip]
      split at h
      · next hc =>
        obtain ⟨⟨numeral, behind⟩, hscan, h⟩ := bind_eq_ok h
        obtain ⟨found, hfound, h⟩ := bind_eq_ok h
        cases h
        refine ⟨numeral, hscan, ?_, c, more, rfl, hc⟩
        simp only [Rules.strict] at hfound
        split at hfound
        · next hnumber =>
          cases hfound
          exact hnumber
        · cases hfound
      · cases h

/-- No blanks are passed over in front of a number. -/
theorem skipSpace_of_isNumeralChar (h : ∀ c ∈ chars, isNumeralChar c = true) :
    skipSpace chars = chars := by
  cases chars with
  | nil => rfl
  | cons c chars =>
    refine List.dropWhile_cons_of_neg ?_
    rw [not_isSpace_of_isNumeralChar (h c List.mem_cons_self)]
    exact Bool.false_ne_true

/-- A number is read from a text if the document there is that number and only blanks follow. -/
theorem scanDocument_of_readValue {text : String} {number : Number}
    (h : readValue text = .ok (.number number)) :
    ∃ rest, skipSpace rest = [] ∧ scanDocument Rules.strict Rules.strict.depth
      (readingSteps text.toList) text.toList = .ok (.number number, rest) := by
  unfold readValue at h
  split at h
  · next value hscan =>
    obtain ⟨⟨document, rest⟩, hdocument, hscan⟩ := bind_eq_ok hscan
    dsimp only at hscan
    split at hscan
    · next hrest =>
      cases hscan
      -- Only a number is sorted into a number.
      cases value <;> cases h
      exact ⟨rest, hrest, hdocument⟩
    · cases hscan
  · cases h

/-- The characters of a number that reads back are read as that number. -/
theorem spells_real {x : Float} (h : ReadsBack x) :
    Spells (Value.writeNumber (.real x)) (.real x) := by
  obtain ⟨number, hread, hvalue⟩ := h
  rcases write_json_cases x with hnull | hpointed
  · rw [hnull] at hread
    cases hread
  · obtain ⟨rest, hrest, hscan⟩ := scanDocument_of_readValue hread
    obtain ⟨numeral, hnumeral, hnumber, c, more, hchars, hc⟩ := scanNumeral_of_scanDocument hscan
    rw [skipSpace_of_isNumeralChar hpointed.plain] at hnumeral hchars
    -- Nothing but blanks is left, and there are no blanks.
    have hnone : rest = [] := by
      obtain ⟨sign, fraction, exponent, hall, _⟩ := scanNumeral_spells hnumeral
      rw [skipSpace_of_isNumeralChar fun c hc => hpointed.plain c ?_] at hrest
      · exact hrest
      · rw [hall]
        exact List.mem_append_right _ hc
    refine ⟨hpointed.plain, ⟨c, more, hchars, hc⟩, numeral, hnone ▸ hnumeral, ?_⟩
    rw [number?_of_pointed hnumeral hnone hpointed] at hnumber ⊢
    obtain ⟨y, hy, rfl⟩ := Option.map_eq_some_iff.1 hnumber
    rw [hy, Option.map_some]
    exact congrArg (fun y => some (Number.real y)) hvalue

end TriggerDesk.Json
