import TriggerDesk.Proofs.Decimal.Digits
import TriggerDesk.Proofs.Json.DecimalText

/-!
# Numbers whose text is read again

Every finite number is read from its text as some finite number of the same sign (`rereads`). Which
one that is follows from the digits and the power of ten in the text: the text is a decimal that
rounds to the number, and the reader makes of it what `Scaled.reading` says. So the number that is
read is close to the one that was written (`Rereads.abs_sub_le`), and it is the same one if the
reader rounds only once (`Rereads.eq_of_exact`).
-/

namespace TriggerDesk.Json

open Decimal

variable {c : ℕ} {place : ℤ}

/-! ## Numbers in range stay in range -/

/-- The product that the reader forms is at most two places above the decimal. -/
theorem product_le {kept n : ℕ} (hkept : 0 < kept) :
    nearest kept * nearest (10 ^ n) ≤
      (1 + 2 / 2 ^ 53 + 1 / 2 ^ 106) * (kept * 10 ^ n) := by
  have hone : (1 : ℚ) ≤ kept := by exact_mod_cast hkept
  have hten := one_le_ten_pow n
  have hproduct := (near_nearest hone).mul (near_nearest hten) (by linarith) (by linarith)
  rw [Near, abs_le] at hproduct
  linarith

/-- The decimals of the greatest numbers are read as numbers in range. -/
theorem isSome_toFloat?_greatest :
    (Scaled.mk 17976931348623155 292).toFloat?.isSome = true ∧
      (Scaled.mk 17976931348623157 292).toFloat?.isSome = true ∧
      shortest .even (2 ^ 53 - 2) 971 = (17976931348623155, 292) ∧
      shortest .even (2 ^ 53 - 1) 971 = (17976931348623157, 292) := by
  decide +kernel

section Range

variable {m : ℕ} {e : ℤ} {chars : List Char} {parts : Parts}

/-- The text of a positive decimal keeps some digit that is not zero. -/
theorem IsText.kept_pos (h : IsText c place chars parts) (hc : 0 < c) : 0 < parts.scaled.kept := by
  by_contra hzero
  have hnone : parts.scaled.kept = 0 := by omega
  have hvalue := h.value
  rw [hnone, Nat.cast_zero, zero_mul] at hvalue
  have hpos : (0 : ℚ) < c * 10 ^ place := mul_pos (by exact_mod_cast hc) (ten_zpow_pos place)
  exact hpos.ne hvalue

/-- Parts that end at the place of the decimal have its digits. -/
theorem IsText.scaled_eq (h : IsText c place chars parts) (hplace : parts.scaled.power = place) :
    parts.scaled = ⟨c, place⟩ := by
  have hvalue := h.value
  rw [hplace] at hvalue
  have hkept : parts.scaled.kept = c := by
    exact_mod_cast mul_right_cancel₀ (ten_zpow_pos place).ne' hvalue
  rw [← hkept, ← hplace]

/-- A decimal that is not above the number below the two greatest ones is read as a number in
range. -/
theorem isSome_toFloat?_of_le (hkept : 0 < parts.scaled.kept) (hplain : parts.Plain)
    (hpower : parts.scaled.power ≤ greatestPower)
    (hle : (parts.scaled.kept : ℚ) * 10 ^ parts.scaled.power ≤
      (2 ^ 53 - 5 / 2) * 2 ^ (971 : ℤ)) : parts.scaled.toFloat?.isSome = true := by
  refine isSome_toFloat? hplain.fits hpower fun hpos => ?_
  obtain ⟨n, hn⟩ := Int.eq_ofNat_of_zero_le hpos
  rw [hn, zpow_natCast] at hle
  rw [hn, Int.toNat_natCast]
  have hfactor : (0 : ℚ) ≤ 1 + 2 / 2 ^ 53 + 1 / 2 ^ 106 := by norm_num
  calc nearest parts.scaled.kept * nearest (10 ^ n)
      ≤ (1 + 2 / 2 ^ 53 + 1 / 2 ^ 106) * (parts.scaled.kept * 10 ^ n) := product_le hkept
    _ ≤ (1 + 2 / 2 ^ 53 + 1 / 2 ^ 106) * ((2 ^ 53 - 5 / 2) * 2 ^ (971 : ℤ)) :=
        mul_le_mul_of_nonneg_left hle hfactor
    _ = (1 + 2 / 2 ^ 53 + 1 / 2 ^ 106) * (2 ^ 53 - 5 / 2) * 2 ^ (971 : ℤ) := (mul_assoc _ _ _).symm
    _ < overflow := mul_lt_mul_of_pos_right (by norm_num) (two_zpow_pos 971)

/-- Of the two greatest numbers the reader's product is computed. -/
theorem isSome_toFloat?_of_greatest (hm : m = 2 ^ 53 - 2 ∨ m = 2 ^ 53 - 1)
    (h : IsText (shortest .even m 971).1 (shortest .even m 971).2 chars parts)
    (hpower : parts.scaled.power ≤ greatestPower) : parts.scaled.toFloat?.isSome = true := by
  obtain ⟨hfirst, hsecond, hfirst', hsecond'⟩ := isSome_toFloat?_greatest
  by_cases hpos : 0 ≤ parts.scaled.power
  · have hplace : parts.scaled.power = (shortest .even m 971).2 := by
      rcases h.power with heq | heq <;> omega
    rw [h.scaled_eq hplace]
    rcases hm with rfl | rfl
    · rw [hfirst']
      exact hfirst
    · rw [hsecond']
      exact hsecond
  · exact isSome_toFloat? h.plain.fits hpower fun hpos' => absurd hpos' hpos

/-- Half a place above any other number is half a place below those two. -/
theorem half_above_le (hfits : m < 2 ^ 53) (he : e ≤ 971) (hother : ¬(e = 971 ∧ 2 ^ 53 - 2 ≤ m)) :
    m * 2 ^ e + 2 ^ e / 2 ≤ (2 ^ 53 - 5 / 2) * (2 : ℚ) ^ (971 : ℤ) := by
  have hunit := two_zpow_pos e
  have htop := two_zpow_pos 971
  by_cases heq : e = 971
  · have hm : (m : ℚ) + 3 ≤ 2 ^ 53 := by exact_mod_cast (show m + 3 ≤ 2 ^ 53 by omega)
    subst heq
    calc m * 2 ^ (971 : ℤ) + 2 ^ (971 : ℤ) / 2 = (m + 1 / 2) * (2 : ℚ) ^ (971 : ℤ) := by ring
      _ ≤ (2 ^ 53 - 5 / 2) * 2 ^ (971 : ℤ) := mul_le_mul_of_nonneg_right (by linarith) htop.le
  · have hm : (m : ℚ) + 1 ≤ 2 ^ 53 := by exact_mod_cast hfits
    have hhalf : (2 : ℚ) ^ e ≤ 2 ^ (971 : ℤ) / 2 := by
      rw [div_eq_mul_inv, ← zpow_sub_one₀ (by norm_num)]
      exact zpow_le_zpow_right₀ (by norm_num) (by omega)
    calc m * 2 ^ e + 2 ^ e / 2 = (m + 1 / 2) * (2 : ℚ) ^ e := by ring
      _ ≤ 2 ^ 53 * 2 ^ e := mul_le_mul_of_nonneg_right (by linarith) hunit.le
      _ ≤ 2 ^ 53 * (2 ^ (971 : ℤ) / 2) := mul_le_mul_of_nonneg_left hhalf (by norm_num)
      _ ≤ (2 ^ 53 - 5 / 2) * 2 ^ (971 : ℤ) := by
        generalize (2 : ℚ) ^ (971 : ℤ) = top at htop
        linarith

/-- Whatever a number in range is, its text is read as one. -/
theorem isSome_toFloat?_shortest (hparts : IsCanonical m e) (he : e ≤ 971)
    (h : IsText (shortest .even m e).1 (shortest .even m e).2 chars parts) :
    parts.scaled.toFloat?.isSome = true := by
  obtain ⟨hshort, -⟩ := shortest_spec .even hparts he
  have hfits := hparts.fits
  have hpower : parts.scaled.power ≤ greatestPower := by
    have hplace := hshort.place_le hparts he
    have hgreatest : greatestPower = 308 := rfl
    rcases h.power with heq | heq <;> omega
  by_cases hgreat : e = 971 ∧ 2 ^ 53 - 2 ≤ m
  · obtain ⟨rfl, hm⟩ := hgreat
    exact isSome_toFloat?_of_greatest (by omega) h hpower
  · refine isSome_toFloat?_of_le (h.kept_pos (hshort.pos hparts.pos)) h.plain hpower ?_
    have hnear := abs_le.1 (hshort.abs_sub_le hparts.pos)
    rw [h.value]
    linarith [half_above_le hfits he hgreat]

end Range

/-! ## Reading again -/

/-- With no digits kept the reading is zero. -/
theorem Scaled.reading_eq_zero (decimal : Scaled) (h : decimal.kept = 0) : decimal.reading = 0 := by
  rw [Scaled.reading, h, Nat.cast_zero, nearest_zero, zero_mul, nearest_zero, dividing_zero,
    ite_self]

/-- What is read from the text of a finite number `p`, which is `a` but for its sign: the text is a
decimal, and the number `q` is read from it. -/
structure Rereads (p : Float) (negative : Bool) (a : ℚ) (decimal : Scaled) (q : Float) : Prop where
  stands : Stands p negative a
  /-- The decimal is that of the numeral in the text, with all the digits that are written. -/
  text : ∃ numeral, scanNumeral (Value.writeNumber (.real p)) = .ok (numeral, []) ∧
    numeral.negative = negative ∧ numeral.decimal = decimal
  fits : decimal.kept < wordBound
  range : -348 ≤ decimal.power ∧ decimal.power ≤ greatestPower
  /-- The text is a decimal that rounds to the number. -/
  written : nearest (decimal.kept * 10 ^ decimal.power) = a
  /-- What is read is a finite number of the same sign. -/
  read : Stands q negative decimal.reading
  spells : Spells (Value.writeNumber (.real p)) (.real q)

section Writing

variable {p : Float} {negative : Bool} {m : ℕ} {e : ℤ} {parts : Parts}

/-- A finite number is written with its sign and then its magnitude. -/
theorem writeNumber_of_ofFloat (hp : Binary64.ofFloat p = .finite negative m e) :
    Value.writeNumber (.real p) =
      (if negative then ['-'] else []) ++ Layout.json.magnitude m e := by
  show (Layout.json.write p).toList = _
  rw [Layout.write, hp, String.toList_ofList]

/-- Plain parts are the numeral in the text, with the sign of the number. -/
theorem scanNumeral_writeNumber (hp : Binary64.ofFloat p = .finite negative m e)
    (hplain : parts.Plain) (hchars : parts.chars = Layout.json.magnitude m e) :
    scanNumeral (Value.writeNumber (.real p)) = .ok (parts.numeral negative, []) := by
  rw [writeNumber_of_ofFloat hp, ← hchars]
  exact hplain.scanNumeral negative

/-- Plain parts that can be read spell a number. -/
theorem exists_spells (hp : Binary64.ofFloat p = .finite negative m e) (hplain : parts.Plain)
    (hchars : parts.chars = Layout.json.magnitude m e)
    (hpower : -1232 ≤ parts.scaled.power ∧ parts.scaled.power ≤ greatestPower)
    (hsome : parts.scaled.toFloat?.isSome = true) :
    ∃ q, Stands q negative parts.scaled.reading ∧
      Spells (Value.writeNumber (.real p)) (.real q) := by
  obtain ⟨x, hx⟩ := Option.isSome_iff_exists.1 hsome
  have hread := stands_of_toFloat? hplain.fits hpower hx
  have htext := writeNumber_of_ofFloat hp
  rw [← hchars] at htext
  have hscan := scanNumeral_writeNumber hp hplain hchars
  have hpointed : Pointed (Value.writeNumber (.real p)) := by
    rcases write_json_cases p with hnull | hpointed
    · have hletters : Value.writeNumber (.real p) = "null".toList := congrArg String.toList hnull
      rw [hletters] at hscan
      cases hscan
    · exact hpointed
  rw [htext] at hscan hpointed ⊢
  have hnumber := number?_of_pointed hscan rfl hpointed
  rw [hplain.real?_eq, hx, Option.map_some, Option.map_some] at hnumber
  refine ⟨if negative then -x else x, ?_, hpointed.plain, ?_, _, hscan, hnumber⟩
  · cases negative
    · exact hread
    · exact hread.neg
  · obtain ⟨d, more, hwhole⟩ := List.exists_cons_of_ne_nil hplain.whole.ne
    have hd := hplain.whole.all d (by rw [hwhole]; exact List.mem_cons_self)
    cases negative
    · exact ⟨d, _, by rw [Parts.chars, hwhole]; rfl, .inr hd⟩
    · exact ⟨'-', _, rfl, .inl rfl⟩

/-- Zero is written with a point. -/
theorem rereads_zero (hp : Binary64.ofFloat p = .finite negative 0 e) :
    ∃ decimal q, Rereads p negative 0 decimal q := by
  have hplain : (Parts.mk ['0'] (some ['0']) none).Plain := by
    refine ⟨isWhole_digitsOf 0, fun digits hdigits => ?_, by decide, by decide, nofun⟩
    cases hdigits
    exact ⟨List.cons_ne_nil _ _, (isWhole_digitsOf 0).all⟩
  obtain ⟨q, hread, hspells⟩ :=
    exists_spells hp hplain rfl ⟨by decide, by decide⟩ (by decide +kernel)
  refine ⟨_, q, ⟨0, e, hp, by simp⟩, ⟨_, scanNumeral_writeNumber hp hplain rfl, rfl,
    Parts.decimal_numeral _ negative⟩, hplain.fits, ⟨by decide, by decide⟩, ?_, hread, hspells⟩
  show nearest (((0 : ℕ) : ℚ) * _) = 0
  rw [Nat.cast_zero, zero_mul, nearest_zero]

/-- A number that is not zero is read from its text as some decimal. -/
theorem rereads_pos (hp : Binary64.ofFloat p = .finite negative m e) (hm : 0 < m) :
    ∃ decimal q, Rereads p negative (m * 2 ^ e) decimal q := by
  obtain ⟨hparts, he⟩ := (canonical_of_ofFloat hp).resolve_left fun hzero => hm.ne' hzero.1
  obtain ⟨hshort, hleast⟩ := shortest_spec .even hparts he
  have hplace := hshort.place_le hparts he
  have hgreatest : greatestPower = 308 := rfl
  have hmagnitude : Layout.json.magnitude m e = _ := if_neg hm.ne'
  obtain ⟨parts, htext⟩ := exists_isText (hshort.pos hm) (hshort.lt_two_pow hparts)
    ⟨hleast, hplace⟩
  have hrange : -348 ≤ parts.scaled.power ∧ parts.scaled.power ≤ greatestPower := by
    rcases htext.power with heq | heq <;> omega
  have hchars := htext.chars_eq.trans hmagnitude.symm
  obtain ⟨q, hread, hspells⟩ := exists_spells hp htext.plain hchars ⟨by omega, hrange.2⟩
    (isSome_toFloat?_shortest hparts he htext)
  refine ⟨_, q, ⟨m, e, hp, rfl⟩, ⟨_, scanNumeral_writeNumber hp htext.plain hchars, rfl,
    parts.decimal_numeral negative⟩, htext.plain.fits, hrange, ?_, hread, hspells⟩
  rw [htext.value]
  exact hshort.nearest_eq hparts

end Writing

/-- Every finite number is read from its text as a finite number. -/
theorem rereads {p : Float} (h : p.isFinite = true) :
    ∃ negative a decimal q, Rereads p negative a decimal q := by
  obtain ⟨negative, a, m, e, hp, rfl⟩ := exists_stands h
  rcases Nat.eq_zero_or_pos m with rfl | hm
  · exact ⟨negative, 0, rereads_zero hp⟩
  · exact ⟨negative, _, rereads_pos hp hm⟩

namespace Rereads

variable {p q : Float} {negative : Bool} {a : ℚ} {decimal : Scaled}

/-- The number comes back if what the reader makes of the text is the number. -/
theorem eq_iff (h : Rereads p negative a decimal q) : q = p ↔ decimal.reading = a := by
  constructor
  · rintro rfl
    exact (h.read.value_unique h.stands).2
  · intro heq
    have hread := h.read
    rw [heq] at hread
    exact hread.unique h.stands

/-- The number comes back if the digits and the power of ten are exact, for then the reader rounds
only once. -/
theorem eq_of_exact (h : Rereads p negative a decimal q) (hkept : decimal.kept < 2 ^ 53)
    (hpower : -22 ≤ decimal.power ∧ decimal.power ≤ 22) : q = p := by
  rw [h.eq_iff, Scaled.reading_eq_nearest hkept hpower, h.written]

/-- What is read is close to the number, whatever the digits and the power of ten are. -/
theorem abs_sub_le (h : Rereads p negative a decimal q) :
    |decimal.reading - a| ≤ a / 2 ^ 47 + 2 ^ (-1073 : ℤ) := by
  have hleast := two_zpow_pos (-1075)
  have hfour : (2 : ℚ) ^ (-1073 : ℤ) = 4 * 2 ^ (-1075 : ℤ) := by
    rw [show (-1073 : ℤ) = 2 + -1075 by norm_num, zpow_add₀ (by norm_num)]
    norm_num
  have hdecimal : (0 : ℚ) ≤ decimal.kept * 10 ^ decimal.power :=
    mul_nonneg (Nat.cast_nonneg _) (ten_zpow_pos _).le
  have hreading : |decimal.reading - decimal.kept * 10 ^ decimal.power| ≤
      decimal.kept * 10 ^ decimal.power / 2 ^ 48 + 2 ^ (-1075 : ℤ) := by
    rcases Nat.eq_zero_or_pos decimal.kept with hzero | hpos
    · rw [decimal.reading_eq_zero hzero, hzero, Nat.cast_zero, zero_mul, sub_zero, abs_zero,
        zero_div, zero_add]
      exact hleast.le
    · have hrange := h.range.1
      exact Scaled.abs_reading_sub_le hpos (by omega)
  have hwritten := abs_nearest_sub_le hdecimal
  rw [h.written] at hwritten
  rw [hfour]
  rw [abs_le] at hreading hwritten ⊢
  generalize (decimal.kept : ℚ) * 10 ^ decimal.power = d at *
  constructor <;> linarith

end Rereads

end TriggerDesk.Json
