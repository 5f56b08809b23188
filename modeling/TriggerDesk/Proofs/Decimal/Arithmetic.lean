import TriggerDesk.Proofs.Decimal.Parts

/-!
# Arithmetic that rounds once

The product and the quotient of two binary64 numbers are the numbers nearest to the exact ones
(`Stands.mul`, `Stands.div`), and so is the number of an integer (`stands_ofUInt64`), as long as
they are in range. The operations shift a significand to its place and keep, of the bits that drop
out, only whether they are at, below or above a half (`Extends`); that is all that rounding asks.
-/

namespace TriggerDesk.Decimal

open Float.Model UnpackedFloat

variable {x : ℚ} {M : ℕ} {E : ℤ} {em : ExtendedMantissa} {acc : Accuracy} {s : Sign}

/-! ## Significands with two more bits -/

/-- Whether an extended significand says of a number what rounding needs: its integer part, whether
it is at least a half more, and whether it is neither the integer nor a half more. -/
structure Extends (em : ExtendedMantissa) (x : ℚ) : Prop where
  low : em.mantissa ≤ x
  high : x < em.mantissa + 1
  round : em.roundBit = true ↔ em.mantissa + 1 / 2 ≤ x
  sticky : em.stickyBit = true ↔ x ≠ em.mantissa ∧ x ≠ em.mantissa + 1 / 2

/-- The two bits are about what follows the integer part. -/
theorem extends_add {t : ℚ} {round sticky : Bool} (M : ℕ) (hnonneg : 0 ≤ t) (hlt : t < 1)
    (hround : round = true ↔ 1 / 2 ≤ t) (hsticky : sticky = true ↔ t ≠ 0 ∧ t ≠ 1 / 2) :
    Extends ⟨M, round, sticky⟩ (M + t) where
  low := le_add_of_nonneg_right hnonneg
  high := (add_lt_add_iff_left _).2 hlt
  round := by rw [hround, add_le_add_iff_left]
  sticky := by rw [hsticky, Ne, Ne, Ne, Ne, add_eq_left, add_right_inj]

/-- An exact significand extends itself. -/
theorem extends_exact (M : ℕ) : Extends (.ofMantissaAndAccuracy M .exact) M where
  low := le_refl _
  high := lt_add_one _
  round := by simp [ExtendedMantissa.ofMantissaAndAccuracy]
  sticky := by simp [ExtendedMantissa.ofMantissaAndAccuracy]

/-- An integer and a proper fraction. -/
theorem extends_fraction {num den : ℕ} (h : num < den) (M : ℕ) :
    Extends (.ofMantissaAndAccuracy M (accuracyOfFraction num den)) (M + num / den) := by
  have hden : (0 : ℚ) < den := by exact_mod_cast Nat.zero_lt_of_lt h
  have hnonneg : (0 : ℚ) ≤ num / den := by positivity
  have hpart : (num : ℚ) / den < 1 := by
    rw [div_lt_one hden]
    exact_mod_cast h
  have hhalf : (1 : ℚ) / 2 ≤ num / den ↔ den ≤ 2 * num := by
    rw [div_le_div_iff₀ (by norm_num) hden, one_mul, mul_comm (num : ℚ)]
    norm_cast
  have hhalf' : (num : ℚ) / den = 1 / 2 ↔ 2 * num = den := by
    rw [div_eq_div_iff hden.ne' (by norm_num), one_mul, mul_comm (num : ℚ)]
    norm_cast
  have hzero : (num : ℚ) / den = 0 ↔ num = 0 := by
    rw [div_eq_zero_iff]
    simp [hden.ne']
  unfold accuracyOfFraction
  split
  · next hnone =>
    rw [hzero.2 hnone, add_zero]
    exact extends_exact M
  · next hsome =>
    cases hcompare : compare (2 * num) den with
    | lt =>
      have hlt : 2 * num < den := Nat.compare_eq_lt.1 hcompare
      refine extends_add M hnonneg hpart ?_ ?_
      · simp only [hhalf, Bool.false_eq_true, false_iff]
        omega
      · simp only [ne_eq, hzero, hhalf', true_iff]
        omega
    | eq =>
      have heq : 2 * num = den := Nat.compare_eq_eq.1 hcompare
      refine extends_add M hnonneg hpart ?_ ?_
      · simp only [hhalf, true_iff]
        omega
      · simp only [ne_eq, hzero, hhalf', Bool.false_eq_true, false_iff]
        omega
    | gt =>
      have hgt : den < 2 * num := Nat.compare_eq_gt.1 hcompare
      refine extends_add M hnonneg hpart ?_ ?_
      · simp only [hhalf, true_iff]
        omega
      · simp only [ne_eq, hzero, hhalf', true_iff]
        omega

namespace Extends

/-- The two bits together tell whether anything follows the integer part. -/
theorem any_iff (h : Extends em x) : (em.roundBit || em.stickyBit) = true ↔ x ≠ em.mantissa := by
  rw [Bool.or_eq_true, h.round, h.sticky]
  constructor
  · rintro (hhalf | ⟨hne, -⟩)
    · intro heq
      linarith
    · exact hne
  · intro hne
    by_cases heq : x = em.mantissa + 1 / 2
    · exact .inl heq.ge
    · exact .inr ⟨hne, heq⟩

/-- One place to the right: the last bit of the integer part becomes the half. -/
theorem shiftRightOne (h : Extends em x) : Extends em.shiftRightOne (x / 2) := by
  have hlow := h.low
  have hhigh := h.high
  have hany := h.any_iff
  have hsplit : (em.mantissa : ℚ) = 2 * (em.mantissa / 2 : ℕ) + (em.mantissa % 2 : ℕ) := by
    exact_mod_cast (Nat.div_add_mod em.mantissa 2).symm
  have hvalue : x / 2 = (em.mantissa / 2 : ℕ) + (x / 2 - (em.mantissa / 2 : ℕ)) := by ring
  rw [hvalue, ExtendedMantissa.shiftRightOne]
  generalize (em.roundBit || em.stickyBit) = rest at hany ⊢
  rcases Nat.mod_two_eq_zero_or_one em.mantissa with hbit | hbit
  · rw [hbit, Nat.cast_zero, add_zero] at hsplit
    rw [hbit]
    refine extends_add _ (by linarith) (by linarith) ?_ ?_
    · rw [bne_self_eq_false]
      refine iff_of_false Bool.false_ne_true (not_le.2 ?_)
      linarith
    · rw [hany]
      constructor
      · intro hne
        exact ⟨fun heq => hne (by linarith), fun heq => by linarith⟩
      · rintro ⟨hne, -⟩ heq
        exact hne (by linarith)
  · rw [hbit, Nat.cast_one] at hsplit
    rw [hbit]
    refine extends_add _ (by linarith) (by linarith) ?_ ?_
    · refine iff_of_true rfl ?_
      linarith
    · rw [hany]
      constructor
      · intro hne
        exact ⟨fun heq => by linarith, fun heq => hne (by linarith)⟩
      · rintro ⟨-, hne⟩ heq
        exact hne (by linarith)

/-- A significand that is shifted extends what is divided by the power of two. -/
theorem shiftRight (h : Extends em x) (k : ℕ) : Extends (em >>> k) (x / 2 ^ k) := by
  show Extends (Nat.repeat ExtendedMantissa.shiftRightOne k em) (x / 2 ^ k)
  induction k with
  | zero => simpa [Nat.repeat] using h
  | succ k ih =>
    have hstep := ih.shiftRightOne
    rwa [div_div, ← pow_succ] at hstep

/-- A significand that extends a number is rounded as the number is. -/
theorem roundedMantissa_eq (h : Extends em x) : (em.roundedMantissa : ℤ) = roundEven x := by
  obtain ⟨M, round, sticky⟩ := em
  obtain ⟨hlow, hhigh, hround, hsticky⟩ := h
  simp only at hlow hhigh hround hsticky
  cases round with
  | false =>
    have hbelow : x < M + 1 / 2 := not_le.1 fun hle => Bool.false_ne_true (hround.2 hle)
    have hnear : |x - (M : ℤ)| < 1 / 2 := by
      rw [Int.cast_natCast, abs_lt]
      constructor <;> linarith
    cases sticky <;> exact (roundEven_of_abs_lt hnear).symm
  | true =>
    have habove : M + 1 / 2 ≤ x := hround.1 rfl
    cases sticky with
    | false =>
      have hhalf : x = M + 1 / 2 := by
        by_contra hne
        refine Bool.false_ne_true (hsticky.2 ⟨fun heq => ?_, hne⟩)
        linarith
      have heven : Even ((M + M % 2 : ℕ) : ℤ) := by
        rw [Int.even_coe_nat, Nat.even_iff]
        omega
      refine (roundEven_of_even heven ?_).symm
      rw [hhalf, abs_le]
      rcases Nat.mod_two_eq_zero_or_one M with hbit | hbit
      · rw [hbit]
        push_cast
        constructor <;> linarith
      · rw [hbit]
        push_cast
        constructor <;> linarith
    | true =>
      have hne := (hsticky.1 rfl).2
      have hlt : M + 1 / 2 < x := lt_of_le_of_ne habove (Ne.symm hne)
      refine (roundEven_of_abs_lt ?_).symm
      show |x - ((M + 1 : ℕ) : ℤ)| < 1 / 2
      push_cast
      rw [abs_lt]
      constructor <;> linarith

end Extends

/-! ## Rounding -/

/-- Whether parts, perhaps with an exponent that is too large, are the number `a` with a sign. -/
def Denotes (f : UnpackedFloat) (s : Sign) (a : ℚ) : Prop :=
  (a = 0 ∧ f = .zero s) ∨
    ∃ m e, ∃ h : IsCanonical m e, f = .finite s m e h.pos ∧ a = m * 2 ^ e

/-- The exponent at which rounding keeps 53 bits, if that is not too small. -/
theorem targetExponent_eq (M : ℕ) (E : ℤ) :
    Format.binary64.targetExponent (totalExponent M E) =
      max (M.log2 + E - 52) Binary64.leastExponent := by
  show max ((M.log2 : ℤ) + 1 + E - 53) (-1074) = max (M.log2 + E - 52) (-1074)
  congr 1
  omega

/-- The exponent at which rounding keeps 53 bits is the last place of the number, whatever follows
the significand. -/
theorem unit_eq_targetExponent (hlow : (M : ℚ) ≤ x) (hhigh : x < M + 1) (hpos : 0 < x)
    (hwide : 52 ≤ M.log2 ∨ E ≤ Binary64.leastExponent) :
    unit (x * 2 ^ E) = Format.binary64.targetExponent (totalExponent M E) := by
  have hleast : Binary64.leastExponent = -1074 := rfl
  have hE := two_zpow_pos E
  rw [targetExponent_eq]
  generalize htarget : max ((M.log2 : ℤ) + E - 52) Binary64.leastExponent = target
  have htop : (M.log2 : ℤ) + 1 + E ≤ 53 + target := by omega
  refine unit_eq (mul_pos hpos hE) (by omega) ?_ ?_
  · have hbound : x < 2 ^ ((M.log2 : ℤ) + 1) := by
      have hsucc : M + 1 ≤ 2 ^ (M.log2 + 1) := Nat.lt_log2_self
      have hsucc' : (M : ℚ) + 1 ≤ 2 ^ (M.log2 + 1) := by exact_mod_cast hsucc
      refine hhigh.trans_le ?_
      exact_mod_cast hsucc'
    calc x * 2 ^ E
        < 2 ^ ((M.log2 : ℤ) + 1) * 2 ^ E := mul_lt_mul_of_pos_right hbound hE
      _ = 2 ^ ((M.log2 : ℤ) + 1 + E) := (zpow_add₀ (by norm_num) _ _).symm
      _ ≤ 2 ^ (53 + target) := zpow_le_zpow_right₀ (by norm_num) htop
      _ = 2 ^ 53 * 2 ^ target := by
        rw [zpow_add₀ (by norm_num)]
        rfl
  · by_cases hmin : target = Binary64.leastExponent
    · exact .inr hmin
    left
    have hM : M ≠ 0 := by
      rintro rfl
      rw [Nat.log2_zero] at *
      omega
    have hself : (2 : ℚ) ^ (M.log2 : ℤ) ≤ x := by
      have hself : (2 : ℚ) ^ M.log2 ≤ M := by exact_mod_cast Nat.log2_self_le hM
      exact_mod_cast hself.trans hlow
    calc (2 : ℚ) ^ 52 * 2 ^ target
        = 2 ^ ((M.log2 : ℤ) + E) := by
          rw [show (M.log2 : ℤ) + E = 52 + target by omega, zpow_add₀ (by norm_num)]
          rfl
      _ = 2 ^ (M.log2 : ℤ) * 2 ^ E := zpow_add₀ (by norm_num) _ _
      _ ≤ x * 2 ^ E := mul_le_mul_of_nonneg_right hself hE.le

/-- A significand of at most 53 bits stays where it is. -/
theorem shiftToTargetExponent_of_lt (hM : M < 2 ^ 53) (hE : Binary64.leastExponent ≤ E) :
    shiftToTargetExponent Format.binary64 M E .exact = (⟨M, false, false⟩, E) := by
  have hlog : M.log2 ≤ 52 := by
    by_cases hzero : M = 0
    · rw [hzero, Nat.log2_zero]
      omega
    · exact Nat.le_of_lt_succ ((Nat.log2_lt hzero).2 hM)
  have hnone : (Format.binary64.targetExponent (totalExponent M E) - E).toNat = 0 := by
    rw [targetExponent_eq]
    omega
  rw [shiftToTargetExponent, shiftToExponent, hnone]
  simp only [Nat.cast_zero, add_zero]
  rfl

/-- One that was rounded up to 54 bits moves one place. -/
theorem shiftToTargetExponent_of_eq (hE : Binary64.leastExponent ≤ E) :
    shiftToTargetExponent Format.binary64 (2 ^ 53) E .exact = (⟨2 ^ 52, false, false⟩, E + 1) := by
  have hone : (Format.binary64.targetExponent (totalExponent (2 ^ 53) E) - E).toNat = 1 := by
    rw [targetExponent_eq, Nat.log2_two_pow]
    omega
  rw [shiftToTargetExponent, shiftToExponent, hone]
  rfl

/-- The significand is kept, whatever is said of its accuracy. -/
theorem mantissa_ofMantissaAndAccuracy (M : ℕ) (acc : Accuracy) :
    (ExtendedMantissa.ofMantissaAndAccuracy M acc).mantissa = M := by
  cases acc with
  | exact => rfl
  | inexact half => cases half <;> rfl

/-- A significand is shifted by as many bits as its exponent is short of the target. -/
theorem shiftToTargetExponent_of_add {k : ℕ}
    (htarget : Format.binary64.targetExponent (totalExponent M E) = E + k) (acc : Accuracy) :
    shiftToTargetExponent Format.binary64 M E acc =
      (ExtendedMantissa.ofMantissaAndAccuracy M acc >>> k, E + k) := by
  have hcount : (E + k - E).toNat = k := by omega
  rw [shiftToTargetExponent, htarget, shiftToExponent, hcount]

/-- What is left to do after the significand is rounded. -/
theorem denotes_of_shift {target : ℤ} (s : Sign)
    (hshift : shiftToTargetExponent Format.binary64 M E acc = (em, target))
    (hleast : Binary64.leastExponent ≤ target) (hfits : em.roundedMantissa ≤ 2 ^ 53)
    (hnormal : 2 ^ 52 ≤ em.roundedMantissa ∨ target = Binary64.leastExponent) :
    Denotes (roundWithAccuracy Format.binary64 s M E acc) s (em.roundedMantissa * 2 ^ target) := by
  rw [roundWithAccuracy, hshift]
  dsimp only
  generalize em.roundedMantissa = n at hfits hnormal ⊢
  rcases hfits.lt_or_eq with hlt | rfl
  · rw [shiftToTargetExponent_of_lt hlt hleast]
    dsimp only
    split
    · next hzero => exact .inl ⟨by rw [hzero, Nat.cast_zero, zero_mul], rfl⟩
    · next hsome =>
      exact .inr ⟨n, target, ⟨Nat.pos_of_ne_zero hsome, hlt, hleast, hnormal⟩, rfl, rfl⟩
  · rw [shiftToTargetExponent_of_eq hleast]
    refine .inr ⟨2 ^ 52, target + 1, ⟨by decide, by decide, by omega, .inl (le_refl _)⟩, rfl, ?_⟩
    rw [zpow_add_one₀ (by norm_num)]
    push_cast
    ring

/-- Rounding gives the nearest number. -/
theorem denotes_roundWithAccuracy (s : Sign)
    (h : Extends (.ofMantissaAndAccuracy M acc) x) (hpos : 0 < x)
    (hwide : 52 ≤ M.log2 ∨ E ≤ Binary64.leastExponent) :
    Denotes (roundWithAccuracy Format.binary64 s M E acc) s (nearest (x * 2 ^ E)) := by
  have hlow := h.low
  have hhigh := h.high
  rw [mantissa_ofMantissaAndAccuracy] at hlow hhigh
  have hunit := unit_eq_targetExponent hlow hhigh hpos hwide
  obtain ⟨k, hk⟩ : ∃ k : ℕ, Format.binary64.targetExponent (totalExponent M E) = E + k := by
    rw [targetExponent_eq]
    exact ⟨(max (M.log2 + E - 52) Binary64.leastExponent - E).toNat, by omega⟩
  rw [hk] at hunit
  have hscaled : x / 2 ^ k = x * 2 ^ E / 2 ^ (E + k) := by
    rw [zpow_add₀ (by norm_num), zpow_natCast]
    field_simp
  have hrounded := (h.shiftRight k).roundedMantissa_eq
  obtain ⟨hfits, hnormal⟩ := roundEven_unit_bounds (mul_pos hpos (two_zpow_pos E))
  rw [hunit, ← hscaled, ← hrounded] at hfits hnormal
  have hleast : Binary64.leastExponent ≤ E + k := by
    rw [← hunit]
    exact leastExponent_le_unit _
  rw [nearest, hunit, ← hscaled, ← hrounded, Int.cast_natCast]
  exact denotes_of_shift s (shiftToTargetExponent_of_add hk acc) hleast (by exact_mod_cast hfits)
    (by exact_mod_cast hnormal)

/-! ## Packing the result -/

variable {f : UnpackedFloat} {negative : Bool} {a b : ℚ} {x' y z : Float}

/-- A number in range is packed as it is, and one out of range becomes infinite. -/
theorem stands_or_infinite (h : Denotes f (signOf negative) a) :
    (a < bound ∧ Stands (.ofModel (.pack f)) negative a) ∨
      (bound ≤ a ∧ (Float.ofModel (.pack f)).toModel.unpack = .infinity (signOf negative)) := by
  rcases h with ⟨rfl, rfl⟩ | ⟨m, e, hparts, rfl, rfl⟩
  · refine .inl ⟨bound_pos, 0, Binary64.leastExponent, ofFloat_pack_zero negative, ?_⟩
    rw [Nat.cast_zero, zero_mul]
  by_cases he : e ≤ 971
  · have hstands : Stands (.ofModel (.pack (.finite (signOf negative) m e hparts.pos))) negative
        (m * 2 ^ e) := ⟨m, e, ofFloat_pack hparts he, rfl⟩
    exact .inl ⟨hstands.lt_bound, hstands⟩
  · refine .inr ⟨?_, ?_⟩
    · have hleast : Binary64.leastExponent = -1074 := rfl
      have hlow : (2 : ℚ) ^ 52 ≤ m := by exact_mod_cast hparts.normal.resolve_right (by omega)
      calc bound = 2 ^ 52 * 2 ^ (972 : ℤ) := by
            rw [bound, show (972 : ℤ) = 971 + 1 by norm_num, zpow_add_one₀ (by norm_num)]
            ring
        _ ≤ m * 2 ^ e :=
            mul_le_mul hlow (zpow_le_zpow_right₀ (by norm_num) (by omega)) (two_zpow_pos _).le
              (Nat.cast_nonneg m)
    · have hpack : UnpackedFloat.pack Format.binary64 (.finite (signOf negative) m e hparts.pos) =
          packedInfinity Format.binary64 (signOf negative) := by
        rw [UnpackedFloat.pack]
        refine if_pos ?_
        show 2048 ≤ (e + (1023 : ℕ) + (52 : ℕ)).toNat + 1
        omega
      show UnpackedFloat.unpack Format.binary64 (UnpackedFloat.pack Format.binary64
        (.finite (signOf negative) m e hparts.pos)) = _
      rw [hpack]
      cases negative <;> rfl

/-! ## The operations -/

/-- What an operation finds in a float that is a number. -/
theorem Stands.unpack (h : Stands x' negative a) :
    (a = 0 ∧ x'.toModel.unpack = .zero (signOf negative)) ∨
      ∃ m e, ∃ h : IsCanonical m e, x'.toModel.unpack = .finite (signOf negative) m e h.pos ∧
        a = m * 2 ^ e := by
  rcases h.parts with ⟨rfl, hparts⟩ | ⟨m, e, hcanonical, -, hparts, rfl⟩
  · refine .inl ⟨rfl, ?_⟩
    rw [unpack_eq, hparts]
    rfl
  · refine .inr ⟨m, e, hcanonical, ?_, rfl⟩
    rw [unpack_eq, hparts, Binary64.unpacked, dif_neg hcanonical.pos.ne']

/-- The product of two canonical significands has enough bits, unless its exponent is small. -/
theorem IsCanonical.wide_mul {m n : ℕ} {e f : ℤ} (hm : IsCanonical m e) (hn : IsCanonical n f) :
    52 ≤ (m * n).log2 ∨ e + f ≤ Binary64.leastExponent := by
  have hpos : m * n ≠ 0 := (Nat.mul_pos hm.pos hn.pos).ne'
  rcases hm.normal with hlow | rfl
  · exact .inl ((Nat.le_log2 hpos).2 (hlow.trans (Nat.le_mul_of_pos_right m hn.pos)))
  · rcases hn.normal with hlow | rfl
    · exact .inl ((Nat.le_log2 hpos).2 (hlow.trans (Nat.le_mul_of_pos_left n hm.pos)))
    · exact .inr (by decide)

/-- A product is rounded once. -/
theorem Stands.denotes_mul (hy : Stands y false a) (hz : Stands z false b) :
    ∃ f, y * z = .ofModel (.pack f) ∧ Denotes f (signOf false) (nearest (a * b)) := by
  refine ⟨UnpackedFloat.mul Format.binary64 y.toModel.unpack z.toModel.unpack, rfl, ?_⟩
  rcases hy.unpack with ⟨rfl, hfirst⟩ | ⟨m, e, hm, hfirst, rfl⟩
  · rw [zero_mul, nearest_zero]
    refine .inl ⟨rfl, ?_⟩
    rcases hz.unpack with ⟨-, hsecond⟩ | ⟨n, f, hn, hsecond, -⟩ <;>
    · rw [hfirst, hsecond]
      rfl
  rcases hz.unpack with ⟨rfl, hsecond⟩ | ⟨n, f, hn, hsecond, rfl⟩
  · rw [mul_zero, nearest_zero]
    refine .inl ⟨rfl, ?_⟩
    rw [hfirst, hsecond]
    rfl
  have hvalue : (m : ℚ) * 2 ^ e * (n * 2 ^ f) = (m * n : ℕ) * 2 ^ (e + f) := by
    rw [zpow_add₀ (by norm_num)]
    push_cast
    ring
  have hpos : 0 < m * n := Nat.mul_pos hm.pos hn.pos
  rw [hfirst, hsecond, hvalue]
  exact denotes_roundWithAccuracy _ (extends_exact _) (by exact_mod_cast hpos) (hm.wide_mul hn)

/-- A quotient before it is rounded: an integer of enough bits and a proper fraction. -/
theorem divCore_spec {m n : ℕ} {e f : ℤ} (hm : 0 < m) (hn : 0 < n) :
    ∃ q rest shift, divCore Format.binary64 m e n f = (q, shift, accuracyOfFraction rest n) ∧
      rest < n ∧ (m * 2 ^ e / (n * 2 ^ f) : ℚ) = (q + rest / n) * 2 ^ shift ∧
      (52 ≤ q.log2 ∨ shift ≤ Binary64.leastExponent) := by
  have hn' : (n : ℚ) ≠ 0 := by exact_mod_cast hn.ne'
  have htarget : Format.binary64.targetExponent (totalExponent m e - totalExponent n f) =
      max (m.log2 + e - (n.log2 + f) - 53) Binary64.leastExponent := by
    show max ((m.log2 : ℤ) + 1 + e - (n.log2 + 1 + f) - 53) (-1074) = _
    rw [show (m.log2 : ℤ) + 1 + e - (n.log2 + 1 + f) = m.log2 + e - (n.log2 + f) by ring]
    rfl
  obtain ⟨shift, hshift⟩ : ∃ shift, min (e - f)
      (Format.binary64.targetExponent (totalExponent m e - totalExponent n f)) = shift := ⟨_, rfl⟩
  obtain ⟨k, hk⟩ : ∃ k, (e - f - shift).toNat = k := ⟨_, rfl⟩
  rw [htarget] at hshift
  refine ⟨(m <<< k) / n, (m <<< k) % n, shift, ?_, Nat.mod_lt _ hn, ?_, ?_⟩
  · rw [divCore, htarget, hshift, hk]
  · have hquotient : ((m <<< k : ℕ) : ℚ) = n * ((m <<< k) / n : ℕ) + ((m <<< k) % n : ℕ) := by
      exact_mod_cast (Nat.div_add_mod (m <<< k) n).symm
    have hsum : (((m <<< k) / n : ℕ) + ((m <<< k) % n : ℕ) / n : ℚ) = (m <<< k : ℕ) / n := by
      rw [hquotient]
      field_simp
    -- The dividend was moved left by as many bits as the quotient's place lies below `e - f`.
    have hplace : e = f + k + shift := by omega
    rw [hsum, Nat.shiftLeft_eq, hplace, zpow_add₀ (by norm_num), zpow_add₀ (by norm_num),
      zpow_natCast]
    have hf := (two_zpow_pos f).ne'
    push_cast
    field_simp
  · by_cases hleast : shift ≤ Binary64.leastExponent
    · exact .inr hleast
    left
    -- Unless the place is the last of all, it was chosen so that the quotient has 53 bits.
    have hmore : n.log2 + 53 ≤ m.log2 + k := by omega
    have hlow : 2 ^ 52 * n ≤ m <<< k := by
      calc 2 ^ 52 * n ≤ 2 ^ 52 * 2 ^ (n.log2 + 1) :=
            Nat.mul_le_mul_left _ Nat.lt_log2_self.le
        _ = 2 ^ (n.log2 + 53) := by rw [← Nat.pow_add]; congr 1; omega
        _ ≤ 2 ^ (m.log2 + k) := Nat.pow_le_pow_right two_pos hmore
        _ = 2 ^ m.log2 * 2 ^ k := Nat.pow_add 2 _ _
        _ ≤ m * 2 ^ k := Nat.mul_le_mul_right _ (Nat.log2_self_le hm.ne')
        _ = m <<< k := (Nat.shiftLeft_eq m k).symm
    have hquotient : 2 ^ 52 ≤ (m <<< k) / n := (Nat.le_div_iff_mul_le hn).2 hlow
    exact (Nat.le_log2 (by omega)).2 hquotient

/-- A quotient is rounded once. -/
theorem Stands.denotes_div (hy : Stands y false a) (hz : Stands z false b) (hb : b ≠ 0) :
    ∃ f, y / z = .ofModel (.pack f) ∧ Denotes f (signOf false) (nearest (a / b)) := by
  refine ⟨UnpackedFloat.div Format.binary64 y.toModel.unpack z.toModel.unpack, rfl, ?_⟩
  obtain ⟨n, f, hn, hsecond, rfl⟩ := hz.unpack.resolve_left fun h => hb h.1
  rcases hy.unpack with ⟨rfl, hfirst⟩ | ⟨m, e, hm, hfirst, rfl⟩
  · rw [zero_div, nearest_zero, hfirst, hsecond]
    exact .inl ⟨rfl, rfl⟩
  obtain ⟨q, rest, shift, hcore, hrest, hvalue, hwide⟩ :=
    divCore_spec (e := e) (f := f) hm.pos hn.pos
  rw [hfirst, hsecond, hvalue]
  show Denotes (roundWithAccuracy Format.binary64 _ (divCore Format.binary64 m e n f).1
    (divCore Format.binary64 m e n f).2.1 (divCore Format.binary64 m e n f).2.2) _ _
  rw [hcore]
  have hpos : (0 : ℚ) < q + rest / n := by
    have hm' : (0 : ℚ) < m := by exact_mod_cast hm.pos
    have hn' : (0 : ℚ) < n := by exact_mod_cast hn.pos
    have hquotient : (0 : ℚ) < m * 2 ^ e / (n * 2 ^ f) :=
      div_pos (mul_pos hm' (two_zpow_pos e)) (mul_pos hn' (two_zpow_pos f))
    rw [hvalue] at hquotient
    exact pos_of_mul_pos_left hquotient (two_zpow_pos shift).le
  exact denotes_roundWithAccuracy _ (extends_fraction hrest q) hpos hwide

/-- An integer is rounded once. -/
theorem denotes_ofNat (n : ℕ) :
    Denotes (UnpackedFloat.ofNat Format.binary64 n) (signOf false) (nearest n) := by
  rcases Nat.eq_zero_or_pos n with rfl | hpos
  · rw [Nat.cast_zero, nearest_zero]
    exact .inl ⟨rfl, rfl⟩
  obtain ⟨k, hk⟩ : ∃ k, (0 - Format.binary64.targetExponent (totalExponent n 0)).toNat = k :=
    ⟨_, rfl⟩
  have hround : UnpackedFloat.ofNat Format.binary64 n =
      roundWithAccuracy Format.binary64 .positive (n <<< k) (0 - (k : ℤ)) .exact := by
    have hcompare : compare (n : ℤ) 0 = .gt := Int.compare_eq_gt.2 (by omega)
    show UnpackedFloat.normalize Format.binary64 n 0 .positive = _
    rw [UnpackedFloat.normalize, hcompare, ← hk]
    rfl
  have hvalue : (n : ℚ) = (n <<< k : ℕ) * 2 ^ (0 - (k : ℤ)) := by
    rw [Nat.shiftLeft_eq, zero_sub, zpow_neg, zpow_natCast]
    push_cast
    field_simp
  rw [hround, hvalue]
  refine denotes_roundWithAccuracy _ (extends_exact _) ?_ (.inl ?_)
  · rw [Nat.shiftLeft_eq]
    exact_mod_cast Nat.mul_pos hpos (Nat.two_pow_pos k)
  · rw [targetExponent_eq] at hk
    have hleast : Binary64.leastExponent = -1074 := rfl
    rw [Nat.shiftLeft_eq, Nat.le_log2 (Nat.mul_pos hpos (Nat.two_pow_pos k)).ne']
    calc 2 ^ 52 ≤ 2 ^ (n.log2 + k) := Nat.pow_le_pow_right two_pos (by omega)
      _ = 2 ^ n.log2 * 2 ^ k := Nat.pow_add 2 _ _
      _ ≤ n * 2 ^ k := Nat.mul_le_mul_right _ (Nat.log2_self_le hpos.ne')

/-! ## Operations in range -/

/-- A product in range. -/
theorem Stands.mul (hy : Stands y false a) (hz : Stands z false b)
    (hfit : nearest (a * b) < bound) : Stands (y * z) false (nearest (a * b)) := by
  obtain ⟨f, hpack, hdenotes⟩ := hy.denotes_mul hz
  rw [hpack]
  exact ((stands_or_infinite hdenotes).resolve_right fun h => (hfit.trans_le h.1).false).2

/-- A product is a number or infinite. -/
theorem Stands.mul_of_not_isInf (hy : Stands y false a) (hz : Stands z false b)
    (h : (y * z).isInf = false) : Stands (y * z) false (nearest (a * b)) := by
  obtain ⟨f, hpack, hdenotes⟩ := hy.denotes_mul hz
  rw [hpack] at h ⊢
  refine ((stands_or_infinite hdenotes).resolve_right fun hinf => ?_).2
  have hinfinite : (Float.ofModel (.pack f)).toModel.unpack.isInf = false := h
  rw [hinf.2] at hinfinite
  cases hinfinite

/-- A quotient in range. -/
theorem Stands.div (hy : Stands y false a) (hz : Stands z false b) (hb : b ≠ 0)
    (hfit : nearest (a / b) < bound) : Stands (y / z) false (nearest (a / b)) := by
  obtain ⟨f, hpack, hdenotes⟩ := hy.denotes_div hz hb
  rw [hpack]
  exact ((stands_or_infinite hdenotes).resolve_right fun h => (hfit.trans_le h.1).false).2

/-- An integer of 64 bits. -/
theorem stands_ofUInt64 (n : UInt64) : Stands n.toFloat false (nearest n.toNat) := by
  have hdenotes := denotes_ofNat n.toNat
  refine ((stands_or_infinite hdenotes).resolve_right fun h => ?_).2
  refine absurd (nearest_lt_bound (Nat.cast_nonneg n.toNat) ?_) (not_lt.2 h.1)
  have hlt : (n.toNat : ℚ) < 2 ^ 64 := by exact_mod_cast n.toNat_lt
  have hone : (1 : ℚ) ≤ 2 ^ (900 : ℤ) := one_le_zpow₀ (by norm_num) (by norm_num)
  have htop : (2 : ℚ) ^ (971 : ℤ) = 2 ^ (900 : ℤ) * 2 ^ 71 := by
    rw [show (971 : ℤ) = 900 + 71 by norm_num, zpow_add₀ (by norm_num)]
    rfl
  rw [overflow, htop]
  clear htop
  generalize (2 : ℚ) ^ (900 : ℤ) = top at hone ⊢
  linarith

end TriggerDesk.Decimal
