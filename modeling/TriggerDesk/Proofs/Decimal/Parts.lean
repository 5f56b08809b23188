import Mathlib
import TriggerDesk.Proofs.Decimal.Nearest

/-!
# Binary64 numbers and their bits

The parts that the printer takes out of the bits of a `Float` are those with which its operations
compute (`unpack_of_ofFloat`), and packed parts are found again (`ofFloat_pack`). So `Stands x a`,
that `x` is the number `a`, fixes both of them: a float has one number (`Stands.value_unique`) and
a number, unless it is zero, one float (`Stands.unique`).
-/

namespace TriggerDesk.Decimal

open Float.Model UnpackedFloat

variable {x y : Float} {a b : ℚ} {m : ℕ} {e : ℤ} {s : Sign} {negative : Bool}

/-! ## Taking bits apart -/

section Bits

variable (b : BitVec Format.binary64.numBits)

/-- The significand is in the last 52 bits. -/
theorem toNat_unpackMantissa : (unpackMantissa b).toNat = b.toNat % 2 ^ 52 := by
  simp [unpackMantissa, BitVec.extractLsb, BitVec.extractLsb'_toNat]

/-- The exponent is in the 11 bits in front of the significand. -/
theorem toNat_unpackExponent : (unpackExponent b).toNat = b.toNat / 2 ^ 52 % 2 ^ 11 := by
  simp [unpackExponent, BitVec.extractLsb, BitVec.extractLsb'_toNat, Nat.shiftRight_eq_div_pow]

/-- The sign is the first bit. -/
theorem toNat_unpackSign : (unpackSign b).toNat = b.toNat / 2 ^ 63 % 2 := by
  simp [unpackSign, BitVec.extractLsb, BitVec.extractLsb'_toNat, Nat.shiftRight_eq_div_pow]

end Bits

/-- The sign with which a number is written. -/
def signOf (negative : Bool) : Sign := if negative then .negative else .positive

/-- The packed bits are those of the sign, of the exponent and of the significand, one behind the
other. -/
theorem toNat_packComponents (s : Sign) (exponent : BitVec 11) (mantissa : BitVec 52) :
    (packComponents Format.binary64 s exponent mantissa).toNat =
      s.toBitVec.toNat * 2 ^ 63 + exponent.toNat * 2 ^ 52 + mantissa.toNat := by
  have hexponent := exponent.isLt
  have hmantissa := mantissa.isLt
  rw [packComponents, BitVec.toNat_append, BitVec.toNat_append,
    ← Nat.shiftLeft_add_eq_or_of_lt hexponent, ← Nat.shiftLeft_add_eq_or_of_lt hmantissa]
  simp only [Nat.shiftLeft_eq]
  ring

/-- The parts of a number, as its operations take them. -/
def Binary64.unpacked : Binary64 → UnpackedFloat
  | .nan => .notANumber
  | .infinite negative => .infinity (signOf negative)
  | .finite negative m e =>
    if h : m = 0 then .zero (signOf negative)
    else .finite (signOf negative) m e (Nat.pos_of_ne_zero h)

/-- A sign bit that is set is a minus. -/
theorem ofBitVec_eq_signOf (b : BitVec 1) : Sign.ofBitVec b = signOf (b.toNat == 1) := by
  rw [Sign.ofBitVec, signOf]
  have hbit := b.isLt
  by_cases hzero : b = 0#1
  · simp [hzero]
  · have hone : b.toNat = 1 := by
      have hne : b.toNat ≠ 0 := fun h => hzero (BitVec.eq_of_toNat_eq h)
      omega
    simp [hzero, hone]

/-- The printer and the operations see the same parts. -/
theorem unpack_eq (x : Float) : x.toModel.unpack = (Binary64.ofFloat x).unpacked := by
  have hnat : x.toBits.toNat = x.toModel.toBits.toBitVec.toNat := rfl
  obtain ⟨bits, hbits⟩ : ∃ bits : BitVec Format.binary64.numBits,
    x.toModel.toBits.toBitVec = bits := ⟨_, rfl⟩
  unfold Float.Model.unpack UnpackedFloat.unpack Binary64.ofFloat
  rw [hnat, hbits]
  have hsize : bits.toNat < 2 ^ 64 := bits.isLt
  have hsign : Sign.ofBitVec (unpackSign bits) = signOf (bits.toNat / Nat.pow 2 63 == 1) := by
    rw [ofBitVec_eq_signOf, toNat_unpackSign, Nat.mod_eq_of_lt (by omega)]
    rfl
  have hexponent : (unpackExponent bits).toNat = bits.toNat / Binary64.normal % 2048 :=
    toNat_unpackExponent bits
  have hmantissa : (unpackMantissa bits).toNat = bits.toNat % Binary64.normal :=
    toNat_unpackMantissa bits
  have hlast : unpackExponent bits = -1#_ ↔ bits.toNat / Binary64.normal % 2048 = 2047 := by
    rw [← hexponent, ← BitVec.toNat_inj]
    rfl
  have hfirst : unpackExponent bits = 0#_ ↔ bits.toNat / Binary64.normal % 2048 = 0 := by
    rw [← hexponent, ← BitVec.toNat_inj]
    rfl
  have hnone : unpackMantissa bits = 0#_ ↔ bits.toNat % Binary64.normal = 0 := by
    rw [← hmantissa, ← BitVec.toNat_inj]
    rfl
  -- A normal number has a first bit that is not written.
  have hhidden : (1#1 ++ unpackMantissa bits).toNat =
      Binary64.normal + bits.toNat % Binary64.normal := by
    rw [← hmantissa, BitVec.toNat_append, ← Nat.shiftLeft_add_eq_or_of_lt (BitVec.isLt _)]
    rfl
  dsimp only
  simp only [hlast, hfirst, hnone, hsign]
  split
  · split <;> rfl
  · split
    · split
      · next hzero => simp only [hzero, Binary64.unpacked, dif_pos]
      · next hsome =>
        rw [Binary64.unpacked, dif_neg hsome]
        congr 1
        rw [hexponent]
        simp_all [Format.exponentBias, Binary64.leastExponent]
    · next hnormal =>
      rw [Binary64.unpacked, dif_neg (by simp [Binary64.normal])]
      congr 1
      rw [hexponent]
      simp [Format.exponentBias, Binary64.leastExponent]
      omega

/-! ## Packing them -/

/-- The parts of a finite number are in canonical form. -/
theorem canonical_of_ofFloat (h : Binary64.ofFloat x = .finite negative m e) :
    (m = 0 ∧ e = Binary64.leastExponent) ∨ (IsCanonical m e ∧ e ≤ 971) := by
  unfold Binary64.ofFloat at h
  dsimp only at h
  split at h
  · split at h <;> cases h
  · split at h
    · cases h
      rcases Nat.eq_zero_or_pos (x.toBits.toNat % Binary64.normal) with hzero | hpos
      · exact .inl ⟨hzero, rfl⟩
      · refine .inr ⟨⟨hpos, ?_, le_refl _, .inr rfl⟩, by decide⟩
        have hlt := Nat.mod_lt x.toBits.toNat (show 0 < Binary64.normal by decide)
        exact hlt.trans (by decide)
    · next hlast hfirst =>
      cases h
      have hlt := Nat.mod_lt x.toBits.toNat (show 0 < Binary64.normal by decide)
      have hbiased := Nat.mod_lt (x.toBits.toNat / Binary64.normal) (show 0 < 2048 by decide)
      have hnormal : Binary64.normal = 2 ^ 52 := rfl
      have hleast : Binary64.leastExponent = -1074 := rfl
      refine .inr ⟨⟨?_, ?_, ?_, .inl ?_⟩, ?_⟩ <;> omega

/-- The bits of packed parts: the sign, the exponent and the significand without its first bit, or
no exponent if that bit is missing. -/
theorem toNat_pack (negative : Bool) (hparts : IsCanonical m e) (he : e ≤ 971) :
    (Float.ofModel (.pack (.finite (signOf negative) m e hparts.pos))).toBits.toNat =
      negative.toNat * 2 ^ 63 +
        if 2 ^ 52 ≤ m then (e + 1075).toNat * 2 ^ 52 + (m - 2 ^ 52) else m := by
  obtain ⟨hpos, hfits, hleast, hnormal⟩ := hparts
  have hleast' : -1074 ≤ e := hleast
  have hsign : (signOf negative).toBitVec.toNat = negative.toNat := by
    cases negative <;> rfl
  have hexponent : (e + Format.binary64.exponentBias +
      (Format.binary64.mantissaBitsWithoutImplicit : ℕ)).toNat = (e + 1075).toNat := by
    congr 1
    simp only [Format.exponentBias]
    omega
  have hfinite : ¬ 2 ^ Format.binary64.exponentBits ≤ (e + 1075).toNat + 1 := by
    show ¬ 2048 ≤ (e + 1075).toNat + 1
    omega
  have hlog : m.log2 + 1 = Format.binary64.mantissaBits ↔ 2 ^ 52 ≤ m := by
    have hbits : Format.binary64.mantissaBits = 53 := rfl
    rw [hbits, ← Nat.le_log2 hpos.ne']
    have hle : m.log2 < 53 := (Nat.log2_lt hpos.ne').2 hfits
    omega
  show (UnpackedFloat.pack Format.binary64 (.finite (signOf negative) m e hpos)).toNat = _
  rw [UnpackedFloat.pack, hexponent]
  dsimp only
  rw [if_neg hfinite]
  simp only [hlog]
  split
  · rw [toNat_packComponents, hsign, BitVec.toNat_ofNat, BitVec.toNat_ofNat,
      Nat.mod_eq_of_lt (by omega), Nat.mod_eq_sub_mod (by omega), Nat.mod_eq_of_lt (by omega),
      Nat.add_assoc]
  · rw [toNat_packComponents, hsign, BitVec.toNat_ofNat, BitVec.toNat_ofNat,
      Nat.mod_eq_of_lt (by omega), Nat.mod_eq_of_lt (by omega), Nat.zero_mul, Nat.add_zero]

/-- Packed parts are found again. -/
theorem ofFloat_pack (hparts : IsCanonical m e) (he : e ≤ 971) :
    Binary64.ofFloat (.ofModel (.pack (.finite (signOf negative) m e hparts.pos))) =
      .finite negative m e := by
  have hbits := toNat_pack negative hparts he
  obtain ⟨hpos, hfits, hleast, hnormal⟩ := hparts
  have hleast' : -1074 ≤ e := hleast
  have hnormal' : Binary64.normal = 2 ^ 52 := rfl
  have hpow : Nat.pow 2 63 = 2 ^ 63 := rfl
  have hbit : negative = (negative.toNat == 1) := by cases negative <;> rfl
  have hone := Bool.toNat_le negative
  generalize hbias : (e + 1075).toNat = biased at hbits
  unfold Binary64.ofFloat
  rw [hbits, hnormal', hpow]
  dsimp only
  split
  · next hlow =>
    have hsign : (negative.toNat * 2 ^ 63 + (biased * 2 ^ 52 + (m - 2 ^ 52))) / 2 ^ 63 =
      negative.toNat := by omega
    have hexponent : (negative.toNat * 2 ^ 63 + (biased * 2 ^ 52 + (m - 2 ^ 52))) / 2 ^ 52 % 2048 =
      biased := by omega
    have hfraction : (negative.toNat * 2 ^ 63 + (biased * 2 ^ 52 + (m - 2 ^ 52))) % 2 ^ 52 =
      m - 2 ^ 52 := by omega
    have hsignificand : 2 ^ 52 + (m - 2 ^ 52) = m := by omega
    have hplace : Binary64.leastExponent + (biased : ℤ) - 1 = e := by
      have hleast : Binary64.leastExponent = -1074 := rfl
      omega
    rw [hsign, hexponent, hfraction, if_neg (by omega), if_neg (by omega), ← hbit, hsignificand,
      hplace]
  · next hlow =>
    have hsign : (negative.toNat * 2 ^ 63 + m) / 2 ^ 63 = negative.toNat := by omega
    have hexponent : (negative.toNat * 2 ^ 63 + m) / 2 ^ 52 % 2048 = 0 := by omega
    have hfraction : (negative.toNat * 2 ^ 63 + m) % 2 ^ 52 = m := by omega
    rw [hsign, hexponent, hfraction, if_neg (by decide), if_pos rfl, ← hbit]
    rw [hnormal.resolve_left hlow]

/-- A zero is packed with its sign, and has no significand. -/
theorem ofFloat_pack_zero (negative : Bool) :
    Binary64.ofFloat (.ofModel (.pack (.zero (signOf negative)))) =
      .finite negative 0 Binary64.leastExponent := by
  cases negative <;> decide +kernel

/-- Equal parts of finite numbers come from equal numbers. -/
theorem eq_of_ofFloat (hx : Binary64.ofFloat x = .finite negative m e)
    (hy : Binary64.ofFloat y = .finite negative m e) : x = y := by
  have hsame : x.toModel.unpack = y.toModel.unpack := by rw [unpack_eq, unpack_eq, hx, hy]
  have hbits := (unpack_inj_of_valid x.toModel.valid y.toModel.valid).1 hsame
  exact Float.toBits_inj.1 (UInt64.toBitVec_inj.1 hbits)

/-! ## The number that a float is -/

/-- Whether a float has a sign and, without it, is the number `a`. -/
def Stands (x : Float) (negative : Bool) (a : ℚ) : Prop :=
  ∃ m e, Binary64.ofFloat x = .finite negative m e ∧ a = m * 2 ^ e

/-- The place of a number in canonical form. -/
theorem unit_of_canonical (hparts : IsCanonical m e) : unit (m * 2 ^ e) = e := by
  have hunit := two_zpow_pos e
  have hpos : (0 : ℚ) < m := by exact_mod_cast hparts.pos
  refine unit_eq (mul_pos hpos hunit) hparts.least ?_ (hparts.normal.imp_left fun hlow => ?_)
  · exact mul_lt_mul_of_pos_right (by exact_mod_cast hparts.fits) hunit
  · exact mul_le_mul_of_nonneg_right (by exact_mod_cast hlow) hunit.le

/-- Canonical parts of one number are the same. -/
theorem IsCanonical.eq_of_value {n : ℕ} {f : ℤ} (hm : IsCanonical m e) (hn : IsCanonical n f)
    (h : (m : ℚ) * 2 ^ e = n * 2 ^ f) : m = n ∧ e = f := by
  have hplace : e = f := by rw [← unit_of_canonical hm, h, unit_of_canonical hn]
  subst hplace
  have hcancel := mul_right_cancel₀ (two_zpow_pos e).ne' h
  exact ⟨by exact_mod_cast hcancel, rfl⟩

namespace Stands

/-- What a float is without its sign is not negative. -/
theorem nonneg (h : Stands x negative a) : 0 ≤ a := by
  obtain ⟨m, e, -, rfl⟩ := h
  exact mul_nonneg (Nat.cast_nonneg m) (two_zpow_pos e).le

/-- What a float has to compute with: a zero, or canonical parts. -/
theorem parts (h : Stands x negative a) :
    (a = 0 ∧ Binary64.ofFloat x = .finite negative 0 Binary64.leastExponent) ∨
      ∃ m e, IsCanonical m e ∧ e ≤ 971 ∧ Binary64.ofFloat x = .finite negative m e ∧
        a = m * 2 ^ e := by
  obtain ⟨m, e, hparts, rfl⟩ := h
  rcases canonical_of_ofFloat hparts with ⟨rfl, rfl⟩ | ⟨hcanonical, he⟩
  · exact .inl ⟨by simp, hparts⟩
  · exact .inr ⟨m, e, hcanonical, he, hparts, rfl⟩

/-- A float is one number with one sign. -/
theorem value_unique {other : Bool} (ha : Stands x negative a) (hb : Stands x other b) :
    negative = other ∧ a = b := by
  obtain ⟨m, e, hm, rfl⟩ := ha
  obtain ⟨n, f, hn, rfl⟩ := hb
  rw [hm] at hn
  cases hn
  exact ⟨rfl, rfl⟩

/-- Two floats that are the same number with the same sign are the same. -/
theorem unique (hx : Stands x negative a) (hy : Stands y negative a) : x = y := by
  rcases hx.parts with ⟨rfl, hx'⟩ | ⟨m, e, hm, -, hx', rfl⟩
  · rcases hy.parts with ⟨-, hy'⟩ | ⟨n, f, hn, -, -, hvalue⟩
    · exact eq_of_ofFloat hx' hy'
    · have hpos : (0 : ℚ) < n := by exact_mod_cast hn.pos
      exact absurd hvalue (mul_pos hpos (two_zpow_pos f)).ne
  · rcases hy.parts with ⟨hvalue, -⟩ | ⟨n, f, hn, -, hy', hvalue⟩
    · have hpos : (0 : ℚ) < m := by exact_mod_cast hm.pos
      exact absurd hvalue (mul_pos hpos (two_zpow_pos e)).ne'
    · obtain ⟨rfl, rfl⟩ := hm.eq_of_value hn hvalue
      exact eq_of_ofFloat hx' hy'

/-- A float that is a number is finite. -/
theorem isFinite (h : Stands x negative a) : x.isFinite = true := by
  obtain ⟨m, e, hparts, -⟩ := h
  show x.toModel.unpack.isFinite = true
  rw [unpack_eq, hparts, Binary64.unpacked]
  split <;> rfl

/-- A float that is a number is not infinite. -/
theorem isInf_eq_false (h : Stands x negative a) : x.isInf = false := by
  obtain ⟨m, e, hparts, -⟩ := h
  show x.toModel.unpack.isInf = false
  rw [unpack_eq, hparts, Binary64.unpacked]
  split <;> rfl

/-- A float that is a number is in range. -/
theorem lt_bound (h : Stands x negative a) : a < bound := by
  rcases h.parts with ⟨rfl, -⟩ | ⟨m, e, hparts, he, -, rfl⟩
  · exact bound_pos
  · calc (m : ℚ) * 2 ^ e
        < 2 ^ 53 * 2 ^ e :=
          mul_lt_mul_of_pos_right (by exact_mod_cast hparts.fits) (two_zpow_pos e)
      _ ≤ bound :=
          mul_le_mul_of_nonneg_left (zpow_le_zpow_right₀ (by norm_num) he) (by norm_num)

/-- A float that is a number is at most the greatest number in range. -/
theorem lt_overflow (h : Stands x negative a) : a < overflow := by
  rcases h.parts with ⟨rfl, -⟩ | ⟨m, e, hparts, he, -, rfl⟩
  · exact mul_pos (by norm_num) (two_zpow_pos _)
  · have hfits : (m : ℚ) + 1 ≤ 2 ^ 53 := by exact_mod_cast hparts.fits
    calc (m : ℚ) * 2 ^ e
        < (2 ^ 53 - 1 / 2) * 2 ^ e := mul_lt_mul_of_pos_right (by linarith) (two_zpow_pos e)
      _ ≤ overflow :=
          mul_le_mul_of_nonneg_left (zpow_le_zpow_right₀ (by norm_num) he) (by norm_num)

/-- The other sign. -/
theorem neg (h : Stands x negative a) : Stands (-x) (!negative) a := by
  have hsign : ∀ negative, -signOf negative = signOf !negative := by
    intro negative
    cases negative <;> rfl
  have hmodel : ∀ f, x.toModel.unpack.neg = f → -x = .ofModel (.pack f) := by
    intro f hf
    rw [← hf]
    rfl
  rcases h.parts with ⟨rfl, hparts⟩ | ⟨m, e, hcanonical, he, hparts, rfl⟩
  · refine ⟨0, Binary64.leastExponent, ?_, by simp⟩
    rw [hmodel (.zero (signOf !negative)), ofFloat_pack_zero]
    rw [unpack_eq, hparts, ← hsign]
    rfl
  · refine ⟨m, e, ?_, rfl⟩
    rw [hmodel (.finite (signOf !negative) m e hcanonical.pos), ofFloat_pack hcanonical he]
    rw [unpack_eq, hparts, ← hsign, Binary64.unpacked, dif_neg hcanonical.pos.ne']
    rfl

end Stands

/-- A finite float is a number. -/
theorem exists_stands (h : x.isFinite = true) : ∃ negative a, Stands x negative a := by
  have hunpack : x.toModel.unpack.isFinite = true := h
  rw [unpack_eq] at hunpack
  cases hparts : Binary64.ofFloat x with
  | nan => rw [hparts] at hunpack; cases hunpack
  | infinite negative => rw [hparts] at hunpack; cases hunpack
  | finite negative m e => exact ⟨negative, _, m, e, hparts, rfl⟩

end TriggerDesk.Decimal
