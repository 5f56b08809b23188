import TriggerDesk.Json.Number
import TriggerDesk.Proofs.Decimal.Arithmetic

/-!
# What the reader makes of digits and a power of ten

The reader of numerals rounds the kept digits, rounds the power of ten, and rounds again what it
gets from these two (`Scaled.reading`). Where both are exact that is the number nearest to the
decimal (`Scaled.reading_eq_nearest`); in general it is close to it (`Scaled.abs_reading_sub_le`).
-/

namespace TriggerDesk.Json

open Float.Model UnpackedFloat Decimal

/-! ## Powers of ten -/

/-- The powers of ten in range. -/
theorem ten_pow_lt_overflow {n : ℕ} (h : n ≤ greatestPower) :
    (10 : ℚ) ^ n < overflow := by
  have hsmall : (10 : ℚ) ^ 77 ≤ 9 / 10 * 2 ^ 256 := by norm_num
  have hle : (10 : ℚ) ^ n ≤ (10 ^ 77) ^ 4 := by
    rw [← pow_mul]
    exact pow_le_pow_right₀ (by norm_num) h
  have htop : (2 : ℚ) ^ (971 : ℤ) = (2 ^ 256) ^ 3 * 2 ^ 203 := by
    rw [← pow_mul, ← pow_add]
    exact zpow_natCast 2 971
  have hlarge : (1 : ℚ) ≤ 2 ^ 256 := one_le_pow₀ (by norm_num)
  rw [overflow, htop]
  calc (10 : ℚ) ^ n ≤ (10 ^ 77) ^ 4 := hle
    _ ≤ (9 / 10 * 2 ^ 256) ^ 4 := pow_le_pow_left₀ (by positivity) hsmall 4
    _ = (9 / 10) ^ 4 * 2 ^ 256 * (2 ^ 256) ^ 3 := by ring
    _ < (2 ^ 53 - 1 / 2) * 2 ^ 203 * (2 ^ 256) ^ 3 :=
        mul_lt_mul_of_pos_right (by norm_num) (by positivity)
    _ = (2 ^ 53 - 1 / 2) * ((2 ^ 256) ^ 3 * 2 ^ 203) := by ring

/-- The power of ten of the table is the float that is rounded once from it. -/
theorem powerOfTen_eq (n : ℕ) :
    powerOfTen n = .ofModel (.pack (UnpackedFloat.ofScientific Format.binary64 1 n)) := by
  by_cases hsmall : n < 23
  · have hall : ∀ n < 23, powerOfTen n =
        .ofModel (.pack (UnpackedFloat.ofScientific Format.binary64 1 (n : ℕ))) := by
      decide +kernel
    exact hall n hsmall
  · rw [powerOfTen, Float.ofScientific, dif_neg (by omega)]
    rfl

/-- What a power of ten is rounded to is the number nearest to it, in range or not. -/
theorem denotes_ofScientific {n : ℕ} (h : n ≤ 2048) :
    Denotes (UnpackedFloat.ofScientific Format.binary64 1 n) (signOf false)
      (nearest (10 ^ n)) := by
  have hpos : 0 < 2 ^ 53 * 10 ^ n := by positivity
  have hscientific : UnpackedFloat.ofScientific Format.binary64 1 n =
      roundWithAccuracy Format.binary64 .positive (2 ^ 53 * 10 ^ n) (-53) .exact := by
    rw [UnpackedFloat.ofScientific, dif_neg one_ne_zero, if_neg (by norm_num; omega),
      if_neg (by norm_num; omega), if_pos (by omega)]
    rfl
  have hvalue : (10 : ℚ) ^ n = (2 ^ 53 * 10 ^ n : ℕ) * 2 ^ (-53 : ℤ) := by
    push_cast
    norm_num
    ring
  rw [hscientific, hvalue]
  refine denotes_roundWithAccuracy _ (extends_exact _) (by exact_mod_cast hpos) (.inl ?_)
  refine (Nat.le_log2 hpos.ne').2 ?_
  calc 2 ^ 52 ≤ 2 ^ 53 * 1 := by norm_num
    _ ≤ 2 ^ 53 * 10 ^ n := Nat.mul_le_mul_left _ (Nat.one_le_pow _ _ (by norm_num))

/-- The number nearest to a power of ten is one at least. -/
theorem one_le_nearest_ten_pow (n : ℕ) : 1 ≤ nearest (10 ^ n) := by
  cases n with
  | zero =>
    have hone := nearest_of_lt (show 1 < 2 ^ 53 by norm_num)
      (show Binary64.leastExponent ≤ 0 by decide)
    norm_num at hone
    rw [pow_zero, hone]
  | succ n =>
    have hten : (10 : ℚ) ≤ 10 ^ (n + 1) := le_self_pow₀ (by norm_num) (by omega)
    have hsmall : (2 : ℚ) ^ (-1022 : ℤ) ≤ 1 := zpow_le_one_of_nonpos₀ (by norm_num) (by norm_num)
    have hnear := abs_nearest_sub_le_of_normal (by linarith : 2 ^ (-1022 : ℤ) ≤ (10 : ℚ) ^ (n + 1))
    rw [abs_le] at hnear
    linarith

/-- A power of ten is rounded once. -/
theorem stands_powerOfTen {n : ℕ} (h : n ≤ greatestPower) :
    Stands (powerOfTen n) false (nearest (10 ^ n)) := by
  have hbelow : n ≤ 308 := h
  rw [powerOfTen_eq]
  refine ((stands_or_infinite (denotes_ofScientific (by omega))).resolve_right fun hinf => ?_).2
  exact absurd (nearest_lt_bound (by positivity) (ten_pow_lt_overflow h)) (not_lt.2 hinf.1)

/-- One that is out of range is infinite. -/
theorem powerOfTen_cases (n : ℕ) :
    (∃ b, 1 ≤ b ∧ Stands (powerOfTen n) false b) ∨
      (powerOfTen n).toModel.unpack = .infinity .positive := by
  rw [powerOfTen_eq]
  by_cases hn : n ≤ 2048
  · rcases stands_or_infinite (denotes_ofScientific hn) with hstands | hinf
    · exact .inl ⟨_, one_le_nearest_ten_pow n, hstands.2⟩
    · exact .inr hinf.2
  · have hinf : UnpackedFloat.ofScientific Format.binary64 1 n = .infinity .positive := by
      rw [UnpackedFloat.ofScientific, dif_neg one_ne_zero, if_pos (by norm_num; omega)]
    rw [hinf]
    exact .inr rfl

/-! ## Numbers as the reader takes them -/

/-- A division by `10 ^ n` in steps, each one rounded. -/
def dividing (a : ℚ) (n : ℕ) : ℕ → ℚ
  | 0 => nearest (a / nearest (10 ^ n))
  | steps + 1 =>
    if n ≤ greatestPower then nearest (a / nearest (10 ^ n))
    else dividing (nearest (a / nearest (10 ^ greatestPower))) (n - greatestPower) steps

/-- What the reader makes of kept digits and a power of ten. -/
def Scaled.reading (scaled : Scaled) : ℚ :=
  if 0 ≤ scaled.power then nearest (nearest scaled.kept * nearest (10 ^ scaled.power.toNat))
  else dividing (nearest scaled.kept) (-scaled.power).toNat 3

variable {x : Float} {a : ℚ} {scaled : Scaled}

/-- Zero stays zero, however often it is divided. -/
theorem dividing_zero (n steps : ℕ) : dividing 0 n steps = 0 := by
  induction steps generalizing n with
  | zero => rw [dividing, zero_div, nearest_zero]
  | succ steps ih =>
    rw [dividing, zero_div, nearest_zero, zero_div, nearest_zero, ih, ite_self]

/-- A quotient by a number that is not below one stays in range. -/
theorem stands_div {z : Float} {b : ℚ} (hx : Stands x false a) (hz : Stands z false b)
    (hone : 1 ≤ b) : Stands (x / z) false (nearest (a / b)) := by
  have hpos : 0 < b := by linarith
  refine hx.div hz hpos.ne' (nearest_lt_bound ?_ ?_)
  · exact div_nonneg hx.nonneg hpos.le
  · exact (div_le_self hx.nonneg hone).trans_lt hx.lt_overflow

/-- A quotient by a power of ten is the number nearest to the quotient by what the power is rounded
to. -/
theorem stands_div_powerOfTen (hx : Stands x false a) {n : ℕ} (hn : n ≤ greatestPower) :
    Stands (x / powerOfTen n) false (nearest (a / nearest (10 ^ n))) :=
  stands_div hx (stands_powerOfTen hn) (one_le_nearest_ten_pow n)

/-- The only number that equals zero is zero. -/
theorem eq_zero_of_beq (hx : Stands x false a) (h : (x == 0) = true) : a = 0 := by
  rcases hx.unpack with ⟨rfl, -⟩ | ⟨m, e, hparts, hunpack, -⟩
  · rfl
  · have hbeq : x.toModel.unpack.beq (0 : Float).toModel.unpack = true := h
    have hparts : Binary64.ofFloat 0 = .finite false 0 Binary64.leastExponent := by
      decide +kernel
    rw [hunpack, unpack_eq, hparts] at hbeq
    cases hbeq

/-- The steps of a division, as long as they reach. -/
theorem stands_divideByPower (hx : Stands x false a) (n steps : ℕ)
    (hn : n ≤ greatestPower * (steps + 1)) :
    Stands (divideByPower x n steps) false (dividing a n steps) := by
  induction steps generalizing x a n with
  | zero => exact stands_div_powerOfTen hx (by omega)
  | succ steps ih =>
    rw [divideByPower, dividing]
    split
    · next hle => exact stands_div_powerOfTen hx hle
    · split
      · next hzero =>
        have hnone := eq_zero_of_beq hx hzero
        subst hnone
        rw [zero_div, nearest_zero, dividing_zero]
        exact hx
      · exact ih (stands_div_powerOfTen hx (le_refl _)) _ (by rw [Nat.mul_succ] at hn; omega)

/-- A quotient by a power of ten is a number, even if the power is out of range. -/
theorem exists_stands_div_powerOfTen (hx : Stands x false a) (n : ℕ) :
    ∃ b, Stands (x / powerOfTen n) false b := by
  rcases powerOfTen_cases n with ⟨b, hone, hstands⟩ | hinf
  · exact ⟨_, stands_div hx hstands hone⟩
  · have hquotient : x / powerOfTen n = .ofModel (.pack (.zero (signOf false))) := by
      show Float.ofModel (.pack (UnpackedFloat.div Format.binary64 x.toModel.unpack
        (powerOfTen n).toModel.unpack)) = _
      rw [hinf]
      rcases hx.unpack with ⟨-, hunpack⟩ | ⟨m, e, hparts, hunpack, -⟩ <;>
      · rw [hunpack]
        rfl
    rw [hquotient]
    exact ⟨_, 0, _, ofFloat_pack_zero false, rfl⟩

/-- However often a number is divided by powers, a number comes out. -/
theorem exists_stands_divideByPower (hx : Stands x false a) (n steps : ℕ) :
    ∃ b, Stands (divideByPower x n steps) false b := by
  induction steps generalizing x a n with
  | zero => exact exists_stands_div_powerOfTen hx n
  | succ steps ih =>
    rw [divideByPower]
    split
    · exact exists_stands_div_powerOfTen hx n
    · split
      · exact ⟨a, hx⟩
      · exact ih (stands_div_powerOfTen hx (le_refl greatestPower)) _

/-! ## Numbers that are read -/

/-- With a negative power the kept digits are divided by the power of ten, in steps. -/
theorem toFloat?_of_negative (hpower : ¬ 0 ≤ scaled.power) :
    scaled.toFloat? =
      some (divideByPower (UInt64.ofNat scaled.kept).toFloat (-scaled.power).toNat 3) := by
  rw [Scaled.toFloat?, if_neg hpower]

/-- Whatever the digits and the power are, what is read is a number. -/
theorem exists_stands_of_toFloat? (h : scaled.toFloat? = some x) : ∃ a, Stands x false a := by
  have hkept := stands_ofUInt64 (UInt64.ofNat scaled.kept)
  unfold Scaled.toFloat? at h
  dsimp only at h
  split at h
  · split at h
    · next hle =>
      split at h
      · cases h
      · next hinf =>
        cases h
        exact ⟨_, hkept.mul_of_not_isInf (stands_powerOfTen hle) (Bool.eq_false_iff.2 hinf)⟩
    · split at h
      · cases h
        exact ⟨_, hkept⟩
      · cases h
  · cases h
    exact exists_stands_divideByPower hkept _ _

/-- The kept digits become the number nearest to them. -/
theorem stands_kept (h : scaled.kept < wordBound) :
    Stands (UInt64.ofNat scaled.kept).toFloat false (nearest scaled.kept) := by
  have hstands := stands_ofUInt64 (UInt64.ofNat scaled.kept)
  rwa [UInt64.toNat_ofNat_of_lt' h] at hstands

/-- Digits with a power of ten in range are read as `reading` says. -/
theorem stands_of_toFloat? (hkept : scaled.kept < wordBound)
    (hpower : -1232 ≤ scaled.power ∧ scaled.power ≤ greatestPower)
    (h : scaled.toFloat? = some x) : Stands x false scaled.reading := by
  have hstands := stands_kept hkept
  have hgreatest : greatestPower = 308 := rfl
  unfold Scaled.reading
  split
  · next hpos =>
    have hle : scaled.power.toNat ≤ greatestPower := by omega
    unfold Scaled.toFloat? at h
    dsimp only at h
    rw [if_pos hpos, if_pos hle] at h
    split at h
    · cases h
    · next hinf =>
      cases h
      exact hstands.mul_of_not_isInf (stands_powerOfTen hle) (Bool.eq_false_iff.2 hinf)
  · next hneg =>
    rw [toFloat?_of_negative hneg] at h
    cases h
    exact stands_divideByPower hstands _ _ (by omega)

/-- Kept digits and a power of ten are read unless the product is out of range. -/
theorem isSome_toFloat? (hkept : scaled.kept < wordBound) (hpower : scaled.power ≤ greatestPower)
    (hfit : 0 ≤ scaled.power →
      nearest scaled.kept * nearest (10 ^ scaled.power.toNat) < overflow) :
    scaled.toFloat?.isSome = true := by
  by_cases hpos : 0 ≤ scaled.power
  · have hle : scaled.power.toNat ≤ greatestPower := by omega
    have hstands := stands_kept hkept
    have hten := stands_powerOfTen hle
    have hproduct := hstands.mul hten
      (nearest_lt_bound (mul_nonneg hstands.nonneg hten.nonneg) (hfit hpos))
    have hfinite := hproduct.isInf_eq_false
    simp [Scaled.toFloat?, hpos, hle, hfinite]
  · rw [toFloat?_of_negative hpos]
    rfl

/-! ## Digits and powers that are exact -/

/-- An integer below `2 ^ 53` is the nearest number to itself. -/
theorem nearest_natCast {n : ℕ} (h : n < 2 ^ 53) : nearest n = n := by
  have hself := nearest_of_lt h (show Binary64.leastExponent ≤ 0 by decide)
  rwa [zpow_zero, mul_one] at hself

/-- The powers of ten with at most 53 bits in front of their zeros. -/
theorem nearest_ten_pow {n : ℕ} (h : n ≤ 22) : nearest (10 ^ n) = 10 ^ n := by
  have hfive : 5 ^ n < 2 ^ 53 := (Nat.pow_le_pow_right (by norm_num) h).trans_lt (by norm_num)
  have hself := nearest_of_lt hfive (show Binary64.leastExponent ≤ (n : ℤ) by
    have hleast : Binary64.leastExponent = -1074 := rfl
    omega)
  have hvalue : ((5 ^ n : ℕ) : ℚ) * 2 ^ (n : ℤ) = 10 ^ n := by
    rw [zpow_natCast, Nat.cast_pow, ← mul_pow]
    norm_num
  rwa [hvalue] at hself

/-- If the digits and the power of ten are exact, only the last operation rounds, and what is read
is the number nearest to the decimal. -/
theorem Scaled.reading_eq_nearest (hkept : scaled.kept < 2 ^ 53)
    (hpower : -22 ≤ scaled.power ∧ scaled.power ≤ 22) :
    scaled.reading = nearest (scaled.kept * 10 ^ scaled.power) := by
  obtain ⟨hleast, hgreatest⟩ := hpower
  rw [Scaled.reading, nearest_natCast hkept]
  split
  · next hpos =>
    obtain ⟨n, hn⟩ := Int.eq_ofNat_of_zero_le hpos
    rw [hn, Int.toNat_natCast, nearest_ten_pow (by omega), zpow_natCast]
  · next hneg =>
    obtain ⟨n, hn⟩ : ∃ n : ℕ, scaled.power = -n := ⟨(-scaled.power).toNat, by omega⟩
    have hshort : n ≤ greatestPower := by
      have hvalue : greatestPower = 308 := rfl
      omega
    rw [hn, neg_neg, Int.toNat_natCast, dividing, if_pos hshort, nearest_ten_pow (by omega),
      zpow_neg, zpow_natCast, div_eq_mul_inv]

/-! ## How close it is otherwise -/

/-- A relative error. -/
def Near (ε r y : ℚ) : Prop := |y - r| ≤ ε * r

section Near

variable {ε δ η r s y z : ℚ}

/-- The relative error of a product is the sum of those of its factors, and their product. -/
theorem Near.mul (hy : Near ε r y) (hz : Near δ s z) (hr : 0 ≤ r) (hs : 0 ≤ s) :
    Near (ε + δ + ε * δ) (r * s) (y * z) := by
  have hboth : |(y - r) * (z - s)| ≤ ε * r * (δ * s) := by
    rw [abs_mul]
    exact mul_le_mul hy hz (abs_nonneg _) ((abs_nonneg _).trans hy)
  have hfirst : |(y - r) * s| ≤ ε * r * s := by
    rw [abs_mul, abs_of_nonneg hs]
    exact mul_le_mul_of_nonneg_right hy hs
  have hsecond : |r * (z - s)| ≤ r * (δ * s) := by
    rw [abs_mul, abs_of_nonneg hr]
    exact mul_le_mul_of_nonneg_left hz hr
  calc |y * z - r * s| = |(y - r) * (z - s) + (y - r) * s + r * (z - s)| := by
        congr 1
        ring
    _ ≤ |(y - r) * (z - s)| + |(y - r) * s| + |r * (z - s)| := abs_add_three _ _ _
    _ ≤ ε * r * (δ * s) + ε * r * s + r * (δ * s) := by linarith
    _ = (ε + δ + ε * δ) * (r * s) := by ring

/-- The error of a divisor counts at most twice if it is small. -/
theorem Near.div (hy : Near ε r y) (hz : Near δ s z) (hr : 0 ≤ r) (hs : 0 < s) (hε : 0 ≤ ε)
    (hδ : δ ≤ 1 / 2) : Near (2 * (ε + δ)) (r / s) (y / z) := by
  have hz' := hz
  rw [Near, abs_le] at hz'
  have hhalf : s / 2 ≤ z := by nlinarith
  have hpos : 0 < z := by linarith
  have hcross : |y * s - r * z| ≤ (ε + δ) * (r * s) := by
    calc |y * s - r * z| = |(y - r) * s - r * (z - s)| := by
          congr 1
          ring
      _ ≤ |(y - r) * s| + |r * (z - s)| := abs_sub _ _
      _ ≤ ε * r * s + r * (δ * s) := by
          rw [abs_mul, abs_mul, abs_of_pos hs, abs_of_nonneg hr]
          exact add_le_add (mul_le_mul_of_nonneg_right hy hs.le)
            (mul_le_mul_of_nonneg_left hz hr)
      _ = (ε + δ) * (r * s) := by ring
  have hδ' : 0 ≤ δ * s := (abs_nonneg _).trans hz
  have hδ'' : 0 ≤ δ := nonneg_of_mul_nonneg_left hδ' hs
  rw [Near, div_sub_div _ _ hpos.ne' hs.ne', abs_div, abs_of_pos (mul_pos hpos hs),
    div_le_iff₀ (mul_pos hpos hs)]
  calc |y * s - z * r| = |y * s - r * z| := by rw [mul_comm z r]
    _ ≤ (ε + δ) * (r * s) := hcross
    _ ≤ (ε + δ) * (r * (2 * z)) :=
        mul_le_mul_of_nonneg_left (mul_le_mul_of_nonneg_left (by linarith) hr) (by linarith)
    _ = 2 * (ε + δ) * (r / s) * (z * s) := by
        field_simp

/-- One more error, part of it absolute. -/
theorem Near.trans (hy : Near ε r y) (hz : |z - y| ≤ δ * y + η) (hδ : 0 ≤ δ) :
    |z - r| ≤ (ε + δ * (1 + ε)) * r + η := by
  have hy' := hy
  rw [Near, abs_le] at hy'
  have hup : δ * y ≤ δ * (r + ε * r) := mul_le_mul_of_nonneg_left (by linarith) hδ
  calc |z - r| ≤ |z - y| + |y - r| := abs_sub_le z y r
    _ ≤ δ * y + η + ε * r := add_le_add hz hy
    _ ≤ (ε + δ * (1 + ε)) * r + η := by linarith

end Near

/-- Numbers from one on are rounded with a small relative error. -/
theorem near_nearest {r : ℚ} (hr : 1 ≤ r) : Near (1 / 2 ^ 53) r (nearest r) := by
  have hsmall : (2 : ℚ) ^ (-1022 : ℤ) ≤ 1 := zpow_le_one_of_nonpos₀ (by norm_num) (by norm_num)
  exact abs_nearest_sub_le_of_normal (hsmall.trans hr)

/-- A power of ten is one at least. -/
theorem one_le_ten_pow (n : ℕ) : (1 : ℚ) ≤ 10 ^ n := one_le_pow₀ (by norm_num)

/-- A power of ten is not negative. -/
theorem ten_pow_nonneg (n : ℕ) : (0 : ℚ) ≤ 10 ^ n := by positivity

/-- The smallest numbers are a small part of the least power of ten. -/
theorem two_zpow_le_ten_pow : (2 : ℚ) ^ (-1075 : ℤ) ≤ 4 / 2 ^ 53 * (1 / 10 ^ greatestPower) := by
  have hleast := two_zpow_pos (-1075)
  have htop := two_zpow_pos 971
  have hgreatest : (10 : ℚ) ^ greatestPower ≤ 2 ^ 53 * 2 ^ (971 : ℤ) := by
    refine (ten_pow_lt_overflow (le_refl greatestPower)).le.trans ?_
    exact mul_le_mul_of_nonneg_right (by norm_num) htop.le
  have hproduct : (2 : ℚ) ^ (-1075 : ℤ) * 2 ^ (971 : ℤ) = 2 ^ (-104 : ℤ) := by
    rw [← zpow_add₀ (by norm_num)]
    rfl
  rw [mul_one_div, le_div_iff₀ (by positivity)]
  calc (2 : ℚ) ^ (-1075 : ℤ) * 10 ^ greatestPower
      ≤ 2 ^ (-1075 : ℤ) * (2 ^ 53 * 2 ^ (971 : ℤ)) := mul_le_mul_of_nonneg_left hgreatest hleast.le
    _ = 2 ^ 53 * (2 ^ (-1075 : ℤ) * 2 ^ (971 : ℤ)) := by ring
    _ = 4 / 2 ^ 53 := by
        rw [hproduct]
        norm_num

section Near

variable {ε r y : ℚ}

/-- A division by a power of ten, rounded. -/
theorem Near.rounded_div (hy : Near ε r y) (hpos : 0 ≤ y) (hr : 0 ≤ r) (hε : 0 ≤ ε) (n : ℕ) :
    |nearest (y / nearest (10 ^ n)) - r / 10 ^ n| ≤
      (2 * (ε + 1 / 2 ^ 53) + 1 / 2 ^ 53 * (1 + 2 * (ε + 1 / 2 ^ 53))) * (r / 10 ^ n) +
        2 ^ (-1075 : ℤ) := by
  have hten := one_le_ten_pow n
  have hquotient := hy.div (near_nearest hten) hr (by linarith) hε (by norm_num)
  have hrounded := abs_nearest_sub_le (div_nonneg hpos (nearest_nonneg (ten_pow_nonneg n)))
  exact hquotient.trans hrounded (by norm_num)

/-- The first of several divisions, of digits that are not zero, is not among the smallest
numbers. -/
theorem near_rounded_div (hy : Near (1 / 2 ^ 53) r y) (hpos : 0 ≤ y) (hr : 1 ≤ r) :
    Near (10 / 2 ^ 53) (r / 10 ^ greatestPower) (nearest (y / nearest (10 ^ greatestPower))) := by
  have hrounded := hy.rounded_div hpos (by linarith) (by norm_num) greatestPower
  have hsmall := two_zpow_le_ten_pow
  have hten := one_le_ten_pow greatestPower
  rw [Near]
  generalize (10 : ℚ) ^ greatestPower = ten at *
  have hpart : 1 / ten ≤ r / ten := div_le_div_of_nonneg_right hr (by linarith)
  have hpart' : 0 ≤ r / ten := div_nonneg (by linarith) (by linarith)
  linarith

end Near

/-- What is read is close to the decimal. -/
theorem Scaled.abs_reading_sub_le (hkept : 0 < scaled.kept) (hpower : -616 ≤ scaled.power) :
    |scaled.reading - scaled.kept * 10 ^ scaled.power| ≤
      scaled.kept * 10 ^ scaled.power / 2 ^ 48 + 2 ^ (-1075 : ℤ) := by
  have hone : (1 : ℚ) ≤ scaled.kept := by exact_mod_cast hkept
  have hnonneg : (0 : ℚ) ≤ scaled.kept := Nat.cast_nonneg _
  have hleast := two_zpow_pos (-1075)
  have hdigits := near_nearest hone
  have hpositive := nearest_nonneg hnonneg
  rw [Scaled.reading]
  split
  · next hpos =>
    obtain ⟨n, hn⟩ := Int.eq_ofNat_of_zero_le hpos
    rw [hn, Int.toNat_natCast, zpow_natCast]
    have hten := one_le_ten_pow n
    have hproduct := hdigits.mul (near_nearest hten) hnonneg (by linarith)
    have hrounded := abs_nearest_sub_le
      (mul_nonneg hpositive (nearest_nonneg (ten_pow_nonneg n)))
    have htotal := hproduct.trans hrounded (by norm_num)
    have hdecimal : (0 : ℚ) ≤ scaled.kept * 10 ^ n := mul_nonneg hnonneg (by linarith)
    linarith
  · next hneg =>
    obtain ⟨n, hn⟩ : ∃ n : ℕ, scaled.power = -n := ⟨(-scaled.power).toNat, by omega⟩
    have hdecimal : (scaled.kept : ℚ) * 10 ^ scaled.power = scaled.kept / 10 ^ n := by
      rw [hn, zpow_neg, zpow_natCast, div_eq_mul_inv]
    have hdecimal' : (0 : ℚ) ≤ scaled.kept / 10 ^ n := by positivity
    have hgreatest : greatestPower = 308 := rfl
    rw [hdecimal, hn, neg_neg, Int.toNat_natCast, dividing]
    split
    · have hrounded := hdigits.rounded_div hpositive hnonneg (by norm_num) n
      linarith
    -- With more than 308 places the division goes in two steps, each one rounded.
    · next hlarge =>
      rw [dividing, if_pos (by omega)]
      have hfirst := near_rounded_div hdigits hpositive hone
      have hquotient := div_nonneg hpositive (nearest_nonneg (ten_pow_nonneg greatestPower))
      have hrounded := hfirst.rounded_div (nearest_nonneg hquotient) (by positivity) (by norm_num)
        (n - greatestPower)
      have hsplit : (scaled.kept : ℚ) / 10 ^ greatestPower / 10 ^ (n - greatestPower) =
          scaled.kept / 10 ^ n := by
        rw [div_div, ← pow_add, Nat.add_sub_cancel' (by omega)]
      rw [hsplit] at hrounded
      linarith

end TriggerDesk.Json
