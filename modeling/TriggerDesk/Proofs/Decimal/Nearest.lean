import Mathlib.Data.Int.Log
import Mathlib.Data.Rat.Floor
import Mathlib.Tactic.Linarith
import Mathlib.Tactic.Positivity
import Mathlib.Tactic.Ring
import TriggerDesk.Decimal.Shortest

/-!
# The nearest binary64 number

What a correctly rounding reader makes of a decimal, as a function on rationals: `nearest r` is the
number with at most 53 significant bits that is nearest to `r`, of two at the same distance the one
whose significand is even. The numbers that are rounded to `m * 2 ^ e` are those of the interval
that the search for the shortest decimal looks at (`nearest_of_contains`), and the error is at most
half a place (`abs_nearest_sub_le`). How large a number may be is left out of it.
-/

namespace TriggerDesk.Decimal

variable {x r : ℚ} {n e : ℤ} {m : ℕ}

/-! ## The nearest integer -/

/-- The integer nearest to a number, the even one of two at the same distance. -/
def roundEven (x : ℚ) : ℤ :=
  if x - ⌊x⌋ < 1 / 2 then ⌊x⌋
  else if 1 / 2 < x - ⌊x⌋ then ⌊x⌋ + 1
  else if Even ⌊x⌋ then ⌊x⌋
  else ⌊x⌋ + 1

/-- The nearest integer is at most a half away. -/
theorem abs_sub_roundEven_le (x : ℚ) : |x - roundEven x| ≤ 1 / 2 := by
  have hlow := Int.floor_le x
  have hhigh := Int.lt_floor_add_one x
  unfold roundEven
  rw [abs_le]
  split
  · constructor <;> linarith
  · split
    · push_cast
      constructor <;> linarith
    · split
      · constructor <;> linarith
      · push_cast
        constructor <;> linarith

/-- Rounding does not pass an integer. -/
theorem le_roundEven (h : (n : ℚ) ≤ x) : n ≤ roundEven x := by
  have hnear := (abs_le.1 (abs_sub_roundEven_le x)).2
  have hlt : (n : ℚ) < roundEven x + 1 := by linarith
  exact Int.lt_add_one_iff.1 (by exact_mod_cast hlt)

/-- A number that is no more than an integer is rounded to no more than it. -/
theorem roundEven_le (h : x ≤ n) : roundEven x ≤ n := by
  have hnear := (abs_le.1 (abs_sub_roundEven_le x)).1
  have hlt : (roundEven x : ℚ) < n + 1 := by linarith
  exact Int.lt_add_one_iff.1 (by exact_mod_cast hlt)

/-- An integer less than a half away is the nearest one. -/
theorem roundEven_of_abs_lt (h : |x - n| < 1 / 2) : roundEven x = n := by
  have hnear := abs_sub_roundEven_le x
  rw [abs_lt] at h
  rw [abs_le] at hnear
  have hlow : (n : ℚ) - 1 < roundEven x := by linarith
  have hhigh : (roundEven x : ℚ) < n + 1 := by linarith
  have hlow' : n - 1 < roundEven x := by exact_mod_cast hlow
  have hhigh' : roundEven x < n + 1 := by exact_mod_cast hhigh
  omega

/-- Of two integers a half away the even one is taken. -/
theorem roundEven_of_even (heven : Even n) (h : |x - n| ≤ 1 / 2) : roundEven x = n := by
  rcases h.lt_or_eq with hlt | heq
  · exact roundEven_of_abs_lt hlt
  rcases (abs_eq (by norm_num)).1 heq with habove | hbelow
  · have hfloor : ⌊x⌋ = n := Int.floor_eq_iff.2 ⟨by linarith, by linarith⟩
    unfold roundEven
    rw [hfloor, habove]
    rw [if_neg (lt_irrefl _), if_neg (lt_irrefl _), if_pos heven]
  · have hfloor : ⌊x⌋ = n - 1 := by
      refine Int.floor_eq_iff.2 ⟨?_, ?_⟩ <;> push_cast <;> linarith
    have hpart : x - ((n - 1 : ℤ) : ℚ) = 1 / 2 := by
      push_cast
      linarith
    have hodd : ¬ Even (n - 1) := Int.not_even_iff_odd.2 (heven.sub_odd odd_one)
    unfold roundEven
    rw [hfloor, hpart, if_neg (lt_irrefl _), if_neg (lt_irrefl _), if_neg hodd]
    omega

/-- An integer is rounded to itself. -/
theorem roundEven_intCast (n : ℤ) : roundEven n = n :=
  roundEven_of_abs_lt (by simp)

/-! ## The place of the last bit -/

/-- A power of two is positive. -/
theorem two_zpow_pos (e : ℤ) : (0 : ℚ) < 2 ^ e := zpow_pos (by norm_num) e

/-- The place of the last bit that a number near `r` may have. -/
def unit (r : ℚ) : ℤ := max (Int.log 2 r - 52) Binary64.leastExponent

theorem leastExponent_le_unit (r : ℚ) : Binary64.leastExponent ≤ unit r := le_max_right _ _

/-- The last place is the one at which the number has 53 bits, or the last of all places. -/
theorem unit_eq (hpos : 0 < r) (hleast : Binary64.leastExponent ≤ e) (hhigh : r < 2 ^ 53 * 2 ^ e)
    (hlow : 2 ^ 52 * 2 ^ e ≤ r ∨ e = Binary64.leastExponent) : unit r = e := by
  have htwo : (2 : ℚ) ≠ 0 := by norm_num
  have hbelow : Int.log 2 r < e + 53 := by
    refine (Int.lt_zpow_iff_log_lt one_lt_two hpos).1 ?_
    push_cast
    rw [zpow_add₀ htwo, mul_comm]
    exact hhigh
  unfold unit
  rcases hlow with hlow | rfl
  · have habove : e + 52 ≤ Int.log 2 r := by
      refine (Int.zpow_le_iff_le_log one_lt_two hpos).1 ?_
      push_cast
      rw [zpow_add₀ htwo, mul_comm]
      exact hlow
    rw [max_eq_left (by omega)]
    omega
  · exact max_eq_right (by omega)

/-- A number lies below the significands that are too large for its place, and above those that are
too small unless the place is the last of all. -/
theorem unit_bounds (hpos : 0 < r) :
    r < 2 ^ 53 * 2 ^ unit r ∧ (2 ^ 52 * 2 ^ unit r ≤ r ∨ unit r = Binary64.leastExponent) := by
  have htwo : (2 : ℚ) ≠ 0 := by norm_num
  have hhigh : r < 2 ^ (Int.log 2 r + 1) := by
    exact_mod_cast Int.lt_zpow_succ_log_self one_lt_two r
  have hlow : (2 : ℚ) ^ Int.log 2 r ≤ r := by
    exact_mod_cast Int.zpow_log_le_self one_lt_two hpos
  have hplace : Int.log 2 r - 52 ≤ unit r := le_max_left _ _
  constructor
  · calc r < 2 ^ (Int.log 2 r + 1) := hhigh
      _ ≤ 2 ^ (53 + unit r) := zpow_le_zpow_right₀ (by norm_num) (by omega)
      _ = 2 ^ 53 * 2 ^ unit r := by
        rw [zpow_add₀ htwo]
        rfl
  · rcases le_total (Int.log 2 r - 52) Binary64.leastExponent with hle | hle
    · exact .inr (max_eq_right hle)
    · left
      have heq : unit r = Int.log 2 r - 52 := max_eq_left hle
      calc (2 : ℚ) ^ 52 * 2 ^ unit r = 2 ^ Int.log 2 r := by
            rw [show Int.log 2 r = 52 + unit r by omega, zpow_add₀ htwo]
            rfl
        _ ≤ r := hlow

/-! ## The nearest number -/

/-- The number of 53 bits nearest to `r`, or nearest on the grid of the smallest numbers. -/
def nearest (r : ℚ) : ℚ := roundEven (r / 2 ^ unit r) * 2 ^ unit r

/-- Rounding keeps 53 bits, or takes one more if it ends at a power of two. -/
theorem roundEven_unit_bounds (hpos : 0 < r) :
    roundEven (r / 2 ^ unit r) ≤ 2 ^ 53 ∧
      (2 ^ 52 ≤ roundEven (r / 2 ^ unit r) ∨ unit r = Binary64.leastExponent) := by
  have hunit := two_zpow_pos (unit r)
  obtain ⟨hhigh, hlow⟩ := unit_bounds hpos
  rw [← div_lt_iff₀ hunit] at hhigh
  rw [← le_div_iff₀ hunit] at hlow
  refine ⟨roundEven_le ?_, hlow.imp_left fun hlow => le_roundEven ?_⟩
  · exact_mod_cast hhigh.le
  · exact_mod_cast hlow

/-- The error is at most half a place. -/
theorem abs_nearest_sub_le_unit (r : ℚ) : |nearest r - r| ≤ 2 ^ unit r / 2 := by
  have hunit := two_zpow_pos (unit r)
  have hround := abs_sub_roundEven_le (r / 2 ^ unit r)
  calc |nearest r - r|
      = |roundEven (r / 2 ^ unit r) - r / 2 ^ unit r| * 2 ^ unit r := by
        rw [← abs_of_pos hunit, ← abs_mul, abs_of_pos hunit, sub_mul,
          div_mul_cancel₀ _ hunit.ne', nearest]
    _ ≤ 1 / 2 * 2 ^ unit r := by
        rw [abs_sub_comm]
        exact mul_le_mul_of_nonneg_right hround hunit.le
    _ = 2 ^ unit r / 2 := by ring

/-- Zero is the number nearest to zero. -/
theorem nearest_zero : nearest 0 = 0 := by
  have hround : roundEven 0 = 0 := by exact_mod_cast roundEven_intCast 0
  rw [nearest, zero_div, hround, Int.cast_zero, zero_mul]

/-- The number nearest to one that is not negative is not negative either. -/
theorem nearest_nonneg (hr : 0 ≤ r) : 0 ≤ nearest r := by
  have hunit := two_zpow_pos (unit r)
  have hscaled : ((0 : ℤ) : ℚ) ≤ r / 2 ^ unit r := by
    rw [Int.cast_zero]
    exact div_nonneg hr hunit.le
  refine mul_nonneg ?_ hunit.le
  exact_mod_cast le_roundEven hscaled

/-- Rounding changes a number that is not among the smallest by a small part of it only. -/
theorem abs_nearest_sub_le_of_normal (hr : 2 ^ (-1022 : ℤ) ≤ r) :
    |nearest r - r| ≤ 1 / 2 ^ 53 * r := by
  have hpos : 0 < r := (two_zpow_pos _).trans_le hr
  have hunit : 2 ^ 52 * 2 ^ unit r ≤ r := by
    rcases (unit_bounds hpos).2 with hsmall | hleast
    · exact hsmall
    · rw [hleast]
      refine le_trans (le_of_eq ?_) hr
      rw [show (-1022 : ℤ) = 52 + Binary64.leastExponent from rfl, zpow_add₀ (by norm_num)]
      rfl
  have hhalf := abs_nearest_sub_le_unit r
  linarith

/-- For the smallest numbers there is half of the least place. -/
theorem abs_nearest_sub_le (hr : 0 ≤ r) :
    |nearest r - r| ≤ 1 / 2 ^ 53 * r + 2 ^ (-1075 : ℤ) := by
  rcases hr.eq_or_lt with rfl | hr
  · rw [nearest_zero, sub_zero, abs_zero, mul_zero, zero_add]
    exact (two_zpow_pos _).le
  refine (abs_nearest_sub_le_unit r).trans ?_
  rcases (unit_bounds hr).2 with hsmall | hleast
  · have hpos := two_zpow_pos (-1075)
    linarith
  · have hpos : (0 : ℚ) ≤ 1 / 2 ^ 53 * r := by positivity
    have heq : (2 : ℚ) ^ (-1075 : ℤ) = 2 ^ unit r / 2 := by
      rw [hleast, div_eq_mul_inv, ← zpow_sub_one₀ (by norm_num)]
      rfl
    linarith

/-- The first number out of range, `2 ^ 1024`. -/
def bound : ℚ := 2 ^ 53 * 2 ^ (971 : ℤ)

theorem bound_pos : 0 < bound := mul_pos (by norm_num) (two_zpow_pos 971)

/-- The middle between the greatest number in range and the first one out of it. -/
def overflow : ℚ := (2 ^ 53 - 1 / 2) * 2 ^ (971 : ℤ)

/-- A number below the overflow has its last bit at a place in range. -/
theorem unit_le_of_lt_overflow (hpos : 0 < r) (h : r < overflow) : unit r ≤ 971 := by
  rcases (unit_bounds hpos).2 with hlow | hleast
  · have htop := two_zpow_pos 971
    have hlt : (2 : ℚ) ^ 52 * 2 ^ unit r < 2 ^ 52 * 2 ^ (972 : ℤ) := by
      rw [overflow] at h
      rw [show (972 : ℤ) = 971 + 1 by norm_num, zpow_add_one₀ (by norm_num)]
      generalize (2 : ℚ) ^ (971 : ℤ) = top at *
      linarith
    have hlt' : (2 : ℚ) ^ unit r < 2 ^ (972 : ℤ) := lt_of_mul_lt_mul_left hlt (by norm_num)
    exact Int.lt_add_one_iff.1 ((zpow_lt_zpow_iff_right₀ one_lt_two).1 hlt')
  · rw [hleast]
    decide

/-- Below that middle, rounding stays in range. -/
theorem nearest_lt_bound (hr : 0 ≤ r) (h : r < overflow) : nearest r < bound := by
  rcases hr.eq_or_lt with rfl | hpos
  · rw [nearest_zero]
    exact bound_pos
  have hunit := two_zpow_pos (unit r)
  rcases (unit_le_of_lt_overflow hpos h).lt_or_eq with hlt | heq
  · have hround := (roundEven_unit_bounds hpos).1
    calc nearest r ≤ 2 ^ 53 * 2 ^ unit r :=
          mul_le_mul_of_nonneg_right (by exact_mod_cast hround) hunit.le
      _ < bound := mul_lt_mul_of_pos_left (zpow_lt_zpow_right₀ one_lt_two hlt) (by norm_num)
  · have hscaled : r / 2 ^ unit r < 2 ^ 53 - 1 / 2 := by
      rw [div_lt_iff₀ hunit, heq]
      exact h
    have hbelow : (roundEven (r / 2 ^ unit r) : ℚ) < 2 ^ 53 := by
      linarith [(abs_le.1 (abs_sub_roundEven_le (r / 2 ^ unit r))).1]
    rw [nearest, bound, ← heq]
    exact mul_lt_mul_of_pos_right hbelow hunit

/-! ## What is rounded to a number -/

/-- A significand and a place as they stand in a binary64 number that is not zero. -/
structure IsCanonical (m : ℕ) (e : ℤ) : Prop where
  pos : 0 < m
  fits : m < 2 ^ 53
  least : Binary64.leastExponent ≤ e
  normal : 2 ^ 52 ≤ m ∨ e = Binary64.leastExponent

/-- Whether a number lies in an interval that is not scaled. -/
def Interval.Contains (interval : Interval) (x : ℚ) : Prop :=
  if interval.closed then interval.low ≤ x ∧ x ≤ interval.high
  else interval.low < x ∧ x < interval.high

/-- The bounds in places of the significand: a half away, a quarter below the least significand. -/
theorem Interval.Contains.bounds (hpos : 0 < m)
    (h : (Interval.ofParts m e).Contains (r / 2 ^ (e - 2))) :
    |r / 2 ^ e - m| ≤ 1 / 2 ∧ (|r / 2 ^ e - m| = 1 / 2 → Even m) ∧
      (m = 2 ^ 52 → Binary64.leastExponent < e → (m : ℚ) - 1 / 4 ≤ r / 2 ^ e) := by
  have hscale : r / 2 ^ (e - 2) = 4 * (r / 2 ^ e) := by
    rw [zpow_sub₀ (by norm_num)]
    norm_num
    ring
  have hhigh : ((Interval.ofParts m e).high : ℚ) = 4 * m + 2 := by
    simp [Interval.ofParts]
  have hlow : (4 * m - 2 : ℚ) ≤ (Interval.ofParts m e).low ∧
      (m = 2 ^ 52 → Binary64.leastExponent < e →
        (4 * m - 1 : ℚ) = (Interval.ofParts m e).low) := by
    simp only [Interval.ofParts]
    split
    · rw [Nat.cast_sub (by omega)]
      push_cast
      exact ⟨by linarith, fun _ _ => rfl⟩
    · next hwide =>
      rw [Nat.cast_sub (by omega)]
      push_cast
      exact ⟨le_refl _, fun hm he => absurd ⟨hm, he⟩ hwide⟩
  have hclosed : (Interval.ofParts m e).closed = decide (m % 2 = 0) := rfl
  rw [Interval.Contains, hclosed, hscale, hhigh] at h
  split at h
  · next heven =>
    rw [decide_eq_true_eq] at heven
    refine ⟨abs_le.2 ⟨by linarith, by linarith⟩, fun _ => Nat.even_iff.2 heven, ?_⟩
    intro hm he
    linarith [hlow.2 hm he]
  · refine ⟨abs_le.2 ⟨by linarith, by linarith⟩, ?_, ?_⟩
    · intro heq
      rcases (abs_eq (by norm_num)).1 heq with hside | hside <;> exfalso <;> linarith
    · intro hm he
      linarith [hlow.2 hm he]

/-- A number whose last place is `e` is rounded to a multiple of it that is at most a half away. -/
theorem nearest_of_unit (hunit : unit r = e) (hnear : |r / 2 ^ e - m| ≤ 1 / 2)
    (heven : |r / 2 ^ e - m| = 1 / 2 → Even m) : nearest r = m * 2 ^ e := by
  have hround : roundEven (r / 2 ^ e) = (m : ℤ) := by
    rcases hnear.lt_or_eq with hlt | heq
    · exact roundEven_of_abs_lt (by exact_mod_cast hlt)
    · exact roundEven_of_even (by exact_mod_cast heven heq) (by exact_mod_cast hnear)
  rw [nearest, hunit, hround, Int.cast_natCast]

/-- Just below a power of two the places are half as wide, and a quarter of a place is near. -/
theorem nearest_of_below (hleast : Binary64.leastExponent < e) (hlow : 2 ^ 52 - 1 / 4 ≤ r / 2 ^ e)
    (hbelow : r / 2 ^ e < 2 ^ 52) : nearest r = 2 ^ 52 * 2 ^ e := by
  have hhalf : (2 : ℚ) ^ e = 2 * 2 ^ (e - 1) := by
    rw [zpow_sub₀ (by norm_num)]
    ring
  have hunit := two_zpow_pos (e - 1)
  have hdouble : r / 2 ^ (e - 1) = 2 * (r / 2 ^ e) := by
    rw [hhalf]
    field_simp
  have hhigh : r < 2 ^ 53 * 2 ^ (e - 1) := by
    rw [← div_lt_iff₀ hunit, hdouble]
    linarith
  have hleft : 2 ^ 52 * 2 ^ (e - 1) ≤ r := by
    rw [← le_div_iff₀ hunit, hdouble]
    linarith
  have hpos : 0 < r := (mul_pos (by norm_num) hunit).trans_le hleft
  have hnear : |r / 2 ^ (e - 1) - (2 ^ 53 : ℕ)| ≤ 1 / 2 := by
    rw [hdouble, abs_le]
    push_cast
    constructor <;> linarith
  have hnearest := nearest_of_unit (unit_eq hpos (by omega) hhigh (.inl hleft)) hnear
    fun _ => ⟨2 ^ 52, by norm_num⟩
  rw [hnearest, hhalf]
  push_cast
  ring

/-- The numbers of the interval of a number are rounded to it. -/
theorem nearest_of_contains (hparts : IsCanonical m e)
    (h : (Interval.ofParts m e).Contains (r / 2 ^ (e - 2))) : nearest r = m * 2 ^ e := by
  obtain ⟨hnear, heven, hnarrow⟩ := h.bounds hparts.pos
  have hbounds := abs_le.1 hnear
  have hunit := two_zpow_pos e
  have hone : (1 : ℚ) ≤ m := by exact_mod_cast hparts.pos
  have hfits : (m : ℚ) + 1 ≤ 2 ^ 53 := by exact_mod_cast hparts.fits
  by_cases hplace : 2 ^ 52 ≤ r / 2 ^ e ∨ e = Binary64.leastExponent
  · have hscaled : 0 < r / 2 ^ e := by linarith
    have hpos : 0 < r := (div_pos_iff_of_pos_right hunit).1 hscaled
    have hhigh : r < 2 ^ 53 * 2 ^ e := by
      rw [← div_lt_iff₀ hunit]
      linarith
    have hplaced := unit_eq hpos hparts.least hhigh (hplace.imp_left (le_div_iff₀ hunit).1)
    exact nearest_of_unit hplaced hnear heven
  -- The significand is the least one of 53 bits, and the number is less than it.
  · obtain ⟨hbelow, hne⟩ := not_or.1 hplace
    have hleast : Binary64.leastExponent < e := lt_of_le_of_ne hparts.least (Ne.symm hne)
    have hm : m = 2 ^ 52 := by
      have hnormal := hparts.normal.resolve_right hne
      have hle : (m : ℚ) < 2 ^ 52 + 1 := by linarith
      have hle' : m < 2 ^ 52 + 1 := by exact_mod_cast hle
      omega
    have hvalue : (m : ℚ) = 2 ^ 52 := by exact_mod_cast hm
    have hquarter := hnarrow hm hleast
    rw [hvalue] at hquarter ⊢
    exact nearest_of_below hleast hquarter (not_le.1 hbelow)

/-- A number of at most 53 bits is nearest to itself. -/
theorem nearest_of_lt (hm : m < 2 ^ 53) (he : Binary64.leastExponent ≤ e) :
    nearest (m * 2 ^ e) = m * 2 ^ e := by
  rcases Nat.eq_zero_or_pos m with rfl | hpos
  · rw [Nat.cast_zero, zero_mul, nearest_zero]
  have htwo : (2 : ℚ) ≠ 0 := by norm_num
  have hpos' : (0 : ℚ) < m * 2 ^ e := mul_pos (by exact_mod_cast hpos) (two_zpow_pos e)
  have hplace : unit (m * 2 ^ e) ≤ e := by
    have hlog : Int.log 2 (m * 2 ^ e : ℚ) < 53 + e := by
      refine (Int.lt_zpow_iff_log_lt one_lt_two hpos').1 ?_
      push_cast
      rw [zpow_add₀ htwo]
      exact mul_lt_mul_of_pos_right (by exact_mod_cast hm) (two_zpow_pos e)
    exact max_le (by omega) he
  obtain ⟨k, hk⟩ : ∃ k : ℕ, e = k + unit (m * 2 ^ e) := ⟨(e - unit (m * 2 ^ e)).toNat, by omega⟩
  have hinteger : (m * 2 ^ e : ℚ) / 2 ^ unit (m * 2 ^ e) = (m * 2 ^ k : ℕ) := by
    rw [div_eq_iff (two_zpow_pos _).ne']
    push_cast
    rw [mul_assoc, ← zpow_natCast (2 : ℚ) k, ← zpow_add₀ htwo, ← hk]
  have hround : roundEven ((m * 2 ^ k : ℕ) : ℚ) = (m * 2 ^ k : ℕ) := roundEven_intCast _
  rw [nearest, hinteger, hround, Int.cast_natCast, ← hinteger,
    div_mul_cancel₀ _ (two_zpow_pos _).ne']

end TriggerDesk.Decimal
