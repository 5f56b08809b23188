import TriggerDesk.Proofs.Decimal.Nearest

/-!
# The shortest decimal rounds to the number

The search for the shortest decimal of a number ends at a decimal of its interval, so at one that
is rounded to the number (`shortest_spec`): the first grid that is finer than the places of the
number has a point in the interval, and it is among those that are looked at. Its digits fit into
64 bits.
-/

namespace TriggerDesk.Decimal

variable {m c : ℕ} {e place : ℤ} {tie : Tie}

/-! ## One grid -/

/-- A power of two is a quotient of natural powers, one of which is 1. -/
theorem two_zpow_eq_toNat (n : ℤ) : (2 : ℚ) ^ n = 2 ^ n.toNat / 2 ^ (-n).toNat := by
  rcases le_total 0 n with h | h
  · obtain ⟨k, rfl⟩ := Int.eq_ofNat_of_zero_le h
    simp
  · obtain ⟨k, hk⟩ : ∃ k : ℕ, n = -k := ⟨(-n).toNat, by omega⟩
    rw [hk]
    simp

/-- A power of ten is a quotient of natural powers, one of which is 1. -/
theorem ten_zpow_eq_toNat (n : ℤ) : (10 : ℚ) ^ n = 10 ^ n.toNat / 10 ^ (-n).toNat := by
  rcases le_total 0 n with h | h
  · obtain ⟨k, rfl⟩ := Int.eq_ofNat_of_zero_le h
    simp
  · obtain ⟨k, hk⟩ : ∃ k : ℕ, n = -k := ⟨(-n).toNat, by omega⟩
    rw [hk]
    simp

theorem ten_zpow_pos (n : ℤ) : (0 : ℚ) < 10 ^ n := zpow_pos (by norm_num) n

/-- The factor of a grid is positive. -/
theorem gridScale_pos (e place : ℤ) : 0 < (gridScale e place).1 :=
  Nat.mul_pos (Nat.pow_pos two_pos) (Nat.pow_pos (by norm_num))

/-- The step of a grid beside the quarter of a place. -/
theorem gridScale_ratio (e place : ℤ) :
    ((gridScale e place).2 : ℚ) / (gridScale e place).1 = 10 ^ place / 2 ^ e := by
  have htwo : (2 : ℚ) ^ (-e).toNat ≠ 0 := by positivity
  have hten : (10 : ℚ) ^ (-place).toNat ≠ 0 := by positivity
  rw [two_zpow_eq_toNat, ten_zpow_eq_toNat]
  simp only [gridScale, Nat.pow_eq]
  push_cast
  field_simp

/-- A point of a grid is in the interval that is scaled for the grid if its number is in the one
that is not. -/
theorem holds_iff_contains (interval : Interval) (c : ℕ) (e place : ℤ) :
    (interval.scale (gridScale e place).1).holds (c * (gridScale e place).2) = true ↔
      interval.Contains (c * 10 ^ place / 2 ^ e) := by
  have hfactor : (0 : ℚ) < (gridScale e place).1 := by exact_mod_cast gridScale_pos e place
  have hvalue : (c * 10 ^ place / 2 ^ e : ℚ) =
      (c * (gridScale e place).2 : ℕ) / (gridScale e place).1 := by
    rw [mul_div_assoc, ← gridScale_ratio]
    push_cast
    ring
  rw [hvalue, Interval.Contains, Interval.holds]
  show (if interval.closed then _ else _) = true ↔ _
  split
  · rw [le_div_iff₀ hfactor, div_le_iff₀ hfactor, Bool.and_eq_true, decide_eq_true_eq,
      decide_eq_true_eq]
    norm_cast
  · rw [lt_div_iff₀ hfactor, div_lt_iff₀ hfactor, Bool.and_eq_true, decide_eq_true_eq,
      decide_eq_true_eq]
    norm_cast

/-- A point that is chosen is in the interval. -/
theorem holds_of_nearest? {interval : Interval} {step : ℕ}
    (h : interval.nearest? tie step = some c) : interval.holds (c * step) = true := by
  unfold Interval.nearest? at h
  dsimp only at h
  split at h
  · next hbelow habove =>
    cases h
    cases tie <;>
    · dsimp only
      split
      · exact hbelow
      · exact habove
  · next hbelow _ =>
    cases h
    exact hbelow
  · next _ habove =>
    cases h
    exact habove
  · cases h

/-- A grid with a step below half a place has a point in the interval. -/
theorem nearest?_isSome (hm : 0 < m) {factor step : ℕ} (hstep : 0 < step)
    (hfine : step < 2 * factor) :
    (((Interval.ofParts m e).scale factor).nearest? tie step).isSome = true := by
  have habove : ((Interval.ofParts m e).scale factor).holds
      ((4 * m * factor / step + 1) * step) = true := by
    have hlow := Nat.div_mul_le_self (4 * m * factor) step
    have hhigh := Nat.lt_div_mul_add (a := 4 * m * factor) hstep
    have hbound : (Interval.ofParts m e).low * factor ≤ 4 * m * factor := by
      refine Nat.mul_le_mul_right _ ?_
      simp only [Interval.ofParts]
      omega
    have htop : (Interval.ofParts m e).high * factor = 4 * m * factor + 2 * factor := by
      rw [← Nat.add_mul]
      rfl
    have hpoint : (4 * m * factor / step + 1) * step = 4 * m * factor / step * step + step := by
      rw [Nat.add_mul, Nat.one_mul]
    simp only [Interval.holds, Interval.scale, hpoint]
    split <;>
    · rw [Bool.and_eq_true, decide_eq_true_eq, decide_eq_true_eq]
      omega
  have hvalue : ((Interval.ofParts m e).scale factor).value = 4 * m * factor := rfl
  unfold Interval.nearest?
  rw [hvalue]
  dsimp only
  rw [habove]
  split <;> first | rfl | contradiction

/-! ## The search -/

/-- The step of a grid is positive. -/
theorem gridScale_step_pos (e place : ℤ) : 0 < (gridScale e place).2 :=
  Nat.mul_pos (Nat.pow_pos two_pos) (Nat.pow_pos (by norm_num))

/-- A grid finer than half a place has a point for the number. -/
theorem nearest?_isSome_of_lt (tie : Tie) (hm : 0 < m) (hfine : (10 : ℚ) ^ place < 2 ^ (e - 1)) :
    (((Interval.ofParts m e).scale (gridScale (e - 2) place).1).nearest? tie
      (gridScale (e - 2) place).2).isSome = true := by
  refine nearest?_isSome hm (gridScale_step_pos _ _) ?_
  have hfactor : (0 : ℚ) < (gridScale (e - 2) place).1 := by exact_mod_cast gridScale_pos _ _
  have hratio := gridScale_ratio (e - 2) place
  have hlt : ((gridScale (e - 2) place).2 : ℚ) / (gridScale (e - 2) place).1 < 2 := by
    rw [hratio, div_lt_iff₀ (two_zpow_pos _), ← zpow_one_add₀ (by norm_num),
      show 1 + (e - 2) = e - 1 by ring]
    exact hfine
  rw [div_lt_iff₀ hfactor] at hlt
  exact_mod_cast hlt

/-- What the search finds. -/
structure IsShort (m : ℕ) (e : ℤ) (c : ℕ) (place : ℤ) : Prop where
  contains : (Interval.ofParts m e).Contains (c * 10 ^ place / 2 ^ (e - 2))
  /-- The grid is not much finer than the places of the number. -/
  coarse : (2 : ℚ) ^ e ≤ 20 * 10 ^ place

namespace IsShort

/-- The number nearest to what the search finds is the one that it was made for. -/
theorem nearest_eq (h : IsShort m e c place) (hparts : IsCanonical m e) :
    nearest (c * 10 ^ place) = m * 2 ^ e :=
  nearest_of_contains hparts h.contains

/-- What the search finds is at most half a place away. -/
theorem abs_sub_le (h : IsShort m e c place) (hm : 0 < m) :
    |(c * 10 ^ place : ℚ) - m * 2 ^ e| ≤ (2 : ℚ) ^ e / 2 := by
  have hunit := two_zpow_pos e
  have hnear := (h.contains.bounds hm).1
  calc |(c * 10 ^ place : ℚ) - m * 2 ^ e|
      = |(c * 10 ^ place / 2 ^ e - m : ℚ)| * 2 ^ e := by
        rw [← abs_of_pos hunit, ← abs_mul, abs_of_pos hunit, sub_mul, div_mul_cancel₀ _ hunit.ne']
    _ ≤ 1 / 2 * 2 ^ e := mul_le_mul_of_nonneg_right hnear hunit.le
    _ = 2 ^ e / 2 := by ring

/-- What the search finds for a positive number is positive. -/
theorem pos (h : IsShort m e c place) (hm : 0 < m) : 0 < c := by
  have hnear := h.abs_sub_le hm
  rw [abs_le] at hnear
  have hone : (1 : ℚ) ≤ m := by exact_mod_cast hm
  have hunit := two_zpow_pos e
  have hvalue : (1 : ℚ) * 2 ^ e ≤ m * 2 ^ e := mul_le_mul_of_nonneg_right hone hunit.le
  by_contra hzero
  have hnone : c = 0 := by omega
  rw [hnone, Nat.cast_zero, zero_mul] at hnear
  linarith

/-- The digits that the search finds are a number of 58 bits at most. -/
theorem lt_two_pow (h : IsShort m e c place) (hparts : IsCanonical m e) : c < 2 ^ 58 := by
  have hten := ten_zpow_pos place
  have hnear := h.abs_sub_le hparts.pos
  rw [abs_le] at hnear
  have hfits : (m : ℚ) + 1 ≤ 2 ^ 53 := by exact_mod_cast hparts.fits
  have hunit := two_zpow_pos e
  have hvalue : (m : ℚ) * 2 ^ e ≤ (2 ^ 53 - 1) * 2 ^ e :=
    mul_le_mul_of_nonneg_right (by linarith) hunit.le
  have hcoarse := h.coarse
  have hlt : (c : ℚ) * 10 ^ place < 2 ^ 58 * 10 ^ place := by linarith
  exact_mod_cast lt_of_mul_lt_mul_right hlt hten.le

/-- The numbers in range have no more than 309 places in front of the point. -/
theorem place_le (h : IsShort m e c place) (hparts : IsCanonical m e) (he : e ≤ 971) :
    place ≤ 308 := by
  have hten := ten_zpow_pos place
  have hnear := h.abs_sub_le hparts.pos
  rw [abs_le] at hnear
  have hone : (1 : ℚ) ≤ c := by exact_mod_cast h.pos hparts.pos
  have hfits : (m : ℚ) + 1 ≤ 2 ^ 53 := by exact_mod_cast hparts.fits
  have hbelow : (10 : ℚ) ^ place ≤ 2 ^ 53 * 2 ^ e := by
    have hpoint : 1 * 10 ^ place ≤ (c : ℚ) * 10 ^ place := mul_le_mul_of_nonneg_right hone hten.le
    have hvalue : (m : ℚ) * 2 ^ e ≤ (2 ^ 53 - 1) * 2 ^ e :=
      mul_le_mul_of_nonneg_right (by linarith) (two_zpow_pos e).le
    have hunit := two_zpow_pos e
    linarith
  have hrange : (2 : ℚ) ^ 53 * 2 ^ e ≤ (2 ^ 256) ^ 4 := by
    calc (2 : ℚ) ^ 53 * 2 ^ e ≤ 2 ^ 53 * 2 ^ (971 : ℤ) :=
          mul_le_mul_of_nonneg_left (zpow_le_zpow_right₀ (by norm_num) he) (by norm_num)
      _ = (2 ^ 256) ^ 4 := by
          rw [show (2 : ℚ) ^ (971 : ℤ) = 2 ^ 971 from zpow_natCast 2 971, ← pow_add, ← pow_mul]
  by_contra hlarge
  have hle : (10 : ℚ) ^ (309 : ℤ) ≤ 10 ^ place := zpow_le_zpow_right₀ (by norm_num) (by omega)
  have hsplit : (10 : ℚ) ^ (309 : ℤ) = 10 * (10 ^ 77) ^ 4 := by
    rw [← pow_mul, ← pow_succ']
    exact zpow_natCast 10 309
  have hbase : (2 : ℚ) ^ 256 ≤ 3 / 2 * 10 ^ 77 := by norm_num
  have hpow : ((2 : ℚ) ^ 256) ^ 4 ≤ (3 / 2 * 10 ^ 77) ^ 4 :=
    pow_le_pow_left₀ (by positivity) hbase 4
  have hpos : (0 : ℚ) < (10 ^ 77) ^ 4 := by positivity
  rw [mul_pow] at hpow
  rw [hsplit] at hle
  clear hsplit hbase
  generalize ((10 : ℚ) ^ 77) ^ 4 = ten at *
  generalize ((2 : ℚ) ^ 256) ^ 4 = two at *
  linarith

end IsShort

/-- The search ends at a decimal of the interval if it reaches a fine grid and does not start at
one. -/
theorem searchGrids_spec (tie : Tie) (hm : 0 < m) (fuel : ℕ) (place : ℤ)
    (hfine : (10 : ℚ) ^ (place - fuel) < 2 ^ (e - 1)) (hcoarse : (2 : ℚ) ^ e ≤ 20 * 10 ^ place) :
    IsShort m e (searchGrids tie m e fuel place).1 (searchGrids tie m e fuel place).2 ∧
      place - fuel ≤ (searchGrids tie m e fuel place).2 := by
  have hfound : ∀ place c, (((Interval.ofParts m e).scale (gridScale (e - 2) place).1).nearest? tie
      (gridScale (e - 2) place).2) = some c →
      (Interval.ofParts m e).Contains (c * 10 ^ place / 2 ^ (e - 2)) := fun place c h =>
    (holds_iff_contains _ _ _ _).1 (holds_of_nearest? h)
  induction fuel generalizing place with
  | zero =>
    rw [Nat.cast_zero, sub_zero] at hfine ⊢
    obtain ⟨c, hc⟩ := Option.isSome_iff_exists.1 (nearest?_isSome_of_lt tie hm hfine)
    rw [searchGrids]
    simp only [hc]
    exact ⟨⟨hfound place c hc, hcoarse⟩, le_refl _⟩
  | succ fuel ih =>
    rw [searchGrids]
    dsimp only
    cases hc : ((Interval.ofParts m e).scale (gridScale (e - 2) place).1).nearest? tie
        (gridScale (e - 2) place).2 with
    | some c =>
      exact ⟨⟨hfound place c hc, hcoarse⟩, by push_cast; omega⟩
    | none =>
      -- A grid without a hit is too coarse, so the next one is still coarse enough to be short.
      have hwide : (2 : ℚ) ^ (e - 1) ≤ 10 ^ place := by
        by_contra hlt
        have hsome := nearest?_isSome_of_lt tie hm (not_le.1 hlt)
        rw [hc] at hsome
        cases hsome
      have hnext : (2 : ℚ) ^ e ≤ 20 * 10 ^ (place - 1) := by
        have htwo : (2 : ℚ) ^ e = 2 * 2 ^ (e - 1) := by
          rw [zpow_sub_one₀ (by norm_num)]
          ring
        have hten : (10 : ℚ) ^ place = 10 * 10 ^ (place - 1) := by
          rw [zpow_sub_one₀ (by norm_num)]
          ring
        rw [htwo]
        linarith
      have hrest : place - 1 - (fuel : ℤ) = place - (fuel + 1 : ℕ) := by
        push_cast
        ring
      obtain ⟨hshort, hle⟩ := ih (place - 1) (by rw [hrest]; exact hfine) hnext
      exact ⟨hshort, hrest ▸ hle⟩

/-! ## The grids that are looked at -/

/-- Powers of two bases compare as two of them do. -/
theorem zpow_le_zpow_of_pow {x y : ℚ} (hx : 0 < x) (hy : 1 ≤ y) {p q : ℕ} (hp : p ≠ 0)
    (h : x ^ p ≤ y ^ q) {a b : ℤ} (ha : 0 ≤ a) (hab : q * a ≤ p * b) : x ^ a ≤ y ^ b := by
  obtain ⟨n, rfl⟩ := Int.eq_ofNat_of_zero_le ha
  have hy' : 0 < y := by linarith
  refine (pow_le_pow_iff_left₀ (zpow_pos hx _).le (zpow_pos hy' _).le hp).1 ?_
  calc (x ^ (n : ℤ)) ^ p = (x ^ p) ^ n := by
        rw [zpow_natCast, ← pow_mul, ← pow_mul, mul_comm]
    _ ≤ (y ^ q) ^ n := pow_le_pow_left₀ (pow_pos hx p).le h n
    _ = y ^ (q * n : ℤ) := by
        rw [← pow_mul]
        exact_mod_cast (zpow_natCast y (q * n)).symm
    _ ≤ y ^ (p * b : ℤ) := zpow_le_zpow_right₀ hy hab
    _ = (y ^ b) ^ p := by rw [mul_comm, zpow_mul, zpow_natCast]

/-- A power of ten below a power of two, by `10 ^ 3 < 2 ^ 10` or by `2 ^ 93 < 10 ^ 28`. -/
theorem ten_zpow_le_two_zpow {a b : ℤ} (hpos : 0 ≤ a → 10 * a ≤ 3 * b)
    (hneg : a ≤ 0 → 93 * a ≤ 28 * b) : (10 : ℚ) ^ a ≤ 2 ^ b := by
  rcases le_total 0 a with ha | ha
  · have hbase : (10 : ℚ) ^ 3 ≤ 2 ^ 10 := by norm_num
    exact zpow_le_zpow_of_pow (by norm_num) (by norm_num) (by norm_num) hbase ha (hpos ha)
  rcases le_total 0 b with hb | hb
  · exact (zpow_le_one_of_nonpos₀ (by norm_num) ha).trans (one_le_zpow₀ (by norm_num) hb)
  · have hbase : (2 : ℚ) ^ 93 ≤ 10 ^ 28 := by norm_num
    have hinverse : (2 : ℚ) ^ (-b) ≤ 10 ^ (-a) := by
      refine zpow_le_zpow_of_pow (by norm_num) (by norm_num) (by norm_num) hbase (by omega) ?_
      have hbound := hneg ha
      push_cast
      omega
    rw [zpow_neg, zpow_neg] at hinverse
    exact (inv_le_inv₀ (two_zpow_pos b) (ten_zpow_pos a)).1 hinverse

/-- A power of two below a power of ten, by the same two. -/
theorem two_zpow_le_ten_zpow {a b : ℤ} (hpos : 0 ≤ b → 28 * b ≤ 93 * a)
    (hneg : b ≤ 0 → 3 * b ≤ 10 * a) : (2 : ℚ) ^ b ≤ 10 ^ a := by
  rcases le_total 0 b with hb | hb
  · have hbase : (2 : ℚ) ^ 93 ≤ 10 ^ 28 := by norm_num
    exact zpow_le_zpow_of_pow (by norm_num) (by norm_num) (by norm_num) hbase hb (hpos hb)
  rcases le_total 0 a with ha | ha
  · exact (zpow_le_one_of_nonpos₀ (by norm_num) hb).trans (one_le_zpow₀ (by norm_num) ha)
  · have hbase : (10 : ℚ) ^ 3 ≤ 2 ^ 10 := by norm_num
    have hinverse : (10 : ℚ) ^ (-a) ≤ 2 ^ (-b) := by
      refine zpow_le_zpow_of_pow (by norm_num) (by norm_num) (by norm_num) hbase (by omega) ?_
      have hbound := hneg hb
      push_cast
      omega
    rw [zpow_neg, zpow_neg] at hinverse
    exact (inv_le_inv₀ (ten_zpow_pos a) (two_zpow_pos b)).1 hinverse

/-- The shortest decimal of a number in range. -/
theorem shortest_spec (tie : Tie) (hparts : IsCanonical m e) (he : e ≤ 971) :
    IsShort m e (shortest tie m e).1 (shortest tie m e).2 ∧ -348 ≤ (shortest tie m e).2 := by
  have hlog : m.log2 < 53 := (Nat.log2_lt hparts.pos.ne').2 hparts.fits
  have hleast : -1074 ≤ e := hparts.least
  obtain ⟨place, hplace⟩ : ∃ place, placeAbove m e = place := ⟨_, rfl⟩
  have hvalue : place = (e + m.log2 + 1) * 30103 / 100000 + 1 := hplace.symm
  have hfine : (10 : ℚ) ^ (place - (24 : ℕ)) < 2 ^ (e - 1) := by
    have hle : (10 : ℚ) ^ (place - (24 : ℕ)) ≤ 2 ^ (e - 2) :=
      ten_zpow_le_two_zpow (by omega) (by omega)
    exact hle.trans_lt (zpow_lt_zpow_right₀ (by norm_num) (by omega))
  have hcoarse : (2 : ℚ) ^ e ≤ 20 * 10 ^ place := by
    have hle : (2 : ℚ) ^ e ≤ 10 ^ (place + 1) := two_zpow_le_ten_zpow (by omega) (by omega)
    rw [zpow_add_one₀ (by norm_num)] at hle
    have hpos := ten_zpow_pos place
    linarith
  rw [shortest, hplace]
  obtain ⟨hshort, hle⟩ := searchGrids_spec tie hparts.pos 24 place hfine hcoarse
  exact ⟨hshort, by omega⟩

end TriggerDesk.Decimal
