import TriggerDesk.Market.Quote
import TriggerDesk.Order.Trigger

/-!
# The price that crosses a level

Finite prices are compared as numbers are: of two of them one is below the other or they are
equal, where zero equals negative zero. So a trigger that is armed at a last price fires at the
prices that lie beyond the level, seen from the last price (`Trigger.hits_arm_iff`), and at the
last price itself only if that is the level (`Trigger.hits_arm_self`).
-/

namespace TriggerDesk

open Float.Model

/-! ## Comparing prices -/

namespace Market

variable {first second : Float}

/-- A comparison of two parts in turn is turned around by turning both. -/
theorem swap_then_compare (e f : Int) (m n : Nat) :
    ((compare e f).then (compare m n)).swap = (compare f e).then (compare n m) := by
  rw [Ordering.swap_then, Int.compare_swap, Nat.compare_swap]

/-- Two parts compare as equal only when both are. -/
theorem eq_of_then_compare {e f : Int} {m n : Nat}
    (h : (compare e f).then (compare m n) = .eq) : e = f ∧ m = n := by
  obtain ⟨hexponent, hmantissa⟩ := Ordering.then_eq_eq.1 h
  exact ⟨Std.compare_eq_iff_eq.1 hexponent, Std.compare_eq_iff_eq.1 hmantissa⟩

/-- The other way round a comparison has the opposite result. -/
theorem compare_swap (a b : UnpackedFloat) : b.compare a = (a.compare b).map Ordering.swap := by
  cases a with
  | notANumber => cases b <;> rfl
  | infinity s =>
    cases b with
    | notANumber | zero | finite => cases s <;> rfl
    | infinity t => cases s <;> cases t <;> rfl
  | zero =>
    cases b with
    | notANumber | zero => rfl
    | infinity t | finite t => cases t <;> rfl
  | finite s m e =>
    cases b with
    | notANumber => rfl
    | zero => cases s <;> rfl
    | infinity t => cases t <;> cases s <;> rfl
    | finite t n f =>
      have hswap := (swap_then_compare e f m n).symm
      cases s with
      | positive =>
        cases t with
        | positive => exact congrArg some hswap
        | negative => rfl
      | negative =>
        cases t with
        | positive => rfl
        | negative => exact congrArg (some ·.swap) hswap

/-- Finite numbers can be compared. -/
theorem compare_ne_none {a b : UnpackedFloat} (ha : a.isFinite = true) (hb : b.isFinite = true) :
    a.compare b ≠ none := by
  cases a with
  | notANumber | infinity => cases ha
  | zero =>
    cases b with
    | notANumber | infinity => cases hb
    | zero => nofun
    | finite t => cases t <;> nofun
  | finite s =>
    cases b with
    | notANumber | infinity => cases hb
    | zero => cases s <;> nofun
    | finite t => cases s <;> cases t <;> nofun

/-- Equal numbers compare with any other in the same way. -/
theorem compare_congr {a b : UnpackedFloat} (h : a.compare b = some .eq) (c : UnpackedFloat) :
    c.compare a = c.compare b := by
  cases a with
  | notANumber => cases h
  | infinity s =>
    cases b with
    | infinity t => cases s <;> cases t <;> first | rfl | cases h
    | notANumber | zero | finite => cases s <;> cases h
  | zero =>
    cases b with
    | zero =>
      cases c with
      | notANumber | zero => rfl
      | infinity r | finite r => cases r <;> rfl
    | notANumber => cases h
    | infinity t | finite t => cases t <;> cases h
  | finite s m e =>
    cases b with
    | notANumber | zero => cases s <;> cases h
    | infinity t => cases s <;> cases t <;> cases h
    | finite t n f =>
      cases s with
      | positive =>
        cases t with
        | positive =>
          -- Equal numbers of one sign have equal parts, so they are one number here.
          obtain ⟨rfl, rfl⟩ := eq_of_then_compare (Option.some.inj h)
          rfl
        | negative => cases h
      | negative =>
        cases t with
        | positive => cases h
        | negative =>
          obtain ⟨rfl, rfl⟩ := eq_of_then_compare (Ordering.swap_inj.1 (Option.some.inj h))
          rfl

/-- A number is at most another exactly when the comparison of their parts says so. -/
theorem le_iff_compare : first ≤ second ↔
    (first.toModel.unpack.compare second.toModel.unpack).any (·.isLE) = true :=
  decide_eq_true_iff

/-- A number is less than another exactly when the comparison of their parts says so. -/
theorem lt_iff_compare : first < second ↔
    (first.toModel.unpack.compare second.toModel.unpack == some .lt) = true :=
  decide_eq_true_iff

/-- A finite price that is not below another one is above it. -/
theorem not_le_iff_lt (hfirst : first.isFinite = true) (hsecond : second.isFinite = true) :
    ¬ first ≤ second ↔ second < first := by
  rw [le_iff_compare, lt_iff_compare, compare_swap first.toModel.unpack second.toModel.unpack]
  cases hcompare : first.toModel.unpack.compare second.toModel.unpack with
  | none => exact absurd hcompare (compare_ne_none hfirst hsecond)
  | some ordering => cases ordering <;> simp

/-- Prices of which neither is above the other are equal. -/
theorem beq_of_le_of_le (hle : first ≤ second) (hge : second ≤ first) :
    (first == second) = true := by
  rw [le_iff_compare] at hle
  rw [le_iff_compare, compare_swap first.toModel.unpack second.toModel.unpack] at hge
  show (first.toModel.unpack.compare second.toModel.unpack == some .eq) = true
  cases hcompare : first.toModel.unpack.compare second.toModel.unpack with
  | none =>
    rw [hcompare] at hle
    cases hle
  | some ordering =>
    rw [hcompare] at hle hge
    cases ordering with
    | lt => cases hge
    | eq => rfl
    | gt => cases hle

/-- Equal prices lie on the same side of any other. -/
theorem le_congr (h : (first == second) = true) (third : Float) :
    (third ≤ first ↔ third ≤ second) ∧ (first ≤ third ↔ second ≤ third) := by
  have hequal : first.toModel.unpack.compare second.toModel.unpack = some .eq := by
    exact eq_of_beq h
  have hthird := compare_congr hequal third.toModel.unpack
  constructor
  · rw [le_iff_compare, le_iff_compare, hthird]
  · rw [le_iff_compare, le_iff_compare, compare_swap third.toModel.unpack, hthird,
      ← compare_swap third.toModel.unpack]

/-- A price is valid if it is finite and not below zero. -/
theorem isValidPrice_iff {price : Float} :
    isValidPrice price = true ↔ price.isFinite = true ∧ ¬ price < 0 := by
  rw [isValidPrice, Bool.and_eq_true, decide_eq_true_iff]
  refine and_congr_right fun hfinite => ?_
  rw [← not_le_iff_lt (by decide) hfinite, Decidable.not_not]

/-- A price that is not finite, or below zero, is not valid. -/
theorem isValidPrice_eq_false {price : Float} (h : price.isFinite = false ∨ price < 0) :
    isValidPrice price = false := by
  refine Bool.eq_false_iff.2 fun hvalid => ?_
  obtain ⟨hfinite, hnonneg⟩ := isValidPrice_iff.1 hvalid
  rcases h with hinfinite | hnegative
  · rw [hfinite] at hinfinite
    cases hinfinite
  · exact hnonneg hnegative

end Market

/-! ## Crossing a level -/

namespace Order

variable {last level price : Float}

/-- A price lies at a level or beyond it, seen from the last price. -/
def Crosses (last level price : Float) : Prop :=
  last ≤ level ∧ level ≤ price ∨ level < last ∧ price ≤ level

/-- A trigger that is armed at a last price fires at the prices that cross its level. -/
theorem Trigger.hits_arm_iff (hlevel : level.isFinite = true) (hlast : last.isFinite = true) :
    (Trigger.arm level last).hits price = true ↔ Crosses last level price := by
  have hside := Market.not_le_iff_lt hlast hlevel
  unfold Trigger.hits Trigger.arm Crosses
  by_cases hle : last ≤ level
  · have hnot : ¬ level < last := fun hlt => hside.2 hlt hle
    simp only [hle, hnot, if_true, decide_eq_true_iff, true_and, false_and, or_false]
  · have hlt : level < last := hside.1 hle
    simp only [hle, hlt, if_false, decide_eq_true_iff, true_and, false_and, false_or]

/-- A trigger does not fire at the price that it is armed at, unless that is its level. -/
theorem Trigger.hits_arm_self (hprice : (price == last) = true) (hne : (level == last) = false) :
    (Trigger.arm level last).hits price = false := by
  obtain ⟨hge, hle⟩ := Market.le_congr hprice level
  unfold Trigger.hits Trigger.arm
  by_cases hlast : last ≤ level
  · simp only [hlast, if_true, decide_eq_false_iff_not]
    intro hreached
    rw [Market.beq_of_le_of_le (hge.1 hreached) hlast] at hne
    cases hne
  · simp only [hlast, if_false, decide_eq_false_iff_not]
    exact fun hreached => hlast (hle.1 hreached)

end Order

end TriggerDesk
