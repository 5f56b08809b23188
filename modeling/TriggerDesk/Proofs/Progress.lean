import Mathlib.Tactic.ByContra

/-!
# Progress

What comes of a state move by move, when it is known what each move may do. A schedule is fair as it
makes some moves again and again; these lemmas say what that leads to, and `exists_round` that such
schedules exist: it counts through all duties again and again.
-/

namespace TriggerDesk

variable {moves P Q : Nat → Prop} {n : Nat}

/-- What lasts until something happens does not last for ever, if a move that makes it happen is
made at some time. -/
theorem exists_of_move (hmove : ∃ m, n ≤ m ∧ moves m)
    (hstep : ∀ n, P n → Q (n + 1) ∨ P (n + 1) ∧ ¬ moves n) (h : P n) : ∃ m, n ≤ m ∧ Q m := by
  obtain ⟨m, hle, hmove⟩ := hmove
  by_contra hnever
  have hlasts : ∀ k, n + k ≤ m → P (n + k) := by
    intro k
    induction k with
    | zero => exact fun _ => h
    | succ k ih =>
      intro hk
      rcases hstep (n + k) (ih (Nat.le_of_succ_le hk)) with hdone | ⟨hkept, _⟩
      · exact absurd ⟨n + k + 1, by omega, hdone⟩ hnever
      · exact hkept
  have hthen := hlasts (m - n) (by omega)
  rw [Nat.add_sub_cancel' hle] at hthen
  rcases hstep m hthen with hdone | ⟨_, hother⟩
  · exact hnever ⟨m + 1, by omega, hdone⟩
  · exact hother hmove

/-- What lasts until a move is made lasts until then, if the move is made at some time in case it
lasts so long. -/
theorem exists_lasting (hturn : ∃ m, n ≤ m ∧ (P m → moves m))
    (hlasts : ∀ m, P m → ¬ moves m → P (m + 1)) (h : P n) : ∃ m, n ≤ m ∧ P m ∧ moves m := by
  by_contra hnone
  obtain ⟨m, hm, hmove⟩ := hturn
  have hstill : ∀ k, n ≤ k → P k := by
    intro k hk
    induction hk with
    | refl => exact h
    | step hk ih => exact hlasts _ ih fun hmove => hnone ⟨_, hk, ih, hmove⟩
  exact hnone ⟨m, hm, hstill m hm, hmove (hstill m hm)⟩

/-- What comes closer to a goal again and again reaches it. -/
theorem exists_of_rank (rank : Nat → Nat)
    (hprogress : ∀ n, P n → (∃ m, n ≤ m ∧ Q m) ∨ ∃ m, n ≤ m ∧ P m ∧ rank m < rank n) (h : P n) :
    ∃ m, n ≤ m ∧ Q m := by
  suffices hall : ∀ (bound n : Nat), P n → rank n ≤ bound → ∃ m, n ≤ m ∧ Q m from
    hall _ n h (Nat.le_refl _)
  intro bound
  induction bound using Nat.strongRecOn with
  | ind bound ih =>
    intro n h hle
    rcases hprogress n h with hdone | ⟨m, hm, hstill, hlt⟩
    · exact hdone
    · obtain ⟨k, hk, hdone⟩ := ih _ (Nat.lt_of_lt_of_le hlt hle) m hstill (Nat.le_refl _)
      exact ⟨k, Nat.le_trans hm hk, hdone⟩

/-- What comes closer to a goal again and again, and never reaches it, is not there at all. -/
theorem not_of_rank (rank : Nat → Nat)
    (hprogress : ∀ n, P n → ∃ m, n ≤ m ∧ P m ∧ rank m < rank n) : ¬ P n := fun h => by
  obtain ⟨m, _, hfalse⟩ :=
    exists_of_rank (Q := fun _ => False) rank (fun n hn => .inr (hprogress n hn)) h
  exact hfalse

/-- Counted from the last power of two, every number comes again and again. -/
theorem exists_round (k n : Nat) : ∃ m, n ≤ m ∧ m - 1 <<< m.log2 = k := by
  have hlt : n + k < 2 ^ (n + k) := Nat.lt_two_pow_self
  refine ⟨2 ^ (n + k) + k, by omega, ?_⟩
  have hlog : (2 ^ (n + k) + k).log2 = n + k := by
    rw [Nat.log2_eq_iff (by omega)]
    omega
  rw [hlog, Nat.one_shiftLeft, Nat.add_sub_cancel_left]

end TriggerDesk
