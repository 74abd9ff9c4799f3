import Mathlib.Order.Basic

namespace Parodus.Foundation

variable {α : Type*}

/-- So many elements right before an index have the property, and the one before them has not. -/
structure Streak (p : α → Bool) (a : ℕ → α) (i ct : ℕ) : Prop where
  le : ct ≤ i
  all : ∀ j < i, i ≤ j + ct → p (a j) = true
  stopped : ∀ j, j + ct + 1 = i → p (a j) = false

namespace Streak

variable {p : α → Bool} {a : ℕ → α} {i ct n : ℕ}

theorem zero (p : α → Bool) (a : ℕ → α) : Streak p a 0 0 where
  le := Nat.le_refl 0
  all j hj := absurd hj (Nat.not_lt_zero j)
  stopped _ hj := absurd hj (Nat.succ_ne_zero _)

/-- The counter of a loop that goes back to zero where the property fails. -/
theorem succ (h : Streak p a i ct) : Streak p a (i + 1) (if p (a i) then ct + 1 else 0) := by
  by_cases hi : p (a i) = true
  · rw [if_pos hi]
    refine ⟨Nat.succ_le_succ h.le, fun j hj hle ↦ ?_, fun j hj ↦ h.stopped j (by omega)⟩
    obtain hlt | rfl := Nat.lt_or_eq_of_le (Nat.le_of_lt_succ hj)
    · exact h.all j hlt (by omega)
    · exact hi
  · rw [if_neg hi]
    refine ⟨Nat.zero_le _, fun j hj hle ↦ by omega, fun j hj ↦ ?_⟩
    obtain rfl : j = i := by omega
    exact Bool.eq_false_iff.mpr hi

/-- The counter has reached a number if so many elements have the property. -/
theorem le_iff (h : Streak p a i ct) :
    n ≤ ct ↔ n ≤ i ∧ ∀ j < i, i ≤ j + n → p (a j) = true := by
  constructor
  · intro hn
    exact ⟨Nat.le_trans hn h.le, fun j hj hle ↦ h.all j hj (by omega)⟩
  · rintro ⟨hn, hall⟩
    by_contra hlt
    have hle := h.le
    have hstopped := h.stopped (i - ct - 1) (by omega)
    rw [hall (i - ct - 1) (by omega) (by omega)] at hstopped
    cases hstopped

end Streak

end Parodus.Foundation
