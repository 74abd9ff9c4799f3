import Mathlib.Data.List.Basic

namespace Parodus.Foundation

variable {α : Type*} {p : α → Bool}

/-- Cuts a list at its first element with the property. -/
def splitFirst (p : α → Bool) : List α → Option (List α × α × List α)
  | [] => none
  | x :: xs => if p x then some ([], x, xs) else (splitFirst p xs).map fun s ↦ (x :: s.1, s.2)

theorem splitFirst_eq_none_iff {xs : List α} :
    splitFirst p xs = none ↔ ∀ x ∈ xs, p x = false := by
  induction xs with
  | nil => simp [splitFirst]
  | cons x xs ih => cases hx : p x <;> simp [splitFirst, hx, ih]

theorem splitFirst_eq_some {xs pre post : List α} {x : α}
    (h : splitFirst p xs = some (pre, x, post)) :
    xs = pre ++ x :: post ∧ p x = true ∧ ∀ y ∈ pre, p y = false := by
  induction xs generalizing pre with
  | nil => cases h
  | cons y ys ih =>
    cases hy : p y with
    | true =>
      obtain ⟨rfl, rfl, rfl⟩ : [] = pre ∧ y = x ∧ ys = post := by simpa [splitFirst, hy] using h
      exact ⟨rfl, hy, List.forall_mem_nil _⟩
    | false =>
      rw [splitFirst, hy, if_neg Bool.false_ne_true, Option.map_eq_some_iff] at h
      obtain ⟨⟨pre', s⟩, hs, heq⟩ := h
      obtain ⟨rfl, rfl⟩ := Prod.mk.inj heq
      obtain ⟨rfl, hx, hpre⟩ := ih hs
      exact ⟨rfl, hx, List.forall_mem_cons.mpr ⟨hy, hpre⟩⟩

theorem splitFirst_append {pre post : List α} {x : α} (hx : p x = true)
    (hpre : ∀ y ∈ pre, p y = false) : splitFirst p (pre ++ x :: post) = some (pre, x, post) := by
  induction pre with
  | nil => rw [List.nil_append, splitFirst, if_pos hx]
  | cons y ys ih =>
    obtain ⟨hy, hys⟩ := List.forall_mem_cons.mp hpre
    rw [List.cons_append, splitFirst, hy, if_neg Bool.false_ne_true, ih hys]
    rfl

end Parodus.Foundation
