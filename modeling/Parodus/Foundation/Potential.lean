import Mathlib.Algebra.BigOperators.Ring.List
import Mathlib.Algebra.Ring.Nat
import Parodus.Foundation.Runs

namespace Parodus.Foundation.Runs

variable {σ α : Type*} {step : σ → α → σ → Prop}

/-- What is counted along a run. -/
def total (f : σ → α → ℕ) (tr : List (σ × α)) : ℕ := (tr.map fun x ↦ f x.1 x.2).sum

@[simp] theorem total_nil (f : σ → α → ℕ) : total f [] = 0 := rfl

@[simp] theorem total_cons (f : σ → α → ℕ) (s : σ) (a : α) (tr : List (σ × α)) :
    total f ((s, a) :: tr) = f s a + total f tr := by
  rw [total, total, List.map_cons, List.sum_cons]

theorem total_append (f : σ → α → ℕ) (tr tr' : List (σ × α)) :
    total f (tr ++ tr') = total f tr + total f tr' := by
  rw [total, List.map_append, List.sum_append, total, total]

theorem total_mul (k : ℕ) (f : σ → α → ℕ) (tr : List (σ × α)) :
    total (fun s a ↦ k * f s a) tr = k * total f tr :=
  List.sum_map_mul_left tr (fun x ↦ f x.1 x.2) k

/-- If each step of a run pays its cost from a potential and its credit, so does the run. -/
theorem Run.total_le {cost credit : σ → α → ℕ} {potential : σ → ℕ} {s t : σ}
    {tr : List (σ × α)} (h : Run step s tr t)
    (hpays : ∀ s a t, (s, a) ∈ tr → step s a t →
      cost s a + potential t ≤ potential s + credit s a) :
    total cost tr + potential t ≤ potential s + total credit tr := by
  induction h with
  | nil => simp
  | @cons s t u a tr hst _ ih =>
    have hfirst := hpays s a t List.mem_cons_self hst
    have hrest := ih fun s a t hmem ↦ hpays s a t (List.mem_cons_of_mem _ hmem)
    rw [total_cons, total_cons]
    omega

theorem Run.append {s t u : σ} {tr tr' : List (σ × α)} (h : Run step s tr t)
    (h' : Run step t tr' u) : Run step s (tr ++ tr') u := by
  induction h with
  | nil => exact h'
  | cons hst _ ih => exact .cons hst (ih h')

end Parodus.Foundation.Runs
