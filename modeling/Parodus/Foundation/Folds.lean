import Mathlib.Data.List.Basic

namespace Parodus.Foundation.Folds

variable {σ α γ ε : Type*} {f : σ → α → Except ε σ} {l : List α} {s t : σ}

/-- A part of the state that a step only changes by itself goes through the fold by itself. -/
theorem proj_foldlM {part : σ → γ} {next : γ → α → γ}
    (hstep : ∀ s a t, f s a = .ok t → part t = next (part s) a) (h : l.foldlM f s = .ok t) :
    part t = l.foldl next (part s) := by
  induction l generalizing s with
  | nil =>
    obtain rfl := Except.ok.inj h
    rfl
  | cons a l ih =>
    rw [List.foldlM_cons] at h
    cases ha : f s a with
    | error e =>
      rw [ha] at h
      cases h
    | ok u =>
      rw [ha] at h
      rw [List.foldl_cons, ← hstep s a u ha]
      exact ih h

/-- Where it only depends on the element whether a step fails, the fold fails at any such
element. -/
theorem foldlM_ok_iff {good : α → Prop} (hstep : ∀ s a, (∃ t, f s a = .ok t) ↔ good a) (s : σ) :
    (∃ t, l.foldlM f s = .ok t) ↔ ∀ a ∈ l, good a := by
  induction l generalizing s with
  | nil => exact iff_of_true ⟨s, rfl⟩ (List.forall_mem_nil _)
  | cons a l ih =>
    rw [List.foldlM_cons, List.forall_mem_cons, ← hstep s a]
    cases ha : f s a with
    | error e =>
      refine iff_of_false ?_ ?_
      · rintro ⟨t, ht⟩
        cases ht
      · rintro ⟨⟨t, ht⟩, _⟩
        cases ht
    | ok u =>
      refine Iff.trans ?_ (and_iff_right ⟨u, rfl⟩).symm
      exact ih u

/-- A value that some elements set is that of the last of them. -/
theorem foldl_getD (set : α → Option γ) (l : List α) (x : γ) :
    l.foldl (fun x a ↦ (set a).getD x) x = (l.filterMap set).getLast?.getD x := by
  induction l generalizing x with
  | nil => rfl
  | cons a l ih =>
    rw [List.foldl_cons, ih]
    cases ha : set a with
    | none => rw [List.filterMap_cons_none ha, Option.getD_none]
    | some y =>
      rw [List.filterMap_cons_some ha, List.getLast?_cons, Option.getD_some, Option.getD_some]

end Parodus.Foundation.Folds
