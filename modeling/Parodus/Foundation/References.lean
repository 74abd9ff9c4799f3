import Mathlib.Data.List.Count
import Mathlib.Logic.Function.Basic

namespace Parodus.Foundation

/-- Objects that are shared by counting the references to them, numbered as they are made. An
object without a reference is freed; `faulty` records that a freed one was used. -/
structure References where
  made : ℕ
  refs : ℕ → ℕ
  faulty : Bool

namespace References

def start : References := ⟨0, fun _ ↦ 0, false⟩

variable (r : References) (i : ℕ)

def use : References := { r with faulty := r.faulty || r.refs i == 0 }

/-- The reference of its maker is the first. -/
def make : References := { r with made := r.made + 1, refs := Function.update r.refs r.made 1 }

def ref : References :=
  { r.use i with refs := Function.update r.refs i (r.refs i + 1) }

def unref : References :=
  { r.use i with refs := Function.update r.refs i (r.refs i - 1) }

/-- A null pointer is left alone. -/
def unrefOption (p : Option ℕ) : References := p.elim r r.unref

/-- Each reference is held once: the object is in the list as often as it is referenced. -/
structure Counted (held : List ℕ) : Prop where
  refs : ∀ i, r.refs i = held.count i
  made : ∀ i ∈ held, i < r.made
  sound : r.faulty = false

variable {r i} {held held' : List ℕ}

theorem counted_start : start.Counted [] where
  refs _ := rfl
  made _ h := absurd h List.not_mem_nil
  sound := rfl

theorem Counted.perm (h : r.Counted held) (hperm : held'.Perm held) : r.Counted held' where
  refs i := (h.refs i).trans (hperm.count_eq i).symm
  made i hi := h.made i (hperm.mem_iff.mp hi)
  sound := h.sound

theorem Counted.pos (h : r.Counted held) (hi : i ∈ held) : 0 < r.refs i := by
  rw [h.refs]
  exact List.count_pos_iff.mpr hi

/-- What is not held is freed. -/
theorem Counted.freed (h : r.Counted held) (hi : i ∉ held) : r.refs i = 0 := by
  rw [h.refs]
  exact List.count_eq_zero.mpr hi

theorem Counted.sound_use (h : r.Counted held) (hi : i ∈ held) : (r.use i).faulty = false := by
  have hpos := h.pos hi
  rw [use, h.sound, Bool.false_or]
  exact beq_eq_false_iff_ne.mpr (Nat.ne_of_gt hpos)

theorem Counted.use (h : r.Counted held) (hi : i ∈ held) : (r.use i).Counted held :=
  ⟨h.refs, h.made, h.sound_use hi⟩

theorem Counted.make (h : r.Counted held) : r.make.Counted (r.made :: held) where
  refs i := by
    have hnew : r.made ∉ held := fun hmem ↦ Nat.lt_irrefl _ (h.made _ hmem)
    rw [References.make, List.count_cons]
    dsimp only
    by_cases hi : i = r.made
    · rw [hi, Function.update_self, List.count_eq_zero.mpr hnew, beq_self_eq_true, if_pos rfl]
    · rw [Function.update_of_ne hi, beq_eq_false_iff_ne.mpr (Ne.symm hi)]
      exact h.refs i
  made := List.forall_mem_cons.mpr
    ⟨Nat.lt_succ_self _, fun i hi ↦ Nat.lt_succ_of_lt (h.made i hi)⟩
  sound := h.sound

/-- A reference is taken by one who holds one. -/
theorem Counted.ref (h : r.Counted held) (hi : i ∈ held) : (r.ref i).Counted (i :: held) where
  refs j := by
    rw [References.ref, List.count_cons]
    dsimp only
    by_cases hj : j = i
    · rw [hj, Function.update_self, beq_self_eq_true, if_pos rfl, h.refs]
    · rw [Function.update_of_ne hj, beq_eq_false_iff_ne.mpr (Ne.symm hj)]
      exact h.refs j
  made := List.forall_mem_cons.mpr ⟨h.made i hi, h.made⟩
  sound := h.sound_use hi

theorem Counted.unref (h : r.Counted (i :: held)) : (r.unref i).Counted held where
  refs j := by
    have hcount := h.refs j
    rw [List.count_cons] at hcount
    rw [References.unref]
    dsimp only
    by_cases hj : j = i
    · rw [hj, beq_self_eq_true, if_pos rfl] at hcount
      rw [hj, Function.update_self, hcount, Nat.add_sub_cancel]
    · rw [beq_eq_false_iff_ne.mpr (Ne.symm hj)] at hcount
      rw [Function.update_of_ne hj]
      exact hcount
  made := (List.forall_mem_cons.mp h.made).2
  sound := h.sound_use List.mem_cons_self

theorem Counted.unrefOption {p : Option ℕ} (h : r.Counted (p.toList ++ held)) :
    (r.unrefOption p).Counted held := by
  cases p with
  | none => exact h
  | some i => exact Counted.unref h

end References

end Parodus.Foundation
