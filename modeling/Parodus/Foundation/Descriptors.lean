import Mathlib.Data.List.Perm.Basic
import Mathlib.Data.List.Nodup
import Mathlib.Algebra.Order.Group.Int

namespace Parodus.Foundation

/-- The descriptors a process has open. A number may be given out again once it is closed; a
negative one stands for none. `strays` counts the numbers closed that were not open. -/
structure Descriptors where
  opened : List ℤ
  strays : ℕ
  deriving DecidableEq

namespace Descriptors

def start : Descriptors := ⟨[], 0⟩

/-- What opens a descriptor gives no number out that is still open. -/
def opens (n : ℤ) (k : Descriptors) : Option Descriptors :=
  if n ∈ k.opened then none
  else if 0 ≤ n then some { k with opened := n :: k.opened }
  else some k

def close (n : ℤ) (k : Descriptors) : Descriptors :=
  if n ∈ k.opened then { k with opened := k.opened.erase n }
  else if 0 ≤ n then { k with strays := k.strays + 1 }
  else k

def valid (ns : List ℤ) : List ℤ := ns.filter fun n ↦ decide (0 ≤ n)

/-- Every descriptor that is open is held, by one holder, or lost, and no number was closed that
was not open. -/
structure Covers (k : Descriptors) (held lost : List ℤ) : Prop where
  perm : k.opened.Perm (valid held ++ lost)
  nodup : k.opened.Nodup
  nonneg : ∀ n ∈ k.opened, 0 ≤ n
  sound : k.strays = 0

variable {k k' : Descriptors} {held held' lost : List ℤ} {n : ℤ}

theorem valid_cons_of_nonneg (h : 0 ≤ n) (ns : List ℤ) : valid (n :: ns) = n :: valid ns :=
  List.filter_cons_of_pos (decide_eq_true h)

theorem valid_cons_of_neg (h : n < 0) (ns : List ℤ) : valid (n :: ns) = valid ns :=
  List.filter_cons_of_neg (by simpa using h)

theorem covers_start : start.Covers [] [] where
  perm := .refl _
  nodup := List.nodup_nil
  nonneg := List.forall_mem_nil _
  sound := rfl

theorem Covers.of_perm (h : k.Covers held lost) (hperm : held'.Perm held) :
    k.Covers held' lost where
  perm := h.perm.trans ((hperm.filter _).symm.append_right lost)
  nodup := h.nodup
  nonneg := h.nonneg
  sound := h.sound

theorem Covers.mem (h : k.Covers held lost) (hn : n ∈ held) (hpos : 0 ≤ n) : n ∈ k.opened :=
  h.perm.mem_iff.mpr (List.mem_append_left _ (List.mem_filter.mpr ⟨hn, decide_eq_true hpos⟩))

theorem Covers.valid_nodup (h : k.Covers held lost) : (valid held).Nodup :=
  (List.nodup_append.mp (h.perm.nodup_iff.mp h.nodup)).1

theorem Covers.length (h : k.Covers held lost) :
    k.opened.length = (valid held).length + lost.length := by
  rw [h.perm.length_eq, List.length_append]

theorem Covers.opens (h : k.Covers held lost) (hopens : k.opens n = some k') :
    k'.Covers (n :: held) lost := by
  unfold Descriptors.opens at hopens
  split at hopens
  · cases hopens
  · rename_i hnew
    split at hopens
    · rename_i hpos
      obtain rfl := Option.some.inj hopens
      refine ⟨?_, List.nodup_cons.mpr ⟨hnew, h.nodup⟩, List.forall_mem_cons.mpr ⟨hpos, h.nonneg⟩,
        h.sound⟩
      rw [valid_cons_of_nonneg hpos]
      exact h.perm.cons n
    · rename_i hneg
      obtain rfl := Option.some.inj hopens
      refine ⟨?_, h.nodup, h.nonneg, h.sound⟩
      rw [valid_cons_of_neg (Int.not_le.mp hneg)]
      exact h.perm

theorem Covers.of_neg (h : k.Covers (n :: held) lost) (hneg : n < 0) : k.Covers held lost := by
  have hperm := h.perm
  rw [valid_cons_of_neg hneg] at hperm
  exact ⟨hperm, h.nodup, h.nonneg, h.sound⟩

/-- A holder closes its own descriptor, if it has one. -/
theorem Covers.close (h : k.Covers (n :: held) lost) : (k.close n).Covers held lost := by
  by_cases hpos : 0 ≤ n
  · have hmem := h.mem List.mem_cons_self hpos
    have hperm := h.perm
    rw [valid_cons_of_nonneg hpos, List.cons_append] at hperm
    rw [Descriptors.close, if_pos hmem]
    refine ⟨?_, h.nodup.erase n, fun m hm ↦ h.nonneg m (List.mem_of_mem_erase hm), h.sound⟩
    have herase := hperm.erase n
    rwa [List.erase_cons_head] at herase
  · have hnot : n ∉ k.opened := fun hmem ↦ hpos (h.nonneg n hmem)
    have hperm := h.perm
    rw [valid_cons_of_neg (Int.not_le.mp hpos)] at hperm
    rw [Descriptors.close, if_neg hnot, if_neg hpos]
    exact ⟨hperm, h.nodup, h.nonneg, h.sound⟩

/-- Descriptors are lost when their holders go without closing them. -/
theorem Covers.lose (h : k.Covers (held' ++ held) lost) :
    k.Covers held (valid held' ++ lost) := by
  refine ⟨h.perm.trans ?_, h.nodup, h.nonneg, h.sound⟩
  rw [valid, List.filter_append, List.append_assoc]
  exact List.perm_append_comm_assoc _ _ _

end Descriptors

end Parodus.Foundation
