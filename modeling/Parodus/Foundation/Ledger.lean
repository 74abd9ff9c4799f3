import Mathlib.Data.List.Nodup
import Mathlib.Data.List.Range

namespace Parodus.Foundation

/-- A heap value under the identity its allocation gave it. -/
structure Owned (τ : Type*) where
  id : ℕ
  val : τ
  deriving DecidableEq

/-- What an allocator and its client leave behind: identities are handed out in
order, and every identity passed to `free` is logged. -/
structure Ledger where
  next : ℕ
  freed : List ℕ
  deriving DecidableEq

namespace Ledger

variable {τ : Type*}

def alloc (v : τ) (l : Ledger) : Owned τ × Ledger :=
  (⟨l.next, v⟩, { l with next := l.next + 1 })

def free (l : Ledger) (x : Owned τ) : Ledger := { l with freed := l.freed ++ [x.id] }

def allocAll : List τ → Ledger → List (Owned τ) × Ledger
  | [], l => ([], l)
  | v :: vs, l =>
    let (x, l) := l.alloc v
    let (xs, l) := allocAll vs l
    (x :: xs, l)

def freeAll (l : Ledger) (xs : List (Owned τ)) : Ledger := xs.foldl free l

@[simp] theorem alloc_next (v : τ) (l : Ledger) : (l.alloc v).2.next = l.next + 1 := rfl

@[simp] theorem alloc_freed (v : τ) (l : Ledger) : (l.alloc v).2.freed = l.freed := rfl

@[simp] theorem alloc_id (v : τ) (l : Ledger) : (l.alloc v).1.id = l.next := rfl

@[simp] theorem alloc_val (v : τ) (l : Ledger) : (l.alloc v).1.val = v := rfl

@[simp] theorem allocAll_next (vs : List τ) (l : Ledger) :
    (l.allocAll vs).2.next = l.next + vs.length := by
  induction vs generalizing l with
  | nil => rfl
  | cons v vs ih => simp only [allocAll, ih, alloc_next, List.length_cons]; omega

@[simp] theorem allocAll_freed (vs : List τ) (l : Ledger) :
    (l.allocAll vs).2.freed = l.freed := by
  induction vs generalizing l with
  | nil => rfl
  | cons v vs ih => simp only [allocAll, ih, alloc_freed]

@[simp] theorem allocAll_val (vs : List τ) (l : Ledger) :
    (l.allocAll vs).1.map Owned.val = vs := by
  induction vs generalizing l with
  | nil => rfl
  | cons v vs ih => simp only [allocAll, List.map_cons, alloc_val, ih]

@[simp] theorem allocAll_id (vs : List τ) (l : Ledger) :
    (l.allocAll vs).1.map Owned.id = List.range' l.next vs.length := by
  induction vs generalizing l with
  | nil => rfl
  | cons v vs ih =>
    simp only [allocAll, List.map_cons, alloc_id, ih, alloc_next, List.length_cons,
      List.range'_succ]

@[simp] theorem allocAll_length (vs : List τ) (l : Ledger) :
    (l.allocAll vs).1.length = vs.length := by
  rw [← List.length_map (f := Owned.val), allocAll_val]

@[simp] theorem free_next (l : Ledger) (x : Owned τ) : (l.free x).next = l.next := rfl

@[simp] theorem free_freed (l : Ledger) (x : Owned τ) : (l.free x).freed = l.freed ++ [x.id] := rfl

@[simp] theorem freeAll_next (l : Ledger) (xs : List (Owned τ)) :
    (l.freeAll xs).next = l.next := by
  induction xs generalizing l with
  | nil => rfl
  | cons x xs ih => exact ih (l.free x)

@[simp] theorem freeAll_freed (l : Ledger) (xs : List (Owned τ)) :
    (l.freeAll xs).freed = l.freed ++ xs.map Owned.id := by
  induction xs generalizing l with
  | nil => simp [freeAll]
  | cons x xs ih =>
    have h := ih (l.free x)
    simp only [free_freed, List.append_assoc] at h
    exact h

/-- Between the two ledgers no identity was freed twice, and every identity
handed out in between was freed. -/
def Balanced (l l' : Ledger) : Prop :=
  ∃ log, l'.freed = l.freed ++ log ∧ log.Nodup ∧ ∀ i, l.next ≤ i → i < l'.next → log.count i = 1

theorem Balanced.of_perm {l l' : Ledger} {log old : List ℕ} {n : ℕ}
    (hfreed : l'.freed = l.freed ++ log) (hnext : l'.next = l.next + n)
    (hperm : log.Perm (List.range' l.next n ++ old)) (hold : old.Nodup)
    (hlt : ∀ i ∈ old, i < l.next) : Balanced l l' := by
  have hnodup : log.Nodup := by
    rw [hperm.nodup_iff]
    refine List.nodup_append.mpr ⟨List.nodup_range', hold, ?_⟩
    intro i hi j hj
    have hj' := hlt j hj
    rw [List.mem_range'_1] at hi
    omega
  refine ⟨log, hfreed, hnodup, ?_⟩
  intro i hi hi'
  apply List.count_eq_one_of_mem hnodup
  apply hperm.mem_iff.mpr
  rw [List.mem_append, List.mem_range'_1]
  omega

theorem not_balanced_of_dup {l l' : Ledger} {log : List ℕ}
    (hfreed : l'.freed = l.freed ++ log) (hdup : ¬ log.Nodup) : ¬ Balanced l l' := by
  intro hex
  obtain ⟨log', hfreed', hnodup, _⟩ := hex
  have he : log = log' := List.append_cancel_left (hfreed.symm.trans hfreed')
  exact hdup (he ▸ hnodup)

end Ledger

end Parodus.Foundation
