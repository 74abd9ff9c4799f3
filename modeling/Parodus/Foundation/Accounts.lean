import Parodus.Foundation.Ledger

namespace Parodus.Foundation.Ledger

variable {τ : Type*} {l : Ledger} {held held' : List ℕ} {i : ℕ}

/-- What was handed out is freed or held, and neither twice nor both. -/
def Accounts (l : Ledger) (held : List ℕ) : Prop := (l.freed ++ held).Perm (List.range l.next)

theorem accounts_nil : Accounts ⟨0, []⟩ [] := .refl _

theorem Accounts.perm (h : l.Accounts held) (hperm : held'.Perm held) : l.Accounts held' :=
  (hperm.append_left _).trans h

theorem Accounts.nodup (h : l.Accounts held) : (l.freed ++ held).Nodup :=
  h.nodup_iff.mpr List.nodup_range

theorem Accounts.freed_nodup (h : l.Accounts held) : l.freed.Nodup :=
  (List.nodup_append.mp h.nodup).1

/-- What is held was handed out and is not freed. -/
theorem Accounts.live (h : l.Accounts held) (hi : i ∈ held) : i < l.next ∧ i ∉ l.freed := by
  refine ⟨List.mem_range.mp (h.mem_iff.mp (List.mem_append_right _ hi)), ?_⟩
  intro hfreed
  exact (List.nodup_append.mp h.nodup).2.2 i hfreed i hi rfl

/-- What was handed out is freed if it is not held. -/
theorem Accounts.mem_freed (h : l.Accounts held) (hi : i < l.next) (hnot : i ∉ held) :
    i ∈ l.freed :=
  (List.mem_append.mp (h.mem_iff.mpr (List.mem_range.mpr hi))).resolve_right hnot

theorem Accounts.alloc (h : l.Accounts held) (v : τ) :
    (l.alloc v).2.Accounts ((l.alloc v).1.id :: held) := by
  rw [Accounts, alloc_freed, alloc_next, alloc_id, List.range_succ]
  exact (List.perm_middle.trans (h.cons l.next)).trans (List.perm_append_singleton _ _).symm

theorem Accounts.free {x : Owned τ} (h : l.Accounts (x.id :: held)) : (l.free x).Accounts held := by
  rw [Accounts, free_freed, free_next, List.append_assoc]
  exact h

section Pointers

/-- An allocation that can fail. -/
def allocIf (ok : Bool) (v : τ) (l : Ledger) : Option (Owned τ) × Ledger :=
  if ok then (some (l.alloc v).1, (l.alloc v).2) else (none, l)

/-- A pointer is freed if it is not null. -/
def freeOption (l : Ledger) (p : Option (Owned τ)) : Ledger :=
  match p with
  | none => l
  | some x => l.free x

def heldBy (p : Option (Owned τ)) : List ℕ := p.toList.map Owned.id

@[simp] theorem heldBy_none : heldBy (none : Option (Owned τ)) = [] := rfl

@[simp] theorem heldBy_some (x : Owned τ) : heldBy (some x) = [x.id] := rfl

theorem allocIf_val {ok : Bool} {v : τ} {x : Owned τ} (h : (l.allocIf ok v).1 = some x) :
    x.val = v := by
  cases ok with
  | true => exact congrArg Owned.val (Option.some.inj h).symm
  | false => cases h

theorem heldBy_length_le (p : Option (Owned τ)) : (heldBy p).length ≤ 1 := by
  cases p with
  | none => exact Nat.zero_le 1
  | some x => exact Nat.le_refl 1

theorem Accounts.allocIf (h : l.Accounts held) (ok : Bool) (v : τ) :
    (l.allocIf ok v).2.Accounts (heldBy (l.allocIf ok v).1 ++ held) := by
  cases ok with
  | true => exact h.alloc v
  | false => exact h

theorem Accounts.freeOption {p : Option (Owned τ)} (h : l.Accounts (heldBy p ++ held)) :
    (l.freeOption p).Accounts held := by
  cases p with
  | none => exact h
  | some x => exact Accounts.free h

end Pointers

end Parodus.Foundation.Ledger
