import Mathlib.Data.List.Nodup

namespace Parodus.Foundation

/-- A holder of at most one resource at a time. The resources are numbered in the
order in which they are opened, and it is logged which were closed. -/
structure Custody where
  current : Option ℕ
  opened : ℕ
  closed : List ℕ

namespace Custody

variable (c : Custody)

def acquire : Custody := { c with current := some c.opened, opened := c.opened + 1 }

def close (id : ℕ) : Custody := { c with closed := id :: c.closed }

def release : Custody := { c with current := none }

def Settled : Prop := ∀ id < c.opened, id ∈ c.closed

/-- The resource held, if there is one, is open. -/
def Live : Prop := ∀ id, c.current = some id → id < c.opened ∧ id ∉ c.closed

/-- Every resource but the one held is closed, and none is closed twice. -/
structure Sole : Prop where
  unclosed : ∀ id < c.opened, id ∉ c.closed → c.current = some id
  nodup : c.closed.Nodup
  lt : ∀ id ∈ c.closed, id < c.opened

variable {c}

theorem Sole.settled (h : c.Sole) (hnone : c.current = none) : c.Settled := by
  intro id hid
  by_contra hnot
  have hsome := h.unclosed id hid hnot
  rw [hnone] at hsome
  cases hsome

theorem Sole.acquire (h : c.Sole) (hsettled : c.Settled) : c.acquire.Sole where
  unclosed id hid hnot := by
    obtain hlt | rfl := Nat.lt_succ_iff_lt_or_eq.mp hid
    · exact absurd (hsettled id hlt) hnot
    · rfl
  nodup := h.nodup
  lt id hid := Nat.lt_succ_of_lt (h.lt id hid)

theorem Sole.live_acquire (h : c.Sole) : c.acquire.Live := by
  intro id hid
  obtain rfl := Option.some.inj hid
  exact ⟨Nat.lt_succ_self _, fun hmem ↦ Nat.lt_irrefl _ (h.lt _ hmem)⟩

theorem Sole.settled_close {id : ℕ} (h : c.Sole) (hcurrent : c.current = some id) :
    (c.close id).Settled := by
  intro id' hid
  by_cases hmem : id' ∈ c.closed
  · exact List.mem_cons_of_mem _ hmem
  · obtain rfl := Option.some.inj (hcurrent.symm.trans (h.unclosed id' hid hmem))
    exact List.mem_cons_self

theorem Sole.close {id : ℕ} (h : c.Sole) (hlive : c.Live) (hcurrent : c.current = some id) :
    (c.close id).Sole where
  unclosed id' hid hnot := absurd (h.settled_close hcurrent id' hid) hnot
  nodup := List.nodup_cons.mpr ⟨(hlive id hcurrent).2, h.nodup⟩
  lt := List.forall_mem_cons.mpr ⟨(hlive id hcurrent).1, h.lt⟩

theorem Sole.release (h : c.Sole) (hsettled : c.Settled) : c.release.Sole where
  unclosed id hid hnot := absurd (hsettled id hid) hnot
  nodup := h.nodup
  lt := h.lt

theorem live_release : c.release.Live := nofun

end Custody

end Parodus.Foundation
