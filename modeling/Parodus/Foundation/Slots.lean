import Mathlib.Data.List.Nodup
import Mathlib.Data.List.Perm.Subperm
import Parodus.Foundation.Assoc

namespace Parodus.Foundation

/-- A table of `size` numbered slots, each empty or filled. -/
structure Slots (ν : Type*) (size : ℕ) where
  items : List (Option ν)
  sized : items.length = size

namespace Slots

variable {ν : Type*} {size : ℕ} {k j : ℕ} {v : ν}

def empty (ν : Type*) (size : ℕ) : Slots ν size := ⟨List.replicate size none, List.length_replicate⟩

def get (t : Slots ν size) (k : ℕ) : Option ν := t.items[k]?.join

def set (t : Slots ν size) (k : ℕ) (v : ν) : Slots ν size :=
  ⟨t.items.set k (some v), by rw [List.length_set, t.sized]⟩

@[simp] theorem get_empty : (empty ν size).get k = none := by
  simp only [get, empty, List.getElem?_replicate]
  split <;> rfl

theorem get_set_self (t : Slots ν size) (hk : k < size) : (t.set k v).get k = some v := by
  have hlength : k < t.items.length := by rwa [t.sized]
  simp only [get, set, List.getElem?_set_self hlength, Option.join_some]

theorem get_set_of_ne (t : Slots ν size) (h : j ≠ k) : (t.set k v).get j = t.get j := by
  simp only [get, set, List.getElem?_set_ne (Ne.symm h)]

/-- Fills the slot of an entry, unless it is above the limit or taken. -/
def place (limit : ℕ) (t : Slots ν size) (e : ℕ × ν) : Option (Slots ν size) :=
  if e.1 > limit then none
  else if (t.get e.1).isSome then none
  else some (t.set e.1 e.2)

theorem place_eq_some_iff {limit : ℕ} {t t' : Slots ν size} {e : ℕ × ν} :
    place limit t e = some t' ↔ e.1 ≤ limit ∧ t.get e.1 = none ∧ t.set e.1 e.2 = t' := by
  unfold place
  by_cases hlimit : e.1 > limit
  · rw [if_pos hlimit]
    exact iff_of_false (Option.some_ne_none _).symm fun h ↦ absurd h.1 (Nat.not_le.mpr hlimit)
  · rw [if_neg hlimit]
    cases hget : t.get e.1 with
    | none => simp [Nat.le_of_not_lt hlimit]
    | some w => simp

/-- The slots that a list needs stay free exactly if it does not need the one filled. -/
theorem forall_free_set_iff {limit : ℕ} (hsize : limit < size) (es : List (ℕ × ν))
    (t : Slots ν size) {k : ℕ} (hk : k ≤ limit) (v : ν) :
    (∀ e ∈ es, e.1 ≤ limit ∧ (t.set k v).get e.1 = none) ↔
      (∀ e ∈ es, e.1 ≤ limit ∧ t.get e.1 = none) ∧ k ∉ es.map Prod.fst := by
  constructor
  · intro h
    have hne : ∀ e ∈ es, e.1 ≠ k := by
      intro e he heq
      have hnone := (h e he).2
      rw [heq, get_set_self t (by omega)] at hnone
      cases hnone
    refine ⟨fun e he ↦ ⟨(h e he).1, ?_⟩, fun hmem ↦ ?_⟩
    · rw [← get_set_of_ne t (hne e he)]
      exact (h e he).2
    · obtain ⟨e, he, heq⟩ := List.mem_map.mp hmem
      exact hne e he heq
  · intro h e he
    obtain ⟨hfree, hnot⟩ := h
    have hne : e.1 ≠ k := fun heq ↦ hnot (List.mem_map.mpr ⟨e, he, heq⟩)
    rw [get_set_of_ne t hne]
    exact hfree e he

/-- Entries can be placed in any order exactly if no two of them, and none of
them and a slot filled before, are for the same slot. -/
theorem foldlM_place_isSome_iff {limit : ℕ} (hsize : limit < size) (es : List (ℕ × ν))
    (t : Slots ν size) :
    (es.foldlM (place limit) t).isSome ↔
      (∀ e ∈ es, e.1 ≤ limit ∧ t.get e.1 = none) ∧ (es.map Prod.fst).Nodup := by
  induction es generalizing t with
  | nil => simp
  | cons e es ih =>
    rw [List.foldlM_cons, List.forall_mem_cons, List.map_cons, List.nodup_cons]
    cases hplace : place limit t e with
    | none =>
      refine iff_of_false Bool.false_ne_true fun h ↦ ?_
      obtain ⟨⟨⟨hlimit, hget⟩, _⟩, _⟩ := h
      exact Option.some_ne_none _ ((place_eq_some_iff.mpr ⟨hlimit, hget, rfl⟩).symm.trans hplace)
    | some t' =>
      obtain ⟨hlimit, hget, rfl⟩ := place_eq_some_iff.mp hplace
      rw [Option.bind_eq_bind, Option.bind_some, ih, forall_free_set_iff hsize es t hlimit]
      constructor
      · intro h
        obtain ⟨⟨hfree, hnot⟩, hnodup⟩ := h
        exact ⟨⟨⟨hlimit, hget⟩, hfree⟩, hnot, hnodup⟩
      · intro h
        obtain ⟨⟨_, hfree⟩, hnot, hnodup⟩ := h
        exact ⟨⟨hfree, hnot⟩, hnodup⟩

theorem get_of_foldlM_place {limit : ℕ} (hsize : limit < size) {es : List (ℕ × ν)}
    {t t' : Slots ν size} (h : es.foldlM (place limit) t = some t') (k : ℕ) :
    t'.get k = (t.get k).or (es.lookup k) := by
  induction es generalizing t with
  | nil =>
    obtain rfl := Option.some.inj h
    simp
  | cons e es ih =>
    obtain ⟨t₁, hplace, hfold⟩ := Option.bind_eq_some_iff.mp h
    obtain ⟨hlimit, hget, rfl⟩ := place_eq_some_iff.mp hplace
    rw [ih hfold]
    by_cases hk : k = e.1
    · subst hk
      obtain ⟨i, w⟩ := e
      rw [get_set_self t (by omega), hget, List.lookup_cons_self, Option.none_or, Option.some_or]
    · rw [get_set_of_ne t hk, Assoc.lookup_cons_of_ne (Ne.symm hk)]

/-- The first slots are filled, in the order of the list, and the others empty. -/
structure Filled (t : Slots ν size) (vs : List ν) : Prop where
  le : vs.length ≤ size
  items : t.items = vs.map some ++ List.replicate (size - vs.length) none

variable {t : Slots ν size} {vs : List ν}

theorem filled_empty : (empty ν size).Filled [] := ⟨Nat.zero_le size, rfl⟩

theorem Filled.set (h : t.Filled vs) (hlt : vs.length < size) (v : ν) :
    (t.set vs.length v).Filled (vs ++ [v]) where
  le := by
    rw [List.length_append, List.length_singleton]
    exact hlt
  items := by
    obtain ⟨k, hk⟩ : ∃ k, size - vs.length = k + 1 := ⟨size - vs.length - 1, by omega⟩
    have hrest : size - (vs ++ [v]).length = k := by
      rw [List.length_append, List.length_singleton]
      omega
    have hlength : (vs.map some).length ≤ vs.length := Nat.le_of_eq (List.length_map _)
    change t.items.set vs.length (some v) = _
    rw [h.items, hk, hrest, List.replicate_succ, List.set_append_right _ _ hlength,
      List.length_map, Nat.sub_self, List.set_cons_zero, List.map_append, List.append_assoc]
    rfl

theorem Filled.full (h : t.Filled vs) (hlength : vs.length = size) : t.items = vs.map some := by
  rw [h.items, hlength, Nat.sub_self, List.replicate_zero, List.append_nil]

theorem get_isSome_of_items (h : t.items = vs.map some) (hk : k < size) : (t.get k).isSome := by
  have hlength : k < vs.length := by
    have hsized := t.sized
    rw [h, List.length_map] at hsized
    omega
  rw [get, h, List.getElem?_map, List.getElem?_eq_getElem hlength]
  rfl

end Slots

end Parodus.Foundation
