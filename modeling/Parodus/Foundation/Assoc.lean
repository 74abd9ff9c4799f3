import Mathlib.Algebra.Ring.Nat
import Mathlib.Data.List.Nodup

namespace Parodus.Foundation.Assoc

variable {κ ν : Type*} [BEq κ] {k j : κ} {v : ν} {l : List (κ × ν)}

/-- Drops the first entry of that key; a later one of the same key remains. -/
def remove (k : κ) (l : List (κ × ν)) : List (κ × ν) := l.eraseP fun m ↦ m.1 == k

/-- Puts a new entry of that key at the end, in place of the first old one. -/
def put (k : κ) (v : ν) (l : List (κ × ν)) : List (κ × ν) := remove k l ++ [(k, v)]

def others (k : κ) (l : List (κ × ν)) : List (κ × ν) := l.filter fun m ↦ m.1 != k

theorem remove_sublist (k : κ) (l : List (κ × ν)) : (remove k l).Sublist l := List.eraseP_sublist

variable [LawfulBEq κ]

theorem remove_cons_self (v : ν) (l : List (κ × ν)) : remove k ((k, v) :: l) = l := by
  simp [remove]

theorem remove_cons_of_ne {m : κ × ν} (h : m.1 ≠ k) : remove k (m :: l) = m :: remove k l := by
  simp [remove, h]

theorem remove_eq_self (h : l.lookup k = none) : remove k l = l := by
  apply List.eraseP_of_forall_not
  intro m hm heq
  have hne := List.lookup_eq_none_iff.mp h m hm
  rw [eq_of_beq heq, bne_self_eq_false] at hne
  cases hne

theorem lookup_cons_of_ne {m : κ × ν} (h : m.1 ≠ k) : (m :: l).lookup k = l.lookup k := by
  have hb : (k == m.1) = false := beq_eq_false_iff_ne.mpr (Ne.symm h)
  rw [List.lookup_cons, hb]

theorem lookup_remove_of_ne (h : j ≠ k) : (remove k l).lookup j = l.lookup j := by
  induction l with
  | nil => rfl
  | cons m l ih =>
    by_cases hm : m.1 = k
    · obtain ⟨i, w⟩ := m
      obtain rfl : i = k := hm
      rw [remove_cons_self, lookup_cons_of_ne (Ne.symm h)]
    · rw [remove_cons_of_ne hm, List.lookup_cons, List.lookup_cons, ih]

theorem lookup_put_self (k : κ) (v : ν) (l : List (κ × ν)) :
    (put k v l).lookup k = ((remove k l).lookup k).or (some v) := by
  rw [put, List.lookup_append, List.lookup_cons_self]

theorem lookup_put_of_ne (h : j ≠ k) : (put k v l).lookup j = l.lookup j := by
  rw [put, List.lookup_append, lookup_cons_of_ne (Ne.symm h), List.lookup_nil, Option.or_none,
    lookup_remove_of_ne h]

theorem lookup_eq_none_iff_not_mem_keys : l.lookup k = none ↔ k ∉ l.map Prod.fst := by
  rw [List.lookup_eq_none_iff, List.mem_map]
  constructor
  · rintro h ⟨m, hm, rfl⟩
    exact bne_iff_ne.mp (h m hm) rfl
  · intro h m hm
    exact bne_iff_ne.mpr fun heq ↦ h ⟨m, hm, heq.symm⟩

theorem lookup_of_mem (hkeys : (l.map Prod.fst).Nodup) (h : (k, v) ∈ l) : l.lookup k = some v := by
  induction l with
  | nil => cases h
  | cons m l ih =>
    rw [List.map_cons, List.nodup_cons] at hkeys
    obtain ⟨hm, hl⟩ := hkeys
    obtain rfl | hmem := List.mem_cons.mp h
    · rw [List.lookup_cons_self]
    · have hne : m.1 ≠ k := fun heq ↦ hm (List.mem_map.mpr ⟨(k, v), hmem, heq.symm⟩)
      rw [lookup_cons_of_ne hne, ih hl hmem]

theorem lookup_perm {l' : List (κ × ν)} (hkeys : (l.map Prod.fst).Nodup) (h : l.Perm l') :
    l'.lookup k = l.lookup k := by
  cases hk : l.lookup k with
  | none =>
    rw [lookup_eq_none_iff_not_mem_keys] at hk ⊢
    exact mt (h.map Prod.fst).mem_iff.mpr hk
  | some v =>
    obtain ⟨l₁, l₂, rfl, _⟩ := List.lookup_eq_some_iff.mp hk
    have hmem : (k, v) ∈ l₁ ++ (k, v) :: l₂ := List.mem_append_right _ List.mem_cons_self
    exact lookup_of_mem ((h.map Prod.fst).nodup_iff.mp hkeys) (h.mem_iff.mp hmem)

/-- What is looked up under different keys weighs no more than all entries. -/
theorem sum_lookup_le (f : ν → ℕ) (l : List (κ × ν)) {ks : List κ} (hks : ks.Nodup) :
    (ks.map fun k ↦ ((l.lookup k).map f).getD 0).sum ≤ (l.map fun m ↦ f m.2).sum := by
  induction l generalizing ks with
  | nil => simp
  | cons m l ih =>
    obtain ⟨i, w⟩ := m
    have hother : ∀ ks : List κ, i ∉ ks →
        (ks.map fun k ↦ ((((i, w) :: l).lookup k).map f).getD 0) =
          ks.map fun k ↦ ((l.lookup k).map f).getD 0 := by
      intro ks hi
      refine List.map_congr_left fun k hk ↦ ?_
      rw [lookup_cons_of_ne]
      rintro rfl
      exact hi hk
    rw [List.map_cons, List.sum_cons]
    by_cases hi : i ∈ ks
    · have hperm := (List.perm_cons_erase hi).map fun k ↦ ((((i, w) :: l).lookup k).map f).getD 0
      rw [hperm.sum_nat, List.map_cons, List.sum_cons, hother _ hks.not_mem_erase,
        List.lookup_cons_self]
      exact Nat.add_le_add_left (ih (hks.erase i)) (f w)
    · rw [hother ks hi]
      exact Nat.le_trans (ih hks) (Nat.le_add_left _ _)

theorem keys_remove (k : κ) (l : List (κ × ν)) :
    (remove k l).map Prod.fst = (l.map Prod.fst).erase k := by
  induction l with
  | nil => rfl
  | cons m l ih =>
    by_cases hm : m.1 = k
    · obtain ⟨i, w⟩ := m
      obtain rfl : i = k := hm
      rw [remove_cons_self, List.map_cons, List.erase_cons_head]
    · rw [remove_cons_of_ne hm, List.map_cons, List.map_cons, ih,
        List.erase_cons_tail (by simpa using hm)]

theorem remove_append_of_lookup_eq_none {l' : List (κ × ν)} (h : l.lookup k = none) :
    remove k (l ++ l') = l ++ remove k l' := by
  induction l with
  | nil => rfl
  | cons m l ih =>
    obtain ⟨hm, hl⟩ : m.1 ≠ k ∧ k ∉ l.map Prod.fst := by
      have hkeys := lookup_eq_none_iff_not_mem_keys.mp h
      rw [List.map_cons, List.mem_cons, not_or] at hkeys
      exact ⟨Ne.symm hkeys.1, hkeys.2⟩
    rw [List.cons_append, remove_cons_of_ne hm, ih (lookup_eq_none_iff_not_mem_keys.mpr hl),
      List.cons_append]

theorem remove_ne_self (h : l.lookup k = some v) : remove k l ≠ l := by
  intro heq
  have hmem : k ∈ l.map Prod.fst := by
    rw [← not_not (a := k ∈ _), ← lookup_eq_none_iff_not_mem_keys, h]
    exact Option.some_ne_none v
  have hlength := List.length_erase_of_mem hmem
  rw [← keys_remove, heq] at hlength
  have hpos := List.length_pos_of_mem hmem
  omega

theorem append_cons_remove_ne_self {l' : List (κ × ν)} {m : κ × ν} (hm : m.1 ≠ k)
    (hl' : l'.lookup k = none) : l' ++ m :: remove k l ≠ l := by
  intro heq
  have hl'_count : (l'.map Prod.fst).count k = 0 :=
    List.count_eq_zero_of_not_mem (lookup_eq_none_iff_not_mem_keys.mp hl')
  have hcount := congrArg (fun l ↦ (List.map Prod.fst l).count k) heq
  simp only [List.map_append, List.map_cons, List.count_append, keys_remove, hl'_count,
    List.count_cons_of_ne hm, List.count_erase_self, Nat.zero_add] at hcount
  have hzero : (l.map Prod.fst).count k = 0 := by omega
  have hnone := lookup_eq_none_iff_not_mem_keys.mpr (List.count_eq_zero.mp hzero)
  rw [remove_eq_self hnone] at heq
  have hlength := congrArg List.length heq
  simp only [List.length_append, List.length_cons] at hlength
  omega

theorem others_remove (k : κ) (l : List (κ × ν)) : others k (remove k l) = others k l := by
  induction l with
  | nil => rfl
  | cons m l ih =>
    by_cases hm : m.1 = k
    · obtain ⟨i, w⟩ := m
      obtain rfl : i = k := hm
      rw [remove_cons_self]
      simp [others]
    · rw [remove_cons_of_ne hm]
      simp only [others, List.filter_cons] at ih ⊢
      rw [ih]

theorem others_put (k : κ) (v : ν) (l : List (κ × ν)) : others k (put k v l) = others k l := by
  have happend : others k (put k v l) = others k (remove k l) ++ others k [(k, v)] :=
    List.filter_append _ _
  have hself : others k [(k, v)] = [] := by simp [others]
  rw [happend, others_remove, hself, List.append_nil]

section Apart

variable {sim : κ → κ → Bool}

def Apart (sim : κ → κ → Bool) (l : List (κ × ν)) : Prop :=
  l.Pairwise fun m n ↦ sim m.1 n.1 = false

def Fits (sim : κ → κ → Bool) (k : κ) (l : List (κ × ν)) : Prop :=
  (∃ v, l.lookup k = some v) ∨ ∀ m ∈ l, sim k m.1 = false

omit [LawfulBEq κ] in
theorem Apart.remove (h : Apart sim l) (k : κ) : Apart sim (remove k l) :=
  List.Pairwise.sublist (remove_sublist k l) h

theorem Apart.not_sim_of_mem_remove (hcomm : ∀ a b, sim a b = sim b a) (h : Apart sim l)
    (hv : l.lookup k = some v) : ∀ m ∈ Assoc.remove k l, sim k m.1 = false := by
  induction l with
  | nil => cases hv
  | cons n l ih =>
    obtain ⟨hn, hl⟩ := List.pairwise_cons.mp h
    obtain ⟨i, w⟩ := n
    by_cases hi : i = k
    · subst hi
      rw [remove_cons_self]
      exact hn
    · rw [remove_cons_of_ne hi]
      rw [lookup_cons_of_ne hi] at hv
      refine List.forall_mem_cons.mpr ⟨?_, ih hl hv⟩
      have hmem : (k, v) ∈ l := by
        obtain ⟨l₁, l₂, rfl, _⟩ := List.lookup_eq_some_iff.mp hv
        simp
      rw [hcomm]
      exact hn _ hmem

theorem Fits.not_sim (hcomm : ∀ a b, sim a b = sim b a) (h : Apart sim l) (hk : Fits sim k l) :
    ∀ m ∈ Assoc.remove k l, sim k m.1 = false := by
  rcases hk with ⟨v, hv⟩ | hk
  · exact h.not_sim_of_mem_remove hcomm hv
  · exact fun m hm ↦ hk m ((remove_sublist k l).subset hm)

theorem Apart.put (hcomm : ∀ a b, sim a b = sim b a) (h : Apart sim l) (hk : Fits sim k l)
    (v : ν) : Apart sim (put k v l) := by
  refine List.pairwise_append.mpr ⟨h.remove k, List.pairwise_singleton _ _, ?_⟩
  intro m hm n hn
  obtain rfl := List.mem_singleton.mp hn
  rw [hcomm]
  exact hk.not_sim hcomm h m hm

theorem Apart.lookup_remove_self (hrefl : ∀ a, sim a a = true) (hcomm : ∀ a b, sim a b = sim b a)
    (h : Apart sim l) (k : κ) : (Assoc.remove k l).lookup k = none := by
  cases hv : l.lookup k with
  | none => rw [remove_eq_self hv, hv]
  | some v =>
    apply List.lookup_eq_none_iff.mpr
    intro m hm
    apply bne_iff_ne.mpr
    intro heq
    subst heq
    have hne := h.not_sim_of_mem_remove hcomm hv m hm
    rw [hrefl] at hne
    cases hne

end Apart

end Parodus.Foundation.Assoc
