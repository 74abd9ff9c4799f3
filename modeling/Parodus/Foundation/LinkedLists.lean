import Mathlib.Logic.Function.Basic
import Parodus.Foundation.Ledger

namespace Parodus.Foundation

/-- A node of a singly linked list, with the pointer to the next one. -/
structure Cell (τ : Type*) where
  val : τ
  next : Option ℕ
  deriving DecidableEq

/-- The nodes that are allocated, by their addresses. -/
abbrev Cells (τ : Type*) := ℕ → Option (Cell τ)

namespace Cells

variable {τ : Type*}

def alloc (a : ℕ) (v : τ) (m : Cells τ) : Cells τ := Function.update m a (some ⟨v, none⟩)

def free (a : ℕ) (m : Cells τ) : Cells τ := Function.update m a none

def setNext (a : ℕ) (next : Option ℕ) (m : Cells τ) : Cells τ :=
  Function.update m a ((m a).map fun c ↦ { c with next := next })

def setVal (a : ℕ) (v : τ) (m : Cells τ) : Cells τ :=
  Function.update m a ((m a).map fun c ↦ { c with val := v })

def ids (nodes : List (Owned τ)) : List ℕ := nodes.map Owned.id

/-- From `p` on come these nodes, and then `q`. -/
def Segment (m : Cells τ) : Option ℕ → List (Owned τ) → Option ℕ → Prop
  | p, [], q => p = q
  | p, x :: nodes, q =>
    p = some x.id ∧ ∃ next, m x.id = some ⟨x.val, next⟩ ∧ Segment m next nodes q

/-- The nodes from the head to the null pointer, at addresses of their own. -/
structure Linked (m : Cells τ) (head : Option ℕ) (nodes : List (Owned τ)) : Prop where
  segment : Segment m head nodes none
  nodup : (ids nodes).Nodup

/-- A walk over the list that has passed the front and points to the back. -/
structure Split (m : Cells τ) (nodes front back : List (Owned τ)) (p : Option ℕ) : Prop where
  eq : nodes = front ++ back
  segment : Segment m p back none

variable {m : Cells τ} {head p q next : Option ℕ} {nodes front back : List (Owned τ)}
  {x y : Owned τ} {a b : ℕ} {v : τ} {c : Option (Cell τ)}

@[simp] theorem ids_nil : ids ([] : List (Owned τ)) = [] := rfl

@[simp] theorem ids_cons (x : Owned τ) (nodes : List (Owned τ)) :
    ids (x :: nodes) = x.id :: ids nodes := rfl

@[simp] theorem ids_append (front back : List (Owned τ)) :
    ids (front ++ back) = ids front ++ ids back := List.map_append

theorem mem_ids (h : x ∈ nodes) : x.id ∈ ids nodes := List.mem_map_of_mem h

theorem isSome_setNext :
    ((m.setNext a next) b).isSome = (m b).isSome := by
  unfold setNext
  by_cases h : b = a
  · rw [h, Function.update_self, Option.isSome_map]
  · rw [Function.update_of_ne h]

theorem isSome_setVal : ((m.setVal a v) b).isSome = (m b).isSome := by
  unfold Cells.setVal
  by_cases h : b = a
  · rw [h, Function.update_self, Option.isSome_map]
  · rw [Function.update_of_ne h]

theorem isSome_free : ((m.free a) b).isSome = true ↔ b ≠ a ∧ (m b).isSome = true := by
  unfold free
  by_cases h : b = a
  · rw [h, Function.update_self]
    exact iff_of_false Bool.false_ne_true fun hne ↦ hne.1 rfl
  · rw [Function.update_of_ne h]
    exact (and_iff_right h).symm

theorem isSome_alloc : ((m.alloc a v) b).isSome = true ↔ b = a ∨ (m b).isSome = true := by
  unfold alloc
  by_cases h : b = a
  · rw [h, Function.update_self]
    exact iff_of_true rfl (.inl rfl)
  · rw [Function.update_of_ne h]
    exact (or_iff_right h).symm

theorem alloc_self : (m.alloc a v) a = some ⟨v, none⟩ := Function.update_self ..

theorem segment_append :
    Segment m p (front ++ back) q ↔ ∃ r, Segment m p front r ∧ Segment m r back q := by
  induction front generalizing p with
  | nil =>
    constructor
    · exact fun h ↦ ⟨p, rfl, h⟩
    · intro h
      obtain ⟨r, rfl, hback⟩ := h
      exact hback
  | cons x front ih =>
    constructor
    · intro h
      obtain ⟨hp, next, hcell, hrest⟩ := h
      obtain ⟨r, hfront, hback⟩ := ih.mp hrest
      exact ⟨r, ⟨hp, next, hcell, hfront⟩, hback⟩
    · intro h
      obtain ⟨r, ⟨hp, next, hcell, hfront⟩, hback⟩ := h
      exact ⟨hp, next, hcell, ih.mpr ⟨r, hfront, hback⟩⟩

/-- A change at another address is not seen. -/
theorem segment_update (h : a ∉ ids nodes) :
    Segment (Function.update m a c) p nodes q ↔ Segment m p nodes q := by
  induction nodes generalizing p with
  | nil => exact Iff.rfl
  | cons x nodes ih =>
    rw [ids_cons, List.mem_cons, not_or] at h
    obtain ⟨hx, hnodes⟩ := h
    unfold Segment
    rw [Function.update_of_ne (Ne.symm hx)]
    simp only [ih hnodes]

theorem Segment.cell (h : Segment m p (x :: back) q) :
    p = some x.id ∧ ∃ next, m x.id = some ⟨x.val, next⟩ ∧ Segment m next back q := h

/-- A pointer to no node is null, and a pointer that is null points to none. -/
theorem Segment.eq_nil_iff (h : Segment m p nodes none) : p = none ↔ nodes = [] := by
  cases nodes with
  | nil => exact iff_of_true h rfl
  | cons x nodes =>
    refine iff_of_false ?_ (List.cons_ne_nil _ _)
    rw [h.1]
    exact Option.some_ne_none _

theorem Linked.update (h : Linked m head nodes) (ha : a ∉ ids nodes) :
    Linked (Function.update m a c) head nodes :=
  ⟨(segment_update ha).mpr h.segment, h.nodup⟩

/-- Every node on the list is allocated. -/
theorem Linked.mem (h : Linked m head nodes) (hx : x ∈ nodes) :
    ∃ next, m x.id = some ⟨x.val, next⟩ := by
  obtain ⟨front, back, rfl⟩ := List.append_of_mem hx
  obtain ⟨_, _, hback⟩ := segment_append.mp h.segment
  obtain ⟨_, next, hcell, _⟩ := hback.cell
  exact ⟨next, hcell⟩

theorem Linked.cell_of_mem (h : Linked m head nodes) (ha : a ∈ ids nodes) : ∃ c, m a = some c := by
  obtain ⟨x, hx, rfl⟩ := List.mem_map.mp ha
  obtain ⟨next, hcell⟩ := h.mem hx
  exact ⟨_, hcell⟩

theorem Linked.nodup_parts (h : Linked m head (front ++ x :: back)) :
    x.id ∉ ids front ∧ x.id ∉ ids back ∧ (ids (front ++ back)).Nodup := by
  have hnodup := h.nodup
  rw [ids_append, ids_cons] at hnodup
  have hmiddle := List.nodup_middle.mp hnodup
  rw [List.nodup_cons, List.mem_append, not_or] at hmiddle
  rw [ids_append]
  exact ⟨hmiddle.1.1, hmiddle.1.2, hmiddle.2⟩

theorem Linked.setVal (h : Linked m head (front ++ x :: back)) (v : τ) :
    Linked (m.setVal x.id v) head (front ++ ⟨x.id, v⟩ :: back) := by
  obtain ⟨hfront, hback, _⟩ := h.nodup_parts
  obtain ⟨r, hsegment, hrest⟩ := segment_append.mp h.segment
  obtain ⟨hr, next, hcell, hnext⟩ := hrest.cell
  refine ⟨segment_append.mpr ⟨r, (segment_update hfront).mpr hsegment, hr, next, ?_,
    (segment_update hback).mpr hnext⟩, ?_⟩
  · rw [Cells.setVal, hcell, Function.update_self]
    rfl
  · have hnodup := h.nodup
    rw [ids_append, ids_cons] at hnodup ⊢
    exact hnodup

theorem Linked.split (h : Linked m head nodes) : Split m nodes [] nodes head := ⟨rfl, h.segment⟩

theorem Split.eq_nil (h : Split m nodes front back none) : back = [] :=
  h.segment.eq_nil_iff.mp rfl

/-- A pointer of the walk that is not null points to a node, behind which the walk goes on. -/
theorem Split.cons (h : Split m nodes front back (some a)) :
    ∃ x rest next, back = x :: rest ∧ a = x.id ∧ m a = some ⟨x.val, next⟩ ∧
      Split m nodes (front ++ [x]) rest next := by
  cases back with
  | nil => cases h.segment
  | cons x rest =>
    obtain ⟨ha, next, hcell, hrest⟩ := h.segment.cell
    obtain rfl := Option.some.inj ha
    refine ⟨x, rest, next, rfl, rfl, hcell, ?_, hrest⟩
    rw [List.append_assoc, List.singleton_append]
    exact h.eq

theorem Split.mem (h : Split m nodes front back (some a)) : a ∈ ids nodes := by
  obtain ⟨x, rest, _, rfl, rfl, _, _⟩ := h.cons
  rw [h.eq]
  exact mem_ids (List.mem_append_right _ List.mem_cons_self)

/-- A node of the list points to a node of the list. -/
theorem Linked.next_mem (h : Linked m head nodes) (hx : x ∈ nodes)
    (hcell : m x.id = some ⟨v, some a⟩) : a ∈ ids nodes := by
  obtain ⟨front, back, rfl⟩ := List.append_of_mem hx
  obtain ⟨_, _, hback⟩ := segment_append.mp h.segment
  obtain ⟨_, next, hcell', hrest⟩ := hback.cell
  rw [hcell] at hcell'
  cases hcell'
  have hsplit : Split m (front ++ x :: back) (front ++ [x]) back (some a) := by
    refine ⟨?_, hrest⟩
    rw [List.append_assoc, List.singleton_append]
  exact hsplit.mem

theorem Split.setVal (h : Linked m head (front ++ x :: back)) (hback : Segment m next back none)
    (v : τ) :
    Split (m.setVal x.id v) (front ++ ⟨x.id, v⟩ :: back) (front ++ [⟨x.id, v⟩]) back next := by
  obtain ⟨_, hnot, _⟩ := h.nodup_parts
  refine ⟨?_, (segment_update hnot).mpr hback⟩
  rw [List.append_assoc, List.singleton_append]

/-- A walk sees nothing of what happens at an address that is not on the list. -/
theorem Split.update (h : Split m nodes front back p) (ha : a ∉ ids nodes) :
    Split (Function.update m a c) nodes front back p := by
  refine ⟨h.eq, (segment_update ?_).mpr h.segment⟩
  rw [h.eq, ids_append] at ha
  exact fun hback ↦ ha (List.mem_append_right _ hback)

/-- The first node is taken off the list. -/
theorem Linked.removeHead (h : Linked m head (x :: back)) (hcell : m x.id = some ⟨v, next⟩) :
    Linked (m.free x.id) next back := by
  have hsplit : Linked m head ([] ++ x :: back) := h
  obtain ⟨_, hback, hnodup⟩ := hsplit.nodup_parts
  obtain ⟨_, next', hcell', hnext⟩ := h.segment.cell
  rw [hcell] at hcell'
  cases hcell'
  exact ⟨(segment_update hback).mpr hnext, hnodup⟩

/-- A node is taken off the list behind another one. -/
theorem Linked.remove (h : Linked m head (front ++ y :: x :: back))
    (hcell : m x.id = some ⟨v, next⟩) :
    Linked ((m.setNext y.id next).free x.id) head (front ++ y :: back) := by
  obtain ⟨hyfront, hyback, _⟩ := h.nodup_parts
  rw [ids_cons, List.mem_cons, not_or] at hyback
  obtain ⟨hyx, hyback⟩ := hyback
  have hsplit : front ++ y :: x :: back = (front ++ [y]) ++ x :: back := by
    rw [List.append_assoc, List.singleton_append]
  have hx := h
  rw [hsplit] at hx
  obtain ⟨hxfront, hxback, hnodup⟩ := hx.nodup_parts
  rw [ids_append, List.mem_append, not_or] at hxfront
  obtain ⟨r, hfront, hrest⟩ := segment_append.mp h.segment
  obtain ⟨hr, _, hycell, hrest⟩ := hrest.cell
  obtain ⟨_, next', hcell', hback⟩ := hrest.cell
  rw [hcell] at hcell'
  cases hcell'
  refine ⟨segment_append.mpr ⟨r, ?_, hr, next, ?_, ?_⟩, ?_⟩
  · exact (segment_update hxfront.1).mpr ((segment_update hyfront).mpr hfront)
  · rw [Cells.free, Function.update_of_ne hyx, Cells.setNext, Function.update_self, hycell]
    rfl
  · exact (segment_update hxback).mpr ((segment_update hyback).mpr hback)
  · rwa [List.append_assoc, List.singleton_append] at hnodup

/-- A node becomes the list. -/
theorem Linked.first (hcell : m x.id = some ⟨x.val, none⟩) : Linked m (some x.id) [x] :=
  ⟨⟨rfl, none, hcell, rfl⟩, List.nodup_singleton _⟩

/-- A node is put behind the last one. -/
theorem Linked.append (h : Linked m head (front ++ [y])) (hcell : m x.id = some ⟨x.val, none⟩)
    (hx : x.id ∉ ids (front ++ [y])) :
    Linked (m.setNext y.id (some x.id)) head (front ++ [y] ++ [x]) := by
  obtain ⟨hyfront, _, _⟩ := h.nodup_parts
  obtain ⟨r, hfront, hrest⟩ := segment_append.mp h.segment
  obtain ⟨hr, _, hycell, _⟩ := hrest.cell
  have hxy : x.id ≠ y.id := by
    intro heq
    apply hx
    rw [heq]
    exact mem_ids (List.mem_append_right _ List.mem_cons_self)
  constructor
  · rw [List.append_assoc]
    refine segment_append.mpr ⟨r, (segment_update hyfront).mpr hfront, hr, some x.id, ?_, rfl,
      none, ?_, rfl⟩
    · rw [Cells.setNext, Function.update_self, hycell]
      rfl
    · rw [Cells.setNext, Function.update_of_ne hxy]
      exact hcell
  · rw [ids_append, List.nodup_append_comm]
    exact List.nodup_cons.mpr ⟨hx, h.nodup⟩

end Cells

end Parodus.Foundation
