import Mathlib.Data.List.TakeDrop

namespace Parodus.Foundation

/-- An array of fixed size. -/
structure Buffer (α : Type*) (n : ℕ) where
  elems : List α
  sized : elems.length = n

namespace Buffer

variable {α : Type*} {n i : ℕ}

def fill (n : ℕ) (x : α) : Buffer α n := ⟨List.replicate n x, List.length_replicate⟩

/-- Elements copied to an index on; none of them may come behind the end. -/
def write (buf : Buffer α n) (i : ℕ) (src : List α) : Option (Buffer α n) :=
  if h : i + src.length ≤ n then
    some ⟨buf.elems.take i ++ src ++ buf.elems.drop (i + src.length), by
      rw [List.length_append, List.length_append, List.length_take, List.length_drop, buf.sized]
      omega⟩
  else none

/-- The text stands at the start, with the terminator in all the places behind it. -/
structure Holds (buf : Buffer α n) (x : α) (text : List α) : Prop where
  fits : text.length < n
  elems : buf.elems = text ++ List.replicate (n - text.length) x

variable {buf : Buffer α n} {x : α} {text chunk : List α}

theorem holds_fill (x : α) (h : 0 < n) : (fill n x).Holds x [] where
  fits := h
  elems := rfl

theorem write_eq (h : i + chunk.length ≤ n) {buf' : Buffer α n}
    (helems : buf.elems.take i ++ chunk ++ buf.elems.drop (i + chunk.length) = buf'.elems) :
    buf.write i chunk = some buf' := by
  rw [write, dif_pos h]
  cases buf'
  cases helems
  rfl

/-- A chunk that leaves room for the terminator is appended to the text. -/
theorem Holds.write_chunk (h : buf.Holds x text) (hfits : (text ++ chunk).length < n) :
    ∃ buf', buf.write text.length chunk = some buf' ∧ buf'.Holds x (text ++ chunk) := by
  have hlength : text.length + chunk.length ≤ n := by
    rw [List.length_append] at hfits
    omega
  have hsized : (text ++ chunk ++ List.replicate (n - (text ++ chunk).length) x).length = n := by
    rw [List.length_append, List.length_replicate]
    omega
  have hrest : buf.elems.drop (text.length + chunk.length) =
      List.replicate (n - (text ++ chunk).length) x := by
    rw [h.elems, List.drop_append, List.drop_eq_nil_of_le (Nat.le_add_right _ _), List.nil_append,
      List.drop_replicate, Nat.add_sub_cancel_left, Nat.sub_sub, List.length_append]
  refine ⟨⟨_, hsized⟩, write_eq hlength ?_, hfits, rfl⟩
  rw [hrest, h.elems, List.take_left]

/-- The terminator stands behind the text already. -/
theorem Holds.write_end (h : buf.Holds x text) : buf.write text.length [x] = some buf := by
  apply write_eq h.fits
  have hrest : n - text.length = n - text.length - 1 + 1 := by
    have hfits := h.fits
    omega
  rw [h.elems, List.take_left, hrest, List.replicate_succ, List.drop_append]
  rw [List.drop_eq_nil_of_le (Nat.le_add_right _ _), List.length_singleton,
    Nat.add_sub_cancel_left, List.drop_succ_cons, List.drop_zero, List.nil_append,
    List.append_assoc, List.singleton_append]

/-- The text stands at the start and the terminator behind it, whatever follows. -/
structure Starts (buf : Buffer α n) (x : α) (text : List α) : Prop where
  elems : ∃ rest, buf.elems = text ++ x :: rest
  clean : x ∉ text

theorem starts_write_end (buf : Buffer α n) (x : α) (h : 0 < n) :
    ∃ buf', buf.write 0 [x] = some buf' ∧ buf'.Starts x [] := by
  have hsized : (x :: buf.elems.drop 1).length = n := by
    rw [List.length_cons, List.length_drop, buf.sized]
    omega
  exact ⟨⟨_, hsized⟩, write_eq h rfl, ⟨_, rfl⟩, List.not_mem_nil⟩

/-- A chunk and the terminator behind the text. -/
theorem Starts.append (h : buf.Starts x text) (hchunk : x ∉ chunk)
    (hfits : (text ++ chunk).length < n) :
    ∃ buf', buf.write text.length (chunk ++ [x]) = some buf' ∧ buf'.Starts x (text ++ chunk) := by
  obtain ⟨⟨rest, helems⟩, hclean⟩ := h
  rw [List.length_append] at hfits
  have hfront : buf.elems.take text.length = text := by rw [helems, List.take_left]
  have hlength : text.length + (chunk ++ [x]).length ≤ n := by
    rw [List.length_append, List.length_singleton]
    omega
  have hsized : (text ++ chunk ++
      x :: buf.elems.drop (text.length + (chunk ++ [x]).length)).length = n := by
    rw [List.length_append, List.length_append, List.length_cons, List.length_drop, buf.sized,
      List.length_append, List.length_singleton]
    omega
  refine ⟨⟨_, hsized⟩, write_eq hlength ?_, ⟨_, rfl⟩, ?_⟩
  · rw [hfront]
    simp only [List.append_assoc, List.singleton_append]
  · rw [List.mem_append]
    exact not_or.mpr ⟨hclean, hchunk⟩

theorem Starts.takeWhile [DecidableEq α] (h : buf.Starts x text) :
    buf.elems.takeWhile (fun y ↦ decide (y ≠ x)) = text := by
  obtain ⟨⟨rest, helems⟩, hclean⟩ := h
  have hall : ∀ y ∈ text, decide (y ≠ x) = true := by
    intro y hy
    exact decide_eq_true fun heq ↦ hclean (heq ▸ hy)
  rw [helems, List.takeWhile_append_of_pos hall, List.takeWhile_cons_of_neg (by simp),
    List.append_nil]

end Buffer

end Parodus.Foundation
