import Mathlib.Data.List.TakeDrop

namespace Parodus.Foundation

variable {α : Type*}

/-- A chunk written over the start of what is there. -/
def overlay (base chunk : List α) : List α := chunk ++ base.drop chunk.length

/-- Chunks written over each other, one after the other. -/
def overlays (base : List α) (chunks : List (List α)) : List α := chunks.foldl overlay base

variable {base chunk : List α} {chunks : List (List α)} {x : α} {n : ℕ}

theorem length_overlay_le_iff :
    (overlay base chunk).length ≤ n ↔ base.length ≤ n ∧ chunk.length ≤ n := by
  rw [overlay, List.length_append, List.length_drop]
  omega

/-- What is left of the base is what the chunk does not reach. -/
theorem overlay_eq_chunk_iff : overlay base chunk = chunk ↔ base.length ≤ chunk.length := by
  rw [overlay, List.append_right_eq_self, List.drop_eq_nil_iff]

theorem overlay_append (base rest chunk : List α) :
    overlay (base ++ rest) chunk =
      overlay base chunk ++ rest.drop (chunk.length - base.length) := by
  rw [overlay, overlay, List.drop_append, List.append_assoc]

theorem not_mem_overlay (hbase : x ∉ base) (hchunk : x ∉ chunk) : x ∉ overlay base chunk := by
  rw [overlay, List.mem_append, not_or]
  exact ⟨hchunk, fun h ↦ hbase (List.mem_of_mem_drop h)⟩

theorem overlays_concat (base : List α) (chunks : List (List α)) (chunk : List α) :
    overlays base (chunks ++ [chunk]) = overlay (overlays base chunks) chunk := by
  rw [overlays, List.foldl_append]
  rfl

theorem length_overlays_le_iff :
    (overlays base chunks).length ≤ n ↔ base.length ≤ n ∧ ∀ chunk ∈ chunks, chunk.length ≤ n := by
  induction chunks generalizing base with
  | nil => exact (and_iff_left (List.forall_mem_nil _)).symm
  | cons chunk chunks ih =>
    rw [overlays, List.foldl_cons, List.forall_mem_cons, ← and_assoc, ← length_overlay_le_iff]
    exact ih

/-- Only the last chunk is left if none before it is longer. -/
theorem overlays_eq_last_iff (hlast : chunks.getLast? = some chunk) :
    overlays [] chunks = chunk ↔ ∀ earlier ∈ chunks, earlier.length ≤ chunk.length := by
  obtain ⟨front, rfl⟩ := List.getLast?_eq_some_iff.mp hlast
  rw [overlays_concat, overlay_eq_chunk_iff, length_overlays_le_iff, List.forall_mem_append,
    List.forall_mem_singleton, List.length_nil, and_iff_right (Nat.zero_le _)]
  exact (and_iff_left (Nat.le_refl _)).symm

end Parodus.Foundation
