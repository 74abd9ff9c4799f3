import Parodus.Foundation.Segments

namespace Parodus.Foundation.Lines

def crLf : List Char := ['\r', '\n']

/-- The lines of a text, of which each but the last is ended by a carriage return and a line
feed. -/
def split : List Char → List (List Char)
  | [] => [[]]
  | '\r' :: '\n' :: rest => [] :: split rest
  | c :: rest => (split rest).modifyHead (c :: ·)

def fieldLine (name value : List Char) : List Char := name ++ ':' :: ' ' :: value

/-- The fields, each on a line of its own behind what stands in front of them. -/
def block (fields : List (List Char × List Char)) : List Char :=
  fields.flatMap fun f ↦ crLf ++ fieldLine f.1 f.2

/-- The value in a line, if the line is of that field. -/
def valueOf (name line : List Char) : Option (List Char) :=
  if (fieldLine name []).isPrefixOf line then some (line.drop (name.length + 2)) else none

/-- The value of a field is in the first line of it. -/
def field (name text : List Char) : Option (List Char) := (split text).findSome? (valueOf name)

variable {line first name name' value rest : List Char} {lines : List (List Char)}
  {fields : List (List Char × List Char)}

theorem split_cons {c : Char} (hc : c ≠ '\r') :
    split (c :: rest) = (split rest).modifyHead (c :: ·) := by
  rw [split]
  rintro _ heq _
  exact hc heq

theorem split_crLf (rest : List Char) : split (crLf ++ rest) = [] :: split rest := by
  rw [crLf, List.cons_append, List.cons_append, List.nil_append, split]

theorem split_append (h : '\r' ∉ line) :
    split (line ++ rest) = (split rest).modifyHead (line ++ ·) := by
  induction line with
  | nil => exact (congrFun List.modifyHead_id _).symm
  | cons c line ih =>
    obtain ⟨hc, hline⟩ := not_or.mp (mt List.mem_cons.mpr h)
    rw [List.cons_append, split_cons (Ne.symm hc), ih hline, List.modifyHead_modifyHead]
    rfl

/-- Lines without a carriage return are read as they are written. -/
theorem split_lines (hfirst : '\r' ∉ first) (hlines : ∀ line ∈ lines, '\r' ∉ line) :
    split (first ++ lines.flatMap (crLf ++ ·)) = first :: lines := by
  induction lines generalizing first with
  | nil =>
    rw [List.flatMap_nil, split_append hfirst, split, List.modifyHead_cons, List.append_nil]
  | cons line lines ih =>
    obtain ⟨hline, hrest⟩ := List.forall_mem_cons.mp hlines
    rw [List.flatMap_cons, List.append_assoc, split_append hfirst, split_crLf, ih hline hrest,
      List.modifyHead_cons, List.append_nil]

theorem valueOf_fieldLine (name value : List Char) :
    valueOf name (fieldLine name value) = some value := by
  have hprefix : (fieldLine name []).isPrefixOf (fieldLine name value) = true := by
    rw [List.isPrefixOf_iff_prefix]
    exact ⟨value, by simp [fieldLine]⟩
  rw [valueOf, if_pos hprefix, fieldLine, List.drop_append, List.drop_eq_nil_of_le (by omega),
    Nat.add_sub_cancel_left]
  rfl

/-- A name ends at the first colon. -/
theorem valueOf_other (hname : ':' ∉ name) (hname' : ':' ∉ name') (hne : name ≠ name') :
    valueOf name (fieldLine name' value) = none := by
  rw [valueOf, if_neg]
  intro hprefix
  obtain ⟨rest, heq⟩ := List.isPrefixOf_iff_prefix.mp hprefix
  rw [fieldLine, fieldLine, List.append_assoc, List.cons_append] at heq
  exact hne (Segments.segment_unique heq hname (.inr ⟨_, rfl⟩) hname' (.inr ⟨_, rfl⟩)).1

theorem valueOf_nil (name : List Char) : valueOf name [] = none := by
  rw [valueOf, if_neg]
  cases name with
  | nil => exact Bool.false_ne_true
  | cons c name => exact Bool.false_ne_true

/-- A name without a colon, and nothing that ends the line. -/
def Clean (f : List Char × List Char) : Prop := ':' ∉ f.1 ∧ '\r' ∉ f.1 ∧ '\r' ∉ f.2

theorem Clean.fieldLine {f : List Char × List Char} (h : Clean f) : '\r' ∉ fieldLine f.1 f.2 := by
  obtain ⟨_, hname, hvalue⟩ := h
  simp [Lines.fieldLine, hname, hvalue]

theorem findSome?_fieldLine (hname : ':' ∉ name) (hfields : ∀ f ∈ fields, Clean f) :
    (fields.map fun f ↦ fieldLine f.1 f.2).findSome? (valueOf name) = fields.lookup name := by
  induction fields with
  | nil => rfl
  | cons f fields ih =>
    obtain ⟨hf, hrest⟩ := List.forall_mem_cons.mp hfields
    rw [List.map_cons, List.findSome?_cons, List.lookup_cons]
    by_cases heq : name = f.1
    · rw [heq, valueOf_fieldLine, beq_self_eq_true]
    · rw [valueOf_other hname hf.1 heq, beq_eq_false_iff_ne.mpr heq]
      exact ih hrest

/-- A field of the block is read as it was written. -/
theorem field_block (hname : ':' ∉ name) (hfields : ∀ f ∈ fields, Clean f) :
    field name (block fields) = fields.lookup name := by
  have hlines : ∀ line ∈ fields.map (fun f ↦ fieldLine f.1 f.2), '\r' ∉ line := by
    intro line hline
    obtain ⟨f, hf, rfl⟩ := List.mem_map.mp hline
    exact (hfields f hf).fieldLine
  have hsplit := @split_lines [] _ List.not_mem_nil hlines
  rw [List.flatMap_map, List.nil_append] at hsplit
  rw [field, block, hsplit, List.findSome?_cons, valueOf_nil]
  exact findSome?_fieldLine hname hfields

end Parodus.Foundation.Lines
