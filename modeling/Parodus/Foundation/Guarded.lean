namespace Parodus.Foundation.Guarded

/-- What an action has to do with a lock: an access is only made while it is held. -/
inductive Use
  | lock
  | unlock
  | access
  | other

variable {α : Type} {use : α → Use} {held : Bool} {l l' : List α}

/-- Whether the lock is held after an action, if the action keeps the rules. -/
def Use.next : Use → Bool → Option Bool
  | lock, false => some true
  | unlock, true => some false
  | access, true => some true
  | other, held => some held
  | _, _ => none

def heldAfter (use : α → Use) : Bool → List α → Option Bool
  | held, [] => some held
  | held, a :: l => ((use a).next held).bind fun held ↦ heldAfter use held l

theorem heldAfter_append : heldAfter use held (l ++ l') =
    (heldAfter use held l).bind fun held ↦ heldAfter use held l' := by
  induction l generalizing held with
  | nil => rfl
  | cons a l ih =>
    rw [List.cons_append, heldAfter, heldAfter]
    cases (use a).next held with
    | none => rfl
    | some held => exact ih

theorem heldAfter_access (h : ∀ a ∈ l, use a = .access) : heldAfter use true l = some true := by
  induction l with
  | nil => rfl
  | cons a l ih =>
    rw [heldAfter, h a List.mem_cons_self]
    exact ih fun b hb ↦ h b (List.mem_cons_of_mem a hb)

end Parodus.Foundation.Guarded
