import Mathlib.Data.List.TakeWhile

namespace Parodus.Foundation.Segments

variable {α : Type*} [DecidableEq α] {sep : α} {s segment segment' rest rest' : List α}

/-- The end of a list, or what begins with a separator. -/
def Closed (sep : α) (rest : List α) : Prop := rest = [] ∨ ∃ rest', rest = sep :: rest'

theorem takeWhile_closed (hsegment : sep ∉ segment) (hrest : Closed sep rest) :
    (segment ++ rest).takeWhile (· ≠ sep) = segment := by
  have hall : ∀ c ∈ segment, decide (c ≠ sep) = true :=
    fun c hc ↦ decide_eq_true (ne_of_mem_of_not_mem hc hsegment)
  rw [List.takeWhile_append_of_pos hall]
  obtain rfl | ⟨rest', rfl⟩ := hrest
  · rw [List.takeWhile_nil, List.append_nil]
  · simp

theorem dropWhile_closed (hsegment : sep ∉ segment) (hrest : Closed sep rest) :
    (segment ++ rest).dropWhile (· ≠ sep) = rest := by
  have hall : ∀ c ∈ segment, decide (c ≠ sep) = true :=
    fun c hc ↦ decide_eq_true (ne_of_mem_of_not_mem hc hsegment)
  rw [List.dropWhile_append_of_pos hall]
  obtain rfl | ⟨rest', rfl⟩ := hrest
  · rfl
  · simp

theorem not_mem_takeWhile (sep : α) (s : List α) : sep ∉ s.takeWhile (· ≠ sep) := by
  intro hmem
  simpa using List.mem_takeWhile_imp hmem

theorem closed_dropWhile (sep : α) (s : List α) : Closed sep (s.dropWhile (· ≠ sep)) := by
  have hhead := List.head?_dropWhile_not (· ≠ sep) s
  cases hdrop : s.dropWhile (· ≠ sep) with
  | nil => exact .inl rfl
  | cons c rest =>
    rw [hdrop] at hhead
    have hc : c = sep := by simpa using hhead
    exact .inr ⟨rest, by rw [hc]⟩

theorem segment_unique (h : segment ++ rest = segment' ++ rest') (hsegment : sep ∉ segment)
    (hrest : Closed sep rest) (hsegment' : sep ∉ segment') (hrest' : Closed sep rest') :
    segment = segment' ∧ rest = rest' := by
  have heq : segment = segment' := by
    rw [← takeWhile_closed hsegment hrest, h, takeWhile_closed hsegment' hrest']
  exact ⟨heq, List.append_cancel_left (heq ▸ h)⟩

/-- What stands between the first and the second separator, if there is a first. -/
def between (sep : α) (s : List α) : Option (List α) :=
  match s.dropWhile (· ≠ sep) with
  | [] => none
  | _ :: rest => some (rest.takeWhile (· ≠ sep))

/-- The first segment that is not empty, and what follows the separator that ends it. -/
def token (sep : α) (s : List α) : Option (List α × List α) :=
  match s.dropWhile (· = sep) with
  | [] => none
  | c :: rest =>
    some ((c :: rest).takeWhile (· ≠ sep), ((c :: rest).dropWhile (· ≠ sep)).tail)

theorem between_append (hsegment : sep ∉ segment) (hsegment' : sep ∉ segment')
    (hrest : Closed sep rest) :
    between sep (segment ++ sep :: (segment' ++ rest)) = some segment' := by
  rw [between, dropWhile_closed hsegment (.inr ⟨_, rfl⟩)]
  exact congrArg some (takeWhile_closed hsegment' hrest)

theorem token_append (hne : segment ≠ []) (hsegment : sep ∉ segment) (hrest : Closed sep rest) :
    token sep (segment ++ rest) = some (segment, rest.tail) := by
  obtain ⟨c, cs, rfl⟩ := List.exists_cons_of_ne_nil hne
  have hc : c ≠ sep := fun heq ↦ hsegment (heq ▸ List.mem_cons_self)
  have hdrop : (c :: cs ++ rest).dropWhile (· = sep) = c :: (cs ++ rest) := by simp [hc]
  rw [token, hdrop]
  dsimp only
  rw [← List.cons_append, takeWhile_closed hsegment hrest, dropWhile_closed hsegment hrest]

theorem between_eq_some_iff : between sep s = some segment ↔
    ∃ front rest, sep ∉ front ∧ sep ∉ segment ∧ Closed sep rest ∧
      s = front ++ sep :: (segment ++ rest) := by
  constructor
  · intro h
    have hsplit : s.takeWhile (· ≠ sep) ++ s.dropWhile (· ≠ sep) = s :=
      List.takeWhile_append_dropWhile
    obtain hnil | ⟨rest, hrest⟩ := closed_dropWhile sep s
    · rw [between, hnil] at h
      cases h
    · rw [between, hrest] at h
      obtain rfl := Option.some.inj h
      refine ⟨s.takeWhile (· ≠ sep), rest.dropWhile (· ≠ sep), not_mem_takeWhile sep s,
        not_mem_takeWhile sep rest, closed_dropWhile sep rest, ?_⟩
      rw [List.takeWhile_append_dropWhile, ← hrest, hsplit]
  · rintro ⟨front, rest, hfront, hsegment, hrest, rfl⟩
    exact between_append hfront hsegment hrest

theorem token_cons_sep (s : List α) : token sep (sep :: s) = token sep s := by
  have hdrop : (sep :: s).dropWhile (· = sep) = s.dropWhile (· = sep) := by simp
  rw [token, token, hdrop]

theorem token_tail (hrest : Closed sep rest) : token sep rest.tail = token sep rest := by
  obtain rfl | ⟨rest', rfl⟩ := hrest
  · rfl
  · rw [List.tail_cons, token_cons_sep]

theorem token_ne_nil (h : token sep s = some (segment, rest)) : segment ≠ [] := by
  have hhead := List.head?_dropWhile_not (· = sep) s
  cases hdrop : s.dropWhile (· = sep) with
  | nil =>
    rw [token, hdrop] at h
    cases h
  | cons c cs =>
    rw [hdrop] at hhead
    have hc : c ≠ sep := by simpa using hhead
    rw [token, hdrop] at h
    obtain ⟨rfl, _⟩ := Prod.mk.inj (Option.some.inj h)
    simp [hc]

end Parodus.Foundation.Segments
