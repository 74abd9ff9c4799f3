import Mathlib.Data.List.Basic

namespace Parodus.Foundation.Commuting

variable {σ α κ : Type*} {act : σ → α → σ} {key : α → κ} {p : κ → Bool}

/-- Actions of different keys can change places. -/
def Commutes (act : σ → α → σ) (key : α → κ) : Prop :=
  ∀ s a b, key a ≠ key b → act (act s a) b = act (act s b) a

/-- An action of such a key makes up for one of its key before it. -/
def Overrides (act : σ → α → σ) (key : α → κ) (p : κ → Bool) : Prop :=
  ∀ s a b, p (key a) = true → key a = key b → act (act s a) b = act s b

/-- An action passes those of other keys. -/
theorem Commutes.foldl_pass (hcomm : Commutes act key) {a : α} {l : List α}
    (h : ∀ b ∈ l, key b ≠ key a) (s : σ) :
    act (l.foldl act s) a = l.foldl act (act s a) := by
  induction l generalizing s with
  | nil => rfl
  | cons b l ih =>
    obtain ⟨hb, hl⟩ := List.forall_mem_cons.mp h
    rw [List.foldl_cons, ih hl, List.foldl_cons, hcomm s b a hb]

variable [DecidableEq κ]

def ofKey (key : α → κ) (k : κ) (l : List α) : List α := l.filter fun a ↦ key a = k

/-- What is left without the actions that a later one overrides. -/
def lasts (key : α → κ) (p : κ → Bool) : List α → List α
  | [] => []
  | a :: l =>
    if p (key a) = true ∧ ∃ b ∈ l, key b = key a then lasts key p l else a :: lasts key p l

theorem ofKey_cons_self (a : α) (l : List α) :
    ofKey key (key a) (a :: l) = a :: ofKey key (key a) l :=
  List.filter_cons_of_pos (decide_eq_true rfl)

theorem ofKey_cons_of_ne {k : κ} {a : α} (h : key a ≠ k) (l : List α) :
    ofKey key k (a :: l) = ofKey key k l :=
  List.filter_cons_of_neg (by simpa using h)

theorem ofKey_eq_nil {k : κ} {l : List α} (h : ∀ b ∈ l, key b ≠ k) : ofKey key k l = [] := by
  rw [ofKey, List.filter_eq_nil_iff]
  intro b hb
  simpa using h b hb

theorem exists_of_ofKey_ne_nil {k : κ} {l : List α} (h : ofKey key k l ≠ []) :
    ∃ b ∈ l, key b = k := by
  obtain ⟨b, hb⟩ := List.exists_mem_of_ne_nil _ h
  obtain ⟨hmem, hkey⟩ := List.mem_filter.mp hb
  exact ⟨b, hmem, of_decide_eq_true hkey⟩

/-- Lists that agree key by key have the same effect, however the keys are mixed. -/
theorem Commutes.foldl_eq (hcomm : Commutes act key) {l l' : List α}
    (h : ∀ k, ofKey key k l = ofKey key k l') (s : σ) : l.foldl act s = l'.foldl act s := by
  induction l generalizing l' s with
  | nil =>
    obtain rfl : l' = [] := by
      apply List.eq_nil_iff_forall_not_mem.mpr
      intro a ha
      have hmem : a ∈ ofKey key (key a) l' := List.mem_filter.mpr ⟨ha, decide_eq_true rfl⟩
      rw [← h] at hmem
      cases hmem
    rfl
  | cons a l ih =>
    have hfirst := h (key a)
    rw [ofKey_cons_self] at hfirst
    obtain ⟨front, back, rfl, hfront, hkey, hback⟩ := List.filter_eq_cons_iff.mp hfirst.symm
    have hothers : ∀ b ∈ front, key b ≠ key a := by
      intro b hb
      simpa using hfront b hb
    rw [List.foldl_cons, List.foldl_append, List.foldl_cons, hcomm.foldl_pass hothers,
      ← List.foldl_append]
    apply ih
    intro k
    have hk := h k
    rw [ofKey, ofKey, List.filter_append] at hk ⊢
    by_cases hak : key a = k
    · subst hak
      rw [← ofKey, ← ofKey, ← ofKey, ofKey_cons_self, ofKey_cons_self, ofKey_eq_nil hothers,
        List.nil_append] at hk
      rw [← ofKey, ← ofKey, ← ofKey, ofKey_eq_nil hothers, List.nil_append]
      exact List.tail_eq_of_cons_eq hk
    · rw [← ofKey, ← ofKey, ← ofKey, ofKey_cons_of_ne hak, ofKey_cons_of_ne hak] at hk
      exact hk

/-- An action that is overridden has no effect. -/
theorem Overrides.foldl_drop (hover : Overrides act key p) (hcomm : Commutes act key) {a : α}
    {l : List α} (hp : p (key a) = true) (h : ∃ b ∈ l, key b = key a) (s : σ) :
    l.foldl act (act s a) = l.foldl act s := by
  induction l generalizing s with
  | nil =>
    obtain ⟨b, hb, _⟩ := h
    cases hb
  | cons b l ih =>
    rw [List.foldl_cons, List.foldl_cons]
    by_cases hb : key b = key a
    · rw [hover s a b hp hb.symm]
    · rw [hcomm s a b (Ne.symm hb)]
      apply ih
      obtain ⟨c, hc, hkey⟩ := h
      rcases List.mem_cons.mp hc with rfl | hc
      · exact absurd hkey hb
      · exact ⟨c, hc, hkey⟩

theorem Overrides.foldl_lasts (hover : Overrides act key p) (hcomm : Commutes act key)
    (l : List α) (s : σ) : (lasts key p l).foldl act s = l.foldl act s := by
  induction l generalizing s with
  | nil => rfl
  | cons a l ih =>
    unfold lasts
    split
    · rename_i hdrop
      rw [ih, List.foldl_cons, hover.foldl_drop hcomm hdrop.1 hdrop.2]
    · rw [List.foldl_cons, List.foldl_cons, ih]

theorem ofKey_lasts (k : κ) (l : List α) :
    ofKey key k (lasts key p l) =
      if p k = true then (ofKey key k l).getLast?.toList else ofKey key k l := by
  induction l with
  | nil =>
    unfold lasts
    split <;> rfl
  | cons a l ih =>
    unfold lasts
    by_cases hak : key a = k
    · subst hak
      split
      · rename_i hdrop
        obtain ⟨hp, b, hb, hkey⟩ := hdrop
        have hne : ofKey key (key a) l ≠ [] :=
          List.ne_nil_of_mem (List.mem_filter.mpr ⟨hb, decide_eq_true hkey⟩)
        rw [ih, if_pos hp, if_pos hp, ofKey_cons_self, List.getLast?_cons_of_ne_nil hne]
      · rename_i hkept
        rw [ofKey_cons_self, ih, ofKey_cons_self]
        by_cases hp : p (key a) = true
        · have hnil : ofKey key (key a) l = [] := by
            by_contra hne
            exact hkept ⟨hp, exists_of_ofKey_ne_nil hne⟩
          rw [if_pos hp, if_pos hp, hnil]
          rfl
        · rw [if_neg hp, if_neg hp]
    · rw [ofKey_cons_of_ne hak]
      split
      · exact ih
      · rw [ofKey_cons_of_ne hak, ih]

/-- Lists have the same effect that agree in the last action of each key that overrides, and in
all actions of the other keys. -/
theorem Overrides.foldl_eq (hover : Overrides act key p) (hcomm : Commutes act key)
    {l l' : List α}
    (hlast : ∀ k, p k = true → (ofKey key k l).getLast? = (ofKey key k l').getLast?)
    (hall : ∀ k, p k = false → ofKey key k l = ofKey key k l') (s : σ) :
    l.foldl act s = l'.foldl act s := by
  rw [← hover.foldl_lasts hcomm l, ← hover.foldl_lasts hcomm l']
  apply hcomm.foldl_eq
  intro k
  rw [ofKey_lasts, ofKey_lasts]
  cases hp : p k with
  | true => rw [if_pos rfl, if_pos rfl, hlast k hp]
  | false => rw [if_neg Bool.false_ne_true, if_neg Bool.false_ne_true, hall k hp]

end Parodus.Foundation.Commuting
