import Mathlib.Data.List.TakeWhile
import Parodus.Foundation.Access

namespace Parodus.Foundation

/-- An array of characters at every index; what is behind its end is arbitrary. -/
abbrev Bytes := ℕ → Char

namespace Bytes

open Access

def nul : Char := Char.ofNat 0

/-- The text stands at the index, with a zero behind it. -/
def Holds (b : Bytes) : ℕ → List Char → Prop
  | i, [] => b i = nul
  | i, c :: s => b i = c ∧ c ≠ nul ∧ Holds b (i + 1) s

/-- The characters stand from the index on, with anything behind them. -/
def Spans (b : Bytes) : ℕ → List Char → Prop
  | _, [] => True
  | i, c :: s => b i = c ∧ Spans b (i + 1) s

/-- The characters from the index on before the first that fails the test; at most `fuel`
are read. -/
def readWhile (b : Bytes) (p : Char → Bool) : ℕ → ℕ → Access ℕ (List Char)
  | 0, _ => pure []
  | fuel + 1, i => do
    let c ← read b i
    if p c then (c :: ·) <$> readWhile b p fuel (i + 1) else pure []

def strlen (b : Bytes) (fuel i : ℕ) : Access ℕ ℕ :=
  List.length <$> readWhile b (· ≠ nul) fuel i

/-- The reads of a `strncpy` from the array, which end at a zero. -/
def strncpyFrom (b : Bytes) (n i : ℕ) : Access ℕ (List Char) := readWhile b (· ≠ nul) n i

/-- The index of the first such character before the zero. -/
def strchr (b : Bytes) (c : Char) (fuel i : ℕ) : Access ℕ (Option ℕ) := do
  let a ← readWhile b (fun x ↦ x ≠ c && x ≠ nul) fuel i
  let x ← read b (i + a.length)
  pure (if x = c then some (i + a.length) else none)

/-- The writes of a `strncpy` to the array, padded with zeros. -/
def strncpyTo : ℕ → ℕ → Bytes → List Char → Access ℕ Bytes
  | 0, _, b, _ => pure b
  | n + 1, i, b, s => do
    let b ← write b i (s.headD nul)
    strncpyTo n (i + 1) b s.tail

variable {b b' : Bytes} {c x : Char} {p : Char → Bool} {fuel i j n : ℕ} {a s rest : List Char}

theorem Spans.of_append (h : Spans b i (a ++ s)) : Spans b (i + a.length) s := by
  induction a generalizing i with
  | nil => exact h
  | cons c a ih =>
    have hs := ih h.2
    rwa [Nat.add_assoc, Nat.add_comm 1] at hs

theorem Spans.congr (h : Spans b i s) (heq : ∀ k < s.length, b' (j + k) = b (i + k)) :
    Spans b' j s := by
  induction s generalizing i j with
  | nil => trivial
  | cons c s ih =>
    obtain ⟨hi, hs⟩ := h
    refine ⟨(heq 0 (Nat.succ_pos _)).trans hi, ih hs fun k hk ↦ ?_⟩
    have hsucc := heq (k + 1) (Nat.succ_lt_succ hk)
    rwa [Nat.add_comm k 1, ← Nat.add_assoc, ← Nat.add_assoc] at hsucc

theorem spans_getD (s : List Char) (rest : Bytes) : Spans (fun i ↦ s.getD i (rest i)) 0 s := by
  induction s generalizing rest with
  | nil => trivial
  | cons c s ih =>
    refine ⟨rfl, (ih fun i ↦ rest (i + 1)).congr fun k hk ↦ ?_⟩
    rw [Nat.zero_add, Nat.zero_add, Nat.add_comm 1]
    rfl

theorem Spans.left (h : Spans b i (a ++ s)) : Spans b i a := by
  induction a generalizing i with
  | nil => trivial
  | cons c a ih => exact ⟨h.1, ih h.2⟩

/-- A text with a zero behind it. -/
theorem Spans.holds (h : Spans b i (s ++ [nul])) (hs : nul ∉ s) : Holds b i s := by
  induction s generalizing i with
  | nil => exact h.1
  | cons c s ih =>
    rw [List.mem_cons, not_or] at hs
    exact ⟨h.1, Ne.symm hs.1, ih h.2 hs.2⟩

theorem Holds.zero (h : Holds b i []) : b i = nul := h

theorem Holds.not_mem (h : Holds b i s) : nul ∉ s := by
  induction s generalizing i with
  | nil => exact List.not_mem_nil
  | cons c s ih =>
    obtain ⟨_, hc, hs⟩ := h
    exact List.not_mem_cons_of_ne_of_not_mem hc.symm (ih hs)

theorem Holds.congr (h : Holds b i s) (heq : ∀ k ≤ s.length, b' (j + k) = b (i + k)) :
    Holds b' j s := by
  induction s generalizing i j with
  | nil => exact (heq 0 (Nat.le_refl _)).trans h
  | cons c s ih =>
    obtain ⟨hi, hc, hs⟩ := h
    refine ⟨(heq 0 (Nat.zero_le _)).trans hi, hc, ih hs fun k hk ↦ ?_⟩
    have hsucc := heq (k + 1) (Nat.succ_le_succ hk)
    rwa [Nat.add_comm k 1, ← Nat.add_assoc, ← Nat.add_assoc] at hsucc

theorem Holds.update_of_lt (h : Holds b i s) (hj : j < i) : Holds (Function.update b j x) i s :=
  h.congr fun k _ ↦ Function.update_of_ne (by omega) _ _

theorem Holds.update_of_gt (h : Holds b i s) (hj : i + s.length < j) :
    Holds (Function.update b j x) i s :=
  h.congr fun k _ ↦ Function.update_of_ne (by omega) _ _

theorem Holds.of_append (h : Holds b i (a ++ s)) : Holds b (i + a.length) s := by
  induction a generalizing i with
  | nil => exact h
  | cons c a ih =>
    have hs := ih h.2.2
    rwa [Nat.add_assoc, Nat.add_comm 1] at hs

/-- A zero written into a text cuts it in two. -/
theorem Holds.cut (h : Holds b i (a ++ c :: rest)) :
    Holds (Function.update b (i + a.length) nul) i a ∧
      Holds (Function.update b (i + a.length) nul) (i + a.length + 1) rest := by
  refine ⟨?_, h.of_append.2.2.update_of_lt (Nat.lt_succ_self _)⟩
  induction a generalizing i with
  | nil => exact Function.update_self _ _ _
  | cons d a ih =>
    obtain ⟨hi, hd, hs⟩ := h
    have hlen : i + (d :: a).length = i + 1 + a.length := by
      rw [List.length_cons]
      omega
    rw [hlen]
    exact ⟨(Function.update_of_ne (by omega) _ _).trans hi, hd, ih hs⟩

theorem value_readWhile (h : Holds b i s) (hp : p nul = false) :
    (readWhile b p fuel i).value = (s.take fuel).takeWhile p := by
  induction s generalizing i fuel with
  | nil =>
    cases fuel with
    | zero => rfl
    | succ fuel =>
      rw [readWhile, value_bind, value_read, h.zero, hp]
      rfl
  | cons c s ih =>
    obtain ⟨hi, _, hs⟩ := h
    cases fuel with
    | zero => rfl
    | succ fuel =>
      rw [readWhile, value_bind, value_read, hi, List.take_succ_cons, List.takeWhile_cons]
      split
      · rw [value_map, ih hs]
      · rfl

theorem within_readWhile (h : Holds b i s) (hp : p nul = false) (hn : i + s.length < n) :
    Within (· < n) (readWhile b p fuel i) := by
  induction s generalizing i fuel with
  | nil =>
    cases fuel with
    | zero => exact within_pure _
    | succ fuel =>
      rw [readWhile, within_bind, within_read, value_read, h.zero, hp]
      exact ⟨hn, within_pure _⟩
  | cons c s ih =>
    obtain ⟨hi, _, hs⟩ := h
    rw [List.length_cons] at hn
    cases fuel with
    | zero => exact within_pure _
    | succ fuel =>
      rw [readWhile, within_bind, within_read, value_read]
      refine ⟨by omega, ?_⟩
      split
      · exact ih hs (by omega)
      · exact within_pure _

/-- The character behind those that pass the test is read as well. -/
theorem mem_touched_readWhile (h : Spans b i s) (hp : ∀ c ∈ s, p c = true)
    (hfuel : s.length < fuel) : i + s.length ∈ (readWhile b p fuel i).touched := by
  induction s generalizing i fuel with
  | nil =>
    obtain ⟨fuel, rfl⟩ := Nat.exists_eq_succ_of_ne_zero (Nat.ne_of_gt hfuel)
    exact List.mem_cons_self
  | cons c s ih =>
    obtain ⟨fuel, rfl⟩ := Nat.exists_eq_succ_of_ne_zero (Nat.ne_of_gt (Nat.zero_lt_of_lt hfuel))
    obtain ⟨hi, hs⟩ := h
    obtain ⟨hc, hrest⟩ := List.forall_mem_cons.mp hp
    have hmem := ih hs hrest (Nat.lt_of_succ_lt_succ hfuel)
    rw [Nat.add_assoc, Nat.add_comm 1] at hmem
    rw [readWhile, touched_bind, value_read, hi, if_pos hc]
    exact List.mem_append_right _ hmem

theorem value_strncpyFrom (h : Holds b i s) : (strncpyFrom b n i).value = s.take n := by
  rw [strncpyFrom, value_readWhile h (by decide)]
  refine List.takeWhile_eq_self_iff.mpr fun c hc ↦ ?_
  exact decide_eq_true (ne_of_mem_of_not_mem (List.mem_of_mem_take hc) h.not_mem)

theorem value_strlen (h : Holds b i s) (hfuel : s.length ≤ fuel) :
    (strlen b fuel i).value = s.length := by
  have htext := value_strncpyFrom (n := fuel) h
  rw [List.take_of_length_le hfuel] at htext
  exact congrArg List.length htext

theorem within_strlen (h : Holds b i s) (hn : i + s.length < n) :
    Within (· < n) (strlen b fuel i) :=
  within_map.mpr (within_readWhile h (by decide) hn)

theorem value_strchr (h : Holds b i (a ++ c :: rest)) (ha : c ∉ a) (hfuel : a.length ≤ fuel) :
    (strchr b c fuel i).value = some (i + a.length) := by
  have htext : (readWhile b (fun x ↦ x ≠ c && x ≠ nul) fuel i).value = a := by
    have ha' : ∀ x ∈ a, (x ≠ c && x ≠ nul) = true := fun x hx ↦ by
      rw [decide_eq_true (ne_of_mem_of_not_mem hx ha),
        decide_eq_true (ne_of_mem_of_not_mem (List.mem_append_left _ hx) h.not_mem), Bool.and_self]
    rw [value_readWhile h (by simp), List.take_append, List.take_of_length_le hfuel,
      List.takeWhile_append_of_pos ha']
    cases fuel - a.length with
    | zero => exact List.append_nil a
    | succ k => simp
  rw [strchr, value_bind, value_bind, value_read, htext, value_pure, if_pos h.of_append.1]

theorem value_strchr_of_not_mem (h : Holds b i s) (hs : c ∉ s) (hc : c ≠ nul)
    (hfuel : s.length ≤ fuel) : (strchr b c fuel i).value = none := by
  have htext : (readWhile b (fun x ↦ x ≠ c && x ≠ nul) fuel i).value = s := by
    rw [value_readWhile h (by simp), List.take_of_length_le hfuel]
    refine List.takeWhile_eq_self_iff.mpr fun x hx ↦ ?_
    rw [decide_eq_true (ne_of_mem_of_not_mem hx hs),
      decide_eq_true (ne_of_mem_of_not_mem hx h.not_mem), Bool.and_self]
  have hend : b (i + s.length) = nul := by
    rw [← List.append_nil s] at h
    exact h.of_append
  rw [strchr, value_bind, value_bind, value_read, htext, value_pure, hend, if_neg hc.symm]

theorem within_strchr (h : Holds b i s) (hn : i + s.length < n) :
    Within (· < n) (strchr b c fuel i) := by
  have hp : (nul ≠ c && nul ≠ nul) = false := by simp
  refine within_bind.mpr ⟨within_readWhile h hp hn, within_bind.mpr ⟨?_, within_pure _⟩⟩
  rw [within_read, value_readWhile h hp]
  have hle : ((s.take fuel).takeWhile fun x ↦ x ≠ c && x ≠ nul).length ≤ s.length :=
    Nat.le_trans (List.takeWhile_prefix _).length_le (List.length_take_le' _ _)
  omega

theorem value_strncpyTo_of_lt (hj : j < i) : (strncpyTo n i b s).value j = b j := by
  induction n generalizing i b s with
  | zero => rfl
  | succ n ih =>
    rw [strncpyTo, value_bind, value_write, ih (by omega)]
    exact Function.update_of_ne (by omega) _ _

theorem within_strncpyTo (hn : i + n ≤ j) : Within (· < j) (strncpyTo n i b s) := by
  induction n generalizing i b s with
  | zero => exact within_pure _
  | succ n ih =>
    rw [strncpyTo, within_bind, within_write]
    exact ⟨by omega, ih (by omega)⟩

/-- With a zero at the end, the copied text stands at the index. -/
theorem holds_strncpyTo (hs : nul ∉ s) :
    Holds (Function.update (strncpyTo n i b s).value (i + n) nul) i (s.take n) := by
  induction n generalizing i b s with
  | zero => exact Function.update_self _ _ _
  | succ n ih =>
    have hhead : Function.update (strncpyTo (n + 1) i b s).value (i + (n + 1)) nul i =
        s.headD nul := by
      rw [Function.update_of_ne (by omega), strncpyTo, value_bind, value_write,
        value_strncpyTo_of_lt (Nat.lt_succ_self i)]
      exact Function.update_self _ _ _
    cases s with
    | nil => exact hhead
    | cons c s =>
      have hc : nul ≠ c := List.ne_of_not_mem_cons hs
      refine ⟨hhead, hc.symm, ?_⟩
      have hend : i + (n + 1) = i + 1 + n := by omega
      rw [hend]
      exact ih (List.not_mem_of_not_mem_cons hs)

end Bytes

end Parodus.Foundation
