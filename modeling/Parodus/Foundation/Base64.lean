import Mathlib.Data.List.Basic

namespace Parodus.Foundation.Base64

/-- The character for six bits. -/
def sextet (n : ℕ) : Char :=
  if n < 26 then Char.ofNat ('A'.toNat + n)
  else if n < 52 then Char.ofNat ('a'.toNat + (n - 26))
  else if n < 62 then Char.ofNat ('0'.toNat + (n - 52))
  else if n = 62 then '+'
  else '/'

/-- The character for the six lowest bits. -/
def digit (n : ℕ) : Char := sextet (n % 64)

/-- Three bytes in four characters, the last ones padded. -/
def encode : List Char → List Char
  | a :: b :: c :: rest =>
    digit (a.toNat / 4) :: digit (a.toNat * 16 + b.toNat / 16) ::
      digit (b.toNat * 4 + c.toNat / 64) :: digit c.toNat :: encode rest
  | [a, b] =>
    [digit (a.toNat / 4), digit (a.toNat * 16 + b.toNat / 16), digit (b.toNat * 4), '=']
  | [a] => [digit (a.toNat / 4), digit (a.toNat * 16), '=', '=']
  | [] => []

/-- Lines of a given width, of which the current one takes so many characters more. -/
def wrapFrom (width : ℕ) : ℕ → List Char → List Char
  | _, [] => []
  | 0, c :: s => '\n' :: c :: wrapFrom width (width - 1) s
  | room + 1, c :: s => c :: wrapFrom width room s

def wrap (width : ℕ) (s : List Char) : List Char := wrapFrom width width s

variable {s : List Char}

theorem digit_ne_newline (n : ℕ) : digit n ≠ '\n' := by
  have hsextets : ∀ m < 64, sextet m ≠ '\n' := by decide
  exact hsextets (n % 64) (Nat.mod_lt n (by decide))

theorem newline_not_mem_encode (s : List Char) : '\n' ∉ encode s := by
  induction s using encode.induct with
  | case1 a b c rest ih => simp [encode, ih, (digit_ne_newline _).symm]
  | case2 a b => simp [encode, (digit_ne_newline _).symm]
  | case3 a => simp [encode, (digit_ne_newline _).symm]
  | case4 => simp [encode]

theorem encode_ne_nil (h : s ≠ []) : encode s ≠ [] := by
  cases s using encode.fun_cases with
  | case1 | case2 | case3 => simp [encode]
  | case4 => exact absurd rfl h

theorem filter_wrapFrom (width room : ℕ) (h : '\n' ∉ s) :
    (wrapFrom width room s).filter (· ≠ '\n') = s := by
  induction s generalizing room with
  | nil => cases room <;> rfl
  | cons c s ih =>
    obtain ⟨hc, hs⟩ := List.ne_and_not_mem_of_not_mem_cons h
    have hkept := fun t ↦
      @List.filter_cons_of_pos _ (fun x ↦ decide (x ≠ '\n')) c t (decide_eq_true hc.symm)
    cases room with
    | zero => rw [wrapFrom, List.filter_cons_of_neg (by decide), hkept, ih _ hs]
    | succ room => rw [wrapFrom, hkept, ih _ hs]

/-- Without the ends of its lines the text is as it was. -/
theorem filter_wrap (width : ℕ) (h : '\n' ∉ s) : (wrap width s).filter (· ≠ '\n') = s :=
  filter_wrapFrom width width h

end Parodus.Foundation.Base64
