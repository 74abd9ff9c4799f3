import Mathlib.Data.List.TakeDrop
import Mathlib.Data.Nat.Init
import Mathlib.Order.Basic

namespace Parodus

/-- The bytes of a C string before its terminating zero, one `Char` a byte. -/
abbrev CString := List Char

/-- The value of a `size_t` cast to `int`. -/
def toInt (n : ℕ) : ℤ := Int.bmod n 4294967296

theorem toNat_toInt {n : ℕ} (h : n < 2147483648) : (toInt n).toNat = n := by
  have hb : toInt n = n := Int.bmod_eq_of_le (by omega) (by omega)
  rw [hb, Int.toNat_natCast]

/-- `strcasecmp(s, t) == 0`: upper and lower case of the ASCII letters are equal. -/
def strcaseeq (s t : CString) : Bool := s.map Char.toLower == t.map Char.toLower

@[simp] theorem strcaseeq_self (s : CString) : strcaseeq s s = true := by
  simp [strcaseeq]

theorem strcaseeq_comm (s t : CString) : strcaseeq s t = strcaseeq t s := by
  simp only [strcaseeq, Bool.beq_comm]

def isDigit (c : Char) : Bool := decide ('0' ≤ c) && decide (c ≤ '9')

theorem toNat_of_isDigit {c : Char} (h : isDigit c = true) : 48 ≤ c.toNat ∧ c.toNat ≤ 57 := by
  obtain ⟨hlow, hhigh⟩ := Bool.and_eq_true_iff.mp h
  exact ⟨of_decide_eq_true hlow, of_decide_eq_true hhigh⟩

theorem digit_le_nine {c : Char} (h : isDigit c = true) : c.toNat - '0'.toNat ≤ 9 :=
  Nat.sub_le_sub_right (toNat_of_isDigit h).2 48

structure CharBuf (size : ℕ) where
  text : CString
  fits : text.length < size
  deriving DecidableEq

def CharBuf.empty {n : ℕ} : CharBuf (n + 1) := ⟨[], Nat.succ_pos n⟩

/-- `strncpy` of all but the last byte of the array, which becomes the
terminating zero: what does not fit is cut off. -/
def parStrncpy {n : ℕ} (srcStr : CString) : CharBuf (n + 1) where
  text := srcStr.take n
  fits := by
    simp only [List.length_take]
    omega

theorem parStrncpy_text_eq_iff {n : ℕ} {srcStr : CString} :
    (parStrncpy srcStr : CharBuf (n + 1)).text = srcStr ↔ srcStr.length < n + 1 := by
  simp only [parStrncpy, List.take_eq_self_iff]
  omega

end Parodus
