import Parodus.Foundation.Bytes
import Parodus.Foundation.Streaks
import Parodus.Token.Records

namespace Parodus.Token.Reading

open Foundation Foundation.Access

/-- The turns of the loop of `find_seq_num` from position `i` on, with the digits counted
right before it. -/
def findSeqNumLoop (rrPtr : Foundation.Bytes) : ℕ → ℕ → ℕ → Access ℕ ℤ
  | 0, _, _ => pure (-1)
  | turns + 1, i, digitCt => do
    let c ← read rrPtr i
    if c = ':' then pure (if 2 ≤ digitCt then i - 2 else -2)
    else findSeqNumLoop rrPtr turns (i + 1) (if isDigit c then digitCt + 1 else 0)

/-- `find_seq_num` with every read of the record. -/
def findSeqNum (rrPtr : Foundation.Bytes) (rrlen : ℤ) : Access ℕ ℤ :=
  findSeqNumLoop rrPtr rrlen.toNat 0 0

/-- The digits in front of the colon. -/
def readDigits (rrPtr : Foundation.Bytes) : Access ℕ ℤ := do
  let c ← read rrPtr 0
  if isDigit c then do
    let hi := digitValue c
    let c ← read rrPtr 1
    if isDigit c then pure (10 * hi + digitValue c) else pure (-1)
  else pure (-1)

/-- `get_rr_seq_num` with every read of the record. -/
def getRrSeqNum (rrPtr : Foundation.Bytes) (rrlen : ℤ) : Access ℕ ℤ :=
  if rrlen < 3 then pure (-1)
  else do
    let c ← read rrPtr 2
    if c ≠ ':' then pure (-1) else readDigits rrPtr

/-- The text from a position on. -/
def behind (rrPtr : Foundation.Bytes) (p : ℕ) : Foundation.Bytes := fun i ↦ rrPtr (p + i)

structure FirstColon (rrPtr : Foundation.Bytes) (rrlen : ℤ) (k : ℕ) : Prop where
  lt : (k : ℤ) < rrlen
  colon : rrPtr k = ':'
  first : ∀ j < k, rrPtr j ≠ ':'

/-- Two digits from a position on. -/
structure TwoDigits (rrPtr : Foundation.Bytes) (p : ℕ) : Prop where
  hi : isDigit (rrPtr p) = true
  lo : isDigit (rrPtr (p + 1)) = true

/-- The two functions agree on the number of a record. -/
structure SeqNumRight (rrPtr : Foundation.Bytes) (rrlen : ℤ) : Prop where
  found : ∀ p : ℕ, (findSeqNum rrPtr rrlen).value = p ↔
    TwoDigits rrPtr p ∧ FirstColon rrPtr rrlen (p + 2)
  number : ∀ p : ℕ, (findSeqNum rrPtr rrlen).value = p → ∃ seqNum : ℕ, seqNum ≤ 99 ∧
    seqNum = 10 * digitValue (rrPtr p) + digitValue (rrPtr (p + 1)) ∧
      (getRrSeqNum (behind rrPtr p) (rrlen - p)).value = seqNum
  missing : (findSeqNum rrPtr rrlen).value = -1 ↔ ∀ i : ℕ, (i : ℤ) < rrlen → rrPtr i ≠ ':'
  invalid : (findSeqNum rrPtr rrlen).value = -2 ↔
    ∃ k, FirstColon rrPtr rrlen k ∧ ∀ p, k = p + 2 → ¬ TwoDigits rrPtr p
  range : -2 ≤ (findSeqNum rrPtr rrlen).value
  reads : Within (fun i : ℕ ↦ (i : ℤ) < rrlen) (findSeqNum rrPtr rrlen)
  readsBehind : ∀ p : ℕ,
    Within (fun i : ℕ ↦ (p + i : ℤ) < rrlen) (getRrSeqNum (behind rrPtr p) (rrlen - p))

variable {rrPtr : Foundation.Bytes} {rrlen ret : ℤ} {i p k turns digitCt : ℕ}

/-- Two counted digits are the two positions before. -/
theorem two_le_iff (h : Streak isDigit rrPtr i digitCt) :
    2 ≤ digitCt ↔ ∃ p, i = p + 2 ∧ TwoDigits rrPtr p := by
  rw [h.le_iff]
  constructor
  · rintro ⟨hle, hall⟩
    exact ⟨i - 2, by omega, hall _ (by omega) (by omega), hall _ (by omega) (by omega)⟩
  · rintro ⟨p, rfl, hdigits⟩
    refine ⟨Nat.le_add_left 2 p, fun j hj hle ↦ ?_⟩
    obtain rfl | rfl : j = p ∨ j = p + 1 := by omega
    · exact hdigits.hi
    · exact hdigits.lo

/-- There is only one first colon. -/
theorem FirstColon.eq (hi : FirstColon rrPtr rrlen i) (hk : FirstColon rrPtr rrlen k) : i = k := by
  obtain hlt | heq | hlt := Nat.lt_trichotomy i k
  · exact absurd hi.colon (hk.first i hlt)
  · exact heq
  · exact absurd hk.colon (hi.first k hlt)

/-- What the loop makes of a text. -/
inductive Search (rrPtr : Foundation.Bytes) (rrlen : ℤ) : ℤ → Prop
  | missing (h : ∀ i : ℕ, (i : ℤ) < rrlen → rrPtr i ≠ ':') : Search rrPtr rrlen (-1)
  | invalid (k : ℕ) (h : FirstColon rrPtr rrlen k) (hnot : ∀ p, k = p + 2 → ¬ TwoDigits rrPtr p) :
    Search rrPtr rrlen (-2)
  | found (p : ℕ) (h : FirstColon rrPtr rrlen (p + 2)) (hdigits : TwoDigits rrPtr p) :
    Search rrPtr rrlen p

theorem search_findSeqNumLoop (hturns : rrlen.toNat = i + turns)
    (hstreak : Streak isDigit rrPtr i digitCt) (hnone : ∀ j < i, rrPtr j ≠ ':') :
    Search rrPtr rrlen (findSeqNumLoop rrPtr turns i digitCt).value := by
  induction turns generalizing i digitCt with
  | zero => exact .missing fun j hj ↦ hnone j (by omega)
  | succ turns ih =>
    rw [findSeqNumLoop, value_bind, value_read]
    by_cases hc : rrPtr i = ':'
    · have hfirst : FirstColon rrPtr rrlen i := ⟨by omega, hc, hnone⟩
      rw [if_pos hc, value_pure]
      by_cases hcount : 2 ≤ digitCt
      · obtain ⟨p, rfl, hdigits⟩ := (two_le_iff hstreak).mp hcount
        have hp : ((p + 2 : ℕ) : ℤ) - 2 = p := by omega
        rw [if_pos hcount, hp]
        exact .found p hfirst hdigits
      · rw [if_neg hcount]
        refine .invalid i hfirst fun p hp hdigits ↦ ?_
        exact hcount ((two_le_iff hstreak).mpr ⟨p, hp, hdigits⟩)
    · rw [if_neg hc]
      refine ih (by omega) hstreak.succ fun j hj ↦ ?_
      obtain hlt | rfl := Nat.lt_or_eq_of_le (Nat.le_of_lt_succ hj)
      · exact hnone j hlt
      · exact hc

theorem search_findSeqNum (rrPtr : Foundation.Bytes) (rrlen : ℤ) :
    Search rrPtr rrlen (findSeqNum rrPtr rrlen).value :=
  search_findSeqNumLoop (Nat.zero_add _).symm (Streak.zero _ _)
    fun j hj ↦ absurd hj (Nat.not_lt_zero j)

theorem Search.eq_found_iff (h : Search rrPtr rrlen ret) :
    ret = p ↔ TwoDigits rrPtr p ∧ FirstColon rrPtr rrlen (p + 2) := by
  cases h with
  | missing hnone =>
    exact iff_of_false (by omega) fun h ↦ hnone _ h.2.lt h.2.colon
  | invalid k hk hnot =>
    exact iff_of_false (by omega) fun h ↦ hnot p (hk.eq h.2) h.1
  | found q hq hdigits =>
    constructor
    · intro heq
      obtain rfl : q = p := Int.ofNat_inj.mp heq
      exact ⟨hdigits, hq⟩
    · intro h
      have heq := hq.eq h.2
      omega

theorem Search.eq_missing_iff (h : Search rrPtr rrlen ret) :
    ret = -1 ↔ ∀ i : ℕ, (i : ℤ) < rrlen → rrPtr i ≠ ':' := by
  cases h with
  | missing hnone => exact iff_of_true rfl hnone
  | invalid k hk hnot => exact iff_of_false (by decide) fun h ↦ h k hk.lt hk.colon
  | found q hq hdigits => exact iff_of_false (by omega) fun h ↦ h _ hq.lt hq.colon

theorem Search.eq_invalid_iff (h : Search rrPtr rrlen ret) :
    ret = -2 ↔ ∃ k, FirstColon rrPtr rrlen k ∧ ∀ p, k = p + 2 → ¬ TwoDigits rrPtr p := by
  cases h with
  | missing hnone =>
    refine iff_of_false (by decide) ?_
    rintro ⟨k, hk, _⟩
    exact hnone k hk.lt hk.colon
  | invalid k hk hnot => exact iff_of_true rfl ⟨k, hk, hnot⟩
  | found q hq hdigits =>
    refine iff_of_false (by omega) ?_
    rintro ⟨k, hk, hnot⟩
    exact hnot q (hk.eq hq) hdigits

theorem Search.neg_two_le (h : Search rrPtr rrlen ret) : -2 ≤ ret := by
  cases h with
  | missing hnone => decide
  | invalid k hk hnot => decide
  | found q hq hdigits => omega

theorem within_findSeqNumLoop :
    Within (· < i + turns) (findSeqNumLoop rrPtr turns i digitCt) := by
  induction turns generalizing i digitCt with
  | zero => exact within_pure _
  | succ turns ih =>
    rw [findSeqNumLoop, within_bind, within_read]
    refine ⟨by omega, ?_⟩
    split
    · exact within_pure _
    · rw [Nat.add_comm turns, ← Nat.add_assoc]
      exact ih

theorem value_readDigits (rrPtr : Foundation.Bytes) : (readDigits rrPtr).value =
    if isDigit (rrPtr 0) = true ∧ isDigit (rrPtr 1) = true then
      (10 * digitValue (rrPtr 0) + digitValue (rrPtr 1) : ℤ) else -1 := by
  rw [readDigits, value_bind, value_read]
  by_cases hhi : isDigit (rrPtr 0) = true
  · rw [if_pos hhi, value_bind, value_read]
    by_cases hlo : isDigit (rrPtr 1) = true
    · rw [if_pos hlo, if_pos ⟨hhi, hlo⟩, value_pure]
    · rw [if_neg hlo, if_neg fun h ↦ hlo h.2, value_pure]
  · rw [if_neg hhi, if_neg fun h ↦ hhi h.1, value_pure]

theorem value_getRrSeqNum_long (hlen : 3 ≤ rrlen) : (getRrSeqNum rrPtr rrlen).value =
    if rrPtr 2 = ':' ∧ isDigit (rrPtr 0) = true ∧ isDigit (rrPtr 1) = true then
      (10 * digitValue (rrPtr 0) + digitValue (rrPtr 1) : ℤ) else -1 := by
  rw [getRrSeqNum, if_neg (Int.not_lt.mpr hlen), value_bind, value_read]
  by_cases hcolon : rrPtr 2 = ':'
  · rw [if_neg (not_not.mpr hcolon), value_readDigits]
    simp only [hcolon, true_and]
  · rw [if_pos hcolon, if_neg fun h ↦ hcolon h.1, value_pure]

theorem getRrSeqNum_of_digits (hlen : 3 ≤ rrlen) (hcolon : rrPtr 2 = ':')
    (hdigits : TwoDigits rrPtr 0) :
    (getRrSeqNum rrPtr rrlen).value = 10 * digitValue (rrPtr 0) + digitValue (rrPtr 1) := by
  rw [value_getRrSeqNum_long hlen]
  exact if_pos ⟨hcolon, hdigits.hi, hdigits.lo⟩

theorem within_getRrSeqNum (rrPtr : Foundation.Bytes) (rrlen : ℤ) :
    Within (fun i : ℕ ↦ (i : ℤ) < rrlen) (getRrSeqNum rrPtr rrlen) := by
  unfold getRrSeqNum
  split
  · exact within_pure _
  · rw [within_bind, within_read]
    refine ⟨by omega, ?_⟩
    split
    · exact within_pure _
    · rw [readDigits, within_bind, within_read]
      refine ⟨by omega, ?_⟩
      split
      · rw [within_bind, within_read]
        refine ⟨by omega, ?_⟩
        split
        · exact within_pure _
        · exact within_pure _
      · exact within_pure _

/-- The number of a record is found where it is, and can be read there. -/
theorem seqNum_right (rrPtr : Foundation.Bytes) (rrlen : ℤ) : SeqNumRight rrPtr rrlen where
  found _ := (search_findSeqNum rrPtr rrlen).eq_found_iff
  number p hp := by
    obtain ⟨hdigits, hcolon⟩ := (search_findSeqNum rrPtr rrlen).eq_found_iff.mp hp
    have hlen : 3 ≤ rrlen - p := by
      have hlt := hcolon.lt
      omega
    have hhi : digitValue (rrPtr p) ≤ 9 := digit_le_nine hdigits.hi
    have hlo : digitValue (rrPtr (p + 1)) ≤ 9 := digit_le_nine hdigits.lo
    exact ⟨_, by omega, rfl, getRrSeqNum_of_digits hlen hcolon.colon ⟨hdigits.hi, hdigits.lo⟩⟩
  missing := (search_findSeqNum rrPtr rrlen).eq_missing_iff
  invalid := (search_findSeqNum rrPtr rrlen).eq_invalid_iff
  range := (search_findSeqNum rrPtr rrlen).neg_two_le
  reads := (@within_findSeqNumLoop rrPtr 0 rrlen.toNat 0).mono fun i hi ↦ by omega
  readsBehind p := (within_getRrSeqNum (behind rrPtr p) (rrlen - p)).mono fun i hi ↦ by omega

section Records

variable {rr : Bytes}

theorem value_findSeqNumLoop (h : Foundation.Bytes.Spans rrPtr i rr) :
    (findSeqNumLoop rrPtr rr.length i digitCt).value = findSeqNumFrom i digitCt rr := by
  induction rr generalizing i digitCt with
  | nil => rfl
  | cons c rr ih =>
    obtain ⟨hi, hrest⟩ := h
    rw [List.length_cons, findSeqNumLoop, findSeqNumFrom, value_bind, value_read, hi]
    split
    · rfl
    · exact ih hrest

theorem value_findSeqNum (h : Foundation.Bytes.Spans rrPtr 0 rr) :
    (findSeqNum rrPtr rr.length).value = Token.findSeqNum rr :=
  value_findSeqNumLoop h

theorem value_getRrSeqNum (h : Foundation.Bytes.Spans rrPtr 0 rr) :
    (getRrSeqNum rrPtr rr.length).value = Token.getRrSeqNum rr := by
  obtain _ | ⟨hi, _ | ⟨lo, _ | ⟨c, rest⟩⟩⟩ := rr
  · rfl
  · rfl
  · rfl
  · obtain ⟨hhi, hlo, hc, _⟩ := h
    have hlen : (3 : ℤ) ≤ (hi :: lo :: c :: rest).length := by
      simp only [List.length_cons]
      omega
    rw [value_getRrSeqNum_long hlen, Token.getRrSeqNum, ← hhi, ← hlo, ← hc]

theorem spans_behind (h : Foundation.Bytes.Spans rrPtr 0 rr) (hp : p ≤ rr.length) :
    Foundation.Bytes.Spans (behind rrPtr p) 0 (rr.drop p) := by
  rw [← List.take_append_drop p rr] at h
  have hdrop := h.of_append
  rw [List.length_take, Nat.min_eq_left hp, Nat.zero_add] at hdrop
  exact hdrop.congr fun k _ ↦ by rw [behind, Nat.zero_add]

/-- Where a number is found, it can be read. -/
theorem getRrSeqNum_nonneg (h : Token.findSeqNum rr = p) : 0 ≤ Token.getRrSeqNum (rr.drop p) := by
  have hspans := Foundation.Bytes.spans_getD rr fun _ ↦ Foundation.Bytes.nul
  rw [← value_findSeqNum hspans, (search_findSeqNum _ _).eq_found_iff] at h
  obtain ⟨hdigits, hcolon⟩ := h
  have hlt := hcolon.lt
  have hlen : ((rr.drop p).length : ℤ) = rr.length - p := by
    rw [List.length_drop]
    omega
  rw [← value_getRrSeqNum (spans_behind hspans (by omega)), hlen,
    getRrSeqNum_of_digits (by omega) hcolon.colon ⟨hdigits.hi, hdigits.lo⟩]
  omega

/-- Of the two errors of a record the second, a number that cannot be read, never occurs. -/
theorem seqEntry_eq_none_iff (rdata : Bytes) :
    seqEntry rdata = none ↔ Token.findSeqNum (stripRrData rdata) = -2 := by
  unfold seqEntry
  by_cases hinvalid : Token.findSeqNum (stripRrData rdata) = -2
  · exact iff_of_true (if_pos hinvalid) hinvalid
  · simp only [if_neg hinvalid]
    refine iff_of_false ?_ hinvalid
    by_cases hmissing : Token.findSeqNum (stripRrData rdata) < 0
    · rw [if_pos hmissing]
      exact Option.some_ne_none _
    · obtain ⟨p, hp⟩ := Int.eq_ofNat_of_zero_le (Int.not_lt.mp hmissing)
      have hnumber := getRrSeqNum_nonneg hp
      rw [if_neg hmissing, hp, Int.toNat_natCast, if_neg (Int.not_lt.mpr hnumber)]
      split
      · exact Option.some_ne_none _
      · exact Option.some_ne_none _

end Records

end Parodus.Token.Reading
