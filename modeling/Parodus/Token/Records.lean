import Parodus.CString
import Parodus.Foundation.Slots

namespace Parodus.Token

open Foundation

/-- The bytes of a record's data, which may hold zeros. -/
abbrev Bytes := List Char

inductive RrType
  | txt
  | other
  deriving DecidableEq

structure NsRr where
  type : RrType
  rdata : Bytes
  deriving DecidableEq

/-- The records of the answer section as `ns_parserr` delivers them; `none` is
one on which it fails, with -1. -/
abbrev NsMsg := List (Option NsRr)

def maxRrRecs : ℕ := 10

abbrev SeqTable := Slots Bytes (maxRrRecs + 1)

def validB64Char (c : Char) : Bool :=
  (decide ('A' ≤ c) && decide (c ≤ 'Z')) || (decide ('a' ≤ c) && decide (c ≤ 'z')) ||
    isDigit c || c == '/' || c == '+' || c == '-' || c == '_'

def stripLast (rr : Bytes) : Bytes :=
  match rr.getLast? with
  | some c => if validB64Char c then rr else rr.dropLast
  | none => rr

/-- Drops a first byte that is no digit, and up to two last ones outside the
alphabet of the pieces. -/
def stripRrData (rr : Bytes) : Bytes :=
  match rr with
  | c :: rest => stripLast (stripLast (if isDigit c then rr else rest))
  | [] => []

/-- The loop of `find_seq_num` from position `i`, with `digitCt` digits just behind it. -/
def findSeqNumFrom (i digitCt : ℕ) : Bytes → ℤ
  | [] => -1
  | c :: rest =>
    if c = ':' then if 2 ≤ digitCt then i - 2 else -2
    else findSeqNumFrom (i + 1) (if isDigit c then digitCt + 1 else 0) rest

def findSeqNum (rr : Bytes) : ℤ := findSeqNumFrom 0 0 rr

def digitValue (c : Char) : ℕ := c.toNat - '0'.toNat

def getRrSeqNum : Bytes → ℤ
  | hi :: lo :: c :: _ =>
    if c = ':' ∧ isDigit hi = true ∧ isDigit lo = true then
      10 * digitValue hi + digitValue lo
    else -1
  | _ => -1

/-- What the body of the record loop makes of a TXT record: its sequence number,
0 where it has none, and its piece of the token. -/
def seqEntry (rdata : Bytes) : Option (ℕ × Bytes) :=
  let rr := stripRrData rdata
  let seqPos := findSeqNum rr
  if seqPos = -2 then none
  else if seqPos < 0 then some (0, rr)
  else
    let rr := rr.drop seqPos.toNat
    let seqNum := getRrSeqNum rr
    if seqNum < 0 then none
    else if seqNum = 0 then some (0, rr)
    else some (seqNum.toNat, rr.drop 3)

structure Scan where
  numTxtRecs : ℕ
  seqTable : SeqTable

def scanRr (numRrRecs : ℕ) (s : Scan) : Option NsRr → Option Scan
  | none => none
  | some rr =>
    if rr.type ≠ .txt then some s
    else
      match seqEntry rr.rdata with
      | none => none
      | some e => (s.seqTable.place numRrRecs e).map fun t ↦ ⟨s.numTxtRecs + 1, t⟩

/-- What follows the record loop: the one record without a number takes the
first slot, and the slots are checked. -/
def checkSeqTable (s : Scan) : Option Scan :=
  let moved := match s.seqTable.get 0 with
    | some rr => if s.numTxtRecs > 1 then none else some { s with seqTable := s.seqTable.set 1 rr }
    | none => some s
  moved.bind fun s ↦
    if ∀ i < s.numTxtRecs, 1 ≤ i → (s.seqTable.get i).isSome then some s else none

/-- `none` stands for the return value -1. -/
def getRrSeqTable (msgHandle : NsMsg) : Option Scan :=
  if msgHandle.length > maxRrRecs then none
  else
    (msgHandle.foldlM (scanRr msgHandle.length) ⟨0, Slots.empty _ _⟩).bind checkSeqTable

/-- `strncat` copies up to a zero; an empty slot has length 0. -/
def strncat (slot : Option Bytes) : CString := (slot.getD []).takeWhile (· ≠ Char.ofNat 0)

def assembleJwtFromDns (msgHandle : NsMsg) : Option CString :=
  (getRrSeqTable msgHandle).map fun s ↦
    (List.range s.numTxtRecs).flatMap fun i ↦ strncat (s.seqTable.get (i + 1))

end Parodus.Token
