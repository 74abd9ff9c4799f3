import Mathlib.Data.List.Basic
import Mathlib.Algebra.Order.Group.Int

namespace Parodus.Upstream

def maxSendSize : ℕ := 60 * 1024

inductive OpCode
  | binaryFrame
  | continuationFrame
  deriving DecidableEq

/-- What `__nopoll_conn_send_common` returns for a frame, and `nopoll_conn_flush_writes`
if it is called for it. -/
structure SendCalls where
  bytesSent : ℤ
  flushed : ℤ

structure Frame (α : Type*) where
  opCode : OpCode
  fin : Bool
  payload : List α

/-- The calls write a frame of this length out. -/
def SendCalls.Complete (calls : SendCalls) (lenToSend : ℕ) : Prop :=
  calls.bytesSent = lenToSend ∨ calls.bytesSent ≠ -1 ∧ calls.flushed = lenToSend

instance (calls : SendCalls) (lenToSend : ℕ) : Decidable (calls.Complete lenToSend) :=
  inferInstanceAs (Decidable (_ ∨ _))

/-- Addition of C's `int`. -/
def intAdd (m n : ℤ) : ℤ := (m + n).bmod 4294967296

def lenToSend (length : ℕ) : ℕ := if maxSendSize < length then maxSendSize else length

variable {α : Type*}

def frameOf (frameType : OpCode) (cp : List α) (length : ℕ) : Frame α :=
  ⟨frameType, length - lenToSend length = 0, cp.take (lenToSend length)⟩

theorem intAdd_of_le {m n : ℤ} (hnonneg : 0 ≤ m + n) (hmax : m + n ≤ 2147483647) :
    intAdd m n = m + n := by
  apply Int.bmod_eq_of_le <;> omega

theorem lenToSend_le (length : ℕ) : lenToSend length ≤ length := by
  rw [lenToSend]
  split <;> omega

theorem lenToSend_le_maxSendSize (length : ℕ) : lenToSend length ≤ maxSendSize := by
  rw [lenToSend]
  split <;> omega

theorem lenToSend_pos {length : ℕ} (h : 0 < length) : 0 < lenToSend length := by
  rw [lenToSend, maxSendSize]
  split <;> omega

/-- The turns of the loop from the `n`th on, with the frames handed to nopoll. -/
def sendLoop (calls : ℕ → SendCalls) (n : ℕ) (cp : List α) (length : ℕ) (finalLenSent : ℤ)
    (frameType : OpCode) : List (Frame α) × ℤ :=
  if 0 < length then
    if (calls n).Complete (lenToSend length) then
      let rest := sendLoop calls (n + 1) (cp.drop (lenToSend length)) (length - lenToSend length)
        (intAdd finalLenSent (lenToSend length)) .continuationFrame
      (frameOf frameType cp length :: rest.1, rest.2)
    else ([frameOf frameType cp length], finalLenSent)
  else ([], finalLenSent)
termination_by length
decreasing_by
  have hpos := lenToSend_pos ‹0 < length›
  have hle := lenToSend_le length
  omega

/-- `sendResponse`, where the `n`th frame meets the `n`th of `calls`. -/
def sendResponse (calls : ℕ → SendCalls) (buffer : List α) (length : ℕ) : List (Frame α) × ℤ :=
  sendLoop calls 0 buffer length 0 .binaryFrame

def bytesOf (frames : List (Frame α)) : List α := frames.flatMap Frame.payload

/-- Of frames that meet the calls from the `n`th on, those that are written out. -/
def completed (calls : ℕ → SendCalls) (n : ℕ) : List (Frame α) → List (Frame α)
  | [] => []
  | frame :: frames =>
    if (calls n).Complete frame.payload.length then frame :: completed calls (n + 1) frames
    else completed calls (n + 1) frames

structure CutIntoFrames (calls : ℕ → SendCalls) (buffer : List α) (length : ℕ)
    (frames : List (Frame α)) (ret : ℤ) : Prop where
  size : ∀ frame ∈ frames, 0 < frame.payload.length ∧ frame.payload.length ≤ 61440
  consecutive : bytesOf frames <+: buffer.take length
  opCode : ∀ i frame, frames[i]? = some frame → (frame.opCode = .binaryFrame ↔ i = 0)
  fin : ∀ i frame, frames[i]? = some frame →
    (frame.fin = true ↔ bytesOf (frames.take (i + 1)) = buffer.take length)
  stops : ∀ i frame, frames[i]? = some frame → ¬ (calls i).Complete frame.payload.length →
    i + 1 = frames.length
  whole : (∀ i frame, frames[i]? = some frame → (calls i).Complete frame.payload.length) →
    bytesOf frames = buffer.take length
  total : ret = (bytesOf (completed calls 0 frames)).length
  everything : ret = length ↔ bytesOf (completed calls 0 frames) = buffer.take length

theorem payload_length {cp : List α} {length : ℕ} (h : length ≤ cp.length)
    (frameType : OpCode) : (frameOf frameType cp length).payload.length = lenToSend length := by
  have hle := lenToSend_le length
  simp only [frameOf, List.length_take]
  omega

@[simp] theorem bytesOf_nil : bytesOf ([] : List (Frame α)) = [] := rfl

@[simp] theorem bytesOf_cons (frame : Frame α) (frames : List (Frame α)) :
    bytesOf (frame :: frames) = frame.payload ++ bytesOf frames := rfl

theorem eq_of_getElem?_singleton {a b : α} {i : ℕ} (h : [a][i]? = some b) : i = 0 ∧ a = b := by
  rw [List.getElem?_singleton, Option.ite_none_right_eq_some] at h
  exact ⟨h.1, Option.some.inj h.2⟩

theorem bytesOf_take_isPart (frames : List (Frame α)) (k : ℕ) :
    bytesOf (frames.take k) <+: bytesOf frames := by
  have hsplit : bytesOf (frames.take k) ++ bytesOf (frames.drop k) = bytesOf frames := by
    rw [bytesOf, bytesOf, ← List.flatMap_append, List.take_append_drop, bytesOf]
  exact ⟨_, hsplit⟩

section Loop

/- Every lemma of this section follows the turns of the loop: the buffer is used up, the
frame fails, or it is written out and the loop goes on. -/

variable {calls : ℕ → SendCalls} {n length : ℕ} {cp : List α} {finalLenSent : ℤ}
  {frameType : OpCode}

theorem take_append_take_drop (frameType : OpCode) (cp : List α) (length : ℕ) :
    (frameOf frameType cp length).payload ++
      (cp.drop (lenToSend length)).take (length - lenToSend length) = cp.take length := by
  have hle := lenToSend_le length
  have hsplit : lenToSend length + (length - lenToSend length) = length := by omega
  rw [frameOf, ← List.take_add, hsplit]

theorem length_drop_lenToSend (h : length ≤ cp.length) :
    length - lenToSend length ≤ (cp.drop (lenToSend length)).length := by
  rw [List.length_drop]
  omega

theorem sendLoop_size (h : length ≤ cp.length) :
    ∀ frame ∈ (sendLoop calls n cp length finalLenSent frameType).1,
      0 < frame.payload.length ∧ frame.payload.length ≤ maxSendSize := by
  fun_induction sendLoop calls n cp length finalLenSent frameType with
  | case1 n cp length finalLenSent frameType hpos hcomplete rest ih =>
    intro frame hmem
    obtain rfl | hrest := List.mem_cons.mp hmem
    · rw [payload_length h]
      exact ⟨lenToSend_pos hpos, lenToSend_le_maxSendSize length⟩
    · exact ih (length_drop_lenToSend h) frame hrest
  | case2 n cp length finalLenSent frameType hpos hcomplete =>
    intro frame hmem
    obtain rfl := List.mem_singleton.mp hmem
    rw [payload_length h]
    exact ⟨lenToSend_pos hpos, lenToSend_le_maxSendSize length⟩
  | case3 =>
    intro frame hmem
    cases hmem

theorem sendLoop_consecutive (h : length ≤ cp.length) :
    bytesOf (sendLoop calls n cp length finalLenSent frameType).1 <+: cp.take length := by
  fun_induction sendLoop calls n cp length finalLenSent frameType with
  | case1 n cp length finalLenSent frameType hpos hcomplete rest ih =>
    rw [bytesOf_cons, ← take_append_take_drop frameType]
    exact (List.prefix_append_right_inj _).mpr (ih (length_drop_lenToSend h))
  | case2 n cp length finalLenSent frameType hpos hcomplete =>
    rw [bytesOf_cons, bytesOf_nil, List.append_nil,
      ← take_append_take_drop frameType]
    exact List.prefix_append _ _
  | case3 => exact List.nil_prefix

theorem sendLoop_opCode (i : ℕ) (frame : Frame α)
    (hframe : (sendLoop calls n cp length finalLenSent frameType).1[i]? = some frame) :
    frame.opCode = if i = 0 then frameType else .continuationFrame := by
  fun_induction sendLoop calls n cp length finalLenSent frameType generalizing i with
  | case1 n cp length finalLenSent frameType hpos hcomplete rest ih =>
    cases i with
    | zero =>
      obtain rfl := Option.some.inj hframe
      rfl
    | succ i =>
      have hrest := ih i hframe
      rw [ite_self] at hrest
      rw [hrest, if_neg (Nat.succ_ne_zero i)]
  | case2 n cp length finalLenSent frameType hpos hcomplete =>
    obtain ⟨rfl, rfl⟩ := eq_of_getElem?_singleton hframe
    rfl
  | case3 => cases hframe

/-- A frame ends the buffer when the frames up to it hold as many bytes as the buffer. -/
theorem sendLoop_fin (h : length ≤ cp.length) (i : ℕ) (frame : Frame α)
    (hframe : (sendLoop calls n cp length finalLenSent frameType).1[i]? = some frame) :
    frame.fin = true ↔ (bytesOf
      ((sendLoop calls n cp length finalLenSent frameType).1.take (i + 1))).length = length := by
  fun_induction sendLoop calls n cp length finalLenSent frameType generalizing i with
  | case1 n cp length finalLenSent frameType hpos hcomplete rest ih =>
    have hle := lenToSend_le length
    cases i with
    | zero =>
      obtain rfl := Option.some.inj hframe
      have hfirst : (bytesOf ((frameOf frameType cp length :: rest.1).take 1)).length =
          lenToSend length := by
        rw [List.take_one, List.head?_cons, Option.toList_some, bytesOf_cons, bytesOf_nil,
          List.append_nil, payload_length h]
      rw [hfirst, frameOf, decide_eq_true_iff]
      omega
    | succ i =>
      have hrest : frame.fin = true ↔
          (bytesOf (rest.1.take (i + 1))).length = length - lenToSend length :=
        ih (length_drop_lenToSend h) i hframe
      rw [hrest, List.take_succ_cons, bytesOf_cons, List.length_append, payload_length h]
      omega
  | case2 n cp length finalLenSent frameType hpos hcomplete =>
    have hle := lenToSend_le length
    obtain ⟨rfl, rfl⟩ := eq_of_getElem?_singleton hframe
    rw [List.take_one, List.head?_cons, Option.toList_some, bytesOf_cons, bytesOf_nil,
      List.append_nil, payload_length h, frameOf, decide_eq_true_iff]
    omega
  | case3 => cases hframe

theorem sendLoop_stops (h : length ≤ cp.length) (i : ℕ) (frame : Frame α)
    (hframe : (sendLoop calls n cp length finalLenSent frameType).1[i]? = some frame)
    (hfailed : ¬ (calls (n + i)).Complete frame.payload.length) :
    i + 1 = (sendLoop calls n cp length finalLenSent frameType).1.length := by
  fun_induction sendLoop calls n cp length finalLenSent frameType generalizing i with
  | case1 n cp length finalLenSent frameType hpos hcomplete rest ih =>
    cases i with
    | zero =>
      obtain rfl := Option.some.inj hframe
      rw [payload_length h] at hfailed
      exact absurd hcomplete hfailed
    | succ i =>
      have hnext : n + 1 + i = n + (i + 1) := by omega
      rw [List.length_cons, ih (length_drop_lenToSend h) i hframe (hnext ▸ hfailed)]
  | case2 n cp length finalLenSent frameType hpos hcomplete =>
    obtain ⟨rfl, rfl⟩ := eq_of_getElem?_singleton hframe
    rfl
  | case3 => cases hframe

theorem sendLoop_whole (h : length ≤ cp.length)
    (hcalls : ∀ i frame, (sendLoop calls n cp length finalLenSent frameType).1[i]? = some frame →
      (calls (n + i)).Complete frame.payload.length) :
    bytesOf (sendLoop calls n cp length finalLenSent frameType).1 = cp.take length := by
  fun_induction sendLoop calls n cp length finalLenSent frameType with
  | case1 n cp length finalLenSent frameType hpos hcomplete rest ih =>
    have hrest :
        bytesOf rest.1 = (cp.drop (lenToSend length)).take (length - lenToSend length) := by
      apply ih (length_drop_lenToSend h)
      intro i frame hframe
      have hnext : n + 1 + i = n + (i + 1) := by omega
      exact hnext ▸ hcalls (i + 1) frame hframe
    rw [bytesOf_cons, hrest, take_append_take_drop]
  | case2 n cp length finalLenSent frameType hpos hfailed =>
    have hcomplete := hcalls 0 _ rfl
    rw [payload_length h] at hcomplete
    exact absurd hcomplete hfailed
  | case3 n cp length finalLenSent frameType hpos =>
    rw [Nat.eq_zero_of_not_pos hpos]
    rfl

theorem completed_cons_of_complete {frame : Frame α}
    (h : (calls n).Complete frame.payload.length) (frames : List (Frame α)) :
    completed calls n (frame :: frames) = frame :: completed calls (n + 1) frames := by
  rw [completed, if_pos h]

theorem completed_singleton_of_failed {frame : Frame α}
    (h : ¬ (calls n).Complete frame.payload.length) : completed calls n [frame] = [] := by
  rw [completed, if_neg h, completed]

/-- What the loop counts stays an `int` that does not wrap: it never exceeds what was counted
before the loop and the bytes that are left. -/
theorem sendLoop_total (h : length ≤ cp.length) (hsent : 0 ≤ finalLenSent)
    (hmax : finalLenSent + length ≤ 2147483647) :
    (sendLoop calls n cp length finalLenSent frameType).2 = finalLenSent +
      (bytesOf (completed calls n
        (sendLoop calls n cp length finalLenSent frameType).1)).length := by
  fun_induction sendLoop calls n cp length finalLenSent frameType with
  | case1 n cp length finalLenSent frameType hpos hcomplete rest ih =>
    have hle := lenToSend_le length
    have hcount : intAdd finalLenSent (lenToSend length) = finalLenSent + lenToSend length := by
      apply intAdd_of_le <;> omega
    rw [← payload_length h frameType] at hcomplete
    have hrest : rest.2 = intAdd finalLenSent (lenToSend length) +
        (bytesOf (completed calls (n + 1) rest.1)).length := by
      apply ih (length_drop_lenToSend h)
      · omega
      · omega
    rw [completed_cons_of_complete hcomplete, bytesOf_cons, List.length_append, hrest, hcount,
      payload_length h]
    omega
  | case2 n cp length finalLenSent frameType hpos hfailed =>
    rw [← payload_length h frameType] at hfailed
    rw [completed_singleton_of_failed hfailed]
    exact (Int.add_zero _).symm
  | case3 => exact (Int.add_zero _).symm

theorem completed_consecutive (h : length ≤ cp.length) :
    bytesOf (completed calls n (sendLoop calls n cp length finalLenSent frameType).1) <+:
      cp.take length := by
  fun_induction sendLoop calls n cp length finalLenSent frameType with
  | case1 n cp length finalLenSent frameType hpos hcomplete rest ih =>
    rw [← payload_length h frameType] at hcomplete
    rw [completed_cons_of_complete hcomplete, bytesOf_cons,
      ← take_append_take_drop frameType]
    exact (List.prefix_append_right_inj _).mpr (ih (length_drop_lenToSend h))
  | case2 n cp length finalLenSent frameType hpos hfailed =>
    rw [← payload_length h frameType] at hfailed
    rw [completed_singleton_of_failed hfailed]
    exact List.nil_prefix
  | case3 => exact List.nil_prefix

end Loop

theorem sendResponse_consecutive (calls : ℕ → SendCalls) {buffer : List α} {length : ℕ}
    (hbuffer : length ≤ buffer.length) :
    bytesOf (sendResponse calls buffer length).1 <+: buffer.take length :=
  sendLoop_consecutive hbuffer

theorem sendResponse_cutIntoFrames (calls : ℕ → SendCalls) (buffer : List α) (length : ℕ)
    (hbuffer : length ≤ buffer.length) (hmax : length ≤ 2147483647) :
    CutIntoFrames calls buffer length (sendResponse calls buffer length).1
      (sendResponse calls buffer length).2 := by
  have htake : (buffer.take length).length = length := by
    rw [List.length_take]
    omega
  have htotal : (sendResponse calls buffer length).2 =
      (bytesOf (completed calls 0 (sendResponse calls buffer length).1)).length := by
    rw [sendResponse, sendLoop_total hbuffer le_rfl (by omega), Int.zero_add]
  constructor
  · exact sendLoop_size hbuffer
  · exact sendResponse_consecutive calls hbuffer
  · intro i frame hframe
    rw [sendLoop_opCode i frame hframe]
    by_cases hi : i = 0 <;> simp [hi]
  · intro i frame hframe
    have hprefix := (bytesOf_take_isPart _ (i + 1)).trans
      (sendResponse_consecutive calls hbuffer)
    rw [sendLoop_fin hbuffer i frame hframe]
    constructor
    · intro hlength
      exact hprefix.eq_of_length (hlength.trans htake.symm)
    · intro heq
      exact (congrArg List.length heq).trans htake
  · intro i frame hframe hfailed
    exact sendLoop_stops hbuffer i frame hframe ((Nat.zero_add i).symm ▸ hfailed)
  · intro hcalls
    apply sendLoop_whole hbuffer
    intro i frame hframe
    exact (Nat.zero_add i).symm ▸ hcalls i frame hframe
  · exact htotal
  · have hpre : bytesOf (completed calls 0 (sendResponse calls buffer length).1) <+:
        buffer.take length := completed_consecutive hbuffer
    rw [htotal, Int.natCast_inj]
    constructor
    · intro hlength
      exact hpre.eq_of_length (hlength.trans htake.symm)
    · intro heq
      exact (congrArg List.length heq).trans htake

theorem sendResponse_flushed_cutIntoFrames :
    CutIntoFrames (fun _ ↦ ⟨2, 3⟩) [7, 8, 9] 3
      (sendResponse (fun _ ↦ ⟨2, 3⟩) [7, 8, 9] 3).1
      (sendResponse (fun _ ↦ ⟨2, 3⟩) [7, 8, 9] 3).2 :=
  sendResponse_cutIntoFrames (fun _ ↦ ⟨2, 3⟩) [7, 8, 9] 3 le_rfl (by decide)

end Parodus.Upstream
