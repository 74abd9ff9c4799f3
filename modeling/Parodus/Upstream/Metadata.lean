import Mathlib.Algebra.Order.Group.Int
import Parodus.CString
import Parodus.Foundation.Runs

namespace Parodus.Upstream.Metadata

open Foundation.Runs

abbrev Byte := BitVec 8

/-- The packed metadata, as far as there is some, and its size, a `size_t`. -/
structure State where
  metadataPack : Option (List Byte)
  metaPackSize : BitVec 64

def init : State := ⟨none, -1⟩

/-- The result of `wrp_pack_metadata` is a `ssize_t`; with it comes what it leaves as the pack. -/
inductive Action
  | packMetaData (result : BitVec 64) (pack : Option (List Byte))
  | sendUpstreamMsgToServer (closeRetry : Bool) (cloudDisconnect : Option CString)
      (respBytes : List Byte)

/-- The arguments of `appendEncodedData`, if it is called, and whether `sendMessage` is. -/
structure Sending where
  appended : Option (List Byte × Option (List Byte) × BitVec 64)
  sent : Bool

/-- The signed result is assigned to the unsigned size. -/
def packMetaData (result : BitVec 64) (pack : Option (List Byte)) : State := ⟨pack, result⟩

def sendUpstreamMsgToServer (s : State) (closeRetry : Bool) (cloudDisconnect : Option CString)
    (respBytes : List Byte) : Sending :=
  if s.metaPackSize > 0 then
    ⟨some (respBytes, s.metadataPack, s.metaPackSize), !closeRetry || cloudDisconnect.isSome⟩
  else ⟨none, false⟩

def step (s : State) : Action → Option State
  | .packMetaData result pack => some (packMetaData result pack)
  | .sendUpstreamMsgToServer _ _ _ => some s

def Step (s : State) (a : Action) (t : State) : Prop := step s a = some t

/-- The result of the last packing. -/
def observeResult (_ : State) (a : Action) (last : Option (BitVec 64)) : Option (BitVec 64) :=
  match a with
  | .packMetaData result _ => some result
  | .sendUpstreamMsgToServer _ _ _ => last

def Packed (last : Option (BitVec 64)) : Prop := ∃ result, last = some result ∧ 0 < result.toInt

/-- Metadata is appended, and a message sent, only with packed metadata. -/
def SendsRight (x : State × Option (BitVec 64)) (a : Action) : Prop :=
  ∀ closeRetry cloudDisconnect respBytes,
    a = .sendUpstreamMsgToServer closeRetry cloudDisconnect respBytes →
      let sending := sendUpstreamMsgToServer x.1 closeRetry cloudDisconnect respBytes
      (sending.appended ≠ none → Packed x.2) ∧ (sending.sent = true → Packed x.2)

/-- There was a packing before, and the last one did not fail with an error code. -/
def NoErrorBefore (x : State × Option (BitVec 64)) (a : Action) : Prop :=
  ∀ closeRetry cloudDisconnect respBytes,
    a = .sendUpstreamMsgToServer closeRetry cloudDisconnect respBytes →
      ∃ result, x.2 = some result ∧ 0 ≤ result.toInt

/-- The size is the result of the last packing, whatever its sign, or what it was at first. -/
def SizeKept (x : State × Option (BitVec 64)) : Prop := x.1.metaPackSize = x.2.getD (-1)

variable {x y : State × Option (BitVec 64)} {a : Action} {s : State} {closeRetry : Bool}
  {cloudDisconnect : Option CString} {respBytes : List Byte}

theorem SizeKept.step (hx : SizeKept x) (h : Observed Step observeResult x a y) : SizeKept y := by
  obtain ⟨s, last⟩ := x
  obtain ⟨t, last'⟩ := y
  obtain ⟨hstep, rfl⟩ := h
  cases a with
  | packMetaData result pack =>
    obtain rfl := Option.some.inj hstep
    rfl
  | sendUpstreamMsgToServer closeRetry cloudDisconnect respBytes =>
    obtain rfl := Option.some.inj hstep
    exact hx

/-- The test against zero only tells zero from the rest. -/
theorem appended_ne_none_iff :
    (sendUpstreamMsgToServer s closeRetry cloudDisconnect respBytes).appended ≠ none ↔
      s.metaPackSize ≠ 0 := by
  have hpos : s.metaPackSize > 0 ↔ s.metaPackSize ≠ 0 := by
    rw [gt_iff_lt, BitVec.lt_def, Ne, ← BitVec.toNat_inj]
    exact Nat.pos_iff_ne_zero
  unfold sendUpstreamMsgToServer
  by_cases hsize : s.metaPackSize > 0
  · rw [if_pos hsize]
    exact iff_of_true (Option.some_ne_none _) (hpos.mp hsize)
  · rw [if_neg hsize]
    exact iff_of_false (fun h ↦ h rfl) (fun h ↦ hsize (hpos.mpr h))

theorem appended_of_sent
    (h : (sendUpstreamMsgToServer s closeRetry cloudDisconnect respBytes).sent = true) :
    (sendUpstreamMsgToServer s closeRetry cloudDisconnect respBytes).appended ≠ none := by
  unfold sendUpstreamMsgToServer at h ⊢
  split
  · exact Option.some_ne_none _
  · rename_i hsize
    rw [if_neg hsize] at h
    cases h

theorem packed_of_size (hx : SizeKept x) (hsize : x.1.metaPackSize ≠ 0)
    (h : ∃ result, x.2 = some result ∧ 0 ≤ result.toInt) : Packed x.2 := by
  obtain ⟨result, hlast, hresult⟩ := h
  refine ⟨result, hlast, lt_of_le_of_ne hresult fun hzero ↦ hsize ?_⟩
  rw [hx, hlast]
  exact BitVec.toInt_inj.mp hzero.symm

theorem sendsRight_iff (hx : SizeKept x) : SendsRight x a ↔ NoErrorBefore x a := by
  constructor
  · intro h closeRetry cloudDisconnect respBytes ha
    have happended := (h closeRetry cloudDisconnect respBytes ha).1
    rw [appended_ne_none_iff, hx] at happended
    cases hlast : x.2 with
    | none =>
      rw [hlast] at happended
      obtain ⟨_, hsome, _⟩ := happended (by decide)
      cases hsome
    | some result =>
      refine ⟨result, rfl, ?_⟩
      by_cases hzero : result = 0
      · rw [hzero]
        decide
      · rw [hlast] at happended
        obtain ⟨result', hresult', hpos⟩ := happended hzero
        obtain rfl := Option.some.inj hresult'
        exact Int.le_of_lt hpos
  · intro h closeRetry cloudDisconnect respBytes ha
    have hresult := h closeRetry cloudDisconnect respBytes ha
    refine ⟨fun happended ↦ ?_, fun hsent ↦ ?_⟩
    · exact packed_of_size hx (appended_ne_none_iff.mp happended) hresult
    · exact packed_of_size hx (appended_ne_none_iff.mp (appended_of_sent hsent)) hresult

/-- In a run metadata is only appended where it was packed, if no message is sent before the
first packing or behind one that failed with an error code. -/
theorem run_sendsRight_iff {tr : List ((State × Option (BitVec 64)) × Action)}
    (h : Run (Observed Step observeResult) (init, none) tr x) :
    Every SendsRight tr ↔ Every NoErrorBefore tr := by
  have hkept : Throughout SizeKept tr x :=
    h.invariant (fun _ _ _ hx hstep ↦ hx.step hstep) rfl
  constructor
  · intro hright y hy
    exact (sendsRight_iff (hkept.1 y hy)).mp (hright y hy)
  · intro hok y hy
    exact (sendsRight_iff (hkept.1 y hy)).mpr (hok y hy)

def plainSend : Action := .sendUpstreamMsgToServer false none [1]

/-- A message is sent behind a packing that failed with -1. -/
theorem run_not_sendsRight : ∃ tr x, Run (Observed Step observeResult) (init, none) tr x ∧
    tr.map (fun y ↦ y.2) = [.packMetaData (-1) none, plainSend] ∧ ¬ Every SendsRight tr := by
  have hexec : exec (watch step observeResult) (init, none) [.packMetaData (-1) none, plainSend] =
      some ([((init, none), .packMetaData (-1) none), ((⟨none, -1⟩, some (-1)), plainSend)],
        (⟨none, -1⟩, some (-1))) := rfl
  refine ⟨_, _, run_of_exec_watch hexec, rfl, ?_⟩
  intro hright
  have hsend := hright _ (List.mem_cons_of_mem _ List.mem_cons_self) false none [1] rfl
  obtain ⟨result, hresult, hpos⟩ := hsend.2 rfl
  obtain rfl := Option.some.inj hresult
  exact absurd hpos (by decide)

theorem run_sendsRight_iff_packed : ∃ tr x, Run (Observed Step observeResult) (init, none) tr x ∧
    tr.map (fun y ↦ y.2) = [.packMetaData 1 (some [2]), plainSend] ∧ Every SendsRight tr := by
  have hexec : exec (watch step observeResult) (init, none)
      [.packMetaData 1 (some [2]), plainSend] =
        some ([((init, none), .packMetaData 1 (some [2])),
          ((⟨some [2], 1⟩, some 1), plainSend)], (⟨some [2], 1⟩, some 1)) := rfl
  have hrun := run_of_exec_watch hexec
  refine ⟨_, _, hrun, rfl, (run_sendsRight_iff hrun).mpr ?_⟩
  intro y hy closeRetry cloudDisconnect respBytes ha
  obtain rfl | rfl := List.mem_pair.mp hy
  · cases ha
  · exact ⟨1, rfl, by decide⟩

end Parodus.Upstream.Metadata
