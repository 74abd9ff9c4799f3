import Parodus.Upstream.Wires

namespace Parodus.Upstream.Senders

open Foundation Foundation.Runs
open Connection (Deployment cloudDeployment)
open Downstream (Nopoll Message ParodusMsg listen)

variable {dep : Deployment} {s t : State} {a : Action} {M : Type} {lib : Nopoll M}

section Peer

/-- The frames of messages that are whole come in as these messages. -/
theorem received_messages (peer : Peer lib) {groups : List (List (Frame Char))}
    (h : ∀ group ∈ groups, frames.Message group) :
    ∃ ms : List (Message lib), (peer.received groups.flatten).map (true, ·) =
      ms.flatMap Message.calls ∧ (∀ m ∈ ms, m.allocated = true) ∧
      ms.map Message.payload = groups.map (List.flatMap Frame.payload) := by
  induction groups with
  | nil => exact ⟨[], rfl, List.forall_mem_nil _, rfl⟩
  | cons group groups ih =>
    obtain ⟨hgroup, hgroups⟩ := List.forall_mem_cons.mp h
    obtain ⟨ms, hcalls, hallocated, hpayloads⟩ := ih hgroups
    obtain ⟨front, back, rfl, hfront, hback, hcontinued⟩ := hgroup
    have hopCode : front = [] ∨ back.opCode = .continuationFrame := by
      refine hcontinued.imp_right fun hfirst ↦ ?_
      have hnot : back.opCode ≠ .binaryFrame := of_decide_eq_false hfirst
      cases hop : back.opCode with
      | binaryFrame => exact absurd hop hnot
      | continuationFrame => rfl
    obtain ⟨m, hm, hmemory, hpayload⟩ := peer.received_message hfront hback hopCode
    refine ⟨m :: ms, ?_, List.forall_mem_cons.mpr ⟨hmemory, hallocated⟩, ?_⟩
    · rw [List.flatten_cons, peer.received_append, List.map_append, hm, hcalls, List.flatMap_cons]
    · rw [List.map_cons, List.map_cons, hpayload, hpayloads]
      rfl

/-- The listener on the other side hears the messages that have ended. -/
theorem listen_gathered (peer : Peer lib) (hlib : lib.Lawful) {listener : Downstream.State M}
    (hlistener : listener.previousMsg = none) {received : List (Frame Char)} {place : Standing}
    (h : Framing.Gathered frames received place) :
    (listen lib listener ((peer.received received).map (true, ·))).parodusMsgQ.map
        ParodusMsg.content =
      listener.parodusMsgQ.map ParodusMsg.content ++
        ((frames.gather received).1.map (List.flatMap Frame.payload)).map
          fun msg ↦ (msg, msg.length) := by
  obtain ⟨ms, hcalls, hallocated, hpayloads⟩ := received_messages peer h.messages
  obtain ⟨entries, hqueue, _, _, hcontent⟩ := Downstream.listen_messages hlib ms listener
  have hcontents : ms.map Message.content =
      ((frames.gather received).1.map (List.flatMap Frame.payload)).map
        fun msg ↦ (msg, msg.length) := by
    rw [← hpayloads, List.map_map]
    rfl
  -- the frames behind them are held back
  have hrest : (peer.received received).map (true, ·) =
      (peer.received (frames.gather received).1.flatten).map (true, ·) ++
        (peer.received (frames.gather received).2).map (true, ·) := by
    rw [← List.map_append, ← peer.received_append, ← h.eq]
  rw [hrest, Downstream.listen_append, Downstream.listen_cut (peer.received_open h.rest).1, hcalls]
  dsimp only
  rw [hqueue, List.map_append, hcontent hlistener hallocated, hcontents]

end Peer

/-- What the other side hears on a connection. -/
def hears (peer : Peer lib) (listener : Downstream.State M) (s : State) (id : ℕ) :
    List (CString × ℕ) :=
  (listen lib listener ((peer.received (s.wire id).reduceOption).map (true, ·))).parodusMsgQ.map
    ParodusMsg.content

theorem Flowing.hears (h : Flowing s) (peer : Peer lib) (hlib : lib.Lawful)
    {listener : Downstream.State M} (hlistener : listener.previousMsg = none) (id : ℕ) :
    Senders.hears peer listener s id = listener.parodusMsgQ.map ParodusMsg.content ++
      (s.sentOn id).map fun msg ↦ (msg, msg.length) := by
  obtain ⟨place, hplace⟩ := Option.isSome_iff_exists.mp (h.legal id)
  obtain ⟨place', hgathered⟩ := Framing.gathered_reduceOption hplace
  have hended : (frames.gather (s.wire id).reduceOption).1.map (List.flatMap Frame.payload) =
      s.sentOn id := (h.carries id).ended
  rw [Senders.hears, listen_gathered peer hlib hlistener hgathered, hended]

section Single

/-- The message fits into one frame, and a frame is written out as a whole. -/
def fits (s : State) : Action → Bool
  | .send _ appendData => decide (appendData.bytes.length ≤ maxSendSize)
  | .sender w calls =>
    match s.pcs w with
    | .write _ _ _ length _ _ => decide (calls.Complete (lenToSend length))
    | _ => true
  | _ => true

def Pc.Single : Pc → Prop
  | closeRetry msg | cloudDisconnect msg | globalConn msg | cloudStatus _ msg =>
    msg.bytes.length ≤ maxSendSize
  | write _ _ _ length _ frameType => length ≤ maxSendSize ∧ frameType = .binaryFrame
  | _ => True

/-- No sender is inside a message, and none was broken off. -/
structure Whole (s : State) : Prop where
  single : ∀ w, (s.pcs w).Single
  unbroken : ∀ id, none ∉ s.wire id

variable {w : Sender} {pc : Pc} {id length : ℕ} {conn : Option ℕ} {msg : AppendData}
  {cp : CString} {finalLenSent : ℤ} {frameType : OpCode} {calls : SendCalls}

theorem Whole.apart (h : Whole s) : Apart s a := by
  cases a with
  | sender w calls =>
    refine fun id _ ↦ ⟨h.unbroken id, fun w' _ ↦ ?_⟩
    have hsingle := h.single w'
    cases hpc : s.pcs w' with
    | write conn msg cp length finalLenSent frameType =>
      rw [hpc] at hsingle
      rw [hsingle.2]
      exact Bool.and_false _
    | _ => rfl
  | main | send | leave => trivial

theorem Whole.update (h : Whole s) (hwire : t.wire = s.wire)
    (hpcs : t.pcs = Function.update s.pcs w pc) (hpc : pc.Single) : Whole t := by
  refine ⟨fun w' ↦ ?_, fun id ↦ hwire ▸ h.unbroken id⟩
  rw [hpcs]
  by_cases hne : w' = w
  · rw [hne, Function.update_self]
    exact hpc
  · rw [Function.update_of_ne hne]
    exact h.single w'

theorem Whole.put (h : Whole s) (conn : Option ℕ) (frame : Frame Char) :
    Whole (s.put conn (some frame)) := by
  have hpcs : (s.put conn (some frame)).pcs = s.pcs := put_pcs
  refine ⟨fun w ↦ hpcs ▸ h.single w, fun id hmem ↦ ?_⟩
  by_cases hconn : conn = some id
  · subst hconn
    rw [wire_put] at hmem
    rcases List.mem_append.mp hmem with hmem | hmem
    · exact h.unbroken id hmem
    · cases List.mem_singleton.mp hmem
  · rw [wire_put_of_ne hconn] at hmem
    exact h.unbroken id hmem

/-- The first frame is the last one. -/
theorem Whole.turn (h : Whole s) (hlength : length ≤ maxSendSize)
    (hcomplete : calls.Complete (lenToSend length)) :
    Whole (s.turn w calls conn msg cp length finalLenSent frameType) := by
  have hrest : ¬ 0 < length - lenToSend length := by
    rw [lenToSend, if_neg (Nat.not_lt.mpr hlength), Nat.sub_self]
    exact Nat.lt_irrefl 0
  unfold State.turn State.loop
  rw [if_pos hcomplete, if_neg hrest]
  exact (h.put conn _).update written_wire written_pcs trivial

theorem Whole.step (h : Whole s) (hfits : fits s a = true) (hstep : Step dep s a t) :
    Whole t := by
  unfold Step Senders.step at hstep
  cases a with
  | main action =>
    obtain ⟨_, heq⟩ := Option.ite_none_left_eq_some.mp hstep
    obtain ⟨main, _, rfl⟩ := Option.map_eq_some_iff.mp heq
    exact ⟨h.single, h.unbroken⟩
  | send w appendData =>
    obtain ⟨_, heq⟩ := Option.ite_none_right_eq_some.mp hstep
    obtain rfl := Option.some.inj heq
    have hlength : appendData.bytes.length ≤ maxSendSize := of_decide_eq_true hfits
    refine h.update rfl rfl ?_
    exact hlength
  | leave w =>
    obtain ⟨_, heq⟩ := Option.ite_none_right_eq_some.mp hstep
    obtain rfl := Option.some.inj heq
    refine h.update rfl rfl ?_
    trivial
  | sender w calls =>
    have hsingle := h.single w
    dsimp only [sendStep] at hstep
    dsimp only [fits] at hfits
    cases hpc : s.pcs w with
    | idle | ended =>
      rw [hpc] at hstep
      cases hstep
    | closeRetry appendData | cloudDisconnect appendData | globalConn appendData =>
      rw [hpc] at hstep hsingle
      obtain rfl := Option.some.inj hstep
      refine h.update rfl rfl ?_
      first
      | exact hsingle
      | split
        · exact hsingle
        · first
          | exact hsingle
          | trivial
    | cloudStatus conn msg =>
      rw [hpc] at hstep hsingle
      obtain rfl := Option.some.inj hstep
      unfold State.loop
      split
      · split
        · refine h.update rfl rfl ?_
          exact ⟨hsingle, rfl⟩
        · refine h.update written_wire written_pcs ?_
          trivial
      · refine h.update rfl rfl ?_
        trivial
    | write conn msg cp length finalLenSent frameType =>
      rw [hpc] at hstep hsingle hfits
      obtain rfl := Option.some.inj hstep
      exact h.turn hsingle.1 (of_decide_eq_true hfits)

theorem whole_init : Whole init := ⟨fun _ ↦ trivial, fun _ ↦ List.not_mem_nil⟩

theorem run_whole {tr : List (State × Action)} (h : Run (Step dep) init tr s)
    (hfits : Every (fun s a ↦ fits s a = true) tr) :
    Throughout (fun s ↦ Flowing s ∧ Whole s) tr s := by
  have hkeep : ∀ s a t, Flowing s ∧ Whole s → fits s a = true → Step dep s a t →
      Flowing t ∧ Whole t :=
    fun s a t hs hok hstep ↦ ⟨hs.1.step hs.2.apart hstep, hs.2.step hok hstep⟩
  exact h.throughout_of_every (fun _ hs ↦ hs) hkeep ⟨flowing_init, whole_init⟩ hfits

end Single

section Runs

variable {tr : List (State × Action)}

/-- On every connection the other side hears the messages that were counted as written, in order
and once, as long as no message is disturbed. -/
theorem run_heard (h : Run (Step dep) init tr s) (hapart : Every Apart tr) (peer : Peer lib)
    (hlib : lib.Lawful) (listener : Downstream.State M) (hlistener : listener.previousMsg = none)
    (id : ℕ) : hears peer listener s id = listener.parodusMsgQ.map ParodusMsg.content ++
      (s.sentOn id).map fun msg ↦ (msg, msg.length) := by
  have hkeep : ∀ s a t, Flowing s → Apart s a → Step dep s a t → Flowing t :=
    fun _ _ _ hs hok hstep ↦ hs.step hok hstep
  have hflowing := h.throughout_of_every (fun _ hs ↦ hs) hkeep flowing_init hapart
  exact hflowing.2.hears peer hlib hlistener id

/-- The downstream sender writes before the upstream one, which was first to begin. -/
def sharedRun : List Action :=
  bothBegun ++ [.sender .downstream writtenOut, .sender .upstream writtenOut]

theorem sharedRun_fits : ∃ tr s, Run (Step cloudDeployment) init tr s ∧
    s.sentOn 0 = ["cd".toList, "ab".toList] ∧ Every (fun s a ↦ fits s a = true) tr := by
  have hexec : (exec (step cloudDeployment) init sharedRun).map
      (fun r ↦ (r.2.sentOn 0, r.1.all fun x ↦ fits x.1 x.2)) =
        some (["cd".toList, "ab".toList], true) := by
    simp only [cloudDeployment, sharedRun, bothBegun, String.reduceToList]
    rfl
  obtain ⟨r, hr, heq⟩ := Option.map_eq_some_iff.mp hexec
  obtain ⟨hsent, hall⟩ := Prod.mk.inj heq
  exact ⟨r.1, r.2, run_of_exec hr, hsent, List.all_eq_true.mp hall⟩

theorem run_heard_shared : ∃ tr s, Run (Step cloudDeployment) init tr s ∧
    s.sentOn 0 = ["cd".toList, "ab".toList] ∧ Every Apart tr ∧
    hears plainPeer (Downstream.start Downstream.settled) s 0 =
      [] ++ (s.sentOn 0).map fun msg ↦ (msg, msg.length) := by
  obtain ⟨tr, s, hrun, hsent, hfits⟩ := sharedRun_fits
  have hapart : Every Apart tr := fun x hx ↦ ((run_whole hrun hfits).1 x hx).2.apart
  exact ⟨tr, s, hrun, hsent, hapart, run_heard hrun hapart plainPeer Downstream.frameLib_lawful
    (Downstream.start Downstream.settled) rfl 0⟩

/-- Messages of up to 60 KiB never disturb each other: while all frames are written out, every one
of them arrives, in any interleaving of the senders. -/
theorem run_heard_of_fits (h : Run (Step dep) init tr s)
    (hfits : Every (fun s a ↦ fits s a = true) tr) (peer : Peer lib) (hlib : lib.Lawful)
    (listener : Downstream.State M) (hlistener : listener.previousMsg = none) (id : ℕ) :
    Throughout Legal tr s ∧ hears peer listener s id =
      listener.parodusMsgQ.map ParodusMsg.content ++
        (s.sentOn id).map fun msg ↦ (msg, msg.length) := by
  obtain ⟨htr, hs⟩ := run_whole h hfits
  exact ⟨⟨fun x hx ↦ (htr x hx).1.legal, hs.1.legal⟩, hs.1.hears peer hlib hlistener id⟩

theorem run_heard_of_fits_shared : ∃ tr s, Run (Step cloudDeployment) init tr s ∧
    s.sentOn 0 = ["cd".toList, "ab".toList] ∧ Throughout Legal tr s ∧
    hears plainPeer (Downstream.start Downstream.settled) s 0 =
      [] ++ (s.sentOn 0).map fun msg ↦ (msg, msg.length) := by
  obtain ⟨tr, s, hrun, hsent, hfits⟩ := sharedRun_fits
  obtain ⟨hlegal, hheard⟩ := run_heard_of_fits hrun hfits plainPeer Downstream.frameLib_lawful
    (Downstream.start Downstream.settled) rfl 0
  exact ⟨tr, s, hrun, hsent, hlegal, hheard⟩

end Runs

end Parodus.Upstream.Senders
