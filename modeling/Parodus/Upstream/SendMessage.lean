import Parodus.Downstream.Fragments
import Parodus.Upstream.SendResponse

namespace Parodus.Upstream

open Downstream (Nopoll Message ParodusMsg listen)

def cloudStatusIsOnline (cloudStatus : Option CString) : Bool :=
  match cloudStatus with
  | none => false
  | some status => status == "online".toList

/-- The frames handed to nopoll, and the number of bytes written if the message is sent. -/
def sendMessage (cloudStatus : Option CString) (calls : ℕ → SendCalls) (msg : CString) (len : ℕ) :
    List (Frame Char) × Option ℤ :=
  if cloudStatusIsOnline cloudStatus then
    let sent := sendResponse calls msg len
    (sent.1, some sent.2)
  else ([], none)

/-- One call of `sendMessage` with all of a message. -/
structure Sending where
  cloudStatus : Option CString
  calls : ℕ → SendCalls
  msg : CString
  fits : msg.length ≤ 2147483647

def Sending.result (x : Sending) : List (Frame Char) × Option ℤ :=
  sendMessage x.cloudStatus x.calls x.msg x.msg.length

/-- The frames that nopoll writes out. -/
def Sending.written (x : Sending) : List (Frame Char) := completed x.calls 0 x.result.1

/-- The status was online, and no error is logged about the bytes written. -/
def Sending.Sent (x : Sending) : Prop := x.result.2 = some (x.msg.length : ℤ)

instance (x : Sending) : Decidable x.Sent := inferInstanceAs (Decidable (_ = _))

/-- The message is broken off. -/
def Sending.Failed (x : Sending) : Prop := ∃ n, x.result.2 = some n ∧ n ≠ x.msg.length

/-- The messages that are sent and not empty. -/
def messagesSent (sends : List Sending) : List CString :=
  (sends.filter fun x ↦ decide x.Sent && !x.msg.isEmpty).map Sending.msg

variable {M : Type} {lib : Nopoll M}

/-- What the nopoll of the other side makes of a frame: one message, or the pieces that it read
it in, of which only the last one carries the frame's FIN flag. -/
structure Peer (lib : Nopoll M) where
  messages : Frame Char → List M
  right : ∀ frame,
    (∃ m, messages frame = [m] ∧ lib.isFragment m = false ∧ frame.opCode = .binaryFrame ∧
      frame.fin = true ∧ lib.getPayload m = frame.payload) ∨
    (∃ front last, messages frame = front ++ [last] ∧
      (∀ m ∈ front, lib.isFragment m = true ∧ lib.isFinal m = false) ∧
      lib.isFragment last = true ∧ lib.isFinal last = frame.fin ∧
      front.flatMap lib.getPayload ++ lib.getPayload last = frame.payload)

def Peer.received (peer : Peer lib) (frames : List (Frame Char)) : List M :=
  frames.flatMap peer.messages

/-- The calls of the listener on the other side, which finds memory for its entries. -/
def Peer.heard (peer : Peer lib) (sends : List Sending) : List (Bool × M) :=
  (sends.flatMap fun x ↦ peer.received x.written).map (true, ·)

variable {peer : Peer lib} {frame : Frame Char} {frames : List (Frame Char)} {x : Sending}
  {calls : ℕ → SendCalls} {n length : ℕ} {cp : CString} {finalLenSent : ℤ} {frameType : OpCode}

theorem Peer.received_cons (peer : Peer lib) (frame : Frame Char) (frames : List (Frame Char)) :
    peer.received (frame :: frames) = peer.messages frame ++ peer.received frames :=
  List.flatMap_cons

theorem Peer.received_append (peer : Peer lib) (front back : List (Frame Char)) :
    peer.received (front ++ back) = peer.received front ++ peer.received back :=
  List.flatMap_append

/-- A frame without the flag comes in as fragments none of which is final. -/
theorem Peer.messages_open (peer : Peer lib) (h : frame.fin = false) :
    (∀ m ∈ peer.messages frame, lib.isFragment m = true ∧ lib.isFinal m = false) ∧
      (peer.messages frame).flatMap lib.getPayload = frame.payload := by
  rcases peer.right frame with ⟨m, _, _, _, hfin, _⟩ |
    ⟨front, last, hmessages, hfront, hfragment, hfinal, hpayload⟩
  · rw [h] at hfin
    cases hfin
  · rw [hmessages]
    constructor
    · intro m hm
      rcases List.mem_append.mp hm with hm | hm
      · exact hfront m hm
      · obtain rfl := List.mem_singleton.mp hm
        exact ⟨hfragment, hfinal.trans h⟩
    · rw [List.flatMap_append, List.flatMap_singleton]
      exact hpayload

theorem Peer.received_open (peer : Peer lib) (h : ∀ frame ∈ frames, frame.fin = false) :
    (∀ m ∈ peer.received frames, lib.isFragment m = true ∧ lib.isFinal m = false) ∧
      (peer.received frames).flatMap lib.getPayload = bytesOf frames := by
  induction frames with
  | nil => exact ⟨List.forall_mem_nil _, rfl⟩
  | cons frame frames ih =>
    obtain ⟨hframe, hframes⟩ := List.forall_mem_cons.mp h
    obtain ⟨hopen, hpayload⟩ := peer.messages_open hframe
    obtain ⟨hrest, hbytes⟩ := ih hframes
    rw [peer.received_cons]
    constructor
    · exact List.forall_mem_append.mpr ⟨hopen, hrest⟩
    · rw [List.flatMap_append, hpayload, hbytes, bytesOf_cons]

/-- Frames of which the last one alone carries the flag, and all but the first are
continuations, come in as one message. -/
theorem Peer.received_message (peer : Peer lib) {front : List (Frame Char)} {last : Frame Char}
    (hfront : ∀ frame ∈ front, frame.fin = false) (hlast : last.fin = true)
    (hcontinued : front = [] ∨ last.opCode = .continuationFrame) :
    ∃ m : Message lib, (peer.received (front ++ [last])).map (true, ·) = m.calls ∧
      m.allocated = true ∧ m.payload = bytesOf (front ++ [last]) := by
  obtain ⟨hopen, hbytes⟩ := peer.received_open hfront
  have hpayload : bytesOf (front ++ [last]) = bytesOf front ++ last.payload := by
    rw [bytesOf, List.flatMap_append, List.flatMap_singleton, ← bytesOf]
  rw [peer.received_append, hpayload]
  have hsingle : peer.received [last] = peer.messages last := List.flatMap_singleton ..
  rw [hsingle]
  rcases peer.right last with ⟨m, hmessages, hwhole, hopCode, _, hm⟩ |
    ⟨pieces, final, hmessages, hpieces, hfragment, hfinal, hm⟩
  · -- a message that came in whole is no continuation
    rw [hopCode] at hcontinued
    obtain rfl : front = [] := hcontinued.resolve_right OpCode.noConfusion
    rw [hmessages]
    exact ⟨.whole true m hwhole, rfl, rfl, hm⟩
  · have hall : ∀ m ∈ peer.received front ++ pieces,
        lib.isFragment m = true ∧ lib.isFinal m = false :=
      List.forall_mem_append.mpr ⟨hopen, hpieces⟩
    refine ⟨.fragments true (peer.received front ++ pieces) final hall
      ⟨hfragment, hfinal.trans hlast⟩, ?_, rfl, ?_⟩
    · rw [hmessages, ← List.append_assoc, List.map_append, Message.calls]
      rfl
    · rw [Message.payload, List.flatMap_append, hbytes, List.append_assoc, hm]

/-- The frames that a loop writes out: all of the buffer and then the flag, or less of it and no
flag. -/
theorem sendLoop_written (h : length ≤ cp.length) (hpos : 0 < length) :
    let frames := completed calls n (sendLoop calls n cp length finalLenSent frameType).1
    (bytesOf frames = cp.take length ∧ ∃ front last, frames = front ++ [last] ∧
      (∀ frame ∈ front, frame.fin = false) ∧ last.fin = true ∧
      (front = [] ∧ last.opCode = frameType ∨ last.opCode = .continuationFrame)) ∨
    ((bytesOf frames).length < length ∧ ∀ frame ∈ frames, frame.fin = false) := by
  fun_induction sendLoop calls n cp length finalLenSent frameType with
  | case1 n cp length finalLenSent frameType _ hcomplete rest ih =>
    intro frames
    have hframe : (calls n).Complete (frameOf frameType cp length).payload.length := by
      rw [payload_length h]
      exact hcomplete
    have hframes : frames = frameOf frameType cp length :: completed calls (n + 1) rest.1 :=
      completed_cons_of_complete hframe rest.1
    have hle := lenToSend_le length
    have hdrop := length_drop_lenToSend h
    have hlength := payload_length h frameType
    rw [hframes]
    by_cases hlast : length - lenToSend length = 0
    · -- the frame is the last one
      have hnone : rest.1 = [] := by
        change (sendLoop calls (n + 1) _ (length - lenToSend length) _ _).1 = []
        rw [hlast, sendLoop, if_neg (Nat.lt_irrefl 0)]
      refine .inl ⟨?_, [], frameOf frameType cp length, ?_, List.forall_mem_nil _, ?_,
        .inl ⟨rfl, rfl⟩⟩
      · rw [hnone, completed, bytesOf_cons, bytesOf_nil, List.append_nil,
          ← take_append_take_drop frameType, hlast, List.take_zero, List.append_nil]
      · rw [hnone]
        rfl
      · exact decide_eq_true hlast
    · have hopen : (frameOf frameType cp length).fin = false := decide_eq_false hlast
      rcases ih hdrop (Nat.pos_of_ne_zero hlast) with
        ⟨hbytes, front, last, hrest, hfront, hfin, hcontinued⟩ | ⟨hshort, hrest⟩
      · refine .inl ⟨?_, frameOf frameType cp length :: front, last, ?_, ?_, hfin,
          .inr ?_⟩
        · rw [bytesOf_cons, hbytes, take_append_take_drop]
        · rw [hrest, List.cons_append]
        · exact List.forall_mem_cons.mpr ⟨hopen, hfront⟩
        · exact hcontinued.elim And.right id
      · refine .inr ⟨?_, List.forall_mem_cons.mpr ⟨hopen, hrest⟩⟩
        have hshort : (bytesOf (completed calls (n + 1) rest.1)).length <
            length - lenToSend length := hshort
        rw [bytesOf_cons, List.length_append, hlength]
        omega
  | case2 n cp length finalLenSent frameType _ hfailed =>
    intro frames
    have hframe : ¬ (calls n).Complete (frameOf frameType cp length).payload.length := by
      rw [payload_length h]
      exact hfailed
    have hframes : frames = [] := completed_singleton_of_failed hframe
    rw [hframes]
    exact .inr ⟨hpos, List.forall_mem_nil _⟩
  | case3 n cp length finalLenSent frameType hnot => exact absurd hpos hnot

theorem Sending.written_of_offline (h : cloudStatusIsOnline x.cloudStatus = false) :
    x.written = [] ∧ ¬ x.Sent := by
  have hresult : x.result = ([], none) := by
    rw [Sending.result, sendMessage, h]
    rfl
  rw [Sending.written, Sending.Sent, hresult]
  exact ⟨rfl, fun h ↦ by cases h⟩

theorem Sending.result_of_online (h : cloudStatusIsOnline x.cloudStatus = true) :
    x.result = ((sendResponse x.calls x.msg x.msg.length).1,
      some (sendResponse x.calls x.msg x.msg.length).2) := by
  rw [Sending.result, sendMessage, if_pos h]

/-- What is counted as sent is what nopoll writes out. -/
theorem Sending.counted (h : cloudStatusIsOnline x.cloudStatus = true) :
    x.result.2 = some ((bytesOf x.written).length : ℤ) := by
  have hfits := x.fits
  rw [Sending.written, x.result_of_online h]
  change some _ = some _
  rw [sendResponse, sendLoop_total le_rfl le_rfl (by omega), Int.zero_add]

theorem Sending.sent_iff (h : cloudStatusIsOnline x.cloudStatus = true) :
    x.Sent ↔ (bytesOf x.written).length = x.msg.length := by
  rw [Sending.Sent, x.counted h, Option.some_inj, Int.natCast_inj]

theorem Sending.not_failed_iff (h : cloudStatusIsOnline x.cloudStatus = true) :
    ¬ x.Failed ↔ x.Sent := by
  constructor
  · intro hnot
    by_contra hsent
    exact hnot ⟨_, x.counted h, fun heq ↦ hsent ((x.counted h).trans (congrArg some heq))⟩
  · intro hsent hfailed
    obtain ⟨n, hn, hne⟩ := hfailed
    exact hne (Option.some.inj (hn.symm.trans hsent))

/-- A message is written out as a whole, and ends with the flag, or none of its frames has the
flag. -/
theorem Sending.written_cases (x : Sending) :
    (x.Sent ∧ x.msg ≠ [] ∧ bytesOf x.written = x.msg ∧ ∃ front last,
      x.written = front ++ [last] ∧ (∀ frame ∈ front, frame.fin = false) ∧ last.fin = true ∧
      (front = [] ∨ last.opCode = .continuationFrame)) ∨
    (¬ (x.Sent ∧ x.msg ≠ []) ∧ (∀ frame ∈ x.written, frame.fin = false) ∧
      (¬ x.Failed → x.written = [])) := by
  cases honline : cloudStatusIsOnline x.cloudStatus with
  | false =>
    obtain ⟨hwritten, hsent⟩ := x.written_of_offline honline
    rw [hwritten]
    exact .inr ⟨fun h ↦ hsent h.1, List.forall_mem_nil _, fun _ ↦ rfl⟩
  | true =>
    have hfits := x.fits
    have hwritten : x.written =
        completed x.calls 0 (sendLoop x.calls 0 x.msg x.msg.length 0 .binaryFrame).1 := by
      rw [Sending.written, x.result_of_online honline, sendResponse]
    rw [x.sent_iff honline, x.not_failed_iff honline, x.sent_iff honline]
    by_cases hempty : x.msg = []
    · have hnone : x.written = [] := by
        rw [hwritten, hempty, List.length_nil, sendLoop, if_neg (Nat.lt_irrefl 0), completed]
      rw [hnone]
      exact .inr ⟨fun h ↦ h.2 hempty, List.forall_mem_nil _, fun _ ↦ rfl⟩
    · have hpos := List.length_pos_of_ne_nil hempty
      rcases @sendLoop_written x.calls 0 x.msg.length x.msg 0 .binaryFrame le_rfl hpos with
        ⟨hbytes, front, last, hframes, hfront, hlast, hcontinued⟩ | ⟨hshort, hopen⟩
      · rw [← hwritten, List.take_length] at hbytes
        rw [← hwritten] at hframes
        exact .inl ⟨congrArg List.length hbytes, hempty, hbytes, front, last, hframes, hfront,
          hlast, hcontinued.imp_left And.left⟩
      · rw [← hwritten] at hshort hopen
        exact .inr ⟨fun h ↦ absurd h.1 hshort.ne, hopen, fun h ↦ absurd h hshort.ne⟩

theorem messagesSent_cons (x : Sending) (sends : List Sending) :
    messagesSent (x :: sends) =
      (if x.Sent ∧ x.msg ≠ [] then [x.msg] else []) ++ messagesSent sends := by
  unfold messagesSent
  by_cases h : x.Sent ∧ x.msg ≠ []
  · rw [List.filter_cons_of_pos (by simpa using h), if_pos h]
    rfl
  · rw [List.filter_cons_of_neg (by simpa using h), if_neg h]
    rfl

theorem messagesSent_append (front back : List Sending) :
    messagesSent (front ++ back) = messagesSent front ++ messagesSent back := by
  rw [messagesSent, List.filter_append, List.map_append]
  rfl

theorem Peer.heard_append (peer : Peer lib) (front back : List Sending) :
    peer.heard (front ++ back) = peer.heard front ++ peer.heard back := by
  rw [Peer.heard, List.flatMap_append, List.map_append]
  rfl

theorem Peer.heard_cons (peer : Peer lib) (x : Sending) (sends : List Sending) :
    peer.heard (x :: sends) = (peer.received x.written).map (true, ·) ++ peer.heard sends := by
  rw [Peer.heard, List.flatMap_cons, List.map_append, ← Peer.heard]

/-- While no message is broken off, the other side hears one message for each that was sent. -/
theorem Peer.heard_messages (peer : Peer lib) {sends : List Sending}
    (h : ∀ x ∈ sends, ¬ x.Failed) :
    ∃ ms : List (Message lib), peer.heard sends = ms.flatMap Message.calls ∧
      (∀ m ∈ ms, m.allocated = true) ∧ ms.map Message.payload = messagesSent sends := by
  induction sends with
  | nil => exact ⟨[], rfl, List.forall_mem_nil _, rfl⟩
  | cons x sends ih =>
    obtain ⟨hx, hsends⟩ := List.forall_mem_cons.mp h
    obtain ⟨ms, hcalls, hallocated, hpayloads⟩ := ih hsends
    rw [peer.heard_cons, hcalls]
    rcases x.written_cases with
      ⟨hsent, hempty, hbytes, front, last, hframes, hfront, hlast, hcontinued⟩ |
      ⟨hnot, _, hnone⟩
    · obtain ⟨m, hm, hmemory, hpayload⟩ := peer.received_message hfront hlast hcontinued
      refine ⟨m :: ms, ?_, List.forall_mem_cons.mpr ⟨hmemory, hallocated⟩, ?_⟩
      · rw [hframes, hm, List.flatMap_cons]
      · rw [messagesSent_cons, if_pos ⟨hsent, hempty⟩, List.map_cons, hpayloads, hpayload,
          ← hframes, hbytes]
        rfl
    · refine ⟨ms, ?_, hallocated, ?_⟩
      · rw [hnone hx]
        rfl
      · rw [messagesSent_cons, if_neg hnot, hpayloads, List.nil_append]

theorem Peer.listen_heard (peer : Peer lib) (hlib : lib.Lawful) {s : Downstream.State M}
    (hs : s.previousMsg = none) {sends : List Sending} (h : ∀ x ∈ sends, ¬ x.Failed) :
    (listen lib s (peer.heard sends)).parodusMsgQ.map ParodusMsg.content =
        s.parodusMsgQ.map ParodusMsg.content ++
          (messagesSent sends).map (fun msg ↦ (msg, msg.length)) ∧
      (listen lib s (peer.heard sends)).previousMsg = none := by
  obtain ⟨ms, hcalls, hallocated, hpayloads⟩ := peer.heard_messages h
  obtain ⟨entries, hqueue, _, hprevious, hcontent⟩ := Downstream.listen_messages hlib ms s
  have hcontents : ms.map Message.content =
      (messagesSent sends).map fun msg ↦ (msg, msg.length) := by
    rw [← hpayloads, List.map_map]
    rfl
  rw [hcalls, hqueue, List.map_append, hcontent hs hallocated, hcontents]
  exact ⟨rfl, hprevious (.inl hs)⟩

section Inputs

/-- A nopoll that reads every frame at once. -/
def plainPeer : Peer Downstream.frameLib where
  messages frame :=
    [⟨decide (frame.opCode = .continuationFrame) || !frame.fin, frame.fin, frame.payload⟩]
  right frame := by
    obtain ⟨opCode, fin, payload⟩ := frame
    cases opCode with
    | binaryFrame =>
      cases fin with
      | true => exact .inl ⟨_, rfl, rfl, rfl, rfl, rfl⟩
      | false => exact .inr ⟨[], _, rfl, List.forall_mem_nil _, rfl, rfl, rfl⟩
    | continuationFrame => exact .inr ⟨[], _, rfl, List.forall_mem_nil _, rfl, rfl, rfl⟩

def sentHello : Sending := ⟨some "online".toList, fun _ ↦ ⟨5, 5⟩, "hello".toList, by decide⟩

def brokenWorld : Sending := ⟨some "online".toList, fun _ ↦ ⟨-1, 0⟩, "world".toList, by decide⟩

theorem sentHello_not_failed : ¬ sentHello.Failed := by
  have hresult : sentHello.result.2 = some 5 := by
    simp only [Sending.result, sentHello, sendMessage, sendResponse]
    rw [sendLoop, if_pos (by decide), if_pos (by decide), sendLoop, if_neg (by decide)]
    decide
  intro h
  obtain ⟨n, hn, hne⟩ := h
  rw [hresult] at hn
  exact hne (Option.some.inj hn).symm

end Inputs

/-- What `sendMessage` cuts into frames, the listener of the other side puts together again: every
message that is sent while the cloud is online arrives as it is, in order and once, and a message
that is broken off at the end of the connection does not arrive. -/
theorem sendMessage_heard (peer : Peer lib) (hlib : lib.Lawful) (s : Downstream.State M)
    (hs : s.previousMsg = none) (sends : List Sending) (h : ∀ x ∈ sends.dropLast, ¬ x.Failed) :
    (listen lib s (peer.heard sends)).parodusMsgQ.map ParodusMsg.content =
        s.parodusMsgQ.map ParodusMsg.content ++
          (messagesSent sends).map (fun msg ↦ (msg, msg.length)) ∧
      ((∀ x ∈ sends, ¬ x.Failed) → (listen lib s (peer.heard sends)).previousMsg = none) := by
  obtain rfl | ⟨front, last, rfl⟩ := List.eq_nil_or_concat' sends
  · exact ⟨(List.append_nil _).symm, fun _ ↦ hs⟩
  rw [List.dropLast_concat] at h
  obtain ⟨hfront, hnone⟩ := peer.listen_heard hlib hs h
  refine ⟨?_, fun hall ↦ (peer.listen_heard hlib hs hall).2⟩
  rcases last.written_cases with ⟨hsent, _⟩ | ⟨hnot, hopen, _⟩
  · refine (peer.listen_heard hlib hs fun x hx hfailed ↦ ?_).1
    rcases List.mem_append.mp hx with hx | hx
    · exact h x hx hfailed
    · obtain rfl := List.mem_singleton.mp hx
      obtain ⟨n, hn, hne⟩ := hfailed
      exact hne (Option.some.inj (hn.symm.trans hsent))
  · -- the frames of the last message are held back, and no entry is made for them
    have hlast : peer.heard [last] = (peer.received last.written).map (true, ·) := by
      rw [peer.heard_cons]
      exact List.append_nil _
    have hmessages : messagesSent [last] = [] := by
      rw [messagesSent_cons, if_neg hnot]
      rfl
    rw [peer.heard_append, Downstream.listen_append, hlast,
      Downstream.listen_cut (peer.received_open hopen).1, messagesSent_append, hmessages,
      List.append_nil]
    exact hfront

theorem sendMessage_heard_broken :
    (listen Downstream.frameLib (Downstream.start Downstream.settled)
        (plainPeer.heard [sentHello, brokenWorld])).parodusMsgQ.map ParodusMsg.content =
      [] ++ (messagesSent [sentHello, brokenWorld]).map (fun msg ↦ (msg, msg.length)) ∧
    ((∀ x ∈ [sentHello, brokenWorld], ¬ x.Failed) →
      (listen Downstream.frameLib (Downstream.start Downstream.settled)
        (plainPeer.heard [sentHello, brokenWorld])).previousMsg = none) :=
  sendMessage_heard plainPeer Downstream.frameLib_lawful (Downstream.start Downstream.settled) rfl
    [sentHello, brokenWorld] fun x hx ↦ by
      obtain rfl := List.mem_singleton.mp hx
      exact sentHello_not_failed

end Parodus.Upstream
