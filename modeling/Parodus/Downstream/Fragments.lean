import Parodus.Connection.Reconnect
import Parodus.Foundation.FirstMatch

namespace Parodus.Downstream

open Foundation

/-- What is used of the WebSocket library's messages. -/
structure Nopoll (M : Type) where
  isFragment : M → Bool
  isFinal : M → Bool
  getPayload : M → CString
  getPayloadSize : M → ℕ
  join : Option M → M → M

/-- The first fragment is taken over as it is, a later one is put behind what has come before. -/
structure Nopoll.Lawful {M : Type} (lib : Nopoll M) : Prop where
  payload_size : ∀ m, lib.getPayloadSize m = (lib.getPayload m).length
  join_none : ∀ m, lib.getPayload (lib.join none m) = lib.getPayload m
  join_some : ∀ m₁ m₂,
    lib.getPayload (lib.join (some m₁) m₂) = lib.getPayload m₁ ++ lib.getPayload m₂

structure ParodusMsg (M : Type) where
  msg : M
  payload : CString
  len : ℕ
  deriving DecidableEq

/-- The queue holds all that was put into it; its consumer only takes entries
from its front. -/
structure State (M : Type) where
  previousMsg : Option M
  parodusMsgQ : List (ParodusMsg M)
  globals : ReconnectState
  deriving DecidableEq

variable {M : Type} (lib : Nopoll M)

def parodusMsg (msg : M) : ParodusMsg M := ⟨msg, lib.getPayload msg, lib.getPayloadSize msg⟩

/-- One call of the listener; `allocated` is whether its `malloc` succeeds. -/
def listenerOnMessageQueue (allocated : Bool) (msg : M) (s : State M) : State M :=
  let s :=
    if lib.isFragment msg then { s with previousMsg := some (lib.join s.previousMsg msg) } else s
  if lib.isFragment msg ∧ lib.isFinal msg = false then s
  else
    let parodusMsgQ :=
      if allocated then s.parodusMsgQ ++ [parodusMsg lib (s.previousMsg.getD msg)]
      else s.parodusMsgQ
    { s with previousMsg := none, parodusMsgQ := parodusMsgQ }

/-- A message as it comes in on a connection, with the result of the `malloc`
for its queue entry. -/
inductive Message
  | whole (allocated : Bool) (msg : M) (hwhole : lib.isFragment msg = false)
  | fragments (allocated : Bool) (front : List M) (last : M)
      (hfront : ∀ m ∈ front, lib.isFragment m = true ∧ lib.isFinal m = false)
      (hlast : lib.isFragment last = true ∧ lib.isFinal last = true)

/-- A connection from its first frame to its end: the messages that came in
whole, the fragments of one that was cut off, and how the connection was closed. -/
structure Connection where
  messages : List (Message lib)
  cut : List M
  hcut : ∀ m ∈ cut, lib.isFragment m = true ∧ lib.isFinal m = false
  closeStatus : ℤ
  interfaceDownEvent : Bool

variable {lib}

def Message.allocated : Message lib → Bool
  | whole allocated _ _ => allocated
  | fragments allocated _ _ _ _ => allocated

def Message.payload : Message lib → CString
  | whole _ msg _ => lib.getPayload msg
  | fragments _ front last _ _ => front.flatMap lib.getPayload ++ lib.getPayload last

/-- What the consumer reads in an entry. -/
def ParodusMsg.content (entry : ParodusMsg M) : CString × ℕ := (entry.payload, entry.len)

def Message.content (m : Message lib) : CString × ℕ := (m.payload, m.payload.length)

/-- The calls of the listener for a message. A fragment that is not the last one
needs no memory. -/
def Message.calls : Message lib → List (Bool × M)
  | whole allocated msg _ => [(allocated, msg)]
  | fragments allocated front last _ _ => front.map (true, ·) ++ [(allocated, last)]

def Connection.calls (conn : Connection lib) : List (Bool × M) :=
  conn.messages.flatMap Message.calls ++ conn.cut.map (true, ·)

def listen (lib : Nopoll M) (s : State M) (calls : List (Bool × M)) : State M :=
  calls.foldl (fun s call ↦ listenerOnMessageQueue lib call.1 call.2 s) s

/-- A connection is served, closed, and replaced by the next. -/
def Connection.serve (s : State M) (conn : Connection lib) : State M :=
  let s := listen lib s conn.calls
  { s with globals :=
      (s.globals.listenerOnCloseMessage conn.closeStatus conn.interfaceDownEvent).connectionReset }

def serveAll (s : State M) (conns : List (Connection lib)) : State M :=
  conns.foldl Connection.serve s

/-- Nothing was received yet. -/
def start (g : ReconnectState) : State M := ⟨none, [], g⟩

/-- The queue has one entry for each message, in order and with the message's payload. -/
def Delivered (s : State M) (conns : List (Connection lib)) : Prop :=
  s.parodusMsgQ.map ParodusMsg.content = (conns.flatMap Connection.messages).map Message.content

/-- When the first frame of a connection comes in, nothing is left of the connections before. -/
def Unmixed (g : ReconnectState) (conns : List (Connection lib)) : Prop :=
  ∀ pre conn post, conns = pre ++ conn :: post → conn.calls ≠ [] →
    (serveAll (start g) pre).previousMsg = none

/-- Memory for every entry, and no frame after a connection that was cut within a message. -/
def Uncut (conns : List (Connection lib)) : Prop :=
  (∀ conn ∈ conns, ∀ m ∈ conn.messages, m.allocated = true) ∧
    conns.Pairwise fun conn later ↦ conn.cut = [] ∨ later.calls = []

def heldPayload (lib : Nopoll M) (previousMsg : Option M) : CString :=
  (previousMsg.map lib.getPayload).getD []

def joinAll (lib : Nopoll M) (previousMsg : Option M) (cut : List M) : Option M :=
  cut.foldl (fun previousMsg m ↦ some (lib.join previousMsg m)) previousMsg

variable {s : State M} {conn : Connection lib} {conns : List (Connection lib)}

theorem Nopoll.Lawful.join_payload (hlib : lib.Lawful) (previousMsg : Option M) (m : M) :
    lib.getPayload (lib.join previousMsg m) = heldPayload lib previousMsg ++ lib.getPayload m := by
  cases previousMsg with
  | none => exact hlib.join_none m
  | some a => exact hlib.join_some a m

theorem Nopoll.Lawful.content (hlib : lib.Lawful) (msg : M) :
    (parodusMsg lib msg).content = (lib.getPayload msg, (lib.getPayload msg).length) := by
  rw [parodusMsg, ParodusMsg.content, hlib.payload_size]

theorem heldPayload_joinAll (hlib : lib.Lawful) (previousMsg : Option M) (cut : List M) :
    heldPayload lib (joinAll lib previousMsg cut) =
      heldPayload lib previousMsg ++ cut.flatMap lib.getPayload := by
  induction cut generalizing previousMsg with
  | nil => exact (List.append_nil _).symm
  | cons m cut ih =>
    rw [joinAll, List.foldl_cons, ← joinAll, ih, List.flatMap_cons, ← List.append_assoc,
      ← hlib.join_payload]
    rfl

theorem joinAll_ne_none {previousMsg : Option M} {cut : List M} (hcut : cut ≠ []) :
    joinAll lib previousMsg cut ≠ none := by
  obtain rfl | ⟨front, last, rfl⟩ := List.eq_nil_or_concat' cut
  · exact absurd rfl hcut
  · rw [joinAll, List.foldl_append]
    exact Option.some_ne_none _

theorem listen_append (s : State M) (calls calls' : List (Bool × M)) :
    listen lib s (calls ++ calls') = listen lib (listen lib s calls) calls' :=
  List.foldl_append

theorem listen_cut {cut : List M}
    (hcut : ∀ m ∈ cut, lib.isFragment m = true ∧ lib.isFinal m = false) (s : State M) :
    listen lib s (cut.map (true, ·)) =
      { s with previousMsg := joinAll lib s.previousMsg cut } := by
  induction cut generalizing s with
  | nil => rfl
  | cons m cut ih =>
    obtain ⟨⟨hfragment, hfinal⟩, hrest⟩ := List.forall_mem_cons.mp hcut
    have hcall : listenerOnMessageQueue lib true m s =
        { s with previousMsg := some (lib.join s.previousMsg m) } := by
      rw [listenerOnMessageQueue, if_pos ⟨hfragment, hfinal⟩, if_pos hfragment]
    rw [List.map_cons, listen, List.foldl_cons, ← listen, hcall, ih hrest]
    rfl

/-- A message puts one entry into the queue. It is the message's own if nothing was held
back before. -/
theorem listen_message (hlib : lib.Lawful) (m : Message lib) (s : State M) :
    ∃ entry, (listen lib s m.calls).parodusMsgQ =
        s.parodusMsgQ ++ (if m.allocated then [entry] else []) ∧
      (listen lib s m.calls).previousMsg = none ∧
      (s.previousMsg = none → entry.content = m.content) := by
  cases m with
  | whole allocated msg hwhole =>
    refine ⟨parodusMsg lib (s.previousMsg.getD msg), ?_, ?_, fun hnone ↦ ?_⟩
    · cases allocated <;>
        simp [listen, Message.calls, Message.allocated, listenerOnMessageQueue, hwhole]
    · simp [listen, Message.calls, listenerOnMessageQueue, hwhole]
    · rw [hnone, Option.getD_none, hlib.content]
      rfl
  | fragments allocated front last hfront hlast =>
    obtain ⟨hfragment, hfinal⟩ := hlast
    have hcalls : listen lib s
        (Message.fragments allocated front last hfront ⟨hfragment, hfinal⟩).calls =
          listenerOnMessageQueue lib allocated last
            { s with previousMsg := joinAll lib s.previousMsg front } := by
      rw [Message.calls, listen_append, listen_cut hfront]
      rfl
    rw [hcalls]
    refine ⟨parodusMsg lib (lib.join (joinAll lib s.previousMsg front) last), ?_, ?_,
      fun hnone ↦ ?_⟩
    · cases allocated <;> simp [listenerOnMessageQueue, Message.allocated, hfragment, hfinal]
    · simp [listenerOnMessageQueue, hfragment, hfinal]
    · rw [hlib.content, hlib.join_payload, heldPayload_joinAll hlib, hnone]
      rfl

theorem listen_messages (hlib : lib.Lawful) (ms : List (Message lib)) (s : State M) :
    ∃ entries, (listen lib s (ms.flatMap Message.calls)).parodusMsgQ =
        s.parodusMsgQ ++ entries ∧
      entries.length = ms.countP Message.allocated ∧
      (s.previousMsg = none ∨ ms ≠ [] →
        (listen lib s (ms.flatMap Message.calls)).previousMsg = none) ∧
      (s.previousMsg = none → (∀ m ∈ ms, m.allocated = true) →
        entries.map ParodusMsg.content = ms.map Message.content) := by
  induction ms generalizing s with
  | nil =>
    refine ⟨[], (List.append_nil _).symm, rfl, fun h ↦ ?_, fun _ _ ↦ rfl⟩
    exact h.elim id fun hne ↦ absurd rfl hne
  | cons m ms ih =>
    obtain ⟨entry, hqueue, hprevious, hcontent⟩ := listen_message hlib m s
    obtain ⟨entries, hqueue', hlength, hprevious', hcontent'⟩ :=
      ih (listen lib s m.calls)
    rw [List.flatMap_cons, listen_append]
    refine ⟨(if m.allocated then [entry] else []) ++ entries, ?_, ?_, fun _ ↦ ?_,
      fun hnone hall ↦ ?_⟩
    · rw [hqueue', hqueue, List.append_assoc]
    · rw [List.countP_cons, List.length_append, hlength, Nat.add_comm]
      congr 1
      split <;> rfl
    · exact hprevious' (.inl hprevious)
    · obtain ⟨hm, hms⟩ := List.forall_mem_cons.mp hall
      rw [if_pos hm, List.singleton_append, List.map_cons, List.map_cons, hcontent hnone,
        hcontent' hprevious hms]

theorem serve_queue (hlib : lib.Lawful) (conn : Connection lib) (s : State M) :
    ∃ entries, (conn.serve s).parodusMsgQ = s.parodusMsgQ ++ entries ∧
      entries.length = conn.messages.countP Message.allocated ∧
      (s.previousMsg = none → (∀ m ∈ conn.messages, m.allocated = true) →
        entries.map ParodusMsg.content = conn.messages.map Message.content) := by
  obtain ⟨entries, hqueue, hlength, _, hcontent⟩ := listen_messages hlib conn.messages s
  refine ⟨entries, ?_, hlength, hcontent⟩
  rw [Connection.serve, Connection.calls, listen_append, listen_cut conn.hcut]
  exact hqueue

theorem serve_previousMsg (conn : Connection lib) (s : State M) :
    (conn.serve s).previousMsg =
      joinAll lib (listen lib s (conn.messages.flatMap Message.calls)).previousMsg conn.cut := by
  rw [Connection.serve, Connection.calls, listen_append, listen_cut conn.hcut]

theorem serve_of_cut_nil (hlib : lib.Lawful) (hcut : conn.cut = []) (hnone : s.previousMsg = none) :
    (conn.serve s).previousMsg = none := by
  obtain ⟨_, _, _, hprevious, _⟩ := listen_messages hlib conn.messages s
  rw [serve_previousMsg, hcut]
  exact hprevious (.inl hnone)

theorem serve_of_idle (h : conn.calls = []) :
    (conn.serve s).previousMsg = s.previousMsg := by
  rw [Connection.serve, h]
  rfl

theorem messages_of_idle (h : conn.calls = []) : conn.messages = [] := by
  rw [Connection.calls, List.append_eq_nil_iff, List.flatMap_eq_nil_iff] at h
  apply List.eq_nil_iff_forall_not_mem.mpr
  intro m hm
  have hcalls := h.1 m hm
  cases m <;> simp [Message.calls] at hcalls

theorem serveAll_previousMsg_of_idle (h : ∀ conn ∈ conns, conn.calls = []) (s : State M) :
    (serveAll s conns).previousMsg = s.previousMsg := by
  induction conns generalizing s with
  | nil => rfl
  | cons conn conns ih =>
    obtain ⟨hconn, hconns⟩ := List.forall_mem_cons.mp h
    rw [serveAll, List.foldl_cons, ← serveAll, ih hconns, serve_of_idle hconn]

theorem serveAll_previousMsg_of_cut_nil (hlib : lib.Lawful) (h : ∀ conn ∈ conns, conn.cut = [])
    (hnone : s.previousMsg = none) : (serveAll s conns).previousMsg = none := by
  induction conns generalizing s with
  | nil => exact hnone
  | cons conn conns ih =>
    obtain ⟨hconn, hconns⟩ := List.forall_mem_cons.mp h
    rw [serveAll, List.foldl_cons, ← serveAll]
    exact ih hconns (serve_of_cut_nil hlib hconn hnone)

/-- However the connections were cut, there is an entry for each message that memory was
found for. -/
theorem serveAll_length (hlib : lib.Lawful) (conns : List (Connection lib)) (s : State M) :
    (serveAll s conns).parodusMsgQ.length =
      s.parodusMsgQ.length + (conns.flatMap Connection.messages).countP Message.allocated := by
  induction conns generalizing s with
  | nil => rfl
  | cons conn conns ih =>
    obtain ⟨entries, hqueue, hlength, _⟩ := serve_queue hlib conn s
    rw [serveAll, List.foldl_cons, ← serveAll, ih, hqueue, List.flatMap_cons, List.countP_append,
      List.length_append, hlength, Nat.add_assoc]

theorem serveAll_of_uncut (hlib : lib.Lawful) (huncut : Uncut conns)
    (h : s.previousMsg = none ∨ ∀ conn ∈ conns, conn.calls = []) :
    (serveAll s conns).parodusMsgQ.map ParodusMsg.content =
      s.parodusMsgQ.map ParodusMsg.content ++
        (conns.flatMap Connection.messages).map Message.content := by
  induction conns generalizing s with
  | nil => exact (List.append_nil _).symm
  | cons conn conns ih =>
    obtain ⟨hallocated, hpairs⟩ := huncut
    obtain ⟨hconn, hconns⟩ := List.forall_mem_cons.mp hallocated
    obtain ⟨hcut, hrest⟩ := List.pairwise_cons.mp hpairs
    obtain ⟨entries, hqueue, hlength, hcontent⟩ := serve_queue hlib conn s
    have hentries : entries.map ParodusMsg.content = conn.messages.map Message.content := by
      rcases h with hnone | hidle
      · exact hcontent hnone hconn
      · have hnil := messages_of_idle (hidle conn List.mem_cons_self)
        rw [hnil, List.countP_nil] at hlength
        rw [hnil, List.eq_nil_of_length_eq_zero hlength]
        rfl
    have hnext : (conn.serve s).previousMsg = none ∨ ∀ later ∈ conns, later.calls = [] := by
      rcases h with hnone | hidle
      · by_cases hnil : conn.cut = []
        · exact .inl (serve_of_cut_nil hlib hnil hnone)
        · exact .inr fun later hlater ↦ (hcut later hlater).resolve_left hnil
      · exact .inr fun later hlater ↦ hidle later (List.mem_cons_of_mem _ hlater)
    rw [serveAll, List.foldl_cons, ← serveAll, ih ⟨hconns, hrest⟩ hnext, hqueue, List.map_append,
      hentries, List.flatMap_cons, List.map_append, List.append_assoc]

theorem Delivered.allocated (hlib : lib.Lawful) {g : ReconnectState}
    (h : Delivered (serveAll (start g) conns) conns) :
    ∀ conn ∈ conns, ∀ m ∈ conn.messages, m.allocated = true := by
  have hcount : (conns.flatMap Connection.messages).countP Message.allocated =
      (conns.flatMap Connection.messages).length := by
    have hlength := congrArg List.length h
    rw [List.length_map, List.length_map, serveAll_length hlib] at hlength
    simpa [start] using hlength
  intro conn hconn m hm
  exact List.countP_eq_length.mp hcount m (List.mem_flatMap.mpr ⟨conn, hconn, hm⟩)

/-- The first frame after a cut connection finds the fragments that were cut off. -/
theorem Unmixed.idle_after_cut {g : ReconnectState} {pre rest : List (Connection lib)}
    (h : Unmixed g (pre ++ conn :: rest)) (hcut : conn.cut ≠ []) :
    ∀ later ∈ rest, later.calls = [] := by
  cases hsplit : splitFirst (fun later : Connection lib ↦ !later.calls.isEmpty) rest with
  | none =>
    intro later hlater
    have hempty := splitFirst_eq_none_iff.mp hsplit later hlater
    simpa using hempty
  | some split =>
    obtain ⟨idle, later, post⟩ := split
    obtain ⟨rfl, hlater, hidle⟩ := splitFirst_eq_some hsplit
    have hcalls : later.calls ≠ [] := by simpa using hlater
    have hnone := h (pre ++ conn :: idle) later post (by simp) hcalls
    have hidle' : ∀ c ∈ idle, c.calls = [] := by
      intro c hc
      simpa using hidle c hc
    rw [serveAll, List.foldl_append, List.foldl_cons, ← serveAll, ← serveAll,
      serveAll_previousMsg_of_idle hidle', serve_previousMsg] at hnone
    exact absurd hnone (joinAll_ne_none hcut)

theorem Unmixed.pairwise {g : ReconnectState} (pre : List (Connection lib))
    (h : Unmixed g (pre ++ conns)) :
    conns.Pairwise fun conn later ↦ conn.cut = [] ∨ later.calls = [] := by
  induction conns generalizing pre with
  | nil => exact List.Pairwise.nil
  | cons conn rest ih =>
    have hrest : Unmixed g ((pre ++ [conn]) ++ rest) := by simpa using h
    refine List.pairwise_cons.mpr ⟨fun later hlater ↦ ?_, ih _ hrest⟩
    by_cases hcut : conn.cut = []
    · exact .inl hcut
    · exact .inr (h.idle_after_cut hcut later hlater)

theorem Uncut.unmixed (hlib : lib.Lawful) (h : Uncut conns) (g : ReconnectState) :
    Unmixed g conns := by
  intro pre conn post heq hcalls
  subst heq
  apply serveAll_previousMsg_of_cut_nil hlib
  · intro c hc
    have hpair := (List.pairwise_append.mp h.2).2.2 c hc conn List.mem_cons_self
    exact hpair.resolve_right hcalls
  · rfl

theorem listenerOnMessageQueue_delivers_iff (hlib : lib.Lawful) (g : ReconnectState)
    (conns : List (Connection lib)) :
    Delivered (serveAll (start g) conns) conns ∧ Unmixed g conns ↔ Uncut conns := by
  constructor
  · intro h
    obtain ⟨hdelivered, hunmixed⟩ := h
    exact ⟨hdelivered.allocated hlib, Unmixed.pairwise [] hunmixed⟩
  · intro h
    refine ⟨?_, h.unmixed hlib g⟩
    rw [Delivered, serveAll_of_uncut hlib h (.inl rfl)]
    rfl

section Inputs

structure Frame where
  fragment : Bool
  final : Bool
  payload : CString
  deriving DecidableEq

def frameLib : Nopoll Frame where
  isFragment := Frame.fragment
  isFinal := Frame.final
  getPayload := Frame.payload
  getPayloadSize m := m.payload.length
  join previousMsg m := { m with payload := (previousMsg.map Frame.payload).getD [] ++ m.payload }

theorem frameLib_lawful : frameLib.Lawful := ⟨fun _ ↦ rfl, fun _ ↦ rfl, fun _ _ ↦ rfl⟩

def hello : Frame := ⟨true, false, "hello".toList⟩

def world : Frame := ⟨true, true, "world".toList⟩

def event : Frame := ⟨false, true, "event".toList⟩

/-- "hello" and "world" come in as two fragments. -/
def helloWorld : Connection frameLib where
  messages := [.fragments true [hello] world (by decide) (by decide)]
  cut := []
  hcut := by decide
  closeStatus := 1006
  interfaceDownEvent := false

/-- The connection is lost behind the first fragment. -/
def helloOnly : Connection frameLib where
  messages := []
  cut := [hello]
  hcut := by decide
  closeStatus := 1006
  interfaceDownEvent := false

def eventOnly : Connection frameLib where
  messages := [.whole true event rfl]
  cut := []
  hcut := by decide
  closeStatus := 1000
  interfaceDownEvent := false

def settled : ReconnectState := ⟨none, some "webpa_process_starts".toList, false, false⟩

end Inputs

theorem helloWorld_delivered :
    Delivered (serveAll (start settled) [helloWorld, helloOnly]) [helloWorld, helloOnly] ∧
      Unmixed settled [helloWorld, helloOnly] := by
  apply (listenerOnMessageQueue_delivers_iff frameLib_lawful settled _).mpr
  refine ⟨by decide, ?_⟩
  rw [List.pairwise_pair]
  exact .inl rfl

/-- The event of the second connection is lost, and the fragment of the first
one is queued in its place. -/
theorem helloOnly_replaces_event :
    ((serveAll (start settled) [helloOnly, eventOnly]).parodusMsgQ.map ParodusMsg.payload) =
      ["hello".toList] ∧
    ¬ Delivered (serveAll (start settled) [helloOnly, eventOnly]) [helloOnly, eventOnly] := by
  have hqueue : (serveAll (start settled) [helloOnly, eventOnly]).parodusMsgQ =
      [⟨hello, hello.payload, hello.payload.length⟩] := rfl
  refine ⟨by rw [hqueue]; rfl, fun h ↦ ?_⟩
  rw [Delivered, hqueue] at h
  have hpayload := congrArg (List.map Prod.fst) h
  exact absurd hpayload (by decide)

end Parodus.Downstream
