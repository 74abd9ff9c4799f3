import Parodus.Downstream.Fragments
import Parodus.Foundation.Mailbox
import Parodus.Foundation.References
import Parodus.Foundation.Runs

namespace Parodus.Downstream

open Foundation Foundation.Runs

/-- Where the main thread is with a message: the library calls the listener, and drops its own
reference once the listener has returned. -/
inductive Listener
  | idle
  | called (msg : ℕ)
  | queuing (entry msg : ℕ)
  | returned (msg : ℕ)
  deriving DecidableEq

/-- The messages of the library, and who refers to them. `contents` holds what each message was
made with. `leaked` lists the messages to which a reference was lost, `failed` counts the entries
for which there was no memory, and `heard` lists the calls of the listener. -/
structure Shared (M : Type) where
  heap : References
  contents : List M
  listener : Listener
  previousMsg : Option ℕ
  parodusMsgQ : Mailbox ℕ
  leaked : List ℕ
  failed : ℕ
  heard : List (Bool × M)

variable {M : Type}

/-- A message comes in, with the reference of the library. -/
def receive (msg : M) (s : Shared M) : Option (Shared M) :=
  match s.listener with
  | .idle =>
    some { s with
      heap := s.heap.make
      contents := s.contents ++ [msg]
      listener := .called s.heap.made }
  | _ => none

/-- `nopoll_msg_join`: another reference to the first fragment, or a new message, behind which the
reference to the old one is dropped. -/
def joinPrevious (lib : Nopoll M) (id : ℕ) (msg : M) (s : Shared M) : Shared M :=
  match s.previousMsg with
  | none => { s with heap := s.heap.ref id, previousMsg := some id }
  | some aux =>
    { s with
      heap := (s.heap.use aux).make.unref aux
      contents := s.contents ++ [lib.join s.contents[aux]? msg]
      previousMsg := some s.heap.made }

def joinFragment (lib : Nopoll M) (id : ℕ) (msg : M) (s : Shared M) : Shared M :=
  if lib.isFragment msg then joinPrevious lib id msg s else s

/-- The entry takes over the reference to the joined fragments, or takes one of its own.
`previous_msg` is only used by this thread, which clears it before it returns. -/
def queueEntry (allocated : Bool) (id : ℕ) (s : Shared M) : Shared M :=
  if allocated then
    match s.previousMsg with
    | some joined =>
      { s with heap := s.heap.use joined, listener := .queuing joined id, previousMsg := none }
    | none => { s with heap := s.heap.ref id, listener := .queuing id id }
  else
    { s with
      listener := .returned id
      previousMsg := none
      leaked := s.previousMsg.toList ++ s.leaked
      failed := s.failed + 1 }

/-- The listener up to the lock of the queue. -/
def listenStep (lib : Nopoll M) (allocated : Bool) (s : Shared M) : Option (Shared M) :=
  match s.listener with
  | .called id =>
    s.contents[id]?.map fun msg ↦
      let s := { s with heap := s.heap.use id, heard := s.heard ++ [(allocated, msg)] }
      let s := joinFragment lib id msg s
      if lib.isFragment msg ∧ lib.isFinal msg = false then { s with listener := .returned id }
      else queueEntry allocated id s
  | _ => none

/-- The critical section of the listener. -/
def enqueue (s : Shared M) : Option (Shared M) :=
  match s.listener with
  | .queuing entry id =>
    (s.parodusMsgQ.add entry).map fun q ↦ { s with parodusMsgQ := q, listener := .returned id }
  | _ => none

/-- The library drops its reference. -/
def release (s : Shared M) : Option (Shared M) :=
  match s.listener with
  | .returned id => some { s with heap := s.heap.unref id, listener := .idle }
  | _ => none

/-- The message of the entry that the consumer works on. -/
def handling (q : Mailbox ℕ) : Option ℕ :=
  match q.reader with
  | .busy id => some id
  | _ => none

/-- The consumer reads the payload, and drops the reference of the entry. -/
def handleMessage (stop : Bool) (s : Shared M) : Option (Shared M) :=
  (s.parodusMsgQ.read stop).map fun q ↦
    { s with parodusMsgQ := q, heap := s.heap.unrefOption (handling s.parodusMsgQ) }

inductive MsgAction (M : Type)
  | receive (msg : M)
  | listen (allocated : Bool)
  | enqueue
  | release
  | handle (stop : Bool)
  | spurious
  | tell (stop : Bool)

/-- A step of the main thread or of the consumer. -/
def msgStep (lib : Nopoll M) (s : Shared M) : MsgAction M → Option (Shared M)
  | .receive msg => receive msg s
  | .listen allocated => listenStep lib allocated s
  | .enqueue => enqueue s
  | .release => release s
  | .handle stop => handleMessage stop s
  | .spurious => s.parodusMsgQ.spurious.map fun q ↦ { s with parodusMsgQ := q }
  | .tell stop => (s.parodusMsgQ.tell stop).map fun q ↦ { s with parodusMsgQ := q }

def MsgStep (lib : Nopoll M) (s : Shared M) (a : MsgAction M) (t : Shared M) : Prop :=
  msgStep lib s a = some t

/-- No message has come in. -/
def unheard : Shared M := ⟨.start, [], .idle, none, .start, [], 0, []⟩

def Listener.held : Listener → List ℕ
  | .idle => []
  | .called msg | .returned msg => [msg]
  | .queuing entry msg => [entry, msg]

/-- Who holds a reference: the main thread, the queue, the consumer, or nobody any more. -/
def Shared.held (s : Shared M) : List ℕ :=
  s.listener.held ++ s.previousMsg.toList ++ s.parodusMsgQ.queue ++
    (handling s.parodusMsgQ).toList ++ s.leaked

/-- No message is used behind its last reference, a message that nobody holds is freed, and a
reference is only lost where there is no memory for an entry. -/
structure MessagesRight (s : Shared M) : Prop where
  sound : s.heap.faulty = false
  live : ∀ id ∈ s.held, 0 < s.heap.refs id
  freed : ∀ id, id ∉ s.held → s.heap.refs id = 0
  leaked : s.leaked.length ≤ s.failed

/-- The entry that the listener is about to put into the queue. -/
def Listener.pending : Listener → List ℕ
  | .queuing entry _ => [entry]
  | _ => []

/-- What the consumer took, what waits for it and what is about to be queued are, in this order,
the messages that the listener queues in its calls, one after the other. -/
def HandedOver (lib : Nopoll M) (s : Shared M) : Prop :=
  ∀ g, (s.parodusMsgQ.taken ++ s.parodusMsgQ.queue ++ s.listener.pending).map
      (fun id ↦ s.contents[id]?) =
    ((Downstream.listen lib (start g) s.heard).parodusMsgQ.map ParodusMsg.msg).map some

section References

variable {lib : Nopoll M} {s t : Shared M} {a : MsgAction M} {id : ℕ} {msg : M}

structure MessagesInv (s : Shared M) : Prop where
  counted : s.heap.Counted s.held
  leaked : s.leaked.length ≤ s.failed

theorem messagesInv_unheard : MessagesInv (unheard : Shared M) :=
  ⟨References.counted_start, Nat.le_refl 0⟩

theorem MessagesInv.receive (h : MessagesInv s) (hst : Downstream.receive msg s = some t) :
    MessagesInv t := by
  unfold Downstream.receive at hst
  split at hst
  · rename_i hidle
    obtain rfl := Option.some.inj hst
    refine ⟨?_, h.leaked⟩
    have hcounted := h.counted
    simp only [Shared.held, hidle, Listener.held, List.nil_append] at hcounted
    exact hcounted.make
  · cases hst

theorem joinPrevious_counted (hid : id ∈ s.listener.held) (h : s.heap.Counted s.held) :
    (joinPrevious lib id msg s).heap.Counted (joinPrevious lib id msg s).held := by
  have hmem : id ∈ s.held := by simp [Shared.held, hid]
  unfold joinPrevious
  cases hprevious : s.previousMsg with
  | none =>
    refine (h.ref hmem).perm (List.perm_iff_count.mpr fun i ↦ ?_)
    simp only [Shared.held, hprevious, Option.toList_none, Option.toList_some, List.count_append,
      List.count_cons, List.count_nil]
    omega
  | some aux =>
    have haux : aux ∈ s.held := by simp [Shared.held, hprevious]
    refine References.Counted.unref ((h.use haux).make.perm (List.perm_iff_count.mpr fun i ↦ ?_))
    simp only [Shared.held, hprevious, Option.toList_some, List.count_append, List.count_cons,
      List.count_nil, References.use]
    omega

theorem joinFragment_inv (hlistener : s.listener = .called id) (h : MessagesInv s) :
    (joinFragment lib id msg s).listener = .called id ∧
      (joinFragment lib id msg s).heap.Counted (joinFragment lib id msg s).held ∧
      (joinFragment lib id msg s).leaked.length ≤ (joinFragment lib id msg s).failed := by
  unfold joinFragment
  split
  · refine ⟨?_, joinPrevious_counted ?_ h.counted, ?_⟩
    · unfold joinPrevious
      split <;> exact hlistener
    · simp [hlistener, Listener.held]
    · unfold joinPrevious
      split <;> exact h.leaked
  · exact ⟨hlistener, h.counted, h.leaked⟩

theorem queueEntry_counted (hlistener : s.listener = .called id) (h : s.heap.Counted s.held)
    (allocated : Bool) :
    (queueEntry allocated id s).heap.Counted (queueEntry allocated id s).held := by
  have hmem : id ∈ s.held := by simp [Shared.held, hlistener, Listener.held]
  unfold queueEntry
  cases allocated with
  | true =>
    rw [if_pos rfl]
    cases hprevious : s.previousMsg with
    | none =>
      refine (h.ref hmem).perm (List.perm_iff_count.mpr fun i ↦ ?_)
      simp only [Shared.held, hprevious, hlistener, Listener.held, List.count_append,
        List.count_cons, List.count_nil]
      omega
    | some joined =>
      have hjoined : joined ∈ s.held := by simp [Shared.held, hprevious]
      refine (h.use hjoined).perm (List.perm_iff_count.mpr fun i ↦ ?_)
      simp only [Shared.held, hprevious, hlistener, Listener.held, Option.toList_none,
        Option.toList_some, List.count_append, List.count_cons, List.count_nil]
      omega
  | false =>
    rw [if_neg Bool.false_ne_true]
    refine h.perm (List.perm_iff_count.mpr fun i ↦ ?_)
    simp only [Shared.held, hlistener, Listener.held, Option.toList_none, List.count_append,
      List.count_cons, List.count_nil]
    omega

theorem queueEntry_leaked (allocated : Bool) (h : s.leaked.length ≤ s.failed) :
    (queueEntry allocated id s).leaked.length ≤ (queueEntry allocated id s).failed := by
  unfold queueEntry
  split
  · split
    · exact h
    · exact h
  · dsimp only
    rw [List.length_append]
    have hone : s.previousMsg.toList.length ≤ 1 := by cases s.previousMsg <;> simp
    omega

theorem MessagesInv.listen {allocated : Bool} (h : MessagesInv s)
    (hst : listenStep lib allocated s = some t) : MessagesInv t := by
  unfold listenStep at hst
  split at hst
  case h_2 => cases hst
  rename_i id hlistener
  obtain ⟨msg, _, rfl⟩ := Option.map_eq_some_iff.mp hst
  have hmem : id ∈ s.held := by simp [Shared.held, hlistener, Listener.held]
  -- the first use of the message, and the fragments joined
  obtain ⟨hcalled, hcounted, hleaked⟩ := @joinFragment_inv M lib
    { s with heap := s.heap.use id, heard := s.heard ++ [(allocated, msg)] } id msg hlistener
    ⟨h.counted.use hmem, h.leaked⟩
  dsimp only
  split
  · refine ⟨?_, hleaked⟩
    rw [Shared.held, hcalled] at hcounted
    exact hcounted
  · exact ⟨queueEntry_counted hcalled hcounted allocated, queueEntry_leaked allocated hleaked⟩

theorem handling_signal (q : Mailbox ℕ) (queue put : List ℕ) :
    handling { q with queue := queue, reader := q.reader.signal, put := put } = handling q := by
  obtain ⟨_, reader, _, _, _⟩ := q
  cases reader <;> rfl

theorem add_cases {q q' : Mailbox ℕ} (h : q.add id = some q') :
    q'.queue = q.queue ++ [id] ∧ handling q' = handling q := by
  unfold Mailbox.add at h
  split at h
  · cases h
  · obtain rfl := Option.some.inj h
    refine ⟨rfl, ?_⟩
    split
    · exact handling_signal q _ _
    · rfl

/-- The consumer takes the front of the queue, or is done with what it took. -/
theorem read_cases {q q' : Mailbox ℕ} {stop : Bool} (h : q.read stop = some q') :
    (handling q = none ∧ ((handling q' = none ∧ q'.queue = q.queue) ∨
      ∃ id, handling q' = some id ∧ q.queue = id :: q'.queue)) ∨
    ∃ id, handling q = some id ∧ handling q' = none ∧ q'.queue = q.queue := by
  obtain ⟨queue, reader, put, taken, told⟩ := q
  cases reader with
  | top =>
    cases queue with
    | nil =>
      obtain rfl := Option.some.inj h
      exact .inl ⟨rfl, .inl ⟨rfl, rfl⟩⟩
    | cons id queue =>
      obtain rfl := Option.some.inj h
      exact .inl ⟨rfl, .inr ⟨id, rfl, rfl⟩⟩
  | empty =>
    obtain rfl := Option.some.inj h
    cases stop
    · exact .inl ⟨rfl, .inl ⟨rfl, rfl⟩⟩
    · exact .inl ⟨rfl, .inl ⟨rfl, rfl⟩⟩
  | busy id =>
    obtain rfl := Option.some.inj h
    exact .inr ⟨id, rfl, rfl, rfl⟩
  | toWait | woken | leaving =>
    obtain rfl := Option.some.inj h
    exact .inl ⟨rfl, .inl ⟨rfl, rfl⟩⟩
  | blocked | left => cases h

theorem MessagesInv.enqueue (h : MessagesInv s) (hst : Downstream.enqueue s = some t) :
    MessagesInv t := by
  unfold Downstream.enqueue at hst
  split at hst
  case h_2 => cases hst
  rename_i entry id hlistener
  obtain ⟨q, hadd, rfl⟩ := Option.map_eq_some_iff.mp hst
  obtain ⟨hqueue, hhandling⟩ := add_cases hadd
  refine ⟨h.counted.perm (List.perm_iff_count.mpr fun i ↦ ?_), h.leaked⟩
  simp only [Shared.held, hlistener, hqueue, hhandling, Listener.held, List.count_append,
    List.count_cons, List.count_nil]
  omega

theorem MessagesInv.release (h : MessagesInv s) (hst : Downstream.release s = some t) :
    MessagesInv t := by
  unfold Downstream.release at hst
  split at hst
  case h_2 => cases hst
  rename_i id hlistener
  obtain rfl := Option.some.inj hst
  have hcounted := h.counted
  simp only [Shared.held, hlistener, Listener.held, List.cons_append, List.nil_append] at hcounted
  exact ⟨hcounted.unref, h.leaked⟩

theorem MessagesInv.handle {stop : Bool} (h : MessagesInv s)
    (hst : handleMessage stop s = some t) : MessagesInv t := by
  obtain ⟨q, hread, rfl⟩ := Option.map_eq_some_iff.mp hst
  have hcounted := h.counted
  refine ⟨?_, h.leaked⟩
  obtain ⟨hnone, ⟨hnone', hqueue⟩ | ⟨id, hsome, hqueue⟩⟩ | ⟨id, hsome, hnone, hqueue⟩ :=
    read_cases hread
  · refine References.Counted.unrefOption (hcounted.perm (List.perm_iff_count.mpr fun i ↦ ?_))
    simp only [Shared.held, hnone, hnone', hqueue, Option.toList_none, List.nil_append]
  · refine References.Counted.unrefOption (hcounted.perm (List.perm_iff_count.mpr fun i ↦ ?_))
    simp only [Shared.held, hnone, hsome, hqueue, Option.toList_none, Option.toList_some,
      List.count_append, List.count_cons, List.count_nil]
    omega
  · refine References.Counted.unrefOption (hcounted.perm (List.perm_iff_count.mpr fun i ↦ ?_))
    simp only [Shared.held, hnone, hsome, hqueue, Option.toList_none, Option.toList_some,
      List.count_append, List.count_cons, List.count_nil]
    omega

theorem handling_spurious {q q' : Mailbox ℕ} (h : q.spurious = some q') :
    q'.queue = q.queue ∧ handling q' = handling q := by
  unfold Mailbox.spurious at h
  split at h
  · rename_i hreader
    obtain rfl := Option.some.inj h
    refine ⟨rfl, ?_⟩
    rw [handling, handling, hreader]
  · cases h

theorem handling_tell {q q' : Mailbox ℕ} {stop : Bool} (h : q.tell stop = some q') :
    q'.queue = q.queue ∧ handling q' = handling q := by
  unfold Mailbox.tell at h
  split at h
  · cases h
  · obtain rfl := Option.some.inj h
    obtain ⟨_, reader, _, _, _⟩ := q
    refine ⟨rfl, ?_⟩
    cases reader <;> rfl

/-- To wake the consumer moves no reference. -/
theorem MessagesInv.wake {q : Mailbox ℕ} (h : MessagesInv s)
    (hq : q.queue = s.parodusMsgQ.queue ∧ handling q = handling s.parodusMsgQ) :
    MessagesInv { s with parodusMsgQ := q } := by
  refine ⟨?_, h.leaked⟩
  have hheld : Shared.held { s with parodusMsgQ := q } = s.held := by
    simp only [Shared.held, hq]
  rw [hheld]
  exact h.counted

theorem MessagesInv.step (h : MessagesInv s) (hst : MsgStep lib s a t) : MessagesInv t := by
  unfold MsgStep at hst
  cases a with
  | receive msg => exact h.receive hst
  | listen allocated => exact h.listen hst
  | enqueue => exact h.enqueue hst
  | release => exact h.release hst
  | handle stop => exact h.handle hst
  | spurious =>
    obtain ⟨q, hq, rfl⟩ := Option.map_eq_some_iff.mp hst
    exact h.wake (handling_spurious hq)
  | tell stop =>
    obtain ⟨q, hq, rfl⟩ := Option.map_eq_some_iff.mp hst
    exact h.wake (handling_tell hq)

theorem MessagesInv.right (h : MessagesInv s) : MessagesRight s where
  sound := h.counted.sound
  live _ hid := h.counted.pos hid
  freed _ hid := h.counted.freed hid
  leaked := h.leaked

end References

section Order

variable {lib : Nopoll M} {s t : Shared M} {a : MsgAction M} {id : ℕ} {msg : M}

/-- The shared messages are those of the listener on its own. -/
structure Refines (lib : Nopoll M) (s : Shared M) (f : State M) : Prop where
  made : s.heap.made = s.contents.length
  inOrder : s.parodusMsgQ.InOrder
  queued : (s.parodusMsgQ.put ++ s.listener.pending).map (fun id ↦ s.contents[id]?) =
    (f.parodusMsgQ.map ParodusMsg.msg).map some
  previous : s.previousMsg.map (fun id ↦ s.contents[id]?) = f.previousMsg.map some

/-- What an entry stands for does not change when messages are made. -/
theorem contents_append {contents more : List M} {ids : List ℕ} {msgs : List M}
    (h : ids.map (fun id ↦ contents[id]?) = msgs.map some) :
    ids.map (fun id ↦ (contents ++ more)[id]?) = msgs.map some := by
  induction ids generalizing msgs with
  | nil => exact h
  | cons id ids ih =>
    cases msgs with
    | nil => cases h
    | cons msg msgs =>
      obtain ⟨hid, hrest⟩ := List.cons.inj h
      dsimp only at hid
      obtain ⟨hlt, _⟩ := List.getElem?_eq_some_iff.mp hid
      rw [List.map_cons, List.map_cons, ih hrest, List.getElem?_append_left hlt, hid]

theorem previous_append {contents more : List M} {previousMsg : Option ℕ} {previous : Option M}
    (h : previousMsg.map (fun id ↦ contents[id]?) = previous.map some) :
    previousMsg.map (fun id ↦ (contents ++ more)[id]?) = previous.map some := by
  cases previousMsg with
  | none => exact h
  | some id =>
    cases previous with
    | none => cases h
    | some msg =>
      have hid : contents[id]? = some msg := Option.some.inj h
      obtain ⟨hlt, _⟩ := List.getElem?_eq_some_iff.mp hid
      rw [Option.map_some, List.getElem?_append_left hlt, hid, Option.map_some]

variable {f : State M}

theorem Refines.moves (h : Refines lib s f) (listener : Listener)
    (hpending : listener.pending = s.listener.pending) :
    Refines lib { s with listener := listener } f where
  made := h.made
  inOrder := h.inOrder
  queued := by
    dsimp only
    rw [hpending]
    exact h.queued
  previous := h.previous

theorem Refines.join (hjoin : ∀ m, lib.join none m = m) (h : Refines lib s f)
    (hid : s.contents[id]? = some msg) :
    Refines lib (joinFragment lib id msg s) (if lib.isFragment msg then
      { f with previousMsg := some (lib.join f.previousMsg msg) } else f) := by
  unfold joinFragment
  split
  case isFalse => exact h
  case isTrue =>
    have hprevious := h.previous
    unfold joinPrevious
    cases hs : s.previousMsg with
    | none =>
      rw [hs] at hprevious
      have hf : f.previousMsg = none := Option.map_eq_none_iff.mp hprevious.symm
      refine ⟨h.made, h.inOrder, h.queued, ?_⟩
      dsimp only
      rw [hf, hjoin, Option.map_some, Option.map_some, hid]
    | some aux =>
      rw [hs] at hprevious
      obtain ⟨previous, hf, heq⟩ := Option.map_eq_some_iff.mp hprevious.symm
      have haux : s.contents[aux]? = some previous := heq.symm
      refine ⟨?_, h.inOrder, contents_append h.queued, ?_⟩
      · rw [List.length_append, List.length_singleton, ← h.made]
        rfl
      · dsimp only
        rw [hf, haux, Option.map_some, Option.map_some, h.made,
          List.getElem?_append_right (Nat.le_refl _), Nat.sub_self]
        rfl

theorem Refines.entry (h : Refines lib s f) (hcalled : s.listener = .called id)
    (hid : s.contents[id]? = some msg) (allocated : Bool) :
    Refines lib (queueEntry allocated id s) { f with
      previousMsg := none
      parodusMsgQ :=
        if allocated then f.parodusMsgQ ++ [parodusMsg lib (f.previousMsg.getD msg)]
        else f.parodusMsgQ } := by
  have hqueued := h.queued
  have hprevious := h.previous
  simp only [hcalled, Listener.pending, List.append_nil] at hqueued
  unfold queueEntry
  cases allocated with
  | false => exact ⟨h.made, h.inOrder, (congrArg _ (List.append_nil _)).trans hqueued, rfl⟩
  | true =>
    rw [if_pos rfl, if_pos rfl]
    cases hs : s.previousMsg with
    | none =>
      rw [hs] at hprevious
      have hf : f.previousMsg = none := Option.map_eq_none_iff.mp hprevious.symm
      refine ⟨h.made, h.inOrder, ?_, ?_⟩
      · dsimp only [Listener.pending]
        rw [List.map_append, List.map_append, List.map_append, hqueued, hf, Option.getD_none]
        exact congrArg (_ ++ [·]) hid
      · rfl
    | some joined =>
      rw [hs] at hprevious
      obtain ⟨previous, hf, heq⟩ := Option.map_eq_some_iff.mp hprevious.symm
      refine ⟨h.made, h.inOrder, ?_, rfl⟩
      dsimp only [Listener.pending]
      rw [List.map_append, List.map_append, List.map_append, hqueued, hf, Option.getD_some]
      exact congrArg (_ ++ [·]) heq.symm

theorem joinFragment_kept (lib : Nopoll M) (s : Shared M) (hid : s.contents[id]? = some msg) :
    (joinFragment lib id msg s).contents[id]? = some msg ∧
      (joinFragment lib id msg s).listener = s.listener ∧
      (joinFragment lib id msg s).heard = s.heard := by
  obtain ⟨hlt, _⟩ := List.getElem?_eq_some_iff.mp hid
  unfold joinFragment joinPrevious
  split
  · split
    · exact ⟨hid, rfl, rfl⟩
    · exact ⟨(List.getElem?_append_left hlt).trans hid, rfl, rfl⟩
  · exact ⟨hid, rfl, rfl⟩

theorem queueEntry_heard (allocated : Bool) (id : ℕ) (s : Shared M) :
    (queueEntry allocated id s).heard = s.heard := by
  unfold queueEntry
  repeat' split
  all_goals rfl

/-- A call of the listener does with the shared messages what it does with messages of its own. -/
theorem Refines.listen (hjoin : ∀ m, lib.join none m = m) (h : Refines lib s f)
    {allocated : Bool} (hst : listenStep lib allocated s = some t) :
    ∃ msg, t.heard = s.heard ++ [(allocated, msg)] ∧
      Refines lib t (listenerOnMessageQueue lib allocated msg f) := by
  unfold listenStep at hst
  split at hst
  case h_2 => cases hst
  rename_i id hlistener
  obtain ⟨msg, hid, rfl⟩ := Option.map_eq_some_iff.mp hst
  have hfirst : Refines lib
      { s with heap := s.heap.use id, heard := s.heard ++ [(allocated, msg)] } f :=
    ⟨h.made, h.inOrder, h.queued, h.previous⟩
  have hjoined := hfirst.join hjoin hid
  obtain ⟨hid', hcalled, hheard⟩ := joinFragment_kept lib
    { s with heap := s.heap.use id, heard := s.heard ++ [(allocated, msg)] } hid
  refine ⟨msg, ?_, ?_⟩
  · dsimp only
    split
    · exact hheard
    · exact (queueEntry_heard _ _ _).trans hheard
  · unfold listenerOnMessageQueue
    dsimp only
    by_cases hfront : lib.isFragment msg = true ∧ lib.isFinal msg = false
    · rw [if_pos hfront, if_pos hfront]
      refine hjoined.moves (.returned id) ?_
      rw [hcalled, hlistener]
      rfl
    · rw [if_neg hfront, if_neg hfront]
      exact hjoined.entry (hcalled.trans hlistener) hid' allocated

theorem Refines.receive (h : Refines lib s f) (hst : Downstream.receive msg s = some t) :
    t.heard = s.heard ∧ Refines lib t f := by
  unfold Downstream.receive at hst
  split at hst
  case h_2 => cases hst
  rename_i hidle
  obtain rfl := Option.some.inj hst
  have hqueued := h.queued
  rw [hidle] at hqueued
  refine ⟨rfl, ?_, h.inOrder, contents_append hqueued, previous_append h.previous⟩
  rw [List.length_append, List.length_singleton, ← h.made]
  rfl

theorem Refines.enqueue (h : Refines lib s f) (hst : Downstream.enqueue s = some t) :
    t.heard = s.heard ∧ Refines lib t f := by
  unfold Downstream.enqueue at hst
  split at hst
  case h_2 => cases hst
  rename_i entry id hlistener
  obtain ⟨q, hadd, rfl⟩ := Option.map_eq_some_iff.mp hst
  obtain ⟨hinOrder, hput⟩ := Mailbox.InOrder.add h.inOrder hadd
  refine ⟨rfl, h.made, hinOrder, ?_, h.previous⟩
  have hqueued := h.queued
  rw [hlistener] at hqueued
  dsimp only
  rw [hput]
  exact (congrArg _ (List.append_nil _)).trans hqueued

theorem Refines.box {q : Mailbox ℕ} {heap : References} (h : Refines lib s f)
    (hmade : heap.made = s.heap.made) (hq : q.InOrder ∧ q.put = s.parodusMsgQ.put) :
    Refines lib { s with parodusMsgQ := q, heap := heap } f where
  made := hmade.trans h.made
  inOrder := hq.1
  queued := by
    dsimp only
    rw [hq.2]
    exact h.queued
  previous := h.previous

theorem unrefOption_made (r : References) (p : Option ℕ) : (r.unrefOption p).made = r.made := by
  cases p <;> rfl

/-- Only a call of the listener is one of the listener on its own. -/
theorem Refines.step (hjoin : ∀ m, lib.join none m = m) {g : ReconnectState}
    (h : Refines lib s (Downstream.listen lib (start g) s.heard)) (hst : MsgStep lib s a t) :
    Refines lib t (Downstream.listen lib (start g) t.heard) := by
  unfold MsgStep at hst
  cases a with
  | receive msg =>
    obtain ⟨hheard, hrefines⟩ := h.receive hst
    rwa [hheard]
  | listen allocated =>
    obtain ⟨msg, hheard, hrefines⟩ := h.listen hjoin hst
    rw [hheard, listen_append]
    exact hrefines
  | enqueue =>
    obtain ⟨hheard, hrefines⟩ := h.enqueue hst
    rwa [hheard]
  | release =>
    change Downstream.release s = some t at hst
    unfold Downstream.release at hst
    split at hst
    case h_2 => cases hst
    rename_i id hlistener
    obtain rfl := Option.some.inj hst
    have hmoved := h.moves .idle (by rw [hlistener]; rfl)
    exact ⟨hmoved.made, hmoved.inOrder, hmoved.queued, hmoved.previous⟩
  | handle stop =>
    obtain ⟨q, hread, rfl⟩ := Option.map_eq_some_iff.mp hst
    exact h.box (unrefOption_made _ _) (Mailbox.InOrder.read h.inOrder hread)
  | spurious =>
    obtain ⟨q, hq, rfl⟩ := Option.map_eq_some_iff.mp hst
    exact h.box rfl (@Mailbox.InOrder.wake _ false _ _ h.inOrder (.inl hq))
  | tell stop =>
    obtain ⟨q, hq, rfl⟩ := Option.map_eq_some_iff.mp hst
    exact h.box rfl (Mailbox.InOrder.wake h.inOrder (.inr hq))

theorem refines_unheard (g : ReconnectState) :
    Refines lib unheard (Downstream.listen lib (start g) []) :=
  ⟨rfl, rfl, rfl, rfl⟩

end Order

section Runs

variable {lib : Nopoll M} {s : Shared M} {tr : List (Shared M × MsgAction M)}

/-- In any interleaving of the main thread and the consumer, whichever entries find no memory. -/
theorem run_messagesRight (h : Run (MsgStep lib) unheard tr s) :
    Throughout MessagesRight tr s := by
  obtain ⟨htr, hs⟩ := h.invariant (P := MessagesInv) (fun _ _ _ hs ↦ hs.step) messagesInv_unheard
  exact ⟨fun x hmem ↦ (htr x hmem).right, hs.right⟩

/-- Where the first fragment is taken over as it is, the consumer works on what the listener
queues. -/
theorem run_handedOver (hjoin : ∀ m, lib.join none m = m) (h : Run (MsgStep lib) unheard tr s) :
    Throughout (HandedOver lib) tr s := by
  have hover : ∀ s, (∀ g, Refines lib s (Downstream.listen lib (start g) s.heard)) →
      HandedOver lib s := by
    intro s hs g
    rw [(hs g).inOrder]
    exact (hs g).queued
  obtain ⟨htr, hs⟩ := h.invariant
    (P := fun s ↦ ∀ g, Refines lib s (Downstream.listen lib (start g) s.heard))
    (fun _ _ _ hs hst g ↦ (hs g).step hjoin hst) refines_unheard
  exact ⟨fun x hmem ↦ hover _ (htr x hmem), hover _ hs⟩

/-- Two fragments, of which the second comes in while the consumer waits. -/
def fragmentsRun : List (MsgAction Frame) :=
  [.receive hello, .listen true, .release, .handle false, .handle false, .receive world,
    .handle false, .listen true, .enqueue, .handle false, .handle false, .release, .handle false]

theorem run_messagesRight_fragments : ∃ tr s,
    Run (MsgStep frameLib) unheard tr s ∧ s.contents.length = 3 ∧
      MessagesRight s ∧ ∀ id, s.heap.refs id = 0 := by
  have hexec : (exec (msgStep frameLib) unheard fragmentsRun).map
      (fun r ↦ (r.2.contents.length, r.2.held)) = some (3, []) := by
    rfl
  obtain ⟨r, hr, heq⟩ := Option.map_eq_some_iff.mp hexec
  obtain ⟨hcontents, hheld⟩ := Prod.mk.inj heq
  have hright := (run_messagesRight (run_of_exec hr)).2
  refine ⟨r.1, r.2, run_of_exec hr, hcontents, hright, fun id ↦ hright.freed id ?_⟩
  rw [hheld]
  exact List.not_mem_nil

theorem run_handedOver_fragments : ∃ tr s,
    Run (MsgStep frameLib) unheard tr s ∧ s.parodusMsgQ.taken.length = 1 ∧
      HandedOver frameLib s := by
  have hexec : (exec (msgStep frameLib) unheard fragmentsRun).map
      (fun r ↦ r.2.parodusMsgQ.taken.length) = some 1 := by
    rfl
  obtain ⟨r, hr, htaken⟩ := Option.map_eq_some_iff.mp hexec
  exact ⟨r.1, r.2, run_of_exec hr, htaken, (run_handedOver (fun _ ↦ rfl) (run_of_exec hr)).2⟩

end Runs

end Parodus.Downstream
