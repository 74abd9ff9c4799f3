import Parodus.Foundation.Mailbox
import Parodus.Foundation.Runs

namespace Parodus.Queues

open Foundation Foundation.Runs

/-- Where the main thread is behind its loop: it signals the consumers one after the other. -/
inductive Main
  | loop
  | signalCrud
  | signalDownstream
  | signalUpstream
  | joining
  deriving DecidableEq

variable {U C P : Type*}

/-- The queues of the process with their consumers. `early` records that `g_shutdown` was set
before the main thread gave the first of its signals. -/
structure State (U C P : Type*) where
  main : Main
  gShutdown : Bool
  early : Bool
  upStreamMsgQ : Mailbox U
  crudMsgQ : Mailbox C
  parodusMsgQ : Mailbox P

def handleUpstream (message : U) (s : State U C P) : Option (State U C P) :=
  (s.upStreamMsgQ.add message).map fun q ↦ { s with upStreamMsgQ := q }

def addCRUDresponseToUpstreamQ (response : U) (s : State U C P) : Option (State U C P) :=
  (s.upStreamMsgQ.add response).map fun q ↦ { s with upStreamMsgQ := q }

def processUpstreamMessage (s : State U C P) : Option (State U C P) :=
  (s.upStreamMsgQ.read s.gShutdown).map fun q ↦ { s with upStreamMsgQ := q }

def addCRUDmsgToQueue (crudMessage : C) (s : State U C P) : Option (State U C P) :=
  (s.crudMsgQ.add crudMessage).map fun q ↦ { s with crudMsgQ := q }

def crudHandlerTask (s : State U C P) : Option (State U C P) :=
  (s.crudMsgQ.read s.gShutdown).map fun q ↦ { s with crudMsgQ := q }

def listenerOnMessageQueue (message : P) (s : State U C P) : Option (State U C P) :=
  (s.parodusMsgQ.add message).map fun q ↦ { s with parodusMsgQ := q }

def messageHandlerTask (s : State U C P) : Option (State U C P) :=
  (s.parodusMsgQ.read s.gShutdown).map fun q ↦ { s with parodusMsgQ := q }

/-- The end of `createSocketConnection`, from where the loop is left for whatever reason. -/
def createSocketConnection (s : State U C P) : Option (State U C P) :=
  match s.main with
  | .loop => some { s with main := .signalCrud }
  | .signalCrud =>
    (s.crudMsgQ.tell s.gShutdown).map fun q ↦
      { s with main := .signalDownstream, early := s.gShutdown, crudMsgQ := q }
  | .signalDownstream =>
    (s.parodusMsgQ.tell s.gShutdown).map fun q ↦
      { s with main := .signalUpstream, parodusMsgQ := q }
  | .signalUpstream =>
    (s.upStreamMsgQ.tell s.gShutdown).map fun q ↦
      { s with main := .joining, upStreamMsgQ := q }
  | .joining => none

inductive Action (U C P : Type*)
  | handleUpstream (message : U)
  | addCRUDresponseToUpstreamQ (response : U)
  | processUpstreamMessage
  | addCRUDmsgToQueue (crudMessage : C)
  | crudHandlerTask
  | listenerOnMessageQueue (message : P)
  | messageHandlerTask
  | wakeUpstream
  | wakeCrud
  | wakeDownstream
  | setShutdown
  | main

def step (s : State U C P) : Action U C P → Option (State U C P)
  | .handleUpstream message => handleUpstream message s
  | .addCRUDresponseToUpstreamQ response => addCRUDresponseToUpstreamQ response s
  | .processUpstreamMessage => processUpstreamMessage s
  | .addCRUDmsgToQueue crudMessage => addCRUDmsgToQueue crudMessage s
  | .crudHandlerTask => crudHandlerTask s
  | .listenerOnMessageQueue message => listenerOnMessageQueue message s
  | .messageHandlerTask => messageHandlerTask s
  -- the spurious wake-ups of the three waits
  | .wakeUpstream => s.upStreamMsgQ.spurious.map fun q ↦ { s with upStreamMsgQ := q }
  | .wakeCrud => s.crudMsgQ.spurious.map fun q ↦ { s with crudMsgQ := q }
  | .wakeDownstream => s.parodusMsgQ.spurious.map fun q ↦ { s with parodusMsgQ := q }
  | .setShutdown => some { s with gShutdown := true }
  | .main => createSocketConnection s

def Step (s : State U C P) (a : Action U C P) (t : State U C P) : Prop := step s a = some t

def init : State U C P := ⟨.loop, false, false, .start, .start, .start⟩

variable {s t : State U C P} {a : Action U C P}

/-- Every queue is served in order and without a lost wake-up, and behind the signals of a
shutdown no consumer is left waiting. -/
structure Serves (s : State U C P) : Prop where
  upstream : s.upStreamMsgQ.Served
  crud : s.crudMsgQ.Served
  downstream : s.parodusMsgQ.Served
  stopped : s.main = .joining → s.early = true → s.upStreamMsgQ.reader ≠ .blocked ∧
    s.crudMsgQ.reader ≠ .blocked ∧ s.parodusMsgQ.reader ≠ .blocked

/-- Which consumers the main thread has signalled. -/
def Main.toldCrud : Main → Bool
  | .signalDownstream | .signalUpstream | .joining => true
  | _ => false

def Main.toldDownstream : Main → Bool
  | .signalUpstream | .joining => true
  | _ => false

def Main.toldUpstream : Main → Bool
  | .joining => true
  | _ => false

structure Sound (s : State U C P) : Prop where
  upstream : s.upStreamMsgQ.Sound s.gShutdown
  crud : s.crudMsgQ.Sound s.gShutdown
  downstream : s.parodusMsgQ.Sound s.gShutdown
  early : s.early = true → s.gShutdown = true
  toldCrud : s.main.toldCrud = true → s.early = true → s.crudMsgQ.told = true
  toldDownstream : s.main.toldDownstream = true → s.early = true → s.parodusMsgQ.told = true
  toldUpstream : s.main.toldUpstream = true → s.early = true → s.upStreamMsgQ.told = true

theorem Sound.serves (hs : Sound s) : Serves s where
  upstream := hs.upstream.served
  crud := hs.crud.served
  downstream := hs.downstream.served
  stopped hmain hearly :=
    ⟨(hs.upstream.told (hs.toldUpstream (by rw [hmain]; rfl) hearly)).1,
      (hs.crud.told (hs.toldCrud (by rw [hmain]; rfl) hearly)).1,
      (hs.downstream.told (hs.toldDownstream (by rw [hmain]; rfl) hearly)).1⟩

theorem sound_init : Sound (init : State U C P) where
  upstream := Mailbox.sound_start false
  crud := Mailbox.sound_start false
  downstream := Mailbox.sound_start false
  early := nofun
  toldCrud := nofun
  toldDownstream := nofun
  toldUpstream := nofun

section Change

variable (hs : Sound s)
include hs

theorem Sound.changeUpstream {q : Mailbox U} (h : Mailbox.Next s.gShutdown s.upStreamMsgQ q) :
    Sound { s with upStreamMsgQ := q } :=
  { hs with
    upstream := hs.upstream.next h
    toldUpstream := fun hmain hearly ↦ h.told (hs.toldUpstream hmain hearly) }

theorem Sound.changeCrud {q : Mailbox C} (h : Mailbox.Next s.gShutdown s.crudMsgQ q) :
    Sound { s with crudMsgQ := q } :=
  { hs with
    crud := hs.crud.next h
    toldCrud := fun hmain hearly ↦ h.told (hs.toldCrud hmain hearly) }

theorem Sound.changeDownstream {q : Mailbox P}
    (h : Mailbox.Next s.gShutdown s.parodusMsgQ q) : Sound { s with parodusMsgQ := q } :=
  { hs with
    downstream := hs.downstream.next h
    toldDownstream := fun hmain hearly ↦ h.told (hs.toldDownstream hmain hearly) }

theorem Sound.main (h : createSocketConnection s = some t) : Sound t := by
  unfold createSocketConnection at h
  cases hmain : s.main
  case loop =>
    rw [hmain] at h
    obtain rfl := Option.some.inj h
    exact ⟨hs.upstream, hs.crud, hs.downstream, hs.early, nofun, nofun, nofun⟩
  case signalCrud =>
    rw [hmain] at h
    obtain ⟨q, hq, rfl⟩ := Option.map_eq_some_iff.mp h
    refine ⟨hs.upstream, hs.crud.tell hq, hs.downstream, id, ?_, nofun, nofun⟩
    intro _ hearly
    have hearly : s.gShutdown = true := hearly
    rw [hearly] at hq
    exact Mailbox.told_tell hq
  case signalDownstream =>
    rw [hmain] at h
    obtain ⟨q, hq, rfl⟩ := Option.map_eq_some_iff.mp h
    have hcrud := hs.toldCrud (by rw [hmain]; rfl)
    refine ⟨hs.upstream, hs.crud, hs.downstream.tell hq, hs.early, fun _ ↦ hcrud, ?_, nofun⟩
    intro _ hearly
    rw [hs.early hearly] at hq
    exact Mailbox.told_tell hq
  case signalUpstream =>
    rw [hmain] at h
    obtain ⟨q, hq, rfl⟩ := Option.map_eq_some_iff.mp h
    have hcrud := hs.toldCrud (by rw [hmain]; rfl)
    have hdownstream := hs.toldDownstream (by rw [hmain]; rfl)
    refine ⟨hs.upstream.tell hq, hs.crud, hs.downstream, hs.early, fun _ ↦ hcrud,
      fun _ ↦ hdownstream, ?_⟩
    intro _ hearly
    rw [hs.early hearly] at hq
    exact Mailbox.told_tell hq
  case joining =>
    rw [hmain] at h
    cases h

theorem Sound.step (h : Step s a t) : Sound t := by
  unfold Step Queues.step at h
  cases a with
  | handleUpstream message | addCRUDresponseToUpstreamQ message =>
    obtain ⟨q, hq, rfl⟩ := Option.map_eq_some_iff.mp h
    exact hs.changeUpstream (.add message hq)
  | processUpstreamMessage =>
    obtain ⟨q, hq, rfl⟩ := Option.map_eq_some_iff.mp h
    exact hs.changeUpstream (.read hq)
  | addCRUDmsgToQueue message =>
    obtain ⟨q, hq, rfl⟩ := Option.map_eq_some_iff.mp h
    exact hs.changeCrud (.add message hq)
  | crudHandlerTask =>
    obtain ⟨q, hq, rfl⟩ := Option.map_eq_some_iff.mp h
    exact hs.changeCrud (.read hq)
  | listenerOnMessageQueue message =>
    obtain ⟨q, hq, rfl⟩ := Option.map_eq_some_iff.mp h
    exact hs.changeDownstream (.add message hq)
  | messageHandlerTask =>
    obtain ⟨q, hq, rfl⟩ := Option.map_eq_some_iff.mp h
    exact hs.changeDownstream (.read hq)
  | wakeUpstream =>
    obtain ⟨q, hq, rfl⟩ := Option.map_eq_some_iff.mp h
    exact hs.changeUpstream (.spurious hq)
  | wakeCrud =>
    obtain ⟨q, hq, rfl⟩ := Option.map_eq_some_iff.mp h
    exact hs.changeCrud (.spurious hq)
  | wakeDownstream =>
    obtain ⟨q, hq, rfl⟩ := Option.map_eq_some_iff.mp h
    exact hs.changeDownstream (.spurious hq)
  | setShutdown =>
    obtain rfl := Option.some.inj h
    have hset : s.gShutdown = true → true = true := fun _ ↦ rfl
    exact { hs with
      upstream := hs.upstream.mono hset
      crud := hs.crud.mono hset
      downstream := hs.downstream.mono hset
      early := fun _ ↦ rfl }
  | main => exact hs.main h

end Change

/-- A message is taken and the next one put, before the shutdown wakes the consumers. -/
def stoppedRun : List (Action ℕ ℕ ℕ) :=
  [.crudHandlerTask, .crudHandlerTask, .crudHandlerTask, .addCRUDmsgToQueue 1,
    .crudHandlerTask, .crudHandlerTask, .addCRUDmsgToQueue 2, .setShutdown, .main, .main, .main,
    .main]

end Parodus.Queues
