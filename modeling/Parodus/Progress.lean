import Parodus.Foundation.Potential
import Parodus.Queues

namespace Parodus.Queues

open Foundation Foundation.Runs Mailbox

variable {U C P β : Type*}

section Turns

/-- The steps of the consumer of each queue, and the messages put there. -/
def upstreamTurns (_ : State U C P) : Action U C P → ℕ
  | .processUpstreamMessage => 1
  | _ => 0

def upstreamPuts (_ : State U C P) : Action U C P → ℕ
  | .handleUpstream _ | .addCRUDresponseToUpstreamQ _ => 1
  | _ => 0

def crudTurns (_ : State U C P) : Action U C P → ℕ
  | .crudHandlerTask => 1
  | _ => 0

def crudPuts (_ : State U C P) : Action U C P → ℕ
  | .addCRUDmsgToQueue _ => 1
  | _ => 0

def downstreamTurns (_ : State U C P) : Action U C P → ℕ
  | .messageHandlerTask => 1
  | _ => 0

def downstreamPuts (_ : State U C P) : Action U C P → ℕ
  | .listenerOnMessageQueue _ => 1
  | _ => 0

end Turns

/-- A consumer that has work can go on, and two steps a message are enough for it to take all
that is waiting. -/
structure Takes (stop : Bool) (box box' : Mailbox β) (turns : ℕ) : Prop where
  goesOn : box.queue ≠ [] → box.reader ≠ .left → (box.read stop).isSome = true
  takes : 2 * box.queue.length ≤ turns → box.put <+: box'.taken

/-- A consumer that was signalled for the shutdown can go on until it has left, for which two
steps a message and four more are enough. -/
structure Leaves (stop : Bool) (box box' : Mailbox β) (turns puts : ℕ) : Prop where
  goesOn : box.reader ≠ .left → (box.read stop).isSome = true
  leaves : 2 * (box.queue.length + puts) + 4 ≤ turns → box'.reader = .left

variable {s t : State U C P} {a : Action U C P} {tr tr' : List (State U C P × Action U C P)}

/-- A queue of the process, with the steps of its consumer and of its writers. -/
structure View (U C P β : Type*) where
  box : State U C P → Mailbox β
  turns : State U C P → Action U C P → ℕ
  puts : State U C P → Action U C P → ℕ
  moves : ∀ {s a t}, Step s a t → Moves s.gShutdown (box s) (box t) (turns s a) (puts s a)
  sound : ∀ {s}, Sound s → (box s).Sound s.gShutdown
  told : ∀ {s}, Sound s → s.main = .joining → s.early = true → (box s).told = true

/-- The main thread waits for its threads. -/
theorem joining_step (h : Step s a t) (hmain : s.main = .joining) (hearly : s.early = true) :
    t.main = .joining ∧ t.early = true := by
  unfold Step Queues.step at h
  cases a with
  | setShutdown =>
    obtain rfl := Option.some.inj h
    exact ⟨hmain, hearly⟩
  | main =>
    dsimp only [createSocketConnection] at h
    rw [hmain] at h
    cases h
  | _ =>
    obtain ⟨q, _, rfl⟩ := Option.map_eq_some_iff.mp h
    exact ⟨hmain, hearly⟩

namespace View

variable (v : View U C P β)

theorem due_run (h : Run Step s tr t) (hs : Sound s) {n : ℕ} (hn : n ≤ (v.box s).put.length)
    (hdue : 0 < (v.box t).due n) : total v.turns tr + (v.box t).due n ≤ (v.box s).due n := by
  induction h with
  | nil => exact Nat.le_of_eq (Nat.zero_add _)
  | @cons s u t a tr hstep hrun ih =>
    have hmoves := v.moves hstep
    have hput := (hmoves.put (v.sound hs)).length_le
    have hrest := ih (hs.step hstep) (hn.trans hput) hdue
    have hfirst := hmoves.due (v.sound hs) hn (by omega)
    rw [total_cons]
    omega

theorem put_run (h : Run Step s tr t) (hs : Sound s) : (v.box s).put <+: (v.box t).put := by
  induction h with
  | nil => exact List.prefix_rfl
  | cons hstep _ ih => exact ((v.moves hstep).put (v.sound hs)).trans (ih (hs.step hstep))

theorem takes (h : Run Step s tr t) (hs : Sound s) :
    Takes s.gShutdown (v.box s) (v.box t) (total v.turns tr) where
  goesOn hqueue hleft :=
    isSome_read (fun hblocked ↦ hqueue ((v.sound hs).awake hblocked)) hleft
  takes hturns := by
    have hlength : (v.box s).taken.length + (v.box s).queue.length = (v.box s).put.length := by
      rw [← (v.sound hs).inOrder, List.length_append]
    have ht := v.sound (h.invariant (fun _ _ _ hs hstep ↦ hs.step hstep) hs).2
    have htaken : (v.box t).taken <+: (v.box t).put := ⟨_, ht.inOrder⟩
    refine List.prefix_of_prefix_length_le (v.put_run h hs) htaken ?_
    by_contra hlt
    have hpos : 0 < (v.box t).due (v.box s).put.length := by
      unfold due
      omega
    have hdue := v.due_run h hs (Nat.le_refl _) hpos
    have hbound : (v.box s).due (v.box s).put.length ≤ 2 * (v.box s).queue.length := by
      have hone := Reader.turns_le_one (v.box s).reader
      unfold due
      omega
    omega

theorem toLeave_run (h : Run Step s tr t) (hs : Sound s) (hmain : s.main = .joining)
    (hearly : s.early = true) :
    total v.turns tr + (v.box t).toLeave ≤ (v.box s).toLeave + 2 * total v.puts tr := by
  induction h with
  | nil => exact Nat.le_of_eq (Nat.zero_add _)
  | @cons s u t a tr hstep hrun ih =>
    obtain ⟨hmain', hearly'⟩ := joining_step hstep hmain hearly
    have hrest := ih (hs.step hstep) hmain' hearly'
    have hmoves := v.moves hstep
    have hsound := v.sound hs
    rw [hs.early hearly] at hmoves hsound
    have hfirst := hmoves.toLeave hsound (v.told hs hmain hearly)
    rw [total_cons, total_cons]
    omega

theorem leaves (h : Run Step s tr t) (hs : Sound s) (hmain : s.main = .joining)
    (hearly : s.early = true) :
    Leaves s.gShutdown (v.box s) (v.box t) (total v.turns tr) (total v.puts tr) where
  goesOn hleft :=
    isSome_read ((v.sound hs).told (v.told hs hmain hearly)).1 hleft
  leaves hturns := by
    by_contra hleft
    have hrun := v.toLeave_run h hs hmain hearly
    have hpos := toLeave_pos hleft
    have hbound : (v.box s).toLeave ≤ 2 * (v.box s).queue.length + 4 := by
      have hfour := Reader.toLeave_le_four (v.box s).reader
      unfold toLeave
      omega
    omega

end View

section Queues

/-- What a step of the main thread does to the queues. -/
theorem main_moves (h : createSocketConnection s = some t) :
    Moves s.gShutdown s.upStreamMsgQ t.upStreamMsgQ 0 0 ∧
      Moves s.gShutdown s.crudMsgQ t.crudMsgQ 0 0 ∧
      Moves s.gShutdown s.parodusMsgQ t.parodusMsgQ 0 0 := by
  unfold createSocketConnection at h
  cases hmain : s.main with
  | loop =>
    rw [hmain] at h
    obtain rfl := Option.some.inj h
    exact ⟨.stay rfl, .stay rfl, .stay rfl⟩
  | signalCrud =>
    rw [hmain] at h
    obtain ⟨q, hq, rfl⟩ := Option.map_eq_some_iff.mp h
    exact ⟨.stay rfl, .tell hq, .stay rfl⟩
  | signalDownstream =>
    rw [hmain] at h
    obtain ⟨q, hq, rfl⟩ := Option.map_eq_some_iff.mp h
    exact ⟨.stay rfl, .stay rfl, .tell hq⟩
  | signalUpstream =>
    rw [hmain] at h
    obtain ⟨q, hq, rfl⟩ := Option.map_eq_some_iff.mp h
    exact ⟨.tell hq, .stay rfl, .stay rfl⟩
  | joining =>
    rw [hmain] at h
    cases h

def upstream : View U C P U where
  box := State.upStreamMsgQ
  turns := upstreamTurns
  puts := upstreamPuts
  sound hs := hs.upstream
  told hs hmain hearly := hs.toldUpstream (by rw [hmain]; rfl) hearly
  moves {s a t} h := by
    unfold Step Queues.step at h
    cases a with
    | main => exact (main_moves h).1
    | setShutdown =>
      obtain rfl := Option.some.inj h
      exact .stay rfl
    | handleUpstream message | addCRUDresponseToUpstreamQ message =>
      obtain ⟨q, hq, rfl⟩ := Option.map_eq_some_iff.mp h
      exact .add message hq
    | processUpstreamMessage =>
      obtain ⟨q, hq, rfl⟩ := Option.map_eq_some_iff.mp h
      exact .read hq
    | wakeUpstream =>
      obtain ⟨q, hq, rfl⟩ := Option.map_eq_some_iff.mp h
      exact .spurious hq
    | _ =>
      obtain ⟨q, _, rfl⟩ := Option.map_eq_some_iff.mp h
      exact .stay rfl

def crud : View U C P C where
  box := State.crudMsgQ
  turns := crudTurns
  puts := crudPuts
  sound hs := hs.crud
  told hs hmain hearly := hs.toldCrud (by rw [hmain]; rfl) hearly
  moves {s a t} h := by
    unfold Step Queues.step at h
    cases a with
    | main => exact (main_moves h).2.1
    | setShutdown =>
      obtain rfl := Option.some.inj h
      exact .stay rfl
    | addCRUDmsgToQueue message =>
      obtain ⟨q, hq, rfl⟩ := Option.map_eq_some_iff.mp h
      exact .add message hq
    | crudHandlerTask =>
      obtain ⟨q, hq, rfl⟩ := Option.map_eq_some_iff.mp h
      exact .read hq
    | wakeCrud =>
      obtain ⟨q, hq, rfl⟩ := Option.map_eq_some_iff.mp h
      exact .spurious hq
    | _ =>
      obtain ⟨q, _, rfl⟩ := Option.map_eq_some_iff.mp h
      exact .stay rfl

def downstream : View U C P P where
  box := State.parodusMsgQ
  turns := downstreamTurns
  puts := downstreamPuts
  sound hs := hs.downstream
  told hs hmain hearly := hs.toldDownstream (by rw [hmain]; rfl) hearly
  moves {s a t} h := by
    unfold Step Queues.step at h
    cases a with
    | main => exact (main_moves h).2.2
    | setShutdown =>
      obtain rfl := Option.some.inj h
      exact .stay rfl
    | listenerOnMessageQueue message =>
      obtain ⟨q, hq, rfl⟩ := Option.map_eq_some_iff.mp h
      exact .add message hq
    | messageHandlerTask =>
      obtain ⟨q, hq, rfl⟩ := Option.map_eq_some_iff.mp h
      exact .read hq
    | wakeDownstream =>
      obtain ⟨q, hq, rfl⟩ := Option.map_eq_some_iff.mp h
      exact .spurious hq
    | _ =>
      obtain ⟨q, _, rfl⟩ := Option.map_eq_some_iff.mp h
      exact .stay rfl

end Queues

theorem run_sound (h : Run Step init tr s) : Sound s :=
  (h.invariant (fun _ _ _ hs hstep ↦ Sound.step hs hstep) sound_init).2

/-- In every run the consumers of the three queues take what is waiting, whatever the other
threads do between their steps. -/
theorem run_takes (h : Run Step init tr s) (h' : Run Step s tr' t) :
    Takes s.gShutdown s.upStreamMsgQ t.upStreamMsgQ (total upstreamTurns tr') ∧
      Takes s.gShutdown s.crudMsgQ t.crudMsgQ (total crudTurns tr') ∧
      Takes s.gShutdown s.parodusMsgQ t.parodusMsgQ (total downstreamTurns tr') :=
  ⟨upstream.takes h' (run_sound h), crud.takes h' (run_sound h), downstream.takes h' (run_sound h)⟩

theorem run_takes_two : ∃ tr s tr' t,
    exec step (init : State ℕ ℕ ℕ) [.addCRUDmsgToQueue 1, .addCRUDmsgToQueue 2] = some (tr, s) ∧
      exec step s [.crudHandlerTask, .handleUpstream 5, .crudHandlerTask, .addCRUDmsgToQueue 3,
        .crudHandlerTask, .crudHandlerTask] = some (tr', t) ∧ [1, 2] <+: t.crudMsgQ.taken := by
  refine ⟨_, _, _, _, rfl, rfl, ?_⟩
  have hbefore : exec step (init : State ℕ ℕ ℕ) [.addCRUDmsgToQueue 1, .addCRUDmsgToQueue 2] =
    some (_, { (init : State ℕ ℕ ℕ) with crudMsgQ := ⟨[1, 2], .top, [1, 2], [], false⟩ }) := rfl
  have hbehind : exec step
    { (init : State ℕ ℕ ℕ) with crudMsgQ := ⟨[1, 2], .top, [1, 2], [], false⟩ }
    [.crudHandlerTask, .handleUpstream 5, .crudHandlerTask, .addCRUDmsgToQueue 3,
      .crudHandlerTask, .crudHandlerTask] = some (_, _) := rfl
  exact (run_takes (run_of_exec hbefore) (run_of_exec hbehind)).2.1.takes (Nat.le_refl _)

/-- Behind the signals of a shutdown the consumers of the three queues come to their ends, for
which the main thread waits. -/
theorem run_leaves (h : Run Step init tr s) (hmain : s.main = .joining) (hearly : s.early = true)
    (h' : Run Step s tr' t) :
    Leaves s.gShutdown s.upStreamMsgQ t.upStreamMsgQ (total upstreamTurns tr')
        (total upstreamPuts tr') ∧
      Leaves s.gShutdown s.crudMsgQ t.crudMsgQ (total crudTurns tr') (total crudPuts tr') ∧
      Leaves s.gShutdown s.parodusMsgQ t.parodusMsgQ (total downstreamTurns tr')
        (total downstreamPuts tr') :=
  ⟨upstream.leaves h' (run_sound h) hmain hearly, crud.leaves h' (run_sound h) hmain hearly,
    downstream.leaves h' (run_sound h) hmain hearly⟩

/-- The end of `stoppedRun`: the consumer of the CRUD messages is with the first message, and the
second waits. -/
def stopped : State ℕ ℕ ℕ where
  main := .joining
  gShutdown := true
  early := true
  upStreamMsgQ := ⟨[], .top, [], [], true⟩
  crudMsgQ := ⟨[2], .busy 1, [1, 2], [1], true⟩
  parodusMsgQ := ⟨[], .top, [], [], true⟩

theorem run_leaves_stopped : ∃ tr tr' t,
    exec step (init : State ℕ ℕ ℕ) stoppedRun = some (tr, stopped) ∧
      exec step stopped (List.replicate 6 Action.crudHandlerTask) = some (tr', t) ∧
      t.crudMsgQ.reader = .left := by
  refine ⟨_, _, _, rfl, rfl, ?_⟩
  have hbefore : exec step (init : State ℕ ℕ ℕ) stoppedRun = some (_, stopped) := rfl
  have hbehind : exec step stopped (List.replicate 6 Action.crudHandlerTask) = some (_, _) := rfl
  exact (run_leaves (run_of_exec hbefore) rfl rfl (run_of_exec hbehind)).2.1.leaves (Nat.le_refl _)

end Parodus.Queues
