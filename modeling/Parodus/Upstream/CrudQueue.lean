import Parodus.Upstream.Tasks

namespace Parodus.Upstream

open Foundation Foundation.Runs
open Downstream (Accepted createNewMsgForCRUD plainCrud strdup)

structure Whole (crud : CrudMsg) : Prop where
  transactionUuid : crud.transactionUuid ≠ none
  source : crud.source ≠ none
  dest : crud.dest ≠ none

/-- Each message of the CRUD queue is there and whole. -/
def Ready (s : State) : Prop :=
  ∀ message ∈ s.crudMsgQ, message.id ∉ s.heap.freed ∧ Whole message.val.entry.crud

/-- Where a message is put on the CRUD queue, its three strings are there and can be copied; one
that is left in `retrieve_msg` is there and whole; and none is taken that is queued again. -/
def EnqueueOk (setup : Setup) (s : State) : Action → Prop
  | .handleUpstream _ _ => True
  | .listenerOnMessage calls clients msg =>
    ∀ dest, Accepted setup.partnerId setup.wire.layout calls clients msg dest →
      (msg.asCrud setup.wire.layout).dest ≠ none ∧
        calls.transactionUuid = true ∧ calls.source = true ∧ calls.dest = true
  | .processUpstreamMessage calls =>
    ∀ message rest crud, s.upStreamMsgQ = message :: rest →
      HandsOver setup calls message.decoded crud → calls.entry = true →
      (calls.message = true → crud.transactionUuid ≠ none ∧ crud.source ≠ none ∧
        calls.transactionUuid = true ∧ calls.source = true ∧ calls.dest = true) ∧
      (calls.message = false → ∀ kept, s.retrieveMsg = some kept →
        kept.id ∉ s.heap.freed ∧ Whole kept.val.entry.crud)
  | .crudHandlerTask _ _ =>
    ∀ message rest, s.crudMsgQ = message :: rest → ∀ other ∈ rest, other.id ≠ message.id

variable {setup : Setup} {s t : State} {message : Owned Pending} {crud : CrudMsg}

structure Tracked (s : State) : Prop where
  ready : Ready s
  freed : ∀ id ∈ s.heap.freed, id < s.heap.next
  queued : ∀ message ∈ s.crudMsgQ, message.id < s.heap.next
  kept : ∀ message, s.retrieveMsg = some message → message.id < s.heap.next

theorem tracked_init : Tracked init where
  ready := by simp [Ready, init]
  freed := by simp [init]
  queued := by simp [init]
  kept message hkept := absurd hkept.symm (Option.some_ne_none message)

theorem strdup_ne_none_iff {allocated : Bool} {text : Option CString} :
    strdup allocated text ≠ none ↔ allocated = true ∧ text ≠ none := by
  cases allocated <;> simp [strdup]

theorem whole_strdup {copy : CrudMsg} {transactionUuid source dest : Bool}
    (huuid : copy.transactionUuid = strdup transactionUuid crud.transactionUuid)
    (hsource : copy.source = strdup source crud.source)
    (hdest : copy.dest = strdup dest crud.dest) :
    Whole copy ↔ Whole crud ∧ transactionUuid = true ∧ source = true ∧ dest = true := by
  constructor
  · intro hwhole
    obtain ⟨huuid, huuid'⟩ := strdup_ne_none_iff.mp (huuid ▸ hwhole.transactionUuid)
    obtain ⟨hsource, hsource'⟩ := strdup_ne_none_iff.mp (hsource ▸ hwhole.source)
    obtain ⟨hdest, hdest'⟩ := strdup_ne_none_iff.mp (hdest ▸ hwhole.dest)
    exact ⟨⟨huuid', hsource', hdest'⟩, huuid, hsource, hdest⟩
  · rintro ⟨hwhole, huuid', hsource', hdest'⟩
    refine ⟨?_, ?_, ?_⟩
    · exact huuid ▸ strdup_ne_none_iff.mpr ⟨huuid', hwhole.transactionUuid⟩
    · exact hsource ▸ strdup_ne_none_iff.mpr ⟨hsource', hwhole.source⟩
    · exact hdest ▸ strdup_ne_none_iff.mpr ⟨hdest', hwhole.dest⟩

theorem whole_createNewMsgForCRUD {calls : Downstream.Calls} {msgType : MsgType} :
    Whole (createNewMsgForCRUD calls msgType crud).crud ↔
      Whole crud ∧ calls.transactionUuid = true ∧ calls.source = true ∧ calls.dest = true :=
  whole_strdup rfl rfl rfl

theorem whole_createUpstreamRetrieveMsg {calls : UpstreamCalls} :
    Whole (createUpstreamRetrieveMsg calls crud).crud ↔
      Whole crud ∧ calls.transactionUuid = true ∧ calls.source = true ∧ calls.dest = true :=
  whole_strdup rfl rfl rfl

theorem Tracked.same (hs : Tracked s) (hqueue : t.crudMsgQ = s.crudMsgQ) (hheap : t.heap = s.heap)
    (hkept : t.retrieveMsg = s.retrieveMsg) : Tracked t where
  ready := by
    unfold Ready
    rw [hqueue, hheap]
    exact hs.ready
  freed := hheap ▸ hs.freed
  queued := by
    rw [hqueue, hheap]
    exact hs.queued
  kept := by
    rw [hkept, hheap]
    exact hs.kept

theorem Tracked.allocated (hs : Tracked s) (pending : Pending)
    (hqueue : t.crudMsgQ = s.crudMsgQ) (hheap : t.heap = (s.heap.alloc pending).2)
    (hkept : t.retrieveMsg = s.retrieveMsg ∨ t.retrieveMsg = some (s.heap.alloc pending).1) :
    Tracked t where
  ready := by
    unfold Ready
    rw [hqueue, hheap]
    exact hs.ready
  freed id hid := by
    rw [hheap] at hid ⊢
    exact Nat.lt_succ_of_lt (hs.freed id hid)
  queued message hmem := by
    rw [hqueue] at hmem
    rw [hheap]
    exact Nat.lt_succ_of_lt (hs.queued message hmem)
  kept message hmessage := by
    rw [hheap]
    obtain hkept | hkept := hkept
    · rw [hkept] at hmessage
      exact Nat.lt_succ_of_lt (hs.kept message hmessage)
    · rw [hkept] at hmessage
      obtain rfl := Option.some.inj hmessage
      exact Nat.lt_succ_self _

theorem Tracked.add (hs : Tracked s) (hid : message.id < s.heap.next)
    (hmessage : message.id ∉ s.heap.freed ∧ Whole message.val.entry.crud) :
    Tracked (addCRUDmsgToQueue message s) where
  ready other hmem := by
    obtain hmem | hmem := List.mem_append.mp hmem
    · exact hs.ready other hmem
    · rw [List.mem_singleton.mp hmem]
      exact hmessage
  freed := hs.freed
  queued other hmem := by
    obtain hmem | hmem := List.mem_append.mp hmem
    · exact hs.queued other hmem
    · rw [List.mem_singleton.mp hmem]
      exact hid
  kept := hs.kept

theorem Ready.added (h : Ready (addCRUDmsgToQueue message s)) :
    message.id ∉ s.heap.freed ∧ Whole message.val.entry.crud :=
  h message (List.mem_append_right _ List.mem_cons_self)

theorem Tracked.next_not_freed (hs : Tracked s) : s.heap.next ∉ s.heap.freed :=
  fun hmem ↦ Nat.lt_irrefl _ (hs.freed _ hmem)

theorem tracked_listener {calls : Downstream.Calls} {clients : List Clients.RegListItem}
    {msg : WrpMsg} (hs : Tracked s) (h : listenerOnMessage setup calls clients msg s = some t) :
    (EnqueueOk setup s (.listenerOnMessage calls clients msg) → Tracked t) ∧
      (Ready t → EnqueueOk setup s (.listenerOnMessage calls clients msg)) := by
  obtain ⟨hnot, rfl⟩ | ⟨⟨dest, hacc⟩, rfl⟩ := listenerOnMessage_cases h
  · exact ⟨fun _ ↦ hs, fun _ dest hacc ↦ absurd hacc (hnot dest)⟩
  have hcomplete := hacc.taken.2.2
  constructor
  · intro hok
    obtain ⟨hdest, hcopied⟩ := hok dest hacc
    refine Tracked.add (hs.allocated ⟨createNewMsgForCRUD calls msg.msgType
      (msg.asCrud setup.wire.layout), s.log.numbered⟩ rfl rfl (.inl rfl)) (Nat.lt_succ_self _) ?_
    exact ⟨hs.next_not_freed,
      whole_createNewMsgForCRUD.mpr ⟨⟨hcomplete.2, hcomplete.1, hdest⟩, hcopied⟩⟩
  · intro hready _ _
    obtain ⟨hwhole, hcopied⟩ := whole_createNewMsgForCRUD.mp (Ready.added hready).2
    exact ⟨hwhole.dest, hcopied⟩

/-- What `EnqueueOk` asks of a pass that hands its request over. -/
def AddOk (calls : UpstreamCalls) (crud : CrudMsg) (s : State) : Prop :=
  calls.entry = true →
    (calls.message = true → crud.transactionUuid ≠ none ∧ crud.source ≠ none ∧
      calls.transactionUuid = true ∧ calls.source = true ∧ calls.dest = true) ∧
    (calls.message = false → ∀ kept, s.retrieveMsg = some kept →
      kept.id ∉ s.heap.freed ∧ Whole kept.val.entry.crud)

theorem tracked_addRetrieveMsg {calls : UpstreamCalls} (request : ℕ) (hs : Tracked s)
    (hdest : crud.dest ≠ none) :
    (AddOk calls crud s → Tracked (addRetrieveMsg calls crud request s)) ∧
      (Ready (addRetrieveMsg calls crud request s) → AddOk calls crud s) := by
  obtain ⟨hmessage, hentry, heq⟩ | ⟨hmessage, hentry, heq⟩ | ⟨hmessage, hentry, kept, hkept, heq⟩ |
    ⟨hmessage, hnone, heq⟩ := addRetrieveMsg_cases calls crud request s
  · rw [heq]
    constructor
    · intro hok
      obtain ⟨huuid, hsource, hcopied⟩ := (hok hentry).1 hmessage
      refine Tracked.add (hs.allocated _ rfl rfl (.inr rfl)) (Nat.lt_succ_self _) ?_
      exact ⟨hs.next_not_freed,
        whole_createUpstreamRetrieveMsg.mpr ⟨⟨huuid, hsource, hdest⟩, hcopied⟩⟩
    · intro hready _
      obtain ⟨hwhole, hcopied⟩ := whole_createUpstreamRetrieveMsg.mp (Ready.added hready).2
      exact ⟨fun _ ↦ ⟨hwhole.transactionUuid, hwhole.source, hcopied⟩,
        fun hno ↦ absurd (hno.symm.trans hmessage) Bool.false_ne_true⟩
  · rw [heq]
    refine ⟨fun _ ↦ hs.allocated _ rfl rfl (.inr rfl), ?_⟩
    intro _ hyes
    exact absurd (hentry.symm.trans hyes) Bool.false_ne_true
  · rw [heq]
    constructor
    · intro hok
      exact hs.add (hs.kept kept hkept) ((hok hentry).2 hmessage kept hkept)
    · intro hready _
      refine ⟨fun hyes ↦ absurd (hmessage.symm.trans hyes) Bool.false_ne_true, ?_⟩
      intro _ kept' hkept'
      obtain rfl := Option.some.inj (hkept.symm.trans hkept')
      exact Ready.added hready
  · rw [heq]
    refine ⟨fun _ ↦ hs, ?_⟩
    intro _ hentry
    refine ⟨fun hyes ↦ absurd (hmessage.symm.trans hyes) Bool.false_ne_true, ?_⟩
    intro _ kept hkept
    exact absurd (hkept.symm.trans (hnone hentry)) (Option.some_ne_none kept)

theorem tracked_upstream {calls : UpstreamCalls} (hs : Tracked s)
    (h : processUpstreamMessage setup calls s = some t) :
    (EnqueueOk setup s (.processUpstreamMessage calls) → Tracked t) ∧
      (Ready t → EnqueueOk setup s (.processUpstreamMessage calls)) := by
  obtain ⟨message, rest, f, hqueue, hfate, ⟨hf, rfl⟩ | ⟨rfl, crud, hover, rfl⟩⟩ :=
    processUpstreamMessage_cases h
  · refine ⟨fun _ ↦ hs.same rfl rfl rfl, fun _ message' rest' crud hqueue' hover ↦ ?_⟩
    obtain ⟨rfl, _⟩ := List.cons.inj (hqueue.symm.trans hqueue')
    exact absurd (Option.some.inj (hfate.symm.trans hover.fate)) hf
  have hdest : crud.dest ≠ none := by
    obtain ⟨_, dest, hdest, _⟩ := hover
    rw [hdest]
    exact Option.some_ne_none dest
  have htaken : Tracked (s.take setup.wire message rest .crudQueue) := hs.same rfl rfl rfl
  obtain ⟨hkeep, hneeds⟩ := tracked_addRetrieveMsg message.request htaken hdest
  refine ⟨fun hok ↦ hkeep (hok message rest crud hqueue hover), ?_⟩
  -- the message that is handed over is the first of the queue
  intro hready message' rest' crud' hqueue' hover'
  obtain ⟨rfl, _⟩ := List.cons.inj (hqueue.symm.trans hqueue')
  have hsame := Option.some.inj (hover'.1.symm.trans hover.1)
  obtain rfl := (WrpMsg.crud.inj hsame).2
  exact hneeds hready

theorem tracked_crud {calls : CrudCalls} {out : Crud.Outcome} (hs : Tracked s)
    (h : crudHandlerTask setup calls out s = some t) :
    (EnqueueOk setup s (.crudHandlerTask calls out) → Tracked t) ∧
      (Ready t → EnqueueOk setup s (.crudHandlerTask calls out)) := by
  obtain ⟨message, rest, hqueue, _, _, rfl⟩ := crudHandlerTask_cases h
  have hrest : ∀ other ∈ rest, other ∈ s.crudMsgQ := by
    rw [hqueue]
    exact fun other ↦ List.mem_cons_of_mem _
  have hanswered : ∀ response, Tracked (s.process message rest) → Tracked
      (addCRUDresponseToUpstreamQ calls.response response (s.process message rest)) := by
    intro response hprocess
    unfold addCRUDresponseToUpstreamQ
    split
    · exact hprocess.same rfl rfl rfl
    · exact hprocess
  constructor
  · intro hok
    apply hanswered
    refine ⟨?_, ?_, fun other hother ↦ hs.queued other (hrest other hother), hs.kept⟩
    · intro other hother
      obtain ⟨hlive, hwhole⟩ := hs.ready other (hrest other hother)
      refine ⟨fun hmem ↦ ?_, hwhole⟩
      obtain hmem | hmem := List.mem_append.mp hmem
      · exact hlive hmem
      · exact hok message rest hqueue other hother (List.mem_singleton.mp hmem)
    · intro id hid
      obtain hid | hid := List.mem_append.mp hid
      · exact hs.freed id hid
      · rw [List.mem_singleton.mp hid]
        apply hs.queued
        rw [hqueue]
        exact List.mem_cons_self
  · intro hready message' rest' hqueue' other hother heq
    obtain ⟨rfl, rfl⟩ := List.cons.inj (hqueue.symm.trans hqueue')
    have hprocess : Ready (s.process message rest) := by
      unfold addCRUDresponseToUpstreamQ at hready
      split at hready
      · exact hready
      · exact hready
    apply (hprocess other hother).1
    rw [heq]
    exact List.mem_append_right _ List.mem_cons_self

theorem tracked_step {a : Action} (hs : Tracked s) (h : Step setup s a t) :
    (EnqueueOk setup s a → Tracked t) ∧ (Ready t → EnqueueOk setup s a) := by
  cases a with
  | handleUpstream allocated decoded =>
    obtain rfl := Option.some.inj h
    refine ⟨fun _ ↦ ?_, fun _ ↦ trivial⟩
    unfold handleUpstream
    split
    · exact hs.same rfl rfl rfl
    · exact hs
  | listenerOnMessage calls clients msg => exact tracked_listener hs h
  | processUpstreamMessage calls => exact tracked_upstream hs h
  | crudHandlerTask calls out => exact tracked_crud hs h

/-- In a run from the start each message of the CRUD queue can be duplicated, in every state,
exactly if all steps meet the condition. -/
theorem run_ready_iff {tr : List (State × Action)} (h : Run (Step setup) init tr s) :
    Throughout Ready tr s ↔ Every (EnqueueOk setup) tr := by
  have hkeep : ∀ s a t, Tracked s → EnqueueOk setup s a → Step setup s a t → Tracked t :=
    fun _ _ _ hs hok hst ↦ (tracked_step hs hst).1 hok
  have hbreak : ∀ s a t, Tracked s → ¬ EnqueueOk setup s a → Step setup s a t → ¬ Ready t :=
    fun _ _ _ hs hno hst hready ↦ hno ((tracked_step hs hst).2 hready)
  exact h.throughout_iff_of_invariant (fun _ ↦ Tracked.ready) hkeep hbreak tracked_init

def sourceless : WrpMsg :=
  .crud .retrieve (plainCrud (some "123".toList) none (some "mac:14cfe2142144/parodus/tags".toList))

theorem run_not_ready_source : ∃ tr s, Run (Step boxSetup) init tr s ∧ ¬ Ready s := by
  have hexec : (exec (step boxSetup) init [.handleUpstream true (some sourceless),
      .processUpstreamMessage upstreamMade]).map
        (fun r ↦ r.2.crudMsgQ.map fun message ↦ message.val.entry.crud.source) =
        some [none] := by
    simp only [sourceless, String.reduceToList]
    rfl
  obtain ⟨r, hr, heq⟩ := Option.map_eq_some_iff.mp hexec
  refine ⟨r.1, r.2, run_of_exec hr, fun hready ↦ ?_⟩
  obtain ⟨message, hmem, hsource⟩ := List.mem_map.mp (heq ▸ List.mem_cons_self)
  exact (hready message hmem).2.source hsource

theorem run_ready_iff_tags : ∃ tr s, Run (Step boxSetup) init tr s ∧ s.log.processed = [0] ∧
    Throughout Ready tr s := by
  have hexec : (exec (step boxSetup) init (retrieveRound "mac:14cfe2142144/iot".toList
      "mac:14cfe2142144/parodus/tags".toList)).map
        (fun r ↦ (r.2.log.processed, r.1.all fun x ↦
          match x.2 with
          | .handleUpstream _ _ => true
          | .listenerOnMessage _ _ _ => false
          | .processUpstreamMessage calls => calls == upstreamMade &&
            x.1.upStreamMsgQ.all fun message ↦ message.decoded.all fun msg ↦
              (msg.asCrud boxWire.layout).transactionUuid.isSome &&
                (msg.asCrud boxWire.layout).source.isSome
          | .crudHandlerTask _ _ => x.1.crudMsgQ.tail == [])) = some ([0], true) := by
    simp only [String.reduceToList]
    rfl
  obtain ⟨r, hr, heq⟩ := Option.map_eq_some_iff.mp hexec
  obtain ⟨hprocessed, hall⟩ := Prod.mk.inj heq
  have hrun : Run (Step boxSetup) init r.1 r.2 := run_of_exec hr
  refine ⟨r.1, r.2, hrun, hprocessed, (run_ready_iff hrun).mpr ?_⟩
  intro x hx
  have hok := List.all_eq_true.mp hall x hx
  obtain ⟨s, a⟩ := x
  cases a with
  | handleUpstream allocated decoded => trivial
  | listenerOnMessage calls clients msg => cases hok
  | processUpstreamMessage calls =>
    intro message rest crud hqueue hover _
    have hqueue : s.upStreamMsgQ = message :: rest := hqueue
    simp only [hqueue, List.all_cons, hover.1, Option.all_some, WrpMsg.asCrud, Bool.and_eq_true,
      beq_iff_eq, Option.isSome_iff_ne_none] at hok
    obtain ⟨rfl, ⟨huuid, hsource⟩, _⟩ := hok
    exact ⟨fun _ ↦ ⟨huuid, hsource, rfl, rfl, rfl⟩, fun hno ↦ by cases hno⟩
  | crudHandlerTask calls out =>
    intro message rest hqueue other hother
    have hqueue : s.crudMsgQ = message :: rest := hqueue
    simp only [hqueue, List.tail_cons, beq_iff_eq] at hok
    rw [hok] at hother
    cases hother

end Parodus.Upstream
