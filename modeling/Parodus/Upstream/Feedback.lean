import Parodus.Upstream.Tasks

namespace Parodus.Upstream

open Foundation Foundation.Runs
open Downstream (CrudEntry strdup)

/-- Each message that came in is processed and answered once at most, no answer is taken as a
request, and the two tasks come to an end with what came in. -/
structure ServedOnce (s : State) : Prop where
  processed : s.log.processed.Nodup
  answered : s.log.answered.Nodup
  fates : .crudQueue ∉ s.log.fates
  taken : s.log.taken ≤ 3 * s.log.numbered

def NeverQueued (s : State) (message : Owned Pending) : Prop :=
  message.id ∉ s.heap.freed ∧ ∀ other ∈ s.crudMsgQ, other.id ≠ message.id

/-- A RETRIEVE message is not answered to a dest that is parodus' own, and without memory for a
new message none is put on the CRUD queue for the second time. -/
def FeedOk (setup : Setup) (s : State) : Action → Prop
  | .processUpstreamMessage calls =>
    ∀ message rest crud, s.upStreamMsgQ = message :: rest →
      HandsOver setup calls message.decoded crud → calls.message = false → calls.entry = true →
      ∀ kept, s.retrieveMsg = some kept → NeverQueued s kept
  | .crudHandlerTask calls _ =>
    calls.dest = true → calls.encoded = true → calls.response = true →
      ∀ message rest source, s.crudMsgQ = message :: rest →
        message.val.entry.msgType = .crud .retrieve →
        message.val.entry.crud.source = some source → Leaves setup.hwMac source
  | _ => True

/-- The requests of the messages of clients that wait. -/
def received (q : List UpStreamMsg) : List ℕ :=
  (q.filter fun message ↦ message.origin = .nanomsg).map UpStreamMsg.request

def requests (s : State) : List ℕ :=
  received s.upStreamMsgQ ++
    ((s.crudMsgQ.map fun message ↦ message.val.request) ++ s.log.processed)

/-- How often the tasks can still take a message: one of the upstream queue once and, if it is
of a client, as a request and as its answer. -/
def toTake (s : State) : ℕ :=
  s.upStreamMsgQ.length + 2 * (received s.upStreamMsgQ).length + 2 * s.crudMsgQ.length

variable {setup : Setup} {s t : State} {message : UpStreamMsg} {rest : List UpStreamMsg}

/-- No request waits twice, or behind its processing. -/
structure Distinct (s : State) : Prop where
  nodup : (requests s).Nodup
  numbered : ∀ request ∈ requests s, request < s.log.numbered
  kept : ∀ message, s.retrieveMsg = some message → NeverQueued s message →
    message.val.request ∉ requests s ∧ message.val.request < s.log.numbered

structure Departing (setup : Setup) (s : State) : Prop where
  waiting : ∀ message ∈ s.upStreamMsgQ, message.origin ≠ .nanomsg → ∀ crud dest,
    message.decoded = some (.crud .retrieve crud) → crud.dest = some dest →
    Leaves setup.hwMac dest
  fates : .crudQueue ∉ s.log.fates

structure Bounded (s : State) : Prop where
  answered : s.log.answered.Sublist s.log.processed
  taken : s.log.taken + toTake s ≤ 3 * s.log.numbered

structure Once (setup : Setup) (s : State) : Prop where
  distinct : Distinct s
  departing : Departing setup s
  bounded : Bounded s

theorem Once.servedOnce (hs : Once setup s) : ServedOnce s := by
  have hprocessed : s.log.processed.Nodup :=
    (List.nodup_append.mp (List.nodup_append.mp hs.distinct.nodup).2.1).2.1
  refine ⟨hprocessed, hprocessed.sublist hs.bounded.answered, hs.departing.fates, ?_⟩
  have := hs.bounded.taken
  omega

theorem received_cons_nanomsg (h : message.origin = .nanomsg) :
    received (message :: rest) = message.request :: received rest := by
  simp [received, h]

theorem received_cons_of_ne (h : message.origin ≠ .nanomsg) :
    received (message :: rest) = received rest := by
  simp [received, h]

theorem received_append (q q' : List UpStreamMsg) :
    received (q ++ q') = received q ++ received q' := by
  rw [received, List.filter_append, List.map_append]
  rfl

theorem requests_add (message : Owned Pending) (s : State) :
    (requests (addCRUDmsgToQueue message s)).Perm (message.val.request :: requests s) := by
  have heq : requests (addCRUDmsgToQueue message s) =
      (received s.upStreamMsgQ ++ s.crudMsgQ.map fun message ↦ message.val.request) ++
        message.val.request :: s.log.processed := by
    simp [requests, addCRUDmsgToQueue]
  rw [heq]
  refine List.perm_middle.trans ?_
  rw [List.append_assoc]
  exact List.Perm.refl _

section Requests

theorem Distinct.arrive (hs : Distinct s)
    (hrequests : (requests t).Perm (s.log.numbered :: requests s))
    (hnumbered : t.log.numbered = s.log.numbered + 1) (hkept : t.retrieveMsg = s.retrieveMsg)
    (hnever : ∀ message, NeverQueued t message → NeverQueued s message) : Distinct t where
  nodup := by
    rw [hrequests.nodup_iff]
    refine List.nodup_cons.mpr ⟨fun hmem ↦ ?_, hs.nodup⟩
    exact Nat.lt_irrefl _ (hs.numbered _ hmem)
  numbered request hmem := by
    rw [hnumbered]
    obtain rfl | hmem := List.mem_cons.mp (hrequests.mem_iff.mp hmem)
    · exact Nat.lt_succ_self _
    · exact Nat.lt_succ_of_lt (hs.numbered request hmem)
  kept message hmessage hq := by
    obtain ⟨hnot, hlt⟩ := hs.kept message (hkept ▸ hmessage) (hnever message hq)
    refine ⟨fun hmem ↦ ?_, ?_⟩
    · obtain heq | hmem := List.mem_cons.mp (hrequests.mem_iff.mp hmem)
      · exact absurd heq (Nat.ne_of_lt hlt)
      · exact hnot hmem
    · rw [hnumbered]
      exact Nat.lt_succ_of_lt hlt

theorem Distinct.go (hs : Distinct s) (hnodup : (requests t).Nodup)
    (hrequests : ∀ request ∈ requests t, request ∈ requests s)
    (hnumbered : t.log.numbered = s.log.numbered) (hkept : t.retrieveMsg = s.retrieveMsg)
    (hnever : ∀ message, NeverQueued t message → NeverQueued s message) : Distinct t where
  nodup := hnodup
  numbered request hmem := hnumbered ▸ hs.numbered request (hrequests request hmem)
  kept message hmessage hq := by
    obtain ⟨hnot, hlt⟩ := hs.kept message (hkept ▸ hmessage) (hnever message hq)
    exact ⟨fun hmem ↦ hnot (hrequests _ hmem), hnumbered ▸ hlt⟩

theorem Distinct.add {kept : Owned Pending} (hs : Distinct s) (hkept : s.retrieveMsg = some kept)
    (hnot : kept.val.request ∉ requests s) (hlt : kept.val.request < s.log.numbered) :
    Distinct (addCRUDmsgToQueue kept s) := by
  have hrequests := requests_add kept s
  refine ⟨?_, ?_, ?_⟩
  · rw [hrequests.nodup_iff]
    exact List.nodup_cons.mpr ⟨hnot, hs.nodup⟩
  · intro request hmem
    obtain rfl | hmem := List.mem_cons.mp (hrequests.mem_iff.mp hmem)
    · exact hlt
    · exact hs.numbered request hmem
  · intro message hmessage hnever
    obtain rfl := Option.some.inj (hkept.symm.trans hmessage)
    exact absurd rfl (hnever.2 kept (List.mem_append_right _ List.mem_cons_self))

end Requests

section Steps

theorem once_init (setup : Setup) : Once setup init where
  distinct := ⟨List.nodup_nil, fun _ h ↦ (List.not_mem_nil h).elim,
    fun message h ↦ absurd h.symm (Option.some_ne_none message)⟩
  departing := ⟨fun _ h ↦ (List.not_mem_nil h).elim, List.not_mem_nil⟩
  bounded := ⟨List.Sublist.refl _, Nat.le_refl _⟩

theorem Once.handleUpstream (hs : Once setup s) (allocated : Bool) (decoded : Option WrpMsg) :
    Once setup (handleUpstream allocated decoded s) := by
  cases allocated with
  | false => exact hs
  | true =>
    have hreceived : received (s.upStreamMsgQ ++ [⟨.nanomsg, decoded, s.log.numbered⟩]) =
        received s.upStreamMsgQ ++ [s.log.numbered] := received_append _ _
    refine ⟨hs.distinct.arrive ?_ rfl rfl (fun _ h ↦ h), ⟨?_, hs.departing.fates⟩,
      hs.bounded.answered, ?_⟩
    · unfold requests Upstream.handleUpstream
      rw [if_pos rfl, hreceived, List.append_assoc]
      exact List.perm_middle
    · intro message hmem hne
      obtain hmem | hmem := List.mem_append.mp hmem
      · exact hs.departing.waiting message hmem hne
      · rw [List.mem_singleton.mp hmem] at hne
        exact absurd rfl hne
    · have htaken := hs.bounded.taken
      unfold toTake at htaken ⊢
      unfold Upstream.handleUpstream
      rw [if_pos rfl, hreceived, List.length_append, List.length_append]
      simp only [List.length_singleton]
      omega

theorem Once.accept (hs : Once setup s) (entry : CrudEntry) : Once setup (accept entry s) where
  distinct := by
    refine hs.distinct.arrive (requests_add ⟨s.heap.next, entry, s.log.numbered⟩ s) rfl rfl ?_
    exact fun message h ↦ ⟨h.1, fun other hmem ↦ h.2 other (List.mem_append_left _ hmem)⟩
  departing := ⟨hs.departing.waiting, hs.departing.fates⟩
  bounded := by
    refine ⟨hs.bounded.answered, ?_⟩
    have htaken := hs.bounded.taken
    unfold toTake at htaken ⊢
    unfold Upstream.accept addCRUDmsgToQueue
    simp only [List.length_append, List.length_singleton]
    omega

/-- The first message is taken; one of a client leaves room for its request and its answer. -/
theorem Bounded.take (hs : Bounded s) (hqueue : s.upStreamMsgQ = message :: rest) (fate : Fate) :
    let t := s.take setup.wire message rest fate
    t.log.taken + toTake t + (if message.origin = .nanomsg then 2 else 0) ≤
      3 * t.log.numbered := by
  have htaken := hs.taken
  unfold toTake at htaken ⊢
  rw [hqueue, List.length_cons] at htaken
  simp only [State.take, Log.take]
  split
  · rename_i horigin
    rw [received_cons_nanomsg horigin, List.length_cons] at htaken
    omega
  · rename_i horigin
    rw [received_cons_of_ne horigin] at htaken
    omega

theorem requests_take (hqueue : s.upStreamMsgQ = message :: rest) (fate : Fate) :
    (requests (s.take setup.wire message rest fate)).Sublist (requests s) := by
  apply List.Sublist.append_right
  rw [hqueue]
  by_cases horigin : message.origin = .nanomsg
  · rw [received_cons_nanomsg horigin]
    exact List.sublist_cons_self _ _
  · rw [received_cons_of_ne horigin]
    exact List.Sublist.refl _

theorem Once.take (hs : Once setup s) (hqueue : s.upStreamMsgQ = message :: rest) {fate : Fate}
    (hfate : message.origin = .crud → fate ≠ .crudQueue) :
    Once setup (s.take setup.wire message rest fate) := by
  have hsub : (requests (s.take setup.wire message rest fate)).Sublist (requests s) :=
    requests_take hqueue fate
  refine ⟨hs.distinct.go (hs.distinct.nodup.sublist hsub) (fun _ hmem ↦ hsub.subset hmem) rfl rfl
    (fun _ h ↦ h), ⟨?_, ?_⟩, hs.bounded.answered, ?_⟩
  · intro message' hmem
    apply hs.departing.waiting
    rw [hqueue]
    exact List.mem_cons_of_mem _ hmem
  · simp only [State.take, Log.take]
    split
    · rename_i horigin
      intro hmem
      obtain hmem | hmem := List.mem_append.mp hmem
      · exact hs.departing.fates hmem
      · exact hfate horigin (List.mem_singleton.mp hmem).symm
    · exact hs.departing.fates
  · have htaken : (s.take setup.wire message rest fate).log.taken +
        toTake (s.take setup.wire message rest fate) + _ ≤ _ := hs.bounded.take hqueue fate
    omega

theorem Departing.nanomsg {calls : UpstreamCalls} {crud : CrudMsg} (hs : Departing setup s)
    (hqueue : s.upStreamMsgQ = message :: rest)
    (hover : HandsOver setup calls message.decoded crud) : message.origin = .nanomsg := by
  by_contra hne
  obtain ⟨hdecoded, dest, hdest, hroute⟩ := hover
  have hmem : message ∈ s.upStreamMsgQ := by
    rw [hqueue]
    exact List.mem_cons_self
  exact (hs.waiting message hmem hne crud dest hdecoded hdest).settle _ _ hroute

theorem Once.add {kept : Owned Pending} (hs : Once setup s) (hkept : s.retrieveMsg = some kept)
    (hnot : kept.val.request ∉ requests s) (hlt : kept.val.request < s.log.numbered)
    (hroom : s.log.taken + toTake s + 2 ≤ 3 * s.log.numbered) :
    Once setup (addCRUDmsgToQueue kept s) where
  distinct := hs.distinct.add hkept hnot hlt
  departing := ⟨hs.departing.waiting, hs.departing.fates⟩
  bounded := by
    refine ⟨hs.bounded.answered, ?_⟩
    unfold toTake at hroom ⊢
    unfold addCRUDmsgToQueue
    simp only [List.length_append, List.length_singleton]
    omega

theorem Once.keep {kept : Owned Pending} (hs : Once setup s)
    (hnot : kept.val.request ∉ requests s) (hlt : kept.val.request < s.log.numbered) :
    Once setup (s.keep kept) where
  distinct := by
    refine ⟨hs.distinct.nodup, hs.distinct.numbered, ?_⟩
    intro message hmessage _
    obtain rfl := Option.some.inj hmessage
    exact ⟨hnot, hlt⟩
  departing := ⟨hs.departing.waiting, hs.departing.fates⟩
  bounded := ⟨hs.bounded.answered, hs.bounded.taken⟩

theorem Once.addRetrieveMsg {calls : UpstreamCalls} {crud : CrudMsg} (hs : Once setup s)
    (hqueue : s.upStreamMsgQ = message :: rest) (horigin : message.origin = .nanomsg)
    (hok : calls.message = false → calls.entry = true → ∀ kept, s.retrieveMsg = some kept →
      NeverQueued s kept) :
    Once setup (addRetrieveMsg calls crud message.request
      (s.take setup.wire message rest .crudQueue)) := by
  have htake : Once setup (s.take setup.wire message rest .crudQueue) := by
    apply hs.take hqueue
    intro hcrud
    rw [horigin] at hcrud
    cases hcrud
  have hroom : (s.take setup.wire message rest .crudQueue).log.taken +
      toTake (s.take setup.wire message rest .crudQueue) + _ ≤ _ :=
    hs.bounded.take hqueue .crudQueue
  rw [if_pos horigin] at hroom
  have hsub : (requests (s.take setup.wire message rest .crudQueue)).Sublist (requests s) :=
    requests_take hqueue .crudQueue
  have hrequests : requests s =
      message.request :: requests (s.take setup.wire message rest .crudQueue) := by
    rw [requests, hqueue, received_cons_nanomsg horigin]
    rfl
  have hlt : message.request < s.log.numbered := by
    apply hs.distinct.numbered
    rw [hrequests]
    exact List.mem_cons_self
  have hnot : message.request ∉ requests (s.take setup.wire message rest .crudQueue) := by
    have hnodup := hs.distinct.nodup
    rw [hrequests] at hnodup
    exact (List.nodup_cons.mp hnodup).1
  obtain ⟨_, _, heq⟩ | ⟨_, _, heq⟩ | ⟨hmessage, hentry, kept, hkept, heq⟩ | ⟨_, _, heq⟩ :=
    addRetrieveMsg_cases calls crud message.request (s.take setup.wire message rest .crudQueue)
  · rw [heq]
    exact (htake.keep hnot hlt).add rfl hnot hlt hroom
  · rw [heq]
    exact htake.keep hnot hlt
  · rw [heq]
    obtain ⟨hnew, hbelow⟩ := hs.distinct.kept kept hkept (hok hmessage hentry kept hkept)
    exact htake.add hkept (fun hmem ↦ hnew (hsub.subset hmem)) hbelow hroom
  · rw [heq]
    exact htake

theorem Once.processUpstreamMessage {calls : UpstreamCalls} (hs : Once setup s)
    (hok : FeedOk setup s (.processUpstreamMessage calls))
    (h : processUpstreamMessage setup calls s = some t) : Once setup t := by
  obtain ⟨message, rest, f, hqueue, _, ⟨hf, rfl⟩ | ⟨_, crud, hover, rfl⟩⟩ :=
    processUpstreamMessage_cases h
  · exact hs.take hqueue fun _ ↦ hf
  · have horigin := hs.departing.nanomsg hqueue hover
    exact hs.addRetrieveMsg hqueue horigin (hok message rest crud hqueue hover)

theorem Once.process {message : Owned Pending} {rest : List (Owned Pending)} (hs : Once setup s)
    (hqueue : s.crudMsgQ = message :: rest) : Once setup (s.process message rest) where
  distinct := by
    have hperm : (requests (s.process message rest)).Perm (requests s) := by
      have hprocess : requests (s.process message rest) =
          received s.upStreamMsgQ ++ (((rest.map fun message ↦ message.val.request) ++
            s.log.processed) ++ [message.val.request]) := by
        rw [List.append_assoc]
        rfl
      rw [hprocess, requests, hqueue]
      apply List.Perm.append_left
      exact List.perm_append_singleton _ _
    refine hs.distinct.go (hperm.nodup_iff.mpr hs.distinct.nodup) (fun _ ↦ hperm.mem_iff.mp) rfl
      rfl ?_
    intro kept hnever
    refine ⟨fun hmem ↦ hnever.1 (List.mem_append_left _ hmem), ?_⟩
    rw [hqueue]
    have hid : message.id ≠ kept.id := by
      intro heq
      apply hnever.1
      rw [← heq]
      exact List.mem_append_right _ List.mem_cons_self
    exact List.forall_mem_cons.mpr ⟨hid, hnever.2⟩
  departing := ⟨hs.departing.waiting, hs.departing.fates⟩
  bounded := by
    refine ⟨hs.bounded.answered.trans (List.sublist_append_left _ _), ?_⟩
    have htaken := hs.bounded.taken
    unfold toTake at htaken ⊢
    rw [hqueue, List.length_cons] at htaken
    simp only [State.process]
    omega

theorem answer_origin (setup : Setup) (calls : CrudCalls) (out : Crud.Outcome)
    (pending : Pending) : (answer setup calls out pending).origin ≠ .nanomsg := by
  unfold answer encode
  split <;> nofun

theorem answer_request (setup : Setup) (calls : CrudCalls) (out : Crud.Outcome)
    (pending : Pending) : (answer setup calls out pending).request = pending.request := by
  unfold answer encode
  split <;> rfl

/-- An answer that is a RETRIEVE message goes where its request came from. -/
theorem answer_retrieve {calls : CrudCalls} {out : Crud.Outcome} {pending : Pending}
    {crud : CrudMsg} {dest : CString}
    (hdecoded : (answer setup calls out pending).decoded = some (.crud .retrieve crud))
    (hdest : crud.dest = some dest) : calls.encoded = true ∧ calls.dest = true ∧
      pending.entry.msgType = .crud .retrieve ∧ pending.entry.crud.source = some dest := by
  unfold answer encode at hdecoded
  cases hencoded : calls.encoded with
  | false => simp [hencoded] at hdecoded
  | true =>
    rw [hencoded, if_pos rfl] at hdecoded
    cases hrecode : setup.wire.recode (response calls pending.entry out) with
    | none => simp [hrecode] at hdecoded
    | some msg =>
      rw [hrecode] at hdecoded
      obtain rfl := Option.some.inj hdecoded
      have htype : pending.entry.msgType = .crud .retrieve :=
        (setup.wire.typed _ _ hrecode).symm
      obtain ⟨⟨msgType, member⟩, request⟩ := pending
      obtain rfl : msgType = .crud .retrieve := htype
      have haddressed : crud.dest = strdup calls.dest member.source :=
        (setup.wire.addressed _ _ _ _ hrecode).2
      rw [hdest] at haddressed
      cases hcopied : calls.dest with
      | false =>
        rw [hcopied] at haddressed
        cases haddressed
      | true =>
        rw [hcopied] at haddressed
        exact ⟨rfl, rfl, rfl, haddressed.symm⟩

theorem Once.crudHandlerTask {calls : CrudCalls} {out : Crud.Outcome} (hs : Once setup s)
    (hok : FeedOk setup s (.crudHandlerTask calls out))
    (h : crudHandlerTask setup calls out s = some t) : Once setup t := by
  obtain ⟨message, rest, hqueue, _, _, rfl⟩ := crudHandlerTask_cases h
  have hprocess : Once setup (s.process message rest) := hs.process hqueue
  cases hresponse : calls.response with
  | false => exact hprocess
  | true =>
    have horigin := answer_origin setup calls out message.val
    have hreceived : received (s.upStreamMsgQ ++ [answer setup calls out message.val]) =
        received s.upStreamMsgQ := by
      rw [received_append, received_cons_of_ne horigin]
      exact List.append_nil _
    have hrequests : requests (addCRUDresponseToUpstreamQ true
        (answer setup calls out message.val) (s.process message rest)) =
        requests (s.process message rest) := by
      unfold requests addCRUDresponseToUpstreamQ
      rw [if_pos rfl]
      exact congrArg (· ++ _) hreceived
    refine ⟨hprocess.distinct.go ?_ ?_ rfl rfl (fun _ h ↦ h), ⟨?_, hs.departing.fates⟩, ?_, ?_⟩
    · rw [hrequests]
      exact hprocess.distinct.nodup
    · rw [hrequests]
      exact fun _ h ↦ h
    · intro message' hmem hne crud dest hdecoded hdest
      obtain hmem | hmem := List.mem_append.mp hmem
      · exact hs.departing.waiting message' hmem hne crud dest hdecoded hdest
      · rw [List.mem_singleton.mp hmem] at hdecoded
        obtain ⟨hencoded, hcopied, htype, hsource⟩ := answer_retrieve hdecoded hdest
        exact hok hcopied hencoded hresponse message rest dest hqueue htype hsource
    · have hanswered : s.log.answered ++ [(answer setup calls out message.val).request] =
          s.log.answered ++ [message.val.request] := by
        rw [answer_request]
      have hsub : (s.log.answered ++ [message.val.request]).Sublist
          (s.log.processed ++ [message.val.request]) :=
        hs.bounded.answered.append (List.Sublist.refl _)
      rw [← hanswered] at hsub
      exact hsub
    · have htaken := hs.bounded.taken
      unfold toTake at htaken ⊢
      rw [hqueue, List.length_cons] at htaken
      unfold addCRUDresponseToUpstreamQ
      rw [if_pos rfl]
      simp only [State.process, hreceived, List.length_append, List.length_singleton]
      omega

theorem Once.step {a : Action} (hs : Once setup s) (hok : FeedOk setup s a)
    (h : Step setup s a t) : Once setup t := by
  cases a with
  | handleUpstream allocated decoded =>
    obtain rfl := Option.some.inj h
    exact hs.handleUpstream allocated decoded
  | listenerOnMessage calls clients msg =>
    obtain ⟨_, rfl⟩ | ⟨_, rfl⟩ := listenerOnMessage_cases h
    · exact hs
    · exact hs.accept _
  | processUpstreamMessage calls => exact hs.processUpstreamMessage hok h
  | crudHandlerTask calls out => exact hs.crudHandlerTask hok h

end Steps

/-- In a run from the start whose steps all meet the condition, no message is processed or
answered twice, and the tasks do not feed each other. -/
theorem run_servedOnce {tr : List (State × Action)} (h : Run (Step setup) init tr s)
    (hok : Every (FeedOk setup) tr) : Throughout ServedOnce tr s := by
  have hkeep : ∀ s a t, Once setup s → FeedOk setup s a → Step setup s a t → Once setup t :=
    fun _ _ _ hs hok hst ↦ hs.step hok hst
  exact h.throughout_of_every (fun _ ↦ Once.servedOnce) hkeep (once_init setup) hok

/-- A request to parodus whose source is parodus too is processed again as its own answer. -/
theorem run_not_servedOnce_source : ∃ tr s, Run (Step boxSetup) init tr s ∧
    .crudQueue ∈ s.log.fates ∧ ¬ s.log.processed.Nodup := by
  have hexec : (exec (step boxSetup) init (retrieveRound "mac:14cfe2142144/parodus".toList
      "mac:14cfe2142144/parodus/tags".toList ++ [.crudHandlerTask crudMade (.answer 0 200)])).map
        (fun r ↦ (r.2.log.fates, r.2.log.processed)) = some ([.crudQueue], [0, 0]) := by
    simp only [String.reduceToList]
    rfl
  obtain ⟨r, hr, heq⟩ := Option.map_eq_some_iff.mp hexec
  obtain ⟨hfates, hprocessed⟩ := Prod.mk.inj heq
  refine ⟨r.1, r.2, run_of_exec hr, ?_, ?_⟩
  · rw [hfates]
    exact List.mem_cons_self
  · rw [hprocessed]
    decide

theorem leaves_iot : Leaves boxMac "mac:14cfe2142144/iot".toList := by
  intro rest hrest
  obtain rfl := hrest.unique (ofDevice_boxMac "/iot".toList)
  exact ⟨'/', "iot".toList, rfl, by decide⟩

theorem run_servedOnce_tags : ∃ tr s, Run (Step boxSetup) init tr s ∧
    s.log.fates = [.client] ∧ Throughout ServedOnce tr s := by
  have hexec : (exec (step boxSetup) init (retrieveRound "mac:14cfe2142144/iot".toList
      "mac:14cfe2142144/parodus/tags".toList)).map
        (fun r ↦ (r.2.log.fates, r.1.all fun x ↦
          match x.2 with
          | .processUpstreamMessage calls => calls.message
          | .crudHandlerTask _ _ => x.1.crudMsgQ.all fun message ↦
            message.val.entry.crud.source == some "mac:14cfe2142144/iot".toList
          | _ => true)) = some ([.client], true) := by
    simp only [String.reduceToList]
    rfl
  obtain ⟨r, hr, heq⟩ := Option.map_eq_some_iff.mp hexec
  obtain ⟨hfates, hall⟩ := Prod.mk.inj heq
  have hrun : Run (Step boxSetup) init r.1 r.2 := run_of_exec hr
  refine ⟨r.1, r.2, hrun, hfates, run_servedOnce hrun ?_⟩
  intro x hx
  have hok := List.all_eq_true.mp hall x hx
  obtain ⟨s, a⟩ := x
  cases a with
  | processUpstreamMessage calls =>
    intro _ _ _ _ _ hmessage
    exact absurd (hmessage.symm.trans hok) Bool.false_ne_true
  | crudHandlerTask calls out =>
    intro _ _ _ message rest source hqueue _ hsource
    have hqueue : s.crudMsgQ = message :: rest := hqueue
    simp only [hqueue, List.all_cons, hsource, Bool.and_eq_true, beq_iff_eq] at hok
    obtain rfl := Option.some.inj hok.1
    exact leaves_iot
  | _ => trivial

end Parodus.Upstream
