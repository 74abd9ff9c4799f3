import Parodus.Crud.Request
import Parodus.Downstream.Route
import Parodus.Foundation.Runs
import Parodus.Partners.EventPath
import Parodus.Upstream.Route

namespace Parodus.Upstream

open Foundation Foundation.Runs Foundation.Segments
open Downstream (CrudEntry plainCrud strdup)

/-- Where the buffer of an upstream message comes from: it was received, it was encoded, or the
encoding failed and there is none. -/
inductive Origin
  | nanomsg
  | crud
  | unencoded
  deriving DecidableEq

inductive Routine
  | nnFreemsg
  | free
  deriving DecidableEq

/-- An entry of `UpStreamMsgQ`, its buffer given by what it decodes to. `request` is the number
of the message, of a client or the cloud, that it stems from. -/
structure UpStreamMsg where
  origin : Origin
  decoded : Option WrpMsg
  request : ℕ
  deriving DecidableEq

/-- A message of the CRUD queue with the number of the one that it stems from. -/
structure Pending where
  entry : CrudEntry
  request : ℕ
  deriving DecidableEq

/-- What becomes of a message that `processUpstreamMessage` takes. -/
inductive Fate
  | registration
  | client
  | server
  | crudQueue
  | dropped
  deriving DecidableEq

/-- The messages of `wrp-c`: the places of the union's members, the size of an encoded message,
and what an encoded message is decoded to, if it can be encoded. -/
structure Wire where
  layout : WrpMsg → CrudMsg
  structTo : WrpMsg → ℤ
  recode : CrudEntry → Option WrpMsg
  typed : ∀ entry msg, recode entry = some msg → msg.msgType = entry.msgType
  addressed : ∀ type crud type' crud', recode ⟨.crud type, crud⟩ = some (.crud type' crud') →
    crud'.source = crud.source ∧ crud'.dest = crud.dest

structure Setup where
  wire : Wire
  partnerId : CharBuf 64
  hwMac : CString

/-- The allocations of one pass of `processUpstreamMessage`, and what is read behind the end of
a dest. -/
structure UpstreamCalls where
  deviceId : Bool
  message : Bool
  transactionUuid : Bool
  source : Bool
  dest : Bool
  entry : Bool
  behind : CString
  deriving DecidableEq

structure CrudCalls where
  transactionUuid : Bool
  source : Bool
  dest : Bool
  encoded : Bool
  response : Bool
  deriving DecidableEq

/-- What the tasks did so far; `fates` is about the messages that `CRUDHandlerTask` encoded. -/
structure Log where
  numbered : ℕ
  taken : ℕ
  processed : List ℕ
  answered : List ℕ
  fates : List Fate
  released : List (Origin × Routine)
  deriving DecidableEq

/-- The two queues, the local `retrieve_msg` of `processUpstreamMessage`, and the heap of the
messages made for the CRUD queue. -/
structure State where
  upStreamMsgQ : List UpStreamMsg
  crudMsgQ : List (Owned Pending)
  retrieveMsg : Option (Owned Pending)
  heap : Ledger
  log : Log
  deriving DecidableEq

def init : State := ⟨[], [], none, ⟨0, []⟩, ⟨0, 0, [], [], [], []⟩⟩

inductive Action
  | handleUpstream (allocated : Bool) (decoded : Option WrpMsg)
  | listenerOnMessage (calls : Downstream.Calls) (clients : List Clients.RegListItem)
      (msg : WrpMsg)
  | processUpstreamMessage (calls : UpstreamCalls)
  | crudHandlerTask (calls : CrudCalls) (out : Crud.Outcome)

def handleUpstream (allocated : Bool) (decoded : Option WrpMsg) (s : State) : State :=
  if allocated then
    { s with
      upStreamMsgQ := s.upStreamMsgQ ++ [⟨.nanomsg, decoded, s.log.numbered⟩]
      log := { s.log with numbered := s.log.numbered + 1 } }
  else s

def crudEntry (delivered : List Downstream.Delivery) : Option CrudEntry :=
  delivered.findSome? fun
    | .crudQueue entry => some entry
    | _ => none

def addCRUDmsgToQueue (crudMsg : Owned Pending) (s : State) : State :=
  { s with crudMsgQ := s.crudMsgQ ++ [crudMsg] }

def accept (entry : CrudEntry) (s : State) : State :=
  let crudMsg := s.heap.alloc (⟨entry, s.log.numbered⟩ : Pending)
  addCRUDmsgToQueue crudMsg.1
    { s with heap := crudMsg.2, log := { s.log with numbered := s.log.numbered + 1 } }

/-- A message that the process crashes on is no step. -/
def listenerOnMessage (setup : Setup) (calls : Downstream.Calls)
    (clients : List Clients.RegListItem) (msg : WrpMsg) (s : State) : Option State :=
  match Downstream.listenerOnMessage setup.partnerId setup.wire.layout calls clients msg with
  | .error _ => none
  | .ok delivered =>
    match crudEntry delivered with
    | none => some s
    | some entry => some (accept entry s)

/-- What is read behind the end of a dest decides like any other text. -/
def settle (behind : CString) : Route → Fate
  | .crudQueue => .crudQueue
  | .client => .client
  | .server => .server
  | .noDeviceId => .dropped
  | .overrun =>
    if strneq (parodusServiceName.length - 1) parodusServiceName behind then .crudQueue
    else .client

/-- A null dest is read only if there is a device id to compare it with. -/
def fateByDest (setup : Setup) (calls : UpstreamCalls)
    (route : Bool → CString → CString → Route) (crud : CrudMsg) : Option Fate :=
  match crud.dest with
  | some dest => some (settle calls.behind (route calls.deviceId setup.hwMac dest))
  | none =>
    match getDeviceId calls.deviceId setup.hwMac with
    | some _ => none
    | none => some .dropped

/-- `none` where the process crashes. -/
def fate (setup : Setup) (calls : UpstreamCalls) : Option WrpMsg → Option Fate
  | none => some .dropped
  | some (.svcRegistration _) => some .registration
  | some (.event event) =>
    match Partners.processEvent setup.partnerId setup.wire.structTo event ⟨0, []⟩ with
    | .ok done => some (if done.sent.isSome then .server else .dropped)
    | .error _ => none
  | some (.crud .retrieve crud) => fateByDest setup calls routeRetrieve crud
  | some (.crud .update crud) | some (.crud .delete crud) =>
    fateByDest setup calls routeChange crud
  | some .svcAlive => some .dropped
  | some (.req _) | some (.crud .create _) | some (.auth _) | some .unknown => some .server

def createUpstreamRetrieveMsg (calls : UpstreamCalls) (message : CrudMsg) : CrudEntry where
  msgType := .crud .retrieve
  crud := plainCrud (strdup calls.transactionUuid message.transactionUuid)
    (strdup calls.source message.source) (strdup calls.dest message.dest)

def made (calls : UpstreamCalls) (crud : CrudMsg) (request : ℕ) (s : State) : Owned Pending :=
  ⟨s.heap.next, createUpstreamRetrieveMsg calls crud, request⟩

def State.keep (crudMsg : Owned Pending) (s : State) : State :=
  { s with retrieveMsg := some crudMsg, heap := (s.heap.alloc crudMsg.val).2 }

/-- Without memory for a new message `retrieve_msg` is what it was in the last pass. -/
def addRetrieveMsg (calls : UpstreamCalls) (crud : CrudMsg) (request : ℕ) (s : State) : State :=
  let s := if calls.message then s.keep (made calls crud request s) else s
  match s.retrieveMsg with
  | some crudMsg => if calls.entry then addCRUDmsgToQueue crudMsg s else s
  | none => s

/-- `wrp_does_service_match` of the service parodus and what is read as `u.crud.source`. -/
def fromParodus (wire : Wire) (msg : WrpMsg) : Bool :=
  match (msg.asCrud wire.layout).source with
  | some source => between '/' source == some parodusServiceName
  | none => false

def release (wire : Wire) (decoded : Option WrpMsg) : Routine :=
  match decoded with
  | some msg => if fromParodus wire msg then .free else .nnFreemsg
  | none => .nnFreemsg

def Log.take (wire : Wire) (message : UpStreamMsg) (fate : Fate) (log : Log) : Log :=
  { log with
    taken := log.taken + 1
    fates := if message.origin = .crud then log.fates ++ [fate] else log.fates
    released := log.released ++ [(message.origin, release wire message.decoded)] }

def State.take (wire : Wire) (message : UpStreamMsg) (rest : List UpStreamMsg) (fate : Fate)
    (s : State) : State :=
  { s with upStreamMsgQ := rest, log := s.log.take wire message fate }

def processUpstreamMessage (setup : Setup) (calls : UpstreamCalls) (s : State) : Option State :=
  match s.upStreamMsgQ with
  | [] => none
  | message :: rest =>
    (fate setup calls message.decoded).map fun fate ↦
      let s := s.take setup.wire message rest fate
      match fate, message.decoded with
      | .crudQueue, some (.crud _ crud) => addRetrieveMsg calls crud message.request s
      | _, _ => s

/-- The response carries what the handler of the request's type left; there is no handler for
a type that is not of a CRUD message. -/
def response (calls : CrudCalls) (entry : CrudEntry) (out : Crud.Outcome) : CrudEntry where
  msgType := entry.msgType
  crud :=
    let envelope := plainCrud (strdup calls.transactionUuid entry.crud.transactionUuid)
      (strdup calls.source entry.crud.dest) (strdup calls.dest entry.crud.source)
    match entry.msgType with
    | .crud _ =>
      { envelope with
        status := out.status
        payload := out.payload
        payloadSize := (out.payload.map List.length).getD 0 }
    | _ => envelope

def encode (wire : Wire) (encoded : Bool) (entry : CrudEntry) (request : ℕ) : UpStreamMsg :=
  match if encoded then wire.recode entry else none with
  | some msg => ⟨.crud, some msg, request⟩
  | none => ⟨.unencoded, none, request⟩

def addCRUDresponseToUpstreamQ (allocated : Bool) (message : UpStreamMsg) (s : State) : State :=
  if allocated then
    { s with
      upStreamMsgQ := s.upStreamMsgQ ++ [message]
      log := { s.log with answered := s.log.answered ++ [message.request] } }
  else s

/-- `processCrudRequest` reads the three strings unchecked. -/
def duplicable (crud : CrudMsg) : Bool :=
  crud.transactionUuid.isSome && crud.source.isSome && crud.dest.isSome

def State.process (message : Owned Pending) (rest : List (Owned Pending)) (s : State) : State :=
  { s with
    crudMsgQ := rest
    heap := s.heap.free message
    log := { s.log with
      taken := s.log.taken + 1
      processed := s.log.processed ++ [message.val.request] } }

def answer (setup : Setup) (calls : CrudCalls) (out : Crud.Outcome) (message : Pending) :
    UpStreamMsg :=
  encode setup.wire calls.encoded (response calls message.entry out) message.request

/-- A message that was freed before, or that cannot be duplicated, is no step. -/
def crudHandlerTask (setup : Setup) (calls : CrudCalls) (out : Crud.Outcome) (s : State) :
    Option State :=
  match s.crudMsgQ with
  | [] => none
  | message :: rest =>
    if message.id ∈ s.heap.freed then none
    else if duplicable message.val.entry.crud then
      some (addCRUDresponseToUpstreamQ calls.response (answer setup calls out message.val)
        (s.process message rest))
    else none

def step (setup : Setup) (s : State) : Action → Option State
  | .handleUpstream allocated decoded => some (handleUpstream allocated decoded s)
  | .listenerOnMessage calls clients msg => listenerOnMessage setup calls clients msg s
  | .processUpstreamMessage calls => processUpstreamMessage setup calls s
  | .crudHandlerTask calls out => crudHandlerTask setup calls out s

def Step (setup : Setup) (s : State) (a : Action) (t : State) : Prop := step setup s a = some t

variable {setup : Setup} {s t : State} {calls : UpstreamCalls} {decoded : Option WrpMsg}

/-- The dest of a RETRIEVE message that is sent on, to a client or the server: if it begins with
the device's id, one character follows, and then not `parodu`. -/
def Leaves (hwMac dest : CString) : Prop :=
  ∀ rest, OfDevice hwMac dest rest → ∃ c path, rest = c :: path ∧ ¬ "parodu".toList <+: path

theorem Leaves.settle {hwMac dest : CString} (h : Leaves hwMac dest) (behind : CString)
    (allocated : Bool) : settle behind (routeRetrieve allocated hwMac dest) ≠ .crudQueue := by
  intro hcrud
  by_cases hmac : hwMac = []
  · rw [routeRetrieve, getDeviceId, if_pos hmac] at hcrud
    cases hcrud
  cases allocated with
  | false =>
    rw [routeRetrieve, getDeviceId, if_neg hmac] at hcrud
    cases hcrud
  | true =>
    obtain ⟨_, hroute⟩ | ⟨hbare, _⟩ | ⟨c, path, hdevice, hcase⟩ := routeRetrieve_cases hmac dest
    · rw [hroute] at hcrud
      cases hcrud
    · obtain ⟨c, path, hpath, _⟩ := h [] hbare
      cases hpath
    · obtain ⟨c', path', hpath, hnot⟩ := h _ hdevice
      obtain ⟨_, rfl⟩ := List.cons.inj hpath
      obtain ⟨hparodu, _⟩ | ⟨_, hroute⟩ := hcase
      · exact absurd hparodu hnot
      · rw [hroute] at hcrud
        cases hcrud

theorem settle_routeChange (behind : CString) (allocated : Bool) (hwMac dest : CString) :
    settle behind (routeChange allocated hwMac dest) ≠ .crudQueue := by
  unfold routeChange
  intro hcrud
  split at hcrud
  · cases hcrud
  · split at hcrud <;> cases hcrud

theorem fateByDest_crudQueue {route : Bool → CString → CString → Route} {crud : CrudMsg}
    (h : fateByDest setup calls route crud = some .crudQueue) : ∃ dest, crud.dest = some dest ∧
      settle calls.behind (route calls.deviceId setup.hwMac dest) = .crudQueue := by
  unfold fateByDest at h
  split at h
  · exact ⟨_, by assumption, Option.some.inj h⟩
  · split at h <;> cases h

def HandsOver (setup : Setup) (calls : UpstreamCalls) (decoded : Option WrpMsg) (crud : CrudMsg) :
    Prop :=
  decoded = some (.crud .retrieve crud) ∧ ∃ dest, crud.dest = some dest ∧
    settle calls.behind (routeRetrieve calls.deviceId setup.hwMac dest) = .crudQueue

theorem fate_crudQueue (h : fate setup calls decoded = some .crudQueue) :
    ∃ crud, HandsOver setup calls decoded crud := by
  unfold fate at h
  split at h
  case h_4 crud => exact ⟨crud, rfl, fateByDest_crudQueue h⟩
  case h_3 =>
    split at h
    · split at h <;> cases h
    · cases h
  case h_5 | h_6 =>
    obtain ⟨dest, _, hroute⟩ := fateByDest_crudQueue h
    exact absurd hroute (settle_routeChange _ _ _ _)
  all_goals cases h

theorem HandsOver.fate {crud : CrudMsg} (h : HandsOver setup calls decoded crud) :
    fate setup calls decoded = some .crudQueue := by
  obtain ⟨rfl, dest, hdest, hroute⟩ := h
  simp only [Upstream.fate, fateByDest, hdest, hroute]

theorem listenerOnMessage_cases {calls : Downstream.Calls} {clients : List Clients.RegListItem}
    {msg : WrpMsg} (h : listenerOnMessage setup calls clients msg s = some t) :
    ((∀ dest, ¬ Downstream.Accepted setup.partnerId setup.wire.layout calls clients msg dest) ∧
      t = s) ∨
    (∃ dest, Downstream.Accepted setup.partnerId setup.wire.layout calls clients msg dest) ∧
      t = accept (Downstream.createNewMsgForCRUD calls msg.msgType
        (msg.asCrud setup.wire.layout)) s := by
  unfold listenerOnMessage at h
  split at h
  · cases h
  · rename_i delivered hdelivered
    cases hentry : crudEntry delivered with
    | none =>
      rw [hentry] at h
      refine .inl ⟨fun dest hacc ↦ ?_, (Option.some.inj h).symm⟩
      have hmem := (Downstream.listenerOnMessage_crudQueue hdelivered).mpr ⟨⟨dest, hacc⟩, rfl⟩
      cases List.findSome?_eq_none_iff.mp hentry _ hmem
    | some entry =>
      rw [hentry] at h
      obtain ⟨delivery, hmem, hsome⟩ := List.exists_of_findSome?_eq_some hentry
      cases delivery with
      | crudQueue entry' =>
        obtain rfl := Option.some.inj hsome
        obtain ⟨hacc, rfl⟩ := (Downstream.listenerOnMessage_crudQueue hdelivered).mp hmem
        exact .inr ⟨hacc, (Option.some.inj h).symm⟩
      | client => cases hsome
      | response => cases hsome

theorem addRetrieveMsg_cases (calls : UpstreamCalls) (crud : CrudMsg) (request : ℕ) (s : State) :
    (calls.message = true ∧ calls.entry = true ∧ addRetrieveMsg calls crud request s =
      addCRUDmsgToQueue (made calls crud request s) (s.keep (made calls crud request s))) ∨
    (calls.message = true ∧ calls.entry = false ∧ addRetrieveMsg calls crud request s =
      s.keep (made calls crud request s)) ∨
    (calls.message = false ∧ calls.entry = true ∧ ∃ crudMsg, s.retrieveMsg = some crudMsg ∧
      addRetrieveMsg calls crud request s = addCRUDmsgToQueue crudMsg s) ∨
    (calls.message = false ∧ (calls.entry = true → s.retrieveMsg = none) ∧
      addRetrieveMsg calls crud request s = s) := by
  unfold addRetrieveMsg
  cases hmessage : calls.message <;> cases hentry : calls.entry
  · refine .inr (.inr (.inr ⟨rfl, nofun, ?_⟩))
    simp only [Bool.false_eq_true, if_false]
    split <;> rfl
  · right; right
    simp only [Bool.false_eq_true, if_false, if_true]
    cases hkept : s.retrieveMsg with
    | some crudMsg => exact .inl ⟨trivial, trivial, crudMsg, rfl, rfl⟩
    | none => exact .inr ⟨trivial, fun _ ↦ rfl, rfl⟩
  · exact .inr (.inl ⟨rfl, rfl, rfl⟩)
  · exact .inl ⟨rfl, rfl, rfl⟩

/-- What a pass of the upstream task does: it takes the first message and hands it on, and a
RETRIEVE message for parodus goes to the CRUD queue. -/
theorem processUpstreamMessage_cases (h : processUpstreamMessage setup calls s = some t) :
    ∃ message rest f, s.upStreamMsgQ = message :: rest ∧
      fate setup calls message.decoded = some f ∧
      ((f ≠ .crudQueue ∧ t = s.take setup.wire message rest f) ∨
        f = .crudQueue ∧ ∃ crud, HandsOver setup calls message.decoded crud ∧
          t = addRetrieveMsg calls crud message.request
            (s.take setup.wire message rest .crudQueue)) := by
  unfold processUpstreamMessage at h
  split at h
  · cases h
  · rename_i message rest hqueue
    obtain ⟨f, hfate, rfl⟩ := Option.map_eq_some_iff.mp h
    refine ⟨message, rest, f, hqueue, hfate, ?_⟩
    by_cases hf : f = .crudQueue
    · subst hf
      obtain ⟨crud, hover⟩ := fate_crudQueue hfate
      refine .inr ⟨rfl, crud, hover, ?_⟩
      simp only [hover.1]
    · refine .inl ⟨hf, ?_⟩
      dsimp only
      split
      · exact absurd rfl hf
      · rfl

theorem crudHandlerTask_cases {calls : CrudCalls} {out : Crud.Outcome}
    (h : crudHandlerTask setup calls out s = some t) :
    ∃ message rest, s.crudMsgQ = message :: rest ∧ message.id ∉ s.heap.freed ∧
      duplicable message.val.entry.crud = true ∧
      t = addCRUDresponseToUpstreamQ calls.response (answer setup calls out message.val)
        (s.process message rest) := by
  unfold crudHandlerTask at h
  split at h
  · cases h
  · rename_i message rest hqueue
    split at h
    · cases h
    · rename_i hfreed
      split at h
      · rename_i hduplicable
        exact ⟨message, rest, hqueue, hfreed, hduplicable, (Option.some.inj h).symm⟩
      · cases h

section Inputs

def boxWire : Wire where
  layout := Downstream.alignedLayout
  structTo _ := 1
  recode entry :=
    match entry.msgType with
    | .crud type => some (.crud type entry.crud)
    | _ => none
  typed entry msg h := by
    split at h
    · obtain rfl := Option.some.inj h
      rename_i htype
      exact htype.symm
    · cases h
  addressed _ _ _ _ h := by
    obtain ⟨_, rfl⟩ := WrpMsg.crud.inj (Option.some.inj h)
    exact ⟨rfl, rfl⟩

def boxSetup : Setup := ⟨boxWire, .empty, boxMac⟩

def upstreamMade : UpstreamCalls := ⟨true, true, true, true, true, true, []⟩

def crudMade : CrudCalls := ⟨true, true, true, true, true⟩

/-- A client's request to retrieve the tags, from the two tasks to its answer. -/
def retrieveRound (source dest : CString) : List Action :=
  [.handleUpstream true (some (.crud .retrieve (plainCrud (some "123".toList) (some source)
    (some dest)))), .processUpstreamMessage upstreamMade,
    .crudHandlerTask crudMade (.answer 0 200), .processUpstreamMessage upstreamMade]

end Inputs

end Parodus.Upstream
