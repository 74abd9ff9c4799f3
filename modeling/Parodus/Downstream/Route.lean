import Parodus.Clients.ClientList
import Parodus.Foundation.Json
import Parodus.Foundation.Segments
import Parodus.Partners.Check

namespace Parodus.Downstream

open Clients Foundation Foundation.Segments

/-- What the two calls of `strtok` leave: the second token, or the string up to the end of
the first. -/
def strtokService (destVal : CString) : CString :=
  match token '/' destVal with
  | none => destVal
  | some (tempDest, rest) =>
    match token '/' rest with
    | some (newDest, _) => newDest
    | none => destVal.takeWhile (· = '/') ++ tempDest

def destService (destVal : CString) : CharBuf 32 := parStrncpy (strtokService destVal)

/-- An entry of `crudMsgQ`: the type of the message and its member `u.crud`. -/
structure CrudEntry where
  msgType : MsgType
  crud : CrudMsg
  deriving DecidableEq

/-- `path` is null in an answer to a REQ message. -/
structure Response where
  msgType : MsgType
  source : Option CString
  dest : Option CString
  transactionUuid : Option CString
  path : Option CString
  payload : Json
  deriving DecidableEq

/-- What `listenerOnMessage` sends or hands on. -/
inductive Delivery
  | client (sock : ℤ)
  | crudQueue (entry : CrudEntry)
  | response (response : Response)
  deriving DecidableEq

inductive Fault
  | nullPartnerIds
  | nullDest
  deriving DecidableEq

/-- Which allocations succeed, and whether the response can be encoded. -/
structure Calls where
  destVal : Bool
  crudMessage : Bool
  source : Bool
  dest : Bool
  transactionUuid : Bool
  entry : Bool
  response : Bool
  encoded : Bool
  deriving DecidableEq

def strdup (allocated : Bool) (s : Option CString) : Option CString :=
  if allocated then s else none

/-- The copy has no spans, and no empty lists. -/
def createNewMsgForCRUD (calls : Calls) (msgType : MsgType) (crud : CrudMsg) : CrudEntry where
  msgType := msgType
  crud := { crud with
    source := strdup calls.source crud.source
    dest := strdup calls.dest crud.dest
    transactionUuid := strdup calls.transactionUuid crud.transactionUuid
    partnerIds := crud.partnerIds.filter fun ids ↦ 0 < ids.count
    headers := crud.headers.filter (· ≠ [])
    metadata := crud.metadata.filter (· ≠ []) }

def errorPayload (statusCode : ℚ) (message : String) : Json :=
  .obj [("statusCode".toList, .num statusCode), ("message".toList, .str message.toList)]

def invalidPartnerId : Json := errorPayload 403 "Invalid partner_id"
def invalidRequest : Json := errorPayload 400 "Invalid Request"
def serviceUnavailable : Json := errorPayload 531 "Service Unavailable"

def wrpDest : WrpMsg → Option CString
  | .event event => some event.dest
  | .req req => some req.dest
  | .crud _ crud => crud.dest
  | _ => none

/-- The answer goes back to where the message came from. -/
def createResponse (msg : WrpMsg) (payload : Json) : Option Response :=
  match msg with
  | .req req =>
    some ⟨.req, some req.dest, some req.source, req.transactionUuid, none, payload⟩
  | .crud type crud =>
    some ⟨.crud type, crud.dest, some (crud.source.getD "unknown".toList), crud.transactionUuid,
      crud.path, payload⟩
  | _ => none

/-- `ret`, `destFlag` and `response` behind the search for the dest, and what was delivered. -/
structure Searched where
  ret : ℤ
  destFlag : Bool
  response : Option Json
  delivered : List Delivery

/-- The search for the dest of a message whose partner is accepted. -/
def searchDest (layout : WrpMsg → CrudMsg) (calls : Calls) (clients : List RegListItem)
    (msg : WrpMsg) (ret : ℤ) (destVal : CString) : Searched :=
  let dest := (destService destVal).text
  match clients.find? fun node ↦ node.serviceName.text == dest with
  | some node => ⟨ret, true, none, [.client node.sock]⟩
  | none =>
    if dest = "parodus".toList then
      -- the member `u.crud` is read whatever the type of the message
      let crud := msg.asCrud layout
      if crud.source = none ∨ crud.transactionUuid = none then
        ⟨-1, true, some invalidRequest, []⟩
      else if calls.crudMessage = true ∧ calls.entry = true then
        ⟨ret, true, none, [.crudQueue (createNewMsgForCRUD calls msg.msgType crud)]⟩
      else ⟨ret, true, none, []⟩
    else ⟨ret, false, some serviceUnavailable, []⟩

/-- The error response is sent if there is one; an event is never answered. -/
def respond (calls : Calls) (msg : WrpMsg) (searched : Searched) : List Delivery :=
  if searched.destFlag = false ∨ searched.ret < 0 then
    match searched.response.bind (createResponse msg) with
    | some response =>
      if calls.response = true ∧ calls.encoded = true then
        searched.delivered ++ [.response response]
      else searched.delivered
    | none => searched.delivered
  else searched.delivered

def deliver (layout : WrpMsg → CrudMsg) (calls : Calls) (clients : List RegListItem)
    (msg : WrpMsg) (ret : ℤ) (destVal : CString) : List Delivery :=
  respond calls msg
    (if ret < 0 then ⟨ret, false, some invalidPartnerId, []⟩
    else if calls.destVal then searchDest layout calls clients msg ret destVal
    else ⟨ret, false, none, []⟩)

def listenerOnMessage (cfg : CharBuf 64) (layout : WrpMsg → CrudMsg) (calls : Calls)
    (clients : List RegListItem) (msg : WrpMsg) : Except Fault (List Delivery) :=
  match msg with
  | .event _ | .req _ | .crud _ _ =>
    match Partners.validatePartnerId cfg msg none ⟨0, []⟩ with
    | .error _ => .error .nullPartnerIds
    | .ok checked =>
      match wrpDest msg with
      | none => .error .nullDest
      | some destVal => .ok (deliver layout calls clients msg checked.ret destVal)
  | _ => .ok []

section Claims

variable {cfg : CharBuf 64} {layout : WrpMsg → CrudMsg} {calls : Calls}
  {clients : List RegListItem} {msg : WrpMsg} {dest service : CString} {payload : Json}

def parodus : CString := "parodus".toList

def isRequest : WrpMsg → Bool
  | .req _ | .crud _ _ => true
  | _ => false

def isEvent : WrpMsg → Bool
  | .event _ => true
  | _ => false

def isCrud : WrpMsg → Bool
  | .crud _ _ => true
  | _ => false

def wrpSource : WrpMsg → Option CString
  | .event event => some event.source
  | .req req => some req.source
  | .crud _ crud => crud.source
  | _ => none

def wrpTransactionUuid : WrpMsg → Option CString
  | .req req => req.transactionUuid
  | .crud _ crud => crud.transactionUuid
  | _ => none

/-- The socket of the first client of that name. -/
def FirstNamed (clients : List RegListItem) (service : CString) (sock : ℤ) : Prop :=
  ∃ front node back, clients = front ++ node :: back ∧ node.serviceName.text = service ∧
    (∀ other ∈ front, other.serviceName.text ≠ service) ∧ node.sock = sock

structure Answers (msg : WrpMsg) (response : Response) : Prop where
  source : response.source = wrpDest msg
  dest : response.dest = some ((wrpSource msg).getD "unknown".toList)
  transactionUuid : response.transactionUuid = wrpTransactionUuid msg

def RightOne (clients : List RegListItem) (msg : WrpMsg) (service : CString) : Delivery → Prop
  | .client sock => FirstNamed clients service sock
  | .crudQueue entry => entry.msgType = msg.msgType
  | .response response => Answers msg response

structure RightDelivery (clients : List RegListItem) (msg : WrpMsg) (dest : CString)
    (out : Except Fault (List Delivery)) : Prop where
  request : isRequest msg = true →
    ∃ delivery, out = .ok [delivery] ∧ RightOne clients msg (strtokService dest) delivery
  event : isEvent msg = true → ∀ delivered, out = .ok delivered →
    delivered.length ≤ 1 ∧ ∀ response, .response response ∉ delivered
  typed : ∀ delivered entry, out = .ok delivered → .crudQueue entry ∈ delivered →
    ∃ type, entry.msgType = .crud type

def Calls.Responds (calls : Calls) : Prop := calls.response = true ∧ calls.encoded = true

def Calls.Queues (calls : Calls) : Prop := calls.crudMessage = true ∧ calls.entry = true

/-- A client's name is the service, as far as it fits the buffer. -/
def Stored (clients : List RegListItem) (service : CString) : Prop :=
  ∃ node ∈ clients, node.serviceName.text = service.take 31

def Complete (layout : WrpMsg → CrudMsg) (msg : WrpMsg) : Prop :=
  (msg.asCrud layout).source ≠ none ∧ (msg.asCrud layout).transactionUuid ≠ none

/-- The message would be taken for a CRUD request. -/
def TakenAsCrud (layout : WrpMsg → CrudMsg) (clients : List RegListItem) (msg : WrpMsg)
    (service : CString) : Prop :=
  ¬ Stored clients service ∧ service = parodus ∧ Complete layout msg

def Refused (cfg : CharBuf 64) (msg : WrpMsg) : Prop :=
  ∃ checked, Partners.validatePartnerId cfg msg none ⟨0, []⟩ = .ok checked ∧ checked.ret < 0

def Checked (cfg : CharBuf 64) (msg : WrpMsg) : Prop :=
  ∃ checked, Partners.validatePartnerId cfg msg none ⟨0, []⟩ = .ok checked

/-- The allocations that a message needs succeed, a name that some client is found by is not
cut off, and only CRUD messages come to be taken for CRUD requests. -/
structure WellAddressed (cfg : CharBuf 64) (layout : WrpMsg → CrudMsg) (calls : Calls)
    (clients : List RegListItem) (msg : WrpMsg) (service : CString) : Prop where
  refused : isRequest msg = true → Refused cfg msg → calls.Responds
  copied : isRequest msg = true → ¬ Refused cfg msg → calls.destVal = true
  uncut : isRequest msg = true → ¬ Refused cfg msg → Stored clients service → service.length < 32
  crud : isRequest msg = true → ¬ Refused cfg msg → TakenAsCrud layout clients msg service →
    isCrud msg = true ∧ calls.Queues
  answered : isRequest msg = true → ¬ Refused cfg msg → ¬ Stored clients service →
    ¬ TakenAsCrud layout clients msg service → calls.Responds
  event : isEvent msg = true → Checked cfg msg → calls.destVal = true →
    TakenAsCrud layout clients msg service → ¬ calls.Queues

theorem destService_text : (destService dest).text = (strtokService dest).take 31 := rfl

theorem take_eq_parodus_iff : service.take 31 = parodus ↔ service = parodus := by
  constructor
  · intro h
    have hlength := congrArg List.length h
    have hparodus : parodus.length = 7 := by decide
    rw [List.length_take, hparodus] at hlength
    rw [← h, List.take_of_length_le (by omega)]
  · rintro rfl
    rfl

def answered (calls : Calls) (msg : WrpMsg) (payload : Json) : List Delivery :=
  match createResponse msg payload with
  | some response =>
    if calls.response = true ∧ calls.encoded = true then [.response response] else []
  | none => []

theorem find_eq_some_firstNamed {node : RegListItem}
    (h : clients.find? (fun node ↦ node.serviceName.text == service) = some node) :
    FirstNamed clients service node.sock := by
  obtain ⟨hname, front, back, rfl, hfront⟩ := List.find?_eq_some_iff_append.mp h
  refine ⟨front, node, back, rfl, by simpa using hname, ?_, rfl⟩
  intro other hother
  simpa using hfront other hother

theorem respond_delivered {ret : ℤ} {delivered : List Delivery} (hret : 0 ≤ ret) :
    respond calls msg ⟨ret, true, none, delivered⟩ = delivered := by
  have hnot : ¬ ((true : Bool) = false ∨ ret < 0) := by
    rintro (h | h)
    · cases h
    · exact absurd h (Int.not_lt.mpr hret)
  exact if_neg hnot

theorem respond_error {ret : ℤ} {destFlag : Bool} (h : destFlag = false ∨ ret < 0) :
    respond calls msg ⟨ret, destFlag, some payload, []⟩ = answered calls msg payload :=
  if_pos h

/-- All that becomes of a message with a dest whose partner is accepted. -/
theorem deliver_accepted (layout : WrpMsg → CrudMsg) (clients : List RegListItem) (msg : WrpMsg)
    (dest : CString) {ret : ℤ} (hret : 0 ≤ ret) (hdest : calls.destVal = true) :
    (Stored clients (strtokService dest) ∧ ∃ sock,
      FirstNamed clients ((strtokService dest).take 31) sock ∧
      deliver layout calls clients msg ret dest = [.client sock]) ∨
    (TakenAsCrud layout clients msg (strtokService dest) ∧ calls.Queues ∧
      deliver layout calls clients msg ret dest =
        [.crudQueue (createNewMsgForCRUD calls msg.msgType (msg.asCrud layout))]) ∨
    (TakenAsCrud layout clients msg (strtokService dest) ∧ ¬ calls.Queues ∧
      deliver layout calls clients msg ret dest = []) ∨
    (¬ Stored clients (strtokService dest) ∧
      ¬ TakenAsCrud layout clients msg (strtokService dest) ∧ ∃ payload,
        deliver layout calls clients msg ret dest = answered calls msg payload) := by
  unfold deliver
  rw [if_neg (Int.not_lt.mpr hret), if_pos hdest]
  unfold searchDest
  dsimp only
  rw [destService_text]
  cases hfind : clients.find? fun node ↦
      node.serviceName.text == (strtokService dest).take 31 with
  | some node =>
    left
    have hmem := List.mem_of_find?_eq_some hfind
    have hname := List.find?_some hfind
    exact ⟨⟨node, hmem, by simpa using hname⟩, node.sock, find_eq_some_firstNamed hfind,
      respond_delivered hret⟩
  | none =>
    right
    have hstored : ¬ Stored clients (strtokService dest) := by
      rintro ⟨node, hmem, hname⟩
      have hno := List.find?_eq_none.mp hfind node hmem
      simp [hname] at hno
    dsimp only
    by_cases hparodus : (strtokService dest).take 31 = "parodus".toList
    · have hservice := take_eq_parodus_iff.mp hparodus
      rw [if_pos hparodus]
      by_cases hnull : (msg.asCrud layout).source = none ∨
          (msg.asCrud layout).transactionUuid = none
      · have hneg : (-1 : ℤ) < 0 := by decide
        rw [if_pos hnull]
        refine .inr (.inr ⟨hstored, ?_, invalidRequest, respond_error (.inr hneg)⟩)
        rintro ⟨_, _, hsource, huuid⟩
        exact hnull.elim hsource huuid
      · rw [if_neg hnull]
        have htaken : TakenAsCrud layout clients msg (strtokService dest) :=
          ⟨hstored, hservice, not_or.mp hnull⟩
        by_cases hqueues : calls.crudMessage = true ∧ calls.entry = true
        · rw [if_pos hqueues]
          exact .inl ⟨htaken, hqueues, respond_delivered hret⟩
        · rw [if_neg hqueues]
          exact .inr (.inl ⟨htaken, hqueues, respond_delivered hret⟩)
    · rw [if_neg hparodus]
      refine .inr (.inr ⟨hstored, ?_, serviceUnavailable, respond_error (.inl rfl)⟩)
      rintro ⟨_, hservice, _⟩
      exact hparodus (take_eq_parodus_iff.mpr hservice)

theorem deliver_refused {ret : ℤ} (hret : ret < 0) :
    deliver layout calls clients msg ret dest = answered calls msg invalidPartnerId := by
  unfold deliver
  rw [if_pos hret]
  exact respond_error (.inl rfl)

theorem deliver_uncopied {ret : ℤ} (hret : 0 ≤ ret) (hdest : ¬ calls.destVal = true) :
    deliver layout calls clients msg ret dest = [] := by
  unfold deliver
  rw [if_neg (Int.not_lt.mpr hret), if_neg hdest]
  exact if_pos (.inl rfl)

theorem answered_of_not_responds (h : ¬ calls.Responds) : answered calls msg payload = [] := by
  unfold answered
  split
  · exact if_neg h
  · rfl

theorem answered_event (h : isEvent msg = true) : answered calls msg payload = [] := by
  cases msg with
  | event event => rfl
  | _ => cases h

theorem answered_request (payload : Json) (hrequest : isRequest msg = true) (h : calls.Responds) :
    ∃ response, answered calls msg payload = [.response response] ∧ Answers msg response := by
  unfold answered
  cases msg with
  | req req => exact ⟨_, if_pos h, rfl, rfl, rfl⟩
  | crud type crud => exact ⟨_, if_pos h, rfl, rfl, rfl⟩
  | _ => cases hrequest

theorem checked_of_request (hrequest : isRequest msg = true) : Checked cfg msg := by
  unfold Checked
  cases hcheck : Partners.validatePartnerId cfg msg none ⟨0, []⟩ with
  | ok checked => exact ⟨checked, rfl⟩
  | error fault =>
    have hno := (Partners.validatePartnerId_no_null_write_iff cfg msg none ⟨0, []⟩).mpr
    refine absurd hcheck (hno (.inr (.inr ?_)))
    intro event heq
    rw [heq] at hrequest
    cases hrequest

theorem checked_event {checked : Partners.Validated} (hevent : isEvent msg = true)
    (h : Partners.validatePartnerId cfg msg none ⟨0, []⟩ = .ok checked) : 0 ≤ checked.ret := by
  cases msg with
  | event event =>
    unfold Partners.validatePartnerId at h
    by_cases hcfg : cfg.text = []
    · rw [if_pos hcfg] at h
      obtain rfl := Except.ok.inj h
      exact Int.le_refl 0
    · rw [if_neg hcfg] at h
      dsimp only at h
      split at h
      · split at h
        · obtain rfl := Except.ok.inj h
          exact Int.zero_le_ofNat 1
        · cases h
      · cases h
  | _ => cases hevent

theorem listenerOnMessage_eq {checked : Partners.Validated}
    (hrouted : isRequest msg = true ∨ isEvent msg = true) (hdest : wrpDest msg = some dest)
    (h : Partners.validatePartnerId cfg msg none ⟨0, []⟩ = .ok checked) :
    listenerOnMessage cfg layout calls clients msg =
      .ok (deliver layout calls clients msg checked.ret dest) := by
  cases msg with
  | event | req | crud => simp only [listenerOnMessage, h, hdest]
  | _ => obtain h | h := hrouted <;> cases h

theorem not_mem_answered (entry : CrudEntry) : .crudQueue entry ∉ answered calls msg payload := by
  unfold answered
  split
  · split <;> simp
  · exact List.not_mem_nil

/-- The message comes to be put on the CRUD queue. -/
structure Accepted (cfg : CharBuf 64) (layout : WrpMsg → CrudMsg) (calls : Calls)
    (clients : List RegListItem) (msg : WrpMsg) (dest : CString) : Prop where
  addressed : wrpDest msg = some dest
  allowed : ¬ Refused cfg msg
  copied : calls.destVal = true
  taken : TakenAsCrud layout clients msg (strtokService dest)
  queues : calls.Queues

theorem refused_iff {checked : Partners.Validated}
    (h : Partners.validatePartnerId cfg msg none ⟨0, []⟩ = .ok checked) :
    Refused cfg msg ↔ checked.ret < 0 := by
  constructor
  · rintro ⟨checked', h', hneg⟩
    obtain rfl := Except.ok.inj (h.symm.trans h')
    exact hneg
  · exact fun hneg ↦ ⟨checked, h, hneg⟩

theorem deliver_crudQueue {checked : Partners.Validated} {entry : CrudEntry}
    (hdest : wrpDest msg = some dest)
    (h : Partners.validatePartnerId cfg msg none ⟨0, []⟩ = .ok checked) :
    .crudQueue entry ∈ deliver layout calls clients msg checked.ret dest ↔
      Accepted cfg layout calls clients msg dest ∧
        entry = createNewMsgForCRUD calls msg.msgType (msg.asCrud layout) := by
  by_cases hret : checked.ret < 0
  · rw [deliver_refused hret]
    exact iff_of_false (not_mem_answered entry) fun hacc ↦ hacc.1.allowed ⟨checked, h, hret⟩
  have hret' : 0 ≤ checked.ret := Int.not_lt.mp hret
  have hallowed : ¬ Refused cfg msg := mt (refused_iff h).mp hret
  by_cases hcopied : calls.destVal = true
  swap
  · rw [deliver_uncopied hret' hcopied]
    exact iff_of_false List.not_mem_nil fun hacc ↦ hcopied hacc.1.copied
  obtain ⟨hstored, sock, _, heq⟩ | ⟨htaken, hqueues, heq⟩ | ⟨_, hqueues, heq⟩ |
    ⟨_, htaken, payload, heq⟩ := deliver_accepted layout clients msg dest hret' hcopied
  · rw [heq]
    exact iff_of_false (by simp) fun hacc ↦ hacc.1.taken.1 hstored
  · rw [heq, List.mem_singleton, Delivery.crudQueue.injEq]
    exact ⟨fun heq ↦ ⟨⟨hdest, hallowed, hcopied, htaken, hqueues⟩, heq⟩, fun hacc ↦ hacc.2⟩
  · rw [heq]
    exact iff_of_false List.not_mem_nil fun hacc ↦ hqueues hacc.1.queues
  · rw [heq]
    exact iff_of_false (not_mem_answered entry) fun hacc ↦ htaken hacc.1.taken

theorem listenerOnMessage_crudQueue {delivered : List Delivery} {entry : CrudEntry}
    (h : listenerOnMessage cfg layout calls clients msg = .ok delivered) :
    .crudQueue entry ∈ delivered ↔
      (∃ dest, Accepted cfg layout calls clients msg dest) ∧
        entry = createNewMsgForCRUD calls msg.msgType (msg.asCrud layout) := by
  by_cases hrouted : isRequest msg = true ∨ isEvent msg = true
  · cases hcheck : Partners.validatePartnerId cfg msg none ⟨0, []⟩ with
    | error fault =>
      cases msg with
      | event | req | crud => simp [listenerOnMessage, hcheck] at h
      | _ => obtain h | h := hrouted <;> cases h
    | ok checked =>
      cases hdest : wrpDest msg with
      | none =>
        cases msg with
        | event | req | crud => simp [listenerOnMessage, hcheck, hdest] at h
        | _ => obtain h | h := hrouted <;> cases h
      | some dest =>
        rw [listenerOnMessage_eq hrouted hdest hcheck] at h
        obtain rfl := Except.ok.inj h
        rw [deliver_crudQueue hdest hcheck]
        refine and_congr_left fun _ ↦ ⟨fun hacc ↦ ⟨dest, hacc⟩, ?_⟩
        rintro ⟨dest', hacc⟩
        obtain rfl := Option.some.inj (hdest.symm.trans hacc.addressed)
        exact hacc
  · cases msg with
    | event => exact absurd (.inr rfl) hrouted
    | req | crud => exact absurd (.inl rfl) hrouted
    | _ =>
      obtain rfl := Except.ok.inj h
      refine iff_of_false List.not_mem_nil ?_
      rintro ⟨⟨dest, hacc⟩, _⟩
      cases hacc.addressed

theorem not_isEvent (hrequest : isRequest msg = true) : isEvent msg ≠ true := by
  cases msg with
  | req | crud => exact Bool.false_ne_true
  | _ => cases hrequest

theorem isCrud_iff : isCrud msg = true ↔ ∃ type, msg.msgType = .crud type := by
  cases msg with
  | crud type crud => exact ⟨fun _ ↦ ⟨type, rfl⟩, fun _ ↦ rfl⟩
  | _ => exact ⟨fun h ↦ absurd h Bool.false_ne_true, fun ⟨_, h⟩ ↦ by cases h⟩

/-- A request is delivered right by one delivery, which is no message of another type on the
CRUD queue. -/
theorem rightDelivery_request {delivered : List Delivery} (hrequest : isRequest msg = true) :
    RightDelivery clients msg dest (.ok delivered) ↔ ∃ delivery, delivered = [delivery] ∧
      RightOne clients msg (strtokService dest) delivery ∧
      ∀ entry, delivery = .crudQueue entry → ∃ type, entry.msgType = .crud type := by
  constructor
  · intro h
    obtain ⟨delivery, hout, hright⟩ := h.request hrequest
    obtain rfl := Except.ok.inj hout
    refine ⟨delivery, rfl, hright, ?_⟩
    rintro entry rfl
    exact h.typed _ entry rfl List.mem_cons_self
  · rintro ⟨delivery, rfl, hright, htyped⟩
    refine ⟨fun _ ↦ ⟨delivery, rfl, hright⟩, fun h ↦ absurd h (not_isEvent hrequest), ?_⟩
    intro delivered entry hout hmem
    obtain rfl := Except.ok.inj hout
    exact htyped entry (List.mem_singleton.mp hmem).symm

theorem rightDelivery_answered (hrequest : isRequest msg = true) :
    RightDelivery clients msg dest (.ok (answered calls msg payload)) ↔ calls.Responds := by
  rw [rightDelivery_request hrequest]
  constructor
  · rintro ⟨delivery, hanswered, _⟩
    by_contra hno
    rw [answered_of_not_responds hno] at hanswered
    cases hanswered
  · intro hresponds
    obtain ⟨response, hanswered, hanswers⟩ := answered_request payload hrequest hresponds
    rw [hanswered]
    exact ⟨_, rfl, hanswers, fun _ h ↦ by cases h⟩

theorem not_rightDelivery_nil (hrequest : isRequest msg = true) :
    ¬ RightDelivery clients msg dest (.ok []) := by
  rw [rightDelivery_request hrequest]
  rintro ⟨delivery, h, _⟩
  cases h

theorem FirstNamed.length_lt {sock : ℤ} (h : FirstNamed clients service sock) :
    service.length < 32 := by
  obtain ⟨_, node, _, _, hname, _⟩ := h
  rw [← hname]
  exact node.serviceName.fits

theorem rightDelivery_client {sock : ℤ} (hrequest : isRequest msg = true)
    (h : FirstNamed clients ((strtokService dest).take 31) sock) :
    RightDelivery clients msg dest (.ok [.client sock]) ↔ (strtokService dest).length < 32 := by
  rw [rightDelivery_request hrequest]
  constructor
  · rintro ⟨delivery, hdelivery, hright, _⟩
    obtain ⟨rfl, _⟩ := List.cons.inj hdelivery
    have hright : FirstNamed clients (strtokService dest) sock := hright
    exact hright.length_lt
  · intro hlength
    rw [List.take_of_length_le (by omega)] at h
    exact ⟨_, rfl, h, fun _ h ↦ by cases h⟩

theorem rightDelivery_crudQueue {crud : CrudMsg} (hrequest : isRequest msg = true) :
    RightDelivery clients msg dest
      (.ok [.crudQueue (createNewMsgForCRUD calls msg.msgType crud)]) ↔ isCrud msg = true := by
  rw [rightDelivery_request hrequest, isCrud_iff]
  constructor
  · rintro ⟨delivery, hdelivery, _, htyped⟩
    obtain ⟨rfl, _⟩ := List.cons.inj hdelivery
    exact htyped _ rfl
  · intro htype
    refine ⟨_, rfl, rfl, ?_⟩
    rintro entry hentry
    obtain rfl := Delivery.crudQueue.inj hentry
    exact htype

theorem request_iff {checked : Partners.Validated} (hrequest : isRequest msg = true)
    (h : Partners.validatePartnerId cfg msg none ⟨0, []⟩ = .ok checked) :
    RightDelivery clients msg dest
        (.ok (deliver layout calls clients msg checked.ret dest)) ↔
      WellAddressed cfg layout calls clients msg (strtokService dest) := by
  have hevent : isEvent msg ≠ true := not_isEvent hrequest
  by_cases hret : checked.ret < 0
  · have hrefused : Refused cfg msg := ⟨checked, h, hret⟩
    rw [deliver_refused hret, rightDelivery_answered hrequest]
    constructor
    · intro hresponds
      exact ⟨fun _ _ ↦ hresponds, fun _ hno ↦ absurd hrefused hno,
        fun _ hno ↦ absurd hrefused hno, fun _ hno ↦ absurd hrefused hno,
        fun _ hno ↦ absurd hrefused hno, fun he ↦ absurd he hevent⟩
    · exact fun hwell ↦ hwell.refused hrequest hrefused
  have hret' : 0 ≤ checked.ret := Int.not_lt.mp hret
  have hrefused : ¬ Refused cfg msg := mt (refused_iff h).mp hret
  by_cases hcopied : calls.destVal = true
  swap
  · rw [deliver_uncopied hret' hcopied]
    exact ⟨fun hright ↦ absurd hright (not_rightDelivery_nil hrequest),
      fun hwell ↦ absurd (hwell.copied hrequest hrefused) hcopied⟩
  obtain ⟨hstored, sock, hfirst, heq⟩ | ⟨htaken, hqueues, heq⟩ | ⟨htaken, hqueues, heq⟩ |
    ⟨hstored, htaken, payload, heq⟩ := deliver_accepted layout clients msg dest hret' hcopied
  · rw [heq, rightDelivery_client hrequest hfirst]
    constructor
    · intro hlength
      exact ⟨fun _ hr ↦ absurd hr hrefused, fun _ _ ↦ hcopied, fun _ _ _ ↦ hlength,
        fun _ _ ht ↦ absurd hstored ht.1, fun _ _ hno ↦ absurd hstored hno,
        fun he ↦ absurd he hevent⟩
    · exact fun hwell ↦ hwell.uncut hrequest hrefused hstored
  · rw [heq, rightDelivery_crudQueue hrequest]
    constructor
    · intro hcrud
      exact ⟨fun _ hr ↦ absurd hr hrefused, fun _ _ ↦ hcopied, fun _ _ hs ↦ absurd hs htaken.1,
        fun _ _ _ ↦ ⟨hcrud, hqueues⟩, fun _ _ _ hno ↦ absurd htaken hno,
        fun he ↦ absurd he hevent⟩
    · exact fun hwell ↦ (hwell.crud hrequest hrefused htaken).1
  · rw [heq]
    exact ⟨fun hright ↦ absurd hright (not_rightDelivery_nil hrequest),
      fun hwell ↦ absurd (hwell.crud hrequest hrefused htaken).2 hqueues⟩
  · rw [heq, rightDelivery_answered hrequest]
    constructor
    · intro hresponds
      exact ⟨fun _ hr ↦ absurd hr hrefused, fun _ _ ↦ hcopied, fun _ _ hs ↦ absurd hs hstored,
        fun _ _ ht ↦ absurd ht htaken, fun _ _ _ _ ↦ hresponds, fun he ↦ absurd he hevent⟩
    · exact fun hwell ↦ hwell.answered hrequest hrefused hstored htaken

/-- What an event leads to is right unless it is put on the CRUD queue. -/
theorem rightDelivery_event {delivered : List Delivery} (hevent : isEvent msg = true)
    (hlength : delivered.length ≤ 1) (hresponse : ∀ response, .response response ∉ delivered)
    (hentry : ∀ entry, .crudQueue entry ∉ delivered) :
    RightDelivery clients msg dest (.ok delivered) where
  request hrequest := absurd hevent (not_isEvent hrequest)
  event _ _ hout := by
    obtain rfl := Except.ok.inj hout
    exact ⟨hlength, hresponse⟩
  typed _ entry hout hmem := by
    obtain rfl := Except.ok.inj hout
    exact absurd hmem (hentry entry)

theorem wellAddressed_event (hevent : isEvent msg = true)
    (h : Checked cfg msg → calls.destVal = true → TakenAsCrud layout clients msg service →
      ¬ calls.Queues) : WellAddressed cfg layout calls clients msg service := by
  have hrequest : isRequest msg ≠ true := fun hr ↦ not_isEvent hr hevent
  exact ⟨fun hr ↦ absurd hr hrequest, fun hr ↦ absurd hr hrequest, fun hr ↦ absurd hr hrequest,
    fun hr ↦ absurd hr hrequest, fun hr ↦ absurd hr hrequest, fun _ ↦ h⟩

theorem event_iff {checked : Partners.Validated} (hevent : isEvent msg = true)
    (h : Partners.validatePartnerId cfg msg none ⟨0, []⟩ = .ok checked) :
    RightDelivery clients msg dest
        (.ok (deliver layout calls clients msg checked.ret dest)) ↔
      WellAddressed cfg layout calls clients msg (strtokService dest) := by
  have hret : 0 ≤ checked.ret := checked_event hevent h
  have hempty : RightDelivery clients msg dest (.ok []) :=
    rightDelivery_event hevent (Nat.zero_le 1) (fun _ h ↦ by cases h) (fun _ h ↦ by cases h)
  by_cases hcopied : calls.destVal = true
  swap
  · rw [deliver_uncopied hret hcopied]
    exact ⟨fun _ ↦ wellAddressed_event hevent fun _ hc ↦ absurd hc hcopied, fun _ ↦ hempty⟩
  obtain ⟨hstored, sock, _, heq⟩ | ⟨htaken, hqueues, heq⟩ | ⟨htaken, hqueues, heq⟩ |
    ⟨_, htaken, payload, heq⟩ := deliver_accepted layout clients msg dest hret hcopied
  · rw [heq]
    refine ⟨fun _ ↦ wellAddressed_event hevent fun _ _ ht ↦ absurd hstored ht.1, fun _ ↦ ?_⟩
    exact rightDelivery_event hevent (Nat.le_refl 1) (by simp) (by simp)
  · rw [heq]
    constructor
    · intro hright
      obtain ⟨type, htype⟩ := hright.typed _ _ rfl List.mem_cons_self
      have hcrud := isCrud_iff.mpr ⟨type, htype⟩
      cases msg with
      | event event => cases hcrud
      | _ => cases hevent
    · exact fun hw ↦ absurd hqueues (hw.event hevent ⟨checked, h⟩ hcopied htaken)
  · rw [heq]
    exact ⟨fun _ ↦ wellAddressed_event hevent fun _ _ _ ↦ hqueues, fun _ ↦ hempty⟩
  · rw [heq, answered_event hevent]
    exact ⟨fun _ ↦ wellAddressed_event hevent fun _ _ ht ↦ absurd ht htaken, fun _ ↦ hempty⟩

/-- An event that the partner check crashes on is not delivered at all. -/
theorem rightDelivery_error (fault : Fault) (hevent : isEvent msg = true) :
    RightDelivery clients msg dest (.error fault) where
  request hrequest := absurd hevent (not_isEvent hrequest)
  event _ _ hout := by cases hout
  typed _ _ hout := by cases hout

theorem routed_of_wrpDest (h : wrpDest msg = some dest) :
    isRequest msg = true ∨ isEvent msg = true := by
  cases msg with
  | req | crud => exact .inl rfl
  | event => exact .inr rfl
  | _ => cases h

end Claims

section Inputs

def plainCrud (transactionUuid source dest : Option CString) : CrudMsg where
  transactionUuid := transactionUuid
  source := source
  dest := dest
  partnerIds := none
  headers := none
  metadata := none
  includeSpans := false
  contentType := none
  status := 0
  rdr := 0
  path := none
  payload := none
  payloadSize := 0

/-- The first three members of a REQ message have the places of those of a CRUD message, those
of an event the two behind the first place. -/
def alignedLayout : WrpMsg → CrudMsg
  | .req req => plainCrud req.transactionUuid (some req.source) (some req.dest)
  | .event event => plainCrud (some event.source) (some event.dest) none
  | _ => plainCrud none none none

def allAllocated : Calls := ⟨true, true, true, true, true, true, true, true⟩

def cloudReq : ReqMsg where
  transactionUuid := some "123".toList
  source := "dns:webpa".toList
  dest := "mac:14cfe2142144/parodus".toList
  partnerIds := none
  headers := none
  metadata := none
  contentType := none
  payload := none
  payloadSize := 0

def cloudRetrieve : CrudMsg :=
  plainCrud (some "123".toList) (some "dns:webpa".toList)
    (some "mac:14cfe2142144/parodus/cloud-status".toList)

end Inputs

end Parodus.Downstream
