import Parodus.Upstream.Tasks

namespace Parodus.Upstream

open Foundation.Runs Foundation.Segments
open Downstream (strdup)

structure Rightly (origin : Origin) (routine : Routine) : Prop where
  nanomsg : origin = .nanomsg → routine = .nnFreemsg
  crud : origin = .crud → routine = .free

/-- Every buffer was released, and of those waiting every one will be, by the routine of its
origin. -/
structure Releases (wire : Wire) (s : State) : Prop where
  released : ∀ r ∈ s.log.released, Rightly r.1 r.2
  waiting : ∀ message ∈ s.upStreamMsgQ, Rightly message.origin (release wire message.decoded)

/-- Read as that of a CRUD message, the source is one of the service parodus. -/
def FromParodus (wire : Wire) (msg : WrpMsg) : Prop :=
  ∃ source, (msg.asCrud wire.layout).source = some source ∧
    between '/' source = some parodusServiceName

def ToParodus (crud : CrudMsg) : Prop :=
  ∃ dest, crud.dest = some dest ∧ between '/' dest = some parodusServiceName

/-- No client names parodus as its source, and what is answered was sent to parodus. -/
def ReleaseOk (setup : Setup) (s : State) : Action → Prop
  | .handleUpstream allocated decoded =>
    allocated = true → ∀ msg, decoded = some msg → ¬ FromParodus setup.wire msg
  | .crudHandlerTask calls out =>
    calls.response = true → calls.encoded = true → ∀ message rest, s.crudMsgQ = message :: rest →
      ∀ msg, setup.wire.recode (response calls message.val.entry out) = some msg →
        match message.val.entry.msgType with
        | .crud _ => calls.source = true ∧ ToParodus message.val.entry.crud
        | _ => FromParodus setup.wire msg
  | _ => True

variable {setup : Setup} {wire : Wire} {s t : State} {message : UpStreamMsg}

theorem fromParodus_iff {msg : WrpMsg} : fromParodus wire msg = true ↔ FromParodus wire msg := by
  unfold fromParodus FromParodus
  cases (msg.asCrud wire.layout).source <;> simp

theorem release_some (msg : WrpMsg) :
    release wire (some msg) = .free ↔ FromParodus wire msg := by
  rw [← fromParodus_iff, release]
  cases fromParodus wire msg <;> simp

theorem rightly_nanomsg {decoded : Option WrpMsg} :
    Rightly .nanomsg (release wire decoded) ↔
      ∀ msg, decoded = some msg → ¬ FromParodus wire msg := by
  constructor
  · rintro ⟨hnanomsg, _⟩ msg rfl hfrom
    have hfree := (release_some msg).mpr hfrom
    rw [hnanomsg rfl] at hfree
    cases hfree
  · intro h
    refine ⟨fun _ ↦ ?_, nofun⟩
    cases decoded with
    | none => rfl
    | some msg =>
      cases hroutine : release wire (some msg) with
      | nnFreemsg => rfl
      | free => exact absurd ((release_some msg).mp hroutine) (h msg rfl)

theorem rightly_crud {msg : WrpMsg} :
    Rightly .crud (release wire (some msg)) ↔ FromParodus wire msg := by
  rw [← release_some]
  exact ⟨fun h ↦ h.crud rfl, fun h ↦ ⟨nofun, fun _ ↦ h⟩⟩

theorem rightly_unencoded (routine : Routine) : Rightly .unencoded routine := ⟨nofun, nofun⟩

theorem fromParodus_response {calls : CrudCalls} {entry : Downstream.CrudEntry}
    {out : Crud.Outcome} {type : CrudType} {msg : WrpMsg} (htype : entry.msgType = .crud type)
    (h : wire.recode (response calls entry out) = some msg) :
    FromParodus wire msg ↔ calls.source = true ∧ ToParodus entry.crud := by
  have hmsg := wire.typed _ _ h
  have hsource : ∃ type' crud', msg = .crud type' crud' ∧
      crud'.source = strdup calls.source entry.crud.dest := by
    obtain ⟨msgType, crud⟩ := entry
    obtain rfl : msgType = .crud type := htype
    cases msg with
    | crud type' crud' =>
      exact ⟨type', crud', rfl, (wire.addressed _ _ _ _ h).1⟩
    | _ => cases hmsg
  obtain ⟨type', crud', rfl, hsource⟩ := hsource
  unfold FromParodus ToParodus
  rw [WrpMsg.asCrud, hsource]
  cases calls.source <;> simp [strdup]

/-- What one step adds to the queue decides whether every buffer is still released rightly. -/
theorem releases_add (message : UpStreamMsg) (hs : Releases wire s)
    (hreleased : t.log.released = s.log.released)
    (hqueue : t.upStreamMsgQ = s.upStreamMsgQ ++ [message]) :
    Releases wire t ↔ Rightly message.origin (release wire message.decoded) := by
  constructor
  · intro ht
    apply ht.waiting
    rw [hqueue]
    exact List.mem_append_right _ List.mem_cons_self
  · intro hmessage
    constructor
    · rw [hreleased]
      exact hs.released
    · rw [hqueue]
      intro message' hmem
      obtain hmem | hmem := List.mem_append.mp hmem
      · exact hs.waiting message' hmem
      · rw [List.mem_singleton.mp hmem]
        exact hmessage

theorem releases_keep (hs : Releases wire s) (hreleased : t.log.released = s.log.released)
    (hqueue : t.upStreamMsgQ = s.upStreamMsgQ) : Releases wire t where
  released := hreleased ▸ hs.released
  waiting := hqueue ▸ hs.waiting

theorem releases_take {rest : List UpStreamMsg} (hs : Releases wire s)
    (hqueue : s.upStreamMsgQ = message :: rest) (fate : Fate) :
    Releases wire (s.take wire message rest fate) where
  released := by
    intro r hr
    obtain hr | hr := List.mem_append.mp hr
    · exact hs.released r hr
    · rw [List.mem_singleton.mp hr]
      apply hs.waiting
      rw [hqueue]
      exact List.mem_cons_self
  waiting message' hmem := by
    apply hs.waiting
    rw [hqueue]
    exact List.mem_cons_of_mem _ hmem

theorem releases_addRetrieveMsg (calls : UpstreamCalls) (crud : CrudMsg) (request : ℕ)
    (hs : Releases wire s) : Releases wire (addRetrieveMsg calls crud request s) := by
  obtain ⟨_, _, heq⟩ | ⟨_, _, heq⟩ | ⟨_, _, crudMsg, _, heq⟩ | ⟨_, _, heq⟩ :=
    addRetrieveMsg_cases calls crud request s
  all_goals
    rw [heq]
    exact releases_keep hs rfl rfl

theorem releases_answer {calls : CrudCalls} {out : Crud.Outcome} {pending : Pending} :
    Rightly (answer setup calls out pending).origin
        (release setup.wire (answer setup calls out pending).decoded) ↔
      (calls.encoded = true → ∀ msg,
        setup.wire.recode (response calls pending.entry out) = some msg →
        match pending.entry.msgType with
        | .crud _ => calls.source = true ∧ ToParodus pending.entry.crud
        | _ => FromParodus setup.wire msg) := by
  unfold answer encode
  cases hencoded : calls.encoded with
  | false => simp [rightly_unencoded]
  | true =>
    cases hrecode : setup.wire.recode (response calls pending.entry out) with
    | none => simp [rightly_unencoded]
    | some msg =>
      simp only [if_true, Option.some.injEq, forall_eq', forall_const]
      rw [rightly_crud]
      split
      · rename_i type htype
        exact fromParodus_response htype hrecode
      · exact Iff.rfl

theorem releases_step (hs : Releases setup.wire s) {a : Action} (h : Step setup s a t) :
    Releases setup.wire t ↔ ReleaseOk setup s a := by
  cases a with
  | handleUpstream allocated decoded =>
    obtain rfl := Option.some.inj h
    cases allocated with
    | false => exact iff_of_true hs (fun hf ↦ absurd hf Bool.false_ne_true)
    | true =>
      have hadd := releases_add (t := handleUpstream true decoded s)
        ⟨.nanomsg, decoded, s.log.numbered⟩ hs rfl rfl
      rw [hadd, rightly_nanomsg]
      exact ⟨fun hok _ ↦ hok, fun hok ↦ hok rfl⟩
  | listenerOnMessage calls clients msg =>
    refine iff_of_true ?_ trivial
    obtain ⟨_, rfl⟩ | ⟨_, rfl⟩ := listenerOnMessage_cases h
    · exact hs
    · exact releases_keep hs rfl rfl
  | processUpstreamMessage calls =>
    refine iff_of_true ?_ trivial
    obtain ⟨message, rest, f, hqueue, _, ⟨_, rfl⟩ | ⟨_, crud, _, rfl⟩⟩ :=
      processUpstreamMessage_cases h
    · exact releases_take hs hqueue f
    · exact releases_addRetrieveMsg _ _ _ (releases_take hs hqueue .crudQueue)
  | crudHandlerTask calls out =>
    obtain ⟨message, rest, hqueue, _, _, rfl⟩ := crudHandlerTask_cases h
    have hok : ReleaseOk setup s (.crudHandlerTask calls out) ↔ (calls.response = true →
        calls.encoded = true → ∀ msg,
          setup.wire.recode (response calls message.val.entry out) = some msg →
          match message.val.entry.msgType with
          | .crud _ => calls.source = true ∧ ToParodus message.val.entry.crud
          | _ => FromParodus setup.wire msg) := by
      constructor
      · exact fun hok hresponse hencoded ↦ hok hresponse hencoded message rest hqueue
      · intro hok hresponse hencoded message' rest' hqueue'
        obtain ⟨rfl, _⟩ := List.cons.inj (hqueue.symm.trans hqueue')
        exact hok hresponse hencoded
    rw [hok, ← releases_answer]
    have hprocess : Releases setup.wire (s.process message rest) := releases_keep hs rfl rfl
    cases calls.response with
    | false => exact iff_of_true hprocess (fun hf ↦ absurd hf Bool.false_ne_true)
    | true =>
      have hadd := releases_add
        (t := addCRUDresponseToUpstreamQ true (answer setup calls out message.val)
          (s.process message rest)) (answer setup calls out message.val) hprocess rfl rfl
      rw [hadd]
      exact ⟨fun hright _ ↦ hright, fun hright ↦ hright rfl⟩

end Parodus.Upstream
