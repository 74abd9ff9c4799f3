import Parodus.Connection.Reconnect
import Parodus.Crud.TagStore

namespace Parodus.Crud

/-- The two calls that the handler makes on the globals, in its order. -/
def Outcome.globals (out : Outcome) (g : ReconnectState) : ReconnectState :=
  let g := match out.cloudDisconnect with
    | some reason => g.setCloudDisconnectReason reason
    | none => g
  match out.reconnectReason with
  | some reason => (g.connDisconnectFromCloud reason).2
  | none => g

/-- The destination is `parodus/cloud-disconnect`. -/
def CloudDest (lib : Lib) (reqMsg : CrudMsg) : Prop :=
  ∃ dest obj, reqMsg.dest = some dest ∧ parseDestElementsToString lib dest = .elements obj 3 ∧
    obj[3]? = some (some "cloud-disconnect".toList)

/-- The reason in a payload, where it is one that can be taken. -/
def disconnectionReason (lib : Lib) (payload : Option CString) : Option CString :=
  (getObjectItem (payload.bind lib.parse) "disconnection-reason".toList).bind fun item ↦
    match item.value with
    | .str reason => if validateDisconnectString reason then some reason else none
    | _ => none

/-- A reason that can be taken arrives while the connection is being closed
already, and is not the reason kept so far. -/
def LateReason (lib : Lib) (file : Option CString) (reqMsg : CrudMsg) (g : ReconnectState) :
    Prop :=
  CloudDest lib reqMsg ∧ (loadConfig lib file).isSome ∧ g.closeRetry = true ∧
    ∃ reason, disconnectionReason lib reqMsg.payload = some reason ∧
      g.cloudDisconnect ≠ some reason

variable {lib : Lib} {opens closeRetry : Bool} {file : Option CString} {reqMsg : CrudMsg}
  {payload : Option CString} {g : ReconnectState}

theorem cloudDisconnect_of_none (h : disconnectionReason lib payload = none) :
    cloudDisconnect lib closeRetry payload = failure 400 := by
  cases hparse : payload.bind lib.parse with
  | none => simp only [cloudDisconnect, hparse]
  | some jsonPayload =>
    cases hitem : getObjectItem (some jsonPayload) "disconnection-reason".toList with
    | none => simp only [cloudDisconnect, hparse, hitem]
    | some item =>
      rw [disconnectionReason, hparse, hitem, Option.bind_some] at h
      cases hvalue : item.value with
      | str reason =>
        have hvalid : validateDisconnectString reason = false := by
          cases hreason : validateDisconnectString reason with
          | false => rfl
          | true => simp [hvalue, hreason] at h
        simp only [cloudDisconnect, hparse, hitem, hvalue, hvalid, Bool.false_eq_true, if_false]
      | _ => simp only [cloudDisconnect, hparse, hitem, hvalue]

theorem cloudDisconnect_of_some {reason : CString}
    (h : disconnectionReason lib payload = some reason) :
    cloudDisconnect lib closeRetry payload =
      if closeRetry then { failure 500 with cloudDisconnect := some reason }
      else { Outcome.answer 0 200 with
        cloudDisconnect := some reason, reconnectReason := some reason } := by
  obtain ⟨item, hitem, hreason⟩ := Option.bind_eq_some_iff.mp h
  cases hparse : payload.bind lib.parse with
  | none => rw [hparse] at hitem; cases hitem
  | some jsonPayload =>
    rw [hparse] at hitem
    cases hvalue : item.value with
    | str text =>
      rw [hvalue] at hreason
      obtain ⟨hvalid, htext⟩ := Option.ite_none_right_eq_some.mp hreason
      obtain rfl := Option.some.inj htext
      simp only [cloudDisconnect, hparse, hitem, hvalue, hvalid, if_true]
    | _ => rw [hvalue] at hreason; cases hreason

theorem updateTag_globals {json : Option Foundation.Json} {name : CString} {out : Outcome}
    (h : updateTag lib opens json name payload = some out) : out.globals g = g := by
  have finish_globals : ∀ {status : ℤ} {write : ℤ × Option CString},
      (finish status none write).globals g = g := by
    intro status write
    rw [finish]
    split <;> rfl
  unfold updateTag at h
  repeat' split at h
  all_goals first
    | cases h; done
    | obtain rfl := Option.some.inj h
      first
        | rfl
        | exact finish_globals

theorem cloudDest_iff {dest : CString} {obj : List (Option CString)} {objlevel : ℕ}
    (hdest : reqMsg.dest = some dest)
    (hparse : parseDestElementsToString lib dest = .elements obj objlevel) :
    CloudDest lib reqMsg ↔ objlevel = 3 ∧ obj[3]? = some (some "cloud-disconnect".toList) := by
  constructor
  · intro h
    obtain ⟨dest', obj', hdest', hparse', hname⟩ := h
    obtain rfl := Option.some.inj (hdest.symm.trans hdest')
    obtain ⟨rfl, rfl⟩ := Dest.elements.inj (hparse.symm.trans hparse')
    exact ⟨rfl, hname⟩
  · intro h
    obtain ⟨rfl, hname⟩ := h
    exact ⟨dest, obj, hdest, hparse, hname⟩

theorem not_cloudDest_of_none (hdest : reqMsg.dest = none) : ¬ CloudDest lib reqMsg := by
  intro h
  obtain ⟨dest, obj, hsome, _⟩ := h
  rw [hdest] at hsome
  cases hsome

theorem not_cloudDest_of_unsupported {dest : CString} (hdest : reqMsg.dest = some dest)
    (hparse : parseDestElementsToString lib dest = .unsupported) : ¬ CloudDest lib reqMsg := by
  intro h
  obtain ⟨dest', obj, hdest', hparse', _⟩ := h
  obtain rfl := Option.some.inj (hdest.symm.trans hdest')
  rw [hparse] at hparse'
  cases hparse'

/-- A request to update either is for the cloud connection, and its payload is
all that counts, or it leaves the globals alone. -/
theorem updateObject_globals {out : Outcome}
    (h : updateObject lib opens closeRetry file reqMsg = some out) :
    ((CloudDest lib reqMsg ∧ (loadConfig lib file).isSome) ∧
      out = cloudDisconnect lib closeRetry reqMsg.payload) ∨
    (¬ (CloudDest lib reqMsg ∧ (loadConfig lib file).isSome) ∧ out.globals g = g) := by
  unfold updateObject at h
  cases hload : loadConfig lib file with
  | none =>
    rw [hload] at h
    obtain rfl := Option.some.inj h
    exact .inr ⟨by simp, rfl⟩
  | some json =>
    simp only [hload] at h
    cases hdest : reqMsg.dest with
    | none =>
      rw [withDest, hdest] at h
      obtain rfl := Option.some.inj h
      exact .inr ⟨fun hcloud ↦ not_cloudDest_of_none hdest hcloud.1, rfl⟩
    | some dest =>
      simp only [withDest, hdest] at h
      cases hparse : parseDestElementsToString lib dest with
      | undefined => simp only [hparse] at h; cases h
      | unsupported =>
        simp only [hparse] at h
        obtain rfl := Option.some.inj h
        exact .inr ⟨fun hcloud ↦ not_cloudDest_of_unsupported hdest hparse hcloud.1, rfl⟩
      | elements obj objlevel =>
        simp only [hparse] at h
        rw [cloudDest_iff hdest hparse]
        cases hname : tagName obj objlevel with
        | some name =>
          simp only [hname] at h
          refine .inr ⟨fun hcloud ↦ ?_, updateTag_globals h⟩
          obtain ⟨⟨hlevel, _⟩, _⟩ := hcloud
          rw [tagName, if_neg (fun hfour ↦ by omega)] at hname
          cases hname
        | none =>
          simp only [hname] at h
          by_cases hcloud : objlevel = 3 ∧ obj[3]? = some (some "cloud-disconnect".toList)
          · rw [if_pos hcloud] at h
            exact .inl ⟨⟨hcloud, rfl⟩, (Option.some.inj h).symm⟩
          · rw [if_neg hcloud] at h
            obtain rfl := Option.some.inj h
            exact .inr ⟨fun hboth ↦ hcloud hboth.1, rfl⟩

/-- A refused update leaves the globals of the connection alone unless a new
reason reaches it late. -/
theorem updateObject_refused_iff {out : Outcome}
    (h : updateObject lib opens g.closeRetry file reqMsg = some out) :
    (out.status ≠ 200 → out.globals g = g) ↔ ¬ LateReason lib file reqMsg g := by
  obtain ⟨hcloud, rfl⟩ | ⟨hcloud, hsame⟩ := updateObject_globals (g := g) h
  · cases hreason : disconnectionReason lib reqMsg.payload with
    | none =>
      rw [cloudDisconnect_of_none hreason]
      refine iff_of_true (fun _ ↦ rfl) fun hlate ↦ ?_
      obtain ⟨_, _, _, reason, hsome, _⟩ := hlate
      rw [hreason] at hsome
      cases hsome
    | some reason =>
      rw [cloudDisconnect_of_some hreason]
      cases hretry : g.closeRetry with
      | false =>
        refine iff_of_true (fun hstatus ↦ absurd rfl hstatus) fun hlate ↦ ?_
        obtain ⟨_, _, htrue, _⟩ := hlate
        rw [hretry] at htrue
        cases htrue
      | true =>
        have hlate : LateReason lib file reqMsg g ↔ g.cloudDisconnect ≠ some reason := by
          simp only [LateReason, hcloud, hretry, hreason, true_and, Option.some.injEq,
            exists_eq_left']
        rw [hlate, not_not, if_pos rfl]
        change (500 ≠ (200 : ℤ) → g.setCloudDisconnectReason reason = g) ↔ _
        rw [ReconnectState.setCloudDisconnectReason_eq_self]
        exact ⟨fun himp ↦ himp (by decide), fun hsame _ ↦ hsame⟩
  · exact iff_of_true (fun _ ↦ hsame) fun hlate ↦ hcloud ⟨hlate.1, hlate.2.1⟩

section Inputs

def disconnectDown : CrudMsg :=
  crudMsg "mac:14cfe2142144/parodus/cloud-disconnect" "\x7b\"disconnection-reason\":\"down\"\x7d"

/-- The connection is up and nothing is under way. -/
def connected : ReconnectState := ⟨none, some "webpa_process_starts".toList, false, false⟩

/-- A missed ping has started to close the connection. -/
def closing : ReconnectState := ⟨none, some "Ping_Miss".toList, true, true⟩

end Inputs

theorem cloudDest_disconnectDown : CloudDest compactLib disconnectDown := by
  refine ⟨_, ["mac", "14cfe2142144", "parodus", "cloud-disconnect"].map (some ·.toList), rfl, ?_,
    rfl⟩
  simp only [List.map_cons, List.map_nil, String.reduceToList]
  decide

theorem updateObject_disconnectDown :
    updateObject compactLib true connected.closeRetry none disconnectDown =
      some { Outcome.answer 0 200 with
        cloudDisconnect := some "down".toList, reconnectReason := some "down".toList } := by
  simp only [disconnectDown, crudMsg, connected, String.reduceToList]
  decide

theorem updateObject_disconnectDown_accepted :
    ∃ out, updateObject compactLib true connected.closeRetry none disconnectDown = some out ∧
      (out.status ≠ 200 → out.globals connected = connected) := by
  refine ⟨_, updateObject_disconnectDown, ?_⟩
  apply (updateObject_refused_iff updateObject_disconnectDown).mpr
  intro hlate
  obtain ⟨_, _, hretry, _⟩ := hlate
  cases hretry

/-- The request is refused and its reason stays behind. -/
theorem disconnectDown_stays :
    ∃ out, CloudDest compactLib disconnectDown ∧
      updateObject compactLib true closing.closeRetry none disconnectDown = some out ∧
      out.status = 500 ∧ out.globals closing ≠ closing := by
  refine ⟨{ failure 500 with cloudDisconnect := some "down".toList },
    cloudDest_disconnectDown, ?_, rfl, ?_⟩
  · simp only [disconnectDown, crudMsg, closing, String.reduceToList]
    decide
  · decide

end Parodus.Crud
