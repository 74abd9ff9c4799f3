import Parodus.Crud.Answers
import Parodus.Crud.Retrieve
import Parodus.Foundation.Runs

namespace Parodus.Crud

open Foundation Clients

/-- What a request meets beside the config file: whether that file can be
opened for writing, the configuration, the client list and `close_retry`. -/
structure Env where
  opens : Bool
  cfg : ParodusCfg
  clients : ClientList
  closeRetry : Bool
  deriving DecidableEq

structure Request where
  type : CrudType
  reqMsg : CrudMsg
  env : Env
  deriving DecidableEq

/-- A failed create or retrieve carries no payload. -/
def dropPayloadOnFailure (out : Outcome) : Outcome :=
  if out.ret ≠ 0 then { out with payload := none } else out

/-- A successful update or delete carries no payload. -/
def dropPayloadOnSuccess (out : Outcome) : Outcome :=
  if out.ret = 0 then { out with payload := none } else out

def processCrudRequest (lib : Lib) (file : Option CString) (request : Request) :
    Option Outcome :=
  let env := request.env
  match request.type with
  | .create => (createObject lib env.opens file request.reqMsg).map dropPayloadOnFailure
  | .retrieve =>
    (retrieveObject lib env.cfg env.clients file request.reqMsg).map dropPayloadOnFailure
  | .update =>
    (updateObject lib env.opens env.closeRetry file request.reqMsg).map dropPayloadOnSuccess
  | .delete => (deleteObject lib env.opens file request.reqMsg).map dropPayloadOnSuccess

/-- The handler of the request's type. -/
def handleRequest (lib : Lib) (file : Option CString) (request : Request) : Option Outcome :=
  let env := request.env
  match request.type with
  | .create => createObject lib env.opens file request.reqMsg
  | .retrieve => retrieveObject lib env.cfg env.clients file request.reqMsg
  | .update => updateObject lib env.opens env.closeRetry file request.reqMsg
  | .delete => deleteObject lib env.opens file request.reqMsg

def dropPayload (type : CrudType) (out : Outcome) : Outcome :=
  match type with
  | .create | .retrieve => dropPayloadOnFailure out
  | .update | .delete => dropPayloadOnSuccess out

def Step (lib : Lib) (file : Option CString) (request : Request) (file' : Option CString) : Prop :=
  (processCrudRequest lib file request).map (fun out ↦ out.file file) = some file'

instance (lib : Lib) (file : Option CString) (request : Request) (file' : Option CString) :
    Decidable (Step lib file request file') :=
  inferInstanceAs (Decidable (_ = _))

variable {lib : Lib} {file file' : Option CString} {request : Request} {reqMsg : CrudMsg}
  {out : Outcome}

@[simp] theorem dropPayloadOnFailure_written (out : Outcome) :
    (dropPayloadOnFailure out).written = out.written := by
  unfold dropPayloadOnFailure
  split <;> rfl

@[simp] theorem dropPayloadOnSuccess_written (out : Outcome) :
    (dropPayloadOnSuccess out).written = out.written := by
  unfold dropPayloadOnSuccess
  split <;> rfl

@[simp] theorem dropPayloadOnFailure_status (out : Outcome) :
    (dropPayloadOnFailure out).status = out.status := by
  unfold dropPayloadOnFailure
  split <;> rfl

@[simp] theorem dropPayloadOnSuccess_status (out : Outcome) :
    (dropPayloadOnSuccess out).status = out.status := by
  unfold dropPayloadOnSuccess
  split <;> rfl

theorem dropPayload_status (type : CrudType) (out : Outcome) :
    (dropPayload type out).status = out.status := by
  cases type with
  | create | retrieve => exact dropPayloadOnFailure_status out
  | update | delete => exact dropPayloadOnSuccess_status out

theorem processCrudRequest_eq (lib : Lib) (file : Option CString) (request : Request) :
    processCrudRequest lib file request =
      (handleRequest lib file request).map (dropPayload request.type) := by
  obtain ⟨type, reqMsg, env⟩ := request
  cases type <;> rfl

theorem respondInMemory_written (response : Option Json) :
    (respondInMemory lib response).written = none := by
  cases response <;> rfl

theorem retrieveTag_written {json : Json} {obj : List (Option CString)} {name : CString}
    (h : retrieveTag lib json obj name = some out) : out.written = none := by
  unfold retrieveTag at h
  repeat' split at h
  all_goals cases h
  all_goals rfl

theorem retrieveObject_written {cfg : ParodusCfg} {clients : ClientList}
    (h : retrieveObject lib cfg clients file reqMsg = some out) : out.written = none := by
  obtain hnone | ⟨dest, obj, objlevel, _, _, hbody⟩ := withDest_eq_some h
  · exact hnone
  cases hkey : inMemoryKey obj objlevel with
  | some key =>
    simp only [hkey] at hbody
    split at hbody
    · obtain ⟨service, _, rfl⟩ := Option.map_eq_some_iff.mp hbody
      exact respondInMemory_written _
    · obtain rfl := Option.some.inj hbody
      exact respondInMemory_written _
  | none =>
    simp only [hkey] at hbody
    repeat' split at hbody
    · obtain rfl := Option.some.inj hbody
      rfl
    · cases hbody
    · exact retrieveTag_written hbody

theorem file_of_written_eq_none (h : out.written = none) : out.file file = file := by
  rw [Outcome.file, h]
  rfl

theorem PutAnswer.file_cases {opens : Bool} {name : CString} {payload : Option CString}
    {admits : Option Json → Prop} (h : PutAnswer lib opens file name payload admits out) :
    out.file file = file ∨ ∃ json fields, loadConfig lib file = some json ∧
      Accepts lib payload fields ∧ admits json ∧
      out.file file = some (lib.print (rebuilt lib json name fields)) := by
  rcases h with ⟨json, fields, hload, hacc, _, hadmits, _, hwritten⟩ | ⟨_, hwritten, _⟩
  · refine .inr ⟨json, fields, hload, hacc, hadmits, ?_⟩
    rw [Outcome.file, hwritten]
    rfl
  · exact .inl (file_of_written_eq_none hwritten)

theorem DeleteAnswer.file_cases {opens : Bool} {name : CString}
    (h : DeleteAnswer lib opens file name out) :
    out.file file = file ∨ ∃ config tagObj, openConfig lib file = some config ∧
      DeleteAdmits config name ∧ getObjectItem (some config) tags = some tagObj ∧
      out.file file = some (lib.print (pruned tagObj name)) := by
  rcases h with ⟨config, tagObj, hopen, hadmits, htags, _, hwritten⟩ | ⟨_, hwritten, _⟩
  · cases opens with
    | true =>
      refine .inr ⟨config, tagObj, hopen, hadmits, htags, ?_⟩
      rw [Outcome.file, hwritten]
      rfl
    | false => exact .inl (file_of_written_eq_none hwritten)
  · exact .inl (file_of_written_eq_none hwritten)

theorem step_cases (h : Step lib file request file') :
    file' = file ∨
    (∃ name json fields, loadConfig lib file = some json ∧
      Accepts lib request.reqMsg.payload fields ∧ UpdateAdmits name json ∧
      file' = some (lib.print (rebuilt lib json name fields))) ∨
    (∃ name config tagObj, openConfig lib file = some config ∧ DeleteAdmits config name ∧
      getObjectItem (some config) tags = some tagObj ∧
      file' = some (lib.print (pruned tagObj name))) := by
  obtain ⟨out, hout, rfl⟩ := Option.map_eq_some_iff.mp h
  obtain ⟨type, reqMsg, env⟩ := request
  cases type with
  | create =>
    obtain ⟨out, hcreate, rfl⟩ := Option.map_eq_some_iff.mp hout
    rw [Outcome.file, dropPayloadOnFailure_written, ← Outcome.file]
    obtain hnone | ⟨name, hname⟩ := createObject_writes hcreate
    · exact .inl (file_of_written_eq_none hnone)
    obtain ⟨out', hout', hanswer⟩ := createObject_answer hname
    obtain rfl := Option.some.inj (hcreate.symm.trans hout')
    obtain hfile | ⟨json, fields, hload, hacc, hfree, hfile⟩ := hanswer.file_cases
    · exact .inl hfile
    · exact .inr (.inl ⟨name, json, fields, hload, hacc, .inl hfree, hfile⟩)
  | retrieve =>
    obtain ⟨out, hretrieve, rfl⟩ := Option.map_eq_some_iff.mp hout
    rw [Outcome.file, dropPayloadOnFailure_written, ← Outcome.file]
    exact .inl (file_of_written_eq_none (retrieveObject_written hretrieve))
  | update =>
    obtain ⟨out, hupdate, rfl⟩ := Option.map_eq_some_iff.mp hout
    rw [Outcome.file, dropPayloadOnSuccess_written, ← Outcome.file]
    obtain hnone | ⟨name, hname⟩ := updateObject_writes hupdate
    · exact .inl (file_of_written_eq_none hnone)
    obtain ⟨out', hout', hanswer⟩ := updateObject_answer hname
    obtain rfl := Option.some.inj (hupdate.symm.trans hout')
    obtain hfile | ⟨json, fields, hload, hacc, hadmits, hfile⟩ := hanswer.file_cases
    · exact .inl hfile
    · exact .inr (.inl ⟨name, json, fields, hload, hacc, hadmits, hfile⟩)
  | delete =>
    obtain ⟨out, hdelete, rfl⟩ := Option.map_eq_some_iff.mp hout
    rw [Outcome.file, dropPayloadOnSuccess_written, ← Outcome.file]
    obtain hnone | ⟨name, hname⟩ := deleteObject_writes hdelete
    · exact .inl (file_of_written_eq_none hnone)
    obtain hfile | ⟨config, tagObj, hopen, hadmits, htags, hfile⟩ :=
      (deleteObject_eq_some hname hdelete).file_cases
    · exact .inl hfile
    · exact .inr (.inr ⟨name, config, tagObj, hopen, hadmits, htags, hfile⟩)

end Parodus.Crud
