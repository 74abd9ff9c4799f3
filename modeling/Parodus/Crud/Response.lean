import Parodus.Crud.DestReads

namespace Parodus.Crud

open Foundation Clients

/-- What `processCrudRequest` fills in of the message that answers a request. -/
structure CrudResponse where
  msgType : CrudType
  transactionUuid : CString
  source : CString
  dest : CString
  status : ℤ
  payload : Option CString
  payloadSize : ℕ
  deriving DecidableEq

def CrudResponse.setPayload (resp : CrudResponse) (text : CString) : CrudResponse :=
  { resp with payload := some text, payloadSize := text.length }

def CrudResponse.clearPayload (resp : CrudResponse) : CrudResponse :=
  { resp with payload := none, payloadSize := 0 }

/-- What a handler leaves in the response; with a payload it sets its length. -/
def CrudResponse.fill (resp : CrudResponse) (out : Outcome) : CrudResponse :=
  let resp := { resp with status := out.status }
  match out.payload with
  | some text => resp.setPayload text
  | none => resp

/-- The end of the dispatcher's branch: create and retrieve answer a failure without a payload,
update and delete a success. -/
def dispatch (type : CrudType) (ret : ℤ) (resp : CrudResponse) : ℤ × CrudResponse :=
  match type with
  | .create | .retrieve => if ret ≠ 0 then (-1, resp.clearPayload) else (0, resp)
  | .update | .delete => if ret = 0 then (0, resp.clearPayload) else (-1, resp)

/-- `processCrudRequest` with the whole message it answers with; a null string cannot be
copied. -/
def answerRequest (lib : Lib) (file : Option CString) (request : Request) :
    Option (ℤ × CrudResponse) :=
  match request.reqMsg.transactionUuid, request.reqMsg.dest, request.reqMsg.source with
  | some transactionUuid, some dest, some source =>
    (handleRequest lib file request).map fun out ↦
      dispatch request.type out.ret
        (CrudResponse.fill ⟨request.type, transactionUuid, dest, source, 0, none, 0⟩ out)
  | _, _, _ => none

structure RightResponse (request : Request) (ret : ℤ) (resp : CrudResponse) : Prop where
  msgType : resp.msgType = request.type
  transactionUuid : request.reqMsg.transactionUuid = some resp.transactionUuid
  source : request.reqMsg.dest = some resp.source
  dest : request.reqMsg.source = some resp.dest
  code : ret = 0 ∨ ret = -1
  success : ret = 0 ↔ resp.status = 200 ∨ resp.status = 201
  failure : ret = -1 ↔ resp.status = 400 ∨ resp.status = 409 ∨ resp.status = 500
  payload : resp.payload.isSome ↔ ret = 0 ∧ (request.type = .create ∨ request.type = .retrieve)
  payloadSize : resp.payloadSize = (resp.payload.map List.length).getD 0

/-- The retrieves whose handler reads or compares what it was not given. -/
def RetrieveFails (lib : Lib) (file : Option CString) (obj : List (Option CString))
    (objlevel : ℕ) : Prop :=
  (objlevel = 3 ∧ ∃ key, obj[3]? = some (some key) ∧ ¬ tags <:+: key ∧
    "service-status".toList <:+: key) ∨
  (obj[3]? = none ∧ ∃ config paramArray, openConfig lib file = some config ∧
    Reading.listedTags config = some paramArray ∧ obj[objlevel]? ≠ some (some paramArray.string)) ∨
  (objlevel = 4 ∧ obj[3]? = some (some "tag".toList) ∧ ∃ config name,
    openConfig lib file = some config ∧ obj[4]? = some (some name) ∧ Unkeyed config name)

def DeleteFails (lib : Lib) (file : Option CString) (obj : List (Option CString))
    (objlevel : ℕ) : Prop :=
  ∃ config name, openConfig lib file = some config ∧ tagName obj objlevel = some name ∧
    Unkeyed config name

def HandlerFails (lib : Lib) (file : Option CString) (type : CrudType)
    (obj : List (Option CString)) (objlevel : ℕ) : Prop :=
  match type with
  | .retrieve => RetrieveFails lib file obj objlevel
  | .delete => DeleteFails lib file obj objlevel
  | _ => False

/-- The code of an answer fits its status. -/
def Settled (out : Outcome) : Prop :=
  (out.ret = 0 ∧ (out.status = 200 ∨ out.status = 201)) ∨
    (out.ret = -1 ∧ (out.status = 400 ∨ out.status = 409 ∨ out.status = 500))

def SettledWithPayload (out : Outcome) : Prop := Settled out ∧ (out.ret = 0 → out.payload.isSome)

def SettledBare (out : Outcome) : Prop := Settled out ∧ out.payload = none

variable {lib : Lib} {opens closeRetry : Bool} {cfg : ParodusCfg} {clients : ClientList}
  {file : Option CString} {json : Option Json} {name : CString} {payload : Option CString}
  {reqMsg : CrudMsg} {out : Outcome} {Q : Outcome → Prop}

theorem Settled.success_iff (h : Settled out) :
    (if out.ret = 0 then 0 else -1 : ℤ) = 0 ↔ out.status = 200 ∨ out.status = 201 := by
  obtain ⟨hret, hok⟩ | ⟨hret, hfail⟩ := h
  · rw [if_pos hret]
    exact iff_of_true rfl hok
  · rw [if_neg (by omega)]
    exact iff_of_false (by decide) (by omega)

theorem Settled.failure_iff (h : Settled out) : (if out.ret = 0 then 0 else -1 : ℤ) = -1 ↔
    out.status = 400 ∨ out.status = 409 ∨ out.status = 500 := by
  obtain ⟨hret, hok⟩ | ⟨hret, hfail⟩ := h
  · rw [if_pos hret]
    exact iff_of_false (by decide) (by omega)
  · rw [if_neg (by omega)]
    exact iff_of_true rfl hfail

theorem settled_failure {status : ℤ} (h : status = 400 ∨ status = 409 ∨ status = 500) :
    Settled (failure status) :=
  .inr ⟨rfl, h⟩

theorem settledWithPayload_failure {status : ℤ} (h : status = 400 ∨ status = 409 ∨ status = 500) :
    SettledWithPayload (failure status) :=
  ⟨settled_failure h, fun hret ↦ by cases hret⟩

theorem settledBare_failure {status : ℤ} (h : status = 400 ∨ status = 409 ∨ status = 500) :
    SettledBare (failure status) :=
  ⟨settled_failure h, rfl⟩

theorem settled_finish {status : ℤ} (h : status = 200 ∨ status = 201) (payload : Option CString)
    (write : ℤ × Option CString) : Settled (finish status payload write) := by
  rw [finish]
  split
  · exact .inl ⟨rfl, h⟩
  · exact .inr ⟨rfl, .inr (.inr rfl)⟩

theorem withDest_settled {body : List (Option CString) → ℕ → Option Outcome}
    (hrefused : Q (failure 400)) (hbody : ∀ obj objlevel out, body obj objlevel = some out → Q out)
    (h : withDest lib reqMsg body = some out) : Q out := by
  unfold withDest at h
  repeat' split at h
  · obtain rfl := Option.some.inj h
    exact hrefused
  · cases h
  · obtain rfl := Option.some.inj h
    exact hrefused
  · exact hbody _ _ _ h

theorem createTag_settled (h : createTag lib opens json name payload = some out) :
    SettledWithPayload out := by
  have hfinish : ∀ text write, SettledWithPayload (finish 201 (some text) write) := by
    intro text write
    refine ⟨settled_finish (.inr rfl) _ write, fun _ ↦ ?_⟩
    rw [finish]
    split <;> rfl
  unfold createTag at h
  repeat' split at h
  all_goals first
    | cases h; done
    | obtain rfl := Option.some.inj h
      first
        | exact hfinish _ _
        | exact settledWithPayload_failure (by decide)

theorem updateTag_settled (h : updateTag lib opens json name payload = some out) :
    SettledBare out := by
  have hfinish : ∀ status write, status = 200 ∨ status = 201 →
      SettledBare (finish status none write) := by
    intro status write hstatus
    refine ⟨settled_finish hstatus _ write, ?_⟩
    rw [finish]
    split <;> rfl
  unfold updateTag at h
  repeat' split at h
  all_goals first
    | cases h; done
    | obtain rfl := Option.some.inj h
      first
        | exact hfinish _ _ (by decide)
        | exact settledBare_failure (by decide)

theorem cloudDisconnect_settled : SettledBare (cloudDisconnect lib closeRetry payload) := by
  unfold cloudDisconnect
  repeat' split
  all_goals first
    | exact ⟨.inl ⟨rfl, .inl rfl⟩, rfl⟩
    | exact ⟨.inr ⟨rfl, .inl rfl⟩, rfl⟩
    | exact ⟨.inr ⟨rfl, .inr (.inr rfl)⟩, rfl⟩

theorem createObject_settled (h : createObject lib opens file reqMsg = some out) :
    SettledWithPayload out := by
  unfold createObject at h
  split at h
  · obtain rfl := Option.some.inj h
    exact settledWithPayload_failure (by decide)
  · refine withDest_settled (settledWithPayload_failure (by decide)) ?_ h
    intro obj objlevel out hout
    split at hout
    · exact createTag_settled hout
    · obtain rfl := Option.some.inj hout
      exact settledWithPayload_failure (by decide)

theorem updateObject_settled (h : updateObject lib opens closeRetry file reqMsg = some out) :
    SettledBare out := by
  unfold updateObject at h
  split at h
  · obtain rfl := Option.some.inj h
    exact settledBare_failure (by decide)
  · refine withDest_settled (settledBare_failure (by decide)) ?_ h
    intro obj objlevel out hout
    repeat' split at hout
    · exact updateTag_settled hout
    · obtain rfl := Option.some.inj hout
      exact cloudDisconnect_settled
    · obtain rfl := Option.some.inj hout
      exact settledBare_failure (by decide)

theorem deleteTag_settled {config : Json} (h : deleteTag lib opens config name = some out) :
    SettledBare out := by
  unfold deleteTag at h
  repeat' split at h
  all_goals first
    | cases h; done
    | obtain rfl := Option.some.inj h
      first
        | exact settledBare_failure (by decide)
        | exact ⟨.inl ⟨rfl, .inl rfl⟩, rfl⟩

theorem deleteObject_settled (h : deleteObject lib opens file reqMsg = some out) :
    SettledBare out := by
  unfold deleteObject at h
  split at h
  · obtain rfl := Option.some.inj h
    exact settledBare_failure (by decide)
  · refine withDest_settled (settledBare_failure (by decide)) ?_ h
    intro obj objlevel out hout
    split at hout
    · exact deleteTag_settled hout
    · obtain rfl := Option.some.inj hout
      exact settledBare_failure (by decide)

theorem respond_settled (lib : Lib) (response : Json) : SettledWithPayload (respond lib response) :=
  ⟨.inl ⟨rfl, .inl rfl⟩, fun _ ↦ rfl⟩

theorem respondInMemory_settled (lib : Lib) (response : Option Json) :
    SettledWithPayload (respondInMemory lib response) := by
  cases response with
  | none => exact settledWithPayload_failure (by decide)
  | some response => exact respond_settled lib response

theorem retrieveTag_settled {config : Json} {obj : List (Option CString)}
    (h : retrieveTag lib config obj name = some out) : SettledWithPayload out := by
  unfold retrieveTag at h
  repeat' split at h
  all_goals first
    | cases h; done
    | obtain rfl := Option.some.inj h
      first
        | exact respond_settled lib _
        | exact settledWithPayload_failure (by decide)

theorem retrieveObject_settled (h : retrieveObject lib cfg clients file reqMsg = some out) :
    SettledWithPayload out := by
  refine withDest_settled (settledWithPayload_failure (by decide)) ?_ h
  intro obj objlevel out hout
  repeat' split at hout
  · obtain ⟨service, _, rfl⟩ := Option.map_eq_some_iff.mp hout
    exact respondInMemory_settled lib _
  · obtain rfl := Option.some.inj hout
    exact respondInMemory_settled lib _
  · obtain rfl := Option.some.inj hout
    exact settledWithPayload_failure (by decide)
  · cases hout
  · exact retrieveTag_settled hout

section Answered

variable {dest : CString} {obj : List (Option CString)} {objlevel : ℕ} {config : Json}

theorem isSome_of_exists {P : Outcome → Prop} {o : Option Outcome}
    (h : ∃ out, o = some out ∧ P out) : o.isSome := by
  obtain ⟨out, rfl, _⟩ := h
  rfl

theorem createObject_isSome (hdest : reqMsg.dest = some dest)
    (hparse : parseDestElementsToString lib dest = .elements obj objlevel) :
    (createObject lib opens file reqMsg).isSome := by
  have htag := tagDest_of_tagName hdest hparse
  cases hname : tagName obj objlevel with
  | some name => exact isSome_of_exists (createObject_answer (htag.trans hname))
  | none =>
    rw [createObject]
    cases loadConfig lib file with
    | none => rfl
    | some json => simp only [withDest, hdest, hparse, hname, Option.isSome_some]

theorem updateObject_isSome (hdest : reqMsg.dest = some dest)
    (hparse : parseDestElementsToString lib dest = .elements obj objlevel) :
    (updateObject lib opens closeRetry file reqMsg).isSome := by
  have htag := tagDest_of_tagName hdest hparse
  cases hname : tagName obj objlevel with
  | some name => exact isSome_of_exists (updateObject_answer (htag.trans hname))
  | none =>
    rw [updateObject]
    cases loadConfig lib file with
    | none => rfl
    | some json =>
      simp only [withDest, hdest, hparse, hname]
      split <;> rfl

theorem deleteObject_isSome_iff (hdest : reqMsg.dest = some dest)
    (hparse : parseDestElementsToString lib dest = .elements obj objlevel) :
    (deleteObject lib opens file reqMsg).isSome ↔ ¬ DeleteFails lib file obj objlevel := by
  have htag := tagDest_of_tagName hdest hparse
  cases hname : tagName obj objlevel with
  | some name =>
    rw [hname] at htag
    constructor
    · intro h hfails
      obtain ⟨config, name', hopen, hname', hunkeyed⟩ := hfails
      obtain rfl := Option.some.inj (hname.symm.trans hname')
      rw [deleteObject_of_tagDest htag, hopen] at h
      simp only [deleteTag_of_unkeyed hunkeyed] at h
      cases h
    · intro h
      refine isSome_of_exists (deleteObject_answer htag fun config hopen hunkeyed ↦ ?_)
      exact h ⟨config, name, hopen, hname, hunkeyed⟩
  | none =>
    refine iff_of_true ?_ ?_
    · rw [deleteObject]
      cases openConfig lib file with
      | none => rfl
      | some json => simp only [withDest, hdest, hparse, hname, Option.isSome_some]
    · intro hfails
      obtain ⟨_, name, _, hname', _⟩ := hfails
      rw [hname] at hname'
      cases hname'

theorem findKey_eq_none_iff {value : Json} (hsize : children value ≠ []) :
    findKey name (children value) = none ↔ ∃ x xs, value = .arr (x :: xs) := by
  cases value with
  | obj members =>
    rw [findKey_obj]
    simp
  | arr items =>
    cases items with
    | nil => exact absurd rfl hsize
    | cons x xs => exact iff_of_true rfl ⟨x, xs, rfl⟩
  | _ => exact absurd rfl hsize

theorem retrieveTag_eq_none_iff : retrieveTag lib config obj name = none ↔
    ∃ paramArray, Reading.listedTags config = some paramArray ∧ paramArray.string ≠ name ∧
      (obj[3]? = none ∨ obj[3]? = some (some "tag".toList) ∧
        ∃ x xs, paramArray.value = .arr (x :: xs)) := by
  cases hlisted : Reading.listedTags config with
  | none =>
    rw [Reading.retrieveTag_of_unlisted hlisted]
    refine iff_of_false (Option.some_ne_none _) (fun h ↦ ?_)
    obtain ⟨paramArray, hsome, _⟩ := h
    cases hsome
  | some paramArray =>
    have hsize := (Reading.listedTags_eq_some_iff.mp hlisted).2
    rw [Reading.retrieveTag_of_listed hlisted]
    simp only [Option.some.injEq, exists_eq_left']
    by_cases hself : paramArray.string = name
    · rw [if_pos hself]
      exact iff_of_false (Option.some_ne_none _) (fun h ↦ h.1 hself)
    rw [if_neg hself, and_iff_right hself]
    cases obj[3]? with
    | none => exact iff_of_true rfl (.inl rfl)
    | some category =>
      rw [Option.bind_some, Option.some_inj]
      by_cases htag : category = some "tag".toList
      · rw [if_pos htag, Option.map_eq_none_iff, findKey_eq_none_iff hsize, and_iff_right htag]
        exact (or_iff_right (Option.some_ne_none _)).symm
      · rw [if_neg htag]
        refine iff_of_false (Option.some_ne_none _) (fun h ↦ ?_)
        obtain hnone | ⟨hcategory, _⟩ := h
        · cases hnone
        · exact htag hcategory

theorem retrieveObject_eq (hdest : reqMsg.dest = some dest)
    (hparse : parseDestElementsToString lib dest = .elements obj objlevel)
    (hlast : obj[objlevel]? = some (some name)) :
    retrieveObject lib cfg clients file reqMsg =
      match inMemoryKey obj objlevel with
      | some key =>
        if "service-status".toList <:+: key then
          obj[4]?.map fun service ↦ respondInMemory lib (getClientStatus service clients)
        else some (respondInMemory lib (retrieveFromMemory key cfg))
      | none =>
        match openConfig lib file with
        | none => some (failure 500)
        | some json => retrieveTag lib json obj name := by
  cases hkey : inMemoryKey obj objlevel with
  | some key => simp only [retrieveObject, withDest, hdest, hparse, hkey]
  | none =>
    cases hopen : openConfig lib file with
    | none => simp only [retrieveObject, withDest, hdest, hparse, hkey, hopen]
    | some json =>
      simp only [retrieveObject, withDest, hdest, hparse, hkey, hopen, hlast, Option.join_some]

theorem inMemoryKey_of_some {key : CString} (h : obj[3]? = some (some key)) :
    inMemoryKey obj objlevel = if objlevel = 3 ∧ ¬ tags <:+: key ∨
      objlevel = 4 ∧ "service-status".toList <:+: key then some key else none := by
  rw [inMemoryKey, h, Option.join_some, Option.filter_some]
  exact if_congr decide_eq_true_iff rfl rfl

theorem inMemoryKey_of_null (h : obj[3]?.join = none) : inMemoryKey obj objlevel = none := by
  rw [inMemoryKey, h, Option.filter_none]

/-- The answer from the file is missing when the name has to be compared with what is not
there. -/
theorem fromFile_eq_none_iff :
    (match openConfig lib file with
      | none => some (failure 500)
      | some json => retrieveTag lib json obj name) = none ↔
      ∃ config, openConfig lib file = some config ∧ retrieveTag lib config obj name = none := by
  cases openConfig lib file with
  | none =>
    refine iff_of_false (Option.some_ne_none _) (fun h ↦ ?_)
    obtain ⟨config, hconfig, _⟩ := h
    cases hconfig
  | some config => simp

theorem tags_not_infix_tag : ¬ tags <:+: "tag".toList := by
  simp only [tags, String.reduceToList]
  decide

theorem serviceStatus_not_infix_tag : ¬ "service-status".toList <:+: "tag".toList := by
  simp only [String.reduceToList]
  decide

theorem unkeyed_iff : Unkeyed config name ↔ ∃ paramArray,
    Reading.listedTags config = some paramArray ∧ paramArray.string ≠ name ∧
      ∃ x xs, paramArray.value = .arr (x :: xs) := by
  constructor
  · intro h
    obtain ⟨paramArray, x, xs, htags, hself, hvalue⟩ := h
    refine ⟨paramArray, Reading.listedTags_eq_some_iff.mpr ⟨htags, ?_⟩, hself, x, xs, hvalue⟩
    rw [hvalue]
    exact List.cons_ne_nil _ _
  · intro h
    obtain ⟨paramArray, hlisted, hself, x, xs, hvalue⟩ := h
    exact ⟨paramArray, x, xs, (Reading.listedTags_eq_some_iff.mp hlisted).1, hself, hvalue⟩

theorem retrieveFails_three_iff (hlast : obj[3]? = some (some name)) :
    RetrieveFails lib file obj 3 ↔ ¬ tags <:+: name ∧ "service-status".toList <:+: name := by
  constructor
  · intro h
    obtain ⟨_, key, hkey, htest⟩ | ⟨hnone, _⟩ | ⟨hlevel, _⟩ := h
    · obtain rfl := Option.some.inj (Option.some.inj (hlast.symm.trans hkey))
      exact htest
    · rw [hlast] at hnone
      cases hnone
    · cases hlevel
  · exact fun h ↦ .inl ⟨rfl, name, hlast, h⟩

theorem retrieveFails_four_iff (hthree : obj[3]? ≠ none) (hlast : obj[4]? = some (some name)) :
    RetrieveFails lib file obj 4 ↔ obj[3]? = some (some "tag".toList) ∧
      ∃ config, openConfig lib file = some config ∧ Unkeyed config name := by
  constructor
  · intro h
    obtain ⟨hlevel, _⟩ | ⟨hnone, _⟩ | ⟨_, htag, config, name', hopen, hname, hunkeyed⟩ := h
    · cases hlevel
    · exact absurd hnone hthree
    · obtain rfl := Option.some.inj (Option.some.inj (hlast.symm.trans hname))
      exact ⟨htag, config, hopen, hunkeyed⟩
  · intro h
    obtain ⟨htag, config, hopen, hunkeyed⟩ := h
    exact .inr (.inr ⟨rfl, htag, config, name, hopen, hlast, hunkeyed⟩)

theorem retrieveObject_eq_none_iff_three (hdest : reqMsg.dest = some dest)
    (hparse : parseDestElementsToString lib dest = .elements obj 3) :
    retrieveObject lib cfg clients file reqMsg = none ↔ RetrieveFails lib file obj 3 := by
  obtain ⟨_, name, hlast⟩ := Reading.elements_last hparse
  have hfour : obj[4]? = none := by
    obtain hnone | ⟨_, hlt⟩ := Reading.elements_behind hparse (Nat.lt_succ_self 3)
    · exact hnone
    · exact absurd hlt (Nat.lt_irrefl 3)
  rw [retrieveObject_eq hdest hparse hlast, retrieveFails_three_iff hlast,
    inMemoryKey_of_some hlast]
  by_cases htags : tags <:+: name
  · have hkey : ¬ (3 = 3 ∧ ¬ tags <:+: name ∨ 3 = 4 ∧ "service-status".toList <:+: name) := by
      intro h
      obtain ⟨_, hnot⟩ | ⟨hlevel, _⟩ := h
      · exact hnot htags
      · cases hlevel
    rw [if_neg hkey]
    dsimp only
    rw [fromFile_eq_none_iff]
    refine iff_of_false (fun h ↦ ?_) (fun h ↦ h.1 htags)
    obtain ⟨config, _, hnone⟩ := h
    obtain ⟨_, _, _, hthree | ⟨htag, _⟩⟩ := retrieveTag_eq_none_iff.mp hnone
    · rw [hlast] at hthree
      cases hthree
    · obtain rfl := Option.some.inj (Option.some.inj (hlast.symm.trans htag))
      exact tags_not_infix_tag htags
  · rw [if_pos (.inl ⟨rfl, htags⟩), and_iff_right htags]
    dsimp only
    by_cases hservice : "service-status".toList <:+: name
    · rw [if_pos hservice, hfour]
      exact iff_of_true rfl hservice
    · rw [if_neg hservice]
      exact iff_of_false (Option.some_ne_none _) hservice

theorem retrieveObject_eq_none_iff_four (hdest : reqMsg.dest = some dest)
    (hparse : parseDestElementsToString lib dest = .elements obj 4) :
    retrieveObject lib cfg clients file reqMsg = none ↔ RetrieveFails lib file obj 4 := by
  obtain ⟨_, name, hlast⟩ := Reading.elements_last hparse
  obtain ⟨hlength, _⟩ := List.getElem?_eq_some_iff.mp hlast
  have hthree : obj[3]? = some obj[3] := List.getElem?_eq_getElem (by omega)
  have hnot : obj[3]? ≠ none := by
    rw [hthree]
    exact Option.some_ne_none _
  rw [retrieveObject_eq hdest hparse hlast, retrieveFails_four_iff hnot hlast]
  by_cases hservice : ∃ key, obj[3]? = some (some key) ∧ "service-status".toList <:+: key
  · obtain ⟨key, hkey, hinfix⟩ := hservice
    rw [inMemoryKey_of_some hkey, if_pos (.inr ⟨rfl, hinfix⟩)]
    dsimp only
    rw [if_pos hinfix, hlast]
    refine iff_of_false (Option.some_ne_none _) (fun h ↦ ?_)
    obtain rfl := Option.some.inj (Option.some.inj (hkey.symm.trans h.1))
    exact serviceStatus_not_infix_tag hinfix
  have hkey : inMemoryKey obj 4 = none := by
    cases hentry : obj[3] with
    | none =>
      rw [hentry] at hthree
      exact inMemoryKey_of_null (congrArg Option.join hthree)
    | some key =>
      rw [hentry] at hthree
      rw [inMemoryKey_of_some hthree, if_neg]
      intro h
      obtain ⟨hlevel, _⟩ | ⟨_, hinfix⟩ := h
      · cases hlevel
      · exact hservice ⟨key, hthree, hinfix⟩
  rw [hkey]
  dsimp only
  rw [fromFile_eq_none_iff]
  simp only [retrieveTag_eq_none_iff, unkeyed_iff, or_iff_right hnot]
  constructor
  · intro h
    obtain ⟨config, hopen, paramArray, hlisted, hself, htag, hvalue⟩ := h
    exact ⟨htag, config, hopen, paramArray, hlisted, hself, hvalue⟩
  · intro h
    obtain ⟨htag, config, hopen, paramArray, hlisted, hself, hvalue⟩ := h
    exact ⟨config, hopen, paramArray, hlisted, hself, htag, hvalue⟩

theorem retrieveObject_eq_none_iff_low (hdest : reqMsg.dest = some dest)
    (hparse : parseDestElementsToString lib dest = .elements obj objlevel) (hlow : objlevel < 3) :
    retrieveObject lib cfg clients file reqMsg = none ↔ RetrieveFails lib file obj objlevel := by
  obtain ⟨_, name, hlast⟩ := Reading.elements_last hparse
  have hnull : obj[3]?.join = none := by
    obtain hnone | ⟨hnull, _⟩ := Reading.elements_behind hparse hlow
    · rw [hnone]
      rfl
    · rw [hnull]
      rfl
  rw [retrieveObject_eq hdest hparse hlast, inMemoryKey_of_null hnull]
  dsimp only
  rw [fromFile_eq_none_iff]
  constructor
  · intro h
    obtain ⟨config, hopen, hnone⟩ := h
    obtain ⟨paramArray, hlisted, hself, hthree | ⟨htag, _⟩⟩ := retrieveTag_eq_none_iff.mp hnone
    · refine .inr (.inl ⟨hthree, config, paramArray, hopen, hlisted, ?_⟩)
      rw [hlast]
      intro heq
      exact hself (Option.some.inj (Option.some.inj heq)).symm
    · rw [htag] at hnull
      cases hnull
  · intro h
    obtain ⟨hlevel, _⟩ | ⟨hthree, config, paramArray, hopen, hlisted, hne⟩ | ⟨hlevel, _⟩ := h
    · omega
    · refine ⟨config, hopen, retrieveTag_eq_none_iff.mpr ⟨paramArray, hlisted, ?_, .inl hthree⟩⟩
      rintro rfl
      exact hne hlast
    · omega

theorem retrieveObject_isSome_iff (hdest : reqMsg.dest = some dest)
    (hparse : parseDestElementsToString lib dest = .elements obj objlevel) :
    (retrieveObject lib cfg clients file reqMsg).isSome ↔
      ¬ RetrieveFails lib file obj objlevel := by
  rw [← Option.ne_none_iff_isSome]
  apply not_congr
  have hle := (Reading.elements_last hparse).1
  obtain hlow | rfl | rfl : objlevel < 3 ∨ objlevel = 3 ∨ objlevel = 4 := by omega
  · exact retrieveObject_eq_none_iff_low hdest hparse hlow
  · exact retrieveObject_eq_none_iff_three hdest hparse
  · exact retrieveObject_eq_none_iff_four hdest hparse

theorem handleRequest_isSome_iff {request : Request} (hdest : request.reqMsg.dest = some dest)
    (hparse : parseDestElementsToString lib dest = .elements obj objlevel) :
    (handleRequest lib file request).isSome ↔
      ¬ HandlerFails lib file request.type obj objlevel := by
  obtain ⟨type, reqMsg, env⟩ := request
  cases type with
  | create => exact iff_of_true (createObject_isSome hdest hparse) (fun h ↦ h)
  | retrieve => exact retrieveObject_isSome_iff hdest hparse
  | update => exact iff_of_true (updateObject_isSome hdest hparse) (fun h ↦ h)
  | delete => exact deleteObject_isSome_iff hdest hparse

end Answered

section Response

variable {request : Request} {resp : CrudResponse}

/-- Only these two put a payload into what they answer. -/
def Answering (type : CrudType) : Prop := type = .create ∨ type = .retrieve

theorem handleRequest_settled (h : handleRequest lib file request = some out) :
    Settled out ∧ (Answering request.type → out.ret = 0 → out.payload.isSome) ∧
      (¬ Answering request.type → out.payload = none) := by
  obtain ⟨type, reqMsg, env⟩ := request
  have hupdate : ¬ Answering .update := by
    intro h
    obtain h | h := h <;> cases h
  have hdelete : ¬ Answering .delete := by
    intro h
    obtain h | h := h <;> cases h
  cases type with
  | create =>
    obtain ⟨hsettled, hpayload⟩ := createObject_settled h
    exact ⟨hsettled, fun _ ↦ hpayload, fun hnot ↦ absurd (.inl rfl) hnot⟩
  | retrieve =>
    obtain ⟨hsettled, hpayload⟩ := retrieveObject_settled h
    exact ⟨hsettled, fun _ ↦ hpayload, fun hnot ↦ absurd (.inr rfl) hnot⟩
  | update =>
    obtain ⟨hsettled, hbare⟩ := updateObject_settled h
    exact ⟨hsettled, fun hanswers ↦ absurd hanswers hupdate, fun _ ↦ hbare⟩
  | delete =>
    obtain ⟨hsettled, hbare⟩ := deleteObject_settled h
    exact ⟨hsettled, fun hanswers ↦ absurd hanswers hdelete, fun _ ↦ hbare⟩

theorem fill_payload (h : resp.payload = none) (out : Outcome) :
    (resp.fill out).payload = out.payload := by
  rw [CrudResponse.fill]
  cases out.payload with
  | none => exact h
  | some text => rfl

theorem fill_payloadSize (h : resp.payload = none ∧ resp.payloadSize = 0) (out : Outcome) :
    (resp.fill out).payloadSize = (out.payload.map List.length).getD 0 := by
  rw [CrudResponse.fill]
  cases out.payload with
  | none => exact h.2
  | some text => rfl

/-- The addresses of a response are those it was made with. -/
theorem dispatch_fill_header (type : CrudType) (ret : ℤ) (out : Outcome) (resp : CrudResponse) :
    (dispatch type ret (resp.fill out)).2.msgType = resp.msgType ∧
      (dispatch type ret (resp.fill out)).2.transactionUuid = resp.transactionUuid ∧
      (dispatch type ret (resp.fill out)).2.source = resp.source ∧
      (dispatch type ret (resp.fill out)).2.dest = resp.dest ∧
      (dispatch type ret (resp.fill out)).2.status = out.status := by
  rw [CrudResponse.fill]
  cases out.payload <;> cases type <;> by_cases h : ret = 0 <;> simp [dispatch, h,
    CrudResponse.clearPayload, CrudResponse.setPayload]

theorem dispatch_fst (type : CrudType) (ret : ℤ) (resp : CrudResponse) :
    (dispatch type ret resp).1 = if ret = 0 then 0 else -1 := by
  cases type <;> by_cases h : ret = 0 <;> simp [dispatch, h]

theorem dispatch_payload (type : CrudType) (ret : ℤ) (resp : CrudResponse) :
    ((dispatch type ret resp).2.payload = resp.payload ∧
      (dispatch type ret resp).2.payloadSize = resp.payloadSize ∧
      (ret = 0 ↔ Answering type)) ∨
    ((dispatch type ret resp).2.payload = none ∧ (dispatch type ret resp).2.payloadSize = 0 ∧
      ¬ (ret = 0 ↔ Answering type)) := by
  by_cases h : ret = 0 <;> cases type <;>
    simp [dispatch, h, CrudResponse.clearPayload, Answering]

theorem dispatch_rightResponse {transactionUuid dest source : CString}
    (huuid : request.reqMsg.transactionUuid = some transactionUuid)
    (hdest : request.reqMsg.dest = some dest) (hsource : request.reqMsg.source = some source)
    (hout : handleRequest lib file request = some out) :
    RightResponse request
      (dispatch request.type out.ret
        (CrudResponse.fill ⟨request.type, transactionUuid, dest, source, 0, none, 0⟩ out)).1
      (dispatch request.type out.ret
        (CrudResponse.fill ⟨request.type, transactionUuid, dest, source, 0, none, 0⟩ out)).2 := by
  obtain ⟨hsettled, hfull, hbare⟩ := handleRequest_settled hout
  obtain ⟨htype, huuid', hsource', hdest', hstatus⟩ := dispatch_fill_header request.type out.ret out
    ⟨request.type, transactionUuid, dest, source, 0, none, 0⟩
  have hcode := dispatch_fst request.type out.ret
    (CrudResponse.fill ⟨request.type, transactionUuid, dest, source, 0, none, 0⟩ out)
  have hzero : (-1 : ℤ) ≠ 0 := by decide
  refine ⟨htype, ?_, ?_, ?_, ?_, ?_, ?_, ?_, ?_⟩
  · rw [huuid, huuid']
  · rw [hdest, hsource']
  · rw [hsource, hdest']
  · rw [hcode]
    split
    · exact .inl rfl
    · exact .inr rfl
  · rw [hcode, hstatus]
    exact hsettled.success_iff
  · rw [hcode, hstatus]
    exact hsettled.failure_iff
  · rw [hcode]
    obtain ⟨hkept, _, hiff⟩ | ⟨hcleared, _, hiff⟩ := dispatch_payload request.type out.ret
      (CrudResponse.fill ⟨request.type, transactionUuid, dest, source, 0, none, 0⟩ out)
    · rw [hkept, fill_payload rfl]
      by_cases hret : out.ret = 0
      · rw [if_pos hret]
        exact iff_of_true (hfull (hiff.mp hret) hret) ⟨rfl, hiff.mp hret⟩
      · rw [if_neg hret, hbare (fun h ↦ hret (hiff.mpr h))]
        exact iff_of_false (fun h ↦ by cases h) (fun h ↦ hzero h.1)
    · rw [hcleared]
      refine iff_of_false (fun h ↦ by cases h) (fun h ↦ hiff ?_)
      by_cases hret : out.ret = 0
      · exact iff_of_true hret h.2
      · rw [if_neg hret] at h
        exact absurd h.1 hzero
  · obtain ⟨hkept, hsize, _⟩ | ⟨hcleared, hsize, _⟩ := dispatch_payload request.type out.ret
      (CrudResponse.fill ⟨request.type, transactionUuid, dest, source, 0, none, 0⟩ out)
    · rw [hkept, hsize, fill_payload rfl, fill_payloadSize ⟨rfl, rfl⟩]
    · rw [hcleared, hsize]
      rfl

theorem dispatch_fill_payload (type : CrudType) (out : Outcome) (h : resp.payload = none) :
    (dispatch type out.ret (resp.fill out)).2.payload = (dropPayload type out).payload := by
  by_cases hret : out.ret = 0 <;> cases type <;>
    simp [dispatch, dropPayload, dropPayloadOnFailure, dropPayloadOnSuccess, hret,
      CrudResponse.clearPayload, fill_payload h]

/-- The whole response has the status and the payload of the answer. -/
theorem answerRequest_processed {ret : ℤ} (h : answerRequest lib file request = some (ret, resp)) :
    ∃ out, processCrudRequest lib file request = some out ∧ resp.status = out.status ∧
      resp.payload = out.payload := by
  unfold answerRequest at h
  split at h
  · obtain ⟨out, hout, hresp⟩ := Option.map_eq_some_iff.mp h
    obtain ⟨_, rfl⟩ := Prod.mk.inj hresp
    refine ⟨dropPayload request.type out, ?_, ?_, dispatch_fill_payload request.type out rfl⟩
    · rw [processCrudRequest_eq, hout, Option.map_some]
    · rw [dropPayload_status]
      exact (dispatch_fill_header request.type out.ret out _).2.2.2.2
  · cases h

theorem response_right_iff {dest : CString} {obj : List (Option CString)} {objlevel : ℕ}
    (hdest : request.reqMsg.dest = some dest)
    (hparse : parseDestElementsToString lib dest = .elements obj objlevel) :
    (∃ ret resp, answerRequest lib file request = some (ret, resp) ∧
      RightResponse request ret resp) ↔
      request.reqMsg.transactionUuid ≠ none ∧ request.reqMsg.source ≠ none ∧
        ¬ HandlerFails lib file request.type obj objlevel := by
  rw [← handleRequest_isSome_iff hdest hparse]
  constructor
  · intro h
    obtain ⟨ret, resp, hanswer, hright⟩ := h
    refine ⟨?_, ?_, ?_⟩
    · rw [hright.transactionUuid]
      exact Option.some_ne_none _
    · rw [hright.dest]
      exact Option.some_ne_none _
    · rw [answerRequest, hright.transactionUuid, hright.dest, hdest] at hanswer
      obtain ⟨out, hout, _⟩ := Option.map_eq_some_iff.mp hanswer
      rw [hout]
      rfl
  · intro h
    obtain ⟨huuid, hsource, hsome⟩ := h
    obtain ⟨transactionUuid, huuid⟩ := Option.ne_none_iff_exists'.mp huuid
    obtain ⟨source, hsource⟩ := Option.ne_none_iff_exists'.mp hsource
    obtain ⟨out, hout⟩ := Option.isSome_iff_exists.mp hsome
    refine ⟨_, _, ?_, dispatch_rightResponse huuid hdest hsource hout⟩
    simp only [answerRequest, huuid, hdest, hsource, hout, Option.map_some]

theorem parse_cloudStatus :
    parseDestElementsToString compactLib "mac:14cfe2142144/parodus/cloud-status".toList =
      .elements [some "mac".toList, some "14cfe2142144".toList, some "parodus".toList,
        some "cloud-status".toList] 3 := by
  simp only [String.reduceToList]
  decide

theorem cloudRetrieve_right :
    ∃ ret resp, answerRequest compactLib none ⟨.retrieve, Downstream.cloudRetrieve, writable⟩ =
        some (ret, resp) ∧
      RightResponse ⟨.retrieve, Downstream.cloudRetrieve, writable⟩ ret resp := by
  refine (response_right_iff rfl parse_cloudStatus).mpr
    ⟨Option.some_ne_none _, Option.some_ne_none _, fun hfails ↦ ?_⟩
  obtain ⟨_, key, hkey, _, hservice⟩ | ⟨hnone, _⟩ | ⟨hlevel, _⟩ := hfails
  · obtain rfl := Option.some.inj (Option.some.inj hkey)
    simp only [String.reduceToList] at hservice
    revert hservice
    decide
  · cases hnone
  · cases hlevel

def statusRetrieve : CrudMsg :=
  Downstream.plainCrud (some "123".toList) (some "dns:webpa".toList)
    (some "mac:14cfe2142144/parodus/service-status".toList)

theorem statusRetrieve_unanswered :
    parseDestElementsToString compactLib "mac:14cfe2142144/parodus/service-status".toList =
      .elements [some "mac".toList, some "14cfe2142144".toList, some "parodus".toList,
        some "service-status".toList] 3 ∧
    ¬ ∃ ret resp, answerRequest compactLib none ⟨.retrieve, statusRetrieve, writable⟩ =
        some (ret, resp) ∧ RightResponse ⟨.retrieve, statusRetrieve, writable⟩ ret resp := by
  refine ⟨Reading.parse_serviceStatus, fun h ↦ ?_⟩
  obtain ⟨ret, resp, hanswer, _⟩ := h
  have hfails : RetrieveFails compactLib none [some "mac".toList, some "14cfe2142144".toList,
      some "parodus".toList, some "service-status".toList] 3 := by
    refine .inl ⟨rfl, _, rfl, ?_, List.infix_refl _⟩
    simp only [tags, String.reduceToList]
    decide
  have hnone : retrieveObject compactLib writable.cfg writable.clients none statusRetrieve = none :=
    (retrieveObject_eq_none_iff_three rfl Reading.parse_serviceStatus).mpr hfails
  have hhandled : handleRequest compactLib none ⟨.retrieve, statusRetrieve, writable⟩ = none :=
    hnone
  obtain ⟨out, hout, _⟩ := answerRequest_processed hanswer
  rw [processCrudRequest_eq, hhandled] at hout
  cases hout

end Response

end Parodus.Crud
