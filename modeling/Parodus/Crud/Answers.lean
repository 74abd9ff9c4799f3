import Parodus.Crud.Handlers

namespace Parodus.Crud

open Foundation

structure Valid (fields : Members) : Prop where
  expires : checkExpires (children (.obj fields)) = true
  strings : checkStrings (children (.obj fields)) = true
  types : ∀ m ∈ fields, (fieldValue m.2).isSome = true

def Accepts (lib : Lib) (payload : Option CString) (fields : Members) : Prop :=
  payload.bind lib.parse = some (.obj fields) ∧ Valid fields

/-- A tag of exactly that name is stored with that value. -/
def Holds (json : Option Json) (name : CString) (value : Json) : Prop :=
  ∃ tagObj members, getObjectItem json tags = some tagObj ∧ tagObj.value = .obj members ∧
    members.lookup name = some value

/-- No stored tag has the name, whatever its case. -/
def Free (json : Option Json) (name : CString) : Prop :=
  ∀ tagObj, getObjectItem json tags = some tagObj →
    getObjectItem (some tagObj.value) name = none

def rebuiltTags (json : Option Json) (name : CString) (fields : Members) : Json :=
  match getObjectItem json tags with
  | some tagObj => addItemToObject (deleteItem name tagObj.value) name (.obj (stored fields))
  | none => .obj [(name, .obj (stored fields))]

/-- The members that the loaded item brings along into the new object. -/
def broughtAlong (lib : Lib) (json : Option Json) : Members :=
  match getObjectItem json tags with
  | some tagObj => if lib.keepsNext then tagObj.next else []
  | none => []

/-- The config that create and update write. -/
def rebuilt (lib : Lib) (json : Option Json) (name : CString) (fields : Members) : Json :=
  .obj ((tags, rebuiltTags json name fields) :: broughtAlong lib json)

def Refused (out : Outcome) : Prop :=
  out.written = none ∧ (out.status = 400 ∨ out.status = 409 ∨ out.status = 500)

variable {lib : Lib} {opens : Bool} {json : Option Json} {name : CString}
  {payload : Option CString} {fields : Members}

theorem refused_failure {status : ℤ} (h : status = 400 ∨ status = 409 ∨ status = 500) :
    Refused (failure status) :=
  ⟨rfl, h⟩

theorem checkExpires_arr (items : List Json) : checkExpires (children (.arr items)) = false := by
  rw [children]
  induction items with
  | nil => rfl
  | cons x xs ih => simpa [checkExpires] using ih

theorem checkPayload_eq_some {cs : List (Option CString × Json)}
    (h : checkPayload lib payload = some cs) :
    ∃ fields, payload.bind lib.parse = some (.obj fields) ∧ cs = children (.obj fields) ∧
      checkExpires cs = true ∧ checkStrings cs = true := by
  unfold checkPayload at h
  cases payload with
  | none => cases h
  | some text =>
    cases hp : lib.parse text with
    | none => simp [hp] at h
    | some value =>
      simp only [hp, Option.ite_none_right_eq_some, Option.some.injEq] at h
      obtain ⟨⟨hsize, hexpires, hstrings⟩, rfl⟩ := h
      cases value with
      | obj fields => exact ⟨fields, hp, rfl, hexpires, hstrings⟩
      | arr items => exact absurd hexpires (by rw [checkExpires_arr]; exact Bool.false_ne_true)
      | _ => exact absurd rfl hsize

theorem Valid.ne_nil (h : Valid fields) : fields ≠ [] := by
  intro heq
  subst heq
  exact absurd h.expires Bool.false_ne_true

theorem checkPayload_of_accepts (h : Accepts lib payload fields) :
    checkPayload lib payload = some (children (.obj fields)) := by
  obtain ⟨hparse, hvalid⟩ := h
  obtain ⟨text, rfl, htext⟩ := Option.bind_eq_some_iff.mp hparse
  have hsize : (children (.obj fields)).length ≠ 0 := by
    simpa [children] using hvalid.ne_nil
  simp only [checkPayload, htext]
  exact if_pos ⟨hsize, hvalid.expires, hvalid.strings⟩

theorem copyFields_of_valid (h : Valid fields) :
    copyFields (children (.obj fields)) = some (stored fields) := by
  rw [copyFields_obj, if_pos h.types]

theorem copyFields_of_not_accepts (h : ¬ ∃ fields, Accepts lib payload fields)
    {cs : List (Option CString × Json)} (hcheck : checkPayload lib payload = some cs) :
    copyFields cs = none := by
  obtain ⟨fields, hparse, rfl, hexpires, hstrings⟩ := checkPayload_eq_some hcheck
  rw [copyFields_obj, if_neg]
  exact fun htypes ↦ h ⟨fields, hparse, hexpires, hstrings, htypes⟩

theorem lookup_eq_none_of_strcaseeq {members : Members}
    (h : ∀ m ∈ members, strcaseeq name m.1 = false) : members.lookup name = none := by
  rw [List.lookup_eq_none_iff]
  intro m hm
  have hne := h m hm
  apply bne_iff_ne.mpr
  intro heq
  subst heq
  rw [strcaseeq_self] at hne
  cases hne

theorem lookup_eq_none_of_getObjectItem {members : Members}
    (h : getObjectItem (some (.obj members)) name = none) : members.lookup name = none :=
  lookup_eq_none_of_strcaseeq (getObjectItem_eq_none_iff.mp h)

theorem deleteItem_of_free {value : Json} (h : getObjectItem (some value) name = none) :
    deleteItem name value = value := by
  cases value with
  | obj members => rw [deleteItem, Assoc.remove_eq_self (lookup_eq_none_of_getObjectItem h)]
  | _ => rfl

theorem name_cases (json : Option Json) (name : CString) :
    Free json name ∨ ∃ tagObj members item, getObjectItem json tags = some tagObj ∧
      tagObj.value = .obj members ∧ getObjectItem (some tagObj.value) name = some item := by
  cases htags : getObjectItem json tags with
  | none => exact .inl fun tagObj h ↦ by rw [htags] at h; cases h
  | some tagObj =>
    cases hitem : getObjectItem (some tagObj.value) name with
    | none =>
      left
      intro tagObj' h
      obtain rfl := Option.some.inj (htags.symm.trans h)
      exact hitem
    | some item =>
      have hobj := Option.some.inj (getObjectItem_eq_some hitem).1
      exact .inr ⟨tagObj, _, item, rfl, hobj, hitem⟩

theorem createTag_of_free (hacc : Accepts lib payload fields) (hfree : Free json name) :
    createTag lib opens json name payload =
      some (finish 201 (some (lib.print (.obj [(name, .obj (stored fields))])))
        (writeToJSON opens (some (lib.print (rebuilt lib json name fields))))) := by
  have hcheck := checkPayload_of_accepts hacc
  have hcopy := copyFields_of_valid hacc.2
  cases htags : getObjectItem json tags with
  | none =>
    simp [createTag, rebuilt, rebuiltTags, broughtAlong, hcheck, hcopy, htags, writeIntoCrudJson,
      addItemToObject]
  | some tagObj =>
    have hname := hfree tagObj htags
    simp [createTag, rebuilt, rebuiltTags, broughtAlong, hcheck, hcopy, htags, hname,
      writeIntoCrudJson, deleteItem_of_free hname]

theorem updateTag_of_free (hacc : Accepts lib payload fields) (hfree : Free json name) :
    updateTag lib opens json name payload =
      some (finish 201 none
        (writeToJSON opens (some (lib.print (rebuilt lib json name fields))))) := by
  have hcheck := checkPayload_of_accepts hacc
  have hcopy := copyFields_of_valid hacc.2
  cases htags : getObjectItem json tags with
  | none =>
    simp [updateTag, rebuilt, rebuiltTags, broughtAlong, hcheck, hcopy, htags, writeIntoCrudJson,
      addItemToObject]
  | some tagObj =>
    have hname := hfree tagObj htags
    simp [updateTag, rebuilt, rebuiltTags, broughtAlong, hcheck, hcopy, htags, hname,
      writeIntoCrudJson, deleteItem_of_free hname]

section Taken

variable {tagObj item : Item} {members : Members} (htags : getObjectItem json tags = some tagObj)
  (hobj : tagObj.value = .obj members) (hitem : getObjectItem (some tagObj.value) name = some item)

include htags hitem in
theorem not_free_of_taken : ¬ Free json name := by
  intro hfree
  have hnone := hfree tagObj htags
  rw [hitem] at hnone
  cases hnone

include htags hobj hitem

theorem createTag_of_taken {cs : List (Option CString × Json)}
    (hcheck : checkPayload lib payload = some cs) :
    createTag lib opens json name payload =
      some (failure (if (members.lookup name).isSome then 409 else 500)) := by
  rw [hobj] at hitem
  cases hlookup : members.lookup name with
  | none => simp [createTag, hcheck, htags, hobj, hitem, hlookup]
  | some value => simp [createTag, hcheck, htags, hobj, hitem, hlookup]

theorem updateTag_of_taken (hacc : Accepts lib payload fields) :
    updateTag lib opens json name payload =
      some (if (members.lookup name).isSome then finish 200 none
        (writeToJSON opens (some (lib.print (rebuilt lib json name fields))))
      else failure 500) := by
  have hcheck := checkPayload_of_accepts hacc
  have hcopy := copyFields_of_valid hacc.2
  rw [hobj] at hitem
  cases hlookup : members.lookup name with
  | none => simp [updateTag, hcheck, htags, hobj, hitem, hlookup]
  | some value =>
    simp [updateTag, hcheck, hcopy, htags, hobj, hitem, hlookup, rebuilt, rebuiltTags, broughtAlong,
      writeIntoCrudJson]

end Taken

theorem refused_taken (b : Bool) : Refused (failure (if b then 409 else 500)) := by
  cases b with
  | true => exact refused_failure (.inr (.inl rfl))
  | false => exact refused_failure (.inr (.inr rfl))

theorem createTag_of_not_accepts (h : ¬ ∃ fields, Accepts lib payload fields) :
    ∃ out, createTag lib opens json name payload = some out ∧ Refused out := by
  cases hcheck : checkPayload lib payload with
  | none => exact ⟨failure 400, by simp [createTag, hcheck], refused_failure (.inl rfl)⟩
  | some cs =>
    have hcopy := copyFields_of_not_accepts h hcheck
    rcases name_cases json name with hfree | ⟨tagObj, members, item, htags, hobj, hitem⟩
    · refine ⟨failure 400, ?_, refused_failure (.inl rfl)⟩
      cases htags : getObjectItem json tags with
      | none => simp [createTag, hcheck, hcopy, htags]
      | some tagObj => simp [createTag, hcheck, hcopy, htags, hfree tagObj htags]
    · exact ⟨_, createTag_of_taken htags hobj hitem hcheck, refused_taken _⟩

theorem updateTag_of_not_accepts (h : ¬ ∃ fields, Accepts lib payload fields) :
    ∃ out, updateTag lib opens json name payload = some out ∧ Refused out := by
  cases hcheck : checkPayload lib payload with
  | none => exact ⟨failure 400, by simp [updateTag, hcheck], refused_failure (.inl rfl)⟩
  | some cs =>
    have hcopy := copyFields_of_not_accepts h hcheck
    rcases name_cases json name with hfree | ⟨tagObj, members, item, htags, hobj, hitem⟩
    · refine ⟨failure 400, ?_, refused_failure (.inl rfl)⟩
      cases htags : getObjectItem json tags with
      | none => simp [updateTag, hcheck, hcopy, htags]
      | some tagObj => simp [updateTag, hcheck, hcopy, htags, hfree tagObj htags]
    · rw [hobj] at hitem
      cases hlookup : members.lookup name with
      | none =>
        exact ⟨failure 500, by simp [updateTag, hcheck, htags, hobj, hitem, hlookup],
          refused_failure (.inr (.inr rfl))⟩
      | some value =>
        exact ⟨failure 400, by simp [updateTag, hcheck, hcopy, htags, hobj, hitem, hlookup],
          refused_failure (.inl rfl)⟩

/-- The name in a request for `parodus/tag/${name}`. -/
def tagDest (lib : Lib) (reqMsg : CrudMsg) : Option CString :=
  reqMsg.dest.bind fun dest ↦
    match parseDestElementsToString lib dest with
    | .elements obj objlevel => tagName obj objlevel
    | _ => none

/-- A request to write a tag is either met, and the config rebuilt with it, or
refused; it is met when the payload is accepted, the config can be parsed and
written, and the name is admitted. -/
def PutAnswer (lib : Lib) (opens : Bool) (file : Option CString) (name : CString)
    (payload : Option CString) (admits : Option Json → Prop) (out : Outcome) : Prop :=
  (∃ json fields, loadConfig lib file = some json ∧ Accepts lib payload fields ∧ opens = true ∧
    admits json ∧ (out.status = 200 ∨ out.status = 201) ∧
    out.written = some (lib.print (rebuilt lib json name fields))) ∨
  ((∀ json fields, loadConfig lib file = some json → Accepts lib payload fields → opens = true →
    ¬ admits json) ∧ Refused out)

def CreateAdmits (name : CString) (json : Option Json) : Prop := Free json name

def UpdateAdmits (name : CString) (json : Option Json) : Prop :=
  Free json name ∨ ∃ value, Holds json name value

variable {closeRetry : Bool} {file : Option CString} {reqMsg : CrudMsg}

theorem tagDest_eq_some (h : tagDest lib reqMsg = some name) :
    ∃ dest obj objlevel, reqMsg.dest = some dest ∧
      parseDestElementsToString lib dest = .elements obj objlevel ∧
      tagName obj objlevel = some name := by
  obtain ⟨dest, hdest, hname⟩ := Option.bind_eq_some_iff.mp h
  cases hparse : parseDestElementsToString lib dest with
  | elements obj objlevel =>
    rw [hparse] at hname
    exact ⟨dest, obj, objlevel, hdest, hparse, hname⟩
  | _ => simp [hparse] at hname

theorem createObject_of_tagDest (h : tagDest lib reqMsg = some name) :
    createObject lib opens file reqMsg =
      match loadConfig lib file with
      | none => some (failure 500)
      | some json => createTag lib opens json name reqMsg.payload := by
  obtain ⟨dest, obj, objlevel, hdest, hparse, hname⟩ := tagDest_eq_some h
  cases hfile : loadConfig lib file with
  | none => simp only [createObject, hfile]
  | some json => simp only [createObject, hfile, withDest, hdest, hparse, hname]

theorem updateObject_of_tagDest (h : tagDest lib reqMsg = some name) :
    updateObject lib opens closeRetry file reqMsg =
      match loadConfig lib file with
      | none => some (failure 500)
      | some json => updateTag lib opens json name reqMsg.payload := by
  obtain ⟨dest, obj, objlevel, hdest, hparse, hname⟩ := tagDest_eq_some h
  cases hfile : loadConfig lib file with
  | none => simp only [updateObject, hfile]
  | some json => simp only [updateObject, hfile, withDest, hdest, hparse, hname]

theorem deleteObject_of_tagDest (h : tagDest lib reqMsg = some name) :
    deleteObject lib opens file reqMsg =
      match openConfig lib file with
      | none => some (failure 500)
      | some json => deleteTag lib opens json name := by
  obtain ⟨dest, obj, objlevel, hdest, hparse, hname⟩ := tagDest_eq_some h
  cases hfile : openConfig lib file with
  | none => simp only [deleteObject, hfile]
  | some json => simp only [deleteObject, hfile, withDest, hdest, hparse, hname]

theorem holds_iff {tagObj : Item} {value : Json} (htags : getObjectItem json tags = some tagObj) :
    Holds json name value ↔
      ∃ members, tagObj.value = .obj members ∧ members.lookup name = some value := by
  constructor
  · intro hex
    obtain ⟨tagObj', members, htags', hobj, hvalue⟩ := hex
    obtain rfl := Option.some.inj (htags.symm.trans htags')
    exact ⟨members, hobj, hvalue⟩
  · intro hex
    obtain ⟨members, hobj, hvalue⟩ := hex
    exact ⟨tagObj, members, htags, hobj, hvalue⟩

section Put

variable {admits : Option Json → Prop} {out : Outcome}

theorem putAnswer_of_closed {status : ℤ} {resPayload data : Option CString} :
    PutAnswer lib false file name payload admits
      (finish status resPayload (writeToJSON false data)) :=
  .inr ⟨fun _ _ _ _ h ↦ absurd h Bool.false_ne_true, rfl, .inr (.inr rfl)⟩

theorem putAnswer_of_not_accepts (h : ¬ ∃ fields, Accepts lib payload fields)
    (hrefused : Refused out) : PutAnswer lib opens file name payload admits out :=
  .inr ⟨fun _ fields _ hacc ↦ absurd ⟨fields, hacc⟩ h, hrefused⟩

theorem putAnswer_of_not_admits (hload : loadConfig lib file = some json) (h : ¬ admits json)
    (hrefused : Refused out) : PutAnswer lib opens file name payload admits out := by
  refine .inr ⟨fun json' _ hload' _ _ ↦ ?_, hrefused⟩
  rwa [← Option.some.inj (hload.symm.trans hload')]

theorem putAnswer_of_not_loaded (h : loadConfig lib file = none) :
    PutAnswer lib opens file name payload admits (failure 500) := by
  refine .inr ⟨fun json _ hjson ↦ ?_, refused_failure (.inr (.inr rfl))⟩
  rw [h] at hjson
  cases hjson

end Put

theorem createTag_answer (hload : loadConfig lib file = some json) :
    ∃ out, createTag lib opens json name payload = some out ∧
      PutAnswer lib opens file name payload (CreateAdmits name) out := by
  by_cases hacc : ∃ fields, Accepts lib payload fields
  · obtain ⟨fields, hacc⟩ := hacc
    rcases name_cases json name with hfree | ⟨tagObj, members, item, htags, hobj, hitem⟩
    · refine ⟨_, createTag_of_free hacc hfree, ?_⟩
      cases opens with
      | true => exact .inl ⟨json, fields, hload, hacc, rfl, hfree, .inr rfl, rfl⟩
      | false => exact putAnswer_of_closed
    · have hcheck := checkPayload_of_accepts hacc
      exact ⟨_, createTag_of_taken htags hobj hitem hcheck,
        putAnswer_of_not_admits hload (not_free_of_taken htags hitem) (refused_taken _)⟩
  · obtain ⟨out, hout, hrefused⟩ := createTag_of_not_accepts hacc
    exact ⟨out, hout, putAnswer_of_not_accepts hacc hrefused⟩

theorem updateTag_answer (hload : loadConfig lib file = some json) :
    ∃ out, updateTag lib opens json name payload = some out ∧
      PutAnswer lib opens file name payload (UpdateAdmits name) out := by
  by_cases hacc : ∃ fields, Accepts lib payload fields
  · obtain ⟨fields, hacc⟩ := hacc
    rcases name_cases json name with hfree | ⟨tagObj, members, item, htags, hobj, hitem⟩
    · refine ⟨_, updateTag_of_free hacc hfree, ?_⟩
      cases opens with
      | true => exact .inl ⟨json, fields, hload, hacc, rfl, .inl hfree, .inr rfl, rfl⟩
      | false => exact putAnswer_of_closed
    · refine ⟨_, updateTag_of_taken htags hobj hitem hacc, ?_⟩
      cases hlookup : members.lookup name with
      | none =>
        have hnot : ¬ UpdateAdmits name json := by
          intro hadmits
          rcases hadmits with hfree | ⟨value, hholds⟩
          · exact not_free_of_taken htags hitem hfree
          · obtain ⟨members', hobj', hvalue⟩ := (holds_iff htags).mp hholds
            obtain rfl := Json.obj.inj (hobj.symm.trans hobj')
            rw [hlookup] at hvalue
            cases hvalue
        exact putAnswer_of_not_admits hload hnot (refused_failure (.inr (.inr rfl)))
      | some value =>
        rw [Option.isSome_some, if_pos rfl]
        have hholds : Holds json name value := ⟨tagObj, members, htags, hobj, hlookup⟩
        cases opens with
        | true => exact .inl ⟨json, fields, hload, hacc, rfl, .inr ⟨value, hholds⟩, .inl rfl, rfl⟩
        | false => exact putAnswer_of_closed
  · obtain ⟨out, hout, hrefused⟩ := updateTag_of_not_accepts hacc
    exact ⟨out, hout, putAnswer_of_not_accepts hacc hrefused⟩

theorem createObject_answer (h : tagDest lib reqMsg = some name) :
    ∃ out, createObject lib opens file reqMsg = some out ∧
      PutAnswer lib opens file name reqMsg.payload (CreateAdmits name) out := by
  rw [createObject_of_tagDest h]
  cases hload : loadConfig lib file with
  | none => exact ⟨_, rfl, putAnswer_of_not_loaded hload⟩
  | some json => exact createTag_answer hload

theorem updateObject_answer (h : tagDest lib reqMsg = some name) :
    ∃ out, updateObject lib opens closeRetry file reqMsg = some out ∧
      PutAnswer lib opens file name reqMsg.payload (UpdateAdmits name) out := by
  rw [updateObject_of_tagDest h]
  cases hload : loadConfig lib file with
  | none => exact ⟨_, rfl, putAnswer_of_not_loaded hload⟩
  | some json => exact updateTag_answer hload

theorem PutAnswer.stores {admits : Option Json → Prop} {out : Outcome}
    (h : PutAnswer lib opens file name payload admits out)
    (hok : out.status = 200 ∨ out.status = 201) :
    ∃ json fields, loadConfig lib file = some json ∧ Accepts lib payload fields ∧ admits json ∧
      out.written = some (lib.print (rebuilt lib json name fields)) := by
  rcases h with ⟨json, fields, hload, hacc, _, hadmits, _, hwritten⟩ | ⟨_, _, hstatus⟩
  · exact ⟨json, fields, hload, hacc, hadmits, hwritten⟩
  · omega

theorem put_stores {out : Outcome} (h : tagDest lib reqMsg = some name)
    (hput : createObject lib opens file reqMsg = some out ∨
      updateObject lib opens closeRetry file reqMsg = some out)
    (hok : out.status = 200 ∨ out.status = 201) :
    ∃ json fields, loadConfig lib file = some json ∧ Accepts lib reqMsg.payload fields ∧
      UpdateAdmits name json ∧ out.written = some (lib.print (rebuilt lib json name fields)) := by
  rcases hput with hcreate | hupdate
  · obtain ⟨out', hout', hanswer⟩ := createObject_answer h
    obtain rfl := Option.some.inj (hcreate.symm.trans hout')
    obtain ⟨json, fields, hload, hacc, hfree, hwritten⟩ := hanswer.stores hok
    exact ⟨json, fields, hload, hacc, .inl hfree, hwritten⟩
  · obtain ⟨out', hout', hanswer⟩ := updateObject_answer h
    obtain rfl := Option.some.inj (hupdate.symm.trans hout')
    exact hanswer.stores hok

def pruned (tagObj : Item) (name : CString) : Json :=
  .obj (tagObj.prev ++ (tagObj.string, deleteItem name tagObj.value) :: tagObj.next)

/-- A tag of exactly that name can be deleted; the name of the object that holds
the tags is no tag. -/
def DeleteAdmits (config : Json) (name : CString) : Prop :=
  ∃ tagObj, getObjectItem (some config) tags = some tagObj ∧ tagObj.string ≠ name ∧
    ∃ value, Holds (some config) name value

/-- The tags are an array that is not empty, whose items have no keys to compare. -/
def Unkeyed (config : Json) (name : CString) : Prop :=
  ∃ tagObj x xs, getObjectItem (some config) tags = some tagObj ∧ tagObj.string ≠ name ∧
    tagObj.value = .arr (x :: xs)

/-- A delete is met when the tag is stored, and answered with 200 whether or not
the config could be written. -/
def DeleteAnswer (lib : Lib) (opens : Bool) (file : Option CString) (name : CString)
    (out : Outcome) : Prop :=
  (∃ config tagObj, openConfig lib file = some config ∧ DeleteAdmits config name ∧
    getObjectItem (some config) tags = some tagObj ∧ out.status = 200 ∧
    out.written = if opens then some (lib.print (pruned tagObj name)) else none) ∨
  ((∀ config, openConfig lib file = some config → ¬ DeleteAdmits config name) ∧ Refused out)

variable {config : Json}

theorem deleteTag_of_admits (h : DeleteAdmits config name) :
    ∃ tagObj, getObjectItem (some config) tags = some tagObj ∧
      deleteTag lib opens config name = some { Outcome.answer 0 200 with
        written := if opens then some (lib.print (pruned tagObj name)) else none } := by
  obtain ⟨tagObj, htags, hself, value, hholds⟩ := h
  obtain ⟨members, hobj, hvalue⟩ := (holds_iff htags).mp hholds
  have hsize : children (.obj members) ≠ [] := by
    cases members with
    | nil => cases hvalue
    | cons m ms => exact List.cons_ne_nil _ _
  refine ⟨tagObj, htags, ?_⟩
  cases opens <;> simp [deleteTag, htags, hself, hobj, hvalue, hsize, writeToJSON, pruned]

theorem deleteTag_of_not_admits (h : ¬ DeleteAdmits config name) (hkeys : ¬ Unkeyed config name) :
    ∃ out, deleteTag lib opens config name = some out ∧ Refused out := by
  have hrefused : Refused (failure 400) := refused_failure (.inl rfl)
  refine ⟨failure 400, ?_, hrefused⟩
  cases htags : getObjectItem (some config) tags with
  | none => simp [deleteTag, htags]
  | some tagObj =>
    by_cases hself : tagObj.string = name
    · simp [deleteTag, htags, hself]
    cases hvalue : tagObj.value with
    | obj members =>
      cases hlookup : members.lookup name with
      | none => simp [deleteTag, htags, hvalue, hlookup]
      | some value =>
        have hholds : Holds (some config) name value := ⟨tagObj, members, htags, hvalue, hlookup⟩
        exact absurd ⟨tagObj, htags, hself, value, hholds⟩ h
    | arr items =>
      cases items with
      | nil => simp [deleteTag, htags, hvalue, children]
      | cons x xs => exact absurd ⟨tagObj, x, xs, htags, hself, hvalue⟩ hkeys
    | _ => simp [deleteTag, htags, hvalue, children]

theorem deleteTag_of_unkeyed (h : Unkeyed config name) :
    deleteTag lib opens config name = none := by
  obtain ⟨tagObj, x, xs, htags, hself, hvalue⟩ := h
  simp [deleteTag, htags, hself, hvalue, children, findKey]

/-- A delete is answered unless it has to compare a name with a null key. -/
theorem deleteObject_answer (h : tagDest lib reqMsg = some name)
    (hkeys : ∀ config, openConfig lib file = some config → ¬ Unkeyed config name) :
    ∃ out, deleteObject lib opens file reqMsg = some out ∧
      DeleteAnswer lib opens file name out := by
  rw [deleteObject_of_tagDest h]
  cases hopen : openConfig lib file with
  | none =>
    refine ⟨failure 500, rfl, .inr ⟨fun config hconfig ↦ ?_, refused_failure (.inr (.inr rfl))⟩⟩
    rw [hopen] at hconfig
    cases hconfig
  | some config =>
    by_cases hadmits : DeleteAdmits config name
    · obtain ⟨tagObj, htags, hdelete⟩ := deleteTag_of_admits hadmits
      exact ⟨_, hdelete, .inl ⟨config, tagObj, hopen, hadmits, htags, rfl, rfl⟩⟩
    · obtain ⟨out, hout, hrefused⟩ := deleteTag_of_not_admits hadmits (hkeys config hopen)
      refine ⟨out, hout, .inr ⟨fun config' hconfig' ↦ ?_, hrefused⟩⟩
      obtain rfl := Option.some.inj (hopen.symm.trans hconfig')
      exact hadmits

theorem deleteObject_eq_some (h : tagDest lib reqMsg = some name) {out : Outcome}
    (hout : deleteObject lib opens file reqMsg = some out) :
    DeleteAnswer lib opens file name out := by
  have hkeys : ∀ config, openConfig lib file = some config → ¬ Unkeyed config name := by
    intro config hopen hunkeyed
    rw [deleteObject_of_tagDest h, hopen] at hout
    simp only [deleteTag_of_unkeyed hunkeyed] at hout
    cases hout
  obtain ⟨out', hout', hanswer⟩ := deleteObject_answer h hkeys
  rwa [Option.some.inj (hout.symm.trans hout')]

theorem withDest_eq_some {body : List (Option CString) → ℕ → Option Outcome} {out : Outcome}
    (h : withDest lib reqMsg body = some out) :
    out.written = none ∨ ∃ dest obj objlevel, reqMsg.dest = some dest ∧
      parseDestElementsToString lib dest = .elements obj objlevel ∧
      body obj objlevel = some out := by
  cases hdest : reqMsg.dest with
  | none =>
    obtain rfl : failure 400 = out := by simpa [withDest, hdest] using h
    exact .inl rfl
  | some dest =>
    cases hparse : parseDestElementsToString lib dest with
    | undefined => simp [withDest, hdest, hparse] at h
    | unsupported =>
      obtain rfl : failure 400 = out := by simpa [withDest, hdest, hparse] using h
      exact .inl rfl
    | elements obj objlevel =>
      have hbody : body obj objlevel = some out := by simpa [withDest, hdest, hparse] using h
      exact .inr ⟨dest, obj, objlevel, rfl, hparse, hbody⟩

theorem tagDest_of_tagName {dest : CString} {obj : List (Option CString)} {objlevel : ℕ}
    (hdest : reqMsg.dest = some dest)
    (hparse : parseDestElementsToString lib dest = .elements obj objlevel) :
    tagDest lib reqMsg = tagName obj objlevel := by
  rw [tagDest, hdest, Option.bind_some, hparse]

theorem withDest_writes {onTag : CString → Option Outcome}
    {other : List (Option CString) → ℕ → Outcome} {out : Outcome}
    (hother : ∀ obj objlevel, (other obj objlevel).written = none)
    (h : withDest lib reqMsg (fun obj objlevel ↦
      match tagName obj objlevel with
      | some name => onTag name
      | none => some (other obj objlevel)) = some out) :
    out.written = none ∨ ∃ name, tagDest lib reqMsg = some name := by
  obtain hnone | ⟨dest, obj, objlevel, hdest, hparse, hbody⟩ := withDest_eq_some h
  · exact .inl hnone
  rw [tagDest_of_tagName hdest hparse]
  cases hname : tagName obj objlevel with
  | some name => exact .inr ⟨name, rfl⟩
  | none =>
    simp only [hname] at hbody
    obtain rfl := Option.some.inj hbody
    exact .inl (hother obj objlevel)

theorem createObject_writes {out : Outcome}
    (h : createObject lib opens file reqMsg = some out) :
    out.written = none ∨ ∃ name, tagDest lib reqMsg = some name := by
  unfold createObject at h
  split at h
  · obtain rfl := Option.some.inj h
    exact .inl rfl
  · exact withDest_writes (fun _ _ ↦ rfl) h

theorem cloudDisconnect_written : (cloudDisconnect lib closeRetry payload).written = none := by
  unfold cloudDisconnect
  repeat' split
  all_goals rfl

theorem updateObject_writes {out : Outcome}
    (h : updateObject lib opens closeRetry file reqMsg = some out) :
    out.written = none ∨ ∃ name, tagDest lib reqMsg = some name := by
  unfold updateObject at h
  split at h
  · obtain rfl := Option.some.inj h
    exact .inl rfl
  · simp only [← apply_ite some] at h
    refine withDest_writes (fun obj objlevel ↦ ?_) h
    split
    · exact cloudDisconnect_written
    · rfl

theorem deleteObject_writes {out : Outcome}
    (h : deleteObject lib opens file reqMsg = some out) :
    out.written = none ∨ ∃ name, tagDest lib reqMsg = some name := by
  unfold deleteObject at h
  split at h
  · obtain rfl := Option.some.inj h
    exact .inl rfl
  · exact withDest_writes (fun _ _ ↦ rfl) h

end Parodus.Crud
