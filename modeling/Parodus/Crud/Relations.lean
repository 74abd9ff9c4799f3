import Parodus.Crud.CloudDisconnect
import Parodus.Crud.Frame

namespace Parodus.Crud

open Foundation Foundation.Runs Clients

/-- The return code, the status and the config file that a request leaves. -/
def Outcome.effect (file : Option CString) (out : Outcome) : ℤ × ℤ × Option CString :=
  (out.ret, out.status, out.file file)

variable {lib : Lib} {opens closeRetry : Bool} {file : Option CString} {json : Option Json}
  {name : CString} {payload : Option CString} {reqMsg : CrudMsg}

theorem effect_finish (file : Option CString) (status : ℤ) (resPayload : Option CString)
    (write : ℤ × Option CString) :
    (finish status resPayload write).effect file = (finish status none write).effect file := by
  rw [finish, finish]
  split <;> rfl

theorem updateTag_effect_of_free (file : Option CString) (hfree : Free json name) :
    (createTag lib opens json name payload).map (Outcome.effect file) =
      (updateTag lib opens json name payload).map (Outcome.effect file) := by
  cases hcheck : checkPayload lib payload with
  | none => simp only [createTag, updateTag, hcheck]
  | some fields =>
    cases htags : getObjectItem json tags with
    | none =>
      cases hcopy : copyFields fields with
      | none => simp only [createTag, updateTag, hcheck, htags, hcopy]
      | some testObj1 =>
        simp only [createTag, updateTag, hcheck, htags, hcopy, Option.map_some]
        rw [effect_finish]
    | some tagObj =>
      have hname := hfree tagObj htags
      cases hcopy : copyFields fields with
      | none => simp only [createTag, updateTag, hcheck, htags, hname, hcopy]
      | some testObj1 =>
        simp only [createTag, updateTag, hcheck, htags, hname, hcopy, Option.map_some]
        rw [effect_finish]

theorem tagNames_of_openConfig {config : Json} {tagObj : Item}
    (hopen : openConfig lib file = some config)
    (htags : getObjectItem (some config) tags = some tagObj) :
    tagNames lib file = (children tagObj.value).filterMap Prod.fst := by
  rw [tagNames, hopen, Option.bind_some, htags]

theorem loadConfig_of_openConfig_eq_none (hlib : lib.Lawful) (h : openConfig lib file = none)
    (hload : loadConfig lib file = some json) : json = none := by
  cases file with
  | none => exact (Option.some.inj hload).symm
  | some text =>
    cases text with
    | nil =>
      simp only [loadConfig, readFromJSON, cJSONParse, Option.bind_some, hlib.parse_nil] at hload
      exact (Option.some.inj hload).symm
    | cons c cs =>
      have hparse : lib.parse (c :: cs) = none := by simpa [openConfig, readFromJSON] using h
      simp [loadConfig, readFromJSON, hparse] at hload

theorem free_of_tagNames (hlib : lib.Lawful) (hload : loadConfig lib file = some json)
    (h : ∀ n ∈ tagNames lib file, strcaseeq name n = false) : Free json name := by
  cases hopen : openConfig lib file with
  | none =>
    obtain rfl := loadConfig_of_openConfig_eq_none hlib hopen hload
    exact free_none
  | some config =>
    rw [loadConfig_of_openConfig hopen] at hload
    obtain rfl := Option.some.inj hload
    intro tagObj htags
    rw [tagNames_of_openConfig hopen htags] at h
    cases hvalue : tagObj.value with
    | obj members =>
      apply getObjectItem_eq_none_iff.mpr
      intro m hm
      apply h
      rw [hvalue]
      exact List.mem_filterMap.mpr ⟨(some m.1, m.2), List.mem_map.mpr ⟨m, hm, rfl⟩, rfl⟩
    | _ => rfl

/-- A request to update a tag that is not stored does what the same request to create it
does; so does every request that neither of the two handlers accepts. -/
theorem updateObject_of_absent (hlib : lib.Lawful) (hcloud : ¬ CloudDest lib reqMsg)
    (habsent : ∀ name, tagDest lib reqMsg = some name →
      ∀ n ∈ tagNames lib file, strcaseeq name n = false) :
    (createObject lib opens file reqMsg).map (Outcome.effect file) =
      (updateObject lib opens closeRetry file reqMsg).map (Outcome.effect file) := by
  cases hload : loadConfig lib file with
  | none => simp only [createObject, updateObject, hload]
  | some json =>
    simp only [createObject, updateObject, hload]
    cases hdest : reqMsg.dest with
    | none => simp only [withDest, hdest]
    | some dest =>
      cases hparse : parseDestElementsToString lib dest with
      | undefined => simp only [withDest, hdest, hparse]
      | unsupported => simp only [withDest, hdest, hparse]
      | elements obj objlevel =>
        simp only [withDest, hdest, hparse]
        cases hname : tagName obj objlevel with
        | some name =>
          have htag := (tagDest_of_tagName hdest hparse).trans hname
          exact updateTag_effect_of_free file (free_of_tagNames hlib hload (habsent name htag))
        | none =>
          have hother : ¬ (objlevel = 3 ∧ obj[3]? = some (some "cloud-disconnect".toList)) := by
            intro hex
            obtain ⟨rfl, hobj⟩ := hex
            exact hcloud ⟨dest, obj, hdest, hparse, hobj⟩
          simp only [if_neg hother]

theorem createLate_dest : tagDest compactLib createLate = some "late".toList := by
  simp only [createLate, crudMsg, String.reduceToList]
  decide

theorem updateLate_of_absent :
    (createObject compactLib true fooConfig createLate).map (Outcome.effect fooConfig) =
      (updateObject compactLib true false fooConfig createLate).map
        (Outcome.effect fooConfig) := by
  apply updateObject_of_absent compactLib_lawful
  · intro hcloud
    obtain ⟨dest, obj, hdest, hparse, _⟩ := hcloud
    obtain rfl := Option.some.inj hdest
    simp only [String.reduceToList] at hparse
    cases hparse
  · intro name hname
    obtain rfl := Option.some.inj (createLate_dest.symm.trans hname)
    rw [tagNames_fooConfig]
    simp only [String.reduceToList]
    decide

section Undo

variable {s : TagStore} {cfg : ParodusCfg} {clients : ClientList}
  {delMsg getMsg : CrudMsg} {out : Outcome}

/-- A delete of the tag is met and leaves the config with the tags of the old file, from
which the tag is not retrieved. -/
def Undoes (lib : Lib) (cfg : ParodusCfg) (clients : ClientList) (before file : Option CString)
    (delMsg getMsg : CrudMsg) : Prop :=
  ∃ deleted members got, deleteObject lib true file delMsg = some deleted ∧ deleted.status = 200 ∧
    (loadConfig lib before).bind tagList = some members ∧
    openConfig lib (deleted.file file) = some (.obj [(tags, .obj members)]) ∧
    retrieveObject lib cfg clients (deleted.file file) getMsg = some got ∧ got.status ≠ 200

theorem rebuilt_of_free (fields : Members) (h : Represents lib file s) (hlib : lib.Lawful)
    (hload : loadConfig lib file = some json) (hfree : Free json name) :
    tagList json = some s.tags ∧ s.tags.lookup name = none ∧ rebuilt lib json name fields =
      .obj [(tags, .obj (s.tags ++ [(name, .obj (stored fields))]))] := by
  rcases h.loadConfig hlib with ⟨hnone, _, rfl⟩ | ⟨hsome, _⟩
  · obtain rfl := Option.some.inj (hnone.symm.trans hload)
    exact ⟨rfl, rfl, rfl⟩
  · obtain rfl := Option.some.inj (hsome.symm.trans hload)
    have hlookup := lookup_eq_none_of_strcaseeq (free_config_iff.mp hfree)
    refine ⟨?_, hlookup, ?_⟩
    · rw [tagList, getObjectItem_config]
    · rw [rebuilt_config, Assoc.put, Assoc.remove_eq_self hlookup]

theorem getObjectItem_tags (members : Members) :
    getObjectItem (some (.obj [(tags, .obj members)])) tags = some ⟨[], tags, .obj members, []⟩ :=
  getObjectItem_cons

theorem deleteTag_append (hself : name ≠ tags) {members : Members} {value : Json}
    (hlookup : members.lookup name = none) :
    deleteTag lib true (.obj [(tags, .obj (members ++ [(name, value)]))]) name =
      some { Outcome.answer 0 200 with
        written := some (lib.print (.obj [(tags, .obj members)])) } := by
  have hfound : (members ++ [(name, value)]).lookup name = some value := by
    rw [List.lookup_append, hlookup, Option.none_or, List.lookup_cons_self]
  have hremove : Assoc.remove name (members ++ [(name, value)]) = members := by
    rw [Assoc.remove_append_of_lookup_eq_none hlookup, Assoc.remove_cons_self, List.append_nil]
  have hadmits : DeleteAdmits (.obj [(tags, .obj (members ++ [(name, value)]))]) name :=
    ⟨_, getObjectItem_tags _, hself.symm, value, _, _, getObjectItem_tags _, rfl, hfound⟩
  obtain ⟨tagObj, htags, hdelete⟩ := @deleteTag_of_admits lib true _ _ hadmits
  rw [getObjectItem_tags] at htags
  obtain rfl := Option.some.inj htags
  rw [hdelete, if_pos rfl, pruned, deleteItem, hremove]
  rfl

theorem deleteTag_tags {members : Members} :
    deleteTag lib opens (.obj [(tags, .obj members)]) tags = some (failure 400) := by
  rw [deleteTag, getObjectItem_tags]
  simp

theorem retrieveTag_absent (hself : name ≠ tags) {members : Members} {obj : List (Option CString)}
    (hcategory : obj[3]? = some (some "tag".toList)) (hlookup : members.lookup name = none) :
    retrieveTag lib (.obj [(tags, .obj members)]) obj name = some (failure 400) := by
  by_cases hsize : (children (.obj members)).length = 0
  · simp only [retrieveTag, getObjectItem_tags, if_pos hsize]
  · simp only [retrieveTag, getObjectItem_tags, if_neg hsize, if_neg hself.symm, hcategory,
      if_pos, findKey_obj, hlookup]

theorem createObject_stores (hlib : lib.Lawful) (h : Represents lib file s)
    (hname : tagDest lib reqMsg = some name)
    (hcreate : createObject lib opens file reqMsg = some out) (hstatus : out.status = 201) :
    ∃ value, (loadConfig lib file).bind tagList = some s.tags ∧ s.tags.lookup name = none ∧
      out.file file = some (lib.print (.obj [(tags, .obj (s.tags ++ [(name, value)]))])) := by
  obtain ⟨out', hout', hanswer⟩ := createObject_answer hname
  obtain rfl := Option.some.inj (hcreate.symm.trans hout')
  obtain ⟨json, fields, hload, _, hfree, hwritten⟩ := hanswer.stores (.inr hstatus)
  obtain ⟨hlist, hlookup, hrebuilt⟩ := rebuilt_of_free fields h hlib hload hfree
  refine ⟨.obj (stored fields), ?_, hlookup, ?_⟩
  · rw [hload, Option.bind_some, hlist]
  · rw [Outcome.file, hwritten, hrebuilt]
    rfl

/-- A delete takes a create back unless the tag has the name of the object that holds the
tags, which delete refuses. -/
theorem deleteObject_undoes_iff (hlib : lib.Lawful) {file₀ : Option CString}
    (hfile : file₀ = none ∨ file₀ = some []) {tr : List (Option CString × Request)}
    (hrun : Run (Step lib) file₀ tr file) (hname : tagDest lib reqMsg = some name)
    (hdelete : tagDest lib delMsg = some name) (hget : tagDest lib getMsg = some name)
    (hcreate : createObject lib opens file reqMsg = some out) (hstatus : out.status = 201) :
    Undoes lib cfg clients file (out.file file) delMsg getMsg ↔ name ≠ tags := by
  obtain ⟨s, hs⟩ := (represents_of_run hlib hfile hrun).2
  obtain ⟨value, hmembers, hlookup, hstored⟩ := createObject_stores hlib hs hname hcreate hstatus
  have hdeleted : deleteObject lib true (out.file file) delMsg =
      deleteTag lib true (.obj [(tags, .obj (s.tags ++ [(name, value)]))]) name := by
    rw [deleteObject_of_tagDest hdelete, hstored, openConfig_print hlib]
  constructor
  · intro h
    obtain ⟨deleted, _, _, hout, hok, _⟩ := h
    intro hself
    rw [hdeleted, hself, deleteTag_tags] at hout
    obtain rfl := Option.some.inj hout
    cases hok
  · intro hself
    have hopen := openConfig_print hlib (.obj [(tags, .obj s.tags)])
    obtain ⟨obj, hcategory, hretrieve⟩ := retrieveObject_of_tagDest cfg clients
      (some (lib.print (.obj [(tags, .obj s.tags)]))) hget
    rw [hopen] at hretrieve
    refine ⟨_, s.tags, failure 400, hdeleted.trans (deleteTag_append hself hlookup), rfl,
      hmembers, hopen, ?_, by decide⟩
    exact hretrieve.trans (retrieveTag_absent hself hcategory hlookup)

end Undo

section Inputs

def createTags : CrudMsg := crudMsg "mac:14cfe2142144/parodus/tag/tags" "\x7b\"expires\":5\x7d"

def tagsConfig : Option CString :=
  some "\x7b\"tags\":\x7b\"tags\":\x7b\"expires\":5\x7d\x7d\x7d".toList

theorem createTags_dest : tagDest compactLib createTags = some tags := by
  simp only [createTags, crudMsg, tags, String.reduceToList]
  decide

end Inputs

theorem deleteFoo_undoes :
    Undoes compactLib writable.cfg writable.clients none (createdFoo.file none) createFoo.reqMsg
      createFoo.reqMsg := by
  have hname : "Foo".toList ≠ tags := by
    simp only [tags, String.reduceToList]
    decide
  exact (deleteObject_undoes_iff compactLib_lawful (.inl rfl) (.nil none) createFoo_dest
    createFoo_dest createFoo_dest createObject_createFoo rfl).mpr hname

/-- A tag named "tags" is created, and neither deleted nor found again. -/
theorem createTags_not_undone :
    Run (Step compactLib) none [] none ∧ tagDest compactLib createTags = some tags ∧
    (createObject compactLib true none createTags).map Outcome.status = some 201 ∧
    (createObject compactLib true none createTags).map (·.file none) = some tagsConfig ∧
    ¬ Undoes compactLib writable.cfg writable.clients none tagsConfig createTags createTags := by
  refine ⟨.nil none, createTags_dest, ?_, ?_, ?_⟩
  · simp only [createTags, crudMsg, String.reduceToList]
    decide
  · simp only [createTags, crudMsg, tagsConfig, String.reduceToList]
    decide
  · intro h
    obtain ⟨deleted, _, _, hout, hok, _⟩ := h
    have hrefused : deleteObject compactLib true tagsConfig createTags = some (failure 400) := by
      simp only [createTags, crudMsg, tagsConfig, String.reduceToList]
      decide
    obtain rfl := Option.some.inj (hrefused.symm.trans hout)
    cases hok

end Parodus.Crud
