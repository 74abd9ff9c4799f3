import Parodus.Crud.TagMap

namespace Parodus.Crud

open Foundation Clients

def Int32 (q : ℚ) : Prop := ∃ z : ℤ, q = z ∧ -2147483648 ≤ z ∧ z ≤ 2147483647

def tagList (json : Option Json) : Option Members :=
  match getObjectItem json tags with
  | some tagObj =>
    match tagObj.value with
    | .obj members => some members
    | _ => none
  | none => some []

/-- A retrieve of the tag is answered with an object of exactly these members. -/
def Retrieves (lib : Lib) (cfg : ParodusCfg) (clients : ClientList) (file : Option CString)
    (reqMsg : CrudMsg) (fields : Members) : Prop :=
  ∃ out read, retrieveObject lib cfg clients file reqMsg = some out ∧ out.status = 200 ∧
    out.payload.bind lib.parse = some (.obj read) ∧ read.Perm fields

/-- The conditions on the file and the payload under which a written tag reads
back: the tag has a name of its own, "tags" is an object or absent, and all
numbers are `int`s. Where the file holds the name more than once, the second of
them is read, and has to read back as the payload. -/
def RoundTrips (lib : Lib) (file : Option CString) (name : CString) (fields : Members) : Prop :=
  name ≠ tags ∧ ∃ json members, loadConfig lib file = some json ∧ tagList json = some members ∧
    match (Assoc.remove name members).lookup name with
    | none => ∀ m ∈ fields, ∀ q, m.2 = .num q → Int32 q
    | some other => (readFields (children other)).Perm fields

variable {lib : Lib} {opens closeRetry : Bool} {file : Option CString} {json : Option Json}
  {name : CString} {fields : Members} {reqMsg getMsg : CrudMsg} {cfg : ParodusCfg}
  {clients : ClientList} {out : Outcome}

theorem valueint_eq_self_iff {q : ℚ} : (valueint q : ℚ) = q ↔ Int32 q := by
  constructor
  · intro h
    refine ⟨valueint q, h.symm, ?_, ?_⟩ <;> unfold valueint <;> omega
  · intro hex
    obtain ⟨z, rfl, hlow, hhigh⟩ := hex
    rw [valueint_intCast hlow hhigh]

theorem fieldValue_eq_self_iff {value : Json} (h : (fieldValue value).isSome = true) :
    fieldValue value = some value ↔ ∀ q, value = .num q → Int32 q := by
  cases value with
  | num q =>
    simp only [fieldValue, Option.some.injEq, Json.num.injEq, forall_eq']
    exact valueint_eq_self_iff
  | str s => simp [fieldValue]
  | _ => cases h

theorem stored_perm_iff_int32 (h : Valid fields) :
    (stored fields).Perm fields ↔ ∀ m ∈ fields, ∀ q, m.2 = .num q → Int32 q := by
  rw [stored_perm_iff]
  exact forall₂_congr fun m hm ↦ fieldValue_eq_self_iff (h.types m hm)

theorem stored_stored (members : Members) : stored (stored members) = stored members :=
  stored_eq_self fun _ ↦ fieldValue_of_mem_stored

theorem rebuiltTags_of_tagList {members : Members} (h : tagList json = some members) :
    rebuiltTags json name fields = .obj (Assoc.put name (.obj (stored fields)) members) := by
  unfold tagList at h
  unfold rebuiltTags
  cases htags : getObjectItem json tags with
  | none =>
    rw [htags] at h
    obtain rfl := Option.some.inj h
    rfl
  | some tagObj =>
    cases hvalue : tagObj.value with
    | obj members' =>
      simp only [htags, hvalue, Option.some.injEq] at h
      subst h
      simp only [hvalue]
      rfl
    | _ => simp [htags, hvalue] at h

theorem rebuiltTags_of_tagList_none (h : tagList json = none) (members : Members) :
    rebuiltTags json name fields ≠ .obj members := by
  unfold tagList at h
  unfold rebuiltTags
  cases htags : getObjectItem json tags with
  | none => simp [htags] at h
  | some tagObj =>
    cases hvalue : tagObj.value with
    | obj members' => simp [htags, hvalue] at h
    | _ => simp [deleteItem, addItemToObject, hvalue]

theorem openConfig_print (hlib : lib.Lawful) (t : Json) :
    openConfig lib (some (lib.print t)) = some t := by
  have hparse := hlib.parse_print t
  cases htext : lib.print t with
  | nil =>
    rw [htext, hlib.parse_nil] at hparse
    cases hparse
  | cons c cs =>
    rw [htext] at hparse
    simp [openConfig, readFromJSON, hparse]

theorem tagName_eq_some {obj : List (Option CString)} {objlevel : ℕ}
    (h : tagName obj objlevel = some name) :
    objlevel = 4 ∧ obj[3]? = some (some "tag".toList) ∧ obj[4]?.join = some name := by
  unfold tagName at h
  obtain ⟨⟨hlevel, _, hcategory⟩, hname⟩ := Option.ite_none_right_eq_some.mp h
  exact ⟨hlevel, hcategory, hname⟩

theorem retrieveObject_of_tagDest (cfg : ParodusCfg) (clients : ClientList)
    (file : Option CString) (h : tagDest lib reqMsg = some name) :
    ∃ obj, obj[3]? = some (some "tag".toList) ∧
      retrieveObject lib cfg clients file reqMsg =
        match openConfig lib file with
        | none => some (failure 500)
        | some json => retrieveTag lib json obj name := by
  obtain ⟨dest, obj, objlevel, hdest, hparse, hname⟩ := tagDest_eq_some h
  obtain ⟨rfl, hcategory, hlast⟩ := tagName_eq_some hname
  have hkey : inMemoryKey obj 4 = none := by
    have hservice : ¬ "service-status".toList <:+: "tag".toList := by
      simp only [String.reduceToList]
      decide
    rw [inMemoryKey, hcategory, Option.join_some, Option.filter_some, if_neg]
    simpa using hservice
  refine ⟨obj, hcategory, ?_⟩
  cases hfile : openConfig lib file with
  | none => simp only [retrieveObject, hfile, withDest, hdest, hparse, hkey]
  | some json => simp only [retrieveObject, hfile, withDest, hdest, hparse, hkey, hlast]

theorem retrieves_respond_iff (hlib : lib.Lawful) {read : Members}
    (h : retrieveObject lib cfg clients file getMsg = some (respond lib (.obj read))) :
    Retrieves lib cfg clients file getMsg fields ↔ read.Perm fields := by
  have hparse : (respond lib (.obj read)).payload.bind lib.parse = some (.obj read) :=
    hlib.parse_print _
  constructor
  · intro hex
    obtain ⟨out, read', hout, _, hread', hperm⟩ := hex
    obtain rfl := Option.some.inj (h.symm.trans hout)
    obtain rfl := Json.obj.inj (Option.some.inj (hparse.symm.trans hread'))
    exact hperm
  · exact fun hperm ↦ ⟨_, read, h, rfl, hparse, hperm⟩

theorem not_retrieves_failure
    (h : retrieveObject lib cfg clients file getMsg = some (failure 400)) :
    ¬ Retrieves lib cfg clients file getMsg fields := by
  intro hex
  obtain ⟨out, _, hout, hstatus, _⟩ := hex
  obtain rfl := Option.some.inj (h.symm.trans hout)
  cases hstatus

theorem not_retrieves_none (h : retrieveObject lib cfg clients file getMsg = none) :
    ¬ Retrieves lib cfg clients file getMsg fields := by
  intro hex
  obtain ⟨out, _, hout, _⟩ := hex
  rw [h] at hout
  cases hout

theorem not_readTags_perm (hvalid : Valid fields) (value : Json) :
    ¬ (readTags value).Perm fields := by
  intro hperm
  obtain ⟨m, hm⟩ := List.exists_mem_of_ne_nil fields hvalid.ne_nil
  obtain ⟨tag, _, htag⟩ := List.mem_flatMap.mp (hperm.mem_iff.mpr hm)
  have htype := hvalid.types m hm
  obtain ⟨key, tagValue⟩ := tag
  cases key with
  | none => cases htag
  | some key =>
    rw [List.mem_singleton.mp htag] at htype
    cases htype

section Rebuilt

variable {obj : List (Option CString)}

theorem getObjectItem_rebuilt : getObjectItem (some (rebuilt lib json name fields)) tags =
    some ⟨[], tags, rebuiltTags json name fields, broughtAlong lib json⟩ :=
  getObjectItem_cons

theorem retrieveTag_rebuilt {members : Members} (hcategory : obj[3]? = some (some "tag".toList))
    (hself : name ≠ tags) (hlist : tagList json = some members) :
    retrieveTag lib (rebuilt lib json name fields) obj name =
      some (respond lib (.obj (match (Assoc.remove name members).lookup name with
        | none => stored fields
        | some other => readFields (children other)))) := by
  have hvalue : rebuiltTags json name fields =
      .obj (Assoc.put name (.obj (stored fields)) members) := rebuiltTags_of_tagList hlist
  have hsize : children (.obj (Assoc.put name (.obj (stored fields)) members)) ≠ [] := by
    simp [children, Assoc.put]
  have hlookup := Assoc.lookup_put_self name (.obj (stored fields)) members
  cases hother : (Assoc.remove name members).lookup name with
  | none =>
    rw [hother, Option.none_or] at hlookup
    simp [retrieveTag, getObjectItem_rebuilt, Ne.symm hself, hcategory, hvalue, hsize, hlookup,
      stored_stored]
  | some other =>
    rw [hother, Option.some_or] at hlookup
    simp [retrieveTag, getObjectItem_rebuilt, Ne.symm hself, hcategory, hvalue, hsize, hlookup]

/-- A tag named as the object that holds the tags is taken for that object. -/
theorem retrieveTag_rebuilt_self :
    retrieveTag lib (rebuilt lib json tags fields) obj tags = some (failure 400) ∨
      retrieveTag lib (rebuilt lib json tags fields) obj tags =
        some (respond lib (.obj (readTags (rebuiltTags json tags fields)))) := by
  by_cases hsize : (children (rebuiltTags json tags fields)).length = 0
  · left
    simp [retrieveTag, getObjectItem_rebuilt, hsize]
  · right
    simp [retrieveTag, getObjectItem_rebuilt, hsize]

theorem retrieveTag_rebuilt_unlisted (hcategory : obj[3]? = some (some "tag".toList))
    (hself : name ≠ tags) (hlist : tagList json = none) :
    retrieveTag lib (rebuilt lib json name fields) obj name = some (failure 400) ∨
      retrieveTag lib (rebuilt lib json name fields) obj name = none := by
  cases hvalue : rebuiltTags json name fields with
  | obj members => exact absurd hvalue (rebuiltTags_of_tagList_none hlist members)
  | arr items =>
    cases items with
    | nil =>
      left
      simp [retrieveTag, getObjectItem_rebuilt, hvalue, children]
    | cons x xs =>
      right
      simp [retrieveTag, getObjectItem_rebuilt, Ne.symm hself, hcategory, hvalue, children,
        findKey]
  | _ =>
    left
    simp [retrieveTag, getObjectItem_rebuilt, hvalue, children]

end Rebuilt

theorem retrieves_rebuilt_iff (hlib : lib.Lawful) (hget : tagDest lib getMsg = some name)
    (hvalid : Valid fields) :
    Retrieves lib cfg clients (some (lib.print (rebuilt lib json name fields))) getMsg fields ↔
      name ≠ tags ∧ ∃ members, tagList json = some members ∧
        match (Assoc.remove name members).lookup name with
        | none => ∀ m ∈ fields, ∀ q, m.2 = .num q → Int32 q
        | some other => (readFields (children other)).Perm fields := by
  obtain ⟨obj, hcategory, hretrieve⟩ := retrieveObject_of_tagDest cfg clients
    (some (lib.print (rebuilt lib json name fields))) hget
  rw [openConfig_print hlib] at hretrieve
  by_cases hself : name = tags
  · refine iff_of_false ?_ (fun h ↦ h.1 hself)
    subst hself
    rcases retrieveTag_rebuilt_self with hread | hread
    · exact not_retrieves_failure (hretrieve.trans hread)
    · rw [retrieves_respond_iff hlib (hretrieve.trans hread)]
      exact not_readTags_perm hvalid _
  rw [and_iff_right hself]
  cases hlist : tagList json with
  | none =>
    apply iff_of_false
    · rcases retrieveTag_rebuilt_unlisted hcategory hself hlist with hread | hread
      · exact not_retrieves_failure (hretrieve.trans hread)
      · exact not_retrieves_none (hretrieve.trans hread)
    · intro hex
      obtain ⟨members, hmembers, _⟩ := hex
      cases hmembers
  | some members =>
    have hread := hretrieve.trans (retrieveTag_rebuilt hcategory hself hlist)
    simp only [Option.some.injEq, exists_eq_left']
    rw [retrieves_respond_iff hlib hread]
    cases (Assoc.remove name members).lookup name with
    | none => exact stored_perm_iff_int32 hvalid
    | some other => exact Iff.rfl

/-- A write that is answered as a success reads back as the payload exactly when
the file and the payload meet the conditions. -/
theorem storedTag_retrieves_iff (hlib : lib.Lawful) (hname : tagDest lib reqMsg = some name)
    (hget : tagDest lib getMsg = some name)
    (hpayload : reqMsg.payload.bind lib.parse = some (.obj fields))
    (hput : createObject lib opens file reqMsg = some out ∨
      updateObject lib opens closeRetry file reqMsg = some out)
    (hok : out.status = 200 ∨ out.status = 201) :
    Retrieves lib cfg clients (out.file file) getMsg fields ↔ RoundTrips lib file name fields := by
  obtain ⟨json, fields', hload, ⟨hparse, hvalid⟩, _, hwritten⟩ := put_stores hname hput hok
  obtain rfl := Json.obj.inj (Option.some.inj (hpayload.symm.trans hparse))
  have hfile : out.file file = some (lib.print (rebuilt lib json name fields)) := by
    rw [Outcome.file, hwritten]
    rfl
  rw [hfile, retrieves_rebuilt_iff hlib hget hvalid, RoundTrips, hload]
  simp only [Option.some.injEq, exists_and_left, exists_eq_left']

section Inputs

theorem expiresFive_int32 : ∀ m ∈ expiresFive, ∀ q, m.2 = .num q → Int32 q := by
  intro m hm q hq
  obtain rfl := List.mem_singleton.mp hm
  obtain rfl := Json.num.inj hq
  exact ⟨5, rfl, by decide, by decide⟩

def createdFoo : Outcome where
  ret := 0
  status := 201
  payload := some "\x7b\"Foo\":\x7b\"expires\":5\x7d\x7d".toList
  written := fooConfig
  cloudDisconnect := none
  reconnectReason := none

theorem createObject_createFoo :
    createObject compactLib true none createFoo.reqMsg = some createdFoo := by
  simp only [createFoo, crudMsg, createdFoo, fooConfig, String.reduceToList]
  decide

def createLate : CrudMsg :=
  crudMsg "mac:14cfe2142144/parodus/tag/late" "\x7b\"expires\":4294967296\x7d"

def lateConfig : Option CString :=
  some "\x7b\"tags\":\x7b\"late\":\x7b\"expires\":2147483647\x7d\x7d\x7d".toList

end Inputs

theorem storedTag_retrieves_foo :
    Retrieves compactLib writable.cfg writable.clients (createdFoo.file none) createFoo.reqMsg
      expiresFive := by
  have hput : createObject compactLib true none createFoo.reqMsg = some createdFoo ∨
      updateObject compactLib true false none createFoo.reqMsg = some createdFoo :=
    .inl createObject_createFoo
  have hname : "Foo".toList ≠ tags := by
    simp only [tags, String.reduceToList]
    decide
  exact (storedTag_retrieves_iff compactLib_lawful createFoo_dest createFoo_dest
    accepts_createFoo.1 hput (.inr rfl)).mpr ⟨hname, none, [], rfl, rfl, expiresFive_int32⟩

/-- A number beyond the largest `int` is stored, and read back, as that one. -/
theorem createLate_not_retrieves :
    (createObject compactLib true none createLate).map Outcome.status = some 201 ∧
    (createObject compactLib true none createLate).map (·.file none) = some lateConfig ∧
    ¬ Retrieves compactLib writable.cfg writable.clients lateConfig createLate
      [(expires, .num 4294967296)] := by
  refine ⟨?_, ?_, ?_⟩
  · simp only [createLate, crudMsg, String.reduceToList]
    decide
  · simp only [createLate, crudMsg, lateConfig, String.reduceToList]
    decide
  have hread : retrieveObject compactLib writable.cfg writable.clients lateConfig createLate =
      some (respond compactLib (.obj [(expires, .num 2147483647)])) := by
    simp only [createLate, crudMsg, lateConfig, String.reduceToList]
    decide
  rw [retrieves_respond_iff compactLib_lawful hread]
  decide

end Parodus.Crud
