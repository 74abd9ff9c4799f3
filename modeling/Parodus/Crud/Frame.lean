import Parodus.Crud.RoundTrip

namespace Parodus.Crud

open Foundation

/-- The value of "tags" without the entries of one name; an absent "tags" and an
empty one are alike. -/
def withoutTag (name : CString) : Option Json → Json
  | none => .obj []
  | some (.obj members) => .obj (Assoc.others name members)
  | some value => value

/-- The members of the config file before and after a request differ in the
entry of that name under "tags" only. -/
def OnlyTagDiffers (name : CString) (before after : Members) : Prop :=
  Assoc.remove tags after = Assoc.remove tags before ∧
    withoutTag name (after.lookup tags) = withoutTag name (before.lookup tags)

/-- The config files that a request keeps but for the tag: create and update need
"tags" in front and no array, delete needs it in this case. -/
def KeepsConfig (lib : Lib) (type : CrudType) (before : Members) : Prop :=
  match type with
  | .delete => ∃ tagObj, getObjectItem (some (.obj before)) tags = some tagObj ∧
      tagObj.string = tags
  | _ => before = [] ∨ ∃ value rest, before = (tags, value) :: rest ∧
      (∀ items, value ≠ .arr items) ∧ (lib.keepsNext = true ∨ rest = [])

variable {lib : Lib} {file : Option CString} {name : CString} {fields before after : Members}
  {request : Request} {out : Outcome}

theorem loadConfig_of_openConfig {config : Json} (h : openConfig lib file = some config) :
    loadConfig lib file = some (some config) := by
  cases file with
  | none => cases h
  | some text =>
    cases text with
    | nil => cases h
    | cons c cs =>
      have hparse : lib.parse (c :: cs) = some config := by simpa [openConfig, readFromJSON] using h
      simp [loadConfig, readFromJSON, hparse]

theorem withoutTag_addItemToObject (value item : Json) :
    withoutTag name (some (addItemToObject (deleteItem name value) name item)) =
      withoutTag name (some value) ↔ ∀ items, value ≠ .arr items := by
  cases value with
  | obj members =>
    refine iff_of_true ?_ (fun items h ↦ by cases h)
    exact congrArg Json.obj (Assoc.others_put name item members)
  | arr items =>
    refine iff_of_false ?_ (fun h ↦ h items rfl)
    intro h
    have hlength := congrArg List.length (Json.arr.inj h)
    simp at hlength
  | _ => exact iff_of_true rfl (fun items h ↦ by cases h)

theorem strcaseeq_tags_of_mem {prev : Members} (h : ∀ m ∈ prev, strcaseeq tags m.1 = false)
    {value : Json} : (tags, value) ∉ prev := by
  intro hmem
  have hself := h _ hmem
  rw [strcaseeq_self] at hself
  cases hself

theorem tagsFirst_iff {prev next : Members} {string : CString} {value : Json}
    {Q : Json → Members → Prop} (hprev : ∀ m ∈ prev, strcaseeq tags m.1 = false) :
    (prev ++ (string, value) :: next = [] ∨ ∃ value' rest,
      prev ++ (string, value) :: next = (tags, value') :: rest ∧ Q value' rest) ↔
      (prev = [] ∧ string = tags) ∧ Q value next := by
  constructor
  · intro hor
    rcases hor with h | ⟨value', rest, h, hq⟩
    · exact absurd h (by simp)
    cases prev with
    | nil =>
      obtain ⟨hmember, rfl⟩ := List.cons.inj h
      obtain ⟨rfl, rfl⟩ := Prod.mk.inj hmember
      exact ⟨⟨rfl, rfl⟩, hq⟩
    | cons p ps =>
      obtain rfl := (List.cons.inj h).1
      exact absurd List.mem_cons_self (strcaseeq_tags_of_mem hprev)
  · intro hand
    obtain ⟨⟨rfl, rfl⟩, hq⟩ := hand
    exact .inr ⟨value, next, rfl, hq⟩

theorem keptNext_eq_append_iff {prev next : Members} :
    (if lib.keepsNext then next else []) = prev ++ next ↔
      prev = [] ∧ (lib.keepsNext = true ∨ next = []) := by
  cases lib.keepsNext <;> simp

/-- Without "tags" the new file holds nothing else. -/
theorem rebuilt_onlyTagDiffers_of_none (htags : getObjectItem (some (.obj before)) tags = none) :
    OnlyTagDiffers name before
      ((tags, rebuiltTags (some (.obj before)) name fields) ::
        broughtAlong lib (some (.obj before))) ↔ before = [] := by
  have hothers : withoutTag name (some (rebuiltTags (some (.obj before)) name fields)) =
      .obj [] := by
    simp [rebuiltTags, htags, withoutTag, Assoc.others]
  rw [OnlyTagDiffers, Assoc.remove_cons_self, List.lookup_cons_self, hothers, broughtAlong, htags,
    Assoc.remove_eq_self (lookup_eq_none_of_getObjectItem htags),
    lookup_eq_none_of_getObjectItem htags]
  constructor
  · exact fun h ↦ h.1.symm
  · rintro rfl
    exact ⟨rfl, rfl⟩

theorem rebuilt_onlyTagDiffers_of_some {prev next : Members} {string : CString} {value : Json}
    (htags : getObjectItem (some (.obj (prev ++ (string, value) :: next))) tags =
      some ⟨prev, string, value, next⟩) (hprev : ∀ m ∈ prev, strcaseeq tags m.1 = false) :
    OnlyTagDiffers name (prev ++ (string, value) :: next)
      ((tags, rebuiltTags (some (.obj (prev ++ (string, value) :: next))) name fields) ::
        broughtAlong lib (some (.obj (prev ++ (string, value) :: next)))) ↔
      (prev = [] ∧ string = tags) ∧
        (∀ items, value ≠ .arr items) ∧ (lib.keepsNext = true ∨ next = []) := by
  have hgone := lookup_eq_none_of_strcaseeq hprev
  simp only [rebuiltTags, broughtAlong, htags]
  rw [OnlyTagDiffers, Assoc.remove_cons_self, List.lookup_cons_self,
    Assoc.remove_append_of_lookup_eq_none hgone, List.lookup_append, hgone, Option.none_or]
  by_cases hexact : string = tags
  · subst hexact
    rw [Assoc.remove_cons_self, List.lookup_cons_self, withoutTag_addItemToObject,
      keptNext_eq_append_iff]
    constructor
    · intro hand
      obtain ⟨⟨hprev, hkept⟩, harr⟩ := hand
      exact ⟨⟨hprev, rfl⟩, harr, hkept⟩
    · intro hand
      obtain ⟨⟨hprev, _⟩, harr, hkept⟩ := hand
      exact ⟨⟨hprev, hkept⟩, harr⟩
  · refine iff_of_false ?_ (fun h ↦ hexact h.1.2)
    intro hand
    obtain ⟨hkept, _⟩ := hand
    rw [Assoc.remove_cons_of_ne hexact] at hkept
    cases hkeeps : lib.keepsNext with
    | true =>
      rw [hkeeps] at hkept
      exact Assoc.append_cons_remove_ne_self hexact hgone hkept.symm
    | false =>
      rw [hkeeps] at hkept
      cases prev <;> cases hkept

theorem rebuilt_onlyTagDiffers_iff :
    OnlyTagDiffers name before
      ((tags, rebuiltTags (some (.obj before)) name fields) ::
        broughtAlong lib (some (.obj before))) ↔
      before = [] ∨ ∃ value rest, before = (tags, value) :: rest ∧
        (∀ items, value ≠ .arr items) ∧ (lib.keepsNext = true ∨ rest = []) := by
  cases htags : getObjectItem (some (.obj before)) tags with
  | none =>
    have hnone := getObjectItem_eq_none_iff.mp htags
    rw [rebuilt_onlyTagDiffers_of_none htags]
    refine ⟨Or.inl, fun hor ↦ ?_⟩
    obtain h | ⟨value, rest, rfl, _⟩ := hor
    · exact h
    · exact absurd List.mem_cons_self (strcaseeq_tags_of_mem hnone)
  | some tagObj =>
    obtain ⟨prev, string, value, next⟩ := tagObj
    obtain ⟨hbefore, _, hprev⟩ := getObjectItem_eq_some htags
    obtain rfl := Json.obj.inj (Option.some.inj hbefore)
    rw [rebuilt_onlyTagDiffers_of_some htags hprev, tagsFirst_iff hprev]

theorem pruned_onlyTagDiffers_iff {tagObj : Item} {members : Members} {value : Json}
    (htags : getObjectItem (some (.obj before)) tags = some tagObj)
    (hobj : tagObj.value = .obj members) (hvalue : members.lookup name = some value) :
    OnlyTagDiffers name before
      (tagObj.prev ++ (tagObj.string, deleteItem name tagObj.value) :: tagObj.next) ↔
      tagObj.string = tags := by
  obtain ⟨prev, string, found, next⟩ := tagObj
  obtain ⟨hbefore, _, hprev⟩ := getObjectItem_eq_some htags
  obtain rfl := Json.obj.inj (Option.some.inj hbefore)
  obtain rfl : found = .obj members := hobj
  have hgone := lookup_eq_none_of_strcaseeq hprev
  rw [OnlyTagDiffers, Assoc.remove_append_of_lookup_eq_none hgone,
    Assoc.remove_append_of_lookup_eq_none hgone, List.lookup_append, List.lookup_append, hgone,
    Option.none_or, Option.none_or]
  by_cases hexact : string = tags
  · subst hexact
    refine iff_of_true ?_ rfl
    rw [Assoc.remove_cons_self, Assoc.remove_cons_self, List.lookup_cons_self,
      List.lookup_cons_self]
    exact ⟨rfl, congrArg Json.obj (Assoc.others_remove name members)⟩
  · refine iff_of_false ?_ hexact
    intro hex
    obtain ⟨hothers, _⟩ := hex
    rw [Assoc.remove_cons_of_ne hexact, Assoc.remove_cons_of_ne hexact] at hothers
    have hpair := (List.cons.inj (List.append_cancel_left hothers)).1
    exact Assoc.remove_ne_self hvalue (Json.obj.inj (Prod.mk.inj hpair).2)

theorem put_onlyTagDiffers_iff (hlib : lib.Lawful) {opens closeRetry : Bool} {reqMsg : CrudMsg}
    (hname : tagDest lib reqMsg = some name)
    (hput : createObject lib opens file reqMsg = some out ∨
      updateObject lib opens closeRetry file reqMsg = some out)
    (hok : out.status = 200 ∨ out.status = 201)
    (hopen : openConfig lib file = some (.obj before)) {text : CString}
    (hwritten : out.written = some text) (hafter : lib.parse text = some (.obj after)) :
    OnlyTagDiffers name before after ↔ before = [] ∨ ∃ value rest, before = (tags, value) :: rest ∧
      (∀ items, value ≠ .arr items) ∧ (lib.keepsNext = true ∨ rest = []) := by
  obtain ⟨json, fields, hload, _, _, hrebuilt⟩ := put_stores hname hput hok
  obtain rfl := Option.some.inj ((loadConfig_of_openConfig hopen).symm.trans hload)
  obtain rfl := Option.some.inj (hrebuilt.symm.trans hwritten)
  rw [hlib.parse_print, rebuilt] at hafter
  obtain rfl := Json.obj.inj (Option.some.inj hafter)
  exact rebuilt_onlyTagDiffers_iff

/-- A rewritten file differs from the old one in the tag alone exactly when the
old one has the shape that the handler keeps. -/
theorem rewrittenFile_onlyTagDiffers_iff (hlib : lib.Lawful)
    (hname : tagDest lib request.reqMsg = some name) (htype : request.type ≠ .retrieve)
    (hout : processCrudRequest lib file request = some out)
    (hok : out.status = 200 ∨ out.status = 201)
    (hopen : openConfig lib file = some (.obj before)) {text : CString}
    (hwritten : out.written = some text) (hafter : lib.parse text = some (.obj after)) :
    OnlyTagDiffers name before after ↔ KeepsConfig lib request.type before := by
  obtain ⟨type, reqMsg, env⟩ := request
  cases type with
  | create =>
    obtain ⟨out, hcreate, rfl⟩ := Option.map_eq_some_iff.mp hout
    rw [dropPayloadOnFailure_status] at hok
    rw [dropPayloadOnFailure_written] at hwritten
    have hput : createObject lib env.opens file reqMsg = some out ∨
        updateObject lib env.opens env.closeRetry file reqMsg = some out := .inl hcreate
    exact put_onlyTagDiffers_iff hlib hname hput hok hopen hwritten hafter
  | update =>
    obtain ⟨out, hupdate, rfl⟩ := Option.map_eq_some_iff.mp hout
    rw [dropPayloadOnSuccess_status] at hok
    rw [dropPayloadOnSuccess_written] at hwritten
    exact put_onlyTagDiffers_iff hlib hname (.inr hupdate) hok hopen hwritten hafter
  | delete =>
    obtain ⟨out, hdelete, rfl⟩ := Option.map_eq_some_iff.mp hout
    rw [dropPayloadOnSuccess_written] at hwritten
    obtain ⟨config, tagObj, hconfig, hadmits, htags, _, hpruned⟩ | ⟨_, hnone, _⟩ :=
      deleteObject_eq_some hname hdelete
    · obtain rfl := Option.some.inj (hopen.symm.trans hconfig)
      rw [hwritten] at hpruned
      obtain ⟨_, htext⟩ := Option.ite_none_right_eq_some.mp hpruned.symm
      obtain rfl := Option.some.inj htext
      rw [hlib.parse_print, pruned] at hafter
      obtain rfl := Json.obj.inj (Option.some.inj hafter)
      obtain ⟨tagObj', htags', _, value, hholds⟩ := hadmits
      obtain rfl := Option.some.inj (htags.symm.trans htags')
      obtain ⟨members, hobj, hvalue⟩ := (holds_iff htags).mp hholds
      rw [pruned_onlyTagDiffers_iff htags hobj hvalue]
      constructor
      · exact fun h ↦ ⟨tagObj, htags, h⟩
      · intro hex
        obtain ⟨tagObj', htags', h⟩ := hex
        obtain rfl := Option.some.inj (htags.symm.trans htags')
        exact h
    · rw [hnone] at hwritten
      cases hwritten
  | retrieve => exact absurd rfl htype

section Inputs

def sharedConfig : Members := [("version".toList, .num 1)]

end Inputs

theorem createFoo_onlyTagDiffers :
    OnlyTagDiffers "Foo".toList [] [(tags, .obj [("Foo".toList, .obj expiresFive)])] := by
  have hout : processCrudRequest compactLib (some (compactLib.print (.obj []))) createFoo =
      some createdFoo := by
    simp only [createFoo, crudMsg, createdFoo, fooConfig, String.reduceToList]
    decide
  have hafter : compactLib.parse "\x7b\"tags\":\x7b\"Foo\":\x7b\"expires\":5\x7d\x7d\x7d".toList =
      some (.obj [(tags, .obj [("Foo".toList, .obj expiresFive)])]) := by
    simp only [String.reduceToList]
    decide
  exact (rewrittenFile_onlyTagDiffers_iff compactLib_lawful createFoo_dest (by decide) hout
    (.inr rfl) (openConfig_print compactLib_lawful _) rfl hafter).mpr (.inl rfl)

/-- A successful create drops the other members of the file. -/
theorem createFoo_drops_version :
    processCrudRequest compactLib (some (compactLib.print (.obj sharedConfig))) createFoo =
      some createdFoo ∧
    createdFoo.status = 201 ∧
    createdFoo.written = some (compactLib.print
      (.obj [(tags, .obj [("Foo".toList, .obj expiresFive)])])) ∧
    ¬ OnlyTagDiffers "Foo".toList sharedConfig
      [(tags, .obj [("Foo".toList, .obj expiresFive)])] := by
  refine ⟨?_, rfl, ?_, fun h ↦ ?_⟩
  · simp only [createFoo, crudMsg, createdFoo, fooConfig, String.reduceToList]
    decide
  · simp only [createdFoo, fooConfig, String.reduceToList]
    decide
  · have hkept := h.1
    revert hkept
    decide

end Parodus.Crud
