import Parodus.Crud.TagStore

namespace Parodus.Crud

open Foundation Foundation.Runs

def tagNames (lib : Lib) (file : Option CString) : List CString :=
  match (openConfig lib file).bind fun config ↦ getObjectItem (some config) tags with
  | some tagObj => (children tagObj.value).filterMap Prod.fst
  | none => []

variable {lib : Lib} {file file' : Option CString} {s : TagStore} {name : CString}
  {fields : Members} {reqMsg : CrudMsg} {closeRetry : Bool}

theorem Represents.tagNames (hlib : lib.Lawful) (h : Represents lib file s) :
    tagNames lib file = s.tags.map Prod.fst := by
  rcases h.loadConfig hlib with ⟨_, hopen, rfl⟩ | ⟨_, hopen⟩
  · rw [Crud.tagNames, hopen]
    rfl
  · rw [Crud.tagNames, hopen, Option.bind_some, getObjectItem_config]
    simp [children, List.filterMap_map]

theorem lookup_isSome_iff_mem_names {members : Members} :
    (members.lookup name).isSome ↔ name ∈ members.map Prod.fst := by
  rw [List.lookup_isSome_iff]
  constructor
  · intro hex
    obtain ⟨m, hm, heq⟩ := hex
    exact List.mem_map.mpr ⟨m, hm, (eq_of_beq heq).symm⟩
  · intro h
    obtain ⟨m, hm, rfl⟩ := List.mem_map.mp h
    exact ⟨m, hm, BEq.rfl⟩

theorem Represents.name_cases (hlib : lib.Lawful) (h : Represents lib file s) (name : CString) :
    ∃ json, Crud.loadConfig lib file = some json ∧
      ((Free json name ∧ ∀ n ∈ Crud.tagNames lib file, strcaseeq name n = false) ∨
        ∃ tagObj item, getObjectItem json tags = some tagObj ∧ tagObj.value = .obj s.tags ∧
          getObjectItem (some tagObj.value) name = some item ∧
          ¬ ∀ n ∈ Crud.tagNames lib file, strcaseeq name n = false) := by
  rw [h.tagNames hlib]
  simp only [List.forall_mem_map]
  rcases h.loadConfig hlib with ⟨hload, _, rfl⟩ | ⟨hload, _⟩
  · exact ⟨none, hload, .inl ⟨free_none, List.forall_mem_nil _⟩⟩
  · refine ⟨some s.config, hload, ?_⟩
    cases hitem : getObjectItem (some (.obj s.tags)) name with
    | none =>
      have hfree := getObjectItem_eq_none_iff.mp hitem
      exact .inl ⟨free_config_iff.mpr hfree, hfree⟩
    | some item =>
      refine .inr ⟨_, item, getObjectItem_config s, rfl, hitem, fun hfree ↦ ?_⟩
      rw [getObjectItem_eq_none_iff.mpr hfree] at hitem
      cases hitem

theorem not_mem_of_free {names : List CString}
    (h : ∀ n ∈ names, strcaseeq name n = false) : name ∉ names := by
  intro hmem
  have hself := h name hmem
  rw [strcaseeq_self] at hself
  cases hself

theorem createObject_status (hlib : lib.Lawful) (h : Represents lib file s)
    (hname : tagDest lib reqMsg = some name) (hacc : Accepts lib reqMsg.payload fields) :
    ∃ out, createObject lib true file reqMsg = some out ∧
      out.status = if name ∈ tagNames lib file then 409
        else if ∀ n ∈ tagNames lib file, strcaseeq name n = false then 201 else 500 := by
  have hcheck := checkPayload_of_accepts hacc
  rw [createObject_of_tagDest hname]
  obtain ⟨json, hload, ⟨hfree, hnames⟩ | ⟨tagObj, item, htags, hobj, hitem, hnames⟩⟩ :=
    h.name_cases hlib name
  · refine ⟨_, by rw [hload]; exact createTag_of_free hacc hfree, ?_⟩
    rw [if_neg (not_mem_of_free hnames), if_pos hnames]
    rfl
  · refine ⟨_, by rw [hload]; exact createTag_of_taken htags hobj hitem hcheck, ?_⟩
    rw [if_neg hnames, h.tagNames hlib]
    simp only [lookup_isSome_iff_mem_names]
    rfl

theorem updateObject_status (hlib : lib.Lawful) (h : Represents lib file s)
    (hname : tagDest lib reqMsg = some name) (hacc : Accepts lib reqMsg.payload fields) :
    ∃ out, updateObject lib true closeRetry file reqMsg = some out ∧
      out.status = if name ∈ tagNames lib file then 200
        else if ∀ n ∈ tagNames lib file, strcaseeq name n = false then 201 else 500 := by
  rw [updateObject_of_tagDest hname]
  obtain ⟨json, hload, ⟨hfree, hnames⟩ | ⟨tagObj, item, htags, hobj, hitem, hnames⟩⟩ :=
    h.name_cases hlib name
  · refine ⟨_, by rw [hload]; exact updateTag_of_free hacc hfree, ?_⟩
    rw [if_neg (not_mem_of_free hnames), if_pos hnames]
    rfl
  · refine ⟨_, by rw [hload]; exact updateTag_of_taken htags hobj hitem hacc, ?_⟩
    rw [if_neg hnames, h.tagNames hlib]
    simp only [lookup_isSome_iff_mem_names]
    split <;> rfl

/-- In every store a run reaches, create and update answer like a map keyed by
the exact name precisely for the names that are stored exactly, or whose case
variants are all absent. -/
theorem tagStore_exact_iff (hlib : lib.Lawful) {file₀ : Option CString}
    (hfile : file₀ = none ∨ file₀ = some []) {tr : List (Option CString × Request)}
    (hrun : Run (Step lib) file₀ tr file) (hname : tagDest lib reqMsg = some name)
    (hacc : Accepts lib reqMsg.payload fields) :
    ((∃ out, createObject lib true file reqMsg = some out ∧
        out.status = if name ∈ tagNames lib file then 409 else 201) ∧
      ∃ out, updateObject lib true closeRetry file reqMsg = some out ∧
        out.status = if name ∈ tagNames lib file then 200 else 201) ↔
      name ∈ tagNames lib file ∨ ∀ n ∈ tagNames lib file, strcaseeq name n = false := by
  obtain ⟨s, hs⟩ := (represents_of_run hlib hfile hrun).2
  obtain ⟨created, hcreate, hcreated⟩ := createObject_status hlib hs hname hacc
  obtain ⟨updated, hupdate, hupdated⟩ :=
    updateObject_status hlib hs hname hacc
  rw [hcreate, hupdate]
  simp only [Option.some.injEq, exists_eq_left']
  rw [hcreated, hupdated]
  by_cases hmem : name ∈ tagNames lib file
  · refine iff_of_true ⟨?_, ?_⟩ (.inl hmem)
    · rw [if_pos hmem, if_pos hmem]
    · rw [if_pos hmem, if_pos hmem]
  rw [if_neg hmem, if_neg hmem, if_neg hmem, if_neg hmem]
  by_cases hfree : ∀ n ∈ tagNames lib file, strcaseeq name n = false
  · rw [if_pos hfree]
    exact iff_of_true ⟨rfl, rfl⟩ (.inr hfree)
  · rw [if_neg hfree]
    refine iff_of_false ?_ (not_or.mpr ⟨hmem, hfree⟩)
    intro hex
    obtain ⟨h, _⟩ := hex
    cases h

section Inputs

def expiresFive : Members := [(expires, .num 5)]

theorem expiresFive_valid : Valid expiresFive := ⟨by decide, by decide, by decide⟩

def lowerFoo : CrudMsg := crudMsg "mac:14cfe2142144/parodus/tag/foo" "\x7b\"expires\":5\x7d"

theorem lowerFoo_dest : tagDest compactLib lowerFoo = some "foo".toList := by
  simp only [lowerFoo, crudMsg, String.reduceToList]
  decide

theorem accepts_lowerFoo : Accepts compactLib lowerFoo.payload expiresFive := by
  refine ⟨?_, expiresFive_valid⟩
  simp only [lowerFoo, crudMsg, String.reduceToList]
  decide

theorem accepts_createFoo : Accepts compactLib createFoo.reqMsg.payload expiresFive := by
  refine ⟨?_, expiresFive_valid⟩
  simp only [createFoo, crudMsg, String.reduceToList]
  decide

theorem tagNames_fooConfig : tagNames compactLib fooConfig = ["Foo".toList] := by
  simp only [fooConfig, String.reduceToList]
  decide

end Inputs

theorem tagStore_exact_foo :
    (∃ out, createObject compactLib true fooConfig createFoo.reqMsg = some out ∧
      out.status = if "Foo".toList ∈ tagNames compactLib fooConfig then 409 else 201) ∧
    ∃ out, updateObject compactLib true false fooConfig createFoo.reqMsg = some out ∧
      out.status = if "Foo".toList ∈ tagNames compactLib fooConfig then 200 else 201 :=
  (tagStore_exact_iff compactLib_lawful (.inl rfl) run_createFoo createFoo_dest
    accepts_createFoo).mpr (.inl (tagNames_fooConfig ▸ List.mem_cons_self))

/-- Once "Foo" is stored, a valid create of "foo" is answered with 500. -/
theorem createObject_foo_fails :
    (∃ tr, Run (Step compactLib) none tr fooConfig) ∧
    tagDest compactLib lowerFoo = some "foo".toList ∧
    Accepts compactLib lowerFoo.payload expiresFive ∧
    "foo".toList ∉ tagNames compactLib fooConfig ∧
    createObject compactLib true fooConfig lowerFoo = some (failure 500) := by
  refine ⟨⟨_, run_createFoo⟩, lowerFoo_dest, accepts_lowerFoo, ?_, ?_⟩
  · rw [tagNames_fooConfig]
    simp only [String.reduceToList]
    decide
  · simp only [lowerFoo, crudMsg, fooConfig, String.reduceToList]
    decide

end Parodus.Crud
