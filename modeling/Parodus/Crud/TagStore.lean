import Parodus.Crud.Tasks

namespace Parodus.Crud

open Foundation Foundation.Runs

/-- A named attribute that is a number or a string, and no empty string. -/
def ProperField (m : CString × Json) : Prop :=
  m.1 ≠ [] ∧ ((∃ q, m.2 = .num q) ∨ ∃ s, s ≠ [] ∧ m.2 = .str s)

/-- The value of a tag: proper attributes, among them when the tag expires. -/
def ProperTag (value : Json) : Prop :=
  ∃ fields, value = .obj fields ∧ (∀ m ∈ fields, ProperField m) ∧
    ∃ q, (expires, Json.num q) ∈ fields ∧ q ≠ 0

/-- What the config file is for: a map from names to attributes, in which no two
names differ in case only. -/
structure TagStore where
  tags : Members
  apart : Assoc.Apart strcaseeq tags
  proper : ∀ t ∈ tags, ProperTag t.2

namespace TagStore

def empty : TagStore := ⟨[], List.Pairwise.nil, List.forall_mem_nil _⟩

def get (s : TagStore) (name : CString) : Option Json := s.tags.lookup name

def put (s : TagStore) (name : CString) (value : Json) (hvalue : ProperTag value)
    (hname : Assoc.Fits strcaseeq name s.tags) : TagStore where
  tags := Assoc.put name value s.tags
  apart := s.apart.put strcaseeq_comm hname value
  proper := by
    intro t ht
    rcases List.mem_append.mp ht with ht | ht
    · exact s.proper t ((Assoc.remove_sublist name s.tags).subset ht)
    · rwa [List.mem_singleton.mp ht]

def remove (s : TagStore) (name : CString) : TagStore where
  tags := Assoc.remove name s.tags
  apart := s.apart.remove name
  proper t ht := s.proper t ((Assoc.remove_sublist name s.tags).subset ht)

def config (s : TagStore) : Json := .obj [(Crud.tags, .obj s.tags)]

variable {s : TagStore} {name other : CString} {value : Json} {hvalue : ProperTag value}
  {hname : Assoc.Fits strcaseeq name s.tags}

theorem get_remove_self (s : TagStore) (name : CString) : (s.remove name).get name = none :=
  s.apart.lookup_remove_self strcaseeq_self strcaseeq_comm name

theorem get_remove_of_ne (h : other ≠ name) : (s.remove name).get other = s.get other :=
  Assoc.lookup_remove_of_ne h

theorem get_put_self : (s.put name value hvalue hname).get name = some value := by
  have hgone : (Assoc.remove name s.tags).lookup name = none := s.get_remove_self name
  rw [get, put, Assoc.lookup_put_self, hgone]
  rfl

theorem get_put_of_ne (h : other ≠ name) :
    (s.put name value hvalue hname).get other = s.get other :=
  Assoc.lookup_put_of_ne h

theorem get_remove : (s.remove name).get = Function.update s.get name none := by
  funext other
  by_cases h : other = name
  · rw [h, Function.update_self, get_remove_self]
  · rw [Function.update_of_ne h, get_remove_of_ne h]

theorem get_put :
    (s.put name value hvalue hname).get = Function.update s.get name (some value) := by
  funext other
  by_cases h : other = name
  · rw [h, Function.update_self, get_put_self]
  · rw [Function.update_of_ne h, get_put_of_ne h]

end TagStore

theorem exists_expires {fields : Members} (h : checkExpires (children (.obj fields)) = true) :
    ∃ q, (expires, Json.num q) ∈ fields ∧ valueint q ≠ 0 := by
  induction fields with
  | nil => cases h
  | cons m fields ih =>
    obtain ⟨key, value⟩ := m
    have hrest : checkExpires (children (.obj fields)) = true →
        ∃ q, (expires, Json.num q) ∈ (key, value) :: fields ∧ valueint q ≠ 0 := by
      intro hfields
      obtain ⟨q, hq, hne⟩ := ih hfields
      exact ⟨q, List.mem_cons_of_mem _ hq, hne⟩
    cases value with
    | num q =>
      by_cases hkey : key = expires
      · subst hkey
        have hne : valueint q ≠ 0 := by simpa [children, checkExpires] using h
        exact ⟨q, List.mem_cons_self, hne⟩
      · apply hrest
        simpa [children, checkExpires, hkey] using h
    | _ => exact hrest h

theorem Valid.proper {fields : Members} (h : Valid fields) : ProperTag (.obj (stored fields)) := by
  refine ⟨stored fields, rfl, ?_, ?_⟩
  · intro m hm
    obtain ⟨n, hn, hcopy⟩ := List.mem_filterMap.mp hm
    obtain ⟨copy, hvalue, rfl⟩ := Option.map_eq_some_iff.mp hcopy
    have hchecked := List.all_eq_true.mp h.strings (some n.1, n.2)
      (List.mem_map.mpr ⟨n, hn, rfl⟩)
    obtain ⟨hkey, hstring⟩ := Bool.and_eq_true_iff.mp hchecked
    refine ⟨fun hnil ↦ of_decide_eq_true hkey (congrArg some hnil), ?_⟩
    obtain ⟨key, value⟩ := n
    cases value with
    | num q =>
      obtain rfl := Option.some.inj hvalue
      exact .inl ⟨_, rfl⟩
    | str s =>
      obtain rfl := Option.some.inj hvalue
      exact .inr ⟨s, of_decide_eq_true hstring, rfl⟩
    | _ => cases hvalue
  · obtain ⟨q, hq, hne⟩ := exists_expires h.expires
    exact ⟨valueint q, List.mem_filterMap.mpr ⟨_, hq, rfl⟩, by exact_mod_cast hne⟩

/-- The file holds the store, or nothing at all for the empty one. -/
def Represents (lib : Lib) (file : Option CString) (s : TagStore) : Prop :=
  ((file = none ∨ file = some []) ∧ s = .empty) ∨
    ∃ text, file = some text ∧ lib.parse text = some s.config

variable {lib : Lib} {file file' : Option CString} {s : TagStore} {name : CString}
  {fields : Members}

theorem represents_print (hlib : lib.Lawful) (s : TagStore) :
    Represents lib (some (lib.print s.config)) s :=
  .inr ⟨_, rfl, hlib.parse_print _⟩

theorem Represents.loadConfig (hlib : lib.Lawful) (h : Represents lib file s) :
    (loadConfig lib file = some none ∧ openConfig lib file = none ∧ s = .empty) ∨
      (loadConfig lib file = some (some s.config) ∧ openConfig lib file = some s.config) := by
  rcases h with ⟨rfl | rfl, rfl⟩ | ⟨text, rfl, hparse⟩
  · exact .inl ⟨rfl, rfl, rfl⟩
  · refine .inl ⟨?_, rfl, rfl⟩
    simp [Crud.loadConfig, readFromJSON, cJSONParse, hlib.parse_nil]
  · cases text with
    | nil =>
      rw [hlib.parse_nil] at hparse
      cases hparse
    | cons c cs =>
      refine .inr ⟨?_, ?_⟩
      · simp [Crud.loadConfig, readFromJSON, hparse]
      · simp [openConfig, readFromJSON, hparse]

theorem getObjectItem_config (s : TagStore) :
    getObjectItem (some s.config) tags = some ⟨[], tags, .obj s.tags, []⟩ :=
  getObjectItem_cons

theorem holds_config_iff {value : Json} :
    Holds (some s.config) name value ↔ s.get name = some value := by
  rw [holds_iff (getObjectItem_config s)]
  constructor
  · intro hex
    obtain ⟨members, hobj, hvalue⟩ := hex
    obtain rfl := Json.obj.inj hobj
    exact hvalue
  · exact fun h ↦ ⟨s.tags, rfl, h⟩

theorem free_config_iff :
    Free (some s.config) name ↔ ∀ m ∈ s.tags, strcaseeq name m.1 = false := by
  constructor
  · exact fun h ↦ getObjectItem_eq_none_iff.mp (h _ (getObjectItem_config s))
  · intro h tagObj htags
    rw [getObjectItem_config] at htags
    obtain rfl := Option.some.inj htags
    exact getObjectItem_eq_none_iff.mpr h

theorem free_none : Free none name := by
  intro tagObj htags
  cases htags

theorem fits_of_updateAdmits (h : UpdateAdmits name (some s.config)) :
    Assoc.Fits strcaseeq name s.tags := by
  rcases h with hfree | ⟨value, hholds⟩
  · exact .inr (free_config_iff.mp hfree)
  · exact .inl ⟨value, holds_config_iff.mp hholds⟩

theorem rebuilt_config : rebuilt lib (some s.config) name fields =
    .obj [(tags, .obj (Assoc.put name (.obj (stored fields)) s.tags))] := by
  rw [rebuilt, rebuiltTags, broughtAlong, getObjectItem_config]
  cases lib.keepsNext <;> rfl

/-- Every request acts on the store as nothing, as one `put` or as one `remove`. -/
theorem step_refines (hlib : lib.Lawful) {request : Request} (h : Represents lib file s)
    (hstep : Step lib file request file') : ∃ s', Represents lib file' s' ∧
      (s' = s ∨ (∃ name value hvalue hname, s' = s.put name value hvalue hname) ∨
        ∃ name, s' = s.remove name) := by
  rcases step_cases hstep with rfl | ⟨name, json, fields, hload, hacc, hadmits, rfl⟩ |
    ⟨name, config, tagObj, hopen, _, htags, rfl⟩
  · exact ⟨s, h, .inl rfl⟩
  · have hproper := hacc.2.proper
    rcases h.loadConfig hlib with ⟨hnone, _, rfl⟩ | ⟨hsome, _⟩
    · obtain rfl := Option.some.inj (hnone.symm.trans hload)
      have hfits : Assoc.Fits strcaseeq name TagStore.empty.tags := .inr (List.forall_mem_nil _)
      exact ⟨TagStore.empty.put name _ hproper hfits,
        represents_print hlib (.put _ name _ hproper hfits),
        .inr (.inl ⟨name, _, hproper, hfits, rfl⟩)⟩
    · obtain rfl := Option.some.inj (hsome.symm.trans hload)
      rw [rebuilt_config]
      have hfits := fits_of_updateAdmits hadmits
      exact ⟨s.put name _ hproper hfits, represents_print hlib (s.put name _ hproper hfits),
        .inr (.inl ⟨name, _, hproper, hfits, rfl⟩)⟩
  · rcases h.loadConfig hlib with ⟨_, hnone, _⟩ | ⟨_, hsome⟩
    · rw [hnone] at hopen
      cases hopen
    · obtain rfl := Option.some.inj (hsome.symm.trans hopen)
      rw [getObjectItem_config] at htags
      obtain rfl := Option.some.inj htags
      exact ⟨s.remove name, represents_print hlib (s.remove name), .inr (.inr ⟨name, rfl⟩)⟩

/-- Read as a map from names to attributes, the file changes at one name or not
at all. -/
theorem step_get (hlib : lib.Lawful) {request : Request} (h : Represents lib file s)
    (hstep : Step lib file request file') : ∃ s', Represents lib file' s' ∧
      (s'.get = s.get ∨ ∃ name value, s'.get = Function.update s.get name value) := by
  obtain ⟨s', hs', hcases⟩ := step_refines hlib h hstep
  refine ⟨s', hs', ?_⟩
  rcases hcases with rfl | ⟨name, value, hvalue, hname, rfl⟩ | ⟨name, rfl⟩
  · exact .inl rfl
  · exact .inr ⟨name, some value, TagStore.get_put⟩
  · exact .inr ⟨name, none, TagStore.get_remove⟩

/-- The file is absent or empty, or one object whose only member is "tags", with
names that differ in more than case and proper attributes. -/
def WellFormed (lib : Lib) (file : Option CString) : Prop :=
  file = none ∨ file = some [] ∨ ∃ text members, file = some text ∧
    lib.parse text = some (.obj [(tags, .obj members)]) ∧
    members.Pairwise (fun t u ↦ strcaseeq t.1 u.1 = false) ∧ ∀ t ∈ members, ProperTag t.2

theorem Represents.wellFormed (h : Represents lib file s) : WellFormed lib file := by
  rcases h with ⟨rfl | rfl, _⟩ | ⟨text, rfl, hparse⟩
  · exact .inl rfl
  · exact .inr (.inl rfl)
  · exact .inr (.inr ⟨text, s.tags, rfl, hparse, s.apart, s.proper⟩)

theorem represents_of_run (hlib : lib.Lawful) (hfile : file = none ∨ file = some [])
    {tr : List (Option CString × Request)} (hrun : Run (Step lib) file tr file') :
    Throughout (fun f ↦ ∃ s, Represents lib f s) tr file' := by
  refine hrun.invariant (fun f request f' hf hstep ↦ ?_) ⟨.empty, .inl ⟨hfile, rfl⟩⟩
  obtain ⟨s, hs⟩ := hf
  obtain ⟨s', hs', _⟩ := step_refines hlib hs hstep
  exact ⟨s', hs'⟩

section Inputs

def crudMsg (dest payload : String) : CrudMsg where
  transactionUuid := none
  source := none
  dest := some dest.toList
  partnerIds := none
  headers := none
  metadata := none
  includeSpans := false
  contentType := none
  status := 0
  rdr := 0
  path := none
  payload := some payload.toList
  payloadSize := payload.length

def blank {n : ℕ} : CharBuf (n + 1) := ⟨[], Nat.succ_pos n⟩

def writable : Env where
  opens := true
  cfg := ⟨blank, blank, blank, blank, blank, blank, 0, 0, blank, 0, blank, blank, blank, none⟩
  clients := ⟨0, []⟩
  closeRetry := false

def createFoo : Request :=
  ⟨.create, crudMsg "mac:14cfe2142144/parodus/tag/Foo" "\x7b\"expires\":5\x7d", writable⟩

def fooConfig : Option CString :=
  some "\x7b\"tags\":\x7b\"Foo\":\x7b\"expires\":5\x7d\x7d\x7d".toList

theorem createFoo_dest : tagDest compactLib createFoo.reqMsg = some "Foo".toList := by
  simp only [createFoo, crudMsg, String.reduceToList]
  decide

theorem run_createFoo : Run (Step compactLib) none [(none, createFoo)] fooConfig := by
  refine .cons ?_ (.nil _)
  simp only [createFoo, crudMsg, fooConfig, String.reduceToList]
  decide

end Inputs

end Parodus.Crud
