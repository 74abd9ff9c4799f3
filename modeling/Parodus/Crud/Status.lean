import Parodus.Crud.Frame

namespace Parodus.Crud

open Foundation

/-- The change that a request asks for is in that config text. -/
def Changed (lib : Lib) (request : Request) (name text : CString) : Prop :=
  ∃ config, lib.parse text = some config ∧
    match request.type with
    | .delete => ∀ value, ¬ Holds (some config) name value
    | _ => ∃ fields, request.reqMsg.payload.bind lib.parse = some (.obj fields) ∧
        Holds (some config) name (.obj fields)

/-- The status is a success exactly when the change was written, and otherwise
the config file is as before. -/
def Truthful (change : CString → Prop) (file : Option CString) (out : Outcome) : Prop :=
  ((out.status = 200 ∨ out.status = 201) ↔ ∃ text, out.written = some text ∧ change text) ∧
    (¬ (out.status = 200 ∨ out.status = 201) → out.file file = file)

/-- What create and update need to store the payload as it is: all numbers are
`int`s and "tags" is an object or absent, without a second entry of the name. -/
def PutsPayload (lib : Lib) (opens : Bool) (file : Option CString) (name : CString)
    (payload : Option CString) (admits : Option Json → Prop) : Prop :=
  ∀ json fields, loadConfig lib file = some json → Accepts lib payload fields → opens = true →
    admits json → ∃ members, tagList json = some members ∧
      match (Assoc.remove name members).lookup name with
      | none => ∀ m ∈ fields, ∀ q, m.2 = .num q → Int32 q
      | some other => other = .obj fields

/-- What a delete needs: keys to compare and, where the tag is stored, a config
that can be written and no second entry of the name. -/
def DeletesTag (lib : Lib) (opens : Bool) (file : Option CString) (name : CString) : Prop :=
  ∀ config, openConfig lib file = some config → ¬ Unkeyed config name ∧
    (DeleteAdmits config name → opens = true ∧ ∀ members, tagList (some config) = some members →
      (Assoc.remove name members).lookup name = none)

def TruthfulWhen (lib : Lib) (file : Option CString) (request : Request) (name : CString) : Prop :=
  match request.type with
  | .create =>
    PutsPayload lib request.env.opens file name request.reqMsg.payload (CreateAdmits name)
  | .update =>
    PutsPayload lib request.env.opens file name request.reqMsg.payload (UpdateAdmits name)
  | .delete => DeletesTag lib request.env.opens file name
  | .retrieve => True

variable {lib : Lib} {opens : Bool} {file : Option CString} {json : Option Json}
  {name : CString} {payload : Option CString} {fields : Members} {request : Request}
  {out : Outcome} {change : CString → Prop}

theorem truthful_of_refused (h : Refused out) : Truthful change file out := by
  obtain ⟨hwritten, hstatus⟩ := h
  have hfail : ¬ (out.status = 200 ∨ out.status = 201) := by omega
  refine ⟨iff_of_false hfail ?_, fun _ ↦ file_of_written_eq_none hwritten⟩
  intro hex
  obtain ⟨text, htext, _⟩ := hex
  rw [hwritten] at htext
  cases htext

theorem truthful_iff_of_success (h : out.status = 200 ∨ out.status = 201) :
    Truthful change file out ↔ ∃ text, out.written = some text ∧ change text := by
  constructor
  · exact fun ht ↦ ht.1.mp h
  · exact fun ht ↦ ⟨iff_of_true h ht, fun hfail ↦ absurd h hfail⟩

theorem stored_eq_self_iff (h : Valid fields) :
    stored fields = fields ↔ ∀ m ∈ fields, ∀ q, m.2 = .num q → Int32 q := by
  rw [← stored_perm_iff_int32 h]
  constructor
  · intro heq
    rw [heq]
  · intro hperm
    exact stored_eq_self (stored_perm_iff.mp hperm)

theorem holds_rebuilt_iff (h : Valid fields) :
    Holds (some (rebuilt lib json name fields)) name (.obj fields) ↔
      ∃ members, tagList json = some members ∧
        match (Assoc.remove name members).lookup name with
        | none => ∀ m ∈ fields, ∀ q, m.2 = .num q → Int32 q
        | some other => other = .obj fields := by
  rw [holds_iff getObjectItem_rebuilt]
  cases hlist : tagList json with
  | none =>
    apply iff_of_false
    · intro hex
      obtain ⟨members, hobj, _⟩ := hex
      exact rebuiltTags_of_tagList_none hlist members hobj
    · intro hex
      obtain ⟨members, hmembers, _⟩ := hex
      cases hmembers
  | some members =>
    have hvalue : rebuiltTags json name fields =
        .obj (Assoc.put name (.obj (stored fields)) members) := rebuiltTags_of_tagList hlist
    simp only [hvalue, Json.obj.injEq, Option.some.injEq, exists_eq_left', Assoc.lookup_put_self]
    cases (Assoc.remove name members).lookup name with
    | none =>
      rw [Option.none_or, Option.some.injEq, Json.obj.injEq]
      exact stored_eq_self_iff h
    | some other =>
      rw [Option.some_or, Option.some.injEq]

theorem putAnswer_truthful_iff (hlib : lib.Lawful) {admits : Option Json → Prop}
    (hchange : ∀ text, change text ↔ ∃ config, lib.parse text = some config ∧
      ∃ fields, payload.bind lib.parse = some (.obj fields) ∧
        Holds (some config) name (.obj fields))
    (h : PutAnswer lib opens file name payload admits out) :
    Truthful change file out ↔ PutsPayload lib opens file name payload admits := by
  rcases h with ⟨json, fields, hload, hacc, hopens, hadmits, hok, hwritten⟩ | ⟨hnot, hrefused⟩
  · have hiff : Holds (some (rebuilt lib json name fields)) name (.obj fields) ↔ _ :=
      holds_rebuilt_iff hacc.2
    rw [truthful_iff_of_success hok, hwritten]
    simp only [Option.some.injEq, exists_eq_left', hchange, hlib.parse_print, hacc.1,
      Json.obj.injEq, hiff]
    constructor
    · intro hputs json' fields' hload' hacc' _ _
      obtain rfl := Option.some.inj (hload.symm.trans hload')
      obtain rfl := Json.obj.inj (Option.some.inj (hacc.1.symm.trans hacc'.1))
      exact hputs
    · exact fun hputs ↦ hputs json fields hload hacc hopens hadmits
  · refine iff_of_true (truthful_of_refused hrefused) ?_
    exact fun json fields hload hacc hopens hadmits ↦
      absurd hadmits (hnot json fields hload hacc hopens)

theorem holds_pruned_iff {config value : Json} {tagObj : Item} {members : Members}
    (htags : getObjectItem (some config) tags = some tagObj) (hobj : tagObj.value = .obj members) :
    Holds (some (pruned tagObj name)) name value ↔
      (Assoc.remove name members).lookup name = some value := by
  obtain ⟨_, hstring, hprev⟩ := getObjectItem_eq_some htags
  have hpruned : getObjectItem (some (pruned tagObj name)) tags =
      some ⟨tagObj.prev, tagObj.string, deleteItem name tagObj.value, tagObj.next⟩ :=
    getObjectItem_append hstring hprev
  rw [holds_iff hpruned, hobj]
  simp only [deleteItem, Json.obj.injEq, exists_eq_left']

theorem tagList_of_tags {config : Json} {tagObj : Item} {members : Members}
    (htags : getObjectItem (some config) tags = some tagObj) (hobj : tagObj.value = .obj members) :
    tagList (some config) = some members := by
  simp only [tagList, htags, hobj]

theorem deleteAnswer_truthful_iff (hlib : lib.Lawful)
    (hchange : ∀ text, change text ↔ ∃ config, lib.parse text = some config ∧
      ∀ value, ¬ Holds (some config) name value)
    (hkeys : ∀ config, openConfig lib file = some config → ¬ Unkeyed config name)
    (h : DeleteAnswer lib opens file name out) :
    Truthful change file out ↔ DeletesTag lib opens file name := by
  rcases h with ⟨config, tagObj, hopen, hadmits, htags, hok, hwritten⟩ | ⟨hnot, hrefused⟩
  · have hstored := hadmits
    obtain ⟨tagObj', htags', _, value, hholds⟩ := hstored
    obtain rfl := Option.some.inj (htags.symm.trans htags')
    obtain ⟨members, hobj, _⟩ := (holds_iff htags).mp hholds
    have hlist := tagList_of_tags htags hobj
    rw [truthful_iff_of_success (.inl hok), hwritten]
    cases opens with
    | false =>
      apply iff_of_false
      · intro hex
        obtain ⟨text, htext, _⟩ := hex
        cases htext
      · intro hdeletes
        cases ((hdeletes config hopen).2 hadmits).1
    | true =>
      simp only [if_true, Option.some.injEq, exists_eq_left', hchange, hlib.parse_print,
        holds_pruned_iff htags hobj]
      constructor
      · intro hgone config' hopen'
        obtain rfl := Option.some.inj (hopen.symm.trans hopen')
        refine ⟨hkeys config hopen, fun _ ↦ ⟨rfl, fun members' hmembers' ↦ ?_⟩⟩
        obtain rfl := Option.some.inj (hlist.symm.trans hmembers')
        exact Option.eq_none_iff_forall_ne_some.mpr hgone
      · intro hdeletes
        have hgone := ((hdeletes config hopen).2 hadmits).2 members hlist
        exact Option.eq_none_iff_forall_ne_some.mp hgone
  · refine iff_of_true (truthful_of_refused hrefused) ?_
    exact fun config hopen ↦ ⟨hkeys config hopen, fun hadmits ↦ absurd hadmits (hnot config hopen)⟩

@[simp] theorem truthful_dropPayloadOnFailure :
    Truthful change file (dropPayloadOnFailure out) ↔ Truthful change file out := by
  simp only [Truthful, Outcome.file, dropPayloadOnFailure_status, dropPayloadOnFailure_written]

@[simp] theorem truthful_dropPayloadOnSuccess :
    Truthful change file (dropPayloadOnSuccess out) ↔ Truthful change file out := by
  simp only [Truthful, Outcome.file, dropPayloadOnSuccess_status, dropPayloadOnSuccess_written]

section Inputs

def deleteFoo (env : Env) : Request := ⟨.delete, createFoo.reqMsg, env⟩

def readOnly : Env := { writable with opens := false }

end Inputs

end Parodus.Crud
