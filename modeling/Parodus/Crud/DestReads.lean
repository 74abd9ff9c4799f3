import Parodus.Crud.DestArray
import Parodus.Crud.TagStore

namespace Parodus.Crud.Reading

open Foundation Foundation.Access Clients

/- The handlers of the same names, with each read of the array `obj` that they make. -/

/-- `obj[i] != NULL && strcmp(obj[i], text) == 0`. -/
def isEntry (array : ℕ → Option CString) (i : ℕ) (text : CString) : Access ℕ Bool := do
  let entry ← read array i
  andThen entry.isSome do
    let entry ← read array i
    pure (entry == some text)

/-- `obj[3] != NULL` and a test of the string. -/
def testKey (array : ℕ → Option CString) (test : CString → Bool) : Access ℕ Bool := do
  let entry ← read array 3
  andThen entry.isSome do
    let entry ← read array 3
    pure (entry.any test)

def isTagDest (array : ℕ → Option CString) (objlevel : ℕ) : Access ℕ Bool :=
  andThen (objlevel == 4) do
    let service ← isEntry array 2 "parodus".toList
    andThen service (isEntry array 3 "tag".toList)

def freeObjArray (array : ℕ → Option CString) : ℕ → Access ℕ Unit
  | 0 => do
    let _ ← read array 0
    pure ()
  | size + 1 => do
    freeObjArray array size
    let _ ← read array (size + 1)
    pure ()

/-- A null name is undefined: all that becomes of it is that it is compared. -/
def withName (array : ℕ → Option CString) (objlevel : ℕ) (onName : CString → Option Outcome) :
    Access ℕ (Option Outcome) := do
  let name ← read array objlevel
  pure (name.bind onName)

def thenFree (array : ℕ → Option CString) (objlevel : ℕ) (out : Access ℕ (Option Outcome)) :
    Access ℕ (Option Outcome) := do
  let out ← out
  freeObjArray array objlevel
  pure out

/-- The array as parsed, over whatever its memory holds. -/
def loaded (obj : List (Option CString)) (memory : ℕ → Option CString) (i : ℕ) :
    Option CString := obj[i]?.getD (memory i)

def withDest (lib : Lib) (reqMsg : CrudMsg) (memory : ℕ → Option CString)
    (body : (ℕ → Option CString) → ℕ → Access ℕ (Option Outcome)) : Access ℕ (Option Outcome) :=
  match reqMsg.dest with
  | none => pure (some (failure 400))
  | some dest =>
    match parseDestElementsToString lib dest with
    | .undefined => pure none
    | .unsupported => pure (some (failure 400))
    | .elements obj objlevel =>
      thenFree (loaded obj memory) objlevel (body (loaded obj memory) objlevel)

/-- The name is read behind the checks of the payload. -/
def onPayload (lib : Lib) (payload : Option CString) (array : ℕ → Option CString) (objlevel : ℕ)
    (onName : CString → Option Outcome) : Access ℕ (Option Outcome) :=
  if checkPayload lib payload = none then pure (some (failure 400))
  else withName array objlevel onName

def createObject (lib : Lib) (opens : Bool) (file : Option CString) (reqMsg : CrudMsg)
    (memory : ℕ → Option CString) : Access ℕ (Option Outcome) :=
  match loadConfig lib file with
  | none => pure (some (failure 500))
  | some json => withDest lib reqMsg memory fun array objlevel ↦ do
      if ← isTagDest array objlevel then
        onPayload lib reqMsg.payload array objlevel fun name ↦
          createTag lib opens json name reqMsg.payload
      else pure (some (failure 400))

def updateObject (lib : Lib) (opens closeRetry : Bool) (file : Option CString)
    (reqMsg : CrudMsg) (memory : ℕ → Option CString) : Access ℕ (Option Outcome) :=
  match loadConfig lib file with
  | none => pure (some (failure 500))
  | some json => withDest lib reqMsg memory fun array objlevel ↦ do
      if ← isTagDest array objlevel then
        onPayload lib reqMsg.payload array objlevel fun name ↦
          updateTag lib opens json name reqMsg.payload
      else if ← andThen (objlevel == 3) (isEntry array 3 "cloud-disconnect".toList) then
        pure (some (cloudDisconnect lib closeRetry reqMsg.payload))
      else pure (some (failure 400))

/-- The "tags" of the config, if they are not empty. -/
def listedTags (json : Json) : Option Item :=
  (getObjectItem (some json) tags).filter fun paramArray ↦
    (children paramArray.value).length ≠ 0

def deleteObject (lib : Lib) (opens : Bool) (file : Option CString) (reqMsg : CrudMsg)
    (memory : ℕ → Option CString) : Access ℕ (Option Outcome) :=
  match openConfig lib file with
  | none => pure (some (failure 500))
  | some json => withDest lib reqMsg memory fun array objlevel ↦ do
      if ← isTagDest array objlevel then
        if listedTags json = none then pure (some (failure 400))
        else withName array objlevel fun name ↦ deleteTag lib opens json name
      else pure (some (failure 400))

/-- The dest of a setting in memory. -/
def isInMemory (array : ℕ → Option CString) (objlevel : ℕ) : Access ℕ Bool := do
  let setting ← andThen (objlevel == 3) (testKey array fun key ↦ !decide (tags <:+: key))
  if setting then pure true
  else andThen (objlevel == 4) <|
    testKey array fun key ↦ decide ("service-status".toList <:+: key)

def answerInMemory (lib : Lib) (cfg : ParodusCfg) (clients : ClientList)
    (array : ℕ → Option CString) : Access ℕ (Option Outcome) := do
  if ← testKey array fun key ↦ decide ("service-status".toList <:+: key) then
    let service ← read array 4
    pure (some (respondInMemory lib (getClientStatus service clients)))
  else
    let key ← read array 3
    pure (key.map fun key ↦ respondInMemory lib (retrieveFromMemory key cfg))

def findTag (lib : Lib) (paramArray : Item) (array : ℕ → Option CString) (name : CString) :
    Access ℕ (Option Outcome) := do
  if paramArray.string = name then
    pure (some (respond lib (.obj (readTags paramArray.value))))
  else if ← isEntry array 3 "tag".toList then
    pure ((findKey name (children paramArray.value)).map fun subitem ↦
      match subitem with
      | some subitem => respond lib (.obj (readFields (children subitem)))
      | none => failure 400)
  else pure (some (failure 400))

def answerTags (lib : Lib) (paramArray : Item) (array : ℕ → Option CString) (objlevel : ℕ) :
    Access ℕ (Option Outcome) := do
  let name ← read array objlevel
  match name with
  | none => pure none
  | some name => findTag lib paramArray array name

def answerFromFile (lib : Lib) (file : Option CString) (array : ℕ → Option CString)
    (objlevel : ℕ) : Access ℕ (Option Outcome) :=
  match openConfig lib file with
  | none => pure (some (failure 500))
  | some json =>
    match listedTags json with
    | none => pure (some (failure 400))
    | some paramArray => answerTags lib paramArray array objlevel

def retrieveObject (lib : Lib) (cfg : ParodusCfg) (clients : ClientList) (file : Option CString)
    (reqMsg : CrudMsg) (memory : ℕ → Option CString) : Access ℕ (Option Outcome) :=
  withDest lib reqMsg memory fun array objlevel ↦ do
    if ← isInMemory array objlevel then answerInMemory lib cfg clients array
    else answerFromFile lib file array objlevel

def handle (lib : Lib) (file : Option CString) (request : Request) (memory : ℕ → Option CString) :
    Access ℕ (Option Outcome) :=
  let env := request.env
  match request.type with
  | .create => createObject lib env.opens file request.reqMsg memory
  | .retrieve => retrieveObject lib env.cfg env.clients file request.reqMsg memory
  | .update => updateObject lib env.opens env.closeRetry file request.reqMsg memory
  | .delete => deleteObject lib env.opens file request.reqMsg memory

section Entries

variable {P : ℕ → Prop} {array : ℕ → Option CString} {i objlevel : ℕ} {text : CString}
  {test : CString → Bool}

@[simp] theorem value_isEntry (array : ℕ → Option CString) (i : ℕ) (text : CString) :
    (isEntry array i text).value = (array i == some text) := by
  cases hentry : array i with
  | none => simp [isEntry, hentry]
  | some entry => simp [isEntry, hentry]

@[simp] theorem value_testKey (array : ℕ → Option CString) (test : CString → Bool) :
    (testKey array test).value = (array 3).any test := by
  cases hentry : array 3 with
  | none => simp [testKey, hentry]
  | some entry => simp [testKey, hentry]

@[simp] theorem within_isEntry : Within P (isEntry array i text) ↔ P i := by
  simp only [isEntry, within_bind, within_read, within_andThen, within_pure, and_true]
  exact and_iff_left_of_imp fun h _ ↦ h

@[simp] theorem within_testKey : Within P (testKey array test) ↔ P 3 := by
  simp only [testKey, within_bind, within_read, within_andThen, within_pure, and_true]
  exact and_iff_left_of_imp fun h _ ↦ h

theorem value_isTagDest (array : ℕ → Option CString) (objlevel : ℕ) :
    (isTagDest array objlevel).value = (objlevel == 4 && (array 2 == some "parodus".toList &&
      array 3 == some "tag".toList)) := by
  simp only [isTagDest, value_andThen, value_bind, value_isEntry]

theorem isTagDest_within : Within (· ≤ objlevel) (isTagDest array objlevel) := by
  rw [isTagDest, within_andThen]
  intro hlevel
  obtain rfl := eq_of_beq hlevel
  simp only [within_bind, within_isEntry, within_andThen]
  exact ⟨by decide, fun _ ↦ by decide⟩

theorem freeObjArray_within (array : ℕ → Option CString) (size : ℕ) :
    Within (· ≤ size) (freeObjArray array size) := by
  induction size with
  | zero => exact within_bind.mpr ⟨within_read.mpr le_rfl, within_pure _⟩
  | succ size ih =>
    refine within_bind.mpr ⟨ih.mono fun i hi ↦ Nat.le_succ_of_le hi, ?_⟩
    exact within_bind.mpr ⟨within_read.mpr le_rfl, within_pure _⟩

@[simp] theorem within_thenFree {out : Access ℕ (Option Outcome)} :
    Within (· ≤ objlevel) (thenFree array objlevel out) ↔ Within (· ≤ objlevel) out := by
  rw [thenFree, within_bind, within_bind]
  exact and_iff_left ⟨freeObjArray_within array objlevel, within_pure _⟩

@[simp] theorem value_thenFree (array : ℕ → Option CString) (objlevel : ℕ)
    (out : Access ℕ (Option Outcome)) : (thenFree array objlevel out).value = out.value := rfl

theorem withName_within (onName : CString → Option Outcome) :
    Within (· ≤ objlevel) (withName array objlevel onName) :=
  within_bind.mpr ⟨within_read.mpr le_rfl, within_pure _⟩

theorem onPayload_within (lib : Lib) (payload : Option CString)
    (onName : CString → Option Outcome) :
    Within (· ≤ objlevel) (onPayload lib payload array objlevel onName) := by
  rw [onPayload]
  split
  · exact within_pure _
  · exact withName_within onName

end Entries

section Bounds

variable {lib : Lib} {opens closeRetry : Bool} {cfg : ParodusCfg} {clients : ClientList}
  {file : Option CString} {reqMsg : CrudMsg} {dest : CString} {obj : List (Option CString)}
  {objlevel : ℕ} {memory : ℕ → Option CString}

theorem withDest_eq (hdest : reqMsg.dest = some dest)
    (hparse : parseDestElementsToString lib dest = .elements obj objlevel)
    (body : (ℕ → Option CString) → ℕ → Access ℕ (Option Outcome)) :
    withDest lib reqMsg memory body =
      thenFree (loaded obj memory) objlevel (body (loaded obj memory) objlevel) := by
  simp only [withDest, hdest, hparse]

theorem withDest_within (hdest : reqMsg.dest = some dest)
    (hparse : parseDestElementsToString lib dest = .elements obj objlevel)
    {body : (ℕ → Option CString) → ℕ → Access ℕ (Option Outcome)}
    (hbody : Within (· ≤ objlevel) (body (loaded obj memory) objlevel)) :
    Within (· ≤ objlevel) (withDest lib reqMsg memory body) := by
  rw [withDest_eq hdest hparse, within_thenFree]
  exact hbody

theorem createObject_within (hdest : reqMsg.dest = some dest)
    (hparse : parseDestElementsToString lib dest = .elements obj objlevel) :
    Within (· ≤ objlevel) (createObject lib opens file reqMsg memory) := by
  rw [createObject]
  split
  · exact within_pure _
  · refine withDest_within hdest hparse (within_bind.mpr ⟨isTagDest_within, ?_⟩)
    split
    · exact onPayload_within _ _ _
    · exact within_pure _

theorem updateObject_within (hdest : reqMsg.dest = some dest)
    (hparse : parseDestElementsToString lib dest = .elements obj objlevel) :
    Within (· ≤ objlevel) (updateObject lib opens closeRetry file reqMsg memory) := by
  rw [updateObject]
  split
  · exact within_pure _
  · refine withDest_within hdest hparse (within_bind.mpr ⟨isTagDest_within, ?_⟩)
    split
    · exact onPayload_within _ _ _
    · refine within_bind.mpr ⟨within_andThen.mpr fun hlevel ↦ ?_, ?_⟩
      · exact within_isEntry.mpr (eq_of_beq hlevel).ge
      · split <;> exact within_pure _

theorem deleteObject_within (hdest : reqMsg.dest = some dest)
    (hparse : parseDestElementsToString lib dest = .elements obj objlevel) :
    Within (· ≤ objlevel) (deleteObject lib opens file reqMsg memory) := by
  rw [deleteObject]
  split
  · exact within_pure _
  · refine withDest_within hdest hparse (within_bind.mpr ⟨isTagDest_within, ?_⟩)
    split
    · split
      · exact within_pure _
      · exact withName_within _
    · exact within_pure _

theorem isInMemory_within (array : ℕ → Option CString) (objlevel : ℕ) :
    Within (· ≤ objlevel) (isInMemory array objlevel) := by
  refine within_bind.mpr ⟨within_andThen.mpr fun hlevel ↦ ?_, ?_⟩
  · exact within_testKey.mpr (eq_of_beq hlevel).ge
  · split
    · exact within_pure _
    · refine within_andThen.mpr fun hlevel ↦ within_testKey.mpr ?_
      rw [eq_of_beq hlevel]
      decide

theorem value_isInMemory (array : ℕ → Option CString) (objlevel : ℕ) :
    (isInMemory array objlevel).value =
      (objlevel == 3 && (array 3).any (fun key ↦ !decide (tags <:+: key)) ||
        objlevel == 4 && (array 3).any fun key ↦ decide ("service-status".toList <:+: key)) := by
  rw [isInMemory, value_bind, value_andThen, value_testKey]
  cases objlevel == 3 && (array 3).any fun key ↦ !decide (tags <:+: key) with
  | true => rfl
  | false => rw [if_neg Bool.false_ne_true, value_andThen, value_testKey, Bool.false_or]

theorem answerInMemory_within_iff {P : ℕ → Prop} {array : ℕ → Option CString} :
    Within P (answerInMemory lib cfg clients array) ↔ P 3 ∧
      ((array 3).any (fun key ↦ decide ("service-status".toList <:+: key)) = true → P 4) := by
  rw [answerInMemory, within_bind, within_testKey, value_testKey]
  refine and_congr_right fun hthree ↦ ?_
  split
  · rename_i hservice
    rw [within_bind, within_read]
    exact ⟨fun h _ ↦ h.1, fun h ↦ ⟨h hservice, within_pure _⟩⟩
  · rename_i hservice
    refine iff_of_true (within_bind.mpr ⟨within_read.mpr hthree, within_pure _⟩) ?_
    exact fun h ↦ absurd h hservice

theorem findTag_within_iff {P : ℕ → Prop} {array : ℕ → Option CString} {paramArray : Item}
    {name : CString} : Within P (findTag lib paramArray array name) ↔
      (paramArray.string ≠ name → P 3) := by
  rw [findTag]
  split
  · rename_i hself
    exact iff_of_true (within_pure _) (fun h ↦ absurd hself h)
  · rename_i hself
    rw [within_bind, within_isEntry]
    refine ⟨fun h _ ↦ h.1, fun h ↦ ⟨h hself, ?_⟩⟩
    split <;> exact within_pure _

theorem answerTags_within_iff {array : ℕ → Option CString} {paramArray : Item} {name : CString}
    (hname : array objlevel = some name) :
    Within (· ≤ objlevel) (answerTags lib paramArray array objlevel) ↔
      (paramArray.string ≠ name → 3 ≤ objlevel) := by
  rw [answerTags, within_bind, within_read, value_read, hname, and_iff_right le_rfl]
  exact findTag_within_iff

theorem answerFromFile_within_iff {array : ℕ → Option CString} {name : CString}
    (hname : array objlevel = some name) :
    Within (· ≤ objlevel) (answerFromFile lib file array objlevel) ↔
      ∀ config paramArray, openConfig lib file = some config →
        listedTags config = some paramArray → paramArray.string ≠ name → 3 ≤ objlevel := by
  cases hopen : openConfig lib file with
  | none =>
    simp only [answerFromFile, hopen]
    exact iff_of_true (within_pure _) (fun _ _ h ↦ by cases h)
  | some config =>
    cases htags : listedTags config with
    | none =>
      simp only [answerFromFile, hopen, htags]
      refine iff_of_true (within_pure _) (fun config' _ hconfig' htags' ↦ ?_)
      obtain rfl := Option.some.inj hconfig'
      rw [htags] at htags'
      cases htags'
    | some paramArray =>
      simp only [answerFromFile, hopen, htags, answerTags_within_iff hname]
      constructor
      · intro h config' paramArray' hconfig' htags'
        obtain rfl := Option.some.inj hconfig'
        obtain rfl := Option.some.inj (htags.symm.trans htags')
        exact h
      · exact fun h ↦ h config paramArray rfl htags

/-- A retrieve of a service status without a service, or of an element behind the dest's last
one in a config whose tags have another name than that one. -/
def ReadsBeyond (lib : Lib) (file : Option CString) (obj : List (Option CString))
    (objlevel : ℕ) : Prop :=
  (objlevel = 3 ∧ ∃ key, obj[3]? = some (some key) ∧ ¬ tags <:+: key ∧
    "service-status".toList <:+: key) ∨
  (objlevel < 3 ∧ ∃ config paramArray, openConfig lib file = some config ∧
    listedTags config = some paramArray ∧ obj[objlevel]? ≠ some (some paramArray.string))

theorem loaded_of_some {i : ℕ} {entry : Option CString} (h : obj[i]? = some entry) :
    loaded obj memory i = entry := by
  rw [loaded, h, Option.getD_some]

theorem destElements_length_le (lib : Lib) (dest : CString) :
    (destElements lib dest).length ≤ 4 := by
  rw [destElements_eq_leading]
  exact leading_length_le _ 4 0

/-- The level is the index of the last entry that is not null; behind it there is at most the
null at which the loop stopped. -/
theorem elements_shape (h : parseDestElementsToString lib dest = .elements obj objlevel) :
    ∃ front name, front.length = objlevel ∧ ((obj = front ++ [some name] ∧ objlevel ≤ 4) ∨
      (obj = front ++ [some name, none] ∧ objlevel < 3)) := by
  have hle := destElements_length_le lib dest
  unfold parseDestElementsToString at h
  dsimp only at h
  cases hlast : (destElements lib dest).getLast? with
  | none => simp [hlast] at h
  | some start =>
    have hpos : (destElements lib dest).length ≠ 0 := by
      intro hzero
      rw [List.eq_nil_of_length_eq_zero hzero] at hlast
      cases hlast
    have hfront : ((destElements lib dest).dropLast.map some).length =
        (destElements lib dest).length - 1 := by
      rw [List.length_map, List.length_dropLast]
    rw [hlast] at h
    dsimp only at h
    split at h
    · obtain ⟨rfl, rfl⟩ := Dest.elements.inj h
      refine ⟨_, start, hfront, ?_⟩
      by_cases hfour : (destElements lib dest).length < 4
      · rw [if_pos hfour]
        exact .inr ⟨rfl, by omega⟩
      · rw [if_neg hfour]
        exact .inl ⟨rfl, by omega⟩
    · rename_i tagElem testElem _
      obtain ⟨rfl, rfl⟩ := Dest.elements.inj h
      refine ⟨_, testElem, ?_, .inl ⟨(List.append_cons _ _ _), hle⟩⟩
      rw [List.length_append, hfront, List.length_singleton]
      omega
    · cases h

theorem elements_last (h : parseDestElementsToString lib dest = .elements obj objlevel) :
    objlevel ≤ 4 ∧ ∃ name, obj[objlevel]? = some (some name) := by
  obtain ⟨front, name, rfl, ⟨rfl, hle⟩ | ⟨rfl, hlt⟩⟩ := elements_shape h
  · refine ⟨hle, name, ?_⟩
    rw [List.getElem?_append_right le_rfl, Nat.sub_self]
    rfl
  · refine ⟨by omega, name, ?_⟩
    rw [List.getElem?_append_right le_rfl, Nat.sub_self]
    rfl

theorem elements_behind (h : parseDestElementsToString lib dest = .elements obj objlevel) {i : ℕ}
    (hi : objlevel < i) : obj[i]? = none ∨ obj[i]? = some none ∧ objlevel < 3 := by
  obtain ⟨front, name, rfl, ⟨rfl, _⟩ | ⟨rfl, hlt⟩⟩ := elements_shape h
  · left
    apply List.getElem?_eq_none
    rw [List.length_append, List.length_singleton]
    omega
  · by_cases hnext : i = front.length + 1
    · right
      rw [hnext, List.getElem?_append_right (Nat.le_add_right _ 1), Nat.add_sub_cancel_left]
      exact ⟨rfl, hlt⟩
    · left
      apply List.getElem?_eq_none
      rw [List.length_append, List.length_cons, List.length_singleton]
      omega

theorem value_isInMemory_three {array : ℕ → Option CString} {name : CString}
    (hname : array 3 = some name) : (isInMemory array 3).value = !decide (tags <:+: name) := by
  have hne : ((3 : ℕ) == 4) = false := rfl
  rw [value_isInMemory, hname, Option.any_some, beq_self_eq_true, Bool.true_and, hne,
    Bool.false_and, Bool.or_false]

theorem value_isInMemory_low {array : ℕ → Option CString} (hlow : objlevel < 3) :
    (isInMemory array objlevel).value = false := by
  have hthree : (objlevel == 3) = false := beq_false_of_ne (by omega)
  have hfour : (objlevel == 4) = false := beq_false_of_ne (by omega)
  rw [value_isInMemory, hthree, hfour, Bool.false_and, Bool.false_and, Bool.false_or]

theorem readsBeyond_three_iff {name : CString} (hname : obj[3]? = some (some name)) :
    ReadsBeyond lib file obj 3 ↔ ¬ tags <:+: name ∧ "service-status".toList <:+: name := by
  constructor
  · intro h
    obtain ⟨_, key, hkey, htags, hservice⟩ | ⟨hlt, _⟩ := h
    · obtain rfl := Option.some.inj (Option.some.inj (hname.symm.trans hkey))
      exact ⟨htags, hservice⟩
    · exact absurd hlt (Nat.lt_irrefl 3)
  · exact fun h ↦ .inl ⟨rfl, name, hname, h⟩

theorem answerDest_within_iff {array : ℕ → Option CString} {name : CString}
    (hle : objlevel ≤ 4) (hobj : obj[objlevel]? = some (some name))
    (hname : array objlevel = some name) :
    Within (· ≤ objlevel) (if (isInMemory array objlevel).value
      then answerInMemory lib cfg clients array
      else answerFromFile lib file array objlevel) ↔ ¬ ReadsBeyond lib file obj objlevel := by
  by_cases hthree : objlevel = 3
  · subst hthree
    rw [readsBeyond_three_iff hobj, value_isInMemory_three hname]
    by_cases htags : tags <:+: name
    · rw [decide_eq_true htags, Bool.not_true, if_neg Bool.false_ne_true,
        answerFromFile_within_iff hname]
      exact iff_of_true (fun _ _ _ _ _ ↦ le_rfl) (fun h ↦ h.1 htags)
    · rw [decide_eq_false htags, Bool.not_false, if_pos rfl, answerInMemory_within_iff, hname,
        Option.any_some, decide_eq_true_iff]
      constructor
      · intro h hbeyond
        exact absurd (h.2 hbeyond.2) (by decide)
      · exact fun h ↦ ⟨le_rfl, fun hservice ↦ absurd ⟨htags, hservice⟩ h⟩
  by_cases hfour : objlevel = 4
  · subst hfour
    have hbeyond : ¬ ReadsBeyond lib file obj 4 := by
      intro h
      obtain ⟨heq, _⟩ | ⟨hlt, _⟩ := h <;> omega
    refine iff_of_true ?_ hbeyond
    split
    · exact answerInMemory_within_iff.mpr ⟨by decide, fun _ ↦ le_rfl⟩
    · exact (answerFromFile_within_iff hname).mpr fun _ _ _ _ _ ↦ by decide
  have hlow : objlevel < 3 := by omega
  rw [value_isInMemory_low hlow, if_neg Bool.false_ne_true, answerFromFile_within_iff hname]
  constructor
  · intro h hbeyond
    obtain ⟨heq, _⟩ | ⟨_, config, paramArray, hopen, htags, hne⟩ := hbeyond
    · exact hthree heq
    · have hother : paramArray.string ≠ name := by
        rintro rfl
        exact hne hobj
      have hge := h config paramArray hopen htags hother
      omega
  · intro h config paramArray hopen htags hne
    refine absurd (.inr ⟨hlow, config, paramArray, hopen, htags, ?_⟩) h
    rw [hobj]
    intro heq
    exact hne (Option.some.inj (Option.some.inj heq)).symm

theorem retrieveObject_within_iff (hdest : reqMsg.dest = some dest)
    (hparse : parseDestElementsToString lib dest = .elements obj objlevel) :
    Within (· ≤ objlevel) (retrieveObject lib cfg clients file reqMsg memory) ↔
      ¬ ReadsBeyond lib file obj objlevel := by
  obtain ⟨hle, name, hlast⟩ := elements_last hparse
  rw [retrieveObject, withDest_eq hdest hparse, within_thenFree, within_bind,
    and_iff_right (isInMemory_within _ _)]
  exact answerDest_within_iff hle hlast (loaded_of_some hlast)

end Bounds

section Refines

variable {lib : Lib} {opens closeRetry : Bool} {cfg : ParodusCfg} {clients : ClientList}
  {file : Option CString} {reqMsg : CrudMsg} {dest name : CString} {obj : List (Option CString)}
  {objlevel : ℕ} {out : Outcome}

theorem loaded_eq_iff {i j : ℕ} (memory : ℕ → Option CString) (hij : i ≤ j)
    (hlast : obj[j]? = some (some name)) (text : CString) :
    loaded obj memory i = some text ↔ obj[i]? = some (some text) := by
  obtain ⟨hlength, _⟩ := List.getElem?_eq_some_iff.mp hlast
  have hentry : obj[i]? = some obj[i] := List.getElem?_eq_getElem (by omega)
  rw [loaded, hentry, Option.getD_some, Option.some_inj]

theorem tagName_of_isTagDest (memory : ℕ → Option CString)
    (hlast : obj[objlevel]? = some (some name)) :
    tagName obj objlevel =
      if (isTagDest (loaded obj memory) objlevel).value then some name else none := by
  rw [value_isTagDest, tagName]
  by_cases hlevel : objlevel = 4
  · subst hlevel
    simp only [beq_self_eq_true, Bool.true_and, Bool.and_eq_true, beq_iff_eq,
      loaded_eq_iff memory (by decide : 2 ≤ 4) hlast,
      loaded_eq_iff memory (by decide : 3 ≤ 4) hlast, true_and, hlast, Option.join_some]
  · rw [if_neg (fun h ↦ hlevel h.1), if_neg]
    simp [hlevel]

theorem value_withDest {body : (ℕ → Option CString) → ℕ → Access ℕ (Option Outcome)}
    {handler : List (Option CString) → ℕ → Option Outcome} {memory : ℕ → Option CString}
    (h : ∀ obj objlevel name, objlevel ≤ 4 → obj[objlevel]? = some (some name) →
      handler obj objlevel = some out → (body (loaded obj memory) objlevel).value = some out)
    (hout : Crud.withDest lib reqMsg handler = some out) :
    (withDest lib reqMsg memory body).value = some out := by
  cases hdest : reqMsg.dest with
  | none =>
    simp only [Crud.withDest, withDest, hdest] at hout ⊢
    exact hout
  | some dest =>
    cases hparse : parseDestElementsToString lib dest with
    | undefined => simp [Crud.withDest, hdest, hparse] at hout
    | unsupported =>
      simp only [Crud.withDest, withDest, hdest, hparse] at hout ⊢
      exact hout
    | elements obj objlevel =>
      obtain ⟨hle, name, hlast⟩ := elements_last hparse
      rw [withDest_eq hdest hparse, value_thenFree]
      apply h obj objlevel name hle hlast
      simpa only [Crud.withDest, hdest, hparse] using hout

theorem value_onTag {array : ℕ → Option CString} {onTag other : Access ℕ (Option Outcome)} :
    (isTagDest array objlevel >>= fun tag ↦ if tag then onTag else other).value =
      if (isTagDest array objlevel).value then onTag.value else other.value := by
  rw [value_bind]
  split <;> rfl

theorem value_onPayload {array : ℕ → Option CString} {payload : Option CString}
    {onName : CString → Option Outcome} (hname : array objlevel = some name)
    (hchecked : checkPayload lib payload = none → onName name = some (failure 400)) :
    (onPayload lib payload array objlevel onName).value = onName name := by
  rw [onPayload]
  split
  · rename_i hnone
    exact (hchecked hnone).symm
  · rw [withName, value_bind, value_read, hname]
    rfl

/-- The test for a tag decides between the same two branches. -/
theorem value_tagCases {memory : ℕ → Option CString} {handler : CString → Option Outcome}
    {other : Option Outcome} {onTag otherwise : Access ℕ (Option Outcome)}
    (hlast : obj[objlevel]? = some (some name))
    (hout : (match tagName obj objlevel with
      | some name => handler name
      | none => other) = some out)
    (htag : handler name = some out → onTag.value = some out)
    (hother : other = some out → otherwise.value = some out) :
    (isTagDest (loaded obj memory) objlevel >>= fun tag ↦
      if tag then onTag else otherwise).value = some out := by
  rw [value_onTag]
  rw [tagName_of_isTagDest memory hlast] at hout
  cases htest : (isTagDest (loaded obj memory) objlevel).value with
  | true =>
    rw [htest, if_pos rfl] at hout
    exact htag hout
  | false =>
    rw [htest, if_neg Bool.false_ne_true] at hout
    exact hother hout

theorem createObject_value (memory : ℕ → Option CString)
    (h : Crud.createObject lib opens file reqMsg = some out) :
    (createObject lib opens file reqMsg memory).value = some out := by
  cases hload : loadConfig lib file with
  | none =>
    simp only [Crud.createObject, createObject, hload] at h ⊢
    exact h
  | some json =>
    simp only [Crud.createObject, createObject, hload] at h ⊢
    refine value_withDest (fun obj objlevel name _ hlast hbody ↦ ?_) h
    refine value_tagCases hlast hbody (fun htag ↦ ?_) (fun hother ↦ hother)
    rw [value_onPayload (loaded_of_some hlast), htag]
    intro hnone
    simp only [createTag, hnone]

theorem updateObject_value (memory : ℕ → Option CString)
    (h : Crud.updateObject lib opens closeRetry file reqMsg = some out) :
    (updateObject lib opens closeRetry file reqMsg memory).value = some out := by
  cases hload : loadConfig lib file with
  | none =>
    simp only [Crud.updateObject, updateObject, hload] at h ⊢
    exact h
  | some json =>
    simp only [Crud.updateObject, updateObject, hload] at h ⊢
    refine value_withDest (fun obj objlevel name hle hlast hbody ↦ ?_) h
    refine value_tagCases hlast hbody (fun htag ↦ ?_) (fun hother ↦ ?_)
    · rw [value_onPayload (loaded_of_some hlast), htag]
      intro hnone
      simp only [updateTag, hnone]
    · rw [value_bind, value_andThen, value_isEntry, ← hother]
      by_cases hlevel : objlevel = 3
      · subst hlevel
        simp only [beq_self_eq_true, Bool.true_and, beq_iff_eq, loaded_eq_iff memory le_rfl hlast,
          true_and]
        split <;> rfl
      · have hne : (objlevel == 3) = false := beq_false_of_ne hlevel
        have hcloud : ¬ (objlevel = 3 ∧ obj[3]? = some (some "cloud-disconnect".toList)) :=
          fun h ↦ hlevel h.1
        rw [hne, Bool.false_and, if_neg hcloud]
        rfl

theorem deleteObject_value (memory : ℕ → Option CString)
    (h : Crud.deleteObject lib opens file reqMsg = some out) :
    (deleteObject lib opens file reqMsg memory).value = some out := by
  cases hopen : openConfig lib file with
  | none =>
    simp only [Crud.deleteObject, deleteObject, hopen] at h ⊢
    exact h
  | some json =>
    simp only [Crud.deleteObject, deleteObject, hopen] at h ⊢
    refine value_withDest (fun obj objlevel name _ hlast hbody ↦ ?_) h
    refine value_tagCases hlast hbody (fun htag ↦ ?_) (fun hother ↦ hother)
    split
    · rename_i hlisted
      rw [← htag, deleteTag]
      cases htags : getObjectItem (some json) tags with
      | none => rfl
      | some paramArray =>
        rw [listedTags, htags, Option.filter_some] at hlisted
        by_cases hsize : (children paramArray.value).length = 0
        · simp only [if_pos hsize]
          rfl
        · simp [hsize] at hlisted
    · rw [withName, value_bind, value_read, loaded_of_some hlast]
      exact htag

theorem answerInMemory_value {array : ℕ → Option CString} {key : CString}
    (hkey : array 3 = some key) : (answerInMemory lib cfg clients array).value =
      some (respondInMemory lib (if "service-status".toList <:+: key
        then getClientStatus (array 4) clients else retrieveFromMemory key cfg)) := by
  rw [answerInMemory, value_bind, value_testKey, hkey, Option.any_some]
  by_cases hservice : "service-status".toList <:+: key
  · rw [decide_eq_true hservice, if_pos rfl, if_pos hservice]
    rfl
  · rw [decide_eq_false hservice, if_neg Bool.false_ne_true, if_neg hservice, value_bind,
      value_read, hkey]
    rfl

theorem listedTags_eq_some_iff {config : Json} {paramArray : Item} :
    listedTags config = some paramArray ↔
      getObjectItem (some config) tags = some paramArray ∧ children paramArray.value ≠ [] := by
  rw [listedTags, Option.filter_eq_some_iff]
  simp

theorem retrieveTag_of_unlisted {config : Json} (h : listedTags config = none) :
    retrieveTag lib config obj name = some (failure 400) := by
  cases htags : getObjectItem (some config) tags with
  | none => simp only [retrieveTag, htags]
  | some paramArray =>
    have hsize : (children paramArray.value).length = 0 := by
      simpa [listedTags, htags] using h
    simp only [retrieveTag, htags, if_pos hsize]

theorem retrieveTag_of_listed {config : Json} {paramArray : Item}
    (h : listedTags config = some paramArray) : retrieveTag lib config obj name =
      if paramArray.string = name then some (respond lib (.obj (readTags paramArray.value)))
      else obj[3]?.bind fun category ↦
        if category = some "tag".toList then
          (findKey name (children paramArray.value)).map fun subitem ↦
            (subitem.map fun subitem ↦ respond lib (.obj (readFields (children subitem)))).getD
              (failure 400)
        else some (failure 400) := by
  obtain ⟨htags, hne⟩ := listedTags_eq_some_iff.mp h
  have hsize : (children paramArray.value).length ≠ 0 := fun hzero ↦
    hne (List.eq_nil_of_length_eq_zero hzero)
  simp only [retrieveTag, htags, if_neg hsize]
  by_cases hself : paramArray.string = name
  · rw [if_pos hself, if_pos hself]
  rw [if_neg hself, if_neg hself]
  cases obj[3]? with
  | none => rfl
  | some category =>
    rw [Option.bind_some]
    dsimp only
    by_cases htag : category = some "tag".toList
    · rw [if_pos htag, if_pos htag]
      cases findKey name (children paramArray.value) with
      | none => rfl
      | some subitem => cases subitem <;> rfl
    · rw [if_neg htag, if_neg htag]

theorem findTag_value {array : ℕ → Option CString} {paramArray : Item} {config : Json}
    (hthree : ∀ category, obj[3]? = some category → array 3 = category)
    (hlisted : listedTags config = some paramArray)
    (h : retrieveTag lib config obj name = some out) :
    (findTag lib paramArray array name).value = some out := by
  rw [retrieveTag_of_listed hlisted] at h
  rw [findTag]
  by_cases hself : paramArray.string = name
  · rw [if_pos hself] at h ⊢
    exact h
  rw [if_neg hself] at h ⊢
  obtain ⟨category, hcategory, hbody⟩ := Option.bind_eq_some_iff.mp h
  rw [value_bind, value_isEntry, hthree category hcategory, ← hbody]
  by_cases htag : category = some "tag".toList
  · rw [if_pos htag, beq_iff_eq.mpr htag, if_pos rfl, value_pure]
    cases findKey name (children paramArray.value) with
    | none => rfl
    | some subitem => cases subitem <;> rfl
  · rw [if_neg htag, beq_false_of_ne htag, if_neg Bool.false_ne_true]
    rfl

theorem answerFromFile_value {memory : ℕ → Option CString}
    (hlast : obj[objlevel]? = some (some name)) {json : Json}
    (hopen : openConfig lib file = some json) (h : retrieveTag lib json obj name = some out) :
    (answerFromFile lib file (loaded obj memory) objlevel).value = some out := by
  simp only [answerFromFile, hopen]
  cases hlisted : listedTags json with
  | none =>
    rw [retrieveTag_of_unlisted hlisted] at h
    exact h
  | some paramArray =>
    dsimp only
    rw [answerTags, value_bind, value_read, loaded_of_some hlast]
    exact findTag_value (fun _ hcategory ↦ loaded_of_some hcategory) hlisted h

theorem inMemoryKey_eq (memory : ℕ → Option CString) (hle : objlevel ≤ 4)
    (hlast : obj[objlevel]? = some (some name)) :
    inMemoryKey obj objlevel = if (isInMemory (loaded obj memory) objlevel).value
      then loaded obj memory 3 else none := by
  obtain ⟨hlength, _⟩ := List.getElem?_eq_some_iff.mp hlast
  by_cases hlow : objlevel < 3
  · rw [value_isInMemory_low hlow, if_neg Bool.false_ne_true, inMemoryKey,
      Option.filter_eq_none_iff]
    intro key _ htest
    have hlevel := of_decide_eq_true htest
    omega
  have hthree : obj[3]? = some obj[3] := List.getElem?_eq_getElem (by omega)
  have hloaded : loaded obj memory 3 = obj[3] := loaded_of_some hthree
  rw [inMemoryKey, hthree, Option.join_some, value_isInMemory, hloaded]
  cases obj[3] with
  | none =>
    rw [Option.filter_none, ite_self]
  | some key =>
    rw [Option.filter_some, Option.any_some, Option.any_some]
    refine if_congr ?_ rfl rfl
    rw [decide_eq_true_iff, Bool.or_eq_true, Bool.and_eq_true, Bool.and_eq_true,
      Bool.not_eq_true', decide_eq_false_iff_not, decide_eq_true_iff, beq_iff_eq, beq_iff_eq]

theorem retrieveObject_value (memory : ℕ → Option CString)
    (h : Crud.retrieveObject lib cfg clients file reqMsg = some out) :
    (retrieveObject lib cfg clients file reqMsg memory).value = some out := by
  refine value_withDest (fun obj objlevel name hle hlast hbody ↦ ?_) h
  rw [inMemoryKey_eq memory hle hlast, hlast] at hbody
  rw [value_bind]
  cases htest : (isInMemory (loaded obj memory) objlevel).value with
  | true =>
    rw [htest, if_pos rfl] at hbody
    rw [if_pos rfl]
    cases hkey : loaded obj memory 3 with
    | none =>
      rw [value_isInMemory, hkey, Option.any_none, Option.any_none, Bool.and_false,
        Bool.and_false] at htest
      cases htest
    | some key =>
      rw [hkey] at hbody
      dsimp only at hbody
      rw [answerInMemory_value hkey]
      split at hbody
      · rename_i hservice
        obtain ⟨service, hfour, rfl⟩ := Option.map_eq_some_iff.mp hbody
        rw [if_pos hservice, loaded_of_some hfour]
      · rename_i hservice
        rw [if_neg hservice]
        exact hbody
  | false =>
    rw [htest, if_neg Bool.false_ne_true] at hbody
    rw [if_neg Bool.false_ne_true]
    cases hopen : openConfig lib file with
    | none =>
      rw [hopen] at hbody
      simp only [answerFromFile, hopen]
      exact hbody
    | some json =>
      rw [hopen] at hbody
      exact answerFromFile_value hlast hopen hbody

/-- Whatever a handler answers, it answers with these reads, over any contents of the array. -/
theorem handle_value {request : Request} (memory : ℕ → Option CString)
    (h : handleRequest lib file request = some out) :
    (handle lib file request memory).value = some out := by
  obtain ⟨type, reqMsg, env⟩ := request
  cases type with
  | create => exact createObject_value memory h
  | retrieve => exact retrieveObject_value memory h
  | update => exact updateObject_value memory h
  | delete => exact deleteObject_value memory h

end Refines

section Inputs

def retrieveStatus (dest : String) : Request := ⟨.retrieve, crudMsg dest "", writable⟩

theorem parse_serviceStatus :
    parseDestElementsToString compactLib "mac:14cfe2142144/parodus/service-status".toList =
      .elements [some "mac".toList, some "14cfe2142144".toList, some "parodus".toList,
        some "service-status".toList] 3 := by
  simp only [String.reduceToList]
  decide

theorem parse_serviceStatus_iot :
    parseDestElementsToString compactLib "mac:14cfe2142144/parodus/service-status/iot".toList =
      .elements [some "mac".toList, some "14cfe2142144".toList, some "parodus".toList,
        some "service-status".toList, some "iot".toList] 4 := by
  simp only [String.reduceToList]
  decide

end Inputs

variable {lib : Lib} {file : Option CString} {dest : CString} {obj : List (Option CString)}
  {objlevel : ℕ}

/-- A handler reads assigned entries only, except for the two kinds of retrieves. -/
theorem handle_within_iff {request : Request} (hdest : request.reqMsg.dest = some dest)
    (hparse : parseDestElementsToString lib dest = .elements obj objlevel)
    (memory : ℕ → Option CString) :
    Within (· ≤ objlevel) (handle lib file request memory) ↔
      (request.type = .retrieve → ¬ ReadsBeyond lib file obj objlevel) := by
  obtain ⟨type, reqMsg, env⟩ := request
  cases type with
  | create => exact iff_of_true (createObject_within hdest hparse) (fun h ↦ by cases h)
  | retrieve =>
    refine (retrieveObject_within_iff hdest hparse).trans ?_
    exact ⟨fun h _ ↦ h, fun h ↦ h rfl⟩
  | update => exact iff_of_true (updateObject_within hdest hparse) (fun h ↦ by cases h)
  | delete => exact iff_of_true (deleteObject_within hdest hparse) (fun h ↦ by cases h)

theorem handle_within_serviceStatus :
    Within (· ≤ 4) (handle compactLib none
      (retrieveStatus "mac:14cfe2142144/parodus/service-status/iot") fun _ ↦ none) := by
  refine (handle_within_iff rfl parse_serviceStatus_iot _).mpr (fun _ hbeyond ↦ ?_)
  obtain ⟨heq, _⟩ | ⟨hlt, _⟩ := hbeyond <;> omega

/-- The status of no service: the entry behind the last one is read, whatever stands there. -/
theorem serviceStatus_reads_beyond :
    parseDestElementsToString compactLib "mac:14cfe2142144/parodus/service-status".toList =
      .elements [some "mac".toList, some "14cfe2142144".toList, some "parodus".toList,
        some "service-status".toList] 3 ∧
    ∀ memory, ¬ Within (· ≤ 3) (handle compactLib none
      (retrieveStatus "mac:14cfe2142144/parodus/service-status") memory) := by
  refine ⟨parse_serviceStatus, fun memory hwithin ↦ ?_⟩
  refine (retrieveObject_within_iff rfl parse_serviceStatus).mp hwithin (.inl ⟨rfl, _, rfl, ?_, ?_⟩)
  · simp only [tags, String.reduceToList]
    decide
  · exact List.infix_refl _

end Parodus.Crud.Reading
