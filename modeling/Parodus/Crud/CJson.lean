import Parodus.CString
import Parodus.Foundation.Assoc
import Parodus.Foundation.FirstMatch
import Parodus.Foundation.JsonText

namespace Parodus.Crud

open Foundation

/-- The calls that leave the repository: reading and printing JSON text, and the
elements of a message's destination. `keepsNext` says whether an item that is
linked in one object and then added to another brings the members behind it
along. -/
structure Lib where
  parse : CString → Option Json
  print : Json → CString
  keepsNext : Bool
  msgElement : ℕ → CString → Option CString

structure Lib.Lawful (lib : Lib) : Prop where
  parse_print : ∀ t, lib.parse (lib.print t) = some t
  parse_nil : lib.parse [] = none

/-- Scheme, id, service and application of `scheme:id/service/application`. -/
def wrpElement (i : ℕ) (dest : CString) : Option CString :=
  match dest.splitOn ':' with
  | [scheme, rest] =>
    match rest.splitOn '/' with
    | id :: service :: application =>
      [some scheme, some id, some service,
        if application = [] then none else some (List.intercalate ['/'] application)][i]?.join
    | _ => none
  | _ => none

def compactLib : Lib := ⟨Json.parse, Json.print, true, wrpElement⟩

theorem compactLib_lawful : compactLib.Lawful := ⟨Json.parse_print, rfl⟩

abbrev Members := List (CString × Json)

/-- The children of a value with their keys; the items of an array have none. -/
def children : Json → List (Option CString × Json)
  | .obj members => members.map fun m ↦ (some m.1, m.2)
  | .arr items => items.map fun x ↦ (none, x)
  | _ => []

structure Item where
  prev : Members
  string : CString
  value : Json
  next : Members
  deriving DecidableEq

/-- `cJSON_GetObjectItem`: the first member of that name, whatever its case. -/
def getObjectItem (object : Option Json) (name : CString) : Option Item :=
  match object with
  | some (.obj members) =>
    (splitFirst (fun m ↦ strcaseeq name m.1) members).map fun s ↦ ⟨s.1, s.2.1.1, s.2.1.2, s.2.2⟩
  | _ => none

/-- `cJSON_AddItemToObject`; a scalar takes no child that would be printed. -/
def addItemToObject (object : Json) (name : CString) (item : Json) : Json :=
  match object with
  | .obj members => .obj (members ++ [(name, item)])
  | .arr items => .arr (items ++ [item])
  | scalar => scalar

/-- The `valueint` beside a number: its whole part, saturated to 32 bits. -/
def valueint (q : ℚ) : ℤ := max (-2147483648) (min 2147483647 (q.num.tdiv q.den))

/-- The comparison loop over the keys: the first child of exactly that name.
Its `strcmp` is undefined on the null key of an array item. -/
def findKey (name : CString) : List (Option CString × Json) → Option (Option Json)
  | [] => some none
  | (none, _) :: _ => none
  | (some key, value) :: rest => if key = name then some (some value) else findKey name rest

/-- `cJSON_DeleteItemFromArray` at the first member of exactly that name. -/
def deleteItem (name : CString) : Json → Json
  | .obj members => .obj (Assoc.remove name members)
  | value => value

def expires : CString := "expires".toList

/-- The first number under the key "expires" decides. -/
def checkExpires : List (Option CString × Json) → Bool
  | [] => false
  | (some key, .num q) :: rest =>
    if key = expires then decide (valueint q ≠ 0) else checkExpires rest
  | _ :: rest => checkExpires rest

def properString : Json → Bool
  | .str s => decide (s ≠ [])
  | _ => true

def checkStrings (payload : List (Option CString × Json)) : Bool :=
  payload.all fun child ↦ decide (child.1 ≠ some []) && properString child.2

/-- What the field loops make of a value: a number through its `valueint`, a
string as it is, anything else has neither. -/
def fieldValue : Json → Option Json
  | .num q => some (.num (valueint q))
  | .str s => some (.str s)
  | _ => none

/-- An item with a null key or a null value is not added. -/
def keyed (key : Option CString) (value : Option Json) : Members :=
  match key, value with
  | some key, some value => [(key, value)]
  | _, _ => []

/-- The loop that copies a payload into a new tag, or stops at another type. -/
def copyFields : List (Option CString × Json) → Option Members
  | [] => some []
  | (key, value) :: rest =>
    match fieldValue value with
    | some copy => (copyFields rest).map fun fields ↦ keyed key (some copy) ++ fields
    | none => none

/-- The loop that copies a stored tag into a response. -/
def readFields (stored : List (Option CString × Json)) : Members :=
  stored.flatMap fun child ↦ keyed child.1 (fieldValue child.2)

def stored (fields : Members) : Members :=
  fields.filterMap fun m ↦ (fieldValue m.2).map fun value ↦ (m.1, value)

theorem getObjectItem_eq_none_iff {members : Members} {name : CString} :
    getObjectItem (some (.obj members)) name = none ↔
      ∀ m ∈ members, strcaseeq name m.1 = false := by
  rw [getObjectItem, Option.map_eq_none_iff, splitFirst_eq_none_iff]

theorem getObjectItem_eq_some {object : Option Json} {name : CString} {item : Item}
    (h : getObjectItem object name = some item) :
    object = some (.obj (item.prev ++ (item.string, item.value) :: item.next)) ∧
      strcaseeq name item.string = true ∧ ∀ m ∈ item.prev, strcaseeq name m.1 = false := by
  unfold getObjectItem at h
  split at h
  · obtain ⟨⟨pre, m, post⟩, hs, rfl⟩ := Option.map_eq_some_iff.mp h
    obtain ⟨rfl, hm, hpre⟩ := splitFirst_eq_some hs
    exact ⟨rfl, hm, hpre⟩
  · cases h

theorem getObjectItem_append {name string : CString} {value : Json} {prev next : Members}
    (hstring : strcaseeq name string = true) (hprev : ∀ m ∈ prev, strcaseeq name m.1 = false) :
    getObjectItem (some (.obj (prev ++ (string, value) :: next))) name =
      some ⟨prev, string, value, next⟩ := by
  have hsplit : splitFirst (fun m : CString × Json ↦ strcaseeq name m.1)
      (prev ++ (string, value) :: next) = some (prev, (string, value), next) :=
    splitFirst_append hstring hprev
  rw [getObjectItem, hsplit]
  rfl

theorem getObjectItem_cons {name : CString} {value : Json} {next : Members} :
    getObjectItem (some (.obj ((name, value) :: next))) name = some ⟨[], name, value, next⟩ :=
  getObjectItem_append (strcaseeq_self name) (List.forall_mem_nil _)

@[simp] theorem findKey_obj (name : CString) (members : Members) :
    findKey name (children (.obj members)) = some (members.lookup name) := by
  have h : ∀ members : Members, findKey name (members.map fun m ↦ (some m.1, m.2)) =
      some (members.lookup name) := by
    intro members
    induction members with
    | nil => rfl
    | cons m members ih =>
      rw [List.map_cons, findKey, List.lookup_cons]
      by_cases hm : m.1 = name
      · simp [hm]
      · have hb : (name == m.1) = false := by simpa using Ne.symm hm
        rw [if_neg hm, hb, ih]
  exact h members

theorem stored_cons (m : CString × Json) (members : Members) :
    stored (m :: members) = keyed (some m.1) (fieldValue m.2) ++ stored members := by
  simp only [stored, List.filterMap_cons]
  cases fieldValue m.2 <;> rfl

@[simp] theorem readFields_obj (members : Members) :
    readFields (children (.obj members)) = stored members := by
  induction members with
  | nil => rfl
  | cons m members ih =>
    have hcons : readFields (children (.obj (m :: members))) =
        keyed (some m.1) (fieldValue m.2) ++ readFields (children (.obj members)) := by
      simp [readFields, children]
    rw [hcons, ih, stored_cons]

theorem copyFields_obj (members : Members) :
    copyFields (children (.obj members)) =
      if ∀ m ∈ members, (fieldValue m.2).isSome then some (stored members) else none := by
  induction members with
  | nil => rfl
  | cons m members ih =>
    have hcons : copyFields (children (.obj (m :: members))) =
        match fieldValue m.2 with
        | some copy => (copyFields (children (.obj members))).map fun fields ↦
            keyed (some m.1) (some copy) ++ fields
        | none => none := rfl
    rw [hcons, ih, stored_cons]
    simp only [List.forall_mem_cons]
    cases fieldValue m.2 with
    | none => simp
    | some copy =>
      by_cases h : ∀ m ∈ members, (fieldValue m.2).isSome
      · simp only [if_pos h, Option.map_some, Option.isSome_some, true_and]
      · simp only [if_neg h, Option.map_none, Option.isSome_some, true_and]

theorem valueint_intCast {z : ℤ} (hlow : -2147483648 ≤ z) (hhigh : z ≤ 2147483647) :
    valueint z = z := by
  have h : (z : ℚ).num.tdiv (z : ℚ).den = z := by simp
  rw [valueint, h]
  omega

theorem valueint_valueint (q : ℚ) : valueint (valueint q) = valueint q := by
  apply valueint_intCast
  · unfold valueint
    omega
  · unfold valueint
    omega

theorem fieldValue_fieldValue {value copy : Json} (h : fieldValue value = some copy) :
    fieldValue copy = some copy := by
  cases value with
  | num q =>
    obtain rfl := Option.some.inj h
    rw [fieldValue, valueint_valueint]
  | str s =>
    obtain rfl := Option.some.inj h
    rfl
  | _ => cases h

theorem fieldValue_of_mem_stored {members : Members} {m : CString × Json}
    (h : m ∈ stored members) : fieldValue m.2 = some m.2 := by
  obtain ⟨n, _, hn⟩ := List.mem_filterMap.mp h
  obtain ⟨copy, hcopy, rfl⟩ := Option.map_eq_some_iff.mp hn
  exact fieldValue_fieldValue hcopy

theorem stored_eq_self {members : Members} (h : ∀ m ∈ members, fieldValue m.2 = some m.2) :
    stored members = members := by
  induction members with
  | nil => rfl
  | cons m members ih =>
    obtain ⟨hm, hms⟩ := List.forall_mem_cons.mp h
    rw [stored_cons, hm, ih hms]
    rfl

theorem stored_perm_iff {members : Members} :
    (stored members).Perm members ↔ ∀ m ∈ members, fieldValue m.2 = some m.2 := by
  constructor
  · intro h m hm
    exact fieldValue_of_mem_stored (h.mem_iff.mpr hm)
  · intro h
    rw [stored_eq_self h]

end Parodus.Crud
