import Parodus.Downstream.Route
import Parodus.Foundation.Bytes

namespace Parodus.Downstream.Copy

open Foundation Foundation.Segments
open Foundation.Bytes (nul)

/-- A decoded CRUD message; the block of the payload begins with its `payload_size` bytes. -/
structure Decoded where
  msgType : MsgType
  source : Option CString
  dest : Option CString
  transactionUuid : Option CString
  partnerIds : Option (List CString)
  headers : Option (List CString)
  metadata : Option (List (Option CString × Option CString))
  includeSpans : Bool
  contentType : Option CString
  status : ℤ
  rdr : ℤ
  payload : Option (List Char)
  payloadSize : ℕ
  path : Option CString
  held : payloadSize ≤ (payload.getD []).length

/-- The calls of `malloc` and `strdup`, with the turn of the loop they are made in. -/
inductive Site
  | message
  | source
  | dest
  | transactionUuid
  | partnerIds
  | partnerId (i : ℕ)
  | headers
  | header (i : ℕ)
  | metadata
  | dataItems
  | name (i : ℕ)
  | value (i : ℕ)
  | contentType
  | payload
  | path

/-- A pointer in memory: null, to a string, or what `malloc` left there. -/
inductive Slot
  | null
  | text (s : CString)
  | wild
  deriving DecidableEq

def Slot.ofPointer : Option CString → Slot
  | none => null
  | some s => text s

/-- Which allocations succeed, and what the block for the metadata items holds before. -/
structure Heap where
  alloc : Site → Bool
  leftName : ℕ → Slot
  leftValue : ℕ → Slot

structure MetadataCopy where
  count : ℕ
  dataItems : Option (List (Slot × Slot))
  deriving DecidableEq

structure CrudCopy where
  msgType : MsgType
  source : Option CString
  dest : Option CString
  transactionUuid : Option CString
  partnerIds : Option (List (Option CString))
  headers : Option (List (Option CString))
  metadata : Option MetadataCopy
  includeSpans : Bool
  contentType : Option CString
  status : ℤ
  rdr : ℤ
  payload : Option (List Char)
  payloadSize : ℕ
  path : Option CString
  deriving DecidableEq

/-- A write through null, or a read behind a block. -/
inductive Fault
  | nullDataItems
  | behindPayload
  deriving DecidableEq

/-- The copies of the strings from the `i`th on. -/
def strdupLoop (alloc : ℕ → Bool) : ℕ → List CString → List (Option CString)
  | _, [] => []
  | i, s :: rest => strdup (alloc i) (some s) :: strdupLoop alloc (i + 1) rest

def copyStrings (allocated : Bool) (alloc : ℕ → Bool) (strings : Option (List CString)) :
    Option (List (Option CString)) :=
  (strings.filter (· ≠ [])).bind fun strings ↦
    if allocated then some (strdupLoop alloc 0 strings) else none

/-- A field that is null is not written. -/
def copyField (allocated : Bool) (left : Slot) : Option CString → Slot
  | none => left
  | some s => .ofPointer (strdup allocated (some s))

def itemLoop (heap : Heap) : ℕ → List (Option CString × Option CString) → List (Slot × Slot)
  | _, [] => []
  | i, item :: rest =>
    (copyField (heap.alloc (.name i)) (heap.leftName i) item.1,
      copyField (heap.alloc (.value i)) (heap.leftValue i) item.2) :: itemLoop heap (i + 1) rest

def copyItems (heap : Heap) (items : List (Option CString × Option CString)) :
    Except Fault MetadataCopy :=
  if heap.alloc .dataItems then .ok ⟨items.length, some (itemLoop heap 0 items)⟩
  else if items.all (· == (none, none)) then .ok ⟨items.length, none⟩
  else .error .nullDataItems

def copyMetadata (heap : Heap) (metadata : Option (List (Option CString × Option CString))) :
    Except Fault (Option MetadataCopy) :=
  match metadata.filter (· ≠ []) with
  | none => .ok none
  | some items => if heap.alloc .metadata then some <$> copyItems heap items else .ok none

/-- The block up to its first zero. -/
def copyPayload (allocated : Bool) : Option (List Char) → Except Fault (Option (List Char))
  | none => .ok none
  | some block =>
    if nul ∈ block then .ok (if allocated then some (block.takeWhile (· ≠ nul) ++ [nul]) else none)
    else .error .behindPayload

def fillMessage (heap : Heap) (message : Decoded) (metadata : Option MetadataCopy)
    (payload : Option (List Char)) : CrudCopy where
  msgType := message.msgType
  source := strdup (heap.alloc .source) message.source
  dest := strdup (heap.alloc .dest) message.dest
  transactionUuid := strdup (heap.alloc .transactionUuid) message.transactionUuid
  partnerIds := copyStrings (heap.alloc .partnerIds) (fun i ↦ heap.alloc (.partnerId i))
    message.partnerIds
  headers := copyStrings (heap.alloc .headers) (fun i ↦ heap.alloc (.header i)) message.headers
  metadata := metadata
  includeSpans := message.includeSpans
  contentType := strdup (heap.alloc .contentType) message.contentType
  status := message.status
  rdr := message.rdr
  payload := payload
  payloadSize := message.payloadSize
  path := strdup (heap.alloc .path) message.path

/-- `none` is a message that could not be allocated. -/
def createNewMsgForCRUD (heap : Heap) (message : Decoded) : Except Fault (Option CrudCopy) :=
  if heap.alloc .message then do
    let metadata ← copyMetadata heap message.metadata
    let payload ← copyPayload (heap.alloc .payload) message.payload
    pure (some (fillMessage heap message metadata payload))
  else .ok none

/-- The bytes that a payload and its size stand for, if the block holds so many. -/
def payloadBytes (payload : Option (List Char)) (payloadSize : ℕ) : Option (List Char) :=
  if payloadSize ≤ (payload.getD []).length then some ((payload.getD []).take payloadSize) else none

/-- The items of a copy, as many as it counts; no metadata stands for no items. -/
def copiedItems : Option MetadataCopy → Option (List (Slot × Slot))
  | none => some []
  | some metadata => metadata.dataItems.map (·.take metadata.count)

def itemSlots (item : Option CString × Option CString) : Slot × Slot :=
  (.ofPointer item.1, .ofPointer item.2)

structure Faithful (message : Decoded) (copy : CrudCopy) : Prop where
  msgType : copy.msgType = message.msgType
  source : copy.source = message.source
  dest : copy.dest = message.dest
  transactionUuid : copy.transactionUuid = message.transactionUuid
  partnerIds : copy.partnerIds.getD [] = (message.partnerIds.getD []).map some
  headers : copy.headers.getD [] = (message.headers.getD []).map some
  items : copiedItems copy.metadata = some ((message.metadata.getD []).map itemSlots)
  contentType : copy.contentType = message.contentType
  status : copy.status = message.status
  rdr : copy.rdr = message.rdr
  path : copy.path = message.path
  includeSpans : copy.includeSpans = message.includeSpans
  payload : copy.payload.isSome = message.payload.isSome
  bytes : payloadBytes copy.payload copy.payloadSize =
    payloadBytes message.payload message.payloadSize
  payloadSize : copy.payloadSize = message.payloadSize

/-- The allocations that the copy of a message asks for. -/
def Requested (message : Decoded) : Site → Prop
  | .message => True
  | .source => message.source.isSome
  | .dest => message.dest.isSome
  | .transactionUuid => message.transactionUuid.isSome
  | .partnerIds => message.partnerIds.getD [] ≠ []
  | .partnerId i => i < (message.partnerIds.getD []).length
  | .headers => message.headers.getD [] ≠ []
  | .header i => i < (message.headers.getD []).length
  | .metadata | .dataItems => message.metadata.getD [] ≠ []
  | .name i => ∃ item, (message.metadata.getD [])[i]? = some item ∧ item.1.isSome
  | .value i => ∃ item, (message.metadata.getD [])[i]? = some item ∧ item.2.isSome
  | .contentType => message.contentType.isSome
  | .payload => message.payload.isSome
  | .path => message.path.isSome

/-- Where an item has no name or no value, the block happens to hold null. -/
def Cleared (heap : Heap) (message : Decoded) : Prop :=
  ∀ i item, (message.metadata.getD [])[i]? = some item →
    (item.1 = none → heap.leftName i = .null) ∧ (item.2 = none → heap.leftValue i = .null)

/-- The payload is a text with a zero behind it, which may count as its last byte. -/
def PayloadIsText (message : Decoded) : Prop :=
  ∀ block, message.payload = some block → nul ∈ block ∧ nul ∉ block.take (message.payloadSize - 1)

variable {heap : Heap} {message : Decoded} {allocated : Bool} {alloc : ℕ → Bool} {n : ℕ}

theorem strdup_eq_iff {s : Option CString} :
    strdup allocated s = s ↔ (s.isSome → allocated = true) := by
  cases s with
  | none => exact iff_of_true (by cases allocated <;> rfl) (fun h ↦ by cases h)
  | some s => cases allocated <;> simp [strdup]

theorem strdupLoop_eq_iff {strings : List CString} :
    strdupLoop alloc n strings = strings.map some ↔
      ∀ i < strings.length, alloc (n + i) = true := by
  induction strings generalizing n with
  | nil => exact iff_of_true rfl fun i hi ↦ absurd hi (Nat.not_lt_zero i)
  | cons s strings ih =>
    rw [strdupLoop, List.map_cons, List.cons_eq_cons, ih, strdup_eq_iff]
    constructor
    · rintro ⟨hhead, hrest⟩ i hi
      cases i with
      | zero => exact hhead rfl
      | succ i =>
        have hi' := hrest i (Nat.lt_of_succ_lt_succ hi)
        rwa [Nat.add_assoc, Nat.add_comm 1] at hi'
    · intro h
      refine ⟨fun _ ↦ h 0 (Nat.succ_pos _), fun i hi ↦ ?_⟩
      rw [Nat.add_assoc, Nat.add_comm 1]
      exact h (i + 1) (Nat.succ_lt_succ hi)

theorem copyStrings_eq_iff {strings : Option (List CString)} :
    (copyStrings allocated alloc strings).getD [] = (strings.getD []).map some ↔
      (strings.getD [] ≠ [] → allocated = true) ∧
        ∀ i < (strings.getD []).length, alloc i = true := by
  obtain _ | _ | ⟨s, strings⟩ := strings
  · exact iff_of_true rfl ⟨fun h ↦ absurd rfl h, fun i hi ↦ absurd hi (Nat.not_lt_zero i)⟩
  · exact iff_of_true rfl ⟨fun h ↦ absurd rfl h, fun i hi ↦ absurd hi (Nat.not_lt_zero i)⟩
  · cases allocated with
    | false => exact iff_of_false (fun h ↦ by cases h) fun h ↦ by cases h.1 (List.cons_ne_nil _ _)
    | true =>
      have hloop := @strdupLoop_eq_iff alloc 0 (s :: strings)
      simp only [Nat.zero_add] at hloop
      exact hloop.trans (and_iff_right fun _ ↦ rfl).symm

theorem copyField_eq_iff {left : Slot} {s : Option CString} :
    copyField allocated left s = .ofPointer s ↔
      (s.isSome → allocated = true) ∧ (s = none → left = .null) := by
  cases s with
  | none => simp [copyField, Slot.ofPointer]
  | some s => cases allocated <;> simp [copyField, strdup, Slot.ofPointer]

theorem itemLoop_eq_iff {items : List (Option CString × Option CString)} :
    itemLoop heap n items = items.map itemSlots ↔
      ∀ i item, items[i]? = some item →
        ((item.1.isSome → heap.alloc (.name (n + i)) = true) ∧
          (item.1 = none → heap.leftName (n + i) = .null)) ∧
        ((item.2.isSome → heap.alloc (.value (n + i)) = true) ∧
          (item.2 = none → heap.leftValue (n + i) = .null)) := by
  induction items generalizing n with
  | nil => exact iff_of_true rfl fun i item hitem ↦ by cases hitem
  | cons item items ih =>
    rw [itemLoop, List.map_cons, List.cons_eq_cons, itemSlots, Prod.mk.injEq, copyField_eq_iff,
      copyField_eq_iff, ih]
    constructor
    · rintro ⟨hhead, hrest⟩ i item' hitem
      cases i with
      | zero =>
        obtain rfl := Option.some.inj hitem
        exact hhead
      | succ i =>
        have hi := hrest i item' hitem
        rwa [Nat.add_assoc, Nat.add_comm 1] at hi
    · intro h
      refine ⟨h 0 item rfl, fun i item' hitem ↦ ?_⟩
      rw [Nat.add_assoc, Nat.add_comm 1]
      exact h (i + 1) item' hitem

theorem Cleared.itemLoop (h : Cleared heap message)
    (hname : ∀ i, Requested message (.name i) → heap.alloc (.name i) = true)
    (hvalue : ∀ i, Requested message (.value i) → heap.alloc (.value i) = true) :
    itemLoop heap 0 (message.metadata.getD []) = (message.metadata.getD []).map itemSlots := by
  refine itemLoop_eq_iff.mpr fun i item hitem ↦ ?_
  rw [Nat.zero_add]
  exact ⟨⟨fun hsome ↦ hname i ⟨item, hitem, hsome⟩, (h i item hitem).1⟩,
    fun hsome ↦ hvalue i ⟨item, hitem, hsome⟩, (h i item hitem).2⟩

theorem take_itemLoop (items : List (Option CString × Option CString)) :
    (itemLoop heap n items).take items.length = itemLoop heap n items := by
  induction items generalizing n with
  | nil => rfl
  | cons item items ih => rw [itemLoop, List.length_cons, List.take_succ_cons, ih]

theorem copyMetadata_iff {metadata : Option (List (Option CString × Option CString))} :
    (∃ copied, copyMetadata heap metadata = .ok copied ∧
        copiedItems copied = some ((metadata.getD []).map itemSlots)) ↔
      (metadata.getD [] ≠ [] → heap.alloc .metadata = true ∧ heap.alloc .dataItems = true) ∧
        itemLoop heap 0 (metadata.getD []) = (metadata.getD []).map itemSlots := by
  obtain _ | _ | ⟨item, items⟩ := metadata
  · exact iff_of_true ⟨none, rfl, rfl⟩ ⟨fun h ↦ absurd rfl h, rfl⟩
  · exact iff_of_true ⟨none, rfl, rfl⟩ ⟨fun h ↦ absurd rfl h, rfl⟩
  · have hne : item :: items ≠ [] := List.cons_ne_nil _ _
    have hfilter : (some (item :: items)).filter (· ≠ []) = some (item :: items) := rfl
    rw [copyMetadata, hfilter, Option.getD_some]
    cases hmetadata : heap.alloc .metadata with
    | false =>
      refine iff_of_false ?_ fun h ↦ by cases (h.1 hne).1
      rintro ⟨_, ⟨⟩, hitems⟩
      cases hitems
    | true =>
      cases hdata : heap.alloc .dataItems with
      | false =>
        refine iff_of_false ?_ fun h ↦ by cases (h.1 hne).2
        rintro ⟨copied, hcopied, hitems⟩
        dsimp only at hcopied
        rw [if_pos rfl, copyItems, hdata, if_neg Bool.false_ne_true] at hcopied
        split at hcopied
        · obtain rfl := Except.ok.inj hcopied
          cases hitems
        · cases hcopied
      | true =>
        dsimp only
        rw [if_pos rfl, copyItems, hdata, if_pos rfl]
        have htake := @take_itemLoop heap 0 (item :: items)
        constructor
        · rintro ⟨_, ⟨⟩, hitems⟩
          exact ⟨fun _ ↦ ⟨rfl, rfl⟩, htake.symm.trans (Option.some.inj hitems)⟩
        · rintro ⟨_, hloop⟩
          exact ⟨_, rfl, congrArg some (htake.trans hloop)⟩

/-- What a text with its zero holds of a block that begins with them. -/
theorem payloadBytes_text_iff {a rest : List Char} {payloadSize : ℕ} (ha : nul ∉ a)
    (hheld : payloadSize ≤ (a ++ nul :: rest).length) :
    payloadBytes (some (a ++ [nul])) payloadSize =
        payloadBytes (some (a ++ nul :: rest)) payloadSize ↔
      nul ∉ (a ++ nul :: rest).take (payloadSize - 1) := by
  have hlen : (a ++ [nul]).length = a.length + 1 := by
    rw [List.length_append, List.length_singleton]
  rw [payloadBytes, payloadBytes, Option.getD_some, Option.getD_some, if_pos hheld, hlen]
  by_cases hfits : payloadSize ≤ a.length + 1
  · have hsize : payloadSize - a.length ≤ 1 := by omega
    have htake : (a ++ [nul]).take payloadSize = (a ++ nul :: rest).take payloadSize := by
      rw [List.take_append, List.take_append]
      obtain hzero | hone := Nat.le_one_iff_eq_zero_or_eq_one.mp hsize
      · rw [hzero, List.take_zero, List.take_zero]
      · rw [hone]
        rfl
    have hle : payloadSize - 1 ≤ a.length := by omega
    rw [if_pos hfits, htake, List.take_append_of_le_length hle]
    exact iff_of_true rfl (mt List.mem_of_mem_take ha)
  · have hmem : nul ∈ (a ++ nul :: rest).take (payloadSize - 1) := by
      have hpos : 0 < payloadSize - 1 - a.length := by omega
      obtain ⟨k, hk⟩ := Nat.exists_eq_add_one.mpr hpos
      rw [List.take_append, hk, List.take_succ_cons]
      exact List.mem_append_right _ List.mem_cons_self
    rw [if_neg hfits]
    exact iff_of_false (fun h ↦ by cases h) (not_not_intro hmem)

theorem copyPayload_iff {payload : Option (List Char)} {payloadSize : ℕ}
    (hheld : payloadSize ≤ (payload.getD []).length) :
    (∃ copied, copyPayload allocated payload = .ok copied ∧ copied.isSome = payload.isSome ∧
        payloadBytes copied payloadSize = payloadBytes payload payloadSize) ↔
      (payload.isSome → allocated = true) ∧ ∀ block, payload = some block →
        nul ∈ block ∧ nul ∉ block.take (payloadSize - 1) := by
  cases payload with
  | none =>
    exact iff_of_true ⟨none, rfl, rfl, rfl⟩ ⟨fun h ↦ (by cases h), fun _ h ↦ by cases h⟩
  | some block =>
    rw [copyPayload]
    by_cases hnul : nul ∈ block
    · rw [if_pos hnul]
      cases allocated with
      | false =>
        refine iff_of_false ?_ fun h ↦ by cases h.1 rfl
        rintro ⟨_, ⟨⟩, hsome, _⟩
        cases hsome
      | true =>
        obtain ⟨a, rest, rfl, ha⟩ := List.eq_append_cons_of_mem hnul
        have hbytes := payloadBytes_text_iff ha hheld
        rw [if_pos rfl, takeWhile_closed ha (.inr ⟨_, rfl⟩)]
        constructor
        · rintro ⟨_, ⟨⟩, _, hcopied⟩
          refine ⟨fun _ ↦ rfl, ?_⟩
          rintro _ ⟨⟩
          exact ⟨hnul, hbytes.mp hcopied⟩
        · rintro ⟨_, htext⟩
          exact ⟨_, rfl, rfl, hbytes.mpr (htext _ rfl).2⟩
    · rw [if_neg hnul]
      refine iff_of_false ?_ fun h ↦ hnul (h.2 block rfl).1
      rintro ⟨_, ⟨⟩, _⟩

theorem createNewMsgForCRUD_eq_ok_iff {copy : CrudCopy} :
    createNewMsgForCRUD heap message = .ok (some copy) ↔ heap.alloc .message = true ∧
      ∃ metadata payload, copyMetadata heap message.metadata = .ok metadata ∧
        copyPayload (heap.alloc .payload) message.payload = .ok payload ∧
        fillMessage heap message metadata payload = copy := by
  rw [createNewMsgForCRUD]
  cases heap.alloc .message with
  | false => exact iff_of_false (fun h ↦ by cases h) fun h ↦ by cases h.1
  | true =>
    rw [if_pos rfl]
    cases copyMetadata heap message.metadata with
    | error fault => exact iff_of_false (fun h ↦ by cases h) fun ⟨_, _, _, h, _⟩ ↦ by cases h
    | ok metadata =>
      cases copyPayload (heap.alloc .payload) message.payload with
      | error fault => exact iff_of_false (fun h ↦ by cases h) fun ⟨_, _, _, _, h, _⟩ ↦ by cases h
      | ok payload =>
        constructor
        · intro h
          exact ⟨rfl, metadata, payload, rfl, rfl, Option.some.inj (Except.ok.inj h)⟩
        · rintro ⟨_, _, _, ⟨⟩, ⟨⟩, rfl⟩
          rfl

/-- The copy is faithful if all memory is there, the items that lack a field find it null, and the
payload is a text. -/
theorem createNewMsgForCRUD_faithful_iff (heap : Heap) (message : Decoded) :
    (∃ copy, createNewMsgForCRUD heap message = .ok (some copy) ∧ Faithful message copy) ↔
      (∀ site, Requested message site → heap.alloc site = true) ∧ Cleared heap message ∧
        PayloadIsText message := by
  constructor
  · rintro ⟨_, hcopy, h⟩
    obtain ⟨hmessage, metadata, payload, hmetadata, hpayload, rfl⟩ :=
      createNewMsgForCRUD_eq_ok_iff.mp hcopy
    obtain ⟨hblocks, hloop⟩ := copyMetadata_iff.mp ⟨metadata, hmetadata, h.items⟩
    obtain ⟨hallocated, htext⟩ :=
      (copyPayload_iff message.held).mp ⟨payload, hpayload, h.payload, h.bytes⟩
    have hitems := itemLoop_eq_iff.mp hloop
    simp only [Nat.zero_add] at hitems
    refine ⟨fun site hsite ↦ ?_, fun i item hitem ↦ ?_, htext⟩
    · cases site with
      | message => exact hmessage
      | source => exact strdup_eq_iff.mp h.source hsite
      | dest => exact strdup_eq_iff.mp h.dest hsite
      | transactionUuid => exact strdup_eq_iff.mp h.transactionUuid hsite
      | partnerIds => exact (copyStrings_eq_iff.mp h.partnerIds).1 hsite
      | partnerId i => exact (copyStrings_eq_iff.mp h.partnerIds).2 i hsite
      | headers => exact (copyStrings_eq_iff.mp h.headers).1 hsite
      | header i => exact (copyStrings_eq_iff.mp h.headers).2 i hsite
      | metadata => exact (hblocks hsite).1
      | dataItems => exact (hblocks hsite).2
      | name i =>
        obtain ⟨item, hitem, hname⟩ := hsite
        exact (hitems i item hitem).1.1 hname
      | value i =>
        obtain ⟨item, hitem, hvalue⟩ := hsite
        exact (hitems i item hitem).2.1 hvalue
      | contentType => exact strdup_eq_iff.mp h.contentType hsite
      | payload => exact hallocated hsite
      | path => exact strdup_eq_iff.mp h.path hsite
    · exact ⟨(hitems i item hitem).1.2, (hitems i item hitem).2.2⟩
  · rintro ⟨halloc, hcleared, htext⟩
    have hloop := hcleared.itemLoop (fun i ↦ halloc (.name i)) fun i ↦ halloc (.value i)
    obtain ⟨metadata, hmetadata, hitems⟩ := copyMetadata_iff.mpr
      ⟨fun hne ↦ ⟨halloc .metadata hne, halloc .dataItems hne⟩, hloop⟩
    obtain ⟨payload, hpayload, hsome, hbytes⟩ :=
      (copyPayload_iff message.held).mpr ⟨halloc .payload, htext⟩
    refine ⟨_, createNewMsgForCRUD_eq_ok_iff.mpr
      ⟨halloc .message trivial, metadata, payload, hmetadata, hpayload, rfl⟩, ?_⟩
    exact {
      msgType := rfl
      source := strdup_eq_iff.mpr (halloc .source)
      dest := strdup_eq_iff.mpr (halloc .dest)
      transactionUuid := strdup_eq_iff.mpr (halloc .transactionUuid)
      partnerIds := copyStrings_eq_iff.mpr
        ⟨halloc .partnerIds, fun i hi ↦ halloc (.partnerId i) hi⟩
      headers := copyStrings_eq_iff.mpr ⟨halloc .headers, fun i hi ↦ halloc (.header i) hi⟩
      items := hitems
      contentType := strdup_eq_iff.mpr (halloc .contentType)
      status := rfl
      rdr := rfl
      path := strdup_eq_iff.mpr (halloc .path)
      includeSpans := rfl
      payload := hsome
      bytes := hbytes
      payloadSize := rfl }

/-- Three bytes with a zero among them, and a zero behind. -/
def binaryPayload : Decoded where
  msgType := .crud .create
  source := some "dns:tests".toList
  dest := some "mac:14cfe2142144/parodus/tags/foo".toList
  transactionUuid := some "1234".toList
  partnerIds := none
  headers := none
  metadata := none
  includeSpans := false
  contentType := none
  status := 0
  rdr := 0
  payload := some ['a', nul, 'b', nul]
  payloadSize := 3
  path := none
  held := by decide

theorem binaryPayload_not_faithful :
    ¬∀ (heap : Heap) (message : Decoded), (∀ site, heap.alloc site = true) →
      ∃ copy, createNewMsgForCRUD heap message = .ok (some copy) ∧ Faithful message copy := by
  intro h
  obtain ⟨copy, hcopy, hfaithful⟩ :=
    h ⟨fun _ ↦ true, fun _ ↦ .null, fun _ ↦ .null⟩ binaryPayload fun _ ↦ rfl
  obtain rfl := Option.some.inj (Except.ok.inj hcopy)
  have hbytes : payloadBytes (some ['a', nul]) 3 = payloadBytes (some ['a', nul, 'b', nul]) 3 :=
    hfaithful.bytes
  cases hbytes

section
variable {calls : Calls} {msgType : MsgType} {crud : CrudMsg}

def blockText (payload : Option (List Char)) : Option CString :=
  payload.map (·.takeWhile (· ≠ nul))

/-- The message is this member of the union, with the payload up to its first zero. -/
structure Decodes (message : Decoded) (msgType : MsgType) (crud : CrudMsg) : Prop where
  msgType : message.msgType = msgType
  source : message.source = crud.source
  dest : message.dest = crud.dest
  transactionUuid : message.transactionUuid = crud.transactionUuid
  partnerIds : message.partnerIds = crud.partnerIds.map fun ids ↦ ids.partnerIds.map Owned.val
  headers : message.headers = crud.headers
  metadata : message.metadata = crud.metadata
  includeSpans : message.includeSpans = crud.includeSpans
  contentType : message.contentType = crud.contentType
  status : message.status = crud.status
  rdr : message.rdr = crud.rdr
  payload : blockText message.payload = crud.payload
  payloadSize : message.payloadSize = crud.payloadSize
  path : message.path = crud.path

/-- The copy is the entry that is queued, in the terms of texts. -/
structure Agrees (copy : CrudCopy) (entry : CrudEntry) : Prop where
  msgType : copy.msgType = entry.msgType
  source : copy.source = entry.crud.source
  dest : copy.dest = entry.crud.dest
  transactionUuid : copy.transactionUuid = entry.crud.transactionUuid
  partnerIds : copy.partnerIds = entry.crud.partnerIds.map fun ids ↦
    ids.partnerIds.map fun id ↦ some id.val
  headers : copy.headers = entry.crud.headers.map (·.map some)
  metadata : copiedItems copy.metadata = some ((entry.crud.metadata.getD []).map itemSlots)
  includeSpans : copy.includeSpans = entry.crud.includeSpans
  contentType : copy.contentType = entry.crud.contentType
  status : copy.status = entry.crud.status
  rdr : copy.rdr = entry.crud.rdr
  payload : blockText copy.payload = entry.crud.payload
  payloadSize : copy.payloadSize = entry.crud.payloadSize
  path : copy.path = entry.crud.path

/-- The allocations that the model on texts leaves open. -/
def Site.isOpen : Site → Bool
  | .source | .dest | .transactionUuid => true
  | _ => false

structure Heap.Serves (heap : Heap) (calls : Calls) : Prop where
  source : heap.alloc .source = calls.source
  dest : heap.alloc .dest = calls.dest
  transactionUuid : heap.alloc .transactionUuid = calls.transactionUuid
  others : ∀ site, site.isOpen = false → heap.alloc site = true

theorem copyStrings_of_alloc (strings : Option (List CString)) (h : ∀ i, alloc i = true) :
    copyStrings true alloc strings = (strings.filter (· ≠ [])).map (·.map some) := by
  have hloop : ∀ l, strdupLoop alloc 0 l = l.map some := fun l ↦
    strdupLoop_eq_iff.mpr fun i _ ↦ h (0 + i)
  rw [copyStrings]
  cases strings.filter (· ≠ []) with
  | none => rfl
  | some l => exact congrArg some (hloop l)

theorem filter_partnerIds (ids : Option PartnersT) :
    (ids.map fun ids ↦ ids.partnerIds.map Owned.val).filter (· ≠ []) =
      (ids.filter fun ids ↦ 0 < ids.count).map fun ids ↦ ids.partnerIds.map Owned.val := by
  cases ids with
  | none => rfl
  | some ids =>
    have hiff : ids.partnerIds.map Owned.val ≠ [] ↔ 0 < ids.count := by
      rw [Ne, List.map_eq_nil_iff, ← ids.counted, List.length_pos_iff]
    rw [Option.map_some, Option.filter_some, Option.filter_some]
    simp only [hiff]
    split <;> rfl

theorem getD_filter_ne_nil {τ : Type} [DecidableEq τ] (l : Option (List τ)) :
    (l.filter (· ≠ [])).getD [] = l.getD [] := by
  obtain _ | _ | ⟨x, l⟩ := l
  · rfl
  · rfl
  · rfl

theorem copyPayload_of_zero {payload : Option (List Char)}
    (hzero : ∀ block, payload = some block → nul ∈ block) :
    ∃ copied, copyPayload true payload = .ok copied ∧ blockText copied = blockText payload := by
  cases payload with
  | none => exact ⟨none, rfl, rfl⟩
  | some block =>
    obtain ⟨a, rest, rfl, ha⟩ := List.eq_append_cons_of_mem (hzero block rfl)
    have htext := takeWhile_closed ha (.inr ⟨rest, rfl⟩)
    refine ⟨some (a ++ [nul]), ?_, ?_⟩
    · rw [copyPayload, if_pos (hzero _ rfl), if_pos rfl, htext]
    · rw [blockText, blockText, Option.map_some, Option.map_some, htext,
        takeWhile_closed ha (.inr ⟨[], rfl⟩)]

/-- With memory for the rest, the copy of a message is the entry of the model on texts. -/
theorem createNewMsgForCRUD_agrees (h : Decodes message msgType crud) (hheap : heap.Serves calls)
    (hcleared : Cleared heap message)
    (hzero : ∀ block, message.payload = some block → nul ∈ block) :
    ∃ copy, createNewMsgForCRUD heap message = .ok (some copy) ∧
      Agrees copy (Downstream.createNewMsgForCRUD calls msgType crud) := by
  have halloc := hheap.others
  have hloop := hcleared.itemLoop (fun i _ ↦ halloc (.name i) rfl) fun i _ ↦ halloc (.value i) rfl
  obtain ⟨metadata, hmetadata, hitems⟩ := copyMetadata_iff.mpr
    ⟨fun _ ↦ ⟨halloc .metadata rfl, halloc .dataItems rfl⟩, hloop⟩
  obtain ⟨payload, hpayload, htext⟩ := copyPayload_of_zero hzero
  rw [← halloc .payload rfl] at hpayload
  refine ⟨_, createNewMsgForCRUD_eq_ok_iff.mpr
    ⟨halloc .message rfl, metadata, payload, hmetadata, hpayload, rfl⟩, ?_⟩
  exact {
    msgType := h.msgType
    source := congrArg₂ strdup hheap.source h.source
    dest := congrArg₂ strdup hheap.dest h.dest
    transactionUuid := congrArg₂ strdup hheap.transactionUuid h.transactionUuid
    partnerIds := by
      change copyStrings _ _ message.partnerIds = _
      rw [halloc .partnerIds rfl, copyStrings_of_alloc _ fun i ↦ halloc (.partnerId i) rfl,
        h.partnerIds, filter_partnerIds, Option.map_map]
      refine congrFun (congrArg Option.map (funext fun ids ↦ ?_)) _
      exact List.map_map
    headers := by
      change copyStrings _ _ message.headers = _
      rw [halloc .headers rfl, copyStrings_of_alloc _ fun i ↦ halloc (.header i) rfl, h.headers]
      rfl
    metadata := by
      change _ = some (((crud.metadata.filter (· ≠ [])).getD []).map itemSlots)
      rw [getD_filter_ne_nil, ← h.metadata]
      exact hitems
    includeSpans := h.includeSpans
    contentType := congrArg₂ strdup (halloc .contentType rfl) h.contentType
    status := h.status
    rdr := h.rdr
    payload := htext.trans h.payload
    payloadSize := h.payloadSize
    path := congrArg₂ strdup (halloc .path rfl) h.path }

end

end Parodus.Downstream.Copy
