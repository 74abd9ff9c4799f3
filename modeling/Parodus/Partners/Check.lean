import Parodus.Wrp

namespace Parodus.Partners

open Foundation

inductive Fault
  | nullPartnerIds
  deriving DecidableEq

theorem splitOn_length (s : CString) : (s.splitOn ',').length = s.count ',' + 1 := by
  induction s with
  | nil => rfl
  | cons c s ih =>
    rw [List.splitOn_cons_eq_if_modifyHead]
    by_cases hc : c = ','
    · simp [hc, ih]
    · simp [hc, ih]

theorem length_le_of_mem_splitOn {s t : CString} (h : t ∈ s.splitOn ',') :
    t.length ≤ s.length := by
  induction s generalizing t with
  | nil => simp_all
  | cons c s ih =>
    rw [List.splitOn_cons_eq_if_modifyHead] at h
    cases hs : s.splitOn ',' with
    | nil => exact absurd hs (List.splitOn_ne_nil ',' s)
    | cons u us =>
      rw [hs] at ih h
      have hu : ∀ v ∈ u :: us, v.length ≤ s.length := fun v hv ↦ ih hv
      by_cases hc : c = ','
      · simp only [hc, beq_self_eq_true, if_true, List.mem_cons] at h
        rcases h with rfl | h
        · simp
        · exact (hu t (List.mem_cons.mpr h)).trans (by simp)
      · simp only [beq_iff_eq, hc, if_false, List.modifyHead_cons, List.mem_cons] at h
        rcases h with rfl | h
        · simpa using hu u List.mem_cons_self
        · exact (hu t (List.mem_cons_of_mem _ h)).trans (by simp)

/-- The commas are counted first, then `strsep` cuts the string at each of
them and every token is duplicated into its slot. -/
def parsePartnerId (partnerId : CString) (heap : Ledger) : PartnersT × Ledger :=
  let tokens := heap.allocAll (partnerId.splitOn ',')
  (⟨partnerId.count ',' + 1, tokens.1, by
    rw [Ledger.allocAll_length, splitOn_length]⟩, tokens.2)

def matchesConfigured (partnersList : PartnersT) (id : CString) : Bool :=
  partnersList.partnerIds.any fun configured ↦ strcaseeq configured.val id

/-- The loops over an event's ids stop at the first match. -/
def eventMatches (partnersList ids : PartnersT) : Bool :=
  ids.visited.any fun id ↦ matchesConfigured partnersList id.val

/-- The loop over a request's ids has no such exit and keeps the flag. -/
def reqMatches (partnersList ids : PartnersT) : Bool :=
  ids.visited.foldl (fun matchFlag id ↦ matchFlag || matchesConfigured partnersList id.val) false

theorem reqMatches_eq_eventMatches (partnersList ids : PartnersT) :
    reqMatches partnersList ids = eventMatches partnersList ids := by
  have h : ∀ (xs : List (Owned CString)) (flag : Bool),
      xs.foldl (fun matchFlag id ↦ matchFlag || matchesConfigured partnersList id.val) flag =
        (flag || xs.any fun id ↦ matchesConfigured partnersList id.val) := by
    intro xs
    induction xs with
    | nil => simp
    | cons x xs ih => intro flag; simp [ih, Bool.or_assoc]
  simpa [reqMatches, eventMatches] using h ids.visited false

/-- The ids of the message, whose pointers are copied, then a fresh 64-byte
copy of every configured id. -/
def appendPartnerIds (ids : List (Owned CString)) (partnersList : PartnersT)
    (heap : Ledger) : PartnersT × Ledger :=
  let copies := heap.allocAll
    (partnersList.partnerIds.map fun id ↦ (parStrncpy id.val : CharBuf 64).text)
  (⟨ids.length + partnersList.count, ids ++ copies.1, by
    rw [List.length_append, Ledger.allocAll_length, List.length_map, partnersList.counted]⟩,
    copies.2)

/-- The store `(*partnerIds) = list`; the outer `none` is the null pointer. -/
def assign (partnerIds : Option (Option PartnersT)) (list : PartnersT) :
    Except Fault (Option (Option PartnersT)) :=
  match partnerIds with
  | none => .error .nullPartnerIds
  | some _ => .ok (some (some list))

structure Validated where
  ret : ℤ
  partnerIds : Option (Option PartnersT)
  heap : Ledger
  deriving DecidableEq

def validatePartnerId (cfg : CharBuf 64) (msg : WrpMsg) (partnerIds : Option (Option PartnersT))
    (heap : Ledger) : Except Fault Validated :=
  if cfg.text = [] then .ok ⟨0, partnerIds, heap⟩
  else
    let partnerId := heap.alloc cfg.text
    let parsed := parsePartnerId partnerId.1.val partnerId.2
    let release (heap : Ledger) := (heap.freeAll parsed.1.partnerIds).free partnerId.1
    let extend (ids : List (Owned CString)) : Except Fault Validated :=
      let list := appendPartnerIds ids parsed.1 parsed.2
      (assign partnerIds list.1).map fun out ↦ ⟨1, out, release list.2⟩
    match msg with
    | .event event =>
      match event.partnerIds with
      | some ids =>
        if eventMatches parsed.1 ids then .ok ⟨1, partnerIds, release parsed.2⟩
        else extend ids.visited
      | none => extend []
    | .req req =>
      match req.partnerIds with
      | some ids =>
        -- a request of another partner is refused, nothing is appended to it
        if reqMatches parsed.1 ids then .ok ⟨1, partnerIds, release parsed.2⟩
        else .ok ⟨-1, partnerIds, release parsed.2⟩
      | none => .ok ⟨1, partnerIds, release parsed.2⟩
    | _ => .ok ⟨1, partnerIds, release parsed.2⟩

def comcast : CharBuf 64 := ⟨"comcast".toList, by decide⟩

def HasConfigured (cfg : CharBuf 64) (ids : PartnersT) : Prop :=
  ∃ id ∈ ids.visited, ∃ configured ∈ cfg.text.splitOn ',', strcaseeq configured id.val = true

theorem eventMatches_iff (cfg : CharBuf 64) (ids : PartnersT) (heap : Ledger) :
    eventMatches (parsePartnerId cfg.text heap).1 ids = true ↔ HasConfigured cfg ids := by
  have h : ∀ id : CString, matchesConfigured (parsePartnerId cfg.text heap).1 id = true ↔
      ∃ configured ∈ cfg.text.splitOn ',', strcaseeq configured id = true := by
    intro id
    rw [matchesConfigured, ← List.any_eq_true, ← Function.comp_def (fun t ↦ strcaseeq t id),
      ← List.any_map, parsePartnerId, Ledger.allocAll_val]
  simp only [eventMatches, List.any_eq_true, h, HasConfigured]

/-- The out-parameter is written exactly for the events that a configured
device extends, so a null pointer is written through exactly there. -/
theorem validatePartnerId_no_null_write_iff (cfg : CharBuf 64) (msg : WrpMsg)
    (partnerIds : Option (Option PartnersT)) (heap : Ledger) :
    validatePartnerId cfg msg partnerIds heap ≠ .error .nullPartnerIds ↔
      partnerIds ≠ none ∨ cfg.text = [] ∨ ∀ event, msg = .event event →
        ∃ ids, event.partnerIds = some ids ∧ HasConfigured cfg ids := by
  have hassign : ∀ list (f : Option (Option PartnersT) → Validated),
      (assign partnerIds list).map f ≠ .error .nullPartnerIds ↔ partnerIds ≠ none := by
    intro list f
    cases partnerIds <;> simp [assign, Except.map]
  by_cases hcfg : cfg.text = []
  · simp [validatePartnerId, hcfg]
  cases msg with
  | event event =>
    cases hids : event.partnerIds with
    | none => simp [validatePartnerId, hcfg, hids, hassign]
    | some ids =>
      have hmatch := eventMatches_iff cfg ids (heap.alloc cfg.text).2
      by_cases hc : HasConfigured cfg ids
      · simp [validatePartnerId, hcfg, hids, hc, hmatch.mpr hc]
      · have hm : ¬ eventMatches (parsePartnerId cfg.text (heap.alloc cfg.text).2).1 ids = true :=
          fun h ↦ hc (hmatch.mp h)
        simp [validatePartnerId, hcfg, hids, hc, hm, hassign]
  | req req =>
    cases hids : req.partnerIds with
    | none => simp [validatePartnerId, hcfg, hids]
    | some ids =>
      simp only [validatePartnerId, hcfg, hids, if_false]
      split <;> simp
  | _ => simp [validatePartnerId, hcfg]

def eventWithoutPartner : EventMsg where
  source := "dns:webpa".toList
  dest := "mac:112233445566/iot".toList
  partnerIds := none
  headers := none
  metadata := none
  contentType := none
  payload := none
  payloadSize := 0

/-- The call that `listenerOnMessage` makes for an event without partner list. -/
theorem validatePartnerId_null_write :
    validatePartnerId comcast (.event eventWithoutPartner) none ⟨0, []⟩ =
      .error .nullPartnerIds := by
  decide

end Parodus.Partners
