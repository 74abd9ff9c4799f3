import Parodus.Partners.Check

namespace Parodus.Partners

open Foundation

/-- What is handed to `sendUpstreamMsgToServer`: the event built anew, or the
bytes that were received. -/
inductive Sent
  | rebuilt (event : EventMsg)
  | received
  deriving DecidableEq

structure EventDone where
  sent : Option Sent
  heap : Ledger
  deriving DecidableEq

def wrpFreeStruct (event : EventMsg) (heap : Ledger) : Ledger :=
  match event.partnerIds with
  | some ids => heap.freeAll ids.partnerIds
  | none => heap

/-- `wrpStructTo` gives the size of the encoded message, negative on failure. -/
def sendIfEncoded (wrpStructTo : WrpMsg → ℤ) (eventMsg : EventMsg) : Option Sent :=
  if 0 < wrpStructTo (.event eventMsg) then some (.rebuilt eventMsg) else none

/-- The event branch of `processUpstreamMessage`, up to the release of the
decoded message. -/
def processEvent (cfg : CharBuf 64) (wrpStructTo : WrpMsg → ℤ) (event : EventMsg)
    (heap : Ledger) : Except Fault EventDone :=
  (validatePartnerId cfg (.event event) (some none) heap).map fun v ↦
    let partnersList := v.partnerIds.join
    let eventMsg := { event with partnerIds := partnersList }
    let sent := if v.ret = 1 then sendIfEncoded wrpStructTo eventMsg else some .received
    let heap :=
      match partnersList with
      | some list => v.heap.freeAll list.partnerIds
      | none => v.heap
    ⟨sent, wrpFreeStruct event heap⟩

/-- An event as `wrp_to_struct` delivers it: its partner ids are few enough for
an `int`, and lie in distinct heap strings. -/
structure ReceivedEvent where
  event : EventMsg
  next : ℕ
  few : ∀ ids, event.partnerIds = some ids → ids.count < 2147483648
  distinct : ∀ ids, event.partnerIds = some ids → (ids.partnerIds.map Owned.id).Nodup
  allocated : ∀ ids, event.partnerIds = some ids → ∀ x ∈ ids.partnerIds, x.id < next

namespace ReceivedEvent

def heap (e : ReceivedEvent) : Ledger := ⟨e.next, []⟩

def partnerIds (e : ReceivedEvent) : List (Owned CString) :=
  (e.event.partnerIds.map PartnersT.partnerIds).getD []

def texts (e : ReceivedEvent) : List CString := e.partnerIds.map Owned.val

def Matched (cfg : CharBuf 64) (e : ReceivedEvent) : Prop :=
  cfg.text ≠ [] ∧ ∃ id ∈ e.texts, ∃ configured ∈ cfg.text.splitOn ',',
    strcaseeq configured id = true

theorem ids_nodup (e : ReceivedEvent) : (e.partnerIds.map Owned.id).Nodup := by
  cases h : e.event.partnerIds with
  | none => simp [partnerIds, h]
  | some ids => simpa [partnerIds, h] using e.distinct ids h

theorem id_lt_next (e : ReceivedEvent) {i : ℕ} (hi : i ∈ e.partnerIds.map Owned.id) :
    i < e.next := by
  obtain ⟨x, hx, rfl⟩ := List.mem_map.mp hi
  cases h : e.event.partnerIds with
  | none => simp [partnerIds, h] at hx
  | some ids => exact e.allocated ids h x (by simpa [partnerIds, h] using hx)

theorem hasConfigured_iff {cfg : CharBuf 64} (e : ReceivedEvent) (hcfg : cfg.text ≠ [])
    {ids : PartnersT} (h : e.event.partnerIds = some ids) :
    HasConfigured cfg ids ↔ e.Matched cfg := by
  simp [HasConfigured, Matched, hcfg, texts, partnerIds, h, PartnersT.visited_eq (e.few ids h)]

end ReceivedEvent

def eventOf (id : CString) : ReceivedEvent where
  event :=
    { source := "mac:112233445566/iot".toList
      dest := "event:device-status".toList
      partnerIds := some ⟨1, [⟨0, id⟩], rfl⟩
      headers := none
      metadata := none
      contentType := none
      payload := none
      payloadSize := 0 }
  next := 1
  few := by rintro ids ⟨rfl⟩; exact Nat.succ_lt_succ (Nat.succ_pos _)
  distinct := by rintro ids ⟨rfl⟩; exact List.nodup_singleton 0
  allocated := by rintro ids ⟨rfl⟩; simp

def checked (cfg : CharBuf 64) (heap : Ledger) : PartnersT × Ledger :=
  parsePartnerId cfg.text (heap.alloc cfg.text).2

theorem checked_next (cfg : CharBuf 64) (heap : Ledger) :
    (checked cfg heap).2.next = heap.next + 1 + (cfg.text.splitOn ',').length := by
  simp [checked, parsePartnerId]

theorem checked_freed (cfg : CharBuf 64) (heap : Ledger) :
    (checked cfg heap).2.freed = heap.freed := by
  simp [checked, parsePartnerId]

theorem checked_id (cfg : CharBuf 64) (heap : Ledger) :
    (checked cfg heap).1.partnerIds.map Owned.id =
      List.range' (heap.next + 1) (cfg.text.splitOn ',').length := by
  simp [checked, parsePartnerId]

theorem checked_val (cfg : CharBuf 64) (heap : Ledger) :
    (checked cfg heap).1.partnerIds.map Owned.val = cfg.text.splitOn ',' := by
  simp [checked, parsePartnerId]

theorem copied_val (cfg : CharBuf 64) (heap : Ledger) :
    (checked cfg heap).1.partnerIds.map (fun id ↦ (parStrncpy id.val : CharBuf 64).text) =
      cfg.text.splitOn ',' := by
  have hcopy : ∀ t ∈ cfg.text.splitOn ',', (parStrncpy t : CharBuf 64).text = t := by
    intro t ht
    have hlen := length_le_of_mem_splitOn ht
    have hfits := cfg.fits
    exact parStrncpy_text_eq_iff.mpr (by omega)
  calc (checked cfg heap).1.partnerIds.map (fun id ↦ (parStrncpy id.val : CharBuf 64).text)
      = ((checked cfg heap).1.partnerIds.map Owned.val).map
          (fun t ↦ (parStrncpy t : CharBuf 64).text) := by
        rw [List.map_map]; rfl
    _ = (cfg.text.splitOn ',').map id := by
        rw [checked_val]; exact List.map_congr_left hcopy
    _ = cfg.text.splitOn ',' := List.map_id _

variable (cfg : CharBuf 64) (wrpStructTo : WrpMsg → ℤ) (e : ReceivedEvent)

theorem sendIfEncoded_eq {wrpStructTo : WrpMsg → ℤ} {eventMsg : EventMsg} {sent : Sent}
    (h : sendIfEncoded wrpStructTo eventMsg = some sent) : sent = .rebuilt eventMsg := by
  unfold sendIfEncoded at h
  split at h
  · exact (Option.some.inj h).symm
  · cases h

theorem wrpFreeStruct_next (heap : Ledger) : (wrpFreeStruct e.event heap).next = heap.next := by
  cases h : e.event.partnerIds <;> simp [wrpFreeStruct, h]

theorem wrpFreeStruct_freed (heap : Ledger) :
    (wrpFreeStruct e.event heap).freed = heap.freed ++ e.partnerIds.map Owned.id := by
  cases h : e.event.partnerIds <;> simp [wrpFreeStruct, ReceivedEvent.partnerIds, h]

theorem processEvent_unconfigured (hcfg : cfg.text = []) :
    processEvent cfg wrpStructTo e.event e.heap =
      .ok ⟨some .received, wrpFreeStruct e.event e.heap⟩ := by
  simp [processEvent, validatePartnerId, hcfg, Except.map]

/-- A match leaves the out list unset, so the event is rebuilt without one. -/
theorem processEvent_matched (hm : e.Matched cfg) :
    ∃ heap, processEvent cfg wrpStructTo e.event e.heap =
        .ok ⟨sendIfEncoded wrpStructTo { e.event with partnerIds := none }, heap⟩ ∧
      heap.next = e.next + (1 + (cfg.text.splitOn ',').length) ∧
      heap.freed = List.range' (e.next + 1) (cfg.text.splitOn ',').length ++ [e.next] ++
        e.partnerIds.map Owned.id := by
  have hcfg := hm.1
  cases hids : e.event.partnerIds with
  | none => simp [ReceivedEvent.Matched, ReceivedEvent.texts, ReceivedEvent.partnerIds, hids] at hm
  | some ids =>
    have hflag : eventMatches (parsePartnerId cfg.text (e.heap.alloc cfg.text).2).1 ids = true :=
      (eventMatches_iff cfg ids _).mpr ((e.hasConfigured_iff hcfg hids).mpr hm)
    refine ⟨wrpFreeStruct e.event
      (((checked cfg e.heap).2.freeAll (checked cfg e.heap).1.partnerIds).free
        (e.heap.alloc cfg.text).1), ?_, ?_, ?_⟩
    · simp [processEvent, validatePartnerId, hcfg, hids, hflag, Except.map, checked]
    · rw [wrpFreeStruct_next, Ledger.free_next, Ledger.freeAll_next, checked_next]
      simp only [ReceivedEvent.heap]
      omega
    · rw [wrpFreeStruct_freed, Ledger.free_freed, Ledger.freeAll_freed, checked_freed, checked_id]
      simp [ReceivedEvent.heap]

/-- Without a match the event is rebuilt with its own ids, whose strings are
shared with the decoded message, and then the configured ones. -/
theorem processEvent_extended (hcfg : cfg.text ≠ []) (hm : ¬ e.Matched cfg) :
    ∃ list heap, processEvent cfg wrpStructTo e.event e.heap =
        .ok ⟨sendIfEncoded wrpStructTo { e.event with partnerIds := some list }, heap⟩ ∧
      list.partnerIds.map Owned.val = e.texts ++ cfg.text.splitOn ',' ∧
      heap.next = e.next + (1 + 2 * (cfg.text.splitOn ',').length) ∧
      heap.freed = List.range' (e.next + 1) (cfg.text.splitOn ',').length ++ [e.next] ++
        (e.partnerIds.map Owned.id ++
          List.range' (e.next + 1 + (cfg.text.splitOn ',').length)
            (cfg.text.splitOn ',').length) ++
        e.partnerIds.map Owned.id := by
  let parsed := checked cfg e.heap
  let list := appendPartnerIds e.partnerIds parsed.1 parsed.2
  refine ⟨list.1, wrpFreeStruct e.event
    (((list.2.freeAll parsed.1.partnerIds).free (e.heap.alloc cfg.text).1).freeAll
      list.1.partnerIds), ?_, ?_, ?_, ?_⟩
  · cases hids : e.event.partnerIds with
    | none =>
      simp [processEvent, validatePartnerId, hcfg, hids, Except.map, assign, list,
        parsed, checked, ReceivedEvent.partnerIds]
    | some ids =>
      have hflag :
          ¬ eventMatches (parsePartnerId cfg.text (e.heap.alloc cfg.text).2).1 ids = true :=
        fun h ↦ hm ((e.hasConfigured_iff hcfg hids).mp ((eventMatches_iff cfg ids _).mp h))
      have hvisited : ids.visited = e.partnerIds := by
        simp [ReceivedEvent.partnerIds, hids, PartnersT.visited_eq (e.few ids hids)]
      simp [processEvent, validatePartnerId, hcfg, hids, hflag, hvisited, Except.map, assign, list,
        parsed, checked]
  · simp only [list, parsed, appendPartnerIds, List.map_append, Ledger.allocAll_val, copied_val,
      ReceivedEvent.texts]
  · rw [wrpFreeStruct_next, Ledger.freeAll_next, Ledger.free_next, Ledger.freeAll_next]
    simp only [list, parsed, appendPartnerIds, Ledger.allocAll_next, copied_val, checked_next,
      ReceivedEvent.heap]
    omega
  · rw [wrpFreeStruct_freed, Ledger.freeAll_freed, Ledger.free_freed, Ledger.freeAll_freed]
    simp only [list, parsed, appendPartnerIds, List.map_append, Ledger.allocAll_freed,
      Ledger.allocAll_id, copied_val, checked_next, checked_freed, checked_id, ReceivedEvent.heap]
    simp

def Sent.partnerIds (e : ReceivedEvent) : Sent → List CString
  | .rebuilt event => ((event.partnerIds.map PartnersT.partnerIds).getD []).map Owned.val
  | .received => e.texts

/-- No id of the event is lost or moved, and a configured device is named. -/
def Carries (sent : Sent) : Prop :=
  e.texts.Sublist (sent.partnerIds e) ∧
    (cfg.text ≠ [] → ∃ id ∈ sent.partnerIds e, ∃ configured ∈ cfg.text.splitOn ',',
      strcaseeq configured id = true)

/-- The event sent upstream carries the ids it should exactly when the device
is not configured for one of the event's own partners. -/
theorem processEvent_carries_iff :
    ∃ done, processEvent cfg wrpStructTo e.event e.heap = .ok done ∧
      ∀ sent, done.sent = some sent → (Carries cfg e sent ↔ ¬ e.Matched cfg) := by
  by_cases hcfg : cfg.text = []
  · refine ⟨_, processEvent_unconfigured cfg wrpStructTo e hcfg, ?_⟩
    rintro sent ⟨rfl⟩
    simp [Carries, ReceivedEvent.Matched, hcfg, Sent.partnerIds]
  by_cases hm : e.Matched cfg
  · obtain ⟨heap, hdone, _, _⟩ := processEvent_matched cfg wrpStructTo e hm
    refine ⟨_, hdone, ?_⟩
    intro sent hsent
    obtain ⟨id, hid, _⟩ := hm.2
    have he := sendIfEncoded_eq hsent
    have hlost : ¬ Carries cfg e sent := by
      intro hex
      obtain ⟨hsub, _⟩ := hex
      rw [he] at hsub
      exact absurd (hsub.subset hid) (by simp [Sent.partnerIds])
    exact iff_of_false hlost (not_not.mpr hm)
  · obtain ⟨list, heap, hdone, hval, _, _⟩ := processEvent_extended cfg wrpStructTo e hcfg hm
    refine ⟨_, hdone, ?_⟩
    intro sent hsent
    have he := sendIfEncoded_eq hsent
    have hids : sent.partnerIds e = e.texts ++ cfg.text.splitOn ',' := by
      rw [he, ← hval]
      rfl
    have hcarries : Carries cfg e sent := by
      rw [Carries, hids]
      refine ⟨List.sublist_append_left _ _, fun _ ↦ ?_⟩
      obtain ⟨t, ts, ht⟩ := List.exists_cons_of_ne_nil (List.splitOn_ne_nil ',' cfg.text)
      exact ⟨t, by simp [ht], t, by simp [ht], strcaseeq_self t⟩
    exact iff_of_true hcarries hm

/-- An event of a configured partner goes out without its partner. -/
theorem processEvent_drops_matched :
    ∃ done sent, processEvent comcast (fun _ ↦ 1) (eventOf "Comcast".toList).event
        (eventOf "Comcast".toList).heap = .ok done ∧ done.sent = some sent ∧
      sent.partnerIds (eventOf "Comcast".toList) = [] ∧
      ¬ Carries comcast (eventOf "Comcast".toList) sent := by
  refine ⟨_, _, rfl, rfl, rfl, ?_⟩
  intro hex
  obtain ⟨hsub, _⟩ := hex
  exact absurd hsub.length_le (by decide)

theorem handed_out_perm (n k m : ℕ) :
    (List.range' (n + 1) k ++ [n] ++ List.range' (n + 1 + k) m).Perm
      (List.range' n (1 + k + m)) := by
  have hsplit : List.range' n (1 + k + m) =
      n :: (List.range' (n + 1) k ++ List.range' (n + 1 + k) m) := by
    rw [List.range'_append_1, show 1 + k + m = (k + m) + 1 by omega, List.range'_succ]
  rw [hsplit, List.append_assoc]
  exact List.perm_middle

/-- One iteration frees everything it allocated, and nothing twice, exactly
unless the ids of the event went into the out list beside the configured ones. -/
theorem processEvent_balanced_iff :
    ∃ done, processEvent cfg wrpStructTo e.event e.heap = .ok done ∧
      (Ledger.Balanced e.heap done.heap ↔
        cfg.text = [] ∨ e.partnerIds = [] ∨ e.Matched cfg) := by
  have hnodup := e.ids_nodup
  have hlt : ∀ i ∈ e.partnerIds.map Owned.id, i < e.heap.next := fun i hi ↦ e.id_lt_next hi
  by_cases hcfg : cfg.text = []
  · refine ⟨_, processEvent_unconfigured cfg wrpStructTo e hcfg, iff_of_true ?_ (Or.inl hcfg)⟩
    refine .of_perm (n := 0) (wrpFreeStruct_freed e e.heap) (wrpFreeStruct_next e e.heap)
      ?_ hnodup hlt
    rw [List.range'_zero, List.nil_append]
  by_cases hm : e.Matched cfg
  · obtain ⟨heap, hdone, hnext, hfreed⟩ := processEvent_matched cfg wrpStructTo e hm
    refine ⟨_, hdone, iff_of_true ?_ (Or.inr (Or.inr hm))⟩
    refine .of_perm (hfreed.trans (List.nil_append _).symm) hnext ?_ hnodup hlt
    have hperm := handed_out_perm e.next (cfg.text.splitOn ',').length 0
    simp only [List.range'_zero, List.append_nil] at hperm
    exact hperm.append_right _
  · obtain ⟨list, heap, hdone, _, hnext, hfreed⟩ := processEvent_extended cfg wrpStructTo e hcfg hm
    refine ⟨_, hdone, ?_⟩
    by_cases hempty : e.partnerIds = []
    · refine iff_of_true ?_ (Or.inr (Or.inl hempty))
      refine .of_perm (hfreed.trans (List.nil_append _).symm) hnext ?_ hnodup hlt
      have hperm := handed_out_perm e.next (cfg.text.splitOn ',').length
        (cfg.text.splitOn ',').length
      simp only [hempty, List.map_nil, List.nil_append, List.append_nil]
      rw [Nat.two_mul, ← Nat.add_assoc]
      exact hperm
    · refine iff_of_false ?_ (by simp [hcfg, hempty, hm])
      refine Ledger.not_balanced_of_dup (hfreed.trans (List.nil_append _).symm) ?_
      -- the identities of the event's own strings are freed with the list and with the message
      obtain ⟨x, xs, hx⟩ := List.exists_cons_of_ne_nil hempty
      intro hdup
      have hdisj := (List.nodup_append.mp hdup).2.2
      exact hdisj x.id (by simp [hx]) x.id (by simp [hx]) rfl

/-- Configured for another partner, the string of `shaw` is freed with the out
list and again with the decoded message. -/
theorem processEvent_double_free :
    ∃ done, processEvent comcast (fun _ ↦ 1) (eventOf "shaw".toList).event
        (eventOf "shaw".toList).heap = .ok done ∧
      done.heap.freed.count 0 = 2 ∧
      ¬ Ledger.Balanced (eventOf "shaw".toList).heap done.heap := by
  refine ⟨_, rfl, rfl, ?_⟩
  exact Ledger.not_balanced_of_dup rfl (show ¬ [2, 1, 0, 3, 0].Nodup by decide)

end Parodus.Partners
