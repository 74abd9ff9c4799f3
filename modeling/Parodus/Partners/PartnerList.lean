import Parodus.Config.Algorithms
import Parodus.Foundation.Slots
import Parodus.Partners.Check

namespace Parodus.Partners.Loops

open Config Foundation

/-- What the two loops leave; `written` is the last `j`. -/
structure Parsed where
  count : ℕ
  written : ℕ
  partnerIds : Slots (Owned CString) count
  heap : Ledger

/-- The loop that counts the commas. -/
def countCommas : CString → ℕ → ℕ
  | [], count => count
  | c :: rest, count => countCommas rest (if c = ',' then count + 1 else count)

/-- The loop over the tokens of `strsep`, which leaves a null pointer behind the last; a write
behind the entries of the allocation is `none`. -/
def fillPartnerIds {count : ℕ} : Option CString → ℕ → Slots (Owned CString) count → Ledger →
    Option Parsed
  | none, j, partnerIds, heap => some ⟨count, j, partnerIds, heap⟩
  | some partnerId, j, partnerIds, heap =>
    let strsep := cutAt ',' partnerId
    let token := heap.alloc strsep.1
    if j < count then fillPartnerIds strsep.2 (j + 1) (partnerIds.set j token.1) token.2
    else none
termination_by partnerId => (partnerId.map fun s ↦ s.length + 1).getD 0
decreasing_by
  cases hrest : (cutAt ',' partnerId).2 with
  | none => exact Nat.succ_pos _
  | some rest => exact Nat.succ_lt_succ (length_cutAt_lt hrest)

/-- The entries of the list are not set when it is allocated. -/
def parsePartnerId (partnerId : CString) (heap : Ledger) : Option Parsed :=
  let count := countCommas partnerId 0
  fillPartnerIds (some partnerId) 0 (Slots.empty _ (count + 1)) heap

/-- The list has all the parts of the string, each in an entry. -/
structure ListRight (partnerId : CString) (list : Parsed) : Prop where
  counted : list.count = list.written
  set : ∀ k < list.count, (list.partnerIds.get k).isSome
  joined : ∃ ids : List (Owned CString), list.partnerIds.items = ids.map some ∧
    [','].intercalate (ids.map Owned.val) = partnerId

variable {partnerId : CString} {heap : Ledger} {count : ℕ}

theorem countCommas_eq (partnerId : CString) (count : ℕ) :
    countCommas partnerId count = count + partnerId.count ',' := by
  induction partnerId generalizing count with
  | nil => rfl
  | cons c rest ih =>
    rw [countCommas, ih, List.count_cons]
    by_cases hc : c = ','
    · rw [if_pos hc, if_pos (beq_iff_eq.mpr hc)]
      omega
    · rw [if_neg hc, if_neg (by rwa [beq_iff_eq])]
      omega

/-- The tokens that are still to come. -/
def tokens (partnerId : Option CString) : List CString :=
  (partnerId.map (·.splitOn ',')).getD []

theorem tokens_eq_cons {token : CString} {rest : List CString} {s : Option CString}
    (h : tokens s = token :: rest) :
    ∃ partnerId, s = some partnerId ∧ (cutAt ',' partnerId).1 = token ∧
      tokens (cutAt ',' partnerId).2 = rest := by
  cases s with
  | none => cases h
  | some partnerId =>
    have hcut : partnerId.splitOn ',' = token :: rest := h
    rw [splitOn_eq_cutAt] at hcut
    obtain ⟨htoken, hrest⟩ := List.cons_eq_cons.mp hcut
    exact ⟨partnerId, rfl, htoken, hrest⟩

theorem tokens_eq_nil {s : Option CString} (h : tokens s = []) : s = none := by
  cases s with
  | none => rfl
  | some partnerId => exact absurd h (List.splitOn_ne_nil _ _)

/-- With an entry for each token that is to come, all entries get filled. -/
theorem fillPartnerIds_eq {s : Option CString} {partnerIds : Slots (Owned CString) count}
    {ids : List (Owned CString)} (hfilled : partnerIds.Filled ids)
    (hcount : ids.length + (tokens s).length = count) :
    ∃ list, fillPartnerIds s ids.length partnerIds heap = some list ∧ list.count = count ∧
      list.written = count ∧
      list.partnerIds.items = (ids ++ (heap.allocAll (tokens s)).1).map some ∧
      list.heap = (heap.allocAll (tokens s)).2 := by
  generalize htokens : tokens s = ts at hcount
  induction ts generalizing s ids partnerIds heap with
  | nil =>
    obtain rfl := tokens_eq_nil htokens
    have hfull : ids.length = count := hcount
    rw [fillPartnerIds]
    refine ⟨_, rfl, rfl, hfull, ?_, rfl⟩
    rw [Ledger.allocAll, List.append_nil]
    exact hfilled.full hfull
  | cons token rest ih =>
    obtain ⟨partnerId, rfl, rfl, hrest⟩ := tokens_eq_cons htokens
    rw [List.length_cons] at hcount
    have hlt : ids.length < count := by omega
    have hlength : ids.length + 1 =
        (ids ++ [(heap.alloc (cutAt ',' partnerId).1).1]).length := by
      rw [List.length_append, List.length_singleton]
    rw [fillPartnerIds, if_pos hlt, hlength]
    obtain ⟨list, hlist, hlcount, hwritten, hitems, hheap⟩ :=
      ih (hfilled.set hlt (heap.alloc (cutAt ',' partnerId).1).1) hrest (by omega)
    refine ⟨list, hlist, hlcount, hwritten, ?_, hheap⟩
    rw [hitems, List.append_assoc]
    rfl

/-- The loops build the list that the copies of all parts make up. -/
theorem parsePartnerId_eq (partnerId : CString) (heap : Ledger) :
    ∃ list, parsePartnerId partnerId heap = some list ∧
      list.count = (Partners.parsePartnerId partnerId heap).1.count ∧
      list.written = list.count ∧
      list.partnerIds.items = (Partners.parsePartnerId partnerId heap).1.partnerIds.map some ∧
      list.heap = (Partners.parsePartnerId partnerId heap).2 := by
  have hcount : countCommas partnerId 0 + 1 = (partnerId.splitOn ',').length := by
    rw [countCommas_eq, splitOn_length, Nat.zero_add]
  obtain ⟨list, hlist, hlcount, hwritten, hitems, hheap⟩ :=
    @fillPartnerIds_eq heap (countCommas partnerId 0 + 1) (some partnerId) _ [] Slots.filled_empty
      (by rw [hcount]; exact Nat.zero_add _)
  refine ⟨list, hlist, ?_, hwritten.trans hlcount.symm, hitems, hheap⟩
  rw [hlcount, countCommas_eq, Nat.zero_add]
  rfl

/-- No counter gets above the length of the string, which in the configuration is below 64. -/
theorem parsePartnerId_count_le {list : Parsed} (h : parsePartnerId partnerId heap = some list) :
    list.count ≤ partnerId.length + 1 := by
  obtain ⟨list', hlist, hcount, _⟩ := parsePartnerId_eq partnerId heap
  obtain rfl := Option.some.inj (h.symm.trans hlist)
  rw [hcount]
  exact Nat.succ_le_succ (List.count_le_length)

theorem parsePartnerId_joins (partnerId : CString) (heap : Ledger) :
    ∃ list, parsePartnerId partnerId heap = some list ∧ ListRight partnerId list := by
  obtain ⟨list, hlist, _, hwritten, hitems, _⟩ := parsePartnerId_eq partnerId heap
  refine ⟨list, hlist, hwritten.symm, fun k hk ↦ Slots.get_isSome_of_items hitems hk, _, hitems, ?_⟩
  rw [Partners.parsePartnerId, Ledger.allocAll_val]
  exact List.intercalate_splitOn ','

end Parodus.Partners.Loops
