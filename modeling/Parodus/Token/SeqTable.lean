import Mathlib.Data.List.Range
import Parodus.Token.Records

namespace Parodus.Token

open Foundation

/-- The sequence numbers and pieces of the TXT records, if every record can be
parsed and every number be read. -/
def txtEntries : NsMsg → Option (List (ℕ × Bytes))
  | [] => some []
  | none :: _ => none
  | some rr :: rest =>
    if rr.type ≠ .txt then txtEntries rest
    else (seqEntry rr.rdata).bind fun e ↦ (txtEntries rest).map (e :: ·)

/-- All that the record loop asks of the records before it fills the table. -/
structure Numbered (msgHandle : NsMsg) (es : List (ℕ × Bytes)) : Prop where
  few : msgHandle.length ≤ maxRrRecs
  entries : txtEntries msgHandle = some es
  bounded : ∀ e ∈ es, e.1 ≤ msgHandle.length
  nodup : (es.map Prod.fst).Nodup

def Scan.Complete (s : Scan) : Prop :=
  ∀ i, 1 ≤ i → i ≤ s.numTxtRecs → (s.seqTable.get i).isSome

/-- The last number is missing, and a larger one that still counts records of
another type stands for it. -/
def EndGap (msgHandle : NsMsg) : Prop :=
  ∃ es m, Numbered msgHandle es ∧ es.length < m ∧
    (es.map Prod.fst).Perm (m :: List.range' 1 (es.length - 1))

variable {msgHandle : NsMsg} {es : List (ℕ × Bytes)} {s : Scan}

theorem foldlM_scanRr (limit : ℕ) (msgHandle : NsMsg) (s : Scan) :
    msgHandle.foldlM (scanRr limit) s = (txtEntries msgHandle).bind fun es ↦
      (es.foldlM (Slots.place limit) s.seqTable).map fun t ↦ ⟨s.numTxtRecs + es.length, t⟩ := by
  induction msgHandle generalizing s with
  | nil => rfl
  | cons rr rest ih =>
    rw [List.foldlM_cons, Option.bind_eq_bind]
    cases rr with
    | none => rfl
    | some rr =>
      by_cases htype : rr.type ≠ .txt
      · rw [scanRr, txtEntries, if_pos htype, if_pos htype, Option.bind_some, ih]
      · rw [scanRr, txtEntries, if_neg htype, if_neg htype]
        cases seqEntry rr.rdata with
        | none => rfl
        | some e =>
          simp only [Option.bind_some, Option.bind_map, ih]
          cases hplace : s.seqTable.place limit e with
          | none => cases txtEntries rest <;> simp [hplace]
          | some t =>
            cases txtEntries rest with
            | none => rfl
            | some es => simp [hplace, Nat.add_comm, Nat.add_left_comm]

/-- The record loop succeeds exactly on numbered records, and fills the table
with their pieces. -/
theorem foldlM_scanRr_eq_some (hfew : msgHandle.length ≤ maxRrRecs) :
    msgHandle.foldlM (scanRr msgHandle.length) ⟨0, Slots.empty _ _⟩ = some s ↔
      ∃ es, Numbered msgHandle es ∧ s.numTxtRecs = es.length ∧
        es.foldlM (Slots.place msgHandle.length) (Slots.empty _ _) = some s.seqTable := by
  have hsize : msgHandle.length < maxRrRecs + 1 := Nat.lt_succ_of_le hfew
  rw [foldlM_scanRr, Option.bind_eq_some_iff]
  constructor
  · intro h
    obtain ⟨es, hentries, hmap⟩ := h
    obtain ⟨t, hfold, rfl⟩ := Option.map_eq_some_iff.mp hmap
    have hplaced := (Slots.foldlM_place_isSome_iff hsize es _).mp (Option.isSome_of_eq_some hfold)
    exact ⟨es, ⟨hfew, hentries, fun e he ↦ (hplaced.1 e he).1, hplaced.2⟩, Nat.zero_add _, hfold⟩
  · intro h
    obtain ⟨es, hnum, hcount, hfold⟩ := h
    refine ⟨es, hnum.entries, Option.map_eq_some_iff.mpr ⟨s.seqTable, hfold, ?_⟩⟩
    obtain ⟨n, t⟩ := s
    rw [← hcount, Nat.zero_add]

theorem Numbered.table (h : Numbered msgHandle es) :
    ∃ t : SeqTable, es.foldlM (Slots.place msgHandle.length) (Slots.empty _ _) = some t ∧
      ∀ k, t.get k = es.lookup k := by
  have hsize : msgHandle.length < maxRrRecs + 1 := Nat.lt_succ_of_le h.few
  have hsome := (Slots.foldlM_place_isSome_iff hsize es (Slots.empty _ _)).mpr
    ⟨fun e he ↦ ⟨h.bounded e he, Slots.get_empty⟩, h.nodup⟩
  obtain ⟨t, ht⟩ := Option.isSome_iff_exists.mp hsome
  refine ⟨t, ht, fun k ↦ ?_⟩
  rw [Slots.get_of_foldlM_place hsize ht, Slots.get_empty, Option.none_or]

theorem lookup_isSome_iff {k : ℕ} : (es.lookup k).isSome ↔ k ∈ es.map Prod.fst := by
  rw [Option.isSome_iff_ne_none, Ne, Assoc.lookup_eq_none_iff_not_mem_keys, not_not]

theorem getRrSeqTable_eq_some (h : getRrSeqTable msgHandle = some s) :
    ∃ es, Numbered msgHandle es ∧ s.numTxtRecs = es.length ∧
      ((∃ rr, es = [(0, rr)] ∧ s.seqTable.get 1 = some rr) ∨
        (0 ∉ es.map Prod.fst ∧ (∀ i < es.length, 1 ≤ i → i ∈ es.map Prod.fst) ∧
          ∀ k, s.seqTable.get k = es.lookup k)) := by
  obtain ⟨hfew, hbind⟩ := Option.ite_none_left_eq_some.mp h
  obtain ⟨s₀, hfold, hcheck⟩ := Option.bind_eq_some_iff.mp hbind
  obtain ⟨es, hnum, hcount, htable⟩ := (foldlM_scanRr_eq_some (Nat.le_of_not_lt hfew)).mp hfold
  obtain ⟨t, ht, hget⟩ := hnum.table
  obtain rfl := Option.some.inj (ht.symm.trans htable)
  obtain ⟨s₁, hmoved, hite⟩ := Option.bind_eq_some_iff.mp hcheck
  obtain ⟨hall, heq⟩ := Option.ite_none_right_eq_some.mp hite
  obtain rfl := Option.some.inj heq
  cases hzero : s₀.seqTable.get 0 with
  | none =>
    rw [hzero] at hmoved
    obtain rfl := Option.some.inj hmoved
    refine ⟨es, hnum, hcount, .inr ⟨?_, fun i hi hone ↦ ?_, hget⟩⟩
    · rwa [← Assoc.lookup_eq_none_iff_not_mem_keys, ← hget]
    · rw [← lookup_isSome_iff, ← hget]
      exact hall i (by omega) hone
  | some rr =>
    rw [hzero] at hmoved
    obtain ⟨hone, heq⟩ := Option.ite_none_left_eq_some.mp hmoved
    obtain rfl := Option.some.inj heq
    refine ⟨es, hnum, hcount, .inl ⟨rr, ?_, Slots.get_set_self _ (by decide)⟩⟩
    rw [hget] at hzero
    cases es with
    | nil => cases hzero
    | cons e es =>
      obtain rfl : es = [] := by
        rw [hcount, List.length_cons] at hone
        exact List.eq_nil_of_length_eq_zero (by omega)
      obtain ⟨k, piece⟩ := e
      by_cases hk : k = 0
      · subst hk
        rw [List.lookup_cons_self] at hzero
        rw [Option.some.inj hzero]
      · rw [Assoc.lookup_cons_of_ne hk] at hzero
        cases hzero

theorem Numbered.getRrSeqTable (h : Numbered msgHandle es) (hzero : 0 ∉ es.map Prod.fst)
    (hall : ∀ i < es.length, 1 ≤ i → i ∈ es.map Prod.fst) :
    ∃ s, getRrSeqTable msgHandle = some s ∧ s.numTxtRecs = es.length ∧
      ∀ k, s.seqTable.get k = es.lookup k := by
  obtain ⟨t, ht, hget⟩ := h.table
  have hfold := (foldlM_scanRr_eq_some (s := ⟨es.length, t⟩) h.few).mpr ⟨es, h, rfl, ht⟩
  refine ⟨⟨es.length, t⟩, ?_, rfl, hget⟩
  have hnone : t.get 0 = none := by rwa [hget, Assoc.lookup_eq_none_iff_not_mem_keys]
  have hfilled : ∀ i < es.length, 1 ≤ i → (t.get i).isSome := by
    intro i hi hone
    rw [hget, lookup_isSome_iff]
    exact hall i hi hone
  rw [Token.getRrSeqTable, if_neg (Nat.not_lt.mpr h.few), hfold, Option.bind_some, checkSeqTable]
  simp only [hnone, Option.bind_some]
  exact if_pos hfilled

/-- The check stops one slot too early, so the numbers it lets through are 1 up
to one less than the records, and one more. -/
theorem perm_of_checked (hnodup : (es.map Prod.fst).Nodup) (hzero : 0 ∉ es.map Prod.fst)
    (hall : ∀ i < es.length, 1 ≤ i → i ∈ es.map Prod.fst) (hne : es ≠ []) :
    ∃ m, es.length ≤ m ∧ (es.map Prod.fst).Perm (m :: List.range' 1 (es.length - 1)) := by
  have hpos : 0 < es.length := List.length_pos_of_ne_nil hne
  have hsub : List.Subperm (List.range' 1 (es.length - 1)) (es.map Prod.fst) := by
    apply List.subperm_of_subset List.nodup_range'
    intro i hi
    obtain ⟨hone, hlast⟩ := List.mem_range'_1.mp hi
    exact hall i (by omega) hone
  have hlt : (List.range' 1 (es.length - 1)).length < (es.map Prod.fst).length := by
    rw [List.length_range', List.length_map]
    omega
  obtain ⟨m, hm⟩ := hsub.exists_of_length_lt hlt
  have hperm : (m :: List.range' 1 (es.length - 1)).Perm (es.map Prod.fst) := by
    apply hm.perm_of_length_le
    rw [List.length_map, List.length_cons, List.length_range']
    omega
  refine ⟨m, ?_, hperm.symm⟩
  have hnot : m ∉ List.range' 1 (es.length - 1) :=
    (List.nodup_cons.mp (hperm.nodup_iff.mpr hnodup)).1
  have hmem : m ∈ es.map Prod.fst := hperm.subset List.mem_cons_self
  have hm0 : m ≠ 0 := fun h ↦ hzero (h ▸ hmem)
  rw [List.mem_range'_1] at hnot
  omega

theorem EndGap.incomplete (h : EndGap msgHandle) :
    ∃ s, getRrSeqTable msgHandle = some s ∧ ¬ s.Complete := by
  obtain ⟨es, m, hnum, hm, hperm⟩ := h
  have hpos : 0 < es.length := by
    have hlength := hperm.length_eq
    rw [List.length_map, List.length_cons, List.length_range'] at hlength
    omega
  have hmem : ∀ i, i ∈ es.map Prod.fst ↔ i = m ∨ 1 ≤ i ∧ i < es.length := by
    intro i
    rw [hperm.mem_iff, List.mem_cons, List.mem_range'_1]
    omega
  have hzero : 0 ∉ es.map Prod.fst := by
    rw [hmem]
    omega
  obtain ⟨s, hs, hcount, hget⟩ :=
    hnum.getRrSeqTable hzero fun i hi hone ↦ (hmem i).mpr (.inr ⟨hone, hi⟩)
  refine ⟨s, hs, fun hcomplete ↦ ?_⟩
  have hlast := hcomplete es.length hpos (le_of_eq hcount.symm)
  rw [hget, lookup_isSome_iff, hmem] at hlast
  omega

theorem complete_of_not_endGap (h : ¬ EndGap msgHandle) (hs : getRrSeqTable msgHandle = some s) :
    s.Complete := by
  obtain ⟨es, hnum, hcount, ⟨rr, rfl, hone⟩ | ⟨hzero, hall, hget⟩⟩ := getRrSeqTable_eq_some hs
  · intro i hi hlast
    obtain rfl : i = 1 := by
      rw [hcount, List.length_singleton] at hlast
      omega
    rw [hone]
    rfl
  · intro i hi hlast
    rw [hcount] at hlast
    have hne : es ≠ [] := List.ne_nil_of_length_pos (by omega)
    obtain ⟨m, hm, hperm⟩ := perm_of_checked hnum.nodup hzero hall hne
    have hlt : ¬ es.length < m := fun hlt ↦ h ⟨es, m, hnum, hlt, hperm⟩
    rw [hget, lookup_isSome_iff, hperm.mem_iff, List.mem_cons, List.mem_range'_1]
    omega

theorem seqTable_complete_iff (msgHandle : NsMsg) :
    ((∀ s, getRrSeqTable msgHandle = some s → s.Complete) ∧
      ∀ jwtAns, assembleJwtFromDns msgHandle = some jwtAns →
        ∃ s, getRrSeqTable msgHandle = some s ∧ s.Complete) ↔ ¬ EndGap msgHandle := by
  constructor
  · intro h hgap
    obtain ⟨s, hs, hnot⟩ := hgap.incomplete
    exact hnot (h.1 s hs)
  · intro h
    refine ⟨fun s ↦ complete_of_not_endGap h, fun jwtAns hjwt ↦ ?_⟩
    obtain ⟨s, hs, _⟩ := Option.map_eq_some_iff.mp hjwt
    exact ⟨s, hs, complete_of_not_endGap h hs⟩

section Inputs

def txtRecord (rdata : String) : Option NsRr := some ⟨.txt, rdata.toList⟩

/-- The second of three pieces is lost on the way, and an alias comes with the answer. -/
def lostPiece : NsMsg := [txtRecord "$01:eyJhbGciOiJub25l", txtRecord "$03:fQ", some ⟨.other, []⟩]

end Inputs

theorem lostPiece_incomplete :
    (getRrSeqTable lostPiece).map Scan.numTxtRecs = some 2 ∧
    ((getRrSeqTable lostPiece).bind fun s ↦ s.seqTable.get 2) = none ∧
    assembleJwtFromDns lostPiece = some "eyJhbGciOiJub25l".toList := by
  simp only [lostPiece, txtRecord, String.reduceToList]
  decide

end Parodus.Token
