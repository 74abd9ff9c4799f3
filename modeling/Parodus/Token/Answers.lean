import Mathlib.Algebra.Ring.Nat
import Mathlib.Algebra.Order.BigOperators.Group.List
import Mathlib.Algebra.Order.Group.Nat
import Parodus.Foundation.Buffers
import Parodus.Token.Reassembly

namespace Parodus.Token

open Foundation

/-- `NS_MAXBUF`: so many bytes are there for the answer, and so many for the token. -/
def nsMaxbuf : ℕ := 8192

abbrev JwtBuf := Buffer Char nsMaxbuf

/-- `strncat` behind the string in the buffer; `none` stands for a write behind its end. -/
def strncatTo (jwtAns : JwtBuf) (slot : Option Bytes) : Option JwtBuf :=
  let jwtLen := (jwtAns.elems.takeWhile (· ≠ Char.ofNat 0)).length
  jwtAns.write jwtLen (strncat slot ++ [Char.ofNat 0])

/-- The return value, and the buffer. -/
def assembleJwtFromDnsTo (msgHandle : NsMsg) (jwtAns : JwtBuf) : Option (ℤ × JwtBuf) :=
  match getRrSeqTable msgHandle with
  | none => some (-1, jwtAns)
  | some s =>
    (jwtAns.write 0 [Char.ofNat 0]).bind fun emptied ↦
      (((List.range s.numTxtRecs).map fun i ↦ s.seqTable.get (i + 1)).foldlM strncatTo emptied).map
        fun written ↦ (0, written)

/-- The data of all records, which stand one behind the other in the answer. -/
def rdataTotal (msgHandle : NsMsg) : ℕ :=
  (msgHandle.map fun rr ↦ (rr.map fun r ↦ r.rdata.length).getD 0).sum

variable {msgHandle msgHandle' : NsMsg} {es es' : List (ℕ × Bytes)} {s : Scan}
  {jwtAns : JwtBuf} {text : CString}

section Order

theorem txtEntries_cons_eq_some {rr : Option NsRr} {rest : NsMsg} :
    txtEntries (rr :: rest) = some es ↔ ∃ r, rr = some r ∧
      (r.type ≠ .txt ∧ txtEntries rest = some es ∨ r.type = .txt ∧ ∃ e es',
        seqEntry r.rdata = some e ∧ txtEntries rest = some es' ∧ es = e :: es') := by
  cases rr with
  | none =>
    refine iff_of_false (Option.some_ne_none _).symm ?_
    rintro ⟨r, hr, _⟩
    cases hr
  | some r =>
    by_cases htype : r.type = .txt
    · rw [txtEntries, if_neg (not_not_intro htype), Option.bind_eq_some_iff]
      constructor
      · rintro ⟨e, he, hmap⟩
        obtain ⟨es', hes', rfl⟩ := Option.map_eq_some_iff.mp hmap
        exact ⟨r, rfl, .inr ⟨htype, e, es', he, hes', rfl⟩⟩
      · rintro ⟨r', hr, hcases⟩
        obtain rfl := Option.some.inj hr
        obtain ⟨hne, _⟩ | ⟨_, e, es', he, hes', rfl⟩ := hcases
        · exact absurd htype hne
        · exact ⟨e, he, Option.map_eq_some_iff.mpr ⟨es', hes', rfl⟩⟩
    · rw [txtEntries, if_pos htype]
      constructor
      · exact fun h ↦ ⟨r, rfl, .inl ⟨htype, h⟩⟩
      · rintro ⟨r', hr, hcases⟩
        obtain rfl := Option.some.inj hr
        obtain ⟨_, h⟩ | ⟨heq, _⟩ := hcases
        · exact h
        · exact absurd heq htype

/-- Records in another order give the same numbers and pieces in another order. -/
theorem txtEntries_perm (h : msgHandle.Perm msgHandle') (hes : txtEntries msgHandle = some es) :
    ∃ es', txtEntries msgHandle' = some es' ∧ es.Perm es' := by
  induction h generalizing es with
  | nil => exact ⟨es, hes, .refl es⟩
  | cons rr _ ih =>
    obtain ⟨r, rfl, ⟨htype, hrest⟩ | ⟨htype, e, rest, he, hrest, rfl⟩⟩ :=
      txtEntries_cons_eq_some.mp hes
    · obtain ⟨es', hes', hperm⟩ := ih hrest
      exact ⟨es', txtEntries_cons_eq_some.mpr ⟨r, rfl, .inl ⟨htype, hes'⟩⟩, hperm⟩
    · obtain ⟨es', hes', hperm⟩ := ih hrest
      exact ⟨e :: es', txtEntries_cons_eq_some.mpr ⟨r, rfl, .inr ⟨htype, e, es', he, hes', rfl⟩⟩,
        hperm.cons e⟩
  | swap x y l =>
    obtain ⟨ry, rfl, hy⟩ := txtEntries_cons_eq_some.mp hes
    obtain ⟨hytype, hyrest⟩ | ⟨hytype, ey, rest, hey, hyrest, rfl⟩ := hy
    · obtain ⟨rx, rfl, ⟨hxtype, hxrest⟩ | ⟨hxtype, ex, rest, hex, hxrest, rfl⟩⟩ :=
        txtEntries_cons_eq_some.mp hyrest
      · have hback := txtEntries_cons_eq_some.mpr ⟨ry, rfl, .inl ⟨hytype, hxrest⟩⟩
        exact ⟨es, txtEntries_cons_eq_some.mpr ⟨rx, rfl, .inl ⟨hxtype, hback⟩⟩, .refl _⟩
      · have hback := txtEntries_cons_eq_some.mpr ⟨ry, rfl, .inl ⟨hytype, hxrest⟩⟩
        exact ⟨ex :: rest,
          txtEntries_cons_eq_some.mpr ⟨rx, rfl, .inr ⟨hxtype, ex, rest, hex, hback, rfl⟩⟩, .refl _⟩
    · obtain ⟨rx, rfl, ⟨hxtype, hxrest⟩ | ⟨hxtype, ex, rest, hex, hxrest, rfl⟩⟩ :=
        txtEntries_cons_eq_some.mp hyrest
      · have hback := txtEntries_cons_eq_some.mpr
          ⟨ry, rfl, .inr ⟨hytype, ey, rest, hey, hxrest, rfl⟩⟩
        exact ⟨ey :: rest, txtEntries_cons_eq_some.mpr ⟨rx, rfl, .inl ⟨hxtype, hback⟩⟩, .refl _⟩
      · have hback := txtEntries_cons_eq_some.mpr
          ⟨ry, rfl, .inr ⟨hytype, ey, rest, hey, hxrest, rfl⟩⟩
        exact ⟨ex :: ey :: rest,
          txtEntries_cons_eq_some.mpr ⟨rx, rfl, .inr ⟨hxtype, ex, _, hex, hback, rfl⟩⟩,
          .swap ex ey rest⟩
  | trans _ _ ih₁ ih₂ =>
    obtain ⟨es₁, hes₁, hperm₁⟩ := ih₁ hes
    obtain ⟨es₂, hes₂, hperm₂⟩ := ih₂ hes₁
    exact ⟨es₂, hes₂, hperm₁.trans hperm₂⟩

theorem Numbered.perm (h : Numbered msgHandle es) (hperm : msgHandle.Perm msgHandle') :
    ∃ es', Numbered msgHandle' es' ∧ es.Perm es' := by
  obtain ⟨es', hentries, hes⟩ := txtEntries_perm hperm h.entries
  refine ⟨es', ⟨?_, hentries, ?_, ?_⟩, hes⟩
  · rw [← hperm.length_eq]
    exact h.few
  · intro e he
    rw [← hperm.length_eq]
    exact h.bounded e (hes.mem_iff.mpr he)
  · exact (hes.map Prod.fst).nodup_iff.mp h.nodup

/-- The one record of an answer stands in the first slot, with or without a number. -/
theorem Numbered.single {rr : Bytes} (h : Numbered msgHandle [(0, rr)]) :
    ∃ s, Token.getRrSeqTable msgHandle = some s ∧ s.numTxtRecs = 1 ∧
      s.seqTable.get 1 = some rr := by
  obtain ⟨t, ht, hget⟩ := h.table
  have hfold := (foldlM_scanRr_eq_some (s := ⟨1, t⟩) h.few).mpr ⟨[(0, rr)], h, rfl, ht⟩
  have hzero : t.get 0 = some rr := by rw [hget, List.lookup_cons_self]
  refine ⟨⟨1, t.set 1 rr⟩, ?_, rfl, Slots.get_set_self t (by decide)⟩
  rw [Token.getRrSeqTable, if_neg (Nat.not_lt.mpr h.few), hfold, Option.bind_some, checkSeqTable]
  simp only [hzero]
  rw [if_neg (by decide), Option.bind_some, if_pos]
  intro i hi hone
  dsimp only at hi
  omega

/-- A table that is accepted is accepted in any other order of the records, with the same pieces
in its slots. -/
theorem getRrSeqTable_perm (hperm : msgHandle.Perm msgHandle')
    (hs : getRrSeqTable msgHandle = some s) :
    ∃ s', getRrSeqTable msgHandle' = some s' ∧ s'.numTxtRecs = s.numTxtRecs ∧
      ∀ i < s.numTxtRecs, s'.seqTable.get (i + 1) = s.seqTable.get (i + 1) := by
  obtain ⟨es, hnum, hcount, ⟨rr, rfl, hone⟩ | ⟨hzero, hall, hget⟩⟩ := getRrSeqTable_eq_some hs
  · obtain ⟨es', hnum', hes⟩ := hnum.perm hperm
    obtain rfl := List.singleton_perm.mp hes
    obtain ⟨s', hs', hcount', hone'⟩ := hnum'.single
    refine ⟨s', hs', hcount'.trans hcount.symm, fun i hi ↦ ?_⟩
    rw [hcount, List.length_singleton] at hi
    obtain rfl : i = 0 := by omega
    rw [Nat.zero_add, hone, hone']
  · obtain ⟨es', hnum', hes⟩ := hnum.perm hperm
    have hkeys := hes.map Prod.fst
    obtain ⟨s', hs', hcount', hget'⟩ := hnum'.getRrSeqTable (mt hkeys.mem_iff.mpr hzero) (by
      intro i hi hi'
      rw [← hes.length_eq] at hi
      exact hkeys.mem_iff.mp (hall i hi hi'))
    refine ⟨s', hs', ?_, fun i _ ↦ ?_⟩
    · rw [hcount', hcount, hes.length_eq]
    · rw [hget', hget, Assoc.lookup_perm hnum.nodup hes]

end Order

section Buffer

theorem length_stripLast_le (rr : Bytes) : (stripLast rr).length ≤ rr.length :=
  (isPrefix_stripLast rr).length_le

theorem length_stripRrData_le (rr : Bytes) : (stripRrData rr).length ≤ rr.length := by
  cases rr with
  | nil => exact Nat.le_refl 0
  | cons c rest =>
    rw [stripRrData]
    refine (length_stripLast_le _).trans ((length_stripLast_le _).trans ?_)
    split
    · exact Nat.le_refl _
    · exact Nat.le_succ _

theorem seqEntry_length_le {rdata : Bytes} {e : ℕ × Bytes} (h : seqEntry rdata = some e) :
    e.2.length ≤ rdata.length := by
  have hstrip := length_stripRrData_le rdata
  unfold seqEntry at h
  dsimp only at h
  repeat' split at h
  all_goals cases h
  · exact hstrip
  · rw [List.length_drop]
    omega
  · rw [List.length_drop, List.length_drop]
    omega

theorem txtEntries_length_le (hes : txtEntries msgHandle = some es) :
    (es.map fun e ↦ e.2.length).sum ≤ rdataTotal msgHandle := by
  induction msgHandle generalizing es with
  | nil =>
    cases hes
    exact Nat.le_refl 0
  | cons rr rest ih =>
    obtain ⟨r, rfl, ⟨_, hrest⟩ | ⟨_, e, es', he, hrest, rfl⟩⟩ := txtEntries_cons_eq_some.mp hes
    · exact (ih hrest).trans (Nat.le_add_left _ _)
    · exact Nat.add_le_add (seqEntry_length_le he) (ih hrest)

theorem length_strncat_le (slot : Option Bytes) :
    (strncat slot).length ≤ (slot.map List.length).getD 0 := by
  cases slot with
  | none => exact Nat.le_refl 0
  | some rr => exact (List.takeWhile_prefix _).length_le

theorem nul_not_mem_strncat (slot : Option Bytes) : Char.ofNat 0 ∉ strncat slot := by
  intro hmem
  have hne := List.mem_takeWhile_imp hmem
  exact of_decide_eq_true hne rfl

/-- No record stands in two of the slots that are put together. -/
theorem assembleJwtFromDns_length_le {jwt : CString} (h : assembleJwtFromDns msgHandle = some jwt) :
    jwt.length ≤ rdataTotal msgHandle := by
  obtain ⟨s, hs, rfl⟩ := Option.map_eq_some_iff.mp h
  rw [List.length_flatMap]
  obtain ⟨es, hnum, hcount, ⟨rr, rfl, hone⟩ | ⟨_, _, hget⟩⟩ := getRrSeqTable_eq_some hs
  · have htotal := txtEntries_length_le hnum.entries
    have hpiece := length_strncat_le (some rr)
    rw [hcount]
    simp only [List.length_singleton, List.range_one, List.map_cons, List.map_nil, List.sum_cons,
      List.sum_nil, Nat.add_zero, Nat.zero_add, hone] at htotal ⊢
    exact hpiece.trans htotal
  · have hnodup : ((List.range s.numTxtRecs).map (· + 1)).Nodup :=
      List.nodup_range.map fun _ _ heq ↦ Nat.succ.inj heq
    have hpieces := Assoc.sum_lookup_le List.length es hnodup
    rw [List.map_map] at hpieces
    refine le_trans ?_ (hpieces.trans (txtEntries_length_le hnum.entries))
    refine List.sum_le_sum fun i _ ↦ ?_
    rw [hget]
    exact length_strncat_le _

/-- Slots that fit behind the text in the buffer are appended to it. -/
theorem foldlM_strncatTo (slots : List (Option Bytes)) (hstarts : jwtAns.Starts (Char.ofNat 0) text)
    (hfits : (text ++ slots.flatMap strncat).length < nsMaxbuf) :
    ∃ written, slots.foldlM strncatTo jwtAns = some written ∧
      written.Starts (Char.ofNat 0) (text ++ slots.flatMap strncat) := by
  induction slots generalizing jwtAns text with
  | nil =>
    refine ⟨jwtAns, rfl, ?_⟩
    rwa [List.flatMap_nil, List.append_nil]
  | cons slot slots ih =>
    rw [List.flatMap_cons, ← List.append_assoc] at hfits ⊢
    have hpiece : (text ++ strncat slot).length < nsMaxbuf := by
      rw [List.length_append] at hfits
      omega
    obtain ⟨next, hnext, hstarts'⟩ := hstarts.append (nul_not_mem_strncat slot) hpiece
    obtain ⟨written, hwritten, hend⟩ := ih hstarts' hfits
    have hslot : strncatTo jwtAns slot = some next := by
      rw [strncatTo, hstarts.takeWhile, hnext]
    refine ⟨written, ?_, hend⟩
    rw [List.foldlM_cons, hslot, Option.bind_eq_bind, Option.bind_some, hwritten]

/-- From an answer that fits into its own buffer nothing is written behind the end of the other,
and the string in it is the assembled one. -/
theorem assembleJwtFromDnsTo_right (jwtAns : JwtBuf) (hanswer : rdataTotal msgHandle < nsMaxbuf) :
    ∃ ret written, assembleJwtFromDnsTo msgHandle jwtAns = some (ret, written) ∧
      (∀ jwt, assembleJwtFromDns msgHandle = some jwt →
        ret = 0 ∧ written.Starts (Char.ofNat 0) jwt) ∧
      (assembleJwtFromDns msgHandle = none → ret = -1 ∧ written = jwtAns) := by
  unfold assembleJwtFromDnsTo
  cases hs : getRrSeqTable msgHandle with
  | none =>
    have hnone : assembleJwtFromDns msgHandle = none := by
      rw [assembleJwtFromDns, hs, Option.map_none]
    refine ⟨-1, jwtAns, rfl, fun jwt hjwt ↦ ?_, fun _ ↦ ⟨rfl, rfl⟩⟩
    rw [hnone] at hjwt
    cases hjwt
  | some s =>
    have hsome : assembleJwtFromDns msgHandle =
        some (((List.range s.numTxtRecs).map fun i ↦ s.seqTable.get (i + 1)).flatMap strncat) := by
      rw [assembleJwtFromDns, hs, Option.map_some, List.flatMap_map]
    have hfits := (assembleJwtFromDns_length_le hsome).trans_lt hanswer
    obtain ⟨emptied, hemptied, hstarts⟩ := Buffer.starts_write_end jwtAns (Char.ofNat 0) (by decide)
    obtain ⟨written, hwritten, hend⟩ := foldlM_strncatTo _ hstarts hfits
    refine ⟨0, written, ?_, fun jwt hjwt ↦ ?_, fun hnone ↦ ?_⟩
    · dsimp only
      rw [hemptied, Option.bind_some, hwritten, Option.map_some]
    · rw [hsome] at hjwt
      obtain rfl := Option.some.inj hjwt
      exact ⟨rfl, hend⟩
    · rw [hsome] at hnone
      cases hnone

theorem assembleJwtFromDnsTo_right_dealtWell :
    ∃ written, assembleJwtFromDnsTo (answerOf dealtWell) (.fill nsMaxbuf 'x') = some (0, written) ∧
      written.Starts (Char.ofNat 0) "e30.e30.c2ln".toList := by
  have hanswer : rdataTotal (answerOf dealtWell) < nsMaxbuf := by
    simp only [dealtWell, String.reduceToList]
    decide
  have hjwt : assembleJwtFromDns (answerOf dealtWell) = some "e30.e30.c2ln".toList := by
    simp only [dealtWell, String.reduceToList]
    decide
  obtain ⟨ret, written, hassemble, hright, _⟩ :=
    assembleJwtFromDnsTo_right (.fill nsMaxbuf 'x') hanswer
  obtain ⟨rfl, hstarts⟩ := hright _ hjwt
  exact ⟨written, hassemble, hstarts⟩

end Buffer

end Parodus.Token
