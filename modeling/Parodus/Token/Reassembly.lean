import Mathlib.Data.List.Flatten
import Mathlib.Data.List.TakeWhile
import Parodus.Token.SeqTable

namespace Parodus.Token

open Foundation

/-- The characters of a token: base64url and the dots between its parts. -/
def tokenChar (c : Char) : Bool :=
  (validB64Char c && c != '/' && c != '+') || c == '.'

def rrData (lengthByte : Char) (k : ℕ) (chunk : CString) : Bytes :=
  lengthByte :: Nat.digitChar (k / 10) :: Nat.digitChar (k % 10) :: ':' :: chunk

/-- The answer carries the chunks in TXT records numbered from 1, in any order and
mixed with records of other types. -/
structure Dealt (chunks : List CString) (msgHandle : NsMsg) : Prop where
  some_chunk : chunks ≠ []
  chunk : ∀ c ∈ chunks, c ≠ [] ∧ ∀ x ∈ c, tokenChar x = true
  few : msgHandle.length ≤ maxRrRecs
  records : ∃ (rrs : List NsRr) (lengthByte : ℕ → Char), msgHandle = rrs.map some ∧
    ((rrs.filter fun rr ↦ rr.type = .txt).map NsRr.rdata).Perm
      (chunks.mapIdx fun i c ↦ rrData (lengthByte i) (i + 1) c)

/-- What is left of a chunk at the end of its record. -/
def body (chunk : CString) : CString := stripLast (stripLast chunk)

variable {rr : Bytes} {chunk : CString} {c lengthByte : Char} {k : ℕ}

theorem stripLast_append {front : Bytes} (h : rr ≠ []) :
    stripLast (front ++ rr) = front ++ stripLast rr := by
  have hlast : (front ++ rr).getLast? = rr.getLast? := List.getLast?_append_of_ne_nil _ h
  rw [stripLast, stripLast, hlast]
  split
  · split
    · rfl
    · exact List.dropLast_append_of_ne_nil h
  · rfl

theorem isPrefix_stripLast (rr : Bytes) : List.IsPrefix (stripLast rr) rr := by
  unfold stripLast
  split
  · split
    · exact List.prefix_refl _
    · exact List.dropLast_prefix _
  · exact List.prefix_refl _

theorem isPrefix_body (chunk : CString) : List.IsPrefix (body chunk) chunk :=
  (isPrefix_stripLast _).trans (isPrefix_stripLast chunk)

theorem stripLast_concat (front : Bytes) (c : Char) :
    stripLast (front ++ [c]) = if validB64Char c then front ++ [c] else front := by
  rw [stripLast, List.getLast?_concat, List.dropLast_concat]

theorem validB64Char_of_tokenChar (h : tokenChar c = true) : validB64Char c = true ∨ c = '.' := by
  simp only [tokenChar, Bool.or_eq_true, Bool.and_eq_true, beq_iff_eq] at h
  exact h.imp_left fun hb ↦ hb.1.1

theorem body_eq_self_iff (htoken : ∀ x ∈ chunk, tokenChar x = true) :
    body chunk = chunk ↔ chunk.getLast? ≠ some '.' := by
  obtain rfl | ⟨front, c, rfl⟩ := List.eq_nil_or_concat' chunk
  · exact iff_of_true rfl (Option.some_ne_none _).symm
  · rw [List.getLast?_concat, Ne, Option.some.injEq]
    rcases validB64Char_of_tokenChar (htoken c (by simp)) with hvalid | rfl
    · have hstrip : stripLast (front ++ [c]) = front ++ [c] := by
        rw [stripLast_concat, if_pos hvalid]
      refine iff_of_true (by rw [body, hstrip, hstrip]) ?_
      rintro rfl
      exact absurd hvalid (by decide)
    · refine iff_of_false (fun h ↦ ?_) (not_not.mpr rfl)
      have hlength : (body (front ++ ['.'])).length ≤ front.length := by
        rw [body, stripLast_concat, if_neg (by decide)]
        exact (isPrefix_stripLast front).length_le
      rw [h, List.length_append, List.length_singleton] at hlength
      omega

theorem digit_digitChar {d : ℕ} (h : d < 10) :
    isDigit (Nat.digitChar d) = true ∧ digitValue (Nat.digitChar d) = d := by
  revert d
  decide

theorem ne_colon_of_isDigit (h : isDigit c = true) : c ≠ ':' := by
  rintro rfl
  cases h

/-- Digits up to the colon are counted, and the last two of them found. -/
theorem findSeqNumFrom_digits {digits rest : Bytes} (h : ∀ c ∈ digits, isDigit c = true)
    (i digitCt : ℕ) :
    findSeqNumFrom i digitCt (digits ++ ':' :: rest) =
      if 2 ≤ digitCt + digits.length then (i + digits.length : ℤ) - 2 else -2 := by
  induction digits generalizing i digitCt with
  | nil => simp [findSeqNumFrom]
  | cons c digits ih =>
    obtain ⟨hc, hdigits⟩ := List.forall_mem_cons.mp h
    rw [List.cons_append, findSeqNumFrom, if_neg (ne_colon_of_isDigit hc), if_pos hc, ih hdigits,
      List.length_cons]
    have hcount : digitCt + 1 + digits.length = digitCt + (digits.length + 1) := by omega
    have hpos : ((i + 1 : ℕ) + digits.length : ℤ) - 2 = (i + (digits.length + 1 : ℕ) : ℤ) - 2 := by
      push_cast
      omega
    rw [hcount, hpos]

theorem findSeqNumFrom_no_colon (h : ∀ c ∈ rr, c ≠ ':') (i digitCt : ℕ) :
    findSeqNumFrom i digitCt rr = -1 := by
  induction rr generalizing i digitCt with
  | nil => rfl
  | cons c rest ih =>
    obtain ⟨hc, hrest⟩ := List.forall_mem_cons.mp h
    rw [findSeqNumFrom, if_neg hc, ih hrest]

/-- The bytes before the colon that stripping leaves: the length byte stays if it is a digit. -/
def lead (lengthByte : Char) (k : ℕ) : Bytes :=
  (if isDigit lengthByte then [lengthByte] else []) ++
    [Nat.digitChar (k / 10), Nat.digitChar (k % 10)]

theorem lead_digits (hk : k < 100) : ∀ c ∈ lead lengthByte k, isDigit c = true := by
  have htens := (digit_digitChar (show k / 10 < 10 by omega)).1
  have hones := (digit_digitChar (show k % 10 < 10 by omega)).1
  intro c hc
  rw [lead, List.mem_append, List.mem_cons, List.mem_singleton] at hc
  rcases hc with hc | rfl | rfl
  · split at hc
    · rwa [List.mem_singleton.mp hc]
    · cases hc
  · exact htens
  · exact hones

theorem stripRrData_rrData (chunk : CString) :
    stripRrData (rrData lengthByte k chunk) =
      stripLast (stripLast (lead lengthByte k ++ ':' :: chunk)) := by
  rw [rrData, stripRrData, lead]
  split <;> rfl

theorem stripLast_ne_nil (hne : chunk ≠ []) (hdot : chunk ≠ ['.'])
    (htoken : ∀ x ∈ chunk, tokenChar x = true) : stripLast chunk ≠ [] := by
  intro hnil
  obtain rfl | ⟨front, c, rfl⟩ := List.eq_nil_or_concat' chunk
  · exact hne rfl
  · rw [stripLast_concat] at hnil
    rcases validB64Char_of_tokenChar (htoken c (by simp)) with hvalid | rfl
    · rw [if_pos hvalid] at hnil
      exact hne hnil
    · rw [if_neg (by decide)] at hnil
      rw [hnil] at hdot
      exact hdot rfl

/-- A record's number is found whatever its length byte, and its chunk loses at
most its last dots. -/
theorem seqEntry_rrData (hk : 1 ≤ k) (hlt : k < 100) (hne : chunk ≠ []) (hdot : chunk ≠ ['.'])
    (htoken : ∀ x ∈ chunk, tokenChar x = true) :
    seqEntry (rrData lengthByte k chunk) = some (k, body chunk) := by
  have hstrip : stripRrData (rrData lengthByte k chunk) =
      lead lengthByte k ++ ':' :: body chunk := by
    have hfront : lead lengthByte k ++ ':' :: chunk = (lead lengthByte k ++ [':']) ++ chunk := by
      rw [List.append_assoc, List.singleton_append]
    rw [stripRrData_rrData, hfront, stripLast_append hne,
      stripLast_append (stripLast_ne_nil hne hdot htoken), List.append_assoc,
      List.singleton_append]
    rfl
  have hpos : findSeqNum (stripRrData (rrData lengthByte k chunk)) =
      ((lead lengthByte k).length : ℤ) - 2 := by
    have htwo : 2 ≤ 0 + (lead lengthByte k).length := by
      simp [lead]
    rw [hstrip, findSeqNum, findSeqNumFrom_digits (lead_digits hlt), if_pos htwo]
    simp
  have hdrop : (stripRrData (rrData lengthByte k chunk)).drop
      (((lead lengthByte k).length : ℤ) - 2).toNat =
        Nat.digitChar (k / 10) :: Nat.digitChar (k % 10) :: ':' :: body chunk := by
    rw [hstrip, lead]
    split <;> rfl
  have hnum : getRrSeqNum (Nat.digitChar (k / 10) :: Nat.digitChar (k % 10) :: ':' :: body chunk) =
      k := by
    obtain ⟨htens, htens'⟩ := digit_digitChar (show k / 10 < 10 by omega)
    obtain ⟨hones, hones'⟩ := digit_digitChar (show k % 10 < 10 by omega)
    rw [getRrSeqNum, if_pos ⟨rfl, htens, hones⟩, htens', hones']
    omega
  have hlead : 2 ≤ (lead lengthByte k).length := by simp [lead]
  rw [seqEntry]
  simp only [hpos, hdrop, hnum]
  rw [if_neg (by omega), if_neg (by omega), if_neg (by omega), if_neg (by omega)]
  rfl

/-- Of a chunk that is a single dot even the colon is lost, and its number becomes text. -/
theorem seqEntry_dot (hlt : k < 100) :
    seqEntry (rrData lengthByte k ['.']) = some (0, lead lengthByte k) := by
  have hstrip : stripRrData (rrData lengthByte k ['.']) = lead lengthByte k := by
    have hfront : lead lengthByte k ++ [':', '.'] = (lead lengthByte k ++ [':']) ++ ['.'] := by
      rw [List.append_assoc, List.singleton_append]
    rw [stripRrData_rrData, hfront, stripLast_concat, if_neg (by decide), stripLast_concat,
      if_neg (by decide)]
  have hpos : findSeqNum (lead lengthByte k) = -1 :=
    findSeqNumFrom_no_colon (fun c hc ↦ ne_colon_of_isDigit (lead_digits hlt c hc)) 0 0
  rw [seqEntry, hstrip]
  simp only [hpos]
  rfl

theorem txtEntries_map_some (rrs : List NsRr)
    (h : ∀ rdata ∈ (rrs.filter fun rr ↦ rr.type = .txt).map NsRr.rdata, (seqEntry rdata).isSome) :
    txtEntries (rrs.map some) = some (((rrs.filter fun rr ↦ rr.type = .txt).map NsRr.rdata).map
      fun rdata ↦ (seqEntry rdata).getD (0, [])) := by
  induction rrs with
  | nil => rfl
  | cons rr rrs ih =>
    rw [List.map_cons, txtEntries]
    by_cases htype : rr.type = .txt
    · rw [List.filter_cons_of_pos (by simpa using htype), List.map_cons] at h ⊢
      obtain ⟨hrr, hrest⟩ := List.forall_mem_cons.mp h
      obtain ⟨e, he⟩ := Option.isSome_iff_exists.mp hrr
      rw [if_neg (not_not.mpr htype), ih hrest, he, List.map_cons, he]
      rfl
    · rw [List.filter_cons_of_neg (by simpa using htype)] at h ⊢
      rw [if_pos htype, ih h]

section Dealt

variable {chunks : List CString} {msgHandle : NsMsg}

/-- The pieces come out in the order of the records, each with its number. -/
theorem Dealt.entries (h : Dealt chunks msgHandle) :
    ∃ (es : List (ℕ × Bytes)) (lengthByte : ℕ → Char), txtEntries msgHandle = some es ∧
      chunks.length ≤ msgHandle.length ∧
      es.Perm (chunks.mapIdx fun i c ↦
        if c = ['.'] then (0, lead (lengthByte i) (i + 1)) else (i + 1, body c)) := by
  obtain ⟨rrs, lengthByte, rfl, hperm⟩ := h.records
  have hlength : chunks.length ≤ (rrs.map some).length := by
    rw [← List.length_mapIdx (f := fun i c ↦ rrData (lengthByte i) (i + 1) c), ← hperm.length_eq,
      List.length_map, List.length_map]
    exact List.length_filter_le _ _
  have hentry : ∀ (i : ℕ) (hi : i < chunks.length),
      seqEntry (rrData (lengthByte i) (i + 1) chunks[i]) = some
        (if chunks[i] = ['.'] then (0, lead (lengthByte i) (i + 1))
        else (i + 1, body chunks[i])) := by
    intro i hi
    have hten : i + 1 < 100 := by
      have hfew := h.few
      simp only [maxRrRecs] at hfew
      omega
    obtain ⟨hne, htoken⟩ := h.chunk _ (List.getElem_mem hi)
    by_cases hdot : chunks[i] = ['.']
    · rw [hdot, if_pos rfl, seqEntry_dot hten]
    · rw [if_neg hdot, seqEntry_rrData (Nat.le_add_left 1 i) hten hne hdot htoken]
  have hsome : ∀ rdata ∈ (rrs.filter fun rr ↦ rr.type = .txt).map NsRr.rdata,
      (seqEntry rdata).isSome := by
    intro rdata hmem
    obtain ⟨i, hi, rfl⟩ := List.mem_mapIdx.mp (hperm.subset hmem)
    rw [hentry i hi, Option.isSome_some]
  refine ⟨_, lengthByte, txtEntries_map_some rrs hsome, hlength, ?_⟩
  refine (hperm.map _).trans (List.Perm.of_eq ?_)
  apply List.ext_getElem (by rw [List.length_map, List.length_mapIdx, List.length_mapIdx])
  intro i hi _
  rw [List.length_map, List.length_mapIdx] at hi
  rw [List.getElem_map, List.getElem_mapIdx, List.getElem_mapIdx, hentry i hi, Option.getD_some]

theorem length_flatten_map_body_le (chunks : List CString) :
    (chunks.map body).flatten.length ≤ chunks.flatten.length := by
  induction chunks with
  | nil => exact le_refl _
  | cons c chunks ih =>
    rw [List.map_cons, List.flatten_cons, List.flatten_cons, List.length_append, List.length_append]
    exact Nat.add_le_add (isPrefix_body c).length_le ih

theorem flatten_map_body_eq_iff (htoken : ∀ c ∈ chunks, ∀ x ∈ c, tokenChar x = true) :
    (chunks.map body).flatten = chunks.flatten ↔ ∀ c ∈ chunks, c.getLast? ≠ some '.' := by
  induction chunks with
  | nil => simp
  | cons c chunks ih =>
    obtain ⟨hc, hchunks⟩ := List.forall_mem_cons.mp htoken
    rw [List.map_cons, List.flatten_cons, List.flatten_cons, List.forall_mem_cons, ← ih hchunks,
      ← body_eq_self_iff hc]
    constructor
    · intro h
      have hle := length_flatten_map_body_le chunks
      have hsum := congrArg List.length h
      rw [List.length_append, List.length_append] at hsum
      have hbody : body c = c := by
        apply (isPrefix_body c).eq_of_length_le
        omega
      refine ⟨hbody, ?_⟩
      rwa [hbody, List.append_cancel_left_eq] at h
    · intro h
      rw [h.1, h.2]

theorem strncat_eq_self {piece : Bytes} (h : Char.ofNat 0 ∉ piece) :
    strncat (some piece) = piece := by
  rw [strncat, Option.getD_some, List.takeWhile_eq_self_iff]
  intro x hx
  apply decide_eq_true
  rintro rfl
  exact h hx

theorem perm_keys {es : List (ℕ × CString)}
    (hperm : es.Perm (chunks.mapIdx fun i c ↦ (i + 1, body c))) :
    (es.map Prod.fst).Perm (List.range' 1 chunks.length) := by
  refine (hperm.map Prod.fst).trans (List.Perm.of_eq ?_)
  apply List.ext_getElem (by rw [List.length_map, List.length_mapIdx, List.length_range'])
  intro i hi _
  rw [List.getElem_map, List.getElem_mapIdx, List.getElem_range', Nat.one_mul, Nat.add_comm]

/-- Without a chunk that is a single dot every record keeps its number. -/
theorem Dealt.numbered (h : Dealt chunks msgHandle) (hdot : ∀ c ∈ chunks, c ≠ ['.']) :
    ∃ es, Numbered msgHandle es ∧ es.Perm (chunks.mapIdx fun i c ↦ (i + 1, body c)) := by
  obtain ⟨es, lengthByte, hentries, hlength, hperm⟩ := h.entries
  have hmapIdx : (chunks.mapIdx fun i c ↦
      if c = ['.'] then (0, lead (lengthByte i) (i + 1)) else (i + 1, body c)) =
        chunks.mapIdx fun i c ↦ (i + 1, body c) := by
    apply List.mapIdx_eq_mapIdx_iff.mpr
    intro i hi
    exact if_neg (hdot _ (List.getElem_mem hi))
  rw [hmapIdx] at hperm
  have hkeys := perm_keys hperm
  refine ⟨es, ⟨h.few, hentries, fun e he ↦ ?_, hkeys.nodup_iff.mpr List.nodup_range'⟩, hperm⟩
  have hmem := hkeys.mem_iff.mp (List.mem_map_of_mem he)
  rw [List.mem_range'_1] at hmem
  omega

/-- Without a chunk that is a single dot the records are put together again, but
for the dots that stripping took off. -/
theorem Dealt.assemble (h : Dealt chunks msgHandle) (hdot : ∀ c ∈ chunks, c ≠ ['.']) :
    assembleJwtFromDns msgHandle = some (chunks.map body).flatten := by
  obtain ⟨es, hnum, hperm⟩ := h.numbered hdot
  have hcount : es.length = chunks.length := by rw [hperm.length_eq, List.length_mapIdx]
  have hmem : ∀ i, i ∈ es.map Prod.fst ↔ 1 ≤ i ∧ i ≤ chunks.length := by
    intro i
    rw [(perm_keys hperm).mem_iff, List.mem_range'_1]
    omega
  have hzero : 0 ∉ es.map Prod.fst := by
    rw [hmem]
    omega
  obtain ⟨s, hs, hsize, hget⟩ := hnum.getRrSeqTable hzero fun i hi hone ↦
    (hmem i).mpr ⟨hone, by omega⟩
  rw [assembleJwtFromDns, hs, Option.map_some, hsize, hcount, List.flatMap_def]
  congr 2
  apply List.ext_getElem (by rw [List.length_map, List.length_map, List.length_range])
  intro i hi _
  rw [List.length_map, List.length_range] at hi
  have hentry : (i + 1, body chunks[i]) ∈ es :=
    hperm.mem_iff.mpr (List.mem_mapIdx.mpr ⟨i, hi, rfl⟩)
  have hnul : Char.ofNat 0 ∉ body chunks[i] := by
    intro hmem
    have htoken := (h.chunk _ (List.getElem_mem hi)).2 _ ((isPrefix_body _).subset hmem)
    exact absurd htoken (by decide)
  rw [List.getElem_map, List.getElem_map, List.getElem_range, hget,
    Assoc.lookup_of_mem hnum.nodup hentry, strncat_eq_self hnul]

theorem Dealt.assemble_dot (h : Dealt chunks msgHandle) (hdot : ['.'] ∈ chunks) :
    assembleJwtFromDns msgHandle ≠ some chunks.flatten := by
  intro heq
  obtain ⟨es, lengthByte, hentries, hlength, hperm⟩ := h.entries
  obtain ⟨s, hs, hjwt⟩ := Option.map_eq_some_iff.mp heq
  obtain ⟨es', hnum, hcount, htable⟩ := getRrSeqTable_eq_some hs
  obtain rfl := Option.some.inj (hentries.symm.trans hnum.entries)
  obtain ⟨i, hi, hchunk⟩ := List.mem_iff_getElem.mp hdot
  have hentry : (0, lead (lengthByte i) (i + 1)) ∈ es := by
    refine hperm.mem_iff.mpr (List.mem_mapIdx.mpr ⟨i, hi, ?_⟩)
    rw [if_pos hchunk]
  rcases htable with ⟨rr, rfl, hone⟩ | ⟨hzero, _⟩
  · have hrr : lead (lengthByte i) (i + 1) = rr := (Prod.mk.inj (List.mem_singleton.mp hentry)).2
    have hnul : Char.ofNat 0 ∉ rr := by
      have hten : i + 1 < 100 := by
        have hfew := h.few
        simp only [maxRrRecs] at hfew
        omega
      rw [← hrr]
      intro hmem
      exact absurd (lead_digits hten _ hmem) (by decide)
    have hchunks : chunks.length = 1 := by
      rw [← List.length_mapIdx (l := chunks), ← hperm.length_eq, List.length_singleton]
    obtain ⟨c, rfl⟩ := List.length_eq_one_iff.mp hchunks
    obtain rfl := List.mem_singleton.mp hdot
    rw [hcount, List.length_singleton, List.range_one, List.flatMap_singleton, hone,
      strncat_eq_self hnul, ← hrr] at hjwt
    have hlong := congrArg List.length hjwt
    simp [lead] at hlong
  · exact hzero (List.mem_map_of_mem hentry)

/-- A token is put together again exactly if none of its chunks ends with a dot. -/
theorem assembleJwtFromDns_eq_token_iff (h : Dealt chunks msgHandle) :
    assembleJwtFromDns msgHandle = some chunks.flatten ↔ ∀ c ∈ chunks, c.getLast? ≠ some '.' := by
  by_cases hdot : ['.'] ∈ chunks
  · exact iff_of_false (h.assemble_dot hdot) fun hall ↦ hall _ hdot rfl
  · have hne : ∀ c ∈ chunks, c ≠ ['.'] := by
      rintro c hc rfl
      exact hdot hc
    rw [h.assemble hne, Option.some.injEq,
      flatten_map_body_eq_iff fun c hc ↦ (h.chunk c hc).2]

end Dealt

section Inputs

/-- A token cut in its middle, or at its first dot. -/
def dealtWell : List CString := ["e30".toList, ".e30.c2ln".toList]

def dealtAtDot : List CString := ["e30.".toList, "e30.c2ln".toList]

/-- The second chunk comes first, and an alias between the two. -/
def answerOf (chunks : List CString) : NsMsg :=
  match chunks with
  | [first, second] =>
    [some ⟨.txt, rrData '$' 2 second⟩, some ⟨.other, []⟩, some ⟨.txt, rrData '5' 1 first⟩]
  | _ => []

end Inputs

theorem dealt_answerOf {first second : CString} (hfirst : first ≠ []) (hsecond : second ≠ [])
    (htoken : (first ++ second).all tokenChar = true) :
    Dealt [first, second] (answerOf [first, second]) := by
  rw [List.all_append, Bool.and_eq_true, List.all_eq_true, List.all_eq_true] at htoken
  refine ⟨List.cons_ne_nil _ _, ?_, (by decide : 3 ≤ 10), ?_⟩
  · rw [List.forall_mem_cons, List.forall_mem_singleton]
    exact ⟨⟨hfirst, htoken.1⟩, hsecond, htoken.2⟩
  · refine ⟨[⟨.txt, rrData '$' 2 second⟩, ⟨.other, []⟩, ⟨.txt, rrData '5' 1 first⟩],
      fun i ↦ if i = 0 then '5' else '$', rfl, ?_⟩
    exact List.Perm.swap _ _ []

theorem assembleJwtFromDns_dealtWell :
    assembleJwtFromDns (answerOf dealtWell) = some dealtWell.flatten := by
  have hdealt : Dealt dealtWell (answerOf dealtWell) := by
    apply dealt_answerOf <;> simp only [String.reduceToList] <;> decide
  apply (assembleJwtFromDns_eq_token_iff hdealt).mpr
  simp only [dealtWell, String.reduceToList]
  decide

/-- The dot at the end of the first chunk is lost. -/
theorem assembleJwtFromDns_dealtAtDot :
    Dealt dealtAtDot (answerOf dealtAtDot) ∧ dealtAtDot.flatten = "e30.e30.c2ln".toList ∧
    assembleJwtFromDns (answerOf dealtAtDot) = some "e30e30.c2ln".toList := by
  refine ⟨?_, ?_, ?_⟩
  · apply dealt_answerOf <;> simp only [String.reduceToList] <;> decide
  · simp only [dealtAtDot, String.reduceToList]
    decide
  · simp only [dealtAtDot, String.reduceToList]
    decide

end Parodus.Token
