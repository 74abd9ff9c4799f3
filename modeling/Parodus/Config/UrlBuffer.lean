import Parodus.Config.WebpaUrl
import Parodus.Foundation.Bytes

namespace Parodus.Config.UrlBuffer

open Foundation Foundation.Access Foundation.Bytes

/-- The result, the address buffer and the port text; `none` stands for -1. -/
abbrev Outcome := Option (ℤ × Bytes × CString)

def copyAddress (serverAddr : Bytes) (serverPtr : CString) (buflen : ℕ) : Access ℕ Bytes := do
  let serverAddr ← strncpyTo (buflen - 1) 0 serverAddr serverPtr
  write serverAddr (buflen - 1) nul

def nullSlash (serverAddr : Bytes) (serverLen : ℕ) : Access ℕ Bytes := do
  let slash ← andThen (decide (0 < serverLen)) ((· == '/') <$> read serverAddr (serverLen - 1))
  if slash then write serverAddr (serverLen - 1) nul else pure serverAddr

/-- The address in the buffer, without a slash on its end. -/
def serverAddress (serverAddr : Bytes) (serverPtr : CString) (buflen : ℕ) : Access ℕ Bytes := do
  let serverAddr ← copyAddress serverAddr serverPtr buflen
  let serverLen ← strlen serverAddr (buflen + 1) 0
  nullSlash serverAddr serverLen

/-- The turns of the loop that removes the first character, from the `i`th on. -/
def removeLoop : ℕ → ℕ → Bytes → Access ℕ Bytes
  | 0, _, serverAddr => pure serverAddr
  | turns + 1, i, serverAddr => do
    let c ← read serverAddr (i + 1)
    let serverAddr ← write serverAddr i c
    removeLoop turns (i + 1) serverAddr

/-- The zero written where a character was found. -/
def nullAt (serverAddr : Bytes) : Option ℕ → Access ℕ Bytes
  | none => pure serverAddr
  | some i => write serverAddr i nul

section
variable (buflen portBuflen : ℕ) (httpMatch : ℤ) (serverAddr : Bytes)

/-- The search goes on until it has left the buffer. -/
def find (c : Char) (i : ℕ) : Access ℕ (Option ℕ) := strchr serverAddr c (buflen + 1) i

/-- The log line that prints the address, and the result. -/
def report (portBuf : CString) : Access ℕ Outcome := do
  let _ ← strlen serverAddr (buflen + 1) 0
  pure (some (httpMatch, serverAddr, portBuf))

/-- The port text behind a colon. -/
def readPort (i : ℕ) : Access ℕ Outcome := do
  let endPort ← find buflen serverAddr '/' i
  let serverAddr ← nullAt serverAddr endPort
  let portBuf ← strncpyFrom serverAddr (portBuflen - 1) i
  report buflen httpMatch serverAddr portBuf

def closeAddr : Option ℕ → Access ℕ Outcome
  | none => pure none
  | some closeBracket => do
    let serverAddr ← write serverAddr closeBracket nul
    let checkPort ← find buflen serverAddr ':' (closeBracket + 1)
    match checkPort with
    | none => report buflen httpMatch serverAddr ((defaultPort httpMatch).take (portBuflen - 1))
    | some checkPort => readPort buflen portBuflen httpMatch serverAddr (checkPort + 1)

def bracketed : Access ℕ Outcome := do
  let serverAddr ← removeLoop buflen 0 serverAddr
  let closeBracket ← find buflen serverAddr ']' 0
  closeAddr buflen portBuflen httpMatch serverAddr closeBracket

def splitPort : Option ℕ → Access ℕ Outcome
  | none => do
    let endPort ← find buflen serverAddr '/' 0
    let serverAddr ← nullAt serverAddr endPort
    report buflen httpMatch serverAddr ((defaultPort httpMatch).take (portBuflen - 1))
  | some portVal => do
    let serverAddr ← write serverAddr portVal nul
    readPort buflen portBuflen httpMatch serverAddr (portVal + 1)

def plain : Access ℕ Outcome := do
  let closeBracket ← find buflen serverAddr ']' 0
  if closeBracket.isSome then pure none
  else do
    let portVal ← find buflen serverAddr ':' 0
    splitPort buflen portBuflen httpMatch serverAddr portVal

def splitAddress : Access ℕ Outcome := do
  let openBracket ← find buflen serverAddr '[' 0
  if openBracket.isSome then bracketed buflen portBuflen httpMatch serverAddr
  else plain buflen portBuflen httpMatch serverAddr

end

/-- `parse_webpa_url__` with every read and write of the address buffer. -/
def parseWebpaUrl' (serverAddr : Bytes) (fullUrl : CString) (buflen portBuflen : ℕ) :
    Access ℕ Outcome :=
  match serverIsHttp fullUrl with
  | none => pure none
  | some (httpMatch, serverPtr) => do
    let serverAddr ← serverAddress serverAddr serverPtr buflen
    splitAddress buflen portBuflen httpMatch serverAddr

/-- The buffer as `malloc` leaves it is arbitrary. -/
def parseWebpaUrl (urlBuf : Bytes) (fullUrl : CString) : Access ℕ Outcome :=
  parseWebpaUrl' urlBuf fullUrl (fullUrl.length + 1) 8

/-- The buffer holds the address of the result. -/
def Stores : Outcome → Option (ℤ × CString × CString) → Prop :=
  Option.Rel fun out result ↦
    out.1 = result.1 ∧ Holds out.2.1 0 result.2.1 ∧ out.2.2 = result.2.2

/-- The accesses stay below a bound, and what is left is the result. -/
structure Parses (n : ℕ) (out : Access ℕ Outcome) (result : Option (ℤ × CString × CString)) :
    Prop where
  within : Within (· < n) out
  stores : Stores out.value result

variable {buflen portBuflen n i turns : ℕ} {httpMatch : ℤ} {serverAddr urlBuf : Bytes}
  {fullUrl serverPtr a s text portBuf : CString}

theorem Parses.mono {m : ℕ} {out : Access ℕ Outcome} {result : Option (ℤ × CString × CString)}
    (h : Parses m out result) (hmn : m ≤ n) : Parses n out result :=
  ⟨h.within.mono fun _ hi ↦ Nat.lt_of_lt_of_le hi hmn, h.stores⟩

theorem Parses.bind {α : Type} {m : Access ℕ α} {f : α → Access ℕ Outcome}
    {result : Option (ℤ × CString × CString)} (hm : Within (· < n) m)
    (hf : Parses n (f m.value) result) : Parses n (m >>= f) result :=
  ⟨within_bind.mpr ⟨hm, hf.within⟩, hf.stores⟩

theorem find_spec (buflen n : ℕ) (c : Char) (h : Holds serverAddr i s) (hc : c ≠ nul)
    (hs : i + s.length < n) (hbuf : s.length ≤ buflen) :
    Within (· < n) (find buflen serverAddr c i) ∧
      ((c ∉ s ∧ (find buflen serverAddr c i).value = none) ∨
        ∃ a rest, c ∉ a ∧ s = a ++ c :: rest ∧
          (find buflen serverAddr c i).value = some (i + a.length)) := by
  refine ⟨within_strchr h hs, ?_⟩
  obtain ⟨hnone, _⟩ | ⟨a, rest, ha, rfl, _⟩ := cutAt_cases c s
  · exact .inl ⟨hnone, value_strchr_of_not_mem h hnone hc (by omega)⟩
  · rw [List.length_append] at hbuf
    exact .inr ⟨a, rest, ha, rfl, value_strchr h ha (by omega)⟩

theorem report_spec (h : Holds serverAddr 0 a) (ha : a.length < n) :
    Parses n (report buflen httpMatch serverAddr portBuf) (some (httpMatch, a, portBuf)) where
  within := within_bind.mpr ⟨within_strlen h (by omega), within_pure _⟩
  stores := .some ⟨rfl, h, rfl⟩

theorem readPort_spec (ha : Holds serverAddr 0 a) (htext : Holds serverAddr i text)
    (hai : a.length < i) (hn : i + text.length < n) (hbuf : text.length ≤ buflen) :
    Parses n (readPort buflen portBuflen httpMatch serverAddr i)
      (some (httpMatch, a, portText httpMatch portBuflen (some text))) := by
  obtain ⟨hwithin, hfind⟩ := find_spec buflen n '/' htext (by decide) hn hbuf
  refine .bind hwithin ?_
  obtain ⟨hslash, hvalue⟩ | ⟨port, rest, hport, rfl, hvalue⟩ := hfind
  · rw [hvalue, portText, cutAt_of_not_mem hslash, ← value_strncpyFrom htext]
    refine .bind (within_pure _) (.bind (within_readWhile htext (by decide) hn) ?_)
    exact report_spec ha (by omega)
  · rw [List.length_append, List.length_cons] at hn
    have hcut := htext.cut.1
    rw [hvalue, portText, cutAt_append hport, ← value_strncpyFrom hcut]
    refine .bind (within_write.mpr (by omega))
      (.bind (within_readWhile hcut (by decide) (by omega)) ?_)
    exact report_spec (ha.update_of_gt (by omega)) (by omega)

theorem closeAddr_spec (hs : Holds serverAddr 0 s) (hn : s.length < n) (hbuf : s.length ≤ buflen) :
    Parses n (do
      let closeBracket ← find buflen serverAddr ']' 0
      closeAddr buflen portBuflen httpMatch serverAddr closeBracket)
      (bracketedAddr httpMatch portBuflen s) := by
  obtain ⟨hwithin, hfind⟩ := find_spec buflen n ']' hs (by decide) (by omega) hbuf
  refine .bind hwithin ?_
  obtain ⟨hclose, hvalue⟩ | ⟨a, rest, ha, rfl, hvalue⟩ := hfind
  · rw [hvalue, bracketedAddr, cutAt_of_not_mem hclose]
    exact ⟨within_pure _, .none⟩
  · rw [List.length_append, List.length_cons] at hn hbuf
    obtain ⟨haddr, hrest⟩ := hs.cut
    rw [hvalue, bracketedAddr, cutAt_append ha, Option.map_some, Nat.zero_add]
    rw [Nat.zero_add] at haddr hrest
    refine .bind (within_write.mpr (by omega)) ?_
    rw [value_write]
    obtain ⟨hwithin, hfind⟩ := find_spec buflen n ':' hrest (by decide) (by omega) (by omega)
    refine .bind hwithin ?_
    obtain ⟨hcolon, hvalue⟩ | ⟨front, port, hfront, rfl, hvalue⟩ := hfind
    · rw [hvalue, cutAt_of_not_mem hcolon]
      have hlen : a.length < n := by omega
      exact report_spec haddr hlen
    · rw [List.length_append, List.length_cons] at hn hbuf
      rw [hvalue, cutAt_append hfront]
      dsimp only
      exact readPort_spec haddr hrest.of_append.2.2 (by omega) (by omega) (by omega)

theorem plain_spec (hs : Holds serverAddr 0 s) (hn : s.length < n) (hbuf : s.length ≤ buflen) :
    Parses n (plain buflen portBuflen httpMatch serverAddr) (plainAddr httpMatch portBuflen s) := by
  obtain ⟨hwithin, hfind⟩ := find_spec buflen n ']' hs (by decide) (by omega) hbuf
  refine .bind hwithin ?_
  obtain ⟨hclose, hvalue⟩ | ⟨a, rest, _, rfl, hvalue⟩ := hfind
  · rw [hvalue, plainAddr, if_neg hclose]
    obtain ⟨hwithin, hfind⟩ := find_spec buflen n ':' hs (by decide) (by omega) hbuf
    refine .bind hwithin ?_
    obtain ⟨hcolon, hvalue⟩ | ⟨a, port, ha, rfl, hvalue⟩ := hfind
    · rw [hvalue, if_neg hcolon, cutAt_of_not_mem hcolon]
      obtain ⟨hwithin, hfind⟩ := find_spec buflen n '/' hs (by decide) (by omega) hbuf
      refine .bind hwithin ?_
      obtain ⟨hslash, hvalue⟩ | ⟨a, path, ha, rfl, hvalue⟩ := hfind
      · rw [hvalue, cutAt_of_not_mem hslash]
        exact .bind (within_pure _) (report_spec hs hn)
      · rw [List.length_append, List.length_cons] at hn
        rw [hvalue, cutAt_append ha]
        have hlen : a.length < n := by omega
        exact .bind (within_write.mpr (by omega)) (report_spec hs.cut.1 hlen)
    · rw [List.length_append, List.length_cons] at hn hbuf
      obtain ⟨haddr, hport⟩ := hs.cut
      have hmem : ':' ∈ a ++ ':' :: port := List.mem_append_right _ List.mem_cons_self
      rw [hvalue, if_pos hmem, cutAt_append ha]
      refine .bind (within_write.mpr (by omega)) ?_
      dsimp only
      exact readPort_spec haddr hport (by omega) (by omega) (by omega)
  · have hmem : ']' ∈ a ++ ']' :: rest := List.mem_append_right _ List.mem_cons_self
    rw [hvalue, plainAddr, if_pos hmem]
    exact ⟨within_pure _, .none⟩

theorem removeLoop_value_of_lt {j : ℕ} (hj : j < i) :
    (removeLoop turns i serverAddr).value j = serverAddr j := by
  induction turns generalizing i serverAddr with
  | zero => rfl
  | succ turns ih =>
    rw [removeLoop, value_bind, value_bind, ih (by omega), value_write]
    exact Function.update_of_ne (by omega) _ _

/-- The loop moves a text one to the left. -/
theorem holds_removeLoop (hs : Holds serverAddr (i + 1) s) (hturns : s.length < turns) :
    Holds (removeLoop turns i serverAddr).value i s := by
  induction turns generalizing i serverAddr s with
  | zero => exact absurd hturns (Nat.not_lt_zero _)
  | succ turns ih =>
    have hi : (removeLoop (turns + 1) i serverAddr).value i = serverAddr (i + 1) := by
      rw [removeLoop, value_bind, value_bind, removeLoop_value_of_lt (Nat.lt_succ_self i)]
      exact Function.update_self _ _ _
    cases s with
    | nil => exact hi.trans hs
    | cons c s =>
      obtain ⟨hc, hne, hs⟩ := hs
      exact ⟨hi.trans hc, hne,
        ih (hs.update_of_lt (by omega)) (Nat.lt_of_succ_lt_succ hturns)⟩

/-- The last turn reads one behind the last byte it writes. -/
theorem within_removeLoop :
    Within (· < n) (removeLoop turns i serverAddr) ↔ turns = 0 ∨ i + turns < n := by
  induction turns generalizing i serverAddr with
  | zero => exact iff_of_true (within_pure _) (.inl rfl)
  | succ turns ih =>
    rw [removeLoop, within_bind, within_read, within_bind, within_write, ih]
    omega

theorem copyAddress_spec (urlBuf : Bytes) (hnul : nul ∉ serverPtr) (hbuf : 0 < buflen) :
    Within (· < buflen) (copyAddress urlBuf serverPtr buflen) ∧
      Holds (copyAddress urlBuf serverPtr buflen).value 0 (serverPtr.take (buflen - 1)) := by
  refine ⟨within_bind.mpr ⟨within_strncpyTo (by omega), within_write.mpr (by omega)⟩, ?_⟩
  have hcopy := holds_strncpyTo (b := urlBuf) (i := 0) (n := buflen - 1) hnul
  rw [Nat.zero_add] at hcopy
  exact hcopy

theorem nullSlash_spec (hs : Holds serverAddr 0 s) (hn : s.length < n) :
    Within (· < n) (nullSlash serverAddr s.length) ∧
      Holds (nullSlash serverAddr s.length).value 0 (trimSlash s) := by
  obtain rfl | ⟨front, c, heq⟩ := s.eq_nil_or_concat
  · exact ⟨within_bind.mpr ⟨within_andThen.mpr fun h ↦ (by cases h), within_pure _⟩, hs⟩
  · obtain rfl := heq.trans List.concat_eq_append
    rw [List.length_append, List.length_singleton] at hn ⊢
    obtain ⟨hcut, _⟩ := hs.cut
    have hlast : serverAddr front.length = c := by
      have hc := hs.of_append.1
      rwa [Nat.zero_add] at hc
    rw [nullSlash, within_bind, value_bind, within_andThen, value_andThen, within_map, within_read,
      value_map, value_read, Nat.add_sub_cancel, hlast, trimSlash, List.getLast?_concat,
      List.dropLast_concat]
    rw [Nat.zero_add] at hcut
    have hpos : decide (0 < front.length + 1) = true := decide_eq_true (Nat.succ_pos _)
    rw [hpos, Bool.true_and]
    refine ⟨⟨fun _ ↦ by omega, ?_⟩, ?_⟩
    · split
      · exact within_write.mpr (by omega)
      · exact within_pure _
    · by_cases hslash : c = '/'
      · rw [hslash, if_pos rfl, if_pos (beq_self_eq_true '/')]
        exact hcut
      · have hne : (c == '/') = false := beq_false_of_ne hslash
        rw [if_neg (mt Option.some.inj hslash), hne]
        exact hs

theorem bracketed_spec (hs : Holds serverAddr 1 s) (hbuf : s.length < buflen) :
    Parses (buflen + 1) (bracketed buflen portBuflen httpMatch serverAddr)
      (bracketedAddr httpMatch portBuflen s) :=
  .bind (within_removeLoop.mpr (.inr (by omega)))
    (closeAddr_spec (holds_removeLoop hs hbuf) (by omega) (by omega))

theorem not_within_bracketed (hbuf : 0 < buflen) :
    ¬Within (· < buflen) (bracketed buflen portBuflen httpMatch serverAddr) := by
  intro h
  have hloop := within_removeLoop.mp (within_bind.mp h).1
  omega

theorem length_serverAddr_lt (hbuf : 0 < buflen) :
    (trimSlash (serverPtr.take (buflen - 1))).length < buflen := by
  have htrim := length_trimSlash_le (serverPtr.take (buflen - 1))
  rw [List.length_take] at htrim
  omega

theorem serverAddress_spec (urlBuf : Bytes) (hnul : nul ∉ serverPtr) (hbuf : 0 < buflen) :
    Within (· < buflen) (serverAddress urlBuf serverPtr buflen) ∧
      Holds (serverAddress urlBuf serverPtr buflen).value 0
        (trimSlash (serverPtr.take (buflen - 1))) := by
  obtain ⟨hcopy, hholds⟩ := copyAddress_spec urlBuf hnul hbuf
  have hlen : (serverPtr.take (buflen - 1)).length < buflen := by
    rw [List.length_take]
    omega
  obtain ⟨hslash, htrim⟩ := nullSlash_spec hholds hlen
  have hstrlen := value_strlen hholds (Nat.le_trans hlen.le (Nat.le_succ buflen))
  rw [serverAddress, within_bind, within_bind, value_bind, value_bind, hstrlen]
  exact ⟨⟨hcopy, within_strlen hholds (by omega), hslash⟩, htrim⟩

theorem splitAddress_spec (hs : Holds serverAddr 0 s) (hbuf : s.length < buflen) :
    Parses (buflen + 1) (splitAddress buflen portBuflen httpMatch serverAddr)
      (if '[' ∈ s then bracketedAddr httpMatch portBuflen (s.drop 1)
        else plainAddr httpMatch portBuflen s) := by
  obtain ⟨hwithin, hfind⟩ := find_spec buflen (buflen + 1) '[' hs (by decide) (by omega) (by omega)
  refine .bind hwithin ?_
  obtain ⟨hopen, hvalue⟩ | ⟨a, rest, _, heq, hvalue⟩ := hfind
  · rw [hvalue, if_neg hopen]
    exact plain_spec hs (by omega) (by omega)
  · have hmem : '[' ∈ s := heq ▸ List.mem_append_right _ List.mem_cons_self
    obtain ⟨c, rest, rfl⟩ := List.exists_cons_of_ne_nil (List.ne_nil_of_mem hmem)
    rw [hvalue, if_pos hmem]
    exact bracketed_spec hs.2.2 (Nat.lt_of_succ_lt hbuf)

theorem within_splitAddress_iff (hs : Holds serverAddr 0 s) (hbuf : s.length < buflen) :
    Within (· < buflen) (splitAddress buflen portBuflen httpMatch serverAddr) ↔ '[' ∉ s := by
  obtain ⟨hwithin, hfind⟩ := find_spec buflen buflen '[' hs (by decide) (by omega) (by omega)
  rw [splitAddress, within_bind, and_iff_right hwithin]
  obtain ⟨hopen, hvalue⟩ | ⟨a, rest, _, heq, hvalue⟩ := hfind
  · rw [hvalue]
    exact iff_of_true (plain_spec hs hbuf (by omega)).within hopen
  · have hmem : '[' ∈ s := heq ▸ List.mem_append_right _ List.mem_cons_self
    rw [hvalue]
    exact iff_of_false (not_within_bracketed (by omega)) (not_not_intro hmem)

/-- The code on the buffer gives the result on texts, and reads at most one byte behind the end. -/
theorem parseWebpaUrl'_parses (hnul : nul ∉ fullUrl) (hbuf : 0 < buflen) :
    Parses (buflen + 1) (parseWebpaUrl' urlBuf fullUrl buflen portBuflen)
      (Config.parseWebpaUrl' fullUrl buflen portBuflen) := by
  rw [parseWebpaUrl']
  cases h : serverIsHttp fullUrl with
  | none =>
    rw [Config.parseWebpaUrl', h]
    exact ⟨within_pure _, .none⟩
  | some r =>
    obtain ⟨httpMatch, serverPtr⟩ := r
    obtain ⟨hwithin, hholds⟩ := serverAddress_spec urlBuf
      (fun hmem ↦ hnul ((serverIsHttp_suffix h).mem hmem)) hbuf
    rw [parseWebpaUrl'_of_scheme h]
    refine .bind (hwithin.mono fun _ hi ↦ Nat.lt_succ_of_lt hi) (splitAddress_spec hholds ?_)
    exact length_serverAddr_lt hbuf

theorem parseWebpaUrl'_within_iff (hnul : nul ∉ fullUrl) (hbuf : 0 < buflen) :
    Within (· < buflen) (parseWebpaUrl' urlBuf fullUrl buflen portBuflen) ↔
      ∀ httpMatch serverPtr, serverIsHttp fullUrl = some (httpMatch, serverPtr) →
        '[' ∉ serverPtr.take (buflen - 1) := by
  rw [parseWebpaUrl']
  cases h : serverIsHttp fullUrl with
  | none => exact iff_of_true (within_pure _) (fun _ _ hnone ↦ by cases hnone)
  | some r =>
    obtain ⟨httpMatch, serverPtr⟩ := r
    obtain ⟨hwithin, hholds⟩ := serverAddress_spec urlBuf
      (fun hmem ↦ hnul ((serverIsHttp_suffix h).mem hmem)) hbuf
    dsimp only
    rw [within_bind, and_iff_right hwithin,
      within_splitAddress_iff hholds (length_serverAddr_lt hbuf), mem_trimSlash (by decide)]
    constructor
    · rintro hopen _ _ ⟨⟩
      exact hopen
    · intro hopen
      exact hopen httpMatch serverPtr rfl

/-- The accesses to the buffer stay inside it unless there is an open bracket behind the scheme. -/
theorem parseWebpaUrl_within_iff (urlBuf : Bytes) {fullUrl : CString} (hnul : nul ∉ fullUrl) :
    Within (· < fullUrl.length + 1) (parseWebpaUrl urlBuf fullUrl) ↔
      ∀ httpMatch serverPtr, serverIsHttp fullUrl = some (httpMatch, serverPtr) →
        '[' ∉ serverPtr := by
  rw [parseWebpaUrl, parseWebpaUrl'_within_iff hnul (Nat.succ_pos _)]
  refine forall_congr' fun httpMatch ↦ forall_congr' fun serverPtr ↦ imp_congr_right fun h ↦ ?_
  rw [Nat.succ_sub_one, List.take_of_length_le (serverIsHttp_suffix h).length_le]

theorem parseWebpaUrl_within_plain :
    Within (· < 17) (parseWebpaUrl (fun _ ↦ nul) "http://host:8080".toList) := by
  have hnul : nul ∉ "http://host:8080".toList := by decide
  refine (parseWebpaUrl_within_iff (fun _ ↦ nul) hnul).mpr ?_
  intro httpMatch serverPtr h
  have hscheme : serverIsHttp "http://host:8080".toList = some (1, "host:8080".toList) := by decide
  obtain ⟨rfl, rfl⟩ := Prod.mk.inj (Option.some.inj (hscheme.symm.trans h))
  decide

theorem parseWebpaUrl_bracket_not_within :
    ¬∀ (urlBuf : Bytes) (fullUrl : CString), nul ∉ fullUrl →
      Within (· < fullUrl.length + 1) (parseWebpaUrl urlBuf fullUrl) := by
  intro h
  have hread : 13 ∈ (parseWebpaUrl (fun _ ↦ nul) "http://[::1]".toList).touched := by
    decide +kernel
  exact absurd (h _ _ (by decide) 13 hread) (by decide)

end Parodus.Config.UrlBuffer
