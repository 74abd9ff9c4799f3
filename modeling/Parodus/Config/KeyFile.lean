import Parodus.Config.Numbers
import Parodus.Foundation.Bytes
import Parodus.Foundation.Overlays

namespace Parodus.Config

open Foundation Foundation.Access Foundation.Bytes

/-- The reads of the string in the buffer, which go on until they have left it; what is
behind it is arbitrary. -/
def KeyBuf.readString (buf : KeyBuf) (behind : Foundation.Bytes) : Access ℕ CString :=
  readWhile (fun i ↦ buf.bytes.getD i (behind i)) (· ≠ nul) 4097 0

/-- The buffers that `parseCommandLine` logs, one after each key file. -/
def keyLogs (sys : Setup) : ParodusCfg → List Opt → List KeyBuf
  | _, [] => []
  | cfg, opt :: opts =>
    match applyOption sys cfg opt with
    | .error _ => []
    | .ok next =>
      if opt.c = 'k' then next.jwtKey :: keyLogs sys next opts else keyLogs sys next opts

/-- The contents of the key files, in the order of their options. -/
def keyFiles (sys : Setup) (opts : List Opt) : List (List Char) :=
  opts.filterMap fun opt ↦ if opt.c = 'k' then opt.optarg.bind sys.files else none

/-- The key of an accepted command line is that of its last key file, wherever it is read. -/
structure KeyRead (sys : Setup) (opts : List Opt) (cfg₀ cfg : ParodusCfg) : Prop where
  fits : ∀ content ∈ keyFiles sys opts, content.length < 4096
  held : ∀ content, (keyFiles sys opts).getLast? = some content →
    ∃ rest, cfg.jwtKey.bytes = content ++ nul :: rest
  inside : ∀ buf ∈ cfg.jwtKey :: keyLogs sys (resetCfg cfg₀) opts, ∀ behind,
    Within (· < 4096) (buf.readString behind)
  read : ∀ content, (keyFiles sys opts).getLast? = some content → ∀ behind,
    (cfg.jwtKey.readString behind).value = content
  logged : ∀ content, (keyFiles sys opts).getLast? = some content → ∃ buf,
    (keyLogs sys (resetCfg cfg₀) opts).getLast? = some buf ∧
      ∀ behind, (buf.readString behind).value = content

def KeyRight (sys : Setup) (opts : List Opt) (cfg₀ : ParodusCfg) : Prop :=
  ∀ cfg, parseCommandLine sys opts cfg₀ = .ok cfg → KeyRead sys opts cfg₀ cfg

/-- The last key file leaves room for a zero, and no key file before it is longer. -/
def KeysFit (sys : Setup) (opts : List Opt) : Prop :=
  ∀ content, (keyFiles sys opts).getLast? = some content → content.length < 4096 ∧
    ∀ earlier ∈ keyFiles sys opts, earlier.length ≤ content.length

/-- The buffer holds a text with zeros behind it, if there is room. -/
structure KeyBuf.Holds (buf : KeyBuf) (text : CString) : Prop where
  le : text.length ≤ 4096
  bytes : buf.bytes = text ++ List.replicate (4096 - text.length) nul
  nonzero : nul ∉ text

variable {sys : Setup} {opts pre post : List Opt} {cfg cfg' cfg₀ : ParodusCfg} {buf : KeyBuf}
  {text content : CString}

theorem KeyBuf.holds_empty : KeyBuf.empty.Holds [] where
  le := Nat.zero_le _
  bytes := rfl
  nonzero := List.not_mem_nil

/-- What a file does not reach of the text before it stays. -/
theorem KeyBuf.Holds.read (h : buf.Holds text) (hcontent : nul ∉ content) :
    (buf.read content).Holds (overlay text (content.take 4096)) where
  le := length_overlay_le_iff.mpr ⟨h.le, List.length_take_le _ _⟩
  bytes := by
    have hread : (buf.read content).bytes = overlay buf.bytes (content.take 4096) := rfl
    rw [hread, h.bytes, overlay_append, List.drop_replicate]
    congr 2
    rw [overlay, List.length_append, List.length_drop]
    omega
  nonzero := not_mem_overlay h.nonzero fun hmem ↦ hcontent (List.mem_of_mem_take hmem)

theorem KeyBuf.Holds.terminated (h : buf.Holds text) (hlt : text.length < 4096) :
    ∃ rest, buf.bytes = text ++ nul :: rest := by
  obtain ⟨k, hk⟩ : ∃ k, 4096 - text.length = k + 1 := ⟨4096 - text.length - 1, by omega⟩
  refine ⟨List.replicate k nul, ?_⟩
  rw [h.bytes, hk, List.replicate_succ]

theorem KeyBuf.Holds.memory (h : buf.Holds text) (hlt : text.length < 4096)
    (behind : Foundation.Bytes) :
    Bytes.Holds (fun i ↦ buf.bytes.getD i (behind i)) 0 text := by
  obtain ⟨rest, hbytes⟩ := h.terminated hlt
  rw [List.append_cons] at hbytes
  have hspans := spans_getD buf.bytes behind
  nth_rewrite 2 [hbytes] at hspans
  exact hspans.left.holds h.nonzero

theorem KeyBuf.Holds.value (h : buf.Holds text) (hlt : text.length < 4096)
    (behind : Foundation.Bytes) : (buf.readString behind).value = text := by
  have hvalue := value_strncpyFrom (n := 4097) (h.memory hlt behind)
  rwa [List.take_of_length_le (by omega)] at hvalue

/-- The string can be read if there is a zero behind it. -/
theorem KeyBuf.Holds.within_iff (h : buf.Holds text) :
    (∀ behind, Within (· < 4096) (buf.readString behind)) ↔ text.length < 4096 := by
  constructor
  · intro hwithin
    by_contra hfull
    have hlength : buf.bytes.length = 4096 := buf.sized
    have hbytes : buf.bytes = text := by
      rw [h.bytes, Nat.sub_eq_zero_of_le (Nat.not_lt.mp hfull), List.replicate_zero,
        List.append_nil]
    have hnonzero : ∀ c ∈ buf.bytes, decide (c ≠ nul) = true := by
      intro c hc
      rw [hbytes] at hc
      exact decide_eq_true (ne_of_mem_of_not_mem hc h.nonzero)
    have htouched := mem_touched_readWhile (spans_getD buf.bytes fun _ ↦ nul) hnonzero
      (show buf.bytes.length < 4097 by omega)
    have hlt := hwithin (fun _ ↦ nul) _ htouched
    omega
  · intro hlt behind
    exact within_readWhile (h.memory hlt behind) (by decide) (by omega)

theorem foldl_readKey (sys : Setup) (opts : List Opt) (buf : KeyBuf) :
    opts.foldl (readKey sys) buf = (keyFiles sys opts).foldl KeyBuf.read buf := by
  rw [keyFiles, List.foldl_filterMap]
  congr 1
  funext buf opt
  rw [readKey]
  split
  · cases opt.optarg.bind sys.files with
    | none => rfl
    | some content => rfl
  · rfl

theorem holds_foldl_read {contents : List (List Char)} (h : buf.Holds text)
    (hcontents : ∀ content ∈ contents, nul ∉ content) :
    (contents.foldl KeyBuf.read buf).Holds (overlays text (contents.map (List.take 4096))) := by
  induction contents generalizing buf text with
  | nil => exact h
  | cons content contents ih =>
    obtain ⟨hcontent, hrest⟩ := List.forall_mem_cons.mp hcontents
    exact ih (h.read hcontent) hrest

theorem readKeys_holds (hfiles : ∀ content ∈ keyFiles sys opts, nul ∉ content) :
    (opts.foldl (readKey sys) .empty).Holds
      (overlays [] ((keyFiles sys opts).map (List.take 4096))) := by
  rw [foldl_readKey]
  exact holds_foldl_read KeyBuf.holds_empty hfiles

theorem mem_keyLogs (h : buf ∈ keyLogs sys cfg opts) :
    ∃ pre post, opts = pre ++ post ∧ buf = pre.foldl (readKey sys) cfg.jwtKey := by
  induction opts generalizing cfg with
  | nil => cases h
  | cons opt opts ih =>
    rw [keyLogs] at h
    cases hopt : applyOption sys cfg opt with
    | error e =>
      rw [hopt] at h
      cases h
    | ok next =>
      have hkey : next.jwtKey = readKey sys cfg.jwtKey opt := (applyOption_applied hopt).jwtKey
      rw [hopt] at h
      obtain rfl | hmem : buf = next.jwtKey ∨ buf ∈ keyLogs sys next opts := by
        dsimp only at h
        split at h
        · exact List.mem_cons.mp h
        · exact .inr h
      · exact ⟨[opt], opts, rfl, hkey⟩
      · obtain ⟨pre, post, rfl, rfl⟩ := ih hmem
        exact ⟨opt :: pre, post, rfl, by rw [hkey, List.foldl_cons]⟩

/-- The last buffer that is logged is the one that the options leave. -/
theorem keyLogs_last (h : opts.foldlM (applyOption sys) cfg = .ok cfg') :
    (cfg.jwtKey :: keyLogs sys cfg opts).getLast? = some cfg'.jwtKey := by
  induction opts generalizing cfg with
  | nil =>
    cases h
    rfl
  | cons opt opts ih =>
    rw [List.foldlM_cons] at h
    cases hopt : applyOption sys cfg opt with
    | error e =>
      rw [hopt] at h
      cases h
    | ok next =>
      have hkey : next.jwtKey = readKey sys cfg.jwtKey opt := (applyOption_applied hopt).jwtKey
      rw [hopt] at h
      have hlast := ih h
      rw [keyLogs, hopt]
      dsimp only
      split
      · rw [List.getLast?_cons_cons]
        exact hlast
      · rename_i hc
        rw [readKey, if_neg hc] at hkey
        rw [← hkey]
        exact hlast

theorem keyLogs_ne_nil (h : opts.foldlM (applyOption sys) cfg = .ok cfg')
    (hkey : ∃ opt ∈ opts, opt.c = 'k') : keyLogs sys cfg opts ≠ [] := by
  induction opts generalizing cfg with
  | nil =>
    obtain ⟨_, hmem, _⟩ := hkey
    cases hmem
  | cons opt opts ih =>
    rw [List.foldlM_cons] at h
    cases hopt : applyOption sys cfg opt with
    | error e =>
      rw [hopt] at h
      cases h
    | ok next =>
      rw [hopt] at h
      rw [keyLogs, hopt]
      dsimp only
      split
      · exact List.cons_ne_nil _ _
      · rename_i hc
        refine ih h ?_
        obtain ⟨opt', hmem, hc'⟩ := hkey
        obtain rfl | hmem := List.mem_cons.mp hmem
        · exact absurd hc' hc
        · exact ⟨opt', hmem, hc'⟩

theorem exists_keyOption (h : content ∈ keyFiles sys opts) : ∃ opt ∈ opts, opt.c = 'k' := by
  obtain ⟨opt, hopt, hfile⟩ := List.mem_filterMap.mp h
  refine ⟨opt, hopt, ?_⟩
  by_contra hc
  rw [if_neg hc] at hfile
  cases hfile

theorem KeysFit.length_lt (h : KeysFit sys opts) (hcontent : content ∈ keyFiles sys opts) :
    content.length < 4096 := by
  obtain ⟨last, hlast⟩ := Option.isSome_iff_exists.mp
    (List.getLast?_isSome.mpr (List.ne_nil_of_mem hcontent))
  obtain ⟨hlt, hlonger⟩ := h last hlast
  exact Nat.lt_of_le_of_lt (hlonger content hcontent) hlt

theorem map_take_eq {contents : List (List Char)}
    (h : ∀ content ∈ contents, content.length < 4096) :
    contents.map (List.take 4096) = contents := by
  have htake : ∀ content ∈ contents, content.take 4096 = id content :=
    fun content hcontent ↦ List.take_of_length_le (Nat.le_of_lt (h content hcontent))
  rw [List.map_congr_left htake, List.map_id]

/-- Files that all leave room for a zero stand over each other in the buffer. -/
theorem readKeys_of_fit (hfiles : ∀ content ∈ keyFiles sys opts, nul ∉ content)
    (hfit : ∀ content ∈ keyFiles sys opts, content.length < 4096) :
    (opts.foldl (readKey sys) .empty).Holds (overlays [] (keyFiles sys opts)) ∧
      (overlays [] (keyFiles sys opts)).length < 4096 := by
  have hholds := readKeys_holds hfiles
  rw [map_take_eq hfit] at hholds
  refine ⟨hholds, Nat.lt_succ_of_le (length_overlays_le_iff.mpr ⟨Nat.zero_le _, ?_⟩)⟩
  exact fun content hcontent ↦ Nat.le_of_lt_succ (hfit content hcontent)

theorem jwtKey_eq (hcfg : parseCommandLine sys opts cfg₀ = .ok cfg) :
    cfg.jwtKey = opts.foldl (readKey sys) .empty :=
  (parseCommandLine_ok hcfg).1.jwtKey

theorem KeyRead.keysFit (h : KeyRead sys opts cfg₀ cfg)
    (hcfg : parseCommandLine sys opts cfg₀ = .ok cfg)
    (hfiles : ∀ content ∈ keyFiles sys opts, nul ∉ content) : KeysFit sys opts := by
  intro content hlast
  obtain ⟨hholds, hlt⟩ := readKeys_of_fit hfiles h.fits
  have hvalue := h.read content hlast fun _ ↦ nul
  rw [jwtKey_eq hcfg, hholds.value hlt] at hvalue
  exact ⟨h.fits content (List.mem_of_getLast? hlast), (overlays_eq_last_iff hlast).mp hvalue⟩

theorem keyFiles_subset (h : opts = pre ++ post) (hcontent : content ∈ keyFiles sys pre) :
    content ∈ keyFiles sys opts := by
  rw [h, keyFiles, List.filterMap_append]
  exact List.mem_append_left _ hcontent

theorem keyRead_of_fit (hfit : KeysFit sys opts)
    (hcfg : parseCommandLine sys opts cfg₀ = .ok cfg)
    (hfiles : ∀ content ∈ keyFiles sys opts, nul ∉ content) : KeyRead sys opts cfg₀ cfg := by
  have hfits : ∀ content ∈ keyFiles sys opts, content.length < 4096 :=
    fun content hcontent ↦ hfit.length_lt hcontent
  obtain ⟨hholds, hlt⟩ := readKeys_of_fit hfiles hfits
  rw [← jwtKey_eq hcfg] at hholds
  have hkey : ∀ content, (keyFiles sys opts).getLast? = some content →
      overlays [] (keyFiles sys opts) = content :=
    fun content hlast ↦ (overlays_eq_last_iff hlast).mpr (hfit content hlast).2
  have hread : ∀ content, (keyFiles sys opts).getLast? = some content → ∀ behind,
      (cfg.jwtKey.readString behind).value = content := by
    intro content hlast behind
    rw [hholds.value hlt, hkey content hlast]
  refine ⟨hfits, ?_, ?_, hread, ?_⟩
  · intro content hlast
    rw [← hkey content hlast]
    exact hholds.terminated hlt
  · rw [List.forall_mem_cons]
    refine ⟨hholds.within_iff.mpr hlt, fun buf hbuf ↦ ?_⟩
    obtain ⟨pre, post, hopts, rfl⟩ := mem_keyLogs hbuf
    have hsub : ∀ content ∈ keyFiles sys pre, content ∈ keyFiles sys opts :=
      fun content hcontent ↦ keyFiles_subset hopts hcontent
    obtain ⟨hpre, hprelt⟩ := readKeys_of_fit (fun content hmem ↦ hfiles content (hsub content hmem))
      fun content hmem ↦ hfits content (hsub content hmem)
    exact hpre.within_iff.mpr hprelt
  · intro content hlast
    obtain ⟨hparsed, _⟩ := parseCommandLine_parsed hcfg
    have hne := keyLogs_ne_nil hparsed (exists_keyOption (List.mem_of_getLast? hlast))
    have hlog := keyLogs_last hparsed
    rw [List.getLast?_cons_of_ne_nil hne] at hlog
    exact ⟨cfg.jwtKey, hlog, hread content hlast⟩

theorem KeyBuf.Holds.text_eq (h : buf.Holds text) : buf.text = text := by
  have htext : ∀ c ∈ text, decide (c ≠ nul) = true :=
    fun c hc ↦ decide_eq_true (ne_of_mem_of_not_mem hc h.nonzero)
  have hzeros : (List.replicate (4096 - text.length) nul).takeWhile (· ≠ nul) = [] := by
    rw [List.takeWhile_replicate_eq_filter, List.filter_replicate, if_neg (by decide)]
  change buf.bytes.takeWhile (· ≠ nul) = text
  rw [h.bytes, List.takeWhile_append_of_pos htext, hzeros, List.append_nil]

/-- Only empty files leave an empty key. -/
theorem keysFit_of_empty (hfiles : ∀ content ∈ keyFiles sys opts, nul ∉ content)
    (hempty : (opts.foldl (readKey sys) .empty).text = []) : KeysFit sys opts := by
  rw [(readKeys_holds hfiles).text_eq] at hempty
  have hlength : (overlays [] ((keyFiles sys opts).map (List.take 4096))).length ≤ 0 := by
    rw [hempty]
    exact Nat.le_refl 0
  have hnone : ∀ content ∈ keyFiles sys opts, content.length = 0 := by
    intro content hcontent
    have htake := (length_overlays_le_iff.mp hlength).2 _ (List.mem_map_of_mem hcontent)
    rw [List.length_take] at htake
    omega
  intro content hlast
  have hzero := hnone content (List.mem_of_getLast? hlast)
  exact ⟨by omega, fun earlier hearlier ↦ by rw [hnone earlier hearlier]; exact Nat.zero_le _⟩

section Inputs

def pemFiles (fname : CString) : Option (List Char) :=
  if fname = "old.pem".toList then some "AAAA".toList
  else if fname = "new.pem".toList then some "BB".toList
  else if fname = "full.pem".toList then some (List.replicate 4096 'A')
  else none

def pemSetup : Setup := { Token.cjwtSetup with files := pemFiles }

def pemOpts (fnames : List String) : List Opt :=
  ⟨'u', some "https://cloud".toList⟩ :: fnames.map fun fname ↦ ⟨'k', some fname.toList⟩

end Inputs

end Parodus.Config
