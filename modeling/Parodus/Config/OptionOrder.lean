import Parodus.Config.CommandLine
import Parodus.Foundation.Commuting
import Parodus.Token.Jwt

namespace Parodus.Config

open Foundation.Commuting

/-- What an option sets: a member of the configuration, one of the two flags, or nothing. -/
inductive Field
  | hwModel | hwSerialNumber | hwManufacturer | hwMac | seshatUrl | hwLastRebootReason | fwName
  | bootTime | webpaUrl | webpaPingTimeout | webpaBackoffMax | webpaInterfaceUsed | localUrl
  | dnsTxtUrl | acquireJwt | jwtAlgo | jwtKey | partnerId | certPath | bootRetryWait
  | connectionHealthFile | closeReasonFile | crudConfigFile | clientCertPath | tokenServerUrl
  | mtlsClientKeyPath | mtlsClientCertPath | ipv4 | ipv6 | ignored
  deriving DecidableEq

namespace Field

def Value : Field → Type
  | hwModel | hwSerialNumber | hwManufacturer | hwMac | fwName | dnsTxtUrl | partnerId
  | certPath => CharBuf 64
  | seshatUrl | hwLastRebootReason => CharBuf 128
  | webpaUrl | localUrl => CharBuf 124
  | webpaInterfaceUsed => CharBuf 16
  | bootTime | webpaPingTimeout | webpaBackoffMax | acquireJwt | jwtAlgo | bootRetryWait => ℕ
  | jwtKey => List Char
  | connectionHealthFile | closeReasonFile | crudConfigFile | clientCertPath | tokenServerUrl
  | mtlsClientKeyPath | mtlsClientCertPath => CString
  | ipv4 | ipv6 | ignored => Unit

def letter : Field → Char
  | hwModel => 'm'
  | hwSerialNumber => 's'
  | hwManufacturer => 'f'
  | hwMac => 'd'
  | seshatUrl => 'e'
  | hwLastRebootReason => 'r'
  | fwName => 'n'
  | bootTime => 'b'
  | webpaUrl => 'u'
  | webpaPingTimeout => 't'
  | webpaBackoffMax => 'o'
  | webpaInterfaceUsed => 'i'
  | localUrl => 'l'
  | dnsTxtUrl => 'D'
  | acquireJwt => 'j'
  | jwtAlgo => 'a'
  | jwtKey => 'k'
  | partnerId => 'p'
  | certPath => 'c'
  | bootRetryWait => 'w'
  | connectionHealthFile => 'S'
  | closeReasonFile => 'R'
  | crudConfigFile => 'C'
  | clientCertPath => 'P'
  | tokenServerUrl => 'U'
  | mtlsClientKeyPath => 'K'
  | mtlsClientCertPath => 'M'
  | ipv4 => '4'
  | ipv6 => '6'
  | ignored => '?'

def put : (f : Field) → f.Value → ParodusCfg → ParodusCfg
  | hwModel, v, cfg => { cfg with hwModel := v }
  | hwSerialNumber, v, cfg => { cfg with hwSerialNumber := v }
  | hwManufacturer, v, cfg => { cfg with hwManufacturer := v }
  | hwMac, v, cfg => { cfg with hwMac := v }
  | seshatUrl, v, cfg => { cfg with seshatUrl := v }
  | hwLastRebootReason, v, cfg => { cfg with hwLastRebootReason := v }
  | fwName, v, cfg => { cfg with fwName := v }
  | bootTime, v, cfg => { cfg with bootTime := v }
  | webpaUrl, v, cfg => { cfg with webpaUrl := v }
  | webpaPingTimeout, v, cfg => { cfg with webpaPingTimeout := v }
  | webpaBackoffMax, v, cfg => { cfg with webpaBackoffMax := v }
  | webpaInterfaceUsed, v, cfg => { cfg with webpaInterfaceUsed := v }
  | localUrl, v, cfg => { cfg with localUrl := v }
  | dnsTxtUrl, v, cfg => { cfg with dnsTxtUrl := v }
  | acquireJwt, v, cfg => { cfg with acquireJwt := v }
  | jwtAlgo, v, cfg => { cfg with jwtAlgo := v }
  | jwtKey, v, cfg => { cfg with jwtKey := cfg.jwtKey.read v }
  | partnerId, v, cfg => { cfg with partnerId := v }
  | certPath, v, cfg => { cfg with certPath := v }
  | bootRetryWait, v, cfg => { cfg with bootRetryWait := v }
  | connectionHealthFile, v, cfg => { cfg with connectionHealthFile := some v }
  | closeReasonFile, v, cfg => { cfg with closeReasonFile := some v }
  | crudConfigFile, v, cfg => { cfg with crudConfigFile := some v }
  | clientCertPath, v, cfg => { cfg with clientCertPath := some v }
  | tokenServerUrl, v, cfg => { cfg with tokenServerUrl := some v }
  | mtlsClientKeyPath, v, cfg => { cfg with mtlsClientKeyPath := some v }
  | mtlsClientCertPath, v, cfg => { cfg with mtlsClientCertPath := some v }
  | ipv4, _, cfg => { cfg with flags := cfg.flags ||| ipv4Only }
  | ipv6, _, cfg => { cfg with flags := cfg.flags ||| ipv6Only }
  | ignored, _, cfg => cfg

theorem flags_comm (m n : ℕ) (cfg : ParodusCfg) :
    ({ cfg with flags := cfg.flags ||| m ||| n } : ParodusCfg) =
      { cfg with flags := cfg.flags ||| n ||| m } := by
  rw [Nat.or_assoc, Nat.or_comm m, ← Nat.or_assoc]

/-- Different members do not touch each other, and the two flags are bits of one. -/
theorem put_comm {f g : Field} (h : f ≠ g) (v : f.Value) (w : g.Value) (cfg : ParodusCfg) :
    put g w (put f v cfg) = put f v (put g w cfg) := by
  cases f <;> cases g <;> first | rfl | exact absurd rfl h | exact flags_comm _ _ cfg

/-- All but the key are written as a whole. -/
theorem put_put {f : Field} (h : f ≠ jwtKey) (v w : f.Value) (cfg : ParodusCfg) :
    put f w (put f v cfg) = put f w cfg := by
  cases f with
  | jwtKey => exact absurd rfl h
  | ipv4 => simp only [put, Nat.or_assoc, Nat.or_self]
  | ipv6 => simp only [put, Nat.or_assoc, Nat.or_self]
  | _ => rfl

theorem letter_injective : Function.Injective letter := by
  intro f g h
  cases f <;> cases g <;> first | rfl | exact absurd h (by decide)

end Field

structure Setting where
  field : Field
  value : field.Value

def Setting.apply (cfg : ParodusCfg) (s : Setting) : ParodusCfg := s.field.put s.value cfg

def numSetting (arg : CString) (store : ℕ → Setting) : Except Exit Setting :=
  let val := parseNumArg arg
  if val = unsignedMinusOne then .error .minusOne else .ok (store val)

/-- What an option with this argument sets does not depend on the configuration. -/
def argSetting (sys : Setup) (c : Char) (arg : CString) : Except Exit Setting :=
  match c with
  | 'm' => .ok ⟨.hwModel, (parStrncpy arg : CharBuf 64)⟩
  | 's' => .ok ⟨.hwSerialNumber, (parStrncpy arg : CharBuf 64)⟩
  | 'f' => .ok ⟨.hwManufacturer, (parStrncpy arg : CharBuf 64)⟩
  | 'd' =>
    match parseMacAddress arg with
    | some mac => .ok ⟨.hwMac, mac⟩
    | none => .error .minusOne
  | 'e' =>
    if sys.enableSeshat then .ok ⟨.seshatUrl, (parStrncpy arg : CharBuf 128)⟩
    else .error .minusOne
  | 'r' => .ok ⟨.hwLastRebootReason, (parStrncpy arg : CharBuf 128)⟩
  | 'n' => .ok ⟨.fwName, (parStrncpy arg : CharBuf 64)⟩
  | 'b' => .ok ⟨.bootTime, parseNumArg arg⟩
  | 'u' =>
    match serverIsHttp (parStrncpy arg : CharBuf 124).text with
    | some _ => .ok ⟨.webpaUrl, (parStrncpy arg : CharBuf 124)⟩
    | none => .error .minusOne
  | 't' => numSetting arg fun val ↦ ⟨.webpaPingTimeout, val⟩
  | 'o' => numSetting arg fun val ↦ ⟨.webpaBackoffMax, val⟩
  | 'i' => .ok ⟨.webpaInterfaceUsed, (parStrncpy arg : CharBuf 16)⟩
  | 'l' => .ok ⟨.localUrl, (parStrncpy arg : CharBuf 124)⟩
  | 'D' => .ok ⟨.dnsTxtUrl, (parStrncpy arg : CharBuf 64)⟩
  | 'j' => numSetting arg fun val ↦ ⟨.acquireJwt, val⟩
  | 'a' =>
    let mask := getAlgoMask sys.algs arg
    if mask = unsignedMinusOne then .error .minusOne else .ok ⟨.jwtAlgo, mask⟩
  | 'k' =>
    match sys.files arg with
    | some content => .ok ⟨.jwtKey, content⟩
    | none => .error .abort
  | 'p' => .ok ⟨.partnerId, (parStrncpy arg : CharBuf 64)⟩
  | 'c' => .ok ⟨.certPath, (parStrncpy arg : CharBuf 64)⟩
  | 'w' => .ok ⟨.bootRetryWait, parseNumArg arg⟩
  | 'S' => .ok ⟨.connectionHealthFile, arg⟩
  | 'R' => .ok ⟨.closeReasonFile, arg⟩
  | 'C' => .ok ⟨.crudConfigFile, arg⟩
  | 'P' => .ok ⟨.clientCertPath, arg⟩
  | 'U' => .ok ⟨.tokenServerUrl, arg⟩
  | 'K' => .ok ⟨.mtlsClientKeyPath, arg⟩
  | 'M' => .ok ⟨.mtlsClientCertPath, arg⟩
  | _ => .error .minusOne

def setting (sys : Setup) (opt : Opt) : Except Exit Setting :=
  match opt.c with
  | '4' => .ok ⟨.ipv4, ()⟩
  | '6' => .ok ⟨.ipv6, ()⟩
  | '?' => .ok ⟨.ignored, ()⟩
  | c =>
    match opt.optarg with
    | some arg => argSetting sys c arg
    | none => .error .nullOptarg

variable {sys : Setup} {opts opts' : List Opt} {cfg cfg' : ParodusCfg} {opt : Opt} {s : Setting}

theorem numArg_eq (arg : CString) {store : ℕ → ParodusCfg} {store' : ℕ → Setting}
    (h : ∀ val, store val = (store' val).apply cfg) :
    numArg arg store = (numSetting arg store').map (Setting.apply cfg) := by
  unfold numArg numSetting
  dsimp only
  split
  · rfl
  · exact congrArg Except.ok (h _)

theorem setOption_eq (sys : Setup) (cfg : ParodusCfg) (c : Char) (arg : CString) :
    setOption sys cfg c arg = (argSetting sys c arg).map (Setting.apply cfg) := by
  unfold setOption
  split
  all_goals first
    | rfl
    | exact numArg_eq arg fun _ ↦ rfl
    | (try dsimp only
       split <;> rename_i h <;> simp only [argSetting, h] <;> rfl)
    | (unfold argSetting; split <;> first | rfl | contradiction)

theorem applyOption_eq (sys : Setup) (cfg : ParodusCfg) (opt : Opt) :
    applyOption sys cfg opt = (setting sys opt).map (Setting.apply cfg) := by
  obtain ⟨c, optarg⟩ := opt
  unfold applyOption
  dsimp only
  split
  · rfl
  · rfl
  · rfl
  · cases optarg with
    | none =>
      unfold setting
      dsimp only
      split <;> first | rfl | contradiction
    | some arg =>
      unfold setting
      dsimp only
      split <;> first | exact setOption_eq sys cfg c arg | contradiction

theorem numSetting_ok {arg : CString} {store : ℕ → Setting} (h : numSetting arg store = .ok s) :
    ∃ val, s = store val := by
  unfold numSetting at h
  dsimp only at h
  split at h
  · cases h
  · exact ⟨_, (Except.ok.inj h).symm⟩

theorem argSetting_letter {c : Char} {arg : CString} (h : argSetting sys c arg = .ok s) :
    s.field.letter = c := by
  unfold argSetting at h
  dsimp only at h
  repeat' split at h
  all_goals first
    | (obtain ⟨_, rfl⟩ := numSetting_ok h; rfl)
    | (cases h; rfl)
    | cases h

theorem setting_letter (h : setting sys opt = .ok s) : s.field.letter = opt.c := by
  obtain ⟨c, optarg⟩ := opt
  unfold setting at h
  dsimp only at h
  split at h
  · cases h
    rfl
  · cases h
    rfl
  · cases h
    rfl
  · split at h
    · exact argSetting_letter h
    · cases h

def toSetting (sys : Setup) (opt : Opt) : Setting :=
  match setting sys opt with
  | .ok s => s
  | .error _ => ⟨.ignored, ()⟩

/-- The option can be read: its argument, or the file it names, is accepted. -/
def Readable (sys : Setup) (opt : Opt) : Prop := ∃ s, setting sys opt = .ok s

def optionsOf (c : Char) (opts : List Opt) : List Opt := opts.filter fun opt ↦ opt.c = c

theorem Readable.toSetting (h : Readable sys opt) : setting sys opt = .ok (toSetting sys opt) := by
  obtain ⟨s, hs⟩ := h
  unfold Config.toSetting
  rw [hs]

theorem applyOption_of_readable (h : Readable sys opt) (cfg : ParodusCfg) :
    applyOption sys cfg opt = .ok ((toSetting sys opt).apply cfg) := by
  rw [applyOption_eq, h.toSetting]
  rfl

theorem readable_of_applyOption (h : applyOption sys cfg opt = .ok cfg') : Readable sys opt := by
  rw [applyOption_eq] at h
  cases hs : setting sys opt with
  | ok s => exact ⟨s, hs⟩
  | error e =>
    rw [hs] at h
    cases h

theorem foldlM_of_readable (h : ∀ opt ∈ opts, Readable sys opt) (cfg : ParodusCfg) :
    opts.foldlM (applyOption sys) cfg =
      .ok ((opts.map (toSetting sys)).foldl Setting.apply cfg) := by
  induction opts generalizing cfg with
  | nil => rfl
  | cons opt opts ih =>
    obtain ⟨hopt, hopts⟩ := List.forall_mem_cons.mp h
    rw [List.foldlM_cons, applyOption_of_readable hopt]
    exact ih hopts _

theorem readable_of_foldlM (h : opts.foldlM (applyOption sys) cfg = .ok cfg') :
    ∀ opt ∈ opts, Readable sys opt := by
  induction opts generalizing cfg with
  | nil => exact List.forall_mem_nil _
  | cons opt opts ih =>
    rw [List.foldlM_cons] at h
    cases hopt : applyOption sys cfg opt with
    | error e =>
      rw [hopt] at h
      cases h
    | ok next =>
      rw [hopt] at h
      exact List.forall_mem_cons.mpr ⟨readable_of_applyOption hopt, ih h⟩

theorem apply_commutes : Commutes Setting.apply Setting.field :=
  fun cfg s s' h ↦ Field.put_comm h s.value s'.value cfg

theorem apply_overrides : Overrides Setting.apply Setting.field (· ≠ Field.jwtKey) := by
  intro cfg s s' hkey hsame
  obtain ⟨f, v⟩ := s
  obtain ⟨g, w⟩ := s'
  obtain rfl : f = g := hsame
  exact Field.put_put (of_decide_eq_true hkey) v w cfg

/-- The settings of a member are those of the options of its letter. -/
theorem ofKey_settings (h : ∀ opt ∈ opts, Readable sys opt) (f : Field) :
    ofKey Setting.field f (opts.map (toSetting sys)) =
      (optionsOf f.letter opts).map (toSetting sys) := by
  rw [ofKey, List.filter_map, optionsOf]
  congr 1
  apply List.filter_congr
  intro opt hopt
  have hletter := setting_letter (h opt hopt).toSetting
  apply decide_eq_decide.mpr
  constructor
  · intro hfield
    rw [← hletter]
    exact congrArg Field.letter hfield
  · intro hc
    exact Field.letter_injective (hletter.trans hc)

/-- The order of options of different kinds does not matter, and of an option that is given more
than once only the last counts, the key file apart: a command line of the same options, in which
the last of each kind is the same and the key files are read in the same order, is accepted with
the same configuration. -/
theorem parseCommandLine_of_last (h : parseCommandLine sys opts cfg = .ok cfg')
    (hsub : ∀ opt ∈ opts', opt ∈ opts)
    (hlast : ∀ c, c ≠ 'k' → (optionsOf c opts').getLast? = (optionsOf c opts).getLast?)
    (hkeys : optionsOf 'k' opts' = optionsOf 'k' opts) :
    parseCommandLine sys opts' cfg = .ok cfg' := by
  obtain ⟨hfold, hcheck⟩ := parseCommandLine_parsed h
  have hread := readable_of_foldlM hfold
  have hread' : ∀ opt ∈ opts', Readable sys opt := fun opt hopt ↦ hread opt (hsub opt hopt)
  have hsame : (opts'.map (toSetting sys)).foldl Setting.apply (resetCfg cfg) =
      (opts.map (toSetting sys)).foldl Setting.apply (resetCfg cfg) := by
    apply apply_overrides.foldl_eq apply_commutes
    · intro f hf
      have hletter : f.letter ≠ 'k' := by
        intro hk
        exact of_decide_eq_true hf (Field.letter_injective hk)
      rw [ofKey_settings hread', ofKey_settings hread, List.getLast?_map, List.getLast?_map,
        hlast f.letter hletter]
    · intro f hf
      obtain rfl : f = .jwtKey := by simpa using hf
      rw [ofKey_settings hread', ofKey_settings hread]
      exact congrArg _ hkeys
  rw [foldlM_of_readable hread] at hfold
  obtain rfl := Except.ok.inj hfold
  rw [parseCommandLine, foldlM_of_readable hread', hsame]
  exact hcheck

section Inputs

/-- The ping timeout is given twice. -/
def repeatedOpts : List Opt :=
  [⟨'t', some "30".toList⟩, ⟨'u', some "https://cloud".toList⟩, ⟨'4', none⟩,
    ⟨'t', some "60".toList⟩]

def shortOpts : List Opt :=
  [⟨'4', none⟩, ⟨'t', some "60".toList⟩, ⟨'u', some "https://cloud".toList⟩]

end Inputs

theorem parseCommandLine_of_last_repeated :
    parseCommandLine Token.cjwtSetup shortOpts Token.blankCfg =
      .ok { Token.blankCfg with
        webpaPingTimeout := 60
        webpaUrl := ⟨"https://cloud".toList, by decide⟩
        flags := 2
        cloudStatus := none } := by
  have haccepted : parseCommandLine Token.cjwtSetup repeatedOpts Token.blankCfg =
      .ok { Token.blankCfg with
        webpaPingTimeout := 60
        webpaUrl := ⟨"https://cloud".toList, by decide⟩
        flags := 2
        cloudStatus := none } := by
    simp only [repeatedOpts, String.reduceToList]
    rfl
  refine parseCommandLine_of_last haccepted ?_ ?_ rfl
  · intro opt hopt
    simp only [shortOpts, repeatedOpts, List.mem_cons, List.not_mem_nil, or_false] at hopt ⊢
    rcases hopt with rfl | rfl | rfl
    · exact .inr (.inr (.inl rfl))
    · exact .inr (.inr (.inr rfl))
    · exact .inr (.inl rfl)
  · intro c _
    by_cases ht : 't' = c
    · subst ht
      rfl
    by_cases hu : 'u' = c
    · subst hu
      rfl
    by_cases h4 : '4' = c
    · subst h4
      rfl
    · simp [optionsOf, shortOpts, repeatedOpts, ht, hu, h4]

end Parodus.Config
