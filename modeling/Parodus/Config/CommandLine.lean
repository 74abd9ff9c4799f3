import Parodus.Config.Algorithms

namespace Parodus.Config

/-- The 4096 bytes of `jwt_key`. -/
structure KeyBuf where
  bytes : List Char
  sized : bytes.length = 4096

/-- The empty string, copied in: all bytes are zero. -/
def KeyBuf.empty : KeyBuf := ⟨List.replicate 4096 (Char.ofNat 0), List.length_replicate⟩

/-- `read` stores what it gets at the start of the buffer and no zero behind it. -/
def KeyBuf.read (buf : KeyBuf) (content : List Char) : KeyBuf where
  bytes := content.take 4096 ++ buf.bytes.drop (content.take 4096).length
  sized := by
    have hlength : (content.take 4096).length ≤ 4096 := List.length_take_le _ _
    rw [List.length_append, List.length_drop, buf.sized]
    omega

/-- The string in the buffer, as far as the buffer goes. -/
def KeyBuf.text (buf : KeyBuf) : CString := buf.bytes.takeWhile (· ≠ Char.ofNat 0)

/-- The members of the configuration that the command line sets. -/
structure ParodusCfg where
  hwModel : CharBuf 64
  hwSerialNumber : CharBuf 64
  hwManufacturer : CharBuf 64
  hwMac : CharBuf 64
  hwLastRebootReason : CharBuf 128
  fwName : CharBuf 64
  bootTime : ℕ
  webpaPingTimeout : ℕ
  webpaUrl : CharBuf 124
  webpaBackoffMax : ℕ
  webpaInterfaceUsed : CharBuf 16
  flags : ℕ
  localUrl : CharBuf 124
  partnerId : CharBuf 64
  seshatUrl : CharBuf 128
  dnsTxtUrl : CharBuf 64
  acquireJwt : ℕ
  jwtAlgo : ℕ
  jwtKey : KeyBuf
  certPath : CharBuf 64
  clientCertPath : Option CString
  tokenServerUrl : Option CString
  connectionHealthFile : Option CString
  closeReasonFile : Option CString
  mtlsClientKeyPath : Option CString
  mtlsClientCertPath : Option CString
  crudConfigFile : Option CString
  cloudStatus : Option CString
  cloudDisconnect : Option CString
  bootRetryWait : ℕ

/-- How `parseCommandLine` ends without a configuration: it returns -1, a key file
cannot be read, or an option that needs an argument has none. -/
inductive Exit
  | minusOne
  | abort
  | nullOptarg
  deriving DecidableEq

/-- What is outside of the function: the files, and the build option for Seshat. -/
structure Setup where
  algs : JwtAlgs
  files : CString → Option (List Char)
  enableSeshat : Bool

/-- One result of `getopt_long`: the option's character and `optarg`. -/
structure Opt where
  c : Char
  optarg : Option CString

def ipv6Only : ℕ := 1

def ipv4Only : ℕ := 2

/-- The address without its colons, if it has twelve other characters. -/
def parseMacAddress (arg : CString) : Option (CharBuf 64) :=
  let target := arg.filter (· ≠ ':')
  if h : target.length = 12 then some ⟨target, by omega⟩ else none

/-- A number that the caller looks at: -1 stands for a malformed one. -/
def numArg (arg : CString) (store : ℕ → ParodusCfg) : Except Exit ParodusCfg :=
  let val := parseNumArg arg
  if val = unsignedMinusOne then .error .minusOne else .ok (store val)

/-- The switch on an option that takes an argument. -/
def setOption (sys : Setup) (cfg : ParodusCfg) (c : Char) (arg : CString) :
    Except Exit ParodusCfg :=
  match c with
  | 'm' => .ok { cfg with hwModel := parStrncpy arg }
  | 's' => .ok { cfg with hwSerialNumber := parStrncpy arg }
  | 'f' => .ok { cfg with hwManufacturer := parStrncpy arg }
  | 'd' =>
    match parseMacAddress arg with
    | some mac => .ok { cfg with hwMac := mac }
    | none => .error .minusOne
  | 'e' =>
    if sys.enableSeshat then .ok { cfg with seshatUrl := parStrncpy arg } else .error .minusOne
  | 'r' => .ok { cfg with hwLastRebootReason := parStrncpy arg }
  | 'n' => .ok { cfg with fwName := parStrncpy arg }
  | 'b' => .ok { cfg with bootTime := parseNumArg arg }
  | 'u' =>
    match serverIsHttp (parStrncpy arg : CharBuf 124).text with
    | some _ => .ok { cfg with webpaUrl := parStrncpy arg }
    | none => .error .minusOne
  | 't' => numArg arg fun val ↦ { cfg with webpaPingTimeout := val }
  | 'o' => numArg arg fun val ↦ { cfg with webpaBackoffMax := val }
  | 'i' => .ok { cfg with webpaInterfaceUsed := parStrncpy arg }
  | 'l' => .ok { cfg with localUrl := parStrncpy arg }
  | 'D' => .ok { cfg with dnsTxtUrl := parStrncpy arg }
  | 'j' => numArg arg fun val ↦ { cfg with acquireJwt := val }
  | 'a' =>
    let mask := getAlgoMask sys.algs arg
    if mask = unsignedMinusOne then .error .minusOne else .ok { cfg with jwtAlgo := mask }
  | 'k' =>
    match sys.files arg with
    | some content => .ok { cfg with jwtKey := cfg.jwtKey.read content }
    | none => .error .abort
  | 'p' => .ok { cfg with partnerId := parStrncpy arg }
  | 'c' => .ok { cfg with certPath := parStrncpy arg }
  | 'w' => .ok { cfg with bootRetryWait := parseNumArg arg }
  | 'S' => .ok { cfg with connectionHealthFile := some arg }
  | 'R' => .ok { cfg with closeReasonFile := some arg }
  | 'C' => .ok { cfg with crudConfigFile := some arg }
  | 'P' => .ok { cfg with clientCertPath := some arg }
  | 'U' => .ok { cfg with tokenServerUrl := some arg }
  | 'K' => .ok { cfg with mtlsClientKeyPath := some arg }
  | 'M' => .ok { cfg with mtlsClientCertPath := some arg }
  | _ => .error .minusOne

/-- One turn of the loop over the options. The short form of `M` is declared
without an argument and still uses one. -/
def applyOption (sys : Setup) (cfg : ParodusCfg) (opt : Opt) : Except Exit ParodusCfg :=
  match opt.c with
  | '4' => .ok { cfg with flags := cfg.flags ||| ipv4Only }
  | '6' => .ok { cfg with flags := cfg.flags ||| ipv6Only }
  | '?' => .ok cfg
  | c =>
    match opt.optarg with
    | some arg => setOption sys cfg c arg
    | none => .error .nullOptarg

def resetCfg (cfg : ParodusCfg) : ParodusCfg :=
  { cfg with
    flags := 0
    webpaUrl := .empty
    acquireJwt := 0
    jwtAlgo := 0
    jwtKey := .empty
    crudConfigFile := none
    connectionHealthFile := none
    closeReasonFile := none
    clientCertPath := none
    tokenServerUrl := none
    cloudStatus := none
    cloudDisconnect := none }

/-- The checks behind the loop. -/
def checkCfg (algs : JwtAlgs) (cfg : ParodusCfg) : Except Exit ParodusCfg :=
  if cfg.webpaUrl.text = [] then .error .minusOne
  else if cfg.acquireJwt ≠ 0 ∧ cfg.jwtAlgo = 0 then .error .minusOne
  else if cfg.acquireJwt ≠ 0 ∧ cfg.jwtAlgo &&& rsaAlgorithms algs ≠ 0 ∧ cfg.jwtKey.text = [] then
    .error .minusOne
  else .ok cfg

def parseCommandLine (sys : Setup) (opts : List Opt) (cfg : ParodusCfg) : Except Exit ParodusCfg :=
  match opts.foldlM (applyOption sys) (resetCfg cfg) with
  | .error e => .error e
  | .ok cfg => checkCfg sys.algs cfg

variable {sys : Setup} {opts : List Opt} {cfg cfg' : ParodusCfg} {opt : Opt}

theorem numArg_jwtAlgo {arg : CString} {store : ℕ → ParodusCfg}
    (hstore : ∀ val, (store val).jwtAlgo = cfg.jwtAlgo) (h : numArg arg store = .ok cfg') :
    cfg'.jwtAlgo = cfg.jwtAlgo := by
  by_cases hval : parseNumArg arg = unsignedMinusOne
  · rw [numArg, if_pos hval] at h
    cases h
  · rw [numArg, if_neg hval] at h
    cases h
    exact hstore _

/-- Only `--jwt-algo` changes the allowed algorithms, and only to a mask that is not -1. -/
theorem setOption_jwtAlgo {c : Char} {arg : CString} (h : setOption sys cfg c arg = .ok cfg') :
    (c ≠ 'a' ∧ cfg'.jwtAlgo = cfg.jwtAlgo) ∨
      (c = 'a' ∧ cfg'.jwtAlgo = getAlgoMask sys.algs arg ∧
        getAlgoMask sys.algs arg ≠ unsignedMinusOne) := by
  by_cases hc : c = 'a'
  · subst hc
    change (if getAlgoMask sys.algs arg = unsignedMinusOne then _ else _) = _ at h
    by_cases hmask : getAlgoMask sys.algs arg = unsignedMinusOne
    · rw [if_pos hmask] at h
      cases h
    · rw [if_neg hmask] at h
      cases h
      exact .inr ⟨rfl, rfl, hmask⟩
  · refine .inl ⟨hc, ?_⟩
    unfold setOption at h
    repeat' split at h
    all_goals first
      | refine numArg_jwtAlgo ?_ h; intro val; rfl
      | exact absurd rfl hc
      | cases h; rfl
      | cases h

theorem applyOption_jwtAlgo (h : applyOption sys cfg opt = .ok cfg') :
    (opt.c ≠ 'a' ∧ cfg'.jwtAlgo = cfg.jwtAlgo) ∨
      ∃ arg, opt = ⟨'a', some arg⟩ ∧ cfg'.jwtAlgo = getAlgoMask sys.algs arg ∧
        getAlgoMask sys.algs arg ≠ unsignedMinusOne := by
  obtain ⟨c, optarg⟩ := opt
  unfold applyOption at h
  dsimp only at h
  split at h
  · cases h
    exact .inl ⟨(by decide : '4' ≠ 'a'), rfl⟩
  · cases h
    exact .inl ⟨(by decide : '6' ≠ 'a'), rfl⟩
  · cases h
    exact .inl ⟨(by decide : '?' ≠ 'a'), rfl⟩
  · split at h
    · rename_i arg
      rcases setOption_jwtAlgo h with hsame | ⟨rfl, hmask⟩
      · exact .inl hsame
      · exact .inr ⟨arg, rfl, hmask⟩
    · cases h

theorem applyOptions_jwtAlgo (h : opts.foldlM (applyOption sys) cfg = .ok cfg') :
    cfg'.jwtAlgo = cfg.jwtAlgo ∨ ∃ pre arg post, opts = pre ++ ⟨'a', some arg⟩ :: post ∧
      (∀ opt ∈ post, opt.c ≠ 'a') ∧ cfg'.jwtAlgo = getAlgoMask sys.algs arg ∧
      getAlgoMask sys.algs arg ≠ unsignedMinusOne := by
  suffices hsplit : (cfg'.jwtAlgo = cfg.jwtAlgo ∧ ∀ opt ∈ opts, opt.c ≠ 'a') ∨
      ∃ pre arg post, opts = pre ++ ⟨'a', some arg⟩ :: post ∧ (∀ opt ∈ post, opt.c ≠ 'a') ∧
        cfg'.jwtAlgo = getAlgoMask sys.algs arg ∧ getAlgoMask sys.algs arg ≠ unsignedMinusOne from
    hsplit.imp_left And.left
  induction opts generalizing cfg with
  | nil =>
    cases h
    exact .inl ⟨rfl, List.forall_mem_nil _⟩
  | cons opt opts ih =>
    rw [List.foldlM_cons] at h
    cases hopt : applyOption sys cfg opt with
    | error e =>
      rw [hopt] at h
      cases h
    | ok next =>
      rw [hopt] at h
      rcases ih h with ⟨hsame, hnone⟩ | ⟨pre, arg, post, rfl, hpost, hmask⟩
      · rcases applyOption_jwtAlgo hopt with ⟨hc, hnext⟩ | ⟨arg, rfl, hnext, hmask⟩
        · exact .inl ⟨hsame.trans hnext, List.forall_mem_cons.mpr ⟨hc, hnone⟩⟩
        · exact .inr ⟨[], arg, opts, rfl, hnone, hsame.trans hnext, hmask⟩
      · exact .inr ⟨opt :: pre, arg, post, rfl, hpost, hmask⟩

/-- The checks at the end change nothing of what they accept. -/
theorem checkCfg_eq {algs : JwtAlgs} (h : checkCfg algs cfg = .ok cfg') : cfg' = cfg := by
  unfold checkCfg at h
  repeat' split at h
  all_goals cases h
  rfl

theorem parseCommandLine_parsed (h : parseCommandLine sys opts cfg = .ok cfg') :
    opts.foldlM (applyOption sys) (resetCfg cfg) = .ok cfg' ∧
      checkCfg sys.algs cfg' = .ok cfg' := by
  unfold parseCommandLine at h
  cases hopts : opts.foldlM (applyOption sys) (resetCfg cfg) with
  | error e =>
    rw [hopts] at h
    cases h
  | ok parsed =>
    simp only [hopts] at h
    obtain rfl := checkCfg_eq h
    exact ⟨rfl, h⟩

/-- The mask of an accepted command line is empty, or that of its last `--jwt-algo`. -/
theorem parseCommandLine_jwtAlgo (h : parseCommandLine sys opts cfg = .ok cfg') :
    cfg'.jwtAlgo = 0 ∨ ∃ pre arg post, opts = pre ++ ⟨'a', some arg⟩ :: post ∧
      (∀ opt ∈ post, opt.c ≠ 'a') ∧ cfg'.jwtAlgo = getAlgoMask sys.algs arg ∧
      getAlgoMask sys.algs arg ≠ unsignedMinusOne := by
  exact applyOptions_jwtAlgo (parseCommandLine_parsed h).1

end Parodus.Config
