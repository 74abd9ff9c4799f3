import Parodus.Config.CommandLine
import Parodus.Crud.CJson
import Parodus.Token.Records

namespace Parodus.Token

open Foundation Config

/-- What is used of a decoded token. -/
structure Cjwt where
  alg : ℤ
  privateClaims : Option Json
  expSec : ℤ

def tokenErrMemoryFail : ℤ := -999
def tokenErrQueryDnsFail : ℤ := -101
def tokenErrJwtDecodeFail : ℤ := -102
def tokenErrAlgoNotAllowed : ℤ := -103
def tokenErrInvalidJwtContent : ℤ := -104
def tokenErrNoExpiration : ℤ := -105
def tokenErrJwtExpired : ℤ := -106
def tokenErrBadEndpoint : ℤ := -107
def tokenNoDnsQuery : ℤ := -1

/-- What the calls of one token query yield: the three allocations, the length or
error of the DNS answer, what `ns_initparse` returns, the answer's records, the
decoding of a token under a key, and the time. -/
structure TokenCalls where
  tokenAllocated : Bool
  nsbufAllocated : Bool
  urlAllocated : Bool
  nquery : ℤ
  nsInitparse : ℤ
  msgHandle : NsMsg
  cjwtDecode : CString → CString → Option Cjwt
  curTime : ℤ

/-- An error code, or the token. -/
def queryDns (calls : TokenCalls) : Except ℤ CString :=
  if calls.nsbufAllocated = false then .error tokenErrMemoryFail
  else if calls.nquery < 0 then .error calls.nquery
  else if calls.nsInitparse ≠ 0 then .error calls.nsInitparse
  else
    match assembleJwtFromDns calls.msgHandle with
    | some jwtAns => .ok jwtAns
    | none => .error (-1)

def validateAlgo (algs : JwtAlgs) (jwtAlgo : ℕ) (alg : ℤ) : Bool :=
  if alg < 0 ∨ alg ≥ algs.numAlgorithms then false
  else decide ((1 <<< alg.toNat) &&& jwtAlgo ≠ 0)

/-- `cJSON`'s `valuestring`; it is null beside a value that is no string. -/
def valuestring : Json → Option CString
  | .str s => some s
  | _ => none

/-- An error code, or the endpoint's url, whose scheme is the value returned. The
outer `none` is the use of a null string. -/
def analyzeJwt (calls : TokenCalls) (jwt : Cjwt) : Option (Except ℤ WebpaUrl) :=
  match Crud.getObjectItem jwt.privateClaims "endpoint".toList with
  | none => some (.error tokenErrInvalidJwtContent)
  | some endpoint =>
    if jwt.expSec = 0 then some (.error tokenErrNoExpiration)
    else if jwt.expSec < calls.curTime then some (.error tokenErrJwtExpired)
    else
      (valuestring endpoint.value).map fun url ↦
        match parseWebpaUrl calls.urlAllocated url with
        | none => .error tokenErrBadEndpoint
        | some url => .ok url

/-- The token of the DNS answer, decoded with the configured key, or an error code. -/
def decodedJwt (calls : TokenCalls) (cfg : ParodusCfg) : Except ℤ Cjwt :=
  if calls.tokenAllocated = false then .error tokenErrMemoryFail
  else
    match queryDns calls with
    | .error ret =>
      .error (if ret = tokenErrMemoryFail then ret else tokenErrQueryDnsFail)
    | .ok jwtToken =>
      match calls.cjwtDecode jwtToken cfg.jwtKey.text with
      | none => .error tokenErrJwtDecodeFail
      | some jwt => .ok jwt

/-- The server that the JWT names, or an error code; `featureDnsQuery` is the build option. -/
def allowInsecureConn (algs : JwtAlgs) (featureDnsQuery : Bool) (calls : TokenCalls)
    (cfg : ParodusCfg) : Option (Except ℤ WebpaUrl) :=
  if featureDnsQuery then
    match decodedJwt calls cfg with
    | .error ret => some (.error ret)
    | .ok jwt =>
      if validateAlgo algs cfg.jwtAlgo jwt.alg then analyzeJwt calls jwt
      else some (.error tokenErrAlgoNotAllowed)
  else some (.error tokenNoDnsQuery)

/-- The value that `allow_insecure_conn` returns. -/
def returned : Except ℤ WebpaUrl → ℤ
  | .error ret => ret
  | .ok url => url.allowInsecure

variable {algs : JwtAlgs} {calls : TokenCalls} {cfg : ParodusCfg} {jwt : Cjwt}

theorem validateAlgo_eq_true {jwtAlgo : ℕ} {alg : ℤ} (h : validateAlgo algs jwtAlgo alg = true) :
    ∃ i : ℕ, alg = i ∧ jwtAlgo.testBit i = true := by
  unfold validateAlgo at h
  split at h
  · cases h
  · obtain ⟨i, rfl⟩ := Int.eq_ofNat_of_zero_le (show 0 ≤ alg by omega)
    exact ⟨i, rfl, shiftLeft_and_ne_zero_iff.mp (of_decide_eq_true h)⟩

theorem decodedJwt_error {ret : ℤ} (h : decodedJwt calls cfg = .error ret) : ret < 0 := by
  unfold decodedJwt at h
  split at h
  · cases h
    decide
  · cases hquery : queryDns calls with
    | error code =>
      simp only [hquery] at h
      cases h
      split
      · rename_i hcode
        rw [hcode]
        decide
      · decide
    | ok jwtToken =>
      simp only [hquery] at h
      split at h
      · cases h
        decide
      · cases h

/-- A server is only taken from a decoded token with an allowed algorithm. -/
theorem allowInsecureConn_nonneg {ret : Except ℤ WebpaUrl}
    (h : allowInsecureConn algs true calls cfg = some ret) (hret : 0 ≤ returned ret) :
    ∃ jwt, decodedJwt calls cfg = .ok jwt ∧ validateAlgo algs cfg.jwtAlgo jwt.alg = true := by
  rw [allowInsecureConn, if_pos rfl] at h
  cases hjwt : decodedJwt calls cfg with
  | error code =>
    rw [hjwt] at h
    obtain rfl := Option.some.inj h
    have hneg := decodedJwt_error hjwt
    rw [returned] at hret
    omega
  | ok jwt =>
    simp only [hjwt] at h
    cases halg : validateAlgo algs cfg.jwtAlgo jwt.alg with
    | true => exact ⟨jwt, rfl, halg⟩
    | false =>
      rw [halg, if_neg Bool.false_ne_true] at h
      obtain rfl := Option.some.inj h
      exact absurd hret (by decide)

variable {sys : Setup} {opts : List Opt} {cfg₀ : ParodusCfg}

/-- The servers of JWTs are bound to the RSA algorithms that the last `--jwt-algo`
names, and a list with anything else in it is rejected. -/
theorem jwtAlgo_enforced (hexact : sys.algs.Exact)
    (hcfg : parseCommandLine sys opts cfg₀ = .ok cfg) :
    (∀ featureDnsQuery calls ret, allowInsecureConn sys.algs featureDnsQuery calls cfg = some ret →
      0 ≤ returned ret → ∃ jwt pre arg post, decodedJwt calls cfg = .ok jwt ∧
        opts = pre ++ ⟨'a', some arg⟩ :: post ∧ (∀ opt ∈ post, opt.c ≠ 'a') ∧
        ∃ t ∈ arg.splitOn ':', t ∈ rsaNames ∧ sys.algs.strToEnum t = jwt.alg) ∧
    ∀ algoStr : CString, (∃ t ∈ algoStr.splitOn ':', t ∉ rsaNames) →
      getAlgoMask sys.algs algoStr = unsignedMinusOne := by
  constructor
  · intro featureDnsQuery calls ret hcall hret
    cases featureDnsQuery with
    | false =>
      obtain rfl := Option.some.inj hcall
      exact absurd hret (by decide)
    | true =>
      obtain ⟨jwt, hjwt, halg⟩ := allowInsecureConn_nonneg hcall hret
      obtain ⟨i, hi, hbit⟩ := validateAlgo_eq_true halg
      rcases parseCommandLine_jwtAlgo hcfg with hzero | ⟨pre, arg, post, hopts, hpost, hmask, hne⟩
      · rw [hzero, Nat.zero_testBit] at hbit
        cases hbit
      · rw [hmask] at hbit
        obtain ⟨hnames, hbits⟩ := getAlgoMask_spec hexact hne
        obtain ⟨t, ht, hval⟩ := hbits i hbit
        exact ⟨jwt, pre, arg, post, hjwt, hopts, hpost, t, ht, hnames t ht, hval.trans hi.symm⟩
  · intro algoStr hbad
    obtain ⟨t, ht, hname⟩ := hbad
    by_contra hne
    exact hname ((getAlgoMask_spec hexact hne).1 t ht)

section Inputs

/-- The names that the library knows, in the order of its enumeration. -/
def algNames : List CString :=
  ["none", "ES256", "ES384", "ES512", "HS256", "HS384", "HS512", "PS256", "PS384", "PS512",
    "RS256", "RS384", "RS512"].map String.toList

def cjwtAlgs : JwtAlgs where
  strToEnum s := if s ∈ algNames then algNames.idxOf s else -1
  algNone := 0
  algRs256 := 10
  algRs384 := 11
  algRs512 := 12
  numAlgorithms := 13

def cjwtSetup : Setup := ⟨cjwtAlgs, fun _ ↦ none, false⟩

def blankCfg : ParodusCfg where
  hwModel := .empty
  hwSerialNumber := .empty
  hwManufacturer := .empty
  hwMac := .empty
  hwLastRebootReason := .empty
  fwName := .empty
  bootTime := 0
  webpaPingTimeout := 0
  webpaUrl := .empty
  webpaBackoffMax := 0
  webpaInterfaceUsed := .empty
  flags := 0
  localUrl := .empty
  partnerId := .empty
  seshatUrl := .empty
  dnsTxtUrl := .empty
  acquireJwt := 0
  jwtAlgo := 0
  jwtKey := .empty
  certPath := .empty
  clientCertPath := none
  tokenServerUrl := none
  connectionHealthFile := none
  closeReasonFile := none
  mtlsClientKeyPath := none
  mtlsClientCertPath := none
  crudConfigFile := none
  cloudStatus := some "offline".toList
  cloudDisconnect := none
  bootRetryWait := 0

def jwtOpts : List Opt :=
  [⟨'u', some "https://cloud".toList⟩, ⟨'a', some "RS256:RS512".toList⟩]

/-- A token that is signed with RS512 and names its server. -/
def rs512Calls : TokenCalls where
  tokenAllocated := true
  nsbufAllocated := true
  urlAllocated := true
  nquery := 60
  nsInitparse := 0
  msgHandle := [some ⟨.txt, "$01:e30".toList⟩]
  cjwtDecode _ _ := some ⟨12, some (.obj [("endpoint".toList, .str "http://fabric".toList)]), 100⟩
  curTime := 50

end Inputs

theorem cjwtAlgs_strToEnum {i : ℕ} (hi : i < algNames.length) (s : CString) :
    cjwtAlgs.strToEnum s = i ↔ s = algNames[i] := by
  have hnodup : algNames.Nodup := by
    simp only [algNames, List.map_cons, List.map_nil, String.reduceToList]
    decide
  constructor
  · intro h
    by_cases hs : s ∈ algNames
    · rw [cjwtAlgs] at h
      simp only [if_pos hs, Int.ofNat_inj] at h
      subst h
      exact (List.getElem_idxOf hi).symm
    · rw [cjwtAlgs] at h
      simp only [if_neg hs] at h
      omega
  · rintro rfl
    rw [cjwtAlgs]
    simp only [if_pos (List.getElem_mem hi), hnodup.idxOf_getElem i hi]

theorem cjwtAlgs_exact : cjwtAlgs.Exact :=
  ⟨fun s ↦ cjwtAlgs_strToEnum (i := 10) (by decide) s,
    fun s ↦ cjwtAlgs_strToEnum (i := 11) (by decide) s,
    fun s ↦ cjwtAlgs_strToEnum (i := 12) (by decide) s⟩

theorem jwtAlgo_enforced_rs512 :
    ∃ cfg, parseCommandLine cjwtSetup jwtOpts blankCfg = .ok cfg ∧
      (∃ jwt pre arg post, decodedJwt rs512Calls cfg = .ok jwt ∧
        jwtOpts = pre ++ ⟨'a', some arg⟩ :: post ∧ (∀ opt ∈ post, opt.c ≠ 'a') ∧
        ∃ t ∈ arg.splitOn ':', t ∈ rsaNames ∧ cjwtAlgs.strToEnum t = jwt.alg) ∧
      getAlgoMask cjwtAlgs "RS256:none".toList = unsignedMinusOne := by
  have hcfg : ∃ cfg, parseCommandLine cjwtSetup jwtOpts blankCfg = .ok cfg ∧
      allowInsecureConn cjwtAlgs true rs512Calls cfg = some (.ok ⟨1, "fabric".toList, 80⟩) := by
    refine ⟨{ blankCfg with
      webpaUrl := ⟨"https://cloud".toList, by decide⟩
      jwtAlgo := 5120
      cloudStatus := none }, ?_, ?_⟩
    · simp only [jwtOpts, cjwtSetup, cjwtAlgs, algNames, List.map_cons, List.map_nil,
        String.reduceToList]
      rfl
    · simp only [rs512Calls, String.reduceToList]
      rfl
  obtain ⟨cfg, hcfg, hcall⟩ := hcfg
  have henforced := jwtAlgo_enforced (show cjwtSetup.algs.Exact from cjwtAlgs_exact) hcfg
  refine ⟨cfg, hcfg, henforced.1 true rs512Calls _ hcall (by decide), henforced.2 _ ?_⟩
  refine ⟨"none".toList, ?_, ?_⟩
  · simp only [String.reduceToList]
    decide
  · simp only [rsaNames, String.reduceToList]
    decide

end Parodus.Token
