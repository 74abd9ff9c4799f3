import Parodus.Config.UrlForm
import Parodus.Foundation.Folds
import Parodus.Token.Jwt

namespace Parodus.Config

open Foundation.Folds

/-- The options that take a number. -/
inductive NumOption
  | bootTime
  | webpaPingTimeout
  | webpaBackoffMax
  | acquireJwt
  | bootRetryWait

namespace NumOption

def c : NumOption → Char
  | bootTime => 'b'
  | webpaPingTimeout => 't'
  | webpaBackoffMax => 'o'
  | acquireJwt => 'j'
  | bootRetryWait => 'w'

def stored : NumOption → ParodusCfg → ℕ
  | bootTime => ParodusCfg.bootTime
  | webpaPingTimeout => ParodusCfg.webpaPingTimeout
  | webpaBackoffMax => ParodusCfg.webpaBackoffMax
  | acquireJwt => ParodusCfg.acquireJwt
  | bootRetryWait => ParodusCfg.bootRetryWait

end NumOption

/-- A decimal number that 32 bits can hold. -/
structure IsNumber (arg : CString) : Prop where
  nonempty : arg ≠ []
  numeric : ∀ c ∈ arg, isDigit c = true
  fits : Nat.ofDigitChars 10 arg 0 < 4294967296

/-- The arguments that an option is given, in their order. -/
def arguments (c : Char) (opts : List Opt) : List CString :=
  opts.filterMap fun opt ↦ if opt.c = c then opt.optarg else none

/-- What `parseCommandLine` returns, if it does. -/
def parseReturn : Except Exit ParodusCfg → Option ℤ
  | .ok _ => some 0
  | .error .minusOne => some (-1)
  | .error _ => none

structure NumbersRight (sys : Setup) (opts : List Opt) (cfg₀ : ParodusCfg) : Prop where
  numeric : ∀ cfg, parseCommandLine sys opts cfg₀ = .ok cfg → ∀ num : NumOption,
    ∀ arg ∈ arguments num.c opts, arg ≠ [] ∧ ∀ c ∈ arg, isDigit c = true
  stored : ∀ cfg, parseCommandLine sys opts cfg₀ = .ok cfg → ∀ num : NumOption, ∀ arg,
    (arguments num.c opts).getLast? = some arg → num.stored cfg = Nat.ofDigitChars 10 arg 0
  refused : ∀ num : NumOption, ∀ arg ∈ arguments num.c opts, ¬ IsNumber arg →
    ∀ ret, parseReturn (parseCommandLine sys opts cfg₀) = some ret → ret = -1

/-- The arguments that the switch refuses. -/
def ArgRefused (sys : Setup) (c : Char) (arg : CString) : Prop :=
  match c with
  | 'd' => parseMacAddress arg = none
  | 'e' => sys.enableSeshat = false
  | 'u' => serverIsHttp (parStrncpy arg : CharBuf 124).text = none
  | 't' | 'o' | 'j' => parseNumArg arg = unsignedMinusOne
  | 'a' => getAlgoMask sys.algs arg = unsignedMinusOne
  | 'k' => sys.files arg = none
  | c => c ∉ "msfrnbilDpcwSRCPUKM".toList

def OptRefused (sys : Setup) (opt : Opt) : Prop :=
  opt.c ∉ "46?".toList ∧ ∀ arg, opt.optarg = some arg → ArgRefused sys opt.c arg

/-- The key that the options leave in the buffer. -/
def readKey (sys : Setup) (buf : KeyBuf) (opt : Opt) : KeyBuf :=
  if opt.c = 'k' then ((opt.optarg.bind sys.files).map buf.read).getD buf else buf

/-- The value of the last argument of an option, or one from before. -/
def lastValue {τ : Type} (c : Char) (f : CString → τ) (opts : List Opt) (x : τ) : τ :=
  ((arguments c opts).getLast?.map f).getD x

/-- What the checks behind the loop ask of the options. -/
structure Complete (sys : Setup) (opts : List Opt) : Prop where
  webpaUrl : (lastValue 'u' parStrncpy opts .empty : CharBuf 124).text ≠ []
  jwtAlgo : lastValue 'j' parseNumArg opts 0 ≠ 0 → lastValue 'a' (getAlgoMask sys.algs) opts 0 ≠ 0
  jwtKey : lastValue 'j' parseNumArg opts 0 ≠ 0 →
    lastValue 'a' (getAlgoMask sys.algs) opts 0 &&& rsaAlgorithms sys.algs ≠ 0 →
      (opts.foldl (readKey sys) .empty).text ≠ []

variable {sys : Setup} {opts : List Opt} {cfg cfg' : ParodusCfg} {opt : Opt} {c : Char}
  {arg : CString}

theorem numArg_ok_iff {store : ℕ → ParodusCfg} :
    (∃ cfg', numArg arg store = .ok cfg') ↔ parseNumArg arg ≠ unsignedMinusOne := by
  by_cases hval : parseNumArg arg = unsignedMinusOne
  · rw [numArg, if_pos hval]
    refine iff_of_false ?_ (not_not_intro hval)
    rintro ⟨_, h⟩
    cases h
  · rw [numArg, if_neg hval]
    exact iff_of_true ⟨_, rfl⟩ hval

theorem setOption_ok_iff (sys : Setup) (cfg : ParodusCfg) (c : Char) (arg : CString) :
    (∃ cfg', setOption sys cfg c arg = .ok cfg') ↔ ¬ ArgRefused sys c arg := by
  unfold setOption
  split
  case h_4 =>
    cases hmac : parseMacAddress arg <;> simp [ArgRefused, hmac]
  case h_5 =>
    cases hseshat : sys.enableSeshat <;> simp [ArgRefused, hseshat]
  case h_9 =>
    cases hurl : serverIsHttp (parStrncpy arg : CharBuf 124).text <;> simp [ArgRefused, hurl]
  case h_10 | h_11 | h_15 => exact numArg_ok_iff
  case h_16 =>
    by_cases hmask : getAlgoMask sys.algs arg = unsignedMinusOne <;> simp [ArgRefused, hmask]
  case h_17 =>
    cases hfile : sys.files arg <;> simp [ArgRefused, hfile]
  case h_28 =>
    refine iff_of_false ?_ (not_not_intro ?_)
    · rintro ⟨_, h⟩
      cases h
    · unfold ArgRefused
      split
      all_goals simp_all
  all_goals exact iff_of_true ⟨_, rfl⟩ (by simp [ArgRefused])

theorem applyOption_ok_iff (sys : Setup) (cfg : ParodusCfg) (opt : Opt) :
    (∃ cfg', applyOption sys cfg opt = .ok cfg') ↔ ¬ OptRefused sys opt := by
  obtain ⟨c, optarg⟩ := opt
  unfold applyOption
  dsimp only
  split
  case h_4 hfour hsix hother =>
    have hc : c ∉ "46?".toList := by simpa using ⟨hfour, hsix, hother⟩
    cases optarg with
    | none =>
      refine iff_of_false ?_ (not_not_intro ⟨hc, nofun⟩)
      rintro ⟨_, h⟩
      cases h
    | some arg =>
      rw [OptRefused, and_iff_right hc]
      simpa using setOption_ok_iff sys cfg c arg
  all_goals exact iff_of_true ⟨_, rfl⟩ (by simp [OptRefused])

/-- What a turn of the loop does to the members that the checks and the numbers are about. -/
structure Applied (sys : Setup) (opt : Opt) (cfg cfg' : ParodusCfg) : Prop where
  number : ∀ num : NumOption, num.stored cfg' =
    (if opt.c = num.c then opt.optarg.map parseNumArg else none).getD (num.stored cfg)
  webpaUrl : cfg'.webpaUrl =
    (if opt.c = 'u' then opt.optarg.map parStrncpy else none).getD cfg.webpaUrl
  jwtAlgo : cfg'.jwtAlgo =
    (if opt.c = 'a' then opt.optarg.map (getAlgoMask sys.algs) else none).getD cfg.jwtAlgo
  jwtKey : cfg'.jwtKey = readKey sys cfg.jwtKey opt

theorem numArg_eq_ok {store : ℕ → ParodusCfg} (h : numArg arg store = .ok cfg') :
    cfg' = store (parseNumArg arg) := by
  by_cases hval : parseNumArg arg = unsignedMinusOne
  · rw [numArg, if_pos hval] at h
    cases h
  · rw [numArg, if_neg hval] at h
    exact (Except.ok.inj h).symm

theorem setOption_applied (h : setOption sys cfg c arg = .ok cfg') :
    Applied sys ⟨c, some arg⟩ cfg cfg' := by
  unfold setOption at h
  split at h
  case h_10 | h_11 | h_15 =>
    rw [numArg_eq_ok h]
    exact ⟨fun num ↦ by cases num <;> rfl, rfl, rfl, rfl⟩
  case h_4 | h_5 | h_9 =>
    split at h
    all_goals
      cases h
      try exact ⟨fun num ↦ by cases num <;> rfl, rfl, rfl, rfl⟩
  case h_16 =>
    obtain ⟨_, h⟩ : getAlgoMask sys.algs arg ≠ unsignedMinusOne ∧
        { cfg with jwtAlgo := getAlgoMask sys.algs arg } = cfg' := by
      by_cases hmask : getAlgoMask sys.algs arg = unsignedMinusOne
      · rw [if_pos hmask] at h
        cases h
      · rw [if_neg hmask] at h
        exact ⟨hmask, Except.ok.inj h⟩
    cases h
    exact ⟨fun num ↦ by cases num <;> rfl, rfl, rfl, rfl⟩
  case h_17 =>
    cases hfile : sys.files arg with
    | none =>
      rw [hfile] at h
      cases h
    | some content =>
      rw [hfile] at h
      cases h
      have hkey : readKey sys cfg.jwtKey ⟨'k', some arg⟩ = cfg.jwtKey.read content := by
        rw [readKey, if_pos rfl, Option.bind_some, hfile]
        rfl
      exact ⟨fun num ↦ by cases num <;> rfl, rfl, rfl, hkey.symm⟩
  case h_28 => cases h
  all_goals
    cases h
    exact ⟨fun num ↦ by cases num <;> rfl, rfl, rfl, rfl⟩

theorem applyOption_applied (h : applyOption sys cfg opt = .ok cfg') :
    Applied sys opt cfg cfg' := by
  obtain ⟨c, optarg⟩ := opt
  unfold applyOption at h
  dsimp only at h
  split at h
  case h_4 =>
    cases optarg with
    | none => cases h
    | some arg => exact setOption_applied h
  all_goals
    cases h
    exact ⟨fun num ↦ by cases num <;> rfl, rfl, rfl, rfl⟩

theorem foldl_lastValue {τ : Type} (c : Char) (f : CString → τ) (opts : List Opt) (x : τ) :
    opts.foldl (fun x opt ↦ (if opt.c = c then opt.optarg.map f else none).getD x) x =
      lastValue c f opts x := by
  rw [foldl_getD, lastValue, arguments, ← List.getLast?_map, List.map_filterMap]
  congr 2
  refine congrArg (List.filterMap · opts) (funext fun opt ↦ ?_)
  split
  · rfl
  · rfl

/-- What the loop over the options leaves. -/
structure AppliedAll (sys : Setup) (opts : List Opt) (cfg cfg' : ParodusCfg) : Prop where
  number : ∀ num : NumOption,
    num.stored cfg' = lastValue num.c parseNumArg opts (num.stored cfg)
  webpaUrl : cfg'.webpaUrl = lastValue 'u' parStrncpy opts cfg.webpaUrl
  jwtAlgo : cfg'.jwtAlgo = lastValue 'a' (getAlgoMask sys.algs) opts cfg.jwtAlgo
  jwtKey : cfg'.jwtKey = opts.foldl (readKey sys) cfg.jwtKey

theorem applyOptions_applied (h : opts.foldlM (applyOption sys) cfg = .ok cfg') :
    AppliedAll sys opts cfg cfg' where
  number num := by
    rw [← foldl_lastValue]
    apply proj_foldlM _ h
    intro _ _ _ hopt
    exact (applyOption_applied hopt).number num
  webpaUrl := by
    rw [← foldl_lastValue]
    apply proj_foldlM _ h
    intro _ _ _ hopt
    exact (applyOption_applied hopt).webpaUrl
  jwtAlgo := by
    rw [← foldl_lastValue]
    apply proj_foldlM _ h
    intro _ _ _ hopt
    exact (applyOption_applied hopt).jwtAlgo
  jwtKey := by
    apply proj_foldlM _ h
    intro _ _ _ hopt
    exact (applyOption_applied hopt).jwtKey

theorem checkCfg_ok_iff {algs : JwtAlgs} : checkCfg algs cfg = .ok cfg' ↔
    cfg.webpaUrl.text ≠ [] ∧ (cfg.acquireJwt ≠ 0 → cfg.jwtAlgo ≠ 0) ∧
      (cfg.acquireJwt ≠ 0 → cfg.jwtAlgo &&& rsaAlgorithms algs ≠ 0 → cfg.jwtKey.text ≠ []) ∧
      cfg = cfg' := by
  unfold checkCfg
  by_cases hurl : cfg.webpaUrl.text = []
  · rw [if_pos hurl]
    exact iff_of_false nofun fun h ↦ h.1 hurl
  rw [if_neg hurl, and_iff_right hurl]
  by_cases halgo : cfg.acquireJwt ≠ 0 ∧ cfg.jwtAlgo = 0
  · rw [if_pos halgo]
    exact iff_of_false nofun fun h ↦ h.1 halgo.1 halgo.2
  rw [if_neg halgo, and_iff_right (not_and.mp halgo)]
  by_cases hkey : cfg.acquireJwt ≠ 0 ∧ cfg.jwtAlgo &&& rsaAlgorithms algs ≠ 0 ∧
      cfg.jwtKey.text = []
  · rw [if_pos hkey]
    exact iff_of_false nofun fun h ↦ h.1 hkey.1 hkey.2.1 hkey.2.2
  rw [if_neg hkey, Except.ok.injEq, iff_and_self]
  exact fun _ hacquire hrsa hempty ↦ hkey ⟨hacquire, hrsa, hempty⟩

theorem parseCommandLine_ok (h : parseCommandLine sys opts cfg = .ok cfg') :
    AppliedAll sys opts (resetCfg cfg) cfg' ∧ checkCfg sys.algs cfg' = .ok cfg' := by
  obtain ⟨hparsed, hcheck⟩ := parseCommandLine_parsed h
  exact ⟨applyOptions_applied hparsed, hcheck⟩

/-- A command line is accepted if none of its options is refused and none is missing. -/
theorem parseCommandLine_ok_iff (sys : Setup) (opts : List Opt) (cfg : ParodusCfg) :
    (∃ cfg', parseCommandLine sys opts cfg = .ok cfg') ↔
      (∀ opt ∈ opts, ¬ OptRefused sys opt) ∧ Complete sys opts := by
  rw [← foldlM_ok_iff (applyOption_ok_iff sys) (resetCfg cfg)]
  unfold parseCommandLine
  cases hopts : opts.foldlM (applyOption sys) (resetCfg cfg) with
  | error e =>
    refine iff_of_false ?_ ?_
    · rintro ⟨_, h⟩
      cases h
    · rintro ⟨⟨_, h⟩, _⟩
      cases h
  | ok parsed =>
    have happlied := applyOptions_applied hopts
    have hacquire : parsed.acquireJwt = lastValue 'j' parseNumArg opts 0 :=
      happlied.number .acquireJwt
    have hurl : parsed.webpaUrl = lastValue 'u' parStrncpy opts .empty := happlied.webpaUrl
    have halgo : parsed.jwtAlgo = lastValue 'a' (getAlgoMask sys.algs) opts 0 := happlied.jwtAlgo
    have hkey : parsed.jwtKey = opts.foldl (readKey sys) .empty := happlied.jwtKey
    rw [and_iff_right ⟨parsed, rfl⟩]
    simp only [checkCfg_ok_iff, hurl, hacquire, halgo, hkey]
    constructor
    · rintro ⟨_, hurl, halgo, hkey, _⟩
      exact ⟨hurl, halgo, hkey⟩
    · intro h
      exact ⟨parsed, h.webpaUrl, h.jwtAlgo, h.jwtKey, rfl⟩

theorem lastValue_of_getLast? {τ : Type} {f : CString → τ} {x : τ}
    (h : (arguments c opts).getLast? = some arg) : lastValue c f opts x = f arg := by
  rw [lastValue, h]
  rfl

theorem parseCommandLine_stored (h : parseCommandLine sys opts cfg = .ok cfg') (num : NumOption)
    (hlast : (arguments num.c opts).getLast? = some arg) :
    num.stored cfg' = parseNumArg arg := by
  rw [(parseCommandLine_ok h).1.number num]
  exact lastValue_of_getLast? hlast

theorem parseDigits_eq_mod {digits : CString} {result : ℕ}
    (hdigits : ∀ c ∈ digits, isDigit c = true) :
    parseDigits (result % 4294967296) digits =
      Nat.ofDigitChars 10 digits result % 4294967296 := by
  induction digits generalizing result with
  | nil => rw [Nat.ofDigitChars_nil, parseDigits]
  | cons c digits ih =>
    obtain ⟨hc, hrest⟩ := List.forall_mem_cons.mp hdigits
    have hlow : 48 ≤ c.toNat := (toNat_of_isDigit hc).1
    have hstep : (result % 4294967296 * 10 + c.toNat - '0'.toNat) % 4294967296 =
        (10 * result + (c.toNat - '0'.toNat)) % 4294967296 := by
      change (result % 4294967296 * 10 + c.toNat - 48) % 4294967296 =
        (10 * result + (c.toNat - 48)) % 4294967296
      omega
    rw [parseDigits, if_pos hc, hstep, Nat.ofDigitChars_cons]
    exact ih hrest

/-- The digits are counted in 32 bits. -/
theorem parseNumArg_eq_mod (hne : arg ≠ []) (hdigits : ∀ c ∈ arg, isDigit c = true) :
    parseNumArg arg = Nat.ofDigitChars 10 arg 0 % 4294967296 := by
  have hmod := @parseDigits_eq_mod arg 0 hdigits
  rwa [parseNumArg, if_neg hne]

theorem IsNumber.parseNumArg_eq (h : IsNumber arg) :
    parseNumArg arg = Nat.ofDigitChars 10 arg 0 := by
  rw [parseNumArg_eq_mod h.nonempty h.numeric]
  exact Nat.mod_eq_of_lt h.fits

def boottimeOpts : List Opt :=
  [⟨'u', some "https://cloud".toList⟩, ⟨'b', some "12x".toList⟩]

end Parodus.Config
