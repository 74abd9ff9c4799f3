import Mathlib.Algebra.Order.Ring.Nat
import Parodus.Config.Numbers
import Parodus.Connection.Machine

namespace Parodus.Connection

open Config

/-- `backoff_timer_t`, without the times at which the health file is updated. -/
structure BackoffTimer where
  count : ℤ
  maxCount : ℤ
  delay : ℤ
  deriving DecidableEq

/-- A result of `int` arithmetic; one that does not fit is undefined. -/
def asInt (z : ℤ) : Option ℤ := if -2147483648 ≤ z ∧ z ≤ 2147483647 then some z else none

def initBackoffTimer (maxCount : ℤ) : BackoffTimer := ⟨1, maxCount, 1⟩

/-- The delay is returned as an `unsigned`. -/
def updateBackoffDelay (timer : BackoffTimer) : Option (ℕ × BackoffTimer) :=
  if timer.count < timer.maxCount then do
    let count ← asInt (timer.count + 1)
    let doubled ← asInt (timer.delay + timer.delay)
    let delay ← asInt (doubled + 1)
    some ((delay % 4294967296).toNat, ⟨count, timer.maxCount, delay⟩)
  else some ((timer.delay % 4294967296).toNat, timer)

def nanosPerSec : ℤ := 1000000000

/-- The sum, with one carry. -/
def addTimespec (t1 t2 : Timespec) : Timespec :=
  if t2.nsec + t1.nsec ≥ nanosPerSec then
    ⟨t2.sec + t1.sec + 1, t2.nsec + t1.nsec - nanosPerSec⟩
  else ⟨t2.sec + t1.sec, t2.nsec + t1.nsec⟩

def calcRandomSecs (randomNum maxSecs : ℕ) : ℕ :=
  if randomNum &&& maxSecs < 3 then (randomNum &&& maxSecs) + 3 else randomNum &&& maxSecs

def calcRandomNsecs (randomNum : ℕ) : ℕ :=
  if randomNum >>> 1 < 1000000000 then randomNum >>> 1 else (randomNum >>> 1) - 1000000000

/-- The expire time, and the timer. -/
def calcRandomExpiration (randomNum1 randomNum2 : ℕ) (timer : BackoffTimer) (ts : Timespec) :
    Option (Timespec × BackoffTimer) :=
  (updateBackoffDelay timer).map fun updated ↦
    let tsDelay : Timespec :=
      if updated.1 > 3 then ⟨calcRandomSecs randomNum1 updated.1, calcRandomNsecs randomNum2⟩
      else ⟨3, 0⟩
    (addTimespec tsDelay ts, updated.2)

/-- The delays that the next calls return, and the timer behind them. -/
def callDelays : ℕ → BackoffTimer → Option (List ℕ × BackoffTimer)
  | 0, timer => some ([], timer)
  | n + 1, timer =>
    (callDelays n timer).bind fun called ↦
      (updateBackoffDelay called.2).map fun updated ↦ (called.1 ++ [updated.1], updated.2)

/-- The delay that the n-th call is to return. -/
def binaryDelay (backoffMax n : ℕ) : ℕ :=
  if backoffMax = 0 then 1 else 2 ^ (1 + min n (backoffMax - 1)) - 1

/-- None of the calls overflows, and the delays are the binary ones and never shrink. -/
def DelaysRight (backoffMax n : ℕ) : Prop :=
  ∃ delays timer, callDelays n (initBackoffTimer (toInt backoffMax)) = some (delays, timer) ∧
    delays = (List.range n).map (fun i ↦ binaryDelay backoffMax (i + 1)) ∧
    delays.Pairwise (· ≤ ·)

/-- The timer after that many doublings. -/
def doubledTimer (maxCount : ℤ) (n : ℕ) : BackoffTimer := ⟨1 + n, maxCount, 2 ^ (n + 1) - 1⟩

/-- How often the delay is doubled. -/
def doublings (maxCount : ℤ) : ℕ := (maxCount - 1).toNat

variable {maxCount : ℤ} {timer : BackoffTimer} {n m backoffMax : ℕ}

theorem binaryDelay_eq (backoffMax n : ℕ) :
    binaryDelay backoffMax n = 2 ^ (1 + min n (backoffMax - 1)) - 1 := by
  unfold binaryDelay
  split
  · rename_i hzero
    rw [hzero, Nat.zero_sub, Nat.min_zero]
    rfl
  · rfl

theorem binaryDelay_mono (h : n ≤ m) : binaryDelay backoffMax n ≤ binaryDelay backoffMax m := by
  rw [binaryDelay_eq, binaryDelay_eq]
  apply Nat.sub_le_sub_right
  exact Nat.pow_le_pow_right (by decide) (by omega)

theorem asInt_of_fits {z : ℤ} (hlow : -2147483648 ≤ z) (hhigh : z ≤ 2147483647) :
    asInt z = some z := if_pos ⟨hlow, hhigh⟩

theorem one_le_two_pow (n : ℕ) : (1 : ℤ) ≤ 2 ^ n := by
  exact_mod_cast Nat.one_le_two_pow

theorem two_pow_le {n : ℕ} (h : n ≤ 31) : (2 : ℤ) ^ n ≤ 2147483648 := by
  have hpow : 2 ^ n ≤ 2 ^ 31 := Nat.pow_le_pow_right (by decide) h
  exact_mod_cast hpow

/-- A delay that fits is returned as it is. -/
theorem unsigned_delay {n : ℕ} (h : n ≤ 31) :
    (((2 : ℤ) ^ n - 1) % 4294967296).toNat = 2 ^ n - 1 := by
  have hlow := one_le_two_pow n
  have hhigh := two_pow_le h
  rw [Int.emod_eq_of_lt (by omega) (by omega)]
  have hcast : ((2 ^ n : ℕ) : ℤ) = 2 ^ n := by push_cast; rfl
  omega

theorem updateBackoffDelay_doubles (hcount : 1 + (n : ℤ) < maxCount) (hfits : n ≤ 29) :
    updateBackoffDelay (doubledTimer maxCount n) =
      some (2 ^ (n + 2) - 1, doubledTimer maxCount (n + 1)) := by
  have hlow := one_le_two_pow (n + 1)
  have hhigh : (2 : ℤ) ^ (n + 2) ≤ 2147483648 := two_pow_le (by omega)
  have hpow : (2 : ℤ) ^ (n + 2) = 2 ^ (n + 1) + 2 ^ (n + 1) := by
    rw [pow_succ, mul_two]
  have hnext : (1 : ℤ) + ↑(n + 1) = 1 + n + 1 := by omega
  rw [updateBackoffDelay, doubledTimer, if_pos hcount, doubledTimer, hnext, hpow]
  dsimp only
  have hreturn : (((2 : ℤ) ^ (n + 1) + 2 ^ (n + 1) - 1) % 4294967296).toNat = 2 ^ (n + 2) - 1 := by
    rw [← hpow]
    exact unsigned_delay (by omega)
  have hdelay : (2 : ℤ) ^ (n + 1) - 1 + (2 ^ (n + 1) - 1) + 1 = 2 ^ (n + 1) + 2 ^ (n + 1) - 1 := by
    omega
  have hcount' : asInt (1 + (n : ℤ) + 1) = some (1 + n + 1 : ℤ) :=
    asInt_of_fits (by omega) (by omega)
  rw [hcount', asInt_of_fits (by omega) (by omega)]
  simp only [Option.bind_eq_bind, Option.bind_some]
  rw [asInt_of_fits (by omega) (by omega), hdelay, Option.bind_some, hreturn]

/-- The doubling behind 2 ^ 31 - 1 overflows. -/
theorem updateBackoffDelay_overflows (hcount : 31 < maxCount) :
    updateBackoffDelay (doubledTimer maxCount 30) = none := by
  have hless : (doubledTimer maxCount 30).count < (doubledTimer maxCount 30).maxCount := by
    change 1 + ((30 : ℕ) : ℤ) < maxCount
    omega
  rw [updateBackoffDelay, if_pos hless]
  rfl

theorem updateBackoffDelay_full (hcount : ¬ 1 + (n : ℤ) < maxCount) (hfits : n ≤ 30) :
    updateBackoffDelay (doubledTimer maxCount n) =
      some (2 ^ (n + 1) - 1, doubledTimer maxCount n) := by
  have hreturn := @unsigned_delay (n + 1) (by omega)
  rw [updateBackoffDelay, doubledTimer, if_neg hcount]
  dsimp only
  rw [hreturn]

theorem callDelays_eq (maxCount : ℤ) (n : ℕ) (hfits : min n (doublings maxCount) ≤ 30) :
    callDelays n (initBackoffTimer maxCount) =
      some ((List.range n).map fun i ↦ 2 ^ (1 + min (i + 1) (doublings maxCount)) - 1,
        doubledTimer maxCount (min n (doublings maxCount))) := by
  induction n with
  | zero => rfl
  | succ n ih =>
    rw [callDelays, ih (by omega), List.range_succ, List.map_append]
    dsimp only [Option.bind_some]
    by_cases hless : n < doublings maxCount
    · have hcount : 1 + (n : ℤ) < maxCount := by
        unfold doublings at hless
        omega
      rw [Nat.min_eq_left (Nat.le_of_lt hless), updateBackoffDelay_doubles hcount (by omega),
        Nat.min_eq_left hless]
      rw [List.map_singleton, Nat.min_eq_left hless, Nat.add_comm 1]
      rfl
    · have hcount : ¬ 1 + (doublings maxCount : ℤ) < maxCount := by
        unfold doublings
        omega
      rw [Nat.min_eq_right (Nat.le_of_not_lt hless), updateBackoffDelay_full hcount (by omega),
        Nat.min_eq_right (by omega)]
      rw [List.map_singleton, Nat.min_eq_right (by omega), Nat.add_comm 1]
      rfl

theorem callDelays_none_of_le (h : callDelays n timer = none) (hle : n ≤ m) :
    callDelays m timer = none := by
  induction m, hle using Nat.le_induction with
  | base => exact h
  | succ m _ ih => rw [callDelays, ih, Option.bind_none]

/-- With a higher count the 31st call overflows. -/
theorem callDelays_overflows (hcount : 31 < maxCount) (hmany : 31 ≤ n) :
    callDelays n (initBackoffTimer maxCount) = none := by
  refine callDelays_none_of_le ?_ hmany
  have hdoublings : 30 < doublings maxCount := by
    unfold doublings
    omega
  rw [callDelays, callDelays_eq maxCount 30 (by omega), Nat.min_eq_left (Nat.le_of_lt hdoublings)]
  rw [Option.bind_some, updateBackoffDelay_overflows hcount]
  rfl

theorem callDelays_binary (hmax : backoffMax < 2147483648)
    (hfits : min n (backoffMax - 1) ≤ 30) :
    ∃ timer, callDelays n (initBackoffTimer (toInt backoffMax)) =
      some ((List.range n).map (fun i ↦ binaryDelay backoffMax (i + 1)), timer) := by
  have hcount : toInt backoffMax = backoffMax := Int.bmod_eq_of_le (by omega) (by omega)
  have hdoublings : doublings backoffMax = backoffMax - 1 := by
    unfold doublings
    omega
  have hcalled := callDelays_eq backoffMax n (hdoublings ▸ hfits)
  simp only [binaryDelay_eq]
  rw [hcount]
  rw [hdoublings] at hcalled
  exact ⟨_, hcalled⟩

theorem pairwise_binaryDelay (backoffMax n : ℕ) :
    ((List.range n).map fun i ↦ binaryDelay backoffMax (i + 1)).Pairwise (· ≤ ·) := by
  rw [List.pairwise_map]
  exact List.pairwise_le_range.imp fun hle ↦ binaryDelay_mono (Nat.succ_le_succ hle)

theorem delaysRight_of_fits (hmax : backoffMax < 2147483648)
    (hfits : min n (backoffMax - 1) ≤ 30) : DelaysRight backoffMax n := by
  obtain ⟨timer, hcalled⟩ := callDelays_binary hmax hfits
  exact ⟨_, timer, hcalled, rfl, pairwise_binaryDelay backoffMax n⟩

theorem delaysRight_zero (backoffMax : ℕ) : DelaysRight backoffMax 0 :=
  ⟨[], _, rfl, rfl, .nil⟩

/-- A count that `int` cannot hold is negative, and the delay stays where it is. -/
theorem not_delaysRight_of_negative (hlow : 2147483648 ≤ backoffMax)
    (hhigh : backoffMax < 4294967296) (hn : n ≠ 0) : ¬ DelaysRight backoffMax n := by
  have hcount : toInt backoffMax < 0 := by
    have hcast : toInt backoffMax = (backoffMax : ℤ) - (4294967296 : ℕ) := by
      unfold toInt
      rw [← Int.sub_bmod_right]
      apply Int.bmod_eq_of_le
      · omega
      · omega
    omega
  have hdoublings : doublings (toInt backoffMax) = 0 := by
    unfold doublings
    omega
  rintro ⟨delays, timer, hcalled, hdelays, _⟩
  rw [callDelays_eq _ n (by omega), hdoublings] at hcalled
  obtain ⟨rfl, _⟩ := Prod.mk.inj (Option.some.inj hcalled)
  have hfirst := (List.map_inj_left.mp hdelays) 0 (List.mem_range.mpr (Nat.pos_of_ne_zero hn))
  rw [Nat.min_zero, binaryDelay_eq, Nat.zero_add, Nat.min_eq_left (by omega)] at hfirst
  exact absurd hfirst (by decide)

theorem parseDigits_lt {digits : CString} {result : ℕ} (h : result < 4294967296) :
    parseDigits result digits < 4294967296 := by
  induction digits generalizing result with
  | nil => exact h
  | cons c digits ih =>
    unfold parseDigits
    split
    · exact ih (Nat.mod_lt _ (by decide))
    · decide

theorem parseNumArg_lt (arg : CString) : parseNumArg arg < 4294967296 := by
  unfold parseNumArg
  split
  · decide
  · exact parseDigits_lt (by decide)

/-- Behind the command line the delays are right up to a maximum of 31, and with a higher one
that `int` can hold for 30 calls. -/
theorem delaysRight_iff {sys : Setup} {opts : List Opt} {cfg₀ cfg : ParodusCfg}
    (haccepted : parseCommandLine sys opts cfg₀ = .ok cfg)
    (hgiven : arguments 'o' opts ≠ []) (n : ℕ) :
    DelaysRight cfg.webpaBackoffMax n ↔
      n = 0 ∨ cfg.webpaBackoffMax ≤ 31 ∨ (cfg.webpaBackoffMax < 2147483648 ∧ n ≤ 30) := by
  have hmax : cfg.webpaBackoffMax < 4294967296 := by
    have hstored := parseCommandLine_stored haccepted .webpaBackoffMax
      (List.getLast?_eq_getLast_of_ne_nil hgiven)
    change cfg.webpaBackoffMax = _ at hstored
    rw [hstored]
    exact parseNumArg_lt _
  constructor
  · intro h
    by_contra hnot
    obtain ⟨hn, hhigh⟩ := not_or.mp hnot
    by_cases hint : cfg.webpaBackoffMax < 2147483648
    · obtain ⟨delays, timer, hcalled, _⟩ := h
      have hcount : toInt cfg.webpaBackoffMax = cfg.webpaBackoffMax :=
        Int.bmod_eq_of_le (by omega) (by omega)
      rw [callDelays_overflows (by omega) (by omega)] at hcalled
      cases hcalled
    · exact not_delaysRight_of_negative (by omega) hmax hn h
  · rintro (rfl | hsmall | ⟨hint, hn⟩)
    · exact delaysRight_zero _
    · exact delaysRight_of_fits (by omega) (by omega)
    · exact delaysRight_of_fits hint (by omega)

def backoffOpts (max : CString) : List Opt :=
  [⟨'u', some "https://cloud".toList⟩, ⟨'o', some max⟩]

/-- The command line takes a maximum of 32. -/
theorem backoffOpts_not_delaysRight :
    ∃ cfg, parseCommandLine Token.cjwtSetup (backoffOpts "32".toList) Token.blankCfg = .ok cfg ∧
      ¬ DelaysRight cfg.webpaBackoffMax 31 := by
  refine ⟨{ Token.blankCfg with
    webpaUrl := ⟨"https://cloud".toList, by decide⟩
    webpaBackoffMax := 32
    cloudStatus := none }, ?_, ?_⟩
  · simp only [backoffOpts, String.reduceToList]
    rfl
  · rintro ⟨delays, timer, hcalled, _⟩
    rw [callDelays_overflows (by decide) (by decide)] at hcalled
    cases hcalled

theorem delaysRight_iff_nine :
    ∃ cfg, parseCommandLine Token.cjwtSetup (backoffOpts "9".toList) Token.blankCfg = .ok cfg ∧
      DelaysRight cfg.webpaBackoffMax 100 := by
  have haccepted : ∃ cfg,
      parseCommandLine Token.cjwtSetup (backoffOpts "9".toList) Token.blankCfg = .ok cfg ∧
        cfg.webpaBackoffMax = 9 := by
    refine ⟨{ Token.blankCfg with
      webpaUrl := ⟨"https://cloud".toList, by decide⟩
      webpaBackoffMax := 9
      cloudStatus := none }, ?_, rfl⟩
    simp only [backoffOpts, String.reduceToList]
    rfl
  obtain ⟨cfg, hcfg, hnine⟩ := haccepted
  exact ⟨cfg, hcfg, (delaysRight_iff hcfg (List.cons_ne_nil _ _) 100).mpr (.inr (.inl (by omega)))⟩

/-- The nanoseconds are below a second. -/
def Timespec.Normalised (ts : Timespec) : Prop := 0 ≤ ts.nsec ∧ ts.nsec < nanosPerSec

def Timespec.nanos (ts : Timespec) : ℤ := ts.sec * nanosPerSec + ts.nsec

theorem addTimespec_nanos (t1 t2 : Timespec) : (addTimespec t1 t2).nanos = t2.nanos + t1.nanos := by
  unfold addTimespec
  split
  · simp only [Timespec.nanos, nanosPerSec]
    omega
  · simp only [Timespec.nanos, nanosPerSec]
    omega

/-- One carry is enough. -/
theorem addTimespec_normalised {t1 t2 : Timespec} (h1 : t1.Normalised) (h2 : t2.Normalised) :
    (addTimespec t1 t2).Normalised := by
  obtain ⟨hlow1, hhigh1⟩ := h1
  obtain ⟨hlow2, hhigh2⟩ := h2
  unfold addTimespec
  split
  · constructor
    · dsimp only
      omega
    · dsimp only
      omega
  · constructor
    · dsimp only
      omega
    · dsimp only
      omega

theorem three_le_calcRandomSecs (randomNum maxSecs : ℕ) : 3 ≤ calcRandomSecs randomNum maxSecs := by
  unfold calcRandomSecs
  split
  · omega
  · omega

theorem calcRandomSecs_le {maxSecs : ℕ} (randomNum : ℕ) (h : 5 ≤ maxSecs) :
    calcRandomSecs randomNum maxSecs ≤ maxSecs := by
  unfold calcRandomSecs
  split
  · omega
  · exact Nat.and_le_right

theorem calcRandomNsecs_lt {randomNum : ℕ} (h : randomNum < 2147483648) :
    calcRandomNsecs randomNum < 1000000000 := by
  have hhalf : randomNum >>> 1 < 1073741824 := by
    rw [Nat.shiftRight_eq_div_pow]
    omega
  unfold calcRandomNsecs
  split
  · assumption
  · omega

theorem updateBackoffDelay_of_reached {delays : List ℕ} (hmax : maxCount ≤ 31)
    (hreached : callDelays n (initBackoffTimer maxCount) = some (delays, timer)) :
    ∃ k, updateBackoffDelay timer = some (2 ^ (k + 1) - 1, doubledTimer maxCount k) := by
  have hdoublings : doublings maxCount ≤ 30 := by
    unfold doublings
    omega
  rw [callDelays_eq maxCount n (by omega)] at hreached
  obtain ⟨_, rfl⟩ := Prod.mk.inj (Option.some.inj hreached)
  by_cases hcount : 1 + (min n (doublings maxCount) : ℕ) < maxCount
  · exact ⟨_, updateBackoffDelay_doubles hcount (by omega)⟩
  · exact ⟨_, updateBackoffDelay_full hcount (by omega)⟩

/-- A maximum delay over three is at least seven. -/
theorem five_le_of_three_lt {k : ℕ} (h : 3 < 2 ^ (k + 1) - 1) : 5 ≤ 2 ^ (k + 1) - 1 := by
  have hk : 2 ≤ k := by
    by_contra hless
    have hpow : 2 ^ (k + 1) ≤ 2 ^ 2 := Nat.pow_le_pow_right (by decide) (by omega)
    omega
  have hpow : 2 ^ 3 ≤ 2 ^ (k + 1) := Nat.pow_le_pow_right (by decide) (by omega)
  omega

/-- Between three seconds and the maximum delay and a second are added. -/
theorem calcRandomExpiration_adds {delays : List ℕ} {randomNum1 randomNum2 : ℕ} {ts : Timespec}
    (hmax : maxCount ≤ 31)
    (hreached : callDelays n (initBackoffTimer maxCount) = some (delays, timer))
    (hrandom2 : randomNum2 < 2147483648) (hts : ts.Normalised) :
    ∃ maxSecs timer' ts', updateBackoffDelay timer = some (maxSecs, timer') ∧
      calcRandomExpiration randomNum1 randomNum2 timer ts = some (ts', timer') ∧
      ts'.Normalised ∧ ∃ d, ts'.nanos = ts.nanos + d ∧ 3 * nanosPerSec ≤ d ∧
        d < (max 3 (maxSecs : ℤ) + 1) * nanosPerSec := by
  obtain ⟨k, hupdated⟩ := updateBackoffDelay_of_reached hmax hreached
  have hexpiration : calcRandomExpiration randomNum1 randomNum2 timer ts =
      some (addTimespec (if 2 ^ (k + 1) - 1 > 3 then
        ⟨calcRandomSecs randomNum1 (2 ^ (k + 1) - 1), calcRandomNsecs randomNum2⟩ else ⟨3, 0⟩) ts,
        doubledTimer maxCount k) := by
    rw [calcRandomExpiration, hupdated]
    rfl
  refine ⟨_, _, _, hupdated, hexpiration, ?_, _, addTimespec_nanos _ _, ?_⟩
  · apply addTimespec_normalised _ hts
    split
    · exact ⟨Int.natCast_nonneg _, Int.ofNat_lt.mpr (calcRandomNsecs_lt hrandom2)⟩
    · exact ⟨by decide, by decide⟩
  · split
    case isTrue hlong =>
      have hsecs := three_le_calcRandomSecs randomNum1 (2 ^ (k + 1) - 1)
      have hmost := calcRandomSecs_le randomNum1 (five_le_of_three_lt hlong)
      have hnsecs := calcRandomNsecs_lt hrandom2
      dsimp only [Timespec.nanos, nanosPerSec]
      omega
    case isFalse =>
      dsimp only [Timespec.nanos, nanosPerSec]
      omega

theorem calcRandomExpiration_adds_second :
    ∃ maxSecs timer' ts',
      updateBackoffDelay (doubledTimer 5 1) = some (maxSecs, timer') ∧
      calcRandomExpiration 15 1073741824 (doubledTimer 5 1) ⟨0, 999999999⟩ = some (ts', timer') ∧
      ts'.Normalised ∧ ∃ d, ts'.nanos = Timespec.nanos ⟨0, 999999999⟩ + d ∧
        3 * nanosPerSec ≤ d ∧ d < (max 3 (maxSecs : ℤ) + 1) * nanosPerSec :=
  @calcRandomExpiration_adds 5 (doubledTimer 5 1) 1 [3] 15 1073741824 ⟨0, 999999999⟩
    (by decide) rfl (by decide) ⟨by decide, by decide⟩

end Parodus.Connection
