import Parodus.Connection.Steps

namespace Parodus.Connection

open Foundation.Runs

/-- How long a wait of the loop took, and its part behind the last ping in it, in
nanoseconds. -/
structure Wait where
  whole : ℕ
  behindPing : ℕ
  le : behindPing ≤ whole

/-- A step of the process, with the time that really passes if it is a wait of the loop. -/
abbrev Timed := Action × Wait

/-- The time waited since the last reset of the timer. -/
def observeWaited (s : State) (a : Timed) (waited : ℕ) : ℕ :=
  match a.1 with
  | .main calls =>
    if s.pc = .loopWait then if calls.pinged then a.2.behindPing else waited + a.2.whole
    else if s.pc = .handlers ∨ s.pc = .pingMissReset then 0
    else waited
  | _ => waited

def TimedStep (dep : Deployment) (s : State) (a : Timed) (t : State) : Prop := Step dep s a.1 t

def TimedOut (dep : Deployment) (waited : ℕ) : Prop :=
  dep.cfg.webpaPingTimeout * 1000000000 ≤ waited

def MissInTime (dep : Deployment) (x : State × ℕ) : Prop :=
  x.1.pc = .pingMissReason → TimedOut dep x.2

def Fits (dep : Deployment) : Prop := 1000 * dep.cfg.webpaPingTimeout < 4294967296

/-- The milliseconds that the timer will have counted, in its 32 bits, are not more than was
waited. -/
def CountsTrue (dep : Deployment) (timer : ℕ) (timeMs : ℤ) (waited : ℕ) : Prop :=
  TimedOut dep waited ∨ (timer + timeMs) % 4294967296 * 1000000 ≤ (waited : ℤ)

/-- In each wait that the timer counts, the readings of the clock since its last reset add up to
no more than was waited. -/
def ClockTrue (dep : Deployment) (x : State × ℕ) (a : Timed) : Prop :=
  ∀ calls, a.1 = .main calls → x.1.pc = .loopWait →
    let timer := if calls.pinged then 0 else x.1.heartBeatTimer
    timer < webpaPingTimeoutMs dep →
      CountsTrue dep timer (timeTakenMs calls.waitStart calls.waitStop) (observeWaited x.1 a x.2)

def Pc.toAdd : Pc → Option ℤ
  | .loopListener timeMs | .loopListenerSet timeMs | .heartBeat timeMs => some timeMs
  | _ => none

def Pc.misses : Pc → Bool
  | .pingMiss | .pingMissReason => true
  | _ => false

structure Timely (dep : Deployment) (s : State) (waited : ℕ) : Prop where
  timer : TimedOut dep waited ∨ s.heartBeatTimer * 1000000 ≤ waited
  toAdd : ∀ timeMs, s.pc.toAdd = some timeMs →
    s.heartBeatTimer < webpaPingTimeoutMs dep → CountsTrue dep s.heartBeatTimer timeMs waited
  misses : s.pc.misses = true → TimedOut dep waited

variable {dep : Deployment} {calls : Calls} {s t : State} {waited : ℕ}

theorem Timely.missInTime (hs : Timely dep s waited) : MissInTime dep (s, waited) := by
  intro hpc
  have hpc : s.pc = .pingMissReason := hpc
  exact hs.misses (by rw [hpc]; rfl)

theorem timely_init (dep : Deployment) : Timely dep init 0 where
  timer := .inr (Nat.le_refl 0)
  toAdd _ h := by cases h
  misses h := by cases h

/-- Where the timer, or what the loop is about to do with it, changes. -/
def Pc.clocks : Pc → Bool
  | .loopWait | .loopListener _ | .loopListenerSet _ | .heartBeat _ => true
  | .pingMiss | .pingMissReset | .handlers => true
  | _ => false

structure Unclocked (s t : State) : Prop where
  timer : t.heartBeatTimer = s.heartBeatTimer
  toAdd : t.pc.toAdd = none
  misses : t.pc.misses = false

theorem mainStep_unclocked (h : s.pc.clocks = false) : Unclocked s (mainStep dep calls s) := by
  unfold mainStep
  cases hpc : s.pc
  case loopWait | loopListener | loopListenerSet | heartBeat | pingMiss | pingMissReset
    | handlers =>
    rw [hpc] at h
    cases h
  case enter =>
    dsimp only
    obtain ⟨_, heq⟩ | ⟨_, _, heq⟩ | ⟨_, rtn, serverList, _, heq⟩ := enterStep_cases dep calls s
    all_goals
      rw [heq]
      constructor
    all_goals first | rfl | (dsimp only; split <;> rfl)
  case gaveUp =>
    dsimp only
    obtain ⟨_, heq⟩ | heq | ⟨_, _, rtn, serverList, _, heq⟩ := gaveUpStep_cases dep calls s
    all_goals
      rw [heq]
      exact ⟨rfl, rfl, rfl⟩
  case connect ipv6 =>
    dsimp only
    obtain ⟨_, heq⟩ | ⟨_, heq⟩ | ⟨_, globals, sigterm, timer, _, heq⟩ :=
      nopollConnect_cases calls s ipv6
    all_goals
      rw [heq]
      exact ⟨rfl, rfl, rfl⟩
  case wait ipv6 =>
    dsimp only
    obtain ⟨_, heq⟩ | ⟨_, rtn, heq⟩ | ⟨_, redirect, _, _, heq⟩ | ⟨url, redirect, _, _, heq⟩ :=
      waitConnectionReady_cases calls s ipv6
    all_goals
      rw [heq]
      exact ⟨rfl, rfl, rfl⟩
  case close k =>
    dsimp only [closeStep]
    repeat' split
    all_goals cases k <;> exact ⟨rfl, rfl, rfl⟩
  case release k => cases k <;> exact ⟨rfl, rfl, rfl⟩
  case downTest caller | downWait caller =>
    dsimp only
    cases caller
    all_goals
      split
      all_goals exact ⟨rfl, rfl, rfl⟩
  all_goals
    dsimp only [judgedStep, listenerStep, listenerSetStep]
    repeat' split
    all_goals first
      | exact ⟨rfl, rfl, rfl⟩
      | exact ⟨rfl, by simp [Pc.toAdd, hpc], by simp [Pc.misses, hpc]⟩

theorem TimedOut.mono {waited' : ℕ} (h : TimedOut dep waited) (hle : waited ≤ waited') :
    TimedOut dep waited' := Nat.le_trans h hle

theorem Timely.same (hs : Timely dep s waited) (htimer : t.heartBeatTimer = s.heartBeatTimer)
    (htoAdd : ∀ timeMs, t.pc.toAdd = some timeMs → s.pc.toAdd = some timeMs)
    (hmisses : t.pc.misses = true → s.pc.misses = true) : Timely dep t waited where
  timer := by
    rw [htimer]
    exact hs.timer
  toAdd timeMs h := by
    rw [htimer]
    exact hs.toAdd timeMs (htoAdd timeMs h)
  misses h := hs.misses (hmisses h)

theorem Timely.unclocked (hs : Timely dep s waited) (h : Unclocked s t) : Timely dep t waited := by
  refine hs.same h.timer ?_ ?_
  · intro timeMs hadd
    rw [h.toAdd] at hadd
    cases hadd
  · intro hmiss
    rw [h.misses] at hmiss
    cases hmiss

theorem timely_reset (htimer : t.heartBeatTimer = 0) (htoAdd : t.pc.toAdd = none)
    (hmisses : t.pc.misses = false) : Timely dep t 0 where
  timer := .inr (by rw [htimer])
  toAdd timeMs h := by
    rw [htoAdd] at h
    cases h
  misses h := by
    rw [hmisses] at h
    cases h

section MainStep

variable {timeMs : ℤ} {wait : Wait}

theorem Timely.loopWait (hs : Timely dep s waited) (hpc : s.pc = .loopWait)
    (hok : ClockTrue dep (s, waited) (.main calls, wait)) :
    Timely dep (mainStep dep calls s) (observeWaited s (.main calls, wait) waited) := by
  have hcounts := hok calls rfl hpc
  simp only [observeWaited, if_pos hpc] at hcounts ⊢
  simp only [mainStep, hpc, loopWaitStep]
  have htoAdd : ∀ ms, (if calls.closedByPeer
      then Pc.loopListener (timeTakenMs calls.waitStart calls.waitStop)
      else .heartBeat (timeTakenMs calls.waitStart calls.waitStop)).toAdd = some ms →
        ms = timeTakenMs calls.waitStart calls.waitStop := by
    intro ms h
    split at h
    · exact (Option.some.inj h).symm
    · exact (Option.some.inj h).symm
  have hmisses : (if calls.closedByPeer
      then Pc.loopListener (timeTakenMs calls.waitStart calls.waitStop)
      else .heartBeat (timeTakenMs calls.waitStart calls.waitStop)).misses = false := by
    split
    · rfl
    · rfl
  by_cases hpinged : calls.pinged = true
  · simp only [if_pos hpinged] at hcounts ⊢
    constructor
    · right
      dsimp only [State.goto]
      omega
    · intro ms h
      obtain rfl := htoAdd ms h
      exact hcounts
    · exact fun h ↦ absurd (hmisses.symm.trans h) Bool.false_ne_true
  · simp only [if_neg hpinged] at hcounts ⊢
    constructor
    · have hle : waited ≤ waited + wait.whole := Nat.le_add_right waited wait.whole
      exact hs.timer.imp (TimedOut.mono · hle) (Nat.le_trans · hle)
    · intro ms h
      obtain rfl := htoAdd ms h
      exact hcounts
    · exact fun h ↦ absurd (hmisses.symm.trans h) Bool.false_ne_true

theorem webpaPingTimeoutMs_eq_iff :
    webpaPingTimeoutMs dep = 1000 * dep.cfg.webpaPingTimeout ↔ Fits dep :=
  Nat.mod_eq_iff_lt (by decide)

theorem timedOut_of_timer {timer : ℕ} (h : 1000 * dep.cfg.webpaPingTimeout ≤ timer)
    (hle : timer * 1000000 ≤ waited) : TimedOut dep waited := by
  calc
    dep.cfg.webpaPingTimeout * (1000 * 1000000) = 1000 * dep.cfg.webpaPingTimeout * 1000000 := by
      rw [Nat.mul_comm 1000 dep.cfg.webpaPingTimeout, Nat.mul_assoc]
    _ ≤ timer * 1000000 := Nat.mul_le_mul_right 1000000 h
    _ ≤ waited := hle

/-- What is added to the timer is unsigned, as the timer is. -/
theorem increment_cast (timer : ℕ) (timeMs : ℤ) :
    (((timer + (timeMs % 4294967296).toNat) % 4294967296 : ℕ) : ℤ) =
      (timer + timeMs) % 4294967296 := by omega

theorem Timely.heartBeat (hs : Timely dep s waited) (hfits : Fits dep)
    (hpc : s.pc = .heartBeat timeMs) : Timely dep (mainStep dep calls s) waited := by
  have hcounts := hs.toAdd timeMs (by rw [hpc]; rfl)
  simp only [mainStep, hpc, heartBeatStep]
  by_cases htimeout : s.heartBeatTimer ≥ webpaPingTimeoutMs dep
  · rw [if_pos htimeout]
    have htimedOut : TimedOut dep waited := by
      obtain h | h := hs.timer
      · exact h
      · rw [webpaPingTimeoutMs_eq_iff.mpr hfits] at htimeout
        exact timedOut_of_timer htimeout h
    exact ⟨.inl htimedOut, nofun, fun _ ↦ htimedOut⟩
  · rw [if_neg htimeout]
    refine ⟨?_, nofun, nofun⟩
    refine (hcounts (Nat.lt_of_not_le htimeout)).imp_right ?_
    intro h
    rw [← increment_cast] at h
    dsimp only
    omega

theorem Timely.mainStep (hs : Timely dep s waited) (hfits : Fits dep)
    (hok : ClockTrue dep (s, waited) (.main calls, wait)) :
    Timely dep (mainStep dep calls s) (observeWaited s (.main calls, wait) waited) := by
  by_cases hwait : s.pc = .loopWait
  · exact hs.loopWait hwait hok
  by_cases hreset : s.pc = .handlers ∨ s.pc = .pingMissReset
  · simp only [observeWaited, if_neg hwait, if_pos hreset]
    obtain hpc | hpc := hreset
    all_goals
      simp only [Connection.mainStep, hpc]
      exact timely_reset rfl rfl rfl
  simp only [observeWaited, if_neg hwait, if_neg hreset]
  by_cases hclocks : s.pc.clocks = false
  · exact hs.unclocked (mainStep_unclocked hclocks)
  cases hpc : s.pc
  case loopWait => exact absurd hpc hwait
  case handlers => exact absurd (.inl hpc) hreset
  case pingMissReset => exact absurd (.inr hpc) hreset
  case heartBeat timeMs => exact hs.heartBeat hfits hpc
  case loopListener timeMs =>
    simp only [Connection.mainStep, hpc, listenerStep]
    refine hs.same rfl ?_ ?_
    · rw [hpc]
      split
      · exact fun _ ↦ id
      · exact fun _ ↦ id
    · split
      · exact nofun
      · exact nofun
  case loopListenerSet timeMs =>
    simp only [Connection.mainStep, hpc, listenerSetStep]
    refine hs.same rfl ?_ nofun
    rw [hpc]
    exact fun _ ↦ id
  case pingMiss =>
    simp only [Connection.mainStep, hpc]
    refine hs.same rfl ?_ fun _ ↦ by rw [hpc]; rfl
    dsimp only [goto_pc]
    split
    · exact nofun
    · exact nofun
  all_goals
    rw [hpc] at hclocks
    exact absurd rfl hclocks

end MainStep

theorem step_heartBeatTimer {a : Action} (hother : ∀ calls, a ≠ .main calls)
    (h : Step dep s a t) : t.heartBeatTimer = s.heartBeatTimer := by
  obtain ⟨crud, gShutdown, interfaceDownEvent, globals, rfl⟩ := step_other hother h
  rfl

theorem observeWaited_other {a : Timed} (hother : ∀ calls, a.1 ≠ .main calls) :
    observeWaited s a waited = waited := by
  unfold observeWaited
  split
  · rename_i calls ha
    exact absurd ha (hother calls)
  · rfl

theorem Timely.step {x y : State × ℕ} {a : Timed} (hx : Timely dep x.1 x.2) (hfits : Fits dep)
    (hok : ClockTrue dep x a) (h : Observed (TimedStep dep) observeWaited x a y) :
    Timely dep y.1 y.2 := by
  obtain ⟨s, waited⟩ := x
  obtain ⟨t, waited'⟩ := y
  obtain ⟨hstep, rfl⟩ := h
  obtain ⟨action, wait⟩ := a
  obtain ⟨calls, rfl, rfl⟩ | ⟨hother, haside⟩ := step_cases hstep
  · exact hx.mainStep hfits hok
  · rw [observeWaited_other hother]
    have htimer := step_heartBeatTimer hother hstep
    refine hx.same htimer ?_ ?_
    · rw [haside.pc]
      exact fun _ ↦ id
    · rw [haside.pc]
      exact id

/-- As long as the clock counts no more than is waited, no Ping_Miss comes early. -/
theorem run_missInTime {x : State × ℕ} {tr : List ((State × ℕ) × Timed)} (hfits : Fits dep)
    (h : Run (Observed (TimedStep dep) observeWaited) (init, 0) tr x)
    (hok : Every (ClockTrue dep) tr) : Throughout (MissInTime dep) tr x := by
  have hkeep : ∀ x a y, Timely dep x.1 x.2 → ClockTrue dep x a →
      Observed (TimedStep dep) observeWaited x a y → Timely dep y.1 y.2 :=
    fun _ _ _ hx hok ↦ hx.step hfits hok
  exact h.throughout_of_every (fun _ ↦ Timely.missInTime) hkeep (timely_init dep) hok

section Runs

def unpinged : Calls := { quiet with pinged := false }

def clockStepped : Calls := { unpinged with waitStop := ⟨200, 0⟩ }

def clockLater : Calls := { unpinged with waitStart := ⟨200, 0⟩, waitStop := ⟨205, 0⟩ }

def fiveSeconds : Wait := ⟨5000000000, 0, Nat.zero_le _⟩

/-- The clock is stepped in the first wait, and right in the second. -/
def steppedRun : List Timed :=
  List.replicate 11 (.main clockStepped, fiveSeconds) ++
    List.replicate 8 (.main clockLater, fiveSeconds)

def tenSeconds : Deployment :=
  { cloudDeployment with cfg := { cloudDeployment.cfg with webpaPingTimeout := 10 } }

def unpingedRun : List Timed := List.replicate 25 (.main unpinged, fiveSeconds)

def clockTrue (x : (State × ℕ) × Timed) : Bool :=
  match x.2.1, x.1.1.pc with
  | .main calls, .loopWait =>
    !calls.pinged && decide ((x.1.1.heartBeatTimer +
      timeTakenMs calls.waitStart calls.waitStop) % 4294967296 * 1000000 ≤
        ((x.1.2 + x.2.2.whole : ℕ) : ℤ))
  | _, _ => true

theorem every_clockTrue {tr : List ((State × ℕ) × Timed)}
    (h : tr.all clockTrue = true) : Every (ClockTrue dep) tr := by
  intro x hx calls ha hpc
  have hclock := List.all_eq_true.mp h x hx
  unfold clockTrue at hclock
  rw [ha, hpc] at hclock
  obtain ⟨hpinged, hclock⟩ := Bool.and_eq_true_iff.mp hclock
  have hpinged : calls.pinged = false := by simpa using hpinged
  simp only [observeWaited, ha, if_pos hpc, hpinged, Bool.false_eq_true, if_false]
  exact fun _ ↦ .inr (of_decide_eq_true hclock)

theorem run_not_missInTime_stepped : ∃ tr x,
    Run (Observed (TimedStep cloudDeployment) observeWaited) (init, 0) tr x ∧
      x.1.pc = .pingMissReason ∧ x.2 = 10000000000 ∧
      ¬ Throughout (MissInTime cloudDeployment) tr x := by
  have hexec : (exec (watch (fun s a ↦ step cloudDeployment s a.1) observeWaited) (init, 0)
      steppedRun).map (fun r ↦ (r.2.1.pc, r.2.2)) = some (.pingMissReason, 10000000000) := by
    simp only [cloudDeployment, String.reduceToList]
    rfl
  obtain ⟨r, hr, heq⟩ := Option.map_eq_some_iff.mp hexec
  obtain ⟨hpc, hwaited⟩ := Prod.mk.inj heq
  refine ⟨r.1, r.2, run_of_exec_watch hr, hpc, hwaited, ?_⟩
  intro hmiss
  have htimedOut : 180 * 1000000000 ≤ r.2.2 := hmiss.2 hpc
  rw [hwaited] at htimedOut
  exact absurd htimedOut (by decide)

theorem run_missInTime_unpinged : ∃ tr x,
    Run (Observed (TimedStep tenSeconds) observeWaited) (init, 0) tr x ∧
      x.1.pc = .pingMissReason ∧ Throughout (MissInTime tenSeconds) tr x := by
  have hexec : (exec (watch (fun s a ↦ step tenSeconds s a.1) observeWaited) (init, 0)
      unpingedRun).map (fun r ↦ (r.2.1.pc, r.1.all clockTrue)) = some (.pingMissReason, true) := by
    simp only [tenSeconds, cloudDeployment, String.reduceToList]
    rfl
  obtain ⟨r, hr, heq⟩ := Option.map_eq_some_iff.mp hexec
  obtain ⟨hpc, hall⟩ := Prod.mk.inj heq
  have hrun : Run (Observed (TimedStep tenSeconds) observeWaited) (init, 0) r.1 r.2 :=
    run_of_exec_watch hr
  have hfits : Fits tenSeconds := webpaPingTimeoutMs_eq_iff.mp rfl
  exact ⟨r.1, r.2, hrun, hpc, run_missInTime hfits hrun (every_clockTrue hall)⟩

end Runs

end Parodus.Connection
