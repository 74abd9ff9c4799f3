import Parodus.Connection.Steps

namespace Parodus.Connection

open Foundation.Runs

def localIp : CString := "10.0.0.1".toList

/-- The loop over the addresses, which another address than the local one ends. -/
def hostStatus (status : ℤ) : List CString → ℤ
  | [] => status
  | addrstr :: res => if addrstr = localIp then hostStatus (-2) res else 0

/-- `none` stands for a host that `getaddrinfo` does not resolve. -/
def checkHostIp : Option (List CString) → ℤ
  | none => -1
  | some addrs => hostStatus (-1) addrs

def OnlyLocal (found : Option (List CString)) : Prop :=
  ∃ addrs, found = some addrs ∧ addrs ≠ [] ∧ ∀ addrstr ∈ addrs, addrstr = localIp

/-- An IPv4 failure check: its time, and what the host resolved to. -/
structure Check where
  time : Timespec
  found : Option (List CString)

/-- The checks of the current `createNopollConnection`, the last one first, and for each SIGTERM
its time and the checks up to it. -/
structure Checks where
  made : List Check
  sigterms : List (Timespec × List Check)

/-- A step of the process, with what the host resolves to in it. -/
abbrev Resolved := Action × Option (List CString)

def Resolved.action (a : Resolved) : Action :=
  match a.1 with
  | .main calls => .main { calls with hostIp := checkHostIp a.2 }
  | action => action

def ResolvedStep (dep : Deployment) (s : State) (a : Resolved) (t : State) : Prop :=
  Step dep s a.action t

def IsCheck (calls : Calls) (s : State) : Prop :=
  s.pc = .connect false ∧ s.currentServer ≠ none ∧ calls.opens = false

instance (calls : Calls) (s : State) : Decidable (IsCheck calls s) :=
  inferInstanceAs (Decidable (_ ∧ _ ∧ _))

/-- Whether this very call raises it. -/
def raisesSigterm (calls : Calls) (s : State) : Bool :=
  (nopollConnect calls false { s with sigterm := false }).sigterm

def observeChecks (s : State) (a : Resolved) (o : Checks) : Checks :=
  match a.action with
  | .main calls =>
    if s.pc = .enter then { o with made := [] }
    else if IsCheck calls s then
      let made := ⟨calls.now, a.2⟩ :: o.made
      ⟨made, if raisesSigterm calls s then (calls.now, made) :: o.sigterms else o.sigterms⟩
    else o
  | _ => o

/-- From a check at that time on, each one found the local address only. -/
def LocalSince (start : Timespec) (made : List Check) : Prop :=
  ∃ recent first older, made = recent ++ first :: older ∧ first.time = start ∧
    ∀ check ∈ recent ++ [first], OnlyLocal check.found

def Outage (now : Timespec) (made : List Check) : Prop :=
  ∃ start, LocalSince start made ∧ connectTimeoutMs ≤ timeValDiff start now

/-- Each SIGTERM comes behind an outage of 15 minutes. -/
def SigtermsRight (x : State × Checks) : Prop := ∀ r ∈ x.2.sigterms, Outage r.1 r.2

/-- While the timer runs, no check finds another address or none. -/
def NoneProper (x : State × Checks) (a : Resolved) : Prop :=
  ∀ calls, a.action = .main calls → IsCheck calls x.1 → x.1.connectTimer ≠ none → OnlyLocal a.2

structure TimerRight (x : State × Checks) : Prop where
  timer : ∀ start, x.1.connectTimer = some start → LocalSince start x.2.made
  sigterms : SigtermsRight x

variable {dep : Deployment} {calls : Calls} {s t : State} {start now : Timespec}
  {made : List Check} {check : Check} {x y : State × Checks} {a : Resolved}

theorem hostStatus_eq_iff {status : ℤ} {addrs : List CString} :
    hostStatus status addrs = -2 ↔
      (addrs = [] → status = -2) ∧ ∀ addrstr ∈ addrs, addrstr = localIp := by
  induction addrs generalizing status with
  | nil => simp [hostStatus]
  | cons addrstr res ih =>
    rw [hostStatus, List.forall_mem_cons]
    split
    case isTrue hlocal => simp [ih, hlocal]
    case isFalse hother => simp [hother]

/-- The result is -2 if the local address is the only one. -/
theorem checkHostIp_eq_iff {found : Option (List CString)} :
    checkHostIp found = -2 ↔ OnlyLocal found := by
  cases found with
  | none => simp [checkHostIp, OnlyLocal]
  | some addrs => simp [checkHostIp, OnlyLocal, hostStatus_eq_iff]

theorem localSince_cons_self (made : List Check) (h : OnlyLocal check.found) :
    LocalSince check.time (check :: made) :=
  ⟨[], check, made, rfl, rfl, List.forall_mem_singleton.mpr h⟩

theorem LocalSince.cons (hsince : LocalSince start made) (h : OnlyLocal check.found) :
    LocalSince start (check :: made) := by
  obtain ⟨recent, first, older, rfl, hfirst, hlocal⟩ := hsince
  exact ⟨check :: recent, first, older, rfl, hfirst, List.forall_mem_cons.mpr ⟨h, hlocal⟩⟩

/-- An address found in between restarts the 15 minutes. -/
theorem not_outage {proper : Check} (hlate : timeValDiff check.time now < connectTimeoutMs)
    (hproper : ¬ OnlyLocal proper.found) : ¬ Outage now (check :: proper :: made) := by
  rintro ⟨_, ⟨recent, first, older, heq, rfl, hlocal⟩, hlong⟩
  cases recent with
  | nil =>
    obtain rfl := (List.cons.inj heq).1
    omega
  | cons _ recent =>
    have hmem : proper ∈ recent ++ [first] := by
      obtain ⟨_, heq⟩ := List.cons.inj heq
      cases recent with
      | nil => exact (List.cons.inj heq).1 ▸ List.mem_cons_self
      | cons _ recent => exact (List.cons.inj heq).1 ▸ List.mem_cons_self
    exact hproper (hlocal proper (List.mem_cons_of_mem _ hmem))

/-- If the clock is not set back, no check of the 15 minutes is left out. -/
theorem Outage.recent (h : Outage now made)
    (hclock : made.Pairwise fun c d ↦ timeValDiff c.time now ≤ timeValDiff d.time now) :
    ∀ check ∈ made, timeValDiff check.time now < connectTimeoutMs → OnlyLocal check.found := by
  obtain ⟨_, ⟨recent, first, older, rfl, rfl, hlocal⟩, hlong⟩ := h
  intro check hcheck htime
  rw [List.append_cons] at hcheck
  obtain hrecent | holder := List.mem_append.mp hcheck
  · exact hlocal check hrecent
  · have hbefore := (List.pairwise_cons.mp (List.pairwise_append.mp hclock).2.1).1 check holder
    omega

theorem nopollConnect_connectTimer (calls : Calls) (ipv6 : Bool) (s : State) :
    (nopollConnect calls ipv6 s).connectTimer =
      if s.currentServer ≠ none ∧ calls.opens = false ∧ ipv6 = false ∧ calls.hostIp = -2 then
        some (checkTimerExpired s.connectTimer calls.now).2
      else s.connectTimer := by
  unfold nopollConnect
  cases hserver : s.currentServer with
  | none => simp [State.goto]
  | some slot =>
    cases hopens : calls.opens with
    | true => simp
    | false =>
      by_cases hlocal : ipv6 = false ∧ calls.hostIp = -2
      · simp only [hlocal, Bool.false_eq_true, if_false, and_self, if_true, ne_eq, reduceCtorEq,
          not_false_eq_true]
        split
        · rfl
        · rfl
      · simp [hlocal]

/-- SIGTERM is raised if only the local address is found, 15 minutes after the timer was
started, and the interface is up. -/
theorem raisesSigterm_iff (hcheck : IsCheck calls s) :
    raisesSigterm calls s = true ↔ calls.hostIp = -2 ∧
      (checkTimerExpired s.connectTimer calls.now).1 = true ∧ s.interfaceDownEvent = false := by
  obtain ⟨_, hserver, hopens⟩ := hcheck
  obtain ⟨slot, hslot⟩ := Option.ne_none_iff_exists'.mp hserver
  unfold raisesSigterm nopollConnect
  simp only [hslot, hopens, Bool.false_eq_true, if_false, true_and]
  split
  case isFalse hother => simp [hother]
  case isTrue hlocal =>
    rw [and_iff_right hlocal]
    split
    case isTrue hexpired => simp [hexpired]
    case isFalse hnot => simp [hnot]

theorem mainStep_connectTimer (henter : s.pc ≠ .enter) (hconnect : ∀ ipv6, s.pc ≠ .connect ipv6) :
    (mainStep dep calls s).connectTimer = s.connectTimer := by
  unfold mainStep
  cases hpc : s.pc
  case enter => exact absurd hpc henter
  case connect ipv6 => exact absurd hpc (hconnect ipv6)
  case gaveUp =>
    dsimp only
    obtain ⟨_, heq⟩ | heq | ⟨_, _, rtn, serverList, _, heq⟩ := gaveUpStep_cases dep calls s
    all_goals
      rw [heq]
  case wait ipv6 =>
    dsimp only
    obtain ⟨_, heq⟩ | ⟨_, rtn, heq⟩ | ⟨_, redirect, _, _, heq⟩ | ⟨url, redirect, _, _, heq⟩ :=
      waitConnectionReady_cases calls s ipv6
    all_goals simp only [heq, State.goto]
  all_goals
    dsimp only [closeStep, releaseStep, judgedStep, listenerStep, listenerSetStep, loopWaitStep,
      heartBeatStep, State.goto]
    repeat' split
    all_goals rfl

theorem enter_connectTimer (hpc : s.pc = .enter) :
    (mainStep dep calls s).connectTimer = none := by
  unfold mainStep
  rw [hpc]
  dsimp only
  obtain ⟨_, heq⟩ | ⟨_, _, heq⟩ | ⟨_, rtn, serverList, _, heq⟩ := enterStep_cases dep calls s
  all_goals
    rw [heq]

theorem step_connectTimer {a : Action} (hother : ∀ calls, a ≠ .main calls)
    (h : Step dep s a t) : t.connectTimer = s.connectTimer := by
  obtain ⟨crud, gShutdown, interfaceDownEvent, globals, rfl⟩ := step_other hother h
  rfl

theorem connect_of_isCheck (hcheck : IsCheck calls s) :
    mainStep dep calls s = nopollConnect calls false s := by
  unfold mainStep
  rw [hcheck.1]

/-- Only a check touches the timer. -/
theorem other_connectTimer (henter : s.pc ≠ .enter) (hcheck : ¬ IsCheck calls s) :
    (mainStep dep calls s).connectTimer = s.connectTimer := by
  by_cases hconnect : ∃ ipv6, s.pc = .connect ipv6
  · obtain ⟨ipv6, hpc⟩ := hconnect
    have heq : mainStep dep calls s = nopollConnect calls ipv6 s := by
      unfold mainStep
      rw [hpc]
    rw [heq, nopollConnect_connectTimer, if_neg]
    rintro ⟨hserver, hopens, rfl, _⟩
    exact hcheck ⟨hpc, hserver, hopens⟩
  · exact mainStep_connectTimer henter fun ipv6 hpc ↦ hconnect ⟨ipv6, hpc⟩

theorem timerRight_init : TimerRight (init, ⟨[], []⟩) where
  timer _ h := by cases h
  sigterms _ h := by cases h

theorem TimerRight.other (hx : TimerRight x) (h : t.connectTimer = x.1.connectTimer) :
    TimerRight (t, x.2) where
  timer start hstart := hx.timer start (h ▸ hstart)
  sigterms := hx.sigterms

/-- A check that finds the local address only starts the timer or looks whether it is expired. -/
theorem TimerRight.local (hx : TimerRight x) (hcheck : IsCheck calls x.1)
    (hhost : calls.hostIp = -2) (hlocal : OnlyLocal check.found) (htime : check.time = calls.now) :
    TimerRight (nopollConnect calls false x.1,
      ⟨check :: x.2.made, if raisesSigterm calls x.1 then (calls.now, check :: x.2.made) ::
        x.2.sigterms else x.2.sigterms⟩) := by
  have htimer := nopollConnect_connectTimer calls false x.1
  rw [if_pos ⟨hcheck.2.1, hcheck.2.2, rfl, hhost⟩] at htimer
  have hsince : LocalSince (checkTimerExpired x.1.connectTimer calls.now).2
      (check :: x.2.made) := by
    cases hrunning : x.1.connectTimer with
    | none => exact htime ▸ localSince_cons_self x.2.made hlocal
    | some start => exact (hx.timer start hrunning).cons hlocal
  constructor
  · intro start hstart
    rw [htimer] at hstart
    exact Option.some.inj hstart ▸ hsince
  · intro r hr
    dsimp only at hr
    split at hr
    case isFalse => exact hx.sigterms r hr
    case isTrue hraised =>
      obtain rfl | hr := List.mem_cons.mp hr
      · obtain ⟨_, hexpired, _⟩ := (raisesSigterm_iff hcheck).mp hraised
        refine ⟨_, hsince, ?_⟩
        cases hrunning : x.1.connectTimer with
        | none =>
          rw [hrunning] at hexpired
          cases hexpired
        | some start =>
          rw [hrunning] at hexpired
          exact of_decide_eq_true hexpired
      · exact hx.sigterms r hr

/-- A check that finds anything else comes where the timer does not run, and leaves it so. -/
theorem TimerRight.proper (hx : TimerRight x) (hcheck : IsCheck calls x.1)
    (hhost : calls.hostIp ≠ -2) (hstopped : x.1.connectTimer = none) :
    TimerRight (nopollConnect calls false x.1,
      ⟨check :: x.2.made, if raisesSigterm calls x.1 then (calls.now, check :: x.2.made) ::
        x.2.sigterms else x.2.sigterms⟩) := by
  have htimer := nopollConnect_connectTimer calls false x.1
  rw [if_neg fun h ↦ hhost h.2.2.2, hstopped] at htimer
  have hquiet : ¬ raisesSigterm calls x.1 = true := fun h ↦
    hhost ((raisesSigterm_iff hcheck).mp h).1
  rw [if_neg hquiet]
  constructor
  · intro start hstart
    rw [htimer] at hstart
    cases hstart
  · exact hx.sigterms

theorem TimerRight.step (hx : TimerRight x) (hok : NoneProper x a)
    (h : Observed (ResolvedStep dep) observeChecks x a y) : TimerRight y := by
  obtain ⟨s, o⟩ := x
  obtain ⟨t, o'⟩ := y
  obtain ⟨hstep, rfl⟩ := h
  dsimp only at hstep
  obtain ⟨calls, ha, rfl⟩ | ⟨hother, _⟩ := step_cases hstep
  · simp only [observeChecks, ha]
    by_cases henter : s.pc = .enter
    · rw [if_pos henter]
      refine ⟨?_, hx.sigterms⟩
      intro start hstart
      rw [enter_connectTimer henter] at hstart
      cases hstart
    rw [if_neg henter]
    by_cases hcheck : IsCheck calls s
    · rw [if_pos hcheck, connect_of_isCheck hcheck]
      have hhost : calls.hostIp = checkHostIp a.2 := by
        unfold Resolved.action at ha
        split at ha
        · rw [← Action.main.inj ha]
        · rename_i hnot
          exact absurd ha (hnot calls)
      by_cases hlocal : OnlyLocal a.2
      · exact hx.local hcheck (hhost.trans (checkHostIp_eq_iff.mpr hlocal)) hlocal rfl
      · refine hx.proper hcheck (fun h ↦ hlocal (checkHostIp_eq_iff.mp (hhost.symm.trans h))) ?_
        by_contra hrunning
        exact hlocal (hok calls ha hcheck hrunning)
    · rw [if_neg hcheck]
      exact hx.other (other_connectTimer henter hcheck)
  · have hsame : observeChecks s a o = o := by
      unfold observeChecks
      split
      · rename_i calls ha
        exact absurd ha (hother calls)
      · rfl
    rw [hsame]
    exact hx.other (step_connectTimer hother hstep)

/-- If nothing but the local address is found while the timer runs, SIGTERM is raised only
behind an outage of 15 minutes. -/
theorem run_sigtermsRight {tr : List ((State × Checks) × Resolved)}
    (h : Run (Observed (ResolvedStep dep) observeChecks) (init, ⟨[], []⟩) tr x)
    (hok : Every NoneProper tr) : Throughout SigtermsRight tr x := by
  have hkeep : ∀ x a y, TimerRight x → NoneProper x a →
      Observed (ResolvedStep dep) observeChecks x a y → TimerRight y :=
    fun _ _ _ hx hok ↦ hx.step hok
  exact h.throughout_of_every (fun _ ↦ TimerRight.sigterms) hkeep timerRight_init hok

section Runs

/-- A refused attempt at that second, with what the host resolves to. -/
def refusedAt (sec : ℤ) (addrstr : CString) : Resolved :=
  (.main { refused with now := ⟨sec, 0⟩ }, some [addrstr])

/-- From the check before to the next attempt with IPv4. -/
def anotherTry : List Resolved := List.replicate 8 (refusedAt 0 localIp)

def firstTry : List Resolved := List.replicate 5 (refusedAt 0 localIp)

/-- A proper address is found between two checks that find the local one. -/
def interruptedRun : List Resolved :=
  firstTry ++ refusedAt 0 localIp :: anotherTry ++ refusedAt 600 "10.0.0.2".toList :: anotherTry ++
    [refusedAt 960 localIp]

def outageRun : List Resolved :=
  firstTry ++ refusedAt 0 localIp :: anotherTry ++ [refusedAt 960 localIp]

def watchChecks : State × Checks → Resolved → Option (State × Checks) :=
  watch (fun s a ↦ step cloudDeployment s a.action) observeChecks

theorem run_not_sigtermsRight : ∃ tr x,
    Run (Observed (ResolvedStep cloudDeployment) observeChecks) (init, ⟨[], []⟩) tr x ∧
      x.2.sigterms = [(⟨960, 0⟩, [⟨⟨960, 0⟩, some [localIp]⟩,
        ⟨⟨600, 0⟩, some ["10.0.0.2".toList]⟩, ⟨⟨0, 0⟩, some [localIp]⟩])] ∧
      ¬ Throughout SigtermsRight tr x := by
  have hexec : (exec watchChecks (init, ⟨[], []⟩) interruptedRun).map (fun r ↦ r.2.2.sigterms) =
      some [(⟨960, 0⟩, [⟨⟨960, 0⟩, some [localIp]⟩,
        ⟨⟨600, 0⟩, some ["10.0.0.2".toList]⟩, ⟨⟨0, 0⟩, some [localIp]⟩])] := by
    simp only [watchChecks, cloudDeployment, interruptedRun, String.reduceToList]
    rfl
  obtain ⟨r, hr, hsigterms⟩ := Option.map_eq_some_iff.mp hexec
  refine ⟨r.1, r.2, run_of_exec_watch hr, hsigterms, ?_⟩
  intro hright
  have houtage := hright.2 (⟨960, 0⟩, _) (hsigterms ▸ List.mem_singleton_self _)
  refine not_outage (by decide) ?_ houtage
  rw [← checkHostIp_eq_iff]
  simp only [String.reduceToList]
  decide

theorem run_sigtermsRight_outage : ∃ tr x,
    Run (Observed (ResolvedStep cloudDeployment) observeChecks) (init, ⟨[], []⟩) tr x ∧
      x.2.sigterms = [(⟨960, 0⟩, [⟨⟨960, 0⟩, some [localIp]⟩, ⟨⟨0, 0⟩, some [localIp]⟩])] ∧
      Throughout SigtermsRight tr x := by
  have hexec : (exec watchChecks (init, ⟨[], []⟩) outageRun).map (fun r ↦
      (r.2.2.sigterms, r.1.all fun x ↦ checkHostIp x.2.2 == -2)) =
        some ([(⟨960, 0⟩, [⟨⟨960, 0⟩, some [localIp]⟩, ⟨⟨0, 0⟩, some [localIp]⟩])], true) := by
    simp only [watchChecks, cloudDeployment, String.reduceToList]
    rfl
  obtain ⟨r, hr, heq⟩ := Option.map_eq_some_iff.mp hexec
  obtain ⟨hsigterms, hall⟩ := Prod.mk.inj heq
  have hrun : Run (Observed (ResolvedStep cloudDeployment) observeChecks) (init, ⟨[], []⟩)
      r.1 r.2 := run_of_exec_watch hr
  refine ⟨r.1, r.2, hrun, hsigterms, run_sigtermsRight hrun ?_⟩
  intro x hx calls _ _ _
  exact checkHostIp_eq_iff.mp (beq_iff_eq.mp (List.all_eq_true.mp hall x hx))

end Runs

end Parodus.Connection
