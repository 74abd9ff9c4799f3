import Parodus.Connection.Machine

namespace Parodus.Connection.InterfaceWait

open Foundation.Runs

/-- Where the connection thread is in `wait_while_interface_down`. -/
inductive Pc
  | close
  | test
  | lock
  | wait
  | blocked
  | woken
  | unlock (rtn : ℤ)
  | judge (rtn : ℤ)
  | returned (rtn : ℤ)
  deriving DecidableEq

/-- `locked`: the connection thread holds `interface_down_mut` between two of its steps.
`resets` counts the calls of `shutdownSocketConnection` that have not reset the event yet.
`announced` records that the event was reset, with its signal, since it was set last. -/
structure State where
  pc : Pc
  locked : Bool
  interfaceDownEvent : Bool
  gShutdown : Bool
  resets : ℕ
  announced : Bool
  deriving DecidableEq

/-- The signal takes the thread out of `pthread_cond_wait`, up to its lock of the mutex. -/
def State.signal (s : State) : State :=
  { s with pc := if s.pc = .blocked then .woken else s.pc }

def setInterfaceDownEvent (s : State) : State :=
  { s with interfaceDownEvent := true, announced := false }

def resetInterfaceDownEvent (s : State) : State :=
  { s.signal with interfaceDownEvent := false, announced := true }

/-- A step of the connection thread; `rtn` is what `pthread_cond_wait` returns at once, if
that is an error. -/
def waitWhileInterfaceDown (rtn : ℤ) (s : State) : Option State :=
  match s.pc with
  | .close => some { s with pc := .test }
  | .test => some { s with pc := if s.interfaceDownEvent then .lock else .returned 0 }
  | .lock => some { s with pc := .wait, locked := true }
  | .wait =>
    some (if rtn ≠ 0 then { s with pc := .unlock rtn }
      else { s with pc := .blocked, locked := false })
  | .blocked => none
  | .woken => some { s with pc := .unlock 0, locked := true }
  | .unlock rtn => some { s with pc := .judge rtn, locked := false }
  | .judge rtn =>
    some { s with pc := if rtn ≠ 0 ∨ s.gShutdown = true then .returned (-1) else .test }
  -- the caller comes back at the next interface-down event it sees
  | .returned _ => some { s with pc := .close }

/-- The steps of the connection thread, its spurious wake-ups, and the sections of the other
threads; a shutdown sets `g_shutdown` before it resets the event. -/
inductive Action
  | connection (rtn : ℤ)
  | spurious
  | setInterfaceDown
  | resetInterfaceDown
  | setShutdown
  | shutdownReset
  deriving DecidableEq

def step (s : State) : Action → Option State
  | .connection rtn => waitWhileInterfaceDown rtn s
  | .spurious => if s.pc = .blocked then some { s with pc := .woken } else none
  | .setInterfaceDown => if s.locked then none else some (setInterfaceDownEvent s)
  | .resetInterfaceDown => if s.locked then none else some (resetInterfaceDownEvent s)
  | .setShutdown => some { s with gShutdown := true, resets := s.resets + 1 }
  | .shutdownReset =>
    if s.locked = true ∨ s.resets = 0 then none
    else some { resetInterfaceDownEvent s with resets := s.resets - 1 }

def Step (s : State) (a : Action) (t : State) : Prop := step s a = some t

def init : State := ⟨.close, false, false, false, 0, false⟩

variable {s t : State} {a : Action}

/-- The thread is not blocked when the event is over and its end was signalled. -/
def NoLostWakeup (s : State) : Prop :=
  ¬ (s.pc = .blocked ∧ s.interfaceDownEvent = false ∧ s.announced = true)

/-- When the thread begins to wait, the interface is still down. -/
def StillDown (s : State) (a : Action) : Prop :=
  a = .connection 0 → s.pc = .wait → s.interfaceDownEvent = true

def Pc.tested : Pc → Bool
  | .lock | .wait => true
  | _ => false

structure Alert (s : State) : Prop where
  blocked : s.pc = .blocked → s.interfaceDownEvent = true
  tested : s.pc.tested = true → s.interfaceDownEvent = false → s.announced = true

theorem Alert.noLostWakeup (hs : Alert s) : NoLostWakeup s := by
  intro ⟨hblocked, hup, _⟩
  exact Bool.false_ne_true (hup.symm.trans (hs.blocked hblocked))

theorem alert_init : Alert init := ⟨nofun, nofun⟩

theorem signal_pc_ne (s : State) : s.signal.pc ≠ .blocked := by
  unfold State.signal
  by_cases h : s.pc = .blocked
  · simp [h]
  · simp [h]

theorem Alert.connection {rtn : ℤ} (hs : Alert s) (hok : StillDown s (.connection rtn))
    (h : waitWhileInterfaceDown rtn s = some t) : Alert t := by
  unfold waitWhileInterfaceDown at h
  cases hpc : s.pc
  case blocked =>
    rw [hpc] at h
    cases h
  all_goals
    rw [hpc] at h
    obtain rfl := Option.some.inj h
  case test =>
    by_cases hdown : s.interfaceDownEvent = true
    · rw [if_pos hdown]
      exact ⟨nofun, fun _ hup ↦ absurd (hup.symm.trans hdown) Bool.false_ne_true⟩
    · rw [if_neg hdown]
      exact ⟨nofun, nofun⟩
  case lock => exact ⟨nofun, fun _ ↦ hs.tested (by rw [hpc]; rfl)⟩
  case wait =>
    by_cases hrtn : rtn = 0
    · subst hrtn
      exact ⟨fun _ ↦ hok rfl hpc, nofun⟩
    · rw [if_pos hrtn]
      exact ⟨nofun, nofun⟩
  case judge =>
    split
    · exact ⟨nofun, nofun⟩
    · exact ⟨nofun, nofun⟩
  all_goals exact ⟨nofun, nofun⟩

theorem Alert.reset (s : State) : Alert (resetInterfaceDownEvent s) where
  blocked hpc := absurd hpc (signal_pc_ne s)
  tested _ _ := rfl

theorem Alert.step (hs : Alert s) (hok : StillDown s a) (h : Step s a t) : Alert t := by
  unfold Step InterfaceWait.step at h
  cases a with
  | connection rtn => exact hs.connection hok h
  | spurious =>
    dsimp only at h
    split at h
    · obtain rfl := Option.some.inj h
      exact ⟨nofun, nofun⟩
    · cases h
  | setInterfaceDown =>
    dsimp only at h
    split at h
    · cases h
    · obtain rfl := Option.some.inj h
      exact ⟨fun _ ↦ rfl, nofun⟩
  | resetInterfaceDown =>
    dsimp only at h
    split at h
    · cases h
    · obtain rfl := Option.some.inj h
      exact .reset s
  | setShutdown =>
    obtain rfl := Option.some.inj h
    exact ⟨hs.blocked, hs.tested⟩
  | shutdownReset =>
    dsimp only at h
    split at h
    · cases h
    · obtain rfl := Option.some.inj h
      exact ⟨(Alert.reset s).blocked, fun _ _ ↦ rfl⟩

/-- A wait that begins when the interface is up again sleeps through its signal. -/
theorem not_noLostWakeup (hs : Alert s) (hnot : ¬ StillDown s a) (h : Step s a t) :
    ¬ NoLostWakeup t := by
  simp only [StillDown, Classical.not_imp, Bool.not_eq_true] at hnot
  obtain ⟨rfl, hpc, hup⟩ := hnot
  have hannounced := hs.tested (by rw [hpc]; rfl) hup
  have ht : t = { s with pc := .blocked, locked := false } := by
    have heq : some t = some { s with pc := .blocked, locked := false } := by
      rw [← h, InterfaceWait.step, waitWhileInterfaceDown, hpc]
      rfl
    exact Option.some.inj heq
  rw [ht]
  exact fun hno ↦ hno ⟨rfl, hup, hannounced⟩

section Refinement

variable {dep : Deployment} {calls : Calls} {caller : Caller} {m : Connection.State}

/-- Where the main thread is in the machine that takes the wait in one step. -/
def Pc.coarse (caller : Caller) : Pc → Connection.Pc
  | .close => .close (.down caller)
  | .test => .downTest caller
  | .lock | .wait | .blocked | .woken | .unlock _ | .judge _ => .downWait caller
  | .returned rtn => if rtn = 0 then caller.up else caller.error

structure Coarse (caller : Caller) (s : State) (m : Connection.State) : Prop where
  pc : m.pc = s.pc.coarse caller
  interfaceDownEvent : m.interfaceDownEvent = s.interfaceDownEvent
  gShutdown : m.gShutdown = s.gShutdown

/-- Between the close of the connection and the return, a step of the thread is one of the
machine that takes the wait in one step, or no step of it. -/
theorem waitWhileInterfaceDown_coarse {rtn : ℤ} (hs : Coarse caller s m)
    (hclose : s.pc ≠ .close) (hreturned : ∀ rtn, s.pc ≠ .returned rtn)
    (h : waitWhileInterfaceDown rtn s = some t) (hcalls : ∀ rtn, s.pc = .judge rtn →
      calls.condWait = rtn) :
    Coarse caller t m ∨ Coarse caller t (mainStep dep calls m) := by
  unfold waitWhileInterfaceDown at h
  have hm := hs.pc
  cases hpc : s.pc
  case close => exact absurd hpc hclose
  case returned rtn => exact absurd hpc (hreturned rtn)
  case blocked =>
    rw [hpc] at h
    cases h
  all_goals
    rw [hpc] at h hm
    obtain rfl := Option.some.inj h
  case test =>
    right
    have hm : m.pc = .downTest caller := hm
    refine ⟨?_, ?_, ?_⟩
    · simp only [mainStep, hm, hs.interfaceDownEvent]
      split <;> rfl
    · simp only [mainStep, hm]
      exact hs.interfaceDownEvent
    · simp only [mainStep, hm]
      exact hs.gShutdown
  case judge rtn =>
    right
    have hm : m.pc = .downWait caller := hm
    refine ⟨?_, ?_, ?_⟩
    · simp only [mainStep, hm, hs.gShutdown, hcalls rtn hpc]
      split <;> rfl
    · simp only [mainStep, hm]
      exact hs.interfaceDownEvent
    · simp only [mainStep, hm]
      exact hs.gShutdown
  case wait =>
    left
    split
    · exact ⟨hm, hs.interfaceDownEvent, hs.gShutdown⟩
    · exact ⟨hm, hs.interfaceDownEvent, hs.gShutdown⟩
  all_goals exact .inl ⟨hm, hs.interfaceDownEvent, hs.gShutdown⟩

end Refinement

/-- No wake-up is lost in a run exactly if each wait begins with the interface down. -/
theorem run_noLostWakeup_iff {tr : List (State × Action)} (h : Run Step init tr t) :
    Throughout NoLostWakeup tr t ↔ Every StillDown tr := by
  have hkeep : ∀ s a t, Alert s → StillDown s a → Step s a t → Alert t :=
    fun _ _ _ ↦ Alert.step
  have hbreak : ∀ s a t, Alert s → ¬ StillDown s a → Step s a t → ¬ NoLostWakeup t :=
    fun _ _ _ ↦ not_noLostWakeup
  exact h.throughout_iff_of_invariant (fun _ ↦ Alert.noLostWakeup) hkeep hbreak alert_init

def testedRun : List Action := [.setInterfaceDown, .connection 0, .connection 0]

def sleepRun : List Action := testedRun ++ [.resetInterfaceDown, .connection 0, .connection 0]

def wakeRun : List Action :=
  testedRun ++ [.connection 0, .connection 0, .resetInterfaceDown] ++
    List.replicate 4 (.connection 0)

theorem run_not_noLostWakeup_sleep : ∃ tr t, Run Step init tr t ∧ t.pc = .blocked ∧
    t.interfaceDownEvent = false ∧ ¬ Throughout NoLostWakeup tr t := by
  have hexec : (exec step init sleepRun).map
      (fun r ↦ (r.2.pc, r.2.interfaceDownEvent, r.2.announced)) =
        some (.blocked, false, true) := rfl
  obtain ⟨r, hr, heq⟩ := Option.map_eq_some_iff.mp hexec
  obtain ⟨hpc, heq⟩ := Prod.mk.inj heq
  obtain ⟨hup, hannounced⟩ := Prod.mk.inj heq
  refine ⟨r.1, r.2, run_of_exec hr, hpc, hup, ?_⟩
  exact fun hno ↦ hno.2 ⟨hpc, hup, hannounced⟩

theorem run_noLostWakeup_iff_wake : ∃ tr t, Run Step init tr t ∧ t.pc = .returned 0 ∧
    Throughout NoLostWakeup tr t := by
  have hexec : (exec step init wakeRun).map
      (fun r ↦ (r.2.pc, r.1.all fun x ↦ x.1.pc ≠ .wait || x.1.interfaceDownEvent)) =
        some (.returned 0, true) := rfl
  obtain ⟨r, hr, heq⟩ := Option.map_eq_some_iff.mp hexec
  obtain ⟨hpc, hall⟩ := Prod.mk.inj heq
  have hrun : Run Step init r.1 r.2 := run_of_exec hr
  refine ⟨r.1, r.2, hrun, hpc, (run_noLostWakeup_iff hrun).mpr ?_⟩
  intro x hx _ hwait
  simpa [hwait] using List.all_eq_true.mp hall x hx

end Parodus.Connection.InterfaceWait
