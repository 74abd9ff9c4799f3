import Parodus.Connection.Attempts

namespace Parodus.Connection

open Foundation.Runs

/-- The process is over. -/
def Pc.ended : Pc → Bool
  | .terminated | .aborted | .crashed => true
  | _ => false

/-- Once `g_shutdown` is set: how many steps can still come behind the closing of a connection. -/
def Closer.stepsToEnd : Closer → ℕ
  | .attempt true .fail => 28
  | .attempt false .fail => 21
  | .attempt _ .actionRetry => 15
  | .down .keepTrying => 15
  | .down .mainLoop => 21
  | .closeRetry => 15
  | .final => 0

/-- How many steps can still come, when the threads were started. -/
def Pc.stepsToEnd : Pc → ℕ
  | .terminated | .aborted | .crashed => 0
  | .joining _ => 5
  | .shutdownTest => 6
  | .loopTest => 7
  | .returned _ => 8
  | .handlers => 9
  | .reset => 10
  | .online => 11
  | .tryLoop | .connected => 12
  | .enter | .gaveUp => 13
  | .keepTrying | .backoff | .disconnectSleep => 14
  | .disconnectCheck => 15
  | .judged true .fail => 28
  | .judged false .fail => 21
  | .judged _ .actionRetry => 15
  | .afterFail => 20
  | .wait false => 26
  | .connect false => 27
  | .wait true => 33
  | .connect true => 34
  | .downWait .keepTrying => 14
  | .downWait .mainLoop => 6
  | .downTest .keepTrying => 15
  | .downTest .mainLoop => 21
  | .release k => k.stepsToEnd + 1
  | .closeListenerSet k => k.stepsToEnd + 2
  | .closeListener k => k.stepsToEnd + 3
  | .close k => k.stepsToEnd + 4
  | .retryCheck => 20
  | .interfaceCheck => 26
  | .pingMissReset => 27
  | .pingMissSet => 28
  | .pingMissReason => 29
  | .pingMiss => 30
  | .heartBeat _ => 31
  | .loopListenerSet _ => 32
  | .loopListener _ => 33
  | .loopWait => 34

/-- A process that has not started its threads may pass through the loop once more. -/
def State.stepsToEnd (s : State) : ℕ := s.pc.stepsToEnd + if s.started then 0 else 27

/-- How many attempts can still come: the rest of those that are under way. -/
def Pc.attemptsToEnd : Pc → ℕ
  | .connect true => 2
  | .connect false | .wait true | .judged true .fail => 1
  | .close (.attempt true .fail) | .closeListener (.attempt true .fail) => 1
  | .closeListenerSet (.attempt true .fail) | .release (.attempt true .fail) => 1
  | _ => 0

/-- The steps of the main thread before its end. -/
def workingSteps (s : State) : Action → ℕ
  | .main _ => if s.pc.ended then 0 else 1
  | _ => 0

variable {dep : Deployment} {calls : Calls} {s t : State} {a : Action}

/-- From one point to the next with the shutdown flag set. -/
structure Pc.Ends (pc next : Pc) : Prop where
  attempts : (if pc.isConnect then 1 else 0) + next.attemptsToEnd ≤ pc.attemptsToEnd
  steps : 1 + next.stepsToEnd ≤ pc.stepsToEnd

instance (pc next : Pc) : Decidable (pc.Ends next) :=
  decidable_of_iff ((if pc.isConnect then 1 else 0) + next.attemptsToEnd ≤ pc.attemptsToEnd ∧
      1 + next.stepsToEnd ≤ pc.stepsToEnd)
    ⟨fun h ↦ ⟨h.1, h.2⟩, fun h ↦ ⟨h.attempts, h.steps⟩⟩

/-- A step of the main thread behind a shutdown request, with what it pays. -/
structure Shut (s : State) (a : Action) (t : State) : Prop where
  gShutdown : t.gShutdown = true
  attempts : attempts s a + t.pc.attemptsToEnd ≤ s.pc.attemptsToEnd
  steps : workingSteps s a + t.stepsToEnd ≤ s.stepsToEnd

theorem shut_of_ends {pc : Pc} (next : Pc) (hpc : s.pc = pc) (hnext : t.pc = next)
    (hstarted : t.started = s.started) (hshutdown : t.gShutdown = true) (h : pc.Ends next) :
    Shut s (.main calls) t where
  gShutdown := hshutdown
  attempts := by
    rw [Connection.attempts, hnext, hpc]
    exact h.attempts
  steps := by
    have hsteps := h.steps
    have hone : workingSteps s (.main calls) ≤ 1 := by
      rw [workingSteps]
      split
      · exact Nat.zero_le 1
      · exact Nat.le_refl 1
    rw [State.stepsToEnd, State.stepsToEnd, hnext, hpc, hstarted]
    omega

theorem ends_enter : Pc.enter.Ends .tryLoop ∧ Pc.enter.Ends (.returned false) ∧
    Pc.enter.Ends .crashed := by
  decide

theorem ends_gaveUp : Pc.gaveUp.Ends .tryLoop ∧ Pc.gaveUp.Ends .crashed := by
  decide

theorem ends_connect : ∀ ipv6, (Pc.connect ipv6).Ends (.wait ipv6) ∧
    (Pc.connect ipv6).Ends (.judged ipv6 .fail) ∧ (Pc.connect ipv6).Ends .crashed := by
  decide

theorem ends_wait : ∀ ipv6, (Pc.wait ipv6).Ends .connected ∧
    (Pc.wait ipv6).Ends (.close (.attempt ipv6 .fail)) ∧
    (Pc.wait ipv6).Ends (.close (.attempt ipv6 .actionRetry)) := by
  decide

/-- Only the attempt over IPv6 leaves one more after it. -/
theorem ends_judged : ∀ ipv6, (Pc.judged ipv6 .actionRetry).Ends .keepTrying ∧
    (Pc.judged true .fail).Ends (.connect false) ∧ (Pc.judged ipv6 .fail).Ends .afterFail ∧
    (Pc.judged ipv6 .fail).Ends .crashed := by
  decide

theorem ends_closer (k : Closer) : (Pc.close k).Ends (.closeListener k) ∧
    (Pc.close k).Ends (.release k) ∧ (Pc.close k).Ends k.next ∧
    (Pc.closeListener k).Ends (.closeListenerSet k) ∧ (Pc.closeListener k).Ends (.release k) ∧
    (Pc.closeListenerSet k).Ends (.release k) ∧ (Pc.release k).Ends k.next := by
  cases k with
  | attempt ipv6 rtn =>
    cases rtn
    all_goals
      revert ipv6
      decide
  | down caller => cases caller <;> decide
  | closeRetry | final => decide

/-- Where an interface that is down was waited for. -/
theorem ends_down (caller : Caller) : (Pc.downTest caller).Ends (.downWait caller) ∧
    (Pc.downTest caller).Ends caller.up ∧ (Pc.downWait caller).Ends caller.error := by
  cases caller <;> decide

/-- The points of the loop, with any reading of the clock. -/
theorem ends_loop (timeMs : ℤ) : Pc.loopWait.Ends (.loopListener timeMs) ∧
    Pc.loopWait.Ends (.heartBeat timeMs) ∧
    (Pc.loopListener timeMs).Ends (.loopListenerSet timeMs) ∧
    (Pc.loopListener timeMs).Ends (.heartBeat timeMs) ∧
    (Pc.loopListenerSet timeMs).Ends (.heartBeat timeMs) ∧
    (Pc.heartBeat timeMs).Ends .pingMiss ∧ (Pc.heartBeat timeMs).Ends .interfaceCheck := by
  refine ⟨?_, ?_, ?_, ?_, ?_, ?_, ?_⟩
  all_goals
    refine ⟨Nat.le_refl 0, ?_⟩
    simp only [Pc.stepsToEnd]
    decide

theorem shut_enter (hpc : s.pc = .enter) (hshutdown : s.gShutdown = true) :
    Shut s (.main calls) (enterStep dep calls s) := by
  obtain ⟨htry, hreturned, hcrashed⟩ := ends_enter
  obtain ⟨_, heq⟩ | ⟨_, _, heq⟩ | ⟨_, rtn, _, _, heq⟩ := enterStep_cases dep calls s
  · rw [heq]
    exact shut_of_ends _ hpc rfl rfl hshutdown htry
  · rw [heq]
    exact shut_of_ends _ hpc rfl rfl hshutdown hcrashed
  · rw [heq]
    refine shut_of_ends _ hpc rfl rfl hshutdown ?_
    by_cases hrtn : rtn = .invalidDefault
    · rwa [if_pos hrtn]
    · rwa [if_neg hrtn]

theorem shut_gaveUp (hpc : s.pc = .gaveUp) (hshutdown : s.gShutdown = true) :
    Shut s (.main calls) (gaveUpStep dep calls s) := by
  obtain ⟨htry, hcrashed⟩ := ends_gaveUp
  obtain ⟨_, heq⟩ | heq | ⟨_, _, rtn, _, _, heq⟩ := gaveUpStep_cases dep calls s
  · rw [heq]
    exact shut_of_ends _ hpc rfl rfl hshutdown htry
  · rw [heq]
    exact shut_of_ends _ hpc rfl rfl hshutdown hcrashed
  · rw [heq]
    refine shut_of_ends _ hpc rfl rfl ?_ htry
    simp only [hshutdown, Bool.true_or]

theorem shut_connect {ipv6 : Bool} (hpc : s.pc = .connect ipv6) (hshutdown : s.gShutdown = true) :
    Shut s (.main calls) (nopollConnect calls ipv6 s) := by
  obtain ⟨hwait, hjudged, hcrashed⟩ := ends_connect ipv6
  obtain ⟨_, heq⟩ | ⟨_, heq⟩ | ⟨_, globals, sigterm, timer, _, heq⟩ :=
    nopollConnect_cases calls s ipv6
  · rw [heq]
    exact shut_of_ends _ hpc rfl rfl hshutdown hcrashed
  · rw [heq]
    exact shut_of_ends _ hpc rfl rfl hshutdown hwait
  · rw [heq]
    exact shut_of_ends _ hpc rfl rfl hshutdown hjudged

theorem shut_wait {ipv6 : Bool} (hpc : s.pc = .wait ipv6) (hshutdown : s.gShutdown = true) :
    Shut s (.main calls) (waitConnectionReady calls ipv6 s) := by
  obtain ⟨hconnected, hfail, hretry⟩ := ends_wait ipv6
  obtain ⟨_, heq⟩ | ⟨_, rtn, heq⟩ | ⟨_, redirect, _, _, heq⟩ | ⟨url, redirect, _, _, heq⟩ :=
    waitConnectionReady_cases calls s ipv6
  · rw [heq]
    exact shut_of_ends _ hpc rfl rfl hshutdown hconnected
  · rw [heq]
    refine shut_of_ends _ hpc rfl rfl hshutdown ?_
    cases rtn with
    | actionRetry => exact hretry
    | fail => exact hfail
  · rw [heq]
    exact shut_of_ends _ hpc rfl rfl hshutdown hfail
  · rw [heq]
    exact shut_of_ends _ hpc rfl rfl hshutdown hretry

theorem shut_judged {ipv6 : Bool} {rtn : WaitRtn} (hpc : s.pc = .judged ipv6 rtn)
    (hshutdown : s.gShutdown = true) : Shut s (.main calls) (judgedStep dep ipv6 rtn s) := by
  obtain ⟨hkeep, hconnect, hafter, hcrashed⟩ := ends_judged ipv6
  unfold judgedStep
  cases rtn with
  | actionRetry => exact shut_of_ends _ hpc rfl rfl hshutdown hkeep
  | fail =>
    dsimp only
    split
    · exact shut_of_ends _ hpc rfl rfl hshutdown hcrashed
    · split
      · rename_i hipv6
        rw [hipv6.2.2] at hpc
        exact shut_of_ends _ hpc rfl rfl hshutdown hconnect
      · exact shut_of_ends _ hpc rfl rfl hshutdown hafter

/-- The first return starts the threads and enters the loop. -/
theorem shut_returned {created : Bool} (hpc : s.pc = .returned created)
    (hshutdown : s.gShutdown = true) : Shut s (.main calls) (mainStep dep calls s) := by
  simp only [mainStep, hpc]
  cases hstarted : s.started with
  | true =>
    rw [if_pos rfl]
    have hends : (Pc.returned created).Ends .loopTest := by cases created <;> decide
    exact shut_of_ends .loopTest hpc rfl rfl hshutdown hends
  | false =>
    rw [if_neg Bool.false_ne_true]
    cases created with
    | true =>
      rw [if_pos rfl]
      refine ⟨hshutdown, ?_, ?_⟩
      · rw [attempts, hpc]
        exact Nat.le_refl 0
      · rw [workingSteps, State.stepsToEnd, State.stepsToEnd, hpc, hstarted]
        exact Nat.le_refl 35
    | false =>
      rw [if_neg Bool.false_ne_true]
      exact shut_of_ends .aborted hpc rfl rfl hshutdown (by decide)

theorem shut_close {k : Closer} (hpc : s.pc = .close k) (hshutdown : s.gShutdown = true) :
    Shut s (.main calls) (closeStep calls k s) := by
  obtain ⟨hlistener, hrelease, hnext, _⟩ := ends_closer k
  unfold closeStep
  split
  · exact shut_of_ends _ hpc rfl rfl hshutdown hnext
  · refine shut_of_ends _ hpc rfl rfl hshutdown ?_
    split
    · exact hlistener
    · exact hrelease

theorem shut_downWait {caller : Caller} (hpc : s.pc = .downWait caller)
    (hshutdown : s.gShutdown = true) : Shut s (.main calls) (mainStep dep calls s) := by
  simp only [mainStep, hpc]
  rw [if_pos (.inr hshutdown)]
  exact shut_of_ends caller.error hpc rfl rfl hshutdown (ends_down caller).2.2

theorem shut_main (hshutdown : s.gShutdown = true) :
    Shut s (.main calls) (mainStep dep calls s) := by
  cases hpc : s.pc
  case enter =>
    simp only [mainStep, hpc]
    exact shut_enter hpc hshutdown
  case gaveUp =>
    simp only [mainStep, hpc]
    exact shut_gaveUp hpc hshutdown
  case connect ipv6 =>
    simp only [mainStep, hpc]
    exact shut_connect hpc hshutdown
  case wait ipv6 =>
    simp only [mainStep, hpc]
    exact shut_wait hpc hshutdown
  case judged ipv6 rtn =>
    simp only [mainStep, hpc]
    exact shut_judged hpc hshutdown
  case returned created => exact shut_returned hpc hshutdown
  case downWait caller => exact shut_downWait hpc hshutdown
  case close k =>
    simp only [mainStep, hpc]
    exact shut_close hpc hshutdown
  case closeListener k =>
    obtain ⟨_, _, _, hset, hrelease, _⟩ := ends_closer k
    simp only [mainStep, hpc, listenerStep]
    refine shut_of_ends _ hpc rfl rfl hshutdown ?_
    split
    · exact hrelease
    · exact hset
  case closeListenerSet k =>
    simp only [mainStep, hpc]
    exact shut_of_ends _ hpc rfl rfl hshutdown (ends_closer k).2.2.2.2.2.1
  case release k =>
    simp only [mainStep, hpc]
    exact shut_of_ends _ hpc rfl rfl hshutdown (ends_closer k).2.2.2.2.2.2
  case downTest caller =>
    obtain ⟨hwait, hup, _⟩ := ends_down caller
    simp only [mainStep, hpc]
    refine shut_of_ends _ hpc rfl rfl hshutdown ?_
    split
    · exact hwait
    · exact hup
  case tryLoop =>
    simp only [mainStep, hpc, hshutdown, if_true]
    exact shut_of_ends .online hpc rfl rfl hshutdown (by decide)
  case keepTrying =>
    simp only [mainStep, hpc, hshutdown, if_true]
    exact shut_of_ends .gaveUp hpc rfl rfl hshutdown (by decide)
  case shutdownTest =>
    simp only [mainStep, hpc, hshutdown, if_true]
    exact shut_of_ends (.joining false) hpc rfl rfl hshutdown (by decide)
  case joining waitError =>
    have hends : (Pc.joining waitError).Ends (.close .final) := by cases waitError <;> decide
    simp only [mainStep, hpc, hshutdown, if_true]
    exact shut_of_ends _ hpc rfl rfl hshutdown hends
  case online =>
    simp only [mainStep, hpc]
    split
    · exact shut_of_ends .crashed hpc rfl rfl hshutdown (by decide)
    · exact shut_of_ends .reset hpc rfl rfl hshutdown (by decide)
  case connected =>
    simp only [mainStep, hpc]
    exact shut_of_ends .online hpc rfl rfl hshutdown (by decide)
  case reset =>
    simp only [mainStep, hpc]
    exact shut_of_ends .handlers hpc rfl rfl hshutdown (by decide)
  case handlers =>
    simp only [mainStep, hpc]
    exact shut_of_ends (.returned true) hpc rfl rfl hshutdown (by decide)
  case afterFail =>
    simp only [mainStep, hpc]
    split
    · exact shut_of_ends (.close (.down .keepTrying)) hpc rfl rfl hshutdown (by decide)
    · exact shut_of_ends .backoff hpc rfl rfl hshutdown (by decide)
  case backoff =>
    simp only [mainStep, hpc]
    exact shut_of_ends .gaveUp hpc rfl rfl hshutdown (by decide)
  case loopWait =>
    obtain ⟨hlistener, hheart, _⟩ := ends_loop (timeTakenMs calls.waitStart calls.waitStop)
    simp only [mainStep, hpc, loopWaitStep]
    cases calls.closedByPeer with
    | true =>
      refine shut_of_ends _ hpc rfl ?_ ?_ hlistener
      · cases calls.pinged <;> rfl
      · cases calls.pinged <;> exact hshutdown
    | false =>
      refine shut_of_ends _ hpc rfl ?_ ?_ hheart
      · cases calls.pinged <;> rfl
      · cases calls.pinged <;> exact hshutdown
  case loopListener timeMs =>
    obtain ⟨_, _, hset, hheart, _⟩ := ends_loop timeMs
    simp only [mainStep, hpc, listenerStep]
    refine shut_of_ends _ hpc rfl rfl hshutdown ?_
    split
    · exact hheart
    · exact hset
  case loopListenerSet timeMs =>
    simp only [mainStep, hpc]
    exact shut_of_ends _ hpc rfl rfl hshutdown (ends_loop timeMs).2.2.2.2.1
  case heartBeat timeMs =>
    obtain ⟨_, _, _, _, _, hmiss, hcheck⟩ := ends_loop timeMs
    simp only [mainStep, hpc, heartBeatStep]
    split
    · exact shut_of_ends _ hpc rfl rfl hshutdown hmiss
    · exact shut_of_ends _ hpc rfl rfl hshutdown hcheck
  case pingMiss =>
    simp only [mainStep, hpc]
    split
    · exact shut_of_ends .pingMissReset hpc rfl rfl hshutdown (by decide)
    · exact shut_of_ends .pingMissReason hpc rfl rfl hshutdown (by decide)
  case pingMissReason =>
    simp only [mainStep, hpc]
    exact shut_of_ends .pingMissSet hpc rfl rfl hshutdown (by decide)
  case pingMissSet =>
    simp only [mainStep, hpc]
    exact shut_of_ends .pingMissReset hpc rfl rfl hshutdown (by decide)
  case pingMissReset =>
    simp only [mainStep, hpc]
    exact shut_of_ends .interfaceCheck hpc rfl rfl hshutdown (by decide)
  case interfaceCheck =>
    simp only [mainStep, hpc]
    split
    · exact shut_of_ends (.close (.down .mainLoop)) hpc rfl rfl hshutdown (by decide)
    · exact shut_of_ends .retryCheck hpc rfl rfl hshutdown (by decide)
  case retryCheck =>
    simp only [mainStep, hpc]
    split
    · exact shut_of_ends (.close .closeRetry) hpc rfl rfl hshutdown (by decide)
    · exact shut_of_ends .loopTest hpc rfl rfl hshutdown (by decide)
  case disconnectCheck =>
    simp only [mainStep, hpc]
    split
    · exact shut_of_ends .disconnectSleep hpc rfl rfl hshutdown (by decide)
    · exact shut_of_ends .enter hpc rfl rfl hshutdown (by decide)
  case disconnectSleep =>
    simp only [mainStep, hpc]
    exact shut_of_ends .enter hpc rfl rfl hshutdown (by decide)
  case loopTest =>
    simp only [mainStep, hpc]
    split
    · exact shut_of_ends (.joining false) hpc rfl rfl hshutdown (by decide)
    · exact shut_of_ends .shutdownTest hpc rfl rfl hshutdown (by decide)
  case terminated | aborted | crashed =>
    simp only [mainStep, hpc]
    refine ⟨hshutdown, ?_, ?_⟩
    · rw [attempts, hpc]
      exact Nat.le_refl 0
    · rw [workingSteps, hpc]
      exact Nat.le_of_eq (Nat.zero_add _)

theorem shut_step (hshutdown : s.gShutdown = true) (h : Step dep s a t) : Shut s a t := by
  obtain ⟨calls, rfl, rfl⟩ | ⟨hother, haside⟩ := step_cases h
  · exact shut_main hshutdown
  · obtain ⟨_, hattempts⟩ := @main_eq_zero s a hother
    refine ⟨haside.gShutdown hshutdown, ?_, ?_⟩
    · rw [hattempts, Nat.zero_add, haside.pc]
    · have hworking : workingSteps s a = 0 := by
        cases a with
        | main calls => exact absurd rfl (hother calls)
        | _ => rfl
      rw [hworking, Nat.zero_add, State.stepsToEnd, State.stepsToEnd, haside.pc, haside.started]

section Runs

variable {tr : List (State × Action)}

theorem run_shut (h : Run (Step dep) s tr t) (hshutdown : s.gShutdown = true) :
    ∀ s a t, (s, a) ∈ tr → Step dep s a t → Shut s a t := by
  have hkeep := h.invariant (P := fun s ↦ s.gShutdown = true)
    (fun _ _ _ hs hst ↦ (shut_step hs hst).gShutdown) hshutdown
  exact fun _ _ _ hmem ↦ shut_step (hkeep.1 _ hmem)

theorem Closer.stepsToEnd_le (k : Closer) : k.stepsToEnd ≤ 28 := by
  cases k with
  | attempt ipv6 rtn => cases ipv6 <;> cases rtn <;> decide
  | down caller => cases caller <;> decide
  | closeRetry | final => decide

theorem Pc.stepsToEnd_le (pc : Pc) : pc.stepsToEnd ≤ 34 := by
  cases pc with
  | close k | closeListener k | closeListenerSet k | release k =>
    have hk := k.stepsToEnd_le
    simp only [Pc.stepsToEnd]
    omega
  | connect ipv6 | wait ipv6 => cases ipv6 <;> decide
  | judged ipv6 rtn => cases ipv6 <;> cases rtn <;> decide
  | downTest caller | downWait caller => cases caller <;> decide
  | _ => simp only [Pc.stepsToEnd]; decide

theorem Pc.stepsToEnd_pos {pc : Pc} (h : pc.ended = false) : 0 < pc.stepsToEnd := by
  cases pc with
  | terminated | aborted | crashed => cases h
  | connect ipv6 | wait ipv6 => cases ipv6 <;> decide
  | judged ipv6 rtn => cases ipv6 <;> cases rtn <;> decide
  | downTest caller | downWait caller => cases caller <;> decide
  | _ => simp only [Pc.stepsToEnd]; omega

theorem State.stepsToEnd_le (s : State) : s.stepsToEnd ≤ 61 := by
  have hpc := s.pc.stepsToEnd_le
  rw [State.stepsToEnd]
  split <;> omega

theorem Pc.attemptsToEnd_le (pc : Pc) : pc.attemptsToEnd ≤ 2 := by
  unfold Pc.attemptsToEnd
  split <;> omega

theorem ended_step (hended : s.pc.ended = true) (h : Step dep s a t) : t.pc.ended = true := by
  obtain ⟨calls, rfl, rfl⟩ | ⟨_, haside⟩ := step_cases h
  · cases hpc : s.pc
    case terminated | aborted | crashed =>
      simp only [mainStep, hpc]
      rw [← hpc]
      exact hended
    all_goals
      rw [hpc] at hended
      cases hended
  · rw [haside.pc]
    exact hended

/-- While the process is not over, every step of the main thread works towards the end. -/
theorem run_workingSteps (h : Run (Step dep) s tr t) (hended : t.pc.ended = false) :
    total workingSteps tr = total mainSteps tr := by
  induction h with
  | nil => rfl
  | @cons s t u a tr hst hrun ih =>
    have hs : s.pc.ended = false := by
      rw [← Bool.not_eq_true]
      intro hover
      have hkeep := (Run.cons hst hrun).invariant (P := fun s ↦ s.pc.ended = true)
        (fun _ _ _ ↦ ended_step) hover
      rw [hkeep.2] at hended
      cases hended
    have hone : workingSteps s a = mainSteps s a := by
      cases a with
      | main calls => rw [workingSteps, mainSteps, hs, if_neg Bool.false_ne_true]
      | _ => rfl
    rw [total_cons, total_cons, hone, ih hended]

/-- From a shutdown request on, wherever the main thread is and whatever the servers, the
listeners and the other threads do, at most two connections are tried, and the process is over
after so many steps of the main thread. -/
theorem run_shutdown_ends (h : Run (Step dep) s tr t) (hshutdown : s.gShutdown = true) :
    total attempts tr ≤ 2 ∧ total workingSteps tr ≤ 61 ∧
      (61 ≤ total mainSteps tr → t.pc.ended = true) := by
  have hpays := run_shut h hshutdown
  have hattempts := @Run.total_le _ _ _ attempts (fun _ _ ↦ 0) (fun s ↦ s.pc.attemptsToEnd) _ _ _
    h fun s a t hmem hst ↦ (hpays s a t hmem hst).attempts
  have hsteps := @Run.total_le _ _ _ workingSteps (fun _ _ ↦ 0) State.stepsToEnd _ _ _
    h fun s a t hmem hst ↦ (hpays s a t hmem hst).steps
  have hfree : total (fun (_ : State) (_ : Action) ↦ 0) tr = 0 := by simp [total]
  have hfew := s.pc.attemptsToEnd_le
  have hlong := s.stepsToEnd_le
  refine ⟨by omega, by omega, ?_⟩
  intro hmany
  by_contra hover
  rw [Bool.not_eq_true] at hover
  have hpos : 0 < t.stepsToEnd := Nat.add_pos_left (Pc.stepsToEnd_pos hover) _
  have hworking := run_workingSteps h hover
  omega

/-- A request that comes while the first connection is tried, with every server refusing. -/
theorem run_shutdown_ends_refused : ∃ tr t,
    Run (Step cloudDeployment)
      { init with pc := .connect true, gShutdown := true, currentServer := some .defaults } tr t ∧
      total attempts tr = 2 ∧ t.pc = .terminated ∧ t.pc.ended = true := by
  have hexec : (exec (step cloudDeployment)
      { init with pc := .connect true, gShutdown := true, currentServer := some .defaults }
      (List.replicate 61 (.main refused))).map (fun r ↦
        (r.2.pc, total attempts r.1, total mainSteps r.1)) = some (.terminated, 2, 61) := by
    simp only [cloudDeployment, String.reduceToList]
    rfl
  obtain ⟨r, hr, heq⟩ := Option.map_eq_some_iff.mp hexec
  obtain ⟨hpc, heq⟩ := Prod.mk.inj heq
  obtain ⟨htwo, hmany⟩ := Prod.mk.inj heq
  have hrun := run_of_exec hr
  have hends := run_shutdown_ends hrun rfl
  exact ⟨r.1, r.2, hrun, htwo, hpc, hends.2.2 (Nat.le_of_eq hmany.symm)⟩

end Runs

end Parodus.Connection
