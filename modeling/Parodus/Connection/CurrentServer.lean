import Parodus.Connection.Episode

namespace Parodus.Connection

open Foundation.Runs

variable {dep : Deployment} {calls : Calls} {s t : State} {a : Action}

/-- Where the current server is dereferenced. -/
def Pc.dereferences : Pc → Bool
  | .connect _ | .judged _ .fail | .online => true
  | _ => false

def ServerPresent (s : State) : Prop := s.pc.dereferences = true → s.currentServer ≠ none

/-- A shutdown does not end the loop of `createNopollConnection` at its first test, at
which no server was chosen yet. -/
def NotShutAtOnce (s : State) (a : Action) : Prop :=
  ∀ calls, a = .main calls → s.pc = .tryLoop → s.gShutdown = true → s.currentServer ≠ none

def ServerChosen (s : State) : Prop := s.pc.attempting = true → s.currentServer ≠ none

theorem ServerChosen.serverPresent (hs : ServerChosen s) : ServerPresent s := by
  intro hpc
  apply hs
  unfold Pc.dereferences at hpc
  split at hpc
  · rename_i hpc'
    rw [hpc']
    rfl
  · rename_i hpc'
    rw [hpc']
    rfl
  · rename_i hpc'
    rw [hpc']
    rfl
  · cases hpc

theorem serverChosen_of_not_attempting (h : s.pc.attempting = false) : ServerChosen s :=
  fun hpc ↦ absurd (h.symm.trans hpc) Bool.false_ne_true

theorem ServerChosen.keep (hs : ServerChosen s)
    (hpc : t.pc.attempting = true → s.pc.attempting = true)
    (heq : t.currentServer = s.currentServer) : ServerChosen t := by
  intro ht
  rw [heq]
  exact hs (hpc ht)

theorem ServerChosen.tryLoop (hpc : s.pc = .tryLoop)
    (hok : s.gShutdown = true → s.currentServer ≠ none) : ServerChosen (mainStep dep calls s) := by
  simp only [Connection.mainStep, hpc]
  by_cases hshutdown : s.gShutdown = true
  · rw [if_pos hshutdown]
    exact fun _ ↦ hok hshutdown
  · rw [if_neg hshutdown]
    exact fun _ ↦ Option.some_ne_none _

theorem serverChosen_connect (ipv6 : Bool) : ServerChosen (nopollConnect calls ipv6 s) := by
  obtain ⟨_, heq⟩ | ⟨hsome, heq⟩ | ⟨hsome, globals, sigterm, timer, _, heq⟩ :=
    nopollConnect_cases calls s ipv6
  · rw [heq]
    exact nofun
  · rw [heq]
    exact fun _ ↦ hsome
  · rw [heq]
    exact fun _ ↦ hsome

theorem serverChosen_wait (ipv6 : Bool) (hsome : s.currentServer ≠ none) :
    ServerChosen (waitConnectionReady calls ipv6 s) := by
  obtain ⟨_, heq⟩ | ⟨_, rtn, heq⟩ | ⟨_, redirect, _, _, heq⟩ | ⟨url, redirect, _, _, heq⟩ :=
    waitConnectionReady_cases calls s ipv6
  · rw [heq]
    exact fun _ ↦ hsome
  · rw [heq]
    exact fun _ ↦ hsome
  · rw [heq]
    exact fun _ ↦ hsome
  · rw [heq]
    exact fun _ ↦ Option.some_ne_none _

theorem ServerChosen.mainStep (hs : ServerChosen s)
    (hok : s.pc = .tryLoop → s.gShutdown = true → s.currentServer ≠ none) :
    ServerChosen (mainStep dep calls s) := by
  by_cases hchooses : s.pc.chooses = false
  · have hsame := mainStep_sameServers dep calls hchooses
    exact hs.keep hsame.attempting hsame.currentServer
  cases hpc : s.pc
  case tryLoop => exact .tryLoop hpc (hok hpc)
  case enter =>
    apply serverChosen_of_not_attempting
    simp only [Connection.mainStep, hpc]
    obtain hpc' | hpc' | hpc' := enterStep_pc dep calls s
    all_goals
      rw [hpc']
      rfl
  case gaveUp =>
    apply serverChosen_of_not_attempting
    simp only [Connection.mainStep, hpc]
    obtain hpc' | hpc' := gaveUpStep_pc dep calls s
    all_goals
      rw [hpc']
      rfl
  case connect ipv6 =>
    simp only [Connection.mainStep, hpc]
    exact serverChosen_connect ipv6
  case wait ipv6 =>
    simp only [Connection.mainStep, hpc]
    exact serverChosen_wait ipv6 (hs (by rw [hpc]; rfl))
  case judged ipv6 rtn =>
    have hsome : s.currentServer ≠ none := hs (by rw [hpc]; rfl)
    simp only [Connection.mainStep, hpc, judgedStep]
    repeat' split
    all_goals exact fun _ ↦ hsome
  case connected =>
    have hsome : s.currentServer ≠ none := hs (by rw [hpc]; rfl)
    simp only [Connection.mainStep, hpc]
    exact fun _ ↦ hsome
  all_goals
    rw [hpc] at hchooses
    exact absurd rfl hchooses

theorem ServerChosen.step (hs : ServerChosen s) (hok : NotShutAtOnce s a) (h : Step dep s a t) :
    ServerChosen t := by
  obtain ⟨calls, rfl, rfl⟩ | ⟨_, haside⟩ := step_cases h
  · exact hs.mainStep (hok calls rfl)
  · exact hs.keep (fun hpc ↦ haside.pc ▸ hpc) haside.currentServer

/-- A shutdown at the first test leads to a dereference of the null pointer. -/
theorem not_serverPresent (hnot : ¬ NotShutAtOnce s a) (h : Step dep s a t) :
    ¬ ServerPresent t := by
  simp only [NotShutAtOnce, not_forall, not_not] at hnot
  obtain ⟨calls, rfl, hpc, hshutdown, hnone⟩ := hnot
  have hstep : t = s.goto .online := by
    rw [← Option.some.inj h]
    simp [Connection.mainStep, hpc, hshutdown]
  rw [hstep]
  exact fun hpresent ↦ hpresent rfl hnone

/-- From a call on, the current server is there where it is dereferenced exactly if no
shutdown came before a call chose its first server. -/
theorem run_serverPresent_iff {tr : List (State × Action)} (hcall : s.pc = .enter)
    (h : Run (Step dep) s tr t) : Throughout ServerPresent tr t ↔ Every NotShutAtOnce tr := by
  have hs : ServerChosen s := serverChosen_of_not_attempting (by rw [hcall]; rfl)
  have hinv : ∀ s, ServerChosen s → ServerPresent s := fun _ ↦ ServerChosen.serverPresent
  have hkeep : ∀ s a t, ServerChosen s → NotShutAtOnce s a → Step dep s a t → ServerChosen t :=
    fun _ _ _ ↦ ServerChosen.step
  exact h.throughout_iff_of_invariant hinv hkeep (fun _ _ _ _ ↦ not_serverPresent) hs

theorem run_not_serverPresent_shutdown : ∃ tr t, Run (Step cloudDeployment) init tr t ∧
    t.pc = .crashed ∧ ¬ Throughout ServerPresent tr t := by
  have hexec : (exec (step cloudDeployment) init
      (.setShutdown :: List.replicate 3 (.main quiet))).map
      (fun r ↦ (r.2.pc, r.1.all fun x ↦ !x.1.pc.dereferences || x.1.currentServer.isSome)) =
      some (.crashed, false) := by
    simp only [cloudDeployment, String.reduceToList]
    rfl
  obtain ⟨r, hr, heq⟩ := Option.map_eq_some_iff.mp hexec
  obtain ⟨hpc, hall⟩ := Prod.mk.inj heq
  refine ⟨r.1, r.2, run_of_exec hr, hpc, ?_⟩
  intro hpresent
  apply Bool.eq_false_iff.mp hall
  rw [List.all_eq_true]
  intro x hx
  have hx := hpresent.1 x hx
  unfold ServerPresent at hx
  cases hderef : x.1.pc.dereferences with
  | false => rfl
  | true => simpa [Option.isSome_iff_ne_none] using hx hderef

theorem run_serverPresent_iff_redirected : ∃ tr t, Run (Step cloudDeployment) init tr t ∧
    t.pc = .online ∧ Throughout ServerPresent tr t := by
  have hexec : (exec (step cloudDeployment) init redirectedRun).map
      (fun r ↦ (r.2.pc, r.1.all fun x ↦ !x.1.gShutdown)) = some (.online, true) := by
    simp only [cloudDeployment, redirectedRun, redirected, String.reduceToList]
    rfl
  obtain ⟨r, hr, heq⟩ := Option.map_eq_some_iff.mp hexec
  obtain ⟨hpc, hall⟩ := Prod.mk.inj heq
  have hrun : Run (Step cloudDeployment) init r.1 r.2 := run_of_exec hr
  refine ⟨r.1, r.2, hrun, hpc, (run_serverPresent_iff rfl hrun).mpr ?_⟩
  intro x hx _ _ _ hshutdown
  have hx := List.all_eq_true.mp hall x hx
  rw [hshutdown] at hx
  cases hx

end Parodus.Connection
