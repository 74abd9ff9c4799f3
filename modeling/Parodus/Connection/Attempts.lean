import Parodus.Connection.Steps
import Parodus.Foundation.Potential

namespace Parodus.Connection

open Config Foundation.Runs

/-- From the head of the loop of `keep_trying_to_connect` on, before it returns, waits for the
interface or takes a delay. -/
def Pc.trying : Pc → Bool
  | .keepTrying | .connect _ | .wait _ | .judged _ _ | .afterFail => true
  | .close (.attempt _ _) | .closeListener (.attempt _ _) => true
  | .closeListenerSet (.attempt _ _) | .release (.attempt _ _) => true
  | _ => false

/-- It returns true or false, waits for the interface, or takes a delay. -/
def Pc.leaves : Pc → Bool
  | .connected | .gaveUp | .close (.down .keepTrying) | .backoff => true
  | _ => false

/-- An answer on which the loop goes on at once: 403, or a redirect with a good url. -/
def asksRetry (calls : Calls) : Bool :=
  calls.connOk &&
    match calls.waitResult with
    | .ready => false
    | .status waitStatus redirectURL =>
      if redirectStatus waitStatus then
        (parseWebpaUrl calls.redirectAllocated (redirectPtr redirectURL)).isSome
      else waitStatus == 403

def Pc.isConnect : Pc → Bool
  | .connect _ => true
  | _ => false

def Pc.isWait : Pc → Bool
  | .wait _ => true
  | _ => false

/-- The calls of `nopoll_connect`. -/
def attempts (s : State) : Action → ℕ
  | .main _ => if s.pc.isConnect then 1 else 0
  | _ => 0

def retries (s : State) : Action → ℕ
  | .main calls => if s.pc.isWait && asksRetry calls then 1 else 0
  | _ => 0

def mainSteps (_ : State) : Action → ℕ
  | .main _ => 1
  | _ => 0

/-- How many attempts can still come if no answer asks for another try. -/
def Pc.attemptsLeft : Pc → ℕ
  | .keepTrying | .connect true => 2
  | .connect false | .wait true => 1
  | .judged true .fail | .close (.attempt true .fail) => 1
  | .closeListener (.attempt true .fail) | .closeListenerSet (.attempt true .fail) => 1
  | .release (.attempt true .fail) => 1
  | .judged _ .actionRetry | .close (.attempt _ .actionRetry) => 2
  | .closeListener (.attempt _ .actionRetry) | .closeListenerSet (.attempt _ .actionRetry) => 2
  | .release (.attempt _ .actionRetry) => 2
  | _ => 0

/-- How many steps can still come if no answer asks for another try. -/
def Pc.stepsLeft : Pc → ℕ
  | .close (.attempt _ .actionRetry) => 21
  | .closeListener (.attempt _ .actionRetry) => 20
  | .closeListenerSet (.attempt _ .actionRetry) => 19
  | .release (.attempt _ .actionRetry) => 18
  | .judged _ .actionRetry => 17
  | .keepTrying => 16
  | .connect true => 15
  | .wait true => 14
  | .close (.attempt true .fail) => 13
  | .closeListener (.attempt true .fail) => 12
  | .closeListenerSet (.attempt true .fail) => 11
  | .release (.attempt true .fail) => 10
  | .judged true .fail => 9
  | .connect false => 8
  | .wait false => 7
  | .close (.attempt false .fail) => 6
  | .closeListener (.attempt false .fail) => 5
  | .closeListenerSet (.attempt false .fail) => 4
  | .release (.attempt false .fail) => 3
  | .judged false .fail => 2
  | .afterFail => 1
  | _ => 0

variable {dep : Deployment} {calls : Calls} {s t : State} {a : Action} {ipv6 : Bool}

theorem waitConnectionReady_pc (calls : Calls) (ipv6 : Bool) (s : State) :
    (asksRetry calls = true ∧
      (waitConnectionReady calls ipv6 s).pc = .close (.attempt ipv6 .actionRetry)) ∨
    (asksRetry calls = false ∧
      ((waitConnectionReady calls ipv6 s).pc = .connected ∨
        (waitConnectionReady calls ipv6 s).pc = .close (.attempt ipv6 .fail))) := by
  unfold asksRetry waitConnectionReady
  cases calls.connOk with
  | false => exact .inr ⟨rfl, .inr rfl⟩
  | true =>
    cases calls.waitResult with
    | ready => exact .inr ⟨rfl, .inl rfl⟩
    | status waitStatus redirectURL =>
      simp only [Bool.true_and, Bool.true_eq_false, if_false]
      by_cases hstatus : redirectStatus waitStatus = true
      · rw [if_pos hstatus, if_pos hstatus]
        cases hparse : parseWebpaUrl calls.redirectAllocated (redirectPtr redirectURL) with
        | none =>
          rw [if_pos (parseServerUrl_neg_iff.mpr hparse)]
          exact .inr ⟨rfl, .inr rfl⟩
        | some url =>
          rw [if_neg (by rw [parseServerUrl_neg_iff, hparse]; exact Option.some_ne_none url)]
          exact .inl ⟨rfl, rfl⟩
      · rw [if_neg hstatus, if_neg hstatus]
        by_cases hforbidden : waitStatus = 403
        · rw [if_pos hforbidden]
          exact .inl ⟨beq_iff_eq.mpr hforbidden, rfl⟩
        · rw [if_neg hforbidden]
          exact .inr ⟨beq_eq_false_iff_ne.mpr hforbidden, .inr rfl⟩

theorem waitConnectionReady_currentServer (hserver : s.currentServer ≠ none) :
    (waitConnectionReady calls ipv6 s).currentServer ≠ none := by
  obtain ⟨_, heq⟩ | ⟨_, rtn, heq⟩ | ⟨_, redirect, _, _, heq⟩ | ⟨url, redirect, _, _, heq⟩ :=
    waitConnectionReady_cases calls s ipv6
  all_goals rw [heq]
  · exact hserver
  · exact hserver
  · exact hserver
  · exact Option.some_ne_none _

/-- A step of the loop goes on in it, with what it pays, or ends it. -/
structure Tried (dep : Deployment) (calls : Calls) (s : State) : Prop where
  server : (mainStep dep calls s).currentServer ≠ none
  stays : (mainStep dep calls s).pc.trying = true ∨ (mainStep dep calls s).pc.leaves = true
  attempts : attempts s (.main calls) + (mainStep dep calls s).pc.attemptsLeft ≤
    s.pc.attemptsLeft + 2 * retries s (.main calls)
  steps : 1 + (mainStep dep calls s).pc.stepsLeft ≤ s.pc.stepsLeft + 16 * retries s (.main calls)

/-- From one point to the next without an answer. -/
structure Pc.Advances (pc next : Pc) : Prop where
  stays : next.trying = true ∨ next.leaves = true
  attempts : (if pc.isConnect then 1 else 0) + next.attemptsLeft ≤ pc.attemptsLeft
  steps : 1 + next.stepsLeft ≤ pc.stepsLeft

instance (pc next : Pc) : Decidable (pc.Advances next) :=
  decidable_of_iff ((next.trying = true ∨ next.leaves = true) ∧
      (if pc.isConnect then 1 else 0) + next.attemptsLeft ≤ pc.attemptsLeft ∧
      1 + next.stepsLeft ≤ pc.stepsLeft)
    ⟨fun h ↦ ⟨h.1, h.2.1, h.2.2⟩, fun h ↦ ⟨h.stays, h.attempts, h.steps⟩⟩

theorem advances_keepTrying :
    Pc.keepTrying.Advances .gaveUp ∧ ∀ ipv6, Pc.keepTrying.Advances (.connect ipv6) := by
  decide

theorem advances_connect : ∀ ipv6, (Pc.connect ipv6).Advances (.wait ipv6) ∧
    (Pc.connect ipv6).Advances (.judged ipv6 .fail) := by
  decide

theorem advances_wait : ∀ ipv6, (Pc.wait ipv6).Advances .connected ∧
    (Pc.wait ipv6).Advances (.close (.attempt ipv6 .fail)) := by
  decide

/-- Only the attempt over IPv6 leaves one more after it. -/
theorem advances_judged : ∀ ipv6, (Pc.judged ipv6 .actionRetry).Advances .keepTrying ∧
    (Pc.judged true .fail).Advances (.connect false) ∧
    (Pc.judged ipv6 .fail).Advances .afterFail := by
  decide

theorem advances_afterFail :
    Pc.afterFail.Advances (.close (.down .keepTrying)) ∧ Pc.afterFail.Advances .backoff := by
  decide

/-- The points of `close_and_unref_connection`, in their order. -/
theorem advances_close (ipv6 : Bool) (rtn : WaitRtn) :
    (Pc.close (.attempt ipv6 rtn)).Advances (.judged ipv6 rtn) ∧
    (Pc.close (.attempt ipv6 rtn)).Advances (.closeListener (.attempt ipv6 rtn)) ∧
    (Pc.close (.attempt ipv6 rtn)).Advances (.release (.attempt ipv6 rtn)) ∧
    (Pc.closeListener (.attempt ipv6 rtn)).Advances (.closeListenerSet (.attempt ipv6 rtn)) ∧
    (Pc.closeListener (.attempt ipv6 rtn)).Advances (.release (.attempt ipv6 rtn)) ∧
    (Pc.closeListenerSet (.attempt ipv6 rtn)).Advances (.release (.attempt ipv6 rtn)) ∧
    (Pc.release (.attempt ipv6 rtn)).Advances (.judged ipv6 rtn) := by
  cases rtn
  all_goals
    revert ipv6
    decide

theorem tried_of_advances {pc : Pc} (next : Pc) (heq : mainStep dep calls s = t)
    (hserver : t.currentServer ≠ none) (hpc : s.pc = pc) (hnext : t.pc = next)
    (h : pc.Advances next) : Tried dep calls s where
  server := by rwa [heq]
  stays := by
    rw [heq, hnext]
    exact h.stays
  attempts := by
    rw [heq, hnext, hpc]
    refine Nat.le_add_right_of_le ?_
    rw [attempts, hpc]
    exact h.attempts
  steps := by
    rw [heq, hnext, hpc]
    exact Nat.le_add_right_of_le h.steps

theorem tried_keepTrying (hpc : s.pc = .keepTrying) (hserver : s.currentServer ≠ none) :
    Tried dep calls s := by
  have heq : mainStep dep calls s = if s.gShutdown then s.goto .gaveUp
      else s.goto (.connect (decide (dep.cfg.flags &&& ipv4Only ≠ ipv4Only))) := by
    simp only [mainStep, hpc]
  obtain ⟨hgaveUp, hconnect⟩ := advances_keepTrying
  by_cases hshutdown : s.gShutdown = true
  · rw [if_pos hshutdown] at heq
    exact tried_of_advances .gaveUp heq hserver hpc rfl hgaveUp
  · rw [if_neg hshutdown] at heq
    exact tried_of_advances (.connect _) heq hserver hpc rfl (hconnect _)

theorem tried_connect (hpc : s.pc = .connect ipv6) (hserver : s.currentServer ≠ none) :
    Tried dep calls s := by
  have heq : mainStep dep calls s = nopollConnect calls ipv6 s := by
    simp only [mainStep, hpc]
  obtain ⟨hwait, hjudged⟩ := advances_connect ipv6
  obtain ⟨hnone, _⟩ | ⟨_, hopened⟩ | ⟨_, globals, sigterm, timer, _, hrefused⟩ :=
    nopollConnect_cases calls s ipv6
  · exact absurd hnone hserver
  · exact tried_of_advances (.wait ipv6) (heq.trans hopened) hserver hpc rfl hwait
  · exact tried_of_advances (.judged ipv6 .fail) (heq.trans hrefused) hserver hpc rfl hjudged

/-- An answer that asks for a retry pays for the attempts and steps of another turn. -/
theorem tried_wait (hpc : s.pc = .wait ipv6) (hserver : s.currentServer ≠ none) :
    Tried dep calls s := by
  have heq : mainStep dep calls s = waitConnectionReady calls ipv6 s := by
    simp only [mainStep, hpc]
  have hserver' : (waitConnectionReady calls ipv6 s).currentServer ≠ none :=
    waitConnectionReady_currentServer hserver
  obtain ⟨hasks, hnext⟩ | ⟨_, hnext⟩ := waitConnectionReady_pc calls ipv6 s
  · have hretry : retries s (.main calls) = 1 := by
      simp only [retries, hpc, Pc.isWait, hasks, Bool.and_self, if_true]
    have hattempts : attempts s (.main calls) = 0 := by
      simp only [attempts, hpc, Pc.isConnect, Bool.false_eq_true, if_false]
    refine ⟨by rwa [heq], .inl ?_, ?_, ?_⟩
    · rw [heq, hnext]
      rfl
    · rw [heq, hnext, hretry, hattempts]
      simp only [Pc.attemptsLeft]
      omega
    · rw [heq, hnext, hretry, hpc]
      cases ipv6
      · decide
      · decide
  · obtain ⟨hconnected, hclose⟩ := advances_wait ipv6
    obtain hnext | hnext := hnext
    · exact tried_of_advances .connected heq hserver' hpc hnext hconnected
    · exact tried_of_advances (.close (.attempt ipv6 .fail)) heq hserver' hpc hnext hclose

theorem tried_judged {rtn : WaitRtn} (hpc : s.pc = .judged ipv6 rtn)
    (hserver : s.currentServer ≠ none) : Tried dep calls s := by
  obtain ⟨slot, hslot⟩ := Option.ne_none_iff_exists'.mp hserver
  have heq : mainStep dep calls s = judgedStep dep ipv6 rtn s := by
    simp only [mainStep, hpc]
  obtain ⟨hkeepTrying, hipv4, hafterFail⟩ := advances_judged ipv6
  cases rtn with
  | actionRetry => exact tried_of_advances .keepTrying heq hserver hpc rfl hkeepTrying
  | fail =>
    simp only [judgedStep, hslot] at heq
    split at heq
    · rename_i htriesIPv4
      rw [htriesIPv4.2.2] at hpc
      exact tried_of_advances (.connect false) heq hserver hpc rfl hipv4
    · exact tried_of_advances .afterFail heq hserver hpc rfl hafterFail

theorem tried_afterFail (hpc : s.pc = .afterFail) (hserver : s.currentServer ≠ none) :
    Tried dep calls s := by
  have heq : mainStep dep calls s = if s.interfaceDownEvent then
      s.goto (.close (.down .keepTrying)) else s.goto .backoff := by
    simp only [mainStep, hpc]
  obtain ⟨hclose, hbackoff⟩ := advances_afterFail
  split at heq
  · exact tried_of_advances (.close (.down .keepTrying)) heq hserver hpc rfl hclose
  · exact tried_of_advances .backoff heq hserver hpc rfl hbackoff

theorem tried_close {rtn : WaitRtn} (hserver : s.currentServer ≠ none)
    (hpc : s.pc = .close (.attempt ipv6 rtn) ∨ s.pc = .closeListener (.attempt ipv6 rtn) ∨
      s.pc = .closeListenerSet (.attempt ipv6 rtn) ∨ s.pc = .release (.attempt ipv6 rtn)) :
    Tried dep calls s := by
  obtain ⟨hnone, hlistener, hrelease, hset, hnoSet, hsetRelease, hjudged⟩ :=
    advances_close ipv6 rtn
  obtain hpc | hpc | hpc | hpc := hpc
  · have heq : mainStep dep calls s = closeStep calls (.attempt ipv6 rtn) s := by
      simp only [mainStep, hpc]
    unfold closeStep at heq
    split at heq
    · exact tried_of_advances _ heq hserver hpc rfl hnone
    · refine tried_of_advances _ heq hserver hpc rfl ?_
      dsimp only
      split
      · exact hlistener
      · exact hrelease
  · have heq : mainStep dep calls s = listenerStep calls (.closeListenerSet (.attempt ipv6 rtn))
        (.release (.attempt ipv6 rtn)) s := by
      simp only [mainStep, hpc]
    refine tried_of_advances _ heq hserver hpc rfl ?_
    dsimp only [listenerStep]
    split
    · exact hnoSet
    · exact hset
  · have heq : mainStep dep calls s = listenerSetStep (.release (.attempt ipv6 rtn)) s := by
      simp only [mainStep, hpc]
    exact tried_of_advances _ heq hserver hpc rfl hsetRelease
  · have heq : mainStep dep calls s = releaseStep (.attempt ipv6 rtn) s := by
      simp only [mainStep, hpc]
    exact tried_of_advances _ heq hserver hpc rfl hjudged

theorem tried (hpc : s.pc.trying = true) (hserver : s.currentServer ≠ none) :
    Tried dep calls s := by
  cases h : s.pc
  case keepTrying => exact tried_keepTrying h hserver
  case connect ipv6 => exact tried_connect h hserver
  case wait ipv6 => exact tried_wait h hserver
  case judged ipv6 rtn => exact tried_judged h hserver
  case afterFail => exact tried_afterFail h hserver
  case close k =>
    cases k
    case attempt ipv6 rtn => exact tried_close hserver (.inl h)
    all_goals
      rw [h] at hpc
      cases hpc
  case closeListener k =>
    cases k
    case attempt ipv6 rtn => exact tried_close hserver (.inr (.inl h))
    all_goals
      rw [h] at hpc
      cases hpc
  case closeListenerSet k =>
    cases k
    case attempt ipv6 rtn => exact tried_close hserver (.inr (.inr (.inl h)))
    all_goals
      rw [h] at hpc
      cases hpc
  case release k =>
    cases k
    case attempt ipv6 rtn => exact tried_close hserver (.inr (.inr (.inr h)))
    all_goals
      rw [h] at hpc
      cases hpc
  all_goals
    rw [h] at hpc
    cases hpc

theorem main_eq_zero (hother : ∀ calls, a ≠ .main calls) :
    mainSteps s a = 0 ∧ attempts s a = 0 := by
  cases a with
  | main calls => exact absurd rfl (hother calls)
  | _ => exact ⟨rfl, rfl⟩

/-- What a step of any thread pays while the loop goes on. -/
structure TriedStep (s : State) (a : Action) (t : State) : Prop where
  server : t.currentServer ≠ none
  stays : t.pc.trying = true ∨ t.pc.leaves = true
  attempts : attempts s a + t.pc.attemptsLeft ≤ s.pc.attemptsLeft + 2 * retries s a
  steps : mainSteps s a + t.pc.stepsLeft ≤ s.pc.stepsLeft + 16 * retries s a

theorem triedStep (hpc : s.pc.trying = true) (hserver : s.currentServer ≠ none)
    (h : Step dep s a t) : TriedStep s a t := by
  obtain ⟨calls, rfl, rfl⟩ | ⟨hother, haside⟩ := step_cases h
  · have htried := @tried dep calls s hpc hserver
    exact ⟨htried.server, htried.stays, htried.attempts, htried.steps⟩
  · obtain ⟨hsteps, hattempts⟩ := @main_eq_zero s a hother
    refine ⟨by rwa [haside.currentServer], .inl (by rwa [haside.pc]), ?_, ?_⟩
    · rw [hattempts, haside.pc]
      omega
    · rw [hsteps, haside.pc]
      omega

section Runs

variable {tr : List (State × Action)}

theorem run_server (h : Run (Step dep) s tr t) (hserver : s.currentServer ≠ none)
    (hpc : s.pc.trying = true) (hstay : ∀ x ∈ tr, x.1.pc.trying = true) :
    (∀ x ∈ tr, x.1.currentServer ≠ none) ∧ (t.pc.trying = true ∨ t.pc.leaves = true) := by
  induction h with
  | nil => exact ⟨List.forall_mem_nil _, .inl hpc⟩
  | @cons s t u a tr hst hrun ih =>
    obtain ⟨_, hrest⟩ := List.forall_mem_cons.mp hstay
    have htried := triedStep hpc hserver hst
    cases hrun with
    | nil => exact ⟨List.forall_mem_singleton.mpr hserver, htried.stays⟩
    | cons hst' hrun' =>
      obtain ⟨hservers, hleaves⟩ := ih htried.server (hrest _ List.mem_cons_self) hrest
      exact ⟨List.forall_mem_cons.mpr ⟨hserver, hservers⟩, hleaves⟩

/-- The server answers with 403. -/
def forbidden : Calls := { quiet with waitResult := .status 403 [] }

/-- The head of the loop, with a server and no shutdown. -/
def trying (s : State) (slot : Slot) : State :=
  { s with pc := .keepTrying, gShutdown := false, currentServer := some slot }

theorem exec_forbidden (s : State) (slot : Slot) :
    (exec (step cloudDeployment) (trying s slot) (List.replicate 6 (.main forbidden))).map
      (fun r ↦ (r.1.all fun x ↦ x.1.pc.trying, total attempts r.1, r.2)) =
    some (true, 1, trying { s with
      cloudStatus := some .offline
      gConn := none
      opened := s.opened + 1
      closed := s.opened :: s.closed } slot) := rfl

/-- Any number of attempts, with no delay in between. -/
theorem run_forbidden (s : State) (slot : Slot) (n : ℕ) :
    ∃ tr t, Run (Step cloudDeployment) (trying s slot) tr (trying t slot) ∧
      (∀ x ∈ tr, x.1.pc.trying = true) ∧ total attempts tr = n := by
  induction n generalizing s with
  | zero => exact ⟨[], s, .nil _, List.forall_mem_nil _, rfl⟩
  | succ n ih =>
    obtain ⟨r, hr, heq⟩ := Option.map_eq_some_iff.mp (exec_forbidden s slot)
    obtain ⟨hall, hturn⟩ := Prod.mk.inj heq
    obtain ⟨hone, hend⟩ := Prod.mk.inj hturn
    obtain ⟨tr, t, hrun, hstay, hmany⟩ := ih { s with
      cloudStatus := some .offline
      gConn := none
      opened := s.opened + 1
      closed := s.opened :: s.closed }
    have hfirst : Run (Step cloudDeployment) (trying s slot) r.1 r.2 := run_of_exec hr
    rw [hend] at hfirst
    refine ⟨r.1 ++ tr, t, hfirst.append hrun, ?_, ?_⟩
    · exact List.forall_mem_append.mpr ⟨List.all_eq_true.mp hall, hstay⟩
    · rw [total_append, hone, hmany, Nat.add_comm]

theorem eq_trying {slot : Slot} (hpc : s.pc = .keepTrying) (hshutdown : s.gShutdown = false)
    (hserver : s.currentServer = some slot) : s = trying s slot := by
  cases s
  dsimp only at hpc hshutdown hserver
  subst hpc hshutdown hserver
  rfl

end Runs

end Parodus.Connection
