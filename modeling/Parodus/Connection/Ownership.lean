import Parodus.Connection.Steps
import Parodus.Foundation.Custody

namespace Parodus.Connection

open Foundation Foundation.Runs
open Foundation.Custody (live_release)

variable {dep : Deployment} {calls : Calls} {s t : State} {a : Action}

/-- Where the global connection is null. -/
def Pc.free : Pc → Bool
  | .enter | .tryLoop | .gaveUp | .keepTrying | .connect _ | .judged _ _ => true
  | .afterFail | .backoff => true
  | .close (.down .keepTrying) | .downTest _ | .downWait _ => true
  | .disconnectCheck | .disconnectSleep | .returned false | .aborted => true
  | _ => false

/-- Where the global connection, if there is one, was closed. -/
def Pc.closing : Pc → Bool
  | .closeListener _ | .closeListenerSet _ | .release _ | .terminated => true
  | _ => false

/-- Behind the loop of `createNopollConnection`. -/
def Pc.epilogue : Pc → Bool
  | .online | .reset | .handlers | .returned true => true
  | _ => false

/-- Where the main thread uses the global connection. -/
def Pc.uses : Pc → Bool
  | .connect _ | .wait _ | .close _ | .release _ | .online | .handlers => true
  | _ => false

structure SameConn (s t : State) : Prop where
  gConn : t.gConn = s.gConn
  opened : t.opened = s.opened
  closed : t.closed = s.closed
  cloudStatus : t.cloudStatus = s.cloudStatus
  free : t.pc.free = true → s.pc.free = true
  closing : t.pc.closing = s.pc.closing
  waiting : ∀ ipv6, t.pc ≠ .wait ipv6
  connected : t.pc ≠ .connected
  epilogue : t.pc.epilogue = true →
    s.pc = .connected ∨ s.pc.epilogue = true ∨ s.pc = .tryLoop ∧ s.gShutdown = true

theorem mainStep_sameConn (dep : Deployment) (calls : Calls) (h : s.pc.uses = false) :
    SameConn s (mainStep dep calls s) := by
  unfold mainStep
  cases hpc : s.pc
  case connect | wait | close | release | online | handlers => rw [hpc] at h; cases h
  case enter =>
    obtain ⟨_, heq⟩ | ⟨_, _, heq⟩ | ⟨_, rtn, serverList, _, heq⟩ :=
      enterStep_cases dep calls s
    · dsimp only
      rw [heq]
      constructor <;> simp [Pc.free, Pc.closing, Pc.epilogue, hpc]
    · dsimp only
      rw [heq]
      constructor <;> simp [Pc.free, Pc.closing, Pc.epilogue, hpc]
    · dsimp only
      rw [heq]
      by_cases hrtn : rtn = .invalidDefault
      · constructor <;> simp [Pc.free, Pc.closing, Pc.epilogue, hpc, hrtn]
      · constructor <;> simp [Pc.free, Pc.closing, Pc.epilogue, hpc, hrtn]
  case gaveUp =>
    dsimp only
    obtain ⟨_, heq⟩ | heq | ⟨_, _, rtn, serverList, _, heq⟩ :=
      gaveUpStep_cases dep calls s
    all_goals
      rw [heq]
      constructor <;> simp [Pc.free, Pc.closing, Pc.epilogue, hpc]
  case tryLoop =>
    dsimp only
    by_cases hshutdown : s.gShutdown = true
    · rw [if_pos hshutdown]
      constructor <;> simp [Pc.free, Pc.closing, hpc, hshutdown]
    · rw [if_neg hshutdown]
      constructor <;> simp [Pc.free, Pc.closing, Pc.epilogue, hpc]
  case returned created =>
    dsimp only
    cases created
    all_goals
      repeat' split
      all_goals constructor <;> simp_all [Pc.free, Pc.closing, Pc.epilogue]
  -- the two callers of the wait go on at different places
  case downTest caller | downWait caller =>
    dsimp only
    cases caller
    all_goals
      split
      all_goals
        constructor <;>
          simp [Pc.free, Pc.closing, Pc.epilogue, Caller.up, Caller.error, hpc]
  all_goals
    dsimp only [judgedStep, loopWaitStep, heartBeatStep, listenerStep, listenerSetStep]
    repeat' split
    all_goals constructor <;> simp [Pc.free, Pc.closing, Pc.epilogue, hpc]

/-- The connections that were opened and closed, and the one held. -/
def State.custody (s : State) : Custody := ⟨s.gConn.map Conn.id, s.opened, s.closed⟩

/-- Every opened connection but the global one is closed, and closed once. -/
structure Owned (s : State) : Prop where
  free : s.pc.free = true → s.gConn = none
  waiting : ∀ ipv6, s.pc = .wait ipv6 → s.gConn ≠ none
  sole : s.custody.Sole
  live : s.pc.closing = false → s.custody.Live
  settled : s.pc.closing = true → s.custody.Settled

theorem owned_init : Owned init where
  free _ := rfl
  waiting := nofun
  sole := ⟨nofun, List.nodup_nil, nofun⟩
  live _ := nofun
  settled := nofun

theorem custody_current_eq_none_iff : s.custody.current = none ↔ s.gConn = none :=
  Option.map_eq_none_iff

theorem Owned.keep (hs : Owned s) (hcustody : t.custody = s.custody)
    (hfree : t.pc.free = true → s.pc.free = true) (hclosing : t.pc.closing = s.pc.closing)
    (hwaiting : ∀ ipv6, t.pc = .wait ipv6 → s.pc = .wait ipv6) : Owned t where
  free hpc := by
    rw [← custody_current_eq_none_iff, hcustody, custody_current_eq_none_iff]
    exact hs.free (hfree hpc)
  waiting ipv6 hpc := by
    rw [Ne, ← custody_current_eq_none_iff, hcustody, custody_current_eq_none_iff]
    exact hs.waiting ipv6 (hwaiting ipv6 hpc)
  sole := hcustody ▸ hs.sole
  live hpc := hcustody ▸ hs.live (hclosing.symm.trans hpc)
  settled hpc := hcustody ▸ hs.settled (hclosing.symm.trans hpc)

/-- The global connection may become null once all are closed. -/
theorem Owned.forget (hs : Owned s) (hsettled : s.custody.Settled)
    (hcustody : t.custody = s.custody.release) (hwaiting : ∀ ipv6, t.pc ≠ .wait ipv6) :
    Owned t where
  free _ := by
    rw [← custody_current_eq_none_iff, hcustody]
    rfl
  waiting ipv6 hpc := absurd hpc (hwaiting ipv6)
  sole := hcustody ▸ hs.sole.release hsettled
  live _ := hcustody ▸ live_release
  settled _ := by
    rw [hcustody]
    exact hsettled

theorem Owned.sameConn (hs : Owned s) (h : SameConn s t) : Owned t := by
  have hcustody : t.custody = s.custody := by
    rw [State.custody, State.custody, h.gConn, h.opened, h.closed]
  exact hs.keep hcustody h.free h.closing fun ipv6 hpc ↦ absurd hpc (h.waiting ipv6)

theorem Owned.aside (hs : Owned s) (h : Aside s t) : Owned t := by
  have hcustody : t.custody = s.custody := by
    rw [State.custody, State.custody, h.gConn, h.opened, h.closed]
  apply hs.keep hcustody
  all_goals
    rw [h.pc]
    try exact id
  exact fun _ ↦ id

theorem Owned.connect (hs : Owned s) (calls : Calls) {ipv6 : Bool} (hpc : s.pc = .connect ipv6) :
    Owned (nopollConnect calls ipv6 s) := by
  have hnone : s.gConn = none := hs.free (by rw [hpc]; rfl)
  have hsettled := hs.sole.settled (custody_current_eq_none_iff.mpr hnone)
  obtain ⟨_, heq⟩ | ⟨_, heq⟩ | ⟨_, globals, sigterm, timer, _, heq⟩ :=
    nopollConnect_cases calls s ipv6
  · rw [heq]
    refine hs.forget hsettled ?_ nofun
    rw [State.custody, goto_gConn, hnone]
    rfl
  · rw [heq]
    exact ⟨nofun, fun _ _ ↦ Option.some_ne_none _, hs.sole.acquire hsettled,
      fun _ ↦ hs.sole.live_acquire, nofun⟩
  · rw [heq]
    exact hs.forget hsettled rfl nofun

theorem Owned.wait (hs : Owned s) (calls : Calls) {ipv6 : Bool} (hpc : s.pc = .wait ipv6) :
    Owned (waitConnectionReady calls ipv6 s) := by
  have hclosing : s.pc.closing = false := by rw [hpc]; rfl
  obtain ⟨_, heq⟩ | ⟨_, rtn, heq⟩ | ⟨_, redirect, _, _, heq⟩ | ⟨url, redirect, _, _, heq⟩ :=
    waitConnectionReady_cases calls s ipv6
  · rw [heq]
    refine hs.keep ?_ nofun hclosing.symm nofun
    rw [State.custody, Option.map_map]
    rfl
  all_goals
    rw [heq]
    exact hs.keep rfl nofun hclosing.symm nofun

theorem Owned.close (hs : Owned s) (calls : Calls) {k : Closer} (hpc : s.pc = .close k) :
    Owned (closeStep calls k s) := by
  have hclosing : s.pc.closing = false := by rw [hpc]; rfl
  unfold closeStep
  cases hconn : s.gConn with
  | none =>
    have hnone := custody_current_eq_none_iff.mpr hconn
    refine hs.forget (hs.sole.settled hnone) ?_ (by cases k <;> exact nofun)
    rw [State.custody, goto_gConn, hconn]
    rfl
  | some conn =>
    have hcurrent : s.custody.current = some conn.id := by
      rw [State.custody, hconn, Option.map_some]
    have hcustody : (⟨some conn.id, s.opened, conn.id :: s.closed⟩ : Custody) =
        s.custody.close conn.id := by
      rw [← hcurrent]
      rfl
    have hsole := hs.sole.close (hs.live hclosing) hcurrent
    have hsettled := hs.sole.settled_close hcurrent
    rw [← hcustody] at hsole hsettled
    dsimp only
    constructor
    case free => intro hfree; split at hfree <;> cases hfree
    case waiting => intro ipv6 hpc; split at hpc <;> cases hpc
    case sole => exact hsole
    case live => intro h; split at h <;> cases h
    case settled => exact fun _ ↦ hsettled

theorem Owned.release (hs : Owned s) {k : Closer} (hpc : s.pc = .release k) :
    Owned (releaseStep k s) := by
  have hclosing : s.pc.closing = true := by rw [hpc]; rfl
  unfold releaseStep
  by_cases hfinal : k = .final
  · subst hfinal
    rw [if_pos rfl]
    exact hs.keep rfl nofun hclosing.symm nofun
  · rw [if_neg hfinal]
    exact hs.forget (hs.settled hclosing) rfl (by cases k <;> exact nofun)

theorem Owned.mainStep (hs : Owned s) : Owned (mainStep dep calls s) := by
  by_cases huses : s.pc.uses = false
  · exact hs.sameConn (mainStep_sameConn dep calls huses)
  unfold Connection.mainStep
  cases hpc : s.pc
  case connect ipv6 => exact hs.connect calls hpc
  case wait ipv6 => exact hs.wait calls hpc
  case close k => exact hs.close calls hpc
  case release k => exact hs.release hpc
  case online =>
    have hclosing : s.pc.closing = false := by rw [hpc]; rfl
    dsimp only
    split
    · exact hs.keep rfl nofun hclosing.symm nofun
    · exact hs.keep rfl nofun hclosing.symm nofun
  case handlers =>
    have hclosing : s.pc.closing = false := by rw [hpc]; rfl
    refine hs.keep ?_ nofun hclosing.symm nofun
    rw [State.custody, Option.map_map]
    rfl
  all_goals
    rw [hpc] at huses
    exact absurd rfl huses

theorem Owned.step (hs : Owned s) (h : Step dep s a t) : Owned t := by
  obtain ⟨calls, _, rfl⟩ | ⟨_, haside⟩ := step_cases h
  · exact hs.mainStep
  · exact hs.aside haside

/-- What holds of the connections while connecting, and when an attempt has failed. -/
structure SoleConnection (s : State) : Prop where
  isGlobal : ∀ id < s.opened, id ∉ s.closed → ∃ conn, s.gConn = some conn ∧ conn.id = id
  closedOnce : s.closed.Nodup ∧ ∀ id ∈ s.closed, id < s.opened
  beforeNext : ∀ ipv6, s.pc = .connect ipv6 → ∀ id < s.opened, id ∈ s.closed
  failed : s.pc = .keepTrying ∨ s.pc = .afterFail → s.gConn = none

theorem Owned.soleConnection (hs : Owned s) : SoleConnection s where
  isGlobal id hid hnot := Option.map_eq_some_iff.mp (hs.sole.unclosed id hid hnot)
  closedOnce := ⟨hs.sole.nodup, hs.sole.lt⟩
  beforeNext ipv6 hpc := by
    have hnone : s.gConn = none := hs.free (by rw [hpc]; rfl)
    exact hs.sole.settled (custody_current_eq_none_iff.mpr hnone)
  failed hpc := by
    obtain hpc | hpc := hpc
    · exact hs.free (by rw [hpc]; rfl)
    · exact hs.free (by rw [hpc]; rfl)

theorem run_soleConnection {tr : List (State × Action)} (h : Run (Step dep) init tr t) :
    Throughout SoleConnection tr t := by
  obtain ⟨htr, ht⟩ := h.invariant (fun _ _ _ hs hstep ↦ Owned.step hs hstep) owned_init
  exact ⟨fun x hx ↦ (htr x hx).soleConnection, ht.soleConnection⟩

theorem run_soleConnection_redirected : ∃ tr t, Run (Step cloudDeployment) init tr t ∧
    t.gConn = some ⟨1, true, false⟩ ∧ t.closed = [0] ∧ Throughout SoleConnection tr t := by
  have hexec : (exec (step cloudDeployment) init redirectedRun).map
      (fun r ↦ (r.2.gConn, r.2.closed)) = some (some ⟨1, true, false⟩, [0]) := by
    simp only [cloudDeployment, redirectedRun, redirected, String.reduceToList]
    rfl
  obtain ⟨r, hr, heq⟩ := Option.map_eq_some_iff.mp hexec
  obtain ⟨hconn, hclosed⟩ := Prod.mk.inj heq
  have hrun : Run (Step cloudDeployment) init r.1 r.2 := run_of_exec hr
  exact ⟨r.1, r.2, hrun, hconn, hclosed, run_soleConnection hrun⟩

end Parodus.Connection
