import Parodus.Connection.MainLoop
import Parodus.Connection.Ownership

namespace Parodus.Connection

open Foundation.Runs

variable {dep : Deployment} {calls : Calls} {s t : State} {a : Action}

/-- At the end of an iteration the connection is held, or the next one reconnects. -/
def Reconnects (s : State) : Prop :=
  s.pc = .loopTest → s.gShutdown = false → s.gConn ≠ none ∨ s.globals.closeRetry = true

/-- `nopoll_conn_close_ext` calls the registered close handler before it returns. -/
def CallsHandler (s : State) (a : Action) : Prop :=
  ∀ calls k, a = .main calls → s.pc = .close k → calls.closeHandler = true

/-- Where the close handler runs in the main loop's `wait_while_interface_down`, it finds
the interface up again, unless the reconnect was requested before or the process ends. -/
def HandlerHears (s : State) (a : Action) : Prop :=
  ∀ calls, a = .main calls → s.pc = .closeListener (.down .mainLoop) →
    s.interfaceDownEvent = false ∨ s.globals.closeRetry = true ∨ s.gShutdown = true

def Pc.looping : Pc → Bool
  | .returned true | .loopTest | .shutdownTest => true
  | .loopWait | .loopListener _ | .loopListenerSet _ | .heartBeat _ => true
  | .pingMiss | .pingMissReason | .pingMissSet | .pingMissReset => true
  | .interfaceCheck | .retryCheck | .close (.down .mainLoop) => true
  | _ => false

/-- In the loop's wait for the interface, behind the close handler. -/
def Pc.waiting : Pc → Bool
  | .release (.down .mainLoop) | .downTest .mainLoop | .downWait .mainLoop => true
  | _ => false

/-- A global connection is held, and the listeners were registered for it. -/
def Listening (s : State) : Prop := ∃ conn, s.gConn = some conn ∧ conn.handlers = true

def Requested (s : State) : Prop := s.gShutdown = true ∨ s.globals.closeRetry = true

structure Duty (s : State) : Prop where
  connected : s.pc = .connected → s.gConn ≠ none
  epilogue : s.pc.epilogue = true → s.gShutdown = true ∨ s.gConn ≠ none
  looping : s.pc.looping = true → Requested s ∨ Listening s
  waiting : s.pc.waiting = true → Requested s

/-- Where a connection, or a request to make one, is owed. -/
def Pc.owes (pc : Pc) : Bool := pc == .connected || pc.epilogue || pc.looping || pc.waiting

structure Dutiful (s : State) : Prop where
  owned : Owned s
  known : ServersKnown s
  duty : Duty s

theorem Dutiful.reconnects (hs : Dutiful s) : Reconnects s := by
  intro hpc hshutdown
  obtain (h | h) | ⟨conn, hconn, _⟩ := hs.duty.looping (by rw [hpc]; rfl)
  · exact absurd (hshutdown.symm.trans h) Bool.false_ne_true
  · exact .inr h
  · exact .inl (by simp [hconn])

theorem Pc.owes_eq_false_iff {pc : Pc} : pc.owes = false ↔ pc ≠ .connected ∧
    pc.epilogue = false ∧ pc.looping = false ∧ pc.waiting = false := by
  simp [Pc.owes, and_assoc]

theorem Duty.idle (h : t.pc.owes = false) : Duty t := by
  obtain ⟨hconnected, hepilogue, hlooping, hwaiting⟩ := Pc.owes_eq_false_iff.mp h
  constructor
  · exact fun hpc ↦ absurd hpc hconnected
  · exact fun hpc ↦ absurd (hepilogue.symm.trans hpc) Bool.false_ne_true
  · exact fun hpc ↦ absurd (hlooping.symm.trans hpc) Bool.false_ne_true
  · exact fun hpc ↦ absurd (hwaiting.symm.trans hpc) Bool.false_ne_true

theorem Duty.ofConnected (hpc : t.pc = .connected) (h : t.gConn ≠ none) : Duty t := by
  constructor
  · exact fun _ ↦ h
  all_goals
    intro h
    rw [hpc] at h
    cases h

theorem Duty.ofEpilogue (hpc : t.pc = .reset ∨ t.pc = .handlers)
    (h : t.gShutdown = true ∨ t.gConn ≠ none) : Duty t := by
  obtain hpc | hpc := hpc
  all_goals
    constructor
    · intro hconnected
      rw [hpc] at hconnected
      cases hconnected
    · exact fun _ ↦ h
    · intro hlooping
      rw [hpc] at hlooping
      cases hlooping
    · intro hwaiting
      rw [hpc] at hwaiting
      cases hwaiting

theorem Duty.ofReturned (hpc : t.pc = .returned true) (h : t.gShutdown = true ∨ Listening t) :
    Duty t := by
  constructor
  · intro h
    rw [hpc] at h
    cases h
  · intro _
    obtain h | ⟨conn, hconn, _⟩ := h
    · exact .inl h
    · exact .inr (by simp [hconn])
  · exact fun _ ↦ h.imp_left .inl
  · intro h
    rw [hpc] at h
    cases h

theorem Duty.ofLooping (hpc : t.pc = .loopTest ∨ t.pc = .loopWait)
    (h : Requested t ∨ Listening t) : Duty t := by
  obtain hpc | hpc := hpc
  all_goals
    constructor
    · intro hconnected
      rw [hpc] at hconnected
      cases hconnected
    · intro hepilogue
      rw [hpc] at hepilogue
      cases hepilogue
    · exact fun _ ↦ h
    · intro hwaiting
      rw [hpc] at hwaiting
      cases hwaiting

theorem Duty.ofWaiting (hpc : t.pc.waiting = true) (h : Requested t) : Duty t := by
  constructor
  · intro hconnected
    rw [hconnected] at hpc
    cases hpc
  · intro hepilogue
    cases hpc' : t.pc <;> rw [hpc'] at hpc hepilogue <;> first | cases hpc | cases hepilogue
  · intro hlooping
    exact .inl h
  · exact fun _ ↦ h

theorem dutiful_init : Dutiful init := ⟨owned_init, serversKnown_init, .idle rfl⟩

theorem Requested.mono (h : Requested s) (hshutdown : s.gShutdown = true → t.gShutdown = true)
    (hretry : s.globals.closeRetry = true → t.globals.closeRetry = true) : Requested t :=
  h.imp hshutdown hretry

theorem Listening.congr (h : Listening s) (heq : t.gConn = s.gConn) : Listening t := by
  obtain ⟨conn, hconn, hhandlers⟩ := h
  exact ⟨conn, heq.trans hconn, hhandlers⟩

section MainStep

theorem Duty.same (hs : Duty s) (hconn : t.gConn = s.gConn)
    (hshutdown : s.gShutdown = true → t.gShutdown = true)
    (hretry : s.globals.closeRetry = true → t.globals.closeRetry = true)
    (hconnected : t.pc = .connected → s.pc = .connected)
    (hepilogue : t.pc.epilogue = true →
      s.pc = .connected ∨ s.pc.epilogue = true ∨ s.gShutdown = true)
    (hlooping : t.pc.looping = true → s.pc.looping = true ∨ s.pc.waiting = true)
    (hwaiting : t.pc.waiting = true → s.pc.waiting = true) : Duty t where
  connected hpc := hconn.symm ▸ hs.connected (hconnected hpc)
  epilogue hpc := by
    rw [hconn]
    obtain hpc | hpc | hpc := hepilogue hpc
    · exact .inr (hs.connected hpc)
    · exact (hs.epilogue hpc).imp_left hshutdown
    · exact .inl (hshutdown hpc)
  looping hpc := by
    obtain hpc | hpc := hlooping hpc
    · exact (hs.looping hpc).imp (Requested.mono · hshutdown hretry) (Listening.congr · hconn)
    · exact .inl ((hs.waiting hpc).mono hshutdown hretry)
  waiting hpc := (hs.waiting (hwaiting hpc)).mono hshutdown hretry

/-- Where a flag is reset, or the duty to reconnect changes hands. -/
def Pc.hands : Pc → Bool
  | .reset | .returned _ | .closeListener _ | .closeListenerSet _ => true
  | _ => false

theorem mainStep_flags (dep : Deployment) (calls : Calls) (hreset : s.pc ≠ .reset) :
    (s.gShutdown = true → (mainStep dep calls s).gShutdown = true) ∧
      (s.globals.closeRetry = true → (mainStep dep calls s).globals.closeRetry = true) := by
  by_cases hdecides : s.pc.decides = false
  · have hsame : SameFlags s (mainStep dep calls s) := mainStep_sameFlags hdecides
    exact ⟨hsame.gShutdown, hsame.closeRetry.trans⟩
  unfold mainStep
  cases hpc : s.pc
  case enter =>
    obtain ⟨_, heq⟩ | ⟨_, _, heq⟩ | ⟨_, rtn, serverList, _, heq⟩ := enterStep_cases dep calls s
    all_goals
      dsimp only
      rw [heq]
      exact ⟨id, id⟩
  case gaveUp =>
    obtain ⟨_, heq⟩ | heq | ⟨_, _, rtn, serverList, _, heq⟩ := gaveUpStep_cases dep calls s
    all_goals
      dsimp only
      rw [heq]
      exact ⟨fun h ↦ by simp [h], id⟩
  case reset => exact absurd hpc hreset
  case loopListenerSet | pingMissSet | closeListenerSet => exact ⟨id, fun _ ↦ rfl⟩
  case returned created =>
    dsimp only
    repeat' split
    all_goals exact ⟨id, id⟩
  case retryCheck | loopTest | shutdownTest => exact ⟨id, id⟩
  all_goals
    rw [hpc] at hdecides
    exact absurd rfl hdecides

theorem mainStep_places (dep : Deployment) (calls : Calls) (huses : s.pc.uses = false)
    (hhands : s.pc.hands = false) :
    ((mainStep dep calls s).pc.looping = true → s.pc.looping = true ∨ s.pc.waiting = true) ∧
      ((mainStep dep calls s).pc.waiting = true → s.pc.waiting = true) := by
  unfold mainStep
  cases hpc : s.pc
  case connect | wait | close | release | online | handlers => rw [hpc] at huses; cases huses
  case reset | returned | closeListener | closeListenerSet => rw [hpc] at hhands; cases hhands
  case enter =>
    dsimp only
    obtain h | h | h := enterStep_pc dep calls s
    all_goals
      rw [h]
      exact ⟨nofun, nofun⟩
  case gaveUp =>
    dsimp only
    obtain h | h := gaveUpStep_pc dep calls s
    all_goals
      rw [h]
      exact ⟨nofun, nofun⟩
  -- the two callers of the wait go on at different places
  case downTest caller | downWait caller =>
    dsimp only
    cases caller
    all_goals
      split
      all_goals simp [Pc.looping, Pc.waiting, Caller.up, Caller.error]
  all_goals
    dsimp only [judgedStep, loopWaitStep, heartBeatStep, listenerStep, listenerSetStep]
    repeat' split
    all_goals simp [Pc.looping, Pc.waiting, hpc]

theorem Dutiful.plain (hs : Dutiful s) (huses : s.pc.uses = false) (hhands : s.pc.hands = false) :
    Duty (mainStep dep calls s) := by
  have hsame := mainStep_sameConn dep calls huses
  have hplaces := mainStep_places dep calls huses hhands
  have hreset : s.pc ≠ .reset := by
    intro hpc
    rw [hpc] at hhands
    cases hhands
  have hflags := mainStep_flags dep calls hreset
  refine hs.duty.same hsame.gConn hflags.1 hflags.2
    (absurd · hsame.connected) ?_ hplaces.1 hplaces.2
  intro hpc
  obtain h | h | ⟨_, h⟩ := hsame.epilogue hpc
  · exact .inl h
  · exact .inr (.inl h)
  · exact .inr (.inr h)

theorem duty_connect {ipv6 : Bool} (hpc : s.pc = .connect ipv6) :
    Duty (mainStep dep calls s) := by
  simp only [mainStep, hpc]
  obtain ⟨_, heq⟩ | ⟨_, heq⟩ | ⟨_, globals, sigterm, timer, _, heq⟩ :=
    nopollConnect_cases calls s ipv6
  all_goals
    rw [heq]
    exact .idle rfl

theorem Dutiful.wait (hs : Dutiful s) {ipv6 : Bool} (hpc : s.pc = .wait ipv6) :
    Duty (mainStep dep calls s) := by
  have hconn : s.gConn ≠ none := hs.owned.waiting ipv6 hpc
  simp only [mainStep, hpc]
  obtain ⟨_, heq⟩ | ⟨_, rtn, heq⟩ | ⟨_, redirect, _, _, heq⟩ | ⟨url, redirect, _, _, heq⟩ :=
    waitConnectionReady_cases calls s ipv6
  · rw [heq]
    exact .ofConnected rfl (mt Option.map_eq_none_iff.mp hconn)
  all_goals
    rw [heq]
    exact .idle rfl

theorem Dutiful.epilogueStep (hs : Dutiful s) (hpc : s.pc = .online ∨ s.pc = .handlers) :
    Duty (mainStep dep calls s) := by
  have hconn := hs.duty.epilogue (by obtain hpc | hpc := hpc <;> rw [hpc] <;> rfl)
  obtain hpc | hpc := hpc
  · simp only [mainStep, hpc]
    cases hserver : s.currentServer with
    | none =>
      exact .idle rfl
    | some slot =>
      exact .ofEpilogue (.inl rfl) hconn
  · simp only [mainStep, hpc]
    refine .ofReturned rfl (hconn.imp_right ?_)
    intro h
    obtain ⟨conn, hconn⟩ := Option.ne_none_iff_exists'.mp h
    exact ⟨{ conn with handlers := true }, by rw [hconn, Option.map_some], rfl⟩

/-- Only the close in the main loop's wait leaves something owed. -/
theorem Closer.owes_cases (k : Closer) :
    k = .down .mainLoop ∨ k.next.owes = false ∧ (Pc.release k).owes = false := by
  cases k with
  | down caller =>
    cases caller with
    | mainLoop => exact .inl rfl
    | keepTrying => exact .inr ⟨rfl, rfl⟩
  | attempt | closeRetry | final => exact .inr ⟨rfl, rfl⟩

theorem Dutiful.close (hs : Dutiful s) {k : Closer} (hpc : s.pc = .close k)
    (hhandler : calls.closeHandler = true) : Duty (mainStep dep calls s) := by
  simp only [mainStep, closeStep, hpc]
  cases hconn : s.gConn with
  | none =>
    obtain rfl | ⟨hnext, _⟩ := k.owes_cases
    · obtain h | ⟨conn, hsome, _⟩ := hs.duty.looping (by rw [hpc]; rfl)
      · exact .ofWaiting rfl h
      · rw [hconn] at hsome
        cases hsome
    · exact .idle hnext
  | some conn =>
    dsimp only
    rw [hhandler]
    by_cases hhandlers : conn.handlers = true
    · rw [if_pos ⟨hhandlers, rfl⟩]
      exact .idle rfl
    · rw [if_neg (fun h ↦ hhandlers h.1)]
      obtain rfl | ⟨_, hrelease⟩ := k.owes_cases
      · obtain h | ⟨conn', hsome, hset⟩ := hs.duty.looping (by rw [hpc]; rfl)
        · exact .ofWaiting rfl h
        · rw [hconn] at hsome
          obtain rfl := Option.some.inj hsome
          exact absurd hset hhandlers
      · exact .idle hrelease

theorem duty_closeListener {k : Closer} (hpc : s.pc = .closeListener k)
    (hok : k = .down .mainLoop →
      s.interfaceDownEvent = false ∨ s.globals.closeRetry = true ∨ s.gShutdown = true) :
    Duty (mainStep dep calls s) := by
  simp only [mainStep, listenerStep, hpc]
  by_cases hdown : s.interfaceDownEvent = true
  · rw [if_pos hdown]
    obtain rfl | ⟨_, hrelease⟩ := k.owes_cases
    · obtain h | h | h := hok rfl
      · exact absurd (h.symm.trans hdown) Bool.false_ne_true
      · exact .ofWaiting rfl (.inr (by simp [h]))
      · exact .ofWaiting rfl (.inl h)
    · exact .idle hrelease
  · rw [if_neg hdown]
    exact .idle rfl

theorem Dutiful.release (hs : Dutiful s) {k : Closer} (hpc : s.pc = .release k) :
    Duty (mainStep dep calls s) := by
  simp only [mainStep, releaseStep, hpc]
  obtain rfl | ⟨hnext, _⟩ := k.owes_cases
  · exact .ofWaiting rfl (hs.duty.waiting (by rw [hpc]; rfl))
  · exact .idle hnext

theorem Dutiful.returned (hs : Dutiful s) {created : Bool} (hpc : s.pc = .returned created) :
    Duty (mainStep dep calls s) := by
  simp only [mainStep, hpc]
  cases created with
  | true =>
    have hlooping := hs.duty.looping (by rw [hpc]; rfl)
    by_cases hstarted : s.started = true
    · rw [if_pos hstarted]
      exact .ofLooping (.inl rfl) hlooping
    · rw [if_neg hstarted, if_pos rfl]
      exact .ofLooping (.inr rfl) hlooping
  | false =>
    by_cases hstarted : s.started = true
    · have hshutdown := hs.known.refused hpc hstarted
      rw [if_pos hstarted]
      exact .ofLooping (.inl rfl) (.inl (.inl hshutdown))
    · rw [if_neg hstarted, if_neg Bool.false_ne_true]
      exact .idle rfl

theorem Dutiful.mainStep (hs : Dutiful s) (hhandler : CallsHandler s (.main calls))
    (hok : HandlerHears s (.main calls)) : Duty (mainStep dep calls s) := by
  by_cases hplain : s.pc.uses = false ∧ s.pc.hands = false
  · exact hs.plain hplain.1 hplain.2
  cases hpc : s.pc
  case connect ipv6 => exact duty_connect hpc
  case wait ipv6 => exact hs.wait hpc
  case online => exact hs.epilogueStep (.inl hpc)
  case handlers => exact hs.epilogueStep (.inr hpc)
  case close k => exact hs.close hpc (hhandler calls k rfl hpc)
  case closeListener k => exact duty_closeListener hpc fun hk ↦ hok calls rfl (hk ▸ hpc)
  case release k => exact hs.release hpc
  case returned created => exact hs.returned hpc
  case reset =>
    have hconn := hs.duty.epilogue (by rw [hpc]; rfl)
    simp only [Connection.mainStep, hpc]
    exact .ofEpilogue (.inr rfl) hconn
  case closeListenerSet k =>
    simp only [Connection.mainStep, listenerSetStep, hpc]
    obtain rfl | ⟨_, hrelease⟩ := k.owes_cases
    · exact .ofWaiting rfl (.inr rfl)
    · exact .idle hrelease
  all_goals
    rw [hpc] at hplain
    exact absurd ⟨rfl, rfl⟩ hplain

end MainStep

theorem Dutiful.step (hs : Dutiful s) (hhandler : CallsHandler s a) (hok : HandlerHears s a)
    (h : Step dep s a t) : Dutiful t := by
  obtain ⟨calls, rfl, rfl⟩ | ⟨hother, haside⟩ := step_cases h
  · exact ⟨hs.owned.mainStep, hs.known.mainStep, hs.mainStep hhandler hok⟩
  have hknown : SameFlags s { t with globals := s.globals } :=
    Aside.sameFlags { haside with } rfl
  have hretry : s.globals.closeRetry = true → t.globals.closeRetry = true := by
    obtain ⟨_, _, hset⟩ | ⟨hsame, _⟩ := aside_closeRetry false hother h
    · exact fun _ ↦ hset
    · exact hsame.trans
  have hknown := hs.known.sameFlags hknown
  refine ⟨hs.owned.aside haside, ⟨hknown.refused, hknown.defaults⟩,
    hs.duty.same haside.gConn haside.gShutdown hretry ?_ ?_ ?_ ?_⟩
  all_goals rw [haside.pc]
  · exact id
  · exact fun hpc ↦ .inr (.inl hpc)
  · exact .inl
  · exact id

section Runs

def handled : Calls := { quiet with closeHandler := true }

/-- The interface goes down in the loop, up to the close handler of the connection. -/
def downRun : List Action :=
  List.replicate 12 (.main quiet) ++ .setInterfaceDown :: List.replicate 2 (.main handled)

def lostRun : List Action :=
  downRun ++ List.replicate 3 (.main handled) ++ .resetInterfaceDown ::
    List.replicate 3 (.main handled)

def heardRun : List Action :=
  downRun ++ .resetInterfaceDown :: List.replicate 17 (.main handled)

def callsHandler (x : State × Action) : Bool :=
  match x.2, x.1.pc with
  | .main calls, .close _ => calls.closeHandler
  | _, _ => true

def handlerHears (x : State × Action) : Bool :=
  match x.2, x.1.pc with
  | .main _, .closeListener _ => !x.1.interfaceDownEvent
  | _, _ => true

theorem every_callsHandler {tr : List (State × Action)} (h : tr.all callsHandler = true) :
    Every CallsHandler tr := by
  intro x hx calls k ha hpc
  have hcalls := List.all_eq_true.mp h x hx
  unfold callsHandler at hcalls
  rw [ha, hpc] at hcalls
  exact hcalls

theorem every_handlerHears {tr : List (State × Action)} (h : tr.all handlerHears = true) :
    Every HandlerHears tr := by
  intro x hx calls ha hpc
  have hhears := List.all_eq_true.mp h x hx
  unfold handlerHears at hhears
  rw [ha, hpc] at hhears
  exact .inl (by simpa using hhears)

end Runs

end Parodus.Connection
