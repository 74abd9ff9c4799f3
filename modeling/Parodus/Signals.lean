import Parodus.Connection.Machine
import Parodus.Foundation.Deadlocks

namespace Parodus.Signals

open Foundation Foundation.Runs Foundation.Handlers

/-- `interface_down_mut` and `backoff_delay_mut`, each with its condition variable. -/
inductive Mutex
  | interfaceDown
  | backoffDelay
  deriving DecidableEq

structure Globals where
  shutdownReason : CString
  gShutdown : Bool
  interfaceDownEvent : Bool
  deriving DecidableEq

inductive Act
  | setGlobalShutdownReason (reason : CString)
  | setGShutdown
  | readInterfaceDownEvent
  | writeInterfaceDownEvent (value : Bool)
  deriving DecidableEq

def Act.effect : Act → Globals → Globals
  | .setGlobalShutdownReason reason, g => { g with shutdownReason := reason }
  | .setGShutdown, g => { g with gShutdown := true }
  | .readInterfaceDownEvent, g => g
  | .writeInterfaceDownEvent value, g => { g with interfaceDownEvent := value }

abbrev Code := List (Op Mutex Act)

def getInterfaceDownEvent : Code :=
  [.lock .interfaceDown, .act .readInterfaceDownEvent, .unlock .interfaceDown]

def resetInterfaceDownEvent : Code :=
  [.lock .interfaceDown, .act (.writeInterfaceDownEvent false), .notify .interfaceDown,
    .unlock .interfaceDown]

def setInterfaceDownEvent : Code :=
  [.lock .interfaceDown, .act (.writeInterfaceDownEvent true), .unlock .interfaceDown]

/-- The body of the loop, behind its test; a wait that fails returns with the mutex. -/
def waitWhileInterfaceDown (fails : Bool) : Code :=
  if fails then [.lock .interfaceDown, .unlock .interfaceDown]
  else [.lock .interfaceDown, .wait .interfaceDown, .unlock .interfaceDown]

def terminateBackoffDelay : Code :=
  [.lock .backoffDelay, .notify .backoffDelay, .unlock .backoffDelay]

/-- The delay itself, behind the choice of its length. -/
def backoffDelay (fails : Bool) : Code :=
  if fails then [.lock .backoffDelay, .unlock .backoffDelay]
  else [.lock .backoffDelay, .wait .backoffDelay, .unlock .backoffDelay]

def shutdownSocketConnection (reason : CString) : Code :=
  .act (.setGlobalShutdownReason reason) :: .act .setGShutdown ::
    (resetInterfaceDownEvent ++ terminateBackoffDelay)

inductive Signal
  | sigterm
  | sigint
  | sigusr1
  | sigusr2
  | sigquit
  | sighup
  | sigalrm
  | sigsegv
  | sigbus
  | sigfpe
  | sigill
  | sigchld
  | sigpipe
  deriving DecidableEq

/-- The signals for which `main` installs the handler. -/
def installed (includeBreakpad : Bool) : List Signal :=
  [.sigterm, .sigint, .sigusr1, .sigusr2, .sigquit, .sighup, .sigalrm] ++
    if includeBreakpad then [] else [.sigsegv, .sigbus, .sigfpe, .sigill]

def sigHandler : Signal → Code
  | .sigint => shutdownSocketConnection "parodus_stopping".toList
  | .sigusr1 => shutdownSocketConnection "system_restarting".toList
  | .sigusr2 => []
  | .sigterm => shutdownSocketConnection "SIGTERM".toList
  | .sigchld => []
  | .sigpipe => []
  | .sigalrm => []
  | _ => shutdownSocketConnection "parodus_stopping".toList

/-- The routines that use the two mutexes. -/
inductive Routine
  | getInterfaceDownEvent
  | resetInterfaceDownEvent
  | setInterfaceDownEvent
  | waitWhileInterfaceDown (fails : Bool)
  | terminateBackoffDelay
  | backoffDelay (fails : Bool)

def Routine.code : Routine → Code
  | .getInterfaceDownEvent => Signals.getInterfaceDownEvent
  | .resetInterfaceDownEvent => Signals.resetInterfaceDownEvent
  | .setInterfaceDownEvent => Signals.setInterfaceDownEvent
  | .waitWhileInterfaceDown fails => Signals.waitWhileInterfaceDown fails
  | .terminateBackoffDelay => Signals.terminateBackoffDelay
  | .backoffDelay fails => Signals.backoffDelay fails

/-- The signals of which `sig_handler` is more than a line in the log. -/
def Signal.asksShutdown : Signal → Bool
  | .sigusr2 | .sigchld | .sigpipe | .sigalrm => false
  | _ => true

theorem sigHandler_cases (signal : Signal) :
    signal.asksShutdown = false ∧ sigHandler signal = [] ∨ signal.asksShutdown = true ∧
      ∃ reason, sigHandler signal = shutdownSocketConnection reason := by
  cases signal with
  | sigusr2 | sigchld | sigpipe | sigalrm => exact .inl ⟨rfl, rfl⟩
  | _ => exact .inr ⟨rfl, _, rfl⟩

theorem sound_routine (routine : Routine) : Sound routine.code ∧ held routine.code = none := by
  cases routine with
  | waitWhileInterfaceDown fails | backoffDelay fails =>
    cases fails with
    | false => exact ⟨⟨rfl, rfl, rfl, trivial⟩, rfl⟩
    | true => exact ⟨⟨rfl, rfl, trivial⟩, rfl⟩
  | _ => exact ⟨⟨rfl, rfl, trivial⟩, rfl⟩

theorem sound_shutdownSocketConnection (reason : CString) :
    Sound (shutdownSocketConnection reason) ∧ held (shutdownSocketConnection reason) = none :=
  ⟨⟨rfl, rfl, rfl, rfl, trivial⟩, rfl⟩

theorem sound_sigHandler (signal : Signal) :
    Sound (sigHandler signal) ∧ held (sigHandler signal) = none := by
  obtain ⟨-, h⟩ | ⟨-, reason, h⟩ := sigHandler_cases signal
  · rw [h]
    exact ⟨trivial, rfl⟩
  · rw [h]
    exact sound_shutdownSocketConnection reason

theorem lock_mem_shutdownSocketConnection (reason : CString) (m : Mutex) :
    .lock m ∈ shutdownSocketConnection reason := by
  cases m <;> simp [shutdownSocketConnection, resetInterfaceDownEvent, terminateBackoffDelay]

abbrev Delivered (includeBreakpad : Bool) := { signal // signal ∈ installed includeBreakpad }

def program (includeBreakpad : Bool) :
    Program Routine (Delivered includeBreakpad) Mutex Act where
  routine := Routine.code
  handler signal := sigHandler signal.1
  routine_sound := sound_routine
  handler_sound signal := sound_sigHandler signal.1

/-- Any number of threads, each of which may call the routines and be interrupted at any point. -/
abbrev Threads (T : Type*) (includeBreakpad : Bool) :=
  State T (Delivered includeBreakpad) Mutex Act Globals

abbrev Event (T : Type*) (includeBreakpad : Bool) := Action T Routine (Delivered includeBreakpad)

section Runs

variable {T : Type*} {includeBreakpad : Bool} {s t : Threads T includeBreakpad}

/-- The main thread's state with these globals. -/
def Globals.onto (g : Globals) (m : Connection.State) : Connection.State :=
  { m with gShutdown := g.gShutdown, interfaceDownEvent := g.interfaceDownEvent }

/-- The main thread sees an act as one step of its environment, or not at all. -/
theorem effect_onto (dep : Connection.Deployment) (m : Connection.State) (g : Globals) (x : Act) :
    ∃ tr, Run (Connection.Step dep) (g.onto m) tr ((x.effect g).onto m) := by
  cases x with
  | setGlobalShutdownReason | readInterfaceDownEvent => exact ⟨[], .nil _⟩
  | setGShutdown => exact ⟨[(g.onto m, .setShutdown)], .cons rfl (.nil _)⟩
  | writeInterfaceDownEvent value =>
    cases value with
    | false => exact ⟨[(g.onto m, .resetInterfaceDown)], .cons rfl (.nil _)⟩
    | true => exact ⟨[(g.onto m, .setInterfaceDown)], .cons rfl (.nil _)⟩

theorem run_onto [DecidableEq T] (dep : Connection.Deployment) (m : Connection.State)
    {tr : List (Threads T includeBreakpad × Event T includeBreakpad)}
    (h : Run (Step (program includeBreakpad) Act.effect) s tr t) :
    ∃ tr', Run (Connection.Step dep) (s.globals.onto m) tr' (t.globals.onto m) := by
  induction h with
  | nil s => exact ⟨[], .nil _⟩
  | @cons s t u a tr hst _ ih =>
    obtain ⟨tr', hrun⟩ := ih
    obtain heq | ⟨x, heq⟩ := globals_step a hst
    · exact ⟨tr', heq ▸ hrun⟩
    · obtain ⟨first, hfirst⟩ := effect_onto dep m s.globals x
      rw [← heq] at hfirst
      exact ⟨first ++ tr', hfirst.append hrun⟩

/-- A signal that asks for a shutdown reaches a thread that holds neither mutex. -/
def Undisturbed (s : Threads T includeBreakpad) : Event T includeBreakpad → Prop
  | .interrupt thread signal => signal.1.asksShutdown = true →
      s.holder .interfaceDown ≠ some thread ∧ s.holder .backoffDelay ≠ some thread
  | _ => True

theorem clear_iff (a : Event T includeBreakpad) :
    Clear (program includeBreakpad) s a ↔ Undisturbed s a := by
  cases a with
  | exec | wakeUp | call => exact Iff.rfl
  | interrupt thread signal =>
    have hmutex : (∀ m, s.holder m ≠ some thread) ↔
        s.holder .interfaceDown ≠ some thread ∧ s.holder .backoffDelay ≠ some thread :=
      ⟨fun h ↦ ⟨h _, h _⟩, fun h m ↦ by cases m with
        | interfaceDown => exact h.1
        | backoffDelay => exact h.2⟩
    obtain ⟨hasks, hnil⟩ | ⟨hasks, reason, hcode⟩ := sigHandler_cases signal.1
    · exact ⟨fun _ h ↦ (nomatch hasks.symm.trans h), fun _ ↦ .inl hnil⟩
    · have hne : (program includeBreakpad).handler signal ≠ [] := by
        rw [show (program includeBreakpad).handler signal = _ from hcode]
        exact nofun
      exact ⟨fun h _ ↦ hmutex.mp (h.resolve_left hne), fun h ↦ .inr (hmutex.mpr (h hasks))⟩

theorem greedy_program (includeBreakpad : Bool) : (program includeBreakpad).Greedy := by
  intro signal hne m
  obtain ⟨-, hnil⟩ | ⟨-, reason, hcode⟩ := sigHandler_cases signal.1
  · exact absurd hnil hne
  · rw [show (program includeBreakpad).handler signal = _ from hcode]
    exact lock_mem_shutdownSocketConnection reason m

/-- Every thread can always come back from these routines exactly if no signal that asks for a
shutdown reaches a thread while it holds one of the two mutexes. -/
theorem run_canReturn_iff [DecidableEq T] {g : Globals}
    {tr : List (Threads T includeBreakpad × Event T includeBreakpad)}
    (h : Run (Step (program includeBreakpad) Act.effect) (start g) tr t) :
    Throughout (fun s ↦ ∀ thread, CanReturn (program includeBreakpad) Act.effect s thread) tr t ↔
      Every Undisturbed tr := by
  rw [canReturn_iff_clear (greedy_program includeBreakpad) h]
  exact forall₂_congr fun x _ ↦ clear_iff x.2

end Runs

/-- The main thread is interrupted between its lock and its wait. -/
def backoffRun : List (Event (Fin 2) false) :=
  [.call 0 (.backoffDelay false), .exec 0, .interrupt 0 ⟨.sigterm, by decide⟩]

theorem run_canReturn_iff_backoff : ∃ tr t,
    Run (Step (program false) Act.effect) (start ⟨[], false, false⟩) tr t ∧
      tr.map Prod.snd = backoffRun ∧ ¬ Every Undisturbed tr ∧
      ¬ Throughout (fun s ↦ ∀ thread, CanReturn (program false) Act.effect s thread) tr t := by
  have hrun := run_of_exec (show Runs.exec (step (program false) Act.effect)
    (start ⟨[], false, false⟩) backoffRun = some (_, _) from rfl)
  refine ⟨_, _, hrun, rfl, ?_⟩
  rw [run_canReturn_iff hrun, and_self]
  intro hevery
  have hlast : Undisturbed _ (.interrupt _ _) := hevery (_, .interrupt _ _)
    (List.mem_cons_of_mem _ (List.mem_cons_of_mem _ List.mem_cons_self))
  exact (hlast rfl).2 rfl

end Parodus.Signals
