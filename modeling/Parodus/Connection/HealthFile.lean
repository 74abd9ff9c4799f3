import Parodus.Connection.Backoff
import Parodus.Connection.Episode

namespace Parodus.Connection

open Config Foundation.Runs

def updateHealthFileIntervalSecs : ℤ := 240

/-- What the clock and the file calls yield in a step that uses them: the seconds that
`clock_gettime` reads, and `time` when the timer is initialised and when the file is written. -/
structure FileCalls where
  ts : ℕ
  startTime : ℕ
  timestamp : ℕ
  opened : Bool
  fdopened : Bool

def startLine (startTime timestamp : ℕ) : CString :=
  "\x7bSTART=".toList ++ Nat.toDigits 10 startTime ++ ",".toList ++ Nat.toDigits 10 timestamp ++
    "\x7d\n".toList

def stopLine (timestamp : ℕ) : CString :=
  "\x7bSTOP=".toList ++ Nat.toDigits 10 timestamp ++ "\x7d\n".toList

/-- The health file behind the call. It is truncated before the stream is opened. -/
def writeConnInProgFile (path : Option CString) (calls : FileCalls) (isStarting : Bool)
    (startTime : ℕ) (file : Option CString) : Option CString :=
  if path = none ∨ calls.opened = false then file
  else if calls.fdopened = false then some []
  else
    some (if isStarting then startLine startTime calls.timestamp else stopLine calls.timestamp)

/-- `backoff_timer_t` -/
structure ConnTimer where
  backoff : Option BackoffTimer
  ts : ℤ
  startTime : ℕ

/-- The timer of the call of `createNopollConnection` that is under way, and the health file.
Behind them stand when that call began, how many delays came in it and how many of them renewed
the file, when the last one came, and the last reading of the clock. -/
structure Health where
  timer : ConnTimer
  file : Option CString
  began : ℕ
  delays : ℕ
  renewed : ℕ
  checked : ℕ
  clock : ℕ

/-- A step of the process with its file calls. -/
abbrev Filed := Action × FileCalls

def FiledStep (dep : Deployment) (s : State) (a : Filed) (t : State) : Prop := Step dep s a.1 t

def startConnInProgress (dep : Deployment) (calls : FileCalls) (h : Health) : Health :=
  { h with
    file := writeConnInProgFile dep.cfg.connectionHealthFile calls true h.timer.startTime h.file }

def stopConnInProgress (dep : Deployment) (calls : FileCalls) (h : Health) : Health :=
  { h with file := writeConnInProgFile dep.cfg.connectionHealthFile calls false 0 h.file }

/-- The start of the connecting, behind the look for the servers. -/
def beginConnecting (dep : Deployment) (calls : FileCalls) (h : Health) : Health :=
  startConnInProgress dep calls { h with
    timer := ⟨some (initBackoffTimer (toInt dep.cfg.webpaBackoffMax)), calls.ts, calls.startTime⟩
    began := calls.ts
    delays := 0
    renewed := 0
    checked := calls.ts }

/-- What `backoff_delay` does before it waits. -/
def backoffDelay (dep : Deployment) (calls : FileCalls) (h : Health) : Health :=
  let h := { h with delays := h.delays + 1, checked := calls.ts }
  let h :=
    if (calls.ts : ℤ) - h.timer.ts ≥ updateHealthFileIntervalSecs then
      { startConnInProgress dep calls h with
        timer.ts := h.timer.ts + updateHealthFileIntervalSecs
        renewed := h.renewed + 1 }
    else h
  { h with timer.backoff := h.timer.backoff.bind fun timer ↦ (updateBackoffDelay timer).map (·.2) }

/-- Where the main thread uses the timer and the file. -/
def mainHealth (dep : Deployment) (calls : Calls) (file : FileCalls) (s : State) (h : Health) :
    Health :=
  match s.pc with
  | .enter => if (enterStep dep calls s).pc = .tryLoop then beginConnecting dep file h else h
  | .backoff => backoffDelay dep file h
  | .downTest .keepTrying => if s.interfaceDownEvent then h else startConnInProgress dep file h
  | .handlers => stopConnInProgress dep file h
  | _ => h

def observeHealth (dep : Deployment) (s : State) (a : Filed) (h : Health) : Health :=
  match a.1 with
  | .main calls => { mainHealth dep calls a.2 s h with clock := a.2.timestamp }
  | _ => { h with clock := a.2.timestamp }

/-- Before the first call nothing is read. -/
def initHealth : Health := ⟨⟨none, 0, 0⟩, none, 0, 0, 0, 0, 0⟩

inductive Phase
  | connecting
  | settled
  | over
  deriving DecidableEq

/-- From the search for the servers to the registration of the listeners, or not. -/
def Pc.phase : Pc → Phase
  | .tryLoop | .online | .reset | .handlers => .connecting
  | .aborted | .crashed => .over
  | pc => if pc.inEpisode then .connecting else .settled

/-- A file is configured, and can be written. -/
def Writable (dep : Deployment) (_ : State × Health) (a : Filed) : Prop :=
  dep.cfg.connectionHealthFile ≠ none ∧ a.2.opened = true ∧ a.2.fdopened = true

/-- The clock is not set back, in the step or since the step before. -/
def NotSetBack (x : State × Health) (a : Filed) : Prop :=
  x.2.clock ≤ a.2.ts ∧ a.2.ts ≤ a.2.startTime ∧ a.2.startTime ≤ a.2.timestamp

instance (dep : Deployment) (x : State × Health) (a : Filed) : Decidable (Writable dep x a) :=
  inferInstanceAs (Decidable (_ ∧ _ ∧ _))

instance (x : State × Health) (a : Filed) : Decidable (NotSetBack x a) :=
  inferInstanceAs (Decidable (_ ∧ _ ∧ _))

/-- While a connection is sought the file says since when, once there was one that none is. -/
structure HealthRight (x : State × Health) : Prop where
  connecting : x.1.pc.phase = .connecting →
    ∃ timestamp, x.2.file = some (startLine x.2.timer.startTime timestamp)
  settled : x.1.started = true → x.1.pc.phase = .settled →
    ∃ timestamp, x.2.file = some (stopLine timestamp)

/-- While a connection is sought, the file was at most so old when the last delay came, and the
delays have renewed it at most once in each interval. -/
structure HealthFresh (x : State × Health) : Prop where
  fresh : x.1.pc.phase = .connecting →
    ∃ timestamp : ℕ, x.2.file = some (startLine x.2.timer.startTime timestamp) ∧
      x.2.began ≤ x.2.timer.startTime ∧ x.2.checked < timestamp + updateHealthFileIntervalSecs
  seldom : x.1.pc.phase = .connecting →
    x.2.began + updateHealthFileIntervalSecs * x.2.renewed ≤ x.2.checked

/-- While a connection is sought, the delays that came since the call began have doubled the timer,
and nothing else has. -/
def DelaysBinary (dep : Deployment) (x : State × Health) : Prop :=
  x.1.pc.phase = .connecting → ∃ timer, x.2.timer.backoff = some timer ∧
    timer.delay = binaryDelay dep.cfg.webpaBackoffMax x.2.delays

variable {dep : Deployment} {calls : Calls} {s t : State}

theorem mainStep_phase (henter : s.pc ≠ .enter) (hhandlers : s.pc ≠ .handlers) :
    (mainStep dep calls s).pc.phase = s.pc.phase ∨ (mainStep dep calls s).pc.phase = .over := by
  unfold mainStep
  cases hpc : s.pc
  case enter => exact absurd hpc henter
  case handlers => exact absurd hpc hhandlers
  case gaveUp =>
    dsimp only
    obtain hnext | hnext := gaveUpStep_pc dep calls s
    · exact .inl ((congrArg Pc.phase hnext).trans rfl)
    · exact .inr (congrArg Pc.phase hnext)
  case connect ipv6 =>
    dsimp only
    obtain ⟨_, heq⟩ | ⟨_, heq⟩ | ⟨_, _, _, _, _, heq⟩ := nopollConnect_cases calls s ipv6
    · exact .inr (congrArg (Pc.phase ∘ State.pc) heq)
    · exact .inl (congrArg (Pc.phase ∘ State.pc) heq)
    · exact .inl (congrArg (Pc.phase ∘ State.pc) heq)
  case wait ipv6 =>
    dsimp only
    obtain ⟨_, heq⟩ | ⟨_, _, heq⟩ | ⟨_, _, _, _, heq⟩ | ⟨_, _, _, _, heq⟩ :=
      waitConnectionReady_cases calls s ipv6
    all_goals exact .inl (congrArg (Pc.phase ∘ State.pc) heq)
  case close k =>
    dsimp only [closeStep]
    repeat' split
    all_goals
      left
      cases k with
      | down caller => cases caller <;> rfl
      | _ => rfl
  case closeListener k | closeListenerSet k | release k =>
    dsimp only [listenerStep, listenerSetStep, releaseStep]
    repeat' split
    all_goals
      left
      cases k with
      | down caller => cases caller <;> rfl
      | _ => rfl
  case downTest caller | downWait caller =>
    dsimp only [goto_pc]
    split
    all_goals
      left
      cases caller <;> rfl
  all_goals
    dsimp only [judgedStep, loopWaitStep, heartBeatStep, listenerStep, listenerSetStep]
    repeat' split
    all_goals first
      | exact .inl rfl
      | exact .inr rfl
      | rw [hpc]; exact .inl rfl

section Kept

variable {h : Health} {file : FileCalls} {C S : Health → Prop} {x y : State × Health} {a : Filed}

/-- What is known while a connection is sought, and once one was found. -/
structure HealthInv (C S : Health → Prop) (x : State × Health) : Prop where
  connecting : x.1.pc.phase = .connecting → C x.2
  settled : x.1.pc.phase = .settled →
    S x.2 ∨ x.1.started = false ∧ (x.1.pc = .enter ∨ x.1.pc = .returned false)

/-- It stays known, whatever is done with the timer and the file. -/
structure KnownOn (dep : Deployment) (C S : Health → Prop) (file : FileCalls) (h : Health) :
    Prop where
  begins : C { beginConnecting dep file h with clock := file.timestamp }
  delays : C h → C { backoffDelay dep file h with clock := file.timestamp }
  writes : C h → C { startConnInProgress dep file h with clock := file.timestamp }
  stops : C h → S { stopConnInProgress dep file h with clock := file.timestamp }
  connecting : C h → C { h with clock := file.timestamp }
  settled : S h → S { h with clock := file.timestamp }

/-- A step that leaves the file alone stays in its part of the run. -/
theorem HealthInv.aside (hx : HealthInv C S x) (hknown : KnownOn dep C S file x.2)
    (hphase : t.pc.phase = x.1.pc.phase ∨ t.pc.phase = .over)
    (hsettled : x.1.started = false → x.1.pc = .enter ∨ x.1.pc = .returned false →
      t.pc.phase = .settled → t.started = false ∧ (t.pc = .enter ∨ t.pc = .returned false)) :
    HealthInv C S (t, { x.2 with clock := file.timestamp }) := by
  obtain hphase | hover := hphase
  · constructor
    · intro hconnecting
      exact hknown.connecting (hx.connecting (hphase.symm.trans hconnecting))
    · intro hpc
      obtain hfound | ⟨hstarted, hwhere⟩ := hx.settled (hphase.symm.trans hpc)
      · exact .inl (hknown.settled hfound)
      · exact .inr (hsettled hstarted hwhere hpc)
  · constructor
    · intro hconnecting
      rw [hover] at hconnecting
      cases hconnecting
    · intro hpc
      rw [hover] at hpc
      cases hpc

theorem healthInv_connecting (hpc : t.pc.phase = .connecting) (hc : C h) :
    HealthInv C S (t, h) where
  connecting _ := hc
  settled hsettled := by
    rw [hpc] at hsettled
    cases hsettled

theorem HealthInv.enter (hx : HealthInv C S x) (hknown : KnownOn dep C S file x.2)
    (hpc : x.1.pc = .enter) :
    HealthInv C S (enterStep dep calls x.1,
      { mainHealth dep calls file x.1 x.2 with clock := file.timestamp }) := by
  simp only [mainHealth, hpc]
  by_cases htry : (enterStep dep calls x.1).pc = .tryLoop
  · rw [if_pos htry]
    exact healthInv_connecting (congrArg Pc.phase htry) hknown.begins
  · rw [if_neg htry]
    have hstarted : (enterStep dep calls x.1).started = x.1.started := by
      obtain ⟨_, heq⟩ | ⟨_, _, heq⟩ | ⟨_, _, _, _, heq⟩ := enterStep_cases dep calls x.1
      all_goals rw [heq]
    obtain hnext | hreturned | hcrashed := enterStep_pc dep calls x.1
    · exact absurd hnext htry
    · refine hx.aside hknown (.inl ?_) ?_
      · rw [hreturned, hpc]
        rfl
      · intro hfalse _ _
        exact ⟨hstarted.trans hfalse, .inr hreturned⟩
    · refine hx.aside hknown (.inr (congrArg Pc.phase hcrashed)) ?_
      intro _ _ hsettled
      rw [hcrashed] at hsettled
      cases hsettled

/-- The interface that was waited for is up again, or still down. -/
theorem HealthInv.down (hx : HealthInv C S x) (hknown : KnownOn dep C S file x.2)
    (hpc : x.1.pc = .downTest .keepTrying) :
    HealthInv C S (mainStep dep calls x.1,
      { mainHealth dep calls file x.1 x.2 with clock := file.timestamp }) := by
  have hc := hx.connecting (congrArg Pc.phase hpc)
  simp only [mainStep, mainHealth, hpc]
  cases x.1.interfaceDownEvent with
  | true => exact healthInv_connecting rfl (hknown.connecting hc)
  | false => exact healthInv_connecting rfl (hknown.writes hc)

/-- The first return starts the threads, or ends the process. -/
theorem HealthInv.returned (hx : HealthInv C S x) (hknown : KnownOn dep C S file x.2)
    {created : Bool} (hpc : x.1.pc = .returned created) :
    HealthInv C S (mainStep dep calls x.1, { x.2 with clock := file.timestamp }) := by
  refine hx.aside hknown (mainStep_phase ?_ ?_) ?_
  · rw [hpc]
    exact Pc.noConfusion
  · rw [hpc]
    exact Pc.noConfusion
  · intro hstarted hwhere hsettled
    have hrefused : created = false := by
      rw [hpc] at hwhere
      obtain henter | hreturned := hwhere
      · cases henter
      · exact Pc.returned.inj hreturned
    simp only [mainStep, hpc, hstarted, hrefused] at hsettled
    cases hsettled

theorem mainHealth_eq (file : FileCalls) (h : Health) (henter : s.pc ≠ .enter)
    (hbackoff : s.pc ≠ .backoff) (hdown : s.pc ≠ .downTest .keepTrying)
    (hhandlers : s.pc ≠ .handlers) : mainHealth dep calls file s h = h := by
  unfold mainHealth
  split
  · exact absurd ‹_› henter
  · exact absurd ‹_› hbackoff
  · exact absurd ‹_› hdown
  · exact absurd ‹_› hhandlers
  · rfl

theorem HealthInv.main (hx : HealthInv C S x) (hknown : KnownOn dep C S file x.2) :
    HealthInv C S (mainStep dep calls x.1,
      { mainHealth dep calls file x.1 x.2 with clock := file.timestamp }) := by
  by_cases henter : x.1.pc = .enter
  · have hstep : mainStep dep calls x.1 = enterStep dep calls x.1 := by simp only [mainStep, henter]
    rw [hstep]
    exact hx.enter hknown henter
  by_cases hdown : x.1.pc = .downTest .keepTrying
  · exact hx.down hknown hdown
  by_cases hbackoff : x.1.pc = .backoff
  · have hc := hx.connecting (congrArg Pc.phase hbackoff)
    simp only [mainStep, mainHealth, hbackoff]
    exact healthInv_connecting rfl (hknown.delays hc)
  by_cases hhandlers : x.1.pc = .handlers
  · have hc := hx.connecting (congrArg Pc.phase hhandlers)
    simp only [mainStep, mainHealth, hhandlers]
    refine ⟨?_, fun _ ↦ .inl (hknown.stops hc)⟩
    intro hconnecting
    cases hconnecting
  rw [mainHealth_eq file x.2 henter hbackoff hdown hhandlers]
  by_cases hreturned : ∃ created, x.1.pc = .returned created
  · obtain ⟨created, hpc⟩ := hreturned
    exact hx.returned hknown hpc
  · refine hx.aside hknown (mainStep_phase henter hhandlers) ?_
    rintro _ (hpc | hpc)
    · exact absurd hpc henter
    · exact absurd ⟨false, hpc⟩ hreturned

theorem HealthInv.step (hx : HealthInv C S x) (hknown : KnownOn dep C S a.2 x.2)
    (hstep : Observed (FiledStep dep) (observeHealth dep) x a y) : HealthInv C S y := by
  obtain ⟨t, h⟩ := y
  obtain ⟨hst, rfl⟩ := hstep
  dsimp only at hst
  obtain ⟨calls, ha, rfl⟩ | ⟨hother, haside⟩ := step_cases hst
  · simp only [observeHealth, ha]
    exact hx.main hknown
  · have hsame : observeHealth dep x.1 a x.2 = { x.2 with clock := a.2.timestamp } := by
      unfold observeHealth
      split
      · exact absurd ‹_› (hother _)
      · rfl
    rw [hsame]
    refine hx.aside hknown (.inl (congrArg Pc.phase haside.pc)) ?_
    rw [haside.pc, haside.started]
    exact fun hstarted hwhere _ ↦ ⟨hstarted, hwhere⟩

theorem healthInv_init : HealthInv C S (init, initHealth) where
  connecting hpc := by cases hpc
  settled _ := .inr ⟨rfl, .inl rfl⟩

end Kept

section File

variable {h : Health} {file : FileCalls} {timestamp : ℕ} {x : State × Health} {a : Filed}

def Stopped (h : Health) : Prop := ∃ timestamp, h.file = some (stopLine timestamp)

theorem writeConnInProgFile_of_writable (hok : Writable dep x a) (isStarting : Bool)
    (startTime : ℕ) (text : Option CString) :
    writeConnInProgFile dep.cfg.connectionHealthFile a.2 isStarting startTime text =
      some (if isStarting then startLine startTime a.2.timestamp else stopLine a.2.timestamp) := by
  obtain ⟨hpath, hopened, hfdopened⟩ := hok
  rw [writeConnInProgFile, if_neg, if_neg]
  · rw [Bool.not_eq_false]
    exact hfdopened
  · rintro (hnone | hclosed)
    · exact hpath hnone
    · rw [hopened] at hclosed
      cases hclosed

theorem startConnInProgress_file (hok : Writable dep x a) (h : Health) :
    (startConnInProgress dep a.2 h).file = some (startLine h.timer.startTime a.2.timestamp) :=
  writeConnInProgFile_of_writable hok true _ _

theorem stopped_stopConnInProgress (hok : Writable dep x a) (h : Health) :
    Stopped { stopConnInProgress dep a.2 h with clock := a.2.timestamp } :=
  ⟨_, writeConnInProgFile_of_writable hok false _ _⟩

/-- A delay renews the file if it is due, and else leaves it. -/
theorem backoffDelay_file (hok : Writable dep x a)
    (hfile : h.file = some (startLine h.timer.startTime timestamp)) :
    (backoffDelay dep a.2 h).file = some (startLine (backoffDelay dep a.2 h).timer.startTime
      (if a.2.ts - h.timer.ts ≥ updateHealthFileIntervalSecs then a.2.timestamp
      else timestamp)) := by
  unfold backoffDelay
  dsimp only
  split
  · exact startConnInProgress_file hok { h with delays := h.delays + 1, checked := a.2.ts }
  · exact hfile

theorem knownOn_started (hok : Writable dep x a) (h : Health) :
    KnownOn dep (fun h ↦ ∃ timestamp, h.file = some (startLine h.timer.startTime timestamp))
      Stopped a.2 h where
  begins := ⟨_, startConnInProgress_file hok _⟩
  delays := fun ⟨_, hfile⟩ ↦ ⟨_, backoffDelay_file hok hfile⟩
  writes _ := ⟨_, startConnInProgress_file hok h⟩
  stops _ := stopped_stopConnInProgress hok h
  connecting := id
  settled := id

/-- With a clock that is not set back, a delay that does not renew the file finds it young. -/
structure Young (h : Health) (timestamp : ℕ) : Prop where
  file : h.file = some (startLine h.timer.startTime timestamp)
  began : h.began ≤ h.timer.startTime
  ts : h.timer.ts = h.began + updateHealthFileIntervalSecs * h.renewed
  reached : h.timer.ts ≤ h.checked
  written : h.timer.ts ≤ timestamp
  checked : h.checked < timestamp + updateHealthFileIntervalSecs
  checkedBefore : h.checked ≤ h.clock
  writtenBefore : timestamp ≤ h.clock

theorem Young.delay (hyoung : Young h timestamp) (hok : Writable dep x a)
    (hbefore : h.clock ≤ a.2.ts) (hfile : a.2.ts ≤ a.2.timestamp) :
    Young { backoffDelay dep a.2 h with clock := a.2.timestamp }
      (if a.2.ts - h.timer.ts ≥ updateHealthFileIntervalSecs then a.2.timestamp
      else timestamp) := by
  have htext := backoffDelay_file hok hyoung.file
  obtain ⟨_, hbegan, hts, hreached, hwritten, hchecked, _, _⟩ := hyoung
  unfold backoffDelay at htext ⊢
  dsimp only at htext ⊢
  dsimp only [updateHealthFileIntervalSecs] at hts hchecked
  split
  case isTrue hdue =>
    rw [if_pos hdue, if_pos hdue] at htext
    dsimp only [updateHealthFileIntervalSecs] at hdue
    constructor
    case file => exact htext
    all_goals
      dsimp only [startConnInProgress, updateHealthFileIntervalSecs]
      omega
  case isFalse hyoung =>
    rw [if_neg hyoung, if_neg hyoung] at htext
    dsimp only [updateHealthFileIntervalSecs] at hyoung
    constructor
    case file => exact htext
    all_goals
      dsimp only [updateHealthFileIntervalSecs]
      omega

theorem Young.write (hyoung : Young h timestamp) (hok : Writable dep x a)
    (hbefore : h.clock ≤ a.2.timestamp) :
    Young { startConnInProgress dep a.2 h with clock := a.2.timestamp } a.2.timestamp := by
  obtain ⟨_, hbegan, hts, hreached, hwritten, hchecked, _, _⟩ := hyoung
  dsimp only [updateHealthFileIntervalSecs] at hts hchecked
  constructor
  case file => exact startConnInProgress_file hok h
  all_goals
    dsimp only [startConnInProgress, updateHealthFileIntervalSecs]
    omega

theorem knownOn_young (hok : Writable dep x a) (hclock : NotSetBack x a) :
    KnownOn dep (fun h ↦ ∃ timestamp, Young h timestamp) Stopped a.2 x.2 := by
  obtain ⟨hbefore, hstart, htimestamp⟩ := hclock
  constructor
  case begins =>
    refine ⟨a.2.timestamp, startConnInProgress_file hok _, ?_, ?_, ?_, ?_, ?_, ?_, ?_⟩
    all_goals
      dsimp only [beginConnecting, startConnInProgress, updateHealthFileIntervalSecs]
      omega
  case delays => exact fun ⟨_, hyoung⟩ ↦ ⟨_, hyoung.delay hok hbefore (hstart.trans htimestamp)⟩
  case writes =>
    exact fun ⟨_, hyoung⟩ ↦ ⟨_, hyoung.write hok ((hbefore.trans hstart).trans htimestamp)⟩
  case stops => exact fun _ ↦ stopped_stopConnInProgress hok x.2
  case connecting =>
    rintro ⟨timestamp, hfile, hbegan, hts, hreached, hwritten, hchecked, _, _⟩
    refine ⟨timestamp, hfile, hbegan, hts, hreached, hwritten, hchecked, ?_, ?_⟩
    all_goals
      dsimp only
      omega
  case settled => exact id

end File

section Delays

variable {h : Health} {file : FileCalls}

/-- The delays of the call have brought the timer where it is. -/
def Doubled (dep : Deployment) (h : Health) : Prop :=
  h.timer.backoff =
    (callDelays h.delays (initBackoffTimer (toInt dep.cfg.webpaBackoffMax))).map (·.2)

theorem callDelays_succ (n : ℕ) (timer : BackoffTimer) :
    (callDelays (n + 1) timer).map (·.2) =
      ((callDelays n timer).map (·.2)).bind fun timer ↦ (updateBackoffDelay timer).map (·.2) := by
  rw [callDelays]
  cases callDelays n timer with
  | none => rfl
  | some called =>
    simp only [Option.bind_some, Option.map_map, Option.map_some]
    rfl

theorem knownOn_doubled (file : FileCalls) (h : Health) :
    KnownOn dep (Doubled dep) (fun _ ↦ True) file h where
  begins := rfl
  delays hdoubled := by
    unfold backoffDelay Doubled
    dsimp only
    split
    · exact (congrArg (Option.bind · _) hdoubled).trans (callDelays_succ h.delays _).symm
    · exact (congrArg (Option.bind · _) hdoubled).trans (callDelays_succ h.delays _).symm
  writes := id
  stops _ := trivial
  connecting := id
  settled := id

theorem Doubled.binary (hdoubled : Doubled dep h) (hmax : dep.cfg.webpaBackoffMax ≤ 31) :
    ∃ timer, h.timer.backoff = some timer ∧
      timer.delay = binaryDelay dep.cfg.webpaBackoffMax h.delays := by
  have hcount : toInt dep.cfg.webpaBackoffMax = dep.cfg.webpaBackoffMax :=
    Int.bmod_eq_of_le (by omega) (by omega)
  have hdoublings : doublings dep.cfg.webpaBackoffMax = dep.cfg.webpaBackoffMax - 1 := by
    unfold doublings
    omega
  unfold Doubled at hdoubled
  rw [hcount, callDelays_eq _ _ (by omega), Option.map_some, hdoublings] at hdoubled
  refine ⟨_, hdoubled, ?_⟩
  rw [binaryDelay_eq, Nat.add_comm 1]
  dsimp only [doubledTimer]
  rw [Nat.cast_sub Nat.one_le_two_pow, Nat.cast_pow, Nat.cast_one, Nat.cast_ofNat]

end Delays

section Inputs

def filedDeployment : Deployment :=
  { cloudDeployment with
    cfg := { cloudDeployment.cfg with
      webpaBackoffMax := 5
      connectionHealthFile := some "/tmp/health".toList } }

/-- A step at that second, with a file that can be written. -/
def filedAt (sec : ℕ) (calls : Calls) : Filed := (.main calls, ⟨sec, sec, sec, true, true⟩)

/-- The first attempts fail, and five minutes later the delay begins. -/
def delayedRun : List Filed :=
  List.replicate 8 (filedAt 1000 refused) ++ [filedAt 1300 refused]

/-- The next attempt succeeds. -/
def connectedRun : List Filed := delayedRun ++ List.replicate 10 (filedAt 1310 quiet)

def watchHealth : State × Health → Filed → Option (State × Health) :=
  watch (fun s a ↦ step filedDeployment s a.1) (observeHealth filedDeployment)

end Inputs

section Runs

variable {x : State × Health} {tr : List ((State × Health) × Filed)}

/-- Over the whole run of the process, whatever the servers, the interface and the other threads
do. -/
theorem run_healthRight (h : Run (Observed (FiledStep dep) (observeHealth dep)) (init, initHealth)
    tr x) (hok : Every (Writable dep) tr) : Throughout HealthRight tr x := by
  have hright : ∀ x, HealthInv (fun h ↦ ∃ timestamp,
      h.file = some (startLine h.timer.startTime timestamp)) Stopped x → HealthRight x := by
    intro x hx
    refine ⟨hx.connecting, ?_⟩
    intro hstarted hpc
    obtain hstop | ⟨hnot, _⟩ := hx.settled hpc
    · exact hstop
    · rw [hstarted] at hnot
      cases hnot
  refine h.throughout_of_every hright ?_ healthInv_init hok
  exact fun _ _ _ hx hok ↦ hx.step (knownOn_started hok _)

theorem run_healthRight_connected : ∃ tr x,
    Run (Observed (FiledStep filedDeployment) (observeHealth filedDeployment))
      (init, initHealth) tr x ∧ x.1.pc = .loopWait ∧ x.2.file = some (stopLine 1310) ∧
      Throughout HealthRight tr x := by
  have hexec : (exec watchHealth (init, initHealth) connectedRun).map (fun r ↦
      (r.2.1.pc, r.2.2.file, r.1.all fun x ↦ decide (Writable filedDeployment x.1 x.2))) =
        some (.loopWait, some (stopLine 1310), true) := by
    simp only [watchHealth, filedDeployment, cloudDeployment, String.reduceToList]
    rfl
  obtain ⟨r, hr, heq⟩ := Option.map_eq_some_iff.mp hexec
  obtain ⟨hpc, heq⟩ := Prod.mk.inj heq
  obtain ⟨hfile, hall⟩ := Prod.mk.inj heq
  have hrun := run_of_exec_watch hr
  refine ⟨r.1, r.2, hrun, hpc, hfile, run_healthRight hrun ?_⟩
  exact fun x hx ↦ of_decide_eq_true (List.all_eq_true.mp hall x hx)

theorem run_healthFresh (h : Run (Observed (FiledStep dep) (observeHealth dep)) (init, initHealth)
    tr x) (hok : Every (fun x a ↦ Writable dep x a ∧ NotSetBack x a) tr) :
    Throughout HealthFresh tr x := by
  have hfresh : ∀ x, HealthInv (fun h ↦ ∃ timestamp, Young h timestamp) Stopped x →
      HealthFresh x := by
    intro x hx
    constructor
    · intro hpc
      obtain ⟨timestamp, hyoung⟩ := hx.connecting hpc
      exact ⟨timestamp, hyoung.file, hyoung.began, hyoung.checked⟩
    · intro hpc
      obtain ⟨_, hyoung⟩ := hx.connecting hpc
      exact hyoung.ts ▸ hyoung.reached
  refine h.throughout_of_every hfresh ?_ healthInv_init hok
  exact fun _ _ _ hx hok ↦ hx.step (knownOn_young hok.1 hok.2)

theorem run_healthFresh_renewed : ∃ tr x,
    Run (Observed (FiledStep filedDeployment) (observeHealth filedDeployment))
      (init, initHealth) tr x ∧ x.1.pc = .gaveUp ∧ x.2.file = some (startLine 1000 1300) ∧
      Throughout HealthFresh tr x := by
  have hexec : (exec watchHealth (init, initHealth) delayedRun).map (fun r ↦
      (r.2.1.pc, r.2.2.file, r.1.all fun x ↦
        decide (Writable filedDeployment x.1 x.2 ∧ NotSetBack x.1 x.2))) =
          some (.gaveUp, some (startLine 1000 1300), true) := by
    simp only [watchHealth, filedDeployment, cloudDeployment, String.reduceToList]
    rfl
  obtain ⟨r, hr, heq⟩ := Option.map_eq_some_iff.mp hexec
  obtain ⟨hpc, heq⟩ := Prod.mk.inj heq
  obtain ⟨hfile, hall⟩ := Prod.mk.inj heq
  have hrun := run_of_exec_watch hr
  refine ⟨r.1, r.2, hrun, hpc, hfile, run_healthFresh hrun ?_⟩
  exact fun x hx ↦ of_decide_eq_true (List.all_eq_true.mp hall x hx)

/-- Redirects, refusals and interfaces that go down leave the delays as they are, up to the
greatest maximum for which none overflows. -/
theorem run_delaysBinary (h : Run (Observed (FiledStep dep) (observeHealth dep)) (init, initHealth)
    tr x) (hmax : dep.cfg.webpaBackoffMax ≤ 31) : Throughout (DelaysBinary dep) tr x := by
  have hkeep := h.invariant (P := HealthInv (Doubled dep) fun _ ↦ True)
    (fun _ _ _ hx ↦ hx.step (knownOn_doubled _ _)) healthInv_init
  refine ⟨?_, ?_⟩
  · exact fun x hmem hpc ↦ ((hkeep.1 x hmem).connecting hpc).binary hmax
  · exact fun hpc ↦ (hkeep.2.connecting hpc).binary hmax

theorem run_delaysBinary_redelayed : ∃ tr x,
    Run (Observed (FiledStep filedDeployment) (observeHealth filedDeployment))
      (init, initHealth) tr x ∧ x.2.delays = 3 ∧
      ∃ timer, x.2.timer.backoff = some timer ∧ timer.delay = binaryDelay 5 3 := by
  have hexec : (exec watchHealth (init, initHealth)
      (List.replicate 27 (filedAt 1000 refused))).map (fun r ↦ (r.2.1.pc, r.2.2.delays)) =
        some (.gaveUp, 3) := by
    simp only [watchHealth, filedDeployment, cloudDeployment, String.reduceToList]
    rfl
  obtain ⟨r, hr, heq⟩ := Option.map_eq_some_iff.mp hexec
  obtain ⟨hpc, hdelays⟩ := Prod.mk.inj heq
  have hrun := run_of_exec_watch hr
  have hbinary := run_delaysBinary hrun (by decide)
  have hnow := hbinary.2 (congrArg Pc.phase hpc)
  rw [hdelays] at hnow
  exact ⟨r.1, r.2, hrun, hdelays, hnow⟩

end Runs

end Parodus.Connection
