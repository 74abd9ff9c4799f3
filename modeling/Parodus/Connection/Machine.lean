import Parodus.Connection.Reconnect
import Parodus.Connection.Servers
import Parodus.Foundation.Runs

namespace Parodus.Connection

open Config

inductive CloudStatus
  | online
  | offline
  deriving DecidableEq

/-- An opened connection: its number, whether its handshake is completed, and
whether the listeners were registered for it. -/
structure Conn where
  id : ℕ
  ready : Bool
  handlers : Bool
  deriving DecidableEq

structure Timespec where
  sec : ℤ
  nsec : ℤ
  deriving DecidableEq

def timespecDiff (start stop : Timespec) : Timespec :=
  if stop.nsec - start.nsec < 0 then
    ⟨stop.sec - start.sec - 1, stop.nsec - start.nsec + 1000000000⟩
  else ⟨stop.sec - start.sec, stop.nsec - start.nsec⟩

/-- The time between two readings of the clock, as an `int`. -/
def timeTakenMs (start stop : Timespec) : ℤ :=
  let diff := timespecDiff start stop
  Int.bmod (diff.sec * 1000 + diff.nsec.tdiv 1000000) 4294967296

def timeValDiff (startTime finishTime : Timespec) : ℤ :=
  (finishTime.sec - startTime.sec) * 1000 + (finishTime.nsec - startTime.nsec).tdiv 1000000

/-- How an attempt failed: to be repeated at once, or not. -/
inductive WaitRtn
  | actionRetry
  | fail
  deriving DecidableEq

/-- The two callers of `wait_while_interface_down`. -/
inductive Caller
  | keepTrying
  | mainLoop
  deriving DecidableEq

/-- The calls of `close_and_unref_connection`. -/
inductive Closer
  | attempt (ipv6 : Bool) (rtn : WaitRtn)
  | down (caller : Caller)
  | closeRetry
  | final
  deriving DecidableEq

/-- The points at which the main thread can be interrupted. -/
inductive Pc
  -- `createNopollConnection`
  | enter
  | tryLoop
  | gaveUp
  | connected
  | online
  | reset
  | handlers
  | returned (created : Bool)
  -- `keep_trying_to_connect` and `connect_and_wait`
  | keepTrying
  | connect (ipv6 : Bool)
  | wait (ipv6 : Bool)
  | judged (ipv6 : Bool) (rtn : WaitRtn)
  | afterFail
  | backoff
  -- `close_and_unref_connection`, and in it `listenerOnCloseMessage`
  | close (k : Closer)
  | closeListener (k : Closer)
  | closeListenerSet (k : Closer)
  | release (k : Closer)
  -- `wait_while_interface_down`
  | downTest (caller : Caller)
  | downWait (caller : Caller)
  -- the loop of `createSocketConnection`
  | loopWait
  | loopListener (timeMs : ℤ)
  | loopListenerSet (timeMs : ℤ)
  | heartBeat (timeMs : ℤ)
  | pingMiss
  | pingMissReason
  | pingMissSet
  | pingMissReset
  | interfaceCheck
  | retryCheck
  | disconnectCheck
  | disconnectSleep
  | loopTest
  | shutdownTest
  -- behind the loop
  | joining (waitError : Bool)
  | terminated
  | aborted
  | crashed
  deriving DecidableEq

/-- Where the CRUD thread is in an accepted cloud-disconnect request. -/
inductive CrudPc
  | idle
  | check (reason : CString)
  | setReason (reason : CString)
  | setStatus
  | setRetry
  deriving DecidableEq

/-- `opened` counts the connections opened so far, `closed` lists those closed. -/
structure State where
  pc : Pc
  crud : CrudPc
  started : Bool
  gShutdown : Bool
  sigterm : Bool
  interfaceDownEvent : Bool
  globals : ReconnectState
  heartBeatTimer : ℕ
  gConn : Option Conn
  opened : ℕ
  closed : List ℕ
  cloudStatus : Option CloudStatus
  serverList : ServerList
  currentServer : Option Slot
  connectTimer : Option Timespec
  deriving DecidableEq

inductive WaitResult
  | ready
  | status (waitStatus : ℤ) (redirectURL : CString)

/-- What the calls in a step of the main thread yield; a step uses those it makes. -/
structure Calls where
  find : FindCalls
  opens : Bool
  hostIp : ℤ
  now : Timespec
  connOk : Bool
  waitResult : WaitResult
  redirectAllocated : Bool
  closeHandler : Bool
  closeStatus : ℤ
  condWait : ℤ
  waitStart : Timespec
  waitStop : Timespec
  pinged : Bool
  closedByPeer : Bool

def State.goto (s : State) (pc : Pc) : State := { s with pc := pc }

/-- `find_servers` at either of its calls. -/
def lookup (dep : Deployment) (calls : Calls) (s : State) (next : FindRtn → State → State) :
    State :=
  match findServers dep calls.find s.serverList with
  | none => s.goto .crashed
  | some (rtn, serverList) => next rtn { s with serverList := serverList }

def enterStep (dep : Deployment) (calls : Calls) (s : State) : State :=
  let s := { s with currentServer := none, connectTimer := none }
  if serverIsNull s.serverList.defaults then
    lookup dep calls s fun rtn s ↦
      s.goto (if rtn = .invalidDefault then .returned false else .tryLoop)
  else s.goto .tryLoop

/-- The redirect is not used again. Without a JWT server the servers are looked up once more. -/
def gaveUpStep (dep : Deployment) (calls : Calls) (s : State) : State :=
  let s := { s with serverList.redirect := freeServer s.serverList.redirect }
  if dep.featureDnsQuery = true ∧ serverIsNull s.serverList.jwt = true then
    lookup dep calls s fun rtn s ↦
      { s with pc := .tryLoop, gShutdown := s.gShutdown || rtn = .invalidDefault }
  else s.goto .tryLoop

def connectTimeoutMs : ℤ := 15 * 60 * 1000

/-- `check_timer_expired`, and the timer that it leaves. -/
def checkTimerExpired (timer : Option Timespec) (now : Timespec) : Bool × Timespec :=
  match timer with
  | none => (false, now)
  | some startTime => (decide (timeValDiff startTime now ≥ connectTimeoutMs), startTime)

def nopollConnect (calls : Calls) (ipv6 : Bool) (s : State) : State :=
  match s.currentServer with
  | none => s.goto .crashed
  | some _ =>
    if calls.opens then
      { s with pc := .wait ipv6, gConn := some ⟨s.opened, false, false⟩, opened := s.opened + 1 }
    else if ipv6 = false ∧ calls.hostIp = -2 then
      let timer := checkTimerExpired s.connectTimer calls.now
      let s := { s with pc := .judged ipv6 .fail, gConn := none, connectTimer := some timer.2 }
      if timer.1 = true ∧ s.interfaceDownEvent = false then
        { s with
          globals := (s.globals.setGlobalReconnectReason
            "Dns_Res_webpa_reconnect".toList).setGlobalReconnectStatus true
          sigterm := true }
      else s
    else { s with pc := .judged ipv6 .fail, gConn := none }

def redirectStatus (waitStatus : ℤ) : Bool :=
  waitStatus == 307 || waitStatus == 302 || waitStatus == 303

def redirectPtr (redirectURL : CString) : CString :=
  (afterPrefix "Redirect:".toList redirectURL).getD redirectURL

/-- The redirect server takes the place of the old one, even if its url is bad. -/
def waitConnectionReady (calls : Calls) (ipv6 : Bool) (s : State) : State :=
  if calls.connOk = false then s.goto (.close (.attempt ipv6 .fail))
  else
    match calls.waitResult with
    | .ready => { s with pc := .connected, gConn := s.gConn.map fun c ↦ { c with ready := true } }
    | .status waitStatus redirectURL =>
      if redirectStatus waitStatus then
        let redirect := parseServerUrl calls.redirectAllocated (redirectPtr redirectURL)
          (freeServer s.serverList.redirect)
        let serverList := { s.serverList with redirect := redirect }
        if redirect.allowInsecure < 0 then
          { s with pc := .close (.attempt ipv6 .fail), serverList := serverList }
        else
          { s with
            pc := .close (.attempt ipv6 .actionRetry)
            serverList := serverList
            currentServer := some (getCurrentServer serverList) }
      else if waitStatus = 403 then s.goto (.close (.attempt ipv6 .actionRetry))
      else s.goto (.close (.attempt ipv6 .fail))

/-- IPv4 is tried after a failed attempt with IPv6, unless a flag or an insecure server
forbids it. -/
def judgedStep (dep : Deployment) (ipv6 : Bool) (rtn : WaitRtn) (s : State) : State :=
  match rtn with
  | .actionRetry => s.goto .keepTrying
  | .fail =>
    match s.currentServer with
    | none => s.goto .crashed
    | some slot =>
      if dep.cfg.flags = 0 ∧ (s.serverList.get slot).allowInsecure = 0 ∧ ipv6 = true then
        s.goto (.connect false)
      else s.goto .afterFail

def Closer.next : Closer → Pc
  | .attempt ipv6 rtn => .judged ipv6 rtn
  | .down caller => .downTest caller
  | .closeRetry => .disconnectCheck
  | .final => .terminated

def closeStep (calls : Calls) (k : Closer) (s : State) : State :=
  match s.gConn with
  | none => s.goto k.next
  | some conn =>
    { s with
      pc := if conn.handlers ∧ calls.closeHandler then .closeListener k else .release k
      closed := conn.id :: s.closed }

/-- The callers but the last set the global connection to null. -/
def releaseStep (k : Closer) (s : State) : State :=
  { s with
    pc := k.next
    cloudStatus := some .offline
    gConn := if k = .final then s.gConn else none }

/-- The first part of `listenerOnCloseMessage`; `set` is where it calls `set_close_retry`. -/
def listenerStep (calls : Calls) (set next : Pc) (s : State) : State :=
  { s with
    pc := if s.interfaceDownEvent then next else set
    globals := s.globals.setDefaultReason calls.closeStatus }

def listenerSetStep (next : Pc) (s : State) : State :=
  { s with pc := next, globals := s.globals.setCloseRetry }

def Caller.up : Caller → Pc
  | .keepTrying => .gaveUp
  | .mainLoop => .retryCheck

def Caller.error : Caller → Pc
  | .keepTrying => .gaveUp
  | .mainLoop => .joining true

/-- The listeners are called in `nopoll_loop_wait`. -/
def loopWaitStep (calls : Calls) (s : State) : State :=
  let timeMs := timeTakenMs calls.waitStart calls.waitStop
  let s := if calls.pinged then { s with heartBeatTimer := 0 } else s
  s.goto (if calls.closedByPeer then .loopListener timeMs else .heartBeat timeMs)

def webpaPingTimeoutMs (dep : Deployment) : ℕ := 1000 * dep.cfg.webpaPingTimeout % 4294967296

def heartBeatStep (dep : Deployment) (timeMs : ℤ) (s : State) : State :=
  if s.heartBeatTimer ≥ webpaPingTimeoutMs dep then s.goto .pingMiss
  else
    { s with
      pc := .interfaceCheck
      heartBeatTimer := (s.heartBeatTimer + (timeMs % 4294967296).toNat) % 4294967296 }

/-- One step of the main thread. -/
def mainStep (dep : Deployment) (calls : Calls) (s : State) : State :=
  match s.pc with
  | .enter => enterStep dep calls s
  | .tryLoop =>
    if s.gShutdown then s.goto .online
    else { s with pc := .keepTrying, currentServer := some (getCurrentServer s.serverList) }
  | .gaveUp => gaveUpStep dep calls s
  | .connected =>
    { s with pc := .online, serverList.redirect := freeServer s.serverList.redirect }
  | .online =>
    match s.currentServer with
    | none => s.goto .crashed
    | some _ => { s with pc := .reset, cloudStatus := some .online }
  | .reset => { s with pc := .handlers, globals := s.globals.resetCloseRetry }
  | .handlers =>
    { s with
      pc := .returned true
      heartBeatTimer := 0
      globals := (s.globals.setGlobalReconnectReason
        "webpa_process_starts".toList).setGlobalReconnectStatus false
      gConn := s.gConn.map fun c ↦ { c with handlers := true } }
  | .returned created =>
    if s.started then s.goto .loopTest
    else if created then { s with pc := .loopWait, started := true }
    else s.goto .aborted
  | .keepTrying =>
    if s.gShutdown then s.goto .gaveUp
    else s.goto (.connect (decide (dep.cfg.flags &&& ipv4Only ≠ ipv4Only)))
  | .connect ipv6 => nopollConnect calls ipv6 s
  | .wait ipv6 => waitConnectionReady calls ipv6 s
  | .judged ipv6 rtn => judgedStep dep ipv6 rtn s
  | .afterFail =>
    if s.interfaceDownEvent then s.goto (.close (.down .keepTrying)) else s.goto .backoff
  -- a delay that was taken ends the attempts too, as `rtn` is `CONN_WAIT_FAIL`
  | .backoff => s.goto .gaveUp
  | .close k => closeStep calls k s
  | .closeListener k => listenerStep calls (.closeListenerSet k) (.release k) s
  | .closeListenerSet k => listenerSetStep (.release k) s
  | .release k => releaseStep k s
  | .downTest caller => s.goto (if s.interfaceDownEvent then .downWait caller else caller.up)
  | .downWait caller =>
    s.goto (if calls.condWait ≠ 0 ∨ s.gShutdown = true then caller.error else .downTest caller)
  | .loopWait => loopWaitStep calls s
  | .loopListener timeMs => listenerStep calls (.loopListenerSet timeMs) (.heartBeat timeMs) s
  | .loopListenerSet timeMs => listenerSetStep (.heartBeat timeMs) s
  | .heartBeat timeMs => heartBeatStep dep timeMs s
  | .pingMiss => s.goto (if s.globals.closeRetry then .pingMissReset else .pingMissReason)
  | .pingMissReason =>
    { s with
      pc := .pingMissSet
      globals :=
        (s.globals.setGlobalReconnectReason "Ping_Miss".toList).setGlobalReconnectStatus true }
  | .pingMissSet => { s with pc := .pingMissReset, globals := s.globals.setCloseRetry }
  | .pingMissReset => { s with pc := .interfaceCheck, heartBeatTimer := 0 }
  | .interfaceCheck =>
    s.goto (if s.interfaceDownEvent then .close (.down .mainLoop) else .retryCheck)
  | .retryCheck => s.goto (if s.globals.closeRetry then .close .closeRetry else .loopTest)
  | .disconnectCheck =>
    s.goto (if s.globals.cloudDisconnect.isSome then .disconnectSleep else .enter)
  | .disconnectSleep =>
    { s with pc := .enter, globals := s.globals.resetCloudDisconnectReason }
  | .loopTest => s.goto (if s.globals.closeRetry then .joining false else .shutdownTest)
  | .shutdownTest => s.goto (if s.gShutdown then .joining false else .loopWait)
  -- the threads that are joined end only on `g_shutdown`
  | .joining _ => if s.gShutdown then s.goto (.close .final) else s
  | .terminated => s
  | .aborted => s
  | .crashed => s

/-- One step of the CRUD thread in `updateObject` and `ConnDisconnectFromCloud`. -/
def crudStep (s : State) : Option State :=
  match s.crud with
  | .idle => none
  | .check reason =>
    some { s with crud := if s.globals.closeRetry then .idle else .setReason reason }
  | .setReason reason =>
    some { s with crud := .setStatus, globals := s.globals.setGlobalReconnectReason reason }
  | .setStatus =>
    some { s with crud := .setRetry, globals := s.globals.setGlobalReconnectStatus true }
  | .setRetry => some { s with crud := .idle, globals := s.globals.setCloseRetry }

/-- The steps of the main thread, a shutdown request, the interface events, a
cloud-disconnect request that is accepted, and the CRUD thread's work on it. -/
inductive Action
  | main (calls : Calls)
  | setShutdown
  | setInterfaceDown
  | resetInterfaceDown
  | request (reason : CString)
  | crud

def step (dep : Deployment) (s : State) : Action → Option State
  | .main calls => some (mainStep dep calls s)
  | .setShutdown => some { s with gShutdown := true }
  | .setInterfaceDown => some { s with interfaceDownEvent := true }
  | .resetInterfaceDown => some { s with interfaceDownEvent := false }
  | .request reason =>
    if s.started = true ∧ s.crud = .idle then
      some { s with
        crud := .check reason
        globals := s.globals.setCloudDisconnectReason reason }
    else none
  | .crud => crudStep s

def Step (dep : Deployment) (s : State) (a : Action) (t : State) : Prop := step dep s a = some t

/-- The process before its first call of `createNopollConnection`. -/
def init : State where
  pc := .enter
  crud := .idle
  started := false
  gShutdown := false
  sigterm := false
  interfaceDownEvent := false
  globals := ⟨none, some "webpa_process_starts".toList, false, false⟩
  heartBeatTimer := 0
  gConn := none
  opened := 0
  closed := []
  cloudStatus := none
  serverList := ⟨⟨0, none, 0⟩, ⟨0, none, 0⟩, ⟨0, none, 0⟩⟩
  currentServer := none
  connectTimer := none

end Parodus.Connection
