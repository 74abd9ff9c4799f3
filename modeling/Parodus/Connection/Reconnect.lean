import Parodus.CString

namespace Parodus

/-- The globals through which threads and listeners ask the main loop to close
the connection and connect again. -/
structure ReconnectState where
  cloudDisconnect : Option CString
  reconnectReason : Option CString
  lastReasonStatus : Bool
  closeRetry : Bool
  deriving DecidableEq

namespace ReconnectState

variable (g : ReconnectState)

def setCloudDisconnectReason (disconnReason : CString) : ReconnectState :=
  { g with cloudDisconnect := some disconnReason }

def resetCloudDisconnectReason : ReconnectState := { g with cloudDisconnect := none }

def setGlobalReconnectReason (reason : CString) : ReconnectState :=
  { g with reconnectReason := some reason }

def setGlobalReconnectStatus (status : Bool) : ReconnectState :=
  { g with lastReasonStatus := status }

def setCloseRetry : ReconnectState := { g with closeRetry := true }

def resetCloseRetry : ReconnectState := { g with closeRetry := false }

/-- What `listenerOnCloseMessage` does to the reason: one set before is kept; it
is marked by the status. -/
def setDefaultReason (closeStatus : ℤ) : ReconnectState :=
  if closeStatus = 1006 ∧ g.lastReasonStatus = false then
    (g.setGlobalReconnectReason "SSL_Socket_Close".toList).setGlobalReconnectStatus true
  else if g.lastReasonStatus = false then g.setGlobalReconnectReason "Unknown".toList
  else g

def listenerOnCloseMessage (closeStatus : ℤ) (interfaceDownEvent : Bool) : ReconnectState :=
  let g := g.setDefaultReason closeStatus
  if interfaceDownEvent then g else g.setCloseRetry

def connDisconnectFromCloud (disconnReason : CString) : ℤ × ReconnectState :=
  if g.closeRetry then (-1, g)
  else
    (1, ((g.setGlobalReconnectReason disconnReason).setGlobalReconnectStatus true).setCloseRetry)

/-- The last steps of `createNopollConnection` on these globals. -/
def connectionReset : ReconnectState :=
  (g.resetCloseRetry.setGlobalReconnectReason
    "webpa_process_starts".toList).setGlobalReconnectStatus false

section CloseRetry

variable (reason : CString) (status : Bool) (closeStatus : ℤ)

@[simp] theorem resetCloudDisconnectReason_closeRetry :
    g.resetCloudDisconnectReason.closeRetry = g.closeRetry := rfl
@[simp] theorem setGlobalReconnectReason_closeRetry :
    (g.setGlobalReconnectReason reason).closeRetry = g.closeRetry := rfl
@[simp] theorem setGlobalReconnectStatus_closeRetry :
    (g.setGlobalReconnectStatus status).closeRetry = g.closeRetry := rfl

@[simp] theorem setDefaultReason_closeRetry :
    (g.setDefaultReason closeStatus).closeRetry = g.closeRetry := by
  unfold setDefaultReason
  repeat' split
  all_goals rfl

end CloseRetry

theorem setCloudDisconnectReason_eq_self {g : ReconnectState} {reason : CString} :
    g.setCloudDisconnectReason reason = g ↔ g.cloudDisconnect = some reason := by
  cases g
  simp only [setCloudDisconnectReason, ReconnectState.mk.injEq, and_true, eq_comm]

end ReconnectState

end Parodus
