import Parodus.Connection.Machine
import Parodus.Foundation.Framing
import Parodus.Foundation.Runs
import Parodus.Upstream.SendMessage

namespace Parodus.Upstream.Senders

open Foundation Foundation.Runs
open Connection (Deployment Conn)

/-- The threads that send to the cloud: `processUpstreamMessage` and `messageHandlerTask`. -/
inductive Sender
  | upstream
  | downstream
  deriving DecidableEq

/-- A packed message with its metadata, whose length is an `int`. -/
structure AppendData where
  bytes : CString
  fits : bytes.length ≤ 2147483647
  deriving DecidableEq

/-- Where a sender is. A connection that it has read from `g_conn` is named by its number. -/
inductive Pc
  | idle
  -- `sendUpstreamMsgToServer`
  | closeRetry (appendData : AppendData)
  | cloudDisconnect (appendData : AppendData)
  | globalConn (appendData : AppendData)
  -- `sendMessage`, and the loop of `sendResponse` in it
  | cloudStatus (conn : Option ℕ) (msg : AppendData)
  | write (conn : Option ℕ) (msg : AppendData) (cp : CString) (length : ℕ) (finalLenSent : ℤ)
      (frameType : OpCode)
  | ended
  deriving DecidableEq

/-- `wire` holds what was handed to nopoll for each connection, `none` for a frame that was not
written out as a whole, and `sent` the messages that were counted as written. -/
structure State where
  main : Connection.State
  pcs : Sender → Pc
  wire : ℕ → List (Option (Frame Char))
  sent : List (Option ℕ × CString)

def State.goto (s : State) (w : Sender) (pc : Pc) : State :=
  { s with pcs := Function.update s.pcs w pc }

def State.put (s : State) (conn : Option ℕ) (piece : Option (Frame Char)) : State :=
  match conn with
  | none => s
  | some id => { s with wire := Function.update s.wire id (s.wire id ++ [piece]) }

/-- The end of `sendMessage`, which logs an error unless all of the message was written. -/
def State.written (s : State) (w : Sender) (conn : Option ℕ) (msg : AppendData)
    (bytesWritten : ℤ) : State :=
  let s := s.goto w .idle
  if bytesWritten = msg.bytes.length then { s with sent := s.sent ++ [(conn, msg.bytes)] } else s

/-- The test of the loop of `sendResponse`. -/
def State.loop (s : State) (w : Sender) (conn : Option ℕ) (msg : AppendData) (cp : CString)
    (length : ℕ) (finalLenSent : ℤ) (frameType : OpCode) : State :=
  if 0 < length then s.goto w (.write conn msg cp length finalLenSent frameType)
  else s.written w conn msg finalLenSent

/-- The body of the loop, with one frame. -/
def State.turn (s : State) (w : Sender) (calls : SendCalls) (conn : Option ℕ) (msg : AppendData)
    (cp : CString) (length : ℕ) (finalLenSent : ℤ) (frameType : OpCode) : State :=
  if calls.Complete (lenToSend length) then
    (s.put conn (some (frameOf frameType cp length))).loop w conn msg
      (cp.drop (lenToSend length)) (length - lenToSend length)
      (intAdd finalLenSent (lenToSend length)) .continuationFrame
  else (s.put conn none).written w conn msg finalLenSent

/-- A step of a sender between two messages is none. -/
def sendStep (w : Sender) (calls : SendCalls) (s : State) : Option State :=
  match s.pcs w with
  | .idle => none
  | .closeRetry appendData =>
    some (s.goto w (if s.main.globals.closeRetry then .cloudDisconnect appendData
      else .globalConn appendData))
  | .cloudDisconnect appendData =>
    some (s.goto w (if s.main.globals.cloudDisconnect.isSome then .globalConn appendData
      else .idle))
  | .globalConn appendData =>
    some (s.goto w (.cloudStatus (s.main.gConn.map Conn.id) appendData))
  | .cloudStatus conn msg =>
    some (if s.main.cloudStatus = some .online then
        s.loop w conn msg msg.bytes msg.bytes.length 0 .binaryFrame
      else s.goto w .idle)
  | .write conn msg cp length finalLenSent frameType =>
    some (s.turn w calls conn msg cp length finalLenSent frameType)
  | .ended => none

/-- The main thread joins the senders before it closes the last connection. -/
def State.waits (s : State) : Connection.Action → Bool
  | .main _ =>
    match s.main.pc with
    | .joining _ => s.main.gShutdown && !(s.pcs .upstream == .ended && s.pcs .downstream == .ended)
    | _ => false
  | _ => false

/-- The steps of the main thread and of the threads and events beside it, a message that a sender
has to send, the steps of the senders, and their ends. -/
inductive Action
  | main (action : Connection.Action)
  | send (w : Sender) (appendData : AppendData)
  | sender (w : Sender) (calls : SendCalls)
  | leave (w : Sender)

def step (dep : Deployment) (s : State) : Action → Option State
  | .main action =>
    if s.waits action then none
    else (Connection.step dep s.main action).map fun main ↦ { s with main := main }
  | .send w appendData =>
    if s.main.started = true ∧ s.pcs w = .idle then some (s.goto w (.closeRetry appendData))
    else none
  | .sender w calls => sendStep w calls s
  | .leave w =>
    if s.main.started = true ∧ s.main.gShutdown = true ∧ s.pcs w = .idle then
      some (s.goto w .ended)
    else none

def Step (dep : Deployment) (s : State) (a : Action) (t : State) : Prop := step dep s a = some t

def init : State := ⟨Connection.init, fun _ ↦ .idle, fun _ ↦ [], []⟩

/-- The messages of a connection that were counted as written and are not empty. -/
def State.sentOn (s : State) (id : ℕ) : List CString :=
  (s.sent.filter fun x ↦ x.1 == some id && !x.2.isEmpty).map Prod.snd

variable {dep : Deployment} {s : State} {w : Sender} {pc pc' : Pc} {conn : Option ℕ}
  {msg : AppendData}

section Alone

theorem goto_goto : (s.goto w pc).goto w pc' = s.goto w pc' :=
  congrArg (State.mk s.main · s.wire s.sent) (Function.update_idem ..)

theorem goto_put {piece : Option (Frame Char)} :
    (s.goto w pc).put conn piece = (s.put conn piece).goto w pc := by
  cases conn <;> rfl

theorem goto_written {bytesWritten : ℤ} :
    (s.goto w pc).written w conn msg bytesWritten = s.written w conn msg bytesWritten := by
  unfold State.written
  rw [goto_goto]

theorem goto_loop {cp : CString} {length : ℕ} {finalLenSent : ℤ} {frameType : OpCode} :
    (s.goto w pc).loop w conn msg cp length finalLenSent frameType =
      s.loop w conn msg cp length finalLenSent frameType := by
  unfold State.loop
  rw [goto_goto, goto_written]

theorem goto_turn {calls : SendCalls} {cp : CString} {length : ℕ} {finalLenSent : ℤ}
    {frameType : OpCode} :
    (s.goto w pc).turn w calls conn msg cp length finalLenSent frameType =
      s.turn w calls conn msg cp length finalLenSent frameType := by
  unfold State.turn
  rw [goto_put, goto_loop, goto_put, goto_written]

/-- What is handed to nopoll for frames that meet the calls from the `n`th on. -/
def pieces (calls : ℕ → SendCalls) : ℕ → List (Frame Char) → List (Option (Frame Char))
  | _, [] => []
  | n, frame :: frames =>
    (if (calls n).Complete frame.payload.length then some frame else none) ::
      pieces calls (n + 1) frames

def State.puts (s : State) (conn : Option ℕ) (pieces : List (Option (Frame Char))) : State :=
  pieces.foldl (fun s piece ↦ s.put conn piece) s

variable {calls : ℕ → SendCalls} {n length : ℕ} {cp : CString} {finalLenSent : ℤ}
  {frameType : OpCode}

theorem step_goto_write (dep : Deployment) (s : State) (w : Sender) (calls : SendCalls)
    (conn : Option ℕ) (msg : AppendData) (cp : CString) (length : ℕ) (finalLenSent : ℤ)
    (frameType : OpCode) :
    Step dep (s.goto w (.write conn msg cp length finalLenSent frameType)) (.sender w calls)
      (s.turn w calls conn msg cp length finalLenSent frameType) := by
  have hpc : (s.goto w (.write conn msg cp length finalLenSent frameType)).pcs w =
      .write conn msg cp length finalLenSent frameType := Function.update_self ..
  unfold Step
  dsimp only [step, sendStep]
  rw [hpc]
  exact congrArg some goto_turn

/-- Without steps of the others between its own, a sender runs the loop of `sendResponse`. -/
theorem run_sendLoop (calls : ℕ → SendCalls) (n : ℕ) (finalLenSent : ℤ) (frameType : OpCode)
    (dep : Deployment) (s : State) (w : Sender) (conn : Option ℕ) (msg : AppendData)
    (h : length ≤ cp.length) :
    ∃ tr, Run (Step dep) (s.loop w conn msg cp length finalLenSent frameType) tr
      ((s.puts conn (pieces calls n (sendLoop calls n cp length finalLenSent frameType).1)).written
        w conn msg (sendLoop calls n cp length finalLenSent frameType).2) := by
  fun_induction sendLoop calls n cp length finalLenSent frameType generalizing s with
  | case1 n cp length finalLenSent frameType hpos hcomplete rest ih =>
    have hframe : (calls n).Complete (frameOf frameType cp length).payload.length := by
      rw [payload_length h]
      exact hcomplete
    obtain ⟨tr, hrun⟩ := ih (s.put conn (some (frameOf frameType cp length)))
      (length_drop_lenToSend h)
    have hstep := step_goto_write dep s w (calls n) conn msg cp length finalLenSent frameType
    rw [State.turn, if_pos hcomplete] at hstep
    rw [State.loop, if_pos hpos, pieces, if_pos hframe]
    exact ⟨_, .cons hstep hrun⟩
  | case2 n cp length finalLenSent frameType hpos hfailed =>
    have hframe : ¬ (calls n).Complete (frameOf frameType cp length).payload.length := by
      rw [payload_length h]
      exact hfailed
    have hstep := step_goto_write dep s w (calls n) conn msg cp length finalLenSent frameType
    rw [State.turn, if_neg hfailed] at hstep
    rw [State.loop, if_pos hpos, pieces, if_neg hframe]
    exact ⟨_, .cons hstep (.nil _)⟩
  | case3 n cp length finalLenSent frameType hnot =>
    rw [State.loop, if_neg hnot]
    exact ⟨_, .nil _⟩

def statusText : Connection.CloudStatus → CString
  | .online => "online".toList
  | .offline => "offline".toList

theorem cloudStatusIsOnline_iff (status : Option Connection.CloudStatus) :
    cloudStatusIsOnline (status.map statusText) = true ↔ status = some .online := by
  cases status with
  | none => exact ⟨nofun, nofun⟩
  | some status =>
    cases status with
    | online => exact ⟨fun _ ↦ rfl, fun _ ↦ by decide⟩
    | offline => exact ⟨fun h ↦ absurd h (by decide), nofun⟩

theorem step_cloudStatus (dep : Deployment) (calls : SendCalls)
    (hpc : s.pcs w = .cloudStatus conn msg) :
    Step dep s (.sender w calls) (if s.main.cloudStatus = some .online then
      s.loop w conn msg msg.bytes msg.bytes.length 0 .binaryFrame else s.goto w .idle) := by
  unfold Step
  dsimp only [step, sendStep]
  rw [hpc]

/-- From the test of the status on, that is `sendMessage`. -/
theorem run_sendMessage (dep : Deployment) (calls : ℕ → SendCalls)
    (hpc : s.pcs w = .cloudStatus conn msg) :
    let result := sendMessage (s.main.cloudStatus.map statusText) calls msg.bytes msg.bytes.length
    ∃ tr, Run (Step dep) s tr (result.2.elim (s.goto w .idle) fun bytesWritten ↦
      (s.puts conn (pieces calls 0 result.1)).written w conn msg bytesWritten) := by
  intro result
  have hstep := step_cloudStatus dep (calls 0) hpc
  by_cases hstatus : s.main.cloudStatus = some .online
  · have hresult : result = ((sendResponse calls msg.bytes msg.bytes.length).1,
        some (sendResponse calls msg.bytes msg.bytes.length).2) :=
      if_pos ((cloudStatusIsOnline_iff _).mpr hstatus)
    obtain ⟨tr, hrun⟩ := run_sendLoop calls 0 0 .binaryFrame dep s w conn msg
      (Nat.le_refl msg.bytes.length)
    rw [if_pos hstatus] at hstep
    rw [hresult]
    exact ⟨_, .cons hstep hrun⟩
  · have hresult : result = ([], none) := if_neg (mt (cloudStatusIsOnline_iff _).mp hstatus)
    rw [if_neg hstatus] at hstep
    rw [hresult]
    exact ⟨_, .cons hstep (.nil _)⟩

end Alone

end Parodus.Upstream.Senders
