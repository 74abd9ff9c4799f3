import Parodus.Connection.Steps

namespace Parodus.Connection

variable {dep : Deployment} {calls : Calls} {s t : State}

def Caller.inEpisode : Caller → Bool
  | .keepTrying => true
  | .mainLoop => false

def Closer.inEpisode : Closer → Bool
  | .attempt _ _ => true
  | .down caller => caller.inEpisode
  | .closeRetry | .final => false

/-- From the start of `keep_trying_to_connect` until the redirect server is freed. -/
def Pc.inEpisode : Pc → Bool
  | .keepTrying | .connect _ | .wait _ | .judged _ _ | .afterFail | .backoff => true
  | .gaveUp | .connected => true
  | .close k | .closeListener k | .closeListenerSet k | .release k => k.inEpisode
  | .downTest caller | .downWait caller => caller.inEpisode
  | _ => false

def Closer.after (k : Closer) (rtn : WaitRtn) : Bool :=
  match k with
  | .attempt _ rtn' => rtn' = rtn
  | _ => false

/-- From where the next attempt may follow without another choice of the server. -/
def Pc.retries : Pc → Bool
  | .keepTrying | .connect _ | .wait _ => true
  | .judged _ rtn => rtn = .actionRetry
  | .close k | .closeListener k | .closeListenerSet k | .release k => k.after .actionRetry
  | _ => false

/-- Where an attempt has failed. -/
def Pc.fails : Pc → Bool
  | .judged _ rtn => rtn = .fail
  | .close k | .closeListener k | .closeListenerSet k | .release k => k.after .fail
  | _ => false

def Closer.ofAttempt : Closer → Bool
  | .attempt _ _ => true
  | _ => false

/-- In `keep_trying_to_connect` before a failure, and behind its success. -/
def Pc.attempting : Pc → Bool
  | .keepTrying | .connect _ | .wait _ | .judged _ _ | .connected | .online => true
  | .close k | .closeListener k | .closeListenerSet k | .release k => k.ofAttempt
  | _ => false

/-- Where the servers, or the duties towards them, change. -/
def Pc.chooses : Pc → Bool
  | .enter | .tryLoop | .gaveUp | .connect _ | .wait _ | .judged _ _ | .connected => true
  | _ => false

structure SameServers (s t : State) : Prop where
  serverList : t.serverList = s.serverList
  currentServer : t.currentServer = s.currentServer
  inEpisode : t.pc.inEpisode = s.pc.inEpisode
  retries : t.pc.retries = true → s.pc.retries = true
  fails : t.pc.fails = true → s.pc.fails = true
  attempting : t.pc.attempting = true → s.pc.attempting = true
  tryLoop : t.pc ≠ .tryLoop

theorem mainStep_sameServers (dep : Deployment) (calls : Calls) (h : s.pc.chooses = false) :
    SameServers s (mainStep dep calls s) := by
  unfold mainStep
  cases hpc : s.pc
  case enter | tryLoop | gaveUp | connect | wait | judged | connected => rw [hpc] at h; cases h
  case close k =>
    dsimp only [closeStep]
    repeat' split
    all_goals constructor
    all_goals
      cases k <;>
        simp [Pc.inEpisode, Pc.retries, Pc.fails, Pc.attempting, Closer.next, Closer.inEpisode,
          Closer.after, Closer.ofAttempt, hpc]
  case release k =>
    dsimp only [releaseStep]
    constructor
    all_goals
      cases k <;>
        simp [Pc.inEpisode, Pc.retries, Pc.fails, Pc.attempting, Closer.next, Closer.inEpisode,
          Closer.after, Closer.ofAttempt, hpc]
  case downTest caller | downWait caller =>
    dsimp only
    cases caller
    all_goals
      split
      all_goals
        constructor <;>
          simp [Pc.inEpisode, Pc.retries, Pc.fails, Pc.attempting, Caller.inEpisode, Caller.up,
            Caller.error, hpc]
  all_goals
    dsimp only [judgedStep, loopWaitStep, heartBeatStep, listenerStep, listenerSetStep]
    repeat' split
    all_goals
      constructor <;>
        simp [Pc.inEpisode, Pc.retries, Pc.fails, Pc.attempting, Closer.inEpisode, Closer.after,
          Closer.ofAttempt, Caller.inEpisode, hpc]

end Parodus.Connection
