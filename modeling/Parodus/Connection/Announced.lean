import Parodus.Connection.OnlineStatus
import Parodus.Connection.ReconnectDuty

namespace Parodus.Connection

open Foundation.Runs

variable {dep : Deployment} {calls : Calls} {s t : State} {a : Action}

/-- In `keep_trying_to_connect`, until an attempt has ended. -/
def Pc.connecting : Pc → Bool
  | .keepTrying | .connect _ | .wait _ | .judged _ _ => true
  | .close (.attempt _ _) | .closeListener (.attempt _ _) => true
  | .closeListenerSet (.attempt _ _) | .release (.attempt _ _) => true
  | _ => false

/-- Behind the join of the threads. -/
def Pc.final : Pc → Bool
  | .close .final | .closeListener .final | .closeListenerSet .final | .release .final => true
  | .terminated => true
  | _ => false

/-- Without a connection, as in a call that was left because of a shutdown. -/
def ShutdownExit (s : State) : Prop := s.gConn = none ∧ s.gShutdown = true

/-- What is announced as online is a connection that is ready, or a shutdown has left none. -/
structure Announced (s : State) : Prop where
  owned : Owned s
  numbered : ∀ conn, s.gConn = some conn → conn.id < s.opened
  online : s.cloudStatus = some .online → HeldReady s ∨ ShutdownExit s
  connecting : s.pc.connecting = true → s.cloudStatus ≠ some .online
  connected : s.pc = .connected → HeldReady s
  epilogue : s.pc.epilogue = true → HeldReady s ∨ ShutdownExit s

theorem announced_init : Announced init :=
  ⟨owned_init, nofun, nofun, fun _ ↦ nofun, nofun, nofun⟩

theorem ShutdownExit.mono (h : ShutdownExit s) (hconn : t.gConn = s.gConn)
    (hshutdown : s.gShutdown = true → t.gShutdown = true) : ShutdownExit t :=
  ⟨hconn.trans h.1, hshutdown h.2⟩

section MainStep

theorem mainStep_gShutdown (dep : Deployment) (calls : Calls) (h : s.gShutdown = true) :
    (mainStep dep calls s).gShutdown = true := by
  by_cases hreset : s.pc = .reset
  · simp only [mainStep, hreset]
    exact h
  · exact (mainStep_flags dep calls hreset).1 h

/-- Where the attempts and the end of the process begin. -/
structure Begins (s t : State) : Prop where
  connecting : t.pc.connecting = true →
    s.pc.connecting = true ∨ s.pc = .tryLoop ∧ s.gShutdown = false
  final : t.pc.final = true → s.pc.final = true ∨ ∃ b, s.pc = .joining b ∧ s.gShutdown = true

theorem mainStep_begins (dep : Deployment) (calls : Calls) (s : State) :
    Begins s (mainStep dep calls s) := by
  unfold mainStep
  cases hpc : s.pc
  case enter =>
    dsimp only
    obtain h | h | h := enterStep_pc dep calls s
    all_goals
      constructor <;> rw [h] <;> exact nofun
  case gaveUp =>
    dsimp only
    obtain h | h := gaveUpStep_pc dep calls s
    all_goals
      constructor <;> rw [h] <;> exact nofun
  case tryLoop =>
    dsimp only
    by_cases hshutdown : s.gShutdown = true
    · rw [if_pos hshutdown]
      constructor <;> exact nofun
    · rw [if_neg hshutdown]
      exact ⟨fun _ ↦ .inr ⟨hpc, Bool.eq_false_iff.mpr hshutdown⟩, nofun⟩
  case connect ipv6 =>
    refine ⟨fun _ ↦ .inl (by rw [hpc]; rfl), ?_⟩
    dsimp only
    obtain ⟨_, heq⟩ | ⟨_, heq⟩ | ⟨_, globals, sigterm, timer, _, heq⟩ :=
      nopollConnect_cases calls s ipv6
    all_goals
      rw [heq]
      exact nofun
  case wait ipv6 =>
    refine ⟨fun _ ↦ .inl (by rw [hpc]; rfl), ?_⟩
    dsimp only
    obtain ⟨_, heq⟩ | ⟨_, rtn, heq⟩ | ⟨_, redirect, _, _, heq⟩ | ⟨url, redirect, _, _, heq⟩ :=
      waitConnectionReady_cases calls s ipv6
    all_goals
      rw [heq]
      exact nofun
  case joining waitError =>
    dsimp only
    by_cases hshutdown : s.gShutdown = true
    · rw [if_pos hshutdown]
      exact ⟨nofun, fun _ ↦ .inr ⟨waitError, hpc, hshutdown⟩⟩
    · rw [if_neg hshutdown]
      exact ⟨fun h ↦ .inl h, fun h ↦ .inl h⟩
  -- a close goes on where its caller does
  case close k | closeListener k | closeListenerSet k | release k =>
    dsimp only [closeStep, listenerStep, listenerSetStep, releaseStep]
    repeat' split
    all_goals
      cases k <;> constructor <;> simp [Pc.connecting, Pc.final, Closer.next, hpc]
  case downTest caller | downWait caller =>
    dsimp only
    cases caller
    all_goals
      split
      all_goals constructor <;> simp [Pc.connecting, Pc.final, Caller.up, Caller.error]
  all_goals
    dsimp only [judgedStep, loopWaitStep, heartBeatStep, listenerStep, listenerSetStep]
    repeat' split
    all_goals constructor <;> simp [Pc.connecting, Pc.final, hpc]

theorem Announced.keep (hs : Announced s) (howned : Owned t) (hconn : t.gConn = s.gConn)
    (hopened : t.opened = s.opened) (hstatus : t.cloudStatus = s.cloudStatus)
    (hshutdown : s.gShutdown = true → t.gShutdown = true) (hbegins : Begins s t)
    (hconnected : t.pc = .connected → s.pc = .connected)
    (hepilogue : t.pc.epilogue = true →
      s.pc = .connected ∨ s.pc.epilogue = true ∨ s.pc = .tryLoop ∧ s.gShutdown = true) :
    Announced t where
  owned := howned
  numbered := by
    rw [hconn, hopened]
    exact hs.numbered
  online honline :=
    (hs.online (hstatus.symm.trans honline)).imp (·.congr hconn) (·.mono hconn hshutdown)
  connecting hpc honline := by
    rw [hstatus] at honline
    obtain h | ⟨hloop, hrunning⟩ := hbegins.connecting hpc
    · exact hs.connecting h honline
    · have hnone : s.gConn = none := hs.owned.free (by rw [hloop]; rfl)
      obtain hheld | hexit := hs.online honline
      · exact not_heldReady hnone hheld
      · exact Bool.false_ne_true (hrunning.symm.trans hexit.2)
  connected hpc := (hs.connected (hconnected hpc)).congr hconn
  epilogue hpc := by
    obtain h | h | ⟨hloop, hleft⟩ := hepilogue hpc
    · exact .inl ((hs.connected h).congr hconn)
    · exact (hs.epilogue h).imp (·.congr hconn) (·.mono hconn hshutdown)
    · exact .inr ⟨hconn.trans (hs.owned.free (by rw [hloop]; rfl)), hshutdown hleft⟩

theorem Announced.connect (hs : Announced s) {ipv6 : Bool} (hpc : s.pc = .connect ipv6) :
    Announced (nopollConnect calls ipv6 s) := by
  have howned := hs.owned.connect calls hpc
  have hoffline : s.cloudStatus ≠ some .online := hs.connecting (by rw [hpc]; rfl)
  obtain ⟨_, heq⟩ | ⟨_, heq⟩ | ⟨_, globals, sigterm, timer, _, heq⟩ :=
    nopollConnect_cases calls s ipv6
  · rw [heq] at howned ⊢
    exact ⟨howned, hs.numbered, fun h ↦ absurd h hoffline, fun _ ↦ hoffline, nofun, nofun⟩
  · rw [heq] at howned ⊢
    refine ⟨howned, fun conn hconn ↦ ?_, fun h ↦ absurd h hoffline, fun _ ↦ hoffline, nofun, nofun⟩
    obtain rfl := Option.some.inj hconn
    exact Nat.lt_succ_self _
  · rw [heq] at howned ⊢
    exact ⟨howned, nofun, fun h ↦ absurd h hoffline, fun _ ↦ hoffline, nofun, nofun⟩

theorem numbered_map {f : Conn → Conn} (hf : ∀ conn, (f conn).id = conn.id)
    (h : ∀ conn, s.gConn = some conn → conn.id < s.opened) (conn : Conn)
    (hconn : s.gConn.map f = some conn) : conn.id < s.opened := by
  obtain ⟨conn', hconn', rfl⟩ := Option.map_eq_some_iff.mp hconn
  rw [hf]
  exact h conn' hconn'

theorem Announced.wait (hs : Announced s) {ipv6 : Bool} (hpc : s.pc = .wait ipv6) :
    Announced (waitConnectionReady calls ipv6 s) := by
  have howned := hs.owned.wait calls hpc
  have hoffline : s.cloudStatus ≠ some .online := hs.connecting (by rw [hpc]; rfl)
  obtain ⟨conn, hconn⟩ := Option.ne_none_iff_exists'.mp (hs.owned.waiting ipv6 hpc)
  obtain ⟨_, heq⟩ | ⟨_, rtn, heq⟩ | ⟨_, redirect, _, _, heq⟩ | ⟨url, redirect, _, _, heq⟩ :=
    waitConnectionReady_cases calls s ipv6
  · rw [heq] at howned ⊢
    refine ⟨howned, numbered_map (fun _ ↦ rfl) hs.numbered, fun h ↦ absurd h hoffline, nofun,
      fun _ ↦ ⟨{ conn with ready := true }, ?_, rfl⟩, nofun⟩
    exact congrArg (Option.map _) hconn
  all_goals
    rw [heq] at howned ⊢
    exact ⟨howned, hs.numbered, fun h ↦ absurd h hoffline, fun _ ↦ hoffline, nofun, nofun⟩

theorem Announced.release (hs : Announced s) {k : Closer} (hpc : s.pc = .release k) :
    Announced (releaseStep k s) := by
  refine ⟨hs.owned.release hpc, fun conn hconn ↦ ?_, nofun, fun _ ↦ nofun, ?_, ?_⟩
  · exact hs.numbered conn (Option.ite_none_right_eq_some.mp hconn).2
  · cases k <;> exact nofun
  · cases k <;> exact nofun

theorem Announced.close (hs : Announced s) {k : Closer} (hpc : s.pc = .close k)
    (hbegins : Begins s (closeStep calls k s)) : Announced (closeStep calls k s) := by
  have howned := hs.owned.close calls hpc
  have hnext : k.next ≠ .connected ∧ k.next.epilogue = false := by
    cases k <;> exact ⟨nofun, rfl⟩
  unfold closeStep at howned hbegins ⊢
  cases hconn : s.gConn with
  | none =>
    rw [hconn] at howned hbegins
    refine hs.keep howned rfl rfl rfl id hbegins ?_ ?_
    · exact fun h ↦ absurd h hnext.1
    · exact fun h ↦ absurd (hnext.2.symm.trans h) Bool.false_ne_true
  | some conn =>
    rw [hconn] at howned hbegins
    refine hs.keep howned hconn.symm rfl rfl id hbegins ?_ ?_
    · intro h
      dsimp only at h
      split at h <;> cases h
    · intro h
      dsimp only at h
      split at h <;> cases h

theorem Announced.mainStep (hs : Announced s) : Announced (mainStep dep calls s) := by
  have howned : Owned (Connection.mainStep dep calls s) := hs.owned.mainStep
  have hbegins := mainStep_begins dep calls s
  have hshutdown := mainStep_gShutdown (s := s) dep calls
  by_cases huses : s.pc.uses = false
  · have hsame := mainStep_sameConn dep calls huses
    exact hs.keep howned hsame.gConn hsame.opened hsame.cloudStatus hshutdown hbegins
      (fun h ↦ absurd h hsame.connected) hsame.epilogue
  unfold Connection.mainStep at howned hbegins hshutdown ⊢
  cases hpc : s.pc
  case connect ipv6 => exact hs.connect hpc
  case wait ipv6 => exact hs.wait hpc
  case close k =>
    rw [hpc] at hbegins
    exact hs.close hpc hbegins
  case release k => exact hs.release hpc
  case online =>
    have hheld := hs.epilogue (by rw [hpc]; rfl)
    rw [hpc] at howned hshutdown
    dsimp only at howned hshutdown ⊢
    cases hserver : s.currentServer with
    | none =>
      rw [hserver] at howned
      exact ⟨howned, hs.numbered, hs.online, nofun, nofun, nofun⟩
    | some slot =>
      rw [hserver] at howned
      exact ⟨howned, hs.numbered, fun _ ↦ hheld, nofun, nofun, fun _ ↦ hheld⟩
  case handlers =>
    have hheld := hs.epilogue (by rw [hpc]; rfl)
    rw [hpc] at howned
    have hheld' : HeldReady { s with gConn := s.gConn.map fun c ↦ { c with handlers := true } } ∨
        ShutdownExit { s with gConn := s.gConn.map fun c ↦ { c with handlers := true } } := by
      refine hheld.imp ?_ ?_
      · rintro ⟨conn, hconn, hready⟩
        exact ⟨{ conn with handlers := true }, congrArg (Option.map _) hconn, hready⟩
      · exact fun hexit ↦ ⟨congrArg (Option.map _) hexit.1, hexit.2⟩
    exact ⟨howned, numbered_map (fun _ ↦ rfl) hs.numbered, fun _ ↦ hheld', nofun, nofun,
      fun _ ↦ hheld'⟩
  all_goals
    rw [hpc] at huses
    exact absurd rfl huses

end MainStep

theorem Announced.aside (hs : Announced s) (h : Aside s t) : Announced t := by
  refine hs.keep (hs.owned.aside h) h.gConn h.opened h.cloudStatus h.gShutdown ⟨?_, ?_⟩ ?_ ?_
  all_goals rw [h.pc]
  · exact .inl
  · exact .inl
  · exact id
  · exact fun hpc ↦ .inr (.inl hpc)

theorem Announced.step (hs : Announced s) (h : Step dep s a t) : Announced t := by
  obtain ⟨calls, _, rfl⟩ | ⟨_, haside⟩ := step_cases h
  · exact hs.mainStep
  · exact hs.aside haside

end Parodus.Connection
