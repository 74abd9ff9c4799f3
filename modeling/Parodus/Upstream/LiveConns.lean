import Parodus.Connection.Announced
import Parodus.Upstream.Wires

namespace Parodus.Upstream.Senders

open Foundation Foundation.Runs
open Connection (Deployment Conn Announced mainStep closeStep cloudDeployment quiet)

/-- The connection that a sender has read. -/
def Pc.conn : Pc → Option ℕ
  | cloudStatus conn _ | write conn _ _ _ _ _ => conn
  | _ => none

/-- The connection that a sender writes to. -/
def Pc.target : Pc → Option ℕ
  | write conn _ _ _ _ _ => conn
  | _ => none

/-- What the senders may rely on: a connection that they have read is open, and one that they write
to is the global one, with its handshake completed, and announced as online. -/
structure Reliable (s : State) : Prop where
  unclosed : ∀ w id, (s.pcs w).conn = some id → id ∉ s.main.closed
  ready : ∀ w id, (s.pcs w).target = some id →
    (∃ conn, s.main.gConn = some conn ∧ conn.id = id ∧ conn.ready = true) ∧
      s.main.cloudStatus = some .online

/-- The main thread does not close a connection that a sender has read, but for the last close,
and no sender reads a connection that is being closed. -/
def Spares (s : State) : Action → Prop
  | .main (.main _) => ∀ k conn, s.main.pc = .close k → k ≠ .final → s.main.gConn = some conn →
      ∀ w, (s.pcs w).conn ≠ some conn.id
  | .sender w _ => ∀ appendData, s.pcs w = .globalConn appendData → s.main.pc.closing = true →
      s.main.gConn = none
  | _ => True

/-- What the runs keep in which the senders are spared. -/
structure Spared (s : State) : Prop where
  main : Announced s.main
  joined : s.main.pc.final = true → ∀ w, s.pcs w = .ended
  conn : ∀ w id, (s.pcs w).conn = some id →
    s.main.gConn.map Conn.id = some id ∧ s.main.pc.closing = false
  online : ∀ w id, (s.pcs w).target = some id → s.main.cloudStatus = some .online

variable {dep : Deployment} {s t : State} {a : Action} {w : Sender} {pc : Pc} {id : ℕ}
  {m m' : Connection.State}

theorem conn_of_target (h : pc.target = some id) : pc.conn = some id := by
  cases pc with
  | write => exact h
  | _ => cases h

theorem Spared.reliable (h : Spared s) : Reliable s where
  unclosed w id hconn := by
    obtain ⟨hid, hclosing⟩ := h.conn w id hconn
    exact (h.main.owned.live hclosing id hid).2
  ready w id htarget := by
    have honline := h.online w id htarget
    obtain ⟨hid, _⟩ := h.conn w id (conn_of_target htarget)
    obtain ⟨conn, hconn, rfl⟩ := Option.map_eq_some_iff.mp hid
    refine ⟨⟨conn, hconn, rfl, ?_⟩, honline⟩
    obtain ⟨conn', hconn', hready⟩ | ⟨hnone, _⟩ := h.main.online honline
    · obtain rfl := Option.some.inj (hconn.symm.trans hconn')
      exact hready
    · rw [hnone] at hconn
      cases hconn

theorem spared_init : Spared init :=
  ⟨Connection.announced_init, nofun, fun _ _ ↦ nofun, fun _ _ ↦ nofun⟩

section Main

/-- A step of the main thread that closes nothing leaves the connection as it is, if there is
one. -/
theorem mainStep_conn (hm : Announced m) (calls : Connection.Calls)
    (hconn : m.gConn.map Conn.id = some id) (hclosing : m.pc.closing = false)
    (hclose : ∀ k, m.pc ≠ .close k) :
    (mainStep dep calls m).gConn.map Conn.id = some id ∧
      (mainStep dep calls m).pc.closing = false ∧
      (m.cloudStatus = some .online → (mainStep dep calls m).cloudStatus = some .online) := by
  have hne : m.gConn ≠ none := by
    intro hnone
    rw [hnone] at hconn
    cases hconn
  by_cases huses : m.pc.uses = false
  · have hsame := Connection.mainStep_sameConn dep calls huses
    rw [hsame.gConn, hsame.closing, hsame.cloudStatus]
    exact ⟨hconn, hclosing, fun h ↦ h⟩
  unfold mainStep
  cases hpc : m.pc
  case connect ipv6 => exact absurd (hm.owned.free (by rw [hpc]; rfl)) hne
  case close k => exact absurd hpc (hclose k)
  case release k =>
    rw [hpc] at hclosing
    cases hclosing
  case wait ipv6 =>
    dsimp only
    obtain ⟨_, heq⟩ | ⟨_, rtn, heq⟩ | ⟨_, redirect, _, _, heq⟩ | ⟨url, redirect, _, _, heq⟩ :=
      Connection.waitConnectionReady_cases calls m ipv6
    · rw [heq]
      refine ⟨?_, rfl, fun h ↦ h⟩
      rw [Option.map_map]
      exact hconn
    all_goals
      rw [heq]
      exact ⟨hconn, rfl, fun h ↦ h⟩
  case online =>
    dsimp only
    cases m.currentServer with
    | none => exact ⟨hconn, rfl, fun h ↦ h⟩
    | some slot => exact ⟨hconn, rfl, fun _ ↦ rfl⟩
  case handlers =>
    refine ⟨?_, rfl, fun h ↦ h⟩
    rw [Option.map_map]
    exact hconn
  all_goals
    rw [hpc] at huses
    exact absurd rfl huses

theorem Spared.mainStep (h : Spared s) (calls : Connection.Calls)
    (hspares : Spares s (.main (.main calls))) (hwaits : s.waits (.main calls) = false) :
    Spared { s with main := mainStep dep calls s.main } := by
  have hbegins := Connection.mainStep_begins dep calls s.main
  have hkeeps : ∀ w id, (s.pcs w).conn = some id →
      (Connection.mainStep dep calls s.main).gConn.map Conn.id = some id ∧
        (Connection.mainStep dep calls s.main).pc.closing = false ∧
        (s.main.cloudStatus = some .online →
          (Connection.mainStep dep calls s.main).cloudStatus = some .online) := by
    intro w id hconn
    obtain ⟨hid, hclosing⟩ := h.conn w id hconn
    refine mainStep_conn h.main calls hid hclosing fun k hpc ↦ ?_
    obtain ⟨conn, hgConn, rfl⟩ := Option.map_eq_some_iff.mp hid
    by_cases hfinal : k = .final
    · -- the senders have ended before the last close
      have hended := h.joined (by rw [hpc, hfinal]; rfl) w
      rw [hended] at hconn
      cases hconn
    · exact hspares k conn hpc hfinal hgConn w hconn
  refine ⟨h.main.mainStep, fun hfinal w ↦ ?_, fun w id hconn ↦ ?_, fun w id htarget ↦ ?_⟩
  · obtain hbefore | ⟨waitError, hpc, hshutdown⟩ := hbegins.final hfinal
    · exact h.joined hbefore w
    · unfold State.waits at hwaits
      rw [hpc, hshutdown] at hwaits
      simp only [Bool.true_and, Bool.not_eq_false', Bool.and_eq_true, beq_iff_eq] at hwaits
      cases w with
      | upstream => exact hwaits.1
      | downstream => exact hwaits.2
  · obtain ⟨hid, hclosing, _⟩ := hkeeps w id hconn
    exact ⟨hid, hclosing⟩
  · exact (hkeeps w id (conn_of_target htarget)).2.2 (h.online w id htarget)

theorem Spared.aside (h : Spared s) (haside : Connection.Aside s.main m) :
    Spared { s with main := m } := by
  refine ⟨h.main.aside haside, fun hfinal ↦ ?_, fun w id hconn ↦ ?_, fun w id htarget ↦ ?_⟩
  · exact h.joined (haside.pc ▸ hfinal)
  · have hkept := h.conn w id hconn
    rw [← haside.gConn, ← haside.pc] at hkept
    exact hkept
  · exact haside.cloudStatus.trans (h.online w id htarget)

end Main

section Sender

theorem put_main {conn : Option ℕ} {piece : Option (Frame Char)} :
    (s.put conn piece).main = s.main := by
  cases conn <;> rfl

theorem written_main {conn : Option ℕ} {msg : AppendData} {bytesWritten : ℤ} :
    (s.written w conn msg bytesWritten).main = s.main := by
  unfold State.written
  dsimp only
  split <;> rfl

/-- A sender that has not ended moves. -/
theorem Spared.update (h : Spared s) (hmain : t.main = s.main)
    (hpcs : t.pcs = Function.update s.pcs w pc) (hended : s.pcs w ≠ .ended)
    (hconn : ∀ id, pc.conn = some id →
      s.main.gConn.map Conn.id = some id ∧ s.main.pc.closing = false)
    (honline : ∀ id, pc.target = some id → s.main.cloudStatus = some .online) : Spared t := by
  refine ⟨hmain ▸ h.main, fun hfinal ↦ ?_, fun w' id hid ↦ ?_, fun w' id hid ↦ ?_⟩
  · rw [hmain] at hfinal
    exact absurd (h.joined hfinal w) hended
  · rw [hpcs] at hid
    rw [hmain]
    by_cases hne : w' = w
    · rw [hne, Function.update_self] at hid
      exact hconn id hid
    · rw [Function.update_of_ne hne] at hid
      exact h.conn w' id hid
  · rw [hpcs] at hid
    rw [hmain]
    by_cases hne : w' = w
    · rw [hne, Function.update_self] at hid
      exact honline id hid
    · rw [Function.update_of_ne hne] at hid
      exact h.online w' id hid

theorem Spared.sendStep (h : Spared s) {calls : SendCalls} (hspares : Spares s (.sender w calls))
    (hstep : sendStep w calls s = some t) : Spared t := by
  unfold Senders.sendStep at hstep
  cases hpc : s.pcs w with
  | idle | ended =>
    rw [hpc] at hstep
    cases hstep
  | closeRetry appendData | cloudDisconnect appendData =>
    rw [hpc] at hstep
    obtain rfl := Option.some.inj hstep
    refine h.update rfl rfl (by rw [hpc]; exact nofun) ?_ ?_
    · split <;> exact nofun
    · split <;> exact nofun
  | globalConn appendData =>
    rw [hpc] at hstep
    obtain rfl := Option.some.inj hstep
    refine h.update rfl rfl (by rw [hpc]; exact nofun) (fun id hid ↦ ⟨hid, ?_⟩) nofun
    by_contra hclosing
    have hnone := hspares appendData hpc (Bool.eq_true_of_not_eq_false hclosing)
    have hid : s.main.gConn.map Conn.id = some id := hid
    rw [hnone] at hid
    cases hid
  | cloudStatus conn msg =>
    rw [hpc] at hstep
    obtain rfl := Option.some.inj hstep
    have hended : s.pcs w ≠ .ended := by rw [hpc]; exact nofun
    have hconn : ∀ id, conn = some id →
        s.main.gConn.map Conn.id = some id ∧ s.main.pc.closing = false :=
      fun id hid ↦ h.conn w id (by rw [hpc]; exact hid)
    split
    · rename_i honline
      unfold State.loop
      split
      · exact h.update rfl rfl hended hconn fun _ _ ↦ honline
      · exact h.update written_main written_pcs hended nofun nofun
    · exact h.update rfl rfl hended nofun nofun
  | write conn msg cp length finalLenSent frameType =>
    rw [hpc] at hstep
    obtain rfl := Option.some.inj hstep
    have hended : s.pcs w ≠ .ended := by rw [hpc]; exact nofun
    unfold State.turn State.loop
    split
    · split
      · refine h.update put_main put_goto_pcs hended (fun id hid ↦ ?_) fun id hid ↦ ?_
        · exact h.conn w id (by rw [hpc]; exact hid)
        · exact h.online w id (by rw [hpc]; exact hid)
      · exact h.update (written_main.trans put_main) put_written_pcs hended nofun nofun
    · exact h.update (written_main.trans put_main) put_written_pcs hended nofun nofun

end Sender

section Runs

theorem Spared.step (h : Spared s) (hspares : Spares s a) (hstep : Step dep s a t) :
    Spared t := by
  unfold Step Senders.step at hstep
  cases a with
  | main action =>
    obtain ⟨hwaits, heq⟩ := Option.ite_none_left_eq_some.mp hstep
    obtain ⟨main, hmain, rfl⟩ := Option.map_eq_some_iff.mp heq
    obtain ⟨calls, rfl, rfl⟩ | ⟨_, haside⟩ := Connection.step_cases hmain
    · exact h.mainStep calls hspares (Bool.eq_false_iff.mpr hwaits)
    · exact h.aside haside
  | send w appendData =>
    obtain ⟨⟨_, hidle⟩, heq⟩ := Option.ite_none_right_eq_some.mp hstep
    obtain rfl := Option.some.inj heq
    exact h.update rfl rfl (by rw [hidle]; exact nofun) nofun nofun
  | sender w calls => exact h.sendStep hspares hstep
  | leave w =>
    obtain ⟨⟨_, _, hidle⟩, heq⟩ := Option.ite_none_right_eq_some.mp hstep
    obtain rfl := Option.some.inj heq
    exact h.update rfl rfl (by rw [hidle]; exact nofun) nofun nofun

theorem Spared.not_reliable (h : Spared s) (hnot : ¬ Spares s a) (hstep : Step dep s a t) :
    ¬ Reliable t := by
  intro hreliable
  unfold Step Senders.step at hstep
  cases a with
  | main action =>
    obtain ⟨_, heq⟩ := Option.ite_none_left_eq_some.mp hstep
    obtain ⟨main, hmain, rfl⟩ := Option.map_eq_some_iff.mp heq
    cases action with
    | main calls =>
      obtain rfl := Option.some.inj hmain
      refine hnot fun k conn hpc _ hgConn w hconn ↦ ?_
      have hclosed : conn.id ∈ (Connection.mainStep dep calls s.main).closed := by
        simp only [Connection.mainStep, hpc, closeStep, hgConn]
        exact List.mem_cons_self
      exact hreliable.unclosed w conn.id hconn hclosed
    | _ => exact hnot trivial
  | sender w calls =>
    refine hnot fun appendData hpc hclosing ↦ ?_
    dsimp only [Senders.sendStep] at hstep
    rw [hpc] at hstep
    obtain rfl := Option.some.inj hstep
    cases hgConn : s.main.gConn with
    | none => rfl
    | some conn =>
      have hclosed : conn.id ∈ s.main.closed :=
        h.main.owned.settled hclosing conn.id (h.main.numbered conn hgConn)
      refine absurd hclosed (hreliable.unclosed w conn.id ?_)
      have hpcs : (s.goto w (.cloudStatus (s.main.gConn.map Conn.id) appendData)).pcs w =
          .cloudStatus (s.main.gConn.map Conn.id) appendData := Function.update_self ..
      rw [hpcs, hgConn]
      rfl
  | send | leave => exact hnot trivial

/-- In every run of the main thread with the senders, each connection that a sender has read stays
open until it is done, and each frame goes to the connection that is announced as online, with its
handshake completed, exactly if the main thread does not close a connection, other than the last
one, that a sender has read, and no sender reads one that is being closed. -/
theorem run_reliable_iff {tr : List (State × Action)} (h : Run (Step dep) init tr s) :
    Throughout Reliable tr s ↔ Every Spares tr := by
  have hkeep : ∀ s a t, Spared s → Spares s a → Step dep s a t → Spared t :=
    fun _ _ _ hs hok hstep ↦ hs.step hok hstep
  have hbreak : ∀ s a t, Spared s → ¬ Spares s a → Step dep s a t → ¬ Reliable t :=
    fun _ _ _ hs hnot hstep ↦ hs.not_reliable hnot hstep
  exact h.throughout_iff_of_invariant (fun _ ↦ Spared.reliable) hkeep hbreak spared_init

/-- The server closes the connection, and the main loop closes it too before the senders have
written to it. -/
def closedRun : List Action :=
  bothBegun ++ .main (.main { quiet with closedByPeer := true }) ::
    List.replicate 6 (.main (.main quiet))

theorem run_reliable_iff_closed : ∃ tr s, Run (Step cloudDeployment) init tr s ∧
    (s.pcs .upstream).conn = some 0 ∧ s.main.closed = [0] ∧ ¬ Throughout Reliable tr s ∧
    ¬ Every Spares tr := by
  have hexec : (exec (step cloudDeployment) init closedRun).map
      (fun r ↦ ((r.2.pcs .upstream).conn, r.2.main.closed)) = some (some 0, [0]) := by
    simp only [cloudDeployment, closedRun, bothBegun, String.reduceToList]
    rfl
  obtain ⟨r, hr, heq⟩ := Option.map_eq_some_iff.mp hexec
  obtain ⟨hconn, hclosed⟩ := Prod.mk.inj heq
  have hrun : Run (Step cloudDeployment) init r.1 r.2 := run_of_exec hr
  have hnot : ¬ Throughout Reliable r.1 r.2 := by
    intro hreliable
    refine hreliable.2.unclosed .upstream 0 hconn ?_
    rw [hclosed]
    exact List.mem_cons_self
  exact ⟨r.1, r.2, hrun, hconn, hclosed, hnot,
    fun hspares ↦ hnot ((run_reliable_iff hrun).mpr hspares)⟩

end Runs

end Parodus.Upstream.Senders
