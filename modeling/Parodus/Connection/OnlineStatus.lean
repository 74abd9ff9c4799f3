import Parodus.Connection.Ownership

namespace Parodus.Connection

open Foundation.Runs

variable {dep : Deployment} {calls : Calls} {s t : State} {a : Action} {succeeded : Bool}

/-- A global connection is held, and its handshake was completed. -/
def HeldReady (s : State) : Prop := ∃ conn, s.gConn = some conn ∧ conn.ready = true

/-- Whether `keep_trying_to_connect` has succeeded in the current call of
`createNopollConnection`. -/
def observeSuccess (s : State) (a : Action) (succeeded : Bool) : Bool :=
  match a, s.pc with
  | .main _, .enter => false
  | .main _, .connected => true
  | _, _ => succeeded

/-- The status is online, is set so, and a call returns true only with a connection. -/
structure HonestStatus (x : State × Bool) : Prop where
  online : x.1.cloudStatus = some .online → HeldReady x.1
  created : x.1.pc = .online ∨ x.1.pc = .returned true → x.2 = true ∧ HeldReady x.1

/-- The loop of `createNopollConnection` is not left because of a shutdown. -/
def NoShutdownExit (s : State) (a : Action) : Prop :=
  ∀ calls, a = .main calls → s.pc = .tryLoop → s.gShutdown = false

structure Connected (x : State × Bool) : Prop where
  owned : Owned x.1
  online : x.1.cloudStatus = some .online → HeldReady x.1
  connected : x.1.pc = .connected → HeldReady x.1
  epilogue : x.1.pc.epilogue = true → x.2 = true ∧ HeldReady x.1

theorem Connected.honestStatus {x : State × Bool} (hx : Connected x) : HonestStatus x where
  online := hx.online
  created hpc := hx.epilogue (by obtain hpc | hpc := hpc <;> rw [hpc] <;> rfl)

theorem connected_init : Connected (init, false) where
  owned := owned_init
  online := nofun
  connected := nofun
  epilogue := nofun

theorem HeldReady.congr (h : HeldReady s) (heq : t.gConn = s.gConn) : HeldReady t := by
  obtain ⟨conn, hconn, hready⟩ := h
  exact ⟨conn, heq.trans hconn, hready⟩

theorem not_heldReady (h : s.gConn = none) : ¬ HeldReady s := by
  rintro ⟨conn, hconn, _⟩
  rw [h] at hconn
  cases hconn

theorem observeSuccess_epilogue (h : s.pc.epilogue = true) :
    observeSuccess s (.main calls) succeeded = succeeded := by
  unfold observeSuccess
  split
  · rename_i hpc
    rw [hpc] at h
    cases h
  · rename_i hpc
    rw [hpc] at h
    cases h
  · rfl

theorem observeSuccess_connected (h : s.pc = .connected) :
    observeSuccess s (.main calls) succeeded = true := by
  simp [observeSuccess, h]

section MainStep

theorem Connected.sameConn (hs : Connected (s, succeeded)) (huses : s.pc.uses = false)
    (hok : s.pc = .tryLoop → s.gShutdown = false) :
    Connected (mainStep dep calls s, observeSuccess s (.main calls) succeeded) where
  owned := hs.owned.mainStep
  online hstatus := by
    have hsame := mainStep_sameConn dep calls huses
    exact (hs.online (hsame.cloudStatus.symm.trans hstatus)).congr hsame.gConn
  connected hpc := absurd hpc (mainStep_sameConn dep calls huses).connected
  epilogue hpc := by
    have hsame := mainStep_sameConn dep calls huses
    obtain hconnected | hepilogue | ⟨hloop, hshutdown⟩ := hsame.epilogue hpc
    · exact ⟨observeSuccess_connected hconnected, (hs.connected hconnected).congr hsame.gConn⟩
    · obtain ⟨hsucceeded, hheld⟩ := hs.epilogue hepilogue
      exact ⟨(observeSuccess_epilogue hepilogue).trans hsucceeded, hheld.congr hsame.gConn⟩
    · exact absurd ((hok hloop).symm.trans hshutdown) Bool.false_ne_true

theorem Connected.connect (hs : Connected (s, succeeded)) {ipv6 : Bool}
    (hpc : s.pc = .connect ipv6) :
    Connected (nopollConnect calls ipv6 s, succeeded) := by
  have howned := hs.owned.connect calls hpc
  have hoffline : s.cloudStatus ≠ some .online := by
    intro honline
    exact not_heldReady (hs.owned.free (by rw [hpc]; rfl)) (hs.online honline)
  obtain ⟨_, heq⟩ | ⟨_, heq⟩ | ⟨_, globals, sigterm, timer, _, heq⟩ :=
    nopollConnect_cases calls s ipv6
  all_goals
    rw [heq] at howned ⊢
    exact ⟨howned, fun honline ↦ absurd honline hoffline, nofun, nofun⟩

theorem Connected.wait (hs : Connected (s, succeeded)) {ipv6 : Bool} (hpc : s.pc = .wait ipv6) :
    Connected (waitConnectionReady calls ipv6 s, succeeded) := by
  have howned := hs.owned.wait calls hpc
  have hready : HeldReady { s with gConn := s.gConn.map fun c ↦ { c with ready := true } } := by
    obtain ⟨conn, hconn⟩ := Option.ne_none_iff_exists'.mp (hs.owned.waiting ipv6 hpc)
    exact ⟨{ conn with ready := true }, by rw [hconn, Option.map_some], rfl⟩
  obtain ⟨_, heq⟩ | ⟨_, rtn, heq⟩ | ⟨_, redirect, _, _, heq⟩ | ⟨url, redirect, _, _, heq⟩ :=
    waitConnectionReady_cases calls s ipv6
  · rw [heq] at howned ⊢
    exact ⟨howned, fun _ ↦ hready, fun _ ↦ hready, nofun⟩
  all_goals
    rw [heq] at howned ⊢
    exact ⟨howned, hs.online, nofun, nofun⟩

theorem Connected.close (hs : Connected (s, succeeded)) {k : Closer} (hpc : s.pc = .close k) :
    Connected (closeStep calls k s, succeeded) := by
  have howned := hs.owned.close calls hpc
  have hnext : k.next ≠ .connected ∧ k.next.epilogue = false := by
    cases k <;> exact ⟨nofun, rfl⟩
  unfold closeStep at howned ⊢
  cases hconn : s.gConn with
  | none =>
    rw [hconn] at howned
    refine ⟨howned, fun honline ↦ absurd (hs.online honline) (not_heldReady hconn), ?_, ?_⟩
    · exact fun hpc' ↦ absurd hpc' hnext.1
    · exact fun hpc' ↦ absurd (hnext.2.symm.trans hpc') Bool.false_ne_true
  | some conn =>
    rw [hconn] at howned
    refine ⟨howned, fun honline ↦ (hs.online honline).congr hconn.symm, ?_, ?_⟩
    · intro hpc'
      dsimp only at hpc'
      split at hpc' <;> cases hpc'
    · intro hpc'
      dsimp only at hpc'
      split at hpc' <;> cases hpc'

theorem Connected.release (hs : Connected (s, succeeded)) {k : Closer} (hpc : s.pc = .release k) :
    Connected (releaseStep k s, succeeded) where
  owned := hs.owned.release hpc
  online := nofun
  connected hpc' := by
    cases k <;> cases hpc'
  epilogue hpc' := by
    cases k <;> cases hpc'

theorem Connected.mainStep (hs : Connected (s, succeeded))
    (hok : s.pc = .tryLoop → s.gShutdown = false) :
    Connected (mainStep dep calls s, observeSuccess s (.main calls) succeeded) := by
  by_cases huses : s.pc.uses = false
  · exact hs.sameConn huses hok
  have howned : Owned (Connection.mainStep dep calls s) := hs.owned.mainStep
  cases hpc : s.pc
  case connect ipv6 =>
    simp only [Connection.mainStep, observeSuccess, hpc]
    exact hs.connect hpc
  case wait ipv6 =>
    simp only [Connection.mainStep, observeSuccess, hpc]
    exact hs.wait hpc
  case close k =>
    simp only [Connection.mainStep, observeSuccess, hpc]
    exact hs.close hpc
  case release k =>
    simp only [Connection.mainStep, observeSuccess, hpc]
    exact hs.release hpc
  case online =>
    obtain ⟨hsucceeded, hheld⟩ := hs.epilogue (by rw [hpc]; rfl)
    simp only [Connection.mainStep, observeSuccess, hpc] at howned ⊢
    cases hserver : s.currentServer with
    | none =>
      rw [hserver] at howned
      exact ⟨howned, hs.online, nofun, nofun⟩
    | some slot =>
      rw [hserver] at howned
      exact ⟨howned, fun _ ↦ hheld, nofun, fun _ ↦ ⟨hsucceeded, hheld⟩⟩
  case handlers =>
    obtain ⟨hsucceeded, conn, hconn, hready⟩ := hs.epilogue (by rw [hpc]; rfl)
    have hheld : HeldReady { s with gConn := s.gConn.map fun c ↦ { c with handlers := true } } :=
      ⟨{ conn with handlers := true }, by rw [hconn, Option.map_some], hready⟩
    simp only [Connection.mainStep, observeSuccess, hpc] at howned ⊢
    exact ⟨howned, fun _ ↦ hheld, nofun, fun _ ↦ ⟨hsucceeded, hheld⟩⟩
  all_goals
    rw [hpc] at huses
    exact absurd rfl huses

end MainStep

theorem Connected.aside (hs : Connected (s, succeeded)) (h : Aside s t) :
    Connected (t, succeeded) where
  owned := hs.owned.aside h
  online hstatus := (hs.online (h.cloudStatus.symm.trans hstatus)).congr h.gConn
  connected hpc := (hs.connected (h.pc.symm.trans hpc)).congr h.gConn
  epilogue hpc := by
    have hpc' : t.pc.epilogue = true := hpc
    rw [h.pc] at hpc'
    obtain ⟨hsucceeded, hheld⟩ := hs.epilogue hpc'
    exact ⟨hsucceeded, hheld.congr h.gConn⟩

theorem observeSuccess_other (h : ∀ calls, a ≠ .main calls) :
    observeSuccess s a succeeded = succeeded := by
  cases a with
  | main calls => exact absurd rfl (h calls)
  | _ => rfl

theorem Connected.step {x y : State × Bool} (hx : Connected x) (hok : NoShutdownExit x.1 a)
    (h : Observed (Step dep) observeSuccess x a y) : Connected y := by
  obtain ⟨s, succeeded⟩ := x
  obtain ⟨t, succeeded'⟩ := y
  obtain ⟨hstep, rfl⟩ := h
  obtain ⟨calls, rfl, rfl⟩ | ⟨hother, haside⟩ := step_cases hstep
  · exact hx.mainStep (hok calls rfl)
  · rw [observeSuccess_other hother]
    exact hx.aside haside

/-- A shutdown that ends the loop leads to the epilogue without a connection. -/
theorem not_honestStatus {x y : State × Bool} (hx : Connected x) (hnot : ¬ NoShutdownExit x.1 a)
    (h : Observed (Step dep) observeSuccess x a y) : ¬ HonestStatus y := by
  simp only [NoShutdownExit, not_forall] at hnot
  obtain ⟨calls, rfl, hpc, hshutdown⟩ := hnot
  have hshutdown : x.1.gShutdown = true := Bool.eq_true_of_not_eq_false hshutdown
  have hnone : x.1.gConn = none := hx.owned.free (by rw [hpc]; rfl)
  have hstep : y.1 = x.1.goto .online := by
    have heq : some (Connection.mainStep dep calls x.1) = some y.1 := h.1
    rw [← Option.some.inj heq]
    simp [Connection.mainStep, hpc, hshutdown]
  intro hy
  have hcreated := (hy.created (.inl (by rw [hstep]; rfl))).2
  rw [hstep] at hcreated
  exact not_heldReady hnone hcreated

/-- The status is honest in a whole run exactly if no call's loop is left because
of a shutdown. -/
theorem run_honestStatus_iff {x : State × Bool} {tr : List ((State × Bool) × Action)}
    (h : Run (Observed (Step dep) observeSuccess) (init, false) tr x) :
    Throughout HonestStatus tr x ↔ Every (fun x a ↦ NoShutdownExit x.1 a) tr := by
  have hkeep : ∀ x a y, Connected x → NoShutdownExit x.1 a →
      Observed (Step dep) observeSuccess x a y → Connected y := fun _ _ _ ↦ Connected.step
  have hbreak : ∀ x a y, Connected x → ¬ NoShutdownExit x.1 a →
      Observed (Step dep) observeSuccess x a y → ¬ HonestStatus y := fun _ _ _ ↦ not_honestStatus
  exact h.throughout_iff_of_invariant (fun _ ↦ Connected.honestStatus) hkeep hbreak connected_init

/-- Both attempts of the first call fail, and the shutdown comes in the delay that follows. -/
def abandonedRun : List Action :=
  List.replicate 3 (.main quiet) ++ [.main refused, .main quiet, .main refused] ++
    List.replicate 2 (.main quiet) ++ .setShutdown :: List.replicate 4 (.main quiet)

theorem run_not_honestStatus_abandoned : ∃ tr x,
    Run (Observed (Step cloudDeployment) observeSuccess) (init, false) tr x ∧
      x.1.cloudStatus = some .online ∧ x.1.gConn = none ∧ ¬ Throughout HonestStatus tr x := by
  have hexec : (exec (watch (step cloudDeployment) observeSuccess) (init, false) abandonedRun).map
      (fun r ↦ (r.2.1.cloudStatus, r.2.1.gConn)) = some (some .online, none) := by
    simp only [cloudDeployment, String.reduceToList]
    rfl
  obtain ⟨r, hr, heq⟩ := Option.map_eq_some_iff.mp hexec
  obtain ⟨hstatus, hconn⟩ := Prod.mk.inj heq
  refine ⟨r.1, r.2, run_of_exec_watch hr, hstatus, hconn, ?_⟩
  intro hthroughout
  exact not_heldReady hconn (hthroughout.2.online hstatus)

theorem run_honestStatus_iff_redirected : ∃ tr x,
    Run (Observed (Step cloudDeployment) observeSuccess) (init, false) tr x ∧
      x.1.cloudStatus = some .online ∧ Throughout HonestStatus tr x := by
  have hexec : (exec (watch (step cloudDeployment) observeSuccess) (init, false)
      (redirectedRun ++ List.replicate 4 (.main quiet))).map
        (fun r ↦ (r.2.1.cloudStatus, r.1.all fun x ↦ !x.1.1.gShutdown)) =
      some (some .online, true) := by
    simp only [cloudDeployment, redirectedRun, redirected, String.reduceToList]
    rfl
  obtain ⟨r, hr, heq⟩ := Option.map_eq_some_iff.mp hexec
  obtain ⟨hstatus, hall⟩ := Prod.mk.inj heq
  have hrun : Run (Observed (Step cloudDeployment) observeSuccess) (init, false) r.1 r.2 :=
    run_of_exec_watch hr
  refine ⟨r.1, r.2, hrun, hstatus, (run_honestStatus_iff hrun).mpr ?_⟩
  intro x hx _ _ _
  simpa using List.all_eq_true.mp hall x hx

end Parodus.Connection
