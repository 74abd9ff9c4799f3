import Parodus.Connection.Steps

namespace Parodus.Connection

open Foundation.Runs

variable {dep : Deployment} {calls : Calls} {s t : State} {a : Action} {pending : Bool}

/-- Whether a request to reconnect was made that no test of `close_retry` has served yet. -/
def observePending (s : State) (a : Action) (pending : Bool) : Bool :=
  match a, s.pc with
  | .crud, _ => pending || s.crud = .setRetry
  | .main _, .loopListenerSet _ => true
  | .main _, .pingMissSet => true
  | .main _, .retryCheck => pending && !s.globals.closeRetry
  | _, _ => pending

/-- The loop was left for a reason, and no request was lost. -/
structure KeepsRunning (x : State × Bool) : Prop where
  left : x.1.pc = .joining false → x.1.gShutdown = true
  served : x.2 = true → x.1.globals.closeRetry = true

def Caller.inLoop : Caller → Bool
  | .keepTrying => false
  | .mainLoop => true

def Closer.inLoop : Closer → Bool
  | .attempt _ _ | .closeRetry => false
  | .down caller => caller.inLoop
  | .final => true

/-- From the head of an iteration to its test of `close_retry` that reconnects, and
behind the loop. -/
def Pc.hears : Pc → Bool
  | .loopWait | .loopListener _ | .loopListenerSet _ | .heartBeat _ => true
  | .pingMiss | .pingMissReason | .pingMissSet | .pingMissReset => true
  | .interfaceCheck | .retryCheck | .shutdownTest => true
  | .downTest caller | .downWait caller => caller.inLoop
  | .close k | .closeListener k | .closeListenerSet k | .release k => k.inLoop
  | .joining _ | .terminated | .aborted | .crashed => true
  | _ => false

/-- From the reset of `close_retry` to the test of it that ends the loop. -/
def Pc.ends : Pc → Bool
  | .handlers | .returned _ | .loopTest => true
  | _ => false

theorem Pc.not_ends {pc : Pc} (h : pc.hears = true) : pc.ends = false := by
  cases pc <;> first | rfl | cases h

/-- The CRUD thread sets `close_retry` only where the main loop takes it for a request to
reconnect, or where the loop is about to end because of a shutdown. -/
def SetInTime (s : State) (a : Action) : Prop :=
  a = .crud → s.crud = .setRetry →
    s.pc.hears = true ∨ s.pc.ends = true ∧ s.gShutdown = true

/-- Behind the first lookup of the servers. -/
def Pc.looked : Pc → Bool
  | .enter | .returned false | .aborted | .crashed => false
  | _ => true

structure Steady (x : State × Bool) : Prop where
  left : x.1.pc = .joining false → x.1.gShutdown = true
  served : x.2 = true → x.1.globals.closeRetry = true
  heard : x.2 = true → x.1.pc.hears = true ∨ x.1.pc.ends = true ∧ x.1.gShutdown = true
  ends : x.1.pc.ends = true → x.1.pc ≠ .returned false → x.1.globals.closeRetry = true →
    x.1.gShutdown = true
  refused : x.1.pc = .returned false → x.1.started = true → x.1.gShutdown = true
  defaults : x.1.started = true ∨ x.1.pc.looked = true → x.1.serverList.defaults.url = none →
    x.1.gShutdown = true

theorem Steady.keepsRunning {x : State × Bool} (hx : Steady x) : KeepsRunning x :=
  ⟨hx.left, hx.served⟩

theorem steady_init : Steady (init, false) := by
  constructor <;> simp [init, Pc.ends, Pc.looked]

/-- Where a flag, or what the loop has to know of it, changes. -/
def Pc.decides : Pc → Bool
  | .enter | .gaveUp | .reset | .returned _ | .retryCheck | .loopTest | .shutdownTest => true
  | .loopListenerSet _ | .pingMissSet | .closeListenerSet _ => true
  | _ => false

structure SameFlags (s t : State) : Prop where
  closeRetry : t.globals.closeRetry = s.globals.closeRetry
  gShutdown : s.gShutdown = true → t.gShutdown = true
  started : t.started = s.started
  defaults : t.serverList.defaults = s.serverList.defaults
  left : t.pc = .joining false → s.pc = .joining false
  hears : s.pc.hears = true → t.pc.hears = true
  ends : t.pc.ends = true → t.pc ≠ .returned false → s.pc.ends = true ∧ s.pc ≠ .returned false
  endsNext : s.pc.ends = true → t.pc.ends = true
  refused : t.pc = .returned false → s.pc = .returned false
  looked : t.pc.looked = true → s.pc.looked = true

theorem mainStep_sameFlags (h : s.pc.decides = false) :
    SameFlags s (mainStep dep calls s) := by
  unfold mainStep
  cases hpc : s.pc
  case enter | gaveUp | reset | returned | retryCheck | loopTest | shutdownTest
    | loopListenerSet | pingMissSet | closeListenerSet => rw [hpc] at h; cases h
  case connect ipv6 =>
    dsimp only
    obtain ⟨_, heq⟩ | ⟨_, heq⟩ | ⟨_, globals, sigterm, timer, hretry, heq⟩ :=
      nopollConnect_cases calls s ipv6
    all_goals
      rw [heq]
      constructor <;> simp [Pc.hears, Pc.ends, Pc.looked, hpc]
    exact hretry
  case wait ipv6 =>
    dsimp only
    obtain ⟨_, heq⟩ | ⟨_, rtn, heq⟩ | ⟨_, redirect, _, _, heq⟩ | ⟨url, redirect, _, _, heq⟩ :=
      waitConnectionReady_cases calls s ipv6
    all_goals
      rw [heq]
      constructor <;> simp [Pc.hears, Pc.ends, Pc.looked, hpc]
  case close k =>
    dsimp only [closeStep]
    repeat' split
    all_goals constructor
    all_goals
      cases k <;>
        simp [Pc.hears, Pc.ends, Pc.looked, Closer.next, Closer.inLoop, Caller.inLoop, hpc]
  case release k =>
    dsimp only [releaseStep]
    constructor
    all_goals
      cases k <;>
        simp [Pc.hears, Pc.ends, Pc.looked, Closer.next, Closer.inLoop, Caller.inLoop, hpc]
  -- only the main loop's wait is a place where a request is heard
  case downTest caller | downWait caller =>
    dsimp only
    cases caller
    all_goals
      split
      all_goals
        constructor <;>
          simp [Pc.hears, Pc.ends, Pc.looked, Caller.inLoop, Caller.up, Caller.error, hpc]
  all_goals
    dsimp only [judgedStep, loopWaitStep, heartBeatStep, listenerStep, listenerSetStep]
    repeat' split
    all_goals
      constructor <;>
        simp [Pc.hears, Pc.ends, Pc.looked, Closer.inLoop, Caller.inLoop, hpc]

/-- The servers are looked up at the first call, and none is lost but for a shutdown. -/
structure ServersKnown (s : State) : Prop where
  refused : s.pc = .returned false → s.started = true → s.gShutdown = true
  defaults : s.started = true ∨ s.pc.looked = true → s.serverList.defaults.url = none →
    s.gShutdown = true

theorem serversKnown_init : ServersKnown init := ⟨nofun, nofun⟩

theorem Steady.known (hs : Steady (s, pending)) : ServersKnown s := ⟨hs.refused, hs.defaults⟩

theorem ServersKnown.sameFlags (hs : ServersKnown s) (h : SameFlags s t) : ServersKnown t where
  refused hpc hstarted := h.gShutdown (hs.refused (h.refused hpc) (h.started.symm.trans hstarted))
  defaults := by
    rw [h.started, h.defaults]
    exact fun hlooked hnone ↦ h.gShutdown (hs.defaults (hlooked.imp_right h.looked) hnone)

theorem ServersKnown.enter (hs : ServersKnown s) : ServersKnown (enterStep dep calls s) := by
  obtain ⟨hurl, heq⟩ | ⟨hurl, _, heq⟩ | ⟨hurl, rtn, serverList, hfind, heq⟩ :=
    enterStep_cases dep calls s
  · rw [heq]
    exact ⟨nofun, fun _ h ↦ absurd h hurl⟩
  · rw [heq]
    refine ⟨nofun, ?_⟩
    rintro (hstarted | hlooked) _
    · exact hs.defaults (.inl hstarted) hurl
    · cases hlooked
  · rw [heq]
    by_cases hrtn : rtn = .invalidDefault
    · rw [if_pos hrtn]
      refine ⟨fun _ hstarted ↦ hs.defaults (.inl hstarted) hurl, ?_⟩
      rintro (hstarted | hlooked) _
      · exact hs.defaults (.inl hstarted) hurl
      · cases hlooked
    · rw [if_neg hrtn]
      refine ⟨nofun, ?_⟩
      intro _ hnone
      obtain ⟨⟨url, _, hsome⟩, _⟩ := findServers_found hfind hrtn
      rw [hsome] at hnone
      cases hnone

theorem ServersKnown.gaveUp (hs : ServersKnown s) (hpc : s.pc = .gaveUp) :
    ServersKnown (gaveUpStep dep calls s) := by
  have hdefaults := hs.defaults (.inr (by rw [hpc]; rfl))
  obtain ⟨_, heq⟩ | heq | ⟨_, _, rtn, serverList, hfind, heq⟩ :=
    gaveUpStep_cases dep calls s
  · rw [heq]
    exact ⟨nofun, fun _ ↦ hdefaults⟩
  · rw [heq]
    exact ⟨nofun, fun _ ↦ hdefaults⟩
  · rw [heq]
    refine ⟨nofun, ?_⟩
    intro _ hnone
    by_cases hrtn : rtn = .invalidDefault
    · simp [hrtn]
    · obtain ⟨⟨url, _, hsome⟩, _⟩ := findServers_found hfind hrtn
      rw [hsome] at hnone
      cases hnone

theorem ServersKnown.mainStep (hs : ServersKnown s) : ServersKnown (mainStep dep calls s) := by
  by_cases hdecides : s.pc.decides = false
  · exact hs.sameFlags (mainStep_sameFlags hdecides)
  have hlooked : s.pc.looked = true → s.serverList.defaults.url = none → s.gShutdown = true :=
    fun hlooked ↦ hs.defaults (.inr hlooked)
  unfold Connection.mainStep
  cases hpc : s.pc
  case enter => exact hs.enter
  case gaveUp => exact hs.gaveUp hpc
  case returned created =>
    dsimp only
    by_cases hstarted : s.started = true
    · rw [if_pos hstarted]
      exact ⟨nofun, fun _ ↦ hs.defaults (.inl hstarted)⟩
    · rw [if_neg hstarted]
      cases created with
      | true => exact ⟨nofun, fun _ ↦ hlooked (by rw [hpc]; rfl)⟩
      | false =>
        refine ⟨nofun, ?_⟩
        rintro (h | h)
        · exact absurd h hstarted
        · cases h
  case retryCheck | loopTest | shutdownTest =>
    dsimp only
    split
    · exact ⟨nofun, fun _ ↦ hlooked (by rw [hpc]; rfl)⟩
    · exact ⟨nofun, fun _ ↦ hlooked (by rw [hpc]; rfl)⟩
  case reset | loopListenerSet | pingMissSet | closeListenerSet =>
    exact ⟨nofun, fun _ ↦ hlooked (by rw [hpc]; rfl)⟩
  all_goals
    rw [hpc] at hdecides
    exact absurd rfl hdecides

theorem Steady.not_pending {s : State} (hs : Steady (s, pending)) (hhears : s.pc.hears = false)
    (hends : s.pc.ends = false) : pending ≠ true := by
  intro hpending
  obtain h | ⟨h, _⟩ := hs.heard hpending
  · exact Bool.false_ne_true (hhears.symm.trans h)
  · exact Bool.false_ne_true (hends.symm.trans h)

theorem observePending_same (h : s.pc.decides = false) :
    observePending s (.main calls) pending = pending := by
  unfold observePending
  split
  all_goals first
    | rfl
    | (rename_i heq; cases heq)
    | (rename_i hpc; rw [hpc] at h; cases h)

theorem Steady.sameFlags (hs : Steady (s, pending)) (h : SameFlags s t) : Steady (t, pending) where
  left hpc := h.gShutdown (hs.left (h.left hpc))
  served hpending := h.closeRetry.trans (hs.served hpending)
  heard hpending := (hs.heard hpending).imp h.hears (And.imp h.endsNext h.gShutdown)
  ends hends hreturned hretry := by
    obtain ⟨hends', hreturned'⟩ := h.ends hends hreturned
    exact h.gShutdown (hs.ends hends' hreturned' (h.closeRetry.symm.trans hretry))
  refused := (hs.known.sameFlags h).refused
  defaults := (hs.known.sameFlags h).defaults

section MainStep

theorem Steady.enter (hs : Steady (s, pending)) (hpc : s.pc = .enter) :
    Steady (enterStep dep calls s, pending) := by
  have hnot : pending ≠ true := hs.not_pending (by rw [hpc]; rfl) (by rw [hpc]; rfl)
  have hknown : ServersKnown (enterStep dep calls s) := hs.known.enter
  obtain ⟨_, heq⟩ | ⟨_, _, heq⟩ | ⟨_, rtn, serverList, _, heq⟩ :=
    enterStep_cases dep calls s
  · rw [heq] at hknown ⊢
    exact ⟨nofun, hs.served, fun h ↦ absurd h hnot, nofun, nofun, hknown.defaults⟩
  · rw [heq] at hknown ⊢
    exact ⟨nofun, hs.served, fun h ↦ absurd h hnot, nofun, nofun, hknown.defaults⟩
  · rw [heq] at hknown ⊢
    by_cases hrtn : rtn = .invalidDefault
    · rw [if_pos hrtn] at hknown ⊢
      exact ⟨nofun, hs.served, fun h ↦ absurd h hnot, fun _ h ↦ absurd rfl h, hknown.refused,
        hknown.defaults⟩
    · rw [if_neg hrtn] at hknown ⊢
      exact ⟨nofun, hs.served, fun h ↦ absurd h hnot, nofun, nofun, hknown.defaults⟩

theorem Steady.gaveUp (hs : Steady (s, pending)) (hpc : s.pc = .gaveUp) :
    Steady (gaveUpStep dep calls s, pending) := by
  have hnot : pending ≠ true := hs.not_pending (by rw [hpc]; rfl) (by rw [hpc]; rfl)
  have hknown : ServersKnown (gaveUpStep dep calls s) := hs.known.gaveUp hpc
  obtain ⟨_, heq⟩ | heq | ⟨_, _, rtn, serverList, _, heq⟩ :=
    gaveUpStep_cases dep calls s
  all_goals
    rw [heq] at hknown ⊢
    exact ⟨nofun, hs.served, fun h ↦ absurd h hnot, nofun, nofun, hknown.defaults⟩

theorem Steady.returned (hs : Steady (s, pending)) {created : Bool}
    (hpc : s.pc = .returned created) :
    Steady (mainStep dep calls s, pending) := by
  have hheard := fun h ↦ hs.heard h
  have hhears : s.pc.hears = false := by rw [hpc]; rfl
  simp only [mainStep, hpc]
  by_cases hstarted : s.started = true
  · rw [if_pos hstarted]
    refine ⟨nofun, hs.served, ?_, ?_, nofun, fun _ ↦ hs.defaults (.inl hstarted)⟩
    · intro hpending
      obtain h | ⟨_, hshutdown⟩ := hs.heard hpending
      · exact absurd (hhears.symm.trans h) Bool.false_ne_true
      · exact .inr ⟨rfl, hshutdown⟩
    · intro _ _ hretry
      cases created with
      | false => exact hs.refused hpc hstarted
      | true => exact hs.ends (by rw [hpc]; rfl) (by rw [hpc]; exact nofun) hretry
  rw [if_neg hstarted]
  cases created with
  | true =>
    rw [if_pos rfl]
    exact ⟨nofun, hs.served, fun _ ↦ .inl rfl, nofun, nofun,
      fun _ ↦ hs.defaults (.inr (by rw [hpc]; rfl))⟩
  | false =>
    rw [if_neg Bool.false_ne_true]
    refine ⟨nofun, hs.served, fun _ ↦ .inl rfl, nofun, nofun, ?_⟩
    rintro (h | h)
    · exact absurd h hstarted
    · cases h

theorem Steady.retryCheck (hs : Steady (s, pending)) (hpc : s.pc = .retryCheck) :
    Steady (mainStep dep calls s, pending && !s.globals.closeRetry) := by
  have hdefaults := hs.defaults (.inr (by rw [hpc]; rfl))
  simp only [mainStep, hpc]
  by_cases hretry : s.globals.closeRetry = true
  · rw [if_pos hretry, hretry, Bool.not_true, Bool.and_false]
    exact ⟨nofun, nofun, nofun, nofun, nofun, fun _ ↦ hdefaults⟩
  · rw [if_neg hretry]
    have hnot : ¬ (pending && !s.globals.closeRetry) = true :=
      fun h ↦ hretry (hs.served (Bool.and_eq_true_iff.mp h).1)
    exact ⟨nofun, fun h ↦ absurd h hnot, fun h ↦ absurd h hnot, fun _ _ h ↦ absurd h hretry,
      nofun, fun _ ↦ hdefaults⟩

theorem Steady.loopTest (hs : Steady (s, pending)) (hpc : s.pc = .loopTest) :
    Steady (mainStep dep calls s, pending) := by
  have hends := hs.ends (by rw [hpc]; rfl) (by rw [hpc]; exact nofun)
  have hdefaults := hs.defaults (.inr (by rw [hpc]; rfl))
  simp only [mainStep, hpc]
  by_cases hretry : s.globals.closeRetry = true
  · rw [if_pos hretry]
    exact ⟨fun _ ↦ hends hretry, hs.served, fun _ ↦ .inl rfl, nofun, nofun, fun _ ↦ hdefaults⟩
  · rw [if_neg hretry]
    exact ⟨nofun, hs.served, fun _ ↦ .inl rfl, nofun, nofun, fun _ ↦ hdefaults⟩

theorem Steady.shutdownTest (hs : Steady (s, pending)) (hpc : s.pc = .shutdownTest) :
    Steady (mainStep dep calls s, pending) := by
  have hdefaults := hs.defaults (.inr (by rw [hpc]; rfl))
  simp only [mainStep, hpc]
  by_cases hshutdown : s.gShutdown = true
  · rw [if_pos hshutdown]
    exact ⟨fun _ ↦ hshutdown, hs.served, fun _ ↦ .inl rfl, nofun, nofun, fun _ ↦ hdefaults⟩
  · rw [if_neg hshutdown]
    exact ⟨nofun, hs.served, fun _ ↦ .inl rfl, nofun, nofun, fun _ ↦ hdefaults⟩

/-- The listener may set `close_retry` while a connection is closed. -/
theorem Steady.closeListenerSet (hs : Steady (s, pending)) {k : Closer}
    (hpc : s.pc = .closeListenerSet k) : Steady (listenerSetStep (.release k) s, pending) := by
  have hdefaults := hs.defaults (.inr (by rw [hpc]; rfl))
  have hheard : pending = true → k.inLoop = true := by
    intro hpending
    have hheard := hs.heard hpending
    dsimp only at hheard
    rw [hpc] at hheard
    obtain h | ⟨h, _⟩ := hheard
    · exact h
    · cases h
  exact ⟨nofun, fun _ ↦ rfl, fun h ↦ .inl (hheard h), nofun, nofun, fun _ ↦ hdefaults⟩

theorem Steady.mainStep (hs : Steady (s, pending)) :
    Steady (mainStep dep calls s, observePending s (.main calls) pending) := by
  by_cases hdecides : s.pc.decides = false
  · rw [observePending_same hdecides]
    exact hs.sameFlags (mainStep_sameFlags hdecides)
  cases hpc : s.pc
  case enter =>
    simp only [Connection.mainStep, observePending, hpc]
    exact hs.enter hpc
  case gaveUp =>
    simp only [Connection.mainStep, observePending, hpc]
    exact hs.gaveUp hpc
  case returned created =>
    simp only [observePending, hpc]
    exact hs.returned hpc
  case retryCheck =>
    simp only [observePending, hpc]
    exact hs.retryCheck hpc
  case reset =>
    have hnot : pending ≠ true := hs.not_pending (by rw [hpc]; rfl) (by rw [hpc]; rfl)
    have hdefaults := hs.defaults (.inr (by rw [hpc]; rfl))
    simp only [Connection.mainStep, observePending, hpc]
    exact ⟨nofun, fun h ↦ absurd h hnot, fun h ↦ absurd h hnot, nofun, nofun, fun _ ↦ hdefaults⟩
  case loopTest =>
    simp only [observePending, hpc]
    exact hs.loopTest hpc
  case shutdownTest =>
    simp only [observePending, hpc]
    exact hs.shutdownTest hpc
  case loopListenerSet timeMs | pingMissSet =>
    have hdefaults := hs.defaults (.inr (by rw [hpc]; rfl))
    simp only [Connection.mainStep, observePending, hpc, listenerSetStep]
    exact ⟨nofun, fun _ ↦ rfl, fun _ ↦ .inl rfl, nofun, nofun, fun _ ↦ hdefaults⟩
  case closeListenerSet k =>
    simp only [Connection.mainStep, observePending, hpc]
    exact hs.closeListenerSet hpc
  all_goals
    rw [hpc] at hdecides
    exact absurd rfl hdecides

end MainStep

/-- Another thread leaves `close_retry` as it is, except where the CRUD thread sets it. -/
theorem aside_closeRetry (pending : Bool) (hother : ∀ calls, a ≠ .main calls) (h : Step dep s a t) :
    (a = .crud ∧ s.crud = .setRetry ∧ t.globals.closeRetry = true) ∨
      (t.globals.closeRetry = s.globals.closeRetry ∧ observePending s a pending = pending) := by
  unfold Step at h
  cases a with
  | main calls => exact absurd rfl (hother calls)
  | setShutdown | setInterfaceDown | resetInterfaceDown =>
    obtain rfl := Option.some.inj h
    exact .inr ⟨rfl, rfl⟩
  | request reason =>
    dsimp only [step] at h
    split at h
    · obtain rfl := Option.some.inj h
      exact .inr ⟨rfl, rfl⟩
    · cases h
  | crud =>
    dsimp only [step, crudStep] at h
    split at h
    · cases h
    · rename_i hcrud
      obtain rfl := Option.some.inj h
      exact .inr ⟨rfl, by simp [observePending, hcrud]⟩
    · rename_i hcrud
      obtain rfl := Option.some.inj h
      exact .inr ⟨rfl, by simp [observePending, hcrud]⟩
    · rename_i hcrud
      obtain rfl := Option.some.inj h
      exact .inr ⟨rfl, by simp [observePending, hcrud]⟩
    · rename_i hcrud
      obtain rfl := Option.some.inj h
      exact .inl ⟨rfl, hcrud, rfl⟩

theorem observePending_setRetry (h : s.crud = .setRetry) :
    observePending s .crud pending = true := by
  simp [observePending, h]

theorem Aside.sameFlags (h : Aside s t) (hretry : t.globals.closeRetry = s.globals.closeRetry) :
    SameFlags s t := by
  constructor
  case closeRetry => exact hretry
  case gShutdown => exact h.gShutdown
  case started => exact h.started
  case defaults => exact congrArg ServerList.defaults h.serverList
  all_goals
    rw [h.pc]
    try exact id
  exact And.intro

theorem Steady.request (hs : Steady (s, pending)) (h : Aside s t)
    (hretry : t.globals.closeRetry = true)
    (hin : s.pc.hears = true ∨ s.pc.ends = true ∧ s.gShutdown = true) : Steady (t, true) where
  left hpc := h.gShutdown (hs.left (h.pc.symm.trans hpc))
  served _ := hretry
  heard _ := by
    rw [h.pc]
    exact hin.imp_right (And.imp_right h.gShutdown)
  ends hpc _ _ := by
    obtain hhears | ⟨_, hshutdown⟩ := hin
    · have hpc : t.pc.ends = true := hpc
      rw [h.pc, Pc.not_ends hhears] at hpc
      cases hpc
    · exact h.gShutdown hshutdown
  refused hpc hstarted :=
    h.gShutdown (hs.refused (h.pc.symm.trans hpc) (h.started.symm.trans hstarted))
  defaults := by
    rw [h.pc, h.started, h.serverList]
    exact fun hlooked hnone ↦ h.gShutdown (hs.defaults hlooked hnone)

theorem Steady.step {x y : State × Bool} (hx : Steady x) (hok : SetInTime x.1 a)
    (h : Observed (Step dep) observePending x a y) : Steady y := by
  obtain ⟨s, pending⟩ := x
  obtain ⟨t, pending'⟩ := y
  obtain ⟨hstep, rfl⟩ := h
  obtain ⟨calls, rfl, rfl⟩ | ⟨hother, haside⟩ := step_cases hstep
  · exact hx.mainStep
  obtain ⟨rfl, hcrud, hretry⟩ | ⟨hretry, hobserve⟩ := aside_closeRetry pending hother hstep
  · rw [observePending_setRetry hcrud]
    exact hx.request haside hretry (hok rfl hcrud)
  · rw [hobserve]
    exact hx.sameFlags (haside.sameFlags hretry)

theorem run_keepsRunning {x : State × Bool} {tr : List ((State × Bool) × Action)}
    (h : Run (Observed (Step dep) observePending) (init, false) tr x)
    (hok : Every (fun x a ↦ SetInTime x.1 a) tr) : Throughout KeepsRunning tr x := by
  have hkeep : ∀ x a y, Steady x → SetInTime x.1 a → Observed (Step dep) observePending x a y →
      Steady y := fun _ _ _ ↦ Steady.step
  exact h.throughout_of_every (fun _ ↦ Steady.keepsRunning) hkeep steady_init hok

/-- A cloud-disconnect request, up to where the CRUD thread calls `set_close_retry`. -/
def requested : List Action := .request "upgrade".toList :: List.replicate 3 .crud

/-- `set_close_retry` is called between the two tests of the flag in an iteration. -/
def leftRun : List Action :=
  List.replicate 10 (.main quiet) ++ requested ++ List.replicate 4 (.main quiet) ++
    [.crud, .main quiet]

theorem run_not_keepsRunning_left : ∃ tr x,
    Run (Observed (Step cloudDeployment) observePending) (init, false) tr x ∧
      x.1.started = true ∧ x.1.pc = .joining false ∧ x.1.gShutdown = false ∧
      ¬ Throughout KeepsRunning tr x := by
  have hexec : (exec (watch (step cloudDeployment) observePending) (init, false) leftRun).map
      (fun r ↦ (r.2.1.started, r.2.1.pc, r.2.1.gShutdown)) =
        some (true, .joining false, false) := by
    simp only [cloudDeployment, String.reduceToList]
    rfl
  obtain ⟨r, hr, heq⟩ := Option.map_eq_some_iff.mp hexec
  obtain ⟨hstarted, heq⟩ := Prod.mk.inj heq
  obtain ⟨hpc, hshutdown⟩ := Prod.mk.inj heq
  refine ⟨r.1, r.2, run_of_exec_watch hr, hstarted, hpc, hshutdown, ?_⟩
  intro hkeeps
  exact Bool.false_ne_true (hshutdown.symm.trans (hkeeps.2.left hpc))

/-- The request comes at the head of an iteration, and the connection is made again. -/
def servedRun : List Action :=
  List.replicate 10 (.main quiet) ++ requested ++ .crud :: List.replicate 20 (.main quiet)

theorem run_keepsRunning_served : ∃ tr x,
    Run (Observed (Step cloudDeployment) observePending) (init, false) tr x ∧
      x.1.pc = .loopWait ∧ x.1.opened = 2 ∧ Throughout KeepsRunning tr x := by
  have hexec : (exec (watch (step cloudDeployment) observePending) (init, false) servedRun).map
      (fun r ↦ (r.2.1.pc, r.2.1.opened, r.1.all fun x ↦ x.1.1.crud ≠ .setRetry || x.1.1.pc.hears)) =
        some (.loopWait, 2, true) := by
    simp only [cloudDeployment, String.reduceToList]
    rfl
  obtain ⟨r, hr, heq⟩ := Option.map_eq_some_iff.mp hexec
  obtain ⟨hpc, heq⟩ := Prod.mk.inj heq
  obtain ⟨hopened, hall⟩ := Prod.mk.inj heq
  have hrun : Run (Observed (Step cloudDeployment) observePending) (init, false) r.1 r.2 :=
    run_of_exec_watch hr
  refine ⟨r.1, r.2, hrun, hpc, hopened, run_keepsRunning hrun ?_⟩
  intro x hx _ hcrud
  have hx := List.all_eq_true.mp hall x hx
  simp only [hcrud, ne_eq, not_true_eq_false, decide_false, Bool.false_or] at hx
  exact .inl hx

end Parodus.Connection
