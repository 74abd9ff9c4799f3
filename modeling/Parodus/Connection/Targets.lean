import Parodus.Connection.Episode

namespace Parodus.Connection

open Config Foundation.Runs

variable {dep : Deployment} {calls : Calls} {s t : State} {a : Action}

/-- What a connection should be attempted with: the last redirect of the episode of
`keep_trying_to_connect`, the server of the last JWT query, and the default server. -/
structure Targets where
  redirect : Option WebpaUrl
  jwt : Option WebpaUrl
  defaults : Option WebpaUrl

def Targets.target (g : Targets) : Option WebpaUrl := g.redirect.or (g.jwt.or g.defaults)

/-- A lookup of the servers, which makes no JWT query without a default server. -/
def Targets.found (dep : Deployment) (calls : Calls) (g : Targets) : Targets where
  redirect := g.redirect
  jwt :=
    (parseWebpaUrl calls.find.urlAllocated dep.cfg.webpaUrl.text).bind fun _ ↦
      jwtQuery dep calls.find
  defaults := parseWebpaUrl calls.find.urlAllocated dep.cfg.webpaUrl.text

def observeTargets (dep : Deployment) (s : State) (a : Action) (g : Targets) : Targets :=
  match a, s.pc with
  | .main calls, .enter => if serverIsNull s.serverList.defaults then g.found dep calls else g
  | .main calls, .gaveUp =>
    if dep.featureDnsQuery = true ∧ serverIsNull s.serverList.jwt = true then g.found dep calls
    else g
  | .main _, .tryLoop => { g with redirect := none }
  | .main calls, .wait _ => { g with redirect := (parsedRedirect calls).or g.redirect }
  | _, _ => g

/-- Every attempt goes to the right server, and that one has a proper url. -/
def RightTarget (x : State × Targets) : Prop :=
  ∀ ipv6, x.1.pc = .connect ipv6 → ∃ slot url, x.1.currentServer = some slot ∧
    (x.1.serverList.get slot).url = some url ∧ Proper url ∧ x.2.target = some url

/-- The current server is the one that the list gives. -/
def Synced (x : State × Targets) : Prop :=
  x.1.currentServer = some (getCurrentServer x.1.serverList) ∧
    x.1.serverList.redirect.url = x.2.redirect

/-- A bad redirect has emptied the current server. -/
def Spoiled (s : State) : Prop :=
  ∃ slot, s.currentServer = some slot ∧ (s.serverList.get slot).allowInsecure = -1

def Targets.Proper (g : Targets) : Prop :=
  ∀ url, g.redirect = some url ∨ g.jwt = some url ∨ g.defaults = some url → Connection.Proper url

structure Tracked (x : State × Targets) : Prop where
  defaults : x.1.serverList.defaults.url = x.2.defaults
  jwt : x.1.serverList.jwt.url = x.2.jwt
  proper : x.2.Proper
  outside : x.1.pc.inEpisode = false → x.1.serverList.redirect.url = none
  present : x.1.pc.inEpisode = true → x.1.serverList.defaults.url ≠ none
  atLoop : x.1.pc = .tryLoop → x.1.gShutdown = false → x.1.serverList.defaults.url ≠ none
  retries : x.1.pc.retries = true → Synced x
  fails : x.1.pc.fails = true → Synced x ∨ Spoiled x.1

theorem get_getCurrentServer_url (serverList : ServerList) :
    (serverList.get (getCurrentServer serverList)).url =
      serverList.redirect.url.or (serverList.jwt.url.or serverList.defaults.url) := by
  unfold getCurrentServer
  by_cases hredirect : serverIsNull serverList.redirect = false
  · obtain ⟨url, hurl⟩ := serverIsNull_eq_false_iff.mp hredirect
    rw [if_pos hredirect, ServerList.get, hurl, Option.some_or]
  rw [if_neg hredirect, serverIsNull_iff.mp (Bool.eq_true_of_not_eq_false hredirect),
    Option.none_or]
  by_cases hjwt : serverIsNull serverList.jwt = false
  · obtain ⟨url, hurl⟩ := serverIsNull_eq_false_iff.mp hjwt
    rw [if_pos hjwt, ServerList.get, hurl, Option.some_or]
  · rw [if_neg hjwt, serverIsNull_iff.mp (Bool.eq_true_of_not_eq_false hjwt), Option.none_or]
    rfl

theorem Tracked.rightTarget {x : State × Targets} (hx : Tracked x) : RightTarget x := by
  intro ipv6 hpc
  obtain ⟨hcurrent, hredirect⟩ := hx.retries (by rw [hpc]; rfl)
  have hurl := get_getCurrentServer_url x.1.serverList
  rw [hredirect, hx.jwt, hx.defaults] at hurl
  have hpresent := hx.present (by rw [hpc]; rfl)
  rw [hx.defaults] at hpresent
  obtain ⟨url, htarget⟩ : ∃ url, x.2.target = some url := by
    obtain ⟨url, hurl⟩ := Option.ne_none_iff_exists'.mp hpresent
    unfold Targets.target
    rw [hurl]
    cases x.2.redirect with
    | some url => exact ⟨url, rfl⟩
    | none =>
      cases x.2.jwt with
      | some url => exact ⟨url, rfl⟩
      | none => exact ⟨url, rfl⟩
  refine ⟨_, url, hcurrent, hurl.trans htarget, hx.proper url ?_, htarget⟩
  rw [Targets.target, Option.or_eq_some_iff, Option.or_eq_some_iff] at htarget
  obtain h | ⟨_, h | ⟨_, h⟩⟩ := htarget
  · exact .inl h
  · exact .inr (.inl h)
  · exact .inr (.inr h)

theorem Tracked.keep {x y : State × Targets} (hx : Tracked x)
    (hlist : y.1.serverList = x.1.serverList) (hcurrent : y.1.currentServer = x.1.currentServer)
    (hg : y.2 = x.2) (hepisode : y.1.pc.inEpisode = x.1.pc.inEpisode)
    (hretries : y.1.pc.retries = true → x.1.pc.retries = true)
    (hfails : y.1.pc.fails = true → x.1.pc.retries = true ∨ x.1.pc.fails = true)
    (hloop : y.1.pc = .tryLoop →
      x.1.pc = .tryLoop ∧ (x.1.gShutdown = true → y.1.gShutdown = true)) :
    Tracked y := by
  have hsynced : Synced x → Synced y := by
    rw [Synced, Synced, hlist, hcurrent, hg]
    exact id
  have hspoiled : Spoiled x.1 → Spoiled y.1 := by
    rw [Spoiled, Spoiled, hlist, hcurrent]
    exact id
  constructor
  case defaults => rw [hlist, hg]; exact hx.defaults
  case jwt => rw [hlist, hg]; exact hx.jwt
  case proper => rw [hg]; exact hx.proper
  case outside => rw [hlist, hepisode]; exact hx.outside
  case present => rw [hlist, hepisode]; exact hx.present
  case atLoop =>
    intro hpc hshutdown
    obtain ⟨hpc', hmono⟩ := hloop hpc
    rw [hlist]
    apply hx.atLoop hpc'
    exact Bool.eq_false_iff.mpr (mt hmono (Bool.eq_false_iff.mp hshutdown))
  case retries => exact fun hpc ↦ hsynced (hx.retries (hretries hpc))
  case fails =>
    intro hpc
    obtain hpc' | hpc' := hfails hpc
    · exact .inl (hsynced (hx.retries hpc'))
    · exact (hx.fails hpc').imp hsynced hspoiled

theorem observeTargets_same (h : s.pc.chooses = false) (g : Targets) :
    observeTargets dep s (.main calls) g = g := by
  unfold observeTargets
  split
  all_goals first
    | rfl
    | (rename_i hpc; rw [hpc] at h; cases h)

theorem Tracked.sameServers {g : Targets} (hs : Tracked (s, g)) (h : s.pc.chooses = false) :
    Tracked (mainStep dep calls s, observeTargets dep s (.main calls) g) := by
  have hsame := mainStep_sameServers dep calls h
  rw [observeTargets_same h]
  exact hs.keep hsame.serverList hsame.currentServer rfl hsame.inEpisode hsame.retries
    (fun hpc ↦ .inr (hsame.fails hpc)) (fun hpc ↦ absurd hpc hsame.tryLoop)

theorem Tracked.aside {g : Targets} (hs : Tracked (s, g)) (h : Aside s t) : Tracked (t, g) := by
  refine hs.keep h.serverList h.currentServer rfl ?_ ?_ ?_ ?_
  · exact congrArg Pc.inEpisode h.pc
  · exact fun hpc ↦ (congrArg Pc.retries h.pc).symm.trans hpc
  · exact fun hpc ↦ .inr ((congrArg Pc.fails h.pc).symm.trans hpc)
  · exact fun hpc ↦ ⟨h.pc.symm.trans hpc, h.gShutdown⟩

theorem Targets.Proper.found {g : Targets} (hg : g.Proper) : (g.found dep calls).Proper := by
  rintro url (h | h | h)
  · exact hg url (.inl h)
  · obtain ⟨_, _, hquery⟩ := Option.bind_eq_some_iff.mp h
    exact jwtQuery_proper hquery
  · exact parseWebpaUrl_eq_some h

theorem found_eq {serverList serverList' : ServerList} {rtn : FindRtn} (g : Targets)
    (h : findServers dep calls.find serverList = some (rtn, serverList')) :
    serverList'.defaults.url = (g.found dep calls).defaults ∧
      serverList'.jwt.url = (g.found dep calls).jwt ∧ serverList'.redirect.url = none ∧
      (rtn ≠ .invalidDefault → serverList'.defaults.url ≠ none) := by
  by_cases hrtn : rtn = .invalidDefault
  · subst hrtn
    obtain ⟨hparse, hdefaults, hjwt, hredirect⟩ := findServers_invalid h
    refine ⟨hdefaults.trans hparse.symm, ?_, hredirect, fun hne ↦ absurd rfl hne⟩
    rw [hjwt, Targets.found, hparse]
    rfl
  · obtain ⟨⟨url, hparse, hdefaults⟩, hjwt, hredirect⟩ := findServers_found h hrtn
    refine ⟨hdefaults.trans hparse.symm, ?_, hredirect, fun _ ↦ by simp [hdefaults]⟩
    rw [hjwt, Targets.found, hparse]
    rfl

/-- The process has crashed, or the servers are those that the observer notes. -/
def Followed (x : State × Targets) : Prop := x.1.pc = .crashed ∨ Tracked x

section MainStep

variable {g : Targets}

theorem Tracked.enter (hs : Tracked (s, g)) (hpc : s.pc = .enter) :
    Followed (enterStep dep calls s, observeTargets dep s (.main calls) g) := by
  have houtside := hs.outside (by rw [hpc]; rfl)
  obtain ⟨hurl, heq⟩ | ⟨_, _, heq⟩ | ⟨hurl, rtn, serverList, hfind, heq⟩ :=
    enterStep_cases dep calls s
  · right
    have hobserve : observeTargets dep s (.main calls) g = g := by
      have hnull : serverIsNull s.serverList.defaults ≠ true := mt serverIsNull_iff.mp hurl
      simp [observeTargets, hpc, hnull]
    rw [heq, hobserve]
    exact ⟨hs.defaults, hs.jwt, hs.proper, fun _ ↦ houtside, nofun, fun _ _ ↦ hurl, nofun, nofun⟩
  · left
    rw [heq]
  · right
    have hobserve : observeTargets dep s (.main calls) g = g.found dep calls := by
      simp [observeTargets, hpc, serverIsNull_iff.mpr hurl]
    rw [heq, hobserve]
    obtain ⟨hdefaults, hjwt, hredirect, hpresent⟩ := found_eq g hfind
    by_cases hrtn : rtn = .invalidDefault
    · rw [if_pos hrtn]
      exact ⟨hdefaults, hjwt, hs.proper.found, fun _ ↦ hredirect, nofun, nofun, nofun, nofun⟩
    · rw [if_neg hrtn]
      exact ⟨hdefaults, hjwt, hs.proper.found, fun _ ↦ hredirect, nofun, fun _ _ ↦ hpresent hrtn,
        nofun, nofun⟩

theorem Tracked.gaveUp (hs : Tracked (s, g)) (hpc : s.pc = .gaveUp) :
    Followed (gaveUpStep dep calls s, observeTargets dep s (.main calls) g) := by
  have hpresent := hs.present (by rw [hpc]; rfl)
  obtain ⟨hkeep, heq⟩ | heq | ⟨hfeature, hurl, rtn, serverList, hfind, heq⟩ :=
    gaveUpStep_cases dep calls s
  · right
    have hobserve : observeTargets dep s (.main calls) g = g := by
      have hquery : ¬ (dep.featureDnsQuery = true ∧ serverIsNull s.serverList.jwt = true) := by
        rintro ⟨hfeature, hnull⟩
        obtain hfalse | hsome := hkeep
        · exact absurd (hfalse.symm.trans hfeature) Bool.false_ne_true
        · exact hsome (serverIsNull_iff.mp hnull)
      simp only [observeTargets, hpc, if_neg hquery]
    rw [heq, hobserve]
    exact ⟨hs.defaults, hs.jwt, hs.proper, fun _ ↦ rfl, nofun, fun _ _ ↦ hpresent, nofun, nofun⟩
  · left
    rw [heq]
  · right
    have hobserve : observeTargets dep s (.main calls) g = g.found dep calls := by
      simp only [observeTargets, hpc, if_pos (And.intro hfeature (serverIsNull_iff.mpr hurl))]
    rw [heq, hobserve]
    obtain ⟨hdefaults, hjwt, hredirect, hfound⟩ := found_eq g hfind
    refine ⟨hdefaults, hjwt, hs.proper.found, fun _ ↦ hredirect, nofun, ?_, nofun, nofun⟩
    intro _ hshutdown
    obtain ⟨_, hrtn⟩ := Bool.or_eq_false_iff.mp hshutdown
    exact hfound (of_decide_eq_false hrtn)

theorem Tracked.tryLoop (hs : Tracked (s, g)) (hpc : s.pc = .tryLoop) :
    Tracked (mainStep dep calls s, observeTargets dep s (.main calls) g) := by
  have houtside := hs.outside (by rw [hpc]; rfl)
  have hproper : Targets.Proper { g with redirect := none } := by
    rintro url (h | h)
    · cases h
    · exact hs.proper url (.inr h)
  simp only [Connection.mainStep, observeTargets, hpc]
  by_cases hshutdown : s.gShutdown = true
  · rw [if_pos hshutdown]
    exact ⟨hs.defaults, hs.jwt, hproper, fun _ ↦ houtside, nofun, nofun, nofun, nofun⟩
  · rw [if_neg hshutdown]
    have hpresent := hs.atLoop hpc (Bool.eq_false_iff.mpr hshutdown)
    exact ⟨hs.defaults, hs.jwt, hproper, nofun, fun _ ↦ hpresent, nofun, fun _ ↦ ⟨rfl, houtside⟩,
      nofun⟩

theorem Tracked.connect (hs : Tracked (s, g)) {ipv6 : Bool} (hpc : s.pc = .connect ipv6) :
    Followed (nopollConnect calls ipv6 s, g) := by
  have hepisode : s.pc.inEpisode = true := by rw [hpc]; rfl
  have hretries : s.pc.retries = true := by rw [hpc]; rfl
  obtain ⟨_, heq⟩ | ⟨_, heq⟩ | ⟨_, globals, sigterm, timer, _, heq⟩ :=
    nopollConnect_cases calls s ipv6
  · left
    rw [heq]
    rfl
  · right
    rw [heq]
    exact hs.keep rfl rfl rfl hepisode.symm (fun _ ↦ hretries) nofun nofun
  · right
    rw [heq]
    exact hs.keep rfl rfl rfl hepisode.symm nofun (fun _ ↦ .inl hretries) nofun

/-- A bad redirect leaves the current server as it is, or takes its url. -/
theorem Synced.badRedirect {redirect : Server} (hs : Synced (s, g)) (hurl : redirect.url = none)
    (hneg : redirect.allowInsecure = -1) :
    Synced ({ s with serverList.redirect := redirect }, g) ∨
      Spoiled { s with serverList.redirect := redirect } := by
  obtain ⟨hcurrent, hredirect⟩ := hs
  dsimp only at hcurrent hredirect
  cases hg : g.redirect with
  | none =>
    left
    rw [hg] at hredirect
    refine ⟨?_, hurl.trans hg.symm⟩
    rw [hcurrent]
    unfold getCurrentServer
    rw [serverIsNull_iff.mpr hredirect, serverIsNull_iff.mpr hurl]
  | some url =>
    right
    rw [hg] at hredirect
    rw [getCurrentServer_redirect hredirect] at hcurrent
    exact ⟨.redirect, hcurrent, hneg⟩

theorem Tracked.wait (hs : Tracked (s, g)) {ipv6 : Bool} (hpc : s.pc = .wait ipv6) :
    Tracked (waitConnectionReady calls ipv6 s, observeTargets dep s (.main calls) g) := by
  have hobserve : observeTargets dep s (.main calls) g =
      { g with redirect := (parsedRedirect calls).or g.redirect } := by
    simp only [observeTargets, hpc]
  have hepisode : s.pc.inEpisode = true := by rw [hpc]; rfl
  have hretries : s.pc.retries = true := by rw [hpc]; rfl
  have hpresent := hs.present hepisode
  -- no redirect with success, none with a failure, a bad one, a good one
  obtain ⟨hnone, heq⟩ | ⟨hnone, rtn, heq⟩ | ⟨hnone, redirect, hurl, hneg, heq⟩ |
      ⟨url, redirect, hsome, hurl, heq⟩ := waitConnectionReady_cases calls s ipv6
  · rw [heq, hobserve, hnone]
    exact hs.keep rfl rfl rfl hepisode.symm nofun nofun nofun
  · rw [heq, hobserve, hnone]
    exact hs.keep rfl rfl rfl hepisode.symm (fun _ ↦ hretries) (fun _ ↦ .inl hretries) nofun
  · rw [heq, hobserve, hnone]
    exact ⟨hs.defaults, hs.jwt, hs.proper, nofun, fun _ ↦ hpresent, nofun, nofun,
      fun _ ↦ (hs.retries hretries).badRedirect hurl hneg⟩
  · rw [heq, hobserve, hsome]
    have hproper : Targets.Proper { g with redirect := some url } := by
      rintro url' (h | h)
      · obtain rfl := Option.some.inj h
        exact parsedRedirect_proper hsome
      · exact hs.proper url' (.inr h)
    exact ⟨hs.defaults, hs.jwt, hproper, nofun, fun _ ↦ hpresent, nofun,
      fun _ ↦ ⟨by rw [getCurrentServer_redirect hurl], hurl⟩, nofun⟩

theorem Tracked.judged (hs : Tracked (s, g)) {ipv6 : Bool} {rtn : WaitRtn}
    (hpc : s.pc = .judged ipv6 rtn) : Followed (judgedStep dep ipv6 rtn s, g) := by
  have hepisode : s.pc.inEpisode = true := by rw [hpc]; rfl
  unfold judgedStep
  cases rtn with
  | actionRetry =>
    right
    exact hs.keep rfl rfl rfl hepisode.symm (fun _ ↦ by rw [hpc]; rfl) nofun nofun
  | fail =>
    dsimp only
    cases hcurrent : s.currentServer with
    | none => exact .inl rfl
    | some slot =>
      right
      dsimp only
      by_cases hsecure : dep.cfg.flags = 0 ∧ (s.serverList.get slot).allowInsecure = 0 ∧ ipv6 = true
      · rw [if_pos hsecure]
        have hsynced : Synced (s, g) := by
          obtain hsynced | ⟨slot', hslot, hneg⟩ := hs.fails (by rw [hpc]; rfl)
          · exact hsynced
          · obtain rfl := Option.some.inj (hcurrent.symm.trans hslot)
            exact absurd (hsecure.2.1.symm.trans hneg) (by decide)
        have hpresent := hs.present hepisode
        exact ⟨hs.defaults, hs.jwt, hs.proper, nofun, fun _ ↦ hpresent, nofun,
          fun _ ↦ hsynced, nofun⟩
      · rw [if_neg hsecure]
        exact hs.keep rfl rfl rfl hepisode.symm nofun nofun nofun

theorem Tracked.mainStep (hs : Tracked (s, g)) :
    Followed (mainStep dep calls s, observeTargets dep s (.main calls) g) := by
  by_cases hchooses : s.pc.chooses = false
  · exact .inr (hs.sameServers hchooses)
  cases hpc : s.pc
  case enter =>
    simp only [Connection.mainStep, hpc]
    exact hs.enter hpc
  case gaveUp =>
    simp only [Connection.mainStep, hpc]
    exact hs.gaveUp hpc
  case tryLoop => exact .inr (hs.tryLoop hpc)
  case connect ipv6 =>
    simp only [Connection.mainStep, observeTargets, hpc]
    exact hs.connect hpc
  case wait ipv6 =>
    simp only [Connection.mainStep, hpc]
    exact .inr (hs.wait hpc)
  case judged ipv6 rtn =>
    simp only [Connection.mainStep, observeTargets, hpc]
    exact hs.judged hpc
  case connected =>
    simp only [Connection.mainStep, observeTargets, hpc]
    exact .inr ⟨hs.defaults, hs.jwt, hs.proper, fun _ ↦ rfl, nofun, nofun, nofun, nofun⟩
  all_goals
    rw [hpc] at hchooses
    exact absurd rfl hchooses

end MainStep

theorem observeTargets_other (h : ∀ calls, a ≠ .main calls) (g : Targets) :
    observeTargets dep s a g = g := by
  cases a with
  | main calls => exact absurd rfl (h calls)
  | _ => rfl

theorem Followed.step {x y : State × Targets} (hx : Followed x)
    (h : Observed (Step dep) (observeTargets dep) x a y) : Followed y := by
  obtain ⟨s, g⟩ := x
  obtain ⟨t, g'⟩ := y
  obtain ⟨hstep, rfl⟩ := h
  obtain ⟨calls, rfl, rfl⟩ | ⟨hother, haside⟩ := step_cases hstep
  · obtain hcrashed | hs := hx
    · left
      dsimp only at hcrashed
      simp only [Connection.mainStep, hcrashed]
    · exact hs.mainStep
  · rw [observeTargets_other hother]
    exact hx.imp haside.pc.trans fun hs ↦ hs.aside haside

theorem Followed.rightTarget {x : State × Targets} (hx : Followed x) : RightTarget x := by
  obtain hcrashed | hx := hx
  · intro ipv6 hpc
    rw [hcrashed] at hpc
    cases hpc
  · exact hx.rightTarget

theorem followed_init : Followed (init, ⟨none, none, none⟩) := by
  refine .inr ⟨rfl, rfl, ?_, fun _ ↦ rfl, nofun, nofun, nofun, nofun⟩
  rintro url (h | h | h) <;> cases h

theorem run_rightTarget {x : State × Targets} {tr : List ((State × Targets) × Action)}
    (h : Run (Observed (Step dep) (observeTargets dep)) (init, ⟨none, none, none⟩) tr x) :
    Throughout RightTarget tr x := by
  obtain ⟨htr, hx⟩ := h.invariant (fun _ _ _ hx hstep ↦ Followed.step hx hstep) followed_init
  exact ⟨fun y hy ↦ (htr y hy).rightTarget, hx.rightTarget⟩

theorem run_rightTarget_redirected : ∃ tr x,
    Run (Observed (Step cloudDeployment) (observeTargets cloudDeployment))
      (init, ⟨none, none, none⟩) tr x ∧
      x.1.pc = .connect true ∧ x.2.target = some ⟨1, "fabric".toList, 80⟩ ∧
      Throughout RightTarget tr x := by
  have hexec : (exec (watch (step cloudDeployment) (observeTargets cloudDeployment))
      (init, ⟨none, none, none⟩) (redirectedRun.take 9)).map (fun r ↦ (r.2.1.pc, r.2.2.target)) =
      some (.connect true, some ⟨1, "fabric".toList, 80⟩) := by
    simp only [cloudDeployment, redirectedRun, redirected, String.reduceToList]
    rfl
  obtain ⟨r, hr, heq⟩ := Option.map_eq_some_iff.mp hexec
  obtain ⟨hpc, htarget⟩ := Prod.mk.inj heq
  have hrun : Run (Observed (Step cloudDeployment) (observeTargets cloudDeployment))
      (init, ⟨none, none, none⟩) r.1 r.2 := run_of_exec_watch hr
  exact ⟨r.1, r.2, hrun, hpc, htarget, run_rightTarget hrun⟩

end Parodus.Connection
