import Parodus.Connection.Machine

namespace Parodus.Connection

open Config Token

variable {dep : Deployment} {calls : Calls} {s t : State} {a : Action}

section Goto

variable (s) (pc : Pc)

@[simp] theorem goto_pc : (s.goto pc).pc = pc := rfl
@[simp] theorem goto_started : (s.goto pc).started = s.started := rfl
@[simp] theorem goto_gShutdown : (s.goto pc).gShutdown = s.gShutdown := rfl
@[simp] theorem goto_globals : (s.goto pc).globals = s.globals := rfl
@[simp] theorem goto_gConn : (s.goto pc).gConn = s.gConn := rfl
@[simp] theorem goto_opened : (s.goto pc).opened = s.opened := rfl
@[simp] theorem goto_closed : (s.goto pc).closed = s.closed := rfl
@[simp] theorem goto_cloudStatus : (s.goto pc).cloudStatus = s.cloudStatus := rfl
@[simp] theorem goto_serverList : (s.goto pc).serverList = s.serverList := rfl
@[simp] theorem goto_currentServer : (s.goto pc).currentServer = s.currentServer := rfl

end Goto

/-- A step of another thread leaves the main thread's data as they are. -/
structure Aside (s t : State) : Prop where
  pc : t.pc = s.pc
  started : t.started = s.started
  gShutdown : s.gShutdown = true → t.gShutdown = true
  gConn : t.gConn = s.gConn
  opened : t.opened = s.opened
  closed : t.closed = s.closed
  cloudStatus : t.cloudStatus = s.cloudStatus
  serverList : t.serverList = s.serverList
  currentServer : t.currentServer = s.currentServer

theorem crudStep_aside (h : crudStep s = some t) : Aside s t := by
  unfold crudStep at h
  split at h
  · cases h
  all_goals
    obtain rfl := Option.some.inj h
    exact ⟨rfl, rfl, id, rfl, rfl, rfl, rfl, rfl, rfl⟩

theorem step_cases (h : Step dep s a t) :
    (∃ calls, a = .main calls ∧ t = mainStep dep calls s) ∨
      (∀ calls, a ≠ .main calls) ∧ Aside s t := by
  unfold Step at h
  cases a with
  | main calls => exact .inl ⟨calls, rfl, (Option.some.inj h).symm⟩
  | crud =>
    have haside := crudStep_aside h
    exact .inr ⟨by simp, haside⟩
  | setShutdown =>
    obtain rfl := Option.some.inj h
    exact .inr ⟨by simp, rfl, rfl, fun _ ↦ rfl, rfl, rfl, rfl, rfl, rfl, rfl⟩
  | setInterfaceDown | resetInterfaceDown =>
    obtain rfl := Option.some.inj h
    exact .inr ⟨by simp, rfl, rfl, id, rfl, rfl, rfl, rfl, rfl, rfl⟩
  | request reason =>
    dsimp only [step] at h
    split at h
    · obtain rfl := Option.some.inj h
      exact .inr ⟨by simp, rfl, rfl, id, rfl, rfl, rfl, rfl, rfl, rfl⟩
    · cases h

/-- The other threads set two flags, and the CRUD thread what it is about. -/
theorem step_other (hother : ∀ calls, a ≠ .main calls) (h : Step dep s a t) :
    ∃ crud gShutdown interfaceDownEvent globals, t = { s with
      crud := crud
      gShutdown := gShutdown
      interfaceDownEvent := interfaceDownEvent
      globals := globals } := by
  unfold Step at h
  cases a with
  | main calls => exact absurd rfl (hother calls)
  | setShutdown | setInterfaceDown | resetInterfaceDown =>
    exact ⟨_, _, _, _, (Option.some.inj h).symm⟩
  | request reason =>
    dsimp only [step] at h
    split at h
    · exact ⟨_, _, _, _, (Option.some.inj h).symm⟩
    · cases h
  | crud =>
    dsimp only [step, crudStep] at h
    split at h
    · cases h
    all_goals exact ⟨_, _, _, _, (Option.some.inj h).symm⟩

section Cases

variable (dep calls s)

theorem lookup_cases (next : FindRtn → State → State) :
    (findServers dep calls.find s.serverList = none ∧
      lookup dep calls s next = s.goto .crashed) ∨
    ∃ rtn serverList, findServers dep calls.find s.serverList = some (rtn, serverList) ∧
      lookup dep calls s next = next rtn { s with serverList := serverList } := by
  unfold lookup
  cases findServers dep calls.find s.serverList with
  | none => exact .inl ⟨rfl, rfl⟩
  | some r => exact .inr ⟨r.1, r.2, rfl, rfl⟩

/-- The default server is looked up where there is none. -/
theorem enterStep_cases :
    (s.serverList.defaults.url ≠ none ∧ enterStep dep calls s =
      { s with pc := .tryLoop, currentServer := none, connectTimer := none }) ∨
    (s.serverList.defaults.url = none ∧ findServers dep calls.find s.serverList = none ∧
      enterStep dep calls s =
        { s with pc := .crashed, currentServer := none, connectTimer := none }) ∨
    (s.serverList.defaults.url = none ∧ ∃ rtn serverList,
      findServers dep calls.find s.serverList = some (rtn, serverList) ∧
      enterStep dep calls s =
        { s with
          pc := if rtn = .invalidDefault then .returned false else .tryLoop
          currentServer := none
          connectTimer := none
          serverList := serverList }) := by
  unfold enterStep
  dsimp only
  by_cases hnull : serverIsNull s.serverList.defaults = true
  · rw [if_pos hnull]
    right
    have hurl := serverIsNull_iff.mp hnull
    obtain ⟨hfind, heq⟩ | ⟨rtn, serverList, hfind, heq⟩ :=
      lookup_cases dep calls { s with currentServer := none, connectTimer := none } fun rtn s ↦
          s.goto (if rtn = .invalidDefault then .returned false else .tryLoop)
    · exact .inl ⟨hurl, hfind, heq⟩
    · exact .inr ⟨hurl, rtn, serverList, hfind, heq⟩
  · rw [if_neg hnull]
    exact .inl ⟨mt serverIsNull_iff.mpr hnull, rfl⟩

theorem enterStep_pc :
    (enterStep dep calls s).pc = .tryLoop ∨ (enterStep dep calls s).pc = .returned false ∨
      (enterStep dep calls s).pc = .crashed := by
  obtain ⟨_, heq⟩ | ⟨_, _, heq⟩ | ⟨_, rtn, _, _, heq⟩ :=
    enterStep_cases dep calls s
  · exact .inl (congrArg State.pc heq)
  · exact .inr (.inr (congrArg State.pc heq))
  · rw [heq]
    by_cases hrtn : rtn = .invalidDefault
    · exact .inr (.inl (if_pos hrtn))
    · exact .inl (if_neg hrtn)

/-- The servers are looked up again where the JWT server is missing. -/
theorem gaveUpStep_cases :
    ((dep.featureDnsQuery = false ∨ s.serverList.jwt.url ≠ none) ∧ gaveUpStep dep calls s =
      { s with pc := .tryLoop, serverList.redirect := freeServer s.serverList.redirect }) ∨
    (gaveUpStep dep calls s =
      { s with pc := .crashed, serverList.redirect := freeServer s.serverList.redirect }) ∨
    (dep.featureDnsQuery = true ∧ s.serverList.jwt.url = none ∧ ∃ rtn serverList,
      findServers dep calls.find
        { s.serverList with redirect := freeServer s.serverList.redirect } =
          some (rtn, serverList) ∧
      gaveUpStep dep calls s =
        { s with
          pc := .tryLoop
          gShutdown := s.gShutdown || rtn = .invalidDefault
          serverList := serverList }) := by
  unfold gaveUpStep
  dsimp only
  by_cases hquery : dep.featureDnsQuery = true ∧ serverIsNull s.serverList.jwt = true
  · rw [if_pos hquery]
    obtain ⟨_, heq⟩ | ⟨rtn, serverList, hfind, heq⟩ :=
      lookup_cases dep calls { s with serverList.redirect := freeServer s.serverList.redirect }
        fun rtn s ↦
          { s with pc := .tryLoop, gShutdown := s.gShutdown || rtn = .invalidDefault }
    · exact .inr (.inl heq)
    · exact .inr (.inr ⟨hquery.1, serverIsNull_iff.mp hquery.2, rtn, serverList, hfind, heq⟩)
  · rw [if_neg hquery]
    refine .inl ⟨?_, rfl⟩
    by_cases hfeature : dep.featureDnsQuery = true
    · exact .inr fun hjwt ↦ hquery ⟨hfeature, serverIsNull_iff.mpr hjwt⟩
    · exact .inl (Bool.eq_false_iff.mpr hfeature)

theorem gaveUpStep_pc :
    (gaveUpStep dep calls s).pc = .tryLoop ∨ (gaveUpStep dep calls s).pc = .crashed := by
  obtain ⟨_, heq⟩ | heq | ⟨_, _, _, _, _, heq⟩ :=
    gaveUpStep_cases dep calls s
  · exact .inl (congrArg State.pc heq)
  · exact .inr (congrArg State.pc heq)
  · exact .inl (congrArg State.pc heq)

theorem nopollConnect_cases (ipv6 : Bool) :
    (s.currentServer = none ∧ nopollConnect calls ipv6 s = s.goto .crashed) ∨
    (s.currentServer ≠ none ∧ nopollConnect calls ipv6 s =
      { s with
        pc := .wait ipv6
        gConn := some ⟨s.opened, false, false⟩
        opened := s.opened + 1 }) ∨
    (s.currentServer ≠ none ∧ ∃ globals sigterm timer,
      globals.closeRetry = s.globals.closeRetry ∧ nopollConnect calls ipv6 s =
        { s with
          pc := .judged ipv6 .fail
          gConn := none
          globals := globals
          sigterm := sigterm
          connectTimer := timer }) := by
  unfold nopollConnect
  split
  · rename_i hnone
    exact .inl ⟨hnone, rfl⟩
  · rename_i slot hslot
    right
    have hne : s.currentServer ≠ none := by simp [hslot]
    split
    · exact .inl ⟨hne, rfl⟩
    · refine .inr ⟨hne, ?_⟩
      dsimp only
      split
      · split
        · refine ⟨_, _, _, ?_, rfl⟩
          rfl
        · exact ⟨_, _, _, rfl, rfl⟩
      · exact ⟨_, _, _, rfl, rfl⟩

end Cases

/-- The url that a wait for the connection was redirected to, if it parses. -/
def parsedRedirect (calls : Calls) : Option WebpaUrl :=
  if calls.connOk = false then none
  else
    match calls.waitResult with
    | .ready => none
    | .status waitStatus redirectURL =>
      if redirectStatus waitStatus then
        parseWebpaUrl calls.redirectAllocated (redirectPtr redirectURL)
      else none

theorem parsedRedirect_proper {url : WebpaUrl} (h : parsedRedirect calls = some url) :
    Proper url := by
  unfold parsedRedirect at h
  repeat' split at h
  all_goals first
    | cases h
    | exact parseWebpaUrl_eq_some h

theorem serverIsNull_eq_false_iff {server : Server} :
    serverIsNull server = false ↔ ∃ url, server.url = some url := by
  rw [← Option.ne_none_iff_exists', Ne, ← serverIsNull_iff, Bool.not_eq_true]

theorem getCurrentServer_redirect {serverList : ServerList} {url : WebpaUrl}
    (h : serverList.redirect.url = some url) : getCurrentServer serverList = .redirect := by
  rw [getCurrentServer, if_pos (serverIsNull_eq_false_iff.mpr ⟨url, h⟩)]

/-- A redirect changes the redirect server and, if its url is good, the current server. -/
theorem waitConnectionReady_cases (calls : Calls) (s : State) (ipv6 : Bool) :
    (parsedRedirect calls = none ∧ waitConnectionReady calls ipv6 s =
      { s with pc := .connected, gConn := s.gConn.map fun c ↦ { c with ready := true } }) ∨
    (parsedRedirect calls = none ∧ ∃ rtn, waitConnectionReady calls ipv6 s =
      s.goto (.close (.attempt ipv6 rtn))) ∨
    (parsedRedirect calls = none ∧ ∃ redirect : Server, redirect.url = none ∧
      redirect.allowInsecure = -1 ∧ waitConnectionReady calls ipv6 s =
        { s with pc := .close (.attempt ipv6 .fail), serverList.redirect := redirect }) ∨
    ∃ url redirect, parsedRedirect calls = some url ∧ redirect.url = some url ∧
      waitConnectionReady calls ipv6 s =
        { s with
          pc := .close (.attempt ipv6 .actionRetry)
          serverList.redirect := redirect
          currentServer := some .redirect } := by
  unfold waitConnectionReady parsedRedirect
  by_cases hok : calls.connOk = false
  · rw [if_pos hok, if_pos hok]
    exact .inr (.inl ⟨rfl, .fail, rfl⟩)
  rw [if_neg hok, if_neg hok]
  cases calls.waitResult with
  | ready => exact .inl ⟨rfl, rfl⟩
  | status waitStatus redirectURL =>
    right
    dsimp only
    by_cases hstatus : redirectStatus waitStatus = true
    · rw [if_pos hstatus, if_pos hstatus]
      right
      have hurl := parseServerUrl_url calls.redirectAllocated (redirectPtr redirectURL)
        (freeServer s.serverList.redirect)
      cases hparse : parseWebpaUrl calls.redirectAllocated (redirectPtr redirectURL) with
      | none =>
        left
        rw [hparse] at hurl
        rw [if_pos (parseServerUrl_neg_iff.mpr hparse)]
        exact ⟨rfl, _, hurl, by rw [parseServerUrl, hparse], rfl⟩
      | some url =>
        right
        rw [hparse] at hurl
        have hneg : ¬ (parseServerUrl calls.redirectAllocated (redirectPtr redirectURL)
            (freeServer s.serverList.redirect)).allowInsecure < 0 := by
          rw [parseServerUrl_neg_iff, hparse]
          exact Option.some_ne_none url
        rw [if_neg hneg, getCurrentServer_redirect hurl]
        exact ⟨url, _, rfl, hurl, rfl⟩
    · rw [if_neg hstatus, if_neg hstatus]
      left
      split
      · exact ⟨rfl, _, rfl⟩
      · exact ⟨rfl, _, rfl⟩

section Inputs

/-- Calls of which every one succeeds, with a ping in every wait of the loop. -/
def quiet : Calls where
  find := ⟨true, rs512Calls⟩
  opens := true
  hostIp := 0
  now := ⟨0, 0⟩
  connOk := true
  waitResult := .ready
  redirectAllocated := true
  closeHandler := false
  closeStatus := 1000
  condWait := 0
  waitStart := ⟨0, 0⟩
  waitStop := ⟨5, 0⟩
  pinged := true
  closedByPeer := false

def refused : Calls := { quiet with opens := false }

def redirected : Calls := { quiet with waitResult := .status 307 "Redirect:http://fabric".toList }

def cloudDeployment : Deployment where
  featureDnsQuery := false
  algs := cjwtAlgs
  cfg := { blankCfg with webpaUrl := parStrncpy "https://cloud".toList, webpaPingTimeout := 180 }

/-- The first connection is redirected, the second succeeds. -/
def redirectedRun : List Action :=
  List.replicate 4 (.main quiet) ++ .main redirected :: List.replicate 7 (.main quiet)

end Inputs

end Parodus.Connection
