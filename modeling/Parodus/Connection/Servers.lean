import Parodus.Token.Jwt

namespace Parodus.Connection

open Config Token

/-- `server_t`; a null address marks a slot that holds no server. -/
structure Server where
  allowInsecure : ℤ
  serverAddr : Option CString
  port : ℕ
  deriving DecidableEq

structure ServerList where
  defaults : Server
  jwt : Server
  redirect : Server
  deriving DecidableEq

/-- The slot that a pointer into the list points to. -/
inductive Slot
  | defaults
  | jwt
  | redirect
  deriving DecidableEq

/-- What the process was built and started with. -/
structure Deployment where
  featureDnsQuery : Bool
  algs : JwtAlgs
  cfg : ParodusCfg

def serverIsNull (server : Server) : Bool := server.serverAddr.isNone

def freeServer (server : Server) : Server := { server with serverAddr := none }

def freeServerList (serverList : ServerList) : ServerList where
  redirect := freeServer serverList.redirect
  jwt := freeServer serverList.jwt
  defaults := freeServer serverList.defaults

def ServerList.get (serverList : ServerList) : Slot → Server
  | .defaults => serverList.defaults
  | .jwt => serverList.jwt
  | .redirect => serverList.redirect

def getCurrentServer (serverList : ServerList) : Slot :=
  if serverIsNull serverList.redirect = false then .redirect
  else if serverIsNull serverList.jwt = false then .jwt
  else .defaults

/-- The value returned is the new `allowInsecure`. -/
def parseServerUrl (allocated : Bool) (fullUrl : CString) (server : Server) : Server :=
  match parseWebpaUrl allocated fullUrl with
  | some url => ⟨url.allowInsecure, some url.serverAddr, url.port⟩
  | none => { server with allowInsecure := -1, serverAddr := none }

inductive FindRtn
  | success
  | jwtFail
  | invalidDefault
  deriving DecidableEq

/-- What the calls of `find_servers` yield: the allocation for the default
server's address, and the JWT query. -/
structure FindCalls where
  urlAllocated : Bool
  token : TokenCalls

/-- The result of the JWT query in the JWT server's slot. -/
def storeJwt (ret : Except ℤ WebpaUrl) (server : Server) : Server :=
  match ret with
  | .ok url => ⟨url.allowInsecure, some url.serverAddr, url.port⟩
  | .error code => { server with allowInsecure := code }

/-- `none` is the use of a null string in the JWT query. -/
def findServers (dep : Deployment) (calls : FindCalls) (serverList : ServerList) :
    Option (FindRtn × ServerList) :=
  let serverList := freeServerList serverList
  let defaults := parseServerUrl calls.urlAllocated dep.cfg.webpaUrl.text serverList.defaults
  let serverList := { serverList with defaults := defaults }
  if defaults.allowInsecure < 0 then some (.invalidDefault, serverList)
  else if dep.featureDnsQuery = true ∧ dep.cfg.acquireJwt ≠ 0 then
    (allowInsecureConn dep.algs dep.featureDnsQuery calls.token dep.cfg).map fun ret ↦
      let serverList := { serverList with jwt := storeJwt ret serverList.jwt }
      (if serverList.jwt.allowInsecure < 0 then .jwtFail else .success, serverList)
  else some (.success, serverList)

/-- The server in a slot, if there is one. -/
def Server.url (server : Server) : Option WebpaUrl :=
  server.serverAddr.map fun serverAddr ↦ ⟨server.allowInsecure, serverAddr, server.port⟩

/-- A url that a connection can be attempted with. -/
def Proper (url : WebpaUrl) : Prop :=
  (url.allowInsecure = 0 ∨ url.allowInsecure = 1) ∧ 1 ≤ url.port ∧ url.port ≤ 65535

variable {dep : Deployment} {calls : FindCalls} {serverList : ServerList}

theorem serverIsNull_iff {server : Server} : serverIsNull server = true ↔ server.url = none := by
  rw [serverIsNull, Server.url, Option.map_eq_none_iff, Option.isNone_iff_eq_none]

theorem parseServerUrl_url (allocated : Bool) (fullUrl : CString) (server : Server) :
    (parseServerUrl allocated fullUrl server).url = parseWebpaUrl allocated fullUrl := by
  rw [parseServerUrl]
  cases parseWebpaUrl allocated fullUrl <;> rfl

/-- A slot is negative exactly if its url could not be parsed. -/
theorem parseServerUrl_neg_iff {allocated : Bool} {fullUrl : CString} {server : Server} :
    (parseServerUrl allocated fullUrl server).allowInsecure < 0 ↔
      parseWebpaUrl allocated fullUrl = none := by
  rw [parseServerUrl]
  cases hurl : parseWebpaUrl allocated fullUrl with
  | none => exact iff_of_true (by decide : (-1 : ℤ) < 0) rfl
  | some url =>
    have hproper := (parseWebpaUrl_eq_some hurl).1
    refine iff_of_false ?_ (Option.some_ne_none url)
    dsimp only
    omega

theorem analyzeJwt_proper {tokenCalls : TokenCalls} {jwt : Cjwt} {url : WebpaUrl}
    (h : analyzeJwt tokenCalls jwt = some (.ok url)) : Proper url := by
  unfold analyzeJwt at h
  repeat' split at h
  all_goals first
    | cases h
    | skip
  obtain ⟨text, _, hparse⟩ := Option.map_eq_some_iff.mp h
  split at hparse
  · cases hparse
  · rename_i url' hurl
    cases hparse
    exact parseWebpaUrl_eq_some hurl

theorem allowInsecureConn_proper {featureDnsQuery : Bool} {tokenCalls : TokenCalls} {url : WebpaUrl}
    (h : allowInsecureConn dep.algs featureDnsQuery tokenCalls dep.cfg = some (.ok url)) :
    Proper url := by
  unfold allowInsecureConn at h
  repeat' split at h
  all_goals first
    | cases h
    | exact analyzeJwt_proper h

/-- The url of the JWT query that `find_servers` makes, where it makes one and it succeeds. -/
def jwtQuery (dep : Deployment) (calls : FindCalls) : Option WebpaUrl :=
  if dep.featureDnsQuery = true ∧ dep.cfg.acquireJwt ≠ 0 then
    match allowInsecureConn dep.algs dep.featureDnsQuery calls.token dep.cfg with
    | some (.ok url) => some url
    | _ => none
  else none

theorem jwtQuery_proper {url : WebpaUrl} (h : jwtQuery dep calls = some url) : Proper url := by
  obtain ⟨_, hquery⟩ := Option.ite_none_right_eq_some.mp h
  split at hquery
  · rename_i url' hcall
    obtain rfl := Option.some.inj hquery
    exact allowInsecureConn_proper hcall
  · cases hquery

/-- Without a parsed url of the configuration no server is set; with it, the JWT server is what
the query gives. -/
theorem findServers_cases {rtn : FindRtn} {serverList' : ServerList}
    (h : findServers dep calls serverList = some (rtn, serverList')) :
    serverList'.redirect.url = none ∧
      (rtn = .invalidDefault ∧ parseWebpaUrl calls.urlAllocated dep.cfg.webpaUrl.text = none ∧
        serverList'.defaults.url = none ∧ serverList'.jwt.url = none ∨
      rtn ≠ .invalidDefault ∧ (∃ url,
        parseWebpaUrl calls.urlAllocated dep.cfg.webpaUrl.text = some url ∧
          serverList'.defaults.url = some url) ∧ serverList'.jwt.url = jwtQuery dep calls) := by
  unfold findServers at h
  dsimp only at h
  have hdefaults := parseServerUrl_url calls.urlAllocated dep.cfg.webpaUrl.text
    (freeServerList serverList).defaults
  by_cases hneg : (parseServerUrl calls.urlAllocated dep.cfg.webpaUrl.text
      (freeServerList serverList).defaults).allowInsecure < 0
  · rw [if_pos hneg] at h
    cases h
    have hnone := parseServerUrl_neg_iff.mp hneg
    exact ⟨rfl, .inl ⟨rfl, hnone, hdefaults.trans hnone, rfl⟩⟩
  rw [if_neg hneg] at h
  obtain ⟨url, hurl⟩ := Option.ne_none_iff_exists'.mp (mt parseServerUrl_neg_iff.mpr hneg)
  by_cases hquery : dep.featureDnsQuery = true ∧ dep.cfg.acquireJwt ≠ 0
  · rw [if_pos hquery] at h
    obtain ⟨ret, hcall, heq⟩ := Option.map_eq_some_iff.mp h
    obtain ⟨rfl, rfl⟩ := Prod.mk.inj heq
    refine ⟨rfl, .inr ⟨?_, ⟨url, hurl, hdefaults.trans hurl⟩, ?_⟩⟩
    · split <;> nofun
    · rw [jwtQuery, if_pos hquery, hcall]
      cases ret <;> rfl
  · rw [if_neg hquery] at h
    cases h
    refine ⟨rfl, .inr ⟨nofun, ⟨url, hurl, hdefaults.trans hurl⟩, ?_⟩⟩
    rw [jwtQuery, if_neg hquery]
    rfl

theorem findServers_invalid {serverList' : ServerList}
    (h : findServers dep calls serverList = some (.invalidDefault, serverList')) :
    parseWebpaUrl calls.urlAllocated dep.cfg.webpaUrl.text = none ∧
      serverList'.defaults.url = none ∧ serverList'.jwt.url = none ∧
      serverList'.redirect.url = none := by
  obtain ⟨hredirect, ⟨_, hparse, hdefaults, hjwt⟩ | ⟨hrtn, _⟩⟩ := findServers_cases h
  · exact ⟨hparse, hdefaults, hjwt, hredirect⟩
  · exact absurd rfl hrtn

theorem findServers_found {rtn : FindRtn} {serverList' : ServerList}
    (h : findServers dep calls serverList = some (rtn, serverList'))
    (hrtn : rtn ≠ .invalidDefault) :
    (∃ url, parseWebpaUrl calls.urlAllocated dep.cfg.webpaUrl.text = some url ∧
      serverList'.defaults.url = some url) ∧
      serverList'.jwt.url = jwtQuery dep calls ∧ serverList'.redirect.url = none := by
  obtain ⟨hredirect, ⟨hinvalid, _⟩ | ⟨_, hdefaults, hjwt⟩⟩ := findServers_cases h
  · exact absurd hinvalid hrtn
  · exact ⟨hdefaults, hjwt, hredirect⟩

end Parodus.Connection
