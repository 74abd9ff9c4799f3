import Parodus.Connection.Headers
import Parodus.Connection.HealthFile
import Parodus.Foundation.Accounts
import Parodus.Token.AuthToken

namespace Parodus.Connection

open Config Crud Foundation Foundation.Runs Token

/-- What the calls for the headers yield in a step that makes them. -/
structure HeaderCalls where
  userAgentAllocated : Bool
  deviceIdAllocated : Bool
  extraHeadersAllocated : Bool
  attempts : ℕ → Token.Attempt

/-- `header_info_t`; the convey header is in a static buffer, the others are allocated. -/
structure HeaderInfo where
  conveyHeader : Option CString
  userAgent : Option (Owned CString)
  deviceId : Option (Owned CString)

/-- cJSON, the encoder and the protocol of the configuration. -/
structure HeaderLibs where
  lib : Lib
  base64 : Base64Lib
  webpaProtocol : CharBuf 32

/-- The headers in `create_connection_ctx_t`, the static buffer, the token of the configuration and
the heap. Behind them stand the strings that calls of `createNopollConnection` have left behind,
how many calls were refused for their url, and the attempts made at the token server since it was
last answered with 403. -/
structure Context where
  headerInfo : HeaderInfo
  extraHeaders : Option (Owned CString)
  encodedData : CharBuf 1024
  webpaAuthToken : TokenBuf
  ledger : Ledger
  lost : List ℕ
  refused : ℕ
  asked : List Token.Attempt

def setHeaderInfoNull : HeaderInfo := ⟨none, none, none⟩

def conveyValues (dep : Deployment) (libs : HeaderLibs) (s : State) : ConveyValues :=
  ⟨dep.cfg, libs.webpaProtocol, s.globals.reconnectReason⟩

namespace Context

variable (libs : HeaderLibs) (c : Context)

def freeHeaderInfo : Context :=
  { c with
    headerInfo := setHeaderInfoNull
    ledger := (c.ledger.freeOption c.headerInfo.userAgent).freeOption c.headerInfo.deviceId }

def freeExtraHeaders : Context :=
  { c with extraHeaders := none, ledger := c.ledger.freeOption c.extraHeaders }

def initHeaderInfo (values : ConveyValues) (calls : HeaderCalls) : Context :=
  let c := { c with headerInfo := setHeaderInfoNull }
  let agent := c.ledger.allocIf calls.userAgentAllocated (headerUserAgent values)
  let c := { c with headerInfo.userAgent := agent.1, ledger := agent.2 }
  if agent.1.isNone then c
  else
    let device := c.ledger.allocIf calls.deviceIdAllocated (headerDeviceId values)
    let c := { c with headerInfo.deviceId := device.1, ledger := device.2 }
    if device.1.isNone then c.freeHeaderInfo
    else
      let convey := getWebpaConveyHeader libs.lib libs.base64 values c.encodedData
      let c := { c with headerInfo.conveyHeader := convey.1, encodedData := convey.2 }
      if convey.1.isNone then c.freeHeaderInfo else c

/-- The text that a `char` pointer to the token has. -/
def tokenText (token : TokenBuf) : CString := token.elems.takeWhile fun c ↦ decide (c ≠ nulByte)

def authOf (token : TokenBuf) : Option CString :=
  if 0 < (tokenText token).length then some (tokenText token) else none

def buildExtraHdrs : CString :=
  buildExtraHeaders (authOf c.webpaAuthToken) (c.headerInfo.deviceId.map Owned.val)
    (c.headerInfo.userAgent.map Owned.val) c.headerInfo.conveyHeader

/-- `getAuthToken` for the configuration, with the attempts that it makes. -/
def fetchAuthToken (cfg : ParodusCfg) (attempts : ℕ → Token.Attempt) : Context :=
  match getAuthToken cfg attempts c.webpaAuthToken with
  | none => c
  | some fetched =>
    { c with
      webpaAuthToken := fetched.1
      asked := c.asked ++ (List.range fetched.2.length).map attempts }

def setExtraHeaders (cfg : ParodusCfg) (calls : HeaderCalls) : Context :=
  let c := c.freeExtraHeaders
  let c :=
    if (tokenText c.webpaAuthToken).length = 0 ∧ cfg.clientCertPath.getD [] ≠ [] then
      c.fetchAuthToken cfg calls.attempts
    else c
  let extra := c.ledger.allocIf calls.extraHeadersAllocated c.buildExtraHdrs
  { c with extraHeaders := extra.1, ledger := extra.2 }

/-- The convey header is made again, once the interface is up. -/
def refreshConvey (values : ConveyValues) : Context :=
  let convey := getWebpaConveyHeader libs.lib libs.base64 values c.encodedData
  { c with headerInfo.conveyHeader := convey.1, encodedData := convey.2 }

/-- The answer to a token that the server does not take. -/
def clearToken : Context := { c with webpaAuthToken := zeroToken, asked := [] }

/-- A call that returns for its url leaves what it holds. -/
def held : List ℕ :=
  Ledger.heldBy c.headerInfo.userAgent ++ Ledger.heldBy c.headerInfo.deviceId ++
    Ledger.heldBy c.extraHeaders

def leave : Context :=
  { c with
    headerInfo := setHeaderInfoNull
    extraHeaders := none
    lost := c.held ++ c.lost
    refused := c.refused + 1 }

end Context

/-- An answer of 403. -/
def unauthorized (calls : Calls) : Bool :=
  calls.connOk &&
    match calls.waitResult with
    | .ready => false
    | .status waitStatus _ => waitStatus == 403

/-- Where the main thread uses the headers and the token. -/
def mainContext (dep : Deployment) (libs : HeaderLibs) (calls : Calls) (headerCalls : HeaderCalls)
    (s : State) (c : Context) : Context :=
  match s.pc with
  | .enter =>
    let c := { c with extraHeaders := none }.initHeaderInfo libs (conveyValues dep libs s)
      headerCalls
    if (enterStep dep calls s).pc = .returned false then c.leave else c
  | .keepTrying => if s.gShutdown then c else c.setExtraHeaders dep.cfg headerCalls
  | .wait _ => if unauthorized calls then c.clearToken else c
  | .downTest .keepTrying =>
    if s.interfaceDownEvent then c else c.refreshConvey libs (conveyValues dep libs s)
  | .reset => c.freeExtraHeaders.freeHeaderInfo
  | _ => c

abbrev Headed := Action × HeaderCalls

def HeadedStep (dep : Deployment) (s : State) (a : Headed) (t : State) : Prop := Step dep s a.1 t

def observeContext (dep : Deployment) (libs : HeaderLibs) (s : State) (a : Headed) (c : Context) :
    Context :=
  match a.1 with
  | .main calls => mainContext dep libs calls a.2 s c
  | _ => c

/-- The process starts with an empty token. -/
def initContext : Context where
  headerInfo := setHeaderInfoNull
  extraHeaders := none
  encodedData := .empty
  webpaAuthToken := zeroToken
  ledger := ⟨0, []⟩
  lost := []
  refused := 0
  asked := []

/-- The text that a `char` pointer to the body of an answer has. -/
def bodyText (attempt : Token.Attempt) : CString :=
  attempt.body.takeWhile fun c ↦ decide (c ≠ nulByte)

/-- The attempt gives a token. -/
def Grants (attempt : Token.Attempt) : Prop := attempt.Succeeds ∧ bodyText attempt ≠ []

/-- The token comes from the last of the attempts, or there is none as none of them gave any. -/
def TokenFrom (asked : List Token.Attempt) (token : Option CString) : Prop :=
  (token = none ∧ ∀ attempt ∈ asked, ¬ Grants attempt) ∨
  ∃ failed attempt, asked = failed ++ [attempt] ∧ (∀ before ∈ failed, ¬ Grants before) ∧
    Grants attempt ∧ token = some (bodyText attempt)

/-- The device and its User-Agent, or nulls. -/
def NamesFrom (dep : Deployment) (libs : HeaderLibs) (deviceId userAgent : Option CString) :
    Prop :=
  (deviceId = none ∧ userAgent = none) ∨
  (deviceId = some ("mac:".toList ++ dep.cfg.hwMac.text) ∧
    userAgent = some (formatUserAgent (cfgParam libs.webpaProtocol.text)
      (cfgParam dep.cfg.fwName.text) (cfgParam dep.cfg.hwModel.text)
      (cfgParam dep.cfg.hwManufacturer.text)))

/-- The headers with which a connection is opened carry the token that was given since the last
403, if any was, behind which none is asked for, and the convey header that was made last. -/
def HeadersRight (dep : Deployment) (libs : HeaderLibs) (x : State × Context) : Prop :=
  ∀ ipv6, x.1.pc = .connect ipv6 → ∀ headers, x.2.extraHeaders = some headers →
    ∃ token deviceId userAgent, TokenFrom x.2.asked token ∧
      NamesFrom dep libs deviceId userAgent ∧
      headers.val = buildExtraHeaders token deviceId userAgent x.2.headerInfo.conveyHeader

/-- No string is freed twice or used behind its `free`; once a connection is found all are freed
but those of refused calls. -/
structure MemoryRight (x : State × Context) : Prop where
  nodup : x.2.ledger.freed.Nodup
  live : ∀ i ∈ x.2.held, i < x.2.ledger.next ∧ i ∉ x.2.ledger.freed
  settled : x.1.pc.phase = .settled → ∀ i < x.2.ledger.next, i ∈ x.2.ledger.freed ∨ i ∈ x.2.lost
  lost : x.2.lost.length ≤ 2 * x.2.refused

section Memory

variable {dep : Deployment} {libs : HeaderLibs} {calls : Calls} {headerCalls : HeaderCalls}
  {s t : State} {c : Context} {values : ConveyValues} {x y : State × Context} {a : Headed}

/-- The strings that were allocated are freed, held or left behind. -/
def Context.Kept (c : Context) : Prop := c.ledger.Accounts (c.held ++ c.lost)

theorem Context.Kept.freeExtraHeaders (h : c.Kept) : c.freeExtraHeaders.Kept := by
  refine Ledger.Accounts.freeOption (h.perm (List.perm_iff_count.mpr fun i ↦ ?_))
  simp only [Context.held, Context.freeExtraHeaders, Ledger.heldBy_none, List.count_append,
    List.count_nil]
  omega

theorem Context.Kept.freeHeaderInfo (h : c.Kept) : c.freeHeaderInfo.Kept := by
  refine Ledger.Accounts.freeOption (Ledger.Accounts.freeOption
    (h.perm (List.perm_iff_count.mpr fun i ↦ ?_)))
  simp only [Context.held, Context.freeHeaderInfo, setHeaderInfoNull, Ledger.heldBy_none,
    List.count_append, List.count_nil]
  omega

theorem held_free (c : Context) : c.freeExtraHeaders.freeHeaderInfo.held = [] := rfl

/-- Whatever fails, what was allocated for the headers is held or freed. -/
theorem Context.Kept.initHeaderInfo (h : c.ledger.Accounts c.lost) (hextra : c.extraHeaders = none)
    (values : ConveyValues) (calls : HeaderCalls) : (c.initHeaderInfo libs values calls).Kept := by
  have hagent := h.allocIf calls.userAgentAllocated (headerUserAgent values)
  have hdevice := hagent.allocIf calls.deviceIdAllocated (headerDeviceId values)
  unfold Context.initHeaderInfo
  dsimp only [setHeaderInfoNull]
  split
  · unfold Context.Kept Context.held
    simp only [hextra, Ledger.heldBy_none, List.append_nil]
    exact hagent
  have hkept : Context.Kept { c with
      headerInfo := ⟨none, (c.ledger.allocIf calls.userAgentAllocated (headerUserAgent values)).1,
        ((c.ledger.allocIf calls.userAgentAllocated (headerUserAgent values)).2.allocIf
          calls.deviceIdAllocated (headerDeviceId values)).1⟩
      ledger := ((c.ledger.allocIf calls.userAgentAllocated (headerUserAgent values)).2.allocIf
        calls.deviceIdAllocated (headerDeviceId values)).2 } := by
    refine hdevice.perm (List.perm_iff_count.mpr fun i ↦ ?_)
    simp only [Context.held, hextra, Ledger.heldBy_none, List.count_append, List.count_nil]
    omega
  split
  · exact hkept.freeHeaderInfo
  split
  · exact Context.Kept.freeHeaderInfo hkept
  · exact hkept

theorem fetchAuthToken_kept (cfg : ParodusCfg) (attempts : ℕ → Token.Attempt) :
    (c.fetchAuthToken cfg attempts).Kept ↔ c.Kept := by
  unfold Context.fetchAuthToken
  split
  · rfl
  · rfl

theorem fetchAuthToken_extraHeaders (cfg : ParodusCfg) (attempts : ℕ → Token.Attempt) :
    (c.fetchAuthToken cfg attempts).extraHeaders = c.extraHeaders := by
  unfold Context.fetchAuthToken
  split
  · rfl
  · rfl

/-- The old headers are freed before the new ones take their place. -/
theorem Context.Kept.setExtraHeaders (h : c.Kept) (cfg : ParodusCfg) (calls : HeaderCalls) :
    (c.setExtraHeaders cfg calls).Kept := by
  unfold Context.setExtraHeaders
  dsimp only
  have hfreed := h.freeExtraHeaders
  have hlast : ∀ c : Context, c.Kept → c.extraHeaders = none → Context.Kept { c with
      extraHeaders := (c.ledger.allocIf calls.extraHeadersAllocated c.buildExtraHdrs).1
      ledger := (c.ledger.allocIf calls.extraHeadersAllocated c.buildExtraHdrs).2 } := by
    intro c hc hnone
    have hextra := hc.allocIf calls.extraHeadersAllocated c.buildExtraHdrs
    refine hextra.perm (List.perm_iff_count.mpr fun i ↦ ?_)
    simp only [Context.held, hnone, Ledger.heldBy_none, List.count_append, List.count_nil]
    omega
  split
  · exact hlast _ ((fetchAuthToken_kept _ _).mpr hfreed) (fetchAuthToken_extraHeaders _ _)
  · exact hlast _ hfreed rfl

theorem Context.Kept.leave (h : c.Kept) : c.leave.Kept := h

theorem initHeaderInfo_extraHeaders (c : Context) (values : ConveyValues) (calls : HeaderCalls) :
    (c.initHeaderInfo libs values calls).extraHeaders = c.extraHeaders := by
  unfold Context.initHeaderInfo
  dsimp only
  repeat' split
  all_goals rfl

theorem initHeaderInfo_lost (c : Context) (values : ConveyValues) (calls : HeaderCalls) :
    (c.initHeaderInfo libs values calls).lost = c.lost ∧
      (c.initHeaderInfo libs values calls).refused = c.refused := by
  unfold Context.initHeaderInfo
  dsimp only
  repeat' split
  all_goals exact ⟨rfl, rfl⟩

theorem setExtraHeaders_lost (c : Context) (cfg : ParodusCfg) (calls : HeaderCalls) :
    (c.setExtraHeaders cfg calls).lost = c.lost ∧
      (c.setExtraHeaders cfg calls).refused = c.refused := by
  unfold Context.setExtraHeaders Context.fetchAuthToken
  dsimp only
  repeat' split
  all_goals exact ⟨rfl, rfl⟩

/-- Where the headers have been freed, or are not yet made. -/
def Pc.bare (pc : Pc) : Prop := pc.phase = .settled ∨ pc = .handlers

structure ContextInv (x : State × Context) : Prop where
  kept : x.2.Kept
  bare : x.1.pc.bare → x.2.held = []
  lost : x.2.lost.length ≤ 2 * x.2.refused

theorem mainStep_handlers (h : (mainStep dep calls s).pc = .handlers) : s.pc = .reset := by
  unfold mainStep at h
  cases hpc : s.pc
  case reset => rfl
  case enter =>
    rw [hpc] at h
    obtain hnext | hnext | hnext := enterStep_pc dep calls s
    all_goals
      rw [hnext] at h
      cases h
  case gaveUp =>
    rw [hpc] at h
    obtain hnext | hnext := gaveUpStep_pc dep calls s
    all_goals
      rw [hnext] at h
      cases h
  case connect ipv6 =>
    rw [hpc] at h
    dsimp only at h
    obtain ⟨_, heq⟩ | ⟨_, heq⟩ | ⟨_, _, _, _, _, heq⟩ := nopollConnect_cases calls s ipv6
    all_goals
      rw [heq] at h
      cases h
  case wait ipv6 =>
    rw [hpc] at h
    dsimp only at h
    obtain ⟨_, heq⟩ | ⟨_, _, heq⟩ | ⟨_, _, _, _, heq⟩ | ⟨_, _, _, _, heq⟩ :=
      waitConnectionReady_cases calls s ipv6
    all_goals
      rw [heq] at h
      cases h
  case close k =>
    rw [hpc] at h
    dsimp only [closeStep] at h
    repeat' split at h
    all_goals cases k <;> cases h
  case closeListener k | closeListenerSet k | release k =>
    rw [hpc] at h
    dsimp only [listenerStep, listenerSetStep, releaseStep] at h
    repeat' split at h
    all_goals cases k <;> cases h
  case downTest caller | downWait caller =>
    rw [hpc] at h
    dsimp only [State.goto] at h
    split at h
    all_goals cases caller <;> cases h
  all_goals
    rw [hpc] at h
    dsimp only [judgedStep, loopWaitStep, heartBeatStep, listenerStep, listenerSetStep,
      State.goto] at h
    repeat' split at h
    all_goals first
      | cases h
      | rw [hpc] at h; cases h

theorem mainStep_bare (henter : s.pc ≠ .enter) (hreset : s.pc ≠ .reset)
    (h : (mainStep dep calls s).pc.bare) : s.pc.bare := by
  obtain hsettled | hhandlers := h
  · by_cases hpc : s.pc = .handlers
    · exact .inr hpc
    · obtain hphase | hover := @mainStep_phase dep calls s henter hpc
      · exact .inl (hphase.symm.trans hsettled)
      · rw [hover] at hsettled
        cases hsettled
  · exact absurd (mainStep_handlers hhandlers) hreset

theorem Context.held_length_le (hextra : c.extraHeaders = none) : c.held.length ≤ 2 := by
  have hagent := Ledger.heldBy_length_le c.headerInfo.userAgent
  have hdevice := Ledger.heldBy_length_le c.headerInfo.deviceId
  rw [Context.held, hextra, Ledger.heldBy_none, List.append_nil, List.length_append]
  omega

theorem ContextInv.enter (hx : ContextInv x) (hpc : x.1.pc = .enter) :
    ContextInv (enterStep dep calls x.1, mainContext dep libs calls headerCalls x.1 x.2) := by
  have hheld : x.2.held = [] := hx.bare (.inl (by rw [hpc]; rfl))
  have hledger : x.2.ledger.Accounts x.2.lost := by
    have hkept := hx.kept
    rwa [Context.Kept, hheld, List.nil_append] at hkept
  have hkept := @Context.Kept.initHeaderInfo libs { x.2 with extraHeaders := none } hledger rfl
    (conveyValues dep libs x.1) headerCalls
  obtain ⟨hlost, hrefused⟩ := @initHeaderInfo_lost libs { x.2 with extraHeaders := none }
    (conveyValues dep libs x.1) headerCalls
  have hextra := @initHeaderInfo_extraHeaders libs { x.2 with extraHeaders := none }
    (conveyValues dep libs x.1) headerCalls
  simp only [mainContext, hpc]
  split
  · refine ⟨hkept.leave, fun _ ↦ rfl, ?_⟩
    dsimp only [Context.leave]
    rw [List.length_append, hlost, hrefused, Nat.mul_succ, Nat.add_comm]
    exact Nat.add_le_add hx.lost (Context.held_length_le hextra)
  · rename_i hnot
    refine ⟨hkept, ?_, ?_⟩
    · intro hbare
      obtain htry | hreturned | hcrashed := enterStep_pc dep calls x.1
      · rw [Pc.bare, htry] at hbare
        obtain hbare | hbare := hbare <;> cases hbare
      · exact absurd hreturned hnot
      · rw [Pc.bare, hcrashed] at hbare
        obtain hbare | hbare := hbare <;> cases hbare
    · dsimp only
      rw [hlost, hrefused]
      exact hx.lost

/-- Elsewhere the strings stay, or the headers are freed or made anew while a connection is
sought. -/
theorem ContextInv.other (hx : ContextInv x) (henter : x.1.pc ≠ .enter)
    (hreset : x.1.pc ≠ .reset) (hkept : c.Kept)
    (hlost : c.lost = x.2.lost ∧ c.refused = x.2.refused)
    (hheld : x.1.pc.bare → c.held = x.2.held) : ContextInv (mainStep dep calls x.1, c) where
  kept := hkept
  bare hbare := by
    have hbefore := mainStep_bare henter hreset hbare
    exact (hheld hbefore).trans (hx.bare hbefore)
  lost := by
    dsimp only
    rw [hlost.1, hlost.2]
    exact hx.lost

theorem ContextInv.main (hx : ContextInv x) :
    ContextInv (mainStep dep calls x.1, mainContext dep libs calls headerCalls x.1 x.2) := by
  by_cases henter : x.1.pc = .enter
  · have hstep : mainStep dep calls x.1 = enterStep dep calls x.1 := by simp only [mainStep, henter]
    rw [hstep]
    exact hx.enter henter
  by_cases hreset : x.1.pc = .reset
  · have hcontext : mainContext dep libs calls headerCalls x.1 x.2 =
        x.2.freeExtraHeaders.freeHeaderInfo := by simp only [mainContext, hreset]
    rw [hcontext]
    exact ⟨hx.kept.freeExtraHeaders.freeHeaderInfo, fun _ ↦ held_free x.2, hx.lost⟩
  unfold mainContext
  split
  · exact absurd ‹_› henter
  · rename_i hpc
    split
    · exact hx.other henter hreset hx.kept ⟨rfl, rfl⟩ fun _ ↦ rfl
    · refine hx.other henter hreset (hx.kept.setExtraHeaders _ _) (setExtraHeaders_lost _ _ _) ?_
      intro hbare
      rw [Pc.bare, hpc] at hbare
      obtain hbare | hbare := hbare <;> cases hbare
  · split
    · exact hx.other henter hreset hx.kept ⟨rfl, rfl⟩ fun _ ↦ rfl
    · exact hx.other henter hreset hx.kept ⟨rfl, rfl⟩ fun _ ↦ rfl
  · split
    · exact hx.other henter hreset hx.kept ⟨rfl, rfl⟩ fun _ ↦ rfl
    · exact hx.other henter hreset hx.kept ⟨rfl, rfl⟩ fun _ ↦ rfl
  · exact absurd ‹_› hreset
  · exact hx.other henter hreset hx.kept ⟨rfl, rfl⟩ fun _ ↦ rfl

theorem ContextInv.step (hx : ContextInv x)
    (hstep : Observed (HeadedStep dep) (observeContext dep libs) x a y) : ContextInv y := by
  obtain ⟨t, c⟩ := y
  obtain ⟨hst, rfl⟩ := hstep
  dsimp only at hst
  obtain ⟨calls, ha, rfl⟩ | ⟨hother, haside⟩ := step_cases hst
  · simp only [observeContext, ha]
    exact hx.main
  · have hsame : observeContext dep libs x.1 a x.2 = x.2 := by
      unfold observeContext
      split
      · exact absurd ‹_› (hother _)
      · rfl
    rw [hsame]
    refine ⟨hx.kept, ?_, hx.lost⟩
    rw [haside.pc]
    exact hx.bare

theorem contextInv_init : ContextInv (init, initContext) where
  kept := Ledger.accounts_nil
  bare _ := rfl
  lost := Nat.le_refl 0

theorem ContextInv.right (hx : ContextInv x) : MemoryRight x where
  nodup := hx.kept.freed_nodup
  live _ hi := hx.kept.live (List.mem_append_left _ hi)
  settled hpc i hi := by
    have hheld := hx.bare (.inl hpc)
    by_cases hlost : i ∈ x.2.lost
    · exact .inr hlost
    · refine .inl (hx.kept.mem_freed hi ?_)
      rw [hheld, List.nil_append]
      exact hlost
  lost := hx.lost

end Memory

section Token

variable {dep : Deployment} {libs : HeaderLibs} {calls : Calls} {headerCalls : HeaderCalls}
  {s t : State} {c : Context} {x y : State × Context} {a : Headed} {token : TokenBuf}
  {asked made : List Token.Attempt} {cfg : ParodusCfg}

/-- From where the headers were made to the failure of the attempt. -/
def Pc.headed : Pc → Bool
  | .connect _ | .wait _ => true
  | pc => pc.fails

theorem tokenText_eq {text : CString} (h : token.Holds nulByte text) :
    Context.tokenText token = text.takeWhile fun c ↦ decide (c ≠ nulByte) := by
  have hrest : (List.replicate (4096 - text.length) nulByte).takeWhile
      (fun c ↦ decide (c ≠ nulByte)) = [] := by
    rw [List.takeWhile_replicate]
    rfl
  rw [Context.tokenText, h.elems, List.takeWhile_append]
  split
  · rename_i hall
    rw [hrest, List.append_nil]
    exact ((List.takeWhile_prefix _).eq_of_length hall).symm
  · rfl

theorem authOf_eq_none (h : Context.tokenText token = []) : Context.authOf token = none := by
  rw [Context.authOf, h]
  rfl

theorem authOf_eq_some (h : Context.tokenText token ≠ []) :
    Context.authOf token = some (Context.tokenText token) :=
  if_pos (List.length_pos_of_ne_nil h)

/-- Another call of `getAuthToken`, once no token is held. -/
theorem TokenFrom.ask (h : TokenFrom asked none) (hmade : FromLast made token) :
    TokenFrom (asked ++ made) (Context.authOf token) := by
  obtain ⟨_, hnone⟩ | ⟨_, attempt, _, _, _, heq⟩ := h
  · obtain ⟨hfailed, hempty⟩ | ⟨failed, attempt, rfl, hfailed, hsuccess, hbody⟩ := hmade
    · refine .inl ⟨authOf_eq_none (tokenText_eq hempty), List.forall_mem_append.mpr ⟨hnone, ?_⟩⟩
      exact fun attempt hmem hgrants ↦ hfailed attempt hmem hgrants.1
    · have hbefore : ∀ before ∈ asked ++ failed, ¬ Grants before :=
        List.forall_mem_append.mpr ⟨hnone, fun before hmem h ↦ hfailed before hmem h.1⟩
      have htext := tokenText_eq hbody
      by_cases hempty : bodyText attempt = []
      · refine .inl ⟨authOf_eq_none (htext.trans hempty), ?_⟩
        rw [← List.append_assoc]
        refine List.forall_mem_append.mpr ⟨hbefore, List.forall_mem_singleton.mpr ?_⟩
        exact fun hgrants ↦ hgrants.2 hempty
      · refine .inr ⟨asked ++ failed, attempt, (List.append_assoc _ _ _).symm, hbefore,
          ⟨hsuccess, hempty⟩, ?_⟩
        rw [authOf_eq_some (htext ▸ hempty), htext]
        rfl
  · cases heq

theorem fetchAuthToken_tokenFrom (h : TokenFrom c.asked none) (cfg : ParodusCfg)
    (attempts : ℕ → Token.Attempt) :
    TokenFrom (c.fetchAuthToken cfg attempts).asked
      (Context.authOf (c.fetchAuthToken cfg attempts).webpaAuthToken) := by
  obtain ⟨n, token, hfetch, hlast⟩ := getAuthToken_fromLast cfg attempts c.webpaAuthToken
  rw [Context.fetchAuthToken, hfetch]
  dsimp only
  rw [List.length_map, List.length_range]
  exact h.ask hlast

/-- The token server is only asked if there is no token. -/
theorem setExtraHeaders_tokenFrom (h : TokenFrom c.asked (Context.authOf c.webpaAuthToken))
    (cfg : ParodusCfg) (calls : HeaderCalls) :
    TokenFrom (c.setExtraHeaders cfg calls).asked
      (Context.authOf (c.setExtraHeaders cfg calls).webpaAuthToken) := by
  unfold Context.setExtraHeaders
  dsimp only
  split
  · rename_i hask
    have hnone : Context.authOf c.webpaAuthToken = none :=
      authOf_eq_none (List.length_eq_zero_iff.mp hask.1)
    rw [hnone] at h
    exact @fetchAuthToken_tokenFrom c.freeExtraHeaders h cfg calls.attempts
  · exact h

theorem setExtraHeaders_built {headers : Owned CString} (calls : HeaderCalls)
    (h : (c.setExtraHeaders cfg calls).extraHeaders = some headers) :
    headers.val = (c.setExtraHeaders cfg calls).buildExtraHdrs := by
  unfold Context.setExtraHeaders at h ⊢
  exact Ledger.allocIf_val h

theorem setExtraHeaders_headerInfo (c : Context) (cfg : ParodusCfg) (calls : HeaderCalls) :
    (c.setExtraHeaders cfg calls).headerInfo = c.headerInfo := by
  unfold Context.setExtraHeaders Context.fetchAuthToken
  dsimp only
  repeat' split
  all_goals rfl

theorem allocIf_map_val {ok : Bool} {v : CString} {l : Ledger}
    (h : ¬ (l.allocIf ok v).1.isNone = true) : (l.allocIf ok v).1.map Owned.val = some v := by
  cases ok with
  | true => rfl
  | false => exact absurd rfl h

theorem initHeaderInfo_names (c : Context) (s : State) (calls : HeaderCalls) :
    NamesFrom dep libs
      ((c.initHeaderInfo libs (conveyValues dep libs s) calls).headerInfo.deviceId.map Owned.val)
      ((c.initHeaderInfo libs (conveyValues dep libs s) calls).headerInfo.userAgent.map
        Owned.val) := by
  unfold Context.initHeaderInfo
  dsimp only
  split
  · rename_i hagent
    refine .inl ⟨rfl, ?_⟩
    rw [Option.isNone_iff_eq_none.mp hagent]
    rfl
  split
  · exact .inl ⟨rfl, rfl⟩
  split
  · exact .inl ⟨rfl, rfl⟩
  · rename_i hagent hdevice _
    refine .inr ⟨?_, ?_⟩
    · exact (allocIf_map_val hdevice).trans (congrArg some (headerDeviceId_eq _))
    · exact (allocIf_map_val hagent).trans (congrArg some (headerUserAgent_eq _))

/-- What is sent was made from what is held. -/
structure TokenInv (dep : Deployment) (libs : HeaderLibs) (x : State × Context) : Prop where
  token : TokenFrom x.2.asked (Context.authOf x.2.webpaAuthToken)
  names : NamesFrom dep libs (x.2.headerInfo.deviceId.map Owned.val)
    (x.2.headerInfo.userAgent.map Owned.val)
  headed : x.1.pc.headed = true → ∀ headers, x.2.extraHeaders = some headers →
    headers.val = x.2.buildExtraHdrs

theorem TokenInv.right (hx : TokenInv dep libs x) : HeadersRight dep libs x := by
  intro ipv6 hpc headers hheaders
  have hheaded : x.1.pc.headed = true := by
    rw [hpc]
    rfl
  exact ⟨_, _, _, hx.token, hx.names, hx.headed hheaded headers hheaders⟩

theorem unauthorized_wait (ipv6 : Bool) (h : unauthorized calls = true) :
    waitConnectionReady calls ipv6 s = s.goto (.close (.attempt ipv6 .actionRetry)) := by
  obtain ⟨hok, hresult⟩ := Bool.and_eq_true_iff.mp h
  unfold waitConnectionReady
  rw [if_neg (by simp [hok])]
  cases hwait : calls.waitResult with
  | ready =>
    rw [hwait] at hresult
    cases hresult
  | status waitStatus redirectURL =>
    rw [hwait] at hresult
    obtain rfl : waitStatus = 403 := beq_iff_eq.mp hresult
    rfl

/-- Only the head of the loop leads to an attempt. -/
theorem mainStep_headed (h : (mainStep dep calls s).pc.headed = true) :
    s.pc = .keepTrying ∨ s.pc.headed = true := by
  by_cases hs : s.pc.headed = true
  · exact .inr hs
  unfold mainStep at h
  cases hpc : s.pc
  case keepTrying => exact .inl rfl
  case connect | wait =>
    rw [hpc] at hs
    exact absurd rfl hs
  case enter =>
    rw [hpc] at h
    obtain hnext | hnext | hnext := enterStep_pc dep calls s
    all_goals
      rw [hnext] at h
      cases h
  case gaveUp =>
    rw [hpc] at h
    obtain hnext | hnext := gaveUpStep_pc dep calls s
    all_goals
      rw [hnext] at h
      cases h
  case judged ipv6 rtn =>
    rw [hpc] at h hs
    cases rtn with
    | fail => exact absurd rfl hs
    | actionRetry => cases h
  case close k =>
    rw [hpc] at h hs
    dsimp only [closeStep] at h
    repeat' split at h
    all_goals
      cases k with
      | attempt ipv6 rtn =>
        cases rtn with
        | fail => exact absurd rfl hs
        | actionRetry => cases h
      | _ => cases h
  case closeListener k | closeListenerSet k | release k =>
    rw [hpc] at h hs
    dsimp only [listenerStep, listenerSetStep, releaseStep] at h
    repeat' split at h
    all_goals
      cases k with
      | attempt ipv6 rtn =>
        cases rtn with
        | fail => exact absurd rfl hs
        | actionRetry => cases h
      | _ => cases h
  case downTest caller | downWait caller =>
    rw [hpc] at h
    dsimp only [State.goto] at h
    split at h
    all_goals cases caller <;> cases h
  all_goals
    rw [hpc] at h
    dsimp only [judgedStep, loopWaitStep, heartBeatStep, listenerStep, listenerSetStep,
      State.goto] at h
    repeat' split at h
    all_goals first
      | cases h
      | rw [hpc] at h; cases h

theorem TokenInv.enter (hx : TokenInv dep libs x) (hpc : x.1.pc = .enter) :
    TokenInv dep libs
      (enterStep dep calls x.1, mainContext dep libs calls headerCalls x.1 x.2) := by
  have hnames := @initHeaderInfo_names dep libs { x.2 with extraHeaders := none } x.1 headerCalls
  have hbare : (enterStep dep calls x.1).pc.headed = false := by
    obtain hnext | hnext | hnext := enterStep_pc dep calls x.1
    all_goals
      rw [hnext]
      rfl
  have htoken : ∀ values, TokenFrom
      ({ x.2 with extraHeaders := none }.initHeaderInfo libs values headerCalls).asked
      (Context.authOf
        ({ x.2 with extraHeaders := none }.initHeaderInfo libs values
          headerCalls).webpaAuthToken) := by
    intro values
    unfold Context.initHeaderInfo
    dsimp only
    repeat' split
    all_goals exact hx.token
  simp only [mainContext, hpc]
  split
  · refine ⟨htoken _, .inl ⟨rfl, rfl⟩, ?_⟩
    rw [hbare]
    exact fun h ↦ absurd h Bool.false_ne_true
  · refine ⟨htoken _, hnames, ?_⟩
    rw [hbare]
    exact fun h ↦ absurd h Bool.false_ne_true

theorem TokenInv.keepTrying (hx : TokenInv dep libs x) (calls : HeaderCalls) (t : State) :
    TokenInv dep libs (t, x.2.setExtraHeaders dep.cfg calls) where
  token := setExtraHeaders_tokenFrom hx.token dep.cfg calls
  names := by
    dsimp only
    rw [setExtraHeaders_headerInfo]
    exact hx.names
  headed _ _ h := setExtraHeaders_built calls h

/-- Elsewhere nothing is sent before the headers are made again. -/
theorem tokenInv_bare
    (htoken : TokenFrom c.asked (Context.authOf c.webpaAuthToken))
    (hnames : NamesFrom dep libs (c.headerInfo.deviceId.map Owned.val)
      (c.headerInfo.userAgent.map Owned.val)) (hbare : t.pc.headed = false) :
    TokenInv dep libs (t, c) where
  token := htoken
  names := hnames
  headed hheaded := by
    rw [hbare] at hheaded
    cases hheaded

theorem tokenFrom_zero : TokenFrom [] (Context.authOf zeroToken) :=
  .inl ⟨authOf_eq_none (tokenText_eq zeroToken_holds), List.forall_mem_nil _⟩

theorem TokenInv.main (hx : TokenInv dep libs x) :
    TokenInv dep libs
      (mainStep dep calls x.1, mainContext dep libs calls headerCalls x.1 x.2) := by
  by_cases henter : x.1.pc = .enter
  · have hstep : mainStep dep calls x.1 = enterStep dep calls x.1 := by simp only [mainStep, henter]
    rw [hstep]
    exact hx.enter henter
  unfold mainContext
  split
  · exact absurd ‹_› henter
  · rename_i hpc
    split
    · rename_i hshutdown
      refine tokenInv_bare hx.token hx.names ?_
      simp only [mainStep, hpc, hshutdown]
      rfl
    · exact hx.keepTrying headerCalls _
  · rename_i ipv6 hpc
    split
    · rename_i hunauthorized
      refine tokenInv_bare tokenFrom_zero hx.names ?_
      simp only [mainStep, hpc]
      rw [unauthorized_wait ipv6 hunauthorized]
      rfl
    · refine ⟨hx.token, hx.names, fun _ ↦ hx.headed ?_⟩
      rw [hpc]
      rfl
  · rename_i hpc
    have hbare : (mainStep dep calls x.1).pc.headed = false := by
      simp only [mainStep, hpc]
      cases x.1.interfaceDownEvent <;> rfl
    split
    · exact tokenInv_bare hx.token hx.names hbare
    · exact tokenInv_bare hx.token hx.names hbare
  · rename_i hpc
    refine tokenInv_bare hx.token (.inl ⟨rfl, rfl⟩) ?_
    simp only [mainStep, hpc]
    rfl
  · rename_i hkeep _ _ _
    refine ⟨hx.token, hx.names, fun hheaded ↦ hx.headed ?_⟩
    obtain hpc | hbefore := mainStep_headed hheaded
    · exact absurd hpc hkeep
    · exact hbefore

theorem TokenInv.step (hx : TokenInv dep libs x)
    (hstep : Observed (HeadedStep dep) (observeContext dep libs) x a y) :
    TokenInv dep libs y := by
  obtain ⟨t, c⟩ := y
  obtain ⟨hst, rfl⟩ := hstep
  dsimp only at hst
  obtain ⟨calls, ha, rfl⟩ | ⟨hother, haside⟩ := step_cases hst
  · simp only [observeContext, ha]
    exact hx.main
  · have hsame : observeContext dep libs x.1 a x.2 = x.2 := by
      unfold observeContext
      split
      · exact absurd ‹_› (hother _)
      · rfl
    rw [hsame]
    refine ⟨hx.token, hx.names, ?_⟩
    rw [haside.pc]
    exact hx.headed

theorem tokenInv_init : TokenInv dep libs (init, initContext) where
  token := tokenFrom_zero
  names := .inl ⟨rfl, rfl⟩
  headed h := by cases h

end Token

section Inputs

def headedLibs : HeaderLibs := ⟨compactLib, opensslBase64, .empty⟩

/-- A token server that cannot be reached. -/
def unreached : Token.Attempt := ⟨false, [], 0, 0, by decide⟩

def headedBy (calls : Calls) : Headed := (.main calls, ⟨true, true, true, fun _ ↦ unreached⟩)

def watchContext : State × Context → Headed → Option (State × Context) :=
  watch (fun s a ↦ step cloudDeployment s a.1) (observeContext cloudDeployment headedLibs)

end Inputs

section Runs

variable {dep : Deployment} {libs : HeaderLibs} {x : State × Context}
  {tr : List ((State × Context) × Headed)}

/-- Over the whole run of the process, whichever allocations fail. -/
theorem run_memoryRight
    (h : Run (Observed (HeadedStep dep) (observeContext dep libs)) (init, initContext) tr x) :
    Throughout MemoryRight tr x := by
  obtain ⟨htr, hx⟩ := h.invariant (P := ContextInv) (fun _ _ _ hx ↦ hx.step) contextInv_init
  exact ⟨fun x hmem ↦ (htr x hmem).right, hx.right⟩

theorem run_memoryRight_connected : ∃ tr x,
    Run (Observed (HeadedStep cloudDeployment) (observeContext cloudDeployment headedLibs))
      (init, initContext) tr x ∧ x.1.pc = .loopWait ∧ Throughout MemoryRight tr x := by
  have hexec : (exec watchContext (init, initContext)
      (List.replicate 10 (headedBy quiet))).map (fun r ↦ r.2.1.pc) = some .loopWait := by
    simp only [watchContext, cloudDeployment, String.reduceToList]
    rfl
  obtain ⟨r, hr, hpc⟩ := Option.map_eq_some_iff.mp hexec
  have hrun := run_of_exec_watch hr
  exact ⟨r.1, r.2, hrun, hpc, run_memoryRight hrun⟩

/-- Whatever the token server and the servers answer, and whatever fails. -/
theorem run_headersRight
    (h : Run (Observed (HeadedStep dep) (observeContext dep libs)) (init, initContext) tr x) :
    Throughout (HeadersRight dep libs) tr x := by
  obtain ⟨htr, hx⟩ := h.invariant (P := TokenInv dep libs) (fun _ _ _ hx ↦ hx.step) tokenInv_init
  exact ⟨fun x hmem ↦ (htr x hmem).right, hx.right⟩

/-- The headers of the first attempt. -/
theorem run_headersRight_first : ∃ tr x,
    Run (Observed (HeadedStep cloudDeployment) (observeContext cloudDeployment headedLibs))
      (init, initContext) tr x ∧
      ∃ headers token deviceId userAgent, x.2.extraHeaders = some headers ∧
        TokenFrom x.2.asked token ∧ NamesFrom cloudDeployment headedLibs deviceId userAgent ∧
        headers.val = buildExtraHeaders token deviceId userAgent x.2.headerInfo.conveyHeader := by
  have hexec : (exec watchContext (init, initContext) (List.replicate 3 (headedBy quiet))).map
      (fun r ↦ (r.2.1.pc, r.2.2.extraHeaders.isSome)) = some (.connect true, true) := by
    simp only [watchContext, cloudDeployment, String.reduceToList]
    rfl
  obtain ⟨r, hr, heq⟩ := Option.map_eq_some_iff.mp hexec
  obtain ⟨hpc, hsome⟩ := Prod.mk.inj heq
  obtain ⟨headers, hheaders⟩ := Option.isSome_iff_exists.mp hsome
  have hrun := run_of_exec_watch hr
  obtain ⟨token, deviceId, userAgent, hright⟩ :=
    (run_headersRight hrun).2 true hpc headers hheaders
  exact ⟨r.1, r.2, hrun, headers, token, deviceId, userAgent, hheaders, hright⟩

end Runs

end Parodus.Connection
