import Parodus.Foundation.Access
import Parodus.Token.Jwt

namespace Parodus.Token

open Config Foundation

/-- What `ctime_r` writes: a line of 25 characters, or nothing for a time that has no calendar
date. -/
structure Ctime where
  ctimeR : ℤ → Option CString
  length : ∀ time text, ctimeR time = some text → text.length = 25

/-- The strings used; `none` is one that is absent. -/
abbrev Uses := Access (Option CString)

/-- A buffer without its newline, as it is logged from the fifth character on. -/
def shownTime (ctime : Ctime) (time : ℤ) : Uses (Option CString) := do
  Access.touch (ctime.ctimeR time)
  pure ((ctime.ctimeR time).map fun text ↦ text.dropLast.drop 4)

/-- What is logged of the two times. -/
def showTimes (ctime : Ctime) (expTime curTime : ℤ) : Uses (List (Option CString)) := do
  let expBuf ← shownTime ctime expTime
  let curBuf ← shownTime ctime curTime
  Access.touch expBuf
  Access.touch curBuf
  pure [expBuf, curBuf]

def parseWebpaUrlUse (allocated : Bool) (fullUrl : Option CString) :
    Uses (Option (Option WebpaUrl)) := do
  Access.touch fullUrl
  pure (fullUrl.map (parseWebpaUrl allocated))

/-- `analyze_jwt` with the strings that it logs and parses. -/
def analyzeJwtUses (ctime : Ctime) (calls : TokenCalls) (jwt : Cjwt) :
    Uses (Option (Except ℤ WebpaUrl)) :=
  match Crud.getObjectItem jwt.privateClaims "endpoint".toList with
  | none => pure (some (.error tokenErrInvalidJwtContent))
  | some endpoint => do
    Access.touch (valuestring endpoint.value)
    if jwt.expSec = 0 then pure (some (.error tokenErrNoExpiration))
    else do
      let _ ← showTimes ctime jwt.expSec calls.curTime
      if jwt.expSec < calls.curTime then pure (some (.error tokenErrJwtExpired))
      else do
        let httpMatch ← parseWebpaUrlUse calls.urlAllocated (valuestring endpoint.value)
        pure (httpMatch.map fun url ↦
          match url with
          | none => .error tokenErrBadEndpoint
          | some url => .ok url)

/-- The claims name a server, and are not expired. -/
def Accepted (calls : TokenCalls) (jwt : Cjwt) (url : WebpaUrl) : Prop :=
  ∃ endpoint text, Crud.getObjectItem jwt.privateClaims "endpoint".toList = some endpoint ∧
    endpoint.value = .str text ∧ parseWebpaUrl calls.urlAllocated text = some url ∧
    jwt.expSec ≠ 0 ∧ calls.curTime ≤ jwt.expSec

def analyzeErrors : List ℤ :=
  [tokenErrInvalidJwtContent, tokenErrNoExpiration, tokenErrJwtExpired, tokenErrBadEndpoint]

/-- The value is the one that the claims ask for. -/
structure ValueRight (calls : TokenCalls) (jwt : Cjwt) (ret : ℤ) : Prop where
  nonneg : 0 ≤ ret ↔ ∃ url, Accepted calls jwt url
  allowInsecure : ∀ url, Accepted calls jwt url → ret = url.allowInsecure
  error : (¬ ∃ url, Accepted calls jwt url) → ret ∈ analyzeErrors

/-- No absent string is used, and the value is right. -/
def AnalyzeRight (ctime : Ctime) (calls : TokenCalls) (jwt : Cjwt) : Prop :=
  (analyzeJwtUses ctime calls jwt).Within (· ≠ none) ∧
    ∃ ret, (analyzeJwtUses ctime calls jwt).value = some ret ∧ ValueRight calls jwt (returned ret)

variable {ctime : Ctime} {calls : TokenCalls} {jwt : Cjwt} {url : WebpaUrl}
  {endpoint : Crud.Item} {text : CString}

theorem valuestring_eq_some_iff {value : Json} : valuestring value = some text ↔
    value = .str text := by
  cases value <;> simp [valuestring]

/-- The value is that of the model without its strings. -/
theorem analyzeJwtUses_value (ctime : Ctime) (calls : TokenCalls) (jwt : Cjwt) :
    (analyzeJwtUses ctime calls jwt).value = analyzeJwt calls jwt := by
  unfold analyzeJwtUses analyzeJwt
  cases Crud.getObjectItem jwt.privateClaims "endpoint".toList with
  | none => rfl
  | some endpoint =>
    dsimp only
    rw [Access.value_bind]
    split
    · rfl
    · rw [Access.value_bind]
      split
      · rfl
      · rw [Access.value_bind, parseWebpaUrlUse, Access.value_bind, Access.value_pure,
          Access.value_pure, Option.map_map]
        rfl

theorem shownTime_within (ctime : Ctime) (time : ℤ) :
    (shownTime ctime time).Within (· ≠ none) ↔ ctime.ctimeR time ≠ none := by
  rw [shownTime, Access.within_bind, Access.within_touch]
  exact and_iff_left (Access.within_pure _)

theorem showTimes_within (ctime : Ctime) (expTime curTime : ℤ) :
    (showTimes ctime expTime curTime).Within (· ≠ none) ↔
      ctime.ctimeR expTime ≠ none ∧ ctime.ctimeR curTime ≠ none := by
  simp only [showTimes, Access.within_bind, shownTime_within, Access.within_touch]
  have hshown : ∀ time, (shownTime ctime time).value ≠ none ↔ ctime.ctimeR time ≠ none := by
    intro time
    rw [shownTime, Access.value_bind, Access.value_pure, Ne, Option.map_eq_none_iff]
  rw [hshown, hshown]
  have hpure : ∀ bufs : List (Option CString),
      (pure bufs : Uses (List (Option CString))).Within (· ≠ none) :=
    fun _ ↦ Access.within_pure _
  simp only [hpure, and_true]
  tauto

theorem analyzeJwtUses_within_some (ctime : Ctime) (calls : TokenCalls)
    (hfound : Crud.getObjectItem jwt.privateClaims "endpoint".toList = some endpoint) :
    (analyzeJwtUses ctime calls jwt).Within (· ≠ none) ↔
      (∃ text, endpoint.value = .str text) ∧
        (jwt.expSec ≠ 0 → ctime.ctimeR jwt.expSec ≠ none ∧ ctime.ctimeR calls.curTime ≠ none) := by
  have hstring : valuestring endpoint.value ≠ none ↔ ∃ text, endpoint.value = .str text := by
    simp only [Option.ne_none_iff_exists', valuestring_eq_some_iff]
  simp only [analyzeJwtUses, hfound]
  rw [Access.within_bind, Access.within_touch, hstring]
  refine and_congr_right fun hpresent ↦ ?_
  by_cases hexp : jwt.expSec = 0
  · rw [if_pos hexp]
    exact iff_of_true (Access.within_pure _) fun h ↦ absurd hexp h
  · rw [if_neg hexp, Access.within_bind, showTimes_within, imp_iff_right hexp]
    refine and_iff_left ?_
    split
    · exact Access.within_pure _
    · rw [parseWebpaUrlUse, Access.within_bind, Access.within_bind, Access.within_touch]
      exact ⟨⟨hstring.mpr hpresent, Access.within_pure _⟩, Access.within_pure _⟩

theorem accepted_iff (hfound : Crud.getObjectItem jwt.privateClaims "endpoint".toList =
    some endpoint) (htext : endpoint.value = .str text) :
    Accepted calls jwt url ↔ parseWebpaUrl calls.urlAllocated text = some url ∧
      jwt.expSec ≠ 0 ∧ calls.curTime ≤ jwt.expSec := by
  constructor
  · rintro ⟨endpoint', text', hfound', htext', haccepted⟩
    obtain rfl := Option.some.inj (hfound.symm.trans hfound')
    obtain rfl := Json.str.inj (htext.symm.trans htext')
    exact haccepted
  · intro h
    exact ⟨endpoint, text, hfound, htext, h⟩

theorem analyzeErrors_neg : ∀ ret ∈ analyzeErrors, ret < 0 := by decide

theorem valueRight_error {ret : ℤ} (hnot : ¬ ∃ url, Accepted calls jwt url)
    (hret : ret ∈ analyzeErrors) : ValueRight calls jwt ret where
  nonneg := iff_of_false (Int.not_le.mpr (analyzeErrors_neg ret hret)) hnot
  allowInsecure url h := absurd ⟨url, h⟩ hnot
  error _ := hret

theorem valueRight_accepted (h : Accepted calls jwt url) :
    ValueRight calls jwt url.allowInsecure := by
  have hunique : ∀ url', Accepted calls jwt url' → url' = url := by
    obtain ⟨endpoint, text, hfound, htext, hparse, _⟩ := h
    intro url' h'
    obtain ⟨hparse', _⟩ := (accepted_iff hfound htext).mp h'
    exact Option.some.inj (hparse'.symm.trans hparse)
  obtain ⟨_, _, _, _, hparse, _⟩ := id h
  have hflag := (parseWebpaUrl_eq_some hparse).1
  refine ⟨iff_of_true ?_ ⟨url, h⟩, ?_, fun hnot ↦ absurd ⟨url, h⟩ hnot⟩
  · omega
  · intro url' h'
    rw [hunique url' h']

theorem analyzeJwt_absent
    (hfound : Crud.getObjectItem jwt.privateClaims "endpoint".toList = none) :
    ∃ ret, analyzeJwt calls jwt = some ret ∧ ValueRight calls jwt (returned ret) := by
  refine ⟨.error tokenErrInvalidJwtContent, ?_, valueRight_error ?_ (by decide)⟩
  · unfold analyzeJwt
    rw [hfound]
  · rintro ⟨_, _, _, hfound', _⟩
    rw [hfound] at hfound'
    cases hfound'

/-- The checks of the expiration come before that of the url. -/
theorem analyzeJwt_string
    (hfound : Crud.getObjectItem jwt.privateClaims "endpoint".toList = some endpoint)
    (htext : endpoint.value = .str text) :
    ∃ ret, analyzeJwt calls jwt = some ret ∧ ValueRight calls jwt (returned ret) := by
  have haccepted := fun url ↦ @accepted_iff calls jwt url endpoint text hfound htext
  simp only [analyzeJwt, hfound, htext, valuestring, Option.map_some]
  by_cases hexp : jwt.expSec = 0
  · rw [if_pos hexp]
    refine ⟨_, rfl, valueRight_error ?_ (by decide)⟩
    rintro ⟨url, h⟩
    exact ((haccepted url).mp h).2.1 hexp
  rw [if_neg hexp]
  by_cases hexpired : jwt.expSec < calls.curTime
  · rw [if_pos hexpired]
    refine ⟨_, rfl, valueRight_error ?_ (by decide)⟩
    rintro ⟨url, h⟩
    exact absurd hexpired (Int.not_lt.mpr ((haccepted url).mp h).2.2)
  rw [if_neg hexpired]
  cases hparse : parseWebpaUrl calls.urlAllocated text with
  | none =>
    refine ⟨_, rfl, valueRight_error ?_ (by decide)⟩
    rintro ⟨url, h⟩
    have hparse' := ((haccepted url).mp h).1
    rw [hparse] at hparse'
    cases hparse'
  | some url =>
    exact ⟨_, rfl, valueRight_accepted ((haccepted url).mpr
      ⟨hparse, hexp, Int.not_lt.mp hexpired⟩)⟩

/-- The analysis is right if the endpoint is absent or a string, and if the times that are shown
have a date. -/
theorem analyzeRight_iff (ctime : Ctime) (calls : TokenCalls) (jwt : Cjwt) :
    AnalyzeRight ctime calls jwt ↔
      ∀ endpoint, Crud.getObjectItem jwt.privateClaims "endpoint".toList = some endpoint →
        (∃ text, endpoint.value = .str text) ∧ (jwt.expSec ≠ 0 →
          ctime.ctimeR jwt.expSec ≠ none ∧ ctime.ctimeR calls.curTime ≠ none) := by
  rw [AnalyzeRight, analyzeJwtUses_value]
  cases hfound : Crud.getObjectItem jwt.privateClaims "endpoint".toList with
  | none =>
    refine iff_of_true ⟨?_, analyzeJwt_absent hfound⟩ nofun
    simp only [analyzeJwtUses, hfound]
    exact Access.within_pure _
  | some endpoint =>
    rw [analyzeJwtUses_within_some ctime calls hfound]
    constructor
    · rintro ⟨hright, _⟩ endpoint' hendpoint
      obtain rfl := Option.some.inj hendpoint
      exact hright
    · intro h
      have hright := h endpoint rfl
      obtain ⟨text, htext⟩ := hright.1
      exact ⟨hright, analyzeJwt_string hfound htext⟩

/-- Any time has a date of that length. -/
def datedCtime : Ctime := ⟨fun _ ↦ some (List.replicate 25 'x'), by
  intro _ text h
  obtain rfl := Option.some.inj h
  exact List.length_replicate⟩

def numberJwt : Cjwt := ⟨12, some (.obj [("endpoint".toList, .num 5)]), 100⟩

/-- The text of a number is handed on. -/
theorem numberJwt_not_analyzeRight : ¬ AnalyzeRight datedCtime rs512Calls numberJwt := by
  rintro ⟨hwithin, _⟩
  have hfound : Crud.getObjectItem numberJwt.privateClaims "endpoint".toList =
      some ⟨[], "endpoint".toList, .num 5, []⟩ := by
    simp only [numberJwt, String.reduceToList]
    rfl
  obtain ⟨⟨text, htext⟩, _⟩ := (analyzeJwtUses_within_some datedCtime rs512Calls hfound).mp hwithin
  cases htext

end Parodus.Token
