import Parodus.Config.CommandLine
import Parodus.Foundation.Buffers

namespace Parodus.Token

open Config Foundation

abbrev TokenBuf := Buffer Char 4096

def nulByte : Char := Char.ofNat 0

def zeroToken : TokenBuf := .fill 4096 nulByte

/-- One exchange with the token server: whether libcurl gives a handle, the chunks in which the
body comes, the result if all are taken, and the code, which an `int` can hold. -/
structure Attempt where
  init : Bool
  chunks : List (List Char)
  curlResult : ℤ
  httpCode : ℤ
  codeFits : -2147483648 ≤ httpCode ∧ httpCode < 2147483648

structure TokenData where
  size : ℕ
  data : TokenBuf

/-- What it returns, and the data; `none` stands for a write behind the buffer. -/
def writeCallbackFn (buffer : List Char) (data : TokenData) : Option (ℕ × TokenData) :=
  if data.size + buffer.length ≥ 4096 then some (0, { data with size := 0 })
  else
    (data.data.write data.size buffer).bind fun copied ↦
      (copied.write (data.size + buffer.length) [nulByte]).map fun ended ↦
        (buffer.length, ⟨data.size + buffer.length, ended⟩)

def curleWriteError : ℤ := 23

/-- libcurl hands the chunks over, and fails when one is not taken. -/
def curlEasyPerform (curlResult : ℤ) : List (List Char) → TokenData → Option (ℤ × TokenData)
  | [], data => some (curlResult, data)
  | chunk :: rest, data =>
    (writeCallbackFn chunk data).bind fun taken ↦
      if taken.1 < chunk.length then some (curleWriteError, taken.2)
      else curlEasyPerform curlResult rest taken.2

/-- The status, and the token. -/
def requestNewAuthToken (attempt : Attempt) (newToken : TokenBuf) : Option (ℤ × TokenBuf) :=
  if attempt.init then
    (newToken.write 0 [nulByte]).bind fun emptied ↦
      (curlEasyPerform attempt.curlResult attempt.chunks ⟨0, emptied⟩).map fun performed ↦
        if performed.1 ≠ 0 then (-1, zeroToken)
        else if attempt.httpCode = 200 then (0, performed.2.data)
        else (-1, zeroToken)
  else some (-1, zeroToken)

inductive IpResolve
  | whatever
  | v4
  | v6
  deriving DecidableEq

def ipResolve (rCount : ℕ) : IpResolve :=
  if rCount = 1 then .v4 else if rCount = 2 then .v6 else .whatever

def maxCurlRetryCount : ℕ := 3

/-- The loop of `getAuthToken`: the token, and how each request resolves the host. -/
def fetchToken (attempts : ℕ → Attempt) (retryCount : Fin maxCurlRetryCount) (token : TokenBuf) :
    Option (TokenBuf × List IpResolve) :=
  (requestNewAuthToken (attempts retryCount) token).bind fun fetched ↦
    if fetched.1 = 0 then some (fetched.2, [ipResolve retryCount])
    else if h : retryCount.1 + 1 = maxCurlRetryCount then
      some (fetched.2, [ipResolve retryCount])
    else
      (fetchToken attempts ⟨retryCount + 1, by omega⟩ fetched.2).map fun rest ↦
        (rest.1, ipResolve retryCount :: rest.2)
termination_by maxCurlRetryCount - retryCount

/-- The token, whatever it was, is cleared first. -/
def getAuthToken (cfg : ParodusCfg) (attempts : ℕ → Attempt) (_webpaAuthToken : TokenBuf) :
    Option (TokenBuf × List IpResolve) :=
  if cfg.hwMac.text ≠ [] then
    if cfg.clientCertPath.getD [] ≠ [] then fetchToken attempts ⟨0, by decide⟩ zeroToken
    else some (zeroToken, [])
  else some (zeroToken, [])

def Attempt.body (attempt : Attempt) : List Char := attempt.chunks.flatten

/-- The transfer ends with curl success, which it does not if the body does not fit, and with
code 200. -/
structure Attempt.Succeeds (attempt : Attempt) : Prop where
  init : attempt.init = true
  fits : attempt.body.length < 4096
  curlResult : attempt.curlResult = 0
  httpCode : attempt.httpCode = 200

/-- The token is the body of the first of the attempts that succeeds, or empty. -/
def TokenOf (made : List Attempt) (token : TokenBuf) : Prop :=
  (∃ failed attempt rest, made = failed ++ attempt :: rest ∧
    (∀ before ∈ failed, ¬ before.Succeeds) ∧ attempt.Succeeds ∧
    token.Holds nulByte attempt.body) ∨
  ((∀ attempt ∈ made, ¬ attempt.Succeeds) ∧ token.Holds nulByte [])

variable {attempt : Attempt} {token : TokenBuf} {data : TokenData} {text : List Char}

theorem zeroToken_holds : zeroToken.Holds nulByte [] := Buffer.holds_fill nulByte (by decide)

/-- A chunk that fits is appended. -/
theorem writeCallbackFn_takes {buffer : List Char} (hsize : data.size = text.length)
    (hdata : data.data.Holds nulByte text) (hfits : (text ++ buffer).length < 4096) :
    ∃ data', writeCallbackFn buffer data = some (buffer.length, data') ∧
      data'.size = (text ++ buffer).length ∧ data'.data.Holds nulByte (text ++ buffer) := by
  obtain ⟨copied, hcopied, hholds⟩ := hdata.write_chunk hfits
  rw [List.length_append] at hfits
  have hended := hholds.write_end
  rw [List.length_append] at hended
  refine ⟨⟨(text ++ buffer).length, copied⟩, ?_, rfl, hholds⟩
  rw [writeCallbackFn, hsize, if_neg (by omega), hcopied, Option.bind_some, hended,
    Option.map_some, List.length_append]

theorem writeCallbackFn_refuses {buffer : List Char}
    (hover : 4096 ≤ data.size + buffer.length) :
    writeCallbackFn buffer data = some (0, { data with size := 0 }) := by
  rw [writeCallbackFn, if_pos hover]

/-- The transfer appends the chunks to the text, or fails if they do not fit. -/
theorem curlEasyPerform_eq (curlResult : ℤ) (chunks : List (List Char))
    (hsize : data.size = text.length) (hdata : data.data.Holds nulByte text) :
    ∃ res data', curlEasyPerform curlResult chunks data = some (res, data') ∧
      if (text ++ chunks.flatten).length < 4096 then
        res = curlResult ∧ data'.data.Holds nulByte (text ++ chunks.flatten)
      else res ≠ 0 := by
  induction chunks generalizing data text with
  | nil =>
    refine ⟨curlResult, data, rfl, ?_⟩
    rw [List.flatten_nil, List.append_nil, if_pos hdata.fits]
    exact ⟨rfl, hdata⟩
  | cons chunk rest ih =>
    rw [curlEasyPerform, List.flatten_cons, ← List.append_assoc]
    by_cases hfits : (text ++ chunk).length < 4096
    · obtain ⟨data', htaken, hsize', hdata'⟩ := writeCallbackFn_takes hsize hdata hfits
      rw [htaken, Option.bind_some, if_neg (Nat.lt_irrefl _)]
      exact ih hsize' hdata'
    · have htext := hdata.fits
      rw [List.length_append] at hfits
      rw [writeCallbackFn_refuses (by omega), Option.bind_some, if_pos (by omega)]
      refine ⟨curleWriteError, _, rfl, ?_⟩
      rw [if_neg (by rw [List.length_append, List.length_append]; omega)]
      decide

/-- A request leaves the whole body or nothing. -/
theorem requestNewAuthToken_eq (attempt : Attempt) (htoken : token.Holds nulByte []) :
    ∃ status token', requestNewAuthToken attempt token = some (status, token') ∧
      ((attempt.Succeeds ∧ status = 0 ∧ token'.Holds nulByte attempt.body) ∨
        (¬ attempt.Succeeds ∧ status ≠ 0 ∧ token'.Holds nulByte [])) := by
  have hfailed : (-1 : ℤ) ≠ 0 ∧ zeroToken.Holds nulByte [] := ⟨by decide, zeroToken_holds⟩
  unfold requestNewAuthToken
  by_cases hinit : attempt.init = true
  · have hemptied : token.write 0 [nulByte] = some token := htoken.write_end
    obtain ⟨res, data', hperform, hres⟩ :=
      @curlEasyPerform_eq ⟨0, token⟩ [] attempt.curlResult attempt.chunks rfl htoken
    rw [List.nil_append, ← Attempt.body] at hres
    rw [if_pos hinit, hemptied, Option.bind_some, hperform, Option.map_some]
    by_cases hfits : attempt.body.length < 4096
    · rw [if_pos hfits] at hres
      obtain ⟨rfl, hbody⟩ := hres
      by_cases hresult : attempt.curlResult = 0
      · rw [if_neg (not_not_intro hresult)]
        by_cases hcode : attempt.httpCode = 200
        · rw [if_pos hcode]
          exact ⟨0, _, rfl, .inl ⟨⟨hinit, hfits, hresult, hcode⟩, rfl, hbody⟩⟩
        · rw [if_neg hcode]
          exact ⟨-1, _, rfl, .inr ⟨fun h ↦ hcode h.httpCode, hfailed⟩⟩
      · rw [if_pos hresult]
        exact ⟨-1, _, rfl, .inr ⟨fun h ↦ hresult h.curlResult, hfailed⟩⟩
    · rw [if_neg hfits] at hres
      rw [if_pos hres]
      exact ⟨-1, _, rfl, .inr ⟨fun h ↦ hfits h.fits, hfailed⟩⟩
  · rw [if_neg hinit]
    exact ⟨-1, _, rfl, .inr ⟨fun h ↦ hinit h.init, hfailed⟩⟩

theorem tokenOf_succeeds (h : attempt.Succeeds) (htoken : token.Holds nulByte attempt.body) :
    TokenOf [attempt] token :=
  .inl ⟨[], attempt, [], rfl, List.forall_mem_nil _, h, htoken⟩

theorem tokenOf_fails (h : ¬ attempt.Succeeds) (htoken : token.Holds nulByte []) :
    TokenOf [attempt] token :=
  .inr ⟨List.forall_mem_singleton.mpr h, htoken⟩

theorem TokenOf.cons {made : List Attempt} (hmade : TokenOf made token) (h : ¬ attempt.Succeeds) :
    TokenOf (attempt :: made) token := by
  obtain ⟨failed, success, rest, rfl, hfailed, hsuccess, htoken⟩ | ⟨hfailed, htoken⟩ := hmade
  · exact .inl ⟨attempt :: failed, success, rest, rfl, List.forall_mem_cons.mpr ⟨h, hfailed⟩,
      hsuccess, htoken⟩
  · exact .inr ⟨List.forall_mem_cons.mpr ⟨h, hfailed⟩, htoken⟩

/-- From a retry count on the attempts are made one by one, until one succeeds or the count is
reached. -/
theorem fetchToken_eq (attempts : ℕ → Attempt) (retryCount : Fin maxCurlRetryCount)
    (htoken : token.Holds nulByte []) :
    ∃ n token', fetchToken attempts retryCount token =
        some (token', (List.range' retryCount n).map ipResolve) ∧
      retryCount + n ≤ maxCurlRetryCount ∧
      TokenOf ((List.range' retryCount n).map attempts) token' ∧
      ((∀ i ∈ List.range' retryCount n, ¬ (attempts i).Succeeds) →
        retryCount + n = maxCurlRetryCount) := by
  induction hleft : maxCurlRetryCount - retryCount.1 generalizing retryCount token with
  | zero =>
    have hcount := retryCount.2
    omega
  | succ left ih =>
    have hcount := retryCount.2
    obtain ⟨status, token', hrequest, hcase⟩ := requestNewAuthToken_eq (attempts retryCount) htoken
    rw [fetchToken, hrequest, Option.bind_some]
    obtain ⟨hsuccess, rfl, hbody⟩ | ⟨hfailed, hstatus, hempty⟩ := hcase
    · rw [if_pos rfl]
      refine ⟨1, token', rfl, hcount, tokenOf_succeeds hsuccess hbody, fun h ↦ ?_⟩
      exact absurd hsuccess (h retryCount List.mem_cons_self)
    · rw [if_neg hstatus]
      by_cases hlast : retryCount.1 + 1 = maxCurlRetryCount
      · rw [dif_pos hlast]
        exact ⟨1, token', rfl, hcount, tokenOf_fails hfailed hempty, fun _ ↦ hlast⟩
      · rw [dif_neg hlast]
        obtain ⟨n, final, hfetch, hmost, htokenOf, hall⟩ :=
          ih ⟨retryCount + 1, by omega⟩ hempty (by dsimp only; omega)
        rw [hfetch, Option.map_some]
        refine ⟨n + 1, final, rfl, by dsimp only at hmost; omega, htokenOf.cons hfailed, ?_⟩
        intro h
        have hrest := hall fun i hi ↦ h i (List.mem_cons_of_mem _ hi)
        dsimp only at hrest
        omega

/-- Of the attempts made, only the last can have succeeded, and the token is its body. -/
def FromLast (made : List Attempt) (token : TokenBuf) : Prop :=
  ((∀ attempt ∈ made, ¬ attempt.Succeeds) ∧ token.Holds nulByte []) ∨
  ∃ failed attempt, made = failed ++ [attempt] ∧ (∀ before ∈ failed, ¬ before.Succeeds) ∧
    attempt.Succeeds ∧ token.Holds nulByte attempt.body

theorem FromLast.cons {made : List Attempt} (hmade : FromLast made token)
    (h : ¬ attempt.Succeeds) : FromLast (attempt :: made) token := by
  obtain ⟨hfailed, htoken⟩ | ⟨failed, last, rfl, hfailed, hlast⟩ := hmade
  · exact .inl ⟨List.forall_mem_cons.mpr ⟨h, hfailed⟩, htoken⟩
  · exact .inr ⟨attempt :: failed, last, rfl, List.forall_mem_cons.mpr ⟨h, hfailed⟩, hlast⟩

/-- No attempt is made behind one that succeeds. -/
theorem fetchToken_fromLast (attempts : ℕ → Attempt) (retryCount : Fin maxCurlRetryCount)
    (htoken : token.Holds nulByte []) :
    ∃ n token', fetchToken attempts retryCount token =
        some (token', (List.range' retryCount n).map ipResolve) ∧
      FromLast ((List.range' retryCount n).map attempts) token' := by
  induction hleft : maxCurlRetryCount - retryCount.1 generalizing retryCount token with
  | zero =>
    have hcount := retryCount.2
    omega
  | succ left ih =>
    have hcount := retryCount.2
    obtain ⟨status, token', hrequest, hcase⟩ := requestNewAuthToken_eq (attempts retryCount) htoken
    rw [fetchToken, hrequest, Option.bind_some]
    obtain ⟨hsuccess, rfl, hbody⟩ | ⟨hfailed, hstatus, hempty⟩ := hcase
    · rw [if_pos rfl]
      exact ⟨1, token', rfl, .inr ⟨[], _, rfl, List.forall_mem_nil _, hsuccess, hbody⟩⟩
    · rw [if_neg hstatus]
      by_cases hlast : retryCount.1 + 1 = maxCurlRetryCount
      · rw [dif_pos hlast]
        exact ⟨1, token', rfl, .inl ⟨List.forall_mem_singleton.mpr hfailed, hempty⟩⟩
      · rw [dif_neg hlast]
        obtain ⟨n, final, hfetch, hfinal⟩ :=
          ih ⟨retryCount + 1, by omega⟩ hempty (by dsimp only; omega)
        rw [hfetch, Option.map_some]
        exact ⟨n + 1, final, rfl, hfinal.cons hfailed⟩

/-- Whatever the token was, it comes from the attempts of the very call. -/
theorem getAuthToken_fromLast (cfg : ParodusCfg) (attempts : ℕ → Attempt) (token : TokenBuf) :
    ∃ n token', getAuthToken cfg attempts token = some (token', (List.range n).map ipResolve) ∧
      FromLast ((List.range n).map attempts) token' := by
  have hnone : ∃ n token', some (zeroToken, []) = some (token', (List.range n).map ipResolve) ∧
      FromLast ((List.range n).map attempts) token' :=
    ⟨0, zeroToken, rfl, .inl ⟨List.forall_mem_nil _, zeroToken_holds⟩⟩
  unfold getAuthToken
  split
  · split
    · obtain ⟨n, token', hfetch, hlast⟩ :=
        fetchToken_fromLast attempts ⟨0, by decide⟩ zeroToken_holds
      dsimp only at hfetch hlast
      rw [← List.range_eq_range'] at hfetch hlast
      exact ⟨n, token', hfetch, hlast⟩
    · exact hnone
  · exact hnone

/-- There are at most three requests, and the token is the body of the first that succeeds or
empty. -/
theorem getAuthToken_right (cfg : ParodusCfg) (attempts : ℕ → Attempt) (token : TokenBuf) :
    ∃ n token', getAuthToken cfg attempts token =
        some (token', (List.range n).map ipResolve) ∧
      n ≤ 3 ∧ TokenOf ((List.range n).map attempts) token' ∧
      (cfg.hwMac.text ≠ [] → cfg.clientCertPath.getD [] ≠ [] →
        (∀ i < n, ¬ (attempts i).Succeeds) → n = 3) := by
  unfold getAuthToken
  by_cases hmac : cfg.hwMac.text ≠ []
  · rw [if_pos hmac]
    by_cases hcert : cfg.clientCertPath.getD [] ≠ []
    · rw [if_pos hcert]
      obtain ⟨n, token', hfetch, hmost, htokenOf, hall⟩ :=
        fetchToken_eq attempts ⟨0, by decide⟩ zeroToken_holds
      dsimp only at hfetch hmost htokenOf hall
      rw [Nat.zero_add] at hmost hall
      rw [← List.range_eq_range'] at hfetch htokenOf hall
      exact ⟨n, token', hfetch, hmost, htokenOf, fun _ _ h ↦
        hall fun i hi ↦ h i (List.mem_range.mp hi)⟩
    · rw [if_neg hcert]
      exact ⟨0, zeroToken, rfl, by decide, .inr ⟨List.forall_mem_nil _, zeroToken_holds⟩,
        fun _ h ↦ absurd h hcert⟩
  · rw [if_neg hmac]
    exact ⟨0, zeroToken, rfl, by decide, .inr ⟨List.forall_mem_nil _, zeroToken_holds⟩,
      fun h ↦ absurd h hmac⟩

end Parodus.Token
