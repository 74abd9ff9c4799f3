import Mathlib.Algebra.Ring.Nat
import Parodus.Config.WebpaUrl

namespace Parodus.Config

open Foundation.Segments

inductive Scheme
  | https
  | http

namespace Scheme

def text : Scheme → CString
  | https => "https://".toList
  | http => "http://".toList

def allowInsecure : Scheme → ℤ
  | https => 0
  | http => 1

def port : Scheme → ℕ
  | https => 443
  | http => 80

end Scheme

/-- A decimal number in the range of ports. -/
structure IsPort (digits : CString) (value : ℕ) : Prop where
  nonempty : digits ≠ []
  numeric : ∀ c ∈ digits, isDigit c = true
  decimal : Nat.ofDigitChars 10 digits 0 = value
  inRange : 1 ≤ value ∧ value ≤ 65535

/-- A host, or an address in brackets; what is an ipv6 address is a parameter. -/
inductive Host (Ipv6 : CString → Prop)
  | name (text : CString) (nonempty : text ≠ []) (plain : ∀ c ∈ "/:[]".toList, c ∉ text)
  | ipv6 (addr : CString) (valid : Ipv6 addr) (closed : ']' ∉ addr)

namespace Host

variable {Ipv6 : CString → Prop}

def text : Host Ipv6 → CString
  | name text _ _ => text
  | ipv6 addr _ _ => '[' :: (addr ++ [']'])

def address : Host Ipv6 → CString
  | name text _ _ => text
  | ipv6 addr _ _ => addr

def IsName : Host Ipv6 → Prop
  | name .. => True
  | ipv6 .. => False

end Host

structure Port where
  digits : CString
  value : ℕ
  isPort : IsPort digits value

/-- The parts of a url of the documented form. -/
structure UrlParts (Ipv6 : CString → Prop) where
  scheme : Scheme
  host : Host Ipv6
  port : Option Port
  path : CString
  closed : Closed '/' path

namespace UrlParts

variable {Ipv6 : CString → Prop}

def portText : Option Port → CString
  | none => []
  | some port => ':' :: port.digits

def serverText (u : UrlParts Ipv6) : CString := u.host.text ++ (portText u.port ++ u.path)

def text (u : UrlParts Ipv6) : CString := u.scheme.text ++ u.serverText

def parsed (u : UrlParts Ipv6) : WebpaUrl :=
  ⟨u.scheme.allowInsecure, u.host.address, (u.port.map Port.value).getD u.scheme.port⟩

end UrlParts

/-- What is taken for the port behind a colon. -/
def portSegment (rest : CString) : CString := (cutAt '/' rest).1.take 7

/-- No colon, or one with a port behind it. -/
def PortFound (rest : CString) : Prop :=
  ':' ∉ rest ∨ ∃ front behind value, ':' ∉ front ∧ rest = front ++ ':' :: behind ∧
    IsPort (portSegment behind) value

/-- What stands behind the scheme when it passes for a server. -/
inductive Passes : CString → Prop
  | bracketed (c : Char) (addr rest : CString) (hopen : '[' ∈ c :: (addr ++ ']' :: rest))
    (hclose : ']' ∉ addr) (hport : PortFound rest) : Passes (c :: (addr ++ ']' :: rest))
  | plain (server : CString) (hopen : '[' ∉ server) (hclose : ']' ∉ server)
    (hport : PortFound server) : Passes server

section
variable (Ipv6 : CString → Prop)

/-- The urls that are not parsed as the form says, kind by kind. -/
inductive Misread (allocated : Bool) : CString → Prop
  | unallocated (u : UrlParts Ipv6) (hnone : allocated = false) : Misread allocated u.text
  | bracketInPath (u : UrlParts Ipv6) (hname : u.host.IsName) (c : Char) (hc : c ∈ "[]".toList)
    (hpath : c ∈ u.path) : Misread allocated u.text
  | colonInPath (u : UrlParts Ipv6) (hname : u.host.IsName) (hport : u.port = none)
    (hpath : ':' ∈ u.path) : Misread allocated u.text
  | portInPath (u : UrlParts Ipv6) (hport : u.port = none) (front behind : CString)
    (hpath : u.path = front ++ ':' :: behind) (hfront : ':' ∉ front)
    (hother : ¬IsPort (portSegment behind) u.scheme.port) : Misread allocated u.text
  | longPort (u : UrlParts Ipv6) (port : Port) (hport : u.port = some port)
    (hlong : 7 < port.digits.length) : Misread allocated u.text
  | notOfForm (scheme : Scheme) (server : CString) (halloc : allocated = true)
    (hpasses : Passes server) (hform : ∀ u : UrlParts Ipv6, u.text ≠ scheme.text ++ server) :
    Misread allocated (scheme.text ++ server)

/-- Every url of the form is parsed as it says, and no other is accepted. -/
def ParsedAs (allocated : Bool) (fullUrl : CString) : Prop :=
  ∀ url, parseWebpaUrl allocated fullUrl = some url ↔
    ∃ u : UrlParts Ipv6, u.text = fullUrl ∧ u.parsed = url

end

/-- The port of a url whose address and port text are known. -/
def checkPort (out : ℤ × CString × CString) : Option WebpaUrl :=
  if parseNumArg out.2.2 = unsignedMinusOne then none
  else if parseNumArg out.2.2 = 0 ∨ parseNumArg out.2.2 > 65535 then none
  else some ⟨out.1, out.2.1, parseNumArg out.2.2⟩

theorem parseWebpaUrl_eq (fullUrl : CString) :
    parseWebpaUrl true fullUrl =
      (parseWebpaUrl' fullUrl (fullUrl.length + 1) 8).bind checkPort := by
  rw [parseWebpaUrl, if_pos rfl]
  cases parseWebpaUrl' fullUrl (fullUrl.length + 1) 8 <;> rfl

theorem serverIsHttp_text (scheme : Scheme) (server : CString) :
    serverIsHttp (scheme.text ++ server) = some (scheme.allowInsecure, server) := by
  cases scheme <;> rfl

theorem afterPrefix_eq_some_iff {start fullUrl rest : CString} :
    afterPrefix start fullUrl = some rest ↔ fullUrl = start ++ rest := by
  rw [afterPrefix, Option.ite_none_right_eq_some, List.isPrefixOf_iff_prefix]
  constructor
  · rintro ⟨⟨rest', rfl⟩, heq⟩
    rw [List.drop_left, Option.some_inj] at heq
    rw [heq]
  · rintro rfl
    exact ⟨List.prefix_append _ _, by rw [List.drop_left]⟩

theorem serverIsHttp_eq_some_text {fullUrl server : CString} {httpMatch : ℤ}
    (h : serverIsHttp fullUrl = some (httpMatch, server)) :
    ∃ scheme : Scheme, fullUrl = scheme.text ++ server := by
  unfold serverIsHttp at h
  split at h
  · rename_i server' hstart
    obtain ⟨_, rfl⟩ := Prod.mk.inj (Option.some.inj h)
    exact ⟨.https, afterPrefix_eq_some_iff.mp hstart⟩
  · obtain ⟨server', hstart, heq⟩ := Option.map_eq_some_iff.mp h
    obtain ⟨_, rfl⟩ := Prod.mk.inj heq
    exact ⟨.http, afterPrefix_eq_some_iff.mp hstart⟩

/-- Up to nine digits there is no overflow. -/
theorem parseDigits_of_digits {digits : CString} {result : ℕ}
    (hdigits : ∀ c ∈ digits, isDigit c = true)
    (hfit : (result + 1) * 10 ^ digits.length ≤ 1000000000) :
    parseDigits result digits = Nat.ofDigitChars 10 digits result := by
  induction digits generalizing result with
  | nil => exact Nat.ofDigitChars_nil.symm
  | cons c digits ih =>
    have hlow : '0'.toNat ≤ c.toNat := (toNat_of_isDigit (hdigits c List.mem_cons_self)).1
    have hdigit := digit_le_nine (hdigits c List.mem_cons_self)
    have hstep : result * 10 + c.toNat - '0'.toNat = 10 * result + (c.toNat - '0'.toNat) := by
      rw [Nat.add_sub_assoc hlow, Nat.mul_comm]
    have hbound : (10 * result + (c.toNat - '0'.toNat) + 1) * 10 ^ digits.length ≤ 1000000000 := by
      calc (10 * result + (c.toNat - '0'.toNat) + 1) * 10 ^ digits.length
          ≤ ((result + 1) * 10) * 10 ^ digits.length := Nat.mul_le_mul_right _ (by omega)
        _ = (result + 1) * 10 ^ (digits.length + 1) := by rw [Nat.pow_succ', Nat.mul_assoc]
        _ ≤ 1000000000 := hfit
    have hsmall : 10 * result + (c.toNat - '0'.toNat) < 4294967296 := by
      have hpow : 1 ≤ 10 ^ digits.length := Nat.one_le_pow _ _ (by decide)
      have hle := Nat.le_trans (Nat.le_mul_of_pos_right _ hpow) hbound
      omega
    rw [parseDigits, if_pos (hdigits c List.mem_cons_self), hstep, Nat.mod_eq_of_lt hsmall,
      Nat.ofDigitChars_cons]
    exact ih (fun d hd ↦ hdigits d (List.mem_cons_of_mem _ hd)) hbound

theorem parseDigits_of_not_digits {digits : CString} {result : ℕ}
    (hdigits : ¬∀ c ∈ digits, isDigit c = true) : parseDigits result digits = unsignedMinusOne := by
  induction digits generalizing result with
  | nil => exact absurd (List.forall_mem_nil _) hdigits
  | cons c digits ih =>
    rw [parseDigits]
    split
    · rename_i hc
      exact ih fun hrest ↦ hdigits (List.forall_mem_cons.mpr ⟨hc, hrest⟩)
    · rfl

theorem ofDigitChars_lt {digits : CString} (hdigits : ∀ c ∈ digits, isDigit c = true) :
    Nat.ofDigitChars 10 digits 0 < 10 ^ digits.length := by
  induction digits with
  | nil => exact Nat.one_pos
  | cons c digits ih =>
    have hdigit := digit_le_nine (hdigits c List.mem_cons_self)
    have hrest := ih fun d hd ↦ hdigits d (List.mem_cons_of_mem _ hd)
    rw [Nat.ofDigitChars_cons, Nat.ofDigitChars_eq_ofDigitChars_zero, Nat.mul_zero, Nat.zero_add,
      List.length_cons, Nat.pow_succ]
    calc 10 ^ digits.length * (c.toNat - '0'.toNat) + Nat.ofDigitChars 10 digits 0
        < 10 ^ digits.length * (c.toNat - '0'.toNat) + 10 ^ digits.length :=
          Nat.add_lt_add_left hrest _
      _ ≤ 10 ^ digits.length * 10 := Nat.mul_le_mul_left _ (Nat.succ_le_succ hdigit)

theorem parseNumArg_of_digits {digits : CString} (hne : digits ≠ [])
    (hdigits : ∀ c ∈ digits, isDigit c = true) (hfit : digits.length ≤ 7) :
    parseNumArg digits = Nat.ofDigitChars 10 digits 0 := by
  have hpow : 10 ^ digits.length ≤ 10 ^ 7 := Nat.pow_le_pow_right (by decide) hfit
  rw [parseNumArg, if_neg hne]
  exact parseDigits_of_digits hdigits (by omega)

/-- A text that fits the port buffer is accepted if it is a port. -/
theorem checkPort_eq_some_iff {httpMatch : ℤ} {addr digits : CString} {url : WebpaUrl}
    (hfit : digits.length ≤ 7) : checkPort (httpMatch, addr, digits) = some url ↔
      ∃ value, IsPort digits value ∧ url = ⟨httpMatch, addr, value⟩ := by
  by_cases hnum : digits ≠ [] ∧ ∀ c ∈ digits, isDigit c = true
  · obtain ⟨hne, hdigits⟩ := hnum
    have hlt : Nat.ofDigitChars 10 digits 0 < 10 ^ 7 :=
      Nat.lt_of_lt_of_le (ofDigitChars_lt hdigits) (Nat.pow_le_pow_right (by decide) hfit)
    have hmax : Nat.ofDigitChars 10 digits 0 ≠ unsignedMinusOne := by
      rw [unsignedMinusOne]
      omega
    rw [checkPort, parseNumArg_of_digits hne hdigits hfit, if_neg hmax,
      Option.ite_none_left_eq_some]
    constructor
    · rintro ⟨hrange, heq⟩
      exact ⟨_, ⟨hne, hdigits, rfl, by omega⟩, (Option.some.inj heq).symm⟩
    · rintro ⟨value, ⟨_, _, hvalue, hrange⟩, rfl⟩
      exact ⟨by omega, by rw [hvalue]⟩
  · have hbad : parseNumArg digits = unsignedMinusOne := by
      by_cases hne : digits = []
      · rw [parseNumArg, if_pos hne]
      · rw [parseNumArg, if_neg hne]
        exact parseDigits_of_not_digits fun hdigits ↦ hnum ⟨hne, hdigits⟩
    rw [checkPort, if_pos hbad]
    constructor
    · intro hnone
      cases hnone
    · rintro ⟨value, hport, _⟩
      exact absurd ⟨hport.nonempty, hport.numeric⟩ hnum

theorem parseWebpaUrl_text (scheme : Scheme) (server : CString) :
    parseWebpaUrl true (scheme.text ++ server) =
      (if '[' ∈ server then bracketedAddr scheme.allowInsecure 8 ((trimSlash server).drop 1)
        else plainAddr scheme.allowInsecure 8 (trimSlash server)).bind checkPort := by
  have hlen : server.length ≤ (scheme.text ++ server).length + 1 - 1 := by
    rw [Nat.add_sub_cancel, List.length_append]
    exact Nat.le_add_left _ _
  rw [parseWebpaUrl_eq, parseWebpaUrl'_of_scheme (serverIsHttp_text scheme server),
    List.take_of_length_le hlen]
  simp only [mem_trimSlash (by decide : '[' ≠ '/')]

theorem trimSlash_append_cons {c : Char} (hc : c ≠ '/') (a rest : CString) :
    trimSlash (a ++ c :: rest) = a ++ c :: trimSlash rest := by
  obtain rfl | ⟨front, d, heq⟩ := rest.eq_nil_or_concat
  · have hlast : (a ++ [c]).getLast? ≠ some '/' := by
      rw [List.getLast?_concat]
      exact mt Option.some.inj hc
    rw [trimSlash, if_neg hlast]
    rfl
  · obtain rfl := heq.trans List.concat_eq_append
    have hassoc : a ++ c :: (front ++ [d]) = (a ++ c :: front) ++ [d] := by
      rw [List.append_assoc, List.cons_append]
    rw [trimSlash, trimSlash, hassoc, List.getLast?_concat, List.getLast?_concat,
      List.dropLast_concat, List.dropLast_concat]
    split
    · rfl
    · exact hassoc.symm

theorem cutAt_slash_trimSlash (rest : CString) :
    (cutAt '/' (trimSlash rest)).1 = (cutAt '/' rest).1 := by
  obtain heq | ⟨front, rfl, heq⟩ := trimSlash_cases rest
  · rw [heq]
  · rw [heq]
    obtain ⟨hslash, _⟩ | ⟨a, rest, ha, rfl, _⟩ := cutAt_cases '/' front
    · rw [cutAt_of_not_mem hslash, cutAt_append hslash]
    · rw [List.append_assoc, List.cons_append, cutAt_append ha, cutAt_append ha]

theorem portText_of_no_colon {scheme : Scheme} {rest : CString} (h : ':' ∉ rest) :
    portText scheme.allowInsecure 8 (cutAt ':' (trimSlash rest)).2 =
      defaultPort scheme.allowInsecure := by
  have htrim : ':' ∉ trimSlash rest := mt (mem_trimSlash (by decide)).mp h
  rw [cutAt_of_not_mem htrim]
  cases scheme <;> rfl

theorem portText_of_colon {httpMatch : ℤ} {front behind : CString} (h : ':' ∉ front) :
    portText httpMatch 8 (cutAt ':' (trimSlash (front ++ ':' :: behind))).2 =
      portSegment behind := by
  rw [trimSlash_append_cons (by decide), cutAt_append h, portText, cutAt_slash_trimSlash]
  rfl

theorem checkPort_default (scheme : Scheme) (addr : CString) :
    checkPort (scheme.allowInsecure, addr, defaultPort scheme.allowInsecure) =
      some ⟨scheme.allowInsecure, addr, scheme.port⟩ := by
  cases scheme <;> rfl

theorem length_portSegment_le (behind : CString) : (portSegment behind).length ≤ 7 :=
  List.length_take_le _ _

section
variable {scheme : Scheme} {c : Char} {addr rest server front behind : CString} {url : WebpaUrl}

theorem parseWebpaUrl_unclosed (hopen : '[' ∈ server) (hclose : ']' ∉ server.drop 1) :
    parseWebpaUrl true (scheme.text ++ server) = none := by
  have htrim : ']' ∉ (trimSlash server).drop 1 := by
    obtain heq | ⟨front, rfl, heq⟩ := trimSlash_cases server
    · rwa [heq]
    · rw [heq]
      exact mt (((List.sublist_append_left front ['/']).drop 1).mem) hclose
  rw [parseWebpaUrl_text, if_pos hopen, bracketedAddr, cutAt_of_not_mem htrim]
  rfl

theorem parseWebpaUrl_bracketed (hopen : '[' ∈ c :: (addr ++ ']' :: rest)) (hclose : ']' ∉ addr) :
    parseWebpaUrl true (scheme.text ++ c :: (addr ++ ']' :: rest)) =
      checkPort (scheme.allowInsecure, addr,
        portText scheme.allowInsecure 8 (cutAt ':' (trimSlash rest)).2) := by
  have htrim : trimSlash (c :: (addr ++ ']' :: rest)) = c :: (addr ++ ']' :: trimSlash rest) :=
    trimSlash_append_cons (by decide) (c :: addr) rest
  rw [parseWebpaUrl_text, if_pos hopen, htrim, List.drop_one, List.tail_cons, bracketedAddr,
    cutAt_append hclose]
  rfl

theorem parseWebpaUrl_closeOnly (hopen : '[' ∉ server) (hclose : ']' ∈ server) :
    parseWebpaUrl true (scheme.text ++ server) = none := by
  have htrim : ']' ∈ trimSlash server := (mem_trimSlash (by decide)).mpr hclose
  rw [parseWebpaUrl_text, if_neg hopen, plainAddr, if_pos htrim]
  rfl

theorem parseWebpaUrl_noPort (hopen : '[' ∉ server) (hclose : ']' ∉ server)
    (hcolon : ':' ∉ server) :
    parseWebpaUrl true (scheme.text ++ server) =
      some ⟨scheme.allowInsecure, (cutAt '/' server).1, scheme.port⟩ := by
  have htrim : ']' ∉ trimSlash server := mt (mem_trimSlash (by decide)).mp hclose
  have hcolon' : ':' ∉ trimSlash server := mt (mem_trimSlash (by decide)).mp hcolon
  rw [parseWebpaUrl_text, if_neg hopen, plainAddr, if_neg htrim, if_neg hcolon',
    portText_of_no_colon hcolon, cutAt_slash_trimSlash, Option.bind_some, checkPort_default]

theorem parseWebpaUrl_port (hopen : '[' ∉ front ++ ':' :: behind)
    (hclose : ']' ∉ front ++ ':' :: behind) (hfront : ':' ∉ front) :
    parseWebpaUrl true (scheme.text ++ (front ++ ':' :: behind)) =
      checkPort (scheme.allowInsecure, front, portSegment behind) := by
  have htrim : ']' ∉ trimSlash (front ++ ':' :: behind) := mt (mem_trimSlash (by decide)).mp hclose
  have hcolon : ':' ∈ trimSlash (front ++ ':' :: behind) :=
    (mem_trimSlash (by decide)).mpr (List.mem_append_right _ List.mem_cons_self)
  rw [parseWebpaUrl_text, if_neg hopen, plainAddr, if_neg htrim, if_pos hcolon,
    portText_of_colon hfront, trimSlash_append_cons (by decide), cutAt_append hfront,
    Option.bind_some]

/-- Behind the colon the url is read as a port, cut to what the buffer holds. -/
theorem checkPort_portSegment_eq_some_iff {httpMatch : ℤ} :
    checkPort (httpMatch, addr, portSegment behind) = some url ↔
      ∃ value, IsPort (portSegment behind) value ∧ url = ⟨httpMatch, addr, value⟩ :=
  checkPort_eq_some_iff (length_portSegment_le behind)

theorem PortFound.of_eq_some {httpMatch : ℤ}
    (h : checkPort (httpMatch, addr, portText httpMatch 8 (cutAt ':' (trimSlash rest)).2) =
      some url) : PortFound rest := by
  obtain ⟨hcolon, _⟩ | ⟨front, behind, hfront, rfl, _⟩ := cutAt_cases ':' rest
  · exact .inl hcolon
  · rw [portText_of_colon hfront, checkPort_portSegment_eq_some_iff] at h
    obtain ⟨value, hport, _⟩ := h
    exact .inr ⟨front, behind, value, hfront, rfl, hport⟩

theorem scheme_of_eq_some {fullUrl : CString} (h : parseWebpaUrl true fullUrl = some url) :
    ∃ (scheme : Scheme) (server : CString), fullUrl = scheme.text ++ server := by
  rw [parseWebpaUrl_eq] at h
  obtain ⟨⟨httpMatch, addr, port⟩, hparse, _⟩ := Option.bind_eq_some_iff.mp h
  obtain ⟨server, hserver⟩ := parseWebpaUrl'eq_some hparse
  obtain ⟨scheme, hscheme⟩ := serverIsHttp_eq_some_text hserver
  exact ⟨scheme, server, hscheme⟩

/-- A server that is accepted passes. -/
theorem passes_of_eq_some (h : parseWebpaUrl true (scheme.text ++ server) = some url) :
    Passes server := by
  by_cases hopen : '[' ∈ server
  · obtain ⟨c, rest, rfl⟩ := List.exists_cons_of_ne_nil (List.ne_nil_of_mem hopen)
    obtain ⟨hclose, _⟩ | ⟨addr, rest, hclose, rfl, _⟩ := cutAt_cases ']' rest
    · rw [parseWebpaUrl_unclosed hopen hclose] at h
      cases h
    · rw [parseWebpaUrl_bracketed hopen hclose] at h
      exact .bracketed c addr rest hopen hclose (.of_eq_some h)
  · by_cases hclose : ']' ∈ server
    · rw [parseWebpaUrl_closeOnly hopen hclose] at h
      cases h
    · refine .plain server hopen hclose ?_
      obtain ⟨hcolon, _⟩ | ⟨front, behind, hfront, rfl, _⟩ := cutAt_cases ':' server
      · exact .inl hcolon
      · rw [parseWebpaUrl_port hopen hclose hfront, checkPort_portSegment_eq_some_iff] at h
        obtain ⟨value, hport, _⟩ := h
        exact .inr ⟨front, behind, value, hfront, rfl, hport⟩

theorem Passes.accepted (h : Passes server) :
    ∃ url, parseWebpaUrl true (scheme.text ++ server) = some url := by
  cases h with
  | bracketed c addr rest hopen hclose hport =>
    rw [parseWebpaUrl_bracketed hopen hclose]
    obtain hcolon | ⟨front, behind, value, hfront, rfl, hport⟩ := hport
    · rw [portText_of_no_colon hcolon]
      exact ⟨_, checkPort_default scheme addr⟩
    · rw [portText_of_colon hfront]
      exact ⟨_, checkPort_portSegment_eq_some_iff.mpr ⟨value, hport, rfl⟩⟩
  | plain _ hopen hclose hport =>
    obtain hcolon | ⟨front, behind, value, hfront, rfl, hport⟩ := hport
    · exact ⟨_, parseWebpaUrl_noPort hopen hclose hcolon⟩
    · rw [parseWebpaUrl_port hopen hclose hfront]
      exact ⟨_, checkPort_portSegment_eq_some_iff.mpr ⟨value, hport, rfl⟩⟩

end

/-- A character that is not in the front stands behind what ends the front. -/
theorem exists_of_split {x rest a k : CString} {c d : Char} (h : x ++ d :: rest = a ++ c :: k)
    (hx : c ∉ x) (hcd : c ≠ d) : ∃ t, a = x ++ d :: t := by
  obtain ⟨t, rfl, ht⟩ | ⟨t, rfl, ht⟩ := List.append_eq_append_iff.mp h
  · cases t with
    | nil => exact absurd (List.cons.inj ht).1.symm hcd
    | cons e t =>
      obtain ⟨rfl, _⟩ := List.cons.inj ht
      exact ⟨t, rfl⟩
  · cases t with
    | nil => exact absurd (List.cons.inj ht).1 hcd
    | cons e t =>
      obtain ⟨rfl, _⟩ := List.cons.inj ht
      exact absurd (List.mem_append_right _ List.mem_cons_self) hx

theorem closed_of_mem {path : CString} {c : Char} (hclosed : Closed '/' path) (hc : c ∈ path) :
    ∃ rest, path = '/' :: rest := by
  obtain rfl | hrest := hclosed
  · exact absurd hc List.not_mem_nil
  · exact hrest

/-- The first seven digits of a longer port are another number. -/
theorem IsPort.take_ne {digits : CString} {value : ℕ} (h : IsPort digits value)
    (hlong : 7 < digits.length) : ¬IsPort (digits.take 7) value := by
  intro hshort
  obtain ⟨c, rest, hdrop⟩ := List.exists_cons_of_ne_nil (List.drop_eq_nil_iff.not.mpr hlong.not_ge)
  have hsplit : Nat.ofDigitChars 10 digits 0 = Nat.ofDigitChars 10 (c :: rest) value := by
    rw [← hshort.decimal, ← Nat.ofDigitChars_append, ← hdrop, List.take_append_drop]
  rw [h.decimal, Nat.ofDigitChars_eq_ofDigitChars_zero, List.length_cons, Nat.pow_succ',
    Nat.mul_assoc] at hsplit
  have hpow : value ≤ 10 ^ rest.length * value :=
    Nat.le_mul_of_pos_left _ (Nat.one_le_pow _ _ (by decide))
  have hpos := h.inRange.1
  omega

theorem portSegment_digits {digits path : CString} (hdigits : ∀ c ∈ digits, isDigit c = true)
    (hpath : Closed '/' path) : portSegment (digits ++ path) = digits.take 7 := by
  have hslash : '/' ∉ digits := fun hmem ↦ by cases hdigits _ hmem
  rw [portSegment, cutAt, takeWhile_closed hslash hpath]

section
variable {Ipv6 : CString → Prop}

theorem not_mem_portText {port : Option Port} {c : Char} (hc : isDigit c = false)
    (hcolon : c ≠ ':') : c ∉ UrlParts.portText port := by
  cases port with
  | none => exact List.not_mem_nil
  | some port =>
    refine List.not_mem_cons_of_ne_of_not_mem hcolon fun hmem ↦ ?_
    exact absurd (port.isPort.numeric c hmem) (Bool.eq_false_iff.mp hc)

section
variable {scheme : Scheme} {text addr path : CString} {port : Port}

theorem bracket_mem_named (port : Option Port) (hplain : ∀ c ∈ "/:[]".toList, c ∉ text)
    {c : Char} (hc : c ∈ "[]".toList) :
    c ∈ text ++ (UrlParts.portText port ++ path) ↔ c ∈ path := by
  have hbracket : ∀ c ∈ "[]".toList, isDigit c = false ∧ c ≠ ':' ∧ c ∈ "/:[]".toList := by
    simp only [String.reduceToList, List.forall_mem_cons]
    exact ⟨by decide, by decide, List.forall_mem_nil _⟩
  obtain ⟨hdigit, hcolon, hdelim⟩ := hbracket c hc
  rw [List.mem_append, List.mem_append, or_iff_right (hplain c hdelim),
    or_iff_right (not_mem_portText hdigit hcolon)]

theorem parseWebpaUrl_named (hplain : ∀ c ∈ "/:[]".toList, c ∉ text) (hclosed : Closed '/' path)
    (hpath : ∀ c ∈ "[]".toList, c ∉ path) (hcolon : ':' ∉ path) :
    parseWebpaUrl true (scheme.text ++ (text ++ path)) =
      some ⟨scheme.allowInsecure, text, scheme.port⟩ := by
  have hserver : ∀ c ∈ "[]".toList, c ∉ text ++ path := fun c hc ↦
    mt (bracket_mem_named none hplain hc).mp (hpath c hc)
  have hcolon' : ':' ∉ text ++ path :=
    mt List.mem_append.mp (not_or.mpr ⟨hplain ':' (by decide), hcolon⟩)
  rw [parseWebpaUrl_noPort (hserver '[' (by decide)) (hserver ']' (by decide)) hcolon', cutAt,
    takeWhile_closed (hplain '/' (by decide)) hclosed]

theorem parseWebpaUrl_named_port (hplain : ∀ c ∈ "/:[]".toList, c ∉ text)
    (hclosed : Closed '/' path) (hpath : ∀ c ∈ "[]".toList, c ∉ path) :
    parseWebpaUrl true (scheme.text ++ (text ++ (':' :: port.digits ++ path))) =
      checkPort (scheme.allowInsecure, text, port.digits.take 7) := by
  have hserver : ∀ c ∈ "[]".toList, c ∉ text ++ (':' :: port.digits ++ path) := fun c hc ↦
    mt (bracket_mem_named (some port) hplain hc).mp (hpath c hc)
  rw [List.cons_append] at hserver ⊢
  rw [parseWebpaUrl_port (hserver '[' (by decide)) (hserver ']' (by decide))
    (hplain ':' (by decide)), portSegment_digits port.isPort.numeric hclosed]

theorem parseWebpaUrl_ipv6 (scheme : Scheme) (rest : CString) (haddr : ']' ∉ addr) :
    parseWebpaUrl true (scheme.text ++ ('[' :: (addr ++ [']']) ++ rest)) =
      checkPort (scheme.allowInsecure, addr,
        portText scheme.allowInsecure 8 (cutAt ':' (trimSlash rest)).2) := by
  rw [List.cons_append, List.append_assoc, List.singleton_append]
  exact parseWebpaUrl_bracketed List.mem_cons_self haddr

theorem parseWebpaUrl_ipv6_port (haddr : ']' ∉ addr) (hclosed : Closed '/' path) :
    parseWebpaUrl true (scheme.text ++ ('[' :: (addr ++ [']']) ++ (':' :: port.digits ++ path))) =
      checkPort (scheme.allowInsecure, addr, port.digits.take 7) := by
  have htext : portText scheme.allowInsecure 8
      (cutAt ':' (trimSlash ([] ++ ':' :: (port.digits ++ path)))).2 = _ :=
    portText_of_colon List.not_mem_nil
  rw [portSegment_digits port.isPort.numeric hclosed] at htext
  rw [parseWebpaUrl_ipv6 scheme _ haddr]
  exact congrArg (fun digits ↦ checkPort (scheme.allowInsecure, addr, digits)) htext

end

theorem checkPort_take {httpMatch : ℤ} {addr : CString} {port : Port}
    (hfits : port.digits.length ≤ 7) : checkPort (httpMatch, addr, port.digits.take 7) =
      some ⟨httpMatch, addr, port.value⟩ := by
  rw [List.take_of_length_le hfits]
  exact (checkPort_eq_some_iff hfits).mpr ⟨port.value, port.isPort, rfl⟩

/-- A url of the form that is of no such kind is parsed as its parts say. -/
theorem parseWebpaUrl_parts (u : UrlParts Ipv6) (h : ¬Misread Ipv6 true u.text) :
    parseWebpaUrl true u.text = some u.parsed := by
  have hbrackets : u.host.IsName → ∀ c ∈ "[]".toList, c ∉ u.path := fun hname c hc hpath ↦
    h (.bracketInPath u hname c hc hpath)
  have hcolon : u.host.IsName → u.port = none → ':' ∉ u.path := fun hname hport hpath ↦
    h (.colonInPath u hname hport hpath)
  have hfits : ∀ port, u.port = some port → port.digits.length ≤ 7 := fun port hport ↦
    Nat.le_of_not_lt fun hlong ↦ h (.longPort u port hport hlong)
  have hdefault : u.port = none → ∀ front behind, u.path = front ++ ':' :: behind → ':' ∉ front →
      IsPort (portSegment behind) u.scheme.port := fun hport front behind hpath hfront ↦
    Classical.byContradiction fun hother ↦ h (.portInPath u hport front behind hpath hfront hother)
  clear h
  obtain ⟨scheme, host, port, path, hclosed⟩ := u
  cases host with
  | name text hne hplain =>
    cases port with
    | none => exact parseWebpaUrl_named hplain hclosed (hbrackets trivial) (hcolon trivial rfl)
    | some port =>
      exact (parseWebpaUrl_named_port hplain hclosed (hbrackets trivial)).trans
        (checkPort_take (hfits port rfl))
  | ipv6 addr hvalid haddr =>
    cases port with
    | none =>
      refine (parseWebpaUrl_ipv6 scheme path haddr).trans ?_
      obtain ⟨hnone, _⟩ | ⟨front, behind, hfront, rfl, _⟩ := cutAt_cases ':' path
      · rw [portText_of_no_colon hnone]
        exact checkPort_default scheme addr
      · rw [portText_of_colon hfront]
        exact checkPort_portSegment_eq_some_iff.mpr
          ⟨scheme.port, hdefault rfl front behind rfl hfront, rfl⟩
    | some port =>
      exact (parseWebpaUrl_ipv6_port haddr hclosed).trans (checkPort_take (hfits port rfl))

theorem checkPort_address {httpMatch : ℤ} {addr digits : CString} {url : WebpaUrl}
    (h : checkPort (httpMatch, addr, digits) = some url) : url.serverAddr = addr := by
  obtain ⟨_, h⟩ := Option.ite_none_left_eq_some.mp h
  obtain ⟨_, h⟩ := Option.ite_none_left_eq_some.mp h
  exact (Option.some.inj h) ▸ rfl

theorem checkPort_take_ne {httpMatch : ℤ} {addr : CString} {port : Port}
    (hlong : 7 < port.digits.length) :
    checkPort (httpMatch, addr, port.digits.take 7) ≠ some ⟨httpMatch, addr, port.value⟩ := by
  intro h
  obtain ⟨value, hport, heq⟩ := (checkPort_eq_some_iff (List.length_take_le _ _)).mp h
  obtain ⟨_, _, rfl⟩ := WebpaUrl.mk.inj heq
  exact port.isPort.take_ne hlong hport

section
variable {scheme : Scheme} {text path : CString} {url : WebpaUrl}

/-- A bracket in the path is taken for that of an address, or the url is rejected. -/
theorem parseWebpaUrl_bracketInPath (port : Option Port) (hne : text ≠ [])
    (hplain : ∀ c ∈ "/:[]".toList, c ∉ text) (hclosed : Closed '/' path) {c : Char}
    (hc : c ∈ "[]".toList) (hpath : c ∈ path)
    (h : parseWebpaUrl true (scheme.text ++ (text ++ (UrlParts.portText port ++ path))) =
      some url) : url.serverAddr ≠ text := by
  obtain ⟨rest, rfl⟩ := closed_of_mem hclosed hpath
  by_cases hopen : '[' ∈ text ++ (UrlParts.portText port ++ '/' :: rest)
  · obtain ⟨d, text', rfl⟩ := List.exists_cons_of_ne_nil hne
    obtain ⟨hclose, _⟩ | ⟨addr, k, hclose, heq, _⟩ :=
      cutAt_cases ']' (text' ++ (UrlParts.portText port ++ '/' :: rest))
    · rw [parseWebpaUrl_unclosed hopen hclose] at h
      cases h
    · have hfront : ']' ∉ text' ++ UrlParts.portText port :=
        mt List.mem_append.mp (not_or.mpr ⟨fun hmem ↦ hplain ']' (by decide)
          (List.mem_cons_of_mem _ hmem), not_mem_portText (by decide) (by decide)⟩)
      obtain ⟨t, rfl⟩ := exists_of_split ((List.append_assoc _ _ _).trans heq) hfront (by decide)
      rw [List.cons_append, heq] at hopen h
      rw [parseWebpaUrl_bracketed hopen hclose] at h
      rw [checkPort_address h]
      intro htext
      exact hplain '/' (by decide) (htext ▸ List.mem_append_right _ List.mem_cons_self)
  · have hclose : ']' ∈ text ++ (UrlParts.portText port ++ '/' :: rest) := by
      refine (bracket_mem_named port hplain (by decide)).mpr ?_
      obtain rfl | hc := List.mem_cons.mp hc
      · exact absurd ((bracket_mem_named port hplain (by decide)).mpr hpath) hopen
      · rwa [List.mem_singleton.mp hc] at hpath
    rw [parseWebpaUrl_closeOnly hopen hclose] at h
    cases h

/-- A colon in the path is taken for that of a port. -/
theorem parseWebpaUrl_colonInPath (hne : text ≠ []) (hplain : ∀ c ∈ "/:[]".toList, c ∉ text)
    (hclosed : Closed '/' path) (hpath : ':' ∈ path)
    (h : parseWebpaUrl true (scheme.text ++ (text ++ path)) = some url) :
    url.serverAddr ≠ text := by
  by_cases hbracket : ∃ c ∈ "[]".toList, c ∈ path
  · obtain ⟨c, hc, hmem⟩ := hbracket
    exact parseWebpaUrl_bracketInPath none hne hplain hclosed hc hmem h
  · have hserver : ∀ c ∈ "[]".toList, c ∉ text ++ path := fun c hc hmem ↦
      hbracket ⟨c, hc, (bracket_mem_named none hplain hc).mp hmem⟩
    obtain ⟨rest, rfl⟩ := closed_of_mem hclosed hpath
    obtain ⟨hnone, _⟩ | ⟨front, behind, hfront, heq, _⟩ := cutAt_cases ':' (text ++ '/' :: rest)
    · exact absurd (List.mem_append_right _ hpath) hnone
    · obtain ⟨t, rfl⟩ := exists_of_split heq (hplain ':' (by decide)) (by decide)
      rw [heq] at h hserver
      rw [parseWebpaUrl_port (hserver '[' (by decide)) (hserver ']' (by decide)) hfront] at h
      rw [checkPort_address h]
      intro htext
      exact hplain '/' (by decide) (htext ▸ List.mem_append_right _ List.mem_cons_self)

end

theorem parseWebpaUrl_longPort (u : UrlParts Ipv6) {port : Port} (hport : u.port = some port)
    (hlong : 7 < port.digits.length) : parseWebpaUrl true u.text ≠ some u.parsed := by
  obtain ⟨scheme, host, _, path, hclosed⟩ := u
  obtain rfl := hport
  intro h
  cases host with
  | name text hne hplain =>
    by_cases hbracket : ∃ c ∈ "[]".toList, c ∈ path
    · obtain ⟨c, hc, hmem⟩ := hbracket
      exact parseWebpaUrl_bracketInPath _ hne hplain hclosed hc hmem h rfl
    · have hpath : ∀ c ∈ "[]".toList, c ∉ path := fun c hc hmem ↦ hbracket ⟨c, hc, hmem⟩
      exact checkPort_take_ne hlong
        ((parseWebpaUrl_named_port hplain hclosed hpath).symm.trans h)
  | ipv6 addr hvalid haddr =>
    exact checkPort_take_ne hlong ((parseWebpaUrl_ipv6_port haddr hclosed).symm.trans h)

theorem parseWebpaUrl_portInPath (u : UrlParts Ipv6) (hport : u.port = none)
    {front behind : CString} (hpath : u.path = front ++ ':' :: behind) (hfront : ':' ∉ front)
    (hother : ¬IsPort (portSegment behind) u.scheme.port) :
    parseWebpaUrl true u.text ≠ some u.parsed := by
  obtain ⟨scheme, host, _, _, hclosed⟩ := u
  obtain rfl := hport
  obtain rfl := hpath
  intro h
  cases host with
  | name text hne hplain =>
    have hcolon : ':' ∈ front ++ ':' :: behind := List.mem_append_right _ List.mem_cons_self
    exact parseWebpaUrl_colonInPath hne hplain hclosed hcolon h rfl
  | ipv6 addr hvalid haddr =>
    have hparse := (parseWebpaUrl_ipv6 scheme (front ++ ':' :: behind) haddr).symm.trans h
    rw [portText_of_colon hfront, checkPort_portSegment_eq_some_iff] at hparse
    obtain ⟨value, hvalue, heq⟩ := hparse
    obtain ⟨_, _, rfl⟩ := WebpaUrl.mk.inj heq
    exact hother hvalue

theorem Misread.notParsedAs {allocated : Bool} {fullUrl : CString}
    (h : Misread Ipv6 allocated fullUrl) : ¬ParsedAs Ipv6 allocated fullUrl := by
  intro hparsed
  have hparts : ∀ u : UrlParts Ipv6, u.text = fullUrl →
      allocated = true ∧ parseWebpaUrl true u.text = some u.parsed := by
    rintro u rfl
    have hsome := (hparsed u.parsed).mpr ⟨u, rfl, rfl⟩
    obtain ⟨rfl, _⟩ := Option.ite_none_right_eq_some.mp hsome
    exact ⟨rfl, hsome⟩
  cases h with
  | unallocated u hnone => exact Bool.false_ne_true (hnone.symm.trans (hparts u rfl).1)
  | bracketInPath u hname c hc hpath =>
    obtain ⟨scheme, host, port, path, hclosed⟩ := u
    cases host with
    | name text hne hplain =>
      exact parseWebpaUrl_bracketInPath _ hne hplain hclosed hc hpath (hparts _ rfl).2 rfl
    | ipv6 => exact hname
  | colonInPath u hname hport hpath =>
    obtain ⟨scheme, host, _, path, hclosed⟩ := u
    obtain rfl := hport
    cases host with
    | name text hne hplain =>
      exact parseWebpaUrl_colonInPath hne hplain hclosed hpath (hparts _ rfl).2 rfl
    | ipv6 => exact hname
  | portInPath u hport front behind hpath hfront hother =>
    exact parseWebpaUrl_portInPath u hport hpath hfront hother (hparts u rfl).2
  | longPort u port hport hlong => exact parseWebpaUrl_longPort u hport hlong (hparts u rfl).2
  | notOfForm scheme server halloc hpasses hform =>
    obtain ⟨url, hurl⟩ := hpasses.accepted
    rw [halloc] at hparsed
    obtain ⟨u, hu, _⟩ := (hparsed url).mp hurl
    exact hform u hu

/-- A url is parsed by its form unless it is of one of the kinds. -/
theorem parsedAs_iff (allocated : Bool) (fullUrl : CString) :
    ParsedAs Ipv6 allocated fullUrl ↔ ¬Misread Ipv6 allocated fullUrl := by
  refine ⟨fun h hmisread ↦ hmisread.notParsedAs h, fun h url ↦ ?_⟩
  cases allocated with
  | false =>
    constructor
    · intro hnone
      cases hnone
    · rintro ⟨u, rfl, _⟩
      exact absurd (.unallocated u rfl) h
  | true =>
    constructor
    · intro hsome
      obtain ⟨scheme, server, rfl⟩ := scheme_of_eq_some hsome
      obtain ⟨u, hu⟩ : ∃ u : UrlParts Ipv6, u.text = scheme.text ++ server := by
        by_contra hform
        exact h (.notOfForm scheme server rfl (passes_of_eq_some hsome) (not_exists.mp hform))
      rw [← hu] at h hsome
      exact ⟨u, hu, Option.some.inj ((parseWebpaUrl_parts u h).symm.trans hsome)⟩
    · rintro ⟨u, rfl, rfl⟩
      exact parseWebpaUrl_parts u h

/-- The path of `http://host/a:b` is taken for a port. -/
theorem parseWebpaUrl_not_parsedAs :
    ¬∀ (Ipv6 : CString → Prop) (fullUrl : CString), ParsedAs Ipv6 true fullUrl := by
  intro h
  have hnone : parseWebpaUrl true "http://host/a:b".toList = none := by decide
  have hplain : ∀ c ∈ "/:[]".toList, c ∉ "host".toList := by
    simp only [String.reduceToList, List.forall_mem_cons]
    exact ⟨by decide, by decide, by decide, by decide, List.forall_mem_nil _⟩
  have hparts : ∃ u : UrlParts fun _ ↦ False, u.text = "http://host/a:b".toList ∧
      u.parsed = ⟨1, "host".toList, 80⟩ :=
    ⟨⟨.http, .name "host".toList (by decide) hplain, none, "/a:b".toList, .inr ⟨_, rfl⟩⟩,
      rfl, rfl⟩
  have hsome := (h (fun _ ↦ False) "http://host/a:b".toList _).mpr hparts
  rw [hnone] at hsome
  cases hsome

end

end Parodus.Config
