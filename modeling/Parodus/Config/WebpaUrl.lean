import Parodus.CString
import Parodus.Foundation.Segments

namespace Parodus.Config

open Foundation.Segments

/-- The text behind a prefix, if the string starts with it. -/
def afterPrefix (start : CString) (s : CString) : Option CString :=
  if start.isPrefixOf s then some (s.drop start.length) else none

/-- Whether the scheme is http, and the text behind it; `none` stands for -1. -/
def serverIsHttp (fullUrl : CString) : Option (ℤ × CString) :=
  match afterPrefix "https://".toList fullUrl with
  | some server => some (0, server)
  | none => (afterPrefix "http://".toList fullUrl).map fun server ↦ (1, server)

/-- `strchr` and what follows: the text before the first such character, and the text behind it. -/
def cutAt (c : Char) (s : CString) : CString × Option CString :=
  (s.takeWhile (· ≠ c),
    match s.dropWhile (· ≠ c) with
    | _ :: rest => some rest
    | [] => none)

def defaultPort (httpMatch : ℤ) : CString := if httpMatch ≠ 0 then "80".toList else "443".toList

/-- The server address and the port text; `none` stands for -1. A bracket
anywhere makes the first character go. -/
def parseWebpaUrl' (fullUrl : CString) (serverAddrBuflen portBuflen : ℕ) :
    Option (ℤ × CString × CString) :=
  match serverIsHttp fullUrl with
  | none => none
  | some (httpMatch, serverPtr) =>
    let serverAddr := serverPtr.take (serverAddrBuflen - 1)
    let serverAddr := if serverAddr.getLast? = some '/' then serverAddr.dropLast else serverAddr
    if '[' ∈ serverAddr then
      let serverAddr := serverAddr.drop 1
      match cutAt ']' serverAddr with
      | (_, none) => none
      | (serverAddr, some closeBracket) =>
        match (cutAt ':' closeBracket).2 with
        | none => some (httpMatch, serverAddr, (defaultPort httpMatch).take (portBuflen - 1))
        | some checkPort =>
          some (httpMatch, serverAddr, (cutAt '/' checkPort).1.take (portBuflen - 1))
    else if ']' ∈ serverAddr then none
    else
      match cutAt ':' serverAddr with
      | (_, none) =>
        some (httpMatch, (cutAt '/' serverAddr).1, (defaultPort httpMatch).take (portBuflen - 1))
      | (serverAddr, some portVal) =>
        some (httpMatch, serverAddr, (cutAt '/' portVal).1.take (portBuflen - 1))

/-- `(unsigned int) -1` -/
def unsignedMinusOne : ℕ := 4294967295

/-- The digits from a running value on, in 32 bits. -/
def parseDigits (result : ℕ) : CString → ℕ
  | [] => result
  | c :: rest =>
    if isDigit c then parseDigits ((result * 10 + c.toNat - '0'.toNat) % 4294967296) rest
    else unsignedMinusOne

def parseNumArg (arg : CString) : ℕ := if arg = [] then unsignedMinusOne else parseDigits 0 arg

/-- A parsed url: what `parse_webpa_url` returns, and what it stores. -/
structure WebpaUrl where
  allowInsecure : ℤ
  serverAddr : CString
  port : ℕ
  deriving DecidableEq

/-- `none` stands for -1 with a null address; `allocated` is whether the address
buffer could be allocated. -/
def parseWebpaUrl (allocated : Bool) (fullUrl : CString) : Option WebpaUrl :=
  if allocated then
    match parseWebpaUrl' fullUrl (fullUrl.length + 1) 8 with
    | none => none
    | some (allowInsecure, serverAddr, portBuf) =>
      let portVal := parseNumArg portBuf
      if portVal = unsignedMinusOne then none
      else if portVal = 0 ∨ portVal > 65535 then none
      else some ⟨allowInsecure, serverAddr, portVal⟩
  else none

/-- The address without a slash on its end. -/
def trimSlash (serverAddr : CString) : CString :=
  if serverAddr.getLast? = some '/' then serverAddr.dropLast else serverAddr

/-- The port text from what follows a colon, if there is one. -/
def portText (httpMatch : ℤ) (portBuflen : ℕ) : Option CString → CString
  | none => (defaultPort httpMatch).take (portBuflen - 1)
  | some checkPort => (cutAt '/' checkPort).1.take (portBuflen - 1)

/-- An address with a bracket in it, without its first character. -/
def bracketedAddr (httpMatch : ℤ) (portBuflen : ℕ) (serverAddr : CString) :
    Option (ℤ × CString × CString) :=
  (cutAt ']' serverAddr).2.map fun closeBracket ↦
    (httpMatch, (cutAt ']' serverAddr).1, portText httpMatch portBuflen (cutAt ':' closeBracket).2)

def plainAddr (httpMatch : ℤ) (portBuflen : ℕ) (serverAddr : CString) :
    Option (ℤ × CString × CString) :=
  if ']' ∈ serverAddr then none
  else
    some (httpMatch,
      if ':' ∈ serverAddr then (cutAt ':' serverAddr).1 else (cutAt '/' serverAddr).1,
      portText httpMatch portBuflen (cutAt ':' serverAddr).2)

theorem cutAt_append {c : Char} {a rest : CString} (ha : c ∉ a) :
    cutAt c (a ++ c :: rest) = (a, some rest) := by
  have htake : (a ++ c :: rest).takeWhile (· ≠ c) = a := takeWhile_closed ha (.inr ⟨rest, rfl⟩)
  have hdrop : (a ++ c :: rest).dropWhile (· ≠ c) = c :: rest :=
    dropWhile_closed ha (.inr ⟨rest, rfl⟩)
  rw [cutAt, htake, hdrop]

theorem cutAt_of_not_mem {c : Char} {a : CString} (ha : c ∉ a) : cutAt c a = (a, none) := by
  have htake : (a ++ []).takeWhile (· ≠ c) = a := takeWhile_closed ha (.inl rfl)
  have hdrop : (a ++ []).dropWhile (· ≠ c) = [] := dropWhile_closed ha (.inl rfl)
  rw [List.append_nil] at htake hdrop
  rw [cutAt, htake, hdrop]

/-- A text is cut at the first such character, or has none. -/
theorem cutAt_cases (c : Char) (s : CString) :
    (c ∉ s ∧ (cutAt c s).2 = none) ∨
      ∃ a rest, c ∉ a ∧ s = a ++ c :: rest ∧ cutAt c s = (a, some rest) := by
  by_cases hc : c ∈ s
  · obtain ⟨a, rest, rfl, ha⟩ := List.eq_append_cons_of_mem hc
    exact .inr ⟨a, rest, ha, rfl, cutAt_append ha⟩
  · exact .inl ⟨hc, by rw [cutAt_of_not_mem hc]⟩

theorem trimSlash_cases (s : CString) :
    trimSlash s = s ∨ ∃ front, s = front ++ ['/'] ∧ trimSlash s = front := by
  unfold trimSlash
  split
  · rename_i hlast
    obtain ⟨front, rfl⟩ := List.getLast?_eq_some_iff.mp hlast
    exact .inr ⟨front, rfl, List.dropLast_concat⟩
  · exact .inl rfl

theorem length_trimSlash_le (s : CString) : (trimSlash s).length ≤ s.length := by
  obtain heq | ⟨front, rfl, heq⟩ := trimSlash_cases s
  · rw [heq]
  · rw [heq, List.length_append]
    exact Nat.le_add_right _ _

theorem mem_trimSlash {c : Char} {s : CString} (hc : c ≠ '/') : c ∈ trimSlash s ↔ c ∈ s := by
  obtain heq | ⟨front, rfl, heq⟩ := trimSlash_cases s
  · rw [heq]
  · rw [heq, List.mem_append, List.mem_singleton]
    exact (or_iff_left hc).symm

theorem parseWebpaUrl'_of_scheme {fullUrl serverPtr : CString} {httpMatch : ℤ} {n m : ℕ}
    (h : serverIsHttp fullUrl = some (httpMatch, serverPtr)) :
    parseWebpaUrl' fullUrl n m =
      if '[' ∈ trimSlash (serverPtr.take (n - 1)) then
        bracketedAddr httpMatch m ((trimSlash (serverPtr.take (n - 1))).drop 1)
      else plainAddr httpMatch m (trimSlash (serverPtr.take (n - 1))) := by
  have htrim : ∀ s : CString, (if s.getLast? = some '/' then s.dropLast else s) = trimSlash s :=
    fun _ ↦ rfl
  simp only [parseWebpaUrl', h, htrim]
  generalize trimSlash (serverPtr.take (n - 1)) = serverAddr
  by_cases hopen : '[' ∈ serverAddr
  · rw [if_pos hopen, if_pos hopen, bracketedAddr]
    obtain ⟨hclose, _⟩ | ⟨a, rest, _, _, hcut⟩ := cutAt_cases ']' (serverAddr.drop 1)
    · rw [cutAt_of_not_mem hclose]
      rfl
    · rw [hcut]
      rw [Option.map_some]
      dsimp only
      cases (cutAt ':' rest).2 <;> rfl
  · rw [if_neg hopen, if_neg hopen, plainAddr]
    split
    · rfl
    · obtain ⟨hcolon, _⟩ | ⟨a, rest, _, heq, hcut⟩ := cutAt_cases ':' serverAddr
      · rw [cutAt_of_not_mem hcolon, if_neg hcolon]
        rfl
      · have hmem : ':' ∈ serverAddr := heq ▸ List.mem_append_right _ List.mem_cons_self
        rw [hcut, if_pos hmem]
        rfl

theorem serverIsHttp_eq_some {fullUrl serverPtr : CString} {httpMatch : ℤ}
    (h : serverIsHttp fullUrl = some (httpMatch, serverPtr)) : httpMatch = 0 ∨ httpMatch = 1 := by
  unfold serverIsHttp at h
  split at h
  · exact .inl (Prod.mk.inj (Option.some.inj h)).1.symm
  · obtain ⟨_, _, heq⟩ := Option.map_eq_some_iff.mp h
    exact .inr (Prod.mk.inj heq).1.symm

theorem serverIsHttp_suffix {fullUrl serverPtr : CString} {httpMatch : ℤ}
    (h : serverIsHttp fullUrl = some (httpMatch, serverPtr)) :
    serverPtr <:+ fullUrl := by
  have hdrop : ∀ {start rest : CString}, afterPrefix start fullUrl = some rest →
      rest <:+ fullUrl := by
    intro start rest hstart
    obtain ⟨_, hrest⟩ := Option.ite_none_right_eq_some.mp hstart
    exact Option.some.inj hrest ▸ List.drop_suffix _ _
  unfold serverIsHttp at h
  split at h
  · rename_i server hstart
    exact (Prod.mk.inj (Option.some.inj h)).2 ▸ hdrop hstart
  · obtain ⟨server, hstart, heq⟩ := Option.map_eq_some_iff.mp h
    exact (Prod.mk.inj heq).2 ▸ hdrop hstart

theorem parseWebpaUrl'eq_some {fullUrl serverAddr portBuf : CString} {n m : ℕ} {httpMatch : ℤ}
    (h : parseWebpaUrl' fullUrl n m = some (httpMatch, serverAddr, portBuf)) :
    ∃ serverPtr, serverIsHttp fullUrl = some (httpMatch, serverPtr) := by
  unfold parseWebpaUrl' at h
  split at h
  · cases h
  · rename_i httpMatch' serverPtr hscheme
    refine ⟨serverPtr, ?_⟩
    obtain rfl : httpMatch' = httpMatch := by
      simp only at h
      repeat' split at h
      all_goals first
        | cases h; done
        | exact (Prod.mk.inj (Option.some.inj h)).1
    exact hscheme

/-- A url that is accepted names a scheme and a port in range. -/
theorem parseWebpaUrl_eq_some {allocated : Bool} {fullUrl : CString} {url : WebpaUrl}
    (h : parseWebpaUrl allocated fullUrl = some url) :
    (url.allowInsecure = 0 ∨ url.allowInsecure = 1) ∧ 1 ≤ url.port ∧ url.port ≤ 65535 := by
  obtain ⟨_, hparse⟩ := Option.ite_none_right_eq_some.mp h
  split at hparse
  · cases hparse
  · rename_i allowInsecure serverAddr portBuf hurl
    obtain ⟨_, hrange⟩ := Option.ite_none_left_eq_some.mp hparse
    obtain ⟨hport, heq⟩ := Option.ite_none_left_eq_some.mp hrange
    obtain rfl := Option.some.inj heq
    obtain ⟨serverPtr, hscheme⟩ := parseWebpaUrl'eq_some hurl
    refine ⟨serverIsHttp_eq_some hscheme, ?_⟩
    dsimp only
    omega

end Parodus.Config
