import Parodus.Crud.CJson
import Parodus.Foundation.Base64
import Parodus.Token.Jwt

namespace Parodus.Connection

open Crud Foundation

/-- What a call of `getWebpaConveyHeader` reads. -/
structure ConveyValues where
  cfg : Config.ParodusCfg
  webpaProtocol : CharBuf 32
  reconnectReason : Option CString

/-- `nopoll_base64_encode` into 1024 bytes; `none` stands for a result that does not fit, with
which the bytes are left as they are. -/
structure Base64Lib where
  encode : CString → Option (CharBuf 1024)

/-- The text comes in lines. -/
structure Base64Lib.Lawful (base64 : Base64Lib) : Prop where
  encode : ∀ text encoded, base64.encode text = some encoded →
    encoded.text.filter (· ≠ '\n') = Base64.encode text

def addString (response : Json) (name : String) (value : CString) : Json :=
  if value ≠ [] then addItemToObject response name.toList (.str value) else response

def addNumber (response : Json) (name : String) (value : ℕ) : Json :=
  addItemToObject response name.toList (.num value)

/-- The object that the header carries. -/
def conveyResponse (values : ConveyValues) : Json :=
  let cfg := values.cfg
  let response := addString (.obj []) "hw-model" cfg.hwModel.text
  let response := addString response "hw-serial-number" cfg.hwSerialNumber.text
  let response := addString response "hw-manufacturer" cfg.hwManufacturer.text
  let response := addString response "fw-name" cfg.fwName.text
  let response := addNumber response "boot-time" cfg.bootTime
  let response := addString response "webpa-protocol" values.webpaProtocol.text
  let response := addString response "webpa-interface-used" cfg.webpaInterfaceUsed.text
  let response := addString response "hw-last-reboot-reason" cfg.hwLastRebootReason.text
  let response :=
    match values.reconnectReason with
    | some reason =>
      addItemToObject response "webpa-last-reconnect-reason".toList (.str reason)
    | none => response
  if cfg.bootRetryWait > 0 then addNumber response "boot-time-retry-wait" cfg.bootRetryWait
  else response

/-- The loop that moves the characters over the ends of the lines. -/
def removeNewlines (encodedData : CharBuf 1024) : CharBuf 1024 where
  text := encodedData.text.filter (· ≠ '\n')
  fits := Nat.lt_of_le_of_lt (List.length_filter_le _ _) encodedData.fits

/-- The result, and the static buffer that is left to the next call. -/
def getWebpaConveyHeader (lib : Lib) (base64 : Base64Lib) (values : ConveyValues)
    (encodedData : CharBuf 1024) : Option CString × CharBuf 1024 :=
  let buffer := lib.print (conveyResponse values)
  let encodedData := ((base64.encode buffer).map removeNewlines).getD encodedData
  (if 0 < encodedData.text.length then some encodedData.text else none, encodedData)

def getHeaders (lib : Lib) (base64 : Base64Lib) : List ConveyValues → CharBuf 1024 →
    List (Option CString)
  | [], _ => []
  | values :: rest, encodedData =>
    let called := getWebpaConveyHeader lib base64 values encodedData
    called.1 :: getHeaders lib base64 rest called.2

def CanEncode (lib : Lib) (base64 : Base64Lib) (values : ConveyValues) : Prop :=
  (base64.encode (lib.print (conveyResponse values))).isSome = true

/-- A result is of the values of the very call, or null if they cannot be encoded. -/
structure HeaderRight (lib : Lib) (base64 : Base64Lib) (values : ConveyValues)
    (header : Option CString) : Prop where
  encoded : ∀ text, header = some text → text = Base64.encode (lib.print (conveyResponse values))
  null : ¬ CanEncode lib base64 values → header = none

variable {lib : Lib} {base64 : Base64Lib} {values : ConveyValues} {encodedData : CharBuf 1024}
  {calls : List ConveyValues}

theorem print_ne_nil (hlib : lib.Lawful) (t : Json) : lib.print t ≠ [] := by
  intro hnil
  have hparse := hlib.parse_print t
  rw [hnil, hlib.parse_nil] at hparse
  cases hparse

/-- A call that fits returns its own header and leaves it in the buffer. -/
theorem getWebpaConveyHeader_canEncode (hlib : lib.Lawful) (hbase64 : base64.Lawful)
    (h : CanEncode lib base64 values) :
    HeaderRight lib base64 values (getWebpaConveyHeader lib base64 values encodedData).1 ∧
      (getWebpaConveyHeader lib base64 values encodedData).2.text ≠ [] := by
  obtain ⟨encoded, hencode⟩ := Option.isSome_iff_exists.mp h
  have htext : (removeNewlines encoded).text =
      Base64.encode (lib.print (conveyResponse values)) := hbase64.encode _ _ hencode
  have hne : (removeNewlines encoded).text ≠ [] := by
    rw [htext]
    exact Base64.encode_ne_nil (print_ne_nil hlib _)
  simp only [getWebpaConveyHeader, hencode, Option.map_some, Option.getD_some]
  rw [if_pos (List.length_pos_of_ne_nil hne)]
  refine ⟨⟨?_, fun hnot ↦ absurd h hnot⟩, hne⟩
  intro text heq
  rw [← Option.some.inj heq, htext]

/-- A call that does not fit leaves the buffer, and returns what is in it. -/
theorem getWebpaConveyHeader_not (h : ¬ CanEncode lib base64 values) :
    getWebpaConveyHeader lib base64 values encodedData =
      (if 0 < encodedData.text.length then some encodedData.text else none, encodedData) := by
  have hencode : base64.encode (lib.print (conveyResponse values)) = none :=
    Option.not_isSome_iff_eq_none.mp h
  simp only [getWebpaConveyHeader, hencode, Option.map_none, Option.getD_none]

theorem headerRight_not_iff (h : ¬ CanEncode lib base64 values) :
    HeaderRight lib base64 values (getWebpaConveyHeader lib base64 values encodedData).1 ↔
      encodedData.text = [] := by
  rw [getWebpaConveyHeader_not h]
  constructor
  · intro hright
    by_contra hne
    have hnull := hright.null h
    dsimp only at hnull
    rw [if_pos (List.length_pos_of_ne_nil hne)] at hnull
    cases hnull
  · intro hnil
    rw [hnil]
    exact ⟨nofun, fun _ ↦ rfl⟩

/-- Behind a header in the buffer each call must fit. -/
theorem getHeaders_right_iff (hlib : lib.Lawful) (hbase64 : base64.Lawful) :
    List.Forall₂ (HeaderRight lib base64) calls (getHeaders lib base64 calls encodedData) ↔
      (encodedData.text ≠ [] → ∀ values ∈ calls, CanEncode lib base64 values) ∧
        calls.Pairwise fun values later ↦
          CanEncode lib base64 values → CanEncode lib base64 later := by
  induction calls generalizing encodedData with
  | nil => simp [getHeaders]
  | cons values rest ih =>
    rw [getHeaders, List.forall₂_cons, ih, List.pairwise_cons, List.forall_mem_cons]
    by_cases hencodes : CanEncode lib base64 values
    · obtain ⟨hright, hne⟩ := @getWebpaConveyHeader_canEncode lib base64 values encodedData hlib
        hbase64 hencodes
      simp only [hright, hne, hencodes, ne_eq, not_false_eq_true, true_and, forall_true_left]
      exact ⟨fun h ↦ ⟨fun _ ↦ h.1, h⟩, fun h ↦ h.2⟩
    · rw [headerRight_not_iff hencodes, getWebpaConveyHeader_not hencodes]
      simp only [hencodes, false_and, false_imp_iff, implies_true, true_and]
      constructor
      · rintro ⟨hnil, _, hrest⟩
        exact ⟨fun hne ↦ hne hnil, hrest⟩
      · rintro ⟨hnil, hrest⟩
        have hnil := not_not.mp hnil
        exact ⟨hnil, fun hne ↦ absurd hnil hne, hrest⟩

/-- The headers are right if no call that does not fit comes behind one that does. -/
theorem headersRight_iff (hlib : lib.Lawful) (hbase64 : base64.Lawful)
    (calls : List ConveyValues) :
    List.Forall₂ (HeaderRight lib base64) calls (getHeaders lib base64 calls .empty) ↔
      calls.Pairwise fun values later ↦
        CanEncode lib base64 values → CanEncode lib base64 later := by
  rw [getHeaders_right_iff hlib hbase64]
  exact and_iff_right fun hne ↦ absurd rfl hne

section Inputs

/-- Lines of 64 characters, of which the last has no end. -/
def opensslBase64 : Base64Lib where
  encode text :=
    if h : (Base64.wrap 64 (Base64.encode text)).length < 1024 then
      some ⟨Base64.wrap 64 (Base64.encode text), h⟩
    else none

theorem opensslBase64_lawful : opensslBase64.Lawful where
  encode text encoded h := by
    unfold opensslBase64 at h
    dsimp only at h
    split at h
    · obtain rfl := Option.some.inj h
      exact Base64.filter_wrap 64 (Base64.newline_not_mem_encode text)
    · cases h

def reconnected (reason : CString) : ConveyValues := ⟨Token.blankCfg, .empty, some reason⟩

theorem conveyResponse_reconnected (reason : CString) : conveyResponse (reconnected reason) =
    .obj [("boot-time".toList, .num 0), ("webpa-last-reconnect-reason".toList, .str reason)] := rfl

def onlineValues : ConveyValues := reconnected "online".toList

theorem onlineValues_canEncode : CanEncode compactLib opensslBase64 onlineValues := by
  rw [CanEncode, onlineValues, conveyResponse_reconnected]
  simp only [String.reduceToList]
  rfl

def longValues : ConveyValues := reconnected (List.replicate 1000 'a')

theorem longValues_not_canEncode : ¬ CanEncode compactLib opensslBase64 longValues := by
  rw [CanEncode, longValues, conveyResponse_reconnected]
  decide +kernel

/-- The long reason is answered with the header from before. -/
theorem longValues_not_headersRight :
    ¬ List.Forall₂ (HeaderRight compactLib opensslBase64) [onlineValues, longValues]
      (getHeaders compactLib opensslBase64 [onlineValues, longValues] .empty) := by
  rw [getHeaders_right_iff compactLib_lawful opensslBase64_lawful]
  rintro ⟨_, hpairwise⟩
  have hlater := (List.pairwise_cons.mp hpairwise).1 longValues List.mem_cons_self
  exact longValues_not_canEncode (hlater onlineValues_canEncode)

theorem headersRight_iff_longFirst :
    List.Forall₂ (HeaderRight compactLib opensslBase64) [longValues, onlineValues]
      (getHeaders compactLib opensslBase64 [longValues, onlineValues] .empty) := by
  refine (headersRight_iff compactLib_lawful opensslBase64_lawful _).mpr ?_
  rw [List.pairwise_pair]
  exact fun _ ↦ onlineValues_canEncode

end Inputs

end Parodus.Connection
