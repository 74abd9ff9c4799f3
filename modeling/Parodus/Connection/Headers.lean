import Parodus.Connection.ConveyHeader
import Parodus.Foundation.Lines

namespace Parodus.Connection

open Crud Foundation

/-- What `snprintf` writes to a place of that size. -/
def snprintf (size : ℕ) (text : CString) : CString := text.take (size - 1)

def cfgParam (param : CString) : CString := if param.length ≠ 0 then param else "unknown".toList

def userAgentFormat : CString := "%s (%s; %s/%s;)".toList

/-- The size that is allocated: the format stands for what it adds. -/
def userAgentLen (protocol fwName hwModel hwManufacturer : CString) : ℕ :=
  protocol.length + fwName.length + hwModel.length + hwManufacturer.length +
    userAgentFormat.length + 1

def formatUserAgent (protocol fwName hwModel hwManufacturer : CString) : CString :=
  protocol ++ " (".toList ++ fwName ++ "; ".toList ++ hwModel ++ "/".toList ++ hwManufacturer ++
    ";)".toList

/-- The User-Agent of `init_header_info`. -/
def headerUserAgent (values : ConveyValues) : CString :=
  let protocol := cfgParam values.webpaProtocol.text
  let fwName := cfgParam values.cfg.fwName.text
  let hwModel := cfgParam values.cfg.hwModel.text
  let hwManufacturer := cfgParam values.cfg.hwManufacturer.text
  snprintf (userAgentLen protocol fwName hwModel hwManufacturer)
    (formatUserAgent protocol fwName hwModel hwManufacturer)

/-- The device name of `init_header_info`. -/
def headerDeviceId (values : ConveyValues) : CString :=
  snprintf (values.cfg.hwMac.text.length + 5) ("mac:".toList ++ values.cfg.hwMac.text)

/-- A null pointer is printed too. -/
def printed (s : Option CString) : CString := s.getD "(null)".toList

def buildExtraHeaders (auth deviceId userAgent convey : Option CString) : CString :=
  (if auth.isSome then "\r\nAuthorization: Bearer ".toList else []) ++ auth.getD [] ++
    "\r\nX-WebPA-Device-Name: ".toList ++ printed deviceId ++
    "\r\nX-WebPA-Device-Protocols: wrp-0.11,getset-0.1".toList ++
    "\r\nUser-Agent: ".toList ++ printed userAgent ++
    (if convey.isSome then "\r\nX-WebPA-Convey: ".toList else []) ++ convey.getD []

def headerFields (auth deviceId userAgent convey : Option CString) : List (CString × CString) :=
  (auth.map fun token ↦ ("Authorization".toList, "Bearer ".toList ++ token)).toList ++
    [("X-WebPA-Device-Name".toList, printed deviceId),
      ("X-WebPA-Device-Protocols".toList, "wrp-0.11,getset-0.1".toList),
      ("User-Agent".toList, printed userAgent)] ++
    (convey.map fun text ↦ ("X-WebPA-Convey".toList, text)).toList

/-- A value that cannot end its line. -/
def OneLine (value : Option CString) : Prop := ∀ text, value = some text → '\r' ∉ text

/-- What a server reads from the headers. -/
structure ReadBack (headers : CString) (auth deviceId userAgent convey : Option CString) :
    Prop where
  auth : Lines.field "Authorization".toList headers = auth.map ("Bearer ".toList ++ ·)
  deviceId : Lines.field "X-WebPA-Device-Name".toList headers = some (printed deviceId)
  protocols : Lines.field "X-WebPA-Device-Protocols".toList headers =
    some "wrp-0.11,getset-0.1".toList
  userAgent : Lines.field "User-Agent".toList headers = some (printed userAgent)
  convey : Lines.field "X-WebPA-Convey".toList headers = convey

variable {auth deviceId userAgent convey : Option CString} {values : ConveyValues}

theorem snprintf_of_lt {size : ℕ} {text : CString} (h : text.length < size) :
    snprintf size text = text :=
  List.take_of_length_le (by omega)

/-- The place for the User-Agent is larger than the text. -/
theorem formatUserAgent_lt (protocol fwName hwModel hwManufacturer : CString) :
    (formatUserAgent protocol fwName hwModel hwManufacturer).length <
      userAgentLen protocol fwName hwModel hwManufacturer := by
  unfold formatUserAgent userAgentLen userAgentFormat
  simp only [String.reduceToList, List.length_append, List.length_cons, List.length_nil]
  omega

theorem headerUserAgent_eq (values : ConveyValues) :
    headerUserAgent values = formatUserAgent (cfgParam values.webpaProtocol.text)
      (cfgParam values.cfg.fwName.text) (cfgParam values.cfg.hwModel.text)
      (cfgParam values.cfg.hwManufacturer.text) := by
  unfold headerUserAgent
  exact snprintf_of_lt (formatUserAgent_lt _ _ _ _)

theorem headerDeviceId_eq (values : ConveyValues) :
    headerDeviceId values = "mac:".toList ++ values.cfg.hwMac.text := by
  refine snprintf_of_lt ?_
  simp only [String.reduceToList, List.length_append, List.length_cons, List.length_nil]
  omega

theorem buildExtraHeaders_eq (auth deviceId userAgent convey : Option CString) :
    buildExtraHeaders auth deviceId userAgent convey =
      Lines.block (headerFields auth deviceId userAgent convey) := by
  cases auth
  all_goals
    cases convey
    all_goals
      simp [buildExtraHeaders, headerFields, Lines.block, Lines.crLf, Lines.fieldLine]

theorem printed_oneLine {s : Option CString} (h : OneLine s) : '\r' ∉ printed s := by
  cases s with
  | none =>
    simp only [printed, Option.getD_none, String.reduceToList]
    decide
  | some text => exact h text rfl

theorem headerFields_clean (hauth : OneLine auth) (hdevice : OneLine deviceId)
    (hagent : OneLine userAgent) (hconvey : OneLine convey) :
    ∀ f ∈ headerFields auth deviceId userAgent convey, Lines.Clean f := by
  have hdevice := printed_oneLine hdevice
  have hagent := printed_oneLine hagent
  intro f hf
  simp only [headerFields, List.mem_append, List.mem_cons, Option.mem_toList,
    Option.map_eq_some_iff, List.not_mem_nil, or_false] at hf
  obtain (⟨token, htoken, rfl⟩ | rfl | rfl | rfl) | ⟨text, htext, rfl⟩ := hf
  · have htoken := hauth token htoken
    simp [Lines.Clean, htoken]
  · simp [Lines.Clean, hdevice]
  · simp [Lines.Clean]
  · simp [Lines.Clean, hagent]
  · have htext := hconvey text htext
    simp [Lines.Clean, htext]

theorem oneLine_none : OneLine none := by
  intro _ h
  cases h

theorem oneLine_some {text : CString} (h : '\r' ∉ text) : OneLine (some text) := by
  intro _ heq
  rwa [← Option.some.inj heq]

end Parodus.Connection
