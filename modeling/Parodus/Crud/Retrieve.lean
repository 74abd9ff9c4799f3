import Mathlib.Data.List.Infix
import Parodus.Clients.ClientList
import Parodus.Crud.Handlers

namespace Parodus.Crud

open Foundation Clients

/-- The part of the device configuration that requests can read. -/
structure ParodusCfg where
  hwModel : CharBuf 64
  hwSerialNumber : CharBuf 64
  hwManufacturer : CharBuf 64
  hwMac : CharBuf 64
  hwLastRebootReason : CharBuf 128
  fwName : CharBuf 64
  bootTime : ℕ
  webpaPingTimeout : ℕ
  webpaUrl : CharBuf 124
  webpaBackoffMax : ℕ
  webpaInterfaceUsed : CharBuf 16
  webpaProtocol : CharBuf 32
  webpaUuid : CharBuf 64
  cloudStatus : Option CString
  deriving DecidableEq

/-- A string setting, answered under its key unless `checked` is empty. -/
def stringSetting (keyName checked value : CString) : Option Json :=
  if checked = [] then none else some (.obj [(keyName, .str value)])

def numberSetting (keyName : CString) (value : ℕ) : Option Json :=
  some (.obj [(keyName, .num value)])

def retrieveFromMemory (keyName : CString) (cfg : ParodusCfg) : Option Json :=
  if "hw-model".toList = keyName then
    stringSetting keyName cfg.hwModel.text cfg.hwModel.text
  else if "hw-serial-number".toList = keyName then
    stringSetting keyName cfg.hwSerialNumber.text cfg.hwSerialNumber.text
  else if "hw-manufacturer".toList = keyName then
    stringSetting keyName cfg.hwManufacturer.text cfg.hwManufacturer.text
  else if "hw-mac".toList = keyName then
    stringSetting keyName cfg.hwMac.text cfg.hwMac.text
  else if "hw-last-reboot-reason".toList = keyName then
    stringSetting keyName cfg.hwLastRebootReason.text cfg.hwLastRebootReason.text
  else if "fw-name".toList = keyName then
    stringSetting keyName cfg.fwName.text cfg.fwName.text
  else if "webpa-interface-used".toList = keyName then
    -- the length tested is that of the firmware name
    stringSetting keyName cfg.fwName.text cfg.webpaInterfaceUsed.text
  else if "webpa-url".toList = keyName then
    stringSetting keyName cfg.webpaUrl.text cfg.webpaUrl.text
  else if "webpa-protocol".toList = keyName then
    stringSetting keyName cfg.webpaProtocol.text cfg.webpaProtocol.text
  else if "webpa-uuid".toList = keyName then
    stringSetting keyName cfg.webpaUuid.text cfg.webpaUuid.text
  else if "cloud-status".toList = keyName then
    cfg.cloudStatus.bind fun status ↦ stringSetting keyName status status
  else if "boot-time".toList = keyName then numberSetting keyName cfg.bootTime
  else if "webpa-ping-timeout".toList = keyName then numberSetting keyName cfg.webpaPingTimeout
  else if "webpa-backoff-max".toList = keyName then numberSetting keyName cfg.webpaBackoffMax
  else none

def getClientStatus (service : Option CString) (clients : ClientList) : Option Json :=
  service.map fun service ↦
    let regstatus := if checkClientStatus service clients ≠ 0 then "online" else "offline"
    .obj [("service-status".toList, .str regstatus.toList)]

def respond (lib : Lib) (response : Json) : Outcome :=
  { Outcome.answer 0 200 with payload := some (lib.print response) }

def respondInMemory (lib : Lib) (response : Option Json) : Outcome :=
  match response with
  | some response => respond lib response
  | none => failure 400

/-- The loop over all tags for the request of the whole object. -/
def readTags (paramArray : Json) : Members :=
  (children paramArray).flatMap fun tag ↦
    keyed tag.1 (some (.obj (readFields (children tag.2))))

/-- `retrieveObject` from the lookup of the tags on. -/
def retrieveTag (lib : Lib) (json : Json) (obj : List (Option CString)) (name : CString) :
    Option Outcome :=
  match getObjectItem (some json) tags with
  | none => some (failure 400)
  | some paramArray =>
    if (children paramArray.value).length = 0 then some (failure 400)
    else if paramArray.string = name then
      some (respond lib (.obj (readTags paramArray.value)))
    else
      match obj[3]? with
      | none => none
      | some category =>
        if category = some "tag".toList then
          match findKey name (children paramArray.value) with
          | none => none
          | some none => some (failure 400)
          | some (some subitem) => some (respond lib (.obj (readFields (children subitem))))
        else some (failure 400)

/-- The key of a setting in memory: a fourth element without "tags" in it, or
one with "service-status" that names a service. -/
def inMemoryKey (obj : List (Option CString)) (objlevel : ℕ) : Option CString :=
  obj[3]?.join.filter fun key ↦
    decide (objlevel = 3 ∧ ¬ tags <:+: key ∨ objlevel = 4 ∧ "service-status".toList <:+: key)

def retrieveObject (lib : Lib) (cfg : ParodusCfg) (clients : ClientList) (file : Option CString)
    (reqMsg : CrudMsg) : Option Outcome :=
  withDest lib reqMsg fun obj objlevel ↦
    match inMemoryKey obj objlevel with
    | some key =>
      if "service-status".toList <:+: key then
        obj[4]?.map fun service ↦ respondInMemory lib (getClientStatus service clients)
      else some (respondInMemory lib (retrieveFromMemory key cfg))
    | none =>
      match openConfig lib file with
      | none => some (failure 500)
      | some json =>
        match obj[objlevel]?.join with
        | none => none
        | some name => retrieveTag lib json obj name

end Parodus.Crud
