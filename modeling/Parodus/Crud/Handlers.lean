import Parodus.Crud.Request

namespace Parodus.Crud

open Foundation

def tags : CString := "tags".toList

/-- The checks that create and update make on a payload before they look at the
config file; a payload that fails one of them is answered with 400. -/
def checkPayload (lib : Lib) (payload : Option CString) :
    Option (List (Option CString × Json)) :=
  match payload with
  | none => none
  | some text =>
    match lib.parse text with
    | none => none
    | some jsonPayload =>
      let fields := children jsonPayload
      if fields.length ≠ 0 ∧ checkExpires fields = true ∧ checkStrings fields = true then
        some fields
      else none

def finish (status : ℤ) (payload : Option CString) (write : ℤ × Option CString) : Outcome :=
  if write.1 = 1 then
    { Outcome.answer 0 status with payload := payload, written := write.2 }
  else { failure 500 with payload := payload, written := write.2 }

/-- `createObject` from its payload checks on. -/
def createTag (lib : Lib) (opens : Bool) (json : Option Json) (name : CString)
    (payload : Option CString) : Option Outcome :=
  match checkPayload lib payload with
  | none => some (failure 400)
  | some fields =>
    match getObjectItem json tags with
    | some tagObj =>
      match getObjectItem (some tagObj.value) name with
      | some _ =>
        match findKey name (children tagObj.value) with
        | none => none
        | some (some _) => some (failure 409)
        -- another case of the name: nothing is written and `create_status` is still 0
        | some none => some (failure 500)
      | none =>
        match copyFields fields with
        | none => some (failure 400)
        | some testObj1 =>
          let resPayload := lib.print (.obj [(name, .obj (readFields fields))])
          some (finish 201 (some resPayload) (writeIntoCrudJson lib opens tags
            (addItemToObject tagObj.value name (.obj testObj1)) tagObj.next))
    | none =>
      match copyFields fields with
      | none => some (failure 400)
      | some testObj1 =>
        let tagObj := addItemToObject (.obj []) name (.obj testObj1)
        some (finish 201 (some (lib.print tagObj)) (writeIntoCrudJson lib opens tags tagObj []))

def createObject (lib : Lib) (opens : Bool) (file : Option CString) (reqMsg : CrudMsg) :
    Option Outcome :=
  match loadConfig lib file with
  | none => some (failure 500)
  | some json => withDest lib reqMsg fun obj objlevel ↦
      match tagName obj objlevel with
      | some name => createTag lib opens json name reqMsg.payload
      | none => some (failure 400)

/-- `updateObject` from its payload checks on. -/
def updateTag (lib : Lib) (opens : Bool) (json : Option Json) (name : CString)
    (payload : Option CString) : Option Outcome :=
  match checkPayload lib payload with
  | none => some (failure 400)
  | some fields =>
    match getObjectItem json tags with
    | some tagObj =>
      match getObjectItem (some tagObj.value) name with
      | some _ =>
        match findKey name (children tagObj.value) with
        | none => none
        | some (some _) =>
          match copyFields fields with
          | none => some (failure 400)
          | some testObj2 =>
            some (finish 200 none (writeIntoCrudJson lib opens tags
              (addItemToObject (deleteItem name tagObj.value) name (.obj testObj2)) tagObj.next))
        | some none => some (failure 500)
      | none =>
        match copyFields fields with
        | none => some (failure 400)
        | some testObj1 =>
          some (finish 201 none (writeIntoCrudJson lib opens tags
            (addItemToObject tagObj.value name (.obj testObj1)) tagObj.next))
    | none =>
      match copyFields fields with
      | none => some (failure 400)
      | some testObj1 =>
        some (finish 201 none (writeIntoCrudJson lib opens tags
          (addItemToObject (.obj []) name (.obj testObj1)) []))

def validateDisconnectString (reason : CString) : Bool :=
  decide (reason ≠ []) && reason.all fun c ↦ c.isAlpha || c.isDigit

/-- The request to disconnect from the cloud. The reason is kept even when a
disconnect is already under way and the request is refused. -/
def cloudDisconnect (lib : Lib) (closeRetry : Bool) (payload : Option CString) : Outcome :=
  match payload.bind lib.parse with
  | none => failure 400
  | some jsonPayload =>
    match getObjectItem (some jsonPayload) "disconnection-reason".toList with
    | none => failure 400
    | some item =>
      match item.value with
      | .str reason =>
        if validateDisconnectString reason then
          if closeRetry then { failure 500 with cloudDisconnect := some reason }
          else { Outcome.answer 0 200 with
            cloudDisconnect := some reason, reconnectReason := some reason }
        else failure 400
      | _ => failure 400

def updateObject (lib : Lib) (opens closeRetry : Bool) (file : Option CString)
    (reqMsg : CrudMsg) : Option Outcome :=
  match loadConfig lib file with
  | none => some (failure 500)
  | some json => withDest lib reqMsg fun obj objlevel ↦
      match tagName obj objlevel with
      | some name => updateTag lib opens json name reqMsg.payload
      | none =>
        if objlevel = 3 ∧ obj[3]? = some (some "cloud-disconnect".toList) then
          some (cloudDisconnect lib closeRetry reqMsg.payload)
        else some (failure 400)

/-- `deleteObject` from the lookup on. The answer does not depend on whether
the file could be written. -/
def deleteTag (lib : Lib) (opens : Bool) (json : Json) (name : CString) : Option Outcome :=
  match getObjectItem (some json) tags with
  | none => some (failure 400)
  | some paramArray =>
    if (children paramArray.value).length = 0 then some (failure 400)
    else if paramArray.string = name then some (failure 400)
    else
      match findKey name (children paramArray.value) with
      | none => none
      | some none => some (failure 400)
      | some (some _) =>
        let json := Json.obj (paramArray.prev ++
          (paramArray.string, deleteItem name paramArray.value) :: paramArray.next)
        some { Outcome.answer 0 200 with written := (writeToJSON opens (some (lib.print json))).2 }

def deleteObject (lib : Lib) (opens : Bool) (file : Option CString) (reqMsg : CrudMsg) :
    Option Outcome :=
  match openConfig lib file with
  | none => some (failure 500)
  | some json => withDest lib reqMsg fun obj objlevel ↦
      match tagName obj objlevel with
      | some name => deleteTag lib opens json name
      | none => some (failure 400)

end Parodus.Crud
