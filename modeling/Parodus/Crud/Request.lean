import Parodus.Crud.CJson
import Parodus.Wrp

namespace Parodus.Crud

open Foundation

/-- What `parse_dest_elements_to_string` does to the array `obj` and returns. -/
inductive Dest
  | undefined
  | unsupported
  | elements (obj : List (Option CString)) (objlevel : ℕ)
  deriving DecidableEq

/-- The elements before the first that is null, at most up to the application. -/
def destElements (lib : Lib) (dest : CString) : List CString :=
  (((List.range 4).map fun i ↦ lib.msgElement i dest).takeWhile Option.isSome).reduceOption

/-- The last element is broken once more at its slash. `obj` lists the entries
that were written; the entry after the last element was set to null. -/
def parseDestElementsToString (lib : Lib) (dest : CString) : Dest :=
  let elements := destElements lib dest
  match elements.getLast? with
  | none => .undefined
  | some start =>
    let front := elements.dropLast.map some
    match start.splitOn '/' with
    | [_] => .elements (front ++ some start :: if elements.length < 4 then [none] else [])
        (elements.length - 1)
    | [tagElem, testElem] =>
      .elements (front ++ [if tagElem = [] then none else some tagElem, some testElem])
        elements.length
    | _ => .unsupported

/-- The test for `parodus/tag/${name}`, and the name. -/
def tagName (obj : List (Option CString)) (objlevel : ℕ) : Option CString :=
  if objlevel = 4 ∧ obj[2]? = some (some "parodus".toList) ∧ obj[3]? = some (some "tag".toList)
  then obj[4]?.join else none

/-- What a handler answers and leaves behind; `written` is the new content of
the config file where the handler rewrote it. -/
structure Outcome where
  ret : ℤ
  status : ℤ
  payload : Option CString
  written : Option CString
  cloudDisconnect : Option CString
  reconnectReason : Option CString
  deriving DecidableEq

def Outcome.answer (ret status : ℤ) : Outcome := ⟨ret, status, none, none, none, none⟩

def failure (status : ℤ) : Outcome := .answer (-1) status

def withDest (lib : Lib) (reqMsg : CrudMsg)
    (body : List (Option CString) → ℕ → Option Outcome) : Option Outcome :=
  match reqMsg.dest with
  | none => some (failure 400)
  | some dest =>
    match parseDestElementsToString lib dest with
    | .undefined => none
    | .unsupported => some (failure 400)
    | .elements obj objlevel => body obj objlevel

def Outcome.file (out : Outcome) (file : Option CString) : Option CString := out.written <|> file

/-- The file is opened with "w+", which empties it, before the data is looked at. -/
def writeToJSON (opens : Bool) (data : Option CString) : ℤ × Option CString :=
  if opens then
    match data with
    | some data => (1, some data)
    | none => (0, some [])
  else (0, none)

def readFromJSON (file : Option CString) : ℤ × Option CString :=
  match file with
  | some data => (1, some data)
  | none => (0, none)

def cJSONParse (lib : Lib) (data : Option CString) : Option Json := data.bind lib.parse

/-- The opening of `createObject` and `updateObject`: the outer `none` is the
exit for a config file that cannot be parsed. -/
def loadConfig (lib : Lib) (file : Option CString) : Option (Option Json) :=
  let data := readFromJSON file
  if data.1 = 0 then some (cJSONParse lib data.2)
  else
    match data.2 with
    | some (c :: cs) => (lib.parse (c :: cs)).map some
    | _ => some (cJSONParse lib data.2)

/-- The opening of `deleteObject` and `retrieveObject`, which need a config: every
failure is answered with 500. -/
def openConfig (lib : Lib) (file : Option CString) : Option Json :=
  let data := readFromJSON file
  if data.1 = 0 then none
  else
    match data.2 with
    | some (c :: cs) => lib.parse (c :: cs)
    | _ => none

/-- The printed object holds the item under the new name, and what the item
brings along. -/
def writeIntoCrudJson (lib : Lib) (opens : Bool) (object : CString) (objValue : Json)
    (next : Members) : ℤ × Option CString :=
  let resObj := Json.obj ((object, objValue) :: if lib.keepsNext then next else [])
  writeToJSON opens (some (lib.print resObj))

end Parodus.Crud
