import Parodus.CString
import Parodus.Foundation.Ledger

namespace Parodus

open Foundation

/-- `partners_t`: one heap string in each of its `count` slots. -/
structure PartnersT where
  count : ℕ
  partnerIds : List (Owned CString)
  counted : partnerIds.length = count
  deriving DecidableEq

/-- The entries that a loop with an `int` counter up to `(int) count` visits. -/
def PartnersT.visited (p : PartnersT) : List (Owned CString) :=
  p.partnerIds.take (toInt p.count).toNat

theorem PartnersT.visited_eq {p : PartnersT} (h : p.count < 2147483648) :
    p.visited = p.partnerIds := by
  rw [visited, toNat_toInt h, ← p.counted, List.take_length]

structure EventMsg where
  source : CString
  dest : CString
  partnerIds : Option PartnersT
  headers : Option (List CString)
  metadata : Option (List (Option CString × Option CString))
  contentType : Option CString
  payload : Option CString
  payloadSize : ℕ
  deriving DecidableEq

structure ReqMsg where
  transactionUuid : Option CString
  source : CString
  dest : CString
  partnerIds : Option PartnersT
  headers : Option (List CString)
  metadata : Option (List (Option CString × Option CString))
  contentType : Option CString
  payload : Option CString
  payloadSize : ℕ
  deriving DecidableEq

structure CrudMsg where
  transactionUuid : Option CString
  source : Option CString
  dest : Option CString
  partnerIds : Option PartnersT
  headers : Option (List CString)
  metadata : Option (List (Option CString × Option CString))
  includeSpans : Bool
  contentType : Option CString
  status : ℤ
  rdr : ℤ
  path : Option CString
  payload : Option CString
  payloadSize : ℕ
  deriving DecidableEq

structure RegMsg where
  serviceName : CString
  url : CString
  deriving DecidableEq

inductive CrudType
  | create
  | retrieve
  | update
  | delete
  deriving DecidableEq

/-- A decoded message: the type tag selects the member of the union. -/
inductive WrpMsg
  | auth (status : ℤ)
  | req (req : ReqMsg)
  | event (event : EventMsg)
  | crud (type : CrudType) (crud : CrudMsg)
  | svcRegistration (reg : RegMsg)
  | svcAlive
  | unknown
  deriving DecidableEq

/-- `msg_type`. -/
inductive MsgType
  | auth
  | req
  | event
  | crud (type : CrudType)
  | svcRegistration
  | svcAlive
  | unknown
  deriving DecidableEq

def WrpMsg.msgType : WrpMsg → MsgType
  | .auth _ => .auth
  | .req _ => .req
  | .event _ => .event
  | .crud type _ => .crud type
  | .svcRegistration _ => .svcRegistration
  | .svcAlive => .svcAlive
  | .unknown => .unknown

/-- What is read as `u.crud`; the members of the union share their place, and `layout` gives
what stands there in a message of another type. -/
def WrpMsg.asCrud (layout : WrpMsg → CrudMsg) : WrpMsg → CrudMsg
  | .crud _ member => member
  | msg => layout msg

end Parodus
