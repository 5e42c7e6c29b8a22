/-
The records that requests and responses travel in, and the frame that the client
puts a request payload into.  Strings whose bytes matter are byte lists.
-/
import Tarsx.Foundation.Word

namespace Tarsx

open Foundation

/-- `EM_CLOSE_T`. -/
inductive CloseType where
  | clientClose
  | serverClose
  | serverTimeoutClose
deriving DecidableEq, Repr

/-- `tagRecvData`.  An adapter is named by a number; `none` is a null pointer. -/
structure TagRecvData where
  uid : Nat
  buffer : List UInt8
  ip : String
  port : Nat
  recvTimestamp : Int
  overload : Bool
  closed : Bool
  fd : Int
  adapter : Option Nat
  closeType : CloseType
deriving DecidableEq, Repr

/-- The `cmd` of a `tagSendData`: `'s'` or `'c'`. -/
inductive SendCmd where
  | send
  | close
deriving DecidableEq, Repr

/-- `tagSendData`. -/
structure TagSendData where
  cmd : SendCmd
  uid : Nat
  buffer : List UInt8 := []
  ip : String := ""
  port : Nat := 0
deriving DecidableEq, Repr

namespace ReqMessage

inductive CallType where
  | syncCall
  | asyncCall
  | oneWay
  | threadExit
deriving DecidableEq, Repr

inductive ReqStatus where
  | req
  | rsp
  | time
  | busy
  | exc
deriving DecidableEq, Repr

end ReqMessage

/-- The fields of `ReqMessage` that the send and receive paths use. -/
structure ReqMessage where
  /-- Where the object is; a `ReqMessage*` is this number. -/
  address : Nat := 0
  status : ReqMessage.ReqStatus := .req
  type : ReqMessage.CallType := .syncCall
  request : List UInt8 := []
  response : List UInt8 := []
  reqData : List UInt8 := []
  monitorFin : Bool := false
  beginTime : Int := 0
  requestId : Int := 1
  /-- The `ObjectProxy` the message goes to, by its number. -/
  objectProxy : Option Nat := none
deriving DecidableEq, Inhabited, Repr

/-- The byte `':'`. -/
def colon : UInt8 := 58

/-- The request frame: the payload's length in network order, a separator, the
payload. -/
def encodeRequest (payload : List UInt8) : List UInt8 :=
  encodeBE32 payload.length ++ colon :: payload

@[simp] theorem length_encodeRequest (payload : List UInt8) :
    (encodeRequest payload).length = payload.length + 5 := by
  simp [encodeRequest]
  omega

end Tarsx
