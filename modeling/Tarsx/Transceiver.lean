/-
The client's side of a connection: `Transceiver`, with what it keeps to send,
what it has received, and the events that epoll watches its socket for.
-/
import Tarsx.Buffer
import Tarsx.Connection

namespace Tarsx

open Foundation

/-- The epoll events the client code names. -/
inductive EpollEvent where
  | epollin
  | epollout
  | epollerr
deriving DecidableEq, Repr

/-- The fields of `Transceiver`; `interest` holds the events its descriptor is
registered for. -/
structure Transceiver where
  connected : Bool := false
  fd : Int := -1
  ip : String
  port : Nat
  sendBuffer : Buffer := {}
  receiveBuffer : Buffer := {}
  interest : List EpollEvent := []
deriving DecidableEq, Repr

namespace Transceiver

/-- A transceiver that has sent and received nothing, in any state of its
socket. -/
def fresh (connected : Bool) (fd : Int) (ip : String) (port : Nat)
    (interest : List EpollEvent) : Transceiver :=
  { connected := connected, fd := fd, ip := ip, port := port, interest := interest }

/-! ### `ReturnStatus` -/

def retError : Int := -1

def retFull : Int := 1

def valid (t : Transceiver) : Bool := t.fd ≠ -1

def close (t : Transceiver) : Transceiver :=
  if t.valid then
    { t with
      fd := -1, interest := []
      sendBuffer := t.sendBuffer.clear, receiveBuffer := t.receiveBuffer.clear }
  else t

/-- `connect`; `fd` is the descriptor the kernel gives, `none` when it refuses
one or the connection fails at once. -/
def connect (t : Transceiver) (fd : Option Nat) : Except Fault Transceiver :=
  match fd with
  | none => .error .aborted
  | some fd => .ok { t with connected := true, fd := fd, interest := [.epollin] }

/-! ### Sending -/

/-- `send`: the returned `int` and the bytes the socket took.  `len` is a
`uint32_t`. -/
def send (data : List UInt8) (result : WriteResult) : Except Fault (Int × List UInt8) :=
  let offered := data.take (data.length % 2 ^ 32)
  match result with
  | .accepted n => .ok (toInt32 (min n offered.length), offered.take n)
  | .again => .ok (0, [])
  | .interrupted => .error .aborted
  | .failed => .error .aborted

/-- `sendRequest`: the returned value and the bytes the socket took.  What the
socket does not take is kept, and while anything is kept a request is refused. -/
def sendRequest (t : Transceiver) (data : List UInt8) (result : WriteResult) :
    Except Fault (Transceiver × (Int × List UInt8)) :=
  if t.sendBuffer.empty = false then .ok (t, (retError, []))
  else do
    let (ret, taken) ← send data result
    if ret < 0 then .ok (t, (retError, taken))
    else if ret < toInt32 data.length then do
      let (_, rest) ← t.sendBuffer.pushData (some (data.drop ret.toNat))
      .ok ({ t with sendBuffer := rest }, (retFull, taken))
    else .ok (t, (ret, taken))

/-- `doRequest` as far as its call of `doInvoke`: the value it returns, or `none`
when it goes on to that call, and the bytes the socket took.  A write that takes
nothing goes on as well. -/
def flush (t : Transceiver) (result : WriteResult) :
    Except Fault (Transceiver × (Option Int × List UInt8)) :=
  if t.sendBuffer.empty then .ok (t, (none, []))
  else do
    let data ← t.sendBuffer.peekData
    let (ret, taken) ← send data result
    if ret < 0 then .ok (t, (some ret, taken))
    else if 0 < ret then do
      let rest ← t.sendBuffer.consume ret.toNat
      if rest.empty then do
        let small ← rest.shrink
        .ok ({ t with sendBuffer := small }, (none, taken))
      else .ok ({ t with sendBuffer := rest }, (some 0, taken))
    else .ok (t, (none, taken))

/-! ### Receiving -/

/-- `readv`: the returned `int` and the bytes the kernel wrote.  The end of the
stream and an error close the connection. -/
def readv (t : Transceiver) : ReadResult → Transceiver × (Int × List UInt8)
  | .data bytes =>
      if bytes = [] then (t.close, (0, [])) else (t, (toInt32 bytes.length, bytes))
  | .again => (t, (-1, []))
  | .closed => (t.close, (0, []))
  | .failed => (t.close, (0, []))

/-- The room `doResponse` asks for before each `readv`. -/
def readRoom : Nat := 8 * 1024

/-- The loop of `doResponse`: `readv` fills the writable part of the buffer and
then a block on the stack.  A script that is used up stands for `EAGAIN`. -/
def responseLoop : List ReadResult → Transceiver → Except Fault Transceiver
  | [], t => do
      let roomy ← t.receiveBuffer.assureSpace readRoom
      .ok { t with receiveBuffer := roomy }
  | result :: rest, t => do
      let roomy ← t.receiveBuffer.assureSpace readRoom
      let (read, (ret, bytes)) := readv { t with receiveBuffer := roomy } result
      if 0 < ret then do
        let written ← read.receiveBuffer.writeAt (bytes.take roomy.writableSize)
        if toWord ret ≤ roomy.writableSize then
          responseLoop rest { read with receiveBuffer := written.produce (toWord ret) }
        else do
          let (_, full) ← (written.produce roomy.writableSize).pushData
            (some (bytes.drop roomy.writableSize))
          responseLoop rest { read with receiveBuffer := full }
      else .ok read

/-- The end of `doResponse`: a block of more than 8 MiB is given up. -/
def shrinkLarge (receiveBuffer : Buffer) : Except Fault Buffer :=
  if 8 * 1024 * 1024 < receiveBuffer.capacity then receiveBuffer.shrink
  else .ok receiveBuffer

/-- `doResponse`: the returned value and `done`.  All that is in the buffer
becomes one string. -/
def doResponse (t : Transceiver) (reads : List ReadResult) :
    Except Fault (Transceiver × (Int × List (List UInt8))) := do
  let t ← responseLoop reads t
  if t.receiveBuffer.empty then .ok (t, (0, []))
  else do
    let len := t.receiveBuffer.readableSize
    let data ← load t.receiveBuffer.buffer t.receiveBuffer.readPos len
    if 0 < len then do
      let rest ← t.receiveBuffer.consume len
      let last ← shrinkLarge rest
      .ok ({ t with receiveBuffer := last }, (1, [data]))
    else .ok (t, (1, [data]))

end Transceiver

namespace CommunicatorEpoll

/-- `handleInputImp`: the strings it passes to `finishInvoke`, in order. -/
def handleInputImp (t : Transceiver) (reads : List ReadResult) :
    Except Fault (Transceiver × List (List UInt8)) := do
  let (t, (ret, done)) ← t.doResponse reads
  if 0 < ret then .ok (t, done) else .ok (t, [])

end CommunicatorEpoll

end Tarsx
