/-
The server's side of one accepted connection: what the socket calls can return,
and the read and write paths of `Connection`.
-/
import Tarsx.Buffer
import Tarsx.Message

namespace Tarsx

open Foundation

/-- What one `read` or `readv` on a non-blocking socket gives. -/
inductive ReadResult where
  | data (bytes : List UInt8)
  /-- `EAGAIN`. -/
  | again
  /-- 0, the end of the stream. -/
  | closed
  /-- -1 with another `errno`. -/
  | failed
deriving DecidableEq, Repr

/-- What one `send` or `writev` gives; the kernel never accepts more bytes than
it is offered. -/
inductive WriteResult where
  | accepted (n : Nat)
  /-- `EAGAIN`. -/
  | again
  /-- `EINTR`. -/
  | interrupted
  /-- -1 with another `errno`. -/
  | failed
deriving DecidableEq, Repr

/-- `Slice`: `data` is the memory behind the pointer. -/
structure Slice where
  data : List UInt8
  dataLen : Nat
deriving DecidableEq, Repr

/-- The fields of `Connection`; `fd` is the one of its socket. -/
structure Connection where
  bindAdapter : Nat
  fd : Int
  uid : Nat := 0
  listenfd : Int
  ip : String
  port : Nat
  /-- `close_` has no initialiser: a new connection may start with either value. -/
  close : Bool
  recvBuffer : Buffer := {}
  sendBuffer : List Slice := []
  /-- Which object it is, for the record: the number of the accept that made it. -/
  serial : Nat := 0
deriving DecidableEq, Repr

namespace Connection

/-- The connection that `NetThread::accept` builds for a listening descriptor,
before `init` gives it a uid. -/
def accepted (bindAdapter listenfd : Nat) (fd : Int) (ip : String) (port : Nat)
    (close : Bool) (serial : Nat := 0) : Connection :=
  { bindAdapter := bindAdapter, fd := fd, listenfd := listenfd, ip := ip,
    port := port, close := close, serial := serial }

/-- `init(uid)`. -/
def init (c : Connection) (uid : Nat) : Connection := { c with uid := uid }

/-- `sizeof(buffer)` in `recv`. -/
def readSize : Nat := 32 * 1024

/-- The reading loop of `recv`: it ends at a short read, at `EAGAIN`, or, with
`true`, at the end of the stream or an error.  A script that is used up stands
for `EAGAIN`. -/
def readLoop : List ReadResult → Buffer → Except Fault (Bool × Buffer)
  | [], buffer => .ok (false, buffer)
  | .again :: _, buffer => .ok (false, buffer)
  | .closed :: _, buffer => .ok (true, buffer)
  | .failed :: _, buffer => .ok (true, buffer)
  | .data bytes :: rest, buffer => do
      let (_, pushed) ← buffer.pushData (some bytes)
      if bytes.length < readSize then .ok (false, pushed) else readLoop rest pushed

/-- `std::string(peek(), len)`, where `len` has become a `size_t`. -/
def peekString (buffer : Buffer) (len : Nat) : Except Fault (List UInt8) :=
  if buffer.readableSize < len then .error .lengthError
  else load buffer.buffer buffer.readPos len

/-- The length field at the front of the buffer, in host order. -/
def frameLen (buffer : Buffer) : Except Fault Int := do
  let be32 ← load buffer.buffer buffer.readPos 4
  .ok (toInt32 (decodeBE be32))

/-- The framing loop of `recv`.  Every turn takes at least the five header bytes
out of the buffer, so `fuel` turns are enough when that many bytes are there. -/
def frameLoop : Nat → Buffer → Except Fault (List (List UInt8) × Buffer)
  | 0, _ => .error .nonterminating
  | fuel + 1, buffer =>
      if kHeaderSize - 1 ≤ buffer.readableSize then do
        let len ← frameLen buffer
        -- `len` is an `int32_t`, `kHeaderSize` a `size_t`: the sum is unsigned.
        if wordAdd (toWord len) kHeaderSize ≤ buffer.readableSize then do
          let body ← buffer.consume kHeaderSize
          let req ← peekString body (toWord len)
          let rest ← body.consume (toWord len)
          let (reqs, last) ← frameLoop fuel rest
          .ok (req :: reqs, last)
        else .ok ([], buffer)
      else .ok ([], buffer)

def recvData (c : Connection) (req : List UInt8) : TagRecvData :=
  { uid := c.uid, buffer := req, ip := c.ip, port := c.port, recvTimestamp := 0,
    overload := false, closed := false, fd := c.fd, adapter := some c.bindAdapter,
    closeType := .clientClose }

/-- `recv`: -1 and no requests when the peer is gone, otherwise the requests and
their number as an `int`. -/
def recv (c : Connection) (reads : List ReadResult) :
    Except Fault (Connection × (Int × List TagRecvData)) := do
  let (gone, buffer) ← readLoop reads c.recvBuffer
  if gone then .ok ({ c with recvBuffer := buffer }, (-1, []))
  else if c.listenfd ≠ -1 then do
    let (reqs, rest) ← frameLoop (buffer.readableSize + 1) buffer
    .ok ({ c with recvBuffer := rest }, (toInt32 reqs.length, reqs.map c.recvData))
  else .ok ({ c with recvBuffer := buffer }, (0, []))

/-! ### Sending -/

/-- `tcpSend`: the returned `int` and the bytes the socket took. -/
def tcpSend (data : List UInt8) (result : WriteResult) : Int × List UInt8 :=
  if data.length = 0 then (0, [])
  else
    match result with
    | .accepted n => (toInt32 (min n data.length), data.take n)
    | .again => (0, [])
    | .interrupted => (0, [])
    | .failed => (-1, [])

/-- `tcpWriteV`. -/
def tcpWriteV (data : List UInt8) (result : WriteResult) : Int × List UInt8 :=
  match result with
  | .accepted n => (toInt32 (min n data.length), data.take n)
  | .again => (0, [])
  | .interrupted => (-1, [])
  | .failed => (-1, [])

/-- The bytes of a slice that are to be sent. -/
def Slice.bytes (s : Slice) : List UInt8 := s.data.take s.dataLen

/-- Where the next batch of `send(const std::vector<Slice>&)` ends when `left` slices are
not yet sent: the smaller of their number and the limit is an `int` before it is a
`size_t`. -/
def batchEnd (maxIOVcount alreadySentVecs left : Nat) : Nat :=
  wordAdd alreadySentVecs (toWord (min (toInt32 left) maxIOVcount))

/-- The number of slices from there back to the first one not yet sent. -/
def batchCount (maxIOVcount alreadySentVecs left : Nat) : Nat :=
  batchEnd maxIOVcount alreadySentVecs left - alreadySentVecs

/-- `send(const std::vector<Slice>&)` from the slices not yet sent: batches of
at most `maxIOVcount` slices until one is not taken whole.  `alreadySentBytes` is a
`size_t` and the returned value an `int`. -/
def sendSlices (maxIOVcount : Nat) :
    Nat → List Slice → Nat → Nat → List WriteResult → Except Fault (Int × List UInt8)
  | 0, _, _, _, _ => .error .nonterminating
  | fuel + 1, slices, alreadySentVecs, alreadySentBytes, results =>
      if slices = [] then .ok (toInt32 alreadySentBytes, [])
      else
        let count := batchCount maxIOVcount alreadySentVecs slices.length
        if count ≤ slices.length then
          let batch := slices.take count
          if batch.all (fun slice => 0 < slice.dataLen) then
            let expectSent := (batch.map Slice.dataLen).sum
            let (bytes, taken) :=
              tcpWriteV (batch.flatMap Slice.bytes) (results.headD .again)
            if bytes = -1 then .ok (-1, taken)
            else if bytes = 0 then .ok (toInt32 alreadySentBytes, taken)
            else if bytes = toInt32 expectSent then do
              let (sent, more) ← sendSlices maxIOVcount fuel (slices.drop count)
                (batchEnd maxIOVcount alreadySentVecs slices.length)
                (wordAdd alreadySentBytes (toWord bytes)) results.tail
              .ok (sent, taken ++ more)
            else if 0 < bytes then
              .ok (toInt32 (wordAdd alreadySentBytes (toWord bytes)), taken)
            else .error .assertion
          else .error .assertion
        else .error .outOfBounds

/-- `adjustSlices`.  The loop variable is a copy of the slice: a slice that is
skipped in part has its bytes moved to the front but keeps its `dataLen`. -/
def adjustSlices : List Slice → Nat → Except Fault (List Slice)
  | [], _ => .ok []
  | slice :: rest, toSkip =>
      if 0 < slice.dataLen then
        if slice.dataLen ≤ toSkip then adjustSlices rest (toSkip - slice.dataLen)
        else if toSkip ≠ 0 then
          let moved := (slice.data.drop toSkip).take (slice.dataLen - toSkip)
          .ok ({ slice with data := moved ++ slice.data.drop moved.length } :: rest)
        else .ok (slice :: rest)
      else .error .assertion

def clearSlices (slices : List Slice) : Except Fault (List Slice) :=
  adjustSlices slices (2 ^ 64 - 1)

/-- The end of `send`: an oversized backlog is dropped, and a connection marked
for closing is reported once nothing is left. -/
def sendEnd (c : Connection) : Except Fault (Connection × Int) :=
  if 8 * 1024 ≤ (c.sendBuffer.map Slice.dataLen).sum then do
    let cleared ← clearSlices c.sendBuffer
    .ok ({ c with sendBuffer := cleared }, -2)
  else if c.close ∧ c.sendBuffer = [] then .ok (c, -2)
  else .ok (c, 0)

/-- `send(buffer, ip, port, byEpollout)`: the connection, the returned status
and the bytes the socket took.  Without `byEpollout` what the socket does not
take is not kept. -/
def send (maxIOVcount : Nat) (c : Connection) (buffer : List UInt8) (byEpollout : Bool)
    (results : List WriteResult) : Except Fault (Connection × (Int × List UInt8)) :=
  if byEpollout then do
    let (bytes, taken) ←
      sendSlices maxIOVcount (c.sendBuffer.length + 1) c.sendBuffer 0 0 results
    if bytes = -1 then .ok (c, (-1, taken))
    else do
      let rest ← adjustSlices c.sendBuffer (toWord bytes)
      let (last, status) ← sendEnd { c with sendBuffer := rest }
      .ok (last, (status, taken))
  else do
    let (bytes, taken) := tcpSend buffer (results.headD .again)
    if bytes = -1 then .ok (c, (-1, taken))
    else do
      let (last, status) ← sendEnd c
      .ok (last, (status, taken))

/-- `send()`, on a writable event. -/
def sendPending (maxIOVcount : Nat) (c : Connection) (results : List WriteResult) :
    Except Fault (Connection × (Int × List UInt8)) :=
  if c.sendBuffer = [] then .ok (c, (0, []))
  else send maxIOVcount c [] true results

/-- `set_close()`: mark the connection and tell whether nothing is left to send. -/
def setClose (c : Connection) : Connection × Bool :=
  ({ c with close := true }, c.sendBuffer.isEmpty)

/-- `close()`; an accepted connection closes its socket. -/
def closeSocket (c : Connection) : Connection :=
  if c.listenfd ≠ -1 then { c with fd := -1 } else c

end Connection

end Tarsx
