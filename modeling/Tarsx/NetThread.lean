/-
`NetThread`: the table of connections by uid, the list of free uids, the queue of
commands that handlers leave, and the functions that the event loop calls.
-/
import Mathlib.Data.List.Range
import Mathlib.Logic.Function.Basic
import Tarsx.Connection

namespace Tarsx

open Foundation

/-- What `accept` on a listening socket gives; `close` is what the memory of the new
connection holds at `close_`. -/
inductive AcceptResult where
  | accepted (fd : Nat) (ip : String) (port : Nat) (close : Bool)
  /-- `EAGAIN`. -/
  | again
  /-- -1 with another `errno`. -/
  | failed
deriving DecidableEq, Repr

/-- An event that epoll reports for a uid, with what the socket calls give while it
is handled.  A `read` gives no more than it is asked for. -/
structure NetEvent where
  uid : Nat
  epollerr : Bool := false
  epollhup : Bool := false
  epollin : Bool := false
  epollout : Bool := false
  reads : List ReadResult := []
  writes : List WriteResult := []
  fits : ∀ bytes, .data bytes ∈ reads → bytes.length ≤ Connection.readSize := by simp

/-- A response passed to `conSend`, and the connection it was called on. -/
structure Written where
  connection : Nat
  msg : TagSendData
deriving DecidableEq, Repr

/-- The fields of `NetThread`.  `connectionUids_` is a map whose entries may be null
pointers.  `freeSize_` has no initialiser.  epoll reports only listening
descriptors that `bind` put into `listeners_`, so that is a function.  For the record,
`accepted` counts the connections made and `written` lists the responses written. -/
structure NetThread where
  connectionUids : Nat → Option (Option Connection) := fun _ => none
  free : List Nat := []
  freeSize : Nat
  sendBuffer : List TagSendData := []
  listeners : Nat → Nat
  receiveBuffers : Nat → List TagRecvData := fun _ => []
  terminate : Bool := false
  accepted : Nat := 0
  written : List Written := []

namespace NetThread

/-- The number of uids. -/
def total : Nat := 2000

/-- `createEpoll`: the uids from 1 on become free. -/
def createEpoll (n : NetThread) : NetThread :=
  { n with
    free := n.free ++ List.range' 1 total
    freeSize := (n.freeSize + total) % 2 ^ 64 }

/-- `connectionUids_[uid]`: an absent uid gets an entry with a null pointer. -/
def lookup (n : NetThread) (uid : Nat) : Option Connection × NetThread :=
  match n.connectionUids uid with
  | some connection => (connection, n)
  | none =>
      (none, { n with connectionUids := Function.update n.connectionUids uid (some none) })

/-- The connection of a table entry was changed through its pointer. -/
def store (n : NetThread) (uid : Nat) (c : Connection) : NetThread :=
  { n with connectionUids := Function.update n.connectionUids uid (some (some c)) }

/-- `insertRecvDeque`. -/
def insertRecvDeque (n : NetThread) (adapter : Nat) (deque : List TagRecvData)
    (pushback : Bool) : NetThread :=
  let queue := n.receiveBuffers adapter
  { n with
    receiveBuffers := Function.update n.receiveBuffers adapter
      (if pushback then queue ++ deque else deque.reverse ++ queue) }

/-- `addTConnection`: the connection gets the first free uid. -/
def addTConnection (n : NetThread) (c : Connection) : Except Fault NetThread :=
  match n.free with
  | [] => .error .emptyList
  | uid :: rest =>
      .ok (store { n with
        free := rest, freeSize := wordSub n.freeSize 1, accepted := n.accepted + 1 } uid
        (c.init uid))

/-- `accept`: the result tells the event loop to go on accepting. -/
def accept (n : NetThread) (listenfd : Nat) (result : AcceptResult) :
    Except Fault (NetThread × Bool) :=
  match result with
  | .accepted fd ip port close => do
      let n ← n.addTConnection
        (Connection.accepted (n.listeners listenfd) listenfd fd ip port close n.accepted)
      .ok (n, true)
  | .again => .ok (n, false)
  | .failed => .ok (n, true)

/-- `delConnection` of the connection behind a pointer: its adapter is told, the
socket closed and the entry erased. -/
def delConnection (n : NetThread) (connection : Option Connection)
    (closeType : CloseType) : Except Fault NetThread :=
  match connection with
  | none => .error .nullPointer
  | some c =>
      if c.listenfd ≠ -1 then
        let closedMsg : TagRecvData :=
          { uid := c.uid, buffer := [], ip := c.ip, port := c.port, recvTimestamp := 0,
            overload := false, closed := true, fd := c.fd, adapter := none,
            closeType := closeType }
        let told := n.insertRecvDeque c.bindAdapter [closedMsg] true
        .ok { told with connectionUids := Function.update told.connectionUids c.uid none }
      else .ok n

/-- The `EPOLLIN` part of `processNet`; the result holds the changed connection. -/
def netInput (n : NetThread) (ev : NetEvent) (connection : Option Connection) :
    Except Fault (NetThread × Option Connection) :=
  if ev.epollin then
    match connection with
    | none => .error .nullPointer
    | some c => do
        let (c, (ret, deque)) ← c.recv ev.reads
        let n := n.store ev.uid c
        let n ← if ret < 0 then n.delConnection (some c) .clientClose else .ok n
        let n := if deque = [] then n else n.insertRecvDeque c.bindAdapter deque true
        .ok (n, some (if ret < 0 then c.closeSocket else c))
  else .ok (n, connection)

/-- The `EPOLLOUT` part of `processNet`.  After a deletion the pointer still holds the
connection, but the table no longer does. -/
def netOutput (maxIOVcount : Nat) (n : NetThread) (ev : NetEvent)
    (connection : Option Connection) : Except Fault NetThread :=
  if ev.epollout then
    match connection with
    | none => .error .nullPointer
    | some c => do
        let (c, _) ← c.sendPending maxIOVcount ev.writes
        if n.connectionUids ev.uid = none then .ok n else .ok (n.store ev.uid c)
  else .ok n

/-- `processNet`. -/
def processNet (maxIOVcount : Nat) (n : NetThread) (ev : NetEvent) :
    Except Fault NetThread :=
  let (connection, n) := n.lookup ev.uid
  if ev.epollerr ∨ ev.epollhup then n.delConnection connection .serverClose
  else do
    let (n, connection) ← n.netInput ev connection
    netOutput maxIOVcount n ev connection

/-- The case `'s'` of `processPipe`. -/
def sendCommand (maxIOVcount : Nat) (n : NetThread) (msg : TagSendData)
    (result : WriteResult) : Except Fault NetThread := do
  let (connection, n) := n.lookup msg.uid
  match connection with
  | none => .error .nullPointer
  | some c => do
      let (written, _) ← c.send maxIOVcount msg.buffer false [result]
      .ok (store { n with written := n.written ++ [⟨c.serial, msg⟩] } msg.uid written)

/-- The case `'c'` of `processPipe`, which tests the pointer. -/
def closeCommand (n : NetThread) (msg : TagSendData) : Except Fault NetThread :=
  let (connection, n) := n.lookup msg.uid
  match connection with
  | none => .ok n
  | some c =>
      let (c, drained) := c.setClose
      let n := n.store msg.uid c
      if drained then n.delConnection (some c) .serverClose else .ok n

/-- The loop of `processPipe` over the commands taken, with the outcome of each
write. -/
def commandLoop (maxIOVcount : Nat) :
    NetThread → List TagSendData → List WriteResult → Except Fault NetThread
  | n, [], _ => .ok n
  | n, msg :: rest, results =>
      match msg.cmd with
      | .send => do
          let n ← n.sendCommand maxIOVcount msg (results.headD .again)
          commandLoop maxIOVcount n rest results.tail
      | .close => do
          let n ← n.closeCommand msg
          commandLoop maxIOVcount n rest results

/-- `processPipe`. -/
def processPipe (maxIOVcount : Nat) (n : NetThread) (results : List WriteResult) :
    Except Fault NetThread :=
  commandLoop maxIOVcount { n with sendBuffer := [] } n.sendBuffer results

/-- `recvNeedToSendFromServer`. -/
def recvNeedToSendFromServer (n : NetThread) (uid : Nat) (msg : List UInt8)
    (ip : String) (port : Nat) : NetThread :=
  if n.terminate then n
  else
    { n with
      sendBuffer := n.sendBuffer ++
        [{ cmd := .send, uid := uid, buffer := msg, ip := ip, port := port }] }

/-- `close(uid)`. -/
def closeUid (n : NetThread) (uid : Nat) : NetThread :=
  { n with sendBuffer := n.sendBuffer ++ [{ cmd := .close, uid := uid }] }

/-! ### Runs -/

/-- What happens to a net thread: its event loop accepts, handles an event or the
queued commands; another thread queues a response or a close. -/
inductive NetAction where
  | accept (listenfd : Nat) (result : AcceptResult)
  | net (ev : NetEvent)
  | pipe (results : List WriteResult)
  | respond (uid : Nat) (msg : List UInt8) (ip : String) (port : Nat)
  | close (uid : Nat)

def netStep (maxIOVcount : Nat) (n : NetThread) : NetAction → Except Fault NetThread
  | .accept listenfd result => do
      let (n, _) ← n.accept listenfd result
      .ok n
  | .net ev => n.processNet maxIOVcount ev
  | .pipe results => n.processPipe maxIOVcount results
  | .respond uid msg ip port => .ok (n.recvNeedToSendFromServer uid msg ip port)
  | .close uid => .ok (n.closeUid uid)

/-- A net thread after `createEpoll`; `freeSize` is what its memory held. -/
def created (freeSize : Nat) (listeners : Nat → Nat) : NetThread :=
  createEpoll { freeSize := freeSize, listeners := listeners }

/-- The connection of a uid. -/
def connectionOf (n : NetThread) (uid : Nat) : Option Connection :=
  (n.connectionUids uid).join

/-- The uid has a connection. -/
def Live (n : NetThread) (uid : Nat) : Prop := (n.connectionOf uid).isSome = true

instance (n : NetThread) (uid : Nat) : Decidable (n.Live uid) :=
  inferInstanceAs (Decidable (_ = true))

end NetThread

end Tarsx
