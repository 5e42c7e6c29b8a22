/-
The handlers of a server with one net thread: a request is taken from the queue of its
adapter, gets a coroutine, and what its coroutine sends goes back through the command
queue of the net thread.
-/
import Tarsx.NetThread

namespace Tarsx

open Foundation

/-- `BindAdapter::waitForRecvQueue(0)`: the front of the adapter's queue is moved out. -/
def NetThread.waitForRecvQueue (n : NetThread) (adapter : Nat) :
    Option TagRecvData × NetThread :=
  match n.receiveBuffers adapter with
  | [] => (none, n)
  | recv :: rest =>
      (some recv, { n with receiveBuffers := Function.update n.receiveBuffers adapter rest })

/-- A server: its net thread, and the requests whose coroutines were created by any of the
handlers and have not run.  For the record, `handled` lists the calls of `handle`. -/
structure Server where
  net : NetThread
  coroutines : List TagRecvData := []
  handled : List TagRecvData := []

namespace Server

/-- One turn of the inner loop of `handleRequest`, by any handler of the group: a message
about a closed connection is dropped, and a request for which `createCoroutine` finds no
coroutine is never handled. -/
def handleRequest (s : Server) (adapter : Nat) (created : Bool) : Server :=
  match s.net.waitForRecvQueue adapter with
  | (none, net) => { s with net := net }
  | (some recv, net) =>
      let recv := { recv with adapter := some adapter }
      if recv.closed then { s with net := net }
      else if created then { s with net := net, coroutines := s.coroutines ++ [recv] }
      else { s with net := net }

/-- `sendToEpollServer`.  `EpollServer::send` picks the net thread by the descriptor, and
there is only one. -/
def sendToEpollServer (s : Server) (uid : Nat) (msg : List UInt8) (ip : String)
    (port : Nat) : Server :=
  { s with net := s.net.recvNeedToSendFromServer uid msg ip port }

/-- `handle`, in the coroutine of a request; `buffer` is what the dispatch function of its
servant leaves, `none` if that does not return. -/
def handle (s : Server) (recv : TagRecvData) (buffer : Option (List UInt8)) : Server :=
  let s := { s with handled := s.handled ++ [recv] }
  match buffer with
  | none => s
  | some response => s.sendToEpollServer recv.uid response recv.ip recv.port

/-- The scheduler runs a coroutine, which it does once. -/
def runCoroutine (s : Server) (i : Nat) (buffer : Option (List UInt8)) : Server :=
  match s.coroutines[i]? with
  | none => s
  | some recv => handle { s with coroutines := s.coroutines.eraseIdx i } recv buffer

/-- What happens to a server: the event loop of the net thread accepts, handles an event or
the queued commands; any thread closes a uid; a handler takes a message or runs a
coroutine. -/
inductive Action where
  | accept (listenfd : Nat) (result : AcceptResult)
  | net (ev : NetEvent)
  | pipe (results : List WriteResult)
  | close (uid : Nat)
  | take (adapter : Nat) (created : Bool)
  | handle (i : Nat) (buffer : Option (List UInt8))

def step (maxIOVcount : Nat) (s : Server) : Action → Except Fault Server
  | .accept listenfd result => do
      let net ← NetThread.netStep maxIOVcount s.net (.accept listenfd result)
      .ok { s with net := net }
  | .net ev => do
      let net ← s.net.processNet maxIOVcount ev
      .ok { s with net := net }
  | .pipe results => do
      let net ← s.net.processPipe maxIOVcount results
      .ok { s with net := net }
  | .close uid => .ok { s with net := s.net.closeUid uid }
  | .take adapter created => .ok (s.handleRequest adapter created)
  | .handle i buffer => .ok (s.runCoroutine i buffer)

end Server

end Tarsx
