/-
From a request to its response: the servants behind `ServantHandle::handle`, and which
methods of which servant are answered.
-/
import Tarsx.Foundation.Run
import Tarsx.RegisterFields
import Tarsx.ServantHandle

namespace Tarsx

open Foundation

/-! ### `NodeImp` -/

namespace Node

/-- `__tars__Node_all`. -/
def names : List (List UInt8) := [textBytes "startServer", textBytes "stopServer"]

end Node

/-- `NodeImp`; the call of `startServer` is commented out. -/
def NodeImp (request : List UInt8) : Int × List UInt8 :=
  let method := (parseRequest request).2.2.2
  match selectMethod Node.names method with
  | none => (-3, [])
  | some _ => (0, [])

/-! ### `AdminServant` -/

namespace Admin

/-- `__tars__AdminF_all`. -/
def names : List (List UInt8) := [textBytes "notify", textBytes "shutdown"]

/-- `notify`. -/
def notify (_command : List UInt8) : List UInt8 := textBytes "notify"

end Admin

/-- `AdminServant`, with `terminate_` of the epoll server, which `shutdown2` sets.  The text
that `notify` returns is printed and not sent. -/
def AdminServant (terminate : Bool) (request : List UInt8) : (Int × List UInt8) × Bool :=
  let method := (parseRequest request).2.2.2
  match selectMethod Admin.names method with
  | none => ((-3, []), terminate)
  | some 0 =>
      let _ret := Admin.notify request
      ((0, []), terminate)
  | some 1 => ((0, []), true)
  | some _ => ((0, []), terminate)

/-- The text is an id, `':'` and more. -/
def BeginsWith (id text : List UInt8) : Prop := ∃ rest, text = id ++ colon :: rest

/-! ### `handle` -/

/-- The servants that a dispatch function is registered for. -/
inductive Servant where
  | hello
  | server
  | node
  | register
  | admin
deriving DecidableEq, Repr

/-- A server process: its net thread and handlers, the registry, and `terminate_` of its
epoll server. -/
structure Process where
  server : Server
  registry : Registry := {}
  terminate : Bool := false

namespace Process

/-- The dispatch function of a servant: what it leaves in `buffer`.  The returned value is
not used. -/
def dispatch (p : Process) (servant : Servant) (request : List UInt8) :
    Except Fault (List UInt8 × Process) :=
  match servant with
  | .hello => .ok ((HelloImp request).2, p)
  | .server => .ok ((ServerImp request).2, p)
  | .node => .ok ((NodeImp request).2, p)
  | .register => do
      let ((_, buffer), registry) ← RegisterImp p.registry request
      .ok (buffer, { p with registry := registry })
  | .admin =>
      let ((_, buffer), terminate) := AdminServant p.terminate request
      .ok (buffer, { p with terminate := terminate })

/-- `handle` of a request whose adapter has the dispatch function of the servant. -/
def handle (p : Process) (servant : Servant) (recv : TagRecvData) : Except Fault Process := do
  let (buffer, p) ← p.dispatch servant recv.buffer
  .ok { p with server := p.server.handle recv (some buffer) }

/-- `handle` returns and has queued one response to the connection of the request, which
begins with the id and `':'`. -/
def Answered (p : Process) (servant : Servant) (recv : TagRecvData) (id : List UInt8) : Prop :=
  ∃ next msg, p.handle servant recv = .ok next ∧
    next.server.net.sendBuffer = p.server.net.sendBuffer ++ [msg] ∧
    msg.cmd = .send ∧ msg.uid = recv.uid ∧ BeginsWith id msg.buffer

end Process

/-- The methods that a servant answers, with the fields that `registerServant` reads. -/
def Servant.Answers (servant : Servant) (method request : List UInt8) : Prop :=
  match servant with
  | .hello => method = textBytes "test" ∨ method = textBytes "testHello"
  | .server => method = textBytes "keepAlive"
  | .register => method = textBytes "registerServant" ∧ 4 < (Register.fields request).length
  | .node => False
  | .admin => False

/-! ### The tables of methods -/

/-- Two sorted names are found, and nothing else. -/
theorem selectMethod_pair {first second : List UInt8} (hlt : first < second)
    (method : List UInt8) :
    (method = first ∧ selectMethod [first, second] method = some 0) ∨
      (method = second ∧ selectMethod [first, second] method = some 1) ∨
      (method ≠ first ∧ method ≠ second ∧ selectMethod [first, second] method = none) := by
  rcases Std.lt_trichotomy method first with hbelow | rfl | habove
  · have hbelow' := List.lt_trans hbelow hlt
    refine Or.inr (Or.inr ⟨?_, ?_, ?_⟩)
    · exact fun hsame => List.lt_irrefl first (hsame ▸ hbelow)
    · exact fun hsame => List.lt_irrefl second (hsame ▸ hbelow')
    · simp [selectMethod, equalRange, hbelow, List.lt_asymm hbelow]
  · refine Or.inl ⟨rfl, ?_⟩
    simp [selectMethod, equalRange, hlt, List.lt_irrefl]
  · have hle := List.le_of_lt habove
    rcases Std.lt_trichotomy method second with hbelow | rfl | habove'
    · refine Or.inr (Or.inr ⟨?_, ?_, ?_⟩)
      · exact fun hsame => List.lt_irrefl first (hsame ▸ habove)
      · exact fun hsame => List.lt_irrefl second (hsame ▸ hbelow)
      · simp [selectMethod, equalRange, habove, hle, hbelow, List.lt_asymm hbelow]
    · refine Or.inr (Or.inl ⟨rfl, ?_⟩)
      simp [selectMethod, equalRange, habove, hle, List.lt_irrefl]
    · have hle' := List.le_of_lt habove'
      refine Or.inr (Or.inr ⟨?_, ?_, ?_⟩)
      · exact fun hsame => List.lt_irrefl first (hsame ▸ habove)
      · exact fun hsame => List.lt_irrefl second (hsame ▸ habove')
      · simp [selectMethod, equalRange, habove, hle, habove', hle']

section

variable {id method arguments : List UInt8}

/-- `id:method:arguments`. -/
def requestOf (id method arguments : List UInt8) : List UInt8 :=
  id ++ colon :: (method ++ colon :: arguments)

/-! ### The buffers -/

theorem not_beginsWith_nil (id : List UInt8) : ¬ BeginsWith id [] := by
  rintro ⟨rest, hnil⟩
  simp at hnil

theorem helloImp_begins_iff (hid : colon ∉ id) (hmethod : colon ∉ method) :
    BeginsWith id (HelloImp (requestOf id method arguments)).2 ↔
      method = textBytes "test" ∨ method = textBytes "testHello" := by
  have hparse : Hello.method (requestOf id method arguments) = method :=
    parseRequest_method hid hmethod
  have hecho : BeginsWith id (requestOf id method arguments) := ⟨_, rfl⟩
  rw [HelloImp, hparse, Hello.names]
  rcases selectMethod_pair (by decide : textBytes "test" < textBytes "testHello") method with
    ⟨htest, hselect⟩ | ⟨hhello, hselect⟩ | ⟨htest, hhello, hselect⟩
  · rw [hselect]
    exact iff_of_true hecho (Or.inl htest)
  · rw [hselect]
    exact iff_of_true hecho (Or.inr hhello)
  · rw [hselect]
    exact iff_of_false (not_beginsWith_nil id) (not_or.mpr ⟨htest, hhello⟩)

theorem serverImp_begins_iff (hid : colon ∉ id) (hmethod : colon ∉ method) :
    BeginsWith id (ServerImp (requestOf id method arguments)).2 ↔
      method = textBytes "keepAlive" := by
  have hparse : (parseRequest (requestOf id method arguments)).2.2.2 = method :=
    parseRequest_method hid hmethod
  simp only [ServerImp, hparse, Server.names]
  rcases selectMethod_pair (by decide : textBytes "keepAlive" < textBytes "reportVersion")
    method with ⟨hkeep, hselect⟩ | ⟨rfl, hselect⟩ | ⟨hkeep, _, hselect⟩
  · rw [hselect]
    refine iff_of_true ⟨textBytes "I have received", ?_⟩ hkeep
    rw [Server.keepAlive, requestOf, substrTo_findColon, takeWhile_of_notMem hid,
      List.append_assoc]
    rfl
  · rw [hselect]
    exact iff_of_false (not_beginsWith_nil id) (by decide)
  · rw [hselect]
    exact iff_of_false (not_beginsWith_nil id) hkeep

theorem nodeImp_silent (request : List UInt8) : (NodeImp request).2 = [] := by
  rw [NodeImp.eq_def]
  dsimp only
  split <;> rfl

theorem adminServant_silent (terminate : Bool) (request : List UInt8) :
    (AdminServant terminate request).1.2 = [] := by
  rw [AdminServant.eq_def]
  dsimp only
  split <;> rfl

/-- The first fields of a request are its id and its method. -/
theorem Register.fields_requestOf (hid : colon ∉ id) (hmethod : colon ∉ method) :
    ∃ rest, Register.fields (requestOf id method arguments) = id :: method :: rest := by
  have hsplit : (requestOf id method arguments).splitOn colon =
      id :: method :: arguments.splitOn colon := by
    rw [requestOf, List.splitOn_append_cons_self_of_not_mem hid,
      List.splitOn_append_cons_self_of_not_mem hmethod]
  obtain ⟨next, others, hrest⟩ :=
    List.exists_cons_of_ne_nil (List.splitOn_ne_nil colon arguments)
  simp only [Register.fields, hsplit, hrest]
  split
  · exact ⟨_, rfl⟩
  · exact ⟨_, rfl⟩

theorem registerImp_begins_iff (hid : colon ∉ id) (hmethod : colon ∉ method)
    (registry : Registry) :
    (∃ ret buffer registry', RegisterImp registry (requestOf id method arguments) =
        .ok ((ret, buffer), registry') ∧ BeginsWith id buffer) ↔
      method = textBytes "registerServant" ∧
        4 < (Register.fields (requestOf id method arguments)).length := by
  obtain ⟨rest, hfields⟩ := @Register.fields_requestOf id method arguments hid hmethod
  have hzero : Register.field (Register.fields (requestOf id method arguments)) 0 = .ok id := by
    rw [hfields]
    rfl
  have hone : Register.field (Register.fields (requestOf id method arguments)) 1 =
      .ok method := by
    rw [hfields]
    rfl
  have hdispatch : RegisterImp registry (requestOf id method arguments) =
      if method = textBytes "registerServant" then
        Register.registerServant registry (Register.fields (requestOf id method arguments))
      else if method = textBytes "deleteServant" then
        .ok (Register.deleteServant (requestOf id method arguments), registry)
      else .ok ((-3, []), registry) := by
    simp only [RegisterImp, hone, bind, Except.bind]
  rw [← Register.registerServant_ok_iff registry]
  by_cases hregister : method = textBytes "registerServant"
  · rw [if_pos hregister] at hdispatch
    constructor
    · rintro ⟨ret, buffer, registry', hrun, _⟩
      exact ⟨hregister, _, hdispatch ▸ hrun⟩
    · rintro ⟨_, ⟨⟨ret, buffer⟩, registry'⟩, hrun⟩
      refine ⟨ret, buffer, registry', hdispatch ▸ hrun, ?_⟩
      obtain ⟨name, _, hrun⟩ := ok_of_bind_ok hrun
      obtain ⟨ip, _, hrun⟩ := ok_of_bind_ok hrun
      obtain ⟨port, _, hrun⟩ := ok_of_bind_ok hrun
      obtain ⟨first, hfirst, hrun⟩ := ok_of_bind_ok hrun
      rw [hzero, Except.ok.injEq] at hfirst
      simp only [Except.ok.injEq, Prod.mk.injEq] at hrun
      exact ⟨textBytes "registed!", by rw [← hrun.1.2, ← hfirst]; rfl⟩
  · rw [if_neg hregister] at hdispatch
    refine iff_of_false ?_ fun hmatch => hregister hmatch.1
    rintro ⟨ret, buffer, registry', hrun, hbegins⟩
    have hsilent : buffer = [] := by
      rw [hdispatch, Register.deleteServant] at hrun
      split at hrun
      · simp only [Except.ok.injEq, Prod.mk.injEq] at hrun
        exact hrun.1.2.symm
      · simp only [Except.ok.injEq, Prod.mk.injEq] at hrun
        exact hrun.1.2.symm
    exact not_beginsWith_nil id (hsilent ▸ hbegins)

/-! ### `handle` -/

/-- A dispatch function does not touch the net thread. -/
theorem Process.dispatch_server {p next : Process} {servant : Servant}
    {request buffer : List UInt8} (hrun : p.dispatch servant request = .ok (buffer, next)) :
    next.server = p.server := by
  cases servant with
  | register =>
      obtain ⟨⟨⟨ret, buffer'⟩, registry⟩, _, hrun⟩ := ok_of_bind_ok hrun
      simp only [Except.ok.injEq, Prod.mk.injEq] at hrun
      exact hrun.2 ▸ rfl
  | hello | server | node | admin =>
      simp only [Process.dispatch, Except.ok.injEq, Prod.mk.injEq] at hrun
      exact hrun.2 ▸ rfl

/-- `handle` queues what the dispatch function leaves, unless the net thread is told to
end. -/
theorem Process.answered_iff_dispatch (p : Process) (servant : Servant) (recv : TagRecvData)
    (id : List UInt8) :
    p.Answered servant recv id ↔
      (∃ buffer next, p.dispatch servant recv.buffer = .ok (buffer, next) ∧
        BeginsWith id buffer) ∧ p.server.net.terminate = false := by
  constructor
  · rintro ⟨last, msg, hrun, hqueued, _, _, hbegins⟩
    obtain ⟨⟨buffer, next⟩, hdispatch, hrun⟩ := ok_of_bind_ok hrun
    rw [Except.ok.injEq] at hrun
    subst hrun
    simp only [Server.handle, Server.sendToEpollServer, dispatch_server hdispatch,
      NetThread.recvNeedToSendFromServer] at hqueued
    cases hterminate : p.server.net.terminate with
    | true => simp [hterminate] at hqueued
    | false =>
        simp only [hterminate, Bool.false_eq_true, if_false, List.append_cancel_left_eq,
          List.cons.injEq, and_true] at hqueued
        rw [← hqueued] at hbegins
        exact ⟨⟨buffer, next, hdispatch, hbegins⟩, rfl⟩
  · rintro ⟨⟨buffer, next, hdispatch, hbegins⟩, hterminate⟩
    refine ⟨{ next with server := next.server.handle recv (some buffer) },
      { cmd := .send, uid := recv.uid, buffer := buffer, ip := recv.ip, port := recv.port },
      ?_, ?_, rfl, rfl, hbegins⟩
    · simp only [Process.handle, hdispatch, bind, Except.bind]
    · simp only [Server.handle, Server.sendToEpollServer, dispatch_server hdispatch,
        NetThread.recvNeedToSendFromServer, hterminate, Bool.false_eq_true, if_false]

/-- A request is answered with its id exactly when its servant is `HelloImp` with one of its
methods, `ServerImp` with `keepAlive` or `RegisterImp` with `registerServant` and all its
fields, and the net thread is not told to end. -/
theorem Process.answered_iff (p : Process) (servant : Servant) (recv : TagRecvData)
    (hid : colon ∉ id) (hmethod : colon ∉ method)
    (hbuffer : recv.buffer = requestOf id method arguments) :
    p.Answered servant recv id ↔
      servant.Answers method recv.buffer ∧ p.server.net.terminate = false := by
  rw [answered_iff_dispatch, hbuffer]
  refine and_congr_left fun _ => ?_
  have hplain : ∀ {buffer : List UInt8} {next : Process} {answers : Prop},
      (BeginsWith id buffer ↔ answers) →
      ((∃ text last, (Except.ok (buffer, next) : Except Fault _) = .ok (text, last) ∧
        BeginsWith id text) ↔ answers) := by
    intro buffer next answers hiff
    rw [← hiff]
    constructor
    · rintro ⟨text, last, hsame, hbegins⟩
      rw [Except.ok.injEq, Prod.mk.injEq] at hsame
      exact hsame.1 ▸ hbegins
    · exact fun hbegins => ⟨buffer, next, rfl, hbegins⟩
  cases servant with
  | hello => exact hplain (helloImp_begins_iff hid hmethod)
  | server => exact hplain (serverImp_begins_iff hid hmethod)
  | node =>
      have hsilent : ¬ BeginsWith id (NodeImp (requestOf id method arguments)).2 := by
        rw [nodeImp_silent]
        exact not_beginsWith_nil id
      exact hplain (iff_of_false hsilent not_false)
  | admin =>
      have hsilent : ¬ BeginsWith id
          (AdminServant p.terminate (requestOf id method arguments)).1.2 := by
        rw [adminServant_silent]
        exact not_beginsWith_nil id
      exact hplain (iff_of_false hsilent not_false)
  | register =>
      refine Iff.trans ?_ (registerImp_begins_iff hid hmethod p.registry)
      constructor
      · rintro ⟨buffer, next, hrun, hbegins⟩
        obtain ⟨⟨⟨ret, buffer'⟩, registry⟩, hrun, hsame⟩ := ok_of_bind_ok hrun
        simp only [Except.ok.injEq, Prod.mk.injEq] at hsame
        exact ⟨ret, buffer', registry, hrun, hsame.1 ▸ hbegins⟩
      · rintro ⟨ret, buffer, registry, hrun, hbegins⟩
        refine ⟨buffer, { p with registry := registry }, ?_, hbegins⟩
        simp only [Process.dispatch, hrun, bind, Except.bind]

end

/-- A net thread that runs, and a request of connection 3. -/
def idleProcess : Process := { server := { net := { freeSize := 0, listeners := fun _ => 0 } } }

def requestOfConnection (buffer : List UInt8) : TagRecvData :=
  { uid := 3, buffer := buffer, ip := "127.0.0.1", port := 80, recvTimestamp := 0,
    overload := false, closed := false, fd := 9, adapter := some 0, closeType := .clientClose }

/-- `1:keepAlive:x` to `ServerImp`. -/
theorem Process.answered_keepAlive :
    idleProcess.Answered .server
      (requestOfConnection (requestOf [49] (textBytes "keepAlive") [120])) [49] :=
  (answered_iff idleProcess .server
    (requestOfConnection (requestOf [49] (textBytes "keepAlive") [120])) (by decide)
    (by decide) rfl).mpr ⟨rfl, rfl⟩

/-- `1:x:` to `HelloImp` and `1:notify:` to `AdminServant` queue an empty response. -/
theorem Process.unknown_method_unanswered :
    (∃ next, idleProcess.handle .hello (requestOfConnection (requestOf [49] [120] [])) =
        .ok next ∧
      next.server.net.sendBuffer =
        [{ cmd := .send, uid := 3, buffer := [], ip := "127.0.0.1", port := 80 }]) ∧
    ¬ idleProcess.Answered .hello (requestOfConnection (requestOf [49] [120] [])) [49] ∧
    ¬ idleProcess.Answered .admin
      (requestOfConnection (requestOf [49] (textBytes "notify") [])) [49] := by
  have hsilent : ∀ {servant : Servant} {recv : TagRecvData} {next : Process},
      idleProcess.handle servant recv = .ok next →
      (next.server.net.sendBuffer.map TagSendData.buffer) = [[]] →
      ¬ idleProcess.Answered servant recv [49] := by
    rintro servant recv next hrun hempty ⟨last, msg, hrun', hqueued, _, _, rest, hbegins⟩
    rw [hrun, Except.ok.injEq] at hrun'
    rw [← hrun'] at hqueued
    rw [hqueued, List.map_append] at hempty
    simp [idleProcess, hbegins] at hempty
  refine ⟨⟨_, rfl, rfl⟩, hsilent rfl rfl, hsilent rfl rfl⟩

end Tarsx
