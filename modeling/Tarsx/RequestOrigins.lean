/-
Where requests come from and where responses go: the run of a server with a history that
numbers request frames in the order in which they are received.  The history never decides a
step; which connection a response is written to, and with which request `handle` is called,
the steps of the server say themselves.
-/
import Mathlib.Data.List.Nodup
import Tarsx.Foundation.Run
import Tarsx.NetThreadEffects
import Tarsx.NetThreadSockets
import Tarsx.ServantHandle

namespace Tarsx

open Foundation

namespace Server

/-! ### The history -/

/-- A request frame that was received: the connection it came from, and the adapter whose
queue it went to. -/
structure Arrival where
  connection : Nat
  adapter : Nat
deriving DecidableEq, Repr

/-- A server with its history.  The queues, the calls of `handle` and the responses written
are copied with the number of the frame beside each request and beside what came of it. -/
structure Traced where
  server : Server
  received : List Arrival := []
  queued : Nat → List (TagRecvData × Option Nat) := fun _ => []
  coroutines : List (TagRecvData × Option Nat) := []
  answers : List (TagSendData × Option Nat) := []
  handled : List (TagRecvData × Option Nat) := []
  written : List (TagSendData × Option Nat) := []

namespace Traced

/-- New messages of a queue: the requests among them get the next numbers. -/
def numbered : Nat → List TagRecvData → List (TagRecvData × Option Nat)
  | _, [] => []
  | frame, recv :: rest =>
      if recv.closed then (recv, none) :: numbered frame rest
      else (recv, some frame) :: numbered (frame + 1) rest

/-- The queue of an adapter after messages were put behind. -/
def extended (t : Traced) (next : Server) (adapter : Nat) :
    List (TagRecvData × Option Nat) :=
  t.queued adapter ++ numbered t.received.length
    ((next.net.receiveBuffers adapter).drop (t.queued adapter).length)

/-- The commands queued since, all for one frame or for none. -/
def answered (t : Traced) (next : Server) (frame : Option Nat) :
    List (TagSendData × Option Nat) :=
  t.answers ++ (next.net.sendBuffer.drop t.answers.length).map fun msg => (msg, frame)

/-- The responses among the queued commands. -/
def responses (t : Traced) : List (TagSendData × Option Nat) :=
  t.answers.filter fun answer => answer.1.cmd = .send

/-- The number of the connection that an event is for. -/
def readFrom (t : Traced) (uid : Nat) : Nat :=
  ((t.server.net.connectionOf uid).map Connection.serial).getD 0

/-- The history after a step of the server to `next`. -/
def record (t : Traced) (next : Server) : Action → Traced
  | .accept _ _ => { t with server := next }
  | .net ev =>
      { t with
        server := next
        received := t.received ++ (t.server.net.arriving ev).map fun recv =>
          { connection := t.readFrom ev.uid, adapter := recv.adapter.getD 0 }
        queued := t.extended next }
  | .pipe _ =>
      { t with
        server := next, queued := t.extended next, answers := []
        written := t.written ++ t.responses }
  | .close _ => { t with server := next, answers := t.answered next none }
  | .take adapter created =>
      match t.queued adapter with
      | [] => { t with server := next }
      | (recv, frame) :: rest =>
          let popped := { t with
            server := next, queued := Function.update t.queued adapter rest }
          if recv.closed = false ∧ created then
            { popped with
              coroutines := t.coroutines ++ [({ recv with adapter := some adapter }, frame)] }
          else popped
  | .handle i _ =>
      match t.coroutines[i]? with
      | none => { t with server := next }
      | some (recv, frame) =>
          { t with
            server := next, coroutines := t.coroutines.eraseIdx i
            handled := t.handled ++ [(recv, frame)], answers := t.answered next frame }

/-- A step of the server, recorded. -/
def step (maxIOVcount : Nat) (t : Traced) (action : Action) : Except Fault Traced := do
  let next ← t.server.step maxIOVcount action
  .ok (t.record next action)

/-- The frame is one that the connection with this number sent. -/
def SentBy (t : Traced) (frame : Option Nat) (connection : Nat) : Prop :=
  ∃ f arrival, frame = some f ∧ t.received[f]? = some arrival ∧
    arrival.connection = connection

/-- The copied queues and lists are those of the server. -/
structure Copied (t : Traced) : Prop where
  queued : ∀ adapter, (t.queued adapter).map Prod.fst = t.server.net.receiveBuffers adapter
  coroutines : t.coroutines.map Prod.fst = t.server.coroutines
  answers : t.answers.map Prod.fst = t.server.net.sendBuffer
  handled : t.handled.map Prod.fst = t.server.handled

/-- Two connections never have one number. -/
def Numbered (n : NetThread) : Prop :=
  ∀ uid other c c', n.connectionUids uid = some (some c) →
    n.connectionUids other = some (some c') → c.serial = c'.serial → uid = other

/-- The response was written to the connection that sent the frame it answers. -/
def Returned (t : Traced) (answer : TagSendData × Option Nat) (write : Written) : Prop :=
  write.msg = answer.1 ∧ t.SentBy answer.2 write.connection

/-- No two calls of `handle` are for one frame, each is for a received frame, and every
response that was written went to the connection that sent the frame it answers; so would
every response that is queued, to the connection that is stored under its uid. -/
structure Delivered (t : Traced) : Prop where
  copied : t.Copied
  numbered : Numbered t.server.net
  once : (t.handled.map Prod.snd).Nodup
  received : ∀ entry ∈ t.handled, ∃ connection, t.SentBy entry.2 connection
  written : List.Forall₂ t.Returned t.written t.server.net.written
  queued : ∀ answer ∈ t.responses, ∀ c,
    t.server.net.connectionUids answer.1.uid = some (some c) → t.SentBy answer.2 c.serial

/-! ### The invariant -/

/-- The frames waiting in the queue of an adapter. -/
def waiting (t : Traced) (adapter : Nat) : List Nat := (t.queued adapter).filterMap Prod.snd

/-- The frames that have left their queue for a coroutine. -/
def begun (t : Traced) : List (Option Nat) :=
  t.coroutines.map Prod.snd ++ t.handled.map Prod.snd

/-- The frame came from the only connection that is, or ever will be, stored under the uid. -/
structure From (t : Traced) (frame : Option Nat) (uid : Nat) : Prop where
  sent : ∃ connection, t.SentBy frame connection ∧
    ∀ c, t.server.net.connectionUids uid = some (some c) → c.serial = connection
  used : uid ∉ t.server.net.free

/-- The frame went to the queue of the adapter. -/
def Queued (t : Traced) (frame : Option Nat) (adapter : Nat) : Prop :=
  ∃ f arrival, frame = some f ∧ t.received[f]? = some arrival ∧ arrival.adapter = adapter

/-- What waits in the queue of an adapter: a message about a closed connection, or a request
with its frame. -/
def Waits (t : Traced) (adapter : Nat) (entry : TagRecvData × Option Nat) : Prop :=
  (entry.1.closed = true ∧ entry.2 = none) ∨
    (entry.1.closed = false ∧ t.From entry.2 entry.1.uid ∧ t.Queued entry.2 adapter)

/-- Every uid that travels with a frame is the uid of the frame's connection. -/
structure Attributed (t : Traced) : Prop where
  queued : ∀ adapter, ∀ entry ∈ t.queued adapter, t.Waits adapter entry
  coroutines : ∀ entry ∈ t.coroutines, t.From entry.2 entry.1.uid
  answers : ∀ answer ∈ t.answers, answer.1.cmd = .send → t.From answer.2 answer.1.uid
  handled : ∀ entry ∈ t.handled, ∃ connection, t.SentBy entry.2 connection
  written : List.Forall₂ t.Returned t.written t.server.net.written

/-- A frame is in one place. -/
structure Distinct (t : Traced) : Prop where
  waiting : ∀ adapter, (t.waiting adapter).Nodup
  begun : t.begun.Nodup
  apart : ∀ adapter, ∀ f ∈ t.waiting adapter, some f ∉ t.begun

/-- No uid is given to two connections, and the numbers of connections are not reused. -/
structure Unreused (n : NetThread) : Prop where
  sound : n.Sound
  nodup : n.free.Nodup
  used : ∀ uid, n.Live uid → uid ∉ n.free
  below : ∀ uid c, n.connectionUids uid = some (some c) → c.serial < n.accepted
  numbered : Numbered n

structure Kept (t : Traced) : Prop where
  unreused : Unreused t.server.net
  copied : t.Copied
  attributed : t.Attributed
  distinct : t.Distinct

/-- What is stored under a used uid was stored there before, and the uid stays used. -/
structure Settled (n next : NetThread) : Prop where
  stored : ∀ uid, uid ∉ n.free → ∀ c', next.connectionUids uid = some (some c') →
    ∃ c, n.connectionUids uid = some (some c) ∧ c'.serial = c.serial
  free : ∀ uid, uid ∉ n.free → uid ∉ next.free

theorem Settled.of_eq {n next : NetThread} (htable : next.connectionUids = n.connectionUids)
    (hfree : next.free = n.free) : Settled n next :=
  ⟨fun _ _ c' hc' => ⟨c', htable ▸ hc', rfl⟩, fun _ hused => hfree ▸ hused⟩

theorem Settled.of_sameSockets {n next : NetThread} (hsame : NetThread.SameSockets n next)
    (hfree : next.free = n.free) : Settled n next :=
  ⟨fun uid _ c' hc' => by
    obtain ⟨c, hc, hkept⟩ := hsame uid c' hc'
    exact ⟨c, hc, hkept.serial⟩, fun _ hused => hfree ▸ hused⟩

/-- The history only grows, and what was said of a used uid stays. -/
structure Grows (t t' : Traced) : Prop where
  received : ∃ more, t'.received = t.received ++ more
  net : Settled t.server.net t'.server.net

section Growth

variable {t t' : Traced} {frame : Option Nat} {uid connection adapter : Nat}

theorem Grows.of_same (hreceived : t'.received = t.received)
    (hnet : Settled t.server.net t'.server.net) : Grows t t' :=
  ⟨⟨[], by rw [hreceived, List.append_nil]⟩, hnet⟩

/-- A received frame keeps its number. -/
theorem Grows.arrival (hgrows : Grows t t') {f : Nat} {arrival : Arrival}
    (harrival : t.received[f]? = some arrival) : t'.received[f]? = some arrival := by
  obtain ⟨more, hmore⟩ := hgrows.received
  rw [hmore]
  exact List.getElem?_append_left (List.getElem?_eq_some_iff.mp harrival).1 ▸ harrival

theorem SentBy.mono (h : t.SentBy frame connection) (hgrows : Grows t t') :
    t'.SentBy frame connection := by
  obtain ⟨f, arrival, hframe, harrival, hsame⟩ := h
  exact ⟨f, arrival, hframe, hgrows.arrival harrival, hsame⟩

theorem Queued.mono (h : t.Queued frame adapter) (hgrows : Grows t t') :
    t'.Queued frame adapter := by
  obtain ⟨f, arrival, hframe, harrival, hsame⟩ := h
  exact ⟨f, arrival, hframe, hgrows.arrival harrival, hsame⟩

/-- A frame is recorded for one adapter. -/
theorem Queued.unique {f other : Nat} (h : t.Queued (some f) adapter)
    (h' : t.Queued (some f) other) : other = adapter := by
  obtain ⟨f₁, arrival₁, hf₁, harrival₁, hadapter₁⟩ := h
  obtain ⟨f₂, arrival₂, hf₂, harrival₂, hadapter₂⟩ := h'
  rw [Option.some.injEq] at hf₁ hf₂
  subst hf₁
  subst hf₂
  rw [harrival₁, Option.some.injEq] at harrival₂
  exact hadapter₂.symm.trans (harrival₂ ▸ hadapter₁)

theorem From.mono (h : t.From frame uid) (hgrows : Grows t t') : t'.From frame uid := by
  obtain ⟨connection, hsent, hstored⟩ := h.sent
  refine ⟨⟨connection, hsent.mono hgrows, fun c' hc' => ?_⟩, hgrows.net.free uid h.used⟩
  obtain ⟨c, hc, hserial⟩ := hgrows.net.stored uid h.used c' hc'
  exact hserial.trans (hstored c hc)

theorem Waits.mono {entry : TagRecvData × Option Nat} (h : t.Waits adapter entry)
    (hgrows : Grows t t') : t'.Waits adapter entry := by
  rcases h with hclosed | ⟨hopen, hfrom, hmine⟩
  · exact Or.inl hclosed
  · exact Or.inr ⟨hopen, hfrom.mono hgrows, hmine.mono hgrows⟩

theorem Returned.mono {answer : TagSendData × Option Nat} {write : Written}
    (h : t.Returned answer write) (hgrows : Grows t t') : t'.Returned answer write :=
  ⟨h.1, h.2.mono hgrows⟩

/-- What was said of the entries before the history grew stays true of them. -/
theorem Attributed.of_grows (hgrows : Grows t t')
    (hqueued : ∀ adapter, ∀ entry ∈ t'.queued adapter, t'.Waits adapter entry)
    (hcoroutines : ∀ entry ∈ t'.coroutines, t.From entry.2 entry.1.uid)
    (hanswers : ∀ answer ∈ t'.answers, answer.1.cmd = .send → t.From answer.2 answer.1.uid)
    (hhandled : ∀ entry ∈ t'.handled, ∃ connection, t.SentBy entry.2 connection)
    (hwritten : List.Forall₂ t.Returned t'.written t'.server.net.written) : t'.Attributed where
  queued := hqueued
  coroutines := fun entry hentry => (hcoroutines entry hentry).mono hgrows
  answers := fun answer hanswer hsend => (hanswers answer hanswer hsend).mono hgrows
  handled := fun entry hentry =>
    (hhandled entry hentry).imp fun _ hsent => hsent.mono hgrows
  written := hwritten.imp fun _ _ hreturned => hreturned.mono hgrows

/-- Frames may leave the queues, and the order in which frames were begun is free. -/
theorem Distinct.of_sublist (h : t.Distinct)
    (hwaiting : ∀ adapter, (t'.waiting adapter).Sublist (t.waiting adapter))
    (hbegun : t'.begun.Perm t.begun) : t'.Distinct where
  waiting := fun adapter => (h.waiting adapter).sublist (hwaiting adapter)
  begun := hbegun.nodup_iff.mpr h.begun
  apart := fun adapter f hf hmem =>
    h.apart adapter f ((hwaiting adapter).subset hf) (hbegun.mem_iff.mp hmem)

theorem Distinct.of_eq (h : t.Distinct) (hwaiting : t'.waiting = t.waiting)
    (hbegun : t'.begun = t.begun) : t'.Distinct :=
  h.of_sublist (fun _ => hwaiting ▸ List.Sublist.refl _) (hbegun ▸ List.Perm.refl _)

/-- A queued response would go to the connection that sent the frame it answers. -/
theorem Attributed.responses (h : t.Attributed) {answer : TagSendData × Option Nat}
    (hanswer : answer ∈ t.responses) {c : Connection}
    (hc : t.server.net.connectionUids answer.1.uid = some (some c)) :
    t.SentBy answer.2 c.serial := by
  obtain ⟨hmem, hsend⟩ := List.mem_filter.mp hanswer
  obtain ⟨connection, hsent, hstored⟩ := (h.answers answer hmem (of_decide_eq_true hsend)).sent
  exact (hstored c hc).symm ▸ hsent

/-- The number of a frame is below the number of frames received. -/
theorem SentBy.lt (h : t.SentBy frame connection) :
    ∃ f, frame = some f ∧ f < t.received.length := by
  obtain ⟨f, arrival, hframe, harrival, _⟩ := h
  exact ⟨f, hframe, (List.getElem?_eq_some_iff.mp harrival).1⟩

theorem From.lt (h : t.From frame uid) : ∃ f, frame = some f ∧ f < t.received.length := by
  obtain ⟨connection, hsent, _⟩ := h.sent
  exact hsent.lt

end Growth

/-! ### One step -/

section Net

variable {n next : NetThread}

/-- A step that makes no connection and touches no free uid. -/
theorem Unreused.of_sameSockets (h : Unreused n) (hsound : next.Sound)
    (hsame : NetThread.SameSockets n next) (hfree : next.free = n.free)
    (haccepted : next.accepted = n.accepted) : Unreused next where
  sound := hsound
  nodup := hfree ▸ h.nodup
  used := fun uid hlive => by
    obtain ⟨c', hc'⟩ := NetThread.live_iff.mp hlive
    obtain ⟨c, hc, _⟩ := hsame uid c' hc'
    exact hfree ▸ h.used uid (NetThread.live_iff.mpr ⟨c, hc⟩)
  below := fun uid c' hc' => by
    obtain ⟨c, hc, hkept⟩ := hsame uid c' hc'
    rw [hkept.serial, haccepted]
    exact h.below uid c hc
  numbered := fun uid other c' d' hc' hd' hserial => by
    obtain ⟨c, hc, hkept⟩ := hsame uid c' hc'
    obtain ⟨d, hd, hkept'⟩ := hsame other d' hd'
    exact h.numbered uid other c d hc hd (by rw [← hkept.serial, hserial, hkept'.serial])

theorem Unreused.of_eq (h : Unreused n) (htable : next.connectionUids = n.connectionUids)
    (hfree : next.free = n.free) (haccepted : next.accepted = n.accepted) : Unreused next :=
  h.of_sameSockets (fun uid c hc => h.sound uid c (htable ▸ hc)) (.of_eq htable) hfree haccepted

/-- A connection under a free uid gets a number of its own. -/
theorem Unreused.added (h : Unreused n) (hsound : next.Sound) {uid : Nat} {rest : List Nat}
    {c : Connection} (hfree : n.free = uid :: rest) (hrest : next.free = rest)
    (hserial : c.serial = n.accepted) (haccepted : next.accepted = n.accepted + 1)
    (htable : next.connectionUids = Function.update n.connectionUids uid (some (some c))) :
    Unreused next ∧ Settled n next := by
  have hnodup := h.nodup
  rw [hfree] at hnodup
  obtain ⟨hfresh, hnodup⟩ := List.nodup_cons.mp hnodup
  have hentry : ∀ {other : Nat} {d : Connection}, next.connectionUids other = some (some d) →
      (other = uid ∧ d = c) ∨ (other ≠ uid ∧ n.connectionUids other = some (some d)) := by
    intro other d hd
    rw [htable] at hd
    by_cases hother : other = uid
    · subst hother
      rw [Function.update_self, Option.some.injEq, Option.some.injEq] at hd
      exact Or.inl ⟨rfl, hd.symm⟩
    · rw [Function.update_of_ne hother] at hd
      exact Or.inr ⟨hother, hd⟩
  have hbelow : ∀ {other : Nat} {d : Connection}, n.connectionUids other = some (some d) →
      d.serial ≠ n.accepted := fun hd => Nat.ne_of_lt (h.below _ _ hd)
  have hlater : ∀ other, other ∉ n.free → other ∉ next.free := by
    intro other hother hmem
    rw [hrest] at hmem
    exact hother (hfree ▸ List.mem_cons_of_mem uid hmem)
  refine ⟨⟨hsound, hrest ▸ hnodup, ?_, ?_, ?_⟩, ⟨?_, hlater⟩⟩
  · intro other hlive
    obtain ⟨d, hd⟩ := NetThread.live_iff.mp hlive
    rcases hentry hd with ⟨rfl, _⟩ | ⟨_, hold⟩
    · exact hrest ▸ hfresh
    · exact hlater other (h.used other (NetThread.live_iff.mpr ⟨d, hold⟩))
  · intro other d hd
    rw [haccepted]
    rcases hentry hd with ⟨_, rfl⟩ | ⟨_, hold⟩
    · exact hserial ▸ Nat.lt_succ_self _
    · exact Nat.lt_succ_of_lt (h.below other d hold)
  · intro first second d d' hd hd' hsame
    rcases hentry hd with ⟨rfl, rfl⟩ | ⟨_, hold⟩
    · rcases hentry hd' with ⟨rfl, _⟩ | ⟨_, hold'⟩
      · rfl
      · exact absurd (hsame.symm.trans hserial) (hbelow hold')
    · rcases hentry hd' with ⟨_, rfl⟩ | ⟨_, hold'⟩
      · exact absurd (hsame.trans hserial) (hbelow hold)
      · exact h.numbered first second d d' hold hold' hsame
  · intro other hused d hd
    rcases hentry hd with ⟨rfl, _⟩ | ⟨_, hold⟩
    · exact absurd (by rw [hfree]; exact List.mem_cons_self) hused
    · exact ⟨d, hold, rfl⟩

theorem Unreused.accept (h : Unreused n) {maxIOVcount listenfd : Nat} {result : AcceptResult}
    (hstep : NetThread.netStep maxIOVcount n (.accept listenfd result) = .ok next) :
    Unreused next ∧ Settled n next := by
  rcases NetThread.netStep_accept hstep with ⟨_, rfl⟩ | hadded
  · exact ⟨h, .of_eq rfl rfl⟩
  · obtain ⟨fd, ip, port, close, uid, rest, c, rfl, hfree, _, _, hserial, haccepted, _,
      htable⟩ := hadded
    obtain ⟨other, hadd, hrest, _, _, _, hsound⟩ := NetThread.addTConnection_spec
      h.sound hfree
      (NetThread.whole_accepted (n.listeners listenfd) listenfd fd ip port close n.accepted uid)
    have hnext : NetThread.netStep maxIOVcount n (.accept listenfd (.accepted fd ip port close)) =
        .ok other := by
      simp only [NetThread.netStep, NetThread.accept, hadd, bind, Except.bind]
    rw [hstep, Except.ok.injEq] at hnext
    subst hnext
    exact h.added hsound hfree hrest hserial haccepted htable

/-- No other step touches the free uids. -/
theorem Unreused.netStep (h : Unreused n) {maxIOVcount : Nat} {action : NetThread.NetAction}
    (hnot : ∀ listenfd result, action ≠ .accept listenfd result)
    (hsame : NetThread.SameSockets n next) (haccepted : next.accepted = n.accepted)
    (hstep : NetThread.netStep maxIOVcount n action = .ok next) :
    Unreused next ∧ Settled n next := by
  rcases NetThread.netStep_effect h.sound maxIOVcount hnot with
    ⟨other, added, hother, heffect⟩ | ⟨fault, hfail, _⟩
  · rw [hstep, Except.ok.injEq] at hother
    subst hother
    exact ⟨h.of_sameSockets heffect.sound hsame heffect.free haccepted,
      .of_sameSockets hsame heffect.free⟩
  · rw [hstep] at hfail
    contradiction

end Net

section Queues

variable {t t' : Traced} {next : Server} {reqs : Nat → List TagRecvData}

theorem numbered_fst (news : List TagRecvData) (frame : Nat) :
    (numbered frame news).map Prod.fst = news := by
  induction news generalizing frame with
  | nil => rfl
  | cons recv rest ih =>
      rw [numbered]
      split
      · rw [List.map_cons, ih]
      · rw [List.map_cons, ih]

/-- The requests get consecutive numbers. -/
theorem numbered_snd (news : List TagRecvData) (frame : Nat) :
    (numbered frame news).filterMap Prod.snd =
      List.range' frame (NetThread.requests news).length := by
  induction news generalizing frame with
  | nil => rfl
  | cons recv rest ih =>
      rw [numbered, NetThread.requests]
      cases hclosed : recv.closed with
      | true =>
          rw [if_pos rfl, List.filterMap_cons_none rfl, ih,
            List.filter_cons_of_neg (by simp [hclosed])]
          rfl
      | false =>
          rw [if_neg Bool.false_ne_true, List.filter_cons_of_pos (by simp [hclosed])]
          simp only [List.filterMap_cons, ih]
          rfl

/-- A numbered message is about a closed connection, or the request with its number. -/
theorem mem_numbered {news : List TagRecvData} {frame : Nat} {entry : TagRecvData × Option Nat}
    (hentry : entry ∈ numbered frame news) :
    (entry.1.closed = true ∧ entry.2 = none) ∨
      (entry.1.closed = false ∧ ∃ i, entry.2 = some (frame + i) ∧
        (NetThread.requests news)[i]? = some entry.1) := by
  induction news generalizing frame with
  | nil => contradiction
  | cons recv rest ih =>
      rw [numbered] at hentry
      cases hclosed : recv.closed with
      | true =>
          have hrequests : NetThread.requests (recv :: rest) = NetThread.requests rest :=
            List.filter_cons_of_neg (by simp [hclosed])
          rw [hclosed, if_pos rfl] at hentry
          rcases List.mem_cons.mp hentry with rfl | hlater
          · exact Or.inl ⟨hclosed, rfl⟩
          · rw [hrequests]
            exact ih hlater
      | false =>
          have hrequests : NetThread.requests (recv :: rest) =
              recv :: NetThread.requests rest :=
            List.filter_cons_of_pos (by simp [hclosed])
          rw [hclosed, if_neg Bool.false_ne_true] at hentry
          rw [hrequests]
          rcases List.mem_cons.mp hentry with rfl | hlater
          · exact Or.inr ⟨hclosed, 0, rfl, rfl⟩
          · rcases ih hlater with hnews | ⟨hopen, i, hframe, hrecv⟩
            · exact Or.inl hnews
            · refine Or.inr ⟨hopen, i + 1, ?_, hrecv⟩
              rw [hframe, Nat.add_assoc, Nat.add_comm 1 i]

theorem Copied.length_queued (h : t.Copied) (adapter : Nat) :
    (t.queued adapter).length = (t.server.net.receiveBuffers adapter).length := by
  rw [← h.queued adapter, List.length_map]

/-- What was put behind a queue, numbered. -/
theorem extended_eq (h : t.Copied) (hbehind : NetThread.Behind t.server.net next.net reqs)
    (adapter : Nat) :
    ∃ news, next.net.receiveBuffers adapter = t.server.net.receiveBuffers adapter ++ news ∧
      NetThread.requests news = reqs adapter ∧
      t.extended next adapter = t.queued adapter ++ numbered t.received.length news := by
  obtain ⟨news, hqueue, hreqs⟩ := hbehind adapter
  refine ⟨news, hqueue, hreqs, ?_⟩
  rw [extended, hqueue, h.length_queued, List.drop_left]

theorem copied_extended (h : t.Copied) (hbehind : NetThread.Behind t.server.net next.net reqs)
    (adapter : Nat) :
    (t.extended next adapter).map Prod.fst = next.net.receiveBuffers adapter := by
  obtain ⟨news, hqueue, _, hextended⟩ := extended_eq h hbehind adapter
  rw [hextended, hqueue, List.map_append, h.queued, numbered_fst]

/-- The new frames have the next numbers. -/
theorem waiting_extended (h : t.Copied) (hbehind : NetThread.Behind t.server.net next.net reqs)
    (adapter : Nat) :
    (t.extended next adapter).filterMap Prod.snd = t.waiting adapter ++
      List.range' t.received.length (reqs adapter).length := by
  obtain ⟨news, _, hreqs, hextended⟩ := extended_eq h hbehind adapter
  rw [hextended, List.filterMap_append, numbered_snd, hreqs, waiting]

end Queues

end Traced

end Server

end Tarsx
