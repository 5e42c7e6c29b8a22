/-
Where every request is: over any sequence of `sendReqMessage` and
`finishInvoke(response)` a sent message is pending under one key or was finished once.
-/
import Mathlib.Data.List.Pairwise
import Tarsx.ObjectProxy
import Tarsx.TimeoutQueueTable
import Tarsx.TransceiverStream

namespace Tarsx

open Foundation

namespace ObjectProxy

/-! ### What `sendReqMessage` does in any state -/

section Send

variable {p : ObjectProxy} {msg : ReqMessage}

/-- The transceiver that a message is sent on: a first message connects it. -/
def connectFirst (t : Transceiver) (socket : Option Nat) : Except Fault Transceiver :=
  if t.connected then .ok t else t.connect socket

theorem connectFirst_ends (t : Transceiver) (socket : Option Nat) :
    connectFirst t socket = .error .aborted ∨
      ∃ base, connectFirst t socket = .ok base ∧ base.sendBuffer = t.sendBuffer := by
  by_cases hconnected : t.connected = true
  · exact Or.inr ⟨t, if_pos hconnected, rfl⟩
  · cases socket with
    | none => exact Or.inl (if_neg hconnected)
    | some fd => exact Or.inr ⟨_, if_neg hconnected, rfl⟩

/-- What `sendReqMessage` does on the connected transceiver. -/
theorem sendReqMessage_eq (socket : Option Nat) (result : WriteResult) :
    p.sendReqMessage msg socket result = (do
      let base ← connectFirst p.trans socket
      if p.timeoutQueue.sendListEmpty then do
        let (trans, (ret, taken)) ← base.sendRequest (p.prepare msg).2.reqData result
        let (last, finished) := enqueue { (p.prepare msg).1 with trans := trans }
          (p.prepare msg).2 (decide (ret ≠ Transceiver.retError))
        .ok (last, (finished, taken))
      else
        let (last, finished) :=
          enqueue { (p.prepare msg).1 with trans := base } (p.prepare msg).2 false
        .ok (last, (finished, []))) := by
  by_cases hconnected : p.trans.connected = true
  · simp only [sendReqMessage, connectFirst, if_pos hconnected]
    rfl
  · simp only [sendReqMessage, connectFirst, if_neg hconnected]
    rfl

/-- It ends the process or pushes the message, with or without a send list node. -/
theorem sendReqMessage_ends (hbuffer : p.trans.sendBuffer.WellFormed)
    (hsize : (p.prepare msg).2.reqData.length < Buffer.maxBufferSize)
    (socket : Option Nat) (result : WriteResult) :
    p.sendReqMessage msg socket result = .error .aborted ∨
      ∃ t hasSend taken, t.sendBuffer.WellFormed ∧
        p.sendReqMessage msg socket result =
          .ok ((enqueue { (p.prepare msg).1 with trans := t } (p.prepare msg).2 hasSend).1,
            ((enqueue { (p.prepare msg).1 with trans := t } (p.prepare msg).2 hasSend).2,
              taken)) := by
  rw [sendReqMessage_eq]
  rcases connectFirst_ends p.trans socket with hfailed | ⟨base, hbase, hsame⟩
  · exact Or.inl (by rw [hfailed]; rfl)
  rw [hbase]
  have hwell : base.sendBuffer.WellFormed := by rw [hsame]; exact hbuffer
  by_cases hempty : p.timeoutQueue.sendListEmpty = true
  · rcases Transceiver.sendRequest_ends hwell hsize result with
      hfailed | ⟨b, ret, taken, hsend, hb⟩
    · refine Or.inl ?_
      simp only [bind, Except.bind, if_pos hempty, hfailed]
    · refine Or.inr ⟨{ base with sendBuffer := b }, decide (ret ≠ Transceiver.retError),
        taken, hb, ?_⟩
      simp only [bind, Except.bind, if_pos hempty, hsend]
  · refine Or.inr ⟨base, false, [], hwell, ?_⟩
    simp only [bind, Except.bind, if_neg hempty]

/-- An id is not 0, as an `int` or converted back. -/
theorem prepare_key_ne_zero (p : ObjectProxy) (msg : ReqMessage) :
    toUInt32 (p.prepare msg).2.requestId ≠ 0 := by
  have hid : (p.prepare msg).2.requestId = toInt32 p.generateId.1 := rfl
  rw [hid, toUInt32_toInt32, generateId]
  by_cases hzero : word32Add p.id 1 = 0
  · simp [hzero]
  · have hsmall : word32Add p.id 1 < 2 ^ 32 := Nat.mod_lt _ (by decide)
    simpa only [if_neg hzero, Nat.mod_eq_of_lt hsmall] using hzero

end Send

/-! ### The ledger -/

/-- A client with the addresses of the messages that were sent and of those that were
finished, in order. -/
structure Ledger where
  proxy : ObjectProxy
  sent : List Nat := []
  finished : List Nat := []
deriving DecidableEq, Repr

inductive LedgerAction where
  | send (msg : ReqMessage) (socket : Option Nat) (result : WriteResult)
  | respond (response : List UInt8)
deriving DecidableEq, Repr

def addressesOf (msg : Option ReqMessage) : List Nat := msg.toList.map ReqMessage.address

def ledgerStep (l : Ledger) : LedgerAction → Except Fault Ledger
  | .send msg socket result => do
      let (proxy, (finished, _)) ← l.proxy.sendReqMessage msg socket result
      .ok { proxy := proxy, sent := l.sent ++ [msg.address],
            finished := l.finished ++ addressesOf finished }
  | .respond response => do
      let (proxy, finished) ← l.proxy.finishInvokeResponse response
      .ok { l with proxy := proxy, finished := l.finished ++ addressesOf finished }

/-- The messages are distinct and their frames no longer than a string can be. -/
def Distinct (l : Ledger) : LedgerAction → Prop
  | .send msg _ _ => msg.address ∉ l.sent ∧
      (l.proxy.prepare msg).2.reqData.length < Buffer.maxBufferSize
  | .respond _ => True

/-- The message at an address is stored under a key. -/
def PendingUnder (p : ObjectProxy) (key address : Nat) : Prop :=
  ∃ info msg, p.timeoutQueue.find key = some info ∧ info.ptr = some msg ∧
    msg.address = address

/-- Every sent message is pending under one key or was finished once, and a response
finishes the message stored under the integer in front of its first `':'`. -/
structure Ledger.Settled (l : Ledger) : Prop where
  once : l.finished.Nodup
  sent : ∀ address ∈ l.finished, address ∈ l.sent
  either : ∀ address ∈ l.sent,
    (address ∉ l.finished ∧ ∃ key, ∀ other, l.proxy.PendingUnder other address ↔ other = key) ∨
      (address ∈ l.finished ∧ ∀ key, ¬ l.proxy.PendingUnder key address)
  zero : ∀ address, ¬ l.proxy.PendingUnder 0 address
  answer : ∀ response, ∃ next finished,
    l.proxy.finishInvokeResponse response = .ok (next, finished) ∧
      (∀ address, address ∈ addressesOf finished ↔
        l.proxy.PendingUnder (responseKey response) address)
  garbage : ∀ response, leadingInteger (response.takeWhile fun byte => byte ≠ colon) = none →
    l.proxy.finishInvokeResponse response = .ok (l.proxy, none)

/-! ### The invariant -/

open TimeoutQueueNew

/-- The addresses of the messages of rows. -/
def addresses (rows : List (Row (Option ReqMessage))) : List Nat :=
  rows.flatMap fun r => addressesOf r.ptr

structure Ledger.Sound (l : Ledger) (rows : List (Row (Option ReqMessage))) : Prop where
  buffer : l.proxy.trans.sendBuffer.WellFormed
  tracks : Tracks l.proxy.timeoutQueue rows
  messages : ∀ r ∈ rows, r.key ≠ 0 ∧ r.ptr ≠ none
  distinct : l.sent.Nodup
  conserved : (addresses rows ++ l.finished).Perm l.sent

section

variable {l : Ledger} {rows : List (Row (Option ReqMessage))}

theorem mem_addresses {address : Nat} :
    address ∈ addresses rows ↔ ∃ r ∈ rows, address ∈ addressesOf r.ptr :=
  List.mem_flatMap

theorem pendingUnder_iff {p : ObjectProxy} (h : Tracks p.timeoutQueue rows)
    (key address : Nat) :
    p.PendingUnder key address ↔ ∃ r ∈ rows, r.key = key ∧ address ∈ addressesOf r.ptr := by
  constructor
  · rintro ⟨info, msg, hfind, hptr, haddress⟩
    obtain ⟨r, hr, hkey, rfl⟩ := h.row_of_find hfind
    have hsame : r.ptr = some msg := hptr
    exact ⟨r, hr, hkey, by simp [addressesOf, hsame, haddress]⟩
  · rintro ⟨r, hr, rfl, haddress⟩
    cases hptr : r.ptr with
    | none => simp [addressesOf, hptr] at haddress
    | some msg =>
        refine ⟨r.info, msg, ?_, hptr, ?_⟩
        · rw [h.find_eq, h.rows.find_key hr, Option.map_some]
        · simpa [addressesOf, hptr, eq_comm] using haddress

/-- An address is in one row only. -/
theorem Ledger.Sound.row_unique (h : l.Sound rows) {r s : Row (Option ReqMessage)}
    (hr : r ∈ rows) (hs : s ∈ rows) {address : Nat} (hleft : address ∈ addressesOf r.ptr)
    (hright : address ∈ addressesOf s.ptr) : r = s := by
  have hnodup : (addresses rows).Nodup :=
    (List.nodup_append.mp (h.conserved.nodup_iff.mpr h.distinct)).1
  rw [addresses, List.nodup_flatMap] at hnodup
  by_contra hne
  have hsymm : Std.Symm (Function.onFun List.Disjoint fun r : Row (Option ReqMessage) =>
      addressesOf r.ptr) := ⟨fun _ _ hab _ hleft hright => hab hright hleft⟩
  exact hnodup.2.forall hr hs hne hleft hright

theorem Ledger.Sound.answer (h : l.Sound rows) (response : List UInt8) :
    ∃ next finished, l.proxy.finishInvokeResponse response = .ok (next, finished) ∧
      ((finished = none ∧ next = l.proxy ∧ ∀ r ∈ rows, r.key ≠ responseKey response) ∨
        ∃ r ∈ rows, r.key = responseKey response ∧ addressesOf finished = addressesOf r.ptr ∧
          next = { l.proxy with
            timeoutQueue := l.proxy.timeoutQueue.dropped rows r.key }) := by
  have herase := h.tracks.erase_eq (responseKey response)
  cases hfind : rows.find? fun r => r.key = responseKey response with
  | none =>
      rw [hfind] at herase
      refine ⟨l.proxy, none, ?_, Or.inl ⟨rfl, rfl, ?_⟩⟩
      · simp only [finishInvokeResponse, herase, bind, Except.bind]
      · intro r hr
        simpa using List.find?_eq_none.mp hfind r hr
  | some r =>
      rw [hfind] at herase
      have hr : r ∈ rows := List.mem_of_find?_eq_some hfind
      have hkey : r.key = responseKey response := by simpa using List.find?_some hfind
      obtain ⟨msg, hmsg⟩ := Option.ne_none_iff_exists'.mp (h.messages r hr).2
      simp only [hmsg] at herase
      refine ⟨_, some (finishInvoke { msg with response := response }), ?_,
        Or.inr ⟨r, hr, hkey, ?_, rfl⟩⟩
      · simp only [finishInvokeResponse, herase, bind, Except.bind, hkey]
      · rw [hmsg]
        simp only [addressesOf, Option.toList_some, List.map_singleton, finishInvoke]
        split <;> rfl

theorem Ledger.Sound.settled (h : l.Sound rows) : l.Settled := by
  have hnodup := h.conserved.nodup_iff.mpr h.distinct
  have hdisjoint := List.nodup_append.mp hnodup
  have hpending := pendingUnder_iff h.tracks
  constructor
  · exact hdisjoint.2.1
  · intro address hfinished
    exact h.conserved.mem_iff.mp (List.mem_append_right _ hfinished)
  · intro address hsent
    rcases List.mem_append.mp (h.conserved.mem_iff.mpr hsent) with hmem | hfinished
    · obtain ⟨r, hr, haddress⟩ := mem_addresses.mp hmem
      refine Or.inl ⟨fun hfinished => hdisjoint.2.2 address hmem address hfinished rfl,
        r.key, ?_⟩
      intro other
      rw [hpending]
      constructor
      · rintro ⟨s, hs, rfl, hother⟩
        rw [h.row_unique hr hs haddress hother]
      · rintro rfl
        exact ⟨r, hr, rfl, haddress⟩
    · refine Or.inr ⟨hfinished, ?_⟩
      intro key hkey
      obtain ⟨r, hr, _, haddress⟩ := (hpending key address).mp hkey
      exact hdisjoint.2.2 address (mem_addresses.mpr ⟨r, hr, haddress⟩) address hfinished rfl
  · intro address hzero
    obtain ⟨r, hr, hkey, _⟩ := (hpending 0 address).mp hzero
    exact (h.messages r hr).1 hkey
  · intro response
    obtain ⟨next, finished, hstep, hcases⟩ := h.answer response
    refine ⟨next, finished, hstep, ?_⟩
    intro address
    rw [hpending]
    rcases hcases with ⟨rfl, _, hnone⟩ | ⟨r, hr, hkey, hsame, _⟩
    · constructor
      · intro hmem
        simp [addressesOf] at hmem
      · rintro ⟨r, hr, hkey, _⟩
        exact absurd hkey (hnone r hr)
    · rw [hsame]
      constructor
      · intro haddress
        exact ⟨r, hr, hkey, haddress⟩
      · rintro ⟨s, hs, hother, haddress⟩
        rwa [h.tracks.rows.eq_of_key hr hs (hother.trans hkey.symm)] at haddress
  · intro response hgarbage
    have hkey : responseKey response = 0 := by
      rw [responseKey, atoi_of_none hgarbage]
      rfl
    obtain ⟨next, finished, hstep, hcases⟩ := h.answer response
    rcases hcases with ⟨rfl, rfl, _⟩ | ⟨r, hr, hzero, _⟩
    · exact hstep
    · exact absurd (hzero.trans hkey) (h.messages r hr).1

/-! ### One step -/

theorem Ledger.Sound.respond (h : l.Sound rows) (response : List UInt8) :
    ∃ next rows', ledgerStep l (.respond response) = .ok next ∧ next.Sound rows' := by
  obtain ⟨next, finished, hstep, hcases⟩ := h.answer response
  refine ⟨{ l with proxy := next, finished := l.finished ++ addressesOf finished }, ?_⟩
  rcases hcases with ⟨rfl, rfl, _⟩ | ⟨r, hr, _, hsame, rfl⟩
  · refine ⟨rows, ?_, ?_⟩
    · simp only [ledgerStep, hstep, bind, Except.bind]
    · rw [show addressesOf none = [] from rfl, List.append_nil]
      exact h
  · refine ⟨without rows r.key, ?_, h.buffer, h.tracks.rows.tracks_dropped r.key, ?_,
      h.distinct, ?_⟩
    · simp only [ledgerStep, hstep, bind, Except.bind]
    · exact fun s hs => h.messages s (List.mem_of_mem_filter hs)
    · have hsplit : (addresses rows).Perm
          (addressesOf r.ptr ++ addresses (without rows r.key)) :=
        (h.tracks.rows.perm_without hr).flatMap_right _
      calc (addresses (without rows r.key) ++ (l.finished ++ addressesOf finished)).Perm
            (addressesOf r.ptr ++ addresses (without rows r.key) ++ l.finished) := by
            rw [hsame, ← List.append_assoc]
            exact List.perm_append_comm.trans (by rw [List.append_assoc])
        _ |>.Perm (addresses rows ++ l.finished) := hsplit.symm.append_right _
        _ |>.Perm l.sent := h.conserved

/-- A pushed message joins the rows, or is finished when its key is taken. -/
theorem enqueue_row {p : ObjectProxy} (h : Tracks p.timeoutQueue rows) (msg : ReqMessage)
    (hasSend : Bool) :
    ∃ q rows' finished, p.enqueue msg hasSend =
        ({ p with timeoutQueue := q }, finished) ∧ Tracks q rows' ∧
      ((finished = none ∧ ∃ r, rows' = r :: rows ∧ r.ptr = some msg ∧
          r.key = toUInt32 msg.requestId) ∨
        (addressesOf finished = [msg.address] ∧ rows' = rows)) := by
  cases hfind : rows.find? fun r => r.key = toUInt32 msg.requestId with
  | none =>
      obtain ⟨hok, htracks⟩ :=
        h.push_fresh hfind (some msg) (1000 + msg.beginTime) hasSend
      refine ⟨_, _, none, ?_, htracks, Or.inl ⟨rfl, _, rfl, rfl, rfl⟩⟩
      simp only [enqueue, hok, if_true]
  | some r =>
      have hpush := h.push_present hfind (some msg) (1000 + msg.beginTime) hasSend
      refine ⟨p.timeoutQueue, rows, some (finishInvoke { msg with status := .exc }), ?_, h,
        Or.inr ⟨?_, rfl⟩⟩
      · simp only [enqueue, hpush, Bool.false_eq_true, if_false]
      · simp only [addressesOf, Option.toList_some, List.map_singleton, finishInvoke]
        split <;> rfl

theorem Ledger.Sound.send (h : l.Sound rows) {msg : ReqMessage} {socket : Option Nat}
    {result : WriteResult} (hlegal : Distinct l (.send msg socket result)) :
    ledgerStep l (.send msg socket result) = .error .aborted ∨
      ∃ next rows', ledgerStep l (.send msg socket result) = .ok next ∧ next.Sound rows' := by
  rcases sendReqMessage_ends h.buffer hlegal.2 socket result with
    hfailed | ⟨t, hasSend, taken, hbuffer, hsend⟩
  · exact Or.inl (by simp only [ledgerStep, hfailed, bind, Except.bind])
  obtain ⟨q, rows', finished, henqueue, htracks, hcases⟩ := @enqueue_row rows
    { (l.proxy.prepare msg).1 with trans := t } h.tracks (l.proxy.prepare msg).2 hasSend
  rw [henqueue] at hsend
  refine Or.inr ⟨_, rows', by simp only [ledgerStep, hsend, bind, Except.bind]; rfl, hbuffer,
    htracks, ?_, ?_, ?_⟩
  · rcases hcases with ⟨_, r, rfl, hptr, hkey⟩ | ⟨_, rfl⟩
    · intro s hs
      rcases List.mem_cons.mp hs with rfl | hs
      · refine ⟨?_, by rw [hptr]; simp⟩
        rw [hkey]
        exact prepare_key_ne_zero l.proxy msg
      · exact h.messages s hs
    · exact h.messages
  · exact List.nodup_append.mpr ⟨h.distinct, List.nodup_singleton _, by
      intro a ha b hb hsame
      rw [List.mem_singleton] at hb
      exact hlegal.1 (hb ▸ hsame ▸ ha)⟩
  · have hmore : (msg.address :: (addresses rows ++ l.finished)).Perm
        (l.sent ++ [msg.address]) :=
      (h.conserved.cons _).trans (List.perm_append_singleton _ _).symm
    rcases hcases with ⟨rfl, r, rfl, hptr, _⟩ | ⟨hsame, rfl⟩
    · have hrow : addresses (r :: rows) = msg.address :: addresses rows := by
        rw [addresses, List.flatMap_cons, hptr]
        rfl
      rw [hrow, show addressesOf none = [] from rfl, List.append_nil]
      exact hmore
    · rw [hsame, ← List.append_assoc]
      exact (List.perm_append_singleton _ _).trans hmore

end

/-- The invariant of the runs. -/
def Ledger.Balanced (l : Ledger) : Prop := ∃ rows, l.Sound rows

/-- A step keeps the invariant, unless a failed `connect` or write ends the process. -/
theorem Ledger.Balanced.step {l : Ledger} (h : l.Balanced) {action : LedgerAction}
    (hlegal : Distinct l action) :
    ledgerStep l action = .error .aborted ∨
      ∃ next, ledgerStep l action = .ok next ∧ next.Balanced := by
  obtain ⟨rows, h⟩ := h
  cases action with
  | send msg socket result =>
      rcases h.send hlegal with hfailed | ⟨next, rows', hnext, hsound⟩
      · exact Or.inl hfailed
      · exact Or.inr ⟨next, hnext, rows', hsound⟩
  | respond response =>
      obtain ⟨next, rows', hnext, hsound⟩ := h.respond response
      exact Or.inr ⟨next, hnext, rows', hsound⟩

/-- A client that has not connected, whose counter `id_` is at `id`. -/
def newClient (ip : String) (port uniqueId id : Nat) : Ledger :=
  { proxy := { trans := { ip := ip, port := port }, timeoutQueue := { uniqueId := uniqueId },
               id := id } }

theorem balanced_newClient (ip : String) (port uniqueId id : Nat) :
    (newClient ip port uniqueId id).Balanced := by
  refine ⟨[], Buffer.wellFormed_default, ⟨rfl, rfl, rfl, ?_⟩, ?_, List.nodup_nil, .nil⟩
  · constructor <;> simp
  · simp

/-- Over any order of requests with distinct messages and of responses with any text,
from any value of `id_`: until a failed `connect` or write ends the process, every
message is pending under one key or was finished once. -/
theorem requests_settled (ip : String) (port uniqueId id : Nat)
    (actions : List LedgerAction)
    (hdistinct : Along ledgerStep Distinct (newClient ip port uniqueId id) actions) :
    StaysUpTo (fun fault => fault = .aborted) ledgerStep Ledger.Settled
      (newClient ip port uniqueId id) actions := by
  have hgood : ∀ l : Ledger, l.Balanced → l.Settled := by
    rintro l ⟨rows, h⟩
    exact h.settled
  have hkeep : ∀ (l : Ledger) action next, l.Balanced → Distinct l action →
      ledgerStep l action = .ok next → next.Balanced := by
    intro l action next h hlegal hstep
    rcases h.step hlegal with hfailed | ⟨other, hother, hbalanced⟩
    · rw [hfailed] at hstep
      contradiction
    · rw [hother, Except.ok.injEq] at hstep
      exact hstep ▸ hbalanced
  have hfault : ∀ (l : Ledger) action fault, l.Balanced → Distinct l action →
      ledgerStep l action = .error fault → fault = .aborted := by
    intro l action fault h hlegal hstep
    rcases h.step hlegal with hfailed | ⟨other, hother, _⟩
    · rw [hfailed, Except.error.injEq] at hstep
      exact hstep.symm
    · rw [hother] at hstep
      contradiction
  exact staysUpTo_of_along hgood hkeep hfault (balanced_newClient ip port uniqueId id)
    hdistinct

set_option maxRecDepth 4000 in
/-- Two requests at the wrap of `id_`, a response without an integer, one to the first
request, and the same again. -/
theorem requests_settled_two :
    StaysUpTo (fun fault => fault = .aborted) ledgerStep Ledger.Settled
      (newClient "127.0.0.1" 80 0 4294967294)
      [.send { address := 1 } (some 7) (.accepted 8),
        .send { address := 2 } none .again, .respond [104, 105],
        .respond [45, 49, 58], .respond [45, 49, 58]] := by
  apply requests_settled
  refine .cons_of_ok ⟨by decide, by decide⟩ rfl (.cons_of_ok ⟨by decide, by decide⟩ rfl ?_)
  exact .cons_of_ok trivial rfl (.cons_of_ok trivial rfl (.cons_of_ok trivial rfl trivial))

end ObjectProxy

end Tarsx
