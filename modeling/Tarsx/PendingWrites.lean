/-
Whether what a client connection could not send has an event to be sent at: the bytes in
the send buffer and the send list against the events its descriptor is registered for.
-/
import Tarsx.ClientConnection

namespace Tarsx

open Foundation

namespace ObjectProxy

open Transceiver (Idle ReadEnd retError)

/-- There are bytes in the send buffer or messages on the send list. -/
def Waiting (p : ObjectProxy) : Prop :=
  p.trans.sendBuffer.empty = false ∨ p.timeoutQueue.sendListEmpty = false

/-- What waits on an open descriptor has an event it can be flushed at. -/
def Watched (p : ObjectProxy) : Prop :=
  p.trans.valid = true → p.Waiting → .epollout ∈ p.trans.interest

/-! ### What a message leaves behind -/

/-- The socket takes all of a block, as far as `sendRequest` can tell. -/
def TakesAll (result : WriteResult) (size : Nat) : Prop :=
  0 ≤ toInt32 (result.takes size) ∧ toInt32 size ≤ toInt32 (result.takes size)

/-- Nothing waits before the message and nothing is left of it: the socket takes it all,
or `send` returns a negative number and `push` refuses the id. -/
structure LeavesNothing (p : ObjectProxy) (msg : ReqMessage) (result : WriteResult) : Prop where
  flushed : p.trans.sendBuffer.empty = true
  listed : p.timeoutQueue.sendListEmpty = true
  taken : result.Alive → TakesAll result (p.prepare msg).2.reqData.length ∨
    toInt32 (result.takes (p.prepare msg).2.reqData.length) < 0 ∧
      p.timeoutQueue.find (toUInt32 (p.prepare msg).2.requestId) ≠ none

section Send

variable {p q : ObjectProxy} {msg : ReqMessage} {result : WriteResult}

theorem enqueue_sendListEmpty (msg : ReqMessage) (hasSend : Bool) :
    (p.enqueue msg hasSend).1.timeoutQueue.sendListEmpty = true ↔
      p.timeoutQueue.sendListEmpty = true ∧
        (hasSend = true ∨ p.timeoutQueue.find (toUInt32 msg.requestId) ≠ none) := by
  have hqueue : (p.enqueue msg hasSend).1.timeoutQueue =
      (p.timeoutQueue.push (some msg) (toUInt32 msg.requestId) (1000 + msg.beginTime)
        hasSend).2 := by
    simp only [enqueue]
    split <;> rfl
  rw [hqueue]
  cases hfind : p.timeoutQueue.find (toUInt32 msg.requestId) with
  | some info =>
      have hsame : (p.timeoutQueue.push (some msg) (toUInt32 msg.requestId)
          (1000 + msg.beginTime) hasSend).2 = p.timeoutQueue := by
        simp only [TimeoutQueueNew.push, hfind]
      simp [hsame]
  | none =>
      obtain ⟨info, node, _, _, hsend, _, _⟩ :=
        TimeoutQueueNew.push_of_fresh (some msg) (1000 + msg.beginTime) hasSend hfind
      rw [TimeoutQueueNew.sendListEmpty, hsend]
      cases hasSend with
      | true => simp [TimeoutQueueNew.sendListEmpty]
      | false => simp

/-- What a write on an empty buffer comes to: `send` returned a negative number, or the
socket took all, or something is kept. -/
theorem sendRequest_leaves {t t' : Transceiver} (h : t.sendBuffer.WellFormed)
    (hnone : t.sendBuffer.contents = []) {data : List UInt8}
    (hsize : data.length < Buffer.maxBufferSize) (halive : result.Alive)
    {out : Int × List UInt8} (hstep : t.sendRequest data result = .ok (t', out)) :
    (toInt32 (result.takes data.length) < 0 ∧ out.1 = retError ∧
        t'.sendBuffer.empty = true) ∨
      (TakesAll result data.length ∧ out.1 ≠ retError ∧ t'.sendBuffer.empty = true) ∨
      (0 ≤ toInt32 (result.takes data.length) ∧ ¬ TakesAll result data.length ∧
        t'.sendBuffer.empty = false) := by
  rw [Transceiver.sendRequest_of_empty h hnone data halive] at hstep
  split at hstep
  · rename_i hneg
    simp only [Except.ok.injEq, Prod.mk.injEq] at hstep
    obtain ⟨rfl, rfl⟩ := hstep
    exact Or.inl ⟨hneg, rfl, h.empty_iff.mpr hnone⟩
  · rename_i hneg
    split at hstep
    · rename_i hpart
      have hle := toInt32_le data.length
      have hfits : t.sendBuffer.contents.length +
          (data.drop (toInt32 (result.takes data.length)).toNat).length <
            Buffer.maxBufferSize := by
        rw [hnone, List.length_nil, List.length_drop]
        omega
      obtain ⟨b, hpush, hwell, hcontents⟩ := Buffer.pushData_spec h hfits
      rw [hpush] at hstep
      simp only [bind, Except.bind, Except.ok.injEq, Prod.mk.injEq] at hstep
      obtain ⟨rfl, rfl⟩ := hstep
      refine Or.inr (Or.inr ⟨by omega, fun hall => absurd hall.2 (by omega), ?_⟩)
      have hkept : b.contents ≠ [] := by
        rw [hcontents, hnone, List.nil_append, ne_eq, List.drop_eq_nil_iff]
        omega
      exact Bool.eq_false_iff.mpr fun hempty => hkept (hwell.empty_iff.mp hempty)
    · rename_i hpart
      simp only [Except.ok.injEq, Prod.mk.injEq] at hstep
      obtain ⟨rfl, rfl⟩ := hstep
      refine Or.inr (Or.inl ⟨⟨by omega, by omega⟩, ?_, h.empty_iff.mpr hnone⟩)
      rw [retError]
      omega

/-- What waits once the message is pushed. -/
theorem waiting_enqueue (t : Transceiver) (hasSend : Bool) :
    (enqueue { (p.prepare msg).1 with trans := t } (p.prepare msg).2 hasSend).1.Waiting ↔
      t.sendBuffer.empty = false ∨ ¬ (p.timeoutQueue.sendListEmpty = true ∧ (hasSend = true ∨
        p.timeoutQueue.find (toUInt32 (p.prepare msg).2.requestId) ≠ none)) := by
  rw [Waiting, enqueue_keeps, ← Bool.not_eq_true, ← Bool.not_eq_true, enqueue_sendListEmpty]
  rfl

/-- After a message something waits, unless it leaves nothing. -/
theorem waiting_of_send {socket : Option Nat} {out : Option ReqMessage × List UInt8}
    (hbuffer : p.trans.sendBuffer.WellFormed)
    (hsize : (p.prepare msg).2.reqData.length < Buffer.maxBufferSize)
    (hstep : p.sendReqMessage msg socket result = .ok (q, out)) :
    q.Waiting ↔ ¬ LeavesNothing p msg result := by
  rw [sendReqMessage_eq] at hstep
  obtain ⟨base, hbase, hstep⟩ := ok_of_bind_ok hstep
  obtain ⟨hsame, _⟩ := connectFirst_keeps hbase
  have hwell : base.sendBuffer.WellFormed := hsame ▸ hbuffer
  by_cases hlisted : p.timeoutQueue.sendListEmpty = true
  · rw [if_pos hlisted] at hstep
    obtain ⟨⟨t, ret, taken⟩, hsend, hstep⟩ := ok_of_bind_ok hstep
    simp only [Except.ok.injEq, Prod.mk.injEq] at hstep
    rw [← hstep.1, waiting_enqueue]
    simp only [hlisted, true_and, decide_eq_true_eq, not_or, not_not]
    by_cases hkept : base.sendBuffer.contents = []
    · have halive : result.Alive := by
        by_contra hfatal
        rw [Transceiver.sendRequest_of_not_alive hwell hkept _ hfatal] at hsend
        cases hsend
      have hflushed : p.trans.sendBuffer.empty = true := hsame ▸ hwell.empty_iff.mpr hkept
      rcases sendRequest_leaves hwell hkept hsize halive hsend with
        ⟨hneg, hret, hempty⟩ | ⟨hall, hret, hempty⟩ | ⟨hpos, hpart, hempty⟩
      · -- the message counts as refused and goes to the send list, unless its id is taken
        constructor
        · rintro (hwaits | ⟨_, hfresh⟩) hnothing
          · rw [hempty] at hwaits
            cases hwaits
          · rcases hnothing.taken halive with hall | ⟨_, htaken⟩
            · exact absurd hall.1 (by omega)
            · exact htaken hfresh
        · intro hleaves
          refine Or.inr ⟨hret, ?_⟩
          by_contra htaken
          exact hleaves ⟨hflushed, hlisted, fun _ => Or.inr ⟨hneg, htaken⟩⟩
      · constructor
        · rintro (hwaits | ⟨herror, _⟩)
          · rw [hempty] at hwaits
            cases hwaits
          · exact absurd herror hret
        · exact fun hleaves => absurd ⟨hflushed, hlisted, fun _ => Or.inl hall⟩ hleaves
      · refine ⟨fun _ hnothing => ?_, fun _ => Or.inl hempty⟩
        rcases hnothing.taken halive with hall | ⟨hneg, _⟩
        · exact hpart hall
        · omega
    · rw [Transceiver.sendRequest_of_kept hwell hkept] at hsend
      simp only [Except.ok.injEq, Prod.mk.injEq] at hsend
      have hwaits := Transceiver.empty_eq_false hwell hkept
      refine ⟨fun _ hnothing => ?_, fun _ => Or.inl (hsend.1 ▸ hwaits)⟩
      rw [hsame, hnothing.flushed] at hwaits
      cases hwaits
  · rw [if_neg hlisted] at hstep
    simp only [Except.ok.injEq, Prod.mk.injEq] at hstep
    rw [← hstep.1, waiting_enqueue]
    exact ⟨fun _ hnothing => hlisted hnothing.listed, fun _ => Or.inr fun hnil => hlisted hnil.1⟩

end Send

/-! ### Runs -/

/-- The frame of a message fits into the send buffer. -/
def Fits (p : ObjectProxy) : ConnectionAction → Prop
  | .send msg _ _ => (p.prepare msg).2.reqData.length < Buffer.maxBufferSize
  | _ => True

instance (p : ObjectProxy) : (action : ConnectionAction) → Decidable (Fits p action)
  | .send msg _ _ =>
      inferInstanceAs (Decidable ((p.prepare msg).2.reqData.length < Buffer.maxBufferSize))
  | .writable _ _ => .isTrue trivial
  | .readable _ _ => .isTrue trivial
  | .respond _ => .isTrue trivial
  | .epoll _ => .isTrue trivial

/-- A message leaves nothing or its descriptor is registered for `EPOLLOUT`, and no epoll
call takes that registration away while something waits. -/
def KeepsWatch (p : ObjectProxy) : ConnectionAction → Prop
  | .send msg socket result => ∀ base, connectFirst p.trans socket = .ok base →
      base.valid = true → .epollout ∈ base.interest ∨ LeavesNothing p msg result
  | .epoll call => p.trans.valid = true → p.Waiting → .epollout ∈ call.apply p.trans.interest
  | _ => True

/-- The invariant of the runs that keep the watch. -/
structure Attended (p : ObjectProxy) : Prop where
  idle : Idle p.trans
  buffer : p.trans.sendBuffer.WellFormed
  watched : Watched p

section Steps

variable {p q : ObjectProxy} {action : ConnectionAction}

/-- After a message: what waits is watched exactly when the message kept the watch. -/
theorem watched_of_send {msg : ReqMessage} {socket : Option Nat} {result : WriteResult}
    {out : Option ReqMessage × List UInt8} (hbuffer : p.trans.sendBuffer.WellFormed)
    (hsize : Fits p (.send msg socket result))
    (hstep : p.sendReqMessage msg socket result = .ok (q, out)) :
    Watched q ↔ KeepsWatch p (.send msg socket result) := by
  obtain ⟨base, b, hbase, htrans⟩ := sendReqMessage_keeps hstep
  have hwaiting := waiting_of_send hbuffer hsize hstep
  have hvalid : q.trans.valid = base.valid := by rw [htrans]; rfl
  have hinterest : q.trans.interest = base.interest := by rw [htrans]
  rw [Watched, hvalid, hinterest, hwaiting]
  constructor
  · intro hwatch other hother hopen
    rw [hbase, Except.ok.injEq] at hother
    subst hother
    by_cases hleaves : LeavesNothing p msg result
    · exact Or.inr hleaves
    · exact Or.inl (hwatch hopen hleaves)
  · intro hkeeps hopen hleaves
    exact (hkeeps base hbase hopen).resolve_right hleaves

theorem watched_of_epoll {call : EpollCall} :
    Watched { p with trans := p.trans.epollCtl call } ↔ KeepsWatch p (.epoll call) := by
  by_cases hopen : p.trans.valid = true
  · rw [Watched, Transceiver.epollCtl, if_pos hopen]
    rfl
  · rw [Watched, Transceiver.epollCtl, if_neg hopen]
    exact ⟨fun _ hvalid => absurd hvalid hopen, fun _ hvalid => absurd hvalid hopen⟩

theorem sendReqMessage_wellFormed {msg : ReqMessage} {socket : Option Nat}
    {result : WriteResult} {out : Option ReqMessage × List UInt8}
    (hbuffer : p.trans.sendBuffer.WellFormed) (hsize : Fits p (.send msg socket result))
    (hstep : p.sendReqMessage msg socket result = .ok (q, out)) :
    q.trans.sendBuffer.WellFormed := by
  rcases sendReqMessage_ends hbuffer hsize socket result with
    hfailed | ⟨t, hasSend, taken, hwell, hsend⟩
  · rw [hfailed] at hstep
    cases hstep
  · rw [hsend, Except.ok.injEq, Prod.mk.injEq] at hstep
    rw [← hstep.1, enqueue_keeps]
    exact hwell

/-- A read that does not run dry closes the descriptor. -/
theorem leaves_cases (t : Transceiver) (ending : ReadEnd) :
    ending.leaves t = t ∨ (ending.leaves t).valid = false ∧
      (t.sendBuffer.WellFormed → (ending.leaves t).sendBuffer.WellFormed) := by
  have hclose : t.close = t ∨ t.close.valid = false ∧
      (t.sendBuffer.WellFormed → t.close.sendBuffer.WellFormed) := by
    by_cases hopen : t.valid = true
    · rw [Transceiver.close, if_pos hopen]
      exact Or.inr ⟨rfl, fun h => (Buffer.clear_spec h).1⟩
    · rw [Transceiver.close, if_neg hopen]
      exact Or.inl rfl
  cases ending with
  | dry => exact Or.inl rfl
  | endOfFile => exact hclose
  | error => exact hclose

theorem Attended.step (h : Attended p) (hfits : Fits p action) (hkeeps : KeepsWatch p action)
    (hstep : connectionStep p action = .ok q) : Attended q := by
  cases action with
  | send msg socket result =>
      obtain ⟨⟨last, out⟩, hsend, hstep⟩ := ok_of_bind_ok hstep
      rw [Except.ok.injEq] at hstep
      subst hstep
      obtain ⟨base, b, hbase, htrans⟩ := sendReqMessage_keeps hsend
      obtain ⟨_, hsame⟩ := connectFirst_keeps hbase
      refine ⟨h.idle.of_eq ?_, sendReqMessage_wellFormed h.buffer hfits hsend,
        (watched_of_send h.buffer hfits hsend).mpr hkeeps⟩
      rw [htrans]
      exact hsame
  | writable result results =>
      obtain ⟨⟨last, out⟩, hrequest, hstep⟩ := ok_of_bind_ok hstep
      rw [Except.ok.injEq] at hstep
      subst hstep
      obtain ⟨b, rfl, hempty, hwell⟩ := doRequest_keeps hrequest
      refine ⟨h.idle.of_eq rfl, hwell h.buffer, ?_⟩
      intro hopen hwaits
      refine h.watched hopen ?_
      rcases hwaits with hkept | hlisted
      · refine Or.inl (Bool.eq_false_iff.mpr fun hnone => ?_)
        rw [hempty hnone, hnone] at hkept
        cases hkept
      · exact Or.inr hlisted
  | readable call ending =>
      obtain ⟨b, hread, hwell, hnil⟩ := readable_spec h.idle call ending
      rw [hread, Except.ok.injEq] at hstep
      subst hstep
      rcases leaves_cases p.trans ending with hsame | ⟨hclosed, hkept⟩
      · rw [hsame]
        exact ⟨⟨hwell, hnil⟩, h.buffer, h.watched⟩
      · refine ⟨⟨hwell, hnil⟩, hkept h.buffer, ?_⟩
        intro hopen
        exact absurd (hclosed.symm.trans hopen) Bool.false_ne_true
  | respond response =>
      obtain ⟨⟨last, out⟩, hrespond, hstep⟩ := ok_of_bind_ok hstep
      rw [Except.ok.injEq] at hstep
      subst hstep
      obtain ⟨htrans, hsend⟩ := finishInvokeResponse_keeps hrespond
      refine ⟨by rw [htrans]; exact h.idle, by rw [htrans]; exact h.buffer, ?_⟩
      intro hopen hwaits
      rw [htrans] at hopen ⊢
      refine h.watched hopen ?_
      rcases hwaits with hkept | hlisted
      · exact Or.inl (htrans ▸ hkept)
      · refine Or.inr (Bool.eq_false_iff.mpr fun hnone => ?_)
        rw [TimeoutQueueNew.sendListEmpty, hsend (List.isEmpty_iff.mp hnone)] at hlisted
        cases hlisted
  | epoll call =>
      rw [connectionStep, Except.ok.injEq] at hstep
      subst hstep
      obtain ⟨hsent, hreceived⟩ := epollCtl_keeps p.trans call
      exact ⟨h.idle.of_eq hreceived, hsent.symm ▸ h.buffer, watched_of_epoll.mpr hkeeps⟩

/-- A step that does not keep the watch leaves something waiting without it. -/
theorem Attended.unwatched (h : Attended p) (hfits : Fits p action)
    (hloses : ¬ KeepsWatch p action) (hstep : connectionStep p action = .ok q) :
    ¬ Watched q := by
  cases action with
  | send msg socket result =>
      obtain ⟨⟨last, out⟩, hsend, hstep⟩ := ok_of_bind_ok hstep
      rw [Except.ok.injEq] at hstep
      subst hstep
      exact fun hwatch => hloses ((watched_of_send h.buffer hfits hsend).mp hwatch)
  | writable result results => exact absurd trivial hloses
  | readable call ending => exact absurd trivial hloses
  | respond response => exact absurd trivial hloses
  | epoll call =>
      rw [connectionStep, Except.ok.injEq] at hstep
      subst hstep
      exact fun hwatch => hloses (watched_of_epoll.mp hwatch)

/-- `sendReqMessage` on a connected transceiver fails only in a write that leaves nothing
behind. -/
theorem leavesNothing_of_fault {msg : ReqMessage} {socket : Option Nat}
    {result : WriteResult} {base : Transceiver} {fault : Fault}
    (hbuffer : p.trans.sendBuffer.WellFormed) (hsize : Fits p (.send msg socket result))
    (hbase : connectFirst p.trans socket = .ok base)
    (hstep : p.sendReqMessage msg socket result = .error fault) :
    LeavesNothing p msg result := by
  obtain ⟨hsame, _⟩ := connectFirst_keeps hbase
  have hwell : base.sendBuffer.WellFormed := hsame ▸ hbuffer
  simp only [sendReqMessage_eq, hbase, bind, Except.bind] at hstep
  by_cases hlisted : p.timeoutQueue.sendListEmpty = true
  · rw [if_pos hlisted] at hstep
    by_cases hkept : base.sendBuffer.contents = []
    · refine ⟨hsame ▸ hwell.empty_iff.mpr hkept, hlisted, fun halive => ?_⟩
      obtain ⟨b, ret, taken, hsend, _⟩ :=
        Transceiver.sendRequest_of_alive hwell hkept hsize halive
      rw [hsend] at hstep
      cases hstep
    · rw [Transceiver.sendRequest_of_kept hwell hkept] at hstep
      cases hstep
  · rw [if_neg hlisted] at hstep
    cases hstep

theorem Attended.keepsWatch_of_fault (h : Attended p) (hfits : Fits p action) {fault : Fault}
    (hstep : connectionStep p action = .error fault) : KeepsWatch p action := by
  cases action with
  | send msg socket result =>
      intro base hbase _
      cases hsend : p.sendReqMessage msg socket result with
      | error other => exact Or.inr (leavesNothing_of_fault h.buffer hfits hbase hsend)
      | ok out =>
          simp only [connectionStep, hsend, bind, Except.bind] at hstep
          cases hstep
  | writable result results => trivial
  | readable call ending => trivial
  | respond response => trivial
  | epoll call => contradiction

end Steps

theorem attended_newProxy (ip : String) (port uniqueId : Nat) :
    Attended (newProxy ip port uniqueId) where
  idle := (open_newProxy ip port uniqueId).idle
  buffer := Buffer.wellFormed_default
  watched := fun hopen => absurd hopen (by simp [newProxy, Transceiver.valid])

/-- Over any run of a client connection: what waits on the open descriptor has an event to
be flushed at, in every state reached, exactly when every message leaves nothing or finds
`EPOLLOUT` registered and no epoll call takes that away while something waits. -/
theorem watched_iff (ip : String) (port uniqueId : Nat) (actions : List ConnectionAction)
    (hfits : Along connectionStep Fits (newProxy ip port uniqueId) actions) :
    StaysUpTo (fun _ => True) connectionStep Watched (newProxy ip port uniqueId) actions ↔
      Along connectionStep KeepsWatch (newProxy ip port uniqueId) actions := by
  apply staysUpTo_iff_along (fun p h => Attended.watched h)
    (fun p action q h hlegal hkeeps hstep => Attended.step h hlegal hkeeps hstep) _
    (fun p action q h hlegal hloses hstep => Attended.unwatched h hlegal hloses hstep)
    (attended_newProxy ip port uniqueId) hfits
  intro p action fault h hlegal hstep
  exact ⟨fun _ => Attended.keepsWatch_of_fault h hlegal hstep, fun _ => trivial⟩

set_option maxRecDepth 4000 in
/-- A message sent whole, a registration for both events, a message that is sent in part,
and the flush of its rest. -/
theorem watched_both_events :
    StaysUpTo (fun _ => True) connectionStep Watched (newProxy "127.0.0.1" 80 0)
      [.send {} (some 7) (.accepted 7), .epoll (.mod .epollin [.epollout]),
        .send {} none (.accepted 3), .writable (.accepted 4) []] := by
  refine (watched_iff "127.0.0.1" 80 0 _ ?_).mpr ?_
  · exact .cons_of_ok (by decide) rfl (.cons_of_ok trivial rfl
      (.cons_of_ok (by decide) rfl (.cons_of_ok trivial rfl trivial)))
  · refine .cons_of_ok ?_ rfl (.cons_of_ok ?_ rfl (.cons_of_ok ?_ rfl
      (.cons_of_ok trivial rfl trivial)))
    · exact fun base _ _ => Or.inr ⟨rfl, rfl, fun _ => Or.inl ⟨by decide, by decide⟩⟩
    · exact fun _ _ => by decide
    · intro base hbase _
      rw [Except.ok.inj hbase.symm]
      exact Or.inl (by decide)

set_option maxRecDepth 4000 in
/-- A first message that the socket does not take at once: its bytes are kept, and the
descriptor is registered for `EPOLLIN` alone. -/
theorem first_message_unwatched :
    ∃ p, run connectionStep (newProxy "127.0.0.1" 80 0) [.send {} (some 7) .again] = .ok p ∧
      p.trans.valid = true ∧ p.trans.sendBuffer.empty = false ∧
      p.trans.interest = [.epollin] ∧
      ¬ StaysUpTo (fun _ => True) connectionStep Watched (newProxy "127.0.0.1" 80 0)
        [.send {} (some 7) .again] := by
  refine ⟨_, rfl, rfl, rfl, rfl, ?_⟩
  intro hstays
  have hwatch := hstays.last rfl
  exact absurd (hwatch rfl (Or.inl rfl)) (by decide)

end ObjectProxy

end Tarsx
