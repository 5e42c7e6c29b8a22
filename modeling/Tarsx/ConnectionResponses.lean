/-
The responses of one connection: what the socket took and what is kept against the
responses passed to `send`, until a call returns a negative value.
-/
import Tarsx.Connection
import Tarsx.Foundation.Run

namespace Tarsx

open Foundation

/-- A connection with the responses passed to it, the bytes its socket took, and whether a
call returned a negative value. -/
structure Outgoing where
  connection : Connection
  responses : List (List UInt8) := []
  taken : List UInt8 := []
  refused : Bool := false
deriving DecidableEq, Repr

/-- A call of `send(buffer, ip, port)`, as `processPipe` makes it, or of `send()`. -/
inductive ResponseAction where
  | send (response : List UInt8) (result : WriteResult)
  | flush (results : List WriteResult)
deriving DecidableEq, Repr

namespace Outgoing

/-- The state after a call that returned `status` and wrote `taken`. -/
def returned (s : Outgoing) (c : Connection) (status : Int) (taken : List UInt8) : Outgoing :=
  { s with
    connection := c, taken := s.taken ++ taken, refused := s.refused || decide (status < 0) }

def step (maxIOVcount : Nat) (s : Outgoing) : ResponseAction → Except Fault Outgoing
  | .send response result => do
      let (c, (status, taken)) ← s.connection.send maxIOVcount response false [result]
      .ok ({ s with responses := s.responses ++ [response] }.returned c status taken)
  | .flush results => do
      let (c, (status, taken)) ← s.connection.sendPending maxIOVcount results
      .ok (s.returned c status taken)

/-- The bytes held in `sendBuffer_`. -/
def held (s : Outgoing) : List UInt8 := s.connection.sendBuffer.flatMap Connection.Slice.bytes

/-- Until a call returns a negative value, what was taken and what is held are the
responses in order. -/
def Intact (s : Outgoing) : Prop :=
  s.refused = false → s.taken ++ s.held = s.responses.flatten

/-- `::send` gives a value whose `int` is -1. -/
def ReturnsMinusOne (response : List UInt8) : WriteResult → Prop
  | .accepted n => toInt32 (min n response.length) = -1
  | .again => False
  | .interrupted => False
  | .failed => True

/-- The socket takes the whole response, or the call returns a negative value: the
connection is marked for closing or the write fails. -/
def SentWhole (s : Outgoing) : ResponseAction → Prop
  | .send response result => s.refused = true ∨ response = [] ∨ s.connection.close = true ∨
      ReturnsMinusOne response result ∨ ∃ n, result = .accepted n ∧ response.length ≤ n
  | .flush _ => True

/-- Nothing is ever kept, and nothing was lost so far. -/
structure Lossless (s : Outgoing) : Prop where
  unbuffered : s.connection.sendBuffer = []
  intact : s.Intact

section Steps

variable {maxIOVcount : Nat} {s t : Outgoing}

/-- The status that `send(buffer, ip, port)` returns when nothing is kept. -/
def sendStatus (close : Bool) (bytes : Int) : Int :=
  if bytes = -1 then -1 else if close then -2 else 0

theorem sendStatus_neg_iff (close : Bool) (bytes : Int) :
    sendStatus close bytes < 0 ↔ bytes = -1 ∨ close = true := by
  unfold sendStatus
  split
  · rename_i hminus
    exact ⟨fun _ => Or.inl hminus, fun _ => by decide⟩
  · rename_i hbytes
    cases close with
    | true => exact ⟨fun _ => Or.inr rfl, fun _ => by decide⟩
    | false => simp [hbytes]

/-- A response goes to the socket as far as the socket takes it, and the connection stays
as it is. -/
theorem send_of_unbuffered {c : Connection} (hnone : c.sendBuffer = [])
    (response : List UInt8) (result : WriteResult) :
    c.send maxIOVcount response false [result] =
      .ok (c, (sendStatus c.close (Connection.tcpSend response result).1,
        (Connection.tcpSend response result).2)) := by
  obtain ⟨⟨bytes, taken⟩, hsent⟩ :
      ∃ sent, Connection.tcpSend response ([result].headD .again) = sent := ⟨_, rfl⟩
  have hsent' : Connection.tcpSend response result = (bytes, taken) := hsent
  rw [Connection.send, if_neg Bool.false_ne_true, hsent, hsent']
  by_cases hminus : bytes = -1
  · simp only [sendStatus, if_pos hminus]
  · cases hclose : c.close <;>
      simp [sendStatus, hminus, Connection.sendEnd, hnone, hclose, bind, Except.bind]

theorem tcpSend_minusOne_iff {response : List UInt8} (hsome : response ≠ [])
    (result : WriteResult) :
    (Connection.tcpSend response result).1 = -1 ↔ ReturnsMinusOne response result := by
  have hlength : response.length ≠ 0 := fun hzero => hsome (List.length_eq_zero_iff.mp hzero)
  rw [Connection.tcpSend.eq_def, if_neg hlength]
  cases result with
  | accepted n => exact Iff.rfl
  | again => simp [ReturnsMinusOne]
  | interrupted => simp [ReturnsMinusOne]
  | failed => exact ⟨fun _ => trivial, fun _ => rfl⟩

theorem tcpSend_whole_iff {response : List UInt8} (hsome : response ≠ [])
    (result : WriteResult) :
    (Connection.tcpSend response result).2 = response ↔
      ∃ n, result = .accepted n ∧ response.length ≤ n := by
  have hlength : response.length ≠ 0 := fun hzero => hsome (List.length_eq_zero_iff.mp hzero)
  rw [Connection.tcpSend.eq_def, if_neg hlength]
  cases result with
  | accepted n =>
      simp only [WriteResult.accepted.injEq, exists_eq_left']
      constructor
      · intro hwhole
        rw [← hwhole, List.length_take]
        exact Nat.min_le_left _ _
      · exact List.take_of_length_le
  | again => simp [hsome.symm]
  | interrupted => simp [hsome.symm]
  | failed => simp [hsome.symm]

/-- A response that is sent keeps the stream intact exactly when it is sent whole. -/
theorem Lossless.intact_send_iff (h : s.Lossless) (response : List UInt8)
    (result : WriteResult) :
    ({ s with responses := s.responses ++ [response] }.returned s.connection
        (sendStatus s.connection.close (Connection.tcpSend response result).1)
        (Connection.tcpSend response result).2).Intact ↔
      SentWhole s (.send response result) := by
  have hheld : s.connection.sendBuffer.flatMap Connection.Slice.bytes = [] := by
    rw [h.unbuffered]
    rfl
  by_cases hrefused : s.refused = true
  · simp [Intact, returned, SentWhole, hrefused]
  rw [Bool.not_eq_true] at hrefused
  have hbefore : s.taken = s.responses.flatten := by
    have hintact := h.intact hrefused
    rwa [held, hheld, List.append_nil] at hintact
  simp only [Intact, returned, held, hheld, hrefused, Bool.false_or, decide_eq_false_iff_not,
    sendStatus_neg_iff, not_or, hbefore, List.append_nil, List.flatten_append,
    List.flatten_singleton, List.append_cancel_left_eq, SentWhole, Bool.false_eq_true, false_or]
  by_cases hsome : response = []
  · simp [hsome, Connection.tcpSend]
  · rw [tcpSend_minusOne_iff hsome, tcpSend_whole_iff hsome]
    tauto

/-- A step never faults and keeps nothing, and it leaves the stream intact exactly when it
sends what it is given whole. -/
theorem Lossless.step_ok (h : s.Lossless) (maxIOVcount : Nat) (action : ResponseAction) :
    ∃ t, step maxIOVcount s action = .ok t ∧ t.connection.sendBuffer = [] ∧
      (t.Intact ↔ SentWhole s action) := by
  cases action with
  | flush results =>
      refine ⟨s.returned s.connection 0 [], ?_, h.unbuffered, ?_⟩
      · simp only [step, Connection.sendPending, if_pos h.unbuffered, bind, Except.bind]
      · have hsame : (s.returned s.connection 0 []).Intact ↔ s.Intact := by
          simp only [Intact, returned, held, List.append_nil, Int.lt_irrefl, decide_false,
            Bool.or_false]
        exact hsame.trans ⟨fun _ => trivial, fun _ => h.intact⟩
  | send response result =>
      refine ⟨_, ?_, ?_, h.intact_send_iff response result⟩
      · rw [step, send_of_unbuffered h.unbuffered]
        rfl
      · exact h.unbuffered

end Steps

/-- Over any order of responses and writable events on a new connection, with any outcome
of the writes: until a call returns a negative value the bytes the socket took and the bytes
held are the responses in order, exactly when every response is sent whole. -/
theorem responses_intact_iff (maxIOVcount uid bindAdapter listenfd : Nat) (fd : Int)
    (ip : String) (port : Nat) (close : Bool) (actions : List ResponseAction) :
    Stays (step maxIOVcount) Intact
        { connection := (Connection.accepted bindAdapter listenfd fd ip port close).init uid }
        actions ↔
      Along (step maxIOVcount) SentWhole
        { connection := (Connection.accepted bindAdapter listenfd fd ip port close).init uid }
        actions := by
  have hnew : Lossless
      { connection := (Connection.accepted bindAdapter listenfd fd ip port close).init uid } :=
    ⟨rfl, fun _ => rfl⟩
  refine stays_iff_along (fun s h => Lossless.intact h) ?_ ?_ hnew
  · intro s action h hwhole
    obtain ⟨t, hstep, hnone, hintact⟩ := h.step_ok maxIOVcount action
    exact ⟨t, hstep, hnone, hintact.mpr hwhole⟩
  · intro s action t h hlost hstep
    obtain ⟨t', hstep', _, hintact⟩ := h.step_ok maxIOVcount action
    rw [hstep, Except.ok.injEq] at hstep'
    rw [hstep', hintact]
    exact hlost

/-- The socket takes two bytes of the first response: the third is in no buffer, and the
second response follows the gap. -/
theorem short_write_loses_tail :
    ∃ s, run (step 1024)
        { connection := (Connection.accepted 0 3 7 "127.0.0.1" 80 false).init 1 }
        [.send [97, 98, 99] (.accepted 2), .send [100] (.accepted 1)] = .ok s ∧
      s.refused = false ∧ s.taken = [97, 98, 100] ∧ s.held = [] ∧
      ¬ Stays (step 1024) Intact
        { connection := (Connection.accepted 0 3 7 "127.0.0.1" 80 false).init 1 }
        [.send [97, 98, 99] (.accepted 2), .send [100] (.accepted 1)] := by
  refine ⟨_, rfl, rfl, rfl, rfl, ?_⟩
  intro hstays
  obtain ⟨s, hrun, hintact⟩ := hstays.run_ok
  have hs := Except.ok.inj hrun
  rw [← hs] at hintact
  exact absurd (hintact rfl) (by decide)

end Outgoing

end Tarsx
