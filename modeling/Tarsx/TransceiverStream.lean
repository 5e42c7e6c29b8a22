/-
The byte stream of one client connection over any sequence of `sendRequest` calls
and flushes: what the socket has taken and what is still kept are together the
requests that were not refused.
-/
import Tarsx.BufferSpec
import Tarsx.Foundation.Run
import Tarsx.Transceiver

namespace Tarsx

open Foundation

/-- The outcomes of a write that do not end the process. -/
inductive WriteResult.Alive : WriteResult → Prop where
  | accepted (n : Nat) : Alive (.accepted n)
  | again : Alive .again

/-- How many of the bytes it is offered a write takes. -/
def WriteResult.count (result : WriteResult) (offered : Nat) : Nat :=
  match result with
  | .accepted n => min n offered
  | _ => 0

/-- How many bytes of a block of `size` bytes the socket takes: `send` offers it the
low 32 bits of the size. -/
def WriteResult.takes (result : WriteResult) (size : Nat) : Nat :=
  result.count (size % 2 ^ 32)

theorem WriteResult.count_le (result : WriteResult) (offered : Nat) :
    result.count offered ≤ offered := by
  cases result with
  | accepted n => exact Nat.min_le_right _ _
  | again => exact Nat.zero_le _
  | interrupted => exact Nat.zero_le _
  | failed => exact Nat.zero_le _

theorem WriteResult.takes_le_mod (result : WriteResult) (size : Nat) :
    result.takes size ≤ size % 2 ^ 32 :=
  result.count_le _

theorem WriteResult.takes_le (result : WriteResult) (size : Nat) :
    result.takes size ≤ size :=
  (result.takes_le_mod size).trans (Nat.mod_le _ _)

theorem toInt32_takes_neg_iff (result : WriteResult) (size : Nat) :
    toInt32 (result.takes size) < 0 ↔ 2 ^ 31 ≤ result.takes size := by
  have hle := result.takes_le_mod size
  have hmod : size % 2 ^ 32 < 2 ^ 32 := Nat.mod_lt _ (by decide)
  rw [toInt32_neg_iff, Nat.mod_eq_of_lt (hle.trans_lt hmod)]

namespace Transceiver

/-- The socket takes a beginning of what it is offered, and `send` returns its
length as an `int`. -/
theorem send_spec (data : List UInt8) {result : WriteResult} (halive : result.Alive) :
    send data result = .ok (toInt32 (result.takes data.length),
      data.take (result.takes data.length)) := by
  have hoffered : (data.take (data.length % 2 ^ 32)).length = data.length % 2 ^ 32 := by
    rw [List.length_take, Nat.min_eq_left (Nat.mod_le _ _)]
  cases halive with
  | accepted n =>
      simp only [send, hoffered, List.take_take, WriteResult.takes, WriteResult.count]
  | again => rfl

/-- The condition under which `sendRequest` keeps what the socket does not take.  It
compares what the socket took with the size as an `int`, which says something only if
that is not negative. -/
def KeepsRest (size : Nat) (result : WriteResult) : Prop :=
  size < 2 ^ 31 ∨ size % 2 ^ 32 < 2 ^ 31 ∧ result.takes size < size % 2 ^ 32

section

variable {t : Transceiver}

theorem empty_eq_false (h : t.sendBuffer.WellFormed) (hkept : t.sendBuffer.contents ≠ []) :
    t.sendBuffer.empty = false :=
  Bool.eq_false_iff.mpr fun hempty => hkept (h.empty_iff.mp hempty)

/-- A request is refused while bytes of an earlier one are kept; nothing is
written and nothing changes. -/
theorem sendRequest_of_kept (h : t.sendBuffer.WellFormed)
    (hkept : t.sendBuffer.contents ≠ []) (data : List UInt8) (result : WriteResult) :
    sendRequest t data result = .ok (t, (retError, [])) := by
  rw [sendRequest, if_pos (empty_eq_false h hkept)]

/-- With nothing kept, `sendRequest` writes and looks at what `send` returns. -/
theorem sendRequest_of_empty (h : t.sendBuffer.WellFormed)
    (hnone : t.sendBuffer.contents = []) (data : List UInt8) {result : WriteResult}
    (halive : result.Alive) :
    sendRequest t data result =
      if toInt32 (result.takes data.length) < 0 then
        .ok (t, (retError, data.take (result.takes data.length)))
      else if toInt32 (result.takes data.length) < toInt32 data.length then do
        let (_, rest) ← t.sendBuffer.pushData
          (some (data.drop (toInt32 (result.takes data.length)).toNat))
        .ok ({ t with sendBuffer := rest },
          (retFull, data.take (result.takes data.length)))
      else .ok (t, (toInt32 (result.takes data.length),
        data.take (result.takes data.length))) := by
  have hempty : ¬ t.sendBuffer.empty = false := by
    rw [h.empty_iff.mpr hnone]
    decide
  rw [sendRequest, if_neg hempty, send_spec data halive]
  rfl

/-- With nothing kept, a failed write ends the process. -/
theorem sendRequest_of_not_alive (h : t.sendBuffer.WellFormed)
    (hnone : t.sendBuffer.contents = []) (data : List UInt8) {result : WriteResult}
    (halive : ¬ result.Alive) : sendRequest t data result = .error .aborted := by
  have hempty : ¬ t.sendBuffer.empty = false := by
    rw [h.empty_iff.mpr hnone]
    decide
  rw [sendRequest, if_neg hempty]
  cases result with
  | accepted n => exact absurd (.accepted n) halive
  | again => exact absurd .again halive
  | interrupted => rfl
  | failed => rfl

/-- A write that does not fail leaves a buffer in order. -/
theorem sendRequest_of_alive (h : t.sendBuffer.WellFormed)
    (hnone : t.sendBuffer.contents = []) {data : List UInt8}
    (hsize : data.length < Buffer.maxBufferSize) {result : WriteResult}
    (halive : result.Alive) :
    ∃ b ret taken, sendRequest t data result =
      .ok ({ t with sendBuffer := b }, (ret, taken)) ∧ b.WellFormed := by
  rw [sendRequest_of_empty h hnone data halive]
  by_cases hneg : toInt32 (result.takes data.length) < 0
  · exact ⟨t.sendBuffer, retError, _, if_pos hneg, h⟩
  rw [if_neg hneg]
  by_cases hpart : toInt32 (result.takes data.length) < toInt32 data.length
  · have hfits : t.sendBuffer.contents.length +
        (data.drop (toInt32 (result.takes data.length)).toNat).length <
          Buffer.maxBufferSize := by
      rw [hnone, List.length_nil, List.length_drop]
      omega
    obtain ⟨b, hpush, hwell, _⟩ := Buffer.pushData_spec h hfits
    rw [if_pos hpart, hpush]
    exact ⟨b, retFull, _, rfl, hwell⟩
  · exact ⟨t.sendBuffer, _, _, if_neg hpart, h⟩

/-- Whatever the socket does, a request ends the process or leaves a buffer in order. -/
theorem sendRequest_ends (h : t.sendBuffer.WellFormed) {data : List UInt8}
    (hsize : data.length < Buffer.maxBufferSize) (result : WriteResult) :
    sendRequest t data result = .error .aborted ∨
      ∃ b ret taken, sendRequest t data result =
        .ok ({ t with sendBuffer := b }, (ret, taken)) ∧ b.WellFormed := by
  by_cases hnone : t.sendBuffer.contents = []
  · by_cases halive : result.Alive
    · exact Or.inr (sendRequest_of_alive h hnone hsize halive)
    · exact Or.inl (sendRequest_of_not_alive h hnone data halive)
  · exact Or.inr ⟨t.sendBuffer, retError, [], sendRequest_of_kept h hnone data result, h⟩

/-- An accepted request goes to the socket and, from where the socket stops, into
the buffer. -/
theorem sendRequest_spec (h : t.sendBuffer.WellFormed) (hnone : t.sendBuffer.contents = [])
    {data : List UInt8} (hsize : data.length < Buffer.maxBufferSize)
    {result : WriteResult} (hrest : KeepsRest data.length result) (halive : result.Alive) :
    ∃ b ret taken, sendRequest t data result =
        .ok ({ t with sendBuffer := b }, (ret, taken)) ∧ ret ≠ retError ∧
      taken ++ b.contents = data ∧ b.WellFormed := by
  rw [sendRequest_of_empty h hnone data halive]
  have hn := result.takes_le data.length
  have hmod := result.takes_le_mod data.length
  have hlow : data.length % 2 ^ 32 < 2 ^ 31 := by
    rcases hrest with hsmall | hlarge
    · omega
    · exact hlarge.1
  have hcast : toInt32 data.length = (data.length % 2 ^ 32 : Nat) := by
    rw [toInt32, if_pos hlow]
  generalize hcount : result.takes data.length = n at hn hmod ⊢
  have hint : toInt32 n = n := toInt32_of_lt (by omega)
  have hnonneg : ¬ (n : Int) < 0 := Int.not_lt.mpr (Int.natCast_nonneg n)
  rw [hint, hcast, if_neg hnonneg, Int.toNat_natCast]
  by_cases hpart : n < data.length % 2 ^ 32
  · have hfits : t.sendBuffer.contents.length + (data.drop n).length <
        Buffer.maxBufferSize := by
      rw [hnone, List.length_nil, List.length_drop]
      omega
    obtain ⟨b, hpush, hwell, hcontents⟩ := Buffer.pushData_spec h hfits
    rw [hnone, List.nil_append] at hcontents
    refine ⟨b, retFull, data.take n, ?_, by decide, ?_, hwell⟩
    · rw [if_pos (Int.ofNat_lt.mpr hpart), hpush]
      rfl
    · rw [hcontents, List.take_append_drop]
  · have hall : n = data.length := by
      rcases hrest with hsmall | hlarge
      · omega
      · exact absurd (hcount ▸ hlarge.2) hpart
    refine ⟨t.sendBuffer, n, data.take n, ?_, ?_, ?_, h⟩
    · rw [if_neg fun hlt => hpart (Int.ofNat_lt.mp hlt)]
    · unfold retError
      omega
    · rw [hnone, List.append_nil, hall, List.take_length]

/-- Otherwise a part of the request is lost, or counts as refused after a part of it
was written. -/
theorem sendRequest_loses (h : t.sendBuffer.WellFormed)
    (hnone : t.sendBuffer.contents = []) {data : List UInt8} {result : WriteResult}
    (hrest : ¬ KeepsRest data.length result) (halive : result.Alive) :
    ∃ ret taken, sendRequest t data result = .ok (t, (ret, taken)) ∧
      taken ≠ if ret = retError then [] else data := by
  rw [sendRequest_of_empty h hnone data halive]
  have hn := result.takes_le data.length
  have hneg := toInt32_takes_neg_iff result data.length
  simp only [KeepsRest, not_or, not_and, Nat.not_lt] at hrest
  obtain ⟨hlarge, hwhole⟩ := hrest
  generalize result.takes data.length = n at hn hneg hwhole ⊢
  have hlength : (data.take n).length = n := by
    rw [List.length_take, Nat.min_eq_left hn]
  by_cases hsign : toInt32 n < 0
  · refine ⟨retError, data.take n, if_pos hsign, ?_⟩
    rw [if_pos rfl]
    intro hnil
    rw [hnil, List.length_nil] at hlength
    have hpos := hneg.mp hsign
    omega
  · have hint : toInt32 n = n := toInt32_of_lt (Nat.not_le.mp (mt hneg.mpr hsign))
    have hnot : ¬ toInt32 n < toInt32 data.length := by
      rw [hint, toInt32]
      split
      · have := hwhole ‹_›
        omega
      · omega
    refine ⟨toInt32 n, data.take n, ?_, ?_⟩
    · rw [if_neg hsign, if_neg hnot]
    · rw [if_neg (by unfold retError; omega)]
      intro hsame
      rw [hsame] at hlength
      have hsmall := mt hneg.mpr hsign
      omega

/-- A flush hands the beginning of the kept bytes to the socket, and returns at once
exactly when the socket takes some of them and not all. -/
theorem flush_spec (h : t.sendBuffer.WellFormed) {result : WriteResult}
    (hsmall : result.takes t.sendBuffer.contents.length < 2 ^ 31)
    (halive : result.Alive) :
    ∃ b done taken, flush t result =
        .ok ({ t with sendBuffer := b }, (done, taken)) ∧
      taken ++ b.contents = t.sendBuffer.contents ∧ b.WellFormed ∧
      (done ≠ none ↔ 0 < result.takes t.sendBuffer.contents.length ∧
        result.takes t.sendBuffer.contents.length <
          t.sendBuffer.contents.length) := by
  have hsend := send_spec t.sendBuffer.contents halive
  have hn := result.takes_le t.sendBuffer.contents.length
  rw [toInt32_of_lt hsmall] at hsend
  generalize result.takes t.sendBuffer.contents.length = n at hsend hn hsmall ⊢
  by_cases hnone : t.sendBuffer.contents = []
  · refine ⟨t.sendBuffer, none, [], ?_, rfl, h, ?_⟩
    · rw [flush, if_pos (h.empty_iff.mpr hnone)]
    · rw [hnone]
      simp
  · have hempty : ¬ t.sendBuffer.empty = true := by
      rw [empty_eq_false h hnone]
      decide
    have hnonneg : ¬ (n : Int) < 0 := Int.not_lt.mpr (Int.natCast_nonneg n)
    by_cases hpos : 0 < n
    · obtain ⟨rest, hconsume, hwell, hcontents, _⟩ := Buffer.consume_spec h hn
      have hjoin : t.sendBuffer.contents.take n ++ rest.contents =
          t.sendBuffer.contents := by
        rw [hcontents, List.take_append_drop]
      have hlength : rest.contents.length = t.sendBuffer.contents.length - n := by
        rw [hcontents, List.length_drop]
      have hpos' : (0 : Int) < n := Int.natCast_pos.mpr hpos
      by_cases hlast : rest.contents = []
      · obtain ⟨b, hshrunk, hwell', hcontents', _⟩ := Buffer.shrink_spec hwell
        refine ⟨b, none, _, ?_, by rw [hcontents']; exact hjoin, hwell', ?_⟩
        · rw [flush, if_neg hempty, h.peekData_eq]
          simp only [bind, Except.bind, hsend, if_neg hnonneg, if_pos hpos',
            Int.toNat_natCast, hconsume]
          rw [if_pos (hwell.empty_iff.mpr hlast), hshrunk]
        · rw [hlast, List.length_nil] at hlength
          simp only [ne_eq, not_true_eq_false, false_iff, not_and]
          omega
      · have hrest := List.length_pos_iff.mpr hlast
        refine ⟨rest, some 0, _, ?_, hjoin, hwell, ?_⟩
        · rw [flush, if_neg hempty, h.peekData_eq]
          simp only [bind, Except.bind, hsend, if_neg hnonneg, if_pos hpos',
            Int.toNat_natCast, hconsume]
          rw [if_neg fun hyes => hlast (hwell.empty_iff.mp hyes)]
        · exact ⟨fun _ => ⟨hpos, by omega⟩, fun _ => by simp⟩
    · have hzero : n = 0 := Nat.eq_zero_of_not_pos hpos
      subst hzero
      refine ⟨t.sendBuffer, none, [], ?_, rfl, h, by simp⟩
      rw [flush, if_neg hempty, h.peekData_eq]
      simp only [bind, Except.bind, hsend]
      rfl

/-- A flush of which the socket takes 2^31 bytes or more reads an error and leaves the
written bytes in the buffer. -/
theorem flush_doubles (h : t.sendBuffer.WellFormed) {result : WriteResult}
    (hlarge : 2 ^ 31 ≤ result.takes t.sendBuffer.contents.length)
    (halive : result.Alive) :
    ∃ ret taken, flush t result = .ok (t, (some ret, taken)) ∧ taken ≠ [] := by
  have hsend := send_spec t.sendBuffer.contents halive
  have hneg := (toInt32_takes_neg_iff result t.sendBuffer.contents.length).mpr hlarge
  have hn := result.takes_le t.sendBuffer.contents.length
  have hsome : t.sendBuffer.contents ≠ [] := by
    intro hnil
    rw [hnil, List.length_nil] at hn hlarge
    omega
  have hempty : ¬ t.sendBuffer.empty = true := by
    rw [empty_eq_false h hsome]
    decide
  refine ⟨toInt32 (result.takes t.sendBuffer.contents.length),
    t.sendBuffer.contents.take (result.takes t.sendBuffer.contents.length), ?_, ?_⟩
  · rw [flush, if_neg hempty, h.peekData_eq]
    simp only [bind, Except.bind, hsend, if_pos hneg]
  · intro hnil
    have hlength := congrArg List.length hnil
    rw [List.length_take, List.length_nil] at hlength
    omega

end

/-! ### Runs -/

/-- The invariant of the send side when all requests are shorter than 2^31 bytes. -/
structure Sending (t : Transceiver) : Prop where
  buffer : t.sendBuffer.WellFormed
  small : t.sendBuffer.contents.length < 2 ^ 31

/-- What a client does with the send side. -/
inductive SendOp where
  | sendRequest (data : List UInt8) (result : WriteResult)
  | flush (result : WriteResult)
deriving DecidableEq, Repr

/-- Requests are shorter than 2^31 bytes and no write ends the process. -/
inductive SendOp.Legal : SendOp → Prop where
  | sendRequest {data : List UInt8} {result : WriteResult} :
      data.length < 2 ^ 31 → result.Alive → Legal (.sendRequest data result)
  | flush {result : WriteResult} : result.Alive → Legal (.flush result)

/-- One operation: its returned value and the bytes the socket took. -/
def sendStep (t : Transceiver) :
    SendOp → Except Fault (Transceiver × (Int × List UInt8))
  | .sendRequest data result => t.sendRequest data result
  | .flush result => do
      let (t, (done, taken)) ← t.flush result
      .ok (t, (done.getD 0, taken))

/-- The bytes that an operation which returned `ret` adds to the stream. -/
def SendOp.added (op : SendOp) (ret : Int) : List UInt8 :=
  match op with
  | .sendRequest data _ => if ret = retError then [] else data
  | .flush _ => []

/-- What is left of a block that is shorter than 2^31 bytes is shorter as well. -/
theorem Sending.of_join {t : Transceiver} {b : Buffer} (hwell : b.WellFormed)
    {taken whole : List UInt8} (hjoin : taken ++ b.contents = whole)
    (hsmall : whole.length < 2 ^ 31) : Sending { t with sendBuffer := b } := by
  refine ⟨hwell, ?_⟩
  rw [← hjoin, List.length_append] at hsmall
  exact (Nat.le_add_left _ _).trans_lt hsmall

theorem sendStep_spec {t : Transceiver} (h : Sending t) {op : SendOp}
    (hop : op.Legal) :
    ∃ next out, sendStep t op = .ok (next, out) ∧ Sending next ∧
      out.2 ++ next.sendBuffer.contents =
        t.sendBuffer.contents ++ op.added out.1 := by
  cases hop with
  | @sendRequest data result hsize halive =>
      by_cases hkept : t.sendBuffer.contents = []
      · have hfits : data.length < Buffer.maxBufferSize := hsize.trans (by decide)
        obtain ⟨b, ret, taken, hstep, hret, hjoin, hwell⟩ :=
          sendRequest_spec h.buffer hkept hfits (Or.inl hsize) halive
        refine ⟨_, _, hstep, .of_join hwell hjoin hsize, ?_⟩
        rw [hjoin, hkept, SendOp.added, if_neg hret, List.nil_append]
      · refine ⟨_, _, sendRequest_of_kept h.buffer hkept data result, h, ?_⟩
        rw [SendOp.added, if_pos rfl, List.append_nil, List.nil_append]
  | @flush result halive =>
      have htakes := (result.takes_le t.sendBuffer.contents.length).trans_lt h.small
      obtain ⟨b, done, taken, hflush, hjoin, hwell, _⟩ :=
        flush_spec h.buffer htakes halive
      refine ⟨{ t with sendBuffer := b }, (done.getD 0, taken), ?_,
        .of_join hwell hjoin h.small, ?_⟩
      · simp only [sendStep, hflush, bind, Except.bind]
      · rw [hjoin, SendOp.added, List.append_nil]

theorem trace_sendStep (ops : List SendOp) : ∀ {t : Transceiver}, Sending t →
    (∀ op ∈ ops, op.Legal) →
    ∃ last outs, trace sendStep t ops = .ok (last, outs) ∧ Sending last ∧
      outs.flatMap Prod.snd ++ last.sendBuffer.contents =
        t.sendBuffer.contents ++
          (ops.zip outs).flatMap fun done => done.1.added done.2.1 := by
  induction ops with
  | nil =>
      intro t h _
      exact ⟨t, [], rfl, h, by simp⟩
  | cons op rest ih =>
      intro t h hops
      obtain ⟨next, out, hstep, hnext, hjoin⟩ :=
        sendStep_spec h (hops op List.mem_cons_self)
      obtain ⟨last, outs, htrace, hlast, hall⟩ :=
        ih hnext fun other hother => hops other (List.mem_cons_of_mem _ hother)
      refine ⟨last, out :: outs, trace_cons_of_ok hstep htrace, hlast, ?_⟩
      rw [List.flatMap_cons, List.append_assoc, hall, ← List.append_assoc, hjoin,
        List.zip_cons_cons, List.flatMap_cons, List.append_assoc]

/-- Over any operations on a new transceiver, the bytes the socket took and the
bytes still kept are the requests that were not refused, in call order; and from
any state so reached, a request that meets kept bytes is refused without effect, and
one that meets none is accepted. -/
theorem socket_stream_intact (connected : Bool) (fd : Int) (ip : String) (port : Nat)
    (interest : List EpollEvent) (ops : List SendOp) (hops : ∀ op ∈ ops, op.Legal) :
    ∃ last outs,
      trace sendStep (fresh connected fd ip port interest) ops = .ok (last, outs) ∧
      outs.flatMap Prod.snd ++ last.sendBuffer.contents =
        (ops.zip outs).flatMap (fun done => done.1.added done.2.1) ∧
      (last.sendBuffer.contents ≠ [] → ∀ data result,
        last.sendRequest data result = .ok (last, (retError, []))) ∧
      (last.sendBuffer.contents = [] → ∀ data result,
        (SendOp.sendRequest data result).Legal →
          ∃ next ret taken, last.sendRequest data result = .ok (next, (ret, taken)) ∧
            ret ≠ retError ∧ taken ++ next.sendBuffer.contents = data) := by
  have hempty : (fresh connected fd ip port interest).sendBuffer.contents = [] :=
    Buffer.contents_default
  have hstart : Sending (fresh connected fd ip port interest) :=
    ⟨Buffer.wellFormed_default, by rw [hempty]; decide⟩
  obtain ⟨last, outs, htrace, hlast, hjoin⟩ := trace_sendStep ops hstart hops
  refine ⟨last, outs, htrace, ?_, ?_, ?_⟩
  · rw [hjoin, hempty, List.nil_append]
  · intro hkept data result
    exact sendRequest_of_kept hlast.buffer hkept data result
  · rintro hnone data result ⟨hsize, halive⟩
    obtain ⟨b, ret, taken, hstep, hret, hdata, _⟩ :=
      sendRequest_spec hlast.buffer hnone (hsize.trans (by decide)) (Or.inl hsize) halive
    exact ⟨_, ret, taken, hstep, hret, hdata⟩

/-- A write that stops half-way, a refused request, a flush and a new request. -/
theorem socket_stream_intact_partial :
    ∃ last outs,
      trace sendStep (fresh false 7 "127.0.0.1" 80 [])
        [.sendRequest [1, 2, 3] (.accepted 1), .sendRequest [4] (.accepted 1),
          .flush (.accepted 2), .sendRequest [5] .again] = .ok (last, outs) ∧
      outs = [(retFull, [1]), (retError, []), (0, [2, 3]), (retFull, [])] ∧
      last.sendBuffer.contents = [5] ∧
      outs.flatMap Prod.snd ++ last.sendBuffer.contents =
        (List.zip [SendOp.sendRequest [1, 2, 3] (.accepted 1),
          .sendRequest [4] (.accepted 1), .flush (.accepted 2),
          .sendRequest [5] .again] outs).flatMap
            (fun done => done.1.added done.2.1) := by
  obtain ⟨last, outs, htrace, hjoin, _⟩ :=
    socket_stream_intact false 7 "127.0.0.1" 80 []
      [.sendRequest [1, 2, 3] (.accepted 1), .sendRequest [4] (.accepted 1),
        .flush (.accepted 2), .sendRequest [5] .again]
      (by
        simp only [List.forall_mem_cons, List.not_mem_nil, false_implies,
          implies_true, and_true]
        exact ⟨.sendRequest (by decide) (.accepted 1),
          .sendRequest (by decide) (.accepted 1), .flush (.accepted 2),
          .sendRequest (by decide) .again⟩)
  have hout : (trace sendStep (fresh false 7 "127.0.0.1" 80 [])
      [.sendRequest [1, 2, 3] (.accepted 1), .sendRequest [4] (.accepted 1),
        .flush (.accepted 2), .sendRequest [5] .again]).map Prod.snd =
      .ok [(retFull, [1]), (retError, []), (0, [2, 3]), (retFull, [])] := by decide +kernel
  rw [htrace] at hout
  have houts := Except.ok.inj hout
  dsimp only at houts
  refine ⟨last, outs, htrace, houts, ?_, hjoin⟩
  rw [houts] at hjoin
  have hkept : [1, 2, 3] ++ last.sendBuffer.contents = [1, 2, 3] ++ [5] := hjoin
  exact List.append_cancel_left hkept

end Transceiver

end Tarsx
