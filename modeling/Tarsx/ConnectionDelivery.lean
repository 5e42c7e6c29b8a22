/-
The requests that `Connection::recv` delivers over any run of calls.  The length
field of a frame is signed, so the streams it frames as the sender meant are those
in which no frame starts with a byte whose top bit is set; on such a stream the
calls deliver the frames that an incremental decoder takes off it.
-/
import Tarsx.ConnectionFrames

namespace Tarsx

open Foundation

namespace Connection

/-! ### Streams with lengths that are not negative -/

/-- Where a frame starts and a byte of it has arrived, that byte is below 128:
no length field of the stream is negative. -/
inductive WellFramed : List UInt8 → Prop where
  | nil : WellFramed []
  | partly {byte : UInt8} {rest : List UInt8} : byte.toNat < 128 →
      nextFrame (byte :: rest) = none → WellFramed (byte :: rest)
  | frame {input req rest : List UInt8} :
      nextFrame input = some (req, rest) → WellFramed rest → WellFramed input

theorem headerLen_neg_iff {byte : UInt8} {rest : List UInt8}
    (hfour : 4 ≤ (byte :: rest).length) :
    headerLen (byte :: rest) < 0 ↔ 128 ≤ byte.toNat := by
  match rest, hfour with
  | b₁ :: b₂ :: b₃ :: _, _ => exact toInt32_decodeBE_neg_iff byte b₁ b₂ b₃

theorem headerLen_nonneg {byte : UInt8} {rest : List UInt8}
    (hfour : 4 ≤ (byte :: rest).length) (hbyte : byte.toNat < 128) :
    0 ≤ headerLen (byte :: rest) := by
  by_contra hneg
  have hlarge := (headerLen_neg_iff hfour).mp (Int.not_le.mp hneg)
  exact absurd hbyte (Nat.not_lt.mpr hlarge)

theorem headerLen_lt (input : List UInt8) : headerLen input < 2 ^ 31 :=
  toInt32_lt _

theorem WellFramed.head_lt {byte : UInt8} {rest : List UInt8}
    (h : WellFramed (byte :: rest)) : byte.toNat < 128 := by
  cases h with
  | partly hbyte _ => exact hbyte
  | frame hframe _ =>
      obtain ⟨⟨hfour, hnonneg, _⟩, _⟩ := nextFrame_eq_some hframe
      by_contra hlarge
      have hneg := (headerLen_neg_iff hfour).mpr (Nat.not_lt.mp hlarge)
      exact absurd hnonneg (Int.not_le.mpr hneg)

theorem WellFramed.of_frame {input req rest : List UInt8} (h : WellFramed input)
    (hframe : nextFrame input = some (req, rest)) : WellFramed rest := by
  cases h with
  | nil => contradiction
  | partly _ hnone =>
      rw [hnone] at hframe
      contradiction
  | frame hother hrest =>
      rw [hother, Option.some.injEq, Prod.mk.injEq] at hframe
      exact hframe.2 ▸ hrest

/-- A stream is well framed when what has come is and what draining it leaves
goes on to be. -/
theorem wellFramed_append_iff (input more : List UInt8) :
    WellFramed (input ++ more) ↔ WellFramed input ∧
      WellFramed ((requestDecoder.drain input).2 ++ more) := by
  induction input using Decoder.drain.induct requestDecoder with
  | case1 input hnone =>
      rw [Decoder.drain_of_none hnone]
      constructor
      · intro h
        refine ⟨?_, h⟩
        cases input with
        | nil => exact .nil
        | cons byte rest =>
            rw [List.cons_append] at h
            exact .partly h.head_lt hnone
      · exact And.right
  | case2 input req rest hsome _ ih =>
      rw [Decoder.drain_of_some hsome]
      have hstable : nextFrame (input ++ more) = some (req, rest ++ more) :=
        requestDecoder.stable hsome more
      constructor
      · intro h
        obtain ⟨hrest, hmore⟩ := ih.mp (h.of_frame hstable)
        exact ⟨.frame hsome hrest, hmore⟩
      · rintro ⟨hinput, hmore⟩
        exact .frame hstable (ih.mpr ⟨hinput.of_frame hsome, hmore⟩)

/-- What stays undecoded of a well-framed stream is well framed and shorter than
the longest frame. -/
theorem WellFramed.drain {input : List UInt8} (h : WellFramed input) :
    WellFramed (requestDecoder.drain input).2 := by
  have hself := (wellFramed_append_iff input []).mp (by rwa [List.append_nil])
  rw [List.append_nil] at hself
  exact hself.2

theorem WellFramed.length_lt {input : List UInt8} (h : WellFramed input)
    (hnone : nextFrame input = none) : input.length < 2 ^ 31 + 5 := by
  cases h with
  | nil => exact Nat.succ_pos _
  | frame hframe _ =>
      rw [hnone] at hframe
      contradiction
  | @partly byte rest hbyte hnone =>
      by_cases hfour : 4 ≤ (byte :: rest).length
      · have hnonneg := headerLen_nonneg hfour hbyte
        have hlt := headerLen_lt (byte :: rest)
        by_contra hlong
        have hfits : (headerLen (byte :: rest)).toNat + 5 ≤
            (byte :: rest).length := by omega
        rw [nextFrame, if_pos ⟨hfour, hnonneg, hfits⟩] at hnone
        contradiction
      · omega

/-! ### One call -/

/-- On a well-framed buffer the framing loop drains the decoder. -/
theorem frameLoop_of_wellFramed {input : List UInt8} (hframed : WellFramed input) :
    ∀ {b : Buffer} (fuel : Nat), b.WellFormed → b.contents = input →
      input.length < fuel →
      ∃ b', frameLoop fuel b = .ok ((requestDecoder.drain input).1, b') ∧
        b'.WellFormed ∧ b'.contents = (requestDecoder.drain input).2 := by
  induction hframed with
  | nil =>
      intro b fuel hwell hcontents hfuel
      obtain ⟨turns, rfl⟩ := Nat.exists_eq_add_one.mpr hfuel
      have hnone : requestDecoder.next [] = none := nextFrame_nil
      rw [Decoder.drain_of_none hnone]
      exact ⟨b, frameLoop_of_short hwell turns (by simp [hcontents]), hwell, hcontents⟩
  | @partly byte rest hbyte hnone =>
      intro b fuel hwell hcontents hfuel
      obtain ⟨turns, rfl⟩ := Nat.exists_eq_add_one.mpr (Nat.zero_lt_of_lt hfuel)
      rw [Decoder.drain_of_none (d := requestDecoder) hnone]
      refine ⟨b, ?_, hwell, hcontents⟩
      by_cases hfour : 4 ≤ (byte :: rest).length
      · have hnonneg := headerLen_nonneg hfour hbyte
        apply frameLoop_of_incomplete hwell turns (by rwa [hcontents])
        rw [hcontents, (wordAdd_headerLen hnonneg).2]
        by_contra hfits
        rw [nextFrame, if_pos ⟨hfour, hnonneg, Nat.not_lt.mp hfits⟩] at hnone
        contradiction
      · exact frameLoop_of_short hwell turns (by rw [hcontents]; omega)
  | @frame input req rest hframe _ ih =>
      intro b fuel hwell hcontents hfuel
      obtain ⟨turns, rfl⟩ := Nat.exists_eq_add_one.mpr (Nat.zero_lt_of_lt hfuel)
      obtain ⟨after, hwell', hafter, hturn⟩ :=
        frameLoop_of_frame hwell (hcontents ▸ hframe)
      have hshrinks := nextFrame_shrinks hframe
      have hturns : rest.length < turns := by omega
      obtain ⟨b', hloop, hwell'', hleft⟩ := ih turns hwell' hafter hturns
      rw [Decoder.drain_of_some (d := requestDecoder) hframe]
      exact ⟨b', by rw [hturn, hloop]; rfl, hwell'', hleft⟩

/-- Between two `recv` calls on a well-framed stream: the buffer is sound, the
socket is open, and what is buffered is the beginning of a frame. -/
structure Receiving (c : Connection) : Prop where
  buffer : c.recvBuffer.WellFormed
  isOpen : c.listenfd ≠ -1
  framed : WellFramed c.recvBuffer.contents
  drained : nextFrame c.recvBuffer.contents = none

theorem receiving_init (bindAdapter listenfd : Nat) (fd : Int) (ip : String)
    (port : Nat) (close : Bool) (serial uid : Nat) :
    Receiving ((accepted bindAdapter listenfd fd ip port close serial).init uid) :=
  ⟨Buffer.wellFormed_default, by simp only [init, accepted]; omega, .nil,
    nextFrame_nil⟩

/-- One call appends what it reads and delivers the frames this completes. -/
theorem recvCall_spec {c : Connection} (h : Receiving c) (call : RecvCall)
    (hstream : WellFramed (c.recvBuffer.contents ++ call.bytes)) :
    ∃ b, recvCall c call =
        .ok ({ c with recvBuffer := b },
          (toInt32 (requestDecoder.drain (c.recvBuffer.contents ++ call.bytes)).1.length,
            (requestDecoder.drain (c.recvBuffer.contents ++ call.bytes)).1.map
              c.recvData)) ∧
      b.contents = (requestDecoder.drain (c.recvBuffer.contents ++ call.bytes)).2 ∧
      Receiving { c with recvBuffer := b } := by
  have hshort := h.framed.length_lt h.drained
  have hfits : c.recvBuffer.contents.length + (readBytes call.reads).length <
      Buffer.maxBufferSize := by
    have hbounded := call.bounded
    have hmax : Buffer.maxBufferSize = 2 ^ 63 - 1 := rfl
    omega
  obtain ⟨full, hread, hwell, hcontents⟩ := readLoop_spec call.drains h.buffer hfits
  obtain ⟨b, hloop, hwell', hleft⟩ := frameLoop_of_wellFramed hstream
    (full.readableSize + 1) hwell hcontents
    (by rw [hwell.readableSize_eq_length, hcontents]; exact Nat.lt_succ_self _)
  refine ⟨b, ?_, hleft, hwell', h.isOpen, ?_, ?_⟩
  · simp only [recvCall, recv, hread, bind, Except.bind, Bool.false_eq_true,
      if_false, if_pos h.isOpen, hloop]
  · rw [hleft]
    exact hstream.drain
  · rw [hleft]
    exact Decoder.next_drain requestDecoder _

/-! ### Runs of calls -/

/-- The payloads that a list of call results carries. -/
def delivered (outs : List (Int × List TagRecvData)) : List (List UInt8) :=
  outs.flatMap fun out => out.2.map TagRecvData.buffer

/-- The bytes that a list of calls reads. -/
def streamOf (calls : List RecvCall) : List UInt8 := calls.flatMap RecvCall.bytes

theorem map_buffer_recvData (c : Connection) (reqs : List (List UInt8)) :
    (reqs.map c.recvData).map TagRecvData.buffer = reqs := by
  rw [List.map_map]
  exact List.map_id _

/-- Over a well-framed stream every call returns, says as an `int` how many requests it
delivers, and after each call exactly the complete frames of what has come so far
are delivered; the rest stays in the buffer. -/
theorem trace_recvCall (calls : List RecvCall) :
    ∀ {c : Connection}, Receiving c →
      WellFramed (c.recvBuffer.contents ++ streamOf calls) →
      ∃ last outs, trace recvCall c calls = .ok (last, outs) ∧
        outs.length = calls.length ∧
        (∀ out ∈ outs, out.1 = toInt32 out.2.length) ∧
        (∀ k ≤ calls.length, delivered (outs.take k) =
          (requestDecoder.drain
            (c.recvBuffer.contents ++ streamOf (calls.take k))).1) ∧
        last.recvBuffer.contents =
          (requestDecoder.drain (c.recvBuffer.contents ++ streamOf calls)).2 := by
  induction calls with
  | nil =>
      intro c h _
      have hdrain := Decoder.drain_of_none (d := requestDecoder) h.drained
      refine ⟨c, [], rfl, rfl, by simp, ?_, ?_⟩
      · intro k _
        simp [delivered, streamOf, hdrain]
      · simp [streamOf, hdrain]
  | cons call rest ih =>
      intro c h hstream
      have hsplit : streamOf (call :: rest) = call.bytes ++ streamOf rest := rfl
      have hpieces := Decoder.drain_append requestDecoder
        (c.recvBuffer.contents ++ call.bytes)
      rw [hsplit, ← List.append_assoc] at hstream
      obtain ⟨hnow, hlater⟩ := (wellFramed_append_iff _ _).mp hstream
      obtain ⟨b, hcall, hleft, hnext⟩ := recvCall_spec h call hnow
      rw [← hleft] at hlater
      obtain ⟨last, outs, htrace, hlength, hcounts, htaken, hlast⟩ := ih hnext hlater
      refine ⟨last, _, trace_cons_of_ok hcall htrace, ?_, ?_, ?_, ?_⟩
      · rw [List.length_cons, hlength, List.length_cons]
      · intro out hout
        rcases List.mem_cons.mp hout with rfl | hout
        · simp
        · exact hcounts out hout
      · intro k hk
        cases k with
        | zero =>
            have hdrain := Decoder.drain_of_none (d := requestDecoder) h.drained
            simp [delivered, streamOf, hdrain]
        | succ k =>
            have htail := htaken k (Nat.le_of_succ_le_succ hk)
            have hbytes : streamOf ((call :: rest).take (k + 1)) =
                call.bytes ++ streamOf (rest.take k) := rfl
            rw [hbytes, ← List.append_assoc, hpieces, ← hleft, ← htail]
            rw [List.take_succ_cons, delivered, List.flatMap_cons,
              map_buffer_recvData]
            rfl
      · rw [hlast, hsplit, ← List.append_assoc, hpieces, ← hleft]

/-! ### Encoded requests -/

theorem wellFramed_encoded {payloads : List (List UInt8)}
    (hlen : ∀ payload ∈ payloads, payload.length < 2 ^ 31) :
    WellFramed (payloads.flatMap encodeRequest) := by
  induction payloads with
  | nil => exact .nil
  | cons payload rest ih =>
      rw [List.flatMap_cons]
      have hdecode := nextFrame_encodeRequest (hlen payload List.mem_cons_self)
        (rest.flatMap encodeRequest)
      have hrest := ih fun other hother =>
        hlen other (List.mem_cons_of_mem _ hother)
      exact .frame hdecode hrest

/-- A prefix of a stream of encoded requests is well framed. -/
theorem wellFramed_of_prefix {payloads : List (List UInt8)}
    (hlen : ∀ payload ∈ payloads, payload.length < 2 ^ 31)
    {input : List UInt8} (htaken : input <+: payloads.flatMap encodeRequest) :
    WellFramed input := by
  obtain ⟨more, hmore⟩ := htaken
  have hwhole := wellFramed_encoded hlen
  rw [← hmore] at hwhole
  exact ((wellFramed_append_iff input more).mp hwhole).1

theorem streamOf_take_isPart (calls : List RecvCall) (k : Nat) :
    streamOf (calls.take k) <+: streamOf calls := by
  refine ⟨streamOf (calls.drop k), ?_⟩
  rw [streamOf, streamOf, ← List.flatMap_append, List.take_append_drop]
  rfl

/-- Encoded requests that arrive cut in any way at a new connection: after `k`
calls the delivered requests are the payloads whose last byte those calls have
read, in order, and the buffer holds what has come of the next frame. -/
theorem recv_delivers_payloads (bindAdapter listenfd : Nat) (fd : Int) (ip : String)
    (port : Nat) (close : Bool) (uid : Nat) (payloads : List (List UInt8))
    (calls : List RecvCall)
    (hlen : ∀ payload ∈ payloads, payload.length < 2 ^ 31 - 5)
    (hstream : streamOf calls <+: payloads.flatMap encodeRequest) :
    ∃ last outs,
      trace recvCall ((accepted bindAdapter listenfd fd ip port close).init uid) calls =
        .ok (last, outs) ∧
      outs.length = calls.length ∧
      (∀ out ∈ outs, out.1 = toInt32 out.2.length) ∧
      (∀ k ≤ calls.length, delivered (outs.take k) =
        payloads.take (Decoder.framesWithin encodeRequest payloads
          (streamOf (calls.take k)).length)) ∧
      last.recvBuffer.contents =
        (streamOf calls).drop ((payloads.take (Decoder.framesWithin encodeRequest
          payloads (streamOf calls).length)).flatMap encodeRequest).length := by
  have hvalid : ∀ payload ∈ payloads, payload.length < 2 ^ 31 :=
    fun payload hmem => Nat.lt_of_lt_of_le (hlen payload hmem) (Nat.sub_le _ _)
  have hdecode : ∀ payload : List UInt8, payload.length < 2 ^ 31 → ∀ more,
      nextFrame (encodeRequest payload ++ more) = some (payload, more) :=
    fun _ hpayload more => nextFrame_encodeRequest hpayload more
  have hdrain : ∀ {input : List UInt8},
      input <+: payloads.flatMap encodeRequest → requestDecoder.drain input = _ :=
    fun htaken => Decoder.drain_prefix (d := requestDecoder)
      hdecode hvalid
      nextFrame_nil htaken
  have hstart := receiving_init bindAdapter listenfd fd ip port close 0 uid
  have hempty : ((accepted bindAdapter listenfd fd ip port close).init
      uid).recvBuffer.contents = [] := Buffer.contents_default
  obtain ⟨last, outs, htrace, hlength, hcounts, htaken, hlast⟩ :=
    trace_recvCall calls hstart
      (by rw [hempty, List.nil_append]; exact wellFramed_of_prefix hvalid hstream)
  refine ⟨last, outs, htrace, hlength, hcounts, ?_, ?_⟩
  · intro k hk
    rw [htaken k hk, hempty, List.nil_append,
      hdrain ((streamOf_take_isPart calls k).trans hstream)]
  · rw [hlast, hempty, List.nil_append, hdrain hstream]

/-- Two requests, the first header cut after three bytes and the second request
not complete. -/
theorem recv_delivers_payloads_cut :
    ∃ last outs,
      trace recvCall ((accepted 0 4 9 "127.0.0.1" 80 false).init 1)
        [RecvCall.short [0, 0, 0] (by decide) (by decide),
          RecvCall.short [1, 58, 7, 0, 0, 0, 2] (by decide) (by decide)] =
        .ok (last, outs) ∧
      delivered (outs.take 1) = [] ∧ delivered outs = [[7]] ∧
      last.recvBuffer.contents = [0, 0, 0, 2] := by
  obtain ⟨last, outs, htrace, hlength, _, htaken, hlast⟩ :=
    recv_delivers_payloads 0 4 9 "127.0.0.1" 80 false 1 [[7], [8, 9]]
      [RecvCall.short [0, 0, 0] (by decide) (by decide),
        RecvCall.short [1, 58, 7, 0, 0, 0, 2] (by decide) (by decide)]
      (by simp) ⟨[58, 8, 9], rfl⟩
  refine ⟨last, outs, htrace, htaken 1 (by decide), ?_, hlast⟩
  have htwo : outs.take 2 = outs := List.take_of_length_le (Nat.le_of_eq hlength)
  rw [← htwo]
  exact htaken 2 (by decide)

end Connection

end Tarsx
