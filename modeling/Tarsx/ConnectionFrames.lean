/-
What `Connection::recv` does to the byte stream of a peer: it appends what the
socket gives to the receive buffer and takes the complete frames off its front.
The requests delivered over any run of calls are those of an incremental decoder
for the request frame, so they do not depend on how the stream was cut.
-/
import Tarsx.BufferSpec
import Tarsx.Connection
import Tarsx.Foundation.Framing
import Tarsx.Foundation.Run

namespace Tarsx

open Foundation

namespace Connection

/-! ### Read scripts -/

/-- The bytes that a list of read results brings. -/
def readBytes (reads : List ReadResult) : List UInt8 :=
  reads.flatMap fun
    | .data bytes => bytes
    | _ => []

/-- The results of one `recv` call on an open connection: full reads, and then
either a short read or `EAGAIN`. -/
inductive Drains : List ReadResult → Prop where
  | again : Drains [.again]
  | short {bytes : List UInt8} : 0 < bytes.length → bytes.length < readSize →
      Drains [.data bytes]
  | full {bytes : List UInt8} {rest : List ReadResult} :
      bytes.length = readSize → Drains rest → Drains (.data bytes :: rest)

/-- The read results of one `recv` call.  What one call reads stays far below
the size at which `pushData` refuses. -/
structure RecvCall where
  reads : List ReadResult
  drains : Drains reads
  bounded : (readBytes reads).length ≤ 2 ^ 62

def RecvCall.bytes (call : RecvCall) : List UInt8 := readBytes call.reads

/-- A call that one short read ends. -/
def RecvCall.short (bytes : List UInt8) (hpos : 0 < bytes.length)
    (hshort : bytes.length < readSize) : RecvCall :=
  { reads := [.data bytes]
    drains := .short hpos hshort
    bounded := by
      have hsize : readSize = 32768 := rfl
      simp only [readBytes, List.flatMap_cons, List.flatMap_nil, List.append_nil]
      omega }

/-- `recv` as a step of a machine. -/
def recvCall (c : Connection) (call : RecvCall) :
    Except Fault (Connection × (Int × List TagRecvData)) :=
  c.recv call.reads

theorem readBytes_data (bytes : List UInt8) (rest : List ReadResult) :
    readBytes (.data bytes :: rest) = bytes ++ readBytes rest := rfl

theorem readLoop_cons_data {b pushed : Buffer} {bytes : List UInt8} {n : Nat}
    (hpush : b.pushData (some bytes) = .ok (n, pushed)) (rest : List ReadResult) :
    readLoop (.data bytes :: rest) b =
      if bytes.length < readSize then .ok (false, pushed) else readLoop rest pushed := by
  simp only [readLoop, hpush, bind, Except.bind]

/-- On an open connection the reading loop appends all it reads. -/
theorem readLoop_spec {reads : List ReadResult} (hdrains : Drains reads) :
    ∀ {b : Buffer}, b.WellFormed →
      b.contents.length + (readBytes reads).length < Buffer.maxBufferSize →
      ∃ b', readLoop reads b = .ok (false, b') ∧ b'.WellFormed ∧
        b'.contents = b.contents ++ readBytes reads := by
  induction hdrains with
  | again =>
      intro b hwell _
      exact ⟨b, rfl, hwell, (List.append_nil _).symm⟩
  | @short bytes hpos hshort =>
      intro b hwell hfits
      rw [readBytes_data, List.length_append] at hfits
      have hfits' : b.contents.length + bytes.length < Buffer.maxBufferSize := by
        omega
      obtain ⟨b', hpush, hwell', hcontents⟩ := Buffer.pushData_spec hwell hfits'
      refine ⟨b', ?_, hwell', by rw [hcontents, readBytes_data]; simp [readBytes]⟩
      rw [readLoop_cons_data hpush, if_pos hshort]
  | @full bytes rest hfull _ ih =>
      intro b hwell hfits
      rw [readBytes_data, List.length_append] at hfits
      have hfits' : b.contents.length + bytes.length < Buffer.maxBufferSize := by
        omega
      obtain ⟨pushed, hpush, hwell', hcontents⟩ :=
        Buffer.pushData_spec hwell hfits'
      obtain ⟨b', hloop, hwell'', hcontents'⟩ := ih hwell'
        (by rw [hcontents, List.length_append]; omega)
      refine ⟨b', ?_, hwell'', ?_⟩
      · rw [readLoop_cons_data hpush, if_neg (by omega)]
        exact hloop
      · rw [hcontents', hcontents, readBytes_data, List.append_assoc]

/-! ### The frame decoder -/

/-- The length field at the front of the readable bytes. -/
def headerLen (input : List UInt8) : Int := toInt32 (decodeBE (input.take 4))

/-- One frame off the front: header, separator, and as many bytes as the header
says, if all of them are there. -/
def nextFrame (input : List UInt8) : Option (List UInt8 × List UInt8) :=
  if 4 ≤ input.length ∧ 0 ≤ headerLen input ∧
      (headerLen input).toNat + 5 ≤ input.length then
    some ((input.drop 5).take (headerLen input).toNat,
      input.drop (5 + (headerLen input).toNat))
  else none

theorem headerLen_append {input : List UInt8} (hlen : 4 ≤ input.length)
    (more : List UInt8) : headerLen (input ++ more) = headerLen input := by
  rw [headerLen, List.take_append_of_le_length hlen, headerLen]

theorem nextFrame_eq_some {input req rest : List UInt8}
    (h : nextFrame input = some (req, rest)) :
    (4 ≤ input.length ∧ 0 ≤ headerLen input ∧
      (headerLen input).toNat + 5 ≤ input.length) ∧
      req = (input.drop 5).take (headerLen input).toNat ∧
      rest = input.drop (5 + (headerLen input).toNat) := by
  unfold nextFrame at h
  split at h
  · next hcond =>
      rw [Option.some.injEq, Prod.mk.injEq] at h
      exact ⟨hcond, h.1.symm, h.2.symm⟩
  · contradiction

theorem nextFrame_shrinks {input req rest : List UInt8}
    (h : nextFrame input = some (req, rest)) : rest.length < input.length := by
  obtain ⟨hcond, _, hrest⟩ := nextFrame_eq_some h
  rw [hrest, List.length_drop]
  omega

theorem nextFrame_stable {input req rest : List UInt8}
    (h : nextFrame input = some (req, rest)) (more : List UInt8) :
    nextFrame (input ++ more) = some (req, rest ++ more) := by
  obtain ⟨⟨hfour, hnonneg, hfits⟩, hreq, hrest⟩ := nextFrame_eq_some h
  have hlen := headerLen_append hfour more
  rw [nextFrame, hlen, if_pos ⟨by rw [List.length_append]; omega, hnonneg,
    by rw [List.length_append]; omega⟩, hreq, hrest,
    List.drop_append_of_le_length (by omega),
    List.drop_append_of_le_length (by omega),
    List.take_append_of_le_length (by rw [List.length_drop]; omega)]

/-- The request frames as a decoder. -/
def requestDecoder : Decoder UInt8 (List UInt8) where
  next := nextFrame
  shrinks := nextFrame_shrinks
  stable := nextFrame_stable

theorem nextFrame_nil : nextFrame [] = none := rfl

theorem headerLen_encodeRequest {payload : List UInt8}
    (hlen : payload.length < 2 ^ 31) (more : List UInt8) :
    headerLen (encodeRequest payload ++ more) = payload.length := by
  have htake : (encodeRequest payload ++ more).take 4 =
      encodeBE32 payload.length := rfl
  rw [headerLen, htake, decodeBE_encodeBE32 (by omega), toInt32_of_lt hlen]

/-- Decoding undoes the encoding of `sendReqMessage`. -/
theorem nextFrame_encodeRequest {payload : List UInt8}
    (hlen : payload.length < 2 ^ 31) (more : List UInt8) :
    nextFrame (encodeRequest payload ++ more) = some (payload, more) := by
  have hheader := headerLen_encodeRequest hlen more
  have hdrop : (encodeRequest payload ++ more).drop 5 = payload ++ more := rfl
  have hrest : (encodeRequest payload ++ more).drop (5 + payload.length) = more := by
    rw [← List.drop_drop, hdrop, List.drop_left']
    rfl
  rw [nextFrame, hheader, Int.toNat_natCast, hdrop, hrest, List.take_left',
    if_pos]
  · refine ⟨?_, by omega, ?_⟩
    · rw [List.length_append, length_encodeRequest]
      omega
    · rw [List.length_append, length_encodeRequest]
      omega
  · rfl

/-! ### The framing loop -/

section Loop

variable {b : Buffer}

theorem frameLen_eq (h : b.WellFormed) (hfour : 4 ≤ b.contents.length) :
    frameLen b = .ok (headerLen b.contents) := by
  have hread := h.readPos_le
  have hwrite := h.writePos_le
  have hlen := h.length_contents
  obtain ⟨bytes, hblock, hbytes⟩ := h.exists_block (by omega)
  have hload : load b.buffer b.readPos 4 = .ok (b.contents.take 4) := by
    rw [hblock, load, if_pos (by omega), Buffer.contents, hblock, window,
      Option.getD_some, List.take_take, Nat.min_eq_left (by omega)]
  simp only [frameLen, hload, bind, Except.bind, headerLen]

theorem peekString_eq (h : b.WellFormed) (len : Nat)
    (hlen : len ≤ b.contents.length) :
    peekString b len = .ok (b.contents.take len) := by
  have hread := h.readPos_le
  have hwrite := h.writePos_le
  have hlength := h.length_contents
  rw [peekString, h.readableSize_eq_length, if_neg (by omega)]
  rcases Nat.eq_zero_or_pos b.capacity with hzero | hpos
  · have hnull := h.null_iff.mp hzero
    have hlen0 : len = 0 := by omega
    simp [load, hnull, hlen0]
  · obtain ⟨bytes, hblock, hbytes⟩ := h.exists_block hpos
    rw [hblock, load, if_pos (by omega), Buffer.contents, hblock, window,
      Option.getD_some, List.take_take, Nat.min_eq_left (by omega)]

/-- With fewer than four readable bytes the loop is not entered. -/
theorem frameLoop_of_short (h : b.WellFormed) (fuel : Nat)
    (hshort : b.contents.length < 4) : frameLoop (fuel + 1) b = .ok ([], b) := by
  rw [frameLoop, if_neg]
  rw [h.readableSize_eq_length]
  simp only [kHeaderSize]
  omega

/-- With a header whose frame is not complete the loop stops. -/
theorem frameLoop_of_incomplete (h : b.WellFormed) (fuel : Nat)
    (hfour : 4 ≤ b.contents.length)
    (hmore : b.contents.length < wordAdd (toWord (headerLen b.contents)) kHeaderSize) :
    frameLoop (fuel + 1) b = .ok ([], b) := by
  rw [frameLoop, if_pos (by rw [h.readableSize_eq_length]; exact hfour),
    frameLen_eq h hfour]
  simp only [bind, Except.bind]
  rw [if_neg (by rw [h.readableSize_eq_length]; omega)]

/-- A length field that is not negative is compared without wrapping. -/
theorem wordAdd_headerLen {input : List UInt8} (hnonneg : 0 ≤ headerLen input) :
    toWord (headerLen input) = (headerLen input).toNat ∧
      wordAdd (toWord (headerLen input)) kHeaderSize =
        (headerLen input).toNat + 5 := by
  have hlt := toInt32_lt (decodeBE (input.take 4))
  have hword : toWord (headerLen input) = (headerLen input).toNat :=
    toWord_of_nonneg hnonneg (by unfold headerLen; omega)
  refine ⟨hword, ?_⟩
  rw [hword, wordAdd_of_lt]
  · rfl
  · unfold headerLen kHeaderSize at *
    omega

/-- One turn of the loop takes one frame. -/
theorem frameLoop_of_frame (h : b.WellFormed) {req rest : List UInt8}
    (hframe : nextFrame b.contents = some (req, rest)) :
    ∃ b', b'.WellFormed ∧ b'.contents = rest ∧ ∀ fuel,
      frameLoop (fuel + 1) b =
        (frameLoop fuel b').map fun out => (req :: out.1, out.2) := by
  obtain ⟨⟨hfour, hnonneg, hfits⟩, hreq, hrest⟩ := nextFrame_eq_some hframe
  obtain ⟨hword, hsum⟩ := wordAdd_headerLen hnonneg
  obtain ⟨body, hbody, hwell, hcontents, _⟩ :=
    Buffer.consume_spec h (n := kHeaderSize) (by unfold kHeaderSize; omega)
  have hlength : body.contents.length = b.contents.length - 5 := by
    rw [hcontents, List.length_drop]
    rfl
  have hpeek := peekString_eq hwell (headerLen b.contents).toNat (by omega)
  obtain ⟨b', hconsume, hwell', hcontents', _⟩ :=
    Buffer.consume_spec hwell (n := (headerLen b.contents).toNat) (by omega)
  refine ⟨b', hwell', ?_, ?_⟩
  · rw [hcontents', hcontents, List.drop_drop, hrest]
    rfl
  · intro fuel
    rw [frameLoop, if_pos (by rw [h.readableSize_eq_length]; exact hfour),
      frameLen_eq h hfour]
    simp only [bind, Except.bind]
    rw [hsum, if_pos (by rw [h.readableSize_eq_length]; omega), hword]
    simp only [hbody, hpeek, hconsume]
    rw [hreq, hcontents]
    cases frameLoop fuel b' with
    | error fault => rfl
    | ok out => rfl

end Loop

end Connection

end Tarsx
