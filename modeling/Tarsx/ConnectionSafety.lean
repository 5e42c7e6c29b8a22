/-
What a peer can do to `Connection::recv` with the length field of a frame.  It is
read as an `int32_t` and added to a `size_t`: from -5 to -1 the sum wraps to less
than a header and the loop runs into an assertion or an oversized string, below
that no input ever completes the frame.  A run of calls is safe exactly when the
stream has no negative length field.
-/
import Tarsx.ConnectionDelivery

namespace Tarsx

open Foundation

namespace Connection

/-! ### Negative length fields -/

section Negative

variable {b : Buffer}

theorem toWord_headerLen_neg {input : List UInt8} (hneg : headerLen input < 0) :
    (toWord (headerLen input) : Int) = headerLen input + 2 ^ 64 := by
  have hge := neg_le_toInt32 (decodeBE (input.take 4))
  exact toWord_of_neg hneg (by unfold headerLen; omega)

/-- The sum of a length field from -5 to -1 and the header size passes the test. -/
theorem wordAdd_small_negative {input : List UInt8} (hneg : headerLen input < 0)
    (hsmall : -5 ≤ headerLen input) :
    wordAdd (toWord (headerLen input)) kHeaderSize ≤ 4 := by
  have hword := toWord_headerLen_neg hneg
  unfold wordAdd kHeaderSize
  omega

/-- With the four length bytes alone in the buffer, taking the header out fails. -/
theorem frameLoop_negative_alone (h : b.WellFormed) (hfour : b.contents.length = 4)
    (hneg : headerLen b.contents < 0) (hsmall : -5 ≤ headerLen b.contents)
    (fuel : Nat) : frameLoop (fuel + 1) b = .error .assertion := by
  have hsum := wordAdd_small_negative hneg hsmall
  have hheader : b.consume kHeaderSize = .error .assertion :=
    Buffer.consume_of_too_many h (by decide) (by rw [hfour]; decide)
  rw [frameLoop, if_pos (by rw [h.readableSize_eq_length, hfour]; decide),
    frameLen_eq h (Nat.le_of_eq hfour.symm)]
  simp only [bind, Except.bind]
  rw [if_pos (by rw [h.readableSize_eq_length]; omega), hheader]

/-- With more bytes the request string is asked for with almost 2^64 bytes. -/
theorem frameLoop_negative_string (h : b.WellFormed) (hfive : 5 ≤ b.contents.length)
    (hneg : headerLen b.contents < 0) (hsmall : -5 ≤ headerLen b.contents)
    (fuel : Nat) : frameLoop (fuel + 1) b = .error .lengthError := by
  have hsum := wordAdd_small_negative hneg hsmall
  have hword := toWord_headerLen_neg hneg
  obtain ⟨body, hbody, hwell, hcontents, _⟩ :=
    Buffer.consume_spec h (n := kHeaderSize) (by unfold kHeaderSize; omega)
  have hlength : body.contents.length ≤ 2 ^ 63 := hwell.length_contents_le.trans
    hwell.capacity_le
  have hstring : peekString body (toWord (headerLen b.contents)) =
      .error .lengthError := by
    rw [peekString, if_pos]
    rw [hwell.readableSize_eq_length]
    omega
  rw [frameLoop, if_pos (by rw [h.readableSize_eq_length]; unfold kHeaderSize; omega),
    frameLen_eq h (by omega)]
  simp only [bind, Except.bind]
  rw [if_pos (by rw [h.readableSize_eq_length]; omega), hbody]
  simp only [hstring]

/-- Below -5 the loop waits for more bytes than a buffer can ever hold. -/
theorem frameLoop_very_negative (h : b.WellFormed) (hfour : 4 ≤ b.contents.length)
    (hneg : headerLen b.contents < -5) (fuel : Nat) :
    frameLoop (fuel + 1) b = .ok ([], b) := by
  have hbelow : headerLen b.contents < 0 := by omega
  have hword := toWord_headerLen_neg hbelow
  have hge := neg_le_toInt32 (decodeBE (b.contents.take 4))
  have hlength : b.contents.length ≤ 2 ^ 63 := h.length_contents_le.trans h.capacity_le
  apply frameLoop_of_incomplete h fuel hfour
  unfold headerLen at *
  unfold wordAdd kHeaderSize
  omega

/-- A first byte of 128 or more either faults or stops the loop at once. -/
theorem frameLoop_of_large_head (h : b.WellFormed) {byte : UInt8} {rest : List UInt8}
    (hcontents : b.contents = byte :: rest) (hlarge : 128 ≤ byte.toNat) {fuel : Nat}
    {reqs : List (List UInt8)} {last : Buffer}
    (hloop : frameLoop fuel b = .ok (reqs, last)) : reqs = [] ∧ last = b := by
  cases fuel with
  | zero => contradiction
  | succ turns =>
      have hstop : frameLoop (turns + 1) b = .ok ([], b) := by
        by_cases hfour : 4 ≤ b.contents.length
        · have hneg : headerLen b.contents < 0 := by
            rw [hcontents] at hfour ⊢
            exact (headerLen_neg_iff hfour).mpr hlarge
          by_cases hsmall : -5 ≤ headerLen b.contents
          · rcases Nat.eq_or_lt_of_le hfour with heq | hfive
            · rw [frameLoop_negative_alone h heq.symm hneg hsmall] at hloop
              contradiction
            · rw [frameLoop_negative_string h hfive hneg hsmall] at hloop
              contradiction
          · exact frameLoop_very_negative h hfour (Int.not_le.mp hsmall) turns
        · exact frameLoop_of_short h turns (Nat.not_le.mp hfour)
      rw [hstop, Except.ok.injEq, Prod.mk.injEq] at hloop
      exact ⟨hloop.1.symm, hloop.2.symm⟩

/-- Input that is not well framed leaves such a byte at the front, if the loop
returns at all. -/
theorem frameLoop_of_not_wellFramed {input : List UInt8} (hbad : ¬ WellFramed input) :
    ∀ {b last : Buffer} {fuel : Nat} {reqs : List (List UInt8)}, b.WellFormed →
      b.contents = input → frameLoop fuel b = .ok (reqs, last) →
      last.WellFormed ∧ ∃ byte rest, last.contents = byte :: rest ∧
        128 ≤ byte.toNat := by
  induction input using Decoder.drain.induct requestDecoder with
  | case1 input hnone =>
      intro b last fuel reqs hwell hcontents hloop
      cases input with
      | nil => exact absurd .nil hbad
      | cons byte rest =>
          have hlarge : 128 ≤ byte.toNat := by
            by_contra hbyte
            exact hbad (.partly (Nat.not_le.mp hbyte) hnone)
          obtain ⟨_, rfl⟩ := frameLoop_of_large_head hwell hcontents hlarge hloop
          exact ⟨hwell, byte, rest, hcontents, hlarge⟩
  | case2 input req rest hsome _ ih =>
      intro b last fuel reqs hwell hcontents hloop
      have hrest : ¬ WellFramed rest := fun hgood => hbad (.frame hsome hgood)
      have hframe : nextFrame b.contents = some (req, rest) := hcontents ▸ hsome
      obtain ⟨after, hwell', hafter, hturn⟩ := frameLoop_of_frame hwell hframe
      cases fuel with
      | zero => contradiction
      | succ turns =>
          rw [hturn] at hloop
          cases hinner : frameLoop turns after with
          | error fault =>
              rw [hinner] at hloop
              contradiction
          | ok out =>
              rw [hinner] at hloop
              obtain ⟨_, hlast⟩ := Prod.mk.inj (Except.ok.inj hloop)
              rw [← hlast]
              exact ih hrest hwell' hafter hinner

end Negative

/-! ### Connections that can go on -/

/-- Nothing is pending, or some further calls deliver a request. -/
def Completable (c : Connection) : Prop :=
  c.recvBuffer.contents = [] ∨
    ∃ more last outs, trace recvCall c more = .ok (last, outs) ∧ delivered outs ≠ []

/-- A frame with a negative length field is at the front of the buffer. -/
structure Blocked (c : Connection) : Prop where
  buffer : c.recvBuffer.WellFormed
  isOpen : c.listenfd ≠ -1
  large : ∃ byte rest, c.recvBuffer.contents = byte :: rest ∧ 128 ≤ byte.toNat

/-- Whatever a call reads, it only adds to the end of the buffer. -/
theorem readLoop_extends {reads : List ReadResult} (hdrains : Drains reads) :
    ∀ {b : Buffer}, b.WellFormed → (readBytes reads).length ≤ 2 ^ 62 →
      ∃ b', readLoop reads b = .ok (false, b') ∧ b'.WellFormed ∧
        b.contents <+: b'.contents := by
  induction hdrains with
  | again =>
      intro b hwell _
      exact ⟨b, rfl, hwell, List.prefix_rfl⟩
  | @short bytes hpos hshort =>
      intro b hwell hbounded
      rw [readBytes_data, List.length_append] at hbounded
      have hsize : bytes.length < 2 ^ 63 := by omega
      obtain ⟨n, b', hpush, hwell', htaken⟩ := Buffer.pushData_any hwell hsize
      exact ⟨b', by rw [readLoop_cons_data hpush, if_pos hshort], hwell', htaken⟩
  | @full bytes rest hfull _ ih =>
      intro b hwell hbounded
      rw [readBytes_data, List.length_append] at hbounded
      have hsize : bytes.length < 2 ^ 63 := by omega
      obtain ⟨n, pushed, hpush, hwell', htaken⟩ := Buffer.pushData_any hwell hsize
      obtain ⟨b', hloop, hwell'', htaken'⟩ :=
        ih hwell' (Nat.le_of_add_left_le hbounded)
      refine ⟨b', ?_, hwell'', htaken.trans htaken'⟩
      rw [readLoop_cons_data hpush, if_neg (Nat.not_lt.mpr (Nat.le_of_eq hfull.symm))]
      exact hloop

/-- What a successful call on an open connection did. -/
theorem recvCall_eq_ok {c next : Connection} {call : RecvCall}
    {out : Int × List TagRecvData} {b : Buffer} (hopen : c.listenfd ≠ -1)
    (hread : readLoop call.reads c.recvBuffer = .ok (false, b))
    (hcall : recvCall c call = .ok (next, out)) :
    ∃ reqs last, frameLoop (b.readableSize + 1) b = .ok (reqs, last) ∧
      next = { c with recvBuffer := last } ∧ out.2 = reqs.map c.recvData := by
  simp only [recvCall, recv, hread, bind, Except.bind, Bool.false_eq_true,
    if_false, if_pos hopen] at hcall
  cases hloop : frameLoop (b.readableSize + 1) b with
  | error fault =>
      rw [hloop] at hcall
      contradiction
  | ok result =>
      rw [hloop] at hcall
      obtain ⟨hnext, hout⟩ := Prod.mk.inj (Except.ok.inj hcall)
      exact ⟨result.1, result.2, rfl, hnext.symm, by rw [← hout]⟩

/-- A blocked connection delivers nothing and stays blocked. -/
theorem Blocked.recvCall {c next : Connection} {call : RecvCall}
    {out : Int × List TagRecvData} (h : Blocked c)
    (hcall : recvCall c call = .ok (next, out)) : Blocked next ∧ out.2 = [] := by
  obtain ⟨byte, rest, hcontents, hlarge⟩ := h.large
  obtain ⟨b, hread, hwell, more, hmore⟩ :=
    readLoop_extends call.drains h.buffer call.bounded
  rw [hcontents, List.cons_append] at hmore
  obtain ⟨reqs, last, hloop, hnext, hout⟩ := recvCall_eq_ok h.isOpen hread hcall
  obtain ⟨hnil, hsame⟩ := frameLoop_of_large_head hwell hmore.symm hlarge hloop
  subst hnext hsame
  rw [hout, hnil]
  exact ⟨⟨hwell, h.isOpen, byte, rest ++ more, hmore.symm, hlarge⟩, rfl⟩

theorem Blocked.delivered_eq_nil (calls : List RecvCall) :
    ∀ {c last : Connection} {outs : List (Int × List TagRecvData)}, Blocked c →
      trace Connection.recvCall c calls = .ok (last, outs) → delivered outs = [] := by
  induction calls with
  | nil =>
      intro c last outs _ htrace
      obtain ⟨_, houts⟩ := Prod.mk.inj (Except.ok.inj htrace)
      rw [← houts]
      rfl
  | cons call rest ih =>
      intro c last outs h htrace
      cases hcall : Connection.recvCall c call with
      | error fault => simp [trace, hcall] at htrace
      | ok result =>
          cases hrest : trace Connection.recvCall result.1 rest with
          | error fault => simp [trace, hcall, hrest] at htrace
          | ok tail =>
              simp only [trace, hcall, hrest, Except.ok.injEq, Prod.mk.injEq] at htrace
              obtain ⟨hnext, hnone⟩ := h.recvCall hcall
              have htail := ih hnext hrest
              rw [← htrace.2, delivered, List.flatMap_cons, hnone]
              exact htail

theorem Blocked.not_completable {c : Connection} (h : Blocked c) : ¬ Completable c := by
  obtain ⟨byte, rest, hcontents, _⟩ := h.large
  rintro (hnil | ⟨more, last, outs, htrace, hsome⟩)
  · rw [hcontents] at hnil
    contradiction
  · exact hsome (h.delivered_eq_nil more htrace)

/-- A call that sees a negative length field faults or blocks the connection. -/
theorem blocked_of_not_wellFramed {c next : Connection} {call : RecvCall}
    {out : Int × List TagRecvData} (h : Receiving c)
    (hbad : ¬ WellFramed (c.recvBuffer.contents ++ call.bytes))
    (hcall : recvCall c call = .ok (next, out)) : Blocked next := by
  have hshort := h.framed.length_lt h.drained
  have hfits : c.recvBuffer.contents.length + (readBytes call.reads).length <
      Buffer.maxBufferSize := by
    have hbounded := call.bounded
    have hmax : Buffer.maxBufferSize = 2 ^ 63 - 1 := rfl
    omega
  obtain ⟨b, hread, hwell, hcontents⟩ := readLoop_spec call.drains h.buffer hfits
  obtain ⟨reqs, last, hloop, hnext, _⟩ := recvCall_eq_ok h.isOpen hread hcall
  obtain ⟨hwell', hlarge⟩ := frameLoop_of_not_wellFramed hbad hwell hcontents hloop
  subst hnext
  exact ⟨hwell', h.isOpen, hlarge⟩

/-! ### Completing a pending frame -/

/-- Any bytes can be what one call reads. -/
theorem exists_drains (bytes : List UInt8) :
    ∃ reads, Drains reads ∧ readBytes reads = bytes := by
  by_cases hnil : bytes = []
  · exact ⟨[.again], .again, hnil.symm⟩
  · have hpos : 0 < bytes.length := List.length_pos_iff.mpr hnil
    by_cases hshort : bytes.length < readSize
    · exact ⟨[.data bytes], .short hpos hshort, List.append_nil _⟩
    · obtain ⟨reads, hdrains, hbytes⟩ := exists_drains (bytes.drop readSize)
      have hfull : (bytes.take readSize).length = readSize :=
        List.length_take_of_le (Nat.not_lt.mp hshort)
      refine ⟨.data (bytes.take readSize) :: reads, .full hfull hdrains, ?_⟩
      rw [readBytes_data, hbytes, List.take_append_drop]
termination_by bytes.length
decreasing_by
  have hsize : 0 < readSize := by decide
  rw [List.length_drop]
  exact Nat.sub_lt hpos hsize

/-- Zeros fix the header of an incomplete frame first and then fill the body that
the header announces. -/
theorem nextFrame_filled {input : List UInt8} (hnone : nextFrame input = none)
    (hnonneg : 0 ≤ headerLen (input ++ List.replicate 4 0)) :
    ∃ more req, more.length ≤ 2 ^ 62 ∧ nextFrame (input ++ more) = some (req, []) := by
  have hlt := headerLen_lt (input ++ List.replicate 4 0)
  generalize hlen : (headerLen (input ++ List.replicate 4 0)).toNat = len
  have hroom : input.length < len + 5 := by
    by_contra hlong
    have hfour : 4 ≤ input.length := by omega
    rw [headerLen_append hfour] at hnonneg hlen
    have hfits : (headerLen input).toNat + 5 ≤ input.length := by omega
    rw [nextFrame, if_pos ⟨hfour, hnonneg, hfits⟩] at hnone
    contradiction
  generalize hmissing : len + 5 - input.length = missing
  have hheader : headerLen (input ++ List.replicate missing 0) =
      headerLen (input ++ List.replicate 4 0) := by
    rw [headerLen, headerLen, List.take_append, List.take_append,
      List.take_replicate, List.take_replicate]
    congr 4
    omega
  have htotal : (input ++ List.replicate missing 0).length = len + 5 := by
    rw [List.length_append, List.length_replicate]
    omega
  have hend : (input ++ List.replicate missing 0).drop (5 + len) = [] :=
    List.drop_of_length_le (by rw [htotal]; omega)
  have hsize : (List.replicate missing (0 : UInt8)).length ≤ 2 ^ 62 := by
    rw [List.length_replicate]
    omega
  refine ⟨List.replicate missing 0,
    ((input ++ List.replicate missing 0).drop 5).take len, hsize, ?_⟩
  rw [nextFrame, hheader, hlen, htotal, if_pos ⟨by omega, hnonneg, Nat.le_refl _⟩, hend]

/-- The beginning of a frame with a length field that is not negative can be
completed. -/
theorem exists_completion {input : List UInt8} (hframed : WellFramed input)
    (hnone : nextFrame input = none) (hsome : input ≠ []) :
    ∃ more req, more.length ≤ 2 ^ 62 ∧ nextFrame (input ++ more) = some (req, []) := by
  cases hframed with
  | nil => contradiction
  | frame hframe _ =>
      rw [hnone] at hframe
      contradiction
  | @partly byte rest hbyte _ =>
      apply nextFrame_filled hnone
      exact headerLen_nonneg (by simp) hbyte

theorem Receiving.completable {c : Connection} (h : Receiving c) : Completable c := by
  by_cases hnil : c.recvBuffer.contents = []
  · exact Or.inl hnil
  · obtain ⟨more, req, hbounded, hframe⟩ := exists_completion h.framed h.drained hnil
    obtain ⟨reads, hdrains, hbytes⟩ := exists_drains more
    let call : RecvCall := ⟨reads, hdrains, by rw [hbytes]; exact hbounded⟩
    have hstream : WellFramed (c.recvBuffer.contents ++ streamOf [call]) := by
      rw [streamOf, List.flatMap_singleton, RecvCall.bytes, hbytes]
      exact .frame hframe .nil
    obtain ⟨last, outs, htrace, hlength, _, htaken, _⟩ :=
      trace_recvCall [call] h hstream
    refine Or.inr ⟨[call], last, outs, htrace, ?_⟩
    have houts : outs.take 1 = outs := List.take_of_length_le (Nat.le_of_eq hlength)
    have hone := htaken 1 (Nat.le_refl _)
    have hdrain : requestDecoder.drain (c.recvBuffer.contents ++ more) =
        (req :: (requestDecoder.drain []).1, (requestDecoder.drain []).2) :=
      Decoder.drain_of_some (d := requestDecoder) hframe
    have hmore : streamOf ([call].take 1) = more := by
      rw [← hbytes]
      exact List.append_nil _
    rw [houts, hmore, hdrain] at hone
    rw [hone]
    exact List.cons_ne_nil _ _

/-! ### Safety of a run -/

/-- What the call adds leaves the buffered stream well framed. -/
def Framed (c : Connection) (call : RecvCall) : Prop :=
  WellFramed (c.recvBuffer.contents ++ call.bytes)

theorem along_framed_iff (calls : List RecvCall) : ∀ {c : Connection}, Receiving c →
    (Along (quiet recvCall) Framed c calls ↔
      WellFramed (c.recvBuffer.contents ++ streamOf calls)) := by
  induction calls with
  | nil =>
      intro c h
      rw [streamOf, List.flatMap_nil, List.append_nil]
      exact ⟨fun _ => h.framed, fun _ => trivial⟩
  | cons call rest ih =>
      intro c h
      have hsplit : streamOf (call :: rest) = call.bytes ++ streamOf rest := rfl
      rw [hsplit, ← List.append_assoc, wellFramed_append_iff]
      constructor
      · rintro ⟨hnow, hlater⟩
        obtain ⟨b, hcall, hleft, hnext⟩ := recvCall_spec h call hnow
        refine ⟨hnow, ?_⟩
        rw [← hleft]
        exact (ih hnext).mp (hlater _ (quiet_of_ok hcall))
      · rintro ⟨hnow, hlater⟩
        obtain ⟨b, hcall, hleft, hnext⟩ := recvCall_spec h call hnow
        refine ⟨hnow, ?_⟩
        intro next hstep
        rw [quiet_of_ok hcall, Except.ok.injEq] at hstep
        rw [← hstep]
        rw [← hleft] at hlater
        exact (ih hnext).mpr hlater

/-- Whatever a peer sends, cut in whatever way: no call faults and every call
leaves a connection that can go on exactly when no length field of the stream is
negative. -/
theorem recv_safe_iff_wellFramed (bindAdapter listenfd : Nat) (fd : Int)
    (ip : String) (port : Nat) (close : Bool) (uid : Nat) (calls : List RecvCall) :
    Stays (quiet recvCall) Completable
        ((accepted bindAdapter listenfd fd ip port close).init uid) calls ↔
      WellFramed (streamOf calls) := by
  have hstart := receiving_init bindAdapter listenfd fd ip port close 0 uid
  have halong := along_framed_iff calls hstart
  have hempty : ((accepted bindAdapter listenfd fd ip port close).init
      uid).recvBuffer.contents = [] := Buffer.contents_default
  rw [hempty, List.nil_append] at halong
  rw [← halong]
  refine stays_iff_along (fun c (h : Receiving c) => h.completable) ?_ ?_ hstart
  · intro c call h hframed
    obtain ⟨b, hcall, _, hnext⟩ := recvCall_spec h call hframed
    exact ⟨_, quiet_of_ok hcall, hnext⟩
  · intro c call next h hbad hstep
    cases hcall : recvCall c call with
    | error fault => simp [quiet, hcall, Except.map] at hstep
    | ok result =>
        rw [quiet_of_ok hcall, Except.ok.injEq] at hstep
        have hblocked := blocked_of_not_wellFramed h hbad hcall
        exact hstep ▸ hblocked.not_completable

/-- Four bytes 255 arrive alone at a new connection: the length -1 passes the test
and `consume(kHeaderSize)` fails its assertion. -/
theorem recv_asserts_on_minus_one :
    recvCall ((accepted 0 4 9 "127.0.0.1" 80 false).init 1)
        (RecvCall.short [255, 255, 255, 255] (by decide) (by decide)) =
      .error .assertion ∧
    ¬ Stays (quiet recvCall) Completable
        ((accepted 0 4 9 "127.0.0.1" 80 false).init 1)
        [RecvCall.short [255, 255, 255, 255] (by decide) (by decide)] := by
  have hcall : recvCall ((accepted 0 4 9 "127.0.0.1" 80 false).init 1)
      (RecvCall.short [255, 255, 255, 255] (by decide) (by decide)) =
        .error .assertion := by
    have hfits : (({} : Buffer).contents.length + ([255, 255, 255, 255] : List UInt8).length <
        Buffer.maxBufferSize) := by decide
    obtain ⟨b, hpush, hwell, hcontents⟩ :=
      Buffer.pushData_spec Buffer.wellFormed_default hfits
    rw [Buffer.contents_default, List.nil_append] at hcontents
    have hloop := frameLoop_negative_alone hwell (by rw [hcontents]; rfl)
      (by rw [hcontents]; decide) (by rw [hcontents]; decide) b.readableSize
    have hread : readLoop [.data [255, 255, 255, 255]] {} = .ok (false, b) := by
      rw [readLoop_cons_data hpush]
      rfl
    simp only [recvCall, recv, RecvCall.short, init, accepted, hread, bind,
      Except.bind, hloop]
    rfl
  refine ⟨hcall, ?_⟩
  rintro ⟨_, next, hstep, _⟩
  simp [quiet, hcall, Except.map] at hstep

end Connection

end Tarsx
