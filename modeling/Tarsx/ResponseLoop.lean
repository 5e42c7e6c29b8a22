/-
What one `doResponse` does with the bytes it reads.  `readv` scatters every read
over the free room of the receive buffer and a block on the stack; the loop is read
here beside the calls of `produce` it makes, so that none of them goes past the
capacity.
-/
import Tarsx.BufferSpec
import Tarsx.Transceiver

namespace Tarsx

open Foundation

namespace Buffer

/-- A call of `produce`: the buffer it is made on and its argument. -/
structure Produce where
  buffer : Buffer
  bytes : Nat

/-- The call stays within the capacity. -/
def Produce.Within (call : Produce) : Prop :=
  call.buffer.writePos + call.bytes ≤ call.buffer.capacity

/-- `pushData` with the calls of `produce` it makes. -/
def loggedPush (b : Buffer) (data : Option (List UInt8)) :
    Except Fault (List Produce × (Nat × Buffer)) :=
  match data with
  | none => .ok ([], (0, b))
  | some bytes =>
      if bytes.length = 0 then .ok ([], (0, b))
      else if maxBufferSize ≤ wordAdd b.readableSize bytes.length then .ok ([], (0, b))
      else do
        let roomy ← b.assureSpace bytes.length
        let block ← store roomy.buffer roomy.writePos bytes
        .ok ([⟨{ roomy with buffer := block }, bytes.length⟩],
          (bytes.length, produce { roomy with buffer := block } bytes.length))

/-- The log changes nothing. -/
theorem loggedPush_result (b : Buffer) (data : Option (List UInt8)) :
    (b.loggedPush data).map Prod.snd = b.pushData data := by
  cases data with
  | none => rfl
  | some bytes =>
      rw [loggedPush, pushData]
      split
      · rfl
      · split
        · rfl
        · cases b.assureSpace bytes.length with
          | error fault => rfl
          | ok roomy =>
              simp only [bind, Except.bind]
              cases store roomy.buffer roomy.writePos bytes with
              | error fault => rfl
              | ok block => rfl

/-- The room that `pushData` makes is enough for what it produces. -/
theorem loggedPush_spec {b : Buffer} (h : b.WellFormed) {data : List UInt8}
    (hfits : b.contents.length + data.length < maxBufferSize) :
    ∃ calls b', b.loggedPush (some data) = .ok (calls, (data.length, b')) ∧
      b'.WellFormed ∧ b'.contents = b.contents ++ data ∧ ∀ call ∈ calls, call.Within := by
  obtain ⟨b', hpush, hwell, hcontents⟩ := pushData_spec h hfits
  rw [← loggedPush_result] at hpush
  cases hlogged : b.loggedPush (some data) with
  | error fault => simp [hlogged, Except.map] at hpush
  | ok result =>
      obtain ⟨calls, pushed⟩ := result
      rw [hlogged] at hpush
      obtain rfl : pushed = (data.length, b') := by simpa [Except.map] using hpush
      refine ⟨calls, b', rfl, hwell, hcontents, ?_⟩
      obtain ⟨roomy, hroomy, hgood, _, hspace, _⟩ := assureSpace_spec h data.length hfits
      have hwrite := hgood.writePos_le
      intro call hcall
      rw [loggedPush] at hlogged
      split at hlogged
      · obtain ⟨rfl, _⟩ := by simpa using hlogged
        simp at hcall
      · split at hlogged
        · obtain ⟨rfl, _⟩ := by simpa using hlogged
          simp at hcall
        · rw [hroomy] at hlogged
          simp only [bind, Except.bind] at hlogged
          cases hstore : store roomy.buffer roomy.writePos data with
          | error fault => simp [hstore] at hlogged
          | ok block =>
              simp only [hstore, Except.ok.injEq, Prod.mk.injEq] at hlogged
              rw [← hlogged.1, List.mem_singleton] at hcall
              rw [hcall, Produce.Within]
              simp only
              omega

theorem positions_of_writeAt {b w : Buffer} {data : List UInt8}
    (h : b.writeAt data = .ok w) : w.writePos = b.writePos ∧ w.capacity = b.capacity := by
  rw [writeAt] at h
  cases hstore : store b.buffer b.writePos data with
  | error fault => simp [hstore, bind, Except.bind] at h
  | ok block =>
      simp only [hstore, bind, Except.bind, Except.ok.injEq] at h
      subst h
      exact ⟨rfl, rfl⟩

end Buffer

namespace Transceiver

open Buffer (Produce)

/-- `responseLoop` with the calls of `produce` it makes. -/
def loggedLoop : List ReadResult → Transceiver → Except Fault (List Produce × Transceiver)
  | [], t => do
      let roomy ← t.receiveBuffer.assureSpace readRoom
      .ok ([], { t with receiveBuffer := roomy })
  | result :: rest, t => do
      let roomy ← t.receiveBuffer.assureSpace readRoom
      let (read, (ret, bytes)) := readv { t with receiveBuffer := roomy } result
      if 0 < ret then do
        let written ← read.receiveBuffer.writeAt (bytes.take roomy.writableSize)
        if toWord ret ≤ roomy.writableSize then do
          let (calls, last) ← loggedLoop rest
            { read with receiveBuffer := written.produce (toWord ret) }
          .ok (⟨written, toWord ret⟩ :: calls, last)
        else do
          let (pushed, (_, full)) ← (written.produce roomy.writableSize).loggedPush
            (some (bytes.drop roomy.writableSize))
          let (calls, last) ← loggedLoop rest { read with receiveBuffer := full }
          .ok (⟨written, roomy.writableSize⟩ :: pushed ++ calls, last)
      else .ok ([], read)

/-- The log changes nothing. -/
theorem loggedLoop_result (reads : List ReadResult) : ∀ t : Transceiver,
    (loggedLoop reads t).map Prod.snd = responseLoop reads t := by
  induction reads with
  | nil =>
      intro t
      rw [loggedLoop, responseLoop]
      cases t.receiveBuffer.assureSpace readRoom with
      | error fault => rfl
      | ok roomy => rfl
  | cons result rest ih =>
      intro t
      rw [loggedLoop, responseLoop]
      cases t.receiveBuffer.assureSpace readRoom with
      | error fault => rfl
      | ok roomy =>
          simp only [bind, Except.bind]
          split
          · cases (readv { t with receiveBuffer := roomy } result).1.receiveBuffer.writeAt
                ((readv { t with receiveBuffer := roomy } result).2.2.take
                  roomy.writableSize) with
            | error fault => rfl
            | ok written =>
                simp only
                split
                · rw [← ih]
                  cases loggedLoop rest _ with
                  | error fault => rfl
                  | ok result => rfl
                · rw [← Buffer.loggedPush_result]
                  cases (written.produce roomy.writableSize).loggedPush _ with
                  | error fault => rfl
                  | ok pushed =>
                      simp only [Except.map]
                      rw [← ih]
                      cases loggedLoop rest _ with
                      | error fault => rfl
                      | ok result => rfl
          · rfl

/-- One chunk goes into the room that was made and, if it is larger, behind it; no
`produce` on the way leaves the capacity. -/
theorem loggedLoop_chunk {t : Transceiver} (hwell : t.receiveBuffer.WellFormed)
    {chunk : List UInt8} (hchunk : chunk ≠ []) (hsmall : chunk.length < 2 ^ 31)
    (hfits : t.receiveBuffer.contents.length + chunk.length + readRoom <
      Buffer.maxBufferSize) :
    ∃ calls b, (∀ call ∈ calls, call.Within) ∧ b.WellFormed ∧
      b.contents = t.receiveBuffer.contents ++ chunk ∧
      ∀ rest, loggedLoop (.data chunk :: rest) t = (do
        let (more, last) ← loggedLoop rest { t with receiveBuffer := b }
        .ok (calls ++ more, last)) := by
  obtain ⟨roomy, hroomy, hwell', hsame, _, _⟩ :=
    Buffer.assureSpace_spec hwell readRoom (by omega)
  have hroom := hwell'.writableSize_eq
  have hint : toInt32 chunk.length = chunk.length := toInt32_of_lt hsmall
  have hword : toWord (chunk.length : Int) = chunk.length :=
    toWord_of_nonneg (Int.natCast_nonneg _) (by omega)
  have hpos : (0 : Int) < chunk.length :=
    Int.natCast_pos.mpr (List.length_pos_iff.mpr hchunk)
  have hpositions := hwell'.writePos_le
  have hturn : ∀ rest, loggedLoop (.data chunk :: rest) t = (do
      let written ← roomy.writeAt (chunk.take roomy.writableSize)
      if chunk.length ≤ roomy.writableSize then do
        let (more, last) ← loggedLoop rest
          { t with receiveBuffer := written.produce chunk.length }
        .ok (⟨written, chunk.length⟩ :: more, last)
      else do
        let (pushed, (_, full)) ← (written.produce roomy.writableSize).loggedPush
          (some (chunk.drop roomy.writableSize))
        let (more, last) ← loggedLoop rest { t with receiveBuffer := full }
        .ok (⟨written, roomy.writableSize⟩ :: pushed ++ more, last)) := by
    intro rest
    rw [loggedLoop, hroomy]
    simp only [bind, Except.bind, readv, if_neg hchunk, hint, if_pos hpos, hword]
  by_cases hall : chunk.length ≤ roomy.writableSize
  · have htake : chunk.take roomy.writableSize = chunk := List.take_of_length_le hall
    obtain ⟨written, hwrite, hgood, hcontents⟩ :=
      Buffer.writeAt_spec hwell' chunk (by rwa [← hroom])
    obtain ⟨hpos, hcap⟩ := Buffer.positions_of_writeAt hwrite
    refine ⟨[⟨written, chunk.length⟩], _, ?_, hgood, by rw [hcontents, hsame], ?_⟩
    · intro call hcall
      rw [List.mem_singleton.mp hcall, Produce.Within]
      simp only
      omega
    · intro rest
      rw [hturn, htake, hwrite]
      simp only [bind, Except.bind, if_pos hall]
      rfl
  · have hlength : (chunk.take roomy.writableSize).length = roomy.writableSize :=
      List.length_take_of_le (Nat.le_of_not_le hall)
    obtain ⟨written, hwrite, hgood, hcontents⟩ :=
      Buffer.writeAt_spec hwell' (chunk.take roomy.writableSize)
        (by rw [hlength, hroom])
    rw [hlength] at hgood hcontents
    rw [hsame] at hcontents
    have hpush : (written.produce roomy.writableSize).contents.length +
        (chunk.drop roomy.writableSize).length < Buffer.maxBufferSize := by
      rw [hcontents, List.length_append, hlength, List.length_drop]
      omega
    obtain ⟨hsite, hcap⟩ := Buffer.positions_of_writeAt hwrite
    obtain ⟨pushed, full, hfull, hgood', hcontents', hpushed⟩ :=
      Buffer.loggedPush_spec hgood hpush
    refine ⟨⟨written, roomy.writableSize⟩ :: pushed, full, ?_, hgood', ?_, ?_⟩
    · intro call hcall
      rcases List.mem_cons.mp hcall with rfl | hlater
      · rw [Produce.Within]
        simp only
        omega
      · exact hpushed call hlater
    · rw [hcontents', hcontents, List.append_assoc, List.take_append_drop]
    · intro rest
      rw [hturn, hwrite]
      simp only [bind, Except.bind, if_neg hall, hfull]

/-- The loop appends all chunks and goes on. -/
theorem loggedLoop_chunks (chunks : List (List UInt8)) :
    ∀ {t : Transceiver}, t.receiveBuffer.WellFormed →
      (∀ chunk ∈ chunks, chunk ≠ []) → (∀ chunk ∈ chunks, chunk.length < 2 ^ 31) →
      t.receiveBuffer.contents.length + chunks.flatten.length + readRoom <
        Buffer.maxBufferSize →
      ∃ calls b, (∀ call ∈ calls, call.Within) ∧ b.WellFormed ∧
        b.contents = t.receiveBuffer.contents ++ chunks.flatten ∧
        ∀ rest, loggedLoop (chunks.map .data ++ rest) t = (do
          let (more, last) ← loggedLoop rest { t with receiveBuffer := b }
          .ok (calls ++ more, last)) := by
  induction chunks with
  | nil =>
      intro t hwell _ _ _
      refine ⟨[], t.receiveBuffer, by simp, hwell, by simp, ?_⟩
      intro rest
      rw [List.map_nil, List.nil_append]
      cases loggedLoop rest t with
      | error fault => rfl
      | ok result => rfl
  | cons chunk rest ih =>
      intro t hwell hne hsmall hfits
      rw [List.flatten_cons, List.length_append] at hfits
      obtain ⟨calls, b, hcalls, hwell', hcontents, hturn⟩ := loggedLoop_chunk hwell
        (hne chunk List.mem_cons_self) (hsmall chunk List.mem_cons_self) (by omega)
      obtain ⟨later, last, hlater, hlast, hall, hloop⟩ :=
        @ih { t with receiveBuffer := b } hwell'
          (fun other hother => hne other (List.mem_cons_of_mem _ hother))
          (fun other hother => hsmall other (List.mem_cons_of_mem _ hother))
          (by simp only [hcontents, List.length_append]; omega)
      refine ⟨calls ++ later, last, ?_, hlast, ?_, ?_⟩
      · intro call hcall
        rcases List.mem_append.mp hcall with hearly | hlate
        · exact hcalls call hearly
        · exact hlater call hlate
      · rw [hall, hcontents, List.flatten_cons, List.append_assoc]
      · intro more
        rw [List.map_cons, List.cons_append, hturn, hloop]
        simp only
        cases loggedLoop more { t with receiveBuffer := last } with
        | error fault => rfl
        | ok result =>
            simp only [bind, Except.bind, List.append_assoc]

/-- How the `readv` calls of one `doResponse` end: the socket runs dry, the peer has
closed the connection, or there is an error. -/
inductive ReadEnd where
  | dry
  | endOfFile
  | error
deriving DecidableEq, Repr

def ReadEnd.result : ReadEnd → ReadResult
  | .dry => .again
  | .endOfFile => .closed
  | .error => .failed

/-- What the end does to the transceiver. -/
def ReadEnd.leaves (ending : ReadEnd) (t : Transceiver) : Transceiver :=
  match ending with
  | .dry => t
  | .endOfFile => t.close
  | .error => t.close

/-- The loop appends all chunks and then meets the end. -/
theorem loggedLoop_spec (chunks : List (List UInt8)) (ending : ReadEnd) {t : Transceiver}
    (hwell : t.receiveBuffer.WellFormed) (hne : ∀ chunk ∈ chunks, chunk ≠ [])
    (hsmall : ∀ chunk ∈ chunks, chunk.length < 2 ^ 31)
    (hfits : t.receiveBuffer.contents.length + chunks.flatten.length + readRoom <
      Buffer.maxBufferSize) :
    ∃ calls b, loggedLoop (chunks.map .data ++ [ending.result]) t =
        .ok (calls, ending.leaves { t with receiveBuffer := b }) ∧
      (∀ call ∈ calls, call.Within) ∧ b.WellFormed ∧
      b.contents = t.receiveBuffer.contents ++ chunks.flatten := by
  obtain ⟨calls, b, hcalls, hb, hcontents, hloop⟩ :=
    loggedLoop_chunks chunks hwell hne hsmall hfits
  obtain ⟨roomy, hroomy, hwell', hsame, _, _⟩ := Buffer.assureSpace_spec hb readRoom
    (by rw [hcontents, List.length_append]; exact hfits)
  refine ⟨calls ++ [], roomy, ?_, by rwa [List.append_nil], hwell', hsame.trans hcontents⟩
  rw [hloop]
  cases ending with
  | dry =>
      rw [ReadEnd.result, loggedLoop, hroomy]
      rfl
  | endOfFile =>
      rw [ReadEnd.result, loggedLoop, hroomy]
      rfl
  | error =>
      rw [ReadEnd.result, loggedLoop, hroomy]
      rfl

theorem responseLoop_spec (chunks : List (List UInt8)) (ending : ReadEnd) {t : Transceiver}
    (hwell : t.receiveBuffer.WellFormed) (hne : ∀ chunk ∈ chunks, chunk ≠ [])
    (hsmall : ∀ chunk ∈ chunks, chunk.length < 2 ^ 31)
    (hfits : t.receiveBuffer.contents.length + chunks.flatten.length + readRoom <
      Buffer.maxBufferSize) :
    ∃ b, responseLoop (chunks.map .data ++ [ending.result]) t =
        .ok (ending.leaves { t with receiveBuffer := b }) ∧ b.WellFormed ∧
      b.contents = t.receiveBuffer.contents ++ chunks.flatten := by
  obtain ⟨calls, b, hlogged, _, hwell', hcontents⟩ :=
    loggedLoop_spec chunks ending hwell hne hsmall hfits
  refine ⟨b, ?_, hwell', hcontents⟩
  rw [← loggedLoop_result, hlogged]
  rfl

/-- What one call hands on: all its bytes as one string, unless there are none. -/
def joined (bytes : List UInt8) : List (List UInt8) :=
  [bytes].filter fun response => !response.isEmpty

theorem shrinkLarge_spec {b : Buffer} (hwell : b.WellFormed) :
    ∃ b', shrinkLarge b = .ok b' ∧ b'.WellFormed ∧ b'.contents = b.contents := by
  by_cases hlarge : 8 * 1024 * 1024 < b.capacity
  · obtain ⟨b', hshrink, hwell', hsame, _⟩ := Buffer.shrink_spec hwell
    exact ⟨b', by rw [shrinkLarge, if_pos hlarge, hshrink], hwell', hsame⟩
  · exact ⟨b, by rw [shrinkLarge, if_neg hlarge], hwell, rfl⟩

/-- The end of `doResponse`: what is buffered becomes one string. -/
theorem doResponse_of_loop {t read : Transceiver} {reads : List ReadResult}
    (hloop : responseLoop reads t = .ok read) (hwell : read.receiveBuffer.WellFormed) :
    ∃ b, doResponse t reads = .ok ({ read with receiveBuffer := b },
        (if read.receiveBuffer.contents = [] then 0 else 1,
          joined read.receiveBuffer.contents)) ∧ b.WellFormed ∧ b.contents = [] := by
  by_cases hnone : read.receiveBuffer.contents = []
  · have hempty : read.receiveBuffer.empty = true := hwell.empty_iff.mpr hnone
    refine ⟨read.receiveBuffer, ?_, hwell, hnone⟩
    simp only [doResponse, hloop, bind, Except.bind, if_pos hempty, hnone]
    rfl
  · have hempty : ¬ read.receiveBuffer.empty = true :=
      fun hyes => hnone (hwell.empty_iff.mp hyes)
    have hpos : 0 < read.receiveBuffer.readableSize := by
      rw [hwell.readableSize_eq_length]
      exact List.length_pos_iff.mpr hnone
    obtain ⟨rest, hconsume, hwell', hrest, _⟩ :=
      Buffer.consume_spec hwell (Nat.le_refl read.receiveBuffer.contents.length)
    rw [List.drop_length] at hrest
    rw [← hwell.readableSize_eq_length] at hconsume
    obtain ⟨last, hlast, hgood, hnil⟩ := shrinkLarge_spec hwell'
    have hload := hwell.load_readable
    have hjoined : joined read.receiveBuffer.contents = [read.receiveBuffer.contents] := by
      rw [joined, List.filter_cons_of_pos, List.filter_nil]
      simpa using hnone
    refine ⟨last, ?_, hgood, hnil.trans hrest⟩
    simp only [doResponse, hloop, bind, Except.bind, if_neg hempty, hload, if_pos hpos,
      hconsume, hlast, if_neg hnone, hjoined]

/-- The most that one `readv` transfers, whatever room it is given. -/
def maxTransfer : Nat := 0x7ffff000

/-- A `doResponse` whose reads end with `EAGAIN`, on a receive buffer in any state:
no `produce` of its loop goes beyond the capacity; what was buffered and what is read
comes out in order as one string, or nothing if there is nothing; the buffer is left
empty.  The bytes fit in memory. -/
theorem doResponse_of_dry (t : Transceiver) (chunks : List (List UInt8))
    (hwell : t.receiveBuffer.WellFormed)
    (hread : ∀ chunk ∈ chunks, 1 ≤ chunk.length ∧ chunk.length ≤ maxTransfer)
    (hmemory : t.receiveBuffer.contents.length + chunks.flatten.length + readRoom <
      Buffer.maxBufferSize) :
    ∃ calls read buffer,
      loggedLoop (chunks.map .data ++ [.again]) t = .ok (calls, read) ∧
      (∀ call ∈ calls, call.Within) ∧
      doResponse t (chunks.map .data ++ [.again]) =
        .ok ({ t with receiveBuffer := buffer },
          if t.receiveBuffer.contents ++ chunks.flatten = [] then (0, [])
          else (1, [t.receiveBuffer.contents ++ chunks.flatten])) ∧
      buffer.WellFormed ∧ buffer.contents = [] ∧ buffer.empty = true := by
  have hnonempty : ∀ chunk ∈ chunks, chunk ≠ [] :=
    fun chunk hchunk => List.length_pos_iff.mp (hread chunk hchunk).1
  have hsmall : ∀ chunk ∈ chunks, chunk.length < 2 ^ 31 := by
    intro chunk hchunk
    have hmost := (hread chunk hchunk).2
    have hmax : maxTransfer = 2147479552 := rfl
    omega
  obtain ⟨calls, b, hlogged, hcalls, hgood, hcontents⟩ :=
    loggedLoop_spec chunks .dry hwell hnonempty hsmall hmemory
  have hloop : responseLoop (chunks.map .data ++ [.again]) t =
      .ok { t with receiveBuffer := b } := by
    rw [← loggedLoop_result]
    exact congrArg (Except.map Prod.snd) hlogged
  obtain ⟨last, hresponse, hlast, hnil⟩ := doResponse_of_loop hloop hgood
  refine ⟨calls, _, last, hlogged, hcalls, ?_, hlast, hnil, hlast.empty_iff.mpr hnil⟩
  rw [hresponse]
  simp only [hcontents]
  by_cases hnone : t.receiveBuffer.contents ++ chunks.flatten = []
  · rw [if_pos hnone, if_pos hnone, hnone]
    rfl
  · rw [if_neg hnone, if_neg hnone, joined, List.filter_cons_of_pos, List.filter_nil]
    simpa using hnone

/-- Two reads into a fresh receive buffer come out as one string. -/
theorem doResponse_of_two_reads :
    ∃ calls read buffer,
      loggedLoop [.data [49, 58], .data [97], .again] (fresh true 7 "127.0.0.1" 80 []) =
        .ok (calls, read) ∧
      (∀ call ∈ calls, call.Within) ∧
      doResponse (fresh true 7 "127.0.0.1" 80 []) [.data [49, 58], .data [97], .again] =
        .ok ({ fresh true 7 "127.0.0.1" 80 [] with receiveBuffer := buffer },
          (1, [[49, 58, 97]])) ∧
      buffer.WellFormed ∧ buffer.contents = [] ∧ buffer.empty = true :=
  doResponse_of_dry (fresh true 7 "127.0.0.1" 80 []) [[49, 58], [97]]
    Buffer.wellFormed_default (by decide) (by decide)

end Transceiver

end Tarsx
