/-
The batches that `send(const std::vector<Slice>&)` offers to the socket: the loop with its
index into the slices and a record of every `writev`.
-/
import Tarsx.ConnectionFlush

namespace Tarsx

open Foundation

namespace Connection

/-- `std::max<int>(sysconf(_SC_IOV_MAX), 16)`; `none` is -1, for no limit. -/
def iovLimit (iovMax : Option Nat) : Int :=
  max (match iovMax with
    | some n => toInt32 n
    | none => -1) 16

/-- A call of `writev`: the index of its first slice, the slices behind its vectors, and the
bytes the socket took. -/
structure Offer where
  first : Nat
  slices : List Slice
  taken : List UInt8
deriving DecidableEq, Repr

/-- `send(const std::vector<Slice>&)` from slice `alreadySentVecs` on: the returned `int`
and the calls of `writev`. -/
def sendBatches (maxIOVcount : Int) (slices : List Slice) :
    Nat → Nat → Nat → List WriteResult → Except Fault (Int × List Offer)
  | 0, _, _, _ => .error .nonterminating
  | fuel + 1, alreadySentVecs, alreadySentBytes, results =>
      if alreadySentVecs < slices.length then
        let vc := toWord (min (toInt32 (slices.length - alreadySentVecs)) maxIOVcount)
        let last := wordAdd alreadySentVecs vc
        if last ≤ slices.length then
          let batch := (slices.take last).drop alreadySentVecs
          if batch.all (fun slice => 0 < slice.dataLen) then
            let expectSent := (batch.map Slice.dataLen).sum
            if toInt32 batch.length ≤ maxIOVcount then
              let (bytes, taken) :=
                tcpWriteV (batch.flatMap Slice.bytes) (results.headD .again)
              let offer : Offer := ⟨alreadySentVecs, batch, taken⟩
              if bytes = -1 then .ok (-1, [offer])
              else if bytes = 0 then .ok (toInt32 alreadySentBytes, [offer])
              else if bytes = toInt32 expectSent then do
                let (sent, offers) ← sendBatches maxIOVcount slices fuel last
                  (wordAdd alreadySentBytes (toWord bytes)) results.tail
                .ok (sent, offer :: offers)
              else if 0 < bytes then
                .ok (toInt32 (wordAdd alreadySentBytes (toWord bytes)), [offer])
              else .error .assertion
            else .error .assertion
          else .error .assertion
        else .error .outOfBounds
      else .ok (toInt32 alreadySentBytes, [])

/-- The calls of `writev` from slice `first` on: each is offered at most `limit` slices from
where the one before ended, and all but the last are taken whole. -/
def Batches (limit : Nat) (slices : List Slice) : Nat → List Offer → Prop
  | _, [] => True
  | first, offer :: rest =>
      offer.first = first ∧ offer.slices ≠ [] ∧ offer.slices.length ≤ limit ∧
        offer.slices = (slices.drop first).take offer.slices.length ∧
        (rest ≠ [] → offer.taken = contents offer.slices) ∧
        Batches limit slices (first + offer.slices.length) rest

/-- The calls end when everything is sent or the last one is not taken whole. -/
def Ended (slices : List Slice) (offers : List Offer) : Prop :=
  offers.flatMap Offer.taken = contents slices ∨
    ∃ early last, offers = early ++ [last] ∧ last.taken ≠ contents last.slices

/-! ### One turn -/

theorem le_iovLimit (iovMax : Option Nat) : 16 ≤ iovLimit iovMax := le_max_right _ _

theorem iovLimit_le (iovMax : Option Nat) : (iovLimit iovMax).toNat ≤ max (iovMax.getD 0) 16 := by
  cases iovMax with
  | none => exact le_max_right _ _
  | some n =>
      have hle := toInt32_le n
      rw [iovLimit, Option.getD_some]
      omega

section

variable {maxIOVcount : Int} {slices : List Slice} {fuel first sent : Nat}
variable {results : List WriteResult}

theorem min_count (hlimit : 16 ≤ maxIOVcount) {count : Nat} (hcount : count < 2 ^ 31) :
    toWord (min (toInt32 count) maxIOVcount) = min count maxIOVcount.toNat := by
  rw [toInt32_of_lt hcount, toWord_of_nonneg (by omega) (by omega)]
  omega

/-- The conversions between `size_t` and `int` keep the numbers, and the batch is the next
`maxIOVcount` slices. -/
theorem sendBatches_turn (hlimit : 16 ≤ maxIOVcount) (hsize : slices.length < 2 ^ 31)
    (hfirst : first < slices.length) :
    sendBatches maxIOVcount slices (fuel + 1) first sent results =
      let batch := (slices.drop first).take maxIOVcount.toNat
      if batch.all (fun slice => 0 < slice.dataLen) then
        let (bytes, taken) := tcpWriteV (batch.flatMap Slice.bytes) (results.headD .again)
        if bytes = -1 then .ok (-1, [⟨first, batch, taken⟩])
        else if bytes = 0 then .ok (toInt32 sent, [⟨first, batch, taken⟩])
        else if bytes = toInt32 (batch.map Slice.dataLen).sum then do
          let (sent, offers) ← sendBatches maxIOVcount slices fuel (first + batch.length)
            (wordAdd sent (toWord bytes)) results.tail
          .ok (sent, ⟨first, batch, taken⟩ :: offers)
        else if 0 < bytes then
          .ok (toInt32 (wordAdd sent (toWord bytes)), [⟨first, batch, taken⟩])
        else .error .assertion
      else .error .assertion := by
  have hlen : ((slices.drop first).take maxIOVcount.toNat).length =
      min (slices.length - first) maxIOVcount.toNat := by
    rw [List.length_take, List.length_drop, Nat.min_comm]
  have hlast : wordAdd first (min (slices.length - first) maxIOVcount.toNat) =
      first + ((slices.drop first).take maxIOVcount.toNat).length := by
    rw [hlen]
    exact wordAdd_of_lt (by omega)
  have hbatch : (slices.take (first + ((slices.drop first).take maxIOVcount.toNat).length)).drop
      first = (slices.drop first).take maxIOVcount.toNat := by
    rw [List.drop_take, Nat.add_sub_cancel_left, List.length_take, ← List.take_eq_take_min]
  have hinside : first + ((slices.drop first).take maxIOVcount.toNat).length ≤ slices.length := by
    omega
  have hcnt : toInt32 ((slices.drop first).take maxIOVcount.toNat).length ≤ maxIOVcount := by
    rw [toInt32_of_lt (by omega)]
    omega
  rw [sendBatches, if_pos hfirst]
  dsimp only
  rw [min_count hlimit (by omega), hlast, hbatch, if_pos hinside, if_pos hcnt]

theorem sendBatches_done (hlast : slices.length ≤ first) :
    sendBatches maxIOVcount slices (fuel + 1) first sent results = .ok (toInt32 sent, []) := by
  rw [sendBatches, if_neg (Nat.not_lt.mpr hlast)]

/-- Without the record, the loop is the one over the slices not yet sent. -/
theorem sendBatches_sendSlices (hlimit : 16 ≤ maxIOVcount) (hsize : slices.length < 2 ^ 31) :
    (sendBatches maxIOVcount slices fuel first sent results).map
        (fun out => (out.1, out.2.flatMap Offer.taken)) =
      sendSlices maxIOVcount.toNat fuel (slices.drop first) first sent results := by
  induction fuel generalizing first sent results with
  | zero => rfl
  | succ fuel ih =>
      by_cases hfirst : first < slices.length
      · have hsome : slices.drop first ≠ [] := by
          rw [ne_eq, List.drop_eq_nil_iff]
          omega
        have hlen : (slices.drop first).length = slices.length - first := List.length_drop
        have hend : batchEnd maxIOVcount.toNat first (slices.drop first).length =
            first + ((slices.drop first).take maxIOVcount.toNat).length := by
          rw [batchEnd, hlen, Int.toNat_of_nonneg (by omega), min_count hlimit (by omega),
            List.length_take, hlen, Nat.min_comm]
          exact wordAdd_of_lt (by omega)
        have hcount : batchCount maxIOVcount.toNat first (slices.drop first).length =
            ((slices.drop first).take maxIOVcount.toNat).length := by
          rw [batchCount, hend, Nat.add_sub_cancel_left]
        have hbatch : (slices.drop first).take
            ((slices.drop first).take maxIOVcount.toNat).length =
              (slices.drop first).take maxIOVcount.toNat := by
          rw [List.length_take, ← List.take_eq_take_min]
        have hinside : ((slices.drop first).take maxIOVcount.toNat).length ≤
            (slices.drop first).length := List.length_take_le' _ _
        rw [sendBatches_turn hlimit hsize hfirst, sendSlices, if_neg hsome]
        dsimp only
        rw [hcount, if_pos hinside, hbatch, hend]
        generalize tcpWriteV _ _ = result
        obtain ⟨bytes, taken⟩ := result
        split
        · dsimp only
          split
          · simp [Except.map]
          · split
            · simp [Except.map]
            · split
              · have hih := @ih (first + ((slices.drop first).take maxIOVcount.toNat).length)
                  (wordAdd sent (toWord bytes)) results.tail
                rw [← List.drop_drop] at hih
                rw [← hih]
                cases sendBatches maxIOVcount slices fuel _ _ _ with
                | error fault => rfl
                | ok out => rfl
              · split
                · simp [Except.map]
                · rfl
        · rfl
      · have hnone : slices.drop first = [] := List.drop_eq_nil_of_le (Nat.le_of_not_lt hfirst)
        rw [sendBatches_done (Nat.le_of_not_lt hfirst), sendSlices, if_pos hnone]
        rfl

/-! ### All turns -/

theorem Valid.length_le_total (h : Valid slices) : slices.length ≤ total slices := by
  induction slices with
  | nil => exact Nat.le_refl 0
  | cons slice rest ih =>
      have hpos := (h slice List.mem_cons_self).1
      have hrest := ih h.tail
      rw [List.length_cons, total_cons]
      omega

/-- An outcome without error is the number of bytes taken, which are the first of those
offered. -/
theorem tcpWriteV_of_no_error {data : List UInt8} (hsmall : data.length < 2 ^ 31)
    {result : WriteResult} (hresult : result ≠ .interrupted ∧ result ≠ .failed) :
    ∃ taken, tcpWriteV data result = ((taken.length : Int), taken) ∧ taken <+: data := by
  cases result with
  | accepted n =>
      refine ⟨data.take n, ?_, List.take_prefix n data⟩
      rw [tcpWriteV, List.length_take, toInt32_of_lt (by omega)]
  | again => exact ⟨[], rfl, List.nil_prefix⟩
  | interrupted => exact absurd rfl hresult.1
  | failed => exact absurd rfl hresult.2

/-- A batch that was taken whole, and what the later ones took. -/
theorem contents_next (slices : List Slice) (first k : Nat) :
    contents (slices.drop first) = contents ((slices.drop first).take k) ++
      contents (slices.drop (first + ((slices.drop first).take k).length)) := by
  rw [contents_split (slices.drop first) k, ← List.drop_drop, List.length_take,
    ← List.drop_eq_drop_min]

/-- The bytes of a batch and of the slices behind it. -/
theorem total_next (slices : List Slice) (first k : Nat) :
    total (slices.drop first) = total ((slices.drop first).take k) +
      total (slices.drop (first + ((slices.drop first).take k).length)) := by
  rw [← total_take_add_drop (slices.drop first) k, ← List.drop_drop, List.length_take,
    ← List.drop_eq_drop_min]

/-- Behind its last outcome the socket takes no more. -/
theorem headD_of_no_error
    (hresults : ∀ result ∈ results, result ≠ .interrupted ∧ result ≠ .failed) :
    results.headD .again ≠ .interrupted ∧ results.headD .again ≠ .failed := by
  cases results with
  | nil => exact ⟨WriteResult.noConfusion, WriteResult.noConfusion⟩
  | cons result rest => exact hresults result List.mem_cons_self

theorem Batches.single {limit : Nat} {offer : Offer} (hfirst : offer.first = first)
    (hsome : offer.slices ≠ []) (hlimit : offer.slices.length ≤ limit)
    (hplace : offer.slices = (slices.drop first).take offer.slices.length) :
    Batches limit slices first [offer] :=
  ⟨hfirst, hsome, hlimit, hplace, fun h => absurd rfl h, trivial⟩

/-- A turn without error: the batch is taken whole and the loop goes on behind it, or the
number of all bytes taken is returned. -/
theorem sendBatches_no_error (hlimit : 16 ≤ maxIOVcount) (h : Valid slices)
    (hsize : slices.length < 2 ^ 31) (hfirst : first < slices.length) {batch : List Slice}
    (hbatch : (slices.drop first).take maxIOVcount.toNat = batch)
    (hsmall : sent + total batch < 2 ^ 31)
    (hresult : results.headD .again ≠ .interrupted ∧ results.headD .again ≠ .failed) :
    ∃ taken, taken <+: contents batch ∧
      sendBatches maxIOVcount slices (fuel + 1) first sent results =
        if taken.length = total batch then do
          let (sent, offers) ← sendBatches maxIOVcount slices fuel (first + batch.length)
            (sent + taken.length) results.tail
          .ok (sent, ⟨first, batch, taken⟩ :: offers)
        else .ok (((sent + taken.length : Nat) : Int), [⟨first, batch, taken⟩]) := by
  have hvalid : Valid batch := hbatch ▸ (h.drop first).take _
  have hoffered := hvalid.length_contents
  have hpos : total batch ≠ 0 := by
    intro hzero
    have hlen := congrArg List.length (hbatch.trans (hvalid.eq_nil hzero))
    rw [List.length_take, List.length_drop, List.length_nil] at hlen
    omega
  obtain ⟨taken, hwrite, hprefix⟩ :=
    tcpWriteV_of_no_error (show (contents batch).length < 2 ^ 31 by omega) hresult
  have hle := hprefix.length_le
  have hadd : wordAdd sent (toWord taken.length) = sent + taken.length := by
    rw [toWord_of_nonneg (by omega) (by omega), Int.toNat_natCast]
    exact wordAdd_of_lt (by omega)
  have htotal : toInt32 (batch.map Slice.dataLen).sum = total batch :=
    toInt32_of_lt (show total batch < 2 ^ 31 by omega)
  refine ⟨taken, hprefix, ?_⟩
  rw [sendBatches_turn hlimit hsize hfirst, hbatch]
  dsimp only
  rw [if_pos hvalid.all_pos, ← contents, hwrite]
  dsimp only
  rw [if_neg (by omega), htotal, hadd]
  by_cases hnone : taken.length = 0
  · rw [if_pos (by omega), if_neg (by omega), hnone, toInt32_of_lt (by omega), Nat.add_zero]
  · rw [if_neg (by omega)]
    by_cases hwhole : taken.length = total batch
    · rw [if_pos (by omega), if_pos hwhole]
    · rw [if_neg (by omega), if_neg hwhole, if_pos (by omega), toInt32_of_lt (by omega)]

theorem Batches.mono {limit limit' : Nat} {offers : List Offer} (hle : limit ≤ limit')
    (h : Batches limit slices first offers) : Batches limit' slices first offers := by
  induction offers generalizing first with
  | nil => trivial
  | cons offer rest ih =>
      obtain ⟨hfirst, hsome, hlimit, hplace, hwhole, hrest⟩ := h
      exact ⟨hfirst, hsome, hlimit.trans hle, hplace, hwhole, ih hrest⟩

theorem sendBatches_spec (hlimit : 16 ≤ maxIOVcount) (h : Valid slices)
    (hsize : slices.length < 2 ^ 31)
    (hresults : ∀ result ∈ results, result ≠ .interrupted ∧ result ≠ .failed)
    (hfirst : first ≤ slices.length) (hfuel : slices.length < first + fuel)
    (hsmall : sent + total (slices.drop first) < 2 ^ 31) :
    ∃ offers, sendBatches maxIOVcount slices fuel first sent results =
        .ok (((sent + (offers.flatMap Offer.taken).length : Nat) : Int), offers) ∧
      Batches maxIOVcount.toNat slices first offers ∧ Ended (slices.drop first) offers ∧
      offers.flatMap Offer.taken <+: contents (slices.drop first) := by
  induction fuel generalizing first sent results with
  | zero => omega
  | succ fuel ih =>
      by_cases hmore : first < slices.length
      · have hnext := contents_next slices first maxIOVcount.toNat
        have hsum := total_next slices first maxIOVcount.toNat
        have hlen : ((slices.drop first).take maxIOVcount.toNat).length =
            min maxIOVcount.toNat (slices.length - first) := by
          rw [List.length_take, List.length_drop]
        have hplace : (slices.drop first).take maxIOVcount.toNat = (slices.drop first).take
            ((slices.drop first).take maxIOVcount.toNat).length := by
          rw [List.length_take, ← List.take_eq_take_min]
        have hvalid : Valid ((slices.drop first).take maxIOVcount.toNat) := (h.drop first).take _
        generalize hbatch : (slices.drop first).take maxIOVcount.toNat = batch at *
        have hoffered := hvalid.length_contents
        obtain ⟨taken, hprefix, hturn⟩ :=
          @sendBatches_no_error maxIOVcount slices fuel first sent results hlimit h hsize hmore
            batch hbatch (by omega) (headD_of_no_error hresults)
        have hsome : batch ≠ [] := List.ne_nil_of_length_pos (by omega)
        rw [hturn]
        by_cases hwhole : taken.length = total batch
        · obtain rfl : taken = contents batch := hprefix.eq_of_length (by omega)
          obtain ⟨offers, hrun, hbatches, hended, hmoreTaken⟩ := @ih (first + batch.length)
            (sent + (contents batch).length) results.tail
            (fun result hmem => hresults result (List.mem_of_mem_tail hmem)) (by omega) (by omega)
            (by omega)
          refine ⟨⟨first, batch, contents batch⟩ :: offers, ?_, ?_, ?_, ?_⟩
          · rw [if_pos hwhole, hrun, List.flatMap_cons, List.length_append, Nat.add_assoc]
            rfl
          · exact ⟨rfl, hsome, by dsimp only; omega, hplace, fun _ => rfl, hbatches⟩
          · rcases hended with hall | ⟨early, last, hlast, hshort⟩
            · exact Or.inl (by rw [List.flatMap_cons, hall, hnext])
            · exact Or.inr ⟨⟨first, batch, contents batch⟩ :: early, last,
                by rw [hlast, List.cons_append], hshort⟩
          · rw [List.flatMap_cons, hnext]
            exact (List.prefix_append_right_inj _).mpr hmoreTaken
        · refine ⟨[⟨first, batch, taken⟩], ?_, ?_, ?_, ?_⟩
          · rw [if_neg hwhole, List.flatMap_singleton]
          · exact Batches.single rfl hsome (by dsimp only; omega) hplace
          · refine Or.inr ⟨[], _, rfl, ?_⟩
            exact fun hall => hwhole ((congrArg List.length hall).trans hoffered)
          · rw [List.flatMap_singleton, hnext]
            exact hprefix.trans (List.prefix_append _ _)
      · have hnone : slices.drop first = [] := List.drop_eq_nil_of_le (Nat.le_of_not_lt hmore)
        refine ⟨[], ?_, trivial, Or.inl (by rw [hnone]; rfl), List.nil_prefix⟩
        rw [sendBatches_done (Nat.le_of_not_lt hmore), toInt32_of_lt (by omega)]
        rfl

end

/-- For slices that are not empty and outcomes without error, whatever the limit: the loop
ends, each `writev` is offered at most `max(IOV_MAX, 16)` slices from where the batch before,
taken whole, ended, none is left out until everything is sent or a `writev` is not taken
whole, and the number returned is that of the bytes taken, which are the first of the
contents. -/
theorem send_in_batches (iovMax : Option Nat) {slices : List Slice} (h : Valid slices)
    (htotal : total slices < 2 ^ 31) {results : List WriteResult}
    (hresults : ∀ result ∈ results, result ≠ .interrupted ∧ result ≠ .failed) :
    ∃ offers, sendBatches (iovLimit iovMax) slices (slices.length + 1) 0 0 results =
        .ok (((offers.flatMap Offer.taken).length : Int), offers) ∧
      Batches (max (iovMax.getD 0) 16) slices 0 offers ∧ Ended slices offers ∧
      offers.flatMap Offer.taken <+: contents slices := by
  have hsize := h.length_le_total
  have hall : 0 + total (slices.drop 0) < 2 ^ 31 := by
    rw [List.drop_zero]
    omega
  obtain ⟨offers, hrun, hbatches, hended, htaken⟩ :=
    @sendBatches_spec _ slices (slices.length + 1) 0 0 results (le_iovLimit iovMax) h (by omega)
      hresults (Nat.zero_le _) (by omega) hall
  rw [Nat.zero_add] at hrun
  exact ⟨offers, hrun, hbatches.mono (iovLimit_le iovMax), hended, htaken⟩

/-- 17 slices with the least limit: a full batch, and a last one of one slice; all 17 bytes
are taken. -/
theorem send_in_batches_seventeen :
    ∃ offers, sendBatches (iovLimit none) (List.replicate 17 ⟨[7], 1⟩) 18 0 0
        [.accepted 16, .accepted 1] = .ok (17, offers) ∧
      offers = [⟨0, List.replicate 16 ⟨[7], 1⟩, List.replicate 16 7⟩,
        ⟨16, [⟨[7], 1⟩], [7]⟩] ∧
      Batches 16 (List.replicate 17 ⟨[7], 1⟩) 0 offers ∧
      Ended (List.replicate 17 ⟨[7], 1⟩) offers ∧
      offers.flatMap Offer.taken <+: contents (List.replicate 17 ⟨[7], 1⟩) := by
  have hvalid : Valid (List.replicate 17 ⟨[7], 1⟩) := by
    intro slice hmem
    rw [List.eq_of_mem_replicate hmem]
    decide
  obtain ⟨offers, hrun, hbatches, hended, htaken⟩ :=
    @send_in_batches none _ hvalid (by decide) [.accepted 16, .accepted 1] (by decide)
  have hoffers : offers = [⟨0, List.replicate 16 ⟨[7], 1⟩, List.replicate 16 7⟩,
      ⟨16, [⟨[7], 1⟩], [7]⟩] := (Prod.mk.inj (Except.ok.inj hrun)).2.symm
  refine ⟨offers, ?_, hoffers, hbatches, hended, htaken⟩
  rw [hoffers]
  rfl

end Connection

end Tarsx
