/-
A writable event of a connection: which bytes of `sendBuffer_` the socket takes and which
slices `adjustSlices` leaves.
-/
import Tarsx.Connection
import Tarsx.Foundation.Run

namespace Tarsx

open Foundation

namespace Connection

/-- The concatenated contents of the slices. -/
def contents (slices : List Slice) : List UInt8 := slices.flatMap Slice.bytes

/-- The bytes that the slices claim to hold. -/
def total (slices : List Slice) : Nat := (slices.map Slice.dataLen).sum

/-- Every slice is not empty and its memory is as long as it says. -/
def Valid (slices : List Slice) : Prop :=
  ∀ slice ∈ slices, 0 < slice.dataLen ∧ slice.dataLen ≤ slice.data.length

/-- The first `n` bytes are whole slices. -/
def Boundary (slices : List Slice) (n : Nat) : Prop := ∃ k, total (slices.take k) = n

theorem Valid.tail {slice : Slice} {rest : List Slice} (h : Valid (slice :: rest)) :
    Valid rest :=
  fun other hmem => h other (List.mem_cons_of_mem _ hmem)

theorem Valid.drop {slices : List Slice} (h : Valid slices) (k : Nat) : Valid (slices.drop k) :=
  fun slice hmem => h slice (List.mem_of_mem_drop hmem)

theorem Valid.take {slices : List Slice} (h : Valid slices) (k : Nat) : Valid (slices.take k) :=
  fun slice hmem => h slice (List.mem_of_mem_take hmem)

@[simp] theorem total_nil : total [] = 0 := rfl

@[simp] theorem total_cons (slice : Slice) (rest : List Slice) :
    total (slice :: rest) = slice.dataLen + total rest := rfl

theorem total_take_add_drop (slices : List Slice) (k : Nat) :
    total (slices.take k) + total (slices.drop k) = total slices := by
  rw [total, total, total, ← List.sum_append, ← List.map_append, List.take_append_drop]

theorem Valid.length_contents {slices : List Slice} (h : Valid slices) :
    (contents slices).length = total slices := by
  induction slices with
  | nil => rfl
  | cons slice rest ih =>
      obtain ⟨-, hlen⟩ := h slice List.mem_cons_self
      have hbytes : (Slice.bytes slice).length = slice.dataLen := by
        rw [Slice.bytes, List.length_take, Nat.min_eq_left hlen]
      rw [contents, List.flatMap_cons, List.length_append, hbytes, total_cons]
      exact congrArg _ (ih h.tail)

theorem Valid.contents_drop {slices : List Slice} (h : Valid slices) (k : Nat) :
    contents (slices.drop k) = (contents slices).drop (total (slices.take k)) := by
  have hsplit : contents slices = contents (slices.take k) ++ contents (slices.drop k) := by
    rw [contents, contents, contents, ← List.flatMap_append, List.take_append_drop]
  rw [hsplit, ← (h.take k).length_contents, List.drop_left]

/-! ## `adjustSlices` -/

/-- What `adjustSlices` leaves: the slices after the last one it skips whole; the bytes of
one that it skips in part are moved and nothing else changes. -/
theorem adjustSlices_spec {slices : List Slice} (h : Valid slices) (toSkip : Nat) :
    ∃ k rest, adjustSlices slices toSkip = .ok rest ∧ Valid rest ∧
      total (slices.take k) ≤ toSkip ∧ total rest = total (slices.drop k) ∧
      (total (slices.take k) = toSkip ∨ slices.drop k = [] → rest = slices.drop k) ∧
      (∀ later, total (slices.take later) ≤ toSkip →
        total (slices.take later) ≤ total (slices.take k)) := by
  induction slices generalizing toSkip with
  | nil => exact ⟨0, [], rfl, h, Nat.zero_le _, rfl, fun _ => rfl, fun _ _ => by simp⟩
  | cons slice rest ih =>
      obtain ⟨hpos, hlen⟩ := h slice List.mem_cons_self
      by_cases hwhole : slice.dataLen ≤ toSkip
      · obtain ⟨k, left, hrun, hvalid, hle, htotal, hdrop, hlast⟩ :=
          ih h.tail (toSkip - slice.dataLen)
        refine ⟨k + 1, left, ?_, hvalid, ?_, htotal, ?_, ?_⟩
        · rw [adjustSlices, if_pos hpos, if_pos hwhole, hrun]
        · rw [List.take_succ_cons, total_cons]
          omega
        · rw [List.take_succ_cons, total_cons, List.drop_succ_cons]
          intro hend
          exact hdrop (hend.imp_left (by omega))
        · intro later hlater
          cases later with
          | zero => simp
          | succ later =>
              rw [List.take_succ_cons, total_cons] at hlater ⊢
              rw [List.take_succ_cons, total_cons]
              have hrest := hlast later (by omega)
              omega
      · have hlast : ∀ later, total ((slice :: rest).take later) ≤ toSkip →
            total ((slice :: rest).take later) ≤ total ((slice :: rest).take 0) := by
          intro later hlater
          cases later with
          | zero => exact le_rfl
          | succ later =>
              rw [List.take_succ_cons, total_cons] at hlater
              omega
        by_cases hnone : toSkip = 0
        · refine ⟨0, slice :: rest, ?_, h, Nat.zero_le _, rfl, fun _ => rfl, hlast⟩
          rw [adjustSlices, if_pos hpos, if_neg hwhole, if_neg (by simpa using hnone)]
        · let moved := (slice.data.drop toSkip).take (slice.dataLen - toSkip)
          have hmoved : moved.length ≤ slice.data.length :=
            (List.length_take_le' _ _).trans (by rw [List.length_drop]; exact Nat.sub_le _ _)
          refine ⟨0, { slice with data := moved ++ slice.data.drop moved.length } :: rest,
            ?_, ?_, Nat.zero_le _, rfl, ?_, hlast⟩
          · rw [adjustSlices, if_pos hpos, if_neg hwhole, if_pos hnone]
          · intro other hmem
            rcases List.mem_cons.mp hmem with rfl | hrest
            · refine ⟨hpos, ?_⟩
              rw [List.length_append, List.length_drop, Nat.add_sub_cancel' hmoved]
              exact hlen
            · exact h.tail other hrest
          · rintro (hzero | hempty)
            · exact absurd hzero.symm hnone
            · cases hempty

theorem Valid.eq_nil {slices : List Slice} (h : Valid slices) (hzero : total slices = 0) :
    slices = [] := by
  cases slices with
  | nil => rfl
  | cons slice rest =>
      have hpos := (h slice List.mem_cons_self).1
      rw [total_cons] at hzero
      omega

theorem total_take_le (slices : List Slice) (k : Nat) : total (slices.take k) ≤ total slices :=
  (Nat.le_add_right _ _).trans_eq (total_take_add_drop slices k)

theorem Boundary.le {slices : List Slice} {n : Nat} (h : Boundary slices n) :
    n ≤ total slices := by
  obtain ⟨k, rfl⟩ := h
  exact total_take_le slices k

/-- `adjustSlices` drops the first `n` bytes when they are whole slices or everything. -/
theorem adjustSlices_drops {slices : List Slice} (h : Valid slices) {n : Nat}
    (hn : Boundary slices n ∨ total slices ≤ n) :
    ∃ rest, adjustSlices slices n = .ok rest ∧ contents rest = (contents slices).drop n := by
  obtain ⟨k, rest, hrun, -, hle, -, hdrop, hlast⟩ := adjustSlices_spec h n
  refine ⟨rest, hrun, ?_⟩
  rcases hn with ⟨later, hlater⟩ | hall
  · have hge := hlast later hlater.le
    have hexact : total (slices.take k) = n := by omega
    rw [hdrop (.inl hexact), h.contents_drop, hexact]
  · have hge := hlast slices.length (by rwa [List.take_length])
    rw [List.take_length] at hge
    have hempty : slices.drop k = [] :=
      (h.drop k).eq_nil (by have := total_take_add_drop slices k; omega)
    rw [hdrop (.inr hempty), hempty, List.drop_eq_nil_of_le (by rwa [h.length_contents])]
    rfl

theorem adjustSlices_drops_iff {slices : List Slice} (h : Valid slices) (n : Nat) :
    (∃ rest, adjustSlices slices n = .ok rest ∧ contents rest = (contents slices).drop n) ↔
      Boundary slices n ∨ total slices ≤ n := by
  refine ⟨?_, adjustSlices_drops h⟩
  rintro ⟨rest, hrest, hcontents⟩
  obtain ⟨k, left, hrun, hvalid, hle, htotal, -, -⟩ := adjustSlices_spec h n
  cases hrest.symm.trans hrun
  have hlen := congrArg List.length hcontents
  rw [hvalid.length_contents, htotal, List.length_drop, h.length_contents] at hlen
  have hsplit := total_take_add_drop slices k
  by_cases hall : total slices ≤ n
  · exact .inr hall
  · exact .inl ⟨k, by omega⟩

/-- A skip that is not off by less than the limit of a backlog. -/
theorem adjustSlices_exact {slices rest : List Slice} (h : Valid slices) {toSkip accepted : Nat}
    (hrest : adjustSlices slices toSkip = .ok rest) (hsmall : total rest < 8 * 1024)
    (haccepted : accepted ≤ total slices)
    (hgap : toSkip ≤ accepted ∨ accepted + 8 * 1024 ≤ toSkip) :
    contents rest = (contents slices).drop accepted ↔
      (toSkip = accepted ∧ Boundary slices accepted) ∨
        (accepted = total slices ∧ accepted ≤ toSkip) := by
  constructor
  · intro hcontents
    obtain ⟨k, left, hrun, hvalid, hle, htotal, -, hlast⟩ := adjustSlices_spec h toSkip
    cases hrest.symm.trans hrun
    have hlen := congrArg List.length hcontents
    rw [hvalid.length_contents, htotal, List.length_drop, h.length_contents] at hlen
    have hsplit := total_take_add_drop slices k
    rcases hgap with hfew | hmany
    · exact .inl ⟨by omega, k, by omega⟩
    · have hall := hlast slices.length (by rw [List.take_length]; omega)
      rw [List.take_length] at hall
      exact .inr ⟨by omega, by omega⟩
  · rintro (⟨rfl, hboundary⟩ | ⟨rfl, hall⟩)
    · obtain ⟨left, hrun, hcontents⟩ := adjustSlices_drops h (.inl hboundary)
      cases hrest.symm.trans hrun
      exact hcontents
    · obtain ⟨left, hrun, hcontents⟩ := adjustSlices_drops h (.inr hall)
      cases hrest.symm.trans hrun
      rw [hcontents, List.drop_eq_nil_of_le (by rwa [h.length_contents]),
        List.drop_eq_nil_of_le h.length_contents.le]

/-! ## The batches of `send` -/

/-- The number returned counts the bytes accepted, and they end between two slices; or
everything is accepted, and the number skips it all. -/
def Ends (counted accepted : Nat) (slices : List Slice) (taken : Nat) : Prop :=
  toInt32 counted ≠ -1 ∧
    ((toWord (toInt32 counted) = accepted ∧ Boundary slices taken) ∨
      (taken = total slices ∧ accepted ≤ toWord (toInt32 counted)))

/-- The next batch ends at the last slice or before. -/
def Inside (maxIOVcount first : Nat) (slices : List Slice) : Prop :=
  batchCount maxIOVcount first slices.length ≤ slices.length

/-- When the outcomes of the socket calls are accounted for, `first` slices and `sent` bytes
being accepted before: no batch reaches behind the last slice, no error follows an accepted
batch, the last batch ends between two slices, and the counts survive the `int`s they are
kept in. -/
def Accounted (maxIOVcount : Nat) : Nat → Nat → List Slice → List WriteResult → Prop
  | first, sent, slices, [] => Inside maxIOVcount first slices ∧ Ends sent sent slices 0
  | first, sent, slices, result :: results =>
      if slices = [] then Ends sent sent [] 0
      else
        Inside maxIOVcount first slices ∧
          match result with
          | .again => Ends sent sent slices 0
          | .interrupted => sent = 0
          | .failed => sent = 0
          | .accepted n =>
              let count := batchCount maxIOVcount first slices.length
              let expected := total (slices.take count)
              let taken := min n expected
              if toInt32 taken = 0 then Ends sent (sent + taken) slices taken
              else if taken = expected then
                toInt32 taken ≠ -1 ∧
                  Accounted maxIOVcount (batchEnd maxIOVcount first slices.length)
                    (sent + taken) (slices.drop count) results
              else
                0 < toInt32 taken ∧ toInt32 taken ≠ toInt32 expected ∧
                  Ends (sent + taken) (sent + taken) slices taken

/-- The outcome of the loop is accounted for. -/
def Settled (sent : Nat) (slices : List Slice) (bytes : Int) (taken : List UInt8) : Prop :=
  taken = (contents slices).take taken.length ∧
    ((bytes = -1 ∧ sent + taken.length = 0) ∨
      (bytes ≠ -1 ∧
        ((toWord bytes = sent + taken.length ∧ Boundary slices taken.length) ∨
          (taken.length = total slices ∧ sent + taken.length ≤ toWord bytes))))

theorem Valid.all_pos {slices : List Slice} (h : Valid slices) :
    slices.all (fun slice => 0 < slice.dataLen) = true :=
  List.all_eq_true.mpr fun slice hmem => by simpa using (h slice hmem).1

section

variable {maxIOVcount fuel first counted sent : Nat} {slices : List Slice}
variable {results : List WriteResult}

theorem inside_nil (maxIOVcount first : Nat) : Inside maxIOVcount first [] := by
  have hzero : toWord (min (toInt32 0) maxIOVcount) = 0 := by
    rw [show toInt32 0 = 0 from rfl, min_eq_left (Int.natCast_nonneg _)]
    rfl
  rw [Inside, batchCount, batchEnd, List.length_nil, hzero, wordAdd]
  omega

theorem sendSlices_again (h : Valid slices) (hsome : slices ≠ [])
    (hinside : Inside maxIOVcount first slices)
    (hnone : results = [] ∨ ∃ rest, results = .again :: rest) :
    sendSlices maxIOVcount (fuel + 1) slices first counted results =
      .ok (toInt32 counted, []) := by
  rw [Inside] at hinside
  rcases hnone with rfl | ⟨rest, rfl⟩ <;>
    simp [sendSlices, hsome, hinside, (h.take _).all_pos, tcpWriteV]

theorem sendSlices_failed (h : Valid slices) (hsome : slices ≠ [])
    (hinside : Inside maxIOVcount first slices) {result : WriteResult}
    (hfailed : result = .interrupted ∨ result = .failed) :
    sendSlices maxIOVcount (fuel + 1) slices first counted (result :: results) =
      .ok (-1, []) := by
  rw [Inside] at hinside
  rcases hfailed with rfl | rfl <;>
    simp [sendSlices, hsome, hinside, (h.take _).all_pos, tcpWriteV]

theorem sendSlices_outside (hsome : slices ≠ []) (houtside : ¬ Inside maxIOVcount first slices) :
    sendSlices maxIOVcount (fuel + 1) slices first counted results = .error .outOfBounds := by
  rw [Inside] at houtside
  simp [sendSlices, hsome, houtside]

theorem sendSlices_accepted (h : Valid slices) (hsome : slices ≠ [])
    (hinside : Inside maxIOVcount first slices) (n : Nat) :
    sendSlices maxIOVcount (fuel + 1) slices first counted (.accepted n :: results) =
      let count := batchCount maxIOVcount first slices.length
      let bytes := toInt32 (min n (total (slices.take count)))
      let taken := (contents (slices.take count)).take n
      if bytes = -1 then .ok (-1, taken)
      else if bytes = 0 then .ok (toInt32 counted, taken)
      else if bytes = toInt32 (total (slices.take count)) then do
        let (sent, more) ← sendSlices maxIOVcount fuel (slices.drop count)
          (batchEnd maxIOVcount first slices.length) (wordAdd counted (toWord bytes)) results
        .ok (sent, taken ++ more)
      else if 0 < bytes then .ok (toInt32 (wordAdd counted (toWord bytes)), taken)
      else .error .assertion := by
  have hlen := (h.take (batchCount maxIOVcount first slices.length)).length_contents
  simp only [contents] at hlen
  rw [Inside] at hinside
  simp [sendSlices, hsome, hinside, (h.take _).all_pos, tcpWriteV, hlen, total, contents]

theorem toInt32_counted {n : Nat} (hsame : counted % 2 ^ 32 = sent % 2 ^ 32) :
    wordAdd counted (toWord (toInt32 n)) % 2 ^ 32 = (sent + n) % 2 ^ 32 := by
  have hword := toWord_toInt32_mod n
  rw [wordAdd]
  omega

theorem contents_split (slices : List Slice) (k : Nat) :
    contents slices = contents (slices.take k) ++ contents (slices.drop k) := by
  rw [contents, contents, contents, ← List.flatMap_append, List.take_append_drop]

theorem boundary_add (slices : List Slice) (k n : Nat) :
    Boundary slices (total (slices.take k) + n) ↔ Boundary (slices.drop k) n := by
  have hadd : ∀ later, total (slices.take (k + later)) =
      total (slices.take k) + total ((slices.drop k).take later) := by
    intro later
    rw [List.take_add, total, total, total, List.map_append, List.sum_append]
  constructor
  · rintro ⟨later, hlater⟩
    rcases Nat.le_total k later with hle | hle
    · obtain ⟨more, rfl⟩ := Nat.exists_eq_add_of_le hle
      rw [hadd] at hlater
      exact ⟨more, by omega⟩
    · have hfew : total (slices.take later) ≤ total (slices.take k) := by
        have hsub := total_take_le (slices.take k) later
        rwa [List.take_take, Nat.min_eq_left hle] at hsub
      exact ⟨0, by simp; omega⟩
  · rintro ⟨more, rfl⟩
    exact ⟨k + more, hadd more⟩

/-- A batch taken whole only moves the place from which the outcome is counted. -/
theorem settled_batch (h : Valid slices) (count : Nat) (bytes : Int) (more : List UInt8) :
    Settled sent slices bytes (contents (slices.take count) ++ more) ↔
      Settled (sent + total (slices.take count)) (slices.drop count) bytes more := by
  have hlen := (h.take count).length_contents
  have hsplit := total_take_add_drop slices count
  rw [Settled, Settled, List.length_append, hlen, boundary_add,
    contents_split slices count, ← hlen, List.take_length_add_append, hlen,
    List.append_cancel_left_eq, Nat.add_assoc, ← hsplit, Nat.add_left_cancel_iff]

/-- The bytes that a socket call which accepts `n` takes of the next batch. -/
structure Batch (count n : Nat) (slices : List Slice) (batch : List UInt8) : Prop where
  length : batch.length = min n (total (slices.take count))
  first : batch = (contents slices).take batch.length
  whole : batch.length = total (slices.take count) →
    batch = contents (slices.take count)

theorem batch_taken (h : Valid slices) (count n : Nat) :
    Batch count n slices ((contents (slices.take count)).take n) := by
  have hlen := (h.take count).length_contents
  refine ⟨by rw [List.length_take, hlen], ?_, fun hwhole => ?_⟩
  · rw [List.length_take, contents_split slices count,
      List.take_append_of_le_length (Nat.min_le_right _ _), ← List.take_eq_take_min]
  · rw [List.length_take, hlen] at hwhole
    exact List.take_of_length_le (by omega)

theorem Batch.le {count n : Nat} {batch : List UInt8} (h : Batch count n slices batch) :
    batch.length ≤ total (slices.take count) :=
  h.length ▸ Nat.min_le_right _ _

/-- The ways in which the loop returns, with the bytes that the sockets took.  The number of
bytes taken of a batch is read as an `int`, so a count that is not small may pass for an
error, for nothing, or for the whole batch. -/
inductive Sends (maxIOVcount : Nat) :
    Nat → Nat → List Slice → List WriteResult → Int → List UInt8 → Prop
  | done {first counted : Nat} {results : List WriteResult} :
      Sends maxIOVcount first counted [] results (toInt32 counted) []
  | again {first counted : Nat} {slices : List Slice} {results : List WriteResult}
      (hsome : slices ≠ []) (hinside : Inside maxIOVcount first slices)
      (hnone : results = [] ∨ ∃ rest, results = .again :: rest) :
      Sends maxIOVcount first counted slices results (toInt32 counted) []
  | failed {first counted : Nat} {slices : List Slice} {result : WriteResult}
      {results : List WriteResult} (hsome : slices ≠ [])
      (hinside : Inside maxIOVcount first slices)
      (hfailed : result = .interrupted ∨ result = .failed) :
      Sends maxIOVcount first counted slices (result :: results) (-1) []
  | minus {first counted count n : Nat} {slices : List Slice} {results : List WriteResult}
      {batch : List UInt8} (hsome : slices ≠ [])
      (hcount : batchCount maxIOVcount first slices.length = count)
      (hbatch : Batch count n slices batch) (hminus : toInt32 batch.length = -1) :
      Sends maxIOVcount first counted slices (.accepted n :: results) (-1) batch
  | nothing {first counted count n : Nat} {slices : List Slice} {results : List WriteResult}
      {batch : List UInt8} (hsome : slices ≠ []) (hinside : Inside maxIOVcount first slices)
      (hcount : batchCount maxIOVcount first slices.length = count)
      (hbatch : Batch count n slices batch) (hzero : toInt32 batch.length = 0) :
      Sends maxIOVcount first counted slices (.accepted n :: results) (toInt32 counted) batch
  | whole {first counted count n : Nat} {slices : List Slice} {results : List WriteResult}
      {batch more : List UInt8} {bytes : Int} (hsome : slices ≠ [])
      (hinside : Inside maxIOVcount first slices)
      (hcount : batchCount maxIOVcount first slices.length = count)
      (hbatch : Batch count n slices batch) (hminus : toInt32 batch.length ≠ -1)
      (hzero : toInt32 batch.length ≠ 0)
      (hwhole : toInt32 batch.length = toInt32 (total (slices.take count)))
      (hmore : Sends maxIOVcount (batchEnd maxIOVcount first slices.length)
        (wordAdd counted (toWord (toInt32 batch.length))) (slices.drop count) results bytes
        more) :
      Sends maxIOVcount first counted slices (.accepted n :: results) bytes (batch ++ more)
  | part {first counted count n : Nat} {slices : List Slice} {results : List WriteResult}
      {batch : List UInt8} (hsome : slices ≠ []) (hinside : Inside maxIOVcount first slices)
      (hcount : batchCount maxIOVcount first slices.length = count)
      (hbatch : Batch count n slices batch)
      (hpart : toInt32 batch.length ≠ toInt32 (total (slices.take count)))
      (hpos : 0 < toInt32 batch.length) :
      Sends maxIOVcount first counted slices (.accepted n :: results)
        (toInt32 (wordAdd counted (toWord (toInt32 batch.length)))) batch

theorem sends_of_sendSlices (h : Valid slices) {bytes : Int} {taken : List UInt8}
    (hrun : sendSlices maxIOVcount fuel slices first counted results = .ok (bytes, taken)) :
    Sends maxIOVcount first counted slices results bytes taken := by
  induction fuel generalizing slices first counted results bytes taken with
  | zero => cases hrun
  | succ fuel ih =>
      by_cases hsome : slices = []
      · subst hsome
        rw [sendSlices, if_pos rfl] at hrun
        cases hrun
        exact .done
      by_cases hinside : Inside maxIOVcount first slices
      swap
      · rw [sendSlices_outside hsome hinside] at hrun
        cases hrun
      match results with
      | [] =>
          rw [sendSlices_again h hsome hinside (.inl rfl)] at hrun
          cases hrun
          exact .again hsome hinside (.inl rfl)
      | .again :: rest =>
          rw [sendSlices_again h hsome hinside (.inr ⟨rest, rfl⟩)] at hrun
          cases hrun
          exact .again hsome hinside (.inr ⟨rest, rfl⟩)
      | .interrupted :: rest =>
          rw [sendSlices_failed h hsome hinside (.inl rfl)] at hrun
          cases hrun
          exact .failed hsome hinside (.inl rfl)
      | .failed :: rest =>
          rw [sendSlices_failed h hsome hinside (.inr rfl)] at hrun
          cases hrun
          exact .failed hsome hinside (.inr rfl)
      | .accepted n :: rest =>
          rw [sendSlices_accepted h hsome hinside] at hrun
          dsimp only at hrun
          generalize hcount : batchCount maxIOVcount first slices.length = count at hrun
          have hbatch := batch_taken h count n
          rw [← hbatch.length] at hrun
          generalize (contents (slices.take count)).take n = batch at hrun hbatch
          by_cases hminus : toInt32 batch.length = -1
          · rw [if_pos hminus] at hrun
            cases hrun
            exact .minus hsome hcount hbatch hminus
          rw [if_neg hminus] at hrun
          by_cases hzero : toInt32 batch.length = 0
          · rw [if_pos hzero] at hrun
            cases hrun
            exact .nothing hsome hinside hcount hbatch hzero
          rw [if_neg hzero] at hrun
          split at hrun
          · rename_i hwhole
            obtain ⟨⟨last, more⟩, hmore, hdone⟩ := ok_of_bind_ok hrun
            cases hdone
            exact .whole hsome hinside hcount hbatch hminus hzero hwhole
              (ih (h.drop count) hmore)
          rename_i hpart
          split at hrun
          · rename_i hpos
            cases hrun
            exact .part hsome hinside hcount hbatch hpart hpos
          · cases hrun

/-- The socket takes no more than there is, and the number returned is the number of bytes
taken as far as an `int` can tell. -/
theorem Sends.count {bytes : Int} {taken : List UInt8}
    (hsends : Sends maxIOVcount first counted slices results bytes taken) :
    taken.length ≤ total slices ∧
      (bytes ≠ -1 → toWord bytes % 2 ^ 32 = (counted + taken.length) % 2 ^ 32) := by
  have hreturned : ∀ count, toWord (toInt32 count) % 2 ^ 32 = count % 2 ^ 32 := toWord_toInt32_mod
  induction hsends with
  | done => exact ⟨Nat.zero_le _, fun _ => hreturned _⟩
  | again => exact ⟨Nat.zero_le _, fun _ => hreturned _⟩
  | failed => exact ⟨Nat.zero_le _, fun hminus => absurd rfl hminus⟩
  | minus _ _ hbatch _ =>
      exact ⟨hbatch.le.trans (total_take_le _ _), fun hminus => absurd rfl hminus⟩
  | @nothing _ counted _ _ _ _ batch _ _ _ hbatch hzero =>
      have hnone := (@toInt32_inj batch.length 0).mp hzero
      have hsame := hreturned counted
      exact ⟨hbatch.le.trans (total_take_le _ _), fun _ => by omega⟩
  | @whole _ counted count _ slices _ batch more _ _ _ _ hbatch _ _ _ _ ih =>
      obtain ⟨hle, hcount⟩ := ih
      have hlen := hbatch.le
      have hsplit := total_take_add_drop slices count
      have hcounted := @toInt32_counted counted counted batch.length rfl
      rw [List.length_append]
      exact ⟨by omega, fun hminus => by have := hcount hminus; omega⟩
  | part _ _ _ hbatch _ _ =>
      exact ⟨hbatch.le.trans (total_take_le _ _),
        fun _ => (hreturned _).trans (toInt32_counted rfl)⟩

/-- The bytes of a loop that returns a count. -/
theorem ends_iff_settled {accepted : Nat} {taken : List UInt8}
    (hsame : counted % 2 ^ 32 = accepted % 2 ^ 32)
    (haccepted : accepted % 2 ^ 32 = (sent + taken.length) % 2 ^ 32)
    (htaken : taken = (contents slices).take taken.length) :
    Ends accepted (sent + taken.length) slices taken.length ↔
      Settled sent slices (toInt32 counted) taken := by
  rw [Ends, Settled, toInt32_inj.mpr hsame]
  constructor
  · rintro ⟨hreturned, hends⟩
    exact ⟨htaken, .inr ⟨hreturned, hends⟩⟩
  · rintro ⟨-, ⟨hminus, hzero⟩ | ⟨hreturned, hends⟩⟩
    · rw [hzero] at haccepted
      rw [toInt32_inj.mpr haccepted] at hminus
      exact absurd hminus (by decide)
    · exact ⟨hreturned, hends⟩

/-- A batch accepted, with its bytes in place of their number. -/
theorem Batch.accounted_iff {count n : Nat} {batch : List UInt8}
    (hbatch : Batch count n slices batch) (hsome : slices ≠ [])
    (hcount : batchCount maxIOVcount first slices.length = count) :
    Accounted maxIOVcount first sent slices (.accepted n :: results) ↔
      Inside maxIOVcount first slices ∧
        if toInt32 batch.length = 0 then Ends sent (sent + batch.length) slices batch.length
        else if batch.length = total (slices.take count) then
          toInt32 batch.length ≠ -1 ∧
            Accounted maxIOVcount (batchEnd maxIOVcount first slices.length)
              (sent + batch.length) (slices.drop count) results
        else
          0 < toInt32 batch.length ∧
            toInt32 batch.length ≠ toInt32 (total (slices.take count)) ∧
              Ends (sent + batch.length) (sent + batch.length) slices batch.length := by
  rw [Accounted, if_neg hsome, hbatch.length, hcount]

/-- Bytes that the loop returns an error after, having taken some. -/
theorem not_settled_of_minus {batch : List UInt8} (hminus : toInt32 batch.length = -1) :
    ¬ Settled sent slices (-1) batch := by
  rintro ⟨-, ⟨-, hnone⟩ | ⟨hreturned, -⟩⟩
  · rw [(Nat.add_eq_zero_iff.mp hnone).2] at hminus
    exact absurd hminus (by decide)
  · exact absurd rfl hreturned

theorem Batch.not_accounted_of_minus {count n : Nat} {batch : List UInt8}
    (hbatch : Batch count n slices batch) (hsome : slices ≠ [])
    (hcount : batchCount maxIOVcount first slices.length = count)
    (hminus : toInt32 batch.length = -1) :
    ¬ Accounted maxIOVcount first sent slices (.accepted n :: results) := by
  rw [hbatch.accounted_iff hsome hcount, hminus, if_neg (by decide)]
  rintro ⟨-, haccounted⟩
  split at haccounted
  · exact haccounted.1 rfl
  · exact absurd haccounted.1 (by decide)

/-- The outcome of the loop, against the condition on the socket calls.  A batch that is not
taken whole and counted as if it was leaves `2 ^ 32` bytes, more than a backlog may hold. -/
theorem Sends.settled {bytes : Int} {taken : List UInt8}
    (hsends : Sends maxIOVcount first counted slices results bytes taken) (h : Valid slices)
    (hsame : counted % 2 ^ 32 = sent % 2 ^ 32) :
    (Accounted maxIOVcount first sent slices results → Settled sent slices bytes taken) ∧
      (Settled sent slices bytes taken →
        (bytes ≠ -1 → total slices < taken.length + 8 * 1024) →
        Accounted maxIOVcount first sent slices results) := by
  induction hsends generalizing sent with
  | @done first counted results =>
      have hnothing := @ends_iff_settled counted sent [] sent [] hsame rfl rfl
      have haccounted : Accounted maxIOVcount first sent [] results ↔ Ends sent sent [] 0 := by
        cases results <;> simp [Accounted, inside_nil]
      rw [haccounted]
      exact ⟨hnothing.mp, fun hsettled _ => hnothing.mpr hsettled⟩
  | @again first counted slices results hsome hinside hnone =>
      have hnothing := @ends_iff_settled counted sent slices sent [] hsame rfl rfl
      have haccounted : Accounted maxIOVcount first sent slices results ↔
          Ends sent sent slices 0 := by
        rcases hnone with rfl | ⟨rest, rfl⟩ <;> simp [Accounted, hsome, hinside]
      rw [haccounted]
      exact ⟨hnothing.mp, fun hsettled _ => hnothing.mpr hsettled⟩
  | failed hsome hinside hfailed =>
      rcases hfailed with rfl | rfl <;> simp [Accounted, hsome, hinside, Settled]
  | minus hsome hcount hbatch hminus =>
      exact ⟨fun haccounted =>
          absurd haccounted (hbatch.not_accounted_of_minus hsome hcount hminus),
        fun hsettled => absurd hsettled (not_settled_of_minus hminus)⟩
  | @nothing first counted _ _ slices _ batch hsome hinside hcount hbatch hzero =>
      have hnone := (@toInt32_inj batch.length 0).mp hzero
      have hends := @ends_iff_settled counted sent slices sent batch hsame (by omega) hbatch.first
      rw [hbatch.accounted_iff hsome hcount, if_pos hzero]
      exact ⟨fun haccounted => hends.mp haccounted.2,
        fun hsettled _ => ⟨hinside, hends.mpr hsettled⟩⟩
  | @whole first counted count _ slices _ batch more bytes hsome hinside hcount hbatch hminus
      hzero hwhole hmore ih =>
      have hcounted := @toInt32_counted counted sent batch.length hsame
      have hsplit := total_take_add_drop slices count
      rw [hbatch.accounted_iff hsome hcount, if_neg hzero]
      by_cases hall : batch.length = total (slices.take count)
      · have hshift := @settled_batch sent slices h count bytes more
        rw [← hbatch.whole hall, ← hall] at hshift
        obtain ⟨hsound, hcomplete⟩ := ih (h.drop count) hcounted
        rw [if_pos hall]
        refine ⟨fun haccounted => hshift.mpr (hsound haccounted.2.2), fun hsettled hsmall =>
          ⟨hinside, hminus, hcomplete (hshift.mp hsettled) fun hreturned => ?_⟩⟩
        have hfew := hsmall hreturned
        rw [List.length_append] at hfew
        omega
      · -- The two numbers differ by a multiple of `2 ^ 32`, and so much stays unsent.
        have hmod := toInt32_inj.mp hwhole
        have hbound := hbatch.le
        have hle := hmore.count.1
        rw [if_neg hall]
        constructor
        · rintro ⟨-, -, hdiffer, -⟩
          exact absurd hwhole hdiffer
        · rintro ⟨-, ⟨-, hnone⟩ | ⟨hreturned, -⟩⟩ hsmall
          · rw [List.length_append] at hnone
            have hempty : batch.length = 0 := by omega
            rw [hempty] at hzero
            exact absurd rfl hzero
          · have hfew := hsmall hreturned
            rw [List.length_append] at hfew
            omega
  | @part first counted count _ slices _ batch hsome hinside hcount hbatch hpart hpos =>
      have hcounted := @toInt32_counted counted sent batch.length hsame
      have hends := @ends_iff_settled _ sent slices (sent + batch.length) batch hcounted rfl
        hbatch.first
      have hzero : toInt32 batch.length ≠ 0 := ne_of_gt hpos
      have hfew : batch.length ≠ total (slices.take count) :=
        fun hall => hpart (congrArg toInt32 hall)
      rw [hbatch.accounted_iff hsome hcount, if_neg hzero, if_neg hfew]
      exact ⟨fun haccounted => hends.mp haccounted.2.2.2,
        fun hsettled _ => ⟨hinside, hpos, hpart, hends.mpr hsettled⟩⟩

/-- No batch whose outcome is accounted for reaches behind the last slice. -/
theorem Accounted.inside (haccounted : Accounted maxIOVcount first sent slices results)
    (hsome : slices ≠ []) : Inside maxIOVcount first slices := by
  match results with
  | [] => exact haccounted.1
  | result :: rest =>
      cases result <;>
        · rw [Accounted, if_neg hsome] at haccounted
          exact haccounted.1

/-- The loop returns when its outcomes are accounted for. -/
theorem Accounted.returns (h : Valid slices)
    (haccounted : Accounted maxIOVcount first sent slices results)
    (hfuel : slices.length < fuel) :
    ∃ out, sendSlices maxIOVcount fuel slices first counted results = .ok out := by
  induction fuel generalizing slices first counted sent results with
  | zero => exact absurd hfuel (Nat.not_lt_zero _)
  | succ fuel ih =>
      by_cases hsome : slices = []
      · exact ⟨_, by rw [sendSlices, if_pos hsome]⟩
      have hinside := haccounted.inside hsome
      match results with
      | [] => exact ⟨_, sendSlices_again h hsome hinside (.inl rfl)⟩
      | .again :: rest => exact ⟨_, sendSlices_again h hsome hinside (.inr ⟨rest, rfl⟩)⟩
      | .interrupted :: rest => exact ⟨_, sendSlices_failed h hsome hinside (.inl rfl)⟩
      | .failed :: rest => exact ⟨_, sendSlices_failed h hsome hinside (.inr rfl)⟩
      | .accepted n :: rest =>
          rw [Accounted, if_neg hsome] at haccounted
          rw [sendSlices_accepted h hsome hinside]
          obtain ⟨-, haccounted⟩ := haccounted
          dsimp only at haccounted ⊢
          generalize batchCount maxIOVcount first slices.length = count at haccounted ⊢
          split
          · exact ⟨_, rfl⟩
          split
          · exact ⟨_, rfl⟩
          rename_i hzero
          rw [if_neg hzero] at haccounted
          split at haccounted
          · rename_i hwhole
            rw [if_pos (congrArg toInt32 hwhole)]
            have hshort : (slices.drop count).length < fuel := by
              have hpositive : 0 < count := by
                refine Nat.pos_of_ne_zero fun hnone => hzero ?_
                rw [hnone, List.take_zero, total_nil, Nat.min_zero]
                decide
              have hlength := List.length_pos_iff.mpr hsome
              rw [List.length_drop]
              omega
            obtain ⟨⟨last, more⟩, hmore⟩ := ih (h.drop count) haccounted.2 hshort
            rw [hmore]
            exact ⟨_, rfl⟩
          · split
            · rename_i hwrapped
              exact absurd hwrapped haccounted.2.1
            · exact ⟨_, by rw [if_pos haccounted.1]⟩

end

/-! ## The writable event -/

/-- The flush leaves a backlog that `send` discards. -/
def Discards (maxIOVcount : Nat) (c : Connection) (results : List WriteResult) : Prop :=
  ∃ bytes taken rest,
    sendSlices maxIOVcount (c.sendBuffer.length + 1) c.sendBuffer 0 0 results =
        .ok (bytes, taken) ∧
      bytes ≠ -1 ∧ adjustSlices c.sendBuffer (toWord bytes) = .ok rest ∧
        8 * 1024 ≤ total rest

/-- The flush returns, and the bytes that the socket took and those that remain are the
bytes there were, in order. -/
def Flushed (maxIOVcount : Nat) (c : Connection) (results : List WriteResult) : Prop :=
  ∃ last status taken, send maxIOVcount c [] true results = .ok (last, (status, taken)) ∧
    taken ++ contents last.sendBuffer = contents c.sendBuffer

theorem sendEnd_small {c : Connection} (hsmall : total c.sendBuffer < 8 * 1024) :
    ∃ status, c.sendEnd = .ok (c, status) := by
  rw [sendEnd, if_neg (by rw [← total]; omega)]
  split
  · exact ⟨_, rfl⟩
  · exact ⟨_, rfl⟩

section

variable {maxIOVcount : Nat} {c : Connection} {results : List WriteResult}

/-- What the rest of `send` makes of the outcome of the loop. -/
theorem send_of_sendSlices {bytes : Int} {taken : List UInt8}
    (hrun : sendSlices maxIOVcount (c.sendBuffer.length + 1) c.sendBuffer 0 0 results =
      .ok (bytes, taken))
    (hvalid : Valid c.sendBuffer) (hkept : ¬ Discards maxIOVcount c results) :
    ∃ rest status,
      send maxIOVcount c [] true results = .ok ({ c with sendBuffer := rest }, (status, taken)) ∧
        Valid rest ∧
        ((bytes = -1 ∧ rest = c.sendBuffer) ∨
          (bytes ≠ -1 ∧ adjustSlices c.sendBuffer (toWord bytes) = .ok rest ∧
            total rest < 8 * 1024)) := by
  by_cases hminus : bytes = -1
  · refine ⟨c.sendBuffer, -1, ?_, hvalid, .inl ⟨hminus, rfl⟩⟩
    simp [send, hrun, hminus, bind, Except.bind]
  · obtain ⟨k, rest, hrest, hvalid', -⟩ := adjustSlices_spec hvalid (toWord bytes)
    have hsmall : total rest < 8 * 1024 := by
      by_contra hlarge
      exact hkept ⟨bytes, taken, rest, hrun, hminus, hrest, Nat.le_of_not_lt hlarge⟩
    obtain ⟨status, hend⟩ := @sendEnd_small { c with sendBuffer := rest } hsmall
    refine ⟨rest, status, ?_, hvalid', .inr ⟨hminus, hrest, hsmall⟩⟩
    simp [send, hrun, hminus, hrest, hend, bind, Except.bind]

theorem append_eq_iff_take_drop {taken rest whole : List UInt8} :
    taken ++ rest = whole ↔
      taken = whole.take taken.length ∧ rest = whole.drop taken.length := by
  constructor
  · rintro rfl
    exact ⟨List.take_left.symm, List.drop_left.symm⟩
  · rintro ⟨htake, hdrop⟩
    calc taken ++ rest = whole.take taken.length ++ whole.drop taken.length := by
          rw [← htake, ← hdrop]
      _ = whole := List.take_append_drop _ _

/-- Nothing is lost or sent twice exactly when the outcome of the loop is accounted for. -/
theorem flushed_iff_settled {bytes : Int} {taken : List UInt8}
    (hrun : sendSlices maxIOVcount (c.sendBuffer.length + 1) c.sendBuffer 0 0 results =
      .ok (bytes, taken))
    (hvalid : Valid c.sendBuffer) (hkept : ¬ Discards maxIOVcount c results) :
    Flushed maxIOVcount c results ↔ Settled 0 c.sendBuffer bytes taken := by
  obtain ⟨rest, status, hsend, hvalid', hcases⟩ := send_of_sendSlices hrun hvalid hkept
  obtain ⟨hle, hcount⟩ := (sends_of_sendSlices hvalid hrun).count
  have hflushed : Flushed maxIOVcount c results ↔
      taken ++ contents rest = contents c.sendBuffer := by
    constructor
    · rintro ⟨last, status', taken', hsend', heq⟩
      cases hsend.symm.trans hsend'
      exact heq
    · exact fun heq => ⟨_, status, taken, hsend, heq⟩
  rw [hflushed, append_eq_iff_take_drop, Settled]
  rcases hcases with ⟨hminus, rfl⟩ | ⟨hminus, hrest, hsmall⟩
  · have hlen := hvalid.length_contents
    constructor
    · rintro ⟨htake, hdrop⟩
      have hshort := congrArg List.length hdrop
      rw [List.length_drop] at hshort
      exact ⟨htake, .inl ⟨hminus, by omega⟩⟩
    · rintro ⟨htake, ⟨-, hnone⟩ | ⟨hreturned, -⟩⟩
      · have hzero : taken.length = 0 := by omega
        exact ⟨htake, by rw [hzero, List.drop_zero]⟩
      · exact absurd hminus hreturned
  · have hgap : toWord bytes ≤ taken.length ∨ taken.length + 8 * 1024 ≤ toWord bytes := by
      have hsame := hcount hminus
      omega
    have hexact := adjustSlices_exact hvalid hrest hsmall hle hgap
    simp only [Nat.zero_add, hminus, false_and, ne_eq, not_false_eq_true, true_and, false_or,
      hexact]

/-- A flush that does not discard its backlog loses and repeats nothing exactly when the
outcomes of its socket calls are accounted for; and `adjustSlices` drops the first bytes
exactly when they are whole slices. -/
theorem flushed_iff_accounted (hvalid : Valid c.sendBuffer) :
    (¬ Discards maxIOVcount c results →
      (Flushed maxIOVcount c results ↔ Accounted maxIOVcount 0 0 c.sendBuffer results)) ∧
    ∀ n, (∃ rest, adjustSlices c.sendBuffer n = .ok rest ∧
        contents rest = (contents c.sendBuffer).drop n) ↔
      Boundary c.sendBuffer n ∨ total c.sendBuffer ≤ n := by
  refine ⟨fun hkept => ⟨?_, ?_⟩, adjustSlices_drops_iff hvalid⟩
  · intro hflushed
    obtain ⟨last, status, taken, hsend, heq⟩ := hflushed
    have hbytes : ∃ out, sendSlices maxIOVcount (c.sendBuffer.length + 1) c.sendBuffer 0 0 results =
        .ok out := by
      simp only [send, if_true] at hsend
      obtain ⟨out, hrun, -⟩ := ok_of_bind_ok hsend
      exact ⟨out, hrun⟩
    obtain ⟨⟨bytes, taken'⟩, hrun⟩ := hbytes
    obtain ⟨rest, status', hsend', hvalid', hcases⟩ := send_of_sendSlices hrun hvalid hkept
    have hsettled := (flushed_iff_settled hrun hvalid hkept).mp ⟨last, status, taken, hsend, heq⟩
    cases hsend.symm.trans hsend'
    refine ((sends_of_sendSlices hvalid hrun).settled hvalid rfl).2 hsettled fun hreturned => ?_
    rcases hcases with ⟨hminus, -⟩ | ⟨-, -, hsmall⟩
    · exact absurd hminus hreturned
    · have hlen := congrArg List.length heq
      rw [List.length_append, hvalid'.length_contents, hvalid.length_contents] at hlen
      omega
  · intro haccounted
    obtain ⟨⟨bytes, taken⟩, hrun⟩ := haccounted.returns hvalid (Nat.lt_succ_self _)
    exact (flushed_iff_settled hrun hvalid hkept).mpr
      (((sends_of_sendSlices hvalid hrun).settled hvalid rfl).1 haccounted)

end

/-- An accepted connection that holds the slices. -/
def holding (slices : List Slice) : Connection :=
  { accepted 0 3 5 "127.0.0.1" 80 false with sendBuffer := slices }

theorem flushed_between_slices :
    Flushed 1024 (holding [⟨[1, 2], 2⟩, ⟨[3], 1⟩]) [.accepted 2] ∧
      ∃ rest, adjustSlices [⟨[1, 2], 2⟩, ⟨[3], 1⟩] 2 = .ok rest ∧ contents rest = [3] := by
  have hvalid : Valid (holding [⟨[1, 2], 2⟩, ⟨[3], 1⟩]).sendBuffer := by
    simp [Valid, holding]
  have hkept : ¬ Discards 1024 (holding [⟨[1, 2], 2⟩, ⟨[3], 1⟩]) [.accepted 2] := by
    rintro ⟨bytes, taken, rest, hrun, -, hrest, hlarge⟩
    cases hrun
    cases hrest
    exact absurd hlarge (by decide)
  obtain ⟨hflush, hadjust⟩ := @flushed_iff_accounted 1024 _ [.accepted 2] hvalid
  refine ⟨(hflush hkept).mpr ?_, (hadjust 2).mpr (.inl ⟨1, rfl⟩)⟩
  have hinside : Inside 1024 0 (holding [⟨[1, 2], 2⟩, ⟨[3], 1⟩]).sendBuffer := by
    unfold Inside
    decide
  exact ⟨hinside, by decide, by decide, by decide, .inl ⟨by decide, 1, rfl⟩⟩

/-- One byte of a slice of three is taken and the slice still counts three; and an error
after a batch of 16 slices leaves the 17 that there were. -/
theorem partial_write_repeats :
    (Valid (holding [⟨[1, 2, 3], 3⟩]).sendBuffer ∧
      ¬ Discards 1024 (holding [⟨[1, 2, 3], 3⟩]) [.accepted 1] ∧
      ¬ Flushed 1024 (holding [⟨[1, 2, 3], 3⟩]) [.accepted 1]) ∧
    (Valid (holding (List.replicate 17 ⟨[1], 1⟩)).sendBuffer ∧
      ¬ Discards 16 (holding (List.replicate 17 ⟨[1], 1⟩)) [.accepted 16, .failed] ∧
      ¬ Flushed 16 (holding (List.replicate 17 ⟨[1], 1⟩)) [.accepted 16, .failed]) ∧
    ∃ rest, adjustSlices [⟨[1, 2, 3], 3⟩] 1 = .ok rest ∧ contents rest = [2, 3, 3] := by
  refine ⟨⟨by simp [Valid, holding], ?_, ?_⟩, ⟨by simp [Valid, holding], ?_, ?_⟩, _, rfl, rfl⟩
  · rintro ⟨bytes, taken, rest, hrun, -, hrest, hlarge⟩
    cases hrun
    cases hrest
    exact absurd hlarge (by decide)
  · rintro ⟨last, status, taken, hsend, heq⟩
    cases hsend
    exact absurd heq (by decide)
  · rintro ⟨bytes, taken, rest, hrun, hminus, -⟩
    cases hrun
    exact hminus rfl
  · rintro ⟨last, status, taken, hsend, heq⟩
    cases hsend
    exact absurd heq (by decide)

end Connection

end Tarsx
