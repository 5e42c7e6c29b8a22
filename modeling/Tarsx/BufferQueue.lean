/-
A family of buffers under any sequence of operations refines a family of byte
queues: what is readable in a buffer is what was appended to it and not yet
removed.  The abstract machine below states what a buffer is for; the operations
of the source are the concrete one.
-/
import Mathlib.Logic.Function.Basic
import Tarsx.BufferSpec
import Tarsx.Foundation.Run

namespace Tarsx

open Foundation

universe u

namespace Buffer

/-- The operations a caller can make on a family of buffers.  `produce` stands
for writing bytes at `writeAddr()` and then calling `produce`. -/
inductive Op (ι : Type u) where
  | pushData (i : ι) (data : Option (List UInt8))
  | popData (i : ι) (buf : Bool) (size : Nat)
  | peekData (i : ι)
  | consume (i : ι) (bytes : Nat)
  | produce (i : ι) (data : List UInt8)
  | assureSpace (i : ι) (needsize : Nat)
  | shrink (i : ι)
  | clear (i : ι)
  | swap (i j : ι)
deriving Repr, DecidableEq

/-- What an operation gives back to its caller. -/
inductive Reply where
  | none
  | size (n : Nat)
  | bytes (data : List UInt8)
deriving Repr, DecidableEq

variable {ι : Type u} [DecidableEq ι]

/-- Replace one buffer of the family by what an operation returned for it. -/
def put (bufs : ι → Buffer) (i : ι) (result : Except Fault Buffer) (reply : Reply) :
    Except Fault ((ι → Buffer) × Reply) :=
  match result with
  | .ok b => .ok (Function.update bufs i b, reply)
  | .error fault => .error fault

def step (bufs : ι → Buffer) : Op ι → Except Fault ((ι → Buffer) × Reply)
  | .pushData i data =>
      match (bufs i).pushData data with
      | .ok (n, b) => .ok (Function.update bufs i b, .size n)
      | .error fault => .error fault
  | .popData i buf size =>
      match (bufs i).popData buf size with
      | .ok (data, b) => .ok (Function.update bufs i b, .bytes data)
      | .error fault => .error fault
  | .peekData i =>
      match (bufs i).peekData with
      | .ok data => .ok (bufs, .bytes data)
      | .error fault => .error fault
  | .consume i bytes => put bufs i ((bufs i).consume bytes) .none
  | .produce i data =>
      put bufs i (do let b ← (bufs i).writeAt data; .ok (b.produce data.length)) .none
  | .assureSpace i needsize => put bufs i ((bufs i).assureSpace needsize) .none
  | .shrink i => put bufs i (bufs i).shrink .none
  | .clear i => put bufs i (.ok (bufs i).clear) .none
  | .swap i j =>
      let swapped := (bufs i).swap (bufs j)
      .ok (Function.update (Function.update bufs i swapped.1) j swapped.2, .none)

/-- What the callers must see to: objects are smaller than `2 ^ 63` bytes, no
more is consumed than is readable or produced than is writable, and
`assureSpace` is called below the size limit. -/
def Legal (bufs : ι → Buffer) : Op ι → Prop
  | .pushData _ (some data) => data.length < 2 ^ 63
  | .consume i bytes => bytes ≤ (bufs i).readableSize
  | .produce i data => data.length ≤ (bufs i).writableSize
  | .assureSpace i needsize => (bufs i).readableSize + needsize < maxBufferSize
  | _ => True

/-- The byte queues: appending at the back, removing at the front. -/
def queueStep (queues : ι → List UInt8) : Op ι → (ι → List UInt8) × Reply
  | .pushData _ none => (queues, .size 0)
  | .pushData i (some data) =>
      if maxBufferSize ≤ (queues i).length + data.length then (queues, .size 0)
      else (Function.update queues i (queues i ++ data), .size data.length)
  | .popData i buf size =>
      if buf then
        (Function.update queues i ((queues i).drop size), .bytes ((queues i).take size))
      else (queues, .bytes [])
  | .peekData i => (queues, .bytes (queues i))
  | .consume i bytes => (Function.update queues i ((queues i).drop bytes), .none)
  | .produce i data => (Function.update queues i (queues i ++ data), .none)
  | .assureSpace _ _ => (queues, .none)
  | .shrink _ => (queues, .none)
  | .clear i => (Function.update queues i [], .none)
  | .swap i j =>
      (Function.update (Function.update queues i (queues j)) j (queues i), .none)

/-- The refinement relation: every buffer is well-formed and its readable bytes
are its queue. -/
def Represents (bufs : ι → Buffer) (queues : ι → List UInt8) : Prop :=
  ∀ i, (bufs i).WellFormed ∧ (bufs i).contents = queues i

omit [DecidableEq ι] in
theorem represents_default :
    Represents (fun _ : ι => ({} : Buffer)) (fun _ => []) :=
  fun _ => ⟨wellFormed_default, contents_default⟩

theorem Represents.update {bufs : ι → Buffer} {queues : ι → List UInt8}
    (h : Represents bufs queues) (i : ι) {b : Buffer} {queue : List UInt8}
    (hwell : b.WellFormed) (hcontents : b.contents = queue) :
    Represents (Function.update bufs i b) (Function.update queues i queue) := by
  intro j
  by_cases hj : j = i
  · subst hj
    simp only [Function.update_self]
    exact ⟨hwell, hcontents⟩
  · simp only [Function.update_of_ne hj]
    exact h j

/-- An update that keeps the readable bytes keeps the queues. -/
theorem Represents.refresh {bufs : ι → Buffer} {queues : ι → List UInt8}
    (h : Represents bufs queues) (i : ι) {b : Buffer}
    (hwell : b.WellFormed) (hcontents : b.contents = queues i) :
    Represents (Function.update bufs i b) queues := by
  have hupdate := h.update i hwell hcontents
  rwa [Function.update_eq_self] at hupdate

theorem swap_spec {a b : Buffer} (ha : a.WellFormed) (hb : b.WellFormed) :
    ((a.swap b).1.WellFormed ∧ (a.swap b).1.contents = b.contents) ∧
      ((a.swap b).2.WellFormed ∧ (a.swap b).2.contents = a.contents) :=
  ⟨⟨⟨hb.readPos_le, hb.writePos_le, hb.capacity_pow, hb.null_iff, hb.allocated⟩, rfl⟩,
    ⟨ha.readPos_le, ha.writePos_le, ha.capacity_pow, ha.null_iff, ha.allocated⟩, rfl⟩

/-- One operation of the source does to the buffers what the abstract operation
does to the queues, with the same reply. -/
theorem step_refines {bufs : ι → Buffer} {queues : ι → List UInt8} {op : Op ι}
    (h : Represents bufs queues) (hlegal : Legal bufs op) :
    ∃ next, step bufs op = .ok (next, (queueStep queues op).2) ∧
      Represents next (queueStep queues op).1 := by
  cases op with
  | pushData i data =>
      obtain ⟨hwell, hqueue⟩ := h i
      cases data with
      | none =>
          refine ⟨bufs, ?_, h⟩
          simp [step, pushData, queueStep]
      | some data =>
          by_cases hfull : maxBufferSize ≤ (queues i).length + data.length
          · have hpush := pushData_of_full hwell hlegal (by rwa [hqueue])
            refine ⟨bufs, ?_, ?_⟩
            · simp [step, hpush, queueStep, if_pos hfull]
            · simpa only [queueStep, if_pos hfull] using h
          · obtain ⟨b, hpush, hwell', hcontents⟩ :=
              pushData_spec hwell (by rw [hqueue]; exact Nat.not_le.mp hfull)
            refine ⟨Function.update bufs i b, ?_, ?_⟩
            · simp only [step, hpush, queueStep, if_neg hfull]
            · simp only [queueStep, if_neg hfull]
              exact h.update i hwell' (by rw [hcontents, hqueue])
  | popData i buf size =>
      obtain ⟨hwell, hqueue⟩ := h i
      obtain ⟨b, hpop, hwell', hcontents⟩ := popData_spec hwell buf size
      refine ⟨Function.update bufs i b, ?_, ?_⟩
      · rw [step, hpop]
        cases buf with
        | true => simp [queueStep, hqueue]
        | false => simp [queueStep]
      · cases buf with
        | true => exact h.update i hwell' (by simpa [hqueue] using hcontents)
        | false => exact h.refresh i hwell' (by simpa [hqueue] using hcontents)
  | peekData i =>
      obtain ⟨hwell, hqueue⟩ := h i
      refine ⟨bufs, ?_, h⟩
      simp only [step, hwell.peekData_eq, queueStep, hqueue]
  | consume i bytes =>
      obtain ⟨hwell, hqueue⟩ := h i
      obtain ⟨b, hconsume, hwell', hcontents, _⟩ := consume_spec hwell (n := bytes)
        (by rw [← hwell.readableSize_eq_length]; exact hlegal)
      refine ⟨Function.update bufs i b, by simp only [step, hconsume, put, queueStep], ?_⟩
      exact h.update i hwell' (by rw [hcontents, hqueue])
  | produce i data =>
      obtain ⟨hwell, hqueue⟩ := h i
      obtain ⟨b, hproduce, hwell', hcontents, _⟩ := writeAt_produce_spec hwell
        (by rw [← hwell.writableSize_eq]; exact hlegal)
      refine ⟨Function.update bufs i b, by simp only [step, hproduce, put, queueStep], ?_⟩
      exact h.update i hwell' (by rw [hcontents, hqueue])
  | assureSpace i needsize =>
      obtain ⟨hwell, hqueue⟩ := h i
      obtain ⟨b, hassure, hwell', hcontents, _⟩ := assureSpace_spec hwell _
        (by rw [← hwell.readableSize_eq_length]; exact hlegal)
      refine ⟨Function.update bufs i b, by simp only [step, hassure, put, queueStep], ?_⟩
      exact h.refresh i hwell' (by rw [hcontents, hqueue])
  | shrink i =>
      obtain ⟨hwell, hqueue⟩ := h i
      obtain ⟨b, hshrink, hwell', hcontents, _⟩ := shrink_spec hwell
      refine ⟨Function.update bufs i b, by simp only [step, hshrink, put, queueStep], ?_⟩
      exact h.refresh i hwell' (by rw [hcontents, hqueue])
  | clear i =>
      obtain ⟨hwell', hcontents⟩ := clear_spec (h i).1
      exact ⟨Function.update bufs i (bufs i).clear, by simp only [step, put, queueStep],
        h.update i hwell' hcontents⟩
  | swap i j =>
      obtain ⟨⟨hwellᵢ, hcontentsᵢ⟩, hwellⱼ, hcontentsⱼ⟩ := swap_spec (h i).1 (h j).1
      refine ⟨_, rfl, ?_⟩
      exact (h.update i hwellᵢ (by rw [hcontentsᵢ, (h j).2])).update j hwellⱼ
        (by rw [hcontentsⱼ, (h i).2])

/-- A refused `pushData` is the identity on the buffer. -/
theorem pushData_eq_of_zero {b b' : Buffer} {data : Option (List UInt8)}
    (h : b.pushData data = .ok (0, b')) : b' = b := by
  cases data with
  | none => simpa [pushData, eq_comm] using h
  | some data =>
      by_cases hzero : data.length = 0
      · simpa [pushData, hzero, eq_comm] using h
      · by_cases hfull : maxBufferSize ≤ wordAdd b.readableSize data.length
        · simpa [pushData, hzero, hfull, eq_comm] using h
        · simp only [pushData, if_neg hzero, if_neg hfull, bind, Except.bind] at h
          cases hassure : b.assureSpace data.length with
          | error fault => simp [hassure] at h
          | ok roomy =>
              cases hstore : store roomy.buffer roomy.writePos data with
              | error fault => simp [hassure, hstore] at h
              | ok block => simp [hassure, hstore, hzero] at h

/-- Every legal sequence of operations on fresh buffers returns, replies as the
byte queues do and leaves every buffer well-formed with exactly its queue
readable; and a `pushData` that returns 0 changes nothing. -/
theorem buffers_refine_queues {ops : List (Op ι)}
    (hlegal : Along (quiet step) Legal (fun _ : ι => ({} : Buffer)) ops) :
    ∃ bufs, trace step (fun _ : ι => ({} : Buffer)) ops =
        .ok (bufs, (specTrace queueStep (fun _ => []) ops).2) ∧
      (∀ i, (bufs i).WellFormed ∧
        (bufs i).contents = (specTrace queueStep (fun _ => []) ops).1 i) ∧
      ∀ i data next, step bufs (.pushData i data) = .ok (next, .size 0) →
        next = bufs := by
  have hsim : ∀ (bufs : ι → Buffer) queues op, Represents bufs queues → Legal bufs op →
      ∃ next, step bufs op = .ok (next, (queueStep queues op).2) ∧
        Represents next (queueStep queues op).1 :=
    fun _ _ _ hrep hop => step_refines hrep hop
  obtain ⟨bufs, hrun, hrep⟩ := trace_simulates hsim represents_default hlegal
  refine ⟨bufs, hrun, hrep, ?_⟩
  intro i data next hstep
  cases hpush : (bufs i).pushData data with
  | error fault => simp [step, hpush] at hstep
  | ok result =>
      obtain ⟨n, b⟩ := result
      simp only [step, hpush, Except.ok.injEq, Prod.mk.injEq, Reply.size.injEq] at hstep
      obtain ⟨hnext, rfl⟩ := hstep
      rw [← hnext, pushData_eq_of_zero hpush, Function.update_eq_self]

/-- Two buffers: bytes pushed to the first are popped from the second after a
swap. -/
theorem buffers_refine_queues_swap :
    ∃ bufs, trace step (fun _ : Bool => ({} : Buffer))
        [.pushData true (some [1, 2, 3]), .swap true false, .popData false true 2] =
        .ok (bufs, [.size 3, .none, .bytes [1, 2]]) ∧
      (bufs false).contents = [3] := by
  obtain ⟨bufs, hrun, hrep, _⟩ := @buffers_refine_queues Bool _
    [.pushData true (some [1, 2, 3]), .swap true false, .popData false true 2]
    ⟨by simp [Legal], fun _ _ => ⟨trivial, fun _ _ => ⟨trivial, fun _ _ => trivial⟩⟩⟩
  exact ⟨bufs, hrun, (hrep false).2⟩

/-! ### Capacities -/

/-- One of any number of buffers after some of the operations. -/
def Reachable (b : Buffer) : Prop :=
  ∃ (ops : List (Op Nat)) (bufs : Nat → Buffer) (i : Nat),
    Along (quiet step) Legal (fun _ => {}) ops ∧
      run (quiet step) (fun _ => {}) ops = .ok bufs ∧ bufs i = b

theorem Reachable.wellFormed {b : Buffer} (h : Reachable b) : b.WellFormed := by
  obtain ⟨ops, bufs, i, hlegal, hrun, rfl⟩ := h
  have hstep : ∀ (bufs : Nat → Buffer) op next, (∃ queues, Represents bufs queues) →
      Legal bufs op → quiet step bufs op = .ok next → ∃ queues, Represents next queues := by
    rintro bufs op next ⟨queues, hrep⟩ hop hnext
    obtain ⟨other, hother, hkept⟩ := step_refines hrep hop
    obtain rfl := Except.ok.inj ((quiet_of_ok hother).symm.trans hnext)
    exact ⟨_, hkept⟩
  obtain ⟨queues, hrep⟩ := run_invariant_of_along hstep ⟨_, represents_default⟩ hlegal hrun
  exact (hrep i).1

theorem isLeast_pow2Ceil (n : Nat) : IsLeast {p | (∃ k, p = 2 ^ k) ∧ n ≤ p} (pow2Ceil n) := by
  refine ⟨⟨⟨_, rfl⟩, le_pow2Ceil n⟩, ?_⟩
  rintro p ⟨⟨k, rfl⟩, hle⟩
  exact pow2Ceil_le_pow hle

/-- Below the size limit `assureSpace` returns with the room asked for, and grows only when
compacting does not give it, to the least power of two that does and at least to 128;
`shrink` returns with what is readable inside a block that is no larger. -/
theorem capacity_of_reachable {b : Buffer} (h : Reachable b) :
    ZeroOrPow2 b.capacity ∧
    (∀ needsize, b.readableSize + needsize < maxBufferSize →
      ∃ b', b.assureSpace needsize = .ok b' ∧ needsize ≤ b'.writableSize ∧
        (needsize ≤ b.capacity - b.readableSize → b'.capacity = b.capacity) ∧
        (b.capacity - b.readableSize < needsize →
          ∃ p, IsLeast {p | (∃ k, p = 2 ^ k) ∧ b.readableSize + needsize ≤ p} p ∧
            b'.capacity = max 128 p)) ∧
    ∃ b', b.shrink = .ok b' ∧ b'.readableSize ≤ b'.capacity ∧ b'.capacity ≤ b.capacity ∧
      ZeroOrPow2 b'.capacity := by
  have hwell := h.wellFormed
  have hread := hwell.readableSize_eq_length
  refine ⟨hwell.capacity_pow, fun needsize hneed => ?_, ?_⟩
  · rw [hread] at hneed ⊢
    obtain ⟨b', hassure, hwell', _, hroom, hcapacity⟩ := assureSpace_spec hwell needsize hneed
    have hle := hwell.length_contents_le
    refine ⟨b', hassure, by rwa [hwell'.writableSize_eq], fun hfits => ?_, fun hlacks => ?_⟩
    · rw [hcapacity, grownCapacity, if_pos (by omega)]
    · refine ⟨_, isLeast_pow2Ceil _, ?_⟩
      rw [hcapacity, grownCapacity, if_neg (by omega)]
      rfl
  · obtain ⟨b', hshrink, hwell', _, hsmaller⟩ := shrink_spec hwell
    refine ⟨b', hshrink, ?_, hsmaller, hwell'.capacity_pow⟩
    rw [hwell'.readableSize_eq_length]
    exact hwell'.length_contents_le

set_option maxRecDepth 2000 in
/-- A buffer of capacity 128 that holds 3 bytes grows to 256 for 200 more. -/
theorem capacity_of_reachable_three :
    ∃ b b' : Buffer, b.capacity = 128 ∧ b.readableSize = 3 ∧
      b.assureSpace 200 = .ok b' ∧ 200 ≤ b'.writableSize := by
  have hreachable : Reachable
      ⟨0, 3, 128, some ([1, 2, 3] ++ List.replicate 125 0), 50⟩ :=
    ⟨[.pushData 0 (some [1, 2, 3])], _, 0, ⟨by simp [Legal], fun _ _ => trivial⟩, rfl, rfl⟩
  obtain ⟨b', hassure, hroom, -⟩ :=
    (capacity_of_reachable hreachable).2.1 200 (by decide)
  exact ⟨_, b', rfl, rfl, hassure, hroom⟩

end Buffer

end Tarsx
