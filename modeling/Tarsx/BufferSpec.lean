/-
What each buffer operation does to the readable bytes.  Every lemma says that a
well-formed buffer stays well-formed, that the operation returns, and which
bytes it leaves; later modules use these lemmas and never unfold an operation.
-/
import Tarsx.Buffer

namespace Tarsx

open Foundation

namespace Buffer

variable {b : Buffer}

/-! ### Rounding and growing -/

theorem roundUpLoop_eq {size : Nat} (hsize : size ≤ 2 ^ 63) :
    ∀ fuel k, 64 ≤ k + fuel → 2 ^ k ≤ pow2Ceil size → 0 < size →
      roundUpLoop fuel (2 ^ k) size = .ok (pow2Ceil size) := by
  intro fuel
  induction fuel with
  | zero =>
      intro k hfuel hle _
      have hceil := (pow2Ceil_zeroOrPow2 hsize).le
      have hpow : (2 : Nat) ^ 64 ≤ 2 ^ k :=
        Nat.pow_le_pow_right (by decide) (by omega)
      omega
  | succ fuel ih =>
      intro k hfuel hle hpos
      by_cases hlt : 2 ^ k < size
      · have hclog : k < Nat.clog 2 size :=
          (Nat.lt_clog_iff_pow_lt (by decide)).mpr hlt
        have hdouble : wordDouble (2 ^ k) = 2 ^ (k + 1) := by
          rw [wordDouble_of_lt (by omega), Nat.pow_succ, Nat.mul_comm]
        rw [roundUpLoop, if_pos hlt, hdouble]
        apply ih (k + 1) (by omega) _ hpos
        exact Nat.pow_le_pow_right (by decide) hclog
      · have hceil : pow2Ceil size ≤ 2 ^ k :=
          pow2Ceil_le_pow (Nat.le_of_not_lt hlt)
        rw [roundUpLoop, if_neg hlt, Nat.le_antisymm hle hceil]

theorem roundUp2Power_eq {size : Nat} (hpos : 0 < size) (hsize : size ≤ 2 ^ 63) :
    roundUp2Power size = .ok (pow2Ceil size) := by
  rw [roundUp2Power, if_neg (by omega)]
  exact roundUpLoop_eq hsize 65 0 (by omega) (Nat.one_le_two_pow) hpos

section Growing

variable {readPos writePos needsize : Nat}

/-- The loop's test compares the free space that compaction would leave. -/
theorem growLoop_test (needsize capacity : Nat) (hread : readPos ≤ writePos)
    (hwrite : writePos ≤ capacity) (hcap : capacity ≤ 2 ^ 63) :
    wordAdd (wordSub capacity writePos) readPos < needsize ↔
      capacity < writePos - readPos + needsize := by
  rw [wordSub_of_le hwrite (by omega), wordAdd_of_lt (by omega)]
  omega

/-- From a power of two the loop doubles up to the least power of two with
room for the readable bytes and `needsize` more. -/
theorem growLoop_pow (hread : readPos ≤ writePos)
    (hneed : writePos - readPos + needsize < maxBufferSize) :
    ∀ fuel k, 7 ≤ k → k ≤ 63 → 64 ≤ k + fuel → writePos ≤ 2 ^ k →
      growLoop readPos writePos needsize fuel (2 ^ k) =
        .ok (max (2 ^ k) (pow2Ceil (writePos - readPos + needsize))) := by
  intro fuel
  induction fuel with
  | zero =>
      intro k _ hk hfuel _
      omega
  | succ fuel ih =>
      intro k hlow hk hfuel hwrite
      have hmax : maxBufferSize = 2 ^ 63 - 1 := rfl
      have hpow : (2 : Nat) ^ k ≤ 2 ^ 63 := Nat.pow_le_pow_right (by decide) hk
      have htest := growLoop_test needsize (2 ^ k) hread hwrite hpow
      by_cases hlt : 2 ^ k < writePos - readPos + needsize
      · have hk' : k < 63 := by
          rcases Nat.lt_or_ge k 63 with hlt63 | hge
          · exact hlt63
          · have heq : k = 63 := by omega
            subst heq
            omega
        have hsmall : ¬ 2 ^ k < defaultSize := by
          have : (2 : Nat) ^ 7 ≤ 2 ^ k := Nat.pow_le_pow_right (by decide) hlow
          simp only [defaultSize]
          omega
        have hround : roundUp2Power (2 ^ k) = .ok (2 ^ k) := by
          rw [roundUp2Power_eq (Nat.two_pow_pos k) hpow, pow2Ceil_pow]
        have hnext : (2 : Nat) ^ (k + 1) ≤ 2 ^ 63 :=
          Nat.pow_le_pow_right (by decide) hk'
        have hsucc : (2 : Nat) ^ (k + 1) = 2 * 2 ^ k := by
          rw [Nat.pow_succ, Nat.mul_comm]
        have hclog : k < Nat.clog 2 (writePos - readPos + needsize) :=
          (Nat.lt_clog_iff_pow_lt (by decide)).mpr hlt
        have hceil : 2 ^ (k + 1) ≤ pow2Ceil (writePos - readPos + needsize) :=
          Nat.pow_le_pow_right (by decide) hclog
        rw [growLoop, if_pos (htest.mpr hlt), if_neg hsmall, if_pos (by omega),
          hround]
        simp only [bind, Except.bind, Nat.lt_irrefl, if_false]
        rw [wordDouble_of_lt (by omega), ← hsucc,
          ih (k + 1) (by omega) hk' (by omega) (by omega),
          Nat.max_eq_right hceil, Nat.max_eq_right (by omega)]
      · have hceil : pow2Ceil (writePos - readPos + needsize) ≤ 2 ^ k :=
          pow2Ceil_le_pow (Nat.le_of_not_lt hlt)
        rw [growLoop, if_neg (fun h => hlt (htest.mp h)), Nat.max_eq_left hceil]

/-- The capacity that `assureSpace` settles on. -/
def grownCapacity (capacity needed : Nat) : Nat :=
  if needed ≤ capacity then capacity else max defaultSize (pow2Ceil needed)

theorem growLoop_eq {capacity : Nat} (hpow : ZeroOrPow2 capacity)
    (hread : readPos ≤ writePos) (hwrite : writePos ≤ capacity)
    (hneed : writePos - readPos + needsize < maxBufferSize) :
    growLoop readPos writePos needsize 66 capacity =
      .ok (grownCapacity capacity (writePos - readPos + needsize)) := by
  have htest := growLoop_test needsize capacity hread hwrite hpow.le
  by_cases hle : writePos - readPos + needsize ≤ capacity
  · have hnot : ¬ capacity < writePos - readPos + needsize := by omega
    rw [growLoop, if_neg (fun h => hnot (htest.mp h)), grownCapacity, if_pos hle]
  · by_cases hsmall : capacity < defaultSize
    · have hstart := growLoop_pow hread hneed 65 7 (by omega) (by omega)
        (by omega) (by simp only [defaultSize] at hsmall; omega)
      rw [growLoop, if_pos (htest.mpr (by omega)), if_pos hsmall, grownCapacity,
        if_neg hle]
      exact hstart
    · rcases hpow with rfl | ⟨k, hk, rfl⟩
      · simp [defaultSize] at hsmall
      · have hlow : 7 ≤ k := by
          by_contra hnot
          have : (2 : Nat) ^ k ≤ 2 ^ 6 :=
            Nat.pow_le_pow_right (by decide) (by omega)
          simp only [defaultSize] at hsmall
          omega
        have hclog : 2 ^ k ≤ pow2Ceil (writePos - readPos + needsize) := by
          have := le_pow2Ceil (writePos - readPos + needsize)
          omega
        rw [growLoop_pow hread hneed 66 k hlow hk (by omega) hwrite,
          grownCapacity, if_neg hle, Nat.max_eq_right hclog,
          Nat.max_eq_right (by simp only [defaultSize] at hsmall ⊢; omega)]

theorem le_grownCapacity (capacity needed : Nat) :
    needed ≤ grownCapacity capacity needed := by
  unfold grownCapacity
  split
  · assumption
  · exact Nat.le_trans (le_pow2Ceil needed) (Nat.le_max_right _ _)

theorem grownCapacity_pow {capacity needed : Nat} (hpow : ZeroOrPow2 capacity)
    (hneeded : needed ≤ 2 ^ 63) : ZeroOrPow2 (grownCapacity capacity needed) := by
  unfold grownCapacity
  split
  · exact hpow
  · rcases Nat.le_total defaultSize (pow2Ceil needed) with hle | hle
    · rw [Nat.max_eq_right hle]
      exact pow2Ceil_zeroOrPow2 hneeded
    · rw [Nat.max_eq_left hle]
      exact Or.inr ⟨7, by omega, rfl⟩

end Growing

/-! ### Positions moved to the front -/

/-- A buffer whose readable bytes were stored at the start of a block. -/
theorem wellFormed_moved (data : List UInt8) (highWater : Nat)
    {bytes : List UInt8} {capacity : Nat}
    (hpow : ZeroOrPow2 capacity) (hlen : bytes.length = capacity)
    (hpos : 0 < capacity) (hfits : data.length ≤ capacity) :
    WellFormed ⟨0, data.length, capacity,
      some (bytes.take 0 ++ data ++ bytes.drop (0 + data.length)), highWater⟩ := by
  refine ⟨Nat.zero_le _, hfits, hpow, ?_, ?_⟩
  · simp only [reduceCtorEq, iff_false]
    omega
  · intro other hother
    rw [← Option.some.inj hother, length_stored (by omega)]
    exact hlen

theorem contents_moved (bytes data : List UInt8) (capacity highWater : Nat) :
    contents ⟨0, data.length, capacity,
      some (bytes.take 0 ++ data ++ bytes.drop (0 + data.length)), highWater⟩ =
      data :=
  window_stored_zero bytes data

/-! ### `assureSpace` -/

theorem grownCapacity_eq_of_le {capacity needed : Nat}
    (hle : grownCapacity capacity needed ≤ capacity) :
    grownCapacity capacity needed = capacity := by
  by_cases hneeded : needed ≤ capacity
  · rw [grownCapacity, if_pos hneeded]
  · have := le_grownCapacity capacity needed
    omega

/-- Both ways of relocating end with the readable bytes at the start of a block
of the new capacity. -/
theorem relocate_spec (h : b.WellFormed) {capacity : Nat}
    (hfits : b.contents.length ≤ capacity)
    (hmove : b.capacity < capacity ∨
      capacity = b.capacity ∧ 0 < b.readPos) :
    ∃ bytes : List UInt8, bytes.length = capacity ∧ b.relocate capacity =
      .ok (some (bytes.take 0 ++ b.contents ++
        bytes.drop (0 + b.contents.length))) := by
  have hread := h.readPos_le
  have hwrite := h.writePos_le
  rcases hmove with hgrow | ⟨rfl, hpos⟩
  · refine ⟨List.replicate capacity 0, List.length_replicate, ?_⟩
    rw [relocate, if_pos hgrow, h.load_readable]
    by_cases hzero : b.readableSize = 0
    · have hnil : b.contents = [] := by
        rw [h.readableSize_eq_length] at hzero
        exact List.length_eq_zero_iff.mp hzero
      simp [hzero, hnil, newBlock]
    · rw [if_pos hzero]
      simp only [bind, Except.bind, newBlock]
      rw [store_of_fits (by rw [List.length_replicate]; omega)]
  · obtain ⟨bytes, hblock, hlen⟩ := h.exists_block (by omega)
    refine ⟨bytes, hlen, ?_⟩
    rw [relocate, if_neg (Nat.lt_irrefl _), if_pos hpos, h.load_readable]
    simp only [bind, Except.bind, hblock]
    rw [store_of_fits (by omega)]

/-- `assureSpace` returns with room for `needsize` bytes, keeps the readable
bytes, and only changes the capacity to make room. -/
theorem assureSpace_spec (h : b.WellFormed) (needsize : Nat)
    (hneed : b.contents.length + needsize < maxBufferSize) :
    ∃ b', b.assureSpace needsize = .ok b' ∧ b'.WellFormed ∧
      b'.contents = b.contents ∧ needsize ≤ b'.capacity - b'.writePos ∧
      b'.capacity = grownCapacity b.capacity (b.contents.length + needsize) := by
  have hread := h.readPos_le
  have hwrite := h.writePos_le
  have hlen := h.length_contents
  have hcap := h.capacity_le
  by_cases hroom : needsize ≤ b.writableSize
  · rw [h.writableSize_eq] at hroom
    refine ⟨b, by rw [assureSpace, h.writableSize_eq, if_pos hroom], h, rfl, hroom, ?_⟩
    rw [grownCapacity, if_pos (by omega)]
  · have hloop : growLoop b.readPos b.writePos needsize 66 b.capacity =
        .ok (grownCapacity b.capacity (b.contents.length + needsize)) := by
      rw [hlen]
      exact growLoop_eq h.capacity_pow hread hwrite (by omega)
    have hgrown := le_grownCapacity b.capacity (b.contents.length + needsize)
    have hpow : ZeroOrPow2 (grownCapacity b.capacity (b.contents.length + needsize)) := by
      apply grownCapacity_pow h.capacity_pow
      have hmax : maxBufferSize = 2 ^ 63 - 1 := rfl
      omega
    have hmove : b.capacity < grownCapacity b.capacity (b.contents.length + needsize) ∨
        grownCapacity b.capacity (b.contents.length + needsize) = b.capacity ∧
          0 < b.readPos := by
      rw [h.writableSize_eq] at hroom
      rcases Nat.lt_or_ge b.capacity
        (grownCapacity b.capacity (b.contents.length + needsize)) with hlt | hge
      · exact Or.inl hlt
      · have hsame := grownCapacity_eq_of_le hge
        exact Or.inr ⟨hsame, by omega⟩
    obtain ⟨bytes, hbytes, hmoved⟩ := relocate_spec h (by omega) hmove
    have hwell := wellFormed_moved b.contents b.highWaterPercent hpow hbytes (by omega) (by omega)
    refine ⟨_, ?_, hwell, contents_moved _ _ _ _, by simp only; omega, rfl⟩
    rw [assureSpace, if_neg hroom, hloop]
    simp only [bind, Except.bind, hmoved, h.readableSize_eq_length]
    rw [if_pos]
    rw [hwell.writableSize_eq]
    simp only
    omega

/-! ### Adding and removing bytes -/

/-- Bytes written behind the write position become readable with `produce`. -/
theorem writeAt_produce_spec (h : b.WellFormed) {data : List UInt8}
    (hfits : data.length ≤ b.capacity - b.writePos) :
    ∃ b', (do let w ← b.writeAt data; .ok (w.produce data.length)) = .ok b' ∧
      b'.WellFormed ∧ b'.contents = b.contents ++ data ∧
      b'.capacity = b.capacity := by
  have hread := h.readPos_le
  have hwrite := h.writePos_le
  have hcap := h.capacity_le
  have hadd : wordAdd b.writePos data.length = b.writePos + data.length :=
    wordAdd_of_lt (by omega)
  rcases Nat.eq_zero_or_pos b.capacity with hzero | hpos
  · have hnull := h.null_iff.mp hzero
    have hnil : data = [] := List.length_eq_zero_iff.mp (by omega)
    subst hnil
    refine ⟨b, ?_, h, (List.append_nil _).symm, rfl⟩
    simp only [writeAt, hnull, store, bind, Except.bind, produce, if_true]
    rw [hadd]
    simp [← hnull]
  · obtain ⟨bytes, hblock, hlen⟩ := h.exists_block hpos
    refine ⟨{ b with
      writePos := b.writePos + data.length
      buffer := some (bytes.take b.writePos ++ data ++
        bytes.drop (b.writePos + data.length)) }, ?_, ?_, ?_, rfl⟩
    · simp only [writeAt, hblock]
      rw [store_of_fits (by omega)]
      simp only [bind, Except.bind, produce, hadd]
    · refine ⟨by simp only; omega, by simp only; omega, h.capacity_pow, ?_, ?_⟩
      · simp only [reduceCtorEq, iff_false]
        omega
      · intro other hother
        rw [← Option.some.inj hother, length_stored (by omega)]
        exact hlen
    · rw [contents, contents, hblock]
      exact window_stored hread (by omega)

/-- The same with the two steps apart. -/
theorem writeAt_spec (h : b.WellFormed) (data : List UInt8)
    (hfits : data.length ≤ b.capacity - b.writePos) :
    ∃ w, b.writeAt data = .ok w ∧ (w.produce data.length).WellFormed ∧
      (w.produce data.length).contents = b.contents ++ data := by
  obtain ⟨b', hdo, hwell, hcontents, _⟩ := writeAt_produce_spec h hfits
  cases hwrite : b.writeAt data with
  | error fault => simp [hwrite, bind, Except.bind] at hdo
  | ok w =>
      simp only [hwrite, bind, Except.bind, Except.ok.injEq] at hdo
      exact ⟨w, rfl, hdo ▸ hwell, hdo ▸ hcontents⟩

theorem pushData_of_full (h : b.WellFormed) {data : List UInt8}
    (hsize : data.length < 2 ^ 63)
    (hfull : maxBufferSize ≤ b.contents.length + data.length) :
    b.pushData (some data) = .ok (0, b) := by
  have hlen := h.length_contents_le
  have hcap := h.capacity_le
  by_cases hzero : data.length = 0
  · simp [pushData, hzero]
  · have hadd : wordAdd b.contents.length data.length =
        b.contents.length + data.length := wordAdd_of_lt (by omega)
    simp only [pushData, if_neg hzero, h.readableSize_eq_length, hadd,
      if_pos hfull]

/-- An accepted `pushData` appends its bytes and returns their number. -/
theorem pushData_spec (h : b.WellFormed) {data : List UInt8}
    (hfits : b.contents.length + data.length < maxBufferSize) :
    ∃ b', b.pushData (some data) = .ok (data.length, b') ∧ b'.WellFormed ∧
      b'.contents = b.contents ++ data := by
  by_cases hzero : data.length = 0
  · have hnil := List.length_eq_zero_iff.mp hzero
    subst hnil
    exact ⟨b, rfl, h, (List.append_nil _).symm⟩
  · have hmax : maxBufferSize = 2 ^ 63 - 1 := rfl
    have hadd : wordAdd b.contents.length data.length =
        b.contents.length + data.length := wordAdd_of_lt (by omega)
    obtain ⟨roomy, hroomy, hwell, hsame, hspace, _⟩ := assureSpace_spec h data.length hfits
    obtain ⟨b', hwritten, hwell', hcontents, _⟩ :=
      writeAt_produce_spec hwell hspace
    refine ⟨b', ?_, hwell', by rw [hcontents, hsame]⟩
    simp only [pushData, if_neg hzero, h.readableSize_eq_length, hadd,
      if_neg (Nat.not_le.mpr hfits), hroomy, bind, Except.bind]
    simp only [writeAt, bind, Except.bind] at hwritten
    cases hstore : store roomy.buffer roomy.writePos data with
    | error fault => simp [hstore] at hwritten
    | ok block =>
        simp only [hstore, Except.ok.injEq] at hwritten ⊢
        rw [← hwritten]

/-- Whether or not there is room, `pushData` returns and removes nothing. -/
theorem pushData_any (h : b.WellFormed) {data : List UInt8}
    (hsize : data.length < 2 ^ 63) :
    ∃ n b', b.pushData (some data) = .ok (n, b') ∧ b'.WellFormed ∧
      b.contents <+: b'.contents := by
  by_cases hfits : b.contents.length + data.length < maxBufferSize
  · obtain ⟨b', hpush, hwell, hcontents⟩ := pushData_spec h hfits
    exact ⟨_, b', hpush, hwell, data, hcontents.symm⟩
  · exact ⟨0, b, pushData_of_full h hsize (Nat.not_lt.mp hfits), h, List.prefix_rfl⟩

theorem clear_spec (h : b.WellFormed) :
    b.clear.WellFormed ∧ b.clear.contents = [] := by
  refine ⟨⟨Nat.le_refl _, Nat.zero_le _, h.capacity_pow, h.null_iff,
    h.allocated⟩, ?_⟩
  simp [contents, window, clear]

/-- `consume` drops bytes from the front; an emptied buffer is reset. -/
theorem consume_spec (h : b.WellFormed) {n : Nat} (hn : n ≤ b.contents.length) :
    ∃ b', b.consume n = .ok b' ∧ b'.WellFormed ∧
      b'.contents = b.contents.drop n ∧ b'.capacity = b.capacity := by
  have hread := h.readPos_le
  have hwrite := h.writePos_le
  have hcap := h.capacity_le
  have hlen := h.length_contents
  have hadd : wordAdd b.readPos n = b.readPos + n := wordAdd_of_lt (by omega)
  have hadvanced : WellFormed { b with readPos := b.readPos + n } :=
    ⟨by simp only; omega, h.writePos_le, h.capacity_pow, h.null_iff, h.allocated⟩
  have hdrop : contents { b with readPos := b.readPos + n } = b.contents.drop n := by
    simp only [contents, window, List.drop_take, List.drop_drop]
    congr 1
    omega
  simp only [consume, hadd]
  rw [if_pos (by omega)]
  refine ⟨_, rfl, ?_⟩
  by_cases hempty : empty { b with readPos := b.readPos + n } = true
  · rw [if_pos hempty]
    obtain ⟨hwell, hnil⟩ := clear_spec hadvanced
    exact ⟨hwell, by rw [hnil, ← hdrop, hadvanced.empty_iff.mp hempty], rfl⟩
  · rw [if_neg hempty]
    exact ⟨hadvanced, hdrop, rfl⟩

theorem consume_of_too_many (h : b.WellFormed) {n : Nat} (hn : n < 2 ^ 63)
    (hmany : b.contents.length < n) : b.consume n = .error .assertion := by
  have hread := h.readPos_le
  have hwrite := h.writePos_le
  have hcap := h.capacity_le
  have hlen := h.length_contents
  rw [consume]
  by_cases hwrap : b.readPos + n < 2 ^ 64
  · rw [wordAdd_of_lt hwrap, if_neg (by omega)]
  · omega

theorem popData_spec (h : b.WellFormed) (buf : Bool) (size : Nat) :
    ∃ b', b.popData buf size =
        .ok (if buf then b.contents.take size else [], b') ∧ b'.WellFormed ∧
      b'.contents = if buf then b.contents.drop size else b.contents := by
  have hlen := h.readableSize_eq_length
  by_cases hskip : buf = false ∨ size = 0 ∨ b.readableSize = 0
  · refine ⟨b, ?_, h, ?_⟩
    · rw [popData, if_pos hskip]
      rcases hskip with rfl | rfl | hzero
      · rfl
      · simp
      · rw [hlen] at hzero
        simp [List.length_eq_zero_iff.mp hzero]
    · rcases hskip with rfl | rfl | hzero
      · rfl
      · simp
      · rw [hlen] at hzero
        simp [List.length_eq_zero_iff.mp hzero]
  · have hbuf : buf = true := by
      cases buf with
      | true => rfl
      | false => exact absurd (Or.inl rfl) hskip
    obtain ⟨b', hconsume, hwell, hdrop, _⟩ :=
      consume_spec h (Nat.min_le_right size b.contents.length)
    have hload : load b.buffer b.readPos (min size b.contents.length) =
        .ok (b.contents.take size) := by
      have hread := h.readPos_le
      have hwrite := h.writePos_le
      have hlength := h.length_contents
      rw [h.readableSize_eq] at hskip
      obtain ⟨bytes, hblock, hbytes⟩ := h.exists_block (by omega)
      have hfits : b.readPos + min size (b.writePos - b.readPos) ≤
          bytes.length := by omega
      rw [hlength, hblock]
      simp only [load, if_pos hfits, contents, hblock, window,
        Option.getD_some, List.take_take]
    refine ⟨b', ?_, hwell, ?_⟩
    · rw [popData, if_neg hskip, hlen, hload]
      simp only [bind, Except.bind, hconsume, hbuf, if_true]
    · rw [hdrop, hbuf, if_pos rfl]
      rcases Nat.le_total size b.contents.length with hle | hle
      · rw [Nat.min_eq_left hle]
      · rw [Nat.min_eq_right hle, List.drop_of_length_le hle,
          List.drop_of_length_le (Nat.le_refl _)]

/-- `shrink` keeps the readable bytes and never enlarges the block. -/
theorem shrink_spec (h : b.WellFormed) :
    ∃ b', b.shrink = .ok b' ∧ b'.WellFormed ∧ b'.contents = b.contents ∧
      b'.capacity ≤ b.capacity := by
  have hlen := h.readableSize_eq_length
  have hcap := h.capacity_le
  have hle := h.length_contents_le
  by_cases hempty : b.empty = true
  · refine ⟨_, by rw [shrink, if_pos hempty], ?_, ?_, Nat.zero_le _⟩
    · refine ⟨Nat.le_refl _, Nat.le_refl _, Or.inl rfl, by simp, ?_⟩
      intro bytes hbytes
      simp at hbytes
    · rw [h.empty_iff.mp hempty]
      rfl
  · by_cases hsmall : b.capacity ≤ defaultSize
    · exact ⟨b, by rw [shrink, if_neg hempty, if_pos hsmall], h, rfl, Nat.le_refl _⟩
    · by_cases hhigh : wordMul b.capacity b.highWaterPercent <
          wordMul b.readableSize 100
      · refine ⟨b, ?_, h, rfl, Nat.le_refl _⟩
        rw [shrink, if_neg hempty, if_neg hsmall, if_pos hhigh]
      · have hpos : 0 < b.contents.length := by
          rcases Nat.eq_zero_or_pos b.contents.length with hzero | hpos
          · exact absurd (h.empty_iff.mpr (List.length_eq_zero_iff.mp hzero)) hempty
          · exact hpos
        have hceil := le_pow2Ceil b.contents.length
        have hnew : pow2Ceil b.contents.length ≤ b.capacity := by
          rcases h.capacity_pow with hzero | ⟨k, _, hpow⟩
          · omega
          · rw [hpow]
            apply pow2Ceil_le_pow
            omega
        have hwell := wellFormed_moved b.contents b.highWaterPercent
          (pow2Ceil_zeroOrPow2 (n := b.contents.length) (by omega))
          (List.length_replicate (a := 0)) (by omega) hceil
        refine ⟨_, ?_, hwell, contents_moved _ _ _ _, hnew⟩
        have hround := roundUp2Power_eq hpos (by omega)
        have hload := h.load_readable
        rw [hlen] at hload
        rw [shrink, if_neg hempty, if_neg hsmall, if_neg hhigh]
        simp only [hlen, hround, hload, bind, Except.bind, newBlock]
        rw [store_of_fits (by rw [List.length_replicate]; omega)]

end Buffer

end Tarsx
