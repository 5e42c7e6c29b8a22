/-
One producer in `push_back(t)` and one consumer in `pop_front(t)` on one `LoopQueue`.
Every read and write of `begin_`, `end_` or a slot is a step of its own, and the steps
of the two interleave in any way.
-/
import Tarsx.Foundation.Run
import Tarsx.LoopQueue

namespace Tarsx

open Foundation

universe u

namespace LoopQueue

variable {α : Type u}

/-! ### The two programs -/

/-- Where the producer is in `push_back(t)`: the access it makes next, with its local
variables.  `endAt` is the copy `end`. -/
inductive PushPc (α : Type u) where
  | idle
  /-- `end = end_` -/
  | readEnd (t : α)
  /-- `end > begin_` -/
  | testAbove (t : α) (endAt : Nat)
  /-- `end - begin_ < 2` -/
  | testGap (t : α) (endAt : Nat)
  /-- `begin_ > end` -/
  | testBelow (t : α) (endAt : Nat)
  /-- `begin_ - end > capacity_ - 2` -/
  | testFill (t : α) (endAt : Nat)
  /-- `p_ + begin_` -/
  | slot (t : α)
  /-- `memcpy` to the slot -/
  | write (t : α) (pos : Nat)
  /-- `end_` in `end_ == begin_` -/
  | emptyEnd (t : α)
  /-- `begin_` in `end_ == begin_` -/
  | emptyBegin (t : α) (endAt : Nat)
  /-- `begin_ == capacitySub_` -/
  | wrap (t : α) (empty : Bool)
  /-- `begin_ = 0` -/
  | reset (t : α) (empty : Bool)
  /-- the read of `++begin_` -/
  | next (t : α) (empty : Bool)
  /-- the write of `++begin_` -/
  | publish (t : α) (empty : Bool) (pos : Nat)
  /-- `begin = begin_` in `size()` -/
  | sizeBegin (t : α)
  /-- `end = end_` in `size()` -/
  | sizeEnd (t : α) (beginAt : Nat)
  | done (t : α) (ok : Bool)

/-- Where the consumer is in `pop_front(t)`. -/
inductive PopPc (α : Type u) where
  | idle
  /-- `end_` in `end_ == begin_` -/
  | compareEnd
  /-- `begin_` in `end_ == begin_` -/
  | compareBegin (endAt : Nat)
  /-- `p_ + end_` -/
  | slot
  /-- `memcpy` from the slot -/
  | read (pos : Nat)
  /-- `end_ == capacitySub_` -/
  | wrap (t : α)
  /-- `end_ = 0` -/
  | reset (t : α)
  /-- the read of `++end_` -/
  | next (t : α)
  /-- the write of `++end_` -/
  | release (t : α) (pos : Nat)
  | done (result : Option α)

/-- After `begin_` was written: `size()` is called unless `empty` is set. -/
def afterPublish (t : α) (empty : Bool) : PushPc α :=
  if empty then .done t true else .sizeBegin t

/-- The next access of the producer.  An index outside the array counts as a fault
where it is used or written. -/
def pushStep (q : LoopQueue α) : PushPc α → Except Fault (LoopQueue α × PushPc α)
  | .idle => .ok (q, .idle)
  | .readEnd t => .ok (q, .testAbove t q.endPos)
  | .testAbove t endAt =>
      .ok (q, if endAt > q.beginPos then .testGap t endAt else .testBelow t endAt)
  | .testGap t endAt =>
      .ok (q, if word32Sub endAt q.beginPos < 2 then .done t false else .testBelow t endAt)
  | .testBelow t endAt =>
      .ok (q, if q.beginPos > endAt then .testFill t endAt else .slot t)
  | .testFill t endAt =>
      .ok (q, if word32Sub q.beginPos endAt > word32Sub q.capacity 2 then .done t false
        else .slot t)
  | .slot t => .ok (q, .write t q.beginPos)
  | .write t pos =>
      if pos ≤ q.capacitySub then
        .ok ({ q with cells := Function.update q.cells pos t }, .emptyEnd t)
      else .error .outOfBounds
  | .emptyEnd t => .ok (q, .emptyBegin t q.endPos)
  | .emptyBegin t endAt => .ok (q, .wrap t (decide (endAt = q.beginPos)))
  | .wrap t empty =>
      .ok (q, if q.beginPos = q.capacitySub then .reset t empty else .next t empty)
  | .reset t empty =>
      .ok ({ q with beginPos := 0, beginPos_le := Nat.zero_le _ }, afterPublish t empty)
  | .next t empty => .ok (q, .publish t empty q.beginPos)
  | .publish t empty pos =>
      if hpos : pos + 1 ≤ q.capacitySub then
        .ok ({ q with beginPos := pos + 1, beginPos_le := hpos }, afterPublish t empty)
      else .error .outOfBounds
  | .sizeBegin t => .ok (q, .sizeEnd t q.beginPos)
  | .sizeEnd t _ => .ok (q, .done t true)
  | .done _ _ => .ok (q, .idle)

/-- The next access of the consumer. -/
def popStep (q : LoopQueue α) : PopPc α → Except Fault (LoopQueue α × PopPc α)
  | .idle => .ok (q, .idle)
  | .compareEnd => .ok (q, .compareBegin q.endPos)
  | .compareBegin endAt => .ok (q, if endAt = q.beginPos then .done none else .slot)
  | .slot => .ok (q, .read q.endPos)
  | .read pos =>
      if pos ≤ q.capacitySub then .ok (q, .wrap (q.cells pos)) else .error .outOfBounds
  | .wrap t => .ok (q, if q.endPos = q.capacitySub then .reset t else .next t)
  | .reset t => .ok ({ q with endPos := 0, endPos_le := Nat.zero_le _ }, .done (some t))
  | .next t => .ok (q, .release t q.endPos)
  | .release t pos =>
      if hpos : pos + 1 ≤ q.capacitySub then
        .ok ({ q with endPos := pos + 1, endPos_le := hpos }, .done (some t))
      else .error .outOfBounds
  | .done _ => .ok (q, .idle)

/-! ### What the callers see -/

/-- The argument of the `push_back` call that runs. -/
def PushPc.argument : PushPc α → List α
  | .idle => []
  | .readEnd t => [t]
  | .testAbove t _ => [t]
  | .testGap t _ => [t]
  | .testBelow t _ => [t]
  | .testFill t _ => [t]
  | .slot t => [t]
  | .write t _ => [t]
  | .emptyEnd t => [t]
  | .emptyBegin t _ => [t]
  | .wrap t _ => [t]
  | .reset t _ => [t]
  | .next t _ => [t]
  | .publish t _ _ => [t]
  | .sizeBegin t => [t]
  | .sizeEnd t _ => [t]
  | .done t _ => [t]

/-- What a finished `push_back` answers for its argument. -/
def PushPc.reply : PushPc α → List (α × Bool)
  | .done t ok => [(t, ok)]
  | _ => []

/-- The element a finished `push_back` accepted. -/
def PushPc.accepts : PushPc α → List α
  | .done t true => [t]
  | _ => []

/-- The element that the consumer can see before its `push_back` has returned. -/
def PushPc.published : PushPc α → List α
  | .sizeBegin t => [t]
  | .sizeEnd t _ => [t]
  | .done t true => [t]
  | _ => []

/-- What a finished `pop_front` answers. -/
def PopPc.reply : PopPc α → List (Option α)
  | .done result => [result]
  | _ => []

/-- The element that `pop_front` returns. -/
def PopPc.returns : PopPc α → List α
  | .done (some t) => [t]
  | _ => []

/-- How many calls of `pop_front` are running. -/
def PopPc.running : PopPc α → Nat
  | .idle => 0
  | _ => 1

/-- The queue with its two users, and a record that no program reads: the arguments of the
`push_back` calls begun and the answers to those that have returned, the number of the
`pop_front` calls begun and the answers to those that have returned; how many elements
there were when the running `push_back` read `end_` into its copy, and the oldest element,
if any, when the running `pop_front` compared; and the accesses each has made. -/
structure Pipe (α : Type u) where
  queue : LoopQueue α
  producer : PushPc α := .idle
  consumer : PopPc α := .idle
  offered : List α := []
  answers : List (α × Bool) := []
  begun : Nat := 0
  replies : List (Option α) := []
  readAt : Option Nat := none
  compared : Option (Option α) := none
  pushAccesses : Nat := 0
  popAccesses : Nat := 0

/-- The elements of the calls that returned true. -/
def Pipe.accepted (p : Pipe α) : List α := (p.answers.filter Prod.snd).map Prod.fst

/-- The elements that `pop_front` returned. -/
def Pipe.received (p : Pipe α) : List α := p.replies.filterMap id

/-- A call of `push_back(t)` or `pop_front` begins, or one of the two makes its next
access. -/
inductive PipeAction (α : Type u) where
  | push (t : α)
  | producer
  | pop
  | consumer

/-- The value of `readAt` after the next access of the producer. -/
def PushPc.observe (q : LoopQueue α) (readAt : Option Nat) : PushPc α → Option Nat
  | .readEnd _ => some q.size
  | _ => readAt

/-- The value of `compared` after the next access of the consumer. -/
def PopPc.observe (q : LoopQueue α) (compared : Option (Option α)) :
    PopPc α → Option (Option α)
  | .compareBegin _ => some q.elements.head?
  | _ => compared

/-- A call begins only when the last one has returned. -/
def pipeStep (p : Pipe α) : PipeAction α → Except Fault (Pipe α)
  | .push t =>
      match p.producer with
      | .idle => .ok { p with
          producer := .readEnd t
          offered := p.offered ++ [t]
          readAt := none
          pushAccesses := 0 }
      | _ => .ok p
  | .producer => do
      let (queue, producer) ← pushStep p.queue p.producer
      .ok { p with
        queue := queue
        producer := producer
        answers := p.answers ++ p.producer.reply
        readAt := p.producer.observe p.queue p.readAt
        pushAccesses := p.pushAccesses + 1 }
  | .pop =>
      match p.consumer with
      | .idle => .ok { p with
          consumer := .compareEnd, begun := p.begun + 1, compared := none, popAccesses := 0 }
      | _ => .ok p
  | .consumer => do
      let (queue, consumer) ← popStep p.queue p.consumer
      .ok { p with
        queue := queue
        consumer := consumer
        replies := p.replies ++ p.consumer.reply
        compared := p.consumer.observe p.queue p.compared
        popAccesses := p.popAccesses + 1 }

/-- Every call is answered, by its own accesses alone.  The elements received, the one being
returned and those stored are the accepted ones and the one being accepted, in order, and the
two users never are at the same slot.  `push_back` refuses its argument exactly when `size`
elements were stored when it read `end_`; `pop_front` returns the element that was the oldest
when it compared, and fails only if there was none. -/
structure Pipe.Faithful (size : Nat) (p : Pipe α) : Prop where
  offered : p.offered = p.answers.map Prod.fst ++ p.producer.argument
  begun : p.begun = p.replies.length + p.consumer.running
  conserved : p.received ++ p.consumer.returns ++ p.queue.elements =
    p.accepted ++ p.producer.published
  apart : ∀ t pos pos', p.producer = .write t pos → p.consumer = .read pos' → pos ≠ pos'
  pushed : ∀ t ok, p.producer = .done t ok →
    ∃ stored, p.readAt = some stored ∧ (ok = false ↔ stored = size)
  popped : ∀ result, p.consumer = .done result → p.compared = some result
  pushEnds : p.producer ≠ .idle → p.pushAccesses ≤ 14
  popEnds : p.consumer ≠ .idle → p.popAccesses ≤ 7

/-! ### The producer -/

/-- The number of elements there would be if `end_` were `endAt`. -/
def span (q : LoopQueue α) (endAt : Nat) : Nat :=
  if q.beginPos < endAt then q.beginPos + q.capacity - endAt else q.beginPos - endAt

theorem span_endPos (q : LoopQueue α) : q.span q.endPos = q.size := rfl

/-- What the copy of `end_` says: the consumer may have gone on since. -/
structure Seen (q : LoopQueue α) (readAt : Option Nat) (endAt : Nat) : Prop where
  le : endAt ≤ q.capacitySub
  stored : readAt = some (q.span endAt)
  size_le : q.size ≤ q.span endAt

/-- There was room when `end_` was read. -/
def SawRoom (q : LoopQueue α) (readAt : Option Nat) : Prop :=
  ∃ stored, readAt = some stored ∧ stored < q.capacitySub

/-- There was room, and there still is. -/
structure Room (q : LoopQueue α) (readAt : Option Nat) : Prop where
  saw : SawRoom q readAt
  size_lt : q.size < q.capacitySub

/-- There is room, and the element stands in the slot behind the others. -/
structure Ready (q : LoopQueue α) (readAt : Option Nat) (t : α) : Prop where
  room : Room q readAt
  cell : q.cells q.beginPos = t

/-- What the producer knows at each access. -/
def PushOk (q : LoopQueue α) (readAt : Option Nat) : PushPc α → Prop
  | .testAbove _ endAt => Seen q readAt endAt
  | .testGap _ endAt => Seen q readAt endAt ∧ endAt > q.beginPos
  | .testBelow _ endAt =>
      Seen q readAt endAt ∧ (endAt > q.beginPos → 2 ≤ endAt - q.beginPos)
  | .testFill _ endAt => Seen q readAt endAt ∧ q.beginPos > endAt
  | .slot _ => Room q readAt
  | .write _ pos => Room q readAt ∧ pos = q.beginPos
  | .emptyEnd t => Ready q readAt t
  | .emptyBegin t _ => Ready q readAt t
  | .wrap t _ => Ready q readAt t
  | .reset t _ => Ready q readAt t ∧ q.beginPos = q.capacitySub
  | .next t _ => Ready q readAt t ∧ q.beginPos ≠ q.capacitySub
  | .publish t _ pos => Ready q readAt t ∧ q.beginPos ≠ q.capacitySub ∧ pos = q.beginPos
  | .sizeBegin _ => SawRoom q readAt
  | .sizeEnd _ _ => SawRoom q readAt
  | .done _ true => SawRoom q readAt
  | .done _ false => readAt = some q.capacitySub
  | _ => True

/-- At most so many accesses lie behind each place of `push_back`. -/
def PushPc.behind : PushPc α → Nat
  | .idle => 0
  | .readEnd _ => 0
  | .testAbove _ _ => 1
  | .testGap _ _ => 2
  | .testBelow _ _ => 3
  | .testFill _ _ => 4
  | .slot _ => 5
  | .write _ _ => 6
  | .emptyEnd _ => 7
  | .emptyBegin _ _ => 8
  | .wrap _ _ => 9
  | .reset _ _ => 10
  | .next _ _ => 10
  | .publish _ _ _ => 11
  | .sizeBegin _ => 12
  | .sizeEnd _ _ => 13
  | .done _ _ => 14

section Producer

variable {q q' : LoopQueue α} {readAt : Option Nat}

/-- The consumer only takes elements away. -/
structure Drains (q q' : LoopQueue α) : Prop where
  capacitySub : q'.capacitySub = q.capacitySub
  beginPos : q'.beginPos = q.beginPos
  cells : q'.cells = q.cells
  size_le : q'.size ≤ q.size

theorem Seen.drains {endAt : Nat} (h : Seen q readAt endAt) (hdrains : Drains q q') :
    Seen q' readAt endAt := by
  have hspan : q'.span endAt = q.span endAt := by
    simp only [span, capacity, hdrains.beginPos, hdrains.capacitySub]
  refine ⟨?_, ?_, ?_⟩
  · rw [hdrains.capacitySub]
    exact h.le
  · rw [hspan]
    exact h.stored
  · rw [hspan]
    exact hdrains.size_le.trans h.size_le

theorem SawRoom.drains (h : SawRoom q readAt) (hdrains : Drains q q') : SawRoom q' readAt := by
  obtain ⟨stored, hstored, hlt⟩ := h
  exact ⟨stored, hstored, hdrains.capacitySub.symm ▸ hlt⟩

theorem Room.drains (h : Room q readAt) (hdrains : Drains q q') : Room q' readAt := by
  refine ⟨h.saw.drains hdrains, ?_⟩
  rw [hdrains.capacitySub]
  exact hdrains.size_le.trans_lt h.size_lt

theorem Ready.drains {t : α} (h : Ready q readAt t) (hdrains : Drains q q') :
    Ready q' readAt t := by
  refine ⟨h.room.drains hdrains, ?_⟩
  rw [hdrains.beginPos, hdrains.cells]
  exact h.cell

/-- What the producer knows does not depend on where the consumer is. -/
theorem PushOk.drains {pc : PushPc α} (h : PushOk q readAt pc) (hdrains : Drains q q') :
    PushOk q' readAt pc := by
  cases pc with
  | testAbove t endAt => exact Seen.drains h hdrains
  | testGap t endAt => exact ⟨h.1.drains hdrains, by rw [hdrains.beginPos]; exact h.2⟩
  | testBelow t endAt => exact ⟨h.1.drains hdrains, by rw [hdrains.beginPos]; exact h.2⟩
  | testFill t endAt => exact ⟨h.1.drains hdrains, by rw [hdrains.beginPos]; exact h.2⟩
  | slot t => exact Room.drains h hdrains
  | write t pos => exact ⟨h.1.drains hdrains, by rw [hdrains.beginPos]; exact h.2⟩
  | emptyEnd t => exact Ready.drains h hdrains
  | emptyBegin t endAt => exact Ready.drains h hdrains
  | wrap t empty => exact Ready.drains h hdrains
  | reset t empty =>
      exact ⟨h.1.drains hdrains, by rw [hdrains.beginPos, hdrains.capacitySub]; exact h.2⟩
  | next t empty =>
      exact ⟨h.1.drains hdrains, by rw [hdrains.beginPos, hdrains.capacitySub]; exact h.2⟩
  | publish t empty pos =>
      exact ⟨h.1.drains hdrains, by rw [hdrains.beginPos, hdrains.capacitySub]; exact h.2⟩
  | done t ok =>
      cases ok with
      | true => exact SawRoom.drains h hdrains
      | false => exact Eq.trans h (congrArg some hdrains.capacitySub.symm)
  | idle => trivial
  | readEnd t => trivial
  | sizeBegin t => exact SawRoom.drains h hdrains
  | sizeEnd t beginAt => exact SawRoom.drains h hdrains

/-- The first test finds a full queue when the copy of `end_` is next to `begin_`. -/
theorem Seen.full_of_gap {endAt : Nat} (h : Seen q readAt endAt)
    (habove : endAt > q.beginPos) (hgap : endAt - q.beginPos < 2) :
    readAt = some q.capacitySub := by
  have hle := h.le
  rw [h.stored, span, if_pos habove, capacity, Option.some.injEq]
  omega

/-- The second test finds a full queue when `begin_` is as far ahead as it can be. -/
theorem Seen.full_of_fill {endAt : Nat} (h : Seen q readAt endAt)
    (hbelow : q.beginPos > endAt) (hfill : q.beginPos - endAt > q.capacity - 2) :
    readAt = some q.capacitySub := by
  have hbegin := q.beginPos_le
  rw [h.stored, span, if_neg (by omega), Option.some.injEq]
  simp only [capacity] at hfill
  omega

theorem Seen.room {endAt : Nat} (h : Seen q readAt endAt) (hlt : q.span endAt < q.capacitySub) :
    Room q readAt :=
  ⟨⟨_, h.stored, hlt⟩, h.size_le.trans_lt hlt⟩

theorem Seen.room_of_gap {endAt : Nat} (h : Seen q readAt endAt) (hpos : 0 < q.capacitySub)
    (hgap : endAt > q.beginPos → 2 ≤ endAt - q.beginPos) (hbelow : ¬ q.beginPos > endAt) :
    Room q readAt := by
  have hend := h.le
  refine h.room ?_
  simp only [span, capacity]
  split <;> omega

theorem Seen.room_of_fill {endAt : Nat} (h : Seen q readAt endAt) (hpos : 0 < q.capacitySub)
    (hbelow : q.beginPos > endAt) (hfill : ¬ q.beginPos - endAt > q.capacity - 2) :
    Room q readAt := by
  refine h.room ?_
  simp only [capacity] at hfill
  simp only [span, capacity]
  split <;> omega

/-- Writing the slot behind the elements leaves the elements. -/
theorem elements_write (q : LoopQueue α) (t : α) :
    elements { q with cells := Function.update q.cells q.beginPos t } = q.elements := by
  have hkept := @circularWindow_behind α q.capacity q.endPos q.size q.cells t q.size_lt
  rw [q.slot_size] at hkept
  exact hkept

/-- Moving `begin_` behind a slot that was written stores its element. -/
theorem Ready.publish {t : α} (h : Ready q readAt t) {pos : Nat} (hle : pos ≤ q.capacitySub)
    (hpos : pos = q.advance q.beginPos) :
    elements { q with beginPos := pos, beginPos_le := hle } = q.elements ++ [t] := by
  subst hpos
  have hroom : q.elements.length < q.capacitySub := by
    rw [length_elements]
    exact h.room.size_lt
  have hstored : q.stored t =
      { q with beginPos := q.advance q.beginPos, beginPos_le := hle } := by
    simp only [LoopQueue.stored, ← h.cell, Function.update_eq_self]
  rw [← hstored]
  exact q.elements_stored_of_room t hroom

theorem published_afterPublish (t : α) (empty : Bool) :
    (afterPublish t empty).published = [t] := by
  cases empty <;> rfl

theorem argument_afterPublish (t : α) (empty : Bool) : (afterPublish t empty).argument = [t] := by
  cases empty <;> rfl

theorem behind_afterPublish (t : α) (empty : Bool) : 12 ≤ (afterPublish t empty).behind := by
  cases empty <;> simp [afterPublish, PushPc.behind]

theorem pushOk_afterPublish (h : SawRoom q readAt) (hcapacity : q'.capacitySub = q.capacitySub)
    (t : α) (empty : Bool) : PushOk q' readAt (afterPublish t empty) := by
  rw [SawRoom, ← hcapacity] at h
  cases empty with
  | true => exact h
  | false => exact h

/-- What one access of the producer does: it may append the element to the queue, and
never moves `end_`; it goes on in its call, or answers it. -/
structure Pushes (q q' : LoopQueue α) (pc pc' : PushPc α) (new : List α) : Prop where
  capacitySub : q'.capacitySub = q.capacitySub
  endPos : q'.endPos = q.endPos
  elements : q'.elements = q.elements ++ new
  published : pc.accepts ++ pc'.published = pc.published ++ new
  argument : pc.argument = pc.reply.map Prod.fst ++ pc'.argument
  behind : pc' = .idle ∨ pc.behind < pc'.behind

/-- An access that changes nothing but the place in the program. -/
theorem Pushes.stay {pc pc' : PushPc α}
    (hpublished : pc.accepts ++ pc'.published = pc.published)
    (hargument : pc.argument = pc.reply.map Prod.fst ++ pc'.argument)
    (hbehind : pc' = .idle ∨ pc.behind < pc'.behind) : Pushes q q pc pc' [] :=
  ⟨rfl, rfl, (List.append_nil _).symm, by rw [hpublished, List.append_nil], hargument, hbehind⟩

theorem pushStep_ok (hpos : 0 < q.capacitySub) {pc : PushPc α} (h : PushOk q readAt pc) :
    ∃ q' pc' new, pushStep q pc = .ok (q', pc') ∧ Pushes q q' pc pc' new ∧
      PushOk q' (pc.observe q readAt) pc' := by
  have hbegin := q.beginPos_le
  have hsmall := q.capacitySub_lt
  cases pc with
  | idle => exact ⟨q, _, [], rfl, .stay rfl rfl (.inl rfl), trivial⟩
  | readEnd t =>
      exact ⟨q, _, [], rfl, .stay rfl rfl (.inr (by simp [PushPc.behind])), q.endPos_le,
        congrArg some (span_endPos q).symm, (span_endPos q).ge⟩
  | testAbove t endAt =>
      by_cases habove : endAt > q.beginPos
      · exact ⟨q, .testGap t endAt, [], by rw [pushStep, if_pos habove],
          .stay rfl rfl (.inr (by simp [PushPc.behind])), h, habove⟩
      · exact ⟨q, .testBelow t endAt, [], by rw [pushStep, if_neg habove],
          .stay rfl rfl (.inr (by simp [PushPc.behind])), h, fun hyes => absurd hyes habove⟩
  | testGap t endAt =>
      rcases h with ⟨hseen, habove⟩
      have hle := hseen.le
      have hword : word32Sub endAt q.beginPos = endAt - q.beginPos :=
        word32Sub_of_le (by omega) (by omega)
      by_cases hgap : endAt - q.beginPos < 2
      · exact ⟨q, .done t false, [], by rw [pushStep, hword, if_pos hgap],
          .stay rfl rfl (.inr (by simp [PushPc.behind])), hseen.full_of_gap habove hgap⟩
      · exact ⟨q, .testBelow t endAt, [], by rw [pushStep, hword, if_neg hgap],
          .stay rfl rfl (.inr (by simp [PushPc.behind])), hseen,
          fun _ => Nat.le_of_not_lt hgap⟩
  | testBelow t endAt =>
      rcases h with ⟨hseen, hgap⟩
      by_cases hbelow : q.beginPos > endAt
      · exact ⟨q, .testFill t endAt, [], by rw [pushStep, if_pos hbelow],
          .stay rfl rfl (.inr (by simp [PushPc.behind])), hseen, hbelow⟩
      · exact ⟨q, .slot t, [], by rw [pushStep, if_neg hbelow],
          .stay rfl rfl (.inr (by simp [PushPc.behind])), hseen.room_of_gap hpos hgap hbelow⟩
  | testFill t endAt =>
      rcases h with ⟨hseen, hbelow⟩
      have hword : word32Sub q.beginPos endAt = q.beginPos - endAt :=
        word32Sub_of_le (by omega) (by omega)
      have hcapacity : word32Sub q.capacity 2 = q.capacity - 2 := by
        apply word32Sub_of_le <;> simp only [capacity] <;> omega
      by_cases hfill : q.beginPos - endAt > q.capacity - 2
      · exact ⟨q, .done t false, [], by rw [pushStep, hword, hcapacity, if_pos hfill],
          .stay rfl rfl (.inr (by simp [PushPc.behind])), hseen.full_of_fill hbelow hfill⟩
      · exact ⟨q, .slot t, [], by rw [pushStep, hword, hcapacity, if_neg hfill],
          .stay rfl rfl (.inr (by simp [PushPc.behind])), hseen.room_of_fill hpos hbelow hfill⟩
  | slot t => exact ⟨q, _, [], rfl, .stay rfl rfl (.inr (by simp [PushPc.behind])), h, rfl⟩
  | write t pos =>
      rcases h with ⟨hroom, rfl⟩
      refine ⟨{ q with cells := Function.update q.cells q.beginPos t }, .emptyEnd t, [],
        by rw [pushStep, if_pos hbegin],
        ⟨rfl, rfl, ?_, rfl, rfl, .inr (by simp [PushPc.behind])⟩, ⟨hroom.saw, hroom.size_lt⟩,
        by simp⟩
      rw [elements_write, List.append_nil]
  | emptyEnd t => exact ⟨q, _, [], rfl, .stay rfl rfl (.inr (by simp [PushPc.behind])), h⟩
  | emptyBegin t endAt =>
      exact ⟨q, _, [], rfl, .stay rfl rfl (.inr (by simp [PushPc.behind])), h⟩
  | wrap t empty =>
      by_cases hlast : q.beginPos = q.capacitySub
      · exact ⟨q, .reset t empty, [], by rw [pushStep, if_pos hlast],
          .stay rfl rfl (.inr (by simp [PushPc.behind])), h, hlast⟩
      · exact ⟨q, .next t empty, [], by rw [pushStep, if_neg hlast],
          .stay rfl rfl (.inr (by simp [PushPc.behind])), h, hlast⟩
  | reset t empty =>
      rcases h with ⟨hready, hlast⟩
      refine ⟨_, _, [t], rfl, ⟨rfl, rfl, ?_, published_afterPublish t empty,
        (argument_afterPublish t empty).symm, .inr ?_⟩,
        pushOk_afterPublish hready.room.saw (by rfl) t empty⟩
      · exact hready.publish (Nat.zero_le _) (by rw [advance, if_pos hlast])
      · exact Nat.lt_of_lt_of_le (by simp [PushPc.behind]) (behind_afterPublish t empty)
  | next t empty =>
      exact ⟨q, _, [], rfl, .stay rfl rfl (.inr (by simp [PushPc.behind])), h.1, h.2, rfl⟩
  | publish t empty pos =>
      rcases h with ⟨hready, hnot, rfl⟩
      have hle : q.beginPos + 1 ≤ q.capacitySub := by omega
      refine ⟨{ q with beginPos := q.beginPos + 1, beginPos_le := hle }, _, [t],
        by rw [pushStep, dif_pos hle],
        ⟨rfl, rfl, ?_, published_afterPublish t empty, (argument_afterPublish t empty).symm,
          .inr ?_⟩, pushOk_afterPublish hready.room.saw (by rfl) t empty⟩
      · exact hready.publish hle (by rw [advance, if_neg hnot])
      · exact Nat.lt_of_lt_of_le (by simp [PushPc.behind]) (behind_afterPublish t empty)
  | sizeBegin t => exact ⟨q, _, [], rfl, .stay rfl rfl (.inr (by simp [PushPc.behind])), h⟩
  | sizeEnd t beginAt =>
      exact ⟨q, _, [], rfl, .stay rfl rfl (.inr (by simp [PushPc.behind])), h⟩
  | done t ok =>
      cases ok with
      | true => exact ⟨q, _, [], rfl, .stay rfl rfl (.inl rfl), trivial⟩
      | false => exact ⟨q, _, [], rfl, .stay rfl rfl (.inl rfl), trivial⟩

end Producer

/-! ### The consumer -/

/-- The element was the oldest when `pop_front` compared, and it still is. -/
structure Oldest (q : LoopQueue α) (compared : Option (Option α)) (t : α) : Prop where
  compared : compared = some (some t)
  head : q.elements.head? = some t

/-- What the consumer knows at each access. -/
def PopOk (q : LoopQueue α) (compared : Option (Option α)) : PopPc α → Prop
  | .compareBegin endAt => endAt = q.endPos
  | .slot => ∃ t, Oldest q compared t
  | .read pos => (∃ t, Oldest q compared t) ∧ pos = q.endPos
  | .wrap t => Oldest q compared t
  | .reset t => Oldest q compared t ∧ q.endPos = q.capacitySub
  | .next t => Oldest q compared t ∧ q.endPos ≠ q.capacitySub
  | .release t pos => Oldest q compared t ∧ q.endPos ≠ q.capacitySub ∧ pos = q.endPos
  | .done result => compared = some result
  | _ => True

/-- At most so many accesses lie behind each place of `pop_front`. -/
def PopPc.behind : PopPc α → Nat
  | .idle => 0
  | .compareEnd => 0
  | .compareBegin _ => 1
  | .slot => 2
  | .read _ => 3
  | .wrap _ => 4
  | .reset _ => 5
  | .next _ => 5
  | .release _ _ => 6
  | .done _ => 7

section Consumer

variable {q q' : LoopQueue α} {compared : Option (Option α)}

/-- What the consumer knows does not depend on where the producer is, which only
appends elements. -/
theorem PopOk.pushes {pc : PopPc α} (h : PopOk q compared pc)
    (hcapacity : q'.capacitySub = q.capacitySub) (hend : q'.endPos = q.endPos)
    {new : List α} (helements : q'.elements = q.elements ++ new) : PopOk q' compared pc := by
  have holdest : ∀ {t}, Oldest q compared t → Oldest q' compared t := by
    intro t ht
    refine ⟨ht.compared, ?_⟩
    rw [helements, List.head?_append, ht.head]
    rfl
  cases pc with
  | compareBegin endAt => exact Eq.trans h hend.symm
  | slot => exact h.imp fun _ => holdest
  | read pos => exact ⟨h.1.imp fun _ => holdest, by rw [hend]; exact h.2⟩
  | wrap t => exact holdest h
  | reset t => exact ⟨holdest h.1, by rw [hend, hcapacity]; exact h.2⟩
  | next t => exact ⟨holdest h.1, by rw [hend, hcapacity]; exact h.2⟩
  | release t pos => exact ⟨holdest h.1, by rw [hend, hcapacity]; exact h.2⟩
  | done result => exact h
  | idle => trivial
  | compareEnd => trivial

/-- What one access of the consumer does: it may take the oldest element away; it goes on in
its call, or answers it. -/
structure Pops (q q' : LoopQueue α) (pc pc' : PopPc α) (taken : List α) : Prop where
  drains : Drains q q'
  elements : q.elements = taken ++ q'.elements
  returns : pc.returns ++ pc'.returns = pc.returns ++ taken
  running : pc.running = pc.reply.length + pc'.running
  behind : pc' = .idle ∨ pc.behind < pc'.behind

theorem Pops.stay {pc pc' : PopPc α} (hreturns : pc.returns ++ pc'.returns = pc.returns)
    (hrunning : pc.running = pc.reply.length + pc'.running)
    (hbehind : pc' = .idle ∨ pc.behind < pc'.behind) :
    Pops q q pc pc' [] :=
  ⟨⟨rfl, rfl, rfl, Nat.le_refl _⟩, rfl, by rw [hreturns, List.append_nil], hrunning, hbehind⟩

/-- The slot at `end_` holds the oldest element. -/
theorem head_elements (hsome : q.elements ≠ []) :
    q.elements.head? = some (q.cells q.endPos) := by
  obtain ⟨t, rest, hcons⟩ := List.exists_cons_of_ne_nil hsome
  have hnot : q.empty = false := by
    rw [Bool.eq_false_iff, ne_eq, q.empty_iff]
    exact hsome
  have hpop := (q.popFront_of_elements hcons).1
  simp only [popFront, hnot, Bool.false_eq_true, if_false, Prod.mk.injEq, Option.some.injEq,
    and_true] at hpop
  rw [hcons, List.head?_cons, hpop]

/-- Moving `end_` on takes the oldest element away. -/
theorem pops_release {t : α} (hhead : q.elements.head? = some t) {pos : Nat}
    (hle : pos ≤ q.capacitySub) (hpos : pos = q.advance q.endPos) {pc : PopPc α}
    (hpc : pc.returns = []) (hrunning : pc.running = pc.reply.length + 1)
    (hbehind : pc.behind < 7) :
    Pops q { q with endPos := pos, endPos_le := hle } pc (.done (some t)) [t] := by
  subst hpos
  obtain ⟨rest, hcons⟩ : ∃ rest, q.elements = t :: rest := by
    cases helements : q.elements with
    | nil => simp [helements] at hhead
    | cons first rest =>
        rw [helements, List.head?_cons, Option.some.injEq] at hhead
        exact ⟨rest, by rw [hhead]⟩
  have hrest : q.dropped.elements = rest := (q.popFront_of_elements hcons).2
  have hsize : q.dropped.size ≤ q.size := by
    rw [← length_elements, ← length_elements, hrest, hcons]
    exact Nat.le_succ _
  refine ⟨⟨rfl, rfl, rfl, hsize⟩, ?_, ?_, hrunning, .inr hbehind⟩
  · rw [hcons, ← hrest]
    rfl
  · rw [hpc]
    rfl

theorem popStep_ok {pc : PopPc α} (h : PopOk q compared pc) :
    ∃ q' pc' taken, popStep q pc = .ok (q', pc') ∧ Pops q q' pc pc' taken ∧
      PopOk q' (pc.observe q compared) pc' := by
  have hend := q.endPos_le
  cases pc with
  | idle => exact ⟨q, _, [], rfl, .stay rfl rfl (.inl rfl), trivial⟩
  | compareEnd =>
      exact ⟨q, _, [], rfl, .stay rfl rfl (.inr (by simp [PopPc.behind])), rfl⟩
  | compareBegin endAt =>
      change endAt = q.endPos at h
      subst h
      have hempty := q.empty_iff
      rw [empty, decide_eq_true_iff] at hempty
      by_cases hsame : q.endPos = q.beginPos
      · refine ⟨q, .done none, [], by rw [popStep, if_pos hsame],
          .stay rfl rfl (.inr (by simp [PopPc.behind])), ?_⟩
        change some q.elements.head? = some none
        rw [hempty.mp hsame]
        rfl
      · refine ⟨q, .slot, [], by rw [popStep, if_neg hsame],
          .stay rfl rfl (.inr (by simp [PopPc.behind])), q.cells q.endPos, ?_⟩
        have hhead := head_elements (mt hempty.mpr hsame)
        exact ⟨congrArg some hhead, hhead⟩
  | slot => exact ⟨q, _, [], rfl, .stay rfl rfl (.inr (by simp [PopPc.behind])), h, rfl⟩
  | read pos =>
      rcases h with ⟨⟨t, holdest⟩, rfl⟩
      have hsome : q.elements ≠ [] := by
        intro hnil
        have hhead := holdest.head
        rw [hnil] at hhead
        contradiction
      have hcell : q.cells q.endPos = t := by
        have hhead := head_elements hsome
        rw [holdest.head, Option.some.injEq] at hhead
        exact hhead.symm
      exact ⟨q, .wrap (q.cells q.endPos), [], by rw [popStep, if_pos hend],
        .stay rfl rfl (.inr (by simp [PopPc.behind])), hcell.symm ▸ holdest⟩
  | wrap t =>
      by_cases hlast : q.endPos = q.capacitySub
      · exact ⟨q, .reset t, [], by rw [popStep, if_pos hlast],
          .stay rfl rfl (.inr (by simp [PopPc.behind])), h, hlast⟩
      · exact ⟨q, .next t, [], by rw [popStep, if_neg hlast],
          .stay rfl rfl (.inr (by simp [PopPc.behind])), h, hlast⟩
  | reset t =>
      rcases h with ⟨holdest, hlast⟩
      refine ⟨{ q with endPos := 0, endPos_le := Nat.zero_le _ }, .done (some t), [t], rfl,
        ?_, holdest.compared⟩
      exact pops_release holdest.head _ (by rw [advance, if_pos hlast]) rfl rfl
        (by simp [PopPc.behind])
  | next t =>
      exact ⟨q, _, [], rfl, .stay rfl rfl (.inr (by simp [PopPc.behind])), h.1, h.2, rfl⟩
  | release t pos =>
      rcases h with ⟨holdest, hnot, rfl⟩
      have hle : q.endPos + 1 ≤ q.capacitySub := by omega
      refine ⟨{ q with endPos := q.endPos + 1, endPos_le := hle }, .done (some t), [t],
        by rw [popStep, dif_pos hle], ?_, holdest.compared⟩
      exact pops_release holdest.head _ (by rw [advance, if_neg hnot]) rfl rfl
        (by simp [PopPc.behind])
  | done result =>
      refine ⟨q, _, [], rfl, .stay ?_ rfl (.inl rfl), trivial⟩
      exact List.append_nil _

end Consumer

/-! ### The two together -/

/-- The invariant of every interleaving. -/
structure Pipe.Sound (size : Nat) (p : Pipe α) : Prop where
  pos : 0 < size
  capacity : p.queue.capacitySub = size
  offered : p.offered = p.answers.map Prod.fst ++ p.producer.argument
  begun : p.begun = p.replies.length + p.consumer.running
  conserved : p.received ++ p.consumer.returns ++ p.queue.elements =
    p.accepted ++ p.producer.published
  producer : PushOk p.queue p.readAt p.producer
  consumer : PopOk p.queue p.compared p.consumer
  pushBehind : p.producer ≠ .idle → p.pushAccesses ≤ p.producer.behind
  popBehind : p.consumer ≠ .idle → p.popAccesses ≤ p.consumer.behind

section Pipes

variable {size : Nat} {p : Pipe α}

theorem PushPc.behind_le (pc : PushPc α) : pc.behind ≤ 14 := by
  cases pc <;> simp [PushPc.behind]

theorem PopPc.behind_le (pc : PopPc α) : pc.behind ≤ 7 := by
  cases pc <;> simp [PopPc.behind]

theorem Pipe.Sound.faithful (h : p.Sound size) : p.Faithful size where
  offered := h.offered
  begun := h.begun
  conserved := h.conserved
  apart := by
    intro t pos pos' hpush hpop
    have hproducer := h.producer
    have hconsumer := h.consumer
    rw [hpush] at hproducer
    rw [hpop] at hconsumer
    rcases hproducer with ⟨_, rfl⟩
    rcases hconsumer with ⟨⟨first, holdest⟩, rfl⟩
    intro hsame
    have hnil : p.queue.elements = [] := by
      rw [← p.queue.empty_iff, empty, decide_eq_true_iff]
      exact hsame.symm
    have hhead := holdest.head
    rw [hnil] at hhead
    contradiction
  pushed := by
    intro t ok hdone
    have hproducer := h.producer
    rw [hdone] at hproducer
    cases ok with
    | true =>
        obtain ⟨stored, hstored, hlt⟩ := hproducer
        have hne : stored ≠ size := Nat.ne_of_lt (h.capacity ▸ hlt)
        exact ⟨stored, hstored, by simp [hne]⟩
    | false => exact ⟨size, Eq.trans hproducer (congrArg some h.capacity), by simp⟩
  popped := by
    intro result hdone
    have hconsumer := h.consumer
    rw [hdone] at hconsumer
    exact hconsumer
  pushEnds := fun hrunning => (h.pushBehind hrunning).trans p.producer.behind_le
  popEnds := fun hrunning => (h.popBehind hrunning).trans p.consumer.behind_le

/-- A finished `push_back` is recorded with the element it accepted. -/
theorem accepted_reply (answers : List (α × Bool)) (pc : PushPc α) :
    ((answers ++ pc.reply).filter Prod.snd).map Prod.fst =
      (answers.filter Prod.snd).map Prod.fst ++ pc.accepts := by
  rw [List.filter_append, List.map_append]
  cases pc with
  | done t ok => cases ok <;> rfl
  | _ => rfl

/-- A finished `pop_front` is recorded with the element it returned. -/
theorem received_reply (replies : List (Option α)) (pc : PopPc α) :
    (replies ++ pc.reply).filterMap id = replies.filterMap id ++ pc.returns := by
  rw [List.filterMap_append]
  cases pc with
  | done result => cases result <;> rfl
  | _ => rfl

theorem Pipe.Sound.produce (h : p.Sound size) :
    ∃ next, pipeStep p .producer = .ok next ∧ next.Sound size := by
  obtain ⟨q, pc, new, hstep, hpushes, hok⟩ :=
    pushStep_ok (by rw [h.capacity]; exact h.pos) h.producer
  refine ⟨{ p with
    queue := q
    producer := pc
    answers := p.answers ++ p.producer.reply
    readAt := p.producer.observe p.queue p.readAt
    pushAccesses := p.pushAccesses + 1 }, by simp only [pipeStep, hstep, bind, Except.bind], {
    pos := h.pos
    capacity := hpushes.capacitySub.trans h.capacity
    offered := ?_
    begun := h.begun
    conserved := ?_
    producer := hok
    consumer := h.consumer.pushes hpushes.capacitySub hpushes.endPos hpushes.elements
    pushBehind := ?_
    popBehind := h.popBehind }⟩
  · dsimp only
    rw [h.offered, hpushes.argument, List.map_append, List.append_assoc]
  · change p.received ++ p.consumer.returns ++ q.elements =
      ((p.answers ++ p.producer.reply).filter Prod.snd).map Prod.fst ++ pc.published
    have hconserved := h.conserved
    rw [Pipe.accepted] at hconserved
    rw [accepted_reply, hpushes.elements, ← List.append_assoc, hconserved, List.append_assoc,
      List.append_assoc, hpushes.published]
  · intro hrunning
    have hbehind := hpushes.behind.resolve_left hrunning
    by_cases hidle : p.producer = .idle
    · rw [hidle, pushStep, Except.ok.injEq, Prod.mk.injEq] at hstep
      exact absurd hstep.2.symm hrunning
    · exact Nat.succ_le_of_lt ((h.pushBehind hidle).trans_lt hbehind)

theorem Pipe.Sound.consume (h : p.Sound size) :
    ∃ next, pipeStep p .consumer = .ok next ∧ next.Sound size := by
  obtain ⟨q, pc, taken, hstep, hpops, hok⟩ := popStep_ok h.consumer
  refine ⟨{ p with
    queue := q
    consumer := pc
    replies := p.replies ++ p.consumer.reply
    compared := p.consumer.observe p.queue p.compared
    popAccesses := p.popAccesses + 1 }, by simp only [pipeStep, hstep, bind, Except.bind], {
    pos := h.pos
    capacity := hpops.drains.capacitySub.trans h.capacity
    offered := h.offered
    begun := ?_
    conserved := ?_
    producer := h.producer.drains hpops.drains
    consumer := hok
    pushBehind := h.pushBehind
    popBehind := ?_ }⟩
  · dsimp only
    rw [h.begun, hpops.running, List.length_append, Nat.add_assoc]
  · change (p.replies ++ p.consumer.reply).filterMap id ++ pc.returns ++ q.elements =
      p.accepted ++ p.producer.published
    have hreturns := hpops.returns
    have hconserved := h.conserved
    rw [Pipe.received] at hconserved
    calc (p.replies ++ p.consumer.reply).filterMap id ++ pc.returns ++ q.elements
        = p.replies.filterMap id ++ (p.consumer.returns ++ pc.returns) ++ q.elements := by
          rw [received_reply, List.append_assoc (p.replies.filterMap id)]
      _ = p.replies.filterMap id ++ p.consumer.returns ++ (taken ++ q.elements) := by
          simp only [hreturns, List.append_assoc]
      _ = p.accepted ++ p.producer.published := by rw [← hpops.elements, hconserved]
  · intro hrunning
    have hbehind := hpops.behind.resolve_left hrunning
    by_cases hidle : p.consumer = .idle
    · rw [hidle, popStep, Except.ok.injEq, Prod.mk.injEq] at hstep
      exact absurd hstep.2.symm hrunning
    · exact Nat.succ_le_of_lt ((h.popBehind hidle).trans_lt hbehind)

/-- A call that begins when the last one has returned. -/
theorem Pipe.Sound.begin_push (h : p.Sound size) (t : α) :
    ∃ next, pipeStep p (.push t) = .ok next ∧ next.Sound size := by
  by_cases hidle : p.producer = .idle
  · have hconserved := h.conserved
    have hoffered := h.offered
    rw [hidle] at hconserved hoffered
    refine ⟨{ p with
      producer := .readEnd t, offered := p.offered ++ [t], readAt := none, pushAccesses := 0 },
      by simp only [pipeStep, hidle], {
        pos := h.pos
        capacity := h.capacity
        offered := ?_
        begun := h.begun
        conserved := hconserved
        producer := trivial
        consumer := h.consumer
        pushBehind := fun _ => Nat.zero_le _
        popBehind := h.popBehind }⟩
    dsimp only
    rw [hoffered, PushPc.argument, List.append_nil]
    rfl
  · refine ⟨p, ?_, h⟩
    simp only [pipeStep]

theorem Pipe.Sound.begin_pop (h : p.Sound size) :
    ∃ next, pipeStep p .pop = .ok next ∧ next.Sound size := by
  by_cases hidle : p.consumer = .idle
  · have hconserved := h.conserved
    have hbegun := h.begun
    rw [hidle] at hconserved hbegun
    refine ⟨{ p with
      consumer := .compareEnd, begun := p.begun + 1, compared := none, popAccesses := 0 },
      by simp only [pipeStep, hidle], {
        pos := h.pos
        capacity := h.capacity
        offered := h.offered
        begun := congrArg Nat.succ hbegun
        conserved := hconserved
        producer := h.producer
        consumer := trivial
        pushBehind := h.pushBehind
        popBehind := fun _ => Nat.zero_le _ }⟩
  · refine ⟨p, ?_, h⟩
    simp only [pipeStep]

theorem Pipe.Sound.step (h : p.Sound size) (action : PipeAction α) :
    ∃ next, pipeStep p action = .ok next ∧ next.Sound size := by
  cases action with
  | push t => exact h.begin_push t
  | producer => exact h.produce
  | pop => exact h.begin_pop
  | consumer => exact h.consume

end Pipes

/-- One producer and one consumer on a queue made for `size` elements, with their
accesses in any order: no access faults, and in every state reached what was received
and what is stored is what was accepted, and every call is answered as it should be. -/
theorem pipe_faithful [Inhabited α] {size : Nat} (hpos : 1 ≤ size) (hsize : size < 10000)
    (actions : List (PipeAction α)) :
    ∃ q, create size = .ok q ∧
      Stays pipeStep (Pipe.Faithful size) { queue := q } actions := by
  obtain ⟨q, hcreate, helements, hcapacity⟩ := @create_of_lt α _ _ hsize
  have hstart : Pipe.Sound size { queue := q } :=
    ⟨hpos, hcapacity, rfl, rfl, helements, trivial, trivial, fun hrunning => absurd rfl hrunning,
      fun hrunning => absurd rfl hrunning⟩
  refine ⟨q, hcreate, ?_⟩
  exact stays_of_along (fun _ h => Pipe.Sound.faithful h)
    (fun _ action h _ => Pipe.Sound.step h action) hstart along_true

/-- A queue for one: an element is stored and another refused, and the first is read out
while the second call has not returned. -/
def oneSlot : List (PipeAction Nat) :=
  .push 7 :: List.replicate 14 .producer ++ .push 8 :: List.replicate 3 .producer ++
    .pop :: List.replicate 8 .consumer ++ List.replicate 2 .producer

theorem pipe_faithful_one :
    ∃ q last, create 1 = .ok q ∧ Stays pipeStep (Pipe.Faithful 1) { queue := q } oneSlot ∧
      run pipeStep { queue := q } oneSlot = .ok last ∧ last.received = [7] ∧
      last.answers = [(7, true), (8, false)] := by
  obtain ⟨q, hcreate, hstays⟩ := @pipe_faithful Nat _ 1 (by decide) (by decide) oneSlot
  cases hcreate
  exact ⟨_, _, rfl, hstays, rfl, rfl, rfl⟩

end LoopQueue

end Tarsx
