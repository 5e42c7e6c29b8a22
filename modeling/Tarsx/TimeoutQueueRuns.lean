/-
Runs of `TimeoutQueueNew`: over any sequence of its operations it answers as a list of
entries does, and its three containers point into each other as they should.
-/
import Tarsx.TimeoutQueueTable

namespace Tarsx

open Foundation

universe u

namespace TimeoutQueueNew

variable {T : Type u}

/-! ### The operations on a list of entries, the newest entry first -/

/-- The operations; `clock i` is the time that turn `i` of `timeout(func)` reads. -/
inductive Op (T : Type u) where
  | push (ptr : T) (uniqId : Nat) (timeout : Int) (hasSend : Bool)
  | get (uniqId : Nat) (erase : Bool)
  | erase (uniqId : Nat)
  | popSend (del : Bool)
  | timeout (now : Int)
  | timeoutOne (now : Int)
  | timeoutFunc (clock : Nat → Int)

/-- What a call gives back; `values` are what the function of `timeout(func)` sees. -/
inductive Out (T : Type u) where
  | pushed (ok : Bool)
  | value (ptr : Option T)
  | values (ptrs : List T)
  | done

def withoutKey (entries : List (Entry T)) (key : Nat) : List (Entry T) :=
  entries.filter fun e => e.key ≠ key

def Entry.sent (key : Nat) (e : Entry T) : Entry T :=
  if e.key = key then { e with waits := false } else e

def byDeadline (entries : List (Entry T)) : List (Entry T) :=
  dueOrder (fun e => e.deadline) entries

/-- An operation on the entries. -/
def specStep (entries : List (Entry T)) : Op T → List (Entry T) × Out T
  | .push ptr uniqId timeout hasSend =>
      match entries.find? fun e => e.key = uniqId with
      | some _ => (entries, .pushed false)
      | none =>
          ({ key := uniqId, ptr := ptr, deadline := timeout, waits := !hasSend } :: entries,
            .pushed true)
  | .get uniqId erase =>
      match entries.find? fun e => e.key = uniqId with
      | none => (entries, .value none)
      | some e => (if erase then withoutKey entries uniqId else entries, .value (some e.ptr))
  | .erase uniqId =>
      match entries.find? fun e => e.key = uniqId with
      | none => (entries, .value none)
      | some e => (withoutKey entries uniqId, .value (some e.ptr))
  | .popSend del =>
      match (entries.filter fun e => e.waits).getLast? with
      | none => (entries, .done)
      | some e =>
          (if del then withoutKey entries e.key else entries.map (Entry.sent e.key), .done)
  | .timeout now => (entries.filter fun e => now < e.deadline, .done)
  | .timeoutOne now =>
      match byDeadline (entries.filter fun e => e.deadline ≤ now) with
      | [] => (entries, .value none)
      | e :: _ => (withoutKey entries e.key, .value (some e.ptr))
  | .timeoutFunc clock =>
      let taken := expiring (fun e => e.deadline) clock (byDeadline entries)
      (entries.filter fun e => e.key ∉ taken.map fun e => e.key,
        .values (taken.map fun e => e.ptr))

def opStep (q : TimeoutQueueNew T) : Op T → Except Fault (TimeoutQueueNew T × Out T)
  | .push ptr uniqId timeout hasSend =>
      .ok ((q.push ptr uniqId timeout hasSend).2,
        .pushed (q.push ptr uniqId timeout hasSend).1)
  | .get uniqId erase => do
      let (ptr, next) ← q.get uniqId erase
      .ok (next, .value ptr)
  | .erase uniqId => do
      let (ptr, next) ← q.erase uniqId
      .ok (next, .value ptr)
  | .popSend del => do
      let next ← q.popSend del
      .ok (next, .done)
  | .timeout now => do
      let next ← q.timeout now
      .ok (next, .done)
  | .timeoutOne now => do
      let (ptr, next) ← q.timeoutOne now
      .ok (next, .value ptr)
  | .timeoutFunc clock => do
      let (ptrs, next) ← timeoutFunc (q.time.length + 1) q clock
      .ok (next, .values ptrs)

/-- `popSend` is called on a send list that is not empty. -/
def PopsSome (q : TimeoutQueueNew T) : Op T → Prop
  | .popSend _ => q.sendListEmpty = false
  | _ => True

/-! ### What holds in every state -/

/-- The three containers name the same entries and point into each other. -/
structure CrossLinked (q : TimeoutQueueNew T) : Prop where
  keys : (q.data.map fun entry => entry.1).Nodup
  time_keys : (q.time.map TimeNode.dataIter).Perm (q.data.map fun entry => entry.1)
  time_iters : (q.time.map TimeNode.iter).Nodup
  time_own : ∀ key info, q.find key = some info →
    ∃ node ∈ q.time, node.dataIter = key ∧ info.timeIter = some node.iter
  send_keys : q.send.map SendNode.dataIter =
    (q.data.filter fun entry => !entry.2.hasSend).map fun entry => entry.1
  send_iters : (q.send.map SendNode.iter).Nodup
  send_own : ∀ key info, q.find key = some info → info.hasSend = false →
    ∃ node ∈ q.send, node.dataIter = key ∧ info.sendIter = some node.iter

/-- The queue holds exactly the entries: `data_` and `send_` with the newest first,
`time_` by deadline. -/
structure Shows (q : TimeoutQueueNew T) (entries : List (Entry T)) : Prop where
  data : q.data.map (fun entry => (entry.1, entry.2.ptr, entry.2.hasSend)) =
    entries.map fun e => (e.key, e.ptr, !e.waits)
  time : q.time.map (fun node => (node.timeout, node.dataIter)) =
    (byDeadline entries).map fun e => (e.deadline, e.key)
  send : q.send.map SendNode.dataIter = (entries.filter fun e => e.waits).map fun e => e.key

section

variable {q : TimeoutQueueNew T} {rows : List (Row T)}

/-- The entries of rows. -/
def entriesOf (rows : List (Row T)) : List (Entry T) := rows.map Row.toEntry

@[simp] theorem entriesOf_nil : entriesOf ([] : List (Row T)) = [] := rfl

@[simp] theorem entriesOf_cons (r : Row T) (rows : List (Row T)) :
    entriesOf (r :: rows) = r.toEntry :: entriesOf rows := rfl

theorem map_entriesOf {β : Type u} (rows : List (Row T)) (f : Entry T → β) :
    (entriesOf rows).map f = rows.map fun r => f r.toEntry :=
  List.map_map

theorem find_entriesOf (rows : List (Row T)) (key : Nat) :
    ((entriesOf rows).find? fun e => e.key = key) =
      (rows.find? fun r => r.key = key).map Row.toEntry := by
  rw [entriesOf, List.find?_map]
  rfl

theorem filter_entriesOf (rows : List (Row T)) (p : Entry T → Bool) :
    (entriesOf rows).filter p = entriesOf (rows.filter fun r => p r.toEntry) := by
  rw [entriesOf, List.filter_map]
  rfl

theorem byDeadline_entriesOf (rows : List (Row T)) :
    byDeadline (entriesOf rows) = entriesOf (dueOrder (fun r => r.deadline) rows) :=
  (@map_dueOrder _ _ _ _ (fun r : Row T => r.deadline) rows _ Row.toEntry fun _ => rfl).symm

theorem withoutKey_entriesOf (rows : List (Row T)) (key : Nat) :
    withoutKey (entriesOf rows) key = entriesOf (without rows key) :=
  filter_entriesOf rows _

theorem sent_entriesOf (rows : List (Row T)) (key : Nat) :
    (entriesOf rows).map (Entry.sent key) = entriesOf (rows.map (Row.sent key)) := by
  rw [entriesOf, entriesOf, List.map_map, List.map_map]
  apply List.map_congr_left
  intro r _
  simp only [Function.comp_apply, Entry.sent, Row.sent]
  split <;> rfl

theorem Tracks.shows (h : Tracks q rows) : Shows q (entriesOf rows) := by
  constructor
  · rw [h.data, dataOf, entriesOf, List.map_map, List.map_map]
    rfl
  · rw [h.time, timeOf, byDeadline_entriesOf, entriesOf, List.map_map, List.map_map]
    rfl
  · rw [h.send, sendOf, filter_entriesOf, entriesOf, List.map_map, List.map_map]
    rfl

/-- A list of rows on which a function is injective up to the key. -/
theorem Rows.nodup_map {nextIter : Nat} (h : Rows nextIter rows) {β : Type} (f : Row T → β)
    {kept : List (Row T)} (hsub : ∀ r ∈ kept, r ∈ rows) (hkept : kept.Nodup)
    (hf : ∀ r ∈ kept, ∀ s ∈ kept, f r = f s → r.key = s.key) : (kept.map f).Nodup := by
  apply List.Nodup.map_on _ hkept
  intro r hr s hs hsame
  exact h.eq_of_key (hsub s hs) (hsub r hr) (hf r hr s hs hsame)

theorem Tracks.crossLinked (h : Tracks q rows) : q.CrossLinked := by
  have hkeys : (q.data.map fun entry => entry.1) = rows.map fun r => r.key := by
    rw [h.data, dataOf, List.map_map]
    rfl
  have hrows : rows.Nodup := h.rows.nodup
  have hperm := perm_dueOrder (fun r : Row T => r.deadline) rows
  constructor
  · rw [hkeys]
    exact h.rows.keys
  · rw [hkeys, h.time, timeOf, List.map_map]
    exact hperm.map fun r => r.key
  · rw [h.time, timeOf, List.map_map]
    apply h.rows.nodup_map _ (fun r hr => mem_dueOrder.mp hr) (hperm.nodup_iff.mpr hrows)
    intro r hr s hs hsame
    exact h.rows.timeOwn r (mem_dueOrder.mp hr) s (mem_dueOrder.mp hs) hsame
  · intro key info hfind
    obtain ⟨r, hr, hkey, rfl⟩ := h.row_of_find hfind
    refine ⟨r.timeNode, ?_, hkey, rfl⟩
    rw [h.time]
    exact List.mem_map_of_mem (mem_dueOrder.mpr hr)
  · rw [h.send, sendOf, h.data, dataOf, List.filter_map, List.map_map, List.map_map]
    congr 1
    apply List.filter_congr
    intro r _
    simp [Row.info]
  · rw [h.send, sendOf, List.map_map]
    apply h.rows.nodup_map _ (fun r hr => List.mem_of_mem_filter hr) (hrows.filter _)
    intro r hr s hs hsame
    obtain ⟨hr, hrwaits⟩ := List.mem_filter.mp hr
    obtain ⟨hs, hswaits⟩ := List.mem_filter.mp hs
    apply h.rows.sendOwn r hr s hs hrwaits hswaits
    obtain ⟨i, hi⟩ := h.rows.sendSome r hr hrwaits
    obtain ⟨j, hj⟩ := h.rows.sendSome s hs hswaits
    simp only [Function.comp_apply, Row.sendNode, hi, hj, Option.getD_some] at hsame
    rw [hi, hj, hsame]
  · intro key info hfind hunsent
    obtain ⟨r, hr, hkey, rfl⟩ := h.row_of_find hfind
    have hwaits : r.waits = true := by simpa [Row.info] using hunsent
    obtain ⟨i, hi⟩ := h.rows.sendSome r hr hwaits
    refine ⟨r.sendNode, ?_, hkey, by simp [Row.info, Row.sendNode, hi]⟩
    rw [h.send]
    exact List.mem_map_of_mem (List.mem_filter.mpr ⟨hr, hwaits⟩)

/-! ### One operation -/

/-- An operation answers as the list of entries does, and the queue holds what is left. -/
def Answers (q : TimeoutQueueNew T) (rows : List (Row T)) (op : Op T) : Prop :=
  ∃ next rows', opStep q op = .ok (next, (specStep (entriesOf rows) op).2) ∧
    Tracks next rows' ∧ (specStep (entriesOf rows) op).1 = entriesOf rows'

theorem Tracks.answers_push (h : Tracks q rows) (ptr : T) (uniqId : Nat) (timeout : Int)
    (hasSend : Bool) : Answers q rows (.push ptr uniqId timeout hasSend) := by
  have hfind := find_entriesOf rows uniqId
  cases hrow : rows.find? fun r => r.key = uniqId with
  | some r =>
      rw [hrow, Option.map_some] at hfind
      have hpush := h.push_present hrow ptr timeout hasSend
      refine ⟨q, rows, ?_, h, ?_⟩
      · simp only [opStep, specStep, hfind, hpush]
      · simp only [specStep, hfind]
  | none =>
      rw [hrow, Option.map_none] at hfind
      obtain ⟨hok, htracks⟩ := h.push_fresh hrow ptr timeout hasSend
      refine ⟨_, _, ?_, htracks, ?_⟩
      · simp only [opStep, specStep, hfind, hok]
      · simp only [specStep, hfind]
        rfl

theorem Tracks.answers_get (h : Tracks q rows) (uniqId : Nat) (erase : Bool) :
    Answers q rows (.get uniqId erase) := by
  have hfind := find_entriesOf rows uniqId
  have hget := h.get_eq uniqId erase
  cases hrow : rows.find? fun r => r.key = uniqId with
  | none =>
      rw [hrow] at hfind hget
      rw [Option.map_none] at hfind
      refine ⟨q, rows, ?_, h, ?_⟩
      · simp only [opStep, specStep, hfind, hget, bind, Except.bind]
      · simp only [specStep, hfind]
  | some r =>
      rw [hrow] at hfind hget
      rw [Option.map_some] at hfind
      cases erase with
      | false =>
          refine ⟨q, rows, ?_, h, ?_⟩
          · simp only [opStep, specStep, hfind, hget, bind, Except.bind, Bool.false_eq_true,
              if_false]
          · simp only [specStep, hfind, Bool.false_eq_true, if_false]
      | true =>
          refine ⟨_, _, ?_, h.rows.tracks_dropped uniqId, ?_⟩
          · simp only [opStep, specStep, hfind, hget, bind, Except.bind, if_true]
          · simp only [specStep, hfind, if_true]
            exact withoutKey_entriesOf rows uniqId

theorem Tracks.answers_erase (h : Tracks q rows) (uniqId : Nat) :
    Answers q rows (.erase uniqId) := by
  have hfind := find_entriesOf rows uniqId
  have herase := h.erase_eq uniqId
  cases hrow : rows.find? fun r => r.key = uniqId with
  | none =>
      rw [hrow] at hfind herase
      rw [Option.map_none] at hfind
      refine ⟨q, rows, ?_, h, ?_⟩
      · simp only [opStep, specStep, hfind, herase, bind, Except.bind]
      · simp only [specStep, hfind]
  | some r =>
      rw [hrow] at hfind herase
      rw [Option.map_some] at hfind
      refine ⟨_, _, ?_, h.rows.tracks_dropped uniqId, ?_⟩
      · simp only [opStep, specStep, hfind, herase, bind, Except.bind]
      · simp only [specStep, hfind]
        exact withoutKey_entriesOf rows uniqId

theorem Tracks.answers_popSend (h : Tracks q rows) (del : Bool)
    (hsome : q.sendListEmpty = false) : Answers q rows (.popSend del) := by
  have hwaiting : (rows.filter fun r => r.waits) ≠ [] := by
    intro hnil
    rw [sendListEmpty, h.send, sendOf, hnil] at hsome
    contradiction
  obtain ⟨r, hlast⟩ := Option.isSome_iff_exists.mp (List.getLast?_isSome.mpr hwaiting)
  have hentry : ((entriesOf rows).filter fun e => e.waits).getLast? = some r.toEntry := by
    rw [filter_entriesOf, entriesOf, List.getLast?_map, hlast, Option.map_some]
  obtain ⟨next, hpop, htracks⟩ := h.popSend_ok del hlast
  refine ⟨next, _, ?_, htracks, ?_⟩
  · simp only [opStep, specStep, hentry, hpop, bind, Except.bind]
  · cases del with
    | false =>
        simp only [specStep, hentry, afterPop, Bool.false_eq_true, if_false]
        exact sent_entriesOf rows r.key
    | true =>
        simp only [specStep, hentry, afterPop, if_true]
        exact withoutKey_entriesOf rows r.key

theorem Tracks.answers_timeoutOne (h : Tracks q rows) (now : Int) :
    Answers q rows (.timeoutOne now) := by
  have hone := h.timeoutOne_eq now
  have hsorted := pairwise_dueOrder (fun r : Row T => r.deadline) rows
  have hdue : byDeadline ((entriesOf rows).filter fun e => e.deadline ≤ now) =
      entriesOf ((dueOrder (fun r => r.deadline) rows).filter fun r => r.deadline ≤ now) := by
    rw [filter_entriesOf, byDeadline_entriesOf, filter_dueOrder]
  rw [← takeWhile_eq_filter hsorted] at hdue
  cases horder : dueOrder (fun r => r.deadline) rows with
  | nil =>
      rw [horder] at hone hdue
      refine ⟨q, rows, ?_, h, ?_⟩
      · simp only [opStep, specStep, hone, hdue, List.takeWhile_nil, entriesOf_nil,
          bind, Except.bind]
      · simp only [specStep, hdue, List.takeWhile_nil, entriesOf_nil]
  | cons r rest =>
      rw [horder] at hone hdue
      by_cases hlater : now < r.deadline
      · rw [List.takeWhile_cons, if_neg (by simpa using hlater)] at hdue
        refine ⟨q, rows, ?_, h, ?_⟩
        · simp only [opStep, specStep, hone, hdue, if_pos hlater, entriesOf_nil,
            bind, Except.bind]
        · simp only [specStep, hdue, entriesOf_nil]
      · rw [List.takeWhile_cons, if_pos (by simpa using le_of_not_gt hlater)] at hdue
        refine ⟨_, _, ?_, h.rows.tracks_dropped r.key, ?_⟩
        · simp only [opStep, specStep, hone, hdue, if_neg hlater, entriesOf_cons,
            bind, Except.bind]
        · simp only [specStep, hdue, entriesOf_cons]
          exact withoutKey_entriesOf rows r.key

theorem Tracks.answers_timeoutFunc (h : Tracks q rows) (clock : Nat → Int) :
    Answers q rows (.timeoutFunc clock) := by
  obtain ⟨next, hturns, htracks⟩ := Tracks.timeoutFunc_ok _ h rfl clock (q.time.length + 1)
    (by rw [h.time, timeOf, List.length_map]; exact Nat.lt_succ_self _)
  have htaken : expiring (fun e => e.deadline) clock (byDeadline (entriesOf rows)) =
      entriesOf (expiring (fun r => r.deadline) clock (dueOrder (fun r => r.deadline) rows)) := by
    rw [byDeadline_entriesOf]
    exact (@map_expiring _ _ _ _ (fun r : Row T => r.deadline) _ Row.toEntry (fun _ => rfl)
      clock _).symm
  refine ⟨next, _, ?_, htracks, ?_⟩
  · simp only [opStep, specStep, hturns, htaken, map_entriesOf, bind, Except.bind]
  · simp only [specStep, htaken, unexpired, filter_entriesOf]
    simp only [entriesOf, List.map_map]
    rfl

/-- At one clock value the turns leave what is due later. -/
theorem Rows.unexpired_due {nextIter : Nat} (h : Rows nextIter rows) (now : Int) :
    unexpired rows (expiring (fun r => r.deadline) (fun _ => now)
      (dueOrder (fun r => r.deadline) rows)) = rows.filter fun r => now < r.deadline := by
  rw [unexpired, expiring_dueOrder]
  apply List.filter_congr
  intro r hr
  have hiff : (r.key ∈ (dueOrder (fun r => r.deadline)
      (rows.filter fun r => r.deadline ≤ now)).map fun r => r.key) ↔ r.deadline ≤ now := by
    rw [List.mem_map]
    constructor
    · rintro ⟨s, hs, hkey⟩
      rw [mem_dueOrder, List.mem_filter] at hs
      rw [h.eq_of_key hr hs.1 hkey] at hs
      simpa using hs.2
    · intro hdue
      exact ⟨r, mem_dueOrder.mpr (List.mem_filter.mpr ⟨hr, decide_eq_true hdue⟩), rfl⟩
  rw [decide_eq_decide, hiff]
  exact not_le

theorem Tracks.answers_timeout (h : Tracks q rows) (now : Int) :
    Answers q rows (.timeout now) := by
  obtain ⟨next, hturns, htracks⟩ := Tracks.timeoutFunc_ok _ h rfl (fun _ => now)
    (q.time.length + 1) (by rw [h.time, timeOf, List.length_map]; exact Nat.lt_succ_self _)
  rw [h.rows.unexpired_due now] at htracks
  refine ⟨next, _, ?_, htracks, filter_entriesOf rows _⟩
  simp only [opStep, specStep, timeout, timeoutEach_eq, hturns, bind, Except.bind]

theorem Tracks.step (h : Tracks q rows) (op : Op T) (hlegal : PopsSome q op) :
    Answers q rows op := by
  cases op with
  | push ptr uniqId timeout hasSend => exact h.answers_push ptr uniqId timeout hasSend
  | get uniqId erase => exact h.answers_get uniqId erase
  | erase uniqId => exact h.answers_erase uniqId
  | popSend del => exact h.answers_popSend del hlegal
  | timeout now => exact h.answers_timeout now
  | timeoutOne now => exact h.answers_timeoutOne now
  | timeoutFunc clock => exact h.answers_timeoutFunc clock

end

/-! ### Runs -/

/-- The queue holds the entries, through some rows. -/
def Holds (q : TimeoutQueueNew T) (entries : List (Entry T)) : Prop :=
  ∃ rows, Tracks q rows ∧ entries = entriesOf rows

theorem holds_default (uniqueId : Nat) :
    Holds ({ uniqueId := uniqueId } : TimeoutQueueNew T) [] := by
  refine ⟨[], ⟨rfl, rfl, rfl, ?_⟩, rfl⟩
  constructor <;> simp

theorem Holds.step {q : TimeoutQueueNew T} {entries : List (Entry T)} (h : Holds q entries)
    {op : Op T} (hlegal : PopsSome q op) :
    ∃ next, opStep q op = .ok (next, (specStep entries op).2) ∧
      Holds next (specStep entries op).1 := by
  obtain ⟨rows, htracks, rfl⟩ := h
  obtain ⟨next, rows', hstep, hnext, hleft⟩ := htracks.step op hlegal
  exact ⟨next, hstep, rows', hnext, hleft⟩

/-- Over any operations that call `popSend` on a send list with a node only, the queue
answers as the list of its entries does, and then: its containers point into each other
as they should and show the entries; an id that is there is refused and nothing changes;
and `timeout(func)` at one clock value takes what is due by deadline. -/
theorem timeoutQueue_refines (uniqueId : Nat) (ops : List (Op T))
    (hlegal : Along (quiet opStep) PopsSome { uniqueId := uniqueId } ops) :
    ∃ last, trace opStep { uniqueId := uniqueId } ops =
        .ok (last, (specTrace specStep [] ops).2) ∧
      last.CrossLinked ∧ Shows last (specTrace specStep [] ops).1 ∧
      (∀ e ∈ (specTrace specStep [] ops).1, ∀ ptr timeout hasSend,
        last.push ptr e.key timeout hasSend = (false, last)) ∧
      ∀ now, ∃ next,
        opStep last (.timeoutFunc fun _ => now) = .ok (next, .values
          ((byDeadline ((specTrace specStep [] ops).1.filter fun e => e.deadline ≤ now)).map
            fun e => e.ptr)) ∧
        next.CrossLinked ∧
        Shows next ((specTrace specStep [] ops).1.filter fun e => now < e.deadline) := by
  obtain ⟨last, htrace, rows, htracks, hentries⟩ := trace_simulates
    (fun _ _ _ h hop => Holds.step h hop) (holds_default uniqueId) hlegal
  refine ⟨last, htrace, htracks.crossLinked, ?_⟩
  rw [hentries]
  refine ⟨htracks.shows, ?_, ?_⟩
  · intro e he ptr timeout hasSend
    obtain ⟨r, hr, rfl⟩ := List.mem_map.mp he
    exact htracks.push_present (htracks.rows.find_key hr) ptr timeout hasSend
  · intro now
    obtain ⟨next, hturns, hnext⟩ := Tracks.timeoutFunc_ok _ htracks rfl (fun _ => now)
      (last.time.length + 1)
      (by rw [htracks.time, timeOf, List.length_map]; exact Nat.lt_succ_self _)
    rw [htracks.rows.unexpired_due now] at hnext
    refine ⟨next, ?_, hnext.crossLinked, ?_⟩
    · rw [expiring_dueOrder] at hturns
      simp only [opStep, hturns, bind, Except.bind, filter_entriesOf, byDeadline_entriesOf,
        map_entriesOf]
    · rw [filter_entriesOf]
      exact hnext.shows

/-- Two values wait and one was sent; the id 7 comes again; the oldest is popped, the
deadline 4 passes. -/
theorem timeoutQueue_refines_three :
    ∃ last, trace opStep { uniqueId := 0 }
        [.push 70 7 5 false, .push 80 8 4 true, .push 90 9 6 false, .push 71 7 3 true,
          .popSend false, .timeoutOne 4, .get 8 true] =
      .ok (last, [.pushed true, .pushed true, .pushed true, .pushed false, .done,
        .value (some 80), .value (none : Option Nat)]) ∧ last.CrossLinked := by
  obtain ⟨last, htrace, hlinked, _⟩ := timeoutQueue_refines 0
    [.push 70 7 5 false, .push 80 8 4 true, .push 90 9 6 false, .push (71 : Nat) 7 3 true,
      .popSend false, .timeoutOne 4, .get 8 true]
    (.cons_of_ok trivial rfl (.cons_of_ok trivial rfl (.cons_of_ok trivial rfl
      (.cons_of_ok trivial rfl (.cons_of_ok rfl rfl (.cons_of_ok trivial rfl
        (.cons_of_ok trivial rfl trivial)))))))
  exact ⟨last, htrace, hlinked⟩

end TimeoutQueueNew

end Tarsx
