/-
`TimeoutQueueNew` as a table: what its operations do to the list of its entries, while
the iterators between the three containers stay right.
-/
import Tarsx.Foundation.DueOrder
import Tarsx.Foundation.Run
import Tarsx.TimeoutQueue

namespace Tarsx

open Foundation

universe u

namespace TimeoutQueueNew

variable {T : Type u}

/-! ### Entries -/

/-- An entry as the users see it; `waits` says that it is still to be sent. -/
structure Entry (T : Type u) where
  key : Nat
  ptr : T
  deadline : Int
  waits : Bool
deriving DecidableEq, Repr

/-- An entry with the iterators the queue keeps for it. -/
structure Row (T : Type u) extends Entry T where
  timeIter : Nat
  sendIter : Option Nat

def Row.info (r : Row T) : PtrInfo T :=
  { ptr := r.ptr, hasSend := !r.waits, timeIter := some r.timeIter, sendIter := r.sendIter }

def Row.timeNode (r : Row T) : TimeNode :=
  { iter := r.timeIter, timeout := r.deadline, dataIter := r.key }

def Row.sendNode (r : Row T) : SendNode :=
  { iter := r.sendIter.getD 0, dataIter := r.key }

/-! ### The three containers of a list of rows, the newest row first -/

def dataOf (rows : List (Row T)) : List (Nat × PtrInfo T) :=
  rows.map fun r => (r.key, r.info)

def timeOf (rows : List (Row T)) : List TimeNode :=
  (dueOrder (fun r => r.deadline) rows).map Row.timeNode

def sendOf (rows : List (Row T)) : List SendNode :=
  (rows.filter fun r => r.waits).map Row.sendNode

/-- The rows but the one with a key. -/
def without (rows : List (Row T)) (key : Nat) : List (Row T) :=
  rows.filter fun r => r.key ≠ key

/-- A row after `popSend`. -/
def Row.sent (key : Nat) (r : Row T) : Row T :=
  if r.key = key then { r with waits := false } else r

/-- No key and no iterator stands for two rows, and the iterators to come are new. -/
structure Rows (nextIter : Nat) (rows : List (Row T)) : Prop where
  keys : (rows.map fun r => r.key).Nodup
  timeOwn : ∀ r ∈ rows, ∀ s ∈ rows, r.timeIter = s.timeIter → r.key = s.key
  timeFresh : ∀ r ∈ rows, r.timeIter < nextIter
  sendSome : ∀ r ∈ rows, r.waits = true → ∃ i, r.sendIter = some i
  sendOwn : ∀ r ∈ rows, ∀ s ∈ rows, r.waits = true → s.waits = true →
    r.sendIter = s.sendIter → r.key = s.key
  sendFresh : ∀ r ∈ rows, ∀ i, r.sendIter = some i → i < nextIter

/-- The queue holds exactly the rows. -/
structure Tracks (q : TimeoutQueueNew T) (rows : List (Row T)) : Prop where
  data : q.data = dataOf rows
  time : q.time = timeOf rows
  send : q.send = sendOf rows
  rows : Rows q.nextIter rows

section Containers

variable {q : TimeoutQueueNew T} {rows : List (Row T)} {r : Row T} {nextIter : Nat}

theorem Rows.drop (h : Rows nextIter rows) (key : Nat) :
    Rows nextIter (without rows key) := by
  have hsub : ∀ r ∈ without rows key, r ∈ rows :=
    fun r hr => List.mem_of_mem_filter hr
  exact {
    keys := h.keys.sublist (List.Sublist.map _ List.filter_sublist)
    timeOwn := fun r hr s hs => h.timeOwn r (hsub r hr) s (hsub s hs)
    timeFresh := fun r hr => h.timeFresh r (hsub r hr)
    sendSome := fun r hr => h.sendSome r (hsub r hr)
    sendOwn := fun r hr s hs => h.sendOwn r (hsub r hr) s (hsub s hs)
    sendFresh := fun r hr => h.sendFresh r (hsub r hr) }

/-- A key stands for one row. -/
theorem Rows.eq_of_key (h : Rows nextIter rows) {s : Row T} (hr : r ∈ rows) (hs : s ∈ rows)
    (hkey : s.key = r.key) : s = r :=
  List.inj_on_of_nodup_map h.keys hs hr hkey

theorem Rows.nodup (h : Rows nextIter rows) : rows.Nodup := h.keys.of_map

/-- A row and the others. -/
theorem Rows.perm_without (h : Rows nextIter rows) (hr : r ∈ rows) :
    rows.Perm (r :: without rows r.key) := by
  have hothers : r ∉ without rows r.key := by
    intro hmem
    simpa using (List.mem_filter.mp hmem).2
  rw [List.perm_ext_iff_of_nodup h.nodup
    (List.nodup_cons.mpr ⟨hothers, h.nodup.filter _⟩)]
  intro s
  rw [List.mem_cons, without, List.mem_filter]
  constructor
  · intro hs
    by_cases hkey : s.key = r.key
    · exact Or.inl (h.eq_of_key hr hs hkey)
    · exact Or.inr ⟨hs, by simpa using hkey⟩
  · rintro (rfl | hs)
    · exact hr
    · exact hs.1

theorem lookup_dataOf (rows : List (Row T)) (key : Nat) :
    (dataOf rows).lookup key = (rows.find? fun r => r.key = key).map Row.info := by
  induction rows with
  | nil => rfl
  | cons r rest ih =>
      rw [dataOf, List.map_cons, List.lookup_cons, List.find?_cons]
      by_cases hkey : r.key = key
      · simp [hkey]
      · have hbeq : (key == r.key) = false := by simpa using Ne.symm hkey
        rw [hbeq, decide_eq_false hkey]
        exact ih

theorem Rows.find_key (h : Rows nextIter rows) (hr : r ∈ rows) :
    (rows.find? fun s => s.key = r.key) = some r := by
  cases hfind : rows.find? fun s => s.key = r.key with
  | none =>
      rw [List.find?_eq_none] at hfind
      exact absurd (by simp) (hfind r hr)
  | some s =>
      have hkey : s.key = r.key := by simpa using List.find?_some hfind
      rw [h.eq_of_key hr (List.mem_of_find?_eq_some hfind) hkey]

theorem Tracks.find_eq (h : Tracks q rows) (key : Nat) :
    q.find key = (rows.find? fun r => r.key = key).map Row.info := by
  rw [find, h.data, lookup_dataOf]

theorem Tracks.row_of_find (h : Tracks q rows) {key : Nat} {info : PtrInfo T}
    (hfind : q.find key = some info) : ∃ r ∈ rows, r.key = key ∧ info = r.info := by
  rw [h.find_eq] at hfind
  obtain ⟨r, hr, hinfo⟩ := Option.map_eq_some_iff.mp hfind
  exact ⟨r, List.mem_of_find?_eq_some hr, by simpa using List.find?_some hr, hinfo.symm⟩

theorem Tracks.deref (h : Tracks q rows) (hr : r ∈ rows) : q.deref r.key = .ok r.info := by
  simp only [TimeoutQueueNew.deref, h.find_eq, h.rows.find_key hr, Option.map_some]

/-! ### Erasing a row from one container -/

theorem eraseData_eq (hdata : q.data = dataOf rows) (key : Nat) :
    q.eraseData key = { q with data := dataOf (without rows key) } := by
  rw [eraseData, hdata, dataOf, List.filter_map]
  rfl

theorem Rows.eraseTime_eq (h : Rows nextIter rows) (hr : r ∈ rows)
    (htime : q.time = timeOf rows) :
    q.eraseTime (some r.timeIter) = .ok { q with time := timeOf (without rows r.key) } := by
  have hany : (q.time.any fun node => some node.iter = some r.timeIter) = true := by
    rw [List.any_eq_true]
    refine ⟨r.timeNode, ?_, decide_eq_true rfl⟩
    rw [htime]
    exact List.mem_map_of_mem (mem_dueOrder.mpr hr)
  rw [eraseTime, if_pos hany, htime, timeOf, timeOf, without,
    ← filter_dueOrder, List.filter_map]
  congr 3
  apply List.filter_congr
  intro s hs
  rw [mem_dueOrder] at hs
  have hiff : s.timeIter = r.timeIter ↔ s.key = r.key := by
    constructor
    · exact h.timeOwn s hs r hr
    · intro hkey
      rw [h.eq_of_key hr hs hkey]
  simp [Row.timeNode, hiff]

theorem Rows.eraseSend_eq (h : Rows nextIter rows) (hr : r ∈ rows) (hwaits : r.waits = true)
    (hsend : q.send = sendOf rows) :
    q.eraseSend r.sendIter = .ok { q with send := sendOf (without rows r.key) } := by
  obtain ⟨i, hi⟩ := h.sendSome r hr hwaits
  have hany : (q.send.any fun node => some node.iter = r.sendIter) = true := by
    rw [List.any_eq_true]
    refine ⟨r.sendNode, ?_, by simp [Row.sendNode, hi]⟩
    rw [hsend]
    exact List.mem_map_of_mem (List.mem_filter.mpr ⟨hr, hwaits⟩)
  rw [eraseSend, if_pos hany, hsend, sendOf, sendOf, without, List.filter_map,
    List.filter_filter, List.filter_filter]
  congr 3
  apply List.filter_congr
  intro s hs
  cases hswaits : s.waits with
  | false => simp
  | true =>
      obtain ⟨j, hj⟩ := h.sendSome s hs hswaits
      have hiff : s.sendIter = r.sendIter ↔ s.key = r.key := by
        constructor
        · exact h.sendOwn s hs r hr hswaits hwaits
        · intro hkey
          rw [h.eq_of_key hr hs hkey]
      rw [hj] at hiff
      simp [Row.sendNode, hj, hiff]

/-- A row that does not wait is not on the send list. -/
theorem Rows.sendOf_without (h : Rows nextIter rows) (hr : r ∈ rows)
    (hwaits : r.waits = false) : sendOf (without rows r.key) = sendOf rows := by
  rw [sendOf, sendOf, without, List.filter_filter]
  congr 1
  apply List.filter_congr
  intro s hs
  by_cases hkey : s.key = r.key
  · simp [h.eq_of_key hr hs hkey, hwaits]
  · simp [hkey]

/-- Erasing a row from all three containers. -/
def dropped (q : TimeoutQueueNew T) (rows : List (Row T)) (key : Nat) : TimeoutQueueNew T :=
  { q with
    data := dataOf (without rows key)
    time := timeOf (without rows key)
    send := sendOf (without rows key) }

theorem Rows.tracks_dropped (h : Rows q.nextIter rows) (key : Nat) :
    Tracks (q.dropped rows key) (without rows key) :=
  ⟨rfl, rfl, rfl, h.drop key⟩

end Containers

/-! ### The operations -/

section Operations

variable {q : TimeoutQueueNew T} {rows : List (Row T)} {r : Row T}

/-- The send list before or after a row that was sent is erased. -/
theorem Tracks.dropped_of_sent (h : Tracks q rows) (hr : r ∈ rows) (hwaits : r.waits = false) :
    q.dropped rows r.key = { q with
      data := dataOf (without rows r.key)
      time := timeOf (without rows r.key) } := by
  rw [dropped, h.rows.sendOf_without hr hwaits, ← h.send]

theorem Tracks.erase_eq (h : Tracks q rows) (uniqId : Nat) :
    q.erase uniqId = .ok (match rows.find? fun r => r.key = uniqId with
      | none => (none, q)
      | some r => (some r.ptr, q.dropped rows uniqId)) := by
  rw [TimeoutQueueNew.erase, h.find_eq]
  cases hfind : rows.find? fun r => r.key = uniqId with
  | none => rfl
  | some r =>
      have hr : r ∈ rows := List.mem_of_find?_eq_some hfind
      have hkey : r.key = uniqId := by simpa using List.find?_some hfind
      subst hkey
      cases hwaits : r.waits with
      | true =>
          simp only [Option.map_some, Row.info, hwaits, Bool.not_true, Bool.false_eq_true,
            if_false, bind, Except.bind, h.rows.eraseSend_eq hr hwaits h.send]
          rw [h.rows.eraseTime_eq hr]
          · dsimp only
            rw [eraseData_eq]
            · rfl
            · exact h.data
          · exact h.time
      | false =>
          simp only [Option.map_some, Row.info, hwaits, Bool.not_false, if_true, bind,
            Except.bind, h.rows.eraseTime_eq hr h.time]
          rw [eraseData_eq, h.dropped_of_sent hr hwaits]
          exact h.data

theorem Tracks.get_eq (h : Tracks q rows) (uniqId : Nat) (erase : Bool) :
    q.get uniqId erase = .ok (match rows.find? fun r => r.key = uniqId with
      | none => (none, q)
      | some r => (some r.ptr, if erase then q.dropped rows uniqId else q)) := by
  rw [TimeoutQueueNew.get, h.find_eq]
  cases hfind : rows.find? fun r => r.key = uniqId with
  | none => rfl
  | some r =>
      have hr : r ∈ rows := List.mem_of_find?_eq_some hfind
      have hkey : r.key = uniqId := by simpa using List.find?_some hfind
      subst hkey
      cases erase with
      | false => rfl
      | true =>
          cases hwaits : r.waits with
          | true =>
              simp only [Option.map_some, Row.info, hwaits, Bool.not_true, Bool.false_eq_true,
                if_false, if_true, bind, Except.bind, h.rows.eraseTime_eq hr h.time]
              rw [h.rows.eraseSend_eq hr hwaits]
              · dsimp only
                rw [eraseData_eq]
                · rfl
                · exact h.data
              · exact h.send
          | false =>
              simp only [Option.map_some, Row.info, hwaits, Bool.not_false, if_true, bind,
                Except.bind, h.rows.eraseTime_eq hr h.time]
              rw [eraseData_eq, h.dropped_of_sent hr hwaits]
              exact h.data

/-- One turn of the timeouts looks at the row that comes due first. -/
theorem Tracks.timeoutOne_eq (h : Tracks q rows) (now : Int) :
    q.timeoutOne now = .ok (match dueOrder (fun r => r.deadline) rows with
      | [] => (none, q)
      | r :: _ =>
          if now < r.deadline then (none, q) else (some r.ptr, q.dropped rows r.key)) := by
  rw [timeoutOne, h.time, timeOf]
  cases horder : dueOrder (fun r => r.deadline) rows with
  | nil => rfl
  | cons r rest =>
      have hr : r ∈ rows := by
        rw [← @mem_dueOrder _ _ _ (fun r : Row T => r.deadline), horder]
        exact List.mem_cons_self
      by_cases hlater : now < r.deadline
      · simp only [List.map_cons, Row.timeNode, if_pos hlater]
      · have hnode : ¬ now < r.timeNode.timeout := hlater
        have hderef : q.deref r.timeNode.dataIter = .ok r.info := h.deref hr
        simp only [List.map_cons]
        rw [if_neg hnode, if_neg hlater, hderef]
        cases hwaits : r.waits with
        | true =>
            simp only [Row.info, Row.timeNode, hwaits, Bool.not_true, Bool.false_eq_true,
              if_false, bind, Except.bind, h.rows.eraseSend_eq hr hwaits h.send]
            rw [eraseData_eq, h.rows.eraseTime_eq hr]
            · rfl
            · exact h.time
            · exact h.data
        | false =>
            simp only [Row.info, Row.timeNode, hwaits, Bool.not_false, if_true, bind, Except.bind]
            rw [eraseData_eq h.data, h.rows.eraseTime_eq hr, h.dropped_of_sent hr hwaits]
            exact h.time

/-! ### Adding a row -/

theorem insertTime_timeOf (r : Row T) (rows : List (Row T)) :
    insertTime r.timeNode (timeOf rows) = timeOf (r :: rows) := by
  rw [timeOf, timeOf, dueOrder_cons, insertTime, List.takeWhile_map, List.dropWhile_map,
    List.map_append, List.map_cons]
  rfl

/-- The row a fresh id gets. -/
def freshRow (q : TimeoutQueueNew T) (ptr : T) (uniqId : Nat) (timeout : Int)
    (hasSend : Bool) : Row T :=
  { key := uniqId, ptr := ptr, deadline := timeout, waits := !hasSend,
    timeIter := q.nextIter, sendIter := if hasSend then none else some (q.nextIter + 1) }

theorem Rows.cons_fresh (h : Rows q.nextIter rows) {uniqId : Nat}
    (hfresh : (rows.find? fun r => r.key = uniqId) = none) (ptr : T) (timeout : Int)
    (hasSend : Bool) {next : Nat} (hnext : q.nextIter + 2 ≤ next ∨
      (hasSend = true ∧ q.nextIter + 1 ≤ next)) :
    Rows next (q.freshRow ptr uniqId timeout hasSend :: rows) := by
  have hother : ∀ r ∈ rows, r.key ≠ uniqId := by
    intro r hr
    simpa using List.find?_eq_none.mp hfresh r hr
  have hiter : ∀ i, (q.freshRow ptr uniqId timeout hasSend).sendIter = some i →
      i = q.nextIter + 1 ∧ hasSend = false := by
    intro i hi
    cases hasSend <;> simp [freshRow] at hi ⊢
    exact hi.symm
  constructor
  · rw [List.map_cons, List.nodup_cons]
    refine ⟨?_, h.keys⟩
    intro hmem
    obtain ⟨r, hr, hkey⟩ := List.mem_map.mp hmem
    exact hother r hr hkey
  · intro r hr s hs hsame
    rcases List.mem_cons.mp hr with rfl | hr <;> rcases List.mem_cons.mp hs with rfl | hs
    · rfl
    · exact absurd hsame (h.timeFresh s hs).ne'
    · exact absurd hsame (h.timeFresh r hr).ne
    · exact h.timeOwn r hr s hs hsame
  · intro r hr
    rcases List.mem_cons.mp hr with rfl | hr
    · change q.nextIter < next
      omega
    · have hold := h.timeFresh r hr
      omega
  · intro r hr hwaits
    rcases List.mem_cons.mp hr with rfl | hr
    · cases hasSend with
      | true => simp [freshRow] at hwaits
      | false => exact ⟨q.nextIter + 1, rfl⟩
    · exact h.sendSome r hr hwaits
  · intro r hr s hs hrwaits hswaits hsame
    rcases List.mem_cons.mp hr with rfl | hr <;> rcases List.mem_cons.mp hs with rfl | hs
    · rfl
    · obtain ⟨i, hi⟩ := h.sendSome s hs hswaits
      have hlt := h.sendFresh s hs i hi
      rw [hi] at hsame
      have hnew := (hiter i hsame).1
      omega
    · obtain ⟨i, hi⟩ := h.sendSome r hr hrwaits
      have hlt := h.sendFresh r hr i hi
      rw [hi] at hsame
      have hnew := (hiter i hsame.symm).1
      omega
    · exact h.sendOwn r hr s hs hrwaits hswaits hsame
  · intro r hr i hi
    rcases List.mem_cons.mp hr with rfl | hr
    · obtain ⟨rfl, hnot⟩ := hiter i hi
      rcases hnext with hnext | ⟨hyes, _⟩
      · omega
      · rw [hnot] at hyes
        contradiction
    · have hold := h.sendFresh r hr i hi
      omega

theorem Tracks.push_fresh (h : Tracks q rows) {uniqId : Nat}
    (hfresh : (rows.find? fun r => r.key = uniqId) = none) (ptr : T) (timeout : Int)
    (hasSend : Bool) :
    (q.push ptr uniqId timeout hasSend).1 = true ∧
      Tracks (q.push ptr uniqId timeout hasSend).2
        (q.freshRow ptr uniqId timeout hasSend :: rows) := by
  have hfind : q.find uniqId = none := by rw [h.find_eq, hfresh, Option.map_none]
  have htime := insertTime_timeOf (q.freshRow ptr uniqId timeout hasSend) rows
  rw [← h.time] at htime
  cases hasSend with
  | true =>
      simp only [push, hfind, if_true]
      refine ⟨trivial, ?_, htime, ?_, ?_⟩
      · rw [h.data]
        rfl
      · rw [h.send]
        rfl
      · exact h.rows.cons_fresh hfresh ptr timeout true (Or.inr ⟨rfl, Nat.le_refl _⟩)
  | false =>
      simp only [push, hfind, Bool.false_eq_true, if_false]
      refine ⟨trivial, ?_, htime, ?_, ?_⟩
      · rw [h.data]
        rfl
      · rw [h.send]
        rfl
      · exact h.rows.cons_fresh hfresh ptr timeout false (Or.inl (Nat.le_refl _))

theorem Tracks.push_present (h : Tracks q rows) {uniqId : Nat}
    (hfind : (rows.find? fun r => r.key = uniqId) = some r) (ptr : T) (timeout : Int)
    (hasSend : Bool) : q.push ptr uniqId timeout hasSend = (false, q) := by
  rw [push, h.find_eq, hfind]
  rfl

/-! ### Taking from the send list -/

theorem Row.sent_of_ne {key : Nat} (hkey : r.key ≠ key) : r.sent key = r := if_neg hkey

@[simp] theorem Row.key_sent (key : Nat) (r : Row T) : (r.sent key).key = r.key := by
  rw [Row.sent]
  split <;> rfl

@[simp] theorem Row.timeNode_sent (key : Nat) (r : Row T) :
    (r.sent key).timeNode = r.timeNode := by
  rw [Row.sent]
  split <;> rfl

theorem Row.waits_sent (key : Nat) (r : Row T) :
    (r.sent key).waits = (r.waits && decide (r.key ≠ key)) := by
  rw [Row.sent]
  by_cases hkey : r.key = key
  · simp [hkey]
  · simp [hkey]

theorem timeOf_sent (rows : List (Row T)) (key : Nat) :
    timeOf (rows.map (Row.sent key)) = timeOf rows := by
  have hdeadline : ∀ r : Row T, (r.sent key).deadline = r.deadline := by
    intro r
    rw [Row.sent]
    split <;> rfl
  rw [timeOf, timeOf, ← map_dueOrder (Row.sent key) hdeadline, List.map_map]
  congr 1
  funext r
  exact Row.timeNode_sent key r

theorem sendOf_sent (rows : List (Row T)) (key : Nat) :
    sendOf (rows.map (Row.sent key)) = sendOf (without rows key) := by
  rw [sendOf, sendOf, without, List.filter_map, List.map_map, List.filter_filter]
  have hfilter : (rows.filter ((fun r => r.waits) ∘ Row.sent key)) =
      rows.filter fun r => r.waits && decide (r.key ≠ key) := by
    congr 1
    funext r
    exact Row.waits_sent key r
  rw [hfilter]
  apply List.map_congr_left
  intro r hr
  have hkey : r.key ≠ key := by
    simpa using (Bool.and_eq_true_iff.mp (List.mem_filter.mp hr).2).2
  rw [Function.comp_apply, Row.sent_of_ne hkey]

/-- The oldest row that waits is at the back of the send list. -/
theorem Rows.dropLast_sendOf {nextIter : Nat} (h : Rows nextIter rows)
    (hlast : (rows.filter fun r => r.waits).getLast? = some r) :
    (sendOf rows).dropLast = sendOf (without rows r.key) := by
  obtain ⟨others, hothers⟩ := List.getLast?_eq_some_iff.mp hlast
  have hnodup : ((rows.filter fun r => r.waits).map fun r => r.key).Nodup :=
    h.keys.sublist (List.Sublist.map _ List.filter_sublist)
  rw [hothers, List.map_append, List.nodup_append] at hnodup
  have hkept : (rows.filter fun r => r.waits).filter (fun s => s.key ≠ r.key) = others := by
    rw [hothers, List.filter_append, List.filter_eq_self.mpr]
    · simp
    · intro s hs
      have hne := hnodup.2.2 s.key (List.mem_map_of_mem hs) r.key (by simp)
      simpa using hne
  rw [sendOf, sendOf, without, List.filter_filter]
  rw [List.filter_filter] at hkept
  have hcomm : (rows.filter fun s => s.waits && decide (s.key ≠ r.key)) = others := by
    rw [← hkept]
    congr 1
    funext s
    exact Bool.and_comm _ _
  rw [hcomm, hothers, List.map_append, List.map_singleton, List.dropLast_concat]

theorem Tracks.setData_eq (h : Tracks q rows) (hr : r ∈ rows) :
    q.setData r.key
        { ptr := r.ptr, hasSend := true, timeIter := some r.timeIter, sendIter := r.sendIter } =
      { q with data := dataOf (rows.map (Row.sent r.key)) } := by
  rw [setData, h.data, dataOf, dataOf, List.map_map, List.map_map]
  congr 1
  apply List.map_congr_left
  intro s hs
  simp only [Function.comp_apply]
  by_cases hkey : s.key = r.key
  · rw [h.rows.eq_of_key hr hs hkey, if_pos rfl, Row.sent, if_pos rfl]
    rfl
  · rw [if_neg hkey, Row.sent_of_ne hkey]

theorem without_sent (rows : List (Row T)) (key : Nat) :
    without (rows.map (Row.sent key)) key = without rows key := by
  rw [without, without, List.filter_map]
  have hfilter : (fun r : Row T => decide (r.key ≠ key)) ∘ Row.sent key =
      fun r => decide (r.key ≠ key) := by
    funext r
    rw [Function.comp_apply, Row.key_sent]
  rw [hfilter]
  conv_rhs => rw [← List.map_id (rows.filter fun r => decide (r.key ≠ key))]
  apply List.map_congr_left
  intro r hr
  have hkey : r.key ≠ key := by simpa using (List.mem_filter.mp hr).2
  exact Row.sent_of_ne hkey

theorem Rows.map_sent {nextIter : Nat} (h : Rows nextIter rows) (key : Nat) :
    Rows nextIter (rows.map (Row.sent key)) := by
  have htime : ∀ r : Row T, (r.sent key).timeIter = r.timeIter := by
    intro r
    rw [Row.sent]
    split <;> rfl
  have hsend : ∀ r : Row T, (r.sent key).sendIter = r.sendIter := by
    intro r
    rw [Row.sent]
    split <;> rfl
  have hwaits : ∀ r : Row T, (r.sent key).waits = true → r.waits = true := by
    intro r hr
    rw [Row.waits_sent] at hr
    exact (Bool.and_eq_true_iff.mp hr).1
  constructor
  · rw [List.map_map]
    have hkeys : (fun r : Row T => r.key) ∘ Row.sent key = fun r => r.key := by
      funext r
      exact Row.key_sent key r
    rw [hkeys]
    exact h.keys
  · intro _ hleft _ hright hsame
    obtain ⟨r, hr, rfl⟩ := List.mem_map.mp hleft
    obtain ⟨s, hs, rfl⟩ := List.mem_map.mp hright
    rw [htime, htime] at hsame
    rw [Row.key_sent, Row.key_sent]
    exact h.timeOwn r hr s hs hsame
  · intro _ hleft
    obtain ⟨r, hr, rfl⟩ := List.mem_map.mp hleft
    rw [htime]
    exact h.timeFresh r hr
  · intro _ hleft hw
    obtain ⟨r, hr, rfl⟩ := List.mem_map.mp hleft
    rw [hsend]
    exact h.sendSome r hr (hwaits r hw)
  · intro _ hleft _ hright hrw hsw hsame
    obtain ⟨r, hr, rfl⟩ := List.mem_map.mp hleft
    obtain ⟨s, hs, rfl⟩ := List.mem_map.mp hright
    rw [hsend, hsend] at hsame
    rw [Row.key_sent, Row.key_sent]
    exact h.sendOwn r hr s hs (hwaits r hrw) (hwaits s hsw) hsame
  · intro _ hleft i hi
    obtain ⟨r, hr, rfl⟩ := List.mem_map.mp hleft
    rw [hsend] at hi
    exact h.sendFresh r hr i hi

/-- The rows after `popSend` took the row `r`. -/
def afterPop (rows : List (Row T)) (key : Nat) (del : Bool) : List (Row T) :=
  if del then without rows key else rows.map (Row.sent key)

theorem Tracks.popSend_ok (h : Tracks q rows) (del : Bool)
    (hlast : (rows.filter fun r => r.waits).getLast? = some r) :
    ∃ next, q.popSend del = .ok next ∧ Tracks next (afterPop rows r.key del) := by
  have hr : r ∈ rows := List.mem_of_mem_filter (List.mem_of_getLast? hlast)
  have hnode : q.send.getLast? = some r.sendNode := by
    rw [h.send, sendOf, List.getLast?_map, hlast, Option.map_some]
  have hderef := h.deref hr
  have hsend := h.rows.dropLast_sendOf hlast
  rw [← h.send] at hsend
  rw [popSend, hnode]
  simp only [Row.sendNode, hderef, bind, Except.bind]
  simp only [Row.info, h.setData_eq hr]
  cases del with
  | false =>
      refine ⟨_, rfl, rfl, ?_, ?_, h.rows.map_sent r.key⟩
      · exact h.time.trans (timeOf_sent rows r.key).symm
      · exact hsend.trans (sendOf_sent rows r.key).symm
  | true =>
      refine ⟨q.dropped rows r.key, ?_, h.rows.tracks_dropped r.key⟩
      simp only [if_true]
      rw [h.rows.eraseTime_eq hr]
      · dsimp only
        rw [eraseData_eq]
        · rw [without_sent, hsend]
          rfl
        · rfl
      · exact h.time

/-! ### The timeouts -/

/-- The rows whose keys are not among those taken. -/
def unexpired (rows taken : List (Row T)) : List (Row T) :=
  rows.filter fun r => r.key ∉ taken.map fun s => s.key

theorem unexpired_cons (rows taken : List (Row T)) (r : Row T) :
    unexpired (without rows r.key) taken = unexpired rows (r :: taken) := by
  rw [unexpired, unexpired, without, List.filter_filter]
  congr 1
  funext s
  by_cases hkey : s.key = r.key <;> simp [hkey]

/-- Taking the row that comes due first. -/
theorem Rows.dueOrder_without {nextIter : Nat} (h : Rows nextIter rows)
    {rest : List (Row T)} (horder : dueOrder (fun r => r.deadline) rows = r :: rest) :
    dueOrder (fun r => r.deadline) (without rows r.key) = rest := by
  have hnodup : ((r :: rest).map fun s => s.key).Nodup := by
    rw [← horder]
    exact ((perm_dueOrder _ rows).map _).nodup_iff.mpr h.keys
  rw [List.map_cons, List.nodup_cons] at hnodup
  rw [without, ← filter_dueOrder, horder, List.filter_cons, if_neg (by simp),
    List.filter_eq_self]
  intro s hs
  have hne : s.key ≠ r.key := by
    intro hkey
    exact hnodup.1 (hkey ▸ List.mem_map_of_mem hs)
  simpa using hne

/-- The turns of `timeout(func)` take the rows in the order they come due. -/
theorem Tracks.timeoutFunc_ok (order : List (Row T)) : ∀ {q : TimeoutQueueNew T}
    {rows : List (Row T)}, Tracks q rows → dueOrder (fun r => r.deadline) rows = order →
    ∀ (clock : Nat → Int) (fuel : Nat), order.length < fuel →
      ∃ next, timeoutFunc fuel q clock =
          .ok ((expiring (fun r => r.deadline) clock order).map fun r => r.ptr, next) ∧
        Tracks next (unexpired rows (expiring (fun r => r.deadline) clock order)) := by
  induction order with
  | nil =>
      intro q rows h horder clock fuel hfuel
      obtain ⟨fuel, rfl⟩ := Nat.exists_eq_succ_of_ne_zero hfuel.ne'
      have hone := h.timeoutOne_eq (clock 0)
      rw [horder] at hone
      refine ⟨q, ?_, ?_⟩
      · simp only [timeoutFunc, hone, bind, Except.bind]
        rfl
      · simpa [expiring, unexpired] using h
  | cons r rest ih =>
      intro q rows h horder clock fuel hfuel
      obtain ⟨fuel, rfl⟩ := Nat.exists_eq_succ_of_ne_zero (Nat.ne_zero_of_lt hfuel)
      have hone := h.timeoutOne_eq (clock 0)
      rw [horder] at hone
      by_cases hlater : clock 0 < r.deadline
      · refine ⟨q, ?_, ?_⟩
        · simp only [timeoutFunc, hone, if_pos hlater, bind, Except.bind, expiring,
            if_neg (not_le_of_gt hlater)]
          rfl
        · simpa [expiring, if_neg (not_le_of_gt hlater), unexpired] using h
      · have hdue : r.deadline ≤ clock 0 := le_of_not_gt hlater
        obtain ⟨next, hrest, htracks⟩ := ih (h.rows.tracks_dropped r.key)
          (h.rows.dueOrder_without horder) (fun turn => clock (turn + 1)) fuel
          (Nat.lt_of_succ_lt_succ hfuel)
        refine ⟨next, ?_, ?_⟩
        · simp only [timeoutFunc, hone, if_neg hlater, bind, Except.bind, hrest, expiring,
            if_pos hdue]
          rfl
        · rw [unexpired_cons] at htracks
          simpa only [expiring, if_pos hdue] using htracks

theorem timeoutEach_eq (fuel : Nat) : ∀ (q : TimeoutQueueNew T) (now : Int),
    timeoutEach fuel q now = timeoutFunc fuel q fun _ => now := by
  induction fuel with
  | zero => exact fun _ _ => rfl
  | succ fuel ih =>
      intro q now
      simp only [timeoutEach, timeoutFunc, ih]

end Operations

end TimeoutQueueNew

end Tarsx
