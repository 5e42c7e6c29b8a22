/-
A queue that items join at its tail and that serves the item at its head, which leaves when
it was served.  Two records are kept: of the items that joined, and for each service of the
joining that it answers.
-/
import Mathlib.Data.List.Basic
import Mathlib.Data.List.Nodup

namespace Foundation

universe u

variable {α : Type u}

/-- The place of an item in a record, the last one if it is there more than once. -/
def latest [DecidableEq α] : List α → α → Option Nat
  | [], _ => none
  | first :: rest, a =>
      match latest rest a with
      | some i => some (i + 1)
      | none => if first = a then some 0 else none

/-- The records of a queue: those who joined are those who left and those who wait, in this
order, and one service was begun for each who left and for the head, if it is served. -/
structure ServedInOrder (joined : List α) (served : List (Option Nat)) (queue : List α)
    (serving : Bool) : Prop where
  nodup : queue.Nodup
  records : ∃ gone, joined = gone ++ queue ∧
    served = (List.range (gone.length + serving.toNat)).map some
  head : serving = true → queue ≠ []

section

variable {joined queue rest : List α} {served : List (Option Nat)} {serving : Bool} {a : α}

theorem ServedInOrder.start : ServedInOrder ([] : List α) [] [] false :=
  ⟨List.nodup_nil, ⟨[], rfl, rfl⟩, Bool.noConfusion⟩

theorem ServedInOrder.join (h : ServedInOrder joined served queue serving) (ha : a ∉ queue) :
    ServedInOrder (joined ++ [a]) served (queue ++ [a]) serving := by
  obtain ⟨gone, hjoined, hserved⟩ := h.records
  refine ⟨?_, ⟨gone, ?_, hserved⟩, fun _ => by simp⟩
  · rw [← List.concat_eq_append]
    exact List.Nodup.concat ha h.nodup
  · rw [hjoined, List.append_assoc]

theorem ServedInOrder.leave (h : ServedInOrder joined served (a :: rest) true) :
    ServedInOrder joined served rest false := by
  obtain ⟨gone, hjoined, hserved⟩ := h.records
  refine ⟨(List.nodup_cons.mp h.nodup).2, ⟨gone ++ [a], ?_, ?_⟩, Bool.noConfusion⟩
  · rw [hjoined, List.append_assoc, List.singleton_append]
  · rw [hserved, List.length_append, List.length_singleton]
    rfl

/-- Every service answers the next joining: none is answered twice or passed over. -/
theorem ServedInOrder.in_order (h : ServedInOrder joined served queue serving) :
    ∃ n ≤ joined.length, served = (List.range n).map some := by
  obtain ⟨gone, hjoined, hserved⟩ := h.records
  refine ⟨_, ?_, hserved⟩
  rw [hjoined, List.length_append]
  cases serving with
  | false => exact Nat.add_le_add_left (Nat.zero_le _) _
  | true => exact Nat.add_le_add_left (List.length_pos_iff.mpr (h.head rfl)) _

variable [DecidableEq α]

theorem latest_of_notMem {l : List α} (ha : a ∉ l) : latest l a = none := by
  induction l with
  | nil => rfl
  | cons first rest ih =>
      rw [List.mem_cons, not_or] at ha
      rw [latest, ih ha.2, if_neg (Ne.symm ha.1)]

theorem latest_append {front : List α} (ha : a ∉ rest) :
    latest (front ++ a :: rest) a = some front.length := by
  induction front with
  | nil => rw [List.nil_append, latest, latest_of_notMem ha, if_pos rfl]; rfl
  | cons first front ih => rw [List.cons_append, latest, ih, List.length_cons]

theorem ServedInOrder.serve (h : ServedInOrder joined served (a :: rest) false) :
    ServedInOrder joined (served ++ [latest joined a]) (a :: rest) true := by
  obtain ⟨gone, hjoined, hserved⟩ := h.records
  refine ⟨h.nodup, ⟨gone, hjoined, ?_⟩, fun _ => List.cons_ne_nil a rest⟩
  rw [hjoined, latest_append (List.nodup_cons.mp h.nodup).1, hserved, Bool.toNat_true,
    List.range_succ, List.map_append]
  rfl

end

end Foundation
