/-
The order in which items come due: by deadline, and among equal deadlines the one that
was added first.  A list of items has the newest in front.
-/
import Mathlib.Data.List.Sort
import Mathlib.Data.List.TakeWhile

namespace Foundation

universe u v w

variable {α : Type u} {β : Type v} {δ : Type w} [LinearOrder δ]

def dueOrder (due : α → δ) (items : List α) : List α :=
  items.insertionSort fun a b => due a < due b

section

variable {due : α → δ} {items : List α}

theorem perm_dueOrder (due : α → δ) (items : List α) : (dueOrder due items).Perm items :=
  List.perm_insertionSort _ items

@[simp] theorem mem_dueOrder {item : α} : item ∈ dueOrder due items ↔ item ∈ items :=
  (perm_dueOrder due items).mem_iff

/-- A new item comes behind those that are due no later. -/
theorem dueOrder_cons (item : α) :
    dueOrder due (item :: items) =
      (dueOrder due items).takeWhile (fun other => due other ≤ due item) ++
        item :: (dueOrder due items).dropWhile (fun other => due other ≤ due item) := by
  rw [dueOrder, List.insertionSort_cons_eq_take_drop]
  simp only [not_lt]
  rfl

theorem le_of_mem_takeWhile {now : δ} {l : List α} {item : α}
    (hitem : item ∈ l.takeWhile fun x => due x ≤ now) : due item ≤ now := by
  simpa using List.mem_takeWhile_imp hitem

/-- In a list by deadline what follows the items due until `now` is due later. -/
theorem lt_of_mem_dropWhile {now : δ} {l : List α}
    (hsorted : l.Pairwise fun a b => due a ≤ due b) {item : α}
    (hitem : item ∈ l.dropWhile fun x => due x ≤ now) : now < due item := by
  induction l with
  | nil => contradiction
  | cons first rest ih =>
      rw [List.pairwise_cons] at hsorted
      rw [List.dropWhile_cons] at hitem
      by_cases hfirst : due first ≤ now
      · rw [if_pos (decide_eq_true hfirst)] at hitem
        exact ih hsorted.2 hitem
      · rw [if_neg (by simpa using hfirst)] at hitem
        rcases List.mem_cons.mp hitem with rfl | hitem
        · exact lt_of_not_ge hfirst
        · exact lt_of_lt_of_le (lt_of_not_ge hfirst) (hsorted.1 item hitem)

theorem pairwise_dueOrder (due : α → δ) (items : List α) :
    (dueOrder due items).Pairwise fun a b => due a ≤ due b := by
  induction items with
  | nil => exact List.Pairwise.nil
  | cons item rest ih =>
      rw [dueOrder_cons, List.pairwise_append]
      refine ⟨ih.sublist (List.takeWhile_sublist _), ?_, ?_⟩
      · rw [List.pairwise_cons]
        refine ⟨fun other hother => (lt_of_mem_dropWhile ih hother).le, ?_⟩
        exact ih.sublist (List.dropWhile_sublist _)
      · intro a ha b hb
        have hle := le_of_mem_takeWhile ha
        rcases List.mem_cons.mp hb with rfl | hb
        · exact hle
        · exact hle.trans (lt_of_mem_dropWhile ih hb).le

/-- The items that are due until `now` come first. -/
theorem takeWhile_eq_filter {now : δ} {l : List α}
    (hsorted : l.Pairwise fun a b => due a ≤ due b) :
    l.takeWhile (fun x => due x ≤ now) = l.filter (fun x => due x ≤ now) := by
  conv_rhs => rw [← @List.takeWhile_append_dropWhile _ (fun x => decide (due x ≤ now)) l]
  rw [List.filter_append, List.filter_eq_self.mpr, List.filter_eq_nil_iff.mpr,
    List.append_nil]
  · intro x hx
    simpa using lt_of_mem_dropWhile hsorted hx
  · intro x hx
    simpa using le_of_mem_takeWhile hx

theorem dropWhile_eq_filter {now : δ} {l : List α}
    (hsorted : l.Pairwise fun a b => due a ≤ due b) :
    l.dropWhile (fun x => due x ≤ now) = l.filter (fun x => now < due x) := by
  conv_rhs => rw [← @List.takeWhile_append_dropWhile _ (fun x => decide (due x ≤ now)) l]
  rw [List.filter_append, List.filter_eq_nil_iff.mpr, List.filter_eq_self.mpr,
    List.nil_append]
  · intro x hx
    simpa using lt_of_mem_dropWhile hsorted hx
  · intro x hx
    simpa using le_of_mem_takeWhile hx

/-- Before an item come only those due earlier, or due with it and added earlier. -/
theorem pairwise_added_dueOrder (due : α → δ) (items : List α) :
    (dueOrder due items).Pairwise fun a b =>
      due a < due b ∨ due a = due b ∧ [b, a].Sublist items := by
  induction items with
  | nil => exact List.Pairwise.nil
  | cons item rest ih =>
      have hsorted := pairwise_dueOrder due rest
      have hrest := ih.imp fun {a b} h =>
        h.imp_right (And.imp_right fun hadded => List.Sublist.cons item hadded)
      rw [dueOrder_cons, List.pairwise_append, List.pairwise_cons]
      refine ⟨hrest.sublist (List.takeWhile_sublist _), ⟨?_, ?_⟩, ?_⟩
      · exact fun b hb => Or.inl (lt_of_mem_dropWhile hsorted hb)
      · exact hrest.sublist (List.dropWhile_sublist _)
      · intro a ha b hb
        have hle := le_of_mem_takeWhile ha
        rcases List.mem_cons.mp hb with rfl | hb
        · have hold : a ∈ rest := mem_dueOrder.mp ((List.takeWhile_sublist _).subset ha)
          exact hle.lt_or_eq.imp_right fun heq =>
            ⟨heq, (List.singleton_sublist.mpr hold).cons_cons b⟩
        · exact Or.inl (hle.trans_lt (lt_of_mem_dropWhile hsorted hb))

/-- Leaving items out keeps the order of the others. -/
theorem filter_dueOrder (p : α → Bool) :
    (dueOrder due items).filter p = dueOrder due (items.filter p) := by
  induction items with
  | nil => rfl
  | cons item rest ih =>
      have hsorted := pairwise_dueOrder due rest
      have hkept := pairwise_dueOrder due (rest.filter p)
      rw [dueOrder_cons, takeWhile_eq_filter hsorted, dropWhile_eq_filter hsorted,
        List.filter_append, List.filter_filter, List.filter_cons, List.filter_cons]
      by_cases hp : p item = true
      · rw [if_pos hp, if_pos hp, dueOrder_cons, takeWhile_eq_filter hkept,
          dropWhile_eq_filter hkept, ← ih, List.filter_filter, List.filter_filter,
          List.filter_filter]
        simp only [Bool.and_comm]
      · rw [if_neg hp, if_neg hp, ← ih]
        conv_rhs => rw [← @List.takeWhile_append_dropWhile _
          (fun x => decide (due x ≤ due item)) (dueOrder due rest)]
        rw [List.filter_append, takeWhile_eq_filter hsorted, dropWhile_eq_filter hsorted,
          List.filter_filter, List.filter_filter]

theorem map_dueOrder {due' : β → δ} (f : α → β) (hdue : ∀ item, due' (f item) = due item) :
    (dueOrder due items).map f = dueOrder due' (items.map f) := by
  apply List.map_insertionSort
  intro a _ b _
  rw [hdue, hdue]

/-- What is taken off a list in turns: turn `i` takes the next item if it is due until
`clock i`, and else ends it. -/
def expiring (due : α → δ) : (Nat → δ) → List α → List α
  | _, [] => []
  | clock, item :: rest =>
      if due item ≤ clock 0 then item :: expiring due (fun turn => clock (turn + 1)) rest
      else []

theorem map_expiring {due' : β → δ} (f : α → β) (hdue : ∀ item, due' (f item) = due item) :
    ∀ (clock : Nat → δ) (l : List α),
      (expiring due clock l).map f = expiring due' clock (l.map f) := by
  intro clock l
  induction l generalizing clock with
  | nil => rfl
  | cons item rest ih =>
      rw [List.map_cons, expiring, expiring, hdue]
      split
      · rw [List.map_cons, ih]
      · rfl

/-- At one clock value the turns take exactly what is due. -/
theorem expiring_dueOrder (now : δ) :
    expiring due (fun _ => now) (dueOrder due items) =
      dueOrder due (items.filter fun item => due item ≤ now) := by
  have htake : ∀ l : List α, expiring due (fun _ => now) l =
      l.takeWhile fun item => due item ≤ now := by
    intro l
    induction l with
    | nil => rfl
    | cons item rest ih =>
        rw [expiring, List.takeWhile_cons, ih]
        by_cases hitem : due item ≤ now
        · rw [if_pos hitem, if_pos (decide_eq_true hitem)]
        · rw [if_neg hitem, if_neg (by simpa using hitem)]
  rw [htake, takeWhile_eq_filter (pairwise_dueOrder due items), filter_dueOrder]

end

end Foundation
