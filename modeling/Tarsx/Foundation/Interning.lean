/-
Interning: every distinct element gets the next number when it first comes, and the same
number ever after.
-/
import Mathlib.Data.List.Induction
import Mathlib.Data.List.Nodup
import Tarsx.Foundation.Run

namespace Foundation

universe u v w

variable {α : Type u} [BEq α] [LawfulBEq α]

/-- Look an element up among the known ones, adding it behind them if it is new. -/
def intern (known : List α) (a : α) : List α × Nat :=
  if a ∈ known then (known, known.idxOf a) else (known ++ [a], known.length)

section

variable {known seen later : List α} {a : α}

theorem intern_of_mem (ha : a ∈ known) : intern known a = (known, known.idxOf a) :=
  if_pos ha

theorem intern_of_notMem (ha : a ∉ known) : intern known a = (known ++ [a], known.length) :=
  if_neg ha

theorem eraseDups_concat_of_mem (ha : a ∈ seen) : (seen ++ [a]).eraseDups = seen.eraseDups := by
  rw [List.eraseDups_append]
  simp [List.removeAll, ha]

theorem eraseDups_concat_of_notMem (ha : a ∉ seen) :
    (seen ++ [a]).eraseDups = seen.eraseDups ++ [a] := by
  rw [List.eraseDups_append]
  simp [List.removeAll, ha, List.eraseDups_cons]

theorem nodup_eraseDups (elements : List α) : elements.eraseDups.Nodup := by
  induction elements using List.reverseRecOn with
  | nil => exact List.nodup_nil
  | append_singleton rest a ih =>
      by_cases ha : a ∈ rest
      · rwa [eraseDups_concat_of_mem ha]
      · have hnew : a ∉ rest.eraseDups := fun hmem => ha (List.mem_eraseDups.mp hmem)
        rw [eraseDups_concat_of_notMem ha, ← List.concat_eq_append]
        exact List.Nodup.concat hnew ih

/-- What comes later changes no number. -/
theorem idxOf_eraseDups_append (ha : a ∈ seen) :
    (seen ++ later).eraseDups.idxOf a = seen.eraseDups.idxOf a := by
  rw [List.eraseDups_append]
  exact List.idxOf_append_of_mem (List.mem_eraseDups.mpr ha)

theorem idxOf_concat_of_notMem (ha : a ∉ known) : (known ++ [a]).idxOf a = known.length := by
  rw [List.idxOf_append_of_notMem ha, List.idxOf_cons_self, Nat.add_zero]

/-- One element more: the known ones are the distinct ones, and its number is its place
among them. -/
theorem intern_eraseDups (seen : List α) (a : α) :
    intern seen.eraseDups a =
      ((seen ++ [a]).eraseDups, (seen ++ [a]).eraseDups.idxOf a) := by
  by_cases ha : a ∈ seen
  · rw [intern_of_mem (List.mem_eraseDups.mpr ha), eraseDups_concat_of_mem ha]
  · have hnew : a ∉ seen.eraseDups := fun hmem => ha (List.mem_eraseDups.mp hmem)
    rw [intern_of_notMem hnew, eraseDups_concat_of_notMem ha, idxOf_concat_of_notMem hnew]

theorem specTrace_intern_from (seen later : List α) :
    specTrace intern seen.eraseDups later =
      ((seen ++ later).eraseDups, later.map fun a => (seen ++ later).eraseDups.idxOf a) := by
  induction later generalizing seen with
  | nil => rw [List.append_nil, List.map_nil, specTrace]
  | cons a rest ih =>
      have hsplit : seen ++ a :: rest = (seen ++ [a]) ++ rest := List.append_cons seen a rest
      have hplace : (seen ++ [a] ++ rest).eraseDups.idxOf a =
          (seen ++ [a]).eraseDups.idxOf a := idxOf_eraseDups_append (by simp)
      rw [specTrace, intern_eraseDups, ih, hsplit, List.map_cons, hplace]

/-- Interning a list from nothing: the known elements are the distinct ones by first
occurrence, and every number is a place among them. -/
theorem specTrace_intern (elements : List α) :
    specTrace intern [] elements =
      (elements.eraseDups, elements.map fun a => elements.eraseDups.idxOf a) := by
  have hall := specTrace_intern_from [] elements
  rwa [List.nil_append, List.eraseDups_nil] at hall

end

/-! ### The numbers -/

/-- Two places of a list have one number exactly when they hold one element. -/
theorem numbers_eq_iff (elements : List α) (i j : Nat) :
    (elements.map fun a => elements.eraseDups.idxOf a)[i]? =
        (elements.map fun a => elements.eraseDups.idxOf a)[j]? ↔
      elements[i]? = elements[j]? := by
  rw [List.getElem?_map, List.getElem?_map]
  constructor
  · intro hsame
    cases hi : elements[i]? with
    | none =>
        rw [hi, Option.map_none, eq_comm, Option.map_eq_none_iff] at hsame
        exact hsame.symm
    | some a =>
        rw [hi, Option.map_some, eq_comm, Option.map_eq_some_iff] at hsame
        obtain ⟨b, hj, hplace⟩ := hsame
        have hmem := List.mem_eraseDups.mpr (List.mem_of_getElem? hj)
        rw [hj, (List.idxOf_inj hmem).mp hplace]
  · intro hsame
    rw [hsame]

end Foundation
