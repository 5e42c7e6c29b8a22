/-
Where a sequence is cut.  Two ways of cutting one sequence into pieces that are
not empty are the same way when they cut at the same offsets.
-/
import Mathlib.Data.List.Basic

namespace Foundation

universe u

variable {A : Type u}

/-- A piece of the list begins or ends at offset `n`. -/
def IsCut : List (List A) → Nat → Prop
  | [], n => n = 0
  | piece :: rest, n => n = 0 ∨ ∃ m, n = piece.length + m ∧ IsCut rest m

theorem isCut_zero (pieces : List (List A)) : IsCut pieces 0 := by
  cases pieces with
  | nil => rfl
  | cons piece rest => exact Or.inl rfl

/-- Empty pieces add no offset. -/
theorem isCut_filter_nonempty (pieces : List (List A)) (n : Nat) :
    IsCut (pieces.filter fun piece => !piece.isEmpty) n ↔ IsCut pieces n := by
  induction pieces generalizing n with
  | nil => exact Iff.rfl
  | cons piece rest ih =>
      cases piece with
      | nil =>
          rw [List.filter_cons_of_neg (by simp), ih]
          constructor
          · intro h
            exact Or.inr ⟨n, (Nat.zero_add n).symm, h⟩
          · rintro (rfl | ⟨m, hm, h⟩)
            · exact isCut_zero rest
            · rw [hm, List.length_nil, Nat.zero_add]
              exact h
      | cons head tail =>
          rw [List.filter_cons_of_pos (by simp), IsCut, IsCut]
          simp only [ih]

theorem flatten_filter_nonempty (pieces : List (List A)) :
    (pieces.filter fun piece => !piece.isEmpty).flatten = pieces.flatten := by
  induction pieces with
  | nil => rfl
  | cons piece rest ih =>
      cases piece with
      | nil => simpa using ih
      | cons head tail => simpa using ih

/-- The cuts behind the first piece are those of the rest, moved by its length. -/
theorem isCut_cons_add {piece : List A} (hpos : 0 < piece.length)
    (rest : List (List A)) (m : Nat) :
    IsCut (piece :: rest) (piece.length + m) ↔ IsCut rest m := by
  constructor
  · rintro (hzero | ⟨k, hk, hcut⟩)
    · omega
    · rw [Nat.add_left_cancel hk]
      exact hcut
  · intro hcut
    exact Or.inr ⟨m, rfl, hcut⟩

/-- The first cut behind 0 is at the end of the first piece. -/
theorem length_le_of_isCut {piece : List A} {rest : List (List A)} {n : Nat}
    (hpos : 0 < n) (hcut : IsCut (piece :: rest) n) : piece.length ≤ n := by
  rcases hcut with rfl | ⟨m, rfl, _⟩
  · contradiction
  · exact Nat.le_add_right _ _

theorem length_le_length_of_cuts {piece other : List A} {rest others : List (List A)}
    (hpos : 0 < other.length)
    (hcuts : ∀ n, IsCut (piece :: rest) n ↔ IsCut (other :: others) n) :
    piece.length ≤ other.length := by
  apply length_le_of_isCut hpos
  rw [hcuts]
  exact (isCut_cons_add hpos others 0).mpr (isCut_zero others)

/-- One sequence, cut at the same offsets, gives the same pieces. -/
theorem eq_of_cuts {pieces others : List (List A)}
    (hpieces : ∀ piece ∈ pieces, piece ≠ []) (hothers : ∀ piece ∈ others, piece ≠ [])
    (hflat : pieces.flatten = others.flatten)
    (hcuts : ∀ n, IsCut pieces n ↔ IsCut others n) : pieces = others := by
  induction pieces generalizing others with
  | nil =>
      cases others with
      | nil => rfl
      | cons other rest =>
          have hnil := (List.append_eq_nil_iff.mp hflat.symm).1
          exact absurd hnil (hothers other List.mem_cons_self)
  | cons piece rest ih =>
      cases others with
      | nil =>
          have hnil := (List.append_eq_nil_iff.mp hflat).1
          exact absurd hnil (hpieces piece List.mem_cons_self)
      | cons other others =>
          have hpiece := List.length_pos_iff.mpr (hpieces piece List.mem_cons_self)
          have hother := List.length_pos_iff.mpr (hothers other List.mem_cons_self)
          have hlength : piece.length = other.length := Nat.le_antisymm
            (length_le_length_of_cuts hother hcuts)
            (length_le_length_of_cuts hpiece fun n => (hcuts n).symm)
          rw [List.flatten_cons, List.flatten_cons] at hflat
          obtain ⟨hsame, htail⟩ := List.append_inj hflat hlength
          subst hsame
          have hrest : rest = others := by
            apply ih (fun p hp => hpieces p (List.mem_cons_of_mem _ hp))
              (fun p hp => hothers p (List.mem_cons_of_mem _ hp)) htail
            intro n
            rw [← isCut_cons_add hpiece rest, hcuts, isCut_cons_add hother]
          rw [hrest]

end Foundation
