/-
Which requests the registry's servant can read.  It splits a request at every ':' and
takes the fields by their number, without asking how many there are.
-/
import Mathlib.Data.List.TakeWhile
import Tarsx.Foundation.Run
import Tarsx.Servants

namespace Tarsx

open Foundation

/-! ### Splitting -/

section Splitting

variable {α : Type} [BEq α]

theorem length_splitOn (a : α) (text : List α) :
    (text.splitOn a).length = text.count a + 1 := by
  induction text with
  | nil => rfl
  | cons x rest ih =>
      rw [List.splitOn_cons_eq_if_modifyHead, List.count_cons]
      split
      · rw [List.length_cons, ih]
      · rw [List.length_modifyHead, ih, Nat.add_zero]

variable [LawfulBEq α]

/-- The last piece is empty when there is nothing behind the last separator. -/
theorem getLast?_splitOn_eq_nil_iff (a : α) (text : List α) :
    (text.splitOn a).getLast? = some [] ↔ text = [] ∨ text.getLast? = some a := by
  induction text with
  | nil => simp
  | cons x rest ih =>
      obtain ⟨piece, pieces, hrest⟩ := List.exists_cons_of_ne_nil (List.splitOn_ne_nil a rest)
      rw [List.splitOn_cons_eq_if_modifyHead]
      by_cases hsep : x = a
      · subst hsep
        rw [if_pos (beq_self_eq_true x), List.getLast?_cons, hrest, ← hrest]
        rw [List.getLast?_eq_some_getLast (List.splitOn_ne_nil x rest)] at ih ⊢
        rw [Option.getD_some, ih]
        cases rest with
        | nil => simp
        | cons next more => simp [List.getLast?_cons_cons]
      · have hne : (x == a) = false := beq_false_of_ne hsep
        rw [hne, hrest, if_neg (by simp), List.modifyHead_cons]
        rw [hrest] at ih
        cases pieces with
        | nil =>
            have hcount := length_splitOn a rest
            rw [hrest, List.length_singleton] at hcount
            have habsent : a ∉ rest := List.count_eq_zero.mp (by omega)
            have hlast : (x :: rest).getLast? ≠ some a := by
              intro hlast
              rcases List.mem_cons.mp (List.mem_of_getLast? hlast) with hsame | hmem
              · exact hsep hsame.symm
              · exact habsent hmem
            simp [hlast]
        | cons next more =>
            rw [List.getLast?_cons_cons] at ih ⊢
            rw [ih]
            cases rest with
            | nil => simp at hrest
            | cons byte others => simp [List.getLast?_cons_cons]

end Splitting

namespace Register

/-- The fields of a request are one more than these: the number of ':' in it, the one at
its end left out. -/
def separators (request : List UInt8) : Nat :=
  if request.getLast? = some colon then request.count colon - 1 else request.count colon

/-- What stands between the first and the second ':'. -/
def methodText (request : List UInt8) : List UInt8 :=
  ((request.dropWhile fun byte => byte ≠ colon).drop 1).takeWhile fun byte => byte ≠ colon

/-- The method `RegisterImp` looks for in its table. -/
def selected (request : List UInt8) : Except Fault (List UInt8) := field (fields request) 1

/-- A field that `RegisterImp` or `registerServant` takes is not there. -/
def Missing (request : List UInt8) : Prop :=
  (fields request).length < 2 ∨
    selected request = .ok (textBytes "registerServant") ∧ (fields request).length < 5

/-- A request is answered as it should be: every field read is there, a request that
lacks one gets an error and leaves the registry alone, and the method is the one
`parseRequest` finds. -/
def Answered (registry : Registry) (request : List UInt8) : Prop :=
  ∃ ret buffer next, RegisterImp registry request = .ok ((ret, buffer), next) ∧
    (Missing request → ret < 0 ∧ next = registry) ∧
    selected request = .ok (parseRequest request).2.2.2

theorem length_fields (request : List UInt8) :
    (fields request).length = separators request + 1 := by
  have hlength := length_splitOn colon request
  have hlast := getLast?_splitOn_eq_nil_iff colon request
  rw [fields, separators]
  simp only [hlast, hlength]
  by_cases hend : request.getLast? = some colon
  · have hpos : 0 < request.count colon :=
      List.count_pos_iff.mpr (List.mem_of_getLast? hend)
    rw [if_pos hend, if_pos ⟨by omega, Or.inr hend⟩, List.length_dropLast, hlength]
    omega
  · rw [if_neg hend]
    split
    · rename_i hempty
      obtain ⟨hmany, hnil | hend'⟩ := hempty
      · subst hnil
        simp at hmany
      · exact absurd hend' hend
    · exact hlength

theorem field_eq_error_iff (request : List (List UInt8)) (i : Nat) :
    field request i = .error .outOfBounds ↔ request.length ≤ i := by
  rw [field, ← List.getElem?_eq_none_iff]
  cases request[i]? with
  | none => simp
  | some text => simp

/-- Leaving out an empty last field changes no other one. -/
theorem field_fields {request : List UInt8} {i : Nat} (h : i ≤ separators request) :
    field (fields request) i = field (request.splitOn colon) i := by
  have hlength := length_fields request
  rw [fields] at hlength ⊢
  split at hlength
  · rename_i hempty
    rw [if_pos hempty, field, field, List.getElem?_dropLast, if_pos]
    rw [List.length_dropLast] at hlength
    omega
  · rename_i hfull
    rw [if_neg hfull]

/-- The first piece is what stands in front of the first separator. -/
theorem splitOn_head (text : List UInt8) :
    (text.splitOn colon)[0]? = some (text.takeWhile fun byte => byte ≠ colon) := by
  by_cases hmem : colon ∈ text
  · obtain ⟨first, rest, rfl, hfirst⟩ := List.eq_append_cons_of_mem hmem
    rw [List.splitOn_append_cons_self_of_not_mem hfirst, takeWhile_of_notMem hfirst]
    rfl
  · rw [List.splitOn_eq_singleton hmem, List.takeWhile_eq_self_iff.mpr]
    · rfl
    · intro byte hbyte
      have hne : byte ≠ colon := fun hsame => hmem (hsame ▸ hbyte)
      simpa using hne

/-- With one ':' in it, a request has a method, which `parseRequest` finds too. -/
theorem selected_of_separators {request : List UInt8} (h : 1 ≤ separators request) :
    selected request = .ok (methodText request) ∧
      (parseRequest request).2.2.2 = methodText request := by
  have hmem : colon ∈ request := by
    rw [separators] at h
    apply List.count_pos_iff.mp
    split at h <;> omega
  obtain ⟨id, rest, rfl, hid⟩ := List.eq_append_cons_of_mem hmem
  have hdrop : (id ++ colon :: rest).dropWhile (fun byte => byte ≠ colon) = colon :: rest := by
    rw [List.dropWhile_append_of_pos, List.dropWhile_cons, if_neg (by simp)]
    intro byte hbyte
    have hne : byte ≠ colon := fun hsame => hid (hsame ▸ hbyte)
    simpa using hne
  have htext : methodText (id ++ colon :: rest) = rest.takeWhile fun byte => byte ≠ colon := by
    rw [methodText, hdrop, List.drop_succ_cons, List.drop_zero]
  refine ⟨?_, ?_⟩
  · rw [selected, field_fields h, List.splitOn_append_cons_self_of_not_mem hid, field,
      List.getElem?_cons_succ, splitOn_head, htext]
  · simp only [parseRequest, substrBehind_findColon hid]
    rw [substrTo_findColon, htext]

/-- Without one, the method is not there to be read. -/
theorem RegisterImp_of_no_separator (registry : Registry) {request : List UInt8}
    (h : separators request = 0) : RegisterImp registry request = .error .outOfBounds := by
  have hmissing : field (fields request) 1 = .error .outOfBounds := by
    rw [field_eq_error_iff, length_fields, h]
  simp only [RegisterImp, hmissing, bind, Except.bind]

theorem field_of_lt {v : List (List UInt8)} {i : Nat} (hi : i < v.length) :
    ∃ text, field v i = .ok text :=
  ⟨v[i], by rw [field, List.getElem?_eq_getElem hi]⟩

theorem lt_of_field {v : List (List UInt8)} {i : Nat} {text : List UInt8}
    (hfield : field v i = .ok text) : i < v.length := by
  by_contra hlength
  rw [field, List.getElem?_eq_none (Nat.le_of_not_lt hlength)] at hfield
  contradiction

/-- `registerServant` returns when there are five fields. -/
theorem registerServant_ok_iff (registry : Registry) {v : List (List UInt8)} :
    (∃ result, registerServant registry v = .ok result) ↔ 4 < v.length := by
  constructor
  · rintro ⟨result, hrun⟩
    obtain ⟨name, _, hrun⟩ := ok_of_bind_ok hrun
    obtain ⟨ip, _, hrun⟩ := ok_of_bind_ok hrun
    obtain ⟨port, hport, _⟩ := ok_of_bind_ok hrun
    exact lt_of_field hport
  · intro hlength
    obtain ⟨name, hname⟩ := @field_of_lt v 2 (by omega)
    obtain ⟨ip, hip⟩ := @field_of_lt v 3 (by omega)
    obtain ⟨port, hport⟩ := @field_of_lt v 4 hlength
    obtain ⟨id, hid⟩ := @field_of_lt v 0 (by omega)
    simp only [registerServant, hname, hip, hport, hid, bind, Except.bind]
    exact ⟨_, rfl⟩

/-- Requests are answered exactly when they have a method, and behind
`registerServant` the three fields it takes. -/
theorem fields_answered_iff (registry : Registry) (request : List UInt8) :
    Answered registry request ↔
      1 ≤ separators request ∧
        (methodText request = textBytes "registerServant" → 4 ≤ separators request) := by
  have hlength := length_fields request
  rcases Nat.eq_zero_or_pos (separators request) with hnone | hsome
  · constructor
    · rintro ⟨ret, buffer, next, hok, _⟩
      rw [RegisterImp_of_no_separator registry hnone] at hok
      cases hok
    · rintro ⟨hone, _⟩
      omega
  · obtain ⟨hselected, hparsed⟩ := selected_of_separators hsome
    have hfield : field (fields request) 1 = .ok (methodText request) := hselected
    have hsame : selected request = .ok (parseRequest request).2.2.2 := by
      rw [hselected, hparsed]
    by_cases hregister : methodText request = textBytes "registerServant"
    · have hrun : RegisterImp registry request = registerServant registry (fields request) := by
        simp only [RegisterImp, hfield, bind, Except.bind, if_pos hregister]
      have hreturns := @registerServant_ok_iff registry (fields request)
      constructor
      · rintro ⟨ret, buffer, next, hok, _⟩
        have hlong := hreturns.mp ⟨_, hrun ▸ hok⟩
        exact ⟨hsome, fun _ => by omega⟩
      · rintro ⟨_, hfields⟩
        have hfour := hfields hregister
        obtain ⟨⟨⟨ret, buffer⟩, next⟩, hok⟩ := hreturns.mpr (by omega)
        refine ⟨ret, buffer, next, hrun.trans hok, ?_, hsame⟩
        rintro (hshort | ⟨_, hshort⟩) <;> omega
    · have hcomplete : ¬ Missing request := by
        rintro (hshort | ⟨hmethod, _⟩)
        · omega
        · rw [hselected] at hmethod
          exact hregister (Except.ok.inj hmethod)
      have hok : ∃ ret buffer, RegisterImp registry request = .ok ((ret, buffer), registry) := by
        simp only [RegisterImp, hfield, bind, Except.bind, if_neg hregister]
        split
        · exact ⟨_, _, rfl⟩
        · exact ⟨_, _, rfl⟩
      obtain ⟨ret, buffer, hok⟩ := hok
      constructor
      · intro _
        exact ⟨hsome, fun hmethod => absurd hmethod hregister⟩
      · intro _
        exact ⟨ret, buffer, registry, hok, fun hmissing => absurd hmissing hcomplete, hsame⟩

/-- `1` has no method and `1:registerServant` nothing to register; both are read past the
end of the fields. -/
theorem fields_read_past_end :
    RegisterImp {} (textBytes "1") = .error .outOfBounds ∧
    RegisterImp {} (textBytes "1:registerServant") = .error .outOfBounds ∧
    ¬ Answered {} (textBytes "1") ∧ ¬ Answered {} (textBytes "1:registerServant") := by
  have hid : RegisterImp {} (textBytes "1") = .error .outOfBounds := by decide
  have hregister : RegisterImp {} (textBytes "1:registerServant") = .error .outOfBounds := by
    decide
  refine ⟨hid, hregister, ?_, ?_⟩
  · rintro ⟨ret, buffer, next, hok, _⟩
    rw [hid] at hok
    cases hok
  · rintro ⟨ret, buffer, next, hok, _⟩
    rw [hregister] at hok
    cases hok

end Register

end Tarsx
