/-
The id of a request on its way: from the counter of `ObjectProxy` through decimal text
to the servants, and from their responses back to a key of the timeout queue.
-/
import Mathlib.Data.List.TakeWhile
import Tarsx.Foundation.Run
import Tarsx.ObjectProxy
import Tarsx.Servants

namespace Tarsx

open Foundation

/-! ### Decimal text -/

/-- The digits of a number, at least one. -/
def decimalDigits (n : Nat) : List UInt8 :=
  let digits := (Nat.digits 10 n).reverse.map fun d => UInt8.ofNat (48 + d)
  if digits = [] then [48] else digits

theorem toDecimal_eq (n : Int) :
    toDecimal n =
      if n < 0 then minus :: decimalDigits n.natAbs else decimalDigits n.natAbs := rfl

/-- The byte of a digit. -/
theorem toNat_digit {d : Nat} (hd : d < 10) : (UInt8.ofNat (48 + d)).toNat = 48 + d := by
  rw [UInt8.toNat_ofNat']
  omega

theorem isDigit_of_mem {n : Nat} {byte : UInt8} (hbyte : byte ∈ decimalDigits n) :
    isDigit byte = true := by
  simp only [decimalDigits] at hbyte
  split at hbyte
  · rw [List.mem_singleton] at hbyte
    subst hbyte
    decide
  · obtain ⟨d, hd, rfl⟩ := List.mem_map.mp hbyte
    have hlt : d < 10 := Nat.digits_lt_base (by decide) (List.mem_reverse.mp hd)
    have hvalue := toNat_digit hlt
    simp only [isDigit, Bool.and_eq_true, decide_eq_true_eq, UInt8.le_iff_toNat_le, hvalue]
    constructor
    · exact Nat.le_add_right 48 d
    · change 48 + d ≤ 57
      omega

theorem decimalDigits_ne_nil (n : Nat) : decimalDigits n ≠ [] := by
  simp only [decimalDigits]
  split
  · exact List.cons_ne_nil _ _
  · assumption

/-- Reading the digits back. -/
theorem decimalValue_reverse (digits : List Nat) (hsmall : ∀ d ∈ digits, d < 10) :
    decimalValue (digits.reverse.map fun d => UInt8.ofNat (48 + d)) = Nat.ofDigits 10 digits := by
  induction digits with
  | nil => rfl
  | cons d rest ih =>
      have hvalue := toNat_digit (hsmall d List.mem_cons_self)
      have hrest := ih fun d hd => hsmall d (List.mem_cons_of_mem _ hd)
      rw [List.reverse_cons, List.map_append, decimalValue, List.foldl_append,
        Nat.ofDigits_cons, ← hrest]
      simp only [List.map_cons, List.map_nil, List.foldl_cons, List.foldl_nil, hvalue,
        decimalValue]
      omega

theorem decimalValue_decimalDigits (n : Nat) : decimalValue (decimalDigits n) = n := by
  have hvalue := decimalValue_reverse (Nat.digits 10 n)
    fun d hd => Nat.digits_lt_base (by decide) hd
  rw [Nat.ofDigits_digits] at hvalue
  simp only [decimalDigits]
  split
  · rename_i hnil
    rw [hnil] at hvalue
    rw [← hvalue]
    rfl
  · exact hvalue

/-- A digit is no white space, no sign and no `':'`. -/
theorem digit_ne {byte : UInt8} (hdigit : isDigit byte = true) :
    isSpace byte = false ∧ byte ≠ minus ∧ byte ≠ plus ∧ byte ≠ colon := by
  refine ⟨?_, ?_, ?_, ?_⟩
  · rw [Bool.eq_false_iff]
    intro hspace
    simp only [isSpace, Bool.or_eq_true, Bool.and_eq_true, decide_eq_true_eq] at hspace
    simp only [isDigit, Bool.and_eq_true, decide_eq_true_eq] at hdigit
    rcases hspace with rfl | hspace
    · exact absurd hdigit.1 (by decide)
    · exact absurd (UInt8.le_trans hdigit.1 hspace.2) (by decide)
  · rintro rfl
    exact absurd hdigit (by decide)
  · rintro rfl
    exact absurd hdigit (by decide)
  · rintro rfl
    exact absurd hdigit (by decide)

theorem takeWhile_decimalDigits (n : Nat) :
    (decimalDigits n).takeWhile isDigit = decimalDigits n :=
  List.takeWhile_eq_self_iff.mpr fun _ hbyte => isDigit_of_mem hbyte

/-- Decimal text reads back as the number. -/
theorem leadingInteger_toDecimal (n : Int) : leadingInteger (toDecimal n) = some n := by
  rw [toDecimal_eq]
  by_cases hneg : n < 0
  · have hspace : isSpace minus = false := by decide
    rw [if_pos hneg, leadingInteger, List.dropWhile_cons, if_neg (by simp [hspace])]
    simp only [true_or, if_true, takeWhile_decimalDigits, if_neg (decimalDigits_ne_nil _),
      decimalValue_decimalDigits]
    congr 1
    omega
  · obtain ⟨byte, rest, hdigits⟩ := List.exists_cons_of_ne_nil (decimalDigits_ne_nil n.natAbs)
    have hdigit := isDigit_of_mem (hdigits ▸ List.mem_cons_self)
    obtain ⟨hspace, hminus, hplus, _⟩ := digit_ne hdigit
    have hall := takeWhile_decimalDigits n.natAbs
    have hvalue := decimalValue_decimalDigits n.natAbs
    have hnil := decimalDigits_ne_nil n.natAbs
    rw [hdigits] at hall hvalue hnil
    rw [if_neg hneg, hdigits, leadingInteger, List.dropWhile_cons, if_neg (by simp [hspace])]
    simp only [hminus, hplus, or_self, if_false, hall, if_neg hnil, hvalue]
    congr 1
    omega

theorem colon_notMem_toDecimal (n : Int) : colon ∉ toDecimal n := by
  have hdigits : colon ∉ decimalDigits n.natAbs := by
    intro hmem
    exact (digit_ne (isDigit_of_mem hmem)).2.2.2 rfl
  rw [toDecimal_eq]
  split
  · intro hmem
    rcases List.mem_cons.mp hmem with hminus | hmem
    · exact absurd hminus (by decide)
    · exact hdigits hmem
  · exact hdigits

/-! ### The responses -/

theorem helloImp_response (request : List UInt8) :
    (HelloImp request).2 = [] ∨ (HelloImp request).2 = request := by
  rw [HelloImp]
  split
  · exact Or.inl rfl
  · exact Or.inr rfl
  · exact Or.inr rfl
  · exact Or.inl rfl

theorem serverImp_response (request : List UInt8) :
    (ServerImp request).2 = [] ∨ (ServerImp request).2 =
      substrTo request (findColon request) ++ colon :: textBytes "I have received" := by
  simp only [ServerImp]
  split
  · exact Or.inl rfl
  · refine Or.inr ?_
    simp only [Server.keepAlive, List.append_assoc]
    rfl
  · exact Or.inl rfl
  · exact Or.inl rfl

theorem registerImp_response {registry registry' : Registry} {request buffer : List UInt8}
    {ret : Int} (hrun : RegisterImp registry request = .ok ((ret, buffer), registry')) :
    buffer = [] ∨ ∃ id, Register.field (Register.fields request) 0 = .ok id ∧
      buffer = id ++ colon :: textBytes "registed!" := by
  obtain ⟨method, _, hrun⟩ := ok_of_bind_ok hrun
  split at hrun
  · obtain ⟨name, _, hrun⟩ := ok_of_bind_ok hrun
    obtain ⟨ip, _, hrun⟩ := ok_of_bind_ok hrun
    obtain ⟨port, _, hrun⟩ := ok_of_bind_ok hrun
    obtain ⟨id, hid, hrun⟩ := ok_of_bind_ok hrun
    simp only [Except.ok.injEq, Prod.mk.injEq] at hrun
    exact Or.inr ⟨id, hid, hrun.1.2.symm⟩
  · simp only [Register.deleteServant] at hrun
    split at hrun
    · simp only [Except.ok.injEq, Prod.mk.injEq] at hrun
      exact Or.inl hrun.1.2.symm
    · simp only [Except.ok.injEq, Prod.mk.injEq] at hrun
      exact Or.inl hrun.1.2.symm

namespace ObjectProxy

/-- A response that begins with the decimal text of an `int` and `':'`. -/
theorem responseKey_toDecimal {n : Int} (hlow : -2147483648 ≤ n) (hhigh : n < 2147483648)
    (rest : List UInt8) : responseKey (toDecimal n ++ colon :: rest) = toUInt32 n := by
  rw [responseKey, takeWhile_of_notMem (colon_notMem_toDecimal n),
    atoi_of_leadingInteger (leadingInteger_toDecimal n) hlow hhigh]

/-- What `tars_invoke` puts into `request`. -/
def requestText (funcName request : List UInt8) : List UInt8 := funcName ++ colon :: request

/-- For every value of the counter `id_`, method without `':'` and arguments: the payload
of the frame is parsed to the method, and a response that a servant builds from it has
the key that the message is pushed under. -/
theorem correlation_id (p : ObjectProxy) (msg : ReqMessage) (registry : Registry)
    {method arguments : List UInt8} (hmethod : colon ∉ method)
    (hrequest : msg.request = requestText method arguments) :
    ∃ payload, (p.prepare msg).2.reqData = encodeRequest payload ∧
      (parseRequest payload).2.2.2 = method ∧ Hello.method payload = method ∧
      ((HelloImp payload).2 ≠ [] →
        responseKey (HelloImp payload).2 = toUInt32 (p.prepare msg).2.requestId) ∧
      ((ServerImp payload).2 ≠ [] →
        responseKey (ServerImp payload).2 = toUInt32 (p.prepare msg).2.requestId) ∧
      ∀ ret buffer registry',
        RegisterImp registry payload = .ok ((ret, buffer), registry') → buffer ≠ [] →
          responseKey buffer = toUInt32 (p.prepare msg).2.requestId := by
  have hkey : ∀ rest, responseKey (toDecimal (p.prepare msg).2.requestId ++ colon :: rest) =
      toUInt32 (p.prepare msg).2.requestId :=
    responseKey_toDecimal (neg_le_toInt32 _) (toInt32_lt _)
  have hid := colon_notMem_toDecimal (p.prepare msg).2.requestId
  have hdata : (p.prepare msg).2.reqData = encodeRequest
      (toDecimal (p.prepare msg).2.requestId ++ colon :: (method ++ colon :: arguments)) := by
    have hframe : (p.prepare msg).2.reqData =
        encodeRequest (toDecimal (p.prepare msg).2.requestId ++ colon :: msg.request) := rfl
    rw [hframe, hrequest, requestText]
  generalize (p.prepare msg).2.requestId = id at hkey hid hdata ⊢
  have hparse := @parseRequest_method (toDecimal id) method arguments hid hmethod
  refine ⟨_, hdata, hparse, hparse, ?_, ?_, ?_⟩
  · intro hsome
    rcases helloImp_response (toDecimal id ++ colon :: (method ++ colon :: arguments)) with
      hnone | hecho
    · exact absurd hnone hsome
    · rw [hecho, hkey]
  · intro hsome
    rcases serverImp_response (toDecimal id ++ colon :: (method ++ colon :: arguments)) with
      hnone | hreply
    · exact absurd hnone hsome
    · rw [hreply, substrTo_findColon, takeWhile_of_notMem hid, hkey]
  · intro ret buffer registry' hrun hsome
    rcases registerImp_response hrun with hnone | ⟨text, hfield, hreply⟩
    · exact absurd hnone hsome
    · rw [hreply, Register.fields_zero hid hfield, hkey]

/-- The id 2^31 and arguments that contain `':'`. -/
theorem correlation_id_upper :
    ∃ payload,
      ((⟨{ ip := "127.0.0.1", port := 80 }, { uniqueId := 0 }, 2147483647⟩ : ObjectProxy).prepare
        { request := requestText (textBytes "keepAlive") (textBytes "a:b") }).2.reqData =
          encodeRequest payload ∧
      (parseRequest payload).2.2.2 = textBytes "keepAlive" := by
  obtain ⟨payload, hdata, hparse, _⟩ := @correlation_id
    ⟨{ ip := "127.0.0.1", port := 80 }, { uniqueId := 0 }, 2147483647⟩
    { request := requestText (textBytes "keepAlive") (textBytes "a:b") } {}
    (textBytes "keepAlive") (textBytes "a:b") (by decide) rfl
  exact ⟨payload, hdata, hparse⟩

end ObjectProxy

end Tarsx
