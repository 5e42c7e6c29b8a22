/-
The servants as they read a request `id:method:arguments`: how they split it, the
table of methods each looks in, and the response it builds.
-/
import Tarsx.Atoi
import Tarsx.Memory
import Tarsx.Message

namespace Tarsx

/-! ### Strings -/

/-- The bytes of a string literal. -/
def textBytes (text : String) : List UInt8 := text.toList.map fun c => UInt8.ofNat c.toNat

/-- `find(":")`; `none` is `npos`. -/
def findColon (text : List UInt8) : Option Nat := text.findIdx? fun byte => byte = colon

/-- `substr(0, pos)`. -/
def substrTo (text : List UInt8) (pos : Option Nat) : List UInt8 :=
  match pos with
  | none => text
  | some pos => text.take pos

/-- `substr(pos + 1)`, where `npos + 1` is 0. -/
def substrBehind (text : List UInt8) (pos : Option Nat) : List UInt8 :=
  match pos with
  | none => text
  | some pos => text.drop (pos + 1)

/-- `parseRequest`: `pos`, `requestBody`, `posMethod` and `method`. -/
def parseRequest (request : List UInt8) :
    Option Nat × List UInt8 × Option Nat × List UInt8 :=
  let pos := findColon request
  let requestBody := substrBehind request pos
  let posMethod := findColon requestBody
  (pos, requestBody, posMethod, substrTo requestBody posMethod)

/-- `std::equal_range` on sorted names: the places of its two iterators. -/
def equalRange (names : List (List UInt8)) (method : List UInt8) : Nat × Nat :=
  ((names.takeWhile fun name => name < method).length,
    (names.takeWhile fun name => ¬ method < name).length)

/-- `r.first` as the number of a method, unless the range is empty. -/
def selectMethod (names : List (List UInt8)) (method : List UInt8) : Option Nat :=
  let r := equalRange names method
  if r.1 = r.2 then none else some r.1

/-! ### `HelloImp` -/

namespace Hello

/-- `__TestAll__Hello_all`. -/
def names : List (List UInt8) := [textBytes "test", textBytes "testHello"]

/-- `test`: the request comes back, and the response it builds is not used. -/
def test (req : List UInt8) : Int × List UInt8 := (0, req)

/-- `testHello`. -/
def testHello (req : List UInt8) : Int × List UInt8 := (0, req)

/-- The method as `HelloImp` finds it. -/
def method (request : List UInt8) : List UInt8 :=
  let pos := findColon request
  let requestBody := substrBehind request pos
  let posMethod := findColon requestBody
  substrTo requestBody posMethod

end Hello

/-- `HelloImp`: the returned value and what is in `buffer`. -/
def HelloImp (request : List UInt8) : Int × List UInt8 :=
  match selectMethod Hello.names (Hello.method request) with
  | none => (-3, [])
  | some 0 => Hello.test request
  | some 1 => Hello.testHello request
  | some _ => (0, [])

/-! ### `ServerImp` -/

namespace Server

/-- `__tars__ServerF_all`. -/
def names : List (List UInt8) := [textBytes "keepAlive", textBytes "reportVersion"]

/-- `keepAlive`. -/
def keepAlive (req : List UInt8) : Int × List UInt8 :=
  let pos := findColon req
  let requestId := substrTo req pos
  (-1, requestId ++ textBytes ":" ++ textBytes "I have received")

end Server

/-- `ServerImp`. -/
def ServerImp (request : List UInt8) : Int × List UInt8 :=
  let method := (parseRequest request).2.2.2
  match selectMethod Server.names method with
  | none => (-3, [])
  | some 0 => Server.keepAlive request
  | some 1 => (-3, [])
  | some _ => (0, [])

/-! ### `RegisterImp` -/

/-- The field of `Registry`, a map from names to sets of addresses. -/
structure Registry where
  allServants : List (List UInt8 × List (List UInt8 × Int)) := []
deriving DecidableEq, Repr

/-- `allServants_[name]`: an absent name gets an empty set. -/
def Registry.index (registry : Registry) (name : List UInt8) :
    List (List UInt8 × Int) × Registry :=
  match registry.allServants.lookup name with
  | some addresses => (addresses, registry)
  | none => ([], { registry with allServants := (name, []) :: registry.allServants })

/-- `addServantAddress`: `servant_set` is a copy, so the address goes into the copy. -/
def Registry.addServantAddress (registry : Registry) (name ip : List UInt8) (port : Int) :
    Registry :=
  let (servantSet, registry) := registry.index name
  let _inserted := servantSet.insert (ip, port)
  registry

namespace Register

/-- `sregex_token_iterator` with -1 over `":"`: the last field is left out when it is
empty, unless it is the only one. -/
def fields (request : List UInt8) : List (List UInt8) :=
  let all := request.splitOn colon
  if 1 < all.length ∧ all.getLast? = some [] then all.dropLast else all

/-- `request[i]`. -/
def field (request : List (List UInt8)) (i : Nat) : Except Fault (List UInt8) :=
  match request[i]? with
  | some text => .ok text
  | none => .error .outOfBounds

/-- `registerServant`: the returned value, what is in `buffer`, and the registry. -/
def registerServant (registry : Registry) (request : List (List UInt8)) :
    Except Fault ((Int × List UInt8) × Registry) := do
  let name ← field request 2
  let ip ← field request 3
  let port ← field request 4
  let id ← field request 0
  .ok ((-1, id ++ textBytes ":registed!"), registry.addServantAddress name ip (atoi port))

/-- `deleteServant`. -/
def deleteServant (_request : List UInt8) : Int × List UInt8 := (-1, [])

end Register

/-- `RegisterImp`. -/
def RegisterImp (registry : Registry) (request : List UInt8) :
    Except Fault ((Int × List UInt8) × Registry) := do
  let v := Register.fields request
  let method ← Register.field v 1
  if method = textBytes "registerServant" then Register.registerServant registry v
  else if method = textBytes "deleteServant" then .ok (Register.deleteServant request, registry)
  else .ok ((-3, []), registry)

/-! ### The parts of a request -/

theorem substrTo_findColon (text : List UInt8) :
    substrTo text (findColon text) = text.takeWhile fun byte => byte ≠ colon := by
  induction text with
  | nil => rfl
  | cons byte rest ih =>
      rw [findColon, List.findIdx?_cons, List.takeWhile_cons]
      by_cases hcolon : byte = colon
      · simp [hcolon, substrTo]
      · rw [findColon] at ih
        cases hfind : rest.findIdx? fun byte => byte = colon with
        | none =>
            rw [hfind] at ih
            simpa [hcolon, substrTo] using ih
        | some pos =>
            rw [hfind] at ih
            simpa [hcolon, substrTo] using ih

/-- What stands in front of the first `':'`. -/
theorem takeWhile_of_notMem {first rest : List UInt8} (hfirst : colon ∉ first) :
    (first ++ colon :: rest).takeWhile (fun byte => byte ≠ colon) = first := by
  rw [List.takeWhile_append_of_pos, List.takeWhile_cons, if_neg (by simp), List.append_nil]
  intro byte hbyte
  have hne : byte ≠ colon := fun hsame => hfirst (hsame ▸ hbyte)
  simpa using hne

theorem substrBehind_findColon {first rest : List UInt8} (hfirst : colon ∉ first) :
    substrBehind (first ++ colon :: rest) (findColon (first ++ colon :: rest)) = rest := by
  have hfind : findColon (first ++ colon :: rest) = some first.length := by
    rw [findColon, List.findIdx?_append, List.findIdx?_eq_none_iff.mpr]
    · simp [List.findIdx?_cons]
    · intro byte hbyte
      have hne : byte ≠ colon := fun hsame => hfirst (hsame ▸ hbyte)
      simpa using hne
  rw [hfind, substrBehind]
  have hsplit : first ++ colon :: rest = (first ++ [colon]) ++ rest := by simp
  rw [hsplit, List.drop_left' (by simp)]

/-- The method of a request is found behind its id. -/
theorem parseRequest_method {id method arguments : List UInt8} (hid : colon ∉ id)
    (hmethod : colon ∉ method) :
    (parseRequest (id ++ colon :: (method ++ colon :: arguments))).2.2.2 = method := by
  simp only [parseRequest, substrBehind_findColon hid]
  rw [substrTo_findColon, takeWhile_of_notMem hmethod]

theorem Register.fields_zero {id rest : List UInt8} (hid : colon ∉ id)
    {text : List UInt8} (hfield : Register.field (Register.fields (id ++ colon :: rest)) 0 =
      .ok text) : text = id := by
  have hsplit : (id ++ colon :: rest).splitOn colon = id :: rest.splitOn colon :=
    List.splitOn_append_cons_self_of_not_mem hid rest
  obtain ⟨next, others, hrest⟩ := List.exists_cons_of_ne_nil (List.splitOn_ne_nil colon rest)
  simp only [Register.fields, hsplit, hrest] at hfield
  split at hfield <;> simpa [Register.field, eq_comm] using hfield

end Tarsx
