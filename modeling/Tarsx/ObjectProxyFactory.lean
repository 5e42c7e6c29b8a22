/-
`ObjectProxyFactory`: one proxy for each pair of an ip and a port, found again by the text
`ip:port`, and numbered in the order of the first requests.
-/
import Tarsx.CorrelationId
import Tarsx.Foundation.Interning

namespace Tarsx

open Foundation

/-- The fields of `ObjectProxyFactory`.  A proxy is the number of the `make_shared` that
made it, and `made` holds what the constructors were given.  `objectNum_` counts the
elements of a vector, so it does not wrap. -/
structure ObjectProxyFactory where
  objectProxys : List UInt8 → Option Nat := fun _ => none
  objectproxys : List Nat := []
  objectNum : Nat := 0
  made : List (List UInt8 × UInt16) := []

/-- The key `ip + ":" + std::to_string(port)`. -/
def objName (ip : List UInt8) (port : UInt16) : List UInt8 :=
  ip ++ colon :: toDecimal port.toNat

namespace ObjectProxyFactory

/-- `get_objectProxy(ip, port)`. -/
def getObjectProxy (f : ObjectProxyFactory) (ip : List UInt8) (port : UInt16) :
    ObjectProxyFactory × Nat :=
  let tmpObjName := objName ip port
  match f.objectProxys tmpObjName with
  | some object => (f, object)
  | none =>
      let object := f.made.length
      ({ objectProxys := Function.update f.objectProxys tmpObjName (some object)
         objectproxys := f.objectproxys ++ [object]
         objectNum := f.objectNum + 1
         made := f.made ++ [(ip, port)] }, object)

/-- `get_objectProxy(index)`. -/
def getObjectProxyAt (f : ObjectProxyFactory) (index : Nat) : Except Fault Nat :=
  if index < f.objectNum then
    match f.objectproxys[index]? with
    | some object => .ok object
    | none => .error .outOfBounds
  else .error .assertion

/-- A call of `get_objectProxy(ip, port)`, which does not fail. -/
def request (f : ObjectProxyFactory) (pair : List UInt8 × UInt16) :
    Except Fault (ObjectProxyFactory × Nat) :=
  .ok (f.getObjectProxy pair.1 pair.2)

end ObjectProxyFactory

/-! ### The key -/

/-- Behind its last `':'` the key has the port, whatever the ip contains. -/
theorem takeWhile_objName_reverse (ip : List UInt8) (port : UInt16) :
    (objName ip port).reverse.takeWhile (fun byte => byte ≠ colon) =
      (toDecimal port.toNat).reverse := by
  have hport : colon ∉ (toDecimal port.toNat).reverse := by
    rw [List.mem_reverse]
    exact colon_notMem_toDecimal _
  rw [objName, List.reverse_append, List.reverse_cons, List.append_assoc, List.singleton_append]
  exact takeWhile_of_notMem hport

theorem toDecimal_inj {m n : Int} (h : toDecimal m = toDecimal n) : m = n := by
  have hvalue := leadingInteger_toDecimal m
  rw [h, leadingInteger_toDecimal] at hvalue
  exact (Option.some.inj hvalue).symm

theorem objName_inj {ip ip' : List UInt8} {port port' : UInt16}
    (h : objName ip port = objName ip' port') : ip = ip' ∧ port = port' := by
  have htext : toDecimal port.toNat = toDecimal port'.toNat := by
    apply List.reverse_injective
    rw [← takeWhile_objName_reverse ip, h, takeWhile_objName_reverse]
  have hport : port = port' := UInt16.toNat_inj.mp (Int.ofNat.inj (toDecimal_inj htext))
  subst hport
  exact ⟨List.append_cancel_right h, rfl⟩

/-! ### The three containers -/

namespace ObjectProxyFactory

/-- The factory holds the known pairs: the map finds a pair by its key, the vector and the
counter follow, and the proxies are numbered as the pairs are. -/
structure Holds (f : ObjectProxyFactory) (known : List (List UInt8 × UInt16)) : Prop where
  made : f.made = known
  vector : f.objectproxys = List.range known.length
  counter : f.objectNum = known.length
  found : ∀ ip port, f.objectProxys (objName ip port) =
    if (ip, port) ∈ known then some (known.idxOf (ip, port)) else none

theorem Holds.start : Holds {} [] := ⟨rfl, rfl, rfl, fun _ _ => rfl⟩

section

variable {f : ObjectProxyFactory} {known : List (List UInt8 × UInt16)}

/-- A request interns its pair. -/
theorem Holds.getObjectProxy (h : Holds f known) (pair : List UInt8 × UInt16) :
    (f.getObjectProxy pair.1 pair.2).2 = (intern known pair).2 ∧
      Holds (f.getObjectProxy pair.1 pair.2).1 (intern known pair).1 := by
  obtain ⟨ip, port⟩ := pair
  have hfind := h.found ip port
  by_cases hknown : (ip, port) ∈ known
  · rw [if_pos hknown] at hfind
    simp only [ObjectProxyFactory.getObjectProxy, hfind, intern_of_mem hknown]
    exact ⟨trivial, h⟩
  · rw [if_neg hknown] at hfind
    simp only [ObjectProxyFactory.getObjectProxy, hfind, intern_of_notMem hknown, h.made]
    refine ⟨trivial, rfl, ?_, ?_, ?_⟩
    · rw [h.vector, List.length_append, List.length_singleton, List.range_succ]
    · rw [h.counter, List.length_append, List.length_singleton]
    · intro otherIp otherPort
      dsimp only
      by_cases hsame : (otherIp, otherPort) = (ip, port)
      · obtain ⟨rfl, rfl⟩ := Prod.mk.inj hsame
        rw [Function.update_self, if_pos (by simp), idxOf_concat_of_notMem hknown]
      · have hkey : objName otherIp otherPort ≠ objName ip port := by
          intro hkey
          obtain ⟨rfl, rfl⟩ := objName_inj hkey
          exact hsame rfl
        rw [Function.update_of_ne hkey, h.found]
        by_cases hother : (otherIp, otherPort) ∈ known
        · rw [if_pos hother, if_pos (List.mem_append_left _ hother),
            List.idxOf_append_of_mem hother]
        · rw [if_neg hother, if_neg (by simp [hother, hsame])]

/-- Calls of `get_objectProxy(ip, port)` refine interning. -/
theorem trace_request (requests : List (List UInt8 × UInt16)) :
    ∃ f, trace request {} requests =
        .ok (f, requests.map fun pair => requests.eraseDups.idxOf pair) ∧
      Holds f requests.eraseDups := by
  have hsim : ∀ f known pair, Holds f known → True →
      ∃ next, request f pair = .ok (next, (intern known pair).2) ∧
        Holds next (intern known pair).1 := by
    intro f known pair h _
    obtain ⟨hproxy, hnext⟩ := h.getObjectProxy pair
    exact ⟨_, by rw [request, ← hproxy], hnext⟩
  have hlegal : Along (quiet request) (fun _ _ => True) {} requests := along_true
  obtain ⟨f, htrace, hholds⟩ := trace_simulates hsim Holds.start hlegal
  rw [specTrace_intern] at htrace hholds
  exact ⟨f, htrace, hholds⟩

theorem Holds.getObjectProxyAt (h : Holds f known) {index : Nat} (hindex : index < known.length) :
    f.getObjectProxyAt index = .ok index := by
  rw [ObjectProxyFactory.getObjectProxyAt, if_pos (h.counter ▸ hindex), h.vector,
    List.getElem?_range hindex]

end

/-- After any calls of `get_objectProxy(ip, port)`: two calls returned the same proxy
exactly when they asked for the same pair, `objectNum_` is the number of distinct pairs, and
the proxy at an index below it was made for the distinct pair with that index and is the one
that every call with this pair returned. -/
theorem one_proxy_per_pair (requests : List (List UInt8 × UInt16)) :
    ∃ f proxies, trace request {} requests = .ok (f, proxies) ∧
      proxies.length = requests.length ∧
      (∀ i j : Nat, proxies[i]? = proxies[j]? ↔ requests[i]? = requests[j]?) ∧
      f.objectNum = requests.eraseDups.length ∧
      ∀ i < f.objectNum, ∃ proxy, f.getObjectProxyAt i = .ok proxy ∧
        f.made[proxy]? = requests.eraseDups[i]? ∧
        ∀ k : Nat, requests[k]? = requests.eraseDups[i]? → proxies[k]? = some proxy := by
  obtain ⟨f, htrace, hholds⟩ := trace_request requests
  refine ⟨f, _, htrace, List.length_map _, numbers_eq_iff requests, hholds.counter, ?_⟩
  intro i hi
  rw [hholds.counter] at hi
  refine ⟨i, hholds.getObjectProxyAt hi, by rw [hholds.made], ?_⟩
  intro k hk
  rw [List.getElem?_map, hk, List.getElem?_eq_getElem hi, Option.map_some, Option.some.injEq]
  exact (nodup_eraseDups requests).idxOf_getElem i hi

end ObjectProxyFactory

end Tarsx
