/-
`ServantProxy` with any number of net threads: the record of a client thread, the proxy that
keeps one, and the threads that put requests into a queue.
-/
import Mathlib.Logic.Function.Basic
import Tarsx.Foundation.Run
import Tarsx.Foundation.Word
import Tarsx.LoopQueue

namespace Tarsx

open Foundation

namespace Client

/-- A `ReqMessage*`; the number of the object. -/
abbrev MessagePtr := Nat

/-- The fields of `ServantProxyThreadData`.  An entry of `reqQueue_` is `none` until it is
set: the array has no initialiser. -/
structure ServantProxyThreadData where
  reqQueue : Nat → Option (LoopQueue MessagePtr) := fun _ => none
  queueInit : Bool := false
  netSeq : Nat := 0
  netThreadSeq : Int := -1
  objectProxyNum : Nat := 0
  netSeq_le : netSeq ≤ 64 := by decide

instance : Inhabited ServantProxyThreadData := ⟨{}⟩

/-- The fields of a `ServantProxy`; `sptd` is the number of a record.  `objectProxy_` has
`objectProxyNum_` entries, an object proxy by its number for each net thread. -/
structure ServantProxy where
  sptd : Option Nat := none
  objectProxy : Nat → Nat := fun netThread => netThread
  objectProxyNum : Nat := 1
  queueSize : Nat := 1000

/-- A queue chosen by a call: an entry of the record's `reqQueue_`.  For the record, `own` is
what `get_data` returns in the thread at the call, or would return where the call does not
ask for it, and `key` is the value of `key_` then. -/
structure Choice where
  thread : Nat
  proxy : Nat
  record : Nat
  index : Nat
  own : Option Nat
  key : Nat
deriving DecidableEq, Repr

end Client

/-- The client threads of a process.  `specific` holds `pthread_getspecific` for each key
and thread; `owner` is the thread that a record was made in and `under` the key it was kept
under; `chosen` lists the queues that the calls so far have chosen. -/
structure Client where
  key : Nat := 0
  specific : Nat → Nat → Option Nat := fun _ _ => none
  recordNum : Nat := 0
  owner : Nat → Nat := fun _ => 0
  under : Nat → Nat := fun _ => 0
  data : Nat → Client.ServantProxyThreadData := fun _ => {}
  proxies : Nat → Client.ServantProxy := fun _ => {}
  chosen : List Client.Choice := []

namespace Client

/-! ## `get_data` -/

/-- `pthread_key_create` and the value it leaves in `key_`: a new key, which is null in
every thread, or `none` when it fails. -/
def createKey (c : Client) (created : Option Nat) : Option Client :=
  created.map fun key =>
    { c with key := key, specific := Function.update c.specific key fun _ => none }

/-- A new record, as the value of the key in the thread. -/
def newRecord (c : Client) (thread : Nat) : Client :=
  { c with
    specific := Function.update c.specific c.key
      (Function.update (c.specific c.key) thread (some c.recordNum))
    recordNum := c.recordNum + 1
    owner := Function.update c.owner c.recordNum thread
    under := Function.update c.under c.recordNum c.key
    data := Function.update c.data c.recordNum {} }

/-- `get_data` in a thread; `created` is the outcome of `pthread_key_create`, should it be
called.  A `none` is `nullptr`. -/
def getData (c : Client) (thread : Nat) (created : Option Nat) : Option Nat × Client :=
  match (if c.key = 0 then c.createKey created else some c) with
  | none => (none, c)
  | some c =>
      match c.specific c.key thread with
      | some record => (some record, c)
      | none => (some c.recordNum, c.newRecord thread)

/-! ## `selectNetThreadInfo` -/

/-- The loop that makes the queues. -/
def initQueues (queueSize : Nat) :
    Nat → (Nat → Option (LoopQueue MessagePtr)) →
    Except Fault (Nat → Option (LoopQueue MessagePtr))
  | 0, queues => .ok queues
  | count + 1, queues => do
      let queues ← initQueues queueSize count queues
      let queue ← LoopQueue.create queueSize
      if count < 64 then .ok (Function.update queues count (some queue))
      else .error .outOfBounds

/-- The first part: the queues of a record are made at its first use. -/
def initData (data : ServantProxyThreadData) (proxy : ServantProxy) :
    Except Fault ServantProxyThreadData :=
  if data.queueInit then .ok data
  else do
    let queues ← initQueues proxy.queueSize proxy.objectProxyNum data.reqQueue
    .ok { data with
      reqQueue := queues, objectProxyNum := proxy.objectProxyNum, queueInit := true }

/-- `selectNetThreadInfo`: the index of the object proxy and of the queue. -/
def selectNetThreadInfo (data : ServantProxyThreadData) (proxy : ServantProxy) :
    Except Fault (Nat × ServantProxyThreadData) := do
  let data ← initData data proxy
  if proxy.objectProxyNum = 1 then .ok (0, data)
  else if 0 ≤ data.netThreadSeq then
    if data.netThreadSeq < toInt32 proxy.objectProxyNum then
      if data.netThreadSeq < 64 then .ok (data.netThreadSeq.toNat, data)
      else .error .outOfBounds
    else .error .assertion
  else if hindex : data.netSeq < proxy.objectProxyNum ∧ data.netSeq < 64 then
    .ok (data.netSeq,
      { data with
        netSeq := if data.netSeq + 1 = proxy.objectProxyNum then 0 else data.netSeq + 1
        netSeq_le := by split <;> omega })
  else .error .outOfBounds

/-- The call uses the record and the proxy keeps it. -/
def useRecord (c : Client) (choice : Choice) (data : ServantProxyThreadData) : Client :=
  { c with
    proxies := Function.update c.proxies choice.proxy
      { c.proxies choice.proxy with sptd := some choice.record }
    data := Function.update c.data choice.record data
    chosen := c.chosen ++ [choice] }

/-- `invoke` up to the queue: the proxy keeps the record it gets at its first call. -/
def choose (c : Client) (thread proxy : Nat) (created : Option Nat) :
    Except Fault (Choice × Client) :=
  let (sptd, d) :=
    match (c.proxies proxy).sptd with
    | some record => (some record, c)
    | none => c.getData thread created
  match sptd with
  | none => .error .nullPointer
  | some record => do
      let (index, data) ← selectNetThreadInfo (d.data record) (d.proxies proxy)
      let choice := {
        thread := thread, proxy := proxy, record := record, index := index
        own := (c.getData thread created).1, key := d.key }
      .ok (choice, d.useRecord choice data)

/-- The start of `CommunicatorEpoll::run` in a net thread. -/
def runNetThread (c : Client) (thread netThreadSeq : Nat) (created : Option Nat) :
    Except Fault Client :=
  match c.getData thread created with
  | (none, _) => .error .assertion
  | (some record, c) =>
      .ok { c with
        data := Function.update c.data record
          { c.data record with netThreadSeq := toInt32 netThreadSeq } }

/-! ## Runs -/

inductive Action where
  | invoke (thread proxy : Nat) (created : Option Nat)
  | run (thread netThreadSeq : Nat) (created : Option Nat)
deriving DecidableEq, Repr

def step (c : Client) : Action → Except Fault Client
  | .invoke thread proxy created => do
      let (_, c) ← c.choose thread proxy created
      .ok c
  | .run thread netThreadSeq created => c.runNetThread thread netThreadSeq created

/-- Every call used the record that `get_data` returns in its thread, and the calls that put a
request into one queue are all from one thread. -/
def Confined (c : Client) : Prop :=
  (∀ choice ∈ c.chosen, choice.own = some choice.record) ∧
    ∀ choice ∈ c.chosen, ∀ other ∈ c.chosen,
      choice.record = other.record → choice.index = other.index → choice.thread = other.thread

/-- No thread has a record and no proxy keeps one; any proxies with any numbers of net
threads. -/
structure Fresh (c : Client) : Prop where
  key : c.key = 0
  specific : ∀ key thread, c.specific key thread = none
  sptd : ∀ proxy, (c.proxies proxy).sptd = none
  chosen : c.chosen = []

/-! ## Who owns a record -/

/-- What holds in every state: a value of a key belongs to its thread, and the record that a
proxy keeps is still the value it was made for, unless its key was 0. -/
structure Kept (c : Client) : Prop where
  specific : ∀ {key thread record}, c.specific key thread = some record →
    record < c.recordNum ∧ c.owner record = thread ∧ c.under record = key
  sptd : ∀ {proxy record}, (c.proxies proxy).sptd = some record → record < c.recordNum ∧
    (c.under record ≠ 0 → c.key = c.under record ∧
      c.specific (c.under record) (c.owner record) = some record)

theorem Fresh.kept {c : Client} (h : Fresh c) : Kept c where
  specific := by
    intro key thread record hrecord
    rw [h.specific] at hrecord
    cases hrecord
  sptd := by
    intro proxy record hrecord
    rw [h.sptd] at hrecord
    cases hrecord

/-- A key is only made while `key_` is 0, so no record that is kept under another key is
lost. -/
theorem Kept.createKey {c c' : Client} (h : Kept c) (hkey : c.key = 0) {created : Option Nat}
    (hcreate : c.createKey created = some c') : Kept c' := by
  obtain ⟨key, -, rfl⟩ := Option.map_eq_some_iff.mp hcreate
  constructor
  · intro other thread record hrecord
    by_cases hother : other = key
    · subst hother
      simp at hrecord
    · simp only [Function.update_of_ne hother] at hrecord
      exact h.specific hrecord
  · intro proxy record hrecord
    obtain ⟨hlt, hvalue⟩ := h.sptd hrecord
    refine ⟨hlt, fun hunder => ?_⟩
    exact absurd ((hvalue hunder).1.symm.trans hkey) hunder

theorem owner_newRecord {c : Client} {thread record : Nat} (hrecord : record < c.recordNum) :
    (c.newRecord thread).owner record = c.owner record :=
  Function.update_of_ne (Nat.ne_of_lt hrecord) _ _

theorem under_newRecord {c : Client} {thread record : Nat} (hrecord : record < c.recordNum) :
    (c.newRecord thread).under record = c.under record :=
  Function.update_of_ne (Nat.ne_of_lt hrecord) _ _

/-- A new record takes the place of no other. -/
theorem Kept.newRecord {c : Client} (h : Kept c) {thread : Nat}
    (hnone : c.specific c.key thread = none) : Kept (c.newRecord thread) where
  specific := by
    intro key other record hrecord
    by_cases hnew : key = c.key ∧ other = thread
    · obtain ⟨rfl, rfl⟩ := hnew
      simp only [Client.newRecord, Function.update_self, Option.some.injEq] at hrecord
      subst hrecord
      exact ⟨Nat.lt_succ_self _, Function.update_self _ _ _, Function.update_self _ _ _⟩
    · have hold : c.specific key other = some record := by
        by_cases hkey : key = c.key
        · have hother : other ≠ thread := fun heq => hnew ⟨hkey, heq⟩
          subst hkey
          simpa [Client.newRecord, hother] using hrecord
        · simpa [Client.newRecord, hkey] using hrecord
      obtain ⟨hlt, howner, hunder⟩ := h.specific hold
      exact ⟨Nat.lt_succ_of_lt hlt, (owner_newRecord hlt).trans howner,
        (under_newRecord hlt).trans hunder⟩
  sptd := by
    intro proxy record hrecord
    obtain ⟨hlt, hvalue⟩ := h.sptd hrecord
    refine ⟨Nat.lt_succ_of_lt hlt, ?_⟩
    rw [owner_newRecord hlt, under_newRecord hlt]
    intro hunder
    obtain ⟨hkey, hspecific⟩ := hvalue hunder
    refine ⟨hkey, ?_⟩
    have hother : c.owner record ≠ thread := by
      intro heq
      rw [heq, ← hkey, hnone] at hspecific
      contradiction
    simp only [Client.newRecord, ← hkey, Function.update_self]
    rw [Function.update_of_ne hother, hkey]
    exact hspecific

/-- The value of `key_` after `get_data`. -/
def keyAfter (key : Nat) (created : Option Nat) : Nat := if key = 0 then created.getD 0 else key

/-- `get_data` that gives a record: under a key that was there or is made, the record that the
thread has or a new one. -/
theorem getData_cases {c c' : Client} {thread record : Nat} {created : Option Nat}
    (hget : c.getData thread created = (some record, c')) :
    ∃ d : Client, ((d = c ∧ c.key ≠ 0) ∨ (c.key = 0 ∧ c.createKey created = some d)) ∧
      ((d.specific d.key thread = some record ∧ c' = d) ∨
        (d.specific d.key thread = none ∧ record = d.recordNum ∧ c' = d.newRecord thread)) := by
  rw [getData] at hget
  split at hget
  · cases hget
  · rename_i d hkey
    refine ⟨d, ?_, ?_⟩
    · split at hkey
      · exact .inr ⟨‹_›, hkey⟩
      · exact .inl ⟨(Option.some.inj hkey).symm, ‹_›⟩
    · split at hget
      · rename_i found hspecific
        cases hget
        exact .inl ⟨hspecific, rfl⟩
      · rename_i hnone
        cases hget
        exact .inr ⟨hnone, rfl, rfl⟩

/-- What `get_data` does when it gives a record: one of the calling thread, kept under the key
that `key_` has then, and nothing else changes. -/
structure Got (c c' : Client) (thread record : Nat) (created : Option Nat) : Prop where
  kept : Kept c'
  lt : record < c'.recordNum
  owner : c'.owner record = thread
  under : c'.under record = c'.key
  specific : c'.specific c'.key thread = some record
  key : c'.key = keyAfter c.key created
  proxies : c'.proxies = c.proxies
  chosen : c'.chosen = c.chosen
  old : ∀ {other}, other < c.recordNum →
    c'.owner other = c.owner other ∧ c'.under other = c.under other

theorem getData_spec {c c' : Client} (h : Kept c) {thread record : Nat} {created : Option Nat}
    (hget : c.getData thread created = (some record, c')) : Got c c' thread record created := by
  obtain ⟨d, hkey, hrecord⟩ := getData_cases hget
  have hd : Kept d ∧ d.key = keyAfter c.key created ∧ d.proxies = c.proxies ∧
      d.chosen = c.chosen ∧ d.recordNum = c.recordNum ∧ d.owner = c.owner ∧
      d.under = c.under := by
    rcases hkey with ⟨rfl, hnonzero⟩ | ⟨hzero, hcreate⟩
    · exact ⟨h, by rw [keyAfter, if_neg hnonzero], rfl, rfl, rfl, rfl, rfl⟩
    · have hkept := h.createKey hzero hcreate
      obtain ⟨key, rfl, rfl⟩ := Option.map_eq_some_iff.mp hcreate
      exact ⟨hkept, by rw [keyAfter, if_pos hzero]; rfl, rfl, rfl, rfl, rfl, rfl⟩
  obtain ⟨hkept, hkey', hproxies, hchosen, hnum, howners, hunders⟩ := hd
  rcases hrecord with ⟨hspecific, rfl⟩ | ⟨hnone, rfl, rfl⟩
  · obtain ⟨hlt, howner, hunder⟩ := hkept.specific hspecific
    exact ⟨hkept, hlt, howner, hunder, hspecific, hkey', hproxies, hchosen,
      fun _ => ⟨by rw [howners], by rw [hunders]⟩⟩
  · refine ⟨hkept.newRecord hnone, Nat.lt_succ_self _, Function.update_self _ _ _,
      Function.update_self _ _ _, ?_, hkey', hproxies, hchosen, fun {other} hother => ?_⟩
    · simp only [newRecord, Function.update_self]
    · rw [← hnum] at hother
      rw [owner_newRecord hother, under_newRecord hother, howners, hunders]
      exact ⟨rfl, rfl⟩

/-- The record that a proxy keeps is the one that `get_data` would return exactly in its own
thread, if its key is not 0. -/
theorem Kept.own_iff {c : Client} (h : Kept c) {proxy record : Nat}
    (hsptd : (c.proxies proxy).sptd = some record) (thread : Nat) (created : Option Nat) :
    (c.getData thread created).1 = some record ↔
      thread = c.owner record ∧ c.under record ≠ 0 := by
  obtain ⟨hlt, hvalue⟩ := h.sptd hsptd
  constructor
  · intro hown
    have hget : c.getData thread created = (some record, (c.getData thread created).2) :=
      Prod.ext hown rfl
    obtain ⟨d, hkey, hrecord⟩ := getData_cases hget
    rcases hkey with ⟨rfl, hnonzero⟩ | ⟨-, hcreate⟩
    · rcases hrecord with ⟨hspecific, -⟩ | ⟨-, rfl, -⟩
      · obtain ⟨-, howner, hunder⟩ := h.specific hspecific
        exact ⟨howner.symm, hunder ▸ hnonzero⟩
      · exact absurd hlt (Nat.lt_irrefl _)
    · obtain ⟨key, -, rfl⟩ := Option.map_eq_some_iff.mp hcreate
      rcases hrecord with ⟨hspecific, -⟩ | ⟨-, rfl, -⟩
      · simp at hspecific
      · exact absurd hlt (Nat.lt_irrefl _)
  · rintro ⟨rfl, hunder⟩
    obtain ⟨hkey, hspecific⟩ := hvalue hunder
    have hnonzero : c.key ≠ 0 := hkey ▸ hunder
    rw [← hkey] at hspecific
    simp only [getData, if_neg hnonzero, hspecific]

/-- The last part of a call up to the queue keeps the invariant when the record is one that
the proxy keeps, or that was got. -/
theorem Kept.useRecord {c : Client} (h : Kept c) {choice : Choice} (data : ServantProxyThreadData)
    (hlt : choice.record < c.recordNum)
    (hvalue : c.under choice.record ≠ 0 → c.key = c.under choice.record ∧
      c.specific (c.under choice.record) (c.owner choice.record) = some choice.record) :
    Kept (c.useRecord choice data) where
  specific := h.specific
  sptd := by
    intro proxy record hsptd
    by_cases hproxy : proxy = choice.proxy
    · subst hproxy
      simp only [Client.useRecord, Function.update_self, Option.some.injEq] at hsptd
      subst hsptd
      exact ⟨hlt, hvalue⟩
    · simp only [Client.useRecord, Function.update_of_ne hproxy] at hsptd
      exact h.sptd hsptd

/-! ## One call -/

/-- A call that comes to a queue: it uses the record that the proxy keeps, or the one it
gets. -/
theorem choose_cases {c c' : Client} {thread proxy : Nat} {created : Option Nat} {choice : Choice}
    (hchoose : c.choose thread proxy created = .ok (choice, c')) :
    ∃ (d : Client) (data : ServantProxyThreadData),
      (((c.proxies proxy).sptd = some choice.record ∧ d = c) ∨
        ((c.proxies proxy).sptd = none ∧ c.getData thread created = (some choice.record, d))) ∧
      selectNetThreadInfo (d.data choice.record) (d.proxies proxy) = .ok (choice.index, data) ∧
      choice.thread = thread ∧ choice.proxy = proxy ∧
      choice.own = (c.getData thread created).1 ∧ choice.key = d.key ∧
      c' = d.useRecord choice data := by
  rw [choose] at hchoose
  cases hsptd : (c.proxies proxy).sptd with
  | some record =>
      rw [hsptd] at hchoose
      obtain ⟨⟨index, data⟩, hselect, hdone⟩ := ok_of_bind_ok hchoose
      cases hdone
      exact ⟨c, data, .inl ⟨rfl, rfl⟩, hselect, rfl, rfl, rfl, rfl, rfl⟩
  | none =>
      cases hget : c.getData thread created with
      | mk found d =>
        cases found with
        | none =>
            simp only [hsptd, hget] at hchoose
            cases hchoose
        | some record =>
            simp only [hsptd, hget] at hchoose
            obtain ⟨⟨index, data⟩, hselect, hdone⟩ := ok_of_bind_ok hchoose
            cases hdone
            exact ⟨d, data, .inr ⟨rfl, rfl⟩, hselect, rfl, rfl, rfl, rfl, rfl⟩

/-- What a call does up to the queue: the invariant stays, the records that were there keep
their threads and keys, and it used its own record exactly when the proxy kept none, or kept
the record of its thread and not under the key 0. -/
structure Chose (c c' : Client) (thread proxy : Nat) (created : Option Nat) (choice : Choice) :
    Prop where
  kept : Kept c'
  thread_eq : choice.thread = thread
  proxy_eq : choice.proxy = proxy
  key_eq : choice.key = if (c.proxies proxy).sptd.isSome then c.key else keyAfter c.key created
  keyStays : c'.key = choice.key
  chosen : c'.chosen = c.chosen ++ [choice]
  sptd : ∀ other, (c'.proxies other).sptd =
    if other = proxy then some choice.record else (c.proxies other).sptd
  known : ∀ {record}, (c.proxies proxy).sptd = some record → choice.record = record
  old : ∀ {other}, other < c.recordNum →
    c'.owner other = c.owner other ∧ c'.under other = c.under other
  own : choice.own = some choice.record ↔ ∀ record, (c.proxies proxy).sptd = some record →
    thread = c.owner record ∧ c.under record ≠ 0
  attributed : choice.own = some choice.record →
    choice.thread = c'.owner choice.record ∧ choice.key = c'.under choice.record

theorem choose_spec {c c' : Client} (h : Kept c) {thread proxy : Nat} {created : Option Nat}
    {choice : Choice} (hchoose : c.choose thread proxy created = .ok (choice, c')) :
    Chose c c' thread proxy created choice := by
  obtain ⟨d, data, hrecord, -, rfl, rfl, hown, hkey, rfl⟩ := choose_cases hchoose
  have hsptds : ∀ other, ((d.useRecord choice data).proxies other).sptd =
      if other = choice.proxy then some choice.record else (d.proxies other).sptd := by
    intro other
    by_cases hother : other = choice.proxy
    · subst hother
      simp only [Client.useRecord, Function.update_self, if_true]
    · simp only [Client.useRecord, Function.update_of_ne hother, if_neg hother]
  rcases hrecord with ⟨hsptd, rfl⟩ | ⟨hsptd, hget⟩
  · obtain ⟨hlt, hvalue⟩ := h.sptd hsptd
    have hiff := h.own_iff hsptd choice.thread created
    rw [← hown] at hiff
    refine ⟨h.useRecord data hlt hvalue, rfl, rfl, by rw [hkey, hsptd]; rfl, hkey.symm, rfl,
      hsptds, fun hknown => ?_, fun _ => ⟨rfl, rfl⟩, ?_, fun hmine => ?_⟩
    · rw [hsptd, Option.some.injEq] at hknown
      exact hknown
    · rw [hiff, hsptd]
      simp only [Option.some.injEq, forall_eq']
    · obtain ⟨hthread, hunder⟩ := hiff.mp hmine
      exact ⟨hthread, hkey.trans (hvalue hunder).1⟩
  · have hgot := getData_spec h hget
    have hmine : choice.own = some choice.record := by rw [hown, hget]
    refine ⟨hgot.kept.useRecord data hgot.lt fun _ => ?_, rfl, rfl, ?_, hkey.symm,
      by simp only [Client.useRecord, hgot.chosen], ?_, ?_, hgot.old, ?_,
      fun _ => ⟨hgot.owner.symm, hkey.trans hgot.under.symm⟩⟩
    · exact ⟨hgot.under.symm, by rw [hgot.owner, hgot.under]; exact hgot.specific⟩
    · rw [hkey, hgot.key, hsptd]
      rfl
    · rw [← hgot.proxies]
      exact hsptds
    · rw [hsptd]
      exact fun hknown => by contradiction
    · rw [hsptd]
      exact ⟨fun _ _ hknown => by contradiction, fun _ => hmine⟩

/-- What the start of a net thread does. -/
theorem runNetThread_spec {c c' : Client} (h : Kept c) {thread netThreadSeq : Nat}
    {created : Option Nat} (hrun : c.runNetThread thread netThreadSeq created = .ok c') :
    Kept c' ∧ c'.key = keyAfter c.key created ∧ c'.proxies = c.proxies ∧
      c'.chosen = c.chosen ∧ ∀ other < c.recordNum,
        c'.owner other = c.owner other ∧ c'.under other = c.under other := by
  rw [runNetThread] at hrun
  split at hrun
  · cases hrun
  · rename_i record d hget
    have hgot := getData_spec h hget
    cases hrun
    exact ⟨⟨hgot.kept.specific, hgot.kept.sptd⟩, hgot.key, hgot.proxies, hgot.chosen,
      fun _ hother => hgot.old hother⟩

/-! ## Runs -/

/-- A call of `invoke`, with the value of `key_` behind its `get_data`. -/
structure Call where
  thread : Nat
  proxy : Nat
  key : Nat
deriving DecidableEq, Repr

def Choice.call (choice : Choice) : Call := ⟨choice.thread, choice.proxy, choice.key⟩

/-- The calls among the actions, when `key_` has this value and these proxies keep a record. -/
def callsFrom : Nat → List Nat → List Action → List Call
  | _, _, [] => []
  | key, seen, .invoke thread proxy created :: rest =>
      let key := if proxy ∈ seen then key else keyAfter key created
      ⟨thread, proxy, key⟩ :: callsFrom key (proxy :: seen) rest
  | key, seen, .run _ _ created :: rest => callsFrom (keyAfter key created) seen rest

/-- The calls among the actions of a run. -/
def callsOf (actions : List Action) : List Call := callsFrom 0 [] actions

/-- A later call of the proxy finds what its own thread left there, under a key that
`get_data` knows. -/
def Call.Leaves (first later : Call) : Prop :=
  first.proxy = later.proxy → first.thread = later.thread ∧ first.key ≠ 0

instance (first later : Call) : Decidable (first.Leaves later) :=
  inferInstanceAs (Decidable (_ → _))

/-- What holds of the calls made: each that used its own record used one of its thread, and
all did exactly when every call leaves the proxy so for the later ones. -/
structure Recorded (c : Client) : Prop where
  kept : Kept c
  sptd : ∀ choice ∈ c.chosen, (c.proxies choice.proxy).sptd = some choice.record
  first : ∀ proxy record, (c.proxies proxy).sptd = some record →
    ∃ choice ∈ c.chosen, choice.proxy = proxy
  attributed : ∀ choice ∈ c.chosen, choice.own = some choice.record →
    choice.thread = c.owner choice.record ∧ choice.key = c.under choice.record
  own : (∀ choice ∈ c.chosen, choice.own = some choice.record) ↔
    (c.chosen.map Choice.call).Pairwise Call.Leaves

theorem Fresh.recorded {c : Client} (h : Fresh c) : Recorded c := by
  have hnone : ∀ choice, choice ∉ c.chosen := fun choice hmem => by simp [h.chosen] at hmem
  refine ⟨h.kept, fun choice hmem => absurd hmem (hnone choice), fun proxy record hsptd => ?_,
    fun choice hmem => absurd hmem (hnone choice), ?_⟩
  · rw [h.sptd] at hsptd
    contradiction
  · rw [h.chosen]
    exact ⟨fun _ => .nil, fun _ choice hmem => by contradiction⟩

section Record

variable {c c' : Client} {thread proxy : Nat} {created : Option Nat} {choice : Choice}

/-- While the calls before used their own records, a call does so exactly when each of them
leaves the proxy so. -/
theorem Recorded.own_iff (h : Recorded c) (hchose : Chose c c' thread proxy created choice)
    (hall : ∀ earlier ∈ c.chosen, earlier.own = some earlier.record) :
    choice.own = some choice.record ↔
      ∀ earlier ∈ c.chosen, earlier.call.Leaves choice.call := by
  rw [hchose.own]
  have hsame : ∀ {earlier record}, earlier ∈ c.chosen → earlier.proxy = proxy →
      (c.proxies proxy).sptd = some record →
      earlier.thread = c.owner record ∧ earlier.key = c.under record := by
    intro earlier record hmem hproxy hsptd
    have hkept := h.sptd earlier hmem
    rw [hproxy, hsptd, Option.some.injEq] at hkept
    rw [hkept]
    exact h.attributed earlier hmem (hall earlier hmem)
  constructor
  · intro hown earlier hmem hproxy
    have hproxy' : earlier.proxy = proxy := Eq.trans hproxy hchose.proxy_eq
    have hsptd := h.sptd earlier hmem
    rw [hproxy'] at hsptd
    obtain ⟨hthread, hunder⟩ := hown _ hsptd
    obtain ⟨hthread', hkey⟩ := hsame hmem hproxy' hsptd
    exact ⟨hthread'.trans (hthread.symm.trans hchose.thread_eq.symm),
      fun hzero => hunder (hkey.symm.trans hzero)⟩
  · intro hleaves record hsptd
    obtain ⟨earlier, hmem, hproxy⟩ := h.first proxy record hsptd
    obtain ⟨hthread, hkey⟩ := hleaves earlier hmem (Eq.trans hproxy hchose.proxy_eq.symm)
    obtain ⟨hthread', hkey'⟩ := hsame hmem hproxy hsptd
    refine ⟨?_, hkey' ▸ hkey⟩
    rw [← hchose.thread_eq, ← hthread']
    exact hthread.symm

theorem Recorded.invoke (h : Recorded c) (hchose : Chose c c' thread proxy created choice) :
    Recorded c' := by
  have hkeeps : ∀ {earlier}, earlier ∈ c.chosen → earlier.record < c.recordNum :=
    fun hmem => (h.kept.sptd (h.sptd _ hmem)).1
  refine ⟨hchose.kept, fun other hmem => ?_, fun other record hsptd => ?_, fun other hmem => ?_,
    ?_⟩
  · rw [hchose.chosen] at hmem
    rw [hchose.sptd]
    rcases List.mem_append.mp hmem with hold | hnew
    · split
      · rename_i hproxy
        have hkept := h.sptd other hold
        rw [hproxy] at hkept
        rw [hchose.known hkept]
      · exact h.sptd other hold
    · rw [List.mem_singleton.mp hnew, if_pos hchose.proxy_eq]
  · rw [hchose.chosen]
    rw [hchose.sptd] at hsptd
    split at hsptd
    · rename_i hproxy
      exact ⟨choice, List.mem_append_right _ List.mem_cons_self, hchose.proxy_eq.trans hproxy.symm⟩
    · obtain ⟨earlier, hmem, hproxy⟩ := h.first other record hsptd
      exact ⟨earlier, List.mem_append_left _ hmem, hproxy⟩
  · rw [hchose.chosen] at hmem
    rcases List.mem_append.mp hmem with hold | hnew
    · obtain ⟨howner, hunder⟩ := hchose.old (hkeeps hold)
      rw [howner, hunder]
      exact h.attributed other hold
    · rw [List.mem_singleton.mp hnew]
      exact hchose.attributed
  · rw [hchose.chosen, List.map_append, List.pairwise_append, ← h.own]
    simp only [List.mem_append, or_imp, forall_and, List.map_singleton, List.pairwise_singleton,
      List.mem_singleton, forall_eq, List.mem_map, forall_exists_index, and_imp,
      forall_apply_eq_imp_iff₂, true_and]
    exact and_congr_right fun hall => h.own_iff hchose hall

theorem Recorded.runNetThread (h : Recorded c) {netThreadSeq : Nat}
    (hrun : c.runNetThread thread netThreadSeq created = .ok c') : Recorded c' := by
  obtain ⟨hkept, -, hproxies, hchosen, hold⟩ := runNetThread_spec h.kept hrun
  refine ⟨hkept, ?_, ?_, ?_, ?_⟩
  · rw [hproxies, hchosen]
    exact h.sptd
  · rw [hproxies, hchosen]
    exact h.first
  · rw [hchosen]
    intro other hmem
    obtain ⟨howner, hunder⟩ := hold _ (h.kept.sptd (h.sptd other hmem)).1
    rw [howner, hunder]
    exact h.attributed other hmem
  · rw [hchosen]
    exact h.own

end Record

/-- The calls recorded by a run are those among its actions. -/
theorem recorded_run {c c' : Client} (h : Recorded c) {seen : List Nat} {actions : List Action}
    (hseen : ∀ proxy, proxy ∈ seen ↔ (c.proxies proxy).sptd.isSome = true)
    (hrun : run step c actions = .ok c') :
    Recorded c' ∧ c'.chosen.map Choice.call =
      c.chosen.map Choice.call ++ callsFrom c.key seen actions := by
  induction actions generalizing c seen with
  | nil =>
      cases hrun
      exact ⟨h, (List.append_nil _).symm⟩
  | cons action rest ih =>
      cases hstep : step c action with
      | error fault => simp [run, hstep] at hrun
      | ok next =>
          rw [run_cons_of_ok hstep] at hrun
          cases action with
          | invoke thread proxy created =>
              obtain ⟨⟨choice, d⟩, hchoose, hdone⟩ := ok_of_bind_ok hstep
              cases hdone
              have hchose := choose_spec h.kept hchoose
              have hseen' : ∀ other, other ∈ proxy :: seen ↔
                  (next.proxies other).sptd.isSome = true := by
                intro other
                rw [hchose.sptd, List.mem_cons, hseen]
                by_cases hother : other = proxy
                · simp [hother]
                · simp [hother]
              obtain ⟨hlast, hcalls⟩ := ih (h.invoke hchose) hseen' hrun
              refine ⟨hlast, ?_⟩
              have hkey : choice.key = if proxy ∈ seen then c.key else keyAfter c.key created := by
                rw [hchose.key_eq]
                simp only [hseen]
              rw [hcalls, hchose.chosen, List.map_append, List.append_assoc, callsFrom,
                hchose.keyStays, hkey]
              simp only [List.map_singleton, Choice.call, hchose.thread_eq, hchose.proxy_eq, hkey]
              rfl
          | run thread netThreadSeq created =>
              obtain ⟨-, hkey, hproxies, hchosen, -⟩ := runNetThread_spec h.kept hstep
              obtain ⟨hlast, hcalls⟩ := ih (h.runNetThread hstep) (hproxies.symm ▸ hseen) hrun
              refine ⟨hlast, ?_⟩
              rw [hcalls, hchosen, hkey, callsFrom]

/-- The calls of a run use the records of their own threads exactly when no two threads call
one proxy, and no proxy that is called again got its record under the key 0. -/
theorem confined_iff {c c' : Client} (h : Fresh c) {actions : List Action}
    (hrun : run step c actions = .ok c') :
    Confined c' ↔ (callsOf actions).Pairwise Call.Leaves := by
  obtain ⟨hlast, hcalls⟩ := @recorded_run c c' h.recorded [] actions
    (fun proxy => by simp [h.sptd]) hrun
  rw [h.chosen, h.key, List.map_nil, List.nil_append] at hcalls
  rw [callsOf, ← hcalls, ← hlast.own]
  constructor
  · exact fun hconfined => hconfined.1
  · intro hown
    refine ⟨hown, fun choice hmem other hother hrecord _ => ?_⟩
    rw [(hlast.attributed choice hmem (hown choice hmem)).1,
      (hlast.attributed other hother (hown other hother)).1, hrecord]

theorem fresh_default : Fresh {} := ⟨rfl, fun _ _ => rfl, fun _ => rfl, rfl⟩

theorem confined_two_proxies : ∃ c,
    run step {} [.invoke 0 0 (some 1), .invoke 1 1 none, .invoke 0 0 none] = .ok c ∧
      Confined c := by
  obtain ⟨c, hrun⟩ : ∃ c, run step {}
      [.invoke 0 0 (some 1), .invoke 1 1 none, .invoke 0 0 none] = .ok c := ⟨_, rfl⟩
  exact ⟨c, hrun, (confined_iff fresh_default hrun).mpr (by decide)⟩

/-- Two threads call one proxy, and both put their requests into the queue of the first; and
one thread calls two proxies when the first key is 0, and goes on with a record that is no
longer its own. -/
theorem shared_proxy_not_confined :
    (∃ c, run step {} [.invoke 0 0 (some 1), .invoke 1 0 none] = .ok c ∧
      c.chosen = [
        { thread := 0, proxy := 0, record := 0, index := 0, own := some 0, key := 1 },
        { thread := 1, proxy := 0, record := 0, index := 0, own := some 1, key := 1 }] ∧
      ¬ Confined c) ∧
    ∃ c, run step {} [.invoke 0 0 (some 0), .invoke 0 1 (some 1), .invoke 0 0 none] = .ok c ∧
      c.chosen = [
        { thread := 0, proxy := 0, record := 0, index := 0, own := some 0, key := 0 },
        { thread := 0, proxy := 1, record := 1, index := 0, own := some 1, key := 1 },
        { thread := 0, proxy := 0, record := 0, index := 0, own := some 1, key := 1 }] ∧
      ¬ Confined c := by
  refine ⟨⟨_, rfl, rfl, ?_⟩, _, rfl, rfl, ?_⟩
  · rintro ⟨hown, -⟩
    have hsecond := hown
      { thread := 1, proxy := 0, record := 0, index := 0, own := some 1, key := 1 }
      (List.mem_cons_of_mem _ List.mem_cons_self)
    exact absurd hsecond (by decide)
  · rintro ⟨hown, -⟩
    have hthird := hown
      { thread := 0, proxy := 0, record := 0, index := 0, own := some 1, key := 1 }
      (List.mem_cons_of_mem _ (List.mem_cons_of_mem _ List.mem_cons_self))
    exact absurd hthird (by decide)

end Client

end Tarsx
