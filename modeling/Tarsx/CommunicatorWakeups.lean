/-
Whether a request that was pushed and notified is still going to be taken.  All
threads notify through slot 0, which holds one queue pointer, so a notify takes the
pointer away from the thread that notified before.  No request is stranded exactly
when each notify finds the queues of the other threads drained.
-/
import Tarsx.Communicator

namespace Tarsx

open Foundation

namespace Communicator

/-- The requests in the queue of a thread. -/
def requestsOf (c : Communicator) (thread : Nat) : List ReqMessage :=
  match (c.threads thread).reqQueue with
  | none => []
  | some queue => queue.elements

/-- The thread is inside `invoke` with a `notify` still to come. -/
def Notifying (c : Communicator) (thread : Nat) : Prop :=
  ∃ owner again msg sync, c.stage thread = .notifying owner again msg sync

/-- An event that is not yet handled belongs to a slot that points to the thread's
queue. -/
def Woken (c : Communicator) (thread : Nat) : Prop :=
  ∃ seq, (seq ∈ c.events ∨ c.taken = some seq) ∧ (c.notify seq).p = some thread

/-- No thread that has completed its notify has requests that no event leads to. -/
def NoneStranded (c : Communicator) : Prop :=
  ∀ thread, ¬ c.Notifying thread → c.requestsOf thread ≠ [] → c.Woken thread

/-- A thread invokes only proxies that keep its own thread data, so it pushes on its
own queue. -/
def OwnQueue (c : Communicator) : Action → Prop
  | .invoke thread proxy _ _ _ _ => ∀ owner, c.sptd proxy = some owner → owner = thread
  | _ => True

/-- A notify finds the queue of every other thread that has completed its notify
empty. -/
def OthersDrained (c : Communicator) : Action → Prop
  | .notify thread =>
      c.Notifying thread →
        ∀ other, other ≠ thread → ¬ c.Notifying other → c.requestsOf other = []
  | _ => True

/-! ### The invariant -/

/-- The queue of a thread, once there is one, has the size it was made for and holds
requests only. -/
def RequestQueue (queue : LoopQueue ReqMessage) : Prop :=
  queue.capacitySub = ServantProxyThreadData.queueSize ∧
    ∀ msg ∈ queue.elements, msg.type ≠ .threadExit

/-- Thread data as `selectNetThreadInfo` leaves it or finds it. -/
structure DataSound (data : ServantProxyThreadData) : Prop where
  netSeq : data.netSeq = 0
  present : data.queueInit = true →
    ∃ queue, data.reqQueue = some queue ∧ RequestQueue queue

/-- The invariant of every run in which the threads push on their own queues. -/
structure Sound (c : Communicator) : Prop where
  data : ∀ thread, DataSound (c.threads thread)
  own : ∀ thread owner again msg sync, c.stage thread = .notifying owner again msg sync →
    owner = thread ∧ (c.threads thread).queueInit = true
  events : ∀ seq, seq ∈ c.events ∨ c.taken = some seq → seq = 0
  pointer : ∀ owner, (c.notify 0).p = some owner → (c.threads owner).queueInit = true

section

variable {c next : Communicator} {thread : Nat}

theorem woken_iff (h : c.Sound) :
    c.Woken thread ↔ (0 ∈ c.events ∨ c.taken = some 0) ∧ (c.notify 0).p = some thread := by
  constructor
  · rintro ⟨seq, hseq, hp⟩
    have hzero := h.events seq hseq
    subst hzero
    exact ⟨hseq, hp⟩
  · exact fun hwoken => ⟨0, hwoken⟩

/-- `selectNetThreadInfo` makes the queue if there is none. -/
theorem select_ok {data : ServantProxyThreadData} (h : DataSound data) :
    ∃ selected queue, data.selectNetThreadInfo = .ok selected ∧
      selected.netSeq = 0 ∧ selected.queueInit = true ∧
      selected.reqQueue = some queue ∧ RequestQueue queue := by
  by_cases hinit : data.queueInit
  · rcases h.present hinit with ⟨queue, hqueue, hsound⟩
    exact ⟨data, queue, by simp [ServantProxyThreadData.selectNetThreadInfo, hinit],
      h.netSeq, hinit, hqueue, hsound⟩
  · have hsize : ServantProxyThreadData.queueSize < 10000 := by decide
    rcases @LoopQueue.create_of_lt ReqMessage _ _ hsize with
      ⟨queue, hcreate, helements, hcapacity⟩
    refine ⟨{ data with queueInit := true, reqQueue := some queue }, queue, ?_, h.netSeq,
      rfl, rfl, hcapacity, by simp [helements]⟩
    simp [ServantProxyThreadData.selectNetThreadInfo, hinit, hcreate, bind, Except.bind]

/-- A push of a request keeps the queue a queue of requests. -/
theorem requestQueue_pushBack {queue : LoopQueue ReqMessage} (h : RequestQueue queue)
    {msg : ReqMessage} (hmsg : msg.type ≠ .threadExit) :
    RequestQueue (queue.pushBack msg).2 := by
  by_cases hfull : queue.full
  · simpa [LoopQueue.pushBack, hfull] using h
  · rcases h with ⟨hcapacity, htypes⟩
    have hpos : 0 < queue.capacitySub := by simp [hcapacity, ServantProxyThreadData.queueSize]
    have helements := queue.elements_stored msg hpos (by simpa using hfull)
    simp only [LoopQueue.pushBack, hfull, Bool.false_eq_true, if_false]
    refine ⟨hcapacity, ?_⟩
    intro other hother
    rw [helements] at hother
    rcases List.mem_append.mp hother with hold | hnew
    · exact htypes other hold
    · rw [List.mem_singleton.mp hnew]
      exact hmsg

/-- The drain passes on every request and leaves the queue empty. -/
theorem drain_requests :
    ∀ {fuel : Nat} {queue : LoopQueue ReqMessage}, queue.elements.length < fuel →
      RequestQueue queue → ∃ last, drain fuel queue = .ok (queue.elements, some last) ∧
        RequestQueue last ∧ last.elements = [] := by
  intro fuel
  induction fuel with
  | zero => exact fun hfuel => absurd hfuel (Nat.not_lt_zero _)
  | succ fuel ih =>
      rintro queue hfuel ⟨hcapacity, htypes⟩
      cases helements : queue.elements with
      | nil =>
          have hpop := queue.popFront_of_empty helements
          exact ⟨queue, by simp [drain, hpop], ⟨hcapacity, htypes⟩, helements⟩
      | cons msg rest =>
          rcases queue.popFront_of_elements helements with ⟨hpop, hrest⟩
          have hmsg : msg.type ≠ .threadExit := htypes msg (by simp [helements])
          have hlength : queue.dropped.elements.length < fuel := by
            rw [hrest]
            rw [helements, List.length_cons] at hfuel
            exact Nat.lt_of_succ_lt_succ hfuel
          have hqueue : RequestQueue queue.dropped := by
            refine ⟨hcapacity, ?_⟩
            intro other hother
            rw [hrest] at hother
            exact htypes other (by simp [helements, hother])
          rcases ih hlength hqueue with ⟨last, hdrain, hlast, hempty⟩
          rw [hrest] at hdrain
          exact ⟨last, by simp [drain, hpop, hmsg, hdrain, bind, Except.bind], hlast, hempty⟩

/-! ### What a step does -/

/-- The push of an `invoke` on the thread's own queue. -/
theorem invoke_eq (h : c.Sound) {proxy : Nat} {sync : Bool}
    {funcName request : List UInt8} {now : Int}
    (hown : ∀ owner, c.sptd proxy = some owner → owner = thread) :
    ∃ data again msg,
      c.invoke thread proxy sync funcName request now = .ok { c with
        threads := Function.update c.threads thread data
        sptd := Function.update c.sptd proxy (some thread)
        stage := Function.update c.stage thread (.notifying thread again msg sync) } ∧
      DataSound data ∧ data.queueInit = true := by
  have howner : (c.sptd proxy).getD thread = thread := by
    cases hsptd : c.sptd proxy with
    | none => rfl
    | some owner => exact hown owner hsptd
  rcases select_ok (h.data thread) with
    ⟨selected, queue, hselect, hnetSeq, hinit, hqueue, hrequests⟩
  have hmsg : (requestMessage proxy sync funcName request now).type ≠ .threadExit := by
    cases sync <;> simp [requestMessage]
  have hpushed := requestQueue_pushBack hrequests hmsg
  rcases hpush : queue.pushBack (requestMessage proxy sync funcName request now) with
    ⟨⟨stored, empty⟩, pushed⟩
  rw [hpush] at hpushed
  refine ⟨{ selected with reqQueue := some pushed }, !stored,
    if stored then some (requestMessage proxy sync funcName request now) else none,
    ?_, ⟨hnetSeq, fun _ => ⟨pushed, rfl, hpushed⟩⟩, hinit⟩
  simp only [invoke, howner, hselect, hqueue, hpush, bind, Except.bind]

/-- A notify of the thread's own queue. -/
theorem notify_eq (h : c.Sound) {owner : Nat} {again sync : Bool}
    {msg : Option ReqMessage} (hstage : c.stage thread = .notifying owner again msg sync) :
    ∃ valid, c.invokeNotify thread = .ok { c with
      notify := Function.update c.notify 0 { valid := valid, p := some thread }
      events := c.events ++ [0]
      stage := Function.update c.stage thread
        (if again then .notifying thread false msg sync else .finishing msg sync) } := by
  rcases h.own thread owner again msg sync hstage with ⟨rfl, hinit⟩
  have hseq : (c.threads owner).netSeq = 0 := (h.data owner).netSeq
  refine ⟨true, ?_⟩
  cases hvalid : (c.notify 0).valid with
  | false => simp [invokeNotify, hstage, hseq, notifyQueue, hvalid, bind, Except.bind]
  | true => simp [invokeNotify, hstage, hseq, notifyQueue, hvalid, bind, Except.bind]

/-- Handling an event of slot 0 empties the queue that the slot points to. -/
theorem handle_eq (h : c.Sound) {owner : Nat} (hp : (c.notify 0).p = some owner) :
    ∃ last, c.handleNotify 0 = .ok { c with
        threads := Function.update c.threads owner
          { c.threads owner with reqQueue := some last }
        sent := c.sent ++ c.requestsOf owner } ∧
      RequestQueue last ∧ last.elements = [] := by
  have hinit := h.pointer owner hp
  rcases (h.data owner).present hinit with ⟨queue, hqueue, hrequests⟩
  have hlength : queue.elements.length < queue.size + 1 := by simp
  rcases drain_requests hlength hrequests with ⟨last, hdrain, hlast, hempty⟩
  refine ⟨last, ?_, hlast, hempty⟩
  simp [handleNotify, hp, hqueue, hdrain, requestsOf, bind, Except.bind]

/-! ### Steps keep the invariant -/

theorem Sound.updateThread (h : c.Sound) (thread : Nat) {data : ServantProxyThreadData}
    (hdata : DataSound data) (hinit : (c.threads thread).queueInit = true →
      data.queueInit = true) :
    Sound { c with threads := Function.update c.threads thread data } := by
  have hinits : ∀ other, (c.threads other).queueInit = true →
      (Function.update c.threads thread data other).queueInit = true := by
    intro other hother
    by_cases hsame : other = thread
    · subst hsame
      simpa using hinit hother
    · simpa [Function.update_of_ne hsame] using hother
  refine ⟨?_, ?_, h.events, ?_⟩
  · intro other
    by_cases hsame : other = thread
    · subst hsame
      simpa using hdata
    · simpa [Function.update_of_ne hsame] using h.data other
  · intro other owner again msg sync hstage
    rcases h.own other owner again msg sync hstage with ⟨howner, hother⟩
    exact ⟨howner, hinits other hother⟩
  · exact fun owner hp => hinits owner (h.pointer owner hp)

theorem Sound.updateStage (h : c.Sound) (thread : Nat) (stage : InvokeStage)
    (hstage : ∀ owner again msg sync, stage = .notifying owner again msg sync →
      owner = thread ∧ (c.threads thread).queueInit = true) :
    Sound { c with stage := Function.update c.stage thread stage } := by
  refine ⟨h.data, ?_, h.events, h.pointer⟩
  intro other owner again msg sync hother
  by_cases hsame : other = thread
  · subst hsame
    simp only [Function.update_self] at hother
    exact hstage owner again msg sync hother
  · simp only [Function.update_of_ne hsame] at hother
    exact h.own other owner again msg sync hother

theorem Sound.raise (h : c.Sound) (hinit : (c.threads thread).queueInit = true)
    (valid : Bool) :
    Sound { c with
      notify := Function.update c.notify 0 { valid := valid, p := some thread }
      events := c.events ++ [0] } := by
  refine ⟨h.data, h.own, ?_, ?_⟩
  · intro seq hevent
    rcases hevent with hmem | htaken
    · rcases List.mem_append.mp hmem with hold | hnew
      · exact h.events seq (Or.inl hold)
      · exact List.mem_singleton.mp hnew
    · exact h.events seq (Or.inr htaken)
  · intro owner hp
    simp only [Function.update_self, Option.some.injEq] at hp
    exact hp ▸ hinit

/-- The stage of one thread is no notify before and after a change of it. -/
theorem notifying_update_iff {stage : InvokeStage}
    (hold : ∀ owner again msg sync, c.stage thread ≠ .notifying owner again msg sync)
    (hnew : ∀ owner again msg sync, stage ≠ .notifying owner again msg sync) (other : Nat) :
    Notifying { c with stage := Function.update c.stage thread stage } other ↔
      c.Notifying other := by
  by_cases hsame : other = thread
  · subst hsame
    simp [Notifying, hold, hnew]
  · simp [Notifying, Function.update_of_ne hsame]

end

/-! ### The exact condition -/

/-- The invariant with the property itself. -/
structure Served (c : Communicator) : Prop where
  sound : c.Sound
  none_stranded : c.NoneStranded

section

variable {c next : Communicator} {thread : Nat}

theorem Served.invoke (h : c.Served) {proxy : Nat} {sync : Bool}
    {funcName request : List UInt8} {now : Int}
    (hown : ∀ owner, c.sptd proxy = some owner → owner = thread) :
    ∃ next, c.invoke thread proxy sync funcName request now = .ok next ∧ next.Served := by
  rcases invoke_eq h.sound hown with ⟨data, again, msg, hinvoke, hdata, hinit⟩
  refine ⟨_, hinvoke, ?_, ?_⟩
  · have hthread := h.sound.updateThread thread hdata fun _ => hinit
    have hstage := hthread.updateStage thread (.notifying thread again msg sync) (by
      intro owner again' msg' sync' hnotifying
      cases hnotifying
      exact ⟨rfl, by simpa using hinit⟩)
    exact ⟨hstage.data, hstage.own, hstage.events, hstage.pointer⟩
  · intro other hother hrequests
    have hne : other ≠ thread := by
      intro hsame
      exact hother ⟨thread, again, msg, sync, by simp [hsame]⟩
    have hstill : ¬ c.Notifying other := by
      simpa [Notifying, Function.update_of_ne hne] using hother
    have hqueue : c.requestsOf other ≠ [] := by
      simpa [requestsOf, Function.update_of_ne hne] using hrequests
    exact h.none_stranded other hstill hqueue

/-- A notify keeps the property exactly when the other threads' queues are drained. -/
theorem Served.notify (h : c.Served) :
    ∃ next, c.invokeNotify thread = .ok next ∧ next.Sound ∧
      (next.NoneStranded ↔ OthersDrained c (.notify thread)) := by
  by_cases hnotifying : c.Notifying thread
  · rcases hnotifying with ⟨owner, again, msg, sync, hstage⟩
    rcases notify_eq h.sound hstage with ⟨valid, hnotify⟩
    have hinit := (h.sound.own thread owner again msg sync hstage).2
    have hraised := h.sound.raise hinit valid
    have hsound := hraised.updateStage thread
      (if again then .notifying thread false msg sync else .finishing msg sync) (by
        intro owner' again' msg' sync' hnext
        cases again with
        | true =>
            cases hnext
            exact ⟨rfl, hinit⟩
        | false => contradiction)
    refine ⟨_, hnotify, hsound, ?_⟩
    constructor
    · intro hserved _ other hne hdone
      by_contra hrequests
      have hwoken := hserved other
        (by simpa [Notifying, Function.update_of_ne hne] using hdone) hrequests
      rcases (woken_iff hsound).mp hwoken with ⟨_, hp⟩
      simp only [Function.update_self, Option.some.injEq] at hp
      exact hne hp.symm
    · intro hdrained other hdone hrequests
      by_cases hne : other = thread
      · exact ⟨0, Or.inl (by simp), by simp [hne]⟩
      · have hstill : ¬ c.Notifying other := by
          simpa [Notifying, Function.update_of_ne hne] using hdone
        have hin : c.Notifying thread := ⟨owner, again, msg, sync, hstage⟩
        exact absurd (hdrained hin other hne hstill) hrequests
  · refine ⟨c, ?_, h.sound, ?_⟩
    · simp only [invokeNotify]
      split
      · exact absurd ⟨_, _, _, _, ‹_›⟩ hnotifying
      · rfl
    · exact iff_of_true h.none_stranded fun hin => absurd hin hnotifying

/-- The end of an `invoke` returns, or ends in the null pointer of a deleted
message. -/
theorem Served.finish (h : c.Served) :
    c.invokeFinish thread = .error .nullPointer ∨
      ∃ next, c.invokeFinish thread = .ok next ∧ next.Served := by
  have hidle : ∀ msg sync, c.stage thread = .finishing msg sync →
      Served { c with stage := Function.update c.stage thread .idle } := by
    intro msg sync hstage
    refine ⟨h.sound.updateStage thread .idle (by simp), ?_⟩
    intro other hother hrequests
    rw [notifying_update_iff (by simp [hstage]) (by simp)] at hother
    exact h.none_stranded other hother hrequests
  cases hstage : c.stage thread with
  | idle => exact Or.inr ⟨c, by simp [invokeFinish, hstage], h⟩
  | notifying owner again msg sync => exact Or.inr ⟨c, by simp [invokeFinish, hstage], h⟩
  | finishing msg sync =>
      cases sync with
      | false => exact Or.inr ⟨_, by simp [invokeFinish, hstage], hidle msg false hstage⟩
      | true =>
          cases msg with
          | none => exact Or.inl (by simp [invokeFinish, hstage])
          | some msg =>
              by_cases hsent : msg ∈ c.sent
              · exact Or.inr ⟨_, by simp [invokeFinish, hstage, hsent],
                  hidle (some msg) true hstage⟩
              · exact Or.inr ⟨c, by simp [invokeFinish, hstage, hsent], h⟩

theorem Served.take (h : c.Served) {seq : Nat} (hseq : seq ∈ c.events) :
    Served { c with events := c.events.erase seq, taken := some seq } := by
  have hzero := h.sound.events seq (Or.inl hseq)
  subst hzero
  refine ⟨⟨h.sound.data, h.sound.own, ?_, h.sound.pointer⟩, ?_⟩
  · intro other hother
    rcases hother with hmem | hnow
    · exact h.sound.events other (Or.inl (List.mem_of_mem_erase hmem))
    · exact (Option.some.inj hnow).symm
  · intro other hother hrequests
    rcases (woken_iff h.sound).mp (h.none_stranded other hother hrequests) with ⟨_, hp⟩
    exact ⟨0, Or.inr rfl, hp⟩

theorem Served.handle (h : c.Served) {seq : Nat} (htaken : c.taken = some seq) :
    ∃ next, handleNotify { c with taken := none } seq = .ok next ∧ next.Served := by
  have hzero := h.sound.events seq (Or.inr htaken)
  subst hzero
  have hsound : Sound { c with taken := none } := by
    refine ⟨h.sound.data, h.sound.own, ?_, h.sound.pointer⟩
    intro other hother
    rcases hother with hmem | hnone
    · exact h.sound.events other (Or.inl hmem)
    · contradiction
  cases hp : (c.notify 0).p with
  | none =>
      refine ⟨{ c with taken := none }, by simp [handleNotify, hp], hsound, ?_⟩
      intro other hother hrequests
      have hwoken := (woken_iff h.sound).mp (h.none_stranded other hother hrequests)
      simp [hp] at hwoken
  | some owner =>
      rcases handle_eq hsound hp with ⟨last, hhandle, hlast, hempty⟩
      have hdata : DataSound { c.threads owner with reqQueue := some last } :=
        ⟨(h.sound.data owner).netSeq, fun _ => ⟨last, rfl, hlast⟩⟩
      have hnext := hsound.updateThread owner hdata fun hinit => hinit
      refine ⟨_, hhandle, ⟨hnext.data, hnext.own, hnext.events, hnext.pointer⟩, ?_⟩
      intro other hother hrequests
      by_cases hsame : other = owner
      · subst hsame
        simp [requestsOf, hempty] at hrequests
      · have hqueue : c.requestsOf other ≠ [] := by
          simpa [requestsOf, Function.update_of_ne hsame] using hrequests
        have hwoken := (woken_iff h.sound).mp (h.none_stranded other hother hqueue)
        rw [hp, Option.some.injEq] at hwoken
        exact absurd hwoken.2.symm hsame

end

theorem initial_served : Served {} := by
  refine ⟨⟨?_, ?_, ?_, ?_⟩, ?_⟩
  · exact fun thread => ⟨rfl, by simp⟩
  · simp
  · simp
  · simp
  · intro thread _ hrequests
    exact absurd rfl hrequests

/-- One step: it keeps the property and the invariant, ends in the null pointer of a
deleted message, or is a notify, which keeps the property exactly under the
condition. -/
theorem served_step {c : Communicator} (h : c.Served) {action : Action}
    (hown : OwnQueue c action) :
    (OthersDrained c action ∧ step c action = .error .nullPointer) ∨
      ∃ next, step c action = .ok next ∧ next.Sound ∧
        (next.NoneStranded ↔ OthersDrained c action) := by
  have hkept : ∀ next, step c action = .ok next ∧ next.Served → OthersDrained c action →
      ∃ next, step c action = .ok next ∧ next.Sound ∧
        (next.NoneStranded ↔ OthersDrained c action) :=
    fun next hnext hdrained => ⟨next, hnext.1, hnext.2.sound,
      iff_of_true hnext.2.none_stranded hdrained⟩
  cases action with
  | invoke thread proxy sync funcName request now =>
      apply Or.inr
      by_cases hidle : c.stage thread = .idle
      · rcases h.invoke hown with ⟨next, hnext⟩
        exact hkept next (by simpa [step, hidle] using hnext) trivial
      · exact hkept c ⟨by simp [step, hidle], h⟩ trivial
  | notify thread => exact Or.inr h.notify
  | finish thread =>
      rcases h.finish with hfault | ⟨next, hnext⟩
      · exact Or.inl ⟨trivial, hfault⟩
      · exact Or.inr (hkept next hnext trivial)
  | take seq =>
      apply Or.inr
      by_cases htake : c.taken = none ∧ seq ∈ c.events
      · exact hkept _ ⟨by simp [step, htake], h.take htake.2⟩ trivial
      · exact hkept c ⟨by simp [step, htake], h⟩ trivial
  | handle =>
      apply Or.inr
      cases htaken : c.taken with
      | none => exact hkept c ⟨by simp [step, htaken], h⟩ trivial
      | some seq =>
          rcases h.handle htaken with ⟨next, hnext⟩
          exact hkept next (by simpa [step, htaken] using hnext) trivial

/-- Over every interleaving of client threads that push on their own queues with the
network thread: a thread that has completed its notify and has requests in its queue
always has an event that leads to them, exactly when every notify finds the queues of
the other threads that have completed theirs empty. -/
theorem none_stranded_iff_others_drained (actions : List Action)
    (hown : Along step OwnQueue {} actions) :
    StaysUpTo (fun fault => fault = .nullPointer) step NoneStranded {} actions ↔
      Along step OthersDrained {} actions := by
  apply staysUpTo_iff_along (fun c (h : Served c) => h.none_stranded) ?_ ?_ ?_
    initial_served hown
  · intro c action next h hown hdrained hstep
    rcases served_step h hown with ⟨_, hfault⟩ | ⟨other, hother, hsound, hiff⟩
    · rw [hstep] at hfault
      contradiction
    · exact Except.ok.inj (hother.symm.trans hstep) ▸ ⟨hsound, hiff.mpr hdrained⟩
  · intro c action fault h hown hstep
    rcases served_step h hown with ⟨hdrained, hfault⟩ | ⟨other, hother, _, _⟩
    · exact iff_of_true (Except.error.inj (hstep.symm.trans hfault)) hdrained
    · rw [hstep] at hother
      contradiction
  · intro c action next h hown hbad hstep
    rcases served_step h hown with ⟨_, hfault⟩ | ⟨other, hother, _, hiff⟩
    · rw [hstep] at hfault
      contradiction
    · exact Except.ok.inj (hother.symm.trans hstep) ▸ mt hiff.mp hbad

/-- Thread 2 notifies after the request of thread 1 was handled. -/
theorem none_stranded_in_turn :
    StaysUpTo (fun fault => fault = .nullPointer) step NoneStranded {}
      [.invoke 1 0 true [97] [98] 0, .notify 1, .take 0, .handle,
        .invoke 2 1 true [97] [99] 0, .notify 2] := by
  apply (none_stranded_iff_others_drained _ ?_).mpr
  · refine .cons_of_ok trivial rfl (.cons_of_ok ?_ rfl (.cons_of_ok trivial rfl
      (.cons_of_ok trivial rfl (.cons_of_ok trivial rfl (.cons_of_ok ?_ rfl trivial)))))
    · intro _ other hother _
      simp [requestsOf, Function.update_of_ne hother]
    · intro _ other hother _
      by_cases hfirst : other = 1
      · subst hfirst
        rfl
      · simp [requestsOf, Function.update_of_ne hother, Function.update_of_ne hfirst]
  · refine .cons_of_ok ?_ rfl (.cons_of_ok trivial rfl (.cons_of_ok trivial rfl
      (.cons_of_ok trivial rfl (.cons_of_ok ?_ rfl (.cons_of_ok trivial rfl trivial)))))
    · simp [OwnQueue]
    · simp [OwnQueue]

/-- Threads 1 and 2 call through a proxy each before the network thread takes an
event. -/
def twoCalls : List Action :=
  [.invoke 1 0 true [97] [98] 0, .notify 1, .invoke 2 1 true [97] [99] 0, .notify 2,
    .take 0, .handle, .take 0, .handle]

/-- Both events are handled, and the request of thread 1 is still in its queue. -/
theorem first_call_stranded :
    (∃ last, run step {} twoCalls = .ok last ∧ last.events = [] ∧ last.taken = none ∧
        ¬ last.Notifying 1 ∧ (last.requestsOf 1).length = 1) ∧
      ¬ StaysUpTo (fun fault => fault = .nullPointer) step NoneStranded {} twoCalls := by
  have hlast : ∃ last, run step {} twoCalls = .ok last ∧ last.events = [] ∧
      last.taken = none ∧ ¬ last.Notifying 1 ∧ (last.requestsOf 1).length = 1 := by
    refine ⟨_, rfl, rfl, rfl, ?_, rfl⟩
    rintro ⟨owner, again, msg, sync, hstage⟩
    contradiction
  refine ⟨hlast, ?_⟩
  intro hstays
  rcases hlast with ⟨last, hrun, hevents, htaken, hdone, hone⟩
  have hrequests : last.requestsOf 1 ≠ [] := by
    intro hempty
    simp [hempty] at hone
  rcases hstays.last hrun 1 hdone hrequests with ⟨seq, hseq, _⟩
  simp [hevents, htaken] at hseq

end Communicator

end Tarsx
