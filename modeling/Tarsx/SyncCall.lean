/-
A synchronous call: the thread in `tars_invoke` and the network thread in `finishInvoke`
on one message, one access or monitor operation at a time and interleaved in any way.
-/
import Tarsx.Foundation.Run
import Tarsx.Memory
import Tarsx.Message
import Tarsx.Monitor

namespace Tarsx

open Foundation

/-- The two threads that use the monitor of a message. -/
inductive Party where
  | caller
  | finisher
deriving DecidableEq, Repr

/-- Where the caller is, from the first test of `monitorFin` in `invoke` to the end of
`tars_invoke`: the step it makes next. -/
inductive CallerPc where
  /-- `if (!msg->monitorFin)`, without the lock -/
  | test
  /-- `Lock lock(*(msg->monitor))` -/
  | lock
  /-- the second `if (!msg->monitorFin)` -/
  | retest
  | wait
  /-- inside `pthread_cond_wait` -/
  | blocked
  /-- the `notifyImpl` of `unlock` -/
  | signal
  | release
  /-- `resp = std::move(msg->response)` -/
  | take
  /-- `delete msg` -/
  | delete
  | done
deriving DecidableEq, Repr

/-- Where the finisher is in `finishInvoke`. -/
inductive FinisherPc where
  /-- `msg->response = response` -/
  | response
  | lock
  | notify
  /-- `msg->monitorFin = true` -/
  | monitorFin
  /-- the `notifyImpl` of `unlock` -/
  | signal
  | release
  | done
deriving DecidableEq, Repr

/-- The caller is between `lock` and `unlock`, and not inside `wait`. -/
def CallerPc.locked : CallerPc → Bool
  | .retest | .wait | .signal | .release => true
  | _ => false

/-- The caller has left the monitor for good. -/
def CallerPc.leaves : CallerPc → Bool
  | .signal | .release | .take | .delete | .done => true
  | _ => false

def FinisherPc.locked : FinisherPc → Bool
  | .notify | .monitorFin | .signal | .release => true
  | _ => false

/-- `monitorFin` is set. -/
def FinisherPc.finished : FinisherPc → Bool
  | .signal | .release | .done => true
  | _ => false

/-- The message with its monitor until it is deleted, the two threads, and what `resp`
got. -/
structure SyncCall where
  shared : Option (ReqMessage × Monitor Party)
  caller : CallerPc := .test
  finisher : FinisherPc := .response
  resp : Option (List UInt8) := none
deriving DecidableEq, Repr

inductive SyncAction where
  | caller
  | finisher
  /-- `pthread_cond_wait` of the caller ends without a signal. -/
  | spuriousWake
deriving DecidableEq, Repr

namespace SyncCall

/-- What a synchronous `invoke` leaves before its first test. -/
def invoked (msg : ReqMessage) : SyncCall :=
  { shared := some ({ msg with type := .syncCall, monitorFin := false }, {}) }

/-- The next step of the caller.  While it has to wait for the mutex, nothing happens.  A
mutex that is held is not destroyed: `~Mutex` ends the process. -/
def callerStep (s : SyncCall) : Except Fault SyncCall :=
  match s.caller, s.shared with
  | .done, _ => .ok s
  | _, none => .error .danglingPointer
  | .test, some (msg, _) => .ok { s with caller := if msg.monitorFin then .take else .lock }
  | .lock, some (msg, monitor) =>
      match monitor.lock .caller with
      | none => .ok s
      | some locked => .ok { s with shared := some (msg, locked), caller := .retest }
  | .retest, some (msg, _) =>
      .ok { s with caller := if msg.monitorFin then .signal else .wait }
  | .wait, some (msg, monitor) =>
      .ok { s with shared := some (msg, monitor.wait .caller []), caller := .blocked }
  | .blocked, some (msg, monitor) =>
      match monitor.resume .caller with
      | none => .ok s
      | some resumed => .ok { s with shared := some (msg, resumed), caller := .signal }
  | .signal, some (msg, monitor) =>
      .ok { s with shared := some (msg, monitor.notifyImpl []), caller := .release }
  | .release, some (msg, monitor) =>
      .ok { s with shared := some (msg, monitor.release), caller := .take }
  | .take, some (msg, monitor) =>
      .ok { s with
        shared := some ({ msg with response := [] }, monitor)
        resp := some msg.response, caller := .delete }
  | .delete, some (_, monitor) =>
      match monitor.holder with
      | some _ => .error .aborted
      | none => .ok { s with shared := none, caller := .done }

/-- The next step of the finisher. -/
def finisherStep (response : List UInt8) (s : SyncCall) : Except Fault SyncCall :=
  match s.finisher, s.shared with
  | .done, _ => .ok s
  | _, none => .error .danglingPointer
  | .response, some (msg, monitor) =>
      .ok { s with
        shared := some ({ msg with response := response }, monitor), finisher := .lock }
  | .lock, some (msg, monitor) =>
      match monitor.lock .finisher with
      | none => .ok s
      | some locked => .ok { s with shared := some (msg, locked), finisher := .notify }
  | .notify, some (msg, monitor) => do
      let notified ← monitor.notify
      .ok { s with shared := some (msg, notified), finisher := .monitorFin }
  | .monitorFin, some (msg, monitor) =>
      .ok { s with
        shared := some ({ msg with monitorFin := true }, monitor), finisher := .signal }
  | .signal, some (msg, monitor) =>
      .ok { s with shared := some (msg, monitor.notifyImpl []), finisher := .release }
  | .release, some (msg, monitor) =>
      .ok { s with shared := some (msg, monitor.release), finisher := .done }

def step (response : List UInt8) (s : SyncCall) : SyncAction → Except Fault SyncCall
  | .caller => s.callerStep
  | .finisher => s.finisherStep response
  | .spuriousWake =>
      match s.shared with
      | none => .ok s
      | some (msg, monitor) =>
          .ok { s with shared := some (msg, monitor.spuriousWake .caller) }

/-! ### What must hold, and when it does -/

/-- When the caller has taken the response, or deleted the message as well, `finishInvoke`
is through: it has stored the response, set `monitorFin` and released the monitor. -/
def TakenAfterFinish (response : List UInt8) (s : SyncCall) : Prop :=
  s.caller = .delete ∨ s.caller = .done → s.finisher = .done ∧ s.resp = some response

/-- The unlocked test does not see `monitorFin` while the finisher still holds the monitor,
and `wait` does not return before `monitorFin` is set. -/
def KeepsOrder (s : SyncCall) : SyncAction → Prop
  | .caller =>
      match s.shared with
      | none => True
      | some (msg, monitor) =>
          (s.caller = .test → msg.monitorFin = true → monitor.holder ≠ some .finisher) ∧
          (s.caller = .blocked → (monitor.resume .caller).isSome = true →
            msg.monitorFin = true)
  | _ => True

instance : ∀ (s : SyncCall) (action : SyncAction), Decidable (KeepsOrder s action)
  | ⟨none, _, _, _⟩, .caller => isTrue trivial
  | ⟨some _, _, _, _⟩, .caller => inferInstanceAs (Decidable (_ ∧ _))
  | _, .finisher => isTrue trivial
  | _, .spuriousWake => isTrue trivial

instance (response : List UInt8) (s : SyncCall) : Decidable (TakenAfterFinish response s) :=
  inferInstanceAs (Decidable (_ → _))

/-! ### The invariant -/

/-- What holds while the message exists. -/
structure Alive (response : List UInt8) (s : SyncCall) (msg : ReqMessage)
    (monitor : Monitor Party) : Prop where
  monitorFin : msg.monitorFin = s.finisher.finished
  callerHolds : monitor.holder = some .caller ↔ s.caller.locked = true
  finisherHolds : monitor.holder = some .finisher ↔ s.finisher.locked = true
  response : s.finisher ≠ .response → s.caller ≠ .delete → msg.response = response
  counted : s.finisher = .notify → monitor.notify_ = 0

structure Sound (response : List UInt8) (s : SyncCall) : Prop where
  alive : ∀ msg monitor, s.shared = some (msg, monitor) → Alive response s msg monitor
  deleted : s.shared = none ↔ s.caller = .done
  leaves : s.caller.leaves = true → s.finisher = .done
  resp : s.caller = .delete ∨ s.caller = .done → s.resp = some response

section Steps

variable {response : List UInt8} {s t : SyncCall} {msg : ReqMessage} {monitor : Monitor Party}

/-- While the message exists it is enough to look at it and its monitor. -/
theorem Alive.sound (h : Alive response t msg monitor) (hshared : t.shared = some (msg, monitor))
    (hdone : t.caller ≠ .done) (hleaves : t.caller.leaves = true → t.finisher = .done)
    (hresp : t.caller = .delete → t.resp = some response) : Sound response t where
  alive := by
    intro msg' monitor' hshared'
    rw [hshared, Option.some.injEq, Prod.mk.injEq] at hshared'
    exact hshared'.1 ▸ hshared'.2 ▸ h
  deleted := by
    rw [hshared]
    exact ⟨fun hnone => by contradiction, fun heq => absurd heq hdone⟩
  leaves := hleaves
  resp := fun htaken => htaken.elim hresp fun heq => absurd heq hdone

/-- A caller that holds the monitor and sees `monitorFin` knows that the finisher is
through. -/
theorem Alive.finisher_done (h : Alive response s msg monitor)
    (hfin : msg.monitorFin = true) (hfree : monitor.holder ≠ some .finisher) :
    s.finisher = .done := by
  have hfinished := h.monitorFin.symm.trans hfin
  have hunlocked : ¬ s.finisher.locked = true := fun hlocked => hfree (h.finisherHolds.mpr hlocked)
  cases hpc : s.finisher <;> simp_all [FinisherPc.finished, FinisherPc.locked]

/-- When both are through with the monitor, nobody holds it. -/
theorem Alive.free (h : Alive response s msg monitor) (hcaller : s.caller = .delete)
    (hfinisher : s.finisher = .done) : monitor.holder = none := by
  cases hholder : monitor.holder with
  | none => rfl
  | some party =>
      cases party with
      | caller =>
          have hlocked := h.callerHolds.mp hholder
          rw [hcaller] at hlocked
          contradiction
      | finisher =>
          have hlocked := h.finisherHolds.mp hholder
          rw [hfinisher] at hlocked
          contradiction

/-- A step of the caller that leaves the mutex with its holder. -/
theorem Alive.moved (h : Alive response s msg monitor) (pc : CallerPc)
    (monitor' : Monitor Party) (hholder : monitor'.holder = monitor.holder)
    (hcount : monitor'.notify_ = monitor.notify_) (hlocked : pc.locked = s.caller.locked)
    (hbefore : s.caller ≠ .delete) (hpc : pc ≠ .done ∧ pc ≠ .delete)
    (hleaves : pc.leaves = true → s.finisher = .done) :
    Sound response { s with shared := some (msg, monitor'), caller := pc } := by
  refine Alive.sound ⟨h.monitorFin, ?_, ?_, fun hstored _ => h.response hstored hbefore, ?_⟩
    rfl hpc.1 hleaves fun heq => absurd heq hpc.2
  · rw [hholder, hlocked, h.callerHolds]
  · rw [hholder, h.finisherHolds]
  · exact fun hnotify => hcount.trans (h.counted hnotify)

/-- A step of the caller that takes the mutex or gives it up. -/
theorem Alive.gripped (h : Alive response s msg monitor) (pc : CallerPc)
    (monitor' : Monitor Party) (hfree : monitor.holder ≠ some .finisher)
    (hholder : monitor'.holder = if pc.locked then some .caller else none)
    (hbefore : s.caller ≠ .delete) (hpc : pc ≠ .done ∧ pc ≠ .delete)
    (hleaves : pc.leaves = true → s.finisher = .done) :
    Sound response { s with shared := some (msg, monitor'), caller := pc } := by
  refine Alive.sound ⟨h.monitorFin, ?_, ?_, fun hstored _ => h.response hstored hbefore, ?_⟩
    rfl hpc.1 hleaves fun heq => absurd heq hpc.2
  · rw [hholder]
    cases pc.locked <;> simp
  · rw [← h.finisherHolds, hholder]
    refine ⟨fun heq => ?_, fun heq => absurd heq hfree⟩
    split at heq <;> contradiction
  · intro hnotify
    exact absurd (h.finisherHolds.mpr (by rw [show s.finisher = .notify from hnotify]; rfl)) hfree

/-- The next step of the caller does not fault, and the invariant stays. -/
theorem Sound.caller (h : Sound response s) (hkeeps : KeepsOrder s .caller) :
    ∃ t, s.callerStep = .ok t ∧ Sound response t := by
  obtain ⟨shared, caller, finisher, resp⟩ := s
  cases shared with
  | none =>
      have hdone := h.deleted.mp rfl
      simp only at hdone
      subst hdone
      exact ⟨_, rfl, h⟩
  | some object =>
      obtain ⟨msg, monitor⟩ := object
      have halive := h.alive msg monitor rfl
      obtain ⟨htest, hwait⟩ := hkeeps
      cases caller with
      | test =>
          by_cases hfin : msg.monitorFin = true
          · have hdone := halive.finisher_done hfin (htest rfl hfin)
            refine ⟨_, ?_, halive.moved .take monitor rfl rfl rfl (by simp) (by simp)
              fun _ => hdone⟩
            simp only [callerStep, if_pos hfin]
          · refine ⟨_, ?_, halive.moved .lock monitor rfl rfl rfl (by simp) (by simp)
              fun hleaves => by contradiction⟩
            simp only [callerStep, if_neg hfin]
      | lock =>
          cases hlock : monitor.lock .caller with
          | none => exact ⟨_, by simp only [callerStep, hlock], h⟩
          | some locked =>
              obtain ⟨hbefore, hafter⟩ := Monitor.holder_of_lock hlock
              refine ⟨_, ?_, halive.gripped .retest locked (by simp [hbefore]) hafter
                (by simp) (by simp) fun hleaves => by contradiction⟩
              simp only [callerStep, hlock]
      | retest =>
          have hheld := halive.callerHolds.mpr rfl
          by_cases hfin : msg.monitorFin = true
          · have hdone := halive.finisher_done hfin (by simp [hheld])
            refine ⟨_, ?_, halive.moved .signal monitor rfl rfl rfl (by simp) (by simp)
              fun _ => hdone⟩
            simp only [callerStep, if_pos hfin]
          · refine ⟨_, ?_, halive.moved .wait monitor rfl rfl rfl (by simp) (by simp)
              fun hleaves => by contradiction⟩
            simp only [callerStep, if_neg hfin]
      | wait =>
          have hheld := halive.callerHolds.mpr rfl
          exact ⟨_, rfl, halive.gripped .blocked (monitor.wait .caller []) (by simp [hheld]) rfl
            (by simp) (by simp) fun hleaves => by contradiction⟩
      | blocked =>
          cases hresume : monitor.resume .caller with
          | none => exact ⟨_, by simp only [callerStep, hresume], h⟩
          | some resumed =>
              obtain ⟨hbefore, hafter⟩ := Monitor.holder_of_resume hresume
              have hdone := halive.finisher_done (hwait rfl (by simp [hresume]))
                (by simp [hbefore])
              refine ⟨_, ?_, halive.gripped .signal resumed (by simp [hbefore]) hafter
                (by simp) (by simp) fun _ => hdone⟩
              simp only [callerStep, hresume]
      | signal =>
          exact ⟨_, rfl, halive.moved .release (monitor.notifyImpl []) (by simp) (by simp) rfl
            (by simp) (by simp) fun _ => h.leaves rfl⟩
      | release =>
          have hheld := halive.callerHolds.mpr rfl
          exact ⟨_, rfl, halive.gripped .take monitor.release (by simp [hheld]) rfl
            (by simp) (by simp) fun _ => h.leaves rfl⟩
      | take =>
          have hdone := h.leaves rfl
          simp only at hdone
          subst hdone
          have htaken : Alive response ⟨some ({ msg with response := [] }, monitor), .delete,
              .done, some msg.response⟩ { msg with response := [] } monitor :=
            ⟨halive.monitorFin, halive.callerHolds, halive.finisherHolds,
              fun _ hcaller => absurd rfl hcaller, fun hnotify => by contradiction⟩
          refine ⟨_, rfl, htaken.sound rfl (by simp) (fun _ => rfl) fun _ => ?_⟩
          exact congrArg some (halive.response (by simp) (by simp))
      | delete =>
          have hfree := halive.free rfl (h.leaves rfl)
          refine ⟨⟨none, .done, finisher, resp⟩, by simp only [callerStep, hfree],
            fun _ _ hnone => by contradiction, ⟨fun _ => rfl, fun _ => rfl⟩,
            fun _ => h.leaves rfl, fun _ => h.resp (Or.inl rfl)⟩
      | done => exact ⟨_, rfl, h⟩

/-- A step of the finisher, while the caller has not left the monitor. -/
theorem Alive.advanced (h : Alive response s msg monitor)
    (hstays : s.caller.leaves ≠ true) (pc : FinisherPc) (msg' : ReqMessage)
    (monitor' : Monitor Party) (hfin : msg'.monitorFin = pc.finished)
    (hcaller : monitor'.holder = some .caller ↔ monitor.holder = some .caller)
    (hfinisher : monitor'.holder = some .finisher ↔ pc.locked = true)
    (hresponse : msg'.response = response) (hcounted : pc = .notify → monitor'.notify_ = 0) :
    Sound response { s with shared := some (msg', monitor'), finisher := pc } := by
  have halive : Alive response { s with shared := some (msg', monitor'), finisher := pc }
      msg' monitor' :=
    ⟨hfin, hcaller.trans h.callerHolds, hfinisher, fun _ _ => hresponse, hcounted⟩
  refine halive.sound rfl ?_ (fun hleaves => absurd hleaves hstays) ?_
  · intro hdone
    exact hstays (by rw [show s.caller = .done from hdone]; rfl)
  · intro hdelete
    exact absurd (by rw [show s.caller = .delete from hdelete]; rfl) hstays

/-- The finisher never meets a deleted message, and the invariant stays. -/
theorem Sound.finisher (h : Sound response s) :
    ∃ t, s.finisherStep response = .ok t ∧ Sound response t := by
  by_cases hdone : s.finisher = .done
  · exact ⟨s, by simp only [finisherStep, hdone], h⟩
  have hstays : s.caller.leaves ≠ true := fun hleaves => hdone (h.leaves hleaves)
  obtain ⟨shared, caller, finisher, resp⟩ := s
  cases shared with
  | none =>
      have hcaller := h.deleted.mp rfl
      simp only at hcaller
      exact absurd (by rw [hcaller]; rfl) hstays
  | some object =>
      obtain ⟨msg, monitor⟩ := object
      have halive := h.alive msg monitor rfl
      have hstored : finisher ≠ .response → msg.response = response := by
        intro hpc
        refine halive.response hpc fun hdelete => hstays ?_
        simp only at hdelete
        rw [hdelete]
        rfl
      cases finisher with
      | response =>
          exact ⟨_, rfl, halive.advanced hstays .lock { msg with response := response } monitor
            halive.monitorFin Iff.rfl halive.finisherHolds rfl (by simp)⟩
      | lock =>
          cases hlock : monitor.lock .finisher with
          | none => exact ⟨_, by simp only [finisherStep, hlock], h⟩
          | some locked =>
              obtain ⟨hbefore, rfl⟩ := Monitor.lock_eq_some hlock
              refine ⟨_, ?_, halive.advanced hstays .notify msg
                { monitor with holder := some .finisher, notify_ := 0 } halive.monitorFin ?_ ?_
                (hstored (by simp)) fun _ => rfl⟩
              · simp only [finisherStep, hlock]
              · simp [hbefore]
              · simp [FinisherPc.locked]
      | notify =>
          have hcount := halive.counted rfl
          have hnotify := Monitor.notify_of_lt (m := monitor) (by omega) (by omega)
          refine ⟨_, ?_, halive.advanced hstays .monitorFin msg
            { monitor with notify_ := monitor.notify_ + 1 } halive.monitorFin Iff.rfl
            halive.finisherHolds (hstored (by simp)) (by simp)⟩
          simp only [finisherStep, hnotify, bind, Except.bind]
      | monitorFin =>
          exact ⟨_, rfl, halive.advanced hstays .signal { msg with monitorFin := true } monitor
            rfl Iff.rfl halive.finisherHolds (hstored (by simp)) (by simp)⟩
      | signal =>
          have hholder : (monitor.notifyImpl []).holder = monitor.holder :=
            Monitor.notifyImpl_holder []
          exact ⟨_, rfl, halive.advanced hstays .release msg (monitor.notifyImpl [])
            halive.monitorFin (by rw [hholder]) (hholder ▸ halive.finisherHolds)
            (hstored (by simp)) (by simp)⟩
      | release =>
          have hheld := halive.finisherHolds.mpr rfl
          exact ⟨_, rfl, halive.advanced hstays .done msg monitor.release halive.monitorFin
            (by simp [hheld]) (by simp [FinisherPc.locked]) (hstored (by simp)) (by simp)⟩
      | done => contradiction

/-- A spurious wake-up changes nothing but the lists of `pthread_cond_wait`. -/
theorem Sound.spuriousWake (h : Sound response s) :
    ∃ t, step response s .spuriousWake = .ok t ∧ Sound response t := by
  obtain ⟨shared, caller, finisher, resp⟩ := s
  cases shared with
  | none => exact ⟨_, rfl, h⟩
  | some object =>
      obtain ⟨msg, monitor⟩ := object
      have halive := h.alive msg monitor rfl
      have hwoken : Alive response ⟨some (msg, monitor.spuriousWake .caller), caller, finisher,
          resp⟩ msg (monitor.spuriousWake .caller) :=
        ⟨halive.monitorFin, by simpa using halive.callerHolds,
          by simpa using halive.finisherHolds, halive.response,
          by simpa using halive.counted⟩
      refine ⟨_, rfl, hwoken.sound rfl ?_ h.leaves fun hdelete => h.resp (Or.inl hdelete)⟩
      intro hdone
      exact absurd (h.deleted.mpr hdone) (by simp)

theorem Sound.next (h : Sound response s) {action : SyncAction} (hkeeps : KeepsOrder s action) :
    ∃ t, step response s action = .ok t ∧ Sound response t := by
  cases action with
  | caller => exact h.caller hkeeps
  | finisher => exact h.finisher
  | spuriousWake => exact h.spuriousWake

theorem Sound.takenAfterFinish (h : Sound response s) : TakenAfterFinish response s := by
  intro htaken
  refine ⟨h.leaves ?_, h.resp htaken⟩
  rcases htaken with hpc | hpc <;> rw [hpc] <;> rfl

end Steps

theorem sound_invoked (response : List UInt8) (msg : ReqMessage) :
    Sound response (invoked msg) := by
  have halive : Alive response (invoked msg)
      { msg with type := .syncCall, monitorFin := false } {} :=
    ⟨rfl, by simp [invoked, CallerPc.locked], by simp [invoked, FinisherPc.locked],
      fun hpc => absurd rfl hpc, fun _ => rfl⟩
  exact halive.sound rfl (by simp [invoked]) (by simp [invoked, CallerPc.leaves])
    (by simp [invoked])

/-! ### Safe runs, and what follows a step out of order -/

/-- A caller that has taken the response while the finisher is not through. -/
theorem not_takenAfterFinish_of_delete {response : List UInt8} {s : SyncCall}
    (hcaller : s.caller = .delete) (hfinisher : s.finisher ≠ .done) :
    ¬ TakenAfterFinish response s :=
  fun htaken => hfinisher (htaken (Or.inl hcaller)).1

/-- After a step out of order the caller goes on alone, takes the response and is ahead of
the finisher. -/
theorem Sound.overtakes {response : List UInt8} {s : SyncCall} (h : Sound response s)
    {action : SyncAction} (hbreaks : ¬ KeepsOrder s action) :
    ∃ n last, run (step response) s (action :: List.replicate n .caller) = .ok last ∧
      ¬ TakenAfterFinish response last := by
  obtain ⟨shared, caller, finisher, resp⟩ := s
  cases action with
  | finisher => exact absurd trivial hbreaks
  | spuriousWake => exact absurd trivial hbreaks
  | caller =>
      cases shared with
      | none => exact absurd trivial hbreaks
      | some object =>
      obtain ⟨msg, monitor⟩ := object
      have halive := h.alive msg monitor rfl
      by_cases htest :
          caller = .test ∧ msg.monitorFin = true ∧ monitor.holder = some .finisher
      · obtain ⟨rfl, hfin, hheld⟩ := htest
        have hlocked := halive.finisherHolds.mp hheld
        refine ⟨1, ⟨some ({ msg with response := [] }, monitor), .delete, finisher,
          some msg.response⟩, ?_, not_takenAfterFinish_of_delete rfl ?_⟩
        · simp [run, step, callerStep, hfin]
        · rintro rfl
          exact Bool.false_ne_true hlocked
      · have hwakes : caller = .blocked ∧ (monitor.resume .caller).isSome = true ∧
            msg.monitorFin ≠ true := by
          by_contra hno
          exact hbreaks ⟨fun hpc hfin hheld => htest ⟨hpc, hfin, hheld⟩,
            fun hpc hresumes => by_contra fun hfin => hno ⟨hpc, hresumes, hfin⟩⟩
        obtain ⟨rfl, hresumes, hfin⟩ := hwakes
        obtain ⟨resumed, hresume⟩ := Option.isSome_iff_exists.mp hresumes
        refine ⟨3, ⟨some ({ msg with response := [] }, (resumed.notifyImpl []).release),
          .delete, finisher, some msg.response⟩, ?_, not_takenAfterFinish_of_delete rfl ?_⟩
        · simp [run, step, callerStep, hresume]
        · rintro rfl
          exact hfin halive.monitorFin

/-- The caller takes the response and deletes the message only after the finisher is
through in every run whose steps keep the order, and a run can be continued to where it
does so earlier as soon as a step does not. -/
theorem takenAfterFinish_of_keepsOrder (response : List UInt8) (msg : ReqMessage) :
    (∀ actions, Along (step response) KeepsOrder (invoked msg) actions →
      Stays (step response) (TakenAfterFinish response) (invoked msg) actions) ∧
    ∀ actions s action, Along (step response) KeepsOrder (invoked msg) actions →
      run (step response) (invoked msg) actions = .ok s → ¬ KeepsOrder s action →
      ∃ n last, run (step response) s (action :: List.replicate n .caller) = .ok last ∧
        ¬ TakenAfterFinish response last := by
  constructor
  · intro actions halong
    exact stays_of_along (fun _ h => h.takenAfterFinish)
      (fun _ _ h hkeeps => h.next hkeeps) (sound_invoked response msg) halong
  · intro actions s action halong hrun hbreaks
    have hsound : Sound response s := by
      refine run_invariant_of_along ?_ (sound_invoked response msg) halong hrun
      intro s action next h hkeeps hstep
      obtain ⟨t, ht, hnext⟩ := h.next hkeeps
      exact Except.ok.inj (ht.symm.trans hstep) ▸ hnext
    exact hsound.overtakes hbreaks

/-- The caller waits, the finisher wakes it and both end; or its first test comes when the
finisher has just set `monitorFin`. -/
theorem waiting_call_taken :
    Stays (step [1]) (TakenAfterFinish [1]) (invoked {})
      [.caller, .caller, .caller, .caller, .finisher, .finisher, .finisher, .finisher,
        .finisher, .finisher, .caller, .caller, .caller, .caller, .caller] ∧
    ∃ s, run (step [1]) (invoked {}) [.finisher, .finisher, .finisher, .finisher] = .ok s ∧
      ∃ n last, run (step [1]) s (.caller :: List.replicate n .caller) = .ok last ∧
        ¬ TakenAfterFinish [1] last := by
  obtain ⟨hsafe, hunsafe⟩ := takenAfterFinish_of_keepsOrder [1] {}
  refine ⟨hsafe _ (by decide), _, rfl, ?_⟩
  exact hunsafe [.finisher, .finisher, .finisher, .finisher] _ .caller (by decide) rfl
    (by decide)

/-- The unlocked test sees `monitorFin` while the finisher still holds the monitor: the caller
takes the response and deletes the message under it, which ends the process.  And after a
spurious wake-up the caller takes an empty response and deletes the message before the
finisher has begun, which then uses it. -/
theorem deleted_under_finisher :
    (∃ s, run (step [1]) (invoked {})
        [.finisher, .finisher, .finisher, .finisher, .caller, .caller] = .ok s ∧
      s.caller = .delete ∧ s.finisher = .signal ∧ ¬ TakenAfterFinish [1] s ∧
      step [1] s .caller = .error .aborted) ∧
    ∃ s, run (step [1]) (invoked {})
        [.caller, .caller, .caller, .caller, .spuriousWake, .caller, .caller, .caller,
          .caller, .caller] = .ok s ∧
      s.resp = some [] ∧ s.finisher = .response ∧ ¬ TakenAfterFinish [1] s ∧
      step [1] s .finisher = .error .danglingPointer := by
  constructor
  · exact ⟨_, rfl, rfl, rfl, by decide, rfl⟩
  · exact ⟨_, rfl, rfl, rfl, by decide, rfl⟩

end SyncCall

end Tarsx
