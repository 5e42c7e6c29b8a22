/-
What becomes of the requests that `handleRequest` takes: each is handled or is the
callback of a coroutine on `avail_`, unless `createCoroutine` returned 0 for it, after
its pointer was released, or `run` left its loop before that coroutine was switched to.
-/
import Tarsx.HandleLoop

namespace Tarsx

open Foundation

namespace CoroutineScheduler

section

variable {s : CoroutineScheduler} {queues : CoroStatus → List Nat}

/-- A wake-up leaves the coroutines that are on `avail_` there. -/
theorem avail_of_woken (h : s.Inv queues) {active need : List Nat} {entries : List (Int × Nat)}
    {next : CoroutineScheduler} {waiting : List CoroStatus} {target : CoroStatus}
    {ids : List Nat} {queues' : CoroStatus → List Nat}
    (hwoken : Woken { s with
        activeCoroQueue := active
        needActiveCoroId := need
        timeoutCoroId := entries } next waiting target ids queues')
    (hwaiting : .avail ∉ waiting) : ∀ uid ∈ queues .avail, uid ∈ queues' .avail := by
  intro uid huid
  have hold := status_of_mem h.lists huid
  apply (hwoken.inv.lists.named .avail uid).mpr
  refine ⟨(hwoken.made uid).mpr (made_of_mem h.lists huid), ?_⟩
  rw [hwoken.status, wokenStatus, hold]
  simp [hwaiting]

/-- So do the three of a turn of `tars_run`. -/
theorem wakeups_avail (h : s.Inv queues) {now : Int} {timed woken next : CoroutineScheduler}
    (htimeout : s.wakeupbytimeout now = .ok timed) (hself : timed.wakeupbyself = .ok woken)
    (hwakeup : woken.wakeup = .ok next) :
    ∃ queues', next.Inv queues' ∧ ∀ uid ∈ queues .avail, uid ∈ queues' .avail := by
  rcases wakeupbytimeout_ok h now with ⟨_, first, _, hok, hfirst, _⟩
  obtain rfl := Except.ok.inj (hok.symm.trans htimeout)
  rcases wakeupbyself_ok hfirst.inv with ⟨_, second, hok, hsecond⟩
  obtain rfl := Except.ok.inj (hok.symm.trans hself)
  rcases wakeup_ok hsecond.inv (made_of_wakeup hsecond.inv hwakeup) with
    ⟨_, third, hok, hthird, _⟩
  obtain rfl := Except.ok.inj (hok.symm.trans hwakeup)
  refine ⟨third, hthird.inv, ?_⟩
  intro uid huid
  apply avail_of_woken hsecond.inv hthird (by decide)
  apply avail_of_woken hfirst.inv hsecond (by decide)
  exact avail_of_woken h hfirst (by decide) uid huid

theorem switchToFirst_inv (h : s.Inv queues) {list : CoroStatus}
    (hlist : list = .active ∨ list = .avail) {next : CoroutineScheduler}
    (hswitch : s.switchToFirst list = .ok next) : next.Inv queues := by
  rcases switchToFirst_switches h hlist with ⟨other, hok, hnext, _⟩
  obtain rfl := Except.ok.inj (hok.symm.trans hswitch)
  exact hnext

theorem put_currentCoro (s : CoroutineScheduler) (coroId : Nat) :
    (s.put coroId).currentCoro = s.currentCoro := by
  rw [put]
  split <;> rfl

end

end CoroutineScheduler

namespace ServantHandle

open CoroutineScheduler CoroutineInfo

/-- A coroutine that yields, sleeps or ends leaves the others on `avail_`. -/
theorem handlerStep_avail {s next : CoroutineScheduler} {queues : CoroStatus → List Nat}
    (h : s.Inv queues) {uid : Nat} {handler : HandlerStep}
    (hcurrent : s.currentCoro = some (.coroutine uid))
    (hstep : handlerStep s handler = .ok next) :
    ∃ queues', next.Inv queues' ∧
      ∀ other ∈ queues .avail, other ≠ uid → other ∈ queues' .avail := by
  rcases h.running_mem hcurrent with ⟨source, huid, hsource⟩
  obtain ⟨target, hnext⟩ : ∃ target, next.Inv (moved queues source target uid) := by
    cases handler with
    | yield flag =>
        rcases yield_ok h flag hcurrent huid hsource with ⟨links, hok, hnext⟩
        obtain rfl := Except.ok.inj (hok.symm.trans hstep)
        exact ⟨.inactive, hnext⟩
    | sleep sleeptime now =>
        rcases sleep_ok h sleeptime now hcurrent huid hsource with ⟨links, hok, hnext⟩
        obtain rfl := Except.ok.inj (hok.symm.trans hstep)
        exact ⟨.timeout, hnext⟩
    | finish =>
        rcases finish_ok h hcurrent huid hsource with ⟨links, hok, hnext⟩
        obtain rfl := Except.ok.inj (hok.symm.trans hstep)
        exact ⟨.free, hnext⟩
  refine ⟨_, hnext, ?_⟩
  intro other hother hne
  rw [h.lists.rings.mem_moved huid, if_neg hne]
  exact hother

/-- A coroutine on `avail_` whose callback is to pass a request to `handle` and has not
begun, while the loop of `run` goes on; where it is the one that runs, the next step of
the thread passes the request. -/
structure Awaits (s : ServantHandle) (uid serial : Nat) (recv : TagRecvData) : Prop where
  callback : s.callback uid = some (.handle serial recv)
  begun : s.begun uid = false
  created : uid ∈ s.scheduler.createdIds
  avail : s.scheduler.status (.coroutine uid) = .avail
  loops : s.main.Loops
  passes : s.scheduler.currentCoro = some (.coroutine uid) →
    ∀ now allocs handler, ∃ next, s.thread now allocs handler = .ok next ∧
      next.handled = s.handled ++ [(serial, recv)]

/-- Each request that was taken was passed to `handle` or will be when its coroutine is
switched to. -/
def NoneDropped (s : ServantHandle) : Prop :=
  ∀ serial recv, s.taken[serial]? = some recv →
    (serial, recv) ∈ s.handled ∨ ∃ uid, s.Awaits uid serial recv

/-- `handleRequest` is about to take a request. -/
def Takes (s : ServantHandle) : Prop :=
  ∃ uid adapter rest loop yield recv others,
    s.scheduler.currentCoro = some (.coroutine uid) ∧ s.callback uid = some .handleRequest ∧
      s.request = .queue adapter rest (loop + 1) true yield ∧
      s.receiveBuffers adapter = recv :: others ∧ recv.closed = false

/-- `run` is about to leave its loop. -/
def Leaves (s : ServantHandle) : Prop :=
  s.main = .turn ∧ s.isTerminate = true ∧ ∀ uid, s.scheduler.currentCoro ≠ some (.coroutine uid)

/-- Each request that was taken was passed to `handle`. -/
def AllHandled (s : ServantHandle) : Prop :=
  ∀ serial recv, s.taken[serial]? = some recv → (serial, recv) ∈ s.handled

/-- Before a request is taken there is room for its coroutine, and before `run` leaves its
loop those that were taken are handled. -/
def KeepsTaken (s : ServantHandle) : Action → Prop
  | .thread _ allocs _ => (s.Takes → s.scheduler.HasRoom allocs) ∧ (s.Leaves → s.AllHandled)
  | _ => True

/-- The invariant: the coroutines of the requests that were not handled are on
`avail_`, there is none of them once `run` has left its loop, and the numbers of requests
are those of requests taken. -/
structure TakenInv (s : ServantHandle) (queues : CoroStatus → List Nat) : Prop where
  inv : s.scheduler.Inv queues
  left : ¬ s.main.Loops →
    s.AllHandled ∧ ∀ uid, s.scheduler.currentCoro ≠ some (.coroutine uid)
  kept : ∀ serial recv, s.taken[serial]? = some recv →
    (serial, recv) ∈ s.handled ∨
      ∃ uid ∈ queues .avail, s.callback uid = some (.handle serial recv) ∧ s.begun uid = false
  callbacks : ∀ uid serial recv, s.callback uid = some (.handle serial recv) →
    serial < s.taken.length
  handled : ∀ entry ∈ s.handled, entry.1 < s.taken.length

section

variable {s : ServantHandle} {queues : CoroStatus → List Nat}

/-- A coroutine runs only while the loop of `run` goes on. -/
theorem TakenInv.loops (h : TakenInv s queues) {uid : Nat}
    (hcurrent : s.scheduler.currentCoro = some (.coroutine uid)) : s.main.Loops := by
  by_contra hleft
  exact (h.left hleft).2 uid hcurrent

/-- The coroutine of a request that runs and has not begun passes the request. -/
theorem thread_passes {uid serial : Nat} {recv : TagRecvData}
    (hcurrent : s.scheduler.currentCoro = some (.coroutine uid))
    (hcallback : s.callback uid = some (.handle serial recv)) (hbegun : s.begun uid = false)
    (now : Int) (allocs : Nat → Bool) (handler : HandlerStep) :
    ∃ next, s.thread now allocs handler = .ok next ∧
      next.handled = s.handled ++ [(serial, recv)] := by
  simp [ServantHandle.thread, hcurrent, hcallback, ServantHandle.runHandler, hbegun]

theorem TakenInv.noneDropped (h : TakenInv s queues) : NoneDropped s := by
  intro serial recv htaken
  rcases h.kept serial recv htaken with hhandled | ⟨uid, huid, hcallback, hbegun⟩
  · exact Or.inl hhandled
  · by_cases hloops : s.main.Loops
    · exact Or.inr ⟨uid, hcallback, hbegun,
        (mem_createdIds h.inv.lists uid).mpr (made_of_mem h.inv.lists huid),
        status_of_mem h.inv.lists huid, hloops,
        fun hcurrent => thread_passes hcurrent hcallback hbegun⟩
    · exact Or.inl ((h.left hloops).1 serial recv htaken)

/-- A step of the scheduler that leaves the coroutines on `avail_` there, but for one
that has begun or is none of a request. -/
theorem TakenInv.update (h : TakenInv s queues) {scheduler : CoroutineScheduler}
    {queues' : CoroStatus → List Nat} (main : RunPlace) (request : RequestPlace)
    (receiveBuffers : Nat → List TagRecvData) (hnext : scheduler.Inv queues')
    (hplace : main.Loops ∨ main = s.main ∧ scheduler.currentCoro = s.scheduler.currentCoro)
    (hkept : ∀ uid ∈ queues .avail, ∀ serial recv,
      s.callback uid = some (.handle serial recv) → s.begun uid = false →
        uid ∈ queues' .avail) :
    TakenInv { s with
      scheduler := scheduler
      main := main
      request := request
      receiveBuffers := receiveBuffers } queues' := by
  refine ⟨hnext, ?_, ?_, h.callbacks, h.handled⟩
  · intro hleft
    rcases hplace with hloops | ⟨hmain, hcurrent⟩
    · exact absurd hloops hleft
    · obtain ⟨hall, hnone⟩ := h.left (hmain ▸ hleft)
      exact ⟨hall, fun uid => hcurrent ▸ hnone uid⟩
  · intro serial recv htaken
    rcases h.kept serial recv htaken with hhandled | ⟨uid, huid, hcallback, hbegun⟩
    · exact Or.inl hhandled
    · exact Or.inr ⟨uid, hkept uid huid serial recv hcallback hbegun, hcallback, hbegun⟩

/-- `run` leaves its loop when the requests that were taken are handled. -/
theorem TakenInv.terminated (h : TakenInv s queues) (hall : s.AllHandled)
    (hnone : ∀ uid, s.scheduler.currentCoro ≠ some (.coroutine uid)) :
    TakenInv { s with scheduler := s.scheduler.terminate, main := .terminated } queues :=
  ⟨⟨h.inv.lists.congr rfl (fun _ => rfl) rfl rfl rfl rfl, h.inv.current, h.inv.used,
    h.inv.need_made, h.inv.timeout_made, h.inv.running⟩, fun _ => ⟨hall, hnone⟩, h.kept,
    h.callbacks, h.handled⟩

/-- The main coroutine goes on within its loop, with the same coroutines on the lists. -/
theorem TakenInv.looping (h : TakenInv s queues) {scheduler : CoroutineScheduler}
    {main : RunPlace} (hinv : scheduler.Inv queues) (hmain : main.Loops) :
    TakenInv { s with scheduler := scheduler, main := main } queues :=
  h.update main s.request s.receiveBuffers hinv (Or.inl hmain) fun _ huid _ _ _ _ => huid

/-- The main coroutine goes on. -/
theorem TakenInv.runMain (h : TakenInv s queues) {now : Int} {next : ServantHandle}
    (hnone : ∀ uid, s.scheduler.currentCoro ≠ some (.coroutine uid))
    (hleaves : s.Leaves → s.AllHandled) (hstep : s.runMain now = .ok next) :
    ∃ queues', TakenInv next queues' := by
  rw [ServantHandle.runMain] at hstep
  cases hplace : s.main with
  | turn =>
      simp only [hplace] at hstep
      split at hstep
      · rename_i hterminate
        obtain rfl := Except.ok.inj hstep
        exact ⟨queues, h.terminated (hleaves ⟨hplace, hterminate, hnone⟩) hnone⟩
      · split at hstep
        · obtain rfl := Except.ok.inj hstep
          exact ⟨queues, h⟩
        · rcases ok_of_bind_ok hstep with ⟨timed, htimeout, hrest⟩
          rcases ok_of_bind_ok hrest with ⟨woken, hself, hlast⟩
          rcases ok_of_bind_ok hlast with ⟨scheduler, hwakeup, hnext⟩
          obtain rfl := Except.ok.inj hnext
          rcases wakeups_avail h.inv htimeout hself hwakeup with ⟨queues', hinv, hstay⟩
          exact ⟨queues', h.update _ s.request s.receiveBuffers hinv (Or.inl (by simp
            [RunPlace.Loops])) fun uid huid _ _ _ _ => hstay uid huid⟩
  | activeLoop loop =>
      simp only [hplace] at hstep
      split at hstep
      · rcases ok_of_bind_ok hstep with ⟨scheduler, hswitch, hnext⟩
        obtain rfl := Except.ok.inj hnext
        exact ⟨queues, h.looping (switchToFirst_inv h.inv (Or.inl rfl) hswitch)
          (by simp [RunPlace.Loops])⟩
      · obtain rfl := Except.ok.inj hstep
        exact ⟨queues, h.looping h.inv (by simp [RunPlace.Loops])⟩
  | availLoop loop =>
      simp only [hplace] at hstep
      split at hstep
      · rcases ok_of_bind_ok hstep with ⟨scheduler, hswitch, hnext⟩
        obtain rfl := Except.ok.inj hnext
        exact ⟨queues, h.looping (switchToFirst_inv h.inv (Or.inr rfl) hswitch)
          (by simp [RunPlace.Loops])⟩
      · obtain rfl := Except.ok.inj hstep
        exact ⟨queues, h.looping h.inv (by simp [RunPlace.Loops])⟩
  | terminated =>
      simp only [hplace] at hstep
      rcases ok_of_bind_ok hstep with ⟨_, _, hnext⟩
      obtain rfl := Except.ok.inj hnext
      have hleft : ¬ s.main.Loops := by simp [RunPlace.Loops, hplace]
      exact ⟨queues, h.inv, fun _ => h.left hleft, h.kept, h.callbacks, h.handled⟩
  | ended =>
      simp only [hplace] at hstep
      obtain rfl := Except.ok.inj hstep
      exact ⟨queues, h⟩

/-- `handleRequest` yields. -/
theorem TakenInv.yieldRequest (h : TakenInv s queues) {uid : Nat} {next : ServantHandle}
    (hcurrent : s.scheduler.currentCoro = some (.coroutine uid))
    (hcallback : s.callback uid = some .handleRequest) (hstep : s.yieldRequest = .ok next) :
    ∃ queues', TakenInv next queues' := by
  rcases ok_of_bind_ok hstep with ⟨scheduler, hyield, hnext⟩
  obtain rfl := Except.ok.inj hnext
  have hhandler : handlerStep s.scheduler (.yield true) = .ok scheduler := hyield
  rcases handlerStep_avail h.inv hcurrent hhandler with ⟨queues', hinv, hothers⟩
  refine ⟨queues', h.update s.main .top s.receiveBuffers hinv (Or.inl (h.loops hcurrent)) ?_⟩
  intro other hother serial recv hhandle _
  apply hothers other hother
  rintro rfl
  simp [hcallback] at hhandle

/-- The coroutine of a request goes on. -/
theorem TakenInv.runHandler (h : TakenInv s queues) {uid serial : Nat} {recv : TagRecvData}
    {handler : HandlerStep} {next : ServantHandle}
    (hcurrent : s.scheduler.currentCoro = some (.coroutine uid))
    (hcallback : s.callback uid = some (.handle serial recv))
    (hstep : s.runHandler uid serial recv handler = .ok next) :
    ∃ queues', TakenInv next queues' := by
  rw [ServantHandle.runHandler] at hstep
  by_cases hbegun : s.begun uid = true
  · rw [if_pos hbegun] at hstep
    rcases ok_of_bind_ok hstep with ⟨scheduler, hhandler, hnext⟩
    obtain rfl := Except.ok.inj hnext
    rcases handlerStep_avail h.inv hcurrent hhandler with ⟨queues', hinv, hothers⟩
    refine ⟨queues', h.update s.main s.request s.receiveBuffers hinv
      (Or.inl (h.loops hcurrent)) ?_⟩
    intro other hother _ _ _ hwaits
    apply hothers other hother
    rintro rfl
    simp [hbegun] at hwaits
  · rw [if_neg hbegun] at hstep
    obtain rfl := Except.ok.inj hstep
    refine ⟨queues, h.inv, fun hleft => absurd (h.loops hcurrent) hleft, ?_, h.callbacks, ?_⟩
    · intro number request htaken
      rcases h.kept number request htaken with hhandled | ⟨other, hother, hhandle, hwaits⟩
      · exact Or.inl (List.mem_append_left _ hhandled)
      · by_cases hsame : other = uid
        · subst hsame
          obtain ⟨rfl, rfl⟩ : serial = number ∧ recv = request := by
            simpa [hcallback] using hhandle
          exact Or.inl (by simp)
        · exact Or.inr ⟨other, hother, hhandle,
            (Function.update_of_ne hsame _ _).trans hwaits⟩
    · intro entry hentry
      rcases List.mem_append.mp hentry with hold | hnew
      · exact h.handled entry hold
      · rw [List.mem_singleton.mp hnew]
        exact h.callbacks uid serial recv hcallback

/-- `handleRequest` takes a message that is no request. -/
theorem TakenInv.takeRequest_none (h : TakenInv s queues) {allocs : Nat → Bool}
    {adapter loop : Nat} {rest : List Nat} {flag : Bool} {next : ServantHandle}
    (hnone : ∀ recv others, s.receiveBuffers adapter = recv :: others → recv.closed = true)
    (hstep : s.takeRequest allocs adapter rest loop flag = .ok next) :
    ∃ queues', TakenInv next queues' := by
  rw [ServantHandle.takeRequest] at hstep
  cases hqueue : s.receiveBuffers adapter with
  | nil =>
      simp only [hqueue] at hstep
      obtain rfl := Except.ok.inj hstep
      exact ⟨queues, h.update s.main _ s.receiveBuffers h.inv (Or.inr ⟨rfl, rfl⟩)
        fun _ huid _ _ _ _ => huid⟩
  | cons recv others =>
      simp only [hqueue, hnone recv others hqueue, if_true] at hstep
      obtain rfl := Except.ok.inj hstep
      exact ⟨queues, h.update s.main _ _ h.inv (Or.inr ⟨rfl, rfl⟩) fun _ huid _ _ _ _ => huid⟩

/-- The thread takes a request. -/
theorem thread_take {uid adapter loop : Nat} {rest : List Nat} {yield : Bool}
    {recv : TagRecvData} {others : List TagRecvData}
    (hcurrent : s.scheduler.currentCoro = some (.coroutine uid))
    (hcallback : s.callback uid = some .handleRequest)
    (hplace : s.request = .queue adapter rest (loop + 1) true yield)
    (hqueue : s.receiveBuffers adapter = recv :: others) (hopen : recv.closed = false)
    (now : Int) (allocs : Nat → Bool) (handler : HandlerStep) :
    s.thread now allocs handler = (s.scheduler.createCoroutine allocs).bind fun made =>
      .ok (s.afterTake adapter rest loop recv others made.1 made.2) := by
  simp only [ServantHandle.thread, hcurrent, hcallback, ServantHandle.runRequest, hplace,
    Nat.add_sub_cancel, gt_iff_lt, Nat.succ_pos, and_self, if_true]
  exact takeRequest_request hqueue hopen allocs rest loop

/-- A request for which a coroutine was created. -/
theorem TakenInv.afterTake (h : TakenInv s queues) {allocs : Nat → Bool} {id : Nat}
    {scheduler : CoroutineScheduler} (hloops : s.main.Loops)
    (hcreate : s.scheduler.createCoroutine allocs = .ok (id, scheduler)) (hid : id ≠ 0)
    (adapter : Nat) (rest : List Nat) (loop : Nat) (recv : TagRecvData)
    (others : List TagRecvData) :
    ∃ queues', TakenInv (s.afterTake adapter rest loop recv others id scheduler) queues' := by
  rcases createCoroutine_spec h.inv hcreate with ⟨queues', hcreates, _⟩
  have havail := hcreates.avail
  rw [if_neg hid] at havail
  have hfresh : id ∉ queues .avail := by
    have hnodup := hcreates.inv.lists.rings.nodup .avail
    rw [havail] at hnodup
    exact fun hmem => (List.nodup_append.mp hnodup).2.2 id hmem id (by simp) rfl
  rw [ServantHandle.afterTake, registered, if_neg hid]
  refine ⟨queues', hcreates.inv, fun hleft => absurd hloops hleft, ?_, ?_, ?_⟩
  · intro serial request htaken
    rcases Nat.lt_or_ge serial s.taken.length with hold | hnew
    · have htaken' : s.taken[serial]? = some request := by
        rwa [List.getElem?_append_left hold] at htaken
      rcases h.kept serial request htaken' with hhandled | ⟨uid, huid, hcallback, hbegun⟩
      · exact Or.inl hhandled
      · have hne : uid ≠ id := fun hsame => hfresh (hsame ▸ huid)
        refine Or.inr ⟨uid, ?_, (Function.update_of_ne hne _ _).trans hcallback,
          (Function.update_of_ne hne _ _).trans hbegun⟩
        rw [havail]
        exact List.mem_append_left _ huid
    · have hlast : serial = s.taken.length := by
        have hlt := (List.getElem?_eq_some_iff.mp htaken).1
        rw [List.length_append, List.length_singleton] at hlt
        omega
      subst hlast
      obtain rfl : { recv with adapter := some adapter } = request := by
        simpa using htaken
      exact Or.inr ⟨id, by simp [havail], Function.update_self id _ _,
        Function.update_self id _ _⟩
  · intro uid serial request hcallback
    rw [List.length_append, List.length_singleton]
    by_cases hsame : uid = id
    · subst hsame
      have hlast : s.taken.length = serial := by
        dsimp only at hcallback
        rw [Function.update_self] at hcallback
        exact (Callback.handle.inj (Option.some.inj hcallback)).1
      omega
    · dsimp only at hcallback
      rw [Function.update_of_ne hsame] at hcallback
      exact Nat.lt_succ_of_lt (h.callbacks uid serial request hcallback)
  · intro entry hentry
    rw [List.length_append, List.length_singleton]
    exact Nat.lt_succ_of_lt (h.handled entry hentry)

/-- A request for which no coroutine was created is dropped. -/
theorem TakenInv.dropped (h : TakenInv s queues) (scheduler : CoroutineScheduler)
    (adapter : Nat) (rest : List Nat) (loop : Nat) (recv : TagRecvData)
    (others : List TagRecvData) :
    ¬ NoneDropped (s.afterTake adapter rest loop recv others 0 scheduler) := by
  intro hnone
  rw [ServantHandle.afterTake, registered, if_pos rfl] at hnone
  rcases hnone s.taken.length { recv with adapter := some adapter } (by simp) with
    hhandled | ⟨uid, hawaits⟩
  · exact Nat.lt_irrefl _ (h.handled _ hhandled)
  · exact Nat.lt_irrefl _ (h.callbacks uid _ _ hawaits.callback)

/-- A step of the thread that takes no request. -/
theorem TakenInv.thread_other (h : TakenInv s queues) (htakes : ¬ s.Takes)
    (hleaves : s.Leaves → s.AllHandled) {now : Int} {allocs : Nat → Bool}
    {handler : HandlerStep} {next : ServantHandle}
    (hstep : s.thread now allocs handler = .ok next) : ∃ queues', TakenInv next queues' := by
  rw [ServantHandle.thread] at hstep
  split at hstep
  · rename_i uid hcurrent
    split at hstep
    · rename_i hcallback
      rw [ServantHandle.runRequest] at hstep
      have hmoves : ∀ request, TakenInv { s with request := request } queues := fun request =>
        h.update s.main request s.receiveBuffers h.inv (Or.inr ⟨rfl, rfl⟩)
          fun _ huid _ _ _ _ => huid
      cases hplace : s.request with
      | top =>
          simp only [hplace] at hstep
          split at hstep
          · exact h.yieldRequest hcurrent hcallback hstep
          · obtain rfl := Except.ok.inj hstep
            exact ⟨queues, hmoves _⟩
      | adapters rest yield =>
          cases rest with
          | nil =>
              simp only [hplace] at hstep
              split at hstep
              · obtain rfl := Except.ok.inj hstep
                exact ⟨queues, hmoves _⟩
              · exact h.yieldRequest hcurrent hcallback hstep
          | cons adapter rest =>
              simp only [hplace] at hstep
              obtain rfl := Except.ok.inj hstep
              exact ⟨queues, hmoves _⟩
      | queue adapter rest loop flag yield =>
          simp only [hplace] at hstep
          split at hstep
          · rename_i hgoes
            rcases hgoes with ⟨rfl, hloop⟩
            refine h.takeRequest_none ?_ hstep
            intro recv others hqueue
            by_contra hopen
            obtain ⟨left, rfl⟩ := Nat.exists_eq_add_of_lt hloop
            rw [Nat.zero_add] at hplace
            exact htakes ⟨uid, adapter, rest, left, yield, recv, others, hcurrent, hcallback,
              hplace, hqueue, by simpa using hopen⟩
          · obtain rfl := Except.ok.inj hstep
            exact ⟨queues, hmoves _⟩
    · rename_i serial recv hcallback
      exact h.runHandler hcurrent hcallback hstep
    · rename_i hcallback
      rcases ok_of_bind_ok hstep with ⟨scheduler, hfinish, hnext⟩
      obtain rfl := Except.ok.inj hnext
      have hhandler : handlerStep s.scheduler .finish = .ok scheduler := hfinish
      rcases handlerStep_avail h.inv hcurrent hhandler with ⟨queues', hinv, hothers⟩
      refine ⟨queues', h.update s.main s.request s.receiveBuffers hinv
        (Or.inl (h.loops hcurrent)) ?_⟩
      intro other hother serial recv hhandle _
      apply hothers other hother
      rintro rfl
      simp [hcallback] at hhandle
  · rename_i hnone
    exact h.runMain hnone hleaves hstep

/-- A step that drops nothing keeps the invariant. -/
theorem TakenInv.next (h : TakenInv s queues) {action : Action}
    (hkeeps : KeepsTaken s action) {next : ServantHandle} (hstep : step s action = .ok next) :
    ∃ queues', TakenInv next queues' := by
  cases action with
  | arrive adapter recv =>
      obtain rfl := Except.ok.inj hstep
      exact ⟨queues, h.update s.main s.request _ h.inv (Or.inr ⟨rfl, rfl⟩)
        fun _ huid _ _ _ _ => huid⟩
  | takenByOther adapter =>
      obtain rfl := Except.ok.inj hstep
      exact ⟨queues, h.update s.main s.request _ h.inv (Or.inr ⟨rfl, rfl⟩)
        fun _ huid _ _ _ _ => huid⟩
  | put coroId =>
      obtain rfl := Except.ok.inj hstep
      exact ⟨queues, h.update s.main s.request s.receiveBuffers (put_ok h.inv coroId)
        (Or.inr ⟨rfl, put_currentCoro s.scheduler coroId⟩) fun _ huid _ _ _ _ => huid⟩
  | terminate =>
      obtain rfl := Except.ok.inj hstep
      exact ⟨queues, h.inv, h.left, h.kept, h.callbacks, h.handled⟩
  | thread now allocs handler =>
      by_cases htakes : s.Takes
      · have hfree := hkeeps.1 htakes
        rcases htakes with ⟨uid, adapter, rest, loop, yield, recv, others, hcurrent, hcallback,
          hplace, hqueue, hopen⟩
        change s.thread now allocs handler = _ at hstep
        rw [thread_take hcurrent hcallback hplace hqueue hopen] at hstep
        rcases ok_of_bind_ok hstep with ⟨⟨id, scheduler⟩, hcreate, hnext⟩
        obtain rfl := Except.ok.inj hnext
        rcases createCoroutine_spec h.inv hcreate with ⟨_, _, hid⟩
        exact h.afterTake (h.loops hcurrent) hcreate (hid.mpr hfree) adapter rest loop recv
          others
      · exact h.thread_other htakes hkeeps.2 hstep

/-- The step at which `run` leaves its loop. -/
theorem thread_leaves (hleaves : s.Leaves) (now : Int) (allocs : Nat → Bool)
    (handler : HandlerStep) :
    s.thread now allocs handler =
      .ok { s with scheduler := s.scheduler.terminate, main := .terminated } := by
  obtain ⟨hturn, hterminate, hnone⟩ := hleaves
  have hmain : s.thread now allocs handler = s.runMain now := by
    rw [ServantHandle.thread]
    split
    · rename_i uid hcurrent
      exact absurd hcurrent (hnone uid)
    · rfl
  rw [hmain, ServantHandle.runMain, hturn]
  exact if_pos hterminate

/-- A step that takes a request without room drops it, and one that leaves the loop of
`run` drops those that were not handled. -/
theorem TakenInv.not_noneDropped (h : TakenInv s queues) {action : Action}
    (hkeeps : ¬ KeepsTaken s action) {next : ServantHandle}
    (hstep : step s action = .ok next) : ¬ NoneDropped next := by
  cases action with
  | thread now allocs handler =>
      change s.thread now allocs handler = _ at hstep
      rcases not_and_or.mp hkeeps with hroom | hall
      · rw [Classical.not_imp] at hroom
        rcases hroom with ⟨⟨uid, adapter, rest, loop, yield, recv, others, hcurrent, hcallback,
          hplace, hqueue, hopen⟩, hfull⟩
        rw [thread_take hcurrent hcallback hplace hqueue hopen] at hstep
        rcases ok_of_bind_ok hstep with ⟨⟨id, scheduler⟩, hcreate, hnext⟩
        obtain rfl := Except.ok.inj hnext
        rcases createCoroutine_spec h.inv hcreate with ⟨_, _, hid⟩
        obtain rfl : id = 0 := by
          by_contra hne
          exact hfull (hid.mp hne)
        exact h.dropped scheduler adapter rest loop recv others
      · rw [Classical.not_imp] at hall
        obtain ⟨hleaves, hlost⟩ := hall
        rw [thread_leaves hleaves] at hstep
        obtain rfl := Except.ok.inj hstep
        intro hnone
        apply hlost
        intro serial recv htaken
        rcases hnone serial recv htaken with hhandled | ⟨uid, hawaits⟩
        · exact hhandled
        · exact absurd rfl hawaits.loops.1
  | _ => exact absurd trivial hkeeps

/-- A step that does not return had room for what it took. -/
theorem TakenInv.keeps_of_fault (h : TakenInv s queues) {action : Action} {fault : Fault}
    (hstep : step s action = .error fault) : KeepsTaken s action := by
  cases action with
  | thread now allocs handler =>
      change s.thread now allocs handler = _ at hstep
      constructor
      · rintro ⟨uid, adapter, rest, loop, yield, recv, others, hcurrent, hcallback, hplace,
          hqueue, hopen⟩
        rw [thread_take hcurrent hcallback hplace hqueue hopen] at hstep
        cases hcreate : s.scheduler.createCoroutine allocs with
        | error other => exact createCoroutine_fault h.inv hcreate
        | ok made => simp [hcreate, Except.bind] at hstep
      · intro hleaves
        rw [thread_leaves hleaves] at hstep
        contradiction
  | _ => trivial

end

/-- The invariant, for some queues. -/
def Accounted (s : ServantHandle) : Prop := ∃ queues, TakenInv s queues

/-- `run` starts with nothing taken. -/
theorem start_accounted {poolSize : Nat} {adapters : List Nat}
    {receiveBuffers : Nat → List TagRecvData} {initAllocs allocs : Nat → Bool}
    (hpos : 0 < poolSize) (hsmall : poolSize < 2 ^ 32) {s : ServantHandle}
    (hstart : start poolSize adapters receiveBuffers initAllocs allocs = .ok s) :
    s.Accounted := by
  rcases ok_of_bind_ok hstart with ⟨scheduler, hinit, hrest⟩
  rcases ok_of_bind_ok hrest with ⟨⟨ret, next⟩, hcreate, hs⟩
  obtain rfl := Except.ok.inj hs
  rcases init_started hpos hsmall hinit with ⟨queues, hstarted⟩
  rcases createCoroutine_spec hstarted.inv hcreate with ⟨queues', hcreates, _⟩
  refine ⟨queues', ?_⟩
  rw [registered]
  split
  · exact ⟨hcreates.inv, by simp [RunPlace.Loops], by simp, by simp, by simp⟩
  · refine ⟨hcreates.inv, by simp [RunPlace.Loops], by simp, ?_, by simp⟩
    intro uid serial recv hcallback
    by_cases hsame : uid = ret
    · subst hsame
      simp at hcallback
    · simp [Function.update_of_ne hsame] at hcallback

/-- Whatever the adapters, the contents of their queues and the outcomes of
`createCoroutine`, no request that is taken is dropped in any state of a run if and only
if each is taken when there is room for its coroutine and all are handled when `run`
leaves its loop. -/
theorem none_dropped_iff (poolSize : Nat) (adapters : List Nat)
    (receiveBuffers : Nat → List TagRecvData) (initAllocs allocs : Nat → Bool)
    (hpos : 0 < poolSize) (hsmall : poolSize < 2 ^ 32) (s : ServantHandle)
    (hstart : start poolSize adapters receiveBuffers initAllocs allocs = .ok s)
    (actions : List Action) :
    StaysUpTo (fun _ => True) step NoneDropped s actions ↔
      Along step KeepsTaken s actions := by
  have haccounted := start_accounted hpos hsmall hstart
  apply staysUpTo_iff_along ?_ ?_ ?_ ?_ haccounted along_true
  · rintro state ⟨_, h⟩
    exact h.noneDropped
  · rintro state action next ⟨_, h⟩ _ hkeeps hstep
    exact h.next hkeeps hstep
  · rintro state action fault ⟨_, h⟩ _ hstep
    exact iff_of_true trivial (h.keeps_of_fault hstep)
  · rintro state action next ⟨_, h⟩ _ hkeeps hstep
    exact h.not_noneDropped hkeeps hstep

/-- A step before the server terminates that has room for what it takes. -/
theorem keepsTaken_of_running {s : ServantHandle} {now : Int} {allocs : Nat → Bool}
    {handler : HandlerStep} (hrunning : s.isTerminate = false)
    (hroom : s.scheduler.HasRoom allocs) : KeepsTaken s (.thread now allocs handler) := by
  refine ⟨fun _ => hroom, ?_⟩
  rintro ⟨_, hterminate, _⟩
  rw [hrunning] at hterminate
  contradiction

/-- A request on a connection. -/
def smallRequest : TagRecvData :=
  { uid := 7, buffer := [1], ip := "", port := 0, recvTimestamp := 0, overload := false
    closed := false, fd := 3, adapter := none, closeType := .clientClose }

/-- A request in a pool of three is taken with room for it and handled, and then the
server terminates. -/
theorem none_dropped_three :
    ∃ s last, start 3 [0] (fun _ => []) (fun _ => true) (fun _ => true) = .ok s ∧
      StaysUpTo (fun _ => True) step NoneDropped s
        (.arrive 0 smallRequest :: List.replicate 13 (.thread 0 (fun _ => true) .finish) ++
          .terminate :: List.replicate 2 (.thread 0 (fun _ => true) .finish)) ∧
      run step s
        (.arrive 0 smallRequest :: List.replicate 13 (.thread 0 (fun _ => true) .finish) ++
          .terminate :: List.replicate 2 (.thread 0 (fun _ => true) .finish)) = .ok last ∧
      last.handled = [(0, { smallRequest with adapter := some 0 })] ∧ last.main = .ended := by
  refine ⟨_, _, rfl, (none_dropped_iff 3 [0] (fun _ => []) (fun _ => true) (fun _ => true)
    (by decide) (by decide) _ rfl _).mpr ?_, rfl, rfl, rfl⟩
  have hgoes : ∀ {s next : ServantHandle} {rest : List Action}, s.isTerminate = false →
      s.scheduler.HasRoom (fun _ => true) →
      step s (.thread 0 (fun _ => true) .finish) = .ok next → Along step KeepsTaken next rest →
      Along step KeepsTaken s (.thread 0 (fun _ => true) .finish :: rest) := by
    intro s next rest hrunning hroom hstep hrest
    exact Along.cons_of_ok (keepsTaken_of_running hrunning hroom) hstep hrest
  refine Along.cons_of_ok (p := KeepsTaken) trivial rfl ?_
  iterate 13 refine hgoes rfl (Or.inl (by decide)) rfl ?_
  refine Along.cons_of_ok (p := KeepsTaken) trivial rfl ?_
  have hall : ∀ (serial : Nat) (recv : TagRecvData),
      [{ smallRequest with adapter := some 0 }][serial]? = some recv →
        (serial, recv) ∈ [(0, { smallRequest with adapter := some 0 })] := by
    intro serial recv htaken
    cases serial with
    | zero => simpa using htaken.symm
    | succ serial => simp at htaken
  refine Along.cons_of_ok (p := KeepsTaken) ⟨fun _ => Or.inl (by decide), fun _ => hall⟩ rfl ?_
  refine Along.cons_of_ok (p := KeepsTaken) ⟨fun _ => Or.inl (by decide), ?_⟩ rfl trivial
  rintro ⟨hturn, _, _⟩
  exact RunPlace.noConfusion hturn

/-- With the pool of `run`, when only the stack of `handleRequest` could be allocated, a
request is taken and no coroutine created for it. -/
theorem request_dropped :
    ∃ s, start 204 [0] (fun _ => []) (fun turn => decide (turn = 0)) (fun _ => false) =
        .ok s ∧
      ¬ StaysUpTo (fun _ => True) step NoneDropped s
        (.arrive 0 smallRequest :: List.replicate 6 (.thread 0 (fun _ => false) .finish)) := by
  refine ⟨_, rfl, ?_⟩
  intro hstays
  rcases (hstays.last rfl) 0 _ rfl with hhandled | ⟨uid, hawaits⟩
  · exact List.not_mem_nil hhandled
  · have hcallback := hawaits.callback
    change Function.update (fun _ => none) 1 (some Callback.handleRequest) uid = _ at hcallback
    by_cases hone : uid = 1
    · subst hone
      simp at hcallback
    · simp [Function.update_of_ne hone] at hcallback

end ServantHandle

end Tarsx
