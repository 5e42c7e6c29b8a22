/-
The balance of uids in a net thread: a uid is free or has a connection, never both
and never neither.  A deletion forgets to give the uid back, so the balance holds
exactly as long as no connection is deleted.
-/
import Tarsx.Foundation.Run
import Tarsx.NetThreadEffects

namespace Tarsx

open Foundation

namespace NetThread

/-- The number of uids that have a connection. -/
def alive (n : NetThread) : Nat :=
  ((List.range' 1 total).filter fun uid => decide (n.Live uid)).length

/-- The free uids and those with a connection are a partition of the uids from 1 to
2000, and `freeSize_` is the length of the free list. -/
structure Balanced (n : NetThread) : Prop where
  nodup : n.free.Nodup
  cover : ∀ uid, (uid ∈ n.free ∨ n.Live uid) ↔ 1 ≤ uid ∧ uid ≤ total
  disjoint : ∀ uid, uid ∈ n.free → ¬ n.Live uid
  size : n.freeSize = n.free.length

/-- The step deletes no connection. -/
def KeepsAll (n : NetThread) (action : NetAction) : Prop :=
  ∀ uid, n.Live uid → ¬ Deletes n action uid

/-- The invariant behind the balance. -/
structure Accounted (n : NetThread) : Prop where
  sound : n.Sound
  balanced : n.Balanced
  small : n.free.length ≤ total

section

variable {n next : NetThread}

/-- With room for a connection there is a free uid. -/
theorem Accounted.free_ne_nil (h : n.Accounted) (hroom : n.alive < total) :
    n.free ≠ [] := by
  intro hnil
  have hall : (List.range' 1 total).filter (fun uid => decide (n.Live uid)) =
      List.range' 1 total := by
    rw [List.filter_eq_self]
    intro uid huid
    rw [List.mem_range'_1] at huid
    have hcover := (h.balanced.cover uid).mpr ⟨huid.1, by omega⟩
    rw [hnil] at hcover
    exact decide_eq_true (hcover.resolve_left List.not_mem_nil)
  rw [alive, hall, List.length_range'] at hroom
  exact Nat.lt_irrefl _ hroom

/-- A step that deletes nothing keeps the balance. -/
theorem Accounted.of_effect (h : n.Accounted) {gone added : Nat → Prop}
    (heffect : Effect n next gone added) (hkeep : ∀ uid, n.Live uid → ¬ gone uid) :
    next.Accounted := by
  have hlive : ∀ uid, next.Live uid ↔ n.Live uid := by
    intro uid
    rw [heffect.live]
    exact ⟨And.left, fun huid => ⟨huid, hkeep uid huid⟩⟩
  refine ⟨heffect.sound, ⟨?_, ?_, ?_, ?_⟩, ?_⟩
  · rw [heffect.free]
    exact h.balanced.nodup
  · intro uid
    rw [heffect.free, hlive]
    exact h.balanced.cover uid
  · intro uid huid
    rw [heffect.free] at huid
    rw [hlive]
    exact h.balanced.disjoint uid huid
  · rw [heffect.free, heffect.freeSize]
    exact h.balanced.size
  · rw [heffect.free]
    exact h.small

/-- Once a uid has lost its connection it is neither free nor in use. -/
theorem Accounted.not_balanced_of_effect (h : n.Accounted) {gone added : Nat → Prop}
    (heffect : Effect n next gone added) {uid : Nat} (hlive : n.Live uid)
    (hgone : gone uid) : ¬ next.Balanced := by
  intro hbalanced
  have hrange := (h.balanced.cover uid).mp (Or.inr hlive)
  rcases (hbalanced.cover uid).mpr hrange with hfree | hstill
  · rw [heffect.free] at hfree
    exact h.balanced.disjoint uid hfree hlive
  · exact ((heffect.live uid).mp hstill).2 hgone

/-- Accepting a connection moves the first free uid to the table. -/
theorem Accounted.accept (h : n.Accounted) (maxIOVcount listenfd : Nat)
    (result : AcceptResult) (hfree : n.free ≠ []) :
    ∃ next, netStep maxIOVcount n (.accept listenfd result) = .ok next ∧
      next.Accounted := by
  cases result with
  | again => exact ⟨n, rfl, h⟩
  | failed => exact ⟨n, rfl, h⟩
  | accepted fd ip port close =>
      obtain ⟨uid, rest, hfree⟩ := List.exists_cons_of_ne_nil hfree
      obtain ⟨next, hadd, hrest, hsize, hlive, _, hsound⟩ := addTConnection_spec h.sound
        hfree (whole_accepted (n.listeners listenfd) listenfd fd ip port close n.accepted
              uid)
      have hnodup := h.balanced.nodup
      have hsmall := h.small
      have hcount := h.balanced.size
      rw [hfree] at hnodup hsmall
      rw [hfree, List.length_cons] at hcount
      obtain ⟨hfresh, hnodup'⟩ := List.nodup_cons.mp hnodup
      refine ⟨next, ?_, hsound, ⟨?_, ?_, ?_, ?_⟩, ?_⟩
      · simp only [netStep, NetThread.accept, hadd, bind, Except.bind]
      · rw [hrest]
        exact hnodup'
      · intro other
        rw [hrest, hlive, ← h.balanced.cover other, hfree, List.mem_cons]
        constructor
        · rintro (hmem | hold | heq)
          · exact Or.inl (Or.inr hmem)
          · exact Or.inr hold
          · exact Or.inl (Or.inl heq)
        · rintro ((heq | hmem) | hold)
          · exact Or.inr (Or.inr heq)
          · exact Or.inl hmem
          · exact Or.inr (Or.inl hold)
      · intro other hother
        rw [hrest] at hother
        rw [hlive, not_or]
        constructor
        · apply h.balanced.disjoint other
          rw [hfree]
          exact List.mem_cons_of_mem uid hother
        · intro heq
          exact hfresh (heq ▸ hother)
      · have htotal : total = 2000 := rfl
        rw [List.length_cons] at hsmall
        rw [hsize, hrest, hcount, wordSub_of_le (Nat.succ_pos _) (by omega)]
        exact Nat.add_sub_cancel _ 1
      · rw [hrest]
        exact (Nat.le_succ _).trans hsmall

end

/-! ### Runs -/

/-- After `createEpoll` the balance holds if the memory of `freeSize_` held 0. -/
theorem created_accounted (listeners : Nat → Nat) : (created 0 listeners).Accounted := by
  have hfree : (created 0 listeners).free = List.range' 1 total := List.nil_append _
  have hdead : ∀ uid, ¬ (created 0 listeners).Live uid := fun uid hlive => by
    obtain ⟨c, hc⟩ := live_iff.mp hlive
    contradiction
  refine ⟨fun uid c hc => absurd hc (by simp [created, createEpoll]),
    ⟨?_, ?_, fun uid _ => hdead uid, ?_⟩, ?_⟩
  · rw [hfree]
    exact List.nodup_range'
  · intro uid
    rw [hfree, List.mem_range'_1]
    have hnot := hdead uid
    constructor
    · rintro (hmem | hlive)
      · omega
      · exact absurd hlive hnot
    · intro hrange
      exact Or.inl (by omega)
  · rw [hfree, List.length_range']
    simp [created, createEpoll, total]
  · rw [hfree, List.length_range']

/-- A step that deletes nothing and returns keeps the balance. -/
theorem accounted_step (maxIOVcount : Nat) {n next : NetThread} (h : n.Accounted)
    {action : NetAction} (hkeep : KeepsAll n action)
    (hstep : netStep maxIOVcount n action = .ok next) : next.Accounted := by
  by_cases haccept : ∃ listenfd result, action = .accept listenfd result
  · obtain ⟨listenfd, result, rfl⟩ := haccept
    by_cases hfree : n.free = []
    · cases result with
      | again => exact Except.ok.inj hstep ▸ h
      | failed => exact Except.ok.inj hstep ▸ h
      | accepted fd ip port close =>
          simp [netStep, NetThread.accept, addTConnection, hfree, bind, Except.bind] at hstep
    · obtain ⟨other, hother, hgood⟩ := h.accept maxIOVcount listenfd result hfree
      exact Except.ok.inj (hother.symm.trans hstep) ▸ hgood
  · have hnot : ∀ listenfd result, action ≠ .accept listenfd result :=
      fun listenfd result heq => haccept ⟨listenfd, result, heq⟩
    rcases netStep_effect h.sound maxIOVcount hnot with
      ⟨other, added, hother, heffect⟩ | ⟨fault, hfail, _⟩
    · exact Except.ok.inj (hother.symm.trans hstep) ▸ h.of_effect heffect hkeep
    · rw [hstep] at hfail
      contradiction

/-- While fewer than 2000 connections are alive no step meets an empty free list. -/
theorem step_ne_emptyList (maxIOVcount : Nat) {n : NetThread} (h : n.Accounted)
    (hroom : n.alive < total) (action : NetAction) :
    netStep maxIOVcount n action ≠ .error .emptyList := by
  intro hstep
  by_cases haccept : ∃ listenfd result, action = .accept listenfd result
  · obtain ⟨listenfd, result, rfl⟩ := haccept
    obtain ⟨next, hnext, _⟩ :=
      h.accept maxIOVcount listenfd result (h.free_ne_nil hroom)
    rw [hstep] at hnext
    contradiction
  · have hnot : ∀ listenfd result, action ≠ .accept listenfd result :=
      fun listenfd result heq => haccept ⟨listenfd, result, heq⟩
    rcases netStep_effect h.sound maxIOVcount hnot with
      ⟨next, added, hnext, _⟩ | ⟨fault, hfail, hother⟩
    · rw [hstep] at hnext
      contradiction
    · exact hother (Except.error.inj (hfail.symm.trans hstep))

theorem not_balanced_step (maxIOVcount : Nat) {n next : NetThread} (h : n.Accounted)
    {action : NetAction} (hbad : ¬ KeepsAll n action)
    (hstep : netStep maxIOVcount n action = .ok next) : ¬ next.Balanced := by
  simp only [KeepsAll, not_forall, not_not] at hbad
  obtain ⟨uid, hlive, hdeletes⟩ := hbad
  have hnot : ∀ listenfd result, action ≠ .accept listenfd result := by
    rintro listenfd result rfl
    exact hdeletes
  rcases netStep_effect h.sound maxIOVcount hnot with
    ⟨other, added, hother, heffect⟩ | ⟨fault, hfail, _⟩
  · have hsame : other = next := Except.ok.inj (hother.symm.trans hstep)
    exact hsame ▸ h.not_balanced_of_effect heffect hlive hdeletes
  · rw [hstep] at hfail
    contradiction

/-- In every run after `createEpoll` in which no step deletes a connection and
`freeSize_` started from memory that held 0, the balance holds in every state, and
while fewer than 2000 connections are alive no step meets an empty free list; the
first step that deletes a connection and returns breaks the balance, and so does
other memory. -/
theorem uids_balanced_until_deletion (maxIOVcount : Nat) (listeners : Nat → Nat)
    (actions : List NetAction)
    (hkeep : Along (netStep maxIOVcount) KeepsAll (created 0 listeners) actions) :
    StaysUpTo (fun _ => True) (netStep maxIOVcount) Balanced (created 0 listeners)
      actions ∧
    (∀ n, run (netStep maxIOVcount) (created 0 listeners) actions = .ok n →
      n.alive < total → ∀ action, netStep maxIOVcount n action ≠ .error .emptyList) ∧
    (∀ n action next, run (netStep maxIOVcount) (created 0 listeners) actions = .ok n →
      ¬ KeepsAll n action → netStep maxIOVcount n action = .ok next →
      ¬ next.Balanced) ∧
    ∀ freeSize, 0 < freeSize → freeSize < 2 ^ 64 →
      ¬ (created freeSize listeners).Balanced := by
  have hkeeps : ∀ n action next, Accounted n → KeepsAll n action →
      netStep maxIOVcount n action = .ok next → Accounted next :=
    fun n action next h hkeep hstep => accounted_step maxIOVcount h hkeep hstep
  have hstart := created_accounted listeners
  refine ⟨?_, ?_, ?_, ?_⟩
  · exact staysUpTo_of_along (fun n (h : Accounted n) => h.balanced) hkeeps
      (fun _ _ _ _ _ _ => trivial) hstart hkeep
  · intro n hrun hroom action
    have h := run_invariant_of_along hkeeps hstart hkeep hrun
    exact step_ne_emptyList maxIOVcount h hroom action
  · intro n action next hrun hbad hstep
    have h := run_invariant_of_along hkeeps hstart hkeep hrun
    exact not_balanced_step maxIOVcount h hbad hstep
  · intro freeSize hpos hlt hbalanced
    have hsize := hbalanced.size
    have hfree : (created freeSize listeners).free = List.range' 1 total :=
      List.nil_append _
    rw [hfree, List.length_range'] at hsize
    simp only [created, createEpoll, total] at hsize
    omega

set_option maxRecDepth 20000 in
/-- A connection is accepted and hangs up: its uid is neither free nor in use. -/
theorem hangup_loses_uid :
    ∃ n, run (netStep 1024) (created 0 fun _ => 0)
        [.accept 4 (.accepted 9 "127.0.0.1" 80 false),
          .net { uid := 1, epollhup := true }] = .ok n ∧
      1 ∉ n.free ∧ ¬ n.Live 1 ∧ ¬ n.Balanced := by
  refine ⟨_, rfl, ?_⟩
  have hfree : 1 ∉ List.range' 2 1999 := by simp [List.mem_range'_1]
  have hdead : ∀ n : NetThread, n.connectionUids 1 = none → ¬ n.Live 1 := by
    intro n hnone hlive
    obtain ⟨c, hc⟩ := live_iff.mp hlive
    rw [hnone] at hc
    contradiction
  refine ⟨hfree, hdead _ rfl, ?_⟩
  intro hbalanced
  rcases (hbalanced.cover 1).mpr ⟨Nat.le_refl 1, by decide⟩ with hmem | hlive
  · exact hfree hmem
  · exact hdead _ rfl hlive

/-- One connection is accepted and a response queued for it. -/
theorem uids_balanced_accept :
    StaysUpTo (fun _ => True) (netStep 1024) Balanced (created 0 fun _ => 0)
      [.accept 4 (.accepted 9 "127.0.0.1" 80 false), .respond 1 [97] "127.0.0.1" 80] := by
  apply (uids_balanced_until_deletion 1024 (fun _ => 0) _ ?_).1
  exact ⟨fun _ _ => id, fun _ _ => ⟨fun _ _ => id, fun _ _ => trivial⟩⟩

end NetThread

end Tarsx
