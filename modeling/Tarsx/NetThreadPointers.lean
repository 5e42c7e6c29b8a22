/-
Null pointers in a net thread.  Looking a uid up with `operator[]` makes an entry
with a null pointer for an unknown uid, and only the close command tests the
pointer.  A run is free of null pointers exactly when every uid that an event or a
command names has a connection at that moment.
-/
import Tarsx.Foundation.Run
import Tarsx.NetThreadEffects

namespace Tarsx

open Foundation

namespace NetThread

/-- No entry of the table is a null pointer. -/
def Clean (n : NetThread) : Prop := ∀ uid, ¬ n.Null uid

/-- Each command of a batch names a live uid that no earlier close command of the
batch names. -/
def CommandsKnown (live : Nat → Prop) : List TagSendData → Prop
  | [] => True
  | msg :: rest =>
      live msg.uid ∧
        CommandsKnown (fun uid => live uid ∧ ¬ (msg.cmd = .close ∧ uid = msg.uid)) rest

/-- Every uid that the event or the batch names has a connection. -/
def Known (n : NetThread) : NetAction → Prop
  | .net ev => n.Live ev.uid
  | .pipe _ => CommandsKnown n.Live n.sendBuffer
  | _ => True

/-- The invariant: the connections are whole and no pointer is null. -/
structure Intact (n : NetThread) : Prop where
  sound : n.Sound
  clean : n.Clean

section

variable {n next : NetThread}

theorem Intact.of_effect (h : n.Intact) {gone : Nat → Prop}
    (heffect : Effect n next gone nowhere) : next.Intact := by
  refine ⟨heffect.sound, ?_⟩
  intro uid hnull
  rcases (heffect.null uid).mp hnull with hold | hnew
  · exact h.clean uid hold
  · exact hnew

/-- An unknown uid of a clean table has no entry. -/
theorem Intact.absent (h : n.Intact) {uid : Nat} (hnot : ¬ n.Live uid) :
    n.connectionUids uid = none :=
  (not_live_iff.mp hnot).resolve_right (h.clean uid)

/-- A null pointer that was added stays. -/
theorem not_clean_of_added {gone added : Nat → Prop}
    (heffect : Effect n next gone added) {uid : Nat} (hadded : added uid) :
    ¬ next.Clean :=
  fun hclean => hclean uid ((heffect.null uid).mpr (Or.inr hadded))

/-! ### A batch of commands -/

/-- One command for a live uid. -/
theorem command_live (h : n.Intact) {msg : TagSendData} (hlive : n.Live msg.uid)
    (maxIOVcount : Nat) (rest : List TagSendData) (results : List WriteResult) :
    ∃ middle results',
      commandLoop maxIOVcount n (msg :: rest) results =
        commandLoop maxIOVcount middle rest results' ∧ middle.Intact ∧
      middle.Live = fun uid => n.Live uid ∧ ¬ (msg.cmd = .close ∧ uid = msg.uid) := by
  cases hcmd : msg.cmd with
  | send =>
      obtain ⟨middle, hsend, heffect⟩ :=
        sendCommand_live h.sound hlive maxIOVcount (results.headD .again)
      refine ⟨middle, results.tail, ?_, h.of_effect heffect, ?_⟩
      · simp only [commandLoop, hcmd, hsend, bind, Except.bind]
      · funext uid
        simp [heffect.live, nowhere]
  | close =>
      obtain ⟨middle, hclose, heffect⟩ := closeCommand_live h.sound hlive
      refine ⟨middle, results, ?_, h.of_effect heffect, ?_⟩
      · simp only [commandLoop, hcmd, hclose, bind, Except.bind]
      · funext uid
        simp [heffect.live]

/-- A batch that names known uids only is handled without a null pointer. -/
theorem commandLoop_known (maxIOVcount : Nat) (msgs : List TagSendData) :
    ∀ {n : NetThread} {results : List WriteResult}, n.Intact →
      CommandsKnown n.Live msgs →
      ∃ next, commandLoop maxIOVcount n msgs results = .ok next ∧ next.Intact := by
  induction msgs with
  | nil => exact fun h _ => ⟨_, rfl, h⟩
  | cons msg rest ih =>
      rintro n results h ⟨hlive, hrest⟩
      obtain ⟨middle, results', hloop, hmiddle, hlives⟩ :=
        command_live h hlive maxIOVcount rest results
      rw [← hlives] at hrest
      rw [hloop]
      exact ih hmiddle hrest

/-- A batch that names an unknown uid dereferences a null pointer or leaves one in
the table. -/
theorem commandLoop_unknown (maxIOVcount : Nat) (msgs : List TagSendData) :
    ∀ {n : NetThread} {results : List WriteResult}, n.Intact →
      ¬ CommandsKnown n.Live msgs →
      commandLoop maxIOVcount n msgs results = .error .nullPointer ∨
        ∃ next, commandLoop maxIOVcount n msgs results = .ok next ∧ ¬ next.Clean := by
  induction msgs with
  | nil => exact fun _ hbad => absurd trivial hbad
  | cons msg rest ih =>
      intro n results h hbad
      by_cases hlive : n.Live msg.uid
      · obtain ⟨middle, results', hloop, hmiddle, hlives⟩ :=
          command_live h hlive maxIOVcount rest results
        have hrest : ¬ CommandsKnown middle.Live rest := by
          rw [hlives]
          exact fun hgood => hbad ⟨hlive, hgood⟩
        rw [hloop]
        exact ih hmiddle hrest
      · cases hcmd : msg.cmd with
        | send =>
            left
            simp only [commandLoop, hcmd, bind, Except.bind,
              sendCommand_not_live h.sound hlive maxIOVcount (results.headD .again)]
        | close =>
            obtain ⟨middle, hclose, heffect⟩ := closeCommand_not_live h.sound hlive
            have hloop : commandLoop maxIOVcount n (msg :: rest) results =
                commandLoop maxIOVcount middle rest results := by
              simp only [commandLoop, hcmd, hclose, bind, Except.bind]
            rw [hloop]
            rcases commandLoop_effect maxIOVcount rest results
              heffect.sound with ⟨next, added, hnext, hafter⟩ | hfail
            · right
              have hnull : msg.uid = msg.uid ∧ n.connectionUids msg.uid = none :=
                ⟨rfl, h.absent hlive⟩
              exact ⟨next, hnext,
                not_clean_of_added (heffect.trans hafter) (Or.inl hnull)⟩
            · exact Or.inl hfail

end

/-! ### Runs -/

theorem created_intact (freeSize : Nat) (listeners : Nat → Nat) :
    (created freeSize listeners).Intact := by
  constructor
  · intro uid c hc
    contradiction
  · intro uid hnull
    contradiction

theorem accept_intact {n : NetThread} (h : n.Intact) (maxIOVcount listenfd : Nat)
    (result : AcceptResult) :
    (∃ next, netStep maxIOVcount n (.accept listenfd result) = .ok next ∧ next.Intact) ∨
      netStep maxIOVcount n (.accept listenfd result) = .error .emptyList := by
  cases result with
  | again => exact Or.inl ⟨n, rfl, h⟩
  | failed => exact Or.inl ⟨n, rfl, h⟩
  | accepted fd ip port close =>
      cases hfree : n.free with
      | nil =>
          right
          simp only [netStep, accept, addTConnection, hfree, bind, Except.bind]
      | cons uid rest =>
          obtain ⟨next, hadd, _, _, _, hnull, hsound⟩ := addTConnection_spec h.sound hfree
            (whole_accepted (n.listeners listenfd) listenfd fd ip port close n.accepted
              uid)
          refine Or.inl ⟨next, ?_, hsound, ?_⟩
          · simp only [netStep, accept, hadd, bind, Except.bind]
          · intro other hother
            exact h.clean other ((hnull other).mp hother).1

/-- A known step keeps the table intact, or faults for another reason than a null
pointer. -/
theorem known_step {n : NetThread} (h : n.Intact) (maxIOVcount : Nat)
    {action : NetAction} (hknown : Known n action) :
    (∃ next, netStep maxIOVcount n action = .ok next ∧ next.Intact) ∨
      ∃ fault, netStep maxIOVcount n action = .error fault ∧ fault ≠ .nullPointer := by
  cases action with
  | accept listenfd result =>
      rcases accept_intact h maxIOVcount listenfd result with hnext | hfail
      · exact Or.inl hnext
      · exact Or.inr ⟨_, hfail, by decide⟩
  | net ev =>
      rcases processNet_live h.sound hknown maxIOVcount with
        ⟨next, hnext, heffect⟩ | ⟨fault, hfail, hfault⟩
      · exact Or.inl ⟨next, hnext, h.of_effect heffect⟩
      · exact Or.inr ⟨fault, hfail, hfault.notNull⟩
  | pipe results =>
      have hemptied : Intact { n with sendBuffer := [] } := ⟨h.sound, h.clean⟩
      exact Or.inl (commandLoop_known maxIOVcount n.sendBuffer hemptied hknown)
  | respond uid msg ip port =>
      exact Or.inl ⟨_, rfl, h.of_effect (effect_respond h.sound uid msg ip port)⟩
  | close uid =>
      exact Or.inl ⟨_, rfl, h.of_effect (Effect.of_table_eq h.sound rfl rfl rfl)⟩

/-- A step that is not known dereferences a null pointer or leaves one. -/
theorem unknown_step {n : NetThread} (h : n.Intact) (maxIOVcount : Nat)
    {action : NetAction} (hbad : ¬ Known n action) :
    netStep maxIOVcount n action = .error .nullPointer ∨
      ∃ next, netStep maxIOVcount n action = .ok next ∧ ¬ next.Clean := by
  cases action with
  | accept listenfd result => exact absurd trivial hbad
  | net ev =>
      rcases processNet_not_live h.sound hbad maxIOVcount with hfail | ⟨next, hnext, heffect⟩
      · exact Or.inl hfail
      · exact Or.inr ⟨next, hnext, not_clean_of_added heffect ⟨rfl, h.absent hbad⟩⟩
  | pipe results =>
      have hemptied : Intact { n with sendBuffer := [] } := ⟨h.sound, h.clean⟩
      exact commandLoop_unknown maxIOVcount n.sendBuffer hemptied hbad
  | respond uid msg ip port => exact absurd trivial hbad
  | close uid => exact absurd trivial hbad

/-- Over every run after `createEpoll`, whatever its accepts, events, deletions and
queued commands: no step dereferences a null pointer and no lookup leaves one in the
table, exactly when every uid an event or a command names has a connection when it is
looked up. -/
theorem no_null_iff_known (maxIOVcount freeSize : Nat) (listeners : Nat → Nat)
    (actions : List NetAction) :
    StaysUpTo (fun fault => fault ≠ .nullPointer) (netStep maxIOVcount) Clean
        (created freeSize listeners) actions ↔
      Along (netStep maxIOVcount) Known (created freeSize listeners) actions := by
  apply staysUpTo_iff_along (fun n (h : Intact n) => h.clean) ?_ ?_ ?_
    (created_intact freeSize listeners) along_true
  · intro n action next h _ hknown hstep
    rcases known_step h maxIOVcount hknown with ⟨other, hother, hgood⟩ | ⟨fault, hfail, _⟩
    · exact Except.ok.inj (hother.symm.trans hstep) ▸ hgood
    · rw [hstep] at hfail
      contradiction
  · intro n action fault h _ hstep
    constructor
    · intro htolerated
      by_contra hbad
      rcases unknown_step h maxIOVcount hbad with hfail | ⟨next, hnext, _⟩
      · exact htolerated (Except.error.inj (hstep.symm.trans hfail))
      · rw [hstep] at hnext
        contradiction
    · intro hknown
      rcases known_step h maxIOVcount hknown with ⟨next, hnext, _⟩ | ⟨other, hfail, hother⟩
      · rw [hstep] at hnext
        contradiction
      · exact Except.error.inj (hfail.symm.trans hstep) ▸ hother
  · intro n action next h _ hbad hstep
    rcases unknown_step h maxIOVcount hbad with hfail | ⟨other, hother, hnull⟩
    · rw [hstep] at hfail
      contradiction
    · exact Except.ok.inj (hother.symm.trans hstep) ▸ hnull

/-- A handler answers after its connection hung up. -/
theorem late_response_null :
    run (netStep 1024) (created 0 fun _ => 0)
        [.accept 4 (.accepted 9 "127.0.0.1" 80 false),
          .net { uid := 1, epollhup := true }, .respond 1 [97] "127.0.0.1" 80,
          .pipe []] = .error .nullPointer ∧
      ¬ StaysUpTo (fun fault => fault ≠ .nullPointer) (netStep 1024) Clean
        (created 0 fun _ => 0)
        [.accept 4 (.accepted 9 "127.0.0.1" 80 false),
          .net { uid := 1, epollhup := true }, .respond 1 [97] "127.0.0.1" 80,
          .pipe []] := by
  refine ⟨rfl, ?_⟩
  rintro ⟨_, _, _, _, hfault⟩
  exact hfault rfl

end NetThread

end Tarsx
