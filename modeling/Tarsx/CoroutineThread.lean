/-
The switches of a scheduler, made by a processor: as long as every party writes to its own
memory only, the calls of `jump_fcontext` and `make_fcontext` are legal, and a coroutine goes on
with the registers and the memory that it left.
-/
import Tarsx.ContextSwitch
import Tarsx.SchedulerSwitches

namespace Tarsx

open Foundation Processor

/-- What the party that runs does: code without a switch, or a switch with the addresses that
its call uses. -/
inductive PartyAction (Party Slot : Type) where
  | compute (next : Processor) (pc : Address)
  | perform (switch : Switch Party Slot) (finish ret : Address)

namespace PartyAction

variable {Party Slot : Type}

/-- The calls that make the switch. -/
def call : PartyAction Party Slot → ContextAction Party
  | .compute next pc => .compute next pc
  | .perform (.make _ party) finish ret => .make party finish ret
  | .perform (.jump _ _ target) _ ret => .jump target ret false
  | .perform (.leave _ _ target) _ ret => .jump target ret true

def switches : PartyAction Party Slot → List (Switch Party Slot)
  | .compute _ _ => []
  | .perform switch _ _ => [switch]

end PartyAction

namespace ContextThread

variable {Party Slot : Type}

/-- The slots lie apart from each other and from what the parties own. -/
structure Layout (own : Party → Address → Prop) (place : Slot → Address) (slots : Slot → Prop) :
    Prop where
  apart : ∀ first second, slots first → slots second → first ≠ second →
    Apart (place first) fcontextSize (place second) fcontextSize
  outside : ∀ party slot, slots slot → ∀ x, own party x → ¬ Covers (place slot) fcontextSize x
  own : ∀ party other, party ≠ other → ∀ x, own party x → ¬ own other x

section

variable (own : Party → Address → Prop) (place : Slot → Address) (slots : Slot → Prop)

/-- A party writes neither to what another one owns nor to a slot, and calls the two functions
with the addresses of the switch, on its own stack. -/
def Behaves (t : ContextThread Party) : PartyAction Party Slot → Prop
  | .compute next _ => ∀ x, (∃ party ≠ t.current, own party x) ∨
      (∃ slot, slots slot ∧ Covers (place slot) fcontextSize x) → next.mem x = t.cpu.mem x
  | .perform switch _ _ =>
      (∀ x, Covers (t.cpu.reg .rsp - 8) 8 x → own t.current x) ∧
      match switch with
      | .make slot party => contextOf (t.cpu.reg .rdi) = place slot ∧
          ∀ x, Covers (entryOf (t.cpu.reg .rdi)) 8 x → own party x
      | .jump save load _ | .leave save load _ => t.cpu.reg .rdi = place save ∧
          t.cpu.reg .rsi = place load ∧ t.cpu.reg .rcx = 0

/-- The contexts lie where the parties are saved. -/
structure Represents (s : Switching Party Slot) (t : ContextThread Party) : Prop where
  current : t.current = s.running
  context : ∀ party, t.context party = (s.place party).map place
  slots : ∀ party slot, s.place party = some slot → slots slot

end

section

variable {own : Party → Address → Prop} {place : Slot → Address} {slots : Slot → Prop}
  {s : Switching Party Slot} {t next : ContextThread Party}

/-- What a party keeps is its own, or in its slot. -/
theorem Represents.keeps (h : Represents place slots s t) {party : Party} {x : Address}
    (hx : t.Keeps own party x) : own party x ∨
      ∃ slot, slots slot ∧ s.place party = some slot ∧ Covers (place slot) fcontextSize x := by
  obtain hown | ⟨a, hcontext, hcovers⟩ := hx
  · exact .inl hown
  · rw [h.context, Option.map_eq_some_iff] at hcontext
    obtain ⟨slot, hplace, rfl⟩ := hcontext
    exact .inr ⟨slot, h.slots party slot hplace, hplace, hcovers⟩

/-- A call pushes its return address where no other party keeps anything. -/
theorem Represents.pushes (h : Represents place slots s t) (hlayout : Layout own place slots)
    (htop : ∀ x, Covers (t.cpu.reg .rsp - 8) 8 x → own t.current x) : t.Pushes own := by
  intro party hother x hx hcovers
  have htop := htop x hcovers
  obtain hown | ⟨slot, hslot, -, hcovers⟩ := h.keeps hx
  · exact hlayout.own party _ hother x hown htop
  · exact hlayout.outside _ slot hslot x htop hcovers

/-- No party keeps anything in a slot where nobody is saved. -/
theorem Represents.vacant (h : Represents place slots s t) (hlayout : Layout own place slots)
    {slot : Slot} (hslot : slots slot) (hvacant : s.Vacant slot) {party : Party} {x : Address}
    (hx : t.Keeps own party x) : ¬ Covers (place slot) fcontextSize x := by
  obtain hown | ⟨other, hother, hplace, hcovers⟩ := h.keeps hx
  · exact hlayout.outside party slot hslot x hown
  · exact hlayout.apart other slot hother hslot (fun hsame => hvacant party (hsame ▸ hplace)) x
      hcovers

theorem Represents.jumps (h : Represents place slots s t) (hlayout : Layout own place slots)
    {save load : Slot} {target : Party} (hsave : slots save)
    (hallowed : s.Allowed (.jump save load target))
    (htop : ∀ x, Covers (t.cpu.reg .rsp - 8) 8 x → own t.current x)
    (hrdi : t.cpu.reg .rdi = place save) (hrsi : t.cpu.reg .rsi = place load)
    (hrcx : t.cpu.reg .rcx = 0) : t.Jumps own target where
  other := h.current ▸ hallowed.1
  context := by rw [h.context, hallowed.2.1, hrsi, Option.map_some]
  pushes := h.pushes hlayout htop
  saves party _ x hx := hrdi ▸ h.vacant hlayout hsave hallowed.2.2 hx
  outside x hx := hrdi ▸ hlayout.outside _ save hsave x hx
  stack x hx hcovers := hlayout.outside _ save hsave x (htop x hcovers) (hrdi ▸ hx)
  control := .inl hrcx

theorem Represents.makes (h : Represents place slots s t) (hlayout : Layout own place slots)
    {slot : Slot} {party : Party} (hslot : slots slot) (hallowed : s.Allowed (.make slot party))
    (htop : ∀ x, Covers (t.cpu.reg .rsp - 8) 8 x → own t.current x)
    (hrdi : contextOf (t.cpu.reg .rdi) = place slot)
    (hentry : ∀ x, Covers (entryOf (t.cpu.reg .rdi)) 8 x → own party x) : t.Makes own party := by
  have hparts {x : Address} (hx : Covers (entryOf (t.cpu.reg .rdi)) (8 + fcontextSize) x) :
      own party x ∨ Covers (place slot) fcontextSize x := by
    rw [← hrdi, contextOf_eq]
    exact (Covers.parts (i := 8) hx).imp (hentry x) id
  have hother : party ≠ t.current := h.current ▸ hallowed.1
  refine ⟨hother, h.pushes hlayout htop, fun third _ hthird x hx hcovers => ?_,
    fun x hx hcovers => ?_⟩
  · obtain hown | hcovers := hparts hcovers
    · obtain hkept | ⟨third, hslot, -, hcovers⟩ := h.keeps hx
      · exact hlayout.own _ _ hthird x hkept hown
      · exact hlayout.outside party third hslot x hown hcovers
    · exact h.vacant hlayout hslot hallowed.2.2 hx hcovers
  · obtain hown | hplace := hparts hx
    · exact hlayout.own _ _ hother x hown (htop x hcovers)
    · exact hlayout.outside _ slot hslot x (htop x hcovers) hplace

/-- A party that behaves makes a legal call. -/
theorem Represents.legal (h : Represents place slots s t) (hlayout : Layout own place slots)
    {action : PartyAction Party Slot} (hallowed : ∀ switch ∈ action.switches, s.Allowed switch)
    (hslots : ∀ switch ∈ action.switches, ∀ slot ∈ switch.slots, slots slot)
    (hbehaves : Behaves own place slots t action) : t.Legal own action.call := by
  cases action with
  | compute next pc =>
      intro party hother x hx
      refine hbehaves x ((h.keeps hx).imp (fun hown => ⟨party, hother, hown⟩) ?_)
      rintro ⟨slot, hslot, -, hcovers⟩
      exact ⟨slot, hslot, hcovers⟩
  | perform switch finish ret =>
      obtain ⟨htop, hcall⟩ := hbehaves
      have hallowed := hallowed switch List.mem_cons_self
      have hslots := hslots switch List.mem_cons_self
      cases switch with
      | make slot party =>
          exact h.makes hlayout (hslots slot List.mem_cons_self) hallowed htop hcall.1 hcall.2
      | jump save load target =>
          exact h.jumps hlayout (hslots save List.mem_cons_self) hallowed htop hcall.1 hcall.2.1
            hcall.2.2
      | leave save load target =>
          exact h.jumps hlayout (hslots save List.mem_cons_self) hallowed htop hcall.1 hcall.2.1
            hcall.2.2

variable [DecidableEq Party]

/-- The contexts still lie where the parties are saved behind a jump. -/
theorem Represents.jumped (h : Represents place slots s t) {save : Slot} (target : Party)
    (done : Bool) (hsave : slots save) (hrdi : t.cpu.reg .rdi = place save) {cpu : Processor}
    {pc : Address} : Represents place slots {
      running := target
      place := Function.update (Function.update s.place s.running
        (if done then none else some save)) target none } {
      cpu := cpu
      pc := pc
      current := target
      context := Function.update (Function.update t.context t.current
        (if done then none else some (t.cpu.reg .rdi))) target none } := by
  refine ⟨rfl, fun party => ?_, fun party slot hplace => ?_⟩
  · simp only [Function.update_apply, h.current, h.context, hrdi]
    split
    · rfl
    · split
      · cases done <;> rfl
      · rfl
  · simp only [Function.update_apply] at hplace
    split at hplace
    · contradiction
    · split at hplace
      · cases done with
        | false => exact Option.some.inj hplace ▸ hsave
        | true => contradiction
      · exact h.slots party slot hplace

/-- A switch and its call keep the contexts where the parties are saved. -/
theorem Represents.step (h : Represents place slots s t) {action : PartyAction Party Slot}
    (hlegal : t.Legal own action.call)
    (hslots : ∀ switch ∈ action.switches, ∀ slot ∈ switch.slots, slots slot)
    (hbehaves : Behaves own place slots t action) (hstep : t.step action.call = .ok next) :
    Represents place slots (s.afterAll action.switches) next := by
  cases action with
  | compute cpu pc =>
      obtain rfl := Except.ok.inj hstep
      exact ⟨h.current, h.context, h.slots⟩
  | perform switch finish ret =>
      have hslots := hslots switch List.mem_cons_self
      cases switch with
      | make slot party =>
          obtain ⟨cpu, hmake, -⟩ := Makes.spec hlegal finish ret
          obtain rfl := Except.ok.inj (hmake.symm.trans hstep)
          refine ⟨h.current, fun other => ?_, fun other third hplace => ?_⟩
          · simp only [Switching.afterAll, PartyAction.switches, Switching.after,
              Function.update_apply, h.context, hbehaves.2.1]
            split <;> rfl
          · simp only [Switching.afterAll, PartyAction.switches, Switching.after,
              Function.update_apply] at hplace
            split at hplace
            · exact Option.some.inj hplace ▸ hslots slot List.mem_cons_self
            · exact h.slots other third hplace
      | jump save load target =>
          obtain ⟨cpu, hjump, -⟩ := Jumps.spec hlegal ret false
          obtain rfl := Except.ok.inj (hjump.symm.trans hstep)
          exact h.jumped target false (hslots save List.mem_cons_self) hbehaves.2.1
      | leave save load target =>
          obtain ⟨cpu, hjump, -⟩ := Jumps.spec hlegal ret true
          obtain rfl := Except.ok.inj (hjump.symm.trans hstep)
          exact h.jumped target true (hslots save List.mem_cons_self) hbehaves.2.1

/-- The thread does what the party that runs does. -/
def perform (t : ContextThread Party) (action : PartyAction Party Slot) :
    Except Trap (ContextThread Party) := t.step action.call

theorem run_perform (t : ContextThread Party) (actions : List (PartyAction Party Slot)) :
    Foundation.run perform t actions =
      Foundation.run ContextThread.step t (actions.map PartyAction.call) :=
  run_map PartyAction.call actions

theorem Represents.perform_ok (h : Represents place slots s t) (hlayout : Layout own place slots)
    (action : PartyAction Party Slot) (hallowed : ∀ switch ∈ action.switches, s.Allowed switch)
    (hslots : ∀ switch ∈ action.switches, ∀ slot ∈ switch.slots, slots slot)
    (hbehaves : Behaves own place slots t action) :
    ∃ next, t.perform action = .ok next ∧
      Represents place slots (s.afterAll action.switches) next := by
  have hlegal := h.legal hlayout hallowed hslots hbehaves
  obtain ⟨next, hstep⟩ := step_ok hlegal
  exact ⟨next, hstep, h.step hlegal hslots hbehaves hstep⟩

/-- The parties behave, and their switches may be made: every call of the run is legal. -/
theorem Represents.along (h : Represents place slots s t) (hlayout : Layout own place slots)
    {actions : List (PartyAction Party Slot)}
    (hallowed : s.AllAllowed (actions.flatMap PartyAction.switches))
    (hslots : ∀ switch ∈ actions.flatMap PartyAction.switches, ∀ slot ∈ switch.slots, slots slot)
    (hbehaves : Along perform (Behaves own place slots) t actions) :
    Along ContextThread.step (Legal own) t (actions.map PartyAction.call) := by
  induction actions generalizing s t with
  | nil => trivial
  | cons action rest ih =>
      rw [List.flatMap_cons] at hallowed hslots
      obtain ⟨hfirst, hallowed⟩ := Switching.allAllowed_append.mp hallowed
      have hhead : ∀ switch ∈ action.switches, s.Allowed switch := by
        cases action with
        | compute next pc => simp [PartyAction.switches]
        | perform switch finish ret =>
            intro other hother
            obtain rfl := List.mem_singleton.mp hother
            exact hfirst.1
      have hnow : ∀ switch ∈ action.switches, ∀ slot ∈ switch.slots, slots slot :=
        fun switch hswitch => hslots switch (List.mem_append_left _ hswitch)
      have hlegal := h.legal hlayout hhead hnow hbehaves.1
      refine ⟨hlegal, fun next hstep => ?_⟩
      exact ih (h.step hlegal hnow hbehaves.1 hstep) hallowed
        (fun switch hswitch => hslots switch (List.mem_append_right _ hswitch))
        (hbehaves.2 next hstep)

end

end ContextThread

namespace SwitchedTurns

open CoroutineInfo SchedulerTurns ContextThread

/-- A coroutine, or the main party, that jumps away in a run of the scheduler goes on when a
switch of the scheduler goes back to it, with its registers, its stack pointer and its memory
as they were. -/
theorem party_goes_on (size : Option (UInt32 × (Nat → Bool))) {turns : SchedulerTurns}
    (hstart : SchedulerTurns.start size = .ok turns) (turnActions : List TurnAction)
    {own : CoroutineInfo → Address → Prop} {place : ContextSlot → Address}
    {slots : ContextSlot → Prop} (hlayout : Layout own place slots)
    (hslots : ∀ switch ∈ turns.switchTrace turnActions, ∀ slot ∈ switch.slots, slots slot)
    {t s : ContextThread CoroutineInfo} (hmain : t.current = .main)
    (hnone : ∀ party, t.context party = none)
    {actions before meanwhile : List (PartyAction CoroutineInfo ContextSlot)}
    (htrace : actions.flatMap PartyAction.switches <+: turns.switchTrace turnActions)
    (hbehaves : Along perform (Behaves own place slots) t actions)
    {save load save' load' : ContextSlot} {target : CoroutineInfo} {wake : ContextSwitch}
    {finish ret finish' back : Address} (hactions : actions = before ++
      .perform (.jump save load target) finish ret :: (meanwhile ++ [.perform wake finish' back]))
    (hbefore : Foundation.run perform t before = .ok s)
    (hwake : wake = .jump save' load' s.current ∨ wake = .leave save' load' s.current)
    (hmeanwhile : ∀ action ∈ meanwhile, ∀ switch ∈ action.switches, switch.target ≠ s.current) :
    ∃ waker next, Foundation.run perform s
        (.perform (.jump save load target) finish ret :: meanwhile) = .ok waker ∧
      waker.perform (.perform wake finish' back) = .ok next ∧ Returned own s ret next := by
  subst hactions
  obtain ⟨queues, hordered⟩ := ordered_start hstart
  obtain ⟨later, htrace⟩ := htrace
  have hallowed := (saved_start hstart).allAllowed hordered turnActions
  change Switching.AllAllowed _ (turns.switchTrace turnActions) at hallowed
  rw [← htrace] at hallowed hslots
  have hrepresents : Represents place slots (start turns).contexts t :=
    ⟨hmain, hnone, fun _ _ hplace => absurd hplace (Option.some_ne_none _).symm⟩
  have hlegal := hrepresents.along hlayout (Switching.allAllowed_append.mp hallowed).1
    (fun switch hswitch => hslots switch (List.mem_append_left _ hswitch)) hbehaves
  obtain ⟨done, hdone⟩ : ∃ done,
      (PartyAction.perform wake finish' back).call = .jump s.current back done := by
    obtain rfl | rfl := hwake
    · exact ⟨false, rfl⟩
    · exact ⟨true, rfl⟩
  have hquiet : ∀ action ∈ meanwhile.map PartyAction.call, ¬ action.Touches s.current := by
    intro action haction
    obtain ⟨other, hother, rfl⟩ := List.mem_map.mp haction
    have hswitches := hmeanwhile other hother
    cases other with
    | compute next pc => exact id
    | perform switch finish ret =>
        have htarget := hswitches switch List.mem_cons_self
        cases switch <;> exact htarget
  simp only [List.map_append, List.map_cons, List.map_nil, hdone] at hlegal
  have hrest := (along_append.mp hlegal).2 s ((run_perform t before).symm.trans hbefore)
  obtain ⟨waker, next, hrun, hstep, hreturned, -⟩ := jump_returns hrest hquiet
  refine ⟨waker, next, (run_perform s _).trans hrun, ?_, hreturned⟩
  rw [perform, hdone]
  exact hstep

section

/-! The main party creates a coroutine, whose stack is apart from its own. -/

def ownStack : CoroutineInfo → Address → Prop
  | .main, x => Covers 0x7000 0xFA0 x
  | .coroutine uid, x => uid = 1 ∧ Covers 0x9000 0xFA0 x
  | .head _, _ => False

def ownPlace : ContextSlot → Address
  | .ctxTo _ => 0x9FA0
  | .ctxFrom _ => 0xB000

def ownSlots (slot : ContextSlot) : Prop :=
  slot = .ctxTo (.coroutine 1) ∨ slot = .ctxFrom (.coroutine 1)

theorem ownLayout : Layout ownStack ownPlace ownSlots where
  apart first second hfirst hsecond hne := by
    rcases hfirst with rfl | rfl <;> rcases hsecond with rfl | rfl
    · exact absurd rfl hne
    · exact apart_below (by decide) (by decide)
    · exact (apart_below (by decide) (by decide)).symm
    · exact absurd rfl hne
  outside party slot hslot x hx := by
    rcases hslot with rfl | rfl <;> cases party with
    | main => exact apart_below (by decide) (by decide) x hx
    | coroutine uid => exact apart_below (by decide) (by decide) x hx.2
    | head list => exact hx.elim
  own party other hne x hx hother := by
    cases party with
    | head list => exact hx
    | main =>
        cases other with
        | main => exact hne rfl
        | coroutine uid => exact apart_below (by decide) (by decide) x hx hother.2
        | head list => exact hother
    | coroutine uid =>
        cases other with
        | main => exact apart_below (by decide) (by decide) x hother hx.2
        | coroutine id => exact hne (congrArg _ (hx.1.trans hother.1.symm))
        | head list => exact hother

/-- Registers for a call of the party whose stack is at `base`. -/
def callFrom (base rdi rsi : Address) : Reg → BitVec 64 :=
  callRegisters rdi rsi 0 (base + 0xF00)

theorem callFrom_top {base x : Address} (rdi rsi : Address)
    (hx : Covers (callFrom base rdi rsi .rsp - 8) 8 x) : Covers base 0xFA0 x := by
  change Covers (base + 0xF00 - 8) 8 x at hx
  rw [Covers] at hx ⊢
  bv_omega

/-- The main party is about to make the context. -/
def mainCreates : ContextThread CoroutineInfo where
  cpu := {
    reg := callFrom 0x7000 0xA000 0
    zero := false
    mxcsr := 0x1F80
    controlWord := 0x37F
    mem := fun _ => 0 }
  pc := 0x4000
  current := .main
  context := fun _ => none

/-- A party loads the addresses of its next call. -/
def loads (t : ContextThread CoroutineInfo) (base rdi rsi : Address) :
    PartyAction CoroutineInfo ContextSlot :=
  .compute { t.cpu with reg := callFrom base rdi rsi } t.pc

/-- The switches of `registerFunc` for the first coroutine. -/
def makeFirst : PartyAction CoroutineInfo ContextSlot :=
  .perform (.make (.ctxTo (.coroutine 1)) (.coroutine 1)) 0x6000 0x4100

def enterFirst : PartyAction CoroutineInfo ContextSlot :=
  .perform (.jump (.ctxFrom (.coroutine 1)) (.ctxTo (.coroutine 1)) (.coroutine 1)) 0 0x4200

def leaveFirst : PartyAction CoroutineInfo ContextSlot :=
  .perform (.jump (.ctxTo (.coroutine 1)) (.ctxFrom (.coroutine 1)) .main) 0 0x5100

/-- The call of `registerFunc` returns when `corotineEntry` has jumped back. -/
theorem party_goes_on_main :
    ∃ turns made entered waker next s,
      SchedulerTurns.start (some (1, fun _ => true)) = .ok turns ∧
      Foundation.run perform mainCreates [makeFirst, loads made 0x7000 0xB000 0x9FA0] = .ok s ∧
      Foundation.run perform s [enterFirst, loads entered 0x9000 0x9FA0 0xB000] = .ok waker ∧
      waker.perform leaveFirst = .ok next ∧ Returned ownStack s 0x4200 next := by
  have hslots : ∀ switch ∈ registerFunc (.coroutine 1) .main, ∀ slot ∈ switch.slots,
      ownSlots slot := by simp [registerFunc, Switch.slots, ownSlots]
  have hallowed : Switching.AllAllowed { running := .main, place := fun _ => none }
      (registerFunc (.coroutine 1) .main) :=
    Switching.allAllowed_start CoroutineInfo.noConfusion rfl (by simp [Switching.Vacant])
      (by simp [Switching.Vacant]) ContextSlot.noConfusion
  have hnobody : Represents ownPlace ownSlots
      { running := .main, place := fun _ => none } mainCreates :=
    ⟨rfl, fun _ => rfl, fun _ _ hplace => absurd hplace (Option.some_ne_none _).symm⟩
  have hmakes : Behaves ownStack ownPlace ownSlots mainCreates makeFirst := by
    refine ⟨fun x => callFrom_top 0xA000 0, by decide, fun x hx => ⟨rfl, ?_⟩⟩
    change Covers (entryOf 0xA000) 8 x at hx
    rw [show entryOf 0xA000 = 0x9F98 by decide] at hx
    exact Covers.of_part (i := 0xF98) (a := 0x9000) hx (by decide)
  obtain ⟨made, hmade, hmade'⟩ := hnobody.perform_ok ownLayout makeFirst
    (List.forall_mem_singleton.mpr hallowed.1)
    (List.forall_mem_singleton.mpr (hslots _ List.mem_cons_self)) hmakes
  have hready : Represents ownPlace ownSlots _ { made with
      cpu := { made.cpu with reg := callFrom 0x7000 0xB000 0x9FA0 } } :=
    ⟨hmade'.current, hmade'.context, hmade'.slots⟩
  have henters : Behaves ownStack ownPlace ownSlots { made with
      cpu := { made.cpu with reg := callFrom 0x7000 0xB000 0x9FA0 } } enterFirst := by
    refine ⟨fun x hx => ?_, rfl, rfl, rfl⟩
    rw [hready.current]
    exact callFrom_top 0xB000 0x9FA0 hx
  obtain ⟨entered, hentered, hentered'⟩ := hready.perform_ok ownLayout enterFirst
    (List.forall_mem_singleton.mpr hallowed.2.1)
    (List.forall_mem_singleton.mpr (hslots _ (List.mem_cons_of_mem _ List.mem_cons_self))) henters
  have hleaves : Behaves ownStack ownPlace ownSlots { entered with
      cpu := { entered.cpu with reg := callFrom 0x9000 0x9FA0 0xB000 } } leaveFirst := by
    refine ⟨fun x hx => ?_, rfl, rfl, rfl⟩
    rw [show ContextThread.current _ = _ from hentered'.current]
    exact ⟨rfl, callFrom_top 0x9FA0 0xB000 hx⟩
  have hbehaves : Along perform (Behaves ownStack ownPlace ownSlots) mainCreates
      ([makeFirst, loads made 0x7000 0xB000 0x9FA0] ++
        enterFirst :: ([loads entered 0x9000 0x9FA0 0xB000] ++ [leaveFirst])) :=
    .cons_of_ok hmakes hmade (.cons_of_ok (fun _ _ => rfl) rfl (.cons_of_ok henters hentered
      (.cons_of_ok (fun _ _ => rfl) rfl ⟨hleaves, fun _ _ => trivial⟩)))
  have hbefore : Foundation.run perform mainCreates
      [makeFirst, loads made 0x7000 0xB000 0x9FA0] = .ok _ := run_cons_of_ok hmade _
  have hcurrent : made.current = .main := hmade'.current
  obtain ⟨waker, next, hrun, hback, hreturned⟩ := party_goes_on (some (1, fun _ => true)) rfl
    [.createCoroutine fun _ => true] ownLayout hslots rfl (fun _ => rfl) ⟨[], rfl⟩ hbehaves rfl
    hbefore (.inl (congrArg (Switch.jump _ _) hcurrent.symm))
    (by simp [loads, PartyAction.switches])
  exact ⟨_, made, entered, waker, next, _, rfl, hbefore, hrun, hback, hreturned⟩

end

end SwitchedTurns

end Tarsx
