/-
The thread that coroutines run on, at the level of the processor: the party that runs
computes, jumps to another context or makes one.  A party that jumps away finds its
registers, its stack pointer and its memory as it left them when a jump brings it back.
-/
import Tarsx.FContext
import Tarsx.Foundation.Run

namespace Tarsx

open Foundation Processor

/-- A thread: its processor, where it goes on, which party runs and where the contexts of
the others are. -/
structure ContextThread (Party : Type) where
  cpu : Processor
  pc : Address
  current : Party
  context : Party → Option Address

/-- What the party that runs does: code that calls neither function, or a call of one of them
with its return address.  A party that is `done` does not go on behind the jump. -/
inductive ContextAction (Party : Type) where
  | compute (next : Processor) (pc : Address)
  | jump (target : Party) (ret : Address) (done : Bool)
  | make (party : Party) (finish ret : Address)

namespace ContextAction

variable {Party : Type}

/-- The action goes to the party's context or makes it anew. -/
def Touches (party : Party) : ContextAction Party → Prop
  | .compute _ _ => False
  | .jump target _ _ => target = party
  | .make made _ _ => made = party

end ContextAction

namespace ContextThread

variable {Party : Type}

section

variable [DecidableEq Party]

/-- A call of `jump_fcontext`. -/
def jump (s : ContextThread Party) (target : Party) (ret : Address) (done : Bool) :
    Except Trap (ContextThread Party) := do
  let (pc, cpu) ← exec jump_fcontext 0 (s.cpu.call ret)
  .ok {
    cpu := cpu
    pc := pc
    current := target
    context := Function.update (Function.update s.context s.current
      (if done then none else some (s.cpu.reg .rdi))) target none }

/-- A call of `make_fcontext`. -/
def make (s : ContextThread Party) (party : Party) (finish ret : Address) :
    Except Trap (ContextThread Party) := do
  let (pc, cpu) ← exec (make_fcontext finish) 0 (s.cpu.call ret)
  .ok { s with
    cpu := cpu
    pc := pc
    context := Function.update s.context party (some (cpu.reg .rax)) }

def step (s : ContextThread Party) : ContextAction Party → Except Trap (ContextThread Party)
  | .compute next pc => .ok { s with cpu := next, pc := pc }
  | .jump target ret done => s.jump target ret done
  | .make party finish ret => s.make party finish ret

end

/-! ### What a party may write -/

section

variable (own : Party → Address → Prop) (s : ContextThread Party)

/-- The memory that a party must find as it was: its own, and its context. -/
def Keeps (party : Party) (x : Address) : Prop :=
  own party x ∨ ∃ a, s.context party = some a ∧ Covers a fcontextSize x

/-- The return address of a call is pushed where no other party keeps anything. -/
def Pushes : Prop :=
  ∀ party ≠ s.current, ∀ x, s.Keeps own party x → ¬ Covers (s.cpu.reg .rsp - 8) 8 x

/-- A jump to the context of another party, which is saved where no party keeps anything,
and outside the stack of the party that jumps. -/
structure Jumps (target : Party) : Prop where
  other : target ≠ s.current
  context : s.context target = some (s.cpu.reg .rsi)
  pushes : s.Pushes own
  saves : ∀ party ≠ s.current, ∀ x, s.Keeps own party x → ¬ Covers (s.cpu.reg .rdi) fcontextSize x
  outside : ∀ x, own s.current x → ¬ Covers (s.cpu.reg .rdi) fcontextSize x
  stack : Apart (s.cpu.reg .rdi) fcontextSize (s.cpu.reg .rsp - 8) 8
  control : s.cpu.reg .rcx = 0 ∨
    reserved (FContext.mxcsrAt s.cpu.mem (s.cpu.reg .rsi)) = false

/-- A context is made for another party, where only that party may keep something. -/
structure Makes (party : Party) : Prop where
  other : party ≠ s.current
  pushes : s.Pushes own
  makes : ∀ third ≠ s.current, third ≠ party → ∀ x, s.Keeps own third x →
    ¬ Covers (entryOf (s.cpu.reg .rdi)) (8 + fcontextSize) x
  stack : Apart (entryOf (s.cpu.reg .rdi)) (8 + fcontextSize) (s.cpu.reg .rsp - 8) 8

/-- The party that runs leaves alone what the others keep. -/
def Legal : ContextAction Party → Prop
  | .compute next _ =>
      ∀ party ≠ s.current, ∀ x, s.Keeps own party x → next.mem x = s.cpu.mem x
  | .jump target _ _ => s.Jumps own target
  | .make party _ _ => s.Makes own party

end

/-! ### One step -/

section

variable {own : Party → Address → Prop} {s next : ContextThread Party} {party : Party}

theorem call_kept {cpu : Processor} {ret x : Address} (hx : ¬ Covers (cpu.reg .rsp - 8) 8 x) :
    (cpu.call ret).mem x = cpu.mem x :=
  ByteMemory.store_of_not_covers hx

theorem load_call (cpu : Processor) (ret : Address) :
    (cpu.call ret).mem.load 8 ((cpu.call ret).reg .rsp) = ret := by
  have hrsp : (cpu.call ret).reg .rsp = cpu.reg .rsp - 8 := by simp [call]
  rw [hrsp, call, mem_set, mem_write]
  exact ByteMemory.load_store (by decide)

theorem reg_call {cpu : Processor} {ret : Address} {reg : Reg} (h : reg ≠ .rsp) :
    (cpu.call ret).reg reg = cpu.reg reg := by
  simp [call, h]

/-- What another party keeps is as it was behind the push. -/
theorem Pushes.kept (h : s.Pushes own) (hother : party ≠ s.current) {ret x : Address}
    (hx : s.Keeps own party x) : (s.cpu.call ret).mem x = s.cpu.mem x :=
  call_kept (h party hother x hx)

/-- The context that a legal jump goes to is as it was behind the push. -/
theorem Jumps.target_kept {target : Party} (h : s.Jumps own target) (ret : Address) :
    ByteMemory.Agree (Covers (s.cpu.reg .rsi) fcontextSize) (s.cpu.call ret).mem s.cpu.mem :=
  fun _ hx => h.pushes.kept h.other (.inr ⟨_, h.context, hx⟩)

/-- A party does not run; its context is at an address, and what it keeps is as in `m`. -/
structure Asleep (own : Party → Address → Prop) (party : Party) (a : Address) (m : ByteMemory)
    (s : ContextThread Party) : Prop where
  other : party ≠ s.current
  context : s.context party = some a
  kept : ∀ x, own party x ∨ Covers a fcontextSize x → s.cpu.mem x = m x

theorem Asleep.keeps {a x : Address} {m : ByteMemory} (h : s.Asleep own party a m)
    (hx : own party x ∨ Covers a fcontextSize x) : s.Keeps own party x :=
  hx.imp id fun hcovers => ⟨a, h.context, hcovers⟩

variable [DecidableEq Party]

/-- A legal jump does what `jump_fcontext` does. -/
theorem Jumps.spec {target : Party} (h : s.Jumps own target) (ret : Address) (done : Bool) :
    ∃ cpu, s.jump target ret done = .ok {
        cpu := cpu
        pc := (FContext.read s.cpu.mem (s.cpu.reg .rsi)).rip
        current := target
        context := Function.update (Function.update s.context s.current
          (if done then none else some (s.cpu.reg .rdi))) target none } ∧
      Jumped (s.cpu.call ret) cpu := by
  have hrdi : (s.cpu.call ret).reg .rdi = s.cpu.reg .rdi := reg_call (by decide)
  have hrsi : (s.cpu.call ret).reg .rsi = s.cpu.reg .rsi := reg_call (by decide)
  have hrcx : (s.cpu.call ret).reg .rcx = s.cpu.reg .rcx := reg_call (by decide)
  have hrsp : (s.cpu.call ret).reg .rsp = s.cpu.reg .rsp - 8 := by simp [call]
  have htarget := h.target_kept ret
  have hcontexts : Apart (s.cpu.reg .rdi) fcontextSize (s.cpu.reg .rsi) fcontextSize :=
    Apart.symm fun x hx => h.saves target h.other x (.inr ⟨_, h.context, hx⟩)
  obtain ⟨cpu, hexec, hjumped⟩ := @exec_jump_fcontext (s.cpu.call ret)
    (by rw [hrdi, hrsi]; exact hcontexts) (by rw [hrdi, hrsp]; exact h.stack)
    (by rw [hrcx, hrsi, FContext.mxcsrAt_congr htarget]; exact h.control)
  rw [hrsi, FContext.read_congr htarget] at hexec
  refine ⟨cpu, ?_, hjumped⟩
  rw [jump, hexec]
  rfl

/-- A legal call of `make_fcontext` does what it does. -/
theorem Makes.spec (h : s.Makes own party) (finish ret : Address) :
    ∃ cpu, s.make party finish ret = .ok { s with
        cpu := cpu
        pc := ret
        context := Function.update s.context party (some (contextOf (s.cpu.reg .rdi))) } ∧
      Made finish (s.cpu.call ret) cpu := by
  have hrdi : (s.cpu.call ret).reg .rdi = s.cpu.reg .rdi := reg_call (by decide)
  have hrsp : (s.cpu.call ret).reg .rsp = s.cpu.reg .rsp - 8 := by simp [call]
  obtain ⟨cpu, hexec, hmade⟩ := @exec_make_fcontext (s.cpu.call ret) finish
    (by rw [hrdi, hrsp]; exact h.stack)
  rw [load_call] at hexec
  refine ⟨cpu, ?_, hmade⟩
  rw [make, hexec]
  simp only [bind, Except.bind, hmade.result, hrdi]

theorem step_ok {action : ContextAction Party} (h : s.Legal own action) :
    ∃ next, s.step action = .ok next := by
  cases action with
  | compute next pc => exact ⟨_, rfl⟩
  | jump target ret done =>
      obtain ⟨cpu, hjump, -⟩ := Jumps.spec h ret done
      exact ⟨_, hjump⟩
  | make party finish ret =>
      obtain ⟨cpu, hmake, -⟩ := Makes.spec h finish ret
      exact ⟨_, hmake⟩

/-- A legal step that does not touch the context of a party leaves the party asleep. -/
theorem Asleep.step {a : Address} {m : ByteMemory} {action : ContextAction Party}
    (h : Asleep own party a m s) (hlegal : s.Legal own action) (hnot : ¬ action.Touches party)
    (hstep : s.step action = .ok next) : Asleep own party a m next := by
  cases action with
  | compute cpu pc =>
      obtain rfl := Except.ok.inj hstep
      refine ⟨h.other, h.context, fun x hx => ?_⟩
      exact (hlegal party h.other x (h.keeps hx)).trans (h.kept x hx)
  | jump target ret done =>
      obtain ⟨cpu, hjump, hjumped⟩ := Jumps.spec hlegal ret done
      obtain rfl := Except.ok.inj (hjump.symm.trans hstep)
      refine ⟨Ne.symm hnot, ?_, fun x hx => ?_⟩
      · simp [Function.update_of_ne (Ne.symm hnot), Function.update_of_ne h.other, h.context]
      · have hkeeps := h.keeps hx
        rw [hjumped.kept x (by
            rw [reg_call (by decide)]
            exact hlegal.saves party h.other x hkeeps),
          hlegal.pushes.kept h.other hkeeps, h.kept x hx]
  | make made finish ret =>
      obtain ⟨cpu, hmake, hmade⟩ := Makes.spec hlegal finish ret
      obtain rfl := Except.ok.inj (hmake.symm.trans hstep)
      refine ⟨h.other, ?_, fun x hx => ?_⟩
      · rw [← h.context]
        exact Function.update_of_ne (Ne.symm hnot) _ _
      · have hkeeps := h.keeps hx
        rw [hmade.kept x (by
            rw [reg_call (by decide)]
            exact hlegal.makes party h.other (Ne.symm hnot) x hkeeps),
          hlegal.pushes.kept h.other hkeeps, h.kept x hx]

/-! ### Runs -/

/-- A run in which the party sleeps. -/
theorem Asleep.run {a : Address} {m : ByteMemory} {actions : List (ContextAction Party)}
    (h : Asleep own party a m s) (hlegal : Along ContextThread.step (Legal own) s actions)
    (hnot : ∀ action ∈ actions, ¬ action.Touches party) :
    ∃ last, Foundation.run ContextThread.step s actions = .ok last ∧ Asleep own party a m last := by
  refine Stays.run_ok (stays_of_along (fun _ hasleep => hasleep) ?_ h
    (hlegal.and_forall fun _ => hnot))
  intro state action hasleep hcond
  obtain ⟨next, hstep⟩ := step_ok hcond.1
  exact ⟨next, hstep, hasleep.step hcond.1 hcond.2 hstep⟩

/-- A party has jumped away: its context holds what it goes on with. -/
structure Left (own : Party → Address → Prop) (s : ContextThread Party) (ret : Address)
    (next : ContextThread Party) : Prop where
  asleep : Asleep own s.current (s.cpu.reg .rdi) next.cpu.mem next
  context : FContext.read next.cpu.mem (s.cpu.reg .rdi) = .ofProcessor s.cpu (s.cpu.reg .rsp) ret
  control : s.cpu.reg .rcx ≠ 0 →
    FContext.mxcsrAt next.cpu.mem (s.cpu.reg .rdi) = s.cpu.mxcsr ∧
      FContext.controlWordAt next.cpu.mem (s.cpu.reg .rdi) = s.cpu.controlWord
  memory : ∀ x, own s.current x → ¬ Covers (s.cpu.reg .rsp - 8) 8 x → next.cpu.mem x = s.cpu.mem x

theorem Jumps.left {target : Party} (h : s.Jumps own target) {ret : Address}
    (hstep : s.step (.jump target ret false) = .ok next) : Left own s ret next := by
  obtain ⟨cpu, hjump, hjumped⟩ := h.spec ret false
  obtain rfl := Except.ok.inj (hjump.symm.trans hstep)
  have hsaved := hjumped.saved
  have hkept := hjumped.kept
  have hcontrol := hjumped.savedControl
  rw [reg_call (by decide)] at hsaved hkept hcontrol
  rw [reg_call (by decide)] at hcontrol
  refine ⟨⟨h.other.symm, ?_, fun _ _ => rfl⟩, ?_, hcontrol, fun x hx hpushed => ?_⟩
  · simp [Function.update_of_ne h.other.symm]
  · have hback : (s.cpu.call ret).reg .rsp + 8 = s.cpu.reg .rsp := BitVec.sub_add_cancel _ _
    rw [hsaved, load_call, hback]
    rfl
  · rw [hkept x (h.outside x hx), call_kept hpushed]

/-- A party goes on with the context at `a`, in memory that was `m` when it fell asleep. -/
structure Woken (own : Party → Address → Prop) (party : Party) (a : Address) (m : ByteMemory)
    (s next : ContextThread Party) : Prop where
  current : next.current = party
  pc : next.pc = (FContext.read m a).rip
  registers : FContext.ofProcessor next.cpu (next.cpu.reg .rsp) (FContext.read m a).rip =
    FContext.read m a
  result : next.cpu.reg .rax = s.cpu.reg .rdx
  argument : next.cpu.reg .rdi = s.cpu.reg .rdx
  control : s.cpu.reg .rcx ≠ 0 → next.cpu.mxcsr = FContext.mxcsrAt m a ∧
    next.cpu.controlWord = FContext.controlWordAt m a
  memory : ∀ x, own party x → next.cpu.mem x = m x

theorem Jumps.woken {a ret : Address} {done : Bool} {m : ByteMemory} (h : s.Jumps own party)
    (hasleep : Asleep own party a m s) (hstep : s.step (.jump party ret done) = .ok next) :
    Woken own party a m s next := by
  obtain ⟨cpu, hjump, hjumped⟩ := h.spec ret done
  obtain rfl := Except.ok.inj (hjump.symm.trans hstep)
  have hrsi : s.cpu.reg .rsi = a := Option.some.inj (h.context.symm.trans hasleep.context)
  have hcontext : ByteMemory.Agree (Covers a fcontextSize) (s.cpu.call ret).mem m := fun x hx =>
    (h.target_kept ret x (by rw [hrsi]; exact hx)).trans (hasleep.kept x (.inr hx))
  have hread := FContext.read_congr hcontext
  have hplace : (s.cpu.call ret).reg .rsi = a := (reg_call (by decide)).trans hrsi
  have hrip : (FContext.read s.cpu.mem (s.cpu.reg .rsi)).rip = (FContext.read m a).rip := by
    rw [hrsi, FContext.read_congr fun x hx => hasleep.kept x (.inr hx)]
  have hresumed := hjumped.resumed
  have hcontrol := hjumped.control
  rw [hplace, hread] at hresumed
  rw [hplace, FContext.mxcsrAt_congr hcontext, FContext.controlWordAt_congr hcontext,
    reg_call (by decide)] at hcontrol
  refine ⟨rfl, hrip, hresumed, ?_, ?_, fun hpreserve => ?_, fun x hx => ?_⟩
  · rw [hjumped.result, reg_call (by decide)]
  · rw [hjumped.argument, reg_call (by decide)]
  · rw [if_neg hpreserve] at hcontrol
    exact Prod.ext_iff.mp hcontrol
  · have hkeeps : s.Keeps own party x := .inl hx
    rw [hjumped.kept x (by rw [reg_call (by decide)]; exact h.saves party h.other x hkeeps),
      h.pushes.kept h.other hkeeps, hasleep.kept x (.inl hx)]

/-- What a call of `jump_fcontext` leaves when it returns: the registers that a call keeps,
the stack pointer and the memory of the party, but for the place of the return address. -/
structure Returned (own : Party → Address → Prop) (s : ContextThread Party) (ret : Address)
    (next : ContextThread Party) : Prop where
  current : next.current = s.current
  pc : next.pc = ret
  registers : FContext.ofProcessor next.cpu (next.cpu.reg .rsp) ret =
    .ofProcessor s.cpu (s.cpu.reg .rsp) ret
  memory : ∀ x, own s.current x → ¬ Covers (s.cpu.reg .rsp - 8) 8 x → next.cpu.mem x = s.cpu.mem x

/-- A party that jumps away returns from its call when a party jumps back to it, whatever the
others did meanwhile; the call returns what that party passed. -/
theorem jump_returns {target : Party} {ret back : Address} {done : Bool}
    {actions : List (ContextAction Party)} (hlegal : Along ContextThread.step (Legal own) s
      (.jump target ret false :: (actions ++ [.jump s.current back done])))
    (hmeanwhile : ∀ action ∈ actions, ¬ action.Touches s.current) :
    ∃ waker next,
      Foundation.run ContextThread.step s (.jump target ret false :: actions) = .ok waker ∧
      waker.step (.jump s.current back done) = .ok next ∧ Returned own s ret next ∧
      next.cpu.reg .rax = waker.cpu.reg .rdx ∧
      (s.cpu.reg .rcx ≠ 0 → waker.cpu.reg .rcx ≠ 0 →
        next.cpu.mxcsr = s.cpu.mxcsr ∧ next.cpu.controlWord = s.cpu.controlWord) := by
  obtain ⟨hjumps, hrest⟩ := hlegal
  obtain ⟨gone, hgone⟩ := step_ok hjumps
  have hleft := Jumps.left hjumps hgone
  obtain ⟨hactions, hback⟩ := along_append.mp (hrest gone hgone)
  obtain ⟨waker, hrun, hasleep⟩ := hleft.asleep.run hactions hmeanwhile
  obtain ⟨hwakes, -⟩ := hback waker hrun
  obtain ⟨next, hnext⟩ := step_ok hwakes
  have hwoken := Jumps.woken hwakes hasleep hnext
  have hregisters := hwoken.registers
  rw [hleft.context] at hregisters
  refine ⟨waker, next, (run_cons_of_ok hgone actions).trans hrun, hnext, ?_, hwoken.result, ?_⟩
  · refine ⟨hwoken.current, ?_, hregisters, fun x hx hpushed => ?_⟩
    · rw [hwoken.pc, hleft.context]
      rfl
    · rw [hwoken.memory x hx, hleft.memory x hx hpushed]
  · intro hsaved hrestored
    rw [(hwoken.control hrestored).1, (hwoken.control hrestored).2]
    exact hleft.control hsaved

section

/-! Two parties, whose stacks are apart. -/

/-- Registers for a call. -/
def callRegisters (rdi rsi rdx rsp : BitVec 64) : Reg → BitVec 64
  | .rdi => rdi
  | .rsi => rsi
  | .rdx => rdx
  | .rsp => rsp
  | _ => 0

/-- The stacks of a main party and a coroutine. -/
def twoStacks (party : Bool) : Address → Prop :=
  Covers (if party then 0x9000 else 0x7000) 0xFA0

/-- The main party calls, with the context of the coroutine. -/
def mainCalls (context : Option Address) (rdi rsi rdx : BitVec 64) : ContextThread Bool where
  cpu := {
    reg := callRegisters rdi rsi rdx 0x7F00
    zero := false
    mxcsr := 0x1F80
    controlWord := 0x37F
    mem := fun _ => 0 }
  pc := 0x4000
  current := false
  context := Function.update (fun _ => none) true context

variable {t : ContextThread Bool}

theorem keeps_twoStacks {other : Bool} {a b x : Address} {k : Nat}
    (hcontext : t.context other = some a)
    (hstack : Apart (if other then 0x9000 else 0x7000) 0xFA0 b k)
    (hplace : Apart a fcontextSize b k) (hx : t.Keeps twoStacks other x) : ¬ Covers b k x := by
  obtain hown | ⟨place, hsome, hcovers⟩ := hx
  · exact hstack x hown
  · obtain rfl := Option.some.inj (hcontext.symm.trans hsome)
    exact hplace x hcovers

/-- A jump between them, its addresses compared. -/
theorem jumps_twoStacks (me other : Bool) (save load top : Address) (hother : me ≠ other)
    (hme : t.current = me) (hcontext : t.context other = some load)
    (hrdi : t.cpu.reg .rdi = save) (hrsi : t.cpu.reg .rsi = load) (hrcx : t.cpu.reg .rcx = 0)
    (hrsp : t.cpu.reg .rsp - 8 = top)
    (hpush : Apart (if other then 0x9000 else 0x7000) 0xFA0 top 8 ∧ Apart load fcontextSize top 8)
    (hsave : Apart (if other then 0x9000 else 0x7000) 0xFA0 save fcontextSize ∧
      Apart load fcontextSize save fcontextSize)
    (hown : Apart (if me then 0x9000 else 0x7000) 0xFA0 save fcontextSize)
    (hstack : Apart save fcontextSize top 8) : t.Jumps twoStacks other := by
  have hboth : ∀ me other third : Bool, me ≠ other → third ≠ me → third = other := by decide
  have hthe (third : Bool) (hthird : third ≠ t.current) : third = other :=
    hboth me other third hother (hme ▸ hthird)
  subst hrdi hrsi hrsp
  refine ⟨hme ▸ hother.symm, hcontext, ?_, ?_, ?_, hstack, .inl hrcx⟩
  · intro third hthird x hx
    obtain rfl := hthe third hthird
    exact keeps_twoStacks hcontext hpush.1 hpush.2 hx
  · intro third hthird x hx
    obtain rfl := hthe third hthird
    exact keeps_twoStacks hcontext hsave.1 hsave.2 hx
  · rw [hme]
    exact hown

/-- The main party jumps to the coroutine, which makes another call and jumps back. -/
theorem jump_returns_two :
    ∃ actions waker next,
      Foundation.run ContextThread.step (mainCalls (some 0x9FA0) 0x1000 0x9FA0 7)
        (.jump true 0x4100 false :: actions) = .ok waker ∧
      waker.step (.jump false 0x5100 false) = .ok next ∧
      Returned twoStacks (mainCalls (some 0x9FA0) 0x1000 0x9FA0 7) 0x4100 next := by
  have hjumps : (mainCalls (some 0x9FA0) 0x1000 0x9FA0 7).Jumps twoStacks true :=
    jumps_twoStacks false true 0x1000 0x9FA0 0x7EF8 (by decide) rfl rfl rfl rfl rfl rfl
      ⟨(apart_below (by decide) (by decide)).symm, (apart_below (by decide) (by decide)).symm⟩
      ⟨(apart_below (by decide) (by decide)).symm, (apart_below (by decide) (by decide)).symm⟩
      (apart_below (by decide) (by decide)).symm (apart_below (by decide) (by decide))
  obtain ⟨cpu, hgone, -⟩ := hjumps.spec 0x4100 false
  have hback : ContextThread.Jumps twoStacks (ContextThread.mk
      { cpu with reg := callRegisters 0x9FA0 0x1000 42 0x9F00 } 0x5000 true
      (Function.update (Function.update (Function.update (fun _ => none) true (some 0x9FA0))
        false (some 0x1000)) true none)) false :=
    jumps_twoStacks true false 0x9FA0 0x1000 0x9EF8 (by decide) rfl rfl rfl rfl rfl
      ((show _ = (0x9F00 : Address) - 8 from rfl).trans (by decide))
      ⟨apart_below (by decide) (by decide), apart_below (by decide) (by decide)⟩
      ⟨apart_below (by decide) (by decide), apart_below (by decide) (by decide)⟩
      (apart_below (by decide) (by decide)) (apart_below (by decide) (by decide)).symm
  have hlegal : Along ContextThread.step (Legal twoStacks)
      (mainCalls (some 0x9FA0) 0x1000 0x9FA0 7)
      (.jump true 0x4100 false :: ([.compute { cpu with
        reg := callRegisters 0x9FA0 0x1000 42 0x9F00 } 0x5000] ++ [.jump false 0x5100 false])) :=
    .cons_of_ok hjumps hgone (.cons_of_ok (fun _ _ _ _ => rfl) rfl ⟨hback, fun _ _ => trivial⟩)
  obtain ⟨waker, next, hrun, hstep, hreturned, -⟩ :=
    jump_returns hlegal (by simp [ContextAction.Touches])
  exact ⟨_, waker, next, hrun, hstep, hreturned⟩

end

/-- A context was made. -/
theorem Makes.asleep (h : s.Makes own party) {finish ret : Address}
    (hstep : s.step (.make party finish ret) = .ok next) :
    Asleep own party (contextOf (s.cpu.reg .rdi)) next.cpu.mem next ∧
      (FContext.read next.cpu.mem (contextOf (s.cpu.reg .rdi))).rsp = entryOf (s.cpu.reg .rdi) ∧
      (FContext.read next.cpu.mem (contextOf (s.cpu.reg .rdi))).rip = s.cpu.reg .rdx ∧
      next.cpu.mem.load 8 (entryOf (s.cpu.reg .rdi)) = finish := by
  obtain ⟨cpu, hmake, hmade⟩ := h.spec finish ret
  obtain rfl := Except.ok.inj (hmake.symm.trans hstep)
  have hrsp := hmade.rsp
  have hrip := hmade.rip
  have hfinish := hmade.finish
  rw [reg_call (by decide)] at hrsp hrip hfinish
  rw [reg_call (by decide)] at hrip
  exact ⟨⟨h.other, Function.update_self _ _ _, fun _ _ => rfl⟩, hrsp, hrip, hfinish⟩

/-- The first jump to a context enters its function on the party's own stack, whatever happened
since the context was made: the stack is aligned for a call, the function finds `finish` as its
return address and gets what the jump passed, and what it finds there lies inside any stack with
room for a context. -/
theorem made_enters {finish ret back : Address} {done : Bool}
    {actions : List (ContextAction Party)} (hlegal : Along ContextThread.step (Legal own) s
      (.make party finish ret :: (actions ++ [.jump party back done])))
    (hmeanwhile : ∀ action ∈ actions, ¬ action.Touches party)
    (hown : ∀ x, Covers (entryOf (s.cpu.reg .rdi)) 8 x → own party x) :
    ∃ waker next,
      Foundation.run ContextThread.step s (.make party finish ret :: actions) = .ok waker ∧
      waker.step (.jump party back done) = .ok next ∧ next.current = party ∧
      next.pc = s.cpu.reg .rdx ∧ next.cpu.reg .rdi = waker.cpu.reg .rdx ∧
      next.cpu.reg .rsp = entryOf (s.cpu.reg .rdi) ∧ (next.cpu.reg .rsp + 8).toNat % 16 = 0 ∧
      next.cpu.mem.load 8 (next.cpu.reg .rsp) = finish ∧
      ∀ size : Address, contextReserve ≤ size.toNat → ∀ x,
        Covers (next.cpu.reg .rsp) (8 + fcontextSize) x →
          Covers (s.cpu.reg .rdi - size) size.toNat x := by
  obtain ⟨hmakes, hrest⟩ := hlegal
  obtain ⟨made, hmade⟩ := step_ok hmakes
  obtain ⟨hasleep, hrsp, hrip, hfinish⟩ := Makes.asleep hmakes hmade
  obtain ⟨hactions, hback⟩ := along_append.mp (hrest made hmade)
  obtain ⟨waker, hrun, hasleep⟩ := hasleep.run hactions hmeanwhile
  obtain ⟨hwakes, -⟩ := hback waker hrun
  obtain ⟨next, hnext⟩ := step_ok hwakes
  have hwoken := Jumps.woken hwakes hasleep hnext
  have hentry : next.cpu.reg .rsp = entryOf (s.cpu.reg .rdi) :=
    (congrArg FContext.rsp hwoken.registers).trans hrsp
  refine ⟨waker, next, (run_cons_of_ok hmade actions).trans hrun, hnext, hwoken.current,
    hwoken.pc.trans hrip, hwoken.argument, hentry, ?_, ?_, ?_⟩
  · rw [hentry, ← contextOf_eq]
    exact contextOf_aligned _
  · rw [hentry, ← hfinish]
    exact ByteMemory.load_congr (fun x hx => hwoken.memory x (hown x hx)) (by decide)
  · intro size hsize x hx
    rw [hentry] at hx
    exact covers_stack hsize hx

/-- A context is made for the coroutine, on its stack, and the main party jumps to it. -/
theorem made_enters_two :
    ∃ actions waker next,
      Foundation.run ContextThread.step (mainCalls none 0xA000 0x1000 0x5000)
        (.make true 0x6000 0x4100 :: actions) = .ok waker ∧
      waker.step (.jump true 0x4200 false) = .ok next ∧ next.current = true ∧ next.pc = 0x5000 ∧
      next.cpu.mem.load 8 (next.cpu.reg .rsp) = 0x6000 ∧
      ∀ x, Covers (next.cpu.reg .rsp) (8 + fcontextSize) x → Covers 0x9000 0x1000 x := by
  have hentry : entryOf 0xA000 = 0x9F98 := by decide
  have hcontext : contextOf 0xA000 = 0x9FA0 := by decide
  have htop : (mainCalls none 0xA000 0x1000 0x5000).cpu.reg .rsp - 8 = 0x7EF8 :=
    (show _ = (0x7F00 : Address) - 8 from rfl).trans (by decide)
  have hplace : (mainCalls none 0xA000 0x1000 0x5000).cpu.reg .rdi = 0xA000 := rfl
  have hnone : (mainCalls none 0xA000 0x1000 0x5000).context true = none := rfl
  have hmakes : (mainCalls none 0xA000 0x1000 0x5000).Makes twoStacks true := by
    refine ⟨Bool.noConfusion, ?_, fun third hmain htrue => ?_, ?_⟩
    · intro party hparty x hx
      obtain rfl : party = true := (Bool.not_eq_false party).mp hparty
      rw [htop]
      obtain hown | ⟨place, hsome, -⟩ := hx
      · exact (apart_below (by decide) (by decide)).symm x hown
      · exact absurd (hnone.symm.trans hsome) (by simp)
    · exact absurd ((Bool.not_eq_false third).mp hmain) htrue
    · rw [htop, hplace, hentry]
      exact (apart_below (by decide) (by decide)).symm
  obtain ⟨cpu, hmade, -⟩ := hmakes.spec 0x6000 0x4100
  have hjumps : ContextThread.Jumps twoStacks (ContextThread.mk
      { cpu with reg := callRegisters 0x1000 0x9FA0 42 0x7F00 } 0x4100 false
      (Function.update (Function.update (fun _ => none) true none) true
        (some (contextOf 0xA000)))) true :=
    jumps_twoStacks false true 0x1000 0x9FA0 0x7EF8 (by decide) rfl (congrArg some hcontext)
      rfl rfl rfl ((show _ = (0x7F00 : Address) - 8 from rfl).trans (by decide))
      ⟨(apart_below (by decide) (by decide)).symm, (apart_below (by decide) (by decide)).symm⟩
      ⟨(apart_below (by decide) (by decide)).symm, (apart_below (by decide) (by decide)).symm⟩
      (apart_below (by decide) (by decide)).symm (apart_below (by decide) (by decide))
  have hlegal : Along ContextThread.step (Legal twoStacks)
      (mainCalls none 0xA000 0x1000 0x5000)
      (.make true 0x6000 0x4100 :: ([.compute { cpu with
        reg := callRegisters 0x1000 0x9FA0 42 0x7F00 } 0x4100] ++ [.jump true 0x4200 false])) :=
    .cons_of_ok hmakes hmade (.cons_of_ok (fun _ _ _ _ => rfl) rfl ⟨hjumps, fun _ _ => trivial⟩)
  obtain ⟨waker, next, hrun, hstep, hcurrent, hpc, -, -, -, hfinish, hinside⟩ :=
    made_enters hlegal (by simp [ContextAction.Touches]) fun x hx => by
      rw [hplace, hentry] at hx
      exact Covers.of_part (i := 0xF98) (a := 0x9000) hx (by decide)
  exact ⟨_, waker, next, hrun, hstep, hcurrent, hpc, hfinish, hinside 0x1000 (by decide)⟩

end

end ContextThread

end Tarsx
