/-
`jump_fcontext` and `make_fcontext`, instruction by instruction, and the `fcontext_t` that
they keep the registers of a suspended function in.
-/
import Tarsx.Foundation.Processor

namespace Tarsx

open Foundation Processor

/-- The fields `fc_greg` of `fcontext_t`: the registers that a call leaves, the stack
pointer behind the return address, and the address to go on at. -/
structure FContext where
  rbx : BitVec 64
  r12 : BitVec 64
  r13 : BitVec 64
  r14 : BitVec 64
  r15 : BitVec 64
  rbp : BitVec 64
  rsp : BitVec 64
  rip : Address
deriving DecidableEq, Repr

/-- How many bytes an `fcontext_t` has: `fc_greg`, `fc_stack` and `fc_fp`. -/
def fcontextSize : Nat := 0x58

/-- Where the first six registers of a context are. -/
def savedFields : List (Reg × BitVec 64) :=
  [(.rbx, 0), (.r12, 0x8), (.r13, 0x10), (.r14, 0x18), (.r15, 0x20), (.rbp, 0x28)]

/-- Where what is restored is. -/
def restoredFields : List (BitVec 64 × Reg) :=
  [(0, .rbx), (0x8, .r12), (0x10, .r13), (0x18, .r14), (0x20, .r15), (0x28, .rbp),
    (0x30, .rsp), (0x38, .rcx)]

/-- The part of `jump_fcontext` that is for `preserve_fpu`. -/
def preserveFpu : List Instr := [
  .stmxcsr ⟨0x50, .rdi⟩,
  .fnstcw ⟨0x54, .rdi⟩,
  .ldmxcsr ⟨0x50, .rsi⟩,
  .fldcw ⟨0x54, .rsi⟩]

/-- The stack pointer behind the return address, and the return address. -/
def saveReturn : List Instr := [
  .lea ⟨0x8, .rsp⟩ .rax,
  .movStore .rax ⟨0x30, .rdi⟩,
  .movLoad ⟨0, .rsp⟩ .rax,
  .movStore .rax ⟨0x38, .rdi⟩]

/-- The context at `rsi` is restored, and `rdx` handed over. -/
def restore : List Instr :=
  restoredFields.map (fun field => .movLoad ⟨field.1, .rsi⟩ field.2) ++
    [.mov .rdx .rax, .mov .rdx .rdi, .jmp .rcx]

/-- `jump_fcontext`. -/
def jump_fcontext : List Instr :=
  savedFields.map (fun field => .movStore field.1 ⟨field.2, .rdi⟩) ++
    (.cmp 0 .rcx :: .je preserveFpu.length :: preserveFpu ++ (saveReturn ++ restore))

/-- The instructions one by one. -/
example : jump_fcontext = [
    .movStore .rbx ⟨0, .rdi⟩, .movStore .r12 ⟨0x8, .rdi⟩, .movStore .r13 ⟨0x10, .rdi⟩,
    .movStore .r14 ⟨0x18, .rdi⟩, .movStore .r15 ⟨0x20, .rdi⟩, .movStore .rbp ⟨0x28, .rdi⟩,
    .cmp 0 .rcx, .je 4, .stmxcsr ⟨0x50, .rdi⟩, .fnstcw ⟨0x54, .rdi⟩, .ldmxcsr ⟨0x50, .rsi⟩,
    .fldcw ⟨0x54, .rsi⟩, .lea ⟨0x8, .rsp⟩ .rax, .movStore .rax ⟨0x30, .rdi⟩,
    .movLoad ⟨0, .rsp⟩ .rax, .movStore .rax ⟨0x38, .rdi⟩, .movLoad ⟨0, .rsi⟩ .rbx,
    .movLoad ⟨0x8, .rsi⟩ .r12, .movLoad ⟨0x10, .rsi⟩ .r13, .movLoad ⟨0x18, .rsi⟩ .r14,
    .movLoad ⟨0x20, .rsi⟩ .r15, .movLoad ⟨0x28, .rsi⟩ .rbp, .movLoad ⟨0x30, .rsi⟩ .rsp,
    .movLoad ⟨0x38, .rsi⟩ .rcx, .mov .rdx .rax, .mov .rdx .rdi, .jmp .rcx] := rfl

/-- `make_fcontext`, with the address of its label `finish`, where the process exits.  The
displacements below the stack and the mask are parameters. -/
def makeContext (reserve mask below : BitVec 64) (finish : Address) : List Instr := [
  .lea ⟨reserve, .rdi⟩ .rax,
  .and mask .rax,
  .movStore .rdi ⟨0x40, .rax⟩,
  .movStore .rsi ⟨0x48, .rax⟩,
  .movStore .rdx ⟨0x38, .rax⟩,
  .stmxcsr ⟨0x50, .rax⟩,
  .fnstcw ⟨0x54, .rax⟩,
  .lea ⟨below, .rax⟩ .rdx,
  .movStore .rdx ⟨0x30, .rax⟩,
  .leaLabel finish .rcx,
  .movStore .rcx ⟨0, .rdx⟩,
  .ret]

/-- `make_fcontext`. -/
def make_fcontext : Address → List Instr := makeContext (-0x58) (-16) (-0x8)

namespace FContext

/-- What the processor is saved as, with a stack pointer, to go on at an address. -/
def ofProcessor (cpu : Processor) (rsp : BitVec 64) (rip : Address) : FContext where
  rbx := cpu.reg .rbx
  r12 := cpu.reg .r12
  r13 := cpu.reg .r13
  r14 := cpu.reg .r14
  r15 := cpu.reg .r15
  rbp := cpu.reg .rbp
  rsp := rsp
  rip := rip

/-- The context at an address. -/
def read (m : ByteMemory) (a : Address) : FContext where
  rbx := m.load 8 (a + 0)
  r12 := m.load 8 (a + 0x8)
  r13 := m.load 8 (a + 0x10)
  r14 := m.load 8 (a + 0x18)
  r15 := m.load 8 (a + 0x20)
  rbp := m.load 8 (a + 0x28)
  rsp := m.load 8 (a + 0x30)
  rip := m.load 8 (a + 0x38)

/-- `fc_mxcsr` of the context at an address. -/
def mxcsrAt (m : ByteMemory) (a : Address) : BitVec 32 := m.load 4 (a + 0x50)

/-- `fc_x87_cw`. -/
def controlWordAt (m : ByteMemory) (a : Address) : BitVec 16 := m.load 2 (a + 0x54)

end FContext

section

variable {m other : ByteMemory} {a b : Address}

/-- A word inside a context. -/
theorem load_field (h : ByteMemory.Agree (Covers a fcontextSize) m other) {i : Address} {n : Nat}
    (hfits : i.toNat + n ≤ fcontextSize) : m.load n (a + i) = other.load n (a + i) :=
  ByteMemory.load_congr (fun x hx => h x (hx.of_part hfits)) (by rw [fcontextSize] at hfits; omega)

theorem FContext.read_congr (h : ByteMemory.Agree (Covers a fcontextSize) m other) :
    read m a = read other a := by
  simp only [read, FContext.mk.injEq]
  refine ⟨?_, ?_, ?_, ?_, ?_, ?_, ?_, ?_⟩ <;> exact load_field h (by decide)

theorem FContext.mxcsrAt_congr (h : ByteMemory.Agree (Covers a fcontextSize) m other) :
    mxcsrAt m a = mxcsrAt other a :=
  load_field h (by decide)

theorem FContext.controlWordAt_congr (h : ByteMemory.Agree (Covers a fcontextSize) m other) :
    controlWordAt m a = controlWordAt other a :=
  load_field h (by decide)

end

/-- What a jump to the context at `rsi` makes of the processor, which goes on where the
context was saved: the registers are saved at `rdi`, and nothing else is written. -/
structure Jumped (cpu next : Processor) : Prop where
  saved : FContext.read next.mem (cpu.reg .rdi) =
    .ofProcessor cpu (cpu.reg .rsp + 8) (cpu.mem.load 8 (cpu.reg .rsp))
  resumed : .ofProcessor next (next.reg .rsp) (FContext.read cpu.mem (cpu.reg .rsi)).rip =
    FContext.read cpu.mem (cpu.reg .rsi)
  result : next.reg .rax = cpu.reg .rdx
  argument : next.reg .rdi = cpu.reg .rdx
  kept : ∀ x, ¬ Covers (cpu.reg .rdi) fcontextSize x → next.mem x = cpu.mem x
  control : (next.mxcsr, next.controlWord) = if cpu.reg .rcx = 0 then (cpu.mxcsr, cpu.controlWord)
    else (FContext.mxcsrAt cpu.mem (cpu.reg .rsi), FContext.controlWordAt cpu.mem (cpu.reg .rsi))
  savedControl : cpu.reg .rcx ≠ 0 →
    FContext.mxcsrAt next.mem (cpu.reg .rdi) = cpu.mxcsr ∧
      FContext.controlWordAt next.mem (cpu.reg .rdi) = cpu.controlWord

section

variable (cpu : Processor)

/-- The return address that `saveReturn` reads. -/
def returnRead : Address :=
  (cpu.mem.store 8 (cpu.reg .rdi + 0x30) (cpu.reg .rsp + 8)).load 8 (cpu.reg .rsp + 0)

/-- The memory behind `saveReturn`. -/
def savedReturn : ByteMemory :=
  (cpu.mem.store 8 (cpu.reg .rdi + 0x30) (cpu.reg .rsp + 8)).store 8 (cpu.reg .rdi + 0x38)
    (returnRead cpu)

/-- The registers behind `restore`. -/
def restored : Reg → BitVec 64 :=
  Function.update (Function.update (loadFields cpu.mem (cpu.reg .rsi) restoredFields cpu.reg)
    .rax (cpu.reg .rdx)) .rdi (cpu.reg .rdx)

theorem exec_saveReturn (rest : List Instr) :
    exec (saveReturn ++ rest) 0 cpu =
      exec rest 0 { cpu with
        reg := Function.update cpu.reg .rax (returnRead cpu)
        mem := savedReturn cpu } := by
  simp [saveReturn, exec, Processor.step, Processor.address, savedReturn, returnRead,
    Processor.set, Processor.write]

theorem exec_restore :
    exec restore 0 cpu =
      .ok ((FContext.read cpu.mem (cpu.reg .rsi)).rip, { cpu with reg := restored cpu }) := by
  rw [restore, exec_loads restoredFields (by decide)]
  simp [exec, Processor.step, restored, restoredFields, loadFields, Processor.set, FContext.read]

/-- The memory behind the part for `preserve_fpu`. -/
def savedControl : ByteMemory :=
  (cpu.mem.store 4 (cpu.reg .rdi + 0x50) cpu.mxcsr).store 2 (cpu.reg .rdi + 0x54) cpu.controlWord

theorem exec_preserveFpu (rest : List Instr)
    (hmxcsr : reserved (FContext.mxcsrAt (savedControl cpu) (cpu.reg .rsi)) = false) :
    exec (preserveFpu ++ rest) 0 cpu =
      exec rest 0 { cpu with
        mem := savedControl cpu
        mxcsr := FContext.mxcsrAt (savedControl cpu) (cpu.reg .rsi)
        controlWord := FContext.controlWordAt (savedControl cpu) (cpu.reg .rsi) } := by
  simp [FContext.mxcsrAt, savedControl] at hmxcsr
  simp [preserveFpu, exec, Processor.step, Processor.address, savedControl, hmxcsr,
    Processor.write, FContext.mxcsrAt, FContext.controlWordAt]

end

/-- The first six registers are saved. -/
structure Saving (cpu part : Processor) : Prop where
  reg : part.reg = cpu.reg
  saved : ∀ field ∈ savedFields, part.mem.load 8 (cpu.reg .rdi + field.2) = cpu.reg field.1
  kept : ∀ x, ¬ Covers (cpu.reg .rdi) fcontextSize x → part.mem x = cpu.mem x

section

variable {cpu part : Processor}

theorem savedFields_fit : ∀ field ∈ savedFields, field.2.toNat + 8 ≤ 0x30 := by decide

/-- A word is stored inside a context. -/
theorem store_kept {m : ByteMemory} {a i : Address} {n : Nat} {word : BitVec (8 * n)}
    (hfits : i.toNat + n ≤ fcontextSize) (x : Address) (hx : ¬ Covers a fcontextSize x) :
    m.store n (a + i) word x = m x :=
  ByteMemory.store_of_not_covers fun hcovers => hx (hcovers.of_part hfits)

/-- A word is stored behind the first six registers. -/
theorem load_store_behind {m : ByteMemory} {a i : Address} {n : Nat} {word : BitVec (8 * n)}
    (hfits : 0x30 ≤ i.toNat ∧ i.toNat + n ≤ fcontextSize) {field : Reg × BitVec 64}
    (hfield : field ∈ savedFields) :
    (m.store n (a + i) word).load 8 (a + field.2) = m.load 8 (a + field.2) := by
  have hbefore := savedFields_fit field hfield
  rw [fcontextSize] at hfits
  exact ByteMemory.load_store_part (.inr (by omega)) (by omega) (by omega)

theorem saving_stores :
    Saving cpu { cpu with mem := storeFields cpu.reg (cpu.reg .rdi) savedFields cpu.mem } where
  reg := rfl
  saved := load_storeFields savedFields (by decide)
  kept x hx := storeFields_of_not_covers savedFields fun field hfield hcovers =>
    hx (hcovers.of_part (Nat.le_trans (savedFields_fit field hfield) (by decide)))

theorem savedControl_spec (cpu : Processor) :
    FContext.mxcsrAt (savedControl cpu) (cpu.reg .rdi) = cpu.mxcsr ∧
      FContext.controlWordAt (savedControl cpu) (cpu.reg .rdi) = cpu.controlWord := by
  constructor
  · rw [FContext.mxcsrAt, savedControl,
      ByteMemory.load_store_part (by decide) (by decide) (by decide),
      ByteMemory.load_store (by decide)]
  · rw [FContext.controlWordAt, savedControl, ByteMemory.load_store (by decide)]

theorem Saving.control (h : Saving cpu part) :
    Saving cpu { part with mem := savedControl part } where
  reg := h.reg
  saved field hfield := by
    simp only [savedControl, h.reg]
    rw [load_store_behind (by decide) hfield, load_store_behind (by decide) hfield,
      h.saved field hfield]
  kept x hx := by
    simp only [savedControl, h.reg]
    rw [store_kept (by decide) x hx, store_kept (by decide) x hx, h.kept x hx]

theorem savedReturn_kept (h : Saving cpu part) (x : Address)
    (hx : ¬ Covers (cpu.reg .rdi) fcontextSize x) : savedReturn part x = cpu.mem x := by
  simp only [savedReturn, h.reg]
  rw [store_kept (by decide) x hx, store_kept (by decide) x hx, h.kept x hx]

theorem returnRead_eq (h : Saving cpu part)
    (hstack : Apart (cpu.reg .rdi) fcontextSize (cpu.reg .rsp) 8) :
    returnRead part = cpu.mem.load 8 (cpu.reg .rsp) := by
  have hplace : part.reg .rsp + 0 = cpu.reg .rsp := by rw [h.reg]; exact BitVec.add_zero _
  rw [returnRead, hplace, h.reg]
  refine ByteMemory.load_congr (fun x hx => ?_) (by decide)
  have hapart : ¬ Covers (cpu.reg .rdi) fcontextSize x := hstack.symm x hx
  rw [store_kept (by decide) x hapart, h.kept x hapart]

theorem read_savedReturn (h : Saving cpu part) :
    FContext.read (savedReturn part) (cpu.reg .rdi) =
      .ofProcessor cpu (cpu.reg .rsp + 8) (returnRead part) := by
  have hfield : ∀ field ∈ savedFields,
      (savedReturn part).load 8 (cpu.reg .rdi + field.2) = cpu.reg field.1 := by
    intro field hfield
    simp only [savedReturn, h.reg]
    rw [load_store_behind (by decide) hfield, load_store_behind (by decide) hfield,
      h.saved field hfield]
  have hrsp : (savedReturn part).load 8 (cpu.reg .rdi + 0x30) = cpu.reg .rsp + 8 := by
    simp only [savedReturn, h.reg]
    rw [ByteMemory.load_store_part (.inr (by decide)) (by decide) (by decide),
      ByteMemory.load_store (by decide)]
  have hrip : (savedReturn part).load 8 (cpu.reg .rdi + 0x38) = returnRead part := by
    simp only [savedReturn, h.reg]
    rw [ByteMemory.load_store (by decide)]
  simp only [savedFields, List.forall_mem_cons] at hfield
  obtain ⟨hrbx, hr12, hr13, hr14, hr15, hrbp, -⟩ := hfield
  simp only [FContext.read, FContext.ofProcessor, hrbx, hr12, hr13, hr14, hr15, hrbp, hrsp, hrip]

/-- A word behind the registers. -/
theorem load_savedReturn (part : Processor) {i : Address} {n : Nat}
    (hfits : 0x40 ≤ i.toNat ∧ i.toNat + n ≤ fcontextSize) :
    (savedReturn part).load n (part.reg .rdi + i) = part.mem.load n (part.reg .rdi + i) := by
  rw [fcontextSize] at hfits
  have hrip : (0x38 : Address).toNat + 8 ≤ i.toNat := hfits.1
  have hrsp : (0x30 : Address).toNat + 8 ≤ i.toNat := Nat.le_trans (by decide) hfits.1
  rw [savedReturn, ByteMemory.load_store_part (.inl hrip) (by decide) (by omega),
    ByteMemory.load_store_part (.inl hrsp) (by decide) (by omega)]

theorem ofProcessor_restored (part : Processor) :
    FContext.ofProcessor { part with reg := restored part } (restored part .rsp)
      (FContext.read part.mem (part.reg .rsi)).rip = FContext.read part.mem (part.reg .rsi) := by
  simp [FContext.ofProcessor, FContext.read, restored, loadFields, restoredFields]

/-- The rest of `jump_fcontext`. -/
theorem Saving.jumps (h : Saving cpu part)
    (hcontexts : Apart (cpu.reg .rdi) fcontextSize (cpu.reg .rsi) fcontextSize)
    (hstack : Apart (cpu.reg .rdi) fcontextSize (cpu.reg .rsp) 8)
    (hcontrol : (part.mxcsr, part.controlWord) =
      if cpu.reg .rcx = 0 then (cpu.mxcsr, cpu.controlWord)
      else (FContext.mxcsrAt cpu.mem (cpu.reg .rsi), FContext.controlWordAt cpu.mem (cpu.reg .rsi)))
    (hsaved : cpu.reg .rcx ≠ 0 →
      FContext.mxcsrAt part.mem (cpu.reg .rdi) = cpu.mxcsr ∧
        FContext.controlWordAt part.mem (cpu.reg .rdi) = cpu.controlWord) :
    ∃ next, exec (saveReturn ++ restore) 0 part =
      .ok ((FContext.read cpu.mem (cpu.reg .rsi)).rip, next) ∧ Jumped cpu next := by
  have hread : FContext.read (savedReturn part) (cpu.reg .rsi) =
      FContext.read cpu.mem (cpu.reg .rsi) :=
    FContext.read_congr fun x hx => savedReturn_kept h x (hcontexts.symm x hx)
  have hreg : Function.update part.reg .rax (returnRead part) .rsi = cpu.reg .rsi := by
    simp [h.reg]
  have hresumed := ofProcessor_restored { part with
    reg := Function.update part.reg .rax (returnRead part), mem := savedReturn part }
  rw [exec_saveReturn, exec_restore]
  simp only [hreg, hread] at hresumed ⊢
  have hmxcsr : FContext.mxcsrAt (savedReturn part) (cpu.reg .rdi) =
      FContext.mxcsrAt part.mem (cpu.reg .rdi) := by
    rw [← h.reg]
    exact load_savedReturn part (by decide)
  have hword : FContext.controlWordAt (savedReturn part) (cpu.reg .rdi) =
      FContext.controlWordAt part.mem (cpu.reg .rdi) := by
    rw [← h.reg]
    exact load_savedReturn part (by decide)
  rw [← hmxcsr, ← hword] at hsaved
  refine ⟨_, rfl, ⟨?_, hresumed, ?_, ?_, savedReturn_kept h, hcontrol, hsaved⟩⟩
  · rw [read_savedReturn h, returnRead_eq h hstack]
  · simp [restored, h.reg]
  · simp [restored, h.reg]

end

/-- `jump_fcontext` saves the registers and the place that it is called from, and goes on in
the other context as it was saved. -/
theorem exec_jump_fcontext {cpu : Processor}
    (hcontexts : Apart (cpu.reg .rdi) fcontextSize (cpu.reg .rsi) fcontextSize)
    (hstack : Apart (cpu.reg .rdi) fcontextSize (cpu.reg .rsp) 8)
    (hmxcsr : cpu.reg .rcx = 0 ∨ reserved (FContext.mxcsrAt cpu.mem (cpu.reg .rsi)) = false) :
    ∃ next, exec jump_fcontext 0 cpu = .ok ((FContext.read cpu.mem (cpu.reg .rsi)).rip, next) ∧
      Jumped cpu next := by
  obtain ⟨hreg, hsaved, hkept⟩ := @saving_stores cpu
  rw [jump_fcontext, exec_stores, exec_unless]
  by_cases hrcx : cpu.reg .rcx = 0
  · rw [if_pos hrcx]
    exact Saving.jumps ⟨hreg, hsaved, hkept⟩ hcontexts hstack (if_pos hrcx).symm
      fun hpreserve => absurd hrcx hpreserve
  · have hsaving := @Saving.control cpu { cpu with
      zero := false, mem := storeFields cpu.reg (cpu.reg .rdi) savedFields cpu.mem }
        ⟨hreg, hsaved, hkept⟩
    have htarget : ByteMemory.Agree (Covers (cpu.reg .rsi) fcontextSize) _ cpu.mem :=
      fun x hx => hsaving.kept x (hcontexts.symm x hx)
    rw [if_neg hrcx, exec_preserveFpu]
    · refine Saving.jumps ⟨hsaving.reg, hsaving.saved, hsaving.kept⟩ hcontexts hstack ?_ ?_
      · rw [if_neg hrcx]
        exact Prod.ext (FContext.mxcsrAt_congr htarget) (FContext.controlWordAt_congr htarget)
      · exact fun _ => savedControl_spec _
    · exact (congrArg reserved (FContext.mxcsrAt_congr htarget)).trans
        (hmxcsr.resolve_left hrcx)

/-! ### `make_fcontext` -/

/-- Where the context of a stack is, whose upper end is given. -/
def contextOf (sp : Address) : Address := (sp + -0x58) &&& -16

/-- How many bytes below the upper end of a stack `make_fcontext` may write. -/
def contextReserve : Nat := fcontextSize + 15 + 8

/-- Where the return address of the function is. -/
def entryOf (sp : Address) : Address := contextOf sp + -0x8

/-- The memory behind `make_fcontext`, whose context is at `ctx` and stack pointer `rsp`. -/
def madeMemory (ctx rsp finish : Address) (cpu : Processor) : ByteMemory :=
  (((((((cpu.mem.store 8 (ctx + 0x40) (cpu.reg .rdi)).store 8 (ctx + 0x48) (cpu.reg .rsi)).store 8
    (ctx + 0x38) (cpu.reg .rdx)).store 4 (ctx + 0x50) cpu.mxcsr).store 2 (ctx + 0x54)
      cpu.controlWord).store 8 (ctx + 0x30) rsp).store 8 (rsp + 0) finish)

/-- The registers behind `make_fcontext`. -/
def madeRegisters (ctx rsp finish : Address) (cpu : Processor) : Reg → BitVec 64 :=
  Function.update (Function.update (Function.update (Function.update cpu.reg .rax ctx)
    .rdx rsp) .rcx finish) .rsp (cpu.reg .rsp + 8)

theorem exec_makeContext (reserve mask below : BitVec 64) (finish : Address) (cpu : Processor) :
    ∃ zero, exec (makeContext reserve mask below finish) 0 cpu =
      let ctx := (cpu.reg .rdi + reserve) &&& mask
      let rsp := ctx + below
      .ok ((madeMemory ctx rsp finish cpu).load 8 (cpu.reg .rsp), { cpu with
        reg := madeRegisters ctx rsp finish cpu
        zero := zero
        mem := madeMemory ctx rsp finish cpu }) := by
  apply Exists.intro
  simp only [makeContext, exec_lea, exec_and, exec_movStore, exec_stmxcsr, exec_fnstcw,
    exec_leaLabel, exec_ret, Processor.address, Processor.set,
    Processor.write, madeMemory, madeRegisters, Function.update_self,
    Function.update_of_ne, Function.update_idem, ne_eq, reduceCtorEq, not_false_eq_true]
  rfl

/-- What `make_fcontext` makes: a context whose function finds `finish` as its return
address. -/
structure Made (finish : Address) (cpu next : Processor) : Prop where
  result : next.reg .rax = contextOf (cpu.reg .rdi)
  rsp : (FContext.read next.mem (contextOf (cpu.reg .rdi))).rsp = entryOf (cpu.reg .rdi)
  rip : (FContext.read next.mem (contextOf (cpu.reg .rdi))).rip = cpu.reg .rdx
  finish : next.mem.load 8 (entryOf (cpu.reg .rdi)) = finish
  callee : FContext.ofProcessor next (next.reg .rsp) 0 = .ofProcessor cpu (cpu.reg .rsp + 8) 0
  control : (next.mxcsr, next.controlWord) = (cpu.mxcsr, cpu.controlWord)
  kept : ∀ x, ¬ Covers (entryOf (cpu.reg .rdi)) (8 + fcontextSize) x → next.mem x = cpu.mem x

section

variable {ctx rsp finish : Address} {cpu : Processor}

theorem madeMemory_kept (hctx : ctx = rsp + 8) (x : Address)
    (hx : ¬ Covers rsp (8 + fcontextSize) x) : madeMemory ctx rsp finish cpu x = cpu.mem x := by
  have hreturn : ¬ Covers (rsp + 0) 8 x := fun hcovers => hx (hcovers.of_part (by decide))
  have hcontext : ¬ Covers ctx fcontextSize x := fun hcovers => by
    rw [hctx] at hcovers
    exact hx (hcovers.of_part (by decide))
  rw [madeMemory, ByteMemory.store_of_not_covers hreturn]
  iterate 6 rw [store_kept (by decide) x hcontext]

/-- The return address is not in the context. -/
theorem load_madeMemory (hctx : ctx = rsp + 8) {i : Address} {n : Nat}
    (hfits : i.toNat + n ≤ fcontextSize) :
    (madeMemory ctx rsp finish cpu).load n (ctx + i) =
      (((((((cpu.mem.store 8 (ctx + 0x40) (cpu.reg .rdi)).store 8 (ctx + 0x48) (cpu.reg .rsi)).store
        8 (ctx + 0x38) (cpu.reg .rdx)).store 4 (ctx + 0x50) cpu.mxcsr).store 2 (ctx + 0x54)
          cpu.controlWord).store 8 (ctx + 0x30) rsp)).load n (ctx + i) := by
  have happart : Apart (rsp + 0) 8 ctx fcontextSize := by
    rw [hctx]
    exact apart_parts (by decide) (by decide) (by decide)
  rw [fcontextSize] at hfits
  exact ByteMemory.load_store_of_apart (happart.symm.part hfits).symm (by omega)

theorem madeMemory_rsp (hctx : ctx = rsp + 8) :
    (madeMemory ctx rsp finish cpu).load 8 (ctx + 0x30) = rsp := by
  rw [load_madeMemory hctx (by decide), ByteMemory.load_store (by decide)]

theorem madeMemory_rip (hctx : ctx = rsp + 8) :
    (madeMemory ctx rsp finish cpu).load 8 (ctx + 0x38) = cpu.reg .rdx := by
  rw [load_madeMemory hctx (by decide)]
  iterate 3 rw [ByteMemory.load_store_part (by decide) (by decide) (by decide)]
  rw [ByteMemory.load_store (by decide)]

theorem madeMemory_finish : (madeMemory ctx rsp finish cpu).load 8 rsp = finish := by
  have hplace : rsp + 0 = rsp := BitVec.add_zero _
  simp only [madeMemory, hplace]
  rw [ByteMemory.load_store (by decide)]

theorem contextOf_eq (sp : Address) : contextOf sp = entryOf sp + 8 := by
  rw [entryOf, BitVec.add_assoc]
  exact (BitVec.add_zero _).symm

end

/-- The mask clears the last four bits. -/
theorem and_mask_toNat (a : Address) : (a &&& (-16 : Address)).toNat + a.toNat % 16 = a.toNat := by
  have hmask : ∀ i < 64, (-16 : Address).getLsbD i = decide (4 ≤ i) := by decide
  have hshift : a &&& (-16 : Address) = (a >>> 4) <<< 4 := by
    apply BitVec.eq_of_getLsbD_eq
    intro i hi
    rw [BitVec.getLsbD_and, hmask i hi, BitVec.getLsbD_shiftLeft, BitVec.getLsbD_ushiftRight]
    by_cases hlow : i < 4
    · simp [hlow, Nat.not_le.mpr hlow]
    · have hback : 4 + (i - 4) = i := by omega
      simp [hlow, Nat.le_of_not_lt hlow, hi, hback]
  have hlt := a.isLt
  rw [hshift, BitVec.toNat_shiftLeft, BitVec.toNat_ushiftRight, Nat.shiftRight_eq_div_pow,
    Nat.shiftLeft_eq]
  omega

theorem contextOf_aligned (sp : Address) : (contextOf sp).toNat % 16 = 0 := by
  have hmask := and_mask_toNat (sp + -0x58)
  rw [contextOf]
  omega

/-- The context and the return address are on the stack. -/
theorem covers_stack {sp x : Address} {size : Address} (hsize : contextReserve ≤ size.toNat)
    (hx : Covers (entryOf sp) (8 + fcontextSize) x) : Covers (sp - size) size.toNat x := by
  have hmask := and_mask_toNat (sp + -0x58)
  have hplace : contextOf sp = (sp + -0x58) &&& (-16 : Address) := rfl
  have hentry := contextOf_eq sp
  rw [contextReserve, fcontextSize] at hsize
  rw [Covers, fcontextSize] at hx
  rw [Covers]
  rw [← hplace] at hmask
  bv_omega

/-- `make_fcontext` makes a context on the stack that it is given, and keeps the registers
that a call keeps. -/
theorem exec_make_fcontext {cpu : Processor} (finish : Address)
    (hstack : Apart (entryOf (cpu.reg .rdi)) (8 + fcontextSize) (cpu.reg .rsp) 8) :
    ∃ next, exec (make_fcontext finish) 0 cpu = .ok (cpu.mem.load 8 (cpu.reg .rsp), next) ∧
      Made finish cpu next := by
  obtain ⟨zero, hexec⟩ := exec_makeContext (-0x58) (-16) (-0x8) finish cpu
  have hctx := contextOf_eq (cpu.reg .rdi)
  have hreturn : (madeMemory (contextOf (cpu.reg .rdi)) (entryOf (cpu.reg .rdi)) finish cpu).load 8
      (cpu.reg .rsp) = cpu.mem.load 8 (cpu.reg .rsp) :=
    ByteMemory.load_congr (fun x hx => madeMemory_kept hctx x (hstack.symm x hx)) (by decide)
  refine ⟨_, hexec.trans (congrArg (fun a => Except.ok (a, _)) hreturn), ?_⟩
  refine ⟨?_, madeMemory_rsp hctx, madeMemory_rip hctx, madeMemory_finish, ?_, rfl,
    madeMemory_kept hctx⟩
  · simp [madeRegisters, contextOf]
  · simp [madeRegisters, FContext.ofProcessor]

end Tarsx
