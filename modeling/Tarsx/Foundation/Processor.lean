/-
A part of the 64-bit Intel instruction set: the general registers, the zero flag, the two
control words of the floating-point units, and straight code that jumps forward and leaves
through a register or the stack.
-/
import Tarsx.Foundation.ByteMemory

namespace Foundation

inductive Reg where
  | rax
  | rbx
  | rcx
  | rdx
  | rsi
  | rdi
  | rbp
  | rsp
  | r8
  | r9
  | r10
  | r11
  | r12
  | r13
  | r14
  | r15
deriving DecidableEq, Repr

structure Processor where
  reg : Reg → BitVec 64
  zero : Bool
  mxcsr : BitVec 32
  controlWord : BitVec 16
  mem : ByteMemory

/-- `disp(%base)`. -/
structure Operand where
  disp : BitVec 64
  base : Reg
deriving DecidableEq, Repr

/-- The operands stand in the order of the assembler, the destination last. -/
inductive Instr where
  | movStore (src : Reg) (dst : Operand)
  | movLoad (src : Operand) (dst : Reg)
  | mov (src dst : Reg)
  | lea (src : Operand) (dst : Reg)
  /-- `leaq label(%rip)` -/
  | leaLabel (label : Address) (dst : Reg)
  | and (imm : BitVec 64) (dst : Reg)
  | cmp (imm : BitVec 64) (src : Reg)
  /-- over so many instructions -/
  | je (skip : Nat)
  | stmxcsr (dst : Operand)
  | fnstcw (dst : Operand)
  | ldmxcsr (src : Operand)
  | fldcw (src : Operand)
  /-- `jmp *%target` -/
  | jmp (target : Reg)
  | ret
deriving DecidableEq, Repr

/-- `ldmxcsr` with a reserved bit, or code without an end. -/
inductive Trap where
  | protection
  | ranOff
deriving DecidableEq, Repr

/-- Where the processor goes on. -/
inductive Flow where
  | next (cpu : Processor)
  | skip (instrs : Nat) (cpu : Processor)
  | leave (address : Address) (cpu : Processor)

namespace Processor

def address (cpu : Processor) (operand : Operand) : Address :=
  cpu.reg operand.base + operand.disp

def set (cpu : Processor) (dst : Reg) (word : BitVec 64) : Processor :=
  { cpu with reg := Function.update cpu.reg dst word }

def write (cpu : Processor) (n : Nat) (a : Address) (word : BitVec (8 * n)) : Processor :=
  { cpu with mem := cpu.mem.store n a word }

/-- The bits of `mxcsr` that must not be set. -/
def reserved (mxcsr : BitVec 32) : Bool := decide (mxcsr &&& 0xFFFF0000#32 ≠ 0)

def step (cpu : Processor) : Instr → Except Trap Flow
  | .movStore src dst => .ok (.next (cpu.write 8 (cpu.address dst) (cpu.reg src)))
  | .movLoad src dst => .ok (.next (cpu.set dst (cpu.mem.load 8 (cpu.address src))))
  | .mov src dst => .ok (.next (cpu.set dst (cpu.reg src)))
  | .lea src dst => .ok (.next (cpu.set dst (cpu.address src)))
  | .leaLabel label dst => .ok (.next (cpu.set dst label))
  | .and imm dst =>
      let word := cpu.reg dst &&& imm
      .ok (.next { cpu.set dst word with zero := decide (word = 0) })
  | .cmp imm src => .ok (.next { cpu with zero := decide (cpu.reg src = imm) })
  | .je skip => .ok (if cpu.zero then .skip skip cpu else .next cpu)
  | .stmxcsr dst => .ok (.next (cpu.write 4 (cpu.address dst) cpu.mxcsr))
  | .fnstcw dst => .ok (.next (cpu.write 2 (cpu.address dst) cpu.controlWord))
  | .ldmxcsr src =>
      let word : BitVec 32 := cpu.mem.load 4 (cpu.address src)
      if reserved word then .error .protection else .ok (.next { cpu with mxcsr := word })
  | .fldcw src => .ok (.next { cpu with controlWord := cpu.mem.load 2 (cpu.address src) })
  | .jmp target => .ok (.leave (cpu.reg target) cpu)
  | .ret => .ok (.leave (cpu.mem.load 8 (cpu.reg .rsp)) (cpu.set .rsp (cpu.reg .rsp + 8)))

/-- Run code from behind its next `skip` instructions until it leaves. -/
def exec : List Instr → Nat → Processor → Except Trap (Address × Processor)
  | [], _, _ => .error .ranOff
  | _ :: rest, skip + 1, cpu => exec rest skip cpu
  | instr :: rest, 0, cpu =>
      match cpu.step instr with
      | .error trap => .error trap
      | .ok (.next cpu) => exec rest 0 cpu
      | .ok (.skip skip cpu) => exec rest skip cpu
      | .ok (.leave address cpu) => .ok (address, cpu)

/-- `call`: the return address is pushed. -/
def call (cpu : Processor) (ret : Address) : Processor :=
  (cpu.write 8 (cpu.reg .rsp - 8) ret).set .rsp (cpu.reg .rsp - 8)

section

variable (cpu : Processor)

@[simp] theorem reg_set (dst : Reg) (word : BitVec 64) :
    (cpu.set dst word).reg = Function.update cpu.reg dst word := rfl

@[simp] theorem mem_set (dst : Reg) (word : BitVec 64) : (cpu.set dst word).mem = cpu.mem := rfl

@[simp] theorem reg_write (n : Nat) (a : Address) (word : BitVec (8 * n)) :
    (cpu.write n a word).reg = cpu.reg := rfl

@[simp] theorem mem_write (n : Nat) (a : Address) (word : BitVec (8 * n)) :
    (cpu.write n a word).mem = cpu.mem.store n a word := rfl

end

/-! ### One instruction -/

section

variable (cpu : Processor) (rest : List Instr) (operand : Operand) (src dst : Reg)

@[simp] theorem exec_movStore :
    exec (.movStore src operand :: rest) 0 cpu =
      exec rest 0 (cpu.write 8 (cpu.address operand) (cpu.reg src)) := rfl

@[simp] theorem exec_movLoad :
    exec (.movLoad operand dst :: rest) 0 cpu =
      exec rest 0 (cpu.set dst (cpu.mem.load 8 (cpu.address operand))) := rfl

@[simp] theorem exec_mov :
    exec (.mov src dst :: rest) 0 cpu = exec rest 0 (cpu.set dst (cpu.reg src)) := rfl

@[simp] theorem exec_lea :
    exec (.lea operand dst :: rest) 0 cpu = exec rest 0 (cpu.set dst (cpu.address operand)) := rfl

@[simp] theorem exec_leaLabel (label : Address) :
    exec (.leaLabel label dst :: rest) 0 cpu = exec rest 0 (cpu.set dst label) := rfl

@[simp] theorem exec_and (imm : BitVec 64) :
    exec (.and imm dst :: rest) 0 cpu =
      exec rest 0 { cpu.set dst (cpu.reg dst &&& imm) with
        zero := decide (cpu.reg dst &&& imm = 0) } := rfl

@[simp] theorem exec_stmxcsr :
    exec (.stmxcsr operand :: rest) 0 cpu =
      exec rest 0 (cpu.write 4 (cpu.address operand) cpu.mxcsr) := rfl

@[simp] theorem exec_fnstcw :
    exec (.fnstcw operand :: rest) 0 cpu =
      exec rest 0 (cpu.write 2 (cpu.address operand) cpu.controlWord) := rfl

@[simp] theorem exec_fldcw :
    exec (.fldcw operand :: rest) 0 cpu =
      exec rest 0 { cpu with controlWord := cpu.mem.load 2 (cpu.address operand) } := rfl

@[simp] theorem exec_jmp :
    exec (.jmp src :: rest) 0 cpu = .ok (cpu.reg src, cpu) := rfl

@[simp] theorem exec_ret :
    exec (.ret :: rest) 0 cpu =
      .ok (cpu.mem.load 8 (cpu.reg .rsp), cpu.set .rsp (cpu.reg .rsp + 8)) := rfl

end

/-! ### Code in parts -/

section

variable {cpu : Processor} {rest : List Instr}

/-- Code that is jumped over. -/
theorem exec_skip (code : List Instr) : exec (code ++ rest) code.length cpu = exec rest 0 cpu := by
  induction code with
  | nil => rfl
  | cons instr code ih => exact ih

/-- A jump over code that is taken when a register holds a value. -/
theorem exec_unless {imm : BitVec 64} {src : Reg} (code : List Instr) :
    exec (.cmp imm src :: .je code.length :: code ++ rest) 0 cpu =
      if cpu.reg src = imm then exec rest 0 { cpu with zero := true }
      else exec (code ++ rest) 0 { cpu with zero := false } := by
  by_cases h : cpu.reg src = imm
  · rw [if_pos h]
    simp only [List.cons_append, exec, step, h, decide_true, if_true]
    exact exec_skip code
  · rw [if_neg h]
    simp [exec, step, h]

/-- Registers are written at places relative to an address. -/
def storeFields (reg : Reg → BitVec 64) (a : Address) :
    List (Reg × BitVec 64) → ByteMemory → ByteMemory
  | [], m => m
  | (src, disp) :: fields, m => storeFields reg a fields (m.store 8 (a + disp) (reg src))

theorem exec_stores (base : Reg) (fields : List (Reg × BitVec 64)) :
    exec (fields.map (fun field => .movStore field.1 ⟨field.2, base⟩) ++ rest) 0 cpu =
      exec rest 0 { cpu with mem := storeFields cpu.reg (cpu.reg base) fields cpu.mem } := by
  induction fields generalizing cpu with
  | nil => rfl
  | cons field fields ih => exact ih

section

variable {reg : Reg → BitVec 64} {a : Address} {m : ByteMemory}

theorem storeFields_of_not_covers {x : Address} (fields : List (Reg × BitVec 64))
    (hx : ∀ field ∈ fields, ¬ Covers (a + field.2) 8 x) : storeFields reg a fields m x = m x := by
  induction fields generalizing m with
  | nil => rfl
  | cons field fields ih =>
      rw [storeFields, ih fun other hother => hx other (List.mem_cons_of_mem _ hother)]
      exact ByteMemory.store_of_not_covers (hx field List.mem_cons_self)

/-- Fields behind one another all hold what was written to them. -/
theorem load_storeFields (fields : List (Reg × BitVec 64))
    (hfields : (fields.map (·.2)).Pairwise
      fun i j => i.toNat + 8 ≤ j.toNat ∧ j.toNat + 8 ≤ 2 ^ 64) :
    ∀ field ∈ fields, (storeFields reg a fields m).load 8 (a + field.2) = reg field.1 := by
  induction fields generalizing m with
  | nil => simp
  | cons first fields ih =>
      obtain ⟨hfirst, hrest⟩ := List.pairwise_cons.mp hfields
      intro field hfield
      rcases List.mem_cons.mp hfield with rfl | hfield
      · have hkept : ByteMemory.Agree (Covers (a + field.2) 8)
            (storeFields reg a (field :: fields) m) (m.store 8 (a + field.2) (reg field.1)) := by
          intro x hx
          refine storeFields_of_not_covers fields fun other hother => ?_
          have hbounds := hfirst other.2 (List.mem_map_of_mem hother)
          exact apart_parts (.inl hbounds.1) (by omega) hbounds.2 x hx
        rw [ByteMemory.load_congr hkept (by decide), ByteMemory.load_store (by decide)]
      · exact ih hrest field hfield

end

/-- Registers are read from places relative to an address. -/
def loadFields (m : ByteMemory) (a : Address) :
    List (BitVec 64 × Reg) → (Reg → BitVec 64) → Reg → BitVec 64
  | [], reg => reg
  | (disp, dst) :: fields, reg =>
      loadFields m a fields (Function.update reg dst (m.load 8 (a + disp)))

theorem exec_loads {base : Reg} (fields : List (BitVec 64 × Reg))
    (hbase : ∀ field ∈ fields, field.2 ≠ base) :
    exec (fields.map (fun field => .movLoad ⟨field.1, base⟩ field.2) ++ rest) 0 cpu =
      exec rest 0 { cpu with reg := loadFields cpu.mem (cpu.reg base) fields cpu.reg } := by
  induction fields generalizing cpu with
  | nil => rfl
  | cons field fields ih =>
      have hkept : (cpu.set field.2 (cpu.mem.load 8 (cpu.reg base + field.1))).reg base =
          cpu.reg base :=
        Function.update_of_ne (hbase field List.mem_cons_self).symm _ _
      have hrest := @ih (cpu.set field.2 (cpu.mem.load 8 (cpu.reg base + field.1)))
        fun other hother => hbase other (List.mem_cons_of_mem _ hother)
      rw [hkept] at hrest
      exact hrest

end

end Processor

end Foundation
