import Mathlib.Algebra.GroupWithZero.Nat
import Mathlib.Logic.Function.Basic

/-!
# The KCPSM3 processor

The instruction set of the eight-bit processor that the pacoblaze sources describe:
sixteen registers, a scratch memory of 64 bytes, two flags that an interrupt saves,
and a call stack. One execution step is one instruction, which takes two clock
cycles in the circuit.

CALL and interrupts push the program counter itself. RETURN continues after the
address it pops and RETURNI at it, which is the instruction that the interrupt kept
from executing. The stack is a list; the 31 usable places of the circuit's stack
memory are not a limit here. Shift and rotate instructions are left out.

A service is an execution that no interrupt can break into and that ends with the
first RETURNI. The lemmas about it are independent of the program.
-/

namespace CpenLabs.Kcpsm3

abbrev Byte := BitVec 8
abbrev Address := BitVec 10
abbrev Register := Fin 16

/-- Their number is not zero, so that numerals name them. -/
scoped instance registers_ne_zero : NeZero 16 := ⟨by decide⟩

/-- The second operand of an instruction: a constant or a register. -/
inductive Operand
  | constant (value : Byte)
  | register (source : Register)

/-- The operations of the arithmetic-logic unit that set the flags. -/
inductive Operation
  | and
  | or
  | xor
  | add
  | addcy
  | sub
  | subcy
  | compare
  | test
deriving DecidableEq

/-- The condition of a jump, call or return. -/
inductive Condition
  | always
  | z
  | nz
  | c
  | nc

/-- An instruction, with addresses or labels as targets of jumps and calls. -/
inductive Instruction (target : Type)
  | load (x : Register) (operand : Operand)
  | alu (operation : Operation) (x : Register) (operand : Operand)
  | input (x : Register) (port : Operand)
  | output (x : Register) (port : Operand)
  | fetch (x : Register) (location : Operand)
  | store (x : Register) (location : Operand)
  | jump (condition : Condition) (address : target)
  | call (condition : Condition) (address : target)
  | ret (condition : Condition)
  | returni (enable : Bool)
  | interrupt (enable : Bool)

/-- Replace the targets. -/
def Instruction.map {source target : Type} (address : source → target) :
    Instruction source → Instruction target
  | load x operand => load x operand
  | alu operation x operand => alu operation x operand
  | input x port => input x port
  | output x port => output x port
  | fetch x location => fetch x location
  | store x location => store x location
  | jump condition label => jump condition (address label)
  | call condition label => call condition (address label)
  | ret condition => ret condition
  | returni enable => returni enable
  | interrupt enable => interrupt enable

/-- The contents of the instruction memory. -/
abbrev Program := Address → Instruction Address

/-- `interrupt_vector`. -/
def interruptVector : Address := 0x3FF

/-- The processor between two instructions. -/
structure Cpu where
  pc : Address
  regs : Register → Byte
  scratch : BitVec 6 → Byte
  zero : Bool
  carry : Bool
  interruptEnable : Bool
  zeroSaved : Bool
  carrySaved : Bool
  stack : List Address

/-- The result and the carry of an operation. A subtraction adds the complement and
inverts the carry of the adder. -/
def alu (operation : Operation) (a b : Byte) (carry : Bool) : Byte × Bool :=
  let sum (b : Byte) (carry : Bool) : Nat := a.toNat + b.toNat + carry.toNat
  match operation with
  | .add => (BitVec.ofNat 8 (sum b false), decide (256 ≤ sum b false))
  | .addcy => (BitVec.ofNat 8 (sum b carry), decide (256 ≤ sum b carry))
  | .sub | .compare => (BitVec.ofNat 8 (sum (~~~b) true), !decide (256 ≤ sum (~~~b) true))
  | .subcy => (BitVec.ofNat 8 (sum (~~~b) (!carry)), !decide (256 ≤ sum (~~~b) (!carry)))
  | .and => (a &&& b, false)
  | .or => (a ||| b, false)
  | .xor => (a ^^^ b, false)
  | .test => (a &&& b, (List.range 8).foldl (fun parity bit => parity ^^ (a &&& b).getLsbD bit) false)

/-- COMPARE and TEST set the flags alone. -/
def Operation.writesBack : Operation → Bool
  | compare | test => false
  | _ => true

/-- The value of an operand. -/
def Cpu.value (cpu : Cpu) : Operand → Byte
  | .constant value => value
  | .register source => cpu.regs source

/-- The scratch location of an operand. -/
def Cpu.location (cpu : Cpu) (operand : Operand) : BitVec 6 := (cpu.value operand).setWidth 6

/-- `conditional_match`. -/
def Cpu.meets (cpu : Cpu) : Condition → Bool
  | .always => true
  | .z => cpu.zero
  | .nz => !cpu.zero
  | .c => cpu.carry
  | .nc => !cpu.carry

/-- Execute an instruction, with the byte that INPUT reads. -/
def exec (instruction : Instruction Address) (inPort : Byte) (cpu : Cpu) : Cpu :=
  match instruction with
  | .load x operand =>
      { cpu with pc := cpu.pc + 1, regs := Function.update cpu.regs x (cpu.value operand) }
  | .alu operation x operand =>
      let result := alu operation (cpu.regs x) (cpu.value operand) cpu.carry
      { cpu with
        pc := cpu.pc + 1
        regs := if operation.writesBack then Function.update cpu.regs x result.1 else cpu.regs
        zero := result.1 == 0
        carry := result.2 }
  | .input x _ => { cpu with pc := cpu.pc + 1, regs := Function.update cpu.regs x inPort }
  | .output _ _ => { cpu with pc := cpu.pc + 1 }
  | .fetch x location =>
      { cpu with
        pc := cpu.pc + 1
        regs := Function.update cpu.regs x (cpu.scratch (cpu.location location)) }
  | .store x location =>
      { cpu with
        pc := cpu.pc + 1
        scratch := Function.update cpu.scratch (cpu.location location) (cpu.regs x) }
  | .jump condition address => { cpu with pc := if cpu.meets condition then address else cpu.pc + 1 }
  | .call condition address =>
      if cpu.meets condition then { cpu with pc := address, stack := cpu.pc :: cpu.stack }
      else { cpu with pc := cpu.pc + 1 }
  | .ret condition =>
      if cpu.meets condition then
        { cpu with pc := cpu.stack.headD 0 + 1, stack := cpu.stack.tail }
      else { cpu with pc := cpu.pc + 1 }
  | .returni enable =>
      { cpu with
        pc := cpu.stack.headD 0
        stack := cpu.stack.tail
        zero := cpu.zeroSaved
        carry := cpu.carrySaved
        interruptEnable := enable }
  | .interrupt enable => { cpu with pc := cpu.pc + 1, interruptEnable := enable }

/-- Enter the interrupt service in place of the next instruction. -/
def interrupt (cpu : Cpu) : Cpu :=
  { cpu with
    pc := interruptVector
    stack := cpu.pc :: cpu.stack
    interruptEnable := false
    zeroSaved := cpu.zero
    carrySaved := cpu.carry }

/-- What an instruction does to the ports. -/
inductive Event
  | silent
  | read (port : Byte)
  | write (port value : Byte)
deriving DecidableEq

/-- The port access of an instruction. -/
def event (instruction : Instruction Address) (cpu : Cpu) : Event :=
  match instruction with
  | .input _ port => .read (cpu.value port)
  | .output x port => .write (cpu.value port) (cpu.regs x)
  | _ => .silent

/-- The access reads a port. -/
def Event.reads : Event → Bool
  | .read _ => true
  | _ => false

/-- The byte at the input port matters to the instructions that read it, and to no
others. -/
theorem exec_unread (instruction : Instruction Address) (cpu : Cpu)
    (unread : (event instruction cpu).reads = false) (inPort other : Byte) :
    exec instruction inPort cpu = exec instruction other cpu := by
  cases instruction with
  | input => cases unread
  | _ => rfl

/-- The instruction is RETURNI. -/
def Instruction.returns {target : Type} : Instruction target → Bool
  | returni _ => true
  | _ => false

/-- The instruction is ENABLE INTERRUPT. -/
def Instruction.enables {target : Type} : Instruction target → Bool
  | interrupt enable => enable
  | _ => false

/-- Execution of a program with interrupts disabled throughout, up to and including
the first RETURNI, with the port access of each instruction. -/
inductive Service (program : Program) (inPort : Byte) : Cpu → List Event → Cpu → Prop
  | returni (cpu : Cpu) (masked : cpu.interruptEnable = false)
      (returning : (program cpu.pc).returns = true) :
      Service program inPort cpu [event (program cpu.pc) cpu] (exec (program cpu.pc) inPort cpu)
  | step {cpu last : Cpu} {trace : List Event} (masked : cpu.interruptEnable = false)
      (continuing : (program cpu.pc).returns = false)
      (rest : Service program inPort (exec (program cpu.pc) inPort cpu) trace last) :
      Service program inPort cpu (event (program cpu.pc) cpu :: trace) last

/-- Interrupts are disabled in every step of a service. -/
theorem Service.masked {program : Program} {inPort : Byte} {cpu last : Cpu} {trace : List Event}
    (service : Service program inPort cpu trace last) : cpu.interruptEnable = false := by
  cases service <;> assumption

/-- A service takes at least one instruction. -/
theorem Service.length_pos {program : Program} {inPort : Byte} {cpu last : Cpu} {trace : List Event}
    (service : Service program inPort cpu trace last) : 0 < trace.length := by
  cases service <;> exact Nat.succ_pos _

/-- A service that is not over goes on with the next instruction. -/
theorem Service.continues {program : Program} {inPort : Byte} {cpu last : Cpu} {first : Event}
    {trace : List Event} (service : Service program inPort cpu (first :: trace) last) (more : trace ≠ []) :
    event (program cpu.pc) cpu = first ∧
      Service program inPort (exec (program cpu.pc) inPort cpu) trace last := by
  cases service with
  | returni => exact absurd rfl more
  | step _ _ rest => exact ⟨rfl, rest⟩

/-- A service up to its last instruction, one instruction at a time. -/
theorem Service.step_iff (program : Program) (inPort : Byte) (cpu last : Cpu) (first : Event)
    (trace : List Event) (continuing : (program cpu.pc).returns = false) :
    Service program inPort cpu (first :: trace) last ↔
      cpu.interruptEnable = false ∧ event (program cpu.pc) cpu = first ∧
        Service program inPort (exec (program cpu.pc) inPort cpu) trace last := by
  constructor
  · intro service
    cases service with
    | returni _ _ returning => exact absurd returning (by simp [continuing])
    | step masked _ rest => exact ⟨masked, rfl, rest⟩
  · rintro ⟨masked, rfl, rest⟩
    exact .step masked continuing rest

/-- The last instruction of a service. -/
theorem Service.last_iff (program : Program) (inPort : Byte) (cpu last : Cpu) (only : Event)
    (returning : (program cpu.pc).returns = true) :
    Service program inPort cpu [only] last ↔
      cpu.interruptEnable = false ∧ event (program cpu.pc) cpu = only ∧
        exec (program cpu.pc) inPort cpu = last := by
  constructor
  · intro service
    cases service with
    | returni _ masked _ => exact ⟨masked, rfl, rfl⟩
    | step _ continuing _ => exact absurd continuing (by simp [returning])
  · rintro ⟨masked, observed, rfl⟩
    exact observed ▸ .returni cpu masked returning

section Alu

variable (a b : Byte) (carry : Bool)

/-- Addition has the carry out. -/
@[simp] theorem alu_add : alu .add a b carry = (a + b, decide (256 ≤ a.toNat + b.toNat)) := by
  simp only [alu, Bool.toNat_false, Nat.add_zero, Prod.mk.injEq, and_true]
  exact BitVec.eq_of_toNat_eq (by simp)

/-- The exclusive or has no carry. -/
@[simp] theorem alu_xor : alu .xor a b carry = (a ^^^ b, false) := rfl

/-- A subtraction sets the carry exactly if it borrows. -/
theorem adder_borrow : decide (256 ≤ a.toNat + (~~~b).toNat + 1) = !decide (a < b) := by
  have := b.isLt
  simp only [BitVec.toNat_not, BitVec.lt_def, ← decide_not, decide_eq_decide]
  omega

/-- Subtraction adds the complement. -/
theorem adder_difference : BitVec.ofNat 8 (a.toNat + (~~~b).toNat + 1) = a - b := by
  have := b.isLt
  apply BitVec.eq_of_toNat_eq
  simp only [BitVec.toNat_ofNat, BitVec.toNat_not, BitVec.toNat_sub]
  congr 1
  omega

/-- Its carry is the borrow. -/
@[simp] theorem alu_sub : alu .sub a b carry = (a - b, decide (a < b)) := by
  simp only [alu, Bool.toNat_true, adder_difference, adder_borrow, Bool.not_not]

/-- A comparison has the flags of a subtraction. -/
@[simp] theorem alu_compare : alu .compare a b carry = (a - b, decide (a < b)) := alu_sub a b carry

end Alu

end CpenLabs.Kcpsm3
