import CpenLabs.Pacoblaze
import CpenLabs.StackMemory

/-!
# The registers of pacoblaze3 execute instructions

Two clock cycles of the registers are one instruction of the KCPSM3 processor, for every
word that the instruction memory can hold: the shift and rotate instructions are added
here, and a word without an instruction is a LOAD. An interrupt that is recognised in
either cycle takes the place of the next instruction.

The circuit keeps the call stack in a memory of 32 places, of which one always belongs
to the program counter. So the correspondence lasts as long as the stack holds no more
than 31 addresses and no return finds it empty. That is a condition on the execution
of the instructions, to be proved for a program.

A reset that is released leads from any state of the registers to the first instruction,
in three cycles. The reset latch holds the processor for two of them, which are needed
to fetch the first word and to store its address in the stack memory.
-/

namespace CpenLabs.PacoblazeRefinement

open Clocked Kcpsm3 MemoryImage Pacoblaze StackMemory

/-- The bit that a shift or rotate instruction moves in: a constant, the carry, or the
bit at one end of the register. -/
inductive Fill
  | constant (bit : Bool)
  | carry
  | lowest
  | highest

/-- The bit itself. -/
def Fill.bit (a : Byte) (carryIn : Bool) : Fill → Bool
  | constant bit => bit
  | carry => carryIn
  | lowest => a.getLsbD 0
  | highest => a.getLsbD 7

/-- A whole instruction word: one of the instructions above, or a shift or rotation of a
register to the right or to the left. -/
inductive Code
  | plain (instruction : Instruction Address)
  | shift (right : Bool) (fill : Fill) (x : Register)

/-- The result and the carry of a shift. -/
def shifted (right : Bool) (bit : Bool) (a : Byte) : Byte × Bool :=
  if right then (if bit then a >>> 1 ||| 0x80 else a >>> 1, a.getLsbD 0)
  else (if bit then a <<< 1 ||| 0x01 else a <<< 1, a.getLsbD 7)

/-- The fields of a shift or rotate instruction. -/
def fill (word : BitVec 18) : Fill :=
  match word.getLsbD 2, word.getLsbD 1 with
  | true, true => .constant (word.getLsbD 0)
  | false, false => .carry
  | true, false => .lowest
  | false, true => .highest

/-- The meaning of a word. -/
def code (word : BitVec 18) : Code :=
  match decode word with
  | some instruction => .plain instruction
  | none =>
      if (word.extractLsb' 13 5).toNat = 0x10 then .shift (word.getLsbD 3) (fill word) (xAddress word)
      else .plain (.load (xAddress word) (operand word))

/-- Execute a word. -/
def execCode (code : Code) (inPort : Byte) (cpu : Cpu) : Cpu :=
  match code with
  | .plain instruction => exec instruction inPort cpu
  | .shift right fill x =>
      let result := shifted right (fill.bit (cpu.regs x) cpu.carry) (cpu.regs x)
      { cpu with
        pc := cpu.pc + 1
        regs := Function.update cpu.regs x result.1
        zero := result.1 == 0
        carry := result.2 }

/-- The port access of a word. -/
def Code.access (code : Code) (cpu : Cpu) : Event :=
  match code with
  | .plain instruction => event instruction cpu
  | .shift _ _ _ => .silent

/-- The word takes an address from the call stack. -/
def Code.pops (code : Code) (cpu : Cpu) : Bool :=
  match code with
  | .plain (.ret condition) => cpu.meets condition
  | .plain (.returni _) => true
  | _ => false

section Decode

variable (word : BitVec 18)

/-- The instruction of an operation. -/
def codeOf (operation : Op) : Code :=
  match operation with
  | .load => .plain (.load (xAddress word) (operand word))
  | .input => .plain (.input (xAddress word) (operand word))
  | .fetch => .plain (.fetch (xAddress word) (operand word))
  | .and => .plain (.alu .and (xAddress word) (operand word))
  | .or => .plain (.alu .or (xAddress word) (operand word))
  | .xor => .plain (.alu .xor (xAddress word) (operand word))
  | .test => .plain (.alu .test (xAddress word) (operand word))
  | .compare => .plain (.alu .compare (xAddress word) (operand word))
  | .add => .plain (.alu .add (xAddress word) (operand word))
  | .addcy => .plain (.alu .addcy (xAddress word) (operand word))
  | .sub => .plain (.alu .sub (xAddress word) (operand word))
  | .subcy => .plain (.alu .subcy (xAddress word) (operand word))
  | .rs => .shift (shiftDirection word) (fill word) (xAddress word)
  | .ret => .plain (.ret (condition word))
  | .output => .plain (.output (xAddress word) (operand word))
  | .store => .plain (.store (xAddress word) (operand word))
  | .call => .plain (.call (condition word) (codeAddress word))
  | .jump => .plain (.jump (condition word) (codeAddress word))
  | .returni => .plain (.returni (interruptEnable word))
  | .interrupt => .plain (.interrupt (interruptEnable word))

/-- The decode unit selects the operation of the instruction. -/
theorem code_eq : code word = codeOf word (operation word) := by
  have width : (word.extractLsb' 13 5).toNat < 32 := (word.extractLsb' 13 5).isLt
  unfold code decode operation
  generalize (word.extractLsb' 13 5).toNat = opcode at width
  interval_cases opcode <;> rfl

variable (pacoblaze : Pacoblaze3) (cpu : Cpu)

/-- The operand of the instruction is the second one of the arithmetic-logic unit. -/
theorem value_operand (registers : cpu.regs = pacoblaze.dpr) :
    cpu.value (operand word) = pacoblaze.aluOperandB word := by
  unfold operand Pacoblaze3.aluOperandB operandSelection
  split_ifs
  · exact congrFun registers _
  · rfl

/-- The place in the scratch memory that FETCH and STORE mean. -/
theorem location_operand (registers : cpu.regs = pacoblaze.dpr) :
    cpu.location (operand word) = pacoblaze.scratchPlace word := by
  rw [Cpu.location, value_operand word pacoblaze cpu registers, Pacoblaze3.aluOperandB,
    Pacoblaze3.scratchPlace]
  split_ifs
  · rfl
  · apply BitVec.eq_of_getLsbD_eq
    intro bit inside
    simp [impliedValue, scratchAddress, inside, Nat.lt_trans inside (by decide : 6 < 8)]

/-- The two bits of the condition. -/
theorem conditionFlags_eq :
    conditionFlags word = BitVec.ofBool (word.getLsbD 11) ++ BitVec.ofBool (word.getLsbD 10) := by
  apply BitVec.eq_of_getLsbD_eq
  intro bit inside
  simp only [conditionFlags, BitVec.getLsbD_extractLsb', BitVec.getLsbD_append, inside, decide_true,
    Bool.true_and]
  interval_cases bit <;> simp

/-- The condition is met by the same flags. -/
theorem meets_condition (zero : cpu.zero = pacoblaze.zero) (carry : cpu.carry = pacoblaze.carry) :
    cpu.meets (condition word) = pacoblaze.conditionalMatch word := by
  rw [Pacoblaze3.conditionalMatch, conditionFlags_eq, conditional, condition]
  cases word.getLsbD 12 with
  | false => rfl
  | true =>
    cases word.getLsbD 11 <;> cases word.getLsbD 10 <;> simp [Cpu.meets, zero, carry]

end Decode

section Alu

variable (a b : Byte) (carryIn : Bool)

/-- The nine bits of the adder are the sum. -/
theorem adder_toNat :
    (a.setWidth 9 + b.setWidth 9 + (BitVec.ofBool carryIn).setWidth 9).toNat =
      a.toNat + b.toNat + carryIn.toNat := by
  have wide := a.isLt
  have wide' := b.isLt
  have bit := carryIn.toNat_lt
  simp only [BitVec.toNat_add, BitVec.toNat_setWidth, BitVec.toNat_ofBool]
  omega

/-- Eight of them are the sum modulo 256. -/
theorem adder_result :
    (a.setWidth 9 + b.setWidth 9 + (BitVec.ofBool carryIn).setWidth 9).setWidth 8 =
      BitVec.ofNat 8 (a.toNat + b.toNat + carryIn.toNat) := by
  apply BitVec.eq_of_toNat_eq
  rw [BitVec.toNat_setWidth, adder_toNat, BitVec.toNat_ofNat]

/-- The ninth is the carry. -/
theorem adder_carry :
    (a.setWidth 9 + b.setWidth 9 + (BitVec.ofBool carryIn).setWidth 9).getLsbD 8 =
      decide (256 ≤ a.toNat + b.toNat + carryIn.toNat) := by
  rw [← adder_toNat]
  exact (BitVec.msb_eq_getLsbD_last _).symm.trans (BitVec.msb_eq_decide _)

/-- The instruction's operation of the arithmetic-logic unit. -/
def arithmetic : Op → Option Kcpsm3.Operation
  | .and => some .and
  | .or => some .or
  | .xor => some .xor
  | .test => some .test
  | .compare => some .compare
  | .add => some .add
  | .addcy => some .addcy
  | .sub => some .sub
  | .subcy => some .subcy
  | _ => none

/-- The arithmetic-logic unit computes the operations of the instructions. -/
theorem alu_arithmetic (operation : Op) (meant : Kcpsm3.Operation)
    (same : arithmetic operation = some meant)
    (shiftOperation : BitVec 2) (shiftDirection shiftConstant : Bool) :
    Pacoblaze.alu operation shiftOperation shiftDirection shiftConstant a b carryIn =
      Kcpsm3.alu meant a b carryIn := by
  cases operation <;> cases same
  case add | addcy | compare | sub | subcy =>
    simp only [Pacoblaze.alu, Kcpsm3.alu, addsubResult, addsubB, addsubCarry, adder_result, adder_carry]
    simp
  case and | or | xor | test => rfl

/-- It shifts as the shift instructions do. -/
theorem alu_shifted (word : BitVec 18) :
    Pacoblaze.alu .rs (shiftOperation word) (shiftDirection word) (shiftConstant word) a b carryIn =
      shifted (shiftDirection word) ((fill word).bit a carryIn) a := by
  have moved : shiftBit (shiftOperation word) (shiftConstant word) a carryIn =
      BitVec.ofBool ((fill word).bit a carryIn) := by
    have flags : shiftOperation word =
        BitVec.ofBool (word.getLsbD 2) ++ BitVec.ofBool (word.getLsbD 1) := by
      apply BitVec.eq_of_getLsbD_eq
      intro bit inside
      simp only [shiftOperation, BitVec.getLsbD_extractLsb', BitVec.getLsbD_append, inside, decide_true,
        Bool.true_and]
      interval_cases bit <;> simp
    rw [shiftBit, flags, fill]
    cases word.getLsbD 2 <;> cases word.getLsbD 1 <;> rfl
  rw [Pacoblaze.alu, moved]
  generalize (fill word).bit a carryIn = bit
  cases shiftDirection word with
  | true =>
    simp only [shifted, ↓reduceIte, Prod.mk.injEq]
    constructor
    · apply BitVec.eq_of_getLsbD_eq
      intro place inside
      rw [BitVec.getLsbD_extractLsb', BitVec.getLsbD_append]
      cases bit <;> interval_cases place <;> simp
    · rw [BitVec.getLsbD_append]
      rfl
  | false =>
    simp only [shifted, Bool.false_eq_true, ↓reduceIte, Prod.mk.injEq]
    constructor
    · apply BitVec.eq_of_getLsbD_eq
      intro place inside
      rw [BitVec.getLsbD_setWidth, BitVec.getLsbD_append]
      cases bit <;> interval_cases place <;> simp
    · rw [BitVec.getLsbD_append]
      rfl

end Alu

/-- The operations that write a register in their second cycle. -/
def writesRegister : Op → Bool
  | .load | .input | .fetch | .and | .or | .xor | .add | .addcy | .sub | .subcy | .rs => true
  | _ => false

/-- The operations that set the flags in their second cycle. -/
def setsFlags : Op → Bool
  | .and | .or | .xor | .test | .compare | .add | .addcy | .sub | .subcy | .rs => true
  | _ => false

section Cycles

variable (word : BitVec 18) (interrupt : Bool) (inPort : Byte) (pacoblaze : Pacoblaze3)

/-- The registers after the first cycle of an instruction. -/
def firstCycle : Pacoblaze3 :=
  { pacoblaze with
    programCounter := pacoblaze.programCounterNext word
    timingControl := true
    zero := if operation word = .returni then pacoblaze.zeroSaved else pacoblaze.zero
    carry := if operation word = .returni then pacoblaze.carrySaved else pacoblaze.carry
    interruptEnable :=
      if operation word = .returni ∨ operation word = .interrupt then MemoryImage.interruptEnable word
      else pacoblaze.interruptEnable
    interruptLatch := interrupt && pacoblaze.interruptEnable
    interruptAck := false
    zeroCarryWriteEnable := setsFlags (operation word)
    readStrobe := operation word = .input
    writeStrobe := operation word = .output
    registerXWriteEnable := writesRegister (operation word)
    scratchWriteEnable := operation word = .store
    ptr := if pacoblaze.stackUpdateEnable word then pacoblaze.nextPtr word else pacoblaze.ptr }

/-- The registers after the first cycle of an interrupt. -/
def enteringCycle : Pacoblaze3 :=
  { pacoblaze.idle with
    programCounter := interruptVector
    timingControl := true
    interruptEnable := false
    interruptLatch := false
    interruptAck := true
    zeroSaved := pacoblaze.zero
    carrySaved := pacoblaze.carry
    ptr := pacoblaze.ptr + 1 }

/-- The registers after a second cycle. -/
def secondCycle : Pacoblaze3 :=
  { pacoblaze.idle with
    timingControl := false
    interruptLatch := interrupt && pacoblaze.interruptEnable || pacoblaze.interruptLatch
    zero := if pacoblaze.zeroCarryWriteEnable then (pacoblaze.aluOut word).1 == 0 else pacoblaze.zero
    carry := if pacoblaze.zeroCarryWriteEnable then (pacoblaze.aluOut word).2 else pacoblaze.carry
    dpr :=
      if pacoblaze.registerXWriteEnable then
        Function.update pacoblaze.dpr (xAddress word) (pacoblaze.registerXDataIn word inPort)
      else pacoblaze.dpr
    scratch :=
      if pacoblaze.scratchWriteEnable then
        Function.update pacoblaze.scratch (pacoblaze.scratchPlace word) (pacoblaze.registerXDataOut word)
      else pacoblaze.scratch
    spr := Function.update pacoblaze.spr pacoblaze.ptr pacoblaze.programCounter }

variable {pacoblaze} {input : Input}

/-- A step from a first cycle, without an interrupt. -/
theorem step_first (released : input.reset = false) (running : pacoblaze.resetLatch = 0)
    (atFirst : pacoblaze.timingControl = false) (unlatched : pacoblaze.interruptLatch = false)
    (noRegister : pacoblaze.registerXWriteEnable = false)
      (noScratch : pacoblaze.scratchWriteEnable = false) :
    pacoblaze.step input = firstCycle input.instruction input.interrupt pacoblaze := by
  simp only [Pacoblaze3.step, Pacoblaze3.seq, Pacoblaze3.internalReset, Pacoblaze3.interruptAssert,
    Pacoblaze3.stackWriteEnable, Pacoblaze3.execute, firstCycle,
    released, running, atFirst, unlatched, noRegister, noScratch]
  cases operation input.instruction <;> simp [Pacoblaze3.idle, setsFlags, writesRegister, unlatched]

/-- A step from a first cycle that an interrupt takes. -/
theorem step_entering (released : input.reset = false) (running : pacoblaze.resetLatch = 0)
    (atFirst : pacoblaze.timingControl = false) (latched : pacoblaze.interruptLatch = true)
    (noRegister : pacoblaze.registerXWriteEnable = false)
      (noScratch : pacoblaze.scratchWriteEnable = false) :
    pacoblaze.step input = enteringCycle pacoblaze := by
  simp [Pacoblaze3.step, Pacoblaze3.seq, Pacoblaze3.internalReset, Pacoblaze3.idle,
    Pacoblaze3.programCounterNext, Pacoblaze3.programCounterSource,
    Pacoblaze3.stackWriteEnable, Pacoblaze3.stackUpdateEnable, Pacoblaze3.nextPtr,
    Pacoblaze3.stackPushPop, enteringCycle, released, running, atFirst, latched,
    noRegister, noScratch]

/-- A step from a second cycle. -/
theorem step_second (released : input.reset = false) (running : pacoblaze.resetLatch = 0)
    (atSecond : pacoblaze.timingControl = true) :
    pacoblaze.step input = secondCycle input.instruction input.interrupt input.inPort pacoblaze := by
  simp [Pacoblaze3.step, Pacoblaze3.seq, Pacoblaze3.internalReset, Pacoblaze3.interruptAssert,
    Pacoblaze3.stackWriteEnable, Pacoblaze3.stackUpdateEnable,
    Pacoblaze3.idle, secondCycle, released, running, atSecond]

variable (interrupt' : Bool) (pacoblaze)

/-- What the second cycle writes has been computed from the registers before the first. -/
theorem second_first_dpr :
    (secondCycle word interrupt' inPort (firstCycle word interrupt pacoblaze)).dpr =
      if writesRegister (operation word) then
        Function.update pacoblaze.dpr (xAddress word) (pacoblaze.registerXDataIn word inPort)
      else pacoblaze.dpr := by
  cases same : operation word <;>
    simp [secondCycle, firstCycle, same, writesRegister, Pacoblaze3.registerXDataIn, Pacoblaze3.aluOut,
      Pacoblaze3.aluOperandB, Pacoblaze3.registerXDataOut,
      Pacoblaze3.registerYDataOut, Pacoblaze3.scratchPlace]

/-- Only STORE writes the scratch memory. -/
theorem second_first_scratch :
    (secondCycle word interrupt' inPort (firstCycle word interrupt pacoblaze)).scratch =
      if operation word = .store then
        Function.update pacoblaze.scratch (pacoblaze.scratchPlace word) (pacoblaze.registerXDataOut word)
      else pacoblaze.scratch := by
  simp [secondCycle, firstCycle, Pacoblaze3.scratchPlace, Pacoblaze3.registerXDataOut,
    Pacoblaze3.registerYDataOut]

/-- The flags are those of the operation, or the saved ones. -/
theorem second_first_flags :
    ((secondCycle word interrupt' inPort (firstCycle word interrupt pacoblaze)).zero,
        (secondCycle word interrupt' inPort (firstCycle word interrupt pacoblaze)).carry) =
      if setsFlags (operation word) then ((pacoblaze.aluOut word).1 == 0, (pacoblaze.aluOut word).2)
      else if operation word = .returni then (pacoblaze.zeroSaved, pacoblaze.carrySaved)
      else (pacoblaze.zero, pacoblaze.carry) := by
  cases same : operation word <;>
    simp [secondCycle, firstCycle, same, setsFlags, Pacoblaze3.aluOut, Pacoblaze3.aluOperandB,
      Pacoblaze3.registerXDataOut, Pacoblaze3.registerYDataOut]

end Cycles

/-- The registers and flags that the instructions work on. -/
structure Shows (pacoblaze : Pacoblaze3) (cpu : Cpu) : Prop where
  pc : pacoblaze.programCounter = cpu.pc
  regs : pacoblaze.dpr = cpu.regs
  scratch : pacoblaze.scratch = cpu.scratch
  zero : pacoblaze.zero = cpu.zero
  carry : pacoblaze.carry = cpu.carry
  interruptEnable : pacoblaze.interruptEnable = cpu.interruptEnable
  zeroSaved : pacoblaze.zeroSaved = cpu.zeroSaved
  carrySaved : pacoblaze.carrySaved = cpu.carrySaved

section Instructions

variable {pacoblaze : Pacoblaze3} {cpu : Cpu} (shows : Shows pacoblaze cpu) (word : BitVec 18)
    (inPort : Byte)

include shows

/-- Then the operands are the same. -/
theorem Shows.value : cpu.value (operand word) = pacoblaze.aluOperandB word :=
  value_operand word pacoblaze cpu shows.regs.symm

/-- So is the outcome of the condition. -/
theorem Shows.meets : cpu.meets (condition word) = pacoblaze.conditionalMatch word :=
  meets_condition word pacoblaze cpu shows.zero.symm shows.carry.symm

/-- The outputs of the arithmetic-logic unit are those of the operation. -/
theorem Shows.aluOut (meant : Kcpsm3.Operation) (same : arithmetic (operation word) = some meant) :
    pacoblaze.aluOut word = Kcpsm3.alu meant (cpu.regs (xAddress word))
      (cpu.value (operand word)) cpu.carry := by
  rw [Pacoblaze3.aluOut, alu_arithmetic _ _ _ _ meant same, shows.value, ← shows.regs, ← shows.carry]
  rfl

/-- The same for the shifts and rotations. -/
theorem Shows.aluOut_shift (same : operation word = .rs) :
    pacoblaze.aluOut word =
      shifted (shiftDirection word) ((fill word).bit (cpu.regs (xAddress word)) cpu.carry)
        (cpu.regs (xAddress word)) := by
  rw [Pacoblaze3.aluOut, same, alu_shifted, ← shows.regs, ← shows.carry]
  rfl

/-- Where there is no operation the result is the second operand. -/
theorem Shows.aluOut_load (same : operation word = .load) :
    (pacoblaze.aluOut word).1 = cpu.value (operand word) := by
  rw [Pacoblaze3.aluOut, same, shows.value]
  rfl

/-- The register that an instruction writes. -/
theorem Shows.next_regs :
    (if writesRegister (operation word) then
      Function.update pacoblaze.dpr (xAddress word) (pacoblaze.registerXDataIn word inPort)
    else pacoblaze.dpr) = (execCode (code word) inPort cpu).regs := by
  have load := shows.aluOut_load word
  have arithmetic := shows.aluOut word
  have shift := shows.aluOut_shift word
  have place := location_operand word pacoblaze cpu shows.regs.symm
  rw [code_eq, Pacoblaze3.registerXDataIn, shows.regs, shows.scratch, ← place]
  cases same : operation word
  case load => simp [writesRegister, codeOf, execCode, exec, load same]
  case rs => simp [writesRegister, codeOf, execCode, shift same]
  case and | or | xor | add | addcy | sub | subcy =>
    simp [writesRegister, codeOf, execCode, exec, arithmetic _ (congrArg _ same),
      Kcpsm3.Operation.writesBack]
  case test | compare => simp [writesRegister, codeOf, execCode, exec, Kcpsm3.Operation.writesBack]
  case call | ret =>
    simp only [writesRegister, codeOf, execCode, exec, Bool.false_eq_true, ↓reduceIte]
    split_ifs <;> rfl
  all_goals rfl

/-- The place of the scratch memory that an instruction writes. -/
theorem Shows.next_scratch :
    (if operation word = .store then
      Function.update pacoblaze.scratch (pacoblaze.scratchPlace word) (pacoblaze.registerXDataOut word)
    else pacoblaze.scratch) = (execCode (code word) inPort cpu).scratch := by
  have place := location_operand word pacoblaze cpu shows.regs.symm
  rw [code_eq, Pacoblaze3.registerXDataOut, shows.regs, shows.scratch, ← place]
  cases same : operation word
  case call | ret =>
    simp only [reduceCtorEq, codeOf, execCode, exec, ↓reduceIte]
    split_ifs <;> rfl
  all_goals rfl

/-- The flags that an instruction sets, in its second cycle or with RETURNI. -/
theorem Shows.next_flags :
    (if setsFlags (operation word) then ((pacoblaze.aluOut word).1 == 0, (pacoblaze.aluOut word).2)
    else if operation word = .returni then (pacoblaze.zeroSaved, pacoblaze.carrySaved)
    else (pacoblaze.zero, pacoblaze.carry)) =
      ((execCode (code word) inPort cpu).zero, (execCode (code word) inPort cpu).carry) := by
  have arithmetic := shows.aluOut word
  have shift := shows.aluOut_shift word
  rw [code_eq, shows.zeroSaved, shows.carrySaved, shows.zero, shows.carry]
  cases same : operation word
  case rs => simp [setsFlags, codeOf, execCode, shift same]
  case and | or | xor | add | addcy | sub | subcy | test | compare =>
    simp [setsFlags, codeOf, execCode, exec, arithmetic _ (congrArg _ same)]
  case call | ret =>
    simp only [setsFlags, Bool.false_eq_true, reduceCtorEq, codeOf, execCode, exec, ↓reduceIte]
    split_ifs <;> rfl
  all_goals rfl

/-- The interrupt enable flag after an instruction. -/
theorem Shows.next_interruptEnable :
    (if operation word = .returni ∨ operation word = .interrupt then MemoryImage.interruptEnable word
    else pacoblaze.interruptEnable) = (execCode (code word) inPort cpu).interruptEnable := by
  rw [code_eq, shows.interruptEnable]
  cases same : operation word
  case call | ret =>
    simp only [reduceCtorEq, or_self, codeOf, execCode, exec, ↓reduceIte]
    split_ifs <;> rfl
  all_goals simp [codeOf, execCode, exec]

/-- The instruction takes an address from the stack if the circuit does. -/
theorem Shows.pops : (code word).pops cpu = pacoblaze.goesBack word := by
  rw [code_eq, Pacoblaze3.goesBack, ← shows.meets]
  cases operation word <;> simp [codeOf, Code.pops]

/-- The address after an instruction, from the stack memory if the instruction returns. -/
theorem Shows.next_pc (unlatched : pacoblaze.interruptLatch = false)
    (holds : Holds pacoblaze.spr pacoblaze.ptr cpu.stack)
    (present : (code word).pops cpu = true → cpu.stack ≠ []) :
    pacoblaze.programCounterNext word = (execCode (code word) inPort cpu).pc := by
  have back : pacoblaze.goesBack word = true → pacoblaze.stackDataOut word = cpu.stack.headD 0 := by
    intro goesBack
    obtain ⟨item, rest, same⟩ := List.exists_cons_of_ne_nil (present (shows.pops word ▸ goesBack))
    rw [Pacoblaze3.stackDataOut, Pacoblaze3.nextPtr, Pacoblaze3.stackPushPop, unlatched, goesBack]
    rw [same] at holds ⊢
    exact holds.top
  rw [Pacoblaze3.programCounterNext, Pacoblaze3.programCounterSource, unlatched, code_eq, shows.pc]
  rw [Pacoblaze3.goesBack] at back ⊢
  cases same : operation word <;> rw [same] at back
  case jump | call =>
    simp only [codeOf, execCode, exec, shows.meets, Pacoblaze3.leaves, same]
    cases pacoblaze.conditionalMatch word <;> simp
  case ret =>
    simp only [codeOf, execCode, exec, shows.meets, Pacoblaze3.leaves, same]
    cases matching : pacoblaze.conditionalMatch word <;> simp [matching] at back ⊢
    exact back
  case returni => simpa [Pacoblaze3.leaves, same, codeOf, execCode, exec] using back
  all_goals simp [Pacoblaze3.leaves, same, codeOf, execCode, exec]

/-- The stack after an instruction. A call pushes what is at the pointer, which is its own
address. -/
theorem Shows.next_stack (unlatched : pacoblaze.interruptLatch = false)
    (first : pacoblaze.timingControl = false)
    (current : operation word = .call → pacoblaze.spr pacoblaze.ptr = pacoblaze.programCounter)
    (holds : Holds pacoblaze.spr pacoblaze.ptr cpu.stack)
    (room : (execCode (code word) inPort cpu).stack.length < 2 ^ 5)
    (present : (code word).pops cpu = true → cpu.stack ≠ []) :
    Holds pacoblaze.spr
      (if pacoblaze.stackUpdateEnable word then pacoblaze.nextPtr word else pacoblaze.ptr)
      (execCode (code word) inPort cpu).stack := by
  have back : pacoblaze.goesBack word = true →
      Holds pacoblaze.spr (pacoblaze.nextPtr word) cpu.stack.tail := by
    intro goesBack
    obtain ⟨item, rest, same⟩ := List.exists_cons_of_ne_nil (present (shows.pops word ▸ goesBack))
    rw [Pacoblaze3.nextPtr, Pacoblaze3.stackPushPop, unlatched, goesBack]
    rw [same] at holds ⊢
    exact holds.pop
  have push : operation word = .call → cpu.stack.length + 1 < 2 ^ 5 →
      Holds pacoblaze.spr (pacoblaze.ptr + 1) (cpu.pc :: cpu.stack) := by
    intro calls
    rw [← shows.pc, ← current calls]
    exact holds.push
  rw [Pacoblaze3.stackUpdateEnable, unlatched, first]
  rw [code_eq] at room ⊢
  cases same : operation word
  case call =>
    rw [same] at room
    simp only [codeOf, execCode, exec, shows.meets] at room ⊢
    cases matching : pacoblaze.conditionalMatch word <;> simp only [matching] at room ⊢
    · exact holds
    · simpa [Pacoblaze3.nextPtr, Pacoblaze3.stackPushPop, Pacoblaze3.goesBack, same] using push same room
  case ret =>
    simp only [codeOf, execCode, exec, shows.meets]
    cases matching : pacoblaze.conditionalMatch word
    · exact holds
    · simpa using back (by simp [Pacoblaze3.goesBack, same, matching])
  case returni => simpa [codeOf, execCode, exec] using back (by simp [Pacoblaze3.goesBack, same])
  all_goals simpa [codeOf, execCode, exec] using holds

omit shows in
variable (cpu) in
/-- No instruction changes the saved flags. -/
theorem execCode_saved (code : Code) :
    (execCode code inPort cpu).zeroSaved = cpu.zeroSaved ∧
      (execCode code inPort cpu).carrySaved = cpu.carrySaved := by
  cases code with
  | shift => exact ⟨rfl, rfl⟩
  | plain instruction =>
    cases instruction
    case call | ret =>
      simp only [execCode, exec]
      split_ifs <;> exact ⟨rfl, rfl⟩
    all_goals exact ⟨rfl, rfl⟩

end Instructions

/-- The processor between two instructions, and whether an interrupt is to be served
instead of the next one. -/
structure Processor where
  cpu : Cpu
  pending : Bool

/-- What an instruction meets in its two cycles: the interrupt request in each, and the
byte at the input port in the second one. -/
structure Surroundings where
  first : Bool
  second : Bool
  inPort : Byte

/-- One instruction, or one interrupt. A request is recognised if interrupts are enabled
in its cycle. -/
def Processor.step (memory : Address → BitVec 18) (surroundings : Surroundings) (processor : Processor) :
    Processor :=
  if processor.pending then { cpu := interrupt processor.cpu, pending := false }
  else
    { cpu := execCode (code (memory processor.cpu.pc)) surroundings.inPort processor.cpu
      pending :=
        surroundings.first && processor.cpu.interruptEnable ||
          surroundings.second &&
            (execCode (code (memory processor.cpu.pc)) surroundings.inPort processor.cpu).interruptEnable }

/-- The port access of an instruction. An interrupt has none. -/
def Processor.access (memory : Address → BitVec 18) (processor : Processor) : Event :=
  if processor.pending then .silent
  else (code (memory processor.cpu.pc)).access processor.cpu

/-- The stack has room for the addresses after the next instruction, and an address for a
return. -/
structure StackSuffices (memory : Address → BitVec 18) (surroundings : Surroundings)
    (processor : Processor) :
    Prop where
  room : (processor.step memory surroundings).cpu.stack.length < 2 ^ 5
  present : processor.pending = false → (code (memory processor.cpu.pc)).pops processor.cpu = true →
    processor.cpu.stack ≠ []

/-- The registers are about to begin an instruction: its word has been fetched, and no
write is outstanding. -/
structure Begins (memory : Address → BitVec 18) (fetching : Fetching) : Prop where
  timingControl : fetching.pacoblaze.timingControl = false
  running : fetching.pacoblaze.resetLatch = 0
  noRegister : fetching.pacoblaze.registerXWriteEnable = false
  noScratch : fetching.pacoblaze.scratchWriteEnable = false
  noRead : fetching.pacoblaze.readStrobe = false
  noWrite : fetching.pacoblaze.writeStrobe = false
  fetched : fetching.instruction = memory fetching.pacoblaze.programCounter

/-- The registers between two instructions are a state of the processor. What is to be
pushed next is at the stack pointer. -/
structure Between (memory : Address → BitVec 18) (fetching : Fetching) (processor : Processor) :
    Prop where
  begins : Begins memory fetching
  shows : Shows fetching.pacoblaze processor.cpu
  latch : fetching.pacoblaze.interruptLatch = processor.pending
  stack : Holds fetching.pacoblaze.spr fetching.pacoblaze.ptr processor.cpu.stack
  current : operation fetching.instruction = .call ∨ processor.pending = true →
    fetching.pacoblaze.spr fetching.pacoblaze.ptr = fetching.pacoblaze.programCounter

/-- Two cycles that are given to an instruction. -/
def surroundings (pins pins' : Pins) : Surroundings where
  first := pins.interrupt
  second := pins'.interrupt
  inPort := pins'.inPort

section TwoCycles

variable {memory : Address → BitVec 18} {fetching : Fetching} {processor : Processor} {pins pins' : Pins}

/-- The registers in the second cycle of an instruction. -/
theorem Begins.first (begins : Begins memory fetching)
    (unlatched : fetching.pacoblaze.interruptLatch = false)
    (released : pins.reset = false) :
    fetching.step memory pins =
      { pacoblaze := firstCycle fetching.instruction pins.interrupt fetching.pacoblaze
        instruction := fetching.instruction } := by
  obtain ⟨timingControl, running, noRegister, noScratch, _, _, fetched⟩ := begins
  rw [Fetching.step, step_first released running timingControl unlatched noRegister noScratch, ← fetched]

/-- The registers after an instruction. -/
theorem Begins.second (begins : Begins memory fetching)
    (unlatched : fetching.pacoblaze.interruptLatch = false)
    (released : pins.reset = false) (released' : pins'.reset = false) :
    (fetching.step memory pins).step memory pins' =
      { pacoblaze :=
          secondCycle fetching.instruction pins'.interrupt pins'.inPort
            (firstCycle fetching.instruction pins.interrupt fetching.pacoblaze)
        instruction := memory (fetching.pacoblaze.programCounterNext fetching.instruction) } := by
  rw [begins.first unlatched released, Fetching.step]
  congr 1
  exact step_second released' begins.running rfl

/-- The port access is in the second cycle. -/
theorem Between.access (between : Between memory fetching processor)
    (unlatched : processor.pending = false)
    (released : pins.reset = false) :
    (fetching.step memory pins).access = processor.access memory := by
  have value := between.shows.value fetching.instruction
  rw [between.begins.first (between.latch.trans unlatched) released, Processor.access, unlatched,
    ← between.shows.pc, ← between.begins.fetched, code_eq]
  cases same : operation fetching.instruction
  case input | output =>
    simp [Fetching.access, firstCycle, same, codeOf, Code.access, event, value, ← between.shows.regs,
      Pacoblaze3.aluOperandB, Pacoblaze3.registerYDataOut, Pacoblaze3.registerXDataOut]
  all_goals simp [Fetching.access, firstCycle, same, codeOf, Code.access, event]

/-- Two cycles are one instruction. -/
theorem Between.executes (between : Between memory fetching processor)
    (unlatched : processor.pending = false)
    (released : pins.reset = false) (released' : pins'.reset = false)
    (suffices' : StackSuffices memory (surroundings pins pins') processor) :
    Between memory ((fetching.step memory pins).step memory pins')
      (processor.step memory (surroundings pins pins')) := by
  obtain ⟨begins, shows, latch, stack, current⟩ := between
  obtain ⟨room, present⟩ := suffices'
  rw [unlatched] at latch
  have same : processor.step memory (surroundings pins pins') =
      { cpu := execCode (code fetching.instruction) pins'.inPort processor.cpu
        pending :=
          pins.interrupt && processor.cpu.interruptEnable ||
            pins'.interrupt && (execCode (code fetching.instruction) pins'.inPort processor.cpu).interruptEnable } := by
    rw [Processor.step, unlatched, begins.fetched, shows.pc]
    rfl
  have kept := present unlatched
  rw [← shows.pc, ← begins.fetched] at kept
  rw [same] at room ⊢
  rw [begins.second latch released released']
  have flags := (second_first_flags fetching.instruction pins.interrupt pins'.inPort fetching.pacoblaze
    pins'.interrupt).trans (shows.next_flags fetching.instruction pins'.inPort)
  have enable := shows.next_interruptEnable fetching.instruction pins'.inPort
  have saved := execCode_saved processor.cpu pins'.inPort (code fetching.instruction)
  constructor
  case begins =>
    constructor
    case running => exact begins.running
    all_goals rfl
  case shows =>
    constructor
    case pc => exact shows.next_pc fetching.instruction pins'.inPort latch stack kept
    case regs =>
      exact (second_first_dpr _ _ _ _ _).trans (shows.next_regs fetching.instruction pins'.inPort)
    case scratch =>
      exact (second_first_scratch _ _ _ _ _).trans (shows.next_scratch fetching.instruction pins'.inPort)
    case zero => exact (Prod.mk.inj flags).1
    case carry => exact (Prod.mk.inj flags).2
    case interruptEnable => exact enable
    case zeroSaved => exact shows.zeroSaved.trans saved.1.symm
    case carrySaved => exact shows.carrySaved.trans saved.2.symm
  case latch =>
    simp only [secondCycle, firstCycle]
    rw [enable, shows.interruptEnable]
    exact Bool.or_comm _ _
  case stack =>
    exact (shows.next_stack fetching.instruction pins'.inPort latch begins.timingControl
      (fun calls => current (.inl calls)) stack room kept).write _
  case current => exact fun _ => Function.update_self _ _ _

/-- The registers in the second cycle of an interrupt. -/
theorem Begins.enters (begins : Begins memory fetching)
    (latched : fetching.pacoblaze.interruptLatch = true)
    (released : pins.reset = false) :
    fetching.step memory pins =
      { pacoblaze := enteringCycle fetching.pacoblaze, instruction := fetching.instruction } := by
  obtain ⟨timingControl, running, noRegister, noScratch, _, _, fetched⟩ := begins
  rw [Fetching.step, step_entering released running timingControl latched noRegister noScratch, ← fetched]

/-- An interrupt takes two cycles as well. -/
theorem Between.interrupts (between : Between memory fetching processor)
    (latched : processor.pending = true)
    (released : pins.reset = false) (released' : pins'.reset = false)
    (room : (processor.step memory (surroundings pins pins')).cpu.stack.length < 2 ^ 5) :
    (fetching.step memory pins).access = processor.access memory ∧
      Between memory ((fetching.step memory pins).step memory pins')
        (processor.step memory (surroundings pins pins')) := by
  obtain ⟨begins, shows, latch, stack, current⟩ := between
  have same : processor.step memory (surroundings pins pins') =
      { cpu := interrupt processor.cpu, pending := false } := by
    rw [Processor.step, latched, if_pos rfl]
  have entered := begins.enters (latch.trans latched) released
  have pushed : Holds fetching.pacoblaze.spr (fetching.pacoblaze.ptr + 1)
      (processor.cpu.pc :: processor.cpu.stack) := by
    rw [same] at room
    rw [← shows.pc, ← current (.inr latched)]
    exact stack.push room
  have ended := @step_second (enteringCycle fetching.pacoblaze)
    ⟨fetching.instruction, pins'.inPort, pins'.interrupt, pins'.reset⟩ released' begins.running rfl
  rw [entered, same]
  constructor
  · rw [Processor.access, latched]
    rfl
  · rw [Fetching.step, ended]
    constructor
    case begins =>
      constructor
      case running => exact begins.running
      all_goals rfl
    case shows =>
      obtain ⟨pc, regs, scratch, zero, carry, _, _, _⟩ := shows
      exact ⟨rfl, regs, scratch, zero, carry, rfl, zero, carry⟩
    case latch => simp [secondCycle, enteringCycle]
    case stack => exact pushed.write _
    case current => exact fun _ => Function.update_self _ _ _

/-- Two cycles take the registers from one state of the processor to the next. -/
theorem Between.step (between : Between memory fetching processor) (released : pins.reset = false)
    (released' : pins'.reset = false)
    (suffices' : StackSuffices memory (surroundings pins pins') processor) :
    (fetching.step memory pins).access = processor.access memory ∧
      Between memory ((fetching.step memory pins).step memory pins')
        (processor.step memory (surroundings pins pins')) := by
  cases pending : processor.pending with
  | true => exact between.interrupts pending released released' suffices'.room
  | false =>
    exact ⟨between.access pending released, between.executes pending released released' suffices'⟩

/-- No strobe is set in a first cycle. -/
theorem Begins.silent (begins : Begins memory fetching) : fetching.access = .silent := by
  rw [Fetching.access, begins.noWrite, begins.noRead]
  rfl

end TwoCycles

section Runs

variable (memory : Address → BitVec 18) (pins : Nat → Pins) (start : Fetching)

/-- The registers in each clock cycle. -/
abbrev fetching (cycle : Nat) : Fetching := run (Fetching.step memory) pins start cycle

/-- The processor before each instruction, from a clock cycle on. -/
abbrev processor (first : Nat) (initial : Processor) (count : Nat) : Processor :=
  run (Processor.step memory)
    (fun count => surroundings (pins (first + 2 * count)) (pins (first + 2 * count + 1)))
    initial count

/-- One cycle more. -/
theorem fetching_succ (cycle : Nat) :
    fetching memory pins start (cycle + 1) =
      (fetching memory pins start cycle).step memory (pins cycle) := rfl

/-- The stack suffices for some instructions. -/
def StackSufficesFor (first : Nat) (initial : Processor) (count : Nat) : Prop :=
  ∀ earlier < count,
    StackSuffices memory (surroundings (pins (first + 2 * earlier)) (pins (first + 2 * earlier + 1)))
      (processor memory pins first initial earlier)

/-- From two cycles to many: as long as the stack suffices the registers execute the
instructions, and the strobes show their port accesses. -/
theorem Between.run {first : Nat} {initial : Processor}
    (between : Between memory (fetching memory pins start first) initial)
    (released : ∀ cycle, first ≤ cycle → (pins cycle).reset = false) (count : Nat)
    (enough : StackSufficesFor memory pins first initial count) :
    Between memory (fetching memory pins start (first + 2 * count))
      (processor memory pins first initial count) ∧
      ∀ earlier < count,
        (fetching memory pins start (first + 2 * earlier)).access = .silent ∧
          (fetching memory pins start (first + 2 * earlier + 1)).access =
            (processor memory pins first initial earlier).access memory := by
  induction count with
  | zero => exact ⟨between, fun _ none => absurd none (Nat.not_lt_zero _)⟩
  | succ count inductionHypothesis =>
    obtain ⟨here, accesses⟩ :=
      inductionHypothesis fun earlier before => enough earlier (Nat.lt_succ_of_lt before)
    obtain ⟨access, next⟩ := here.step (released _ (Nat.le_add_right _ _))
      (released _ (Nat.le_succ_of_le (Nat.le_add_right _ _))) (enough count (Nat.lt_succ_self _))
    refine ⟨next, fun earlier before => ?_⟩
    obtain earlier' | rfl := Nat.lt_succ_iff_lt_or_eq.mp before
    · exact accesses earlier earlier'
    · exact ⟨here.begins.silent, access⟩

/-- The processor after a reset. The registers and the scratch memory may hold anything. -/
structure AtReset (processor : Processor) : Prop where
  pc : processor.cpu.pc = 0
  zero : processor.cpu.zero = false
  carry : processor.cpu.carry = false
  interruptEnable : processor.cpu.interruptEnable = false
  stack : processor.cpu.stack = []
  pending : processor.pending = false

/-- What the internal reset does in one cycle. -/
theorem internal_reset {pacoblaze : Pacoblaze3} {input : Input} (held : pacoblaze.internalReset = true) :
    (pacoblaze.step input).timingControl = false ∧ (pacoblaze.step input).programCounter = 0 ∧
      (pacoblaze.step input).zero = false ∧ (pacoblaze.step input).carry = false ∧
      (pacoblaze.step input).interruptEnable = false ∧ (pacoblaze.step input).interruptLatch = false ∧
      (pacoblaze.step input).registerXWriteEnable = false ∧
      (pacoblaze.step input).scratchWriteEnable = false ∧
      (pacoblaze.step input).readStrobe = false ∧ (pacoblaze.step input).writeStrobe = false := by
  simp [Pacoblaze3.step, Pacoblaze3.seq, Pacoblaze3.idle, held]

/-- The registers three cycles after a reset are about to execute the first word. What is
at the stack pointer then is not known: it may have moved while the internal reset
lasted. -/
theorem reset_begins (last : Nat) (reset : (pins last).reset = true)
    (released : ∀ cycle, last < cycle → (pins cycle).reset = false) :
    Begins memory (fetching memory pins start (last + 3)) ∧
      (fetching memory pins start (last + 3)).instruction = memory 0 ∧
      (fetching memory pins start (last + 3)).pacoblaze.programCounter = 0 ∧
      (fetching memory pins start (last + 3)).pacoblaze.zero = false ∧
      (fetching memory pins start (last + 3)).pacoblaze.carry = false ∧
      (fetching memory pins start (last + 3)).pacoblaze.interruptEnable = false ∧
      (fetching memory pins start (last + 3)).pacoblaze.interruptLatch = false := by
  have latched : (fetching memory pins start (last + 1)).pacoblaze.resetLatch = 0b11#2 := by
    rw [fetching_succ]
    simp [Fetching.step, Pacoblaze3.step, reset]
  have held : (fetching memory pins start (last + 2)).pacoblaze.resetLatch = 0b10#2 := by
    rw [fetching_succ]
    simp only [Fetching.step, Pacoblaze3.step, released (last + 1) (Nat.lt_succ_self _), latched]
    rfl
  have ended : (fetching memory pins start (last + 3)).pacoblaze.resetLatch = 0 := by
    rw [fetching_succ]
    simp only [Fetching.step, Pacoblaze3.step, released (last + 2) (by omega), held]
    rfl
  have address : (fetching memory pins start (last + 2)).pacoblaze.programCounter = 0 := by
    rw [fetching_succ]
    exact (internal_reset (by rw [Pacoblaze3.internalReset, latched]; rfl)).2.1
  have word : (fetching memory pins start (last + 3)).instruction = memory 0 := by
    rw [fetching_succ, ← address]
    rfl
  obtain ⟨timingControl, pc, zero, carry, interruptEnable, interruptLatch, noRegister, noScratch,
    noRead, noWrite⟩ :=
    @internal_reset (fetching memory pins start (last + 2)).pacoblaze
      ⟨(fetching memory pins start (last + 2)).instruction, (pins (last + 2)).inPort,
        (pins (last + 2)).interrupt, (pins (last + 2)).reset⟩ (by rw [Pacoblaze3.internalReset, held]; rfl)
  have fetched := word.trans (congrArg memory pc.symm)
  exact ⟨⟨timingControl, ended, noRegister, noScratch, noRead, noWrite, fetched⟩, word, pc, zero, carry,
    interruptEnable, interruptLatch⟩

/-- If the first word is no call, they are a state of the processor after a reset. -/
theorem reset_between (last : Nat) (reset : (pins last).reset = true)
    (released : ∀ cycle, last < cycle → (pins cycle).reset = false)
      (noCall : operation (memory 0) ≠ .call) :
    ∃ initial, AtReset initial ∧ Between memory (fetching memory pins start (last + 3)) initial := by
  obtain ⟨begins, word, pc, zero, carry, interruptEnable, interruptLatch⟩ :=
    reset_begins memory pins start last reset released
  refine ⟨{ cpu :=
      { pc := 0
        regs := (fetching memory pins start (last + 3)).pacoblaze.dpr
        scratch := (fetching memory pins start (last + 3)).pacoblaze.scratch
        zero := false
        carry := false
        interruptEnable := false
        zeroSaved := (fetching memory pins start (last + 3)).pacoblaze.zeroSaved
        carrySaved := (fetching memory pins start (last + 3)).pacoblaze.carrySaved
        stack := [] }, pending := false }, ⟨rfl, rfl, rfl, rfl, rfl, rfl⟩, begins,
    ⟨pc, rfl, rfl, zero, carry, interruptEnable, rfl, rfl⟩, interruptLatch, Holds.nil _ _, ?_⟩
  rintro (calls | pending)
  · exact absurd (word ▸ calls) noCall
  · cases pending

/-- After a reset the circuit executes the program from its first word on, whatever the
registers held before. The program must not begin with a call, and the stack must suffice. -/
theorem executes_after_reset (last : Nat) (reset : (pins last).reset = true)
    (released : ∀ cycle, last < cycle → (pins cycle).reset = false)
      (noCall : operation (memory 0) ≠ .call) :
    ∃ initial, AtReset initial ∧
      ∀ count, StackSufficesFor memory pins (last + 3) initial count →
        Between memory (fetching memory pins start (last + 3 + 2 * count))
            (processor memory pins (last + 3) initial count) ∧
          ∀ earlier < count,
            (fetching memory pins start (last + 3 + 2 * earlier)).access = .silent ∧
              (fetching memory pins start (last + 3 + 2 * earlier + 1)).access =
                (processor memory pins (last + 3) initial earlier).access memory := by
  obtain ⟨initial, atReset, between⟩ := reset_between memory pins start last reset released noCall
  refine ⟨initial, atReset, fun count enough => ?_⟩
  exact between.run memory pins start (fun cycle later => released cycle (by omega)) count enough

/-- The registers during a reset, with the first word at the decode unit. -/
structure Held (ptr : BitVec 5) (latch : BitVec 2) (fetching : Fetching) : Prop where
  timingControl : fetching.pacoblaze.timingControl = false
  programCounter : fetching.pacoblaze.programCounter = 0
  zero : fetching.pacoblaze.zero = false
  carry : fetching.pacoblaze.carry = false
  interruptLatch : fetching.pacoblaze.interruptLatch = false
  instruction : fetching.instruction = memory 0
  ptr : fetching.pacoblaze.ptr = ptr
  resetLatch : fetching.pacoblaze.resetLatch = latch

/-- The first word is a call that is taken with the flags at zero. -/
structure CallsFirst : Prop where
  calls : operation (memory 0) = .call
  taken : ∀ pacoblaze : Pacoblaze3, pacoblaze.zero = false → pacoblaze.carry = false →
    pacoblaze.conditionalMatch (memory 0) = true

variable {memory}

/-- Such a call moves the stack pointer in each cycle in which the internal reset holds
the processor. -/
theorem Held.moves {fetching : Fetching} {ptr : BitVec 5} {latch : BitVec 2} {pins : Pins}
    (held : Held memory ptr latch fetching) (internal : latch.getLsbD 1 = true)
      (released : pins.reset = false)
    (first : CallsFirst memory) :
    Held memory (ptr + 1) (BitVec.ofBool (latch.getLsbD 0) ++ 0#1) (fetching.step memory pins) ∧
      (fetching.step memory pins).pacoblaze.spr = Function.update fetching.pacoblaze.spr ptr 0 := by
  obtain ⟨timingControl, programCounter, zero, carry, interruptLatch, instruction, rfl, rfl⟩ := held
  have matching := first.taken fetching.pacoblaze zero carry
  have calls := first.calls
  rw [BitVec.ofNat_eq_ofNat] at calls matching instruction
  constructor
  · constructor <;>
      simp [Fetching.step, Pacoblaze3.step, Pacoblaze3.seq, Pacoblaze3.internalReset, internal, released,
        Pacoblaze3.stackUpdateEnable, Pacoblaze3.nextPtr, Pacoblaze3.stackPushPop, Pacoblaze3.goesBack,
        timingControl, programCounter, interruptLatch, instruction, calls, matching]
  · simp [Fetching.step, Pacoblaze3.step, Pacoblaze3.internalReset, Pacoblaze3.stackWriteEnable,
      internal, released,
      programCounter]

/-- While the reset lasts the stack memory is not written. -/
theorem reset_spr {fetching : Fetching} {pins : Pins} (reset : pins.reset = true) :
    (fetching.step memory pins).pacoblaze.spr = fetching.pacoblaze.spr := by
  simp [Fetching.step, Pacoblaze3.step, reset]

/-- A reset of three cycles is enough to hold the first word at the decode unit. -/
theorem reset_held (first : Nat) (reset : ∀ cycle < 3, (pins (first + cycle)).reset = true) :
    Held memory 0 0b11#2 (fetching memory pins start (first + 3)) ∧
      (fetching memory pins start (first + 3)).pacoblaze.spr =
        (fetching memory pins start first).pacoblaze.spr := by
  have reset0 := reset 0 (by decide)
  have reset1 := reset 1 (by decide)
  have reset2 := reset 2 (by decide)
  have latched : ∀ fetching : Fetching, ∀ pins : Pins, pins.reset = true →
      (fetching.step memory pins).pacoblaze.internalReset = true ∧
        (fetching.step memory pins).pacoblaze.ptr = 0 ∧
        (fetching.step memory pins).pacoblaze.resetLatch = 0b11#2 := by
    intro fetching pins reset
    simp [Fetching.step, Pacoblaze3.step, Pacoblaze3.internalReset, reset]
  have address : (fetching memory pins start (first + 2)).pacoblaze.programCounter = 0 :=
    (internal_reset (latched _ _ reset0).1).2.1
  obtain ⟨timingControl, pc, zero, carry, _, interruptLatch, _⟩ :=
    @internal_reset (fetching memory pins start (first + 2)).pacoblaze
      ⟨(fetching memory pins start (first + 2)).instruction, (pins (first + 2)).inPort,
        (pins (first + 2)).interrupt, (pins (first + 2)).reset⟩ (latched _ _ reset1).1
  refine ⟨⟨timingControl, pc, zero, carry, interruptLatch, congrArg memory address,
    (latched _ _ reset2).2.1,
    (latched _ _ reset2).2.2⟩, ?_⟩
  exact (reset_spr reset2).trans ((reset_spr reset1).trans (reset_spr reset0))

/-- A taken call leaves on the stack what was at the pointer. -/
theorem Begins.pushes {fetching : Fetching} {pins pins' : Pins} (begins : Begins memory fetching)
    (unlatched : fetching.pacoblaze.interruptLatch = false) (released : pins.reset = false)
    (released' : pins'.reset = false) (calls : operation fetching.instruction = .call)
    (matching : fetching.pacoblaze.conditionalMatch fetching.instruction = true) :
    ((fetching.step memory pins).step memory pins').pacoblaze.programCounter =
      codeAddress fetching.instruction ∧
      Holds ((fetching.step memory pins).step memory pins').pacoblaze.spr
        ((fetching.step memory pins).step memory pins').pacoblaze.ptr
        [fetching.pacoblaze.spr fetching.pacoblaze.ptr] := by
  rw [begins.second unlatched released released']
  have next : fetching.pacoblaze.programCounterNext fetching.instruction =
      codeAddress fetching.instruction := by
    simp [Pacoblaze3.programCounterNext, Pacoblaze3.programCounterSource, Pacoblaze3.leaves, unlatched,
      matching,
      calls]
  have moved : (firstCycle fetching.instruction pins.interrupt fetching.pacoblaze).ptr =
      fetching.pacoblaze.ptr + 1 := by
    simp [firstCycle, Pacoblaze3.stackUpdateEnable, Pacoblaze3.nextPtr, Pacoblaze3.stackPushPop,
      Pacoblaze3.goesBack, begins.timingControl, matching, calls, unlatched]
  have pushed := (Holds.nil fetching.pacoblaze.spr fetching.pacoblaze.ptr).push (by decide)
  refine ⟨next, ?_⟩
  simp only [secondCycle, Pacoblaze3.idle]
  rw [moved]
  exact pushed.write _

/-- A program that begins with a taken call cannot return from it: after a reset of
three cycles the call leaves what the third place of the stack memory held before, and
not its own address. -/
theorem first_call_misplaced (first : Nat) (reset : ∀ cycle < 3, (pins (first + cycle)).reset = true)
    (released : ∀ cycle, first + 3 ≤ cycle → (pins cycle).reset = false) (calls : CallsFirst memory) :
    (fetching memory pins start (first + 7)).pacoblaze.programCounter = codeAddress (memory 0) ∧
      Holds (fetching memory pins start (first + 7)).pacoblaze.spr
        (fetching memory pins start (first + 7)).pacoblaze.ptr
        [(fetching memory pins start first).pacoblaze.spr 2] := by
  obtain ⟨initially, before⟩ := reset_held pins start first reset
  obtain ⟨once, written⟩ := initially.moves (by rfl) (released (first + 3) (Nat.le_refl _)) calls
  obtain ⟨twice, written'⟩ := once.moves (by rfl) (released (first + 4) (Nat.le_succ _)) calls
  obtain ⟨begins, word, _, zero, carry, _, unlatched⟩ :=
    reset_begins memory pins start (first + 2) (reset 2 (by decide))
      fun cycle later => released cycle (by omega)
  have item : (fetching memory pins start (first + 2 + 3)).pacoblaze.spr
      (fetching memory pins start (first + 2 + 3)).pacoblaze.ptr =
        (fetching memory pins start first).pacoblaze.spr 2 := by
    rw [show (fetching memory pins start (first + 2 + 3)).pacoblaze.ptr = 2 from twice.ptr,
      show (fetching memory pins start (first + 2 + 3)).pacoblaze.spr = _ from written', written, before]
    exact (Function.update_of_ne (by decide) _ _).trans (Function.update_of_ne (by decide) _ _)
  obtain ⟨jumps, pushed⟩ :=
    begins.pushes unlatched (released (first + 5) (by omega)) (released (first + 6) (by omega))
    (word ▸ calls.calls) (word ▸ calls.taken _ zero carry)
  rw [item] at pushed
  exact ⟨jumps.trans (congrArg codeAddress word), pushed⟩

end Runs

/-- A reset in the first three cycles. -/
def resetFirst (cycle : Nat) : Pins where
  inPort := 0
  interrupt := false
  reset := cycle < 3

/-- Registers before a reset. -/
def unreset : Fetching where
  pacoblaze :=
    { programCounter := 5, timingControl := true, zero := true, carry := true, interruptEnable := true
      interruptLatch := true, interruptAck := false, zeroSaved := false, carrySaved := false
      resetLatch := 0, zeroCarryWriteEnable := true, readStrobe := false, writeStrobe := true
      registerXWriteEnable := true, scratchWriteEnable := false, dpr := fun _ => 7, ptr := 9
      spr := fun _ => 0x123, scratch := fun _ => 0 }
  instruction := 0x0C001

/-- PRACPICO.MEM after a reset of one cycle. -/
theorem executes_after_reset_shipped :
    ∃ initial, AtReset initial ∧
      ∀ count, StackSufficesFor outdata resetFirst (2 + 3) initial count →
        Between outdata (fetching outdata resetFirst unreset (2 + 3 + 2 * count))
            (processor outdata resetFirst (2 + 3) initial count) ∧
          ∀ earlier < count,
            (fetching outdata resetFirst unreset (2 + 3 + 2 * earlier)).access = .silent ∧
              (fetching outdata resetFirst unreset (2 + 3 + 2 * earlier + 1)).access =
                (processor outdata resetFirst (2 + 3) initial earlier).access outdata :=
  executes_after_reset outdata resetFirst unreset 2 rfl
    (fun cycle later => decide_eq_false (Nat.not_lt.mpr later)) (by decide)

/-- CALL 005 in every word. -/
def calling (_ : Address) : BitVec 18 := 0x30005

/-- A program that begins with a call. -/
theorem first_call_misplaced_calling :
    (fetching calling resetFirst unreset (0 + 7)).pacoblaze.programCounter = codeAddress (calling 0) ∧
      Holds (fetching calling resetFirst unreset (0 + 7)).pacoblaze.spr
        (fetching calling resetFirst unreset (0 + 7)).pacoblaze.ptr
        [(fetching calling resetFirst unreset 0).pacoblaze.spr 2] :=
  first_call_misplaced resetFirst unreset 0
    (fun cycle early => decide_eq_true (by rwa [Nat.zero_add]))
    (fun cycle later => decide_eq_false (Nat.not_lt.mpr (by rwa [Nat.zero_add] at later)))
    ⟨by decide, fun _ _ _ => rfl⟩

end CpenLabs.PacoblazeRefinement
