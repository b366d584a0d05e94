import CpenLabs.MemoryImage

/-!
# The registers of pacoblaze3

The processor as its Verilog describes it: the decode unit, the arithmetic-logic unit,
the register file, the scratch memory, the stack memory with its pointer, and the
control registers, which all change at the rising edge of one clock. An instruction
takes two cycles. In the first one the program counter and the stack pointer move and
the write enables are set; in the second one the enabled registers are written.

The opcodes that have no instruction are decoded as LOAD, the default of the decode
unit. The debug strings are left out. The instruction memory is read through a register,
as in `picoblaze_template`.
-/

namespace CpenLabs.Pacoblaze

open Kcpsm3 MemoryImage

/-- The operations, `op_load` to `op_store`. -/
inductive Op
  | load
  | input
  | fetch
  | and
  | or
  | xor
  | test
  | compare
  | add
  | addcy
  | sub
  | subcy
  | rs
  | ret
  | output
  | store
  | call
  | jump
  | returni
  | interrupt
deriving DecidableEq

section DecodeUnit

variable (instruction : BitVec 18)

/-- `idu_operation`. -/
def operation : Op :=
  match (instruction.extractLsb' 13 5).toNat with
  | 0x00 => .load
  | 0x0c => .add
  | 0x0d => .addcy
  | 0x05 => .and
  | 0x06 => .or
  | 0x10 => .rs
  | 0x0e => .sub
  | 0x0f => .subcy
  | 0x07 => .xor
  | 0x1a => .jump
  | 0x18 => .call
  | 0x15 => .ret
  | 0x1c => .returni
  | 0x1e => .interrupt
  | 0x02 => .input
  | 0x16 => .output
  | 0x0a => .compare
  | 0x09 => .test
  | 0x03 => .fetch
  | 0x17 => .store
  | _ => .load

/-- `idu_shift_direction`: left is zero, right is one. -/
def shiftDirection : Bool := instruction.getLsbD 3

/-- `idu_shift_operation`. -/
def shiftOperation : BitVec 2 := instruction.extractLsb' 1 2

/-- `idu_shift_constant`. -/
def shiftConstant : Bool := instruction.getLsbD 0

/-- `idu_operand_selection`: the constant is zero, the register one. -/
def operandSelection : Bool := instruction.getLsbD 12

/-- `idu_implied_value` and `idu_port_address`. -/
def impliedValue : Byte := instruction.extractLsb' 0 8

/-- `idu_scratch_address`. -/
def scratchAddress : BitVec 6 := instruction.extractLsb' 0 6

/-- `idu_conditional`. -/
def conditional : Bool := instruction.getLsbD 12

/-- `idu_condition_flags`. -/
def conditionFlags : BitVec 2 := instruction.extractLsb' 10 2

end DecodeUnit

section Alu

variable (operation : Op) (shiftOperation : BitVec 2) (shiftDirection shiftConstant : Bool)
  (operandA operandB : Byte) (carryIn : Bool)

/-- The second operand of the adder. -/
def addsubB : Byte :=
  if operation = .sub ∨ operation = .subcy ∨ operation = .compare then ~~~operandB else operandB

/-- The carry into the adder. -/
def addsubCarry : Bool :=
  if operation = .addcy then carryIn
  else if operation = .sub ∨ operation = .compare then true
  else if operation = .subcy then !carryIn
  else false

/-- The adder, nine bits wide. -/
def addsubResult : BitVec 9 :=
  operandA.setWidth 9 + (addsubB operation operandB).setWidth 9 +
    (BitVec.ofBool (addsubCarry operation carryIn)).setWidth 9

/-- The bit that a shift or rotate instruction moves in. -/
def shiftBit : BitVec 1 :=
  BitVec.ofBool
    (if shiftOperation = 0b10#2 then operandA.getLsbD 0
    else if shiftOperation = 0b01#2 then operandA.getLsbD 7
    else if shiftOperation = 0b00#2 then carryIn
    else shiftConstant)

/-- `alu_result` and `alu_carry_out`. -/
def alu : Byte × Bool :=
  let shiftBit := shiftBit shiftOperation shiftConstant operandA carryIn
  match operation with
  | .add | .addcy =>
      ((addsubResult operation operandA operandB carryIn).setWidth 8,
        (addsubResult operation operandA operandB carryIn).getLsbD 8)
  | .compare | .sub | .subcy =>
      ((addsubResult operation operandA operandB carryIn).setWidth 8,
        !(addsubResult operation operandA operandB carryIn).getLsbD 8)
  | .and => (operandA &&& operandB, false)
  | .or => (operandA ||| operandB, false)
  | .test =>
      (operandA &&& operandB,
        (List.range 8).foldl (fun parity bit => parity ^^ (operandA &&& operandB).getLsbD bit) false)
  | .xor => (operandA ^^^ operandB, false)
  | .rs =>
      if shiftDirection then
        ((shiftBit ++ operandA).extractLsb' 1 8, (shiftBit ++ operandA).getLsbD 0)
      else ((operandA ++ shiftBit).setWidth 8, (operandA ++ shiftBit).getLsbD 8)
  | _ => (operandB, false)

end Alu

/-- The registers and memories. -/
structure Pacoblaze3 where
  programCounter : Address
  timingControl : Bool
  zero : Bool
  carry : Bool
  interruptEnable : Bool
  interruptLatch : Bool
  interruptAck : Bool
  zeroSaved : Bool
  carrySaved : Bool
  resetLatch : BitVec 2
  zeroCarryWriteEnable : Bool
  readStrobe : Bool
  writeStrobe : Bool
  registerXWriteEnable : Bool
  scratchWriteEnable : Bool
  dpr : Register → Byte
  ptr : BitVec 5
  spr : BitVec 5 → Address
  scratch : BitVec 6 → Byte

/-- The inputs in one cycle. -/
structure Input where
  instruction : BitVec 18
  inPort : Byte
  interrupt : Bool
  reset : Bool

namespace Pacoblaze3

section Wires

variable (instruction : BitVec 18) (pacoblaze : Pacoblaze3)

/-- `register_x_data_out`, which is `out_port` as well. -/
def registerXDataOut : Byte := pacoblaze.dpr (xAddress instruction)

/-- `register_y_data_out`. -/
def registerYDataOut : Byte := pacoblaze.dpr (yAddress instruction)

/-- `alu_operand_b`, which is `port_id` as well. -/
def aluOperandB : Byte :=
  if operandSelection instruction then pacoblaze.registerYDataOut instruction else impliedValue instruction

/-- `scratch_address`. -/
def scratchPlace : BitVec 6 :=
  if operandSelection instruction then (pacoblaze.registerYDataOut instruction).setWidth 6
  else scratchAddress instruction

/-- The outputs of the arithmetic-logic unit. -/
def aluOut : Byte × Bool :=
  alu (operation instruction) (shiftOperation instruction) (shiftDirection instruction)
    (shiftConstant instruction) (pacoblaze.registerXDataOut instruction)
    (pacoblaze.aluOperandB instruction) pacoblaze.carry

/-- `register_x_data_in`. -/
def registerXDataIn (inPort : Byte) : Byte :=
  if operation instruction = .fetch then pacoblaze.scratch (pacoblaze.scratchPlace instruction)
  else if operation instruction = .input then inPort
  else (pacoblaze.aluOut instruction).1

/-- `internal_reset`. -/
def internalReset : Bool := pacoblaze.resetLatch.getLsbD 1

/-- `conditional_match`. -/
def conditionalMatch : Bool :=
  !conditional instruction
    || conditionFlags instruction == 0b10#2 && pacoblaze.carry
    || conditionFlags instruction == 0b11#2 && !pacoblaze.carry
    || conditionFlags instruction == 0b00#2 && pacoblaze.zero
    || conditionFlags instruction == 0b01#2 && !pacoblaze.zero

/-- `is_jump || is_call`. -/
def leaves : Bool := operation instruction = .jump || operation instruction = .call

/-- `conditional_match && is_return || is_returni`. -/
def goesBack : Bool :=
  pacoblaze.conditionalMatch instruction && operation instruction = .ret ||
    operation instruction = .returni

/-- `interrupt_assert`. -/
def interruptAssert (interrupt : Bool) : Bool := interrupt && pacoblaze.interruptEnable

/-- `stack_push_pop`. -/
def stackPushPop : Bool := pacoblaze.interruptLatch || !pacoblaze.goesBack instruction

/-- `ptr_1`. -/
def nextPtr : BitVec 5 := if pacoblaze.stackPushPop instruction then pacoblaze.ptr + 1 else pacoblaze.ptr - 1

/-- `stack_data_out`. -/
def stackDataOut : Address := pacoblaze.spr (pacoblaze.nextPtr instruction)

/-- `stack_write_enable`. -/
def stackWriteEnable : Bool := pacoblaze.internalReset || pacoblaze.timingControl

/-- `stack_update_enable`. -/
def stackUpdateEnable : Bool :=
  !pacoblaze.timingControl &&
    (pacoblaze.conditionalMatch instruction &&
        (operation instruction = .call || operation instruction = .ret)
      || operation instruction = .returni
      || pacoblaze.interruptLatch)

/-- `program_counter_source`. -/
def programCounterSource : Address :=
  if pacoblaze.interruptLatch then interruptVector
  else if pacoblaze.conditionalMatch instruction && leaves instruction then codeAddress instruction
  else if pacoblaze.goesBack instruction then pacoblaze.stackDataOut instruction
  else pacoblaze.programCounter

/-- `program_counter_next`. -/
def programCounterNext : Address :=
  if pacoblaze.interruptLatch || pacoblaze.conditionalMatch instruction && leaves instruction
      || operation instruction = .returni then
    pacoblaze.programCounterSource instruction
  else pacoblaze.programCounterSource instruction + 1

end Wires

/-- The idle values at the head of the sequential block. -/
def idle (pacoblaze : Pacoblaze3) : Pacoblaze3 :=
  { pacoblaze with
    readStrobe := false
    writeStrobe := false
    registerXWriteEnable := false
    scratchWriteEnable := false
    interruptAck := false
    zeroCarryWriteEnable := false }

/-- The task `execute`. -/
def execute (instruction : BitVec 18) (pacoblaze : Pacoblaze3) : Pacoblaze3 :=
  match operation instruction with
  | .load | .fetch => { pacoblaze with registerXWriteEnable := true }
  | .and | .or | .xor | .add | .addcy | .sub | .subcy | .rs =>
      { pacoblaze with registerXWriteEnable := true, zeroCarryWriteEnable := true }
  | .returni =>
      { pacoblaze with
        zero := pacoblaze.zeroSaved
        carry := pacoblaze.carrySaved
        interruptEnable := MemoryImage.interruptEnable instruction }
  | .interrupt => { pacoblaze with interruptEnable := MemoryImage.interruptEnable instruction }
  | .input => { pacoblaze with readStrobe := true, registerXWriteEnable := true }
  | .output => { pacoblaze with writeStrobe := true }
  | .compare | .test => { pacoblaze with zeroCarryWriteEnable := true }
  | .store => { pacoblaze with scratchWriteEnable := true }
  | .jump | .call | .ret => pacoblaze

/-- The sequential main block. What it does not assign is as before. -/
def seq (instruction : BitVec 18) (interrupt : Bool) (pacoblaze : Pacoblaze3) : Pacoblaze3 :=
  if pacoblaze.internalReset then
    { pacoblaze.idle with
      timingControl := false
      programCounter := 0
      zero := false
      carry := false
      interruptEnable := false
      interruptLatch := false }
  else if pacoblaze.timingControl then
    { pacoblaze.idle with
      timingControl := false
      interruptLatch := pacoblaze.interruptAssert interrupt || pacoblaze.interruptLatch
      zero :=
        if pacoblaze.zeroCarryWriteEnable then (pacoblaze.aluOut instruction).1 == 0 else pacoblaze.zero
      carry :=
        if pacoblaze.zeroCarryWriteEnable then (pacoblaze.aluOut instruction).2 else pacoblaze.carry }
  else if pacoblaze.interruptLatch then
    { pacoblaze.idle with
      timingControl := true
      programCounter := pacoblaze.programCounterNext instruction
      interruptEnable := false
      interruptLatch := false
      interruptAck := true
      zeroSaved := pacoblaze.zero
      carrySaved := pacoblaze.carry }
  else
    execute instruction
      { pacoblaze.idle with
        timingControl := true
        programCounter := pacoblaze.programCounterNext instruction
        interruptLatch := pacoblaze.interruptAssert interrupt || pacoblaze.interruptLatch }

/-- One clock cycle: the main block, the reset latch and the memories. -/
def step (input : Input) (pacoblaze : Pacoblaze3) : Pacoblaze3 :=
  { pacoblaze.seq input.instruction input.interrupt with
    resetLatch :=
      if input.reset then 0b11#2
      else BitVec.ofBool (pacoblaze.resetLatch.getLsbD 0) ++ 0#1
    dpr :=
      if pacoblaze.registerXWriteEnable then
        Function.update pacoblaze.dpr (xAddress input.instruction)
          (pacoblaze.registerXDataIn input.instruction input.inPort)
      else pacoblaze.dpr
    scratch :=
      if pacoblaze.scratchWriteEnable then
        Function.update pacoblaze.scratch (pacoblaze.scratchPlace input.instruction)
          (pacoblaze.registerXDataOut input.instruction)
      else pacoblaze.scratch
    ptr :=
      if input.reset then 0
      else if pacoblaze.stackUpdateEnable input.instruction then pacoblaze.nextPtr input.instruction
      else pacoblaze.ptr
    spr :=
      if !input.reset && pacoblaze.stackWriteEnable then
        Function.update pacoblaze.spr pacoblaze.ptr pacoblaze.programCounter
      else pacoblaze.spr }

end Pacoblaze3

/-- The processor and the register `instruction` of `picoblaze_template`. -/
structure Fetching where
  pacoblaze : Pacoblaze3
  instruction : BitVec 18

/-- The inputs of both in one cycle. -/
structure Pins where
  inPort : Byte
  interrupt : Bool
  reset : Bool

/-- One clock cycle, with the contents of the instruction memory. -/
def Fetching.step (memory : Address → BitVec 18) (pins : Pins) (fetching : Fetching) : Fetching where
  pacoblaze :=
    fetching.pacoblaze.step
      { instruction := fetching.instruction, inPort := pins.inPort, interrupt := pins.interrupt
        reset := pins.reset }
  instruction := memory fetching.pacoblaze.programCounter

/-- The port access of a cycle: a strobe with `port_id` and `out_port`. -/
def Fetching.access (fetching : Fetching) : Event :=
  if fetching.pacoblaze.writeStrobe then
    .write (fetching.pacoblaze.aluOperandB fetching.instruction)
      (fetching.pacoblaze.registerXDataOut fetching.instruction)
  else if fetching.pacoblaze.readStrobe then .read (fetching.pacoblaze.aluOperandB fetching.instruction)
  else .silent

end CpenLabs.Pacoblaze
