import CpenLabs.Kcpsm3
import Mathlib.Data.List.Basic

/-!
# The PicoBlaze program

pracPICO.psm as the assembler reads it: a list of instructions, some of them with a
label, that are placed at consecutive addresses from zero on, and a jump to the
service routine at the interrupt vector. The rest of the instruction memory holds
zeros, which read as LOAD s0, 00.

Two constants of the source differ in the memory image that the repository ships, the
scratch location of the high byte of the sum and the count of the shortest delay.
They are parameters, and what is proved about the program holds for both versions.
-/

namespace CpenLabs.PracPico

open Kcpsm3

/-- The labels, in the order of the source. -/
inductive Label
  | coldStart
  | mainProgram
  | delay1us
  | wait1us
  | delay40us
  | wait40us
  | delay1ms
  | wait1ms
  | delay20ms
  | wait20ms
  | delay1s
  | wait1s
  | isr
  | inc
  | ledProcess
  | ledOut
  | endIsr
  | led9_2
  | led9_3
  | led9_4
  | led9_5
  | led9_6
  | led9_7
  | led9_8
  | led9_9
  | inv
deriving DecidableEq

/-- The constants in which the source and the shipped memory image differ. The
location lies apart from the others that the program uses. -/
structure Constants where
  carryStoredData : Byte
  delay1usConstant : Byte
  apart : ∀ location ∈ [0x00#6, 0x01#6, 0x02#6, 0x03#6, 0x06#6, 0x07#6],
    location ≠ carryStoredData.setWidth 6

/-- The constants of pracPICO.psm. -/
def source : Constants where
  carryStoredData := 0x04
  delay1usConstant := 0x05
  apart := by decide

/-- The ports. -/
def ledPort : Byte := 0x80
def dataInPort : Byte := 0x00
def led0 : Byte := 0x40

/-- The locations in the scratch memory. -/
def isrPreserveS0 : Byte := 0x00
def isrPreserveS1 : Byte := 0x01
def isrPreserveS2 : Byte := 0x02
def isrPreserveS3 : Byte := 0x03
def storedData : Byte := 0x06
def counter : Byte := 0x07

/-- A line of the source: an instruction, and the label in front of it. -/
abbrev Line := Option Label × Instruction Label

section Source

open Instruction Operand Operation Condition Label

variable (constants : Constants)

/-- The lines that initialise the system and toggle the LED. -/
def mainLines : List Line :=
  [ (some coldStart, load 0 (constant 0x00)),
    (none, store 0 (constant counter)),
    (none, store 0 (constant storedData)),
    (none, store 0 (constant constants.carryStoredData)),
    (none, output 0 (constant ledPort)),
    (none, output 0 (constant led0)),
    (none, interrupt true),
    (some mainProgram, load 1 (constant 0x01)),
    (none, output 1 (constant led0)),
    (none, call always delay1s),
    (none, load 1 (constant 0x00)),
    (none, output 1 (constant led0)),
    (none, call always delay1s),
    (none, jump always mainProgram),
    (some delay1us, load 0 (constant constants.delay1usConstant)),
    (some wait1us, alu sub 0 (constant 0x01)),
    (none, jump nz wait1us),
    (none, ret always),
    (some delay40us, load 1 (constant 0x28)),
    (some wait40us, call always delay1us),
    (none, alu sub 1 (constant 0x01)),
    (none, jump nz wait40us),
    (none, ret always),
    (some delay1ms, load 2 (constant 0x19)),
    (some wait1ms, call always delay40us),
    (none, alu sub 2 (constant 0x01)),
    (none, jump nz wait1ms),
    (none, ret always),
    (some delay20ms, load 3 (constant 0x14)),
    (some wait20ms, call always delay1ms),
    (none, alu sub 3 (constant 0x01)),
    (none, jump nz wait20ms),
    (none, ret always),
    (some delay1s, load 4 (constant 0x32)),
    (some wait1s, call always delay20ms),
    (none, alu sub 4 (constant 0x01)),
    (none, jump nz wait1s),
    (none, ret always) ]

/-- The lines of the interrupt service routine. -/
def isrLines : List Line :=
  [ (some isr, store 0 (constant isrPreserveS0)),
    (none, store 1 (constant isrPreserveS1)),
    (none, store 2 (constant isrPreserveS2)),
    (none, store 3 (constant isrPreserveS3)),
    (none, fetch 0 (constant counter)),
    (none, fetch 2 (constant storedData)),
    (none, fetch 3 (constant constants.carryStoredData)),
    (none, input 1 (constant dataInPort)),
    (none, alu compare 1 (constant 0x80)),
    (none, jump nc inv),
    (some inc, alu add 2 (register 1)),
    (none, alu addcy 3 (constant 0x00)),
    (none, alu add 0 (constant 0x01)),
    (none, alu compare 0 (constant 0x00)),
    (none, jump z ledProcess),
    (none, jump always endIsr),
    (some ledProcess, alu compare 3 (constant 0x80)),
    (none, jump nc led9_2),
    (none, alu compare 3 (constant 0x40)),
    (none, jump nc led9_3),
    (none, alu compare 3 (constant 0x20)),
    (none, jump nc led9_4),
    (none, alu compare 3 (constant 0x10)),
    (none, jump nc led9_5),
    (none, alu compare 3 (constant 0x08)),
    (none, jump nc led9_6),
    (none, alu compare 3 (constant 0x04)),
    (none, jump nc led9_7),
    (none, alu compare 3 (constant 0x02)),
    (none, jump nc led9_8),
    (none, jump always led9_9),
    (some ledOut, output 3 (constant ledPort)),
    (none, load 0 (constant 0x00)),
    (none, load 1 (constant 0x00)),
    (none, load 2 (constant 0x00)),
    (none, load 3 (constant 0x00)),
    (some endIsr, store 0 (constant counter)),
    (none, store 2 (constant storedData)),
    (none, store 3 (constant constants.carryStoredData)),
    (none, fetch 0 (constant isrPreserveS0)),
    (none, fetch 1 (constant isrPreserveS1)),
    (none, fetch 2 (constant isrPreserveS2)),
    (none, fetch 3 (constant isrPreserveS3)),
    (none, returni true),
    (some led9_2, load 3 (constant 0xff)),
    (none, jump always ledOut),
    (some led9_3, load 3 (constant 0xfe)),
    (none, jump always ledOut),
    (some led9_4, load 3 (constant 0xfc)),
    (none, jump always ledOut),
    (some led9_5, load 3 (constant 0xf8)),
    (none, jump always ledOut),
    (some led9_6, load 3 (constant 0xf0)),
    (none, jump always ledOut),
    (some led9_7, load 3 (constant 0xe0)),
    (none, jump always ledOut),
    (some led9_8, load 3 (constant 0xc0)),
    (none, jump always ledOut),
    (some led9_9, load 3 (constant 0x80)),
    (none, jump always ledOut),
    (some inv, alu xor 1 (constant 0xff)),
    (none, alu add 1 (constant 0x01)),
    (none, jump always inc) ]

/-- The whole source, less the jump at the interrupt vector. -/
def lines : List Line := mainLines constants ++ isrLines constants

/-- The address of a label: the number of lines before it. -/
def address (label : Label) : Address :=
  BitVec.ofNat 10 ((lines constants).findIdx fun line => line.1 == some label)

/-- The assembled program. -/
def program : Program := fun pc =>
  if pc = interruptVector then jump always (address constants isr)
  else (((lines constants)[pc.toNat]?).map fun line => line.2.map (address constants)).getD
    (load 0 (constant 0x00))

end Source

end CpenLabs.PracPico
