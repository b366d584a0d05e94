import CpenLabs.AveragingFilter

/-!
# The memory image and its source

The instruction memory of the circuit is filled from PRACPICO.MEM, which the
repository ships beside pracPICO.psm. The words are decoded here as the instruction
decode unit does it. They are the instructions of the source except in two constants:
the image keeps the high byte of the sum at scratch location 05 instead of 04 and counts
the shortest delay from 04 instead of 05.

All that is proved about the program is proved for such constants as parameters, so
that the image and the source are two instances of it. The LEDs of the filter show the
same values service by service, under any two interrupt schedules. The LED of the main
program shows the same sequence as far as the main program gets, which a schedule can
prevent.
-/

namespace CpenLabs.MemoryImage

open Clocked Kcpsm3 PracPico InterruptedRun InterruptTransparency AveragingFilter MainProgram

deriving instance DecidableEq for Operand, Condition, Instruction

section Decoder

variable (instruction : BitVec 18)

/-- `x_address`. -/
def xAddress : Register := (instruction.extractLsb' 8 4).toFin

/-- `y_address`. -/
def yAddress : Register := (instruction.extractLsb' 4 4).toFin

/-- The second operand: bit 12 selects the register. -/
def operand : Operand :=
  if instruction.getLsbD 12 then .register (yAddress instruction)
  else .constant (instruction.extractLsb' 0 8)

/-- `code_address`. -/
def codeAddress : Address := instruction.extractLsb' 0 10

/-- The condition: bit 12 says whether there is one, bits 11 and 10 which. -/
def condition : Condition :=
  if instruction.getLsbD 12 then
    match instruction.getLsbD 11, instruction.getLsbD 10 with
    | false, false => .z
    | false, true => .nz
    | true, false => .c
    | true, true => .nc
  else .always

/-- `interrupt_enable`. -/
def interruptEnable : Bool := instruction.getLsbD 0

/-- The instruction that the opcode in the five highest bits selects. Shift and rotate
instructions are left out, and the other opcodes have no instruction. -/
def decode : Option (Instruction Address) :=
  match (instruction.extractLsb' 13 5).toNat with
  | 0x00 => some (.load (xAddress instruction) (operand instruction))
  | 0x02 => some (.input (xAddress instruction) (operand instruction))
  | 0x03 => some (.fetch (xAddress instruction) (operand instruction))
  | 0x05 => some (.alu .and (xAddress instruction) (operand instruction))
  | 0x06 => some (.alu .or (xAddress instruction) (operand instruction))
  | 0x07 => some (.alu .xor (xAddress instruction) (operand instruction))
  | 0x09 => some (.alu .test (xAddress instruction) (operand instruction))
  | 0x0a => some (.alu .compare (xAddress instruction) (operand instruction))
  | 0x0c => some (.alu .add (xAddress instruction) (operand instruction))
  | 0x0d => some (.alu .addcy (xAddress instruction) (operand instruction))
  | 0x0e => some (.alu .sub (xAddress instruction) (operand instruction))
  | 0x0f => some (.alu .subcy (xAddress instruction) (operand instruction))
  | 0x15 => some (.ret (condition instruction))
  | 0x16 => some (.output (xAddress instruction) (operand instruction))
  | 0x17 => some (.store (xAddress instruction) (operand instruction))
  | 0x18 => some (.call (condition instruction) (codeAddress instruction))
  | 0x1a => some (.jump (condition instruction) (codeAddress instruction))
  | 0x1c => some (.returni (interruptEnable instruction))
  | 0x1e => some (.interrupt (interruptEnable instruction))
  | _ => none

end Decoder

/-- The first words of PRACPICO.MEM. -/
def words : List (BitVec 20) :=
  [
    0x00000, 0x2E007, 0x2E006, 0x2E005, 0x2C080, 0x2C040, 0x3C001, 0x00101,
    0x2C140, 0x30021, 0x00100, 0x2C140, 0x30021, 0x34007, 0x00004, 0x1C001,
    0x3540F, 0x2A000, 0x00128, 0x3000E, 0x1C101, 0x35413, 0x2A000, 0x00219,
    0x30012, 0x1C201, 0x35418, 0x2A000, 0x00314, 0x30017, 0x1C301, 0x3541D,
    0x2A000, 0x00432, 0x3001C, 0x1C401, 0x35422, 0x2A000, 0x2E000, 0x2E101,
    0x2E202, 0x2E303, 0x06007, 0x06206, 0x06305, 0x04100, 0x14180, 0x35C62,
    0x19210, 0x1A300, 0x18001, 0x14000, 0x35036, 0x3404A, 0x14380, 0x35C52,
    0x14340, 0x35C54, 0x14320, 0x35C56, 0x14310, 0x35C58, 0x14308, 0x35C5A,
    0x14304, 0x35C5C, 0x14302, 0x35C5E, 0x34060, 0x2C380, 0x00000, 0x00100,
    0x00200, 0x00300, 0x2E007, 0x2E206, 0x2E305, 0x06000, 0x06101, 0x06202,
    0x06303, 0x38001, 0x003FF, 0x34045, 0x003FE, 0x34045, 0x003FC, 0x34045,
    0x003F8, 0x34045, 0x003F0, 0x34045, 0x003E0, 0x34045, 0x003C0, 0x34045,
    0x00380, 0x34045, 0x0E1FF, 0x18101, 0x34030]

/-- PRACPICO.MEM: zeros follow, up to the word at the interrupt vector. -/
def memory : List (BitVec 20) := words ++ List.replicate 922 0x00000 ++ [0x34026]

/-- `assign outdata = memory[addr]`. -/
def outdata (addr : Address) : BitVec 18 := (memory.getD addr.toNat 0).setWidth 18

/-- The constants of the image. -/
def shipped : Constants where
  carryStoredData := 0x05
  delay1usConstant := 0x04
  apart := by decide

/-- The first words are the lines of the source, with the shipped constants. -/
theorem decode_words :
    words.map (fun word => decode (word.setWidth 18)) =
      (lines shipped).map fun line => some (line.2.map (address shipped)) := by
  decide +kernel

theorem words_length : words.length = 101 := rfl

theorem lines_length : (lines shipped).length = 101 := rfl

/-- The image at the addresses of the program. -/
theorem memory_words (place : Nat) (inside : place < 101) : memory.getD place 0 = words.getD place 0 := by
  have before : place < 101 + 922 := by omega
  simp only [memory, List.getD_eq_getElem?_getD, List.getElem?_append, List.length_append, words_length,
    List.length_replicate, before, inside, ↓reduceIte]

/-- The words between the program and the interrupt vector are zero. -/
theorem memory_gap (place : Nat) (after : ¬ place < 101) (before : place < 1023) : memory.getD place 0 = 0 := by
  have early : place < 101 + 922 := before
  have gap : place - 101 < 922 := by omega
  simp only [memory, List.getD_eq_getElem?_getD, List.getElem?_append, List.length_append, words_length,
    List.length_replicate, List.getElem?_replicate, early, after, gap, ↓reduceIte, Option.getD_some]

/-- Every word of the image is an instruction of the source, with the shipped constants. -/
theorem decode_outdata (addr : Address) : decode (outdata addr) = some (program shipped addr) := by
  by_cases vector : addr = interruptVector
  · subst vector
    decide +kernel
  · have before : addr.toNat < 1023 := by
      have width := addr.isLt
      have apart : addr.toNat ≠ 1023 := fun same => vector (BitVec.eq_of_toNat_eq same)
      omega
    rw [program, if_neg vector, outdata]
    by_cases inside : addr.toNat < 101
    · have line := congrArg (fun list => list[addr.toNat]?) decode_words
      simp only [List.getElem?_map] at line
      rw [memory_words addr.toNat inside, List.getD_eq_getElem?_getD]
      have hasWord : addr.toNat < words.length := inside
      have hasLine : addr.toNat < (lines shipped).length := inside
      rw [List.getElem?_eq_getElem hasWord, List.getElem?_eq_getElem hasLine] at line ⊢
      exact Option.some.inj line
    · have nothing : (lines shipped)[addr.toNat]? = none :=
        List.getElem?_eq_none (by rw [lines_length]; omega)
      rw [memory_gap addr.toNat inside before, nothing]
      rfl

/-- The program that the circuit executes. -/
def image : Program := fun addr =>
  (decode (outdata addr)).get (Option.isSome_of_eq_some (decode_outdata addr))

/-- It is the program with the constants of the shipped image. -/
theorem image_eq : image = program shipped := by
  funext addr
  exact Option.get_of_eq_some _ (decode_outdata addr)

section Observations

variable (program : Program) (samples : Nat → Byte) (irq : Nat → Bool) (start : Machine)

/-- The values that an execution stores in the LEDs of the filter. -/
def ledPortValues (first steps : Nat) : List Byte := writes program samples irq start 7 (first + 1) steps

/-- The LED of the main program is given this value as the one with this number, counted
from zero, since the reset. -/
def Shows (number : Nat) (value : Byte) : Prop :=
  ∃ count, (writes program samples irq start 6 0 count)[number]? = some value

/-- The schedule leaves room for main instructions without an end. -/
def RoomLeft : Prop := ∀ count, ∃ cycle, 7 ≤ cycle ∧ count ≤ executed program samples irq start 7 cycle

end Observations

section Instances

variable (constants : Constants) (samples : Nat → Byte) (irq : Nat → Bool) (start : Machine)

/-- What an execution stores depends on its number and the samples alone. -/
theorem execution_shows (reset : AtReset start) (number first steps : Nat)
    (execution : Execution (program constants) samples irq start number first steps) :
    ledPortValues (program constants) samples irq start first steps = (shown samples number).toList := by
  obtain ⟨served, _, execution', _, values, _⟩ :=
    service_shows constants samples irq start reset first _ execution.request rfl
  rw [execution.counted] at values
  rw [execution.steps_unique (program constants) samples irq start execution']
  exact values

/-- Every step of the service routine belongs to an execution. -/
theorem serving_within (reset : AtReset start) (cycle : Nat)
    (inService : (machine (program constants) samples irq start cycle).inService = true) :
    ∃ number first steps, first < cycle ∧ cycle ≤ first + steps ∧ steps ≤ 49 ∧
      Execution (program constants) samples irq start number first steps := by
  induction cycle with
  | zero =>
    rw [machine, run_zero, reset.inService] at inService
    cases inService
  | succ cycle inductionHypothesis =>
    cases request : taken (irq cycle) (machine (program constants) samples irq start cycle) with
    | true =>
      obtain ⟨steps, short, execution, _⟩ :=
        service_shows constants samples irq start reset cycle _ request rfl
      exact ⟨_, cycle, steps, Nat.lt_succ_self cycle, Nat.add_le_add_left execution.lasts cycle, short, execution⟩
    | false =>
      have earlier := inService
      rw [machine_untaken (program constants) samples irq start cycle request, Bool.and_eq_true] at earlier
      obtain ⟨number, first, steps, before, within, short, execution⟩ := inductionHypothesis earlier.1
      refine ⟨number, first, steps, Nat.lt_succ_of_lt before, ?_, short, execution⟩
      -- It cannot have been the last step, which ends the execution.
      by_contra past
      have last : cycle + 1 = first + 1 + steps := by omega
      rw [last, execution.ended.1] at inService
      cases inService

/-- In fifty steps without a request the main program executes an instruction. -/
theorem quiet_main (reset : AtReset start) (first : Nat)
    (quiet : ∀ cycle, first ≤ cycle → cycle < first + 50 → irq cycle = false) :
    ∃ cycle, first ≤ cycle ∧ Main (program constants) samples irq start cycle := by
  have untaken : ∀ cycle, first ≤ cycle → cycle < first + 50 →
      taken (irq cycle) (machine (program constants) samples irq start cycle) = false := by
    intro cycle low high
    rw [taken, quiet cycle low high, Bool.false_and]
  cases inService : (machine (program constants) samples irq start first).inService with
  | false => exact ⟨first, Nat.le_refl first, inService, untaken first (Nat.le_refl first) (by omega)⟩
  | true =>
    obtain ⟨_, begins, steps, before, within, short, execution⟩ :=
      serving_within constants samples irq start reset first inService
    have low : first ≤ begins + 1 + steps := by omega
    have high : begins + 1 + steps < first + 50 := by omega
    exact ⟨begins + 1 + steps, low, execution.ended.1, untaken _ low high⟩

/-- A schedule leaves room if its requests pause again and again for fifty steps. -/
theorem pauses_leave_room (reset : AtReset start)
    (pauses : ∀ cycle, ∃ first, cycle ≤ first ∧
      ∀ place, first ≤ place → place < first + 50 → irq place = false) :
    RoomLeft (program constants) samples irq start := by
  intro count
  induction count with
  | zero => exact ⟨7, Nat.le_refl 7, Nat.zero_le _⟩
  | succ count inductionHypothesis =>
    obtain ⟨cycle, late, enough⟩ := inductionHypothesis
    obtain ⟨first, after, quiet⟩ := pauses cycle
    obtain ⟨place, low, main⟩ := quiet_main constants samples irq start reset first quiet
    have past : cycle ≤ place := after.trans low
    have more : executed (program constants) samples irq start 7 cycle ≤
        executed (program constants) samples irq start 7 place :=
      occurrences_le _ 7 cycle place late past
    refine ⟨place + 1, late.trans (past.trans (Nat.le_succ place)), ?_⟩
    rw [executed, occurrences_succ _ _ _ (late.trans past), if_pos main]
    exact Nat.succ_le_succ (enough.trans more)

/-- The cold start stores one value in the LED of the main program. -/
theorem cold_start_led (reset : AtReset start) : writes (program constants) samples irq start 6 0 7 = [0x00] := by
  obtain ⟨⟨pc, regs, scratch, zero, carry, interruptEnable, zeroSaved, carrySaved, stack⟩, begun, inService⟩ :=
    start
  obtain ⟨rfl, rfl, rfl, rfl⟩ := reset
  simp [writes, events, observed, written, event, step, taken, coldStart_code, exec, Cpu.value, Cpu.location,
    Instruction.returns, List.range']
  rfl

/-- The value that the LED of the main program is given at each number: 00 in the cold
start, and 01 and 00 in turn afterwards. -/
def blink (number : Nat) : Byte := if number % 2 = 0 then 0x00 else 0x01

/-- The values from the reset on are the one of the cold start and the heartbeat. -/
theorem led_values (reset : AtReset start) (count : Nat) :
    writes (program constants) samples irq start 6 0 (7 + count) =
      (List.range ((writes (program constants) samples irq start 6 7 count).length + 1)).map blink := by
  have rest := alternates constants samples irq start reset count
  rw [writes_append, cold_start_led constants samples irq start reset, Nat.zero_add, rest, List.range_succ_eq_map,
    List.map_cons, List.map_map, heartbeat, List.length_map, List.length_range]
  have shifted : ∀ place : Nat, (if place % 2 = 0 then 0x01 else 0x00 : Byte) = blink (place + 1) := by
    intro place
    unfold blink
    split_ifs <;> first | rfl | omega
  simp only [shifted]
  rfl

/-- The LED is given the value of a number, and no other, once the heartbeat is so long. -/
theorem shows_iff (reset : AtReset start) (number : Nat) (value : Byte) :
    Shows (program constants) samples irq start number value ↔
      value = blink number ∧
        ∃ count, number ≤ (writes (program constants) samples irq start 6 7 count).length := by
  constructor
  · rintro ⟨count, given⟩
    obtain ⟨inside, _⟩ := List.getElem?_eq_some_iff.mp given
    have longer := congrArg (fun list => list[number]?)
      (writes_append (program constants) samples irq start 6 0 count 7)
    simp only [List.getElem?_append_left inside, given] at longer
    rw [Nat.add_comm, led_values constants samples irq start reset, List.getElem?_map] at longer
    obtain ⟨place, found, same⟩ := Option.map_eq_some_iff.mp longer
    obtain ⟨within, here⟩ := List.getElem?_eq_some_iff.mp found
    rw [List.length_range] at within
    rw [List.getElem_range] at here
    exact ⟨by rw [here, same], count, by omega⟩
  · rintro ⟨rfl, count, enough⟩
    refine ⟨7 + count, ?_⟩
    rw [led_values constants samples irq start reset, List.getElem?_map, List.getElem?_range (by omega)]
    rfl

/-- With room for the main program the LED is given a value at each number. -/
theorem blink_shows (reset : AtReset start) (room : RoomLeft (program constants) samples irq start) (number : Nat)
    (value : Byte) : Shows (program constants) samples irq start number value ↔ value = blink number := by
  rw [shows_iff constants samples irq start reset]
  exact and_iff_left ((endless_iff constants samples irq start reset).mpr room number)

/-- A program serves the requests: each one that is made outside the executions of the
service routine, after the cold start, begins the execution with the next number. It
comes to an end, and if requests are made again and again, there is an execution of every
number. -/
structure Serves (program : Program) (samples : Nat → Byte) (irq : Nat → Bool) (start : Machine) : Prop where
  enabled : ∀ cycle, 7 ≤ cycle → (machine program samples irq start cycle).inService = false →
    (machine program samples irq start cycle).cpu.interruptEnable = true
  ends : ∀ first, irq first = true → (machine program samples irq start first).cpu.interruptEnable = true →
    ∃ steps, Execution program samples irq start ((machine program samples irq start first).begun + 1) first steps
  every : (∀ cycle, ∃ later, cycle ≤ later ∧ irq later = true) →
    ∀ number, 0 < number → ∃ first steps, Execution program samples irq start number first steps

/-- The image and the source serve the requests. -/
theorem program_serves (reset : AtReset start) : Serves (program constants) samples irq start where
  enabled := idle_enabled constants samples irq start reset
  ends := by
    intro first requested enabled
    have request : taken (irq first) (machine (program constants) samples irq start first) = true := by
      rw [taken, requested, enabled, Bool.and_self]
    obtain ⟨steps, _, execution, _⟩ := service_shows constants samples irq start reset first _ request rfl
    exact ⟨steps, execution⟩
  every := by
    intro recurs number positive
    obtain ⟨first, steps, _, averages⟩ := exists_averages constants samples irq start reset recurs (number - 1)
    rw [Nat.sub_add_cancel positive] at averages
    exact ⟨first, steps, averages.execution⟩

end Instances

/-- One program does in the LEDs what another does: both serve the requests, executions
of the service routine with the same number store the same values in the LEDs of the
filter, and the sequences of the other LED never differ in a value. They are the same if
neither schedule keeps the main program from going on. -/
structure Implements (binary text : Program) (samples : Nat → Byte) (irq irq' : Nat → Bool)
    (start start' : Machine) : Prop where
  serves : Serves binary samples irq start
  serves' : Serves text samples irq' start'
  ledPort : ∀ number first steps first' steps',
    Execution binary samples irq start number first steps →
      Execution text samples irq' start' number first' steps' →
        ledPortValues binary samples irq start first steps = ledPortValues text samples irq' start' first' steps'
  led0 : ∀ number value value', Shows binary samples irq start number value →
    Shows text samples irq' start' number value' → value = value'
  led0Same : RoomLeft binary samples irq start → RoomLeft text samples irq' start' →
    ∀ number value, Shows binary samples irq start number value ↔ Shows text samples irq' start' number value

/-- The image does what the source does, under any two schedules and from any two states
after a reset. -/
theorem image_implements_source (samples : Nat → Byte) (irq irq' : Nat → Bool) (start start' : Machine)
    (reset : AtReset start) (reset' : AtReset start') :
    Implements image (program source) samples irq irq' start start' where
  serves := by
    rw [image_eq]
    exact program_serves shipped samples irq start reset
  serves' := program_serves source samples irq' start' reset'
  ledPort := by
    rw [image_eq]
    intro number first steps first' steps' execution execution'
    rw [execution_shows shipped samples irq start reset number first steps execution,
      execution_shows source samples irq' start' reset' number first' steps' execution']
  led0 := by
    rw [image_eq]
    intro number value value' given given'
    rw [((shows_iff shipped samples irq start reset number value).mp given).1,
      ((shows_iff source samples irq' start' reset' number value').mp given').1]
  led0Same := by
    rw [image_eq]
    intro room room' number value
    rw [blink_shows shipped samples irq start reset room, blink_shows source samples irq' start' reset' room']

/-- Both programs are interrupted again and again, at different times. The 256th
execution shows a bar of seven in both, and the other LED has the same values. -/
theorem image_implements_source_batch :
    Implements image (program source) (fun _ => 0x9C) (every 64 9) (every 100 12) zeroed zeroed ∧
      (∃ first steps first' steps',
        Execution image (fun _ => 0x9C) (every 64 9) zeroed 256 first steps ∧
          Execution (program source) (fun _ => 0x9C) (every 100 12) zeroed 256 first' steps' ∧
          ledPortValues image (fun _ => 0x9C) (every 64 9) zeroed first steps = [0xFE] ∧
          ledPortValues (program source) (fun _ => 0x9C) (every 100 12) zeroed first' steps' = [0xFE]) ∧
      ∀ number value, Shows image (fun _ => 0x9C) (every 64 9) zeroed number value ↔
        Shows (program source) (fun _ => 0x9C) (every 100 12) zeroed number value := by
  have implements := image_implements_source (fun _ => 0x9C) (every 64 9) (every 100 12) zeroed zeroed
    zeroed_reset zeroed_reset
  refine ⟨implements, ?_, ?_⟩
  · obtain ⟨first, steps, execution⟩ :=
      implements.serves.every (every_recurs (by decide)) 256 (by decide)
    obtain ⟨first', steps', execution'⟩ :=
      implements.serves'.every (every_recurs (by decide)) 256 (by decide)
    have bar : ledPortValues (program source) (fun _ => 0x9C) (every 100 12) zeroed first' steps' = [0xFE] := by
      rw [execution_shows source _ _ zeroed zeroed_reset 256 first' steps' execution', shown,
        if_pos (Nat.dvd_refl 256), bar_constant, Option.toList_some]
    have same := implements.ledPort 256 first steps first' steps' execution execution'
    exact ⟨first, steps, first', steps', execution, execution', same.trans bar, bar⟩
  · apply implements.led0Same
    · rw [image_eq]
      exact pauses_leave_room shipped _ _ zeroed zeroed_reset (every_pauses (by decide))
    · exact pauses_leave_room source _ _ zeroed zeroed_reset (every_pauses (by decide))

/-- Without interrupts the image gives the LED a second value; under requests that never
pause the source does not. -/
theorem led_sequences_differ :
    ¬ ∀ number value, Shows image (fun _ => 0) (fun _ => false) zeroed number value ↔
      Shows (program source) (fun _ => 0) (fun _ => true) zeroed number value := by
  intro same
  have blinks := (undisturbed_blinks shipped (fun _ => 0) zeroed zeroed_reset).2
  have given := (shows_iff shipped (fun _ => 0) (fun _ => false) zeroed zeroed_reset 1 0x01).mpr ⟨rfl, blinks 1⟩
  rw [← image_eq, same, shows_iff source (fun _ => 0) (fun _ => true) zeroed zeroed_reset] at given
  obtain ⟨_, count, enough⟩ := given
  rw [starved source (fun _ => 0) zeroed zeroed_reset count] at enough
  exact absurd enough (by decide)

end CpenLabs.MemoryImage
