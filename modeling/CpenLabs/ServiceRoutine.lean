import CpenLabs.PracPico

/-!
# The interrupt service routine

From the interrupt vector the routine preserves four registers in the scratch memory,
fetches the bytes of the filter, reads a sample, adds its magnitude to the sum, and
counts it. When the counter has come round to zero it writes a bar for the high byte of
the sum to the LEDs and clears the filter. It then stores the filter, restores the
registers and returns with interrupts enabled.

The listing is executed block by block. Each block lemma says that the execution of the
block leads to that of what follows, for any contents of the registers it does not use,
and `service_routine` puts the blocks together. What the numbers mean as an average is
not claimed here.
-/

namespace CpenLabs.ServiceRoutine

open Kcpsm3 PracPico

/-- The three bytes of the scratch memory that belong to the filter. -/
structure Filter where
  counter : Byte
  stored : Byte
  carryStored : Byte

/-- The magnitude of a sample as the routine computes it. -/
def magnitude (sample : Byte) : Byte := if 0x80#8 ≤ sample then (sample ^^^ 0xff) + 1 else sample

/-- The chain of comparisons that turns the high byte of the sum into a bar. -/
def bar (high : Byte) : Byte :=
  if 0x80#8 ≤ high then 0xff
  else if 0x40#8 ≤ high then 0xfe
  else if 0x20#8 ≤ high then 0xfc
  else if 0x10#8 ≤ high then 0xf8
  else if 0x08#8 ≤ high then 0xf0
  else if 0x04#8 ≤ high then 0xe0
  else if 0x02#8 ≤ high then 0xc0
  else 0x80

/-- A sample is added to the sum, and counted. -/
def Filter.accumulate (sample : Byte) (filter : Filter) : Filter where
  counter := filter.counter + 1#8
  stored := filter.stored + magnitude sample
  carryStored :=
    (alu .addcy filter.carryStored 0 (decide (256 ≤ filter.stored.toNat + (magnitude sample).toNat))).1

/-- One sample: at the end of a batch the bar is written and the filter is cleared. -/
def Filter.step (sample : Byte) (filter : Filter) : Filter × Option Byte :=
  let next := filter.accumulate sample
  if next.counter = 0#8 then ({ counter := 0, stored := 0, carryStored := 0 }, some (bar next.carryStored))
  else (next, none)

section Blocks

variable (constants : Constants) (inPort : Byte)

/-- The scratch location of the high byte. -/
abbrev carryLocation : BitVec 6 := constants.carryStoredData.setWidth 6

/-- The location of the high byte is none of the others. -/
theorem carryLocation_apart :
    0#6 ≠ carryLocation constants ∧ 1#6 ≠ carryLocation constants ∧ 2#6 ≠ carryLocation constants ∧
      3#6 ≠ carryLocation constants ∧ 6#6 ≠ carryLocation constants ∧ 7#6 ≠ carryLocation constants := by
  have apart := constants.apart
  simp only [List.forall_mem_cons] at apart
  obtain ⟨zeroth, first, second, third, sixth, seventh, _⟩ := apart
  exact ⟨zeroth, first, second, third, sixth, seventh⟩

/-- The scratch memory with the registers preserved. -/
def preserve (regs : Register → Byte) (scratch : BitVec 6 → Byte) : BitVec 6 → Byte :=
  Function.update (Function.update (Function.update (Function.update scratch 0 (regs 0)) 1 (regs 1))
    2 (regs 2)) 3 (regs 3)

/-- The listing at the addresses of each block. -/
theorem entry_code :
    program constants 0x3FF#10 = .jump .always 0x26#10 ∧
      program constants 0x26#10 = .store 0 (.constant 0) ∧
      program constants 0x27#10 = .store 1 (.constant 1) ∧
      program constants 0x28#10 = .store 2 (.constant 2) ∧
      program constants 0x29#10 = .store 3 (.constant 3) ∧
      program constants 0x2A#10 = .fetch 0 (.constant 7) ∧
      program constants 0x2B#10 = .fetch 2 (.constant 6) ∧
      program constants 0x2C#10 = .fetch 3 (.constant constants.carryStoredData) ∧
      program constants 0x2D#10 = .input 1 (.constant 0) := by
  and_intros <;> rfl

/-- The magnitude of the sample. -/
theorem magnitude_code :
    program constants 0x2E#10 = .alu .compare 1 (.constant 0x80) ∧
      program constants 0x2F#10 = .jump .nc 0x62#10 ∧
      program constants 0x62#10 = .alu .xor 1 (.constant 0xff) ∧
      program constants 0x63#10 = .alu .add 1 (.constant 1) ∧
      program constants 0x64#10 = .jump .always 0x30#10 := by
  and_intros <;> rfl

/-- The sum and the count. -/
theorem accumulate_code :
    program constants 0x30#10 = .alu .add 2 (.register 1) ∧
      program constants 0x31#10 = .alu .addcy 3 (.constant 0) ∧
      program constants 0x32#10 = .alu .add 0 (.constant 1) ∧
      program constants 0x33#10 = .alu .compare 0 (.constant 0) ∧
      program constants 0x34#10 = .jump .z 0x36#10 ∧
      program constants 0x35#10 = .jump .always 0x4A#10 := by
  and_intros <;> rfl

/-- The chain of comparisons. -/
theorem bar_code :
    program constants 0x36#10 = .alu .compare 3 (.constant 0x80) ∧
      program constants 0x37#10 = .jump .nc 0x52#10 ∧
      program constants 0x38#10 = .alu .compare 3 (.constant 0x40) ∧
      program constants 0x39#10 = .jump .nc 0x54#10 ∧
      program constants 0x3A#10 = .alu .compare 3 (.constant 0x20) ∧
      program constants 0x3B#10 = .jump .nc 0x56#10 ∧
      program constants 0x3C#10 = .alu .compare 3 (.constant 0x10) ∧
      program constants 0x3D#10 = .jump .nc 0x58#10 ∧
      program constants 0x3E#10 = .alu .compare 3 (.constant 0x08) ∧
      program constants 0x3F#10 = .jump .nc 0x5A#10 ∧
      program constants 0x40#10 = .alu .compare 3 (.constant 0x04) ∧
      program constants 0x41#10 = .jump .nc 0x5C#10 ∧
      program constants 0x42#10 = .alu .compare 3 (.constant 0x02) ∧
      program constants 0x43#10 = .jump .nc 0x5E#10 ∧
      program constants 0x44#10 = .jump .always 0x60#10 := by
  and_intros <;> rfl

/-- The bars that it leads to. -/
theorem loadBar_code :
    program constants 0x52#10 = .load 3 (.constant 0xff) ∧ program constants 0x53#10 = .jump .always 0x45#10 ∧
      program constants 0x54#10 = .load 3 (.constant 0xfe) ∧ program constants 0x55#10 = .jump .always 0x45#10 ∧
      program constants 0x56#10 = .load 3 (.constant 0xfc) ∧ program constants 0x57#10 = .jump .always 0x45#10 ∧
      program constants 0x58#10 = .load 3 (.constant 0xf8) ∧ program constants 0x59#10 = .jump .always 0x45#10 ∧
      program constants 0x5A#10 = .load 3 (.constant 0xf0) ∧ program constants 0x5B#10 = .jump .always 0x45#10 ∧
      program constants 0x5C#10 = .load 3 (.constant 0xe0) ∧ program constants 0x5D#10 = .jump .always 0x45#10 ∧
      program constants 0x5E#10 = .load 3 (.constant 0xc0) ∧ program constants 0x5F#10 = .jump .always 0x45#10 ∧
      program constants 0x60#10 = .load 3 (.constant 0x80) ∧ program constants 0x61#10 = .jump .always 0x45#10 := by
  and_intros <;> rfl

/-- The output of the bar, and the filter cleared. -/
theorem clear_code :
    program constants 0x45#10 = .output 3 (.constant 0x80) ∧
      program constants 0x46#10 = .load 0 (.constant 0) ∧
      program constants 0x47#10 = .load 1 (.constant 0) ∧
      program constants 0x48#10 = .load 2 (.constant 0) ∧
      program constants 0x49#10 = .load 3 (.constant 0) := by
  and_intros <;> rfl

/-- The filter stored, and the registers restored. -/
theorem return_code :
    program constants 0x4A#10 = .store 0 (.constant 7) ∧
      program constants 0x4B#10 = .store 2 (.constant 6) ∧
      program constants 0x4C#10 = .store 3 (.constant constants.carryStoredData) ∧
      program constants 0x4D#10 = .fetch 0 (.constant 0) ∧
      program constants 0x4E#10 = .fetch 1 (.constant 1) ∧
      program constants 0x4F#10 = .fetch 2 (.constant 2) ∧
      program constants 0x50#10 = .fetch 3 (.constant 3) ∧
      program constants 0x51#10 = .returni true := by
  and_intros <;> rfl

variable {constants inPort} {regs : Register → Byte} {scratch : BitVec 6 → Byte} {zero carry : Bool}
  {zeroSaved carrySaved : Bool} {stack : List Address} {trace : List Event} {last : Cpu}

/-- From the vector up to the sample, which the routine reads behind the preserved
registers. -/
theorem entry
    (rest : Service (program constants) inPort
      { pc := 0x2E#10
        regs := Function.update (Function.update (Function.update (Function.update regs
          0 (scratch 7#6)) 2 (scratch 6#6)) 3 (scratch (carryLocation constants))) 1 inPort
        scratch := preserve regs scratch
        zero, carry, interruptEnable := false, zeroSaved, carrySaved, stack } trace last) :
    Service (program constants) inPort
      { pc := 0x3FF#10, regs, scratch, zero, carry, interruptEnable := false, zeroSaved, carrySaved, stack }
      (List.replicate 8 .silent ++ .read 0 :: trace) last := by
  obtain ⟨zeroth, first, second, third, _⟩ := carryLocation_apart constants
  simpa [List.replicate_succ, Service.step_iff, entry_code, exec, event, Cpu.value, Cpu.location, Cpu.meets,
    Instruction.returns, preserve, zeroth.symm, first.symm, second.symm, third.symm] using rest

/-- The instructions that the magnitude takes: negative samples take a detour. -/
def magnitudeSteps (sample : Byte) : Nat := if 0x80#8 ≤ sample then 5 else 2

/-- The sample is replaced by its magnitude. -/
theorem block_magnitude
    (rest : ∀ zero carry, Service (program constants) inPort
      { pc := 0x30#10
        regs := Function.update regs 1 (magnitude (regs 1))
        scratch, zero, carry, interruptEnable := false, zeroSaved, carrySaved, stack } trace last) :
    Service (program constants) inPort
      { pc := 0x2E#10, regs, scratch, zero, carry, interruptEnable := false, zeroSaved, carrySaved, stack }
      (List.replicate (magnitudeSteps (regs 1)) .silent ++ trace) last := by
  unfold magnitudeSteps
  unfold magnitude at rest
  split_ifs at rest ⊢ with negative
  · simpa [List.replicate_succ, Service.step_iff, magnitude_code, exec, event, Cpu.value, Cpu.meets,
      Instruction.returns, Operation.writesBack, negative] using rest _ _
  · rw [Function.update_eq_self] at rest
    simpa [List.replicate_succ, Service.step_iff, magnitude_code, exec, event, Cpu.value, Cpu.meets,
      Instruction.returns, Operation.writesBack, negative] using rest _ _

/-- The sum is added and the sample is counted; a counter that has come back to zero
ends the batch. -/
theorem block_accumulate (filter : Filter) (counter : regs 0 = filter.counter)
    (stored : regs 2 = filter.stored) (carryStored : regs 3 = filter.carryStored)
    (added : regs 1 = magnitude inPort)
    (rest : ∀ zero carry, Service (program constants) inPort
      { pc := if (filter.accumulate inPort).counter = 0#8 then 0x36#10 else 0x4A#10
        regs := Function.update (Function.update (Function.update regs
          2 (filter.accumulate inPort).stored) 3 (filter.accumulate inPort).carryStored)
          0 (filter.accumulate inPort).counter
        scratch, zero, carry, interruptEnable := false, zeroSaved, carrySaved, stack } trace last) :
    Service (program constants) inPort
      { pc := 0x30#10, regs, scratch, zero, carry, interruptEnable := false, zeroSaved, carrySaved, stack }
      (List.replicate (if (filter.accumulate inPort).counter = 0#8 then 5 else 6) .silent ++ trace) last := by
  simp only [Filter.accumulate] at rest ⊢
  split_ifs at rest ⊢ with complete <;>
    simpa [List.replicate_succ, Service.step_iff, accumulate_code, exec, event, Cpu.value, Cpu.meets,
      Instruction.returns, Operation.writesBack, counter, stored, carryStored, added, complete] using rest _ _

/-- The instructions that the chain of comparisons takes, with the load of the bar. -/
def barSteps (high : Byte) : Nat :=
  if 0x80#8 ≤ high then 4
  else if 0x40#8 ≤ high then 6
  else if 0x20#8 ≤ high then 8
  else if 0x10#8 ≤ high then 10
  else if 0x08#8 ≤ high then 12
  else if 0x04#8 ≤ high then 14
  else if 0x02#8 ≤ high then 16
  else 17

/-- The high byte of the sum is replaced by its bar. -/
theorem block_bar
    (rest : ∀ zero carry, Service (program constants) inPort
      { pc := 0x45#10
        regs := Function.update regs 3 (bar (regs 3))
        scratch, zero, carry, interruptEnable := false, zeroSaved, carrySaved, stack } trace last) :
    Service (program constants) inPort
      { pc := 0x36#10, regs, scratch, zero, carry, interruptEnable := false, zeroSaved, carrySaved, stack }
      (List.replicate (barSteps (regs 3)) .silent ++ trace) last := by
  unfold bar at rest
  unfold barSteps
  split_ifs at rest ⊢ <;>
    simpa [List.replicate_succ, Service.step_iff, bar_code, loadBar_code, exec, event, Cpu.value, Cpu.meets,
      Instruction.returns, Operation.writesBack, *] using rest _ _

/-- The bar is written, and the four registers are cleared. -/
theorem block_clear
    (rest : Service (program constants) inPort
      { pc := 0x4A#10
        regs := Function.update (Function.update (Function.update (Function.update regs 0 0) 1 0) 2 0) 3 0
        scratch, zero, carry, interruptEnable := false, zeroSaved, carrySaved, stack } trace last) :
    Service (program constants) inPort
      { pc := 0x45#10, regs, scratch, zero, carry, interruptEnable := false, zeroSaved, carrySaved, stack }
      (.write 0x80 (regs 3) :: (List.replicate 4 .silent ++ trace)) last := by
  simpa [List.replicate_succ, Service.step_iff, clear_code, exec, event, Cpu.value, Cpu.meets,
    Instruction.returns, Operation.writesBack] using rest

/-- The filter is stored, and the four registers are fetched. -/
theorem block_return :
    Service (program constants) inPort
      { pc := 0x4A#10, regs, scratch, zero, carry, interruptEnable := false, zeroSaved, carrySaved, stack }
      (List.replicate 8 .silent)
      { pc := stack.headD 0
        regs := Function.update (Function.update (Function.update (Function.update regs
          0 (scratch 0)) 1 (scratch 1)) 2 (scratch 2)) 3 (scratch 3)
        scratch := Function.update (Function.update (Function.update scratch 7 (regs 0)) 6 (regs 2))
          (carryLocation constants) (regs 3)
        zero := zeroSaved, carry := carrySaved, interruptEnable := true, zeroSaved, carrySaved
        stack := stack.tail } := by
  obtain ⟨zeroth, first, second, third, _⟩ := carryLocation_apart constants
  simp [List.replicate_succ, Service.step_iff, Service.last_iff, return_code, exec, event, Cpu.value,
    Cpu.location, Instruction.returns, zeroth, first, second, third]

/-- Fetching the preserved registers restores them all, whatever the routine has done
to the four it uses. -/
theorem restored (used : Register → Byte)
    (others : ∀ x, x ≠ 0 → x ≠ 1 → x ≠ 2 → x ≠ 3 → used x = regs x) :
    Function.update (Function.update (Function.update (Function.update used
      0 (preserve regs scratch 0)) 1 (preserve regs scratch 1)) 2 (preserve regs scratch 2))
      3 (preserve regs scratch 3) = regs := by
  funext x
  simp only [preserve, Function.update_apply]
  split_ifs <;> simp_all

/-- The scratch memory that a service leaves behind. -/
def serviced (constants : Constants) (regs : Register → Byte) (scratch : BitVec 6 → Byte)
    (filter : Filter) : BitVec 6 → Byte :=
  Function.update (Function.update (Function.update (preserve regs scratch) 7 filter.counter)
    6 filter.stored) (carryLocation constants) filter.carryStored

/-- From the end of the routine, with any contents of the four registers, to the
return. -/
theorem block_restore (used : Register → Byte)
    (others : ∀ x, x ≠ 0 → x ≠ 1 → x ≠ 2 → x ≠ 3 → used x = regs x) :
    Service (program constants) inPort
      { pc := 0x4A#10, regs := used, scratch := preserve regs scratch, zero, carry
        interruptEnable := false, zeroSaved, carrySaved, stack }
      (List.replicate 8 .silent)
      { pc := stack.headD 0, regs
        scratch := serviced constants regs scratch ⟨used 0, used 2, used 3⟩
        zero := zeroSaved, carry := carrySaved, interruptEnable := true, zeroSaved, carrySaved
        stack := stack.tail } := by
  have returned := @block_return constants inPort used (preserve regs scratch) zero carry zeroSaved carrySaved
    stack
  rwa [restored used others] at returned

end Blocks

section Routine

variable (constants : Constants) (inPort : Byte)

/-- The filter's bytes in the scratch memory. -/
def readFilter (scratch : BitVec 6 → Byte) : Filter where
  counter := scratch 7
  stored := scratch 6
  carryStored := scratch (carryLocation constants)

/-- It holds the filter. -/
@[simp] theorem readFilter_serviced (regs : Register → Byte) (scratch : BitVec 6 → Byte) (filter : Filter) :
    readFilter constants (serviced constants regs scratch filter) = filter := by
  obtain ⟨_, _, _, _, sixth, seventh⟩ := carryLocation_apart constants
  simp [readFilter, serviced, sixth, seventh]

/-- The port accesses of a service. INPUT is its ninth instruction; the bar, at the
end of a batch, is written thirteen instructions before the end. -/
def serviceTrace (filter : Filter) : List Event :=
  let next := filter.accumulate inPort
  List.replicate 8 .silent ++ .read dataInPort ::
    (List.replicate (magnitudeSteps inPort) .silent ++
      (List.replicate (if next.counter = 0#8 then 5 else 6) .silent ++
        if next.counter = 0#8 then
          List.replicate (barSteps next.carryStored) .silent ++
            .write ledPort (bar next.carryStored) :: (List.replicate 4 .silent ++ List.replicate 8 .silent)
        else List.replicate 8 .silent))

/-- What the service leaves of the processor: everything as before the interrupt but
the scratch memory, with interrupts enabled again. -/
def afterService (cpu : Cpu) : Cpu where
  pc := cpu.stack.headD 0
  regs := cpu.regs
  scratch := serviced constants cpu.regs cpu.scratch
    (Filter.step inPort (readFilter constants cpu.scratch)).1
  zero := cpu.zeroSaved
  carry := cpu.carrySaved
  interruptEnable := true
  zeroSaved := cpu.zeroSaved
  carrySaved := cpu.carrySaved
  stack := cpu.stack.tail

/-- From the interrupt vector the routine comes to its RETURNI on every path. -/
theorem service_routine (cpu : Cpu) (vector : cpu.pc = interruptVector)
    (masked : cpu.interruptEnable = false) :
    Service (program constants) inPort cpu (serviceTrace inPort (readFilter constants cpu.scratch))
      (afterService constants inPort cpu) := by
  obtain ⟨pc, regs, scratch, zero, carry, interruptEnable, zeroSaved, carrySaved, stack⟩ := cpu
  obtain rfl : pc = 0x3FF#10 := vector
  obtain rfl : interruptEnable = false := masked
  apply entry
  apply block_magnitude
  intro zero carry
  apply block_accumulate (readFilter constants scratch)
  · rfl
  · rfl
  · rfl
  · rfl
  intro zero carry
  simp only [afterService, Filter.step]
  split_ifs with complete
  · apply block_bar
    intro zero carry
    apply block_clear
    apply block_restore
    intro x notZero notOne notTwo notThree
    simp [notZero, notOne, notTwo, notThree]
  · apply block_restore
    intro x notZero notOne notTwo notThree
    simp [notZero, notOne, notTwo, notThree]

/-- After INPUT the service routine takes from 16 to 40 instructions, none of which
reads a port. -/
theorem serviceTrace_rest (filter : Filter) :
    ∃ rest, serviceTrace inPort filter = List.replicate 8 .silent ++ .read dataInPort :: rest ∧
      (∀ access ∈ rest, access.reads = false) ∧ 16 ≤ rest.length ∧ rest.length ≤ 40 := by
  have detour : 2 ≤ magnitudeSteps inPort ∧ magnitudeSteps inPort ≤ 5 := by
    unfold magnitudeSteps
    split_ifs <;> omega
  have chain : ∀ high, 4 ≤ barSteps high ∧ barSteps high ≤ 17 := by
    intro high
    unfold barSteps
    split_ifs <;> omega
  have chained := chain (filter.accumulate inPort).carryStored
  have silent : ∀ count, ∀ access ∈ List.replicate count Event.silent, access.reads = false := by
    intro count access inside
    rw [List.eq_of_mem_replicate inside]
    rfl
  refine ⟨_, rfl, ?_, ?_⟩
  · intro access inside
    simp only [List.mem_append] at inside
    split_ifs at inside
    · simp only [List.mem_append, List.mem_cons] at inside
      obtain early | early | early | rfl | early | early := inside
      · exact silent _ _ early
      · exact silent _ _ early
      · exact silent _ _ early
      · rfl
      · exact silent _ _ early
      · exact silent _ _ early
    · obtain early | early | early := inside
      · exact silent _ _ early
      · exact silent _ _ early
      · exact silent _ _ early
  · split_ifs <;> simp only [List.length_append, List.length_cons, List.length_replicate] <;> omega

/-- A service takes at most 49 instructions. -/
theorem serviceTrace_length (filter : Filter) : (serviceTrace inPort filter).length ≤ 49 := by
  obtain ⟨rest, trace, _, _, bound⟩ := serviceTrace_rest inPort filter
  rw [trace, List.length_append, List.length_replicate, List.length_cons]
  omega

/-- A service reads the data port once, and no other port. -/
theorem serviceTrace_reads (filter : Filter) :
    (serviceTrace inPort filter).filter Event.reads = [.read dataInPort] := by
  obtain ⟨rest, trace, unread, _⟩ := serviceTrace_rest inPort filter
  have later : rest.filter Event.reads = [] :=
    List.filter_eq_nil_iff.mpr fun access inside => ne_true_of_eq_false (unread access inside)
  have early : (List.replicate 8 Event.silent).filter Event.reads = [] := rfl
  rw [trace, List.filter_append, early, List.nil_append, List.filter_cons_of_pos rfl, later]

end Routine

end CpenLabs.ServiceRoutine
