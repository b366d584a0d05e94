import CpenLabs.MainProgram
import CpenLabs.ServiceRoutine

/-!
# Interrupts leave the main program alone

The service routine of pracPICO.psm fulfils what the main program relies on: it
restores the registers and the flags, keeps its own data in scratch locations that
the main program does not touch, and writes to another port. From the end of the cold
start on, every run with interrupts therefore follows the run without them.

Nothing makes the main program go on. After RETURNI the next request can be taken at
once, and under requests that never pause the main program stands still. What the LED
shows is then the part of its sequence that the main program has come to.
-/

namespace CpenLabs.InterruptTransparency

open Clocked Kcpsm3 PracPico InterruptedRun ServiceRoutine MainProgram

/-- The service routine never writes to the LED of the main program. -/
theorem serviceTrace_unwritten (sample : Byte) (filter : Filter) :
    (serviceTrace sample filter).filterMap (written 6) = [] := by
  have silent : ∀ count, (List.replicate count Event.silent).filterMap (written 6) = [] := by
    intro count
    rw [List.filterMap_replicate]
    rfl
  have other : ∀ value, written 6 (.write ledPort value) = none := fun _ => rfl
  have reads : written 6 (.read dataInPort) = none := rfl
  simp only [serviceTrace]
  split_ifs <;>
    simp only [List.filterMap_append, List.filterMap_cons, silent, other, reads, List.nil_append]

/-- The routine's promises. -/
def routine (constants : Constants) :
    Routine (readFilter constants) (fun sample filter => (Filter.step sample filter).1) 6
      (program constants) where
  trace sample cpu := serviceTrace sample (readFilter constants cpu.scratch)
  after sample cpu := afterService constants sample (interrupt cpu)
  serves sample cpu _ := service_routine constants sample (interrupt cpu) rfl rfl
  agrees _ _ enabled :=
    { pc := rfl, regs := rfl, zero := rfl, carry := rfl, interruptEnable := enabled.symm, stack := rfl }
  viewed _ _ := readFilter_serviced constants _ _ _
  unwritten sample _ := serviceTrace_unwritten sample _

/-- The processor is reset: it starts at the address zero with interrupts disabled.
Registers, flags, scratch memory and stack hold anything. -/
structure AtReset (machine : Machine) : Prop where
  pc : machine.cpu.pc = 0
  interruptEnable : machine.cpu.interruptEnable = false
  begun : machine.begun = 0
  inService : machine.inService = false

section ColdStart

variable (constants : Constants)

theorem coldStart_code :
    program constants 0x00#10 = .load 0 (.constant 0) ∧
      program constants 0x01#10 = .store 0 (.constant 7) ∧
      program constants 0x02#10 = .store 0 (.constant 6) ∧
      program constants 0x03#10 = .store 0 (.constant constants.carryStoredData) ∧
      program constants 0x04#10 = .output 0 (.constant ledPort) ∧
      program constants 0x05#10 = .output 0 (.constant led0) ∧
      program constants 0x06#10 = .interrupt true := by
  and_intros <;> rfl

/-- The processor after the cold start. -/
def started (cpu : Cpu) : Cpu :=
  { cpu with
    pc := 0x07#10
    regs := Function.update cpu.regs 0 0
    scratch := Function.update (Function.update (Function.update cpu.scratch 7 0) 6 0)
      (carryLocation constants) 0
    interruptEnable := true }

/-- The cold start takes seven steps, in which no request is taken. -/
theorem cold_start (samples : Nat → Byte) (irq : Nat → Bool) (start : Machine) (reset : AtReset start) :
    machine (program constants) samples irq start 7 =
      { cpu := started constants start.cpu, begun := 0, inService := false } := by
  obtain ⟨⟨pc, regs, scratch, zero, carry, interruptEnable, zeroSaved, carrySaved, stack⟩, begun, inService⟩ :=
    start
  obtain ⟨rfl, rfl, rfl, rfl⟩ := reset
  simp [step, taken, coldStart_code, exec, Cpu.value, Cpu.location, started, Instruction.returns]

theorem cold_start_undisturbed (samples : Nat → Byte) (start : Machine) (reset : AtReset start) :
    undisturbed (program constants) samples start 7 =
      { cpu := started constants start.cpu, begun := 0, inService := false } :=
  cold_start constants samples _ start reset

/-- Interrupts are disabled during the cold start. -/
theorem cold_start_masked (samples : Nat → Byte) (irq : Nat → Bool) (start : Machine) (reset : AtReset start)
    (cycle : Nat) (early : cycle < 7) :
    (machine (program constants) samples irq start cycle).cpu.interruptEnable = false := by
  obtain ⟨⟨pc, regs, scratch, zero, carry, interruptEnable, zeroSaved, carrySaved, stack⟩, begun, inService⟩ :=
    start
  obtain ⟨rfl, rfl, rfl, rfl⟩ := reset
  interval_cases cycle <;>
    simp [step, taken, coldStart_code, exec, Cpu.value, Cpu.location, Instruction.returns]

/-- The cold start clears the filter. -/
theorem started_filter (cpu : Cpu) :
    readFilter constants (started constants cpu).scratch = { counter := 0, stored := 0, carryStored := 0 } := by
  obtain ⟨_, _, _, _, sixth, seventh⟩ := carryLocation_apart constants
  simp [readFilter, started, sixth, seventh]

end ColdStart

section Runs

variable (constants : Constants) (samples : Nat → Byte) (irq : Nat → Bool) (start : Machine)

/-- The run without interrupts stays in the main program, and no service begins. -/
theorem undisturbed_nested (reset : AtReset start) (count : Nat) :
    Nested start.cpu.stack (undisturbed (program constants) samples start (7 + count)).cpu.pc
        (undisturbed (program constants) samples start (7 + count)).cpu.stack ∧
      (undisturbed (program constants) samples start (7 + count)).cpu.interruptEnable = true ∧
      (undisturbed (program constants) samples start (7 + count)).inService = false := by
  induction count with
  | zero =>
    rw [Nat.add_zero, cold_start_undisturbed constants samples start reset]
    exact ⟨.main rfl, rfl, rfl⟩
  | succ count inductionHypothesis =>
    obtain ⟨nested, enabled, idle⟩ := inductionHypothesis
    obtain ⟨after, next⟩ := undisturbed_step (program constants) samples start (7 + count) idle
    obtain ⟨_, kept, same⟩ := nested_step constants
      (samples (undisturbed (program constants) samples start (7 + count)).begun) _ nested
    rw [← Nat.add_assoc, next]
    exact ⟨kept, same.trans enabled, after⟩

/-- Every run follows the run without interrupts. -/
theorem follows (reset : AtReset start) (cycle : Nat) (ordered : 7 ≤ cycle) :
    Follows (program constants) samples irq start 7 (readFilter constants)
      (fun sample filter => (Filter.step sample filter).1) 6
      { counter := 0, stored := 0, carryStored := 0 } cycle := by
  refine follows_run (routine constants) (fun count => ?_) (fun count => ?_) ?_ cycle ordered
  · exact (undisturbed_nested constants samples start reset count).2.2
  · exact (nested_step constants 0 _ (undisturbed_nested constants samples start reset count).1).1
  · have none : executed (program constants) samples irq start 7 7 = 0 := occurrences_self _ 7
    refine ⟨fun _ => ⟨?_, ?_⟩, fun busy => ?_, ?_⟩
    · rw [none, Nat.add_zero, cold_start constants samples irq start reset,
        cold_start_undisturbed constants samples start reset]
      exact ⟨rfl, rfl, rfl, rfl, rfl, rfl⟩
    · rw [cold_start constants samples irq start reset, started_filter]
      rfl
    · rw [cold_start constants samples irq start reset] at busy
      cases busy
    · rw [none]
      rfl

/-- A service begins after the cold start, and not within another one. -/
theorem taken_idle (reset : AtReset start) (cycle : Nat)
    (request : taken (irq cycle) (machine (program constants) samples irq start cycle) = true) :
    7 ≤ cycle ∧ (machine (program constants) samples irq start cycle).inService = false := by
  have enabled := taken_enabled request
  have late : 7 ≤ cycle := by
    by_contra early
    rw [cold_start_masked constants samples irq start reset cycle (by omega)] at enabled
    cases enabled
  refine ⟨late, ?_⟩
  by_contra busy
  obtain ⟨_, _, _, service, _⟩ :=
    (follows constants samples irq start reset cycle late).serving (Bool.eq_true_of_not_eq_false busy)
  rw [service.masked] at enabled
  cases enabled

/-- Outside services interrupts are enabled, from the end of the cold start on. -/
theorem idle_enabled (reset : AtReset start) (cycle : Nat) (ordered : 7 ≤ cycle)
    (idle : (machine (program constants) samples irq start cycle).inService = false) :
    (machine (program constants) samples irq start cycle).cpu.interruptEnable = true := by
  have agrees := ((follows constants samples irq start reset cycle ordered).idle idle).agrees
  rw [agrees.interruptEnable]
  exact (undisturbed_nested constants samples start reset _).2.1

/-- The next request after the end of a service is taken. -/
theorem next_taken (reset : AtReset start) {cycle later : Nat} (ordered : 7 ≤ cycle)
    (idle : (machine (program constants) samples irq start cycle).inService = false)
    (after : cycle ≤ later) (requested : irq later = true) :
    ∃ first, cycle ≤ first ∧ first ≤ later ∧
      taken (irq first) (machine (program constants) samples irq start first) = true ∧
      (machine (program constants) samples irq start first).begun =
        (machine (program constants) samples irq start cycle).begun := by
  obtain ⟨first, sooner, ⟨low, request⟩, none⟩ :
      ∃ first, first ≤ later ∧ First (fun place => cycle ≤ place ∧ irq place = true) first :=
    exists_first ⟨after, requested⟩
  have quiet : ∀ place, cycle ≤ place → place < first → irq place = false := fun place inside before =>
    Bool.eq_false_of_not_eq_true fun comes => none place before ⟨inside, comes⟩
  obtain ⟨idle', same⟩ := idle_until (program constants) samples irq start low idle quiet
  refine ⟨first, low, sooner, ?_, same⟩
  rw [taken, request, Bool.true_and]
  exact idle_enabled constants samples irq start reset first (ordered.trans low) idle'

/-- The values stored in the LED of the main program after the cold start, up to any
step, are 01, 00, 01, 00, ... -/
def Alternates : Prop :=
  ∀ count, writes (program constants) samples irq start 6 7 count =
    heartbeat (writes (program constants) samples irq start 6 7 count).length

/-- There is no last one. -/
def Endless : Prop :=
  ∀ length, ∃ count, length ≤ (writes (program constants) samples irq start 6 7 count).length

/-- The schedule leaves room for main instructions without an end. -/
def LeavesRoom : Prop :=
  ∀ count, ∃ cycle, 7 ≤ cycle ∧ count ≤ executed (program constants) samples irq start 7 cycle

theorem undisturbed_blinks (reset : AtReset start) :
    Alternates constants samples (fun _ => false) start ∧ Endless constants samples (fun _ => false) start := by
  have cold := cold_start_undisturbed constants samples start reset
  exact undisturbed_heartbeat (by rw [cold]) (by rw [cold, reset.begun]) (by rw [cold]; rfl)

/-- The LED's sequence in any run is an initial part of the one without interrupts. -/
theorem alternates (reset : AtReset start) : Alternates constants samples irq start := by
  intro count
  have same := (follows constants samples irq start reset (7 + count) (by omega)).same
  rw [Nat.add_sub_cancel_left] at same
  rw [same]
  exact (undisturbed_blinks constants samples start reset).1 _

/-- It is the whole of it exactly if the main program goes on. -/
theorem endless_iff (reset : AtReset start) :
    Endless constants samples irq start ↔ LeavesRoom constants samples irq start := by
  constructor
  · intro endless count
    obtain ⟨steps, enough⟩ := endless count
    have same := (follows constants samples irq start reset (7 + steps) (by omega)).same
    rw [Nat.add_sub_cancel_left] at same
    rw [same] at enough
    exact ⟨7 + steps, by omega, Nat.le_trans enough (writes_length ..)⟩
  · intro room length
    obtain ⟨count, enough⟩ := (undisturbed_blinks constants samples start reset).2 length
    obtain ⟨cycle, ordered, passed⟩ := room count
    have same := (follows constants samples irq start reset cycle ordered).same
    obtain ⟨more, total⟩ := Nat.exists_eq_add_of_le passed
    refine ⟨cycle - 7, ?_⟩
    rw [same, total, writes_append, List.length_append]
    omega

/-- The service that never pauses: with a request in every step no main instruction is
executed. -/
theorem starved (reset : AtReset start) (count : Nat) :
    writes (program constants) samples (fun _ => true) start 6 7 count = [] := by
  have never : ∀ cycle, 7 ≤ cycle → ¬ Main (program constants) samples (fun _ => true) start cycle := by
    rintro cycle ordered ⟨idle, untaken⟩
    have enabled := idle_enabled constants samples _ start reset cycle ordered idle
    simp [taken, enabled] at untaken
  have same := (follows constants samples (fun _ => true) start reset (7 + count) (by omega)).same
  have none : executed (program constants) samples (fun _ => true) start 7 (7 + count) = 0 :=
    occurrences_none _ 7 (7 + count) fun cycle low _ => never cycle low
  rw [none, Nat.add_sub_cancel_left] at same
  exact same

end Runs

/-- The processor with everything zero. -/
def zeroed : Machine where
  cpu :=
    { pc := 0, regs := fun _ => 0, scratch := fun _ => 0, zero := false, carry := false
      interruptEnable := false, zeroSaved := false, carrySaved := false, stack := [] }
  begun := 0
  inService := false

theorem zeroed_reset : AtReset zeroed := ⟨rfl, rfl, rfl, rfl⟩

end CpenLabs.InterruptTransparency
