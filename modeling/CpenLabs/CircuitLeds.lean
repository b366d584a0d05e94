import CpenLabs.PracPicoCircuit

/-!
# What the LEDs of the circuit show

The registers of `picoblaze_template` execute PRACPICO.MEM, so what has been proved of
the program is true of the circuit: after every 256 bytes that it has read, the LED
register takes over the bar of their average, and it holds it until the next 256 bytes
have been read. The bytes are those in the input register when the read strobe is set.

The runs with interrupts number the samples by the services. Requests and read strobes
come in turn, since the service routine reads once, so the services are numbered as the
bytes are.
-/

namespace CpenLabs.CircuitLeds

open Clocked Kcpsm3 PracPico MainProgram MemoryImage InterruptedRun InterruptTransparency AveragingFilter
open ServiceRoutine Pacoblaze PacoblazeRefinement PracPicoCircuit

section Program

variable (constants : Constants) (samples : Nat → Byte) (irq : Nat → Bool) (start : Machine)

/-- A value that may be missing, and the one it takes the place of. -/
theorem toList_getLastD (value : Option Byte) (default : Byte) :
    value.toList.getLastD default = value.getD default := by
  cases value <;> rfl

/-- What the LEDs show after some services: what the last one has shown that showed
anything, and else zero. -/
def lastShown : Nat → Byte
  | 0 => 0x00
  | begun + 1 => (shown samples (begun + 1)).getD (lastShown begun)

/-- That is the bar of the last whole batch. -/
theorem lastShown_eq (begun : Nat) :
    lastShown samples begun =
      if begun < 256 then 0x00
      else leadingOnes (max 1 (average samples (begun - begun % 256)).size) := by
  induction begun with
  | zero => rfl
  | succ begun inductionHypothesis =>
    rw [lastShown, shown]
    by_cases complete : 256 ∣ begun + 1
    · have rest : (begun + 1) % 256 = 0 := Nat.mod_eq_zero_of_dvd complete
      have whole : ¬ begun + 1 < 256 := Nat.not_lt.mpr (Nat.le_of_dvd (Nat.succ_pos begun) complete)
      rw [if_pos complete, if_neg whole, rest, Nat.sub_zero, Option.getD_some]
    · have same : begun + 1 - (begun + 1) % 256 = begun - begun % 256 := by omega
      have bounds : begun + 1 < 256 ↔ begun < 256 := by omega
      rw [if_neg complete, Option.getD_none, inductionHypothesis, same]
      simp only [bounds]

/-- The LED register after some steps. -/
def ledAfter (initial : Byte) (cycle : Nat) : Byte :=
  (writes (program constants) samples irq start 7 0 cycle).getLastD initial

/-- A step stores its value, if it has one. -/
theorem ledAfter_succ (initial : Byte) (cycle : Nat) :
    ledAfter constants samples irq start initial (cycle + 1) =
      (written 7 (observed (program constants) (irq cycle)
        (machine (program constants) samples irq start cycle))).getD
          (ledAfter constants samples irq start initial cycle) := by
  rw [ledAfter, ledAfter, writes_append, Nat.zero_add, writes_one]
  cases written 7 (observed (program constants) (irq cycle)
    (machine (program constants) samples irq start cycle)) with
  | none => rw [Option.toList_none, List.append_nil, Option.getD_none]
  | some value => rw [Option.toList_some, List.getLastD_concat, Option.getD_some]

/-- The main program writes the other LED. -/
theorem main_unwritten (cpu : Cpu) (inside : (level cpu.pc).isSome = true) :
    written 7 (event (program constants cpu.pc) cpu) = none := by
  obtain ⟨low, high⟩ := level_bounds cpu.pc inside
  rw [show cpu.pc = BitVec.ofNat 10 cpu.pc.toNat by rw [BitVec.ofNat_toNat, BitVec.setWidth_eq]]
  interval_cases cpu.pc.toNat <;> first | rfl | exact if_neg (show ¬ led0.getLsbD 7 = true by decide)

/-- The LED register between services, and at the end of the service that is running. -/
structure Showing (initial : Byte) (cycle : Nat) : Prop where
  idle : (machine (program constants) samples irq start cycle).inService = false →
    ledAfter constants samples irq start initial cycle =
      lastShown samples (machine (program constants) samples irq start cycle).begun
  serving : (machine (program constants) samples irq start cycle).inService = true →
    ∃ trace last,
      Service (program constants) (samples (machine (program constants) samples irq start cycle).begun)
          (machine (program constants) samples irq start cycle).cpu trace last ∧
        (trace.filterMap (written 7)).getLastD (ledAfter constants samples irq start initial cycle) =
          lastShown samples (machine (program constants) samples irq start cycle).begun

/-- The cold start clears the LED register. -/
theorem ledAfter_coldStart (initial : Byte) (reset : AtReset start) :
    ledAfter constants samples irq start initial 7 = 0x00 := by
  obtain ⟨⟨pc, regs, scratch, zero, carry, interruptEnable, zeroSaved, carrySaved, stack⟩, begun,
    inService⟩ :=
    start
  obtain ⟨rfl, rfl, rfl, rfl⟩ := reset
  simp [ledAfter, writes, events, observed, written, event, step, taken, coldStart_code, exec, Cpu.value,
    Cpu.location, Instruction.returns, List.range', ledPort, led0]
  rfl

variable {constants samples irq start} {initial : Byte} {cycle : Nat}

/-- A step of a service brings its end nearer. -/
theorem showing_serving
    (inService : (machine (program constants) samples irq start cycle).inService = true)
    (showing : Showing constants samples irq start initial cycle) :
    Showing constants samples irq start initial (cycle + 1) := by
  obtain ⟨trace, last, service, shows⟩ := showing.serving inService
  have untaken := @taken_masked (irq cycle) _ service.masked
  have advance := machine_untaken (program constants) samples irq start cycle untaken
  have stored := ledAfter_succ constants samples irq start initial cycle
  rw [inService, Bool.true_and] at advance
  rw [observed_untaken (program constants) samples irq start cycle untaken] at stored
  have moved : ∀ rest : List Event,
      (rest.filterMap (written 7)).getLastD (ledAfter constants samples irq start initial (cycle + 1)) =
        ((event (program constants (machine (program constants) samples irq start cycle).cpu.pc)
          (machine (program constants) samples irq start cycle).cpu :: rest).filterMap
            (written 7)).getLastD
            (ledAfter constants samples irq start initial cycle) := by
    intro rest
    rw [stored, List.filterMap_cons]
    cases written 7
        (event (program constants (machine (program constants) samples irq start cycle).cpu.pc)
          (machine (program constants) samples irq start cycle).cpu) with
    | none => rw [Option.getD_none]
    | some value => rw [Option.getD_some, List.getLastD_cons]
  cases service with
  | returni _ _ returning =>
    refine ⟨fun _ => ?_, fun busy => ?_⟩
    · rw [advance, ← shows, ← moved []]
      rfl
    · rw [advance] at busy
      simp [returning] at busy
  | step _ continuing rest =>
    refine ⟨fun ended => ?_, fun _ => ?_⟩
    · rw [advance] at ended
      simp [continuing] at ended
    · rw [advance]
      exact ⟨_, last, rest, (moved _).trans shows⟩

/-- A request that is taken begins a service, which shows what the filter does. -/
theorem showing_request (reset : AtReset start)
    (request : taken (irq cycle) (machine (program constants) samples irq start cycle) = true)
    (showing : Showing constants samples irq start initial cycle) :
    Showing constants samples irq start initial (cycle + 1) := by
  obtain ⟨late, idle⟩ := taken_idle constants samples irq start reset cycle request
  have viewed := ((follows constants samples irq start reset cycle late).idle idle).viewed
  have exact := effects_exact samples (machine (program constants) samples irq start cycle).begun
  rw [← viewed] at exact
  obtain ⟨_, led⟩ := step_exact samples _ _ exact
  have advance := machine_taken (program constants) samples irq start cycle request
  have stored := ledAfter_succ constants samples irq start initial cycle
  rw [observed, if_pos request, show written 7 .silent = none from rfl, Option.getD_none] at stored
  refine ⟨fun ended => ?_, fun _ => ?_⟩
  · rw [advance] at ended
    cases ended
  · rw [advance]
    refine ⟨_, _, service_routine constants _ _ rfl rfl, ?_⟩
    rw [serviceTrace_written, stored, showing.idle idle, lastShown, ← led]
    exact toList_getLastD _ _

/-- The main program leaves the LED register alone. -/
theorem showing_main (reset : AtReset start) (late : 7 ≤ cycle)
    (idle : (machine (program constants) samples irq start cycle).inService = false)
    (untaken : taken (irq cycle) (machine (program constants) samples irq start cycle) = false)
    (showing : Showing constants samples irq start initial cycle) :
    Showing constants samples irq start initial (cycle + 1) := by
  have agrees := ((follows constants samples irq start reset cycle late).idle idle).agrees
  have nested := (undisturbed_nested constants samples start reset
    (executed (program constants) samples irq start 7 cycle)).1
  rw [← agrees.pc] at nested
  obtain ⟨depth, here⟩ := nested.inside
  have advance := machine_untaken (program constants) samples irq start cycle untaken
  have stored := ledAfter_succ constants samples irq start initial cycle
  rw [observed_untaken (program constants) samples irq start cycle untaken,
    main_unwritten constants _ (by rw [here]; rfl), Option.getD_none] at stored
  rw [idle, Bool.false_and] at advance
  refine ⟨fun _ => ?_, fun busy => ?_⟩
  · rw [stored, showing.idle idle, advance]
  · rw [advance] at busy
    cases busy

/-- After the cold start the LED register shows the last whole batch of samples whenever no
service is running. -/
theorem showing_run (reset : AtReset start) (late : 7 ≤ cycle) :
    Showing constants samples irq start initial cycle := by
  induction cycle, late using Nat.le_induction with
  | base =>
    have started := cold_start constants samples irq start reset
    refine ⟨fun _ => ?_, fun busy => ?_⟩
    · rw [ledAfter_coldStart constants samples irq start initial reset, started]
      rfl
    · rw [started] at busy
      cases busy
  | succ cycle late showing =>
    cases inService : (machine (program constants) samples irq start cycle).inService with
    | true => exact showing_serving inService showing
    | false =>
      cases request : taken (irq cycle) (machine (program constants) samples irq start cycle) with
      | true => exact showing_request reset request showing
      | false => exact showing_main reset late inService request showing

end Program

section Instructions

variable (inputs : Nat → PracPicoCircuit.Input) (start : Circuit)

/-- The processor of the circuit before an instruction. -/
def processorAt (count : Nat) : Processor where
  cpu := (coarseRun inputs start (2 * count)).cpu
  pending := (coarseRun inputs start (2 * count)).interruptLatch

/-- An interrupt takes the place of the instruction. -/
def Interrupted (count : Nat) : Prop := (processorAt inputs start count).pending = true

/-- The instruction is INPUT. -/
def Reads (count : Nat) : Prop :=
  (processorAt inputs start count).pending = false ∧
    (event (program shipped (processorAt inputs start count).cpu.pc)
      (processorAt inputs start count).cpu).reads = true

instance : DecidablePred (Interrupted inputs start) := fun _ => instDecidableEqBool _ _

instance : DecidablePred (Reads inputs start) := fun _ => instDecidableAnd

/-- The service routine has been entered and has not read. -/
def waits (count : Nat) : Bool := beforeInput (processorAt inputs start count).cpu.pc

variable {inputs start} (powerUp : start.PowerUp)

include powerUp

/-- The processor is where the program puts it. -/
theorem placed (count : Nat) : Placed (processorAt inputs start count) :=
  (coarse_placed inputs start powerUp count).2

/-- The next instruction, with the input register as its second cycle finds it. -/
theorem processorAt_succ (count : Nat) :
    processorAt inputs start (count + 1) =
      (processorAt inputs start count).step outdata
        (surroundings (circuit inputs start (2 * count)).pins
          (circuit inputs start (2 * count + 1)).pins) :=
  ((coarse_placed inputs start powerUp count).1.coarse_step _ _).symm

/-- An interrupt takes the place of the instruction. -/
theorem processorAt_interrupted {count : Nat} (interrupted : Interrupted inputs start count) :
    processorAt inputs start (count + 1) =
      { cpu := interrupt (processorAt inputs start count).cpu, pending := false } := by
  rw [Interrupted] at interrupted
  rw [processorAt_succ powerUp, step_program code_outdata, if_pos interrupted]

/-- Otherwise the instruction of the source is executed. -/
theorem processorAt_executed {count : Nat} (executed : ¬ Interrupted inputs start count) :
    (processorAt inputs start (count + 1)).cpu =
      exec (program shipped (processorAt inputs start count).cpu.pc)
        (circuit inputs start (2 * count + 1)).inPort
        (processorAt inputs start count).cpu := by
  rw [Interrupted] at executed
  rw [processorAt_succ powerUp, step_program code_outdata, if_neg executed]
  rfl

omit powerUp in
/-- Neither the cold start nor the main program is a part of the service routine. -/
theorem early_notBefore {pc : Address} (early : pc.toNat < 7) : beforeInput pc = false := by
  rw [show pc = BitVec.ofNat 10 pc.toNat by rw [BitVec.ofNat_toNat, BitVec.setWidth_eq]]
  interval_cases pc.toNat <;> rfl

omit powerUp in
/-- The main program is not the first part of the service routine. -/
theorem level_notBefore {pc : Address} {depth : Nat} (here : level pc = some depth) :
    beforeInput pc = false := by
  obtain ⟨low, high⟩ := level_bounds pc (by rw [here]; rfl)
  rw [show pc = BitVec.ofNat 10 pc.toNat by rw [BitVec.ofNat_toNat, BitVec.setWidth_eq]]
  interval_cases pc.toNat <;> rfl

omit powerUp in
/-- Nor is the second part. -/
theorem afterInput_notBefore {pc : Address} (after : afterInput pc = true) : beforeInput pc = false := by
  simp only [afterInput, Bool.and_eq_true, decide_eq_true_eq] at after
  rw [show pc = BitVec.ofNat 10 pc.toNat by rw [BitVec.ofNat_toNat, BitVec.setWidth_eq]]
  obtain ⟨low, high⟩ : 0x2E ≤ pc.toNat ∧ pc.toNat ≤ 0x64 := after
  interval_cases pc.toNat <;> rfl

omit powerUp in
/-- The cold start reads no port. -/
theorem coldStart_unread (cpu : Cpu) (early : cpu.pc.toNat < 7) :
    (event (program shipped cpu.pc) cpu).reads = false := by
  have here : cpu.pc = BitVec.ofNat 10 cpu.pc.toNat := by rw [BitVec.ofNat_toNat, BitVec.setWidth_eq]
  rw [here]
  interval_cases cpu.pc.toNat <;> rfl

/-- An instruction that is executed moves on to the second part of the routine if it reads,
and else neither enters the first part nor leaves it. -/
theorem waits_executed {count : Nat} (executed : ¬ Interrupted inputs start count) :
    (Reads inputs start count →
      waits inputs start count = true ∧ waits inputs start (count + 1) = false) ∧
      (¬ Reads inputs start count → waits inputs start (count + 1) = waits inputs start count) := by
  have pending : (processorAt inputs start count).pending = false := Bool.eq_false_of_not_eq_true executed
  have next := processorAt_executed powerUp executed
  simp only [waits, Reads, pending, true_and]
  rw [next]
  generalize (circuit inputs start (2 * count + 1)).inPort = inPort
  cases placed powerUp count with
  | coldStart early empty masked =>
    have unread := coldStart_unread _ early
    refine ⟨fun reads => absurd reads (by rw [unread]; exact Bool.false_ne_true), fun _ => ?_⟩
    rw [early_notBefore early]
    obtain ⟨still, _⟩ | ⟨nested, _⟩ := coldStart_step shipped inPort _ early empty masked
    · exact early_notBefore still
    · obtain ⟨_, here⟩ := nested.inside
      exact level_notBefore here
  | main nested =>
    obtain ⟨isPlain, onward, _⟩ := nested_step shipped inPort _ nested
    have unread := plain_unread _ isPlain (processorAt inputs start count).cpu
    refine ⟨fun reads => absurd reads (by rw [unread]; exact Bool.false_ne_true), fun _ => ?_⟩
    obtain ⟨_, here⟩ := nested.inside
    obtain ⟨_, next⟩ := onward.inside
    rw [level_notBefore here, level_notBefore next]
  | service inside called nested =>
    obtain before | after := inside
    · obtain ⟨moves, _⟩ := beforeInput_step shipped inPort _ before
      constructor
      · intro reads
        rw [if_pos reads] at moves
        exact ⟨before, afterInput_notBefore moves⟩
      · intro unread
        rw [if_neg unread] at moves
        rw [moves, before]
    · obtain ⟨unread, moves⟩ := afterInput_step shipped inPort _ after
      refine ⟨fun reads => absurd reads (by rw [unread]; exact Bool.false_ne_true), fun _ => ?_⟩
      rw [afterInput_notBefore after]
      obtain ⟨still, _⟩ | ⟨back, _⟩ := moves
      · exact afterInput_notBefore still
      · obtain ⟨_, here⟩ := nested.inside
        rw [back, called, List.headD_cons]
        exact level_notBefore here

/-- Interrupts and reads come in turn. -/
theorem alternates_reads :
    Clocked.Alternates (Interrupted inputs start) (Reads inputs start) (waits inputs start) where
  rises count interrupted := by
    obtain ⟨nested, _⟩ := (placed powerUp count).pending interrupted
    obtain ⟨_, here⟩ := nested.inside
    rw [waits, waits, processorAt_interrupted powerUp interrupted]
    exact ⟨level_notBefore here, rfl⟩
  falls count reads :=
    (waits_executed powerUp fun interrupted => Bool.noConfusion (interrupted.symm.trans reads.1)).1 reads
  keeps _ executed unread := (waits_executed powerUp executed).2 unread

/-- The number of services begun, and the number of bytes read. -/
theorem services_reads (count : Nat) :
    occurrences (Interrupted inputs start) 0 count =
      occurrences (Reads inputs start) 0 count + (waits inputs start count).toNat :=
  (alternates_reads powerUp).balance (Nat.zero_le count)

end Instructions

section Registers

/-- The LED register takes over what is written to a port with the highest bit set. -/
theorem step_led (memory : Address → BitVec 18) (input : PracPicoCircuit.Input) (circuit : Circuit) :
    (circuit.step memory input).led = (written 7 circuit.fetching.access).getD circuit.led := by
  rw [Circuit.step, Fetching.access]
  cases circuit.fetching.pacoblaze.writeStrobe with
  | false => cases circuit.fetching.pacoblaze.readStrobe <;> rfl
  | true =>
    simp only [Bool.true_and, ↓reduceIte, written, Circuit.portId, Circuit.outPort]
    split_ifs <;> rfl

/-- The read strobe is set when a port is read. -/
theorem readStrobe_reads {memory : Address → BitVec 18} {fetching : Fetching} {pins : Pins}
    (begins : Begins memory fetching) (released : pins.reset = false) :
    (fetching.step memory pins).pacoblaze.readStrobe = (fetching.step memory pins).access.reads := by
  cases latched : fetching.pacoblaze.interruptLatch with
  | true =>
    rw [begins.enters latched released]
    rfl
  | false =>
    rw [begins.first latched released, Fetching.access, firstCycle]
    cases operation fetching.instruction <;> rfl

variable (inputs : Nat → PracPicoCircuit.Input) (start : Circuit)

/-- The processor reads a byte in the cycle. -/
def ReadCycle (cycle : Nat) : Prop := (circuit inputs start cycle).fetching.pacoblaze.readStrobe = true

instance : DecidablePred (ReadCycle inputs start) := fun _ => instDecidableEqBool _ _

/-- The number of bytes read before a cycle. -/
def bytesRead (cycle : Nat) : Nat := occurrences (ReadCycle inputs start) 0 cycle

/-- The samples are the bytes in the input register when the read strobe is set, in their
order. -/
def SampledAs (samples : Nat → Byte) : Prop :=
  ∀ cycle, ReadCycle inputs start cycle →
    samples (bytesRead inputs start cycle + 1) = (circuit inputs start cycle).inPort

/-- The run with interrupts that the circuit carries out. -/
abbrev carriedOut (samples : Nat → Byte) (count : Nat) : Machine :=
  machine (program shipped) samples (fun count => (processorAt inputs start count).pending)
    { cpu := (poweredTemplate start).cpu, begun := 0, inService := false } count

variable {start} (powerUp : start.PowerUp)

include powerUp

/-- In the first cycle of an instruction the registers are between two instructions. -/
theorem between_processorAt (count : Nat) :
    Between outdata (circuit inputs start (2 * count)).fetching (processorAt inputs start count) :=
  (coarse_placed inputs start powerUp count).1.between

/-- The port access of an instruction is in its second cycle. -/
theorem access_second (count : Nat) :
    (circuit inputs start (2 * count + 1)).fetching.access =
      (processorAt inputs start count).access outdata :=
  have released : ∀ cycle, (circuit inputs start cycle).pins.reset = false := fun _ => rfl
  ((between_processorAt inputs powerUp count).step (released (2 * count)) (released (2 * count + 1))
    ((placed powerUp count).suffices code_outdata)).1

/-- Nothing is read in the first cycle of an instruction. -/
theorem readCycle_first (count : Nat) : ¬ ReadCycle inputs start (2 * count) := by
  rw [ReadCycle, (between_processorAt inputs powerUp count).begins.noRead]
  exact Bool.false_ne_true

/-- In the second one INPUT reads. -/
theorem readCycle_second (count : Nat) : ReadCycle inputs start (2 * count + 1) ↔
    Reads inputs start count := by
  have between : Between outdata (circuit inputs start (2 * count)).fetching _ :=
    between_processorAt inputs powerUp count
  have released : (circuit inputs start (2 * count)).pins.reset = false := rfl
  have strobe := readStrobe_reads between.begins released
  have access := access_second inputs powerUp count
  rw [circuit_succ] at access
  rw [ReadCycle, circuit_succ, Circuit.step, strobe]
  simp only [Circuit.step] at access
  rw [access, Processor.access, code_outdata, Reads]
  cases (processorAt inputs start count).pending with
  | true => simp [Event.reads]
  | false => simp [Code.access]

/-- The bytes are numbered as the INPUT instructions are. -/
theorem bytesRead_first (count : Nat) :
    bytesRead inputs start (2 * count) = occurrences (Reads inputs start) 0 count := by
  induction count with
  | zero => rfl
  | succ count inductionHypothesis =>
    rw [bytesRead, show 2 * (count + 1) = 2 * count + 1 + 1 by omega,
      occurrences_succ _ _ _ (Nat.zero_le _),
      occurrences_succ _ _ _ (Nat.zero_le _), if_neg (readCycle_first inputs powerUp count),
      occurrences_succ _ _ _ (Nat.zero_le _), Nat.add_zero, ← inductionHypothesis, bytesRead]
    simp only [readCycle_second inputs powerUp count]

/-- It is the same in the second cycle. -/
theorem bytesRead_second (count : Nat) :
    bytesRead inputs start (2 * count + 1) = occurrences (Reads inputs start) 0 count := by
  rw [bytesRead, occurrences_succ _ _ _ (Nat.zero_le _), if_neg (readCycle_first inputs powerUp count),
    Nat.add_zero]
  exact bytesRead_first inputs powerUp count

omit powerUp in
/-- There are such samples. -/
theorem exists_samples (start : Circuit) : ∃ samples, SampledAs inputs start samples := by
  obtain ⟨numbered, given⟩ := exists_numbering (ReadCycle inputs start) fun cycle =>
    (circuit inputs start cycle).inPort
  exact ⟨fun number => numbered (number - 1), given⟩

/-- The run has the processor of the circuit, and counts its interrupts. -/
theorem carriedOut_processorAt (samples : Nat → Byte) (sampled : SampledAs inputs start samples)
    (count : Nat) :
    (carriedOut inputs start samples count).cpu = (processorAt inputs start count).cpu ∧
      (carriedOut inputs start samples count).begun = occurrences (Interrupted inputs start) 0 count := by
  induction count with
  | zero => exact ⟨rfl, rfl⟩
  | succ count inductionHypothesis =>
    obtain ⟨same, counted⟩ := inductionHypothesis
    rw [occurrences_succ _ _ _ (Nat.zero_le _)]
    by_cases interrupted : Interrupted inputs start count
    · have enabled := ((placed powerUp count).pending interrupted).2
      have request :
          taken (processorAt inputs start count).pending (carriedOut inputs start samples count) = true := by
        rw [taken, same, enabled, Bool.and_true]
        exact interrupted
      rw [if_pos interrupted, carriedOut, machine_taken _ _ _ _ _ request, same, counted,
        processorAt_interrupted powerUp interrupted]
      exact ⟨rfl, rfl⟩
    · have untaken :
          taken (processorAt inputs start count).pending (carriedOut inputs start samples count) = false := by
        rw [taken, Bool.eq_false_of_not_eq_true interrupted, Bool.false_and]
      rw [if_neg interrupted, carriedOut, machine_untaken _ _ _ _ _ untaken, same, counted,
        processorAt_executed powerUp interrupted]
      refine ⟨?_, rfl⟩
      by_cases reads : Reads inputs start count
      · have given := sampled (2 * count + 1) ((readCycle_second inputs powerUp count).mpr reads)
        have waiting := ((waits_executed powerUp interrupted).1 reads).1
        have number := @services_reads inputs _ powerUp count
        rw [waiting, ← bytesRead_second inputs powerUp] at number
        rw [number, Bool.toNat_true, given]
      · have pending : (processorAt inputs start count).pending = false :=
          Bool.eq_false_of_not_eq_true interrupted
        exact exec_unread _ _ (Bool.eq_false_of_not_eq_true fun access => reads ⟨pending, access⟩) _ _

/-- The LED register takes over what the run stores. -/
theorem led_ledAfter (samples : Nat → Byte) (sampled : SampledAs inputs start samples) (count : Nat) :
    (circuit inputs start (2 * count)).led =
      ledAfter shipped samples (fun count => (processorAt inputs start count).pending)
        { cpu := (poweredTemplate start).cpu, begun := 0, inService := false } start.led count := by
  induction count with
  | zero => rfl
  | succ count inductionHypothesis =>
    have silent := (between_processorAt inputs powerUp count).begins.silent
    have same := (carriedOut_processorAt inputs powerUp samples sampled count).1
    have observes : (processorAt inputs start count).access outdata =
        observed (program shipped) (processorAt inputs start count).pending
          (carriedOut inputs start samples count) := by
      rw [Processor.access, observed, taken, same, code_outdata]
      cases pending : (processorAt inputs start count).pending with
      | false => rfl
      | true =>
        rw [((placed powerUp count).pending pending).2]
        rfl
    rw [ledAfter_succ, ← inductionHypothesis, ← observes, ← access_second inputs powerUp count,
      show 2 * (count + 1) = 2 * count + 1 + 1 by omega, circuit_succ, step_led, circuit_succ,
      step_led, silent]
    rfl

/-- The LEDs of the circuit. Whatever interrupts are requested and whatever bytes are at
the input, between two instructions with interrupts enabled the LED register shows the
bar of the average of the last whole batch of 256 bytes that have been read, and zero
before there is one. -/
theorem leds_show :
    ∃ samples, SampledAs inputs start samples ∧
      ∀ cycle, (circuit inputs start cycle).fetching.pacoblaze.timingControl = false →
        (circuit inputs start cycle).fetching.pacoblaze.interruptEnable = true →
          (circuit inputs start cycle).led =
            if bytesRead inputs start cycle < 256 then 0x00
            else leadingOnes (max 1
              (average samples (bytesRead inputs start cycle - bytesRead inputs start cycle % 256)).size) := by
  obtain ⟨samples, sampled⟩ := exists_samples inputs start
  refine ⟨samples, sampled, fun cycle first enabled => ?_⟩
  obtain ⟨count, rfl⟩ : ∃ count, cycle = 2 * count := by
    refine ⟨cycle / 2, ?_⟩
    have parity := Nat.div_add_mod cycle 2
    cases Nat.mod_two_eq_zero_or_one cycle with
    | inl even => rw [even] at parity; exact parity.symm
    | inr odd =>
      rw [odd] at parity
      rw [← parity, circuit_second inputs start powerUp] at first
      cases first
  rw [(between_processorAt inputs powerUp count).shows.interruptEnable] at enabled
  obtain ⟨same, counted⟩ := carriedOut_processorAt inputs powerUp samples sampled count
  have reset : InterruptTransparency.AtReset
      { cpu := (poweredTemplate start).cpu, begun := 0, inService := false } := ⟨rfl, rfl, rfl, rfl⟩
  have late : 7 ≤ count := by
    by_contra early
    have masked := cold_start_masked shipped samples
      (fun count => (processorAt inputs start count).pending) _ reset
      count (Nat.lt_of_not_le early)
    rw [same, enabled] at masked
    cases masked
  have idle : (carriedOut inputs start samples count).inService = false := by
    by_contra busy
    obtain ⟨_, _, _, service, _⟩ := (follows shipped samples
      (fun count => (processorAt inputs start count).pending) _
      reset count late).serving (Bool.eq_true_of_not_eq_false busy)
    have masked := service.masked
    rw [same, enabled] at masked
    cases masked
  have waiting : waits inputs start count = false := by
    by_contra before
    cases placed powerUp count with
    | coldStart _ _ masked => rw [enabled] at masked; cases masked
    | main nested =>
      obtain ⟨_, here⟩ := nested.inside
      exact before (level_notBefore here)
    | service _ _ _ masked => rw [enabled] at masked; cases masked
  have number := @services_reads inputs _ powerUp count
  rw [waiting, ← bytesRead_first inputs powerUp] at number
  rw [led_ledAfter inputs powerUp samples sampled, (showing_run reset late).idle idle, counted, number,
    lastShown_eq]
  rfl

end Registers

/-- The circuit from power-up, under interrupt events that never pause. -/
theorem leds_show_powered :
    ∃ samples, SampledAs eventful powered samples ∧
      ∀ cycle, (circuit eventful powered cycle).fetching.pacoblaze.timingControl = false →
        (circuit eventful powered cycle).fetching.pacoblaze.interruptEnable = true →
          (circuit eventful powered cycle).led =
            if bytesRead eventful powered cycle < 256 then 0x00
            else leadingOnes (max 1
              (average samples (bytesRead eventful powered cycle - bytesRead eventful powered cycle % 256)).size) :=
  leds_show eventful powered_powerUp

end CpenLabs.CircuitLeds
