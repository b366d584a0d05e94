import CpenLabs.PacoblazeRefinement
import CpenLabs.PicoblazeTemplate

/-!
# The circuit with the program in it

`picoblaze_template` of lab3 down to its registers: pacoblaze3, the register in front of
the instruction memory with PRACPICO.MEM in it, the input register, the flip-flop of the
interrupt and the two LED registers.

The program never needs more than seven places of the stack memory and never returns
with an empty stack, under any interrupts. So the registers execute its instructions
without a condition, and the circuit is in step with the coarser model of it, in which
an instruction is executed in its first cycle.
-/

namespace CpenLabs.PracPicoCircuit

open Clocked Kcpsm3 PracPico MainProgram MemoryImage Pacoblaze PacoblazeRefinement

section Stack

variable (constants : Constants)

/-- The addresses of the service routine up to its INPUT instruction, and the interrupt
vector. -/
def beforeInput (pc : Address) : Bool := pc = interruptVector || 0x26#10 ≤ pc && pc ≤ 0x2D#10

/-- The other addresses of the routine. -/
def afterInput (pc : Address) : Bool := 0x2E#10 ≤ pc && pc ≤ 0x64#10

/-- The instruction goes straight on to the INPUT instruction, or is this one. -/
def leadsToInput (pc : Address) : Bool :=
  match program constants pc with
  | .fetch _ _ | .store _ _ => beforeInput (pc + 1)
  | .jump .always address => beforeInput address
  | .input _ _ => afterInput (pc + 1)
  | _ => false

/-- The instruction keeps to the second part of the routine, or returns from it with
interrupts enabled. -/
def leadsToReturn (pc : Address) : Bool :=
  match program constants pc with
  | .load _ _ | .alu _ _ _ | .output _ _ | .fetch _ _ | .store _ _ => afterInput (pc + 1)
  | .jump .always address => afterInput address
  | .jump _ address => afterInput address && afterInput (pc + 1)
  | .returni enable => enable
  | _ => false

/-- From each address of the first part the routine gets to INPUT. -/
theorem beforeInput_leads (pc : Address) (inside : beforeInput pc = true) :
    leadsToInput constants pc = true := by
  simp only [beforeInput, Bool.or_eq_true, Bool.and_eq_true, decide_eq_true_eq] at inside
  obtain vector | ⟨low, high⟩ := inside
  · rw [vector]
    rfl
  · have listed : ∀ address, 0x26 ≤ address → address ≤ 0x2D →
        leadsToInput constants (BitVec.ofNat 10 address) = true := by
      intro address low high
      interval_cases address <;> rfl
    have same := listed pc.toNat low high
    rwa [BitVec.ofNat_toNat, BitVec.setWidth_eq] at same

set_option maxRecDepth 2000 in
/-- From each address of the second part it gets to RETURNI. -/
theorem afterInput_leads (pc : Address) (inside : afterInput pc = true) :
    leadsToReturn constants pc = true := by
  simp only [afterInput, Bool.and_eq_true, decide_eq_true_eq] at inside
  have listed : ∀ address, 0x2E ≤ address → address ≤ 0x64 →
      leadsToReturn constants (BitVec.ofNat 10 address) = true := by
    intro address low high
    interval_cases address <;> rfl
  have same := listed pc.toNat inside.1 inside.2
  rwa [BitVec.ofNat_toNat, BitVec.setWidth_eq] at same

/-- In the first part an instruction that reads ends the part, and no other does. -/
theorem beforeInput_step (inPort : Byte) (cpu : Cpu) (inside : beforeInput cpu.pc = true) :
    (if (event (program constants cpu.pc) cpu).reads then
      afterInput (exec (program constants cpu.pc) inPort cpu).pc = true
    else beforeInput (exec (program constants cpu.pc) inPort cpu).pc = true) ∧
      (exec (program constants cpu.pc) inPort cpu).stack = cpu.stack ∧
      (exec (program constants cpu.pc) inPort cpu).interruptEnable = cpu.interruptEnable := by
  have leads := beforeInput_leads constants cpu.pc inside
  cases code : program constants cpu.pc with
  | fetch | store | input =>
    rw [leadsToInput, code] at leads
    exact ⟨leads, rfl, rfl⟩
  | jump condition address =>
    rw [leadsToInput, code] at leads
    cases condition with
    | always => exact ⟨leads, rfl, rfl⟩
    | z | nz | c | nc => cases leads
  | load | alu | output | call | ret | returni | interrupt =>
    rw [leadsToInput, code] at leads
    cases leads

/-- In the second part no instruction reads, and the one that ends it goes back to the
caller. -/
theorem afterInput_step (inPort : Byte) (cpu : Cpu) (inside : afterInput cpu.pc = true) :
    (event (program constants cpu.pc) cpu).reads = false ∧
      ((afterInput (exec (program constants cpu.pc) inPort cpu).pc = true ∧
          (exec (program constants cpu.pc) inPort cpu).stack = cpu.stack ∧
          (exec (program constants cpu.pc) inPort cpu).interruptEnable = cpu.interruptEnable) ∨
        ((exec (program constants cpu.pc) inPort cpu).pc = cpu.stack.headD 0 ∧
          (exec (program constants cpu.pc) inPort cpu).stack = cpu.stack.tail ∧
          (exec (program constants cpu.pc) inPort cpu).interruptEnable = true)) := by
  have leads := afterInput_leads constants cpu.pc inside
  cases code : program constants cpu.pc with
  | load | alu | output | fetch | store =>
    rw [leadsToReturn, code] at leads
    exact ⟨rfl, .inl ⟨leads, rfl, rfl⟩⟩
  | returni enable =>
    rw [leadsToReturn, code] at leads
    exact ⟨rfl, .inr ⟨rfl, rfl, leads⟩⟩
  | jump condition address =>
    rw [leadsToReturn, code] at leads
    refine ⟨rfl, .inl ⟨?_, rfl, rfl⟩⟩
    cases condition with
    | always => exact leads
    | z | nz | c | nc =>
      obtain ⟨target, through⟩ := Bool.and_eq_true_iff.mp leads
      simp only [exec]
      split_ifs
      · exact target
      · exact through
  | input | call | ret | interrupt =>
    rw [leadsToReturn, code] at leads
    cases leads

/-- Where the processor is in the program, with the call stack that belongs to it. -/
inductive Placed : Processor → Prop
  | coldStart {processor : Processor} (early : processor.cpu.pc.toNat < 7)
      (empty : processor.cpu.stack = []) (masked : processor.cpu.interruptEnable = false)
      (quiet : processor.pending = false) : Placed processor
  | main {processor : Processor} (nested : Nested [] processor.cpu.pc processor.cpu.stack)
      (enabled : processor.cpu.interruptEnable = true) : Placed processor
  | service {processor : Processor} {caller : Address} {frames : List Address}
      (inside : beforeInput processor.cpu.pc = true ∨ afterInput processor.cpu.pc = true)
        (called : processor.cpu.stack = caller :: frames)
      (nested : Nested [] caller frames) (masked : processor.cpu.interruptEnable = false)
      (quiet : processor.pending = false) : Placed processor

/-- There are six levels. -/
theorem level_le {pc : Address} {depth : Nat} (here : level pc = some depth) : depth ≤ 5 := by
  unfold level at here
  split_ifs at here <;> cases here <;> decide

/-- The stack of the main program has a place for each level but the first. -/
theorem nested_length {frames : List Address} {pc : Address} (nested : Nested [] pc frames) :
    ∀ depth, level pc = some depth → frames.length = depth := by
  induction nested with
  | main here =>
    intro depth level
    exact Option.some.inj (here.symm.trans level)
  | routine here calling _ _ inductionHypothesis =>
    intro depth level
    rw [List.length_cons, inductionHypothesis _ calling]
    exact Option.some.inj (here.symm.trans level)

/-- The calls of the main program are nested to a depth of five. -/
theorem nested_short {frames : List Address} {pc : Address} (nested : Nested [] pc frames) :
    frames.length ≤ 5 := by
  obtain ⟨depth, here⟩ := nested.inside
  rw [nested_length nested depth here]
  exact level_le here

/-- So the stack holds at most six addresses. -/
theorem Placed.short {processor : Processor} (placed : Placed processor) :
    processor.cpu.stack.length ≤ 6 := by
  cases placed with
  | coldStart _ empty => rw [empty]; exact Nat.zero_le _
  | main nested => exact Nat.le_succ_of_le (nested_short nested)
  | service _ called nested =>
    rw [called]
    exact Nat.succ_le_succ (nested_short nested)

/-- A request is pending in the main program only. -/
theorem Placed.pending {processor : Processor} (placed : Placed processor)
    (pending : processor.pending = true) :
    Nested [] processor.cpu.pc processor.cpu.stack ∧ processor.cpu.interruptEnable = true := by
  cases placed with
  | coldStart _ _ _ quiet => rw [quiet] at pending; cases pending
  | main nested enabled => exact ⟨nested, enabled⟩
  | service _ _ _ _ quiet => rw [quiet] at pending; cases pending

/-- The cold start goes on to the main program, and enables interrupts at its end. -/
theorem coldStart_step (inPort : Byte) (cpu : Cpu) (early : cpu.pc.toNat < 7) (empty : cpu.stack = [])
    (masked : cpu.interruptEnable = false) :
    ((exec (program constants cpu.pc) inPort cpu).pc.toNat < 7 ∧
        (exec (program constants cpu.pc) inPort cpu).stack = [] ∧
        (exec (program constants cpu.pc) inPort cpu).interruptEnable = false) ∨
      (Nested [] (exec (program constants cpu.pc) inPort cpu).pc
        (exec (program constants cpu.pc) inPort cpu).stack ∧
        (exec (program constants cpu.pc) inPort cpu).interruptEnable = true) := by
  have here : cpu.pc = BitVec.ofNat 10 cpu.pc.toNat := by rw [BitVec.ofNat_toNat, BitVec.setWidth_eq]
  obtain earlier | last := Nat.lt_or_eq_of_le (Nat.le_of_lt_succ early)
  · obtain ⟨next, same, stack, _⟩ :=
      PicoblazeTemplate.coldStart_exec constants cpu.pc.toNat earlier cpu inPort here
    refine .inl ⟨?_, stack.trans empty, same.trans masked⟩
    rw [next, BitVec.toNat_ofNat]
    omega
  · rw [last] at here
    rw [here]
    refine .inr ⟨?_, rfl⟩
    rw [show program constants (BitVec.ofNat 10 6) = .interrupt true from rfl]
    simp only [exec, here, empty]
    exact .main rfl

variable {constants} {memory : Address → BitVec 18} {surroundings : Surroundings} {processor : Processor}

/-- With the program in the memory an instruction is executed, or an interrupt is taken. -/
theorem step_program (decoded : ∀ pc, code (memory pc) = .plain (program constants pc)) :
    processor.step memory surroundings =
      if processor.pending then { cpu := interrupt processor.cpu, pending := false }
      else
        { cpu := exec (program constants processor.cpu.pc) surroundings.inPort processor.cpu
          pending :=
            surroundings.first && processor.cpu.interruptEnable ||
              surroundings.second &&
                (exec (program constants processor.cpu.pc) surroundings.inPort processor.cpu).interruptEnable } := by
  rw [Processor.step, decoded]
  rfl

/-- The processor stays where the call stack is known. -/
theorem Placed.step (decoded : ∀ pc, code (memory pc) = .plain (program constants pc))
    (placed : Placed processor) : Placed (processor.step memory surroundings) := by
  rw [step_program decoded]
  cases pending : processor.pending with
  | true =>
    obtain ⟨nested, _⟩ := placed.pending pending
    exact @Placed.service _ processor.cpu.pc processor.cpu.stack (.inl rfl) rfl nested rfl rfl
  | false =>
    rw [if_neg Bool.false_ne_true]
    cases placed with
    | coldStart early empty masked =>
      obtain ⟨early', empty', masked'⟩ | ⟨nested, enabled⟩ :=
        coldStart_step constants surroundings.inPort processor.cpu early empty masked
      · exact .coldStart early' empty' masked' (by simp [masked, masked'])
      · exact .main nested enabled
    | main nested enabled =>
      obtain ⟨_, nested', same⟩ := nested_step constants surroundings.inPort processor.cpu nested
      exact .main nested' (same.trans enabled)
    | service inside called nested masked =>
      obtain before | after := inside
      · obtain ⟨inside, same, kept⟩ := beforeInput_step constants surroundings.inPort processor.cpu before
        refine .service ?_ (same.trans called) nested (kept.trans masked) (by simp [masked, kept])
        split_ifs at inside
        · exact .inr inside
        · exact .inl inside
      · obtain ⟨_, ⟨inside, same, kept⟩ | ⟨back, popped, enabled⟩⟩ :=
          afterInput_step constants surroundings.inPort processor.cpu after
        · exact .service (.inr inside) (same.trans called) nested (kept.trans masked)
            (by simp [masked, kept])
        · refine .main ?_ enabled
          rw [back, popped, called]
          exact nested

/-- The cold start does not return. -/
theorem coldStart_pops (cpu : Cpu) (early : cpu.pc.toNat < 7) :
    (Code.plain (program constants cpu.pc)).pops cpu = false := by
  have here : cpu.pc = BitVec.ofNat 10 cpu.pc.toNat := by rw [BitVec.ofNat_toNat, BitVec.setWidth_eq]
  rw [here]
  interval_cases cpu.pc.toNat <;> rfl

/-- The main program returns from the levels that have been called. -/
theorem main_pops (cpu : Cpu) (nested : Nested [] cpu.pc cpu.stack)
    (pops : (Code.plain (program constants cpu.pc)).pops cpu = true) : cpu.stack ≠ [] := by
  intro empty
  obtain ⟨depth, here⟩ := nested.inside
  have none := nested_length nested depth here
  rw [empty, List.length_nil] at none
  have placed := main_wellPlaced constants cpu.pc (by rw [here]; rfl)
  rw [wellPlaced, here, ← none] at placed
  cases code : program constants cpu.pc with
  | ret condition =>
    rw [code] at placed
    cases condition <;> cases placed
  | returni =>
    rw [code] at placed
    cases placed
  | _ =>
    rw [code] at pops
    cases pops

/-- The stack suffices wherever the processor is. -/
theorem Placed.suffices (decoded : ∀ pc, code (memory pc) = .plain (program constants pc))
    (placed : Placed processor) : StackSuffices memory surroundings processor where
  room := Nat.lt_of_le_of_lt (placed.step decoded).short (by decide)
  present _ pops := by
    rw [decoded] at pops
    cases placed with
    | coldStart early =>
      rw [coldStart_pops processor.cpu early] at pops
      cases pops
    | main nested => exact main_pops processor.cpu nested pops
    | service _ called =>
      rw [called]
      exact List.cons_ne_nil _ _

end Stack

/-- The registers of `picoblaze_template`. -/
structure Circuit where
  fetching : Fetching
  inPort : Byte
  interrupt : Bool
  led : Byte
  led0 : Bool

/-- The inputs of one clock cycle. The last one is what the input register takes over
from a port that is not connected. -/
structure Input where
  interruptEvent : Bool
  inputData : Byte
  unconnected : Byte

namespace Circuit

/-- `port_id`. -/
def portId (circuit : Circuit) : Byte :=
  circuit.fetching.pacoblaze.aluOperandB circuit.fetching.instruction

/-- `out_port`. -/
def outPort (circuit : Circuit) : Byte :=
  circuit.fetching.pacoblaze.registerXDataOut circuit.fetching.instruction

/-- What the processor sees. `kcpsm3_reset` is zero. -/
def pins (circuit : Circuit) : Pins where
  inPort := circuit.inPort
  interrupt := circuit.interrupt
  reset := false

/-- One clock cycle. The acknowledge resets the flip-flop as soon as it rises. -/
def step (memory : Address → BitVec 18) (input : Input) (circuit : Circuit) : Circuit where
  fetching := circuit.fetching.step memory circuit.pins
  inPort := if circuit.portId = 0x00 then input.inputData else input.unconnected
  interrupt :=
    if (circuit.fetching.step memory circuit.pins).pacoblaze.interruptAck ||
        circuit.fetching.pacoblaze.interruptAck then false
    else input.interruptEvent
  led :=
    if circuit.fetching.pacoblaze.writeStrobe && circuit.portId.getLsbD 7 then circuit.outPort
    else circuit.led
  led0 :=
    if circuit.fetching.pacoblaze.writeStrobe && circuit.portId.getLsbD 6 then circuit.outPort.getLsbD 0
    else circuit.led0

/-- The flip-flop of the interrupt takes the event, unless it is acknowledged. -/
theorem step_interrupt (memory : Address → BitVec 18) (input : Input) (circuit : Circuit) :
    (circuit.step memory input).interrupt =
      if (circuit.step memory input).fetching.pacoblaze.interruptAck ||
          circuit.fetching.pacoblaze.interruptAck then false
      else input.interruptEvent := rfl

/-- The registers that are zero at power-up. The others may hold anything. -/
structure PowerUp (circuit : Circuit) : Prop where
  programCounter : circuit.fetching.pacoblaze.programCounter = 0
  instruction : circuit.fetching.instruction = 0
  timingControl : circuit.fetching.pacoblaze.timingControl = false
  interruptEnable : circuit.fetching.pacoblaze.interruptEnable = false
  interruptLatch : circuit.fetching.pacoblaze.interruptLatch = false
  resetLatch : circuit.fetching.pacoblaze.resetLatch = 0
  registerXWriteEnable : circuit.fetching.pacoblaze.registerXWriteEnable = false
  scratchWriteEnable : circuit.fetching.pacoblaze.scratchWriteEnable = false
  readStrobe : circuit.fetching.pacoblaze.readStrobe = false
  writeStrobe : circuit.fetching.pacoblaze.writeStrobe = false

end Circuit

section Runs

variable (inputs : Nat → Input) (start : Circuit)

/-- The registers in each clock cycle, with PRACPICO.MEM in the instruction memory. -/
abbrev circuit (cycle : Nat) : Circuit := run (Circuit.step outdata) inputs start cycle

/-- One cycle more. -/
theorem circuit_succ (cycle : Nat) :
    circuit inputs start (cycle + 1) = (circuit inputs start cycle).step outdata (inputs cycle) := rfl

/-- The words are the instructions of the program. -/
theorem code_outdata (pc : Address) : code (outdata pc) = .plain (program shipped pc) := by
  rw [code, decode_outdata]

end Runs

section Ports

variable (constants : Constants)

/-- The instruction reads port 0 or none. -/
def readsData {target : Type} : Instruction target → Bool
  | .input _ (.constant port) => port == dataInPort
  | .input _ (.register _) => false
  | _ => true

/-- The program reads no other port. -/
theorem program_readsData (pc : Address) : readsData (program constants pc) = true := by
  have all : (lines constants).all (fun line => readsData line.2) = true := rfl
  unfold program
  split_ifs
  · rfl
  · cases line : (lines constants)[pc.toNat]? with
    | none => rfl
    | some found =>
      have reads := List.all_eq_true.mp all found (List.mem_of_getElem? line)
      revert reads
      obtain ⟨label, instruction⟩ := found
      cases instruction with
      | input x port => cases port <;> exact id
      | _ => exact id

/-- What an instruction does depends on the input register only through port 0. -/
theorem exec_inPort (cpu : Cpu) (inPort data : Byte)
    (connected : ∀ port, event (program constants cpu.pc) cpu = .read port → port = 0x00 →
      inPort = data) :
    exec (program constants cpu.pc) inPort cpu = exec (program constants cpu.pc) data cpu := by
  have reads := program_readsData constants cpu.pc
  cases code : program constants cpu.pc with
  | input x port =>
    rw [code] at reads connected
    cases port with
    | constant port => rw [connected port rfl (eq_of_beq reads)]
    | register source => cases reads
  | _ => rfl

end Ports

/-- The inputs of the coarser model. -/
def coarse (input : Input) : PicoblazeTemplate.Input where
  interruptEvent := input.interruptEvent
  inputData := input.inputData

/-- The control registers have the same values in both models. -/
structure SameControl (circuit : Circuit) (template : PicoblazeTemplate.Template) : Prop where
  timingControl : circuit.fetching.pacoblaze.timingControl = template.timingControl
  interruptLatch : circuit.fetching.pacoblaze.interruptLatch = template.interruptLatch
  interruptAck : circuit.fetching.pacoblaze.interruptAck = template.interruptAck
  interrupt : circuit.interrupt = template.interrupt

/-- Between two instructions all registers have the same values. -/
structure InStep (circuit : Circuit) (template : PicoblazeTemplate.Template) : Prop where
  between : Between outdata circuit.fetching { cpu := template.cpu, pending := template.interruptLatch }
  control : SameControl circuit template
  first : template.timingControl = false

section InStep

variable {circuit : Circuit} {template : PicoblazeTemplate.Template} (inStep : InStep circuit template)
  (input input' : Input)

include inStep

/-- The acknowledge of the next cycle. -/
theorem InStep.entering :
    (circuit.step outdata input).fetching.pacoblaze.interruptAck = template.entering := by
  have latch := inStep.control.interruptLatch
  rw [PicoblazeTemplate.Template.entering, inStep.first, ← latch]
  cases latched : circuit.fetching.pacoblaze.interruptLatch with
  | false =>
    rw [Circuit.step, inStep.between.begins.first latched rfl]
    rfl
  | true =>
    rw [Circuit.step, inStep.between.begins.enters latched rfl]
    rfl

/-- In the second cycle the control registers still have the same values. -/
theorem InStep.second :
    SameControl (circuit.step outdata input)
      (template.step (program shipped) (coarse input)) := by
  have entering := inStep.entering input
  have latch := inStep.control.interruptLatch
  have enable := inStep.between.shows.interruptEnable
  refine ⟨?_, ?_, entering, ?_⟩
  · rw [PicoblazeTemplate.Template.step, inStep.first]
    cases latched : circuit.fetching.pacoblaze.interruptLatch with
    | false =>
      rw [Circuit.step, inStep.between.begins.first latched rfl]
      rfl
    | true =>
      rw [Circuit.step, inStep.between.begins.enters latched rfl]
      rfl
  · rw [PicoblazeTemplate.Template.step, PicoblazeTemplate.Template.entering, inStep.first, ← latch,
      ← inStep.control.interrupt]
    simp only at enable
    cases latched : circuit.fetching.pacoblaze.interruptLatch with
    | false =>
      rw [Circuit.step, inStep.between.begins.first latched rfl]
      simp [firstCycle, Circuit.pins, enable]
    | true =>
      rw [Circuit.step, inStep.between.begins.enters latched rfl]
      simp [enteringCycle]
  · rw [Circuit.step_interrupt, entering, inStep.control.interruptAck, PicoblazeTemplate.Template.step]
    cases template.entering <;> cases template.interruptAck <;> rfl

/-- An INPUT instruction takes over the data of its first cycle. -/
theorem InStep.reads (unlatched : template.interruptLatch = false) :
    exec (program shipped template.cpu.pc) (circuit.step outdata input).inPort template.cpu =
      exec (program shipped template.cpu.pc) input.inputData template.cpu := by
  apply exec_inPort
  intro port reading data
  have released : circuit.pins.reset = false := rfl
  have access := inStep.between.access unlatched released
  rw [Processor.access, unlatched, code_outdata, if_neg Bool.false_ne_true, Code.access, reading,
    inStep.between.begins.first (inStep.between.latch.trans unlatched) rfl, Fetching.access] at access
  have asked : circuit.portId = port := by
    split_ifs at access with writes readStrobe
    cases access
    rfl
  rw [Circuit.step, asked, data]
  rfl

/-- Two cycles of the coarser model are a step of the processor. -/
theorem InStep.coarse_step :
    ({ cpu := template.cpu, pending := template.interruptLatch } : Processor).step outdata
        (surroundings circuit.pins (circuit.step outdata input).pins) =
      { cpu := ((template.step (program shipped) (coarse input)).step (program shipped)
        (coarse input')).cpu
        pending :=
          ((template.step (program shipped) (coarse input)).step (program shipped)
            (coarse input')).interruptLatch } := by
  have second := inStep.second input
  rw [step_program code_outdata]
  cases latched : template.interruptLatch with
  | true =>
    simp [PicoblazeTemplate.Template.step, PicoblazeTemplate.Template.entering,
      PicoblazeTemplate.Template.executing, inStep.first, latched, interrupt]
  | false =>
    have reads := inStep.reads input latched
    simp only [surroundings, Circuit.pins, inStep.control.interrupt, second.interrupt, reads]
    simp [PicoblazeTemplate.Template.step, PicoblazeTemplate.Template.entering,
      PicoblazeTemplate.Template.executing, inStep.first, latched, coarse, Bool.or_comm]

/-- After two cycles all registers have the same values again, wherever the processor is
in the program. -/
theorem InStep.next (placed : Placed { cpu := template.cpu, pending := template.interruptLatch }) :
    InStep ((circuit.step outdata input).step outdata input')
      ((template.step (program shipped) (coarse input)).step (program shipped) (coarse input')) := by
  have second := inStep.second input
  have released : circuit.pins.reset = false := rfl
  have released' : (circuit.step outdata input).pins.reset = false := rfl
  have between := (inStep.between.step released released' (placed.suffices code_outdata)).2
  rw [inStep.coarse_step input input'] at between
  have atSecond : (template.step (program shipped) (coarse input)).timingControl = true := by
    rw [PicoblazeTemplate.Template.step, inStep.first]
    rfl
  have running : (circuit.step outdata input).fetching.pacoblaze.resetLatch = 0 := by
    cases latched : circuit.fetching.pacoblaze.interruptLatch with
    | false =>
      rw [Circuit.step, inStep.between.begins.first latched rfl]
      exact inStep.between.begins.running
    | true =>
      rw [Circuit.step, inStep.between.begins.enters latched rfl]
      exact inStep.between.begins.running
  have ack : ((circuit.step outdata input).step outdata input').fetching.pacoblaze.interruptAck =
      false := by
    rw [Circuit.step, Fetching.step, step_second rfl running (second.timingControl.trans atSecond)]
    rfl
  have notEntering : (template.step (program shipped) (coarse input)).entering = false := by
    rw [PicoblazeTemplate.Template.entering, atSecond]
    rfl
  have first : ((template.step (program shipped) (coarse input)).step (program shipped)
      (coarse input')).timingControl = false := by
    rw [PicoblazeTemplate.Template.step, atSecond]
    rfl
  refine ⟨between, ⟨?_, between.latch, ?_, ?_⟩, first⟩
  · exact between.begins.timingControl.trans first.symm
  · rw [ack]
    exact notEntering.symm
  · rw [Circuit.step_interrupt, ack, PicoblazeTemplate.Template.step, notEntering, ← second.interruptAck]
    cases (circuit.step outdata input).fetching.pacoblaze.interruptAck <;> rfl

end InStep

section Lockstep

variable (inputs : Nat → Input) (start : Circuit)

/-- The coarser model at power-up. -/
def poweredTemplate : PicoblazeTemplate.Template where
  cpu :=
    { pc := 0
      regs := start.fetching.pacoblaze.dpr
      scratch := start.fetching.pacoblaze.scratch
      zero := start.fetching.pacoblaze.zero
      carry := start.fetching.pacoblaze.carry
      interruptEnable := false
      zeroSaved := start.fetching.pacoblaze.zeroSaved
      carrySaved := start.fetching.pacoblaze.carrySaved
      stack := [] }
  timingControl := false
  interruptLatch := false
  interruptAck := start.fetching.pacoblaze.interruptAck
  interrupt := start.interrupt

/-- The run of the coarser model under the same inputs. -/
abbrev coarseRun (cycle : Nat) : PicoblazeTemplate.Template :=
  PicoblazeTemplate.template (program shipped) (fun cycle => coarse (inputs cycle))
    (poweredTemplate start) cycle

/-- At power-up the two are in step. -/
theorem powered_inStep (powerUp : start.PowerUp) : InStep start (poweredTemplate start) := by
  obtain ⟨programCounter, instruction, timingControl, interruptEnable, interruptLatch, resetLatch,
    noRegister, noScratch, noRead, noWrite⟩ := powerUp
  have fetched : start.fetching.instruction = outdata start.fetching.pacoblaze.programCounter := by
    rw [programCounter, instruction]
    rfl
  refine ⟨⟨⟨timingControl, resetLatch, noRegister, noScratch, noRead, noWrite, fetched⟩,
    ⟨programCounter, rfl, rfl, rfl, rfl, interruptEnable, rfl, rfl⟩, interruptLatch,
    StackMemory.Holds.nil _ _, ?_⟩,
    ⟨timingControl, interruptLatch, rfl, rfl⟩, rfl⟩
  rintro (calls | pending)
  · rw [instruction] at calls
    cases calls
  · cases pending

/-- The processor is always at a place where its call stack is known. -/
theorem coarse_placed (powerUp : start.PowerUp) (count : Nat) :
    InStep (circuit inputs start (2 * count)) (coarseRun inputs start (2 * count)) ∧
      Placed { cpu := (coarseRun inputs start (2 * count)).cpu
               pending := (coarseRun inputs start (2 * count)).interruptLatch } := by
  induction count with
  | zero => exact ⟨powered_inStep start powerUp, .coldStart (by exact Nat.succ_pos 6) rfl rfl rfl⟩
  | succ count inductionHypothesis =>
    obtain ⟨inStep, placed⟩ := inductionHypothesis
    have next := @Placed.step _ _
      (surroundings (circuit inputs start (2 * count)).pins (circuit inputs start (2 * count + 1)).pins) _
      code_outdata placed
    refine ⟨inStep.next (inputs (2 * count)) (inputs (2 * count + 1)) placed, ?_⟩
    exact (inStep.coarse_step (inputs (2 * count)) (inputs (2 * count + 1))) ▸ next

/-- Every other cycle is a second one. -/
theorem coarse_second (powerUp : start.PowerUp) (count : Nat) :
    (coarseRun inputs start (2 * count + 1)).timingControl = true := by
  rw [coarseRun, PicoblazeTemplate.template_succ, PicoblazeTemplate.Template.step,
    (coarse_placed inputs start powerUp count).1.first]
  rfl

/-- Every other cycle is the second of an instruction. -/
theorem circuit_second (powerUp : start.PowerUp) (count : Nat) :
    (circuit inputs start (2 * count + 1)).fetching.pacoblaze.timingControl = true :=
  ((coarse_placed inputs start powerUp count).1.second _).timingControl.trans
    (coarse_second inputs start powerUp count)

/-- The circuit is in step with the coarser model in every cycle of every run from power-up:
the control registers have the same values, and between two instructions all registers
have. The stack memory never overflows, and an instruction that pops an address finds
one. -/
theorem in_step (powerUp : start.PowerUp) (cycle : Nat) :
    SameControl (circuit inputs start cycle) (coarseRun inputs start cycle) ∧
      ((coarseRun inputs start cycle).timingControl = false →
        Between outdata (circuit inputs start cycle).fetching
          { cpu := (coarseRun inputs start cycle).cpu
            pending := (coarseRun inputs start cycle).interruptLatch }) ∧
      (coarseRun inputs start cycle).cpu.stack.length ≤ 6 ∧
      ((coarseRun inputs start cycle).timingControl = false →
        (coarseRun inputs start cycle).interruptLatch = false →
        (code (circuit inputs start cycle).fetching.instruction).pops
          (coarseRun inputs start cycle).cpu = true →
        (coarseRun inputs start cycle).cpu.stack ≠ []) := by
  obtain ⟨inStep, placed⟩ := coarse_placed inputs start powerUp (cycle / 2)
  cases Nat.mod_two_eq_zero_or_one cycle with
  | inl even =>
    rw [show 2 * (cycle / 2) = cycle by omega] at inStep placed
    refine ⟨inStep.control, fun _ => inStep.between, placed.short, fun _ unlatched pops => ?_⟩
    rw [inStep.between.begins.fetched, inStep.between.shows.pc] at pops
    have suffices' := @Placed.suffices shipped outdata
      (surroundings (circuit inputs start cycle).pins (circuit inputs start cycle).pins) _
      code_outdata placed
    exact suffices'.present unlatched pops
  | inr odd =>
    have second := inStep.second (inputs (2 * (cycle / 2)))
    have atSecond := coarse_second inputs start powerUp (cycle / 2)
    obtain ⟨_, placed'⟩ := coarse_placed inputs start powerUp (cycle / 2 + 1)
    have same : (coarseRun inputs start (2 * (cycle / 2 + 1))).cpu =
      (coarseRun inputs start (2 * (cycle / 2) + 1)).cpu := by
      rw [show 2 * (cycle / 2 + 1) = 2 * (cycle / 2) + 1 + 1 by omega, coarseRun,
        PicoblazeTemplate.template_succ,
        PicoblazeTemplate.Template.step, PicoblazeTemplate.Template.entering,
        PicoblazeTemplate.Template.executing,
        atSecond]
      rfl
    have short := placed'.short
    rw [same] at short
    rw [show 2 * (cycle / 2) + 1 = cycle by omega] at atSecond short
    refine ⟨?_, fun first => Bool.noConfusion (first.symm.trans atSecond), short,
      fun first => Bool.noConfusion (first.symm.trans atSecond)⟩
    rw [show cycle = 2 * (cycle / 2) + 1 by omega]
    exact second

end Lockstep

/-- Everything is zero at power-up. -/
def powered : Circuit where
  fetching :=
    { pacoblaze :=
        { programCounter := 0, timingControl := false, zero := false, carry := false,
          interruptEnable := false
          interruptLatch := false, interruptAck := false, zeroSaved := false, carrySaved := false
          resetLatch := 0, zeroCarryWriteEnable := false, readStrobe := false, writeStrobe := false
          registerXWriteEnable := false, scratchWriteEnable := false, dpr := fun _ => 0, ptr := 0
          spr := fun _ => 0, scratch := fun _ => 0 }
      instruction := 0 }
  inPort := 0
  interrupt := false
  led := 0
  led0 := false

/-- It is a power-up. -/
theorem powered_powerUp : powered.PowerUp := ⟨rfl, rfl, rfl, rfl, rfl, rfl, rfl, rfl, rfl, rfl⟩

/-- An interrupt event in every cycle, and the same byte at the input. -/
def eventful (_ : Nat) : Input where
  interruptEvent := true
  inputData := 0x40
  unconnected := 0

/-- The thirtieth cycle of a run with interrupt events. -/
theorem in_step_powered :
    SameControl (circuit eventful powered 30) (coarseRun eventful powered 30) ∧
      ((coarseRun eventful powered 30).timingControl = false →
        Between outdata (circuit eventful powered 30).fetching
          { cpu := (coarseRun eventful powered 30).cpu
            pending := (coarseRun eventful powered 30).interruptLatch }) ∧
      (coarseRun eventful powered 30).cpu.stack.length ≤ 6 ∧
      ((coarseRun eventful powered 30).timingControl = false →
        (coarseRun eventful powered 30).interruptLatch = false →
        (code (circuit eventful powered 30).fetching.instruction).pops
          (coarseRun eventful powered 30).cpu = true →
        (coarseRun eventful powered 30).cpu.stack ≠ []) :=
  in_step eventful powered powered_powerUp 30

end CpenLabs.PracPicoCircuit
