import CpenLabs.InterruptTransparency
import CpenLabs.RequestService

/-!
# The processor with its interrupt flip-flop

`picoblaze_template` of lab3: the KCPSM3 processor as pacoblaze3 implements it, with
two clock cycles for each instruction, and the flip-flop that turns an interrupt event
into a request. The flip-flop does not hold the request. It takes over the event of
each cycle, and is kept at zero while the processor acknowledges an interrupt.

The registers of the processor change in the first cycle of an instruction here. In
the circuit some of them change in the second one, before anything can depend on it.
INPUT takes the byte that is on `input_data` in its first cycle, since the register
`in_port` passes it on to the second one; the program reads no port but port 0.

With pracPICO.psm this is a server without a queue: the service routine reads the
sample once, and a request that comes while it runs is lost.
-/

namespace CpenLabs.PicoblazeTemplate

open Clocked Kcpsm3 PracPico InterruptedRun ServiceRoutine MainProgram InterruptTransparency
open RequestService

/-- The processor between two instructions with the control registers of pacoblaze3,
and the flip-flop `interrupt`. -/
structure Template where
  cpu : Cpu
  timingControl : Bool
  interruptLatch : Bool
  interruptAck : Bool
  interrupt : Bool

/-- The inputs of one clock cycle. -/
structure Input where
  interruptEvent : Bool
  inputData : Byte

/-- The processor enters the interrupt service in this cycle. -/
def Template.entering (template : Template) : Bool := !template.timingControl && template.interruptLatch

/-- The processor executes an instruction in this cycle. -/
def Template.executing (template : Template) : Bool := !template.timingControl && !template.interruptLatch

/-- One clock cycle. The acknowledge resets the flip-flop as soon as it rises, and holds
it during the cycle after that. -/
def Template.step (program : Program) (input : Input) (template : Template) : Template where
  cpu :=
    if template.entering then Kcpsm3.interrupt template.cpu
    else if template.executing then exec (program template.cpu.pc) input.inputData template.cpu
    else template.cpu
  timingControl := !template.timingControl
  interruptLatch :=
    !template.entering &&
      (template.interrupt && template.cpu.interruptEnable || template.interruptLatch)
  interruptAck := template.entering
  interrupt := !template.entering && !template.interruptAck && input.interruptEvent

/-- A request in this cycle would be the next one to be served: interrupts are enabled
and no earlier request is latched. -/
def Template.idle (template : Template) : Bool :=
  template.cpu.interruptEnable && !template.interruptLatch

/-- The processor executes INPUT in this cycle. -/
def Template.reading (program : Program) (template : Template) : Bool :=
  template.executing && (event (program template.cpu.pc) template.cpu).reads

/-- The processor executes ENABLE INTERRUPT in this cycle. -/
def Template.enabling (program : Program) (template : Template) : Bool :=
  template.executing && (program template.cpu.pc).enables

section Cycles

variable (program : Program) (inputs : Nat → Input) (start : Template)

/-- The registers in each clock cycle. -/
abbrev template (cycle : Nat) : Template := run (Template.step program) inputs start cycle

theorem template_succ (cycle : Nat) :
    template program inputs start (cycle + 1) =
      Template.step program (inputs cycle) (template program inputs start cycle) := rfl

/-- `Template.idle` in a cycle of the run. -/
def Idle (cycle : Nat) : Prop := (template program inputs start cycle).idle = true

/-- `Template.reading` in a cycle of the run. -/
def Reading (cycle : Nat) : Prop := (template program inputs start cycle).reading program = true

/-- The flip-flop `interrupt` is set. -/
def Requested (cycle : Nat) : Prop := (template program inputs start cycle).interrupt = true

/-- An instruction begins in the cycle. -/
structure Begins (cycle : Nat) (cpu : Cpu) : Prop where
  here : (template program inputs start cycle).cpu = cpu
  timingControl : (template program inputs start cycle).timingControl = false
  unlatched : (template program inputs start cycle).interruptLatch = false

/-- For some cycles the processor neither reads a port nor would take up a request. -/
def Computes (first last : Nat) : Prop :=
  ∀ cycle, first ≤ cycle → cycle < last →
    ¬ Idle program inputs start cycle ∧ ¬ Reading program inputs start cycle

variable {program inputs start}

/-- Two stretches of a computation make one. -/
theorem Computes.trans {first middle last : Nat} (before : Computes program inputs start first middle)
    (after : Computes program inputs start middle last) : Computes program inputs start first last := by
  intro cycle low high
  by_cases earlier : cycle < middle
  · exact before cycle low earlier
  · exact after cycle (Nat.le_of_not_lt earlier) high

/-- The first cycle of an instruction with interrupts disabled. -/
theorem Begins.executes {cycle : Nat} {cpu : Cpu} (begins : Begins program inputs start cycle cpu)
    (masked : cpu.interruptEnable = false) :
    (template program inputs start (cycle + 1)).cpu = exec (program cpu.pc) (inputs cycle).inputData cpu ∧
      (template program inputs start (cycle + 1)).timingControl = true ∧
      (template program inputs start (cycle + 1)).interruptLatch = false := by
  obtain ⟨here, timingControl, unlatched⟩ := begins
  rw [template_succ]
  simp only [Template.step, Template.entering, Template.executing, here, timingControl, unlatched, masked,
    Bool.not_false, Bool.and_false, Bool.and_true, Bool.or_false, Bool.false_eq_true, ↓reduceIte, and_self]

/-- The next instruction begins two cycles later, if interrupts stay disabled. -/
theorem Begins.next {cycle : Nat} {cpu after : Cpu} (begins : Begins program inputs start cycle cpu)
    (masked : cpu.interruptEnable = false)
    (result : exec (program cpu.pc) (inputs cycle).inputData cpu = after)
    (still : after.interruptEnable = false) : Begins program inputs start (cycle + 2) after := by
  obtain ⟨executed, timingControl, unlatched⟩ := begins.executes masked
  rw [result] at executed
  constructor <;> rw [template_succ] <;>
    simp only [Template.step, Template.entering, Template.executing, executed, timingControl, unlatched,
      still, Bool.not_true, Bool.not_false, Bool.false_and, Bool.and_false, Bool.or_false, Bool.true_and,
      Bool.false_eq_true, ↓reduceIte]

/-- The processor does not take up requests while interrupts are disabled. -/
theorem not_idle {cycle : Nat}
    (masked : (template program inputs start cycle).cpu.interruptEnable = false) :
    ¬ Idle program inputs start cycle := by
  simp [Idle, Template.idle, masked]

/-- A processor that is about to enter the service is not idle and does not read. -/
theorem latched_computes {cycle : Nat}
    (latched : (template program inputs start cycle).interruptLatch = true) :
    Computes program inputs start cycle (cycle + 1) := by
  intro other low high
  obtain rfl := Nat.le_antisymm low (Nat.le_of_lt_succ high)
  constructor
  · simp [Idle, Template.idle, latched]
  · simp [Reading, Template.reading, Template.executing, latched]

/-- The second cycle of an instruction with interrupts disabled. -/
theorem second_computes {cycle : Nat}
    (masked : (template program inputs start cycle).cpu.interruptEnable = false)
    (timingControl : (template program inputs start cycle).timingControl = true) :
    Computes program inputs start cycle (cycle + 1) := by
  intro other low high
  obtain rfl := Nat.le_antisymm low (Nat.le_of_lt_succ high)
  constructor
  · exact not_idle masked
  · simp [Reading, Template.reading, Template.executing, timingControl]

/-- The first cycle of an instruction that does not read. -/
theorem Begins.computes {cycle : Nat} {cpu : Cpu} (begins : Begins program inputs start cycle cpu)
    (masked : cpu.interruptEnable = false) (unread : (event (program cpu.pc) cpu).reads = false) :
    Computes program inputs start cycle (cycle + 1) := by
  obtain ⟨rfl, _, _⟩ := begins
  intro other low high
  obtain rfl := Nat.le_antisymm low (Nat.le_of_lt_succ high)
  constructor
  · exact not_idle masked
  · simp [Reading, Template.reading, unread]

/-- Both cycles of an instruction that does not read and keeps interrupts disabled. -/
theorem Begins.whole {cycle : Nat} {cpu after : Cpu} (begins : Begins program inputs start cycle cpu)
    (masked : cpu.interruptEnable = false) (unread : (event (program cpu.pc) cpu).reads = false)
    (result : exec (program cpu.pc) (inputs cycle).inputData cpu = after)
    (still : after.interruptEnable = false) :
    Begins program inputs start (cycle + 2) after ∧ Computes program inputs start cycle (cycle + 2) := by
  obtain ⟨executed, timingControl, _⟩ := begins.executes masked
  refine ⟨begins.next masked result still, (begins.computes masked unread).trans (second_computes ?_ timingControl)⟩
  rw [executed, result, still]

/-- A service that reads nothing more runs to its end, two cycles for each instruction
but one cycle for the last. -/
theorem service_cycles {sample : Byte} {cpu last : Cpu} {trace : List Event}
    (service : Service program sample cpu trace last) (unread : ∀ access ∈ trace, access.reads = false)
    (cycle : Nat) (begins : Begins program inputs start cycle cpu) :
    ∃ final, final + 2 = cycle + 2 * trace.length ∧ Computes program inputs start cycle (final + 1) ∧
      (template program inputs start (final + 1)).cpu = last ∧
      (template program inputs start (final + 1)).interruptLatch = false := by
  induction service generalizing cycle with
  | returni cpu masked returning =>
    have silent := unread _ (List.mem_singleton_self _)
    obtain ⟨executed, _, unlatched⟩ := begins.executes masked
    refine ⟨cycle, rfl, begins.computes masked silent, ?_, unlatched⟩
    rw [executed, exec_unread _ _ silent _ sample]
  | @step cpu last trace masked continuing rest inductionHypothesis =>
    have silent := unread _ List.mem_cons_self
    obtain ⟨next, computes⟩ := begins.whole masked silent (exec_unread _ _ silent _ sample) rest.masked
    obtain ⟨final, length, more, arrives⟩ :=
      inductionHypothesis (fun access inside => unread access (List.mem_cons_of_mem _ inside)) (cycle + 2) next
    refine ⟨final, ?_, computes.trans more, arrives⟩
    rw [length, List.length_cons]
    omega

/-- Up to its INPUT instruction a service is the same for every sample. -/
theorem service_input {port : Byte} (good : Byte → List Event → Cpu → Prop) (steps : Nat) (cpu : Cpu)
    (cycle : Nat) (begins : Begins program inputs start cycle cpu)
    (service : ∀ sample, ∃ trace last,
      Service program sample cpu (List.replicate steps .silent ++ .read port :: trace) last ∧
        good sample trace last) :
    ∃ next, Begins program inputs start (cycle + 2 * steps) next ∧
      Computes program inputs start cycle (cycle + 2 * steps) ∧
      ∀ sample, ∃ trace last, Service program sample next (.read port :: trace) last ∧
        good sample trace last := by
  induction steps generalizing cpu cycle with
  | zero => exact ⟨cpu, begins, fun other low high => absurd high (Nat.not_lt_of_le low), service⟩
  | succ steps inductionHypothesis =>
    have further : ∀ trace : List Event, List.replicate steps Event.silent ++ .read port :: trace ≠ [] := by
      simp
    obtain ⟨_, _, any, _⟩ := service 0
    have unread : (event (program cpu.pc) cpu).reads = false := by
      rw [(any.continues (further _)).1]
      rfl
    have onward : ∀ sample, ∃ trace last,
        Service program sample (exec (program cpu.pc) (inputs cycle).inputData cpu)
          (List.replicate steps .silent ++ .read port :: trace) last ∧ good sample trace last := by
      intro sample
      obtain ⟨trace, last, runs, isGood⟩ := service sample
      rw [exec_unread _ _ unread _ sample]
      exact ⟨trace, last, (runs.continues (further trace)).2, isGood⟩
    obtain ⟨_, _, rest, _⟩ := onward 0
    obtain ⟨next, computes⟩ := begins.whole any.masked unread rfl rest.masked
    obtain ⟨reader, arrives, more, reads⟩ := inductionHypothesis _ (cycle + 2) next onward
    rw [show cycle + 2 * (steps + 1) = cycle + 2 + 2 * steps by omega]
    exact ⟨reader, arrives, computes.trans more, reads⟩

/-- After the service has been entered interrupts are disabled. -/
theorem entering_masked {cycle : Nat} (entering : (template program inputs start cycle).entering = true) :
    (template program inputs start (cycle + 1)).cpu.interruptEnable = false ∧
      (template program inputs start (cycle + 1)).timingControl = true := by
  have first : (template program inputs start cycle).timingControl = false := by
    simp only [Template.entering, Bool.and_eq_true, Bool.not_eq_true'] at entering
    exact entering.1
  rw [template_succ]
  simp only [Template.step, entering, first, ↓reduceIte, Bool.not_false, and_true]
  rfl

/-- The flip-flop is set by an event only. -/
theorem requested_event (cycle : Nat) (requested : Requested program inputs start (cycle + 1)) :
    (inputs cycle).interruptEvent = true := by
  rw [Requested, template_succ] at requested
  simp only [Template.step, Bool.and_eq_true] at requested
  exact requested.2

/-- An event sets the flip-flop if the processor is idle in the next cycle: while an
interrupt is acknowledged, interrupts are disabled. -/
theorem event_requested (cycle : Nat) (event : (inputs (cycle + 1)).interruptEvent = true)
    (idle : Idle program inputs start (cycle + 2)) : Requested program inputs start (cycle + 2) := by
  have enabled : (template program inputs start (cycle + 2)).cpu.interruptEnable = true := by
    by_contra masked
    exact not_idle (Bool.eq_false_of_not_eq_true masked) idle
  have notEntering : (template program inputs start (cycle + 1)).entering = false := by
    by_contra entering
    rw [(entering_masked (Bool.eq_true_of_not_eq_false entering)).1] at enabled
    cases enabled
  have notAcknowledged : (template program inputs start (cycle + 1)).interruptAck = false := by
    by_contra acknowledged
    obtain ⟨masked, second⟩ := entering_masked (Bool.eq_true_of_not_eq_false acknowledged)
    rw [template_succ] at enabled
    simp only [Template.step, notEntering, Template.executing, second, masked, Bool.not_true, Bool.false_and,
      Bool.false_eq_true, ↓reduceIte] at enabled
  rw [Requested, template_succ]
  simp only [Template.step, notEntering, notAcknowledged, event, Bool.not_false, Bool.and_self]

/-- A latched request waits for the end of the instruction. -/
theorem latched_waits {cycle : Nat}
    (latched : (template program inputs start cycle).interruptLatch = true)
    (timingControl : (template program inputs start cycle).timingControl = true) :
    (template program inputs start (cycle + 1)).cpu = (template program inputs start cycle).cpu ∧
      (template program inputs start (cycle + 1)).interruptLatch = true ∧
      (template program inputs start (cycle + 1)).timingControl = false := by
  rw [template_succ]
  simp only [Template.step, Template.entering, Template.executing, latched, timingControl, Bool.not_true,
    Bool.false_and, Bool.not_false, Bool.true_and, Bool.or_true, Bool.false_eq_true, ↓reduceIte, and_self]

/-- The first cycle in which the service has been entered. -/
theorem latched_enters {cycle : Nat}
    (latched : (template program inputs start cycle).interruptLatch = true)
    (timingControl : (template program inputs start cycle).timingControl = false) :
    (template program inputs start (cycle + 1)).cpu = interrupt (template program inputs start cycle).cpu ∧
      (template program inputs start (cycle + 1)).interruptLatch = false ∧
      (template program inputs start (cycle + 1)).timingControl = true := by
  rw [template_succ]
  simp only [Template.step, Template.entering, latched, timingControl, Bool.not_false, Bool.and_self,
    Bool.not_true, Bool.false_and, ↓reduceIte, and_self]

/-- The routine's first instruction begins two cycles after the request is taken. -/
theorem service_begins {entry : Nat}
    (latched : (template program inputs start entry).interruptLatch = true)
    (timingControl : (template program inputs start entry).timingControl = false) :
    Begins program inputs start (entry + 2) (interrupt (template program inputs start entry).cpu) ∧
      Computes program inputs start entry (entry + 2) := by
  obtain ⟨entered, unlatched, second⟩ := latched_enters latched timingControl
  have masked : (template program inputs start (entry + 1)).cpu.interruptEnable = false := by
    rw [entered]
    rfl
  refine ⟨?_, (latched_computes latched).trans (second_computes masked second)⟩
  constructor <;> rw [template_succ] <;>
    simp only [Template.step, Template.entering, Template.executing, unlatched, second, masked, ← entered,
      Bool.not_true, Bool.not_false, Bool.false_and, Bool.and_false, Bool.or_false, Bool.true_and,
      Bool.false_eq_true, ↓reduceIte]

/-- A service that reads in one cycle and computes before and after it. -/
theorem served_of_computes {cycle read last shortest longest : Nat} {cpu : Cpu}
    (unread : ¬ Reading program inputs start cycle) (begins : Begins program inputs start read cpu)
    (masked : cpu.interruptEnable = false) (access : (event (program cpu.pc) cpu).reads = true)
    (before : Computes program inputs start (cycle + 1) read)
    (after : Computes program inputs start (read + 1) (last + 1))
    (first : cycle < read) (ordered : read ≤ last)
    (atLeast : cycle + shortest ≤ last) (atMost : last ≤ cycle + longest) :
    Served (Idle program inputs start) (Reading program inputs start) shortest longest cycle read last := by
  obtain ⟨rfl, timingControl, unlatched⟩ := begins
  refine ⟨first, ordered, ?_, ?_, ?_, atLeast, atMost⟩
  · simp [Reading, Template.reading, Template.executing, timingControl, unlatched, access]
  · intro other low high reads
    obtain same | later := Nat.eq_or_lt_of_le low
    · exact absurd (same ▸ reads) unread
    · obtain earlier | same | later' := Nat.lt_trichotomy other read
      · exact absurd reads (before other later earlier).2
      · exact same
      · exact absurd reads (after other later' (Nat.lt_succ_of_le high)).2
  · intro other low high
    obtain earlier | rfl | later := Nat.lt_trichotomy other read
    · exact (before other low earlier).1
    · exact not_idle masked
    · exact (after other later (Nat.lt_succ_of_le high)).1

end Cycles

section PracPico

variable {constants : Constants} {inputs : Nat → Input} {start : Template}

variable (constants inputs start) in
/-- Between two services: the processor is in the main program, and idle. -/
structure Resting (cycle : Nat) : Prop where
  nested : Nested start.cpu.stack (template (program constants) inputs start cycle).cpu.pc
    (template (program constants) inputs start cycle).cpu.stack
  enabled : (template (program constants) inputs start cycle).cpu.interruptEnable = true
  unlatched : (template (program constants) inputs start cycle).interruptLatch = false

/-- At rest no service is running. -/
theorem Resting.idle {cycle : Nat} (resting : Resting constants inputs start cycle) :
    Idle (program constants) inputs start cycle := by
  simp [Idle, Template.idle, resting.enabled, resting.unlatched]

/-- The main program reads no port. -/
theorem Resting.unread {cycle : Nat} (resting : Resting constants inputs start cycle) :
    ¬ Reading (program constants) inputs start cycle := by
  have isPlain := (nested_step constants 0 _ resting.nested).1
  simp [Reading, Template.reading, plain_unread _ isPlain]

/-- A cycle of the main program. A request is latched at its end. -/
theorem Resting.advance {cycle : Nat} (resting : Resting constants inputs start cycle) :
    Nested start.cpu.stack (template (program constants) inputs start (cycle + 1)).cpu.pc
        (template (program constants) inputs start (cycle + 1)).cpu.stack ∧
      (template (program constants) inputs start (cycle + 1)).cpu.interruptEnable = true ∧
      (template (program constants) inputs start (cycle + 1)).interruptLatch =
        (template (program constants) inputs start cycle).interrupt := by
  obtain ⟨nested, enabled, unlatched⟩ := resting
  obtain ⟨_, onward, kept⟩ := nested_step constants (inputs cycle).inputData _ nested
  rw [template_succ]
  simp only [Template.step, Template.entering, Template.executing, unlatched, enabled, Bool.and_false,
    Bool.not_false, Bool.and_true, Bool.true_and, Bool.or_false, Bool.false_eq_true, ↓reduceIte, and_true]
  split_ifs with executes
  · exact ⟨onward, kept.trans enabled⟩
  · exact ⟨nested, enabled⟩

/-- Without a request the main program goes on. -/
theorem Resting.rests {cycle : Nat} (resting : Resting constants inputs start cycle)
    (quiet : ¬ Requested (program constants) inputs start cycle) :
    Resting constants inputs start (cycle + 1) := by
  obtain ⟨nested, enabled, latched⟩ := resting.advance
  exact ⟨nested, enabled, latched.trans (Bool.eq_false_of_not_eq_true quiet)⟩

/-- With a request the service is entered one or two cycles later, at the end of the
instruction. -/
theorem Resting.enters {cycle : Nat} (resting : Resting constants inputs start cycle)
    (requested : Requested (program constants) inputs start cycle) :
    ∃ entry cpu, cycle + 1 ≤ entry ∧ entry ≤ cycle + 2 ∧
      Computes (program constants) inputs start (cycle + 1) (entry + 2) ∧
      Begins (program constants) inputs start (entry + 2) (interrupt cpu) ∧
      Nested start.cpu.stack cpu.pc cpu.stack ∧ cpu.interruptEnable = true := by
  obtain ⟨nested, enabled, latched⟩ := resting.advance
  rw [show _ = true from requested] at latched
  cases timingControl : (template (program constants) inputs start (cycle + 1)).timingControl with
  | false =>
    obtain ⟨begins, computes⟩ := service_begins latched timingControl
    exact ⟨cycle + 1, _, Nat.le_refl _, Nat.le_succ _, computes, begins, nested, enabled⟩
  | true =>
    obtain ⟨same, still, first⟩ := latched_waits latched timingControl
    obtain ⟨begins, computes⟩ := service_begins still first
    rw [same] at begins
    exact ⟨cycle + 2, _, Nat.le_succ _, Nat.le_refl _, (latched_computes latched).trans computes, begins,
      nested, enabled⟩

/-- The service routine as a server: it reads the sample once and comes back to the
main program. -/
theorem Resting.serves {cycle : Nat} (resting : Resting constants inputs start cycle)
    (requested : Requested (program constants) inputs start cycle) :
    ∃ read last,
      Served (Idle (program constants) inputs start) (Reading (program constants) inputs start) 51 100
        cycle read last ∧
      Resting constants inputs start (last + 1) := by
  obtain ⟨entry, cpu, low, high, entering, begins, nested, enabled⟩ := resting.enters requested
  obtain ⟨reader, reading, before, reads⟩ := service_input
    (fun sample trace last => (∀ access ∈ trace, access.reads = false) ∧ 16 ≤ trace.length ∧
      trace.length ≤ 40 ∧ Agrees last cpu) 8 (interrupt cpu) (entry + 2) begins (by
      intro sample
      obtain ⟨rest, trace, unread, atLeast, atMost⟩ :=
        serviceTrace_rest sample (readFilter constants (interrupt cpu).scratch)
      exact ⟨rest, _, trace ▸ service_routine constants sample (interrupt cpu) rfl rfl, unread, atLeast, atMost,
        (routine constants).agrees sample cpu enabled⟩)
  obtain ⟨trace, last, service, unread, atLeast, atMost, agrees⟩ := reads (inputs (entry + 2 + 2 * 8)).inputData
  have further : trace ≠ [] := List.ne_nil_of_length_pos (by omega)
  obtain ⟨access, rest⟩ := service.continues further
  obtain ⟨executed, second, _⟩ := reading.executes service.masked
  obtain ⟨final, length, after, arrives, unlatched⟩ :=
    service_cycles rest unread (entry + 2 + 2 * 8 + 2) (reading.next service.masked rfl rest.masked)
  have between := second_computes (by rw [executed]; exact rest.masked) second
  refine ⟨entry + 2 + 2 * 8, final, ?_, ?_, ?_, unlatched⟩
  · exact served_of_computes resting.unread reading service.masked (by rw [access]; rfl) (entering.trans before)
      (between.trans after) (by omega) (by omega) (by omega) (by omega)
  · rw [arrives, agrees.pc, agrees.stack]
    exact nested
  · rw [arrives, agrees.interruptEnable, enabled]

/-- The reset values of pacoblaze. The other registers may hold anything. -/
structure Reset (template : Template) : Prop where
  pc : template.cpu.pc = 0
  interruptEnable : template.cpu.interruptEnable = false
  timingControl : template.timingControl = false
  interruptLatch : template.interruptLatch = false

/-- The instructions of the cold start before ENABLE INTERRUPT. -/
theorem coldStart_exec (constants : Constants) (place : Nat) (early : place < 6) (cpu : Cpu) (inPort : Byte)
    (here : cpu.pc = BitVec.ofNat 10 place) :
    (exec (program constants cpu.pc) inPort cpu).pc = BitVec.ofNat 10 (place + 1) ∧
      (exec (program constants cpu.pc) inPort cpu).interruptEnable = cpu.interruptEnable ∧
      (exec (program constants cpu.pc) inPort cpu).stack = cpu.stack ∧
      (program constants cpu.pc).enables = false := by
  rw [here]
  interval_cases place <;> simp [coldStart_code, exec, here, Instruction.enables]

/-- The instructions of the cold start begin in the even cycles. -/
theorem coldStart_begins (reset : Reset start) (place : Nat) (early : place ≤ 6) :
    ∃ cpu, Begins (program constants) inputs start (2 * place) cpu ∧ cpu.pc = BitVec.ofNat 10 place ∧
      cpu.interruptEnable = false ∧ cpu.stack = start.cpu.stack := by
  induction place with
  | zero =>
    exact ⟨start.cpu, ⟨rfl, reset.timingControl, reset.interruptLatch⟩, reset.pc, reset.interruptEnable, rfl⟩
  | succ place inductionHypothesis =>
    obtain ⟨cpu, begins, here, masked, stack⟩ := inductionHypothesis (Nat.le_of_succ_le early)
    obtain ⟨onward, kept, same, _⟩ := coldStart_exec constants place early cpu (inputs (2 * place)).inputData here
    exact ⟨_, begins.next masked rfl (kept.trans masked), onward, kept.trans masked, same.trans stack⟩

/-- ENABLE INTERRUPT is executed in cycle 12, and the processor rests after it. -/
theorem coldStart_ends (reset : Reset start) :
    (template (program constants) inputs start 12).enabling (program constants) = true ∧
      Resting constants inputs start 13 := by
  obtain ⟨cpu, begins, here, masked, stack⟩ :=
    @coldStart_begins constants inputs start reset 6 (Nat.le_refl 6)
  obtain ⟨executed, _, unlatched⟩ := begins.executes masked
  have code : program constants cpu.pc = .interrupt true := by
    rw [here]
    rfl
  rw [code] at executed
  constructor
  · obtain ⟨rfl, timingControl, latch⟩ := begins
    simp only [Template.enabling, Template.executing, timingControl, latch, code, Instruction.enables,
      Bool.not_false, Bool.and_self]
  · refine ⟨?_, ?_, unlatched⟩
    · rw [executed, ← stack]
      simp only [exec, here]
      exact .main rfl
    · rw [executed]
      rfl

/-- Before that cycle ENABLE INTERRUPT is not executed. -/
theorem coldStart_masked (reset : Reset start) (cycle : Nat) (early : cycle < 12) :
    (template (program constants) inputs start cycle).enabling (program constants) = false := by
  obtain ⟨cpu, begins, here, masked, _⟩ :=
    @coldStart_begins constants inputs start reset (cycle / 2) (by omega)
  cases Nat.mod_two_eq_zero_or_one cycle with
  | inl even =>
    obtain ⟨_, _, _, other⟩ := coldStart_exec constants (cycle / 2) (by omega) cpu 0 here
    rw [show 2 * (cycle / 2) = cycle by omega] at begins
    obtain ⟨rfl, _, _⟩ := begins
    simp only [Template.enabling, other, Bool.and_false]
  | inr odd =>
    have second := (begins.executes masked).2.1
    rw [show 2 * (cycle / 2) + 1 = cycle by omega] at second
    simp only [Template.enabling, Template.executing, second, Bool.not_true, Bool.false_and]

/-- Interrupts have been enabled from cycle 12 on. -/
theorem enabled_iff (reset : Reset start) (cycle : Nat) :
    (∃ earlier ≤ cycle, (template (program constants) inputs start earlier).enabling (program constants) = true) ↔
      12 ≤ cycle := by
  constructor
  · rintro ⟨earlier, ordered, enabling⟩
    by_contra early
    rw [coldStart_masked reset earlier (by omega)] at enabling
    cases enabling
  · exact fun late => ⟨12, late, (coldStart_ends reset).1⟩

/-- From cycle 13 on the processor is a server that takes up the request of the
flip-flop. -/
theorem server (reset : Reset start) :
    Server (Idle (program constants) inputs start) (Resting constants inputs start)
      (Requested (program constants) inputs start) (Reading (program constants) inputs start) 51 100 13 where
  initially := (coldStart_ends reset).2
  ready _ resting := resting.idle
  quiet _ _ resting := resting.unread
  rests _ _ resting quiet := resting.rests quiet
  serves _ _ resting requested := resting.serves requested

end PracPico

end CpenLabs.PicoblazeTemplate
