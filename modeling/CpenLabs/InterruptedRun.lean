import CpenLabs.Clocked
import CpenLabs.Kcpsm3

/-!
# Runs with interrupts

A run of the processor under a schedule of interrupt requests. In each step the
request is taken, if there is one and interrupts are enabled, and else the next
instruction is executed. The run keeps count of the services begun and reads the
same sample throughout one service.

Nothing here depends on the program. If its service routine restores what the main
code relies on, and the main code neither touches the scratch memory nor reads a
port, then the main code runs as it does without interrupts, and the routine may
keep a state of its own in the scratch memory. Both facts are proved together: the
invariant follows the interrupt-free run and looks ahead to the end of the service.
-/

namespace CpenLabs.InterruptedRun

open Clocked Kcpsm3

/-- The processor, the number of services begun so far, and whether one is running. -/
structure Machine where
  cpu : Cpu
  begun : Nat
  inService : Bool

/-- The request is taken in this step. -/
def taken (irq : Bool) (machine : Machine) : Bool := irq && machine.cpu.interruptEnable

/-- One step. Samples are numbered by the services, from one on. -/
def step (program : Program) (samples : Nat → Byte) (irq : Bool) (machine : Machine) : Machine :=
  if taken irq machine then
    { cpu := interrupt machine.cpu, begun := machine.begun + 1, inService := true }
  else
    { cpu := exec (program machine.cpu.pc) (samples machine.begun) machine.cpu
      begun := machine.begun
      inService := machine.inService && !(program machine.cpu.pc).returns }

/-- The port access of a step. -/
def observed (program : Program) (irq : Bool) (machine : Machine) : Event :=
  if taken irq machine then .silent else event (program machine.cpu.pc) machine.cpu

/-- The value that an event stores in the output register which is selected by one bit
of the port address. -/
def written (bit : Nat) : Event → Option Byte
  | .write port value => if port.getLsbD bit then some value else none
  | _ => none

section Runs

variable (program : Program) (samples : Nat → Byte) (irq : Nat → Bool) (start : Machine)

/-- The machine before each step. -/
abbrev machine (cycle : Nat) : Machine := run (step program samples) irq start cycle

/-- The machine of the run without any interrupt. -/
abbrev undisturbed (cycle : Nat) : Machine := machine program samples (fun _ => false) start cycle

/-- The port accesses of some steps in a row. -/
def events (first count : Nat) : List Event :=
  (List.range' first count).map fun cycle => observed program (irq cycle) (machine program samples irq start cycle)

/-- The values stored in an output register in some steps in a row. -/
def writes (bit first count : Nat) : List Byte :=
  (events program samples irq start first count).filterMap (written bit)

/-- The step executes an instruction of the main code. -/
def Main (cycle : Nat) : Prop :=
  (machine program samples irq start cycle).inService = false ∧
    taken (irq cycle) (machine program samples irq start cycle) = false

instance : DecidablePred (Main program samples irq start) := fun _ => instDecidableAnd

/-- The accesses of the first step come first. -/
theorem events_cons (first count : Nat) :
    events program samples irq start first (count + 1) =
      observed program (irq first) (machine program samples irq start first) ::
        events program samples irq start (first + 1) count := by
  simp only [events, List.range'_succ, List.map_cons]

/-- The accesses of two stretches follow one another. -/
theorem events_append (first count more : Nat) :
    events program samples irq start first (count + more) =
      events program samples irq start first count ++
        events program samples irq start (first + count) more := by
  simp only [events, ← List.map_append, List.range'_append_1]

/-- So do the values stored. -/
theorem writes_append (bit first count more : Nat) :
    writes program samples irq start bit first (count + more) =
      writes program samples irq start bit first count ++
        writes program samples irq start bit (first + count) more := by
  simp only [writes, events_append, List.filterMap_append]

/-- A step that takes a request begins a service. -/
theorem machine_taken (cycle : Nat)
    (request : taken (irq cycle) (machine program samples irq start cycle) = true) :
    machine program samples irq start (cycle + 1) =
      { cpu := interrupt (machine program samples irq start cycle).cpu
        begun := (machine program samples irq start cycle).begun + 1
        inService := true } := by
  rw [machine, run_succ, step, if_pos request]

/-- Every other step executes an instruction. -/
theorem machine_untaken (cycle : Nat)
    (untaken : taken (irq cycle) (machine program samples irq start cycle) = false) :
    machine program samples irq start (cycle + 1) =
      { cpu := exec (program (machine program samples irq start cycle).cpu.pc)
          (samples (machine program samples irq start cycle).begun)
          (machine program samples irq start cycle).cpu
        begun := (machine program samples irq start cycle).begun
        inService := (machine program samples irq start cycle).inService &&
          !(program (machine program samples irq start cycle).cpu.pc).returns } := by
  rw [machine, run_succ, step, if_neg (ne_true_of_eq_false untaken)]

/-- An instruction is observed by its port access. -/
theorem observed_untaken (cycle : Nat)
    (untaken : taken (irq cycle) (machine program samples irq start cycle) = false) :
    observed program (irq cycle) (machine program samples irq start cycle) =
      event (program (machine program samples irq start cycle).cpu.pc)
        (machine program samples irq start cycle).cpu := by
  rw [observed, if_neg (ne_true_of_eq_false untaken)]

/-- A request is taken with interrupts enabled. -/
theorem taken_enabled {irq : Bool} {machine : Machine} (request : taken irq machine = true) :
    machine.cpu.interruptEnable = true := by
  rw [taken, Bool.and_eq_true] at request
  exact request.2

/-- No request is taken while interrupts are disabled. -/
theorem taken_masked {irq : Bool} {machine : Machine} (masked : machine.cpu.interruptEnable = false) :
    taken irq machine = false := by
  rw [taken, masked, Bool.and_false]

/-- A cycle of a service with interrupts disabled executes and observes one instruction. -/
theorem service_cycle {cpu : Cpu} (begun first : Nat) (masked : cpu.interruptEnable = false)
    (here : machine program samples irq start first = { cpu, begun, inService := true }) :
    machine program samples irq start (first + 1) =
        { cpu := exec (program cpu.pc) (samples begun) cpu
          begun
          inService := !(program cpu.pc).returns } ∧
      observed program (irq first) (machine program samples irq start first) =
        event (program cpu.pc) cpu := by
  have untaken : taken (irq first) (machine program samples irq start first) = false := by
    rw [here]
    exact taken_masked masked
  constructor
  · rw [machine_untaken program samples irq start first untaken, here]
    rfl
  · rw [observed_untaken program samples irq start first untaken, here]

/-- One execution of the service routine: its number, counted from one on, the step that
takes the request, and the number of steps from there to the end, in all of which it is
the one that runs. -/
structure Execution (number first steps : Nat) : Prop where
  request : taken (irq first) (machine program samples irq start first) = true
  counted : (machine program samples irq start first).begun + 1 = number
  lasts : 0 < steps
  running : ∀ count < steps, (machine program samples irq start (first + 1 + count)).inService = true ∧
    (machine program samples irq start (first + 1 + count)).begun = number
  ended : (machine program samples irq start (first + 1 + steps)).inService = false ∧
    (machine program samples irq start (first + 1 + steps)).begun = number

/-- The step executes an INPUT instruction, and this is the byte that it reads. -/
def ReadsSample (cycle : Nat) (sample : Byte) : Prop :=
  taken (irq cycle) (machine program samples irq start cycle) = false ∧
    ∃ x port, program (machine program samples irq start cycle).cpu.pc = .input x port ∧
      (machine program samples irq start (cycle + 1)).cpu.regs x = sample

/-- A step that reads a port executes an INPUT instruction, on the sample of the service. -/
theorem reads_sample (cycle : Nat)
    (reads : (observed program (irq cycle) (machine program samples irq start cycle)).reads = true) :
    ReadsSample program samples irq start cycle
      (samples (machine program samples irq start cycle).begun) := by
  have untaken : taken (irq cycle) (machine program samples irq start cycle) = false := by
    by_contra request
    rw [observed, if_pos (Bool.eq_true_of_not_eq_false request)] at reads
    cases reads
  rw [observed_untaken program samples irq start cycle untaken] at reads
  refine ⟨untaken, ?_⟩
  rw [machine_untaken program samples irq start cycle untaken]
  cases code : program (machine program samples irq start cycle).cpu.pc with
  | input x port => exact ⟨x, port, rfl, Function.update_self ..⟩
  | _ =>
    rw [code] at reads
    cases reads

/-- An execution with a port access that reads has an INPUT instruction, on the sample of
its number. -/
theorem Execution.reads {number first steps : Nat} {access : Event}
    (execution : Execution program samples irq start number first steps)
    (inside : access ∈ events program samples irq start (first + 1) steps) (reads : access.reads = true) :
    ∃ place < steps, ReadsSample program samples irq start (first + 1 + place) (samples number) := by
  obtain ⟨cycle, within, found⟩ := List.mem_map.mp inside
  obtain ⟨place, before, rfl⟩ := List.mem_range'.mp within
  rw [Nat.one_mul] at found
  have sample := reads_sample program samples irq start (first + 1 + place) (found ▸ reads)
  rw [(execution.running place before).2] at sample
  exact ⟨place, before, sample⟩

/-- An execution ends only once. -/
theorem Execution.steps_unique {number other first steps steps' : Nat}
    (execution : Execution program samples irq start number first steps)
    (execution' : Execution program samples irq start other first steps') : steps = steps' := by
  rcases Nat.lt_trichotomy steps steps' with shorter | same | longer
  · exact Bool.noConfusion ((execution'.running steps shorter).1.symm.trans execution.ended.1)
  · exact same
  · exact Bool.noConfusion ((execution.running steps' longer).1.symm.trans execution'.ended.1)

/-- Outside services nothing begins until there is a request. -/
theorem idle_until {first later : Nat} (ordered : first ≤ later)
    (idle : (machine program samples irq start first).inService = false)
    (none : ∀ cycle, first ≤ cycle → cycle < later → irq cycle = false) :
    (machine program samples irq start later).inService = false ∧
      (machine program samples irq start later).begun = (machine program samples irq start first).begun := by
  induction later, ordered using Nat.le_induction with
  | base => exact ⟨idle, rfl⟩
  | succ later ordered inductionHypothesis =>
    obtain ⟨idle', same⟩ := inductionHypothesis fun cycle low high =>
      none cycle low (Nat.lt_succ_of_lt high)
    have untaken : taken (irq later) (machine program samples irq start later) = false := by
      rw [taken, none later ordered (Nat.lt_succ_self later), Bool.false_and]
    rw [machine_untaken program samples irq start later untaken, idle', Bool.false_and]
    exact ⟨rfl, same⟩

/-- A service runs to its end, whatever requests are made meanwhile. -/
theorem service_run {cpu last : Cpu} {trace : List Event} {sample : Byte} (begun : Nat)
    (number : samples begun = sample) (service : Service program sample cpu trace last) (first : Nat)
    (here : machine program samples irq start first = { cpu, begun, inService := true }) :
    machine program samples irq start (first + trace.length) = { cpu := last, begun, inService := false } ∧
      events program samples irq start first trace.length = trace ∧
      ∀ count < trace.length, (machine program samples irq start (first + count)).inService = true ∧
        (machine program samples irq start (first + count)).begun = begun := by
  induction service generalizing first with
  | returni cpu masked returning =>
    obtain ⟨next, access⟩ := service_cycle program samples irq start begun first masked here
    refine ⟨?_, ?_, ?_⟩
    · rw [List.length_singleton, next, number, returning]
      rfl
    · rw [List.length_singleton, events_cons, access]
      rfl
    · intro count bound
      obtain rfl : count = 0 := Nat.lt_one_iff.mp bound
      rw [Nat.add_zero, here]
      exact ⟨rfl, rfl⟩
  | @step cpu last trace masked continuing rest inductionHypothesis =>
    obtain ⟨next, access⟩ := service_cycle program samples irq start begun first masked here
    rw [number, continuing] at next
    obtain ⟨arrives, observes, throughout⟩ := inductionHypothesis (first + 1) next
    have shifted : ∀ count, first + (count + 1) = first + 1 + count := fun count => by omega
    refine ⟨?_, ?_, ?_⟩
    · rw [List.length_cons, shifted, arrives]
    · rw [List.length_cons, events_cons, observes, access]
    · intro count bound
      cases count with
      | zero =>
        rw [Nat.add_zero, here]
        exact ⟨rfl, rfl⟩
      | succ count =>
        rw [shifted]
        exact throughout count (Nat.lt_of_succ_lt_succ bound)

end Runs

/-- A request every so many steps, the first one at a place within the period. -/
def every (period first : Nat) : Nat → Bool := fun cycle => cycle % period == first

/-- Such requests are made again and again. -/
theorem every_recurs {period first : Nat} (inside : first < period) (cycle : Nat) :
    ∃ later, cycle ≤ later ∧ every period first later = true := by
  have later : cycle ≤ period * cycle + first :=
    (Nat.le_mul_of_pos_left cycle (Nat.zero_lt_of_lt inside)).trans (Nat.le_add_right _ _)
  refine ⟨period * cycle + first, later, ?_⟩
  rw [every, Nat.mul_add_mod, Nat.mod_eq_of_lt inside, beq_self_eq_true]

/-- They pause for the rest of the period. -/
theorem every_pauses {period first : Nat} (room : first + 50 < period) (cycle : Nat) :
    ∃ later, cycle ≤ later ∧
      ∀ place, later ≤ place → place < later + 50 → every period first place = false := by
  have positive : 0 < period := Nat.zero_lt_of_lt room
  have later : cycle ≤ period * cycle + (first + 1) :=
    (Nat.le_mul_of_pos_left cycle positive).trans (Nat.le_add_right _ _)
  refine ⟨period * cycle + (first + 1), later, fun place low high => ?_⟩
  obtain ⟨offset, rfl⟩ := Nat.exists_eq_add_of_le low
  have short : first + 1 + offset < period := by omega
  rw [every, Nat.add_assoc, Nat.mul_add_mod, Nat.mod_eq_of_lt short, beq_eq_false_iff_ne]
  omega

/-- What the main code of a program can tell of the processor. -/
structure Agrees (left right : Cpu) : Prop where
  pc : left.pc = right.pc
  regs : left.regs = right.regs
  zero : left.zero = right.zero
  carry : left.carry = right.carry
  interruptEnable : left.interruptEnable = right.interruptEnable
  stack : left.stack = right.stack

/-- Agreement is passed on. -/
theorem Agrees.trans {left middle right : Cpu} (first : Agrees left middle) (second : Agrees middle right) :
    Agrees left right where
  pc := first.pc.trans second.pc
  regs := first.regs.trans second.regs
  zero := first.zero.trans second.zero
  carry := first.carry.trans second.carry
  interruptEnable := first.interruptEnable.trans second.interruptEnable
  stack := first.stack.trans second.stack

/-- The instruction neither touches the scratch memory nor reads a port, and does not
return from an interrupt. -/
def plain : Instruction Address → Bool
  | .fetch _ _ | .store _ _ | .input _ _ | .returni _ => false
  | _ => true

/-- Plain instructions read no port. -/
theorem plain_unread (instruction : Instruction Address) (isPlain : plain instruction = true) (cpu : Cpu) :
    (event instruction cpu).reads = false := by
  cases instruction <;> first | rfl | cases isPlain

/-- Plain instructions leave the scratch memory alone. -/
theorem plain_scratch (instruction : Instruction Address) (isPlain : plain instruction = true)
    (inPort : Byte) (cpu : Cpu) : (exec instruction inPort cpu).scratch = cpu.scratch := by
  cases instruction with
  | call condition address => simp only [exec]; split <;> rfl
  | ret condition => simp only [exec]; split <;> rfl
  | fetch | store | input | returni => cases isPlain
  | _ => rfl

/-- Plain instructions cannot tell processors apart that agree. -/
theorem plain_agrees (instruction : Instruction Address) (isPlain : plain instruction = true)
    (inPort other : Byte) {left right : Cpu} (agrees : Agrees left right) :
    Agrees (exec instruction inPort left) (exec instruction other right) ∧
      event instruction left = event instruction right := by
  obtain ⟨pc, regs, zero, carry, interruptEnable, stack⟩ := agrees
  have value : ∀ operand, left.value operand = right.value operand := by
    intro operand
    cases operand <;> simp [Cpu.value, regs]
  have meets : ∀ condition, left.meets condition = right.meets condition := by
    intro condition
    cases condition <;> simp [Cpu.meets, zero, carry]
  constructor
  · cases instruction with
    | fetch | store | input | returni => cases isPlain
    | call condition address => simp only [exec, meets]; split <;> constructor <;> simp [*]
    | ret condition => simp only [exec, meets]; split <;> constructor <;> simp [*]
    | _ => constructor <;> simp [exec, *]
  · cases instruction <;> simp [event, value, regs]

section Transparency

variable {α : Type} (view : (BitVec 6 → Byte) → α) (effect : Byte → α → α) (bit : Nat)

/-- What a service routine promises: it comes to an end, the main code finds all it
relies on as it was, the routine's own part of the scratch memory has undergone one
effect, and one output register has not been written. -/
structure Routine (program : Program) where
  trace : Byte → Cpu → List Event
  after : Byte → Cpu → Cpu
  serves : ∀ sample cpu, cpu.interruptEnable = true →
    Service program sample (interrupt cpu) (trace sample cpu) (after sample cpu)
  agrees : ∀ sample cpu, cpu.interruptEnable = true → Agrees (after sample cpu) cpu
  viewed : ∀ sample cpu, view (after sample cpu).scratch = effect sample (view cpu.scratch)
  unwritten : ∀ sample cpu, (trace sample cpu).filterMap (written bit) = []

/-- The routine's own state after some services. -/
def effects (samples : Nat → Byte) (initial : α) : Nat → α
  | 0 => initial
  | begun + 1 => effect (samples (begun + 1)) (effects samples initial begun)

variable {view effect bit}
variable (program : Program) (samples : Nat → Byte) (irq : Nat → Bool) (start : Machine) (first : Nat)

/-- The number of main instructions executed since the first step. -/
def executed (cycle : Nat) : Nat := occurrences (Main program samples irq start) first cycle

/-- A processor stands where the run without interrupts does after as many main
instructions, and the routine's own state is that after the services begun. -/
structure Caught (view : (BitVec 6 → Byte) → α) (effect : Byte → α → α) (initial : α) (cycle : Nat)
    (cpu : Cpu) : Prop where
  agrees : Agrees cpu
    (undisturbed program samples start (first + executed program samples irq start first cycle)).cpu
  viewed : view cpu.scratch =
    effects effect samples initial (machine program samples irq start cycle).begun

/-- The invariant. Within a service it speaks of the processor at the service's end. -/
structure Follows (view : (BitVec 6 → Byte) → α) (effect : Byte → α → α) (bit : Nat) (initial : α)
    (cycle : Nat) : Prop where
  idle : (machine program samples irq start cycle).inService = false →
    Caught program samples irq start first view effect initial cycle
      (machine program samples irq start cycle).cpu
  serving : (machine program samples irq start cycle).inService = true →
    ∃ trace last, trace.filterMap (written bit) = [] ∧
      Service program (samples (machine program samples irq start cycle).begun)
        (machine program samples irq start cycle).cpu trace last ∧
      Caught program samples irq start first view effect initial cycle last
  same : writes program samples irq start bit first (cycle - first) =
    writes program samples (fun _ => false) start bit first
      (executed program samples irq start first cycle)

/-- The value that one step stores. -/
theorem writes_one (cycle : Nat) :
    writes program samples irq start bit cycle 1 =
      (written bit (observed program (irq cycle) (machine program samples irq start cycle))).toList := by
  simp only [writes, events, List.range'_one, List.map_cons, List.map_nil, List.filterMap_cons,
    List.filterMap_nil]
  cases written bit (observed program (irq cycle) (machine program samples irq start cycle)) <;> rfl

/-- The run without interrupts executes one instruction in each step. -/
theorem undisturbed_step (cycle : Nat)
    (idle : (undisturbed program samples start cycle).inService = false) :
    (undisturbed program samples start (cycle + 1)).inService = false ∧
      (undisturbed program samples start (cycle + 1)).cpu =
        exec (program (undisturbed program samples start cycle).cpu.pc)
          (samples (undisturbed program samples start cycle).begun)
          (undisturbed program samples start cycle).cpu := by
  simp only [run_succ, step, taken, Bool.false_and, Bool.false_eq_true, ↓reduceIte, idle, and_self]

variable {program samples irq start first} {initial : α}

/-- A step that executes no main instruction does not count. -/
theorem executed_rest {cycle : Nat} (ordered : first ≤ cycle) (resting : ¬ Main program samples irq start cycle) :
    executed program samples irq start first (cycle + 1) = executed program samples irq start first cycle := by
  rw [executed, occurrences_succ _ _ _ ordered, if_neg resting]
  rfl

/-- The values stored up to the end of a step. -/
theorem writes_longer {cycle : Nat} (ordered : first ≤ cycle)
    (follows : Follows program samples irq start first view effect bit initial cycle) :
    writes program samples irq start bit first (cycle + 1 - first) =
      writes program samples (fun _ => false) start bit first
          (executed program samples irq start first cycle) ++
        (written bit (observed program (irq cycle) (machine program samples irq start cycle))).toList := by
  rw [Nat.sub_add_comm ordered, writes_append, follows.same, Nat.add_sub_cancel' ordered, writes_one]

/-- Where a trace stores nothing, neither its first event nor the others do. -/
theorem written_none {head : Event} {rest : List Event}
    (unwritten : (head :: rest).filterMap (written bit) = []) :
    written bit head = none ∧ rest.filterMap (written bit) = [] := by
  cases stored : written bit head with
  | none =>
    rw [List.filterMap_cons_none stored] at unwritten
    exact ⟨rfl, unwritten⟩
  | some value =>
    rw [List.filterMap_cons_some stored] at unwritten
    cases unwritten

/-- A step of a service keeps the invariant: no request is taken, and the end in view
stays the same. -/
theorem follows_serving (cycle : Nat) (ordered : first ≤ cycle)
    (inService : (machine program samples irq start cycle).inService = true)
    (follows : Follows program samples irq start first view effect bit initial cycle) :
    Follows program samples irq start first view effect bit initial (cycle + 1) := by
  obtain ⟨trace, last, unwritten, service, caught⟩ := follows.serving inService
  have untaken := @taken_masked (irq cycle) _ service.masked
  have resting : ¬ Main program samples irq start cycle := by simp [Main, inService]
  have unchanged := executed_rest ordered resting
  have advance := machine_untaken program samples irq start cycle untaken
  rw [inService, Bool.true_and] at advance
  have moved : Caught program samples irq start first view effect initial (cycle + 1) last := by
    refine ⟨?_, ?_⟩
    · rw [unchanged]
      exact caught.agrees
    · rw [advance]
      exact caught.viewed
  have longer := writes_longer ordered follows
  rw [observed_untaken program samples irq start cycle untaken, ← unchanged] at longer
  cases service with
  | returni _ _ returning =>
    have silent := written_none unwritten
    refine ⟨fun _ => ?_, fun busy => ?_, ?_⟩
    · rw [advance]
      exact moved
    · rw [advance] at busy
      simp [returning] at busy
    · rwa [silent.1, Option.toList_none, List.append_nil] at longer
  | step _ continuing rest =>
    have silent := written_none unwritten
    refine ⟨fun ended => ?_, fun _ => ?_, ?_⟩
    · rw [advance] at ended
      simp [continuing] at ended
    · rw [advance]
      exact ⟨_, last, silent.2, rest, moved⟩
    · rwa [silent.1, Option.toList_none, List.append_nil] at longer

/-- A request that is taken keeps the invariant: its service ends where the main code
is now. -/
theorem follows_request (routine : Routine view effect bit program) (cycle : Nat) (ordered : first ≤ cycle)
    (inService : (machine program samples irq start cycle).inService = false)
    (request : taken (irq cycle) (machine program samples irq start cycle) = true)
    (follows : Follows program samples irq start first view effect bit initial cycle) :
    Follows program samples irq start first view effect bit initial (cycle + 1) := by
  have caught := follows.idle inService
  have enabled := taken_enabled request
  have resting : ¬ Main program samples irq start cycle := by simp [Main, request]
  have unchanged := executed_rest ordered resting
  have advance := machine_taken program samples irq start cycle request
  have longer := writes_longer ordered follows
  refine ⟨fun ended => ?_, fun _ => ?_, ?_⟩
  · rw [advance] at ended
    cases ended
  · rw [advance]
    refine ⟨_, _, routine.unwritten _ _, routine.serves _ _ enabled, ?_, ?_⟩
    · rw [unchanged]
      exact (routine.agrees _ _ enabled).trans caught.agrees
    · rw [routine.viewed, caught.viewed, advance]
      rfl
  · have silent : observed program (irq cycle) (machine program samples irq start cycle) = .silent := by
      simp only [observed, request, ↓reduceIte]
    rw [silent, ← unchanged] at longer
    simpa only [written, Option.toList_none, List.append_nil] using longer

/-- A main instruction keeps the invariant: both runs execute it. -/
theorem follows_main
    (settled : ∀ count, (undisturbed program samples start (first + count)).inService = false)
    (main : ∀ count, plain (program (undisturbed program samples start (first + count)).cpu.pc) = true)
    (cycle : Nat) (ordered : first ≤ cycle)
    (inService : (machine program samples irq start cycle).inService = false)
    (untaken : taken (irq cycle) (machine program samples irq start cycle) = false)
    (follows : Follows program samples irq start first view effect bit initial cycle) :
    Follows program samples irq start first view effect bit initial (cycle + 1) := by
  obtain ⟨agrees, viewed⟩ := follows.idle inService
  have isPlain := main (executed program samples irq start first cycle)
  rw [← agrees.pc] at isPlain
  have counted : executed program samples irq start first (cycle + 1) =
      executed program samples irq start first cycle + 1 := by
    rw [executed, occurrences_succ _ _ _ ordered, if_pos ⟨inService, untaken⟩]
    rfl
  have advance := machine_untaken program samples irq start cycle untaken
  rw [inService, Bool.false_and] at advance
  have free := (undisturbed_step program samples start _
    (settled (executed program samples irq start first cycle))).2
  rw [← agrees.pc] at free
  have longer := writes_longer ordered follows
  refine ⟨fun _ => ⟨?_, ?_⟩, fun busy => ?_, ?_⟩
  · rw [counted, ← Nat.add_assoc, advance, free]
    exact (plain_agrees _ isPlain _ _ agrees).1
  · rw [advance, plain_scratch _ isPlain]
    exact viewed
  · rw [advance] at busy
    cases busy
  · have sameEvent : observed program (irq cycle) (machine program samples irq start cycle) =
        observed program false
          (undisturbed program samples start (first + executed program samples irq start first cycle)) := by
      have never : ∀ other, taken false other = false := fun _ => rfl
      simp only [observed, untaken, never, Bool.false_eq_true, ↓reduceIte, ← agrees.pc]
      exact (plain_agrees _ isPlain 0 0 agrees).2
    rw [longer, counted, writes_append, writes_one, sameEvent]

/-- The transparency of interrupts: every run follows the run without them. -/
theorem follows_run (routine : Routine view effect bit program)
    (settled : ∀ count, (undisturbed program samples start (first + count)).inService = false)
    (main : ∀ count, plain (program (undisturbed program samples start (first + count)).cpu.pc) = true)
    (initially : Follows program samples irq start first view effect bit initial first)
    (cycle : Nat) (ordered : first ≤ cycle) :
    Follows program samples irq start first view effect bit initial cycle := by
  induction cycle, ordered using Nat.le_induction with
  | base => exact initially
  | succ cycle ordered follows =>
    cases inService : (machine program samples irq start cycle).inService with
    | true => exact follows_serving cycle ordered inService follows
    | false =>
      cases request : taken (irq cycle) (machine program samples irq start cycle) with
      | true => exact follows_request routine cycle ordered inService request follows
      | false => exact follows_main settled main cycle ordered inService request follows

end Transparency

end CpenLabs.InterruptedRun
