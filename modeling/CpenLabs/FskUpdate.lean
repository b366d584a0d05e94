import CpenLabs.Clocked

/-!
# The increment that follows the shift register

The processor keeps the frequency of the FSK signal in step with bit 0 of the LFSR. A
rising edge of the LFSR clock moves the register and sets an edge capture flag, which
interrupts the processor; the handler reads the register, writes the increment and
only then clears the flag.

The port sees an edge of its input two cycles late and then sets the flag. In the
system the flag is set together with the register's move, as one event, and the cycles
in between are not counted. Edges and the handler's bus operations
come in any order. An edge between the read and the clear sets a flag that is set
already and is cleared with it: if it has changed bit 0, the increment stays wrong
until the next edge.
-/

namespace CpenLabs.FskUpdate

open Clocked

/-- What the processor reads and writes. -/
abbrev Word := BitVec 32

/-- `LFSR`: a rising edge of its clock. -/
def lfsrNext (lfsr : BitVec 5) : BitVec 5 :=
  BitVec.ofBool (lfsr.getLsbD 2 ^^ lfsr.getLsbD 0) ++ lfsr.extractLsb' 1 4

/-- The registers of `lfsr_clk_interrupt_gen` that outlast a bus operation. -/
structure Pio where
  irqMask : Bool
  edgeCapture : Bool

/-- `assign irq = |(edge_capture & irq_mask)`. -/
def Pio.irq (pio : Pio) : Bool := pio.edgeCapture && pio.irqMask

/-- A write to the mask register. -/
def Pio.writeIrqMask (pio : Pio) (writedata : Word) : Pio := { pio with irqMask := writedata.getLsbD 0 }

/-- A write to the edge capture register clears it, whatever is written. -/
def Pio.writeEdgeCap (pio : Pio) (_ : Word) : Pio := { pio with edgeCapture := false }

/-- A rising edge of the input. -/
def Pio.capture (pio : Pio) : Pio := { pio with edgeCapture := true }

section Port

/-- What the bus writes in a cycle of the port's clock. -/
inductive BusWrite
  | none
  | irqMask (writedata : Word)
  | edgeCap (writedata : Word)

/-- The effect of a write. -/
def Pio.write (pio : Pio) : BusWrite → Pio
  | .none => pio
  | .irqMask writedata => pio.writeIrqMask writedata
  | .edgeCap writedata => pio.writeEdgeCap writedata

/-- All registers of the port: its input is delayed twice. -/
structure PortRegisters extends Pio where
  d1DataIn : Bool
  d2DataIn : Bool

/-- `assign edge_detect = d1_data_in & ~d2_data_in`. -/
def PortRegisters.edgeDetect (port : PortRegisters) : Bool := port.d1DataIn && !port.d2DataIn

/-- A cycle of the port's clock, out of reset. A write to the edge capture register goes
before an edge detected in the same cycle. -/
def PortRegisters.next (cycle : Bool × BusWrite) (port : PortRegisters) : PortRegisters where
  irqMask := match cycle.2 with
    | .irqMask writedata => writedata.getLsbD 0
    | _ => port.irqMask
  edgeCapture := match cycle.2 with
    | .edgeCap _ => false
    | _ => if port.edgeDetect then true else port.edgeCapture
  d1DataIn := cycle.1
  d2DataIn := port.d1DataIn

/-- A cycle is the capture of a detected edge followed by the write. -/
theorem next_toPio (cycle : Bool × BusWrite) (port : PortRegisters) :
    (port.next cycle).toPio = (if port.edgeDetect then port.toPio.capture else port.toPio).write cycle.2 := by
  obtain ⟨dataIn, write⟩ := cycle
  cases write <;> unfold PortRegisters.next Pio.write <;> cases port.edgeDetect <;> rfl

/-- An edge is detected in one cycle for each rising edge of the input, two cycles after
the last low sample. -/
theorem edgeDetect_rise (cycles : Nat → Bool × BusWrite) (start : PortRegisters) (cycle : Nat) :
    (run PortRegisters.next cycles start (cycle + 2)).edgeDetect =
      ((cycles (cycle + 1)).1 && !(cycles cycle).1) := rfl

end Port

/-- Where the processor is: outside of `handle_lfsr_interrupts`, or about to carry out
one of its bus operations. The local variable data lives from the first one on. -/
inductive Handler
  | idle
  | readLfsrVal
  | writeDdsIncrement (data : Word)
  | writeEdgeCap (data : Word)
  | readEdgeCap (data : Word)
deriving DecidableEq

/-- The hardware and the processor. The last field records whether the LFSR clock has
risen since the initialisation. -/
structure System where
  lfsr : BitVec 5
  pio : Pio
  ddsIncrement : Word
  handler : Handler
  clocked : Bool

/-- `init_lfsr_interrupt`, in the order of its writes. -/
def initLfsrInterrupt (system : System) : System :=
  { system with
    pio := (system.pio.writeIrqMask 1).writeEdgeCap 0
    handler := .idle
    clocked := false }

/-- The increment that the handler writes: 5 Hz for an odd value, 1 Hz for an even one. -/
def increment (data : Word) : Word := if data.srem 2 ≠ 0 then 430 else 86

/-- What happens next: an edge of the LFSR clock or a bus operation. -/
inductive Action
  | lfsrEdge
  | processor

/-- The processor starts the handler when irq is high, and then carries out its bus
operations one by one. -/
def processor (system : System) : System :=
  match system.handler with
  | .idle => if system.pio.irq then { system with handler := .readLfsrVal } else system
  | .readLfsrVal => { system with handler := .writeDdsIncrement (system.lfsr.setWidth 32) }
  | .writeDdsIncrement data =>
      { system with ddsIncrement := increment data, handler := .writeEdgeCap data }
  | .writeEdgeCap data => { system with pio := system.pio.writeEdgeCap 0, handler := .readEdgeCap data }
  | .readEdgeCap _ => { system with handler := .idle }

/-- One event. -/
def step (action : Action) (system : System) : System :=
  match action with
  | .lfsrEdge => { system with lfsr := lfsrNext system.lfsr, pio := system.pio.capture, clocked := true }
  | .processor => processor system

/-- The increment that bit 0 of the LFSR calls for. -/
def wanted (lfsr : BitVec 5) : Word := if lfsr.getLsbD 0 then 430 else 86

/-- Nothing is left to do: the handler is not running, irq is low, and the LFSR has
moved. -/
structure Quiescent (system : System) : Prop where
  notRunning : system.handler = .idle
  noRequest : system.pio.irq = false
  clocked : system.clocked = true

/-- The increment agrees with the LFSR. -/
def UpToDate (system : System) : Prop := system.ddsIncrement = wanted system.lfsr

/-- The clear of the edge capture finds bit 0 of the LFSR as the handler has read it: no
edge in between has changed it, or further ones have changed it back. -/
def Timely (action : Action) (system : System) : Prop :=
  ∀ data, action = .processor → system.handler = .writeEdgeCap data →
    system.lfsr.getLsbD 0 = data.getLsbD 0

/-- The increment written for a value read from the LFSR is the one its bit 0 calls for. -/
theorem increment_read : ∀ lfsr : BitVec 5, increment (lfsr.setWidth 32) = wanted lfsr := by
  decide

/-- Bit 0 of the word read is bit 0 of the LFSR. -/
theorem read_bit (lfsr : BitVec 5) : (lfsr.setWidth 32 : Word).getLsbD 0 = lfsr.getLsbD 0 := by
  simp

/-- What holds in every run: interrupts stay enabled, and a flag that is set has been
set by an edge. -/
structure Enabled (system : System) : Prop where
  masked : system.pio.irqMask = true
  clocked : system.pio.edgeCapture = true → system.clocked = true
  running : system.handler ≠ .idle → system.clocked = true

/-- Every event keeps the interrupt enabled. -/
theorem enabled_step (action : Action) (system : System) (enabled : Enabled system) :
    Enabled (step action system) := by
  obtain ⟨masked, clocked, running⟩ := enabled
  cases action with
  | lfsrEdge => exact ⟨masked, fun _ => rfl, fun _ => rfl⟩
  | processor =>
    unfold step processor
    cases handler : system.handler with
    | idle =>
      simp only
      split_ifs with requested
      · refine ⟨masked, clocked, fun _ => clocked ?_⟩
        simp only [Pio.irq, Bool.and_eq_true] at requested
        exact requested.1
      · exact ⟨masked, clocked, running⟩
    | readLfsrVal =>
      exact ⟨masked, clocked, fun _ => running (by rw [handler]; exact Handler.noConfusion)⟩
    | writeDdsIncrement data =>
      exact ⟨masked, clocked, fun _ => running (by rw [handler]; exact Handler.noConfusion)⟩
    | writeEdgeCap data =>
      exact ⟨masked, fun set => absurd set Bool.false_ne_true,
        fun _ => running (by rw [handler]; exact Handler.noConfusion)⟩
    | readEdgeCap data => exact ⟨masked, clocked, fun busy => absurd rfl busy⟩

/-- What holds before the handler has cleared the flag: the flag is set, and the
increment becomes the one for the value read. -/
def Busy (system : System) : Prop :=
  match system.handler with
  | .idle => True
  | .readLfsrVal => system.pio.edgeCapture = true
  | .writeDdsIncrement data =>
      system.pio.edgeCapture = true ∧ ∃ read : BitVec 5, data = read.setWidth 32
  | .writeEdgeCap data =>
      system.pio.edgeCapture = true ∧
        ∃ read : BitVec 5, data = read.setWidth 32 ∧ system.ddsIncrement = wanted read
  | .readEdgeCap _ => True

/-- What holds after the clear: the increment is up to date, or a new edge has set the
flag again. -/
def Served (system : System) : Prop :=
  match system.handler with
  | .idle => system.clocked = true → system.pio.edgeCapture = true ∨ UpToDate system
  | .readEdgeCap _ => system.pio.edgeCapture = true ∨ UpToDate system
  | _ => True

/-- Every event keeps what holds inside the handler: an edge only sets the flag. -/
theorem busy_step (action : Action) (system : System) (busy : Busy system) : Busy (step action system) := by
  unfold Busy at busy
  cases action with
  | lfsrEdge =>
    unfold Busy step
    cases handler : system.handler with
    | idle => trivial
    | readLfsrVal => rfl
    | writeDdsIncrement data =>
      rw [handler] at busy
      exact ⟨rfl, busy.2⟩
    | writeEdgeCap data =>
      rw [handler] at busy
      exact ⟨rfl, busy.2⟩
    | readEdgeCap data => trivial
  | processor =>
    unfold step processor
    cases handler : system.handler with
    | idle =>
      simp only
      split_ifs with requested
      · simp only [Pio.irq, Bool.and_eq_true] at requested
        exact requested.1
      · simp only [Busy, handler]
    | readLfsrVal =>
      rw [handler] at busy
      exact ⟨busy, system.lfsr, rfl⟩
    | writeDdsIncrement data =>
      rw [handler] at busy
      obtain ⟨set, read, same⟩ := busy
      exact ⟨set, read, same, same ▸ increment_read read⟩
    | writeEdgeCap data => trivial
    | readEdgeCap data => trivial

/-- A clear leaves the increment up to date exactly if it is timely. -/
theorem clear_upToDate_iff (system : System) (data : Word) (handler : system.handler = .writeEdgeCap data)
    (busy : Busy system) : UpToDate (processor system) ↔ system.lfsr.getLsbD 0 = data.getLsbD 0 := by
  simp only [Busy, handler] at busy
  obtain ⟨_, read, same, written⟩ := busy
  simp only [UpToDate, processor, handler, same, read_bit, written, wanted]
  cases read.getLsbD 0 <;> cases system.lfsr.getLsbD 0 <;> decide

/-- A timely action keeps what holds after the clear. -/
theorem served_step (action : Action) (system : System) (timely : Timely action system) (busy : Busy system)
    (served : Served system) : Served (step action system) := by
  unfold Served at served
  cases action with
  | lfsrEdge =>
    unfold Served step
    cases handler : system.handler with
    | idle => exact fun _ => Or.inl rfl
    | readEdgeCap data => exact Or.inl rfl
    | readLfsrVal | writeDdsIncrement | writeEdgeCap => trivial
  | processor =>
    cases handler : system.handler with
    | idle =>
      rw [handler] at served
      simp only [step, processor, handler]
      split_ifs with requested
      · trivial
      · simpa only [Served, handler] using served
    | readLfsrVal => simp only [step, processor, handler, Served]
    | writeDdsIncrement data => simp only [step, processor, handler, Served]
    | writeEdgeCap data =>
      have upToDate := (clear_upToDate_iff system data handler busy).mpr (timely data rfl handler)
      simp only [step, Served]
      simp only [processor, handler] at upToDate ⊢
      exact Or.inr upToDate
    | readEdgeCap data =>
      rw [handler] at served
      simp only [step, processor, handler]
      exact fun _ => served

section Runs

variable (actions : Nat → Action) (start : System)

/-- The system after each event, from the initialisation on. -/
abbrev system (events : Nat) : System := run step actions (initLfsrInterrupt start) events

/-- The interrupt is enabled throughout the run. -/
theorem system_enabled (events : Nat) : Enabled (system actions start events) := by
  apply run_invariant step actions _ Enabled
  · exact ⟨rfl, fun set => absurd set Bool.false_ne_true, fun busy => absurd rfl busy⟩
  · exact enabled_step

/-- What holds inside the handler holds throughout the run. -/
theorem system_busy (events : Nat) : Busy (system actions start events) := by
  apply run_invariant step actions _ Busy
  · trivial
  · exact busy_step

/-- With timely clears no edge is missed. -/
theorem system_served (events : Nat)
    (timely : ∀ event, event < events → Timely (actions event) (system actions start event)) :
    Served (system actions start events) := by
  induction events with
  | zero => exact fun clocked => absurd clocked Bool.false_ne_true
  | succ events inductionHypothesis =>
    have before := inductionHypothesis fun event earlier => timely event (by omega)
    exact served_step _ _ (timely events (by omega)) (system_busy actions start events) before

/-- In a run with timely clears, nothing is left to do only when the increment is up to
date. -/
theorem quiescent_upToDate
    (timely : ∀ event, Timely (actions event) (system actions start event)) (events : Nat)
    (quiescent : Quiescent (system actions start events)) : UpToDate (system actions start events) := by
  obtain ⟨notRunning, noRequest, clocked⟩ := quiescent
  have served := system_served actions start events fun event _ => timely event
  simp only [Served, notRunning] at served
  apply (served clocked).resolve_left
  intro set
  rw [Pio.irq, set, (system_enabled actions start events).masked] at noRequest
  cases noRequest

/-- An untimely clear leads to a wrong increment with nothing left to do, as soon as the
handler is over without a further edge. -/
theorem untimely_outdated (events : Nat)
    (untimely : ¬ Timely (actions events) (system actions start events)) :
    Quiescent (processor (processor (system actions start events))) ∧
      ¬ UpToDate (processor (processor (system actions start events))) := by
  have enabled := system_enabled actions start events
  have busy := system_busy actions start events
  generalize system actions start events = system at untimely enabled busy
  simp only [Timely, not_forall] at untimely
  obtain ⟨data, _, handler, changed⟩ := untimely
  have outdated := mt (clear_upToDate_iff system data handler busy).mp changed
  have clocked := enabled.running (by rw [handler]; exact Handler.noConfusion)
  simp only [processor, handler] at outdated ⊢
  exact ⟨⟨rfl, rfl, clocked⟩, outdated⟩

end Runs

/-- The increment follows the LFSR in every run whose clears are timely, and each clear
that is not can leave it wrong. -/
theorem fsk_update (actions : Nat → Action) (start : System) :
    ((∀ event, Timely (actions event) (system actions start event)) →
        ∀ events, Quiescent (system actions start events) → UpToDate (system actions start events)) ∧
      ∀ events, ¬ Timely (actions events) (system actions start events) →
        Quiescent (processor (processor (system actions start events))) ∧
          ¬ UpToDate (processor (processor (system actions start events))) :=
  ⟨quiescent_upToDate actions start, untimely_outdated actions start⟩

/-- An edge, the start of the handler and its read, a second edge, and the rest of the
handler. -/
def edgeAfterRead (event : Nat) : Action := if event = 0 ∨ event = 3 then .lfsrEdge else .processor

/-- A system whose LFSR turns even at the next edge and odd at the one after. -/
def turning : System where
  lfsr := 0b00100
  pio := { irqMask := false, edgeCapture := false }
  ddsIncrement := 0
  handler := .idle
  clocked := false

/-- After these events the LFSR is odd, the increment is the one for even values, and
nothing is left to do. -/
theorem edgeAfterRead_outdated :
    Quiescent (system edgeAfterRead turning 7) ∧ ¬ UpToDate (system edgeAfterRead turning 7) := by
  refine ⟨⟨by decide, by decide, by decide⟩, ?_⟩
  unfold UpToDate
  decide

end CpenLabs.FskUpdate
