import CpenLabs.PicoblazeTemplate
import CpenLabs.SampleClock

/-!
# Every sample is filtered once, if there is time for it

The sample circuits of lab3 raise an interrupt event with each assignment of
`audio_signal`, and the service routine of the processor reads the top byte of that
register. Nothing between them holds a request: the processor takes it up if it is
idle at the end of the assigning cycle, and else the sample is lost.

So every sample is filtered exactly once if and only if no sample is assigned before
the service of the one before has come to its end. The speed keys decide whether that
is so. A service takes up to 100 cycles, and a count of at least 64 in `Speed_Control`
leaves room for it. The keys can bring the count down to zero, and then samples are
lost.
-/

namespace CpenLabs.SamplesFiltered

open Clocked FsmMaster Kcpsm3 PracPico RequestService

/-- `audio_data[15:8]`. -/
def topByte (sample : BitVec 16) : Byte := sample.extractLsb' 8 8

/-- The sample circuits and the processor. -/
structure Circuit where
  source : SampleClock.Source
  template : PicoblazeTemplate.Template

/-- What the processor sees of the sample circuits. -/
def Circuit.templateInput (circuit : Circuit) : PicoblazeTemplate.Input where
  interruptEvent := SampleClock.interruptEvent circuit.source.master.state
  inputData := topByte circuit.source.master.audioSignal

/-- One cycle of the 50 MHz clock. -/
def Circuit.step (program : Program) (input : SampleClock.Input) (circuit : Circuit) : Circuit where
  source := circuit.source.step input
  template := circuit.template.step program circuit.templateInput

/-- Declared initial values and the reset of the processor. -/
structure PowerUp (circuit : Circuit) : Prop where
  source : SampleClock.PowerUp circuit.source
  template : PicoblazeTemplate.Reset circuit.template

section Runs

variable (constants : Constants) (inputs : Nat → SampleClock.Input) (start : Circuit)

/-- The registers in each cycle. -/
abbrev circuit (cycle : Nat) : Circuit := run (Circuit.step (program constants)) inputs start cycle

/-- The flash answers before the next pulse: there is none while `FSM_master` waits for
the slave. -/
def FlashInTime : Prop :=
  ∀ cycle, (circuit constants inputs start cycle).source.master.state = .waitReadAddr →
    (circuit constants inputs start cycle).source.detector.outSyncSig = false

/-- The end of the cycle assigns `audio_signal`. -/
def Assigned (cycle : Nat) : Prop :=
  (selected (inputs cycle).dir (circuit constants inputs start cycle).source.master.state).isSome = true

/-- ENABLE INTERRUPT has been executed by the end of the cycle. -/
def Enabled (cycle : Nat) : Prop :=
  ∃ earlier ≤ cycle, (circuit constants inputs start earlier).template.enabling (program constants) = true

/-- The sample assigned in the one cycle is read by the INPUT instruction in the other:
the register has not been assigned in between and holds the same top byte. The program
has one INPUT instruction, which every execution of the service routine executes once. -/
structure Filtered (cycle read : Nat) : Prop where
  after : cycle < read
  input : (circuit constants inputs start read).template.reading (program constants) = true
  kept : ∀ other, cycle < other → other < read → ¬ Assigned constants inputs start other
  byte : (circuit constants inputs start read).templateInput.inputData =
    topByte (circuit constants inputs start (cycle + 1)).source.master.audioSignal

/-- Every sample that is assigned after interrupts have been enabled is filtered
exactly once. -/
def EachFilteredOnce : Prop :=
  ∀ cycle, Enabled constants inputs start cycle → Assigned constants inputs start cycle →
    ∃! read, Filtered constants inputs start cycle read

/-- Every such sample finds the processor ready for its request: when the flip-flop has
the request, interrupts are enabled and no earlier request is latched. -/
def EachFindsIdle : Prop :=
  ∀ cycle, Enabled constants inputs start cycle → Assigned constants inputs start cycle →
    (circuit constants inputs start (cycle + 1)).template.idle = true

/-- The sample circuits run by themselves. -/
theorem circuit_source (cycle : Nat) :
    (circuit constants inputs start cycle).source = SampleClock.source inputs start.source cycle := by
  induction cycle with
  | zero => rfl
  | succ cycle inductionHypothesis =>
    rw [SampleClock.source_succ, ← inductionHypothesis]
    rfl

/-- What the processor sees in each cycle. -/
abbrev seen (cycle : Nat) : PicoblazeTemplate.Input := (circuit constants inputs start cycle).templateInput

/-- The processor runs on what it sees of the sample circuits. -/
theorem circuit_template (cycle : Nat) :
    (circuit constants inputs start cycle).template =
      PicoblazeTemplate.template (program constants) (seen constants inputs start) start.template cycle := by
  induction cycle with
  | zero => rfl
  | succ cycle inductionHypothesis =>
    rw [PicoblazeTemplate.template_succ, ← inductionHypothesis]
    rfl

theorem assigned_iff (cycle : Nat) :
    Assigned constants inputs start cycle ↔ SampleClock.Assigned inputs start.source cycle := by
  rw [Assigned, circuit_source, SampleClock.Assigned]

/-- Without an assignment the sample stays as it is. -/
theorem audioSignal_kept (cycle later : Nat)
    (kept : ∀ other, cycle ≤ other → other < cycle + later → ¬ Assigned constants inputs start other) :
    (circuit constants inputs start (cycle + later)).source.master.audioSignal =
      (circuit constants inputs start cycle).source.master.audioSignal := by
  induction later with
  | zero => rfl
  | succ later inductionHypothesis =>
    have unassigned := kept (cycle + later) (Nat.le_add_right _ _) (Nat.lt_succ_self _)
    rw [← inductionHypothesis fun other low high => kept other low (Nat.lt_succ_of_lt high)]
    have silent : selected (inputs (cycle + later)).dir
        (circuit constants inputs start (cycle + later)).source.master.state = none := by
      simpa [Assigned] using unassigned
    have taken := SampleClock.step_sample (inputs (cycle + later))
      (circuit constants inputs start (cycle + later)).source
    rwa [silent] at taken

variable {constants inputs start}

/-- The byte that is read while the sample is kept is the sample's own. -/
theorem filtered_iff (cycle read : Nat) :
    Filtered constants inputs start cycle read ↔
      ReadIn (Assigned constants inputs start)
        (fun cycle => (circuit constants inputs start cycle).template.reading (program constants) = true)
        cycle read := by
  constructor
  · rintro ⟨after, input, kept, _⟩
    exact ⟨after, input, kept⟩
  · rintro ⟨after, input, kept⟩
    obtain ⟨later, rfl⟩ := Nat.exists_eq_add_of_le after
    exact ⟨after, input, kept, congrArg topByte (audioSignal_kept constants inputs start (cycle + 1) later kept)⟩

/-- An assignment is an event for the processor. -/
theorem assigned_event (cycle : Nat) :
    Assigned constants inputs start cycle ↔ (seen constants inputs start cycle).interruptEvent = true := by
  rw [Assigned, ← SampleClock.interruptEvent_selected]
  rfl

variable (powerUp : PowerUp start)

include powerUp

/-- Interrupts are enabled at the end of cycle 12. -/
theorem enabled_late (cycle : Nat) : Enabled constants inputs start cycle ↔ 13 ≤ cycle + 1 := by
  have enabled := @PicoblazeTemplate.enabled_iff constants (seen constants inputs start) _ powerUp.template cycle
  simp only [Enabled, circuit_template]
  rw [enabled]
  omega

/-- The processor among the circuits is a server. -/
theorem server :
    Server (fun cycle => (circuit constants inputs start cycle).template.idle = true)
      (PicoblazeTemplate.Resting constants (seen constants inputs start) start.template)
      (fun cycle => (circuit constants inputs start cycle).template.interrupt = true)
      (fun cycle => (circuit constants inputs start cycle).template.reading (program constants) = true)
      51 100 13 := by
  simp only [circuit_template]
  exact PicoblazeTemplate.server powerUp.template

omit powerUp in
/-- Every request comes from an assignment one cycle before. -/
theorem raised (requested : Nat) (late : 13 ≤ requested)
    (request : (circuit constants inputs start requested).template.interrupt = true) :
    ∃ cycle, requested = cycle + 1 ∧ Assigned constants inputs start cycle := by
  obtain ⟨cycle, rfl⟩ : ∃ cycle, requested = cycle + 1 := ⟨requested - 1, by omega⟩
  rw [circuit_template] at request
  exact ⟨cycle, rfl, (assigned_event cycle).mpr (PicoblazeTemplate.requested_event cycle request)⟩

omit powerUp in
/-- An assignment that finds the processor idle becomes a request. -/
theorem heard (cycle : Nat) (late : 13 ≤ cycle + 1) (assigned : Assigned constants inputs start cycle)
    (idle : (circuit constants inputs start (cycle + 1)).template.idle = true) :
    (circuit constants inputs start (cycle + 1)).template.interrupt = true := by
  obtain ⟨before, rfl⟩ : ∃ before, cycle = before + 1 := ⟨cycle - 1, by omega⟩
  rw [circuit_template] at idle ⊢
  exact PicoblazeTemplate.event_requested before ((assigned_event _).mp assigned) idle

/-- In every run each sample that is assigned after interrupts have been enabled is
filtered exactly once if and only if each finds the processor idle. -/
theorem samples_filtered_iff :
    EachFilteredOnce constants inputs start ↔ EachFindsIdle constants inputs start := by
  simp only [EachFilteredOnce, EachFindsIdle, enabled_late powerUp, ExistsUnique, filtered_iff]
  exact (server powerUp).once_iff raised heard

/-- Samples are filtered exactly once as long as the speed keys keep the count at 64 or
more. -/
theorem slow_samples_filtered
    (slow : ∀ cycle, 64 ≤ (circuit constants inputs start cycle).source.count.toNat) :
    EachFilteredOnce constants inputs start := by
  rw [samples_filtered_iff powerUp]
  intro cycle enabled assigned
  refine (server powerUp).idle_of_spaced raised (fun early late low ordered first second => ?_) cycle
    ((enabled_late powerUp cycle).mp enabled) assigned
  simp only [circuit_source] at slow
  have spacing := SampleClock.assigned_spacing 64 slow early late (by omega) ordered
    ((assigned_iff constants inputs start early).mp first) ((assigned_iff constants inputs start late).mp second)
  omega

/-- Where two samples are no more than 51 cycles apart, not every sample is filtered
exactly once. -/
theorem close_samples_lost (early late : Nat) (enabled : 12 ≤ early) (ordered : early < late)
    (close : late ≤ early + 51) (first : Assigned constants inputs start early)
    (second : Assigned constants inputs start late) : ¬ EachFilteredOnce constants inputs start := by
  rw [samples_filtered_iff powerUp]
  intro free
  refine (server powerUp).busy_of_close heard early late (by omega) ordered close first ⟨?_, ?_⟩
  · exact free early ((enabled_late powerUp early).mpr (by omega)) first
  · exact free late ((enabled_late powerUp late).mpr (by omega)) second

end Runs

/-- One flash word is played, forwards, while the key that makes it faster is held for
70 cycles. The slave finishes in cycle 5. -/
def hurried (cycle : Nat) : SampleClock.Input where
  speedUp := decide (cycle < 70)
  speedDown := false
  speedReset := false
  play := cycle == 0
  dir := true
  restart := false
  slaveFinish := cycle == 5
  flashMemData := 0x12345678

/-- Everything is zero at power-up but the count. -/
def powered : Circuit where
  source :=
    { count := SampleClock.count22K
      divider := { count := 0, outclk := false }
      detector := { qA := false, qB := false, qC := false, qD := false }
      master := { state := .idle, addr := 0, audioSignal := 0 } }
  template :=
    { cpu := InterruptTransparency.zeroed.cpu, timingControl := false, interruptLatch := false
      interruptAck := false, interrupt := false }

theorem powered_powerUp : PowerUp powered := ⟨⟨rfl, rfl, rfl⟩, ⟨rfl, rfl, rfl, rfl⟩⟩

theorem samples_filtered_iff_hurried :
    EachFilteredOnce source hurried powered ↔ EachFindsIdle source hurried powered :=
  samples_filtered_iff powered_powerUp

/-- After its one word the player stays in `idle`. -/
theorem hurried_over (later : Nat) :
    (SampleClock.source hurried powered.source (107 + later)).master.state = .idle := by
  induction later with
  | zero => decide +kernel
  | succ later inductionHypothesis =>
    have paused : (hurried (107 + later)).play = false := by simp [hurried]
    rw [← Nat.add_assoc, SampleClock.source_succ, SampleClock.Source.step, step_state, inductionHypothesis]
    simp only [nextState, SampleClock.Source.masterInput, paused, Bool.false_eq_true, ↓reduceIte]

/-- The flash answers in time in this run. -/
theorem hurried_inTime : FlashInTime source hurried powered := by
  intro cycle waiting
  rw [circuit_source] at waiting ⊢
  by_cases ended : 107 ≤ cycle
  · obtain ⟨later, rfl⟩ := Nat.exists_eq_add_of_le ended
    rw [hurried_over] at waiting
    cases waiting
  · have early : ∀ cycle < 107, (SampleClock.source hurried powered.source cycle).master.state = .waitReadAddr →
        (SampleClock.source hurried powered.source cycle).detector.outSyncSig = false := by
      decide +kernel
    exact early cycle (Nat.lt_of_not_le ended) waiting

/-- The keys make the samples come faster than they can be filtered: the two halves of
the word are assigned in the cycles 71 and 105, although the flash answers in time. -/
theorem hurried_lost :
    PowerUp powered ∧ FlashInTime source hurried powered ∧ ¬ EachFilteredOnce source hurried powered := by
  refine ⟨powered_powerUp, hurried_inTime, ?_⟩
  apply close_samples_lost powered_powerUp 71 105
  · decide
  · decide
  · decide
  · rw [assigned_iff]
    decide +kernel
  · rw [assigned_iff]
    decide +kernel

end CpenLabs.SamplesFiltered
