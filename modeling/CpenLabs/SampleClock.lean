import CpenLabs.FsmMaster

/-!
# The clock that paces the samples

Three circuits of lab3 decide when a sample is due. `Speed_Control` holds a count that
the speed keys change. `Clock_Divider` counts up to it and then toggles its output,
and `edge_detect` turns a rising edge of that output into a pulse of one cycle for
`FSM_master`, which raises an interrupt event in the cycle that assigns the sample.

The two transfers of `FSM_master` take place in the same states as in Lab2; the states
have other encodings, of six bits. The keyboard and the flash are inputs here.

What is proved is the spacing of the samples: a pulse comes three cycles after a
rising edge of the divided clock, and two such edges are as far apart as the smallest
count allows. That every edge gives a pulse is not claimed, and does not hold when the
divided clock is too fast for the flip-flops of `edge_detect`.
-/

namespace CpenLabs.SampleClock

open Clocked FsmMaster

/-- `Count_22K`. -/
def count22K : BitVec 32 := 0x470#32

/-- The speed keys in one cycle. -/
structure Keys where
  speedUp : Bool
  speedDown : Bool
  speedReset : Bool

/-- `Speed_Control`: a smaller count makes the samples come faster. -/
def speedControl (keys : Keys) (count : BitVec 32) : BitVec 32 :=
  if keys.speedReset then count22K
  else if keys.speedUp then if 0x10#32 ≤ count then count - 0x10#32 else count
  else if keys.speedDown then if count ≤ 0x8D0#32 then count + 0x10#32 else count
  else count

/-- A step of the count keeps to its boundaries. -/
theorem speedControl_bounds (keys : Keys) (count : BitVec 32)
    (bounds : 16 ∣ count.toNat ∧ count.toNat ≤ 2 * 0x470) :
    16 ∣ (speedControl keys count).toNat ∧ (speedControl keys count).toNat ≤ 2 * 0x470 := by
  obtain ⟨multiple, bound⟩ := bounds
  simp only [speedControl, BitVec.le_def, BitVec.toNat_ofNat]
  split_ifs with reset up above down below
  · exact ⟨by decide, by decide⟩
  · rw [BitVec.toNat_sub_of_le above]
    simp only [BitVec.toNat_ofNat]
    omega
  · exact ⟨multiple, bound⟩
  · simp only [BitVec.toNat_add, BitVec.toNat_ofNat]
    omega
  · exact ⟨multiple, bound⟩
  · exact ⟨multiple, bound⟩

/-- The registers of `Clock_Divider`. -/
structure ClockDivider where
  count : BitVec 32
  outclk : Bool

/-- `Clock_Divider`, whose reset is tied to zero. -/
def ClockDivider.step (divClkCount : BitVec 32) (divider : ClockDivider) : ClockDivider :=
  if divider.count < divClkCount then { divider with count := divider.count + 1#32 }
  else { count := 0#32, outclk := !divider.outclk }

/-- Below the limit it counts. -/
theorem ClockDivider.step_below (limit : BitVec 32) (divider : ClockDivider)
    (below : divider.count.toNat < limit.toNat) :
    divider.step limit = { divider with count := divider.count + 1#32 } :=
  if_pos below

/-- From the limit on it changes its clock. -/
theorem ClockDivider.step_reached (limit : BitVec 32) (divider : ClockDivider)
    (reached : limit.toNat ≤ divider.count.toNat) :
    divider.step limit = { count := 0#32, outclk := !divider.outclk } :=
  if_neg (Nat.not_lt.mpr reached)

/-- The flip-flops of `edge_detect`. -/
structure EdgeDetect where
  qA : Bool
  qB : Bool
  qC : Bool
  qD : Bool

/-- `assign out_sync_sig = !Q_D & Q_C`. -/
def EdgeDetect.outSyncSig (detector : EdgeDetect) : Bool := !detector.qD && detector.qC

/-- How the first flip-flop of the detector meets `async_sig` in a cycle: whether it
changes before the third flip-flop moves, and whether an edge that releases an active
clear is taken. -/
structure Race where
  early : Bool
  recovers : Bool

/-- `edge_detect` over one cycle of its clock, at the end of which `async_sig` may
change, with the race of that cycle. The first flip-flop is set by a rising edge of
`async_sig`, and cleared when `async_sig` is low while `Q_C` is high. -/
def detect (race : Race) (asyncSig nextAsyncSig : Bool) (detector : EdgeDetect) : EdgeDetect where
  qA :=
    if nextAsyncSig then
      if asyncSig then detector.qA
      else if (if race.early then detector.qC else detector.qB) then race.recovers else true
    else if asyncSig then detector.qA && !(detector.qB || race.early && detector.qC)
    else detector.qA && !(detector.qC || detector.qB)
  qB := detector.qA
  qC := detector.qB
  qD := detector.qC

/-- The detector with every race settled early, and no edge lost to the clear. -/
def EdgeDetect.step (asyncSig nextAsyncSig : Bool) (detector : EdgeDetect) : EdgeDetect :=
  detect { early := true, recovers := true } asyncSig nextAsyncSig detector

/-- It is then set by every rising edge, and by nothing else. -/
theorem EdgeDetect.step_eq (asyncSig nextAsyncSig : Bool) (detector : EdgeDetect) :
    detector.step asyncSig nextAsyncSig =
      { qA := if nextAsyncSig then detector.qA || !asyncSig else detector.qA && !(detector.qC || detector.qB)
        qB := detector.qA
        qC := detector.qB
        qD := detector.qC } := by
  cases asyncSig <;> cases nextAsyncSig <;> simp [step, detect, Bool.or_comm]

/-- The six-bit value of each state of lab3's `FSM_master`. -/
def encoding : StateType → BitVec 6
  | .idle             => 0b000000#6
  | .startReadAddr    => 0b001010#6
  | .waitReadAddr     => 0b010000#6
  | .waitBerctLsb     => 0b110000#6
  | .transferBerctLsb => 0b011100#6
  | .waitBerctMsb     => 0b111000#6
  | .transferBerctMsb => 0b100100#6
  | .finished         => 0b101001#6

/-- `assign interrupt_event = state[2]`. -/
def interruptEvent (state : StateType) : Bool := (encoding state).getLsbD 2

/-- The event is raised exactly in the cycles that assign a sample. -/
theorem interruptEvent_selected (dir : Bool) (state : StateType) :
    interruptEvent state = (selected dir state).isSome := by
  cases state <;> rfl

/-- The other two outputs are those of Lab2. -/
theorem outputs_encoding (state : StateType) :
    (encoding state).getLsbD 0 = state.finish ∧ (encoding state).getLsbD 1 = state.slaveStart := by
  cases state <;> exact ⟨rfl, rfl⟩

/-- The states that assign a sample are entered at a pulse. -/
theorem nextState_pulse (input : FsmMaster.Input) (state : StateType)
    (event : interruptEvent (nextState input state) = true) : input.edgeClk = true := by
  cases state with
  | waitBerctLsb | waitBerctMsb =>
    by_contra silent
    rw [nextState, if_neg silent] at event
    exact absurd event (by decide)
  | idle | waitReadAddr =>
    rw [nextState] at event
    split_ifs at event <;> exact absurd event (by decide)
  | startReadAddr | transferBerctLsb | transferBerctMsb | finished =>
    rw [nextState] at event
    exact absurd event (by decide)

/-- The inputs of one cycle: the speed keys, the keyboard controller and the slave. -/
structure Input extends Keys where
  play : Bool
  dir : Bool
  restart : Bool
  slaveFinish : Bool
  flashMemData : BitVec 32

/-- The registers that produce the samples. -/
structure Source where
  count : BitVec 32
  divider : ClockDivider
  detector : EdgeDetect
  master : Registers

/-- The inputs of `FSM_master` in one cycle. -/
def Source.masterInput (input : Input) (source : Source) : FsmMaster.Input where
  edgeClk := source.detector.outSyncSig
  restart := input.restart
  play := input.play
  dir := input.dir
  slaveFinish := input.slaveFinish
  flashMemData := input.flashMemData

/-- All four circuits over one cycle of the 50 MHz clock. -/
def Source.step (input : Input) (source : Source) : Source where
  count := speedControl input.toKeys source.count
  divider := source.divider.step source.count
  detector := source.detector.step source.divider.outclk (source.divider.step source.count).outclk
  master := FsmMaster.step (source.masterInput input) source.master

/-- The sample register takes the selected half, or keeps its value. -/
theorem step_sample (input : Input) (source : Source) :
    (source.step input).master.audioSignal =
      ((selected input.dir source.master.state).map (Half.of input.flashMemData)).getD
        source.master.audioSignal :=
  step_audioSignal _ _

/-- The declared initial values. The other registers may hold anything. -/
structure PowerUp (source : Source) : Prop where
  count : source.count = count22K
  outclk : source.divider.outclk = false
  state : source.master.state = .idle

section Runs

variable (inputs : Nat → Input) (start : Source)

/-- The registers in each cycle. -/
abbrev source (cycle : Nat) : Source := run Source.step inputs start cycle

theorem source_succ (cycle : Nat) :
    source inputs start (cycle + 1) = Source.step (inputs cycle) (source inputs start cycle) := rfl

/-- The end of the cycle assigns `audio_signal`. -/
def Assigned (cycle : Nat) : Prop :=
  (selected (inputs cycle).dir (source inputs start cycle).master.state).isSome = true

instance : DecidablePred (Assigned inputs start) := fun _ => instDecidableEqBool _ _

/-- The count keeps to its boundaries: a multiple of 16 from 0 to twice the default. -/
theorem count_bounds (powerUp : PowerUp start) (cycle : Nat) :
    16 ∣ (source inputs start cycle).count.toNat ∧ (source inputs start cycle).count.toNat ≤ 2 * 0x470 := by
  refine run_invariant Source.step inputs start
    (fun source => 16 ∣ source.count.toNat ∧ source.count.toNat ≤ 2 * 0x470) ?_ ?_ cycle
  · rw [powerUp.count]
    exact ⟨by decide, by decide⟩
  · intro input source bounds
    exact speedControl_bounds input.toKeys source.count bounds

/-- The divided clock rises at the end of the cycle. -/
def Rises (cycle : Nat) : Prop :=
  (source inputs start cycle).divider.outclk = false ∧
    (source inputs start (cycle + 1)).divider.outclk = true

variable {inputs start}

/-- A pulse comes three cycles after a rising edge. -/
theorem pulse_rises (cycle : Nat) (pulse : (source inputs start (cycle + 3)).detector.outSyncSig = true) :
    Rises inputs start cycle := by
  simp only [run_succ, Source.step, EdgeDetect.step_eq, EdgeDetect.outSyncSig, Bool.and_eq_true,
    Bool.not_eq_true'] at pulse
  obtain ⟨before, after⟩ := pulse
  rw [before] at after
  simp only [Rises, run_succ, Source.step]
  split_ifs at after with high
  · exact ⟨by simpa using after, high⟩
  · cases after

/-- A sample is assigned one cycle after a pulse. -/
theorem assigned_pulse (cycle : Nat) (assigned : Assigned inputs start (cycle + 1)) :
    (source inputs start cycle).detector.outSyncSig = true := by
  rw [Assigned, ← interruptEvent_selected, source_succ, Source.step, step_state] at assigned
  exact nextState_pulse _ _ assigned

/-- The counter of the divider cannot be ahead of the cycles since it was cleared. -/
theorem divider_count_le (first later : Nat) (cleared : (source inputs start first).divider.count = 0#32) :
    (source inputs start (first + later)).divider.count.toNat ≤ later := by
  induction later with
  | zero => simp [cleared]
  | succ later inductionHypothesis =>
    rw [← Nat.add_assoc, source_succ]
    simp only [Source.step, ClockDivider.step]
    split_ifs
    · simp only [BitVec.toNat_add, BitVec.toNat_ofNat]
      omega
    · simp

variable (pace : Nat)

/-- After a change of the divided clock it stays as it is for longer than the smallest
count. -/
theorem outclk_steady (slow : ∀ cycle, pace ≤ (source inputs start cycle).count.toNat) (cycle : Nat)
    (changes : (source inputs start (cycle + 1)).divider.outclk ≠ (source inputs start cycle).divider.outclk)
    (later : Nat) (soon : later ≤ pace) :
    (source inputs start (cycle + 1 + later)).divider.outclk =
      (source inputs start (cycle + 1)).divider.outclk := by
  have cleared : (source inputs start (cycle + 1)).divider.count = 0#32 := by
    simp only [run_succ, Source.step, ClockDivider.step] at changes ⊢
    split_ifs at changes ⊢
    · exact absurd rfl changes
    · rfl
  induction later with
  | zero => rfl
  | succ later inductionHypothesis =>
    have counted := divider_count_le (cycle + 1) later cleared
    have enough := slow (cycle + 1 + later)
    rw [← inductionHypothesis (Nat.le_of_succ_le soon), ← Nat.add_assoc, source_succ]
    simp only [Source.step, ClockDivider.step]
    rw [if_pos]
    rw [BitVec.lt_def]
    omega

/-- Two rising edges are two half periods apart. -/
theorem rises_spacing (slow : ∀ cycle, pace ≤ (source inputs start cycle).count.toNat) (early late : Nat)
    (ordered : early < late) (first : Rises inputs start early) (second : Rises inputs start late) :
    early + 2 * (pace + 1) ≤ late := by
  obtain ⟨begin, before, low, rising⟩ :=
    exists_stay (fun cycle => (source inputs start cycle).divider.outclk = false) late second.1
  have after : early + 1 < begin := by
    by_contra overlap
    exact Bool.false_ne_true ((low (early + 1) (by omega) (by omega)).symm.trans first.2)
  obtain ⟨fall, rfl⟩ : ∃ fall, begin = fall + 1 := ⟨begin - 1, by omega⟩
  have wasHigh : (source inputs start fall).divider.outclk = true := by
    simpa using rising fall rfl
  have isLow := low (fall + 1) (Nat.le_refl _) before
  -- The clock stays high up to the falling edge, and low up to the second rising one.
  have highLong : early + 1 + pace ≤ fall := by
    by_contra short
    have steady := outclk_steady pace slow early (by rw [first.1, first.2]; decide) (fall - early) (by omega)
    rw [show early + 1 + (fall - early) = fall + 1 by omega, isLow, first.2] at steady
    cases steady
  have lowLong : fall + 1 + pace ≤ late := by
    by_contra short
    have steady := outclk_steady pace slow fall (by rw [wasHigh, isLow]; decide) (late - fall) (by omega)
    rw [show fall + 1 + (late - fall) = late + 1 by omega, second.2, isLow] at steady
    cases steady
  omega

/-- Two samples are as far apart as the smallest count allows. -/
theorem assigned_spacing (slow : ∀ cycle, pace ≤ (source inputs start cycle).count.toNat) (early late : Nat)
    (settled : 4 ≤ early) (ordered : early < late) (first : Assigned inputs start early)
    (second : Assigned inputs start late) : early + 2 * (pace + 1) ≤ late := by
  obtain ⟨rise, rfl⟩ : ∃ rise, early = rise + 3 + 1 := ⟨early - 4, by omega⟩
  obtain ⟨next, rfl⟩ : ∃ next, late = next + 3 + 1 := ⟨late - 4, by omega⟩
  have spacing := rises_spacing pace slow rise next (by omega) (pulse_rises rise (assigned_pulse _ first))
    (pulse_rises next (assigned_pulse _ second))
  omega

end Runs

end CpenLabs.SampleClock
