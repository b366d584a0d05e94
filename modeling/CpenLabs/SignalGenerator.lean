import CpenLabs.PhaseAccumulator
import Mathlib.Algebra.BigOperators.Intervals

/-!
# The signal generator

`waveform_gen` of Lab 5 adds a phase increment to a 32-bit accumulator in every enabled
cycle and shows its upper twelve bits as a saw and their top bit as a square wave; with
the same twelve bits it reads a sine and a cosine from tables. The increments come from
outside and may change in every cycle, as they do when a signal is modulated.

A step is one edge of `clk` while `reset` is '1', which the system ties it to; the
registers hold anything at first. The two tables of `sincos_lut` are functions here, of
which nothing is assumed.
-/

namespace CpenLabs.SignalGenerator

open Clocked PhaseAccumulator

/-- The registers of `waveform_gen` and of the table reader in it. -/
structure WaveformGen where
  phaseAcc : BitVec 32
  lutAddrReg : BitVec 12
  sinOut : BitVec 12
  cosOut : BitVec 12

/-- The enable and the increment of the phase. -/
structure Input where
  en : Bool
  phaseInc : BitVec 32

/-- The address of the tables: the highest bits of the phase. -/
def WaveformGen.lutAddr (generator : WaveformGen) : BitVec 12 :=
  generator.phaseAcc.extractLsb' 20 12

/-- The square wave, by the half of the period. -/
def WaveformGen.squOut (generator : WaveformGen) : BitVec 12 :=
  if generator.lutAddrReg.getLsbD 11 then 0b011111111111 else 0b100000000000

/-- The saw is the address itself. -/
def WaveformGen.sawOut (generator : WaveformGen) : BitVec 12 := generator.lutAddrReg

variable (sinRom cosRom : BitVec 12 → BitVec 12)

/-- The processes `phase_acc_reg`, `delay_regs` and `rom_select`. -/
def WaveformGen.step (input : Input) (generator : WaveformGen) : WaveformGen :=
  if input.en then
    { phaseAcc := generator.phaseAcc + input.phaseInc
      lutAddrReg := generator.lutAddr
      sinOut := sinRom generator.lutAddr
      cosOut := cosRom generator.lutAddr }
  else generator

/-- How far the accumulator moves in a cycle. -/
def Input.advance (input : Input) : Nat := if input.en then input.phaseInc.toNat else 0

variable (inputs : Nat → Input) (start : WaveformGen)

/-- The registers in each cycle. -/
abbrev generator : Nat → WaveformGen := run (WaveformGen.step sinRom cosRom) inputs start

/-- One edge more. -/
theorem generator_succ (cycle : Nat) : generator sinRom cosRom inputs start (cycle + 1) =
    (generator sinRom cosRom inputs start cycle).step sinRom cosRom (inputs cycle) := rfl

/-- The phase, with all its periods. -/
def phase (cycle : Nat) : Nat :=
  start.phaseAcc.toNat + ∑ earlier ∈ Finset.range cycle, (inputs earlier).advance

/-- The sum after an edge. -/
theorem phase_succ (cycle : Nat) :
    phase inputs start (cycle + 1) = phase inputs start cycle + (inputs cycle).advance := by
  rw [phase, phase, Finset.sum_range_succ, Nat.add_assoc]

/-- The accumulator is the phase within its period. -/
theorem phaseAcc_eq (cycle : Nat) :
    (generator sinRom cosRom inputs start cycle).phaseAcc.toNat =
      phase inputs start cycle % 2 ^ 32 := by
  induction cycle with
  | zero =>
    rw [phase, Finset.sum_range_zero, Nat.add_zero, Nat.mod_eq_of_lt start.phaseAcc.isLt]
    rfl
  | succ cycle inductionHypothesis =>
    rw [generator_succ, WaveformGen.step, phase_succ, Input.advance]
    split_ifs with enabled
    · rw [BitVec.toNat_add, inductionHypothesis, Nat.mod_add_mod]
    · rw [inductionHypothesis, Nat.add_zero]

/-- The phase that the outputs show: that of the last enabled cycle. -/
def shown : Nat → Nat
  | 0 => 0
  | cycle + 1 => if (inputs cycle).en then phase inputs start cycle else shown cycle

/-- The outputs show a phase: the saw its upper bits, sine and cosine the entries of the
tables. -/
structure WaveformGen.Shows (generator : WaveformGen) (phase : Nat) : Prop where
  saw : generator.sawOut = BitVec.ofNat 12 (phase / 2 ^ 20)
  sin : generator.sinOut = sinRom generator.sawOut
  cos : generator.cosOut = cosRom generator.sawOut

/-- The address of the tables is the upper part of the phase. -/
theorem lutAddr_eq {generator : WaveformGen} {phase : Nat}
    (accumulated : generator.phaseAcc.toNat = phase % 2 ^ 32) :
    generator.lutAddr = BitVec.ofNat 12 (phase / 2 ^ 20) := by
  apply BitVec.eq_of_toNat_eq
  rw [WaveformGen.lutAddr, BitVec.extractLsb'_toNat, accumulated, BitVec.toNat_ofNat,
    Nat.shiftRight_eq_div_pow]
  omega

variable {inputs start} {first : Nat}

/-- What every enabled cycle establishes and no other cycle changes holds after the first
enabled one. -/
@[elab_as_elim]
theorem since_enabled {property : Nat → Prop}
    (read : ∀ cycle, (inputs cycle).en = true → property (cycle + 1))
    (kept : ∀ cycle, ¬ (inputs cycle).en = true → property cycle → property (cycle + 1))
    (enabled : (inputs first).en = true) {cycle : Nat} (later : first < cycle) :
    property cycle := by
  induction cycle, later using Nat.le_induction with
  | base => exact read first enabled
  | succ cycle later inductionHypothesis =>
    by_cases on : (inputs cycle).en = true
    · exact read cycle on
    · exact kept cycle on inductionHypothesis

/-- After an enabled cycle all outputs show the same phase. -/
theorem outputs_shown (enabled : (inputs first).en = true) {cycle : Nat} (later : first < cycle) :
    (generator sinRom cosRom inputs start cycle).Shows sinRom cosRom
      (shown inputs start cycle) := by
  refine since_enabled (fun cycle on => ?_) (fun cycle off before => ?_) enabled later
  · rw [generator_succ, WaveformGen.step, if_pos on, shown, if_pos on]
    exact
      { saw := lutAddr_eq (phaseAcc_eq sinRom cosRom inputs start cycle)
        sin := rfl
        cos := rfl }
  · rwa [generator_succ, WaveformGen.step, if_neg off, shown, if_neg off]

section Small

variable (small : ∀ cycle, (inputs cycle).en = true → (inputs cycle).phaseInc.toNat ≤ 2 ^ 31)
  (enabled : (inputs first).en = true)

include small enabled

/-- The shown phase is behind by at most one half of a period. -/
theorem shown_behind {cycle : Nat} (later : first < cycle) :
    shown inputs start cycle ≤ phase inputs start cycle ∧
      phase inputs start cycle ≤ shown inputs start cycle + 2 ^ 31 := by
  refine since_enabled (fun cycle on => ?_) (fun cycle off before => ?_) enabled later
  · rw [phase_succ, Input.advance, shown, if_pos on, if_pos on]
    exact ⟨Nat.le_add_right _ _, Nat.add_le_add_left (small cycle on) _⟩
  · rwa [phase_succ, Input.advance, shown, if_neg off, if_neg off]

/-- The shown phase grows by at most one half of a period. -/
theorem shown_moves {cycle : Nat} (later : first < cycle) :
    shown inputs start cycle ≤ shown inputs start (cycle + 1) ∧
      shown inputs start (cycle + 1) ≤ shown inputs start cycle + 2 ^ 31 := by
  have behind : shown inputs start cycle ≤ phase inputs start cycle ∧
      phase inputs start cycle ≤ shown inputs start cycle + 2 ^ 31 :=
    shown_behind small enabled later
  rw [shown]
  split_ifs
  · exact behind
  · exact ⟨Nat.le_refl _, Nat.le_add_right _ _⟩

end Small

/-- From one enabled cycle to another, the increments move the shown phase. -/
theorem shown_distance {last : Nat} (ordered : first ≤ last) (enabled : (inputs first).en = true)
    (enabled' : (inputs last).en = true) :
    shown inputs start (last + 1) =
      shown inputs start (first + 1) + ∑ cycle ∈ Finset.Ico first last, (inputs cycle).advance := by
  rw [shown, if_pos enabled', shown, if_pos enabled, phase, phase, Nat.add_assoc,
    Finset.sum_range_add_sum_Ico _ ordered]

/-- Its highest bit says which half of the period is shown. -/
theorem WaveformGen.Shows.upper_iff {generator : WaveformGen} {phase : Nat}
    (shows : generator.Shows sinRom cosRom phase) :
    generator.lutAddrReg.getLsbD 11 = true ↔ Upper (2 ^ 31) phase := by
  have saw : generator.lutAddrReg = BitVec.ofNat 12 (phase / 2 ^ 20) := shows.saw
  have top : generator.lutAddrReg.getLsbD 11 = generator.lutAddrReg.msb := rfl
  rw [top, saw, BitVec.msb_eq_decide, decide_eq_true_iff, BitVec.toNat_ofNat, Upper]
  omega

/-- The square wave shows the half of the period. -/
theorem WaveformGen.Shows.squOut_eq {generator : WaveformGen} {phase : Nat}
    (shows : generator.Shows sinRom cosRom phase) :
    (generator.squOut = 0b011111111111 ↔ Upper (2 ^ 31) phase) ∧
      (generator.squOut = 0b100000000000 ↔ ¬ Upper (2 ^ 31) phase) := by
  rw [← shows.upper_iff, WaveformGen.squOut]
  cases generator.lutAddrReg.getLsbD 11 <;> decide

/-- The square wave falls from one cycle to the next. -/
def Falls (inputs : Nat → Input) (start : WaveformGen) (cycle : Nat) : Prop :=
  (generator sinRom cosRom inputs start cycle).squOut = 0b011111111111 ∧
    (generator sinRom cosRom inputs start (cycle + 1)).squOut = 0b100000000000

instance (cycle : Nat) : Decidable (Falls sinRom cosRom inputs start cycle) :=
  inferInstanceAs (Decidable (_ ∧ _))

/-- It falls where a period of the shown phase ends. -/
theorem falls_iff (enabled : (inputs first).en = true) {cycle : Nat} (later : first < cycle) :
    Falls sinRom cosRom inputs start cycle ↔ Ends (2 ^ 31) (shown inputs start) cycle := by
  have now := @outputs_shown sinRom cosRom inputs start first enabled cycle later
  have next := @outputs_shown sinRom cosRom inputs start first enabled (cycle + 1)
    (Nat.lt_succ_of_lt later)
  rw [Falls, now.squOut_eq.1, next.squOut_eq.2, Ends]

/-- From one enabled cycle to another, whatever the increments are up to one half of a
period and whichever cycles are enabled in between: the periods of the square wave and
the distance that the increments add up to differ by less than one period, and saw, sine
and cosine show the phase of the last enabled cycle. -/
theorem periods_close
    (small : ∀ cycle, (inputs cycle).en = true → (inputs cycle).phaseInc.toNat ≤ 2 ^ 31)
    {last : Nat} (ordered : first ≤ last) (enabled : (inputs first).en = true)
    (enabled' : (inputs last).en = true) :
    (occurrences (Falls sinRom cosRom inputs start) (first + 1) (last + 1) * 2 ^ 32 <
        (∑ cycle ∈ Finset.Ico first last, (inputs cycle).advance) + 2 ^ 32 ∧
      ∑ cycle ∈ Finset.Ico first last, (inputs cycle).advance <
        (occurrences (Falls sinRom cosRom inputs start) (first + 1) (last + 1) + 1) * 2 ^ 32) ∧
    ∀ cycle, first < cycle →
      (generator sinRom cosRom inputs start cycle).Shows sinRom cosRom
        (shown inputs start cycle) := by
  refine ⟨?_, fun cycle later => outputs_shown sinRom cosRom enabled later⟩
  have counted : occurrences (Ends (2 ^ 31) (shown inputs start)) (first + 1) (last + 1) =
      occurrences (Falls sinRom cosRom inputs start) (first + 1) (last + 1) := by
    refine congrArg Finset.card (Finset.filter_congr fun cycle within => ?_)
    exact (falls_iff sinRom cosRom enabled (Finset.mem_Ico.mp within).1).symm
  have moves (cycle : Nat) (later : first + 1 ≤ cycle) :
      shown inputs start cycle ≤ shown inputs start (cycle + 1) ∧
        shown inputs start (cycle + 1) ≤ shown inputs start cycle + 2 ^ 31 :=
    shown_moves small enabled later
  exact falls_bounds (by decide) (Nat.succ_le_succ ordered) moves
    (shown_distance ordered enabled enabled') counted

/-- With half a period in each cycle, ten cycles have five periods. -/
theorem periods_close_halves :
    occurrences (Falls id id (fun _ => ⟨true, 0x80000000⟩) ⟨0, 0, 0, 0⟩) 1 11 = 5 := by
  have advance : Input.advance ⟨true, 0x80000000⟩ = 2 ^ 31 := by decide
  have close := (@periods_close id id (fun _ => ⟨true, 0x80000000⟩) ⟨0, 0, 0, 0⟩ 0
    (fun _ _ => by decide) 10 (Nat.zero_le _) rfl rfl).1
  rw [Finset.sum_const_nat fun _ _ => advance, Nat.card_Ico, Nat.zero_add] at close
  generalize occurrences (Falls id id (fun _ => ⟨true, 0x80000000⟩) ⟨0, 0, 0, 0⟩) 1 11 = falls
    at close ⊢
  omega

end CpenLabs.SignalGenerator
