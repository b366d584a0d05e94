import CpenLabs.AsyncEdges

/-!
# One pulse for each rising edge of the divided clock

In Lab2 the same three circuits pace the samples as in lab3: Speed_Control, a
Clock_Divider and edge_detect. Here the count is held constant, at any value that the
speed keys can reach, and the divider and the flip-flops of the detector begin
anywhere.

The first flip-flop of the detector is clocked by the divided clock and cleared by it,
together with the third flip-flop, which moves with the fast clock. Two moments of a
cycle are therefore open: whether the divided clock changes before or after the third
flip-flop has moved, and whether the first one takes a clock edge that releases its
clear. A race says how both are settled in a cycle. Where the divided clock changes
late, the detector is the one that `AsyncEdges` has edge by edge.

For all counts that can be reached but zero, no race matters: a phase of the divided
clock lasts at least 17 cycles and the detector is done with it after three. At zero
the divided clock changes in every cycle. When it changes after the third flip-flop has
moved, the clear comes too late by one cycle and every second edge is lost.
-/

namespace CpenLabs.SamplePulses

open Clocked SampleClock

/-- The registers that make the pulses. -/
structure Pacer where
  divider : ClockDivider
  detector : EdgeDetect

/-- One cycle of CLK_50M under a constant count. -/
def step (count : BitVec 32) (race : Race) (pacer : Pacer) : Pacer where
  divider := pacer.divider.step count
  detector := detect race pacer.divider.outclk (pacer.divider.step count).outclk pacer.detector

/-- A count that Speed_Control reaches from its initial value. -/
def Reachable (count : BitVec 32) : Prop :=
  ∃ keys : Nat → Keys, ∃ cycle, run speedControl keys count22K cycle = count

/-- Reachable counts are multiples of 16. -/
theorem reachable_bounds (count : BitVec 32) (reachable : Reachable count) :
    16 ∣ count.toNat ∧ count.toNat ≤ 2 * 0x470 := by
  obtain ⟨keys, cycle, rfl⟩ := reachable
  exact run_invariant speedControl keys count22K _ ⟨by decide, by decide⟩ speedControl_bounds cycle

section Runs

variable (count : BitVec 32) (races : Nat → Race) (start : Pacer)

/-- The registers in each cycle. -/
abbrev pacer (cycle : Nat) : Pacer := run (step count) races start cycle

theorem pacer_succ (cycle : Nat) :
    pacer count races start (cycle + 1) = step count (races cycle) (pacer count races start cycle) := rfl

/-- The detector sees the divided clock before and after the change. -/
theorem detector_succ (cycle : Nat) :
    (pacer count races start (cycle + 1)).detector =
      detect (races cycle) (pacer count races start cycle).divider.outclk
        (pacer count races start (cycle + 1)).divider.outclk (pacer count races start cycle).detector := rfl

/-- Clock_22K rises at the end of the cycle. -/
def Rises (cycle : Nat) : Prop :=
  (pacer count races start cycle).divider.outclk = false ∧
    (pacer count races start (cycle + 1)).divider.outclk = true

/-- Clock_22K_Sync is high in the cycle. -/
def Pulse (cycle : Nat) : Prop := (pacer count races start cycle).detector.outSyncSig = true

/-- After a start-up every rising edge gives one pulse, three cycles later, and the
pulses are spaced by two half periods. -/
def PulsePerEdge : Prop :=
  ∃ startup first,
    (∀ cycle, startup ≤ cycle →
      (Rises count races start cycle ↔ Pulse count races start (cycle + 3))) ∧
    ∀ cycle, startup ≤ cycle →
      (Pulse count races start cycle ↔ ∃ periods, cycle = first + 2 * (count.toNat + 1) * periods)

/-- The edges of CLK_50M and of the divided clock in the first cycles. -/
def edges (cycles : Nat) : List AsyncEdges.Input :=
  (List.range cycles).flatMap fun cycle =>
    AsyncEdges.period (races cycle) (pacer count races start cycle).divider.outclk
      (pacer count races start (cycle + 1)).divider.outclk

/-- The detector in a cycle, for a run edge by edge. -/
def Pacer.signals (pacer : Pacer) : AsyncEdges.Signals :=
  { pacer.detector with outclk := false, asyncSig := pacer.divider.outclk }

/-- Where the divided clock changes after the third flip-flop has moved, the flip-flops
of each cycle are those of the run edge by edge. -/
theorem detector_edges (late : ∀ cycle, (races cycle).early = false) (settled : AsyncEdges.Settled start.signals)
    (cycles : Nat) :
    AsyncEdges.steps (edges count races start cycles) start.signals = (pacer count races start cycles).signals := by
  induction cycles with
  | zero => rfl
  | succ cycles inductionHypothesis =>
    have quiet := AsyncEdges.settled_steps (edges count races start cycles) start.signals settled
    rw [inductionHypothesis] at quiet
    have one : edges count races start (cycles + 1) =
        edges count races start cycles ++ AsyncEdges.period (races cycles)
          (pacer count races start cycles).divider.outclk (pacer count races start (cycles + 1)).divider.outclk := by
      rw [edges, List.range_succ, List.flatMap_append, List.flatMap_singleton]
      rfl
    rw [one, AsyncEdges.steps_append, inductionHypothesis]
    exact AsyncEdges.steps_period (races cycles) (late cycles) _ _ _ quiet

end Runs

section Period

variable (count : BitVec 32)

/-- The place in a period that follows a place. -/
def following (place : Nat) : Nat := if place = 2 * count.toNat + 1 then 0 else place + 1

/-- Only the last place is followed by the rising edge. -/
theorem following_zero_iff (place : Nat) : following count place = 0 ↔ place = 2 * count.toNat + 1 := by
  unfold following
  split <;> omega

/-- Every other place is followed by the next one. -/
theorem following_succ_iff (place : Nat) (inside : place ≤ 2 * count.toNat) (before : Nat) :
    following count before = place + 1 ↔ before = place := by
  unfold following
  split <;> omega

/-- The divider at each place of a period, which begins with the rising edge. -/
def dividerAt (place : Nat) : ClockDivider where
  count := BitVec.ofNat 32 (if place ≤ count.toNat then place else place - (count.toNat + 1))
  outclk := place ≤ count.toNat

/-- The detector at each place: the first flip-flop follows the divided clock, and the
others follow one cycle later each. -/
def detectorAt (place : Nat) : EdgeDetect where
  qA := place ≤ count.toNat
  qB := 1 ≤ place ∧ place ≤ count.toNat + 1
  qC := 2 ≤ place ∧ place ≤ count.toNat + 2
  qD := 3 ≤ place ∧ place ≤ count.toNat + 3

/-- The divider goes through the places of its period. -/
theorem divider_following (place : Nat) (inside : place ≤ 2 * count.toNat + 1) :
    (dividerAt count place).step count = dividerAt count (following count place) := by
  have width := count.isLt
  have counted : (dividerAt count place).count.toNat =
      if place ≤ count.toNat then place else place - (count.toNat + 1) := by
    simp only [dividerAt, BitVec.toNat_ofNat]
    split_ifs <;> omega
  by_cases high : place ≤ count.toNat
  · rw [if_pos high] at counted
    by_cases below : place < count.toNat
    · have more : place + 1 ≤ count.toNat := below
      have notLast : place ≠ 2 * count.toNat + 1 := by omega
      rw [ClockDivider.step_below count _ (by omega)]
      simp only [dividerAt, following, high, more, notLast, ↓reduceIte, decide_true, BitVec.ofNat_add]
    · have notLast : place ≠ 2 * count.toNat + 1 := by omega
      have falls : ¬ place + 1 ≤ count.toNat := by omega
      have cleared : place + 1 - (count.toNat + 1) = 0 := by omega
      rw [ClockDivider.step_reached count _ (by omega)]
      simp only [dividerAt, following, high, falls, notLast, cleared, ↓reduceIte, decide_true, decide_false,
        Bool.not_true]
  · rw [if_neg high] at counted
    by_cases last : place = 2 * count.toNat + 1
    · rw [ClockDivider.step_reached count _ (by omega)]
      have isLow : ¬ 2 * count.toNat + 1 ≤ count.toNat := by omega
      simp only [dividerAt, following, isLow, last, ↓reduceIte, Nat.zero_le, decide_true, decide_false,
        Bool.not_false]
    · have low : ¬ place + 1 ≤ count.toNat := by omega
      have next : place + 1 - (count.toNat + 1) = place - (count.toNat + 1) + 1 := by omega
      rw [ClockDivider.step_below count _ (by omega)]
      simp only [dividerAt, following, high, low, last, next, ↓reduceIte, decide_false, BitVec.ofNat_add]

/-- The detector goes through the places of its period, whatever the races: its clear is
released long before the clock rises, and active when the clock falls. -/
theorem detector_following (slow : 2 ≤ count.toNat) (race : Race) (place : Nat) :
    detect race (dividerAt count place).outclk (dividerAt count (following count place)).outclk
      (detectorAt count place) = detectorAt count (following count place) := by
  have inStep : following count place = if place = 2 * count.toNat + 1 then 0 else place + 1 := rfl
  have first : (detect race (decide (place ≤ count.toNat)) (decide (following count place ≤ count.toNat))
      (detectorAt count place)).qA = decide (following count place ≤ count.toNat) := by
    by_cases high : place ≤ count.toNat <;> by_cases stays : following count place ≤ count.toNat
    · simp [detect, detectorAt, high, stays]
    · have atFall : 1 ≤ place ∧ place ≤ count.toNat + 1 := by split_ifs at inStep <;> omega
      simp [detect, detectorAt, high, stays, atFall]
    · have released : ¬ place ≤ count.toNat + 1 ∧ ¬ place ≤ count.toNat + 2 := by
        split_ifs at inStep <;> omega
      simp [detect, detectorAt, high, stays, released]
    · simp [detect, detectorAt, high, stays]
  have second : (place ≤ count.toNat) ↔
      (1 ≤ following count place ∧ following count place ≤ count.toNat + 1) := by
    split_ifs at inStep <;> omega
  have third : (1 ≤ place ∧ place ≤ count.toNat + 1) ↔
      (2 ≤ following count place ∧ following count place ≤ count.toNat + 2) := by
    split_ifs at inStep <;> omega
  have fourth : (2 ≤ place ∧ place ≤ count.toNat + 2) ↔
      (3 ≤ following count place ∧ following count place ≤ count.toNat + 3) := by
    split_ifs at inStep <;> omega
  refine EdgeDetect.mk.injEq .. |>.mpr ⟨first, ?_, ?_, ?_⟩
  · exact decide_eq_decide.mpr second
  · exact decide_eq_decide.mpr third
  · exact decide_eq_decide.mpr fourth

/-- The places follow each other round the period. -/
theorem mod_following (later : Nat) :
    (later + 1) % (2 * (count.toNat + 1)) = following count (later % (2 * (count.toNat + 1))) := by
  have inside : later % (2 * (count.toNat + 1)) < 2 * (count.toNat + 1) := Nat.mod_lt _ (by omega)
  rw [following, ← Nat.mod_add_mod]
  split_ifs with last
  · rw [last, show 2 * count.toNat + 1 + 1 = 2 * (count.toNat + 1) by omega, Nat.mod_self]
  · exact Nat.mod_eq_of_lt (by omega)

end Period

section Steady

variable (count : BitVec 32) (races : Nat → Race) (start : Pacer)

/-- From the first rising edge of a settled detector on, the registers repeat with the
period. -/
theorem pacer_period (slow : 2 ≤ count.toNat) (first : Nat)
    (settled : pacer count races start first =
      { divider := dividerAt count 0, detector := detectorAt count 0 }) (later : Nat) :
    pacer count races start (first + later) =
      { divider := dividerAt count (later % (2 * (count.toNat + 1)))
        detector := detectorAt count (later % (2 * (count.toNat + 1))) } := by
  induction later with
  | zero => exact settled
  | succ later inductionHypothesis =>
    have inside : later % (2 * (count.toNat + 1)) < 2 * (count.toNat + 1) := Nat.mod_lt _ (by omega)
    rw [← Nat.add_assoc, pacer_succ, inductionHypothesis, mod_following, step,
      divider_following count _ (by omega), detector_following count slow]

/-- A repeating run has a pulse for each rising edge. -/
theorem pulsePerEdge_of_settled (slow : 2 ≤ count.toNat) (first : Nat)
    (settled : pacer count races start first =
      { divider := dividerAt count 0, detector := detectorAt count 0 }) :
    PulsePerEdge count races start := by
  have period := pacer_period count races start slow first settled
  have pulse : ∀ later, Pulse count races start (first + later) ↔ later % (2 * (count.toNat + 1)) = 2 := by
    intro later
    have inside : later % (2 * (count.toNat + 1)) < 2 * (count.toNat + 1) := Nat.mod_lt _ (by omega)
    simp only [Pulse, period, EdgeDetect.outSyncSig, detectorAt, Bool.and_eq_true, Bool.not_eq_true',
      decide_eq_true_eq, decide_eq_false_iff_not]
    omega
  have rises : ∀ later, Rises count races start (first + later) ↔
      later % (2 * (count.toNat + 1)) = 2 * count.toNat + 1 := by
    intro later
    have inside : later % (2 * (count.toNat + 1)) < 2 * (count.toNat + 1) := Nat.mod_lt _ (by omega)
    simp only [Rises, Nat.add_assoc, period, dividerAt, mod_following, following, decide_eq_true_eq,
      decide_eq_false_iff_not]
    split_ifs <;> omega
  refine ⟨first, first + 2, fun cycle after => ?_, fun cycle after => ?_⟩
  · obtain ⟨later, rfl⟩ := Nat.exists_eq_add_of_le after
    rw [rises, Nat.add_assoc, pulse, mod_following count (later + 2), mod_following count (later + 1),
      mod_following count later, following_succ_iff count 1 (by omega), following_succ_iff count 0 (by omega),
      following_zero_iff]
  · obtain ⟨later, rfl⟩ := Nat.exists_eq_add_of_le after
    rw [pulse]
    constructor
    · intro place
      have split := Nat.div_add_mod later (2 * (count.toNat + 1))
      exact ⟨later / (2 * (count.toNat + 1)), by omega⟩
    · rintro ⟨periods, same⟩
      rw [show later = 2 + 2 * (count.toNat + 1) * periods by omega, Nat.add_mul_mod_self_left]
      exact Nat.mod_eq_of_lt (by omega)

end Steady

section StartUp

variable (count : BitVec 32) (races : Nat → Race) (start : Pacer)

/-- A detector that has seen nothing for a while. -/
def quiet : EdgeDetect := { qA := false, qB := false, qC := false, qD := false }

/-- Six cycles of a low clock clear all flip-flops, whatever they held. -/
theorem quiet_of_low (first : Nat)
    (low : ∀ later, later ≤ 6 → (pacer count races start (first + later)).divider.outclk = false) :
    (pacer count races start (first + 6)).detector = quiet := by
  have moves : ∀ later, later < 6 →
      (pacer count races start (first + later + 1)).detector =
        detect (races (first + later)) false false (pacer count races start (first + later)).detector := by
    intro later before
    rw [detector_succ, low later (by omega), Nat.add_assoc, low (later + 1) (by omega)]
  rw [moves 5 (by omega), moves 4 (by omega), moves 3 (by omega), moves 2 (by omega), moves 1 (by omega),
    moves 0 (by omega)]
  generalize (pacer count races start (first + 0)).detector = detector
  obtain ⟨qA, qB, qC, qD⟩ := detector
  cases qA <;> cases qB <;> cases qC <;> rfl

/-- A quiet detector stays quiet under a low clock. -/
theorem quiet_stays (first last : Nat) (ordered : first ≤ last)
    (isQuiet : (pacer count races start first).detector = quiet)
    (low : ∀ cycle, first ≤ cycle → cycle ≤ last → (pacer count races start cycle).divider.outclk = false) :
    (pacer count races start last).detector = quiet := by
  induction last, ordered using Nat.le_induction with
  | base => exact isQuiet
  | succ last ordered inductionHypothesis =>
    have before := inductionHypothesis fun cycle after early => low cycle after (by omega)
    rw [detector_succ, low last ordered (by omega), low (last + 1) (by omega) (Nat.le_refl _), before]
    rfl

/-- The divider counts up to the count with its clock unchanged. -/
theorem divider_runs (first : Nat) (later : Nat)
    (below : (pacer count races start first).divider.count.toNat + later ≤ count.toNat) :
    (pacer count races start (first + later)).divider.count.toNat =
        (pacer count races start first).divider.count.toNat + later ∧
      (pacer count races start (first + later)).divider.outclk =
        (pacer count races start first).divider.outclk := by
  induction later with
  | zero => exact ⟨rfl, rfl⟩
  | succ later inductionHypothesis =>
    obtain ⟨counted, same⟩ := inductionHypothesis (by omega)
    have width := count.isLt
    rw [← Nat.add_assoc, pacer_succ, step]
    simp only
    rw [ClockDivider.step_below count _ (by omega)]
    refine ⟨?_, same⟩
    rw [BitVec.toNat_add, counted]
    simp only [BitVec.toNat_ofNat]
    omega

/-- From any register values the divider changes its clock at last, and begins to count
from zero. -/
theorem divider_cleared (first : Nat) :
    ∃ later, (pacer count races start later).divider =
      { count := 0#32, outclk := !(pacer count races start first).divider.outclk } := by
  by_cases below : (pacer count races start first).divider.count.toNat ≤ count.toNat
  · obtain ⟨counted, same⟩ := divider_runs count races start first
      (count.toNat - (pacer count races start first).divider.count.toNat) (by omega)
    refine ⟨first + (count.toNat - (pacer count races start first).divider.count.toNat) + 1, ?_⟩
    rw [pacer_succ, step]
    simp only
    rw [ClockDivider.step_reached count _ (by omega), same]
  · refine ⟨first + 1, ?_⟩
    rw [pacer_succ, step]
    exact ClockDivider.step_reached count _ (by omega)

/-- The divider begins a low phase in some cycle. -/
theorem exists_low : ∃ first, (pacer count races start first).divider = { count := 0#32, outclk := false } := by
  obtain ⟨first, cleared⟩ := divider_cleared count races start 0
  cases outclk : (pacer count races start 0).divider.outclk with
  | true => exact ⟨first, by rw [cleared, outclk]; rfl⟩
  | false =>
    obtain ⟨later, again⟩ := divider_cleared count races start first
    exact ⟨later, by rw [again, cleared, outclk]; rfl⟩

/-- A low phase of seven cycles or more leaves the detector settled for the rising edge
that ends it. -/
theorem exists_settled (slow : 6 ≤ count.toNat) :
    ∃ first, pacer count races start first =
      { divider := dividerAt count 0, detector := detectorAt count 0 } := by
  obtain ⟨first, begins⟩ := exists_low count races start
  have low : ∀ later, later ≤ count.toNat →
      (pacer count races start (first + later)).divider.count.toNat = later ∧
        (pacer count races start (first + later)).divider.outclk = false := by
    intro later inside
    have zero : (pacer count races start first).divider.count.toNat = 0 := by rw [begins]; rfl
    obtain ⟨counted, same⟩ := divider_runs count races start first later (by omega)
    exact ⟨by omega, same.trans (by rw [begins])⟩
  have cleared := quiet_of_low count races start first fun later inside => (low later (by omega)).2
  have settled := quiet_stays count races start (first + 6) (first + count.toNat) (by omega) cleared (by
    intro cycle after before
    obtain ⟨later, rfl⟩ := Nat.exists_eq_add_of_le (show first ≤ cycle by omega)
    exact (low later (by omega)).2)
  obtain ⟨counted, isLow⟩ := low count.toNat (Nat.le_refl _)
  refine ⟨first + count.toNat + 1, ?_⟩
  rw [pacer_succ, step, ClockDivider.step_reached count _ (by omega), settled, isLow]
  simp [dividerAt, detectorAt, detect, quiet]

end StartUp

/-- For a reachable count other than zero no race matters. -/
theorem pulsePerEdge_of_reachable (count : BitVec 32) (reachable : Reachable count) (races : Nat → Race)
    (start : Pacer) (notZero : count ≠ 0#32) : PulsePerEdge count races start := by
  have positive : count.toNat ≠ 0 := fun zero => notZero (BitVec.eq_of_toNat_eq zero)
  obtain ⟨multiple, _⟩ := reachable_bounds count reachable
  have slow : 16 ≤ count.toNat := by omega
  obtain ⟨first, settled⟩ := exists_settled count races start (by omega)
  exact pulsePerEdge_of_settled count races start (by omega) first settled

section Zero

variable (races : Nat → Race) (start : Pacer)

/-- Under a count of zero the divided clock changes in every cycle. -/
theorem zero_toggles (cycle : Nat) :
    (pacer 0#32 races start (cycle + 1)).divider.outclk = !(pacer 0#32 races start cycle).divider.outclk := by
  rw [pacer_succ, step, ClockDivider.step_reached 0#32 _ (Nat.zero_le _)]

/-- A pulse comes from the first flip-flop two cycles earlier, and from the second one
being low then. -/
theorem pulse_origin (cycle : Nat) (pulse : Pulse 0#32 races start (cycle + 2)) :
    (pacer 0#32 races start cycle).detector.qA = true ∧ (pacer 0#32 races start cycle).detector.qB = false := by
  simp only [Pulse, pacer_succ, step, detect, EdgeDetect.outSyncSig, Bool.and_eq_true, Bool.not_eq_true'] at pulse
  exact ⟨pulse.2, pulse.1⟩

/-- Pulses in every second cycle would need the first flip-flop to be cleared in each
cycle after it has been set. The third flip-flop moves too late for that. -/
theorem zero_unpaced (settled : ∀ cycle, (races cycle).early = false) :
    ¬ PulsePerEdge 0#32 races start := by
  rintro ⟨startup, first, _, spaced⟩
  obtain ⟨cycle, late, periods, rfl⟩ : ∃ cycle, startup ≤ cycle ∧ ∃ periods, cycle = first + 2 * periods :=
    ⟨first + 2 * startup, by omega, startup, rfl⟩
  have pulses : ∀ more, Pulse 0#32 races start (first + 2 * periods + 2 * more) := by
    intro more
    rw [spaced _ (by omega)]
    exact ⟨periods + more, by simp only [BitVec.toNat_ofNat]; omega⟩
  generalize first + 2 * periods = cycle at pulses
  obtain ⟨setNow, clearNow⟩ := pulse_origin races start cycle (pulses 1)
  obtain ⟨setThen, clearThen⟩ := pulse_origin races start (cycle + 2) (pulses 2)
  have clearedBetween : (pacer 0#32 races start (cycle + 1)).detector.qA = false := clearThen
  have toggled := zero_toggles races start cycle
  have toggledAgain := zero_toggles races start (cycle + 1)
  cases outclk : (pacer 0#32 races start cycle).divider.outclk with
  | true =>
    have kept : (pacer 0#32 races start (cycle + 1)).detector.qA = true := by
      rw [detector_succ, toggled, outclk]
      simp [detect, setNow, clearNow, settled cycle]
    exact Bool.false_ne_true (clearedBetween.symm.trans kept)
  | false =>
    have stays : (pacer 0#32 races start (cycle + 2)).detector.qA = false := by
      rw [detector_succ 0#32 races start (cycle + 1), toggledAgain, toggled, outclk]
      simp only [detect, clearedBetween, Bool.not_false, Bool.not_true, Bool.false_eq_true, ↓reduceIte,
        Bool.false_and]
    exact Bool.false_ne_true (stays.symm.trans setThen)

end Zero

/-- Clock_22K_Sync has one pulse for each rising edge of Clock_22K, where that clock
changes after the third flip-flop has moved, exactly when the count is not zero. -/
theorem pulse_per_edge_iff (count : BitVec 32) (reachable : Reachable count) (races : Nat → Race)
    (settled : ∀ cycle, (races cycle).early = false) (start : Pacer) :
    PulsePerEdge count races start ↔ count ≠ 0#32 := by
  constructor
  · rintro pulses rfl
    exact zero_unpaced races start settled pulses
  · intro notZero
    exact pulsePerEdge_of_reachable count reachable races start notZero

/-- The divided clock changes after the third flip-flop, and no edge is lost to the
clear. -/
def late : Race := { early := false, recovers := true }

/-- Every register zero. -/
def stopped : Pacer where
  divider := { count := 0#32, outclk := false }
  detector := quiet

/-- The count that the keys start from is not zero. -/
theorem pulse_per_edge_count22K : PulsePerEdge count22K (fun _ => late) stopped ↔ count22K ≠ 0#32 :=
  pulse_per_edge_iff count22K ⟨fun _ => ⟨false, false, false⟩, 0, rfl⟩ (fun _ => late) (fun _ => rfl) stopped

/-- Holding the speed-up key takes the count to zero. -/
theorem zero_reachable : Reachable 0#32 :=
  ⟨fun _ => { speedUp := true, speedDown := false, speedReset := false }, 71, by decide +kernel⟩

/-- At the fastest speed that the keys reach, the pulses are not spaced as the rising
edges are. -/
theorem fastest_unpaced : Reachable 0#32 ∧ ¬ PulsePerEdge 0#32 (fun _ => late) stopped :=
  ⟨zero_reachable, zero_unpaced (fun _ => late) stopped fun _ => rfl⟩

end CpenLabs.SamplePulses
