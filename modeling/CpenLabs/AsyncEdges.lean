import CpenLabs.SampleClock

/-!
# One pulse for each asynchronous edge

edge_detect has four flip-flops in a row. The first is clocked by async_sig itself and
cleared by `!async_sig & Q_C`, so that three signals act on it: a rising edge of
async_sig, a falling one, and a rising edge of outclk that raises Q_C while async_sig is
low. The other three are clocked by outclk.

A run is a sequence of moments, each with one edge of outclk or of async_sig, so that no
two edges coincide. The two signals change by turns in any order; what is asked of them
is that every phase of async_sig which begins with an edge contains two rising edges of
outclk. The phase before the first edge may be of any length.

Where async_sig rises while the clear is still high, the clear falls at the same moment,
and whether the flip-flop is set or stays cleared is left open. With phases as long as
these it does not come to that. Setup and hold times are outside of this model.
-/

namespace CpenLabs.AsyncEdges

open Clocked
open SampleClock (EdgeDetect Race detect)

/-- The signal that has an edge. -/
inductive Edge
  | outclk
  | asyncSig
deriving DecidableEq, Repr

/-- The edge of a moment, and whether a clear that ends with it is still seen. -/
structure Input where
  edge : Edge
  clrSeen : Bool

/-- The two input signals and the flip-flops. -/
structure Signals extends EdgeDetect where
  outclk : Bool
  asyncSig : Bool

/-- `edge_detect_FF_async` at an edge of its clock or of its clear. -/
def edgeDetectFfAsync (clr d : Bool) : Bool := if clr then false else d

/-- The clear of the first flip-flop, `!async_sig & Q_C`. -/
def clr (asyncSig qC : Bool) : Bool := !asyncSig && qC

/-- The first flip-flop where its clear goes from one level to another; `d` is VCC. -/
def clearedA (before after qA : Bool) : Bool := if !before && after then edgeDetectFfAsync after true else qA

/-- One edge. The flip-flops on outclk move together, and the clear follows `Q_C`. -/
def step (input : Input) (signals : Signals) : Signals :=
  match input.edge, signals.outclk, signals.asyncSig with
  | .outclk, false, asyncSig =>
      { signals with
        outclk := true
        qA := clearedA (clr asyncSig signals.qC) (clr asyncSig (edgeDetectFfAsync false signals.qB)) signals.qA
        qB := edgeDetectFfAsync false signals.qA
        qC := edgeDetectFfAsync false signals.qB
        qD := edgeDetectFfAsync false signals.qC }
  | .outclk, true, _ => { signals with outclk := false }
  | .asyncSig, _, false =>
      { signals with
        asyncSig := true
        qA := edgeDetectFfAsync (input.clrSeen && clr false signals.qC) true }
  | .asyncSig, _, true =>
      { signals with
        asyncSig := false
        qA := clearedA (clr true signals.qC) (clr false signals.qC) signals.qA }

/-- The level of async_sig has passed the first flip-flop, the second after one rising edge
of outclk, and the third after two; before, they hold the other level. -/
structure Passed (count : Nat) (signals : Signals) : Prop where
  qA : signals.qA = signals.asyncSig
  qB : signals.qB = if 1 ≤ count then signals.asyncSig else !signals.asyncSig
  qC : signals.qC = if 2 ≤ count then signals.asyncSig else !signals.asyncSig

section Step

variable {input : Input} {signals : Signals} {count : Nat}

/-- A rising edge of outclk moves the level on. -/
theorem passed_rise (passed : Passed count signals) (edge : input.edge = .outclk)
    (low : signals.outclk = false) : Passed (count + 1) (step input signals) := by
  obtain ⟨first, second, third⟩ := passed
  have stepped : step input signals =
      { signals with
        outclk := true
        qA := clearedA (clr signals.asyncSig signals.qC) (clr signals.asyncSig signals.qB) signals.qA
        qB := signals.qA
        qC := signals.qB
        qD := signals.qC } := by
    rw [step, edge, low]
    rfl
  rw [stepped]
  constructor
  · -- the clear rises in a low phase only, in which the flip-flop is zero already
    simp only [first, clearedA, clr, edgeDetectFfAsync]
    cases signals.asyncSig <;> simp
  · simpa using first
  · simpa using second

/-- A falling edge of outclk does nothing. -/
theorem passed_fall (passed : Passed count signals) (edge : input.edge = .outclk)
    (high : signals.outclk = true) : Passed count (step input signals) := by
  rw [step, edge, high]
  exact ⟨passed.qA, passed.qB, passed.qC⟩

/-- An edge of async_sig that finds the old level in all three sets or clears the first. -/
theorem passed_async (passed : Passed count signals) (edge : input.edge = .asyncSig) (long : 2 ≤ count) :
    Passed 0 (step input signals) := by
  obtain ⟨first, second, third⟩ := passed
  rw [if_pos (Nat.le_of_succ_le long)] at second
  rw [if_pos long] at third
  cases level : signals.asyncSig with
  | false =>
    rw [step, edge, level]
    rw [level] at second third
    refine ⟨?_, second, third⟩
    simp only [clr, third, edgeDetectFfAsync, Bool.and_false, Bool.false_eq_true, if_false]
  | true =>
    rw [step, edge, level]
    rw [level] at second third
    refine ⟨?_, second, third⟩
    simp only [clearedA, clr, third, edgeDetectFfAsync]
    rfl

/-- The output changes with a rising edge of outclk. -/
theorem outSyncSig_rise (edge : input.edge = .outclk) (low : signals.outclk = false) :
    (step input signals).outSyncSig = (!signals.qC && signals.qB) := by
  rw [step, edge, low]
  rfl

/-- It changes with no other edge. -/
theorem outSyncSig_kept (other : ¬ (input.edge = .outclk ∧ signals.outclk = false)) :
    (step input signals).outSyncSig = signals.outSyncSig := by
  cases edge : input.edge with
  | outclk =>
    have high : signals.outclk = true := by simpa [edge] using other
    rw [step, edge, high]
  | asyncSig =>
    cases level : signals.asyncSig <;> rw [step, edge, level] <;> rfl

/-- Each signal changes at its own edges. -/
theorem step_asyncSig (input : Input) (signals : Signals) :
    (step input signals).asyncSig =
      if input.edge = .asyncSig then !signals.asyncSig else signals.asyncSig := by
  unfold step
  split <;> simp_all

/-- So does outclk. -/
theorem step_outclk (input : Input) (signals : Signals) :
    (step input signals).outclk = if input.edge = .outclk then !signals.outclk else signals.outclk := by
  unfold step
  split <;> simp_all

end Step

section Period

/-- The clear of the first flip-flop has acted. -/
def Settled (signals : Signals) : Prop := clr signals.asyncSig signals.qC = true → signals.qA = false

/-- It acts with the edge that raises it. -/
theorem settled_step (input : Input) (signals : Signals) (settled : Settled signals) :
    Settled (step input signals) := by
  obtain ⟨⟨qA, qB, qC, qD⟩, outclk, asyncSig⟩ := signals
  obtain ⟨edge, clrSeen⟩ := input
  revert settled
  cases edge <;> cases outclk <;> cases asyncSig <;>
    cases qA <;> cases qB <;> cases qC <;>
    simp [Settled, step, clr, clearedA, edgeDetectFfAsync]

/-- The edges of one period of outclk. Where async_sig changes, it does so after the rising
edge; an edge that releases the clear is taken if the race says so. -/
def period (race : Race) (asyncSig nextAsyncSig : Bool) : List Input :=
  { edge := .outclk, clrSeen := false } ::
    ((if asyncSig = nextAsyncSig then [] else [{ edge := .asyncSig, clrSeen := !race.recovers }]) ++
      [{ edge := .outclk, clrSeen := false }])

/-- Several edges in turn. -/
def steps (inputs : List Input) (signals : Signals) : Signals :=
  inputs.foldl (fun signals input => step input signals) signals

/-- One run of edges after another. -/
theorem steps_append (first second : List Input) (signals : Signals) :
    steps (first ++ second) signals = steps second (steps first signals) := List.foldl_append ..

/-- It stays settled in every run. -/
theorem settled_steps (inputs : List Input) (signals : Signals) (settled : Settled signals) :
    Settled (steps inputs signals) := by
  induction inputs generalizing signals with
  | nil => exact settled
  | cons input rest inductionHypothesis => exact inductionHypothesis _ (settled_step input signals settled)

/-- The detector of a whole period takes its edges one after another. -/
theorem steps_period (race : Race) (late : race.early = false) (asyncSig nextAsyncSig : Bool)
    (detector : EdgeDetect) (settled : Settled { detector with outclk := false, asyncSig }) :
    steps (period race asyncSig nextAsyncSig) { detector with outclk := false, asyncSig } =
      { detect race asyncSig nextAsyncSig detector with outclk := false, asyncSig := nextAsyncSig } := by
  obtain ⟨early, recovers⟩ := race
  obtain rfl : early = false := late
  obtain ⟨qA, qB, qC, qD⟩ := detector
  revert settled
  cases asyncSig <;> cases nextAsyncSig <;>
    cases qA <;> cases qB <;> cases qC <;> cases recovers <;>
    simp [Settled, steps, period, step, detect, clr, clearedA, edgeDetectFfAsync]

end Period

section Runs

variable (inputs : Nat → Input) (start : Signals)

/-- The signals just before the edge of each moment. -/
abbrev signals (moment : Nat) : Signals := run step inputs start moment

/-- A rising edge of outclk. -/
def OutclkRise (moment : Nat) : Prop :=
  (inputs moment).edge = .outclk ∧ (signals inputs start moment).outclk = false

instance : DecidablePred (OutclkRise inputs start) := fun _ => inferInstanceAs (Decidable (_ ∧ _))

/-- An edge of async_sig. -/
abbrev AsyncEdge (moment : Nat) : Prop := (inputs moment).edge = .asyncSig

/-- A rising edge of async_sig. -/
def AsyncRise (moment : Nat) : Prop :=
  AsyncEdge inputs moment ∧ (signals inputs start moment).asyncSig = false

/-- Every phase of async_sig that begins with an edge contains two rising edges of outclk. -/
def LongPhases : Prop :=
  ∀ first, AsyncEdge inputs first → ∃ last, first < last ∧
    2 ≤ occurrences (OutclkRise inputs start) first last ∧
    ∀ between, first < between → between < last → ¬ AsyncEdge inputs between

/-- async_sig is low and the flip-flops are zero. -/
def Zero : Prop :=
  start.asyncSig = false ∧ start.qA = false ∧ start.qB = false ∧ start.qC = false ∧ start.qD = false

/-- out_sync_sig just before a moment. -/
abbrev outSyncSig (moment : Nat) : Bool := (signals inputs start moment).toEdgeDetect.outSyncSig

/-- The rising edge of outclk with a number, counted from an edge of async_sig. -/
def NumberedRise (number edge moment : Nat) : Prop :=
  edge < moment ∧ OutclkRise inputs start moment ∧
    occurrences (OutclkRise inputs start) edge moment + 1 = number

/-- out_sync_sig goes high with one edge and low with another, and is high from the one to
the other. -/
structure Pulse (first last : Nat) : Prop where
  ordered : first < last
  before : outSyncSig inputs start first = false
  during : ∀ moment, first < moment → moment ≤ last → outSyncSig inputs start moment = true
  after : outSyncSig inputs start (last + 1) = false

/-- out_sync_sig has one pulse for each rising edge of async_sig, from the second rising
edge of outclk after it to the third. -/
structure OnePulse : Prop where
  /-- Each edge has its pulse. -/
  pulse : ∀ rise, AsyncRise inputs start rise → ∃ second third,
    NumberedRise inputs start 2 rise second ∧ NumberedRise inputs start 3 rise third ∧
      Pulse inputs start second third
  /-- There are no other pulses. -/
  silent : ∀ moment, outSyncSig inputs start moment = true → ∃ rise second third,
    AsyncRise inputs start rise ∧ NumberedRise inputs start 2 rise second ∧
      NumberedRise inputs start 3 rise third ∧ second < moment ∧ moment ≤ third
  /-- Two edges have pulses of their own, in the order of the edges. -/
  apart : ∀ rise next third second, AsyncRise inputs start rise → AsyncRise inputs start next → rise < next →
    NumberedRise inputs start 3 rise third → NumberedRise inputs start 2 next second → third < second

/-- The rising edges of outclk since the last edge of async_sig. At the start the level
has passed all flip-flops, as after three of them. -/
def risesSinceEdge : Nat → Nat
  | 0 => 3
  | moment + 1 =>
    if AsyncEdge inputs moment then 0
    else if OutclkRise inputs start moment then risesSinceEdge moment + 1
    else risesSinceEdge moment

variable {inputs start}

/-- A moment has one edge. -/
theorem rise_not_edge {moment : Nat} (rises : OutclkRise inputs start moment) : ¬ AsyncEdge inputs moment := by
  intro edge
  exact absurd (rises.1.symm.trans edge) Edge.noConfusion

/-- It has one at least. -/
theorem not_edge {moment : Nat} (other : ¬ AsyncEdge inputs moment) : (inputs moment).edge = .outclk := by
  cases edge : (inputs moment).edge with
  | outclk => rfl
  | asyncSig => exact absurd edge other

/-- One edge more. -/
theorem signals_succ (moment : Nat) :
    signals inputs start (moment + 1) = step (inputs moment) (signals inputs start moment) := rfl

/-- After an edge its counted rises are those since the last edge. -/
theorem risesSinceEdge_last {edge moment : Nat} (recent : LastBefore (AsyncEdge inputs) edge moment) :
    risesSinceEdge inputs start moment = occurrences (OutclkRise inputs start) edge moment := by
  obtain ⟨before, occurs, none⟩ := recent
  induction moment, before using Nat.le_induction with
  | base =>
    rw [risesSinceEdge, if_pos occurs, occurrences_succ _ edge edge (Nat.le_refl edge), occurrences_self,
      if_neg fun rises => rise_not_edge rises occurs]
  | succ moment before inductionHypothesis =>
    have counted := inductionHypothesis fun later low high => none later low (Nat.lt_succ_of_lt high)
    rw [risesSinceEdge, if_neg (none moment before (Nat.lt_succ_self moment)),
      occurrences_succ _ edge moment (Nat.le_of_succ_le before), counted]
    split <;> rfl

/-- Before the first edge they are no fewer than at the start. -/
theorem risesSinceEdge_first {moment : Nat} (none : ∀ earlier, earlier < moment → ¬ AsyncEdge inputs earlier) :
    3 ≤ risesSinceEdge inputs start moment := by
  induction moment with
  | zero => exact Nat.le_refl 3
  | succ moment inductionHypothesis =>
    have before := inductionHypothesis fun earlier sooner => none earlier (Nat.lt_succ_of_lt sooner)
    rw [risesSinceEdge, if_neg (none moment (Nat.lt_succ_self moment))]
    split
    · exact Nat.le_succ_of_le before
    · exact before

/-- A phase that ends has contained two rising edges of outclk. -/
theorem long_phase (long : LongPhases inputs start) {edge next : Nat} (ordered : edge < next)
    (first : AsyncEdge inputs edge) (second : AsyncEdge inputs next) :
    2 ≤ occurrences (OutclkRise inputs start) edge next := by
  obtain ⟨last, after, counted, none⟩ := long edge first
  have bound : last ≤ next := Nat.le_of_not_lt fun inside => none next ordered inside second
  exact counted.trans (occurrences_le _ edge last next after.le bound)

/-- Every edge of async_sig finds the old level in the first three flip-flops. -/
theorem risesSinceEdge_edge (long : LongPhases inputs start) {moment : Nat} (edge : AsyncEdge inputs moment) :
    2 ≤ risesSinceEdge inputs start moment := by
  by_cases earlier : ∃ other, other < moment ∧ AsyncEdge inputs other
  · obtain ⟨other, before, occurs⟩ := earlier
    obtain ⟨last, recent⟩ := exists_lastBefore (AsyncEdge inputs) before occurs
    rw [risesSinceEdge_last recent]
    exact long_phase long recent.1 recent.2.1 edge
  · have enough : 3 ≤ risesSinceEdge inputs start moment :=
      risesSinceEdge_first fun other before occurs => earlier ⟨other, before, occurs⟩
    exact Nat.le_of_succ_le enough

/-- The level of async_sig is as far down the row as it has had edges of outclk. -/
theorem passed (zero : Zero start) (long : LongPhases inputs start) (moment : Nat) :
    Passed (risesSinceEdge inputs start moment) (signals inputs start moment) := by
  induction moment with
  | zero =>
    obtain ⟨low, first, second, third, _⟩ := zero
    exact ⟨first.trans low.symm, second.trans low.symm, third.trans low.symm⟩
  | succ moment inductionHypothesis =>
    rw [risesSinceEdge, signals_succ]
    by_cases edge : AsyncEdge inputs moment
    · rw [if_pos edge]
      exact passed_async inductionHypothesis edge (risesSinceEdge_edge long edge)
    · rw [if_neg edge]
      by_cases rises : OutclkRise inputs start moment
      · rw [if_pos rises]
        exact passed_rise inductionHypothesis rises.1 rises.2
      · rw [if_neg rises]
        apply passed_fall inductionHypothesis (not_edge edge)
        by_contra low
        exact rises ⟨not_edge edge, Bool.eq_false_of_not_eq_true low⟩

/-- A rising edge of outclk makes the output high exactly where the one before it was the
first in a high phase. -/
theorem outSyncSig_second (zero : Zero start) (long : LongPhases inputs start) {moment : Nat}
    (rises : OutclkRise inputs start moment) :
    outSyncSig inputs start (moment + 1) =
      (decide (risesSinceEdge inputs start moment = 1) && (signals inputs start moment).asyncSig) := by
  have row := passed zero long moment
  rw [outSyncSig, signals_succ, outSyncSig_rise rises.1 rises.2, row.qB, row.qC]
  rcases Nat.lt_trichotomy (risesSinceEdge inputs start moment) 1 with fewer | one | more
  · rw [if_neg (by omega), if_neg (by omega), decide_eq_false fewer.ne, Bool.not_not, Bool.and_not_self,
      Bool.false_and]
  · rw [one]
    simp
  · rw [if_pos (Nat.succ_le_of_lt more), if_pos more.le, decide_eq_false more.ne', Bool.not_and_self, Bool.false_and]

/-- The level of async_sig is the other one than before its last edge. -/
theorem phase_level {edge moment : Nat} (recent : LastBefore (AsyncEdge inputs) edge moment) :
    (signals inputs start moment).asyncSig = !(signals inputs start edge).asyncSig :=
  recent.held (fun moment => (signals inputs start moment).asyncSig)
    (fun moment => !(signals inputs start moment).asyncSig)
    (fun moment edge => by rw [signals_succ, step_asyncSig, if_pos edge])
    (fun moment other => by rw [signals_succ, step_asyncSig, if_neg other])

/-- The output is what the last rising edge of outclk has made of it. -/
theorem outSyncSig_last (zero : Zero start) (long : LongPhases inputs start) (moment : Nat) :
    outSyncSig inputs start moment = true ↔ ∃ last, LastBefore (OutclkRise inputs start) last moment ∧
      risesSinceEdge inputs start last = 1 ∧ (signals inputs start last).asyncSig = true := by
  have kept : ∀ cycle, ¬ OutclkRise inputs start cycle →
      outSyncSig inputs start (cycle + 1) = outSyncSig inputs start cycle := fun _ => outSyncSig_kept
  by_cases earlier : ∃ other, other < moment ∧ OutclkRise inputs start other
  · obtain ⟨other, before, rises⟩ := earlier
    obtain ⟨last, recent⟩ := exists_lastBefore (OutclkRise inputs start) before rises
    have output := recent.held (outSyncSig inputs start)
      (fun moment =>
        decide (risesSinceEdge inputs start moment = 1) && (signals inputs start moment).asyncSig)
      (fun _ => outSyncSig_second zero long) kept
    rw [output, Bool.and_eq_true, decide_eq_true_iff]
    constructor
    · intro second
      exact ⟨last, recent, second⟩
    · rintro ⟨same, recent', second⟩
      exact recent.unique recent' ▸ second
  · have initially : outSyncSig inputs start 0 = false := by
      change start.outSyncSig = false
      rw [EdgeDetect.outSyncSig, zero.2.2.2.1, Bool.and_false]
    have low : outSyncSig inputs start moment = outSyncSig inputs start 0 :=
      held_throughout (OutclkRise inputs start) (outSyncSig inputs start) kept (Nat.zero_le moment)
        fun cycle _ before rises => earlier ⟨cycle, before, rises⟩
    rw [low, initially]
    constructor
    · intro impossible
      exact absurd impossible Bool.false_ne_true
    · rintro ⟨last, recent, _⟩
      exact absurd ⟨last, recent.1, recent.2.1⟩ earlier

/-- A high phase with one rising edge of outclk has begun with a rising edge. -/
theorem rise_of_first {last : Nat} (one : risesSinceEdge inputs start last = 1)
    (high : (signals inputs start last).asyncSig = true) :
    ∃ rise, AsyncRise inputs start rise ∧ LastBefore (AsyncEdge inputs) rise last := by
  have earlier : ∃ other, other < last ∧ AsyncEdge inputs other := by
    by_contra none
    have many : 3 ≤ risesSinceEdge inputs start last :=
      risesSinceEdge_first fun other before edge => none ⟨other, before, edge⟩
    rw [one] at many
    exact absurd many (by decide)
  obtain ⟨other, before, edge⟩ := earlier
  obtain ⟨rise, phase⟩ := exists_lastBefore (AsyncEdge inputs) before edge
  have level : (signals inputs start last).asyncSig = !(signals inputs start rise).asyncSig := phase_level phase
  have low : (signals inputs start rise).asyncSig = false := by simpa [high] using level
  exact ⟨rise, ⟨phase.2.1, low⟩, phase⟩

/-- The second rising edge of outclk after an edge is still in the phase that it begins. -/
theorem second_in_phase (long : LongPhases inputs start) {edge moment : Nat} (begins : AsyncEdge inputs edge)
    (ordered : edge < moment) (few : occurrences (OutclkRise inputs start) edge moment ≤ 1) :
    LastBefore (AsyncEdge inputs) edge moment := by
  obtain ⟨finish, after, enough, none⟩ := long edge begins
  have inside : moment ≤ finish := by
    by_contra past
    have fewer := occurrences_le (OutclkRise inputs start) edge finish moment after.le (Nat.le_of_not_le past)
    exact absurd (enough.trans (fewer.trans few)) (by decide)
  exact ⟨ordered, begins, fun later low high => none later low (high.trans_le inside)⟩

/-- The output is high exactly between the second and the third rising edge of outclk after
a rising edge of async_sig. -/
theorem outSyncSig_iff (zero : Zero start) (long : LongPhases inputs start) (moment : Nat) :
    outSyncSig inputs start moment = true ↔ ∃ rise, AsyncRise inputs start rise ∧ rise < moment ∧
      occurrences (OutclkRise inputs start) rise moment = 2 := by
  rw [outSyncSig_last zero long]
  constructor
  · rintro ⟨last, recent, one, high⟩
    obtain ⟨rise, rises, phase⟩ := rise_of_first one high
    refine ⟨rise, rises, phase.1.trans recent.1, ?_⟩
    rw [occurrences_add _ rise last moment phase.1.le recent.1.le, ← risesSinceEdge_last phase, one,
      recent.occurrences_eq]
  · rintro ⟨rise, ⟨edge, low⟩, before, counted⟩
    have positive : 0 < occurrences (OutclkRise inputs start) rise moment := counted ▸ Nat.succ_pos 1
    obtain ⟨some, someLow, someHigh, someRises⟩ := exists_of_occurrences _ rise moment positive
    obtain ⟨last, recent⟩ := exists_lastBefore (OutclkRise inputs start) someHigh someRises
    have after : rise ≤ last := someLow.trans (recent.le someHigh someRises)
    rw [occurrences_add _ rise last moment after recent.1.le, recent.occurrences_eq] at counted
    have one : occurrences (OutclkRise inputs start) rise last = 1 := Nat.succ.inj counted
    have apart : rise ≠ last := fun same => rise_not_edge recent.2.1 (same ▸ edge)
    have phase := second_in_phase long edge (Nat.lt_of_le_of_ne after apart) one.le
    refine ⟨last, recent, (risesSinceEdge_last phase).trans one, ?_⟩
    rw [phase_level phase, low, Bool.not_false]

/-- Between two rising edges of async_sig lie two long phases. -/
theorem rises_apart (long : LongPhases inputs start) {rise next : Nat} (ordered : rise < next)
    (first : AsyncRise inputs start rise) (second : AsyncRise inputs start next) :
    4 ≤ occurrences (OutclkRise inputs start) rise next := by
  obtain ⟨fall, phase⟩ := exists_lastBefore (AsyncEdge inputs) ordered first.1
  have level : (signals inputs start next).asyncSig = !(signals inputs start fall).asyncSig := phase_level phase
  have high : (signals inputs start fall).asyncSig = true := by simpa [second.2] using level
  have apart : rise ≠ fall := by
    rintro rfl
    exact absurd (first.2.symm.trans high) Bool.false_ne_true
  have between : rise < fall := Nat.lt_of_le_of_ne (phase.le ordered first.1) apart
  rw [occurrences_add _ rise fall next between.le phase.1.le]
  exact Nat.add_le_add (long_phase long between first.1 phase.2.1) (long_phase long phase.1 phase.2.1 second.1)

/-- Up to the third rising edge of outclk after it a rising edge alone decides the output. -/
theorem outSyncSig_after (zero : Zero start) (long : LongPhases inputs start) {rise moment : Nat}
    (rises : AsyncRise inputs start rise) (ordered : rise < moment)
    (few : occurrences (OutclkRise inputs start) rise moment ≤ 3) :
    outSyncSig inputs start moment = true ↔ occurrences (OutclkRise inputs start) rise moment = 2 := by
  rw [outSyncSig_iff zero long]
  constructor
  · rintro ⟨other, otherRises, before, counted⟩
    rcases Nat.lt_trichotomy rise other with later | rfl | earlier
    · have many := (rises_apart long later rises otherRises).trans
        (occurrences_le _ rise other moment later.le before.le)
      exact absurd (many.trans few) (by decide)
    · exact counted
    · have many := (rises_apart long earlier otherRises rises).trans
        (occurrences_le _ other rise moment earlier.le ordered.le)
      exact absurd (many.trans counted.le) (by decide)
  · intro counted
    exact ⟨rise, rises, ordered, counted⟩

/-- outclk never stops: its rising edges come again and again. -/
theorem outclk_recurs (long : LongPhases inputs start) (moment : Nat) :
    ∃ later, moment ≤ later ∧ OutclkRise inputs start later := by
  by_cases edges : ∃ edge, moment ≤ edge ∧ AsyncEdge inputs edge
  · obtain ⟨edge, low, begins⟩ := edges
    obtain ⟨finish, _, enough, _⟩ := long edge begins
    obtain ⟨later, after, _, rises⟩ :=
      exists_of_occurrences _ edge finish (Nat.lt_of_lt_of_le Nat.zero_lt_two enough)
    exact ⟨later, low.trans after, rises⟩
  · have onlyOutclk : ∀ other, moment ≤ other → (inputs other).edge = .outclk :=
      fun other low => not_edge fun edge => edges ⟨other, low, edge⟩
    cases level : (signals inputs start moment).outclk with
    | false => exact ⟨moment, Nat.le_refl _, onlyOutclk moment (Nat.le_refl _), level⟩
    | true =>
      refine ⟨moment + 1, Nat.le_succ _, onlyOutclk _ (Nat.le_succ _), ?_⟩
      rw [signals_succ, step_outclk, if_pos (onlyOutclk moment (Nat.le_refl _)), level, Bool.not_true]

/-- After an edge there is a rising edge of outclk of every number. -/
theorem exists_numberedRise (long : LongPhases inputs start) {edge : Nat} (begins : AsyncEdge inputs edge)
    (number : Nat) : ∃ moment, NumberedRise inputs start (number + 1) edge moment := by
  obtain ⟨moment, low, rises, counted⟩ := exists_numbered (outclk_recurs long) edge number
  have apart : edge ≠ moment := fun same => rise_not_edge rises (same ▸ begins)
  exact ⟨moment, Nat.lt_of_le_of_ne low apart, rises, congrArg (· + 1) counted⟩

section Numbered

variable {number edge moment other : Nat} (numbered : NumberedRise inputs start number edge moment)

include numbered

/-- A moment after a numbered rise has at least its number of rises behind it. -/
theorem NumberedRise.le_occurrences (after : moment < other) :
    number ≤ occurrences (OutclkRise inputs start) edge other := by
  obtain ⟨ordered, rises, counted⟩ := numbered
  calc
    number = occurrences (OutclkRise inputs start) edge (moment + 1) := by
      rw [occurrences_succ _ edge moment ordered.le, if_pos rises, counted]
    _ ≤ occurrences (OutclkRise inputs start) edge other :=
      occurrences_le _ edge (moment + 1) other (Nat.le_succ_of_le ordered.le) after

/-- A moment up to it has fewer. -/
theorem NumberedRise.occurrences_lt (ordered : edge ≤ other) (before : other ≤ moment) :
    occurrences (OutclkRise inputs start) edge other < number := by
  obtain ⟨_, _, counted⟩ := numbered
  rw [← counted]
  exact Nat.lt_succ_of_le (occurrences_le _ edge other moment ordered before)

end Numbered

/-- Between two rises with consecutive numbers the count is known. -/
theorem occurrences_between {number edge moment next other : Nat}
    (one : NumberedRise inputs start number edge moment)
    (two : NumberedRise inputs start (number + 1) edge next) (after : moment < other) (before : other ≤ next) :
    occurrences (OutclkRise inputs start) edge other = number :=
  Nat.le_antisymm (Nat.le_of_lt_succ (two.occurrences_lt (one.1.trans after).le before))
    (one.le_occurrences after)

/-- The pulse of a rising edge. -/
theorem pulse_of_rise (zero : Zero start) (long : LongPhases inputs start) {rise second third : Nat}
    (rises : AsyncRise inputs start rise) (two : NumberedRise inputs start 2 rise second)
    (three : NumberedRise inputs start 3 rise third) : Pulse inputs start second third where
  ordered := by
    by_contra reversed
    have many := two.occurrences_lt three.1.le (Nat.le_of_not_lt reversed)
    have counted := three.2.2
    omega
  before := by
    have one := two.occurrences_lt two.1.le (Nat.le_refl second)
    rw [← Bool.not_eq_true, outSyncSig_after zero long rises two.1 (by omega)]
    exact one.ne
  during moment after before := by
    have counted := occurrences_between two three after before
    apply (outSyncSig_after zero long rises (two.1.trans after) (by omega)).mpr
    exact counted
  after := by
    have counted : occurrences (OutclkRise inputs start) rise (third + 1) = 3 := by
      rw [occurrences_succ _ rise third three.1.le, if_pos three.2.1, three.2.2]
    rw [← Bool.not_eq_true, outSyncSig_after zero long rises (Nat.lt_succ_of_lt three.1) counted.le, counted]
    decide

end Runs

/-- In every interleaving with long phases, out_sync_sig has one pulse for each rising edge of
async_sig. -/
theorem one_pulse (inputs : Nat → Input) (start : Signals) (zero : Zero start)
    (long : LongPhases inputs start) : OnePulse inputs start where
  pulse rise rises := by
    obtain ⟨second, two⟩ := exists_numberedRise long rises.1 1
    obtain ⟨third, three⟩ := exists_numberedRise long rises.1 2
    exact ⟨second, third, two, three, pulse_of_rise zero long rises two three⟩
  silent moment high := by
    obtain ⟨rise, rises, before, counted⟩ := (outSyncSig_iff zero long moment).mp high
    obtain ⟨second, two⟩ := exists_numberedRise long rises.1 1
    obtain ⟨third, three⟩ := exists_numberedRise long rises.1 2
    refine ⟨rise, second, third, rises, two, three, ?_, ?_⟩
    · apply Nat.lt_of_not_le
      intro early
      exact (two.occurrences_lt before.le early).ne counted
    · apply Nat.le_of_not_lt
      intro late
      exact absurd ((three.le_occurrences late).trans counted.le) (by decide)
  apart rise next third second first other ordered three two := by
    apply Nat.lt_trans _ two.1
    apply Nat.lt_of_not_le
    intro late
    have few := three.occurrences_lt ordered.le late
    exact absurd ((rises_apart long ordered first other).trans_lt few) (by decide)

/-- Three edges of async_sig, each followed by two periods of outclk, and then outclk alone. -/
def threeEdges (moment : Nat) : Input where
  edge := if moment = 0 ∨ moment = 5 ∨ moment = 10 then .asyncSig else .outclk
  clrSeen := true

/-- Everything low. -/
def zeroed : Signals where
  qA := false
  qB := false
  qC := false
  qD := false
  outclk := false
  asyncSig := false

/-- Their phases are long ones. -/
theorem threeEdges_long : LongPhases threeEdges zeroed := by
  intro first edge
  have known : first = 0 ∨ first = 5 ∨ first = 10 := by
    by_contra other
    simp only [AsyncEdge, threeEdges, if_neg other] at edge
    exact absurd edge (by decide)
  refine ⟨first + 5, Nat.lt_add_of_pos_right (by decide), ?_, fun between low high other => ?_⟩
  · rcases known with rfl | rfl | rfl <;> decide
  · simp only [AsyncEdge, threeEdges] at other
    split at other
    · omega
    · exact absurd other (by decide)

/-- A rising edge, a falling one, and another rising one. -/
theorem one_pulse_threeEdges : OnePulse threeEdges zeroed :=
  one_pulse threeEdges zeroed ⟨rfl, rfl, rfl, rfl, rfl⟩ threeEdges_long

end CpenLabs.AsyncEdges
