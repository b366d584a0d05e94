import Mathlib.Tactic.SplitIfs
import CpenLabs.Clocked

/-!
# Moving a word from the fast clock to the slow one

Clock_crossing of Lab5/New/Modulation.sv has five flip-flops on three clock edges. The
word passes through reg1 and reg3 on rising fast edges and through reg2 on rising slow
edges. On falling fast edges the level of the slow clock passes through s1 and s2 and
becomes the enable of reg3.

A run is a sequence of moments, each with one edge of one of the clocks, so that no two
edges coincide. A phase of the slow clock that lasts at least three periods of the fast
one contains at least three rising and three falling fast edges; nothing more is assumed
of the phases, and nothing of the two clocks' frequencies or of the contents of the
flip-flops. The first phase may be of any length. data_in may change at any moment.

Setup and hold times and metastability are outside of this model.
-/

namespace CpenLabs.ClockCrossing

open Clocked

/-- The twelve bits of a sample. -/
abbrev Word := BitVec 12

/-- The edges of `fast_clk` and `slow_clk`. -/
inductive Edge
  | fastRise
  | fastFall
  | slowRise
  | slowFall
deriving DecidableEq, Repr

/-- `DFFf` at an edge of its clock. -/
def dfff {α : Type} (d : α) (enable : Bool) (q : α) : α := if enable then d else q

/-- The two clocks and the five flip-flops. -/
structure Signals where
  fastClk : Bool
  slowClk : Bool
  reg1Out : Word
  reg3Out : Word
  dataOut : Word
  temp : Bool
  en : Bool

/-- What happens at a moment: an edge, and the value of data_in. -/
structure Input where
  edge : Edge
  dataIn : Word

/-- The instances reg1, reg3, reg2, s1 and s2, each at the edge of its clock. -/
def step (input : Input) (signals : Signals) : Signals :=
  match input.edge with
  | .fastRise =>
      { signals with
        fastClk := true
        reg1Out := dfff input.dataIn true signals.reg1Out
        reg3Out := dfff signals.reg1Out signals.en signals.reg3Out }
  | .fastFall =>
      { signals with
        fastClk := false
        temp := dfff signals.slowClk true signals.temp
        en := dfff signals.temp true signals.en }
  | .slowRise =>
      { signals with
        slowClk := true
        dataOut := dfff signals.reg3Out true signals.dataOut }
  | .slowFall => { signals with slowClk := false }

section Runs

variable (inputs : Nat → Input) (start : Signals)

/-- The signals just before the edge of each moment. -/
abbrev signals (moment : Nat) : Signals := run step inputs start moment

/-- The edge of a moment. -/
abbrev At (edge : Edge) (moment : Nat) : Prop := (inputs moment).edge = edge

/-- An edge of the slow clock. -/
abbrev SlowEdge (moment : Nat) : Prop := At inputs .slowRise moment ∨ At inputs .slowFall moment

/-- Each clock rises when it is low and falls when it is high, and between two edges of
the slow clock the fast clock rises and falls at least three times. -/
structure Interleaving : Prop where
  fastRise : ∀ moment, At inputs .fastRise moment → (signals inputs start moment).fastClk = false
  fastFall : ∀ moment, At inputs .fastFall moment → (signals inputs start moment).fastClk = true
  slowRise : ∀ moment, At inputs .slowRise moment → (signals inputs start moment).slowClk = false
  slowFall : ∀ moment, At inputs .slowFall moment → (signals inputs start moment).slowClk = true
  lasts : ∀ first last, first < last → SlowEdge inputs first → SlowEdge inputs last →
    3 ≤ occurrences (At inputs .fastRise) first last ∧ 3 ≤ occurrences (At inputs .fastFall) first last

/-- A rising edge of the slow clock that is not the first one. -/
def LaterSlowRise (moment : Nat) : Prop :=
  At inputs .slowRise moment ∧ ∃ earlier, earlier < moment ∧ At inputs .slowRise earlier

/-- A rising fast edge with en = 1, at which reg3 is written. -/
def Written (moment : Nat) : Prop :=
  At inputs .fastRise moment ∧ (signals inputs start moment).en = true

/-- The first rising fast edge after a moment. -/
def FirstRiseAfter (moment after : Nat) : Prop :=
  moment < after ∧ At inputs .fastRise after ∧
    ∀ between, moment < between → between < after → ¬ At inputs .fastRise between

/-- There is a last rising fast edge before the moment, and neither at this one nor at the
first one after the moment reg3 is written; from the one to the other it is stable. -/
def StableWord (moment : Nat) : Prop :=
  ∃ before, LastBefore (At inputs .fastRise) before moment ∧ ¬ Written inputs start before ∧
    ∀ after, FirstRiseAfter inputs moment after → ¬ Written inputs start after ∧
      ∀ between, before ≤ between → between ≤ after + 1 →
        (signals inputs start between).reg3Out = (signals inputs start moment).reg3Out

/-- The rising fast edge just before the last one with en = 1 before a moment. -/
def SampledAt (sample moment : Nat) : Prop :=
  ∃ written, LastBefore (Written inputs start) written moment ∧
    LastBefore (At inputs .fastRise) sample written

/-- From the second rising edge of the slow clock on reg2 samples a stable word, this is
the word that data_in had at one rising fast edge, and these edges follow one another. -/
structure Coherent : Prop where
  stable : ∀ moment, LaterSlowRise inputs moment → StableWord inputs start moment
  sampled : ∀ moment, LaterSlowRise inputs moment → ∃ sample, SampledAt inputs start sample moment ∧
    (signals inputs start (moment + 1)).dataOut = (inputs sample).dataIn
  increasing : ∀ moment next sample nextSample, LaterSlowRise inputs moment → LaterSlowRise inputs next →
    moment < next → SampledAt inputs start sample moment → SampledAt inputs start nextSample next →
      sample < nextSample

section FlipFlops

variable (moment : Nat)

/-- The fast clock changes at its own edges only. -/
theorem fast_alternates (interleaving : Interleaving inputs start) :
    Alternates (At inputs .fastRise) (At inputs .fastFall) fun moment => (signals inputs start moment).fastClk where
  rises moment up := ⟨interleaving.fastRise moment up, by simp only [run_succ, step, up]⟩
  falls moment down := ⟨interleaving.fastFall moment down, by simp only [run_succ, step, down]⟩
  keeps moment notUp notDown := by
    simp only [run_succ, step]
    split <;> first | contradiction | rfl

/-- So does the slow clock. -/
theorem slow_keeps (between : ¬ SlowEdge inputs moment) :
    (signals inputs start (moment + 1)).slowClk = (signals inputs start moment).slowClk := by
  simp only [run_succ, step]
  split
  · rfl
  · rfl
  · exact absurd (.inl ‹_›) between
  · exact absurd (.inr ‹_›) between

/-- On a falling fast edge s1 takes the level of the slow clock, and s2 what s1 held. -/
theorem synchroniser_fall (down : At inputs .fastFall moment) :
    (signals inputs start (moment + 1)).temp = (signals inputs start moment).slowClk ∧
      (signals inputs start (moment + 1)).en = (signals inputs start moment).temp := by
  simp only [run_succ, step, down, dfff, ↓reduceIte, and_self]

/-- At the other moments both keep their values. -/
theorem synchroniser_keeps (notDown : ¬ At inputs .fastFall moment) :
    (signals inputs start (moment + 1)).temp = (signals inputs start moment).temp ∧
      (signals inputs start (moment + 1)).en = (signals inputs start moment).en := by
  simp only [run_succ, step]
  split <;> first | contradiction | exact ⟨rfl, rfl⟩

/-- reg1 is loaded on rising fast edges. -/
theorem reg1_rise (up : At inputs .fastRise moment) :
    (signals inputs start (moment + 1)).reg1Out = (inputs moment).dataIn := by
  simp only [run_succ, step, up, dfff, ↓reduceIte]

/-- It keeps its word at the other moments. -/
theorem reg1_keeps (notUp : ¬ At inputs .fastRise moment) :
    (signals inputs start (moment + 1)).reg1Out = (signals inputs start moment).reg1Out := by
  simp only [run_succ, step]
  split <;> first | contradiction | rfl

/-- reg3 is loaded on those with en = 1. -/
theorem reg3_written (written : Written inputs start moment) :
    (signals inputs start (moment + 1)).reg3Out = (signals inputs start moment).reg1Out := by
  simp only [run_succ, step, written.1, written.2, dfff, ↓reduceIte]

/-- It keeps its word at the other moments. -/
theorem reg3_keeps (unwritten : ¬ Written inputs start moment) :
    (signals inputs start (moment + 1)).reg3Out = (signals inputs start moment).reg3Out := by
  have disabled : At inputs .fastRise moment → (signals inputs start moment).en = false := by
    intro up
    by_contra enabled
    exact unwritten ⟨up, Bool.eq_true_of_not_eq_false enabled⟩
  simp only [run_succ, step]
  split
  · simp only [disabled ‹_›, dfff, Bool.false_eq_true, ↓reduceIte]
  all_goals rfl

/-- reg2 is loaded on rising slow edges. -/
theorem reg2_rise (up : At inputs .slowRise moment) :
    (signals inputs start (moment + 1)).dataOut = (signals inputs start moment).reg3Out := by
  simp only [run_succ, step, up, dfff, ↓reduceIte]

end FlipFlops

section Synchroniser

variable {first last : Nat}

/-- After one falling fast edge of a stretch in which the slow clock is seen at one level
s1 holds this level, and after two of them so does s2. -/
theorem synchronised (level : Bool) (ordered : first ≤ last)
    (seen : ∀ moment, first ≤ moment → moment < last → At inputs .fastFall moment →
      (signals inputs start moment).slowClk = level) :
    (1 ≤ occurrences (At inputs .fastFall) first last → (signals inputs start last).temp = level) ∧
      (2 ≤ occurrences (At inputs .fastFall) first last → (signals inputs start last).en = level) := by
  induction last, ordered using Nat.le_induction with
  | base => simp
  | succ last ordered inductionHypothesis =>
    obtain ⟨one, two⟩ := inductionHypothesis fun moment low high => seen moment low (Nat.lt_succ_of_lt high)
    rw [occurrences_succ _ first last ordered]
    by_cases down : At inputs .fastFall last
    · obtain ⟨temp, en⟩ := synchroniser_fall inputs start last down
      rw [temp, en, if_pos down]
      exact ⟨fun _ => seen last ordered (Nat.lt_succ_self last) down, fun counted => one (by omega)⟩
    · obtain ⟨temp, en⟩ := synchroniser_keeps inputs start last down
      rw [temp, en, if_neg down]
      exact ⟨one, two⟩

/-- A synchroniser whose stages agree keeps its output over one falling fast edge. -/
theorem en_lags (agree : (signals inputs start first).temp = (signals inputs start first).en)
    (ordered : first ≤ last) (few : occurrences (At inputs .fastFall) first last ≤ 1) :
    (signals inputs start last).en = (signals inputs start first).en ∧
      (occurrences (At inputs .fastFall) first last = 0 →
        (signals inputs start last).temp = (signals inputs start first).temp) := by
  induction last, ordered using Nat.le_induction with
  | base => simp
  | succ last ordered inductionHypothesis =>
    rw [occurrences_succ _ first last ordered] at few ⊢
    obtain ⟨enBefore, tempBefore⟩ := inductionHypothesis (by omega)
    by_cases down : At inputs .fastFall last
    · rw [if_pos down] at few ⊢
      obtain ⟨_, en⟩ := synchroniser_fall inputs start last down
      rw [en, tempBefore (by omega), agree]
      exact ⟨rfl, fun impossible => by omega⟩
    · rw [if_neg down]
      obtain ⟨temp, en⟩ := synchroniser_keeps inputs start last down
      rw [temp, en]
      exact ⟨enBefore, tempBefore⟩

end Synchroniser

section Phases

variable {inputs start} {edge moment : Nat}

/-- After an edge of the slow clock its level is the one before the next edge. -/
theorem phase_level (phase : LastBefore (SlowEdge inputs) edge moment) {between : Nat}
    (low : edge < between) (high : between ≤ moment) :
    (signals inputs start moment).slowClk = (signals inputs start between).slowClk :=
  held_throughout (SlowEdge inputs) (fun moment => (signals inputs start moment).slowClk)
    (slow_keeps inputs start) high fun cycle after before => phase.2.2 cycle (by omega) before

/-- An edge has one kind. -/
theorem slow_not_fast (slow : SlowEdge inputs moment) :
    ¬ At inputs .fastRise moment ∧ ¬ At inputs .fastFall moment := by
  rcases slow with up | down
  · exact ⟨fun fast => absurd (fast.symm.trans up) (by decide),
      fun fast => absurd (fast.symm.trans up) (by decide)⟩
  · exact ⟨fun fast => absurd (fast.symm.trans down) (by decide),
      fun fast => absurd (fast.symm.trans down) (by decide)⟩

/-- Every falling fast edge of the phase sees this level. -/
theorem phase_seen (phase : LastBefore (SlowEdge inputs) edge moment) {between : Nat}
    (low : edge ≤ between) (high : between < moment) (down : At inputs .fastFall between) :
    (signals inputs start between).slowClk = (signals inputs start moment).slowClk := by
  have apart : edge ≠ between := fun same => (slow_not_fast (same ▸ phase.2.1)).2 down
  exact (phase_level phase (Nat.lt_of_le_of_ne low apart) high.le).symm

/-- At the end of a phase that has begun with an edge both stages hold its level. -/
theorem settled_at_end (interleaving : Interleaving inputs start)
    (phase : LastBefore (SlowEdge inputs) edge moment) (ends : SlowEdge inputs moment) :
    (signals inputs start moment).temp = (signals inputs start moment).slowClk ∧
      (signals inputs start moment).en = (signals inputs start moment).slowClk := by
  obtain ⟨_, falls⟩ := interleaving.lasts edge moment phase.1 phase.2.1 ends
  obtain ⟨temp, en⟩ := synchronised inputs start (signals inputs start moment).slowClk phase.1.le
    fun _ low high down => phase_seen phase low high down
  exact ⟨temp (by omega), en (by omega)⟩

/-- The last rising fast edge of a phase comes after another one, and finds the enable at
the level of the phase. -/
theorem settled_at_last_rise (interleaving : Interleaving inputs start)
    (phase : LastBefore (SlowEdge inputs) edge moment) (ends : SlowEdge inputs moment) :
    ∃ earlier last, edge < earlier ∧ earlier < last ∧ At inputs .fastRise earlier ∧
      LastBefore (At inputs .fastRise) last moment ∧
      (signals inputs start last).en = (signals inputs start moment).slowClk := by
  obtain ⟨rises, falls⟩ := interleaving.lasts edge moment phase.1 phase.2.1 ends
  obtain ⟨some, someLow, someHigh, someUp⟩ := exists_of_occurrences (At inputs .fastRise) edge moment (by omega)
  obtain ⟨last, recent⟩ := exists_lastBefore (At inputs .fastRise) someHigh someUp
  have low : edge ≤ last := someLow.trans (recent.le someHigh someUp)
  -- between the last rise and the slow edge the fast clock falls at most once
  have balance := (fast_alternates inputs start interleaving).balance recent.1.le
  rw [recent.occurrences_eq, interleaving.fastRise last recent.2.1, Bool.toNat_false] at balance
  have risesBefore := occurrences_add (At inputs .fastRise) edge last moment low recent.1.le
  have fallsBefore := occurrences_add (At inputs .fastFall) edge last moment low recent.1.le
  rw [recent.occurrences_eq] at risesBefore
  obtain ⟨earlier, earlierLow, earlierHigh, earlierUp⟩ := exists_of_occurrences (At inputs .fastRise) edge last
    (by omega)
  have outside : edge ≠ earlier := fun same => (slow_not_fast (same ▸ phase.2.1)).1 earlierUp
  refine ⟨earlier, last, by omega, earlierHigh, earlierUp, recent, ?_⟩
  apply (synchronised inputs start (signals inputs start moment).slowClk low ?_).2
  · omega
  · intro between after before down
    exact phase_seen phase after (before.trans recent.1) down

/-- Before a rising edge of the slow clock that is not the first one lie a whole high phase
and a whole low phase, and all earlier rising edges before them. -/
theorem phases_before (interleaving : Interleaving inputs start) (later : LaterSlowRise inputs moment) :
    ∃ up down, LastBefore (SlowEdge inputs) up down ∧ LastBefore (SlowEdge inputs) down moment ∧
      (signals inputs start down).slowClk = true ∧ (signals inputs start moment).slowClk = false ∧
      ∀ earlier, earlier < moment → At inputs .slowRise earlier → earlier ≤ up := by
  obtain ⟨rises, first, before, firstRises⟩ := later
  have low := interleaving.slowRise moment rises
  obtain ⟨down, recent⟩ := exists_lastBefore (SlowEdge inputs) before (.inl firstRises)
  have notUp : ¬ At inputs .slowRise down := by
    intro up
    have high : (signals inputs start (down + 1)).slowClk = true := by simp only [run_succ, step, up]
    have same : (signals inputs start moment).slowClk = (signals inputs start (down + 1)).slowClk :=
      phase_level recent (Nat.lt_succ_self down) recent.1
    rw [low, high] at same
    exact absurd same Bool.false_ne_true
  have falls : At inputs .slowFall down := recent.2.1.resolve_left notUp
  have sooner : ∀ earlier, earlier < moment → At inputs .slowRise earlier → earlier < down := by
    intro earlier inside up
    have notDown : earlier ≠ down := fun same => notUp (same ▸ up)
    have upTo := recent.le inside (.inl up)
    omega
  obtain ⟨up, past⟩ := exists_lastBefore (SlowEdge inputs) (sooner first before firstRises)
    (.inl firstRises)
  exact ⟨up, down, past, recent, interleaving.slowFall down falls, low,
    fun earlier inside rising => past.le (sooner earlier inside rising) (.inl rising)⟩

end Phases

section Samples

variable {inputs start} {moment : Nat}

/-- At a rising edge of the slow clock that is not the first one the synchroniser holds a
low level, and so did the enable at the last rising fast edge. -/
theorem unwritten_before (interleaving : Interleaving inputs start) (later : LaterSlowRise inputs moment) :
    ((signals inputs start moment).temp = false ∧ (signals inputs start moment).en = false) ∧
      ∃ before, LastBefore (At inputs .fastRise) before moment ∧ ¬ Written inputs start before := by
  obtain ⟨_, down, _, lowPhase, _, low, _⟩ := phases_before interleaving later
  obtain ⟨temp, en⟩ := settled_at_end interleaving lowPhase (.inl later.1)
  obtain ⟨_, before, _, _, _, recent, settled⟩ := settled_at_last_rise interleaving lowPhase (.inl later.1)
  refine ⟨⟨temp.trans low, en.trans low⟩, before, recent, fun written => ?_⟩
  exact absurd (written.2.symm.trans (settled.trans low)) Bool.noConfusion

/-- Up to the next rising fast edge the enable does not change. -/
theorem unwritten_after (interleaving : Interleaving inputs start) (rises : At inputs .slowRise moment)
    (temp : (signals inputs start moment).temp = false) (en : (signals inputs start moment).en = false)
    (after : Nat) (next : FirstRiseAfter inputs moment after) : ¬ Written inputs start after := by
  rintro ⟨rising, enabled⟩
  have noRise : ∀ between, moment ≤ between → between < after → ¬ At inputs .fastRise between := by
    intro between low high
    rcases Nat.lt_or_eq_of_le low with strictly | rfl
    · exact next.2.2 between strictly high
    · exact (slow_not_fast (.inl rises)).1
  -- from the slow edge to the next rise the fast clock falls at most once
  have balance := (fast_alternates inputs start interleaving).balance next.1.le
  rw [occurrences_none (At inputs .fastRise) moment after noRise] at balance
  have bound := Bool.toNat_le (signals inputs start moment).fastClk
  obtain ⟨lags, _⟩ := en_lags inputs start (temp.trans en.symm) next.1.le (by omega)
  exact absurd (enabled.symm.trans (lags.trans en)) Bool.noConfusion

/-- Between two rising fast edges that do not write it, and next to which there is no other
one, reg3 keeps its word. -/
theorem word_kept {before after : Nat} (unwrittenBefore : ¬ Written inputs start before)
    (unwrittenAfter : ¬ Written inputs start after)
    (noRise : ∀ between, before < between → between < after → ¬ At inputs .fastRise between)
    (between : Nat) (low : before ≤ between) (high : between ≤ after + 1) :
    (signals inputs start between).reg3Out = (signals inputs start before).reg3Out := by
  apply held_throughout (Written inputs start) (fun moment => (signals inputs start moment).reg3Out)
    (reg3_keeps inputs start) low
  intro cycle atLeast inside written
  rcases Nat.lt_or_eq_of_le atLeast with strictly | rfl
  · rcases Nat.lt_or_eq_of_le (Nat.le_of_lt_succ (inside.trans_le high)) with sooner | rfl
    · exact noRise cycle strictly sooner written.1
    · exact unwrittenAfter written
  · exact unwrittenBefore written

/-- reg3 is not written around a rising edge of the slow clock that is not the first. -/
theorem stable_word (interleaving : Interleaving inputs start) (later : LaterSlowRise inputs moment) :
    StableWord inputs start moment := by
  obtain ⟨⟨temp, en⟩, before, recent, unwrittenBefore⟩ := unwritten_before interleaving later
  refine ⟨before, recent, unwrittenBefore, fun after next => ?_⟩
  have unwrittenAfter := unwritten_after interleaving later.1 temp en after next
  have noRise : ∀ between, before < between → between < after → ¬ At inputs .fastRise between := by
    intro between afterBefore beforeNext
    rcases Nat.lt_trichotomy between moment with sooner | rfl | thereafter
    · exact recent.2.2 between afterBefore sooner
    · exact (slow_not_fast (.inl later.1)).1
    · exact next.2.2 between thereafter beforeNext
  have kept := word_kept unwrittenBefore unwrittenAfter noRise
  refine ⟨unwrittenAfter, fun between low high => ?_⟩
  rw [kept between low high, kept moment recent.1.le (next.1.le.trans (Nat.le_succ after))]

/-- Before such an edge a word has been sampled, later than any earlier rising edge. -/
theorem exists_sampledAt (interleaving : Interleaving inputs start) (later : LaterSlowRise inputs moment) :
    ∃ sample, SampledAt inputs start sample moment ∧
      ∀ earlier, earlier < moment → At inputs .slowRise earlier → earlier < sample := by
  obtain ⟨up, down, highPhase, lowPhase, high, _, sooner⟩ := phases_before interleaving later
  obtain ⟨before, enabled, afterUp, ordered, rising, recent, settled⟩ :=
    settled_at_last_rise interleaving highPhase lowPhase.2.1
  have writes : Written inputs start enabled := ⟨recent.2.1, settled.trans high⟩
  have inside : enabled < moment := recent.1.trans lowPhase.1
  obtain ⟨written, last⟩ := exists_lastBefore (Written inputs start) inside writes
  have ordered' : before < written := ordered.trans_le (last.le inside writes)
  obtain ⟨sample, sampled⟩ := exists_lastBefore (At inputs .fastRise) ordered' rising
  refine ⟨sample, ⟨written, last, sampled⟩, fun earlier past rose => ?_⟩
  calc
    earlier ≤ up := sooner earlier past rose
    _ < before := afterUp
    _ ≤ sample := sampled.le ordered' rising

/-- There is only one such sample, and it lies before the edge. -/
theorem SampledAt.unique {sample other : Nat} (one : SampledAt inputs start sample moment)
    (two : SampledAt inputs start other moment) : sample = other := by
  obtain ⟨written, last, sampled⟩ := one
  obtain ⟨_, otherLast, otherSampled⟩ := two
  obtain rfl := last.unique otherLast
  exact sampled.unique otherSampled

/-- A word is sampled before the moment at which it is shown. -/
theorem SampledAt.lt {sample : Nat} (sampled : SampledAt inputs start sample moment) : sample < moment := by
  obtain ⟨written, last, before⟩ := sampled
  exact before.1.trans last.1

/-- What reg2 takes is the word of data_in at the sampling edge. -/
theorem dataOut_sampled {sample : Nat} (sampled : SampledAt inputs start sample moment)
    (rises : At inputs .slowRise moment) :
    (signals inputs start (moment + 1)).dataOut = (inputs sample).dataIn := by
  obtain ⟨written, last, before⟩ := sampled
  calc
    (signals inputs start (moment + 1)).dataOut
      = (signals inputs start moment).reg3Out := reg2_rise inputs start moment rises
    _ = (signals inputs start written).reg1Out :=
        last.held (fun moment => (signals inputs start moment).reg3Out)
          (fun moment => (signals inputs start moment).reg1Out)
          (reg3_written inputs start) (reg3_keeps inputs start)
    _ = (inputs sample).dataIn :=
        before.held (fun moment => (signals inputs start moment).reg1Out)
          (fun moment => (inputs moment).dataIn)
          (reg1_rise inputs start) (reg1_keeps inputs start)

end Samples

end Runs

/-- In every interleaving, and from any contents of the flip-flops, the crossing is
coherent. -/
theorem crossing_coherent (inputs : Nat → Input) (start : Signals) (interleaving : Interleaving inputs start) :
    Coherent inputs start where
  stable moment later := stable_word interleaving later
  sampled moment later := by
    obtain ⟨sample, sampled, _⟩ := exists_sampledAt interleaving later
    exact ⟨sample, sampled, dataOut_sampled sampled later.1⟩
  increasing moment next sample nextSample later laterNext ordered sampled sampledNext := by
    obtain ⟨other, otherSampled, after⟩ := exists_sampledAt interleaving laterNext
    rw [sampledNext.unique otherSampled]
    exact sampled.lt.trans (after moment ordered later.1)

/-- Three edges of the slow clock with three periods of the fast one between them, and
then the fast clock alone. data_in is the number of the moment. -/
def threeEdges (moment : Nat) : Input where
  edge :=
    if moment = 0 ∨ moment = 14 then .slowRise
    else if moment = 7 then .slowFall
    else if (if 7 < moment ∧ moment < 14 then moment + 1 else moment) % 2 = 1 then .fastRise
    else .fastFall
  dataIn := BitVec.ofNat 12 moment

/-- Both clocks low, and nothing in the flip-flops. -/
def zeroed : Signals where
  fastClk := false
  slowClk := false
  reg1Out := 0
  reg3Out := 0
  dataOut := 0
  temp := false
  en := false

/-- The levels of the two clocks under these edges. -/
theorem threeEdges_levels (moment : Nat) :
    ((signals threeEdges zeroed moment).fastClk = true ↔
      moment ≠ 0 ∧ moment ≠ 14 ∧
        (if 7 < moment ∧ moment < 14 then moment + 1 else moment) % 2 = 0) ∧
    ((signals threeEdges zeroed moment).slowClk = true ↔ (1 ≤ moment ∧ moment ≤ 7) ∨ 15 ≤ moment) := by
  induction moment with
  | zero => decide
  | succ moment inductionHypothesis =>
    obtain ⟨fast, slow⟩ := inductionHypothesis
    simp only [run_succ, step, threeEdges]
    split_ifs <;> simp_all <;> omega

/-- The slow clock has edges in three moments. -/
theorem threeEdges_slow (moment : Nat) (slow : SlowEdge threeEdges moment) :
    moment = 0 ∨ moment = 7 ∨ moment = 14 := by
  simp only [SlowEdge, At, threeEdges] at slow
  split_ifs at slow <;> simp_all
  omega

/-- These edges alternate for each clock, and the slow phases are long enough. -/
theorem threeEdges_interleaving : Interleaving threeEdges zeroed where
  fastRise moment rises := by
    have levels := (threeEdges_levels moment).1
    simp only [At, threeEdges] at rises
    rw [← Bool.not_eq_true, levels]
    split_ifs at rises ⊢ <;> omega
  fastFall moment falls := by
    have levels := (threeEdges_levels moment).1
    simp only [At, threeEdges] at falls
    rw [levels]
    split_ifs at falls ⊢ <;> omega
  slowRise moment rises := by
    have levels := (threeEdges_levels moment).2
    simp only [At, threeEdges] at rises
    rw [← Bool.not_eq_true, levels]
    split_ifs at rises
    omega
  slowFall moment falls := by
    have levels := (threeEdges_levels moment).2
    simp only [At, threeEdges] at falls
    rw [levels]
    split_ifs at falls
    omega
  lasts first last ordered firstSlow lastSlow := by
    rcases threeEdges_slow first firstSlow with rfl | rfl | rfl <;>
      rcases threeEdges_slow last lastSlow with rfl | rfl | rfl <;> first | omega | decide

/-- The crossing is coherent under these edges. -/
theorem crossing_coherent_threeEdges : Coherent threeEdges zeroed :=
  crossing_coherent threeEdges zeroed threeEdges_interleaving

/-- Here the last rising fast edge with en = 1 is moment 10, and the one before it moment 8. -/
example : (signals threeEdges zeroed 15).dataOut = 8#12 := by decide

end CpenLabs.ClockCrossing
