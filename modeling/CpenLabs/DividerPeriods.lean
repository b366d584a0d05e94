import CpenLabs.SampleClock

/-!
# Half periods under a changing limit

Clock_Divider compares its count with the limit at every edge, and the limit may be
another one each time: the speed keys change it in the middle of a half period. The count
is the number of edges since the last toggle, so that the next toggle comes at the first
edge whose limit is not above that number. The comparison is an inequality. A limit that
is lowered below the count is met at once, and no sequence of limits lets the count run
past 2^32.

The half periods are counted in edges of inclk from any edge at which the count is zero,
in particular from the edge after a toggle. Nothing is assumed about the start.
-/

namespace CpenLabs.DividerPeriods

open Clocked SampleClock

/-- `Clock_Divider` with its reset input. -/
def clockDivider (reset : Bool) (divClkCount : BitVec 32) (divider : ClockDivider) : ClockDivider :=
  if reset then { count := 0#32, outclk := false } else divider.step divClkCount

section Runs

variable (limits : Nat → BitVec 32) (start : ClockDivider)

/-- The registers at each edge of inclk, without a reset. -/
abbrev divider (edge : Nat) : ClockDivider := run (clockDivider false) limits start edge

/-- The edge toggles outclk. -/
def Toggles (edge : Nat) : Prop :=
  (divider limits start (edge + 1)).outclk ≠ (divider limits start edge).outclk

/-- The limit seen some edges after `first` is not above their number. -/
def Reached (first later : Nat) : Prop := (limits (first + later)).toNat ≤ later

/-- The next edge that toggles outclk, counted from `first`. -/
def NextToggle (first later : Nat) : Prop :=
  First (fun later => Toggles limits start (first + later)) later

/-- The half periods of outclk. From an edge with a zero count on, the next toggle is at the
first edge whose limit is reached, and there is one; its half period lies between the
limits seen, and is exact under a constant limit; a limit below the count is met at once;
and the count never wraps. -/
structure HalfPeriods : Prop where
  cleared : ∀ edge, Toggles limits start edge → (divider limits start (edge + 1)).count = 0#32
  next : ∀ first, (divider limits start first).count = 0#32 →
    ∃ least, least < 2 ^ 32 ∧ First (Reached limits first) least ∧ NextToggle limits start first least
  bounded : ∀ first low high later, (divider limits start first).count = 0#32 →
    (∀ index, index ≤ later →
      low ≤ (limits (first + index)).toNat ∧ (limits (first + index)).toNat ≤ high) →
    NextToggle limits start first later → low + 1 ≤ later + 1 ∧ later + 1 ≤ high + 1
  constant : ∀ first limit later, (divider limits start first).count = 0#32 →
    (∀ index, index ≤ later → limits (first + index) = limit) →
    NextToggle limits start first later → later + 1 = limit.toNat + 1
  lowered : ∀ edge, limits edge < (divider limits start edge).count → Toggles limits start edge
  unwrapped : ∀ edge,
    if (divider limits start edge).count < limits edge then
      (divider limits start (edge + 1)).count.toNat = (divider limits start edge).count.toNat + 1
    else (divider limits start (edge + 1)).count.toNat = 0

variable {limits start}

/-- Below its limit the count goes on, and cannot wrap. -/
theorem divider_counts (edge : Nat)
    (below : (divider limits start edge).count.toNat < (limits edge).toNat) :
    (divider limits start (edge + 1)).count.toNat = (divider limits start edge).count.toNat + 1 ∧
      (divider limits start (edge + 1)).outclk = (divider limits start edge).outclk := by
  have stepped : divider limits start (edge + 1) = _ := ClockDivider.step_below (limits edge) _ below
  have bound := (limits edge).isLt
  rw [stepped]
  refine ⟨?_, rfl⟩
  rw [BitVec.toNat_add]
  exact Nat.mod_eq_of_lt (Nat.lt_of_le_of_lt below bound)

/-- At its limit and above it is cleared. -/
theorem divider_toggles (edge : Nat)
    (reached : (limits edge).toNat ≤ (divider limits start edge).count.toNat) :
    (divider limits start (edge + 1)).count = 0#32 ∧ Toggles limits start edge := by
  have stepped : divider limits start (edge + 1) = _ := ClockDivider.step_reached (limits edge) _ reached
  rw [Toggles, stepped]
  exact ⟨rfl, Bool.not_ne_self _⟩

/-- So an edge toggles exactly at a limit that is reached. -/
theorem toggles_iff (edge : Nat) :
    Toggles limits start edge ↔ (limits edge).toNat ≤ (divider limits start edge).count.toNat := by
  constructor
  · intro toggles
    by_contra below
    exact toggles (divider_counts edge (Nat.lt_of_not_le below)).2
  · intro reached
    exact (divider_toggles edge reached).2

/-- The count is the number of edges since it was zero, as long as no limit is reached. -/
theorem count_eq (first : Nat) (zero : (divider limits start first).count = 0#32) (later : Nat)
    (running : ∀ index, index < later → ¬ Reached limits first index) :
    (divider limits start (first + later)).count.toNat = later := by
  induction later with
  | zero => exact congrArg BitVec.toNat zero
  | succ later inductionHypothesis =>
    have counted := inductionHypothesis fun index sooner => running index (Nat.lt_succ_of_lt sooner)
    have below : later < (limits (first + later)).toNat := Nat.lt_of_not_le (running later (Nat.lt_succ_self later))
    rw [← Nat.add_assoc, (divider_counts (first + later) (counted.trans_lt below)).1, counted]

/-- The first limit that is reached makes the next toggle. -/
theorem nextToggle_of_reached (first : Nat) (zero : (divider limits start first).count = 0#32) (least : Nat)
    (reached : First (Reached limits first) least) : NextToggle limits start first least := by
  constructor
  · apply (toggles_iff (first + least)).mpr
    rw [count_eq first zero least reached.2]
    exact reached.1
  · intro earlier sooner toggles
    have met := (toggles_iff (first + earlier)).mp toggles
    rw [count_eq first zero earlier fun index before => reached.2 index (before.trans sooner)] at met
    exact reached.2 earlier sooner met

variable (limits) in
/-- A limit of 32 bits is reached at last. -/
theorem exists_reached (first : Nat) : ∃ least, least < 2 ^ 32 ∧ First (Reached limits first) least := by
  have reached : Reached limits first (2 ^ 32 - 1) := Nat.le_sub_one_of_lt (limits _).isLt
  obtain ⟨least, soon, isFirst⟩ := exists_first reached
  exact ⟨least, by omega, isFirst⟩

/-- The next toggle is made by the first limit reached. -/
theorem reached_of_nextToggle (first : Nat) (zero : (divider limits start first).count = 0#32) (later : Nat)
    (toggle : NextToggle limits start first later) : First (Reached limits first) later := by
  obtain ⟨least, _, reached⟩ := exists_reached limits first
  obtain rfl := toggle.unique (nextToggle_of_reached first zero least reached)
  exact reached

/-- Its number of edges lies between the limits seen. -/
theorem half_period_bounds (first low high later : Nat) (zero : (divider limits start first).count = 0#32)
    (within : ∀ index, index ≤ later →
      low ≤ (limits (first + index)).toNat ∧ (limits (first + index)).toNat ≤ high)
    (toggle : NextToggle limits start first later) : low + 1 ≤ later + 1 ∧ later + 1 ≤ high + 1 := by
  obtain ⟨reached, sooner⟩ := reached_of_nextToggle first zero later toggle
  constructor
  · exact Nat.succ_le_succ ((within later (Nat.le_refl later)).1.trans reached)
  · cases later with
    | zero => exact Nat.succ_le_succ (Nat.zero_le high)
    | succ before =>
      have running : before < (limits (first + before)).toNat :=
        Nat.lt_of_not_le (sooner before (Nat.lt_succ_self before))
      exact Nat.succ_le_succ (running.trans_le (within before (Nat.le_succ before)).2)

end Runs

/-- The half periods of outclk under any sequence of limits. -/
theorem half_periods (limits : Nat → BitVec 32) (start : ClockDivider) : HalfPeriods limits start where
  cleared edge toggles := (divider_toggles edge ((toggles_iff edge).mp toggles)).1
  next first zero := by
    obtain ⟨least, bound, reached⟩ := exists_reached limits first
    exact ⟨least, bound, reached, nextToggle_of_reached first zero least reached⟩
  bounded first low high later zero within toggle := half_period_bounds first low high later zero within toggle
  constant first limit later zero same toggle := by
    have within : ∀ index, index ≤ later →
        limit.toNat ≤ (limits (first + index)).toNat ∧ (limits (first + index)).toNat ≤ limit.toNat := by
      intro index inside
      rw [same index inside]
      exact ⟨Nat.le_refl _, Nat.le_refl _⟩
    obtain ⟨lower, upper⟩ := half_period_bounds first limit.toNat limit.toNat later zero within toggle
    exact Nat.le_antisymm upper lower
  lowered edge below := (toggles_iff edge).mpr (Nat.le_of_lt below)
  unwrapped edge := by
    split
    · exact (divider_counts edge ‹_›).1
    · exact congrArg BitVec.toNat (divider_toggles edge (Nat.le_of_not_lt ‹_›)).1

/-- The speed keys may change the count at any edge: a half period of the sample clock has
between 1 and 2273 edges. -/
theorem speed_half_period (keys : Nat → Keys) (start : ClockDivider) (first later : Nat)
    (zero : (divider (run speedControl keys count22K) start first).count = 0#32)
    (toggle : NextToggle (run speedControl keys count22K) start first later) :
    1 ≤ later + 1 ∧ later + 1 ≤ 2 * 0x470 + 1 := by
  apply half_period_bounds first 0 (2 * 0x470) later zero ?_ toggle
  intro index _
  have bounds := run_invariant speedControl keys count22K
    (fun count => 16 ∣ count.toNat ∧ count.toNat ≤ 2 * 0x470) ⟨by decide, by decide⟩ speedControl_bounds
    (first + index)
  exact ⟨Nat.zero_le _, bounds.2⟩

end CpenLabs.DividerPeriods
