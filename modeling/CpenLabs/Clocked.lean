import Mathlib.Order.Interval.Finset.Nat

/-!
# Runs of a clocked machine

A synchronous circuit is given by one function: from the register values and the
inputs of a clock cycle it computes the register values of the next cycle. A run
is the sequence of register values under a stream of inputs; cycle zero holds the
values before the first rising edge, and the edge that ends cycle `n` is the one
that reads the inputs of cycle `n`.

The lemmas here are about runs in general. They carry the inductions once, so
that a property of a particular circuit needs only its one-step argument.
-/

namespace CpenLabs.Clocked

universe u v
variable {σ : Type u} {ι : Type v}

/-- The register values in each clock cycle. -/
def run (step : ι → σ → σ) (inputs : Nat → ι) (start : σ) : Nat → σ
  | 0 => start
  | cycle + 1 => step (inputs cycle) (run step inputs start cycle)

@[simp] theorem run_zero (step : ι → σ → σ) (inputs : Nat → ι) (start : σ) :
    run step inputs start 0 = start := rfl

@[simp] theorem run_succ (step : ι → σ → σ) (inputs : Nat → ι) (start : σ) (cycle : Nat) :
    run step inputs start (cycle + 1) = step (inputs cycle) (run step inputs start cycle) := rfl

/-- A run continues from any of its cycles as a run of its own, under the inputs
still to come. -/
theorem run_add (step : ι → σ → σ) (inputs : Nat → ι) (start : σ) (first later : Nat) :
    run step inputs start (first + later) =
      run step (fun cycle => inputs (first + cycle)) (run step inputs start first) later := by
  induction later with
  | zero => rfl
  | succ later inductionHypothesis =>
    rw [← Nat.add_assoc, run_succ, run_succ, inductionHypothesis]

/-- A run depends on the inputs of its cycles alone. -/
theorem run_congr (step : ι → σ → σ) {inputs other : Nat → ι} (start : σ) {cycle : Nat}
    (same : ∀ earlier < cycle, inputs earlier = other earlier) :
    run step inputs start cycle = run step other start cycle := by
  induction cycle with
  | zero => rfl
  | succ cycle inductionHypothesis =>
    rw [run_succ, run_succ, same cycle (Nat.lt_succ_self cycle),
      inductionHypothesis fun earlier before => same earlier (Nat.lt_succ_of_lt before)]

/-- An invariant holds in every cycle of every run. -/
theorem run_invariant (step : ι → σ → σ) (inputs : Nat → ι) (start : σ) (good : σ → Prop)
    (initially : good start) (preserved : ∀ input state, good state → good (step input state)) :
    ∀ cycle, good (run step inputs start cycle) := by
  intro cycle
  induction cycle with
  | zero => exact initially
  | succ cycle inductionHypothesis => exact preserved _ _ inductionHypothesis

section Events

variable (event : Nat → Prop) [DecidablePred event]

/-- Number of cycles from `first` up to, but excluding, `last` in which an event
occurs. -/
def occurrences (first last : Nat) : Nat := ((Finset.Ico first last).filter event).card

@[simp] theorem occurrences_self (cycle : Nat) : occurrences event cycle cycle = 0 := by
  simp [occurrences]

/-- One more cycle adds its own occurrence, if it has one. -/
theorem occurrences_succ (first last : Nat) (ordered : first ≤ last) :
    occurrences event first (last + 1) =
      occurrences event first last + if event last then 1 else 0 := by
  unfold occurrences
  rw [Nat.Ico_succ_right_eq_insert_Ico ordered, Finset.filter_insert]
  split_ifs
  · rw [Finset.card_insert_of_notMem (by simp)]
  · rfl

/-- A stretch is counted in two parts. -/
theorem occurrences_add (first middle last : Nat) (lower : first ≤ middle) (upper : middle ≤ last) :
    occurrences event first last = occurrences event first middle + occurrences event middle last := by
  induction last, upper using Nat.le_induction with
  | base => simp
  | succ last upper inductionHypothesis =>
    rw [occurrences_succ event first last (by omega), occurrences_succ event middle last upper,
      inductionHypothesis, Nat.add_assoc]

/-- A longer stretch has no fewer occurrences. -/
theorem occurrences_le (first middle last : Nat) (lower : first ≤ middle) (upper : middle ≤ last) :
    occurrences event first middle ≤ occurrences event first last := by
  rw [occurrences_add event first middle last lower upper]
  exact Nat.le_add_right _ _

/-- An event that does not occur in a stretch is counted zero times. -/
theorem occurrences_none (first last : Nat)
    (never : ∀ cycle, first ≤ cycle → cycle < last → ¬ event cycle) :
    occurrences event first last = 0 := by
  simp only [occurrences, Finset.card_eq_zero, Finset.filter_eq_empty_iff, Finset.mem_Ico]
  exact fun cycle bounds => never cycle bounds.1 bounds.2

end Events

section First

variable {event : Nat → Prop}

/-- The first cycle in which an event occurs. -/
def First (event : Nat → Prop) (cycle : Nat) : Prop :=
  event cycle ∧ ∀ earlier, earlier < cycle → ¬ event earlier

/-- There is at most one first cycle. -/
theorem First.unique {cycle other : Nat} (first : First event cycle) (second : First event other) :
    cycle = other := by
  rcases Nat.lt_trichotomy cycle other with earlier | same | later
  · exact absurd first.1 (second.2 cycle earlier)
  · exact same
  · exact absurd second.1 (first.2 other later)

/-- An event that occurs has a first occurrence. -/
theorem exists_first {cycle : Nat} (occurs : event cycle) : ∃ first, first ≤ cycle ∧ First event first := by
  classical
  exact ⟨Nat.find ⟨cycle, occurs⟩, Nat.find_le occurs, Nat.find_spec ⟨cycle, occurs⟩,
    fun _ sooner => Nat.find_min ⟨cycle, occurs⟩ sooner⟩

/-- What holds in some first cycle holds in the one that is known. -/
theorem First.exists_iff {cycle : Nat} (first : First event cycle) (good : Nat → Prop) :
    (∃ found, First event found ∧ good found) ↔ good cycle := by
  constructor
  · rintro ⟨found, other, holds⟩
    exact first.unique other ▸ holds
  · intro holds
    exact ⟨cycle, first, holds⟩

end First

section Countdown

variable (step : ι → σ → σ) (inputs : Nat → ι) (start : σ) (rank : σ → Nat)
  (lowers : ∀ input state, 0 < rank state → rank (step input state) + 1 = rank state)

include lowers

/-- A rank that every step lowers by one counts the cycles down. -/
theorem countdown (cycle : Nat) (soon : cycle ≤ rank start) :
    rank (run step inputs start cycle) + cycle = rank start := by
  induction cycle with
  | zero => rfl
  | succ cycle inductionHypothesis =>
    have before := inductionHypothesis (Nat.le_of_succ_le soon)
    have lowered := lowers (inputs cycle) (run step inputs start cycle) (by omega)
    rw [run_succ]
    omega

/-- It is zero for the first time after as many cycles as it had at the start. -/
theorem countdown_first : First (fun cycle => rank (run step inputs start cycle) = 0) (rank start) := by
  constructor
  · have ended := countdown step inputs start rank lowers (rank start) (Nat.le_refl _)
    exact Nat.add_eq_right.mp ended
  · intro earlier sooner ended
    have running := countdown step inputs start rank lowers earlier sooner.le
    rw [ended, Nat.zero_add] at running
    exact absurd running sooner.ne

end Countdown

section Climbs

variable (rank : Nat → Nat) (first last : Nat)

/-- A machine that in each cycle either keeps its place in a fixed order of states or
moves to the next one. -/
def Climbs : Prop :=
  ∀ cycle, first ≤ cycle → cycle < last →
    rank (cycle + 1) = rank cycle ∨ rank (cycle + 1) = rank cycle + 1

variable {rank first last}

/-- A climb never descends. -/
theorem Climbs.mono (climbs : Climbs rank first last) {early late : Nat} (low : first ≤ early)
    (ordered : early ≤ late) (high : late ≤ last) : rank early ≤ rank late := by
  induction late, ordered using Nat.le_induction with
  | base => exact Nat.le_refl _
  | succ late ordered inductionHypothesis =>
    have before := inductionHypothesis (by omega)
    rcases climbs late (by omega) (by omega) with kept | moved <;> omega

/-- Every level between the two ends is passed: some cycle is the last one at it. -/
theorem Climbs.exists_step (climbs : Climbs rank first last) (level : Nat)
    (low : rank first ≤ level) (high : level < rank last) (ordered : first ≤ last) :
    ∃ cycle, first ≤ cycle ∧ cycle < last ∧ rank cycle = level ∧ rank (cycle + 1) = level + 1 := by
  induction last, ordered using Nat.le_induction with
  | base => omega
  | succ last ordered inductionHypothesis =>
    have shorter : Climbs rank first last := fun cycle low high => climbs cycle low (by omega)
    by_cases passed : level < rank last
    · obtain ⟨cycle, after, before, here, next⟩ := inductionHypothesis shorter passed
      exact ⟨cycle, after, by omega, here, next⟩
    · refine ⟨last, ordered, by omega, ?_, ?_⟩ <;>
        rcases climbs last ordered (by omega) with kept | moved <;> omega

/-- A level that is left at once is occupied in exactly one cycle. -/
theorem Climbs.exists_only (climbs : Climbs rank first last) (level : Nat)
    (low : rank first ≤ level) (high : level < rank last) (ordered : first ≤ last)
    (leaves : ∀ cycle, first ≤ cycle → cycle < last → rank cycle = level →
      rank (cycle + 1) = level + 1) :
    ∃ only, first ≤ only ∧ only < last ∧
      ∀ cycle, first ≤ cycle → cycle ≤ last → (rank cycle = level ↔ cycle = only) := by
  obtain ⟨only, after, before, here, next⟩ := climbs.exists_step level low high ordered
  refine ⟨only, after, before, fun cycle lower upper => ⟨fun same => ?_, fun same => same ▸ here⟩⟩
  rcases Nat.lt_trichotomy cycle only with earlier | same | later
  · have left := leaves cycle lower (by omega) same
    have below := climbs.mono (by omega : first ≤ cycle + 1) earlier (by omega)
    omega
  · exact same
  · have below := climbs.mono (by omega : first ≤ only + 1) later upper
    omega

end Climbs

section Stays

variable (holds : Nat → Prop)

/-- A condition begins to hold in cycle `first` and holds up to cycle `last`. -/
def Stay (first last : Nat) : Prop :=
  first ≤ last ∧ (∀ cycle, first ≤ cycle → cycle ≤ last → holds cycle) ∧
    ∀ before, before + 1 = first → ¬ holds before

/-- A condition that holds in a cycle has begun to hold at some earlier one. -/
theorem exists_stay (last : Nat) (now : holds last) : ∃ first, Stay holds first last := by
  induction last with
  | zero =>
    exact ⟨0, Nat.le_refl 0, fun cycle _ high => Nat.le_zero.mp high ▸ now, fun _ impossible => by omega⟩
  | succ last inductionHypothesis =>
    by_cases before : holds last
    · obtain ⟨first, ordered, throughout, begins⟩ := inductionHypothesis before
      refine ⟨first, by omega, fun cycle low high => ?_, begins⟩
      rcases Nat.lt_or_eq_of_le high with earlier | same
      · exact throughout cycle low (by omega)
      · exact same ▸ now
    · refine ⟨last + 1, Nat.le_refl _, fun cycle low high => ?_, fun previous same => ?_⟩
      · exact Nat.le_antisymm high low ▸ now
      · exact Nat.succ.inj same ▸ before

end Stays

section Last

variable {event : Nat → Prop} {last cycle : Nat}

/-- The last cycle before a given one in which an event occurs. -/
def LastBefore (event : Nat → Prop) (last cycle : Nat) : Prop :=
  last < cycle ∧ event last ∧ ∀ later, last < later → later < cycle → ¬ event later

/-- There is at most one. -/
theorem LastBefore.unique {other : Nat} (one : LastBefore event last cycle)
    (two : LastBefore event other cycle) : last = other := by
  rcases Nat.lt_trichotomy last other with earlier | same | later
  · exact absurd two.2.1 (one.2.2 other earlier two.1)
  · exact same
  · exact absurd one.2.1 (two.2.2 last later one.1)

/-- No occurrence before the given cycle is later. -/
theorem LastBefore.le {other : Nat} (recent : LastBefore event last cycle) (before : other < cycle)
    (occurs : event other) : other ≤ last := by
  apply Nat.le_of_not_lt
  intro later
  exact recent.2.2 other later before occurs

/-- An event that has occurred has a last occurrence. -/
theorem exists_lastBefore (event : Nat → Prop) {earlier : Nat} (before : earlier < cycle)
    (occurs : event earlier) :
    ∃ last, LastBefore event last cycle := by
  induction cycle, before using Nat.le_induction with
  | base => exact ⟨earlier, Nat.lt_succ_self earlier, occurs, fun later low high => by omega⟩
  | succ cycle before inductionHypothesis =>
    by_cases now : event cycle
    · exact ⟨cycle, Nat.lt_succ_self cycle, now, fun later low high => by omega⟩
    · obtain ⟨last, sooner, occurred, none⟩ := inductionHypothesis
      refine ⟨last, Nat.lt_succ_of_lt sooner, occurred, fun later low high => ?_⟩
      rcases Nat.lt_or_eq_of_le (Nat.le_of_lt_succ high) with strictly | rfl
      · exact none later low strictly
      · exact now

/-- A register that is loaded by an event, and by nothing else, holds what the last
occurrence has loaded. -/
theorem LastBefore.held {α : Type u} (recent : LastBefore event last cycle) (value load : Nat → α)
    (loads : ∀ cycle, event cycle → value (cycle + 1) = load cycle)
    (holds : ∀ cycle, ¬ event cycle → value (cycle + 1) = value cycle) :
    value cycle = load last := by
  obtain ⟨before, occurs, none⟩ := recent
  induction cycle, before using Nat.le_induction with
  | base => exact loads last occurs
  | succ cycle before inductionHypothesis =>
    rw [holds cycle (none cycle before (Nat.lt_succ_self cycle))]
    exact inductionHypothesis fun later low high => none later low (Nat.lt_succ_of_lt high)

/-- Without an event it holds what it held. -/
theorem held_throughout (event : Nat → Prop) {α : Type u} (value : Nat → α)
    (holds : ∀ cycle, ¬ event cycle → value (cycle + 1) = value cycle) {first : Nat}
    (ordered : first ≤ last) (never : ∀ cycle, first ≤ cycle → cycle < last → ¬ event cycle) :
    value last = value first := by
  induction last, ordered using Nat.le_induction with
  | base => rfl
  | succ last ordered inductionHypothesis =>
    rw [holds last (never last ordered (Nat.lt_succ_self last))]
    exact inductionHypothesis fun cycle low high => never cycle low (Nat.lt_succ_of_lt high)

end Last

section Levels

variable {rise fall : Nat → Prop} [DecidablePred rise] [DecidablePred fall] {level : Nat → Bool}

/-- A level that rises and falls by turns. -/
structure Alternates (rise fall : Nat → Prop) (level : Nat → Bool) : Prop where
  rises : ∀ cycle, rise cycle → level cycle = false ∧ level (cycle + 1) = true
  falls : ∀ cycle, fall cycle → level cycle = true ∧ level (cycle + 1) = false
  keeps : ∀ cycle, ¬ rise cycle → ¬ fall cycle → level (cycle + 1) = level cycle

/-- In any stretch the rises exceed the falls by what the level has gained. -/
theorem Alternates.balance (alternates : Alternates rise fall level) {first last : Nat}
    (ordered : first ≤ last) :
    occurrences rise first last + (level first).toNat =
      occurrences fall first last + (level last).toNat := by
  induction last, ordered using Nat.le_induction with
  | base => simp
  | succ last ordered inductionHypothesis =>
    rw [occurrences_succ rise first last ordered, occurrences_succ fall first last ordered]
    by_cases up : rise last
    · obtain ⟨low, high⟩ := alternates.rises last up
      have notDown : ¬ fall last := fun down =>
        absurd (low.symm.trans (alternates.falls last down).1) Bool.false_ne_true
      rw [low] at inductionHypothesis
      rw [if_pos up, if_neg notDown, high]
      simp only [Bool.toNat_true, Bool.toNat_false] at *
      omega
    · by_cases down : fall last
      · obtain ⟨high, low⟩ := alternates.falls last down
        rw [high] at inductionHypothesis
        rw [if_neg up, if_pos down, low]
        simp only [Bool.toNat_true, Bool.toNat_false] at *
        omega
      · rw [if_neg up, if_neg down, alternates.keeps last up down]
        exact inductionHypothesis

/-- From its last occurrence on an event is counted once. -/
theorem LastBefore.occurrences_eq {last cycle : Nat} (recent : LastBefore rise last cycle) :
    occurrences rise last cycle = 1 := by
  obtain ⟨before, occurs, none⟩ := recent
  have one : occurrences rise last (last + 1) = 1 := by
    rw [occurrences_succ rise last last (Nat.le_refl last), occurrences_self, if_pos occurs]
  rw [occurrences_add rise last (last + 1) cycle (Nat.le_succ last) before, one,
    occurrences_none rise (last + 1) cycle fun later low high => none later low high]

/-- An event that is counted has occurred. -/
theorem exists_of_occurrences (event : Nat → Prop) [DecidablePred event] (first last : Nat)
    (counted : 0 < occurrences event first last) :
    ∃ cycle, first ≤ cycle ∧ cycle < last ∧ event cycle := by
  obtain ⟨cycle, member⟩ := Finset.card_pos.mp counted
  obtain ⟨inside, occurs⟩ := Finset.mem_filter.mp member
  obtain ⟨low, high⟩ := Finset.mem_Ico.mp inside
  exact ⟨cycle, low, high, occurs⟩

end Levels

section Recurring

variable {event : Nat → Prop} [DecidablePred event] (recurs : ∀ cycle, ∃ later, cycle ≤ later ∧ event later)

include recurs

/-- An event that comes again and again has a next occurrence. -/
theorem exists_next (first : Nat) :
    ∃ next, first ≤ next ∧ event next ∧ occurrences event first next = 0 := by
  obtain ⟨later, low, occurs⟩ := recurs first
  obtain ⟨next, _, ⟨after, comes⟩, none⟩ :
      ∃ next, next ≤ later ∧ First (fun cycle => first ≤ cycle ∧ event cycle) next :=
    exists_first ⟨low, occurs⟩
  exact ⟨next, after, comes, occurrences_none event first next
    fun cycle inside before comes => none cycle before ⟨inside, comes⟩⟩

/-- Counted from any cycle on, it has an occurrence of every number. -/
theorem exists_numbered (first number : Nat) :
    ∃ cycle, first ≤ cycle ∧ event cycle ∧ occurrences event first cycle = number := by
  induction number with
  | zero => exact exists_next recurs first
  | succ number inductionHypothesis =>
    obtain ⟨cycle, low, occurs, counted⟩ := inductionHypothesis
    obtain ⟨next, after, comes, none⟩ := exists_next recurs (cycle + 1)
    have past : first ≤ cycle + 1 := low.trans (Nat.le_succ cycle)
    refine ⟨next, past.trans after, comes, ?_⟩
    rw [occurrences_add event first (cycle + 1) next past after, occurrences_succ event first cycle low,
      if_pos occurs, counted, none]

end Recurring

section Numbers

variable (event : Nat → Prop) [DecidablePred event]

/-- Two occurrences do not have the same number. -/
theorem occurrences_injective {cycle other : Nat} (occurs : event cycle) (occurs' : event other)
    (same : occurrences event 0 cycle = occurrences event 0 other) : cycle = other := by
  have counted : ∀ early late, early < late → event early →
      occurrences event 0 early < occurrences event 0 late := by
    intro early late before comes
    have step := occurrences_succ event 0 early (Nat.zero_le early)
    rw [if_pos comes] at step
    exact Nat.lt_of_lt_of_le (step ▸ Nat.lt_succ_self _)
      (occurrences_le event 0 (early + 1) late (Nat.zero_le _) before)
  rcases Nat.lt_trichotomy cycle other with earlier | found | later
  · exact absurd same (Nat.ne_of_lt (counted _ _ earlier occurs))
  · exact found
  · exact absurd same.symm (Nat.ne_of_lt (counted _ _ later occurs'))

/-- Values that come with an event can be numbered as its occurrences are. -/
theorem exists_numbering {α : Type u} [Inhabited α] (value : Nat → α) :
    ∃ numbered : Nat → α, ∀ cycle, event cycle → numbered (occurrences event 0 cycle) = value cycle := by
  classical
  have each : ∀ number, ∃ given, ∀ cycle, event cycle →
      occurrences event 0 cycle = number → given = value cycle := by
    intro number
    by_cases some : ∃ cycle, event cycle ∧ occurrences event 0 cycle = number
    · obtain ⟨cycle, occurs, counted⟩ := some
      refine ⟨value cycle, fun other occurs' counted' => ?_⟩
      rw [occurrences_injective event occurs occurs' (counted.trans counted'.symm)]
    · exact ⟨default, fun cycle occurs counted => absurd ⟨cycle, occurs, counted⟩ some⟩
  choose numbered given using each
  exact ⟨numbered, fun cycle occurs => given _ cycle occurs rfl⟩

end Numbers

section Histories

variable {α : Type u} (observed : Nat → List α)

/-- What is observed up to, but excluding, a cycle, in the order of the cycles. -/
def history : Nat → List α
  | 0 => []
  | cycle + 1 => history cycle ++ observed cycle

@[simp] theorem history_zero : history observed 0 = [] := rfl

@[simp] theorem history_succ (cycle : Nat) :
    history observed (cycle + 1) = history observed cycle ++ observed cycle := rfl

/-- A history goes on with what is observed later. -/
theorem history_add (later first : Nat) :
    history observed (later + first) =
      history observed first ++ history (fun number => observed (number + first)) later := by
  induction later with
  | zero => rw [Nat.zero_add, history_zero, List.append_nil]
  | succ later inductionHypothesis =>
    rw [Nat.add_right_comm, history_succ, inductionHypothesis, history_succ, List.append_assoc]

/-- Nothing is in a history of cycles in which nothing is observed. -/
theorem history_none {cycle : Nat} (nothing : ∀ number, number < cycle → observed number = []) :
    history observed cycle = [] := by
  induction cycle with
  | zero => rfl
  | succ cycle inductionHypothesis =>
    rw [history_succ, inductionHypothesis fun number before => nothing number (Nat.lt_succ_of_lt before),
      nothing cycle (Nat.lt_succ_self cycle), List.append_nil]

/-- A history only grows at its end. -/
theorem history_prefix {first last : Nat} (ordered : first ≤ last) :
    history observed first <+: history observed last := by
  induction last, ordered using Nat.le_induction with
  | base => exact List.prefix_refl _
  | succ last _ inductionHypothesis => exact inductionHypothesis.trans (List.prefix_append _ _)

variable {observed}

/-- If in every cycle what is inside, followed by what enters, is what leaves, followed
by what is inside afterwards, then nothing is lost, added or overtaken. -/
theorem history_balance (inside entering leaving : Nat → List α)
    (balance : ∀ cycle, inside cycle ++ entering cycle = leaving cycle ++ inside (cycle + 1))
    (cycle : Nat) :
    inside 0 ++ history entering cycle = history leaving cycle ++ inside cycle := by
  induction cycle with
  | zero => exact List.append_nil _
  | succ cycle inductionHypothesis =>
    rw [history_succ, history_succ, ← List.append_assoc, inductionHypothesis, List.append_assoc,
      List.append_assoc, balance]

end Histories

section Ranks

variable {awaited event : Nat → Prop} {rank : Nat → Nat}

/-- An event that is awaited comes before its rank runs out, if the rank falls in every
cycle without it. -/
theorem exists_soon (positive : ∀ cycle, awaited cycle → 0 < rank cycle)
    (falls : ∀ cycle, awaited cycle → ¬ event cycle →
      awaited (cycle + 1) ∧ rank (cycle + 1) + 1 ≤ rank cycle)
    (edges : Nat) {cycle : Nat} (now : awaited cycle) (near : rank cycle ≤ edges) :
    ∃ later < edges, event (cycle + later) := by
  induction edges generalizing cycle with
  | zero => exact absurd (positive cycle now) (Nat.not_lt.mpr near)
  | succ edges inductionHypothesis =>
    by_cases occurs : event cycle
    · exact ⟨0, Nat.succ_pos edges, occurs⟩
    · obtain ⟨next, fallen⟩ := falls cycle now occurs
      obtain ⟨later, before, found⟩ := inductionHypothesis next (by omega)
      exact ⟨later + 1, Nat.succ_lt_succ before, by rwa [Nat.add_assoc, Nat.add_comm 1] at found⟩

end Ranks

end CpenLabs.Clocked
