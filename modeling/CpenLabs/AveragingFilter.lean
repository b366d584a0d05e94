import CpenLabs.InterruptTransparency
import Mathlib.Algebra.BigOperators.Intervals
import Mathlib.Algebra.Order.BigOperators.Group.Finset
import Mathlib.Algebra.Group.Action.Defs
import Mathlib.Data.Nat.Size

/-!
# The average that the LEDs show

The service routine adds up the magnitudes of 256 samples in two bytes of the scratch
memory, one sample in each service, and then shows the average as a bar of LEDs. The
sum of a whole batch is at most 256 times 128, so that the two bytes hold it exactly,
and its high byte is the average rounded down.

The state of the routine between two services is its own: the main program leaves the
scratch memory alone. The services are counted from one, and the batches from the
first service on.
-/

namespace CpenLabs.AveragingFilter

open Clocked Kcpsm3 PracPico InterruptedRun ServiceRoutine InterruptTransparency

/-- The magnitude of a sample, read as a signed number. -/
def loudness (sample : Byte) : Nat := sample.toInt.natAbs

/-- That of -128 is the largest. -/
theorem loudness_le (sample : Byte) : loudness sample ≤ 128 := by
  have low := BitVec.le_toInt sample
  have high := @BitVec.toInt_lt 8 sample
  unfold loudness
  omega

/-- The routine's magnitude is the right one; for -128 it is 128. -/
theorem magnitude_loudness (sample : Byte) : (magnitude sample).toNat = loudness sample := by
  have bound := sample.isLt
  have negated : (sample ^^^ 0xff) + 1 = -sample := by
    rw [BitVec.neg_eq_not_add, ← BitVec.xor_allOnes]
    rfl
  unfold magnitude loudness
  rw [BitVec.toInt_eq_toNat_cond]
  simp only [BitVec.le_def, BitVec.toNat_ofNat]
  split_ifs with negative small small
  · omega
  · rw [negated, BitVec.toNat_neg]
    omega
  · omega
  · omega

/-- The byte whose first bits are ones. -/
def leadingOnes (count : Nat) : Byte := BitVec.allOnes 8 <<< (8 - count)

/-- The bit length of a number between two powers of two. -/
theorem size_between (number length : Nat) (low : 2 ^ length ≤ number) (high : number < 2 ^ (length + 1)) :
    number.size = length + 1 :=
  Nat.le_antisymm (Nat.size_le.mpr high) (Nat.lt_size.mpr low)

/-- The bar has as many ones as the high byte has bits, but at least one. -/
theorem bar_leadingOnes (high : Byte) : bar high = leadingOnes (max 1 high.toNat.size) := by
  have bound := high.isLt
  unfold bar
  simp only [BitVec.le_def, BitVec.toNat_ofNat]
  split_ifs with h1 h2 h3 h4 h5 h6 h7
  · rw [size_between high.toNat 7 (by omega) (by omega)]
    rfl
  · rw [size_between high.toNat 6 (by omega) (by omega)]
    rfl
  · rw [size_between high.toNat 5 (by omega) (by omega)]
    rfl
  · rw [size_between high.toNat 4 (by omega) (by omega)]
    rfl
  · rw [size_between high.toNat 3 (by omega) (by omega)]
    rfl
  · rw [size_between high.toNat 2 (by omega) (by omega)]
    rfl
  · rw [size_between high.toNat 1 (by omega) (by omega)]
    rfl
  · have small : high.toNat.size ≤ 1 := Nat.size_le.mpr (by omega)
    rw [Nat.max_eq_left small]
    rfl

section Batches

variable (samples : Nat → Byte)

/-- The sum of the samples of the batch that has been begun, after some services. -/
def batchSum (begun : Nat) : Nat := ∑ place ∈ Finset.Ioc (begun - begun % 256) begun, loudness (samples place)

/-- The average of the last 256 samples, rounded down. -/
def average (begun : Nat) : Nat := (∑ place ∈ Finset.Ioc (begun - 256) begun, loudness (samples place)) / 256

/-- Equal samples have their magnitude as the average. -/
theorem average_constant (sample : Byte) (begun : Nat) (full : 256 ≤ begun) :
    average (fun _ => sample) begun = loudness sample := by
  have width : begun - (begun - 256) = 256 := Nat.sub_sub_self full
  rw [average, Finset.sum_const, Nat.card_Ioc, width, smul_eq_mul]
  exact Nat.mul_div_cancel_left _ (by decide)

/-- The two bytes of the sum. -/
def accumulator (filter : Filter) : Nat := 256 * filter.carryStored.toNat + filter.stored.toNat

/-- One more sample joins the batch, at its place. -/
theorem sum_grows (begun : Nat) :
    ∑ place ∈ Finset.Ioc (begun - begun % 256) (begun + 1), loudness (samples place) =
      batchSum samples begun + loudness (samples (begun + 1)) := by
  have ordered : begun - begun % 256 ≤ begun := Nat.sub_le ..
  rw [batchSum, ← Finset.sum_Ioc_succ_top ordered]

/-- The sum of a batch fits into two bytes, even with one more sample. -/
theorem sum_bound (begun : Nat) :
    batchSum samples begun + loudness (samples (begun + 1)) ≤ 256 * 128 := by
  rw [← sum_grows]
  have each := Finset.sum_le_card_nsmul (Finset.Ioc (begun - begun % 256) (begun + 1))
    (fun place => loudness (samples place)) 128 fun place _ => loudness_le _
  rw [Nat.card_Ioc, smul_eq_mul] at each
  have short : begun + 1 - (begun - begun % 256) ≤ 256 := by omega
  exact Nat.le_trans each (Nat.mul_le_mul_right 128 short)

/-- Between two services the filter counts the samples of the batch and holds their
sum. -/
structure Exact (begun : Nat) (filter : Filter) : Prop where
  counter : filter.counter.toNat = begun % 256
  sum : accumulator filter = batchSum samples begun

/-- One service adds its sample without overflow. -/
theorem accumulate_exact (sample : Byte) (filter : Filter)
    (fits : accumulator filter + loudness sample < 2 ^ 16) :
    accumulator (filter.accumulate sample) = accumulator filter + loudness sample ∧
      (filter.accumulate sample).carryStored.toNat = (accumulator filter + loudness sample) / 256 := by
  have low := filter.stored.isLt
  have high := filter.carryStored.isLt
  have sampled := magnitude_loudness sample
  have sampleBound := (magnitude sample).isLt
  have carry : (filter.accumulate sample).carryStored.toNat =
      (filter.carryStored.toNat + (decide (256 ≤ filter.stored.toNat + (magnitude sample).toNat)).toNat) % 256 := by
    simp [Filter.accumulate, alu]
  have stored : (filter.accumulate sample).stored.toNat =
      (filter.stored.toNat + (magnitude sample).toNat) % 256 := by
    simp [Filter.accumulate]
  simp only [accumulator, carry, stored] at fits ⊢
  by_cases carries : 256 ≤ filter.stored.toNat + (magnitude sample).toNat
  · simp only [carries, decide_true, Bool.toNat_true]
    omega
  · simp only [carries, decide_false, Bool.toNat_false]
    omega

/-- What the routine shows at the end of a batch. -/
def shown (begun : Nat) : Option Byte :=
  if 256 ∣ begun then some (leadingOnes (max 1 (average samples begun).size)) else none

/-- One service keeps the filter exact, and shows the average at the end of a batch. -/
theorem step_exact (begun : Nat) (filter : Filter) (exact : Exact samples begun filter) :
    Exact samples (begun + 1) (filter.step (samples (begun + 1))).1 ∧
      (filter.step (samples (begun + 1))).2 = shown samples (begun + 1) := by
  obtain ⟨counter, sum⟩ := exact
  have fits : accumulator filter + loudness (samples (begun + 1)) < 2 ^ 16 := by
    have bound := sum_bound samples begun
    rw [sum]
    omega
  obtain ⟨added, high⟩ := accumulate_exact (samples (begun + 1)) filter fits
  have counted : (filter.accumulate (samples (begun + 1))).counter.toNat = (begun + 1) % 256 := by
    simp only [Filter.accumulate, BitVec.toNat_add, counter, BitVec.toNat_ofNat]
    omega
  have ends : (filter.accumulate (samples (begun + 1))).counter = 0#8 ↔ 256 ∣ begun + 1 := by
    rw [← BitVec.toNat_inj, counted, BitVec.toNat_ofNat, Nat.dvd_iff_mod_eq_zero]
  rw [sum, ← sum_grows] at added high
  by_cases complete : 256 ∣ begun + 1
  · have rest : (begun + 1) % 256 = 0 := Nat.mod_eq_zero_of_dvd complete
    have batch : begun - begun % 256 = begun + 1 - 256 := by omega
    simp only [Filter.step, ends.mpr complete, ↓reduceIte, shown, complete]
    refine ⟨⟨?_, ?_⟩, ?_⟩
    · rw [rest]
      rfl
    · rw [batchSum, rest, Nat.sub_zero, Finset.Ioc_self, Finset.sum_empty]
      rfl
    · rw [bar_leadingOnes, high, batch, average]
  · have same : begun - begun % 256 = begun + 1 - (begun + 1) % 256 := by omega
    simp only [Filter.step, mt ends.mp complete, ↓reduceIte, shown, complete, and_true]
    refine ⟨counted, ?_⟩
    rw [added, same, batchSum]

/-- At the end of a batch an exact filter is cleared. -/
theorem Exact.cleared {begun : Nat} {filter : Filter} (exact : Exact samples begun filter)
    (complete : 256 ∣ begun) : filter = { counter := 0, stored := 0, carryStored := 0 } := by
  obtain ⟨counter, sum⟩ := exact
  have rest : begun % 256 = 0 := Nat.mod_eq_zero_of_dvd complete
  rw [rest] at counter
  rw [batchSum, rest, Nat.sub_zero, Finset.Ioc_self, Finset.sum_empty, accumulator] at sum
  have high : filter.carryStored.toNat = 0 := by omega
  have low : filter.stored.toNat = 0 := by omega
  obtain ⟨count, stored, carryStored⟩ := filter
  congr 1
  · exact BitVec.eq_of_toNat_eq counter
  · exact BitVec.eq_of_toNat_eq low
  · exact BitVec.eq_of_toNat_eq high

/-- After any number of services the filter is exact. -/
theorem effects_exact (begun : Nat) :
    Exact samples begun (effects (fun sample filter => (Filter.step sample filter).1) samples
      { counter := 0, stored := 0, carryStored := 0 } begun) := by
  induction begun with
  | zero => exact ⟨rfl, rfl⟩
  | succ begun inductionHypothesis => exact (step_exact samples begun _ inductionHypothesis).1

end Batches

section Services

/-- The routine writes its bar, if there is one, and nothing else to the LEDs. -/
theorem serviceTrace_written (sample : Byte) (filter : Filter) :
    (serviceTrace sample filter).filterMap (written 7) = (filter.step sample).2.toList := by
  have silent : ∀ count, (List.replicate count Event.silent).filterMap (written 7) = [] := by
    intro count
    rw [List.filterMap_replicate]
    rfl
  have stores : ∀ value, written 7 (.write ledPort value) = some value := fun _ => rfl
  have reads : written 7 (.read dataInPort) = none := rfl
  simp only [serviceTrace, Filter.step]
  split_ifs <;>
    simp only [List.filterMap_append, List.filterMap_cons, silent, stores, reads, List.nil_append,
      List.append_nil, Option.toList_none, Option.toList_some]

variable (constants : Constants) (samples : Nat → Byte) (irq : Nat → Bool) (start : Machine)

/-- The filter's bytes before a step. -/
abbrev filterAt (cycle : Nat) : Filter :=
  readFilter constants (machine (program constants) samples irq start cycle).cpu.scratch

/-- A request that is taken begins an execution, which comes to an end. It reads its one
sample, stores in the LEDs what the filter shows, and leaves the filter as its step
does. -/
theorem service_shows (reset : AtReset start) (first begun : Nat)
    (request : taken (irq first) (machine (program constants) samples irq start first) = true)
    (number : (machine (program constants) samples irq start first).begun = begun) :
    ∃ steps ≤ 49, Execution (program constants) samples irq start (begun + 1) first steps ∧
      (events (program constants) samples irq start (first + 1) steps).filter Event.reads =
        [.read dataInPort] ∧
      writes (program constants) samples irq start 7 (first + 1) steps = (shown samples (begun + 1)).toList ∧
      Exact samples begun (filterAt constants samples irq start first) ∧
      filterAt constants samples irq start (first + 1 + steps) =
        ((filterAt constants samples irq start first).step (samples (begun + 1))).1 := by
  obtain ⟨late, idle⟩ := taken_idle constants samples irq start reset first request
  have viewed := ((follows constants samples irq start reset first late).idle idle).viewed
  have exact := effects_exact samples begun
  rw [number] at viewed
  rw [← viewed] at exact
  obtain ⟨_, led⟩ := step_exact samples begun _ exact
  have advance := machine_taken (program constants) samples irq start first request
  rw [number] at advance
  have service := service_routine constants (samples (begun + 1))
    (interrupt (machine (program constants) samples irq start first).cpu) rfl rfl
  obtain ⟨arrives, observes, throughout⟩ :=
    service_run (program constants) samples irq start (begun + 1) rfl service (first + 1) advance
  refine ⟨_, serviceTrace_length _ _, ⟨request, ?_, ?_, throughout, ?_⟩, ?_, ?_, exact, ?_⟩
  · rw [number]
  · exact service.length_pos
  · rw [arrives]
    exact ⟨rfl, rfl⟩
  · rw [observes]
    exact serviceTrace_reads _ _
  · rw [writes, observes, serviceTrace_written]
    exact congrArg Option.toList led
  · rw [filterAt, arrives]
    exact readFilter_serviced constants _ _ _

/-- What one execution of the routine does. It comes to an end and has one INPUT, on the
data port, which reads the sample of its number. It stores in the LEDs the bar of the
average of the last 256 samples if its number is a multiple of 256, and then leaves the
filter cleared; it stores nothing otherwise. The two bytes of the sum hold the exact sum
of the batch before it, and there is room for its sample. -/
structure Averages (number first steps : Nat) : Prop where
  execution : Execution (program constants) samples irq start number first steps
  short : steps ≤ 49
  readsOnce : (events (program constants) samples irq start (first + 1) steps).filter Event.reads =
    [.read dataInPort]
  sampled : ∃ place < steps,
    ReadsSample (program constants) samples irq start (first + 1 + place) (samples number)
  shows : writes (program constants) samples irq start 7 (first + 1) steps =
    if 256 ∣ number then [leadingOnes (max 1 (average samples number).size)] else []
  sum : accumulator (filterAt constants samples irq start first) = batchSum samples (number - 1)
  room : accumulator (filterAt constants samples irq start first) + loudness (samples number) < 2 ^ 16
  cleared : 256 ∣ number → filterAt constants samples irq start (first + 1 + steps) =
    { counter := 0, stored := 0, carryStored := 0 }

/-- Every request that is taken begins such an execution. -/
theorem taken_averages (reset : AtReset start) (first begun : Nat)
    (request : taken (irq first) (machine (program constants) samples irq start first) = true)
    (number : (machine (program constants) samples irq start first).begun = begun) :
    ∃ steps, Averages constants samples irq start (begun + 1) first steps := by
  obtain ⟨steps, short, execution, readsOnce, led, exact, next⟩ :=
    service_shows constants samples irq start reset first begun request number
  have inside : Event.read dataInPort ∈ events (program constants) samples irq start (first + 1) steps := by
    apply List.mem_of_mem_filter
    rw [readsOnce]
    exact List.mem_singleton_self _
  refine ⟨steps, execution, short, readsOnce, ?_, ?_, exact.sum, ?_, fun complete => ?_⟩
  · exact execution.reads (program constants) samples irq start inside rfl
  · rw [led, shown]
    split_ifs <;> rfl
  · rw [exact.sum]
    exact Nat.lt_of_le_of_lt (sum_bound samples begun) (by decide)
  · rw [next]
    exact (step_exact samples begun _ exact).1.cleared samples complete

/-- The next request after an execution begins the next one. -/
theorem next_averages (reset : AtReset start) {cycle later : Nat} (ordered : 7 ≤ cycle)
    (idle : (machine (program constants) samples irq start cycle).inService = false)
    (after : cycle ≤ later) (requested : irq later = true) :
    ∃ first steps, cycle ≤ first ∧ first ≤ later ∧ Averages constants samples irq start
      ((machine (program constants) samples irq start cycle).begun + 1) first steps := by
  obtain ⟨first, low, sooner, request, same⟩ :=
    next_taken constants samples irq start reset ordered idle after requested
  obtain ⟨steps, averages⟩ := taken_averages constants samples irq start reset first _ request same
  exact ⟨first, steps, low, sooner, averages⟩

/-- If requests come again and again, there is an execution of every number. -/
theorem exists_averages (reset : AtReset start) (recurs : ∀ cycle, ∃ later, cycle ≤ later ∧ irq later = true)
    (number : Nat) :
    ∃ first steps, 7 ≤ first ∧ Averages constants samples irq start (number + 1) first steps := by
  induction number with
  | zero =>
    obtain ⟨later, after, requested⟩ := recurs 7
    have cold := cold_start constants samples irq start reset
    obtain ⟨first, steps, low, _, averages⟩ :=
      next_averages constants samples irq start reset (Nat.le_refl 7) (by rw [cold]) after requested
    rw [cold] at averages
    exact ⟨first, steps, low, averages⟩
  | succ number inductionHypothesis =>
    obtain ⟨first, steps, late, averages⟩ := inductionHypothesis
    obtain ⟨idle, begun⟩ := averages.execution.ended
    obtain ⟨later, after, requested⟩ := recurs (first + 1 + steps)
    have ordered : 7 ≤ first + 1 + steps := by omega
    obtain ⟨first', steps', low, _, next⟩ :=
      next_averages constants samples irq start reset ordered idle after requested
    rw [begun] at next
    exact ⟨first', steps', ordered.trans low, next⟩

/-- The averaging filter. Each request that is taken begins the execution with the next
number, and this averages; requests that come again and again lead to an execution of
every number. -/
theorem averaging_filter (reset : AtReset start) :
    (∀ first, taken (irq first) (machine (program constants) samples irq start first) = true →
      ∃ steps, Averages constants samples irq start
        ((machine (program constants) samples irq start first).begun + 1) first steps) ∧
      ((∀ cycle, ∃ later, cycle ≤ later ∧ irq later = true) →
        ∀ number, 0 < number → ∃ first steps, Averages constants samples irq start number first steps) := by
  refine ⟨fun first request => ?_, fun recurs number positive => ?_⟩
  · exact taken_averages constants samples irq start reset first _ request rfl
  · obtain ⟨first, steps, _, averages⟩ := exists_averages constants samples irq start reset recurs (number - 1)
    rw [Nat.sub_add_cancel positive] at averages
    exact ⟨first, steps, averages⟩

/-- Samples of -100 give a bar of seven. -/
theorem bar_constant : leadingOnes (max 1 (average (fun _ => 0x9C) 256).size) = 0xFE := by
  have mean : average (fun _ => 0x9C) 256 = 100 := average_constant 0x9C 256 (Nat.le_refl 256)
  rw [mean, size_between 100 6 (by decide) (by decide)]
  rfl

/-- A request every 64 steps, with everything zero at the start and samples of -100: the
first one is taken in the ninth step and stores nothing, and the 256th execution stores
a bar of seven. -/
theorem averaging_filter_batch :
    (∃ steps, Averages source (fun _ => 0x9C) (every 64 9) zeroed 1 9 steps ∧
      writes (program source) (fun _ => 0x9C) (every 64 9) zeroed 7 (9 + 1) steps = []) ∧
      ∃ first steps, Averages source (fun _ => 0x9C) (every 64 9) zeroed 256 first steps ∧
        writes (program source) (fun _ => 0x9C) (every 64 9) zeroed 7 (first + 1) steps = [0xFE] := by
  obtain ⟨each, numbered⟩ := averaging_filter source (fun _ => 0x9C) (every 64 9) zeroed zeroed_reset
  constructor
  · obtain ⟨steps, averages⟩ := each 9 (by decide)
    have number : (machine (program source) (fun _ => 0x9C) (every 64 9) zeroed 9).begun = 0 := by decide
    rw [number] at averages
    exact ⟨steps, averages, averages.shows⟩
  · obtain ⟨first, steps, averages⟩ := numbered (every_recurs (by decide)) 256 (by decide)
    refine ⟨first, steps, averages, ?_⟩
    rw [averages.shows, if_pos (Nat.dvd_refl 256), bar_constant]

end Services

end CpenLabs.AveragingFilter
