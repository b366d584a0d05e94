import CpenLabs.ScanCodes
import Mathlib.Data.Bool.Basic
import Mathlib.Tactic.IntervalCases

/-!
# The bytes of the keyboard of Lab 5

`PS2_ScanCodeReader` samples the two lines of the keyboard with the system clock. Its
debouncer keeps the last eight samples of the clock line and changes its output when
they agree. Whenever the output rises, one bit is taken from the data line: a zero
begins a byte, the eight bits after it are the byte, and the two bits after them, the
parity and the stop bit, are skipped without being checked.

Which cycles take a bit is said exactly for every course of the clock line: eight high
samples are needed, and between two bits there have to be eight low samples in a row. If
no level of the line lasts less than eight samples, then one bit is taken nine cycles
after each rise.
-/

namespace CpenLabs.ScanCodeReader

open ScanCodes Transducers

section Source

/-- The registers that take the bits of a byte. -/
structure Receiver where
  readingChar : Bool
  bitCntr : BitVec 4
  shiftIn : BitVec 9

/-- The branches for a rise of the debounced clock. -/
def Receiver.posedge (iPS2Dat : Bool) (receiver : Receiver) : Receiver :=
  if !receiver.readingChar then
    if !iPS2Dat then { receiver with readingChar := true } else receiver
  else if receiver.bitCntr = 9 then { receiver with bitCntr := 0, readingChar := false }
  else
    { receiver with
      bitCntr := receiver.bitCntr + 1
      shiftIn := BitVec.ofBool iPS2Dat ++ receiver.shiftIn.extractLsb' 1 8 }

/-- The bit is the last one of a byte. -/
def Receiver.completes (receiver : Receiver) : Bool := receiver.readingChar && receiver.bitCntr == 9

/-- The registers of `PS2_ScanCodeReader`. -/
structure Reader where
  ps2ClkBuffer : BitVec 8
  ps2ClkDebounced : Bool
  ps2ClkDebouncedPrev : Bool
  receiver : Receiver
  oScanReady : Bool
  oScanByte : Byte

/-- The wire `PS2_CLK_POSEDGE`. -/
def Reader.ps2ClkPosedge (reader : Reader) : Bool :=
  reader.ps2ClkDebounced && !reader.ps2ClkDebouncedPrev

/-- The bit that is taken is the last of a byte. -/
def Reader.completes (reader : Reader) : Bool := reader.ps2ClkPosedge && reader.receiver.completes

/-- An edge of the system clock. -/
def Reader.step (iPS2Clk iPS2Dat iRead : Bool) (reader : Reader) : Reader where
  ps2ClkBuffer := BitVec.ofBool iPS2Clk ++ reader.ps2ClkBuffer.extractLsb' 1 7
  ps2ClkDebounced :=
    if reader.ps2ClkBuffer = 0xFF then true
    else if reader.ps2ClkBuffer = 0x00 then false
    else reader.ps2ClkDebounced
  ps2ClkDebouncedPrev := reader.ps2ClkDebounced
  receiver := if reader.ps2ClkPosedge then reader.receiver.posedge iPS2Dat else reader.receiver
  oScanReady := if reader.completes then true else if iRead then false else reader.oScanReady
  oScanByte :=
    if reader.completes then reader.receiver.shiftIn.extractLsb' 0 8 else reader.oScanByte

/-- What `iRESET` does to the registers. -/
def Reader.reset (reader : Reader) : Reader :=
  { reader with
    ps2ClkBuffer := 0x00
    ps2ClkDebounced := false
    ps2ClkDebouncedPrev := false
    receiver := { reader.receiver with bitCntr := 0, readingChar := false }
    oScanReady := false }

end Source

section Frames

/-- What becomes of a bit. -/
def receive : Transducer Receiver Bool Byte := fun receiver bit =>
  (receiver.posedge bit, if receiver.completes then [receiver.shiftIn.extractLsb' 0 8] else [])

/-- What a keyboard puts on the data line: a one while it is idle, or a byte with any two
bits after it. -/
inductive Signal
  | idle
  | frame (byte : Byte) (parity stop : Bool)

/-- The bits on the data line: a start bit, the byte from its low end, and two more. -/
def Signal.bits : Signal → List Bool
  | idle => [true]
  | frame byte parity stop => false :: (List.range 8).map byte.getLsbD ++ [parity, stop]

/-- The byte that it carries. -/
def Signal.bytes : Signal → List Byte
  | idle => []
  | frame byte _ _ => [byte]

/-- Between two bytes. -/
def Receiver.Waits (receiver : Receiver) : Prop :=
  receiver.readingChar = false ∧ receiver.bitCntr = 0

/-- The bits of a shifted word. -/
theorem shifted_getLsbD (bit : Bool) (word : BitVec 9) {place : Nat} (inside : place < 9) :
    (BitVec.ofBool bit ++ word.extractLsb' 1 8).getLsbD place =
      if place < 8 then word.getLsbD (place + 1) else bit := by
  rw [BitVec.getLsbD_append]
  split_ifs with lower
  · rw [BitVec.getLsbD_extractLsb', decide_eq_true lower, Bool.true_and, Nat.add_comm]
  · have top : place = 8 := by omega
    rw [top, BitVec.getLsbD_ofBool]
    rfl

/-- While a byte is read, each bit is shifted in. -/
theorem receive_bit {receiver : Receiver} (reading : receiver.readingChar = true)
    (more : receiver.bitCntr.toNat < 9) (bit : Bool) :
    receive receiver bit =
      ({ receiver with
          bitCntr := receiver.bitCntr + 1
          shiftIn := BitVec.ofBool bit ++ receiver.shiftIn.extractLsb' 1 8 }, []) := by
  have unfinished : receiver.bitCntr ≠ 9 := fun nine => absurd more (by rw [nine]; decide)
  have incomplete : receiver.completes = false := by
    rw [Receiver.completes, reading, Bool.true_and]
    exact beq_eq_false_iff_ne.mpr unfinished
  rw [receive, Receiver.posedge, incomplete, reading, if_neg Bool.false_ne_true, if_neg unfinished]
  rfl

/-- The bits go in at the top, and the ones before them go down. -/
theorem receive_data (bits : List Bool) {receiver : Receiver} (reading : receiver.readingChar = true)
    (room : receiver.bitCntr.toNat + bits.length ≤ 9) :
    (after receive receiver bits).readingChar = true ∧
      (after receive receiver bits).bitCntr.toNat = receiver.bitCntr.toNat + bits.length ∧
      output receive receiver bits = [] ∧
      ∀ place, place < 9 → (after receive receiver bits).shiftIn.getLsbD place =
        if place + bits.length < 9 then receiver.shiftIn.getLsbD (place + bits.length)
        else bits.getD (place + bits.length - 9) false := by
  induction bits generalizing receiver with
  | nil =>
    refine ⟨reading, rfl, rfl, fun place inside => ?_⟩
    exact (if_pos inside).symm
  | cons bit bits inductionHypothesis =>
    rw [List.length_cons] at room
    have counted : (receiver.bitCntr + 1).toNat = receiver.bitCntr.toNat + 1 := by
      bv_omega
    have taken := receive_bit reading (by omega) bit
    obtain ⟨reading', count, nothing, word⟩ := @inductionHypothesis (receive receiver bit).1
      (by rw [taken]; exact reading) (by rw [taken]; dsimp only; omega)
    refine ⟨reading', ?_, ?_, fun place inside => ?_⟩
    · rw [after, count, taken, List.length_cons]
      dsimp only
      omega
    · rw [output, nothing, taken]
      rfl
    · rw [after, word place inside, taken, List.length_cons]
      dsimp only
      obtain below | top | above :
          place + bits.length < 8 ∨ place + bits.length = 8 ∨ 9 ≤ place + bits.length := by
        omega
      · rw [if_pos (by omega), if_pos (by omega), shifted_getLsbD _ _ (by omega), if_pos below,
          Nat.add_assoc]
      · rw [if_pos (by omega), if_neg (by omega), shifted_getLsbD _ _ (by omega), if_neg (by omega),
          ← Nat.add_assoc, top]
        rfl
      · rw [if_neg (by omega), if_neg (by omega), ← Nat.add_assoc, Nat.sub_add_comm above]
        rfl

/-- The bits of a byte are taken, and after the stop bit the next one can begin. -/
theorem receive_frame {receiver : Receiver} (waits : receiver.Waits) (byte : Byte) (parity stop : Bool) :
    (after receive receiver (Signal.frame byte parity stop).bits).Waits ∧
      output receive receiver (Signal.frame byte parity stop).bits = [byte] := by
  obtain ⟨waiting, zero⟩ := waits
  let began : Receiver := { receiver with readingChar := true }
  have begins : receive receiver false = (began, []) := by
    rw [receive, Receiver.completes, Receiver.posedge, waiting]
    rfl
  let data := (List.range 8).map byte.getLsbD ++ [parity]
  have taken : began.bitCntr.toNat = 0 := congrArg BitVec.toNat zero
  obtain ⟨reading, count, nothing, word⟩ := @receive_data data began rfl (by rw [taken]; rfl)
  have nine : (after receive began data).bitCntr = 9 := by
    apply BitVec.eq_of_toNat_eq
    rw [count, taken]
    rfl
  have read : (after receive began data).shiftIn.extractLsb' 0 8 = byte := by
    apply BitVec.eq_of_getLsbD_eq
    intro place inside
    have length : data.length = 9 := rfl
    have shown := word place (by omega)
    rw [length, if_neg (by omega), Nat.add_sub_cancel] at shown
    rw [BitVec.getLsbD_extractLsb', decide_eq_true inside, Bool.true_and, Nat.zero_add, shown]
    interval_cases place <;> rfl
  have ends : receive (after receive began data) stop =
      ({ after receive began data with bitCntr := 0, readingChar := false }, [byte]) := by
    rw [receive, Receiver.completes, Receiver.posedge, reading, nine, read]
    rfl
  have bits : (Signal.frame byte parity stop).bits = false :: (data ++ [stop]) := by
    rw [Signal.bits, List.append_assoc]
    rfl
  rw [bits, after, output, begins, after_append, output_append, nothing, after, output, ends]
  exact ⟨⟨rfl, rfl⟩, rfl⟩

/-- Either is received as it was sent. -/
theorem receive_signal {receiver : Receiver} (waits : receiver.Waits) (signal : Signal) :
    (after receive receiver signal.bits).Waits ∧
      output receive receiver signal.bits = signal.bytes := by
  cases signal with
  | frame byte parity stop => exact receive_frame waits byte parity stop
  | idle =>
    have skipped : receive receiver true = (receiver, []) := by
      rw [receive, Receiver.completes, Receiver.posedge, waits.1]
      rfl
    rw [Signal.bits, after, output, skipped]
    exact ⟨waits, rfl⟩

/-- The bytes on the data line are read, whatever the parity bits are. -/
theorem receive_signals {receiver : Receiver} (waits : receiver.Waits) (signals : List Signal) :
    (after receive receiver (signals.flatMap Signal.bits)).Waits ∧
      output receive receiver (signals.flatMap Signal.bits) = signals.flatMap Signal.bytes := by
  induction signals generalizing receiver with
  | nil => exact ⟨waits, rfl⟩
  | cons signal signals inductionHypothesis =>
    obtain ⟨waits', bytes⟩ := receive_signal waits signal
    obtain ⟨last, rest⟩ := inductionHypothesis waits'
    rw [List.flatMap_cons, List.flatMap_cons, after_append, output_append, bytes, rest]
    exact ⟨last, rfl⟩

end Frames

section Debouncer

/-- Eight samples in a row that agree. -/
def Steady (line : Nat → Bool) (level : Bool) (first : Nat) : Prop :=
  ∀ place, place < 8 → line (first + place) = level

/-- The two lines of the keyboard. -/
structure Lines where
  iPS2Clk : Bool
  iPS2Dat : Bool

/-- An edge of the system clock in `Keyboard_Controller`, which accepts a byte at once. -/
def stepLines (lines : Lines) (reader : Reader) : Reader :=
  reader.step lines.iPS2Clk lines.iPS2Dat reader.oScanReady

variable (lines : Nat → Lines) (start : Reader)

/-- The registers in each cycle after a reset. -/
abbrev registers : Nat → Reader := Clocked.run stepLines lines start.reset

/-- The samples of the clock line. -/
abbrev clk (cycle : Nat) : Bool := (lines cycle).iPS2Clk

/-- The buffer shifts in the clock line. -/
theorem buffer_next (cycle : Nat) {place : Nat} (inside : place < 8) :
    (registers lines start (cycle + 1)).ps2ClkBuffer.getLsbD place =
      if place < 7 then (registers lines start cycle).ps2ClkBuffer.getLsbD (place + 1)
      else clk lines cycle := by
  change (BitVec.ofBool (clk lines cycle) ++
    (registers lines start cycle).ps2ClkBuffer.extractLsb' 1 7).getLsbD place = _
  rw [BitVec.getLsbD_append]
  split_ifs with lower
  · rw [BitVec.getLsbD_extractLsb', decide_eq_true lower, Bool.true_and, Nat.add_comm]
  · have top : place = 7 := by omega
    rw [top, BitVec.getLsbD_ofBool]
    rfl

/-- A sample goes down by one place with each edge. -/
theorem buffer_getLsbD (first : Nat) {place : Nat} (inside : place < 8) :
    (registers lines start (first + 8)).ps2ClkBuffer.getLsbD place = clk lines (first + place) := by
  have aged : ∀ age, age < 8 →
      (registers lines start (first + place + 1 + age)).ps2ClkBuffer.getLsbD (7 - age) =
        clk lines (first + place) := by
    intro age young
    induction age with
    | zero => exact (buffer_next lines start _ (by omega)).trans (if_neg (by omega))
    | succ age inductionHypothesis =>
      have next := @buffer_next lines start (first + place + 1 + age) (7 - (age + 1)) (by omega)
      rw [if_pos (by omega), show 7 - (age + 1) + 1 = 7 - age by omega,
        inductionHypothesis (by omega)] at next
      exact next
  have shown := aged (7 - place) (by omega)
  rw [show first + place + 1 + (7 - place) = first + 8 by omega,
    show 7 - (7 - place) = place by omega] at shown
  exact shown

/-- It is full of ones after eight high samples. -/
theorem buffer_ones (first : Nat) :
    (registers lines start (first + 8)).ps2ClkBuffer = 0xFF ↔ Steady (clk lines) true first := by
  constructor
  · intro ones place inside
    rw [← buffer_getLsbD lines start first inside, ones]
    interval_cases place <;> rfl
  · intro steady
    apply BitVec.eq_of_getLsbD_eq
    intro place inside
    rw [buffer_getLsbD lines start first inside, steady place inside]
    interval_cases place <;> rfl

/-- It is empty after eight low ones. -/
theorem buffer_zeros (first : Nat) :
    (registers lines start (first + 8)).ps2ClkBuffer = 0x00 ↔ Steady (clk lines) false first := by
  constructor
  · intro zeros place inside
    rw [← buffer_getLsbD lines start first inside, zeros]
    exact BitVec.getLsbD_zero
  · intro steady
    apply BitVec.eq_of_getLsbD_eq
    intro place inside
    rw [buffer_getLsbD lines start first inside, steady place inside]
    exact BitVec.getLsbD_zero.symm

/-- What has not been sampled yet is low. -/
theorem buffer_early (cycle : Nat) {place : Nat} (early : cycle + place < 8) :
    (registers lines start cycle).ps2ClkBuffer.getLsbD place = false := by
  induction cycle generalizing place with
  | zero => exact BitVec.getLsbD_zero
  | succ cycle inductionHypothesis =>
    rw [buffer_next lines start cycle (by omega), if_pos (by omega)]
    exact inductionHypothesis (by omega)

/-- Before eight samples have been taken the output is low. -/
theorem debounced_early {cycle : Nat} (early : cycle ≤ 8) :
    (registers lines start cycle).ps2ClkDebounced = false := by
  induction cycle with
  | zero => rfl
  | succ cycle inductionHypothesis =>
    have unfilled : (registers lines start cycle).ps2ClkBuffer ≠ 0xFF := by
      intro ones
      have lowest := @buffer_early lines start cycle 0 (by omega)
      rw [ones] at lowest
      cases lowest
    change (if (registers lines start cycle).ps2ClkBuffer = 0xFF then true else
      if (registers lines start cycle).ps2ClkBuffer = 0x00 then false
      else (registers lines start cycle).ps2ClkDebounced) = false
    rw [if_neg unfilled, inductionHypothesis (by omega), ite_self]

/-- The output follows a row of agreeing samples and keeps its value otherwise. -/
theorem debounced_next [∀ level first, Decidable (Steady (clk lines) level first)] (first : Nat) :
    (registers lines start (first + 9)).ps2ClkDebounced =
      if Steady (clk lines) true first then true
      else if Steady (clk lines) false first then false
      else (registers lines start (first + 8)).ps2ClkDebounced := by
  have next : (registers lines start (first + 9)).ps2ClkDebounced =
      if (registers lines start (first + 8)).ps2ClkBuffer = 0xFF then true
      else if (registers lines start (first + 8)).ps2ClkBuffer = 0x00 then false
      else (registers lines start (first + 8)).ps2ClkDebounced := rfl
  simp only [next, buffer_ones, buffer_zeros]

/-- The output is low as long as every row of high samples has been followed by one of
low samples. -/
theorem debounced_low (first : Nat) :
    (registers lines start (first + 8)).ps2ClkDebounced = false ↔
      ∀ high, high < first → Steady (clk lines) true high →
        ∃ low, high < low ∧ low < first ∧ Steady (clk lines) false low := by
  classical
  induction first with
  | zero =>
    refine ⟨fun _ high before => absurd before (Nat.not_lt_zero high), fun _ => ?_⟩
    exact debounced_early lines start (Nat.le_refl 8)
  | succ first inductionHypothesis =>
    rw [show first + 1 + 8 = first + 9 from rfl, debounced_next]
    split_ifs with high low
    · refine ⟨fun impossible => (by cases impossible), fun followed => ?_⟩
      obtain ⟨low, after, before, -⟩ := followed first (Nat.lt_succ_self first) high
      omega
    · refine ⟨fun _ high before steady => ⟨first, ?_, Nat.lt_succ_self first, low⟩, fun _ => rfl⟩
      refine Nat.lt_of_le_of_ne (Nat.le_of_lt_succ before) fun same => ?_
      rw [same] at steady
      exact Bool.false_ne_true ((low 0 (by decide)).symm.trans (steady 0 (by decide)))
    · rw [inductionHypothesis]
      constructor
      · intro followed other before steady
        have earlier : other < first :=
          Nat.lt_of_le_of_ne (Nat.le_of_lt_succ before) fun same => high (same ▸ steady)
        obtain ⟨fall, after, ended, falls⟩ := followed other earlier steady
        exact ⟨fall, after, Nat.lt_succ_of_lt ended, falls⟩
      · intro followed other before steady
        obtain ⟨fall, after, ended, falls⟩ := followed other (Nat.lt_succ_of_lt before) steady
        have earlier : fall < first :=
          Nat.lt_of_le_of_ne (Nat.le_of_lt_succ ended) fun same => low (same ▸ falls)
        exact ⟨fall, after, earlier, falls⟩

/-- A bit is taken after eight high samples, the first ones since eight low samples. -/
theorem posedge_iff (first : Nat) :
    (registers lines start (first + 9)).ps2ClkPosedge = true ↔
      Steady (clk lines) true first ∧ ∀ high, high < first → Steady (clk lines) true high →
        ∃ low, high < low ∧ low < first ∧ Steady (clk lines) false low := by
  classical
  have wire : (registers lines start (first + 9)).ps2ClkPosedge =
      ((registers lines start (first + 9)).ps2ClkDebounced &&
        !(registers lines start (first + 8)).ps2ClkDebounced) := rfl
  rw [wire, Bool.and_eq_true, Bool.not_eq_true', debounced_low, debounced_next]
  refine and_congr_left fun followed => ?_
  have low := (debounced_low lines start first).mpr followed
  split_ifs with high
  · exact ⟨fun _ => high, fun _ => rfl⟩
  · exact ⟨fun impossible => (by cases impossible), fun steady => absurd steady high⟩
  · rw [low]
    exact ⟨fun impossible => (by cases impossible), fun steady => absurd steady high⟩

/-- No bit is taken before eight samples have been. -/
theorem posedge_early {cycle : Nat} (early : cycle ≤ 8) :
    (registers lines start cycle).ps2ClkPosedge = false := by
  rw [Reader.ps2ClkPosedge, debounced_early lines start early, Bool.false_and]

/-- No level of the clock line lasts less than eight samples. -/
def LongLevels (line : Nat → Bool) : Prop :=
  Steady line (line 0) 0 ∧ ∀ cycle, line cycle ≠ line (cycle + 1) →
    Steady line (line (cycle + 1)) (cycle + 1)

/-- The line rises, or is high at first. -/
def rises (line : Nat → Bool) : Nat → Bool
  | 0 => line 0
  | before + 1 => line (before + 1) && !line before

/-- Before a rise there are eight low samples. -/
theorem LongLevels.low_row {line : Nat → Bool} (long : LongLevels line) {last : Nat}
    (low : line last = false) (high : line (last + 1) = true) :
    7 ≤ last ∧ Steady line false (last - 7) := by
  have row : ∀ back, back ≤ 7 → back ≤ last → line (last - back) = false := by
    intro back near inside
    induction back with
    | zero => exact low
    | succ back inductionHypothesis =>
      have later := inductionHypothesis (by omega) (by omega)
      rw [show last - back = last - (back + 1) + 1 by omega] at later
      cases sample : line (last - (back + 1)) with
      | false => rfl
      | true =>
        have steady := long.2 (last - (back + 1)) (by rw [sample, later]; decide) (back + 1) (by omega)
        rw [later, show last - (back + 1) + 1 + (back + 1) = last + 1 by omega, high] at steady
        exact steady
  have deep : 7 ≤ last := by
    by_contra shallow
    have first := row last (by omega) (Nat.le_refl last)
    have steady := long.1 (last + 1) (by omega)
    rw [Nat.sub_self] at first
    rw [first, Nat.zero_add, high] at steady
    cases steady
  refine ⟨deep, fun place inside => ?_⟩
  rw [show last - 7 + place = last - (7 - place) by omega]
  exact row (7 - place) (by omega) (by omega)

/-- Then a bit is taken nine cycles after each rise. -/
theorem posedge_rise (long : LongLevels (clk lines)) (cycle : Nat) :
    (registers lines start (cycle + 9)).ps2ClkPosedge = rises (clk lines) cycle := by
  rw [Bool.eq_iff_iff, posedge_iff]
  cases cycle with
  | zero =>
    refine ⟨fun row => row.1 0 (by decide), fun high => ?_⟩
    have steady := long.1
    rw [show clk lines 0 = true from high] at steady
    exact ⟨steady, fun other before => absurd before (Nat.not_lt_zero other)⟩
  | succ last =>
    rw [rises, Bool.and_eq_true, Bool.not_eq_true']
    constructor
    · rintro ⟨steady, followed⟩
      refine ⟨steady 0 (by decide), ?_⟩
      cases sample : clk lines last with
      | false => rfl
      | true =>
        -- the row of high samples would have begun earlier
        have earlier : Steady (clk lines) true last := by
          intro place inside
          cases place with
          | zero => exact sample
          | succ place =>
            have later := steady place (by omega)
            rwa [Nat.add_right_comm] at later
        obtain ⟨low, after, ended, -⟩ := followed last (Nat.lt_succ_self last) earlier
        omega
    · rintro ⟨high, low⟩
      have steady := long.2 last (by rw [low, high]; decide)
      rw [high] at steady
      obtain ⟨deep, row⟩ := long.low_row low high
      refine ⟨steady, fun other before rows => ⟨last - 7, ?_, by omega, row⟩⟩
      by_contra within
      have sample := rows (last - other) (by omega)
      rw [Nat.add_sub_of_le (by omega), low] at sample
      cases sample

end Debouncer

end CpenLabs.ScanCodeReader
