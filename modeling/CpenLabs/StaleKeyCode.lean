import CpenLabs.KbdCtrl
import CpenLabs.KeyboardCtrl

/-!
# The code that is read beside a new strobe

In simple_ipod_solution.v the strobe data_ready of Kbd_ctrl reaches Keyboard_Ctrl at
once, but the code beside it comes from a register. Write_Kbd_To_Scope_LCD waits for
the strobe through a trap circuit and only then clocks key2ascii with convert_now. Until
that happens the controller sees the new strobe beside the code of the previous key.
After R, the next key therefore resets the player as well, unless it finds the
controller in `Idle` or still in a reset state.

The trap circuit is not part of the sources. It appears here as an input, of which is
assumed only that every pulse answers a rise of data_ready of its own, at least one
clock after it. A keystroke is a frame that raises data_ready; its frames are the
subject of Kbd_ctrl's own module. That data_ready then stays high until reset_kbd_data
is asserted is an assumption too.

The state register of Write_Kbd_To_Scope_LCD has no declared initial value. A run begins
with `init_state`, which is all zeros. Nothing is assumed of the code register.
-/

namespace CpenLabs.StaleKeyCode

open Clocked KeyboardCtrl
open KbdCtrl (Byte)

/-- The table of `key2ascii`. -/
def key2ascii (keyCode : Byte) : Byte :=
  match keyCode with
  | 0x45#8 => 0x30#8
  | 0x16#8 => 0x31#8
  | 0x1e#8 => 0x32#8
  | 0x26#8 => 0x33#8
  | 0x25#8 => 0x34#8
  | 0x2e#8 => 0x35#8
  | 0x36#8 => 0x36#8
  | 0x3d#8 => 0x37#8
  | 0x3e#8 => 0x38#8
  | 0x46#8 => 0x39#8
  | 0x1c#8 => 0x41#8
  | 0x32#8 => 0x42#8
  | 0x21#8 => 0x43#8
  | 0x23#8 => 0x44#8
  | 0x24#8 => 0x45#8
  | 0x2b#8 => 0x46#8
  | 0x34#8 => 0x47#8
  | 0x33#8 => 0x48#8
  | 0x43#8 => 0x49#8
  | 0x3b#8 => 0x4a#8
  | 0x42#8 => 0x4b#8
  | 0x4b#8 => 0x4c#8
  | 0x3a#8 => 0x4d#8
  | 0x31#8 => 0x4e#8
  | 0x44#8 => 0x4f#8
  | 0x4d#8 => 0x50#8
  | 0x15#8 => 0x51#8
  | 0x2d#8 => 0x52#8
  | 0x1b#8 => 0x53#8
  | 0x2c#8 => 0x54#8
  | 0x3c#8 => 0x55#8
  | 0x2a#8 => 0x56#8
  | 0x1d#8 => 0x57#8
  | 0x22#8 => 0x58#8
  | 0x35#8 => 0x59#8
  | 0x1a#8 => 0x5a#8
  | 0x0e#8 => 0x60#8
  | 0x4e#8 => 0x2d#8
  | 0x55#8 => 0x3d#8
  | 0x54#8 => 0x5b#8
  | 0x5b#8 => 0x5d#8
  | 0x5d#8 => 0x5c#8
  | 0x4c#8 => 0x3b#8
  | 0x52#8 => 0x27#8
  | 0x41#8 => 0x2c#8
  | 0x49#8 => 0x2e#8
  | 0x4a#8 => 0x2f#8
  | 0x29#8 => 0x20#8
  | 0x5a#8 => 0x0d#8
  | 0x66#8 => 0x08#8
  | _ => 0x2a#8

/-- One scan code alone is translated to R. -/
theorem key2ascii_characterR : ∀ keyCode : Byte, key2ascii keyCode = characterR ↔ keyCode = 0x2d#8 := by
  decide +kernel

/-- The states of `Write_Kbd_To_Scope_LCD`. -/
inductive LcdState
  | initState
  | initScopeLcdReg
  | idle
  | convertToAsciiNow
  | lcdEnableChangeState
  | lcdByteChangeValueState
  | clearKbdData
  | finished
deriving DecidableEq, Repr

/-- The ten-bit value of each state. -/
def LcdState.encoding : LcdState → BitVec 10
  | initState => 0b0000000000#10
  | initScopeLcdReg => 0b0100000001#10
  | idle => 0b0000000010#10
  | convertToAsciiNow => 0b1000000111#10
  | lcdEnableChangeState => 0b0001000011#10
  | lcdByteChangeValueState => 0b0000010100#10
  | clearKbdData => 0b0000100101#10
  | finished => 0b0010000110#10

/-- `assign reset_kbd_data = state[5]`. -/
def LcdState.resetKbdData (state : LcdState) : Bool := state.encoding.getLsbD 5

/-- `assign convert_now = state[9]`. -/
def LcdState.convertNow (state : LcdState) : Bool := state.encoding.getLsbD 9

/-- The transitions; the reset input is tied high. -/
def LcdState.step (actualKbdReady : Bool) : LcdState → LcdState
  | initState => initScopeLcdReg
  | initScopeLcdReg => idle
  | idle => if actualKbdReady then convertToAsciiNow else idle
  | convertToAsciiNow => lcdEnableChangeState
  | lcdEnableChangeState => lcdByteChangeValueState
  | lcdByteChangeValueState => clearKbdData
  | clearKbdData => finished
  | finished => idle

/-- The registers between the keyboard and the player. -/
structure Registers where
  scanCode : Byte
  dataReady : Bool
  lcd : LcdState
  asciiCode : Byte
  keyboard : StateType

/-- What arrives in a cycle of CLK_50M: a frame that raises data_ready, the pulse that
resets it, the pulse of the trap circuit, and the master's finish output. -/
structure Input where
  keystroke : Option Byte
  dataReadyReset : Bool
  actualKbdReady : Bool
  readFinish : Bool

/-- The rising edge of CLK_50M. The code register is clocked by convert_now, which rises
after the edge. -/
def step (input : Input) (registers : Registers) : Registers where
  scanCode := input.keystroke.getD registers.scanCode
  dataReady := input.keystroke.isSome || (registers.dataReady && !input.dataReadyReset)
  lcd := registers.lcd.step input.actualKbdReady
  asciiCode :=
    if (registers.lcd.step input.actualKbdReady).convertNow && !registers.lcd.convertNow then
      key2ascii (input.keystroke.getD registers.scanCode)
    else registers.asciiCode
  keyboard :=
    KeyboardCtrl.step
      { kbdReceivedAsciiCode := registers.asciiCode
        kbdDataReady := registers.dataReady
        readFinish := input.readFinish } registers.keyboard

/-- `Reset_Forward` and `Reset_Backward`. -/
def IsReset (state : StateType) : Prop := state = .resetForward ∨ state = .resetBackward

instance (state : StateType) : Decidable (IsReset state) := inferInstanceAs (Decidable (_ ∨ _))

section Runs

variable (inputs : Nat → Input) (start : Registers)

/-- The registers in each cycle. -/
abbrev registers (cycle : Nat) : Registers := run step inputs start cycle

/-- A frame raises data_ready at the end of the cycle. -/
def Keystroke (cycle : Nat) : Prop := (inputs cycle).keystroke.isSome = true

/-- In some cycle before this one a keystroke came, and no pulse of the trap since. -/
def Unanswered (cycle : Nat) : Prop :=
  ∃ rise, rise < cycle ∧ Keystroke inputs rise ∧
    ∀ between, rise < between → between < cycle → (inputs between).actualKbdReady = false

/-- reset_kbd_data has been asserted since the last keystroke. -/
def Asserted (cycle : Nat) : Prop :=
  ∃ earlier, earlier ≤ cycle ∧ (registers inputs start earlier).lcd.resetKbdData = true ∧
    ∀ between, earlier ≤ between → between < cycle → ¬ Keystroke inputs between

/-- What the circuit relies on. A keystroke raises data_ready, which is low before; only
after reset_kbd_data has been asserted does data_ready fall; every pulse of the trap
answers a rise, at least one clock after it, that no other pulse has answered. -/
structure Relies : Prop where
  raises : ∀ cycle, Keystroke inputs cycle → (registers inputs start cycle).dataReady = false
  stays : ∀ cycle, (registers inputs start cycle).dataReady = true →
    (inputs cycle).dataReadyReset = true → Asserted inputs start cycle
  answers : ∀ cycle, (inputs cycle).actualKbdReady = true →
    ∃ rise, rise + 1 < cycle ∧ Keystroke inputs rise ∧
      ∀ between, rise < between → between < cycle → (inputs between).actualKbdReady = false

/-- At power-up no strobe is there and the two machines are in their first states. -/
def PowerUp : Prop := start.dataReady = false ∧ start.lcd = .initState ∧ start.keyboard = .idle

/-- The edge that ends the cycle takes Keyboard_Ctrl into a reset state. -/
def EntersReset (cycle : Nat) : Prop :=
  ¬ IsReset (registers inputs start cycle).keyboard ∧ IsReset (registers inputs start (cycle + 1)).keyboard

/-- Whenever Keyboard_Ctrl enters a reset state, data_ready is high for a keystroke whose
scan code is translated to R. -/
def ResetByItsKey : Prop :=
  ∀ cycle, EntersReset inputs start cycle →
    (registers inputs start cycle).dataReady = true ∧
      key2ascii (registers inputs start cycle).scanCode = characterR

/-- The code of the last keystroke before a cycle, or else what the code register held at
the start. -/
def lastKey : Nat → Byte
  | 0 => start.asciiCode
  | cycle + 1 =>
    match (inputs cycle).keystroke with
    | some code => key2ascii code
    | none => lastKey cycle

/-- A key other than R that comes directly after R finds the controller in `Idle` or
still in a reset state. -/
def NoKeyAfterReset : Prop :=
  ∀ cycle code, (inputs cycle).keystroke = some code → key2ascii code ≠ characterR →
    lastKey inputs start cycle = characterR →
      (registers inputs start (cycle + 1)).keyboard = .idle ∨
        IsReset (registers inputs start (cycle + 1)).keyboard

/-- The states from the conversion on up to the acknowledgement. -/
def LcdState.Serving (state : LcdState) : Prop :=
  state = .convertToAsciiNow ∨ state = .lcdEnableChangeState ∨ state = .lcdByteChangeValueState ∨
    state = .clearKbdData

/-- Outside these states the machine moves into them only from `idle`, with a pulse. -/
theorem rest_step (state : LcdState) (rests : ¬ state.Serving) (pulse : Bool)
    (noService : pulse = true → state ≠ .idle) : ¬ (state.step pulse).Serving := by
  cases state <;> simp_all [LcdState.Serving, LcdState.step]

/-- A state outside of them asks neither for a conversion nor for a reset. -/
theorem rest_silent (state : LcdState) (rests : ¬ state.Serving) :
    state.convertNow = false ∧ state.resetKbdData = false := by
  cases state <;> simp_all [LcdState.Serving] <;> decide

/-- Only `clear_kbd_data` asserts reset_kbd_data. -/
theorem resetKbdData_iff (state : LcdState) : state.resetKbdData = true ↔ state = .clearKbdData := by
  cases state <;> decide

/-- Once the machine has come to `clear_kbd_data` the service ends with the next step. -/
theorem after_clear (state : LcdState) (ordered : state.Serving → state = .clearKbdData) :
    ¬ (state.step false).Serving := by
  cases state <;> simp_all [LcdState.Serving, LcdState.step]

section Service

variable (cycle : Nat)

/-- A keystroke or a missing pulse leaves a rise unanswered. -/
theorem unanswered_succ (unanswered : Unanswered inputs (cycle + 1)) :
    Keystroke inputs cycle ∨ Unanswered inputs cycle ∧ (inputs cycle).actualKbdReady = false := by
  obtain ⟨rise, before, stroke, none⟩ := unanswered
  rcases Nat.lt_or_eq_of_le (Nat.le_of_lt_succ before) with earlier | rfl
  · exact .inr ⟨⟨rise, earlier, stroke, fun between low high => none between low (by omega)⟩,
      none cycle earlier (Nat.lt_succ_self cycle)⟩
  · exact .inl stroke

/-- An assertion of reset_kbd_data is remembered until the next keystroke. -/
theorem asserted_succ (asserted : Asserted inputs start (cycle + 1)) :
    (registers inputs start (cycle + 1)).lcd.resetKbdData = true ∨
      Asserted inputs start cycle ∧ ¬ Keystroke inputs cycle := by
  obtain ⟨earlier, before, reset, none⟩ := asserted
  rcases Nat.lt_or_eq_of_le before with sooner | rfl
  · have upTo : earlier ≤ cycle := Nat.le_of_lt_succ sooner
    exact .inr ⟨⟨earlier, upTo, reset, fun between low high => none between low (by omega)⟩,
      none cycle upTo (Nat.lt_succ_self cycle)⟩
  · exact .inl reset

/-- How far the last keystroke has been served. -/
inductive Phase : Prop
  /-- No strobe. Every rise is answered, and the code is that of the last key. -/
  | waiting (low : (registers inputs start cycle).dataReady = false)
      (answered : ¬ Unanswered inputs cycle) (rests : ¬ (registers inputs start cycle).lcd.Serving)
      (code : (registers inputs start cycle).asciiCode = lastKey inputs start cycle)
  /-- A strobe that has not been seen by Write_Kbd_To_Scope_LCD, or never will be. -/
  | pending (high : (registers inputs start cycle).dataReady = true)
      (unasserted : ¬ Asserted inputs start cycle) (rests : ¬ (registers inputs start cycle).lcd.Serving)
      (code : key2ascii (registers inputs start cycle).scanCode = lastKey inputs start cycle)
  /-- A strobe whose code has been converted. -/
  | converted (high : (registers inputs start cycle).dataReady = true)
      (answered : ¬ Unanswered inputs cycle)
      (order : Asserted inputs start cycle →
        (registers inputs start cycle).lcd.Serving → (registers inputs start cycle).lcd = .clearKbdData)
      (scanned : key2ascii (registers inputs start cycle).scanCode = lastKey inputs start cycle)
      (code : (registers inputs start cycle).asciiCode = lastKey inputs start cycle)

/-- The code register keeps its value or takes the translation of the scan code. -/
theorem code_or_scan :
    (registers inputs start (cycle + 1)).asciiCode = (registers inputs start cycle).asciiCode ∨
      (registers inputs start (cycle + 1)).asciiCode =
        key2ascii (registers inputs start (cycle + 1)).scanCode := by
  simp only [run_succ, step]
  split
  · exact .inr rfl
  · exact .inl rfl

variable {inputs}

/-- Without a keystroke nothing changes the scan code or what the last key was. -/
theorem no_keystroke (none : ¬ Keystroke inputs cycle) :
    (registers inputs start (cycle + 1)).scanCode = (registers inputs start cycle).scanCode ∧
      lastKey inputs start (cycle + 1) = lastKey inputs start cycle ∧
      (registers inputs start (cycle + 1)).dataReady =
        ((registers inputs start cycle).dataReady && !(inputs cycle).dataReadyReset) := by
  have absent : (inputs cycle).keystroke = .none := by
    simpa only [Keystroke, Option.isSome_iff_ne_none, ne_eq, not_not] using none
  simp only [run_succ, step, lastKey, absent, Option.getD_none, Option.isSome_none, Bool.false_or, and_self]

variable {start}

/-- A strobe that is not reset stays. -/
theorem strobe_stays (relies : Relies inputs start)
    (high : (registers inputs start cycle).dataReady = true)
    (unasserted : ¬ Asserted inputs start cycle) :
    (registers inputs start (cycle + 1)).dataReady = true := by
  have notReset : (inputs cycle).dataReadyReset = false := by
    by_contra reset
    exact unasserted (relies.stays cycle high (Bool.eq_true_of_not_eq_false reset))
  simp only [run_succ, step, high, notReset, Bool.not_false, Bool.and_true, Bool.or_true]

/-- The code register keeps its value beside a machine that does not begin a conversion. -/
theorem code_kept (silent : (registers inputs start (cycle + 1)).lcd.convertNow = false) :
    (registers inputs start (cycle + 1)).asciiCode = (registers inputs start cycle).asciiCode := by
  have next : ((registers inputs start cycle).lcd.step (inputs cycle).actualKbdReady).convertNow = false :=
    silent
  simp only [run_succ, step, next, Bool.false_and, Bool.false_eq_true, ↓reduceIte]

/-- While every rise is answered no pulse comes, and a machine at rest stays so. -/
theorem answered_silent (relies : Relies inputs start) (answered : ¬ Unanswered inputs cycle) :
    (inputs cycle).actualKbdReady = false := by
  by_contra pulse
  obtain ⟨rise, before, stroke, none⟩ := relies.answers cycle (Bool.eq_true_of_not_eq_false pulse)
  exact answered ⟨rise, by omega, stroke, none⟩

/-- A rise stays answered until the next keystroke. -/
theorem answered_succ (answered : ¬ Unanswered inputs cycle) (noStroke : ¬ Keystroke inputs cycle) :
    ¬ Unanswered inputs (cycle + 1) := by
  intro unanswered
  rcases unanswered_succ inputs cycle unanswered with stroked | ⟨before, _⟩
  · exact noStroke stroked
  · exact answered before

/-- Where reset_kbd_data is low, an assertion is one of an earlier cycle. -/
theorem unasserted_succ
    (noReset : (registers inputs start (cycle + 1)).lcd.resetKbdData = false)
    (before : Asserted inputs start cycle → Keystroke inputs cycle) :
    ¬ Asserted inputs start (cycle + 1) := by
  intro asserted
  rcases asserted_succ inputs start cycle asserted with reset | ⟨earlier, noStroke⟩
  · exact absurd (noReset.symm.trans reset) Bool.false_ne_true
  · exact noStroke (before earlier)

/-- Beside a high strobe no keystroke comes. -/
theorem no_keystroke_high (relies : Relies inputs start)
    (high : (registers inputs start cycle).dataReady = true) : ¬ Keystroke inputs cycle := fun stroke =>
  absurd (high.symm.trans (relies.raises cycle stroke)) Bool.noConfusion

/-- Without a strobe a keystroke begins the service of its key, and nothing else does. -/
theorem waiting_succ (relies : Relies inputs start)
    (low : (registers inputs start cycle).dataReady = false)
    (answered : ¬ Unanswered inputs cycle) (rests : ¬ (registers inputs start cycle).lcd.Serving)
    (code : (registers inputs start cycle).asciiCode = lastKey inputs start cycle) :
    (registers inputs start (cycle + 1)).asciiCode = lastKey inputs start cycle ∧
      Phase inputs start (cycle + 1) := by
  have stillRests : ¬ (registers inputs start (cycle + 1)).lcd.Serving := by
    have lcdNext : (registers inputs start (cycle + 1)).lcd =
        (registers inputs start cycle).lcd.step (inputs cycle).actualKbdReady := rfl
    rw [lcdNext, answered_silent cycle relies answered]
    exact rest_step _ rests false (fun impossible => absurd impossible Bool.false_ne_true)
  obtain ⟨noConversion, noReset⟩ := rest_silent _ stillRests
  have sameCode := (code_kept cycle noConversion).trans code
  refine ⟨sameCode, ?_⟩
  by_cases stroke : Keystroke inputs cycle
  · obtain ⟨newCode, present⟩ := Option.isSome_iff_exists.mp stroke
    apply Phase.pending
    · simp only [run_succ, step, present, Option.isSome_some, Bool.true_or]
    · exact unasserted_succ cycle noReset (fun _ => stroke)
    · exact stillRests
    · simp only [run_succ, step, present, Option.getD_some, lastKey]
  · obtain ⟨_, sameKey, strobe⟩ := no_keystroke start cycle stroke
    apply Phase.waiting
    · rw [strobe, low, Bool.false_and]
    · exact answered_succ cycle answered stroke
    · exact stillRests
    · rw [sameCode, sameKey]

/-- A pulse that comes upon an idle machine loads the translation of the scan code. -/
theorem idle_converts (pulse : (inputs cycle).actualKbdReady = true)
    (idle : (registers inputs start cycle).lcd = .idle) :
    (registers inputs start (cycle + 1)).lcd = .convertToAsciiNow ∧
      (registers inputs start (cycle + 1)).asciiCode =
        key2ascii (registers inputs start (cycle + 1)).scanCode := by
  simp only [run_succ, step, pulse, idle]
  exact ⟨rfl, rfl⟩

/-- A strobe stays until a pulse comes upon an idle machine, which converts its code. -/
theorem pending_succ (relies : Relies inputs start)
    (high : (registers inputs start cycle).dataReady = true)
    (unasserted : ¬ Asserted inputs start cycle) (rests : ¬ (registers inputs start cycle).lcd.Serving)
    (code : key2ascii (registers inputs start cycle).scanCode = lastKey inputs start cycle) :
    Phase inputs start (cycle + 1) := by
  have noStroke := no_keystroke_high cycle relies high
  obtain ⟨sameScan, sameKey, _⟩ := no_keystroke start cycle noStroke
  have strobe := strobe_stays cycle relies high unasserted
  have scanned : key2ascii (registers inputs start (cycle + 1)).scanCode =
      lastKey inputs start (cycle + 1) := by rw [sameScan, sameKey, code]
  by_cases seen : (inputs cycle).actualKbdReady = true ∧ (registers inputs start cycle).lcd = .idle
  · obtain ⟨pulse, idle⟩ := seen
    obtain ⟨converts, loaded⟩ := idle_converts cycle pulse idle
    apply Phase.converted
    · exact strobe
    · intro unanswered
      rcases unanswered_succ inputs cycle unanswered with stroked | ⟨_, noPulse⟩
      · exact noStroke stroked
      · exact absurd (pulse.symm.trans noPulse) Bool.noConfusion
    · intro asserted
      refine absurd asserted (unasserted_succ cycle ?_ (fun before => absurd before unasserted))
      rw [converts]
      rfl
    · exact scanned
    · rw [loaded, scanned]
  · have stillRests : ¬ (registers inputs start (cycle + 1)).lcd.Serving :=
      rest_step _ rests _ (fun pulse idle => seen ⟨pulse, idle⟩)
    apply Phase.pending
    · exact strobe
    · exact unasserted_succ cycle (rest_silent _ stillRests).2 (fun before => absurd before unasserted)
    · exact stillRests
    · exact scanned

/-- After the conversion the machine goes on to the acknowledgement, and only from there
on may the strobe fall. -/
theorem converted_succ (relies : Relies inputs start)
    (high : (registers inputs start cycle).dataReady = true) (answered : ¬ Unanswered inputs cycle)
    (order : Asserted inputs start cycle →
      (registers inputs start cycle).lcd.Serving → (registers inputs start cycle).lcd = .clearKbdData)
    (scanned : key2ascii (registers inputs start cycle).scanCode = lastKey inputs start cycle)
    (code : (registers inputs start cycle).asciiCode = lastKey inputs start cycle) :
    Phase inputs start (cycle + 1) := by
  have lcdNext : (registers inputs start (cycle + 1)).lcd =
      (registers inputs start cycle).lcd.step (inputs cycle).actualKbdReady := rfl
  rw [answered_silent cycle relies answered] at lcdNext
  have noStroke := no_keystroke_high cycle relies high
  obtain ⟨sameScan, sameKey, strobe⟩ := no_keystroke start cycle noStroke
  have stillAnswered := answered_succ cycle answered noStroke
  have noConversion : (registers inputs start (cycle + 1)).lcd.convertNow = false := by
    rw [lcdNext]
    cases (registers inputs start cycle).lcd <;> rfl
  have sameCode : (registers inputs start (cycle + 1)).asciiCode = lastKey inputs start (cycle + 1) := by
    rw [code_kept cycle noConversion, sameKey, code]
  by_cases reset : (inputs cycle).dataReadyReset = true
  · have ordered := order (relies.stays cycle high reset)
    apply Phase.waiting
    · rw [strobe, reset, Bool.not_true, Bool.and_false]
    · exact stillAnswered
    · rw [lcdNext]
      exact after_clear _ ordered
    · exact sameCode
  · apply Phase.converted
    · rw [strobe, high, Bool.eq_false_of_not_eq_true reset]
      rfl
    · exact stillAnswered
    · intro asserted serving
      rcases asserted_succ inputs start cycle asserted with now | ⟨before, _⟩
      · exact (resetKbdData_iff _).mp now
      · rw [lcdNext] at serving
        exact absurd serving (after_clear _ (order before))
    · rw [sameScan, sameKey, scanned]
    · exact sameCode

/-- In every cycle of a run from power-up the service is in one of its phases. -/
theorem phase_always (relies : Relies inputs start) (powered : PowerUp start) :
    Phase inputs start cycle := by
  induction cycle with
  | zero =>
    obtain ⟨low, first, _⟩ := powered
    apply Phase.waiting
    · exact low
    · rintro ⟨rise, before, _⟩
      exact absurd before (Nat.not_lt_zero rise)
    · exact fun serving => by simp [LcdState.Serving, first] at serving
    · rfl
  | succ cycle inductionHypothesis =>
    cases inductionHypothesis with
    | waiting low answered rests code => exact (waiting_succ cycle relies low answered rests code).2
    | pending high unasserted rests code => exact pending_succ cycle relies high unasserted rests code
    | converted high answered order scanned code =>
      exact converted_succ cycle relies high answered order scanned code

/-- A keystroke finds the code of the key before it, and its strobe rises beside that
code. -/
theorem stale_code (relies : Relies inputs start) (powered : PowerUp start)
    (stroke : Keystroke inputs cycle) :
    (registers inputs start (cycle + 1)).asciiCode = lastKey inputs start cycle := by
  have low := relies.raises cycle stroke
  cases phase_always cycle relies powered with
  | waiting low answered rests code => exact (waiting_succ cycle relies low answered rests code).1
  | pending high => exact absurd (high.symm.trans low) Bool.noConfusion
  | converted high => exact absurd (high.symm.trans low) Bool.noConfusion

end Service

section Controller

/-- Under the reset key with its strobe the controller keeps `Idle` and goes to a reset
state from everywhere else. -/
theorem keyboard_reset (input : KeyboardCtrl.Input) (state : StateType)
    (key : resetKey input.kbdReceivedAsciiCode input.kbdDataReady = true) :
    (state = .idle → KeyboardCtrl.step input state = .idle) ∧
      (state ≠ .idle → IsReset (KeyboardCtrl.step input state)) := by
  cases state <;> simp [KeyboardCtrl.step, key, IsReset, StateType.dir, StateType.encoding]

/-- Without it no reset state is entered. -/
theorem keyboard_no_reset (input : KeyboardCtrl.Input) (state : StateType)
    (noKey : resetKey input.kbdReceivedAsciiCode input.kbdDataReady = false) (playing : ¬ IsReset state) :
    ¬ IsReset (KeyboardCtrl.step input state) := by
  cases state <;> simp_all [KeyboardCtrl.step, IsReset] <;> split_ifs <;> simp

/-- The controller enters a reset state beside a strobe and the code of R. -/
theorem entersReset_iff (cycle : Nat) :
    EntersReset inputs start cycle ↔
      ((registers inputs start cycle).asciiCode = characterR ∧
        (registers inputs start cycle).dataReady = true) ∧
        ¬ ((registers inputs start cycle).keyboard = .idle ∨
          IsReset (registers inputs start cycle).keyboard) := by
  generalize given : ({ kbdReceivedAsciiCode := (registers inputs start cycle).asciiCode
                        kbdDataReady := (registers inputs start cycle).dataReady
                        readFinish := (inputs cycle).readFinish } : KeyboardCtrl.Input) = input
  have next : (registers inputs start (cycle + 1)).keyboard =
      KeyboardCtrl.step input (registers inputs start cycle).keyboard := by rw [← given]; rfl
  have key : resetKey input.kbdReceivedAsciiCode input.kbdDataReady = true ↔
      (registers inputs start cycle).asciiCode = characterR ∧
        (registers inputs start cycle).dataReady = true := by
    rw [← given]
    simp only [resetKey, Bool.and_eq_true, beq_iff_eq]
  rw [← key, EntersReset, next]
  constructor
  · rintro ⟨playing, reset⟩
    have pressed : resetKey input.kbdReceivedAsciiCode input.kbdDataReady = true := by
      by_contra noKey
      exact keyboard_no_reset input _ (Bool.eq_false_of_not_eq_true noKey) playing reset
    refine ⟨pressed, ?_⟩
    rintro (idle | already)
    · rw [(keyboard_reset input _ pressed).1 idle] at reset
      exact absurd reset (by decide)
    · exact playing already
  · rintro ⟨pressed, playing⟩
    exact ⟨fun already => playing (.inr already),
      (keyboard_reset input _ pressed).2 (fun idle => playing (.inl idle))⟩

/-- After a cycle with the code of R and a strobe the controller is in `Idle` or in a reset
state. -/
theorem quiet_succ (cycle : Nat) (code : (registers inputs start cycle).asciiCode = characterR)
    (high : (registers inputs start cycle).dataReady = true) :
    (registers inputs start (cycle + 1)).keyboard = .idle ∨
      IsReset (registers inputs start (cycle + 1)).keyboard := by
  have key : resetKey (registers inputs start cycle).asciiCode (registers inputs start cycle).dataReady = true := by
    simp only [resetKey, code, high, beq_self_eq_true, Bool.and_self]
  obtain ⟨idle, playing⟩ := keyboard_reset
    { kbdReceivedAsciiCode := (registers inputs start cycle).asciiCode
      kbdDataReady := (registers inputs start cycle).dataReady
      readFinish := (inputs cycle).readFinish } (registers inputs start cycle).keyboard key
  by_cases here : (registers inputs start cycle).keyboard = .idle
  · exact .inl (idle here)
  · exact .inr (playing here)

end Controller

variable {inputs start}

/-- Where no key follows R on a playing controller, the controller is quiet as long as it
sees a strobe beside the code of R that belongs to another key. -/
theorem stale_quiet (relies : Relies inputs start) (powered : PowerUp start)
    (condition : NoKeyAfterReset inputs start) (cycle : Nat)
    (high : (registers inputs start cycle).dataReady = true)
    (code : (registers inputs start cycle).asciiCode = characterR)
    (other : key2ascii (registers inputs start cycle).scanCode ≠ characterR) :
    (registers inputs start cycle).keyboard = .idle ∨ IsReset (registers inputs start cycle).keyboard := by
  cases cycle with
  | zero => exact absurd (high.symm.trans powered.1) Bool.noConfusion
  | succ cycle =>
    by_cases stroke : Keystroke inputs cycle
    · obtain ⟨newCode, present⟩ := Option.isSome_iff_exists.mp stroke
      have scanned : (registers inputs start (cycle + 1)).scanCode = newCode := by
        simp only [run_succ, step, present, Option.getD_some]
      apply condition cycle newCode present
      · rwa [scanned] at other
      · rw [← stale_code cycle relies powered stroke, code]
    · obtain ⟨_, _, strobe⟩ := no_keystroke start cycle stroke
      have highBefore : (registers inputs start cycle).dataReady = true := by
        rw [strobe] at high
        exact (Bool.and_eq_true_iff.mp high).1
      apply quiet_succ inputs start cycle ?_ highBefore
      rcases code_or_scan inputs start cycle with kept | converted
      · rw [← kept, code]
      · exact absurd (converted.symm.trans code) other

/-- From power-up the controller enters a reset state for the reset key alone, exactly if
no other key that comes directly after R finds it playing or paused. -/
theorem reset_by_its_key_iff (relies : Relies inputs start) (powered : PowerUp start) :
    ResetByItsKey inputs start ↔ NoKeyAfterReset inputs start := by
  constructor
  · intro holds cycle code present other last
    by_contra playing
    have stroke : Keystroke inputs cycle := Option.isSome_iff_exists.mpr ⟨code, present⟩
    have stale := (stale_code cycle relies powered stroke).trans last
    have high : (registers inputs start (cycle + 1)).dataReady = true := by
      simp only [run_succ, step, present, Option.isSome_some, Bool.true_or]
    have scanned : (registers inputs start (cycle + 1)).scanCode = code := by
      simp only [run_succ, step, present, Option.getD_some]
    have enters := (entersReset_iff inputs start (cycle + 1)).mpr ⟨⟨stale, high⟩, playing⟩
    have itsKey := (holds (cycle + 1) enters).2
    rw [scanned] at itsKey
    exact other itsKey
  · intro condition cycle enters
    obtain ⟨⟨code, high⟩, playing⟩ := (entersReset_iff inputs start cycle).mp enters
    refine ⟨high, ?_⟩
    by_contra other
    exact playing (stale_quiet relies powered condition cycle high code other)

end Runs

/-- The keys E, R and A, ten cycles apart. The master finishes once, between R and A. -/
def playResetA (cycle : Nat) : Input where
  keystroke :=
    if cycle = 3 then some 0x24#8 else if cycle = 13 then some 0x2d#8
    else if cycle = 23 then some 0x1c#8 else none
  dataReadyReset := decide (cycle = 9 ∨ cycle = 19 ∨ cycle = 29)
  actualKbdReady := decide (cycle = 5 ∨ cycle = 15 ∨ cycle = 25)
  readFinish := decide (cycle = 21)

/-- All registers zero but the declared one. -/
def powerUp : Registers where
  scanCode := 0
  dataReady := false
  lcd := .initState
  asciiCode := 0
  keyboard := .idle

/-- Power-up with the registers cleared is one. -/
theorem powerUp_powered : PowerUp powerUp := ⟨rfl, rfl, rfl⟩

/-- This course of the trap circuit keeps to what is relied on. -/
theorem playResetA_relies : Relies playResetA powerUp where
  raises := by
    intro cycle stroke
    have which : cycle = 3 ∨ cycle = 13 ∨ cycle = 23 := by
      unfold Keystroke playResetA at stroke
      split_ifs at stroke <;> simp_all
    rcases which with rfl | rfl | rfl <;> decide +kernel
  stays := by
    intro cycle _ reset
    have which : cycle = 9 ∨ cycle = 19 ∨ cycle = 29 := of_decide_eq_true reset
    refine ⟨cycle, Nat.le_refl cycle, ?_, fun between low high => by omega⟩
    rcases which with rfl | rfl | rfl <;> decide +kernel
  answers := by
    intro cycle pulse
    have which : cycle = 5 ∨ cycle = 15 ∨ cycle = 25 := of_decide_eq_true pulse
    refine ⟨cycle - 2, by omega, ?_, fun between low high => decide_eq_false (by omega)⟩
    rcases which with rfl | rfl | rfl <;> rfl

/-- Under it the theorem applies. -/
theorem reset_by_its_key_playResetA :
    ResetByItsKey playResetA powerUp ↔ NoKeyAfterReset playResetA powerUp :=
  reset_by_its_key_iff playResetA_relies powerUp_powered

/-- When A is pressed after R, the player is reset by it: data_ready of A is high in cycle
24 beside the code of R. -/
theorem playResetA_resets :
    PowerUp powerUp ∧ Relies playResetA powerUp ∧ ¬ ResetByItsKey playResetA powerUp := by
  refine ⟨powerUp_powered, playResetA_relies, fun holds => ?_⟩
  have enters : EntersReset playResetA powerUp 24 := by
    unfold EntersReset
    decide +kernel
  have scanned := (key2ascii_characterR _).mp (holds 24 enters).2
  exact absurd scanned (by decide +kernel)

end CpenLabs.StaleKeyCode
