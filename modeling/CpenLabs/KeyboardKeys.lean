import CpenLabs.ScanCodeReader

/-!
# The keys of Lab 5

`Keyboard_Controller` joins the reader of bytes, the eight places for them and the
comparison with the codes; the top level keeps one register for each of seventeen keys
and gives them to the processor in one word. All of it runs on one clock, so each part
passes on with a delay of one cycle what it is given: three cycles after a bit has been
taken from the data line, the registers of the keys show what the bits up to it say.

No byte is lost between the parts. A code that has been found clears the places in one
cycle, in which another byte would not be stored; but the debouncer cannot let two bits
through in neighbouring cycles.
-/

namespace CpenLabs.KeyboardKeys

open PrefixCode ScanCodes ScanCodeReader Transducers

section Source

/-- The keys with a register, in the order of their bits in `keyboard_keys`. -/
inductive Watched
  | downArrow | upArrow | rightArrow | leftArrow | space | m | n | f2 | f1
  | eight | seven | six | five | four | three | two | one
  deriving DecidableEq

/-- The key of a register. -/
def Watched.key : Watched → Key
  | downArrow => .downArrow
  | upArrow => .upArrow
  | rightArrow => .rightArrow
  | leftArrow => .leftArrow
  | space => .space
  | m => .m
  | n => .n
  | f2 => .f2
  | f1 => .f1
  | eight => .eight
  | seven => .seven
  | six => .six
  | five => .five
  | four => .four
  | three => .three
  | two => .two
  | one => .one

/-- The registers of `Keyboard_Controller` and of the keys. -/
structure Keyboard where
  reader : Reader
  places : Places
  oEventReady : Bool
  oEventType : Event
  holding : Watched → Bool

/-- The two lines of the keyboard, and the reset that a key of the board gives. -/
structure Input where
  lines : Lines
  resetFromKey : Bool

/-- What an event does to the register of a key. -/
def press (key : Key) (down : Bool) (event : Event) : Bool :=
  if event = .makes key then true else if event = .breaks key then false else down

/-- An edge of `CLK_25MHZ`. -/
def step (input : Input) (keyboard : Keyboard) : Keyboard where
  reader := stepLines input.lines keyboard.reader
  places := keyboard.places.step keyboard.reader.oScanReady keyboard.reader.oScanByte
  oEventReady := (scanCodeToEvent keyboard.places.scanCode).1
  oEventType := (scanCodeToEvent keyboard.places.scanCode).2
  holding key :=
    if input.resetFromKey then false
    else press key.key (keyboard.holding key) keyboard.oEventType

/-- The registers after both resets. -/
def Keyboard.reset (keyboard : Keyboard) : Keyboard where
  reader := keyboard.reader.reset
  places := .cleared
  oEventReady := false
  oEventType := .none
  holding _ := false

/-- The wire `keyboard_keys`. -/
def Keyboard.keyboardKeys (keyboard : Keyboard) : BitVec 32 :=
  0#15 ++ BitVec.ofBool (keyboard.holding .one) ++ BitVec.ofBool (keyboard.holding .two) ++
    BitVec.ofBool (keyboard.holding .three) ++ BitVec.ofBool (keyboard.holding .four) ++
    BitVec.ofBool (keyboard.holding .five) ++ BitVec.ofBool (keyboard.holding .six) ++
    BitVec.ofBool (keyboard.holding .seven) ++ BitVec.ofBool (keyboard.holding .eight) ++
    BitVec.ofBool (keyboard.holding .f1) ++ BitVec.ofBool (keyboard.holding .f2) ++
    BitVec.ofBool (keyboard.holding .n) ++ BitVec.ofBool (keyboard.holding .m) ++
    BitVec.ofBool (keyboard.holding .space) ++ BitVec.ofBool (keyboard.holding .leftArrow) ++
    BitVec.ofBool (keyboard.holding .rightArrow) ++ BitVec.ofBool (keyboard.holding .upArrow) ++
    BitVec.ofBool (keyboard.holding .downArrow)

/-- Each key has a bit of it. -/
theorem Keyboard.keyboardKeys_getLsbD (keyboard : Keyboard) (key : Watched) :
    keyboard.keyboardKeys.getLsbD key.ctorIdx = keyboard.holding key := by
  cases key <;> simp only [keyboardKeys, Watched.ctorIdx, BitVec.getLsbD_append,
    BitVec.getLsbD_ofBool] <;> rfl

end Source

variable (inputs : Nat → Input) (start : Keyboard)

/-- The registers in each cycle after the resets. -/
abbrev circuit : Nat → Keyboard := Clocked.run step inputs start.reset

/-- The bit that a cycle takes from the data line. -/
def bit (cycle : Nat) : List Bool :=
  if (circuit inputs start cycle).reader.ps2ClkPosedge then [(inputs cycle).lines.iPS2Dat] else []

/-- The byte that the reader has ready. -/
def scanned (cycle : Nat) : List Byte :=
  if (circuit inputs start cycle).reader.oScanReady then [(circuit inputs start cycle).reader.oScanByte]
  else []

/-- The event that the bytes in the places are. -/
def found (cycle : Nat) : List Event :=
  (matching scanCodes (circuit inputs start cycle).places.scanCode).toList

/-- The event that the outputs of the controller show. -/
def presented (cycle : Nat) : List Event :=
  if (circuit inputs start cycle).oEventReady then [(circuit inputs start cycle).oEventType] else []

/-- What the bits up to a cycle say. -/
def eventsRead (bits : List Bool) : List Event :=
  output parse .cleared (output receive start.reset.reader.receiver bits)

section Bytes

/-- The receiver takes the bit of the cycle. -/
theorem receiver_next (cycle : Nat) :
    (circuit inputs start (cycle + 1)).reader.receiver =
      after receive (circuit inputs start cycle).reader.receiver (bit inputs start cycle) := by
  change (if (circuit inputs start cycle).reader.ps2ClkPosedge then _ else _) = _
  rw [bit]
  split_ifs <;> rfl

/-- The reader has a byte ready in the cycle after its last bit, and accepts it at once. -/
theorem scanned_next (cycle : Nat) :
    scanned inputs start (cycle + 1) =
      output receive (circuit inputs start cycle).reader.receiver (bit inputs start cycle) := by
  have ready : (circuit inputs start (cycle + 1)).reader.oScanReady =
      (circuit inputs start cycle).reader.completes := by
    change (if (circuit inputs start cycle).reader.completes then true
      else if (circuit inputs start cycle).reader.oScanReady then false
      else (circuit inputs start cycle).reader.oScanReady) = _
    cases (circuit inputs start cycle).reader.completes <;>
      cases (circuit inputs start cycle).reader.oScanReady <;> rfl
  have byte : (circuit inputs start (cycle + 1)).reader.oScanByte =
      if (circuit inputs start cycle).reader.completes then
        (circuit inputs start cycle).reader.receiver.shiftIn.extractLsb' 0 8
      else (circuit inputs start cycle).reader.oScanByte := rfl
  rw [scanned, ready, byte, Reader.completes, bit]
  cases (circuit inputs start cycle).reader.ps2ClkPosedge with
  | false => rfl
  | true =>
    rw [Bool.true_and, if_pos rfl, output, output, receive, List.append_nil]
    split_ifs <;> rfl

/-- The bytes are those of the bits. -/
theorem scanned_eq (cycle : Nat) :
    Clocked.history (scanned inputs start) (cycle + 1) =
      output receive start.reset.reader.receiver (Clocked.history (bit inputs start) cycle) := by
  obtain ⟨-, bytes⟩ := follows (fun number => (circuit inputs start number).reader.receiver)
    (bit inputs start) (receiver_next inputs start) cycle
  have next : (fun number => scanned inputs start (number + 1)) = fun number =>
      output receive (circuit inputs start number).reader.receiver (bit inputs start number) :=
    funext (scanned_next inputs start)
  rw [Clocked.history_add, next, bytes]
  rfl

end Bytes

section Events

/-- An event is ready if the bytes are a code. -/
theorem scanCodeToEvent_ready (code : List Byte) :
    (scanCodeToEvent code).1 = (matching scanCodes code).isSome := by
  rw [scanCodeToEvent]
  cases matching scanCodes code <;> rfl

/-- Cleared places are none. -/
theorem cleared_silent : (scanCodeToEvent Places.cleared.scanCode).1 = false := by decide +kernel

/-- A byte is not ready in the cycle in which a code is cleared: it has been ready in the
cycle before, and then no bit is taken. -/
structure Apart (keyboard : Keyboard) : Prop where
  taken : keyboard.reader.oScanReady = true → keyboard.reader.ps2ClkDebouncedPrev = true
  clears : (scanCodeToEvent keyboard.places.scanCode).1 = true → keyboard.reader.oScanReady = false

/-- After a reset no byte is ready. -/
theorem Apart.reset (keyboard : Keyboard) : Apart keyboard.reset where
  taken ready := by cases ready
  clears code := by
    rw [show keyboard.reset.places = .cleared from rfl, cleared_silent] at code
    cases code

/-- An edge keeps them apart. -/
theorem Apart.step {keyboard : Keyboard} (apart : Apart keyboard) (input : Input) :
    Apart (step input keyboard) := by
  have ready : (KeyboardKeys.step input keyboard).reader.oScanReady =
      if keyboard.reader.completes then true
      else if keyboard.reader.oScanReady then false else keyboard.reader.oScanReady := rfl
  constructor
  · intro next
    rw [ready] at next
    change keyboard.reader.ps2ClkDebounced = true
    split_ifs at next with completes nothing
    · rw [Reader.completes, Reader.ps2ClkPosedge, Bool.and_eq_true, Bool.and_eq_true] at completes
      exact completes.1.1
    · exact absurd next nothing
  · intro code
    change (scanCodeToEvent (keyboard.places.step keyboard.reader.oScanReady
      keyboard.reader.oScanByte).scanCode).1 = true at code
    rw [Places.step] at code
    split_ifs at code with clears stored
    · rw [cleared_silent] at code
      cases code
    · have noBit : keyboard.reader.completes = false := by
        rw [Reader.completes, Reader.ps2ClkPosedge, apart.taken stored, Bool.not_true, Bool.and_false,
          Bool.false_and]
      rw [ready, noBit, stored]
      rfl
    · exact absurd code clears

/-- They are apart in every run. -/
theorem apart (cycle : Nat) : Apart (circuit inputs start cycle) :=
  Clocked.run_invariant step inputs _ Apart (.reset start) (fun input _ apart => apart.step input) cycle

/-- The places, without a code that is cleared with the next edge. -/
def settled (places : Places) : Places :=
  if (scanCodeToEvent places.scanCode).1 then .cleared else places

/-- A byte that is stored gives the event of the parser, and leaves its places. -/
theorem settled_store (places : Places) (scanByte : Byte) :
    settled (places.store scanByte) = (parse places scanByte).1 ∧
      (matching scanCodes (places.store scanByte).scanCode).toList = (parse places scanByte).2 := by
  rw [settled, scanCodeToEvent_ready, parse]
  cases matching scanCodes (places.store scanByte).scanCode <;> exact ⟨rfl, rfl⟩

/-- The places without a code give none. -/
theorem silent {places : Places} (noCode : (scanCodeToEvent places.scanCode).1 = false) :
    settled places = places ∧ (matching scanCodes places.scanCode).toList = [] := by
  refine ⟨by rw [settled, noCode, if_neg Bool.false_ne_true], ?_⟩
  rw [scanCodeToEvent_ready, Option.isSome_eq_false_iff, Option.isNone_iff_eq_none] at noCode
  rw [noCode, Option.toList_none]

/-- An edge does to the places what the byte does that is ready. -/
theorem settled_step (places : Places) (ready : Bool) (scanByte : Byte)
    (clears : (scanCodeToEvent places.scanCode).1 = true → ready = false) :
    settled (places.step ready scanByte) =
        after parse (settled places) (if ready then [scanByte] else []) ∧
      (matching scanCodes (places.step ready scanByte).scanCode).toList =
        output parse (settled places) (if ready then [scanByte] else []) := by
  cases code : (scanCodeToEvent places.scanCode).1 with
  | true =>
    have stepped : places.step ready scanByte = .cleared := by rw [Places.step, code, if_pos rfl]
    have before : settled places = .cleared := by rw [settled, code, if_pos rfl]
    rw [stepped, before, clears code]
    exact silent cleared_silent
  | false =>
    obtain ⟨before, nothing⟩ := silent code
    rw [Places.step, code, before, if_neg Bool.false_ne_true]
    cases ready with
    | false => exact ⟨before, nothing⟩
    | true =>
      obtain ⟨kept, events⟩ := settled_store places scanByte
      exact ⟨kept, events.trans (List.append_nil _).symm⟩

/-- So do the bytes that the reader has ready. -/
theorem settled_next (cycle : Nat) :
    settled (circuit inputs start (cycle + 1)).places =
        after parse (settled (circuit inputs start cycle).places) (scanned inputs start cycle) ∧
      found inputs start (cycle + 1) =
        output parse (settled (circuit inputs start cycle).places) (scanned inputs start cycle) :=
  settled_step _ _ _ (apart inputs start cycle).clears

/-- The events are those of the bytes. -/
theorem found_eq (cycle : Nat) :
    Clocked.history (found inputs start) (cycle + 1) =
      output parse .cleared (Clocked.history (scanned inputs start) cycle) := by
  obtain ⟨-, events⟩ := follows (fun number => settled (circuit inputs start number).places)
    (scanned inputs start) (fun number => (settled_next inputs start number).1) cycle
  have next : (fun number => found inputs start (number + 1)) = fun number =>
      output parse (settled (circuit inputs start number).places) (scanned inputs start number) :=
    funext fun number => (settled_next inputs start number).2
  have nothing : found inputs start 0 = [] := (silent cleared_silent).2
  have clear : settled (circuit inputs start 0).places = .cleared := ite_self _
  rw [Clocked.history_add, next, events, clear, Clocked.history_succ, nothing]
  rfl

/-- The outputs show the event one cycle later. -/
theorem presented_next (cycle : Nat) : presented inputs start (cycle + 1) = found inputs start cycle := by
  have ready : (circuit inputs start (cycle + 1)).oEventReady =
      (scanCodeToEvent (circuit inputs start cycle).places.scanCode).1 := rfl
  have type : (circuit inputs start (cycle + 1)).oEventType =
      (scanCodeToEvent (circuit inputs start cycle).places.scanCode).2 := rfl
  rw [presented, found, ready, type, scanCodeToEvent]
  cases matching scanCodes (circuit inputs start cycle).places.scanCode <;> rfl

/-- Three cycles after a bit its event has been shown: whatever the two lines do, the
events are those that the bits say. -/
theorem presented_eq (cycle : Nat) :
    Clocked.history (presented inputs start) (cycle + 3) =
      eventsRead start (Clocked.history (bit inputs start) cycle) := by
  have next : (fun number => presented inputs start (number + 1)) = found inputs start :=
    funext (presented_next inputs start)
  rw [show cycle + 3 = cycle + 2 + 1 from rfl, Clocked.history_add, next, found_eq, scanned_eq]
  rfl

end Events

section Keys

/-- Whether a key is down after events. -/
def isDown (key : Key) (events : List Event) : Bool := events.foldl (press key) false

/-- Without an event the type is that of none. -/
theorem type_none (cycle : Nat) (silent : (circuit inputs start cycle).oEventReady = false) :
    (circuit inputs start cycle).oEventType = .none := by
  cases cycle with
  | zero => rfl
  | succ cycle =>
    change (scanCodeToEvent (circuit inputs start cycle).places.scanCode).1 = false at silent
    change (scanCodeToEvent (circuit inputs start cycle).places.scanCode).2 = .none
    rw [scanCodeToEvent] at silent ⊢
    cases code : matching scanCodes (circuit inputs start cycle).places.scanCode with
    | none => rfl
    | some event =>
      rw [code] at silent
      cases silent

/-- The register of a key follows the events, from any cycle up to the next reset. -/
theorem holding_since (first later : Nat)
    (released : ∀ cycle, first ≤ cycle → cycle < first + later → (inputs cycle).resetFromKey = false)
    (key : Watched) :
    (circuit inputs start (first + later)).holding key =
      (Clocked.history (fun number => presented inputs start (first + number)) later).foldl
        (press key.key) ((circuit inputs start first).holding key) := by
  induction later with
  | zero => rfl
  | succ later inductionHypothesis =>
    have before := inductionHypothesis fun cycle lower upper => released cycle lower (by omega)
    have next : (circuit inputs start (first + (later + 1))).holding key =
        if (inputs (first + later)).resetFromKey then false
        else press key.key ((circuit inputs start (first + later)).holding key)
          (circuit inputs start (first + later)).oEventType := rfl
    rw [next, released (first + later) (by omega) (by omega), if_neg Bool.false_ne_true, before,
      Clocked.history_succ, List.foldl_append, presented]
    cases ready : (circuit inputs start (first + later)).oEventReady with
    | true => rfl
    | false =>
      rw [type_none inputs start _ ready]
      rfl

/-- Three cycles after a bit the registers of the keys are what the bits say. -/
theorem holding_eq (released : ∀ cycle, (inputs cycle).resetFromKey = false) (cycle : Nat)
    (key : Watched) :
    (circuit inputs start (cycle + 3)).holding key =
      isDown key.key (eventsRead start (Clocked.history (bit inputs start) cycle)) := by
  have all := holding_since inputs start 0 (cycle + 3) (fun cycle _ _ => released cycle) key
  simp only [Nat.zero_add] at all
  rw [all, presented_eq]
  rfl

/-- What is written on the lines is read back, for any bytes of codes. -/
theorem eventsRead_codes (signals : List Signal) (entries : List (List Byte × Event))
    (members : ∀ entry ∈ entries, entry ∈ scanCodes)
    (codes : signals.flatMap Signal.bytes = entries.flatMap Prod.fst) :
    eventsRead start (signals.flatMap Signal.bits) = entries.map Prod.snd := by
  obtain ⟨-, bytes⟩ := @receive_signals start.reset.reader.receiver ⟨rfl, rfl⟩ signals
  rw [eventsRead, bytes, codes]
  exact (parse_codes entries members).2

/-- The reader of the circuit, apart from the rest. -/
theorem reader_eq (cycle : Nat) :
    (circuit inputs start cycle).reader =
      registers (fun number => (inputs number).lines) start.reader cycle := by
  induction cycle with
  | zero => rfl
  | succ cycle inductionHypothesis =>
    change stepLines (inputs cycle).lines (circuit inputs start cycle).reader = _
    rw [inductionHypothesis]
    rfl

/-- The clock line of the keyboard. -/
abbrev clockLine : Nat → Bool := clk fun number => (inputs number).lines

open Classical in
/-- What the lines say without the circuit: a bit is taken nine cycles after the first of
eight high samples, if there have been eight low ones since the last eight high ones. -/
noncomputable def lineBit (cycle : Nat) : List Bool :=
  if ∃ first, cycle = first + 9 ∧ Steady (clockLine inputs) true first ∧
      ∀ high, high < first → Steady (clockLine inputs) true high →
        ∃ low, high < low ∧ low < first ∧ Steady (clockLine inputs) false low then
    [(inputs cycle).lines.iPS2Dat]
  else []

/-- The circuit takes these bits. -/
theorem bit_eq (cycle : Nat) : bit inputs start cycle = lineBit inputs cycle := by
  rw [bit, lineBit, reader_eq]
  congr 1
  apply propext
  obtain early | late := Nat.lt_or_ge cycle 9
  · rw [posedge_early _ _ (Nat.le_of_lt_succ early)]
    refine ⟨fun impossible => (Bool.false_ne_true impossible).elim, ?_⟩
    rintro ⟨first, later, -⟩
    omega
  · obtain ⟨first, rfl⟩ := Nat.exists_eq_add_of_le' late
    rw [posedge_iff]
    constructor
    · exact fun taken => ⟨first, rfl, taken⟩
    · rintro ⟨other, same, taken⟩
      rwa [Nat.add_right_cancel same]

/-- Whatever the two lines do, the word that the processor reads is what they have said
up to three cycles before. -/
theorem keys_follow_lines (released : ∀ cycle, (inputs cycle).resetFromKey = false) (cycle : Nat)
    (key : Watched) :
    (circuit inputs start (cycle + 3)).keyboardKeys.getLsbD key.ctorIdx =
      isDown key.key (eventsRead start (Clocked.history (lineBit inputs) cycle)) := by
  rw [Keyboard.keyboardKeys_getLsbD, holding_eq inputs start released, funext (bit_eq inputs start)]

/-- What the data line shows nine cycles after a rise of the clock line. -/
def dataAtRise (cycle : Nat) : List Bool :=
  if rises (clockLine inputs) cycle then [(inputs (cycle + 9)).lines.iPS2Dat] else []

/-- With long levels these are the bits that are taken. -/
theorem bit_rise (long : LongLevels (clockLine inputs)) (cycle : Nat) :
    Clocked.history (bit inputs start) (cycle + 9) = Clocked.history (dataAtRise inputs) cycle := by
  have early : Clocked.history (bit inputs start) 9 = [] :=
    Clocked.history_none _ fun number before => by
      rw [bit, reader_eq, posedge_early _ _ (Nat.le_of_lt_succ before)]
      rfl
  have late : (fun number => bit inputs start (number + 9)) = dataAtRise inputs := by
    funext number
    rw [bit, reader_eq, posedge_rise _ _ long]
    rfl
  rw [Clocked.history_add, early, late, List.nil_append]

/-- The registers of the keys are what the data line has said at these rises. -/
theorem keys_at_rises (long : LongLevels (clockLine inputs))
    (released : ∀ cycle, (inputs cycle).resetFromKey = false) (cycle : Nat) (key : Watched) :
    (circuit inputs start (cycle + 12)).keyboardKeys.getLsbD key.ctorIdx =
      isDown key.key (eventsRead start (Clocked.history (dataAtRise inputs) cycle)) := by
  have bits := bit_rise inputs start long cycle
  rw [Keyboard.keyboardKeys_getLsbD, show cycle + 12 = cycle + 9 + 3 from rfl,
    holding_eq inputs start released, bits]

/-- A keyboard that sends the codes of keys, with long levels on the clock line and each
bit on the data line nine cycles after a rise, is shown key by key. -/
theorem keys_shown (long : LongLevels (clockLine inputs))
    (released : ∀ cycle, (inputs cycle).resetFromKey = false) (cycle : Nat)
    (signals : List Signal) (entries : List (List Byte × Event))
    (members : ∀ entry ∈ entries, entry ∈ scanCodes)
    (codes : signals.flatMap Signal.bytes = entries.flatMap Prod.fst)
    (sent : Clocked.history (dataAtRise inputs) cycle = signals.flatMap Signal.bits) (key : Watched) :
    (circuit inputs start (cycle + 12)).keyboardKeys.getLsbD key.ctorIdx =
      isDown key.key (entries.map Prod.snd) := by
  rw [keys_at_rises inputs start long released, sent, eventsRead_codes start signals entries members codes]

/-- A keyboard that sends signals, with levels of eight samples. -/
def sending (signals : List Signal) (cycle : Nat) : Input where
  lines :=
    { iPS2Clk := decide (8 ≤ cycle % 16)
      iPS2Dat := (signals.flatMap Signal.bits).getD ((cycle - 10) / 16) true }
  resetFromKey := false

/-- Its levels are long ones. -/
theorem sending_long (signals : List Signal) : LongLevels (clockLine (sending signals)) := by
  constructor
  · intro place inside
    change decide (8 ≤ (0 + place) % 16) = decide (8 ≤ 0 % 16)
    rw [decide_eq_decide]
    omega
  · intro cycle changes place inside
    change decide (8 ≤ cycle % 16) ≠ decide (8 ≤ (cycle + 1) % 16) at changes
    change decide (8 ≤ (cycle + 1 + place) % 16) = decide (8 ≤ (cycle + 1) % 16)
    rw [ne_eq, decide_eq_decide] at changes
    rw [decide_eq_decide]
    omega

/-- Its clock line rises in the middle of every sixteen samples. -/
theorem sending_rises (signals : List Signal) (cycle : Nat) :
    rises (clockLine (sending signals)) cycle = decide (cycle % 16 = 8) := by
  cases cycle with
  | zero => rfl
  | succ cycle =>
    change (decide (8 ≤ (cycle + 1) % 16) && !decide (8 ≤ cycle % 16)) = decide ((cycle + 1) % 16 = 8)
    rw [← decide_not, ← Bool.decide_and, decide_eq_decide]
    omega

/-- The data line shows one bit in each sixteen samples. -/
theorem sending_data (signals : List Signal) (count : Nat)
    (inside : count ≤ (signals.flatMap Signal.bits).length) :
    Clocked.history (dataAtRise (sending signals)) (16 * count) = (signals.flatMap Signal.bits).take count := by
  induction count with
  | zero => rfl
  | succ count inductionHypothesis =>
    have before := inductionHypothesis (Nat.le_of_succ_le inside)
    have early : Clocked.history (fun place => dataAtRise (sending signals) (place + 16 * count)) 8 = [] :=
      Clocked.history_none _ fun place low => by
        rw [dataAtRise, sending_rises, if_neg (by rw [decide_eq_true_iff]; omega)]
    have late : Clocked.history (fun place => dataAtRise (sending signals) (place + (8 + 16 * count + 1))) 7 =
        [] :=
      Clocked.history_none _ fun place low => by
        rw [dataAtRise, sending_rises, if_neg (by rw [decide_eq_true_iff]; omega)]
    have rise : dataAtRise (sending signals) (8 + 16 * count) = [(signals.flatMap Signal.bits)[count]] := by
      rw [dataAtRise, sending_rises, if_pos (by rw [decide_eq_true_iff]; omega)]
      change [(signals.flatMap Signal.bits).getD ((8 + 16 * count + 9 - 10) / 16) true] = _
      have place : (8 + 16 * count + 9 - 10) / 16 = count := by omega
      rw [place, List.getD_eq_getElem?_getD, List.getElem?_eq_getElem inside, Option.getD_some]
    rw [show 16 * (count + 1) = 7 + (8 + 16 * count + 1) by omega, Clocked.history_add, late, List.append_nil,
      Clocked.history_succ, Clocked.history_add, early, List.append_nil, before, rise, List.take_append_getElem]

/-- The key N is pressed. -/
def pressed : Nat → Input := sending [.frame 0x31 false true]

/-- Everything is zero. -/
def powered : Keyboard where
  reader :=
    { ps2ClkBuffer := 0
      ps2ClkDebounced := false
      ps2ClkDebouncedPrev := false
      receiver := { readingChar := false, bitCntr := 0, shiftIn := 0 }
      oScanReady := false
      oScanByte := 0 }
  places := .cleared
  oEventReady := false
  oEventType := .none
  holding _ := false

/-- The bit of N, after its make code. -/
theorem keys_follow_lines_pressed :
    (circuit pressed powered 181).keyboardKeys.getLsbD 6 =
      isDown .n (eventsRead powered (Clocked.history (lineBit pressed) 178)) :=
  keys_follow_lines pressed powered (fun _ => rfl) 178 .n

/-- The down arrow is pressed, then N, and the arrow is released. -/
def arrowReleased : List Signal :=
  [0xE0, 0x72, 0x31, 0xE0, 0xF0, 0x72].map fun byte => .frame byte false true

/-- After two bytes the arrow is down. After all of them it is up again, and N is down. -/
theorem keys_shown_released :
    (circuit (sending arrowReleased) powered 364).keyboardKeys.getLsbD 0 = true ∧
      (circuit (sending arrowReleased) powered 1068).keyboardKeys.getLsbD 0 = false ∧
      (circuit (sending arrowReleased) powered 1068).keyboardKeys.getLsbD 6 = true := by
  have shown := keys_shown (sending arrowReleased) powered (sending_long _) (fun _ => rfl)
  have two := shown 352 (arrowReleased.take 2) [([0xE0, 0x72], .makes .downArrow)] (by decide +kernel) rfl
    (sending_data arrowReleased 22 (by decide))
  have six := shown 1056 arrowReleased
    [([0xE0, 0x72], .makes .downArrow), ([0x31], .makes .n), ([0xE0, 0xF0, 0x72], .breaks .downArrow)]
    (by decide +kernel) rfl (sending_data arrowReleased 66 (by decide))
  exact ⟨two .downArrow, six .downArrow, six .n⟩

/-- A byte that begins no code, such as the one that a keyboard sends when it has been
tested, can make the release of a key look like another press: the key is down
afterwards, and so is its bit of the word that the processor reads. -/
theorem release_lost {unknown : Byte} (begins : ∀ entry ∈ scanCodes, entry.1.head? ≠ some unknown)
    {key : Key} {code : Byte} (make : ([code], .makes key) ∈ scanCodes)
    (release : ([0xF0, code], .breaks key) ∈ scanCodes) (swallowed : List Byte)
    (six : swallowed.length = 6) (signals : List Signal)
    (codes : signals.flatMap Signal.bytes = unknown :: (code :: swallowed) ++ [0xF0, code]) :
    eventsRead start (signals.flatMap Signal.bits) = [.breaks key, .makes key] ∧
      isDown key (eventsRead start (signals.flatMap Signal.bits)) = true ∧
      ∀ (inputs : Nat → Input) (cycle : Nat) (watched : Watched), LongLevels (clockLine inputs) →
        (∀ cycle, (inputs cycle).resetFromKey = false) →
        Clocked.history (dataAtRise inputs) cycle = signals.flatMap Signal.bits → watched.key = key →
        (circuit inputs start (cycle + 12)).keyboardKeys.getLsbD watched.ctorIdx = true := by
  obtain ⟨-, bytes⟩ := @receive_signals start.reset.reader.receiver ⟨rfl, rfl⟩ signals
  have events : eventsRead start (signals.flatMap Signal.bits) = [.breaks key, .makes key] := by
    rw [eventsRead, bytes, codes]
    exact release_pressed begins make release swallowed six
  have down : isDown key (eventsRead start (signals.flatMap Signal.bits)) = true := by
    rw [events]
    exact if_pos rfl
  refine ⟨events, down, fun inputs cycle watched long released sent same => ?_⟩
  rw [keys_at_rises inputs start long released, sent, same]
  exact down

/-- The release of N after a byte AA. -/
def repeated : List Signal :=
  [0xAA, 0x31, 0x31, 0x31, 0x31, 0x31, 0x31, 0x31, 0xF0, 0x31].map fun byte => .frame byte false true

/-- N is still down after its release. -/
theorem release_lost_repeated :
    eventsRead powered (repeated.flatMap Signal.bits) = [.breaks .n, .makes .n] ∧
      isDown .n (eventsRead powered (repeated.flatMap Signal.bits)) = true ∧
      (circuit (sending repeated) powered 1772).keyboardKeys.getLsbD 6 = true := by
  obtain ⟨events, down, circuits⟩ := @release_lost powered 0xAA (by decide +kernel) .n 0x31 (by decide +kernel)
    (by decide +kernel) [0x31, 0x31, 0x31, 0x31, 0x31, 0x31] rfl repeated rfl
  refine ⟨events, down, ?_⟩
  have sent := sending_data repeated 110 (by decide)
  exact circuits (sending repeated) 1760 .n (sending_long _) (fun _ => rfl) sent rfl

end Keys

end CpenLabs.KeyboardKeys
