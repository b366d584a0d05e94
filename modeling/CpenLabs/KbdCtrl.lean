import Mathlib.Data.List.Chain
import Mathlib.Tactic.SplitIfs

/-!
# Make and break codes from the keyboard

Kbd_ctrl shifts the bits of the keyboard through three registers and counts them. An
acknowledgement resets the count, and nothing else does; from the count and the last
two frames the circuit guesses whether a frame is the make code of a key, and raises
data_ready if so.

A release sends two frames, the prefix F0 and the key's code. After the prefix the
count is 11 and after the code 22, so that the next frame ends at 33, where data_ready
is raised whatever the frame is. If a key is pressed next this is right. If another key
is released, it is the prefix of that release.

The comparison of the older register with the prefix is between eleven and eight bits;
no frame that the older register can hold satisfies it, since a frame ends with a stop
bit. The trap circuits deliver one enable pulse for each falling clock edge and one
reset pulse for each acknowledgement, and are not modelled themselves. The oldest of
the three registers is an output that nothing reads.
-/

namespace CpenLabs.KbdCtrl

abbrev Byte := BitVec 8

/-- `EXTENDED_SCAN_CODE`. -/
def extendedScanCode : Byte := 0xE0#8

/-- `KEY_UP_SCAN_CODE`. -/
def keyUpScanCode : Byte := 0xF0#8

/-- The registers of Kbd_ctrl. -/
structure Registers where
  kbdReg : BitVec 11
  oldKbdReg : BitVec 11
  bitCount : BitVec 6
  dataReady : Bool
  extended : Bool

/-- `assign scan_code`: the data bits of the newest frame, in reverse. -/
def Registers.scanCode (registers : Registers) : Byte := (registers.kbdReg.extractLsb' 2 8).reverse

/-- A falling edge of kbd_clk. -/
def Registers.shift (kbdData : Bool) (registers : Registers) : Registers :=
  { registers with
    kbdReg := registers.kbdReg.shiftConcat kbdData
    oldKbdReg := registers.oldKbdReg.shiftConcat (registers.kbdReg.getLsbD 10)
    bitCount := registers.bitCount + 1#6 }

/-- The edge of clk with the enable pulse. -/
def Registers.enable (registers : Registers) : Registers :=
  { registers with
    dataReady :=
      (registers.bitCount == 0xB#6 && registers.scanCode != extendedScanCode &&
          registers.scanCode != keyUpScanCode) ||
        (registers.bitCount == 0x16#6 &&
          (registers.oldKbdReg == keyUpScanCode.setWidth 11 && registers.scanCode != extendedScanCode)) ||
        decide (0x21#6 ≤ registers.bitCount)
    extended :=
      (registers.bitCount == 0x16#6 && registers.oldKbdReg == extendedScanCode.setWidth 11) ||
        decide (0x21#6 ≤ registers.bitCount) }

/-- The pulse that follows an acknowledgement through reset_kbd_reg. -/
def Registers.acknowledge (registers : Registers) : Registers :=
  { registers with bitCount := 0#6, dataReady := false, extended := false }

/-- One bit from the keyboard, with the enable pulse that follows its clock edge. -/
def Registers.receiveBit (kbdData : Bool) (registers : Registers) : Registers :=
  (registers.shift kbdData).enable

/-- The registers after a sequence of bits, and the scan codes beside which data_ready
has risen. -/
def Registers.receiveBits (registers : Registers) : List Bool → Registers × List Byte
  | [] => (registers, [])
  | kbdData :: rest =>
      let next := registers.receiveBit kbdData
      let after := next.receiveBits rest
      (after.1, (if next.dataReady && !registers.dataReady then [next.scanCode] else []) ++ after.2)

/-- A frame, whose data_ready is acknowledged before the next frame begins. -/
def Registers.receiveFrame (registers : Registers) (frame : List Bool) : Registers × List Byte :=
  let after := registers.receiveBits frame
  (if after.1.dataReady then after.1.acknowledge else after.1, after.2)

/-- The scan codes beside which data_ready rises, for each frame of a sequence. -/
def Registers.receive (registers : Registers) : List (List Bool) → List (List Byte)
  | [] => []
  | frame :: rest => (registers.receiveFrame frame).2 :: (registers.receiveFrame frame).1.receive rest

section Frames

/-- Odd parity. -/
def parity (code : Byte) : Bool := (List.range 8).foldl (fun odd place => odd ^^ code.getLsbD place) true

/-- Start bit, data bits from the least significant one on, and parity bit. -/
def frameBody (code : Byte) : List Bool := false :: (List.range 8).map code.getLsbD ++ [parity code]

/-- A well-formed frame ends with its stop bit. -/
def frame (code : Byte) : List Bool := frameBody code ++ [true]

/-- A key that is not extended. -/
structure Key where
  code : Byte
  notExtended : code ≠ extendedScanCode
  notPrefix : code ≠ keyUpScanCode

/-- What a key does: it is pressed or repeated, or it is released. -/
inductive KeyEvent
  | make (key : Key)
  | release (key : Key)

/-- The frames that an event sends. -/
def KeyEvent.frames : KeyEvent → List (List Bool)
  | .make key => [frame key.code]
  | .release key => [frame keyUpScanCode, frame key.code]

/-- The scan codes that should be reported at each frame of an event. -/
def KeyEvent.reports : KeyEvent → List (List Byte)
  | .make key => [[key.code]]
  | .release _ => [[], []]

/-- The event is a release. -/
def KeyEvent.isRelease : KeyEvent → Bool
  | .make _ => false
  | .release _ => true

end Frames

/-- data_ready rises once for each make frame, beside its code, and at no other frame. -/
def Decodes (start : Registers) (events : List KeyEvent) : Prop :=
  start.receive (events.flatMap KeyEvent.frames) = events.flatMap KeyEvent.reports

section Shifts

/-- A register that has been shifted holds the bits shifted in, the last one lowest, and
above them what it held before. -/
theorem getLsbD_shifted {width : Nat} (bits : List Bool) (register : BitVec width) (place : Nat)
    (inside : place < width) :
    (bits.foldl BitVec.shiftConcat register).getLsbD place =
      if bits.length ≤ place then register.getLsbD (place - bits.length)
      else bits.reverse.getD place false := by
  induction bits using List.reverseRecOn generalizing place with
  | nil => simp
  | append_singleton bits bit inductionHypothesis =>
    rw [List.foldl_append, List.foldl_cons, List.foldl_nil, BitVec.getLsbD_shiftConcat, List.reverse_append,
      List.reverse_singleton, List.singleton_append, List.length_append, List.length_singleton]
    cases place with
    | zero => simp [inside]
    | succ place =>
      rw [Nat.add_sub_cancel, inductionHypothesis place (by omega)]
      simp [inside]

/-- Once a register has been shifted through, what it held before does not matter. -/
theorem shifted_eq {width : Nat} (bits : List Bool) (enough : width ≤ bits.length)
    (register other : BitVec width) :
    bits.foldl BitVec.shiftConcat register = bits.foldl BitVec.shiftConcat other := by
  apply BitVec.eq_of_getLsbD_eq
  intro place inside
  have shiftedOut : ¬ bits.length ≤ place := by omega
  rw [getLsbD_shifted bits register place inside, getLsbD_shifted bits other place inside, if_neg shiftedOut,
    if_neg shiftedOut]

/-- The register after a well-formed frame. -/
def received (code : Byte) : BitVec 11 := (frame code).foldl BitVec.shiftConcat 0

/-- Ten bits of a frame come before its stop bit. -/
theorem frameBody_length (code : Byte) : (frameBody code).length = 10 := rfl

/-- After a frame the scan code is the code it carries. -/
theorem scanCode_received : ∀ code : Byte, ((received code).extractLsb' 2 8).reverse = code := by
  decide +kernel

/-- After a frame the lowest bit of the register is the stop bit. -/
theorem stop_received : ∀ code : Byte, (received code).getLsbD 0 = true := by
  decide +kernel

end Shifts

section Bits

/-- Data is ready at no other counts than 11, 22 and those from 33 on. -/
theorem enable_between (registers : Registers) (notOne : registers.bitCount.toNat ≠ 11)
    (notTwo : registers.bitCount.toNat ≠ 22) (below : registers.bitCount.toNat < 33) :
    registers.enable.dataReady = false := by
  have one : registers.bitCount ≠ 0xB#6 := fun same => notOne (by rw [same]; rfl)
  have two : registers.bitCount ≠ 0x16#6 := fun same => notTwo (by rw [same]; rfl)
  have three : ¬ 0x21#6 ≤ registers.bitCount := Nat.not_le.mpr below
  simp [Registers.enable, one, two, three]

/-- At a count of 11 data is ready beside a code that is no prefix. -/
theorem enable_first (registers : Registers) (count : registers.bitCount = 0xB#6) :
    registers.enable.dataReady =
      (registers.scanCode != extendedScanCode && registers.scanCode != keyUpScanCode) := by
  simp [Registers.enable, count]

/-- At a count of 22 data is not ready beside an older frame that ended with its stop bit:
the word it is compared with ends with a zero. -/
theorem enable_second (registers : Registers) (count : registers.bitCount = 0x16#6)
    (stop : registers.oldKbdReg.getLsbD 0 = true) : registers.enable.dataReady = false := by
  have apart : registers.oldKbdReg ≠ keyUpScanCode.setWidth 11 := by
    intro same
    rw [same] at stop
    exact absurd stop (by decide)
  simp [Registers.enable, count, apart]

/-- From a count of 33 on data is ready. -/
theorem enable_third (registers : Registers) (count : 33 ≤ registers.bitCount.toNat) :
    registers.enable.dataReady = true := by
  have reached : 0x21#6 ≤ registers.bitCount := count
  simp [Registers.enable, reached]

/-- Two sequences of bits are received one after the other. -/
theorem receiveBits_append (registers : Registers) (first second : List Bool) :
    registers.receiveBits (first ++ second) =
      (((registers.receiveBits first).1.receiveBits second).1,
        (registers.receiveBits first).2 ++ ((registers.receiveBits first).1.receiveBits second).2) := by
  induction first generalizing registers with
  | nil => rfl
  | cons bit first inductionHypothesis =>
    simp only [List.cons_append, Registers.receiveBits, inductionHypothesis, List.append_assoc]

/-- Inside a frame that begins with a count of 0, 11 or 22 nothing is reported. -/
theorem receiveBits_inside (registers : Registers) (bits : List Bool) (waiting : registers.dataReady = false)
    (insideFrame : registers.bitCount.toNat % 11 + bits.length < 11)
    (below : registers.bitCount.toNat + bits.length < 33) :
    (registers.receiveBits bits).2 = [] ∧
      (registers.receiveBits bits).1.dataReady = false ∧
      (registers.receiveBits bits).1.bitCount.toNat = registers.bitCount.toNat + bits.length ∧
      (registers.receiveBits bits).1.kbdReg = bits.foldl BitVec.shiftConcat registers.kbdReg := by
  induction bits generalizing registers with
  | nil => exact ⟨rfl, waiting, rfl, rfl⟩
  | cons bit bits inductionHypothesis =>
    rw [List.length_cons] at insideFrame below
    have count : (registers.receiveBit bit).bitCount.toNat = registers.bitCount.toNat + 1 := by
      simp only [Registers.receiveBit, Registers.enable, Registers.shift, BitVec.toNat_add, BitVec.toNat_ofNat]
      omega
    have silent : (registers.receiveBit bit).dataReady = false := by
      have counted : (registers.shift bit).bitCount.toNat = registers.bitCount.toNat + 1 := count
      apply enable_between <;> omega
    obtain ⟨nothing, stillWaiting, counted, shifted⟩ :=
      inductionHypothesis (registers.receiveBit bit) silent (by omega) (by omega)
    simp only [Registers.receiveBits, silent, Bool.false_and, Bool.false_eq_true, ↓reduceIte, List.nil_append]
    refine ⟨nothing, stillWaiting, ?_, shifted⟩
    rw [counted, count, List.length_cons]
    omega

/-- The registers at the end of a frame, before its last enable pulse. -/
theorem receiveBits_frame (registers : Registers) (code : Byte) (waiting : registers.dataReady = false)
    (aligned : registers.bitCount.toNat % 11 = 0) (below : registers.bitCount.toNat ≤ 22) :
    ∃ last : Registers,
      last.bitCount.toNat = registers.bitCount.toNat + 11 ∧ last.scanCode = code ∧
        last.kbdReg.getLsbD 0 = true ∧ last.oldKbdReg.getLsbD 0 = registers.kbdReg.getLsbD 0 ∧
        registers.receiveBits (frame code) =
          (last.enable, if last.enable.dataReady then [code] else []) := by
  have body := frameBody_length code
  obtain ⟨nothing, stillWaiting, counted, shifted⟩ :=
    receiveBits_inside registers (frameBody code) waiting (by omega) (by omega)
  generalize before : (registers.receiveBits (frameBody code)).1 = inside at stillWaiting counted shifted
  have word : (inside.shift true).kbdReg = received code := by
    rw [received, shifted_eq (frame code) (Nat.le_refl 11) 0 registers.kbdReg, frame, List.foldl_append,
      ← shifted]
    rfl
  have carries : (inside.shift true).scanCode = code := by
    rw [Registers.scanCode, word]
    exact scanCode_received code
  refine ⟨inside.shift true, ?_, carries, word ▸ stop_received code, ?_, ?_⟩
  · simp only [Registers.shift, BitVec.toNat_add, BitVec.toNat_ofNat]
    omega
  · simp only [Registers.shift, BitVec.getLsbD_shiftConcat]
    rw [shifted, getLsbD_shifted _ _ _ (by decide),
      if_pos (show (frameBody code).length ≤ 10 from Nat.le_refl 10), body]
    simp
  · have rising : ((inside.shift true).enable.dataReady && !inside.dataReady) =
        (inside.shift true).enable.dataReady := by
      rw [stillWaiting, Bool.not_false, Bool.and_true]
    have reported : (inside.shift true).enable.scanCode = code := carries
    rw [frame, receiveBits_append, before, nothing]
    simp only [Registers.receiveBits, Registers.receiveBit, rising, reported, List.append_nil, List.nil_append]

end Bits

section Events

/-- Nothing has been counted since the last acknowledgement. -/
structure Fresh (registers : Registers) : Prop where
  count : registers.bitCount.toNat = 0
  waiting : registers.dataReady = false

/-- The two frames of a release have been counted. -/
structure Released (registers : Registers) : Prop where
  count : registers.bitCount.toNat = 22
  waiting : registers.dataReady = false

/-- A frame at whose end data is ready is reported, and acknowledged. -/
theorem receiveFrame_ready (registers last : Registers) (code : Byte) (ready : last.enable.dataReady = true)
    (bits : registers.receiveBits (frame code) = (last.enable, if last.enable.dataReady then [code] else [])) :
    (registers.receiveFrame (frame code)).2 = [code] ∧ Fresh (registers.receiveFrame (frame code)).1 := by
  simp only [Registers.receiveFrame, bits, ready, ↓reduceIte, true_and]
  exact ⟨rfl, rfl⟩

/-- A frame at whose end data is not ready is not reported, and stays counted. -/
theorem receiveFrame_silent (registers last : Registers) (code : Byte) (silent : last.enable.dataReady = false)
    (bits : registers.receiveBits (frame code) = (last.enable, if last.enable.dataReady then [code] else [])) :
    (registers.receiveFrame (frame code)).2 = [] ∧ (registers.receiveFrame (frame code)).1 = last.enable := by
  simp only [Registers.receiveFrame, bits, silent, Bool.false_eq_true, ↓reduceIte, and_self]

/-- The first frame is reported unless it carries a prefix. -/
theorem fresh_make (registers : Registers) (fresh : Fresh registers) (key : Key) :
    (registers.receiveFrame (frame key.code)).2 = [key.code] ∧
      Fresh (registers.receiveFrame (frame key.code)).1 := by
  obtain ⟨last, counted, carries, _, _, bits⟩ :=
    receiveBits_frame registers key.code fresh.waiting (by rw [fresh.count]) (by rw [fresh.count]; decide)
  have eleven : last.bitCount = 0xB#6 := BitVec.eq_of_toNat_eq (by rw [counted, fresh.count]; rfl)
  apply receiveFrame_ready registers last key.code ?_ bits
  rw [enable_first last eleven, carries]
  simp [key.notExtended, key.notPrefix]

/-- The two frames of a release that comes first are not reported. -/
theorem fresh_release (registers : Registers) (fresh : Fresh registers) (key : Key) :
    (registers.receiveFrame (frame keyUpScanCode)).2 = [] ∧
      ((registers.receiveFrame (frame keyUpScanCode)).1.receiveFrame (frame key.code)).2 = [] ∧
      Released ((registers.receiveFrame (frame keyUpScanCode)).1.receiveFrame (frame key.code)).1 := by
  obtain ⟨middle, counted, carries, stop, _, bits⟩ :=
    receiveBits_frame registers keyUpScanCode fresh.waiting (by rw [fresh.count]) (by rw [fresh.count]; decide)
  have eleven : middle.bitCount = 0xB#6 := BitVec.eq_of_toNat_eq (by rw [counted, fresh.count]; rfl)
  have silent : middle.enable.dataReady = false := by
    rw [enable_first middle eleven, carries]
    decide
  obtain ⟨nothing, after⟩ := receiveFrame_silent registers middle keyUpScanCode silent bits
  rw [after]
  have middleCount : middle.enable.bitCount.toNat = 11 := by
    simp only [Registers.enable, eleven]
    rfl
  obtain ⟨last, lastCounted, _, _, older, lastBits⟩ :=
    receiveBits_frame middle.enable key.code silent (by rw [middleCount]) (by rw [middleCount]; decide)
  have twentyTwo : last.bitCount = 0x16#6 := BitVec.eq_of_toNat_eq (by rw [lastCounted, middleCount]; rfl)
  have lastSilent : last.enable.dataReady = false :=
    enable_second last twentyTwo (older.trans stop)
  obtain ⟨stillNothing, lastAfter⟩ := receiveFrame_silent middle.enable last key.code lastSilent lastBits
  refine ⟨nothing, stillNothing, ?_⟩
  rw [lastAfter]
  exact ⟨by rw [Registers.enable, twentyTwo]; rfl, lastSilent⟩

/-- After a release the next frame is reported, whatever it carries. -/
theorem released_any (registers : Registers) (released : Released registers) (code : Byte) :
    (registers.receiveFrame (frame code)).2 = [code] ∧ Fresh (registers.receiveFrame (frame code)).1 := by
  obtain ⟨last, counted, _, _, _, bits⟩ :=
    receiveBits_frame registers code released.waiting (by rw [released.count]) (by rw [released.count])
  apply receiveFrame_ready registers last code ?_ bits
  apply enable_third
  rw [counted, released.count]

/-- No release follows a release at once. -/
def Separated (events : List KeyEvent) : Prop :=
  events.IsChain fun first second => ¬ (first.isRelease = true ∧ second.isRelease = true)

/-- The first event is not a release. -/
def BeginsPressed (events : List KeyEvent) : Prop := ∀ first ∈ events.head?, first.isRelease = false

/-- A release in front separates from what follows exactly if that begins otherwise. -/
theorem separated_release (key : Key) (events : List KeyEvent) :
    Separated (.release key :: events) ↔ BeginsPressed events ∧ Separated events := by
  cases events with
  | nil => simp [Separated, BeginsPressed]
  | cons first rest => cases first <;> simp [Separated, BeginsPressed, KeyEvent.isRelease]

/-- A press or a repeat in front separates from anything. -/
theorem separated_make (key : Key) (events : List KeyEvent) :
    Separated (.make key :: events) ↔ Separated events := by
  cases events with
  | nil => simp [Separated]
  | cons first rest => simp [Separated, KeyEvent.isRelease]

/-- The circuit decodes from a fresh state exactly the separated sequences, and after a
release those of them that do not begin with another one. -/
theorem decodes_iff (events : List KeyEvent) :
    (∀ registers, Fresh registers → (Decodes registers events ↔ Separated events)) ∧
      ∀ registers, Released registers →
        (Decodes registers events ↔ BeginsPressed events ∧ Separated events) := by
  induction events with
  | nil => simp [Decodes, Registers.receive, Separated, BeginsPressed]
  | cons event events inductionHypothesis =>
    obtain ⟨fromFresh, fromReleased⟩ := inductionHypothesis
    cases event with
    | make key =>
      have decodes : ∀ registers, (registers.receiveFrame (frame key.code)).2 = [key.code] →
          Fresh (registers.receiveFrame (frame key.code)).1 →
            (Decodes registers (.make key :: events) ↔ Separated events) := by
        intro registers reported fresh
        rw [← fromFresh _ fresh]
        simp [Decodes, KeyEvent.frames, KeyEvent.reports, Registers.receive, reported]
      constructor
      · intro registers fresh
        obtain ⟨reported, after⟩ := fresh_make registers fresh key
        rw [decodes registers reported after, separated_make]
      · intro registers released
        obtain ⟨reported, after⟩ := released_any registers released key.code
        rw [decodes registers reported after, separated_make]
        simp [BeginsPressed, KeyEvent.isRelease]
    | release key =>
      constructor
      · intro registers fresh
        obtain ⟨nothing, stillNothing, released⟩ := fresh_release registers fresh key
        rw [separated_release, ← fromReleased _ released]
        simp [Decodes, KeyEvent.frames, KeyEvent.reports, Registers.receive, nothing, stillNothing]
      · intro registers released
        obtain ⟨reported, _⟩ := released_any registers released keyUpScanCode
        simp [Decodes, KeyEvent.frames, KeyEvent.reports, Registers.receive, reported, BeginsPressed,
          KeyEvent.isRelease]

end Events

/-- Started with nothing counted, the circuit reports each make code and nothing else
exactly when no two keys are released one after the other. -/
theorem make_codes_reported_iff (start : Registers) (counted : start.bitCount = 0#6)
    (waiting : start.dataReady = false) (events : List KeyEvent) :
    Decodes start events ↔ Separated events :=
  (decodes_iff events).1 start ⟨by rw [counted]; rfl, waiting⟩

/-- Kbd_ctrl with all registers zero. -/
def zeroed : Registers := { kbdReg := 0, oldKbdReg := 0, bitCount := 0, dataReady := false, extended := false }

/-- The keys A and B. -/
def keyA : Key := { code := 0x1C#8, notExtended := by decide, notPrefix := by decide }

def keyB : Key := { code := 0x32#8, notExtended := by decide, notPrefix := by decide }

/-- A key pressed and released once. -/
theorem make_codes_reported_keyA :
    Decodes zeroed [.make keyA, .release keyA] ↔ Separated [.make keyA, .release keyA] :=
  make_codes_reported_iff zeroed rfl rfl [.make keyA, .release keyA]

/-- Two keys held down together and released one after the other: data_ready rises for
the second release. -/
theorem overlapping_misreported :
    ¬ Decodes zeroed [.make keyA, .make keyB, .release keyA, .release keyB] := by
  unfold Decodes
  decide +kernel

end CpenLabs.KbdCtrl
