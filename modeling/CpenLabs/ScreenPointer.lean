import CpenLabs.Clocked
import Mathlib.Algebra.BigOperators.Intervals

/-!
# The pointer on the screen

`Cursor` of Lab 5 moves a pointer while an arrow key is held and draws it from one of two
bitmaps. A counter of 21 bits that runs while any of the keys is held lets the pointer
move in the first cycle of a press and then every 2^21 cycles. It is cleared only when no
key is held, so changing from one key to another does not start a new press.

The position has ten bits and wraps around; nothing keeps it on the screen. The address
for the bitmaps and their colours go through registers that the comparison with the
position does not go through.

A step is one edge of `iCLK`. The bitmaps are functions here, of which nothing is assumed,
and the registers hold anything at first.
-/

namespace CpenLabs.ScreenPointer

open Clocked

/-- The keys, the pixel that is scanned, the reset, and the two choices. -/
structure Input where
  iLeft : Bool
  iUp : Bool
  iDown : Bool
  iRight : Bool
  iVgaX : BitVec 11
  iVgaY : BitVec 11
  iRst : Bool
  slow : Bool
  iChangeC : Bool

/-- The registers of `Cursor`. -/
structure Cursor where
  curX : BitVec 10
  curY : BitVec 10
  arrow : Bool
  debounce : BitVec 21
  posOfCursor : BitVec 20
  rgbC1Sync : BitVec 12
  rgbC2Sync : BitVec 12
  oRgb : BitVec 12

/-- The columns of a step. -/
def Input.speedX (input : Input) : BitVec 4 := if input.slow then 1 else 0xF

/-- The rows of a step. -/
def Input.speedY (input : Input) : BitVec 4 := if input.slow then 1 else 0xC

/-- The place of the pixel in the bitmap. -/
def Cursor.place (input : Input) (cursor : Cursor) : BitVec 20 :=
  (input.iVgaY.setWidth 10 - cursor.curY) ++ (input.iVgaX.setWidth 10 - cursor.curX)

/-- The pixel is inside the bitmap. The sums are taken at the width of the literals. -/
def Cursor.inside (input : Input) (cursor : Cursor) : Bool :=
  (cursor.curX.toNat < input.iVgaX.toNat ∧ input.iVgaX.toNat < cursor.curX.toNat + 28) ∧
    (cursor.curY.toNat < input.iVgaY.toNat ∧ input.iVgaY.toNat < cursor.curY.toNat + 36)

/-- The four branches for the keys, of which the first counts. -/
def Cursor.move (input : Input) (cursor : Cursor) : Cursor :=
  if input.iLeft then
    { cursor with
      curX := if cursor.debounce = 0 then cursor.curX - input.speedX.setWidth 10 else cursor.curX
      debounce := cursor.debounce + 1 }
  else if input.iRight then
    { cursor with
      curX := if cursor.debounce = 0 then cursor.curX + input.speedX.setWidth 10 else cursor.curX
      debounce := cursor.debounce + 1 }
  else if input.iUp then
    { cursor with
      curY := if cursor.debounce = 0 then cursor.curY - input.speedY.setWidth 10 else cursor.curY
      debounce := cursor.debounce + 1 }
  else if input.iDown then
    { cursor with
      curY := if cursor.debounce = 0 then cursor.curY + input.speedY.setWidth 10 else cursor.curY
      debounce := cursor.debounce + 1 }
  else { cursor with debounce := 0 }

/-- The last of the three blocks, with the position. -/
def Cursor.point (input : Input) (cursor : Cursor) : Cursor :=
  if input.iRst then { cursor with curX := 400, curY := 300, arrow := false, debounce := 0 }
  else { cursor.move input with arrow := cursor.inside input }

variable (cursor1 cursor2 : BitVec 20 → BitVec 12)

/-- An edge of the clock. -/
def Cursor.step (input : Input) (cursor : Cursor) : Cursor :=
  { cursor.point input with
    posOfCursor := cursor.place input
    rgbC1Sync := cursor1 cursor.posOfCursor
    rgbC2Sync := cursor2 cursor.posOfCursor
    oRgb := if input.iChangeC then cursor.rgbC2Sync else cursor.rgbC1Sync }

/-- A key is held, and no reset. -/
def Input.held (input : Input) : Bool :=
  !input.iRst && (input.iLeft || input.iRight || input.iUp || input.iDown)

/-- How far a step goes to the right. -/
def Input.right (input : Input) : Int :=
  if input.iLeft then -input.speedX.toNat else if input.iRight then input.speedX.toNat else 0

/-- How far a step goes down. -/
def Input.down (input : Input) : Int :=
  if input.iLeft || input.iRight then 0
  else if input.iUp then -input.speedY.toNat
  else if input.iDown then input.speedY.toNat
  else 0

/-- Without a key and a reset there is no way to go. -/
theorem Input.still {input : Input} (unreset : input.iRst = false) (unheld : ¬ input.held = true) :
    input.right = 0 ∧ input.down = 0 := by
  rw [Input.held, unreset] at unheld
  simp only [Bool.not_false, Bool.true_and, Bool.or_eq_true, not_or, Bool.not_eq_true] at unheld
  obtain ⟨⟨⟨left, right⟩, up⟩, down⟩ := unheld
  rw [Input.right, Input.down, left, right, up, down]
  exact ⟨rfl, rfl⟩

/-- A step goes to a side if the counter is at zero. -/
theorem Cursor.move_curX (input : Input) (cursor : Cursor) :
    (cursor.move input).curX =
      cursor.curX + BitVec.ofInt 10 (if cursor.debounce = 0 then input.right else 0) := by
  rw [Cursor.move, Input.right, ← BitVec.ofNat_toNat, ← BitVec.ofInt_natCast]
  split_ifs <;> simp [BitVec.ofInt_neg, BitVec.sub_eq_add_neg]

/-- So does one up or down. -/
theorem Cursor.move_curY (input : Input) (cursor : Cursor) :
    (cursor.move input).curY =
      cursor.curY + BitVec.ofInt 10 (if cursor.debounce = 0 then input.down else 0) := by
  rw [Cursor.move, Input.down, ← BitVec.ofNat_toNat, ← BitVec.ofInt_natCast]
  split_ifs <;> simp_all [BitVec.ofInt_neg, BitVec.sub_eq_add_neg]

/-- The position after an edge. -/
theorem Cursor.point_position {input : Input} (unreset : input.iRst = false) (cursor : Cursor) :
    (cursor.point input).curX =
        cursor.curX + BitVec.ofInt 10 (if cursor.debounce = 0 then input.right else 0) ∧
      (cursor.point input).curY =
        cursor.curY + BitVec.ofInt 10 (if cursor.debounce = 0 then input.down else 0) := by
  rw [Cursor.point, unreset, if_neg Bool.false_ne_true]
  exact ⟨cursor.move_curX input, cursor.move_curY input⟩

/-- The counter after an edge. -/
theorem Cursor.point_debounce (input : Input) (cursor : Cursor) :
    (cursor.point input).debounce = if input.held then cursor.debounce + 1 else 0 := by
  rw [Cursor.point, Cursor.move, Input.held]
  cases input.iRst <;> cases input.iLeft <;> cases input.iRight <;> cases input.iUp <;>
    cases input.iDown <;> rfl

section Wrapping

variable {width : Nat} (value : Nat → BitVec width) (moved : Nat → Int) {first last : Nat}

/-- A register that moves in every cycle has moved by the sum, however often it has
wrapped around. -/
theorem moved_sum (ordered : first ≤ last)
    (moves : ∀ cycle, first ≤ cycle → cycle < last →
      value (cycle + 1) = value cycle + BitVec.ofInt width (moved cycle)) :
    value last =
      value first + BitVec.ofInt width (∑ cycle ∈ Finset.Ico first last, moved cycle) := by
  induction last, ordered using Nat.le_induction with
  | base => simp
  | succ last ordered inductionHypothesis =>
    have before := inductionHypothesis fun cycle low high => moves cycle low (Nat.lt_succ_of_lt high)
    rw [moves last ordered (Nat.lt_succ_self last), before, Finset.sum_Ico_succ_top ordered,
      BitVec.ofInt_add, BitVec.add_assoc]

end Wrapping

variable (inputs : Nat → Input) (start : Cursor)

/-- The registers in each cycle. -/
abbrev pointer : Nat → Cursor := run (Cursor.step cursor1 cursor2) inputs start

/-- For how many cycles up to this one a key has been held. -/
def heldFor : Nat → Nat
  | 0 => 0
  | cycle + 1 => if (inputs cycle).held then heldFor cycle + 1 else 0

/-- The pointer takes a step: with the first cycle of a press and then every 2^21 cycles. -/
def Moves (cycle : Nat) : Prop := (inputs cycle).held = true ∧ 2 ^ 21 ∣ heldFor inputs cycle

instance (cycle : Nat) : Decidable (Moves inputs cycle) := inferInstanceAs (Decidable (_ ∧ _))

/-- A press of any length, with any changes from one key to another, takes one step for
each 2^21 cycles that it has begun. -/
theorem steps_of_press {first : Nat} (before : heldFor inputs first = 0) (length : Nat)
    (held : ∀ cycle, first ≤ cycle → cycle < first + length → (inputs cycle).held = true) :
    heldFor inputs (first + length) = length ∧
      occurrences (Moves inputs) first (first + length) = (length + (2 ^ 21 - 1)) / 2 ^ 21 := by
  induction length with
  | zero => exact ⟨before, occurrences_self _ _⟩
  | succ length inductionHypothesis =>
    have now := held (first + length) (Nat.le_add_right _ _) (Nat.lt_succ_self _)
    obtain ⟨since, steps⟩ := inductionHypothesis fun cycle low high =>
      held cycle low (Nat.lt_succ_of_lt high)
    rw [← Nat.add_assoc, heldFor, if_pos now, since, occurrences_succ _ _ _ (Nat.le_add_right _ _),
      steps]
    refine ⟨rfl, ?_⟩
    by_cases beat : 2 ^ 21 ∣ length
    · rw [if_pos ⟨now, since.symm ▸ beat⟩]
      omega
    · rw [if_neg fun moves => beat (since ▸ moves.2)]
      omega

variable {inputs start} {first last cycle : Nat}

/-- After a reset the counter has counted the cycles of the press. -/
theorem debounce_eq (reset : (inputs first).iRst = true) (later : first < last) :
    (pointer cursor1 cursor2 inputs start last).debounce =
      BitVec.ofNat 21 (heldFor inputs last) := by
  have step (cycle : Nat) : (pointer cursor1 cursor2 inputs start (cycle + 1)).debounce =
      if (inputs cycle).held then (pointer cursor1 cursor2 inputs start cycle).debounce + 1
        else 0 :=
    Cursor.point_debounce _ _
  induction last, later using Nat.le_induction with
  | base =>
    have released : (inputs first).held = false := by rw [Input.held, reset]; rfl
    rw [step, heldFor, released]
    rfl
  | succ last later inductionHypothesis =>
    rw [step, heldFor, inductionHypothesis]
    split_ifs
    · rw [BitVec.ofNat_add]
      rfl
    · rfl

/-- Without a reset the position moves when the counter is at zero. -/
theorem position_succ (reset : (inputs first).iRst = true) (later : first < cycle)
    (unreset : (inputs cycle).iRst = false) :
    (pointer cursor1 cursor2 inputs start (cycle + 1)).curX =
        (pointer cursor1 cursor2 inputs start cycle).curX +
          BitVec.ofInt 10 (if Moves inputs cycle then (inputs cycle).right else 0) ∧
      (pointer cursor1 cursor2 inputs start (cycle + 1)).curY =
        (pointer cursor1 cursor2 inputs start cycle).curY +
          BitVec.ofInt 10 (if Moves inputs cycle then (inputs cycle).down else 0) := by
  have beat : (pointer cursor1 cursor2 inputs start cycle).debounce = 0 ↔
      2 ^ 21 ∣ heldFor inputs cycle := by
    rw [debounce_eq cursor1 cursor2 reset later, Nat.dvd_iff_mod_eq_zero, BitVec.toNat_eq,
      BitVec.toNat_ofNat]
    rfl
  have taken (way : Int) (still : ¬ (inputs cycle).held = true → way = 0) :
      (if (pointer cursor1 cursor2 inputs start cycle).debounce = 0 then way else 0) =
        if Moves inputs cycle then way else 0 := by
    by_cases held : (inputs cycle).held = true
    · exact if_congr (beat.trans (and_iff_right held).symm) rfl rfl
    · rw [still held, ite_self, ite_self]
  have position := Cursor.point_position unreset (pointer cursor1 cursor2 inputs start cycle)
  rw [taken _ fun unheld => (Input.still unreset unheld).1,
    taken _ fun unheld => (Input.still unreset unheld).2] at position
  exact position

/-- For all inputs after a reset and up to the next one: the position is what the steps
have added up to, wrapped around at 1024; and a press of any length, whichever keys it
consists of, takes one step for each 2^21 cycles that it has begun. -/
theorem pointer_follows (reset : (inputs first).iRst = true) (later : first < last)
    (unreset : ∀ cycle, first < cycle → cycle < last → (inputs cycle).iRst = false) :
    (pointer cursor1 cursor2 inputs start last).curX = BitVec.ofInt 10
        (400 + ∑ cycle ∈ Finset.Ico (first + 1) last,
          if Moves inputs cycle then (inputs cycle).right else 0) ∧
      (pointer cursor1 cursor2 inputs start last).curY = BitVec.ofInt 10
        (300 + ∑ cycle ∈ Finset.Ico (first + 1) last,
          if Moves inputs cycle then (inputs cycle).down else 0) ∧
      ∀ before length, (inputs before).held = false →
        (∀ cycle, before < cycle → cycle ≤ before + length → (inputs cycle).held = true) →
        occurrences (Moves inputs) (before + 1) (before + 1 + length) =
          (length + (2 ^ 21 - 1)) / 2 ^ 21 := by
  have origin : (pointer cursor1 cursor2 inputs start (first + 1)).curX = 400 ∧
      (pointer cursor1 cursor2 inputs start (first + 1)).curY = 300 := by
    change (Cursor.point _ _).curX = 400 ∧ (Cursor.point _ _).curY = 300
    rw [Cursor.point, if_pos reset]
    exact ⟨rfl, rfl⟩
  have moves (cycle : Nat) (low : first + 1 ≤ cycle) (high : cycle < last) :=
    @position_succ cursor1 cursor2 inputs start first cycle reset low (unreset cycle low high)
  refine ⟨?_, ?_, fun before length released held => ?_⟩
  · rw [moved_sum (fun cycle => (pointer cursor1 cursor2 inputs start cycle).curX) _ later
      fun cycle low high => (moves cycle low high).1, origin.1, BitVec.ofInt_add]
    rfl
  · rw [moved_sum (fun cycle => (pointer cursor1 cursor2 inputs start cycle).curY) _ later
      fun cycle low high => (moves cycle low high).2, origin.2, BitVec.ofInt_add]
    rfl
  · have none : heldFor inputs (before + 1) = 0 := by
      rw [heldFor, released]
      rfl
    exact (steps_of_press inputs none length fun cycle low high => held cycle low (by omega)).2

/-- A reset, and then the left key. -/
def leftHeld (cycle : Nat) : Input :=
  { iLeft := cycle != 0, iUp := false, iDown := false, iRight := false, iVgaX := 0, iVgaY := 0
    iRst := cycle == 0, slow := false, iChangeC := false }

/-- The pointer takes one step of fifteen with the press, and none in the next cycle. -/
theorem pointer_follows_left :
    (pointer (fun _ => 0) (fun _ => 0) leftHeld ⟨0, 0, false, 7, 0, 0, 0, 0⟩ 3).curX = 385 := by
  have follows := (@pointer_follows (fun _ => 0) (fun _ => 0) leftHeld ⟨0, 0, false, 7, 0, 0, 0, 0⟩
    0 3 rfl (by decide) fun cycle low _ => beq_false_of_ne (Nat.ne_of_gt low)).1
  rw [follows]
  decide

section Picture

end Picture

end CpenLabs.ScreenPointer
