import CpenLabs.ScreenPointer
import CpenLabs.SongStream

/-!
# The control panel

task2 looks at the mouse every 100 milliseconds. While the space key is held, the buttons
under the pointer are pressed: those of the modulations and of the signals are drawn
anew and write a selector register, those of the player draw their pictures and set the
flags that task1 reads, or change the sample frequency.

What is drawn, what the registers hold and what the flags say are three copies of one
state. They agree for the two rows of buttons. The pictures of the player show less than
the flags: the buttons for the frequency draw the others as not pressed and leave the
flags as they are.

mouse_pos compares the key with its last value, but reports a press for a held key as
well, so that a button under a held key is pressed in every iteration.
-/

namespace CpenLabs.ControlPanel

open Clocked AudioFifo SongStream

/-- The buttons of the modulations, in the order of the tests. -/
inductive ModulationButton
  | ask
  | fsk
  | bpsk
  | lfsr
  | qpsk
deriving DecidableEq

/-- The buttons of the signals. -/
inductive SignalButton
  | sine
  | cos
  | saw
  | square
deriving DecidableEq

/-- The buttons of the player. -/
inductive PlayerButton
  | play
  | stop
  | pause
  | back
  | ford
deriving DecidableEq

/-- The argument of `select_modulation`. -/
def ModulationButton.code : ModulationButton → Byte
  | .ask => 0
  | .fsk => 1
  | .bpsk => 2
  | .lfsr => 3
  | .qpsk => 4

/-- The argument of `select_signal`. -/
def SignalButton.code : SignalButton → Byte
  | .sine => 0
  | .cos => 1
  | .saw => 2
  | .square => 3

/-- The pointer is inside a box or on its border. -/
def within (left top width height x y : Nat) : Bool :=
  decide (left ≤ x ∧ x ≤ left + width) && decide (top ≤ y ∧ y ≤ top + height)

/-- The modulation under the pointer. The box of LFSR has another height in the source. -/
def modulationAt (x y : Nat) : Option ModulationButton :=
  if within 667 252 120 35 x y then some .ask
  else if within 667 289 120 35 x y then some .fsk
  else if within 667 326 120 35 x y then some .bpsk
  else if decide (667 ≤ x ∧ x ≤ 667 + 120) && decide (363 ≤ y ∧ y ≤ 365 + 35) then some .lfsr
  else if within 667 215 120 35 x y then some .qpsk
  else none

/-- The button of LFSR also answers to the two lines below what is drawn of it. -/
theorem lfsr_below {x y : Nat} (inside : 667 ≤ x ∧ x ≤ 787) (below : 398 < y ∧ y ≤ 400) :
    modulationAt x y = some .lfsr ∧ within 667 363 120 35 x y = false := by
  have missed (top : Nat) (above : top ≤ 363) : within 667 top 120 35 x y = false := by
    rw [within, Bool.and_eq_false_iff, decide_eq_false_iff_not, decide_eq_false_iff_not]
    omega
  refine ⟨?_, missed 363 (Nat.le_refl _)⟩
  rw [modulationAt, missed 252 (by decide), missed 289 (by decide), missed 326 (by decide),
    decide_eq_true (by omega), decide_eq_true (by omega)]
  rfl

/-- The signal under the pointer. -/
def signalAt (x y : Nat) : Option SignalButton :=
  if within 667 428 120 35 x y then some .sine
  else if within 667 470 120 35 x y then some .cos
  else if within 667 512 120 35 x y then some .saw
  else if within 667 554 120 35 x y then some .square
  else none

/-- The player's button under the pointer. The boxes have the sizes of the pictures. -/
def playerAt (x y : Nat) : Option PlayerButton :=
  if within 296 45 94 109 x y then some .play
  else if within 404 45 98 111 x y then some .stop
  else if within 523 45 108 112 x y then some .pause
  else if within 333 177 61 57 x y then some .back
  else if within 512 177 61 57 x y then some .ford
  else none

/-- The two registers that an iteration reads. -/
structure Input where
  mousePos : BitVec 32
  keyboardKeys : BitVec 32

/-- The column of the pointer, as the task computes it. -/
def Input.xMouse (input : Input) : Nat := (input.mousePos >>> 10 &&& 0x3ff).toNat

/-- The row of the pointer. -/
def Input.yMouse (input : Input) : Nat := (input.mousePos &&& 0x3ff).toNat

/-- The register `mouse_pos` of the system shows the position of the pointer. -/
def mousePosOf (cursor : ScreenPointer.Cursor) : BitVec 32 := 0#12 ++ cursor.curX ++ cursor.curY

/-- So the coordinates that the task computes are those of the pointer. -/
theorem mouse_position (cursor : ScreenPointer.Cursor) (keyboardKeys : BitVec 32) :
    (Input.mk (mousePosOf cursor) keyboardKeys).xMouse = cursor.curX.toNat ∧
      (Input.mk (mousePosOf cursor) keyboardKeys).yMouse = cursor.curY.toNat := by
  have inside := cursor.curX.isLt
  have inside' := cursor.curY.isLt
  have mask (position : BitVec 32) : (position &&& 0x3ff).toNat = position.toNat % 2 ^ 10 := by
    rw [BitVec.toNat_and]
    exact Nat.and_two_pow_sub_one_eq_mod position.toNat 10
  have shown : (mousePosOf cursor).toNat = cursor.curX.toNat * 2 ^ 10 + cursor.curY.toNat := by
    have below := Nat.shiftLeft_add_eq_or_of_lt inside' cursor.curX.toNat
    rw [mousePosOf, BitVec.toNat_append, BitVec.toNat_append, BitVec.toNat_zero, Nat.zero_shiftLeft,
      Nat.zero_or, ← below, Nat.shiftLeft_eq]
  rw [Input.xMouse, Input.yMouse, mask, mask, BitVec.toNat_ushiftRight, shown,
    Nat.shiftRight_eq_div_pow]
  omega

/-- The space key is held. -/
def Input.spaceKey (input : Input) : Bool := input.keyboardKeys.getLsbD 4

/-- The variables of the tasks, the registers they write and what is drawn. -/
structure Panel where
  space : Bool
  modulationSelector : Byte
  signalSelector : Byte
  modulationDrawn : ModulationButton → Bool
  signalDrawn : SignalButton → Bool
  playerDrawn : PlayerButton → Bool
  flags : Flags
  freqReader : Int
  dataFregen : Int

/-- The step between two sample rates, which is also the lowest. -/
def freqReaderIncrement : Int := 100

/-- The sample rate at first. -/
def freqReaderNominal : Int := 44000

/-- The highest one. -/
def freqReaderMax : Int := 2 * freqReaderNominal

/-- What `set_audio_frequency_audio_controller` writes. -/
def divData (freq : Int) : Int := (50000000 : Int).tdiv (2 * freq) - 1

/-- `set_audio_frequency`, which the two buttons for the frequency call. -/
def Panel.setAudioFrequency (panel : Panel) (freq : Int) : Panel :=
  { panel with freqReader := freq, dataFregen := divData freq }

/-- The static variable `space` after a call of `mouse_pos`. -/
def Panel.spaceNext (input : Input) (panel : Panel) : Bool :=
  if panel.space != input.spaceKey then input.spaceKey else panel.space

/-- The event that `mouse_pos` returns: 1 for down, 2 for up. -/
def Panel.event (input : Input) (panel : Panel) : Nat :=
  if (!panel.space && panel.spaceNext input) || input.spaceKey then 1
  else if panel.space && !panel.spaceNext input then 2
  else 0

/-- The branch for a button of the modulations. -/
def Panel.selectModulation (panel : Panel) (button : ModulationButton) : Panel :=
  { panel with
    modulationDrawn := fun other => decide (other = button)
    modulationSelector := button.code }

/-- The branch for a button of the signals. -/
def Panel.selectSignal (panel : Panel) (button : SignalButton) : Panel :=
  { panel with
    signalDrawn := fun other => decide (other = button)
    signalSelector := button.code }

/-- The branches for the player's buttons. -/
def Panel.pressPlayer (panel : Panel) (button : PlayerButton) : Panel :=
  let panel := { panel with playerDrawn := fun other => decide (other = button) }
  match button with
  | .play => { panel with flags := { playSong := 1, pauseSong := 0, stopSong := 0 } }
  | .stop => { panel with flags := { playSong := 0, pauseSong := 0, stopSong := 1 } }
  | .pause => { panel with flags := { playSong := 0, pauseSong := 1, stopSong := 0 } }
  | .back =>
    let lower := panel.freqReader - freqReaderIncrement
    panel.setAudioFrequency (if lower < freqReaderIncrement then freqReaderIncrement else lower)
  | .ford =>
    let higher := panel.freqReader + freqReaderIncrement
    panel.setAudioFrequency (if higher > freqReaderMax then freqReaderMax else higher)

/-- One iteration of the loop of `task2`. -/
def Panel.iterate (input : Input) (panel : Panel) : Panel :=
  let seen := { panel with space := panel.spaceNext input }
  if panel.event input = 1 then
    let modulated := (modulationAt input.xMouse input.yMouse).elim seen seen.selectModulation
    let selected :=
      (signalAt input.xMouse input.yMouse).elim modulated modulated.selectSignal
    (playerAt input.xMouse input.yMouse).elim selected selected.pressPlayer
  else seen

/-- What `main`, `init_background` and the first statement of task1 leave, which has the
higher priority. -/
def initial : Panel where
  space := false
  modulationSelector := 0
  signalSelector := 3
  modulationDrawn button := decide (button = .ask)
  signalDrawn button := decide (button = .square)
  playerDrawn _ := false
  flags := { playSong := 0, pauseSong := 0, stopSong := 0 }
  freqReader := freqReaderNominal
  dataFregen := divData freqReaderNominal

/-- The panel after each iteration. -/
def task2 (inputs : Nat → Input) (iterations : Nat) : Panel :=
  run Panel.iterate inputs initial iterations

/-- A down event is a held key, whatever the key was before. -/
theorem Panel.event_iff (input : Input) (panel : Panel) :
    panel.event input = 1 ↔ input.spaceKey = true := by
  rw [Panel.event, Panel.spaceNext]
  cases panel.space <;> cases input.spaceKey <;> decide

/-- Every property of the panel that the buttons keep is kept by an iteration. -/
theorem Panel.iterate_induction {good : Panel → Prop} (input : Input) (panel : Panel)
    (seen : good { panel with space := panel.spaceNext input })
    (modulated : ∀ button panel, good panel → good (panel.selectModulation button))
    (selected : ∀ button panel, good panel → good (panel.selectSignal button))
    (pressed : ∀ button panel, good panel → good (panel.pressPlayer button)) :
    good (panel.iterate input) := by
  have chosen {α : Type} (press : Panel → α → Panel) (button : Option α)
      (kept : ∀ button panel, good panel → good (press panel button)) (panel : Panel)
      (holds : good panel) : good (button.elim panel (press panel)) := by
    cases button with
    | none => exact holds
    | some button => exact kept button panel holds
  rw [Panel.iterate]
  split_ifs
  · exact chosen _ _ pressed _ (chosen _ _ selected _ (chosen _ _ modulated _ seen))
  · exact seen

/-- The drawn buttons, the registers and the flags belong together. -/
structure Panel.Consistent (panel : Panel) : Prop where
  modulation : ∃ button, panel.modulationSelector = button.code ∧
    panel.modulationDrawn = fun other => decide (other = button)
  signal : ∃ button, panel.signalSelector = button.code ∧
    panel.signalDrawn = fun other => decide (other = button)
  flags : panel.flags ∈ [Flags.mk 0 0 0, Flags.mk 1 0 0, Flags.mk 0 1 0, Flags.mk 0 0 1]
  player : (panel.playerDrawn .play = true → panel.flags.playSong = 1) ∧
    (panel.playerDrawn .stop = true → panel.flags.stopSong = 1) ∧
    (panel.playerDrawn .pause = true → panel.flags.pauseSong = 1)
  frequency : freqReaderIncrement ∣ panel.freqReader ∧ freqReaderIncrement ≤ panel.freqReader ∧
    panel.freqReader ≤ freqReaderMax
  divider : panel.dataFregen = divData panel.freqReader

/-- They do so at first. -/
theorem initial_consistent : initial.Consistent where
  modulation := ⟨.ask, rfl, rfl⟩
  signal := ⟨.square, rfl, rfl⟩
  flags := List.mem_cons_self
  player := ⟨nofun, nofun, nofun⟩
  frequency := by decide
  divider := rfl

/-- A press on the player keeps it so. -/
theorem Panel.Consistent.pressPlayer {panel : Panel} (consistent : panel.Consistent)
    (button : PlayerButton) : (panel.pressPlayer button).Consistent := by
  have frequency := consistent.frequency
  cases button with
  | play | stop | pause =>
    exact
      { consistent with
        flags := by simp [Panel.pressPlayer]
        player := by simp [Panel.pressPlayer] }
  | back | ford =>
    exact
      { consistent with
        player := by simp [Panel.pressPlayer, Panel.setAudioFrequency]
        frequency := by
          dsimp only [Panel.pressPlayer, Panel.setAudioFrequency, freqReaderIncrement, freqReaderMax,
            freqReaderNominal] at *
          split_ifs <;> omega
        divider := rfl }

/-- Every iteration keeps it so. -/
theorem Panel.Consistent.iterate {panel : Panel} (consistent : panel.Consistent) (input : Input) :
    (panel.iterate input).Consistent := by
  apply Panel.iterate_induction
  · exact { consistent with }
  · exact fun button panel consistent => { consistent with modulation := ⟨button, rfl, rfl⟩ }
  · exact fun button panel consistent => { consistent with signal := ⟨button, rfl, rfl⟩ }
  · exact fun button panel consistent => consistent.pressPlayer button

/-- In every run, whatever the pointer and the keys do: exactly one modulation and one
signal are drawn as chosen, and the registers hold their numbers; at most one flag is
set, and a picture that is drawn as pressed belongs to a flag that is set; and the sample
frequency is a multiple of 100 between 100 and 88000, for which the divider is set. -/
theorem panel_consistent (inputs : Nat → Input) (iterations : Nat) :
    (task2 inputs iterations).Consistent :=
  run_invariant Panel.iterate inputs initial Panel.Consistent initial_consistent
    (fun input _ consistent => consistent.iterate input) iterations

/-- A press on the player comes after those on the two rows, which do not reach the
player. -/
theorem Panel.iterate_player {input : Input} (panel : Panel) {button : PlayerButton}
    (held : input.spaceKey = true) (under : playerAt input.xMouse input.yMouse = some button) :
    ∃ between : Panel, panel.iterate input = between.pressPlayer button ∧
      between.flags = panel.flags ∧ between.freqReader = panel.freqReader := by
  rw [Panel.iterate, if_pos ((panel.event_iff input).mpr held), under]
  refine ⟨_, rfl, ?_⟩
  cases modulationAt input.xMouse input.yMouse <;> cases signalAt input.xMouse input.yMouse <;>
    exact ⟨rfl, rfl⟩

/-- The two buttons for the frequency, which has an end on either side. -/
theorem Panel.press_frequency (panel : Panel) {button : PlayerButton}
    (either : button = .back ∨ button = .ford) :
    (panel.pressPlayer button).freqReader =
        (if button = .back then max freqReaderIncrement (panel.freqReader - freqReaderIncrement)
        else min freqReaderMax (panel.freqReader + freqReaderIncrement)) ∧
      (panel.pressPlayer button).flags = panel.flags ∧
      ∀ other, (panel.pressPlayer button).playerDrawn other = decide (other = button) := by
  obtain rfl | rfl := either
  · refine ⟨?_, rfl, fun _ => rfl⟩
    rw [if_pos rfl]
    dsimp only [Panel.pressPlayer, Panel.setAudioFrequency]
    split_ifs <;> omega
  · refine ⟨?_, rfl, fun _ => rfl⟩
    rw [if_neg nofun]
    dsimp only [Panel.pressPlayer, Panel.setAudioFrequency]
    split_ifs <;> omega

variable {inputs : Nat → Input} {first length : Nat}

/-- One iteration more. -/
theorem task2_succ (inputs : Nat → Input) (iterations : Nat) :
    task2 inputs (iterations + 1) = (task2 inputs iterations).iterate (inputs iterations) := rfl

/-- While the key is held over a button for the frequency, each iteration is a press: the
frequency runs to its end in steps of 100. The flags stay, but no button of the player is
drawn as pressed any more. -/
theorem frequency_repeats {button : PlayerButton} (either : button = .back ∨ button = .ford)
    (held : ∀ iteration, first ≤ iteration → iteration ≤ first + length →
      (inputs iteration).spaceKey = true ∧
        playerAt (inputs iteration).xMouse (inputs iteration).yMouse = some button) :
    (task2 inputs (first + length + 1)).freqReader =
        (if button = .back then
          max freqReaderIncrement
            ((task2 inputs first).freqReader - (length + 1) * freqReaderIncrement)
        else
          min freqReaderMax
            ((task2 inputs first).freqReader + (length + 1) * freqReaderIncrement)) ∧
      (task2 inputs (first + length + 1)).flags = (task2 inputs first).flags ∧
      ∀ other, (task2 inputs (first + length + 1)).playerDrawn other = decide (other = button) := by
  induction length with
  | zero =>
    obtain ⟨space, under⟩ := held first (Nat.le_refl _) (Nat.le_refl _)
    obtain ⟨between, pressed, flags, frequency⟩ := (task2 inputs first).iterate_player space under
    obtain ⟨next, kept, drawn⟩ := between.press_frequency either
    rw [Nat.add_zero, task2_succ, pressed]
    refine ⟨?_, kept.trans flags, drawn⟩
    rw [next, frequency, Int.natCast_zero, Int.zero_add, Int.one_mul]
  | succ length inductionHypothesis =>
    obtain ⟨before, flags', -⟩ := inductionHypothesis fun iteration low high =>
      held iteration low (Nat.le_succ_of_le high)
    obtain ⟨space, under⟩ := held (first + length + 1) (by omega) (Nat.le_refl _)
    obtain ⟨between, pressed, flags, frequency⟩ :=
      (task2 inputs (first + length + 1)).iterate_player space under
    obtain ⟨next, kept, drawn⟩ := between.press_frequency either
    rw [← Nat.add_assoc, task2_succ, pressed]
    refine ⟨?_, kept.trans (flags.trans flags'), drawn⟩
    rw [next, frequency, before, Int.natCast_succ]
    dsimp only [freqReaderIncrement, freqReaderMax, freqReaderNominal]
    split_ifs <;> omega

/-- The key held over the button for a higher frequency, in a run of its own. -/
theorem frequency_repeats_ford :
    (task2 (fun _ => ⟨524465, 16⟩) 3).freqReader = 44300 := by
  have repeats := (@frequency_repeats (fun _ => ⟨524465, 16⟩) 0 2 .ford (.inr rfl)
    fun _ _ _ => by decide).1
  exact repeats

end CpenLabs.ControlPanel
