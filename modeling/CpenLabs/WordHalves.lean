import Mathlib.Tactic.IntervalCases
import CpenLabs.KeyboardCtrl

/-!
# Two assignments for every word

Once FSM_master has left `idle` it passes its states in one order until it arrives
in `Finished`, waiting in three of them for as long as the inputs keep it there. The
two transfer states are left at once, so that each of them occupies exactly one
cycle of the pass and the audio signal is assigned exactly twice.

The direction is read afresh in each of the two cycles. A direction key that falls
between them makes both assignments take the same half of the word.
-/

namespace CpenLabs.WordHalves

open Clocked

/-- Place of a state in the pass from `idle` to `Finished`. -/
def place : FsmMaster.StateType → Nat
  | .idle => 0
  | .startReadAddr => 1
  | .waitReadAddr => 2
  | .waitBerctLsb => 3
  | .transferBerctLsb => 4
  | .waitBerctMsb => 5
  | .transferBerctMsb => 6
  | .finished => 7

/-- Before `Finished` every edge keeps the place or moves to the next one. -/
theorem place_nextState (input : FsmMaster.Input) (state : FsmMaster.StateType)
    (busy : state ≠ .finished) :
    place (FsmMaster.nextState input state) = place state ∨
      place (FsmMaster.nextState input state) = place state + 1 := by
  cases state with
  | finished => exact absurd rfl busy
  | idle | waitReadAddr | waitBerctLsb | waitBerctMsb =>
    simp only [FsmMaster.nextState]
    split_ifs <;> simp [place]
  | startReadAddr | transferBerctLsb | transferBerctMsb => simp [FsmMaster.nextState, place]

/-- The transfer states are the places four and six. -/
theorem place_transfer (state : FsmMaster.StateType) (dir : Bool) :
    (FsmMaster.selected dir state).isSome ↔ place state = 4 ∨ place state = 6 := by
  cases state <;> simp [FsmMaster.selected, place]

/-- Place four is one state. -/
theorem place_lsb (state : FsmMaster.StateType) (here : place state = 4) : state = .transferBerctLsb := by
  cases state <;> first | rfl | cases here

/-- Place six is one state. -/
theorem place_msb (state : FsmMaster.StateType) (here : place state = 6) : state = .transferBerctMsb := by
  cases state <;> first | rfl | cases here

/-- A transfer state is left at once. -/
theorem place_leaves (input : FsmMaster.Input) (state : FsmMaster.StateType)
    (transfer : place state = 4 ∨ place state = 6) :
    place (FsmMaster.nextState input state) = place state + 1 := by
  cases transfer with
  | inl lsb =>
    rw [place_lsb state lsb]
    rfl
  | inr msb =>
    rw [place_msb state msb]
    rfl

variable (inputs : Nat → Controls.Input) (start : Controls.Registers)

/-- The composition of Keyboard_Ctrl and FSM_master in each cycle. -/
abbrev controls (cycle : Nat) : Controls.Registers := run Controls.step inputs start cycle

/-- FSM_master leaves `idle` at the edge ending this cycle. -/
def Departs (cycle : Nat) : Prop :=
  (controls inputs start cycle).master.state = .idle ∧
    (controls inputs start (cycle + 1)).master.state ≠ .idle

/-- Cycle `last` is the first one after `first` with FSM_master in `Finished`. -/
def Arrives (first last : Nat) : Prop :=
  first < last ∧ (controls inputs start last).master.state = .finished ∧
    ∀ cycle, first < cycle → cycle < last →
      (controls inputs start cycle).master.state ≠ .finished

/-- The edge ending this cycle assigns a half of the word to the audio signal. -/
def Assigns (cycle : Nat) (half : FsmMaster.Half) : Prop :=
  FsmMaster.Assigns (Controls.masterInput (inputs cycle) (controls inputs start cycle))
    (controls inputs start cycle).master half

/-- It assigns nothing to it. -/
def Keeps (cycle : Nat) : Prop :=
  FsmMaster.Keeps (Controls.masterInput (inputs cycle) (controls inputs start cycle))
    (controls inputs start cycle).master

/-- Exactly two edges of a pass assign the audio signal, at the ends of cycles `one` and
`two`, and these are the halves that they assign. -/
structure Transfers (first last one two : Nat) (half half' : FsmMaster.Half) : Prop where
  ordered : first < one ∧ one < two ∧ two < last
  assigns : Assigns inputs start one half ∧ Assigns inputs start two half'
  keeps : ∀ cycle, first ≤ cycle → cycle ≤ last → cycle ≠ one → cycle ≠ two → Keeps inputs start cycle

/-- Every pass makes exactly two assignments, one for each half of the word. -/
def TwoHalves : Prop :=
  ∀ first last, Departs inputs start first → Arrives inputs start first last →
    ∃ one two half half', Transfers inputs start first last one two half half' ∧ half ≠ half'

/-- In the run the audio signal then is the one half of the word on the data input after
cycle `one`, the other half after cycle `two`, and what it was after every other cycle. -/
def Sampled (first last one two : Nat) (half half' : FsmMaster.Half) : Prop :=
  (controls inputs start (one + 1)).master.audioSignal = half.of (inputs one).flashMemData ∧
    (controls inputs start (two + 1)).master.audioSignal = half'.of (inputs two).flashMemData ∧
    ∀ cycle, first ≤ cycle → cycle ≤ last → cycle ≠ one → cycle ≠ two →
      (controls inputs start (cycle + 1)).master.audioSignal =
        (controls inputs start cycle).master.audioSignal

/-- What holds of whatever word holds of the word that is there. -/
theorem Transfers.sampled {first last one two : Nat} {half half' : FsmMaster.Half}
    (transfers : Transfers inputs start first last one two half half') :
    Sampled inputs start first last one two half half' :=
  ⟨transfers.assigns.1 _, transfers.assigns.2 _,
    fun cycle low high notOne notTwo => transfers.keeps cycle low high notOne notTwo _⟩

/-- A cycle in which a half is selected is one of the two. -/
theorem Transfers.place_selected {first last one two cycle : Nat} {half half' other : FsmMaster.Half}
    (transfers : Transfers inputs start first last one two half half') (low : first ≤ cycle)
    (high : cycle ≤ last)
    (selects : FsmMaster.selected (controls inputs start cycle).keyboard.dir
      (controls inputs start cycle).master.state = some other) :
    cycle = one ∨ cycle = two := by
  by_contra neither
  obtain ⟨notOne, notTwo⟩ := not_or.mp neither
  have kept := (FsmMaster.keeps_iff _ _).mp (transfers.keeps cycle low high notOne notTwo)
  exact absurd (kept.symm.trans selects) nofun

/-- A pass from `idle` to `Finished` climbs through the places. -/
theorem pass_climbs (first last : Nat) (departs : Departs inputs start first)
    (arrives : Arrives inputs start first last) :
    Climbs (fun cycle => place (controls inputs start cycle).master.state) first last := by
  intro cycle low high
  have busy : (controls inputs start cycle).master.state ≠ .finished := by
    rcases Nat.lt_or_eq_of_le low with later | same
    · exact arrives.2.2 cycle later high
    · rw [← same, departs.1]
      simp
  simpa [controls, Controls.step] using place_nextState _ _ busy

/-- A transfer state is left at once. -/
theorem transfer_leaves (level : Nat) (transfer : level = 4 ∨ level = 6) (cycle : Nat)
    (here : place (controls inputs start cycle).master.state = level) :
    place (controls inputs start (cycle + 1)).master.state = level + 1 := by
  have next : (controls inputs start (cycle + 1)).master.state =
      FsmMaster.nextState _ (controls inputs start cycle).master.state :=
    FsmMaster.step_state _ _
  subst here
  rw [next]
  exact place_leaves _ _ transfer

/-- Each pass assigns the audio signal in exactly two cycles, and the two assignments
take different halves of the word exactly if the direction is the same in both. -/
theorem two_assignments (first last : Nat) (departs : Departs inputs start first)
    (arrives : Arrives inputs start first last) :
    ∃ one two half half', Transfers inputs start first last one two half half' ∧
      Sampled inputs start first last one two half half' ∧
      (half ≠ half' ↔
        (controls inputs start one).keyboard.dir = (controls inputs start two).keyboard.dir) := by
  have climbs := pass_climbs inputs start first last departs arrives
  have bottom : place (controls inputs start first).master.state = 0 := by simp [departs.1, place]
  have top : place (controls inputs start last).master.state = 7 := by simp [arrives.2.1, place]
  obtain ⟨one, _, _, onlyOne⟩ := climbs.exists_only 4 (by omega) (by omega) arrives.1.le
    fun cycle _ _ => transfer_leaves inputs start 4 (.inl rfl) cycle
  obtain ⟨two, _, _, onlyTwo⟩ := climbs.exists_only 6 (by omega) (by omega) arrives.1.le
    fun cycle _ _ => transfer_leaves inputs start 6 (.inr rfl) cycle
  have atOne : place (controls inputs start one).master.state = 4 :=
    (onlyOne one (by omega) (by omega)).mpr rfl
  have atTwo : place (controls inputs start two).master.state = 6 :=
    (onlyTwo two (by omega) (by omega)).mpr rfl
  have ordered : one < two := by
    by_contra late
    have below : place (controls inputs start two).master.state ≤
        place (controls inputs start one).master.state :=
      climbs.mono (by omega) (by omega) (by omega)
    omega
  have notFirst : first ≠ one := by
    rintro rfl
    omega
  have transfers : Transfers inputs start first last one two
      (if (controls inputs start one).keyboard.dir then .low else .high)
      (if (controls inputs start two).keyboard.dir then .high else .low) := by
    refine ⟨⟨by omega, ordered, by omega⟩, ⟨?_, ?_⟩, fun cycle low high notOne notTwo => ?_⟩
    · rw [Assigns, FsmMaster.assigns_iff, place_lsb _ atOne]
      rfl
    · rw [Assigns, FsmMaster.assigns_iff, place_msb _ atTwo]
      rfl
    · rw [Keeps, FsmMaster.keeps_iff, ← Option.not_isSome_iff_eq_none, place_transfer,
        onlyOne cycle low high, onlyTwo cycle low high]
      exact not_or.mpr ⟨notOne, notTwo⟩
  refine ⟨one, two, _, _, transfers, transfers.sampled, ?_⟩
  cases (controls inputs start one).keyboard.dir <;>
    cases (controls inputs start two).keyboard.dir <;> decide

/-- Power-up with the address and sample registers cleared. -/
def powerUp : Controls.Registers where
  keyboard := .idle
  master := { state := .idle, addr := 0, audioSignal := 0 }

/-- The start key in the first cycles and a direction key in the cycle between the two
transfers. The word arrives at once and every cycle carries an edge pulse. -/
def directionKey (cycle : Nat) : Controls.Input where
  kbdReceivedAsciiCode :=
    if cycle = 6 then KeyboardCtrl.characterB else KeyboardCtrl.characterE
  kbdDataReady := false
  edgeClk := true
  slaveFinish := true
  flashMemData := 0xAAAA5555

/-- The pass from cycle 1 to cycle 8. -/
theorem directionKey_pass :
    Departs directionKey powerUp 1 ∧ Arrives directionKey powerUp 1 8 := by
  have states : ∀ cycle, 1 < cycle → cycle < 8 →
      (controls directionKey powerUp cycle).master.state ≠ .finished := by
    intro cycle low high
    interval_cases cycle <;> decide
  exact ⟨⟨by decide, by decide⟩, by decide, by decide, states⟩

/-- The cycle before the direction key transfers bits [15:0], and the cycle after it as
well. -/
theorem directionKey_assigns :
    FsmMaster.selected (controls directionKey powerUp 5).keyboard.dir
        (controls directionKey powerUp 5).master.state = some .low ∧
      FsmMaster.selected (controls directionKey powerUp 7).keyboard.dir
        (controls directionKey powerUp 7).master.state = some .low := by
  decide

/-- The direction changes between the transfers, and bits [15:0] are assigned twice. -/
theorem directionKey_repeats_half :
    Controls.PowerUp powerUp ∧ ¬ TwoHalves directionKey powerUp := by
  refine ⟨⟨rfl, rfl⟩, fun claimed => ?_⟩
  obtain ⟨one, two, half, half', transfers, different⟩ :=
    claimed 1 8 directionKey_pass.1 directionKey_pass.2
  obtain ⟨five, seven⟩ := directionKey_assigns
  have atFive : 5 = one ∨ 5 = two := transfers.place_selected _ _ (by decide) (by decide) five
  have atSeven : 7 = one ∨ 7 = two := transfers.place_selected _ _ (by decide) (by decide) seven
  have ordered := transfers.ordered
  obtain ⟨rfl, rfl⟩ : one = 5 ∧ two = 7 := by omega
  have low := ((FsmMaster.assigns_iff _ _ _).mp transfers.assigns.1).symm.trans five
  have low' := ((FsmMaster.assigns_iff _ _ _).mp transfers.assigns.2).symm.trans seven
  exact different (Option.some.inj (low.trans low'.symm))

/-- In the same run the two assignments of the first word are made, and a word with two
different halves is sampled twice in the same one. -/
theorem two_assignments_directionKey :
    (controls directionKey powerUp 6).master.audioSignal = 0x5555 ∧
      (controls directionKey powerUp 8).master.audioSignal = 0x5555 ∧
      ∃ one two half half', Transfers directionKey powerUp 1 8 one two half half' ∧
        Sampled directionKey powerUp 1 8 one two half half' ∧
        (half ≠ half' ↔
          (controls directionKey powerUp one).keyboard.dir =
            (controls directionKey powerUp two).keyboard.dir) :=
  ⟨by decide, by decide, two_assignments directionKey powerUp 1 8 directionKey_pass.1 directionKey_pass.2⟩

end CpenLabs.WordHalves
