import Mathlib.Tactic.IntervalCases
import CpenLabs.KeyboardCtrl

/-!
# When a reset request reaches the address register

A reset state asks for the address to be reloaded, and FSM_master looks at the
request in `Finished` only. `Reset_Forward` waits for the master's finish output and
is left in a cycle with the master in `Finished`. `Reset_Backward` tests a constant
in the same place and lasts only as long as the reset key's strobe holds it.

A backward request is therefore carried out exactly if the strobe is not released
before the master has passed through `Finished`.
-/

namespace CpenLabs.ResetRequest

open Clocked Controls KeyboardCtrl

variable (inputs : Nat → Controls.Input) (start : Controls.Registers)

/-- The composition of Keyboard_Ctrl and FSM_master in each cycle. -/
abbrev controls (cycle : Nat) : Registers := run Controls.step inputs start cycle

/-- The reset key's strobe in a cycle. -/
abbrev strobe (cycle : Nat) : Bool :=
  resetKey (inputs cycle).kbdReceivedAsciiCode (inputs cycle).kbdDataReady

/-- The address a restart loads. -/
def reloadAddr (dir : Bool) : BitVec 23 := if dir then 0 else 0x7FFFF#23

/-- In this cycle FSM_master is in `Finished` with restart set and the given
direction, so that the edge ending it reloads the address. -/
def Reloads (dir : Bool) (cycle : Nat) : Prop :=
  (controls inputs start cycle).master.state = .finished ∧
    (controls inputs start cycle).keyboard.rst = true ∧
    (controls inputs start cycle).keyboard.dir = dir ∧
    (controls inputs start (cycle + 1)).master.addr = reloadAddr dir

/-- Whenever Keyboard_Ctrl leaves a reset state for a start state, the address has
been reloaded since it entered that reset state. -/
def CarriedOut : Prop :=
  ∀ reset, reset = .resetForward ∨ reset = .resetBackward →
    ∀ first last, Stay (fun cycle => (controls inputs start cycle).keyboard = reset) first last →
      (controls inputs start (last + 1)).keyboard = .startForward ∨
        (controls inputs start (last + 1)).keyboard = .startBackward →
      ∃ cycle, first ≤ cycle ∧ cycle ≤ last ∧ Reloads inputs start reset.dir cycle

/-- From its entry into `Reset_Backward` the reset key's strobe is not released
before FSM_master has been in `Finished`. -/
def HeldUntilFinished : Prop :=
  ∀ first last, first ≤ last → (controls inputs start first).keyboard = .resetBackward →
    (∀ before, before + 1 = first → (controls inputs start before).keyboard ≠ .resetBackward) →
    (∀ cycle, first ≤ cycle → cycle < last → strobe inputs cycle = true) →
    strobe inputs last = false →
    ∃ cycle, first ≤ cycle ∧ cycle ≤ last ∧
      (controls inputs start cycle).master.state = .finished

/-- `Finished` is the only state that raises the finish output. -/
theorem finish_iff (state : FsmMaster.StateType) : state.finish = true ↔ state = .finished := by
  cases state <;> decide

/-- The keyboard controller after a cycle in a reset state. A strobe keeps the state.
Without one the forward state waits for the finish pulse and the backward state does
not wait at all. -/
theorem keyboard_after (cycle : Nat) :
    ((controls inputs start cycle).keyboard = .resetForward →
      (controls inputs start (cycle + 1)).keyboard =
        if strobe inputs cycle ∨ (controls inputs start cycle).master.state ≠ .finished then
          .resetForward else .startForward) ∧
    ((controls inputs start cycle).keyboard = .resetBackward →
      (controls inputs start (cycle + 1)).keyboard =
        if strobe inputs cycle then .resetBackward else .startBackward) := by
  have next : (controls inputs start (cycle + 1)).keyboard =
      KeyboardCtrl.step (keyboardInput (inputs cycle) (controls inputs start cycle))
        (controls inputs start cycle).keyboard := rfl
  refine ⟨fun reset => ?_, fun reset => ?_⟩
  · have finished := finish_iff (controls inputs start cycle).master.state
    rw [next, reset]
    by_cases key : strobe inputs cycle = true <;>
      by_cases served : (controls inputs start cycle).master.state = .finished <;>
        simp_all [KeyboardCtrl.step, keyboardInput, StateType.dir, StateType.encoding]
  · rw [next, reset]
    by_cases key : strobe inputs cycle = true <;>
      simp_all [KeyboardCtrl.step, keyboardInput, StateType.dir, StateType.encoding]

/-- The encoding of a reset state asserts rst, so that a visit of the master to
`Finished` in that state reloads the address. -/
theorem finished_reloads (reset : StateType) (isReset : reset = .resetForward ∨ reset = .resetBackward)
    (cycle : Nat) (inReset : (controls inputs start cycle).keyboard = reset)
    (finished : (controls inputs start cycle).master.state = .finished) :
    Reloads inputs start reset.dir cycle := by
  have loaded : (controls inputs start (cycle + 1)).master.addr =
      (FsmMaster.step (masterInput (inputs cycle) (controls inputs start cycle))
        (controls inputs start cycle).master).addr := rfl
  refine ⟨finished, ?_, by rw [inReset], ?_⟩
  · rcases isReset with rfl | rfl <;> rw [inReset] <;> rfl
  · rw [loaded, FsmMaster.step_addr, if_pos finished]
    rcases isReset with rfl | rfl <;> simp only [masterInput, inReset] <;> rfl

/-- While the strobe is held the controller stays in `Reset_Backward`. -/
theorem held_stays (first last : Nat) (entered : (controls inputs start first).keyboard = .resetBackward)
    (held : ∀ cycle, first ≤ cycle → cycle < last → strobe inputs cycle = true) (cycle : Nat)
    (low : first ≤ cycle) (high : cycle ≤ last) : (controls inputs start cycle).keyboard = .resetBackward := by
  induction cycle, low using Nat.le_induction with
  | base => exact entered
  | succ cycle low inductionHypothesis =>
    have here := inductionHypothesis (Nat.le_of_succ_le high)
    rw [(keyboard_after inputs start cycle).2 here, held cycle low high]
    rfl

/-- And if it has stayed there, the strobe was held. -/
theorem stays_held (cycle : Nat) (here : (controls inputs start cycle).keyboard = .resetBackward)
    (still : (controls inputs start (cycle + 1)).keyboard = .resetBackward) : strobe inputs cycle = true := by
  rw [(keyboard_after inputs start cycle).2 here] at still
  by_contra dropped
  rw [if_neg dropped] at still
  cases still

/-- It leaves `Reset_Backward` without a strobe, and `Reset_Forward` beside the finish
output only. -/
theorem left_reset (cycle : Nat)
    (leaves : (controls inputs start (cycle + 1)).keyboard = .startForward ∨
      (controls inputs start (cycle + 1)).keyboard = .startBackward) :
    ((controls inputs start cycle).keyboard = .resetForward →
      (controls inputs start cycle).master.state = .finished) ∧
    ((controls inputs start cycle).keyboard = .resetBackward → strobe inputs cycle = false) := by
  constructor
  · intro here
    by_contra unserved
    rw [(keyboard_after inputs start cycle).1 here, if_pos (.inr unserved)] at leaves
    cases leaves <;> contradiction
  · intro here
    by_contra held
    rw [(keyboard_after inputs start cycle).2 here, if_pos (Bool.eq_true_of_not_eq_false held)] at leaves
    cases leaves <;> contradiction

/-- A run carries out every reset request exactly if it holds each backward request
until the master has been in `Finished`. Forward requests need no condition.

Leaving `Reset_Forward` for a start state is possible only beside the finish output.
A stay in `Reset_Backward` is the time for which the strobe is held, and one cycle
more. -/
theorem reset_carried_out_iff : CarriedOut inputs start ↔ HeldUntilFinished inputs start := by
  constructor
  · intro carried first last ordered entered begins held released
    have stays := held_stays inputs start first last entered held
    have leaves : (controls inputs start (last + 1)).keyboard = .startBackward := by
      rw [(keyboard_after inputs start last).2 (stays last ordered (Nat.le_refl last)), released]
      rfl
    obtain ⟨cycle, low, high, reloads⟩ :=
      carried .resetBackward (.inr rfl) first last ⟨ordered, stays, begins⟩ (.inr leaves)
    exact ⟨cycle, low, high, reloads.1⟩
  · rintro heldLong reset isReset first last ⟨ordered, stays, begins⟩ leaves
    have here := stays last ordered (Nat.le_refl last)
    obtain ⟨forward, backward⟩ := left_reset inputs start last leaves
    cases isReset with
    | inl isForward =>
      subst isForward
      exact ⟨last, ordered, Nat.le_refl last,
        finished_reloads inputs start .resetForward (.inl rfl) last here (forward here)⟩
    | inr isBackward =>
      subst isBackward
      have held : ∀ cycle, first ≤ cycle → cycle < last → strobe inputs cycle = true := by
        intro cycle low high
        exact stays_held inputs start cycle (stays cycle low high.le)
          (stays (cycle + 1) (Nat.le_succ_of_le low) high)
      obtain ⟨cycle, low, high, finished⟩ := heldLong first last ordered
        (stays first (Nat.le_refl first) ordered) begins held (backward here)
      exact ⟨cycle, low, high,
        finished_reloads inputs start .resetBackward (.inr rfl) cycle (stays cycle low high) finished⟩

/-- Start, turn backwards, and press the reset key for one cycle while FSM_master is
still asking for a word. -/
def shortReset (cycle : Nat) : Controls.Input where
  kbdReceivedAsciiCode :=
    if cycle = 0 then characterE else if cycle = 2 then characterR else characterB
  kbdDataReady := true
  edgeClk := false
  slaveFinish := false
  flashMemData := 0

/-- Both machines at power-up with the address at word 5. -/
def powerUp : Registers where
  keyboard := .idle
  master := { state := .idle, addr := 5, audioSignal := 0 }

/-- The controller is in `Reset_Backward` in cycle 3 alone and starts playing
backwards from the old address. -/
theorem shortReset_lost : Controls.PowerUp powerUp ∧ ¬ CarriedOut shortReset powerUp := by
  refine ⟨⟨rfl, rfl⟩, fun claimed => ?_⟩
  have stay : Stay (fun cycle => (controls shortReset powerUp cycle).keyboard = .resetBackward) 3 3 := by
    refine ⟨Nat.le_refl 3, fun cycle low high => ?_, fun before same => ?_⟩
    · obtain rfl : cycle = 3 := by omega
      decide
    · obtain rfl : before = 2 := by omega
      decide
  obtain ⟨cycle, low, high, reloads⟩ := claimed .resetBackward (.inr rfl) 3 3 stay (by decide)
  obtain rfl : cycle = 3 := by omega
  exact absurd reloads.1 (by decide)

end CpenLabs.ResetRequest
