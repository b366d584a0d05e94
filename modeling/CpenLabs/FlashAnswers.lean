import CpenLabs.Handshake

/-!
# The word on the master's data input

The flash is a binary block of which the bus protocol is known: it accepts a read in
every cycle with read and without waitrequest, and answers each accepted read in some
later cycle by a readdatavalid pulse with the word at the accepted address. Which
read is answered, and when, is an input of the model.

The slave's finish pulse does not depend on the answers. What return_data holds is
decided by the last rising edge of readdatavalid, and the master may reach a transfer
state before the answer to its own request or after a late answer to another one.
The contents of the flash decide none of this, so that the run can be judged on its
timing alone.
-/

namespace CpenLabs.FlashAnswers

open Clocked

/-- FSM_master, FSM_Slave, and the accepted reads that the flash has not answered. -/
structure Registers where
  player : Player.Registers
  pending : List (BitVec 23)

/-- The inputs of a cycle. An answer names one of the pending reads by its place. -/
structure Input where
  play : Bool
  dir : Bool
  restart : Bool
  edgeClk : Bool
  waitrequest : Bool
  answer : Option Nat

/-- The address of the read that is answered in this cycle. -/
def answered (input : Input) (registers : Registers) : Option (BitVec 23) :=
  input.answer.bind fun place => registers.pending[place]?

/-- The player's inputs: an answer is a readdatavalid pulse with the word of the flash. -/
def playerInput (content : BitVec 23 → BitVec 32) (input : Input) (registers : Registers) :
    Player.Input where
  play := input.play
  dir := input.dir
  restart := input.restart
  edgeClk := input.edgeClk
  waitrequest := input.waitrequest
  readdatavalid := (answered input registers).isSome
  readdata := ((answered input registers).map content).getD 0

/-- The flash accepts the read that the slave presents, at the master's address. -/
def accepted (input : Input) (registers : Registers) : List (BitVec 23) :=
  if registers.player.slave.state.read && !input.waitrequest then
    [registers.player.master.addr]
  else []

/-- One clock cycle. A read accepted in it can be answered from the next cycle on. -/
def step (content : BitVec 23 → BitVec 32) (input : Input) (registers : Registers) : Registers where
  player := Player.step (playerInput content input registers) registers.player
  pending := (input.answer.elim registers.pending registers.pending.eraseIdx) ++
    accepted input registers

/-- The master's flash_mem_data input during a cycle. -/
def flashMemData (content : BitVec 23 → BitVec 32) (input : Input) (registers : Registers) :
    BitVec 32 :=
  (Player.masterInput (playerInput content input registers) registers.player).flashMemData

/-- Power-up without a pending read. -/
def powerUp (addr : BitVec 23) (audioSignal : BitVec 16) (returnData : BitVec 32) : Registers where
  player := Player.powerUp addr audioSignal returnData false
  pending := []

/-- FSM_master is in one of its two transfer states. -/
def Transfers (registers : Registers) : Prop :=
  registers.player.master.state = .transferBerctLsb ∨
    registers.player.master.state = .transferBerctMsb

section Runs

variable (content : BitVec 23 → BitVec 32) (inputs : Nat → Input) (start : Registers)

/-- The composition in each cycle. -/
abbrev flash (cycle : Nat) : Registers := run (step content) inputs start cycle

/-- In every transfer state the data input is the flash word at the current address. -/
def NoStaleWord : Prop :=
  ∀ cycle, Transfers (flash content inputs start cycle) →
    flashMemData content (inputs cycle) (flash content inputs start cycle) =
      content (flash content inputs start cycle).player.master.addr

/-- A rising edge of readdatavalid at the beginning of a cycle. -/
def rises (cycle : Nat) : Bool :=
  (answered (inputs cycle) (flash content inputs start cycle)).isSome &&
    !(flash content inputs start cycle).player.slave.readyToRead

/-- The address of the read whose answer return_data holds during a cycle: the one
answered at the last rising edge of readdatavalid, if there was any. -/
def captured : Nat → Option (BitVec 23)
  | 0 => if rises content inputs start 0 then answered (inputs 0) start else none
  | cycle + 1 =>
      if rises content inputs start (cycle + 1) then
        answered (inputs (cycle + 1)) (flash content inputs start (cycle + 1))
      else captured cycle

/-- By a cycle an answer with an address has come, and every rising edge since then has
been an answer with that address as well. -/
def AnsweredInTime (addr : BitVec 23) (cycle : Nat) : Prop :=
  ∃ edge ≤ cycle, rises content inputs start edge = true ∧
    answered (inputs edge) (flash content inputs start edge) = some addr ∧
    ∀ later, edge < later → later ≤ cycle → rises content inputs start later = true →
      answered (inputs later) (flash content inputs start later) = some addr

/-- The captured answer is the one that has come in time. -/
theorem captured_iff (addr : BitVec 23) (cycle : Nat) :
    captured content inputs start cycle = some addr ↔ AnsweredInTime content inputs start addr cycle := by
  induction cycle with
  | zero =>
    rw [captured]
    constructor
    · intro holds
      split_ifs at holds with edge
      exact ⟨0, Nat.le_refl 0, edge, holds, fun later after before => by omega⟩
    · rintro ⟨edge, before, rising, answer, _⟩
      obtain rfl := Nat.le_zero.mp before
      rw [if_pos rising]
      exact answer
  | succ cycle inductionHypothesis =>
    rw [captured]
    by_cases rising : rises content inputs start (cycle + 1) = true
    · rw [if_pos rising]
      constructor
      · intro answer
        exact ⟨cycle + 1, Nat.le_refl _, rising, answer, fun later after before => by omega⟩
      · rintro ⟨edge, before, _, answer, since⟩
        cases Nat.lt_or_eq_of_le before with
        | inl earlier => exact since (cycle + 1) earlier (Nat.le_refl _) rising
        | inr same => exact same ▸ answer
    · rw [if_neg rising, inductionHypothesis]
      constructor
      · rintro ⟨edge, before, rose, answer, since⟩
        refine ⟨edge, Nat.le_succ_of_le before, rose, answer, fun later after high rises => ?_⟩
        cases Nat.lt_or_eq_of_le high with
        | inl earlier => exact since later after (Nat.le_of_lt_succ earlier) rises
        | inr same => exact absurd (same ▸ rises) rising
      · rintro ⟨edge, before, rose, answer, since⟩
        cases Nat.lt_or_eq_of_le before with
        | inl earlier =>
          exact ⟨edge, Nat.le_of_lt_succ earlier, rose, answer,
            fun later after high => since later after (Nat.le_succ_of_le high)⟩
        | inr same => exact absurd (same ▸ rose) rising

/-- The data input during a cycle is the word of the captured answer, and the initial
content of return_data before the first one. -/
theorem flashMemData_captured (cycle : Nat) :
    flashMemData content (inputs cycle) (flash content inputs start cycle) =
      ((captured content inputs start cycle).map content).getD
        start.player.slave.returnData := by
  have present : ∀ cycle, flashMemData content (inputs cycle) (flash content inputs start cycle) =
      if rises content inputs start cycle then
        ((answered (inputs cycle) (flash content inputs start cycle)).map content).getD 0
      else (flash content inputs start cycle).player.slave.returnData := fun _ => rfl
  -- Without a rising edge the register repeats the previous cycle's data input.
  induction cycle with
  | zero =>
    rw [present, captured]
    by_cases edge : rises content inputs start 0 = true
    · obtain ⟨addr, answer⟩ := Option.isSome_iff_exists.mp (Bool.and_eq_true_iff.mp edge).1
      have same : answered (inputs 0) start = some addr := answer
      simp [edge, same]
    · simp [edge]
  | succ cycle inductionHypothesis =>
    rw [present, captured]
    by_cases edge : rises content inputs start (cycle + 1) = true
    · obtain ⟨addr, answer⟩ := Option.isSome_iff_exists.mp (Bool.and_eq_true_iff.mp edge).1
      simp only [edge, ↓reduceIte, answer, Option.map_some, Option.getD_some]
    · simp only [edge, Bool.false_eq_true, ↓reduceIte]
      exact inductionHypothesis

end Runs

/-- Two states that differ in the words and samples they hold alone. -/
def SameControl (left right : Registers) : Prop :=
  left.player.master.state = right.player.master.state ∧
    left.player.master.addr = right.player.master.addr ∧
    left.player.slave.state = right.player.slave.state ∧
    left.player.slave.readyToRead = right.player.slave.readyToRead ∧
    left.pending = right.pending

/-- The words never influence the control. -/
theorem sameControl_step (content other : BitVec 23 → BitVec 32) (input : Input)
    (left right : Registers) (same : SameControl left right) :
    SameControl (step content input left) (step other input right) := by
  obtain ⟨state, addr, slave, level, pending⟩ := same
  have answer : answered input left = answered input right := by simp [answered, pending]
  refine ⟨?_, ?_, ?_, ?_, ?_⟩
  · simp only [step, Player.step, FsmMaster.step_state, state]
    exact FsmMaster.nextState_congr _ _ _ rfl (by simp only [Player.masterInput, slave]) rfl
  · simp only [step, Player.step, FsmMaster.step_addr, state, addr]
    rfl
  · simp only [step, Player.step, FsmSlave.step, slave]
    exact FsmSlave.nextState_congr _ _ _ (by simp only [Player.slaveInput, state]) rfl
  · simp only [step, Player.step, FsmSlave.step, Player.slaveInput, playerInput, answer]
  · simp only [step, accepted, pending, addr, slave]

/-- Runs of one timing on flashes of any contents have the same control in every
cycle, and capture the same answers. -/
theorem sameControl_run (content other : BitVec 23 → BitVec 32) (inputs : Nat → Input)
    (left right : Registers) (same : SameControl left right) (cycle : Nat) :
    SameControl (flash content inputs left cycle) (flash other inputs right cycle) ∧
      captured content inputs left cycle = captured other inputs right cycle := by
  have control : ∀ cycle, SameControl (flash content inputs left cycle) (flash other inputs right cycle) := by
    intro cycle
    induction cycle with
    | zero => exact same
    | succ cycle inductionHypothesis =>
      exact sameControl_step content other (inputs cycle) _ _ inductionHypothesis
  have answer : ∀ cycle, answered (inputs cycle) (flash content inputs left cycle) =
      answered (inputs cycle) (flash other inputs right cycle) := by
    intro cycle
    simp only [answered, (control cycle).2.2.2.2]
  have edge : ∀ cycle, rises content inputs left cycle = rises other inputs right cycle := by
    intro cycle
    simp only [rises, answer, (control cycle).2.2.2.1]
  refine ⟨control cycle, ?_⟩
  induction cycle with
  | zero =>
    have first : answered (inputs 0) left = answered (inputs 0) right := answer 0
    simp only [captured, edge, first]
  | succ cycle inductionHypothesis => simp only [captured, edge, answer, inductionHypothesis]

/-- By every transfer the flash has answered a read at the current address, and no answer
to a read at another address has been captured since. The contents of the flash have no
part in this; zero stands for any of them. -/
def FreshAnswers (inputs : Nat → Input) (start : Registers) : Prop :=
  ∀ cycle, Transfers (flash (fun _ => 0) inputs start cycle) →
    AnsweredInTime (fun _ => 0) inputs start
      (flash (fun _ => 0) inputs start cycle).player.master.addr cycle

/-- A timing of flash and player never presents a stale word, whatever the flash
contains and whatever the data register held at power-up, exactly if every transfer
finds the answer to a read at its own address captured last.

If a transfer finds another answer, the flash that distinguishes the two addresses
shows the difference, and if it finds none, so does a register that differs from the
flash. -/
theorem no_stale_word_iff (inputs : Nat → Input) (addr : BitVec 23) (audioSignal : BitVec 16) :
    (∀ content returnData, NoStaleWord content inputs (powerUp addr audioSignal returnData)) ↔
      FreshAnswers inputs (powerUp addr audioSignal 0) := by
  have same : ∀ content returnData cycle,
      SameControl (flash content inputs (powerUp addr audioSignal returnData) cycle)
          (flash (fun _ => 0) inputs (powerUp addr audioSignal 0) cycle) ∧
        captured content inputs (powerUp addr audioSignal returnData) cycle =
          captured (fun _ => 0) inputs (powerUp addr audioSignal 0) cycle := fun content returnData =>
    sameControl_run content (fun _ => 0) inputs _ _ ⟨rfl, rfl, rfl, rfl, rfl⟩
  simp only [FreshAnswers, ← captured_iff]
  constructor
  · intro noStale cycle transfers
    generalize current : (flash (fun _ => 0) inputs (powerUp addr audioSignal 0) cycle).player.master.addr =
      here
    have presented : ∀ (content : BitVec 23 → BitVec 32) (returnData : BitVec 32),
        ((captured (fun _ => 0) inputs (powerUp addr audioSignal 0) cycle).map content).getD returnData =
          content here := by
      intro content returnData
      obtain ⟨⟨state, sameAddr, _⟩, answer⟩ := same content returnData cycle
      have exact := noStale content returnData cycle (by simpa only [Transfers, state] using transfers)
      rw [flashMemData_captured, answer, sameAddr, current] at exact
      exact exact
    cases answer : captured (fun _ => 0) inputs (powerUp addr audioSignal 0) cycle with
    | none =>
      simp only [answer, Option.map_none, Option.getD_none] at presented
      exact absurd (presented (fun _ => 1) 0) (by decide)
    | some other =>
      simp only [answer, Option.map_some, Option.getD_some] at presented
      by_contra distinct
      have elsewhere : other ≠ here := fun equal => distinct (congrArg some equal)
      have agrees := presented (fun word => if word = here then 1 else 0) 0
      simp [elsewhere] at agrees
  · intro fresh content returnData cycle transfers
    obtain ⟨⟨state, sameAddr, _⟩, answer⟩ := same content returnData cycle
    rw [flashMemData_captured, answer, fresh cycle (by simpa only [Transfers, state] using transfers),
      sameAddr]
    rfl

/-- One request of a player that is then paused, with an edge pulse in every cycle and
a flash that is always ready but answers after eight cycles. -/
def lateAnswer (cycle : Nat) : Input where
  play := cycle == 0
  dir := true
  restart := false
  edgeClk := true
  waitrequest := false
  answer := if cycle < 10 then none else some 0

/-- The first transfer, in cycle 7, finds the data register as it was at power-up. All
reads of the run have been answered by cycle 13. -/
theorem lateAnswer_stale :
    ¬ NoStaleWord (fun _ => 1) lateAnswer (powerUp 0 0 0) ∧
      (flash (fun _ => 1) lateAnswer (powerUp 0 0 0) 13).pending = [] := by
  refine ⟨fun claimed => ?_, by decide⟩
  have seventh := claimed 7 (.inl (by decide))
  exact absurd seventh (by decide)

end CpenLabs.FlashAnswers
