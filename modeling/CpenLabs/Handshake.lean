import CpenLabs.FsmSlave

/-!
# The start and finish pulses between the two machines

Neither pulse is acknowledged. The handshake works because the two machines are
never out of step: the slave is busy in exactly those cycles in which the master
waits for it. This joint invariant is preserved by every edge whatever the other
inputs do, and the remaining properties follow from it.
-/

namespace CpenLabs.Handshake

open Clocked Player

/-- The two machines agree on whether a request is pending. -/
def InStep (registers : Registers) : Prop :=
  registers.master.state = .waitReadAddr ↔ registers.slave.state ≠ .idle

/-- What one edge does to a pair of machines in step. A start pulse finds the slave
in idle and starts it; a finish pulse finds the master waiting and releases it; any
other edge leaves the pending request as it is. -/
theorem step_cases (input : Input) (registers : Registers) (inStep : InStep registers) :
    (registers.master.state = .startReadAddr ∧ registers.slave.state = .idle ∧
      (step input registers).master.state = .waitReadAddr ∧
      (step input registers).slave.state = .handleReadOp) ∨
    (registers.master.state = .waitReadAddr ∧ registers.slave.state = .finished ∧
      (step input registers).master.state = .waitBerctLsb ∧
      (step input registers).slave.state = .idle) ∨
    (registers.master.state = .waitReadAddr ∧ registers.slave.state ≠ .idle ∧
      registers.slave.state ≠ .finished ∧
      (step input registers).master.state = .waitReadAddr ∧
      (step input registers).slave.state ≠ .idle) ∨
    (registers.master.state ≠ .waitReadAddr ∧ registers.master.state ≠ .startReadAddr ∧
      registers.slave.state = .idle ∧
      (step input registers).master.state ≠ .waitReadAddr ∧
      (step input registers).slave.state = .idle) := by
  have masterNext : (step input registers).master.state =
      FsmMaster.nextState (masterInput input registers) registers.master.state :=
    FsmMaster.step_state _ _
  have slaveNext : (step input registers).slave.state =
      FsmSlave.nextState (slaveInput input registers) registers.slave.state := rfl
  rw [masterNext, slaveNext]
  unfold InStep at inStep
  cases slave : registers.slave.state with
  | idle =>
    cases master : registers.master.state <;>
      simp_all [FsmMaster.nextState, FsmSlave.nextState, slaveInput, FsmMaster.StateType.slaveStart,
        FsmMaster.StateType.encoding]
    all_goals split_ifs <;> simp
  | handleReadOp | strobeRead =>
    simp_all [FsmMaster.nextState, FsmSlave.nextState, masterInput, FsmSlave.StateType.finish,
      FsmSlave.StateType.encoding]
  | waitRead =>
    simp_all [FsmMaster.nextState, FsmSlave.nextState, masterInput, FsmSlave.StateType.finish,
      FsmSlave.StateType.encoding]
    split_ifs <;> simp
  | finished =>
    simp_all [FsmMaster.nextState, FsmSlave.nextState, masterInput, FsmSlave.StateType.finish,
      FsmSlave.StateType.encoding]

/-- Machines in step stay in step. -/
theorem inStep_step (input : Input) (registers : Registers) (inStep : InStep registers) :
    InStep (step input registers) := by
  unfold InStep
  rcases step_cases input registers inStep with
    ⟨_, _, master, slave⟩ | ⟨_, _, master, slave⟩ | ⟨_, _, _, master, slave⟩ | ⟨_, _, _, master, slave⟩ <;>
    simp [master, slave]

variable (inputs : Nat → Input) (start : Registers)

/-- The composition of FSM_master and FSM_Slave in each cycle. -/
abbrev player (cycle : Nat) : Registers := run step inputs start cycle

/-- The slave takes a start pulse at the edge ending this cycle. -/
def StartAccepted (cycle : Nat) : Prop :=
  (player inputs start cycle).slave.state = .idle ∧
    (player inputs start cycle).master.state.slaveStart = true

/-- The slave's finish pulse. -/
def FinishPulse (cycle : Nat) : Prop := (player inputs start cycle).slave.state.finish = true

instance : DecidablePred (StartAccepted inputs start) := fun _ => inferInstanceAs (Decidable (_ ∧ _))

instance : DecidablePred (FinishPulse inputs start) := fun _ => inferInstanceAs (Decidable (_ = _))

/-- The start output is high in the master's second state alone. -/
theorem slaveStart_iff (state : FsmMaster.StateType) :
    state.slaveStart = true ↔ state = .startReadAddr := by
  cases state <;> decide

/-- The finish output is high in the slave's last state alone. -/
theorem finish_iff (state : FsmSlave.StateType) : state.finish = true ↔ state = .finished := by
  cases state <;> decide

/-- A run that starts in step stays in step. -/
theorem inStep_run (inStep : InStep start) (cycle : Nat) : InStep (player inputs start cycle) :=
  run_invariant step inputs start InStep inStep inStep_step cycle

/-- Accepted start pulses less finish pulses: one while a request is pending, and
none otherwise. -/
theorem pulses_balance (inStep : InStep start) (idle : start.slave.state = .idle) (cycle : Nat) :
    occurrences (StartAccepted inputs start) 0 cycle =
      occurrences (FinishPulse inputs start) 0 cycle +
        if (player inputs start cycle).slave.state = .idle then 0 else 1 := by
  induction cycle with
  | zero => simp [idle]
  | succ cycle inductionHypothesis =>
    rw [occurrences_succ _ 0 cycle (Nat.zero_le _), occurrences_succ _ 0 cycle (Nat.zero_le _),
      inductionHypothesis]
    simp only [StartAccepted, FinishPulse, slaveStart_iff, finish_iff, player, run_succ]
    rcases step_cases (inputs cycle) _ (inStep_run inputs start inStep cycle) with
      ⟨master, slave, _, slaveNext⟩ | ⟨_, slave, _, slaveNext⟩ |
      ⟨_, busy, unfinished, _, slaveNext⟩ | ⟨_, unstarted, slave, _, slaveNext⟩ <;>
      simp_all

/-- While the master asks or waits for a word, the edge keeps its address. -/
theorem addr_kept (cycle : Nat)
    (pending : (player inputs start cycle).master.state = .startReadAddr ∨
      (player inputs start cycle).master.state = .waitReadAddr) :
    (player inputs start (cycle + 1)).master.addr = (player inputs start cycle).master.addr := by
  have kept := FsmMaster.step_addr (masterInput (inputs cycle) (player inputs start cycle))
    (player inputs start cycle).master
  rw [if_neg (by rcases pending with asks | waits <;> simp [*])] at kept
  exact kept

/-- A master that waits has asked: the cycle before its wait is its start pulse, and
the address has not changed since. -/
theorem pending_request (notWaiting : start.master.state ≠ .waitReadAddr) (cycle : Nat)
    (waits : (player inputs start cycle).master.state = .waitReadAddr) :
    ∃ request, request < cycle ∧ (player inputs start request).master.state = .startReadAddr ∧
      (∀ later, request < later → later ≤ cycle →
        (player inputs start later).master.state = .waitReadAddr ∧
        (player inputs start later).master.addr = (player inputs start request).master.addr) := by
  obtain ⟨first, ordered, stays, begins⟩ :=
    exists_stay (fun cycle => (player inputs start cycle).master.state = .waitReadAddr) cycle waits
  obtain _ | request := first
  · exact absurd (stays 0 (Nat.le_refl 0) ordered) notWaiting
  have asked : (player inputs start request).master.state = .startReadAddr := by
    have entered := stays (request + 1) (Nat.le_refl _) ordered
    have before := begins request rfl
    have next : (player inputs start (request + 1)).master.state =
        FsmMaster.nextState _ (player inputs start request).master.state :=
      FsmMaster.step_state _ _
    simp only [next] at entered
    cases state : (player inputs start request).master.state <;>
      simp_all [FsmMaster.nextState]
    all_goals split_ifs at entered
  refine ⟨request, ordered, asked, fun later after => ?_⟩
  induction later, after using Nat.le_induction with
  | base => exact fun _ => ⟨stays _ (Nat.le_refl _) ordered, addr_kept inputs start request (.inl asked)⟩
  | succ later after inductionHypothesis =>
    intro high
    obtain ⟨waiting, same⟩ := inductionHypothesis (by omega)
    exact ⟨stays _ (by omega) high, (addr_kept inputs start later (.inr waiting)).trans same⟩

/-- The joint behaviour of the two machines. A start pulse always finds the slave in
idle; the master waits in exactly the cycles in which the slave is busy; the address at
a read is that of the pending request and is kept until the master has left its wait;
and every accepted start pulse is answered by one finish pulse, at most one of them
outstanding. -/
structure Handshakes : Prop where
  accepted : ∀ cycle, (player inputs start cycle).master.state = .startReadAddr →
    (player inputs start cycle).slave.state = .idle
  waits : ∀ cycle, (player inputs start cycle).master.state = .waitReadAddr ↔
    (player inputs start cycle).slave.state ≠ .idle
  addressed : ∀ cycle, (player inputs start cycle).slave.state.read = true →
    ∃ request, request < cycle ∧ (player inputs start request).master.state = .startReadAddr ∧
      (∀ later, request < later → later ≤ cycle →
        (player inputs start later).master.state = .waitReadAddr) ∧
      (player inputs start cycle).master.addr = (player inputs start request).master.addr ∧
      (player inputs start (cycle + 1)).master.addr = (player inputs start cycle).master.addr
  kept : ∀ cycle, (player inputs start cycle).master.state = .waitReadAddr →
    (player inputs start (cycle + 1)).master.addr = (player inputs start cycle).master.addr
  answered : ∀ cycle,
    occurrences (FinishPulse inputs start) 0 cycle = occurrences (StartAccepted inputs start) 0 cycle ∨
    occurrences (FinishPulse inputs start) 0 cycle + 1 = occurrences (StartAccepted inputs start) 0 cycle

/-- From power-up the two machines keep to the handshake, whatever the inputs are. -/
theorem handshake (addr : BitVec 23) (audioSignal : BitVec 16) (returnData : BitVec 32)
    (readyToRead : Bool) : Handshakes inputs (powerUp addr audioSignal returnData readyToRead) := by
  have initially : InStep (powerUp addr audioSignal returnData readyToRead) := by
    simp [InStep, powerUp]
  have inStep := inStep_run inputs _ initially
  constructor
  case accepted =>
    intro cycle asks
    by_contra busy
    have waits := (inStep cycle).mpr busy
    rw [asks] at waits
    cases waits
  case waits => exact inStep
  case addressed =>
    intro cycle reads
    have busy : (player inputs (powerUp addr audioSignal returnData readyToRead) cycle).slave.state ≠ .idle := by
      intro idle
      rw [idle] at reads
      exact absurd reads (by decide)
    have waits := (inStep cycle).mpr busy
    obtain ⟨request, before, asked, since⟩ :=
      pending_request inputs _ (by simp [powerUp]) cycle waits
    exact ⟨request, before, asked, fun later low high => (since later low high).1,
      (since cycle before (Nat.le_refl _)).2, addr_kept inputs _ cycle (.inr waits)⟩
  case kept => exact fun cycle waits => addr_kept inputs _ cycle (.inr waits)
  case answered =>
    intro cycle
    have balance := pulses_balance inputs _ initially rfl cycle
    split_ifs at balance <;> omega

end CpenLabs.Handshake
