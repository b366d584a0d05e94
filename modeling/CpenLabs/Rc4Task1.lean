import CpenLabs.Rc4Fsm

/-!
# The initialisation circuit of the first task

rc4_task1 has only the initialisation loop of rc4_FSM, on a memory of the same kind,
with a state register of three bits whose lowest bit is the write enable. It returns
to its idle state after the loop and then begins again.

The two loops are the same machine: each state of rc4_task1 up to the end of its loop
has a counterpart in rc4_FSM, and a clock edge takes counterparts to counterparts.
What the first loop of rc4_FSM leaves in the memory is therefore also what this
circuit leaves. The output port of the memory, which the code declares one bit wide
and reads nowhere, is not represented beyond the memory's own output.
-/

namespace CpenLabs.Rc4Task1

open Clocked

/-- The values that the case statement has a branch for. -/
def named : List (BitVec 3) := [0b000, 0b011, 0b101, 0b110]

/-- The values of the state register, told apart as the case statement does. -/
inductive StateType
  | idle
  | initCounter
  | counterIncrement
  | finish
  | default (code : BitVec 3) (unnamed : code ∉ named)
deriving DecidableEq

/-- The three bits of each state. -/
def StateType.encoding : StateType → BitVec 3
  | idle             => 0b000#3
  | initCounter      => 0b011#3
  | counterIncrement => 0b101#3
  | finish           => 0b110#3
  | default code _   => code

/-- `assign wren = state[0]`. -/
def StateType.wren (state : StateType) : Bool := state.encoding.getLsbD 0

/-- The registers of rc4_task1. -/
structure Registers where
  state : StateType
  address : BitVec 8
  data : BitVec 8
  counter : BitVec 8

/-- A rising clock edge. -/
def next (registers : Registers) : Registers :=
  match registers.state with
  | .idle => { registers with state := .initCounter }
  | .initCounter => { registers with counter := 0, state := .counterIncrement }
  | .counterIncrement =>
      { registers with
        data := registers.counter
        address := registers.counter
        counter := registers.counter + 1
        state := if registers.counter = 255 then .finish else .counterIncrement }
  | .finish => { registers with state := .idle }
  | .default _ _ => { registers with state := .idle }

/-- The circuit: rc4_task1 and its memory. -/
structure Circuit where
  task : Registers
  memory : SMemory.Ram

/-- One clock cycle. The circuit has no inputs that it reads. -/
def step (_ : Unit) (circuit : Circuit) : Circuit where
  task := next circuit.task
  memory := SMemory.step circuit.task.address circuit.task.data circuit.task.state.wren circuit.memory

/-- The circuit in each clock cycle. -/
abbrev machine (start : Circuit) (cycle : Nat) : Circuit := run step (fun _ => ()) start cycle

theorem machine_succ (start : Circuit) (cycle : Nat) :
    machine start (cycle + 1) = step () (machine start cycle) := rfl

section Counterpart

/-- The states of the two machines that do the same work. -/
inductive Counterpart : StateType → Rc4Fsm.StateType → Prop
  | idle : Counterpart .idle .idle
  | initCounter : Counterpart .initCounter .loop1Init
  | counterIncrement : Counterpart .counterIncrement .loop1Main
  | finish : Counterpart .finish .loop1Done

/-- Both circuits are at the same point of the same loop. -/
structure Agree (task : Circuit) (fsm : Rc4Fsm.Circuit) : Prop where
  state : Counterpart task.task.state fsm.fsm.state
  address : task.task.address = fsm.fsm.address
  data : task.task.data = fsm.fsm.data
  counter : task.task.counter = fsm.fsm.counterI
  memory : task.memory = fsm.memory

/-- The write enables of counterparts agree, although they are different bits of
different encodings. -/
theorem Counterpart.wren {task : StateType} {fsm : Rc4Fsm.StateType} (counterpart : Counterpart task fsm) :
    task.wren = fsm.wren := by
  cases counterpart <;> decide

/-- One circuit has finished its loop when the other has. -/
theorem Counterpart.finish_iff {task : StateType} {fsm : Rc4Fsm.StateType}
    (counterpart : Counterpart task fsm) : task = .finish ↔ fsm = .loop1Done := by
  cases counterpart <;> decide

/-- A clock edge keeps the agreement until the loop is over. -/
theorem agree_step (secretKey : BitVec 24) (task : Circuit) (fsm : Rc4Fsm.Circuit)
    (agree : Agree task fsm) (looping : fsm.fsm.state ≠ .loop1Done) :
    Agree (step () task) (Rc4Fsm.step secretKey fsm) := by
  obtain ⟨state, address, data, counter, memory⟩ := agree
  have written : (step () task).memory = (Rc4Fsm.step secretKey fsm).memory := by
    simp only [step, Rc4Fsm.step, state.wren, address, data, memory]
  generalize taskState : task.task.state = left at state
  generalize fsmState : fsm.fsm.state = right at state looping
  cases state with
  | idle =>
    refine ⟨?_, ?_, ?_, ?_, written⟩ <;>
      simp only [step, next, Rc4Fsm.step, Rc4Fsm.next, taskState, fsmState, address, data, counter]
    exact .initCounter
  | initCounter =>
    refine ⟨?_, ?_, ?_, ?_, written⟩ <;>
      simp only [step, next, Rc4Fsm.step, Rc4Fsm.next, taskState, fsmState, address, data]
    exact .counterIncrement
  | counterIncrement =>
    refine ⟨?_, ?_, ?_, ?_, written⟩ <;>
      simp only [step, next, Rc4Fsm.step, Rc4Fsm.next, taskState, fsmState, counter]
    split_ifs
    · exact .finish
    · exact .counterIncrement
  | finish => exact absurd rfl looping

/-- The two circuits agree throughout the loop. -/
theorem agree_run (secretKey : BitVec 24) (task : Circuit) (fsm : Rc4Fsm.Circuit)
    (agree : Agree task fsm) (count : Nat)
    (looping : ∀ cycle, cycle < count → (Rc4Fsm.machine secretKey fsm cycle).fsm.state ≠ .loop1Done) :
    Agree (machine task count) (Rc4Fsm.machine secretKey fsm count) := by
  induction count with
  | zero => exact agree
  | succ count inductionHypothesis =>
    have before := inductionHypothesis fun cycle earlier => looping cycle (by omega)
    exact agree_step secretKey _ _ before (looping count (by omega))

end Counterpart

end CpenLabs.Rc4Task1
