import CpenLabs.FsmMaster

/-!
# The flash read state machine and the player's core

`FSM_Slave` of Lab2/Slave.sv answers a start pulse with one pass through its states:
it raises the Avalon-MM read signal, waits for waitrequest to fall, and reports with
a finish pulse. The word itself is captured separately, at a rising edge of the
flash's readdatavalid and independently of the state.

readdatavalid and readdata come from registers of the same clock. A rising edge
therefore lies at the beginning of a cycle, and the captured word is on the master's
data input already in that cycle.
-/

namespace CpenLabs.FsmSlave

/-- The enumeration of the state register. -/
inductive StateType
  | idle
  | handleReadOp
  | waitRead
  | strobeRead
  | finished
deriving DecidableEq, Repr

/-- The five-bit value of each state. -/
def StateType.encoding : StateType → BitVec 5
  | idle         => 0b00000#5
  | handleReadOp => 0b00110#5
  | waitRead     => 0b01010#5
  | strobeRead   => 0b01110#5
  | finished     => 0b10001#5

/-- `assign read = state[1]`. -/
def StateType.read (state : StateType) : Bool := state.encoding.getLsbD 1

/-- `assign finish = state[0]`. -/
def StateType.finish (state : StateType) : Bool := state.encoding.getLsbD 0

/-- The registers of the module, and the level of ready_to_read in the cycle before,
against which a rising edge is seen. -/
structure Registers where
  state : StateType
  returnData : BitVec 32
  readyToRead : Bool

/-- The inputs of one clock cycle. -/
structure Input where
  start : Bool
  readyToRead : Bool
  waitrequest : Bool
  flashData : BitVec 32

/-- The second `always_ff` block: return_data during a cycle. -/
def returnDataNow (input : Input) (registers : Registers) : BitVec 32 :=
  if input.readyToRead && !registers.readyToRead then input.flashData else registers.returnData

/-- The first `always_ff` block: the state after the rising edge of the clock. -/
def nextState (input : Input) : StateType → StateType
  | .idle => if input.start then .handleReadOp else .idle
  | .handleReadOp => .waitRead
  | .waitRead => if !input.waitrequest then .strobeRead else .waitRead
  | .strobeRead => .finished
  | .finished => .idle

/-- The flash's answers never choose a transition. -/
theorem nextState_congr (left right : Input) (state : StateType) (start : left.start = right.start)
    (waitrequest : left.waitrequest = right.waitrequest) :
    nextState left state = nextState right state := by
  cases state <;> simp only [nextState, start, waitrequest]

/-- Both blocks over one clock cycle. -/
def step (input : Input) (registers : Registers) : Registers where
  state := nextState input registers.state
  returnData := returnDataNow input registers
  readyToRead := input.readyToRead

end CpenLabs.FsmSlave

namespace CpenLabs.Player

/-- The instances `Flash` of FSM_Slave and `Address_ctrl` of FSM_master. -/
structure Registers where
  master : FsmMaster.Registers
  slave : FsmSlave.Registers

/-- The signals from outside the two machines. -/
structure Input where
  play : Bool
  dir : Bool
  restart : Bool
  edgeClk : Bool
  waitrequest : Bool
  readdatavalid : Bool
  readdata : BitVec 32

/-- The slave's inputs: start_slave comes from the master, the rest from the flash. -/
def slaveInput (input : Input) (registers : Registers) : FsmSlave.Input where
  start := registers.master.state.slaveStart
  readyToRead := input.readdatavalid
  waitrequest := input.waitrequest
  flashData := input.readdata

/-- The master's inputs: slave_finish and return_data come from the slave. -/
def masterInput (input : Input) (registers : Registers) : FsmMaster.Input where
  edgeClk := input.edgeClk
  restart := input.restart
  play := input.play
  dir := input.dir
  slaveFinish := registers.slave.state.finish
  flashMemData := FsmSlave.returnDataNow (slaveInput input registers) registers.slave

/-- Both machines at the rising edge of CLK_50M. -/
def step (input : Input) (registers : Registers) : Registers where
  master := FsmMaster.step (masterInput input registers) registers.master
  slave := FsmSlave.step (slaveInput input registers) registers.slave

/-- Power-up: both state machines in idle, the other registers with any content. -/
def powerUp (addr : BitVec 23) (audioSignal : BitVec 16) (returnData : BitVec 32)
    (readyToRead : Bool) : Registers where
  master := { state := .idle, addr := addr, audioSignal := audioSignal }
  slave := { state := .idle, returnData := returnData, readyToRead := readyToRead }

end CpenLabs.Player
