import CpenLabs.FsmMaster

/-!
# The keyboard controller and the controls of the player

`Keyboard_Ctrl` of Lab2/Kayboard_Ctrl.sv turns the ASCII code of the last key into
the direction, play and reset inputs of FSM_master. Only the reset key is qualified
by the data-ready strobe; the other keys act for as long as their code is present.
simple_ipod_solution.v returns the master's finish output as `read_finish`.

The six-bit encodings drive the three outputs. As for the master, the register
starts in a named state and is only assigned named states.
-/

namespace CpenLabs.KeyboardCtrl

/-- `state_type`. -/
inductive StateType
  | resetForward
  | resetBackward
  | idle
  | startForward
  | startBackward
  | pauseForward
  | pauseBackward
deriving DecidableEq, Repr

/-- The six-bit value of each state. -/
def StateType.encoding : StateType → BitVec 6
  | resetForward  => 0b001111#6
  | resetBackward => 0b010011#6
  | idle          => 0b000100#6
  | startForward  => 0b011110#6
  | startBackward => 0b100010#6
  | pauseForward  => 0b101100#6
  | pauseBackward => 0b110000#6

/-- `assign dir = state[2]`. -/
def StateType.dir (state : StateType) : Bool := state.encoding.getLsbD 2

/-- `assign play = state[1]`. -/
def StateType.play (state : StateType) : Bool := state.encoding.getLsbD 1

/-- `assign rst = state[0]`. -/
def StateType.rst (state : StateType) : Bool := state.encoding.getLsbD 0

def characterB : BitVec 8 := 0x42#8
def characterD : BitVec 8 := 0x44#8
def characterE : BitVec 8 := 0x45#8
def characterF : BitVec 8 := 0x46#8
def characterR : BitVec 8 := 0x52#8

/-- The inputs of one clock cycle. -/
structure Input where
  kbdReceivedAsciiCode : BitVec 8
  kbdDataReady : Bool
  readFinish : Bool

/-- The reset key with its strobe, the first condition of the `always_ff` block. -/
def resetKey (code : BitVec 8) (dataReady : Bool) : Bool := code == characterR && dataReady

/-- The `always_ff` block: the state after the rising edge. The state
`Reset_Backward` tests the constant `Start_Forward`, where its forward counterpart
tests `read_finish`. -/
def step (input : Input) (state : StateType) : StateType :=
  let code := input.kbdReceivedAsciiCode
  if resetKey code input.kbdDataReady then
    if state = .idle then .idle
    else if state.dir then .resetForward
    else .resetBackward
  else
    match state with
    | .idle =>
        if code = characterE then .startForward
        else if code = characterB then .pauseBackward
        else .idle
    | .startForward =>
        if code = characterB then .startBackward
        else if code = characterD then .pauseForward
        else .startForward
    | .startBackward =>
        if code = characterF then .startForward
        else if code = characterD then .pauseBackward
        else .startBackward
    | .pauseForward =>
        if code = characterE then .startForward
        else if code = characterB then .pauseBackward
        else .pauseForward
    | .pauseBackward =>
        if code = characterE then .startBackward
        else if code = characterF then .pauseForward
        else .pauseBackward
    | .resetForward => if input.readFinish then .startForward else .resetForward
    | .resetBackward =>
        if StateType.startForward.encoding ≠ 0 then .startBackward else .resetBackward

end CpenLabs.KeyboardCtrl

namespace CpenLabs.Controls

/-- Keyboard_Ctrl and FSM_master as wired in simple_ipod_solution.v. -/
structure Registers where
  keyboard : KeyboardCtrl.StateType
  master : FsmMaster.Registers

/-- The signals from outside the two machines. -/
structure Input where
  kbdReceivedAsciiCode : BitVec 8
  kbdDataReady : Bool
  edgeClk : Bool
  slaveFinish : Bool
  flashMemData : BitVec 32

/-- The master's inputs: rst is restart, dir is dir, play is play. -/
def masterInput (input : Input) (registers : Registers) : FsmMaster.Input where
  edgeClk := input.edgeClk
  restart := registers.keyboard.rst
  play := registers.keyboard.play
  dir := registers.keyboard.dir
  slaveFinish := input.slaveFinish
  flashMemData := input.flashMemData

/-- The keyboard's inputs: the master's finish is read_finish. -/
def keyboardInput (input : Input) (registers : Registers) : KeyboardCtrl.Input where
  kbdReceivedAsciiCode := input.kbdReceivedAsciiCode
  kbdDataReady := input.kbdDataReady
  readFinish := registers.master.state.finish

/-- Both machines at the rising edge of CLK_50M. -/
def step (input : Input) (registers : Registers) : Registers where
  keyboard := KeyboardCtrl.step (keyboardInput input registers) registers.keyboard
  master := FsmMaster.step (masterInput input registers) registers.master

/-- Both declared initial states; the address and sample registers have none. -/
def PowerUp (registers : Registers) : Prop :=
  registers.keyboard = .idle ∧ registers.master.state = .idle

end CpenLabs.Controls
