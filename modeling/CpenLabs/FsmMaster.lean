import CpenLabs.Clocked

/-!
# The flash address and sample state machine

`FSM_master` of Lab2/FSM_Master.sv asks the slave for a flash word, waits for its
finish pulse, and passes the two halves of the word to the audio output at two
pulses of the 22 kHz edge signal. It then steps the address by one word, forwards
or backwards, or reloads it when a restart is requested.

The enumeration's five-bit encodings drive two outputs. The state register is
declared with the value `idle` and only ever assigned a named state, so that the
default branch of the case statement is not reached and needs no counterpart.
-/

namespace CpenLabs.FsmMaster

/-- `stateType`. -/
inductive StateType
  | idle
  | startReadAddr
  | waitReadAddr
  | waitBerctLsb
  | transferBerctLsb
  | waitBerctMsb
  | transferBerctMsb
  | finished
deriving DecidableEq, Repr

/-- The five-bit value of each state. -/
def StateType.encoding : StateType → BitVec 5
  | idle             => 0b00000#5
  | startReadAddr    => 0b00110#5
  | waitReadAddr     => 0b01000#5
  | waitBerctLsb     => 0b11000#5
  | transferBerctLsb => 0b01100#5
  | waitBerctMsb     => 0b11100#5
  | transferBerctMsb => 0b10000#5
  | finished         => 0b10101#5

/-- `assign finish = state[0]`. -/
def StateType.finish (state : StateType) : Bool := state.encoding.getLsbD 0

/-- `assign slave_start = state[1]`. -/
def StateType.slaveStart (state : StateType) : Bool := state.encoding.getLsbD 1

/-- The registers of the module. -/
structure Registers where
  state : StateType
  addr : BitVec 23
  audioSignal : BitVec 16

/-- The inputs of one clock cycle. -/
structure Input where
  edgeClk : Bool
  restart : Bool
  play : Bool
  dir : Bool
  slaveFinish : Bool
  flashMemData : BitVec 32

/-- `flash_mem_data[15:0]` and `flash_mem_data[31:16]`. -/
inductive Half
  | low
  | high
deriving DecidableEq, Repr

/-- The bits a half selects. -/
def Half.of (word : BitVec 32) : Half → BitVec 16
  | low => word.extractLsb' 0 16
  | high => word.extractLsb' 16 16

/-- The half that the edge ending this cycle assigns to `audio_signal`, in the two
transfer states. -/
def selected (dir : Bool) : StateType → Option Half
  | .transferBerctLsb => some (if dir then .low else .high)
  | .transferBerctMsb => some (if dir then .high else .low)
  | _ => none

/-- The address after the state `Finished`. -/
def nextAddr (dir restart : Bool) (addr : BitVec 23) : BitVec 23 :=
  match dir with
  | true => if restart then 0 else if addr < 0x7FFFF#23 then addr + 1 else 0
  | false => if restart then 0x7FFFF#23 else if addr > 0 then addr - 1 else 0x7FFFF#23

/-- The `always` block: the registers after the rising edge. -/
def step (input : Input) (registers : Registers) : Registers :=
  match registers.state with
  | .idle => if input.play then { registers with state := .startReadAddr } else registers
  | .startReadAddr => { registers with state := .waitReadAddr }
  | .waitReadAddr => if input.slaveFinish then { registers with state := .waitBerctLsb } else registers
  | .waitBerctLsb => if input.edgeClk then { registers with state := .transferBerctLsb } else registers
  | .transferBerctLsb =>
      { registers with
        audioSignal := if input.dir then Half.low.of input.flashMemData
          else Half.high.of input.flashMemData
        state := .waitBerctMsb }
  | .waitBerctMsb => if input.edgeClk then { registers with state := .transferBerctMsb } else registers
  | .transferBerctMsb =>
      { registers with
        audioSignal := if input.dir then Half.high.of input.flashMemData
          else Half.low.of input.flashMemData
        state := .finished }
  | .finished =>
      { registers with state := .idle, addr := nextAddr input.dir input.restart registers.addr }

/-- The state after the rising edge. -/
def nextState (input : Input) : StateType → StateType
  | .idle => if input.play then .startReadAddr else .idle
  | .startReadAddr => .waitReadAddr
  | .waitReadAddr => if input.slaveFinish then .waitBerctLsb else .waitReadAddr
  | .waitBerctLsb => if input.edgeClk then .transferBerctLsb else .waitBerctLsb
  | .transferBerctLsb => .waitBerctMsb
  | .waitBerctMsb => if input.edgeClk then .transferBerctMsb else .waitBerctMsb
  | .transferBerctMsb => .finished
  | .finished => .idle

@[simp] theorem step_state (input : Input) (registers : Registers) :
    (step input registers).state = nextState input registers.state := by
  cases current : registers.state <;>
    simp only [step, nextState, current, apply_ite Registers.state]

/-- The direction, the restart request and the data never choose a transition. -/
theorem nextState_congr (left right : Input) (state : StateType) (play : left.play = right.play)
    (slaveFinish : left.slaveFinish = right.slaveFinish) (edgeClk : left.edgeClk = right.edgeClk) :
    nextState left state = nextState right state := by
  cases state <;> simp only [nextState, play, slaveFinish, edgeClk]

/-- The address register is written in `Finished` alone. -/
@[simp] theorem step_addr (input : Input) (registers : Registers) :
    (step input registers).addr =
      if registers.state = .finished then nextAddr input.dir input.restart registers.addr
      else registers.addr := by
  cases current : registers.state <;>
    simp only [step, current, apply_ite Registers.addr, ite_self, reduceCtorEq, ↓reduceIte]

/-- The sample register takes the selected half of the word on the data input, and
keeps its value in every other state. -/
theorem step_audioSignal (input : Input) (registers : Registers) :
    (step input registers).audioSignal =
      ((selected input.dir registers.state).map (Half.of input.flashMemData)).getD
        registers.audioSignal := by
  cases current : registers.state <;>
    simp only [step, selected, current, apply_ite Registers.audioSignal, ite_self,
      Option.map_none, Option.map_some, Option.getD_none, Option.getD_some]
  all_goals cases input.dir <;> rfl

/-- The edge assigns a half of the word to the sample register: it takes this half of
whatever word is on the data input. -/
def Assigns (input : Input) (registers : Registers) (half : Half) : Prop :=
  ∀ word, (step { input with flashMemData := word } registers).audioSignal = half.of word

/-- The edge assigns nothing to it: it keeps its value, whatever word is there. -/
def Keeps (input : Input) (registers : Registers) : Prop :=
  ∀ word, (step { input with flashMemData := word } registers).audioSignal = registers.audioSignal

/-- The two halves of a word need not be equal. -/
theorem Half.of_injective {half other : Half} (same : ∀ word, half.of word = other.of word) :
    half = other := by
  have apart := same 0xFFFF
  cases half <;> cases other <;> first | rfl | exact absurd apart (by decide)

/-- No value of the register is a half of every word. -/
theorem Half.of_moves (half : Half) (value : BitVec 16) : ¬ ∀ word, value = half.of word := by
  intro same
  have zero := (same 0).symm.trans (same 0xFFFFFFFF)
  cases half <;> exact absurd zero (by decide)

/-- The assignments are those of `selected`. -/
theorem assigns_iff (input : Input) (registers : Registers) (half : Half) :
    Assigns input registers half ↔ selected input.dir registers.state = some half := by
  simp only [Assigns, step_audioSignal]
  cases selected input.dir registers.state with
  | none => exact iff_of_false (half.of_moves registers.audioSignal) nofun
  | some other =>
    rw [Option.some.injEq]
    exact ⟨Half.of_injective, fun same word => same ▸ rfl⟩

/-- Where it selects nothing, nothing is assigned. -/
theorem keeps_iff (input : Input) (registers : Registers) :
    Keeps input registers ↔ selected input.dir registers.state = none := by
  simp only [Keeps, step_audioSignal]
  cases selected input.dir registers.state with
  | none => exact iff_of_true (fun _ => rfl) rfl
  | some other =>
    exact iff_of_false (fun kept => other.of_moves _ fun word => (kept word).symm) nofun

end CpenLabs.FsmMaster
