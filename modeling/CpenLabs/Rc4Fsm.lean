import CpenLabs.Clocked
import Mathlib.Logic.Function.Basic

/-!
# The key schedule circuit of rc4_FSM

rc4_FSM drives one port of s_memory, a synchronous memory of 256 bytes. The memory
samples address, data and write enable at the rising edge of the clock; the word it
then shows on q is the one at the sampled address, after the write. The write enable
is bit 1 of the state, so that a write happens in the states that have it set, with
the address and the data that an earlier state has put into the registers.

The state register has seven bits, and the case statement has a default branch for
the values without a name. The display and the message memory, which no state
drives, are not represented.
-/

namespace CpenLabs.SMemory

/-- The contents and the word on the output. -/
structure Ram where
  words : BitVec 8 → BitVec 8
  q : BitVec 8

/-- A rising clock edge. -/
def step (address data : BitVec 8) (wren : Bool) (ram : Ram) : Ram :=
  let words := if wren then Function.update ram.words address data else ram.words
  { words := words, q := words address }

end CpenLabs.SMemory

namespace CpenLabs.Rc4Fsm

open Clocked

/-- The values that the case statement has a branch for. Loop2_sum is declared, but
has none. -/
def named : List (BitVec 7) :=
  [0b0000000, 0b0000110, 0b0001010, 0b0100100, 0b0001100, 0b0010000, 0b1100100, 0b1000100, 0b1001000,
    0b1001100, 0b1010000, 0b1011100, 0b1010110, 0b1011010, 0b1100000, 0b0100000]

/-- The values of the state register, told apart as the case statement does. -/
inductive StateType
  | idle
  | loop1Init
  | loop1Main
  | loop1Done
  | loop2Init
  | loop2Start
  | loop2GetKey
  | loop2ReadI
  | loop2WaitI
  | loop2ReadJ
  | loop2WaitJ
  | loop2GetJ
  | loop2SwapJ
  | loop2SwapI
  | loop2Done
  | finish
  | default (code : BitVec 7) (unnamed : code ∉ named)
deriving DecidableEq

/-- The seven bits of each state. -/
def StateType.encoding : StateType → BitVec 7
  | idle           => 0b0000000#7
  | loop1Init      => 0b0000110#7
  | loop1Main      => 0b0001010#7
  | loop1Done      => 0b0100100#7
  | loop2Init      => 0b0001100#7
  | loop2Start     => 0b0010000#7
  | loop2GetKey    => 0b1100100#7
  | loop2ReadI     => 0b1000100#7
  | loop2WaitI     => 0b1001000#7
  | loop2ReadJ     => 0b1001100#7
  | loop2WaitJ     => 0b1010000#7
  | loop2GetJ      => 0b1011100#7
  | loop2SwapJ     => 0b1010110#7
  | loop2SwapI     => 0b1011010#7
  | loop2Done      => 0b1100000#7
  | finish         => 0b0100000#7
  | default code _ => code

/-- `assign wren = state[1]`. -/
def StateType.wren (state : StateType) : Bool := state.encoding.getLsbD 1

/-- `Key_length`. -/
def keyLength : Nat := 3

/-- The registers of rc4_FSM. -/
structure Registers where
  state : StateType
  address : BitVec 8
  data : BitVec 8
  counterI : BitVec 8
  counterJ : BitVec 8
  keyNum : BitVec 2
  singleSecKey : BitVec 8
  dataI : BitVec 8
  dataJ : BitVec 8

/-- The byte of the secret key that a key number selects. -/
def keySelect (secretKey : BitVec 24) (keyNum : BitVec 2) : BitVec 8 :=
  if keyNum = 0 then secretKey.extractLsb' 16 8
  else if keyNum = 1 then secretKey.extractLsb' 8 8
  else if keyNum = 2 then secretKey.extractLsb' 0 8
  else 0

/-- A rising clock edge, with the word that the memory shows before it. -/
def next (secretKey : BitVec 24) (q : BitVec 8) (registers : Registers) : Registers :=
  match registers.state with
  | .idle => { registers with state := .loop1Init }
  | .loop1Init => { registers with counterI := 0, state := .loop1Main }
  | .loop1Main =>
      { registers with
        data := registers.counterI
        address := registers.counterI
        counterI := registers.counterI + 1
        state := if registers.counterI = 255 then .loop1Done else .loop1Main }
  | .loop1Done => { registers with state := .loop2Init }
  | .loop2Init => { registers with counterJ := 0, counterI := 0, state := .loop2Start }
  | .loop2Start =>
      { registers with
        keyNum := BitVec.ofNat 2 (registers.counterI.toNat % keyLength)
        state := .loop2GetKey
        address := registers.counterI }
  | .loop2GetKey =>
      { registers with singleSecKey := keySelect secretKey registers.keyNum, state := .loop2ReadI }
  | .loop2ReadI => { registers with address := registers.counterI, state := .loop2WaitI }
  | .loop2WaitI => { registers with state := .loop2ReadJ }
  | .loop2ReadJ =>
      { registers with
        dataI := q
        counterJ := registers.counterJ + registers.singleSecKey + q
        -- counter_j is read before the assignment above takes effect.
        address := registers.counterJ
        state := .loop2WaitJ }
  | .loop2WaitJ => { registers with state := .loop2GetJ }
  | .loop2GetJ => { registers with dataJ := q, state := .loop2SwapJ }
  | .loop2SwapJ =>
      { registers with data := registers.dataJ, address := registers.counterI, state := .loop2SwapI }
  | .loop2SwapI =>
      { registers with data := registers.dataI, address := registers.counterJ, state := .loop2Done }
  | .loop2Done =>
      { registers with
        counterI := registers.counterI + 1
        state := if registers.counterI = 255 then .finish else .loop2Start }
  | .finish => { registers with state := .idle }
  | .default _ _ => { registers with state := .idle }

/-- The circuit: rc4_FSM and its memory. -/
structure Circuit where
  fsm : Registers
  memory : SMemory.Ram

/-- One clock cycle under the value of the secret_key wires. -/
def step (secretKey : BitVec 24) (circuit : Circuit) : Circuit where
  fsm := next secretKey circuit.memory.q circuit.fsm
  memory := SMemory.step circuit.fsm.address circuit.fsm.data circuit.fsm.state.wren circuit.memory

/-- The circuit in each clock cycle. The secret_key wires keep their value. -/
abbrev machine (secretKey : BitVec 24) (start : Circuit) (cycle : Nat) : Circuit :=
  run step (fun _ => secretKey) start cycle

theorem machine_succ (secretKey : BitVec 24) (start : Circuit) (cycle : Nat) :
    machine secretKey start (cycle + 1) = step secretKey (machine secretKey start cycle) := rfl

/-- The circuit is in each cycle where a run from an earlier one gets to. -/
theorem machine_add (secretKey : BitVec 24) (start : Circuit) (first later : Nat) :
    machine secretKey start (first + later) = machine secretKey (machine secretKey start first) later :=
  run_add step (fun _ => secretKey) start first later

/-- The value of `assign secret_key`, in its two parts. -/
def wiredKey : BitVec 24 := 0b10_01001001#24

/-- Every value of the state register is a state, and no two states share one. -/
theorem encoding_bijective : Function.Bijective StateType.encoding := by
  constructor
  · intro left right same
    have inside : ∀ {code : BitVec 7} {state : StateType}, code ∉ named → state.encoding = code →
        ∀ known : state.encoding ∈ named, False := fun unnamed same known => unnamed (same ▸ known)
    cases left <;> cases right <;>
      first
      | rfl
      | exact absurd same (by decide)
      | exact (inside ‹_› same (by decide)).elim
      | exact (inside ‹_› same.symm (by decide)).elim
      | exact (StateType.default.injEq ..).mpr same
  · intro code
    by_cases known : code ∈ named
    · revert code
      simp only [named, List.forall_mem_cons]
      exact ⟨⟨.idle, rfl⟩, ⟨.loop1Init, rfl⟩, ⟨.loop1Main, rfl⟩, ⟨.loop1Done, rfl⟩, ⟨.loop2Init, rfl⟩,
        ⟨.loop2Start, rfl⟩, ⟨.loop2GetKey, rfl⟩, ⟨.loop2ReadI, rfl⟩, ⟨.loop2WaitI, rfl⟩,
        ⟨.loop2ReadJ, rfl⟩, ⟨.loop2WaitJ, rfl⟩, ⟨.loop2GetJ, rfl⟩, ⟨.loop2SwapJ, rfl⟩,
        ⟨.loop2SwapI, rfl⟩, ⟨.loop2Done, rfl⟩, ⟨.finish, rfl⟩, by simp⟩
    · exact ⟨.default code known, rfl⟩

section Loop2

variable (secretKey : BitVec 24) (circuit : Circuit)

/-- The byte that the current round of the second loop adds to counter_j besides the
table entry. -/
def roundKey : BitVec 8 :=
  keySelect secretKey (BitVec.ofNat 2 (circuit.fsm.counterI.toNat % keyLength))

/-- One round of the second loop takes ten cycles. The index is advanced as the key
schedule has it, but address takes counter_j before it is advanced: the entry moved
to counter_i is the one at the previous index, and what is written there is the data
register of the round before. The entry read at counter_i stays in the data register,
for the next round to write. -/
theorem round (inStart : circuit.fsm.state = .loop2Start) :
    (machine secretKey circuit 10).fsm.state =
        (if circuit.fsm.counterI = 255 then .finish else .loop2Start) ∧
      (machine secretKey circuit 10).fsm.counterI = circuit.fsm.counterI + 1 ∧
      (machine secretKey circuit 10).fsm.counterJ =
        circuit.fsm.counterJ + roundKey secretKey circuit + circuit.memory.words circuit.fsm.counterI ∧
      (machine secretKey circuit 10).fsm.data = circuit.memory.words circuit.fsm.counterI ∧
      (machine secretKey circuit 10).fsm.address = (machine secretKey circuit 10).fsm.counterJ ∧
      (machine secretKey circuit 10).memory.words =
        Function.update (Function.update circuit.memory.words circuit.fsm.counterJ circuit.fsm.data)
          circuit.fsm.counterI (circuit.memory.words circuit.fsm.counterJ) := by
  simp [machine, step, next, inStart, SMemory.step, StateType.wren, StateType.encoding, roundKey]

end Loop2

end CpenLabs.Rc4Fsm
