import CpenLabs.LostByte

/-!
# The read pipeline of the second loop

An iteration of the second loop puts counter_i into the address register in Loop2_start
and once more in Loop2_read_i, and takes the byte from the memory in Loop2_read_j. The
memory samples the address at the clock edge and answers with a byte of its own; the
write enable belongs to the states Loop2_swap_j and Loop2_swap_i, which lie after the
read. So the byte that is taken is the current entry at counter_i, beside the byte of
the key that belongs to it.

That holds in any run that has come through Loop2_start, whatever the memory and the
registers held there, and in all its later passes. What an iteration then does with the
byte is the subject of the modules on the swap.
-/

namespace CpenLabs.ReadPipeline

open Clocked Rc4Fsm

variable (secretKey : BitVec 24)

/-- The byte of the key that belongs to the iteration. -/
abbrev keyOf (counter : BitVec 8) : BitVec 8 := KeySchedule.keyByte secretKey (counter.toNat % 3)

/-- What has been prepared in each state between Loop2_start and the read. -/
def Aligned (circuit : Circuit) : Prop :=
  match circuit.fsm.state with
  | .loop2GetKey =>
      circuit.fsm.keyNum = BitVec.ofNat 2 (circuit.fsm.counterI.toNat % keyLength) ∧
        circuit.fsm.address = circuit.fsm.counterI
  | .loop2ReadI =>
      circuit.fsm.singleSecKey = keyOf secretKey circuit.fsm.counterI ∧
        circuit.memory.q = circuit.memory.words circuit.fsm.counterI
  | .loop2WaitI =>
      circuit.fsm.singleSecKey = keyOf secretKey circuit.fsm.counterI ∧
        circuit.fsm.address = circuit.fsm.counterI
  | .loop2ReadJ =>
      circuit.fsm.singleSecKey = keyOf secretKey circuit.fsm.counterI ∧
        circuit.memory.q = circuit.memory.words circuit.fsm.counterI
  | _ => True

/-- The read of an iteration, and what the clock edge makes of it: the byte shown is the
current entry at counter_i, the key register holds the key byte of the iteration, and the
edge stores the entry and advances counter_j by both. -/
structure AlignedRead (now after : Circuit) : Prop where
  shown : now.memory.q = now.memory.words now.fsm.counterI
  key : now.fsm.singleSecKey = keyOf secretKey now.fsm.counterI
  stored : after.fsm.dataI = now.memory.words now.fsm.counterI
  advanced : after.fsm.counterJ =
    now.fsm.counterJ + now.memory.words now.fsm.counterI + keyOf secretKey now.fsm.counterI

/-- A memory that is not written shows the entry at the sampled address. -/
theorem read_unwritten (address data : BitVec 8) (ram : SMemory.Ram) :
    SMemory.step address data false ram = { words := ram.words, q := ram.words address } := rfl

/-- One clock edge keeps the pipeline aligned. The states before the read have the write
enable low, and all others prepare nothing. -/
theorem aligned_step (circuit : Circuit) (aligned : Aligned secretKey circuit) :
    Aligned secretKey (step secretKey circuit) := by
  cases here : circuit.fsm.state with
  | loop2Start => simp only [Aligned, step, next, here, and_self]
  | loop2GetKey =>
    simp only [Aligned, here] at aligned
    obtain ⟨number, address⟩ := aligned
    have unwritten : StateType.loop2GetKey.wren = false := by decide
    simp only [Aligned, step, next, here, number, address, unwritten, read_unwritten, keyOf, keyLength,
      LostByte.keySelect_keyByte, and_self]
  | loop2ReadI =>
    simp only [Aligned, here] at aligned
    simp only [Aligned, step, next, here, aligned.1, and_self]
  | loop2WaitI =>
    simp only [Aligned, here] at aligned
    obtain ⟨key, address⟩ := aligned
    have unwritten : StateType.loop2WaitI.wren = false := by decide
    simp only [Aligned, step, next, here, key, address, unwritten, read_unwritten, and_self]
  | loop1Main | loop2Done =>
    by_cases last : circuit.fsm.counterI = 255 <;>
      simp only [Aligned, step, next, here, last, ↓reduceIte]
  | idle | loop1Init | loop1Done | loop2Init | loop2ReadJ | loop2WaitJ | loop2GetJ | loop2SwapJ | loop2SwapI
  | finish | default => simp only [Aligned, step, next, here]

section Runs

variable (start : Circuit) (first : Nat)

/-- A run that has come through Loop2_start is aligned from there on. -/
theorem aligned_run (enters : (machine secretKey start first).fsm.state = .loop2Start) (later : Nat) :
    Aligned secretKey (machine secretKey start (first + later)) := by
  rw [machine_add]
  induction later with
  | zero => simp only [run_zero, Aligned, enters]
  | succ later inductionHypothesis => exact aligned_step secretKey _ inductionHypothesis

/-- From any visit to Loop2_start on, every cycle in Loop2_read_j reads what belongs to its
iteration. -/
theorem read_pipeline (enters : (machine secretKey start first).fsm.state = .loop2Start) (cycle : Nat)
    (after : first ≤ cycle) (reads : (machine secretKey start cycle).fsm.state = .loop2ReadJ) :
    AlignedRead secretKey (machine secretKey start cycle) (machine secretKey start (cycle + 1)) := by
  obtain ⟨later, rfl⟩ := Nat.exists_eq_add_of_le after
  have aligned := aligned_run secretKey start first enters later
  rw [machine_succ]
  generalize machine secretKey start (first + later) = circuit at aligned reads ⊢
  simp only [Aligned, reads] at aligned
  obtain ⟨key, shown⟩ := aligned
  refine ⟨shown, key, ?_, ?_⟩
  · simp only [step, next, reads, shown]
  · simp only [step, next, reads, shown, key]
    rw [BitVec.add_assoc, BitVec.add_assoc, BitVec.add_comm (keyOf secretKey _)]

end Runs

/-- A circuit in Loop2_start with stale address, data and key registers. -/
def stale : Circuit where
  fsm :=
    { state := .loop2Start, address := 7, data := 9, counterI := 254, counterJ := 3, keyNum := 3,
      singleSecKey := 5, dataI := 1, dataJ := 2 }
  memory := { words := fun place => 255 - place, q := 8 }

/-- The second iteration of this run reads in cycle 14. -/
theorem read_pipeline_stale :
    AlignedRead wiredKey (machine wiredKey stale 14) (machine wiredKey stale 15) :=
  read_pipeline wiredKey stale 0 rfl 14 (by decide) (by decide +kernel)

end CpenLabs.ReadPipeline
