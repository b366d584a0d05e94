import CpenLabs.KeySchedule
import CpenLabs.Rc4Fsm

/-!
# The byte that the key schedule circuit loses

The first loop of rc4_FSM runs its last write enable before the address register has
reached 255, so that the memory keeps at 255 what stood there before. The second loop
rotates three bytes in each round where the key schedule exchanges two: the entry at
counter_i, the entry at the previous index, and the data register. In the first round
both entries are the one at zero; the byte of the data register, which is 255, is
written there and overwritten in the next cycle.

From then on no place holds 255 unless the last place held it before. The key
schedule is a permutation and has every byte in it. Nothing is claimed here about
runs whose last place holds 255 at the start, but no key makes all runs agree.
-/

namespace CpenLabs.LostByte

open Clocked Rc4Fsm

/-- Both loops end with the counter at 255. -/
theorem last_iff (count : Nat) (inside : count ≤ 255) :
    BitVec.ofNat 8 count = 255 ↔ count = 255 := by
  constructor
  · intro same
    have values := congrArg BitVec.toNat same
    rw [BitVec.toNat_ofNat, Nat.mod_eq_of_lt (by omega)] at values
    exact values
  · rintro rfl
    rfl

section FirstLoop

variable (secretKey : BitVec 24) (start : Circuit)

/-- What the first loop leaves at 255: the initial content, unless the write enable of
Loop1_init happens to find the address register there. -/
def leftover : BitVec 8 :=
  if start.fsm.address = 255 then start.fsm.data else start.memory.words 255

/-- The contents after `count` writes of the first loop, and those that a stale address
and data register have caused before. -/
def initialised (count : Nat) (place : BitVec 8) : BitVec 8 :=
  if place.toNat < count then place
  else Function.update start.memory.words start.fsm.address start.fsm.data place

/-- One write of the first loop adds one entry of the identity. -/
theorem initialised_succ (count : Nat) (inside : count < 255) :
    Function.update (initialised start count) (BitVec.ofNat 8 count) (BitVec.ofNat 8 count) =
      initialised start (count + 1) := by
  funext place
  by_cases same : place = BitVec.ofNat 8 count
  · subst same
    have below : (BitVec.ofNat 8 count).toNat < count + 1 := by simp; omega
    simp only [Function.update_self, initialised, below, ↓reduceIte]
  · have apart : place.toNat ≠ count := fun equal => same (BitVec.eq_of_toNat_eq (by simp; omega))
    have bounds : place.toNat < count + 1 ↔ place.toNat < count := by omega
    simp only [Function.update_of_ne same, initialised, bounds]

/-- The first loop, seen when its address register holds `count`. -/
theorem loop1 (inIdle : start.fsm.state = .idle) (count : Nat) (inside : count ≤ 255) :
    (machine secretKey start (3 + count)).fsm.state =
        (if count = 255 then .loop1Done else .loop1Main) ∧
      (machine secretKey start (3 + count)).fsm.counterI = BitVec.ofNat 8 (count + 1) ∧
      (machine secretKey start (3 + count)).fsm.address = BitVec.ofNat 8 count ∧
      (machine secretKey start (3 + count)).fsm.data = BitVec.ofNat 8 count ∧
      (machine secretKey start (3 + count)).memory.words = initialised start count := by
  induction count with
  | zero =>
    have untouched : initialised start 0 =
        Function.update start.memory.words start.fsm.address start.fsm.data := by
      funext place
      simp [initialised]
    simp [machine, step, next, inIdle, SMemory.step, StateType.wren, StateType.encoding, untouched]
  | succ count inductionHypothesis =>
    obtain ⟨state, counter, address, data, words⟩ := inductionHypothesis (by omega)
    have running : count ≠ 255 := by omega
    rw [if_neg running] at state
    rw [← Nat.add_assoc, machine_add]
    refine ⟨?_, ?_, ?_, ?_, ?_⟩
    · simp only [machine, run_succ, run_zero, step, next, state, counter, last_iff (count + 1) inside]
    · simp only [machine, run_succ, run_zero, step, next, state, counter]
      exact (BitVec.ofNat_add ..).symm
    · simp only [machine, run_succ, run_zero, step, next, state, counter]
    · simp only [machine, run_succ, run_zero, step, next, state, counter]
    · have writing : StateType.loop1Main.wren = true := by decide
      simp only [machine, run_succ, run_zero, step, state, SMemory.step, writing, ↓reduceIte, address, data, words]
      exact initialised_succ start count (by omega)

/-- The identity but for the entry at 255. -/
def almostIdentity (last place : BitVec 8) : BitVec 8 := if place = 255 then last else place

/-- All writes of the first loop together make the identity but for the entry at 255. -/
theorem initialised_all : initialised start 255 = almostIdentity (leftover start) := by
  funext place
  by_cases atEnd : place = 255
  · subst atEnd
    simp [initialised, almostIdentity, leftover, Function.update_apply, eq_comm]
  · have below : place.toNat < 255 := by
      have apart : place.toNat ≠ 255 := fun equal => atEnd (BitVec.eq_of_toNat_eq equal)
      have := place.isLt
      omega
    simp only [initialised, almostIdentity, below, atEnd, ↓reduceIte]

/-- The second loop finds the identity but for the entry at 255. -/
theorem loop2_entry (inIdle : start.fsm.state = .idle) :
    (machine secretKey start 260).fsm.state = .loop2Start ∧
      (machine secretKey start 260).fsm.counterI = 0 ∧
      (machine secretKey start 260).fsm.counterJ = 0 ∧
      (machine secretKey start 260).fsm.data = 255 ∧
      (machine secretKey start 260).memory.words = almostIdentity (leftover start) := by
  obtain ⟨state, counter, address, data, words⟩ := loop1 secretKey start inIdle 255 (Nat.le_refl _)
  rw [if_pos rfl] at state
  rw [show 260 = 3 + 255 + 2 from rfl, machine_add]
  generalize machine secretKey start (3 + 255) = circuit at *
  simp [machine, step, next, state, SMemory.step, StateType.wren, StateType.encoding, data, words,
    initialised_all]

end FirstLoop

section SecondLoop

variable (secretKey : BitVec 24)

/-- What the second loop carries from one round to the next. -/
structure Rotation where
  table : BitVec 8 → BitVec 8
  index : BitVec 8
  carried : BitVec 8

/-- One round: the entry at the index moves to the round's number, the entry there is
carried on, and the byte carried so far takes the place at the index. The index is
advanced as in the key schedule. -/
def rotate (rotation : Rotation) (round : Nat) : Rotation :=
  let entry := BitVec.ofNat 8 round
  { table := Function.update (Function.update rotation.table rotation.index rotation.carried) entry
      (rotation.table rotation.index)
    index := rotation.index + KeySchedule.keyByte secretKey (round % 3) + rotation.table entry
    carried := rotation.table entry }

/-- The first rounds, from the almost identical table. -/
def rotations (last : BitVec 8) (count : Nat) : Rotation :=
  (List.range count).foldl (rotate secretKey) { table := almostIdentity last, index := 0, carried := 255 }

theorem rotations_succ (last : BitVec 8) (count : Nat) :
    rotations secretKey last (count + 1) = rotate secretKey (rotations secretKey last count) count := by
  simp only [rotations, List.range_succ, List.foldl_append, List.foldl_cons, List.foldl_nil]

/-- The key number of a round selects the key byte that the key schedule takes. -/
theorem keySelect_keyByte (round : Nat) :
    keySelect secretKey (BitVec.ofNat 2 (round % 3)) = KeySchedule.keyByte secretKey (round % 3) := by
  have below : round % 3 = 0 ∨ round % 3 = 1 ∨ round % 3 = 2 := by omega
  rcases below with remainder | remainder | remainder <;> rw [remainder] <;> rfl

/-- The second loop carries out the rotations, ten cycles for each. -/
theorem loop2 (start : Circuit) (inIdle : start.fsm.state = .idle) (count : Nat) (inside : count ≤ 256) :
    (machine secretKey start (260 + 10 * count)).fsm.state =
        (if count = 256 then .finish else .loop2Start) ∧
      (machine secretKey start (260 + 10 * count)).fsm.counterI = BitVec.ofNat 8 count ∧
      Rotation.mk (machine secretKey start (260 + 10 * count)).memory.words
          (machine secretKey start (260 + 10 * count)).fsm.counterJ
          (machine secretKey start (260 + 10 * count)).fsm.data =
        rotations secretKey (leftover start) count := by
  induction count with
  | zero =>
    obtain ⟨state, counterI, counterJ, data, words⟩ := loop2_entry secretKey start inIdle
    exact ⟨state, counterI, by rw [Nat.mul_zero, Nat.add_zero, words, counterJ, data]; rfl⟩
  | succ count inductionHypothesis =>
    obtain ⟨state, counterI, rotated⟩ := inductionHypothesis (by omega)
    have running : count ≠ 256 := by omega
    have last : count = 255 ↔ count + 1 = 256 := by omega
    have small : count % 256 = count := Nat.mod_eq_of_lt (by omega)
    rw [if_neg running] at state
    obtain ⟨after, counter, index, data, _, words⟩ := round secretKey _ state
    rw [Nat.mul_succ, ← Nat.add_assoc, machine_add]
    refine ⟨?_, ?_, ?_⟩
    · rw [after, counterI]
      simp only [last_iff count (by omega), last]
    · rw [counter, counterI]
      exact (BitVec.ofNat_add ..).symm
    · rw [rotations_succ, ← rotated, index, data, words, counterI]
      simp only [rotate, roundKey, counterI, keyLength, BitVec.toNat_ofNat, Nat.reducePow, small,
        keySelect_keyByte]

end SecondLoop

section Schedule

/-- The value stands neither in the table nor in the byte carried on. -/
def Lost (value : BitVec 8) (rotation : Rotation) : Prop :=
  (∀ place, rotation.table place ≠ value) ∧ rotation.carried ≠ value

/-- A rotation only moves bytes that the table or the carried byte hold. -/
theorem lost_rotate (secretKey : BitVec 24) (value : BitVec 8) (rotation : Rotation) (round : Nat)
    (lost : Lost value rotation) : Lost value (rotate secretKey rotation round) := by
  obtain ⟨absent, notCarried⟩ := lost
  refine ⟨fun place => ?_, absent _⟩
  simp only [rotate, Function.update_apply]
  split_ifs
  · exact absent _
  · exact notCarried
  · exact absent place

/-- The first rotation has its index and its number both zero, so that the entry there
is put back and the carried byte 255 is dropped. -/
theorem lost_first (secretKey : BitVec 24) (last : BitVec 8) (missing : last ≠ 255) :
    Lost 255 (rotations secretKey last 1) := by
  have absent : ∀ place, almostIdentity last place ≠ 255 := by
    intro place
    unfold almostIdentity
    split_ifs with atEnd
    · exact missing
    · exact atEnd
  have unchanged : (rotations secretKey last 1).table = almostIdentity last := by
    simp only [rotations_succ, rotate]
    exact (Function.update_idem ..).trans (Function.update_eq_self ..)
  exact ⟨fun place => unchanged ▸ absent place, absent 0⟩

/-- No later rotation brings the byte back. -/
theorem lost_rotations (secretKey : BitVec 24) (last : BitVec 8) (missing : last ≠ 255) (count : Nat) :
    Lost 255 (rotations secretKey last (count + 1)) := by
  induction count with
  | zero => exact lost_first secretKey last missing
  | succ count inductionHypothesis =>
    rw [rotations_succ]
    exact lost_rotate secretKey 255 _ _ inductionHypothesis

/-- In every visit to Finish of every run from Idle the memory is the key schedule. -/
def KeyScheduleMet (secretKey : BitVec 24) : Prop :=
  ∀ start : Circuit, start.fsm.state = .idle → ∀ cycle,
    (machine secretKey start cycle).fsm.state = .finish →
      (machine secretKey start cycle).memory.words = KeySchedule.keySchedule secretKey

/-- A run that leaves another byte than 255 in the last place reaches Finish in cycle
2820 with a memory in which 255 is nowhere, and the key schedule has it somewhere. -/
theorem finish_unscheduled (secretKey : BitVec 24) (start : Circuit) (inIdle : start.fsm.state = .idle)
    (missing : leftover start ≠ 255) :
    (machine secretKey start 2820).fsm.state = .finish ∧
      (machine secretKey start 2820).memory.words ≠ KeySchedule.keySchedule secretKey := by
  obtain ⟨state, _, rotated⟩ := loop2 secretKey start inIdle 256 (Nat.le_refl _)
  refine ⟨state, fun same => ?_⟩
  obtain ⟨place, holds⟩ := KeySchedule.value_scheduled secretKey 255
  have table : (machine secretKey start 2820).memory.words = (rotations secretKey (leftover start) 256).table :=
    congrArg Rotation.table rotated
  exact (lost_rotations secretKey _ missing 255).1 place (by rw [← table, same, holds])

/-- The circuit as the device powers up with every register and every byte zero. -/
def zeroed : Circuit where
  fsm :=
    { state := .idle, address := 0, data := 0, counterI := 0, counterJ := 0, keyNum := 0,
      singleSecKey := 0, dataI := 0, dataJ := 0 }
  memory := { words := fun _ => 0, q := 0 }

/-- There is no key for which the circuit computes the key schedule from every initial
content. -/
theorem schedule_never_met (secretKey : BitVec 24) : ¬ KeyScheduleMet secretKey := by
  intro claimed
  obtain ⟨state, differs⟩ := finish_unscheduled secretKey zeroed rfl (by decide)
  exact differs (claimed zeroed rfl 2820 state)

/-- The zeroed circuit with the wired key finishes with another memory. -/
theorem wiredKey_unscheduled :
    ¬ ∀ cycle, (machine wiredKey zeroed cycle).fsm.state = .finish →
      (machine wiredKey zeroed cycle).memory.words = KeySchedule.keySchedule wiredKey := by
  intro claimed
  obtain ⟨state, differs⟩ := finish_unscheduled wiredKey zeroed rfl (by decide)
  exact differs (claimed 2820 state)

end Schedule

end CpenLabs.LostByte
