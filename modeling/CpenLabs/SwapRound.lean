import CpenLabs.KeySchedule
import CpenLabs.LostByte
import Mathlib.Tactic.IntervalCases

/-!
# One iteration of the swap loop

An iteration of the second loop advances counter_j as the key schedule has it and ends
without a write under way. What it does to the memory is a rotation: the entry at the
old counter_j moves to counter_i, and the byte of the data register moves to the old
counter_j. That is an exchange of the entries at counter_i and at the new counter_j
only when bytes coincide, and the condition below lists which.

The iteration begins in any cycle in Loop2_start, with any values in the registers and
any memory; nothing is assumed about how the circuit got there.
-/

namespace CpenLabs.SwapRound

open Clocked Rc4Fsm

section Tables

variable {α β : Type} [DecidableEq α]

/-- Where a rotation is an exchange, entries coincide: each place is looked at by itself. -/
theorem fits_of_rotation (table : α → β) (entry old index : α) (carried : β)
    (same : Function.update (Function.update table old carried) entry (table old) =
      table ∘ Equiv.swap entry index) :
    (entry = old ∨ carried = table entry) ∧
      (index = old ∨ table old = table entry ∧ table index = table entry) := by
  have atEntry : table old = table index := by
    simpa using congrFun same entry
  have atOld : entry ≠ old → carried = table (Equiv.swap entry index old) := by
    intro apart
    simpa [Function.update_of_ne apart.symm] using congrFun same old
  have atIndex : index ≠ entry → index ≠ old → table index = table entry := by
    intro notEntry notOld
    simpa [Function.update_of_ne notEntry, Function.update_of_ne notOld] using congrFun same index
  by_cases unmoved : index = old
  · refine ⟨?_, Or.inl unmoved⟩
    by_cases apart : entry = old
    · exact Or.inl apart
    · exact Or.inr (by simpa [← unmoved] using atOld apart)
  · have indexHolds : table index = table entry := by
      by_cases atTarget : index = entry
      · exact congrArg table atTarget
      · exact atIndex atTarget unmoved
    refine ⟨?_, Or.inr ⟨atEntry.trans indexHolds, indexHolds⟩⟩
    by_cases apart : entry = old
    · exact Or.inl apart
    · have kept := atOld apart
      rw [Equiv.swap_apply_of_ne_of_ne (Ne.symm apart) (Ne.symm unmoved)] at kept
      exact Or.inr (kept.trans (atEntry.trans indexHolds))

/-- Where the entries coincide, a rotation is an exchange. -/
theorem rotation_of_fits (table : α → β) (entry old index : α) (carried : β)
    (carriedFits : entry = old ∨ carried = table entry)
    (indexFits : index = old ∨ table old = table entry ∧ table index = table entry) :
    Function.update (Function.update table old carried) entry (table old) = table ∘ Equiv.swap entry index := by
  funext place
  rw [Function.comp_apply, Equiv.swap_apply_def]
  by_cases atEntry : place = entry
  · rw [if_pos atEntry, atEntry, Function.update_self]
    rcases indexFits with unmoved | ⟨oldHolds, indexHolds⟩
    · exact congrArg table unmoved.symm
    · exact oldHolds.trans indexHolds.symm
  · rw [if_neg atEntry, Function.update_of_ne atEntry]
    by_cases atOld : place = old
    · have carriedHolds : carried = table entry :=
        carriedFits.resolve_left fun same => atEntry (atOld.trans same.symm)
      rw [atOld, Function.update_self, carriedHolds]
      rcases indexFits with unmoved | ⟨oldHolds, _⟩
      · rw [if_pos unmoved.symm]
      · split_ifs
        · rfl
        · exact oldHolds.symm
    · rw [Function.update_of_ne atOld]
      split_ifs with atIndex
      · have notOld : index ≠ old := fun same => atOld (atIndex.trans same)
        exact atIndex ▸ (indexFits.resolve_left notOld).2
      · rfl

/-- Moving the entry at `old` to `entry` and an outside value to `old` exchanges the
entries at `entry` and `index` exactly under these coincidences. -/
theorem rotation_eq_swap_iff (table : α → β) (entry old index : α) (carried : β) :
    Function.update (Function.update table old carried) entry (table old) = table ∘ Equiv.swap entry index ↔
      (entry = old ∨ carried = table entry) ∧
        (index = old ∨ table old = table entry ∧ table index = table entry) :=
  ⟨fits_of_rotation table entry old index carried,
    fun fits => rotation_of_fits table entry old index carried fits.1 fits.2⟩

end Tables

variable (secretKey : BitVec 24) (circuit : Circuit)

/-- What the iteration adds to counter_j. -/
def advance : BitVec 8 :=
  KeySchedule.keyByte secretKey (circuit.fsm.counterI.toNat % 3) + circuit.memory.words circuit.fsm.counterI

/-- The circuit is back in Loop2_start, or in Finish. -/
def Over (cycle : Nat) : Prop :=
  0 < cycle ∧ ((machine secretKey circuit cycle).fsm.state = .loop2Start ∨
    (machine secretKey circuit cycle).fsm.state = .finish)

/-- What one iteration is meant to do: advance counter_j, exchange the entries at
counter_i and at the new counter_j, leave all other entries and with them a permutation,
and end with the write enable low. -/
structure Exchanged (after : Circuit) : Prop where
  counterJ : after.fsm.counterJ = circuit.fsm.counterJ + advance secretKey circuit
  words : after.memory.words =
    circuit.memory.words ∘ Equiv.swap circuit.fsm.counterI (circuit.fsm.counterJ + advance secretKey circuit)
  permutation : Function.Bijective circuit.memory.words → Function.Bijective after.memory.words
  settled : after.fsm.state.wren = false

/-- The next time the state is Loop2_start or Finish, the exchange has taken place. -/
def SwapIteration : Prop :=
  ∃ cycle, First (Over secretKey circuit) cycle ∧
    Exchanged secretKey circuit (machine secretKey circuit cycle)

/-- The bytes that have to coincide: the stale byte of the data register with the entry
at counter_i, unless counter_i is the old counter_j; and the entries at both values of
counter_j with the entry at counter_i, unless counter_j does not move. -/
def Coincidence : Prop :=
  (circuit.fsm.counterI = circuit.fsm.counterJ ∨
      circuit.fsm.data = circuit.memory.words circuit.fsm.counterI) ∧
    (advance secretKey circuit = 0 ∨
      circuit.memory.words circuit.fsm.counterJ = circuit.memory.words circuit.fsm.counterI ∧
        circuit.memory.words (circuit.fsm.counterJ + advance secretKey circuit) =
          circuit.memory.words circuit.fsm.counterI)

section Iteration

variable (inStart : circuit.fsm.state = .loop2Start)
include inStart

/-- The iteration is over after ten cycles and not before. -/
theorem over_ten : First (Over secretKey circuit) 10 := by
  constructor
  · refine ⟨by omega, ?_⟩
    rw [(round secretKey circuit inStart).1]
    split_ifs
    · exact Or.inr rfl
    · exact Or.inl rfl
  · rintro earlier early ⟨begun, reached⟩
    interval_cases earlier <;> simp [machine, step, next, inStart] at reached

/-- The write enable is low at the end. -/
theorem settled_ten : (machine secretKey circuit 10).fsm.state.wren = false := by
  rw [(round secretKey circuit inStart).1]
  split_ifs <;> decide

/-- The index is advanced as in the key schedule. -/
theorem counterJ_ten :
    (machine secretKey circuit 10).fsm.counterJ = circuit.fsm.counterJ + advance secretKey circuit := by
  obtain ⟨_, _, counterJ, _⟩ := round secretKey circuit inStart
  rw [counterJ, roundKey, keyLength, LostByte.keySelect_keyByte, advance, BitVec.add_assoc]

/-- The iteration exchanges the entries exactly under the coincidence. -/
theorem swap_iteration_iff : SwapIteration secretKey circuit ↔ Coincidence secretKey circuit := by
  obtain ⟨_, _, _, _, _, words⟩ := round secretKey circuit inStart
  have unmoved : circuit.fsm.counterJ + advance secretKey circuit = circuit.fsm.counterJ ↔
      advance secretKey circuit = 0 := by simp
  rw [SwapIteration, (over_ten secretKey circuit inStart).exists_iff, Coincidence, ← unmoved,
    ← rotation_eq_swap_iff, ← words]
  constructor
  · exact Exchanged.words
  · intro exchanged
    refine ⟨counterJ_ten secretKey circuit inStart, exchanged, ?_, settled_ten secretKey circuit inStart⟩
    intro permutation
    rw [exchanged]
    exact permutation.comp (Equiv.bijective _)

end Iteration

/-- The second iteration after an initialisation that has written every address. -/
def secondRound : Circuit where
  fsm :=
    { state := .loop2Start, address := 0, data := 0, counterI := 1, counterJ := 0, keyNum := 0,
      singleSecKey := 0, dataI := 0, dataJ := 0 }
  memory := { words := id, q := 0 }

/-- In the second round its two sides can be evaluated. -/
theorem swap_iteration_secondRound :
    SwapIteration wiredKey secondRound ↔ Coincidence wiredKey secondRound :=
  swap_iteration_iff wiredKey secondRound rfl

/-- With the wired key, the second iteration on the identity table does not exchange
two entries. -/
theorem secondRound_unswapped : ¬ SwapIteration wiredKey secondRound := by
  rw [SwapIteration, (over_ten wiredKey secondRound rfl).exists_iff]
  intro exchanged
  exact absurd (congrFun exchanged.words 1) (by decide)

end CpenLabs.SwapRound
