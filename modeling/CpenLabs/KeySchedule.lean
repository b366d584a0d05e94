import Mathlib.Logic.Equiv.Basic

/-!
# The RC4 key schedule

The schedule mixes a key of three bytes into a permutation of the byte values: 256
rounds, each of which advances an index by a permuted byte and a key byte and
exchanges two entries. Keeping the table as a permutation makes its main property,
that no byte value is ever lost, part of its type.

This is the algorithm that the circuit is meant to carry out, in its own terms. It
knows nothing of memories, clock cycles or states.
-/

namespace CpenLabs.KeySchedule

/-- The table and the running index between two rounds. -/
structure Mixture where
  table : Equiv.Perm (BitVec 8)
  index : BitVec 8

/-- The key bytes, the most significant first. -/
def keyByte (secretKey : BitVec 24) (place : Nat) : BitVec 8 :=
  if place = 0 then secretKey.extractLsb' 16 8
  else if place = 1 then secretKey.extractLsb' 8 8
  else secretKey.extractLsb' 0 8

/-- One round: advance the index, then exchange the entries at the round's number and
at the new index. -/
def mix (secretKey : BitVec 24) (mixture : Mixture) (round : Nat) : Mixture :=
  let entry := BitVec.ofNat 8 round
  let index := mixture.index + mixture.table entry + keyByte secretKey (round % 3)
  { table := (Equiv.swap entry index).trans mixture.table, index := index }

/-- The table after all rounds, from the identity and index zero. -/
def keySchedule (secretKey : BitVec 24) : Equiv.Perm (BitVec 8) :=
  ((List.range 256).foldl (mix secretKey) { table := Equiv.refl _, index := 0 }).table

/-- Every byte value stands somewhere in the table. -/
theorem value_scheduled (secretKey : BitVec 24) (value : BitVec 8) :
    ∃ entry, keySchedule secretKey entry = value :=
  (keySchedule secretKey).surjective value

end CpenLabs.KeySchedule
