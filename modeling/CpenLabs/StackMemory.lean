import Mathlib.Algebra.Group.Nat.Defs
import Mathlib.Data.List.Basic
import Mathlib.Logic.Function.Basic

/-!
# A stack in a memory with a pointer

The memory has a place for each value of the pointer, and the pointer goes round. The
items of the stack are below the pointer, the latest one next to it. The place at the
pointer itself belongs to no item: whatever is written there is left for the next push,
which only moves the pointer. So a memory of `2 ^ width` places has room for one item
less, and as long as no more are pushed the stack is the list of its items.
-/

namespace CpenLabs.StackMemory

variable {α : Type*} {width : Nat} {memory : BitVec width → α} {pointer : BitVec width} {stack : List α}

/-- The items of the stack are below the pointer, from the latest one down. -/
structure Holds (memory : BitVec width → α) (pointer : BitVec width) (stack : List α) : Prop where
  fits : stack.length < 2 ^ width
  items : ∀ depth item, stack[depth]? = some item →
    memory (pointer - BitVec.ofNat width (depth + 1)) = item

/-- An empty stack needs no place. -/
theorem Holds.nil (memory : BitVec width → α) (pointer : BitVec width) : Holds memory pointer [] :=
  ⟨Nat.two_pow_pos width, fun _ _ found => nomatch found⟩

/-- A place below the pointer is not the one at the pointer. -/
theorem below_ne (pointer : BitVec width) (distance : Nat) (positive : 0 < distance)
    (near : distance < 2 ^ width) : pointer - BitVec.ofNat width distance ≠ pointer := by
  intro same
  have zero : BitVec.ofNat width distance = BitVec.ofNat width 0 := by
    calc BitVec.ofNat width distance
        = BitVec.ofNat width distance + pointer - pointer := (BitVec.add_sub_cancel _ _).symm
      _ = pointer - BitVec.ofNat width distance + BitVec.ofNat width distance - pointer := by
          rw [same, BitVec.add_comm]
      _ = BitVec.ofNat width 0 := by rw [BitVec.sub_add_cancel, BitVec.sub_self]
  have value := congrArg BitVec.toNat zero
  rw [BitVec.toNat_ofNat, Nat.mod_eq_of_lt near, BitVec.toNat_ofNat, Nat.zero_mod] at value
  exact Nat.ne_of_gt positive value

/-- Writing at the pointer leaves the stack as it is. -/
theorem Holds.write (holds : Holds memory pointer stack) (item : α) :
    Holds (Function.update memory pointer item) pointer stack where
  fits := holds.fits
  items depth found present := by
    obtain ⟨inside, _⟩ := List.getElem?_eq_some_iff.mp present
    rw [Function.update_of_ne (below_ne pointer _ (Nat.succ_pos _)
      (Nat.lt_of_le_of_lt inside holds.fits))]
    exact holds.items depth found present

/-- The push takes over what has been written at the pointer. -/
theorem Holds.push (holds : Holds memory pointer stack) (room : stack.length + 1 < 2 ^ width) :
    Holds memory (pointer + BitVec.ofNat width 1) (memory pointer :: stack) where
  fits := room
  items depth found present := by
    cases depth with
    | zero =>
      rw [List.getElem?_cons_zero, Option.some.injEq] at present
      rw [← present, Nat.zero_add, BitVec.add_sub_cancel]
    | succ depth =>
      rw [List.getElem?_cons_succ] at present
      rw [← holds.items depth found present, BitVec.ofNat_add (x := depth + 1)]
      congr 1
      rw [BitVec.add_comm (BitVec.ofNat width (depth + 1)), ← BitVec.sub_sub, BitVec.add_sub_cancel]

/-- The latest item is next to the pointer. -/
theorem Holds.top {item : α} {rest : List α} (holds : Holds memory pointer (item :: rest)) :
    memory (pointer - BitVec.ofNat width 1) = item :=
  holds.items 0 item rfl

/-- The pop only moves the pointer. -/
theorem Holds.pop {item : α} {rest : List α} (holds : Holds memory pointer (item :: rest)) :
    Holds memory (pointer - BitVec.ofNat width 1) rest where
  fits := Nat.lt_of_succ_lt holds.fits
  items depth found present := by
    rw [← holds.items (depth + 1) found present, BitVec.ofNat_add (x := depth + 1)]
    congr 1
    rw [BitVec.add_comm (BitVec.ofNat width (depth + 1)), BitVec.sub_sub]

end CpenLabs.StackMemory
