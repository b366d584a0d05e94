import Mathlib.Data.List.OfFn
import Mathlib.Logic.Function.Basic

/-!
# A ring of registers

Items come one after another, and each is stored in one register of many. Which one is
decided by the number of the item alone. When the places of a period of consecutive
numbers are all different, the ring holds the latest items of that period, and a
register that has never been a place still holds what it held at the start.

The items are listed with the latest first, as the list of all that has been pushed.
-/

namespace CpenLabs.RingBuffer

variable {α ι : Type*} [DecidableEq ι] (place : Nat → ι) (initial : ι → α)

/-- The registers after the items. The first item that came is number one. -/
def written : List α → ι → α
  | [] => initial
  | item :: older => Function.update (written older) (place (older.length + 1)) item

/-- Numbers less than a period apart have different places. -/
def Apart (period : Nat) : Prop :=
  ∀ early late, early < late → late < early + period → place early ≠ place late

@[simp] theorem written_nil : written place initial [] = initial := rfl

/-- The latest item is in its place. -/
theorem written_latest (item : α) (older : List α) :
    written place initial (item :: older) (place (older.length + 1)) = item :=
  Function.update_self _ _ _

/-- It leaves the other registers as they were. -/
theorem written_other (item : α) (older : List α) (other : ι) (different : other ≠ place (older.length + 1)) :
    written place initial (item :: older) other = written place initial older other :=
  Function.update_of_ne different _ _

/-- A register that is the place of no item has never been written. -/
theorem written_untouched (items : List α) (other : ι)
    (never : ∀ number, 0 < number → number ≤ items.length → other ≠ place number) :
    written place initial items other = initial other := by
  induction items with
  | nil => rfl
  | cons item older inductionHypothesis =>
    rw [written_other place initial item older other
      (never (older.length + 1) (Nat.succ_pos _) (Nat.le_refl _))]
    exact inductionHypothesis fun number positive bound =>
      never number positive (Nat.le_trans bound (Nat.le_succ _))

variable {place} {period : Nat} (apart : Apart place period)

include apart

/-- An item stays in its place until the period has passed. -/
theorem written_recent (items : List α) (back : Nat) (recent : back < period) (present : back < items.length) :
    items[back]? = some (written place initial items (place (items.length - back))) := by
  induction items generalizing back with
  | nil => exact absurd present (Nat.not_lt_zero back)
  | cons item older inductionHypothesis =>
    cases back with
    | zero =>
      rw [Nat.sub_zero, List.length_cons, written_latest]
      rfl
    | succ back =>
      have inOlder : back < older.length := Nat.lt_of_succ_lt_succ present
      have earlier : older.length - back < older.length + 1 := Nat.lt_succ_of_le (Nat.sub_le _ _)
      have near : older.length + 1 < older.length - back + period := by omega
      rw [List.getElem?_cons_succ, List.length_cons, Nat.add_sub_add_right,
        written_other place initial item older _ (apart _ _ earlier near)]
      exact inductionHypothesis back (Nat.lt_of_succ_lt recent) inOlder

/-- Read in the order of their places, from the latest item back, the registers are the
latest items of a period, or all items where there are fewer. -/
theorem written_window (items : List α) (read : Fin period → ι)
    (follows : ∀ back : Fin period, back.val < items.length → read back = place (items.length - back)) :
    (List.ofFn fun back => written place initial items (read back)).take items.length =
      items.take period := by
  apply List.ext_getElem?
  intro back
  rw [List.getElem?_take, List.getElem?_take, List.getElem?_ofFn]
  by_cases recent : back < period <;> by_cases present : back < items.length
  · rw [dif_pos recent, if_pos present, if_pos recent,
      written_recent initial apart items back recent present, follows ⟨back, recent⟩ present]
  · rw [if_neg present, if_pos recent, List.getElem?_eq_none (Nat.le_of_not_lt present)]
  · rw [dif_neg recent, if_neg recent, ite_self]
  · rw [if_neg present, if_neg recent]

end CpenLabs.RingBuffer
