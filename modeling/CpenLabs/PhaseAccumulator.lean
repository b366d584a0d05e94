import CpenLabs.Clocked
import Mathlib.Data.Nat.ModEq

/-!
# Phases that wrap around

A phase that only grows is shown modulo a period of two equal halves. As long as it
moves by at most one half at a time, no half is skipped: the shown phase leaves the upper
half for the lower one exactly when a period ends. The periods that have ended can then
be counted from what is shown, and their number tells how far the phase has moved, up to
less than one period.

Nothing is assumed of the steps beyond their bound. They may be of any length below it,
and differ from one to the next.
-/

namespace CpenLabs.PhaseAccumulator

open Clocked

/-- The shown phase is in the upper half of its period. -/
def Upper (half phase : Nat) : Prop := half ≤ phase % (2 * half)

instance (half phase : Nat) : Decidable (Upper half phase) := inferInstanceAs (Decidable (_ ≤ _))

variable {half : Nat}

/-- A step of at most one half ends a period exactly when it goes from the upper half to
the lower one. -/
theorem div_step {phase step : Nat} (positive : 0 < half) (short : step ≤ half) :
    (phase + step) / (2 * half) =
      phase / (2 * half) + if Upper half phase ∧ ¬ Upper half (phase + step) then 1 else 0 := by
  have inside : phase % (2 * half) < 2 * half := Nat.mod_lt _ (by omega)
  have same : step % (2 * half) = step := Nat.mod_eq_of_lt (by omega)
  have none : step / (2 * half) = 0 := Nat.div_eq_of_lt (by omega)
  rw [Nat.add_div (by omega), none, same, Nat.add_zero]
  by_cases wraps : 2 * half ≤ phase % (2 * half) + step
  · have rest : (phase + step) % (2 * half) + 2 * half = phase % (2 * half) + step := by
      have wraps' : 2 * half ≤ phase % (2 * half) + step % (2 * half) := by rwa [same]
      have rest := Nat.add_mod_add_of_le_add_mod wraps'
      rwa [same] at rest
    rw [if_pos wraps, if_pos]
    rw [Upper, Upper]
    omega
  · have rest : (phase + step) % (2 * half) = phase % (2 * half) + step := by
      rw [Nat.add_mod_of_add_mod_lt (by rw [same]; omega), same]
    rw [if_neg wraps, if_neg]
    rw [Upper, Upper, rest]
    omega

/-- The shown phase falls from the upper half to the lower one. -/
def Ends (half : Nat) (phase : Nat → Nat) (cycle : Nat) : Prop :=
  Upper half (phase cycle) ∧ ¬ Upper half (phase (cycle + 1))

instance (half : Nat) (phase : Nat → Nat) (cycle : Nat) : Decidable (Ends half phase cycle) :=
  inferInstanceAs (Decidable (_ ∧ _))

section Course

variable {phase : Nat → Nat} {first last : Nat} (positive : 0 < half) (ordered : first ≤ last)
  (moves : ∀ cycle, first ≤ cycle →
    phase cycle ≤ phase (cycle + 1) ∧ phase (cycle + 1) ≤ phase cycle + half)

include positive ordered moves

/-- The periods that have ended are the falls from the upper half to the lower one. -/
theorem falls_eq :
    phase first / (2 * half) + occurrences (Ends half phase) first last =
      phase last / (2 * half) := by
  induction last, ordered using Nat.le_induction with
  | base => rw [occurrences_self, Nat.add_zero]
  | succ last ordered inductionHypothesis =>
    obtain ⟨lower, upper⟩ := moves last ordered
    obtain ⟨step, next⟩ := Nat.exists_eq_add_of_le lower
    have ends := @div_step half (phase last) step positive (by omega)
    rw [← next] at ends
    rw [occurrences_succ _ _ _ ordered, ← Nat.add_assoc, inductionHypothesis, ends]
    rfl

/-- Their number tells how far the phase has moved. -/
theorem falls_bounds {moved falls : Nat} (distance : phase last = phase first + moved)
    (counted : occurrences (Ends half phase) first last = falls) :
    falls * (2 * half) < moved + 2 * half ∧ moved < (falls + 1) * (2 * half) := by
  have period : 0 < 2 * half := Nat.mul_pos Nat.two_pos positive
  have ends := falls_eq positive ordered moves
  rw [counted, distance] at ends
  have before := Nat.div_add_mod (phase first) (2 * half)
  have after := Nat.div_add_mod (phase first + moved) (2 * half)
  have inside := Nat.mod_lt (phase first) period
  have inside' := Nat.mod_lt (phase first + moved) period
  rw [← ends, Nat.mul_add] at after
  rw [Nat.add_mul, Nat.mul_comm falls]
  omega

end Course

end CpenLabs.PhaseAccumulator
