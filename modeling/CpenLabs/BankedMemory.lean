import Mathlib.Logic.Function.Basic

/-!
# Memories with banks of rows

A dynamic memory has several banks, each with at most one open row. A row is opened by
an activation, read and written while it is open, and closed by a precharge; a refresh or
a new mode needs all banks closed. What the memory has to be told, and in which order,
is kept here as the open rows and a condition on each operation.

Between two operations the memory also needs time. If the number of steps up to the next
operation of a kind is bounded below by a distance that falls by at most one with each
step, then the distance just after an operation is the time that the next one leaves it.
-/

namespace CpenLabs.BankedMemory

universe u v w
variable {β : Type u} {ρ : Type v}

/-- What a memory is told. An access may close its bank when it has been carried out. -/
inductive Operation (β : Type u) (ρ : Type v)
  | activate (bank : β) (row : ρ)
  | access (bank : β) (closes : Bool)
  | precharge (bank : β)
  | prechargeAll
  | refresh
  | loadMode
  | nothing

/-- The open row of each bank. -/
abbrev Banks (β : Type u) (ρ : Type v) := β → Option ρ

/-- No bank has an open row. -/
def Closed (banks : Banks β ρ) : Prop := ∀ bank, banks bank = none

/-- What an operation asks of the banks. -/
def Operation.Allowed (banks : Banks β ρ) : Operation β ρ → Prop
  | activate bank _ => banks bank = none
  | access bank _ => banks bank ≠ none
  | refresh | loadMode => Closed banks
  | precharge _ | prechargeAll | nothing => True

variable [DecidableEq β]

/-- What an operation leaves open. -/
def Operation.apply (banks : Banks β ρ) : Operation β ρ → Banks β ρ
  | activate bank row => Function.update banks bank (some row)
  | access bank closes => if closes then Function.update banks bank none else banks
  | precharge bank => Function.update banks bank none
  | prechargeAll => fun _ => none
  | refresh | loadMode | nothing => banks

/-- One row of one bank is open. -/
def OnlyOpen (banks : Banks β ρ) (bank : β) (row : ρ) : Prop :=
  banks = Function.update (fun _ => none) bank (some row)

/-- The first ACTIVATE opens the only row. -/
theorem Closed.activate {banks : Banks β ρ} (closed : Closed banks) (bank : β) (row : ρ) :
    OnlyOpen ((Operation.activate bank row).apply banks) bank row := by
  rw [OnlyOpen, Operation.apply, show banks = fun _ => none from funext closed]

/-- The open bank has that row. -/
theorem OnlyOpen.row_eq {banks : Banks β ρ} {bank : β} {row : ρ} (opened : OnlyOpen banks bank row) :
    banks bank = some row := by
  rw [opened, Function.update_self]

/-- The open rows before each operation of a sequence. -/
def banksAt (operations : Nat → Operation β ρ) (banks : Banks β ρ) : Nat → Banks β ρ
  | 0 => banks
  | step + 1 => (operations step).apply (banksAt operations banks step)

section Distances

variable {κ : Type w} {σ : Type u} {state : Nat → σ} {shows : Nat → κ → Prop} {distance : κ → σ → Nat}

/-- A distance that falls by at most one with each step, and is at most one before a step
to its kind, bounds the time up to it. -/
theorem distance_le (start : Nat)
    (nearer : ∀ step kind, start ≤ step →
      distance kind (state step) ≤ distance kind (state (step + 1)) + 1)
    (arrives : ∀ step kind, start ≤ step → shows (step + 1) kind → distance kind (state step) ≤ 1)
    {first last : Nat} {kind : κ} (started : start ≤ first) (ordered : first < last)
    (shown : shows last kind) : distance kind (state first) ≤ last - first := by
  obtain ⟨later, rfl⟩ := Nat.exists_eq_add_of_lt ordered
  induction later generalizing first with
  | zero => simpa using arrives first kind started shown
  | succ later inductionHypothesis =>
    have rest := @inductionHypothesis (first + 1) (by omega) (by omega)
      (by rwa [show first + 1 + later + 1 = first + (later + 1) + 1 by omega])
    have step := nearer first kind started
    omega

end Distances

end CpenLabs.BankedMemory
