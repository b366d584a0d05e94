import Mathlib.Data.List.Basic
import Mathlib.Logic.Function.Basic

/-!
# A memory that performs accesses one after the other

What a memory is for, without its ports: a read answers with the word at its address and
a write changes that word, except for the parts that its mask protects. A sequence of
accesses has one final memory and one sequence of answers.

Nothing here says when an access is performed. A circuit that has a queue, a pipeline
or several banks is compared with this memory through the order of its accesses alone.
-/

namespace CpenLabs.SequentialMemory

universe u v w
variable {α : Type u} {μ : Type v} {β : Type w}

/-- An access. A write carries the mask of what it leaves alone. -/
inductive Access (α : Type u) (μ : Type v) (β : Type w)
  | read (address : α)
  | write (address : α) (mask : μ) (data : β)

variable [DecidableEq α] (merge : μ → β → β → β)

/-- The memory after an access. What a write leaves of the old word is up to `merge`. -/
def perform (memory : α → β) : Access α μ β → α → β
  | .read _ => memory
  | .write address mask data => Function.update memory address (merge mask data (memory address))

/-- The memory after a sequence of accesses. -/
def performAll (memory : α → β) (accesses : List (Access α μ β)) : α → β :=
  accesses.foldl (perform merge) memory

omit [DecidableEq α] in
/-- The answer to an access, if it has one. -/
def answer (memory : α → β) : Access α μ β → List β
  | .read address => [memory address]
  | .write _ _ _ => []

/-- The answers to a sequence of accesses. -/
def answers (memory : α → β) : List (Access α μ β) → List β
  | [] => []
  | access :: rest => answer memory access ++ answers (perform merge memory access) rest

@[simp] theorem performAll_nil (memory : α → β) : performAll merge memory [] = memory := rfl

/-- Later accesses find the memory as the first ones left it. -/
theorem performAll_append (memory : α → β) (first later : List (Access α μ β)) :
    performAll merge memory (first ++ later) = performAll merge (performAll merge memory first) later :=
  List.foldl_append

@[simp] theorem answers_nil (memory : α → β) : answers merge memory [] = [] := rfl

/-- Later accesses find the memory that the first ones leave. -/
theorem answers_append (memory : α → β) (first later : List (Access α μ β)) :
    answers merge memory (first ++ later) =
      answers merge memory first ++ answers merge (performAll merge memory first) later := by
  induction first generalizing memory with
  | nil => rfl
  | cons access rest inductionHypothesis =>
    rw [List.cons_append, answers, answers, inductionHypothesis, List.append_assoc]
    rfl

/-- More accesses have the same answers first. -/
theorem answers_grow (memory : α → β) {first all : List (Access α μ β)} (part : first <+: all) :
    answers merge memory first <+: answers merge memory all := by
  obtain ⟨later, rfl⟩ := part
  rw [answers_append]
  exact List.prefix_append _ _

end CpenLabs.SequentialMemory
