import CpenLabs.Clocked

/-!
# Machines that read a text

A transducer reads a text item by item and gives out what each item completes. What it
has given out after a text is fixed by the text, however the items are spread over time.
A clocked machine whose registers do in each cycle what the transducer does with the
items of the cycle is therefore described by the text that has come in so far.

Two transducers whose states stay related give out the same. Where the relation needs
one of them to stay within bounds, it is enough that it does so on the text in question.
-/

namespace CpenLabs.Transducers

universe u v w
variable {σ : Type u} {τ : Type u} {ι : Type v} {ω : Type w}

/-- What an item does to the state, and what is given out with it. -/
abbrev Transducer (σ : Type u) (ι : Type v) (ω : Type w) := σ → ι → σ × List ω

variable (machine : Transducer σ ι ω)

/-- The state after a text. -/
def after : σ → List ι → σ
  | state, [] => state
  | state, item :: text => after (machine state item).1 text

/-- What is given out for a text. -/
def output : σ → List ι → List ω
  | _, [] => []
  | state, item :: text => (machine state item).2 ++ output (machine state item).1 text

/-- Each item leaves a good state. -/
def Throughout (good : σ → Prop) : σ → List ι → Prop
  | _, [] => True
  | state, item :: text => good (machine state item).1 ∧ Throughout good (machine state item).1 text

/-- A text is read in two parts. -/
theorem after_append (state : σ) (first later : List ι) :
    after machine state (first ++ later) = after machine (after machine state first) later := by
  induction first generalizing state with
  | nil => rfl
  | cons item text inductionHypothesis => exact inductionHypothesis _

/-- The output for a text is that for its parts. -/
theorem output_append (state : σ) (first later : List ι) :
    output machine state (first ++ later) =
      output machine state first ++ output machine (after machine state first) later := by
  induction first generalizing state with
  | nil => rfl
  | cons item text inductionHypothesis =>
    rw [List.cons_append, output, output, inductionHypothesis, List.append_assoc]
    rfl

variable {machine}

/-- What holds throughout both parts holds throughout the text. -/
theorem Throughout.append {good : σ → Prop} {state : σ} {first later : List ι}
    (before : Throughout machine good state first)
    (behind : Throughout machine good (after machine state first) later) :
    Throughout machine good state (first ++ later) := by
  induction first generalizing state with
  | nil => exact behind
  | cons item text inductionHypothesis => exact ⟨before.1, inductionHypothesis before.2 behind⟩

/-- A weaker property holds throughout as well. -/
theorem Throughout.mono {good better : σ → Prop} (weaker : ∀ state, better state → good state)
    {state : σ} {text : List ι} (throughout : Throughout machine better state text) :
    Throughout machine good state text := by
  induction text generalizing state with
  | nil => trivial
  | cons item text inductionHypothesis =>
    exact ⟨weaker _ throughout.1, inductionHypothesis throughout.2⟩

/-- Related transducers give out the same. -/
theorem simulation {other : Transducer τ ι ω} (related : σ → τ → Prop) (good : σ → Prop)
    (step : ∀ state state' item, related state state' → good (machine state item).1 →
      related (machine state item).1 (other state' item).1 ∧
        (other state' item).2 = (machine state item).2)
    {state : σ} {state' : τ} (start : related state state') {text : List ι}
    (throughout : Throughout machine good state text) :
    related (after machine state text) (after other state' text) ∧
      output other state' text = output machine state text := by
  induction text generalizing state state' with
  | nil => exact ⟨start, rfl⟩
  | cons item text inductionHypothesis =>
    obtain ⟨next, same⟩ := step state state' item start throughout.1
    obtain ⟨last, rest⟩ := inductionHypothesis next throughout.2
    exact ⟨last, by rw [output, output, same, rest]⟩

/-- Registers that do in each cycle what the transducer does with the items of the cycle. -/
theorem follows (state : Nat → σ) (items : Nat → List ι)
    (step : ∀ cycle, state (cycle + 1) = after machine (state cycle) (items cycle)) (cycle : Nat) :
    state cycle = after machine (state 0) (Clocked.history items cycle) ∧
      Clocked.history (fun number => output machine (state number) (items number)) cycle =
        output machine (state 0) (Clocked.history items cycle) := by
  induction cycle with
  | zero => exact ⟨rfl, rfl⟩
  | succ cycle inductionHypothesis =>
    obtain ⟨same, given⟩ := inductionHypothesis
    rw [Clocked.history_succ, Clocked.history_succ, after_append, output_append, ← same, given]
    exact ⟨step cycle, rfl⟩

end CpenLabs.Transducers
