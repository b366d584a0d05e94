import Mathlib.Tactic.IntervalCases
import CpenLabs.Handshake

/-!
# Avalon reads per request

The read signal is decoded from three consecutive slave states, and waitrequest is
tested in the middle one only. A flash that is ready in the first of them accepts a
read before the slave looks, and one that is ready in the last accepts another after
it has looked. Between one and three reads are accepted for a request, exactly one
if the flash stalls in both outer states.
-/

namespace CpenLabs.ReadRequest

open Clocked Player Handshake

variable (inputs : Nat → Input) (start : Registers)

/-- The flash accepts a read at the edge ending this cycle. -/
def ReadAccepted (cycle : Nat) : Prop :=
  (player inputs start cycle).slave.state.read = true ∧ (inputs cycle).waitrequest = false

instance : DecidablePred (ReadAccepted inputs start) := fun _ => inferInstanceAs (Decidable (_ ∧ _))

/-- A start pulse takes the slave out of idle in cycle `first`, and its answer is the
finish pulse in cycle `last`. -/
def Request (first last : Nat) : Prop :=
  StartAccepted inputs start first ∧ first < last ∧ FinishPulse inputs start last ∧
    ∀ cycle, first < cycle → cycle < last → ¬ FinishPulse inputs start cycle

/-- One accepted read between the two pulses, with the read signal raised without
interruption until it is accepted. -/
def OneRead (first last : Nat) : Prop :=
  occurrences (ReadAccepted inputs start) first (last + 1) = 1 ∧
    ∃ accepted, first < accepted ∧ accepted < last ∧ ReadAccepted inputs start accepted ∧
      ∀ cycle, first < cycle → cycle ≤ accepted → (player inputs start cycle).slave.state.read = true

/-- The flash stalls in the two read states that do not test waitrequest. -/
def StallsOutside (first last : Nat) : Prop :=
  ∀ cycle, first < cycle → cycle < last →
    (player inputs start cycle).slave.state = .handleReadOp ∨
      (player inputs start cycle).slave.state = .strobeRead →
    (inputs cycle).waitrequest = true

/-- The slave's state after an edge. -/
theorem slave_next (cycle : Nat) :
    (player inputs start (cycle + 1)).slave.state =
      FsmSlave.nextState (slaveInput (inputs cycle) (player inputs start cycle))
        (player inputs start cycle).slave.state := rfl

/-- The slave waits for the flash from the first cycle to the last, which is the only
one in which the flash may be ready. -/
def Waits (first last : Nat) : Prop :=
  ∀ cycle, first ≤ cycle → cycle ≤ last →
    (player inputs start cycle).slave.state = .waitRead ∧
      (cycle < last → (inputs cycle).waitrequest = true)

/-- The cycles of a request: one each in the first and the last read state, and between
them a wait for the first low waitrequest. -/
structure Shape (first granted : Nat) : Prop where
  late : first + 2 ≤ granted
  idle : (player inputs start first).slave.state = .idle
  handle : (player inputs start (first + 1)).slave.state = .handleReadOp
  waits : Waits inputs start (first + 2) granted
  ready : (inputs granted).waitrequest = false
  strobe : (player inputs start (granted + 1)).slave.state = .strobeRead
  finished : (player inputs start (granted + 2)).slave.state = .finished

variable {inputs start}

/-- An accepted start pulse takes the slave to its wait in two cycles. -/
theorem request_opens (first : Nat) (accepted : StartAccepted inputs start first) :
    (player inputs start (first + 1)).slave.state = .handleReadOp ∧
      (player inputs start (first + 2)).slave.state = .waitRead := by
  obtain ⟨idle, pulse⟩ := accepted
  have handle : (player inputs start (first + 1)).slave.state = .handleReadOp := by
    rw [slave_next, idle]
    simp [FsmSlave.nextState, slaveInput, pulse]
  refine ⟨handle, ?_⟩
  rw [slave_next, handle]
  rfl

/-- The slave leaves its wait after a low waitrequest. -/
theorem wait_next (cycle : Nat) (waits : (player inputs start cycle).slave.state = .waitRead) :
    (player inputs start (cycle + 1)).slave.state =
      if (inputs cycle).waitrequest then .waitRead else .strobeRead := by
  rw [slave_next, waits]
  cases wait : (inputs cycle).waitrequest <;> simp [FsmSlave.nextState, slaveInput, wait]

/-- Once it waits, the slave goes on waiting or has met a low waitrequest. -/
theorem waits_or_granted (first last : Nat) (ordered : first ≤ last)
    (begins : (player inputs start first).slave.state = .waitRead) :
    Waits inputs start first last ∨
      ∃ granted, first ≤ granted ∧ granted < last ∧ Waits inputs start first granted ∧
        (inputs granted).waitrequest = false := by
  induction last, ordered using Nat.le_induction with
  | base =>
    left
    intro cycle low high
    obtain rfl := Nat.le_antisymm low high
    exact ⟨begins, fun impossible => absurd impossible (Nat.lt_irrefl _)⟩
  | succ last ordered inductionHypothesis =>
    cases inductionHypothesis with
    | inl waits =>
      cases wait : (inputs last).waitrequest with
      | true =>
        left
        intro cycle low high
        obtain earlier | rfl | rfl : cycle < last ∨ cycle = last ∨ cycle = last + 1 := by omega
        · exact ⟨(waits cycle low earlier.le).1, fun _ => (waits cycle low earlier.le).2 earlier⟩
        · exact ⟨(waits cycle low (Nat.le_refl _)).1, fun _ => wait⟩
        · refine ⟨?_, fun impossible => absurd impossible (Nat.lt_irrefl _)⟩
          rw [wait_next last (waits last ordered (Nat.le_refl _)).1, wait]
          rfl
      | false => exact .inr ⟨last, ordered, Nat.lt_succ_self last, waits, wait⟩
    | inr met =>
      obtain ⟨granted, low, high, waits, ready⟩ := met
      exact .inr ⟨granted, low, Nat.lt_succ_of_lt high, waits, ready⟩

/-- Every request has this shape, and ends two cycles after the low waitrequest. -/
theorem request_shape (first last : Nat) (request : Request inputs start first last) :
    ∃ granted, last = granted + 2 ∧ Shape inputs start first granted := by
  obtain ⟨accepted, ordered, finish, unfinished⟩ := request
  obtain ⟨handle, begins⟩ := request_opens first accepted
  have arrived : (player inputs start last).slave.state = .finished := (finish_iff _).mp finish
  have late : first + 2 ≤ last := by
    by_contra early
    obtain rfl : last = first + 1 := by omega
    rw [handle] at arrived
    cases arrived
  cases waits_or_granted (first + 2) last late begins with
  | inl waits =>
    rw [(waits last late (Nat.le_refl _)).1] at arrived
    cases arrived
  | inr met =>
    obtain ⟨granted, low, before, waits, ready⟩ := met
    have strobe : (player inputs start (granted + 1)).slave.state = .strobeRead := by
      rw [wait_next granted (waits granted low (Nat.le_refl _)).1, ready]
      rfl
    have finished : (player inputs start (granted + 2)).slave.state = .finished := by
      rw [slave_next, strobe]
      rfl
    refine ⟨granted, ?_, low, accepted.1, handle, waits, ready, strobe, finished⟩
    obtain earlier | same | later := Nat.lt_trichotomy last (granted + 2)
    · obtain rfl : last = granted + 1 := by omega
      rw [strobe] at arrived
      cases arrived
    · exact same
    · exact absurd ((finish_iff _).mpr finished) (unfinished (granted + 2) (by omega) later)

variable (inputs start) in
/-- The contribution of a cycle to the count, by the state of the slave. -/
theorem accepted_here (cycle : Nat) (state : FsmSlave.StateType)
    (here : (player inputs start cycle).slave.state = state) :
    (if ReadAccepted inputs start cycle then 1 else 0) =
      if state.read && !(inputs cycle).waitrequest then 1 else 0 := by
  simp only [ReadAccepted, here, Bool.and_eq_true, Bool.not_eq_true']

/-- The accepted reads of a request: the one the slave waits for, and one more for
each of the two outer read states in which the flash is ready. -/
theorem reads_accepted (first granted : Nat) (shape : Shape inputs start first granted) :
    occurrences (ReadAccepted inputs start) first (granted + 3) =
      (if (inputs (first + 1)).waitrequest then 0 else 1) + 1 +
        (if (inputs (granted + 1)).waitrequest then 0 else 1) := by
  have wait : occurrences (ReadAccepted inputs start) (first + 2) granted = 0 := by
    apply occurrences_none
    intro cycle low high accepted
    exact absurd accepted.2 (by simp [(shape.waits cycle low high.le).2 high])
  have opening : occurrences (ReadAccepted inputs start) first (first + 2) =
      if (inputs (first + 1)).waitrequest then 0 else 1 := by
    rw [occurrences_succ _ first (first + 1) (by omega), occurrences_succ _ first first (Nat.le_refl _),
      occurrences_self, accepted_here inputs start first _ shape.idle,
      accepted_here inputs start (first + 1) _ shape.handle]
    cases (inputs (first + 1)).waitrequest <;> rfl
  have closing : occurrences (ReadAccepted inputs start) (first + 2) (granted + 3) =
      1 + if (inputs (granted + 1)).waitrequest then 0 else 1 := by
    have late := shape.late
    rw [occurrences_succ _ (first + 2) (granted + 2) (by omega),
      occurrences_succ _ (first + 2) (granted + 1) (by omega),
      occurrences_succ _ (first + 2) granted late, wait,
      accepted_here inputs start granted _ (shape.waits granted late (Nat.le_refl _)).1,
      accepted_here inputs start (granted + 1) _ shape.strobe,
      accepted_here inputs start (granted + 2) _ shape.finished, shape.ready]
    cases (inputs (granted + 1)).waitrequest <;> rfl
  have late := shape.late
  rw [occurrences_add _ first (first + 2) (granted + 3) (by omega) (by omega), opening, closing,
    Nat.add_assoc]

/-- The read signal is raised up to the first low waitrequest that the slave sees. -/
theorem Shape.raised {first granted : Nat} (shape : Shape inputs start first granted) (cycle : Nat)
    (low : first < cycle) (high : cycle ≤ granted) : (player inputs start cycle).slave.state.read = true := by
  cases Nat.lt_or_ge cycle (first + 2) with
  | inl opening =>
    obtain rfl : cycle = first + 1 := by omega
    rw [shape.handle]
    rfl
  | inr waiting =>
    rw [(shape.waits cycle waiting high).1]
    rfl

/-- The two outer read states of a request take one cycle each. -/
theorem Shape.outside {first granted : Nat} (shape : Shape inputs start first granted) :
    StallsOutside inputs start first (granted + 2) ↔
      (inputs (first + 1)).waitrequest = true ∧ (inputs (granted + 1)).waitrequest = true := by
  have late := shape.late
  constructor
  · intro stalls
    exact ⟨stalls (first + 1) (by omega) (by omega) (.inl shape.handle),
      stalls (granted + 1) (by omega) (by omega) (.inr shape.strobe)⟩
  · rintro ⟨opening, closing⟩ cycle low high outer
    obtain rfl | ⟨later, inside⟩ | rfl :
        cycle = first + 1 ∨ (first + 2 ≤ cycle ∧ cycle ≤ granted) ∨ cycle = granted + 1 := by omega
    · exact opening
    · rw [(shape.waits cycle later inside).1] at outer
      simp at outer
    · exact closing

variable (inputs start) in
/-- A request is served by exactly one read if and only if the flash stalls in the
slave's first and last read states. The read signal is never lowered before the
first acceptance, so that nothing else is needed. -/
theorem one_read_iff (first last : Nat) (request : Request inputs start first last) :
    OneRead inputs start first last ↔ StallsOutside inputs start first last := by
  obtain ⟨granted, rfl, shape⟩ := request_shape first last request
  have count := reads_accepted first granted shape
  have late := shape.late
  rw [shape.outside]
  constructor
  · rintro ⟨exactly, _⟩
    rw [show granted + 2 + 1 = granted + 3 from rfl, count] at exactly
    cases opening : (inputs (first + 1)).waitrequest <;>
      cases closing : (inputs (granted + 1)).waitrequest <;> simp_all
  · rintro ⟨opening, closing⟩
    refine ⟨?_, granted, by omega, by omega, ?_, shape.raised⟩
    · rw [show granted + 2 + 1 = granted + 3 from rfl, count, opening, closing]
      rfl
    · exact ⟨shape.raised granted (by omega) (Nat.le_refl _), shape.ready⟩

/-- A player that asks for one word of a flash with the given waitrequest. -/
def oneWord (waitrequest : Nat → Bool) (cycle : Nat) : Input where
  play := true
  dir := true
  restart := false
  edgeClk := false
  waitrequest := waitrequest cycle
  readdatavalid := false
  readdata := 0

/-- A flash that stalls in the first and the last read state serves one read. -/
theorem one_read_iff_stalling :
    OneRead (oneWord fun cycle => cycle == 2 || cycle == 4) (powerUp 0 0 0 false) 1 5 ↔
      StallsOutside (oneWord fun cycle => cycle == 2 || cycle == 4) (powerUp 0 0 0 false) 1 5 := by
  refine one_read_iff _ _ 1 5 ⟨⟨by decide, by decide⟩, by decide, by decide, fun cycle low high => ?_⟩
  interval_cases cycle <;> decide

/-- A flash that is always ready accepts three reads for the first request. -/
theorem ready_flash_accepts_three :
    Request (oneWord fun _ => false) (powerUp 0 0 0 false) 1 5 ∧
      occurrences (ReadAccepted (oneWord fun _ => false) (powerUp 0 0 0 false)) 1 6 = 3 ∧
      ¬ OneRead (oneWord fun _ => false) (powerUp 0 0 0 false) 1 5 := by
  have three : occurrences (ReadAccepted (oneWord fun _ => false) (powerUp 0 0 0 false)) 1 6 = 3 := by
    decide
  refine ⟨⟨⟨by decide, by decide⟩, by decide, by decide, fun cycle low high => ?_⟩, three, fun one => ?_⟩
  · interval_cases cycle <;> decide
  · exact absurd (one.1.symm.trans three) (by decide)

end CpenLabs.ReadRequest
