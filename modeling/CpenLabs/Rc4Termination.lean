import CpenLabs.Rc4Fsm

/-!
# Every run of the key schedule circuit finishes

rc4_FSM has no reset input: it may start in any of the 128 values of its state register,
with anything in its counters and registers. Each clock edge nevertheless brings it one
cycle nearer to Finish. How many cycles are left depends on the state and, within the two
loops, on the counter that they share; the memory, the key and the other registers have
no part in it.

A value without a branch leads to Idle first and has the longest way, of 2821 cycles.
Within the second loop the number of cycles left determines both the state and the
counter, which gives the order of its iterations.
-/

namespace CpenLabs.Rc4Termination

open Clocked Rc4Fsm

/-- The states of one iteration of the second loop, in their order. -/
def loop2Body : List StateType :=
  [.loop2Start, .loop2GetKey, .loop2ReadI, .loop2WaitI, .loop2ReadJ, .loop2WaitJ, .loop2GetJ, .loop2SwapJ,
    .loop2SwapI, .loop2Done]

/-- The clock edges up to Finish. -/
def remaining (registers : Registers) : Nat :=
  match registers.state with
  | .idle        => 2820
  | .loop1Init   => 2819
  | .loop1Main   => 2562 + (256 - registers.counterI.toNat)
  | .loop1Done   => 2562
  | .loop2Init   => 2561
  | .loop2Start  => 10 * (256 - registers.counterI.toNat)
  | .loop2GetKey => 10 * (256 - registers.counterI.toNat) - 1
  | .loop2ReadI  => 10 * (256 - registers.counterI.toNat) - 2
  | .loop2WaitI  => 10 * (256 - registers.counterI.toNat) - 3
  | .loop2ReadJ  => 10 * (256 - registers.counterI.toNat) - 4
  | .loop2WaitJ  => 10 * (256 - registers.counterI.toNat) - 5
  | .loop2GetJ   => 10 * (256 - registers.counterI.toNat) - 6
  | .loop2SwapJ  => 10 * (256 - registers.counterI.toNat) - 7
  | .loop2SwapI  => 10 * (256 - registers.counterI.toNat) - 8
  | .loop2Done   => 10 * (256 - registers.counterI.toNat) - 9
  | .finish      => 0
  | .default _ _ => 2821

/-- No state is farther from Finish than one without a branch. -/
theorem remaining_le (registers : Registers) : remaining registers ≤ 2821 := by
  unfold remaining
  split <;> omega

/-- Finish alone has no way to go. -/
theorem remaining_zero_iff (registers : Registers) :
    remaining registers = 0 ↔ registers.state = .finish := by
  have bound := registers.counterI.isLt
  unfold remaining
  cases registers.state <;> simp <;> omega

/-- The counter is incremented below 255. -/
theorem counter_succ (counter : BitVec 8) (running : counter ≠ 255) :
    (counter + 1).toNat = counter.toNat + 1 := by
  have bound := counter.isLt
  have apart : counter.toNat ≠ 255 := fun same => running (BitVec.eq_of_toNat_eq same)
  rw [BitVec.toNat_add]
  exact Nat.mod_eq_of_lt (show counter.toNat + 1 < 256 by omega)

/-- A clock edge is one step nearer to Finish. -/
theorem remaining_next (secretKey : BitVec 24) (q : BitVec 8) (registers : Registers)
    (unfinished : 0 < remaining registers) :
    remaining (next secretKey q registers) + 1 = remaining registers := by
  have bound := registers.counterI.isLt
  cases here : registers.state with
  | finish => exact absurd ((remaining_zero_iff registers).mpr here) (Nat.ne_of_gt unfinished)
  | idle | loop1Done | default => simp [remaining, next, here]
  | loop1Init | loop2Init => simp [remaining, next, here]
  | loop1Main =>
    by_cases last : registers.counterI = 255
    · simp [remaining, next, here, last]
    · have counted := counter_succ _ last
      simp only [remaining, next, here, last, ↓reduceIte, counted]
      omega
  | loop2Done =>
    by_cases last : registers.counterI = 255
    · simp [remaining, next, here, last]
    · have counted := counter_succ _ last
      simp only [remaining, next, here, last, ↓reduceIte, counted]
      omega
  | loop2Start | loop2GetKey | loop2ReadI | loop2WaitI | loop2ReadJ | loop2WaitJ | loop2GetJ | loop2SwapJ
  | loop2SwapI =>
    simp only [remaining, next, here]
    omega

/-- Within the second loop the cycles left tell the counter and the place in the body. -/
theorem remaining_body (registers : Registers) (running : 0 < remaining registers)
    (inside : remaining registers ≤ 2560) :
    ∃ offset, loop2Body[offset]? = some registers.state ∧ offset < 10 ∧
      remaining registers + offset = 10 * (256 - registers.counterI.toNat) := by
  have bound := registers.counterI.isLt
  unfold remaining at running inside ⊢
  cases here : registers.state with
  | idle | loop1Init | loop1Main | loop1Done | loop2Init | finish | default =>
    simp only [here] at running inside
    omega
  | loop2Start => exact ⟨0, rfl, by decide, by simp only; omega⟩
  | loop2GetKey => exact ⟨1, rfl, by decide, by simp only; omega⟩
  | loop2ReadI => exact ⟨2, rfl, by decide, by simp only; omega⟩
  | loop2WaitI => exact ⟨3, rfl, by decide, by simp only; omega⟩
  | loop2ReadJ => exact ⟨4, rfl, by decide, by simp only; omega⟩
  | loop2WaitJ => exact ⟨5, rfl, by decide, by simp only; omega⟩
  | loop2GetJ => exact ⟨6, rfl, by decide, by simp only; omega⟩
  | loop2SwapJ => exact ⟨7, rfl, by decide, by simp only; omega⟩
  | loop2SwapI => exact ⟨8, rfl, by decide, by simp only; omega⟩
  | loop2Done => exact ⟨9, rfl, by decide, by simp only; omega⟩

section Runs

variable (secretKey : BitVec 24) (start : Circuit)

/-- The measure of the whole circuit. -/
abbrev cyclesLeft (circuit : Circuit) : Nat := remaining circuit.fsm

/-- Finish is reached for the first time when no cycles are left. -/
theorem first_finish :
    First (fun cycle => (machine secretKey start cycle).fsm.state = .finish) (cyclesLeft start) := by
  have counted := countdown_first step (fun _ => secretKey) start cyclesLeft
    fun key circuit => remaining_next key circuit.memory.q circuit.fsm
  simpa only [cyclesLeft, remaining_zero_iff] using counted

/-- In the 2560 cycles after Loop2_init each iteration has its counter and each state of the
body its place. -/
theorem loop2_order (inInit : start.fsm.state = .loop2Init) (round offset : Nat) (inside : round < 256)
    (within : offset < 10) :
    loop2Body[offset]? = some (machine secretKey start (1 + (10 * round + offset))).fsm.state ∧
      (machine secretKey start (1 + (10 * round + offset))).fsm.counterI = BitVec.ofNat 8 round := by
  have whole : cyclesLeft start = 2561 := by
    simp only [cyclesLeft, remaining, inInit]
  have left : remaining (machine secretKey start (1 + (10 * round + offset))).fsm +
      (1 + (10 * round + offset)) = 2561 :=
    whole ▸ countdown step (fun _ => secretKey) start cyclesLeft
      (fun key circuit => remaining_next key circuit.memory.q circuit.fsm) _ (by omega)
  generalize machine secretKey start (1 + (10 * round + offset)) = circuit at left ⊢
  obtain ⟨place, atPlace, placed, exactly⟩ := remaining_body circuit.fsm (by omega) (by omega)
  have bound := circuit.fsm.counterI.isLt
  obtain rfl : place = offset := by omega
  refine ⟨atPlace, BitVec.eq_of_toNat_eq ?_⟩
  rw [BitVec.toNat_ofNat, Nat.mod_eq_of_lt (show round < 2 ^ 8 by omega)]
  omega

end Runs

/-- From any contents of the registers and the memory the circuit reaches Finish within 2821
cycles. From any visit to Loop2_init on it reaches Finish after 2561 cycles, and in between
it runs through the body of the second loop once for each value of counter_i in turn. -/
theorem finishes_from_any_state (secretKey : BitVec 24) (start : Circuit) :
    (∃ cycle, cycle ≤ 2821 ∧ (machine secretKey start cycle).fsm.state = .finish) ∧
      ∀ first, (machine secretKey start first).fsm.state = .loop2Init →
        First (fun later => (machine secretKey start (first + later)).fsm.state = .finish) 2561 ∧
          ∀ round offset, round < 256 → offset < 10 →
            loop2Body[offset]? =
                some (machine secretKey start (first + (1 + (10 * round + offset)))).fsm.state ∧
              (machine secretKey start (first + (1 + (10 * round + offset)))).fsm.counterI =
                BitVec.ofNat 8 round := by
  refine ⟨⟨cyclesLeft start, remaining_le start.fsm, (first_finish secretKey start).1⟩, ?_⟩
  intro first inInit
  constructor
  · have finishes := first_finish secretKey (machine secretKey start first)
    simp only [cyclesLeft, remaining, inInit] at finishes
    simpa only [machine_add secretKey start first] using finishes
  · intro round offset inside within
    rw [machine_add secretKey start first]
    exact loop2_order secretKey _ inInit round offset inside within

end CpenLabs.Rc4Termination
