import CpenLabs.LostByte
import CpenLabs.Rc4Task1

/-!
# What the initialisation loops leave in the memory

Both circuits put a counter into the address and the data register and write one cycle
later, under an enable that belongs to the state. The states of the loop write one
stale pair first, which the loop itself overwrites unless it stands at 255, and the
state that follows the last assignment has no write enable: the pair of 255 and 255
is registered and never written.

All other places hold their own address afterwards. So the memory is the identity
exactly when the last place held 255 before, or when the stale pair happens to put it
there.
-/

namespace CpenLabs.InitialisationLoop

open Clocked LostByte

/-- Every address holds itself. -/
def Identity (words : BitVec 8 → BitVec 8) : Prop := ∀ place, words place = place

/-- The last place holds 255 before the loop, or the stale address and data registers
put 255 there in the loop's first cycles. -/
def LastPlaceHolds (address data : BitVec 8) (memory : SMemory.Ram) : Prop :=
  if address = 255 then data = 255 else memory.words 255 = 255

/-- The identity but for its last entry is the identity exactly if that entry fits. -/
theorem almostIdentity_iff (last : BitVec 8) : Identity (almostIdentity last) ↔ last = 255 := by
  constructor
  · intro identity
    exact (if_pos rfl).symm.trans (identity 255)
  · rintro rfl place
    unfold almostIdentity
    split_ifs with atEnd
    · exact atEnd.symm
    · rfl

/-- What the loop leaves at 255 is read off the registers and the memory before it. -/
theorem leftover_iff (start : Rc4Fsm.Circuit) :
    leftover start = 255 ↔ LastPlaceHolds start.fsm.address start.fsm.data start.memory := by
  unfold leftover LastPlaceHolds
  split_ifs <;> rfl

section Fsm

open Rc4Fsm

variable (secretKey : BitVec 24) (start : Circuit)

/-- Started in Idle, the circuit has the identity in its memory in the first cycle in
which it is in Loop2_init. -/
def FsmInitialises : Prop :=
  ∃ cycle, First (fun cycle => (machine secretKey start cycle).fsm.state = .loop2Init) cycle ∧
    Identity (machine secretKey start cycle).memory.words

/-- The first loop is not over before its address register has reached 255. -/
theorem fsm_looping (inIdle : start.fsm.state = .idle) (cycle : Nat) (early : cycle < 258) :
    (machine secretKey start cycle).fsm.state ≠ .loop1Done ∧
      (machine secretKey start cycle).fsm.state ≠ .loop2Init := by
  by_cases entered : cycle < 3
  · have first : cycle = 0 ∨ cycle = 1 ∨ cycle = 2 := by omega
    rcases first with rfl | rfl | rfl <;> simp [machine, step, next, inIdle]
  · obtain ⟨count, rfl⟩ : ∃ count, cycle = 3 + count := ⟨cycle - 3, by omega⟩
    have running : count ≠ 255 := by omega
    obtain ⟨state, _⟩ := loop1 secretKey start inIdle count (by omega)
    rw [state, if_neg running]
    exact ⟨by decide, by decide⟩

/-- The first loop ends with the identity but for the entry at 255. -/
theorem fsm_loop1 (inIdle : start.fsm.state = .idle) :
    (machine secretKey start 258).fsm.state = .loop1Done ∧
      (machine secretKey start 258).memory.words = almostIdentity (leftover start) := by
  obtain ⟨state, _, _, _, words⟩ := loop1 secretKey start inIdle 255 (Nat.le_refl _)
  exact ⟨state, words.trans (initialised_all start)⟩

/-- The write enable is low after the loop, so that Loop2_init sees the same memory. -/
theorem fsm_loop2_init (inIdle : start.fsm.state = .idle) :
    First (fun cycle => (machine secretKey start cycle).fsm.state = .loop2Init) 259 ∧
      (machine secretKey start 259).memory.words = almostIdentity (leftover start) := by
  obtain ⟨done, words⟩ := fsm_loop1 secretKey start inIdle
  have disabled : StateType.loop1Done.wren = false := by decide
  refine ⟨⟨?_, ?_⟩, ?_⟩
  · change (step secretKey (machine secretKey start 258)).fsm.state = .loop2Init
    simp only [step, next, done]
  · intro earlier before entered
    rcases Nat.lt_or_eq_of_le (Nat.lt_succ_iff.mp before) with looping | atEnd
    · exact (fsm_looping secretKey start inIdle earlier looping).2 entered
    · have apart : StateType.loop1Done = .loop2Init := (atEnd ▸ done).symm.trans entered
      exact absurd apart (by decide)
  · rw [machine_succ]
    simpa only [step, SMemory.step, done, disabled, Bool.false_eq_true, ↓reduceIte] using words

/-- For rc4_FSM it depends on the one place that the loop leaves alone. -/
theorem fsm_initialises_iff (inIdle : start.fsm.state = .idle) :
    FsmInitialises secretKey start ↔ LastPlaceHolds start.fsm.address start.fsm.data start.memory := by
  obtain ⟨first, words⟩ := fsm_loop2_init secretKey start inIdle
  rw [FsmInitialises, first.exists_iff, words, almostIdentity_iff]
  exact leftover_iff start

end Fsm

section Task

open Rc4Task1

variable (start : Circuit)

/-- The circuit is in idle and has been in finish. -/
def Returned (cycle : Nat) : Prop :=
  (machine start cycle).task.state = .idle ∧
    ∃ before, before < cycle ∧ (machine start before).task.state = .finish

/-- Started in idle, the circuit has the identity in its memory in the first cycle in
which it is back there from finish. -/
def TaskInitialises : Prop :=
  ∃ cycle, First (Returned start) cycle ∧ Identity (machine start cycle).memory.words

/-- rc4_FSM at the point of its first loop where this circuit is. -/
def counterpart : Rc4Fsm.Circuit where
  fsm :=
    { state := .idle, address := start.task.address, data := start.task.data,
      counterI := start.task.counter, counterJ := 0, keyNum := 0, singleSecKey := 0, dataI := 0,
      dataJ := 0 }
  memory := start.memory

/-- The loop of rc4_task1 is the first loop of rc4_FSM. -/
theorem task_agrees (inIdle : start.task.state = .idle) (cycle : Nat) (inside : cycle ≤ 258) :
    Agree (machine start cycle) (Rc4Fsm.machine 0 (counterpart start) cycle) := by
  have agree : Agree start (counterpart start) := by
    refine ⟨?_, rfl, rfl, rfl, rfl⟩
    rw [inIdle]
    exact .idle
  apply agree_run 0 start (counterpart start) agree cycle
  intro earlier before
  exact (fsm_looping 0 (counterpart start) rfl earlier (by omega)).1

/-- The circuit is in finish when the loop is over and not before. -/
theorem task_finish (inIdle : start.task.state = .idle) :
    First (fun cycle => (machine start cycle).task.state = .finish) 258 := by
  constructor
  · exact (task_agrees start inIdle 258 (Nat.le_refl _)).state.finish_iff.mpr (fsm_loop1 0 _ rfl).1
  · intro earlier before finished
    have looping := fsm_looping 0 (counterpart start) rfl earlier before
    exact looping.1 ((task_agrees start inIdle earlier (by omega)).state.finish_iff.mp finished)

/-- The write enable is low in finish too. -/
theorem task_returned (inIdle : start.task.state = .idle) :
    First (Returned start) 259 ∧
      (machine start 259).memory.words = almostIdentity (leftover (counterpart start)) := by
  obtain ⟨finished, before⟩ := task_finish start inIdle
  have disabled : StateType.finish.wren = false := by decide
  refine ⟨⟨⟨?_, 258, by omega, finished⟩, ?_⟩, ?_⟩
  · rw [machine_succ]
    simp only [step, next, finished]
  · rintro earlier early ⟨_, middle, order, reached⟩
    exact before middle (by omega) reached
  · have memory := (task_agrees start inIdle 258 (Nat.le_refl _)).memory
    rw [machine_succ]
    simp only [step, SMemory.step, finished, disabled, Bool.false_eq_true, ↓reduceIte]
    rw [memory]
    exact (fsm_loop1 0 _ rfl).2

/-- For rc4_task1 it depends on the same place. -/
theorem task_initialises_iff (inIdle : start.task.state = .idle) :
    TaskInitialises start ↔ LastPlaceHolds start.task.address start.task.data start.memory := by
  obtain ⟨first, words⟩ := task_returned start inIdle
  rw [TaskInitialises, first.exists_iff, words, almostIdentity_iff]
  exact leftover_iff (counterpart start)

end Task

/-- Either circuit initialises its memory exactly when the place that its loop never
writes holds 255 already. -/
theorem initialises_iff (secretKey : BitVec 24) (fsm : Rc4Fsm.Circuit) (task : Rc4Task1.Circuit)
    (fsmIdle : fsm.fsm.state = .idle) (taskIdle : task.task.state = .idle) :
    (FsmInitialises secretKey fsm ↔ LastPlaceHolds fsm.fsm.address fsm.fsm.data fsm.memory) ∧
      (TaskInitialises task ↔ LastPlaceHolds task.task.address task.task.data task.memory) := by
  constructor
  · exact fsm_initialises_iff secretKey fsm fsmIdle
  · exact task_initialises_iff task taskIdle

/-- rc4_task1 as the device powers up with every register and every byte zero. -/
def zeroedTask : Rc4Task1.Circuit where
  task := { state := .idle, address := 0, data := 0, counter := 0 }
  memory := { words := fun _ => 0, q := 0 }

theorem initialises_iff_zeroed :
    (FsmInitialises Rc4Fsm.wiredKey zeroed ↔ LastPlaceHolds 0 0 zeroed.memory) ∧
      (TaskInitialises zeroedTask ↔ LastPlaceHolds 0 0 zeroedTask.memory) :=
  initialises_iff Rc4Fsm.wiredKey zeroed zeroedTask rfl rfl

/-- Neither zeroed circuit has the identity in its memory after its loop. -/
theorem zeroed_uninitialised : ¬ FsmInitialises Rc4Fsm.wiredKey zeroed ∧ ¬ TaskInitialises zeroedTask := by
  have empty : ¬ LastPlaceHolds 0 0 { words := fun _ => 0, q := 0 } := by
    simp only [LastPlaceHolds]
    decide
  constructor
  · rw [fsm_initialises_iff _ _ rfl]
    exact empty
  · rw [task_initialises_iff _ rfl]
    exact empty

end CpenLabs.InitialisationLoop
