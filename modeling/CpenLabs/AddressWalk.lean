import CpenLabs.FsmMaster

/-!
# The walk over the flash

Lab2's song occupies the words 0 to 0x7FFFF, so that the address register walks
around a ring of 2^19 words and the half-words it selects around one of 2^20. The
23-bit register never leaves this range. Between two reloads its value is fixed by
the number of forward and backward steps alone, whatever the pauses.

The order of the half-words rests on one observation: in every state of the machine
the next half-word to be played is already determined by the state, the address and
the direction. A cycle either plays that half-word and moves on by one, or leaves
it as it is.
-/

namespace CpenLabs.AddressWalk

open Clocked FsmMaster

/-- The walk's length in words. -/
def words : Nat := 2 ^ 19

/-- The reload value of a restart. -/
def reload (dir : Bool) : Nat := if dir then 0 else 0x7FFFF

variable (inputs : Nat → Input) (start : Registers)

/-- The registers of FSM_master in each cycle. -/
abbrev master (cycle : Nat) : Registers := run step inputs start cycle

/-- The cycle ends with a `Finished` step that reloads the address. -/
def Restarts (cycle : Nat) : Prop :=
  (master inputs start cycle).state = .finished ∧ (inputs cycle).restart = true

/-- Number of `Finished` steps in the given direction from cycle `first` up to, but
excluding, cycle `last`. -/
def finishedSteps (dir : Bool) (first last : Nat) : Nat :=
  occurrences (fun cycle =>
    (master inputs start cycle).state = .finished ∧ (inputs cycle).dir = dir) first last

/-- A restart reloads one end of the range. -/
theorem nextAddr_restart (dir : Bool) (addr : BitVec 23) :
    (nextAddr dir true addr).toNat = reload dir := by
  cases dir <;> rfl

/-- Without a restart the address moves by one word around the ring. -/
theorem nextAddr_step (dir : Bool) (addr : BitVec 23) (inside : addr.toNat < words) :
    ((nextAddr dir false addr).toNat : Int) =
      (addr.toNat + (if dir then 1 else -1)) % words := by
  simp only [words] at inside ⊢
  cases dir with
  | true =>
    by_cases before : addr.toNat < 0x7FFFF
    · have less : addr < 0x7FFFF#23 := by simpa [BitVec.lt_def] using before
      have exact : (addr + 1).toNat = addr.toNat + 1 := by
        rw [BitVec.toNat_add]
        simp
        omega
      simp only [nextAddr, Bool.false_eq_true, ↓reduceIte, less, exact]
      omega
    · have notLess : ¬ addr < 0x7FFFF#23 := by simpa [BitVec.lt_def] using before
      have wrapped : nextAddr true false addr = 0 := by simp [nextAddr, notLess]
      rw [wrapped]
      simp
      omega
  | false =>
    by_cases positive : 0 < addr.toNat
    · have greater : addr > 0 := by simpa [BitVec.lt_def] using positive
      have exact : (addr - 1).toNat = addr.toNat - 1 := by
        rw [BitVec.toNat_sub]
        simp
        omega
      simp only [nextAddr, Bool.false_eq_true, ↓reduceIte, greater, exact]
      omega
    · have atZero : addr = 0 := BitVec.eq_of_toNat_eq (by simp; omega)
      subst atZero
      decide

/-- Every `Finished` step stays inside the song. -/
theorem nextAddr_inside (dir restart : Bool) (addr : BitVec 23) (inside : addr.toNat < words) :
    (nextAddr dir restart addr).toNat < words := by
  cases restart with
  | true => rw [nextAddr_restart]; cases dir <;> decide
  | false =>
    have exact := nextAddr_step dir addr inside
    simp only [words] at exact ⊢
    omega

/-- The register never leaves the song. -/
theorem addr_inside (inside : start.addr.toNat < words) (cycle : Nat) :
    (master inputs start cycle).addr.toNat < words := by
  apply run_invariant step inputs start (fun registers => registers.addr.toNat < words) inside
  intro input registers bounded
  simp only [step_addr]
  split
  · exact nextAddr_inside _ _ _ bounded
  · exact bounded

/-- Between two cycles without a reload in between, the address is the earlier one
moved by the forward steps less the backward steps. Induction on the later cycle;
only a `Finished` step changes either side. -/
theorem walk_exact (inside : start.addr.toNat < words) (first last : Nat) (ordered : first ≤ last)
    (noReload : ∀ cycle, first ≤ cycle → cycle < last → ¬ Restarts inputs start cycle) :
    ((master inputs start last).addr.toNat : Int) =
      ((master inputs start first).addr.toNat + finishedSteps inputs start true first last -
        finishedSteps inputs start false first last) % words := by
  induction last, ordered using Nat.le_induction with
  | base =>
    have bound := addr_inside inputs start inside first
    simp only [finishedSteps, occurrences_self, words] at bound ⊢
    omega
  | succ last ordered inductionHypothesis =>
    have before := inductionHypothesis fun cycle low high => noReload cycle low (by omega)
    have bound := addr_inside inputs start inside last
    simp only [finishedSteps] at before ⊢
    rw [occurrences_succ _ first last ordered, occurrences_succ _ first last ordered, master,
      run_succ, step_addr]
    by_cases finished : (master inputs start last).state = .finished
    · have keeps : (inputs last).restart = false := by
        by_contra requested
        exact noReload last ordered (by omega) ⟨finished, by simpa using requested⟩
      have moved := nextAddr_step (inputs last).dir (master inputs start last).addr bound
      simp only [finished, ↓reduceIte, keeps, true_and]
      rw [moved, before]
      cases (inputs last).dir <;> simp [words] <;> omega
    · simp only [finished, ↓reduceIte, false_and]
      simpa using before

/-- Position of a half-word in the song. -/
def index (addr : BitVec 23) : Half → BitVec 20
  | .low => BitVec.ofNat 20 (2 * addr.toNat)
  | .high => BitVec.ofNat 20 (2 * addr.toNat + 1)

/-- The half-words assigned to the audio signal in `count` cycles from `first`, in
the order of their assignment. -/
def halfWords (first count : Nat) : List (BitVec 20) :=
  (List.range' first count).filterMap fun cycle =>
    (selected (inputs cycle).dir (master inputs start cycle).state).map
      (index (master inputs start cycle).addr)

/-- The half-word played next, if the direction stays and no restart comes: the
second half of the current word once the first one is out, and the first half of
the following word once both are. -/
def upcoming (dir : Bool) (registers : Registers) : BitVec 20 :=
  match registers.state with
  | .waitBerctMsb | .transferBerctMsb => index registers.addr (if dir then .high else .low)
  | .finished => index (nextAddr dir false registers.addr) (if dir then .low else .high)
  | _ => index registers.addr (if dir then .low else .high)

/-- The neighbour in the direction of play. -/
def advance (dir : Bool) (position : BitVec 20) : BitVec 20 :=
  if dir then position + 1 else position - 1

/-- The two halves of a word are neighbours. -/
theorem index_second (dir : Bool) (addr : BitVec 23) :
    index addr (if dir then .high else .low) =
      advance dir (index addr (if dir then .low else .high)) := by
  cases dir with
  | true => simp [index, advance, BitVec.ofNat_add]
  | false =>
    simp only [index, advance, BitVec.ofNat_add, Bool.false_eq_true, ↓reduceIte]
    exact (BitVec.add_sub_cancel _ _).symm

/-- The first half of the following word is the neighbour of the second half of this
one, across the end of the song as anywhere else. -/
theorem index_nextAddr (dir : Bool) (addr : BitVec 23) (inside : addr.toNat < words) :
    index (nextAddr dir false addr) (if dir then .low else .high) =
      advance dir (index addr (if dir then .high else .low)) := by
  have moved := nextAddr_step dir addr inside
  apply BitVec.eq_of_toNat_eq
  cases dir <;> simp [index, advance, BitVec.toNat_add, BitVec.toNat_sub, words] at moved inside ⊢ <;>
    omega

/-- What one cycle does to the order of play. Either it assigns the upcoming
half-word and moves on to its neighbour, or it assigns none and nothing changes. -/
theorem upcoming_step (dir : Bool) (input : Input) (registers : Registers)
    (inside : registers.addr.toNat < words) (direction : input.dir = dir)
    (noRestart : input.restart = false) :
    ((selected input.dir registers.state).map (index registers.addr) =
        some (upcoming dir registers) ∧
      upcoming dir (step input registers) = advance dir (upcoming dir registers)) ∨
    (selected input.dir registers.state = none ∧
      upcoming dir (step input registers) = upcoming dir registers) := by
  subst direction
  cases current : registers.state with
  | idle | waitReadAddr | waitBerctLsb | waitBerctMsb =>
    right
    refine ⟨rfl, ?_⟩
    simp only [upcoming, step_state, step_addr, current, nextState, reduceCtorEq, ↓reduceIte]
    split_ifs <;> rfl
  | startReadAddr => right; simp [upcoming, selected, current, nextState]
  | transferBerctLsb =>
    left
    refine ⟨by simp [upcoming, selected, current], ?_⟩
    simpa [upcoming, current, nextState] using index_second input.dir registers.addr
  | transferBerctMsb =>
    left
    refine ⟨by simp [upcoming, selected, current], ?_⟩
    simpa [upcoming, current, nextState] using index_nextAddr input.dir registers.addr inside
  | finished => right; simp [upcoming, selected, current, nextState, noRestart]

/-- In a stretch of constant direction without a restart the half-words assigned are
consecutive around the ring, starting from the one that was upcoming at its start.
Induction on the length of the stretch; the register's upcoming half-word is always
the neighbour of the last one assigned. -/
theorem halfWords_consecutive (inside : start.addr.toNat < words) (dir : Bool) (first count : Nat)
    (direction : ∀ cycle, first ≤ cycle → cycle < first + count → (inputs cycle).dir = dir)
    (noRestart : ∀ cycle, first ≤ cycle → cycle < first + count → (inputs cycle).restart = false) :
    halfWords inputs start first count =
        (List.range (halfWords inputs start first count).length).map
          (fun played => (advance dir)^[played] (upcoming dir (master inputs start first))) ∧
      upcoming dir (master inputs start (first + count)) =
        (advance dir)^[(halfWords inputs start first count).length]
          (upcoming dir (master inputs start first)) := by
  induction count with
  | zero => simp [halfWords]
  | succ count inductionHypothesis =>
    obtain ⟨consecutive, next⟩ := inductionHypothesis
      (fun cycle low high => direction cycle low (by omega))
      (fun cycle low high => noRestart cycle low (by omega))
    have bound := addr_inside inputs start inside (first + count)
    have extended : halfWords inputs start first (count + 1) =
        halfWords inputs start first count ++
          ((selected (inputs (first + count)).dir (master inputs start (first + count)).state).map
            (index (master inputs start (first + count)).addr)).toList := by
      rw [halfWords, List.range'_1_concat, List.filterMap_append, ← halfWords]
      rfl
    have oneCycle := upcoming_step dir (inputs (first + count)) (master inputs start (first + count))
      bound (direction _ (by omega) (by omega)) (noRestart _ (by omega) (by omega))
    have later : master inputs start (first + (count + 1)) =
        step (inputs (first + count)) (master inputs start (first + count)) := rfl
    rcases oneCycle with ⟨played, moved⟩ | ⟨silent, kept⟩
    · rw [extended, played, later, moved, next]
      refine ⟨?_, by simp [Function.iterate_succ_apply']⟩
      simp only [Option.toList_some, List.length_append, List.length_singleton, List.range_succ,
        List.map_append, List.map_singleton]
      rw [← consecutive]
    · rw [extended, silent, later, kept, next]
      simpa using consecutive

/-- Repeated moves in one direction are one addition or subtraction around the ring. -/
theorem advance_iterate (dir : Bool) (position : BitVec 20) (moves : Nat) :
    (advance dir)^[moves] position =
      if dir then position + BitVec.ofNat 20 moves else position - BitVec.ofNat 20 moves := by
  induction moves with
  | zero => cases dir <;> simp
  | succ moves inductionHypothesis =>
    rw [Function.iterate_succ_apply', inductionHypothesis]
    cases dir
    · simp only [advance, Bool.false_eq_true, ↓reduceIte, BitVec.ofNat_add]
      bv_omega
    · simp [advance, BitVec.ofNat_add, BitVec.add_assoc]

/-- The address register stays inside the song and changes on leaving `Finished`
only; after a `Finished` step it is the value of the last reload, or the starting
value if there was none, moved by the forward and backward steps since; the sample
register takes the half-word that a cycle selects, and keeps its value in a cycle that
selects none; and the half-words of a stretch with one direction and no restart follow
one another around the ring of 2^20 positions. The inputs are unconstrained, and the
starting state of the machine is immaterial. -/
theorem sample_order (inside : start.addr.toNat ≤ 0x7FFFF) :
    (∀ cycle, (master inputs start cycle).addr.toNat < 2 ^ 19 ∧
      ((master inputs start (cycle + 1)).addr ≠ (master inputs start cycle).addr →
        (master inputs start cycle).state = .finished)) ∧
    (∀ cycle, (master inputs start cycle).state = .finished →
      (∀ reloaded ≤ cycle, Restarts inputs start reloaded →
        (∀ later, reloaded < later → later ≤ cycle → ¬ Restarts inputs start later) →
        ((master inputs start (cycle + 1)).addr.toNat : Int) =
          (reload (inputs reloaded).dir +
            finishedSteps inputs start true (reloaded + 1) (cycle + 1) -
            finishedSteps inputs start false (reloaded + 1) (cycle + 1)) % 2 ^ 19) ∧
      ((∀ earlier ≤ cycle, ¬ Restarts inputs start earlier) →
        ((master inputs start (cycle + 1)).addr.toNat : Int) =
          (start.addr.toNat + finishedSteps inputs start true 0 (cycle + 1) -
            finishedSteps inputs start false 0 (cycle + 1)) % 2 ^ 19)) ∧
    (∀ cycle, (master inputs start (cycle + 1)).audioSignal =
      match selected (inputs cycle).dir (master inputs start cycle).state with
      | some half => half.of (inputs cycle).flashMemData
      | none => (master inputs start cycle).audioSignal) ∧
    (∀ dir first count,
      (∀ cycle, first ≤ cycle → cycle < first + count →
        (inputs cycle).dir = dir ∧ (inputs cycle).restart = false) →
      ∃ position, halfWords inputs start first count =
        (List.range (halfWords inputs start first count).length).map fun played =>
          if dir then position + BitVec.ofNat 20 played
          else position - BitVec.ofNat 20 played) := by
  have bounded : start.addr.toNat < words := by
    simp only [words]
    omega
  refine ⟨fun cycle => ⟨addr_inside inputs start bounded cycle, ?_⟩, fun cycle _ => ⟨?_, ?_⟩,
    fun cycle => ?_, ?_⟩
  · intro changed
    by_contra elsewhere
    exact changed (by simp [master, elsewhere])
  · intro reloaded earlier restarts none
    have loaded : (master inputs start (reloaded + 1)).addr.toNat = reload (inputs reloaded).dir := by
      rw [master, run_succ, step_addr, if_pos restarts.1, restarts.2, nextAddr_restart]
    have walked := walk_exact inputs start bounded (reloaded + 1) (cycle + 1) (by omega)
      (fun later low high => none later (by omega) (by omega))
    rw [loaded] at walked
    exact walked
  · intro none
    exact walk_exact inputs start bounded 0 (cycle + 1) (by omega)
      (fun earlier _ high => none earlier (by omega))
  · rw [master, run_succ, step_audioSignal]
    cases selected (inputs cycle).dir (master inputs start cycle).state <;> rfl
  · intro dir first count constant
    refine ⟨upcoming dir (master inputs start first), ?_⟩
    simpa only [advance_iterate] using
      (halfWords_consecutive inputs start bounded dir first count
        (fun cycle low high => (constant cycle low high).1)
        (fun cycle low high => (constant cycle low high).2)).1

/-- A player that is always ready and plays backwards. -/
def backwards (_ : Nat) : Input where
  edgeClk := true
  restart := false
  play := true
  dir := false
  slaveFinish := true
  flashMemData := 0xAAAA5555

/-- It starts from the last word. -/
def lastWord : Registers where
  state := .idle
  addr := 0x7FFFF#23
  audioSignal := 0

/-- In the first two words it steps back by one word, and plays the last four half-words
of the song from behind, the upper half of each word first. -/
theorem sample_order_backwards :
    (master backwards lastWord 8).addr = 0x7FFFE#23 ∧
      halfWords backwards lastWord 0 16 = [0xFFFFF, 0xFFFFE, 0xFFFFD, 0xFFFFC] ∧
      (master backwards lastWord 5).audioSignal = 0xAAAA ∧
      (master backwards lastWord 7).audioSignal = 0x5555 := by
  obtain ⟨_, walk, assigns, order⟩ := sample_order backwards lastWord (by decide)
  have walked := (walk 7 (by decide)).2 fun _ _ restarts => Bool.false_ne_true restarts.2
  have forwards : finishedSteps backwards lastWord true 0 8 = 0 :=
    occurrences_none _ 0 8 fun _ _ _ finished => Bool.false_ne_true finished.2
  have steps : finishedSteps backwards lastWord false 0 8 = 1 := by decide
  obtain ⟨position, played⟩ := order false 0 16 fun _ _ _ => ⟨rfl, rfl⟩
  have four : (halfWords backwards lastWord 0 16).length = 4 := by decide
  have first : (halfWords backwards lastWord 0 16).head? = some 0xFFFFF := by decide
  rw [four] at played
  have fromLast : position = 0xFFFFF := by
    rw [played] at first
    simpa using Option.some.inj first
  refine ⟨?_, ?_, assigns 4, assigns 6⟩
  · rw [forwards, steps] at walked
    exact BitVec.eq_of_toNat_eq (Int.ofNat.inj walked)
  · rw [played, fromLast]
    decide

end CpenLabs.AddressWalk
