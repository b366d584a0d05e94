import CpenLabs.SdramRequests

/-!
# The answers of the memory

A read is answered four cycles after its command has been on the pins: three for the
latency of the memory, which looks its word up at the end of them, and one for the
register of the controller. So the word that is answered is the one at the time of the
read only if no write comes in between. None does, because the FSM has to close the row
of a read before it can open one for a write.

The latency is the one that the initialisation has loaded; until then the memory may
have any. From this and the order of the requests it follows that the circuit answers
as a memory that performs its requests one after the other, and that the controller and
the memory never drive the data lines at the same time.
-/

namespace CpenLabs.SdramController

open SequentialMemory

section Masks

/-- A read asks for both bytes. -/
def Entry.Unmasked (entry : Entry) : Prop := entry.rnw = true → entry.dqm = 0

/-- It is stored so. -/
theorem Request.entry_unmasked (request : Request) : request.entry.Unmasked :=
  fun read => if_pos read

/-- Between two edges, no read is masked. -/
structure System.Unmasked (system : System) : Prop where
  waiting : ∀ entry ∈ system.controller.waiting, entry.Unmasked
  pins : commandOf system.controller.main.mCmd = .read → system.controller.main.mDqm = 0

variable {input : Input} {system : System}

/-- An edge masks no read: each one on the pins has been waiting. -/
theorem System.Unmasked.step (unmasked : system.Unmasked) (serves : system.Serves) :
    (system.step input).Unmasked := by
  have all : ∀ entry ∈ system.controller.main.issued system.controller.mainInput ++
      (system.step input).controller.waiting, entry.Unmasked := by
    rw [← serves.conserves]
    intro entry present
    obtain waiting | new := List.mem_append.mp present
    · exact unmasked.waiting entry waiting
    · split_ifs at new
      · rw [List.mem_singleton.mp new]
        exact input.request.entry_unmasked
      · cases new
  constructor
  case waiting => exact fun entry present => all entry (List.mem_append_right _ present)
  case pins =>
    intro read
    obtain ⟨state, unspun⟩ := serves.reads read
    obtain ⟨serving, chosen⟩ := serves.phase.direction (.inl state)
    have issued : system.controller.main.issued system.controller.mainInput =
        [system.controller.main.selected system.controller.mainInput] := by
      rw [MainFsm.issued, state]
      exact if_neg (unspun ▸ Bool.false_ne_true)
    have reads : (system.controller.main.selected system.controller.mainInput).rnw = true := by
      have direction := (MainFsm.selected_serving system.controller.mainInput).1.trans
        (serving.symm.trans state)
      rw [Entry.serving] at direction
      split_ifs at direction with rnw
      exact rnw
    rw [System.step_main, MainFsm.step_read state, (MainFsm.read_pins _ chosen).2.2.2.1]
    exact all _ (issued ▸ List.mem_append_left _ (List.mem_singleton_self _)) reads

end Masks

section Stages

/-- A read goes through three stages, in the controller and in the memory. -/
theorem shifted_stages : ∀ stages : BitVec 3, ∀ first : Bool,
    (stages <<< 1 ||| (0#2 ++ BitVec.ofBool first)).getLsbD 0 = first ∧
      (stages <<< 1 ||| (0#2 ++ BitVec.ofBool first)).getLsbD 1 = stages.getLsbD 0 ∧
      (stages <<< 1 ||| (0#2 ++ BitVec.ofBool first)).getLsbD 2 = stages.getLsbD 1 := by
  decide

/-- The memory writes the same shift bit by bit. -/
theorem appended_stages : ∀ stages : BitVec 3, ∀ first : Bool,
    BitVec.ofBool (stages.getLsbD 1) ++ BitVec.ofBool (stages.getLsbD 0) ++ BitVec.ofBool first =
      stages <<< 1 ||| (0#2 ++ BitVec.ofBool first) := by
  decide

variable {input : Input} {system : System}

/-- The stages of the controller after an edge. -/
theorem System.Serves.rdValid (serves : system.Serves) (input : Input) :
    ((system.step input).controller.read.rdValid.getLsbD 0 = true ↔
        commandOf system.controller.main.mCmd = .read) ∧
      (system.step input).controller.read.rdValid.getLsbD 1 = system.controller.read.rdValid.getLsbD 0 ∧
      (system.step input).controller.read.rdValid.getLsbD 2 =
        system.controller.read.rdValid.getLsbD 1 := by
  obtain ⟨first, second, third⟩ := shifted_stages system.controller.read.rdValid
    (system.controller.main.mCmd.extractLsb' 0 3 == 5)
  refine ⟨?_, second, third⟩
  rw [← serves.strobe, ← beq_iff_eq (a := system.controller.main.mCmd.extractLsb' 0 3), ← first]
  rfl

/-- The stages of the memory after an edge. -/
theorem System.rdValidPipe (system : System) (input : Input) :
    (system.step input).component.rdValidPipe.getLsbD 0 =
        (commandOf system.controller.main.mCmd == .read) ∧
      (system.step input).component.rdValidPipe.getLsbD 1 = system.component.rdValidPipe.getLsbD 0 ∧
      (system.step input).component.rdValidPipe.getLsbD 2 = system.component.rdValidPipe.getLsbD 1 := by
  have stages := shifted_stages system.component.rdValidPipe
    (commandOf system.controller.main.mCmd == .read)
  rw [← appended_stages] at stages
  exact stages

end Stages

section Latency

/-- The latency that the memory has after the command on its pins. -/
def System.latency (system : System) : BitVec 3 :=
  if commandOf system.controller.main.mCmd = .loadMode then system.controller.main.mAddr.extractLsb' 4 3
  else system.component.latency

/-- How far the initialisation is, with the latency that the memory has next. -/
inductive InitPhase (init : Initialisation) (latency : BitVec 3) : Prop
  | early (state : init.iState ≠ .done) (next : init.iNext ≠ .done) (unfinished : init.initDone = false)
  /-- The mode is on its way. -/
  | sent (state : init.iState = .countDown) (next : init.iNext = .done) (count : init.iCount = 4)
      (cmd : init.iCmd = 0#1 ++ 0#3) (addr : init.iAddr = mode) (unfinished : init.initDone = false)
  | loaded (state : init.iState = .countDown) (next : init.iNext = .done)
      (cmd : init.iCmd = 0#1 ++ 7#3) (three : latency = 3) (unfinished : init.initDone = false)
  | done (state : init.iState = .done) (cmd : init.iCmd = 0#1 ++ 7#3) (three : latency = 3)

/-- The main FSM waits for the initialisation, and a read finds the latency loaded. -/
structure System.Loads (system : System) : Prop where
  phase : InitPhase system.controller.init system.latency
  waits : system.controller.init.initDone = false → system.controller.main.mState = .idle
  ready : commandOf system.controller.main.mCmd = .read ∨
      (∃ stage, system.controller.read.rdValid.getLsbD stage = true) →
    system.controller.init.initDone = true ∧ system.component.latency = 3

/-- A finished initialisation has loaded the latency. -/
theorem InitPhase.finished {init : Initialisation} {latency : BitVec 3} (phase : InitPhase init latency)
    (finished : init.initDone = true) : init.iState = .done ∧ latency = 3 := by
  cases phase with
  | done state _ three => exact ⟨state, three⟩
  | early _ _ unfinished | sent _ _ _ _ _ unfinished | loaded _ _ _ _ unfinished =>
    rw [finished] at unfinished
    cases unfinished

/-- The mode goes over the pins while the initialisation has them. -/
theorem InitPhase.step {init : Initialisation} {latency latency' : BitVec 3}
    (phase : InitPhase init latency)
    (counted : Bool)
    (passes : init.initDone = false →
      latency' = if commandOf init.iCmd = .loadMode then init.iAddr.extractLsb' 4 3 else latency)
    (keeps : init.initDone = true → latency' = latency) : InitPhase (init.step counted) latency' := by
  have noOperation : commandOf (0#1 ++ 7#3) ≠ .loadMode := by decide
  have loadMode : commandOf (0#1 ++ 0#3) = .loadMode := by decide
  cases phase with
  | early state next unfinished =>
    cases same : init.iState with
    | done => exact absurd same state
    | loadMode =>
      refine .sent ?_ ?_ ?_ ?_ ?_ ?_ <;> simp [Initialisation.step, same, unfinished]
    | wait | countDown =>
      refine .early ?_ ?_ ?_ <;> simp only [Initialisation.step, same, unfinished]
      · split_ifs <;> simp [next]
      · exact next
      · rfl
    | precharge =>
      refine .early ?_ ?_ ?_ <;> simp [Initialisation.step, same, unfinished]
    | autoRefresh =>
      refine .early ?_ ?_ ?_ <;> simp only [Initialisation.step, same, unfinished]
      · simp
      · split_ifs <;> simp
      · rfl
  | sent state next count cmd addr unfinished =>
    have three : latency' = 3 := by
      rw [passes unfinished, cmd, if_pos loadMode, addr]
      rfl
    refine .loaded ?_ ?_ ?_ three ?_ <;> simp [Initialisation.step, state, next, count, unfinished]
  | loaded state next cmd three unfinished =>
    have kept : latency' = 3 := by rw [passes unfinished, cmd, if_neg noOperation, three]
    by_cases counting : 1 < init.iCount
    · refine .loaded ?_ ?_ ?_ kept ?_ <;> simp only [Initialisation.step, state, unfinished]
      · rw [if_pos counting]
      · exact next
      · rfl
    · refine .done ?_ ?_ kept <;> simp only [Initialisation.step, state]
      rw [if_neg counting, next]
  | done state cmd three =>
    have kept : latency' = 3 := by
      cases finished : init.initDone with
      | false => rw [passes finished, cmd, if_neg noOperation, three]
      | true => rw [keeps finished, three]
    refine .done ?_ ?_ kept <;> simp only [Initialisation.step, state]
    exact cmd

variable {input : Input} {system : System}

/-- Until then the initialisation has the pins. -/
theorem System.Loads.passes (loads : system.Loads) (input : Input)
    (unfinished : system.controller.init.initDone = false) :
    (system.step input).controller.main.mCmd = system.controller.init.iCmd ∧
      (system.step input).controller.main.mAddr = system.controller.init.iAddr ∧
      (system.step input).controller.main.mState = .idle := by
  have step : system.controller.main.step system.controller.mainInput =
      system.controller.main.idle system.controller.mainInput :=
        MainFsm.step_idle (loads.waits unfinished)
  have idle : system.controller.main.idle system.controller.mainInput =
      { system.controller.main with
        fPop := false
        oe := false
        mAddr := system.controller.init.iAddr
        mState := .idle
        mNext := .idle
        mCmd := system.controller.init.iCmd } :=
    if_neg (fun done => Bool.false_ne_true (unfinished.symm.trans done))
  have both := step.trans idle
  exact ⟨congrArg MainFsm.mCmd both, congrArg MainFsm.mAddr both, congrArg MainFsm.mState both⟩

/-- An edge keeps all of it. -/
theorem System.Loads.step (loads : system.Loads) (serves : system.Serves) :
    (system.step input).Loads where
  phase := by
    refine loads.phase.step (system.controller.refresh.refreshCounter == 0) ?_ ?_
    · intro unfinished
      obtain ⟨mCmd, mAddr, -⟩ := loads.passes input unfinished
      rw [System.latency, mCmd, mAddr]
      rfl
    · intro finished
      rw [System.latency, if_neg (serves.noMode finished)]
      rfl
  waits := by
    intro unfinished
    have before : system.controller.init.initDone = false := by
      change (system.controller.init.initDone || _) = false at unfinished
      exact (Bool.or_eq_false_iff.mp unfinished).1
    exact (loads.passes input before).2.2
  ready := by
    intro reading
    have finished : system.controller.init.initDone = true := by
      cases now : system.controller.init.initDone with
      | true => rfl
      | false =>
        have idle := loads.waits now
        obtain read | read := reading
        · have state := (serves.reads read).1
          rw [idle] at state
          cases state
        · obtain ⟨stage, valid⟩ := read
          obtain ⟨first, second, third⟩ := serves.rdValid input
          have before : commandOf system.controller.main.mCmd = .read ∨
              ∃ stage, system.controller.read.rdValid.getLsbD stage = true := by
            obtain rfl | rfl | rfl | beyond : stage = 0 ∨ stage = 1 ∨ stage = 2 ∨ 3 ≤ stage := by omega
            · exact .inl (first.mp valid)
            · exact .inr ⟨0, second.symm.trans valid⟩
            · exact .inr ⟨1, third.symm.trans valid⟩
            · rw [BitVec.getLsbD_of_ge _ _ beyond] at valid
              cases valid
          exact now.symm.trans (loads.ready before).1
    refine ⟨?_, (loads.phase.finished finished).2⟩
    change (system.controller.init.initDone || _) = true
    rw [finished]
    rfl

end Latency

section Distance

/-- How many edges there are at least before a write is put on the pins. A row that has
been opened for a read has to be closed before. -/
def MainFsm.edgesToWrite (main : MainFsm) : Nat :=
  match main.mState with
  | .write => 0
  | .countDown => if main.mNext = .write then main.mCount.toNat else 5
  | .activate => 4
  | .read | .rowOpen => if main.active.rnw then 5 else 0
  | .idle | .close | .precharge | .autoRefresh => 5

variable {input : MainInput} {main : MainFsm} {queue : List Entry} {row : BitVec 15}

/-- After a read it is far away. -/
theorem MainFsm.continued_edgesToWrite (next : MainFsm) (state : next.mState = .read)
    (direction : main.active.rnw = true) (same : next.active = main.active) :
    (main.continued input next).edgesToWrite = 5 := by
  rw [MainFsm.continued]
  split_ifs with pending
  · rfl
  · have rnw : input.f.rnw = true := by
      have matching := (MainFsm.pending_serving pending).1
      rw [Entry.serving, Entry.serving, if_pos direction] at matching
      split_ifs at matching with rnw
      exact rnw
    rw [MainFsm.take, MainFsm.edgesToWrite, state]
    exact if_pos rnw
  · rw [MainFsm.edgesToWrite, same, direction]
    rfl

/-- After a read, a write is five edges away. -/
theorem Phase.edgesToWrite_read (phase : Phase main queue row input.refreshRequest)
    (state : main.mState = .read) : (main.step input).edgesToWrite = 5 := by
  obtain ⟨serving, -⟩ := phase.direction (.inl state)
  have direction : main.active.rnw = true := by
    rw [Entry.serving, state] at serving
    split_ifs at serving with direction
    exact direction
  rw [MainFsm.step_read state]
  exact MainFsm.continued_edgesToWrite _ state direction rfl

/-- The end of a count. -/
theorem MainFsm.countDown_cases (main : MainFsm) (input : MainInput) :
    ((main.countDown input).mState = .countDown ∧ (main.countDown input).mNext = main.mNext ∧
        main.mCount.toNat = (main.countDown input).mCount.toNat + 1) ∨
      ((main.countDown input).mState = main.mNext ∧ main.mCount.toNat ≤ 1) := by
  rw [MainFsm.countDown]
  by_cases counting : 1 < main.mCount
  · refine .inl ⟨if_pos counting, rfl, ?_⟩
    dsimp only
    rw [if_pos counting]
    bv_omega
  · refine .inr ⟨if_neg counting, ?_⟩
    rw [BitVec.lt_def] at counting
    exact Nat.le_of_not_lt counting

/-- An edge brings a write one edge nearer at most. -/
theorem Phase.edgesToWrite_step (phase : Phase main queue row input.refreshRequest) :
    main.edgesToWrite ≤ (main.step input).edgesToWrite + 1 := by
  cases phase with
  | opening state next _ _ _ =>
    rw [MainFsm.step_countDown state, MainFsm.edgesToWrite, state]
    have active : (main.countDown input).active = main.active := rfl
    rw [Entry.serving] at next
    obtain ⟨state', next', count⟩ | ⟨state', last⟩ := main.countDown_cases input
    · rw [MainFsm.edgesToWrite, state', next', count]
      dsimp only
      split_ifs
      · exact Nat.le_refl _
      · decide
    · rw [MainFsm.edgesToWrite, state', active, next]
      cases main.active.rnw with
      | true => simp
      | false => exact last
  | closing state _ next =>
    have later : (main.step input).edgesToWrite = 5 := by
      rw [MainFsm.step_countDown state, MainFsm.edgesToWrite]
      obtain ⟨state', next', -⟩ | ⟨state', -⟩ := main.countDown_cases input
      · rw [state', next']
        obtain next | next := next <;> rw [next] <;> rfl
      · rw [state']
        obtain next | next := next <;> rw [next]
    rw [later, MainFsm.edgesToWrite, state]
    obtain next | next := next <;> simp [next]
  | serving state chosen opened =>
    have served := state
    rw [Entry.serving] at served
    split_ifs at served
    · rw [(Phase.serving state chosen opened : Phase main queue row _).edgesToWrite_read served,
        MainFsm.edgesToWrite, served]
      dsimp only
      split_ifs
      decide
    · rw [MainFsm.edgesToWrite, served]
      exact Nat.zero_le _
  | idle state _ _ =>
    rw [MainFsm.step_idle state, MainFsm.idle, MainFsm.edgesToWrite, state]
    split_ifs <;> simp [MainFsm.edgesToWrite, MainFsm.take]
  | activate state _ _ _ =>
    rw [MainFsm.step_activate state, MainFsm.activate, MainFsm.edgesToWrite, state]
    cases main.active.rnw <;> simp [MainFsm.edgesToWrite]
  | close state _ _ _ =>
    rw [MainFsm.step_close state, MainFsm.close, MainFsm.edgesToWrite, state]
    split_ifs <;> simp [MainFsm.edgesToWrite]
  | precharge state _ next =>
    rw [MainFsm.step_precharge state, MainFsm.precharge, MainFsm.edgesToWrite, state]
    obtain ⟨next, _⟩ | ⟨next, _⟩ := next <;> simp [MainFsm.edgesToWrite, next]
  | autoRefresh state _ =>
    rw [MainFsm.step_autoRefresh state, MainFsm.autoRefresh, MainFsm.edgesToWrite, state]
    simp [MainFsm.edgesToWrite]
  | rowOpen state _ _ _ =>
    rw [MainFsm.edgesToWrite, state]
    cases direction : main.active.rnw with
    | false => exact Nat.zero_le _
    | true =>
      have matches' : main.matching input = true → input.f.rnw = true := by
        intro matching
        simp only [MainFsm.matching, Bool.and_eq_true, beq_iff_eq] at matching
        rw [← matching.1.1.2, direction]
      rw [MainFsm.step_rowOpen state, MainFsm.rowOpen]
      split_ifs <;> simp_all [MainFsm.edgesToWrite, MainFsm.take]

end Distance

section Flight

/-- A read in a stage: no write comes before its word is looked up, and the memory has it
in the same stage, unmasked. -/
def System.Flying (system : System) (stage : Nat) (mask : BitVec 2) : Prop :=
  system.controller.read.rdValid.getLsbD stage = true →
    4 - stage ≤ system.controller.main.edgesToWrite ∧
      system.component.rdValidPipe.getLsbD stage = true ∧ mask = 0

/-- What holds of the reads between two edges. -/
structure System.Pipelined (system : System) : Prop where
  pins : commandOf system.controller.main.mCmd = .read → system.controller.main.edgesToWrite = 5
  first : system.Flying 0 system.component.rdMaskPipe0
  second : system.Flying 1 system.component.rdMaskPipe1
  third : system.Flying 2 system.component.rdMaskPipe2
  alone : commandOf system.controller.main.mCmd = .write →
    system.controller.read.rdValid.getLsbD 0 = false ∧ system.controller.read.rdValid.getLsbD 1 = false ∧
      system.controller.read.rdValid.getLsbD 2 = false

variable {input : Input} {system : System}

/-- An edge takes each read one stage further. -/
theorem System.Pipelined.step (pipelined : system.Pipelined) (serves : system.Serves)
    (unmasked : system.Unmasked) : (system.step input).Pipelined := by
  obtain ⟨first, second, third⟩ := serves.rdValid input
  obtain ⟨pipeFirst, pipeSecond, pipeThird⟩ := system.rdValidPipe input
  have nearer : system.controller.main.edgesToWrite ≤
      (system.step input).controller.main.edgesToWrite + 1 :=
    @Phase.edgesToWrite_step system.controller.mainInput _ _ _ serves.phase
  constructor
  case pins =>
    intro read
    exact @Phase.edgesToWrite_read system.controller.mainInput _ _ _ serves.phase (serves.reads read).1
  case first =>
    intro valid
    have read := first.mp valid
    rw [pipelined.pins read] at nearer
    exact ⟨Nat.le_of_succ_le_succ nearer, by rw [pipeFirst, read]; rfl, unmasked.pins read⟩
  case second =>
    intro valid
    obtain ⟨distance, pipe, mask⟩ := pipelined.first (second.symm.trans valid)
    exact ⟨Nat.le_of_succ_le_succ (distance.trans nearer), pipeSecond.trans pipe, mask⟩
  case third =>
    intro valid
    obtain ⟨distance, pipe, mask⟩ := pipelined.second (third.symm.trans valid)
    exact ⟨Nat.le_of_succ_le_succ (distance.trans nearer), pipeThird.trans pipe, mask⟩
  case alone =>
    intro write
    have near : system.controller.main.edgesToWrite = 0 := by
      rw [MainFsm.edgesToWrite, serves.writes write]
    refine ⟨?_, ?_, ?_⟩
    · rw [← Bool.not_eq_true, first]
      intro read
      rw [pipelined.pins read] at near
      cases near
    · rw [second, ← Bool.not_eq_true]
      intro valid
      have distance := (pipelined.first valid).1
      omega
    · rw [third, ← Bool.not_eq_true]
      intro valid
      have distance := (pipelined.second valid).1
      omega

/-- The answers that the controller gives in a cycle. -/
def System.replies (system : System) : List (BitVec 16) :=
  if system.controller.read.zaValid then [system.controller.read.zaData] else []

/-- The answers to come, the oldest first: the words at the addresses in the stages. -/
def System.inFlight (system : System) : List (BitVec 16) :=
  (if system.controller.read.rdValid.getLsbD 2 then
      [system.component.memArray system.component.rdAddrPipe2] else []) ++
    (if system.controller.read.rdValid.getLsbD 1 then
        [system.component.memArray system.component.rdAddrPipe1] else []) ++
    if system.controller.read.rdValid.getLsbD 0 then
      [system.component.memArray system.component.rdAddrPipe0] else []

/-- Without a mask the word is the whole word. -/
theorem masked_none (word other : BitVec 16) : masked 0 word other = word := by
  have whole : word.extractLsb' 8 8 ++ word.extractLsb' 0 8 = word.extractLsb' 0 16 :=
    BitVec.extractLsb'_append_extractLsb'_eq_extractLsb' rfl
  exact whole.trans (BitVec.extractLsb'_eq_self)

/-- A read at the last stage has its word on the data lines. -/
theorem System.Pipelined.zsDq (pipelined : system.Pipelined) (serves : system.Serves)
    (loads : system.Loads)
    (valid : system.controller.read.rdValid.getLsbD 2 = true) :
    system.zsDq input = system.component.memArray system.component.rdAddrPipe2 := by
  obtain ⟨-, pipe, mask⟩ := pipelined.third valid
  obtain ⟨-, latency⟩ := loads.ready (.inr ⟨2, valid⟩)
  have noWrite : commandOf system.controller.main.mCmd ≠ .write := by
    intro write
    rw [(pipelined.alone write).2.2] at valid
    cases valid
  have undriven : ¬ system.controller.main.oe = true := fun driven => noWrite (serves.driven.mp driven)
  have index : system.component.index = 2 := by rw [TestComponent.index, latency]; rfl
  have readValid : system.component.readValid = true := by
    rw [TestComponent.readValid, index]
    exact pipe
  have readMask : system.component.readMask = 0 := by
    rw [TestComponent.readMask, index]
    exact mask
  have readAddr : system.component.readAddr = system.component.rdAddrPipe2 := by
    rw [TestComponent.readAddr, index]
    rfl
  have readData : system.component.readData system.controller.main.pins =
      system.component.memArray system.component.rdAddrPipe2 := by
    rw [TestComponent.readData, ← readAddr]
    exact congrArg _ (if_neg noWrite)
  rw [System.zsDq, if_neg undriven, if_pos readValid, readMask, masked_none, readData]

/-- What is in flight and what a command asks for is what is answered and what is then in
flight. -/
theorem System.Pipelined.conserves (pipelined : system.Pipelined) (serves : system.Serves)
    (loads : system.Loads) :
    system.inFlight ++ answers masked system.component.memArray (system.performs input) =
      (system.step input).replies ++ (system.step input).inFlight := by
  obtain ⟨first, second, third⟩ := serves.rdValid input
  have replies : (system.step input).replies =
      if system.controller.read.rdValid.getLsbD 2 then
        [system.component.memArray system.component.rdAddrPipe2] else [] := by
    change (if system.controller.read.rdValid.getLsbD 2 then [system.zsDq input] else []) = _
    split_ifs with valid
    · rw [pipelined.zsDq serves loads valid]
    · rfl
  have inFlight : (system.step input).inFlight =
      (if system.controller.read.rdValid.getLsbD 1 then
          [(system.step input).component.memArray system.component.rdAddrPipe1] else []) ++
        (if system.controller.read.rdValid.getLsbD 0 then
          [(system.step input).component.memArray system.component.rdAddrPipe0] else []) ++
        if commandOf system.controller.main.mCmd = .read then
          [(system.step input).component.memArray
            (system.component.testAddr system.controller.main.pins)] else [] := by
    rw [System.inFlight, second, third, if_congr first rfl rfl]
    rfl
  rw [replies, inFlight, System.memArray_step, System.performs]
  cases command : commandOf system.controller.main.mCmd with
  | write =>
    obtain ⟨none, none', none''⟩ := pipelined.alone command
    rw [System.inFlight, none, none', none'']
    rfl
  | read =>
    rw [System.inFlight]
    simp [answers, answer, performAll, perform]
  | inhibit | loadMode | autoRefresh | precharge | activate | burstStop | noOperation =>
    rw [System.inFlight]
    simp

end Flight

section Runs

variable {input : Input} {system : System}

/-- Everything that holds between two edges. -/
structure System.Works (system : System) : Prop where
  serves : system.Serves
  unmasked : system.Unmasked
  loads : system.Loads
  pipelined : system.Pipelined

/-- An edge keeps all of it. -/
theorem System.Works.step (works : system.Works) : (system.step input).Works where
  serves := works.serves.step
  unmasked := works.unmasked.step works.serves
  loads := works.loads.step works.serves
  pipelined := works.pipelined.step works.serves works.unmasked

/-- Whatever the registers and the memory were, it holds after a reset. -/
theorem System.Works.reset (system : System) : system.reset.Works := by
  have inhibit : commandOf 0b1111#4 = .inhibit := commandOf_codes.2.2.2.2.2.2
  have noCommand : ∀ command, commandOf system.reset.controller.main.mCmd = command →
      command = .inhibit :=
    fun command same => same.symm.trans inhibit
  have empty : ∀ stage, system.reset.controller.read.rdValid.getLsbD stage = true → False := by
    intro stage valid
    change (0#3).getLsbD stage = true at valid
    simp at valid
  constructor
  case serves => exact .reset system
  case unmasked =>
    constructor
    case waiting =>
      intro entry present
      cases present
    case pins =>
      intro read
      cases noCommand _ read
  case loads =>
    constructor
    case phase =>
      refine .early ?_ ?_ rfl <;> exact fun done => by cases done
    case waits => exact fun _ => rfl
    case ready =>
      rintro (read | ⟨stage, valid⟩)
      · cases noCommand _ read
      · exact (empty stage valid).elim
  case pipelined =>
    constructor
    case pins =>
      intro read
      cases noCommand _ read
    case first => exact fun valid => (empty 0 valid).elim
    case second => exact fun valid => (empty 1 valid).elim
    case third => exact fun valid => (empty 2 valid).elim
    case alone =>
      intro write
      cases noCommand _ write

variable (inputs : Nat → Input) (start : System)

/-- It holds in every run. -/
theorem works (cycle : Nat) : (circuit inputs start cycle).Works :=
  Clocked.run_invariant _ inputs _ System.Works (System.Works.reset start)
    (fun _ _ works => works.step) cycle

/-- The answers that the controller has given up to a cycle. -/
def replied (cycle : Nat) : List (BitVec 16) :=
  Clocked.history (fun cycle => (circuit inputs start cycle).replies) cycle

/-- The answers are those of a memory that performs its accesses one after the other. -/
theorem answers_eq (cycle : Nat) :
    answers masked start.component.memArray (performed inputs start cycle) =
      replied inputs start (cycle + 1) ++ (circuit inputs start cycle).inFlight := by
  induction cycle with
  | zero =>
    have nothing : (circuit inputs start 0).inFlight = [] := by
      rw [System.inFlight, show (circuit inputs start 0).controller.read.rdValid = 0#3 from rfl]
      simp
    rw [nothing]
    rfl
  | succ cycle inductionHypothesis =>
    have works := works inputs start cycle
    rw [performed, Clocked.history_succ, answers_append, ← performed, inductionHypothesis, ← memArray_eq,
      List.append_assoc, works.pipelined.conserves works.serves works.loads, replied, replied,
      Clocked.history_succ _ (cycle + 1), List.append_assoc]
    rfl

/-- No more than three reads are on their way. -/
theorem inFlight_short (system : System) : system.inFlight.length ≤ 3 := by
  unfold System.inFlight
  grind

/-- For all requests, from any values of the registers before the reset: the memory
performs the requests in the order in which they have been taken, and at most four are
still to come; it holds what they leave; and the answers are those of a memory that
performs them one after the other, with at most three still to come. -/
theorem requests_served (cycle : Nat) :
    ∃ outstanding inFlight,
      accepted inputs start cycle = performed inputs start cycle ++ outstanding ∧ outstanding.length ≤ 4 ∧
      (circuit inputs start cycle).component.memArray =
        performAll masked start.component.memArray (performed inputs start cycle) ∧
      answers masked start.component.memArray (performed inputs start cycle) =
        replied inputs start (cycle + 1) ++ inFlight ∧ inFlight.length ≤ 3 :=
  ⟨_, _, accepted_eq inputs start cycle, outstanding_short inputs start cycle,
    memArray_eq inputs start cycle, answers_eq inputs start cycle, inFlight_short _⟩

/-- The stages of the memory are those of the controller once both have been filled. -/
theorem stages_eq (cycle : Nat) :
    (circuit inputs start (cycle + 1)).component.rdValidPipe.getLsbD 0 =
        (circuit inputs start (cycle + 1)).controller.read.rdValid.getLsbD 0 ∧
      (circuit inputs start (cycle + 2)).component.rdValidPipe.getLsbD 1 =
        (circuit inputs start (cycle + 2)).controller.read.rdValid.getLsbD 1 ∧
      (circuit inputs start (cycle + 3)).component.rdValidPipe.getLsbD 2 =
        (circuit inputs start (cycle + 3)).controller.read.rdValid.getLsbD 2 := by
  have stages := fun cycle => (works inputs start cycle).serves.rdValid (inputs cycle)
  have pipe := fun cycle => (circuit inputs start cycle).rdValidPipe (inputs cycle)
  have first : (circuit inputs start (cycle + 1)).component.rdValidPipe.getLsbD 0 =
      (circuit inputs start (cycle + 1)).controller.read.rdValid.getLsbD 0 := by
    rw [Bool.eq_iff_iff, circuit_succ, (stages cycle).1, (pipe cycle).1, beq_iff_eq]
  have second : (circuit inputs start (cycle + 2)).component.rdValidPipe.getLsbD 1 =
      (circuit inputs start (cycle + 2)).controller.read.rdValid.getLsbD 1 :=
    (pipe (cycle + 1)).2.1.trans (first.trans (stages (cycle + 1)).2.1.symm)
  exact ⟨first, second, (pipe (cycle + 2)).2.2.trans (second.trans (stages (cycle + 2)).2.2.symm)⟩

/-- A write comes after the initialisation. -/
theorem written_after {cycle : Nat}
    (driven : (circuit inputs start (cycle + 1)).controller.main.oe = true) :
    (circuit inputs start cycle).controller.init.initDone = true := by
  have before := works inputs start cycle
  have write := (works inputs start (cycle + 1)).serves.driven.mp driven
  cases finished : (circuit inputs start cycle).controller.init.initDone with
  | true => rfl
  | false =>
    have idle := before.loads.waits finished
    rw [before.serves.writes write] at idle
    cases idle

/-- The controller and the memory never drive the data lines in the same cycle. -/
theorem never_contended (cycle : Nat) (driven : (circuit inputs start cycle).controller.main.oe = true) :
    (circuit inputs start cycle).component.readValid = false := by
  have works := works inputs start cycle
  obtain ⟨first, second, third⟩ := works.pipelined.alone (works.serves.driven.mp driven)
  match cycle with
  | 0 => cases driven
  | 1 => cases written_after inputs start driven
  | 2 => cases written_after inputs start driven
  | before + 3 =>
    obtain ⟨first', -, -⟩ := stages_eq inputs start (before + 2)
    obtain ⟨-, second', -⟩ := stages_eq inputs start (before + 1)
    obtain ⟨-, -, third'⟩ := stages_eq inputs start before
    rw [TestComponent.readValid]
    split_ifs
    · exact first'.trans first
    · exact second'.trans second
    · exact third'.trans third

end Runs

end CpenLabs.SdramController
