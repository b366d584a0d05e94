import CpenLabs.BankedMemory
import CpenLabs.SdramReplies

/-!
# The commands to the SDRAM

What the controller of Lab 5 puts on its pins obeys the rules of a memory with four
banks: a row is activated only while its bank is closed, read and written only while it
is open, and a refresh or the mode comes only when all banks are closed. The accesses
that such a memory performs are those of the memory model, which keeps a single row.

The initialisation takes the same course after every reset, whatever its registers were:
the delay takes 14287 cycles, and the main FSM has the pins from cycle 14316 on. From
then on `Rows` says which rows are open in each of its states. The delay counter is too
long to be stepped through, so its value is a function of the cycle here.
-/

namespace CpenLabs.SdramController

open BankedMemory SequentialMemory

section Start

variable (inputs : Nat → Input) (start : System)

/-- The counter of the power-up delay. -/
theorem delay_counts {cycle : Nat} (early : cycle ≤ 14286) :
    (circuit inputs start cycle).controller.refresh.refreshCounter = BitVec.ofNat 14 (14286 - cycle) := by
  induction cycle with
  | zero => rfl
  | succ cycle inductionHypothesis =>
    have before := inductionHypothesis (by omega)
    change (if (circuit inputs start cycle).controller.refresh.refreshCounter = 0 then 1116
      else (circuit inputs start cycle).controller.refresh.refreshCounter - 1) = _
    rw [before]
    have running : BitVec.ofNat 14 (14286 - cycle) ≠ 0 := by
      bv_omega
    rw [if_neg running]
    bv_omega

/-- The initialisation after the delay. -/
def delayed : Initialisation where
  iState := .precharge
  iNext := .wait
  iCmd := 0b1111
  iAddr := BitVec.allOnes 13
  iCount := 0
  iRefs := 0
  initDone := false

/-- Up to then the initialisation waits. -/
theorem delay_waits {cycle : Nat} (early : cycle ≤ 14286) :
    ∃ iRefs, (circuit inputs start cycle).controller.init =
      { delayed with iState := .wait, iRefs := iRefs } := by
  induction cycle with
  | zero => exact ⟨_, rfl⟩
  | succ cycle inductionHypothesis =>
    obtain ⟨iRefs, waits⟩ := inductionHypothesis (by omega)
    have counting : ((circuit inputs start cycle).controller.refresh.refreshCounter == 0) = false := by
      rw [delay_counts inputs start (by omega), beq_eq_false_iff_ne]
      bv_omega
    refine ⟨0, ?_⟩
    change (circuit inputs start cycle).controller.init.step _ = _
    rw [counting, waits]
    rfl

/-- The initialisation begins with the first cycle after the delay. -/
theorem init_delayed : (circuit inputs start 14287).controller.init = delayed := by
  obtain ⟨iRefs, waits⟩ := delay_waits inputs start (Nat.le_refl 14286)
  have counted := delay_counts inputs start (Nat.le_refl 14286)
  rw [show 14287 = 14286 + 1 from rfl, circuit_succ]
  generalize circuit inputs start 14286 = system at waits counted
  change system.controller.init.step (system.controller.refresh.refreshCounter == 0) = _
  rw [counted, waits]
  rfl

/-- The delay is not entered again. -/
def Initialisation.Started (init : Initialisation) : Prop :=
  init.iState ≠ .wait ∧ (init.iState = .countDown → init.iNext ≠ .wait)

/-- From then on the counter does not matter to it. -/
theorem Initialisation.Started.step {init : Initialisation} (started : init.Started) (counted : Bool) :
    init.step counted = init.step false ∧ (init.step false).Started := by
  obtain ⟨running, next⟩ := started
  rw [Started, Initialisation.step, Initialisation.step]
  cases state : init.iState with
  | wait => exact absurd state running
  | countDown =>
    refine ⟨rfl, ?_⟩
    dsimp only
    split_ifs
    · exact ⟨by simp, fun _ => next state⟩
    · exact ⟨next state, fun _ => next state⟩
  | autoRefresh =>
    refine ⟨rfl, by simp, fun _ => ?_⟩
    dsimp only
    split_ifs <;> simp
  | precharge | loadMode | done => exact ⟨rfl, by simp⟩

/-- From there on it takes its course. -/
theorem init_course (later : Nat) :
    (circuit inputs start (14287 + later)).controller.init =
        (Initialisation.step false)^[later] delayed ∧
      (circuit inputs start (14287 + later)).controller.init.Started := by
  induction later with
  | zero =>
    rw [Nat.add_zero, init_delayed]
    exact ⟨rfl, by simp [Initialisation.Started, delayed]⟩
  | succ later inductionHypothesis =>
    obtain ⟨course, started⟩ := inductionHypothesis
    obtain ⟨step, started'⟩ := started.step
      ((circuit inputs start (14287 + later)).controller.refresh.refreshCounter == 0)
    have next : (circuit inputs start (14287 + (later + 1))).controller.init =
        (circuit inputs start (14287 + later)).controller.init.step false := step
    rw [Function.iterate_succ_apply', ← course, next]
    exact ⟨rfl, started'⟩

/-- What has been finished stays so. -/
theorem done_later {first later : Nat} (ordered : first ≤ later)
    (done : (circuit inputs start first).controller.init.initDone = true) :
    (circuit inputs start later).controller.init.initDone = true := by
  induction later, ordered using Nat.le_induction with
  | base => exact done
  | succ later _ inductionHypothesis =>
    change ((circuit inputs start later).controller.init.initDone || _) = true
    rw [inductionHypothesis, Bool.true_or]

/-- The initialisation is finished in cycle 14316. -/
theorem done_iff (cycle : Nat) :
    (circuit inputs start cycle).controller.init.initDone = true ↔ 14316 ≤ cycle := by
  have last : (circuit inputs start (14287 + 29)).controller.init.initDone = true := by
    rw [(init_course inputs start 29).1]
    rfl
  constructor
  · intro done
    by_contra early
    have before := done_later inputs start (show cycle ≤ 14287 + 28 by omega) done
    rw [(init_course inputs start 28).1] at before
    exact Bool.false_ne_true before
  · exact fun late => done_later inputs start late last

end Start

section Banks

/-- What a memory with four banks is told. Address line 10 makes a precharge one of all
banks, and closes the bank after an access. -/
def Pins.operation (pins : Pins) : Operation (BitVec 2) (BitVec 13) :=
  match commandOf pins.cmd with
  | .activate => .activate pins.ba pins.a
  | .read | .write => .access pins.ba (pins.a.getLsbD 10)
  | .precharge => if pins.a.getLsbD 10 then .prechargeAll else .precharge pins.ba
  | .autoRefresh => .refresh
  | .loadMode => .loadMode
  | .inhibit | .burstStop | .noOperation => .nothing

/-- A bank and a row, as the memory model keeps them. -/
def rowBankOf (bank : BitVec 2) (row : BitVec 13) : BitVec 15 :=
  BitVec.ofBool (bank.getLsbD 1) ++ row ++ BitVec.ofBool (bank.getLsbD 0)

/-- What the banks have open after the operation on the pins, in each state of the main
FSM once the initialisation is finished. -/
inductive Rows (main : MainFsm) (requested : Bool) (opened : Banks (BitVec 2) (BitVec 13)) : Prop
  | idle (state : main.mState = .idle) (closed : Closed opened)
  | activate (state : main.mState = .activate) (unacked : main.ackRefreshRequest = false)
      (closed : Closed opened)
  | closing (state : main.mState = .countDown) (next : main.mNext = .idle ∨ main.mNext = .autoRefresh)
      (closed : Closed opened)
  | autoRefresh (state : main.mState = .autoRefresh) (closed : Closed opened)
  /-- The row of the active request is open, and no other. -/
  | opening (state : main.mState = .countDown) (next : main.mNext = main.active.serving)
      (unacked : main.ackRefreshRequest = false)
      (only : OnlyOpen opened main.active.bank main.active.row)
  | serving (state : main.mState = main.active.serving) (unacked : main.ackRefreshRequest = false)
      (only : OnlyOpen opened main.active.bank main.active.row)
  | rowOpen (state : main.mState = .rowOpen) (unacked : main.ackRefreshRequest = false)
      (only : OnlyOpen opened main.active.bank main.active.row)
  /-- A row may be open, but a refresh comes first and closes it. -/
  | leaving (state : main.mState = .idle ∨ main.mState = .countDown ∧ main.mNext = .idle)
      (unacked : main.ackRefreshRequest = false) (refreshed : requested = true)
  | ending (state : main.mState = .close ∨ main.mState = .precharge)
      (next : main.mNext = .idle ∨ main.mNext = .autoRefresh)

variable {input : MainInput} {main : MainFsm} {queue : List Entry} {row : BitVec 15} {requested' : Bool}
variable {opened : Banks (BitVec 2) (BitVec 13)}

/-- A head that goes on with the row has its bank and its row. -/
theorem MainFsm.pending_opened (pending : main.pending input = true) :
    input.f.bank = main.active.bank ∧ input.f.row = main.active.row := by
  simp only [MainFsm.pending, MainFsm.matching, Bool.and_eq_true, beq_iff_eq] at pending
  exact ⟨pending.1.1.2.symm, pending.1.2.symm⟩

/-- So has the selected request. -/
theorem MainFsm.selected_bank (input : MainInput) : (main.selected input).bank = main.active.bank := by
  rw [MainFsm.selected]
  split_ifs with selected
  · rw [MainFsm.fSelect, Bool.and_eq_true] at selected
    exact (MainFsm.pending_opened selected.2).1
  · rfl

/-- The operation that the next edge puts on the pins. -/
def MainFsm.operated (input : MainInput) (main : MainFsm) : Operation (BitVec 2) (BitVec 13) :=
  match main.mState with
  | .activate => .activate main.active.bank main.active.row
  | .read | .write =>
    if !main.pending input && main.fPop then .nothing else .access main.active.bank false
  | .precharge => .prechargeAll
  | .autoRefresh => .refresh
  | .idle | .countDown | .close | .rowOpen => .nothing

/-- Some commands ask nothing of the banks. -/
theorem Pins.operation_nothing {pins : Pins}
    (quiet : commandOf pins.cmd = .inhibit ∨ commandOf pins.cmd = .noOperation) :
    pins.operation = .nothing := by
  rw [Pins.operation]
  obtain quiet | quiet := quiet <;> rw [quiet]

/-- Bit 10 of the address is low, so that no access closes its bank. -/
theorem MainFsm.casAddr_open (input : MainInput) : (main.casAddr input).getLsbD 10 = false := by
  rw [MainFsm.casAddr, BitVec.getLsbD_append]
  simp

/-- The operation in each phase. -/
theorem Phase.operation (phase : Phase main queue row input.refreshRequest)
    (done : input.initDone = true) : (main.step input).pins.operation = main.operated input := by
  have commands := phase.commands
  have told (command : Command) (shown : commandOf (main.step input).mCmd = command) :
      commandOf (main.step input).pins.cmd = command := shown
  rw [MainFsm.commanded] at commands
  rw [MainFsm.operated]
  cases state : main.mState with
  | idle =>
    rw [state] at commands
    apply Pins.operation_nothing
    dsimp only at commands
    rw [if_pos done] at commands
    split_ifs at commands
    · exact .inr commands
    · exact .inl commands
  | countDown =>
    rw [state] at commands
    apply Pins.operation_nothing
    dsimp only at commands
    split_ifs at commands
    · exact .inr commands
    · exact .inl commands
    · exact .inr commands
  | close | rowOpen =>
    rw [state] at commands
    exact Pins.operation_nothing (.inr commands)
  | activate =>
    rw [state] at commands
    rw [Pins.operation, told .activate commands, MainFsm.step_activate state]
    rfl
  | precharge =>
    rw [state] at commands
    rw [Pins.operation, told .precharge commands, MainFsm.step_precharge state]
    exact if_pos (show (BitVec.allOnes 13).getLsbD 10 = true by decide)
  | autoRefresh =>
    rw [state] at commands
    rw [Pins.operation, told .autoRefresh commands]
  | read =>
    obtain ⟨-, chosen⟩ := phase.direction (.inl state)
    obtain ⟨-, mBank, mAddr, -, -⟩ := MainFsm.read_pins input chosen
    rw [← MainFsm.step_read state] at mBank mAddr
    rw [state] at commands
    dsimp only at commands ⊢
    split_ifs at commands ⊢
    · exact Pins.operation_nothing (.inr commands)
    · rw [Pins.operation, told .read commands, MainFsm.pins, mBank, mAddr, MainFsm.casAddr_open,
        MainFsm.selected_bank]
  | write =>
    obtain ⟨-, chosen⟩ := phase.direction (.inr state)
    obtain ⟨-, mBank, mAddr, -, -, -⟩ := MainFsm.write_pins input chosen
    rw [← MainFsm.step_write state] at mBank mAddr
    rw [state] at commands
    dsimp only at commands ⊢
    split_ifs at commands ⊢
    · exact Pins.operation_nothing (.inr commands)
    · rw [Pins.operation, told .write commands, MainFsm.pins, mBank, mAddr, MainFsm.casAddr_open,
        MainFsm.selected_bank]

/-- A read or a write goes on with its row open. -/
theorem Rows.continued {input : MainInput} {main : MainFsm} (next : MainFsm)
    (unacked : main.ackRefreshRequest = false) (state : main.mState = main.active.serving)
    (only : OnlyOpen opened main.active.bank main.active.row)
    (sameState : next.mState = main.mState) (sameAck : next.ackRefreshRequest = main.ackRefreshRequest)
    (sameActive : next.active = main.active) (stays : input.refreshRequest = true → requested' = true) :
    Rows (main.continued input next) requested' opened := by
  rw [MainFsm.continued]
  split_ifs with pending requested
  · exact .leaving (.inr ⟨rfl, rfl⟩) (sameAck.trans unacked) (stays requested)
  · obtain ⟨serving, -⟩ := MainFsm.pending_serving pending
    obtain ⟨bank, row⟩ := MainFsm.pending_opened pending
    refine .serving ((sameState.trans state).trans serving.symm) (sameAck.trans unacked) ?_
    change OnlyOpen opened input.f.bank input.f.row
    rwa [bank, row]
  · refine .rowOpen rfl (sameAck.trans unacked) ?_
    change OnlyOpen opened next.active.bank next.active.row
    rwa [sameActive]

/-- The operation is allowed, and leaves the rows open that the next state asks for. -/
theorem Rows.step (rows : Rows main input.refreshRequest opened) (done : input.initDone = true)
    (stays : input.refreshRequest = true → main.ackRefreshRequest = false → requested' = true) :
    (main.operated input).Allowed opened ∧
      Rows (main.step input) requested' ((main.operated input).apply opened) := by
  cases rows with
  | idle state closed =>
    rw [MainFsm.step_idle state, MainFsm.idle, MainFsm.operated, state, if_pos done]
    refine ⟨trivial, ?_⟩
    change Rows _ requested' opened
    split_ifs
    · exact .ending (.inr rfl) (.inr rfl)
    · exact .activate rfl rfl closed
    · exact .idle rfl closed
  | activate state unacked closed =>
    rw [MainFsm.step_activate state, MainFsm.activate, MainFsm.operated, state]
    exact ⟨closed _, .opening rfl rfl unacked (closed.activate _ _)⟩
  | closing state next closed =>
    rw [MainFsm.step_countDown state, MainFsm.countDown, MainFsm.operated, state]
    refine ⟨trivial, ?_⟩
    change Rows _ requested' opened
    split_ifs
    · exact .closing rfl next closed
    · exact .closing rfl next closed
    · obtain next | next := next
      · exact .idle next closed
      · exact .autoRefresh next closed
    · obtain next | next := next
      · exact .idle next closed
      · exact .autoRefresh next closed
  | autoRefresh state closed =>
    rw [MainFsm.step_autoRefresh state, MainFsm.autoRefresh, MainFsm.operated, state]
    exact ⟨closed, .closing rfl (.inl rfl) closed⟩
  | opening state next unacked only =>
    rw [MainFsm.step_countDown state, MainFsm.countDown, MainFsm.operated, state]
    refine ⟨trivial, ?_⟩
    change Rows _ requested' opened
    split_ifs
    · exact .opening rfl next unacked only
    · exact .opening rfl next unacked only
    · exact .serving next unacked only
    · exact .serving next unacked only
  | serving state unacked only =>
    have bank : opened main.active.bank ≠ none := by
      rw [only.row_eq]
      exact Option.some_ne_none _
    have access (spun : Bool) : (if spun = true then (.nothing : Operation (BitVec 2) (BitVec 13))
        else .access main.active.bank false).Allowed opened ∧
        (if spun = true then (.nothing : Operation (BitVec 2) (BitVec 13))
          else .access main.active.bank false).apply opened = opened := by
      cases spun with
      | false => exact ⟨bank, rfl⟩
      | true => exact ⟨trivial, rfl⟩
    have served := state
    rw [Entry.serving] at served
    obtain ⟨allowed, kept⟩ := access (!main.pending input && main.fPop)
    split_ifs at served
    · rw [MainFsm.step_read served, MainFsm.operated, served]
      refine ⟨allowed, ?_⟩
      dsimp only
      rw [kept]
      exact Rows.continued _ unacked state only rfl rfl rfl fun requested => stays requested unacked
    · rw [MainFsm.step_write served, MainFsm.operated, served]
      refine ⟨allowed, ?_⟩
      dsimp only
      rw [kept]
      exact Rows.continued _ unacked state only rfl rfl rfl fun requested => stays requested unacked
  | rowOpen state unacked only =>
    rw [MainFsm.step_rowOpen state, MainFsm.rowOpen, MainFsm.operated, state]
    refine ⟨trivial, ?_⟩
    change Rows _ requested' opened
    have same : (!input.fEmpty) = true → main.matching input = true →
        OnlyOpen opened input.f.bank input.f.row := by
      intro present matching
      obtain ⟨bank, row⟩ := MainFsm.pending_opened (show main.pending input = true by
        rw [MainFsm.pending, matching, present]; rfl)
      rwa [bank, row]
    split_ifs with requested present matching direction
    · exact .leaving (.inr ⟨rfl, rfl⟩) unacked (stays requested unacked)
    · exact .serving (if_pos direction).symm unacked (same present matching)
    · exact .serving (if_neg direction).symm unacked (same present matching)
    · exact .ending (.inl rfl) (.inl rfl)
    · exact .rowOpen rfl unacked only
  | leaving state unacked refreshed =>
    obtain state | ⟨state, next⟩ := state
    · rw [MainFsm.step_idle state, MainFsm.idle, MainFsm.operated, state, if_pos done, if_pos refreshed]
      exact ⟨trivial, .ending (.inr rfl) (.inr rfl)⟩
    · rw [MainFsm.step_countDown state, MainFsm.countDown, MainFsm.operated, state]
      refine ⟨trivial, ?_⟩
      change Rows _ requested' opened
      have requested := stays refreshed unacked
      split_ifs
      · exact .leaving (.inr ⟨rfl, next⟩) unacked requested
      · exact .leaving (.inr ⟨rfl, next⟩) unacked requested
      · exact .leaving (.inl next) unacked requested
      · exact .leaving (.inl next) unacked requested
  | ending state next =>
    obtain state | state := state
    · rw [MainFsm.step_close state, MainFsm.close, MainFsm.operated, state]
      refine ⟨trivial, ?_⟩
      change Rows _ requested' opened
      split_ifs
      · exact .ending (.inl rfl) next
      · exact .ending (.inr rfl) next
    · rw [MainFsm.step_precharge state, MainFsm.precharge, MainFsm.operated, state]
      exact ⟨trivial, .closing rfl next fun _ => rfl⟩

/-- An edge of the clock. -/
theorem System.Serves.rows {system : System} (serves : system.Serves)
    (rows : Rows system.controller.main system.controller.refresh.refreshRequest opened)
    (done : system.controller.init.initDone = true) (input : Input) :
    (system.step input).controller.main.pins.operation.Allowed opened ∧
      Rows (system.step input).controller.main (system.step input).controller.refresh.refreshRequest
        ((system.step input).controller.main.pins.operation.apply opened) := by
  have operation : (system.step input).controller.main.pins.operation =
      system.controller.main.operated system.controller.mainInput :=
    @Phase.operation system.controller.mainInput _ _ _ serves.phase done
  rw [operation]
  refine @Rows.step system.controller.mainInput _ _ _ rows done ?_
  intro requested unacked
  change ((_ || system.controller.refresh.refreshRequest) && !system.controller.main.ackRefreshRequest &&
    system.controller.init.initDone) = true
  rw [show system.controller.refresh.refreshRequest = true from requested, unacked, done, Bool.or_true]
  rfl

/-- An access finds its row open, and it is the row that the memory model keeps. -/
theorem Rows.served (rows : Rows main input.refreshRequest opened)
    (phase : Phase main queue row input.refreshRequest) {bank : BitVec 2} {closes : Bool}
    (access : main.operated input = .access bank closes) :
    ∃ kept, opened bank = some kept ∧ row = rowBankOf bank kept := by
  rw [MainFsm.operated] at access
  have serving : (main.mState = .read ∨ main.mState = .write) ∧ bank = main.active.bank := by
    cases state : main.mState with
    | read =>
      rw [state] at access
      dsimp only at access
      split_ifs at access
      injection access with bank
      exact ⟨.inl rfl, bank.symm⟩
    | write =>
      rw [state] at access
      dsimp only at access
      split_ifs at access
      injection access with bank
      exact ⟨.inr rfl, bank.symm⟩
    | idle | activate | countDown | close | precharge | autoRefresh | rowOpen =>
      rw [state] at access
      cases access
  obtain ⟨serving, rfl⟩ := serving
  have noOther (other : MainState) (state : main.mState = other) : other = .read ∨ other = .write := by
    rwa [← state]
  refine ⟨main.active.row, ?_, ?_⟩
  · cases rows with
    | serving _ _ only => exact only.row_eq
    | idle state | activate state | closing state | autoRefresh state | opening state | rowOpen state =>
      obtain impossible | impossible := noOther _ state <;> cases impossible
    | leaving state | ending state =>
      obtain state | state := state
      · obtain impossible | impossible := noOther _ state <;> cases impossible
      · obtain impossible | impossible := noOther _ (by first | exact state | exact state.1) <;>
          cases impossible
  · cases phase with
    | serving _ _ opened => exact opened
    | opening state | closing state | idle state | activate state | rowOpen state | close state
    | precharge state | autoRefresh state =>
      obtain impossible | impossible := noOther _ state <;> cases impossible

/-- An access finds its row open, and the memory has it. -/
theorem System.Serves.served {system : System} (serves : system.Serves)
    (rows : Rows system.controller.main system.controller.refresh.refreshRequest opened)
    (done : system.controller.init.initDone = true) {input : Input} {bank : BitVec 2} {closes : Bool}
    (access : (system.step input).controller.main.pins.operation = .access bank closes) :
    ∃ kept, opened bank = some kept ∧ (system.step input).component.addrCrb = rowBankOf bank kept := by
  have operation : (system.step input).controller.main.pins.operation =
      system.controller.main.operated system.controller.mainInput :=
    @Phase.operation system.controller.mainInput _ _ _ serves.phase done
  exact @Rows.served system.controller.mainInput _ _ _ _ rows serves.phase _ _
    (operation.symm.trans access)

end Banks

section Runs

variable (inputs : Nat → Input) (start : System)

/-- The command on the pins in each cycle. -/
def command (cycle : Nat) : Command := commandOf (circuit inputs start cycle).controller.main.mCmd

/-- What the command asks of the four banks. -/
def operation (cycle : Nat) : Operation (BitVec 2) (BitVec 13) :=
  (circuit inputs start cycle).controller.main.pins.operation

/-- Command by command. -/
theorem operation_eq (cycle : Nat) : operation inputs start cycle =
    (match command inputs start cycle with
    | .activate => .activate (circuit inputs start cycle).controller.main.mBank
        (circuit inputs start cycle).controller.main.mAddr
    | .read | .write => .access (circuit inputs start cycle).controller.main.mBank
        ((circuit inputs start cycle).controller.main.mAddr.getLsbD 10)
    | .precharge => if (circuit inputs start cycle).controller.main.mAddr.getLsbD 10 then .prechargeAll
        else .precharge (circuit inputs start cycle).controller.main.mBank
    | .autoRefresh => .refresh
    | .loadMode => .loadMode
    | .inhibit | .burstStop | .noOperation => .nothing) := rfl

/-- The commands of the initialisation after the delay. -/
def startCommand (later : Nat) : Command :=
  match later with
  | 0 => .inhibit
  | 1 => .precharge
  | 4 | 14 => .autoRefresh
  | 24 => .loadMode
  | _ => .noOperation

/-- They are those of the registers, and bit 10 is low with the mode alone. -/
theorem start_table : ∀ later ≤ 28,
    commandOf ((Initialisation.step false)^[later] delayed).iCmd = startCommand later ∧
      ((Initialisation.step false)^[later] delayed).iAddr.getLsbD 10 = (later != 24) := by
  decide

/-- Nothing is sent before. -/
theorem command_early {cycle : Nat} (early : cycle < 14288) : command inputs start cycle = .inhibit := by
  cases cycle with
  | zero => exact commandOf_codes.2.2.2.2.2.2
  | succ cycle =>
    obtain ⟨iRefs, waits⟩ := delay_waits inputs start (show cycle ≤ 14286 by omega)
    obtain ⟨mCmd, -, -⟩ := (works inputs start cycle).loads.passes (inputs cycle) (by rw [waits]; rfl)
    rw [command, circuit_succ, mCmd, waits]
    exact commandOf_codes.2.2.2.2.2.2

/-- Up to the end of the initialisation its commands are on the pins. -/
theorem command_start {later : Nat} (early : later ≤ 28) :
    command inputs start (14288 + later) = startCommand later ∧
      (circuit inputs start (14288 + later)).controller.main.mAddr.getLsbD 10 = (later != 24) ∧
      (circuit inputs start (14288 + later)).controller.main.mState = .idle := by
  obtain ⟨cmd, addr⟩ := start_table later early
  have unfinished : (circuit inputs start (14287 + later)).controller.init.initDone = false := by
    rw [← Bool.not_eq_true, done_iff]
    omega
  obtain ⟨mCmd, mAddr, idle⟩ :=
    (works inputs start (14287 + later)).loads.passes (inputs (14287 + later)) unfinished
  rw [show 14288 + later = 14287 + later + 1 by omega, command, circuit_succ, mCmd, mAddr,
    (init_course inputs start later).1]
  exact ⟨cmd, addr, idle⟩

/-- All banks are closed first. -/
theorem operation_first : operation inputs start (14288 + 1) = .prechargeAll := by
  obtain ⟨cmd, addr, -⟩ := command_start inputs start (show 1 ≤ 28 by omega)
  rw [operation_eq, cmd]
  exact if_pos addr

variable (banks : Banks (BitVec 2) (BitVec 13))

/-- The rows that are open before each command, if `banks` were open before the reset. -/
abbrev opened : Nat → Banks (BitVec 2) (BitVec 13) := banksAt (operation inputs start) banks

/-- One command more. -/
theorem opened_succ (cycle : Nat) : opened inputs start banks (cycle + 1) =
    (operation inputs start cycle).apply (opened inputs start banks cycle) := rfl

/-- The initialisation closes the banks and opens none. -/
theorem opened_start {later : Nat} (early : later < 28) :
    Closed (opened inputs start banks (14288 + (later + 1) + 1)) := by
  induction later with
  | zero =>
    rw [opened_succ, operation_first]
    exact fun _ => rfl
  | succ later inductionHypothesis =>
    obtain ⟨cmd, -, -⟩ := command_start inputs start (show later + 1 + 1 ≤ 28 by omega)
    have closed := inductionHypothesis (by omega)
    rw [opened_succ, operation_eq, cmd]
    have silent : ∀ later < 27,
        startCommand (later + 1 + 1) ∈ [.autoRefresh, .loadMode, .noOperation] := by
      decide
    have silent := silent later (by omega)
    simp only [List.mem_cons, List.not_mem_nil, or_false] at silent
    obtain silent | silent | silent := silent <;> rw [silent] <;> exact closed

/-- From the end of the initialisation on, the rows are those of the main FSM. -/
theorem rows_later (later : Nat) :
    Rows (circuit inputs start (14316 + later)).controller.main
      (circuit inputs start (14316 + later)).controller.refresh.refreshRequest
      (opened inputs start banks (14316 + later + 1)) := by
  induction later with
  | zero =>
    obtain ⟨-, -, idle⟩ := command_start inputs start (Nat.le_refl 28)
    have closed := opened_start inputs start banks (show 27 < 28 by omega)
    rw [show 14288 + (27 + 1) + 1 = 14316 + 0 + 1 from rfl] at closed
    rw [show 14288 + 28 = 14316 + 0 from rfl] at idle
    exact .idle idle closed
  | succ later inductionHypothesis =>
    have done := (done_iff inputs start (14316 + later)).mpr (by omega)
    exact ((works inputs start (14316 + later)).serves.rows inductionHypothesis done _).2

/-- A cycle is before, in or after the initialisation. -/
theorem cycle_cases (cycle : Nat) :
    cycle < 14288 ∨ (∃ later ≤ 28, cycle = 14288 + later) ∨ ∃ later, cycle = 14316 + later + 1 := by
  obtain early | between | after : cycle < 14288 ∨ 14288 ≤ cycle ∧ cycle ≤ 14316 ∨ 14317 ≤ cycle := by
    omega
  · exact .inl early
  · exact .inr (.inl ⟨cycle - 14288, by omega, by omega⟩)
  · exact .inr (.inr ⟨cycle - 14317, by omega⟩)

/-- Every command finds the banks as it needs them. -/
theorem command_allowed (cycle : Nat) :
    (operation inputs start cycle).Allowed (opened inputs start banks cycle) := by
  obtain early | ⟨later, early, rfl⟩ | ⟨later, rfl⟩ := cycle_cases cycle
  · rw [operation_eq, command_early inputs start early]
    trivial
  · obtain ⟨cmd, -, -⟩ := command_start inputs start early
    obtain none | first | ⟨next, rfl⟩ : later = 0 ∨ later = 1 ∨ ∃ next, later = next + 2 := by
      obtain none | first | more : later = 0 ∨ later = 1 ∨ 2 ≤ later := by omega
      · exact .inl none
      · exact .inr (.inl first)
      · exact .inr (.inr ⟨later - 2, by omega⟩)
    · rw [operation_eq, cmd, none]
      trivial
    · rw [first, operation_first]
      trivial
    · have closed := opened_start inputs start banks (show next < 28 by omega)
      have silent : ∀ next < 27, startCommand (next + 2) ∈ [.autoRefresh, .loadMode, .noOperation] := by
        decide
      have silent := silent next (by omega)
      rw [operation_eq, cmd, show 14288 + (next + 2) = 14288 + (next + 1) + 1 by omega]
      simp only [List.mem_cons, List.not_mem_nil, or_false] at silent
      obtain silent | silent | silent := silent <;> rw [silent]
      · exact closed
      · exact closed
      · trivial
  · have rows := rows_later inputs start banks later
    have done := (done_iff inputs start (14316 + later)).mpr (by omega)
    exact ((works inputs start (14316 + later)).serves.rows rows done (inputs (14316 + later))).1

/-- An access finds its row open, and the memory model has the same one. -/
theorem access_served (cycle : Nat) {bank : BitVec 2} {closes : Bool}
    (access : operation inputs start cycle = .access bank closes) :
    ∃ row, opened inputs start banks cycle bank = some row ∧
      (circuit inputs start cycle).component.addrCrb = rowBankOf bank row := by
  obtain early | ⟨later, early, rfl⟩ | ⟨later, rfl⟩ := cycle_cases cycle
  · rw [operation_eq, command_early inputs start early] at access
    cases access
  · obtain ⟨cmd, -, -⟩ := command_start inputs start early
    have silent : ∀ later ≤ 28,
        startCommand later ∈ [.inhibit, .precharge, .autoRefresh, .loadMode, .noOperation] := by
      decide
    have silent := silent later early
    rw [operation_eq, cmd] at access
    simp only [List.mem_cons, List.not_mem_nil, or_false] at silent
    obtain silent | silent | silent | silent | silent := silent <;> rw [silent] at access
    · cases access
    · dsimp only at access
      split_ifs at access
    · cases access
    · cases access
    · cases access
  · have rows := rows_later inputs start banks later
    have done := (done_iff inputs start (14316 + later)).mpr (by omega)
    exact (works inputs start (14316 + later)).serves.served rows done access

end Runs

end CpenLabs.SdramController
