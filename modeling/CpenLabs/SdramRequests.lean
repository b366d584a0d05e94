import CpenLabs.SdramController
import CpenLabs.SequentialMemory
import Mathlib.Tactic.IntervalCases
import Mathlib.Tactic.SplitIfs

/-!
# The requests on the memory's pins

Every request that the input FIFO accepts is put on the pins of the memory once, in the
order of acceptance, as a command with the row of the request open. The queue of the
requests that are still to come has three parts: the one in the active registers, if it
has been taken out of the FIFO and not yet been asked for, and the two places of the
FIFO. A step of the main FSM takes at most the first of them.

`Phase` says in each state of the main FSM whether the active request is still to come
and which row the memory has open. It does not mention refreshes: they come between two
requests and leave the queue as it is. What the memory answers is the subject of the
following module.
-/

namespace CpenLabs.SdramController

open SequentialMemory

section Contents

variable {α : Type} (fifo : Efifo α)

/-- The entries from the read address on. -/
def Efifo.contents : List α :=
  [fifo.rdData, if fifo.rdAddress = 0 then fifo.entry1 else fifo.entry0].take fifo.entries.toNat

/-- The write address is behind the last entry. -/
structure Efifo.Sound : Prop where
  fits : fifo.entries.toNat ≤ 2
  behind : fifo.wrAddress = fifo.rdAddress + fifo.entries.setWidth 1

/-- An address of the FIFO is one of two. -/
theorem two_values : ∀ address : BitVec 1, address = 0 ∨ address = 1 := by decide

/-- There are none, one or two. -/
theorem Efifo.Sound.entries {fifo : Efifo α} (sound : fifo.Sound) :
    fifo.entries = 0 ∨ fifo.entries = 1 ∨ fifo.entries = 2 := by
  have fits := sound.fits
  revert fits
  generalize fifo.entries = entries
  revert entries
  decide

/-- The flag says whether there is an entry. -/
theorem Efifo.empty_contents {fifo : Efifo α} (sound : fifo.Sound) :
    fifo.empty = true ↔ fifo.contents = [] := by
  obtain none | one | two := sound.entries
  · simp [Efifo.empty, Efifo.contents, none]
  · simp [Efifo.empty, Efifo.contents, one]
  · simp [Efifo.empty, Efifo.contents, two]

/-- The read data are the first entry. -/
theorem Efifo.rdData_contents {fifo : Efifo α} (sound : fifo.Sound) (present : fifo.contents ≠ []) :
    fifo.contents = fifo.rdData :: fifo.contents.tail := by
  obtain none | one | two := sound.entries
  · exact absurd ((Efifo.empty_contents sound).mp (by simp [Efifo.empty, none])) present
  · simp [Efifo.contents, one]
  · simp [Efifo.contents, two]

/-- There are two places. -/
theorem Efifo.contents_short : fifo.contents.length ≤ 2 := by
  rw [Efifo.contents, List.length_take]
  exact Nat.min_le_right _ _

/-- The FIFO gives its first entry away and takes a new one in at its end, as long as it
is not asked for more than it has or can hold. -/
theorem Efifo.Sound.step (sound : fifo.Sound) (rd wr : Bool) (wrData : α)
    (room : wr = true → fifo.full = false) (present : rd = true → fifo.contents ≠ []) :
    (fifo.step rd wr wrData).Sound ∧
      (fifo.step rd wr wrData).contents =
        (if rd then fifo.contents.tail else fifo.contents) ++ (if wr then [wrData] else []) := by
  obtain ⟨entries, entry0, entry1, rdAddress, wrAddress⟩ := fifo
  have count := sound.entries
  obtain ⟨fits, behind⟩ := sound
  simp only at count behind
  subst behind
  cases rd <;> cases wr
  case false.false => exact ⟨⟨fits, rfl⟩, by simp [Efifo.step, Efifo.store, Efifo.contents, Efifo.rdData]⟩
  case false.true =>
    have short := room rfl
    obtain rfl | rfl | rfl := count
    · obtain rfl | rfl := two_values rdAddress <;> refine ⟨⟨?_, ?_⟩, ?_⟩ <;>
        simp [Efifo.step, Efifo.store, Efifo.contents, Efifo.rdData, Efifo.full, nextAddress]
    · obtain rfl | rfl := two_values rdAddress <;> refine ⟨⟨?_, ?_⟩, ?_⟩ <;>
        simp [Efifo.step, Efifo.store, Efifo.contents, Efifo.rdData, Efifo.full, nextAddress]
    · cases short
  case true.false =>
    have some := present rfl
    obtain rfl | rfl | rfl := count
    · exact absurd rfl some
    · obtain rfl | rfl := two_values rdAddress <;> refine ⟨⟨?_, ?_⟩, ?_⟩ <;>
        simp [Efifo.step, Efifo.store, Efifo.contents, Efifo.rdData, Efifo.full, Efifo.empty, nextAddress]
    · obtain rfl | rfl := two_values rdAddress <;> refine ⟨⟨?_, ?_⟩, ?_⟩ <;>
        simp [Efifo.step, Efifo.store, Efifo.contents, Efifo.rdData, Efifo.full, Efifo.empty, nextAddress]
  case true.true =>
    have some := present rfl
    have short := room rfl
    obtain rfl | rfl | rfl := count
    · exact absurd rfl some
    · obtain rfl | rfl := two_values rdAddress <;> refine ⟨⟨?_, ?_⟩, ?_⟩ <;>
        simp [Efifo.step, Efifo.store, Efifo.contents, Efifo.rdData, Efifo.full, nextAddress]
    · cases short

end Contents

section Phases

/-- The bank and the row of an entry, as the memory keeps them. -/
def Entry.rowBank (entry : Entry) : BitVec 15 :=
  BitVec.ofBool (entry.bank.getLsbD 1) ++ entry.row ++ BitVec.ofBool (entry.bank.getLsbD 0)

/-- An address is a bank, a row and a column. -/
theorem Entry.rowBank_column (entry : Entry) : entry.rowBank ++ entry.column = entry.addr := by
  apply BitVec.eq_of_getLsbD_eq
  intro place inside
  simp only [rowBank, bank, row, column, BitVec.getLsbD_append, BitVec.getLsbD_extractLsb',
    BitVec.getLsbD_ofBool]
  interval_cases place <;> simp

/-- The row that the memory has open after the command on its pins. -/
def opens (row : BitVec 15) (pins : Pins) : BitVec 15 :=
  if commandOf pins.cmd = .activate then
    BitVec.ofBool (pins.ba.getLsbD 1) ++ pins.a ++ BitVec.ofBool (pins.ba.getLsbD 0)
  else row

/-- The state in which a request is put on the pins. -/
def Entry.serving (entry : Entry) : MainState := if entry.rnw then .read else .write

/-- What the main FSM is doing, with `queue` in the FIFO, the row `opened`, and a refresh
`requested` or not. -/
inductive Phase (main : MainFsm) (queue : List Entry) (opened : BitVec 15) (requested : Bool) : Prop
  /-- No row is in use. -/
  | idle (state : main.mState = .idle) (unasked : main.fPop = false)
      (settled : requested = true → main.ackRefreshRequest = false)
  /-- The head of the FIFO is the active request and leaves the FIFO with the next edge. -/
  | activate (state : main.mState = .activate) (asked : main.fPop = true)
      (chosen : main.activeCsN = false) (head : queue.head? = some main.active)
  /-- Its row is open, and it waits until the row can be used. -/
  | opening (state : main.mState = .countDown) (next : main.mNext = main.active.serving)
      (unasked : main.fPop = false) (chosen : main.activeCsN = false)
      (row : opened = main.active.rowBank)
  /-- The active request is put on the pins with the next edge, unless `asked` says that
  this has been done. -/
  | serving (state : main.mState = main.active.serving) (chosen : main.activeCsN = false)
      (row : opened = main.active.rowBank)
  /-- The row stays open without a request. -/
  | rowOpen (state : main.mState = .rowOpen) (unasked : main.fPop = false)
      (chosen : main.activeCsN = false) (row : opened = main.active.rowBank)
  | close (state : main.mState = .close) (next : main.mNext = .idle) (unasked : main.fPop = false)
      (chosen : main.activeCsN = false)
  | precharge (state : main.mState = .precharge) (unasked : main.fPop = false)
      (next : main.mNext = .idle ∧ main.activeCsN = false ∨ main.mNext = .autoRefresh ∧ requested = true)
  | closing (state : main.mState = .countDown) (unasked : main.fPop = false)
      (next : main.mNext = .idle ∨ main.mNext = .autoRefresh)
  | autoRefresh (state : main.mState = .autoRefresh) (unasked : main.fPop = false)

/-- The active request, if it has left the FIFO and is still to be put on the pins. -/
def MainFsm.held (main : MainFsm) : List Entry :=
  match main.mState with
  | .countDown => if main.mNext = .read ∨ main.mNext = .write then [main.active] else []
  | .read | .write => if main.fPop then [] else [main.active]
  | _ => []

/-- The request that the next edge puts on the pins. -/
def MainFsm.issued (input : MainInput) (main : MainFsm) : List Entry :=
  match main.mState with
  | .read | .write => if !main.pending input && main.fPop then [] else [main.selected input]
  | _ => []

/-- The access that an entry asks for. -/
def Entry.access (entry : Entry) : Access (BitVec 25) (BitVec 2) (BitVec 16) :=
  if entry.rnw then .read entry.addr else .write entry.addr entry.dqm entry.data

/-- The access on the pins, with a row open. -/
def MainFsm.onPins (row : BitVec 15) (main : MainFsm) :
    List (Access (BitVec 25) (BitVec 2) (BitVec 16)) :=
  match commandOf main.mCmd with
  | .read => [.read (row ++ main.mAddr.extractLsb' 0 10)]
  | .write => [.write (row ++ main.mAddr.extractLsb' 0 10) main.mDqm main.mData]
  | _ => []

/-- What the FIFO shows of its queue. -/
structure MainInput.Shows (input : MainInput) (queue : List Entry) : Prop where
  empty : input.fEmpty = true ↔ queue = []
  head : queue ≠ [] → queue = input.f :: queue.tail

/-- Without its chip select a command is none. -/
@[simp] theorem commandOf_select (inhibited : Bool) (code : BitVec 3) :
    commandOf (BitVec.ofBool inhibited ++ code) =
      if inhibited then .inhibit else commandOf (0#1 ++ code) := by
  cases inhibited with
  | true => revert code; decide
  | false => rfl

/-- The codes that the controller uses. -/
theorem commandOf_codes :
    commandOf (0#1 ++ 1#3) = .autoRefresh ∧ commandOf (0#1 ++ 2#3) = .precharge ∧
      commandOf (0#1 ++ 3#3) = .activate ∧ commandOf (0#1 ++ 4#3) = .write ∧
      commandOf (0#1 ++ 5#3) = .read ∧ commandOf (0#1 ++ 7#3) = .noOperation ∧
      commandOf 0b1111#4 = .inhibit := by
  decide

section Steps

variable {input : MainInput} {main : MainFsm} {queue : List Entry} {row : BitVec 15}

/-- The head of the FIFO is asked for only if it goes on with the row in use. -/
theorem MainFsm.pending_iff (shows : input.Shows queue) :
    main.pending input = true ↔
      main.activeCsN = false ∧ main.active.rnw = input.f.rnw ∧ main.active.bank = input.f.bank ∧
        main.active.row = input.f.row ∧ queue ≠ [] := by
  rw [ne_eq, ← shows.empty]
  simp [MainFsm.pending, MainFsm.matching, fCsN, and_assoc]

/-- A head that goes on with the row needs the same state and the same row. -/
theorem MainFsm.pending_serving (pending : main.pending input = true) :
    input.f.serving = main.active.serving ∧ input.f.rowBank = main.active.rowBank := by
  simp only [MainFsm.pending, MainFsm.matching, Bool.and_eq_true, beq_iff_eq] at pending
  obtain ⟨⟨⟨⟨_, rnw⟩, bank⟩, row⟩, _⟩ := pending
  exact ⟨by rw [Entry.serving, Entry.serving, rnw], by rw [Entry.rowBank, Entry.rowBank, bank, row]⟩

/-- In an active cycle the chip is selected. -/
theorem MainFsm.csnDecode_chosen (input : MainInput) (chosen : main.activeCsN = false) :
    main.csnDecode input = false := by
  rw [MainFsm.csnDecode, chosen, fCsN, ite_self]

/-- Nothing leaves the FIFO that has not been asked for. -/
theorem MainFsm.fSelect_unasked (unasked : main.fPop = false) : main.fSelect input = false := by
  rw [MainFsm.fSelect, unasked, Bool.false_and]

/-- The request that leaves the FIFO, or the one before it, has the row in use. -/
theorem MainFsm.selected_serving (input : MainInput) :
    (main.selected input).serving = main.active.serving ∧
      (main.selected input).rowBank = main.active.rowBank := by
  rw [MainFsm.selected]
  split_ifs with selected
  · rw [MainFsm.fSelect, Bool.and_eq_true] at selected
    exact MainFsm.pending_serving selected.2
  · exact ⟨rfl, rfl⟩

/-- In each state the edge is that of its branch. -/
theorem MainFsm.step_idle (state : main.mState = .idle) : main.step input = main.idle input := by
  rw [MainFsm.step, state]

theorem MainFsm.step_activate (state : main.mState = .activate) :
    main.step input = main.activate input := by
  rw [MainFsm.step, state]

theorem MainFsm.step_countDown (state : main.mState = .countDown) :
    main.step input = main.countDown input := by
  rw [MainFsm.step, state]

theorem MainFsm.step_read (state : main.mState = .read) : main.step input = main.read input := by
  rw [MainFsm.step, state]

theorem MainFsm.step_write (state : main.mState = .write) : main.step input = main.write input := by
  rw [MainFsm.step, state]

theorem MainFsm.step_close (state : main.mState = .close) : main.step input = main.close input := by
  rw [MainFsm.step, state]

theorem MainFsm.step_precharge (state : main.mState = .precharge) :
    main.step input = main.precharge input := by
  rw [MainFsm.step, state]

theorem MainFsm.step_autoRefresh (state : main.mState = .autoRefresh) :
    main.step input = main.autoRefresh := by
  rw [MainFsm.step, state]

theorem MainFsm.step_rowOpen (state : main.mState = .rowOpen) : main.step input = main.rowOpen input := by
  rw [MainFsm.step, state]

/-- The command that the next edge puts on the pins. -/
def MainFsm.commanded (input : MainInput) (main : MainFsm) : Command :=
  match main.mState with
  | .idle =>
    if input.initDone then if input.refreshRequest then .noOperation else .inhibit
    else commandOf input.iCmd
  | .activate => .activate
  | .countDown =>
    if main.mNext = .autoRefresh then .noOperation
    else if main.csnDecode input then .inhibit
    else .noOperation
  | .read => if !main.pending input && main.fPop then .noOperation else .read
  | .write => if !main.pending input && main.fPop then .noOperation else .write
  | .precharge => .precharge
  | .autoRefresh => .autoRefresh
  | .close | .rowOpen => .noOperation

/-- A command for a chip that is selected. -/
theorem MainFsm.commandOf_chosen (chosen : main.activeCsN = false) (code : BitVec 3) :
    commandOf (main.command input code) = commandOf (0#1 ++ code) := by
  rw [MainFsm.command, MainFsm.csnDecode_chosen _ chosen]
  rfl

/-- How it goes on does not concern the pins. -/
theorem MainFsm.continued_pins (next : MainFsm) :
    (main.continued input next).mCmd = next.mCmd ∧ (main.continued input next).mBank = next.mBank ∧
      (main.continued input next).mAddr = next.mAddr ∧ (main.continued input next).mDqm = next.mDqm ∧
      (main.continued input next).mData = next.mData ∧ (main.continued input next).oe = next.oe := by
  rw [MainFsm.continued]
  split_ifs <;> exact ⟨rfl, rfl, rfl, rfl, rfl, rfl⟩

/-- A read puts a request on the pins unless that has been done. -/
theorem MainFsm.read_pins (input : MainInput) (chosen : main.activeCsN = false) :
    (main.read input).mCmd = (if !main.pending input && main.fPop then 0#1 ++ 7#3 else 0#1 ++ 5#3) ∧
      (main.read input).mBank = (main.selected input).bank ∧
      (main.read input).mAddr = main.casAddr input ∧
      (main.read input).mDqm = (main.selected input).dqm ∧ (main.read input).oe = false := by
  have select := main.csnDecode_chosen input chosen
  rw [MainFsm.read]
  obtain ⟨mCmd, mBank, mAddr, mDqm, -, oe⟩ := @MainFsm.continued_pins input main
    { main with
      fPop := false
      oe := false
      mCmd := if !main.pending input && main.fPop then main.command input 7#3 else main.command input 5#3
      mBank := (main.selected input).bank
      mDqm := (main.selected input).dqm
      mAddr := main.casAddr input }
  refine ⟨mCmd.trans ?_, mBank, mAddr, mDqm, oe⟩
  simp only [MainFsm.command, select]
  rfl

/-- So does a write, which drives the data lines as well. -/
theorem MainFsm.write_pins (input : MainInput) (chosen : main.activeCsN = false) :
    (main.write input).mCmd = (if !main.pending input && main.fPop then 0#1 ++ 7#3 else 0#1 ++ 4#3) ∧
      (main.write input).mBank = (main.selected input).bank ∧
      (main.write input).mAddr = main.casAddr input ∧
      (main.write input).mDqm = (main.selected input).dqm ∧
      (main.write input).mData = (main.selected input).data ∧
      (main.write input).oe = !(!main.pending input && main.fPop) := by
  have select := main.csnDecode_chosen input chosen
  rw [MainFsm.write]
  obtain ⟨mCmd, mBank, mAddr, mDqm, mData, oe⟩ := @MainFsm.continued_pins input main
    { main with
      fPop := false
      oe := !(!main.pending input && main.fPop)
      mCmd := if !main.pending input && main.fPop then main.command input 7#3 else main.command input 4#3
      mData := (main.selected input).data
      mDqm := (main.selected input).dqm
      mBank := (main.selected input).bank
      mAddr := main.casAddr input }
  refine ⟨mCmd.trans ?_, mBank, mAddr, mDqm, mData, oe⟩
  simp only [MainFsm.command, select]
  rfl

/-- The commands in each phase. -/
theorem Phase.commands (phase : Phase main queue row input.refreshRequest) :
    commandOf (main.step input).mCmd = main.commanded input := by
  obtain ⟨autoRefresh, precharge, activate, write, read, noOperation, inhibit⟩ := commandOf_codes
  cases phase with
  | idle state _ _ =>
    rw [MainFsm.step, MainFsm.commanded, state]
    dsimp only
    rw [MainFsm.idle]
    split_ifs
    · exact noOperation
    · exact inhibit
    · exact inhibit
    · rfl
  | activate state _ chosen _ =>
    rw [MainFsm.step, MainFsm.commanded, state]
    exact (MainFsm.commandOf_chosen chosen 3).trans activate
  | opening state _ _ _ _ | closing state _ _ =>
    rw [MainFsm.step, MainFsm.commanded, state]
    dsimp only [MainFsm.countDown]
    rw [apply_ite commandOf, MainFsm.command, commandOf_select, noOperation]
  | serving state chosen _ =>
    rw [Entry.serving] at state
    split_ifs at state
    · rw [MainFsm.step, MainFsm.commanded, state]
      dsimp only
      rw [(MainFsm.read_pins _ chosen).1, apply_ite commandOf, read, noOperation]
    · rw [MainFsm.step, MainFsm.commanded, state]
      dsimp only
      rw [(MainFsm.write_pins _ chosen).1, apply_ite commandOf, write, noOperation]
  | rowOpen state _ chosen _ =>
    rw [MainFsm.step, MainFsm.commanded, state]
    dsimp only
    rw [MainFsm.rowOpen]
    split_ifs <;> exact (MainFsm.commandOf_chosen chosen 7).trans noOperation
  | close state _ _ chosen =>
    rw [MainFsm.step, MainFsm.commanded, state]
    exact (MainFsm.commandOf_chosen chosen 7).trans noOperation
  | precharge state _ next =>
    rw [MainFsm.step, MainFsm.commanded, state]
    dsimp only [MainFsm.precharge]
    obtain ⟨_, chosen⟩ | ⟨_, requested⟩ := next
    · rw [apply_ite commandOf, MainFsm.commandOf_chosen chosen, precharge, ite_self]
    · rw [requested]
      exact precharge
  | autoRefresh state _ =>
    rw [MainFsm.step, MainFsm.commanded, state]
    exact autoRefresh

/-- The data lines are driven with a write and with nothing else. -/
theorem Phase.oe (phase : Phase main queue row input.refreshRequest)
    (plain : input.initDone = false → commandOf input.iCmd ≠ .read ∧ commandOf input.iCmd ≠ .write) :
    (main.step input).oe = true ↔ commandOf (main.step input).mCmd = .write := by
  rw [phase.commands]
  cases phase with
  | serving state chosen _ =>
    rw [Entry.serving] at state
    split_ifs at state
    · have step : main.step input = main.read input := MainFsm.step_read state
      rw [MainFsm.commanded, state, step, (MainFsm.read_pins _ chosen).2.2.2.2]
      dsimp only
      split_ifs <;> simp
    · have step : main.step input = main.write input := MainFsm.step_write state
      rw [MainFsm.commanded, state, step, (MainFsm.write_pins _ chosen).2.2.2.2.2]
      cases (!main.pending input && main.fPop) <;> simp
  | idle state _ _ =>
    rw [MainFsm.step, MainFsm.commanded, state]
    dsimp only
    rw [MainFsm.idle]
    split_ifs with initDone
    · simp
    · simp [MainFsm.take]
    · simp
    · simp [(plain (Bool.eq_false_of_not_eq_true initDone)).2]
  | opening state _ _ _ _ | closing state _ _ =>
    rw [MainFsm.step, MainFsm.commanded, state]
    dsimp only [MainFsm.countDown]
    split_ifs <;> simp
  | rowOpen state _ _ _ =>
    rw [MainFsm.step, MainFsm.commanded, state]
    dsimp only
    rw [MainFsm.rowOpen]
    split_ifs <;> simp [MainFsm.take]
  | activate state _ _ _ | close state _ _ _ | precharge state _ _ | autoRefresh state _ =>
    rw [MainFsm.step, MainFsm.commanded, state]
    simp [MainFsm.activate, MainFsm.close, MainFsm.precharge, MainFsm.autoRefresh]

/-- The edge puts the issued request on the pins, with its row open. -/
theorem Phase.onPins (phase : Phase main queue row input.refreshRequest)
    (plain : input.initDone = false → commandOf input.iCmd ≠ .read ∧ commandOf input.iCmd ≠ .write) :
    (main.step input).onPins row = (main.issued input).map Entry.access := by
  have commands := phase.commands
  rw [MainFsm.onPins, commands]
  cases phase with
  | serving state chosen opened =>
    obtain ⟨direction, rowBank⟩ := main.selected_serving input
    have address : row ++ (main.casAddr input).extractLsb' 0 10 = (main.selected input).addr := by
      rw [MainFsm.casAddr, BitVec.extractLsb'_append_eq_right, opened, ← rowBank, Entry.rowBank_column]
    rw [← direction, Entry.serving] at state
    split_ifs at state with rnw
    · obtain ⟨-, -, mAddr, -, -⟩ := MainFsm.read_pins input chosen
      have step : main.step input = main.read input := MainFsm.step_read state
      rw [MainFsm.commanded, MainFsm.issued, state, step, mAddr, address]
      dsimp only
      split_ifs
      · rfl
      · rw [List.map_singleton, Entry.access, if_pos rnw]
    · obtain ⟨-, -, mAddr, mDqm, mData, -⟩ := MainFsm.write_pins input chosen
      have step : main.step input = main.write input := MainFsm.step_write state
      rw [MainFsm.commanded, MainFsm.issued, state, step, mAddr, address, mDqm, mData]
      dsimp only
      split_ifs
      · rfl
      · rw [List.map_singleton, Entry.access, if_neg rnw]
  | idle state _ _ =>
    rw [MainFsm.commanded, MainFsm.issued, state]
    dsimp only
    split_ifs with initDone
    · rfl
    · rfl
    · obtain ⟨noRead, noWrite⟩ := plain (Bool.eq_false_of_not_eq_true initDone)
      cases command : commandOf input.iCmd <;> simp_all
  | opening state _ _ _ _ | closing state _ _ =>
    rw [MainFsm.commanded, MainFsm.issued, state]
    dsimp only
    split_ifs <;> rfl
  | activate state _ _ _ | rowOpen state _ _ _ | close state _ _ _ | precharge state _ _
  | autoRefresh state _ =>
    rw [MainFsm.commanded, MainFsm.issued, state]
    rfl

/-- After a read or a write the active request has been put on the pins. -/
theorem MainFsm.continued_held (next : MainFsm) (serving : next.mState = .read ∨ next.mState = .write) :
    (main.continued input next).held = [] := by
  rw [MainFsm.continued]
  split_ifs
  · rfl
  · obtain read | write := serving
    · rw [MainFsm.take, MainFsm.held, read]
      rfl
    · rw [MainFsm.take, MainFsm.held, write]
      rfl
  · rfl

/-- What a read or a write issues comes from the active registers or from the FIFO. -/
theorem MainFsm.served (shows : input.Shows queue)
    (serving : main.mState = .read ∨ main.mState = .write) :
    main.held ++ queue = main.issued input ++ if main.fSelect input then queue.tail else queue := by
  have issued : main.issued input =
      if !main.pending input && main.fPop then [] else [main.selected input] := by
    obtain state | state := serving <;> rw [MainFsm.issued, state]
  have held : main.held = if main.fPop then [] else [main.active] := by
    obtain state | state := serving <;> rw [MainFsm.held, state]
  rw [issued, held, MainFsm.selected, MainFsm.fSelect]
  cases asked : main.fPop with
  | false => simp
  | true =>
    cases pending : main.pending input with
    | false => simp
    | true =>
      obtain ⟨-, -, -, -, present⟩ := (MainFsm.pending_iff shows).mp pending
      simpa using shows.head present

/-- What the next edge leaves in the active registers, outside of a read and a write. -/
theorem Phase.held (phase : Phase main queue row input.refreshRequest) (noRead : main.mState ≠ .read)
    (noWrite : main.mState ≠ .write) :
    (main.step input).held = if main.mState = .activate then [main.active] else main.held := by
  cases phase with
  | serving state _ _ =>
    rw [Entry.serving] at state
    split_ifs at state
    · exact absurd state noRead
    · exact absurd state noWrite
  | activate state _ _ _ =>
    rw [MainFsm.step_activate state, if_pos state, MainFsm.activate, MainFsm.held]
    cases main.active.rnw <;> rfl
  | opening state next unasked _ _ =>
    rw [MainFsm.step_countDown state, state, if_neg (by decide), MainFsm.countDown]
    rw [Entry.serving] at next
    split_ifs at next ⊢ <;> simp [MainFsm.held, next, state]
  | closing state _ next =>
    rw [MainFsm.step_countDown state, state, if_neg (by decide), MainFsm.countDown]
    obtain next | next := next <;> split_ifs <;> simp [MainFsm.held, next, state]
  | precharge state _ next =>
    rw [MainFsm.step_precharge state, state, if_neg (by decide), MainFsm.precharge]
    obtain ⟨next, _⟩ | ⟨next, _⟩ := next <;> simp [MainFsm.held, next, state]
  | idle state _ _ =>
    rw [MainFsm.step_idle state, state, if_neg (by decide), MainFsm.idle]
    split_ifs <;> simp [MainFsm.held, MainFsm.take, state]
  | rowOpen state _ _ _ =>
    rw [MainFsm.step_rowOpen state, state, if_neg (by decide), MainFsm.rowOpen]
    split_ifs <;> simp [MainFsm.held, MainFsm.take, state]
  | close state _ _ _ =>
    rw [MainFsm.step_close state, state, if_neg (by decide), MainFsm.close]
    split_ifs <;> simp [MainFsm.held, state]
  | autoRefresh state _ =>
    rw [MainFsm.step_autoRefresh state, state, if_neg (by decide), MainFsm.autoRefresh]
    simp [MainFsm.held, state]

/-- Only then is the FIFO read. -/
theorem Phase.unasked (phase : Phase main queue row input.refreshRequest) (noRead : main.mState ≠ .read)
    (noWrite : main.mState ≠ .write) (noActivate : main.mState ≠ .activate) : main.fPop = false := by
  cases phase with
  | serving state _ _ =>
    rw [Entry.serving] at state
    split_ifs at state
    · exact absurd state noRead
    · exact absurd state noWrite
  | activate state _ _ _ => exact absurd state noActivate
  | opening _ _ unasked _ _ | closing _ unasked _ | precharge _ unasked _ | idle _ unasked _
  | rowOpen _ unasked _ _ | close _ _ unasked _ | autoRefresh _ unasked => exact unasked

/-- The head of the FIFO has just become the active request. -/
theorem Phase.activates (phase : Phase main queue row input.refreshRequest) (shows : input.Shows queue)
    (state : main.mState = .activate) :
    main.fSelect input = true ∧ queue = main.active :: queue.tail := by
  cases phase with
  | activate _ asked chosen head =>
    have present : queue ≠ [] := by
      rintro rfl
      cases head
    have first : input.f = main.active := by
      rw [shows.head present, List.head?_cons] at head
      exact Option.some.inj head
    have pending : main.pending input = true :=
      (MainFsm.pending_iff shows).mpr ⟨chosen, by rw [first], by rw [first], by rw [first], present⟩
    refine ⟨by rw [MainFsm.fSelect, asked, pending]; rfl, ?_⟩
    rw [← first]
    exact shows.head present
  | serving other _ _ =>
    rw [Entry.serving, state] at other
    split_ifs at other
  | opening other | closing other | precharge other | idle other | rowOpen other | close other
  | autoRefresh other =>
    rw [state] at other
    cases other

/-- The queue gives what is issued, and nothing else. -/
theorem Phase.conserves (phase : Phase main queue row input.refreshRequest) (shows : input.Shows queue) :
    main.held ++ queue =
      main.issued input ++
        ((main.step input).held ++ if main.fSelect input then queue.tail else queue) := by
  by_cases read : main.mState = .read
  · have held : (main.read input).held = [] := MainFsm.continued_held _ (.inl read)
    have step : main.step input = main.read input := MainFsm.step_read read
    rw [step, held]
    exact MainFsm.served shows (.inl read)
  by_cases write : main.mState = .write
  · have held : (main.write input).held = [] := MainFsm.continued_held _ (.inr write)
    have step : main.step input = main.write input := MainFsm.step_write write
    rw [step, held]
    exact MainFsm.served shows (.inr write)
  have silent : main.issued input = [] := by
    rw [MainFsm.issued]
    cases state : main.mState <;> simp_all
  rw [phase.held read write, silent]
  by_cases activate : main.mState = .activate
  · obtain ⟨selected, first⟩ := phase.activates shows activate
    rw [if_pos activate, if_pos selected, MainFsm.held, activate]
    exact first
  · rw [if_neg activate, MainFsm.fSelect_unasked (phase.unasked read write activate)]
    rfl

/-- No other row is opened while one is in use. -/
theorem Phase.opens_kept (phase : Phase main queue row input.refreshRequest)
    (noIdle : main.mState ≠ .idle)
    (noActivate : main.mState ≠ .activate) : opens row (main.step input).pins = row := by
  have other : main.commanded input ≠ .activate := by
    rw [MainFsm.commanded]
    cases state : main.mState with
    | idle => exact absurd state noIdle
    | activate => exact absurd state noActivate
    | countDown | read | write =>
      dsimp only
      split_ifs <;> simp
    | close | precharge | autoRefresh | rowOpen => simp
  rw [opens, if_neg]
  exact fun activate => other (phase.commands.symm.trans activate)

/-- The row of the active request is opened. -/
theorem Phase.opens_active (phase : Phase main queue row input.refreshRequest)
    (state : main.mState = .activate) : opens row (main.step input).pins = main.active.rowBank := by
  have commands := phase.commands
  rw [MainFsm.commanded, state] at commands
  rw [opens, MainFsm.pins, if_pos commands, MainFsm.step_activate state]
  rfl

/-- A read or a write goes on in one of three phases. -/
theorem Phase.continued (next : MainFsm) (queue' : List Entry) (requested' : Bool)
    (state : main.mState = main.active.serving) (row' : row = main.active.rowBank)
    (chosen : main.activeCsN = false) (sameState : next.mState = main.mState)
    (sameChoice : next.activeCsN = main.activeCsN) (sameActive : next.active = main.active)
    (unasked : next.fPop = false) :
    Phase (main.continued input next) queue' row requested' := by
  rw [MainFsm.continued]
  split_ifs with pending requested
  · exact .closing rfl unasked (.inl rfl)
  · obtain ⟨serving, rowBank⟩ := MainFsm.pending_serving pending
    refine .serving ?_ rfl (row'.trans rowBank.symm)
    exact (sameState.trans state).trans serving.symm
  · refine .rowOpen rfl unasked (sameChoice.trans chosen) ?_
    exact row'.trans (congrArg Entry.rowBank sameActive.symm)

/-- The next phase, with `entering` behind the queue. -/
theorem Phase.step (phase : Phase main queue row input.refreshRequest) (shows : input.Shows queue)
    (entering : List Entry) (requested' : Bool)
    (stays : input.refreshRequest = true → main.ackRefreshRequest = false → input.initDone = true →
      requested' = true)
    (ends : requested' = true → main.ackRefreshRequest = false ∧ input.initDone = true) :
    Phase (main.step input) ((if main.fSelect input then queue.tail else queue) ++ entering)
      (opens row (main.step input).pins) requested' := by
  have kept := phase.opens_kept
  cases phase with
  | idle state unasked settled =>
    rw [MainFsm.step_idle state, MainFsm.fSelect_unasked unasked, if_neg Bool.false_ne_true, MainFsm.idle]
    split_ifs with initDone requested present
    · exact .precharge rfl rfl (.inr ⟨rfl, stays requested (settled requested) initDone⟩)
    · have some : queue ≠ [] := by
        rw [ne_eq, ← shows.empty]
        simpa using present
      refine .activate rfl rfl rfl ?_
      rw [shows.head some]
      rfl
    · exact .idle state rfl fun _ => rfl
    · exact .idle rfl rfl fun requested => absurd (ends requested).2 initDone
  | activate state asked chosen head =>
    rw [(Phase.activate state asked chosen head).opens_active state, MainFsm.step_activate state]
    exact .opening rfl rfl rfl chosen rfl
  | opening state next unasked chosen opened =>
    rw [kept (by simp [state]) (by simp [state]), MainFsm.step_countDown state, MainFsm.countDown,
      MainFsm.fSelect_unasked unasked, if_neg Bool.false_ne_true]
    split_ifs with counting
    · exact .opening rfl next rfl chosen opened
    · exact .opening rfl next rfl chosen opened
    · exact .serving next chosen opened
    · exact .serving next chosen opened
  | closing state unasked next =>
    rw [kept (by simp [state]) (by simp [state]), MainFsm.step_countDown state, MainFsm.countDown,
      MainFsm.fSelect_unasked unasked, if_neg Bool.false_ne_true]
    obtain next | next := next
    · split_ifs
      · exact .closing rfl rfl (.inl next)
      · exact .closing rfl rfl (.inl next)
      · exact .idle next rfl fun requested => (ends requested).1
      · exact .idle next rfl fun requested => (ends requested).1
    · split_ifs
      · exact .closing rfl rfl (.inr next)
      · exact .autoRefresh next rfl
  | serving state chosen opened =>
    have served := state
    rw [Entry.serving] at served
    split_ifs at served
    · rw [kept (by simp [served]) (by simp [served]), MainFsm.step_read served]
      exact Phase.continued _ _ _ state opened chosen rfl rfl rfl rfl
    · rw [kept (by simp [served]) (by simp [served]), MainFsm.step_write served]
      exact Phase.continued _ _ _ state opened chosen rfl rfl rfl rfl
  | rowOpen state unasked chosen opened =>
    rw [kept (by simp [state]) (by simp [state]), MainFsm.step_rowOpen state, MainFsm.rowOpen,
      MainFsm.fSelect_unasked unasked, if_neg Bool.false_ne_true]
    have same : (!input.fEmpty) = true → main.matching input = true → row = input.f.rowBank := by
      intro present matching
      have pending : main.pending input = true := by rw [MainFsm.pending, matching, present]; rfl
      exact opened.trans (MainFsm.pending_serving pending).2.symm
    split_ifs with requested present matching direction
    · exact .closing rfl rfl (.inl rfl)
    · exact .serving (if_pos direction).symm rfl (same present matching)
    · exact .serving (if_neg direction).symm rfl (same present matching)
    · exact .close rfl rfl rfl chosen
    · exact .rowOpen state rfl chosen opened
  | close state next unasked chosen =>
    rw [kept (by simp [state]) (by simp [state]), MainFsm.step_close state, MainFsm.close,
      MainFsm.fSelect_unasked unasked, if_neg Bool.false_ne_true]
    split_ifs
    · exact .close rfl next rfl chosen
    · exact .precharge rfl rfl (.inl ⟨next, chosen⟩)
  | precharge state unasked next =>
    rw [kept (by simp [state]) (by simp [state]), MainFsm.step_precharge state, MainFsm.precharge]
    exact .closing rfl rfl (next.imp And.left And.left)
  | autoRefresh state unasked =>
    rw [MainFsm.step_autoRefresh state, MainFsm.autoRefresh]
    exact .closing rfl rfl (.inl rfl)

/-- The code of a read is sent to a selected chip only. -/
theorem Phase.strobe (phase : Phase main queue row input.refreshRequest)
    (plain : input.initDone = false → input.iCmd ≠ 0b1101#4) : (main.step input).mCmd ≠ 0b1101#4 := by
  have codes : ∀ inhibited : Bool, ∀ code : BitVec 3, code ≠ 5 →
      BitVec.ofBool inhibited ++ code ≠ 0b1101#4 := by
    decide
  cases phase with
  | serving state chosen _ =>
    rw [Entry.serving] at state
    split_ifs at state
    · rw [MainFsm.step_read state, (MainFsm.read_pins _ chosen).1]
      split_ifs <;> decide
    · rw [MainFsm.step_write state, (MainFsm.write_pins _ chosen).1]
      split_ifs <;> decide
  | idle state _ _ =>
    rw [MainFsm.step_idle state, MainFsm.idle]
    split_ifs with initDone
    · exact codes false 7 (by decide)
    · exact codes true 7 (by decide)
    · exact codes true 7 (by decide)
    · exact plain (Bool.eq_false_of_not_eq_true initDone)
  | opening state _ _ _ _ | closing state _ _ =>
    rw [MainFsm.step_countDown state]
    dsimp only [MainFsm.countDown]
    split_ifs
    · exact codes false 7 (by decide)
    · exact codes _ 7 (by decide)
  | rowOpen state _ _ _ =>
    rw [MainFsm.step_rowOpen state, MainFsm.rowOpen]
    split_ifs <;> exact codes _ 7 (by decide)
  | precharge state _ _ =>
    rw [MainFsm.step_precharge state]
    dsimp only [MainFsm.precharge]
    split_ifs
    · exact codes false 2 (by decide)
    · exact codes _ 2 (by decide)
  | activate state _ _ _ =>
    rw [MainFsm.step_activate state]
    exact codes _ 3 (by decide)
  | close state _ _ _ =>
    rw [MainFsm.step_close state]
    exact codes _ 7 (by decide)
  | autoRefresh state _ =>
    rw [MainFsm.step_autoRefresh state]
    exact codes false 1 (by decide)

/-- A read on the pins comes from the state for it. -/
theorem Phase.reads (phase : Phase main queue row input.refreshRequest)
    (plain : input.initDone = false → commandOf input.iCmd ≠ .read ∧ commandOf input.iCmd ≠ .write)
    (read : commandOf (main.step input).mCmd = .read) :
    main.mState = .read ∧ (!main.pending input && main.fPop) = false := by
  rw [phase.commands, MainFsm.commanded] at read
  cases state : main.mState with
  | read =>
    rw [state] at read
    dsimp only at read
    split_ifs at read with spun
    exact ⟨rfl, Bool.eq_false_of_not_eq_true spun⟩
  | idle =>
    rw [state] at read
    dsimp only at read
    split_ifs at read with initDone
    exact absurd read (plain (Bool.eq_false_of_not_eq_true initDone)).1
  | countDown | write =>
    rw [state] at read
    dsimp only at read
    split_ifs at read
  | activate | close | precharge | autoRefresh | rowOpen =>
    rw [state] at read
    cases read

/-- So does a write. -/
theorem Phase.writes (phase : Phase main queue row input.refreshRequest)
    (plain : input.initDone = false → commandOf input.iCmd ≠ .read ∧ commandOf input.iCmd ≠ .write)
    (write : commandOf (main.step input).mCmd = .write) : main.mState = .write := by
  rw [phase.commands, MainFsm.commanded] at write
  cases state : main.mState with
  | write => rfl
  | idle =>
    rw [state] at write
    dsimp only at write
    split_ifs at write with initDone
    exact absurd write (plain (Bool.eq_false_of_not_eq_true initDone)).2
  | countDown | read =>
    rw [state] at write
    dsimp only at write
    split_ifs at write
  | activate | close | precharge | autoRefresh | rowOpen =>
    rw [state] at write
    cases write

/-- The mode is loaded by the initialisation alone. -/
theorem Phase.noMode (phase : Phase main queue row input.refreshRequest)
    (finished : input.initDone = true) :
    commandOf (main.step input).mCmd ≠ .loadMode := by
  rw [phase.commands, MainFsm.commanded, finished]
  cases main.mState with
  | idle =>
    dsimp only
    rw [if_pos rfl]
    split_ifs <;> simp
  | countDown | read | write =>
    dsimp only
    split_ifs <;> simp
  | activate | close | precharge | autoRefresh | rowOpen => simp

/-- The direction of a read or a write is that of the active request. -/
theorem Phase.direction {requested : Bool} (phase : Phase main queue row requested)
    (serving : main.mState = .read ∨ main.mState = .write) :
    main.mState = main.active.serving ∧ main.activeCsN = false := by
  cases phase with
  | serving state chosen _ => exact ⟨state, chosen⟩
  | opening state | closing state | idle state | activate state | rowOpen state | close state
  | precharge state | autoRefresh state =>
    rw [state] at serving
    obtain impossible | impossible := serving <;> cases impossible

end Steps

end Phases

section Runs

/-- The request that an edge takes into the FIFO. -/
def System.accepts (input : Input) (system : System) : List (Access (BitVec 25) (BitVec 2) (BitVec 16)) :=
  if system.controller.wr input.request then [input.request.entry.access] else []

/-- The access that the memory performs with an edge, as its pins and the data lines show it. -/
def System.performs (input : Input) (system : System) :
    List (Access (BitVec 25) (BitVec 2) (BitVec 16)) :=
  match commandOf system.controller.main.mCmd with
  | .read => [.read (system.component.testAddr system.controller.main.pins)]
  | .write =>
    [.write (system.component.testAddr system.controller.main.pins) system.controller.main.mDqm
      (system.zsDq input)]
  | _ => []

/-- The entries that are still to be put on the pins. -/
def Controller.waiting (controller : Controller) : List Entry :=
  controller.main.held ++ controller.fifo.contents

/-- The row that is open when the next access is performed. -/
def System.row (system : System) : BitVec 15 :=
  opens system.component.addrCrb system.controller.main.pins

/-- The commands of the initialisation. -/
def Initialisation.Plain (init : Initialisation) : Prop :=
  init.iCmd ∈ [0b1111#4, 0#1 ++ 2#3, 0#1 ++ 1#3, 0#1 ++ 7#3, 0#1 ++ 0#3]

/-- What holds between two edges. -/
structure System.Serves (system : System) : Prop where
  sound : system.controller.fifo.Sound
  phase : Phase system.controller.main system.controller.fifo.contents system.row
    system.controller.refresh.refreshRequest
  plain : system.controller.init.Plain
  driven : system.controller.main.oe = true ↔ commandOf system.controller.main.mCmd = .write
  strobe : system.controller.main.mCmd.extractLsb' 0 3 = 5 ↔ commandOf system.controller.main.mCmd = .read

variable {input : Input} {system : System}

/-- An edge of the initialisation sends one of them. -/
theorem Initialisation.Plain.step {init : Initialisation} (plain : init.Plain) (counted : Bool) :
    (init.step counted).Plain := by
  rw [Plain, Initialisation.step]
  cases init.iState with
  | done => exact plain
  | _ => simp

/-- The initialisation sends neither reads nor writes. -/
theorem Initialisation.Plain.silent {init : Initialisation} (plain : init.Plain) :
    commandOf init.iCmd ≠ .read ∧ commandOf init.iCmd ≠ .write := by
  have silent : ∀ cmd ∈ [0b1111#4, 0#1 ++ 2#3, 0#1 ++ 1#3, 0#1 ++ 7#3, 0#1 ++ 0#3],
      commandOf cmd ≠ .read ∧ commandOf cmd ≠ .write := by
    decide
  exact silent _ plain

/-- None of them looks like a read to the controller, which leaves the chip select out.
-/
theorem Initialisation.Plain.selected {init : Initialisation} (plain : init.Plain) :
    init.iCmd ≠ 0b1101#4 := by
  have selected : ∀ cmd ∈ [0b1111#4, 0#1 ++ 2#3, 0#1 ++ 1#3, 0#1 ++ 7#3, 0#1 ++ 0#3], cmd ≠ 0b1101#4 := by
    decide
  exact selected _ plain

/-- What the FIFO shows of its contents. -/
theorem Efifo.Sound.shows {controller : Controller} (sound : controller.fifo.Sound) :
    controller.mainInput.Shows controller.fifo.contents where
  empty := Efifo.empty_contents sound
  head := Efifo.rdData_contents sound

/-- The memory performs what is on the pins. -/
theorem System.Serves.performs (serves : system.Serves) :
    system.performs input = system.controller.main.onPins system.component.addrCrb := by
  rw [System.performs, MainFsm.onPins]
  cases command : commandOf system.controller.main.mCmd with
  | write =>
    rw [System.zsDq, if_pos (serves.driven.mpr command)]
    rfl
  | _ => rfl

/-- The FIFO is not asked for more than it has. -/
theorem System.Serves.queue (serves : system.Serves) :
    (system.step input).controller.fifo.Sound ∧
      (system.step input).controller.fifo.contents =
        (if system.controller.fSelect then system.controller.fifo.contents.tail
          else system.controller.fifo.contents) ++
          if system.controller.wr input.request then [input.request.entry] else [] := by
  apply serves.sound.step
  · intro wr
    rw [Controller.wr, Bool.and_eq_true, Bool.not_eq_true'] at wr
    exact wr.2
  · intro selected
    rw [Controller.fSelect, MainFsm.fSelect, Bool.and_eq_true] at selected
    exact ((MainFsm.pending_iff serves.sound.shows).mp selected.2).2.2.2.2

/-- An edge keeps all of it. -/
theorem System.Serves.step (serves : system.Serves) : (system.step input).Serves where
  sound := serves.queue.1
  phase := by
    rw [serves.queue.2]
    refine serves.phase.step serves.sound.shows _ _ ?_ ?_
    · intro requested unacked done
      change ((_ || system.controller.refresh.refreshRequest) &&
        !system.controller.main.ackRefreshRequest &&
        system.controller.init.initDone) = true
      rw [show system.controller.refresh.refreshRequest = true from requested, unacked,
        show system.controller.init.initDone = true from done, Bool.or_true]
      rfl
    · intro requested
      change (_ && !system.controller.main.ackRefreshRequest &&
        system.controller.init.initDone) = true at requested
      rw [Bool.and_eq_true, Bool.and_eq_true, Bool.not_eq_true'] at requested
      exact ⟨requested.1.2, requested.2⟩
  plain := serves.plain.step _
  driven := serves.phase.oe fun _ => serves.plain.silent
  strobe := by
    have strobe := @Phase.strobe system.controller.mainInput _ _ _ serves.phase
      fun _ => serves.plain.selected
    change (system.controller.main.step system.controller.mainInput).mCmd.extractLsb' 0 3 = 5 ↔
      commandOf (system.controller.main.step system.controller.mainInput).mCmd = .read
    generalize (system.controller.main.step system.controller.mainInput).mCmd = cmd at strobe ⊢
    revert cmd
    decide

/-- The main FSM takes its own step. -/
theorem System.step_main :
    (system.step input).controller.main = system.controller.main.step system.controller.mainInput := rfl

/-- Where the accesses on the pins come from. -/
theorem System.Serves.reads (serves : system.Serves)
    (read : commandOf (system.step input).controller.main.mCmd = .read) :
    system.controller.main.mState = .read ∧
      (!system.controller.main.pending system.controller.mainInput && system.controller.main.fPop) =
        false :=
  @Phase.reads system.controller.mainInput _ _ _ serves.phase (fun _ => serves.plain.silent) read

/-- A write comes from its state. -/
theorem System.Serves.writes (serves : system.Serves)
    (write : commandOf (system.step input).controller.main.mCmd = .write) :
    system.controller.main.mState = .write :=
  @Phase.writes system.controller.mainInput _ _ _ serves.phase (fun _ => serves.plain.silent) write

/-- After the initialisation nobody loads the mode register. -/
theorem System.Serves.noMode (serves : system.Serves)
    (finished : system.controller.init.initDone = true) :
    commandOf (system.step input).controller.main.mCmd ≠ .loadMode :=
  @Phase.noMode system.controller.mainInput _ _ _ serves.phase finished

/-- A step keeps the order of the entries. -/
theorem System.Serves.conserves (serves : system.Serves) :
    system.controller.waiting ++
        (if system.controller.wr input.request then [input.request.entry] else []) =
      system.controller.main.issued system.controller.mainInput ++
        (system.step input).controller.waiting := by
  rw [Controller.waiting, Controller.waiting, serves.queue.2, serves.phase.conserves serves.sound.shows]
  simp only [List.append_assoc]
  rfl

/-- What the memory performs next is what has been issued. -/
theorem System.Serves.performs_step (serves : system.Serves) (input' : Input) :
    (system.step input).performs input' =
      (system.controller.main.issued system.controller.mainInput).map Entry.access :=
  serves.step.performs.trans (serves.phase.onPins fun _ => serves.plain.silent)

/-- The memory is written as the access says. -/
theorem System.memArray_step :
    (system.step input).component.memArray =
      performAll masked system.component.memArray (system.performs input) := by
  change (if commandOf system.controller.main.mCmd = .write then _ else _) = _
  rw [System.performs]
  split_ifs with command
  · have same : commandOf system.controller.main.pins.cmd = .write := command
    rw [command, TestComponent.rmwTemp, TestComponent.readData, if_pos same]
    rfl
  · cases other : commandOf system.controller.main.mCmd with
    | write => exact absurd other command
    | _ => rfl

/-- The registers after a reset, whatever they and the memory were. -/
theorem System.Serves.reset (system : System) : system.reset.Serves := by
  have inhibit : commandOf 0b1111#4 = .inhibit := commandOf_codes.2.2.2.2.2.2
  constructor
  case sound => exact ⟨Nat.zero_le 2, rfl⟩
  case phase => exact .idle rfl rfl fun requested => absurd requested Bool.false_ne_true
  case plain => exact List.mem_cons_self
  case driven =>
    exact ⟨fun driven => absurd driven Bool.false_ne_true, fun write => by cases inhibit.symm.trans write⟩
  case strobe =>
    have strobe : ¬ (0b1111#4).extractLsb' 0 3 = 5 := by decide
    exact ⟨fun read => absurd read strobe, fun read => by cases inhibit.symm.trans read⟩

variable (inputs : Nat → Input) (start : System)

/-- It holds in every run. -/
theorem serves (cycle : Nat) : (circuit inputs start cycle).Serves :=
  Clocked.run_invariant _ inputs _ System.Serves (System.Serves.reset start)
    (fun _ _ serves => serves.step) cycle

/-- The requests that the FIFO has taken up to a cycle. -/
def accepted (cycle : Nat) : List (Access (BitVec 25) (BitVec 2) (BitVec 16)) :=
  Clocked.history (fun cycle => (circuit inputs start cycle).accepts (inputs cycle)) cycle

/-- The accesses that the memory has performed up to a cycle. -/
def performed (cycle : Nat) : List (Access (BitVec 25) (BitVec 2) (BitVec 16)) :=
  Clocked.history (fun cycle => (circuit inputs start cycle).performs (inputs cycle)) cycle

/-- The requests that have been taken and not yet been performed. -/
def outstanding (cycle : Nat) : List (Access (BitVec 25) (BitVec 2) (BitVec 16)) :=
  (circuit inputs start cycle).performs (inputs cycle) ++
    (circuit inputs start cycle).controller.waiting.map Entry.access

/-- The memory performs the requests in the order in which they have been taken. -/
theorem accepted_eq (cycle : Nat) :
    accepted inputs start cycle = performed inputs start cycle ++ outstanding inputs start cycle := by
  have balance := Clocked.history_balance (outstanding inputs start)
    (fun cycle => (circuit inputs start cycle).accepts (inputs cycle))
    (fun cycle => (circuit inputs start cycle).performs (inputs cycle))
    (fun cycle => by
      rw [outstanding, outstanding, circuit_succ, (serves inputs start cycle).performs_step,
        ← List.map_append, ← (serves inputs start cycle).conserves, List.append_assoc,
        List.map_append, System.accepts, apply_ite (List.map Entry.access)]
      rfl) cycle
  have nothing : outstanding inputs start 0 = [] := by
    rw [outstanding, System.performs,
      show (circuit inputs start 0).controller.main.mCmd = 0b1111#4 from rfl, commandOf_codes.2.2.2.2.2.2]
    rfl
  rwa [nothing, List.nil_append] at balance

/-- The memory is what the performed accesses leave of the memory at the reset. -/
theorem memArray_eq (cycle : Nat) :
    (circuit inputs start cycle).component.memArray =
      performAll masked start.component.memArray (performed inputs start cycle) := by
  induction cycle with
  | zero => rfl
  | succ cycle inductionHypothesis =>
    rw [performed, Clocked.history_succ, performAll_append, ← performed, ← inductionHypothesis,
      circuit_succ, System.memArray_step]

/-- At most three entries wait: one in the active registers and two in the FIFO. -/
theorem Controller.waiting_short (controller : Controller) : controller.waiting.length ≤ 3 := by
  have queue := controller.fifo.contents_short
  have held : controller.main.held.length ≤ 1 := by
    unfold MainFsm.held
    grind
  rw [Controller.waiting, List.length_append]
  omega

/-- With the one on the pins, at most four of them are outstanding. -/
theorem outstanding_short (cycle : Nat) : (outstanding inputs start cycle).length ≤ 4 := by
  have waiting := (circuit inputs start cycle).controller.waiting_short
  have pins : ((circuit inputs start cycle).performs (inputs cycle)).length ≤ 1 := by
    rw [System.performs]
    split <;> simp
  rw [outstanding, List.length_append, List.length_map]
  omega

end Runs

end CpenLabs.SdramController
