import CpenLabs.Clocked

/-!
# The SDRAM controller

The registers of `DE1_SoC_QSYS_sdram`, one record for each group of always blocks that
belong together, and the circuit they form with the memory model that comes with it,
`DE1_SoC_QSYS_sdram_test_component`. A step is one edge of the common clock while
`reset_n` is high.

The controller takes requests into a FIFO of two entries and serves them with a main
FSM, which keeps the row of its last request open. A second FSM sends the commands that
a memory needs after power-up, and a counter asks for a refresh from time to time. The
memory opens rows, writes, and answers a read after its latency.

The data lines are digital here: the controller's output enable comes before the
memory's, and lines that nobody drives have any value. The clock enable is constant and
is left out, as are the chip select of the requests and the two FIFO flags that nothing
reads. The FSM registers only ever hold the values that are named here.
-/

namespace CpenLabs.SdramController

section InputFifo

/-- The registers of the input FIFO. -/
structure Efifo (α : Type) where
  entries : BitVec 2
  entry0 : α
  entry1 : α
  rdAddress : BitVec 1
  wrAddress : BitVec 1

variable {α : Type} (fifo : Efifo α)

/-- Both entries are taken. -/
def Efifo.full : Bool := fifo.entries == 2

/-- Neither entry is. -/
def Efifo.empty : Bool := fifo.entries == 0

/-- The entry that is next to be taken. -/
def Efifo.rdData : α := if fifo.rdAddress = 0 then fifo.entry0 else fifo.entry1

/-- The address after one of the two. -/
def nextAddress (address : BitVec 1) : BitVec 1 := if address = 1 then 0 else address + 1

/-- The always block of the two entries. -/
def Efifo.store (wr : Bool) (wrData : α) : Efifo α :=
  { fifo with
    entry0 := if wr && !fifo.full && fifo.wrAddress == 0 then wrData else fifo.entry0
    entry1 := if wr && !fifo.full && fifo.wrAddress == 1 then wrData else fifo.entry1 }

/-- The two always blocks. Taking and storing in the same cycle is not checked. -/
def Efifo.step (rd wr : Bool) (wrData : α) : Efifo α :=
  match rd, wr with
  | false, true =>
    if !fifo.full then
      { fifo.store wr wrData with
        entries := fifo.entries + 1
        wrAddress := nextAddress fifo.wrAddress }
    else fifo.store wr wrData
  | true, false =>
    if !fifo.empty then
      { fifo.store wr wrData with
        entries := fifo.entries - 1
        rdAddress := nextAddress fifo.rdAddress }
    else fifo.store wr wrData
  | true, true =>
    { fifo.store wr wrData with
      wrAddress := nextAddress fifo.wrAddress
      rdAddress := nextAddress fifo.rdAddress }
  | false, false => fifo.store wr wrData

/-- The two entries keep what they hold. -/
def Efifo.reset : Efifo α := { fifo with wrAddress := 0, rdAddress := 0, entries := 0 }

end InputFifo

section Refresh

/-- The refresh counter and what it asks for. -/
structure Refresh where
  refreshCounter : BitVec 14
  refreshRequest : Bool
  zaCannotrefresh : Bool

/-- An edge of the clock. A request stays until it is acknowledged; one that comes while
another is open is reported and lost. -/
def Refresh.step (ackRefreshRequest initDone : Bool) (refresh : Refresh) : Refresh where
  refreshCounter := if refresh.refreshCounter = 0 then 1116 else refresh.refreshCounter - 1
  refreshRequest :=
    (refresh.refreshCounter == 0 || refresh.refreshRequest) && !ackRefreshRequest && initDone
  zaCannotrefresh := refresh.refreshCounter == 0 && refresh.refreshRequest

/-- The counter begins with the delay after power-up. -/
def Refresh.reset : Refresh :=
  { refreshCounter := 14286, refreshRequest := false, zaCannotrefresh := false }

end Refresh

section Initialisation

/-- The states of the initialisation, in the order in which they are entered. -/
inductive InitState
  | wait
  | precharge
  | autoRefresh
  | countDown
  | loadMode
  | done
  deriving DecidableEq

/-- The registers of the initialisation: what it sends, where it goes on after a count,
and how many refreshes it has sent. -/
structure Initialisation where
  iState : InitState
  iNext : InitState
  iCmd : BitVec 4
  iAddr : BitVec 13
  iCount : BitVec 4
  iRefs : BitVec 3
  initDone : Bool

/-- The mode register: a CAS latency of three and bursts of one word. -/
def mode : BitVec 13 := 0#3 ++ 0#1 ++ 0#2 ++ 3#3 ++ 0#4

/-- The two always blocks of the initialisation. -/
def Initialisation.step (counted : Bool) (init : Initialisation) : Initialisation :=
  { (match init.iState with
    | .wait =>
      { init with
        iAddr := BitVec.allOnes 13
        iCmd := 0b1111
        iRefs := 0
        iState := if counted then .precharge else .wait }
    | .precharge =>
      { init with
        iAddr := BitVec.allOnes 13
        iState := .countDown
        iCmd := 0#1 ++ 2#3
        iCount := 2
        iNext := .autoRefresh }
    | .autoRefresh =>
      { init with
        iAddr := BitVec.allOnes 13
        iCmd := 0#1 ++ 1#3
        iRefs := init.iRefs + 1
        iState := .countDown
        iCount := 9
        iNext := if init.iRefs = 1 then .loadMode else .autoRefresh }
    | .countDown =>
      { init with
        iAddr := BitVec.allOnes 13
        iCmd := 0#1 ++ 7#3
        iCount := if 1 < init.iCount then init.iCount - 1 else init.iCount
        iState := if 1 < init.iCount then .countDown else init.iNext }
    | .loadMode =>
      { init with
        iState := .countDown
        iCmd := 0#1 ++ 0#3
        iAddr := mode
        iCount := 4
        iNext := .done }
    | .done => { init with iAddr := BitVec.allOnes 13 } : Initialisation) with
    initDone := init.initDone || init.iState == .done }

/-- The refreshes are not reset: the first state does it. -/
def Initialisation.reset (init : Initialisation) : Initialisation :=
  { init with
    initDone := false
    iState := .wait
    iNext := .wait
    iCmd := 0b1111
    iAddr := BitVec.allOnes 13
    iCount := 0 }

end Initialisation

section MainFsm

/-- A request as the input FIFO holds it, and as the active registers do. -/
structure Entry where
  rnw : Bool
  addr : BitVec 25
  dqm : BitVec 2
  data : BitVec 16

/-- The bank, which two bits of the address give that are not neighbours. -/
def Entry.bank (entry : Entry) : BitVec 2 :=
  BitVec.ofBool (entry.addr.getLsbD 24) ++ BitVec.ofBool (entry.addr.getLsbD 10)

/-- The row that has to be open. -/
def Entry.row (entry : Entry) : BitVec 13 := entry.addr.extractLsb' 11 13

/-- The column in the row. -/
def Entry.column (entry : Entry) : BitVec 10 := entry.addr.extractLsb' 0 10

/-- The states of the main FSM, in the order of their one-hot codes. -/
inductive MainState
  | idle
  | activate
  | countDown
  | read
  | write
  | close
  | precharge
  | autoRefresh
  | rowOpen
  deriving DecidableEq

/-- The registers of the main FSM: its state, where it goes on after a count, what it
sends, and the active request with its chip select. -/
structure MainFsm where
  mState : MainState
  mNext : MainState
  mCmd : BitVec 4
  mBank : BitVec 2
  mAddr : BitVec 13
  mData : BitVec 16
  mDqm : BitVec 2
  mCount : BitVec 4
  ackRefreshRequest : Bool
  fPop : Bool
  oe : Bool
  activeCsN : Bool
  active : Entry

/-- What the main FSM reads of the other registers: the head of the FIFO is `f`. -/
structure MainInput where
  f : Entry
  fEmpty : Bool
  refreshRequest : Bool
  initDone : Bool
  iCmd : BitVec 4
  iAddr : BitVec 13

variable (input : MainInput) (main : MainFsm)

/-- The chip select of every entry. -/
def fCsN : Bool := false

/-- The head of the FIFO goes on with the open row in the same direction. -/
def MainFsm.matching : Bool :=
  main.activeCsN == fCsN && main.active.rnw == input.f.rnw && main.active.bank == input.f.bank &&
    main.active.row == input.f.row

/-- There is a head of the FIFO, and it goes on so. -/
def MainFsm.pending : Bool := main.matching input && !input.fEmpty

/-- It is taken in this cycle. -/
def MainFsm.fSelect : Bool := main.fPop && main.pending input

/-- The chip select of the command. -/
def MainFsm.csnDecode : Bool := if main.fSelect input then fCsN else main.activeCsN

/-- The request whose column is put on the address lines. -/
def MainFsm.selected : Entry := if main.fSelect input then input.f else main.active

/-- The column on the address lines. -/
def MainFsm.casAddr : BitVec 13 := 0#3 ++ (main.selected input).column

/-- A command for the selected chip. -/
def MainFsm.command (code : BitVec 3) : BitVec 4 := BitVec.ofBool (main.csnDecode input) ++ code

/-- The head of the FIFO becomes the active request and is asked for in the next cycle. -/
def MainFsm.take : MainFsm := { main with fPop := true, activeCsN := fCsN, active := input.f }

/-- How a read or a write, which leaves the registers `next`, goes on: with the head of
the FIFO, with a refresh, or by waiting with the row open. -/
def MainFsm.continued (next : MainFsm) : MainFsm :=
  if main.pending input then
    if input.refreshRequest then { next with mState := .countDown, mNext := .idle, mCount := 2 }
    else next.take input
  else { next with mState := .rowOpen }

/-- The branches of the always block of the main FSM, one for each state. -/
def MainFsm.idle : MainFsm :=
  if input.initDone then
    if input.refreshRequest then
      { main with
        fPop := false
        oe := false
        mCmd := 0#1 ++ 7#3
        ackRefreshRequest := false
        mState := .precharge
        mNext := .autoRefresh
        mCount := 2
        activeCsN := true }
    else if !input.fEmpty then
      { main with
        oe := false
        mCmd := 0b1111
        ackRefreshRequest := false
        mState := .activate }.take input
    else { main with fPop := false, oe := false, mCmd := 0b1111, ackRefreshRequest := false }
  else
    { main with
      fPop := false
      oe := false
      mAddr := input.iAddr
      mState := .idle
      mNext := .idle
      mCmd := input.iCmd }

/-- The row of the active request is opened. -/
def MainFsm.activate : MainFsm :=
  { main with
    fPop := false
    oe := false
    mState := .countDown
    mCmd := main.command input 3#3
    mBank := main.active.bank
    mAddr := main.active.row
    mData := main.active.data
    mDqm := main.active.dqm
    mCount := 3
    mNext := if main.active.rnw then .read else .write }

/-- Nothing is sent until the count is over. -/
def MainFsm.countDown : MainFsm :=
  { main with
    fPop := false
    oe := false
    mCmd := if main.mNext = .autoRefresh then 0#1 ++ 7#3 else main.command input 7#3
    mCount := if 1 < main.mCount then main.mCount - 1 else main.mCount
    mState := if 1 < main.mCount then .countDown else main.mNext }

/-- A read of the selected request is sent, unless that has been done. -/
def MainFsm.read : MainFsm :=
  main.continued input
    { main with
      fPop := false
      oe := false
      mCmd := if !main.pending input && main.fPop then main.command input 7#3 else main.command input 5#3
      mBank := (main.selected input).bank
      mDqm := (main.selected input).dqm
      mAddr := main.casAddr input }

/-- A write is sent in the same way, with its data on the lines. -/
def MainFsm.write : MainFsm :=
  main.continued input
    { main with
      fPop := false
      oe := !(!main.pending input && main.fPop)
      mCmd := if !main.pending input && main.fPop then main.command input 7#3 else main.command input 4#3
      mData := (main.selected input).data
      mDqm := (main.selected input).dqm
      mBank := (main.selected input).bank
      mAddr := main.casAddr input }

/-- The row is left for another one, once the last write is over. -/
def MainFsm.close : MainFsm :=
  { main with
    fPop := false
    oe := false
    mCmd := main.command input 7#3
    mCount := if 1 < main.mCount then main.mCount - 1 else 2
    mState := if 1 < main.mCount then .close else .precharge }

/-- The banks are closed, all of them for a refresh. -/
def MainFsm.precharge : MainFsm :=
  { main with
    fPop := false
    oe := false
    mState := .countDown
    mAddr := BitVec.allOnes 13
    mCmd := if input.refreshRequest then 0#1 ++ 2#3 else main.command input 2#3 }

/-- The refresh is sent and acknowledged. -/
def MainFsm.autoRefresh : MainFsm :=
  { main with
    fPop := false
    oe := false
    ackRefreshRequest := true
    mState := .countDown
    mCmd := 0#1 ++ 1#3
    mCount := 9
    mNext := .idle }

/-- The row stays open until there is a refresh to send or a request to serve. -/
def MainFsm.rowOpen : MainFsm :=
  if input.refreshRequest then
    { main with
      fPop := false
      oe := false
      mCmd := main.command input 7#3
      mState := .countDown
      mNext := .idle
      mCount := 1 }
  else if !input.fEmpty then
    if main.matching input then
      { main with
        oe := false
        mCmd := main.command input 7#3
        mState := if input.f.rnw then .read else .write }.take input
    else
      { main with
        fPop := false
        oe := false
        mCmd := main.command input 7#3
        mState := .close
        mNext := .idle
        mCount := 1 }
  else { main with fPop := false, oe := false, mCmd := main.command input 7#3 }

/-- The always block of the main FSM. -/
def MainFsm.step : MainFsm :=
  match main.mState with
  | .idle => main.idle input
  | .activate => main.activate input
  | .countDown => main.countDown input
  | .read => main.read input
  | .write => main.write input
  | .close => main.close input
  | .precharge => main.precharge input
  | .autoRefresh => main.autoRefresh
  | .rowOpen => main.rowOpen input

/-- The active request keeps its value. -/
def MainFsm.reset : MainFsm :=
  { main with
    mState := .idle
    mNext := .idle
    mCmd := 0b1111
    mBank := 0
    mAddr := 0
    mData := 0
    mDqm := 0
    mCount := 0
    ackRefreshRequest := false
    fPop := false
    oe := false }

end MainFsm

section Controller

/-- The read data on its way back. -/
structure ReadData where
  rdValid : BitVec 3
  zaData : BitVec 16
  zaValid : Bool

/-- The answer to a read is valid four cycles after its command. -/
def ReadData.step (mCmd : BitVec 4) (zsDq : BitVec 16) (read : ReadData) : ReadData where
  rdValid := read.rdValid <<< 1 ||| (0#2 ++ BitVec.ofBool (mCmd.extractLsb' 0 3 == 5))
  zaData := zsDq
  zaValid := read.rdValid.getLsbD 2

/-- No answer is on its way. -/
def ReadData.reset : ReadData := { rdValid := 0, zaData := 0, zaValid := false }

/-- The registers of `DE1_SoC_QSYS_sdram`. -/
structure Controller where
  fifo : Efifo Entry
  refresh : Refresh
  init : Initialisation
  main : MainFsm
  read : ReadData

/-- The request inputs. -/
structure Request where
  azAddr : BitVec 25
  azBeN : BitVec 2
  azData : BitVec 16
  azRdN : Bool
  azWrN : Bool

/-- What the FIFO stores of a request. -/
def Request.entry (request : Request) : Entry where
  rnw := request.azWrN
  addr := request.azAddr
  dqm := if request.azWrN then 0 else request.azBeN
  data := request.azData

variable (controller : Controller)

/-- A request that finds the FIFO full has to wait. -/
def Controller.zaWaitrequest : Bool := controller.fifo.full

/-- What the main FSM reads in this cycle. -/
def Controller.mainInput : MainInput where
  f := controller.fifo.rdData
  fEmpty := controller.fifo.empty
  refreshRequest := controller.refresh.refreshRequest
  initDone := controller.init.initDone
  iCmd := controller.init.iCmd
  iAddr := controller.init.iAddr

/-- The head of the FIFO is taken in this cycle. -/
def Controller.fSelect : Bool := controller.main.fSelect controller.mainInput

/-- The write enable of the FIFO. -/
def Controller.wr (request : Request) : Bool :=
  (!request.azWrN || !request.azRdN) && !controller.zaWaitrequest

/-- An edge of the clock, with the data lines at `zsDq`. -/
def Controller.step (request : Request) (zsDq : BitVec 16) : Controller where
  fifo := controller.fifo.step controller.fSelect (controller.wr request) request.entry
  refresh := controller.refresh.step controller.main.ackRefreshRequest controller.init.initDone
  init := controller.init.step (controller.refresh.refreshCounter == 0)
  main := controller.main.step controller.mainInput
  read := controller.read.step controller.main.mCmd zsDq

/-- What `reset_n` does to the registers. -/
def Controller.reset : Controller where
  fifo := controller.fifo.reset
  refresh := Refresh.reset
  init := controller.init.reset
  main := controller.main.reset
  read := ReadData.reset

end Controller

section Memory

/-- What CODE tells apart. -/
inductive Command
  | inhibit
  | loadMode
  | autoRefresh
  | precharge
  | activate
  | write
  | read
  | burstStop
  | noOperation
  deriving DecidableEq

/-- The command lines: chip select and `{ras_n, cas_n, we_n}`. -/
def commandOf (cmd : BitVec 4) : Command :=
  if cmd.getLsbD 3 then .inhibit
  else
    match cmd.extractLsb' 0 3 with
    | 0 => .loadMode
    | 1 => .autoRefresh
    | 2 => .precharge
    | 3 => .activate
    | 4 => .write
    | 5 => .read
    | 6 => .burstStop
    | _ => .noOperation

/-- The pins between the two. -/
structure Pins where
  cmd : BitVec 4
  ba : BitVec 2
  a : BitVec 13
  dqm : BitVec 2

/-- The pins are registers of the main FSM. -/
def MainFsm.pins (main : MainFsm) : Pins := ⟨main.mCmd, main.mBank, main.mAddr, main.mDqm⟩

/-- The registers of `DE1_SoC_QSYS_sdram_test_component` and its memory. -/
structure TestComponent where
  latency : BitVec 3
  addrCrb : BitVec 15
  rdValidPipe : BitVec 3
  rdAddrPipe0 : BitVec 25
  rdAddrPipe1 : BitVec 25
  rdAddrPipe2 : BitVec 25
  rdMaskPipe0 : BitVec 2
  rdMaskPipe1 : BitVec 2
  rdMaskPipe2 : BitVec 2
  memArray : BitVec 25 → BitVec 16

variable (component : TestComponent) (pins : Pins)

/-- The word that the command addresses, in the row opened last. -/
def TestComponent.testAddr : BitVec 25 := component.addrCrb ++ pins.a.extractLsb' 0 10

/-- The pipeline stage that drives the data lines. -/
def TestComponent.index : BitVec 3 := component.latency - 1

/-- The word that is read, as many cycles after its command as the latency says. -/
def TestComponent.readAddr : BitVec 25 :=
  if component.index = 0 then component.rdAddrPipe0
  else if component.index = 1 then component.rdAddrPipe1
  else component.rdAddrPipe2

/-- The mask of its bytes. -/
def TestComponent.readMask : BitVec 2 :=
  if component.index = 0 then component.rdMaskPipe0
  else if component.index = 1 then component.rdMaskPipe1
  else component.rdMaskPipe2

/-- There is such a read. -/
def TestComponent.readValid : Bool :=
  if component.index = 0 then component.rdValidPipe.getLsbD 0
  else if component.index = 1 then component.rdValidPipe.getLsbD 1
  else component.rdValidPipe.getLsbD 2

/-- The word at the one port of the memory: what is to be written over, or what is read.
-/
def TestComponent.readData : BitVec 16 :=
  component.memArray (if commandOf pins.cmd = .write then component.testAddr pins else component.readAddr)

/-- One word out of two, byte by byte: the masked bytes are those of `other`. -/
def masked (mask : BitVec 2) (word other : BitVec 16) : BitVec 16 :=
  (if mask.getLsbD 1 then other.extractLsb' 8 8 else word.extractLsb' 8 8) ++
    (if mask.getLsbD 0 then other.extractLsb' 0 8 else word.extractLsb' 0 8)

/-- What is written: the masked bytes stay. -/
def TestComponent.rmwTemp (zsDq : BitVec 16) : BitVec 16 :=
  masked pins.dqm zsDq (component.readData pins)

/-- An edge of the clock, with the data lines at `zsDq`. -/
def TestComponent.step (zsDq : BitVec 16) : TestComponent where
  latency := if commandOf pins.cmd = .loadMode then pins.a.extractLsb' 4 3 else component.latency
  addrCrb :=
    if commandOf pins.cmd = .activate then
      BitVec.ofBool (pins.ba.getLsbD 1) ++ pins.a ++ BitVec.ofBool (pins.ba.getLsbD 0)
    else component.addrCrb
  rdValidPipe :=
    BitVec.ofBool (component.rdValidPipe.getLsbD 1) ++ BitVec.ofBool (component.rdValidPipe.getLsbD 0) ++
      BitVec.ofBool (commandOf pins.cmd == .read)
  rdAddrPipe2 := component.rdAddrPipe1
  rdAddrPipe1 := component.rdAddrPipe0
  rdAddrPipe0 := component.testAddr pins
  rdMaskPipe2 := component.rdMaskPipe1
  rdMaskPipe1 := component.rdMaskPipe0
  rdMaskPipe0 := pins.dqm
  memArray :=
    if commandOf pins.cmd = .write then
      Function.update component.memArray (component.testAddr pins) (component.rmwTemp pins zsDq)
    else component.memArray

end Memory

section System

/-- The controller and the memory on one clock. -/
structure System where
  controller : Controller
  component : TestComponent

/-- A request, and the value of data lines that nobody drives. -/
structure Input where
  request : Request
  undriven : BitVec 16

variable (input : Input) (system : System)

/-- The data lines. -/
def System.zsDq : BitVec 16 :=
  if system.controller.main.oe then system.controller.main.mData
  else if system.component.readValid then
    masked system.component.readMask (system.component.readData system.controller.main.pins) input.undriven
  else input.undriven

/-- An edge of the common clock. -/
def System.step : System where
  controller := system.controller.step input.request (system.zsDq input)
  component := system.component.step system.controller.main.pins (system.zsDq input)

/-- The memory has no reset. -/
def System.reset : System := { system with controller := system.controller.reset }

end System

variable (inputs : Nat → Input) (start : System)

/-- The registers in each cycle after a reset. -/
abbrev circuit : Nat → System := Clocked.run System.step inputs start.reset

/-- One edge more. -/
theorem circuit_succ (cycle : Nat) :
    circuit inputs start (cycle + 1) = (circuit inputs start cycle).step (inputs cycle) := rfl

end CpenLabs.SdramController
