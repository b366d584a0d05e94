import CpenLabs.SdramProtocol

/-!
# The time between two commands

Between two commands to the SDRAM there is the time that the parameters of the component
ask for. The commands of the initialisation come at fixed cycles. After it the time is
counted along the main FSM: `Kind.distance` is a lower bound on the edges up to the next
command of a kind, and an edge brings the main FSM at most one edge nearer. What is left
just after a command is the time that the next one keeps from it, whichever requests and
refreshes come between them.
-/

namespace CpenLabs.SdramController

open BankedMemory

section Times

/-- The clock of the component, in hertz. -/
def clockRate : Nat := 142857142

/-- The cycles that a time in nanoseconds takes. -/
def cycles (nanoseconds : Nat) : Nat := (nanoseconds * clockRate + 999999999) / 1000000000

/-- The times between two commands, from the parameters of the component. -/
def tRcd : Nat := cycles 15

/-- From a precharge on. -/
def tRp : Nat := cycles 15

/-- From a refresh on. -/
def tRfc : Nat := cycles 70

/-- From a write to a precharge. -/
def tWr : Nat := cycles 14

/-- From the load of the mode register on. -/
def tMrd : Nat := 3

/-- The memory does nothing. -/
def Command.quiet (command : Command) : Bool := command == .inhibit || command == .noOperation

/-- The cycles from one command to another that the memory needs. -/
def required : Command → Command → Nat
  | .activate, .read | .activate, .write => tRcd
  | .precharge, .activate | .precharge, .autoRefresh | .precharge, .loadMode => tRp
  | .write, .precharge => tWr
  | .autoRefresh, later => if later.quiet then 0 else tRfc
  | .loadMode, later => if later.quiet then 0 else tMrd
  | _, _ => 0

/-- A command that does nothing needs no distance. -/
theorem required_quiet {before after : Command} (quiet : before.quiet = true ∨ after.quiet = true) :
    required before after = 0 := by
  revert quiet
  cases before <;> cases after <;> decide

end Times

section Distances

/-- The commands that the main FSM sends. -/
inductive Kind
  | activate
  | access
  | precharge
  | refresh

/-- A command of the kind. -/
def Kind.Shows (kind : Kind) (command : Command) : Prop :=
  match kind with
  | activate => command = .activate
  | access => command = .read ∨ command = .write
  | precharge => command = .precharge
  | refresh => command = .autoRefresh

/-- The edges up to a command of each kind from the states in which nothing is counted. -/
def Kind.fromIdle : Kind → Nat
  | activate => 2
  | access => 6
  | precharge => 2
  | refresh => 5

/-- While requests are put on the pins. -/
def Kind.fromServing : Kind → Nat
  | activate => 5
  | access => 1
  | precharge => 4
  | refresh => 8

/-- With a row open and no request. -/
def Kind.fromRowOpen : Kind → Nat
  | activate => 4
  | access => 2
  | precharge => 3
  | refresh => 7

/-- Before a refresh, which is followed by a count. -/
def Kind.fromRefresh : Kind → Nat
  | refresh => 1
  | kind => 10 + kind.fromIdle

/-- Before a row is opened, which is followed by a count as well. -/
def Kind.fromActivate : Kind → Nat
  | activate => 1
  | kind => 4 + kind.fromServing

/-- Behind a count. -/
def Kind.fromNext (next : MainState) (kind : Kind) : Nat :=
  match next with
  | .read | .write => kind.fromServing
  | .autoRefresh => kind.fromRefresh
  | _ => kind.fromIdle

/-- The edges that a count takes. -/
def counts (count : BitVec 4) : Nat := max count.toNat 1

/-- The edges up to the next command of a kind, at least. -/
def Kind.distance (state next : MainState) (count : BitVec 4) (kind : Kind) : Nat :=
  match state with
  | .idle => kind.fromIdle
  | .activate => kind.fromActivate
  | .countDown => counts count + kind.fromNext next
  | .read | .write => kind.fromServing
  | .rowOpen => kind.fromRowOpen
  | .close =>
    match kind with
    | .precharge => counts count + 1
    | _ => counts count + 3 + kind.fromIdle
  | .precharge =>
    match kind with
    | .precharge => 1
    | _ => 1 + counts count + kind.fromNext next
  | .autoRefresh => kind.fromRefresh

/-- The same for the registers. -/
def MainFsm.distance (kind : Kind) (main : MainFsm) : Nat :=
  kind.distance main.mState main.mNext main.mCount

variable {input : MainInput} {main : MainFsm} {queue : List Entry} {row : BitVec 15}

/-- A count takes one edge less with each edge. -/
theorem counts_step (count : BitVec 4) :
    counts count = if 1 < count then counts (count - 1) + 1 else 1 := by
  revert count
  decide

/-- After a read or a write there are three ways to go on. -/
theorem MainFsm.continued_distance (input : MainInput) (main : MainFsm) (kind : Kind) (next : MainFsm)
    (serving : next.mState = .read ∨ next.mState = .write) :
    (main.continued input next).distance kind ∈
      [kind.distance .countDown .idle 2, kind.fromServing, kind.fromRowOpen] := by
  rw [MainFsm.continued]
  split_ifs
  · exact List.mem_cons_self
  · refine List.mem_cons_of_mem _ ?_
    change kind.distance next.mState next.mNext next.mCount ∈ _
    obtain serving | serving := serving <;> rw [serving] <;> exact List.mem_cons_self
  · exact List.mem_cons_of_mem _ (List.mem_cons_of_mem _ List.mem_cons_self)

/-- None of the three is nearer than the next request by more than an edge. -/
theorem Kind.serving_nearer (kind : Kind) :
    ∀ distance ∈ [kind.distance .countDown .idle 2, kind.fromServing, kind.fromRowOpen],
      kind.fromServing ≤ distance + 1 := by
  cases kind <;> decide

/-- The end of a count. -/
theorem MainFsm.countDown_distance (kind : Kind) (input : MainInput) (main : MainFsm)
    (next : main.mNext = .idle ∨ main.mNext = .autoRefresh ∨ main.mNext = .read ∨ main.mNext = .write) :
    counts main.mCount + kind.fromNext main.mNext ≤ (main.countDown input).distance kind + 1 := by
  rw [counts_step]
  change _ ≤ kind.distance (if 1 < main.mCount then .countDown else main.mNext) main.mNext
    (if 1 < main.mCount then main.mCount - 1 else main.mCount) + 1
  split_ifs
  · change _ ≤ counts (main.mCount - 1) + kind.fromNext main.mNext + 1
    omega
  · obtain next | next | next | next := next <;> rw [next, Nat.add_comm] <;> exact Nat.le_refl _

/-- An edge of the clock brings the main FSM at most one edge nearer to a command. -/
theorem Phase.nearer (phase : Phase main queue row input.refreshRequest) (done : input.initDone = true)
    (kind : Kind) : main.distance kind ≤ (main.step input).distance kind + 1 := by
  cases phase with
  | idle state _ _ =>
    rw [MainFsm.distance, state, MainFsm.step_idle state, MainFsm.idle, if_pos done]
    split_ifs
    · change kind.fromIdle ≤ kind.distance .precharge .autoRefresh 2 + 1
      cases kind <;> decide
    · change kind.fromIdle ≤ kind.fromActivate + 1
      cases kind <;> decide
    · change kind.fromIdle ≤ kind.distance main.mState main.mNext main.mCount + 1
      rw [state]
      exact Nat.le_succ _
  | activate state _ _ _ =>
    rw [MainFsm.distance, state, MainFsm.step_activate state, MainFsm.activate]
    change kind.fromActivate ≤ kind.distance .countDown (if main.active.rnw then .read else .write) 3 + 1
    split_ifs <;> cases kind <;> decide
  | opening state next _ _ _ =>
    rw [MainFsm.distance, state, MainFsm.step_countDown state]
    refine main.countDown_distance kind input ?_
    rw [next, Entry.serving]
    split_ifs <;> simp
  | closing state _ next =>
    rw [MainFsm.distance, state, MainFsm.step_countDown state]
    exact main.countDown_distance kind input (next.imp_right .inl)
  | serving state _ _ =>
    rw [Entry.serving] at state
    rw [MainFsm.distance]
    split_ifs at state
    · rw [state, MainFsm.step_read state]
      exact kind.serving_nearer _ (main.continued_distance input kind _ (.inl state))
    · rw [state, MainFsm.step_write state]
      exact kind.serving_nearer _ (main.continued_distance input kind _ (.inr state))
  | rowOpen state _ _ _ =>
    rw [MainFsm.distance, state, MainFsm.step_rowOpen state, MainFsm.rowOpen]
    split_ifs
    · change kind.fromRowOpen ≤ kind.distance .countDown .idle 1 + 1
      cases kind <;> decide
    · change kind.fromRowOpen ≤ kind.fromServing + 1
      cases kind <;> decide
    · change kind.fromRowOpen ≤ kind.fromServing + 1
      cases kind <;> decide
    · change kind.fromRowOpen ≤ kind.distance .close .idle 1 + 1
      cases kind <;> decide
    · change kind.fromRowOpen ≤ kind.distance main.mState main.mNext main.mCount + 1
      rw [state]
      exact Nat.le_succ _
  | close state next _ _ =>
    rw [MainFsm.distance, state, MainFsm.step_close state, MainFsm.close, next]
    by_cases counting : 1 < main.mCount
    · rw [if_pos counting, if_pos counting]
      change kind.distance .close .idle main.mCount ≤ kind.distance .close .idle (main.mCount - 1) + 1
      have step := counts_step main.mCount
      rw [if_pos counting] at step
      cases kind <;> simp only [Kind.distance] <;> omega
    · rw [if_neg counting, if_neg counting]
      change kind.distance .close .idle main.mCount ≤ kind.distance .precharge .idle 2 + 1
      have step := counts_step main.mCount
      rw [if_neg counting] at step
      have two : counts 2 = 2 := by decide
      cases kind <;> simp only [Kind.distance, Kind.fromNext] <;> omega
  | precharge state _ _ =>
    rw [MainFsm.distance, state, MainFsm.step_precharge state]
    change kind.distance .precharge main.mNext main.mCount ≤
      counts main.mCount + kind.fromNext main.mNext + 1
    cases kind <;> simp only [Kind.distance] <;> omega
  | autoRefresh state _ =>
    rw [MainFsm.distance, state, MainFsm.step_autoRefresh state]
    change kind.fromRefresh ≤ kind.distance .countDown .idle 9 + 1
    cases kind <;> decide

/-- The states from which a command of each kind is sent. -/
def Kind.Sends (kind : Kind) (state : MainState) : Prop :=
  match kind with
  | activate => state = .activate
  | access => state = .read ∨ state = .write
  | precharge => state = .precharge
  | refresh => state = .autoRefresh

/-- A command comes from its state. -/
theorem Phase.sends (phase : Phase main queue row input.refreshRequest) (done : input.initDone = true)
    {kind : Kind} (shows : kind.Shows (commandOf (main.step input).mCmd)) : kind.Sends main.mState := by
  rw [phase.commands, MainFsm.commanded] at shows
  cases state : main.mState with
  | idle =>
    rw [state] at shows
    dsimp only at shows
    rw [if_pos done] at shows
    split_ifs at shows <;> cases kind <;> simp [Kind.Shows] at shows
  | countDown | read | write =>
    rw [state] at shows
    dsimp only at shows
    split_ifs at shows <;> cases kind <;> simp [Kind.Shows, Kind.Sends] at shows ⊢
  | activate | close | precharge | autoRefresh | rowOpen =>
    rw [state] at shows
    cases kind <;> simp [Kind.Shows, Kind.Sends] at shows ⊢

/-- Then the command comes with the next edge. -/
theorem Kind.Sends.distance {kind : Kind} (sends : kind.Sends main.mState) : main.distance kind = 1 := by
  rw [MainFsm.distance]
  cases kind with
  | activate | precharge | refresh =>
    rw [show main.mState = _ from sends]
    rfl
  | access =>
    obtain state | state := sends <;> rw [state] <;> rfl

/-- The edges from a command of one kind to a command of another, at least. -/
def Kind.spacing : Kind → Kind → Nat
  | activate, activate => 8
  | activate, access => 4
  | activate, precharge => 7
  | activate, refresh => 11
  | access, activate => 4
  | access, access => 1
  | access, precharge => 3
  | access, refresh => 7
  | precharge, activate => 4
  | precharge, access => 8
  | precharge, precharge => 4
  | precharge, refresh => 3
  | refresh, activate => 11
  | refresh, access => 15
  | refresh, precharge => 11
  | refresh, refresh => 14

/-- Each of the three leaves an access its distance. -/
theorem Kind.access_spacing (kind : Kind) :
    ∀ distance ∈ [kind.distance .countDown .idle 2, kind.fromServing, kind.fromRowOpen],
      Kind.access.spacing kind ≤ distance := by
  cases kind <;> decide

/-- What a precharge is for. -/
theorem Phase.precharge_next {requested : Bool} (phase : Phase main queue row requested)
    (state : main.mState = .precharge) :
    main.mNext = .idle ∧ main.activeCsN = false ∨ main.mNext = .autoRefresh ∧ requested = true := by
  cases phase with
  | precharge _ _ next => exact next
  | serving other =>
    rw [Entry.serving, state] at other
    split_ifs at other
  | opening other | closing other | idle other | activate other | rowOpen other | close other
  | autoRefresh other =>
    rw [state] at other
    cases other

/-- A command leaves the next ones this distance. -/
theorem Phase.spacing (phase : Phase main queue row input.refreshRequest) {before : Kind}
    (sends : before.Sends main.mState) (counted : main.mState = .precharge → main.mCount = 2)
    (kind : Kind) :
    before.spacing kind ≤ (main.step input).distance kind := by
  cases before with
  | activate =>
    have state : main.mState = .activate := sends
    rw [MainFsm.step_activate state]
    change _ ≤ kind.distance .countDown (if main.active.rnw then .read else .write) 3
    split_ifs <;> cases kind <;> decide
  | access =>
    obtain state | state := sends
    · rw [MainFsm.step_read state]
      exact kind.access_spacing _ (main.continued_distance input kind _ (.inl state))
    · rw [MainFsm.step_write state]
      exact kind.access_spacing _ (main.continued_distance input kind _ (.inr state))
  | precharge =>
    have state : main.mState = .precharge := sends
    rw [MainFsm.step_precharge state]
    change _ ≤ kind.distance .countDown main.mNext main.mCount
    rw [counted state]
    obtain ⟨next, -⟩ | ⟨next, -⟩ := phase.precharge_next state <;> rw [next] <;> cases kind <;> decide
  | refresh =>
    have state : main.mState = .autoRefresh := sends
    rw [MainFsm.step_autoRefresh state]
    change _ ≤ kind.distance .countDown .idle 9
    cases kind <;> decide

/-- The count that a precharge leaves has just been set. -/
theorem Phase.counted (phase : Phase main queue row input.refreshRequest) :
    (main.step input).mState = .precharge → (main.step input).mCount = 2 := by
  cases phase with
  | idle state _ _ =>
    rw [MainFsm.step_idle state, MainFsm.idle]
    split_ifs <;> simp [MainFsm.take, state]
  | activate state _ _ _ =>
    rw [MainFsm.step_activate state, MainFsm.activate]
    simp
  | opening state next _ _ _ =>
    rw [MainFsm.step_countDown state, MainFsm.countDown, next, Entry.serving]
    split_ifs <;> simp
  | closing state _ next =>
    rw [MainFsm.step_countDown state, MainFsm.countDown]
    obtain next | next := next <;> rw [next] <;> split_ifs <;> simp
  | serving state _ _ =>
    rw [Entry.serving] at state
    split_ifs at state
    · rw [MainFsm.step_read state, MainFsm.read, MainFsm.continued]
      split_ifs <;> simp [MainFsm.take, state]
    · rw [MainFsm.step_write state, MainFsm.write, MainFsm.continued]
      split_ifs <;> simp [MainFsm.take, state]
  | rowOpen state _ _ _ =>
    rw [MainFsm.step_rowOpen state, MainFsm.rowOpen]
    split_ifs <;> simp [MainFsm.take, state]
  | close state _ _ _ =>
    rw [MainFsm.step_close state, MainFsm.close]
    split_ifs <;> simp
  | precharge state _ _ =>
    rw [MainFsm.step_precharge state, MainFsm.precharge]
    simp
  | autoRefresh state _ =>
    rw [MainFsm.step_autoRefresh state, MainFsm.autoRefresh]
    simp

/-- The main FSM leaves the memory the time that it needs. -/
theorem required_spacing {before after : Kind} {sent shown : Command} (sends : before.Shows sent)
    (shows : after.Shows shown) : required sent shown ≤ before.spacing after := by
  cases before <;> cases after <;> cases sent <;> simp [Kind.Shows] at sends <;>
    cases shown <;> simp [Kind.Shows] at shows <;> decide

/-- After the initialisation there are no other commands. -/
theorem Phase.classified (phase : Phase main queue row input.refreshRequest)
    (done : input.initDone = true) :
    (commandOf (main.step input).mCmd).quiet = true ∨
      ∃ kind : Kind, kind.Shows (commandOf (main.step input).mCmd) := by
  rw [phase.commands, MainFsm.commanded]
  cases main.mState with
  | idle =>
    dsimp only
    rw [if_pos done]
    split_ifs <;> exact .inl rfl
  | countDown =>
    dsimp only
    split_ifs <;> exact .inl rfl
  | read =>
    dsimp only
    split_ifs
    · exact .inl rfl
    · exact .inr ⟨.access, .inl rfl⟩
  | write =>
    dsimp only
    split_ifs
    · exact .inl rfl
    · exact .inr ⟨.access, .inr rfl⟩
  | activate => exact .inr ⟨.activate, rfl⟩
  | precharge => exact .inr ⟨.precharge, rfl⟩
  | autoRefresh => exact .inr ⟨.refresh, rfl⟩
  | close | rowOpen => exact .inl rfl

/-- The same of the whole system. -/
theorem System.Serves.classified {system : System} (serves : system.Serves)
    (done : system.controller.init.initDone = true) (input : Input) :
    (commandOf (system.step input).controller.main.mCmd).quiet = true ∨
      ∃ kind : Kind, kind.Shows (commandOf (system.step input).controller.main.mCmd) :=
  @Phase.classified system.controller.mainInput _ _ _ serves.phase done

/-- With an edge no command comes nearer by more than one. -/
theorem System.Serves.nearer {system : System} (serves : system.Serves)
    (done : system.controller.init.initDone = true) (input : Input) (kind : Kind) :
    system.controller.main.distance kind ≤ (system.step input).controller.main.distance kind + 1 :=
  @Phase.nearer system.controller.mainInput _ _ _ serves.phase done kind

/-- The state before a command is the one that sends it. -/
theorem System.Serves.sends {system : System} (serves : system.Serves)
    (done : system.controller.init.initDone = true) {input : Input} {kind : Kind}
    (shows : kind.Shows (commandOf (system.step input).controller.main.mCmd)) :
    kind.Sends system.controller.main.mState :=
  @Phase.sends system.controller.mainInput _ _ _ serves.phase done kind shows

/-- After a command the next ones are as far away as they have to be. -/
theorem System.Serves.spacing {system : System} (serves : system.Serves) (input : Input) {before : Kind}
    (sends : before.Sends system.controller.main.mState)
    (counted : system.controller.main.mState = .precharge → system.controller.main.mCount = 2)
    (kind : Kind) : before.spacing kind ≤ (system.step input).controller.main.distance kind :=
  @Phase.spacing system.controller.mainInput _ _ _ serves.phase _ sends counted kind

/-- A precharge is entered with its count. -/
theorem System.Serves.counted {system : System} (serves : system.Serves) (input : Input) :
    (system.step input).controller.main.mState = .precharge →
      (system.step input).controller.main.mCount = 2 :=
  @Phase.counted system.controller.mainInput _ _ _ serves.phase

end Distances

section Runs

variable (inputs : Nat → Input) (start : System)

/-- After the initialisation the commands keep the distances of the main FSM. -/
theorem kinds_apart {first last : Nat} (late : 14316 ≤ first) (ordered : first + 1 < last)
    {before after : Kind} (sent : before.Shows (command inputs start (first + 1)))
    (shown : after.Shows (command inputs start last)) : before.spacing after ≤ last - (first + 1) := by
  have serves (cycle : Nat) := (works inputs start cycle).serves
  have done {cycle : Nat} (late : 14316 ≤ cycle) := (done_iff inputs start cycle).mpr late
  have counted : (circuit inputs start first).controller.main.mState = .precharge →
      (circuit inputs start first).controller.main.mCount = 2 := by
    obtain ⟨before, rfl⟩ := Nat.exists_eq_add_one.mpr (show 0 < first by omega)
    exact (serves before).counted (inputs before)
  have spaced :=
    (serves first).spacing (inputs first) ((serves first).sends (done late) sent) counted after
  have near := @BankedMemory.distance_le Kind System (circuit inputs start)
    (fun cycle kind => kind.Shows (command inputs start cycle))
    (fun kind system => system.controller.main.distance kind) 14316
    (fun cycle kind late => (serves cycle).nearer (done late) (inputs cycle) kind)
    (fun cycle kind late shows => ((serves cycle).sends (done late) shows).distance.le)
    _ _ _ (Nat.le_succ_of_le late) ordered shown
  exact spaced.trans near

/-- The commands of the initialisation keep their distances from each other and from all
later ones. -/
theorem start_spaced : ∀ later ≤ 28, ∀ next ≤ 28, later < next →
    required (startCommand later) (startCommand next) ≤ next - later := by
  decide

/-- The same with any command that comes after the initialisation. -/
theorem start_ends : ∀ later ≤ 28, ∀ after ∈ [Command.inhibit, .loadMode, .autoRefresh, .precharge,
    .activate, .write, .read, .burstStop, .noOperation],
    required (startCommand later) after ≤ 29 - later := by
  decide

/-- Two commands leave the memory the time that it needs. -/
theorem commands_apart {first last : Nat} (ordered : first < last) :
    required (command inputs start first) (command inputs start last) ≤ last - first := by
  obtain early | ⟨later, early, rfl⟩ | ⟨later, rfl⟩ := cycle_cases first
  · rw [command_early inputs start early, required_quiet (.inl rfl)]
    exact Nat.zero_le _
  · rw [(command_start inputs start early).1]
    by_cases after : last ≤ 14316
    · obtain ⟨next, rfl⟩ := Nat.exists_eq_add_of_le (show 14288 ≤ last by omega)
      rw [(command_start inputs start (show next ≤ 28 by omega)).1]
      exact (start_spaced later early next (by omega) (by omega)).trans (by omega)
    · have spaced := start_ends later early (command inputs start last)
        (by cases command inputs start last <;> simp)
      omega
  · have serves (cycle : Nat) := (works inputs start cycle).serves
    have classified {cycle : Nat} (late : 14316 ≤ cycle) :
        (command inputs start (cycle + 1)).quiet = true ∨
          ∃ kind : Kind, kind.Shows (command inputs start (cycle + 1)) :=
      (serves cycle).classified ((done_iff inputs start cycle).mpr late) (inputs cycle)
    obtain ⟨next, rfl⟩ := Nat.exists_eq_add_one.mpr (show 0 < last by omega)
    obtain quiet | ⟨before, sent⟩ := classified (show 14316 ≤ 14316 + later by omega)
    · rw [required_quiet (.inl quiet)]
      exact Nat.zero_le _
    obtain quiet | ⟨after, shown⟩ := classified (show 14316 ≤ next by omega)
    · rw [required_quiet (.inr quiet)]
      exact Nat.zero_le _
    exact (required_spacing sent shown).trans
      (kinds_apart inputs start (by omega) ordered sent shown)

variable (banks : Banks (BitVec 2) (BitVec 13))

/-- For all requests, from any values of the registers and any open rows before the reset:
every command finds the banks as it needs them; a read or a write reaches the open row of
its bank, which is the row that the memory model keeps; two commands are as far apart as
the parameters of the component ask; and the two sides never drive the data lines together. -/
theorem commands_legal :
    (∀ cycle, (operation inputs start cycle).Allowed (opened inputs start banks cycle)) ∧
    (∀ cycle bank closes, operation inputs start cycle = .access bank closes →
      ∃ row, opened inputs start banks cycle bank = some row ∧
        (circuit inputs start cycle).component.addrCrb = rowBankOf bank row) ∧
    (∀ first last, first < last →
      required (command inputs start first) (command inputs start last) ≤ last - first) ∧
    ∀ cycle, (circuit inputs start cycle).controller.main.oe = true →
      (circuit inputs start cycle).component.readValid = false :=
  ⟨command_allowed inputs start banks, fun cycle _ _ => access_served inputs start banks cycle,
    fun _ _ => commands_apart inputs start, never_contended inputs start⟩

end Runs

end CpenLabs.SdramController
