import CpenLabs.SdramRefresh

/-!
# The progress of the requests to the SDRAM

No request waits for long. While one is waiting, the main FSM puts one on the pins within
27 cycles, although it may have to close a row, open another one, and send a refresh on
the way. `edgesToAccess` counts the edges up to the next access, with the detour over a
refresh that has been asked for. A refresh that will be asked for before the access is
paid for in advance: its detour is added as soon as the age of the last request says that
the counter ends before the access. The sum falls in every cycle without an access.

At most three requests wait behind the one on the pins, and an answer takes four cycles
from there. So all of them are performed and answered within a fixed time after the
initialisation, and the FIFO does not stay full.
-/

namespace CpenLabs.SdramController

open SequentialMemory

section Ranks

/-- The edges from the idle state to an access, with a detour over a refresh or without. -/
def fromIdleToAccess (detour : Bool) : Nat := if detour then 20 else 6

/-- Behind a count. -/
def restToAccess (detour : Bool) : MainState → Nat
  | .read | .write => 1
  | .autoRefresh => 16
  | _ => fromIdleToAccess detour

/-- The edges up to the next access, if a request is waiting. A read or a write may put
nothing on the pins. -/
def edgesToAccess (silent detour : Bool) (state next : MainState) (count : BitVec 4) : Nat :=
  match state with
  | .idle => fromIdleToAccess detour
  | .activate => 5
  | .countDown => counts count + restToAccess detour next
  | .read | .write => if silent then if detour then 23 else 12 else 1
  | .rowOpen => if detour then 22 else 11
  | .close => counts count + 3 + fromIdleToAccess detour
  | .precharge => 1 + counts count + restToAccess detour next
  | .autoRefresh => 16

/-- The same for the registers. -/
def MainFsm.edgesToAccess (input : MainInput) (detour : Bool) (main : MainFsm) : Nat :=
  SdramController.edgesToAccess (main.issued input).isEmpty detour main.mState main.mNext main.mCount

/-- A refresh has been asked for and is still to be sent. -/
def MainFsm.detour (input : MainInput) (main : MainFsm) : Bool :=
  input.refreshRequest && !main.ackRefreshRequest

variable {input input' : MainInput} {main : MainFsm} {queue : List Entry} {row : BitVec 15}

/-- There is always an edge to go. -/
theorem MainFsm.edgesToAccess_pos (input : MainInput) (detour : Bool) (main : MainFsm) :
    0 < main.edgesToAccess input detour := by
  rw [MainFsm.edgesToAccess]
  cases detour <;> cases main.mState <;>
    simp [SdramController.edgesToAccess, counts, fromIdleToAccess] <;> split_ifs <;> omega

/-- The detour takes fourteen edges at most. -/
theorem MainFsm.edgesToAccess_detour (input : MainInput) (main : MainFsm) :
    main.edgesToAccess input true ≤ main.edgesToAccess input false + 14 := by
  have rest (next : MainState) : restToAccess true next ≤ restToAccess false next + 14 := by
    cases next <;> decide
  have behind := rest main.mNext
  rw [MainFsm.edgesToAccess, MainFsm.edgesToAccess]
  cases main.mState with
  | countDown | precharge =>
    dsimp only [SdramController.edgesToAccess]
    omega
  | read | write =>
    dsimp only [SdramController.edgesToAccess]
    split_ifs <;> omega
  | idle | activate | rowOpen | close | autoRefresh =>
    simp [SdramController.edgesToAccess, fromIdleToAccess]

/-- An edge of a count brings the access nearer. -/
theorem MainFsm.countDown_edgesToAccess (input input' : MainInput) (detour : Bool) (main : MainFsm)
    (next : main.mNext = .idle ∨ main.mNext = .autoRefresh ∨ main.mNext = .read ∨ main.mNext = .write) :
    (main.countDown input).edgesToAccess input' detour + 1 ≤
      counts main.mCount + restToAccess detour main.mNext := by
  rw [counts_step, MainFsm.edgesToAccess]
  by_cases counting : 1 < main.mCount
  · rw [show (main.countDown input).mState = .countDown from if_pos counting,
      show (main.countDown input).mCount = main.mCount - 1 from if_pos counting, if_pos counting]
    change counts (main.mCount - 1) + restToAccess detour main.mNext + 1 ≤ _
    omega
  · have state : (main.countDown input).mState = main.mNext := if_neg counting
    have unasked : (main.countDown input).fPop = false := rfl
    rw [MainFsm.issued, state, unasked, Bool.and_false, if_neg Bool.false_ne_true, if_neg counting]
    obtain next | next | next | next := next <;> rw [next, Nat.add_comm] <;> exact Nat.le_refl _

/-- A request that has just been taken is put on the pins with the next edge. -/
theorem MainFsm.take_edgesToAccess {input input' : MainInput} {next : MainFsm} (head : input'.f = input.f)
    (present : input'.fEmpty = false) (state : next.mState = .read ∨ next.mState = .write) :
    (next.take input).edgesToAccess input' false + 1 ≤ 11 := by
  have pending : (next.take input).pending input' = true := by
    rw [MainFsm.pending, MainFsm.matching, head, present]
    simp [MainFsm.take]
  have state' : (next.take input).mState = next.mState := rfl
  rw [MainFsm.edgesToAccess, MainFsm.issued, state', pending]
  obtain state | state := state <;> rw [state] <;> exact (show 1 + 1 ≤ 11 by omega)

/-- An edge of the clock brings the next access nearer, as long as there is a request to
put on the pins. The FIFO shows the same head after an edge with the row open. -/
theorem Phase.edgesToAccess_step (phase : Phase main queue row input.refreshRequest)
    (shows : input.Shows queue) (done : input.initDone = true) (waits : main.held ++ queue ≠ [])
    (silent : main.issued input = []) (other : main.mState ≠ .autoRefresh)
    (unacked : main.mState = .rowOpen → main.ackRefreshRequest = false)
    (same : main.mState = .rowOpen → input'.f = input.f ∧ input'.fEmpty = false) :
    (main.step input).edgesToAccess input' (main.detour input) + 1 ≤
      main.edgesToAccess input (main.detour input) := by
  have edges {now : MainState} (state : main.mState = now) (detour : Bool) :
      main.edgesToAccess input detour =
        SdramController.edgesToAccess true detour now main.mNext main.mCount := by
    rw [MainFsm.edgesToAccess, state, silent]
    rfl
  have unheld (state : main.mState = .idle ∨ main.mState = .rowOpen) : input.fEmpty = false := by
    have none : main.held = [] := by
      obtain state | state := state <;> rw [MainFsm.held, state]
    rw [none, List.nil_append, ne_eq, ← shows.empty] at waits
    exact Bool.eq_false_of_not_eq_true waits
  cases phase with
  | idle state _ settled =>
    rw [edges state, MainFsm.step_idle state, MainFsm.idle, if_pos done]
    have present := unheld (.inl state)
    cases requested : input.refreshRequest with
    | true =>
      have detour : main.detour input = true := by
        rw [MainFsm.detour, requested, settled requested]
        rfl
      rw [if_pos rfl, detour]
      exact (show 1 + 2 + 16 + 1 ≤ 20 by omega)
    | false =>
      have detour : main.detour input = false := by
        rw [MainFsm.detour, requested, Bool.false_and]
      rw [if_neg Bool.false_ne_true, present, detour]
      exact (show 5 + 1 ≤ 6 by omega)
  | activate state _ _ _ =>
    rw [edges state, MainFsm.step_activate state]
    change SdramController.edgesToAccess _ _ .countDown (if main.active.rnw then .read else .write) 3 + 1 ≤
      5
    split_ifs <;> exact Nat.le_refl 5
  | opening state next _ _ _ =>
    rw [edges state, MainFsm.step_countDown state]
    refine main.countDown_edgesToAccess input input' _ ?_
    rw [next, Entry.serving]
    split_ifs <;> simp
  | closing state _ next =>
    rw [edges state, MainFsm.step_countDown state]
    exact main.countDown_edgesToAccess input input' _ (next.imp_right .inl)
  | serving state chosen _ =>
    have spun : main.mState = .read ∨ main.mState = .write → main.pending input = false := by
      intro state
      have spun : (!main.pending input && main.fPop) = true := by
        obtain state | state := state <;> rw [MainFsm.issued, state] at silent <;> dsimp only at silent <;>
          split_ifs at silent with spun <;> exact spun
      rw [Bool.and_eq_true, Bool.not_eq_true'] at spun
      exact spun.1
    rw [Entry.serving] at state
    split_ifs at state
    · rw [edges state, MainFsm.step_read state, MainFsm.read, MainFsm.continued, spun (.inl state),
        if_neg Bool.false_ne_true]
      cases main.detour input <;> exact Nat.le_refl _
    · rw [edges state, MainFsm.step_write state, MainFsm.write, MainFsm.continued, spun (.inr state),
        if_neg Bool.false_ne_true]
      cases main.detour input <;> exact Nat.le_refl _
  | rowOpen state _ _ _ =>
    have present := unheld (.inr state)
    obtain ⟨head, present'⟩ := same state
    rw [edges state, MainFsm.step_rowOpen state, MainFsm.rowOpen, present]
    cases requested : input.refreshRequest with
    | true =>
      have detour : main.detour input = true := by
        rw [MainFsm.detour, requested, unacked state]
        rfl
      rw [if_pos rfl, detour]
      exact (show 1 + 20 + 1 ≤ 22 by omega)
    | false =>
      have detour : main.detour input = false := by
        rw [MainFsm.detour, requested, Bool.false_and]
      rw [if_neg Bool.false_ne_true, if_pos (Bool.not_false), detour]
      split_ifs with matching direction
      · exact MainFsm.take_edgesToAccess head present' (.inl rfl)
      · exact MainFsm.take_edgesToAccess head present' (.inr rfl)
      · exact (show 1 + 3 + 6 + 1 ≤ 11 by omega)
  | close state next _ _ =>
    have step := counts_step main.mCount
    rw [edges state, MainFsm.step_close state, MainFsm.close, next]
    by_cases counting : 1 < main.mCount
    · rw [if_pos counting] at step
      rw [if_pos counting, if_pos counting]
      change counts (main.mCount - 1) + 3 + fromIdleToAccess _ + 1 ≤
        counts main.mCount + 3 + fromIdleToAccess _
      omega
    · rw [if_neg counting] at step
      rw [if_neg counting, if_neg counting]
      change 1 + 2 + fromIdleToAccess _ + 1 ≤ counts main.mCount + 3 + fromIdleToAccess _
      omega
  | precharge state _ _ =>
    rw [edges state, MainFsm.step_precharge state]
    change counts main.mCount + restToAccess _ main.mNext + 1 ≤
      1 + counts main.mCount + restToAccess _ main.mNext
    omega
  | autoRefresh state _ => exact absurd state other

/-- The edges that may be left, with the detour that the counter will ask for. -/
def MainFsm.remaining (input : MainInput) (age : Nat) (main : MainFsm) : Nat :=
  main.edgesToAccess input (main.detour input) +
    if main.detour input = false ∧ 1117 < age + main.edgesToAccess input false then 14 else 0

variable {age owed : Nat}

/-- Without a detour the next refresh may still come in between. -/
theorem MainFsm.remaining_straight {input : MainInput} {main : MainFsm}
    (none : main.detour input = false) :
    main.remaining input age =
      main.edgesToAccess input false + if 1117 < age + main.edgesToAccess input false then 14 else 0 := by
  simp [MainFsm.remaining, none]

/-- With a detour it is in the count already. -/
theorem MainFsm.remaining_detour {input : MainInput} {main : MainFsm} (due : main.detour input = true) :
    main.remaining input age = main.edgesToAccess input true := by
  simp [MainFsm.remaining, due]

/-- An access is no farther than a refresh, or not much. -/
theorem near_access (silent : Bool) (state next : MainState) (count : BitVec 4) :
    (state ≠ .autoRefresh → (state = .countDown ∨ state = .precharge → next ≠ .autoRefresh) →
      edgesToRefresh state next count ≤ 12 →
      SdramController.edgesToAccess silent false state next count ≤ 13) ∧
    (edgesToRefresh state next count ≤ 12 →
      SdramController.edgesToAccess silent true state next count ≤ 27) := by
  cases state with
  | countDown | precharge =>
    cases next <;>
      simp only [SdramController.edgesToAccess, edgesToRefresh, restToRefresh, restToAccess,
        fromIdleToAccess] <;>
      simp <;> omega
  | close =>
    simp [SdramController.edgesToAccess, edgesToRefresh, fromIdleToAccess]
  | idle | activate | read | write | rowOpen | autoRefresh =>
    cases silent <;> simp [SdramController.edgesToAccess, fromIdleToAccess]

/-- The way is never longer than 27 edges. -/
theorem Refreshes.remaining_le (refreshes : Refreshes main input.refreshRequest age owed)
    (phase : Phase main queue row input.refreshRequest) : main.remaining input age ≤ 27 := by
  obtain ⟨plain, detoured⟩ :=
    near_access (main.issued input).isEmpty main.mState main.mNext main.mCount
  cases refreshes with
  | resting none unacked other near _ =>
    have unclosed : main.mState = .countDown ∨ main.mState = .precharge → main.mNext ≠ .autoRefresh := by
      rintro (state | state) next
      · exact other (.inr ⟨state, next⟩)
      · obtain ⟨idle, -⟩ | ⟨-, requested⟩ := phase.precharge_next state
        · rw [next] at idle
          cases idle
        · rw [none] at requested
          cases requested
    have bound : main.edgesToAccess input false ≤ 13 :=
      plain (fun state => other (.inl state)) unclosed near
    rw [MainFsm.remaining_straight (by rw [MainFsm.detour, none, Bool.false_and])]
    split_ifs <;> omega
  | due asked unacked soon _ =>
    have detour : main.detour input = true := by
      rw [MainFsm.detour, asked, unacked]
      rfl
    have bound : main.edgesToAccess input true ≤ 27 := detoured (by
      change main.edgesToRefresh ≤ 12
      omega)
    rwa [MainFsm.remaining_detour detour]
  | acked state next acked soon _ =>
    have edges : main.edgesToAccess input false = counts main.mCount + 6 := by
      rw [MainFsm.edgesToAccess, state, next]
      rfl
    rw [MainFsm.remaining_straight (by rw [MainFsm.detour, acked, Bool.not_true, Bool.and_false]), edges]
    split_ifs <;> omega
  | leaving state none acked soon _ =>
    have edges : main.edgesToAccess input false = 6 := by
      rw [MainFsm.edgesToAccess, state]
      rfl
    rw [MainFsm.remaining_straight (by rw [MainFsm.detour, none, Bool.false_and]), edges]
    split_ifs <;> omega

/-- What is left falls with every edge without an access. -/
theorem Refreshes.remaining_step (refreshes : Refreshes main input.refreshRequest age owed)
    (phase : Phase main queue row input.refreshRequest)
    (shows : input.Shows queue) (done : input.initDone = true) (waits : main.held ++ queue ≠ [])
    (silent : main.issued input = [])
    (same : main.mState = .rowOpen → input'.f = input.f ∧ input'.fEmpty = false)
    (request : input'.refreshRequest =
      ((age == 1116 || input.refreshRequest) && !main.ackRefreshRequest)) :
    (main.step input).remaining input' (if age = 1116 then 0 else age + 1) + 1 ≤
      main.remaining input age := by
  have nearer (other : main.mState ≠ .autoRefresh)
      (unacked : main.mState = .rowOpen → main.ackRefreshRequest = false) :=
    phase.edgesToAccess_step shows done waits silent other unacked same
  -- Without a refresh, the edges that are gone have made the last request older.
  have plain (young : age ≠ 1116) (none : main.detour input = false)
      (none' : (main.step input).detour input' = false)
      (other : main.mState ≠ .autoRefresh)
      (unacked : main.mState = .rowOpen → main.ackRefreshRequest = false) :
      (main.step input).remaining input' (age + 1) + 1 ≤ main.remaining input age := by
    have nearer := nearer other unacked
    rw [none] at nearer
    rw [MainFsm.remaining_straight none, MainFsm.remaining_straight none']
    split_ifs <;> omega
  cases refreshes with
  | resting none unacked other near _ =>
    have elsewhere : main.mState ≠ .autoRefresh := fun state => other (.inl state)
    have straight : main.detour input = false := by rw [MainFsm.detour, none, Bool.false_and]
    have unacked' := main.unacked_step input elsewhere unacked
    have detour' : (main.step input).detour input' = (age == 1116) := by
      rw [MainFsm.detour, unacked', request, none, unacked]
      simp
    by_cases due : age = 1116
    · have nearer := nearer elsewhere fun _ => unacked
      have longer := MainFsm.edgesToAccess_detour input' (main.step input)
      have positive := MainFsm.edgesToAccess_pos input' false (main.step input)
      rw [straight] at nearer
      rw [MainFsm.remaining_straight straight, MainFsm.remaining_detour (by simp [detour', due]), if_pos]
      · omega
      · omega
    · rw [if_neg due]
      exact plain due straight (by simp [detour', due]) elsewhere fun _ => unacked
  | due asked unacked soon _ =>
    have young : age ≠ 1116 := by omega
    have detour : main.detour input = true := by
      rw [MainFsm.detour, asked, unacked]
      rfl
    rw [if_neg young]
    by_cases state : main.mState = .autoRefresh
    · have soon : age + 1 ≤ 12 := by
        rwa [MainFsm.edgesToRefresh, state] at soon
      have edges' : (main.step input).edgesToAccess input' false = 15 := by
        rw [MainFsm.step_autoRefresh state]
        rfl
      have edges : main.edgesToAccess input true = 16 := by
        rw [MainFsm.edgesToAccess, state]
        rfl
      have detour' : (main.step input).detour input' = false := by
        rw [MainFsm.detour, MainFsm.step_autoRefresh state]
        exact Bool.and_false _
      rw [MainFsm.remaining_straight detour', MainFsm.remaining_detour detour, edges, edges', if_neg]
      omega
    · have nearer := nearer state fun _ => unacked
      have detour' : (main.step input).detour input' = true := by
        rw [MainFsm.detour, main.unacked_step input state unacked, request, asked, unacked]
        simp
      rwa [detour, ← MainFsm.remaining_detour detour', ← MainFsm.remaining_detour detour] at nearer
  | acked state next acked soon _ =>
    refine if_neg (show age ≠ 1116 by omega) ▸ plain (by omega) ?_ ?_ (by simp [state]) (by simp [state])
    · rw [MainFsm.detour, acked, Bool.not_true, Bool.and_false]
    · rw [MainFsm.detour, request, acked, Bool.not_true, Bool.and_false, Bool.false_and]
  | leaving state none acked soon _ =>
    refine if_neg (show age ≠ 1116 by omega) ▸ plain (by omega) ?_ ?_ (by simp [state]) (by simp [state])
    · rw [MainFsm.detour, none, Bool.false_and]
    · rw [MainFsm.detour, request, acked, Bool.not_true, Bool.and_false, Bool.false_and]

end Ranks

section Runs

/-- In the whole system the entries go on waiting, and what is left falls. -/
theorem System.Serves.remaining {system : System} (serves : system.Serves)
    (done : system.controller.init.initDone = true) {age owed : Nat}
    (zero : (system.controller.refresh.refreshCounter == 0) = (age == 1116))
    (refreshes : Refreshes system.controller.main system.controller.refresh.refreshRequest age owed)
    (waits : system.controller.waiting ≠ [])
    (silent : system.controller.main.issued system.controller.mainInput = []) (input : Input) :
    (system.step input).controller.waiting ≠ [] ∧
      (system.step input).controller.main.remaining (system.step input).controller.mainInput
          (if age = 1116 then 0 else age + 1) + 1 ≤
        system.controller.main.remaining system.controller.mainInput age := by
  have conserves := @System.Serves.conserves input system serves
  rw [silent, List.nil_append] at conserves
  constructor
  · rw [← conserves]
    exact List.append_ne_nil_of_left_ne_nil waits _
  · refine @Refreshes.remaining_step system.controller.mainInput _ _ _ _ _ _ refreshes serves.phase
      serves.sound.shows done waits silent ?_ (System.request_step done zero input)
    intro state
    have unasked : system.controller.main.fPop = false :=
      @Phase.unasked system.controller.mainInput _ _ _ serves.phase (by simp [state]) (by simp [state])
        (by simp [state])
    have present : system.controller.fifo.contents ≠ [] := by
      rwa [Controller.waiting, MainFsm.held, state, List.nil_append] at waits
    have contents := (@System.Serves.queue input system serves).2
    rw [Controller.fSelect, MainFsm.fSelect_unasked unasked, if_neg Bool.false_ne_true] at contents
    have present' : (system.step input).controller.fifo.contents ≠ [] := by
      rw [contents]
      exact List.append_ne_nil_of_left_ne_nil present _
    have shows' := (@System.Serves.step input system serves).sound.shows
    constructor
    · have first := congrArg List.head? (shows'.head present')
      rw [contents, serves.sound.shows.head present] at first
      exact (Option.some.inj first).symm
    · rw [← Bool.not_eq_true, shows'.empty]
      exact present'

variable (inputs : Nat → Input) (start : System)

/-- The request that an edge puts on the pins. -/
def issued (cycle : Nat) : List Entry :=
  (circuit inputs start cycle).controller.main.issued (circuit inputs start cycle).controller.mainInput

/-- While requests wait, one of them is put on the pins within 27 cycles. -/
theorem issued_soon {cycle : Nat} (late : 14316 ≤ cycle)
    (waits : (circuit inputs start cycle).controller.waiting ≠ []) :
    ∃ later < 27, issued inputs start (cycle + later) ≠ [] := by
  have serves (cycle : Nat) := (works inputs start cycle).serves
  have refreshes {cycle : Nat} (late : 14316 ≤ cycle) :
      ∃ owed, Refreshes (circuit inputs start cycle).controller.main
        (circuit inputs start cycle).controller.refresh.refreshRequest ((cycle - 14287) % 1117) owed := by
    obtain ⟨later, rfl⟩ := Nat.exists_eq_add_of_le late
    obtain ⟨owed, refreshes, -⟩ := refreshes_later inputs start later
    rw [show 14316 + later - 14287 = 29 + later by omega]
    exact ⟨owed, refreshes⟩
  refine @Clocked.exists_soon
    (fun cycle => 14316 ≤ cycle ∧ (circuit inputs start cycle).controller.waiting ≠ [])
    (fun cycle => issued inputs start cycle ≠ [])
    (fun cycle => (circuit inputs start cycle).controller.main.remaining
      (circuit inputs start cycle).controller.mainInput ((cycle - 14287) % 1117))
    ?_ ?_ 27 cycle ⟨late, waits⟩ ?_
  · intro cycle _
    exact Nat.add_pos_left (MainFsm.edgesToAccess_pos _ _ _) _
  · rintro cycle ⟨late, waits⟩ silent
    obtain ⟨owed, refreshes⟩ := refreshes late
    have zero := counter_zero inputs start (cycle - 14287)
    rw [show 14287 + (cycle - 14287) = cycle by omega] at zero
    obtain ⟨waits', fallen⟩ := (serves cycle).remaining ((done_iff inputs start cycle).mpr late) zero
      refreshes waits (not_not.mp silent) (inputs cycle)
    rw [(next_age (cycle - 14287)).1, show cycle - 14287 + 1 = cycle + 1 - 14287 by omega] at fallen
    exact ⟨⟨by omega, waits'⟩, fallen⟩
  · obtain ⟨owed, refreshes⟩ := refreshes late
    exact @Refreshes.remaining_le (circuit inputs start cycle).controller.mainInput _ _ _ _ _ refreshes
      (serves cycle).phase

/-- What has been taken is on the pins or waits. -/
theorem accepted_waiting (cycle : Nat) :
    accepted inputs start cycle = performed inputs start (cycle + 1) ++
      (circuit inputs start cycle).controller.waiting.map Entry.access := by
  rw [accepted_eq, outstanding, performed, performed, Clocked.history_succ, List.append_assoc]

/-- What has been performed remains so. -/
theorem performed_le {first last : Nat} (ordered : first ≤ last) :
    (performed inputs start first).length ≤ (performed inputs start last).length :=
  (Clocked.history_prefix _ ordered).length_le

/-- What an edge puts on the pins is performed with the next one. -/
theorem performed_issued {cycle : Nat} (some : issued inputs start cycle ≠ []) :
    (performed inputs start (cycle + 1)).length < (performed inputs start (cycle + 2)).length := by
  have step : (circuit inputs start (cycle + 1)).performs (inputs (cycle + 1)) =
      (issued inputs start cycle).map Entry.access :=
    (works inputs start cycle).serves.performs_step (inputs (cycle + 1))
  have more : performed inputs start (cycle + 2) = performed inputs start (cycle + 1) ++
      (issued inputs start cycle).map Entry.access := by
    rw [performed, Clocked.history_succ, step]
    rfl
  rw [more, List.length_append, List.length_map]
  exact Nat.lt_add_of_pos_right (List.length_pos_of_ne_nil some)

/-- In 27 cycles one more request is on the pins, if any is waiting. -/
theorem performed_round {cycle : Nat} (late : 14316 ≤ cycle)
    (waits : (circuit inputs start cycle).controller.waiting ≠ []) :
    (performed inputs start (cycle + 1)).length < (performed inputs start (cycle + 27 + 1)).length := by
  obtain ⟨later, soon, found⟩ := issued_soon inputs start late waits
  have before := performed_le inputs start (show cycle + 1 ≤ cycle + later + 1 by omega)
  have next := performed_issued inputs start found
  have after := performed_le inputs start (show cycle + later + 2 ≤ cycle + 27 + 1 by omega)
  omega

/-- In several rounds as many more are, unless all that had been taken are. -/
theorem performed_rounds {cycle : Nat} (late : 14316 ≤ cycle) (rounds : Nat) :
    (accepted inputs start cycle).length ≤ (performed inputs start (cycle + 27 * rounds + 1)).length ∨
      (performed inputs start (cycle + 1)).length + rounds ≤
        (performed inputs start (cycle + 27 * rounds + 1)).length := by
  induction rounds with
  | zero => exact .inr (Nat.le_refl _)
  | succ rounds inductionHypothesis =>
    have grows := performed_le inputs start
      (show cycle + 27 * rounds + 1 ≤ cycle + 27 * (rounds + 1) + 1 by omega)
    obtain all | more := inductionHypothesis
    · exact .inl (all.trans grows)
    by_cases waits : (circuit inputs start (cycle + 27 * rounds)).controller.waiting = []
    · have taken := accepted_waiting inputs start (cycle + 27 * rounds)
      rw [waits, List.map_nil, List.append_nil] at taken
      have part : accepted inputs start cycle <+: accepted inputs start (cycle + 27 * rounds) :=
        Clocked.history_prefix _ (Nat.le_add_right _ _)
      rw [taken] at part
      exact .inl (part.length_le.trans grows)
    · have round := performed_round inputs start (show 14316 ≤ cycle + 27 * rounds by omega) waits
      rw [show cycle + 27 * rounds + 27 = cycle + 27 * (rounds + 1) by omega] at round
      exact .inr (by omega)

/-- After three rounds all are. -/
theorem accepted_performed {cycle : Nat} (late : 14316 ≤ cycle) :
    accepted inputs start cycle <+: performed inputs start (cycle + 82) := by
  have short := (circuit inputs start cycle).controller.waiting_short
  have taken := congrArg List.length (accepted_waiting inputs start cycle)
  rw [List.length_append, List.length_map] at taken
  have rounds := performed_rounds inputs start late 3
  rw [show cycle + 27 * 3 + 1 = cycle + 82 by omega] at rounds
  have length : (accepted inputs start cycle).length ≤ (performed inputs start (cycle + 82)).length := by
    omega
  have part : accepted inputs start cycle <+: accepted inputs start (cycle + 82) :=
    Clocked.history_prefix _ (Nat.le_add_right _ _)
  have part' : performed inputs start (cycle + 82) <+: accepted inputs start (cycle + 82) := by
    rw [accepted_eq]
    exact List.prefix_append _ _
  exact List.prefix_of_prefix_length_le part part' length

/-- The answers in flight are given within the next three cycles. -/
theorem inFlight_replied (cycle : Nat) :
    (circuit inputs start cycle).inFlight.length ≤
      (circuit inputs start (cycle + 1)).replies.length +
        (circuit inputs start (cycle + 2)).replies.length +
        (circuit inputs start (cycle + 3)).replies.length := by
  have stages (cycle : Nat) := (works inputs start cycle).serves.rdValid (inputs cycle)
  have replies (cycle : Nat) : (circuit inputs start (cycle + 1)).replies.length =
      if (circuit inputs start cycle).controller.read.rdValid.getLsbD 2 then 1 else 0 := by
    rw [circuit_succ]
    generalize circuit inputs start cycle = system
    change (if system.controller.read.rdValid.getLsbD 2 then _ else []).length = _
    split_ifs <;> rfl
  have second : (circuit inputs start (cycle + 1)).controller.read.rdValid.getLsbD 2 =
      (circuit inputs start cycle).controller.read.rdValid.getLsbD 1 := (stages cycle).2.2
  have first : (circuit inputs start (cycle + 2)).controller.read.rdValid.getLsbD 2 =
      (circuit inputs start cycle).controller.read.rdValid.getLsbD 0 :=
    (stages (cycle + 1)).2.2.trans (stages cycle).2.1
  rw [replies, replies, replies, second, first, System.inFlight]
  split_ifs <;> simp

/-- A performed read is answered within four cycles. -/
theorem performed_replied (cycle : Nat) :
    answers masked start.component.memArray (performed inputs start cycle) <+:
      replied inputs start (cycle + 4) := by
  have now := congrArg List.length (answers_eq inputs start cycle)
  have part : answers masked start.component.memArray (performed inputs start cycle) <+:
      answers masked start.component.memArray (performed inputs start (cycle + 3)) :=
    answers_grow _ _ (Clocked.history_prefix _ (Nat.le_add_right _ _))
  have part' : replied inputs start (cycle + 4) <+:
      answers masked start.component.memArray (performed inputs start (cycle + 3)) := by
    rw [answers_eq]
    exact List.prefix_append _ _
  have length : (replied inputs start (cycle + 4)).length = (replied inputs start (cycle + 1)).length +
      (circuit inputs start (cycle + 1)).replies.length +
        (circuit inputs start (cycle + 2)).replies.length +
        (circuit inputs start (cycle + 3)).replies.length := by
    rw [replied, Clocked.history_succ, Clocked.history_succ, Clocked.history_succ, List.length_append,
      List.length_append, List.length_append, replied]
  have flight := inFlight_replied inputs start cycle
  rw [List.length_append] at now
  exact List.prefix_of_prefix_length_le part part' (by omega)

/-- The FIFO does not stay full. -/
theorem room_again {cycle : Nat} (late : 14316 ≤ cycle) :
    ∃ later ≤ 81, (circuit inputs start (cycle + later)).controller.zaWaitrequest = false := by
  by_contra absent
  have full (later : Nat) (soon : later ≤ 81) :
      (circuit inputs start (cycle + later)).controller.zaWaitrequest = true :=
    Bool.eq_true_of_not_eq_false fun room => absent ⟨later, soon, room⟩
  have kept (later : Nat) (soon : later ≤ 81) :
      accepted inputs start (cycle + later) = accepted inputs start cycle := by
    induction later with
    | zero => rfl
    | succ later inductionHypothesis =>
      have refused : (circuit inputs start (cycle + later)).accepts (inputs (cycle + later)) = [] := by
        rw [System.accepts, Controller.wr, full later (by omega), Bool.not_true, Bool.and_false]
        rfl
      rw [← inductionHypothesis (by omega), ← Nat.add_assoc, accepted, Clocked.history_succ, refused,
        List.append_nil, accepted]
  have all := (accepted_performed inputs start late).length_le
  rw [show cycle + 82 = cycle + 81 + 1 from rfl] at all
  have taken := congrArg List.length (accepted_waiting inputs start (cycle + 81))
  rw [kept 81 (Nat.le_refl 81), List.length_append, List.length_map, Controller.waiting,
    List.length_append] at taken
  have none : (circuit inputs start (cycle + 81)).controller.fifo.contents = [] :=
    List.eq_nil_of_length_eq_zero (by omega)
  have empty := (Efifo.empty_contents (works inputs start (cycle + 81)).serves.sound).mpr none
  have two := full 81 (Nat.le_refl 81)
  rw [Efifo.empty, beq_iff_eq] at empty
  rw [Controller.zaWaitrequest, Efifo.full, empty] at two
  cases two

/-- For all requests, from any values of the registers before the reset: 82 cycles after
a request has been taken, or after the initialisation if that is later, it has been
performed, and after four more a read has been answered; and within the same time there
is room for another request. -/
theorem requests_progress :
    (∀ cycle, accepted inputs start cycle <+: performed inputs start (max cycle 14316 + 82)) ∧
    (∀ cycle, answers masked start.component.memArray (accepted inputs start cycle) <+:
      replied inputs start (max cycle 14316 + 86)) ∧
    ∀ cycle, ∃ later ≤ 81,
      (circuit inputs start (max cycle 14316 + later)).controller.zaWaitrequest = false := by
  have done (cycle : Nat) :
      accepted inputs start cycle <+: performed inputs start (max cycle 14316 + 82) := by
    have part : accepted inputs start cycle <+: accepted inputs start (max cycle 14316) :=
      Clocked.history_prefix _ (Nat.le_max_left _ _)
    exact part.trans (accepted_performed inputs start (Nat.le_max_right _ _))
  refine ⟨done, fun cycle => ?_, fun cycle => room_again inputs start (Nat.le_max_right _ _)⟩
  exact (answers_grow _ _ (done cycle)).trans (performed_replied inputs start (max cycle 14316 + 82))

end Runs

end CpenLabs.SdramController
