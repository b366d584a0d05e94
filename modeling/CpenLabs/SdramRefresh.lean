import CpenLabs.SdramTiming
import Mathlib.Tactic.Ring

/-!
# The refreshes of the SDRAM

The refresh counter of the controller asks for a refresh every 1117 cycles, and the main
FSM answers after it has left what it was doing. A request that came while another one
was open, or while the last one was still acknowledged, would be lost. It is not: the
main FSM sends a refresh within twelve cycles of the request, takes back its
acknowledgement ten cycles later, and is then ready for the next.

`Refreshes` says how far the answer has come at a given age of the last request, and
whether a refresh is owed. The requests and the refreshes are then counted against each
other along a run.
-/

namespace CpenLabs.SdramController

section Ranks

/-- The edges up to a refresh that is asked for, behind a count. -/
def restToRefresh : MainState → Nat
  | .autoRefresh => 1
  | .read | .write => 8
  | _ => 5

/-- The edges up to a refresh that is asked for. -/
def edgesToRefresh (state next : MainState) (count : BitVec 4) : Nat :=
  match state with
  | .idle => 5
  | .activate => 12
  | .countDown => counts count + restToRefresh next
  | .read | .write => 8
  | .rowOpen => 7
  | .close => counts count + 8
  | .precharge => 1 + counts count + restToRefresh next
  | .autoRefresh => 1

/-- The same for the registers. -/
def MainFsm.edgesToRefresh (main : MainFsm) : Nat :=
  SdramController.edgesToRefresh main.mState main.mNext main.mCount

/-- The banks have been closed for a refresh. -/
def MainFsm.Refreshing (main : MainFsm) : Prop :=
  main.mState = .autoRefresh ∨ main.mState = .countDown ∧ main.mNext = .autoRefresh

variable {input : MainInput} {main : MainFsm} {queue : List Entry} {row : BitVec 15}

/-- An edge of a count brings the refresh nearer. -/
theorem MainFsm.countDown_edgesToRefresh (input : MainInput) (main : MainFsm)
    (next : main.mNext = .idle ∨ main.mNext = .autoRefresh ∨ main.mNext = .read ∨ main.mNext = .write) :
    (main.countDown input).edgesToRefresh + 1 ≤ counts main.mCount + restToRefresh main.mNext := by
  rw [counts_step]
  change SdramController.edgesToRefresh (if 1 < main.mCount then .countDown else main.mNext) main.mNext
    (if 1 < main.mCount then main.mCount - 1 else main.mCount) + 1 ≤ _
  split_ifs
  · change counts (main.mCount - 1) + restToRefresh main.mNext + 1 ≤ _
    omega
  · obtain next | next | next | next := next <;> rw [next, Nat.add_comm] <;> exact Nat.le_refl _

/-- After a read or a write the way to a refresh is shorter, if one is asked for. -/
theorem MainFsm.continued_edgesToRefresh (input : MainInput) (main : MainFsm) (next : MainFsm)
    (serving : next.mState = .read ∨ next.mState = .write) :
    (main.continued input next).edgesToRefresh ≤ 7 ∨
      input.refreshRequest = false ∧ (main.continued input next).edgesToRefresh ≤ 12 := by
  rw [MainFsm.continued]
  split_ifs with pending requested
  · exact .inl (Nat.le_refl 7)
  · refine .inr ⟨Bool.eq_false_of_not_eq_true requested, ?_⟩
    change SdramController.edgesToRefresh next.mState next.mNext next.mCount ≤ 12
    obtain serving | serving := serving <;> rw [serving, SdramController.edgesToRefresh] <;> omega
  · exact .inl (Nat.le_refl 7)

/-- An edge of the clock shortens the way to a refresh, or no refresh is asked for. -/
theorem Phase.edgesToRefresh_step (phase : Phase main queue row input.refreshRequest)
    (done : input.initDone = true) (other : main.mState ≠ .autoRefresh) :
    (main.step input).edgesToRefresh + 1 ≤ main.edgesToRefresh ∨
      input.refreshRequest = false ∧ (main.step input).edgesToRefresh ≤ 12 := by
  have unrequested (none : ¬ input.refreshRequest = true) : input.refreshRequest = false :=
    Bool.eq_false_of_not_eq_true none
  have edges {now : MainState} (state : main.mState = now) :
      main.edgesToRefresh = SdramController.edgesToRefresh now main.mNext main.mCount := by
    rw [MainFsm.edgesToRefresh, state]
  cases phase with
  | idle state _ _ =>
    rw [edges state, MainFsm.step_idle state, MainFsm.idle, if_pos done]
    split_ifs with requested present
    · exact .inl (Nat.le_refl 5)
    · exact .inr ⟨unrequested requested, Nat.le_refl 12⟩
    · refine .inr ⟨unrequested requested, ?_⟩
      change SdramController.edgesToRefresh main.mState main.mNext main.mCount ≤ 12
      rw [state]
      exact (show 5 ≤ 12 by omega)
  | activate state _ _ _ =>
    rw [edges state, MainFsm.step_activate state]
    refine .inl ?_
    change SdramController.edgesToRefresh .countDown (if main.active.rnw then .read else .write) 3 + 1 ≤
      12
    split_ifs <;> decide
  | opening state next _ _ _ =>
    rw [edges state, MainFsm.step_countDown state]
    refine .inl (main.countDown_edgesToRefresh input ?_)
    rw [next, Entry.serving]
    split_ifs <;> simp
  | closing state _ next =>
    rw [edges state, MainFsm.step_countDown state]
    exact .inl (main.countDown_edgesToRefresh input (next.imp_right .inl))
  | serving state _ _ =>
    rw [Entry.serving] at state
    split_ifs at state
    · rw [edges state, MainFsm.step_read state, MainFsm.read]
      refine Or.imp_left Nat.succ_le_succ (main.continued_edgesToRefresh input _ ?_)
      exact .inl state
    · rw [edges state, MainFsm.step_write state, MainFsm.write]
      refine Or.imp_left Nat.succ_le_succ (main.continued_edgesToRefresh input _ ?_)
      exact .inr state
  | rowOpen state _ _ _ =>
    rw [edges state, MainFsm.step_rowOpen state, MainFsm.rowOpen]
    split_ifs with requested
    · exact .inl (Nat.le_refl 7)
    · exact .inr ⟨unrequested requested, (show 8 ≤ 12 by omega)⟩
    · exact .inr ⟨unrequested requested, (show 8 ≤ 12 by omega)⟩
    · exact .inr ⟨unrequested requested, (show 9 ≤ 12 by omega)⟩
    · refine .inr ⟨unrequested requested, ?_⟩
      change SdramController.edgesToRefresh main.mState main.mNext main.mCount ≤ 12
      rw [state]
      exact (show 7 ≤ 12 by omega)
  | close state next _ _ =>
    rw [edges state, MainFsm.step_close state, MainFsm.close, next]
    have step := counts_step main.mCount
    refine .inl ?_
    by_cases counting : 1 < main.mCount
    · rw [if_pos counting] at step
      rw [if_pos counting, if_pos counting]
      change counts (main.mCount - 1) + 8 + 1 ≤ counts main.mCount + 8
      omega
    · rw [if_neg counting] at step
      rw [if_neg counting, if_neg counting]
      change 1 + counts 2 + 5 + 1 ≤ counts main.mCount + 8
      rw [step]
      decide
  | precharge state _ _ =>
    rw [edges state, MainFsm.step_precharge state]
    refine .inl ?_
    change counts main.mCount + restToRefresh main.mNext + 1 ≤
      1 + counts main.mCount + restToRefresh main.mNext
    omega
  | autoRefresh state _ => exact absurd state other

/-- Nobody closes the banks for a refresh that has not been asked for. -/
theorem Phase.unrefreshing_step (phase : Phase main queue row input.refreshRequest)
    (none : input.refreshRequest = false) (other : ¬ main.Refreshing) :
    ¬ (main.step input).Refreshing := by
  have unrequested : ¬ input.refreshRequest = true := Bool.not_eq_true _ ▸ none
  have elsewhere {next : MainFsm} (state : next.mState ≠ .autoRefresh)
      (next' : next.mState ≠ .countDown) : ¬ next.Refreshing := by
    rintro (refreshing | ⟨counting, -⟩)
    · exact state refreshing
    · exact next' counting
  have counting {next : MainFsm} (state : next.mState ≠ .autoRefresh)
      (next' : next.mNext ≠ .autoRefresh) : ¬ next.Refreshing := by
    rintro (refreshing | ⟨-, behind⟩)
    · exact state refreshing
    · exact next' behind
  cases phase with
  | idle state _ _ =>
    rw [MainFsm.step_idle state, MainFsm.idle, if_neg unrequested]
    split_ifs
    · exact elsewhere (by simp [MainFsm.take]) (by simp [MainFsm.take])
    · exact elsewhere (by simp [state]) (by simp [state])
    · exact elsewhere (by simp) (by simp)
  | activate state _ _ _ =>
    rw [MainFsm.step_activate state, MainFsm.activate]
    refine counting (by simp) ?_
    dsimp only
    split_ifs <;> simp
  | opening state next _ _ _ =>
    rw [MainFsm.step_countDown state, MainFsm.countDown]
    rw [Entry.serving] at next
    split_ifs at next
    · refine counting ?_ (by simp [next])
      dsimp only
      split_ifs <;> simp [next]
    · refine counting ?_ (by simp [next])
      dsimp only
      split_ifs <;> simp [next]
  | closing state _ next =>
    obtain next | next := next
    · rw [MainFsm.step_countDown state, MainFsm.countDown]
      refine counting ?_ (by simp [next])
      dsimp only
      split_ifs <;> simp [next]
    · exact absurd (.inr ⟨state, next⟩) other
  | serving state _ _ =>
    rw [Entry.serving] at state
    split_ifs at state
    · rw [MainFsm.step_read state, MainFsm.read, MainFsm.continued, if_neg unrequested]
      split_ifs <;> exact elsewhere (by simp [MainFsm.take, state]) (by simp [MainFsm.take, state])
    · rw [MainFsm.step_write state, MainFsm.write, MainFsm.continued, if_neg unrequested]
      split_ifs <;> exact elsewhere (by simp [MainFsm.take, state]) (by simp [MainFsm.take, state])
  | rowOpen state _ _ _ =>
    rw [MainFsm.step_rowOpen state, MainFsm.rowOpen, if_neg unrequested]
    split_ifs <;> exact elsewhere (by simp [MainFsm.take, state]) (by simp [MainFsm.take, state])
  | close state _ _ _ =>
    rw [MainFsm.step_close state, MainFsm.close]
    refine elsewhere ?_ ?_ <;> dsimp only <;> split_ifs <;> simp
  | precharge state _ next =>
    rw [MainFsm.step_precharge state, MainFsm.precharge]
    obtain ⟨next, -⟩ | ⟨-, requested⟩ := next
    · exact counting (by simp) (by simp [next])
    · exact absurd requested unrequested
  | autoRefresh state _ => exact absurd (.inl state) other

end Ranks

section Answers

/-- How far the request that came `age` cycles ago has been answered, and how many
refreshes are owed. -/
inductive Refreshes (main : MainFsm) (requested : Bool) (age owed : Nat) : Prop
  | resting (none : requested = false) (unacked : main.ackRefreshRequest = false)
      (other : ¬ main.Refreshing) (near : main.edgesToRefresh ≤ 12) (paid : owed = 0)
  | due (asked : requested = true) (unacked : main.ackRefreshRequest = false)
      (soon : age + main.edgesToRefresh ≤ 12) (owes : owed = 1)
  /-- The refresh has been sent, and the request is taken back. -/
  | acked (state : main.mState = .countDown) (next : main.mNext = .idle)
      (acked : main.ackRefreshRequest = true) (soon : age + counts main.mCount ≤ 21) (paid : owed = 0)
  | leaving (state : main.mState = .idle) (none : requested = false)
      (acked : main.ackRefreshRequest = true) (soon : age ≤ 21) (paid : owed = 0)

variable {input : MainInput} {main : MainFsm} {queue : List Entry} {row : BitVec 15} {age owed : Nat}

/-- A refresh is acknowledged when it is sent. -/
theorem MainFsm.unacked_step (input : MainInput) (other : main.mState ≠ .autoRefresh)
    (unacked : main.ackRefreshRequest = false) : (main.step input).ackRefreshRequest = false := by
  cases state : main.mState with
  | idle =>
    rw [MainFsm.step_idle state, MainFsm.idle]
    split_ifs <;> first | rfl | exact unacked
  | read =>
    rw [MainFsm.step_read state, MainFsm.read, MainFsm.continued]
    split_ifs <;> exact unacked
  | write =>
    rw [MainFsm.step_write state, MainFsm.write, MainFsm.continued]
    split_ifs <;> exact unacked
  | rowOpen =>
    rw [MainFsm.step_rowOpen state, MainFsm.rowOpen]
    split_ifs <;> exact unacked
  | activate => rwa [MainFsm.step_activate state]
  | countDown => rwa [MainFsm.step_countDown state]
  | close => rwa [MainFsm.step_close state]
  | precharge => rwa [MainFsm.step_precharge state]
  | autoRefresh => exact absurd state other

/-- The acknowledgement is taken back in the next idle cycle. -/
theorem MainFsm.unacked_idle (input : MainInput) (state : main.mState = .idle)
    (done : input.initDone = true) : (main.step input).ackRefreshRequest = false := by
  rw [MainFsm.step_idle state, MainFsm.idle, if_pos done]
  split_ifs <;> rfl

/-- An edge of the clock. A new request finds the last one answered. -/
theorem Refreshes.step (refreshes : Refreshes main input.refreshRequest age owed)
    (phase : Phase main queue row input.refreshRequest) (done : input.initDone = true) :
    ¬ (age = 1116 ∧ input.refreshRequest = true) ∧
      ∃ owed', Refreshes (main.step input)
          ((age == 1116 || input.refreshRequest) && !main.ackRefreshRequest)
          (if age = 1116 then 0 else age + 1) owed' ∧
        owed' + (if main.mState = .autoRefresh then 1 else 0) = owed + if age = 1116 then 1 else 0 := by
  cases refreshes with
  | resting none unacked other near paid =>
    have elsewhere : main.mState ≠ .autoRefresh := fun state => other (.inl state)
    have unacked' := main.unacked_step input elsewhere unacked
    have near' : (main.step input).edgesToRefresh ≤ 12 := by
      obtain shorter | ⟨-, near'⟩ := phase.edgesToRefresh_step done elsewhere
      · omega
      · exact near'
    rw [none, unacked, Bool.or_false, if_neg elsewhere]
    refine ⟨by simp, ?_⟩
    by_cases due : age = 1116
    · refine ⟨1, .due (by simp [due]) unacked' ?_ rfl, by rw [paid, if_pos due]⟩
      rwa [if_pos due, Nat.zero_add]
    · exact ⟨0, .resting (by simp [due]) unacked' (phase.unrefreshing_step none other) near' rfl,
        by rw [paid, if_neg due]⟩
  | due asked unacked soon owes =>
    have young : age ≠ 1116 := by omega
    rw [asked, unacked, if_neg young, if_neg young, Bool.or_true]
    refine ⟨fun both => young both.1, ?_⟩
    by_cases state : main.mState = .autoRefresh
    · have one : main.edgesToRefresh = 1 := by
        rw [MainFsm.edgesToRefresh, state]
        rfl
      rw [if_pos state, MainFsm.step_autoRefresh state]
      refine ⟨0, .acked rfl rfl rfl ?_ rfl, by rw [owes]⟩
      change age + 1 + 9 ≤ 21
      omega
    · obtain shorter | ⟨unasked, -⟩ := phase.edgesToRefresh_step done state
      · rw [if_neg state]
        exact ⟨1, .due rfl (main.unacked_step input state unacked) (by omega) rfl, by rw [owes]⟩
      · rw [asked] at unasked
        cases unasked
  | acked state next acked soon paid =>
    have count := counts_step main.mCount
    have young : age ≠ 1116 := by omega
    rw [acked, if_neg young, if_neg young, if_neg (by simp [state]), Bool.not_true, Bool.and_false,
      MainFsm.step_countDown state]
    refine ⟨fun both => young both.1, 0, ?_, by rw [paid]⟩
    by_cases counting : 1 < main.mCount
    · rw [if_pos counting] at count
      refine .acked (if_pos counting) next acked ?_ rfl
      rw [show (main.countDown input).mCount = main.mCount - 1 from if_pos counting]
      omega
    · rw [if_neg counting] at count
      exact .leaving ((if_neg counting).trans next) rfl acked (by omega) rfl
  | leaving state none acked soon paid =>
    have young : age ≠ 1116 := by omega
    have elsewhere : main.mState ≠ .autoRefresh := by
      rw [state]
      decide
    rw [acked, if_neg young, if_neg young, if_neg elsewhere, Bool.not_true, Bool.and_false]
    refine ⟨fun both => young both.1, 0, .resting rfl (main.unacked_idle input state done) ?_ ?_ rfl, by
      rw [paid]⟩
    · refine phase.unrefreshing_step none ?_
      rintro (refreshing | ⟨counting, -⟩)
      · exact elsewhere refreshing
      · rw [state] at counting
        cases counting
    · have five : main.edgesToRefresh = 5 := by
        rw [MainFsm.edgesToRefresh, state]
        rfl
      obtain shorter | ⟨-, near⟩ := phase.edgesToRefresh_step done elsewhere
      · omega
      · exact near

/-- No more than one is owed. -/
theorem Refreshes.owed_le {requested : Bool} (refreshes : Refreshes main requested age owed) :
    owed ≤ 1 := by
  cases refreshes with
  | due _ _ _ owes => exact owes.le
  | resting _ _ _ _ paid | acked _ _ _ _ paid | leaving _ _ _ _ paid => omega

/-- After twelve cycles nothing is owed any more. -/
theorem Refreshes.paid {requested : Bool} (refreshes : Refreshes main requested age owed)
    (old : 12 ≤ age) : owed = 0 := by
  cases refreshes with
  | resting _ _ _ _ paid | acked _ _ _ _ paid | leaving _ _ _ _ paid => exact paid
  | due _ _ soon _ =>
    have positive : 0 < main.edgesToRefresh := by
      rw [MainFsm.edgesToRefresh]
      cases main.mState <;> simp [SdramController.edgesToRefresh, counts]
    omega

/-- After twenty-two cycles the acknowledgement has been taken back. -/
theorem Refreshes.unacked {requested : Bool} (refreshes : Refreshes main requested age owed)
    (old : 22 ≤ age) : main.ackRefreshRequest = false := by
  cases refreshes with
  | resting _ unacked _ _ _ | due _ unacked _ _ => exact unacked
  | acked _ _ _ soon _ | leaving _ _ _ soon _ => omega

end Answers

section Runs

variable (inputs : Nat → Input) (start : System)

/-- The refresh counter after the delay. -/
theorem counter_later (later : Nat) :
    (circuit inputs start (14287 + later)).controller.refresh.refreshCounter =
      BitVec.ofNat 14 (1116 - later % 1117) := by
  induction later with
  | zero =>
    have counted := delay_counts inputs start (Nat.le_refl 14286)
    rw [show 14287 + 0 = 14286 + 1 from rfl, circuit_succ]
    generalize circuit inputs start 14286 = system at counted
    exact if_pos counted
  | succ later inductionHypothesis =>
    rw [show 14287 + (later + 1) = 14287 + later + 1 from rfl, circuit_succ]
    generalize circuit inputs start (14287 + later) = system at inductionHypothesis
    change (if system.controller.refresh.refreshCounter = 0 then 1116
      else system.controller.refresh.refreshCounter - 1) = _
    rw [inductionHypothesis]
    split_ifs with ended
    · rw [show (later + 1) % 1117 = 0 by bv_omega]
      rfl
    · bv_omega

/-- It is zero at the end of each period. -/
theorem counter_zero (later : Nat) :
    ((circuit inputs start (14287 + later)).controller.refresh.refreshCounter == 0) =
      (later % 1117 == 1116) := by
  rw [counter_later, Bool.eq_iff_iff, beq_iff_eq, beq_iff_eq]
  constructor <;> bv_omega

/-- Nothing is asked for before the end of the initialisation. -/
theorem request_early {cycle : Nat} (early : cycle ≤ 14316) :
    (circuit inputs start cycle).controller.refresh.refreshRequest = false := by
  cases cycle with
  | zero => rfl
  | succ cycle =>
    have unfinished : (circuit inputs start cycle).controller.init.initDone = false := by
      rw [← Bool.not_eq_true, done_iff]
      omega
    rw [circuit_succ]
    generalize circuit inputs start cycle = system at unfinished
    change (_ && system.controller.init.initDone) = false
    rw [unfinished, Bool.and_false]

/-- Nor is anything acknowledged. -/
theorem unacked_early {cycle : Nat} (early : cycle ≤ 14316) :
    (circuit inputs start cycle).controller.main.ackRefreshRequest = false := by
  induction cycle with
  | zero => rfl
  | succ cycle inductionHypothesis =>
    have unfinished : (circuit inputs start cycle).controller.init.initDone = false := by
      rw [← Bool.not_eq_true, done_iff]
      omega
    have idle := (works inputs start cycle).loads.waits unfinished
    exact MainFsm.unacked_step _ (by simp [idle]) (inductionHypothesis (by omega))

/-- A refresh comes from its state. -/
theorem System.Serves.refresh_iff {system : System} (serves : system.Serves)
    (done : system.controller.init.initDone = true) (input : Input) :
    commandOf (system.step input).controller.main.mCmd = .autoRefresh ↔
      system.controller.main.mState = .autoRefresh := by
  constructor
  · exact fun shows => @System.Serves.sends system serves done input .refresh shows
  · intro state
    have commands : commandOf (system.controller.main.step system.controller.mainInput).mCmd = _ :=
      @Phase.commands system.controller.mainInput _ _ _ serves.phase
    rw [MainFsm.commanded, state] at commands
    exact commands

/-- The request register after an edge. -/
theorem System.request_step {system : System} (done : system.controller.init.initDone = true) {age : Nat}
    (zero : (system.controller.refresh.refreshCounter == 0) = (age == 1116)) (input : Input) :
    (system.step input).controller.refresh.refreshRequest =
      ((age == 1116 || system.controller.refresh.refreshRequest) &&
        !system.controller.main.ackRefreshRequest) := by
  change (_ && _ && system.controller.init.initDone) = _
  rw [zero, done, Bool.and_true]

/-- The step of the whole system. -/
theorem System.Serves.refreshes {system : System} (serves : system.Serves)
    (done : system.controller.init.initDone = true) {age owed : Nat}
    (zero : (system.controller.refresh.refreshCounter == 0) = (age == 1116))
    (refreshes : Refreshes system.controller.main system.controller.refresh.refreshRequest age owed)
    (input : Input) :
    (system.step input).controller.refresh.zaCannotrefresh = false ∧
      ∃ owed', Refreshes (system.step input).controller.main
          (system.step input).controller.refresh.refreshRequest
          (if age = 1116 then 0 else age + 1) owed' ∧
        owed' + (if commandOf (system.step input).controller.main.mCmd = .autoRefresh then 1 else 0) =
          owed + if age = 1116 then 1 else 0 := by
  obtain ⟨found, owed', refreshes', balance⟩ :=
    @Refreshes.step system.controller.mainInput _ _ _ _ _ refreshes serves.phase done
  constructor
  · change (system.controller.refresh.refreshCounter == 0 && system.controller.refresh.refreshRequest) =
      false
    rw [zero, Bool.eq_false_iff, ne_eq, Bool.and_eq_true, beq_iff_eq]
    exact found
  · refine ⟨owed', ?_, by rw [← balance]; simp only [serves.refresh_iff done input]⟩
    rw [System.request_step done zero input]
    exact refreshes'

/-- The refreshes on the pins after the initialisation, up to a cycle. -/
def refreshed (cycle : Nat) : Nat :=
  Clocked.occurrences (fun cycle => command inputs start cycle = .autoRefresh) 14317 (cycle + 1)

/-- The age of the last request, and their number, after an edge. -/
theorem next_age (later : Nat) :
    (if later % 1117 = 1116 then 0 else later % 1117 + 1) = (later + 1) % 1117 ∧
      later / 1117 + (if later % 1117 = 1116 then 1 else 0) = (later + 1) / 1117 := by
  split_ifs <;> omega

/-- The requests and the refreshes up to a cycle differ by what is owed. -/
theorem refreshes_later (later : Nat) :
    ∃ owed, Refreshes (circuit inputs start (14316 + later)).controller.main
        (circuit inputs start (14316 + later)).controller.refresh.refreshRequest
        ((29 + later) % 1117) owed ∧
      refreshed inputs start (14316 + later) + owed = (29 + later) / 1117 := by
  induction later with
  | zero =>
    obtain ⟨-, -, idle⟩ := command_start inputs start (Nat.le_refl 28)
    rw [show 14288 + 28 = 14316 + 0 from rfl] at idle
    refine ⟨0, .resting (request_early inputs start (by omega)) (unacked_early inputs start (by omega))
      ?_ ?_ rfl, ?_⟩
    · rintro (refreshing | ⟨counting, -⟩)
      · rw [idle] at refreshing
        cases refreshing
      · rw [idle] at counting
        cases counting
    · rw [MainFsm.edgesToRefresh, idle]
      exact (show 5 ≤ 12 by omega)
    · rw [refreshed, Clocked.occurrences_self]
  | succ later inductionHypothesis =>
    obtain ⟨owed, refreshes, balance⟩ := inductionHypothesis
    have zero := counter_zero inputs start (29 + later)
    rw [show 14287 + (29 + later) = 14316 + later by omega] at zero
    obtain ⟨-, owed', refreshes', balance'⟩ := (works inputs start (14316 + later)).serves.refreshes
      ((done_iff inputs start (14316 + later)).mpr (by omega)) zero refreshes (inputs (14316 + later))
    obtain ⟨age, due⟩ := next_age (29 + later)
    rw [age] at refreshes'
    refine ⟨owed', refreshes', ?_⟩
    have counted : refreshed inputs start (14316 + (later + 1)) = refreshed inputs start (14316 + later) +
        if command inputs start (14316 + later + 1) = .autoRefresh then 1 else 0 :=
      Clocked.occurrences_succ _ 14317 (14316 + later + 1) (by omega)
    rw [counted]
    change _ + (if command inputs start (14316 + later + 1) = .autoRefresh then 1 else 0) = _ at balance'
    omega

/-- A refresh is sent for each request, and within twelve cycles. -/
theorem refreshed_bounds {cycle : Nat} (late : 14316 ≤ cycle) :
    refreshed inputs start cycle ≤ (cycle - 14287) / 1117 ∧
      (cycle - 14287) / 1117 ≤ refreshed inputs start cycle + 1 ∧
      (12 ≤ (cycle - 14287) % 1117 → refreshed inputs start cycle = (cycle - 14287) / 1117) := by
  obtain ⟨later, rfl⟩ := Nat.exists_eq_add_of_le late
  obtain ⟨owed, refreshes, balance⟩ := refreshes_later inputs start later
  have small := refreshes.owed_le
  have paid := refreshes.paid
  rw [show 14316 + later - 14287 = 29 + later by omega]
  refine ⟨by omega, by omega, fun old => ?_⟩
  rwa [paid old, Nat.add_zero] at balance

/-- The counter never finds a request that is still open. -/
theorem refresh_kept (cycle : Nat) :
    (circuit inputs start cycle).controller.refresh.zaCannotrefresh = false := by
  cases cycle with
  | zero => rfl
  | succ cycle =>
    by_cases late : 14316 ≤ cycle
    · obtain ⟨later, rfl⟩ := Nat.exists_eq_add_of_le late
      obtain ⟨owed, refreshes, -⟩ := refreshes_later inputs start later
      have zero := counter_zero inputs start (29 + later)
      rw [show 14287 + (29 + later) = 14316 + later by omega] at zero
      exact ((works inputs start (14316 + later)).serves.refreshes
        ((done_iff inputs start (14316 + later)).mpr late) zero refreshes (inputs (14316 + later))).1
    · have early := request_early inputs start (show cycle ≤ 14316 by omega)
      rw [circuit_succ]
      generalize circuit inputs start cycle = system at early
      change (_ && system.controller.refresh.refreshRequest) = false
      rw [early, Bool.and_false]

/-- The next refresh is not far. -/
theorem refresh_follows {cycle : Nat} (late : 14316 ≤ cycle) :
    ∃ later, cycle < later ∧ later ≤ cycle + 1129 ∧ command inputs start later = .autoRefresh := by
  by_contra absent
  have none (later : Nat) (after : cycle + 1 ≤ later) (before : later < cycle + 1129 + 1) :
      ¬ command inputs start later = .autoRefresh :=
    fun shown => absent ⟨later, by omega, by omega, shown⟩
  have stretch := Clocked.occurrences_add (fun cycle => command inputs start cycle = .autoRefresh)
    14317 (cycle + 1) (cycle + 1129 + 1) (by omega) (by omega)
  rw [Clocked.occurrences_none _ (cycle + 1) _ none, Nat.add_zero, ← refreshed, ← refreshed] at stretch
  have now := refreshed_bounds inputs start late
  have then' := refreshed_bounds inputs start (show 14316 ≤ cycle + 1129 by omega)
  omega

/-- The counter is at zero every 1117 cycles, and a request is then raised. -/
theorem counter_asks {cycle : Nat} (late : 14316 ≤ cycle) :
    ((circuit inputs start cycle).controller.refresh.refreshCounter = 0 ↔ (cycle - 14287) % 1117 = 1116) ∧
      ((circuit inputs start cycle).controller.refresh.refreshCounter = 0 →
        (circuit inputs start (cycle + 1)).controller.refresh.refreshRequest = true) := by
  obtain ⟨later, rfl⟩ := Nat.exists_eq_add_of_le late
  obtain ⟨owed, refreshes, -⟩ := refreshes_later inputs start later
  have zero := counter_zero inputs start (29 + later)
  rw [show 14287 + (29 + later) = 14316 + later by omega] at zero
  have schedule : (circuit inputs start (14316 + later)).controller.refresh.refreshCounter = 0 ↔
      (29 + later) % 1117 = 1116 := by
    rw [← beq_iff_eq, zero, beq_iff_eq]
  rw [show 14316 + later - 14287 = 29 + later by omega]
  refine ⟨schedule, fun counted => ?_⟩
  have age := schedule.mp counted
  have done := (done_iff inputs start (14316 + later)).mpr (by omega)
  rw [circuit_succ, System.request_step done zero, refreshes.unacked (by omega), age]
  rfl

/-- For all requests, from any values of the registers before the reset: no refresh is
lost; the counter asks for one every 1117 cycles; each of these requests is answered by
one refresh within twelve cycles; and the next refresh is at most 1129 cycles away. -/
theorem refreshes_regular :
    (∀ cycle, (circuit inputs start cycle).controller.refresh.zaCannotrefresh = false) ∧
    (∀ cycle, 14316 ≤ cycle →
      ((circuit inputs start cycle).controller.refresh.refreshCounter = 0 ↔ (cycle - 14287) % 1117 = 1116) ∧
      ((circuit inputs start cycle).controller.refresh.refreshCounter = 0 →
        (circuit inputs start (cycle + 1)).controller.refresh.refreshRequest = true)) ∧
    (∀ cycle, 14316 ≤ cycle →
      refreshed inputs start cycle ≤ (cycle - 14287) / 1117 ∧
      (cycle - 14287) / 1117 ≤ refreshed inputs start cycle + 1 ∧
      (12 ≤ (cycle - 14287) % 1117 → refreshed inputs start cycle = (cycle - 14287) / 1117)) ∧
    ∀ cycle, 14316 ≤ cycle →
      ∃ later, cycle < later ∧ later ≤ cycle + 1129 ∧ command inputs start later = .autoRefresh :=
  ⟨refresh_kept inputs start, fun _ late => counter_asks inputs start late,
    fun _ late => refreshed_bounds inputs start late, fun _ late => refresh_follows inputs start late⟩

end Runs

end CpenLabs.SdramController
