import CpenLabs.StaleKeyCode
import CpenLabs.RingBuffer

/-!
# The keys on the LCD

`Write_Kbd_To_Scope_LCD` shows the codes of the latest keys in sixteen registers, one of
which is enabled. For each key the enable is rotated to the next lower register on the
rising edge of one state bit, and the code is loaded on the rising edge of another, one
clock later.

A key is accepted when its pulse finds the machine in `idle`. The registers are a ring
in the sense of `RingBuffer`: the place of a key follows from its number alone, and the
ring has sixteen places.

The state bits are registers, so the edges of `state[4]`, `state[6]` and `state[8]` are
those of the state as it is clocked, without glitches. Nothing is assumed of the enable
or of the sixteen registers at power-up. The reset input is tied high.
-/

namespace CpenLabs.LcdKeyRing

open Clocked RingBuffer
open KbdCtrl (Byte)
open StaleKeyCode (LcdState)

/-- `wire update_scope_LCD_reg = state[4]`. -/
def updateScopeLcdReg (state : LcdState) : Bool := state.encoding.getLsbD 4

/-- `wire change_clk_enable = state[6]`. -/
def changeClkEnable (state : LcdState) : Bool := state.encoding.getLsbD 6

/-- `wire init_clk_enable = state[8]`. -/
def initClkEnable (state : LcdState) : Bool := state.encoding.getLsbD 8

/-- A bit of the state rises with a clock edge. -/
def rises (bit : LcdState → Bool) (state next : LcdState) : Bool := bit next && !bit state

/-- The registers of `Write_Kbd_To_Scope_LCD`. -/
structure Circuit where
  state : LcdState
  scopeLcdRegClkEnable : BitVec 16
  scopeInfoReg : Fin 16 → Byte

/-- The synchronized pulse in a cycle, and the code at the edge that ends it. -/
structure Input where
  actualKbdReady : Bool
  kbdAsciiData : Byte

/-- `{scope_LCD_reg_clk_enable[0], scope_LCD_reg_clk_enable[15:1]}`. -/
def rotated (enable : BitVec 16) : BitVec 16 := BitVec.ofBool (enable.getLsbD 0) ++ enable.extractLsb 15 1

/-- The enable is clocked by `change_clk_enable` and preset by `init_clk_enable`. -/
def nextClkEnable (state next : LcdState) (enable : BitVec 16) : BitVec 16 :=
  if rises changeClkEnable state next || rises initClkEnable state next then
    if initClkEnable next then BitVec.ofNat 16 (2 ^ (16 - 1)) else rotated enable
  else enable

/-- The sixteen registers are clocked by `update_scope_LCD_reg`; the enabled one loads. -/
def nextScopeInfo (state next : LcdState) (enable : BitVec 16) (data : Byte) (scopeInfo : Fin 16 → Byte) :
    Fin 16 → Byte := fun place =>
  if rises updateScopeLcdReg state next then
    if enable.getLsbD place then data else scopeInfo place
  else scopeInfo place

/-- The rising edge of the clock, and the edges of the state bits that follow it. -/
def step (input : Input) (circuit : Circuit) : Circuit where
  state := circuit.state.step input.actualKbdReady
  scopeLcdRegClkEnable :=
    nextClkEnable circuit.state (circuit.state.step input.actualKbdReady) circuit.scopeLcdRegClkEnable
  scopeInfoReg :=
    nextScopeInfo circuit.state (circuit.state.step input.actualKbdReady) circuit.scopeLcdRegClkEnable
      input.kbdAsciiData circuit.scopeInfoReg

/-- The register of a key, `(15 - number) mod 16`. -/
def slot (number : Nat) : Fin 16 := 15 - Fin.ofNat 16 number

/-- The enable with the bit of one register. -/
def hot (number : Nat) : BitVec 16 := BitVec.twoPow 16 (slot number)

/-- Exactly one bit is set. -/
def OneHot (enable : BitVec 16) : Prop := ∃! place : Fin 16, enable.getLsbD place = true

/-- The registers go downwards, and from the lowest to the highest. -/
theorem slot_val (number : Nat) : (slot number).val = (31 - number % 16) % 16 := by
  simp only [slot, Fin.sub_def, Fin.ofNat]
  omega

/-- The slot is the remainder that it is said to be. -/
theorem slot_emod (number : Nat) : ((slot number).val : Int) = (15 - number) % 16 := by
  rw [slot_val]
  omega

/-- The ring is filled downwards. -/
theorem slot_succ (number : Nat) : slot (number + 1) = slot number - 1 := by
  apply Fin.ext
  rw [Fin.sub_def, slot_val]
  simp only [slot_val]
  omega

/-- Counted upwards from the register of a key come those of the keys before it. -/
theorem slot_back (number : Nat) (back : Fin 16) (present : back.val < number) :
    slot number + back = slot (number - back) := by
  apply Fin.ext
  rw [Fin.val_add, slot_val, slot_val]
  omega

/-- The registers before them are those of no key so far. -/
theorem slot_untouched (number : Nat) (back : Fin 16) (beyond : number ≤ back.val) (other : Nat)
    (positive : 0 < other) (accepted : other ≤ number) : slot number + back ≠ slot other := by
  intro same
  have equal : (slot number + back).val = (slot other).val := congrArg Fin.val same
  rw [Fin.val_add, slot_val, slot_val] at equal
  omega

/-- Sixteen consecutive keys have registers of their own. -/
theorem slot_apart : Apart slot 16 := by
  intro early late ordered near same
  have equal : (slot early).val = (slot late).val := congrArg Fin.val same
  rw [slot_val, slot_val] at equal
  omega

/-- The shift register begins at the first slot. -/
theorem hot_zero : BitVec.ofNat 16 (2 ^ (16 - 1)) = hot 0 := by decide

/-- A rotation moves the bit by one register. -/
theorem rotated_hot (number : Nat) : rotated (hot number) = hot (number + 1) := by
  have moved : ∀ place : Fin 16, rotated (BitVec.twoPow 16 place) = BitVec.twoPow 16 (place - 1).val := by
    decide
  rw [hot, moved, hot, slot_succ]

/-- One register is enabled, and no other. -/
theorem hot_getLsbD (number : Nat) (place : Fin 16) :
    (hot number).getLsbD place = decide (place = slot number) := by
  rw [hot, BitVec.getLsbD_twoPow, decide_eq_true (slot number).isLt, Bool.true_and]
  exact decide_eq_decide.mpr ⟨fun same => Fin.ext same.symm, fun same => congrArg Fin.val same.symm⟩

/-- A slot has one bit. -/
theorem hot_oneHot (number : Nat) : OneHot (hot number) := by
  refine ⟨slot number, ?_, fun place enabled => ?_⟩
  · exact (hot_getLsbD number (slot number)).trans (decide_eq_true rfl)
  · exact of_decide_eq_true ((hot_getLsbD number place).symm.trans enabled)

/-- Where a register is enabled, a rise of `update_scope_LCD_reg` loads that register. -/
theorem nextScopeInfo_hot (state next : LcdState) (number : Nat) (data : Byte) (scopeInfo : Fin 16 → Byte)
    (loads : rises updateScopeLcdReg state next = true) :
    nextScopeInfo state next (hot number) data scopeInfo = Function.update scopeInfo (slot number) data := by
  funext place
  rw [nextScopeInfo, if_pos loads, hot_getLsbD, Function.update_apply]
  exact if_congr (decide_eq_true_iff) rfl rfl

/-- The states in which the keys that have been accepted are all stored. -/
def Settled (state : LcdState) : Prop := state ≠ .convertToAsciiNow ∧ state ≠ .lcdEnableChangeState

instance (state : LcdState) : Decidable (Settled state) := inferInstanceAs (Decidable (_ ∧ _))

/-- From a settled state, the first one apart, neither the enable nor a register is clocked. -/
theorem settled_quiet (state : LcdState) (settled : Settled state) (later : state ≠ .initState) (pulse : Bool) :
    rises changeClkEnable state (state.step pulse) = false ∧
      rises initClkEnable state (state.step pulse) = false ∧
      rises updateScopeLcdReg state (state.step pulse) = false := by
  cases state with
  | initState => exact absurd rfl later
  | convertToAsciiNow => exact absurd rfl settled.1
  | lcdEnableChangeState => exact absurd rfl settled.2
  | initScopeLcdReg | idle | lcdByteChangeValueState | clearKbdData | finished => cases pulse <;> decide

/-- It is left for an unsettled one with a pulse in `idle` only. -/
theorem settled_step (state : LcdState) (settled : Settled state) (pulse : Bool)
    (ignored : ¬ (state = .idle ∧ pulse = true)) : Settled (state.step pulse) := by
  cases state with
  | idle =>
    have silent : pulse = false := by simpa using ignored
    rw [silent]
    decide
  | convertToAsciiNow => exact absurd rfl settled.1
  | lcdEnableChangeState => exact absurd rfl settled.2
  | initState | initScopeLcdReg | lcdByteChangeValueState | clearKbdData | finished =>
    exact ⟨LcdState.noConfusion, LcdState.noConfusion⟩

/-- The first state is never entered again. -/
theorem step_ne_initState (state : LcdState) (pulse : Bool) : state.step pulse ≠ .initState := by
  cases state <;> cases pulse <;> decide

/-- How many clocks ago the key was accepted that is being handled; zero where there is none. -/
def age : LcdState → Nat
  | .convertToAsciiNow => 1
  | .lcdEnableChangeState => 2
  | .lcdByteChangeValueState => 3
  | .clearKbdData => 4
  | .finished => 5
  | _ => 0

/-- A key is handled in five states, one after the other. -/
theorem age_step (state : LcdState) (pulse : Bool) (handled : age (state.step pulse) ≠ 0) :
    state = .idle ∧ pulse = true ∧ age (state.step pulse) = 1 ∨
      age state ≠ 0 ∧ age (state.step pulse) = age state + 1 := by
  cases state <;> cases pulse <;> revert handled <;> decide

/-- No state is more than five clocks old. -/
theorem age_le (state : LcdState) : age state ≤ 5 := by
  cases state <;> decide

/-- The age of a key that is being handled tells the state. -/
theorem age_eq_iff (state other : LcdState) (handled : age other ≠ 0) : age state = age other ↔ state = other := by
  revert handled
  cases state <;> cases other <;> decide

/-- From its third clock on the key is stored. -/
theorem settled_of_age (state : LcdState) (late : 3 ≤ age state) : Settled state := by
  revert late
  cases state <;> decide

/-- The states of a service follow one another whatever arrives. -/
theorem age_next (state : LcdState) (pulse : Bool) (begun : age state ≠ 0) (unfinished : age state ≠ 5) :
    age (state.step pulse) = age state + 1 := by
  cases state <;> first | rfl | exact absurd rfl begun | exact absurd rfl unfinished

section Runs

variable (inputs : Nat → Input) (start : Circuit)

/-- The registers in each cycle. -/
abbrev circuit (cycle : Nat) : Circuit := run step inputs start cycle

/-- The pulse of a key finds the machine in `idle`. -/
def Accepted (cycle : Nat) : Prop :=
  (circuit inputs start cycle).state = .idle ∧ (inputs cycle).actualKbdReady = true

instance : DecidablePred (Accepted inputs start) := fun _ => inferInstanceAs (Decidable (_ ∧ _))

/-- The codes of the keys accepted before a cycle, the latest first. The code of a key is
the one at the edge that takes the machine into `LCD_byte_change_value_state`, which is
the second one after the edge that accepts the key. -/
def keys : Nat → List Byte
  | 0 => []
  | cycle + 1 =>
    if Accepted inputs start cycle then (inputs (cycle + 2)).kbdAsciiData :: keys cycle else keys cycle

/-- What the enable and the sixteen registers hold, by the state of the machine. -/
inductive Phase (cycle : Nat) : Prop
  /-- Power-up. -/
  | starting (first : (circuit inputs start cycle).state = .initState) (none : keys inputs start cycle = [])
      (holds : (circuit inputs start cycle).scopeInfoReg = start.scopeInfoReg)
  /-- All keys are stored, and the register of the last one is still enabled. -/
  | stored (settled : Settled (circuit inputs start cycle).state)
      (later : (circuit inputs start cycle).state ≠ .initState)
      (enable : (circuit inputs start cycle).scopeLcdRegClkEnable = hot (keys inputs start cycle).length)
      (holds : (circuit inputs start cycle).scopeInfoReg =
        written slot start.scopeInfoReg (keys inputs start cycle))
  /-- A key has been accepted. -/
  | converting (older : List Byte) (converts : (circuit inputs start cycle).state = .convertToAsciiNow)
      (latest : keys inputs start cycle = (inputs (cycle + 1)).kbdAsciiData :: older)
      (enable : (circuit inputs start cycle).scopeLcdRegClkEnable = hot older.length)
      (holds : (circuit inputs start cycle).scopeInfoReg = written slot start.scopeInfoReg older)
  /-- The register of the key has been enabled. -/
  | enabled (older : List Byte) (enables : (circuit inputs start cycle).state = .lcdEnableChangeState)
      (latest : keys inputs start cycle = (inputs cycle).kbdAsciiData :: older)
      (enable : (circuit inputs start cycle).scopeLcdRegClkEnable = hot (older.length + 1))
      (holds : (circuit inputs start cycle).scopeInfoReg = written slot start.scopeInfoReg older)

variable {inputs start}

/-- A key that is accepted is the newest. -/
theorem keys_accepted {cycle : Nat} (accepted : Accepted inputs start cycle) :
    keys inputs start (cycle + 1) = (inputs (cycle + 2)).kbdAsciiData :: keys inputs start cycle := if_pos accepted

/-- Other cycles bring none. -/
theorem keys_ignored {cycle : Nat} (ignored : ¬ Accepted inputs start cycle) :
    keys inputs start (cycle + 1) = keys inputs start cycle := if_neg ignored

/-- Outside `idle` no key is accepted. -/
theorem keys_busy {cycle : Nat} (busy : (circuit inputs start cycle).state ≠ .idle) :
    keys inputs start (cycle + 1) = keys inputs start cycle :=
  keys_ignored fun accepted => busy accepted.1

/-- The keys are numbered as they are accepted. -/
theorem keys_length (cycle : Nat) :
    (keys inputs start cycle).length = occurrences (Accepted inputs start) 0 cycle := by
  induction cycle with
  | zero => rfl
  | succ cycle inductionHypothesis =>
    rw [occurrences_succ _ 0 cycle (Nat.zero_le cycle), ← inductionHypothesis]
    by_cases accepted : Accepted inputs start cycle
    · rw [keys_accepted accepted, if_pos accepted, List.length_cons]
    · rw [keys_ignored accepted, if_neg accepted, Nat.add_zero]

/-- The state after a cycle. -/
theorem state_succ (cycle : Nat) :
    (circuit inputs start (cycle + 1)).state =
      (circuit inputs start cycle).state.step (inputs cycle).actualKbdReady := rfl

/-- The enable bits after a cycle. -/
theorem enable_succ (cycle : Nat) :
    (circuit inputs start (cycle + 1)).scopeLcdRegClkEnable =
      nextClkEnable (circuit inputs start cycle).state (circuit inputs start (cycle + 1)).state
        (circuit inputs start cycle).scopeLcdRegClkEnable := rfl

/-- The registers of the keys after a cycle. -/
theorem scopeInfo_succ (cycle : Nat) :
    (circuit inputs start (cycle + 1)).scopeInfoReg =
      nextScopeInfo (circuit inputs start cycle).state (circuit inputs start (cycle + 1)).state
        (circuit inputs start cycle).scopeLcdRegClkEnable (inputs cycle).kbdAsciiData
        (circuit inputs start cycle).scopeInfoReg := rfl

/-- The first step presets the enable. -/
theorem starting_succ {cycle : Nat} (first : (circuit inputs start cycle).state = .initState)
    (none : keys inputs start cycle = [])
    (holds : (circuit inputs start cycle).scopeInfoReg = start.scopeInfoReg) :
    Phase inputs start (cycle + 1) := by
  have next : (circuit inputs start (cycle + 1)).state = .initScopeLcdReg := by
    rw [state_succ, first]
    rfl
  have noKey : keys inputs start (cycle + 1) = [] :=
    (keys_busy (by rw [first]; exact LcdState.noConfusion)).trans none
  apply Phase.stored
  · rw [next]
    decide
  · exact step_ne_initState _ _
  · rw [noKey, enable_succ, first, next]
    exact hot_zero
  · rw [noKey, scopeInfo_succ, first, next, holds]
    rfl

/-- While all keys are stored nothing is clocked, whether a key is accepted or not. -/
theorem stored_succ {cycle : Nat} (settled : Settled (circuit inputs start cycle).state)
    (later : (circuit inputs start cycle).state ≠ .initState)
    (enable : (circuit inputs start cycle).scopeLcdRegClkEnable = hot (keys inputs start cycle).length)
    (holds : (circuit inputs start cycle).scopeInfoReg =
      written slot start.scopeInfoReg (keys inputs start cycle)) :
    Phase inputs start (cycle + 1) := by
  obtain ⟨noChange, noInit, noUpdate⟩ := settled_quiet _ settled later (inputs cycle).actualKbdReady
  have sameEnable : (circuit inputs start (cycle + 1)).scopeLcdRegClkEnable =
      (circuit inputs start cycle).scopeLcdRegClkEnable := by
    rw [enable_succ, state_succ, nextClkEnable, noChange, noInit]
    rfl
  have sameInfo : (circuit inputs start (cycle + 1)).scopeInfoReg =
      (circuit inputs start cycle).scopeInfoReg := by
    funext place
    rw [scopeInfo_succ, state_succ, nextScopeInfo, noUpdate]
    rfl
  by_cases accepted : Accepted inputs start cycle
  · apply Phase.converting (keys inputs start cycle)
    · rw [state_succ, accepted.1, accepted.2]
      rfl
    · exact keys_accepted accepted
    · rw [sameEnable, enable]
    · rw [sameInfo, holds]
  · apply Phase.stored
    · exact settled_step _ settled _ accepted
    · exact step_ne_initState _ _
    · rw [sameEnable, enable, keys_ignored accepted]
    · rw [sameInfo, holds, keys_ignored accepted]

/-- The enable is rotated to the register of the key. -/
theorem converting_succ {cycle : Nat} (older : List Byte)
    (converts : (circuit inputs start cycle).state = .convertToAsciiNow)
    (latest : keys inputs start cycle = (inputs (cycle + 1)).kbdAsciiData :: older)
    (enable : (circuit inputs start cycle).scopeLcdRegClkEnable = hot older.length)
    (holds : (circuit inputs start cycle).scopeInfoReg = written slot start.scopeInfoReg older) :
    Phase inputs start (cycle + 1) := by
  have next : (circuit inputs start (cycle + 1)).state = .lcdEnableChangeState := by
    rw [state_succ, converts]
    rfl
  apply Phase.enabled older
  · exact next
  · rw [keys_busy (by rw [converts]; exact LcdState.noConfusion), latest]
  · rw [enable_succ, converts, next, enable]
    exact rotated_hot older.length
  · rw [scopeInfo_succ, converts, next, holds]
    rfl

/-- The code is loaded into the register that has been enabled. -/
theorem enabled_succ {cycle : Nat} (older : List Byte)
    (enables : (circuit inputs start cycle).state = .lcdEnableChangeState)
    (latest : keys inputs start cycle = (inputs cycle).kbdAsciiData :: older)
    (enable : (circuit inputs start cycle).scopeLcdRegClkEnable = hot (older.length + 1))
    (holds : (circuit inputs start cycle).scopeInfoReg = written slot start.scopeInfoReg older) :
    Phase inputs start (cycle + 1) := by
  have next : (circuit inputs start (cycle + 1)).state = .lcdByteChangeValueState := by
    rw [state_succ, enables]
    rfl
  have sameKeys := keys_busy (show (circuit inputs start cycle).state ≠ .idle by
    rw [enables]
    exact LcdState.noConfusion)
  apply Phase.stored
  · rw [next]
    decide
  · exact step_ne_initState _ _
  · rw [sameKeys, latest, enable_succ, enables, next, enable]
    rfl
  · rw [sameKeys, latest, scopeInfo_succ, enables, next, enable, holds]
    exact nextScopeInfo_hot _ _ _ _ _ rfl

/-- A key that is being handled has been accepted as many clocks ago as its age says. -/
theorem handled_since (powerUp : start.state = .initState) (cycle : Nat)
    (handled : age (circuit inputs start cycle).state ≠ 0) :
    ∃ accepted, Accepted inputs start accepted ∧ cycle = accepted + age (circuit inputs start cycle).state := by
  induction cycle with
  | zero =>
    exact absurd (congrArg age powerUp) handled
  | succ cycle inductionHypothesis =>
    rw [state_succ] at handled ⊢
    rcases age_step _ _ handled with ⟨idle, pulse, young⟩ | ⟨before, older⟩
    · exact ⟨cycle, ⟨idle, pulse⟩, by rw [young]⟩
    · obtain ⟨accepted, holds, since⟩ := inductionHypothesis before
      refine ⟨accepted, holds, ?_⟩
      rw [older, ← Nat.add_assoc, ← since]

/-- The registers hold what the phases say in every cycle. -/
theorem phase (powerUp : start.state = .initState) (cycle : Nat) : Phase inputs start cycle := by
  induction cycle with
  | zero => exact .starting powerUp rfl rfl
  | succ cycle inductionHypothesis =>
    cases inductionHypothesis with
    | starting first none holds => exact starting_succ first none holds
    | stored settled later enable holds => exact stored_succ settled later enable holds
    | converting older converts latest enable holds => exact converting_succ older converts latest enable holds
    | enabled older enables latest enable holds => exact enabled_succ older enables latest enable holds

/-- Once the machine has left its first state, the enable has the bit of one register. -/
theorem enable_hot (powerUp : start.state = .initState) (cycle : Nat) (started : 0 < cycle) :
    ∃ number, (circuit inputs start cycle).scopeLcdRegClkEnable = hot number := by
  cases phase powerUp cycle with
  | starting first none holds =>
    obtain ⟨before, rfl⟩ := Nat.exists_eq_succ_of_ne_zero started.ne'
    exact absurd first (step_ne_initState _ _)
  | stored settled later enable holds => exact ⟨_, enable⟩
  | converting older converts latest enable holds => exact ⟨_, enable⟩
  | enabled older enables latest enable holds => exact ⟨_, enable⟩

/-- In a settled state all keys are in the ring. -/
theorem scopeInfo_settled (powerUp : start.state = .initState) (cycle : Nat)
    (settled : Settled (circuit inputs start cycle).state) :
    (circuit inputs start cycle).scopeInfoReg = written slot start.scopeInfoReg (keys inputs start cycle) := by
  cases phase powerUp cycle with
  | starting first none holds => rw [none, holds, written_nil]
  | stored settled later enable holds => exact holds
  | converting older converts latest enable holds => exact absurd converts settled.1
  | enabled older enables latest enable holds => exact absurd enables settled.2

/-- In any other state the latest one is missing. -/
theorem scopeInfo_cases (powerUp : start.state = .initState) (cycle : Nat) :
    (circuit inputs start cycle).scopeInfoReg = written slot start.scopeInfoReg (keys inputs start cycle) ∨
      (circuit inputs start cycle).scopeInfoReg =
        written slot start.scopeInfoReg (keys inputs start cycle).tail := by
  cases phase powerUp cycle with
  | starting first none holds =>
    rw [none, holds]
    exact .inl rfl
  | stored settled later enable holds => exact .inl holds
  | converting older converts latest enable holds =>
    rw [latest]
    exact .inr holds
  | enabled older enables latest enable holds =>
    rw [latest]
    exact .inr holds

section Service

variable {accepted : Nat} (pulse : Accepted inputs start accepted)

include pulse

/-- An accepted key is handled without a pause, whatever arrives meanwhile. -/
theorem service_age (during : Nat) (positive : 0 < during) (bound : during ≤ 5) :
    age (circuit inputs start (accepted + during)).state = during := by
  induction during, positive using Nat.le_induction with
  | base =>
    rw [state_succ, pulse.1, pulse.2]
    rfl
  | succ during positive inductionHypothesis =>
    have before := inductionHypothesis (Nat.le_of_succ_le bound)
    rw [← Nat.add_assoc, state_succ]
    rw [age_next _ _ (by omega) (by omega), before]

/-- Meanwhile no other key is accepted. -/
theorem service_keys (during : Nat) (positive : 0 < during) (bound : during ≤ 6) :
    keys inputs start (accepted + during) =
      (inputs (accepted + 2)).kbdAsciiData :: keys inputs start accepted := by
  induction during, positive using Nat.le_induction with
  | base => exact keys_accepted pulse
  | succ during positive inductionHypothesis =>
    have before := service_age pulse during positive (Nat.le_of_succ_le_succ bound)
    rw [← Nat.add_assoc, keys_busy, inductionHypothesis (Nat.le_of_succ_le bound)]
    intro idle
    rw [idle] at before
    exact absurd before (Nat.ne_of_lt positive)

/-- The state of each clock of the service. -/
theorem service_state (state : LcdState) (handled : age state ≠ 0) :
    (circuit inputs start (accepted + age state)).state = state := by
  apply (age_eq_iff _ state handled).mp
  exact service_age pulse (age state) (Nat.pos_of_ne_zero handled) (age_le state)

variable (powerUp : start.state = .initState)

include powerUp

/-- No other register changes while a key is handled. -/
theorem service_kept (other : Fin 16) (different : other ≠ slot ((keys inputs start accepted).length + 1))
    (during : Nat) (bound : during ≤ 6) :
    (circuit inputs start (accepted + during)).scopeInfoReg other =
      (circuit inputs start accepted).scopeInfoReg other := by
  have settled : Settled (circuit inputs start accepted).state := by
    rw [pulse.1]
    decide
  rw [scopeInfo_settled powerUp accepted settled]
  rcases Nat.eq_zero_or_pos during with rfl | positive
  · rw [Nat.add_zero, scopeInfo_settled powerUp accepted settled]
  · have latest := service_keys pulse during positive bound
    rcases scopeInfo_cases powerUp (accepted + during) with all | older
    · rw [all, latest]
      exact written_other _ _ _ _ other different
    · rw [older, latest, List.tail_cons]

/-- From the third clock on the code of the key is in its register. -/
theorem service_stored (during : Nat) (loaded : 3 ≤ during) (bound : during ≤ 5) :
    (circuit inputs start (accepted + during)).scopeInfoReg
        (slot ((keys inputs start accepted).length + 1)) = (inputs (accepted + 2)).kbdAsciiData := by
  have positive : 0 < during := Nat.lt_of_lt_of_le (by decide) loaded
  have aged := service_age pulse during positive bound
  have settled := settled_of_age _ (loaded.trans aged.ge)
  rw [scopeInfo_settled powerUp _ settled, service_keys pulse during positive (Nat.le_succ_of_le bound)]
  exact written_latest _ _ _ _

end Service

variable (inputs start)

/-- How many keys have been accepted before a cycle. -/
def number (cycle : Nat) : Nat := occurrences (Accepted inputs start) 0 cycle

/-- The codes of the keys are shown as in a ring. -/
structure KeyRing : Prop where
  /-- After the first clock one register is enabled. -/
  oneHot : ∀ cycle, 0 < cycle → OneHot (circuit inputs start cycle).scopeLcdRegClkEnable
  /-- The code at the edge into `LCD_byte_change_value_state` is in the register of the key
  from that edge to `finished`. -/
  stored : ∀ cycle, Accepted inputs start cycle →
    (circuit inputs start (cycle + 2)).state = .lcdEnableChangeState ∧
      (circuit inputs start (cycle + 3)).state = .lcdByteChangeValueState ∧
      (circuit inputs start (cycle + 5)).state = .finished ∧
      ∀ during, 3 ≤ during → during ≤ 5 →
        (circuit inputs start (cycle + during)).scopeInfoReg (slot (number inputs start (cycle + 1))) =
          (inputs (cycle + 2)).kbdAsciiData
  /-- No other register changes while the key is handled. -/
  kept : ∀ cycle, Accepted inputs start cycle →
    ∀ other, other ≠ slot (number inputs start (cycle + 1)) → ∀ during, during ≤ 6 →
      (circuit inputs start (cycle + during)).scopeInfoReg other =
        (circuit inputs start cycle).scopeInfoReg other
  /-- The machine comes to `finished` with accepted keys only. -/
  finished : ∀ cycle, (circuit inputs start cycle).state = .finished →
    ∃ accepted, Accepted inputs start accepted ∧ cycle = accepted + 5
  /-- Whenever all accepted keys are stored, the registers from that of the last key
  upwards are the latest keys, the last one first. -/
  latest : ∀ cycle, Settled (circuit inputs start cycle).state →
    (List.ofFn fun back =>
        (circuit inputs start cycle).scopeInfoReg (slot (number inputs start cycle) + back)).take
          (number inputs start cycle) = (keys inputs start cycle).take 16
  /-- While there are fewer than sixteen keys, the other registers are as at the start. -/
  untouched : ∀ cycle, Settled (circuit inputs start cycle).state →
    ∀ back : Fin 16, number inputs start cycle ≤ back.val →
      (circuit inputs start cycle).scopeInfoReg (slot (number inputs start cycle) + back) =
        start.scopeInfoReg (slot (number inputs start cycle) + back)
  /-- The assertions of `reset_kbd_data` are one for each key, after its code has been stored. -/
  acknowledged : ∀ cycle, (circuit inputs start cycle).state.resetKbdData = true ↔
    ∃ accepted, Accepted inputs start accepted ∧ cycle = accepted + 4

variable {inputs start}

/-- An accepted key has the number after those before it. -/
theorem number_accepted {accepted : Nat} (pulse : Accepted inputs start accepted) :
    number inputs start (accepted + 1) = (keys inputs start accepted).length + 1 := by
  rw [number, ← keys_length, keys_accepted pulse, List.length_cons]

/-- In a settled state the ring has been read from the latest key back. -/
theorem settled_latest (powerUp : start.state = .initState) (cycle : Nat)
    (settled : Settled (circuit inputs start cycle).state) :
    (List.ofFn fun back =>
        (circuit inputs start cycle).scopeInfoReg (slot (number inputs start cycle) + back)).take
          (number inputs start cycle) = (keys inputs start cycle).take 16 := by
  rw [scopeInfo_settled powerUp cycle settled, number, ← keys_length]
  exact written_window start.scopeInfoReg slot_apart (keys inputs start cycle) _ (slot_back _)

/-- The slots that no key has reached hold what they held at first. -/
theorem settled_untouched (powerUp : start.state = .initState) (cycle : Nat)
    (settled : Settled (circuit inputs start cycle).state) (back : Fin 16)
    (beyond : number inputs start cycle ≤ back.val) :
    (circuit inputs start cycle).scopeInfoReg (slot (number inputs start cycle) + back) =
      start.scopeInfoReg (slot (number inputs start cycle) + back) := by
  rw [scopeInfo_settled powerUp cycle settled]
  apply written_untouched
  intro other positive accepted
  rw [keys_length] at accepted
  exact slot_untouched _ back beyond other positive accepted

/-- A state of a service is that of an accepted key. -/
theorem handled_iff (powerUp : start.state = .initState) (state : LcdState) (handled : age state ≠ 0)
    (cycle : Nat) :
    (circuit inputs start cycle).state = state ↔
      ∃ accepted, Accepted inputs start accepted ∧ cycle = accepted + age state := by
  constructor
  · rintro rfl
    exact handled_since powerUp cycle handled
  · rintro ⟨accepted, pulse, rfl⟩
    exact service_state pulse state handled

variable (inputs start)

/-- Whatever the registers hold at power-up and whatever keys arrive, the sixteen
registers hold the last sixteen keys that have been accepted. -/
theorem key_ring (powerUp : start.state = .initState) : KeyRing inputs start where
  oneHot cycle started := by
    obtain ⟨number, enable⟩ := enable_hot powerUp cycle started
    rw [enable]
    exact hot_oneHot number
  stored cycle pulse := by
    refine ⟨?_, ?_, ?_, fun during loaded bound => ?_⟩
    · exact service_state pulse .lcdEnableChangeState (by decide)
    · exact service_state pulse .lcdByteChangeValueState (by decide)
    · exact service_state pulse .finished (by decide)
    · rw [number_accepted pulse]
      exact service_stored pulse powerUp during loaded bound
  kept cycle pulse other different during bound := by
    rw [number_accepted pulse] at different
    exact service_kept pulse powerUp other different during bound
  finished cycle := (handled_iff powerUp .finished (by decide) cycle).mp
  latest := settled_latest powerUp
  untouched := settled_untouched powerUp
  acknowledged cycle := by
    rw [StaleKeyCode.resetKbdData_iff]
    exact handled_iff powerUp .clearKbdData (by decide) cycle

end Runs

/-- A keyboard that is always ready has a key accepted in every sixth cycle. -/
def alwaysReady (cycle : Nat) : Input where
  actualKbdReady := true
  kbdAsciiData := BitVec.ofNat 8 cycle

/-- Registers that hold nothing but ones at power-up. -/
def ones : Circuit where
  state := .initState
  scopeLcdRegClkEnable := BitVec.allOnes 16
  scopeInfoReg := fun _ => BitVec.allOnes 8

/-- The ring of that keyboard. -/
theorem key_ring_alwaysReady : ones.state = .initState ∧ KeyRing alwaysReady ones :=
  ⟨rfl, key_ring alwaysReady ones rfl⟩

end CpenLabs.LcdKeyRing
