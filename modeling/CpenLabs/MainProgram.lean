import CpenLabs.InterruptedRun
import CpenLabs.PracPico
import Mathlib.Tactic.IntervalCases

/-!
# The main program and its delay routines

The main program calls five delay routines that are nested in one another. Each
address of it belongs to one level of this nesting, and the call stack holds one
return address for each level below. Between two calls of the outermost routine the
program turns the LED on and off.

A delay routine counts a register of its own down to zero and leaves the registers of
the routines around it alone, so that its caller's loop comes to an end as well. How
long a delay takes is not stated.
-/

namespace CpenLabs.MainProgram

open Clocked Kcpsm3 PracPico InterruptedRun

/-- The level of an address: the main program, and the delays of 1 s, 20 ms, 1 ms,
40 us and 1 us. The addresses before the main program have none. -/
def level (pc : Address) : Option Nat :=
  if 0x07#10 ≤ pc ∧ pc ≤ 0x0D#10 then some 0
  else if 0x21#10 ≤ pc ∧ pc ≤ 0x25#10 then some 1
  else if 0x1C#10 ≤ pc ∧ pc ≤ 0x20#10 then some 2
  else if 0x17#10 ≤ pc ∧ pc ≤ 0x1B#10 then some 3
  else if 0x12#10 ≤ pc ∧ pc ≤ 0x16#10 then some 4
  else if 0x0E#10 ≤ pc ∧ pc ≤ 0x11#10 then some 5
  else none

/-- The instruction at an address keeps to the nesting: it goes on or jumps within the
level, calls into the next one, or returns from a level that was called. -/
def wellPlaced (constants : Constants) (pc : Address) : Bool :=
  match program constants pc with
  | .load _ _ | .alu _ _ _ | .output _ _ => level (pc + 1) == level pc
  | .jump .always address => level address == level pc
  | .jump _ address => level address == level pc && level (pc + 1) == level pc
  | .call .always address => level address == (level pc).map (· + 1) && level (pc + 1) == level pc
  | .ret .always => level pc != some 0
  | _ => false

/-- The addresses with a level are those from 07 to 25. -/
theorem level_bounds (pc : Address) (inside : (level pc).isSome = true) :
    7 ≤ pc.toNat ∧ pc.toNat ≤ 0x25 := by
  unfold level at inside
  split_ifs at inside with main second twenty one forty micro
  · exact ⟨main.1, Nat.le_trans main.2 (by decide)⟩
  · exact ⟨Nat.le_trans (by decide) second.1, second.2⟩
  · exact ⟨Nat.le_trans (by decide) twenty.1, Nat.le_trans twenty.2 (by decide)⟩
  · exact ⟨Nat.le_trans (by decide) one.1, Nat.le_trans one.2 (by decide)⟩
  · exact ⟨Nat.le_trans (by decide) forty.1, Nat.le_trans forty.2 (by decide)⟩
  · exact ⟨Nat.le_trans (by decide) micro.1, Nat.le_trans micro.2 (by decide)⟩
  · cases inside

/-- All of them are well placed. -/
theorem main_wellPlaced (constants : Constants) (pc : Address) (inside : (level pc).isSome = true) :
    wellPlaced constants pc = true := by
  obtain ⟨low, high⟩ := level_bounds pc inside
  have listed : ∀ address, 7 ≤ address → address ≤ 0x25 →
      wellPlaced constants (BitVec.ofNat 10 address) = true := by
    intro address low high
    interval_cases address <;> rfl
  have same := listed pc.toNat low high
  rwa [BitVec.ofNat_toNat, BitVec.setWidth_eq] at same

/-- The call stack at an address: a caller of the level below for each level, on top of
what was there at the start. -/
inductive Nested (base : List Address) : Address → List Address → Prop
  | main {pc : Address} (here : level pc = some 0) : Nested base pc base
  | routine {pc caller : Address} {frames : List Address} {depth : Nat}
      (here : level pc = some (depth + 1)) (calling : level caller = some depth)
      (after : level (caller + 1) = some depth) (outer : Nested base caller frames) :
      Nested base pc (caller :: frames)

/-- An address with a stack has a level. -/
theorem Nested.inside {base frames : List Address} {pc : Address} (nested : Nested base pc frames) :
    ∃ depth, level pc = some depth := by
  cases nested with
  | main here => exact ⟨0, here⟩
  | routine here => exact ⟨_, here⟩

/-- Within a level the stack stays the same. -/
theorem Nested.move {base frames : List Address} {pc next : Address} (nested : Nested base pc frames)
    (same : level next = level pc) : Nested base next frames := by
  cases nested with
  | main here => exact .main (same.trans here)
  | routine here calling after outer => exact .routine (same.trans here) calling after outer

/-- A well-placed jump stays within the level, and so does the execution if it is not taken. -/
theorem wellPlaced_jump {constants : Constants} {pc address : Address} {condition : Condition}
    (code : program constants pc = .jump condition address) (placed : wellPlaced constants pc = true) :
    level address = level pc ∧ (condition ≠ .always → level (pc + 1) = level pc) := by
  rw [wellPlaced, code] at placed
  cases condition with
  | always => exact ⟨eq_of_beq placed, fun conditional => absurd rfl conditional⟩
  | z | nz | c | nc =>
    obtain ⟨target, through⟩ := Bool.and_eq_true_iff.mp placed
    exact ⟨eq_of_beq target, fun _ => eq_of_beq through⟩

/-- One instruction of the main program keeps the nesting, and is a plain one. -/
theorem nested_step (constants : Constants) (inPort : Byte) {base : List Address} (cpu : Cpu)
    (nested : Nested base cpu.pc cpu.stack) :
    plain (program constants cpu.pc) = true ∧
      Nested base (exec (program constants cpu.pc) inPort cpu).pc
        (exec (program constants cpu.pc) inPort cpu).stack ∧
      (exec (program constants cpu.pc) inPort cpu).interruptEnable = cpu.interruptEnable := by
  obtain ⟨depth, here⟩ := nested.inside
  have placed := main_wellPlaced constants cpu.pc (by rw [here]; rfl)
  cases code : program constants cpu.pc with
  | load | alu | output =>
    rw [wellPlaced, code] at placed
    exact ⟨rfl, nested.move (eq_of_beq placed), rfl⟩
  | jump condition address =>
    obtain ⟨target, through⟩ := wellPlaced_jump code placed
    refine ⟨rfl, nested.move ?_, rfl⟩
    simp only [exec]
    split_ifs with holds
    · exact target
    · apply through
      rintro rfl
      exact holds rfl
  | call condition address =>
    rw [wellPlaced, code] at placed
    cases condition with
    | always =>
      simp only [here, Option.map_some, Bool.and_eq_true, beq_iff_eq] at placed
      exact ⟨rfl, .routine placed.1 here placed.2 nested, rfl⟩
    | z | nz | c | nc => cases placed
  | ret condition =>
    rw [wellPlaced, code] at placed
    cases condition with
    | always =>
      refine ⟨rfl, ?_, rfl⟩
      generalize stack : cpu.stack = frames at nested
      cases nested with
      | main atMain =>
        rw [atMain] at placed
        cases placed
      | routine _ calling after outer =>
        simp only [exec, Cpu.meets, ↓reduceIte, stack, List.headD_cons, List.tail_cons]
        exact outer.move (after.trans calling.symm)
    | z | nz | c | nc => cases placed
  | input | fetch | store | returni | interrupt =>
    rw [wellPlaced, code] at placed
    cases placed

section Emission

variable (program : Program) (inPort : Byte) (bit : Nat)

/-- Execution without interrupts from one processor to another, and the values that it
stores in an output register. -/
inductive Emits : Cpu → List Byte → Cpu → Prop
  | done (cpu : Cpu) : Emits cpu [] cpu
  | step {cpu last : Cpu} {values : List Byte}
      (rest : Emits (exec (program cpu.pc) inPort cpu) values last) :
      Emits cpu ((written bit (event (program cpu.pc) cpu)).toList ++ values) last

variable {program inPort bit}

/-- Executions follow one another. -/
theorem Emits.trans {cpu middle last : Cpu} {values more : List Byte}
    (first : Emits program inPort bit cpu values middle)
    (second : Emits program inPort bit middle more last) :
    Emits program inPort bit cpu (values ++ more) last := by
  induction first with
  | done => exact second
  | step rest inductionHypothesis =>
    rw [List.append_assoc]
    exact .step (inductionHypothesis second)

/-- One instruction. -/
theorem Emits.one {cpu : Cpu} {instruction : Instruction Address} {values : List Byte}
    (code : program cpu.pc = instruction) (stores : (written bit (event instruction cpu)).toList = values) :
    Emits program inPort bit cpu values (exec instruction inPort cpu) := by
  subst code stores
  have single : Emits program inPort bit cpu _ _ := .step (.done _)
  rwa [List.append_nil] at single

/-- The run without interrupts does what the execution says. -/
theorem Emits.run {samples : Nat → Byte} {start : Machine} {cpu last : Cpu} {values : List Byte}
    (emits : Emits program (samples start.begun) bit cpu values last) (cycle : Nat)
    (here : undisturbed program samples start cycle = { cpu, begun := start.begun, inService := false }) :
    ∃ count, undisturbed program samples start (cycle + count) =
        { cpu := last, begun := start.begun, inService := false } ∧
      writes program samples (fun _ => false) start bit cycle count = values := by
  induction emits generalizing cycle with
  | done => exact ⟨0, here, rfl⟩
  | @step cpu last values rest inductionHypothesis =>
    have next := machine_untaken program samples (fun _ => false) start cycle rfl
    have seen := observed_untaken program samples (fun _ => false) start cycle rfl
    rw [undisturbed] at here
    rw [here] at next seen
    obtain ⟨count, arrives, stores⟩ := inductionHypothesis (cycle + 1) next
    refine ⟨1 + count, ?_, ?_⟩
    · rw [← Nat.add_assoc, arrives]
    · rw [writes_append, stores, writes_one, here, seen]

end Emission

section Delays

variable (constants : Constants) (inPort : Byte)

/-- The routine at an address returns to its caller without writing to the LED, and
leaves the registers above its own alone. -/
def Delays (entry : Address) (x : Register) : Prop :=
  ∀ (cpu : Cpu) (caller : Address) (frames : List Address), cpu.pc = entry → cpu.stack = caller :: frames →
    ∃ last, Emits (program constants) inPort 6 cpu [] last ∧ last.pc = caller + 1 ∧
      last.stack = frames ∧ ∀ y, x < y → last.regs y = cpu.regs y

variable {constants inPort}

/-- The subtraction and the jump at the end of a loop. -/
theorem turn (x : Register) (wait subtract : Address)
    (subtractCode : program constants subtract = .alu .sub x (.constant 1#8))
    (jumpCode : program constants (subtract + 1) = .jump .nz wait)
    (cpu : Cpu) (here : cpu.pc = subtract) :
    ∃ last, Emits (program constants) inPort 6 cpu [] last ∧
      last.pc = (if cpu.regs x - 1#8 = 0#8 then subtract + 1 + 1 else wait) ∧
      last.stack = cpu.stack ∧ last.regs = Function.update cpu.regs x (cpu.regs x - 1#8) := by
  subst here
  have subtracted : Emits (program constants) inPort 6 cpu [] (exec (.alu .sub x (.constant 1#8)) inPort cpu) :=
    .one subtractCode rfl
  have jumped : Emits (program constants) inPort 6 (exec (.alu .sub x (.constant 1#8)) inPort cpu) []
      (exec (.jump .nz wait) inPort (exec (.alu .sub x (.constant 1#8)) inPort cpu)) :=
    .one jumpCode rfl
  refine ⟨_, subtracted.trans jumped, ?_, rfl, ?_⟩
  · simp [exec, Cpu.meets, Cpu.value]
  · simp [exec, Cpu.value, Operation.writesBack]

/-- Counting down by one, short of zero. -/
theorem decrement {turns : Nat} (value : Byte) (remaining : value.toNat = turns + 1) :
    (value - 1#8).toNat = turns := by
  have bound := value.isLt
  rw [BitVec.toNat_sub, remaining]
  simp only [BitVec.toNat_ofNat]
  omega

/-- The body of a loop comes to its subtraction and leaves the loop's own register and
those above it alone. -/
def Body (constants : Constants) (inPort : Byte) (x : Register) (wait subtract : Address)
    (stack : List Address) : Prop :=
  ∀ cpu : Cpu, cpu.pc = wait → cpu.stack = stack →
    ∃ last, Emits (program constants) inPort 6 cpu [] last ∧ last.pc = subtract ∧
      last.stack = stack ∧ ∀ y, x ≤ y → last.regs y = cpu.regs y

/-- One turn of a loop, with its body. -/
theorem body_turn (x : Register) (wait subtract : Address) (stack : List Address)
    (body : Body constants inPort x wait subtract stack)
    (subtractCode : program constants subtract = .alu .sub x (.constant 1#8))
    (jumpCode : program constants (subtract + 1) = .jump .nz wait)
    (cpu : Cpu) (atWait : cpu.pc = wait) (called : cpu.stack = stack) :
    ∃ next, Emits (program constants) inPort 6 cpu [] next ∧
      next.pc = (if cpu.regs x - 1#8 = 0#8 then subtract + 1 + 1 else wait) ∧
      next.stack = stack ∧ next.regs x = cpu.regs x - 1#8 ∧ ∀ y, x < y → next.regs y = cpu.regs y := by
  obtain ⟨middle, emits, pc, kept, regs⟩ := body cpu atWait called
  obtain ⟨next, turned, nextPc, nextStack, nextRegs⟩ :=
    turn x wait subtract subtractCode jumpCode middle pc
  have own : middle.regs x = cpu.regs x := regs x (Nat.le_refl _)
  rw [own] at nextPc nextRegs
  refine ⟨next, emits.trans turned, nextPc, nextStack.trans kept, ?_, fun y above => ?_⟩
  · rw [nextRegs, Function.update_self]
  · rw [nextRegs, Function.update_of_ne (ne_of_gt above)]
    exact regs y (Nat.le_of_lt above)

/-- A loop that counts a register down to zero ends and returns, if its body comes
back to the subtraction. A register that starts with zero is counted from 256. -/
theorem countdown (x : Register) (wait subtract caller : Address) (frames : List Address)
    (body : Body constants inPort x wait subtract (caller :: frames))
    (subtractCode : program constants subtract = .alu .sub x (.constant 1#8))
    (jumpCode : program constants (subtract + 1) = .jump .nz wait)
    (returnCode : program constants (subtract + 1 + 1) = .ret .always)
    (cpu : Cpu) (atWait : cpu.pc = wait) (called : cpu.stack = caller :: frames) :
    ∃ last, Emits (program constants) inPort 6 cpu [] last ∧ last.pc = caller + 1 ∧
      last.stack = frames ∧ ∀ y, x < y → last.regs y = cpu.regs y := by
  -- The induction is on the turns after this one.
  generalize remaining : (cpu.regs x - 1#8).toNat = turns
  induction turns generalizing cpu with
  | zero =>
    obtain ⟨next, turned, nextPc, nextStack, _, nextRegs⟩ :=
      body_turn x wait subtract (caller :: frames) body subtractCode jumpCode cpu atWait called
    have spent : cpu.regs x - 1#8 = 0#8 := BitVec.eq_of_toNat_eq remaining
    rw [if_pos spent] at nextPc
    have returned : Emits (program constants) inPort 6 next [] (exec (.ret .always) inPort next) :=
      .one (nextPc ▸ returnCode) rfl
    refine ⟨_, turned.trans returned, ?_, ?_, nextRegs⟩
    · simp [exec, Cpu.meets, nextStack]
    · simp [exec, Cpu.meets, nextStack]
  | succ turns inductionHypothesis =>
    obtain ⟨next, turned, nextPc, nextStack, own, nextRegs⟩ :=
      body_turn x wait subtract (caller :: frames) body subtractCode jumpCode cpu atWait called
    have left : ¬ cpu.regs x - 1#8 = 0#8 := by
      intro spent
      rw [spent] at remaining
      exact absurd remaining (by simp)
    rw [if_neg left] at nextPc
    obtain ⟨last, rest, lastPc, lastStack, lastRegs⟩ :=
      inductionHypothesis next nextPc nextStack (by rw [own]; exact decrement _ remaining)
    exact ⟨last, turned.trans rest, lastPc, lastStack, fun y above => (lastRegs y above).trans (nextRegs y above)⟩

/-- A delay routine whose loop calls another one. -/
theorem delays_outer {inner entry : Address} {x y : Register} (constant : Byte) (called : Delays constants inPort inner y)
    (below : y < x) (loadCode : program constants entry = .load x (.constant constant))
    (callCode : program constants (entry + 1) = .call .always inner)
    (subtractCode : program constants (entry + 1 + 1) = .alu .sub x (.constant 1#8))
    (jumpCode : program constants (entry + 1 + 1 + 1) = .jump .nz (entry + 1))
    (returnCode : program constants (entry + 1 + 1 + 1 + 1) = .ret .always) :
    Delays constants inPort entry x := by
  rintro cpu caller frames rfl stack
  have loaded : Emits (program constants) inPort 6 cpu [] (exec (.load x (.constant constant)) inPort cpu) :=
    .one loadCode rfl
  have body : Body constants inPort x (cpu.pc + 1) (cpu.pc + 1 + 1) (caller :: frames) := by
    intro other atWait own
    have calling : Emits (program constants) inPort 6 other [] (exec (.call .always inner) inPort other) :=
      .one (atWait ▸ callCode) rfl
    obtain ⟨back, emits, backPc, backStack, backRegs⟩ :=
      called (exec (.call .always inner) inPort other) other.pc (caller :: frames) rfl
        (congrArg (other.pc :: ·) own)
    refine ⟨back, calling.trans emits, by rw [backPc, atWait], backStack, fun z above => ?_⟩
    exact backRegs z (Nat.lt_of_lt_of_le below above)
  obtain ⟨last, emits, lastPc, lastStack, lastRegs⟩ :=
    countdown x (cpu.pc + 1) (cpu.pc + 1 + 1) caller frames body subtractCode jumpCode returnCode
      (exec (.load x (.constant constant)) inPort cpu) rfl stack
  refine ⟨last, loaded.trans emits, lastPc, lastStack, fun z above => ?_⟩
  rw [lastRegs z above]
  exact Function.update_of_ne (ne_of_gt above) ..

/-- The innermost delay counts a register down. -/
theorem delay_1us : Delays constants inPort (address constants .delay1us) 0 := by
  rintro cpu caller frames here stack
  have loaded : Emits (program constants) inPort 6 cpu []
      (exec (.load 0 (.constant constants.delay1usConstant)) inPort cpu) :=
    .one (here ▸ rfl) rfl
  obtain ⟨last, emits, lastPc, lastStack, lastRegs⟩ :=
    countdown 0 0x0F#10 0x0F#10 caller frames (fun cpu' atWait own =>
      ⟨cpu', .done cpu', atWait, own, fun _ _ => rfl⟩) rfl rfl rfl
      (exec (.load 0 (.constant constants.delay1usConstant)) inPort cpu) (by rw [exec, here]; rfl) stack
  refine ⟨last, loaded.trans emits, lastPc, lastStack, fun z above => ?_⟩
  rw [lastRegs z above]
  exact Function.update_of_ne (ne_of_gt above) ..

/-- Each of the others calls the one inside it again and again. -/
theorem delay_40us : Delays constants inPort (address constants .delay40us) 1 :=
  delays_outer 0x28 delay_1us (by decide) rfl rfl rfl rfl rfl

/-- The delay of a millisecond. -/
theorem delay_1ms : Delays constants inPort (address constants .delay1ms) 2 :=
  delays_outer 0x19 delay_40us (by decide) rfl rfl rfl rfl rfl

/-- The delay of 20 milliseconds. -/
theorem delay_20ms : Delays constants inPort (address constants .delay20ms) 3 :=
  delays_outer 0x14 delay_1ms (by decide) rfl rfl rfl rfl rfl

/-- The delay of a second, which the main loop calls. -/
theorem delay_1s : Delays constants inPort (address constants .delay1s) 4 :=
  delays_outer 0x32 delay_20ms (by decide) rfl rfl rfl rfl rfl

/-- The main program stores a value in the LED and waits. -/
theorem blink (entry : Address) (value : Byte)
    (loadCode : program constants entry = .load 1 (.constant value))
    (outputCode : program constants (entry + 1) = .output 1 (.constant led0))
    (callCode : program constants (entry + 1 + 1) = .call .always (address constants .delay1s))
    (cpu : Cpu) (here : cpu.pc = entry) :
    ∃ last, Emits (program constants) inPort 6 cpu [value] last ∧ last.pc = entry + 1 + 1 + 1 := by
  subst here
  have loaded : Emits (program constants) inPort 6 cpu [] (exec (.load 1 (.constant value)) inPort cpu) :=
    .one loadCode rfl
  have stored : Emits (program constants) inPort 6 (exec (.load 1 (.constant value)) inPort cpu) [value]
      (exec (.output 1 (.constant led0)) inPort (exec (.load 1 (.constant value)) inPort cpu)) := by
    exact .one outputCode (by simp [event, written, Cpu.value, led0, exec])
  have calling : Emits (program constants) inPort 6
      (exec (.output 1 (.constant led0)) inPort (exec (.load 1 (.constant value)) inPort cpu)) []
      (exec (.call .always (address constants .delay1s)) inPort
        (exec (.output 1 (.constant led0)) inPort (exec (.load 1 (.constant value)) inPort cpu))) :=
    .one callCode rfl
  obtain ⟨last, emits, lastPc, _⟩ := @delay_1s constants inPort
    (exec (.call .always (address constants .delay1s)) inPort
      (exec (.output 1 (.constant led0)) inPort (exec (.load 1 (.constant value)) inPort cpu)))
    (cpu.pc + 1 + 1) cpu.stack rfl rfl
  exact ⟨last, ((loaded.trans stored).trans calling).trans emits, lastPc⟩

/-- One period of the main program. -/
theorem period (cpu : Cpu) (here : cpu.pc = address constants .mainProgram) :
    ∃ last, Emits (program constants) inPort 6 cpu [0x01, 0x00] last ∧
      last.pc = address constants .mainProgram := by
  obtain ⟨lit, lighting, litPc⟩ := @blink constants inPort 0x07#10 0x01 rfl rfl rfl cpu here
  obtain ⟨dark, darkening, darkPc⟩ := @blink constants inPort 0x0A#10 0x00 rfl rfl rfl lit litPc
  have jumped : Emits (program constants) inPort 6 dark []
      (exec (.jump .always (address constants .mainProgram)) inPort dark) :=
    .one (darkPc ▸ rfl) rfl
  exact ⟨_, (lighting.trans darkening).trans jumped, rfl⟩

end Delays

section Heartbeat

/-- The values 01, 00, 01, 00, ... -/
def heartbeat (count : Nat) : List Byte :=
  (List.range count).map fun place => if place % 2 = 0 then 0x01 else 0x00

/-- One period more. -/
theorem heartbeat_period (periods : Nat) :
    heartbeat (2 * (periods + 1)) = heartbeat (2 * periods) ++ [0x01, 0x00] := by
  have even : 2 * periods % 2 = 0 := by omega
  have odd : (2 * periods + 1) % 2 ≠ 0 := by omega
  rw [Nat.mul_succ, heartbeat, List.range_succ, List.range_succ]
  simp only [List.map_append, List.map_cons, List.map_nil, even, odd, ↓reduceIte, List.append_assoc]
  rfl

/-- It begins as a longer one does. -/
theorem heartbeat_take (count whole : Nat) (inside : count ≤ whole) :
    (heartbeat whole).take count = heartbeat count := by
  rw [heartbeat, heartbeat, ← List.map_take, List.take_range, Nat.min_eq_left inside]

variable {constants : Constants} {samples : Nat → Byte} {start : Machine} {first : Nat}

/-- From the main program on, the run without interrupts goes through one period after
another. -/
theorem periods (idle : (undisturbed (program constants) samples start first).inService = false)
    (number : (undisturbed (program constants) samples start first).begun = start.begun)
    (here : (undisturbed (program constants) samples start first).cpu.pc = address constants .mainProgram)
    (count : Nat) :
    ∃ steps, (undisturbed (program constants) samples start (first + steps)).inService = false ∧
      (undisturbed (program constants) samples start (first + steps)).begun = start.begun ∧
      (undisturbed (program constants) samples start (first + steps)).cpu.pc =
        address constants .mainProgram ∧
      writes (program constants) samples (fun _ => false) start 6 first steps = heartbeat (2 * count) := by
  induction count with
  | zero => exact ⟨0, idle, number, here, rfl⟩
  | succ count inductionHypothesis =>
    obtain ⟨steps, idle, number, here, stored⟩ := inductionHypothesis
    obtain ⟨last, emits, lastPc⟩ := @period constants (samples start.begun) _ here
    obtain ⟨more, arrives, stores⟩ := emits.run (first + steps) (by rw [← idle, ← number])
    refine ⟨steps + more, ?_, ?_, ?_, ?_⟩
    · rw [← Nat.add_assoc, arrives]
    · rw [← Nat.add_assoc, arrives]
    · rw [← Nat.add_assoc, arrives]
      exact lastPc
    · rw [writes_append, stored, stores, heartbeat_period]

/-- A step stores at most one value. -/
theorem writes_length (program : Program) (samples : Nat → Byte) (irq : Nat → Bool) (start : Machine)
    (bit first count : Nat) : (writes program samples irq start bit first count).length ≤ count := by
  have bound := List.length_filterMap_le (written bit) (events program samples irq start first count)
  rwa [events, List.length_map, List.length_range'] at bound

/-- The run without interrupts stores 01 and 00 in turn, for ever. -/
theorem undisturbed_heartbeat
    (idle : (undisturbed (program constants) samples start first).inService = false)
    (number : (undisturbed (program constants) samples start first).begun = start.begun)
    (here : (undisturbed (program constants) samples start first).cpu.pc = address constants .mainProgram) :
    (∀ count, writes (program constants) samples (fun _ => false) start 6 first count =
        heartbeat (writes (program constants) samples (fun _ => false) start 6 first count).length) ∧
      ∀ length, ∃ count,
        length ≤ (writes (program constants) samples (fun _ => false) start 6 first count).length := by
  constructor
  · intro count
    obtain ⟨steps, _, _, _, stored⟩ := periods idle number here count
    have enough : count ≤ steps := by
      have bound := writes_length (program constants) samples (fun _ => false) start 6 first steps
      rw [stored, heartbeat, List.length_map, List.length_range] at bound
      omega
    have whole := writes_append (program constants) samples (fun _ => false) start 6 first count (steps - count)
    rw [Nat.add_sub_cancel' enough, stored] at whole
    generalize writes (program constants) samples (fun _ => false) start 6 first count = early at whole ⊢
    have inside : early.length ≤ 2 * count := by
      have lengths := congrArg List.length whole
      rw [heartbeat, List.length_map, List.length_range, List.length_append] at lengths
      omega
    rw [← heartbeat_take _ _ inside, whole, List.take_left']
    rfl
  · intro length
    obtain ⟨steps, _, _, _, stored⟩ := periods idle number here length
    refine ⟨steps, ?_⟩
    rw [stored, heartbeat, List.length_map, List.length_range]
    omega

end Heartbeat

end CpenLabs.MainProgram
