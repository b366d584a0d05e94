import CpenLabs.Clocked

/-!
# Samples written to the audio FIFO

The program drives the write side of a hardware FIFO through three output ports: the
data, the write request and the write clock, which it raises and lowers itself. The
FIFO stores the data port on each rising edge of the write clock under a request and
drops the word when it is full. Its read side belongs to a consumer in another clock
domain, which may take a word between any two port writes.

The FIFO's own behaviour is hardware outside the repository; `Fifo` states what the
program relies on. The program text is kept as the list of its port writes. Nothing
is claimed about how long the call waits for room, and it returns only if it finds
some for every sample.
-/

namespace CpenLabs.AudioFifo

open Clocked

abbrev Byte := BitVec 8

/-- What a port write carries. -/
abbrev Word := BitVec 32

/-- A FIFO never holds more than its capacity. -/
structure Fifo (capacity : Nat) where
  words : List Word
  bounded : words.length ≤ capacity

section Fifo

variable {capacity : Nat}

/-- The full flag. -/
def Fifo.full (fifo : Fifo capacity) : Bool := fifo.words.length == capacity

/-- A rising edge of the write clock under a request: a full FIFO drops the word. -/
def Fifo.store (word : Word) (fifo : Fifo capacity) : Fifo capacity :=
  if room : fifo.words.length < capacity then
    { words := fifo.words ++ [word], bounded := by rw [List.length_append]; exact room }
  else fifo

/-- The consumer takes a word, if there is one. -/
def Fifo.remove (fifo : Fifo capacity) : Fifo capacity where
  words := fifo.words.tail
  bounded := by
    have bound := fifo.bounded
    rw [List.length_tail]
    omega

/-- A FIFO that is not full has room for a word. -/
theorem Fifo.room_of_not_full (fifo : Fifo capacity) (room : fifo.full = false) :
    fifo.words.length < capacity := by
  have bound := fifo.bounded
  have apart : fifo.words.length ≠ capacity := by simpa [full] using room
  omega

/-- A consumer only makes room. -/
theorem Fifo.remove_length (fifo : Fifo capacity) : fifo.remove.words.length ≤ fifo.words.length := by
  simp only [remove, List.length_tail, Nat.sub_le]

end Fifo

section Ports

/-- The write side as the program leaves it. -/
structure Ports where
  wrreq : Bool
  wrclk : Bool
  outDataAudio : Word

/-- An IOWR to one of the three ports. -/
inductive Iowr
  | wrreq (value : Bool)
  | wrclk (value : Bool)
  | outDataAudio (value : Word)

/-- The ports after a write. -/
def Ports.write (ports : Ports) : Iowr → Ports
  | .wrreq value => { ports with wrreq := value }
  | .wrclk value => { ports with wrclk := value }
  | .outDataAudio value => { ports with outDataAudio := value }

/-- The word that a write asks the FIFO to store: the data port, when the write clock
rises under a request. -/
def Ports.pushes (ports : Ports) : Iowr → Option Word
  | .wrclk true => if !ports.wrclk && ports.wrreq then some ports.outDataAudio else none
  | _ => none

/-- The ports after a sequence of writes. -/
def Ports.writes (ports : Ports) (sequence : List Iowr) : Ports := sequence.foldl Ports.write ports

/-- The words that a sequence of writes asks the FIFO to store. -/
def Ports.requests (ports : Ports) : List Iowr → List Word
  | [] => []
  | first :: rest => (ports.pushes first).toList ++ (ports.write first).requests rest

/-- The port writes of `audio_dac_wr_fifo`, in the order of its text. -/
def audioDacWrFifo (muestra : Byte) : List Iowr :=
  [.wrreq false, .wrclk false, .outDataAudio 0,
    .outDataAudio ((muestra.setWidth 32 <<< 8) ||| (muestra.setWidth 32 <<< 24)),
    .wrreq true, .wrclk false, .wrclk true, .wrclk false,
    .wrreq false, .wrclk false, .outDataAudio 0]

/-- All ports at zero. -/
def Ports.zero : Ports := { wrreq := false, wrclk := false, outDataAudio := 0 }

/-- The stereo word of a sample. -/
def stereo (muestra : Byte) : Word := (muestra.setWidth 32 <<< 8) + (muestra.setWidth 32 <<< 24)

/-- The two copies of a sample do not overlap. -/
theorem stereo_eq_or : ∀ muestra : Byte,
    (muestra.setWidth 32 <<< 8) ||| (muestra.setWidth 32 <<< 24) = stereo muestra := by
  decide +kernel

/-- The ports are left at zero, whatever they were. -/
theorem audioDacWrFifo_writes (muestra : Byte) (ports : Ports) :
    ports.writes (audioDacWrFifo muestra) = Ports.zero := rfl

/-- One word is offered to the FIFO, whatever the ports were: an earlier request is
withdrawn before the write clock is touched. -/
theorem audioDacWrFifo_requests (muestra : Byte) (ports : Ports) :
    ports.requests (audioDacWrFifo muestra) = [stereo muestra] := by
  rw [← stereo_eq_or]
  rfl

end Ports

/-- What `send_audio_fifo` reads: the memory from its pointer on, and size_song, by
which it divides. -/
structure Buffer where
  buf : Nat → Byte
  sizeSong : Nat
  positive : 0 < sizeSong

/-- `buf[i % size_song]`. -/
def Buffer.sample (buffer : Buffer) (i : Nat) : Byte := buffer.buf (i % buffer.sizeSong)

/-- `NUMERO_DE_MUESTRAS`. -/
def numeroDeMuestras : Nat := 1000

/-- The words of the first samples. -/
def Buffer.stereoWords (buffer : Buffer) (count : Nat) : List Word :=
  (List.range count).map fun i => stereo (buffer.sample i)

/-- One more sample adds one word. -/
theorem Buffer.stereoWords_succ (buffer : Buffer) (count : Nat) :
    buffer.stereoWords (count + 1) = buffer.stereoWords count ++ [stereo (buffer.sample count)] := by
  simp only [stereoWords, List.range_succ, List.map_append, List.map_cons, List.map_nil]

/-- Where the processor is in `send_audio_fifo`: in the loop that waits for room for
sample `i`, inside `audio_dac_wr_fifo` with some port writes still to make, or back in
the caller. -/
inductive Control
  | waiting (i : Nat)
  | writing (i : Nat) (rest : List Iowr)
  | returned

/-- The processor, the ports and the FIFO, with the words that have entered the FIFO
and those that were offered while it was full. -/
structure Machine (capacity : Nat) where
  control : Control
  ports : Ports
  fifo : Fifo capacity
  entered : List Word
  dropped : List Word

section Run

variable {capacity : Nat}

/-- What IORD returns from the port of the full flag. -/
def fifoFull (fifo : Fifo capacity) : Word := if fifo.full then 1 else 0

/-- `audio_dac_fifo_full`. -/
def audioDacFifoFull (fifo : Fifo capacity) : Byte := (fifoFull fifo).setWidth 8

/-- A word offered to the FIFO. -/
def Machine.offer (machine : Machine capacity) : Option Word → Machine capacity
  | none => machine
  | some word =>
      if machine.fifo.full then { machine with dropped := machine.dropped ++ [word] }
      else { machine with fifo := machine.fifo.store word, entered := machine.entered ++ [word] }

/-- The next bus operation of the processor. -/
def Machine.processor (buffer : Buffer) (machine : Machine capacity) : Machine capacity :=
  match machine.control with
  | .waiting i =>
      if i < numeroDeMuestras then
        if audioDacFifoFull machine.fifo = 1 then machine
        else { machine with control := .writing i (audioDacWrFifo (buffer.sample i)) }
      else { machine with control := .returned }
  | .writing i [] => { machine with control := .waiting (i + 1) }
  | .writing i (first :: rest) =>
      { machine.offer (machine.ports.pushes first) with
        control := .writing i rest
        ports := machine.ports.write first }
  | .returned => machine

/-- Who acts next. -/
inductive Actor
  | processor
  | consumer

/-- One action. -/
def step (buffer : Buffer) (actor : Actor) (machine : Machine capacity) : Machine capacity :=
  match actor with
  | .processor => machine.processor buffer
  | .consumer => { machine with fifo := machine.fifo.remove }

/-- The machine after each action of a schedule, from the call on. -/
abbrev call (buffer : Buffer) (schedule : Nat → Actor) (start : Machine capacity) (actions : Nat) :
    Machine capacity :=
  run (step buffer) schedule { start with control := .waiting 0 } actions

theorem call_succ (buffer : Buffer) (schedule : Nat → Actor) (start : Machine capacity) (actions : Nat) :
    call buffer schedule start (actions + 1) =
      step buffer (schedule actions) (call buffer schedule start actions) := rfl

/-- What an actor takes out of the FIFO. -/
def Actor.takes (actor : Actor) (machine : Machine capacity) : List Word :=
  match actor with
  | .processor => []
  | .consumer => machine.fifo.words.head?.toList

/-- The words that the consumer has removed since the call, in their order. -/
def removed (buffer : Buffer) (schedule : Nat → Actor) (start : Machine capacity) (actions : Nat) : List Word :=
  history (fun action => (schedule action).takes (call buffer schedule start action)) actions

/-- The word that the processor's next bus operation asks the FIFO to store. -/
def Machine.pushes (machine : Machine capacity) : Option Word :=
  match machine.control with
  | .writing _ (first :: _) => machine.ports.pushes first
  | _ => none

/-- What holds inside `audio_dac_wr_fifo`: the port writes still to make offer what is
missing of the first samples, the FIFO has room for it, and they end with the ports at
zero. -/
structure Writing (buffer : Buffer) (start machine : Machine capacity) (i : Nat) (rest : List Iowr) :
    Prop where
  inside : i < numeroDeMuestras
  accounted : machine.entered ++ machine.ports.requests rest = start.entered ++ buffer.stereoWords (i + 1)
  undropped : machine.dropped = start.dropped
  cleared : machine.ports.writes rest = Ports.zero
  single : (machine.ports.requests rest).length ≤ 1
  room : machine.ports.requests rest ≠ [] → machine.fifo.words.length < capacity

/-- What holds when all samples before `i` have been written. -/
structure Written (buffer : Buffer) (start machine : Machine capacity) (i : Nat) : Prop where
  inside : i ≤ numeroDeMuestras
  entered : machine.entered = start.entered ++ buffer.stereoWords i
  undropped : machine.dropped = start.dropped
  cleared : 0 < i → machine.ports = Ports.zero

/-- The invariant of the call. -/
def Progress (buffer : Buffer) (start machine : Machine capacity) : Prop :=
  match machine.control with
  | .waiting i => Written buffer start machine i
  | .writing i rest => Writing buffer start machine i rest
  | .returned => Written buffer start machine numeroDeMuestras

/-- The full flag is read as zero exactly when the FIFO is not full. -/
theorem audioDacFifoFull_iff (fifo : Fifo capacity) : audioDacFifoFull fifo = 1 ↔ fifo.full = true := by
  unfold audioDacFifoFull fifoFull
  cases fifo.full <;> decide

/-- A word offered to a FIFO that has room enters it. -/
theorem offer_entered (machine : Machine capacity) (word : Word)
    (room : machine.fifo.words.length < capacity) :
    (machine.offer (some word)).entered = machine.entered ++ [word] ∧
      (machine.offer (some word)).dropped = machine.dropped := by
  have notFull : machine.fifo.full = false := by
    simp only [Fifo.full, beq_eq_false_iff_ne]
    omega
  simp only [Machine.offer, notFull, Bool.false_eq_true, ↓reduceIte, and_self]

/-- A port write keeps the account: what it offers enters the FIFO, and is then no
longer among what the rest offers. -/
theorem writing_write (buffer : Buffer) (start machine : Machine capacity) (i : Nat) (first : Iowr)
    (rest : List Iowr) (writing : Writing buffer start machine i (first :: rest)) :
    Writing buffer start
      { machine.offer (machine.ports.pushes first) with
        control := .writing i rest
        ports := machine.ports.write first } i rest := by
  obtain ⟨inside, accounted, undropped, cleared, single, room⟩ := writing
  cases offered : machine.ports.pushes first with
  | none =>
    simp only [Ports.requests, offered, Option.toList_none, List.nil_append] at accounted single room
    exact ⟨inside, accounted, undropped, cleared, single, room⟩
  | some word =>
    simp only [Ports.requests, offered, Option.toList_some, List.singleton_append, List.length_cons]
      at accounted single room
    have nothing : (machine.ports.write first).requests rest = [] :=
      List.eq_nil_of_length_eq_zero (by omega)
    obtain ⟨entered, dropped⟩ := offer_entered machine word (room (List.cons_ne_nil _ _))
    refine ⟨inside, ?_, dropped.trans undropped, cleared, ?_, ?_⟩
    · simp only [entered, nothing, List.append_nil]
      rw [← accounted, nothing]
    · rw [nothing]
      exact Nat.zero_le 1
    · intro offers
      exact absurd nothing offers

/-- The processor finds room and enters `audio_dac_wr_fifo`. -/
theorem writing_enter (buffer : Buffer) (start machine : Machine capacity) (i : Nat)
    (written : Written buffer start machine i) (inside : i < numeroDeMuestras)
    (room : machine.fifo.full = false) :
    Writing buffer start machine i (audioDacWrFifo (buffer.sample i)) where
  inside := inside
  accounted := by
    rw [audioDacWrFifo_requests, written.entered, buffer.stereoWords_succ, List.append_assoc]
  undropped := written.undropped
  cleared := audioDacWrFifo_writes _ _
  single := by rw [audioDacWrFifo_requests, List.length_singleton]
  room := fun _ => machine.fifo.room_of_not_full room

/-- The next bus operation of the processor keeps the invariant. -/
theorem progress_processor (buffer : Buffer) (start machine : Machine capacity)
    (progress : Progress buffer start machine) : Progress buffer start (machine.processor buffer) := by
  unfold Progress at progress
  unfold Machine.processor
  cases control : machine.control with
  | waiting i =>
    simp only [control] at progress
    simp only
    split_ifs with more full
    · simpa only [Progress, control] using progress
    · have room : machine.fifo.full = false := by
        rw [audioDacFifoFull_iff] at full
        exact Bool.eq_false_iff.mpr full
      obtain ⟨inside, accounted, undropped, cleared, single, hasRoom⟩ :=
        writing_enter buffer start machine i progress more room
      exact ⟨inside, accounted, undropped, cleared, single, hasRoom⟩
    · obtain ⟨inside, entered, undropped, cleared⟩ := progress
      have last : i = numeroDeMuestras := by omega
      subst last
      exact ⟨inside, entered, undropped, cleared⟩
  | writing i rest =>
    simp only [control] at progress
    cases rest with
    | nil =>
      obtain ⟨inside, accounted, undropped, cleared, _, _⟩ := progress
      have entered : machine.entered = start.entered ++ buffer.stereoWords (i + 1) := by
        simpa only [Ports.requests, List.append_nil] using accounted
      exact ⟨inside, entered, undropped, fun _ => cleared⟩
    | cons first rest => exact writing_write buffer start machine i first rest progress
  | returned => simpa only [Progress, control] using progress

/-- The consumer keeps the invariant, since it only makes room. -/
theorem progress_consumer (buffer : Buffer) (start machine : Machine capacity)
    (progress : Progress buffer start machine) :
    Progress buffer start { machine with fifo := machine.fifo.remove } := by
  unfold Progress at progress ⊢
  cases control : machine.control with
  | waiting i =>
    simp only [control] at progress
    exact ⟨progress.inside, progress.entered, progress.undropped, progress.cleared⟩
  | writing i rest =>
    simp only [control] at progress
    obtain ⟨inside, accounted, undropped, cleared, single, room⟩ := progress
    refine ⟨inside, accounted, undropped, cleared, single, fun offers => ?_⟩
    exact Nat.lt_of_le_of_lt machine.fifo.remove_length (room offers)
  | returned =>
    simp only [control] at progress
    exact ⟨progress.inside, progress.entered, progress.undropped, progress.cleared⟩

/-- The invariant holds throughout the call. -/
theorem call_progress (buffer : Buffer) (schedule : Nat → Actor) (start : Machine capacity) (actions : Nat) :
    Progress buffer start (call buffer schedule start actions) := by
  apply run_invariant (step buffer) schedule _ (Progress buffer start)
  · exact ⟨Nat.zero_le _, (List.append_nil _).symm, rfl, fun impossible => absurd impossible (Nat.lt_irrefl 0)⟩
  · intro actor machine progress
    cases actor with
    | processor => exact progress_processor buffer start machine progress
    | consumer => exact progress_consumer buffer start machine progress

/-- Inside `audio_dac_wr_fifo` the FIFO has room for what is pushed next. -/
theorem progress_room (buffer : Buffer) (start machine : Machine capacity)
    (progress : Progress buffer start machine) (pushes : machine.pushes.isSome) :
    machine.fifo.words.length < capacity := by
  unfold Machine.pushes at pushes
  unfold Progress at progress
  cases control : machine.control with
  | waiting i => simp [control] at pushes
  | returned => simp [control] at pushes
  | writing i rest =>
    simp only [control] at progress pushes
    cases rest with
    | nil => cases pushes
    | cons first rest =>
      obtain ⟨word, offered⟩ : ∃ word, machine.ports.pushes first = some word :=
        Option.isSome_iff_exists.mp pushes
      apply progress.room
      rw [Ports.requests, offered]
      exact List.cons_ne_nil word _

/-- A word that is offered and not dropped is the last one in the FIFO afterwards. -/
theorem offer_conserves (machine : Machine capacity) (offered : Option Word) :
    ∃ added, (machine.offer offered).entered = machine.entered ++ added ∧
      machine.fifo.words ++ added = (machine.offer offered).fifo.words := by
  cases offered with
  | none => exact ⟨[], (List.append_nil _).symm, List.append_nil _⟩
  | some word =>
    cases full : machine.fifo.full with
    | true =>
      rw [Machine.offer, if_pos full]
      exact ⟨[], (List.append_nil _).symm, List.append_nil _⟩
    | false =>
      have room := machine.fifo.room_of_not_full full
      rw [Machine.offer, full, if_neg Bool.false_ne_true, Fifo.store, dif_pos room]
      exact ⟨[word], rfl, rfl⟩

/-- In one action, what enters the FIFO goes behind its words and what is taken comes
from their front. -/
theorem step_conserves (buffer : Buffer) (actor : Actor) (machine : Machine capacity) :
    ∃ added, (step buffer actor machine).entered = machine.entered ++ added ∧
      machine.fifo.words ++ added = actor.takes machine ++ (step buffer actor machine).fifo.words := by
  cases actor with
  | consumer =>
    have front (words : List Word) : words = words.head?.toList ++ words.tail := by
      cases words <;> rfl
    exact ⟨[], (List.append_nil _).symm, (List.append_nil _).trans (front machine.fifo.words)⟩
  | processor =>
    rw [step, Actor.takes, List.nil_append, Machine.processor]
    cases machine.control with
    | waiting i =>
      refine ⟨[], ?_⟩
      rw [List.append_nil, List.append_nil]
      dsimp only
      split_ifs <;> exact ⟨rfl, rfl⟩
    | writing i rest =>
      cases rest with
      | nil => exact ⟨[], (List.append_nil _).symm, List.append_nil _⟩
      | cons first rest => exact offer_conserves machine (machine.ports.pushes first)
    | returned => exact ⟨[], (List.append_nil _).symm, List.append_nil _⟩

/-- The words that were in the FIFO at the call, followed by those that have entered it
since, are the ones that the consumer has removed, followed by those that are in it. -/
theorem call_conserves (buffer : Buffer) (schedule : Nat → Actor) (start : Machine capacity)
    (actions : Nat) :
    ∃ added, (call buffer schedule start actions).entered = start.entered ++ added ∧
      start.fifo.words ++ added =
        removed buffer schedule start actions ++ (call buffer schedule start actions).fifo.words := by
  induction actions with
  | zero => exact ⟨[], (List.append_nil _).symm, List.append_nil _⟩
  | succ actions inductionHypothesis =>
    obtain ⟨before, entered, words⟩ := inductionHypothesis
    obtain ⟨added, entered', words'⟩ :=
      step_conserves buffer (schedule actions) (call buffer schedule start actions)
    refine ⟨before ++ added, ?_, ?_⟩
    · rw [call_succ, entered', entered, List.append_assoc]
    · rw [← List.append_assoc, words, List.append_assoc, words', removed, removed, history_succ,
        call_succ, List.append_assoc]

/-- When the call has returned, its samples have entered the FIFO in order and once
each, behind the words that were in it; at no time was a word pushed at a full FIFO, and
none was dropped; and the ports are at zero. -/
theorem samples_entered (buffer : Buffer) (schedule : Nat → Actor) (start : Machine capacity) (actions : Nat)
    (returned : (call buffer schedule start actions).control = .returned) :
    (call buffer schedule start actions).entered = start.entered ++ buffer.stereoWords numeroDeMuestras ∧
      start.fifo.words ++ buffer.stereoWords numeroDeMuestras =
        removed buffer schedule start actions ++ (call buffer schedule start actions).fifo.words ∧
      (∀ action, (call buffer schedule start action).pushes.isSome →
        (call buffer schedule start action).fifo.full = false) ∧
      (call buffer schedule start actions).dropped = start.dropped ∧
      (call buffer schedule start actions).ports = Ports.zero := by
  have roomy : ∀ action, (call buffer schedule start action).pushes.isSome →
      (call buffer schedule start action).fifo.full = false := by
    intro action pushes
    have room := progress_room buffer start _ (call_progress buffer schedule start action) pushes
    exact beq_eq_false_iff_ne.mpr room.ne
  have progress := call_progress buffer schedule start actions
  simp only [Progress, returned] at progress
  obtain ⟨added, entered, words⟩ := call_conserves buffer schedule start actions
  have same : added = buffer.stereoWords numeroDeMuestras :=
    List.append_cancel_left (entered.symm.trans progress.entered)
  exact ⟨progress.entered, same ▸ words, roomy, progress.undropped, progress.cleared (by decide)⟩

end Run

section Alone

variable {capacity : Nat}

/-- The schedule in which the consumer takes nothing. -/
def alone (_ : Nat) : Actor := .processor

/-- The first of several actions of the processor. -/
theorem alone_succ (buffer : Buffer) (machine : Machine capacity) (actions : Nat) :
    run (step buffer) alone machine (actions + 1) =
      run (step buffer) alone (machine.processor buffer) actions := by
  rw [Nat.add_comm, run_add]
  rfl

/-- With room for it an offered word lengthens the FIFO by one. -/
theorem offer_length (machine : Machine capacity) (offered : Option Word)
    (room : machine.fifo.words.length + offered.toList.length ≤ capacity) :
    (machine.offer offered).fifo.words.length = machine.fifo.words.length + offered.toList.length := by
  cases offered with
  | none => rfl
  | some word =>
    have notFull : machine.fifo.full = false := by
      simp only [Option.toList_some, List.length_singleton] at room
      simp only [Fifo.full, beq_eq_false_iff_ne]
      omega
    have fits : machine.fifo.words.length < capacity := room
    rw [Machine.offer, notFull, if_neg Bool.false_ne_true, Fifo.store, dif_pos fits]
    exact List.length_append

/-- The rest of a call of `audio_dac_wr_fifo` takes one action for each port write and
one to return. -/
theorem alone_writing (buffer : Buffer) (rest : List Iowr) (machine : Machine capacity) (i : Nat)
    (control : machine.control = .writing i rest)
    (room : machine.fifo.words.length + (machine.ports.requests rest).length ≤ capacity) :
    (run (step buffer) alone machine (rest.length + 1)).control = .waiting (i + 1) ∧
      (run (step buffer) alone machine (rest.length + 1)).fifo.words.length =
        machine.fifo.words.length + (machine.ports.requests rest).length := by
  induction rest generalizing machine with
  | nil =>
    rw [alone_succ]
    simp [Machine.processor, control, Ports.requests]
  | cons first rest inductionHypothesis =>
    rw [Ports.requests, List.length_append] at room ⊢
    have after : machine.processor buffer =
        { machine.offer (machine.ports.pushes first) with
          control := .writing i rest
          ports := machine.ports.write first } := by
      simp only [Machine.processor, control]
    have longer := offer_length machine (machine.ports.pushes first) (by omega)
    rw [List.length_cons, alone_succ, after]
    obtain ⟨waiting, length⟩ := inductionHypothesis
      { machine.offer (machine.ports.pushes first) with
        control := .writing i rest
        ports := machine.ports.write first } rfl (by
          dsimp only
          omega)
    refine ⟨waiting, length.trans ?_⟩
    dsimp only
    omega

/-- With room for it a sample takes thirteen actions. -/
theorem alone_sample (buffer : Buffer) (machine : Machine capacity) (i : Nat)
    (control : machine.control = .waiting i) (inside : i < numeroDeMuestras)
    (room : machine.fifo.words.length < capacity) :
    (run (step buffer) alone machine 13).control = .waiting (i + 1) ∧
      (run (step buffer) alone machine 13).fifo.words.length = machine.fifo.words.length + 1 := by
  have free : ¬ audioDacFifoFull machine.fifo = 1 := by
    rw [audioDacFifoFull_iff, Fifo.full, beq_iff_eq]
    omega
  have entering : machine.processor buffer =
      { machine with control := .writing i (audioDacWrFifo (buffer.sample i)) } := by
    rw [Machine.processor, control]
    dsimp only
    rw [if_pos inside, if_neg free]
  rw [alone_succ, entering]
  have one : (machine.ports.requests (audioDacWrFifo (buffer.sample i))).length = 1 := by
    rw [audioDacWrFifo_requests, List.length_singleton]
  have written := alone_writing buffer (audioDacWrFifo (buffer.sample i))
    { machine with control := .writing i (audioDacWrFifo (buffer.sample i)) } i rfl (by
      dsimp only
      omega)
  rw [one] at written
  exact written

end Alone

section Taking

variable {capacity : Nat}

/-- The schedule in which the consumer takes a word after each look of the processor at
a full FIFO. -/
def taking (action : Nat) : Actor := if action % 15 = 1 then .consumer else .processor

/-- A round of this schedule from a full FIFO on: the processor waits, the consumer makes
room, and the processor fills it with the next sample. -/
theorem taking_round (buffer : Buffer) (machine : Machine capacity) (i : Nat)
    (control : machine.control = .waiting i) (inside : i < numeroDeMuestras)
    (full : machine.fifo.full = true) (positive : 0 < capacity) :
    (run (step buffer) taking machine 15).control = .waiting (i + 1) ∧
      (run (step buffer) taking machine 15).fifo.full = true := by
  have length : machine.fifo.words.length = capacity := eq_of_beq full
  have waits : machine.processor buffer = machine := by
    rw [Machine.processor, control]
    dsimp only
    rw [if_pos inside, if_pos ((audioDacFifoFull_iff _).mpr full)]
  have taken : run (step buffer) taking machine 2 = { machine with fifo := machine.fifo.remove } := by
    change { machine.processor buffer with fifo := (machine.processor buffer).fifo.remove } = _
    rw [waits]
  have shorter : machine.fifo.remove.words.length + 1 = capacity := by
    rw [Fifo.remove, List.length_tail]
    omega
  have rest : run (step buffer) (fun action => taking (2 + action))
      { machine with fifo := machine.fifo.remove } 13 =
        run (step buffer) alone { machine with fifo := machine.fifo.remove } 13 := by
    apply run_congr
    intro action soon
    exact if_neg (by omega)
  rw [show 15 = 2 + 13 from rfl, run_add, taken, rest]
  obtain ⟨waiting, longer⟩ := alone_sample buffer { machine with fifo := machine.fifo.remove } i control
    inside (Nat.lt_of_succ_le shorter.le)
  exact ⟨waiting, beq_iff_eq.mpr (longer.trans shorter)⟩

/-- From a full FIFO on every sample takes a round. -/
theorem taking_waiting (buffer : Buffer) (start : Machine capacity) (full : start.fifo.full = true)
    (positive : 0 < capacity) (i : Nat) (inside : i ≤ numeroDeMuestras) :
    (call buffer taking start (15 * i)).control = .waiting i ∧
      (call buffer taking start (15 * i)).fifo.full = true := by
  induction i with
  | zero => exact ⟨rfl, full⟩
  | succ i inductionHypothesis =>
    obtain ⟨control, full'⟩ := inductionHypothesis (Nat.le_of_succ_le inside)
    have again : (fun action => taking (15 * i + action)) = taking := by
      funext action
      rw [taking, taking, Nat.mul_add_mod]
    rw [Nat.mul_succ, call, run_add, again]
    exact taking_round buffer (call buffer taking start (15 * i)) i control inside full' positive

/-- After the last sample the processor returns, at its next action. -/
theorem call_returns (buffer : Buffer) (schedule : Nat → Actor) (start : Machine capacity) (actions : Nat)
    (control : (call buffer schedule start actions).control = .waiting numeroDeMuestras)
    (turn : schedule actions = .processor) :
    call buffer schedule start (actions + 1) =
      { call buffer schedule start actions with control := .returned } := by
  rw [call_succ, turn, step, Machine.processor, control]
  exact if_neg (Nat.lt_irrefl numeroDeMuestras)

/-- So a call that never finds room for two samples returns as well, and leaves the FIFO
full. -/
theorem taking_returns (buffer : Buffer) (start : Machine capacity) (full : start.fifo.full = true)
    (positive : 0 < capacity) :
    ∃ actions, (call buffer taking start actions).control = .returned ∧
      (call buffer taking start actions).fifo.full = true := by
  obtain ⟨count, all⟩ : ∃ count, count = numeroDeMuestras := ⟨_, rfl⟩
  obtain ⟨control, full'⟩ := taking_waiting buffer start full positive count all.le
  have turn : taking (15 * count) = .processor := if_neg (by
    rw [Nat.mul_mod_right]
    decide)
  refine ⟨15 * count + 1, ?_⟩
  rw [call_returns buffer taking start _ (control.trans (congrArg Control.waiting all)) turn]
  exact ⟨rfl, full'⟩

/-- A buffer of three bytes. -/
def threeBytes : Buffer where
  buf i := BitVec.ofNat 8 (i + 1)
  sizeSong := 3
  positive := by decide

/-- A full FIFO of two words, with the ports left high by someone else. -/
def unsettled : Machine 2 where
  control := .returned
  ports := { wrreq := true, wrclk := false, outDataAudio := 7 }
  fifo := { words := [8, 9], bounded := by decide }
  entered := []
  dropped := []

/-- All samples find their place in the full FIFO, one by one, as the consumer removes the
two words and then the samples. The last two are left in it. -/
theorem samples_entered_unsettled :
    ∃ actions, (call threeBytes taking unsettled actions).fifo.full = true ∧
      (call threeBytes taking unsettled actions).entered =
        [] ++ threeBytes.stereoWords numeroDeMuestras ∧
      [8, 9] ++ threeBytes.stereoWords numeroDeMuestras =
        removed threeBytes taking unsettled actions ++
          (call threeBytes taking unsettled actions).fifo.words ∧
      (∀ action, (call threeBytes taking unsettled action).pushes.isSome →
        (call threeBytes taking unsettled action).fifo.full = false) ∧
      (call threeBytes taking unsettled actions).dropped = [] ∧
      (call threeBytes taking unsettled actions).ports = Ports.zero := by
  obtain ⟨actions, returned, full⟩ := taking_returns threeBytes unsettled rfl Nat.two_pos
  exact ⟨actions, full, samples_entered threeBytes taking unsettled actions returned⟩

end Taking

end CpenLabs.AudioFifo
