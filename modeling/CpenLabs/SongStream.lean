import CpenLabs.AudioFifo
import Mathlib.Data.Nat.Init
import Mathlib.Tactic.SplitIfs

/-!
# The song as it is streamed

task1 sends the song in blocks of 1000 samples, from an address that it advances by
the block length and sets back once the address has passed the end. Inside a block
the index is reduced by the length of the song, counted from the start of the block
and not from the start of the song, and the iteration that notices the end has sent
its block already.

A song whose length divides the block length is streamed for ever. Every other song
is streamed for as many blocks as fit into it; the next block reads past its end, or,
when the length is a multiple of the block length, begins again and is then sent a
second time. How many words the FIFO takes from a block, and in which order, is the
subject of the module on the FIFO.
-/

namespace CpenLabs.SongStream

open Clocked AudioFifo

/-- The array song, as memory from its address on, and size_song, which leaves room in
an int for one more block. -/
structure Song where
  song : Nat → Byte
  sizeSong : BitVec 32
  positive : 0 < sizeSong.toNat
  room : sizeSong.toNat + numeroDeMuestras < 2 ^ 31

/-- Number of samples in the song. -/
abbrev Song.size (song : Song) : Nat := song.sizeSong.toNat

/-- The three flags, as the other task leaves them. -/
structure Flags where
  playSong : Byte
  pauseSong : Byte
  stopSong : Byte

/-- The address counter of the task, and the indices of the samples sent since the
start or since the last stop. -/
structure Task where
  addressCounter : BitVec 32
  sent : List Nat

/-- The indices into song that `send_audio_fifo` reads from `&song[address]`. -/
def Song.indices (song : Song) (address : Nat) : List Nat :=
  (List.range numeroDeMuestras).map fun i => address + i % song.size

/-- What `send_audio_fifo` is given with `&song[address]`. -/
def Song.block (song : Song) (address : Nat) : Buffer where
  buf offset := song.song (address + offset)
  sizeSong := song.size
  positive := song.positive

/-- The samples at these indices are the ones whose words enter the FIFO. -/
theorem Song.indices_stereo (song : Song) (address : Nat) :
    (song.indices address).map (fun index => stereo (song.song index)) =
      (song.block address).stereoWords numeroDeMuestras := by
  simp only [indices, Buffer.stereoWords, List.map_map]
  rfl

/-- One iteration of the loop of `task1`. -/
def iterate (song : Song) (flags : Flags) (task : Task) : Task :=
  if flags.playSong = 1 then
    { sent := task.sent ++ song.indices (task.addressCounter % song.sizeSong).toNat
      addressCounter :=
        if task.addressCounter < song.sizeSong then task.addressCounter + BitVec.ofNat 32 numeroDeMuestras
        else 0 }
  else if flags.pauseSong = 1 then task
  else if flags.stopSong = 1 then { addressCounter := 0, sent := [] }
  else task

/-- The task after each iteration, under the flags that the iterations see. -/
def task1 (song : Song) (flags : Nat → Flags) (iterations : Nat) : Task :=
  run (iterate song) flags { addressCounter := 0, sent := [] } iterations

theorem task1_succ (song : Song) (flags : Nat → Flags) (iterations : Nat) :
    task1 song flags (iterations + 1) = iterate song (flags iterations) (task1 song flags iterations) := rfl

/-- Number of blocks sent since the start or since the last stop. -/
def plays (flags : Nat → Flags) : Nat → Nat
  | 0 => 0
  | iterations + 1 =>
      if (flags iterations).playSong = 1 then plays flags iterations + 1
      else if (flags iterations).pauseSong = 1 then plays flags iterations
      else if (flags iterations).stopSong = 1 then 0
      else plays flags iterations

/-- Every index is one of the song, and the samples continue the song cyclically. -/
def Streams (song : Song) (flags : Nat → Flags) : Prop :=
  ∀ iterations,
    (∀ index ∈ (task1 song flags iterations).sent, index < song.size) ∧
      (task1 song flags iterations).sent.map song.song =
        (List.range (task1 song flags iterations).sent.length).map fun count => song.song (count % song.size)

/-- When this number of blocks streams the song: the length divides the block length;
or the blocks fit into the song, where one block fits into any; or the length is a
multiple of the block length and the blocks that would be out of place are equal to
the first. -/
def Fits (song : Song) (blocks : Nat) : Prop :=
  song.size ∣ numeroDeMuestras ∨ blocks ≤ max 1 (song.size / numeroDeMuestras) ∨
    numeroDeMuestras ∣ song.size ∧
      ∀ index, index < song.size →
        index < numeroDeMuestras * (blocks - song.size / numeroDeMuestras) →
          song.song index = song.song (index % numeroDeMuestras)

section Position

variable (song : Song)

/-- Blocks until the address counter has passed the end of the song. -/
def blocksToEnd : Nat := (song.size + 999) / 1000

/-- The address counter after this number of blocks. -/
def position (blocks : Nat) : Nat := 1000 * (blocks % (blocksToEnd song + 1))

/-- The address counter is past the end exactly after the last block. -/
theorem position_inside_iff (blocks : Nat) :
    position song blocks < song.size ↔ blocks % (blocksToEnd song + 1) < blocksToEnd song := by
  unfold position blocksToEnd
  omega

/-- The address counter as the loop advances it. -/
theorem position_succ (blocks : Nat) :
    position song (blocks + 1) = if position song blocks < song.size then position song blocks + 1000 else 0 := by
  have bound : blocks % (blocksToEnd song + 1) < blocksToEnd song + 1 := Nat.mod_lt _ (Nat.succ_pos _)
  have next : (blocks + 1) % (blocksToEnd song + 1) =
      (blocks % (blocksToEnd song + 1) + 1) % (blocksToEnd song + 1) := (Nat.mod_add_mod ..).symm
  simp only [position_inside_iff]
  split_ifs with inside
  · rw [position, next, Nat.mod_eq_of_lt (by omega), position]
    omega
  · have atEnd : blocks % (blocksToEnd song + 1) = blocksToEnd song := by omega
    rw [position, next, atEnd, Nat.mod_self]

/-- The address counter stays far below the values that an int cannot hold. -/
theorem position_small (blocks : Nat) : position song blocks + numeroDeMuestras < 2 ^ 32 := by
  have bound : blocks % (blocksToEnd song + 1) < blocksToEnd song + 1 := Nat.mod_lt _ (Nat.succ_pos _)
  have room : song.size + 1000 < 2 ^ 31 := song.room
  simp only [numeroDeMuestras]
  unfold position
  unfold blocksToEnd at bound ⊢
  omega

/-- The indices that a number of blocks reads. -/
def sentIndices (blocks : Nat) : List Nat :=
  (List.range blocks).flatMap fun block => song.indices (position song block % song.size)

/-- A block sends the indices from its position on. -/
theorem sentIndices_succ (blocks : Nat) :
    sentIndices song (blocks + 1) = sentIndices song blocks ++ song.indices (position song blocks % song.size) := by
  simp only [sentIndices, List.range_succ, List.flatMap_append, List.flatMap_cons, List.flatMap_nil,
    List.append_nil]

/-- Every block has the same number of samples. -/
theorem sentIndices_length (blocks : Nat) :
    (sentIndices song blocks).length = numeroDeMuestras * blocks := by
  induction blocks with
  | zero => rfl
  | succ blocks inductionHypothesis =>
    rw [sentIndices_succ, List.length_append, inductionHypothesis, Nat.mul_succ, Song.indices,
      List.length_map, List.length_range]

/-- The address counter as the machine word that the loop compares and reduces. -/
theorem position_toNat (blocks : Nat) :
    (BitVec.ofNat 32 (position song blocks)).toNat = position song blocks := by
  have small := position_small song blocks
  rw [BitVec.toNat_ofNat, Nat.mod_eq_of_lt (by omega)]

/-- A block sent advances the machine word as the position. -/
theorem addressCounter_play (blocks : Nat) :
    (if BitVec.ofNat 32 (position song blocks) < song.sizeSong then
        BitVec.ofNat 32 (position song blocks) + BitVec.ofNat 32 numeroDeMuestras
      else 0) = BitVec.ofNat 32 (position song (blocks + 1)) := by
  have inside : BitVec.ofNat 32 (position song blocks) < song.sizeSong ↔ position song blocks < song.size := by
    rw [BitVec.lt_def, position_toNat]
  simp only [position_succ, inside]
  split_ifs
  · exact (BitVec.ofNat_add ..).symm
  · rfl

/-- The task is where the number of blocks since the last stop has taken it. -/
theorem task1_eq (flags : Nat → Flags) (iterations : Nat) :
    task1 song flags iterations =
      { addressCounter := BitVec.ofNat 32 (position song (plays flags iterations))
        sent := sentIndices song (plays flags iterations) } := by
  induction iterations with
  | zero =>
    have atStart : position song 0 = 0 := by simp [position]
    simp only [plays, atStart]
    rfl
  | succ iterations inductionHypothesis =>
    rw [task1_succ, inductionHypothesis]
    simp only [iterate, plays]
    by_cases play : (flags iterations).playSong = 1
    · simp only [play, ↓reduceIte, addressCounter_play, sentIndices_succ, BitVec.toNat_umod, position_toNat]
    · simp only [play, ↓reduceIte]
      split_ifs
      · rfl
      · have atStart : position song 0 = 0 := by simp [position]
        rw [atStart]
        rfl
      · rfl

end Position

section Blocks

variable (song : Song)

/-- One block is read inside the song and continues it. -/
def BlockFits (block : Nat) : Prop :=
  (∀ i, i < numeroDeMuestras → position song block % song.size + i % song.size < song.size) ∧
    ∀ i, i < numeroDeMuestras →
      song.song (position song block % song.size + i % song.size) =
        song.song ((numeroDeMuestras * block + i) % song.size)

/-- A number of blocks streams the song exactly if each block does its part. -/
theorem sentIndices_iff (blocks : Nat) :
    ((∀ index ∈ sentIndices song blocks, index < song.size) ∧
        (sentIndices song blocks).map song.song =
          (List.range (sentIndices song blocks).length).map fun count => song.song (count % song.size)) ↔
      ∀ block, block < blocks → BlockFits song block := by
  induction blocks with
  | zero => simp [sentIndices]
  | succ blocks inductionHypothesis =>
    have inBounds : (∀ index ∈ song.indices (position song blocks % song.size), index < song.size) ↔
        ∀ i, i < numeroDeMuestras → position song blocks % song.size + i % song.size < song.size := by
      simp only [Song.indices, List.forall_mem_map, List.mem_range]
    have continued : (song.indices (position song blocks % song.size)).map song.song =
          (List.range numeroDeMuestras).map (fun i => song.song ((numeroDeMuestras * blocks + i) % song.size)) ↔
        ∀ i, i < numeroDeMuestras →
          song.song (position song blocks % song.size + i % song.size) =
            song.song ((numeroDeMuestras * blocks + i) % song.size) := by
      simp only [Song.indices, List.map_map, List.map_inj_left, List.mem_range, Function.comp_apply]
    have split : ∀ block, block < blocks + 1 ↔ block < blocks ∨ block = blocks := by omega
    simp only [split, or_imp, forall_and, forall_eq]
    rw [← inductionHypothesis, BlockFits, ← inBounds, ← continued, sentIndices_succ, List.length_append,
      List.range_add, List.map_append, List.map_append, List.map_map, sentIndices_length, Song.indices,
      List.length_map, List.length_range, List.forall_mem_append]
    constructor
    · rintro ⟨⟨earlierInside, inside⟩, same⟩
      obtain ⟨earlier, last⟩ := List.append_inj same (by simp [sentIndices_length])
      exact ⟨⟨earlierInside, earlier⟩, inside, last⟩
    · rintro ⟨⟨earlierInside, earlier⟩, inside, last⟩
      exact ⟨⟨earlierInside, inside⟩, by rw [earlier, last]; rfl⟩

/-- While the song lasts, a block begins where the one before it has ended. -/
theorem position_early (block : Nat) (early : block ≤ blocksToEnd song) :
    position song block = 1000 * block := by
  rw [position, Nat.mod_eq_of_lt (by omega)]

/-- A length that divides the block length: every block is the whole song, some number
of times. -/
theorem blockFits_of_dvd (divides : song.size ∣ numeroDeMuestras) (block : Nat) : BlockFits song block := by
  obtain ⟨times, product⟩ := divides
  have positive : 0 < song.size := song.positive
  have aligned : ∀ count, numeroDeMuestras * count % song.size = 0 := fun count => by
    rw [product, Nat.mul_assoc]
    exact Nat.mul_mod_right ..
  have atStart : position song block % song.size = 0 := aligned _
  refine ⟨fun i _ => ?_, fun i _ => ?_⟩
  · rw [atStart, Nat.zero_add]
    exact Nat.mod_lt i positive
  · rw [atStart, Nat.zero_add, Nat.add_mod, aligned, Nat.zero_add, Nat.mod_mod]

/-- The first block of any song fits. -/
theorem blockFits_first : BlockFits song 0 := by
  have positive : 0 < song.size := song.positive
  have atStart : position song 0 = 0 := by simp [position]
  refine ⟨fun i _ => ?_, fun i _ => ?_⟩
  · rw [atStart, Nat.zero_mod, Nat.zero_add]
    exact Nat.mod_lt i positive
  · rw [atStart, Nat.zero_mod, Nat.zero_add, Nat.mul_zero, Nat.zero_add]

/-- A block fits that lies inside the song. -/
theorem blockFits_inside (block : Nat) (inside : 1000 * (block + 1) ≤ song.size) : BlockFits song block := by
  have early : position song block = 1000 * block := by
    apply position_early
    unfold blocksToEnd
    omega
  have small : ∀ i, i < numeroDeMuestras → i % song.size = i := fun i bound => by
    simp only [numeroDeMuestras] at bound
    exact Nat.mod_eq_of_lt (by omega)
  have start : position song block % song.size = 1000 * block := by
    rw [early, Nat.mod_eq_of_lt (by omega)]
  refine ⟨fun i bound => ?_, fun i bound => ?_⟩
  · rw [start, small i bound]
    simp only [numeroDeMuestras] at bound
    omega
  · rw [start, small i bound]
    simp only [numeroDeMuestras] at bound ⊢
    rw [Nat.mod_eq_of_lt (show 1000 * block + i < song.size by omega)]

/-- The second block of a song shorter than a block reads past its end, unless the
length divides the block length. -/
theorem short_second (short : song.size < 1000) (notDivides : ¬ song.size ∣ numeroDeMuestras) :
    ¬ BlockFits song 1 := by
  rintro ⟨inside, _⟩
  have positive : 0 < song.size := song.positive
  have start : position song 1 = 1000 := by
    apply position_early
    unfold blocksToEnd
    omega
  have offset : 0 < 1000 % song.size := Nat.pos_of_ne_zero fun zero => notDivides (Nat.dvd_of_mod_eq_zero zero)
  have last := inside (song.size - 1) (by simp only [numeroDeMuestras]; omega)
  rw [start, Nat.mod_eq_of_lt (show song.size - 1 < song.size by omega)] at last
  omega

/-- The block in which a longer song ends reads past its end, unless it ends with the
block. -/
theorem long_last (long : 1000 < song.size) (notMultiple : ¬ numeroDeMuestras ∣ song.size) :
    ¬ BlockFits song (song.size / 1000) := by
  rintro ⟨inside, _⟩
  have remainder : 0 < song.size % 1000 := Nat.pos_of_ne_zero fun zero => notMultiple (Nat.dvd_of_mod_eq_zero zero)
  have start : position song (song.size / 1000) = 1000 * (song.size / 1000) := by
    apply position_early
    unfold blocksToEnd
    omega
  have last := inside 999 (by decide)
  rw [start, Nat.mod_eq_of_lt (show 1000 * (song.size / 1000) < song.size by omega),
    Nat.mod_eq_of_lt (show 999 < song.size by omega)] at last
  omega

section Multiple

variable {song} (times : Nat) (whole : song.size = 1000 * times)
include whole

/-- In a song of whole blocks each play sends one of them: it fits if that block equals
the one that is due. -/
theorem blockFits_whole_iff (block : Nat) :
    BlockFits song block ↔ ∀ i, i < numeroDeMuestras →
      song.song (1000 * (block % (times + 1) % times) + i) = song.song (1000 * (block % times) + i) := by
  have positive : 0 < song.size := song.positive
  have blocks : blocksToEnd song = times := by
    unfold blocksToEnd
    omega
  have start : position song block % song.size = 1000 * (block % (times + 1) % times) := by
    rw [position, blocks, whole, Nat.mul_mod_mul_left]
  have below : block % (times + 1) % times < times := Nat.mod_lt _ (by omega)
  have small : ∀ i, i < numeroDeMuestras → i % song.size = i := fun i bound => by
    simp only [numeroDeMuestras] at bound
    exact Nat.mod_eq_of_lt (by omega)
  have due : ∀ i, i < numeroDeMuestras →
      (numeroDeMuestras * block + i) % song.size = 1000 * (block % times) + i := fun i bound => by
    simp only [numeroDeMuestras] at bound ⊢
    have index : (1000 * block + i) / 1000 = block := by omega
    have offset : (1000 * block + i) % 1000 = i := by omega
    rw [whole, Nat.mod_mul, index, offset, Nat.add_comm]
  constructor
  · rintro ⟨_, same⟩ i bound
    have sample := same i bound
    rwa [start, small i bound, due i bound] at sample
  · intro same
    refine ⟨fun i bound => ?_, fun i bound => ?_⟩
    · rw [start, small i bound]
      simp only [numeroDeMuestras] at bound
      omega
    · rw [start, small i bound, due i bound]
      exact same i bound

omit whole in
/-- In the second pass the block sent is one behind the block due. -/
theorem sent_behind (late : Nat) :
    (times + (late + 1)) % (times + 1) = late % (times + 1) ∧
      (times + (late + 1)) % times = (late + 1) % times := by
  constructor
  · rw [show times + (late + 1) = late + (times + 1) by omega, Nat.add_mod_right]
  · rw [Nat.add_mod_left]

/-- The blocks of a second pass fit only if they are equal one after the other. -/
theorem blocks_equal (blocks : Nat) (fits : ∀ block, block < blocks → BlockFits song block) (block : Nat)
    (inside : block < times) (early : block < blocks - times) (i : Nat) (bound : i < numeroDeMuestras) :
    song.song (1000 * block + i) = song.song i := by
  induction block with
  | zero => rw [Nat.mul_zero, Nat.zero_add]
  | succ block inductionHypothesis =>
    obtain ⟨sent, due⟩ := sent_behind times block
    have equal := (blockFits_whole_iff times whole _).mp (fits (times + (block + 1)) (by omega)) i bound
    rw [sent, due, Nat.mod_eq_of_lt inside, Nat.mod_eq_of_lt (show block < times + 1 by omega),
      Nat.mod_eq_of_lt (Nat.lt_of_succ_lt inside)] at equal
    exact equal.symm.trans (inductionHypothesis (by omega) (by omega))

/-- If the samples repeat after each block, as far as the blocks of a second pass are due,
all blocks fit: those of the first pass are the ones that are due. -/
theorem blocks_fit (blocks : Nat)
    (equal : ∀ index, index < song.size → index < 1000 * (blocks - times) →
      song.song index = song.song (index % 1000)) (block : Nat) (inRange : block < blocks) :
    BlockFits song block := by
  have positive : 0 < song.size := song.positive
  apply (blockFits_whole_iff times whole block).mpr
  intro i bound
  simp only [numeroDeMuestras] at bound
  by_cases firstPass : block ≤ times
  · rw [Nat.mod_eq_of_lt (show block < times + 1 by omega)]
  · obtain ⟨late, rfl⟩ : ∃ late, block = times + (late + 1) := ⟨block - times - 1, by omega⟩
    have isFirst : ∀ other, other < times → other ≤ late + 1 →
        song.song (1000 * other + i) = song.song i := by
      intro other inside notLater
      have first := equal (1000 * other + i) (by omega) (by omega)
      rwa [show (1000 * other + i) % 1000 = i by omega] at first
    obtain ⟨sent, due⟩ := sent_behind times late
    have sentBound : late % (times + 1) % times ≤ late := (Nat.mod_le ..).trans (Nat.mod_le ..)
    rw [sent, due, isFirst _ (Nat.mod_lt _ (by omega)) (by omega),
      isFirst _ (Nat.mod_lt _ (by omega)) (Nat.mod_le ..)]

/-- A song of whole blocks is streamed for as long as the blocks of its second pass are all
equal. -/
theorem whole_iff (blocks : Nat) :
    (∀ block, block < blocks → BlockFits song block) ↔
      ∀ index, index < song.size → index < 1000 * (blocks - times) →
        song.song index = song.song (index % 1000) := by
  constructor
  · intro fits index inside early
    have equal := blocks_equal times whole blocks fits (index / 1000) (by omega) (by omega) (index % 1000)
      (Nat.mod_lt _ (by decide))
    rwa [show 1000 * (index / 1000) + index % 1000 = index by omega] at equal
  · intro equal block inRange
    exact blocks_fit times whole blocks equal block inRange

end Multiple

section Lengths

variable (divides : ¬ song.size ∣ numeroDeMuestras)

include divides

/-- In a song of several whole blocks it is the second pass that decides. -/
theorem blockFits_iff_multiple (multiple : numeroDeMuestras ∣ song.size) (blocks : Nat) :
    (∀ block, block < blocks → BlockFits song block) ↔ Fits song blocks := by
  have positive : 0 < song.size := song.positive
  obtain ⟨times, whole⟩ := multiple
  simp only [numeroDeMuestras] at whole
  have quotient : song.size / 1000 = times := by omega
  have longer : times ≠ 1 := by
    rintro rfl
    exact divides ⟨1, by simp only [numeroDeMuestras]; omega⟩
  rw [whole_iff times whole, Fits]
  simp only [numeroDeMuestras, quotient]
  constructor
  · intro equal
    exact Or.inr (Or.inr ⟨⟨times, whole⟩, equal⟩)
  · rintro (impossible | few | ⟨_, equal⟩) index inside early
    · exact absurd impossible divides
    · omega
    · exact equal index inside early

variable (multiple : ¬ numeroDeMuestras ∣ song.size)

include multiple

/-- In a song that ends within a block as many blocks fit as lie inside it, and the first
one in any case. -/
theorem blockFits_iff_few (blocks : Nat) :
    (∀ block, block < blocks → BlockFits song block) ↔ blocks ≤ max 1 (song.size / 1000) := by
  by_cases short : song.size < 1000
  · rw [Nat.div_eq_of_lt short]
    constructor
    · intro all
      by_contra many
      exact short_second song short divides (all 1 (by omega))
    · intro few block inRange
      obtain rfl : block = 0 := by omega
      exact blockFits_first song
  · have apart : song.size ≠ 1000 := fun same => multiple (same ▸ Nat.dvd_refl _)
    have long : 1000 < song.size := Nat.lt_of_le_of_ne (Nat.le_of_not_lt short) apart.symm
    constructor
    · intro all
      by_contra many
      exact long_last song long multiple (all (song.size / 1000) (by omega))
    · intro few block inRange
      exact blockFits_inside song block (by omega)

end Lengths

/-- Which numbers of blocks stream the song. The cases are the ones of the length: a
divisor of the block length, a multiple of it, and neither. -/
theorem blockFits_iff (blocks : Nat) :
    (∀ block, block < blocks → BlockFits song block) ↔ Fits song blocks := by
  by_cases divides : song.size ∣ numeroDeMuestras
  · exact iff_of_true (fun block _ => blockFits_of_dvd song divides block) (Or.inl divides)
  · by_cases multiple : numeroDeMuestras ∣ song.size
    · exact blockFits_iff_multiple song divides multiple blocks
    · rw [blockFits_iff_few song divides multiple blocks]
      simp only [Fits, divides, multiple, false_or, false_and, or_false]
      rfl

end Blocks

/-- The song is streamed exactly when, between any two stops, no more blocks are sent
than fit. -/
theorem streams_iff (song : Song) (flags : Nat → Flags) :
    Streams song flags ↔ ∀ iterations, Fits song (plays flags iterations) := by
  simp only [Streams, task1_eq, sentIndices_iff, blockFits_iff]

/-- A song of one block and a half. -/
def blockAndHalf : Song where
  song _ := 0
  sizeSong := 1500
  positive := by decide
  room := by decide

/-- Playing all the time. -/
def playing (_ : Nat) : Flags := { playSong := 1, pauseSong := 0, stopSong := 0 }

/-- The second block of a song of one block and a half reads past its end. -/
theorem blockAndHalf_overrun : ¬ Streams blockAndHalf playing := by
  intro streams
  have read : 1999 ∈ (task1 blockAndHalf playing 2).sent := by decide +kernel
  exact absurd ((streams 2).1 1999 read) (by decide)

end CpenLabs.SongStream
