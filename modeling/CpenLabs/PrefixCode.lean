import CpenLabs.Transducers
import Mathlib.Data.List.Infix
import Mathlib.Data.List.Nodup

/-!
# Decoding a prefix code

A code assigns words to symbols. If no word is the beginning of another one, a
decoder that compares everything it has read since the last symbol with the whole
code reads a text of words back: it never stops early, and it never waits for more
than the word in hand.

The decoder keeps what it has read in a list without a bound. A machine that keeps it
in a few places has to show that the places suffice; the words still to be completed
are beginnings of words of the code.
-/

namespace CpenLabs.PrefixCode

open Transducers

universe u v
variable {α : Type u} {ε : Type v}

/-- The words of a code with their symbols. -/
abbrev Code (α : Type u) (ε : Type v) := List (List α × ε)

/-- No word is the beginning of another one, and none is empty. -/
structure PrefixFree (code : Code α ε) : Prop where
  same : ∀ first ∈ code, ∀ second ∈ code, first.1 <+: second.1 → first = second
  nonempty : ∀ entry ∈ code, entry.1 ≠ []

variable [DecidableEq α]

/-- The first word of the code that a text begins with. -/
def matching (code : Code α ε) (text : List α) : Option ε :=
  (code.find? fun entry => entry.1.isPrefixOf text).map Prod.snd

variable {code : Code α ε}

/-- There is no match exactly if no code word begins the text. -/
theorem matching_eq_none {text : List α} :
    matching code text = none ↔ ∀ entry ∈ code, ¬ entry.1 <+: text := by
  rw [matching, Option.map_eq_none_iff, List.find?_eq_none]
  simp only [List.isPrefixOf_iff_prefix]

/-- A text that begins with a word is recognised by it. -/
theorem PrefixFree.matching_word (free : PrefixFree code) {entry : List α × ε} (member : entry ∈ code)
    {text : List α} (begins : entry.1 <+: text) : matching code text = some entry.2 := by
  rw [matching, Option.map_eq_some_iff]
  refine ⟨entry, ?_, rfl⟩
  obtain ⟨found, search⟩ : ∃ found, code.find? (fun other => other.1.isPrefixOf text) = some found := by
    rw [← Option.isSome_iff_exists, List.find?_isSome]
    exact ⟨entry, member, List.isPrefixOf_iff_prefix.mpr begins⟩
  have foundMember := List.mem_of_find?_eq_some search
  have recognised := List.find?_some search
  have foundBegins : found.1 <+: text := List.isPrefixOf_iff_prefix.mp recognised
  have same : found = entry := by
    obtain shorter | longer := List.prefix_or_prefix_of_prefix foundBegins begins
    · exact free.same found foundMember entry member shorter
    · exact (free.same entry member found foundMember longer).symm
  rw [search, same]

/-- A word that is not complete is not recognised. -/
theorem PrefixFree.matching_unfinished (free : PrefixFree code) {entry : List α × ε}
    (member : entry ∈ code) {text rest : List α} (splits : text ++ rest = entry.1) (more : rest ≠ []) :
    matching code text = none := by
  rw [matching_eq_none]
  intro other otherMember begins
  have shorter : text <+: entry.1 := ⟨rest, splits⟩
  have same := free.same other otherMember entry member (begins.trans shorter)
  rw [same, ← splits] at begins
  have lengths := begins.length_le
  rw [List.length_append] at lengths
  have positive := List.length_pos_iff.mpr more
  omega

section Decoder

/-- One more symbol of the text: a recognised word is given out, with its end. -/
def decode (code : Code α ε) : Transducer (List α) α ε := fun pending item =>
  match matching code (pending ++ [item]) with
  | some symbol => ([], [symbol])
  | none => (pending ++ [item], [])

/-- What is kept stays shorter than a number of places. -/
abbrev KeepsBelow (code : Code α ε) (places : Nat) : List α → List α → Prop :=
  Throughout (decode code) fun pending => pending.length < places

/-- The rest of a word, after its beginning has been read. -/
theorem PrefixFree.decode_rest (free : PrefixFree code) {entry : List α × ε} (member : entry ∈ code)
    (rest pending : List α) (splits : pending ++ rest = entry.1) (more : rest ≠ []) :
    after (decode code) pending rest = [] ∧ output (decode code) pending rest = [entry.2] ∧
      KeepsBelow code entry.1.length pending rest := by
  induction rest generalizing pending with
  | nil => exact absurd rfl more
  | cons item rest inductionHypothesis =>
    have splits' : (pending ++ [item]) ++ rest = entry.1 := by
      rw [List.append_assoc]
      exact splits
    cases rest with
    | nil =>
      have complete : entry.1 <+: pending ++ [item] := by rw [← splits', List.append_nil]
      have read : decode code pending item = ([], [entry.2]) := by
        rw [decode, free.matching_word member complete]
      rw [after, output, KeepsBelow, Throughout, read]
      exact ⟨rfl, rfl, List.length_pos_iff.mpr (free.nonempty entry member), trivial⟩
    | cons next rest =>
      have read : decode code pending item = (pending ++ [item], []) := by
        rw [decode, free.matching_unfinished member splits' (List.cons_ne_nil _ _)]
      have shorter : (pending ++ [item]).length < entry.1.length := by
        have lengths := congrArg List.length splits'
        rw [List.length_append, List.length_cons] at lengths
        exact lengths ▸ Nat.lt_add_of_pos_right (Nat.succ_pos _)
      obtain ⟨ended, said, kept⟩ := inductionHypothesis _ splits' (List.cons_ne_nil _ _)
      rw [after, output, KeepsBelow, Throughout, read]
      exact ⟨ended, said, shorter, kept⟩

/-- A text of words is read back, nothing is left over, and no more is kept than the
longest word has symbols. -/
theorem PrefixFree.decode_words (free : PrefixFree code) {places : Nat}
    (suffice : ∀ entry ∈ code, entry.1.length ≤ places) (entries : List (List α × ε))
    (members : ∀ entry ∈ entries, entry ∈ code) :
    after (decode code) [] (entries.flatMap Prod.fst) = [] ∧
      output (decode code) [] (entries.flatMap Prod.fst) = entries.map Prod.snd ∧
      KeepsBelow code places [] (entries.flatMap Prod.fst) := by
  induction entries with
  | nil => exact ⟨rfl, rfl, trivial⟩
  | cons entry entries inductionHypothesis =>
    have member := members entry List.mem_cons_self
    obtain ⟨ended, said, kept⟩ := free.decode_rest member entry.1 [] rfl (free.nonempty entry member)
    obtain ⟨endedAll, saidAll, keptAll⟩ :=
      inductionHypothesis fun other later => members other (List.mem_cons_of_mem entry later)
    have kept' : KeepsBelow code places [] entry.1 :=
      kept.mono fun _ shorter => Nat.lt_of_lt_of_le shorter (suffice entry member)
    rw [← ended] at keptAll
    rw [List.flatMap_cons, after_append, output_append, ended, said, endedAll, saidAll]
    exact ⟨rfl, rfl, kept'.append keptAll⟩

end Decoder

section Distinct

/-- No number occurs twice, and none is in the set that the bits of `seen` stand for. -/
def fresh : Nat → List Nat → Bool
  | _, [] => true
  | seen, number :: rest => !seen.testBit number && fresh (seen ||| 1 <<< number) rest

/-- One pass with a set of bits finds out whether numbers are distinct. -/
theorem fresh_nodup (seen : Nat) (numbers : List Nat) (distinct : fresh seen numbers = true) :
    numbers.Nodup ∧ ∀ number ∈ numbers, seen.testBit number = false := by
  induction numbers generalizing seen with
  | nil => exact ⟨List.nodup_nil, fun number member => absurd member List.not_mem_nil⟩
  | cons number rest inductionHypothesis =>
    rw [fresh, Bool.and_eq_true, Bool.not_eq_true'] at distinct
    obtain ⟨unseen, further⟩ := distinct
    obtain ⟨restDistinct, restUnseen⟩ := inductionHypothesis _ further
    have other : ∀ later ∈ rest, seen.testBit later = false ∧ number ≠ later := by
      intro later member
      have bits := restUnseen later member
      rw [Nat.testBit_or, Bool.or_eq_false_iff, Nat.one_shiftLeft, Nat.testBit_two_pow] at bits
      exact ⟨bits.1, of_decide_eq_false bits.2⟩
    refine ⟨List.nodup_cons.mpr ⟨fun member => (other number member).2 rfl, restDistinct⟩, ?_⟩
    intro later member
    obtain rfl | member := List.mem_cons.mp member
    · exact unseen
    · exact (other later member).1

end Distinct

section Lengths

variable {β : Type u}

/-- If the beginning of a text says how long its first word is, then no word is the
beginning of another one. -/
theorem prefixFree_of_length {code : Code β ε} (length : List β → Nat)
    (lengths : ∀ entry ∈ code, ∀ rest, length (entry.1 ++ rest) = entry.1.length)
    (distinct : (code.map Prod.fst).Nodup) (nonempty : ∀ entry ∈ code, entry.1 ≠ []) :
    PrefixFree code where
  same := by
    intro first firstMember second secondMember begins
    have whole := lengths second secondMember []
    obtain ⟨rest, longer⟩ := begins
    rw [List.append_nil, ← longer, lengths first firstMember rest, List.length_append] at whole
    have nothing : rest = [] := List.length_eq_zero_iff.mp (by omega)
    rw [nothing, List.append_nil] at longer
    exact List.inj_on_of_nodup_map distinct firstMember secondMember longer
  nonempty := nonempty

end Lengths

end CpenLabs.PrefixCode
