import CpenLabs.PrefixCode
import Mathlib.Data.List.Find

/-!
# The scan codes of Lab 5

The keyboard reports a key that is pressed by its make code and a key that is released
by its break code, one to eight bytes each. `ScanCodeToEvent` compares eight bytes with
all codes at once: the bytes that have arrived, in their order, and zeros after them.
`Keyboard_Controller` stores each byte in the next of eight places and clears all of
them when a code has been found.

No code is the beginning of another one and none contains a zero, so the eight places
read a text of codes as a decoder without a bound does. What is no code is never
cleared: the places fill up, the counter of the places starts again at the first one,
and the bytes that are still in the other places are compared with the new one.
-/

namespace CpenLabs.ScanCodes

open PrefixCode Transducers

abbrev Byte := BitVec 8

section Events

/-- The keys in the order of their numbers in `scan_events.h`. -/
inductive Key
  | pause | esc | f1 | f2 | f3 | f4 | f5 | f6 | f7 | f8 | f9 | f10 | f11 | f12 | prtScr | scrLock
  | tilde | one | two | three | four | five | six | seven | eight | nine | zero | minus | equals
  | backspace | tab | q | w | e | r | t | y | u | i | o | p | lfBracket | rtBracket | backslash
  | capsLock | a | s | d | f | g | h | j | k | l | semicolon | apostrophe | enter | lfShift | z | x
  | c | v | b | n | m | comma | period | frontslash | rtShift | lfCtrl | lfWindows | lfAlt | space
  | rtAlt | rtWindows | menus | rtCtrl | insert | home | pageUp | del | endKey | pageDown | upArrow
  | leftArrow | downArrow | rightArrow | numLock | numpadFrontslash | numpadAsterisk | numpadMinus
  | numpad7 | numpad8 | numpad9 | numpadPlus | numpad4 | numpad5 | numpad6 | numpad1 | numpad2
  | numpad3 | numpad0 | numpadPeriod | numpadEnter
  deriving DecidableEq

/-- The types of events. -/
inductive Event
  | none
  | makes (key : Key)
  | breaks (key : Key)
  deriving DecidableEq

/-- The bytes that stand for them. -/
def Event.encoding : Event → Byte
  | none => 0x00
  | makes key => 0x80 + BitVec.ofNat 8 key.ctorIdx
  | breaks key => BitVec.ofNat 8 key.ctorIdx

end Events

section Codes

/-- The make codes in the order of the cases. -/
def makeCodes : Code Byte Event :=
  [([0x76], .makes .esc), ([0x05], .makes .f1), ([0x06], .makes .f2), ([0x04], .makes .f3),
    ([0x0C], .makes .f4), ([0x03], .makes .f5), ([0x0B], .makes .f6), ([0x83], .makes .f7),
    ([0x0A], .makes .f8), ([0x01], .makes .f9), ([0x09], .makes .f10), ([0x78], .makes .f11),
    ([0x07], .makes .f12), ([0xE0, 0x12, 0xE0, 0x7C], .makes .prtScr), ([0x7E], .makes .scrLock),
    ([0xE1, 0x14, 0x77, 0xE1, 0xF0, 0x14, 0xE0, 0x77], .makes .pause), ([0x0E], .makes .tilde),
    ([0x16], .makes .one), ([0x1E], .makes .two), ([0x26], .makes .three), ([0x25], .makes .four),
    ([0x2E], .makes .five), ([0x36], .makes .six), ([0x3D], .makes .seven), ([0x3E], .makes .eight),
    ([0x46], .makes .nine), ([0x45], .makes .zero), ([0x4E], .makes .minus),
    ([0x55], .makes .equals), ([0x66], .makes .backspace), ([0x0D], .makes .tab),
    ([0x15], .makes .q), ([0x1D], .makes .w), ([0x24], .makes .e), ([0x2D], .makes .r),
    ([0x2C], .makes .t), ([0x35], .makes .y), ([0x3C], .makes .u), ([0x43], .makes .i),
    ([0x44], .makes .o), ([0x4D], .makes .p), ([0x54], .makes .lfBracket),
    ([0x5B], .makes .rtBracket), ([0x5D], .makes .backslash), ([0x58], .makes .capsLock),
    ([0x1C], .makes .a), ([0x1B], .makes .s), ([0x23], .makes .d), ([0x2B], .makes .f),
    ([0x34], .makes .g), ([0x33], .makes .h), ([0x3B], .makes .j), ([0x42], .makes .k),
    ([0x4B], .makes .l), ([0x4C], .makes .semicolon), ([0x52], .makes .apostrophe),
    ([0x5A], .makes .enter), ([0x12], .makes .lfShift), ([0x1A], .makes .z), ([0x22], .makes .x),
    ([0x21], .makes .c), ([0x2A], .makes .v), ([0x32], .makes .b), ([0x31], .makes .n),
    ([0x3A], .makes .m), ([0x41], .makes .comma), ([0x49], .makes .period),
    ([0x4A], .makes .frontslash), ([0x59], .makes .rtShift), ([0x14], .makes .lfCtrl),
    ([0xE0, 0x1F], .makes .lfWindows), ([0x11], .makes .lfAlt), ([0x29], .makes .space),
    ([0xE0, 0x11], .makes .rtAlt), ([0xE0, 0x27], .makes .rtWindows), ([0xE0, 0x2F], .makes .menus),
    ([0xE0, 0x14], .makes .rtCtrl), ([0xE0, 0x70], .makes .insert), ([0xE0, 0x6C], .makes .home),
    ([0xE0, 0x7D], .makes .pageUp), ([0xE0, 0x71], .makes .del), ([0xE0, 0x69], .makes .endKey),
    ([0xE0, 0x7A], .makes .pageDown), ([0xE0, 0x75], .makes .upArrow),
    ([0xE0, 0x6B], .makes .leftArrow), ([0xE0, 0x72], .makes .downArrow),
    ([0xE0, 0x74], .makes .rightArrow), ([0x77], .makes .numLock),
    ([0xE0, 0x4A], .makes .numpadFrontslash), ([0x7C], .makes .numpadAsterisk),
    ([0x7B], .makes .numpadMinus), ([0x6C], .makes .numpad7), ([0x75], .makes .numpad8),
    ([0x7D], .makes .numpad9), ([0x79], .makes .numpadPlus), ([0x6B], .makes .numpad4),
    ([0x73], .makes .numpad5), ([0x74], .makes .numpad6), ([0x69], .makes .numpad1),
    ([0x72], .makes .numpad2), ([0x7A], .makes .numpad3), ([0x70], .makes .numpad0),
    ([0x71], .makes .numpadPeriod), ([0xE0, 0x5A], .makes .numpadEnter)]

/-- The break codes. -/
def breakCodes : Code Byte Event :=
  [([0xF0, 0x76], .breaks .esc), ([0xF0, 0x05], .breaks .f1), ([0xF0, 0x06], .breaks .f2),
    ([0xF0, 0x04], .breaks .f3), ([0xF0, 0x0C], .breaks .f4), ([0xF0, 0x03], .breaks .f5),
    ([0xF0, 0x0B], .breaks .f6), ([0xF0, 0x83], .breaks .f7), ([0xF0, 0x0A], .breaks .f8),
    ([0xF0, 0x01], .breaks .f9), ([0xF0, 0x09], .breaks .f10), ([0xF0, 0x78], .breaks .f11),
    ([0xF0, 0x07], .breaks .f12), ([0xE0, 0xF0, 0x7C, 0xE0, 0xF0, 0x12], .breaks .prtScr),
    ([0xF0, 0x7E], .breaks .scrLock), ([0xF0, 0x0E], .breaks .tilde), ([0xF0, 0x16], .breaks .one),
    ([0xF0, 0x1E], .breaks .two), ([0xF0, 0x26], .breaks .three), ([0xF0, 0x25], .breaks .four),
    ([0xF0, 0x2E], .breaks .five), ([0xF0, 0x36], .breaks .six), ([0xF0, 0x3D], .breaks .seven),
    ([0xF0, 0x3E], .breaks .eight), ([0xF0, 0x46], .breaks .nine), ([0xF0, 0x45], .breaks .zero),
    ([0xF0, 0x4E], .breaks .minus), ([0xF0, 0x55], .breaks .equals),
    ([0xF0, 0x66], .breaks .backspace), ([0xF0, 0x0D], .breaks .tab), ([0xF0, 0x15], .breaks .q),
    ([0xF0, 0x1D], .breaks .w), ([0xF0, 0x24], .breaks .e), ([0xF0, 0x2D], .breaks .r),
    ([0xF0, 0x2C], .breaks .t), ([0xF0, 0x35], .breaks .y), ([0xF0, 0x3C], .breaks .u),
    ([0xF0, 0x43], .breaks .i), ([0xF0, 0x44], .breaks .o), ([0xF0, 0x4D], .breaks .p),
    ([0xF0, 0x54], .breaks .lfBracket), ([0xF0, 0x5B], .breaks .rtBracket),
    ([0xF0, 0x5D], .breaks .backslash), ([0xF0, 0x58], .breaks .capsLock),
    ([0xF0, 0x1C], .breaks .a), ([0xF0, 0x1B], .breaks .s), ([0xF0, 0x23], .breaks .d),
    ([0xF0, 0x2B], .breaks .f), ([0xF0, 0x34], .breaks .g), ([0xF0, 0x33], .breaks .h),
    ([0xF0, 0x3B], .breaks .j), ([0xF0, 0x42], .breaks .k), ([0xF0, 0x4B], .breaks .l),
    ([0xF0, 0x4C], .breaks .semicolon), ([0xF0, 0x52], .breaks .apostrophe),
    ([0xF0, 0x5A], .breaks .enter), ([0xF0, 0x12], .breaks .lfShift), ([0xF0, 0x1A], .breaks .z),
    ([0xF0, 0x22], .breaks .x), ([0xF0, 0x21], .breaks .c), ([0xF0, 0x2A], .breaks .v),
    ([0xF0, 0x32], .breaks .b), ([0xF0, 0x31], .breaks .n), ([0xF0, 0x3A], .breaks .m),
    ([0xF0, 0x41], .breaks .comma), ([0xF0, 0x49], .breaks .period),
    ([0xF0, 0x4A], .breaks .frontslash), ([0xF0, 0x59], .breaks .rtShift),
    ([0xF0, 0x14], .breaks .lfCtrl), ([0xE0, 0xF0, 0x1F], .breaks .lfWindows),
    ([0xF0, 0x11], .breaks .lfAlt), ([0xF0, 0x29], .breaks .space),
    ([0xE0, 0xF0, 0x11], .breaks .rtAlt), ([0xE0, 0xF0, 0x27], .breaks .rtWindows),
    ([0xE0, 0xF0, 0x2F], .breaks .menus), ([0xE0, 0xF0, 0x14], .breaks .rtCtrl),
    ([0xE0, 0xF0, 0x70], .breaks .insert), ([0xE0, 0xF0, 0x6C], .breaks .home),
    ([0xE0, 0xF0, 0x7D], .breaks .pageUp), ([0xE0, 0xF0, 0x71], .breaks .del),
    ([0xE0, 0xF0, 0x69], .breaks .endKey), ([0xE0, 0xF0, 0x7A], .breaks .pageDown),
    ([0xE0, 0xF0, 0x75], .breaks .upArrow), ([0xE0, 0xF0, 0x6B], .breaks .leftArrow),
    ([0xE0, 0xF0, 0x72], .breaks .downArrow), ([0xE0, 0xF0, 0x74], .breaks .rightArrow),
    ([0xF0, 0x77], .breaks .numLock), ([0xE0, 0xF0, 0x4A], .breaks .numpadFrontslash),
    ([0xF0, 0x7C], .breaks .numpadAsterisk), ([0xF0, 0x7B], .breaks .numpadMinus),
    ([0xF0, 0x6C], .breaks .numpad7), ([0xF0, 0x75], .breaks .numpad8),
    ([0xF0, 0x7D], .breaks .numpad9), ([0xF0, 0x79], .breaks .numpadPlus),
    ([0xF0, 0x6B], .breaks .numpad4), ([0xF0, 0x73], .breaks .numpad5),
    ([0xF0, 0x74], .breaks .numpad6), ([0xF0, 0x69], .breaks .numpad1),
    ([0xF0, 0x72], .breaks .numpad2), ([0xF0, 0x7A], .breaks .numpad3),
    ([0xF0, 0x70], .breaks .numpad0), ([0xF0, 0x71], .breaks .numpadPeriod),
    ([0xE0, 0xF0, 0x5A], .breaks .numpadEnter)]

/-- The cases of `ScanCodeToEvent`. -/
def scanCodes : Code Byte Event := makeCodes ++ breakCodes

/-- `ScanCodeToEvent`: whether there is an event, and which one. -/
def scanCodeToEvent (iScanCode : List Byte) : Bool × Event :=
  match matching scanCodes iScanCode with
  | some event => (true, event)
  | none => (false, .none)

/-- How long the code is that bytes begin with. -/
def codeLength (text : List Byte) : Nat :=
  if text[0]? = some 0xE1 then 8
  else if text[0]? = some 0xF0 then 2
  else if text[0]? = some 0xE0 then
    if text[1]? = some 0xF0 then if text[2]? = some 0x7C then 6 else 3
    else if text[1]? = some 0x12 then 4 else 2
  else 1

/-- Two or three bytes decide on the length. -/
theorem codeLength_append {code : List Byte} (whole : codeLength code = code.length)
    (rest : List Byte) : codeLength (code ++ rest) = code.length := by
  have kept : ∀ place, place < code.length → (code ++ rest)[place]? = code[place]? :=
    fun place inside => List.getElem?_append_left inside
  have positive : 0 < code.length := by
    rw [← whole, codeLength]
    split_ifs <;> decide
  rw [← whole, codeLength, codeLength, kept 0 positive]
  by_cases extended : code[0]? = some 0xE0
  · have two : 1 < code.length := by
      rw [← whole, codeLength, extended]
      split_ifs <;> first | decide | contradiction
    rw [kept 1 two]
    by_cases released : code[1]? = some 0xF0
    · have three : 2 < code.length := by
        rw [← whole, codeLength, extended, released]
        split_ifs <;> first | decide | contradiction
      rw [kept 2 three]
    · rw [if_neg released, if_neg released]
  · rw [if_neg extended, if_neg extended]

/-- A number for each code, different for different codes. -/
def codeNumber (code : List Byte) : Nat :=
  code.foldl (fun number byte => number * 256 + byte.toNat) 0 % 489

/-- The length of a code is told by its bytes. -/
theorem codeLength_eq : ∀ entry ∈ scanCodes, codeLength entry.1 = entry.1.length := by decide +kernel

/-- No code is in the table twice. -/
theorem codes_distinct : (scanCodes.map Prod.fst).Nodup := by
  have numbers : ((scanCodes.map Prod.fst).map codeNumber).Nodup :=
    (fresh_nodup 0 _ (by decide +kernel)).1
  exact numbers.of_map

/-- No code is the beginning of another one. -/
theorem prefixFree : PrefixFree scanCodes :=
  prefixFree_of_length codeLength (fun entry member => codeLength_append (codeLength_eq entry member))
    codes_distinct (by decide +kernel)

/-- Eight places suffice. -/
theorem length_le : ∀ entry ∈ scanCodes, entry.1.length ≤ 8 := by decide +kernel

/-- The filler of the places is in no code. -/
theorem noZero : ∀ entry ∈ scanCodes, 0x00 ∉ entry.1 := by decide +kernel

/-- Each event has its own byte. -/
theorem encoding_injective :
    ∀ first ∈ Event.none :: scanCodes.map Prod.snd, ∀ second ∈ Event.none :: scanCodes.map Prod.snd,
      first.encoding = second.encoding → first = second := by
  have distinct := (fresh_nodup 0 ((Event.none :: scanCodes.map Prod.snd).map fun event =>
    event.encoding.toNat) (by decide +kernel)).1
  intro first firstMember second secondMember same
  exact List.inj_on_of_nodup_map distinct firstMember secondMember (congrArg BitVec.toNat same)

end Codes

section Places

/-- The registers `ScanBytes` and `ScanByteCntr`. -/
structure Places where
  scanBytes : BitVec 3 → Byte
  scanByteCntr : BitVec 3

/-- The wire `ScanCode`, byte by byte. -/
def Places.scanCode (places : Places) : List Byte :=
  [places.scanBytes 0, places.scanBytes 1, places.scanBytes 2, places.scanBytes 3,
    places.scanBytes 4, places.scanBytes 5, places.scanBytes 6, places.scanBytes 7]

/-- The places without a byte. -/
def Places.cleared : Places := { scanBytes := fun _ => 0x00, scanByteCntr := 0 }

/-- A byte is stored at the counter, which wraps round. -/
def Places.store (scanByte : Byte) (places : Places) : Places where
  scanBytes := Function.update places.scanBytes places.scanByteCntr scanByte
  scanByteCntr := places.scanByteCntr + 1

/-- The always block of the two registers. -/
def Places.step (scanReady : Bool) (scanByte : Byte) (places : Places) : Places :=
  if (scanCodeToEvent places.scanCode).1 then cleared
  else if scanReady then places.store scanByte
  else places

/-- What becomes of a byte: it is stored, and if that completes a code, the places are
cleared one edge later. -/
def parse : Transducer Places Byte Event := fun places scanByte =>
  match matching scanCodes (places.store scanByte).scanCode with
  | some event => (.cleared, [event])
  | none => (places.store scanByte, [])

/-- The places after a few bytes since they have been cleared. -/
def Places.holding (pending : List Byte) : Places where
  scanBytes place := pending.getD place.toNat 0x00
  scanByteCntr := BitVec.ofNat 3 pending.length

variable {pending : List Byte}

/-- Without bytes they are cleared. -/
theorem Places.holding_nil : holding [] = cleared := rfl

/-- The last places show zeros. -/
theorem Places.holding_scanCode (fits : pending.length ≤ 8) :
    (holding pending).scanCode = pending ++ List.replicate (8 - pending.length) 0x00 := by
  have places : (holding pending).scanCode = (List.range 8).map fun place => pending.getD place 0x00 :=
    rfl
  rw [places]
  apply List.ext_getElem?
  intro place
  obtain inside | outside := Nat.lt_or_ge place pending.length
  · rw [List.getElem?_append_left inside, List.getElem?_map, List.getElem?_range (by omega)]
    simp [List.getD_eq_getElem?_getD, inside]
  · rw [List.getElem?_append_right outside, List.getElem?_map, List.getElem?_replicate]
    obtain behind | beyond := Nat.lt_or_ge place 8
    · rw [List.getElem?_range behind, if_pos (by omega)]
      simp [List.getD_eq_getElem?_getD, List.getElem?_eq_none outside]
    · rw [List.getElem?_eq_none (by simpa using beyond), if_neg (by omega)]
      rfl

/-- A byte goes behind the ones that are there. -/
theorem Places.holding_store (fits : pending.length < 8) (scanByte : Byte) :
    (holding pending).store scanByte = holding (pending ++ [scanByte]) := by
  have counter : (BitVec.ofNat 3 pending.length).toNat = pending.length := Nat.mod_eq_of_lt fits
  have bytes : Function.update (holding pending).scanBytes (BitVec.ofNat 3 pending.length) scanByte =
      (holding (pending ++ [scanByte])).scanBytes := by
    funext place
    change _ = (pending ++ [scanByte]).getD place.toNat 0x00
    rw [List.getD_eq_getElem?_getD, List.getElem?_append]
    by_cases here : place = BitVec.ofNat 3 pending.length
    · rw [here, Function.update_self, counter, if_neg (Nat.lt_irrefl _), Nat.sub_self]
      rfl
    · have other : place.toNat ≠ pending.length :=
        fun same => here (BitVec.eq_of_toNat_eq (same.trans counter.symm))
      rw [Function.update_of_ne here]
      change pending.getD place.toNat 0x00 = _
      rw [List.getD_eq_getElem?_getD]
      split_ifs with inside
      · rfl
      · rw [List.getElem?_eq_none (Nat.le_of_not_lt inside), List.getElem?_eq_none]
        rw [List.length_singleton]
        omega
  have counted : BitVec.ofNat 3 pending.length + 1 = BitVec.ofNat 3 (pending ++ [scanByte]).length := by
    rw [List.length_append, List.length_singleton, BitVec.ofNat_add]
    rfl
  exact congrArg₂ Places.mk bytes counted

/-- The zeros after the bytes complete no code. -/
theorem matching_filled (zeros : Nat) :
    matching scanCodes (pending ++ List.replicate zeros 0x00) = matching scanCodes pending := by
  rw [matching, matching]
  congr 1
  apply List.find?_congr
  intro entry member
  rw [Bool.eq_iff_iff, List.isPrefixOf_iff_prefix, List.isPrefixOf_iff_prefix]
  constructor
  · intro begins
    obtain shorter | ⟨rest, longer⟩ := List.prefix_or_prefix_of_prefix begins
      (List.prefix_append pending _)
    · exact shorter
    · rw [← longer, List.prefix_append_right_inj] at begins
      cases rest with
      | nil => exact ⟨[], by rw [List.append_nil, ← longer, List.append_nil]⟩
      | cons byte rest =>
        have zero : byte = 0x00 := List.eq_of_mem_replicate (begins.subset List.mem_cons_self)
        have inside : 0x00 ∈ entry.1 := by
          rw [← longer, ← zero]
          exact List.mem_append_right _ List.mem_cons_self
        exact absurd inside (noZero entry member)
  · exact fun begins => begins.trans (List.prefix_append pending _)

/-- While fewer than eight bytes are kept, the places do what the decoder does. -/
theorem parse_holding (fits : pending.length < 8) (scanByte : Byte) :
    parse (.holding pending) scanByte =
      (.holding (decode scanCodes pending scanByte).1, (decode scanCodes pending scanByte).2) := by
  have longer : (pending ++ [scanByte]).length ≤ 8 := by
    rw [List.length_append, List.length_singleton]
    exact fits
  rw [parse, decode, Places.holding_store fits, Places.holding_scanCode longer, matching_filled]
  cases matching scanCodes (pending ++ [scanByte]) with
  | none => rfl
  | some event => rfl

/-- The places read what the decoder reads, as long as it does not keep eight bytes. -/
theorem parse_decode {text : List Byte} (fits : KeepsBelow scanCodes 8 [] text) :
    after parse .cleared text = .holding (after (decode scanCodes) [] text) ∧
      output parse .cleared text = output (decode scanCodes) [] text := by
  have related := @simulation _ _ _ _ (decode scanCodes) parse
    (fun pending places => places = .holding pending ∧ pending.length < 8)
    (fun pending => pending.length < 8)
    (by
      rintro pending places byte ⟨rfl, fits⟩ kept
      rw [parse_holding fits]
      exact ⟨⟨rfl, kept⟩, rfl⟩)
    [] .cleared ⟨Places.holding_nil.symm, by decide⟩ text fits
  exact ⟨related.1.1, related.2⟩

/-- A text of codes is read back, code by code, and leaves the places clear. -/
theorem parse_codes (entries : List (List Byte × Event))
    (members : ∀ entry ∈ entries, entry ∈ scanCodes) :
    after parse .cleared (entries.flatMap Prod.fst) = .cleared ∧
      output parse .cleared (entries.flatMap Prod.fst) = entries.map Prod.snd := by
  obtain ⟨ended, said, fits⟩ := prefixFree.decode_words length_le entries members
  obtain ⟨places, events⟩ := parse_decode fits
  rw [places, events, ended, said]
  exact ⟨Places.holding_nil, rfl⟩

end Places

section Stale

variable {unknown : Byte} (begins : ∀ entry ∈ scanCodes, entry.1.head? ≠ some unknown)
include begins

/-- After a byte that begins no code nothing is recognised. -/
theorem matching_unknown (text : List Byte) : matching scanCodes (unknown :: text) = none := by
  rw [matching_eq_none]
  intro entry member begun
  cases word : entry.1 with
  | nil => exact prefixFree.nonempty entry member word
  | cons first rest =>
    rw [word, List.cons_prefix_cons] at begun
    exact begins entry member (by rw [word, begun.1]; rfl)

/-- The bytes behind it only fill the places. -/
theorem parse_fills (text pending : List Byte) (fits : pending.length + 1 + text.length ≤ 8) :
    after parse (.holding (unknown :: pending)) text = .holding (unknown :: (pending ++ text)) ∧
      output parse (.holding (unknown :: pending)) text = [] := by
  induction text generalizing pending with
  | nil => exact ⟨by rw [List.append_nil]; rfl, rfl⟩
  | cons byte text inductionHypothesis =>
    rw [List.length_cons] at fits
    have room : (unknown :: pending).length < 8 := by
      rw [List.length_cons]
      omega
    have kept : parse (.holding (unknown :: pending)) byte =
        (.holding (unknown :: (pending ++ [byte])), []) := by
      rw [parse_holding room, decode, List.cons_append, matching_unknown begins]
    obtain ⟨places, events⟩ := inductionHypothesis (pending ++ [byte]) (by
      rw [List.length_append, List.length_singleton]
      omega)
    rw [after, output, kept, places, events, List.append_assoc]
    exact ⟨rfl, rfl⟩

omit begins in
/-- The ninth byte takes the place of the first one. -/
theorem Places.holding_wraps (first : Byte) {rest : List Byte} (full : rest.length = 7) (byte : Byte) :
    ((holding (first :: rest)).store byte).scanCode = byte :: rest := by
  have counter : (holding (first :: rest)).scanByteCntr = 0 := by
    change BitVec.ofNat 3 (rest.length + 1) = 0
    rw [full]
    rfl
  have bytes : ((holding (first :: rest)).store byte).scanBytes = (holding (byte :: rest)).scanBytes := by
    rw [store, counter]
    funext place
    dsimp only
    by_cases here : place = 0
    · rw [here, Function.update_self]
      rfl
    · rw [Function.update_of_ne here]
      obtain ⟨before, next⟩ : ∃ before, place.toNat = before + 1 :=
        Nat.exists_eq_succ_of_ne_zero fun zero => here (BitVec.eq_of_toNat_eq zero)
      change (first :: rest).getD place.toNat 0x00 = (byte :: rest).getD place.toNat 0x00
      rw [next]
      rfl
  have fits : (byte :: rest).length ≤ 8 := by rw [List.length_cons, full]
  have shown := holding_scanCode fits
  rw [List.length_cons, full, Nat.sub_self, List.replicate_zero, List.append_nil] at shown
  rw [← shown, scanCode, scanCode, bytes]

/-- Behind such a byte seven more are swallowed without an event. -/
theorem parse_swallowed (swallowed : List Byte) (seven : swallowed.length = 7) :
    after parse .cleared (unknown :: swallowed) = .holding (unknown :: swallowed) ∧
      output parse .cleared (unknown :: swallowed) = [] := by
  have first : parse .cleared unknown = (.holding [unknown], []) := by
    rw [← Places.holding_nil, parse_holding (by decide), decode, List.nil_append,
      matching_unknown begins]
  obtain ⟨places, events⟩ := parse_fills begins swallowed [] (by rw [seven]; decide)
  rw [after, output, first, places, events]
  exact ⟨rfl, rfl⟩

/-- A byte that begins no code swallows the seven bytes behind it, and the next one is
compared with the codes as if these had followed it. -/
theorem parse_stale (swallowed : List Byte) (seven : swallowed.length = 7) (byte : Byte) :
    output parse .cleared (unknown :: swallowed ++ [byte]) =
      (matching scanCodes (byte :: swallowed)).toList := by
  obtain ⟨places, events⟩ := parse_swallowed begins swallowed seven
  rw [output_append, places, events, output, output, parse, Places.holding_wraps unknown seven]
  cases matching scanCodes (byte :: swallowed) with
  | none => rfl
  | some event => rfl

/-- If the make code of a key is the first one to be swallowed, the release of the key
becomes another press: the first byte of its break code is taken for the whole of it. -/
theorem release_pressed {key : Key} {code : Byte} (make : ([code], .makes key) ∈ scanCodes)
    (release : ([0xF0, code], .breaks key) ∈ scanCodes) (swallowed : List Byte)
    (six : swallowed.length = 6) :
    output parse .cleared (unknown :: (code :: swallowed) ++ [0xF0, code]) =
      [.breaks key, .makes key] := by
  have seven : (code :: swallowed).length = 7 := congrArg Nat.succ six
  obtain ⟨places, events⟩ := parse_swallowed begins (code :: swallowed) seven
  have stale : matching scanCodes (0xF0 :: code :: swallowed) = some (.breaks key) :=
    prefixFree.matching_word release (List.prefix_append [0xF0, code] swallowed)
  have released : parse (.holding (unknown :: code :: swallowed)) 0xF0 = (.cleared, [.breaks key]) := by
    rw [parse, Places.holding_wraps unknown seven, stale]
  obtain ⟨-, pressed⟩ := parse_codes [([code], .makes key)] fun entry member =>
    List.mem_singleton.mp member ▸ make
  rw [output_append, places, events, output, released]
  exact congrArg (.breaks key :: ·) pressed

end Stale

end CpenLabs.ScanCodes
