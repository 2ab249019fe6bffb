import UBus.Json.Utf8
import UBus.Library.SelfDelimiting

/-!
# Characters of a JSON string

The lexer of the library reads a string one character at a time.  A character
stands for itself, or is written as an escape sequence, with two sequences for
a character outside the basic plane.
-/

namespace UBus.Lexer

open Utf8 (Range trail Within IsSequence)

/-- The value of a digit in `get_codepoint`. -/
def hexValue (current : UInt8) : Option Nat :=
  if 0x30 ≤ current ∧ current ≤ 0x39 then some (current.toNat - 0x30)
  else if 0x41 ≤ current ∧ current ≤ 0x46 then some (current.toNat - 0x37)
  else if 0x61 ≤ current ∧ current ≤ 0x66 then some (current.toNat - 0x57)
  else none

/-- The loop of `get_codepoint` over the factors of the digits. -/
def getCodepointFrom (codepoint : Nat) : List Nat → Bytes → Option (Nat × Bytes)
  | [], text => some (codepoint, text)
  | _ :: _, [] => none
  | factor :: factors, current :: text =>
      (hexValue current).bind fun digit =>
        getCodepointFrom (codepoint + digit <<< factor) factors text

def getCodepoint (text : Bytes) : Option (Nat × Bytes) := getCodepointFrom 0 [12, 8, 4, 0] text

/-- The bytes that are added to the token for a code point. -/
def encodeCodepoint (codepoint : Nat) : Bytes :=
  if codepoint < 0x80 then [codepoint.toUInt8]
  else if codepoint ≤ 0x7FF then
    [(0xC0 ||| (codepoint >>> 6)).toUInt8, (0x80 ||| (codepoint &&& 0x3F)).toUInt8]
  else if codepoint ≤ 0xFFFF then
    [(0xE0 ||| (codepoint >>> 12)).toUInt8, (0x80 ||| ((codepoint >>> 6) &&& 0x3F)).toUInt8,
      (0x80 ||| (codepoint &&& 0x3F)).toUInt8]
  else
    [(0xF0 ||| (codepoint >>> 18)).toUInt8, (0x80 ||| ((codepoint >>> 12) &&& 0x3F)).toUInt8,
      (0x80 ||| ((codepoint >>> 6) &&& 0x3F)).toUInt8, (0x80 ||| (codepoint &&& 0x3F)).toUInt8]

/-- A high surrogate calls for a low one in a second sequence, and a low one
does not come first. -/
def scanUnicode (text : Bytes) : Option (Bytes × Bytes) :=
  (getCodepoint text).bind fun (codepoint1, text) =>
    if 0xD800 ≤ codepoint1 ∧ codepoint1 ≤ 0xDBFF then
      match text with
      | 92 :: 117 :: text =>
          (getCodepoint text).bind fun (codepoint2, text) =>
            if 0xDC00 ≤ codepoint2 ∧ codepoint2 ≤ 0xDFFF then
              some (encodeCodepoint (codepoint1 <<< 10 + codepoint2 - 0x35FDC00), text)
            else none
      | _ => none
    else if 0xDC00 ≤ codepoint1 ∧ codepoint1 ≤ 0xDFFF then none
    else some (encodeCodepoint codepoint1, text)

def escapedByte (letter : UInt8) : Option UInt8 :=
  ([(34, 34), (92, 92), (47, 47), (98, 8), (102, 12), (110, 10), (114, 13), (116, 9)] :
    List (UInt8 × UInt8)).lookup letter

def scanEscape : Bytes → Option (Bytes × Bytes)
  | [] => none
  | current :: text =>
      if current = 117 then scanUnicode text
      else (escapedByte current).map fun byte => ([byte], text)

/-- The bytes that are to follow a character's first one, by the cases of
`scan_string`.  A control character and a byte that cannot start a sequence
are errors, and the quotation mark ends the string. -/
def characterRanges (current : UInt8) : Option (List Range) :=
  if 0x20 ≤ current ∧ current ≤ 0x7F ∧ current ≠ 34 ∧ current ≠ 92 then some []
  else if 0xC2 ≤ current ∧ current ≤ 0xDF then some [(0x80, 0xBF)]
  else if current = 0xE0 then some [(0xA0, 0xBF), (0x80, 0xBF)]
  else if 0xE1 ≤ current ∧ current ≤ 0xEF ∧ current ≠ 0xED then some [(0x80, 0xBF), (0x80, 0xBF)]
  else if current = 0xED then some [(0x80, 0x9F), (0x80, 0xBF)]
  else if current = 0xF0 then some [(0x90, 0xBF), (0x80, 0xBF), (0x80, 0xBF)]
  else if 0xF1 ≤ current ∧ current ≤ 0xF3 then some [(0x80, 0xBF), (0x80, 0xBF), (0x80, 0xBF)]
  else if current = 0xF4 then some [(0x80, 0x8F), (0x80, 0xBF), (0x80, 0xBF)]
  else none

/-- One round of the loop of `scan_string`: what is added to the token, and
what is left of the input. -/
def scanCharacter : Bytes → Option (Bytes × Bytes)
  | [] => none
  | current :: text =>
      if current = 92 then scanEscape text
      else (characterRanges current).bind fun ranges =>
        (nextByteInRange ranges text).map fun read => (current :: read.1, read.2)

def IsHex (digits : Bytes) (code : Nat) : Prop :=
  ∃ first second third fourth, digits.map hexValue = [some first, some second, some third,
    some fourth] ∧ code = first * 0x1000 + second * 0x100 + third * 0x10 + fourth

/-- The ways to write a character after `\\u`. -/
inductive UnicodeSpelling : Char → Bytes → Prop
  | single {character : Char} {digits : Bytes} (hex : IsHex digits character.val.toNat) :
      UnicodeSpelling character digits
  | surrogates {character : Char} {digits digits' : Bytes} {high low : Nat}
      (hex : IsHex digits high) (isHigh : 0xD800 ≤ high ∧ high ≤ 0xDBFF)
      (hex' : IsHex digits' low) (isLow : 0xDC00 ≤ low ∧ low ≤ 0xDFFF)
      (code : character.val.toNat = 0x10000 + (high - 0xD800) * 0x400 + (low - 0xDC00)) :
      UnicodeSpelling character (digits ++ 92 :: 117 :: digits')

/-- The ways to write a character in a string. -/
inductive Spelling : Char → Bytes → Prop
  | plain {character : Char} (printable : 0x20 ≤ character.val.toNat)
      (notQuote : character.val.toNat ≠ 34) (notBackslash : character.val.toNat ≠ 92) :
      Spelling character (String.utf8EncodeChar character)
  | escape {character : Char} {letter byte : UInt8} (escaped : escapedByte letter = some byte)
      (code : character.val.toNat = byte.toNat) : Spelling character [92, letter]
  | unicode {character : Char} {digits : Bytes} (spelled : UnicodeSpelling character digits) :
      Spelling character (92 :: 117 :: digits)

theorem hexValue_lt {digit : UInt8} {value : Nat} (found : hexValue digit = some value) :
    value < 16 := by
  unfold hexValue at found
  simp only [UInt8.le_iff_toNat_le, UInt8.reduceToNat] at found
  split_ifs at found <;>
    obtain rfl := Option.some.inj found <;> omega

theorem IsHex.code_lt {digits : Bytes} {code : Nat} (hex : IsHex digits code) : code < 0x10000 := by
  obtain ⟨first, second, third, fourth, values, rfl⟩ := hex
  have small : ∀ value, some value ∈ digits.map hexValue → value < 16 := by
    intro value member
    obtain ⟨digit, -, found⟩ := List.mem_map.mp member
    exact hexValue_lt found
  rw [values] at small
  have := small first (by simp)
  have := small second (by simp)
  have := small third (by simp)
  have := small fourth (by simp)
  omega

theorem getCodepointFrom_cons {codepoint factor : Nat} {factors : List Nat} {text : Bytes}
    {read : Nat × Bytes} :
    getCodepointFrom codepoint (factor :: factors) text = some read ↔
      ∃ current value rest, text = current :: rest ∧ hexValue current = some value ∧
        getCodepointFrom (codepoint + value <<< factor) factors rest = some read := by
  cases text with
  | nil => simp [getCodepointFrom]
  | cons current text => simp [getCodepointFrom, Option.bind_eq_some_iff]

theorem getCodepoint_eq_some {text rest : Bytes} {code : Nat} :
    getCodepoint text = some (code, rest) ↔
      ∃ digits, IsHex digits code ∧ text = digits ++ rest := by
  simp only [getCodepoint, getCodepointFrom_cons, getCodepointFrom, Nat.shiftLeft_eq]
  constructor
  · rintro ⟨digit₁, first, _, rfl, found₁, digit₂, second, _, rfl, found₂, digit₃, third, _, rfl,
      found₃, digit₄, fourth, _, rfl, found₄, read⟩
    obtain ⟨rfl, rfl⟩ := Prod.mk.inj (Option.some.inj read)
    refine ⟨[digit₁, digit₂, digit₃, digit₄], ⟨first, second, third, fourth, ?_, by omega⟩, rfl⟩
    simp [found₁, found₂, found₃, found₄]
  · rintro ⟨digits, ⟨first, second, third, fourth, values, rfl⟩, rfl⟩
    obtain ⟨digit₁, _, rfl, found₁, values⟩ := List.map_eq_cons_iff.mp values
    obtain ⟨digit₂, _, rfl, found₂, values⟩ := List.map_eq_cons_iff.mp values
    obtain ⟨digit₃, _, rfl, found₃, values⟩ := List.map_eq_cons_iff.mp values
    obtain ⟨digit₄, _, rfl, found₄, values⟩ := List.map_eq_cons_iff.mp values
    obtain rfl := List.map_eq_nil_iff.mp values
    exact ⟨_, _, _, rfl, found₁, _, _, _, rfl, found₂, _, _, _, rfl, found₃, _, _, _, rfl, found₄,
      by simp⟩

theorem IsHex.getCodepoint {digits : Bytes} {code : Nat} (hex : IsHex digits code) (rest : Bytes) :
    getCodepoint (digits ++ rest) = some (code, rest) :=
  getCodepoint_eq_some.mpr ⟨digits, hex, rfl⟩

/-- The bits that mark a byte of a sequence do not meet the bits of the code
point. -/
theorem or_mark {mark bits : Nat} (range : mark = 0xC0 ∧ bits < 0x20 ∨ mark = 0xE0 ∧ bits < 0x10 ∨
    mark = 0xF0 ∧ bits < 0x08 ∨ mark = 0x80 ∧ bits < 0x40) : mark ||| bits = bits + mark := by
  have table : (∀ bits < 0x20, 0xC0 ||| bits = bits + 0xC0) ∧
      (∀ bits < 0x10, 0xE0 ||| bits = bits + 0xE0) ∧
      (∀ bits < 0x08, 0xF0 ||| bits = bits + 0xF0) ∧
      ∀ bits < 0x40, 0x80 ||| bits = bits + 0x80 := by
    decide +kernel
  rcases range with ⟨rfl, small⟩ | ⟨rfl, small⟩ | ⟨rfl, small⟩ | ⟨rfl, small⟩
  · exact table.1 bits small
  · exact table.2.1 bits small
  · exact table.2.2.1 bits small
  · exact table.2.2.2 bits small

theorem encodeCodepoint_char (character : Char) :
    encodeCodepoint character.val.toNat = String.utf8EncodeChar character := by
  have valid : character.val.toNat < 0xD800 ∨
      0xDFFF < character.val.toNat ∧ character.val.toNat < 0x110000 := character.valid
  unfold encodeCodepoint String.utf8EncodeChar
  generalize character.val.toNat = code at valid
  have low (number : Nat) : number &&& 0x3F = number % 0x40 :=
    Nat.and_two_pow_sub_one_eq_mod number 6
  have tail (number : Nat) : 0x80 ||| number % 0x40 = number % 0x40 + 0x80 := or_mark (by omega)
  simp only [Nat.shiftRight_eq_div_pow, low, tail, Nat.toUInt8, Nat.reducePow]
  by_cases one : code ≤ 0x7F
  · rw [if_pos (by omega), if_pos one]
  by_cases two : code ≤ 0x7FF
  · rw [if_neg (by omega), if_pos two, if_neg one, if_pos two, or_mark (by omega),
      Nat.mod_eq_of_lt (by omega : code / 64 < 0x20)]
  by_cases three : code ≤ 0xFFFF
  · rw [if_neg (by omega), if_neg two, if_pos three, if_neg one, if_neg two, if_pos three,
      or_mark (by omega), Nat.mod_eq_of_lt (by omega : code / 4096 < 0x10)]
  · rw [if_neg (by omega), if_neg two, if_neg three, if_neg one, if_neg two, if_neg three,
      or_mark (by omega), Nat.mod_eq_of_lt (by omega : code / 262144 < 0x08)]

theorem characterRanges_eq (current : UInt8) :
    characterRanges current =
      if current < 0x20 ∨ current = 34 ∨ current = 92 then none else trail current := by
  have table : ∀ code < 256, characterRanges (UInt8.ofNat code) =
      if UInt8.ofNat code < 0x20 ∨ UInt8.ofNat code = 34 ∨ UInt8.ofNat code = 92 then none
      else trail (UInt8.ofNat code) := by
    decide +kernel
  simpa using table current.toNat current.toNat_lt

theorem exists_char_of_surrogates {high low : Nat} (isHigh : 0xD800 ≤ high ∧ high ≤ 0xDBFF)
    (isLow : 0xDC00 ≤ low ∧ low ≤ 0xDFFF) :
    ∃ character : Char,
      character.val.toNat = 0x10000 + (high - 0xD800) * 0x400 + (low - 0xDC00) := by
  apply Utf8.exists_char
  unfold Nat.isValidChar
  omega

theorem UnicodeSpelling.of_scan {text added rest : Bytes}
    (scanned : scanUnicode text = some (added, rest)) :
    ∃ character digits, UnicodeSpelling character digits ∧ text = digits ++ rest ∧
      added = String.utf8EncodeChar character := by
  obtain ⟨⟨code, left⟩, found, first⟩ := Option.bind_eq_some_iff.mp scanned
  obtain ⟨digits, hex, rfl⟩ := getCodepoint_eq_some.mp found
  dsimp only at first
  split_ifs at first with isHigh isLow
  · split at first
    · rename_i later
      obtain ⟨⟨code', left'⟩, found', second⟩ := Option.bind_eq_some_iff.mp first
      obtain ⟨digits', hex', rfl⟩ := getCodepoint_eq_some.mp found'
      simp only [Option.ite_none_right_eq_some, Option.some.injEq, Prod.mk.injEq] at second
      obtain ⟨isLow, rfl, rfl⟩ := second
      obtain ⟨character, codeEq⟩ := exists_char_of_surrogates isHigh isLow
      refine ⟨character, _, .surrogates hex isHigh hex' isLow codeEq, by simp, ?_⟩
      -- the noise of the surrogates is taken off at once
      have same : code <<< 10 + code' - 0x35FDC00 = character.val.toNat := by
        rw [codeEq, Nat.shiftLeft_eq]
        omega
      rw [same, encodeCodepoint_char]
    · simp at first
  · obtain ⟨rfl, rfl⟩ := Prod.mk.inj (Option.some.inj first)
    have valid : code.isValidChar := by
      have := hex.code_lt
      unfold Nat.isValidChar
      omega
    obtain ⟨character, rfl⟩ := Utf8.exists_char valid
    exact ⟨character, digits, .single hex, rfl, encodeCodepoint_char character⟩

theorem UnicodeSpelling.scan {character : Char} {digits : Bytes}
    (spelled : UnicodeSpelling character digits) (rest : Bytes) :
    scanUnicode (digits ++ rest) = some (String.utf8EncodeChar character, rest) := by
  have valid : character.val.toNat < 0xD800 ∨
      0xDFFF < character.val.toNat ∧ character.val.toNat < 0x110000 := character.valid
  cases spelled with
  | single hex =>
      rw [scanUnicode, hex.getCodepoint, Option.bind_some]
      dsimp only
      rw [if_neg (by omega), if_neg (by omega), encodeCodepoint_char]
  | @surrogates digits digits' high low hex isHigh hex' isLow code =>
      have codeEq : high <<< 10 + low - 0x35FDC00 = character.val.toNat := by
        rw [code, Nat.shiftLeft_eq]
        omega
      rw [List.append_assoc, List.cons_append, List.cons_append, scanUnicode,
        hex.getCodepoint, Option.bind_some]
      dsimp only
      rw [if_pos isHigh]
      simp only [hex'.getCodepoint, Option.bind_some, if_pos isLow, codeEq, encodeCodepoint_char]

theorem escapedByte_ascii {letter byte : UInt8} (escaped : escapedByte letter = some byte) :
    byte.toNat < 0x80 ∧ letter ≠ 117 := by
  obtain ⟨before, after, tableEq, -⟩ := List.lookup_eq_some_iff.mp escaped
  have ascii : (([(34, 34), (92, 92), (47, 47), (98, 8), (102, 12), (110, 10), (114, 13),
      (116, 9)] : List (UInt8 × UInt8)).all fun entry =>
        decide (entry.2.toNat < 0x80 ∧ entry.1 ≠ 117)) = true := by
    decide
  exact of_decide_eq_true (List.all_eq_true.mp ascii (letter, byte) (by simp [tableEq]))

theorem encode_ascii {character : Char} {byte : UInt8} (small : byte.toNat < 0x80)
    (code : character.val.toNat = byte.toNat) : String.utf8EncodeChar character = [byte] := by
  obtain ⟨lead, trailing, encoded, ascii, -⟩ := Utf8.encode_lead character
  obtain ⟨leadEq, rfl⟩ := ascii (by omega)
  rw [encoded, UInt8.toNat_inj.mp (leadEq.trans code)]

/-- Characters that stand for themselves are told by their first byte. -/
theorem plain_iff {character : Char} {lead : UInt8} {trailing : Bytes}
    (encoded : String.utf8EncodeChar character = lead :: trailing) :
    (0x20 ≤ character.val.toNat ∧ character.val.toNat ≠ 34 ∧ character.val.toNat ≠ 92) ↔
      ¬ (lead < 0x20 ∨ lead = 34 ∨ lead = 92) := by
  obtain ⟨lead', trailing', encoded', ascii, high⟩ := Utf8.encode_lead character
  obtain ⟨rfl, rfl⟩ := List.cons.inj (encoded.symm.trans encoded')
  simp only [UInt8.lt_iff_toNat_lt, ← UInt8.toNat_inj, UInt8.reduceToNat]
  by_cases small : character.val.toNat < 0x80
  · have same := (ascii small).1
    omega
  · have large := high (by omega)
    omega

theorem Spelling.of_scan {text added rest : Bytes}
    (scanned : scanCharacter text = some (added, rest)) :
    ∃ character piece, Spelling character piece ∧ text = piece ++ rest ∧
      added = String.utf8EncodeChar character := by
  cases text with
  | nil => simp [scanCharacter] at scanned
  | cons current text =>
      simp only [scanCharacter] at scanned
      split_ifs at scanned with isBackslash
      · subst isBackslash
        cases text with
        | nil => simp [scanEscape] at scanned
        | cons letter text =>
            simp only [scanEscape] at scanned
            split_ifs at scanned with isUnicode
            · subst isUnicode
              obtain ⟨character, digits, spelled, rfl, encoded⟩ := UnicodeSpelling.of_scan scanned
              exact ⟨character, _, .unicode spelled, rfl, encoded⟩
            · obtain ⟨byte, escaped, same⟩ := Option.map_eq_some_iff.mp scanned
              obtain ⟨rfl, rfl⟩ := Prod.mk.inj same
              have small := (escapedByte_ascii escaped).1
              obtain ⟨character, code⟩ :=
                Utf8.exists_char (Or.inl (by omega) : byte.toNat.isValidChar)
              exact ⟨character, _, .escape escaped code, rfl, (encode_ascii small code).symm⟩
      · obtain ⟨ranges, found, scanned⟩ := Option.bind_eq_some_iff.mp scanned
        obtain ⟨⟨trailing, left⟩, read, same⟩ := Option.map_eq_some_iff.mp scanned
        obtain ⟨rfl, rfl⟩ := Prod.mk.inj same
        obtain ⟨within, rfl⟩ := nextByteInRange_eq_some.mp read
        rw [characterRanges_eq] at found
        split_ifs at found with special
        obtain ⟨character, encoded⟩ :=
          Utf8.exists_encode ⟨current, trailing, ranges, rfl, found, within⟩
        obtain ⟨printable, notQuote, notBackslash⟩ := (plain_iff encoded).mpr special
        refine ⟨character, current :: trailing, ?_, rfl, encoded.symm⟩
        exact encoded ▸ .plain printable notQuote notBackslash

theorem Spelling.scan {character : Char} {piece : Bytes} (spelled : Spelling character piece)
    (rest : Bytes) :
    scanCharacter (piece ++ rest) = some (String.utf8EncodeChar character, rest) := by
  cases spelled with
  | plain printable notQuote notBackslash =>
      obtain ⟨lead, trailing, ranges, encoded, found, within⟩ := Utf8.isSequence_encode character
      have notSpecial := (plain_iff encoded).mp ⟨printable, notQuote, notBackslash⟩
      have read : nextByteInRange ranges (trailing ++ rest) = some (trailing, rest) :=
        nextByteInRange_eq_some.mpr ⟨within, rfl⟩
      have ranged : characterRanges lead = some ranges := by
        rw [characterRanges_eq, if_neg notSpecial, found]
      rw [encoded, List.cons_append, scanCharacter, if_neg fun same => notSpecial (by simp [same]),
        ranged, Option.bind_some, read]
      rfl
  | @escape letter byte escaped code =>
      obtain ⟨small, notUnicode⟩ := escapedByte_ascii escaped
      change scanEscape (letter :: rest) = _
      rw [scanEscape, if_neg notUnicode, escaped, encode_ascii small code]
      rfl
  | unicode spelled => exact spelled.scan rest

theorem Spelling.ne_nil {character : Char} {piece : Bytes} (spelled : Spelling character piece) :
    piece ≠ [] := by
  cases spelled with
  | plain => exact String.utf8EncodeChar_ne_nil
  | escape | unicode => simp

def characterCode : SelfDelimiting.Code UInt8 Bytes where
  Codeword added piece :=
    ∃ character, Spelling character piece ∧ added = String.utf8EncodeChar character
  next := scanCharacter
  next_codeword := by
    rintro _ piece ⟨character, spelled, rfl⟩ rest
    exact spelled.scan rest
  next_shorter := by
    intro text added rest scanned
    obtain ⟨character, piece, spelled, rfl, -⟩ := Spelling.of_scan scanned
    have := List.length_pos_iff.mpr spelled.ne_nil
    rw [List.length_append]
    omega

theorem characterCode_exact : characterCode.Exact := by
  intro text added rest scanned
  obtain ⟨character, piece, spelled, textEq, encoded⟩ := Spelling.of_scan scanned
  exact ⟨piece, ⟨character, spelled, encoded⟩, textEq⟩

/-- `scan_string` after the opening quotation mark: characters are read as long
as there are any, and the closing quotation mark is to follow them. -/
def scanString (text : Bytes) : Option (Bytes × Bytes) :=
  match characterCode.decode text with
  | (added, 34 :: rest) => some (added.flatten, rest)
  | _ => none

def Spells (characters : List Char) (text : Bytes) : Prop :=
  ∃ pieces, List.Forall₂ Spelling characters pieces ∧ text = pieces.flatten

theorem next_quote (rest : Bytes) : characterCode.next (34 :: rest) = none := rfl

/-- A string is scanned exactly if it spells characters, whose encoding is then
the token. -/
theorem scanString_eq_some {text contents rest : Bytes} :
    scanString text = some (contents, rest) ↔
      ∃ characters spelled, Spells characters spelled ∧ text = spelled ++ 34 :: rest ∧
        contents = characters.flatMap String.utf8EncodeChar := by
  have decoded {added : List Bytes} {left : Bytes} :
      characterCode.decode text = (added, left) ↔ _ :=
    characterCode.decode_eq_iff characterCode_exact
  constructor
  · intro scanned
    unfold scanString at scanned
    split at scanned
    · rename_i added left found
      obtain ⟨rfl, rfl⟩ := Prod.mk.inj (Option.some.inj scanned)
      obtain ⟨pieces, codewords, rfl, -⟩ := decoded.mp found
      have spelling : ∃ characters, List.Forall₂ Spelling characters pieces ∧
          added.flatten = characters.flatMap String.utf8EncodeChar := by
        clear found decoded scanned
        induction codewords with
        | nil => exact ⟨[], .nil, rfl⟩
        | cons codeword _ ih =>
            obtain ⟨character, spelled, rfl⟩ := codeword
            obtain ⟨characters, spelling, later⟩ := ih
            exact ⟨character :: characters, .cons spelled spelling, by
              rw [List.flatten_cons, later, List.flatMap_cons]⟩
      obtain ⟨characters, spelling, contentsEq⟩ := spelling
      exact ⟨characters, _, ⟨pieces, spelling, rfl⟩, rfl, contentsEq⟩
    · simp at scanned
  · rintro ⟨characters, spelled, ⟨pieces, spelling, rfl⟩, rfl, rfl⟩
    have codewords : List.Forall₂ characterCode.Codeword
        (characters.map String.utf8EncodeChar) pieces := by
      rw [List.forall₂_map_left_iff]
      exact spelling.imp fun character piece spelled => ⟨character, spelled, rfl⟩
    have found := characterCode.decode_append codewords (next_quote rest)
    rw [scanString, found]
    rfl

end UBus.Lexer
