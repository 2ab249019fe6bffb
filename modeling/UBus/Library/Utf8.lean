import Mathlib.Data.List.Forall2
import Mathlib.Tactic

/-!
# UTF-8 by the ranges of its bytes

The first byte of an encoded character decides how many bytes follow and in
which ranges they lie.  Sequences in these ranges are exactly the encodings of
characters: the ranges leave out overlong sequences, surrogates and everything
above the last code point.
-/

namespace Utf8

abbrev Range := UInt8 × UInt8

def Range.Contains (range : Range) (byte : UInt8) : Prop := range.1 ≤ byte ∧ byte ≤ range.2

instance (range : Range) (byte : UInt8) : Decidable (range.Contains byte) :=
  inferInstanceAs (Decidable (_ ∧ _))

abbrev tail : Range := (0x80, 0xBF)

/-- The ranges of the bytes that follow a first byte. -/
def trail (lead : UInt8) : Option (List Range) :=
  if lead < 0x80 then some []
  else if lead < 0xC2 then none
  else if lead < 0xE0 then some [tail]
  else if lead = 0xE0 then some [(0xA0, 0xBF), tail]
  else if lead = 0xED then some [(0x80, 0x9F), tail]
  else if lead < 0xF0 then some [tail, tail]
  else if lead = 0xF0 then some [(0x90, 0xBF), tail, tail]
  else if lead < 0xF4 then some [tail, tail, tail]
  else if lead = 0xF4 then some [(0x80, 0x8F), tail, tail]
  else none

def Within (ranges : List Range) (bytes : List UInt8) : Prop :=
  List.Forall₂ Range.Contains ranges bytes

/-- A first byte, with the bytes it calls for. -/
def IsSequence (bytes : List UInt8) : Prop :=
  ∃ lead trailing ranges, bytes = lead :: trailing ∧ trail lead = some ranges ∧
    Within ranges trailing

theorem toNat_tail {byte : UInt8} (contains : tail.Contains byte) :
    128 ≤ byte.toNat ∧ byte.toNat < 192 := by
  simp only [Range.Contains, UInt8.le_iff_toNat_le, UInt8.reduceToNat] at contains
  omega

theorem lt_of_trail_nil {lead : UInt8} (found : trail lead = some []) : lead.toNat < 0x80 := by
  unfold trail at found
  split_ifs at found with ascii
  · exact UInt8.lt_iff_toNat_lt.mp ascii
  all_goals simp at found

theorem contains_ofNat {range : Range} {code : Nat} (low : range.1.toNat ≤ code)
    (high : code ≤ range.2.toNat) : range.Contains (UInt8.ofNat code) := by
  have small : (UInt8.ofNat code).toNat = code := by
    have := range.2.toNat_lt
    rw [UInt8.toNat_ofNat']
    omega
  simp only [Range.Contains, UInt8.le_iff_toNat_le, small]
  exact ⟨low, high⟩

theorem trail_ofNat {code : Nat} (small : code < 256) :
    trail (UInt8.ofNat code) =
      if code < 0x80 then some []
      else if code < 0xC2 then none
      else if code < 0xE0 then some [tail]
      else if code = 0xE0 then some [(0xA0, 0xBF), tail]
      else if code = 0xED then some [(0x80, 0x9F), tail]
      else if code < 0xF0 then some [tail, tail]
      else if code = 0xF0 then some [(0x90, 0xBF), tail, tail]
      else if code < 0xF4 then some [tail, tail, tail]
      else if code = 0xF4 then some [(0x80, 0x8F), tail, tail]
      else none := by
  have value : (UInt8.ofNat code).toNat = code := by
    rw [UInt8.toNat_ofNat']
    omega
  simp only [trail, UInt8.lt_iff_toNat_lt, ← UInt8.toNat_inj, value, UInt8.reduceToNat]

theorem isSequence_encode (character : Char) : IsSequence (String.utf8EncodeChar character) := by
  have valid : character.val.toNat < 0xD800 ∨
      0xDFFF < character.val.toNat ∧ character.val.toNat < 0x110000 := character.valid
  unfold String.utf8EncodeChar
  generalize character.val.toNat = code at valid
  simp only
  split_ifs with one two three
  · refine ⟨_, [], [], rfl, ?_, .nil⟩
    rw [trail_ofNat (by omega), if_pos (by omega)]
  · refine ⟨_, _, [tail], rfl, ?_, .cons ?_ .nil⟩
    · rw [trail_ofNat (by omega), if_neg (by omega), if_neg (by omega), if_pos (by omega)]
    · exact contains_ofNat (by simp) (by simp; omega)
  · have last : tail.Contains (UInt8.ofNat (code % 0x40 + 0x80)) :=
      contains_ofNat (by simp) (by simp; omega)
    have lead : code / 4096 % 0x10 + 0xE0 < 256 := by omega
    by_cases first : code / 4096 = 0
    · refine ⟨_, _, [(0xA0, 0xBF), tail], rfl, ?_, .cons ?_ (.cons last .nil)⟩
      · rw [trail_ofNat lead, if_neg (by omega), if_neg (by omega), if_neg (by omega),
          if_pos (by omega)]
      · exact contains_ofNat (by simp; omega) (by simp; omega)
    by_cases surrogates : code / 4096 = 0xD
    · refine ⟨_, _, [(0x80, 0x9F), tail], rfl, ?_, .cons ?_ (.cons last .nil)⟩
      · rw [trail_ofNat lead, if_neg (by omega), if_neg (by omega), if_neg (by omega),
          if_neg (by omega), if_pos (by omega)]
      · exact contains_ofNat (by simp) (by simp; omega)
    · refine ⟨_, _, [tail, tail], rfl, ?_, .cons ?_ (.cons last .nil)⟩
      · rw [trail_ofNat lead, if_neg (by omega), if_neg (by omega), if_neg (by omega),
          if_neg (by omega), if_neg (by omega), if_pos (by omega)]
      · exact contains_ofNat (by simp) (by simp; omega)
  · have third : tail.Contains (UInt8.ofNat (code / 64 % 0x40 + 0x80)) :=
      contains_ofNat (by simp) (by simp; omega)
    have last : tail.Contains (UInt8.ofNat (code % 0x40 + 0x80)) :=
      contains_ofNat (by simp) (by simp; omega)
    have lead : code / 262144 % 0x08 + 0xF0 < 256 := by omega
    by_cases first : code / 262144 = 0
    · refine ⟨_, _, [(0x90, 0xBF), tail, tail], rfl, ?_, .cons ?_ (.cons third (.cons last .nil))⟩
      · rw [trail_ofNat lead, if_neg (by omega), if_neg (by omega), if_neg (by omega),
          if_neg (by omega), if_neg (by omega), if_neg (by omega), if_pos (by omega)]
      · exact contains_ofNat (by simp; omega) (by simp; omega)
    by_cases highest : code / 262144 = 4
    · refine ⟨_, _, [(0x80, 0x8F), tail, tail], rfl, ?_, .cons ?_ (.cons third (.cons last .nil))⟩
      · rw [trail_ofNat lead, if_neg (by omega), if_neg (by omega), if_neg (by omega),
          if_neg (by omega), if_neg (by omega), if_neg (by omega), if_neg (by omega),
          if_neg (by omega), if_pos (by omega)]
      · exact contains_ofNat (by simp) (by simp; omega)
    · refine ⟨_, _, [tail, tail, tail], rfl, ?_, .cons ?_ (.cons third (.cons last .nil))⟩
      · rw [trail_ofNat lead, if_neg (by omega), if_neg (by omega), if_neg (by omega),
          if_neg (by omega), if_neg (by omega), if_neg (by omega), if_neg (by omega),
          if_pos (by omega)]
      · exact contains_ofNat (by simp) (by simp; omega)

theorem encode_lead (character : Char) :
    ∃ lead trailing, String.utf8EncodeChar character = lead :: trailing ∧
      (character.val.toNat < 0x80 → lead.toNat = character.val.toNat ∧ trailing = []) ∧
      (0x80 ≤ character.val.toNat → 0x80 ≤ lead.toNat) := by
  unfold String.utf8EncodeChar
  generalize character.val.toNat = code
  simp only
  split_ifs with one two three
  all_goals
    refine ⟨_, _, rfl, fun small => ⟨?_, ?_⟩, fun large => ?_⟩
  all_goals
    first | rfl | omega | (rw [UInt8.toNat_ofNat']; omega)

theorem toNat_of_mem_encode {character : Char} {byte : UInt8}
    (member : byte ∈ String.utf8EncodeChar character) :
    byte.toNat = character.val.toNat ∨ 0x80 ≤ byte.toNat := by
  unfold String.utf8EncodeChar at member
  generalize character.val.toNat = code at member
  simp only at member
  split_ifs at member with one two three
  all_goals
    simp only [List.mem_cons, List.not_mem_nil, or_false] at member
  · left
    rw [member, UInt8.toNat_ofNat']
    omega
  all_goals
    right
  · rcases member with rfl | rfl <;> rw [UInt8.toNat_ofNat'] <;> omega
  · rcases member with rfl | rfl | rfl <;> rw [UInt8.toNat_ofNat'] <;> omega
  · rcases member with rfl | rfl | rfl | rfl <;> rw [UInt8.toNat_ofNat'] <;> omega

theorem exists_char {code : Nat} (valid : code.isValidChar) :
    ∃ character : Char, character.val.toNat = code :=
  ⟨Char.ofNatAux code valid, rfl⟩

theorem ofNat_eq {code : Nat} (byte : UInt8) (value : code = byte.toNat) :
    UInt8.ofNat code = byte := by
  rw [value, UInt8.ofNat_toNat]

theorem encode_one {lead : UInt8} (small : lead.toNat < 0x80) :
    ∃ character, String.utf8EncodeChar character = [lead] := by
  obtain ⟨character, codeEq⟩ := exists_char (Or.inl (by omega) : lead.toNat.isValidChar)
  refine ⟨character, ?_⟩
  simp only [String.utf8EncodeChar, codeEq]
  rw [if_pos (by omega), ofNat_eq lead rfl]

theorem encode_two {lead second : UInt8} (low : 0xC2 ≤ lead.toNat) (high : lead.toNat < 0xE0)
    (continues : tail.Contains second) :
    ∃ character, String.utf8EncodeChar character = [lead, second] := by
  have range := toNat_tail continues
  obtain ⟨character, codeEq⟩ := exists_char
    (Or.inl (by omega) : ((lead.toNat - 0xC0) * 64 + (second.toNat - 0x80)).isValidChar)
  refine ⟨character, ?_⟩
  simp only [String.utf8EncodeChar, codeEq]
  rw [if_neg (by omega), if_pos (by omega), ofNat_eq lead (by omega),
    ofNat_eq second (by omega)]

theorem encode_three {lead second third : UInt8} (low : 0xE0 ≤ lead.toNat)
    (high : lead.toNat < 0xF0) (continues : tail.Contains second) (last : tail.Contains third)
    (notOverlong : lead.toNat = 0xE0 → 0xA0 ≤ second.toNat)
    (notSurrogate : lead.toNat = 0xED → second.toNat < 0xA0) :
    ∃ character, String.utf8EncodeChar character = [lead, second, third] := by
  have secondRange := toNat_tail continues
  have thirdRange := toNat_tail last
  have valid : ((lead.toNat - 0xE0) * 4096 + (second.toNat - 0x80) * 64 +
      (third.toNat - 0x80)).isValidChar := by
    unfold Nat.isValidChar
    omega
  obtain ⟨character, codeEq⟩ := exists_char valid
  refine ⟨character, ?_⟩
  simp only [String.utf8EncodeChar, codeEq]
  rw [if_neg (by omega), if_neg (by omega), if_pos (by omega), ofNat_eq lead (by omega),
    ofNat_eq second (by omega), ofNat_eq third (by omega)]

theorem encode_four {lead second third fourth : UInt8} (low : 0xF0 ≤ lead.toNat)
    (high : lead.toNat ≤ 0xF4) (continues : tail.Contains second) (goesOn : tail.Contains third)
    (last : tail.Contains fourth) (notOverlong : lead.toNat = 0xF0 → 0x90 ≤ second.toNat)
    (inRange : lead.toNat = 0xF4 → second.toNat < 0x90) :
    ∃ character, String.utf8EncodeChar character = [lead, second, third, fourth] := by
  have secondRange := toNat_tail continues
  have thirdRange := toNat_tail goesOn
  have fourthRange := toNat_tail last
  have valid : ((lead.toNat - 0xF0) * 262144 + (second.toNat - 0x80) * 4096 +
      (third.toNat - 0x80) * 64 + (fourth.toNat - 0x80)).isValidChar := by
    unfold Nat.isValidChar
    omega
  obtain ⟨character, codeEq⟩ := exists_char valid
  refine ⟨character, ?_⟩
  simp only [String.utf8EncodeChar, codeEq]
  rw [if_neg (by omega), if_neg (by omega), if_neg (by omega),
    ofNat_eq lead (by omega), ofNat_eq second (by omega),
    ofNat_eq third (by omega), ofNat_eq fourth (by omega)]

theorem exists_encode {bytes : List UInt8} (isSequence : IsSequence bytes) :
    ∃ character, String.utf8EncodeChar character = bytes := by
  obtain ⟨lead, trailing, ranges, rfl, found, within⟩ := isSequence
  simp only [trail, UInt8.lt_iff_toNat_lt, ← UInt8.toNat_inj, UInt8.reduceToNat] at found
  have toTail {low high byte} (contains : Range.Contains (low, high) byte)
      (above : 0x80 ≤ low.toNat) (below : high.toNat ≤ 0xBF) : tail.Contains byte := by
    simp only [Range.Contains, UInt8.le_iff_toNat_le, UInt8.reduceToNat] at contains ⊢
    omega
  split_ifs at found with one none two overlong surrogate three overlong' four last
  all_goals
    obtain rfl := Option.some.inj found
  · cases within
    exact encode_one one
  · obtain - | ⟨second, ⟨⟩⟩ := within
    exact encode_two (by omega) two second
  · obtain - | ⟨second, - | ⟨third, ⟨⟩⟩⟩ := within
    have above := UInt8.le_iff_toNat_le.mp second.1
    simp only [UInt8.reduceToNat] at above
    exact encode_three (by omega) (by omega) (toTail second (by simp) (by simp)) third
      (fun _ => above) (by omega)
  · obtain - | ⟨second, - | ⟨third, ⟨⟩⟩⟩ := within
    have below := UInt8.le_iff_toNat_le.mp second.2
    simp only [UInt8.reduceToNat] at below
    exact encode_three (by omega) (by omega) (toTail second (by simp) (by simp)) third (by omega)
      (fun _ => by omega)
  · obtain - | ⟨second, - | ⟨third, ⟨⟩⟩⟩ := within
    exact encode_three (by omega) (by omega) second third (by omega) (by omega)
  · obtain - | ⟨second, - | ⟨third, - | ⟨fourth, ⟨⟩⟩⟩⟩ := within
    have above := UInt8.le_iff_toNat_le.mp second.1
    simp only [UInt8.reduceToNat] at above
    exact encode_four (by omega) (by omega) (toTail second (by simp) (by simp)) third fourth
      (fun _ => above) (by omega)
  · obtain - | ⟨second, - | ⟨third, - | ⟨fourth, ⟨⟩⟩⟩⟩ := within
    exact encode_four (by omega) (by omega) second third fourth (by omega) (by omega)
  · obtain - | ⟨second, - | ⟨third, - | ⟨fourth, ⟨⟩⟩⟩⟩ := within
    have below := UInt8.le_iff_toNat_le.mp second.2
    simp only [UInt8.reduceToNat] at below
    exact encode_four (by omega) (by omega) (toTail second (by simp) (by simp)) third fourth
      (by omega) (fun _ => by omega)

end Utf8
