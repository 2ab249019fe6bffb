import Mathlib.Data.List.TakeWhile
import Mathlib.Data.Nat.Digits.Defs
import Mathlib.Tactic

/-!
# Byte strings

Every name, topic, payload and JSON text of the bus is a `std::string`, that
is, an arbitrary sequence of bytes.  This file fixes that representation, the
ASCII literals of the source, the decimal text of a number and the C-string
copy that the senders use to fill a frame.
-/

namespace UBus

/-- The contents of a `std::string`.  NUL bytes are ordinary contents. -/
abbrev Bytes := List UInt8

instance : LawfulBEq Bytes := inferInstanceAs (LawfulBEq (List UInt8))

def ascii (literal : String) : Bytes :=
  literal.toList.map fun character => character.toNat.toUInt8

/-- The decimal digits of a number, most significant first. -/
def decimal (number : Nat) : Bytes :=
  if number = 0 then ascii "0"
  else (Nat.digits 10 number).reverse.map fun digit => (48 + digit).toUInt8

/-- `strncpy(destination, source.c_str(), count)`: copying stops at the first
NUL of the source, and the rest of the destination is filled with NULs. -/
def strncpy (source : Bytes) (count : Nat) : Bytes :=
  let copied := (source.takeWhile (· ≠ 0)).take count
  copied ++ List.replicate (count - copied.length) 0

@[simp]
theorem strncpy_length (source : Bytes) (count : Nat) :
    (strncpy source count).length = count := by
  simp only [strncpy, List.length_append, List.length_replicate, List.length_take]
  omega

theorem strncpy_of_nulFree {source : Bytes} (nulFree : 0 ∉ source) {count : Nat}
    (fits : count ≤ source.length) :
    strncpy source count = source.take count := by
  have whole : source.takeWhile (· ≠ 0) = source := by
    rw [List.takeWhile_eq_self_iff]
    intro byte member
    simpa using fun isZero : byte = 0 => nulFree (isZero ▸ member)
  simp only [strncpy, whole, List.length_take]
  have filled : count - min count source.length = 0 := by omega
  simp [filled]

/-- The copy is the whole source if nothing but NULs follow its first NUL. -/
theorem strncpy_eq_self_iff {source : Bytes} :
    strncpy source source.length = source ↔ ∀ byte ∈ source.dropWhile (· ≠ 0), byte = 0 := by
  have split : source.takeWhile (· ≠ 0) ++ source.dropWhile (· ≠ 0) = source :=
    List.takeWhile_append_dropWhile
  have lengths : (source.takeWhile (· ≠ 0)).length + (source.dropWhile (· ≠ 0)).length =
      source.length := by
    rw [← List.length_append, split]
  have copied : strncpy source source.length =
      source.takeWhile (· ≠ 0) ++ List.replicate (source.dropWhile (· ≠ 0)).length 0 := by
    simp only [strncpy]
    rw [List.take_of_length_le (by omega)]
    congr 2
    omega
  calc strncpy source source.length = source
      ↔ source.takeWhile (· ≠ 0) ++ List.replicate (source.dropWhile (· ≠ 0)).length 0 =
          source.takeWhile (· ≠ 0) ++ source.dropWhile (· ≠ 0) := by rw [copied, split]
    _ ↔ source.dropWhile (· ≠ 0) = List.replicate (source.dropWhile (· ≠ 0)).length 0 := by
      rw [List.append_cancel_left_eq, eq_comm]
    _ ↔ ∀ byte ∈ source.dropWhile (· ≠ 0), byte = 0 := by
      simp [List.eq_replicate_iff]

theorem decimal_digit {number : Nat} {byte : UInt8} (member : byte ∈ decimal number) :
    48 ≤ byte.toNat ∧ byte.toNat < 58 := by
  unfold decimal at member
  split at member
  · have isZero : byte = 48 := by
      have : byte ∈ [(48 : UInt8)] := member
      simpa using this
    subst isZero
    decide
  · simp only [List.mem_map, List.mem_reverse] at member
    obtain ⟨digit, digitMem, rfl⟩ := member
    have small : digit < 10 := Nat.digits_lt_base (by norm_num) digitMem
    have value : ((48 + digit).toUInt8).toNat = 48 + digit := by
      simp only [Nat.toUInt8, UInt8.toNat_ofNat']
      omega
    rw [value]
    omega

def isDigit (byte : UInt8) : Bool := 48 ≤ byte && byte ≤ 57

theorem isDigit_decimal {number : Nat} {byte : UInt8} (member : byte ∈ decimal number) :
    isDigit byte := by
  obtain ⟨low, high⟩ := decimal_digit member
  simp only [isDigit, Bool.and_eq_true, decide_eq_true_eq, UInt8.le_iff_toNat_le]
  exact ⟨low, show byte.toNat ≤ 57 by omega⟩

theorem decimal_value (number : Nat) :
    (decimal number).foldl (fun value digit => value * 10 + (digit.toNat - 48)) 0 = number := by
  by_cases zero : number = 0
  · subst zero
    rfl
  have small : ∀ digit ∈ Nat.digits 10 number, digit < 10 :=
    fun digit member => Nat.digits_lt_base (by norm_num) member
  have value : ∀ digits : List Nat, (∀ digit ∈ digits, digit < 10) →
      digits.foldr (fun digit value => value * 10 + ((48 + digit).toUInt8.toNat - 48)) 0 =
        Nat.ofDigits 10 digits := by
    intro digits allSmall
    induction digits with
    | nil => rfl
    | cons digit digits ih =>
        have single := allSmall digit (by simp)
        have character : (48 + digit).toUInt8.toNat = 48 + digit := by
          simp only [Nat.toUInt8, UInt8.toNat_ofNat']
          omega
        rw [List.foldr_cons, ih fun other member => allSmall other (by simp [member]), character,
          Nat.ofDigits_cons]
        omega
  rw [decimal, if_neg zero, List.foldl_map, List.foldl_reverse, value _ small,
    Nat.ofDigits_digits]

theorem decimal_ne_nil (number : Nat) : decimal number ≠ [] := by
  unfold decimal
  split_ifs with zero
  · decide
  · simpa [Nat.digits_eq_nil_iff_eq_zero] using zero

end UBus
