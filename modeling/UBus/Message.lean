import UBus.Text

/-!
# Message classes

Events, arguments and responses are objects of message classes, which turn
them into byte strings and back.  This file models the classes of
`message.hpp` whose data is a string or an integer.  Integers travel as
decimal text and are read with `atoi` and `atol`, which never fail: the main
result is that they return what `std::to_string` has written.
-/

namespace UBus

/-- A message class: its id and its two conversions, of which `deserialize`
starts from a new object. -/
structure Message (Object : Type) where
  id : UInt32
  serialize : Object → Bytes
  deserialize : Bytes → Object

/-- `std::to_string` of an integer. -/
def stdToString (value : Int) : Bytes :=
  if value < 0 then ascii "-" ++ decimal value.natAbs else decimal value.natAbs

/-- `isspace`. -/
def isSpace (byte : UInt8) : Bool := byte == 32 || 9 ≤ byte && byte ≤ 13

def digitsValue (text : Bytes) : Nat :=
  (text.takeWhile isDigit).foldl (fun value digit => value * 10 + (digit.toNat - 48)) 0

/-- A value that does not fit a `long` of 64 bits becomes the nearest that
does. -/
def clampToLong (value : Int) : Int64 := Int64.ofInt (max (-2 ^ 63) (min value (2 ^ 63 - 1)))

/-- `strtol(text, nullptr, 10)`: white space, a sign, and digits; the rest is
ignored. -/
def strtol (text : Bytes) : Int64 :=
  match text.dropWhile isSpace with
  | 45 :: digits => clampToLong (-digitsValue digits)
  | 43 :: digits => clampToLong (digitsValue digits)
  | digits => clampToLong (digitsValue digits)

/-- What the C functions see of a `std::string`. -/
def cStr (text : Bytes) : Bytes := text.takeWhile (· ≠ 0)

def atol (text : Bytes) : Int64 := strtol (cStr text)

def atoi (text : Bytes) : Int32 := (strtol (cStr text)).toInt32

theorem stdToString_bytes {value : Int} {byte : UInt8} (member : byte ∈ stdToString value) :
    byte = 45 ∨ isDigit byte := by
  unfold stdToString at member
  split_ifs at member
  · rcases List.mem_append.mp member with sign | digit
    · exact Or.inl (List.mem_singleton.mp sign)
    · exact Or.inr (isDigit_decimal digit)
  · exact Or.inr (isDigit_decimal member)

theorem stdToString_nulFree (value : Int) : 0 ∉ stdToString value := by
  intro member
  rcases stdToString_bytes member with sign | digit
  · exact absurd sign (by decide)
  · exact absurd digit (by decide)

theorem isDigit_not_prefix {byte : UInt8} (digit : isDigit byte) :
    isSpace byte = false ∧ byte ≠ 45 ∧ byte ≠ 43 := by
  simp only [isDigit, Bool.and_eq_true, decide_eq_true_eq, UInt8.le_iff_toNat_le] at digit
  obtain ⟨low, -⟩ := digit
  have low : 48 ≤ byte.toNat := low
  refine ⟨?_, ?_, ?_⟩
  · have notSpace : byte ≠ 32 := by
      rintro rfl
      exact absurd low (by decide)
    have notControl : ¬ byte ≤ 13 := by
      rw [UInt8.le_iff_toNat_le]
      exact fun small => absurd (low.trans small) (by decide)
    simp [isSpace, notSpace, notControl]
  · rintro rfl
    exact absurd low (by decide)
  · rintro rfl
    exact absurd low (by decide)

theorem digitsValue_decimal (number : Nat) : digitsValue (decimal number) = number := by
  have whole : (decimal number).takeWhile isDigit = decimal number :=
    List.takeWhile_eq_self_iff.mpr fun byte => isDigit_decimal
  rw [digitsValue, whole, decimal_value]

theorem strtol_stdToString (value : Int) : strtol (stdToString value) = clampToLong value := by
  by_cases negative : value < 0
  · have textEq : stdToString value = 45 :: decimal value.natAbs := if_pos negative
    have magnitude : -(value.natAbs : Int) = value := by omega
    rw [textEq, strtol, List.dropWhile_cons_of_neg (by decide)]
    change clampToLong (-digitsValue (decimal value.natAbs)) = _
    rw [digitsValue_decimal, magnitude]
  · have textEq : stdToString value = decimal value.natAbs := if_neg negative
    have magnitude : (value.natAbs : Int) = value := by omega
    have read := digitsValue_decimal value.natAbs
    obtain ⟨digit, digits, decimalEq⟩ := List.exists_cons_of_ne_nil (decimal_ne_nil value.natAbs)
    have isFirst : isDigit digit := @isDigit_decimal value.natAbs digit (by simp [decimalEq])
    obtain ⟨notSpace, notMinus, notPlus⟩ := isDigit_not_prefix isFirst
    rw [decimalEq] at read
    rw [textEq, decimalEq, strtol, List.dropWhile_cons_of_neg (by simp [notSpace])]
    split
    · rename_i minus
      exact absurd (List.cons.inj minus).1 notMinus
    · rename_i plus
      exact absurd (List.cons.inj plus).1 notPlus
    · rw [read, magnitude]

theorem cStr_of_nulFree {text : Bytes} (nulFree : 0 ∉ text) : cStr text = text := by
  rw [cStr, List.takeWhile_eq_self_iff]
  intro byte member
  simpa using fun isZero : byte = 0 => nulFree (isZero ▸ member)

theorem atol_stdToString (value : Int64) : atol (stdToString value.toInt) = value := by
  have low := value.le_toInt
  have high := value.toInt_lt
  rw [atol, cStr_of_nulFree (stdToString_nulFree _), strtol_stdToString, clampToLong,
    min_eq_left (by omega), max_eq_right (by omega), Int64.ofInt_toInt]

theorem atoi_stdToString (value : Int32) : atoi (stdToString value.toInt) = value := by
  have wide : value.toInt = value.toInt64.toInt := (Int32.toInt_toInt64 value).symm
  have read := atol_stdToString value.toInt64
  rw [wide, atoi]
  exact (congrArg Int64.toInt32 read).trans (Int32.toInt32_toInt64 value)

theorem stdToString_length_le {value : Int} (small : value.natAbs < 10 ^ 19) :
    (stdToString value).length ≤ 20 := by
  have digits : (decimal value.natAbs).length ≤ 19 := by
    unfold decimal
    split_ifs with zero
    · decide
    · rw [List.length_map, List.length_reverse]
      exact (Nat.digits_length_le_iff (by norm_num) _).mpr small
  unfold stdToString
  split_ifs
  · rw [List.length_append]
    exact Nat.add_le_add (show (ascii "-").length ≤ 1 by decide) digits
  · omega

structure NullMsg where

def NullMsg.serialize (_ : NullMsg) : Bytes := []

def NullMsg.deserialize (message : NullMsg) (_ : Bytes) : NullMsg := message

structure Int32Msg where
  data : Int32

def Int32Msg.serialize (message : Int32Msg) : Bytes := stdToString message.data.toInt

def Int32Msg.deserialize (message : Int32Msg) (data : Bytes) : Int32Msg :=
  { message with data := atoi data }

structure Int64Msg where
  data : Int64

def Int64Msg.serialize (message : Int64Msg) : Bytes := stdToString message.data.toInt

def Int64Msg.deserialize (message : Int64Msg) (data : Bytes) : Int64Msg :=
  { message with data := atol data }

structure StringMsg where
  data : Bytes

def StringMsg.serialize (message : StringMsg) : Bytes := message.data

def StringMsg.deserialize (message : StringMsg) (data : Bytes) : StringMsg :=
  { message with data := data }

/-- The class `NullMsg`, whose new objects are `fresh`. -/
def NullMsg.message (fresh : NullMsg) : Message NullMsg := ⟨1, serialize, fresh.deserialize⟩

def Int32Msg.message (fresh : Int32Msg) : Message Int32Msg := ⟨2, serialize, fresh.deserialize⟩

def Int64Msg.message (fresh : Int64Msg) : Message Int64Msg := ⟨3, serialize, fresh.deserialize⟩

def StringMsg.message (fresh : StringMsg) : Message StringMsg := ⟨6, serialize, fresh.deserialize⟩

/-- An object is read as it was written. -/
def Message.Lossless {Object : Type} (message : Message Object) : Prop :=
  ∀ object, message.deserialize (message.serialize object) = object

theorem Message.Lossless.serialize_injective {Object : Type} {message : Message Object}
    (lossless : message.Lossless) : Function.Injective message.serialize :=
  Function.LeftInverse.injective lossless

theorem NullMsg.lossless (fresh : NullMsg) : (message fresh).Lossless := fun _ => rfl

theorem Int32Msg.lossless (fresh : Int32Msg) : (message fresh).Lossless :=
  fun object => congrArg mk (atoi_stdToString object.data)

theorem Int64Msg.lossless (fresh : Int64Msg) : (message fresh).Lossless :=
  fun object => congrArg mk (atol_stdToString object.data)

theorem StringMsg.lossless (fresh : StringMsg) : (message fresh).Lossless := fun _ => rfl

end UBus
