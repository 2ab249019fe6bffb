import UBus.Json.Characters
import UBus.Message

/-!
# The lexer

This file models `lexer::scan` of the vendored library, without comments, which
the program does not ask for.  A scan that ends in `parse_error` is `none`: the
parser answers it with an exception wherever it comes.  The second half
describes the tokens by the texts they are written as.
-/

namespace UBus.Lexer

/-- `token_type`, with what the getters return after the token. -/
inductive Token where
  | literalTrue
  | literalFalse
  | literalNull
  | valueString (value : Bytes)
  | valueUnsigned (value : UInt64)
  | valueInteger (value : Int64)
  | valueFloat (value : Float)
  | beginArray
  | beginObject
  | endArray
  | endObject
  | nameSeparator
  | valueSeparator
  | endOfInput

/-- `number_type` of `scan_number`. -/
inductive NumberType where
  | unsigned
  | integer
  | float
deriving DecidableEq

/-- The labels of `scan_number`. -/
inductive NumberState where
  | minus
  | zero
  | any1
  | decimal1
  | decimal2
  | exponent
  | sign
  | any2

namespace NumberState

/-- The label a character leads to, if the number goes on with it. -/
def next (state : NumberState) (current : UInt8) : Option NumberState :=
  match state with
  | minus => if current = 48 then some zero else if isDigit current then some any1 else none
  | zero =>
      if current = 46 then some decimal1
      else if current = 101 ∨ current = 69 then some exponent
      else none
  | any1 =>
      if isDigit current then some any1
      else if current = 46 then some decimal1
      else if current = 101 ∨ current = 69 then some exponent
      else none
  | decimal1 => if isDigit current then some decimal2 else none
  | decimal2 =>
      if isDigit current then some decimal2
      else if current = 101 ∨ current = 69 then some exponent
      else none
  | exponent =>
      if current = 43 ∨ current = 45 then some sign
      else if isDigit current then some any2
      else none
  | sign => if isDigit current then some any2 else none
  | any2 => if isDigit current then some any2 else none

/-- Labels at which any other character ends the number. -/
def isDone : NumberState → Bool
  | zero | any1 | decimal2 | any2 => true
  | minus | decimal1 | exponent | sign => false

def numberType (state : NumberState) (before : NumberType) : NumberType :=
  match state with
  | minus => .integer
  | decimal1 | exponent => .float
  | zero | any1 | decimal2 | sign | any2 => before

end NumberState

/-- The token buffer, the type of the number, and what is left of the input. -/
def scanNumberFrom (state : NumberState) (type : NumberType) :
    Bytes → Option (Bytes × NumberType × Bytes)
  | [] => if state.isDone then some ([], type, []) else none
  | current :: text =>
      match state.next current with
      | some state' =>
          (scanNumberFrom state' (state'.numberType type) text).map fun scanned =>
            (current :: scanned.1, scanned.2)
      | none => if state.isDone then some ([], type, current :: text) else none

/-- `strtoull` on digits; `none` is `ERANGE`. -/
def strtoull (digits : Bytes) : Option UInt64 :=
  if digitsValue digits < 2 ^ 64 then some (digitsValue digits).toUInt64 else none

/-- `strtoll` on a minus sign and digits. -/
def strtoll (text : Bytes) : Option Int64 :=
  if digitsValue text.tail ≤ 2 ^ 63 then some (-(digitsValue text.tail : Int)).toInt64 else none

section Scan

variable (strtod : Bytes → Float)

/-- Integers that do not fit 64 bits become floating-point numbers. -/
def convertNumber (tokenBuffer : Bytes) : NumberType → Token
  | .unsigned =>
      match strtoull tokenBuffer with
      | some value => .valueUnsigned value
      | none => .valueFloat (strtod tokenBuffer)
  | .integer =>
      match strtoll tokenBuffer with
      | some value => .valueInteger value
      | none => .valueFloat (strtod tokenBuffer)
  | .float => .valueFloat (strtod tokenBuffer)

/-- `scan_number` after its first character. -/
def scanNumber (current : UInt8) (state : NumberState) (text : Bytes) : Option (Token × Bytes) :=
  (scanNumberFrom state (state.numberType .unsigned) text).map fun (tokenBuffer, type, rest) =>
    (convertNumber strtod (current :: tokenBuffer) type, rest)

/-- `scan_literal` after its first character. -/
def scanLiteral (token : Token) : Bytes → Bytes → Option (Token × Bytes)
  | [], text => some (token, text)
  | _ :: _, [] => none
  | expected :: literal, current :: text =>
      if current = expected then scanLiteral token literal text else none

def isWhitespace (byte : UInt8) : Bool := byte = 32 || byte = 9 || byte = 10 || byte = 13

/-- The switch of `scan`, which reads a NUL as the end of the input. -/
def scanToken : Bytes → Option (Token × Bytes)
  | [] => some (.endOfInput, [])
  | 91 :: text => some (.beginArray, text)
  | 93 :: text => some (.endArray, text)
  | 123 :: text => some (.beginObject, text)
  | 125 :: text => some (.endObject, text)
  | 58 :: text => some (.nameSeparator, text)
  | 44 :: text => some (.valueSeparator, text)
  | 116 :: text => scanLiteral .literalTrue (ascii "rue") text
  | 102 :: text => scanLiteral .literalFalse (ascii "alse") text
  | 110 :: text => scanLiteral .literalNull (ascii "ull") text
  | 34 :: text => (scanString text).map fun (contents, rest) => (.valueString contents, rest)
  | 45 :: text => scanNumber strtod 45 .minus text
  | 48 :: text => scanNumber strtod 48 .zero text
  | 0 :: text => some (.endOfInput, text)
  | current :: text => if isDigit current then scanNumber strtod current .any1 text else none

def scan (text : Bytes) : Option (Token × Bytes) := scanToken strtod (text.dropWhile isWhitespace)

end Scan

end UBus.Lexer
