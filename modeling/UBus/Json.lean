import UBus.Text

/-!
# JSON values and their text

The bus talks JSON through a vendored library.  This file models the part of
it that the program uses: values, the presence check `contains`, the checked
access `at`, the conversions `get<std::string>` and `get<uint32_t>`, and the
serializer `dump` with its strict UTF-8 check.  A result `none` stands for a
thrown `nlohmann::json::exception`.

Parsing and the text of a floating-point number stay parameters, collected
in `JsonLibrary` together with the two facts the program relies on.
-/

namespace UBus

/-- A `nlohmann::json` value.  Members of an object are kept in key order. -/
inductive Json where
  | null
  | boolean (value : Bool)
  | numberInteger (value : Int64)
  | numberUnsigned (value : UInt64)
  | numberFloat (value : Float)
  | string (value : Bytes)
  | array (items : List Json)
  | object (members : List (Bytes × Json))

namespace Json

/-- `contains(key)`: false on everything that is not an object. -/
def contains (key : Bytes) : Json → Bool
  | .object members => (members.lookup key).isSome
  | _ => false

/-- `at(key)`: throws on a missing key and on a value that is no object. -/
def at? (key : Bytes) : Json → Option Json
  | .object members => members.lookup key
  | _ => none

def getString : Json → Option Bytes
  | .string value => some value
  | _ => none

/-- `get<uint32_t>()`: every number and every boolean is converted by a
`static_cast`, everything else throws.  C++ leaves the conversion of a
floating-point number that is out of range undefined; here it saturates. -/
def getUInt32 : Json → Option UInt32
  | .boolean value => some (if value then 1 else 0)
  | .numberInteger value => some value.toUInt64.toUInt32
  | .numberUnsigned value => some value.toUInt32
  | .numberFloat value => some value.toUInt32
  | _ => none

/-- `at(key).get<std::string>()`. -/
def stringAt (key : Bytes) (value : Json) : Option Bytes :=
  (value.at? key).bind getString

/-- `at(key).get<uint32_t>()`. -/
def uint32At (key : Bytes) (value : Json) : Option UInt32 :=
  (value.at? key).bind getUInt32

/-- `value == text` for a string on the right-hand side. -/
def isString (text : Bytes) : Json → Bool
  | .string value => value == text
  | _ => false

def insertMember (key : Bytes) (value : Json) :
    List (Bytes × Json) → List (Bytes × Json)
  | [] => [(key, value)]
  | (key', value') :: members =>
      if key = key' then (key, value) :: members
      else if key < key' then (key, value) :: (key', value') :: members
      else (key', value') :: insertMember key value members

/-- The object built by a run of assignments `json_struct[key] = value`. -/
def ofAssignments (assignments : List (Bytes × Json)) : Json :=
  .object (assignments.foldl
    (fun members assignment => insertMember assignment.1 assignment.2 members) [])

def ofInt32 (value : Int32) : Json := .numberInteger value.toInt64

def ofUInt32 (value : UInt32) : Json := .numberUnsigned value.toUInt64

end Json

/-- `response_json` with nothing but a response. -/
def response (text : String) : Json :=
  Json.ofAssignments [(ascii "response", .string (ascii text))]

namespace Json

mutual
/-- Every string in a value, object keys included. -/
def strings : Json → List Bytes
  | .string value => [value]
  | .array items => itemStrings items
  | .object members => memberStrings members
  | _ => []
def itemStrings : List Json → List Bytes
  | [] => []
  | item :: items => item.strings ++ itemStrings items
def memberStrings : List (Bytes × Json) → List Bytes
  | [] => []
  | (key, value) :: members => key :: (value.strings ++ memberStrings members)
end

end Json

/-- Character classes of `serializer::decode`: the first 256 entries of
`utf8d`. -/
def utf8Classes : List Nat :=
  List.replicate 128 0 ++ List.replicate 16 1 ++ List.replicate 16 9 ++
    List.replicate 32 7 ++ [8, 8] ++ List.replicate 30 2 ++
    [10] ++ List.replicate 12 3 ++ [4, 3, 3] ++
    [11, 6, 6, 6, 5] ++ List.replicate 11 8

/-- State transitions of `serializer::decode`, sixteen classes for each of
the states 0 to 8: the entries of `utf8d` from 256 on. -/
def utf8Transitions : List Nat := [
  0, 1, 2, 3, 5, 8, 7, 1, 1, 1, 4, 6, 1, 1, 1, 1,
  1, 1, 1, 1, 1, 1, 1, 1, 1, 1, 1, 1, 1, 1, 1, 1,
  1, 0, 1, 1, 1, 1, 1, 0, 1, 0, 1, 1, 1, 1, 1, 1,
  1, 2, 1, 1, 1, 1, 1, 2, 1, 2, 1, 1, 1, 1, 1, 1,
  1, 1, 1, 1, 1, 1, 1, 2, 1, 1, 1, 1, 1, 1, 1, 1,
  1, 2, 1, 1, 1, 1, 1, 1, 1, 2, 1, 1, 1, 1, 1, 1,
  1, 1, 1, 1, 1, 1, 1, 3, 1, 3, 1, 1, 1, 1, 1, 1,
  1, 3, 1, 1, 1, 1, 1, 3, 1, 3, 1, 1, 1, 1, 1, 1,
  1, 3, 1, 1, 1, 1, 1, 1, 1, 1, 1, 1, 1, 1, 1, 1]

/-- The next state of `serializer::decode`; 0 accepts and 1 rejects. -/
def utf8Next (state : Nat) (byte : UInt8) : Nat :=
  utf8Transitions.getD (state * 16 + utf8Classes.getD byte.toNat 0) 1

/-- The code point `serializer::decode` accumulates. -/
def utf8CodePoint (state codePoint : Nat) (byte : UInt8) : Nat :=
  if state ≠ 0 then (byte.toNat &&& 0x3f) ||| (codePoint <<< 6)
  else (0xff >>> utf8Classes.getD byte.toNat 0) &&& byte.toNat

def hexDigit (digit : Nat) : UInt8 :=
  if digit < 10 then (48 + digit).toUInt8 else (87 + digit).toUInt8

/-- What `dump_escaped` writes for a completed code point whose last byte is
`byte`.  Earlier bytes of a longer sequence have been copied before. -/
def escapeCodePoint (codePoint : Nat) (byte : UInt8) : Bytes :=
  if codePoint = 0x08 then ascii "\\b"
  else if codePoint = 0x09 then ascii "\\t"
  else if codePoint = 0x0a then ascii "\\n"
  else if codePoint = 0x0c then ascii "\\f"
  else if codePoint = 0x0d then ascii "\\r"
  else if codePoint = 0x22 then ascii "\\\""
  else if codePoint = 0x5c then ascii "\\\\"
  else if codePoint ≤ 0x1f then
    ascii "\\u00" ++ [hexDigit (codePoint / 16), hexDigit (codePoint % 16)]
  else [byte]

/-- The loop of `dump_escaped` with the strict error handler: an invalid or
unfinished UTF-8 sequence throws. -/
def dumpEscapedFrom (state codePoint : Nat) : Bytes → Option Bytes
  | [] => if state = 0 then some [] else none
  | byte :: bytes =>
      let state' := utf8Next state byte
      let codePoint' := utf8CodePoint state codePoint byte
      if state' = 1 then none
      else (dumpEscapedFrom state' codePoint' bytes).map fun rest =>
        (if state' = 0 then escapeCodePoint codePoint' byte else [byte]) ++ rest

/-- `dump_escaped(text, false)`. -/
def dumpEscaped (text : Bytes) : Option Bytes := dumpEscapedFrom 0 0 text

def dumpInteger (value : Int64) : Bytes :=
  if value.toInt < 0 then ascii "-" ++ decimal value.toInt.natAbs
  else decimal value.toInt.natAbs

def dumpQuoted (text : Bytes) : Option Bytes :=
  (dumpEscaped text).map fun escaped => ascii "\"" ++ escaped ++ ascii "\""

mutual
/-- `dump()` without indentation, over the text of a floating-point number. -/
def dumpJson (dumpFloat : Float → Bytes) : Json → Option Bytes
  | .null => some (ascii "null")
  | .boolean value => some (ascii (if value then "true" else "false"))
  | .numberInteger value => some (dumpInteger value)
  | .numberUnsigned value => some (decimal value.toNat)
  | .numberFloat value => some (dumpFloat value)
  | .string value => dumpQuoted value
  | .array items =>
      (dumpItems dumpFloat items).map fun text => ascii "[" ++ text ++ ascii "]"
  | .object members =>
      (dumpMembers dumpFloat members).map fun text =>
        ascii "\x7b" ++ text ++ ascii "\x7d"
def dumpItems (dumpFloat : Float → Bytes) : List Json → Option Bytes
  | [] => some []
  | [item] => dumpJson dumpFloat item
  | item :: items => do
      return (← dumpJson dumpFloat item) ++ ascii "," ++ (← dumpItems dumpFloat items)
def dumpMembers (dumpFloat : Float → Bytes) : List (Bytes × Json) → Option Bytes
  | [] => some []
  | [(key, value)] => do
      return (← dumpQuoted key) ++ ascii ":" ++ (← dumpJson dumpFloat value)
  | (key, value) :: members => do
      return (← dumpQuoted key) ++ ascii ":" ++ (← dumpJson dumpFloat value) ++
        ascii "," ++ (← dumpMembers dumpFloat members)
end

example : dumpJson (fun _ => []) (Json.ofAssignments
    [(ascii "response", .string (ascii "O\"K")), (ascii "a", Json.ofUInt32 40)]) =
      some (ascii "\x7b\"a\":40,\"response\":\"O\\\"K\"\x7d") := by
  decide

/-- One member of an object, as `dump` writes it. -/
def dumpMember (dumpFloat : Float → Bytes) (member : Bytes × Json) : Option Bytes := do
  return (← dumpQuoted member.1) ++ ascii ":" ++ (← dumpJson dumpFloat member.2)

section DumpedParts

variable {dumpFloat : Float → Bytes} {text : Bytes}

theorem dumpItems_cons_cons_eq_some {item second : Json} {items : List Json} :
    dumpItems dumpFloat (item :: second :: items) = some text ↔
      ∃ head, dumpJson dumpFloat item = some head ∧
        ∃ tail, dumpItems dumpFloat (second :: items) = some tail ∧
          head ++ ascii "," ++ tail = text := by
  simp only [dumpItems, Option.pure_def, Option.bind_eq_bind, Option.bind_eq_some_iff,
    Option.some.injEq]

theorem dumpMember_eq_some {member : Bytes × Json} :
    dumpMember dumpFloat member = some text ↔
      ∃ keyText, dumpQuoted member.1 = some keyText ∧
        ∃ valueText, dumpJson dumpFloat member.2 = some valueText ∧
          keyText ++ ascii ":" ++ valueText = text := by
  simp only [dumpMember, Option.pure_def, Option.bind_eq_bind, Option.bind_eq_some_iff,
    Option.some.injEq]

theorem dumpMembers_cons_cons_eq_some {member second : Bytes × Json}
    {members : List (Bytes × Json)} :
    dumpMembers dumpFloat (member :: second :: members) = some text ↔
      ∃ head, dumpMember dumpFloat member = some head ∧
        ∃ tail, dumpMembers dumpFloat (second :: members) = some tail ∧
          head ++ ascii "," ++ tail = text := by
  simp [dumpMembers, dumpMember, Option.bind_eq_some_iff]

end DumpedParts

/-- The decoder, started in `state`, accepts the text as UTF-8. -/
def utf8AcceptsFrom (state : Nat) : Bytes → Bool
  | [] => state == 0
  | byte :: bytes =>
      utf8Next state byte != 1 && utf8AcceptsFrom (utf8Next state byte) bytes

def IsUtf8 (text : Bytes) : Prop := utf8AcceptsFrom 0 text = true

instance (text : Bytes) : Decidable (IsUtf8 text) :=
  inferInstanceAs (Decidable (utf8AcceptsFrom 0 text = true))

theorem isUtf8_of_lt {text : Bytes} (small : ∀ byte ∈ text, byte.toNat < 128) : IsUtf8 text := by
  have accepts : ∀ code < 128, utf8Transitions.getD (0 * 16 + utf8Classes.getD code 0) 1 = 0 := by
    decide +kernel
  unfold IsUtf8
  induction text with
  | nil => rfl
  | cons byte bytes ih =>
      have stays : utf8Next 0 byte = 0 := accepts byte.toNat (small byte (by simp))
      simp only [utf8AcceptsFrom, stays, Bool.and_eq_true]
      exact ⟨rfl, ih fun other member => small other (by simp [member])⟩

theorem dumpEscapedFrom_isSome (state codePoint : Nat) (text : Bytes) :
    (dumpEscapedFrom state codePoint text).isSome = utf8AcceptsFrom state text := by
  induction text generalizing state codePoint with
  | nil =>
      by_cases accepted : state = 0 <;> simp [dumpEscapedFrom, utf8AcceptsFrom, accepted]
  | cons byte bytes ih =>
      simp only [dumpEscapedFrom, utf8AcceptsFrom]
      by_cases rejected : utf8Next state byte = 1
      · simp [rejected]
      · simp [rejected, ih]

/-- Exactly the UTF-8 strings are serialized without an exception. -/
theorem dumpQuoted_isSome_iff (text : Bytes) :
    (dumpQuoted text).isSome ↔ IsUtf8 text := by
  simp [dumpQuoted, dumpEscaped, dumpEscapedFrom_isSome, IsUtf8]

mutual
theorem dumpJson_isSome (dumpFloat : Float → Bytes) (value : Json)
    (valid : ∀ text ∈ value.strings, IsUtf8 text) :
    (dumpJson dumpFloat value).isSome := by
  cases value with
  | null | boolean value | numberInteger value | numberUnsigned value
  | numberFloat value => simp [dumpJson]
  | string value =>
      simpa [dumpJson, dumpQuoted_isSome_iff] using valid value (by simp [Json.strings])
  | array items =>
      simpa [dumpJson] using dumpItems_isSome dumpFloat items valid
  | object members =>
      simpa [dumpJson] using dumpMembers_isSome dumpFloat members valid
theorem dumpItems_isSome (dumpFloat : Float → Bytes) (items : List Json)
    (valid : ∀ text ∈ Json.itemStrings items, IsUtf8 text) :
    (dumpItems dumpFloat items).isSome := by
  cases items with
  | nil => simp [dumpItems]
  | cons item items =>
      have first := dumpJson_isSome dumpFloat item
        fun text member => valid text (by simp [Json.itemStrings, member])
      have others := dumpItems_isSome dumpFloat items
        fun text member => valid text (by simp [Json.itemStrings, member])
      cases items with
      | nil => simpa [dumpItems] using first
      | cons second items =>
          obtain ⟨head, headEq⟩ := Option.isSome_iff_exists.mp first
          obtain ⟨tail, tailEq⟩ := Option.isSome_iff_exists.mp others
          simp [dumpItems, headEq, tailEq]
theorem dumpMembers_isSome (dumpFloat : Float → Bytes) (members : List (Bytes × Json))
    (valid : ∀ text ∈ Json.memberStrings members, IsUtf8 text) :
    (dumpMembers dumpFloat members).isSome := by
  cases members with
  | nil => simp [dumpMembers]
  | cons assignment members =>
      obtain ⟨key, value⟩ := assignment
      have keyValid := (dumpQuoted_isSome_iff key).mpr
        (valid key (by simp [Json.memberStrings]))
      have first := dumpJson_isSome dumpFloat value
        fun text member => valid text (by simp [Json.memberStrings, member])
      have others := dumpMembers_isSome dumpFloat members
        fun text member => valid text (by simp [Json.memberStrings, member])
      obtain ⟨keyText, keyEq⟩ := Option.isSome_iff_exists.mp keyValid
      obtain ⟨head, headEq⟩ := Option.isSome_iff_exists.mp first
      cases members with
      | nil => simp [dumpMembers, keyEq, headEq]
      | cons second members =>
          obtain ⟨tail, tailEq⟩ := Option.isSome_iff_exists.mp others
          simp [dumpMembers, keyEq, headEq, tailEq]
end

theorem utf8Next_le (state : Nat) (byte : UInt8) : utf8Next state byte ≤ 8 := by
  unfold utf8Next
  generalize state * 16 + utf8Classes.getD byte.toNat 0 = index
  have bounded : ∀ entry ∈ utf8Transitions, entry ≤ 8 := by decide +kernel
  rw [List.getD_eq_getElem?_getD]
  cases found : utf8Transitions[index]? with
  | none => simp
  | some entry => exact bounded entry (List.mem_of_getElem? found)

/-- Inside a multi-byte sequence the decoder rejects a NUL. -/
theorem utf8Next_nul {state : Nat} (inside : state ≠ 0) (bounded : state ≤ 8) :
    utf8Next state 0 = 1 := by
  interval_cases state
  · exact absurd rfl inside
  all_goals decide

theorem escapeCodePoint_nulFree {codePoint : Nat} {byte : UInt8}
    (control : byte = 0 → codePoint = 0) : 0 ∉ escapeCodePoint codePoint byte := by
  have hexDigit_ne : ∀ digit : Nat, digit < 16 → (0 : UInt8) ≠ hexDigit digit := by decide
  unfold escapeCodePoint
  split_ifs with backspace tab newline formfeed carriage quote backslash small
  · decide
  · decide
  · decide
  · decide
  · decide
  · decide
  · decide
  · have high := hexDigit_ne (codePoint / 16) (by omega)
    have low := hexDigit_ne (codePoint % 16) (by omega)
    have label : (0 : UInt8) ∉ ascii "\\u00" := by decide
    simp [label, high, low]
  · intro member
    have := control (List.mem_singleton.mp member).symm
    omega

theorem dumpEscapedFrom_nulFree {state codePoint : Nat} {text escaped : Bytes}
    (bounded : state ≤ 8) (dumped : dumpEscapedFrom state codePoint text = some escaped) :
    0 ∉ escaped := by
  induction text generalizing state codePoint escaped with
  | nil =>
      simp only [dumpEscapedFrom] at dumped
      split at dumped <;> simp_all
  | cons byte bytes ih =>
      simp only [dumpEscapedFrom] at dumped
      split at dumped
      · simp at dumped
      · rename_i accepted
        obtain ⟨rest, restEq, rfl⟩ := Option.map_eq_some_iff.mp dumped
        have restFree := ih (utf8Next_le state byte) restEq
        -- a NUL is never copied: it is a control character or a broken sequence
        have nulStart : byte = 0 → state = 0 := by
          rintro rfl
          by_contra inside
          exact accepted (utf8Next_nul inside bounded)
        have headFree : 0 ∉ (if utf8Next state byte = 0 then
            escapeCodePoint (utf8CodePoint state codePoint byte) byte else [byte]) := by
          split
          · apply escapeCodePoint_nulFree
            intro isZero
            simp [utf8CodePoint, nulStart isZero, isZero]
          · rename_i unfinished
            intro member
            have isZero : byte = 0 := (List.mem_singleton.mp member).symm
            rw [nulStart isZero, isZero] at unfinished
            exact unfinished (by decide)
        simp [headFree, restFree]

theorem dumpQuoted_nulFree {text quoted : Bytes} (dumped : dumpQuoted text = some quoted) :
    0 ∉ quoted := by
  obtain ⟨escaped, escapedEq, rfl⟩ := Option.map_eq_some_iff.mp dumped
  have escapedFree := dumpEscapedFrom_nulFree (by omega) escapedEq
  have quoteFree : (0 : UInt8) ∉ ascii "\"" := by decide
  simp [escapedFree, quoteFree]

theorem decimal_nulFree (number : Nat) : 0 ∉ decimal number := by
  intro member
  have := (decimal_digit member).1
  simp at this

mutual
theorem dumpJson_nulFree {dumpFloat : Float → Bytes} (floatFree : ∀ number, 0 ∉ dumpFloat number)
    {value : Json} {text : Bytes} (dumped : dumpJson dumpFloat value = some text) :
    0 ∉ text := by
  cases value with
  | null =>
      cases dumped
      decide
  | boolean value =>
      cases dumped
      cases value <;> decide
  | numberInteger value =>
      cases dumped
      have signFree : (0 : UInt8) ∉ ascii "-" := by decide
      unfold dumpInteger
      split <;> simp [signFree, decimal_nulFree]
  | numberUnsigned value =>
      cases dumped
      exact decimal_nulFree _
  | numberFloat value =>
      cases dumped
      exact floatFree value
  | string value => exact dumpQuoted_nulFree dumped
  | array items =>
      obtain ⟨inner, innerEq, rfl⟩ := Option.map_eq_some_iff.mp dumped
      have innerFree := dumpItems_nulFree floatFree innerEq
      have brackets : (0 : UInt8) ∉ ascii "[" ∧ (0 : UInt8) ∉ ascii "]" := by decide
      simp [innerFree, brackets]
  | object members =>
      obtain ⟨inner, innerEq, rfl⟩ := Option.map_eq_some_iff.mp dumped
      have innerFree := dumpMembers_nulFree floatFree innerEq
      have braces : (0 : UInt8) ∉ ascii "\x7b" ∧ (0 : UInt8) ∉ ascii "\x7d" := by decide
      simp [innerFree, braces]
theorem dumpItems_nulFree {dumpFloat : Float → Bytes} (floatFree : ∀ number, 0 ∉ dumpFloat number)
    {items : List Json} {text : Bytes} (dumped : dumpItems dumpFloat items = some text) :
    0 ∉ text := by
  have commaFree : (0 : UInt8) ∉ ascii "," := by decide
  match items, dumped with
  | [], dumped =>
      cases dumped
      simp
  | [item], dumped => exact dumpJson_nulFree floatFree dumped
  | item :: second :: items, dumped =>
      obtain ⟨head, headEq, tail, tailEq, rfl⟩ := dumpItems_cons_cons_eq_some.mp dumped
      have headFree := dumpJson_nulFree floatFree headEq
      have tailFree := dumpItems_nulFree floatFree tailEq
      simp [headFree, tailFree, commaFree]
theorem dumpMembers_nulFree {dumpFloat : Float → Bytes}
    (floatFree : ∀ number, 0 ∉ dumpFloat number)
    {members : List (Bytes × Json)} {text : Bytes}
    (dumped : dumpMembers dumpFloat members = some text) : 0 ∉ text := by
  have commaFree : (0 : UInt8) ∉ ascii "," := by decide
  match members, dumped with
  | [], dumped =>
      cases dumped
      simp
  | [member], dumped => exact dumpMember_nulFree floatFree dumped
  | member :: second :: members, dumped =>
      obtain ⟨head, headEq, tail, tailEq, rfl⟩ := dumpMembers_cons_cons_eq_some.mp dumped
      have headFree := dumpMember_nulFree floatFree headEq
      have tailFree := dumpMembers_nulFree floatFree tailEq
      simp [headFree, tailFree, commaFree]
theorem dumpMember_nulFree {dumpFloat : Float → Bytes}
    (floatFree : ∀ number, 0 ∉ dumpFloat number)
    {member : Bytes × Json} {text : Bytes}
    (dumped : dumpMember dumpFloat member = some text) : 0 ∉ text := by
  have colonFree : (0 : UInt8) ∉ ascii ":" := by decide
  obtain ⟨key, value⟩ := member
  obtain ⟨keyText, keyEq, valueText, valueEq, rfl⟩ := dumpMember_eq_some.mp dumped
  have keyFree := dumpQuoted_nulFree keyEq
  have valueFree := dumpJson_nulFree floatFree valueEq
  simp [keyFree, valueFree, colonFree]
end

theorem dumpJson_object_head {dumpFloat : Float → Bytes} {members : List (Bytes × Json)}
    {text : Bytes} (dumped : dumpJson dumpFloat (.object members) = some text) :
    ∃ rest, text = 123 :: rest := by
  obtain ⟨inner, _, rfl⟩ := Option.map_eq_some_iff.mp dumped
  exact ⟨inner ++ ascii "\x7d", rfl⟩

theorem dumpJson_object_key {dumpFloat : Float → Bytes} {key keyText text : Bytes} {value : Json}
    {members : List (Bytes × Json)}
    (dumped : dumpJson dumpFloat (.object ((key, value) :: members)) = some text)
    (keyDumped : dumpQuoted key = some keyText) : ∃ rest, text = 123 :: (keyText ++ rest) := by
  obtain ⟨inner, innerEq, rfl⟩ := Option.map_eq_some_iff.mp dumped
  have ofMember : ∀ {memberText}, dumpMember dumpFloat (key, value) = some memberText →
      ∃ rest, memberText = keyText ++ rest := by
    intro memberText memberEq
    obtain ⟨found, foundEq, valueText, -, rfl⟩ := dumpMember_eq_some.mp memberEq
    obtain rfl := Option.some.inj (foundEq.symm.trans keyDumped)
    exact ⟨_, List.append_assoc ..⟩
  have keyFirst : ∃ rest, inner = keyText ++ rest := by
    cases members with
    | nil => exact ofMember innerEq
    | cons second members =>
        obtain ⟨memberText, memberEq, later, -, rfl⟩ := dumpMembers_cons_cons_eq_some.mp innerEq
        obtain ⟨rest, rfl⟩ := ofMember memberEq
        exact ⟨rest ++ ascii "," ++ later, by simp only [List.append_assoc]⟩
  obtain ⟨rest, rfl⟩ := keyFirst
  exact ⟨rest ++ ascii "\x7d", by rw [← List.append_assoc keyText]; rfl⟩

namespace Json

theorem stringAt_mem_strings {key text : Bytes} {value : Json}
    (found : value.stringAt key = some text) : text ∈ value.strings := by
  obtain ⟨field, fieldEq, textEq⟩ := Option.bind_eq_some_iff.mp found
  cases value with
  | object members =>
      change members.lookup key = some field at fieldEq
      change text ∈ memberStrings members
      induction members with
      | nil => simp at fieldEq
      | cons assignment members ih =>
          obtain ⟨key', value'⟩ := assignment
          simp only [List.lookup_cons] at fieldEq
          split at fieldEq
          · obtain rfl := Option.some.inj fieldEq
            cases value' with
            | string value =>
                obtain rfl := Option.some.inj textEq
                simp [memberStrings, strings]
            | _ => simp [getString] at textEq
          · simp [memberStrings, ih (by simp [stringAt, at?, fieldEq, textEq]) fieldEq]
  | _ => simp [at?] at fieldEq

theorem mem_itemStrings {text : Bytes} {items : List Json} :
    text ∈ itemStrings items ↔ ∃ item ∈ items, text ∈ item.strings := by
  induction items with
  | nil => simp [itemStrings]
  | cons item items ih => simp [itemStrings, ih]

theorem memberStrings_insertMember {key text : Bytes} {value : Json}
    {members : List (Bytes × Json)}
    (member : text ∈ memberStrings (insertMember key value members)) :
    text = key ∨ text ∈ value.strings ∨ text ∈ memberStrings members := by
  induction members with
  | nil => simpa [insertMember, memberStrings] using member
  | cons assignment members ih =>
      obtain ⟨key', value'⟩ := assignment
      simp only [insertMember] at member
      split_ifs at member with same before
      · simp only [memberStrings, List.mem_cons, List.mem_append] at member ⊢
        tauto
      · simp only [memberStrings, List.mem_cons, List.mem_append] at member ⊢
        tauto
      · simp only [memberStrings, List.mem_cons, List.mem_append] at member ⊢
        tauto

theorem strings_ofAssignments {text : Bytes} {assignments : List (Bytes × Json)}
    (member : text ∈ (ofAssignments assignments).strings) :
    ∃ assignment ∈ assignments, text = assignment.1 ∨ text ∈ assignment.2.strings := by
  have general : ∀ (remaining members : List (Bytes × Json)),
      text ∈ memberStrings (remaining.foldl
        (fun members assignment => insertMember assignment.1 assignment.2 members) members) →
      text ∈ memberStrings members ∨
        ∃ assignment ∈ remaining, text = assignment.1 ∨ text ∈ assignment.2.strings := by
    intro remaining
    induction remaining with
    | nil => exact fun members found => Or.inl found
    | cons assignment remaining ih =>
        intro members found
        rcases ih _ found with inserted | ⟨later, laterMem, isLater⟩
        · rcases memberStrings_insertMember inserted with isKey | inValue | before
          · exact Or.inr ⟨assignment, by simp, Or.inl isKey⟩
          · exact Or.inr ⟨assignment, by simp, Or.inr inValue⟩
          · exact Or.inl before
        · exact Or.inr ⟨later, by simp [laterMem], isLater⟩
  rcases general assignments [] member with none | found
  · simp [memberStrings] at none
  · exact found

theorem isUtf8_ofAssignments {assignments : List (Bytes × Json)}
    (valid : ∀ assignment ∈ assignments,
      IsUtf8 assignment.1 ∧ ∀ text ∈ assignment.2.strings, IsUtf8 text) :
    ∀ text ∈ (ofAssignments assignments).strings, IsUtf8 text := by
  intro text member
  obtain ⟨assignment, isAssigned, rfl | inValue⟩ := strings_ofAssignments member
  · exact (valid assignment isAssigned).1
  · exact (valid assignment isAssigned).2 text inValue

end Json

/-- What the program takes from its JSON library: the parser, which rejects
unparsable text and text that is not UTF-8, and the text of a floating-point
number. -/
structure JsonLibrary where
  parse : Bytes → Option Json
  dumpFloat : Float → Bytes
  parse_utf8 : ∀ {text value}, parse text = some value →
    ∀ contents ∈ value.strings, IsUtf8 contents
  dumpFloat_nulFree : ∀ number, 0 ∉ dumpFloat number

def JsonLibrary.dump (json : JsonLibrary) (value : Json) : Option Bytes :=
  dumpJson json.dumpFloat value

theorem zeroText_nulFree : (0 : UInt8) ∉ ascii "0.0" := by
  decide

end UBus
