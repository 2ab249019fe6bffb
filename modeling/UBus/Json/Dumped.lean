import UBus.Json.Documents
import UBus.Json.Grammar

/-!
# Texts of the serializer

The serializer writes every value as text from which the parser derives it
again: strings are spelled, integers and floating-point numbers are numbers,
and a comma stands between the items and the members.
-/

namespace UBus

open Lexer

theorem dumpEscapedFrom_start (codePoint : Nat) (text : Bytes) :
    dumpEscapedFrom 0 codePoint text = dumpEscaped text := by
  cases text <;> simp [dumpEscaped, dumpEscapedFrom, utf8CodePoint]

theorem escapeCodePoint_high {codePoint : Nat} (high : 128 ≤ codePoint) (byte : UInt8) :
    escapeCodePoint codePoint byte = [byte] := by
  unfold escapeCodePoint
  split_ifs <;> first | rfl | omega

theorem dumpEscapedFrom_trailing {state codePoint : Nat} {trailing : Bytes} (inside : state ≠ 0)
    (notRejected : state ≠ 1) (bounded : state ≤ 8) (least : utf8Least state ≤ codePoint)
    (within : Utf8.Within (utf8Pending state) trailing) (rest : Bytes) :
    dumpEscapedFrom state codePoint (trailing ++ rest) =
      (dumpEscaped rest).map (trailing ++ ·) := by
  induction trailing generalizing state codePoint with
  | nil =>
      obtain ⟨range, ranges, pending, -⟩ := utf8Next_inside inside notRejected bounded
      rw [pending] at within
      cases within
  | cons byte trailing ih =>
      obtain ⟨range, ranges, pending, next⟩ := utf8Next_inside inside notRejected bounded
      rw [pending] at within
      cases within with
      | cons contains within =>
          obtain ⟨accepted, later⟩ := (if_pos contains).mp (next byte)
          obtain ⟨leastNext, finishes, -⟩ := utf8_continue inside bounded least accepted
          rw [List.cons_append, dumpEscapedFrom]
          simp only [if_neg accepted]
          by_cases finished : utf8Next state byte = 0
          · rw [finished] at later ⊢
            obtain rfl : ranges = [] := later.symm
            obtain rfl := List.forall₂_nil_left_iff.mp within
            rw [if_pos rfl, dumpEscapedFrom_start, escapeCodePoint_high (finishes finished)]
            rfl
          · rw [if_neg finished, ih finished accepted (utf8Next_le state byte) leastNext
              (later ▸ within), Option.map_map]
            rfl

theorem Lexer.hexValue_hexDigit {digit : Nat} (small : digit < 16) :
    Lexer.hexValue (hexDigit digit) = some digit := by
  revert digit
  decide

theorem Lexer.Spelling.of_escape {character : Char} {byte : UInt8} (small : byte.toNat < 0x80)
    (code : character.val.toNat = byte.toNat) :
    Spelling character (escapeCodePoint byte.toNat byte) := by
  have letter {letter escaped : UInt8} (isEscaped : escapedByte letter = some escaped)
      (value : byte.toNat = escaped.toNat) : Spelling character [92, letter] :=
    .escape isEscaped (code.trans value)
  unfold escapeCodePoint
  split_ifs with backspace tab newline formfeed carriage quote backslash control
  · exact letter rfl backspace
  · exact letter rfl tab
  · exact letter rfl newline
  · exact letter rfl formfeed
  · exact letter rfl carriage
  · exact letter rfl quote
  · exact letter rfl backslash
  · have high := Lexer.hexValue_hexDigit (show byte.toNat / 16 < 16 by omega)
    have low := Lexer.hexValue_hexDigit (show byte.toNat % 16 < 16 by omega)
    have hex : IsHex [48, 48, hexDigit (byte.toNat / 16), hexDigit (byte.toNat % 16)]
        character.val.toNat := by
      refine ⟨0, 0, byte.toNat / 16, byte.toNat % 16, ?_, by omega⟩
      simp only [List.map_cons, List.map_nil, high, low]
      rfl
    exact .unicode (.single hex)
  · rw [← encode_ascii small code]
    exact .plain (by omega) (by omega) (by omega)

theorem dumpEscaped_encode (character : Char) :
    ∃ piece, Spelling character piece ∧ ∀ rest,
      dumpEscaped (String.utf8EncodeChar character ++ rest) =
        (dumpEscaped rest).map (piece ++ ·) := by
  obtain ⟨lead, trailing, ranges, encoded, found, within⟩ := Utf8.isSequence_encode character
  obtain ⟨lead', trailing', encoded', ascii, high⟩ := Utf8.encode_lead character
  obtain ⟨rfl, rfl⟩ := List.cons.inj (encoded.symm.trans encoded')
  rw [trail_eq] at found
  split_ifs at found with accepted
  obtain rfl := Option.some.inj found
  obtain ⟨least, whole, multiple⟩ := @utf8_start lead 0 accepted
  by_cases finished : utf8Next 0 lead = 0
  · rw [finished] at within
    obtain rfl := List.forall₂_nil_left_iff.mp within
    have small : lead.toNat < 0x80 := Utf8.lt_of_trail_nil (by
      rw [trail_eq, if_neg accepted, finished]
      rfl)
    have code : character.val.toNat = lead.toNat := by
      by_contra other
      have large := high (by
        by_contra small
        exact other (ascii (by omega)).1.symm)
      omega
    refine ⟨_, .of_escape small code, fun rest => ?_⟩
    rw [encoded, List.singleton_append, dumpEscaped, dumpEscapedFrom]
    simp only [if_neg accepted, if_pos finished, whole finished]
    rw [finished, dumpEscapedFrom_start]
  · have large := multiple finished
    have code : 0x80 ≤ character.val.toNat := by
      by_contra small
      have same := (ascii (by omega)).1
      omega
    refine ⟨_, .plain (by omega) (by omega) (by omega), fun rest => ?_⟩
    rw [encoded, List.cons_append, dumpEscaped, dumpEscapedFrom]
    simp only [if_neg accepted, if_neg finished]
    rw [dumpEscapedFrom_trailing finished accepted (utf8Next_le 0 lead) least within,
      Option.map_map]
    rfl

theorem spells_dumpEscaped (characters : List Char) :
    ∃ escaped, dumpEscaped (characters.flatMap String.utf8EncodeChar) = some escaped ∧
      Spells characters escaped := by
  induction characters with
  | nil => exact ⟨[], rfl, [], .nil, rfl⟩
  | cons character characters ih =>
      obtain ⟨escaped, dumped, pieces, spelling, rfl⟩ := ih
      obtain ⟨piece, spelled, dumps⟩ := dumpEscaped_encode character
      refine ⟨piece ++ pieces.flatten, ?_, piece :: pieces, .cons spelled spelling, rfl⟩
      rw [List.flatMap_cons, dumps, dumped]
      rfl

theorem decimal_isInteger (number : Nat) : IsInteger (decimal number) := by
  by_cases zero : number = 0
  · subst zero
    exact .zero
  obtain ⟨first, later, textEq⟩ := List.exists_cons_of_ne_nil (decimal_ne_nil number)
  have areDigits : ∀ byte ∈ first :: later, isDigit byte :=
    fun byte member => @isDigit_decimal number byte (textEq ▸ member)
  rw [textEq]
  refine .digits ?_ areDigits
  rintro rfl
  -- the digit that is written first is the last that `Nat.digits` returns
  have notEmpty : Nat.digits 10 number ≠ [] := Nat.digits_ne_nil_iff_ne_zero.mpr zero
  have last := Nat.getLast_digit_ne_zero 10 zero
  have small : (Nat.digits 10 number).getLast notEmpty < 10 :=
    Nat.digits_lt_base (by norm_num) (List.getLast_mem notEmpty)
  have head := congrArg List.head? textEq
  rw [decimal, if_neg zero, List.head?_map, List.head?_reverse,
    List.getLast?_eq_some_getLast notEmpty, Option.map_some, List.head?_cons] at head
  have code := congrArg UInt8.toNat (Option.some.inj head)
  simp only [Nat.toUInt8, UInt8.toNat_ofNat', UInt8.reduceToNat] at code
  omega

theorem Lexer.IsInteger.isMagnitude {text : Bytes} (isInteger : IsInteger text) :
    IsMagnitude text :=
  ⟨text, [], [], isInteger, .absent, .absent, by simp⟩

theorem typeOf_digits {type : NumberType} {text : Bytes}
    (plain : ∀ byte ∈ text, isDigit byte ∨ byte = 45) : typeOf type text = type := by
  have none : (text.any fun byte => byte == 46 || byte == 101 || byte == 69) = false := by
    simp only [List.any_eq_false]
    intro byte member special
    simp only [Bool.or_eq_true, beq_iff_eq] at special
    rcases special with (rfl | rfl) | rfl <;> exact absurd (plain _ member) (by decide)
  rw [typeOf, none, cond_false]

theorem numberToken_unsigned (strtod : Bytes → Float) (value : UInt64) :
    numberToken strtod (decimal value.toNat) = .valueUnsigned value := by
  have digits : ∀ byte ∈ decimal value.toNat, isDigit byte := fun byte => isDigit_decimal
  have notMinus : (decimal value.toNat).head? ≠ some 45 := by
    intro isMinus
    exact absurd (digits 45 (List.mem_of_mem_head? isMinus)) (by decide)
  have fits : value.toNat < 2 ^ 64 := value.toNat_lt
  rw [numberToken, if_neg notMinus, typeOf_digits fun byte member => Or.inl (digits byte member),
    convertNumber, strtoull, digitsValue_decimal, if_pos fits]
  simp

theorem numberToken_negative (strtod : Bytes → Float) {value : Int64} (negative : value.toInt < 0) :
    numberToken strtod (45 :: decimal value.toInt.natAbs) = .valueInteger value := by
  have plain : ∀ byte ∈ 45 :: decimal value.toInt.natAbs, isDigit byte ∨ byte = 45 :=
    List.forall_mem_cons.mpr ⟨Or.inr rfl, fun byte member => Or.inl (isDigit_decimal member)⟩
  have fits : value.toInt.natAbs ≤ 2 ^ 63 := by
    have := value.le_toInt
    omega
  have magnitude : -(value.toInt.natAbs : Int) = value.toInt := by omega
  rw [numberToken, List.head?_cons, if_pos rfl, typeOf_digits plain, convertNumber, strtoll,
    List.tail_cons, digitsValue_decimal, if_pos fits, magnitude]
  simp

/-- What comes after a value: a comma, the end of the container, or nothing. -/
def Follows (rest : Bytes) : Prop := ∀ byte ∈ rest.head?, byte = 44 ∨ byte = 93 ∨ byte = 125

theorem Follows.ends {rest : Bytes} (follows : Follows rest) (lexeme : Bytes) :
    Ends lexeme rest := by
  rintro isNumber byte left rfl more continued
  have numeric := continued.numeric byte (by simp)
  rcases follows byte rfl with rfl | rfl | rfl <;> exact absurd numeric (by decide)

/-- Wherever a value may end, the text is read as these tokens. -/
def IsReadAs (strtod : Bytes → Float) (text : Bytes) (tokens : List Token) : Prop :=
  ∀ rest, Follows rest → Parser.Scans strtod (text ++ rest) tokens rest

theorem dumpItems_intercalate {dumpFloat : Float → Bytes} {items : List Json} {inner : Bytes}
    (dumped : dumpItems dumpFloat items = some inner) :
    ∃ texts, List.Forall₂ (fun text item => dumpJson dumpFloat item = some text) texts items ∧
      inner = [44].intercalate texts := by
  induction items generalizing inner with
  | nil =>
      obtain rfl := Option.some.inj dumped
      exact ⟨[], .nil, rfl⟩
  | cons item items ih =>
      cases items with
      | nil => exact ⟨[inner], .cons dumped .nil, by simp⟩
      | cons second items =>
          obtain ⟨text, textEq, later, laterEq, rfl⟩ := dumpItems_cons_cons_eq_some.mp dumped
          obtain ⟨texts, dumps, rfl⟩ := ih laterEq
          cases dumps with
          | @cons secondText _ others _ first dumps =>
              refine ⟨text :: secondText :: others, .cons textEq (.cons first dumps), ?_⟩
              rw [List.intercalate_cons_cons]
              rfl

theorem dumpMembers_intercalate {dumpFloat : Float → Bytes} {members : List (Bytes × Json)}
    {inner : Bytes} (dumped : dumpMembers dumpFloat members = some inner) :
    ∃ texts, List.Forall₂ (fun text member => dumpMember dumpFloat member = some text)
        texts members ∧ inner = [44].intercalate texts := by
  induction members generalizing inner with
  | nil =>
      obtain rfl := Option.some.inj dumped
      exact ⟨[], .nil, rfl⟩
  | cons member members ih =>
      cases members with
      | nil => exact ⟨[inner], .cons dumped .nil, by simp⟩
      | cons second members =>
          obtain ⟨text, textEq, later, laterEq, rfl⟩ := dumpMembers_cons_cons_eq_some.mp dumped
          obtain ⟨texts, dumps, rfl⟩ := ih laterEq
          cases dumps with
          | @cons secondText _ others _ dumpedSecond dumps =>
              refine ⟨_, .cons textEq (.cons dumpedSecond dumps), ?_⟩
              rw [List.intercalate_cons_cons]
              rfl

section Pieces

variable {strtod : Bytes → Float}

theorem Lexer.Lexeme.isReadAs {token : Token} {text : Bytes}
    (isLexeme : Lexeme strtod token text) : IsReadAs strtod text [token] := by
  intro rest follows
  have noSpace : IsSpace [] := by simp [IsSpace]
  exact Parser.scans_single.mpr (isLexeme.scan noSpace (follows.ends text))

theorem scans_separated {closing : UInt8} {closingToken : Token}
    (isClosing : closing = 93 ∨ closing = 125)
    (found : ∀ rest, scan strtod (closing :: rest) = some (closingToken, rest))
    {texts : List Bytes} {parts : List (List Token)}
    (read : List.Forall₂ (IsReadAs strtod) texts parts) (rest : Bytes) :
    Parser.Scans strtod ([44].intercalate texts ++ closing :: rest)
      ([.valueSeparator].intercalate parts ++ [closingToken]) rest := by
  induction read with
  | nil => exact Parser.scans_single.mpr (found rest)
  | @cons text tokens texts parts first later ih =>
      cases later with
      | nil =>
          rw [List.intercalate_singleton, List.intercalate_singleton]
          refine Parser.scans_append.mpr ⟨closing :: rest, first _ ?_, ?_⟩
          · intro byte isFirst
            obtain rfl := Option.some.inj isFirst
            exact Or.inr isClosing
          · exact Parser.scans_single.mpr (found rest)
      | cons second later =>
          rw [List.intercalate_cons_cons, List.intercalate_cons_cons, List.append_assoc,
            List.append_assoc, List.append_assoc, List.append_assoc]
          refine Parser.scans_append.mpr ⟨_, first _ ?_, ⟨_, rfl, ih⟩⟩
          intro byte isFirst
          obtain rfl := Option.some.inj isFirst
          exact Or.inl rfl

theorem isReadAs_member {key keyText valueText : Bytes} {tokens : List Token}
    (isKey : Lexeme strtod (.valueString key) keyText) (notNumber : ∀ rest, Ends keyText rest)
    (value : IsReadAs strtod valueText tokens) :
    IsReadAs strtod (keyText ++ ascii ":" ++ valueText)
      (.valueString key :: .nameSeparator :: tokens) := by
  intro rest follows
  have noSpace : IsSpace [] := by simp [IsSpace]
  have foundKey : scan strtod (keyText ++ 58 :: (valueText ++ rest)) =
      some (.valueString key, 58 :: (valueText ++ rest)) := isKey.scan noSpace (notNumber _)
  have foundColon : scan strtod (58 :: (valueText ++ rest)) =
      some (.nameSeparator, valueText ++ rest) := rfl
  rw [List.append_assoc, List.append_assoc]
  exact ⟨_, foundKey, _, foundColon, value rest follows⟩

theorem lexeme_dumpQuoted {contents text : Bytes} (dumped : dumpQuoted contents = some text) :
    Lexeme strtod (.valueString contents) text ∧ ∀ rest, Ends text rest := by
  have valid := (dumpQuoted_isSome_iff contents).mp (by simp [dumped])
  obtain ⟨characters, rfl⟩ := isUtf8_iff.mp valid
  obtain ⟨escaped, escapedEq, spells⟩ := spells_dumpEscaped characters
  obtain rfl : ascii "\"" ++ escaped ++ ascii "\"" = text := by
    simpa [dumpQuoted, escapedEq] using dumped
  have textEq : ascii "\"" ++ escaped ++ ascii "\"" = 34 :: (escaped ++ [34]) := by
    rw [List.append_assoc]
    rfl
  rw [textEq]
  exact ⟨.string spells, ends_of_start rfl _⟩

end Pieces

namespace Json

theorem sizeOf_member {members : List (Bytes × Json)} {member : Bytes × Json}
    (isMember : member ∈ members) : sizeOf member.2 < sizeOf (object members) := by
  have smaller := List.sizeOf_lt_of_mem isMember
  obtain ⟨key, value⟩ := member
  simp only [Prod.mk.sizeOf_spec, object.sizeOf_spec] at smaller ⊢
  omega

/-- What the parser makes of a value that was serialized: integers are unsigned
unless they are negative, and a number that is not finite is written as null. -/
def reread : Json → Json
  | .numberInteger value => parsed (.numberInteger value)
  | .numberFloat value => if value.isFinite then .numberFloat value else .null
  | .array items => .array (items.map reread)
  | .object members => .object (members.map fun member => (member.1, member.2.reread))
  | value => value
decreasing_by
  · decreasing_trivial
  · exact sizeOf_member ‹_›

def parts : Json → List Json
  | .array items => .array items :: items.flatMap parts
  | .object members => .object members :: members.flatMap fun member => member.2.parts
  | value => [value]
decreasing_by
  · decreasing_trivial
  · exact sizeOf_member ‹_›

def IsOrdered (value : Json) : Prop :=
  ∀ members, .object members ∈ value.parts →
    members.Pairwise fun first second => first.1 < second.1

theorem induct {P : Json → Prop} (null : P .null) (boolean : ∀ value, P (.boolean value))
    (numberInteger : ∀ value, P (.numberInteger value))
    (numberUnsigned : ∀ value, P (.numberUnsigned value))
    (numberFloat : ∀ value, P (.numberFloat value)) (string : ∀ value, P (.string value))
    (array : ∀ items, (∀ item ∈ items, P item) → P (.array items))
    (object : ∀ members, (∀ member ∈ members, P member.2) → P (.object members)) :
    ∀ value, P value
  | .null => null
  | .boolean value => boolean value
  | .numberInteger value => numberInteger value
  | .numberUnsigned value => numberUnsigned value
  | .numberFloat value => numberFloat value
  | .string value => string value
  | .array items => array items fun item _ =>
      induct null boolean numberInteger numberUnsigned numberFloat string array object item
  | .object members => object members fun member _ =>
      induct null boolean numberInteger numberUnsigned numberFloat string array object member.2
decreasing_by
  · decreasing_trivial
  · exact sizeOf_member ‹_›

theorem self_mem_parts (value : Json) : value ∈ value.parts := by
  cases value <;> simp [parts]

theorem mem_parts_array {items : List Json} {item part : Json} (isItem : item ∈ items)
    (isPart : part ∈ item.parts) : part ∈ (array items).parts := by
  rw [parts]
  exact List.mem_cons_of_mem _ (List.mem_flatMap.mpr ⟨item, isItem, isPart⟩)

theorem mem_parts_object {members : List (Bytes × Json)} {member : Bytes × Json} {part : Json}
    (isMember : member ∈ members) (isPart : part ∈ member.2.parts) :
    part ∈ (object members).parts := by
  rw [parts]
  exact List.mem_cons_of_mem _ (List.mem_flatMap.mpr ⟨member, isMember, isPart⟩)

end Json

section Values

variable {strtod : Bytes → Float} {dumpFloat : Float → Bytes}

/-- The text of a number has a decimal point or an exponent, and `strtod` reads
it back. -/
structure FloatText (strtod : Bytes → Float) (dumpFloat : Float → Bytes) (number : Float) :
    Prop where
  isNumber : IsNumber (dumpFloat number)
  isFloat : typeOf .unsigned (dumpFloat number) = .float
  value : strtod (dumpFloat number) = number

/-- What the parser relies on: a number that is not finite is written as null. -/
def ReadsFloat (strtod : Bytes → Float) (dumpFloat : Float → Bytes) (number : Float) : Prop :=
  if number.isFinite then FloatText strtod dumpFloat number else dumpFloat number = ascii "null"

theorem typeOf_float {type : NumberType} {text : Bytes} (isFloat : typeOf .unsigned text = .float) :
    typeOf type text = .float := by
  unfold typeOf at isFloat ⊢
  cases special : text.any fun byte => byte == 46 || byte == 101 || byte == 69 with
  | true => rfl
  | false => simp [special] at isFloat

/-- The tokens of the items of an array, or of the members of an object, whose
texts start with a header. -/
theorem exists_reads {Item : Type} {Dumps : Bytes → Item → Prop} {texts : List Bytes}
    {items : List Item} (value : Item → Json) (header : Item → List Token)
    (dumps : List.Forall₂ Dumps texts items)
    (each : ∀ item ∈ items, ∀ text, Dumps text item → ∃ tokens,
      Parser.Derives tokens (value item) ∧ IsReadAs strtod text (header item ++ tokens)) :
    ∃ reads : List (Item × List Token), reads.map Prod.fst = items ∧
      (∀ read ∈ reads, Parser.Derives read.2 (value read.1)) ∧
        List.Forall₂ (IsReadAs strtod) texts (reads.map fun read => header read.1 ++ read.2) := by
  induction dumps with
  | nil => exact ⟨[], rfl, by simp, .nil⟩
  | @cons text item texts items dumped _ ih =>
      obtain ⟨tokens, derives, isReadAs⟩ := each item (by simp) text dumped
      obtain ⟨reads, itemsEq, derivesOthers, others⟩ :=
        ih fun other member => each other (by simp [member])
      exact ⟨(item, tokens) :: reads, by simp [itemsEq],
        List.forall_mem_cons.mpr ⟨derives, derivesOthers⟩, .cons isReadAs others⟩

def IsDerived (strtod : Bytes → Float) (text : Bytes) (value : Json) : Prop :=
  ∃ tokens, Parser.Derives tokens value ∧ IsReadAs strtod text tokens

theorem Lexer.Lexeme.isDerived {token : Token} {text : Bytes} {value : Json}
    (isLexeme : Lexeme strtod token text) (isScalar : Parser.scalarValue token = some value) :
    IsDerived strtod text value :=
  ⟨[token], .scalar isScalar, isLexeme.isReadAs⟩

theorem isDerived_unsigned (value : UInt64) :
    IsDerived strtod (decimal value.toNat) (.numberUnsigned value) := by
  have isLexeme : Lexeme strtod (numberToken strtod (decimal value.toNat)) (decimal value.toNat) :=
    .number (Or.inl (decimal_isInteger _).isMagnitude)
  rw [numberToken_unsigned] at isLexeme
  exact isLexeme.isDerived rfl

theorem isDerived_integer (value : Int64) :
    IsDerived strtod (dumpInteger value) (Json.parsed (.numberInteger value)) := by
  rw [dumpInteger, Json.parsed]
  split_ifs with negative
  · have isLexeme : Lexeme strtod (numberToken strtod (45 :: decimal value.toInt.natAbs))
        (45 :: decimal value.toInt.natAbs) :=
      .number (Or.inr ⟨_, (decimal_isInteger _).isMagnitude, rfl⟩)
    rw [numberToken_negative strtod negative] at isLexeme
    exact isLexeme.isDerived rfl
  · have small : value.toInt.natAbs.toUInt64.toNat = value.toInt.natAbs := by
      have := value.toInt_lt
      simp
      omega
    have derived := @isDerived_unsigned strtod value.toInt.natAbs.toUInt64
    rwa [small] at derived

theorem isDerived_float {number : Float} (reads : ReadsFloat strtod dumpFloat number) :
    IsDerived strtod (dumpFloat number) (Json.reread (.numberFloat number)) := by
  unfold ReadsFloat at reads
  rw [Json.reread]
  split_ifs at reads ⊢ with finite
  · have isLexeme : Lexeme strtod (numberToken strtod (dumpFloat number)) (dumpFloat number) :=
      .number reads.isNumber
    rw [numberToken, typeOf_float reads.isFloat, convertNumber, reads.value] at isLexeme
    exact isLexeme.isDerived (if_pos finite)
  · rw [reads]
    exact Lexeme.literalNull.isDerived rfl

theorem isDerived_array {items : List Json} {inner : Bytes}
    (each : ∀ item ∈ items, ∀ text, dumpJson dumpFloat item = some text →
      IsDerived strtod text item.reread)
    (dumped : dumpItems dumpFloat items = some inner) :
    IsDerived strtod (ascii "[" ++ inner ++ ascii "]") (Json.reread (.array items)) := by
  obtain ⟨texts, dumps, rfl⟩ := dumpItems_intercalate dumped
  obtain ⟨reads, rfl, derives, isReadAs⟩ := exists_reads Json.reread (fun _ => []) dumps each
  have derived : Parser.Derives _ _ := .array
    (show ∀ item ∈ reads.map fun read => (read.2, read.1.reread), Parser.Derives item.1 item.2 from
      List.forall_mem_map.mpr derives)
  have rereadEq : Json.reread (.array (reads.map Prod.fst)) =
      .array (reads.map fun read => read.1.reread) := by
    rw [Json.reread, List.map_map]
    rfl
  rw [List.map_map, List.map_map] at derived
  rw [rereadEq]
  refine ⟨_, derived, fun rest _ => ?_⟩
  rw [List.append_assoc, List.append_assoc]
  have scans := scans_separated (Or.inl rfl) (fun rest => (rfl : scan strtod (93 :: rest) = _))
    isReadAs rest
  exact ⟨_, rfl, scans⟩

theorem isDerived_object {members : List (Bytes × Json)} {inner : Bytes}
    (sorted : members.Pairwise fun first second => first.1 < second.1)
    (each : ∀ member ∈ members, ∀ text, dumpJson dumpFloat member.2 = some text →
      IsDerived strtod text member.2.reread)
    (dumped : dumpMembers dumpFloat members = some inner) :
    IsDerived strtod (ascii "\x7b" ++ inner ++ ascii "\x7d") (Json.reread (.object members)) := by
  obtain ⟨texts, dumps, rfl⟩ := dumpMembers_intercalate dumped
  have eachMember : ∀ member ∈ members, ∀ text, dumpMember dumpFloat member = some text →
      ∃ tokens, Parser.Derives tokens member.2.reread ∧
        IsReadAs strtod text ([.valueString member.1, .nameSeparator] ++ tokens) := by
    intro member isMember text dumpedMember
    obtain ⟨keyText, keyEq, valueText, valueEq, rfl⟩ := dumpMember_eq_some.mp dumpedMember
    obtain ⟨isKey, notNumber⟩ := @lexeme_dumpQuoted strtod _ _ keyEq
    obtain ⟨tokens, derives, isReadAs⟩ := each member isMember valueText valueEq
    exact ⟨tokens, derives, isReadAs_member isKey notNumber isReadAs⟩
  obtain ⟨reads, rfl, derives, isReadAs⟩ := exists_reads (fun member => member.2.reread)
    (fun member => [.valueString member.1, .nameSeparator]) dumps eachMember
  have derived : Parser.Derives _ _ := .object
    (show ∀ member ∈ reads.map fun read => (read.1.1, read.2, read.1.2.reread),
        Parser.Derives member.2.1 member.2.2 from List.forall_mem_map.mpr derives)
  have rereadEq : Json.reread (.object (reads.map Prod.fst)) =
      Json.ofAssignments (reads.map fun read => (read.1.1, read.1.2.reread)) := by
    have sortedReads : (reads.map fun read => (read.1.1, read.1.2.reread)).Pairwise
        fun first second => first.1 < second.1 := by
      rw [List.pairwise_map] at sorted ⊢
      exact sorted
    rw [ofAssignments_of_sorted sortedReads, Json.reread, List.map_map]
    rfl
  rw [List.map_map, List.map_map] at derived
  rw [rereadEq]
  refine ⟨_, derived, fun rest _ => ?_⟩
  rw [List.append_assoc, List.append_assoc]
  have scans := scans_separated (Or.inr rfl) (fun rest => (rfl : scan strtod (125 :: rest) = _))
    isReadAs rest
  exact ⟨_, rfl, scans⟩

theorem isDerived_dump {value : Json} {text : Bytes} (ordered : value.IsOrdered)
    (floats : ∀ number, .numberFloat number ∈ value.parts → ReadsFloat strtod dumpFloat number)
    (dumped : dumpJson dumpFloat value = some text) : IsDerived strtod text value.reread := by
  induction value using Json.induct generalizing text with
  | null =>
      obtain rfl := Option.some.inj dumped
      exact Lexeme.literalNull.isDerived (by simp [Json.reread, Parser.scalarValue])
  | boolean value =>
      obtain rfl := Option.some.inj dumped
      cases value with
      | false => exact Lexeme.literalFalse.isDerived (by simp [Json.reread, Parser.scalarValue])
      | true => exact Lexeme.literalTrue.isDerived (by simp [Json.reread, Parser.scalarValue])
  | numberInteger value =>
      obtain rfl := Option.some.inj dumped
      rw [Json.reread]
      exact isDerived_integer value
  | numberUnsigned value =>
      obtain rfl := Option.some.inj dumped
      rw [Json.reread]
      · exact isDerived_unsigned value
      all_goals simp
  | numberFloat value =>
      obtain rfl := Option.some.inj dumped
      exact isDerived_float (floats value (Json.self_mem_parts _))
  | string value =>
      exact (lexeme_dumpQuoted dumped).1.isDerived (by simp [Json.reread, Parser.scalarValue])
  | array items ih =>
      obtain ⟨inner, innerEq, rfl⟩ := Option.map_eq_some_iff.mp dumped
      refine isDerived_array (fun item isItem text dumpedItem => ?_) innerEq
      exact ih item isItem
        (fun members isPart => ordered members (Json.mem_parts_array isItem isPart))
        (fun number isPart => floats number (Json.mem_parts_array isItem isPart)) dumpedItem
  | object members ih =>
      obtain ⟨inner, innerEq, rfl⟩ := Option.map_eq_some_iff.mp dumped
      refine isDerived_object (ordered members (Json.self_mem_parts _))
        (fun member isMember text dumpedValue => ?_) innerEq
      exact ih member isMember
        (fun members isPart => ordered members (Json.mem_parts_object isMember isPart))
        (fun number isPart => floats number (Json.mem_parts_object isMember isPart)) dumpedValue

theorem IsDerived.parse {value : Json} {text : Bytes} (derived : IsDerived strtod text value) :
    Parser.parse strtod text = some value := by
  obtain ⟨tokens, derives, isReadAs⟩ := derived
  have scans := isReadAs [] (by simp [Follows])
  rw [List.append_nil] at scans
  have isTokens : Tokens strtod text tokens :=
    Parser.tokens_iff.mpr ⟨derives.endOfInput_not_mem, [], [], scans, rfl⟩
  have noBom : text.head? ≠ some 0xEF := by
    intro bom
    obtain ⟨later, rfl⟩ := List.head?_eq_some_iff.mp bom
    have completes : Parser.Completes strtod tokens value := derives.completes
    obtain ⟨token, left, found, -⟩ := completes.exists_scan scans
    have stuck : scan strtod (0xEF :: later) = none := rfl
    exact absurd (stuck.symm.trans found) (by simp)
  exact Parser.parse_eq_some.mpr ⟨text, tokens, Parser.skipBom_of_head noBom, isTokens, derives⟩

/-- A value that is serialized and parsed comes back, up to the signs of its
integers and the numbers that are not finite. -/
theorem parse_dump {value : Json} {text : Bytes} (ordered : value.IsOrdered)
    (floats : ∀ number, .numberFloat number ∈ value.parts → ReadsFloat strtod dumpFloat number)
    (dumped : dumpJson dumpFloat value = some text) :
    Parser.parse strtod text = some value.reread :=
  (isDerived_dump ordered floats dumped).parse

end Values

end UBus
