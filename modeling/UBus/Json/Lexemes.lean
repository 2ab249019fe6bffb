import UBus.Json.Numbers

/-!
# Tokens and their texts

What the lexer returns for a text is described here without the lexer: a token
is written as a lexeme, after white space, and a number ends where nothing
continues it.
-/

namespace UBus.Lexer

def numberToken (strtod : Bytes → Float) (text : Bytes) : Token :=
  convertNumber strtod text (typeOf (if text.head? = some 45 then .integer else .unsigned) text)

def NumberEnds (number rest : Bytes) : Prop :=
  ∀ byte left, rest = byte :: left → ∀ more, ¬ IsNumber (number ++ byte :: more)

/-- The label that the first character of a number leads to. -/
def numberStart (current : UInt8) : Option NumberState :=
  if current = 45 then some .minus else NumberState.minus.next current

theorem isNumber_cons {current : UInt8} {state : NumberState}
    (start : numberStart current = some state) (text : Bytes) :
    IsNumber (current :: text) ↔ state.Accepts text := by
  unfold numberStart at start
  split_ifs at start with isMinus
  · obtain rfl := Option.some.inj start
    subst isMinus
    rw [NumberState.minus_accepts]
    constructor
    · rintro (isMagnitude | ⟨magnitude, isMagnitude, textEq⟩)
      · obtain ⟨state, isNext, -⟩ := NumberState.minus_accepts.mpr isMagnitude
        exact absurd isNext (by simp [NumberState.next, isDigit])
      · rwa [(List.cons.inj textEq).2]
    · exact fun isMagnitude => Or.inr ⟨text, isMagnitude, rfl⟩
  · constructor
    · rintro (isMagnitude | ⟨magnitude, -, textEq⟩)
      · obtain ⟨state', isNext, accepts⟩ := NumberState.minus_accepts.mpr isMagnitude
        obtain rfl := Option.some.inj (start.symm.trans isNext)
        exact accepts
      · exact absurd (List.cons.inj textEq).1 isMinus
    · exact fun accepts => Or.inl (NumberState.minus_accepts.mp ⟨state, start, accepts⟩)

theorem exists_numberStart {number : Bytes} (isNumber : IsNumber number) :
    ∃ current text state, number = current :: text ∧ numberStart current = some state := by
  rcases isNumber with isMagnitude | ⟨magnitude, isMagnitude, rfl⟩
  · have accepts := NumberState.minus_accepts.mpr isMagnitude
    cases number with
    | nil => simp [NumberState.isDone] at accepts
    | cons current text =>
        obtain ⟨state, isNext, -⟩ := accepts
        have notMinus : current ≠ 45 := by
          rintro rfl
          simp [NumberState.next, isDigit] at isNext
        exact ⟨current, text, state, rfl, by rw [numberStart, if_neg notMinus, isNext]⟩
  · exact ⟨45, magnitude, .minus, rfl, rfl⟩

def IsNumeric (byte : UInt8) : Prop := isDigit byte ∨ byte ∈ [43, 45, 46, 69, 101]

instance (byte : UInt8) : Decidable (IsNumeric byte) := inferInstanceAs (Decidable (_ ∨ _))

theorem NumberState.next_numeric {state state' : NumberState} {current : UInt8}
    (isNext : state.next current = some state') : IsNumeric current := by
  cases state <;> simp only [NumberState.next] at isNext <;> split_ifs at isNext <;>
    simp_all [IsNumeric] <;> tauto

theorem NumberState.Accepts.numeric {state : NumberState} {text : Bytes}
    (accepts : state.Accepts text) : ∀ byte ∈ text, IsNumeric byte := by
  induction text generalizing state with
  | nil => simp
  | cons current text ih =>
      obtain ⟨state', isNext, accepts⟩ := accepts
      exact List.forall_mem_cons.mpr ⟨NumberState.next_numeric isNext, ih accepts⟩

theorem IsNumber.numeric {text : Bytes} (isNumber : IsNumber text) :
    ∀ byte ∈ text, IsNumeric byte := by
  obtain ⟨current, later, state, rfl, start⟩ := exists_numberStart isNumber
  refine List.forall_mem_cons.mpr ⟨?_, ((isNumber_cons start later).mp isNumber).numeric⟩
  unfold numberStart at start
  split_ifs at start with isMinus
  · exact Or.inr (by simp [isMinus])
  · exact NumberState.next_numeric start

theorem typeOf_numberStart {current : UInt8} {state : NumberState}
    (start : numberStart current = some state) (text : Bytes) :
    typeOf (state.numberType .unsigned) text =
      typeOf (if (current :: text).head? = some 45 then .integer else .unsigned)
        (current :: text) := by
  unfold numberStart at start
  split_ifs at start with isMinus
  · obtain rfl := Option.some.inj start
    subst isMinus
    rfl
  · rw [NumberState.numberType_next start, typeOf_cons, List.head?_cons]
    simp [isMinus]

theorem scanNumber_eq_some {strtod : Bytes → Float} {current : UInt8} {state : NumberState}
    (start : numberStart current = some state) {text rest : Bytes} {token : Token} :
    scanNumber strtod current state text = some (token, rest) ↔
      ∃ number, IsNumber number ∧ current :: text = number ++ rest ∧ NumberEnds number rest ∧
        token = numberToken strtod number := by
  simp only [scanNumber, Option.map_eq_some_iff]
  constructor
  · rintro ⟨⟨buffer, type, rest'⟩, scanned, same⟩
    obtain ⟨rfl, rfl⟩ := Prod.mk.inj same
    obtain ⟨accepts, rfl, stops, rfl⟩ := scanNumberFrom_eq_some.mp scanned
    refine ⟨current :: buffer, (isNumber_cons start buffer).mpr accepts, rfl, ?_, ?_⟩
    · exact fun byte left restEq more isNumber =>
        stops byte left restEq more ((isNumber_cons start _).mp isNumber)
    · rw [typeOf_numberStart start, numberToken]
  · rintro ⟨number, isNumber, textEq, ends, rfl⟩
    obtain ⟨first, buffer, -, rfl, -⟩ := exists_numberStart isNumber
    obtain ⟨rfl, rfl⟩ := List.cons.inj textEq
    have accepts := (isNumber_cons start buffer).mp isNumber
    have stops : state.Stops buffer rest := fun byte left restEq more continues =>
      ends byte left restEq more ((isNumber_cons start _).mpr continues)
    refine ⟨_, scanNumberFrom_eq_some.mpr ⟨accepts, rfl, stops, rfl⟩, ?_⟩
    rw [typeOf_numberStart start, numberToken]

/-- The texts of the tokens. -/
inductive Lexeme (strtod : Bytes → Float) : Token → Bytes → Prop
  | beginArray : Lexeme strtod .beginArray (ascii "[")
  | endArray : Lexeme strtod .endArray (ascii "]")
  | beginObject : Lexeme strtod .beginObject (ascii "\x7b")
  | endObject : Lexeme strtod .endObject (ascii "\x7d")
  | nameSeparator : Lexeme strtod .nameSeparator (ascii ":")
  | valueSeparator : Lexeme strtod .valueSeparator (ascii ",")
  | literalTrue : Lexeme strtod .literalTrue (ascii "true")
  | literalFalse : Lexeme strtod .literalFalse (ascii "false")
  | literalNull : Lexeme strtod .literalNull (ascii "null")
  | string {characters : List Char} {text : Bytes} (spells : Spells characters text) :
      Lexeme strtod (.valueString (characters.flatMap String.utf8EncodeChar))
        (34 :: (text ++ [34]))
  | number {text : Bytes} (isNumber : IsNumber text) : Lexeme strtod (numberToken strtod text) text

/-- A lexeme ends, since what follows does not belong to it. -/
def Ends (lexeme rest : Bytes) : Prop := IsNumber lexeme → NumberEnds lexeme rest

theorem scanLiteral_eq_some {token token' : Token} {literal text rest : Bytes} :
    scanLiteral token literal text = some (token', rest) ↔
      token' = token ∧ text = literal ++ rest := by
  induction literal generalizing text with
  | nil =>
      simp only [scanLiteral, Option.some.injEq, Prod.mk.injEq, List.nil_append]
      exact and_congr_left' eq_comm
  | cons expected literal ih =>
      cases text with
      | nil => simp [scanLiteral]
      | cons current text =>
          simp only [scanLiteral, Option.ite_none_right_eq_some, ih, List.cons_append,
            List.cons.injEq]
          tauto

theorem ends_of_start {current : UInt8} (start : numberStart current = none) (text rest : Bytes) :
    Ends (current :: text) rest := by
  intro isNumber
  obtain ⟨first, _, state, textEq, isStart⟩ := exists_numberStart isNumber
  obtain ⟨rfl, -⟩ := List.cons.inj textEq
  simp [start] at isStart

theorem scanToken_number {strtod : Bytes → Float} {current : UInt8} {state : NumberState}
    (start : numberStart current = some state) (text : Bytes) :
    scanToken strtod (current :: text) = scanNumber strtod current state text := by
  simp only [numberStart, NumberState.next] at start
  split_ifs at start with isMinus isZero digit
  · obtain rfl := Option.some.inj start
    subst isMinus
    rfl
  · obtain rfl := Option.some.inj start
    subst isZero
    rfl
  · obtain rfl := Option.some.inj start
    have others : current = 49 ∨ current = 50 ∨ current = 51 ∨ current = 52 ∨ current = 53 ∨
        current = 54 ∨ current = 55 ∨ current = 56 ∨ current = 57 := by
      simp only [isDigit, Bool.and_eq_true, decide_eq_true_eq, UInt8.le_iff_toNat_le,
        ← UInt8.toNat_inj, UInt8.reduceToNat] at digit isZero ⊢
      omega
    rcases others with rfl | rfl | rfl | rfl | rfl | rfl | rfl | rfl | rfl <;> rfl

theorem Lexeme.of_scanToken {strtod : Bytes → Float} {text rest : Bytes} {token : Token}
    (scanned : scanToken strtod text = some (token, rest)) :
    (∃ lexeme, Lexeme strtod token lexeme ∧ text = lexeme ++ rest ∧ Ends lexeme rest) ∨
      token = .endOfInput ∧ (text = [] ∧ rest = [] ∨ text = 0 :: rest) := by
  have number {current : UInt8} {state : NumberState} {text : Bytes}
      (start : numberStart current = some state)
      (scanned : scanNumber strtod current state text = some (token, rest)) :
      ∃ lexeme, Lexeme strtod token lexeme ∧ current :: text = lexeme ++ rest ∧
        Ends lexeme rest := by
    obtain ⟨number, isNumber, textEq, ends, rfl⟩ := (scanNumber_eq_some start).mp scanned
    exact ⟨number, .number isNumber, textEq, fun _ => ends⟩
  unfold scanToken at scanned
  split at scanned
  · obtain ⟨rfl, rfl⟩ := Prod.mk.inj (Option.some.inj scanned)
    exact Or.inr ⟨rfl, Or.inl ⟨rfl, rfl⟩⟩
  · obtain ⟨rfl, rfl⟩ := Prod.mk.inj (Option.some.inj scanned)
    exact Or.inl ⟨_, .beginArray, rfl, ends_of_start rfl _ _⟩
  · obtain ⟨rfl, rfl⟩ := Prod.mk.inj (Option.some.inj scanned)
    exact Or.inl ⟨_, .endArray, rfl, ends_of_start rfl _ _⟩
  · obtain ⟨rfl, rfl⟩ := Prod.mk.inj (Option.some.inj scanned)
    exact Or.inl ⟨_, .beginObject, rfl, ends_of_start rfl _ _⟩
  · obtain ⟨rfl, rfl⟩ := Prod.mk.inj (Option.some.inj scanned)
    exact Or.inl ⟨_, .endObject, rfl, ends_of_start rfl _ _⟩
  · obtain ⟨rfl, rfl⟩ := Prod.mk.inj (Option.some.inj scanned)
    exact Or.inl ⟨_, .nameSeparator, rfl, ends_of_start rfl _ _⟩
  · obtain ⟨rfl, rfl⟩ := Prod.mk.inj (Option.some.inj scanned)
    exact Or.inl ⟨_, .valueSeparator, rfl, ends_of_start rfl _ _⟩
  · obtain ⟨rfl, rfl⟩ := scanLiteral_eq_some.mp scanned
    exact Or.inl ⟨_, .literalTrue, rfl, ends_of_start rfl _ _⟩
  · obtain ⟨rfl, rfl⟩ := scanLiteral_eq_some.mp scanned
    exact Or.inl ⟨_, .literalFalse, rfl, ends_of_start rfl _ _⟩
  · obtain ⟨rfl, rfl⟩ := scanLiteral_eq_some.mp scanned
    exact Or.inl ⟨_, .literalNull, rfl, ends_of_start rfl _ _⟩
  · obtain ⟨⟨contents, rest'⟩, found, same⟩ := Option.map_eq_some_iff.mp scanned
    obtain ⟨rfl, rfl⟩ := Prod.mk.inj same
    obtain ⟨characters, spelled, spells, rfl, rfl⟩ := scanString_eq_some.mp found
    exact Or.inl ⟨_, .string spells, by simp, ends_of_start rfl _ _⟩
  · exact Or.inl (number rfl scanned)
  · exact Or.inl (number rfl scanned)
  · obtain ⟨rfl, rfl⟩ := Prod.mk.inj (Option.some.inj scanned)
    exact Or.inr ⟨rfl, Or.inr rfl⟩
  · rename_i notMinus notZero _
    obtain ⟨digit, scanned⟩ := Option.ite_none_right_eq_some.mp scanned
    refine Or.inl (number ?_ scanned)
    rw [numberStart, if_neg notMinus, NumberState.next, if_neg notZero, if_pos digit]

theorem Lexeme.scanToken {strtod : Bytes → Float} {lexeme rest : Bytes} {token : Token}
    (isLexeme : Lexeme strtod token lexeme) (ends : Ends lexeme rest) :
    scanToken strtod (lexeme ++ rest) = some (token, rest) := by
  cases isLexeme with
  | beginArray | endArray | beginObject | endObject | nameSeparator | valueSeparator => rfl
  | literalTrue => exact scanLiteral_eq_some.mpr ⟨rfl, rfl⟩
  | literalFalse => exact scanLiteral_eq_some.mpr ⟨rfl, rfl⟩
  | literalNull => exact scanLiteral_eq_some.mpr ⟨rfl, rfl⟩
  | @string characters text spells =>
      have found : scanString (text ++ 34 :: rest) =
          some (characters.flatMap String.utf8EncodeChar, rest) :=
        scanString_eq_some.mpr ⟨characters, text, spells, rfl, rfl⟩
      have textEq : 34 :: (text ++ [34]) ++ rest = 34 :: (text ++ 34 :: rest) := by
        simp
      rw [textEq]
      change (scanString (text ++ 34 :: rest)).map _ = _
      rw [found]
      rfl
  | number isNumber =>
      obtain ⟨current, text, state, rfl, start⟩ := exists_numberStart isNumber
      rw [List.cons_append, scanToken_number start]
      exact (scanNumber_eq_some start).mpr ⟨_, isNumber, rfl, ends isNumber, rfl⟩

theorem Lexeme.exists_head {strtod : Bytes → Float} {lexeme : Bytes} {token : Token}
    (isLexeme : Lexeme strtod token lexeme) :
    ∃ current text, lexeme = current :: text ∧ ¬ isWhitespace current ∧ current ≠ 0 := by
  cases isLexeme with
  | number isNumber =>
      obtain ⟨current, text, state, rfl, start⟩ := exists_numberStart isNumber
      refine ⟨current, text, rfl, fun isSpace => ?_, ?_⟩
      · simp only [isWhitespace, Bool.or_eq_true, decide_eq_true_eq] at isSpace
        rcases isSpace with ((rfl | rfl) | rfl) | rfl <;>
          simp [numberStart, NumberState.next, isDigit] at start
      · rintro rfl
        simp [numberStart, NumberState.next, isDigit] at start
  | _ => exact ⟨_, _, rfl, by decide, by decide⟩

theorem numberToken_cases (strtod : Bytes → Float) (text : Bytes) :
    (∃ value, numberToken strtod text = .valueUnsigned value) ∨
      (∃ value, numberToken strtod text = .valueInteger value) ∨
        ∃ value, numberToken strtod text = .valueFloat value := by
  unfold numberToken convertNumber
  split <;> [split; split; skip] <;> simp

/-- A signed integer is read after a minus sign. -/
theorem numberToken_integer {strtod : Bytes → Float} {text : Bytes} {value : Int64}
    (isInteger : numberToken strtod text = .valueInteger value) : value.toInt ≤ 0 := by
  unfold numberToken convertNumber strtoll at isInteger
  split at isInteger
  · split at isInteger <;> cases isInteger
  · split at isInteger
    · rename_i read
      obtain rfl := Token.valueInteger.inj isInteger
      obtain ⟨fits, same⟩ := Option.ite_none_right_eq_some.mp read
      obtain rfl := Option.some.inj same
      rw [Int.toInt64, Int64.toInt_ofInt_of_le (by omega) (by omega)]
      omega
    · cases isInteger
  · cases isInteger

theorem Lexeme.ne_endOfInput {strtod : Bytes → Float} {lexeme : Bytes} {token : Token}
    (isLexeme : Lexeme strtod token lexeme) : token ≠ .endOfInput := by
  cases isLexeme with
  | number =>
      rcases numberToken_cases strtod lexeme with ⟨_, isNumber⟩ | ⟨_, isNumber⟩ | ⟨_, isNumber⟩ <;>
        simp [isNumber]
  | _ => simp

def IsSpace (text : Bytes) : Prop := ∀ byte ∈ text, isWhitespace byte

/-- The tokens of a text, up to its end or its first NUL. -/
inductive Tokens (strtod : Bytes → Float) : Bytes → List Token → Prop
  | done {space rest : Bytes} (isSpace : IsSpace space)
      (ended : rest = [] ∨ ∃ unread, rest = 0 :: unread) : Tokens strtod (space ++ rest) []
  | token {space lexeme rest : Bytes} {token : Token} {tokens : List Token}
      (isSpace : IsSpace space) (isLexeme : Lexeme strtod token lexeme) (ends : Ends lexeme rest)
      (later : Tokens strtod rest tokens) :
      Tokens strtod (space ++ (lexeme ++ rest)) (token :: tokens)

theorem dropWhile_space {space text : Bytes} (isSpace : IsSpace space)
    (stops : ∀ byte ∈ text.head?, ¬ isWhitespace byte) :
    (space ++ text).dropWhile isWhitespace = text := by
  rw [List.dropWhile_append_of_pos isSpace]
  cases text with
  | nil => rfl
  | cons byte text => exact List.dropWhile_cons_of_neg (stops byte rfl)

theorem Lexeme.of_scan {strtod : Bytes → Float} {text rest : Bytes} {token : Token}
    (scanned : scan strtod text = some (token, rest)) :
    ∃ space left, IsSpace space ∧ text = space ++ left ∧
      ((∃ lexeme, Lexeme strtod token lexeme ∧ left = lexeme ++ rest ∧ Ends lexeme rest) ∨
        token = .endOfInput ∧ (left = [] ∧ rest = [] ∨ left = 0 :: rest)) :=
  ⟨text.takeWhile isWhitespace, text.dropWhile isWhitespace, fun _ => List.mem_takeWhile_imp,
    List.takeWhile_append_dropWhile.symm, of_scanToken scanned⟩

theorem Lexeme.scan {strtod : Bytes → Float} {space lexeme rest : Bytes} {token : Token}
    (isSpace : IsSpace space) (isLexeme : Lexeme strtod token lexeme) (ends : Ends lexeme rest) :
    scan strtod (space ++ (lexeme ++ rest)) = some (token, rest) := by
  obtain ⟨current, text, lexemeEq, notSpace, -⟩ := isLexeme.exists_head
  have stops : ∀ byte ∈ (lexeme ++ rest).head?, ¬ isWhitespace byte := by
    rw [lexemeEq]
    intro byte member
    obtain rfl := Option.some.inj member
    exact notSpace
  rw [Lexer.scan, dropWhile_space isSpace stops]
  exact isLexeme.scanToken ends

theorem scan_end {strtod : Bytes → Float} {space rest : Bytes} (isSpace : IsSpace space)
    (ended : rest = [] ∨ ∃ unread, rest = 0 :: unread) :
    ∃ left, scan strtod (space ++ rest) = some (.endOfInput, left) := by
  rcases ended with rfl | ⟨unread, rfl⟩
  · exact ⟨[], by rw [scan, dropWhile_space isSpace (by simp)]; rfl⟩
  · exact ⟨unread, by rw [scan, dropWhile_space isSpace (by simp [isWhitespace])]; rfl⟩

theorem scan_shorter {strtod : Bytes → Float} {text rest : Bytes} {token : Token}
    (scanned : scan strtod text = some (token, rest)) :
    rest.length < text.length ∨ token = .endOfInput ∧ rest.length ≤ text.length := by
  obtain ⟨space, left, -, rfl, ⟨lexeme, isLexeme, rfl, -⟩ | ⟨rfl, ended⟩⟩ := Lexeme.of_scan scanned
  · obtain ⟨current, text, rfl, -⟩ := isLexeme.exists_head
    simp only [List.length_append, List.length_cons]
    omega
  · rcases ended with ⟨rfl, rfl⟩ | rfl <;> simp
    omega

end UBus.Lexer
