import UBus.Json.Lexemes
import UBus.Library.Loop

/-!
# The parser

This file models `parser::parse` of the vendored library, strict and with
exceptions, as the program calls it: `sax_parse_internal` with its stack of
states, and the handler that builds the value.  The handler's stack of open
arrays and objects runs along with the parser's, so one stack of frames models
both.  A frame keeps what has been added to its container, which goes into the
container around it when it is closed.
-/

namespace UBus.Parser

open Lexer

/-- An array, or an object with the key whose value comes next. -/
inductive Frame where
  | array (items : List Json)
  | object (members : List (Bytes × Json)) (key : Bytes)

/-- Where an iteration starts: with the first token of a value, or with a value
that is complete. -/
inductive Position where
  | value (lastToken : Token)
  | evaluation (completed : Json)

structure State where
  frames : List Frame
  position : Position
  text : Bytes

/-- The cases of `last_token` that are values by themselves.  A number that is
not finite is out of range. -/
def scalarValue : Token → Option Json
  | .literalTrue => some (.boolean true)
  | .literalFalse => some (.boolean false)
  | .literalNull => some .null
  | .valueString value => some (.string value)
  | .valueUnsigned value => some (.numberUnsigned value)
  | .valueInteger value => some (.numberInteger value)
  | .valueFloat value => if value.isFinite then some (.numberFloat value) else none
  | _ => none

section Parse

variable (strtod : Bytes → Float)

/-- A new member: its key, which has been read, the separator, and the first
token of its value. -/
def enterMember (members : List (Bytes × Json)) (frames : List Frame) (lastToken : Token)
    (text : Bytes) : Option State :=
  match lastToken with
  | .valueString key =>
      (scan strtod text).bind fun
        | (.nameSeparator, text) =>
            (scan strtod text).map fun (token, text) =>
              ⟨.object members key :: frames, .value token, text⟩
        | _ => none
  | _ => none

/-- The branch of `begin_object`. -/
def enterObject (frames : List Frame) (text : Bytes) : Option State :=
  (scan strtod text).bind fun
    | (.endObject, text) => some ⟨frames, .evaluation (.object []), text⟩
    | (token, text) => enterMember strtod [] frames token text

/-- The branch of `begin_array`. -/
def enterArray (frames : List Frame) (text : Bytes) : Option State :=
  (scan strtod text).map fun
    | (.endArray, text) => ⟨frames, .evaluation (.array []), text⟩
    | (token, text) => ⟨.array [] :: frames, .value token, text⟩

def continueArray (items : List Json) (frames : List Frame) (text : Bytes) : Option State :=
  (scan strtod text).bind fun
    | (.valueSeparator, text) =>
        (scan strtod text).map fun (token, text) => ⟨.array items :: frames, .value token, text⟩
    | (.endArray, text) => some ⟨frames, .evaluation (.array items), text⟩
    | _ => none

def continueObject (members : List (Bytes × Json)) (frames : List Frame) (text : Bytes) :
    Option State :=
  (scan strtod text).bind fun
    | (.valueSeparator, text) =>
        (scan strtod text).bind fun (token, text) => enterMember strtod members frames token text
    | (.endObject, text) => some ⟨frames, .evaluation (.object members), text⟩
    | _ => none

/-- The switch on `last_token`. -/
def enterValue (frames : List Frame) (lastToken : Token) (text : Bytes) : Option State :=
  match lastToken with
  | .beginObject => enterObject strtod frames text
  | .beginArray => enterArray strtod frames text
  | token => (scalarValue token).map fun value => ⟨frames, .evaluation value, text⟩

/-- One iteration of `sax_parse_internal`; without open containers a complete
value is the result.  A key that comes again takes the place of the first. -/
def iterate (state : State) : Option (State ⊕ Json × Bytes) :=
  match state.position, state.frames with
  | .value token, frames => (enterValue strtod frames token state.text).map .inl
  | .evaluation value, [] => some (.inr (value, state.text))
  | .evaluation value, .array items :: frames =>
      (continueArray strtod (items ++ [value]) frames state.text).map .inl
  | .evaluation value, .object members key :: frames =>
      (continueObject strtod (Json.insertMember key value members) frames state.text).map .inl

end Parse

/-- Every iteration reads a token or completes a value. -/
def State.size (state : State) : Nat :=
  3 * state.text.length +
    match state.position with
    | .value .endOfInput => 0
    | .value _ => 2
    | .evaluation _ => 1

section Size

variable {strtod : Bytes → Float} {frames : List Frame} {text rest : Bytes} {token : Token}
  {state : State}

theorem size_value (scanned : scan strtod text = some (token, rest)) :
    State.size ⟨frames, .value token, rest⟩ ≤ 3 * text.length := by
  rcases scan_shorter scanned with shorter | ⟨rfl, notLonger⟩
  · simp only [State.size]
    split <;> omega
  · simp only [State.size]
    omega

theorem size_evaluation (scanned : scan strtod text = some (token, rest))
    (notEnd : token ≠ .endOfInput) (value : Json) :
    State.size ⟨frames, .evaluation value, rest⟩ ≤ 3 * text.length := by
  rcases scan_shorter scanned with shorter | ⟨isEnd, -⟩
  · simp only [State.size]
    omega
  · exact absurd isEnd notEnd

theorem length_le_of_scan (scanned : scan strtod text = some (token, rest)) :
    rest.length ≤ text.length := by
  rcases scan_shorter scanned with shorter | ⟨-, notLonger⟩ <;> omega

theorem enterMember_eq_some {members : List (Bytes × Json)} :
    enterMember strtod members frames token text = some state ↔
      ∃ key separated first rest, token = .valueString key ∧
        scan strtod text = some (.nameSeparator, separated) ∧
        scan strtod separated = some (first, rest) ∧
        state = ⟨.object members key :: frames, .value first, rest⟩ := by
  constructor
  · intro entered
    cases token with
    | valueString key =>
        obtain ⟨⟨separator, separated⟩, found, entered⟩ := Option.bind_eq_some_iff.mp entered
        cases separator with
        | nameSeparator =>
            obtain ⟨⟨first, rest⟩, found', rfl⟩ := Option.map_eq_some_iff.mp entered
            exact ⟨key, separated, first, rest, rfl, found, found', rfl⟩
        | _ => simp at entered
    | _ => simp [enterMember] at entered
  · rintro ⟨key, separated, first, rest, rfl, found, found', rfl⟩
    simp [enterMember, found, found']

theorem enterObject_eq_some :
    enterObject strtod frames text = some state ↔
      (∃ rest, scan strtod text = some (.endObject, rest) ∧
        state = ⟨frames, .evaluation (.object []), rest⟩) ∨
      ∃ first rest, scan strtod text = some (first, rest) ∧
        enterMember strtod [] frames first rest = some state := by
  constructor
  · intro entered
    obtain ⟨⟨first, rest⟩, found, entered⟩ := Option.bind_eq_some_iff.mp entered
    cases first with
    | endObject =>
        obtain rfl := Option.some.inj entered
        exact Or.inl ⟨rest, found, rfl⟩
    | _ => exact Or.inr ⟨_, rest, found, entered⟩
  · rintro (⟨rest, found, rfl⟩ | ⟨first, rest, found, entered⟩)
    · simp [enterObject, found]
    · obtain ⟨key, separated, second, last, rfl, -⟩ := enterMember_eq_some.mp entered
      simpa [enterObject, found] using entered

theorem enterArray_eq_some :
    enterArray strtod frames text = some state ↔
      (∃ rest, scan strtod text = some (.endArray, rest) ∧
        state = ⟨frames, .evaluation (.array []), rest⟩) ∨
      ∃ first rest, scan strtod text = some (first, rest) ∧ first ≠ .endArray ∧
        state = ⟨.array [] :: frames, .value first, rest⟩ := by
  constructor
  · intro entered
    obtain ⟨⟨first, rest⟩, found, entered⟩ := Option.map_eq_some_iff.mp entered
    cases first with
    | endArray => exact Or.inl ⟨rest, found, entered.symm⟩
    | _ => exact Or.inr ⟨_, rest, found, by simp, entered.symm⟩
  · rintro (⟨rest, found, rfl⟩ | ⟨first, rest, found, notEnd, rfl⟩)
    · simp [enterArray, found]
    · cases first with
      | endArray => exact absurd rfl notEnd
      | _ => simp [enterArray, found]

theorem continueArray_eq_some {items : List Json} :
    continueArray strtod items frames text = some state ↔
      (∃ rest, scan strtod text = some (.endArray, rest) ∧
        state = ⟨frames, .evaluation (.array items), rest⟩) ∨
      ∃ separated first rest, scan strtod text = some (.valueSeparator, separated) ∧
        scan strtod separated = some (first, rest) ∧
        state = ⟨.array items :: frames, .value first, rest⟩ := by
  constructor
  · intro continued
    obtain ⟨⟨token, separated⟩, found, continued⟩ := Option.bind_eq_some_iff.mp continued
    cases token with
    | endArray =>
        obtain rfl := Option.some.inj continued
        exact Or.inl ⟨separated, found, rfl⟩
    | valueSeparator =>
        obtain ⟨⟨first, rest⟩, found', rfl⟩ := Option.map_eq_some_iff.mp continued
        exact Or.inr ⟨separated, first, rest, found, found', rfl⟩
    | _ => simp at continued
  · rintro (⟨rest, found, rfl⟩ | ⟨separated, first, rest, found, found', rfl⟩)
    · simp [continueArray, found]
    · simp [continueArray, found, found']

theorem continueObject_eq_some {members : List (Bytes × Json)} :
    continueObject strtod members frames text = some state ↔
      (∃ rest, scan strtod text = some (.endObject, rest) ∧
        state = ⟨frames, .evaluation (.object members), rest⟩) ∨
      ∃ separated first rest, scan strtod text = some (.valueSeparator, separated) ∧
        scan strtod separated = some (first, rest) ∧
        enterMember strtod members frames first rest = some state := by
  constructor
  · intro continued
    obtain ⟨⟨token, separated⟩, found, continued⟩ := Option.bind_eq_some_iff.mp continued
    cases token with
    | endObject =>
        obtain rfl := Option.some.inj continued
        exact Or.inl ⟨separated, found, rfl⟩
    | valueSeparator =>
        obtain ⟨⟨first, rest⟩, found', entered⟩ := Option.bind_eq_some_iff.mp continued
        exact Or.inr ⟨separated, first, rest, found, found', entered⟩
    | _ => simp at continued
  · rintro (⟨rest, found, rfl⟩ | ⟨separated, first, rest, found, found', entered⟩)
    · simp [continueObject, found]
    · simp [continueObject, found, found', entered]

theorem enterValue_eq_some :
    enterValue strtod frames token text = some state ↔
      token = .beginObject ∧ enterObject strtod frames text = some state ∨
      token = .beginArray ∧ enterArray strtod frames text = some state ∨
      ∃ value, scalarValue token = some value ∧ state = ⟨frames, .evaluation value, text⟩ := by
  cases token with
  | beginObject | beginArray => simp [enterValue, scalarValue]
  | _ => simp [enterValue, eq_comm]

theorem enterMember_size {members : List (Bytes × Json)}
    (entered : enterMember strtod members frames token text = some state) :
    state.size ≤ 3 * text.length := by
  obtain ⟨key, separated, first, rest, -, found, found', rfl⟩ := enterMember_eq_some.mp entered
  have notLonger := length_le_of_scan found
  exact (size_value found').trans (by omega)

theorem enterObject_size (entered : enterObject strtod frames text = some state) :
    state.size ≤ 3 * text.length := by
  rcases enterObject_eq_some.mp entered with ⟨rest, found, rfl⟩ | ⟨first, rest, found, entered⟩
  · exact size_evaluation found (by simp) _
  · have notLonger := length_le_of_scan found
    exact (enterMember_size entered).trans (by omega)

theorem enterArray_size (entered : enterArray strtod frames text = some state) :
    state.size ≤ 3 * text.length := by
  rcases enterArray_eq_some.mp entered with ⟨rest, found, rfl⟩ | ⟨first, rest, found, -, rfl⟩
  · exact size_evaluation found (by simp) _
  · exact size_value found

theorem continueArray_size {items : List Json}
    (continued : continueArray strtod items frames text = some state) :
    state.size ≤ 3 * text.length := by
  rcases continueArray_eq_some.mp continued with
    ⟨rest, found, rfl⟩ | ⟨separated, first, rest, found, found', rfl⟩
  · exact size_evaluation found (by simp) _
  · have notLonger := length_le_of_scan found
    exact (size_value found').trans (by omega)

theorem continueObject_size {members : List (Bytes × Json)}
    (continued : continueObject strtod members frames text = some state) :
    state.size ≤ 3 * text.length := by
  rcases continueObject_eq_some.mp continued with
    ⟨rest, found, rfl⟩ | ⟨separated, first, rest, found, found', entered⟩
  · exact size_evaluation found (by simp) _
  · have notLonger := length_le_of_scan found
    have notLonger' := length_le_of_scan found'
    exact (enterMember_size entered).trans (by omega)

theorem enterValue_size (entered : enterValue strtod frames token text = some state) :
    state.size < State.size ⟨frames, .value token, text⟩ := by
  rcases enterValue_eq_some.mp entered with ⟨rfl, entered⟩ | ⟨rfl, entered⟩ | ⟨value, scalar, rfl⟩
  · exact Nat.lt_of_le_of_lt (enterObject_size entered) (by simp [State.size])
  · exact Nat.lt_of_le_of_lt (enterArray_size entered) (by simp [State.size])
  · cases token with
    | endOfInput => simp [scalarValue] at scalar
    | _ => simp [State.size]

theorem iterate_size {next : State} (iterated : iterate strtod state = some (.inl next)) :
    next.size < state.size := by
  have performs {entered : Option State}
      (performed : entered.map Sum.inl = some (Sum.inl next : State ⊕ Json × Bytes)) :
      entered = some next := by
    obtain ⟨other, found, same⟩ := Option.map_eq_some_iff.mp performed
    rw [found, Sum.inl.inj same]
  obtain ⟨frames, position, text⟩ := state
  cases position with
  | value token => exact enterValue_size (performs iterated)
  | evaluation value =>
      have size : State.size ⟨frames, .evaluation value, text⟩ = 3 * text.length + 1 := rfl
      match frames, iterated with
      | .array items :: frames, iterated =>
          have bound := continueArray_size (performs iterated)
          exact size ▸ Nat.lt_succ_of_le bound
      | .object members key :: frames, iterated =>
          have bound := continueObject_size (performs iterated)
          exact size ▸ Nat.lt_succ_of_le bound

end Size

/-- The loop of `sax_parse_internal`. -/
def parserLoop (strtod : Bytes → Float) : Loop State (Json × Bytes) where
  body := iterate strtod
  size := State.size
  shrinks := iterate_size

/-- `skip_bom`, at the start of the input. -/
def skipBom : Bytes → Option Bytes
  | 0xEF :: 0xBB :: 0xBF :: text => some text
  | 0xEF :: _ => none
  | text => some text

theorem skipBom_of_unmarked {text : Bytes} (notBom : ¬ [0xBB, 0xBF] <+: text) :
    skipBom (0xEF :: text) = none := by
  unfold skipBom
  split
  · rename_i later same
    exact absurd ⟨later, (List.cons.inj same).2.symm⟩ notBom
  · rfl
  · rename_i later same
    exact absurd rfl (same text)

theorem skipBom_of_head {text : Bytes} (noBom : text.head? ≠ some 0xEF) :
    skipBom text = some text := by
  unfold skipBom
  split
  · simp at noBom
  · simp at noBom
  · rfl

/-- `parse`: one value, and nothing but the end of the input after it. -/
def parse (strtod : Bytes → Float) (input : Bytes) : Option Json := do
  let text ← skipBom input
  let (token, text) ← scan strtod text
  let (value, text) ← (parserLoop strtod).run ⟨[], .value token, text⟩
  match ← scan strtod text with
  | (.endOfInput, _) => return value
  | _ => none

example : (parse (fun _ => 0) (ascii "\x7b\"a\":[1,true],\"a\":\"\\u00e9\"\x7d")).bind
    (Json.stringAt (ascii "a")) = some [0xC3, 0xA9] := by
  decide

end UBus.Parser
