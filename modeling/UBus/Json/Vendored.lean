import UBus.Json.Dumped

/-!
# The vendored library

The parser and the serializer together are the library of the program.  What
the parser returns is in UTF-8, in the order of its keys and finite, so that it
can always be serialized, and the parser reads the text of every document.
-/

namespace UBus

open Lexer

namespace Parser

theorem mem_intercalate {Symbol : Type} {separator symbol : Symbol} {part : List Symbol}
    {parts : List (List Symbol)} (isPart : part ∈ parts) (inPart : symbol ∈ part) :
    symbol ∈ [separator].intercalate parts := by
  cases parts with
  | nil => simp at isPart
  | cons first others =>
      rw [intercalate_cons, List.mem_append, List.mem_flatMap]
      rcases List.mem_cons.mp isPart with rfl | isOther
      · exact Or.inl inPart
      · exact Or.inr ⟨part, isOther, List.mem_cons_of_mem _ inPart⟩

/-- The members of an object that assignments build are among them, in the order
of their keys. -/
theorem ofAssignments_eq (assignments : List (Bytes × Json)) :
    ∃ members, Json.ofAssignments assignments = .object members ∧
      (∀ member ∈ members, member ∈ assignments) ∧
        members.Pairwise fun first second => first.1 < second.1 := by
  have general : ∀ remaining members : List (Bytes × Json),
      (∀ member ∈ members, member ∈ assignments) →
      (members.Pairwise fun first second => first.1 < second.1) →
      (∀ assignment ∈ remaining, assignment ∈ assignments) →
      let built := remaining.foldl (fun members assignment =>
        Json.insertMember assignment.1 assignment.2 members) members
      (∀ member ∈ built, member ∈ assignments) ∧
        built.Pairwise fun first second => first.1 < second.1 := by
    intro remaining
    induction remaining with
    | nil => exact fun members known sorted _ => ⟨known, sorted⟩
    | cons assignment remaining ih =>
        intro members known sorted later
        refine ih _ (fun member isMember => ?_) (insertMember_sorted sorted)
          fun other isOther => later other (by simp [isOther])
        rcases insertMember_mem isMember with rfl | older
        · exact later assignment (by simp)
        · exact known member older
  obtain ⟨known, sorted⟩ := general assignments [] (by simp) (by simp) fun _ => id
  exact ⟨_, rfl, known, sorted⟩

theorem of_scalarValue {token : Token} {value : Json} (isScalar : scalarValue token = some value) :
    value.parts = [value] ∧ (∀ contents ∈ value.strings, token = .valueString contents) ∧
      (∀ members, value ≠ .object members) ∧
        ∀ number, value = .numberFloat number → number.isFinite := by
  cases token <;> simp only [scalarValue, Option.ite_none_right_eq_some, Option.some.injEq,
    reduceCtorEq] at isScalar
  case valueFloat =>
    obtain ⟨finite, rfl⟩ := isScalar
    simpa [Json.parts, Json.strings] using finite
  all_goals
    subst isScalar
    simp [Json.parts, Json.strings]

theorem scalarValue_integer {token : Token} {number : Int64}
    (isScalar : scalarValue token = some (.numberInteger number)) :
    token = .valueInteger number := by
  cases token <;> simp_all [scalarValue]

theorem mem_array {items : List (List Token × Json)} {item : List Token × Json} {token : Token}
    (isItem : item ∈ items) (isToken : token ∈ item.1) :
    token ∈ Token.beginArray ::
      ([.valueSeparator].intercalate (items.map Prod.fst) ++ [.endArray]) := by
  have isPart : item.1 ∈ items.map Prod.fst := List.mem_map_of_mem isItem
  exact List.mem_cons_of_mem _ (List.mem_append_left _ (mem_intercalate isPart isToken))

theorem mem_object {members : List (Bytes × List Token × Json)}
    {member : Bytes × List Token × Json} {token : Token} (isMember : member ∈ members)
    (isToken : token ∈ Token.valueString member.1 :: .nameSeparator :: member.2.1) :
    token ∈ Token.beginObject :: ([.valueSeparator].intercalate (members.map fun member =>
      .valueString member.1 :: .nameSeparator :: member.2.1) ++ [.endObject]) := by
  have isPart : Token.valueString member.1 :: .nameSeparator :: member.2.1 ∈
      members.map fun member => Token.valueString member.1 :: .nameSeparator :: member.2.1 :=
    List.mem_map.mpr ⟨member, isMember, rfl⟩
  exact List.mem_cons_of_mem _ (List.mem_append_left _ (mem_intercalate isPart isToken))

theorem Derives.strings {tokens : List Token} {value : Json} (derives : Derives tokens value)
    (valid : ∀ contents, .valueString contents ∈ tokens → IsUtf8 contents) :
    ∀ contents ∈ value.strings, IsUtf8 contents := by
  induction derives with
  | scalar isScalar =>
      intro contents inValue
      have isString := (of_scalarValue isScalar).2.1 contents inValue
      exact valid contents (by simp [isString])
  | @array items values ih =>
      intro contents inValue
      obtain ⟨_, isValue, inItem⟩ := Json.mem_itemStrings.mp inValue
      obtain ⟨item, isItem, rfl⟩ := List.mem_map.mp isValue
      exact ih item isItem (fun other isToken => valid other (mem_array isItem isToken))
        contents inItem
  | @object members values ih =>
      apply Json.isUtf8_ofAssignments
      rw [List.forall_mem_map]
      intro member isMember
      refine ⟨valid _ (mem_object isMember (by simp)), ih member isMember fun other isToken => ?_⟩
      exact valid other (mem_object isMember (by simp [isToken]))

/-- What holds of the scalars of its tokens, of arrays and of objects in order
holds of every part of a derived value. -/
theorem Derives.forall_parts {P : Json → Prop} {tokens : List Token} {value : Json}
    (derives : Derives tokens value)
    (scalars : ∀ token ∈ tokens, ∀ value, scalarValue token = some value → P value)
    (arrays : ∀ items, P (.array items))
    (objects : ∀ members, (members.Pairwise fun first second => first.1 < second.1) →
      P (.object members)) :
    ∀ part ∈ value.parts, P part := by
  induction derives with
  | scalar isScalar =>
      rw [(of_scalarValue isScalar).1]
      simpa using scalars _ (by simp) _ isScalar
  | @array items values ih =>
      rw [Json.parts]
      refine List.forall_mem_cons.mpr ⟨arrays _, fun part isPart => ?_⟩
      obtain ⟨_, isValue, inItem⟩ := List.mem_flatMap.mp isPart
      obtain ⟨item, isItem, rfl⟩ := List.mem_map.mp isValue
      exact ih item isItem (fun token isToken => scalars token (mem_array isItem isToken))
        part inItem
  | @object members values ih =>
      obtain ⟨built, builtEq, known, sorted⟩ :=
        ofAssignments_eq (members.map fun member => (member.1, member.2.2))
      rw [builtEq, Json.parts]
      refine List.forall_mem_cons.mpr ⟨objects _ sorted, fun part isPart => ?_⟩
      obtain ⟨assignment, isBuilt, inMember⟩ := List.mem_flatMap.mp isPart
      obtain ⟨member, isMember, rfl⟩ := List.mem_map.mp (known assignment isBuilt)
      refine ih member isMember (fun token isToken => ?_) part inMember
      exact scalars token (mem_object isMember (by simp [isToken]))

section Parsed

variable {strtod : Bytes → Float} {input : Bytes} {value : Json}

/-- What holds of the token of every lexeme holds of the tokens of a text. -/
theorem forall_tokens {P : Token → Prop} {text : Bytes} {tokens : List Token}
    (each : ∀ {token lexeme}, Lexeme strtod token lexeme → P token)
    (isTokens : Tokens strtod text tokens) : ∀ token ∈ tokens, P token := by
  induction isTokens with
  | done => simp
  | token _ isLexeme _ _ ih => exact List.forall_mem_cons.mpr ⟨each isLexeme, ih⟩

theorem tokens_utf8 {text : Bytes} {tokens : List Token} (isTokens : Tokens strtod text tokens) :
    ∀ contents, .valueString contents ∈ tokens → IsUtf8 contents := by
  have valid : ∀ token ∈ tokens, ∀ contents, token = .valueString contents → IsUtf8 contents := by
    refine forall_tokens (fun {token lexeme} isLexeme contents isString => ?_) isTokens
    cases isLexeme with
    | string =>
        obtain rfl := Token.valueString.inj isString
        exact isUtf8_flatMap _
    | number =>
        rcases numberToken_cases strtod lexeme with ⟨_, same⟩ | ⟨_, same⟩ | ⟨_, same⟩ <;>
          exact absurd (isString.symm.trans same) (by simp)
    | _ => cases isString
  exact fun contents isToken => valid _ isToken contents rfl

theorem tokens_nonpositive {text : Bytes} {tokens : List Token}
    (isTokens : Tokens strtod text tokens) :
    ∀ token ∈ tokens, ∀ value, token = .valueInteger value → value.toInt ≤ 0 := by
  refine forall_tokens (fun {token lexeme} isLexeme value isInteger => ?_) isTokens
  cases isLexeme with
  | number => exact numberToken_integer isInteger
  | _ => cases isInteger

theorem parse_utf8 (parsed : parse strtod input = some value) :
    ∀ contents ∈ value.strings, IsUtf8 contents := by
  obtain ⟨text, tokens, -, isTokens, derives⟩ := parse_eq_some.mp parsed
  exact derives.strings (tokens_utf8 isTokens)

theorem parse_ordered (parsed : parse strtod input = some value) : value.IsOrdered := by
  obtain ⟨text, tokens, -, isTokens, derives⟩ := parse_eq_some.mp parsed
  have ordered : ∀ part ∈ value.parts, ∀ members, part = .object members →
      members.Pairwise fun first second => first.1 < second.1 := by
    refine derives.forall_parts ?_ ?_ ?_
    · intro token _ value isScalar members isObject
      exact absurd isObject ((of_scalarValue isScalar).2.2.1 members)
    · simp
    · simp
  exact fun members isPart => ordered _ isPart members rfl

theorem parse_finite (parsed : parse strtod input = some value) :
    ∀ number, .numberFloat number ∈ value.parts → number.isFinite := by
  obtain ⟨text, tokens, -, isTokens, derives⟩ := parse_eq_some.mp parsed
  have finite : ∀ part ∈ value.parts, ∀ number, part = .numberFloat number → number.isFinite := by
    refine derives.forall_parts ?_ ?_ ?_
    · exact fun token _ value isScalar => (of_scalarValue isScalar).2.2.2
    · simp
    · simp
  exact fun number isPart => finite _ isPart number rfl

theorem parse_nonpositive (parsed : parse strtod input = some value) :
    ∀ number, .numberInteger number ∈ value.parts → number.toInt ≤ 0 := by
  obtain ⟨text, tokens, -, isTokens, derives⟩ := parse_eq_some.mp parsed
  have nonpositive : ∀ part ∈ value.parts, ∀ number, part = .numberInteger number →
      number.toInt ≤ 0 := by
    refine derives.forall_parts ?_ ?_ ?_
    · intro token isToken value isScalar number isInteger
      exact tokens_nonpositive isTokens token isToken number
        (scalarValue_integer (isInteger ▸ isScalar))
    · simp
    · simp
  exact fun number isPart => nonpositive _ isPart number rfl

end Parsed

end Parser

/-- The library of the program, over what it takes from the C library and the
digits it finds for a number. -/
def JsonLibrary.vendored (strtod : Bytes → Float) (dumpFloat : Float → Bytes)
    (nulFree : ∀ number, 0 ∉ dumpFloat number) : JsonLibrary where
  parse := Parser.parse strtod
  dumpFloat := dumpFloat
  parse_utf8 := Parser.parse_utf8
  dumpFloat_nulFree := nulFree

theorem Json.forall_parts_array {P : Json → Prop} {items : List Json} (whole : P (.array items))
    (each : ∀ item ∈ items, ∀ part ∈ item.parts, P part) :
    ∀ part ∈ (array items).parts, P part := by
  rw [parts]
  refine List.forall_mem_cons.mpr ⟨whole, fun part isPart => ?_⟩
  obtain ⟨item, isItem, inItem⟩ := List.mem_flatMap.mp isPart
  exact each item isItem part inItem

theorem Json.forall_parts_object {P : Json → Prop} {members : List (Bytes × Json)}
    (whole : P (.object members)) (each : ∀ member ∈ members, ∀ part ∈ member.2.parts, P part) :
    ∀ part ∈ (object members).parts, P part := by
  rw [parts]
  refine List.forall_mem_cons.mpr ⟨whole, fun part isPart => ?_⟩
  obtain ⟨member, isMember, inMember⟩ := List.mem_flatMap.mp isPart
  exact each member isMember part inMember

/-- What a part of a document is not: an object out of order or a floating-point
number. -/
def Json.IsPlain : Json → Prop
  | .object members => members.Pairwise fun first second => first.1 < second.1
  | .numberFloat _ => False
  | _ => True

theorem forall_of_forall₂ {Item Result : Type} {Related : Item → Result → Prop} {P : Item → Prop}
    {f : Item → Result} {items : List Item} {results : List Result}
    (related : List.Forall₂ Related items results)
    (each : ∀ item ∈ items, ∀ result, Related item result → P item ∧ f item = result) :
    (∀ item ∈ items, P item) ∧ items.map f = results := by
  induction related with
  | nil => simp
  | @cons item result items results first _ ih =>
      obtain ⟨holds, same⟩ := each item (by simp) result first
      obtain ⟨others, sameOthers⟩ := ih fun other isOther => each other (by simp [isOther])
      exact ⟨List.forall_mem_cons.mpr ⟨holds, others⟩, by rw [List.map_cons, same, sameOthers]⟩

/-- The parser makes the result of a document, which has only plain parts. -/
theorem Json.ReadAs.reread {value result : Json} (readAs : value.ReadAs result) :
    (∀ part ∈ value.parts, part.IsPlain) ∧ value.reread = result := by
  induction value using Json.induct generalizing result with
  | null | boolean | numberFloat =>
      cases readAs with
      | scalar isScalar => exact absurd isScalar id
  | numberInteger | numberUnsigned | string =>
      cases readAs
      exact ⟨by simp [parts, IsPlain], by simp [Json.reread, parsed]⟩
  | array items ih =>
      cases readAs with
      | scalar isScalar => exact absurd isScalar id
      | array values =>
          obtain ⟨plain, same⟩ := forall_of_forall₂ values fun item isItem result => ih item isItem
          exact ⟨Json.forall_parts_array trivial plain, by rw [Json.reread, same]⟩
  | object members ih =>
      cases readAs with
      | scalar isScalar => exact absurd isScalar id
      | @object _ results sorted keys values =>
          have each : ∀ value ∈ members.map Prod.snd, ∀ result, value.ReadAs result →
              (∀ part ∈ value.parts, part.IsPlain) ∧ value.reread = result :=
            List.forall_mem_map.mpr fun member isMember result => ih member isMember
          obtain ⟨plain, same⟩ := forall_of_forall₂ values each
          refine ⟨Json.forall_parts_object sorted (List.forall_mem_map.mp plain), ?_⟩
          have resultsEq : results =
              members.map fun member => (member.1, Json.reread member.2) := by
            rw [List.zip_of_prod keys.symm same.symm, List.map_map, List.zip_map']
            rfl
          rw [Json.reread, resultsEq]

theorem Json.ReadAs.parse_dump {strtod : Bytes → Float} {dumpFloat : Float → Bytes}
    {value result : Json} {text : Bytes} (readAs : value.ReadAs result)
    (dumped : dumpJson dumpFloat value = some text) : Parser.parse strtod text = some result := by
  obtain ⟨plain, rfl⟩ := readAs.reread
  exact UBus.parse_dump (fun members isPart => plain _ isPart)
    (fun number isPart => absurd (plain _ isPart) id) dumped

theorem JsonLibrary.vendored_readsDocuments (strtod : Bytes → Float) (dumpFloat : Float → Bytes)
    (nulFree : ∀ number, 0 ∉ dumpFloat number) :
    (JsonLibrary.vendored strtod dumpFloat nulFree).ReadsDocuments where
  parse_dump readAs dumped := readAs.parse_dump dumped

theorem JsonLibrary.vendored_readsDocuments_zero :
    (JsonLibrary.vendored (fun _ => 0) (fun _ => ascii "0.0")
      fun _ => zeroText_nulFree).ReadsDocuments :=
  JsonLibrary.vendored_readsDocuments (fun _ => 0) (fun _ => ascii "0.0") fun _ => zeroText_nulFree

/-- The library on plain documents, which do not depend on what it takes from
the C library. -/
def JsonLibrary.plain : JsonLibrary :=
  .vendored (fun _ => 0) (fun _ => ascii "0.0") fun _ => zeroText_nulFree

theorem JsonLibrary.plain_readsDocuments : plain.ReadsDocuments where
  parse_dump readAs dumped := readAs.parse_dump dumped

theorem JsonLibrary.plain_roundTrips : plain.RoundTrips :=
  plain_readsDocuments.roundTrips

def requestText (request : Json) : Bytes :=
  (JsonLibrary.plain.dump request).getD []

section Canonical

variable {strtod : Bytes → Float} {dumpFloat : Float → Bytes}

theorem dumpItems_map {items : List Json} {f : Json → Json}
    (same : ∀ item ∈ items, dumpJson dumpFloat (f item) = dumpJson dumpFloat item) :
    dumpItems dumpFloat (items.map f) = dumpItems dumpFloat items := by
  induction items with
  | nil => rfl
  | cons item items ih =>
      obtain ⟨first, others⟩ := List.forall_mem_cons.mp same
      cases items with
      | nil => exact first
      | cons second items =>
          have later := ih others
          simp only [List.map_cons] at later ⊢
          apply Option.ext
          intro text
          rw [dumpItems_cons_cons_eq_some, dumpItems_cons_cons_eq_some, first, later]

theorem dumpMembers_map {members : List (Bytes × Json)} {f : Json → Json}
    (same : ∀ member ∈ members,
      dumpJson dumpFloat (f member.2) = dumpJson dumpFloat member.2) :
    dumpMembers dumpFloat (members.map fun member => (member.1, f member.2)) =
      dumpMembers dumpFloat members := by
  induction members with
  | nil => rfl
  | cons member members ih =>
      obtain ⟨first, others⟩ := List.forall_mem_cons.mp same
      have sameMember : dumpMember dumpFloat (member.1, f member.2) =
          dumpMember dumpFloat member := by
        rw [dumpMember, first, dumpMember]
      cases members with
      | nil => exact sameMember
      | cons second members =>
          have later := ih others
          simp only [List.map_cons] at later ⊢
          apply Option.ext
          intro text
          rw [dumpMembers_cons_cons_eq_some, dumpMembers_cons_cons_eq_some, sameMember, later]

theorem dump_reread {value : Json}
    (floats : ∀ number, .numberFloat number ∈ value.parts → ReadsFloat strtod dumpFloat number) :
    dumpJson dumpFloat value.reread = dumpJson dumpFloat value := by
  induction value using Json.induct with
  | null | boolean | numberUnsigned | string => simp [Json.reread]
  | numberInteger value =>
      rw [Json.reread, Json.parsed]
      split_ifs with negative
      · rfl
      · have small : value.toInt.natAbs.toUInt64.toNat = value.toInt.natAbs := by
          have := value.toInt_lt
          simp
          omega
        rw [dumpJson, dumpJson, small, dumpInteger, if_neg negative]
  | numberFloat number =>
      have reads := floats number (Json.self_mem_parts _)
      unfold ReadsFloat at reads
      rw [Json.reread]
      split_ifs at reads ⊢
      · rfl
      · rw [dumpJson, dumpJson, reads]
  | array items ih =>
      have same := dumpItems_map fun item isItem =>
        ih item isItem fun number isPart => floats number (Json.mem_parts_array isItem isPart)
      rw [Json.reread, dumpJson, dumpJson, same]
  | object members ih =>
      have same := dumpMembers_map fun member isMember =>
        ih member isMember fun number isPart =>
          floats number (Json.mem_parts_object isMember isPart)
      rw [Json.reread, dumpJson, dumpJson, same]

/-- The value with every zero that was written as `-0` made unsigned. -/
def Json.unsignedZeros : Json → Json
  | .numberInteger value => if value = 0 then .numberUnsigned 0 else .numberInteger value
  | .array items => .array (items.map unsignedZeros)
  | .object members => .object (members.map fun member => (member.1, member.2.unsignedZeros))
  | value => value
decreasing_by
  · decreasing_trivial
  · exact sizeOf_member ‹_›

/-- A value without positive signed integers and without infinite numbers comes
back but for its `-0`. -/
theorem Json.reread_eq_unsignedZeros {value : Json}
    (integers : ∀ number, .numberInteger number ∈ value.parts → number.toInt ≤ 0)
    (finite : ∀ number, .numberFloat number ∈ value.parts → number.isFinite) :
    value.reread = value.unsignedZeros := by
  induction value using Json.induct with
  | null | boolean | numberUnsigned | string => simp [reread, unsignedZeros]
  | numberInteger value =>
      have nonpositive := integers value (self_mem_parts _)
      rw [reread, parsed, unsignedZeros]
      by_cases zero : value = 0
      · subst zero
        rfl
      · have negative : value.toInt < 0 := by
          refine lt_of_le_of_ne nonpositive fun same => zero ?_
          exact Int64.toInt_inj.mp same
        rw [if_pos negative, if_neg zero]
  | numberFloat value =>
      rw [reread, if_pos (finite value (self_mem_parts _)), unsignedZeros]
      all_goals simp
  | array items ih =>
      rw [reread, unsignedZeros]
      congr 1
      refine List.map_congr_left fun item isItem => ih item isItem ?_ ?_
      · exact fun number isPart => integers number (mem_parts_array isItem isPart)
      · exact fun number isPart => finite number (mem_parts_array isItem isPart)
  | object members ih =>
      rw [reread, unsignedZeros]
      congr 1
      refine List.map_congr_left fun member isMember => ?_
      rw [ih member isMember (fun number isPart => integers number
        (mem_parts_object isMember isPart)) fun number isPart => finite number
        (mem_parts_object isMember isPart)]

/-- Every parsed value can be serialized, the text is parsed again as the value
but for its `-0`, and from then on value and text stay the same. -/
theorem JsonLibrary.parse_dump_parse {nulFree : ∀ number, 0 ∉ dumpFloat number} {input : Bytes}
    {value : Json}
    (parsed : (JsonLibrary.vendored strtod dumpFloat nulFree).parse input = some value)
    (floats : ∀ number, .numberFloat number ∈ value.parts → FloatText strtod dumpFloat number) :
    ∃ text, (JsonLibrary.vendored strtod dumpFloat nulFree).dump value = some text ∧
      (JsonLibrary.vendored strtod dumpFloat nulFree).parse text = some value.reread ∧
      (JsonLibrary.vendored strtod dumpFloat nulFree).dump value.reread = some text ∧
      value.reread = value.unsignedZeros := by
  have serialized := dumpJson_isSome dumpFloat value (Parser.parse_utf8 parsed)
  obtain ⟨text, dumped⟩ := Option.isSome_iff_exists.mp serialized
  have reads : ∀ number, .numberFloat number ∈ value.parts →
      ReadsFloat strtod dumpFloat number := by
    intro number isPart
    rw [ReadsFloat, if_pos (Parser.parse_finite parsed number isPart)]
    exact floats number isPart
  exact ⟨text, dumped, parse_dump (Parser.parse_ordered parsed) reads dumped,
    (dump_reread reads).trans dumped,
    Json.reread_eq_unsignedZeros (Parser.parse_nonpositive parsed) (Parser.parse_finite parsed)⟩

theorem JsonLibrary.parse_dump_parse_sample :
    let library := JsonLibrary.vendored (fun _ => 0) (fun _ => ascii "0.0")
      fun _ => zeroText_nulFree
    let value := Json.object [(ascii "a", .array [.numberInteger 0, .boolean true, .null]),
      (ascii "b", .string (ascii "x"))]
    library.parse (ascii "\x7b \"b\" : \"y\", \"a\":[-0, true, null], \"b\":\"\\u0078\"\x7d") =
        some value ∧
      ∃ text, library.dump value = some text ∧ library.parse text = some value.reread ∧
        library.dump value.reread = some text ∧ value.reread = value.unsignedZeros := by
  intro library value
  have parsed : library.parse
      (ascii "\x7b \"b\" : \"y\", \"a\":[-0, true, null], \"b\":\"\\u0078\"\x7d") = some value :=
    rfl
  exact ⟨parsed, JsonLibrary.parse_dump_parse parsed (by simp [value, Json.parts])⟩

end Canonical

end UBus
