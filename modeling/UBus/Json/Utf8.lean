import UBus.Json
import UBus.Library.Utf8

/-!
# The two UTF-8 checks of the library

The lexer checks the bytes of a string against ranges, while the serializer
runs an automaton over a table.  Both let through the same texts, and these are
the encodings of characters.
-/

namespace UBus

open Utf8 (Range trail Within IsSequence)

/-- `next_byte_in_range`: the bytes that are added to the token, and what is
left of the input. -/
def nextByteInRange : List Range → Bytes → Option (Bytes × Bytes)
  | [], text => some ([], text)
  | _ :: _, [] => none
  | (low, high) :: ranges, current :: text =>
      if low ≤ current ∧ current ≤ high then
        (nextByteInRange ranges text).map fun read => (current :: read.1, read.2)
      else none

theorem nextByteInRange_eq_some {ranges : List Range} {text added rest : Bytes} :
    nextByteInRange ranges text = some (added, rest) ↔
      Within ranges added ∧ text = added ++ rest := by
  induction ranges generalizing text added with
  | nil =>
      simp only [nextByteInRange, Option.some.injEq, Prod.mk.injEq, Within,
        List.forall₂_nil_left_iff]
      constructor
      · rintro ⟨rfl, rfl⟩
        simp
      · rintro ⟨rfl, rfl⟩
        simp
  | cons range ranges ih =>
      cases text with
      | nil =>
          simp only [nextByteInRange, reduceCtorEq, false_iff, not_and]
          rintro within empty
          cases within
          simp at empty
      | cons current text =>
          simp only [nextByteInRange, Option.ite_none_right_eq_some, Option.map_eq_some_iff]
          constructor
          · rintro ⟨contains, ⟨later, left⟩, read, same⟩
            obtain ⟨rfl, rfl⟩ := Prod.mk.inj same
            obtain ⟨within, rfl⟩ := ih.mp read
            exact ⟨.cons contains within, rfl⟩
          · rintro ⟨within, textEq⟩
            cases within with
            | cons contains within =>
                obtain ⟨rfl, rfl⟩ := List.cons.inj textEq
                exact ⟨contains, _, ih.mpr ⟨within, rfl⟩, rfl⟩

/-- The bytes that take the decoder from a state back to its start. -/
def utf8Pending (state : Nat) : List Range :=
  match state with
  | 2 => [Utf8.tail]
  | 3 => [Utf8.tail, Utf8.tail]
  | 4 => [(0xA0, 0xBF), Utf8.tail]
  | 5 => [(0x80, 0x9F), Utf8.tail]
  | 6 => [(0x90, 0xBF), Utf8.tail, Utf8.tail]
  | 7 => [Utf8.tail, Utf8.tail, Utf8.tail]
  | 8 => [(0x80, 0x8F), Utf8.tail, Utf8.tail]
  | _ => []

theorem trail_eq (byte : UInt8) :
    trail byte = if utf8Next 0 byte = 1 then none else some (utf8Pending (utf8Next 0 byte)) := by
  have table : ∀ code < 256, trail (UInt8.ofNat code) =
      if utf8Next 0 (UInt8.ofNat code) = 1 then none
      else some (utf8Pending (utf8Next 0 (UInt8.ofNat code))) := by
    decide +kernel
  simpa using table byte.toNat byte.toNat_lt

/-- The bytes that continue sequences have classes of their own. -/
theorem utf8Class_cases (byte : UInt8) :
    utf8Classes.getD byte.toNat 0 < 12 ∧
      (utf8Classes.getD byte.toNat 0 = 1 ↔ 0x80 ≤ byte.toNat ∧ byte.toNat ≤ 0x8F) ∧
      (utf8Classes.getD byte.toNat 0 = 9 ↔ 0x90 ≤ byte.toNat ∧ byte.toNat ≤ 0x9F) ∧
      (utf8Classes.getD byte.toNat 0 = 7 ↔ 0xA0 ≤ byte.toNat ∧ byte.toNat ≤ 0xBF) := by
  have table : ∀ code < 256, utf8Classes.getD code 0 < 12 ∧
      (utf8Classes.getD code 0 = 1 ↔ 0x80 ≤ code ∧ code ≤ 0x8F) ∧
      (utf8Classes.getD code 0 = 9 ↔ 0x90 ≤ code ∧ code ≤ 0x9F) ∧
      (utf8Classes.getD code 0 = 7 ↔ 0xA0 ≤ code ∧ code ≤ 0xBF) := by
    decide +kernel
  exact table byte.toNat byte.toNat_lt

theorem utf8Next_inside {state : Nat} (inside : state ≠ 0) (notRejected : state ≠ 1)
    (bounded : state ≤ 8) :
    ∃ range ranges, utf8Pending state = range :: ranges ∧ ∀ byte : UInt8,
      if range.1 ≤ byte ∧ byte ≤ range.2 then
        utf8Next state byte ≠ 1 ∧ utf8Pending (utf8Next state byte) = ranges
      else utf8Next state byte = 1 := by
  have ofClasses {range : Range} {ranges : List Range} (classes : List Nat)
      (inRange : ∀ byte : UInt8, range.1 ≤ byte ∧ byte ≤ range.2 ↔
        utf8Classes.getD byte.toNat 0 ∈ classes)
      (table : ∀ class_ < 12, if class_ ∈ classes then
          utf8Transitions.getD (state * 16 + class_) 1 ≠ 1 ∧
            utf8Pending (utf8Transitions.getD (state * 16 + class_) 1) = ranges
        else utf8Transitions.getD (state * 16 + class_) 1 = 1) (byte : UInt8) :
      if range.1 ≤ byte ∧ byte ≤ range.2 then
        utf8Next state byte ≠ 1 ∧ utf8Pending (utf8Next state byte) = ranges
      else utf8Next state byte = 1 := by
    simp only [inRange]
    exact table _ (utf8Class_cases byte).1
  have inTail (byte : UInt8) :
      (0x80 ≤ byte ∧ byte ≤ 0xBF ↔ utf8Classes.getD byte.toNat 0 ∈ [1, 9, 7]) ∧
      (0xA0 ≤ byte ∧ byte ≤ 0xBF ↔ utf8Classes.getD byte.toNat 0 ∈ [7]) ∧
      (0x80 ≤ byte ∧ byte ≤ 0x9F ↔ utf8Classes.getD byte.toNat 0 ∈ [1, 9]) ∧
      (0x90 ≤ byte ∧ byte ≤ 0xBF ↔ utf8Classes.getD byte.toNat 0 ∈ [9, 7]) ∧
      (0x80 ≤ byte ∧ byte ≤ 0x8F ↔ utf8Classes.getD byte.toNat 0 ∈ [1]) := by
    obtain ⟨-, first, second, third⟩ := utf8Class_cases byte
    simp only [List.mem_cons, List.not_mem_nil, or_false, first, second, third,
      UInt8.le_iff_toNat_le, UInt8.reduceToNat]
    refine ⟨?_, trivial, ?_, ?_, trivial⟩ <;> constructor <;> intro range <;> omega
  interval_cases state
  · exact absurd rfl inside
  · exact absurd rfl notRejected
  · exact ⟨_, _, rfl, ofClasses [1, 9, 7] (fun byte => (inTail byte).1) (by decide)⟩
  · exact ⟨_, _, rfl, ofClasses [1, 9, 7] (fun byte => (inTail byte).1) (by decide)⟩
  · exact ⟨_, _, rfl, ofClasses [7] (fun byte => (inTail byte).2.1) (by decide)⟩
  · exact ⟨_, _, rfl, ofClasses [1, 9] (fun byte => (inTail byte).2.2.1) (by decide)⟩
  · exact ⟨_, _, rfl, ofClasses [9, 7] (fun byte => (inTail byte).2.2.2.1) (by decide)⟩
  · exact ⟨_, _, rfl, ofClasses [1, 9, 7] (fun byte => (inTail byte).1) (by decide)⟩
  · exact ⟨_, _, rfl, ofClasses [1] (fun byte => (inTail byte).2.2.2.2) (by decide)⟩

theorem utf8AcceptsFrom_iff {state : Nat} (notRejected : state ≠ 1) (bounded : state ≤ 8)
    (text : Bytes) :
    utf8AcceptsFrom state text = true ↔
      ∃ added rest, nextByteInRange (utf8Pending state) text = some (added, rest) ∧
        IsUtf8 rest := by
  induction text generalizing state with
  | nil =>
      by_cases inside : state = 0
      · subst inside
        exact ⟨fun _ => ⟨[], [], rfl, rfl⟩, fun _ => rfl⟩
      · obtain ⟨range, ranges, pending, -⟩ := utf8Next_inside inside notRejected bounded
        simp [utf8AcceptsFrom, inside, pending, nextByteInRange]
  | cons byte text ih =>
      by_cases inside : state = 0
      · subst inside
        exact ⟨fun accepted => ⟨[], byte :: text, rfl, accepted⟩, by
          rintro ⟨_, _, read, accepted⟩
          obtain ⟨-, rfl⟩ := Prod.mk.inj (Option.some.inj read)
          exact accepted⟩
      · obtain ⟨range, ranges, pending, next⟩ := utf8Next_inside inside notRejected bounded
        have atByte := next byte
        rw [pending]
        simp only [utf8AcceptsFrom, nextByteInRange]
        split_ifs at atByte ⊢ with contains
        · obtain ⟨accepted, later⟩ := atByte
          have read := ih accepted (utf8Next_le state byte)
          rw [later] at read
          simp only [bne_iff_ne, ne_eq, accepted, not_false_eq_true, Bool.and_eq_true, true_and,
            read, Option.map_eq_some_iff, Prod.exists, Prod.mk.injEq]
          constructor
          · rintro ⟨added, rest, isRead, isUtf8⟩
            exact ⟨_, rest, ⟨added, rest, isRead, rfl, rfl⟩, isUtf8⟩
          · rintro ⟨_, _, ⟨added, rest, isRead, -, rfl⟩, isUtf8⟩
            exact ⟨added, rest, isRead, isUtf8⟩
        · simp [atByte]

theorem isUtf8_append {sequence : Bytes} (isSequence : IsSequence sequence) (rest : Bytes) :
    IsUtf8 (sequence ++ rest) ↔ IsUtf8 rest := by
  obtain ⟨lead, trailing, ranges, rfl, found, within⟩ := isSequence
  rw [trail_eq] at found
  split_ifs at found with accepted
  obtain rfl := Option.some.inj found
  have read := utf8AcceptsFrom_iff accepted (utf8Next_le 0 lead) (trailing ++ rest)
  have split : nextByteInRange (utf8Pending (utf8Next 0 lead)) (trailing ++ rest) =
      some (trailing, rest) := nextByteInRange_eq_some.mpr ⟨within, rfl⟩
  simp only [split, Option.some.injEq, Prod.mk.injEq] at read
  simp only [IsUtf8, List.cons_append, utf8AcceptsFrom]
  simp [accepted, read, IsUtf8]

theorem exists_sequence {byte : UInt8} {text : Bytes} (accepted : IsUtf8 (byte :: text)) :
    ∃ sequence rest, byte :: text = sequence ++ rest ∧ IsSequence sequence ∧ IsUtf8 rest := by
  simp only [IsUtf8, utf8AcceptsFrom, Bool.and_eq_true, bne_iff_ne] at accepted
  obtain ⟨added, rest, read, later⟩ :=
    (utf8AcceptsFrom_iff accepted.1 (utf8Next_le 0 byte) text).mp accepted.2
  obtain ⟨within, rfl⟩ := nextByteInRange_eq_some.mp read
  refine ⟨byte :: added, rest, rfl, ⟨byte, added, _, rfl, ?_, within⟩, later⟩
  rw [trail_eq, if_neg accepted.1]

theorem isUtf8_flatMap (characters : List Char) :
    IsUtf8 (characters.flatMap String.utf8EncodeChar) := by
  induction characters with
  | nil => rfl
  | cons character characters ih =>
      rw [List.flatMap_cons]
      exact (isUtf8_append (Utf8.isSequence_encode character) _).mpr ih

/-- The decoder of the serializer accepts exactly the encodings of characters. -/
theorem isUtf8_iff {text : Bytes} :
    IsUtf8 text ↔ ∃ characters : List Char, text = characters.flatMap String.utf8EncodeChar := by
  constructor
  · intro accepted
    induction sizeEq : text.length using Nat.strong_induction_on generalizing text with
    | _ size ih =>
        cases text with
        | nil => exact ⟨[], rfl⟩
        | cons byte bytes =>
            obtain ⟨sequence, rest, textEq, isSequence, later⟩ := exists_sequence accepted
            obtain ⟨character, rfl⟩ := Utf8.exists_encode isSequence
            have shorter : rest.length < size := by
              rw [← sizeEq, textEq, List.length_append, String.length_utf8EncodeChar]
              have := character.utf8Size_pos
              omega
            obtain ⟨characters, rfl⟩ := ih rest.length shorter later rfl
            exact ⟨character :: characters, by rw [textEq, List.flatMap_cons]⟩
  · rintro ⟨characters, rfl⟩
    exact isUtf8_flatMap characters

mutual
theorem strings_of_dumpJson {dumpFloat : Float → Bytes} {value : Json} {text : Bytes}
    (dumped : dumpJson dumpFloat value = some text) :
    ∀ contents ∈ value.strings, IsUtf8 contents := by
  match value, dumped with
  | .null, _ | .boolean _, _ | .numberInteger _, _ | .numberUnsigned _, _ | .numberFloat _, _ =>
      simp [Json.strings]
  | .string contents, dumped =>
      simpa [Json.strings] using (dumpQuoted_isSome_iff contents).mp (by
        rw [show dumpQuoted contents = some text from dumped]
        rfl)
  | .array items, dumped =>
      obtain ⟨inner, innerEq, -⟩ := Option.map_eq_some_iff.mp dumped
      exact strings_of_dumpItems innerEq
  | .object members, dumped =>
      obtain ⟨inner, innerEq, -⟩ := Option.map_eq_some_iff.mp dumped
      exact strings_of_dumpMembers innerEq
theorem strings_of_dumpItems {dumpFloat : Float → Bytes} {items : List Json} {text : Bytes}
    (dumped : dumpItems dumpFloat items = some text) :
    ∀ contents ∈ Json.itemStrings items, IsUtf8 contents := by
  match items, dumped with
  | [], _ => simp [Json.itemStrings]
  | [item], dumped => simpa [Json.itemStrings] using strings_of_dumpJson dumped
  | item :: second :: items, dumped =>
      obtain ⟨head, headEq, tail, tailEq, -⟩ := dumpItems_cons_cons_eq_some.mp dumped
      rw [Json.itemStrings]
      exact List.forall_mem_append.mpr ⟨strings_of_dumpJson headEq, strings_of_dumpItems tailEq⟩
theorem strings_of_dumpMembers {dumpFloat : Float → Bytes} {members : List (Bytes × Json)}
    {text : Bytes} (dumped : dumpMembers dumpFloat members = some text) :
    ∀ contents ∈ Json.memberStrings members, IsUtf8 contents := by
  match members, dumped with
  | [], _ => simp [Json.memberStrings]
  | [member], dumped => simpa [Json.memberStrings] using strings_of_dumpMember dumped
  | member :: second :: members, dumped =>
      obtain ⟨head, headEq, tail, tailEq, -⟩ := dumpMembers_cons_cons_eq_some.mp dumped
      obtain ⟨key, inValue⟩ := strings_of_dumpMember headEq
      rw [Json.memberStrings]
      exact List.forall_mem_cons.mpr
        ⟨key, List.forall_mem_append.mpr ⟨inValue, strings_of_dumpMembers tailEq⟩⟩
theorem strings_of_dumpMember {dumpFloat : Float → Bytes} {member : Bytes × Json} {text : Bytes}
    (dumped : dumpMember dumpFloat member = some text) :
    IsUtf8 member.1 ∧ ∀ contents ∈ member.2.strings, IsUtf8 contents := by
  obtain ⟨key, value⟩ := member
  obtain ⟨keyText, keyEq, valueText, valueEq, -⟩ := dumpMember_eq_some.mp dumped
  exact ⟨(dumpQuoted_isSome_iff key).mp (by simp [keyEq]), strings_of_dumpJson valueEq⟩
end

/-- A value is serialized exactly if every string in it, object keys included,
encodes characters. -/
theorem dump_isSome_iff (json : JsonLibrary) (value : Json) :
    (json.dump value).isSome ↔ ∀ contents ∈ value.strings,
      ∃ characters : List Char, contents = characters.flatMap String.utf8EncodeChar := by
  simp only [← isUtf8_iff]
  constructor
  · intro dumped
    obtain ⟨text, textEq⟩ := Option.isSome_iff_exists.mp dumped
    exact strings_of_dumpJson textEq
  · exact dumpJson_isSome json.dumpFloat value

/-- The least code point that can have been accumulated in a state of the
decoder.  It accepts no overlong sequences. -/
def utf8Least (state : Nat) : Nat := [0, 0, 2, 1, 0, 1, 0, 1, 4].getD state 0

theorem utf8_start {byte : UInt8} {codePoint : Nat} (accepted : utf8Next 0 byte ≠ 1) :
    utf8Least (utf8Next 0 byte) ≤ utf8CodePoint 0 codePoint byte ∧
      (utf8Next 0 byte = 0 → utf8CodePoint 0 codePoint byte = byte.toNat) ∧
      (utf8Next 0 byte ≠ 0 → 128 ≤ byte.toNat) := by
  have table : ∀ code < 256,
      let class_ := utf8Classes.getD code 0
      let next := utf8Transitions.getD (0 * 16 + class_) 1
      next ≠ 1 → utf8Least next ≤ (0xff >>> class_) &&& code ∧
        (next = 0 → (0xff >>> class_) &&& code = code) ∧ (next ≠ 0 → 128 ≤ code) := by
    decide +kernel
  exact table byte.toNat byte.toNat_lt accepted

/-- The bytes 80..8F, 90..9F and A0..BF, which continue a sequence, have the
classes 1, 9 and 7. -/
theorem utf8_continuation {state : Nat} {byte : UInt8} (inside : state ≠ 0) (bounded : state ≤ 8)
    (accepted : utf8Next state byte ≠ 1) :
    (utf8Least (utf8Next state byte) ≤ byte.toNat &&& 0x3f ∨
        utf8Least (utf8Next state byte) ≤ utf8Least state * 64) ∧
      (utf8Next state byte = 0 → 128 ≤ utf8Least state * 64) ∧ 128 ≤ byte.toNat := by
  let low (class_ : Nat) : Nat := if class_ = 9 then 16 else if class_ = 7 then 32 else 0
  have classes : ∀ code < 256, utf8Classes.getD code 0 < 12 ∧
      (utf8Classes.getD code 0 ∈ [1, 7, 9] →
        128 ≤ code ∧ low (utf8Classes.getD code 0) ≤ code &&& 0x3f) := by
    decide +kernel
  obtain ⟨isClass, continues⟩ := classes byte.toNat byte.toNat_lt
  unfold utf8Next at accepted ⊢
  generalize utf8Classes.getD byte.toNat 0 = class_ at isClass continues accepted ⊢
  have table : class_ ∈ [1, 7, 9] ∧
      (utf8Least (utf8Transitions.getD (state * 16 + class_) 1) ≤ low class_ ∨
        utf8Least (utf8Transitions.getD (state * 16 + class_) 1) ≤ utf8Least state * 64) ∧
      (utf8Transitions.getD (state * 16 + class_) 1 = 0 → 128 ≤ utf8Least state * 64) := by
    clear continues
    interval_cases state
    · exact absurd rfl inside
    all_goals
      revert accepted class_
      decide
  obtain ⟨isContinuation, least, finished⟩ := table
  obtain ⟨high, above⟩ := continues isContinuation
  exact ⟨least.imp_left fun below => below.trans above, finished, high⟩

theorem utf8_continue {state codePoint : Nat} {byte : UInt8} (inside : state ≠ 0)
    (bounded : state ≤ 8) (least : utf8Least state ≤ codePoint)
    (accepted : utf8Next state byte ≠ 1) :
    utf8Least (utf8Next state byte) ≤ utf8CodePoint state codePoint byte ∧
      (utf8Next state byte = 0 → 128 ≤ utf8CodePoint state codePoint byte) ∧
      128 ≤ byte.toNat := by
  obtain ⟨leastNext, finished, high⟩ := utf8_continuation inside bounded accepted
  have shifted : codePoint <<< 6 = codePoint * 64 := Nat.shiftLeft_eq codePoint 6
  have low : byte.toNat &&& 0x3f ≤ utf8CodePoint state codePoint byte := by
    rw [utf8CodePoint, if_pos inside]
    exact Nat.left_le_or
  have earlier : codePoint * 64 ≤ utf8CodePoint state codePoint byte := by
    rw [utf8CodePoint, if_pos inside, ← shifted]
    exact Nat.right_le_or
  refine ⟨by omega, fun done => ?_, high⟩
  have := finished done
  omega

end UBus
