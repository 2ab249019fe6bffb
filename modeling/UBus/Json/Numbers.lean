import UBus.Json.Lexer

/-!
# Numbers of the lexer

The lexer scans a number with a state machine.  This file describes the texts
that it accepts by their parts, and shows that a scan takes the longest number
that it can: what follows does not continue it.
-/

namespace UBus.Lexer

def IsDigits (text : Bytes) : Prop := text ≠ [] ∧ ∀ byte ∈ text, isDigit byte

/-- Zero, or digits that do not start with a zero. -/
inductive IsInteger : Bytes → Prop
  | zero : IsInteger [48]
  | digits {first : UInt8} {later : Bytes} (notZero : first ≠ 48)
      (areDigits : ∀ byte ∈ first :: later, isDigit byte) : IsInteger (first :: later)

inductive IsFraction : Bytes → Prop
  | absent : IsFraction []
  | present {digits : Bytes} (areDigits : IsDigits digits) : IsFraction (46 :: digits)

inductive IsExponent : Bytes → Prop
  | absent : IsExponent []
  | unsigned {letter : UInt8} {digits : Bytes} (isLetter : letter = 101 ∨ letter = 69)
      (areDigits : IsDigits digits) : IsExponent (letter :: digits)
  | signed {letter sign : UInt8} {digits : Bytes} (isLetter : letter = 101 ∨ letter = 69)
      (isSign : sign = 43 ∨ sign = 45) (areDigits : IsDigits digits) :
      IsExponent (letter :: sign :: digits)

def IsMagnitude (text : Bytes) : Prop :=
  ∃ integer fraction exponent, IsInteger integer ∧ IsFraction fraction ∧ IsExponent exponent ∧
    text = integer ++ fraction ++ exponent

def IsNumber (text : Bytes) : Prop :=
  IsMagnitude text ∨ ∃ magnitude, IsMagnitude magnitude ∧ text = 45 :: magnitude

/-- A number is an integer unless it has a decimal point or an exponent. -/
def typeOf (type : NumberType) (text : Bytes) : NumberType :=
  bif text.any fun byte => byte == 46 || byte == 101 || byte == 69 then .float else type

namespace NumberState

/-- From a label, the text leads to the end of a number. -/
def Accepts : NumberState → Bytes → Prop
  | state, [] => state.isDone = true
  | state, current :: text => ∃ state', state.next current = some state' ∧ state'.Accepts text

@[simp]
theorem accepts_nil {state : NumberState} : state.Accepts [] ↔ state.isDone = true := Iff.rfl

theorem accepts_cons {state : NumberState} {current : UInt8} {text : Bytes} :
    state.Accepts (current :: text) ↔
      ∃ state', state.next current = some state' ∧ state'.Accepts text :=
  Iff.rfl

theorem any2_accepts {text : Bytes} : any2.Accepts text ↔ ∀ byte ∈ text, isDigit byte := by
  induction text with
  | nil => simp [isDone]
  | cons current text ih => simp [accepts_cons, next, ih]

theorem sign_accepts {text : Bytes} : sign.Accepts text ↔ IsDigits text := by
  cases text with
  | nil => simp [isDone, IsDigits]
  | cons current text => simp [accepts_cons, next, any2_accepts, IsDigits]

theorem exponent_accepts {letter : UInt8} (isLetter : letter = 101 ∨ letter = 69) {text : Bytes} :
    exponent.Accepts text ↔ IsExponent (letter :: text) := by
  constructor
  · intro accepts
    cases text with
    | nil => simp [isDone] at accepts
    | cons current text =>
        obtain ⟨state', found, accepts⟩ := accepts_cons.mp accepts
        simp only [next] at found
        split_ifs at found with isSign digit
        · obtain rfl := Option.some.inj found
          exact .signed isLetter isSign (sign_accepts.mp accepts)
        · obtain rfl := Option.some.inj found
          have later := any2_accepts.mp accepts
          exact .unsigned isLetter ⟨by simp, by simpa using ⟨digit, later⟩⟩
  · intro isExponent
    cases isExponent with
    | unsigned _ areDigits =>
        obtain ⟨notEmpty, areDigits⟩ := areDigits
        obtain ⟨current, later, rfl⟩ := List.exists_cons_of_ne_nil notEmpty
        have digit := areDigits current (by simp)
        have notSign : ¬ (current = 43 ∨ current = 45) := by
          rintro (rfl | rfl) <;> exact absurd digit (by decide)
        refine accepts_cons.mpr ⟨any2, ?_, any2_accepts.mpr fun byte member =>
          areDigits byte (by simp [member])⟩
        rw [next, if_neg notSign, if_pos digit]
    | signed _ isSign areDigits =>
        exact accepts_cons.mpr ⟨sign, if_pos isSign, sign_accepts.mpr areDigits⟩

theorem isExponent_cons {letter : UInt8} {text : Bytes} (isExponent : IsExponent (letter :: text)) :
    (letter = 101 ∨ letter = 69) ∧ exponent.Accepts text := by
  have isLetter : letter = 101 ∨ letter = 69 := by
    cases isExponent <;> assumption
  exact ⟨isLetter, (exponent_accepts isLetter).mpr isExponent⟩

theorem not_isDigit_of_letter {letter : UInt8} (isLetter : letter = 101 ∨ letter = 69) :
    ¬ isDigit letter ∧ letter ≠ 46 := by
  rcases isLetter with rfl | rfl <;> decide

theorem decimal2_accepts {text : Bytes} :
    decimal2.Accepts text ↔ ∃ digits exponent, (∀ byte ∈ digits, isDigit byte) ∧
      IsExponent exponent ∧ text = digits ++ exponent := by
  induction text with
  | nil =>
      simp only [accepts_nil, isDone, true_iff]
      exact ⟨[], [], by simp, .absent, rfl⟩
  | cons current text ih =>
      simp only [accepts_cons, next]
      constructor
      · rintro ⟨state', found, accepts⟩
        split_ifs at found with digit isLetter
        · obtain rfl := Option.some.inj found
          obtain ⟨digits, exponent, areDigits, isExponent, rfl⟩ := ih.mp accepts
          exact ⟨current :: digits, exponent, by simpa using ⟨digit, areDigits⟩, isExponent, rfl⟩
        · obtain rfl := Option.some.inj found
          exact ⟨[], _, by simp, (exponent_accepts isLetter).mp accepts, rfl⟩
      · rintro ⟨digits, exponent, areDigits, isExponent, textEq⟩
        cases digits with
        | nil =>
            obtain rfl : current :: text = exponent := textEq
            obtain ⟨isLetter, accepts⟩ := isExponent_cons isExponent
            have notDigit := (not_isDigit_of_letter isLetter).1
            exact ⟨_, by rw [if_neg notDigit, if_pos isLetter], accepts⟩
        | cons first digits =>
            obtain ⟨rfl, rfl⟩ := List.cons.inj textEq
            have digit := areDigits current (by simp)
            refine ⟨_, if_pos digit, ih.mpr ⟨digits, exponent, fun byte member =>
              areDigits byte (by simp [member]), isExponent, rfl⟩⟩

theorem decimal1_accepts {text : Bytes} :
    decimal1.Accepts text ↔ ∃ digits exponent, IsDigits digits ∧ IsExponent exponent ∧
      text = digits ++ exponent := by
  cases text with
  | nil =>
      simp only [accepts_nil, isDone, Bool.false_eq_true, false_iff]
      rintro ⟨digits, exponent, areDigits, -, empty⟩
      exact areDigits.1 (List.append_eq_nil_iff.mp empty.symm).1
  | cons current text =>
      simp only [accepts_cons, next, Option.ite_none_right_eq_some, Option.some.injEq]
      constructor
      · rintro ⟨_, ⟨digit, rfl⟩, accepts⟩
        obtain ⟨digits, exponent, areDigits, isExponent, rfl⟩ := decimal2_accepts.mp accepts
        exact ⟨current :: digits, exponent, ⟨by simp, by simpa using ⟨digit, areDigits⟩⟩,
          isExponent, rfl⟩
      · rintro ⟨digits, exponent, ⟨notEmpty, areDigits⟩, isExponent, textEq⟩
        obtain ⟨first, digits, rfl⟩ := List.exists_cons_of_ne_nil notEmpty
        obtain ⟨rfl, rfl⟩ := List.cons.inj textEq
        exact ⟨_, ⟨areDigits current (by simp), rfl⟩, decimal2_accepts.mpr ⟨digits, exponent,
          fun byte member => areDigits byte (by simp [member]), isExponent, rfl⟩⟩

theorem fraction_accepts {current : UInt8} {text : Bytes} :
    (∃ fraction exponent, IsFraction fraction ∧ IsExponent exponent ∧
        current :: text = fraction ++ exponent) ↔
      current = 46 ∧ decimal1.Accepts text ∨
        (current = 101 ∨ current = 69) ∧ exponent.Accepts text := by
  constructor
  · rintro ⟨fraction, exponent, isFraction, isExponent, textEq⟩
    cases isFraction with
    | absent =>
        obtain rfl : current :: text = exponent := textEq
        exact Or.inr (isExponent_cons isExponent)
    | present areDigits =>
        obtain ⟨rfl, rfl⟩ := List.cons.inj textEq
        exact Or.inl ⟨rfl, decimal1_accepts.mpr ⟨_, exponent, areDigits, isExponent, rfl⟩⟩
  · rintro (⟨rfl, accepts⟩ | ⟨isLetter, accepts⟩)
    · obtain ⟨digits, exponent, areDigits, isExponent, rfl⟩ := decimal1_accepts.mp accepts
      exact ⟨46 :: digits, exponent, .present areDigits, isExponent, rfl⟩
    · exact ⟨[], _, .absent, (exponent_accepts isLetter).mp accepts, rfl⟩

theorem zero_accepts {text : Bytes} :
    zero.Accepts text ↔ ∃ fraction exponent, IsFraction fraction ∧ IsExponent exponent ∧
      text = fraction ++ exponent := by
  cases text with
  | nil =>
      simp only [accepts_nil, isDone, true_iff]
      exact ⟨[], [], .absent, .absent, rfl⟩
  | cons current text =>
      rw [fraction_accepts]
      simp only [accepts_cons, next]
      constructor
      · rintro ⟨state', found, accepts⟩
        split_ifs at found with point isLetter
        · obtain rfl := Option.some.inj found
          exact Or.inl ⟨point, accepts⟩
        · obtain rfl := Option.some.inj found
          exact Or.inr ⟨isLetter, accepts⟩
      · rintro (⟨rfl, accepts⟩ | ⟨isLetter, accepts⟩)
        · exact ⟨_, rfl, accepts⟩
        · have notPoint := (not_isDigit_of_letter isLetter).2
          exact ⟨_, by rw [if_neg notPoint, if_pos isLetter], accepts⟩

theorem any1_accepts {text : Bytes} :
    any1.Accepts text ↔ ∃ digits fraction exponent, (∀ byte ∈ digits, isDigit byte) ∧
      IsFraction fraction ∧ IsExponent exponent ∧ text = digits ++ (fraction ++ exponent) := by
  induction text with
  | nil =>
      simp only [accepts_nil, isDone, true_iff]
      exact ⟨[], [], [], by simp, .absent, .absent, rfl⟩
  | cons current text ih =>
      constructor
      · intro accepts
        obtain ⟨state', found, accepts⟩ := accepts_cons.mp accepts
        simp only [next] at found
        split_ifs at found with digit point isLetter
        · obtain rfl := Option.some.inj found
          obtain ⟨digits, fraction, exponent, areDigits, isFraction, isExponent, rfl⟩ :=
            ih.mp accepts
          exact ⟨current :: digits, fraction, exponent, by simpa using ⟨digit, areDigits⟩,
            isFraction, isExponent, rfl⟩
        · obtain rfl := Option.some.inj found
          obtain ⟨fraction, exponent, isFraction, isExponent, textEq⟩ :=
            fraction_accepts.mpr (Or.inl ⟨point, accepts⟩)
          exact ⟨[], fraction, exponent, by simp, isFraction, isExponent, textEq⟩
        · obtain rfl := Option.some.inj found
          obtain ⟨fraction, exponent, isFraction, isExponent, textEq⟩ :=
            fraction_accepts.mpr (Or.inr ⟨isLetter, accepts⟩)
          exact ⟨[], fraction, exponent, by simp, isFraction, isExponent, textEq⟩
      · rintro ⟨digits, fraction, exponent, areDigits, isFraction, isExponent, textEq⟩
        cases digits with
        | nil =>
            have parts := fraction_accepts.mp ⟨fraction, exponent, isFraction, isExponent, textEq⟩
            rcases parts with ⟨rfl, accepts⟩ | ⟨isLetter, accepts⟩
            · exact accepts_cons.mpr ⟨_, rfl, accepts⟩
            · obtain ⟨notDigit, notPoint⟩ := not_isDigit_of_letter isLetter
              refine accepts_cons.mpr ⟨_, ?_, accepts⟩
              rw [next, if_neg notDigit, if_neg notPoint, if_pos isLetter]
        | cons first digits =>
            obtain ⟨rfl, rfl⟩ := List.cons.inj textEq
            have digit := areDigits current (by simp)
            exact accepts_cons.mpr ⟨_, if_pos digit, ih.mpr ⟨digits, fraction, exponent,
              fun byte member => areDigits byte (by simp [member]), isFraction, isExponent, rfl⟩⟩

theorem minus_accepts {text : Bytes} : minus.Accepts text ↔ IsMagnitude text := by
  constructor
  · intro accepts
    cases text with
    | nil => simp [isDone] at accepts
    | cons current text =>
        obtain ⟨state', found, accepts⟩ := accepts_cons.mp accepts
        simp only [next] at found
        split_ifs at found with isZero digit
        · obtain rfl := Option.some.inj found
          obtain ⟨fraction, exponent, isFraction, isExponent, rfl⟩ := zero_accepts.mp accepts
          subst isZero
          exact ⟨[48], fraction, exponent, .zero, isFraction, isExponent, rfl⟩
        · obtain rfl := Option.some.inj found
          obtain ⟨digits, fraction, exponent, areDigits, isFraction, isExponent, rfl⟩ :=
            any1_accepts.mp accepts
          exact ⟨current :: digits, fraction, exponent,
            .digits isZero (by simpa using ⟨digit, areDigits⟩), isFraction, isExponent, by simp⟩
  · rintro ⟨integer, fraction, exponent, isInteger, isFraction, isExponent, rfl⟩
    rw [List.append_assoc]
    cases isInteger with
    | zero => exact ⟨zero, rfl, zero_accepts.mpr ⟨fraction, exponent, isFraction, isExponent, rfl⟩⟩
    | digits notZero areDigits =>
        refine ⟨any1, ?_, any1_accepts.mpr ⟨_, fraction, exponent, fun byte member =>
          areDigits byte (by simp [member]), isFraction, isExponent, rfl⟩⟩
        rw [next, if_neg notZero, if_pos (areDigits _ (by simp))]

/-- Every label can still come to the end of a number. -/
theorem exists_accepts (state : NumberState) : ∃ text, state.Accepts text := by
  cases state with
  | zero | any1 | decimal2 | any2 => exact ⟨[], rfl⟩
  | minus | decimal1 | exponent | sign => exact ⟨[48], _, rfl, rfl⟩

theorem typeOf_digit (type : NumberType) {current : UInt8} (digit : isDigit current) :
    typeOf type [current] = type := by
  have plain : ([current].any fun byte => byte == 46 || byte == 101 || byte == 69) = false := by
    refine Bool.eq_false_iff.mpr fun special => ?_
    simp only [List.any_cons, List.any_nil, Bool.or_false, Bool.or_eq_true, beq_iff_eq] at special
    rcases special with (rfl | rfl) | rfl <;> exact absurd digit (by decide)
  rw [typeOf, plain, cond_false]

theorem typeOf_letter (type : NumberType) {letter : UInt8} (isLetter : letter = 101 ∨ letter = 69) :
    typeOf type [letter] = .float := by
  rcases isLetter with rfl | rfl <;> rfl

theorem numberType_next {state state' : NumberState} {current : UInt8}
    (found : state.next current = some state') (type : NumberType) :
    state'.numberType type = typeOf type [current] := by
  cases state with
  | minus =>
      simp only [next] at found
      split_ifs at found with isZero digit
      · obtain rfl := Option.some.inj found
        subst isZero
        rfl
      · obtain rfl := Option.some.inj found
        exact (typeOf_digit type digit).symm
  | zero =>
      simp only [next] at found
      split_ifs at found with point isLetter
      · obtain rfl := Option.some.inj found
        subst point
        rfl
      · obtain rfl := Option.some.inj found
        exact (typeOf_letter type isLetter).symm
  | any1 =>
      simp only [next] at found
      split_ifs at found with digit point isLetter
      · obtain rfl := Option.some.inj found
        exact (typeOf_digit type digit).symm
      · obtain rfl := Option.some.inj found
        subst point
        rfl
      · obtain rfl := Option.some.inj found
        exact (typeOf_letter type isLetter).symm
  | decimal2 =>
      simp only [next] at found
      split_ifs at found with digit isLetter
      · obtain rfl := Option.some.inj found
        exact (typeOf_digit type digit).symm
      · obtain rfl := Option.some.inj found
        exact (typeOf_letter type isLetter).symm
  | exponent =>
      simp only [next] at found
      split_ifs at found with isSign digit
      · obtain rfl := Option.some.inj found
        rcases isSign with rfl | rfl <;> rfl
      · obtain rfl := Option.some.inj found
        exact (typeOf_digit type digit).symm
  | decimal1 | sign | any2 =>
      obtain ⟨digit, same⟩ := Option.ite_none_right_eq_some.mp found
      obtain rfl := Option.some.inj same
      exact (typeOf_digit type digit).symm

end NumberState

def NumberState.Stops (state : NumberState) (text rest : Bytes) : Prop :=
  ∀ byte left, rest = byte :: left → ∀ more, ¬ state.Accepts (text ++ byte :: more)

theorem typeOf_cons (type : NumberType) (current : UInt8) (text : Bytes) :
    typeOf (typeOf type [current]) text = typeOf type (current :: text) := by
  simp only [typeOf, List.any_cons, List.any_nil, Bool.or_false]
  cases current == 46 || current == 101 || current == 69 <;>
    cases text.any (fun byte => byte == 46 || byte == 101 || byte == 69) <;> rfl

/-- A scan takes the longest text that the label accepts. -/
theorem scanNumberFrom_eq_some {state : NumberState} {type type' : NumberType}
    {text buffer rest : Bytes} :
    scanNumberFrom state type text = some (buffer, type', rest) ↔
      state.Accepts buffer ∧ text = buffer ++ rest ∧ state.Stops buffer rest ∧
        type' = typeOf type buffer := by
  induction text generalizing state type buffer with
  | nil =>
      simp only [scanNumberFrom, Option.ite_none_right_eq_some, Option.some.injEq, Prod.mk.injEq]
      constructor
      · rintro ⟨isDone, rfl, rfl, rfl⟩
        exact ⟨isDone, rfl, by simp [NumberState.Stops], rfl⟩
      · rintro ⟨accepts, empty, -, rfl⟩
        obtain ⟨rfl, rfl⟩ := List.append_eq_nil_iff.mp empty.symm
        exact ⟨accepts, rfl, rfl, rfl⟩
  | cons current text ih =>
      cases found : state.next current with
      | some state' =>
          simp only [scanNumberFrom, found, Option.map_eq_some_iff]
          constructor
          · rintro ⟨⟨buffer', type'', rest'⟩, scanned, same⟩
            obtain ⟨rfl, rfl, rfl⟩ :
                current :: buffer' = buffer ∧ type'' = type' ∧ rest' = rest := by
              simpa using same
            obtain ⟨accepts, rfl, stops, rfl⟩ := ih.mp scanned
            refine ⟨⟨state', found, accepts⟩, rfl, fun byte left restEq more continues => ?_, ?_⟩
            · obtain ⟨other, isNext, continues⟩ := NumberState.accepts_cons.mp continues
              obtain rfl := Option.some.inj (found.symm.trans isNext)
              exact stops byte left restEq more continues
            · rw [NumberState.numberType_next found, typeOf_cons]
          · rintro ⟨accepts, textEq, stops, rfl⟩
            cases buffer with
            | nil =>
                obtain ⟨more, continues⟩ := state'.exists_accepts
                exact absurd ⟨state', found, continues⟩ (stops current text textEq.symm more)
            | cons first buffer =>
                obtain ⟨rfl, rfl⟩ := List.cons.inj textEq
                obtain ⟨other, isNext, accepts⟩ := NumberState.accepts_cons.mp accepts
                obtain rfl := Option.some.inj (found.symm.trans isNext)
                have stops' : state'.Stops buffer rest := fun byte left restEq more continues =>
                  stops byte left restEq more ⟨state', found, continues⟩
                have typeEq : typeOf type (current :: buffer) =
                    typeOf (state'.numberType type) buffer := by
                  rw [NumberState.numberType_next found, typeOf_cons]
                exact ⟨_, ih.mpr ⟨accepts, rfl, stops', typeEq⟩, rfl⟩
      | none =>
          simp only [scanNumberFrom, found, Option.ite_none_right_eq_some, Option.some.injEq,
            Prod.mk.injEq]
          constructor
          · rintro ⟨isDone, rfl, rfl, rfl⟩
            refine ⟨isDone, rfl, fun byte left restEq more continues => ?_, rfl⟩
            obtain ⟨rfl, rfl⟩ := List.cons.inj restEq
            obtain ⟨other, isNext, -⟩ := NumberState.accepts_cons.mp continues
            simp [found] at isNext
          · rintro ⟨accepts, textEq, -, rfl⟩
            cases buffer with
            | nil => exact ⟨accepts, rfl, rfl, textEq⟩
            | cons first buffer =>
                obtain ⟨rfl, rfl⟩ := List.cons.inj textEq
                obtain ⟨other, isNext, -⟩ := NumberState.accepts_cons.mp accepts
                simp [found] at isNext

end UBus.Lexer
