import Mathlib.Data.List.Forall2
import Mathlib.Tactic

/-!
# Self-delimiting codes

A code is self-delimiting when a reader positioned at the start of a codeword
can tell where it ends.  Reading such codewords one after another recovers
every concatenation of codewords, whatever follows it.  One message may have
several codewords, as happens when an encoding leaves some symbols free.
-/

namespace SelfDelimiting

/-- A relation between messages and codewords together with a reader that
takes the message of the first codeword off an input. -/
structure Code (Symbol Message : Type*) where
  Codeword : Message → List Symbol → Prop
  next : List Symbol → Option (Message × List Symbol)
  next_codeword : ∀ {message codeword}, Codeword message codeword →
    ∀ rest, next (codeword ++ rest) = some (message, rest)
  next_shorter : ∀ {input message rest}, next input = some (message, rest) →
    rest.length < input.length

namespace Code

variable {Symbol Message : Type*} (code : Code Symbol Message)

/-- Read at most `count` codewords. -/
def decodeWithin : Nat → List Symbol → List Message × List Symbol
  | 0, input => ([], input)
  | count + 1, input =>
      match code.next input with
      | none => ([], input)
      | some (message, rest) =>
          (message :: (decodeWithin count rest).1, (decodeWithin count rest).2)

/-- Read codewords as long as the input starts with one.  The second
component is what is left. -/
def decode (input : List Symbol) : List Message × List Symbol :=
  code.decodeWithin input.length input

theorem next_nil : code.next [] = none := by
  cases found : code.next [] with
  | none => rfl
  | some result =>
      have := code.next_shorter found
      simp at this

theorem decodeWithin_eq {first second : Nat} {input : List Symbol}
    (firstEnough : input.length ≤ first) (secondEnough : input.length ≤ second) :
    code.decodeWithin first input = code.decodeWithin second input := by
  induction first generalizing second input with
  | zero =>
      have empty : input = [] := List.eq_nil_of_length_eq_zero (by omega)
      subst empty
      cases second <;> simp [decodeWithin, next_nil]
  | succ first ih =>
      cases second with
      | zero =>
          have empty : input = [] := List.eq_nil_of_length_eq_zero (by omega)
          subst empty
          simp [decodeWithin, next_nil]
      | succ second =>
          cases found : code.next input with
          | none => simp [decodeWithin, found]
          | some result =>
              obtain ⟨message, rest⟩ := result
              have shorter := code.next_shorter found
              have sameRest : code.decodeWithin first rest = code.decodeWithin second rest :=
                ih (by omega) (by omega)
              simp only [decodeWithin, found]
              rw [sameRest]

theorem decode_of_next_none {input : List Symbol} (none : code.next input = none) :
    code.decode input = ([], input) := by
  unfold decode
  cases input.length <;> simp [decodeWithin, none]

theorem decode_of_next_some {input rest : List Symbol} {message : Message}
    (found : code.next input = some (message, rest)) :
    code.decode input = (message :: (code.decode rest).1, (code.decode rest).2) := by
  have shorter := code.next_shorter found
  obtain ⟨size, sizeEq⟩ : ∃ size, input.length = size + 1 := ⟨input.length - 1, by omega⟩
  have bySize : code.decodeWithin size rest = code.decode rest :=
    code.decodeWithin_eq (by omega) le_rfl
  unfold decode at bySize ⊢
  rw [sizeEq]
  simp only [decodeWithin, found, bySize]

theorem decode_codeword {message : Message} {codeword : List Symbol}
    (isCodeword : code.Codeword message codeword) (rest : List Symbol) :
    code.decode (codeword ++ rest) =
      (message :: (code.decode rest).1, (code.decode rest).2) :=
  code.decode_of_next_some (code.next_codeword isCodeword rest)

@[simp]
theorem decode_nil : code.decode [] = ([], []) :=
  code.decode_of_next_none code.next_nil

/-- A concatenation of codewords decodes to their messages. -/
theorem decode_codewords {messages : List Message} {codewords : List (List Symbol)}
    (areCodewords : List.Forall₂ code.Codeword messages codewords) :
    code.decode codewords.flatten = (messages, []) := by
  induction areCodewords with
  | nil => simp
  | cons isCodeword _ ih =>
      rw [List.flatten_cons, code.decode_codeword isCodeword, ih]

theorem forall_mem_decode (property : Message → Prop)
    (produced : ∀ {input message rest}, code.next input = some (message, rest) →
      property message)
    (input : List Symbol) : ∀ message ∈ (code.decode input).1, property message := by
  induction size : input.length using Nat.strong_induction_on generalizing input with
  | _ size ih =>
      cases found : code.next input with
      | none => simp [code.decode_of_next_none found]
      | some result =>
          obtain ⟨first, rest⟩ := result
          have shorter := code.next_shorter found
          rw [code.decode_of_next_some found]
          intro message member
          rcases List.mem_cons.mp member with isFirst | later
          · exact isFirst ▸ produced found
          · exact ih rest.length (by omega) rest rfl message later

def Exact : Prop := ∀ {input message rest}, code.next input = some (message, rest) →
  ∃ codeword, code.Codeword message codeword ∧ input = codeword ++ rest

theorem decode_append {messages : List Message} {codewords : List (List Symbol)}
    (areCodewords : List.Forall₂ code.Codeword messages codewords) {rest : List Symbol}
    (stops : code.next rest = none) :
    code.decode (codewords.flatten ++ rest) = (messages, rest) := by
  induction areCodewords with
  | nil => exact code.decode_of_next_none stops
  | cons isCodeword _ ih =>
      rw [List.flatten_cons, List.append_assoc, code.decode_codeword isCodeword, ih]

def Extends : Prop := ∀ {input message rest}, code.next input = some (message, rest) →
  ∀ later, code.next (input ++ later) = some (message, rest ++ later)

/-- An input may be decoded as it arrives: first one part, and then what that
leaves over together with the next one. -/
theorem decode_in_parts (extending : code.Extends) (input later : List Symbol) :
    code.decode (input ++ later) =
      ((code.decode input).1 ++ (code.decode ((code.decode input).2 ++ later)).1,
        (code.decode ((code.decode input).2 ++ later)).2) := by
  induction size : input.length using Nat.strong_induction_on generalizing input with
  | _ size ih =>
      cases found : code.next input with
      | none => rw [code.decode_of_next_none found, List.nil_append]
      | some result =>
          obtain ⟨message, rest⟩ := result
          have shorter := code.next_shorter found
          rw [code.decode_of_next_some found, code.decode_of_next_some (extending found later),
            ih rest.length (size ▸ shorter) rest rfl, List.cons_append]

theorem decode_stops (exact : code.Exact) (input : List Symbol) :
    ∃ codewords, List.Forall₂ code.Codeword (code.decode input).1 codewords ∧
      input = codewords.flatten ++ (code.decode input).2 ∧
        code.next (code.decode input).2 = none := by
  induction sizeEq : input.length using Nat.strong_induction_on generalizing input with
  | _ size ih =>
      cases found : code.next input with
      | none =>
          rw [code.decode_of_next_none found]
          exact ⟨[], .nil, rfl, found⟩
      | some result =>
          obtain ⟨message, rest⟩ := result
          have shorter := code.next_shorter found
          obtain ⟨codeword, isCodeword, inputEq⟩ := exact found
          obtain ⟨codewords, areCodewords, restEq, stops⟩ := ih rest.length (by omega) rest rfl
          rw [code.decode_of_next_some found]
          refine ⟨codeword :: codewords, .cons isCodeword areCodewords, ?_, stops⟩
          rw [inputEq, List.flatten_cons, List.append_assoc, ← restEq]

theorem decode_eq_iff (exact : code.Exact) {input rest : List Symbol} {messages : List Message} :
    code.decode input = (messages, rest) ↔
      ∃ codewords, List.Forall₂ code.Codeword messages codewords ∧
        input = codewords.flatten ++ rest ∧ code.next rest = none := by
  constructor
  · intro decoded
    have stops := code.decode_stops exact input
    rwa [decoded] at stops
  · rintro ⟨codewords, areCodewords, rfl, stops⟩
    exact code.decode_append areCodewords stops

end Code

end SelfDelimiting
