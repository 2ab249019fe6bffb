import UBus.Json.Grammar

/-!
# The end of a text

The lexer takes a NUL for the end of the input.  No token contains one, so the
parser returns the same for a text that is cut off at its first NUL.
-/

namespace UBus

namespace Lexer

theorem IsNumber.nulFree {text : Bytes} (isNumber : IsNumber text) : 0 ∉ text :=
  fun member => absurd (isNumber.numeric 0 member) (by decide)

theorem IsHex.nulFree {digits : Bytes} {code : Nat} (hex : IsHex digits code) : 0 ∉ digits := by
  obtain ⟨first, second, third, fourth, values, -⟩ := hex
  intro member
  have value : hexValue 0 ∈ digits.map hexValue := List.mem_map_of_mem member
  rw [values] at value
  simp [hexValue] at value

theorem UnicodeSpelling.nulFree {character : Char} {digits : Bytes}
    (spelled : UnicodeSpelling character digits) : 0 ∉ digits := by
  cases spelled with
  | single hex => exact hex.nulFree
  | surrogates hex _ hex' _ _ => simp [hex.nulFree, hex'.nulFree]

theorem Spelling.nulFree {character : Char} {piece : Bytes} (spelled : Spelling character piece) :
    0 ∉ piece := by
  cases spelled with
  | plain printable =>
      intro member
      have value := Utf8.toNat_of_mem_encode member
      rw [UInt8.toNat_zero] at value
      omega
  | @escape letter byte escaped =>
      have notNul : 0 ≠ letter := by
        rintro rfl
        exact absurd escaped (by simp [escapedByte, List.lookup_cons])
      simp [notNul]
  | unicode spelled => simp [spelled.nulFree]

theorem Spells.nulFree {characters : List Char} {text : Bytes} (spells : Spells characters text) :
    0 ∉ text := by
  obtain ⟨pieces, spelling, rfl⟩ := spells
  induction spelling with
  | nil => simp
  | cons spelled _ ih => simp [spelled.nulFree, ih]

theorem Lexeme.nulFree {strtod : Bytes → Float} {token : Token} {lexeme : Bytes}
    (isLexeme : Lexeme strtod token lexeme) : 0 ∉ lexeme := by
  cases isLexeme with
  | string spells => simp [spells.nulFree]
  | number isNumber => exact isNumber.nulFree
  | _ => decide

theorem IsSpace.nulFree {space : Bytes} (isSpace : IsSpace space) : 0 ∉ space :=
  fun member => absurd (isSpace 0 member) (by decide)

def beforeNul (text : Bytes) : Bytes := text.takeWhile (· ≠ 0)

theorem beforeNul_append {first : Bytes} (nulFree : 0 ∉ first) (second : Bytes) :
    beforeNul (first ++ second) = first ++ beforeNul second :=
  List.takeWhile_append_of_pos fun byte member => by
    simpa using ne_of_mem_of_not_mem member nulFree

theorem beforeNul_nulFree (text : Bytes) : 0 ∉ beforeNul text :=
  fun member => absurd (List.mem_takeWhile_imp member) (by simp)

theorem exists_beforeNul (text : Bytes) :
    ∃ rest, text = beforeNul text ++ rest ∧ (rest = [] ∨ ∃ unread, rest = 0 :: unread) := by
  refine ⟨text.dropWhile (· ≠ 0), List.takeWhile_append_dropWhile.symm, ?_⟩
  cases left : text.dropWhile (· ≠ 0) with
  | nil => exact Or.inl rfl
  | cons byte unread =>
      have stops := List.head?_dropWhile_not (· ≠ 0) text
      rw [left] at stops
      have isNul : byte = 0 := by simpa using stops
      exact Or.inr ⟨unread, by rw [isNul]⟩

section Tokens

variable {strtod : Bytes → Float} {text : Bytes} {tokens : List Token}

theorem Tokens.beforeNul (isTokens : Tokens strtod text tokens) :
    Tokens strtod (beforeNul text) tokens := by
  induction isTokens with
  | @done space rest isSpace ended =>
      rw [beforeNul_append isSpace.nulFree]
      refine .done isSpace (Or.inl ?_)
      rcases ended with rfl | ⟨unread, rfl⟩ <;> rfl
  | @token space lexeme rest token tokens isSpace isLexeme ends later ih =>
      rw [beforeNul_append isSpace.nulFree, beforeNul_append isLexeme.nulFree]
      refine .token isSpace isLexeme ?_ ih
      intro isNumber byte left leftEq
      obtain ⟨cut, restEq, -⟩ := exists_beforeNul rest
      rw [leftEq, List.cons_append] at restEq
      exact ends isNumber byte _ restEq

theorem Tokens.of_beforeNul {clean rest : Bytes} (isTokens : Tokens strtod clean tokens)
    (nulFree : 0 ∉ clean) (cut : rest = [] ∨ ∃ unread, rest = 0 :: unread) :
    Tokens strtod (clean ++ rest) tokens := by
  induction isTokens with
  | @done space ending isSpace ended =>
      have finished : ending = [] := by
        rcases ended with finished | ⟨unread, rfl⟩
        · exact finished
        · simp at nulFree
      rw [finished, List.append_nil]
      exact .done isSpace cut
  | @token space lexeme left token tokens isSpace isLexeme ends later ih =>
      simp only [List.mem_append, not_or] at nulFree
      rw [List.append_assoc, List.append_assoc]
      refine .token isSpace isLexeme ?_ (ih nulFree.2.2)
      intro isNumber byte after afterEq more
      cases left with
      | nil =>
          rcases cut with rfl | ⟨unread, rfl⟩
          · simp at afterEq
          · obtain ⟨rfl, -⟩ := List.cons.inj afterEq
            exact fun continued => continued.nulFree (by simp)
      | cons first left =>
          obtain ⟨rfl, -⟩ := List.cons.inj afterEq
          exact ends isNumber _ left rfl more

theorem tokens_beforeNul_iff :
    Tokens strtod (beforeNul text) tokens ↔ Tokens strtod text tokens := by
  refine ⟨fun isTokens => ?_, Tokens.beforeNul⟩
  obtain ⟨rest, textEq, cut⟩ := exists_beforeNul text
  rw [textEq]
  exact isTokens.of_beforeNul (beforeNul_nulFree text) cut

end Tokens

end Lexer

namespace Parser

open Lexer

theorem skipBom_beforeNul (input : Bytes) :
    skipBom (beforeNul input) = (skipBom input).map beforeNul := by
  have isPrefix (text : Bytes) : beforeNul text <+: text := List.takeWhile_prefix _
  by_cases start : input.head? = some 0xEF
  · obtain ⟨text, rfl⟩ := List.head?_eq_some_iff.mp start
    by_cases bom : [0xBB, 0xBF] <+: text
    · obtain ⟨later, rfl⟩ := bom
      rfl
    · have cutBom : ¬ [0xBB, 0xBF] <+: beforeNul text := fun cut => bom (cut.trans (isPrefix text))
      rw [skipBom_of_unmarked bom]
      exact skipBom_of_unmarked cutBom
  · have cutStart : (beforeNul input).head? ≠ some 0xEF := by
      intro cut
      obtain ⟨text, textEq⟩ := List.head?_eq_some_iff.mp cut
      obtain ⟨rest, inputEq⟩ := isPrefix input
      rw [← inputEq, textEq] at start
      exact start rfl
    rw [skipBom_of_head start, skipBom_of_head cutStart, Option.map_some]

/-- Whatever follows a NUL, the parser returns the same. -/
theorem parse_beforeNul (strtod : Bytes → Float) (input : Bytes) :
    parse strtod (beforeNul input) = parse strtod input := by
  apply Option.ext
  intro value
  simp only [parse_eq_some, skipBom_beforeNul, Option.map_eq_some_iff]
  constructor
  · rintro ⟨_, tokens, ⟨text, skipped, rfl⟩, isTokens, derives⟩
    exact ⟨text, tokens, skipped, tokens_beforeNul_iff.mp isTokens, derives⟩
  · rintro ⟨text, tokens, skipped, isTokens, derives⟩
    exact ⟨_, tokens, ⟨text, skipped, rfl⟩, tokens_beforeNul_iff.mpr isTokens, derives⟩

end Parser

end UBus
