import UBus.Json.Parser

/-!
# The grammar of the parser

The parser returns a value exactly if the tokens of the text derive it: a
scalar, an array of values or an object of members, with commas between them.
A key that comes twice keeps its last value.
-/

namespace UBus.Parser

open Lexer

/-- The values that tokens derive. -/
inductive Derives : List Token → Json → Prop
  | scalar {token : Token} {value : Json} (scalar : scalarValue token = some value) :
      Derives [token] value
  | array {items : List (List Token × Json)} (values : ∀ item ∈ items, Derives item.1 item.2) :
      Derives (.beginArray :: ([.valueSeparator].intercalate (items.map Prod.fst) ++ [.endArray]))
        (.array (items.map Prod.snd))
  | object {members : List (Bytes × List Token × Json)}
      (values : ∀ member ∈ members, Derives member.2.1 member.2.2) :
      Derives (.beginObject :: ([.valueSeparator].intercalate (members.map fun member =>
          .valueString member.1 :: .nameSeparator :: member.2.1) ++ [.endObject]))
        (Json.ofAssignments (members.map fun member => (member.1, member.2.2)))

theorem intercalate_cons {Symbol : Type} (separator : Symbol) (first : List Symbol)
    (others : List (List Symbol)) :
    [separator].intercalate (first :: others) =
      first ++ others.flatMap fun other => separator :: other := by
  induction others generalizing first with
  | nil => simp
  | cons second others ih =>
      rw [List.intercalate_cons_cons, ih second, List.flatMap_cons]
      simp

theorem Derives.noItems : Derives [.beginArray, .endArray] (.array []) :=
  array (List.forall_mem_nil fun item : List Token × Json => Derives item.1 item.2)

theorem Derives.items {tokens : List Token} {value : Json} {others : List (List Token × Json)}
    (derives : Derives tokens value) (derivesOthers : ∀ item ∈ others, Derives item.1 item.2) :
    Derives (.beginArray ::
        (tokens ++ (others.flatMap fun item => .valueSeparator :: item.1) ++ [.endArray]))
      (.array (value :: others.map Prod.snd)) := by
  have derivesArray := array
    (List.forall_mem_cons.mpr (⟨derives, derivesOthers⟩ : Derives (tokens, value).1 _ ∧ _))
  rw [List.map_cons, intercalate_cons, List.flatMap_map] at derivesArray
  exact derivesArray

theorem Derives.noMembers : Derives [.beginObject, .endObject] (.object []) :=
  object (List.forall_mem_nil fun member : Bytes × List Token × Json =>
    Derives member.2.1 member.2.2)

theorem Derives.members {tokens : List Token} {value : Json}
    {others : List (Bytes × List Token × Json)} (key : Bytes) (derives : Derives tokens value)
    (derivesOthers : ∀ member ∈ others, Derives member.2.1 member.2.2) :
    Derives (.beginObject :: .valueString key :: .nameSeparator ::
        (tokens ++ (others.flatMap fun member =>
          .valueSeparator :: .valueString member.1 :: .nameSeparator :: member.2.1) ++
          [.endObject]))
      (Json.ofAssignments
        ((key, value) :: others.map fun member => (member.1, member.2.2))) := by
  have derivesObject := object (List.forall_mem_cons.mpr
    (⟨derives, derivesOthers⟩ : Derives (key, tokens, value).2.1 (key, tokens, value).2.2 ∧ _))
  rw [List.map_cons, intercalate_cons, List.flatMap_map] at derivesObject
  exact derivesObject

def Scans (strtod : Bytes → Float) : Bytes → List Token → Bytes → Prop
  | text, [], rest => text = rest
  | text, token :: tokens, rest =>
      ∃ left, scan strtod text = some (token, left) ∧ Scans strtod left tokens rest

section Scans

variable {strtod : Bytes → Float} {text rest : Bytes}

theorem scans_append {first second : List Token} :
    Scans strtod text (first ++ second) rest ↔
      ∃ left, Scans strtod text first left ∧ Scans strtod left second rest := by
  induction first generalizing text with
  | nil => simp [Scans]
  | cons token first ih =>
      simp only [List.cons_append, Scans, ih]
      constructor
      · rintro ⟨left, found, middle, before, after⟩
        exact ⟨middle, ⟨left, found, before⟩, after⟩
      · rintro ⟨middle, ⟨left, found, before⟩, after⟩
        exact ⟨left, found, middle, before, after⟩

theorem scans_single {token : Token} :
    Scans strtod text [token] rest ↔ scan strtod text = some (token, rest) := by
  simp [Scans]

end Scans

section Complete

variable {strtod : Bytes → Float}

def readValue (strtod : Bytes → Float) (frames : List Frame) (text : Bytes) :
    Option (Json × Bytes) :=
  (scan strtod text).bind fun (token, rest) =>
    (parserLoop strtod).run ⟨frames, .value token, rest⟩

/-- Wherever the tokens are found, the parser completes the value. -/
structure Completes (strtod : Bytes → Float) (tokens : List Token) (value : Json) : Prop where
  first : ∃ token later, tokens = token :: later ∧ token ≠ .endArray
  read : ∀ {frames text rest}, Scans strtod text tokens rest →
    readValue strtod frames text = (parserLoop strtod).run ⟨frames, .evaluation value, rest⟩

theorem Completes.exists_scan {tokens : List Token} {value : Json}
    (completes : Completes strtod tokens value) {text rest : Bytes}
    (scans : Scans strtod text tokens rest) :
    ∃ token left, scan strtod text = some (token, left) ∧ token ≠ .endArray := by
  obtain ⟨token, later, rfl, notEnd⟩ := completes.first
  obtain ⟨left, found, -⟩ := scans
  exact ⟨token, left, found, notEnd⟩

theorem readValue_of_scan {frames : List Frame} {text rest : Bytes} {token : Token}
    (found : scan strtod text = some (token, rest)) :
    readValue strtod frames text = (parserLoop strtod).run ⟨frames, .value token, rest⟩ := by
  rw [readValue, found, Option.bind_some]

theorem run_enterValue {frames : List Frame} {text : Bytes} {token : Token} {next : State}
    (entered : enterValue strtod frames token text = some next) :
    (parserLoop strtod).run ⟨frames, .value token, text⟩ = (parserLoop strtod).run next := by
  apply Loop.run_of_next
  exact congrArg (Option.map Sum.inl) entered

theorem run_continueArray {frames : List Frame} {items : List Json} {value : Json} {text : Bytes}
    {next : State} (continued : continueArray strtod (items ++ [value]) frames text = some next) :
    (parserLoop strtod).run ⟨.array items :: frames, .evaluation value, text⟩ =
      (parserLoop strtod).run next := by
  apply Loop.run_of_next
  exact congrArg (Option.map Sum.inl) continued

theorem run_continueObject {frames : List Frame} {members : List (Bytes × Json)} {key : Bytes}
    {value : Json} {text : Bytes} {next : State}
    (continued : continueObject strtod (Json.insertMember key value members) frames text =
      some next) :
    (parserLoop strtod).run ⟨.object members key :: frames, .evaluation value, text⟩ =
      (parserLoop strtod).run next := by
  apply Loop.run_of_next
  exact congrArg (Option.map Sum.inl) continued

theorem run_items {others : List (List Token × Json)}
    (completes : ∀ item ∈ others, Completes strtod item.1 item.2) {items : List Json}
    {value : Json} {frames : List Frame} {text rest : Bytes}
    (scans : Scans strtod text
      ((others.flatMap fun item => .valueSeparator :: item.1) ++ [.endArray]) rest) :
    (parserLoop strtod).run ⟨.array items :: frames, .evaluation value, text⟩ =
      (parserLoop strtod).run
        ⟨frames, .evaluation (.array (items ++ value :: others.map Prod.snd)), rest⟩ := by
  induction others generalizing items value text with
  | nil =>
      have found := scans_single.mp scans
      exact run_continueArray (continueArray_eq_some.mpr (Or.inl ⟨rest, found, rfl⟩))
  | cons item others ih =>
      rw [List.flatMap_cons, List.append_assoc] at scans
      obtain ⟨separated, found, scans⟩ := scans
      obtain ⟨left, scansItem, scans⟩ := scans_append.mp scans
      have completesItem := completes item (by simp)
      obtain ⟨token, afterToken, foundToken, -⟩ := completesItem.exists_scan scansItem
      have continued : continueArray strtod (items ++ [value]) frames text =
          some ⟨.array (items ++ [value]) :: frames, .value token, afterToken⟩ :=
        continueArray_eq_some.mpr (Or.inr ⟨separated, token, afterToken, found, foundToken, rfl⟩)
      rw [run_continueArray continued, ← readValue_of_scan foundToken, completesItem.read scansItem,
        ih (fun other member => completes other (by simp [member])) scans]
      simp

theorem run_members {others : List (Bytes × List Token × Json)}
    (completes : ∀ member ∈ others, Completes strtod member.2.1 member.2.2)
    {members : List (Bytes × Json)} {key : Bytes} {value : Json} {frames : List Frame}
    {text rest : Bytes}
    (scans : Scans strtod text
      ((others.flatMap fun member => .valueSeparator :: .valueString member.1 :: .nameSeparator ::
        member.2.1) ++ [.endObject]) rest) :
    (parserLoop strtod).run ⟨.object members key :: frames, .evaluation value, text⟩ =
      (parserLoop strtod).run ⟨frames, .evaluation (.object
        (((key, value) :: others.map fun member => (member.1, member.2.2)).foldl
          (fun members assignment => Json.insertMember assignment.1 assignment.2 members)
          members)), rest⟩ := by
  induction others generalizing members key value text with
  | nil =>
      have found := scans_single.mp scans
      exact run_continueObject (continueObject_eq_some.mpr (Or.inl ⟨rest, found, rfl⟩))
  | cons member others ih =>
      rw [List.flatMap_cons, List.append_assoc] at scans
      obtain ⟨separated, found, keyed, foundKey, named, foundName, scans⟩ := scans
      obtain ⟨left, scansMember, scans⟩ := scans_append.mp scans
      have completesMember := completes member (by simp)
      obtain ⟨token, afterToken, foundToken, -⟩ := completesMember.exists_scan scansMember
      have entered : enterMember strtod (Json.insertMember key value members) frames
          (.valueString member.1) keyed = some ⟨.object (Json.insertMember key value members)
            member.1 :: frames, .value token, afterToken⟩ :=
        enterMember_eq_some.mpr
          ⟨member.1, named, token, afterToken, rfl, foundName, foundToken, rfl⟩
      have continued := continueObject_eq_some.mpr
        (Or.inr ⟨separated, _, keyed, found, foundKey, entered⟩)
      rw [run_continueObject continued, ← readValue_of_scan foundToken,
        completesMember.read scansMember,
        ih (fun other isOther => completes other (by simp [isOther])) scans]
      simp

theorem Derives.completes {tokens : List Token} {value : Json} (derives : Derives tokens value) :
    Completes strtod tokens value := by
  induction derives with
  | @scalar token value isScalar =>
      refine ⟨⟨token, [], rfl, by rintro rfl; simp [scalarValue] at isScalar⟩, ?_⟩
      intro frames text rest scans
      rw [readValue_of_scan (scans_single.mp scans)]
      exact run_enterValue (enterValue_eq_some.mpr (Or.inr (Or.inr ⟨value, isScalar, rfl⟩)))
  | @array items values ih =>
      refine ⟨⟨_, _, rfl, by simp⟩, ?_⟩
      rintro frames text rest ⟨left, found, scans⟩
      rw [readValue_of_scan found]
      cases items with
      | nil =>
          have ended := scans_single.mp scans
          exact run_enterValue (enterValue_eq_some.mpr
            (Or.inr (Or.inl ⟨rfl, enterArray_eq_some.mpr (Or.inl ⟨rest, ended, rfl⟩)⟩)))
      | cons item others =>
          rw [List.map_cons, intercalate_cons, List.append_assoc] at scans
          obtain ⟨afterItem, scansItem, scans⟩ := scans_append.mp scans
          have completesItem := ih item (by simp)
          obtain ⟨token, afterToken, foundToken, notEnd⟩ := completesItem.exists_scan scansItem
          have entered : enterArray strtod frames left =
              some ⟨.array [] :: frames, .value token, afterToken⟩ :=
            enterArray_eq_some.mpr (Or.inr ⟨token, afterToken, foundToken, notEnd, rfl⟩)
          rw [run_enterValue (enterValue_eq_some.mpr (Or.inr (Or.inl ⟨rfl, entered⟩))),
            ← readValue_of_scan foundToken, completesItem.read scansItem]
          refine run_items (fun other member => ih other (by simp [member])) ?_
          simpa [List.flatMap_map] using scans
  | @object members values ih =>
      refine ⟨⟨_, _, rfl, by simp⟩, ?_⟩
      rintro frames text rest ⟨left, found, scans⟩
      rw [readValue_of_scan found]
      cases members with
      | nil =>
          have ended := scans_single.mp scans
          exact run_enterValue (enterValue_eq_some.mpr
            (Or.inl ⟨rfl, enterObject_eq_some.mpr (Or.inl ⟨rest, ended, rfl⟩)⟩))
      | cons member others =>
          rw [List.map_cons, intercalate_cons, List.append_assoc] at scans
          obtain ⟨keyed, foundKey, named, foundName, scans⟩ := scans
          obtain ⟨afterMember, scansMember, scans⟩ := scans_append.mp scans
          have completesMember := ih member (by simp)
          obtain ⟨token, afterToken, foundToken, -⟩ := completesMember.exists_scan scansMember
          have entered : enterMember strtod [] frames (.valueString member.1) keyed =
              some ⟨.object [] member.1 :: frames, .value token, afterToken⟩ :=
            enterMember_eq_some.mpr
              ⟨member.1, named, token, afterToken, rfl, foundName, foundToken, rfl⟩
          rw [run_enterValue (enterValue_eq_some.mpr (Or.inl ⟨rfl,
              enterObject_eq_some.mpr (Or.inr ⟨_, keyed, foundKey, entered⟩)⟩)),
            ← readValue_of_scan foundToken, completesMember.read scansMember]
          refine run_members (fun other isOther => ih other (by simp [isOther])) ?_
          simpa [List.flatMap_map] using scans

end Complete

section Sound

variable {strtod : Bytes → Float} {result : Json × Bytes} {state middle next : State}

/-- A run that returns has read the tokens and stands at another state. -/
structure Continues (strtod : Bytes → Float) (result : Json × Bytes) (state : State)
    (tokens : List Token) (next : State) : Prop where
  scans : Scans strtod state.text tokens next.text
  returns : (parserLoop strtod).run next = some result
  smaller : next.size < state.size

theorem Continues.trans {first second : List Token}
    (before : Continues strtod result state first middle)
    (after : Continues strtod result middle second next) :
    Continues strtod result state (first ++ second) next where
  scans := scans_append.mpr ⟨middle.text, before.scans, after.scans⟩
  returns := after.returns
  smaller := after.smaller.trans before.smaller

/-- What a run that returns has still to read: the other tokens of a value, or
the other items or members of the container that is open. -/
def Explained (strtod : Bytes → Float) (result : Json × Bytes) (state : State) : Prop :=
  match state.position, state.frames with
  | .value token, frames =>
      ∃ tokens value rest, Derives (token :: tokens) value ∧
        Continues strtod result state tokens ⟨frames, .evaluation value, rest⟩
  | .evaluation value, [] => result = (value, state.text)
  | .evaluation value, .array items :: frames =>
      ∃ (others : List (List Token × Json)) (rest : Bytes),
        (∀ item ∈ others, Derives item.1 item.2) ∧
          Continues strtod result state
            ((others.flatMap fun item => .valueSeparator :: item.1) ++ [.endArray])
            ⟨frames, .evaluation (.array (items ++ value :: others.map Prod.snd)), rest⟩
  | .evaluation value, .object members key :: frames =>
      ∃ (others : List (Bytes × List Token × Json)) (rest : Bytes),
        (∀ member ∈ others, Derives member.2.1 member.2.2) ∧
          Continues strtod result state
            ((others.flatMap fun member =>
              .valueSeparator :: .valueString member.1 :: .nameSeparator :: member.2.1) ++
              [.endObject])
            ⟨frames, .evaluation (.object
              (((key, value) :: others.map fun member => (member.1, member.2.2)).foldl
                (fun members assignment => Json.insertMember assignment.1 assignment.2 members)
                members)), rest⟩

theorem exists_next {entered : Option State}
    (iterated : iterate strtod state = entered.map Sum.inl)
    (returns : (parserLoop strtod).run state = some result) :
    ∃ next, entered = some next ∧ ∀ tokens, Scans strtod state.text tokens next.text →
      Continues strtod result state tokens next := by
  cases entered with
  | none =>
      have stuck : (parserLoop strtod).run state = none := Loop.run_of_none iterated
      exact absurd (stuck.symm.trans returns) (by simp)
  | some next =>
      have same : (parserLoop strtod).run state = (parserLoop strtod).run next :=
        Loop.run_of_next iterated
      exact ⟨next, rfl, fun tokens scans => ⟨scans, same.symm.trans returns, iterate_size iterated⟩⟩

theorem explained_items
    (ih : ∀ other : State, other.size < state.size →
      (parserLoop strtod).run other = some result → Explained strtod result other)
    {items : List Json} {frames : List Frame} {token : Token} {text : Bytes} {read : List Token}
    (entered : Continues strtod result state read ⟨.array items :: frames, .value token, text⟩) :
    ∃ (tokens : List Token) (value : Json) (others : List (List Token × Json)) (rest : Bytes),
      Derives (token :: tokens) value ∧ (∀ item ∈ others, Derives item.1 item.2) ∧
        Continues strtod result state
          (read ++ tokens ++ (others.flatMap fun item => .valueSeparator :: item.1) ++ [.endArray])
          ⟨frames, .evaluation (.array (items ++ value :: others.map Prod.snd)), rest⟩ := by
  obtain ⟨tokens, value, left, derives, readsItem⟩ := ih _ entered.smaller entered.returns
  have completed := entered.trans readsItem
  obtain ⟨others, rest, derivesOthers, readsOthers⟩ := ih _ completed.smaller completed.returns
  refine ⟨tokens, value, others, rest, derives, derivesOthers, ?_⟩
  rw [List.append_assoc _ _ [Token.endArray]]
  exact completed.trans readsOthers

theorem explained_members
    (ih : ∀ other : State, other.size < state.size →
      (parserLoop strtod).run other = some result → Explained strtod result other)
    {members : List (Bytes × Json)} {key : Bytes} {frames : List Frame} {token : Token}
    {text : Bytes} {read : List Token}
    (entered : Continues strtod result state read
      ⟨.object members key :: frames, .value token, text⟩) :
    ∃ (tokens : List Token) (value : Json) (others : List (Bytes × List Token × Json))
      (rest : Bytes),
      Derives (token :: tokens) value ∧ (∀ member ∈ others, Derives member.2.1 member.2.2) ∧
        Continues strtod result state
          (read ++ tokens ++ (others.flatMap fun member =>
            .valueSeparator :: .valueString member.1 :: .nameSeparator :: member.2.1) ++
            [.endObject])
          ⟨frames, .evaluation (.object
            (((key, value) :: others.map fun member => (member.1, member.2.2)).foldl
              (fun members assignment => Json.insertMember assignment.1 assignment.2 members)
              members)), rest⟩ := by
  obtain ⟨tokens, value, left, derives, readsMember⟩ := ih _ entered.smaller entered.returns
  have completed := entered.trans readsMember
  obtain ⟨others, rest, derivesOthers, readsOthers⟩ := ih _ completed.smaller completed.returns
  refine ⟨tokens, value, others, rest, derives, derivesOthers, ?_⟩
  rw [List.append_assoc _ _ [Token.endObject]]
  exact completed.trans readsOthers

theorem explained_array
    {items : List Json} {frames : List Frame} {value : Json} {text : Bytes}
    (ih : ∀ other : State,
      other.size < State.size ⟨.array items :: frames, .evaluation value, text⟩ →
      (parserLoop strtod).run other = some result → Explained strtod result other)
    (returns : (parserLoop strtod).run ⟨.array items :: frames, .evaluation value, text⟩ =
      some result) :
    Explained strtod result ⟨.array items :: frames, .evaluation value, text⟩ := by
  obtain ⟨next, continued, continues⟩ := exists_next rfl returns
  rcases continueArray_eq_some.mp continued with
    ⟨rest, found, rfl⟩ | ⟨separated, first, rest, found, foundFirst, rfl⟩
  · exact ⟨[], rest, by simp, continues _ (scans_single.mpr found)⟩
  · have entered := continues [.valueSeparator, first]
      ⟨separated, found, scans_single.mpr foundFirst⟩
    obtain ⟨tokens, item, others, last, derives, derivesOthers, reads⟩ :=
      explained_items ih entered
    refine ⟨(first :: tokens, item) :: others, last, ?_, ?_⟩
    · exact List.forall_mem_cons.mpr ⟨derives, derivesOthers⟩
    · simpa using reads

theorem explained_object
    {members : List (Bytes × Json)} {key : Bytes} {frames : List Frame} {value : Json}
    {text : Bytes}
    (ih : ∀ other : State,
      other.size < State.size ⟨.object members key :: frames, .evaluation value, text⟩ →
      (parserLoop strtod).run other = some result → Explained strtod result other)
    (returns : (parserLoop strtod).run ⟨.object members key :: frames, .evaluation value, text⟩ =
      some result) :
    Explained strtod result ⟨.object members key :: frames, .evaluation value, text⟩ := by
  obtain ⟨next, continued, continues⟩ := exists_next rfl returns
  rcases continueObject_eq_some.mp continued with
    ⟨rest, found, rfl⟩ | ⟨separated, _, keyed, found, foundKey, entersMember⟩
  · exact ⟨[], rest, by simp, continues _ (scans_single.mpr found)⟩
  · obtain ⟨name, named, first, rest, rfl, foundName, foundFirst, rfl⟩ :=
      enterMember_eq_some.mp entersMember
    have entered := continues
      [.valueSeparator, .valueString name, .nameSeparator, first]
      ⟨separated, found, keyed, foundKey, named, foundName, scans_single.mpr foundFirst⟩
    obtain ⟨tokens, other, others, last, derives, derivesOthers, reads⟩ :=
      explained_members ih entered
    refine ⟨(name, first :: tokens, other) :: others, last, ?_, ?_⟩
    · exact List.forall_mem_cons.mpr ⟨derives, derivesOthers⟩
    · simpa using reads

theorem explained_value {frames : List Frame} {token : Token} {text : Bytes}
    (ih : ∀ other : State, other.size < State.size ⟨frames, .value token, text⟩ →
      (parserLoop strtod).run other = some result → Explained strtod result other)
    (returns : (parserLoop strtod).run ⟨frames, .value token, text⟩ = some result) :
    Explained strtod result ⟨frames, .value token, text⟩ := by
  obtain ⟨next, enters, continues⟩ := exists_next rfl returns
  rcases enterValue_eq_some.mp enters with
    ⟨rfl, entersObject⟩ | ⟨rfl, entersArray⟩ | ⟨value, isScalar, rfl⟩
  · rcases enterObject_eq_some.mp entersObject with
      ⟨rest, found, rfl⟩ | ⟨_, keyed, foundKey, entersMember⟩
    · exact ⟨_, _, rest, .noMembers, continues _ (scans_single.mpr found)⟩
    · obtain ⟨name, named, first, rest, rfl, foundName, foundFirst, rfl⟩ :=
        enterMember_eq_some.mp entersMember
      have entered := continues [.valueString name, .nameSeparator, first]
        ⟨keyed, foundKey, named, foundName, scans_single.mpr foundFirst⟩
      obtain ⟨tokens, other, others, last, derives, derivesOthers, reads⟩ :=
        explained_members ih entered
      refine ⟨_, _, last, .members name derives derivesOthers, ?_⟩
      simpa [Json.ofAssignments] using reads
  · rcases enterArray_eq_some.mp entersArray with
      ⟨rest, found, rfl⟩ | ⟨first, rest, foundFirst, -, rfl⟩
    · exact ⟨_, _, rest, .noItems, continues _ (scans_single.mpr found)⟩
    · have entered := continues [first] (scans_single.mpr foundFirst)
      obtain ⟨tokens, item, others, last, derives, derivesOthers, reads⟩ :=
        explained_items ih entered
      refine ⟨_, _, last, .items derives derivesOthers, ?_⟩
      simpa using reads
  · exact ⟨[], value, text, .scalar isScalar, continues [] rfl⟩

/-- The induction is on what a run has still to do. -/
theorem explained_of_run (returns : (parserLoop strtod).run state = some result) :
    Explained strtod result state := by
  induction size : state.size using Nat.strong_induction_on generalizing state with
  | h size' ih =>
      subst size
      replace ih (other : State) (smaller : other.size < state.size)
          (returns : (parserLoop strtod).run other = some result) :
          Explained strtod result other := ih _ smaller returns rfl
      obtain ⟨frames, position, text⟩ := state
      match position, frames, returns with
      | .value token, frames, returns => exact explained_value ih returns
      | .evaluation value, .array items :: frames, returns => exact explained_array ih returns
      | .evaluation value, .object members key :: frames, returns =>
          exact explained_object ih returns
      | .evaluation value, [], returns =>
          have completed : (parserLoop strtod).run ⟨[], .evaluation value, text⟩ =
              some (value, text) := Loop.run_of_result rfl
          exact Option.some.inj (returns.symm.trans completed)

end Sound

section Parsed

variable {strtod : Bytes → Float}

theorem Derives.endOfInput_not_mem {tokens : List Token} {value : Json}
    (derives : Derives tokens value) : .endOfInput ∉ tokens := by
  have separated {parts : List (List Token)} (without : ∀ part ∈ parts, .endOfInput ∉ part) :
      Token.endOfInput ∉ [Token.valueSeparator].intercalate parts := by
    cases parts with
    | nil => simp
    | cons first others =>
        rw [intercalate_cons, List.mem_append, List.mem_flatMap]
        rintro (member | ⟨other, isOther, member⟩)
        · exact without first (by simp) member
        · rcases List.mem_cons.mp member with isEnd | member
          · cases isEnd
          · exact without other (by simp [isOther]) member
  induction derives with
  | scalar isScalar =>
      intro member
      obtain rfl := List.mem_singleton.mp member
      simp [scalarValue] at isScalar
  | @array items values ih =>
      have items : ∀ part ∈ items.map Prod.fst, Token.endOfInput ∉ part := by
        simpa using ih
      simpa using separated items
  | @object members values ih =>
      have members : ∀ part ∈ members.map (fun member =>
          Token.valueString member.1 :: .nameSeparator :: member.2.1), Token.endOfInput ∉ part := by
        rw [List.forall_mem_map]
        intro member isMember
        simpa using ih member isMember
      simpa using separated members

theorem tokens_iff {text : Bytes} {tokens : List Token} :
    Tokens strtod text tokens ↔ .endOfInput ∉ tokens ∧
      ∃ rest left, Scans strtod text tokens rest ∧
        scan strtod rest = some (.endOfInput, left) := by
  constructor
  · intro isTokens
    induction isTokens with
    | done isSpace ended =>
        obtain ⟨left, found⟩ := @scan_end strtod _ _ isSpace ended
        exact ⟨by simp, _, left, rfl, found⟩
    | @token space lexeme rest token tokens isSpace isLexeme ends later ih =>
        obtain ⟨notMember, last, left, scans, found⟩ := ih
        refine ⟨?_, last, left, ⟨rest, isLexeme.scan isSpace ends, scans⟩, found⟩
        exact List.not_mem_cons_of_ne_of_not_mem isLexeme.ne_endOfInput.symm notMember
  · rintro ⟨notMember, rest, left, scans, found⟩
    induction tokens generalizing text with
    | nil =>
        obtain rfl := scans
        obtain ⟨space, unread, isSpace, rfl, ⟨lexeme, isLexeme, -⟩ | ⟨-, ended⟩⟩ :=
          Lexeme.of_scan found
        · exact absurd rfl isLexeme.ne_endOfInput
        · refine .done isSpace ?_
          rcases ended with ⟨rfl, -⟩ | rfl
          · exact Or.inl rfl
          · exact Or.inr ⟨left, rfl⟩
    | cons token tokens ih =>
        have notEnd := List.ne_of_not_mem_cons notMember
        obtain ⟨later, scanned, scans⟩ := scans
        obtain ⟨space, unread, isSpace, rfl, ⟨lexeme, isLexeme, rfl, ends⟩ | ⟨isEnd, -⟩⟩ :=
          Lexeme.of_scan scanned
        · exact .token isSpace isLexeme ends (ih (List.not_mem_of_not_mem_cons notMember) scans)
        · exact absurd isEnd.symm notEnd

/-- Exactly the values that the tokens of the input derive are parsed. -/
theorem parse_eq_some {input : Bytes} {value : Json} :
    parse strtod input = some value ↔
      ∃ text tokens, skipBom input = some text ∧ Tokens strtod text tokens ∧
        Derives tokens value := by
  constructor
  · intro parsed
    obtain ⟨text, skipped, parsed⟩ := Option.bind_eq_some_iff.mp parsed
    obtain ⟨⟨token, later⟩, found, parsed⟩ := Option.bind_eq_some_iff.mp parsed
    obtain ⟨⟨value', rest⟩, returns, parsed⟩ := Option.bind_eq_some_iff.mp parsed
    obtain ⟨⟨last, left⟩, ended, parsed⟩ := Option.bind_eq_some_iff.mp parsed
    cases last with
    | endOfInput =>
        obtain rfl : value' = value := Option.some.inj parsed
        obtain ⟨tokens, value, rest', derives, reads⟩ := explained_of_run returns
        have completed : (parserLoop strtod).run ⟨[], .evaluation value, rest'⟩ =
            some (value, rest') := Loop.run_of_result rfl
        obtain ⟨rfl, rfl⟩ := Prod.mk.inj (Option.some.inj (reads.returns.symm.trans completed))
        exact ⟨text, token :: tokens, skipped, tokens_iff.mpr
          ⟨derives.endOfInput_not_mem, rest, left, ⟨later, found, reads.scans⟩, ended⟩, derives⟩
    | _ => simp at parsed
  · rintro ⟨text, tokens, skipped, isTokens, derives⟩
    obtain ⟨-, rest, left, scans, ended⟩ := tokens_iff.mp isTokens
    have completes : Completes strtod tokens value := derives.completes
    obtain ⟨token, later, found, -⟩ := completes.exists_scan scans
    have returns : (parserLoop strtod).run ⟨[], .value token, later⟩ = some (value, rest) := by
      rw [← readValue_of_scan found, completes.read scans]
      exact Loop.run_of_result rfl
    simp [parse, skipped, found, returns, ended]

/-- The parser returns the one value that the grammar gives to the input, and
rejects exactly the inputs that have none. -/
theorem parse_spec (strtod : Bytes → Float) (input : Bytes) :
    match parse strtod input with
    | some value => ∃ text tokens, skipBom input = some text ∧ Tokens strtod text tokens ∧
        Derives tokens value ∧
          ∀ tokens' value', Tokens strtod text tokens' → Derives tokens' value' → value' = value
    | none => ∀ text tokens value, skipBom input = some text → Tokens strtod text tokens →
        ¬ Derives tokens value := by
  cases parsed : parse strtod input with
  | none =>
      intro text tokens value skipped isTokens derives
      have accepted : parse strtod input = some value :=
        parse_eq_some.mpr ⟨text, tokens, skipped, isTokens, derives⟩
      exact absurd (parsed.symm.trans accepted) (by simp)
  | some value =>
      obtain ⟨text, tokens, skipped, isTokens, derives⟩ := parse_eq_some.mp parsed
      refine ⟨text, tokens, skipped, isTokens, derives, ?_⟩
      intro tokens' value' isTokens' derives'
      have reparsed : parse strtod input = some value' :=
        parse_eq_some.mpr ⟨text, tokens', skipped, isTokens', derives'⟩
      exact Option.some.inj (reparsed.symm.trans parsed)

end Parsed

end UBus.Parser
