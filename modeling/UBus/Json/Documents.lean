import UBus.Json

/-!
# What the protocols rely on

The messages of the bus are flat objects, whose members are strings and
integers, and a listing of the master is an array of objects inside an object.
A parser that is given the text of such a document returns the document, in
which integers that are not negative have become unsigned.
-/

namespace UBus

namespace Json

def IsScalar : Json → Prop
  | .string _ | .numberInteger _ | .numberUnsigned _ => True
  | _ => False

/-- A scalar as the parser returns it: an integer is unsigned unless it is
negative. -/
def parsed : Json → Json
  | .numberInteger value =>
      if value.toInt < 0 then .numberInteger value
      else .numberUnsigned value.toInt.natAbs.toUInt64
  | value => value

def IsFlat (members : List (Bytes × Json)) : Prop :=
  members.Pairwise (fun first second => first.1 < second.1) ∧ ∀ member ∈ members, member.2.IsScalar

def parsedMembers (members : List (Bytes × Json)) : List (Bytes × Json) :=
  members.map fun member => (member.1, member.2.parsed)

/-- A document, and what the parser makes of it: integers that are not negative
become unsigned.  Floating-point numbers, booleans and null are left out. -/
inductive ReadAs : Json → Json → Prop
  | scalar {value : Json} (isScalar : value.IsScalar) : ReadAs value value.parsed
  | array {items results : List Json} (values : List.Forall₂ ReadAs items results) :
      ReadAs (.array items) (.array results)
  | object {members results : List (Bytes × Json)}
      (sorted : members.Pairwise fun first second => first.1 < second.1)
      (keys : members.map Prod.fst = results.map Prod.fst)
      (values : List.Forall₂ ReadAs (members.map Prod.snd) (results.map Prod.snd)) :
      ReadAs (.object members) (.object results)

theorem readAs_of_isFlat {members : List (Bytes × Json)} (flat : IsFlat members) :
    ReadAs (.object members) (.object (parsedMembers members)) := by
  refine .object flat.1 (by simp [parsedMembers]) ?_
  rw [parsedMembers, List.map_map, List.forall₂_map_left_iff, List.forall₂_map_right_iff,
    List.forall₂_same]
  exact fun member isMember => .scalar (flat.2 member isMember)

end Json

structure JsonLibrary.RoundTrips (json : JsonLibrary) : Prop where
  parse_dump : ∀ {members text}, Json.IsFlat members → json.dump (.object members) = some text →
    json.parse text = some (.object (Json.parsedMembers members))

structure JsonLibrary.ReadsDocuments (json : JsonLibrary) : Prop where
  parse_dump : ∀ {value result text}, value.ReadAs result → json.dump value = some text →
    json.parse text = some result

theorem JsonLibrary.ReadsDocuments.roundTrips {json : JsonLibrary} (reads : json.ReadsDocuments) :
    json.RoundTrips where
  parse_dump flat dumped := reads.parse_dump (Json.readAs_of_isFlat flat) dumped

theorem insertMember_last {key : Bytes} {value : Json} {members : List (Bytes × Json)}
    (last : ∀ member ∈ members, member.1 < key) :
    Json.insertMember key value members = members ++ [(key, value)] := by
  induction members with
  | nil => rfl
  | cons member members ih =>
      have before := last member (by simp)
      have notSame : key ≠ member.1 := by
        intro same
        exact List.lt_irrefl _ (same ▸ before)
      have notBefore : ¬ key < member.1 := List.lt_asymm before
      rw [Json.insertMember, if_neg notSame, if_neg notBefore,
        ih fun other isMember => last other (by simp [isMember])]
      rfl

/-- Assigning the members of an object in order builds it again. -/
theorem ofAssignments_of_sorted {members : List (Bytes × Json)}
    (sorted : members.Pairwise fun first second => first.1 < second.1) :
    Json.ofAssignments members = .object members := by
  have general : ∀ later earlier : List (Bytes × Json),
      (earlier ++ later).Pairwise (fun first second => first.1 < second.1) →
      later.foldl (fun members assignment =>
        Json.insertMember assignment.1 assignment.2 members) earlier = earlier ++ later := by
    intro later
    induction later with
    | nil => simp
    | cons member later ih =>
        intro earlier sorted
        have last : ∀ other ∈ earlier, other.1 < member.1 := fun other isEarlier =>
          (List.pairwise_append.mp sorted).2.2 other isEarlier member (by simp)
        rw [List.foldl_cons, insertMember_last last,
          ih _ (by simpa using sorted), List.append_assoc, List.singleton_append]
  exact congrArg Json.object (general members [] sorted)

theorem insertMember_mem {key : Bytes} {value : Json} {members : List (Bytes × Json)}
    {member : Bytes × Json} (isMember : member ∈ Json.insertMember key value members) :
    member = (key, value) ∨ member ∈ members := by
  induction members with
  | nil => simpa [Json.insertMember] using isMember
  | cons other members ih =>
      obtain ⟨key', value'⟩ := other
      simp only [Json.insertMember] at isMember
      split_ifs at isMember with same before
      · rcases List.mem_cons.mp isMember with rfl | later
        · exact Or.inl rfl
        · exact Or.inr (List.mem_cons_of_mem _ later)
      · exact (List.mem_cons.mp isMember).imp_right id
      · rcases List.mem_cons.mp isMember with rfl | later
        · exact Or.inr (by simp)
        · exact (ih later).imp_right (List.mem_cons_of_mem _)

theorem insertMember_sorted {key : Bytes} {value : Json} {members : List (Bytes × Json)}
    (sorted : members.Pairwise fun first second => first.1 < second.1) :
    (Json.insertMember key value members).Pairwise fun first second => first.1 < second.1 := by
  induction members with
  | nil => simp [Json.insertMember]
  | cons other members ih =>
      obtain ⟨key', value'⟩ := other
      obtain ⟨first, later⟩ := List.pairwise_cons.mp sorted
      simp only [Json.insertMember]
      split_ifs with same before
      · subst same
        exact List.pairwise_cons.mpr ⟨first, later⟩
      · refine List.pairwise_cons.mpr ⟨fun member isMember => ?_, sorted⟩
        rcases List.mem_cons.mp isMember with rfl | isLater
        · exact before
        · exact List.lt_trans before (first member isLater)
      · refine List.pairwise_cons.mpr ⟨fun member isMember => ?_, ih later⟩
        rcases insertMember_mem isMember with rfl | isLater
        · by_contra notAfter
          exact same (List.le_antisymm (List.not_lt.mp notAfter) (List.not_lt.mp before))
        · exact first member isLater

theorem parsedMembers_insertMember (key : Bytes) (value : Json) (members : List (Bytes × Json)) :
    Json.parsedMembers (Json.insertMember key value members) =
      Json.insertMember key value.parsed (Json.parsedMembers members) := by
  induction members with
  | nil => rfl
  | cons other members ih =>
      obtain ⟨key', value'⟩ := other
      simp only [Json.insertMember, Json.parsedMembers, List.map_cons] at ih ⊢
      split_ifs with same before
      · rfl
      · rfl
      · rw [List.map_cons, ih]

theorem ofAssignments_flat {assignments : List (Bytes × Json)}
    (scalars : ∀ assignment ∈ assignments, assignment.2.IsScalar) :
    ∃ members, Json.ofAssignments assignments = .object members ∧ Json.IsFlat members ∧
      Json.ofAssignments (Json.parsedMembers assignments) =
        .object (Json.parsedMembers members) := by
  have general : ∀ remaining members : List (Bytes × Json),
      (∀ assignment ∈ remaining, assignment.2.IsScalar) → Json.IsFlat members →
      Json.IsFlat (remaining.foldl (fun members assignment =>
        Json.insertMember assignment.1 assignment.2 members) members) ∧
      (Json.parsedMembers remaining).foldl (fun members assignment =>
        Json.insertMember assignment.1 assignment.2 members) (Json.parsedMembers members) =
      Json.parsedMembers (remaining.foldl (fun members assignment =>
        Json.insertMember assignment.1 assignment.2 members) members) := by
    intro remaining
    induction remaining with
    | nil => exact fun members _ flat => ⟨flat, rfl⟩
    | cons assignment remaining ih =>
        intro members scalars flat
        have inserted : Json.IsFlat (Json.insertMember assignment.1 assignment.2 members) := by
          refine ⟨insertMember_sorted flat.1, fun member isMember => ?_⟩
          rcases insertMember_mem isMember with rfl | older
          · exact scalars assignment (by simp)
          · exact flat.2 member older
        have later := ih _ (fun other isOther => scalars other (by simp [isOther])) inserted
        rwa [parsedMembers_insertMember] at later
  obtain ⟨flat, parsedEq⟩ := general assignments [] scalars ⟨by simp, by simp⟩
  exact ⟨_, rfl, flat, congrArg Json.object parsedEq⟩

theorem JsonLibrary.RoundTrips.parse_ofAssignments {json : JsonLibrary}
    (roundTrips : json.RoundTrips) {assignments : List (Bytes × Json)} {text : Bytes}
    (scalars : ∀ assignment ∈ assignments, assignment.2.IsScalar)
    (dumped : json.dump (Json.ofAssignments assignments) = some text) :
    json.parse text = some (Json.ofAssignments (Json.parsedMembers assignments)) := by
  obtain ⟨members, objectEq, flat, parsedEq⟩ := ofAssignments_flat scalars
  rw [parsedEq]
  exact roundTrips.parse_dump flat (objectEq ▸ dumped)

end UBus
