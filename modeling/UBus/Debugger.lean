import UBus.Master.Replies
import UBus.Runtime.Listener
import UBus.Runtime.Requests

/-!
# The debugger subscribes like a runtime

`echo_event` of the debugger subscribes to a topic whose type it looks up in
the master's list of events.  The type travels as an `int32_t`, so that an id of
2³¹ or more becomes a negative number in the JSON text of the request.  The
publisher reads it as a `uint32_t` again, and answers the request as it answers
that of `subscribe_event`.  Texts are passed from one program to the next as a
whole.
-/

namespace UBus

open FiniteMap

namespace UBusDebugger

/-- The query that `query_event_list` sends to the master. -/
def query : Json := Json.ofAssignments [(ascii "debug_type", .string (ascii "list_event"))]

/-- The text that `query_event_list` returns, from the text of the master's
reply. -/
def queryEventList (json : JsonLibrary) (output : Bytes) : Option Bytes := do
  let responseStruct ← json.parse output
  let response ← responseStruct.at? (ascii "response")
  let eventList ← responseStruct.at? (ascii "response_data")
  if response.isString (ascii "OK") then json.dump eventList else none

/-- What a loop over a JSON value visits. -/
def elements : Json → List Json
  | .null => []
  | .array items => items
  | .object members => members.map Prod.snd
  | value => [value]

def describes (topic : Bytes) (element : Json) : Bool :=
  (element.at? (ascii "name")).any (Json.isString topic) && element.contains (ascii "type")

/-- The loop of `echo_event`, whose last hit decides; `none` if a conversion
throws, `some none` if the topic is not found. -/
def findType (topic : Bytes) : Option Int32 → List Json → Option (Option Int32)
  | typeId, [] => some typeId
  | typeId, element :: elements =>
      if describes topic element then
        (element.int32At (ascii "type")).bind fun typeId => findType topic (some typeId) elements
      else findType topic typeId elements

/-- The subscription of a debugger called `name`. -/
def request (name topic : Bytes) (typeId : Int32) : Json :=
  Json.ofAssignments [
    (ascii "topic", .string topic),
    (ascii "type_id", .ofInt32 typeId),
    (ascii "name", .string name)]

/-- The text of the request that `echo_event` sends, if it sends one: to the
master and, once that has named the publisher, to the publisher.  The master
visits its events in `order`. -/
def echoEvent (json : JsonLibrary) (master : UBusMaster) (order : List Bytes)
    (name topic : Bytes) : Option Bytes := do
  let input ← json.dump query
  let output ← processDebugMessage json master order input
  let eventList ← queryEventList json output
  let eventListStruct ← json.parse eventList
  let found ← findType topic none (elements eventListStruct)
  let typeId ← found
  json.dump (request name topic typeId)

end UBusDebugger

theorem Json.readAs_ofAssignments {assignments : List (Bytes × Json)}
    (values : ∀ assignment ∈ assignments, assignment.2.ReadAs assignment.2) :
    (ofAssignments assignments).ReadAs (ofAssignments assignments) := by
  have general : ∀ remaining members : List (Bytes × Json),
      (∀ assignment ∈ remaining, assignment.2.ReadAs assignment.2) →
      members.Pairwise (fun first second => first.1 < second.1) →
      (∀ member ∈ members, member.2.ReadAs member.2) →
      (Json.object (remaining.foldl (fun members assignment =>
        insertMember assignment.1 assignment.2 members) members)).ReadAs
        (.object (remaining.foldl (fun members assignment =>
          insertMember assignment.1 assignment.2 members) members)) := by
    intro remaining
    induction remaining with
    | nil =>
        intro members _ sorted values
        refine .object sorted rfl ?_
        rw [List.forall₂_same]
        intro value isValue
        obtain ⟨member, isMember, rfl⟩ := List.mem_map.mp isValue
        exact values member isMember
    | cons assignment remaining ih =>
        intro members later sorted values
        refine ih _ (fun other isOther => later other (by simp [isOther]))
          (insertMember_sorted sorted) fun member isMember => ?_
        rcases insertMember_mem isMember with rfl | older
        · exact later assignment (by simp)
        · exact values member older
  exact general assignments [] values (by simp) (by simp)

namespace UBusDebugger

variable {json : JsonLibrary} {master : UBusMaster} {order : List Bytes}

theorem eventStruct_readAs (event : Announcement .event) :
    (eventStruct master event).ReadAs (eventStruct master event) := by
  apply Json.readAs_ofAssignments
  simp only [List.forall_mem_cons, List.not_mem_nil, false_implies, implies_true, and_true]
  exact ⟨.scalar trivial, .scalar trivial, .scalar trivial⟩

def listedEvents (master : UBusMaster) (order : List Bytes) : List Json :=
  order.filterMap fun name => (master.eventList.lookup name).map (eventStruct master)

/-- What the master writes is what the debugger reads. -/
theorem parse_eventList (reads : json.ReadsDocuments) (valid : master.TextsValid)
    (order : List Bytes) : ∃ input output eventList, json.dump query = some input ∧
      processDebugMessage json master order input = some output ∧
      queryEventList json output = some eventList ∧
      json.parse eventList = some (.array (listedEvents master order)) := by
  obtain ⟨input, inputEq⟩ : ∃ input, json.dump query = some input := ⟨_, rfl⟩
  obtain ⟨output, outputEq⟩ := valid.processDebugMessage json order input
  have listed : processDebugMessage json master order input =
      json.dump (listing (listedEvents master order)) := by
    have parsed : json.parse input = some query :=
      reads.roundTrips.parse_ofAssignments (by simp [Json.IsScalar]) inputEq
    rw [processDebugMessage, parsed]
    rfl
  have items : (Json.array (listedEvents master order)).ReadAs
      (.array (listedEvents master order)) := by
    refine .array (List.forall₂_same.mpr fun item isItem => ?_)
    obtain ⟨name, -, itemEq⟩ := List.mem_filterMap.mp isItem
    obtain ⟨event, -, rfl⟩ := Option.map_eq_some_iff.mp itemEq
    exact eventStruct_readAs event
  have parsed : json.parse output = some (listing (listedEvents master order)) := by
    refine reads.parse_dump (Json.readAs_ofAssignments ?_) (listed.symm.trans outputEq)
    simp only [List.forall_mem_cons, List.not_mem_nil, false_implies, implies_true, and_true]
    exact ⟨.scalar trivial, items⟩
  obtain ⟨eventList, eventListEq⟩ : ∃ eventList,
      json.dump (.array (listedEvents master order)) = some eventList := by
    have isListing : debugItems master order (.string (ascii "list_event")) =
      some (listedEvents master order) := rfl
    refine Option.isSome_iff_exists.mp (dumpJson_isSome _ _ fun text member => ?_)
    obtain ⟨item, isItem, inItem⟩ := Json.mem_itemStrings.mp member
    exact valid.debugItems isListing item isItem text inItem
  refine ⟨input, output, eventList, inputEq, outputEq, ?_, reads.parse_dump items eventListEq⟩
  rw [queryEventList, parsed]
  exact eventListEq

theorem describes_eventStruct (topic : Bytes) (event : Announcement .event) :
    describes topic (eventStruct master event) = (event.name == topic) := by
  change (event.name == topic && true) = _
  rw [Bool.and_true]

theorem int32At_eventStruct (event : Announcement .event) :
    (eventStruct master event).int32At (ascii "type") = some (UInt32.toInt32 event.types) :=
  congrArg (fun types => some (UInt32.toInt32 types)) (UInt32.toUInt32_toUInt64 event.types)

theorem findType_eq {topic : Bytes} {typeId : Int32} {start : Option Int32} {elements : List Json}
    (types : ∀ element ∈ elements, describes topic element = true →
      element.int32At (ascii "type") = some typeId)
    (found : start = some typeId ∨ ∃ element ∈ elements, describes topic element = true) :
    findType topic start elements = some (some typeId) := by
  induction elements generalizing start with
  | nil =>
      rcases found with rfl | ⟨element, isElement, -⟩
      · rfl
      · exact absurd isElement List.not_mem_nil
  | cons first elements ih =>
      have later : ∀ element ∈ elements, describes topic element = true →
          element.int32At (ascii "type") = some typeId :=
        fun element isLater => types element (List.mem_cons_of_mem _ isLater)
      by_cases hit : describes topic first = true
      · rw [findType, if_pos hit, types first List.mem_cons_self hit]
        exact ih later (Or.inl rfl)
      · rw [findType, if_neg hit]
        refine ih later (found.imp_right ?_)
        rintro ⟨element, isElement, described⟩
        rcases List.mem_cons.mp isElement with rfl | isLater
        · exact absurd described hit
        · exact ⟨element, isLater, described⟩

/-- `echo_event` asks for the registered type, as an `int32_t`. -/
theorem echoEvent_registered (reads : json.ReadsDocuments) (valid : master.TextsValid)
    (named : master.NamedAsListed) (enumerates : Enumerates order master.eventList)
    {topic : Bytes} {event : Announcement .event}
    (registered : master.eventList.lookup topic = some event) (name : Bytes) :
    echoEvent json master order name topic =
      json.dump (request name topic (UInt32.toInt32 event.types)) := by
  obtain ⟨input, output, eventList, inputEq, outputEq, eventListEq, parsed⟩ :=
    parse_eventList reads valid order
  have types : ∀ element ∈ listedEvents master order, describes topic element = true →
      element.int32At (ascii "type") = some (UInt32.toInt32 event.types) := by
    intro element isElement described
    obtain ⟨other, -, elementEq⟩ := List.mem_filterMap.mp isElement
    obtain ⟨otherEvent, listed, rfl⟩ := Option.map_eq_some_iff.mp elementEq
    rw [describes_eventStruct, beq_iff_eq, named .event other otherEvent listed] at described
    subst described
    obtain rfl := Option.some.inj (registered.symm.trans listed)
    exact int32At_eventStruct event
  have isListed : ∃ element ∈ listedEvents master order, describes topic element = true := by
    have inOrder : topic ∈ order := by
      rw [← List.mem_toFinset, enumerates.2]
      exact mem_of_lookup registered
    refine ⟨eventStruct master event, List.mem_filterMap.mpr ⟨topic, inOrder, ?_⟩, ?_⟩
    · rw [registered, Option.map_some]
    · rw [describes_eventStruct, beq_iff_eq]
      exact named .event topic event registered
  have found : findType topic none (elements (.array (listedEvents master order))) =
      some (some (UInt32.toInt32 event.types)) :=
    findType_eq types (Or.inr isListed)
  simp only [echoEvent, inputEq, outputEq, eventListEq, parsed, found, Option.bind_eq_bind,
    Option.bind_some]

theorem getInt32_parsed (value : Int32) : (Json.ofInt32 value).parsed.getInt32 = some value := by
  rw [Json.ofInt32, Json.parsed]
  split_ifs with negative
  · exact congrArg some (Int32.toInt32_toInt64 value)
  · have same : value.toInt64.toInt = value.toInt := Int32.toInt_toInt64 value
    rw [same] at negative ⊢
    have nonneg : (value.toInt.natAbs : Int) = value.toInt := by omega
    apply congrArg some
    rw [Nat.toUInt64, UInt64.toUInt32_ofNat', UInt32.toInt32_ofNat', ← Int32.ofInt_eq_ofNat,
      nonneg, Int32.ofInt_toInt]

/-- Both conversions of an integer keep its lowest 32 bits. -/
theorem getUInt32_of_getInt32 {number : Json} {value : Int32} (scalar : number.IsScalar)
    (read : number.getInt32 = some value) : number.getUInt32 = some value.toUInt32 := by
  cases number with
  | numberInteger wide =>
      obtain rfl := Option.some.inj read
      have lowest : wide.toBitVec.setWidth 32 = wide.toBitVec.signExtend 32 :=
        (BitVec.signExtend_eq_setWidth_of_le _ (by decide)).symm
      exact congrArg some (UInt32.toBitVec_inj.mp lowest)
  | numberUnsigned wide =>
      obtain rfl := Option.some.inj read
      exact congrArg some (UInt32.toUInt32_toInt32 _).symm
  | string _ => simp [Json.getInt32] at read
  | _ => exact absurd scalar id

/-- A `uint32_t` that is sent as an `int32_t` is read as it was. -/
theorem getUInt32_parsed (typeId : UInt32) :
    (Json.ofInt32 typeId.toInt32).parsed.getUInt32 = some typeId := by
  have scalar : (Json.ofInt32 typeId.toInt32).parsed.IsScalar := by
    rw [Json.ofInt32, Json.parsed]
    split_ifs <;> trivial
  rw [getUInt32_of_getInt32 scalar (getInt32_parsed _), UInt32.toUInt32_toInt32]

theorem dump_subscription_isSome (json : JsonLibrary) (name topic : Bytes) {number : Json}
    {numberText : Bytes} (dumped : json.dump number = some numberText) :
    (json.dump (Json.ofAssignments [
      (ascii "topic", .string topic), (ascii "type_id", number), (ascii "name", .string name)])
      ).isSome = ((dumpQuoted name).isSome && (dumpQuoted topic).isSome) := by
  have keys : ∃ nameKey topicKey typeKey, dumpQuoted (ascii "name") = some nameKey ∧
      dumpQuoted (ascii "topic") = some topicKey ∧ dumpQuoted (ascii "type_id") = some typeKey :=
    ⟨_, _, _, rfl, rfl, rfl⟩
  obtain ⟨nameKey, topicKey, typeKey, nameKeyEq, topicKeyEq, typeKeyEq⟩ := keys
  change (dumpJson json.dumpFloat (.object [(ascii "name", .string name),
    (ascii "topic", .string topic), (ascii "type_id", number)])).isSome = _
  change dumpJson json.dumpFloat number = some numberText at dumped
  simp only [dumpJson, dumpMembers, nameKeyEq, topicKeyEq, typeKeyEq, dumped]
  cases dumpQuoted name <;> cases dumpQuoted topic <;> rfl

end UBusDebugger

open UBusDebugger in
/-- For every registered topic, the publisher does the same with the request of
`echo_event` as with that of `subscribe_event`, and the one is sent if the other
is. -/
theorem echo_event_agrees {Object Environment : Type} {json : JsonLibrary}
    (reads : json.ReadsDocuments) {system : System}
    (reachable : (masterSystem json).Reachable system) {order : List Bytes}
    (enumerates : Enumerates order system.master.eventList) {topic : Bytes}
    {event : Announcement .event} (registered : system.master.eventList.lookup topic = some event)
    (name : Bytes) (pubList : FiniteMap Bytes PubEventInfo)
    (methodList : FiniteMap Bytes (MethodInfo Object Environment)) (environment : Environment)
    (fd : Fd) :
    ((echoEvent json system.master order name topic).map fun text =>
      listen json pubList methodList environment fd ⟨FrameType.eventSubscribe.code, text⟩) =
    (json.dump ((ApiCall.subscribeEvent topic event.types).request name)).map fun text =>
      listen json pubList methodList environment fd ⟨FrameType.eventSubscribe.code, text⟩ := by
  rw [echoEvent_registered reads (.of_reachable reachable) (.of_reachable reachable) enumerates
    registered name]
  have sameDump : (json.dump (request name topic (UInt32.toInt32 event.types))).isSome =
      (json.dump ((ApiCall.subscribeEvent topic event.types).request name)).isSome :=
    (dump_subscription_isSome json name topic rfl).trans
      (dump_subscription_isSome json name topic rfl).symm
  cases echoed : json.dump (request name topic (UInt32.toInt32 event.types)) with
  | none =>
      rw [echoed] at sameDump
      have unsent : json.dump ((ApiCall.subscribeEvent topic event.types).request name) = none :=
        Option.not_isSome_iff_eq_none.mp (by simp [← sameDump])
      rw [unsent]
  | some echoText =>
      rw [echoed] at sameDump
      obtain ⟨subscribeText, subscribed⟩ := Option.isSome_iff_exists.mp sameDump.symm
      have parsed : json.parse echoText = some (Json.ofAssignments [
          (ascii "topic", .string topic),
          (ascii "type_id", (Json.ofInt32 (UInt32.toInt32 event.types)).parsed),
          (ascii "name", .string name)]) :=
        reads.roundTrips.parse_ofAssignments (by simp [Json.IsScalar, Json.ofInt32]) echoed
      have same : subscribe json pubList fd echoText = subscribe json pubList fd subscribeText :=
        (subscribe_parsed parsed (getUInt32_parsed event.types) pubList fd).trans
          (subscribe_parsed (ApiCall.parse_request reads.roundTrips subscribed)
            (congrArg some (UInt32.toUInt32_toUInt64 event.types)) pubList fd).symm
      rw [subscribed]
      change some (Listened.handled (subscribe json pubList fd echoText).1
        [(subscribe json pubList fd echoText).2.frame]) = _
      rw [same]
      rfl

/-- The request of a runtime to advertise an event whose id does not fit an
`int32_t`. -/
def advertisingLargeId : Json :=
  Json.ofAssignments [(ascii "topic", .string (ascii "t")), (ascii "type_id", .ofUInt32 2147483659)]

/-- A topic with such an id is echoed. -/
theorem echo_event_agrees_sample : ∃ (system : System) (event : Announcement .event),
    UInt32.toNat event.types = 2147483659 ∧ ∀ (pubList : FiniteMap Bytes PubEventInfo) (fd : Fd),
      ((UBusDebugger.echoEvent .plain system.master [ascii "t"] (ascii "d")
        (ascii "t")).map fun text => listen .plain pubList
          (∅ : FiniteMap Bytes (MethodInfo Unit Unit)) () fd
          ⟨FrameType.eventSubscribe.code, text⟩) =
      (JsonLibrary.plain.dump
        ((ApiCall.subscribeEvent (ascii "t") event.types).request (ascii "d"))).map fun text =>
          listen .plain pubList (∅ : FiniteMap Bytes (MethodInfo Unit Unit)) () fd
            ⟨FrameType.eventSubscribe.code, text⟩ := by
  obtain ⟨system, run, advertised, enumerates⟩ :=
    (masterSystem .plain).exists_run_of_steps
      (Event.untilRead ++ [.request 5 .eventRegister advertisingLargeId])
      (fun system => (system.master.eventList.lookup (ascii "t")).map
          (fun event => UInt32.toNat event.types) = some 2147483659 ∧
        Enumerates [ascii "t"] system.master.eventList)
      System.started_initial (by decide +kernel)
  obtain ⟨event, registered, types⟩ := Option.map_eq_some_iff.mp advertised
  exact ⟨system, event, types, fun pubList fd => echo_event_agrees
    JsonLibrary.plain_readsDocuments ⟨_, run⟩ enumerates registered (ascii "d") pubList
    ∅ () fd⟩

end UBus
