import UBus.Json.Documents
import UBus.Master.Moves
import UBus.Runtime.Publisher
import UBus.Runtime.Requests

/-!
# What the messages say

The requests of a runtime and the replies to them are flat objects, so their
receivers read what was sent if the parser returns flat objects from their
texts.  This file says what that is for the requests about events.
-/

namespace UBus

variable {json : JsonLibrary}

namespace ApiCall

theorem parse_request (roundTrips : json.RoundTrips) {call : ApiCall} {name text : Bytes}
    (dumped : json.dump (call.request name) = some text) :
    json.parse text = some (call.request name) := by
  cases call <;>
    exact roundTrips.parse_ofAssignments
      (by simp [Json.IsScalar, Json.ofUInt32]) dumped

end ApiCall

/-- A subscription as it is sent, to the master first and then to the
publisher. -/
structure Subscription (json : JsonLibrary) where
  name : Bytes
  topic : Bytes
  type : UInt32
  text : Bytes
  dumped : json.dump ((ApiCall.subscribeEvent topic type).request name) = some text

structure Advertisement (json : JsonLibrary) where
  topic : Bytes
  type : UInt32
  text : Bytes
  dumped : json.dump ((ApiCall.advertiseEvent topic type).request []) = some text

namespace Advertisement

variable (advertisement : Advertisement json)

def frame : Frame := ⟨FrameType.eventRegister.code, advertisement.text⟩

theorem isRequest (roundTrips : json.RoundTrips) {topic : Bytes} {type : UInt32}
    (request : IsRequest json .event advertisement.text topic type) :
    topic = advertisement.topic ∧ type = advertisement.type := by
  obtain ⟨contentJson, parsed, -, topicEq, typeEq⟩ := request
  rw [ApiCall.parse_request roundTrips advertisement.dumped] at parsed
  obtain rfl := Option.some.inj parsed
  have readTopic : some topic = some advertisement.topic := topicEq.symm
  have readType : some type = some advertisement.type.toUInt64.toUInt32 := typeEq.symm
  exact ⟨Option.some.inj readTopic, by simpa using readType⟩

end Advertisement

/-- What a publisher answers to a request with these fields, whatever the
number in the third one is. -/
theorem subscribe_parsed {content topic name : Bytes} {number : Json} {type : UInt32}
    (parsed : json.parse content = some (Json.ofAssignments [
      (ascii "topic", .string topic), (ascii "type_id", number), (ascii "name", .string name)]))
    (typed : number.getUInt32 = some type) (pubList : FiniteMap Bytes PubEventInfo) (fd : Fd) :
    subscribe json pubList fd content =
      match pubList.lookup topic with
      | none => (pubList, .invalid)
      | some pubEventInfo =>
          if pubEventInfo.type ≠ type then (pubList, .invalid)
          else if name ∈ pubEventInfo.clientSocketMap then (pubList, .duplicate)
          else (pubList.insert topic { pubEventInfo with
            clientSocketMap := pubEventInfo.clientSocketMap.insert name fd }, .ok) := by
  generalize requestEq : Json.ofAssignments [(ascii "topic", .string topic),
    (ascii "type_id", number), (ascii "name", .string name)] = request at parsed
  have fields : (subscribeFields.all fun field => request.contains field) = true := by
    subst requestEq
    rfl
  have nameAt : request.stringAt (ascii "name") = some name := by
    subst requestEq
    rfl
  have topicAt : request.stringAt (ascii "topic") = some topic := by
    subst requestEq
    rfl
  have typeAt : request.uint32At (ascii "type_id") = some type := by
    subst requestEq
    exact typed
  cases found : pubList.lookup topic with
  | none => simp only [subscribe, parsed, fields, if_true, nameAt, topicAt, typeAt, found]
  | some pubEventInfo =>
      simp only [subscribe, parsed, fields, if_true, nameAt, topicAt, typeAt, found]

namespace Subscription

variable (subscription : Subscription json)

def frame : Frame := ⟨FrameType.eventSubscribe.code, subscription.text⟩

theorem subscribe_text (roundTrips : json.RoundTrips) (pubList : FiniteMap Bytes PubEventInfo)
    (fd : Fd) :
    subscribe json pubList fd subscription.text =
      match pubList.lookup subscription.topic with
      | none => (pubList, .invalid)
      | some pubEventInfo =>
          if pubEventInfo.type ≠ subscription.type then (pubList, .invalid)
          else if subscription.name ∈ pubEventInfo.clientSocketMap then (pubList, .duplicate)
          else (pubList.insert subscription.topic { pubEventInfo with
            clientSocketMap := pubEventInfo.clientSocketMap.insert subscription.name fd }, .ok) :=
  subscribe_parsed (ApiCall.parse_request roundTrips subscription.dumped)
    (congrArg some (UInt32.toUInt32_toUInt64 subscription.type)) pubList fd

end Subscription

/-- Only the subscriber that the publisher records is new in its table. -/
theorem subscription_recorded (roundTrips : json.RoundTrips) (subscription : Subscription json)
    {pubList : FiniteMap Bytes PubEventInfo} {linkFd : Fd} {topic : Bytes}
    {pubEventInfo : PubEventInfo}
    (listed : (subscribe json pubList linkFd subscription.text).1.lookup topic =
      some pubEventInfo) :
    ∃ before, pubList.lookup topic = some before ∧ before.type = pubEventInfo.type ∧
      ∀ name socket, pubEventInfo.clientSocketMap.lookup name = some socket →
        before.clientSocketMap.lookup name = some socket ∨
          socket = linkFd ∧ name = subscription.name ∧ topic = subscription.topic ∧
            pubEventInfo.type = subscription.type ∧
              (subscribe json pubList linkFd subscription.text).2 = .ok := by
  rw [subscription.subscribe_text roundTrips] at listed ⊢
  split at listed
  · exact ⟨pubEventInfo, listed, rfl, fun _ _ => Or.inl⟩
  · rename_i before found
    split_ifs at listed with wrongType duplicate
    · exact ⟨pubEventInfo, listed, rfl, fun _ _ => Or.inl⟩
    · exact ⟨pubEventInfo, listed, rfl, fun _ _ => Or.inl⟩
    · rw [FiniteMap.lookup_insert] at listed
      split_ifs at listed with same
      · obtain rfl := Option.some.inj listed
        subst same
        refine ⟨before, found, rfl, fun name socket recorded => ?_⟩
        rw [FiniteMap.lookup_insert] at recorded
        split_ifs at recorded with isNew
        · exact Or.inr ⟨(Option.some.inj recorded).symm, isNew, rfl, not_not.mp wrongType,
            by rw [if_neg wrongType, if_neg duplicate]⟩
        · exact Or.inl recorded
      · exact ⟨pubEventInfo, listed, rfl, fun _ _ => Or.inl⟩

theorem subscribe_types (json : JsonLibrary) (pubList : FiniteMap Bytes PubEventInfo) (fd : Fd)
    (content topic : Bytes) :
    ((subscribe json pubList fd content).1.lookup topic).map PubEventInfo.type =
      (pubList.lookup topic).map PubEventInfo.type := by
  unfold subscribe
  split
  · rfl
  · split
    · split
      · split
        · rfl
        · rename_i found
          split_ifs
          · rfl
          · rfl
          · rw [FiniteMap.lookup_insert]
            split_ifs with same
            · rw [same, found]
              rfl
            · rfl
      · rfl
    · rfl

def saysOk (json : JsonLibrary) (content : Bytes) : Bool :=
  ((json.parse content).bind (Json.at? (ascii "response"))).any (Json.isString (ascii "OK"))

theorem saysOk_reply (roundTrips : json.RoundTrips) {answer : SubscribeAnswer} {frame : Frame}
    (replied : json.reply (response answer.text) = some frame) :
    saysOk json frame.data = true ↔ answer = .ok := by
  have replyEq : json.reply (response answer.text) =
      some (replyFrame .unknown answer.replyText) := by
    rw [JsonLibrary.reply, SubscribeAnswer.dump_response]
    rfl
  obtain rfl := Option.some.inj (replied.symm.trans replyEq)
  have whole : (replyFrame .unknown answer.replyText).data = answer.replyText := by
    cases answer <;> decide
  have parsed := roundTrips.parse_ofAssignments
    (by simp [Json.IsScalar]) (SubscribeAnswer.dump_response json answer)
  rw [whole, saysOk, parsed]
  cases answer <;> decide

end UBus
