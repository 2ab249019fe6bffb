import UBus.Method.Messages

/-!
# The listening thread

`start_listening_socket` answers the first frame on a new connection.  The
handler of a subscription catches every exception before it writes its reply.
The handler of a method call writes its reply inside the `try` block, so that
an exception also prevents the reply.
-/

namespace UBus

open FiniteMap

variable {json : JsonLibrary} {Object Environment : Type}

/-- What the listening thread does with a frame: the new `pub_list_` and the
frames it writes on the connection, unless the callback of a method throws. -/
inductive Listened where
  | callbackThrew
  | handled (pubList : FiniteMap Bytes PubEventInfo) (written : List Frame)

/-- The frames written for a call, up to the end of the `try` block. -/
def callReplies (json : JsonLibrary) (methodList : FiniteMap Bytes (MethodInfo Object Environment))
    (environment : Environment) (content : Bytes) : Option (List Frame) :=
  match dispatch json methodList content with
  | .threw => some []
  | .invalid => some [replyFrame .methodResponse SubscribeAnswer.invalid.replyText]
  | .execute _ info requestData =>
      (info.callback.callback environment (info.callback.request.deserialize requestData)).map
        fun answer =>
          match json.dump (okResponse (info.callback.response.serialize answer)) with
          | none => []
          | some text => [replyFrame .methodResponse text]

def listenedCall (json : JsonLibrary) (pubList : FiniteMap Bytes PubEventInfo)
    (methodList : FiniteMap Bytes (MethodInfo Object Environment)) (environment : Environment)
    (content : Bytes) : Listened :=
  match callReplies json methodList environment content with
  | none => .callbackThrew
  | some replies => .handled pubList replies

/-- One pass of the accept loop, once a whole frame has been read from `fd`. -/
def listen (json : JsonLibrary) (pubList : FiniteMap Bytes PubEventInfo)
    (methodList : FiniteMap Bytes (MethodInfo Object Environment)) (environment : Environment)
    (fd : Fd) (frame : Frame) : Listened :=
  match FrameType.ofCode frame.messageType with
  | some .eventSubscribe =>
      let subscribed := subscribe json pubList fd frame.data
      .handled subscribed.1 [subscribed.2.frame]
  | some .methodCall => listenedCall json pubList methodList environment frame.data
  | _ => .handled pubList []

def IsSubscription (json : JsonLibrary) (content : Bytes) : Prop :=
  ∃ requestJson name topic type, json.parse content = some requestJson ∧
    requestJson.stringAt (ascii "name") = some name ∧
    requestJson.stringAt (ascii "topic") = some topic ∧
    requestJson.uint32At (ascii "type_id") = some type

def IsCall (json : JsonLibrary) (content : Bytes) : Prop :=
  ∃ requestJson name method requestType responseType data,
    json.parse content = some requestJson ∧
    requestJson.stringAt (ascii "name") = some name ∧
    requestJson.stringAt (ascii "method") = some method ∧
    requestJson.uint32At (ascii "request_type_id") = some requestType ∧
    requestJson.uint32At (ascii "response_type_id") = some responseType ∧
    requestJson.stringAt (ascii "request_data") = some data

/-- The request leads to a callback whose response is not UTF-8, which JSON
cannot carry. -/
def Unencodable (json : JsonLibrary)
    (methodList : FiniteMap Bytes (MethodInfo Object Environment)) (environment : Environment)
    (content : Bytes) : Prop :=
  ∃ method info requestData answer,
    dispatch json methodList content = .execute method info requestData ∧
      info.callback.callback environment (info.callback.request.deserialize requestData) =
        some answer ∧
      ¬ IsUtf8 (info.callback.response.serialize answer)

/-- Unless the callback throws, one frame is written, and it says INVALID if
it has to. -/
def Listened.Proper (type : FrameType) (isInvalid : Prop) : Listened → Prop
  | .callbackThrew => True
  | .handled _ written => ∃ reply, written = [reply] ∧
      (isInvalid → reply = replyFrame type SubscribeAnswer.invalid.replyText)

/-- The content is JSON, and if it has the four fields that are looked for,
then every value that is read has the right type: the name and the method, of a
registered method the types, the second one if the first one is right, and with
both right the data, whose response is then UTF-8. -/
def ToleratedCall (json : JsonLibrary)
    (methodList : FiniteMap Bytes (MethodInfo Object Environment)) (environment : Environment)
    (content : Bytes) : Prop :=
  ∃ requestJson, json.parse content = some requestJson ∧
    ((callFields.all fun field => requestJson.contains field) = true →
      ∃ name method, requestJson.stringAt (ascii "name") = some name ∧
        requestJson.stringAt (ascii "method") = some method ∧
        ∀ info, methodList.lookup method = some info →
          ∃ requestType, requestJson.uint32At (ascii "request_type_id") = some requestType ∧
            (info.requestType = requestType →
              ∃ responseType, requestJson.uint32At (ascii "response_type_id") = some responseType ∧
                (info.responseType = responseType →
                  ∃ data, requestJson.stringAt (ascii "request_data") = some data ∧
                    ∀ answer, info.callback.callback environment
                        (info.callback.request.deserialize data) = some answer →
                      IsUtf8 (info.callback.response.serialize answer))))

theorem subscribe_of_malformed {pubList : FiniteMap Bytes PubEventInfo} {fd : Fd} {content : Bytes}
    (malformed : ¬ IsSubscription json content) :
    subscribe json pubList fd content = (pubList, .invalid) := by
  unfold subscribe
  cases parsed : json.parse content with
  | none => rfl
  | some requestJson =>
      dsimp only
      split_ifs
      · split
        next name topic type named topical typed =>
            exact absurd ⟨requestJson, name, topic, type, parsed, named, topical, typed⟩ malformed
        · rfl
      · rfl

theorem dump_okResponse_isSome_iff {data : Bytes} :
    (json.dump (okResponse data)).isSome = true ↔ IsUtf8 data := by
  have members : okResponse data = .object [(ascii "response", .string (ascii "OK")),
    (ascii "response_data", .string data)] := rfl
  have first : dumpQuoted (ascii "response") = some (ascii "\"response\"") := by decide
  have ok : dumpQuoted (ascii "OK") = some (ascii "\"OK\"") := by decide
  have second : dumpQuoted (ascii "response_data") = some (ascii "\"response_data\"") := by decide
  rw [← dumpQuoted_isSome_iff, JsonLibrary.dump, members]
  cases dumped : dumpQuoted data <;> simp [dumpJson, dumpMembers, first, ok, second, dumped]

section Calls

variable {methodList : FiniteMap Bytes (MethodInfo Object Environment)}
  {environment : Environment} {content : Bytes}

theorem proper_invalid (pubList : FiniteMap Bytes PubEventInfo) (isInvalid : Prop) :
    (Listened.handled pubList
      [replyFrame .methodResponse SubscribeAnswer.invalid.replyText]).Proper
        .methodResponse isInvalid :=
  ⟨_, rfl, fun _ => rfl⟩

theorem not_proper_nil (pubList : FiniteMap Bytes PubEventInfo) (type : FrameType)
    (isInvalid : Prop) : ¬ (Listened.handled pubList []).Proper type isInvalid := by
  rintro ⟨reply, nothing, -⟩
  cases nothing

theorem execute_proper_iff (pubList : FiniteMap Bytes PubEventInfo) {method requestData : Bytes}
    {info : MethodInfo Object Environment} (isCall : IsCall json content)
    (executes : dispatch json methodList content = .execute method info requestData) :
    (listenedCall json pubList methodList environment content).Proper .methodResponse
        (¬ IsCall json content ∨ Unencodable json methodList environment content) ↔
      ∀ answer, info.callback.callback environment
          (info.callback.request.deserialize requestData) = some answer →
        IsUtf8 (info.callback.response.serialize answer) := by
  cases ran : info.callback.callback environment
    (info.callback.request.deserialize requestData) with
  | none => simp [listenedCall, callReplies, executes, ran, Listened.Proper]
  | some answer =>
      have encodes := @dump_okResponse_isSome_iff json (info.callback.response.serialize answer)
      cases dumped : json.dump (okResponse (info.callback.response.serialize answer)) with
      | none =>
          rw [dumped] at encodes
          have notUtf8 : ¬ IsUtf8 (info.callback.response.serialize answer) :=
            fun valid => Bool.noConfusion (encodes.mpr valid)
          simp [listenedCall, callReplies, executes, ran, dumped, notUtf8, not_proper_nil]
      | some text =>
          have valid : IsUtf8 (info.callback.response.serialize answer) := by
            rw [← encodes, dumped]
            rfl
          have encodable : ¬ Unencodable json methodList environment content := by
            rintro ⟨method', info', requestData', answer', executes', ran', notUtf8⟩
            obtain ⟨-, rfl, rfl⟩ := Dispatch.execute.inj (executes.symm.trans executes')
            obtain rfl := Option.some.inj (ran.symm.trans ran')
            exact notUtf8 valid
          simp [listenedCall, callReplies, executes, ran, dumped, valid, encodable, isCall,
            Listened.Proper]

theorem dispatch_registered {requestJson : Json} {name method : Bytes}
    {info : MethodInfo Object Environment} (parsed : json.parse content = some requestJson)
    (fields : (callFields.all fun field => requestJson.contains field) = true)
    (named : requestJson.stringAt (ascii "name") = some name)
    (methodNamed : requestJson.stringAt (ascii "method") = some method)
    (found : methodList.lookup method = some info) :
    dispatch json methodList content =
      match requestJson.uint32At (ascii "request_type_id") with
      | none => .threw
      | some requestType =>
          if info.requestType ≠ requestType then .invalid
          else
            match requestJson.uint32At (ascii "response_type_id") with
            | none => .threw
            | some responseType =>
                if info.responseType ≠ responseType then .invalid
                else
                  match requestJson.stringAt (ascii "request_data") with
                  | none => .threw
                  | some requestData => .execute method info requestData := by
  cases requestTyped : requestJson.uint32At (ascii "request_type_id") <;>
    cases responseTyped : requestJson.uint32At (ascii "response_type_id") <;>
      cases dataAt : requestJson.stringAt (ascii "request_data") <;>
        simp only [dispatch, parsed, fields, if_true, named, methodNamed, found, requestTyped,
          responseTyped, dataAt]

theorem not_proper_of_threw (pubList : FiniteMap Bytes PubEventInfo)
    (threw : dispatch json methodList content = .threw) :
    ¬ (listenedCall json pubList methodList environment content).Proper .methodResponse
      (¬ IsCall json content ∨ Unencodable json methodList environment content) := by
  rw [listenedCall, callReplies, threw]
  exact not_proper_nil _ _ _

theorem proper_of_invalid (pubList : FiniteMap Bytes PubEventInfo)
    (refused : dispatch json methodList content = .invalid) :
    (listenedCall json pubList methodList environment content).Proper .methodResponse
      (¬ IsCall json content ∨ Unencodable json methodList environment content) := by
  rw [listenedCall, callReplies, refused]
  exact proper_invalid _ _

theorem registered_proper_iff (pubList : FiniteMap Bytes PubEventInfo) {requestJson : Json}
    {name method : Bytes} {info : MethodInfo Object Environment}
    (parsed : json.parse content = some requestJson)
    (fields : (callFields.all fun field => requestJson.contains field) = true)
    (named : requestJson.stringAt (ascii "name") = some name)
    (methodNamed : requestJson.stringAt (ascii "method") = some method)
    (found : methodList.lookup method = some info) :
    (listenedCall json pubList methodList environment content).Proper .methodResponse
        (¬ IsCall json content ∨ Unencodable json methodList environment content) ↔
      ∃ requestType, requestJson.uint32At (ascii "request_type_id") = some requestType ∧
        (info.requestType = requestType →
          ∃ responseType, requestJson.uint32At (ascii "response_type_id") = some responseType ∧
            (info.responseType = responseType →
              ∃ data, requestJson.stringAt (ascii "request_data") = some data ∧
                ∀ answer, info.callback.callback environment
                    (info.callback.request.deserialize data) = some answer →
                  IsUtf8 (info.callback.response.serialize answer))) := by
  have dispatched := dispatch_registered parsed fields named methodNamed found
  cases requestTyped : requestJson.uint32At (ascii "request_type_id") with
  | none =>
      rw [requestTyped] at dispatched
      exact iff_of_false (not_proper_of_threw pubList dispatched) (by simp)
  | some requestType =>
      simp only [requestTyped] at dispatched
      by_cases sameRequest : info.requestType = requestType
      case neg =>
        rw [if_pos sameRequest] at dispatched
        exact iff_of_true (proper_of_invalid pubList dispatched)
          ⟨requestType, rfl, fun same => absurd same sameRequest⟩
      rw [if_neg (not_not.mpr sameRequest)] at dispatched
      cases responseTyped : requestJson.uint32At (ascii "response_type_id") with
      | none =>
          rw [responseTyped] at dispatched
          exact iff_of_false (not_proper_of_threw pubList dispatched) (by simp [sameRequest])
      | some responseType =>
          simp only [responseTyped] at dispatched
          by_cases sameResponse : info.responseType = responseType
          case neg =>
            rw [if_pos sameResponse] at dispatched
            exact iff_of_true (proper_of_invalid pubList dispatched)
              ⟨requestType, rfl, fun _ => ⟨responseType, rfl, fun same =>
                absurd same sameResponse⟩⟩
          rw [if_neg (not_not.mpr sameResponse)] at dispatched
          cases dataAt : requestJson.stringAt (ascii "request_data") with
          | none =>
              rw [dataAt] at dispatched
              exact iff_of_false (not_proper_of_threw pubList dispatched)
                (by simp [sameRequest, sameResponse])
          | some requestData =>
              rw [dataAt] at dispatched
              have isCall : IsCall json content := ⟨requestJson, name, method, requestType,
                responseType, requestData, parsed, named, methodNamed, requestTyped,
                responseTyped, dataAt⟩
              rw [execute_proper_iff pubList isCall dispatched]
              simp [sameRequest, sameResponse]

theorem listenedCall_proper_iff (pubList : FiniteMap Bytes PubEventInfo) :
    (listenedCall json pubList methodList environment content).Proper .methodResponse
        (¬ IsCall json content ∨ Unencodable json methodList environment content) ↔
      ToleratedCall json methodList environment content := by
  unfold ToleratedCall
  cases parsed : json.parse content with
  | none =>
      refine iff_of_false (not_proper_of_threw pubList (by rw [dispatch, parsed])) (by simp)
  | some requestJson =>
      simp only [Option.some.injEq, exists_eq_left']
      by_cases fields : (callFields.all fun field => requestJson.contains field) = true
      case neg =>
        have invalid : dispatch json methodList content = .invalid := by
          simp only [dispatch, parsed, if_neg fields]
        exact iff_of_true (proper_of_invalid pubList invalid) fun present => absurd present fields
      simp only [fields, forall_const]
      cases named : requestJson.stringAt (ascii "name") with
      | none =>
          refine iff_of_false (not_proper_of_threw pubList ?_) ?_
          · simp only [dispatch, parsed, fields, if_true, named]
          · simp
      | some name =>
          cases methodNamed : requestJson.stringAt (ascii "method") with
          | none =>
              refine iff_of_false (not_proper_of_threw pubList ?_) ?_
              · simp only [dispatch, parsed, fields, if_true, named, methodNamed]
              · simp
          | some method =>
              cases found : methodList.lookup method with
              | none =>
                  refine iff_of_true (proper_of_invalid pubList ?_) ?_
                  · simp only [dispatch, parsed, fields, if_true, named, methodNamed, found]
                  · exact ⟨name, method, rfl, rfl, by simp [found]⟩
              | some info =>
                  rw [registered_proper_iff pubList parsed fields named methodNamed found]
                  simp [found]

end Calls

/-- Every subscription gets one reply, which says INVALID if the request is
malformed.  A method call does exactly if it is tolerated: any exception on the
way to its reply leaves the caller without one. -/
theorem listener_answers_iff (json : JsonLibrary) (pubList : FiniteMap Bytes PubEventInfo)
    (methodList : FiniteMap Bytes (MethodInfo Object Environment)) (environment : Environment)
    (fd : Fd) :
    (∀ content, (listen json pubList methodList environment fd
        ⟨FrameType.eventSubscribe.code, content⟩).Proper .eventSubscribe
          (¬ IsSubscription json content)) ∧
    ∀ content, ((listen json pubList methodList environment fd
        ⟨FrameType.methodCall.code, content⟩).Proper .methodResponse
          (¬ IsCall json content ∨ Unencodable json methodList environment content) ↔
      ToleratedCall json methodList environment content) := by
  constructor
  · intro content
    refine ⟨(subscribe json pubList fd content).2.frame, rfl, fun malformed => ?_⟩
    rw [subscribe_of_malformed malformed]
    rfl
  · exact fun content => listenedCall_proper_iff pubList

/-- A call whose content is no JSON gets no reply. -/
theorem listener_silent :
    let json := JsonLibrary.plain
    let methodList : FiniteMap Bytes (MethodInfo Unit Unit) := ∅
    (∀ pubList, listen json pubList methodList () 7
        ⟨FrameType.methodCall.code, ascii "x"⟩ = .handled pubList []) ∧
      ¬ (listen json ∅ methodList () 7 ⟨FrameType.methodCall.code, ascii "x"⟩).Proper
        .methodResponse
        (¬ IsCall json (ascii "x") ∨ Unencodable json methodList () (ascii "x")) := by
  intro json methodList
  have silent : ∀ pubList, listen json pubList methodList () 7
      ⟨FrameType.methodCall.code, ascii "x"⟩ = .handled pubList [] := fun _ => rfl
  refine ⟨silent, ?_⟩
  rw [silent]
  exact not_proper_nil _ _ _

end UBus
