import UBus.Message
import UBus.Network.Messages

/-!
# The messages of a method call

`call_method` asks the master who provides a method, connects to that runtime
and sends it the serialized argument.  The listening thread of the provider
checks the types, runs the callback and sends back its serialized response.
This file models what the three parties make of each other's texts.
-/

namespace UBus

variable {json : JsonLibrary} {Object Environment : Type}

/-- `MethodCallbackHolder<RequestT, ResponseT>`.  What the callback fills in may
depend on anything around it, and it throws if there is no response. -/
structure MethodCallbackHolder (Object Environment : Type) where
  request : Message Object
  response : Message Object
  callback : Environment → Object → Option Object

/-- `MethodInfo`, without the method, which is its key in `method_list_`. -/
structure MethodInfo (Object Environment : Type) where
  requestType : UInt32
  responseType : UInt32
  callback : MethodCallbackHolder Object Environment

/-- The entry that `provide_method` makes. -/
def MethodInfo.ofCallback (callback : MethodCallbackHolder Object Environment) :
    MethodInfo Object Environment where
  requestType := callback.request.id
  responseType := callback.response.id
  callback := callback

/-- What `call_method` is called with.  The response is there for its class;
what it contains before the call does not matter. -/
structure MethodCall (Object : Type) where
  method : Bytes
  argument : Object
  request : Message Object
  response : Message Object

namespace Json

/-- `get<int32_t>()`, where a floating-point number saturates as in
`getUInt32`. -/
def getInt32 : Json → Option Int32
  | .boolean value => some (if value then 1 else 0)
  | .numberInteger value => some value.toInt32
  | .numberUnsigned value => some value.toUInt32.toInt32
  | .numberFloat value => some value.toInt32
  | _ => none

/-- `at(key).get<int32_t>()`. -/
def int32At (key : Bytes) (value : Json) : Option Int32 :=
  (value.at? key).bind getInt32

end Json

def providerFields : List Bytes :=
  [ascii "provider_ip", ascii "provider_port", ascii "provider_name"]

/-- The reply of the master, if the call goes on after it. -/
def confirmation (json : JsonLibrary) (content : Bytes) : Option Json :=
  (json.parse content).filter fun responseJson =>
    (responseJson.at? (ascii "response")).any (Json.isString (ascii "OK")) &&
      providerFields.all fun field => responseJson.contains field

/-- The port that the call connects to, cut to 16 bits by `htons`. -/
def providerPort (responseJson : Json) : Option UInt16 := do
  let port ← responseJson.int32At (ascii "provider_port")
  let _ ← responseJson.stringAt (ascii "provider_ip")
  return port.toUInt32.toUInt16

namespace MethodCall

/-- `method_req_json` of a runtime called `name`. -/
def callJson (name : Bytes) (call : MethodCall Object) : Json :=
  Json.ofAssignments [
    (ascii "method", .string call.method),
    (ascii "request_type_id", .ofUInt32 call.request.id),
    (ascii "response_type_id", .ofUInt32 call.response.id),
    (ascii "name", .string name),
    (ascii "request_data", .string (call.request.serialize call.argument))]

end MethodCall

def callFields : List Bytes :=
  [ascii "method", ascii "request_type_id", ascii "response_type_id", ascii "request_data"]

inductive Dispatch (Object Environment : Type) where
  | threw
  | invalid
  | execute (method : Bytes) (info : MethodInfo Object Environment) (requestData : Bytes)

/-- The `try` block of `FRAME_METHOD_CALL` up to the callback.  The second type
is only read if the first one is right.  The name is read as an operand of a
log macro; its header is not in the repository and is taken to evaluate its
operands. -/
def dispatch (json : JsonLibrary) (methodList : FiniteMap Bytes (MethodInfo Object Environment))
    (content : Bytes) : Dispatch Object Environment :=
  match json.parse content with
  | none => .threw
  | some resqJson =>
      if callFields.all fun field => resqJson.contains field then
        match resqJson.stringAt (ascii "name"), resqJson.stringAt (ascii "method") with
        | some _, some method =>
            match methodList.lookup method with
            | none => .invalid
            | some info =>
                match resqJson.uint32At (ascii "request_type_id") with
                | none => .threw
                | some requestType =>
                    if info.requestType ≠ requestType then .invalid
                    else
                      match resqJson.uint32At (ascii "response_type_id") with
                      | none => .threw
                      | some responseType =>
                          if info.responseType ≠ responseType then .invalid
                          else
                            match resqJson.stringAt (ascii "request_data") with
                            | none => .threw
                            | some requestData => .execute method info requestData
        | _, _ => .threw
      else .invalid

def okResponse (responseData : Bytes) : Json :=
  Json.ofAssignments [
    (ascii "response", .string (ascii "OK")),
    (ascii "response_data", .string responseData)]

/-- What the caller hands to `response->deserialize`; on `none` the call
returns false. -/
def responseData (json : JsonLibrary) (frame : Frame) : Option Bytes :=
  if frame.messageType = FrameType.methodResponse.code then
    ((json.parse frame.data).filter fun responseJson =>
      (responseJson.at? (ascii "response")).any (Json.isString (ascii "OK"))).bind
        (Json.stringAt (ascii "response_data"))
  else none

namespace MethodCall

/-- What a provider makes of a call: it looks only at the method and the two
types, and reads the argument as it was serialized. -/
theorem dispatch_text (roundTrips : json.RoundTrips) {call : MethodCall Object} {name text : Bytes}
    (dumped : json.dump (call.callJson name) = some text)
    (methodList : FiniteMap Bytes (MethodInfo Object Environment)) :
    dispatch json methodList text =
      match methodList.lookup call.method with
      | none => .invalid
      | some info =>
          if info.requestType ≠ call.request.id then .invalid
          else if info.responseType ≠ call.response.id then .invalid
          else .execute call.method info (call.request.serialize call.argument) := by
  have parsed : json.parse text = some (call.callJson name) :=
    roundTrips.parse_ofAssignments (by simp [Json.IsScalar, Json.ofUInt32]) dumped
  generalize contentEq : call.callJson name = content at parsed
  have fields : (callFields.all fun field => content.contains field) = true := by
    subst contentEq
    rfl
  have nameAt : content.stringAt (ascii "name") = some name := by
    subst contentEq
    rfl
  have methodAt : content.stringAt (ascii "method") = some call.method := by
    subst contentEq
    rfl
  have requestType : content.uint32At (ascii "request_type_id") = some call.request.id := by
    subst contentEq
    exact congrArg some (UInt32.toUInt32_toUInt64 call.request.id)
  have responseType : content.uint32At (ascii "response_type_id") = some call.response.id := by
    subst contentEq
    exact congrArg some (UInt32.toUInt32_toUInt64 call.response.id)
  have dataAt : content.stringAt (ascii "request_data") =
      some (call.request.serialize call.argument) := by
    subst contentEq
    rfl
  simp only [dispatch, parsed, fields, if_true, nameAt, methodAt, requestType, responseType, dataAt]

end MethodCall

theorem replyFrame_data {type : FrameType} {value : Json} {text : Bytes}
    (dumped : json.dump value = some text) (short : text.length < 2 ^ 32) :
    (replyFrame type text).data = text := by
  have nulFree : 0 ∉ text := dumpJson_nulFree json.dumpFloat_nulFree dumped
  rw [replyFrame, strncpy_of_nulFree nulFree le_rfl, List.take_length,
    Nat.mod_eq_of_lt short, List.take_length]

theorem responseData_replyFrame {value : Json} {text : Bytes}
    (dumped : json.dump value = some text) (short : text.length < 2 ^ 32)
    (parsed : json.parse text = some value) :
    responseData json (replyFrame .methodResponse text) =
      if (value.at? (ascii "response")).any (Json.isString (ascii "OK")) then
        value.stringAt (ascii "response_data")
      else none := by
  have isResponse : (replyFrame .methodResponse text).messageType =
    FrameType.methodResponse.code := rfl
  rw [responseData, if_pos isResponse, replyFrame_data dumped short, parsed, Option.filter_some]
  split_ifs <;> rfl

theorem responseData_ok (roundTrips : json.RoundTrips) {serialized text : Bytes}
    (dumped : json.dump (okResponse serialized) = some text) (short : text.length < 2 ^ 32) :
    responseData json (replyFrame .methodResponse text) = some serialized := by
  have parsed : json.parse text = some (okResponse serialized) :=
    roundTrips.parse_ofAssignments (by simp [Json.IsScalar]) dumped
  rw [responseData_replyFrame dumped short parsed]
  rfl

theorem responseData_invalid (roundTrips : json.RoundTrips) :
    responseData json (replyFrame .methodResponse SubscribeAnswer.invalid.replyText) = none := by
  have dumped : json.dump (response "INVALID") = some SubscribeAnswer.invalid.replyText :=
    SubscribeAnswer.dump_response json .invalid
  have parsed : json.parse SubscribeAnswer.invalid.replyText = some (response "INVALID") :=
    roundTrips.parse_ofAssignments (by simp [Json.IsScalar]) dumped
  rw [responseData_replyFrame dumped (by decide) parsed]
  rfl

end UBus
