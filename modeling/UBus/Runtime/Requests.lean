import UBus.Frame
import UBus.Json

/-!
# Requests of a runtime

Four API calls of `UBusRuntime` start with a request to the master on the
control connection.  They build a JSON object, dump it, and write a header and
the text as two separate `writen` calls.  Each call copies and measures the
text in its own way, which this file keeps.
-/

namespace UBus

inductive ApiCall where
  | advertiseEvent (topic : Bytes) (typeId : UInt32)
  | subscribeEvent (topic : Bytes) (typeId : UInt32)
  | provideMethod (method : Bytes) (requestTypeId responseTypeId : UInt32)
  | callMethod (method : Bytes) (requestTypeId responseTypeId : UInt32)

namespace ApiCall

/-- The `message_type` of the request. -/
def messageType : ApiCall → FrameType
  | advertiseEvent .. => .eventRegister
  | subscribeEvent .. => .eventSubscribe
  | provideMethod .. => .methodProvide
  | callMethod .. => .methodQuery

/-- The JSON object a runtime called `name` sends. -/
def request (name : Bytes) : ApiCall → Json
  | advertiseEvent topic typeId => Json.ofAssignments [
      (ascii "topic", .string topic),
      (ascii "type_id", .ofUInt32 typeId)]
  | subscribeEvent topic typeId => Json.ofAssignments [
      (ascii "topic", .string topic),
      (ascii "type_id", .ofUInt32 typeId),
      (ascii "name", .string name)]
  | provideMethod method requestTypeId responseTypeId => Json.ofAssignments [
      (ascii "method", .string method),
      (ascii "request_type_id", .ofUInt32 requestTypeId),
      (ascii "response_type_id", .ofUInt32 responseTypeId)]
  | callMethod method requestTypeId responseTypeId => Json.ofAssignments [
      (ascii "method", .string method),
      (ascii "request_type_id", .ofUInt32 requestTypeId),
      (ascii "response_type_id", .ofUInt32 responseTypeId),
      (ascii "name", .string name)]

/-- The bytes of the body write.  `subscribe_event` writes the size of the
text, the others the 32-bit size in the header. -/
def bodyBytes (text : Bytes) : ApiCall → Bytes
  | advertiseEvent .. => strncpy text (text.length % 2 ^ 32)
  | subscribeEvent .. => strncpy text text.length
  | provideMethod .. => (strncpy text text.length).take (text.length % 2 ^ 32)
  | callMethod .. => (strncpy text text.length).take (text.length % 2 ^ 32)

theorem bodyBytes_of_short {text : Bytes} (nulFree : 0 ∉ text)
    (short : text.length < 2 ^ 32) (call : ApiCall) : call.bodyBytes text = text := by
  have size : text.length % 2 ^ 32 = text.length := Nat.mod_eq_of_lt short
  cases call <;> simp only [bodyBytes, size, strncpy_of_nulFree nulFree le_rfl, List.take_length]

end ApiCall

/-- A request that reaches the connection: its JSON object can be dumped (a
call whose `dump` throws writes nothing), and its header has some padding. -/
structure SentRequest (json : JsonLibrary) (name : Bytes) where
  call : ApiCall
  padding : Padding
  text : Bytes
  dumped : json.dump (call.request name) = some text

namespace SentRequest

variable {json : JsonLibrary} {name : Bytes} (request : SentRequest json name)

def frame : Frame := ⟨request.call.messageType.code, request.text⟩

def header : Bytes :=
  headerBytes request.call.messageType.code request.padding request.text.length

def body : Bytes := request.call.bodyBytes request.text

theorem text_nulFree : 0 ∉ request.text :=
  dumpJson_nulFree json.dumpFloat_nulFree request.dumped

theorem text_head : ∃ rest, request.text = 123 :: rest := by
  have dumped := request.dumped
  generalize request.call = call at dumped
  cases call <;> exact dumpJson_object_head dumped

theorem body_of_short (short : request.text.length < 2 ^ 32) : request.body = request.text :=
  request.call.bodyBytes_of_short request.text_nulFree short

theorem isWireFrame (short : request.text.length < 2 ^ 32) :
    IsWireFrame request.frame (request.header ++ request.body) :=
  ⟨short, request.padding, by rw [request.body_of_short short]; rfl⟩

end SentRequest

end UBus
