import UBus.Frame
import UBus.Master.State

/-!
# The message handlers of the master

`accept_new_connection` handles the first frame of a connection and catches
the exceptions of the JSON library.  `process_control_message` handles all
later frames and catches nothing: an exception there ends the master, and so
does the use of a null participant.  Buffers are as large as the frames ask.
-/

namespace UBus

structure SocketAddress where
  address : UInt8 × UInt8 × UInt8 × UInt8
  port : UInt16

def inetNtoa (address : UInt8 × UInt8 × UInt8 × UInt8) : Bytes :=
  decimal address.1.toNat ++ ascii "." ++ decimal address.2.1.toNat ++ ascii "." ++
    decimal address.2.2.1.toNat ++ ascii "." ++ decimal address.2.2.2.toNat

/-- The frame carrying the dump of a response.  Its type stays at the default
of `FrameHeader`. -/
def JsonLibrary.reply (json : JsonLibrary) (response : Json) : Option Frame :=
  (json.dump response).map (replyFrame .unknown)

inductive Handled where
  | replied (master : UBusMaster) (reply : Frame)
  | silent (master : UBusMaster)
  | threw
  | crashed

def respond (json : JsonLibrary) (master : UBusMaster) (value : Json) : Handled :=
  match json.reply value with
  | none => .threw
  | some reply => .replied master reply

namespace Kind

def nameField : Kind → Bytes
  | event => ascii "topic"
  | method => ascii "method"

def requiredFields : Kind → List Bytes
  | event => [ascii "topic", ascii "type_id"]
  | method => [ascii "method", ascii "request_type_id", ascii "response_type_id"]

def hasFields (kind : Kind) (content : Json) : Bool :=
  kind.requiredFields.all fun field => content.contains field

/-- The type ids of a request; `none` if a conversion throws. -/
def typesAt : (kind : Kind) → Json → Option kind.TypeIds
  | event, content => content.uint32At (ascii "type_id")
  | method, content => do
      return (← content.uint32At (ascii "request_type_id"),
        ← content.uint32At (ascii "response_type_id"))

/-- The reply that tells a runtime where to find a publisher.  The port goes
through an `int32_t`. -/
def found : Kind → UBusParticipantInfo → Json
  | event, publisher => Json.ofAssignments [
      (ascii "response", .string (ascii "OK")),
      (ascii "publisher_ip", .string publisher.listeningIp),
      (ascii "publisher_port", .ofInt32 publisher.listeningPort.toInt32),
      (ascii "publisher_name", .string publisher.name)]
  | method, provider => Json.ofAssignments [
      (ascii "response", .string (ascii "OK")),
      (ascii "provider_ip", .string provider.listeningIp),
      (ascii "provider_port", .ofInt32 provider.listeningPort.toInt32),
      (ascii "provider_name", .string provider.name)]

end Kind

/-- The handler shared by `FRAME_EVENT_REGISTER` and `FRAME_METHOD_PROVIDE`. -/
def announceRequest (kind : Kind) (json : JsonLibrary) (master : UBusMaster) (fd : Fd)
    (content : Bytes) : Handled :=
  match json.parse content with
  | none => .threw
  | some contentJson =>
      if ¬ kind.hasFields contentJson then respond json master (response "INVALID")
      else
        match contentJson.stringAt kind.nameField with
        | none => .threw
        | some name =>
            if name ∈ master.announcements kind then respond json master (response "DUPLICATE")
            else
              match kind.typesAt contentJson with
              | none => .threw
              | some types =>
                  -- `operator[]` would create a null entry, which is used at once
                  match master.socketParticipantMapping.lookup fd with
                  | some (some publisher) =>
                      respond json (master.announce kind name types publisher) (response "OK")
                  | _ => .crashed

/-- The handler shared by `FRAME_EVENT_SUBSCRIBE` and `FRAME_METHOD_QUERY`. -/
def lookupRequest (kind : Kind) (json : JsonLibrary) (master : UBusMaster)
    (content : Bytes) : Handled :=
  match json.parse content with
  | none => .threw
  | some contentJson =>
      if ¬ kind.hasFields contentJson then respond json master (response "INVALID")
      else
        match contentJson.stringAt kind.nameField with
        | none => .threw
        | some name =>
            match (master.announcements kind).lookup name with
            | none => respond json master (response "NOT_PUBLISHED")
            | some announcement =>
                respond json master (kind.found (master.participants announcement.publisher))

def frameEventRegister := announceRequest .event

def frameMethodProvide := announceRequest .method

def frameEventSubscribe := lookupRequest .event

def frameMethodQuery := lookupRequest .method

def frameKeepAlive (master : UBusMaster) (fd : Fd) : Handled :=
  match master.socketParticipantMapping.lookup fd with
  | some (some participant) => .silent (master.setWatchdog participant 0)
  | _ => .crashed

def eventStruct (master : UBusMaster) (event : Announcement .event) : Json :=
  Json.ofAssignments [
    (ascii "name", .string event.name),
    (ascii "type", .ofUInt32 event.types),
    (ascii "publisher", .string (master.participants event.publisher).name)]

def participantStruct (participant : UBusParticipantInfo) : Json :=
  Json.ofAssignments [
    (ascii "name", .string participant.name),
    (ascii "ip", .string participant.ip),
    (ascii "port", .ofUInt32 participant.port),
    (ascii "listening_ip", .string participant.listeningIp),
    (ascii "listening_port", .ofUInt32 participant.listeningPort)]

def methodStruct (master : UBusMaster) (method : Announcement .method) : Json :=
  Json.ofAssignments [
    (ascii "name", .string method.name),
    (ascii "request_type", .ofUInt32 method.types.1),
    (ascii "response_type", .ofUInt32 method.types.2),
    (ascii "provider", .string (master.participants method.publisher).name)]

def listing (items : List Json) : Json :=
  Json.ofAssignments [
    (ascii "response", .string (ascii "OK")),
    (ascii "response_data", .array items)]

/-- The items `process_debug_message` lists, each map visited in `order`, or
nothing if the query asks for no listing. -/
def debugItems (master : UBusMaster) (order : List Bytes) (debugType : Json) :
    Option (List Json) :=
  if debugType.isString (ascii "list_event") then
    some (order.filterMap fun name => (master.eventList.lookup name).map (eventStruct master))
  else if debugType.isString (ascii "list_participant") then
    some (order.filterMap fun name =>
      (master.participantList.lookup name).map fun participant =>
        participantStruct (master.participants participant))
  else if debugType.isString (ascii "list_method") then
    some (order.filterMap fun name => (master.methodList.lookup name).map (methodStruct master))
  else none

/-- `process_debug_message`.  Unparsable input leaves the query null, and a
query that asks for no listing is answered with an empty text. -/
def processDebugMessage (json : JsonLibrary) (master : UBusMaster) (order : List Bytes)
    (input : Bytes) : Option Bytes :=
  match ((json.parse input).getD .null).at? (ascii "debug_type") with
  | none => some []
  | some debugType =>
      match debugItems master order debugType with
      | none => some []
      | some items => json.dump (listing items)

def frameDebug (json : JsonLibrary) (master : UBusMaster) (order : List Bytes)
    (content : Bytes) : Handled :=
  match processDebugMessage json master order content with
  | none => .threw
  | some text => .replied master (replyFrame .debug text)

/-- The `switch` of `process_control_message` on a frame read from `fd`. -/
def processFrame (json : JsonLibrary) (master : UBusMaster) (order : List Bytes) (fd : Fd)
    (frame : Frame) : Handled :=
  match FrameType.ofCode frame.messageType with
  | some .keepAlive => frameKeepAlive master fd
  | some .eventRegister => frameEventRegister json master fd frame.data
  | some .eventSubscribe => frameEventSubscribe json master frame.data
  | some .methodProvide => frameMethodProvide json master fd frame.data
  | some .methodQuery => frameMethodQuery json master frame.data
  | some .debug => frameDebug json master order frame.data
  | _ => .silent master

def apiVersion : Bytes := ascii "1.1"

def initiationFields : List Bytes :=
  [ascii "name", ascii "listening_ip", ascii "listening_port", ascii "api_version"]

/-- The `try` block of `accept_new_connection` up to the response: the new
state and the response, or nothing if an exception is thrown. -/
def initiate (json : JsonLibrary) (master : UBusMaster) (peer : SocketAddress) (fd : Fd)
    (content : Bytes) : Option (UBusMaster × Json) :=
  match json.parse content with
  | none => none
  | some jsonStruct =>
      if initiationFields.all fun field => jsonStruct.contains field then
        if ¬ (jsonStruct.at? (ascii "api_version")).any (Json.isString apiVersion) then
          some (master, response "VERSION_MISMATCH")
        else
          match jsonStruct.stringAt (ascii "name") with
          | none => none
          | some name =>
              if name ∈ master.participantList then some (master, response "DUPLICATE")
              else
                match jsonStruct.stringAt (ascii "listening_ip"),
                  jsonStruct.uint32At (ascii "listening_port") with
                | some listeningIp, some listeningPort =>
                    some (master.register {
                      name := name
                      ip := inetNtoa peer.address
                      port := peer.port.toUInt32
                      socket := fd
                      listeningIp := listeningIp
                      listeningPort := listeningPort }, response "OK")
                | _, _ => none
      else some (master, response "INVALID")

/-- `accept_new_connection` on the first frame of a connection: the new state
and the reply, if there is one. -/
def acceptNewConnection (json : JsonLibrary) (master : UBusMaster) (peer : SocketAddress)
    (fd : Fd) (frame : Frame) : UBusMaster × Option Frame :=
  if frame.messageType ≠ FrameType.initiation.code then (master, none)
  else
    match initiate json master peer fd frame.data with
    | none => (master, none)
    | some (master', value) => (master', json.reply value)

end UBus
