import UBus.Frame
import UBus.Json
import UBus.Library.EventSystem
import UBus.Library.FiniteMap
import UBus.SocketIO

/-!
# The publishing side of a runtime

Two threads of a runtime share the table of published topics without a lock.
The listening thread records a subscriber and answers it; the thread that
calls `publish_event` goes through the recorded subscribers and writes to each
of them.  Both write a frame in two pieces, so an event of the model is one
`writen` call.  A loop over the subscribers visits those it found when it
started, and possibly some that were recorded meanwhile.  A hash map that grows
may move its entries, and a loop that goes through it at that time may leave
some of them out or come to them again.
-/

namespace UBus

open FiniteMap

/-- `PubEventInfo`, without the topic, which is its key in `pub_list_`. -/
structure PubEventInfo where
  type : UInt32
  clientSocketMap : FiniteMap Bytes Fd := ∅

inductive SubscribeAnswer where
  | ok
  | duplicate
  | invalid
  deriving DecidableEq

namespace SubscribeAnswer

def text : SubscribeAnswer → String
  | ok => "OK"
  | duplicate => "DUPLICATE"
  | invalid => "INVALID"

def replyText (answer : SubscribeAnswer) : Bytes :=
  ascii "\x7b\"response\":\"" ++ ascii answer.text ++ ascii "\"\x7d"

theorem dump_response (json : JsonLibrary) (answer : SubscribeAnswer) :
    json.dump (response answer.text) = some answer.replyText := by
  cases answer <;> rfl

def frame (answer : SubscribeAnswer) : Frame := replyFrame .eventSubscribe answer.replyText

def header (answer : SubscribeAnswer) (padding : Padding) : Bytes :=
  headerBytes FrameType.eventSubscribe.code padding answer.replyText.length

def body (answer : SubscribeAnswer) : Bytes := answer.frame.data

end SubscribeAnswer

def subscribeFields : List Bytes := [ascii "topic", ascii "type_id", ascii "name"]

/-- The `try` block of `FRAME_EVENT_SUBSCRIBE`: the new `pub_list_` and the
response.  Every exception leads to INVALID.  Only this thread adds
subscribers, so that the test for a duplicate and the entry are one step. -/
def subscribe (json : JsonLibrary) (pubList : FiniteMap Bytes PubEventInfo) (fd : Fd)
    (content : Bytes) : FiniteMap Bytes PubEventInfo × SubscribeAnswer :=
  match json.parse content with
  | none => (pubList, .invalid)
  | some subscribeJson =>
      if subscribeFields.all fun field => subscribeJson.contains field then
        match subscribeJson.stringAt (ascii "name"), subscribeJson.stringAt (ascii "topic"),
          subscribeJson.uint32At (ascii "type_id") with
        | some name, some topic, some type =>
            match pubList.lookup topic with
            | none => (pubList, .invalid)
            | some pubEventInfo =>
                if pubEventInfo.type ≠ type then (pubList, .invalid)
                else if name ∈ pubEventInfo.clientSocketMap then (pubList, .duplicate)
                else (pubList.insert topic { pubEventInfo with
                  clientSocketMap := pubEventInfo.clientSocketMap.insert name fd }, .ok)
        | _, _, _ => (pubList, .invalid)
      else (pubList, .invalid)

/-- A call of `publish_event` with the serialized event. -/
structure Publication where
  topic : Bytes
  text : Bytes
  padding : Padding

namespace Publication

def header (publication : Publication) : Bytes :=
  headerBytes FrameType.event.code publication.padding publication.text.length

/-- The second write to a subscriber, whose size is not cut to 32 bits. -/
def body (publication : Publication) : Bytes :=
  strncpy publication.text publication.text.length

end Publication

def eventFrame (data : Bytes) : Frame := ⟨FrameType.event.code, data⟩

theorem Publication.isWireFrame (publication : Publication)
    (short : publication.text.length < 2 ^ 32) :
    IsWireFrame (eventFrame publication.body) (publication.header ++ publication.body) := by
  have size : (eventFrame publication.body).data.length = publication.text.length :=
    strncpy_length _ _
  exact ⟨size ▸ short, publication.padding, by rw [size]; rfl⟩

/-- A loop over the subscribers: those still to be visited, those visited, and
`dead_subscribers`. -/
structure Round where
  publication : Publication
  remaining : List Bytes
  visited : List Bytes
  dead : List Bytes

def Round.visit (round : Round) (name : Bytes) : Round :=
  { round with
    remaining := round.remaining.erase name
    visited := name :: round.visited }

/-- Note a subscriber whose socket is closed, if `errno` says so. -/
def Round.bury (round : Round) (name : Bytes) (brokenPipe : Bool) : Round :=
  if brokenPipe then { round with dead := name :: round.dead } else round

/-- The loop goes on with these of the subscribers, each of them once, whether
it has visited them or not. -/
def Round.divert (round : Round) (subscribers : FiniteMap Bytes Fd) (rest : List Bytes) : Round :=
  let remaining := (rest.filter (· ∈ subscribers)).dedup
  { round with
    remaining := remaining
    visited := round.visited.filter (· ∉ remaining) }

def subscribersOf (pubList : FiniteMap Bytes PubEventInfo) (topic : Bytes) : FiniteMap Bytes Fd :=
  ((pubList.lookup topic).map PubEventInfo.clientSocketMap).getD ∅

/-- Another thread has recorded a subscriber of the topic. -/
def Round.Grows (round : Round) (pubList later : FiniteMap Bytes PubEventInfo) : Prop :=
  (subscribersOf pubList round.publication.topic).size <
    (subscribersOf later round.publication.topic).size

instance (round : Round) (pubList later : FiniteMap Bytes PubEventInfo) :
    Decidable (round.Grows pubList later) :=
  inferInstanceAs (Decidable (_ < _))

/-- The loop after the other thread has changed `pub_list_`.  What an iterator
does in a hash map that has moved its entries is not defined, so any `rest` of
the subscribers is possible. -/
def Round.goOn (round : Round) (pubList later : FiniteMap Bytes PubEventInfo)
    (rest : List Bytes) : Round :=
  if round.Grows pubList later then
    round.divert (subscribersOf later round.publication.topic) rest
  else round

@[simp]
theorem Round.goOn_publication (round : Round) (pubList later : FiniteMap Bytes PubEventInfo)
    (rest : List Bytes) : (round.goOn pubList later rest).publication = round.publication := by
  unfold goOn
  split_ifs <;> rfl

inductive Listening where
  | accepting
  | replyHeader (fd : Fd) (answer : SubscribeAnswer) (padding : Padding)
  | replyBody (fd : Fd) (answer : SubscribeAnswer)

inductive Publishing where
  | idle
  | iterating (round : Round)
  | sendingBody (round : Round) (name : Bytes) (fd : Fd)

def Publishing.goOn (publishing : Publishing) (pubList later : FiniteMap Bytes PubEventInfo)
    (rest : List Bytes) : Publishing :=
  match publishing with
  | .idle => .idle
  | .iterating round => .iterating (round.goOn pubList later rest)
  | .sendingBody round name fd => .sendingBody (round.goOn pubList later rest) name fd

/-- What has happened on the connection of a subscriber: how it was answered,
what was written, and the events whose writing has started. -/
structure Connection where
  answer : SubscribeAnswer
  stream : Bytes := []
  events : List Bytes := []

/-- The shared table, the two threads, the connections, and the sockets whose
peer has closed. -/
structure Publisher where
  pubList : FiniteMap Bytes PubEventInfo
  listening : Listening
  publishing : Publishing
  connections : FiniteMap Fd Connection
  closed : List Fd

/-- A move of a thread or of a subscriber.  `subscribe` reads a subscription
on a new connection, and carries what a loop over the subscribers goes on with
if that moves them; `publish` starts a call of `publish_event`. -/
inductive PublisherEvent where
  | subscribe (fd : Fd) (content : Bytes) (padding : Padding) (rest : List Bytes)
  | replyHeader
  | replyBody
  | publish (type : UInt32) (publication : Publication) (order : List Bytes)
  | sendHeader (name : Bytes)
  | sendBody
  | headerFails (name : Bytes) (brokenPipe : Bool)
  | bodyFails (brokenPipe : Bool)
  | finish
  | peerClose (fd : Fd)

namespace Publisher

def write (publisher : Publisher) (fd : Fd) (bytes : Bytes) : FiniteMap Fd Connection :=
  publisher.connections.modify fd fun connection =>
    { connection with stream := connection.stream ++ bytes }

/-- The loop the publishing thread is in and the socket of a subscriber that
it has not visited. -/
def toVisit (publisher : Publisher) (name : Bytes) : Option (Round × Fd) :=
  match publisher.publishing with
  | .iterating round =>
      if name ∈ round.visited then none
      else (publisher.pubList.lookup round.publication.topic).bind fun pubEventInfo =>
        (pubEventInfo.clientSocketMap.lookup name).map fun fd => (round, fd)
  | _ => none

def step (json : JsonLibrary) (publisher : Publisher) : PublisherEvent → Option Publisher
  | .subscribe fd content padding rest =>
      match publisher.listening with
      | .accepting =>
          if fd ∈ publisher.connections then none
          else
            let subscribed := subscribe json publisher.pubList fd content
            some { publisher with
              pubList := subscribed.1
              listening := .replyHeader fd subscribed.2 padding
              publishing := publisher.publishing.goOn publisher.pubList subscribed.1 rest
              connections := publisher.connections.insert fd { answer := subscribed.2 } }
      | _ => none
  | .replyHeader =>
      match publisher.listening with
      | .replyHeader fd answer padding =>
          some { publisher with
            connections := publisher.write fd (answer.header padding)
            listening := .replyBody fd answer }
      | _ => none
  | .replyBody =>
      match publisher.listening with
      | .replyBody fd answer =>
          some { publisher with
            connections := publisher.write fd answer.body
            listening := .accepting }
      | _ => none
  | .publish type publication order =>
      match publisher.publishing, publisher.pubList.lookup publication.topic with
      | .idle, some pubEventInfo =>
          if pubEventInfo.type ≠ type ∨ pubEventInfo.clientSocketMap.size = 0 then some publisher
          else if Enumerates order pubEventInfo.clientSocketMap then
            some { publisher with publishing := .iterating ⟨publication, order, [], []⟩ }
          else none
      | .idle, none => some publisher
      | _, _ => none
  | .sendHeader name =>
      (publisher.toVisit name).map fun (round, fd) =>
        { publisher with
          connections := publisher.connections.modify fd fun connection =>
            { connection with
              stream := connection.stream ++ round.publication.header
              events := connection.events ++ [round.publication.body] }
          publishing := .sendingBody (round.visit name) name fd }
  | .sendBody =>
      match publisher.publishing with
      | .sendingBody round _ fd =>
          some { publisher with
            connections := publisher.write fd round.publication.body
            publishing := .iterating round }
      | _ => none
  | .headerFails name brokenPipe =>
      (publisher.toVisit name).bind fun (round, fd) =>
        if fd ∈ publisher.closed then
          some { publisher with
            publishing := .iterating ((round.visit name).bury name brokenPipe) }
        else none
  | .bodyFails brokenPipe =>
      match publisher.publishing with
      | .sendingBody round name fd =>
          if fd ∈ publisher.closed then
            some { publisher with publishing := .iterating (round.bury name brokenPipe) }
          else none
      | _ => none
  | .finish =>
      match publisher.publishing with
      | .iterating round =>
          if round.remaining = [] then
            some { publisher with
              pubList := publisher.pubList.modify round.publication.topic fun pubEventInfo =>
                { pubEventInfo with
                  clientSocketMap := round.dead.foldl FiniteMap.erase pubEventInfo.clientSocketMap }
              publishing := .idle }
          else none
      | _ => none
  | .peerClose fd =>
      if fd ∈ publisher.connections then some { publisher with closed := fd :: publisher.closed }
      else none

structure Initial (publisher : Publisher) : Prop where
  unsubscribed : ∀ {topic pubEventInfo}, publisher.pubList.lookup topic = some pubEventInfo →
    pubEventInfo.clientSocketMap = ∅
  listening : publisher.listening = .accepting
  publishing : publisher.publishing = .idle
  connections : publisher.connections = ∅
  closed : publisher.closed = []

end Publisher

def publisherSystem (json : JsonLibrary) : EventSystem Publisher PublisherEvent where
  Initial := Publisher.Initial
  step := Publisher.step json

end UBus
