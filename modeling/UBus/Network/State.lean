import UBus.Master.System
import UBus.Network.Messages
import UBus.Runtime.Events

/-!
# A network of runtimes

The master and any number of runtimes, with everything that is on its way
between them.  A runtime has three threads here: one that makes the API calls,
one after another, one that answers subscriptions, and one that passes events
on to the callbacks.  Frames are written and delivered whole, one at a time
and in order.  An event of the network is one step of one of these threads, a
step of the master, or a step of the surroundings: processes end and are
started again, and connections break.

A runtime is identified by the socket on which the master has accepted it.
Calls that are about methods only exchange a request and a reply with the
master here, and other clients of the master are left out.
-/

namespace UBus

open FiniteMap

variable {json : JsonLibrary}

inductive Question (json : JsonLibrary) where
  | advertise (advertisement : Advertisement json)
  | subscribe (subscription : Subscription json)
  | provideMethod (content : Bytes)
  | queryMethod (content : Bytes)

def Question.frame : Question json → Frame
  | advertise advertisement => advertisement.frame
  | subscribe subscription => subscription.frame
  | provideMethod content => ⟨FrameType.methodProvide.code, content⟩
  | queryMethod content => ⟨FrameType.methodQuery.code, content⟩

/-- The runtime that the master had in mind when it answered a subscription,
and the type it had registered. -/
structure Told where
  publisher : Fd
  type : UInt32
  deriving DecidableEq

/-- Where the thread of the API calls is: between two calls, waiting for the
master, about to connect to a publisher, waiting for the publisher, or in the
loop over the subscribers of an event. -/
inductive Calling (json : JsonLibrary) where
  | idle
  | asking (question : Question json) (answer : Option (Frame × Option Told))
  | connecting (subscription : Subscription json) (port : UInt16) (told : Option Told)
  | awaiting (subscription : Subscription json) (link : Fd)
  | publishing (round : Round)

/-- The other thread has changed `pub_list_`. -/
def Calling.goOn (calling : Calling json) (pubList later : FiniteMap Bytes PubEventInfo)
    (rest : List Bytes) : Calling json :=
  match calling with
  | .publishing round => .publishing (round.goOn pubList later rest)
  | calling => calling

theorem Calling.goOn_eq_awaiting {calling : Calling json}
    {pubList later : FiniteMap Bytes PubEventInfo} {rest : List Bytes}
    {subscription : Subscription json} {linkFd : Fd} :
    calling.goOn pubList later rest = .awaiting subscription linkFd ↔
      calling = .awaiting subscription linkFd := by
  cases calling <;> simp [goOn]

theorem Calling.goOn_eq_publishing {calling : Calling json}
    {pubList later : FiniteMap Bytes PubEventInfo} {rest : List Bytes} {round : Round} :
    calling.goOn pubList later rest = .publishing round ↔
      ∃ before, calling = .publishing before ∧ before.goOn pubList later rest = round := by
  cases calling <;> simp [goOn]

/-- A call of the callback that was installed for a topic and a type. -/
structure Invocation where
  topic : Bytes
  type : UInt32
  content : Bytes
  deriving DecidableEq

structure Runtime (json : JsonLibrary) where
  name : Bytes
  port : UInt16
  running : Bool := true
  calling : Calling json := .idle
  pubList : FiniteMap Bytes PubEventInfo := ∅
  subList : FiniteMap Bytes SubEventInfo := ∅
  /-- The connection whose subscription has been handled and not answered. -/
  listening : Option Fd := none
  invoked : List Invocation := []

/-- A connection from a subscriber to a publisher: the subscription it
carries, the answer once the publisher has handled it, the frames on their
way to the subscriber, and whether the subscriber polls it. -/
structure Link (json : JsonLibrary) where
  subscriber : Fd
  publisher : Fd
  subscription : Subscription json
  told : Option Told
  answer : Option SubscribeAnswer := none
  stream : List Frame := []
  polled : Bool := false
  broken : Bool := false

/-- `published` remembers the events that have been sent, with their types. -/
structure Network (json : JsonLibrary) where
  master : System
  runtimes : FiniteMap Fd (Runtime json)
  links : FiniteMap Fd (Link json)
  published : List (UInt32 × Publication)

def initiation (name : Bytes) (port : UInt16) : Json :=
  Json.ofAssignments [
    (ascii "name", .string name),
    (ascii "listening_ip", .string (ascii "0.0.0.0")),
    (ascii "listening_port", .ofInt32 port.toUInt32.toInt32),
    (ascii "api_version", .string apiVersion)]

def publisherPort (json : JsonLibrary) (content : Bytes) : Option UInt16 := do
  let responseJson ← json.parse content
  let _ ← responseJson.stringAt (ascii "publisher_ip")
  let port ← responseJson.uint32At (ascii "publisher_port")
  let _ ← responseJson.stringAt (ascii "publisher_name")
  return port.toUInt16

/-- Moves of the master that no runtime takes part in. -/
def Event.isInternal : Event → Bool
  | .tick _ | .proceed | .popDead _ | .popNew _ | .poll _ | .readNothing => true
  | _ => false

/-- A step of a runtime `fd`, of the master, or of the surroundings.  With
`listen` comes what a loop over the subscribers goes on with if recording one
more moves them, with `deliver` the topics that the loop over `sub_list_` comes
to. -/
inductive NetworkEvent (json : JsonLibrary) where
  | join (fd : Fd) (name : Bytes) (port : UInt16) (peer : SocketAddress) (text : Bytes)
      (reply : Frame)
  | exit (fd : Fd)
  | breakLink (link : Fd)
  | master (event : Event)
  | serve (fd : Fd) (reply : Frame)
  | keepAlive (fd : Fd)
  | ask (fd : Fd) (question : Question json)
  | readAnswer (fd : Fd)
  | connect (fd link publisher : Fd)
  | refuse (fd : Fd)
  | listen (fd link : Fd) (rest : List Bytes)
  | answer (fd : Fd)
  | readReply (fd : Fd)
  | loseReply (fd : Fd)
  | publish (fd : Fd) (type : UInt32) (publication : Publication) (order : List Bytes)
  | send (fd : Fd) (name : Bytes)
  | sendFails (fd : Fd) (name : Bytes) (brokenPipe : Bool)
  | finish (fd : Fd)
  | deliver (fd link : Fd) (order : List Bytes)

namespace Network

variable (network : Network json)

def setRuntime (fd : Fd) (runtime : Runtime json) : Network json :=
  { network with runtimes := network.runtimes.insert fd runtime }

def setLink (fd : Fd) (link : Link json) : Network json :=
  { network with links := network.links.insert fd link }

/-- A runtime whose process has not ended. -/
def running (fd : Fd) : Option (Runtime json) :=
  (network.runtimes.lookup fd).filter Runtime.running

/-- Both ends of a connection are there, and it has not broken. -/
def IsOpen (link : Link json) : Prop :=
  link.broken = false ∧ (network.running link.subscriber).isSome ∧
    (network.running link.publisher).isSome

instance (link : Link json) : Decidable (network.IsOpen link) :=
  inferInstanceAs (Decidable (_ ∧ _ ∧ _))

def publisherOf (topic : Bytes) : Option Told :=
  (network.master.master.eventList.lookup topic).map fun announcement =>
    ⟨(network.master.master.participants announcement.publisher).socket, announcement.types⟩

def told : Question json → Option Told
  | .subscribe subscription => network.publisherOf subscription.topic
  | _ => none

/-- The loop of `publish_event`, and the socket of a subscriber that it has
not visited. -/
def toVisit (runtime : Runtime json) (name : Bytes) : Option (Round × Fd) :=
  match runtime.calling with
  | .publishing round =>
      if name ∈ round.visited then none
      else (runtime.pubList.lookup round.publication.topic).bind fun pubEventInfo =>
        (pubEventInfo.clientSocketMap.lookup name).map fun fd => (round, fd)
  | _ => none

/-- What the callback of a socket is called with when a frame arrives there.
The loop over `sub_list_` stops at the first entry with the socket. -/
def invocation (runtime : Runtime json) (socket : Fd) (order : List Bytes) (frame : Frame) :
    Option Invocation :=
  if frame.messageType = FrameType.event.code then
    order.findSome? fun topic => (runtime.subList.lookup topic).bind fun subEventInfo =>
      if subEventInfo.socket = socket then some ⟨topic, subEventInfo.type, frame.data⟩ else none
  else none

end Network

def Question.isFrom (name : Bytes) : Question json → Bool
  | .subscribe subscription => subscription.name = name
  | _ => true

/-- The rest of `advertise_event`, and of `subscribe_event` up to the
connection, once the master's reply has arrived. -/
def Runtime.receive (runtime : Runtime json) (question : Question json) (content : Bytes)
    (told : Option Told) : Runtime json :=
  match question, saysOk json content with
  | .advertise advertisement, true =>
      { runtime with
        pubList := runtime.pubList.insert advertisement.topic { type := advertisement.type }
        calling := .idle }
  | .subscribe subscription, true =>
      match publisherPort json content with
      | some port => { runtime with calling := .connecting subscription port told }
      | none => { runtime with calling := .idle }
  | _, _ => { runtime with calling := .idle }

namespace Network

def step (network : Network json) : NetworkEvent json → Option (Network json)
  | .join fd name port peer text reply =>
      if json.dump (initiation name port) = some text ∧ text.length < 2 ^ 32 ∧
          ∀ other ∈ network.runtimes.keys, ∀ runtime ∈ network.running other,
            runtime.port ≠ port then
        (network.master.step json
          (.accept fd peer ⟨FrameType.initiation.code, text⟩ (some reply))).map fun master =>
            if saysOk json reply.data then
              { network with master := master }.setRuntime fd { name := name, port := port }
            else { network with master := master }
      else none
  | .exit fd =>
      (network.running fd).bind fun runtime =>
        (network.master.step json (.peerClose fd)).map fun master =>
          { network with master := master }.setRuntime fd { runtime with running := false }
  | .breakLink fd =>
      (network.links.lookup fd).map fun link => network.setLink fd { link with broken := true }
  | .master event =>
      if event.isInternal then
        (network.master.step json event).map fun master => { network with master := master }
      else none
  | .serve fd reply =>
      (network.runtimes.lookup fd).bind fun runtime =>
        match runtime.calling with
        | .asking question none =>
            (network.master.step json (.control fd question.frame [] (some reply))).map
              fun master => { network with master := master }.setRuntime fd
                { runtime with calling := .asking question (some (reply, network.told question)) }
        | _ => none
  | .keepAlive fd =>
      (network.runtimes.lookup fd).bind fun _ =>
        (network.master.step json (.control fd ⟨FrameType.keepAlive.code, []⟩ [] none)).map
          fun master => { network with master := master }
  | .ask fd question =>
      (network.running fd).bind fun runtime =>
        match runtime.calling with
        | .idle =>
            if question.isFrom runtime.name ∧ question.frame.data.length < 2 ^ 32 then
              some (network.setRuntime fd { runtime with calling := .asking question none })
            else none
        | _ => none
  | .readAnswer fd =>
      (network.running fd).bind fun runtime =>
        match runtime.calling with
        | .asking question (some (reply, told)) =>
            some (network.setRuntime fd (runtime.receive question reply.data told))
        | _ => none
  | .connect fd linkFd publisherFd =>
      (network.running fd).bind fun runtime =>
        match runtime.calling with
        | .connecting subscription port told =>
            (network.running publisherFd).bind fun publisher =>
              if linkFd ∉ network.links ∧ publisher.port = port then
                some ((network.setLink linkFd {
                    subscriber := fd
                    publisher := publisherFd
                    subscription := subscription
                    told := told }).setRuntime fd
                  { runtime with calling := .awaiting subscription linkFd })
              else none
        | _ => none
  | .refuse fd =>
      (network.running fd).bind fun runtime =>
        match runtime.calling with
        | .connecting .. => some (network.setRuntime fd { runtime with calling := .idle })
        | _ => none
  | .listen fd linkFd rest =>
      (network.running fd).bind fun runtime =>
        (network.links.lookup linkFd).bind fun link =>
          if link.publisher = fd ∧ link.answer = none ∧ runtime.listening = none then
            let subscribed := subscribe json runtime.pubList linkFd link.subscription.text
            some ((network.setLink linkFd { link with answer := some subscribed.2 }).setRuntime fd
              { runtime with
                pubList := subscribed.1
                calling := runtime.calling.goOn runtime.pubList subscribed.1 rest
                listening := some linkFd })
          else none
  | .answer fd =>
      (network.running fd).bind fun runtime =>
        runtime.listening.bind fun linkFd =>
          (network.links.lookup linkFd).bind fun link =>
            link.answer.map fun answer =>
              (network.setLink linkFd
                { link with stream := link.stream ++ [answer.frame] }).setRuntime fd
                  { runtime with listening := none }
  | .readReply fd =>
      (network.running fd).bind fun runtime =>
        match runtime.calling with
        | .awaiting subscription linkFd =>
            (network.links.lookup linkFd).bind fun link =>
              match link.stream with
              | [] => none
              | frame :: stream =>
                  if saysOk json frame.data then
                    some ((network.setLink linkFd
                      { link with stream := stream, polled := true }).setRuntime fd
                        { runtime with
                          subList := runtime.subList.insert subscription.topic
                            ⟨subscription.type, linkFd⟩
                          calling := .idle })
                  else
                    some ((network.setLink linkFd { link with stream := stream }).setRuntime fd
                      { runtime with calling := .idle })
        | _ => none
  | .loseReply fd =>
      (network.running fd).bind fun runtime =>
        match runtime.calling with
        | .awaiting _ linkFd =>
            (network.links.lookup linkFd).bind fun link =>
              if network.IsOpen link then none
              else some (network.setRuntime fd { runtime with calling := .idle })
        | _ => none
  | .publish fd type publication order =>
      -- a call that finds no topic, another type or no subscriber changes nothing
      (network.running fd).bind fun runtime =>
        match runtime.calling with
        | .idle =>
            (runtime.pubList.lookup publication.topic).bind fun pubEventInfo =>
              if pubEventInfo.type = type ∧ pubEventInfo.clientSocketMap.size ≠ 0 ∧
                  Enumerates order pubEventInfo.clientSocketMap ∧
                  publication.text.length < 2 ^ 32 then
                some { network.setRuntime fd
                    { runtime with calling := .publishing ⟨publication, order, [], []⟩ } with
                  published := (type, publication) :: network.published }
              else none
        | _ => none
  | .send fd name =>
      (network.running fd).bind fun runtime =>
        (toVisit runtime name).bind fun (round, linkFd) =>
          (network.links.lookup linkFd).map fun link =>
            (network.setLink linkFd
              { link with stream := link.stream ++ [eventFrame round.publication.body] }).setRuntime
                fd { runtime with calling := .publishing (round.visit name) }
  | .sendFails fd name brokenPipe =>
      (network.running fd).bind fun runtime =>
        (toVisit runtime name).bind fun (round, linkFd) =>
          (network.links.lookup linkFd).bind fun link =>
            if network.IsOpen link then none
            else some (network.setRuntime fd
              { runtime with calling := .publishing ((round.visit name).bury name brokenPipe) })
  | .finish fd =>
      (network.running fd).bind fun runtime =>
        match runtime.calling with
        | .publishing round =>
            if round.remaining = [] then
              some (network.setRuntime fd { runtime with
                pubList := runtime.pubList.modify round.publication.topic fun pubEventInfo =>
                  { pubEventInfo with
                    clientSocketMap :=
                      round.dead.foldl FiniteMap.erase pubEventInfo.clientSocketMap }
                calling := .idle })
            else none
        | _ => none
  | .deliver fd linkFd order =>
      (network.running fd).bind fun runtime =>
        (network.links.lookup linkFd).bind fun link =>
          match link.stream with
          | [] => none
          | frame :: stream =>
              if link.subscriber = fd ∧ link.polled then
                some ((network.setLink linkFd { link with stream := stream }).setRuntime fd
                  { runtime with
                    invoked := runtime.invoked ++
                      (invocation runtime linkFd order frame).toList })
              else none

structure Initial (network : Network json) : Prop where
  master : network.master.Initial
  runtimes : network.runtimes = ∅
  links : network.links = ∅
  published : network.published = []

end Network

def networkSystem (json : JsonLibrary) : EventSystem (Network json) (NetworkEvent json) where
  Initial := Network.Initial
  step := Network.step

def Network.started : Network JsonLibrary.plain where
  master := .started
  runtimes := ∅
  links := ∅
  published := []

theorem Network.started_initial : Network.started.Initial :=
  ⟨System.started_initial, rfl, rfl, rfl⟩

def sampleAdvertisement : Advertisement JsonLibrary.plain where
  topic := ascii "t"
  type := 11
  text := requestText ((ApiCall.advertiseEvent (ascii "t") 11).request [])
  dumped := by decide +kernel

def sampleSubscription : Subscription JsonLibrary.plain where
  name := ascii "b"
  topic := ascii "t"
  type := 11
  text := requestText ((ApiCall.subscribeEvent (ascii "t") 11).request (ascii "b"))
  dumped := by decide +kernel

def okReply : Frame := replyFrame .unknown SubscribeAnswer.ok.replyText

def foundReply : Frame :=
  replyFrame .unknown
    (requestText (Kind.found .event
      { name := ascii "a", listeningIp := ascii "0.0.0.0", listeningPort := 4000 }))

def NetworkEvent.joins (fd : Fd) (name : String) (port : UInt16) :
    NetworkEvent JsonLibrary.plain :=
  .join fd (ascii name) port ⟨(127, 0, 0, 1), 50000⟩
    (requestText (initiation (ascii name) port)) okReply

/-- Publisher "a" on socket 5 and subscriber "b" on socket 6 have joined, and
both have made their requests. -/
def requesting : List (NetworkEvent JsonLibrary.plain) :=
  [.joins 5 "a" 4000, .joins 6 "b" 4001,
    .master .proceed, .master .proceed, .master .proceed,
    .master (.popNew (ascii "a")), .master (.popNew (ascii "b")), .master .proceed,
    .ask 5 (.advertise sampleAdvertisement), .ask 6 (.subscribe sampleSubscription)]

/-- The publisher stores the topic, and the subscriber connects to it as
connection 7. -/
def connecting : List (NetworkEvent JsonLibrary.plain) :=
  [.serve 5 okReply, .readAnswer 5, .serve 6 foundReply, .readAnswer 6, .connect 6 7 5]

def subscribing : List (NetworkEvent JsonLibrary.plain) :=
  requesting ++ .master (.poll (.ready [5, 6])) :: connecting

end UBus
