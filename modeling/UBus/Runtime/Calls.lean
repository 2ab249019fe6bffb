import UBus.CompleteFrames
import UBus.Method.Messages
import UBus.Runtime.Events
import UBus.Runtime.Requests

/-!
# The calls of the API

`advertise_event`, `subscribe_event`, `provide_method` and `call_method` send
a request to the master and wait for its reply.  Two of them then connect to
the runtime that the reply names and exchange a second pair of frames.  A call
is modelled with everything its system calls return; failures of its writes
are only logged, so they are no part of that.
-/

namespace UBus

open FiniteMap

variable {json : JsonLibrary} {Object Environment : Type}

/-- The members of `UBusRuntime` that the calls read and write. -/
structure UBusRuntime (Object Environment : Type) extends Subscriptions where
  name : Bytes
  controlSock : Fd
  pubList : FiniteMap Bytes PubEventInfo
  methodList : FiniteMap Bytes (MethodInfo Object Environment)

/-- What a call that waits for a reply finds in its buffers and gets from the
connection. -/
structure Exchange where
  memory : StackMemory
  results : List ReadResult

structure Dialing where
  socket : Option Fd
  inetPton : Bytes → Bool
  connect : Bytes → UInt16 → Bool

/-- How a call ends: its `dump` throws, it waits forever, or it returns. -/
inductive CallOutcome (Object Environment Value : Type) where
  | threw
  | blocked
  | returned (value : Value) (runtime : UBusRuntime Object Environment)

/-- The four calls receive as the listening thread does. -/
def Exchange.reply (exchange : Exchange) : Received :=
  receiveFrame exchange.memory exchange.results

namespace UBusRuntime

variable (json : JsonLibrary) (runtime : UBusRuntime Object Environment)

/-- The common part of `advertise_event` and `provide_method`: a reply that
says OK leads to the state `stored`. -/
def register (request : Json) (stored : UBusRuntime Object Environment) (master : Exchange) :
    CallOutcome Object Environment Bool :=
  match json.dump request with
  | none => .threw
  | some _ =>
      match master.reply with
      | .blocked => .blocked
      | .frame frame _ =>
          if saysOk json frame.data then .returned true stored else .returned false runtime
      -- a header that could not be read is only logged
      | .shortHeader _ | .shortContent _ | .peerClosed _ => .returned true runtime

def advertiseEvent (topic : Bytes) (typeId : UInt32) (master : Exchange) :
    CallOutcome Object Environment Bool :=
  runtime.register json ((ApiCall.advertiseEvent topic typeId).request runtime.name)
    { runtime with pubList := runtime.pubList.insert topic { type := typeId } } master

def provideMethod (method : Bytes) (callback : MethodCallbackHolder Object Environment)
    (master : Exchange) : CallOutcome Object Environment Bool :=
  runtime.register json
    ((ApiCall.provideMethod method callback.request.id callback.response.id).request runtime.name)
    { runtime with methodList := runtime.methodList.insert method (.ofCallback callback) } master

end UBusRuntime

inductive Dialed where
  | failed
  | noSocket
  | connected (socket : Fd)
  deriving DecidableEq

/-- From the reply of the master to the connection.  The socket is created
before the address is read. -/
def dial (dialing : Dialing) (portField ipField : Bytes) (responseJson : Json) : Dialed :=
  match dialing.socket with
  | none => .noSocket
  | some socket =>
      match responseJson.int32At portField, responseJson.stringAt ipField with
      | some port, some ip =>
          if dialing.inetPton (cStr ip) ∧
              dialing.connect (cStr ip) port.toUInt32.toUInt16 then .connected socket
          else .failed
      | _, _ => .failed

def publisherFields : List Bytes :=
  [ascii "publisher_ip", ascii "publisher_port", ascii "publisher_name"]

def subscriptionReply (json : JsonLibrary) (content : Bytes) : Option Json :=
  (json.parse content).filter fun responseJson =>
    (responseJson.at? (ascii "response")).any (Json.isString (ascii "OK")) &&
      publisherFields.all fun field => responseJson.contains field

/-- `subscribe_event` between the two exchanges. -/
def dialPublisher (json : JsonLibrary) (dialing : Dialing) (content : Bytes) : Dialed :=
  match subscriptionReply json content with
  | none => .failed
  | some responseJson =>
      match dial dialing (ascii "publisher_port") (ascii "publisher_ip") responseJson with
      | .connected socket =>
          if (responseJson.stringAt (ascii "publisher_name")).isSome then .connected socket
          else .failed
      | other => other

/-- `call_method` between the two exchanges. -/
def dialProvider (json : JsonLibrary) (dialing : Dialing) (content : Bytes) : Dialed :=
  match confirmation json content with
  | none => .failed
  | some responseJson =>
      dial dialing (ascii "provider_port") (ascii "provider_ip") responseJson

/-- How `call_method` receives a response: it looks at the type before it reads
the content. -/
def Exchange.response (exchange : Exchange) : Received :=
  match readn headerSize exchange.results with
  | none => .blocked
  | some headerRead =>
      if toSizeT headerRead.ret < headerSize then .shortHeader headerRead.rest
      else
        let header := parseHeader (fillBuffer exchange.memory.header headerSize headerRead.received)
        if header.messageType ≠ FrameType.methodResponse.code then
          .frame ⟨header.messageType, []⟩ headerRead.rest
        else
          match readn header.dataLength headerRead.rest with
          | none => .blocked
          | some bodyRead =>
              .frame ⟨header.messageType,
                fillBuffer exchange.memory.content header.dataLength bodyRead.received⟩
                bodyRead.rest

namespace UBusRuntime

variable (json : JsonLibrary) (runtime : UBusRuntime Object Environment)

def subscribed (topic : Bytes) (typeId : UInt32) (socket : Fd) :
    UBusRuntime Object Environment :=
  { runtime with toSubscriptions := runtime.toSubscriptions.add topic typeId socket }

def subscribeEvent (topic : Bytes) (typeId : UInt32) (master : Exchange) (dialing : Dialing)
    (publisher : Exchange) : CallOutcome Object Environment Bool :=
  match json.dump ((ApiCall.subscribeEvent topic typeId).request runtime.name) with
  | none => .threw
  | some _ =>
      match master.reply with
      | .blocked => .blocked
      | .frame frame _ =>
          match dialPublisher json dialing frame.data with
          | .failed => .returned false runtime
          | .noSocket => .returned false { runtime with controlSock := 0 }
          | .connected socket =>
              match publisher.reply with
              | .blocked => .blocked
              | .frame frame _ =>
                  if saysOk json frame.data then
                    .returned true (runtime.subscribed topic typeId socket)
                  else .returned false runtime
              | .shortHeader _ | .shortContent _ | .peerClosed _ => .returned true runtime
      | .shortHeader _ | .shortContent _ | .peerClosed _ => .returned true runtime

/-- `call_method` returns true with a new content of `*response`, or false. -/
def callMethod (call : MethodCall Object) (master : Exchange) (dialing : Dialing)
    (provider : Exchange) : CallOutcome Object Environment (Option Object) :=
  match json.dump ((ApiCall.callMethod call.method call.request.id call.response.id).request
      runtime.name) with
  | none => .threw
  | some _ =>
      match master.reply with
      | .blocked => .blocked
      | .frame frame _ =>
          match dialProvider json dialing frame.data with
          | .failed => .returned none runtime
          | .noSocket => .returned none { runtime with controlSock := 0 }
          | .connected _ =>
              -- from here on an exception makes the call return false
              match json.dump (call.callJson runtime.name) with
              | none => .returned none runtime
              | some _ =>
                  match provider.response with
                  | .blocked => .blocked
                  | .frame frame _ =>
                      .returned ((responseData json frame).map call.response.deserialize) runtime
                  | .shortHeader _ | .shortContent _ | .peerClosed _ => .returned none runtime
      | .shortHeader _ | .shortContent _ | .peerClosed _ => .returned none runtime

end UBusRuntime

namespace Exchange

variable (exchange : Exchange)

def Delivers (frame : Frame) : Prop :=
  ∃ left, nextFrame (deliveredBytes exchange.results) = some (frame, left)

def EndsInHeader : Prop :=
  (deliveredBytes exchange.results).length < headerSize ∧
    ∃ received rest, breakOff exchange.results = some (.bytes received, rest)

variable {exchange}

theorem fillBuffer_take (stale : Nat → UInt8) {size : Nat} {bytes : Bytes}
    (enough : size ≤ bytes.length) : fillBuffer stale size (bytes.take size) = bytes.take size := by
  have full := fillBuffer_full stale (bytes.take size)
  rwa [List.length_take_of_le enough] at full

theorem reply_of_delivers {frame : Frame} (delivers : exchange.Delivers frame) :
    ∃ rest, exchange.reply = .frame frame rest := by
  obtain ⟨left, delivered⟩ := delivers
  simp only [nextFrame] at delivered
  split_ifs at delivered with short incomplete
  obtain ⟨rfl, -⟩ := Prod.mk.inj (Option.some.inj delivered)
  obtain ⟨rest, headerRead, remaining, -⟩ := readn_enough (not_lt.mp short)
  rw [← remaining] at incomplete ⊢
  obtain ⟨rest', bodyRead, -, -⟩ := readn_enough (not_lt.mp incomplete)
  refine ⟨rest', ?_⟩
  have headerFull : ¬ toSizeT (headerSize : Int) < headerSize := by decide
  simp only [reply, receiveFrame, headerRead, if_neg headerFull,
    fillBuffer_take _ (not_lt.mp short), bodyRead, fillBuffer_take _ (not_lt.mp incomplete)]

theorem reply_eq_shortHeader_iff : (∃ rest, exchange.reply = .shortHeader rest) ↔
    ∃ headerRead, readn headerSize exchange.results = some headerRead ∧
      toSizeT headerRead.ret < headerSize := by
  unfold reply receiveFrame
  cases readn headerSize exchange.results with
  | none => simp
  | some headerRead =>
      dsimp only
      split_ifs with short
      · simp [short]
      generalize parseHeader (fillBuffer exchange.memory.header headerSize headerRead.received) =
        header
      cases readn header.dataLength headerRead.rest <;> simp [short]

theorem endsInHeader_iff : exchange.EndsInHeader ↔ ∃ rest, exchange.reply = .shortHeader rest := by
  rw [reply_eq_shortHeader_iff]
  by_cases short : (deliveredBytes exchange.results).length < headerSize
  · rw [readn_short short]
    have size : toSizeT (deliveredBytes exchange.results).length =
        (deliveredBytes exchange.results).length :=
      toSizeT_natCast (short.trans (by decide))
    have failed : ¬ toSizeT (-1) < headerSize := by decide
    rcases ending : breakOff exchange.results with _ | ⟨_ | _, rest⟩
    · simp [EndsInHeader, ending]
    · simp [EndsInHeader, ending, size, short]
    · simp [EndsInHeader, ending, failed]
  · obtain ⟨rest, headerRead, -, -⟩ := readn_enough (not_lt.mp short)
    have headerFull : ¬ toSizeT (headerSize : Int) < headerSize := by decide
    refine iff_of_false (fun ends => short ends.1) ?_
    simp [headerRead, headerFull]

/-- A reply arrives, the stream ends in the header, or the call waits. -/
theorem reply_cases (exchange : Exchange) :
    exchange.reply = .blocked ∨ (∃ rest, exchange.reply = .shortHeader rest) ∨
      ∃ frame rest, exchange.reply = .frame frame rest := by
  unfold reply receiveFrame
  cases readn headerSize exchange.results with
  | none => exact Or.inl rfl
  | some headerRead =>
      dsimp only
      split_ifs
      · exact Or.inr (Or.inl ⟨_, rfl⟩)
      generalize parseHeader (fillBuffer exchange.memory.header headerSize headerRead.received) =
        header
      cases readn header.dataLength headerRead.rest with
      | none => exact Or.inl rfl
      | some bodyRead => exact Or.inr (Or.inr ⟨_, _, rfl⟩)

end Exchange

namespace Exchange

/-- The reply has arrived whole, and it says OK. -/
def ReceivesOk (json : JsonLibrary) (exchange : Exchange) (frame : Frame) : Prop :=
  exchange.Delivers frame ∧ saysOk json frame.data = true

/-- The stream does not end in the header of the reply, and a reply whose
contents have not all arrived does not read as OK: the missing bytes are those
that the buffer contained before. -/
def Reliable (json : JsonLibrary) (exchange : Exchange) : Prop :=
  ¬ exchange.EndsInHeader ∧ ∀ frame rest, exchange.reply = .frame frame rest →
    saysOk json frame.data = true → exchange.Delivers frame

end Exchange

/-- A call that adds an entry to a table of the runtime. -/
inductive RegisteringCall (Object Environment : Type) where
  | advertiseEvent (topic : Bytes) (typeId : UInt32) (master : Exchange)
  | subscribeEvent (topic : Bytes) (typeId : UInt32) (master : Exchange) (dialing : Dialing)
      (publisher : Exchange)
  | provideMethod (method : Bytes) (callback : MethodCallbackHolder Object Environment)
      (master : Exchange)

namespace RegisteringCall

def apiCall : RegisteringCall Object Environment → ApiCall
  | advertiseEvent topic typeId _ => .advertiseEvent topic typeId
  | subscribeEvent topic typeId _ _ _ => .subscribeEvent topic typeId
  | provideMethod method callback _ =>
      .provideMethod method callback.request.id callback.response.id

def run (json : JsonLibrary) (runtime : UBusRuntime Object Environment) :
    RegisteringCall Object Environment → CallOutcome Object Environment Bool
  | advertiseEvent topic typeId master => runtime.advertiseEvent json topic typeId master
  | subscribeEvent topic typeId master dialing publisher =>
      runtime.subscribeEvent json topic typeId master dialing publisher
  | provideMethod method callback master => runtime.provideMethod json method callback master

/-- The call gets as far as its request: its `dump` does not throw. -/
def Sends (json : JsonLibrary) (runtime : UBusRuntime Object Environment)
    (call : RegisteringCall Object Environment) : Prop :=
  (json.dump (call.apiCall.request runtime.name)).isSome = true

/-- The master, and for a subscription also the publisher, have confirmed the
call in a whole frame. -/
def Confirmed (json : JsonLibrary) : RegisteringCall Object Environment → Prop
  | advertiseEvent _ _ master | provideMethod _ _ master => ∃ frame, master.ReceivesOk json frame
  | subscribeEvent _ _ master dialing publisher =>
      ∃ frame socket reply, master.ReceivesOk json frame ∧
        dialPublisher json dialing frame.data = .connected socket ∧ publisher.ReceivesOk json reply

def StoredIn (runtime : UBusRuntime Object Environment) :
    RegisteringCall Object Environment → Prop
  | advertiseEvent topic typeId _ => runtime.pubList.lookup topic = some { type := typeId }
  | subscribeEvent topic typeId _ dialing _ =>
      (∃ socket, dialing.socket = some socket ∧
        runtime.subList.lookup topic = some ⟨typeId, socket⟩) ∧
      topic ∈ runtime.unprocessedNewSubEvents
  | provideMethod method callback _ =>
      runtime.methodList.lookup method = some (.ofCallback callback)

def ReturnsTrue (json : JsonLibrary) (runtime : UBusRuntime Object Environment)
    (call : RegisteringCall Object Environment) : Prop :=
  ∃ next, call.run json runtime = .returned true next

/-- When the call returns, its entry is there. -/
def StoredOnReturn (json : JsonLibrary) (runtime : UBusRuntime Object Environment)
    (call : RegisteringCall Object Environment) : Prop :=
  ∃ value next, call.run json runtime = .returned value next ∧ call.StoredIn next

/-- The replies that the call acts on are reliable.  A subscription goes on to
the publisher with whatever it takes for the reply of the master. -/
def RepliesReliable (json : JsonLibrary) : RegisteringCall Object Environment → Prop
  | advertiseEvent _ _ master | provideMethod _ _ master => master.Reliable json
  | subscribeEvent _ _ master dialing publisher =>
      ¬ master.EndsInHeader ∧ ∀ frame rest, master.reply = .frame frame rest →
        ∀ socket, dialPublisher json dialing frame.data = .connected socket →
          ¬ publisher.EndsInHeader ∧ ∀ reply rest, publisher.reply = .frame reply rest →
            saysOk json reply.data = true → master.Delivers frame ∧ publisher.Delivers reply

end RegisteringCall

theorem Exchange.Delivers.frame_eq {exchange : Exchange} {frame other : Frame}
    {rest : List ReadResult} (delivers : exchange.Delivers frame)
    (replied : exchange.reply = .frame other rest) : frame = other := by
  obtain ⟨rest', received⟩ := Exchange.reply_of_delivers delivers
  exact (Received.frame.inj (received.symm.trans replied)).1

theorem Exchange.reply_verdict (exchange : Exchange) :
    (exchange.reply = .blocked ∧ ¬ exchange.EndsInHeader ∧ ∀ frame, ¬ exchange.Delivers frame) ∨
    (exchange.EndsInHeader ∧ (∃ rest, exchange.reply = .shortHeader rest) ∧
      ∀ frame, ¬ exchange.Delivers frame) ∨
    ∃ frame rest, exchange.reply = .frame frame rest ∧ ¬ exchange.EndsInHeader := by
  have whole : ∀ {frame}, exchange.Delivers frame → ∃ rest, exchange.reply = .frame frame rest :=
    Exchange.reply_of_delivers
  rcases exchange.reply_cases with waits | ⟨rest, short⟩ | ⟨frame, rest, replied⟩
  · refine Or.inl ⟨waits, ?_, ?_⟩
    · simp [Exchange.endsInHeader_iff, waits]
    · intro frame delivers
      obtain ⟨rest, received⟩ := whole delivers
      exact absurd (waits.symm.trans received) (by simp)
  · refine Or.inr (Or.inl ⟨Exchange.endsInHeader_iff.mpr ⟨rest, short⟩, ⟨rest, short⟩, ?_⟩)
    intro frame delivers
    obtain ⟨rest', received⟩ := whole delivers
    exact absurd (short.symm.trans received) (by simp)
  · exact Or.inr (Or.inr ⟨frame, rest, replied, by simp [Exchange.endsInHeader_iff, replied]⟩)

theorem Exchange.receivesOk_iff {exchange : Exchange} {frame : Frame} {rest : List ReadResult}
    (replied : exchange.reply = .frame frame rest) :
    (∃ other, exchange.ReceivesOk json other) ↔
      exchange.Delivers frame ∧ saysOk json frame.data = true := by
  constructor
  · rintro ⟨other, delivers, said⟩
    obtain rfl := delivers.frame_eq replied
    exact ⟨delivers, said⟩
  · exact fun both => ⟨frame, both⟩

namespace UBusRuntime

variable {runtime : UBusRuntime Object Environment}

theorem register_exact {request : Json} {stored : UBusRuntime Object Environment}
    {master : Exchange} {Stored : UBusRuntime Object Environment → Prop} (stores : Stored stored) :
    ((∃ next, runtime.register json request stored master = .returned true next) ↔
      ((json.dump request).isSome = true ∧ ∃ frame, master.ReceivesOk json frame) ∧
        ∃ value next, runtime.register json request stored master = .returned value next ∧
          Stored next) ↔
      ((json.dump request).isSome = true → master.Reliable json) := by
  unfold register
  cases json.dump request with
  | none => simp
  | some text =>
      rcases master.reply_verdict with
        ⟨waits, notShort, nothing⟩ | ⟨short, ⟨rest, replied⟩, nothing⟩ |
          ⟨frame, rest, replied, notShort⟩
      · simp [waits, notShort, nothing, Exchange.ReceivesOk, Exchange.Reliable]
      · simp [replied, short, nothing, Exchange.ReceivesOk, Exchange.Reliable]
      · cases said : saysOk json frame.data with
        | false =>
            simp [replied, said, notShort, Exchange.receivesOk_iff replied, Exchange.Reliable]
        | true =>
            simp [replied, said, notShort, Exchange.receivesOk_iff replied, stores,
              Exchange.Reliable]

end UBusRuntime

theorem dial_connected {dialing : Dialing} {portField ipField : Bytes} {responseJson : Json}
    {socket : Fd} (connected : dial dialing portField ipField responseJson = .connected socket) :
    dialing.socket = some socket := by
  unfold dial at connected
  cases created : dialing.socket with
  | none => simp [created] at connected
  | some other =>
      simp only [created] at connected
      split at connected
      · split_ifs at connected
        exact congrArg some (Dialed.connected.inj connected)
      · cases connected

theorem saysOk_of_subscriptionReply {content : Bytes} {responseJson : Json}
    (accepted : subscriptionReply json content = some responseJson) :
    saysOk json content = true := by
  obtain ⟨parsed, isOk⟩ := Option.filter_eq_some_iff.mp accepted
  rw [saysOk, parsed]
  exact (Bool.and_eq_true_iff.mp isOk).1

theorem dialPublisher_connected {dialing : Dialing} {content : Bytes} {socket : Fd}
    (connected : dialPublisher json dialing content = .connected socket) :
    saysOk json content = true ∧ dialing.socket = some socket := by
  unfold dialPublisher at connected
  cases accepted : subscriptionReply json content with
  | none => simp [accepted] at connected
  | some responseJson =>
      refine ⟨saysOk_of_subscriptionReply accepted, ?_⟩
      simp only [accepted] at connected
      split at connected
      next other dialed =>
          split_ifs at connected
          exact dial_connected (dialed.trans connected)
      · exact dial_connected connected

namespace UBusRuntime

variable {runtime : UBusRuntime Object Environment}

theorem subscribeEvent_exact {topic : Bytes} {typeId : UInt32} {master publisher : Exchange}
    {dialing : Dialing} {call : RegisteringCall Object Environment}
    (callEq : call = .subscribeEvent topic typeId master dialing publisher) :
    (call.ReturnsTrue json runtime ↔
      (call.Sends json runtime ∧ call.Confirmed json) ∧ call.StoredOnReturn json runtime) ↔
      (call.Sends json runtime → call.RepliesReliable json) := by
  subst callEq
  simp only [RegisteringCall.ReturnsTrue, RegisteringCall.Sends, RegisteringCall.Confirmed,
    RegisteringCall.StoredOnReturn, RegisteringCall.RepliesReliable, RegisteringCall.run,
    RegisteringCall.apiCall, subscribeEvent]
  cases json.dump ((ApiCall.subscribeEvent topic typeId).request runtime.name) with
  | none => simp
  | some text =>
      rcases master.reply_verdict with
        ⟨waits, notShort, nothing⟩ | ⟨short, ⟨rest, replied⟩, nothing⟩ |
          ⟨frame, rest, replied, notShort⟩
      · simp [waits, notShort, nothing, Exchange.ReceivesOk]
      · simp [replied, short, nothing, Exchange.ReceivesOk]
      · have confirmed : (∃ other socket reply, master.ReceivesOk json other ∧
            dialPublisher json dialing other.data = .connected socket ∧
              publisher.ReceivesOk json reply) ↔
            ∃ socket, dialPublisher json dialing frame.data = .connected socket ∧
              master.Delivers frame ∧ ∃ reply, publisher.ReceivesOk json reply := by
          constructor
          · rintro ⟨other, socket, reply, ⟨delivers, -⟩, connected, ok⟩
            obtain rfl := delivers.frame_eq replied
            exact ⟨socket, connected, delivers, reply, ok⟩
          · rintro ⟨socket, connected, delivers, reply, ok⟩
            exact ⟨frame, socket, reply, ⟨delivers, (dialPublisher_connected connected).1⟩,
              connected, ok⟩
        rw [confirmed]
        cases dialed : dialPublisher json dialing frame.data with
        | failed => simp [replied, dialed, notShort]
        | noSocket => simp [replied, dialed, notShort]
        | connected socket =>
            have created : dialing.socket = some socket := (dialPublisher_connected dialed).2
            have stored : (RegisteringCall.subscribeEvent topic typeId master dialing
                publisher).StoredIn (runtime.subscribed topic typeId socket) := by
              refine ⟨⟨socket, created, ?_⟩, List.mem_append_right _ (List.mem_singleton_self _)⟩
              simp [subscribed, Subscriptions.add, lookup_insert]
            rcases publisher.reply_verdict with
              ⟨waits, notShort', nothing⟩ | ⟨short, ⟨rest', replied'⟩, nothing⟩ |
                ⟨reply, rest', replied', notShort'⟩
            · simp [replied, dialed, notShort, waits, notShort', nothing, Exchange.ReceivesOk]
            · simp [replied, dialed, notShort, replied', short, nothing, Exchange.ReceivesOk]
            · cases said : saysOk json reply.data with
              | false =>
                  simp [replied, dialed, notShort, replied', notShort', said,
                    Exchange.receivesOk_iff replied']
              | true =>
                  simp [replied, dialed, notShort, replied', notShort', said,
                    Exchange.receivesOk_iff replied', stored]

end UBusRuntime

/-- A registering call returns true exactly if it has been confirmed and its
entry is stored, provided that the replies are reliable.  Otherwise it returns
true without a confirmation. -/
theorem returnsTrue_exact (json : JsonLibrary) (runtime : UBusRuntime Object Environment)
    (call : RegisteringCall Object Environment) :
    (call.ReturnsTrue json runtime ↔
      (call.Sends json runtime ∧ call.Confirmed json) ∧ call.StoredOnReturn json runtime) ↔
      (call.Sends json runtime → call.RepliesReliable json) := by
  cases call with
  | advertiseEvent topic typeId master =>
      apply UBusRuntime.register_exact
      simp [RegisteringCall.StoredIn, lookup_insert]
  | subscribeEvent topic typeId master dialing publisher =>
      exact UBusRuntime.subscribeEvent_exact rfl
  | provideMethod method callback master =>
      apply UBusRuntime.register_exact
      simp [RegisteringCall.StoredIn, lookup_insert]

def UBusRuntime.joined : UBusRuntime Unit Unit where
  name := ascii "node"
  controlSock := 3
  pubList := ∅
  subList := ∅
  methodList := ∅
  unprocessedNewSubEvents := []

def Exchange.closed : Exchange := ⟨⟨fun _ => 0, fun _ => 0⟩, [.bytes []]⟩

def RegisteringCall.unanswered : RegisteringCall Unit Unit :=
  .advertiseEvent (ascii "t") 11 .closed

/-- The call returns true, and nothing has been confirmed or stored. -/
theorem returnsTrue_unanswered :
    let json := JsonLibrary.plain
    RegisteringCall.unanswered.run json .joined = .returned true .joined ∧
      ¬ (RegisteringCall.unanswered.ReturnsTrue json .joined ↔
        (RegisteringCall.unanswered.Sends json .joined ∧
          RegisteringCall.unanswered.Confirmed json) ∧
          RegisteringCall.unanswered.StoredOnReturn json .joined) := by
  intro json
  have ran : RegisteringCall.unanswered.run json .joined = .returned true .joined := rfl
  refine ⟨ran, fun claim => ?_⟩
  obtain ⟨-, value, next, returned, stored⟩ := claim.mp ⟨_, ran⟩
  obtain ⟨-, rfl⟩ := CallOutcome.returned.inj (ran.symm.trans returned)
  simp [RegisteringCall.unanswered, RegisteringCall.StoredIn, UBusRuntime.joined] at stored

inductive RuntimeCall (Object Environment : Type) where
  | registering (call : RegisteringCall Object Environment)
  | callMethod (call : MethodCall Object) (master : Exchange) (dialing : Dialing)
      (provider : Exchange)

namespace RuntimeCall

/-- The call returns false and leaves the state `next`. -/
def ReturnsFalse (json : JsonLibrary) (runtime next : UBusRuntime Object Environment) :
    RuntimeCall Object Environment → Prop
  | registering call => call.run json runtime = .returned false next
  | callMethod call master dialing provider =>
      runtime.callMethod json call master dialing provider = .returned none next

/-- The master has accepted the request, and the socket for the connection to
the other runtime cannot be created. -/
def LacksSocket (json : JsonLibrary) (runtime : UBusRuntime Object Environment) :
    RuntimeCall Object Environment → Prop
  | registering (.subscribeEvent topic typeId master dialing _) =>
      (json.dump ((ApiCall.subscribeEvent topic typeId).request runtime.name)).isSome = true ∧
        dialing.socket = none ∧ ∃ frame rest, master.reply = .frame frame rest ∧
          (subscriptionReply json frame.data).isSome = true
  | callMethod call master dialing _ =>
      (json.dump ((ApiCall.callMethod call.method call.request.id call.response.id).request
          runtime.name)).isSome = true ∧
        dialing.socket = none ∧ ∃ frame rest, master.reply = .frame frame rest ∧
          (confirmation json frame.data).isSome = true
  | _ => False

end RuntimeCall

theorem dial_noSocket_iff (dialing : Dialing) (portField ipField : Bytes) (responseJson : Json) :
    dial dialing portField ipField responseJson = .noSocket ↔ dialing.socket = none := by
  unfold dial
  cases dialing.socket with
  | none => simp
  | some socket =>
      dsimp only
      split
      · split_ifs <;> simp
      · simp

theorem dialPublisher_noSocket_iff {dialing : Dialing} {content : Bytes} :
    dialPublisher json dialing content = .noSocket ↔
      dialing.socket = none ∧ (subscriptionReply json content).isSome = true := by
  unfold dialPublisher
  cases subscriptionReply json content with
  | none => simp
  | some responseJson =>
      dsimp only
      rw [Option.isSome_some,
        ← dial_noSocket_iff dialing (ascii "publisher_port") (ascii "publisher_ip") responseJson]
      split
      next other dialed => split_ifs <;> simp [dialed]
      · simp

theorem dialProvider_noSocket_iff {dialing : Dialing} {content : Bytes} :
    dialProvider json dialing content = .noSocket ↔
      dialing.socket = none ∧ (confirmation json content).isSome = true := by
  unfold dialProvider
  cases confirmation json content with
  | none => simp
  | some responseJson => simp [dial_noSocket_iff]

namespace UBusRuntime

variable {runtime next : UBusRuntime Object Environment}

/-- The state in which the connection to the master has been forgotten. -/
def detached (runtime : UBusRuntime Object Environment) : UBusRuntime Object Environment :=
  { runtime with controlSock := 0 }

theorem detached_eq_self_iff : runtime.detached = runtime ↔ runtime.controlSock = 0 := by
  constructor
  · intro same
    rw [← same]
    rfl
  · intro isZero
    rw [detached, ← isZero]

theorem register_returnsFalse {request : Json} {stored : UBusRuntime Object Environment}
    {master : Exchange}
    (failed : runtime.register json request stored master = .returned false next) :
    next = runtime := by
  unfold register at failed
  cases dumped : json.dump request with
  | none => simp [dumped] at failed
  | some text =>
      rcases master.reply_cases with waits | ⟨rest, short⟩ | ⟨frame, rest, replied⟩
      · simp [dumped, waits] at failed
      · simp [dumped, short] at failed
      · simp only [dumped, replied] at failed
        split_ifs at failed
        · simp at failed
        · exact (CallOutcome.returned.inj failed).2.symm

theorem subscribeEvent_returnsFalse {topic : Bytes} {typeId : UInt32} {master publisher : Exchange}
    {dialing : Dialing}
    (failed : runtime.subscribeEvent json topic typeId master dialing publisher =
      .returned false next) :
    next = runtime ∨ RuntimeCall.LacksSocket json runtime
      (.registering (.subscribeEvent topic typeId master dialing publisher)) ∧
        next = runtime.detached := by
  unfold subscribeEvent at failed
  cases dumped : json.dump ((ApiCall.subscribeEvent topic typeId).request runtime.name) with
  | none => simp [dumped] at failed
  | some text =>
      rcases master.reply_cases with waits | ⟨rest, short⟩ | ⟨frame, rest, replied⟩
      · simp [dumped, waits] at failed
      · simp [dumped, short] at failed
      · cases dialed : dialPublisher json dialing frame.data with
        | failed =>
            simp only [dumped, replied, dialed] at failed
            exact Or.inl (CallOutcome.returned.inj failed).2.symm
        | noSocket =>
            simp only [dumped, replied, dialed] at failed
            obtain ⟨noSocket, accepted⟩ := dialPublisher_noSocket_iff.mp dialed
            exact Or.inr ⟨⟨by rw [dumped]; rfl, noSocket, frame, rest, replied, accepted⟩,
              (CallOutcome.returned.inj failed).2.symm⟩
        | connected socket =>
            left
            rcases publisher.reply_cases with waits | ⟨rest', short⟩ | ⟨reply, rest', replied'⟩
            · simp [dumped, replied, dialed, waits] at failed
            · simp [dumped, replied, dialed, short] at failed
            · simp only [dumped, replied, dialed, replied'] at failed
              split_ifs at failed
              · simp at failed
              · exact (CallOutcome.returned.inj failed).2.symm

theorem callMethod_returnsFalse {call : MethodCall Object} {master provider : Exchange}
    {dialing : Dialing}
    (failed : runtime.callMethod json call master dialing provider = .returned none next) :
    next = runtime ∨ RuntimeCall.LacksSocket json runtime
      (.callMethod call master dialing provider) ∧ next = runtime.detached := by
  unfold callMethod at failed
  cases dumped : json.dump ((ApiCall.callMethod call.method call.request.id
    call.response.id).request runtime.name) with
  | none => simp [dumped] at failed
  | some text =>
      rcases master.reply_cases with waits | ⟨rest, short⟩ | ⟨frame, rest, replied⟩
      · simp [dumped, waits] at failed
      · simp only [dumped, short] at failed
        exact Or.inl (CallOutcome.returned.inj failed).2.symm
      · cases dialed : dialProvider json dialing frame.data with
        | failed =>
            simp only [dumped, replied, dialed] at failed
            exact Or.inl (CallOutcome.returned.inj failed).2.symm
        | noSocket =>
            simp only [dumped, replied, dialed] at failed
            obtain ⟨noSocket, accepted⟩ := dialProvider_noSocket_iff.mp dialed
            exact Or.inr ⟨⟨by rw [dumped]; rfl, noSocket, frame, rest, replied, accepted⟩,
              (CallOutcome.returned.inj failed).2.symm⟩
        | connected socket =>
            left
            simp only [dumped, replied, dialed] at failed
            split at failed
            · exact (CallOutcome.returned.inj failed).2.symm
            · split at failed
              · simp at failed
              all_goals exact (CallOutcome.returned.inj failed).2.symm

end UBusRuntime

/-- A failed call has changed nothing, or it has forgotten the connection to the
master for want of a socket. -/
theorem RuntimeCall.returnsFalse_cases {runtime next : UBusRuntime Object Environment}
    {call : RuntimeCall Object Environment} (failed : call.ReturnsFalse json runtime next) :
    next = runtime ∨ call.LacksSocket json runtime ∧ next = runtime.detached := by
  cases call with
  | registering call =>
      cases call with
      | advertiseEvent topic typeId master =>
          exact Or.inl (UBusRuntime.register_returnsFalse failed)
      | subscribeEvent topic typeId master dialing publisher =>
          exact UBusRuntime.subscribeEvent_returnsFalse failed
      | provideMethod method callback master =>
          exact Or.inl (UBusRuntime.register_returnsFalse failed)
  | callMethod call master dialing provider =>
      exact UBusRuntime.callMethod_returnsFalse failed

theorem RuntimeCall.LacksSocket.returnsFalse {runtime : UBusRuntime Object Environment}
    {call : RuntimeCall Object Environment} (lacks : call.LacksSocket json runtime) :
    call.ReturnsFalse json runtime runtime.detached := by
  match call, lacks with
  | .registering (.subscribeEvent topic typeId master dialing publisher),
      ⟨sends, noSocket, frame, rest, replied, accepted⟩ =>
      obtain ⟨text, dumped⟩ := Option.isSome_iff_exists.mp sends
      have dialed := dialPublisher_noSocket_iff.mpr ⟨noSocket, accepted⟩
      simp only [ReturnsFalse, RegisteringCall.run, UBusRuntime.subscribeEvent, dumped, replied,
        dialed]
      rfl
  | .callMethod call master dialing provider,
      ⟨sends, noSocket, frame, rest, replied, accepted⟩ =>
      obtain ⟨text, dumped⟩ := Option.isSome_iff_exists.mp sends
      have dialed := dialProvider_noSocket_iff.mpr ⟨noSocket, accepted⟩
      simp only [ReturnsFalse, UBusRuntime.callMethod, dumped, replied, dialed]
      rfl

/-- A call that returns false leaves the runtime as it was, exactly if no socket
is missing for it or the connection to the master was already forgotten. -/
theorem failed_call_unchanged_iff (json : JsonLibrary)
    (runtime : UBusRuntime Object Environment) (call : RuntimeCall Object Environment) :
    (∀ next, call.ReturnsFalse json runtime next → next = runtime) ↔
      ¬ (call.LacksSocket json runtime ∧ runtime.controlSock ≠ 0) := by
  constructor
  · rintro unchanged ⟨lacks, attached⟩
    exact attached (UBusRuntime.detached_eq_self_iff.mp (unchanged _ lacks.returnsFalse))
  · intro holds next failed
    rcases RuntimeCall.returnsFalse_cases failed with same | ⟨lacks, rfl⟩
    · exact same
    · apply UBusRuntime.detached_eq_self_iff.mpr
      by_contra attached
      exact holds ⟨lacks, attached⟩

def confirmedSubscription : Json :=
  Json.ofAssignments [
    (ascii "response", .string (ascii "OK")),
    (ascii "publisher_ip", .string (ascii "127.0.0.1")),
    (ascii "publisher_port", .ofInt32 4000),
    (ascii "publisher_name", .string (ascii "pub"))]

def confirmationText : Bytes := requestText confirmedSubscription

/-- A subscription in a process that has used up its file descriptors. -/
def RuntimeCall.undialed : RuntimeCall Unit Unit :=
  .registering (.subscribeEvent (ascii "t") 11
    ⟨⟨fun _ => 0, fun _ => 0⟩,
      [.bytes (headerBytes FrameType.unknown.code (0, 0, 0) confirmationText.length),
        .bytes confirmationText]⟩
    ⟨none, fun _ => true, fun _ _ => true⟩ .closed)

/-- The call returns false, and the runtime no longer knows its connection to
the master. -/
theorem failed_call_detaches :
    RuntimeCall.undialed.ReturnsFalse .plain .joined UBusRuntime.joined.detached ∧
      UBusRuntime.joined.detached.controlSock ≠ UBusRuntime.joined.controlSock ∧
      ¬ ∀ next, RuntimeCall.undialed.ReturnsFalse .plain .joined next →
        next = UBusRuntime.joined := by
  have attached : UBusRuntime.joined.controlSock ≠ 0 := by decide
  have returned : RuntimeCall.undialed.ReturnsFalse .plain .joined
      UBusRuntime.joined.detached := by
    rfl
  refine ⟨returned, attached.symm, fun unchanged => ?_⟩
  exact attached (UBusRuntime.detached_eq_self_iff.mp (unchanged _ returned))

end UBus
