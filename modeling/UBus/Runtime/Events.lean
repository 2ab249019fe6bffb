import UBus.Message
import UBus.Runtime.Publication
import UBus.Segmentation

/-!
# Events on their way

A published event is a serialized object.  It is copied like a C string,
framed, and received by the poll loop of the subscriber, which finds the
callback of the socket and gives it the contents of the frame.  This file
determines which events arrive unchanged.
-/

namespace UBus

open FiniteMap

/-- `SubEventInfo`, without the topic, which is its key in `sub_list_`, and
without the callback, which the topic and the type identify. -/
structure SubEventInfo where
  type : UInt32
  socket : Fd

/-- `sub_list_` and the queue of the topics that have no slot in the poll loop
yet. -/
structure Subscriptions where
  subList : FiniteMap Bytes SubEventInfo
  unprocessedNewSubEvents : List Bytes

/-- The end of a successful `subscribe_event`. -/
def Subscriptions.add (subscriptions : Subscriptions) (topic : Bytes) (typeId : UInt32)
    (socket : Fd) : Subscriptions where
  subList := subscriptions.subList.insert topic ⟨typeId, socket⟩
  unprocessedNewSubEvents := subscriptions.unprocessedNewSubEvents ++ [topic]

/-- The topic whose callback `process_event_message` runs for a socket: the loop
over `sub_list_` stops at the first entry with that socket. -/
def callbackTopic (subList : FiniteMap Bytes SubEventInfo) (order : List Bytes) (socket : Fd) :
    Option Bytes :=
  order.find? fun topic => (subList.lookup topic).any fun subEventInfo =>
    subEventInfo.socket = socket

/-- The calls of callbacks within a number of passes over a socket, each with
its topic and the contents it is given. -/
def callbackCalls (subList : FiniteMap Bytes SubEventInfo) (order : List Bytes) (socket : Fd)
    (memory : Nat → StackMemory) (passes : Nat) (results : List ReadResult) :
    List (Bytes × Bytes) :=
  (eventPasses memory passes results).filterMap fun content =>
    (callbackTopic subList order socket).map fun topic => (topic, content)

/-- `EventCallbackHolder<EventT>::operator()`: the object `callback_` is called
with. -/
def EventCallbackHolder.operator {Object : Type} (message : Message Object) (data : Bytes) :
    Object :=
  message.deserialize data

/-- Whether the contents a runtime gets from a connection are eventually those
given, whatever its buffers contained before. -/
def GetsContents (results : List ReadResult) (contents : List Bytes) : Prop :=
  ∀ memory, ∃ enough, ∀ passes, enough ≤ passes → eventPasses memory passes results = contents

section Receiving

variable {data wire : Bytes} {results : List ReadResult}

theorem eventContents_eventFrame (data : Bytes) : eventContents [eventFrame data] = [data] := rfl

/-- A single event is received as it is on the wire, unless its header is
cut: then some contents of the buffers lead to something else. -/
theorem getsContents_iff (isWire : IsWireFrame (eventFrame data) wire)
    (segmented : Segmented results) (arrived : arrivedBytes results = wire) (text : Bytes) :
    GetsContents results [text] ↔ data = text ∧ ¬ SplitsHeader [wire] results := by
  have areWires : List.Forall₂ IsWireFrame [eventFrame data] [wire] := .cons isWire .nil
  have flat : arrivedBytes results = [wire].flatten := by simpa using arrived
  rcases frame_start isWire segmented flat with
    ⟨bytes, others, rfl, short, splits⟩ | ⟨rest, received, restSegmented, left, splitsIff⟩
  · refine iff_of_false (fun gets => ?_) fun both => both.2 splits
    obtain ⟨memory, different⟩ := exists_eventPasses_ne_of_short short text []
    obtain ⟨enough, passes⟩ := gets memory
    exact different enough (passes (enough + 1) (by omega))
  · have keeps : ¬ SplitsHeader [wire] results :=
      splitsIff.not.mpr (not_splitsHeader_nil rest)
    have delivers := deliversAll_of_not_splitsHeader areWires segmented flat keeps
    constructor
    · intro gets
      obtain ⟨enough, delivered⟩ := delivers fun _ => ⟨fun _ => 0, fun _ => 0⟩
      obtain ⟨enough', passes⟩ := gets fun _ => ⟨fun _ => 0, fun _ => 0⟩
      have both := (delivered (enough + enough') (by omega)).symm.trans
        (passes (enough + enough') (by omega))
      exact ⟨by simpa [eventContents_eventFrame] using both, keeps⟩
    · rintro ⟨rfl, -⟩
      exact delivers

/-- If the header is cut, stale memory can make the runtime wait for bytes that
never come. -/
theorem exists_eventPasses_nil_of_short {bytes : Bytes} {others : List ReadResult}
    (segmented : Segmented (.bytes (FrameType.event.code :: bytes) :: others))
    (short : (FrameType.event.code :: bytes).length < headerSize)
    (few : (arrivedBytes others).length < 255) :
    ∃ memory : Nat → StackMemory, ∀ passes,
      eventPasses memory passes (.bytes (FrameType.event.code :: bytes) :: others) = [] := by
  refine ⟨fun _ => ⟨fun _ => 255, fun _ => 0⟩, fun passes => ?_⟩
  cases passes with
  | zero => rfl
  | succ passes =>
      have size : toSizeT ((FrameType.event.code :: bytes).length : Int) =
          (FrameType.event.code :: bytes).length :=
        toSizeT_natCast (short.trans (by decide))
      have nonzero : ¬ (FrameType.event.code :: bytes).length = 0 := by simp
      have large : 255 ≤ (parseHeader (fillBuffer (fun _ => 255) headerSize
          (FrameType.event.code :: bytes))).dataLength := by
        have lastByte : (fillBuffer (fun _ => 255) headerSize
            (FrameType.event.code :: bytes)).getD 7 0 = 255 := by
          have beyond : (FrameType.event.code :: bytes).length ≤ 7 := by
            simp only [headerSize] at short
            omega
          simp [fillBuffer, headerSize, List.getElem?_eq_none beyond]
        simp only [parseHeader, lastByte, ntohl]
        exact Nat.le_add_left ..
      have waits := readn_incomplete segmented.tail.intact (few.trans_le large)
      have hasData := Nat.lt_of_lt_of_le (show 0 < 255 by decide) large
      simp only [eventPasses, receiveEventFrame, read_short_header others short, size,
        if_neg nonzero, if_pos hasData, waits]

end Receiving

theorem Publication.sends_whole {publication : Publication} {writes : Writes} (errno : Errno)
    (header : Progressing writes.header) (body : Progressing writes.body) :
    (publication.send errno writes).written = publication.frameBytes := by
  have completes : ∀ errno (data : Bytes) results, Progressing results →
      (UBus.transfer errno data.length results).1 = true := by
    intro errno data results progressing
    obtain ⟨sent, -, -⟩ := writen_progressing data errno progressing
    simpa [sent] using (writen_transfer errno data results).1
  have headerSent := completes errno publication.header writes.header header
  have bodySent errno := completes errno publication.text writes.body body
  rw [show publication.header.length = headerSize from headerBytes_length ..] at headerSent
  refine (publication.send_transfer errno writes).2.1.mpr ?_
  rw [publication.transfer_of_header_sent (Prod.ext headerSent rfl)]
  exact bodySent _

theorem publishEvent_sends_whole {pubList : FiniteMap Bytes PubEventInfo}
    {publication : Publication} {pubEventInfo : PubEventInfo} {order : List Bytes}
    (listed : pubList.lookup publication.topic = some pubEventInfo)
    (enumerates : Enumerates order pubEventInfo.clientSocketMap) {writes : Bytes → Writes}
    (errno : Errno) {name : Bytes} (member : name ∈ pubEventInfo.clientSocketMap)
    (header : Progressing (writes name).header) (body : Progressing (writes name).body) :
    (publishEvent pubList pubEventInfo.type publication order writes errno).sentTo name =
      publication.frameBytes := by
  obtain ⟨before, sending, -, rfl, sent, -⟩ :=
    publishEvent_subscriber listed enumerates writes errno member
  exact sent.trans (Publication.sends_whole before header body)

/-- An event on its way from a call of `publish_event` to the callback of one
subscriber, over a connection that delivers what is written, in any pieces. -/
structure Delivery {Object : Type} (message : Message Object) (event : Object) where
  pubList : FiniteMap Bytes PubEventInfo
  pubEventInfo : PubEventInfo
  topic : Bytes
  padding : Padding
  listed : pubList.lookup topic = some pubEventInfo
  typed : pubEventInfo.type = message.id
  order : List Bytes
  enumerates : Enumerates order pubEventInfo.clientSocketMap
  writes : Bytes → Writes
  errno : Errno
  name : Bytes
  subscribed : name ∈ pubEventInfo.clientSocketMap
  progressing : Progressing (writes name).header ∧ Progressing (writes name).body
  subList : FiniteMap Bytes SubEventInfo
  visits : List Bytes
  socket : Fd
  hasCallback : callbackTopic subList visits socket = some topic
  arrivals : List ReadResult
  segmented : Segmented arrivals
  intact : arrivedBytes arrivals = (publishEvent pubList message.id
    ⟨topic, message.serialize event, padding⟩ order writes errno).sentTo name

namespace Delivery

variable {Object : Type} {message : Message Object} {event : Object}
  (delivery : Delivery message event)

def publication : Publication := ⟨delivery.topic, message.serialize event, delivery.padding⟩

def calls (memory : Nat → StackMemory) (passes : Nat) : List (Bytes × Bytes) :=
  callbackCalls delivery.subList delivery.visits delivery.socket memory passes delivery.arrivals

def SplitsHeader : Prop := UBus.SplitsHeader [delivery.publication.frameBytes] delivery.arrivals

/-- In the end the callback of the topic has been called once, and with the
serialized event, whatever the buffers contained. -/
def CallsWithText : Prop :=
  ∀ memory, ∃ enough, ∀ passes, enough ≤ passes →
    delivery.calls memory passes = [(delivery.topic, message.serialize event)]

/-- In the end the callback of the application has been called once, and with
the event that was published. -/
def CallsWithEvent : Prop :=
  ∀ memory, ∃ enough, ∀ passes, enough ≤ passes →
    (delivery.calls memory passes).map (fun call =>
      (call.1, EventCallbackHolder.operator message call.2)) = [(delivery.topic, event)]

theorem arrived : arrivedBytes delivery.arrivals = delivery.publication.frameBytes := by
  have listed : delivery.pubList.lookup delivery.publication.topic = some delivery.pubEventInfo :=
    delivery.listed
  rw [delivery.intact, ← delivery.typed]
  exact publishEvent_sends_whole listed delivery.enumerates delivery.errno delivery.subscribed
    delivery.progressing.1 delivery.progressing.2

theorem calls_eq (memory : Nat → StackMemory) (passes : Nat) :
    delivery.calls memory passes =
      (eventPasses memory passes delivery.arrivals).map
        fun content => (delivery.topic, content) := by
  rw [calls, callbackCalls, delivery.hasCallback, ← List.filterMap_eq_map]
  rfl

theorem callsWithText_iff :
    delivery.CallsWithText ↔ GetsContents delivery.arrivals [message.serialize event] := by
  have same : ∀ contents : List Bytes,
      contents.map (fun content => (delivery.topic, content)) =
        [(delivery.topic, message.serialize event)] ↔ contents = [message.serialize event] := by
    intro contents
    have injective := List.map_injective_iff.mpr
      (Prod.mk_right_injective (β := Bytes) delivery.topic)
    exact injective.eq_iff' rfl
  simp only [CallsWithText, GetsContents, delivery.calls_eq, same]

/-- The object that an application gets is right if the class is lossless and
the text is. -/
theorem callsWithEvent_of_text (lossless : message.Lossless) (withText : delivery.CallsWithText) :
    delivery.CallsWithEvent := by
  intro memory
  obtain ⟨enough, passes⟩ := withText memory
  refine ⟨enough, fun count isEnough => ?_⟩
  rw [passes count isEnough]
  exact congrArg (fun object => [(delivery.topic, object)]) (lossless event)

theorem callsWithText_iff_copied (short : (message.serialize event).length < 2 ^ 32) :
    delivery.CallsWithText ↔
      (∀ byte ∈ (message.serialize event).dropWhile (· ≠ 0), byte = 0) ∧
        ¬ delivery.SplitsHeader := by
  have isWire : IsWireFrame (eventFrame delivery.publication.body)
      delivery.publication.frameBytes := Publication.isWireFrame _ short
  rw [delivery.callsWithText_iff, getsContents_iff isWire delivery.segmented delivery.arrived]
  exact and_congr_left fun _ => strncpy_eq_self_iff

theorem callsWithEvent_iff (lossless : message.Lossless)
    (nulFree : 0 ∉ message.serialize event) (short : (message.serialize event).length ≤ 20) :
    delivery.CallsWithEvent ↔ ¬ delivery.SplitsHeader := by
  have isWire : IsWireFrame (eventFrame delivery.publication.body)
      delivery.publication.frameBytes :=
    Publication.isWireFrame _ (short.trans_lt (by norm_num))
  constructor
  · intro withEvent splits
    have flat : arrivedBytes delivery.arrivals = [delivery.publication.frameBytes].flatten := by
      simp [delivery.arrived]
    rcases frame_start isWire delivery.segmented flat with
      ⟨bytes, others, arrivalsEq, headerShort, -⟩ | ⟨rest, -, -, -, splitsIff⟩
    · have segmented := delivery.segmented
      have arrived := delivery.arrived
      rw [arrivalsEq] at segmented arrived
      have few : (arrivedBytes others).length < 255 := by
        have lengths := congrArg List.length arrived
        have header : delivery.publication.header.length = headerSize := headerBytes_length ..
        simp only [arrivedBytes_bytes, Publication.frameBytes, List.length_append,
          Publication.body_length, header, List.length_cons, headerSize] at lengths
        have text : delivery.publication.text.length ≤ 20 := short
        omega
      obtain ⟨memory, nothing⟩ := exists_eventPasses_nil_of_short segmented headerShort few
      obtain ⟨enough, passes⟩ := withEvent memory
      have none := nothing enough
      have called := passes enough le_rfl
      rw [delivery.calls_eq, arrivalsEq] at called
      change List.map _ (List.map _ (eventPasses memory enough
        (.bytes (FrameType.event.code :: bytes) :: others))) = _ at called
      simp [none] at called
    · exact not_splitsHeader_nil rest (splitsIff.mp splits)
  · intro keeps
    have nothing : (message.serialize event).dropWhile (· ≠ 0) = [] := by
      rw [List.dropWhile_eq_nil_iff]
      intro byte member
      simpa using fun isZero : byte = 0 => nulFree (isZero ▸ member)
    apply delivery.callsWithEvent_of_text lossless
    apply (delivery.callsWithText_iff_copied (short.trans_lt (by norm_num))).mpr
    rw [nothing]
    exact ⟨by simp, keeps⟩

end Delivery

/-- The callback is given the serialized event exactly if it is copied whole,
which is so if nothing but NULs follows its first NUL, and its header is not
cut.  The callback of the application is then called with the event. -/
theorem payload_arrives_iff {Object : Type} {message : Message Object} {event : Object}
    (delivery : Delivery message event) (short : (message.serialize event).length < 2 ^ 32) :
    (delivery.CallsWithText ↔
      (∀ byte ∈ (message.serialize event).dropWhile (· ≠ 0), byte = 0) ∧
        ¬ delivery.SplitsHeader) ∧
    (message.Lossless → delivery.CallsWithText → delivery.CallsWithEvent) :=
  ⟨delivery.callsWithText_iff_copied short, delivery.callsWithEvent_of_text⟩

/-- An integer reaches the application exactly if its header is not cut, whatever
the object it is read into contained, and distinct integers have distinct
texts. -/
theorem integers_arrive_iff {fresh event : Int32Msg} {freshWide eventWide : Int64Msg}
    (delivery : Delivery (Int32Msg.message fresh) event)
    (deliveryWide : Delivery (Int64Msg.message freshWide) eventWide) :
    (delivery.CallsWithEvent ↔ ¬ delivery.SplitsHeader) ∧
      (deliveryWide.CallsWithEvent ↔ ¬ deliveryWide.SplitsHeader) ∧
      Function.Injective Int32Msg.serialize ∧ Function.Injective Int64Msg.serialize := by
  refine ⟨?_, ?_, (Int32Msg.lossless ⟨0⟩).serialize_injective,
    (Int64Msg.lossless ⟨0⟩).serialize_injective⟩
  · have low := event.data.le_toInt
    have high := event.data.toInt_lt
    exact delivery.callsWithEvent_iff (Int32Msg.lossless fresh) (stdToString_nulFree _)
      (stdToString_length_le (by omega))
  · have low := eventWide.data.le_toInt
    have high := eventWide.data.toInt_lt
    exact deliveryWide.callsWithEvent_iff (Int64Msg.lossless freshWide) (stdToString_nulFree _)
      (stdToString_length_le (by omega))

theorem enumerates_subscriber :
    Enumerates [ascii "a"] (FiniteMap.insert (∅ : FiniteMap Bytes Fd) (ascii "a") 7) := by
  decide +kernel

theorem mem_subscriber : ascii "a" ∈ FiniteMap.insert (∅ : FiniteMap Bytes Fd) (ascii "a") 7 := by
  decide +kernel

namespace Delivery

section Sample

variable {Object : Type} (message : Message Object) (event : Object)

def samplePublication : Publication := ⟨ascii "t", message.serialize event, (0, 0, 0)⟩

def samplePubEventInfo : PubEventInfo :=
  { type := message.id, clientSocketMap := FiniteMap.insert ∅ (ascii "a") 7 }

theorem sample_listed : (FiniteMap.insert ∅ (ascii "t") (samplePubEventInfo message)).lookup
    (samplePublication message event).topic = some (samplePubEventInfo message) := by
  rw [lookup_insert]
  exact if_pos rfl

def sample (arrivals : List ReadResult) (segmented : Segmented arrivals)
    (arrived : arrivedBytes arrivals = (samplePublication message event).frameBytes) :
    Delivery message event where
  pubList := FiniteMap.insert ∅ (ascii "t") (samplePubEventInfo message)
  pubEventInfo := samplePubEventInfo message
  topic := ascii "t"
  padding := (0, 0, 0)
  listed := sample_listed message event
  typed := rfl
  order := [ascii "a"]
  enumerates := enumerates_subscriber
  writes _ := ⟨[], []⟩
  errno := .eintr
  name := ascii "a"
  subscribed := mem_subscriber
  progressing := by simp [Progressing]
  subList := FiniteMap.insert ∅ (ascii "t") ⟨message.id, 5⟩
  visits := [ascii "t"]
  socket := 5
  hasCallback := by simp [callbackTopic, lookup_insert]
  arrivals := arrivals
  segmented := segmented
  intact := by
    rw [arrived]
    exact (publishEvent_sends_whole (sample_listed message event) enumerates_subscriber .eintr
      mem_subscriber (by simp [Progressing]) (by simp [Progressing])).symm

end Sample

end Delivery

theorem not_splitsHeader_of_one_piece {wire piece : Bytes} (whole : headerSize ≤ piece.length) :
    ¬ SplitsHeader [wire] [.bytes piece] := by
  rintro ⟨before, inside, after, position, split, cut, low, high⟩
  have first : before = [] := by
    cases before with
    | nil => rfl
    | cons other before => simp at split
  subst first
  simp only [List.flatten_nil, List.length_nil] at low high
  rw [cutAt_cons] at cut
  rcases cut with isZero | ⟨later, -, positionEq⟩
  · omega
  · simp only [arrivedBytes_bytes, arrivedBytes_nil, List.append_nil] at positionEq
    omega

def textDelivery : Delivery (StringMsg.message ⟨[]⟩) ⟨ascii "hi"⟩ :=
  .sample _ _ [.bytes [4, 0, 0, 0, 0, 0, 0, 2, 104, 105]] (by simp [Segmented]) (by decide)

theorem payload_arrives_sample : textDelivery.CallsWithText :=
  (payload_arrives_iff textDelivery (by decide)).1.mpr
    ⟨List.forall_mem_nil _, not_splitsHeader_of_one_piece (by decide)⟩

def binaryDelivery : Delivery (StringMsg.message ⟨[]⟩) ⟨[97, 0, 98]⟩ :=
  .sample _ _ [.bytes [4, 0, 0, 0, 0, 0, 0, 3, 97, 0, 0]] (by simp [Segmented]) (by decide)

/-- What follows the NUL arrives as a NUL. -/
theorem payload_cut_at_nul :
    GetsContents binaryDelivery.arrivals [[97, 0, 0]] ∧ ¬ binaryDelivery.CallsWithText := by
  have keeps : ¬ binaryDelivery.SplitsHeader := not_splitsHeader_of_one_piece (by decide)
  constructor
  · apply (getsContents_iff (Publication.isWireFrame _ (by decide)) binaryDelivery.segmented
      binaryDelivery.arrived _).mpr
    exact ⟨by decide, keeps⟩
  · rw [binaryDelivery.callsWithText_iff_copied (by decide)]
    exact fun both => absurd both.1 (by decide)

def numberDelivery : Delivery (Int32Msg.message ⟨0⟩) ⟨5⟩ :=
  .sample _ _ [.bytes [4, 0, 0, 0, 0, 0, 0, 1, 53]] (by simp [Segmented]) (by decide)

def cutDelivery : Delivery (Int32Msg.message ⟨0⟩) ⟨5⟩ :=
  .sample _ _ [.bytes [4, 0, 0, 0], .bytes [0, 0, 0, 1, 53]] (by simp [Segmented]) (by decide)

def wideDelivery : Delivery (Int64Msg.message ⟨0⟩) ⟨-5⟩ :=
  .sample _ _ [.bytes [4, 0, 0, 0, 0, 0, 0, 2, 45, 53]] (by simp [Segmented]) (by decide)

theorem integers_arrive_sample :
    numberDelivery.CallsWithEvent ∧ wideDelivery.CallsWithEvent := by
  obtain ⟨arrives, arrivesWide, -, -⟩ := integers_arrive_iff numberDelivery wideDelivery
  exact ⟨arrives.mpr (not_splitsHeader_of_one_piece (by decide)),
    arrivesWide.mpr (not_splitsHeader_of_one_piece (by decide))⟩

/-- With a header in two pieces the number may not arrive. -/
theorem integer_lost : ¬ ∀ (fresh event : Int32Msg)
    (delivery : Delivery (Int32Msg.message fresh) event), delivery.CallsWithEvent := by
  intro arrives
  have withEvent := arrives ⟨0⟩ ⟨5⟩ cutDelivery
  rw [cutDelivery.callsWithEvent_iff (Int32Msg.lossless ⟨0⟩) (by decide) (by decide)] at withEvent
  refine withEvent ⟨[], _, [], 4, rfl, ?_, by decide, by decide⟩
  exact ⟨[.bytes [4, 0, 0, 0]], [.bytes [0, 0, 0, 1, 53]], rfl, rfl⟩

end UBus
