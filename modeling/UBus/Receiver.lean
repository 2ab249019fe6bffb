import UBus.Frame
import UBus.SocketIO

/-!
# Receiving frames

The program reads frames in three places, each in its own way.  The listeners
read header and contents with `readn`.  The poll loop of the master reads the
header with a single `read` and gives up on anything short.  The poll loop of
a runtime does the same but goes on with whatever its buffers contain.
-/

namespace UBus

/-- What the receive buffers contain before a read fills them. -/
structure StackMemory where
  header : Nat → UInt8
  content : Nat → UInt8

/-- A buffer of `size` bytes after a read stored `received` at its start. -/
def fillBuffer (stale : Nat → UInt8) (size : Nat) (received : Bytes) : Bytes :=
  (List.range size).map fun index => received.getD index (stale index)

@[simp]
theorem fillBuffer_length (stale : Nat → UInt8) (size : Nat) (received : Bytes) :
    (fillBuffer stale size received).length = size := by
  simp [fillBuffer]

theorem fillBuffer_full (stale : Nat → UInt8) (received : Bytes) :
    fillBuffer stale received.length received = received := by
  apply List.ext_getElem (by simp)
  intro index before after
  simp [fillBuffer, List.getElem?_eq_getElem after]

inductive Received where
  | blocked
  | peerClosed (rest : List ReadResult)
  | shortHeader (rest : List ReadResult)
  | shortContent (rest : List ReadResult)
  | frame (frame : Frame) (rest : List ReadResult)

/-- The receiver of `start_listening_socket`.  A short body is only logged. -/
def receiveFrame (memory : StackMemory) (results : List ReadResult) : Received :=
  match readn headerSize results with
  | none => .blocked
  | some headerRead =>
      if toSizeT headerRead.ret < headerSize then .shortHeader headerRead.rest
      else
        let header := parseHeader (fillBuffer memory.header headerSize headerRead.received)
        match readn header.dataLength headerRead.rest with
        | none => .blocked
        | some bodyRead =>
            .frame ⟨header.messageType,
              fillBuffer memory.content header.dataLength bodyRead.received⟩ bodyRead.rest

/-- The receiver in the poll loop of `UBusMaster::process_control_message`. -/
def receiveControlFrame (memory : StackMemory) (results : List ReadResult) : Received :=
  match read headerSize results with
  | none => .blocked
  | some headerRead =>
      if toSizeT headerRead.ret = 0 then .peerClosed headerRead.rest
      else if toSizeT headerRead.ret < headerSize then .shortHeader headerRead.rest
      else
        let header := parseHeader (fillBuffer memory.header headerSize headerRead.received)
        if 0 < header.dataLength then
          match readn header.dataLength headerRead.rest with
          | none => .blocked
          | some bodyRead =>
              if toSizeT bodyRead.ret < header.dataLength then .shortContent bodyRead.rest
              else .frame ⟨header.messageType,
                fillBuffer memory.content header.dataLength bodyRead.received⟩ bodyRead.rest
        else .frame ⟨header.messageType, []⟩ headerRead.rest

/-- The receiver in the poll loop of `UBusRuntime::process_event_message`.  A
short header or body is only logged. -/
def receiveEventFrame (memory : StackMemory) (results : List ReadResult) : Received :=
  match read headerSize results with
  | none => .blocked
  | some headerRead =>
      if toSizeT headerRead.ret = 0 then .peerClosed headerRead.rest
      else
        let header := parseHeader (fillBuffer memory.header headerSize headerRead.received)
        if 0 < header.dataLength then
          match readn header.dataLength headerRead.rest with
          | none => .blocked
          | some bodyRead =>
              .frame ⟨header.messageType,
                fillBuffer memory.content header.dataLength bodyRead.received⟩ bodyRead.rest
        else .frame ⟨header.messageType, []⟩ headerRead.rest

/-- The frames the poll loop of the master handles on one connection within a
number of passes.  `memory` gives the buffer contents before each pass. -/
def controlPasses (memory : Nat → StackMemory) : Nat → List ReadResult → List Frame
  | 0, _ => []
  | passes + 1, results =>
      match receiveControlFrame (memory 0) results with
      | .blocked | .peerClosed _ => []
      | .shortHeader rest | .shortContent rest =>
          controlPasses (fun pass => memory (pass + 1)) passes rest
      | .frame frame rest => frame :: controlPasses (fun pass => memory (pass + 1)) passes rest

/-- The contents the poll loop of a runtime passes to the callback of one
connection within a number of passes. -/
def eventPasses (memory : Nat → StackMemory) : Nat → List ReadResult → List Bytes
  | 0, _ => []
  | passes + 1, results =>
      match receiveEventFrame (memory 0) results with
      | .blocked | .peerClosed _ => []
      | .shortHeader rest | .shortContent rest =>
          eventPasses (fun pass => memory (pass + 1)) passes rest
      | .frame frame rest =>
          let later := eventPasses (fun pass => memory (pass + 1)) passes rest
          if frame.messageType = FrameType.event.code then frame.data :: later else later

def receiveFrames (memory : Nat → StackMemory) :
    Nat → List ReadResult → Option (List Frame × List ReadResult)
  | 0, results => some ([], results)
  | count + 1, results =>
      match receiveFrame (memory 0) results with
      | .frame frame rest =>
          (receiveFrames (fun next => memory (next + 1)) count rest).map fun later =>
            (frame :: later.1, later.2)
      | _ => none

theorem toSizeT_natCast {size : Nat} (bounded : size < 2 ^ 64) : toSizeT size = size := by
  unfold toSizeT
  omega

theorem IsWireFrame.arrives {frame : Frame} {wire : Bytes} (isWire : IsWireFrame frame wire)
    (stream : Bytes) :
    ∃ padding, (wire ++ stream).take headerSize =
        headerBytes frame.messageType padding frame.data.length ∧
      (wire ++ stream).drop headerSize = frame.data ++ stream ∧
      wire.length = headerSize + frame.data.length := by
  obtain ⟨-, padding, rfl⟩ := isWire
  refine ⟨padding, ?_, ?_, by simp⟩
  · rw [List.append_assoc]
    exact List.take_left' (headerBytes_length ..)
  · rw [List.append_assoc]
    exact List.drop_left' (headerBytes_length ..)

theorem parseHeader_fillBuffer {frame : Frame} (short : frame.data.length < 2 ^ 32)
    (padding : Padding) (stale : Nat → UInt8) :
    parseHeader (fillBuffer stale headerSize
        (headerBytes frame.messageType padding frame.data.length)) =
      ⟨frame.messageType, frame.data.length⟩ := by
  have full := fillBuffer_full stale (headerBytes frame.messageType padding frame.data.length)
  rw [headerBytes_length] at full
  rw [full, parseHeader_headerBytes, Nat.mod_eq_of_lt short]

theorem readn_body {frame : Frame} {stream : Bytes} {results : List ReadResult}
    (intact : Intact results) (arrived : arrivedBytes results = frame.data ++ stream) :
    ∃ rest, readn frame.data.length results = some ⟨frame.data.length, frame.data, rest⟩ ∧
      ReadsOff frame.data.length results rest := by
  obtain ⟨rest, readEq, off⟩ := readn_intact frame.data.length intact (by simp [arrived])
  rw [arrived, List.take_left] at readEq
  exact ⟨rest, readEq, off⟩

end UBus
