import UBus.Debugger
import UBus.Master.NameService
import UBus.Runtime.Calls

/-!
# Joining the bus

`init` opens the two sockets of a runtime, sends its name and its address to
the master, and starts the threads of the runtime if the reply says OK.  The
master registers the runtime in the same moment in which it writes that reply.
Both sides are put together here: a runtime is up exactly if its name was free
and the reply has arrived whole.
-/

namespace UBus

open FiniteMap

variable {json : JsonLibrary} {Object Environment : Type}

inductive Worker where
  | startListeningSocket
  | keepAliveSender
  | processEventMessage
  deriving DecidableEq

/-- A runtime with the members that `init` alone writes, and the threads it
has started. -/
structure RuntimeProcess (Object Environment : Type) extends UBusRuntime Object Environment where
  initiated : Bool
  listeningSock : Fd
  workers : List Worker

/-- What the system calls of `init` return. -/
structure Startup where
  listeningSocket : Option Fd
  bind : Bool
  getsockname : Option SocketAddress
  controlSocket : Option Fd
  inetPton : Bytes → Bool
  connect : Bytes → UInt16 → Bool
  master : Exchange

/-- The joining request of a runtime that listens at `address`. -/
def initiationRequest (name : Bytes) (address : SocketAddress) : Json :=
  Json.ofAssignments [
    (ascii "name", .string name),
    (ascii "listening_ip", .string (inetNtoa address.address)),
    (ascii "listening_port", .ofInt32 (UInt32.toInt32 address.port.toUInt32)),
    (ascii "api_version", .string apiVersion)]

/-- How `init` receives the reply: it gives up on contents that end early. -/
def Exchange.joiningReply (exchange : Exchange) : Received :=
  match readn headerSize exchange.results with
  | none => .blocked
  | some headerRead =>
      if toSizeT headerRead.ret < headerSize then .shortHeader headerRead.rest
      else
        let header := parseHeader (fillBuffer exchange.memory.header headerSize headerRead.received)
        match readn header.dataLength headerRead.rest with
        | none => .blocked
        | some bodyRead =>
            if toSizeT bodyRead.ret < header.dataLength then .shortContent bodyRead.rest
            else .frame ⟨header.messageType,
              fillBuffer exchange.memory.content header.dataLength bodyRead.received⟩ bodyRead.rest

/-- How `init` ends: its `dump` throws, it waits forever, or it returns. -/
inductive InitOutcome (Object Environment : Type) where
  | threw (runtime : RuntimeProcess Object Environment)
  | blocked (runtime : RuntimeProcess Object Environment)
  | returned (value : Bool) (runtime : RuntimeProcess Object Environment)

/-- What `init` leaves behind. -/
def InitOutcome.runtime : InitOutcome Object Environment → RuntimeProcess Object Environment
  | threw runtime | blocked runtime | returned _ runtime => runtime

namespace RuntimeProcess

def started (runtime : RuntimeProcess Object Environment) : RuntimeProcess Object Environment :=
  { runtime with
    workers := runtime.workers ++ [.startListeningSocket, .keepAliveSender, .processEventMessage]
    initiated := true }

def init (json : JsonLibrary) (runtime : RuntimeProcess Object Environment) (name ip : Bytes)
    (port : UInt32) (startup : Startup) : InitOutcome Object Environment :=
  if runtime.initiated then .returned false runtime
  else
    let named := { runtime with name := name }
    match startup.listeningSocket with
    | none => .returned false { named with listeningSock := 0 }
    | some listeningSock =>
        let listening := { named with listeningSock := listeningSock }
        if ¬ (startup.inetPton (ascii "0.0.0.0") ∧ startup.bind) then .returned false listening
        else
          match startup.getsockname with
          | none => .returned false listening
          | some address =>
              match startup.controlSocket with
              | none => .returned false { listening with controlSock := 0 }
              | some controlSock =>
                  let opened := { listening with controlSock := controlSock }
                  if ¬ (startup.inetPton (cStr ip) ∧ startup.connect (cStr ip) port.toUInt16) then
                    .returned false opened
                  else
                    match json.dump (initiationRequest name address) with
                    | none => .threw opened
                    | some _ =>
                        match startup.master.joiningReply with
                        | .blocked => .blocked opened
                        | .frame frame _ =>
                            if saysOk json frame.data then .returned true opened.started
                            else .returned false opened
                        | .shortHeader _ | .shortContent _ | .peerClosed _ =>
                            .returned false opened

end RuntimeProcess

/-- All system calls before the request succeed, and the runtime listens at
`address`. -/
structure Startup.Connects (startup : Startup) (ip : Bytes) (port : UInt32)
    (address : SocketAddress) : Prop where
  listeningSocket : startup.listeningSocket ≠ none
  anyAddress : startup.inetPton (ascii "0.0.0.0") = true
  bind : startup.bind = true
  getsockname : startup.getsockname = some address
  controlSocket : startup.controlSocket ≠ none
  inetPton : startup.inetPton (cStr ip) = true
  connect : startup.connect (cStr ip) port.toUInt16 = true

/-- The runtime sees a beginning of what was written, and then waits or finds
the connection closed. -/
structure Exchange.Sees (exchange : Exchange) (wire : Bytes) : Prop where
  delivered : deliveredBytes exchange.results <+: wire
  noError : ∀ errno rest, breakOff exchange.results ≠ some (.error errno, rest)

theorem readn_cases {count : Nat} {results : List ReadResult} (fits : count < 2 ^ 64)
    (noError : ∀ errno rest, breakOff results ≠ some (.error errno, rest))
    (short : (deliveredBytes results).length < count) :
    readn count results = none ∨
      ∃ read, readn count results = some read ∧ toSizeT read.ret < count := by
  rw [readn_short short]
  rcases ending : breakOff results with _ | ⟨_ | errno, rest⟩
  · exact Or.inl rfl
  · exact Or.inr ⟨_, rfl, (toSizeT_natCast (short.trans fits)).trans_lt short⟩
  · exact absurd ending (noError errno rest)

/-- A whole header is read as it was written, and then comes what is there of
the contents. -/
theorem readn_header_of_delivered {frame : Frame} {padding : Padding}
    {missing : Bytes} {results : List ReadResult}
    (wireEq : deliveredBytes results ++ missing =
      headerBytes frame.messageType padding frame.data.length ++ frame.data)
    (enough : headerSize ≤ (deliveredBytes results).length) :
    ∃ rest, readn headerSize results =
        some ⟨headerSize, headerBytes frame.messageType padding frame.data.length, rest⟩ ∧
      deliveredBytes rest ++ missing = frame.data ∧ breakOff rest = breakOff results := by
  obtain ⟨rest, headerRead, remaining, ending⟩ := readn_enough enough
  have header : (deliveredBytes results).take headerSize =
      headerBytes frame.messageType padding frame.data.length :=
    calc (deliveredBytes results).take headerSize
      _ = (deliveredBytes results ++ missing).take headerSize :=
          (List.take_append_of_le_length enough).symm
      _ = _ := by
          rw [wireEq]
          exact List.take_left' (headerBytes_length ..)
  have content : deliveredBytes rest ++ missing = frame.data :=
    calc deliveredBytes rest ++ missing
      _ = (deliveredBytes results ++ missing).drop headerSize := by
          rw [remaining, List.drop_append_of_le_length enough]
      _ = frame.data := by
          rw [wireEq]
          exact List.drop_left' (headerBytes_length ..)
  exact ⟨rest, header ▸ headerRead, content, ending⟩

namespace Exchange

variable {exchange : Exchange} {frame : Frame} {wire : Bytes}

theorem joiningReply_of_short_header
    (noError : ∀ errno rest, breakOff exchange.results ≠ some (.error errno, rest))
    (short : (deliveredBytes exchange.results).length < headerSize) (other : Frame)
    (rest : List ReadResult) : exchange.joiningReply ≠ .frame other rest := by
  unfold joiningReply
  rcases readn_cases (by decide) noError short with waits | ⟨read, ended, cutOff⟩
  · simp [waits]
  · simp [ended, cutOff]

theorem joiningReply_of_sees (isWire : IsWireFrame frame wire) (sees : exchange.Sees wire) :
    (deliveredBytes exchange.results = wire ∧ ∃ rest, exchange.joiningReply = .frame frame rest) ∨
      deliveredBytes exchange.results ≠ wire ∧
        ∀ other rest, exchange.joiningReply ≠ .frame other rest := by
  obtain ⟨small, padding, rfl⟩ := isWire
  have fits : frame.data.length < 2 ^ 64 := small.trans (by decide)
  obtain ⟨missing, wireEq⟩ := sees.delivered
  by_cases short : (deliveredBytes exchange.results).length < headerSize
  · refine Or.inr ⟨fun whole => ?_, joiningReply_of_short_header sees.noError short⟩
    have := congrArg List.length whole
    simp only [List.length_append, headerBytes_length] at this
    omega
  · obtain ⟨results, headerRead, content, ending⟩ :=
      readn_header_of_delivered wireEq (not_lt.mp short)
    have headerFull : ¬ toSizeT (headerSize : Int) < headerSize := by decide
    unfold joiningReply
    simp only [headerRead, if_neg headerFull, parseHeader_fillBuffer small]
    rcases eq_or_ne missing [] with rfl | cutOff
    · rw [List.append_nil] at content wireEq
      obtain ⟨rest, contentRead, -, -⟩ := readn_enough (congrArg List.length content).ge
      have contentFull : ¬ toSizeT (frame.data.length : Int) < frame.data.length := by
        rw [toSizeT_natCast fits]
        exact lt_irrefl _
      refine Or.inl ⟨wireEq, rest, ?_⟩
      simp only [contentRead, if_neg contentFull, content, List.take_length, fillBuffer_full]
    · have early : (deliveredBytes results).length < frame.data.length := by
        have := congrArg List.length content
        have := List.length_pos_iff.mpr cutOff
        rw [List.length_append] at *
        omega
      refine Or.inr ⟨fun whole => cutOff ?_, fun other rest => ?_⟩
      · exact List.append_right_eq_self.mp (wireEq.trans whole.symm)
      · rcases readn_cases fits (ending ▸ sees.noError) early with waits | ⟨read, ended, size⟩
        · simp [waits]
        · simp [ended, size]

end Exchange

theorem isJoining_initiationRequest (roundTrips : json.RoundTrips) {name text : Bytes}
    {address : SocketAddress} (dumped : json.dump (initiationRequest name address) = some text) :
    IsJoining json text name (inetNtoa address.address) address.port.toUInt32 := by
  have parsed := roundTrips.parse_ofAssignments
    (by simp [Json.IsScalar, Json.ofInt32]) dumped
  exact ⟨_, parsed, rfl, rfl, rfl, rfl, UBusDebugger.getUInt32_parsed _⟩

theorem acceptNewConnection_of_isJoining {master : UBusMaster} {content name listeningIp : Bytes}
    {listeningPort : UInt32} (joining : IsJoining json content name listeningIp listeningPort)
    (peer : SocketAddress) (fd : Fd) :
    acceptNewConnection json master peer fd ⟨FrameType.initiation.code, content⟩ =
      if name ∈ master.participantList then (master, json.reply (response "DUPLICATE"))
      else (master.register (joiningInfo peer fd name listeningIp listeningPort),
        json.reply (response "OK")) := by
  obtain ⟨jsonStruct, parsed, fields, version, named, hasIp, hasPort⟩ := joining
  simp only [acceptNewConnection, initiate, parsed, fields, version, named, hasIp, hasPort,
    ne_eq, not_true_eq_false, if_false, if_true]
  split_ifs <;> rfl

def NameFree (json : JsonLibrary) (history : List Event) (name : Bytes) : Prop :=
  ∀ registration, Live json registration history → registration.name ≠ name

theorem nameFree_iff {history : List Event} {system : System}
    (run : (masterSystem json).Run history system) {name : Bytes} :
    NameFree json history name ↔ name ∉ system.master.participantList := by
  obtain ⟨registry, described⟩ := Described.of_run run
  constructor
  · intro free listed
    obtain ⟨participant, found⟩ := mem_iff.mp listed
    exact free _ ((described.live _).mpr ⟨participant, ⟨name, found⟩, rfl⟩)
      (registry.consistent.listed found).1
  · rintro unlisted registration live rfl
    obtain ⟨participant, registered, rfl⟩ := (described.live registration).mp live
    exact unlisted (mem_of_lookup (registry.consistent.registered_iff.mp registered))

section Accepted

variable {history : List Event} {system next : System} {name text : Bytes}
  {address peer : SocketAddress} {fd : Fd} {reply : Option Frame}

/-- The master answers the request of a runtime: OK if the name is free, and
DUPLICATE otherwise. -/
theorem accept_initiationRequest (roundTrips : json.RoundTrips)
    (run : (masterSystem json).Run history system)
    (dumped : json.dump (initiationRequest name address) = some text)
    (moved : system.step json (.accept fd peer ⟨FrameType.initiation.code, text⟩ reply) =
      some next) :
    ∃ answer : SubscribeAnswer, reply = json.reply (response answer.text) ∧
      (answer = .ok ↔ NameFree json history name) := by
  rw [nameFree_iff run]
  simp only [System.step, Option.ite_none_right_eq_some, Option.some.injEq,
    acceptNewConnection_of_isJoining (isJoining_initiationRequest roundTrips dumped)] at moved
  obtain ⟨⟨-, -, replied⟩, -⟩ := moved
  split_ifs at replied with taken
  · exact ⟨.duplicate, replied.symm, by simp [taken]⟩
  · exact ⟨.ok, replied.symm, by simp [taken]⟩

theorem live_of_nameFree (roundTrips : json.RoundTrips)
    (run : (masterSystem json).Run history system)
    (dumped : json.dump (initiationRequest name address) = some text)
    (moved : system.step json (.accept fd peer ⟨FrameType.initiation.code, text⟩ reply) =
      some next) (free : NameFree json history name) :
    Live json ⟨fd, name, inetNtoa address.address, address.port.toUInt32⟩
      (history ++ [.accept fd peer ⟨FrameType.initiation.code, text⟩ reply]) := by
  obtain ⟨answer, rfl, isOk⟩ := accept_initiationRequest roundTrips run dumped moved
  obtain rfl := isOk.mpr free
  exact Since.snoc.mpr (Or.inl ⟨peer, _, rfl, rfl, isJoining_initiationRequest roundTrips dumped⟩)

end Accepted

namespace RuntimeProcess

variable {runtime : RuntimeProcess Object Environment} {name ip text : Bytes} {port : UInt32}
  {startup : Startup} {address : SocketAddress}

/-- Once the request is out, everything depends on the reply. -/
theorem init_of_connects (idle : runtime.initiated = false)
    (connects : startup.Connects ip port address)
    (dumped : json.dump (initiationRequest name address) = some text) :
    (∃ next, runtime.init json name ip port startup = .returned true next) ↔
      ∃ frame rest, startup.master.joiningReply = .frame frame rest ∧
        saysOk json frame.data = true := by
  obtain ⟨listeningSocket, anyAddress, bind, getsockname, controlSocket, inetPton, connect⟩ :=
    connects
  obtain ⟨listeningSock, listening⟩ := Option.ne_none_iff_exists'.mp listeningSocket
  obtain ⟨controlSock, control⟩ := Option.ne_none_iff_exists'.mp controlSocket
  simp only [init, idle, listening, anyAddress, bind, getsockname, control, inetPton, connect,
    dumped, Bool.false_eq_true, and_self, not_true_eq_false, if_false]
  cases received : startup.master.joiningReply with
  | frame frame rest =>
      cases said : saysOk json frame.data with
      | true => simp [said]
      | false => simp [said]
  | blocked => simp
  | peerClosed rest | shortHeader rest | shortContent rest => simp

theorem init_cases (json : JsonLibrary) (runtime : RuntimeProcess Object Environment)
    (name ip : Bytes) (port : UInt32) (startup : Startup) :
    (∃ next, runtime.init json name ip port startup = .returned true next ∧
        next.initiated = true ∧ next.workers =
          runtime.workers ++ [.startListeningSocket, .keepAliveSender, .processEventMessage]) ∨
      ((∀ next, runtime.init json name ip port startup ≠ .returned true next) ∧
        (runtime.init json name ip port startup).runtime.initiated = runtime.initiated ∧
        (runtime.init json name ip port startup).runtime.workers = runtime.workers) := by
  unfold init
  split
  · exact Or.inr ⟨by simp, rfl, rfl⟩
  split
  · exact Or.inr ⟨by simp, rfl, rfl⟩
  split
  · exact Or.inr ⟨by simp, rfl, rfl⟩
  split
  · exact Or.inr ⟨by simp, rfl, rfl⟩
  split
  · exact Or.inr ⟨by simp, rfl, rfl⟩
  split
  · exact Or.inr ⟨by simp, rfl, rfl⟩
  split
  · exact Or.inr ⟨by simp, rfl, rfl⟩
  split
  · exact Or.inr ⟨by simp, rfl, rfl⟩
  · split
    · exact Or.inl ⟨_, rfl, rfl, rfl⟩
    · exact Or.inr ⟨by simp, rfl, rfl⟩
  all_goals exact Or.inr ⟨by simp, rfl, rfl⟩

end RuntimeProcess

/-- A runtime tries to join: its request reaches the master over a connection
from `peer`, and of the answer `frame` it sees a beginning. -/
structure JoinAttempt (json : JsonLibrary) (Object Environment : Type) (name : Bytes) where
  runtime : RuntimeProcess Object Environment
  ip : Bytes
  port : UInt32
  startup : Startup
  address : SocketAddress
  text : Bytes
  fd : Fd
  peer : SocketAddress
  frame : Frame
  wire : Bytes
  idle : runtime.initiated = false
  connects : startup.Connects ip port address
  dumped : json.dump (initiationRequest name address) = some text
  isWire : IsWireFrame frame wire
  sees : startup.master.Sees wire

namespace JoinAttempt

variable {name : Bytes} (attempt : JoinAttempt json Object Environment name)

def event : Event :=
  .accept attempt.fd attempt.peer ⟨FrameType.initiation.code, attempt.text⟩ (some attempt.frame)

def outcome : InitOutcome Object Environment :=
  attempt.runtime.init json name attempt.ip attempt.port attempt.startup

def Succeeds : Prop := ∃ next, attempt.outcome = .returned true next

def registration : Registration where
  fd := attempt.fd
  name := name
  listeningIp := inetNtoa attempt.address.address
  listeningPort := attempt.address.port.toUInt32

variable {attempt}

theorem succeeds_iff (roundTrips : json.RoundTrips) {history : List Event} {system next : System}
    (run : (masterSystem json).Run history system)
    (moved : system.step json attempt.event = some next) :
    attempt.Succeeds ↔ deliveredBytes attempt.startup.master.results = attempt.wire ∧
      NameFree json history name := by
  obtain ⟨answer, replied, isOk⟩ := accept_initiationRequest roundTrips run attempt.dumped moved
  have said : saysOk json attempt.frame.data = true ↔ NameFree json history name :=
    (saysOk_reply roundTrips replied.symm).trans isOk
  unfold Succeeds outcome
  rw [RuntimeProcess.init_of_connects attempt.idle attempt.connects attempt.dumped, ← said]
  rcases Exchange.joiningReply_of_sees attempt.isWire attempt.sees with
    ⟨whole, rest, received⟩ | ⟨cutOff, notReceived⟩
  · simp [whole, received]
  · simp [cutOff, notReceived]

theorem Succeeds.live (succeeds : attempt.Succeeds) (roundTrips : json.RoundTrips)
    {history : List Event} {system next : System} (run : (masterSystem json).Run history system)
    (moved : system.step json attempt.event = some next) :
    Live json attempt.registration (history ++ [attempt.event]) :=
  live_of_nameFree roundTrips run attempt.dumped moved
    ((succeeds_iff roundTrips run moved).mp succeeds).2

end JoinAttempt

/-- After a history, the runtime and the master agree on whether the runtime has
joined. -/
structure JoinAgreement (json : JsonLibrary) (history : List Event) {name : Bytes}
    (attempt : JoinAttempt json Object Environment name) : Prop where
  /-- The runtime comes up exactly if its name was free and the answer has
  reached it whole. -/
  succeeds_iff : attempt.Succeeds ↔
    deliveredBytes attempt.startup.master.results = attempt.wire ∧ NameFree json history name
  /-- The master then lists it with the address it listens at. -/
  live : attempt.Succeeds → Live json attempt.registration (history ++ [attempt.event])
  /-- Its threads run from then on, and none is started otherwise. -/
  initiated : attempt.outcome.runtime.initiated = true ↔ attempt.Succeeds
  workers : attempt.outcome.runtime.workers = attempt.runtime.workers ++
    if attempt.outcome.runtime.initiated then
      [.startListeningSocket, .keepAliveSender, .processEventMessage]
    else []

def JoinAttempt.answeredOk (fd : Fd) : JoinAttempt .plain Unit Unit (ascii "a") where
  runtime := { UBusRuntime.joined with
    name := [], controlSock := 0, initiated := false, listeningSock := 0, workers := [] }
  ip := ascii "127.0.0.1"
  port := 5101
  startup :=
    { listeningSocket := some 3
      bind := true
      getsockname := some ⟨(0, 0, 0, 0), 4000⟩
      controlSocket := some 4
      inetPton := fun _ => true
      connect := fun _ _ => true
      master := ⟨⟨fun _ => 0, fun _ => 0⟩,
        [.bytes (headerBytes FrameType.unknown.code (0, 0, 0) 17), .error .eintr,
          .bytes (ascii "\x7b\"response\":\"OK\"\x7d")]⟩ }
  address := ⟨(0, 0, 0, 0), 4000⟩
  text := requestText (initiationRequest (ascii "a") ⟨(0, 0, 0, 0), 4000⟩)
  fd := fd
  peer := ⟨(127, 0, 0, 1), 50000⟩
  frame := replyFrame .unknown (ascii "\x7b\"response\":\"OK\"\x7d")
  wire := headerBytes FrameType.unknown.code (0, 0, 0) 17 ++
    ascii "\x7b\"response\":\"OK\"\x7d"
  idle := rfl
  connects := ⟨by simp, rfl, rfl, rfl, by simp, rfl, rfl⟩
  dumped := rfl
  isWire := ⟨by decide, (0, 0, 0), by decide⟩
  sees := ⟨⟨[], by decide⟩, by simp [breakOff, headerBytes, ascii]⟩

end UBus
