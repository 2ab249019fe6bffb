import UBus.Master.System
import UBus.Runtime.Calls

/-!
# The accept loop of the master

`accept_new_connection` serves one connection after the other and reads the
first frame of each with blocking reads.  The system of the master takes a whole
first frame as one event.  Here the loop is put on the bytes of the connections,
and it refines that system.  A connection that stays open without its first frame
keeps all later ones from being served, and so does one whose peer has gone when
it is answered: the master leaves SIGPIPE at its default, which ends the process.
-/

namespace UBus

variable {json : JsonLibrary}

/-- Three receivers read a header and only go on to the contents if the frame
is of the type they expect.  A short content is only logged. -/
def receiveTyped (expected : FrameType) (memory : StackMemory) (results : List ReadResult) :
    Received :=
  match readn headerSize results with
  | none => .blocked
  | some headerRead =>
      if toSizeT headerRead.ret < headerSize then .shortHeader headerRead.rest
      else
        let header := parseHeader (fillBuffer memory.header headerSize headerRead.received)
        if header.messageType ≠ expected.code then
          .frame ⟨header.messageType, []⟩ headerRead.rest
        else
          match readn header.dataLength headerRead.rest with
          | none => .blocked
          | some bodyRead =>
              .frame ⟨header.messageType,
                fillBuffer memory.content header.dataLength bodyRead.received⟩ bodyRead.rest

/-- `call_method` receives its response in this way. -/
theorem Exchange.response_eq (exchange : Exchange) :
    exchange.response = receiveTyped .methodResponse exchange.memory exchange.results := rfl

theorem receiveTyped_of_delivers {expected : FrameType} {exchange : Exchange} {frame : Frame}
    (delivers : exchange.Delivers frame) (isExpected : frame.messageType = expected.code) :
    ∃ rest, receiveTyped expected exchange.memory exchange.results = .frame frame rest := by
  obtain ⟨left, delivered⟩ := delivers
  simp only [nextFrame] at delivered
  split_ifs at delivered with short incomplete
  obtain ⟨rfl, -⟩ := Prod.mk.inj (Option.some.inj delivered)
  obtain ⟨rest, headerRead, remaining, -⟩ := readn_enough (not_lt.mp short)
  rw [← remaining] at incomplete ⊢
  obtain ⟨rest', bodyRead, -, -⟩ := readn_enough (not_lt.mp incomplete)
  refine ⟨rest', ?_⟩
  have headerFull : ¬ toSizeT (headerSize : Int) < headerSize := by decide
  change (parseHeader ((deliveredBytes exchange.results).take headerSize)).messageType = _
    at isExpected
  simp only [receiveTyped, headerRead, if_neg headerFull,
    Exchange.fillBuffer_take _ (not_lt.mp short), isExpected, ne_eq, not_true_eq_false, if_false,
    bodyRead, Exchange.fillBuffer_take _ (not_lt.mp incomplete)]

/-- A connection that `accept` returns, with what its reads and writes will
find. -/
structure Incoming where
  fd : Fd
  peer : SocketAddress
  memory : StackMemory
  results : List ReadResult
  padding : Padding
  writes : List WriteResult

/-- The peer is no longer there to be written to. -/
def WriteOutcome.raisesSigpipe (outcome : WriteOutcome) : Bool :=
  outcome.failed && outcome.errno = .epipe

namespace Incoming

variable (incoming : Incoming)

/-- `accept_new_connection` up to the handling of the frame. -/
def receive : Received := receiveTyped .initiation incoming.memory incoming.results

/-- Header and text of the reply are written, and one of the calls raises
SIGPIPE. -/
def endsMaster (reply : Frame) : Bool :=
  let header := writen (.other 0)
    (headerBytes reply.messageType incoming.padding reply.data.length) incoming.writes
  let body := writen header.errno reply.data header.rest
  header.raisesSigpipe || body.raisesSigpipe

def header : FrameHeader := parseHeader ((deliveredBytes incoming.results).take headerSize)

def content : Bytes := (deliveredBytes incoming.results).drop headerSize

end Incoming

/-- What the loop has done: the registry, what it has answered to each of the
connections it has served, and whether the process has ended. -/
structure Served where
  master : UBusMaster
  replies : List (Option Frame)
  ended : Bool

/-- The loop over connections. -/
def acceptLoop (json : JsonLibrary) : UBusMaster → List Incoming → Served
  | master, [] => ⟨master, [], false⟩
  | master, incoming :: later =>
      match incoming.receive with
      | .blocked => ⟨master, [], false⟩
      | .frame frame _ =>
          let handled := acceptNewConnection json master incoming.peer incoming.fd frame
          if handled.2.any incoming.endsMaster then ⟨handled.1, [handled.2], true⟩
          else
            let rest := acceptLoop json handled.1 later
            { rest with replies := handled.2 :: rest.replies }
      | .shortHeader _ | .shortContent _ | .peerClosed _ =>
          let rest := acceptLoop json master later
          { rest with replies := none :: rest.replies }

namespace Incoming

/-- The first frame of a connection as an event takes it, or nothing if the
thread waits for it forever.  A header that stays short counts as a frame of
another type. -/
def opening (incoming : Incoming) : Option Frame :=
  if (deliveredBytes incoming.results).length < headerSize then
    if breakOff incoming.results = none then none else some ⟨FrameType.unknown.code, []⟩
  else if incoming.header.messageType ≠ FrameType.initiation.code then
    some ⟨incoming.header.messageType, []⟩
  else if incoming.content.length < incoming.header.dataLength then none
  else some ⟨incoming.header.messageType, incoming.content.take incoming.header.dataLength⟩

/-- The connection does not fail, and is not closed inside the contents of a
joining request. -/
structure Clean (incoming : Incoming) : Prop where
  noError : ∀ errno rest, breakOff incoming.results ≠ some (.error errno, rest)
  notCut : headerSize ≤ (deliveredBytes incoming.results).length →
    incoming.header.messageType = FrameType.initiation.code →
      incoming.header.dataLength ≤ incoming.content.length ∨ breakOff incoming.results = none

variable {incoming : Incoming}

theorem Clean.of_open (stays : breakOff incoming.results = none) : incoming.Clean where
  noError errno rest := by simp [stays]
  notCut _ _ := Or.inr stays

theorem Clean.of_closed (closed : (breakOff incoming.results).map Prod.fst = some (.bytes []))
    (whole : incoming.header.dataLength ≤ incoming.content.length) : incoming.Clean where
  noError errno rest failed := by simp [failed] at closed
  notCut _ _ := Or.inl whole

theorem Clean.receive (clean : incoming.Clean) :
    (incoming.opening = none ∧ incoming.receive = .blocked) ∨
      (∃ frame rest, incoming.opening = some frame ∧ incoming.receive = .frame frame rest) ∨
      ∃ rest, incoming.opening = some ⟨FrameType.unknown.code, []⟩ ∧
        incoming.receive = .shortHeader rest := by
  unfold opening Incoming.receive receiveTyped
  by_cases short : (deliveredBytes incoming.results).length < headerSize
  · rw [if_pos short, readn_short short]
    rcases ending : breakOff incoming.results with _ | ⟨_ | errno, rest⟩
    · exact Or.inl ⟨rfl, rfl⟩
    · have size : toSizeT (deliveredBytes incoming.results).length < headerSize :=
        (toSizeT_natCast (short.trans (by decide))).trans_lt short
      exact Or.inr (Or.inr ⟨rest, rfl, if_pos size⟩)
    · exact absurd ending (clean.noError errno rest)
  · obtain ⟨rest, headerRead, remaining, ending⟩ := readn_enough (not_lt.mp short)
    have headerFull : ¬ toSizeT (headerSize : Int) < headerSize := by decide
    have parsed : parseHeader (fillBuffer incoming.memory.header headerSize
        ((deliveredBytes incoming.results).take headerSize)) = incoming.header := by
      rw [Exchange.fillBuffer_take _ (not_lt.mp short), header]
    simp only [if_neg short, headerRead, if_neg headerFull, parsed]
    by_cases other : incoming.header.messageType ≠ FrameType.initiation.code
    · simp only [if_pos other]
      exact Or.inr (Or.inl ⟨_, rest, rfl, rfl⟩)
    · simp only [if_neg other]
      have contentEq : deliveredBytes rest = incoming.content := remaining
      by_cases incomplete : incoming.content.length < incoming.header.dataLength
      · have silent : breakOff rest = none := by
          rw [ending]
          exact (clean.notCut (not_lt.mp short) (not_not.mp other)).resolve_left
            (not_le.mpr incomplete)
        rw [← contentEq] at incomplete
        have waits : readn incoming.header.dataLength rest = none := by
          rw [readn_short incomplete, silent]
        rw [contentEq] at incomplete
        simp only [waits, if_pos incomplete]
        exact Or.inl ⟨trivial, trivial⟩
      · rw [← contentEq] at incomplete
        obtain ⟨rest', bodyRead, -, -⟩ := readn_enough (not_lt.mp incomplete)
        have taken := Exchange.fillBuffer_take incoming.memory.content (not_lt.mp incomplete)
        rw [contentEq] at incomplete bodyRead taken
        simp only [bodyRead, taken, if_neg incomplete]
        exact Or.inr (Or.inl ⟨_, rest', rfl, rfl⟩)

def acceptEvent (incoming : Incoming) (reply : Option Frame) : Event :=
  .accept incoming.fd incoming.peer
    (incoming.opening.getD ⟨FrameType.unknown.code, []⟩) reply

end Incoming

/-- The connections before the first one that the thread waits for forever. -/
def servedConnections (incomings : List Incoming) : List Incoming :=
  incomings.takeWhile fun incoming => incoming.opening.isSome

/-- The loop has served all of these connections, or those up to one whose reply
has ended the process. -/
def Served.Completes (served : Served) (connections : List Incoming) : Prop :=
  (served.ended = false → served.replies.length = connections.length) ∧
    (served.ended = true → ∃ before reply incoming, served.replies = before ++ [some reply] ∧
      connections[before.length]? = some incoming ∧ incoming.endsMaster reply = true)

theorem Served.Completes.cons {served : Served} {connections : List Incoming}
    (completes : served.Completes connections) (incoming : Incoming) (reply : Option Frame) :
    Completes { served with replies := reply :: served.replies } (incoming :: connections) := by
  refine ⟨fun goesOn => congrArg (· + 1) (completes.1 goesOn), fun ended => ?_⟩
  obtain ⟨before, last, failing, replies, found, ends⟩ := completes.2 ended
  exact ⟨reply :: before, last, failing, congrArg (reply :: ·) replies, found, ends⟩

theorem acceptLoop_cons (json : JsonLibrary) (master : UBusMaster) {incoming : Incoming}
    (clean : incoming.Clean) (later : List Incoming) :
    (incoming.opening = none ∧ acceptLoop json master (incoming :: later) = ⟨master, [], false⟩) ∨
      ∃ frame, incoming.opening = some frame ∧
        let handled := acceptNewConnection json master incoming.peer incoming.fd frame
        acceptLoop json master (incoming :: later) =
          if handled.2.any incoming.endsMaster then ⟨handled.1, [handled.2], true⟩
          else { acceptLoop json handled.1 later with
            replies := handled.2 :: (acceptLoop json handled.1 later).replies } := by
  rcases clean.receive with
    ⟨stalls, received⟩ | ⟨frame, rest, opens, received⟩ | ⟨rest, opens, received⟩
  · exact Or.inl ⟨stalls, by simp only [acceptLoop, received]⟩
  · exact Or.inr ⟨frame, opens, by simp only [acceptLoop, received]⟩
  · have ignored : acceptNewConnection json master incoming.peer incoming.fd
        ⟨FrameType.unknown.code, []⟩ = (master, none) := if_pos (by decide)
    refine Or.inr ⟨_, opens, ?_⟩
    simp [ignored, acceptLoop, received]

theorem acceptLoop_steps {incomings : List Incoming} {system : System}
    (notDraining : system.phase ≠ .drainingNew)
    (fresh : ∀ incoming ∈ incomings, incoming.fd ∉ system.accepted)
    (distinct : (incomings.map Incoming.fd).Nodup)
    (clean : ∀ incoming ∈ incomings, incoming.Clean) :
    (acceptLoop json system.master incomings).Completes (servedConnections incomings) ∧
      ∃ next, (masterSystem json).steps system
          (List.zipWith Incoming.acceptEvent (servedConnections incomings)
            (acceptLoop json system.master incomings).replies) = some next ∧
        next.master = (acceptLoop json system.master incomings).master := by
  induction incomings generalizing system with
  | nil => exact ⟨⟨fun _ => rfl, by simp [acceptLoop]⟩, system, rfl, rfl⟩
  | cons incoming later ih =>
      rcases acceptLoop_cons json system.master (clean incoming List.mem_cons_self) later with
        ⟨stalls, loopEq⟩ | ⟨frame, opens, loopEq⟩
      · have noneServed : servedConnections (incoming :: later) = [] := by
          simp [servedConnections, stalls]
        rw [noneServed, loopEq]
        exact ⟨⟨fun _ => rfl, by simp⟩, system, rfl, rfl⟩
      · have oneServed : servedConnections (incoming :: later) =
            incoming :: servedConnections later := by
          simp [servedConnections, opens]
        obtain ⟨notLater, laterDistinct⟩ := List.nodup_cons.mp distinct
        let handled := acceptNewConnection json system.master incoming.peer incoming.fd frame
        let joined : System :=
          { system with master := handled.1, accepted := incoming.fd :: system.accepted }
        have moved : system.step json (incoming.acceptEvent handled.2) = some joined := by
          rw [Incoming.acceptEvent, opens, Option.getD_some]
          exact if_pos ⟨fresh incoming List.mem_cons_self, notDraining, rfl⟩
        rw [oneServed, loopEq]
        split_ifs with ends
        · -- the registry has changed before the reply is written
          obtain ⟨reply, isReply, ends⟩ := (Option.any_eq_true _ _).mp ends
          refine ⟨⟨by simp, fun _ => ⟨[], reply, incoming, ?_, rfl, ends⟩⟩, joined, ?_, rfl⟩
          · exact congrArg (fun answered => [answered]) isReply
          · rw [List.zipWith_cons_cons, List.zipWith_nil_right, EventSystem.steps]
            exact Option.bind_eq_some_iff.mpr ⟨joined, moved, rfl⟩
        · have laterFresh : ∀ other ∈ later, other.fd ∉ joined.accepted := by
            intro other isLater isAccepted
            rcases List.mem_cons.mp isAccepted with same | older
            · exact notLater (same ▸ List.mem_map_of_mem isLater)
            · exact fresh other (List.mem_cons_of_mem _ isLater) older
          obtain ⟨completes, next, performed, masterEq⟩ := @ih joined notDraining laterFresh
            laterDistinct fun other isLater => clean other (List.mem_cons_of_mem _ isLater)
          refine ⟨completes.cons incoming handled.2, next, ?_, masterEq⟩
          rw [List.zipWith_cons_cons, EventSystem.steps]
          exact Option.bind_eq_some_iff.mpr ⟨joined, moved, performed⟩

def Incoming.sending (fd : Fd) (pieces : List Bytes) : Incoming where
  fd := fd
  peer := ⟨(127, 0, 0, 1), 50000⟩
  memory := ⟨fun _ => 0, fun _ => 0⟩
  results := pieces.map .bytes
  padding := (0, 0, 0)
  writes := []

def joiningPieces (name : String) : List Bytes :=
  [headerBytes FrameType.initiation.code (0, 0, 0) (requestText (joiningRequest name)).length,
    requestText (joiningRequest name)]

/-- The second client sends three bytes only, and the third is never served. -/
def threeClients : List Incoming :=
  [.sending 5 (joiningPieces "a"), .sending 6 [[1, 0, 0]], .sending 7 (joiningPieces "b")]

/-- The second client has gone when its reply is written, and the third is never
served. -/
def hastyClients : List Incoming :=
  [.sending 5 (joiningPieces "a"),
    { Incoming.sending 6 (joiningPieces "b" ++ [[]]) with writes := [.wrote 8, .error .epipe] },
    .sending 7 (joiningPieces "c")]

end UBus
