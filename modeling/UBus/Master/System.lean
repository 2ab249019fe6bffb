import UBus.Json.Vendored
import UBus.Library.EventSystem
import UBus.Library.SlotTable
import UBus.Master.Handlers

/-!
# The threads of the master

Three threads share the registry: `accept_new_connection`, `keep_alive_worker`
and the endless loop of `process_control_message`.  An event is a stretch of
one thread under its locks, and a run is any interleaving the locks admit.
The processing thread holds the lock of the dead queue during the whole
first drain, which keeps ticks out, and the lock of the new queue during the
whole second one, which keeps registrations out.  An event that would throw or
use a null pointer has no successor: the master has terminated.
-/

namespace UBus

def maxConnections : Nat := 1024

/-- An entry of `poll_fd_list`; `fd` is `none` for -1, and `readable` is the
`POLLIN` bit of `revents`. -/
structure PollFd where
  fd : Option Fd
  readable : Bool
  deriving DecidableEq

def PollFd.cleared (slot : PollFd) : PollFd := { slot with fd := none }

/-- Where the processing thread is in a pass of its loop. -/
inductive Phase where
  | passStart
  | drainingDead
  | betweenDrains
  | drainingNew
  | beforePoll
  | scanning (slot : Nat)
  deriving DecidableEq

/-- The registry, the state of the processing thread, and what its
surroundings have done: the sockets `accept` has returned and the sockets
whose peer has closed. -/
structure System where
  master : UBusMaster
  pollFdList : List PollFd
  phase : Phase
  accepted : List Fd
  closed : List Fd

inductive PollResult where
  | failed
  | timeout
  | ready (sockets : List Fd)

/-- One move of a thread or of the surroundings, with what can be observed
of it.  `accept` handles the first frame of a connection; a header that stays
short has the effect of a frame of another type.  Iterations over a hash map
visit its keys in some `order`. -/
inductive Event where
  | accept (fd : Fd) (peer : SocketAddress) (frame : Frame) (reply : Option Frame)
  | tick (order : List Bytes)
  | peerClose (fd : Fd)
  | proceed
  | popDead (name : Bytes)
  | popNew (name : Bytes)
  | poll (result : PollResult)
  | readNothing
  | readShort
  | control (fd : Fd) (frame : Frame) (order : List Bytes) (reply : Option Frame)

def Handled.completed : Handled → Option (UBusMaster × Option Frame)
  | replied master reply => some (master, some reply)
  | silent master => some (master, none)
  | threw => none
  | crashed => none

/-- `order` visits the map that a debug query lists. -/
def VisitsListed (json : JsonLibrary) (master : UBusMaster) (order : List Bytes)
    (frame : Frame) : Prop :=
  match frame.messageType == FrameType.debug.code,
      ((json.parse frame.data).getD .null).at? (ascii "debug_type") with
  | true, some debugType =>
      if debugType.isString (ascii "list_event") then FiniteMap.Enumerates order master.eventList
      else if debugType.isString (ascii "list_participant") then
        FiniteMap.Enumerates order master.participantList
      else if debugType.isString (ascii "list_method") then
        FiniteMap.Enumerates order master.methodList
      else True
  | _, _ => True

instance (json : JsonLibrary) (master : UBusMaster) (order : List Bytes) (frame : Frame) :
    Decidable (VisitsListed json master order frame) := by
  unfold VisitsListed
  split
  · infer_instance
  · infer_instance

namespace System

abbrev fdAt (system : System) (slot : Nat) : Option Fd :=
  SlotTable.keyAt PollFd.fd system.pollFdList slot

/-- A slot whose contents the scan reads: occupied, with `POLLIN` set. -/
def readableAt (system : System) (slot : Nat) : Option Fd :=
  match system.pollFdList[slot]? with
  | some ⟨fd, true⟩ => fd
  | _ => none

/-- The slot the scan is at, with its socket, if it is to be read. -/
def current (system : System) : Option (Nat × Fd) :=
  match system.phase with
  | .scanning slot => (system.readableAt slot).map fun fd => (slot, fd)
  | _ => none

/-- `poll` writes the flags of the first `participant_list_.size()` slots. -/
def poll (system : System) (sockets : List Fd) : List PollFd :=
  system.pollFdList.mapIdx fun index slot =>
    if index < system.master.participantList.size then
      { slot with readable := slot.fd.any (· ∈ sockets) }
    else slot

/-- One round of the drain of dead participants.  `at` throws on a name that
is not registered. -/
def popDead (system : System) : Option System :=
  match system.master.unprocessedDeadParticipants with
  | [] => none
  | name :: later =>
      (system.master.participantList.lookup name).map fun participant =>
        { system with
          master := { system.master.remove name participant with
            unprocessedDeadParticipants := later }
          pollFdList := SlotTable.vacate PollFd.fd PollFd.cleared
            (system.master.participants participant).socket system.pollFdList }

/-- One round of the drain of new participants.  Without a free slot the name
is dropped unseen. -/
def popNew (system : System) : Option System :=
  match system.master.unprocessedNewParticipants with
  | [] => none
  | name :: later =>
      let popped := { system.master with unprocessedNewParticipants := later }
      if SlotTable.indexOf PollFd.fd none system.pollFdList < system.pollFdList.length then
        (system.master.participantList.lookup name).map fun participant =>
          { system with
            master := popped
            pollFdList := SlotTable.occupy PollFd.fd
              ⟨some (system.master.participants participant).socket, false⟩ system.pollFdList }
      else some { system with master := popped }

def proceed (system : System) : Option Phase :=
  match system.phase with
  | .passStart => some .drainingDead
  | .drainingDead =>
      if system.master.unprocessedDeadParticipants = [] then some .betweenDrains else none
  | .betweenDrains => some .drainingNew
  | .drainingNew =>
      if system.master.unprocessedNewParticipants = [] then some .beforePoll else none
  | .beforePoll => none
  | .scanning slot =>
      if system.pollFdList.length ≤ slot then some .passStart
      else if system.readableAt slot = none then some (.scanning (slot + 1))
      else none

def step (json : JsonLibrary) (system : System) : Event → Option System
  | .accept fd peer frame reply =>
      let handled := acceptNewConnection json system.master peer fd frame
      if fd ∉ system.accepted ∧ system.phase ≠ .drainingNew ∧ handled.2 = reply then
        some { system with master := handled.1, accepted := fd :: system.accepted }
      else none
  | .tick order =>
      if system.phase ≠ .drainingDead ∧
          FiniteMap.Enumerates order system.master.participantList then
        some { system with master := system.master.tick order }
      else none
  | .peerClose fd =>
      if fd ∈ system.accepted then some { system with closed := fd :: system.closed } else none
  | .proceed => system.proceed.map fun phase => { system with phase := phase }
  | .popDead name =>
      if system.phase = .drainingDead ∧
          system.master.unprocessedDeadParticipants.head? = some name then
        system.popDead
      else none
  | .popNew name =>
      if system.phase = .drainingNew ∧
          system.master.unprocessedNewParticipants.head? = some name then
        system.popNew
      else none
  | .poll result =>
      if system.phase = .beforePoll then
        match result with
        | .failed => some { system with phase := .passStart }
        | .timeout => some { system with pollFdList := system.poll [], phase := .passStart }
        | .ready sockets =>
            some { system with pollFdList := system.poll sockets, phase := .scanning 0 }
      else none
  | .readNothing =>
      -- `read` returns zero only if the peer has closed
      system.current.bind fun (slot, fd) =>
        if fd ∈ system.closed then
          some { system with
            pollFdList := system.pollFdList.modify slot PollFd.cleared
            phase := .scanning (slot + 1) }
        else none
  | .readShort =>
      system.current.map fun (slot, _) => { system with phase := .scanning (slot + 1) }
  | .control fd frame order reply =>
      system.current.bind fun (slot, fd') =>
        if fd' = fd ∧ VisitsListed json system.master order frame then
          (processFrame json system.master order fd frame).completed.bind fun handled =>
            if handled.2 = reply then
              some { system with master := handled.1, phase := .scanning (slot + 1) }
            else none
        else none

end System

/-- A master that has just been started.  The flags of the slots have not been
initialized. -/
structure System.Initial (system : System) : Prop where
  master : system.master = {}
  slots : system.pollFdList.length = maxConnections
  free : ∀ slot ∈ system.pollFdList, slot.fd = none
  phase : system.phase = .passStart
  accepted : system.accepted = []
  closed : system.closed = []

def masterSystem (json : JsonLibrary) : EventSystem System Event where
  Initial := System.Initial
  step := System.step json

def System.started : System where
  master := {}
  pollFdList := List.replicate maxConnections ⟨none, false⟩
  phase := .passStart
  accepted := []
  closed := []

theorem System.started_initial : System.started.Initial where
  master := rfl
  slots := List.length_replicate
  free := fun slot member => by rw [List.eq_of_mem_replicate member]
  phase := rfl
  accepted := rfl
  closed := rfl

def joiningRequest (name : String) : Json :=
  Json.ofAssignments [
    (ascii "name", .string (ascii name)),
    (ascii "listening_ip", .string (ascii "127.0.0.1")),
    (ascii "listening_port", .ofUInt32 4000),
    (ascii "api_version", .string (ascii "1.1"))]

def advertising (topic : String) : Json :=
  Json.ofAssignments [
    (ascii "topic", .string (ascii topic)),
    (ascii "type_id", .ofUInt32 11)]

def Event.join (fd : Fd) (name : String) : Event :=
  .accept fd ⟨(127, 0, 0, 1), 50000⟩
    ⟨FrameType.initiation.code, requestText (joiningRequest name)⟩
    (JsonLibrary.plain.reply (response "OK"))

def providing (method : String) : Json :=
  Json.ofAssignments [
    (ascii "method", .string (ascii method)),
    (ascii "request_type_id", .ofUInt32 11),
    (ascii "response_type_id", .ofUInt32 12)]

def Event.request (fd : Fd) (type : FrameType) (request : Json) : Event :=
  .control fd ⟨type.code, requestText request⟩ [] (JsonLibrary.plain.reply (response "OK"))

/-- The events until the socket of a joined client is about to be read. -/
def Event.untilRead : List Event :=
  [.join 5 "a", .proceed, .proceed, .proceed, .popNew (ascii "a"), .proceed, .poll (.ready [5])]

/-- Two clients join and are taken into the slots. -/
def Event.bothTaken : List Event :=
  [.join 5 "a", .join 6 "b", .proceed, .proceed, .proceed, .popNew (ascii "a"),
    .popNew (ascii "b"), .proceed]

/-- A scan goes on over slots without contents to read. -/
theorem System.steps_scan {json : JsonLibrary} {system : System} {slot count : Nat}
    (phase : system.phase = .scanning slot) (bounded : slot + count ≤ system.pollFdList.length)
    (nothing : ∀ pollFd ∈ system.pollFdList.drop slot, pollFd.readable = false) :
    (masterSystem json).steps system (List.replicate count .proceed) =
      some { system with phase := .scanning (slot + count) } := by
  induction count generalizing system slot with
  | zero =>
      change some system = some { system with phase := .scanning slot }
      rw [← phase]
  | succ count ih =>
      have within : slot < system.pollFdList.length := by omega
      have first : system.pollFdList[slot] ∈ system.pollFdList.drop slot := by
        rw [List.drop_eq_getElem_cons within]
        exact List.mem_cons_self
      have unreadable : system.readableAt slot = none := by
        have isFalse := nothing _ first
        rw [System.readableAt, List.getElem?_eq_getElem within]
        split
        · rename_i same
          rw [Option.some.inj same] at isFalse
          simp at isFalse
        · rfl
      have proceeds : system.step json .proceed =
          some { system with phase := .scanning (slot + 1) } := by
        simp [System.step, System.proceed, phase, unreadable, within]
      have reached := @ih { system with phase := .scanning (slot + 1) } (slot + 1) rfl
        (by simpa [Nat.add_assoc, Nat.add_comm 1] using bounded)
        fun pollFd member => nothing pollFd (List.drop_subset_drop_left _ (by omega) member)
      calc (masterSystem json).steps system (List.replicate (count + 1) .proceed)
          = (masterSystem json).steps { system with phase := .scanning (slot + 1) }
              (List.replicate count .proceed) := by
            rw [List.replicate_succ, EventSystem.steps,
              show (masterSystem json).step system .proceed = _ from proceeds, Option.bind_some]
        _ = some { system with phase := .scanning (slot + 1 + count) } := reached
        _ = some { system with phase := .scanning (slot + (count + 1)) } := by
            rw [Nat.add_assoc, Nat.add_comm 1]

theorem System.steps_scan_end {json : JsonLibrary} {system : System} {slot count : Nat}
    (phase : system.phase = .scanning slot) (length : system.pollFdList.length = slot + count)
    (nothing : ∀ pollFd ∈ system.pollFdList.drop slot, pollFd.readable = false) :
    (masterSystem json).steps system (List.replicate (count + 1) .proceed) =
      some { system with phase := .passStart } := by
  have atEnd : (masterSystem json).steps { system with phase := .scanning (slot + count) }
      [.proceed] = some { system with phase := .passStart } := by
    simp [EventSystem.steps, masterSystem, System.step, System.proceed, length]
  rw [List.replicate_succ', EventSystem.steps_append, System.steps_scan phase length.ge nothing,
    Option.bind_some, atEnd]

/-- `poll` goes through a prefix of the table. -/
def markReady (sockets : List Fd) : Nat → List PollFd → List PollFd
  | 0, slots => slots
  | _, [] => []
  | count + 1, slot :: slots =>
      { slot with readable := slot.fd.any (· ∈ sockets) } :: markReady sockets count slots

theorem mapIdx_eq_markReady (sockets : List Fd) (count : Nat) (slots : List PollFd) :
    (slots.mapIdx fun index slot =>
      if index < count then { slot with readable := slot.fd.any (· ∈ sockets) } else slot) =
        markReady sockets count slots := by
  induction slots generalizing count with
  | nil => cases count <;> rfl
  | cons slot slots ih =>
      cases count with
      | zero =>
          have rest := ih 0
          simp only [Nat.not_lt_zero, if_false, markReady] at rest ⊢
          rw [List.mapIdx_cons, rest]
      | succ count => simp [List.mapIdx_cons, markReady, ← ih count]

def System.pollReady (system : System) (sockets : List Fd) : System :=
  { system with
    pollFdList := markReady sockets system.master.participantList.size system.pollFdList
    phase := .scanning 0 }

theorem System.step_pollReady {json : JsonLibrary} {system : System}
    (phase : system.phase = .beforePoll) (sockets : List Fd) :
    (masterSystem json).step system (.poll (.ready sockets)) =
      some (system.pollReady sockets) := by
  simp [masterSystem, System.step, phase, System.poll, mapIdx_eq_markReady, pollReady]

end UBus
