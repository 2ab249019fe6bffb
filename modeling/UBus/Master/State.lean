import UBus.Json
import UBus.Library.FiniteMap
import UBus.SocketIO

/-!
# The registry of the master

`UBusMaster` keeps its participants as shared objects.  Three maps point at
them: one by name, one by socket, and the announcements of events and methods,
which name their publisher.  Two queues of names connect the threads.

The event and the method side of the source are the same code on different
fields, so both are indexed by a `Kind`.  The lists of subscribers and of
subscribed topics, which nothing writes, are left out.
-/

namespace UBus

abbrev ParticipantRef := Nat

/-- What a participant can announce. -/
inductive Kind where
  | event
  | method
  deriving DecidableEq

/-- One type id for an event, the request and the response type id for a
method. -/
def Kind.TypeIds : Kind → Type
  | event => UInt32
  | method => UInt32 × UInt32

/-- `UBusParticipantInfo`.  `announced` is `published_topic_list` for events
and `method_list` for methods. -/
structure UBusParticipantInfo where
  name : Bytes := []
  ip : Bytes := []
  port : UInt32 := 0
  socket : Fd := 0
  listeningIp : Bytes := []
  listeningPort : UInt32 := 0
  announced : (kind : Kind) → FiniteMap Bytes kind.TypeIds := fun _ => ∅
  watchdogCounter : UInt8 := 0

/-- `EventInfo` and `MethodInfo`.  The publisher is never null: the only code
that stores one dereferences it in the next statement. -/
structure Announcement (kind : Kind) where
  name : Bytes
  types : kind.TypeIds
  publisher : ParticipantRef

/-- The data of `UBusMaster`.  Objects are allocated at increasing addresses
and never reused.  An entry of `socketParticipantMapping` may be null. -/
structure UBusMaster where
  participants : ParticipantRef → UBusParticipantInfo := fun _ => {}
  allocated : Nat := 0
  participantList : FiniteMap Bytes ParticipantRef := ∅
  socketParticipantMapping : FiniteMap Fd (Option ParticipantRef) := ∅
  announcements : (kind : Kind) → FiniteMap Bytes (Announcement kind) := fun _ => ∅
  unprocessedNewParticipants : List Bytes := []
  unprocessedDeadParticipants : List Bytes := []

namespace UBusMaster

def eventList (master : UBusMaster) : FiniteMap Bytes (Announcement .event) :=
  master.announcements .event

def methodList (master : UBusMaster) : FiniteMap Bytes (Announcement .method) :=
  master.announcements .method

def setWatchdog (master : UBusMaster) (participant : ParticipantRef) (counter : UInt8) :
    UBusMaster :=
  { master with
    participants := Function.update master.participants participant
      { master.participants participant with watchdogCounter := counter } }

/-- Enter a new participant into both maps and into the queue of new ones. -/
def register (master : UBusMaster) (info : UBusParticipantInfo) : UBusMaster :=
  { master with
    participants := Function.update master.participants master.allocated info
    allocated := master.allocated + 1
    participantList := master.participantList.insert info.name master.allocated
    socketParticipantMapping :=
      master.socketParticipantMapping.insert info.socket (some master.allocated)
    unprocessedNewParticipants := master.unprocessedNewParticipants ++ [info.name] }

def announce (master : UBusMaster) (kind : Kind) (name : Bytes) (types : kind.TypeIds)
    (publisher : ParticipantRef) : UBusMaster :=
  let info := master.participants publisher
  { master with
    announcements := Function.update master.announcements kind
      ((master.announcements kind).insert name ⟨name, types, publisher⟩)
    participants := Function.update master.participants publisher
      { info with
        announced := Function.update info.announced kind
          ((info.announced kind).insert name types) } }

def remove (master : UBusMaster) (name : Bytes) (participant : ParticipantRef) : UBusMaster :=
  let info := master.participants participant
  { master with
    announcements := fun kind => (master.announcements kind).eraseAll (info.announced kind)
    participantList := master.participantList.erase name
    socketParticipantMapping := master.socketParticipantMapping.erase info.socket }

variable (master : UBusMaster)

theorem register_participants (info : UBusParticipantInfo) (participant : ParticipantRef) :
    (master.register info).participants participant =
      if participant = master.allocated then info else master.participants participant :=
  Function.update_apply ..

theorem announce_participants (kind : Kind) (name : Bytes) (types : kind.TypeIds)
    (publisher participant : ParticipantRef) :
    ∃ announced, (master.announce kind name types publisher).participants participant =
      { master.participants participant with announced := announced } := by
  by_cases same : participant = publisher
  · subst same
    exact ⟨_, Function.update_self ..⟩
  · exact ⟨_, Function.update_of_ne same ..⟩

@[simp]
theorem announce_announced_self (kind : Kind) (name : Bytes) (types : kind.TypeIds)
    (publisher : ParticipantRef) :
    ((master.announce kind name types publisher).participants publisher).announced kind =
      ((master.participants publisher).announced kind).insert name types := by
  simp [announce]

theorem announce_announced_of_ne {kind other : Kind} {publisher participant : ParticipantRef}
    (different : participant ≠ publisher ∨ other ≠ kind) (name : Bytes) (types : kind.TypeIds) :
    ((master.announce kind name types publisher).participants participant).announced other =
      (master.participants participant).announced other := by
  by_cases same : participant = publisher
  · subst same
    have otherKind : other ≠ kind := different.resolve_left (by simp)
    simp [announce, otherKind]
  · simp [announce, same]

@[simp]
theorem announce_announcements_self (kind : Kind) (name : Bytes) (types : kind.TypeIds)
    (publisher : ParticipantRef) :
    (master.announce kind name types publisher).announcements kind =
      (master.announcements kind).insert name ⟨name, types, publisher⟩ := by
  simp [announce]

theorem announce_announcements_of_ne {kind other : Kind} (different : other ≠ kind) (name : Bytes)
    (types : kind.TypeIds) (publisher : ParticipantRef) :
    (master.announce kind name types publisher).announcements other =
      master.announcements other := by
  simp [announce, different]

def tickedCounter (participant : ParticipantRef) : UInt8 :=
  (master.participants participant).watchdogCounter + 1

/-- One round of the loop in `keep_alive_worker`. -/
def tickParticipant (name : Bytes) : UBusMaster :=
  match master.participantList.lookup name with
  | none => master
  | some participant =>
      { master.setWatchdog participant (master.tickedCounter participant) with
        unprocessedDeadParticipants :=
          if 3 ≤ master.tickedCounter participant then
            master.unprocessedDeadParticipants ++ [name]
          else master.unprocessedDeadParticipants }

/-- One tick of `keep_alive_worker`, visiting the participants in some order. -/
def tick (order : List Bytes) : UBusMaster :=
  order.foldl tickParticipant master

/-- Two states of the registry that differ only in watchdog counters and in
the queue of dead participants. -/
structure SameRegistry (before after : UBusMaster) : Prop where
  participants : ∀ participant, ∃ counter, after.participants participant =
    { before.participants participant with watchdogCounter := counter }
  rest : ∃ participants dead, after =
    { before with participants := participants, unprocessedDeadParticipants := dead }

theorem SameRegistry.refl : SameRegistry master master :=
  ⟨fun participant => ⟨(master.participants participant).watchdogCounter, rfl⟩, ⟨_, _, rfl⟩⟩

theorem SameRegistry.socket {before after : UBusMaster} (same : SameRegistry before after)
    (participant : ParticipantRef) :
    (after.participants participant).socket = (before.participants participant).socket := by
  obtain ⟨counter, infoEq⟩ := same.participants participant
  rw [infoEq]

theorem SameRegistry.trans {first second third : UBusMaster} (before : SameRegistry first second)
    (after : SameRegistry second third) : SameRegistry first third where
  participants participant := by
    obtain ⟨counter, beforeEq⟩ := before.participants participant
    obtain ⟨counter', afterEq⟩ := after.participants participant
    exact ⟨counter', by rw [afterEq, beforeEq]⟩
  rest := by
    obtain ⟨participants, dead, rfl⟩ := before.rest
    obtain ⟨participants', dead', rfl⟩ := after.rest
    exact ⟨participants', dead', rfl⟩

theorem setWatchdog_sameRegistry (participant : ParticipantRef)
    (counter : UInt8) : SameRegistry master (master.setWatchdog participant counter) where
  participants other := by
    by_cases same : other = participant
    · subst same
      exact ⟨counter, by simp [setWatchdog]⟩
    · exact ⟨(master.participants other).watchdogCounter, by simp [setWatchdog, same]⟩
  rest := ⟨_, _, rfl⟩

theorem tickParticipant_sameRegistry (name : Bytes) :
    SameRegistry master (master.tickParticipant name) := by
  unfold tickParticipant
  split
  · exact .refl master
  · rename_i participant listed
    have same := setWatchdog_sameRegistry master participant (master.tickedCounter participant)
    exact ⟨same.participants, ⟨_, _, rfl⟩⟩

theorem tick_sameRegistry (order : List Bytes) :
    SameRegistry master (master.tick order) := by
  induction order generalizing master with
  | nil => exact .refl master
  | cons name order ih => exact (tickParticipant_sameRegistry master name).trans (ih _)

end UBusMaster

end UBus
