import UBus.Library.RaceFreedom
import UBus.Master.Locks

/-!
# The shared variables of the master

Between its guards, each thread of the master reads and writes the queues, the
tables and the participants.  Here these accesses are put back into the
programs of the threads, in the order of the source, and no two of them race.
The other fields of a participant are written before it is shared and never
again, and the sockets and the poll list belong to one thread each.
-/

namespace UBus.Accessing

open LockProgram
open Locking (MasterLock MasterThread frameKinds masterProgram lockRank)
open Locking.MasterLock

/-- What the threads of `UBusMaster` share: its tables and queues, and the
fields of a participant that change. -/
inductive MasterVariable where
  | participantList
  | socketParticipantMapping
  | unprocessedNewParticipants
  | unprocessedDeadParticipants
  | eventList
  | methodList
  | watchdogCounter
  | publishedTopicList
  | providedMethodList
  deriving DecidableEq

open MasterVariable

def block (statements : List (LockProgram (MasterLock ⊕ MasterVariable))) :
    LockProgram (MasterLock ⊕ MasterVariable) :=
  statements.foldr seq skip

def lockGuard (lock : MasterLock) (statements : List (LockProgram (MasterLock ⊕ MasterVariable))) :
    LockProgram (MasterLock ⊕ MasterVariable) :=
  guarded (.inl lock) .exclusive (block statements)

def readingGuard (lock : MasterLock)
    (statements : List (LockProgram (MasterLock ⊕ MasterVariable))) :
    LockProgram (MasterLock ⊕ MasterVariable) :=
  guarded (.inl lock) .shared (block statements)

def sometimes (statements : List (LockProgram (MasterLock ⊕ MasterVariable))) :
    LockProgram (MasterLock ⊕ MasterVariable) :=
  choice (block statements) skip

/-- The version is compared first, and then the name is looked up. -/
def acceptNewConnection : LockProgram (MasterLock ⊕ MasterVariable) :=
  loop (sometimes [lockGuard unprocessedNewParticipantsMtx [lockGuard participantInfoMtx [
    sometimes [reads participantList,
      sometimes [writes participantList, writes socketParticipantMapping,
        writes unprocessedNewParticipants]]]]])

def keepAliveWorker : LockProgram (MasterLock ⊕ MasterVariable) :=
  loop (lockGuard unprocessedDeadParticipantsMtx [readingGuard participantInfoMtx [
    reads participantList,
    loop (block [writes watchdogCounter, sometimes [writes unprocessedDeadParticipants],
      reads participantList])]])

def drainDeadParticipants : LockProgram (MasterLock ⊕ MasterVariable) :=
  lockGuard unprocessedDeadParticipantsMtx [reads unprocessedDeadParticipants,
    loop (block [
      lockGuard participantInfoMtx [reads unprocessedDeadParticipants, reads participantList,
        sometimes [
          lockGuard eventListMtx [loop (block [reads publishedTopicList, writes eventList])],
          lockGuard methodListMtx [loop (block [reads providedMethodList, writes methodList])],
          writes participantList, reads socketParticipantMapping,
          sometimes [writes socketParticipantMapping]],
        writes unprocessedDeadParticipants],
      reads unprocessedDeadParticipants])]

def drainNewParticipants : LockProgram (MasterLock ⊕ MasterVariable) :=
  lockGuard unprocessedNewParticipantsMtx [reads unprocessedNewParticipants,
    loop (block [
      readingGuard participantInfoMtx [reads unprocessedNewParticipants,
        sometimes [reads participantList], writes unprocessedNewParticipants],
      reads unprocessedNewParticipants])]

def processDebugMessage : LockProgram (MasterLock ⊕ MasterVariable) :=
  oneOf [lockGuard eventListMtx [reads eventList], readingGuard participantInfoMtx [
    reads participantList], lockGuard methodListMtx [reads methodList]]

/-- `operator[]` writes the mapping, into which it puts a socket that is not
there. -/
def handleFrame : Option FrameType → LockProgram (MasterLock ⊕ MasterVariable)
  | some .keepAlive =>
      lockGuard participantInfoMtx [writes socketParticipantMapping, writes watchdogCounter]
  | some .eventRegister =>
      readingGuard participantInfoMtx [lockGuard eventListMtx [
        sometimes [reads eventList,
          sometimes [writes socketParticipantMapping, writes eventList,
            writes publishedTopicList]]]]
  | some .eventSubscribe => choice skip (lockGuard eventListMtx [reads eventList])
  | some .methodProvide =>
      readingGuard participantInfoMtx [lockGuard methodListMtx [
        sometimes [reads methodList,
          sometimes [writes socketParticipantMapping, writes methodList,
            writes providedMethodList]]]]
  | some .methodQuery => choice skip (lockGuard methodListMtx [reads methodList])
  | some .debug => processDebugMessage
  | some .initiation | some .unknown | some .event | some .methodCall | some .methodResponse
  | none => skip

/-- `poll` is given the size of the list of participants. -/
def processControlMessage : LockProgram (MasterLock ⊕ MasterVariable) :=
  loop (block [drainDeadParticipants, drainNewParticipants,
    readingGuard participantInfoMtx [reads participantList],
    loop (oneOf (frameKinds.map handleFrame))])

def masterAccesses : MasterThread → LockProgram (MasterLock ⊕ MasterVariable)
  | .acceptNewConnection => acceptNewConnection
  | .keepAliveWorker => keepAliveWorker
  | .processControlMessage => processControlMessage

def accessSystem : EventSystem (MasterThread → LockThread (MasterLock ⊕ MasterVariable))
    (MasterThread × Bool) :=
  LockProgram.system masterAccesses

/-- Without their accesses, the threads take their locks as before. -/
theorem masterAccesses_locks (thread : MasterThread) :
    (masterAccesses thread).withoutAccesses.tidy = (masterProgram thread).tidy := by
  cases thread <;> rfl

theorem masterAccesses_disciplined : Disciplined masterAccesses := by
  unfold Disciplined
  decide +kernel

def accessRank : MasterLock ⊕ MasterVariable → Nat
  | .inl lock => lockRank lock
  | .inr _ => 4

theorem masterAccesses_ascends (thread : MasterThread) :
    (masterAccesses thread).Ascends accessRank 0 := by
  cases thread <;> decide

/-- In no interleaving are two threads of the master at conflicting accesses to
a variable, so an access never has to wait for another. -/
theorem master_race_free {config : MasterThread → LockThread (MasterLock ⊕ MasterVariable)}
    (reachable : accessSystem.Reachable config) :
    ¬ Race config ∧ ∀ thread target mode,
      (config thread).request = some (.inr target, mode) →
        grants config (.inr target, mode) = true :=
  ⟨race_free masterAccesses_disciplined reachable, fun _ _ _ requested =>
    access_granted masterAccesses_ascends masterAccesses_disciplined reachable requested⟩

/-- Two threads are about to read the list of participants, inside guards for
shared use. -/
theorem master_race_free_sample :
    ∃ config, accessSystem.Reachable config ∧
      ((config .keepAliveWorker).request = some (.inr participantList, .shared) ∧
        (config .processControlMessage).request = some (.inr participantList, .shared)) ∧
      ¬ Race config ∧ ∀ thread target mode,
        (config thread).request = some (.inr target, mode) →
          grants config (.inr target, mode) = true := by
  let initial : MasterThread → LockThread (MasterLock ⊕ MasterVariable) :=
    fun thread => ⟨[], [.run (masterAccesses thread)]⟩
  let polling : List (MasterThread × Bool) :=
    (List.replicate 10 true ++ [false] ++ List.replicate 11 true ++ [false] ++
      List.replicate 7 true).map fun first => (.processControlMessage, first)
  let counting : List (MasterThread × Bool) := List.replicate 8 (.keepAliveWorker, true)
  obtain ⟨config, run, reading⟩ := accessSystem.exists_run_of_steps (polling ++ counting)
    (fun config =>
      (config .keepAliveWorker).request = some (.inr participantList, .shared) ∧
        (config .processControlMessage).request = some (.inr participantList, .shared))
    (show accessSystem.Initial initial from fun _ => rfl) (by decide)
  exact ⟨config, ⟨_, run⟩, reading, master_race_free ⟨_, run⟩⟩

end UBus.Accessing
