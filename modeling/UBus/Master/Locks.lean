import UBus.Frame
import UBus.Library.RankedLocks

/-!
# The locks of the master

The accept thread, the keep-alive thread and the processing thread share five
locks.  Here each thread is reduced to the guards it opens and to the branches
and loops around them.  What happens between two guards, including an
exception that closes guards early, takes no lock and is left out.
-/

namespace UBus.Locking

/-- The locks of `UBusMaster`. -/
inductive MasterLock where
  | unprocessedNewParticipantsMtx
  | unprocessedDeadParticipantsMtx
  | participantInfoMtx
  | eventListMtx
  | methodListMtx
  deriving DecidableEq

inductive MasterThread where
  | acceptNewConnection
  | keepAliveWorker
  | processControlMessage
  deriving DecidableEq

instance : Fintype MasterThread where
  elems := {.acceptNewConnection, .keepAliveWorker, .processControlMessage}
  complete thread := by cases thread <;> decide

open LockProgram MasterLock

/-- `std::lock_guard` and `WritingSharedLockGuard`. -/
def lockGuard (lock : MasterLock) (body : LockProgram MasterLock) : LockProgram MasterLock :=
  guarded lock .exclusive body

/-- `ReadingSharedLockGuard`. -/
def readingGuard (lock : MasterLock) (body : LockProgram MasterLock) : LockProgram MasterLock :=
  guarded lock .shared body

/-- A connection that asks to join is handled under two guards; any other is
handled under none. -/
def acceptNewConnection : LockProgram MasterLock :=
  loop (choice
    (lockGuard unprocessedNewParticipantsMtx (lockGuard participantInfoMtx skip))
    skip)

def keepAliveWorker : LockProgram MasterLock :=
  loop (lockGuard unprocessedDeadParticipantsMtx (readingGuard participantInfoMtx skip))

def drainDeadParticipants : LockProgram MasterLock :=
  lockGuard unprocessedDeadParticipantsMtx
    (loop (lockGuard participantInfoMtx
      (choice
        (seq (lockGuard eventListMtx skip) (lockGuard methodListMtx skip))
        skip)))

def drainNewParticipants : LockProgram MasterLock :=
  lockGuard unprocessedNewParticipantsMtx (loop (readingGuard participantInfoMtx skip))

/-- `process_debug_message`: the three lists, or an unknown question. -/
def processDebugMessage : LockProgram MasterLock :=
  oneOf [lockGuard eventListMtx skip, readingGuard participantInfoMtx skip,
    lockGuard methodListMtx skip]

/-- The cases of the `switch` over the type of a frame; `none` is a byte that
is no frame type. -/
def handleFrame : Option FrameType → LockProgram MasterLock
  | some .keepAlive => lockGuard participantInfoMtx skip
  | some .eventRegister => readingGuard participantInfoMtx (lockGuard eventListMtx skip)
  | some .eventSubscribe => choice skip (lockGuard eventListMtx skip)
  | some .methodProvide => readingGuard participantInfoMtx (lockGuard methodListMtx skip)
  | some .methodQuery => choice skip (lockGuard methodListMtx skip)
  | some .debug => processDebugMessage
  | some .initiation | some .unknown | some .event | some .methodCall | some .methodResponse
  | none => skip

/-- Everything the `switch` can be asked to handle. -/
def frameKinds : List (Option FrameType) :=
  [some .unknown, some .initiation, some .eventSubscribe, some .eventRegister, some .event,
    some .keepAlive, some .methodProvide, some .methodQuery, some .methodCall,
    some .methodResponse, some .debug, none]

/-- A pass handles any number of frames; a frame that is cut off takes no
lock. -/
def processControlMessage : LockProgram MasterLock :=
  loop (seq drainDeadParticipants
    (seq drainNewParticipants
      (seq (readingGuard participantInfoMtx skip)
        (loop (oneOf (frameKinds.map handleFrame))))))

def masterProgram : MasterThread → LockProgram MasterLock
  | .acceptNewConnection => acceptNewConnection
  | .keepAliveWorker => keepAliveWorker
  | .processControlMessage => processControlMessage

def lockSystem : EventSystem (MasterThread → LockThread MasterLock) (MasterThread × Bool) :=
  LockProgram.system masterProgram

/-- The queues come first, then the participants, then the two tables. -/
def lockRank : MasterLock → Nat
  | .unprocessedNewParticipantsMtx => 0
  | .unprocessedDeadParticipantsMtx => 0
  | .participantInfoMtx => 1
  | .eventListMtx => 2
  | .methodListMtx => 3

theorem masterProgram_ascends (thread : MasterThread) :
    (masterProgram thread).Ascends lockRank 0 := by
  cases thread <;> decide

/-- No threads of the master ever wait for each other in a circle, and none
waits for a lock it holds. -/
theorem master_deadlock_free {config : MasterThread → LockThread MasterLock}
    (reachable : lockSystem.Reachable config) :
    (∀ threads, ¬ Deadlock config threads) ∧
      ∀ thread wanted owned, (config thread).request = some wanted →
        owned ∈ (config thread).held → owned.1 ≠ wanted.1 := by
  constructor
  · exact no_deadlock masterProgram_ascends reachable
  · intro thread wanted owned requested member
    exact held_ne_request masterProgram_ascends reachable requested member

/-- The keep-alive thread waits while a participant joins. -/
theorem master_deadlock_free_sample :
    ∃ config, lockSystem.Reachable config ∧
      (config .keepAliveWorker).request = some (participantInfoMtx, .shared) ∧
      (∀ threads, ¬ Deadlock config threads) ∧
      ∀ thread wanted owned, (config thread).request = some wanted →
        owned ∈ (config thread).held → owned.1 ≠ wanted.1 := by
  let initial : MasterThread → LockThread MasterLock :=
    fun thread => ⟨[], [.run (masterProgram thread)]⟩
  let joining : List (MasterThread × Bool) := List.replicate 6 (.acceptNewConnection, true)
  let counting : List (MasterThread × Bool) := List.replicate 4 (.keepAliveWorker, true)
  obtain ⟨config, run, waits⟩ := lockSystem.exists_run_of_steps (joining ++ counting)
    (fun config =>
      (config .keepAliveWorker).request = some (participantInfoMtx, .shared) ∧
        (config .acceptNewConnection).held =
          [(participantInfoMtx, .exclusive), (unprocessedNewParticipantsMtx, .exclusive)])
    (show lockSystem.Initial initial from fun _ => rfl) (by decide)
  exact ⟨config, ⟨_, run⟩, waits.1, master_deadlock_free ⟨_, run⟩⟩

/-- Some thread of the master can always go on, unless all have returned. -/
theorem master_progress {config : MasterThread → LockThread MasterLock}
    (reachable : lockSystem.Reachable config) :
    (∀ thread, (config thread).todo = []) ∨
      ∃ event config', lockSystem.step config event = some config' :=
  progress masterProgram_ascends reachable

end UBus.Locking
