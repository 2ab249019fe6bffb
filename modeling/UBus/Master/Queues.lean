import UBus.Master.Registry

/-!
# The queues between the threads

`keep_alive_worker` and `accept_new_connection` hand names to the processing
thread, which looks them up when it gets to them.  By then a name may have
been handed over twice, or its participant may be gone.  This file isolates
the two ways a queue goes stale, and shows that there is no third.
-/

namespace UBus

open FiniteMap

namespace UBusMaster

def Overdue (master : UBusMaster) (name : Bytes) : Prop :=
  ∃ participant ∈ master.participantList.lookup name, 3 ≤ master.tickedCounter participant

instance (master : UBusMaster) (name : Bytes) : Decidable (master.Overdue name) :=
  inferInstanceAs (Decidable (∃ participant ∈ master.participantList.lookup name, _))

theorem overdue_tickParticipant {master : UBusMaster} (consistent : master.RegistryConsistent)
    {name other : Bytes} (different : other ≠ name) :
    (master.tickParticipant name).Overdue other ↔ master.Overdue other := by
  unfold tickParticipant
  split
  · exact Iff.rfl
  · rename_i participant listed
    refine exists_congr fun participant' => and_congr_right fun listedOther => ?_
    have apart : participant' ≠ participant := by
      rintro rfl
      exact different (consistent.name_unique listedOther listed)
    simp [tickedCounter, setWatchdog, apart]

theorem tick_unprocessedDeadParticipants {master : UBusMaster}
    (consistent : master.RegistryConsistent) {order : List Bytes} (distinct : order.Nodup) :
    (master.tick order).unprocessedDeadParticipants =
      master.unprocessedDeadParticipants ++ order.filter (master.Overdue ·) := by
  induction order generalizing master with
  | nil => simp [tick]
  | cons name order ih =>
      obtain ⟨notLater, distinctLater⟩ := List.nodup_cons.mp distinct
      have first : (master.tickParticipant name).unprocessedDeadParticipants =
          master.unprocessedDeadParticipants ++ [name].filter (master.Overdue ·) := by
        unfold tickParticipant
        split
        · rename_i unlisted
          simp [Overdue, unlisted]
        · rename_i participant listed
          by_cases dead : 3 ≤ master.tickedCounter participant
          · simp [Overdue, listed, dead]
          · simp [Overdue, listed, dead]
      have others : order.filter ((master.tickParticipant name).Overdue ·) =
          order.filter (master.Overdue ·) := by
        apply List.filter_congr
        intro other member
        have different : other ≠ name := fun same => notLater (same ▸ member)
        exact decide_eq_decide.mpr (overdue_tickParticipant consistent different)
      have later := ih (consistent.sameRegistry (master.tickParticipant_sameRegistry name))
        distinctLater
      change ((master.tickParticipant name).tick order).unprocessedDeadParticipants = _
      rw [later, first, others, List.append_assoc, ← List.filter_append]
      rfl

end UBusMaster

def Event.removed : Event → Option Bytes
  | .popDead name => some name
  | _ => none

def Event.isTick : Event → Bool
  | .tick _ => true
  | _ => false

/-- Steps that remove no participant whose name is waiting in the queue of new
ones. -/
def KeepsWaiting (system : System) (event : Event) : Prop :=
  ∀ name ∈ event.removed, name ∉ system.master.unprocessedNewParticipants

instance (system : System) (event : Event) : Decidable (KeepsWaiting system event) :=
  inferInstanceAs (Decidable (∀ name ∈ event.removed, _))

/-- Steps that do not spoil the queues: no tick finds a participant overdue
that is waiting in the queue of dead ones, and no participant is removed while
its name is waiting in the queue of new ones. -/
def KeepsQueues (system : System) (event : Event) : Prop :=
  (event.isTick → ∀ name ∈ system.master.unprocessedDeadParticipants,
    ¬ system.master.Overdue name) ∧ KeepsWaiting system event

instance (system : System) (event : Event) : Decidable (KeepsQueues system event) :=
  inferInstanceAs (Decidable (_ ∧ _))

/-- A name taken from a queue is registered, and the drain that takes it does
not throw. -/
structure System.DrainsSafely (json : JsonLibrary) (system : System) : Prop where
  dead : ∀ name, system.phase = .drainingDead →
    system.master.unprocessedDeadParticipants.head? = some name →
      name ∈ system.master.participantList ∧ (system.step json (.popDead name)).isSome
  new : ∀ name, system.phase = .drainingNew →
    system.master.unprocessedNewParticipants.head? = some name →
      name ∈ system.master.participantList ∧ (system.step json (.popNew name)).isSome

def System.NewListed (system : System) : Prop :=
  ∀ name ∈ system.master.unprocessedNewParticipants, name ∈ system.master.participantList

/-- Every queued name is registered, and no name is queued as dead twice. -/
structure System.QueueInvariant (system : System) : Prop where
  deadDistinct : system.master.unprocessedDeadParticipants.Nodup
  dead : ∀ name ∈ system.master.unprocessedDeadParticipants,
    name ∈ system.master.participantList
  new : system.NewListed

variable {json : JsonLibrary} {system next : System} {event : Event}

theorem System.NewListed.step (newListed : system.NewListed) (keeps : KeepsWaiting system event)
    (move : Move json system event next) : next.NewListed := by
  cases move with
  | joined _ _ _ _ _ =>
      intro other queued
      rcases List.mem_append.mp queued with older | isNew
      · exact Finmap.mem_insert.mpr (Or.inr (newListed other older))
      · exact Finmap.mem_insert.mpr (Or.inl (List.mem_singleton.mp isNew))
  | refused _ _ => exact newListed
  | @ticked order _ _ =>
      obtain ⟨participants, queue, same⟩ := (system.master.tick_sameRegistry order).rest
      change ∀ name ∈ (system.master.tick order).unprocessedNewParticipants,
        name ∈ (system.master.tick order).participantList
      rw [same]
      exact newListed
  | peerClosed => exact newListed
  | proceeded _ => exact newListed
  | @removed name later participant _ _ _ =>
      intro other queued
      have different : other ≠ name := by
        rintro rfl
        exact keeps other rfl queued
      exact Finmap.mem_erase.mpr ⟨different, newListed other queued⟩
  | placed _ queue _ _ =>
      intro other queued
      apply newListed other
      rw [queue]
      exact List.mem_cons_of_mem _ queued
  | dropped _ queue _ =>
      intro other queued
      apply newListed other
      rw [queue]
      exact List.mem_cons_of_mem _ queued
  | polled _ _ _ _ => exact newListed
  | peerGone _ _ => exact newListed
  | skipped _ => exact newListed
  | keptAlive _ _ _ => exact newListed
  | announced _ _ _ _ _ => exact newListed
  | answered _ _ => exact newListed

namespace System.QueueInvariant

theorem initial (isInitial : system.Initial) : system.QueueInvariant := by
  obtain ⟨emptyMaster, -, -, -, -, -⟩ := isInitial
  constructor <;> simp [emptyMaster, System.NewListed]

theorem step (invariant : system.QueueInvariant) (registry : system.RegistryInvariant)
    (keeps : KeepsQueues system event) (move : Move json system event next) :
    next.QueueInvariant := by
  obtain ⟨deadDistinct, dead, new⟩ := invariant
  have newNext := new.step keeps.2 move
  cases move with
  | joined _ _ _ _ _ =>
      exact ⟨deadDistinct, fun other queued => Finmap.mem_insert.mpr (Or.inr (dead other queued)),
        newNext⟩
  | refused _ _ => exact ⟨deadDistinct, dead, newNext⟩
  | @ticked order _ visits =>
      obtain ⟨participants, queue, same⟩ := (system.master.tick_sameRegistry order).rest
      have queueEq := UBusMaster.tick_unprocessedDeadParticipants registry.consistent visits.1
      refine ⟨?_, ?_, newNext⟩
      · change (system.master.tick order).unprocessedDeadParticipants.Nodup
        rw [queueEq]
        apply deadDistinct.append (visits.1.filter _)
        intro name queued pushed
        exact keeps.1 rfl name queued (by simpa using (List.mem_filter.mp pushed).2)
      · intro name queued
        change name ∈ (system.master.tick order).participantList
        change name ∈ (system.master.tick order).unprocessedDeadParticipants at queued
        rw [queueEq] at queued
        rw [same]
        rcases List.mem_append.mp queued with older | pushed
        · exact dead name older
        · have overdue : system.master.Overdue name := by
            simpa using (List.mem_filter.mp pushed).2
          obtain ⟨participant, listed, -⟩ := overdue
          exact mem_of_lookup listed
  | peerClosed => exact ⟨deadDistinct, dead, newNext⟩
  | proceeded _ => exact ⟨deadDistinct, dead, newNext⟩
  | @removed name later participant _ queue _ =>
      rw [queue] at deadDistinct dead
      obtain ⟨notLater, distinctLater⟩ := List.nodup_cons.mp deadDistinct
      refine ⟨distinctLater, fun other queued => ?_, newNext⟩
      have different : other ≠ name := by
        rintro rfl
        exact notLater queued
      exact Finmap.mem_erase.mpr ⟨different, dead other (List.mem_cons_of_mem _ queued)⟩
  | placed _ _ _ _ => exact ⟨deadDistinct, dead, newNext⟩
  | dropped _ _ _ => exact ⟨deadDistinct, dead, newNext⟩
  | polled _ _ _ _ => exact ⟨deadDistinct, dead, newNext⟩
  | peerGone _ _ => exact ⟨deadDistinct, dead, newNext⟩
  | skipped _ => exact ⟨deadDistinct, dead, newNext⟩
  | keptAlive _ _ _ => exact ⟨deadDistinct, dead, newNext⟩
  | announced _ _ _ _ _ => exact ⟨deadDistinct, dead, newNext⟩
  | answered _ _ => exact ⟨deadDistinct, dead, newNext⟩

theorem of_reachable (reachable : ((masterSystem json).restrict KeepsQueues).Reachable system) :
    system.QueueInvariant := by
  have both : system.RegistryInvariant ∧ system.QueueInvariant := by
    refine reachable.invariant (fun state => state.RegistryInvariant ∧ state.QueueInvariant)
      (fun _ isInitial => ⟨.initial isInitial, initial isInitial⟩) ?_
    rintro state event next ⟨registry, invariant⟩ moved
    obtain ⟨keeps, moved⟩ := EventSystem.step_restrict.mp moved
    have move := step_move moved
    exact ⟨registry.step move, invariant.step registry keeps move⟩
  exact both.2

end System.QueueInvariant

/-- As long as no step spoils the queues, every name taken from them is
registered and no drain throws. -/
theorem drains_safely (json : JsonLibrary) {system : System}
    (reachable : ((masterSystem json).restrict KeepsQueues).Reachable system) :
    system.DrainsSafely json := by
  obtain ⟨-, dead, new⟩ := System.QueueInvariant.of_reachable reachable
  constructor
  · intro name phase first
    obtain ⟨later, queue⟩ := List.head?_eq_some_iff.mp first
    have registered := dead name (by simp [queue])
    obtain ⟨participant, listed⟩ := mem_iff.mp registered
    exact ⟨registered, by simp [System.step, System.popDead, phase, queue, listed]⟩
  · intro name phase first
    obtain ⟨later, queue⟩ := List.head?_eq_some_iff.mp first
    have registered := new name (by simp [queue])
    obtain ⟨participant, listed⟩ := mem_iff.mp registered
    refine ⟨registered, ?_⟩
    by_cases free : SlotTable.indexOf PollFd.fd none system.pollFdList < system.pollFdList.length
    · simp [System.step, System.popNew, phase, queue, free, listed]
    · simp [System.step, System.popNew, phase, queue, free]

/-- A client joins, is taken into the slots, and dies. -/
theorem drains_safely_sample : ∃ system : System,
    system.phase = .drainingDead ∧
      system.master.unprocessedDeadParticipants = [ascii "a"] ∧
      system.DrainsSafely .plain := by
  obtain ⟨system, run, phase, queue⟩ :=
    ((masterSystem .plain).restrict KeepsQueues).exists_run_of_steps
      [.join 5 "a", .proceed, .proceed, .proceed, .popNew (ascii "a"), .proceed,
        .poll .timeout, .tick [ascii "a"], .tick [ascii "a"], .tick [ascii "a"], .proceed]
      (fun system => system.phase = .drainingDead ∧
        system.master.unprocessedDeadParticipants = [ascii "a"])
      System.started_initial (by decide +kernel)
  exact ⟨system, phase, queue, drains_safely .plain ⟨_, run⟩⟩

/-- Two ticks during one pass push a dead participant twice, and the second
time its name is no longer registered. -/
theorem drains_unsafely : ∃ system : System,
    (masterSystem .plain).Reachable system ∧ ¬ system.DrainsSafely .plain := by
  obtain ⟨system, run, phase, first, unknown⟩ :=
    (masterSystem .plain).exists_run_of_steps
      [.join 5 "a", .tick [ascii "a"], .tick [ascii "a"], .tick [ascii "a"], .tick [ascii "a"],
        .proceed, .popDead (ascii "a")]
      (fun system => system.phase = .drainingDead ∧
        system.master.unprocessedDeadParticipants.head? = some (ascii "a") ∧
        ascii "a" ∉ system.master.participantList)
      System.started_initial (by decide)
  exact ⟨system, ⟨_, run⟩, fun safely => unknown (safely.dead _ phase first).1⟩

end UBus
