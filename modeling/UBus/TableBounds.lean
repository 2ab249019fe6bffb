import UBus.Master.Moves
import UBus.Runtime.EventLoop

/-!
# The bounds of the slot tables

The slots of both poll loops are an array of fixed length, while the maps that
give `poll` its number of slots grow with every handshake and every subscription.
No code compares the two.  Each newcomer waits in a queue until it takes a free
slot, so the slots in use and the newcomers that wait for one are counted
together.  A runtime, besides, looks a topic up through a reference to a queue
entry that is no longer there.
-/

namespace UBus

open FiniteMap SlotTable

/-- The slots in use and the newcomers that wait for one fit into the table. -/
def FitsWith (pollFdList : List PollFd) (waiting : Nat) : Prop :=
  occupied PollFd.fd pollFdList + waiting ≤ maxConnections

theorem FitsWith.of_free {pollFdList : List PollFd} (free : ∀ slot ∈ pollFdList, slot.fd = none) :
    FitsWith pollFdList 0 := by
  have none : occupied PollFd.fd pollFdList = 0 := by
    rw [occupied, List.countP_eq_zero]
    intro slot member
    simp [free slot member]
  simp [FitsWith, none]

theorem FitsWith.indexOf_none_lt {pollFdList : List PollFd} {waiting : Nat}
    (fits : FitsWith pollFdList (waiting + 1)) (length : pollFdList.length = maxConnections) :
    indexOf PollFd.fd none pollFdList < pollFdList.length := by
  rw [indexOf_none_lt_iff, length]
  unfold FitsWith at fits
  omega

theorem FitsWith.occupy {pollFdList : List PollFd} {waiting : Nat} {fd : Fd}
    (fits : FitsWith pollFdList (waiting + 1)) (readable : Bool)
    (free : indexOf PollFd.fd none pollFdList < pollFdList.length) :
    FitsWith (occupy PollFd.fd ⟨some fd, readable⟩ pollFdList) waiting := by
  unfold FitsWith at fits ⊢
  rw [occupied_occupy free rfl]
  omega

theorem FitsWith.clear {pollFdList : List PollFd} {waiting : Nat}
    (fits : FitsWith pollFdList waiting) (index : Nat) :
    FitsWith (pollFdList.modify index PollFd.cleared) waiting := by
  unfold FitsWith at fits ⊢
  have fewer : occupied PollFd.fd (pollFdList.modify index PollFd.cleared) ≤
      occupied PollFd.fd pollFdList :=
    occupied_modify_le (fun _ => rfl) index
  omega

theorem FitsWith.congr {pollFdList others : List PollFd} {waiting : Nat}
    (fits : FitsWith pollFdList waiting) (length : others.length = pollFdList.length)
    (same : ∀ index, keyAt PollFd.fd others index = keyAt PollFd.fd pollFdList index) :
    FitsWith others waiting := by
  unfold FitsWith at fits ⊢
  rwa [occupied_congr length same]

/-- `poll` is given at most as many slots as there are, and a name that is taken
from the queue of new participants gets a slot. -/
def System.WithinTable (json : JsonLibrary) (system : System) : Prop :=
  (system.phase = .beforePoll → system.master.participantList.size ≤ system.pollFdList.length) ∧
    ∀ name next, system.step json (.popNew name) = some next →
      ∃ participant slot, system.master.participantList.lookup name = some participant ∧
        next.fdAt slot = some (system.master.participants participant).socket

/-- A handshake is answered OK only while there are fewer participants than
slots, and a slot is left for the newcomer besides those in use and those that
others are waiting for. -/
def System.JoinsWithin (json : JsonLibrary) (system : System) : Event → Prop
  | .accept _ _ _ reply => reply = json.reply (response "OK") →
      system.master.participantList.size < maxConnections ∧
        FitsWith system.pollFdList (system.master.unprocessedNewParticipants.length + 1)
  | _ => True

instance (json : JsonLibrary) (system : System) (event : Event) :
    Decidable (system.JoinsWithin json event) := by
  unfold System.JoinsWithin FitsWith
  split <;> infer_instance

structure System.TableInvariant (system : System) : Prop where
  length : system.pollFdList.length = maxConnections
  size : system.master.participantList.size ≤ maxConnections
  fits : FitsWith system.pollFdList system.master.unprocessedNewParticipants.length

namespace System

variable {json : JsonLibrary} {system next : System} {event : Event}

theorem TableInvariant.congr (invariant : system.TableInvariant)
    (same : UBusMaster.SameRegistry system.master next.master)
    (length : next.pollFdList.length = system.pollFdList.length)
    (slots : ∀ slot, next.fdAt slot = system.fdAt slot) : next.TableInvariant := by
  obtain ⟨participants, dead, masterEq⟩ := same.rest
  refine ⟨length.trans invariant.length, ?_, ?_⟩
  · rw [masterEq]
    exact invariant.size
  · rw [masterEq]
    exact invariant.fits.congr length slots

namespace TableInvariant

theorem initial (isInitial : system.Initial) : system.TableInvariant := by
  refine ⟨isInitial.slots, ?_, ?_⟩
  · simp [isInitial.master, FiniteMap.size]
  · rw [isInitial.master]
    exact .of_free isInitial.free

theorem step (invariant : system.TableInvariant) (joins : system.JoinsWithin json event)
    (move : Move json system event next) : next.TableInvariant := by
  have ⟨length, size, fits⟩ := invariant
  cases move with
  | @joined fd peer frame name listeningIp listeningPort _ _ _ _ fresh =>
      obtain ⟨room, fitsOne⟩ := joins rfl
      refine ⟨length, ?_, ?_⟩
      · change (FiniteMap.insert _ name _).size ≤ _
        rw [size_insert fresh]
        exact room
      · change FitsWith _ (List.length (_ ++ [_]))
        rwa [List.length_append, List.length_singleton]
  | refused _ _ => exact ⟨length, size, fits⟩
  | @ticked order _ _ =>
      exact invariant.congr (system.master.tick_sameRegistry order) rfl fun _ => rfl
  | peerClosed => exact ⟨length, size, fits⟩
  | proceeded _ => exact ⟨length, size, fits⟩
  | removed _ _ listed =>
      refine ⟨(List.length_modify ..).trans length, ?_, fits.clear _⟩
      have shrunk := size_erase (mem_of_lookup listed)
      change (FiniteMap.erase _ _).size ≤ _
      omega
  | placed _ queue _ free =>
      rw [queue] at fits
      exact ⟨List.length_set.trans length, size, fits.occupy false free⟩
  | dropped _ queue _ =>
      rw [queue] at fits
      exact ⟨length, size, (Nat.le_succ _).trans fits⟩
  | polled _ sameLength slots _ => exact invariant.congr (.refl _) sameLength slots
  | peerGone _ _ => exact ⟨(List.length_modify ..).trans length, size, fits.clear _⟩
  | skipped _ => exact ⟨length, size, fits⟩
  | @keptAlive _ _ _ _ _ participant _ _ _ =>
      exact invariant.congr (system.master.setWatchdog_sameRegistry participant 0) rfl
        fun _ => rfl
  | announced _ _ _ _ _ => exact ⟨length, size, fits⟩
  | answered _ _ => exact ⟨length, size, fits⟩

theorem withinTable (invariant : system.TableInvariant) : system.WithinTable json := by
  have ⟨length, size, fits⟩ := invariant
  refine ⟨fun _ => length.symm ▸ size, fun name next moved => ?_⟩
  cases step_move moved with
  | placed _ queue listed free =>
      exact ⟨_, _, listed, keyAt_occupy_self free⟩
  | dropped _ queue full =>
      rw [queue] at fits
      exact absurd (fits.indexOf_none_lt length) (not_lt.mpr full)

end TableInvariant

end System

/-- `poll` is given at most as many slots as there are, and a topic that the
system takes from the queue of new subscriptions gets a slot. -/
def EventLoop.WithinTable (system : EventSystem EventLoop LoopEvent) (loop : EventLoop) : Prop :=
  (loop.phase = .beforePoll → loop.subList.size ≤ loop.pollFdList.length) ∧
    ∀ topic text next, system.step loop (.popNew topic text) = some next →
      ∃ subEventInfo slot, loop.subList.lookup topic = some subEventInfo ∧
        next.fdAt slot = some subEventInfo.socket

/-- A new topic is subscribed only while there are fewer than there are slots,
and a slot is left for any subscription besides those in use and those that
others are waiting for.  The reference to a topic that has been taken still
yields the topic. -/
def EventLoop.SubscribesWithin (loop : EventLoop) : LoopEvent → Prop
  | .subscribe topic _ _ => (topic ∉ loop.subList → loop.subList.size < maxConnections) ∧
      FitsWith loop.pollFdList (loop.unprocessedNewSubEvents.length + 1)
  | .popNew topic text => text = topic
  | _ => True

instance (loop : EventLoop) : (event : LoopEvent) → Decidable (loop.SubscribesWithin event)
  | .subscribe _ _ _ => inferInstanceAs (Decidable ((_ → _ < _) ∧ _ ≤ _))
  | .popNew topic text => instDecidableEqList text topic
  | .peerClose _ | .proceed | .poll _ | .readNothing | .readOn => isTrue trivial

/-- Topics that wait for a slot are in `sub_list_`, and the slots suffice. -/
structure EventLoop.TableInvariant (loop : EventLoop) : Prop where
  length : loop.pollFdList.length = maxConnections
  size : loop.subList.size ≤ maxConnections
  fits : FitsWith loop.pollFdList loop.unprocessedNewSubEvents.length
  listed : ∀ topic ∈ loop.unprocessedNewSubEvents, topic ∈ loop.subList

namespace EventLoop.TableInvariant

variable {loop next : EventLoop} {event : LoopEvent}

theorem initial (isInitial : loop.Initial) : loop.TableInvariant := by
  refine ⟨isInitial.slots, ?_, ?_, ?_⟩
  · simp [isInitial.subList, FiniteMap.size]
  · rw [isInitial.queue]
    exact .of_free isInitial.free
  · simp [isInitial.queue]

theorem step (invariant : loop.TableInvariant) (subscribes : loop.SubscribesWithin event)
    (move : LoopMove loop event next) : next.TableInvariant := by
  have ⟨length, size, fits, listed⟩ := invariant
  cases move with
  | @subscribed topic typeId socket _ _ =>
      obtain ⟨room, fitsOne⟩ := subscribes
      refine ⟨length, ?_, ?_, ?_⟩
      · change (loop.subList.insert topic ⟨typeId, socket⟩).size ≤ _
        by_cases known : topic ∈ loop.subList
        · rwa [size_insert_of_mem known]
        · rw [size_insert known]
          exact room known
      · change FitsWith _ (List.length (_ ++ [_]))
        rwa [List.length_append, List.length_singleton]
      · intro other queued
        rcases List.mem_append.mp queued with older | isNew
        · exact Finmap.mem_insert.mpr (Or.inr (listed other older))
        · exact Finmap.mem_insert.mpr (Or.inl (List.mem_singleton.mp isNew))
  | peerClosed => exact ⟨length, size, fits, listed⟩
  | proceeded _ => exact ⟨length, size, fits, listed⟩
  | placed _ queue _ free =>
      rw [queue] at fits listed
      exact ⟨List.length_set.trans length, size, fits.occupy false free,
        fun topic later => listed topic (List.mem_cons_of_mem _ later)⟩
  | threw _ queue missing _ =>
      obtain rfl : _ = _ := subscribes
      rw [queue] at listed
      exact absurd (listed _ List.mem_cons_self) (Finmap.lookup_eq_none.mp missing)
  | dropped _ queue _ =>
      rw [queue] at fits listed
      exact ⟨length, size, (Nat.le_succ _).trans fits,
        fun topic later => listed topic (List.mem_cons_of_mem _ later)⟩
  | pollFailed _ => exact ⟨length, size, fits, listed⟩
  | polled _ _ =>
      exact ⟨(pollEntries_length ..).trans length, size,
        fits.congr (pollEntries_length ..) (keyAt_pollEntries _ _ _), listed⟩
  | peerGone _ _ => exact ⟨(List.length_modify ..).trans length, size, fits.clear _, listed⟩
  | readOn _ => exact ⟨length, size, fits, listed⟩

theorem withinTable (invariant : loop.TableInvariant) :
    loop.WithinTable (eventLoopSystem.restrict EventLoop.SubscribesWithin) := by
  have ⟨length, size, fits, listed⟩ := invariant
  refine ⟨fun _ => length.symm ▸ size, fun topic text next moved => ?_⟩
  obtain ⟨sameText, moved⟩ := EventSystem.step_restrict.mp moved
  obtain rfl : text = topic := sameText
  have move : LoopMove loop (.popNew text text) next := step_move moved
  cases move with
  | placed _ queue found free =>
      exact ⟨_, _, found, keyAt_occupy_self free⟩
  | threw _ queue missing _ =>
      rw [queue] at listed
      exact absurd (listed _ List.mem_cons_self) (Finmap.lookup_eq_none.mp missing)
  | dropped _ queue full =>
      rw [queue] at fits
      exact absurd (fits.indexOf_none_lt length) (not_lt.mpr full)

end EventLoop.TableInvariant

/-- In every run that admits newcomers within the table, and in which a runtime
finds the topics that it takes, `poll` is never given more slots than there are,
and everyone who leaves a queue gets one. -/
theorem table_bounds (json : JsonLibrary) :
    (∀ system, ((masterSystem json).restrict (System.JoinsWithin json)).Reachable system →
      system.WithinTable json) ∧
    ∀ loop, (eventLoopSystem.restrict EventLoop.SubscribesWithin).Reachable loop →
      loop.WithinTable (eventLoopSystem.restrict EventLoop.SubscribesWithin) := by
  constructor
  · intro system reachable
    refine System.TableInvariant.withinTable ?_
    refine reachable.invariant System.TableInvariant (fun _ isInitial => .initial isInitial) ?_
    intro system event next invariant moved
    obtain ⟨joins, moved⟩ := EventSystem.step_restrict.mp moved
    exact invariant.step joins (step_move moved)
  · intro loop reachable
    refine EventLoop.TableInvariant.withinTable ?_
    refine reachable.invariant EventLoop.TableInvariant (fun _ isInitial => .initial isInitial) ?_
    intro loop event next invariant moved
    obtain ⟨subscribes, moved⟩ := EventSystem.step_restrict.mp moved
    exact invariant.step subscribes (EventLoop.step_move moved)

/-- A client has joined and a topic is subscribed, and both get slots. -/
theorem table_bounds_sample :
    (∃ system : System, system.master.unprocessedNewParticipants = [ascii "a"] ∧
        system.phase = .drainingNew ∧ system.WithinTable .plain) ∧
      ∃ loop : EventLoop, loop.unprocessedNewSubEvents = [ascii "t"] ∧
        loop.WithinTable (eventLoopSystem.restrict EventLoop.SubscribesWithin) := by
  constructor
  · obtain ⟨system, run, queue, phase⟩ :=
      ((masterSystem .plain).restrict (System.JoinsWithin .plain)).exists_run_of_steps
        [.join 5 "a", .proceed, .proceed, .proceed]
        (fun system => system.master.unprocessedNewParticipants = [ascii "a"] ∧
          system.phase = .drainingNew)
        System.started_initial (by decide +kernel)
    exact ⟨system, queue, phase, (table_bounds .plain).1 system ⟨_, run⟩⟩
  · obtain ⟨loop, run, queue⟩ :=
      (eventLoopSystem.restrict EventLoop.SubscribesWithin).exists_run_of_steps
        [.subscribe (ascii "t") 11 5] (fun loop => loop.unprocessedNewSubEvents = [ascii "t"])
        EventLoop.started_initial (by decide +kernel)
    exact ⟨loop, queue, (table_bounds .plain).2 loop ⟨_, run⟩⟩

/-- A loop that has taken a number of subscriptions off its queue, whose topics
and sockets are below that number. -/
structure EventLoop.HasTaken (loop : EventLoop) (count : Nat) : Prop where
  phase : loop.phase = .draining
  queue : loop.unprocessedNewSubEvents = []
  length : loop.pollFdList.length = maxConnections
  size : loop.subList.size = count
  topics : ∀ topic ∈ loop.subList, topic.length < count
  sockets : ∀ socket ∈ loop.connected, socket < count

/-- Any number of topics can be subscribed and taken from the queue. -/
theorem exists_hasTaken (count : Nat) :
    ∃ loop : EventLoop, eventLoopSystem.Reachable loop ∧ loop.HasTaken count := by
  induction count with
  | zero =>
      refine ⟨.started, ⟨[], .initial EventLoop.started_initial⟩, rfl, rfl, List.length_replicate,
        rfl, ?_, ?_⟩
      · intro topic listed
        exact absurd listed Finmap.notMem_empty
      · intro socket connected
        exact absurd connected List.not_mem_nil
  | succ count ih =>
      obtain ⟨loop, ⟨history, run⟩, phase, queue, length, size, topics, sockets⟩ := ih
      let topic : Bytes := List.replicate count 97
      have fresh : topic ∉ loop.subList := by
        intro listed
        have short := topics topic listed
        simp [topic] at short
      have subscribed : eventLoopSystem.step loop (.subscribe topic 11 count) = some { loop with
          toSubscriptions := loop.toSubscriptions.add topic 11 count
          connected := count :: loop.connected } :=
        if_neg (by simpa [phase] using fun connected => lt_irrefl count (sockets count connected))
      -- with or without a slot, the topic leaves the queue
      have taken : ∃ pollFdList : List PollFd, pollFdList.length = maxConnections ∧
          eventLoopSystem.step { loop with
            toSubscriptions := loop.toSubscriptions.add topic 11 count
            connected := count :: loop.connected } (.popNew topic topic) = some { loop with
              subList := loop.subList.insert topic ⟨11, count⟩
              unprocessedNewSubEvents := []
              pollFdList := pollFdList
              connected := count :: loop.connected } := by
        by_cases free : indexOf PollFd.fd none loop.pollFdList < loop.pollFdList.length
        · refine ⟨SlotTable.occupy PollFd.fd ⟨some count, false⟩ loop.pollFdList,
            List.length_set.trans length, ?_⟩
          simp [eventLoopSystem, EventLoop.step, EventLoop.popNew, Subscriptions.add, phase, queue,
            free, lookup_insert]
        · refine ⟨loop.pollFdList, length, ?_⟩
          simp [eventLoopSystem, EventLoop.step, EventLoop.popNew, Subscriptions.add, phase, queue,
            free]
      obtain ⟨pollFdList, sameLength, taken⟩ := taken
      refine ⟨{ loop with
        subList := loop.subList.insert topic ⟨11, count⟩
        unprocessedNewSubEvents := []
        pollFdList := pollFdList
        connected := count :: loop.connected },
        ⟨_, (run.step subscribed).step taken⟩, phase, rfl, sameLength, ?_, ?_, ?_⟩
      · change (loop.subList.insert topic ⟨11, count⟩).size = count + 1
        rw [size_insert fresh, size]
      · intro other listed
        rcases Finmap.mem_insert.mp listed with rfl | older
        · simp [topic]
        · exact (topics other older).trans (Nat.lt_succ_self count)
      · intro socket connected
        rcases List.mem_cons.mp connected with rfl | older
        · exact Nat.lt_succ_self socket
        · exact (sockets socket older).trans (Nat.lt_succ_self count)

/-- With 1025 subscriptions `poll` is told to use one slot more than there are. -/
theorem table_overrun : ∃ loop : EventLoop, eventLoopSystem.Reachable loop ∧
    loop.phase = .beforePoll ∧ loop.pollFdList.length < loop.subList.size ∧
      ¬ loop.WithinTable eventLoopSystem := by
  obtain ⟨loop, ⟨history, run⟩, phase, queue, length, size, -, -⟩ :=
    exists_hasTaken (maxConnections + 1)
  have proceeds : eventLoopSystem.step loop .proceed =
      some { loop with phase := .beforePoll } := by
    simp [eventLoopSystem, EventLoop.step, EventLoop.proceed, phase, queue]
  have overrun : loop.pollFdList.length < loop.subList.size := by
    rw [length, size]
    exact Nat.lt_succ_self maxConnections
  refine ⟨{ loop with phase := .beforePoll }, ⟨_, run.step proceeds⟩, rfl, overrun,
    fun within => ?_⟩
  exact absurd (within.1 rfl) (not_le.mpr overrun)

/-- One subscription, to a topic of sixteen bytes.  The reference to it yields
nothing that is known, so that the process ends and no slot is taken. -/
theorem taken_topic_lost : ∃ loop : EventLoop, eventLoopSystem.Reachable loop ∧
    loop.subList.size = 1 ∧ ¬ loop.WithinTable eventLoopSystem := by
  let topic := ascii "sixteen_bytes___"
  obtain ⟨loop, run, size, taken⟩ := eventLoopSystem.exists_run_of_steps
    [.subscribe topic 11 5]
    (fun loop => loop.subList.size = 1 ∧
      ((eventLoopSystem.step loop (.popNew topic [])).map fun next =>
        decide (next.phase = .terminated ∧ ∀ slot ∈ next.pollFdList, slot.fd = none)) = some true)
    EventLoop.started_initial (by decide +kernel)
  obtain ⟨next, moved, ended⟩ := Option.map_eq_some_iff.mp taken
  obtain ⟨-, free⟩ := of_decide_eq_true ended
  refine ⟨loop, ⟨_, run⟩, size, fun within => ?_⟩
  obtain ⟨subEventInfo, slot, -, held⟩ := within.2 topic [] next moved
  obtain ⟨pollFd, found, isFd⟩ := Option.bind_eq_some_iff.mp held
  rw [free pollFd (List.mem_of_getElem? found)] at isFd
  cases isFd

end UBus
