import UBus.Master.System
import UBus.Runtime.Events

/-!
# The poll loop of a runtime

`process_event_message` keeps the sockets of the subscriptions in a table of
slots like that of the master.  Entries of `sub_list_` are never removed: the
queue of dead subscriptions, which the loop drains first, is filled nowhere.
A topic that is subscribed again overwrites its entry, while the socket of the
old one keeps its slot until the end of its connection has been read.  This
file determines when every subscription is polled.

The loop takes a topic off its queue and then goes on using the reference that
it has to it.  The language says nothing about what the reference yields then;
here it is any text.  A library that keeps up to fifteen bytes inside the string
leaves those where they were, while longer texts are freed.
-/

namespace UBus

open FiniteMap SlotTable

/-- Where the loop is in a pass.  An exception that it throws ends the
process. -/
inductive LoopPhase where
  | draining
  | beforePoll
  | scanning (slot : Nat)
  | terminated
  deriving DecidableEq

/-- The subscriptions, the slots, and what the surroundings have done: the
sockets that `subscribe_event` has connected, none of which is ever closed here,
and those whose peer has closed. -/
structure EventLoop extends Subscriptions where
  pollFdList : List PollFd
  phase : LoopPhase
  connected : List Fd
  closed : List Fd

/-- A successful call of `subscribe_event`, a publisher that closes a
connection, or a move of the loop.  `popNew` carries the topic that is taken and
the text that the reference to it yields afterwards.  `readOn` is a `read` that
does not return zero, with all that follows in the pass over the slot. -/
inductive LoopEvent where
  | subscribe (topic : Bytes) (typeId : UInt32) (socket : Fd)
  | peerClose (socket : Fd)
  | proceed
  | popNew (topic text : Bytes)
  | poll (result : PollResult)
  | readNothing
  | readOn

/-- What `poll` leaves in an array of which it was given the first `nfds`
entries. -/
def pollEntries (nfds : Nat) (sockets : List Fd) (pollFdList : List PollFd) : List PollFd :=
  pollFdList.mapIdx fun index slot =>
    if index < nfds then { slot with readable := slot.fd.any (· ∈ sockets) } else slot

namespace EventLoop

variable (loop : EventLoop)

abbrev fdAt (slot : Nat) : Option Fd := keyAt PollFd.fd loop.pollFdList slot

/-- The slot the scan is at, with its descriptor, if it is to be read.  Unlike
the master, the loop looks at `POLLIN` only. -/
def current : Option (Nat × Option Fd) :=
  match loop.phase with
  | .scanning slot =>
      match loop.pollFdList[slot]? with
      | some ⟨fd, true⟩ => some (slot, fd)
      | _ => none
  | _ => none

/-- One round of the drain of new subscriptions.  `at` throws on a text that is
not there, and without a free slot nothing is looked up. -/
def popNew (text : Bytes) : Option EventLoop :=
  match loop.unprocessedNewSubEvents with
  | [] => none
  | _ :: later =>
      let popped := { loop with unprocessedNewSubEvents := later }
      if indexOf PollFd.fd none loop.pollFdList < loop.pollFdList.length then
        match loop.subList.lookup text with
        | some subEventInfo => some { popped with
            pollFdList := occupy PollFd.fd ⟨some subEventInfo.socket, false⟩ loop.pollFdList }
        | none => some { popped with phase := .terminated }
      else some popped

def proceed : Option LoopPhase :=
  match loop.phase with
  | .draining => if loop.unprocessedNewSubEvents = [] then some .beforePoll else none
  | .beforePoll | .terminated => none
  | .scanning slot =>
      if loop.pollFdList.length ≤ slot then some .draining
      else if loop.current = none then some (.scanning (slot + 1))
      else none

def step (loop : EventLoop) : LoopEvent → Option EventLoop
  | .subscribe topic typeId socket =>
      if loop.phase = .terminated ∨ socket ∈ loop.connected then none
      else some { loop with
        toSubscriptions := loop.toSubscriptions.add topic typeId socket
        connected := socket :: loop.connected }
  | .peerClose socket =>
      if socket ∈ loop.connected then some { loop with closed := socket :: loop.closed } else none
  | .proceed => loop.proceed.map fun phase => { loop with phase := phase }
  | .popNew topic text =>
      if loop.phase = .draining ∧ loop.unprocessedNewSubEvents.head? = some topic then
        loop.popNew text
      else none
  | .poll result =>
      if loop.phase = .beforePoll then
        match result with
        | .failed => some { loop with phase := .draining }
        | .timeout => some { loop with
            pollFdList := pollEntries loop.subList.size [] loop.pollFdList
            phase := .draining }
        | .ready sockets => some { loop with
            pollFdList := pollEntries loop.subList.size sockets loop.pollFdList
            phase := .scanning 0 }
      else none
  | .readNothing =>
      -- `read` returns zero only on a socket whose peer has closed
      match loop.current with
      | some (slot, some fd) =>
          if fd ∈ loop.closed then
            some { loop with
              pollFdList := loop.pollFdList.modify slot PollFd.cleared
              phase := .scanning (slot + 1) }
          else none
      | _ => none
  | .readOn => loop.current.map fun (slot, _) => { loop with phase := .scanning (slot + 1) }

/-- A loop that has just been started.  The flags of the slots have not been
initialized. -/
structure Initial : Prop where
  subList : loop.subList = ∅
  queue : loop.unprocessedNewSubEvents = []
  slots : loop.pollFdList.length = maxConnections
  free : ∀ slot ∈ loop.pollFdList, slot.fd = none
  phase : loop.phase = .draining
  connected : loop.connected = []
  closed : loop.closed = []

end EventLoop

def eventLoopSystem : EventSystem EventLoop LoopEvent where
  Initial := EventLoop.Initial
  step := EventLoop.step

/-- The possible effects of an event on the loop. -/
inductive LoopMove (loop : EventLoop) : LoopEvent → EventLoop → Prop
  | subscribed {topic typeId socket} :
      loop.phase ≠ .terminated → socket ∉ loop.connected →
        LoopMove loop (.subscribe topic typeId socket) { loop with
          toSubscriptions := loop.toSubscriptions.add topic typeId socket
          connected := socket :: loop.connected }
  | peerClosed {socket} :
      LoopMove loop (.peerClose socket) { loop with closed := socket :: loop.closed }
  | proceeded {phase} :
      loop.proceed = some phase → LoopMove loop .proceed { loop with phase := phase }
  | placed {topic text later subEventInfo} :
      loop.phase = .draining → loop.unprocessedNewSubEvents = topic :: later →
      loop.subList.lookup text = some subEventInfo →
      indexOf PollFd.fd none loop.pollFdList < loop.pollFdList.length →
        LoopMove loop (.popNew topic text) { loop with
          unprocessedNewSubEvents := later
          pollFdList := occupy PollFd.fd ⟨some subEventInfo.socket, false⟩ loop.pollFdList }
  | threw {topic text later} :
      loop.phase = .draining → loop.unprocessedNewSubEvents = topic :: later →
      loop.subList.lookup text = none →
      indexOf PollFd.fd none loop.pollFdList < loop.pollFdList.length →
        LoopMove loop (.popNew topic text) { loop with
          unprocessedNewSubEvents := later
          phase := .terminated }
  | dropped {topic text later} :
      loop.phase = .draining → loop.unprocessedNewSubEvents = topic :: later →
      loop.pollFdList.length ≤ indexOf PollFd.fd none loop.pollFdList →
        LoopMove loop (.popNew topic text) { loop with unprocessedNewSubEvents := later }
  | pollFailed :
      loop.phase = .beforePoll → LoopMove loop (.poll .failed) { loop with phase := .draining }
  | polled {result sockets phase} :
      loop.phase = .beforePoll →
      (result = .timeout ∧ sockets = [] ∧ phase = .draining ∨
        result = .ready sockets ∧ phase = .scanning 0) →
        LoopMove loop (.poll result) { loop with
          pollFdList := pollEntries loop.subList.size sockets loop.pollFdList
          phase := phase }
  | peerGone {slot fd} :
      loop.current = some (slot, some fd) → fd ∈ loop.closed →
        LoopMove loop .readNothing { loop with
          pollFdList := loop.pollFdList.modify slot PollFd.cleared
          phase := .scanning (slot + 1) }
  | readOn {slot fd} :
      loop.current = some (slot, fd) →
        LoopMove loop .readOn { loop with phase := .scanning (slot + 1) }

namespace EventLoop

variable {loop next : EventLoop} {event : LoopEvent}

theorem step_move (moved : loop.step event = some next) : LoopMove loop event next := by
  cases event with
  | subscribe topic typeId socket =>
      obtain ⟨fresh, moved⟩ := Option.ite_none_left_eq_some.mp moved
      obtain rfl := Option.some.inj moved
      exact .subscribed (not_or.mp fresh).1 (not_or.mp fresh).2
  | peerClose socket =>
      obtain ⟨-, moved⟩ := Option.ite_none_right_eq_some.mp moved
      obtain rfl := Option.some.inj moved
      exact .peerClosed
  | proceed =>
      obtain ⟨phase, isPhase, rfl⟩ := Option.map_eq_some_iff.mp moved
      exact .proceeded isPhase
  | popNew topic text =>
      obtain ⟨⟨phase, first⟩, moved⟩ := Option.ite_none_right_eq_some.mp moved
      obtain ⟨later, queue⟩ := List.head?_eq_some_iff.mp first
      simp only [EventLoop.popNew, queue] at moved
      split_ifs at moved with free
      · cases found : loop.subList.lookup text with
        | some subEventInfo =>
            rw [found] at moved
            obtain rfl := Option.some.inj moved
            exact .placed phase queue found free
        | none =>
            rw [found] at moved
            obtain rfl := Option.some.inj moved
            exact .threw phase queue found free
      · obtain rfl := Option.some.inj moved
        exact .dropped phase queue (not_lt.mp free)
  | poll result =>
      obtain ⟨phase, moved⟩ := Option.ite_none_right_eq_some.mp moved
      cases result with
      | failed =>
          obtain rfl := Option.some.inj moved
          exact .pollFailed phase
      | timeout =>
          obtain rfl := Option.some.inj moved
          exact .polled phase (Or.inl ⟨rfl, rfl, rfl⟩)
      | ready sockets =>
          obtain rfl := Option.some.inj moved
          exact .polled phase (Or.inr ⟨rfl, rfl⟩)
  | readNothing =>
      simp only [step] at moved
      split at moved
      next slot fd isCurrent =>
          obtain ⟨gone, moved⟩ := Option.ite_none_right_eq_some.mp moved
          obtain rfl := Option.some.inj moved
          exact .peerGone isCurrent gone
      · cases moved
  | readOn =>
      obtain ⟨⟨slot, fd⟩, isCurrent, rfl⟩ := Option.map_eq_some_iff.mp moved
      exact .readOn isCurrent

end EventLoop

/-- When `poll` is called, every subscription that has been taken from the queue
and whose publisher is still there is in a polled slot. -/
def EventLoop.PollsEveryone (loop : EventLoop) : Prop :=
  loop.phase = .beforePoll → ∀ {topic subEventInfo},
    loop.subList.lookup topic = some subEventInfo →
    topic ∉ loop.unprocessedNewSubEvents → subEventInfo.socket ∉ loop.closed →
      ∃ slot < loop.subList.size, loop.fdAt slot = some subEventInfo.socket

/-- The steps of a runtime with at most `max_connections_` subscriptions. -/
def WithinConnections (loop : EventLoop) (_ : LoopEvent) : Prop :=
  loop.subList.size ≤ maxConnections

instance (loop : EventLoop) (event : LoopEvent) : Decidable (WithinConnections loop event) :=
  inferInstanceAs (Decidable (_ ≤ _))

/-- A subscription whose publisher is still there is taken from the queue only
while the first free slot is below the number of subscriptions, and the
reference to a topic that is taken does not yield another one. -/
def TakesLow (loop : EventLoop) : LoopEvent → Prop
  | .popNew topic text => (text ∈ loop.subList → text = topic) ∧
      ∀ subEventInfo ∈ loop.subList.lookup topic, subEventInfo.socket ∉ loop.closed →
        indexOf PollFd.fd none loop.pollFdList < loop.subList.size
  | _ => True

instance (loop : EventLoop) (event : LoopEvent) : Decidable (TakesLow loop event) := by
  unfold TakesLow
  split <;> infer_instance

/-- Subscriptions that have been taken have slots, and the slots of live
publishers are low. -/
structure EventLoop.PollInvariant (loop : EventLoop) : Prop where
  length : loop.pollFdList.length = maxConnections
  placed : ∀ {topic subEventInfo}, loop.subList.lookup topic = some subEventInfo →
    topic ∉ loop.unprocessedNewSubEvents → subEventInfo.socket ∉ loop.closed →
      ∃ slot, loop.fdAt slot = some subEventInfo.socket
  low : ∀ {slot fd}, loop.fdAt slot = some fd → fd ∉ loop.closed → slot < loop.subList.size

namespace EventLoop

variable {loop next : EventLoop} {event : LoopEvent}

theorem keyAt_pollEntries (nfds : Nat) (sockets : List Fd) (pollFdList : List PollFd)
    (index : Nat) : keyAt PollFd.fd (pollEntries nfds sockets pollFdList) index =
      keyAt PollFd.fd pollFdList index := by
  apply keyAt_mapIdx
  intro index slot
  split_ifs <;> rfl

@[simp]
theorem pollEntries_length (nfds : Nat) (sockets : List Fd) (pollFdList : List PollFd) :
    (pollEntries nfds sockets pollFdList).length = pollFdList.length :=
  List.length_mapIdx

theorem current_eq_some {slot : Nat} {fd : Option Fd} (isCurrent : loop.current = some (slot, fd)) :
    loop.phase = .scanning slot ∧ loop.pollFdList[slot]? = some ⟨fd, true⟩ := by
  unfold current at isCurrent
  split at isCurrent
  next start phase =>
      split at isCurrent
      next fd' found =>
          obtain ⟨rfl, rfl⟩ := Prod.mk.inj (Option.some.inj isCurrent)
          exact ⟨phase, found⟩
      · cases isCurrent
  · cases isCurrent

theorem fdAt_of_current {slot : Nat} {fd : Option Fd} (isCurrent : loop.current = some (slot, fd)) :
    loop.fdAt slot = fd := by
  simp [fdAt, keyAt, (current_eq_some isCurrent).2]

theorem running_of_move (move : LoopMove loop event next) (running : next.phase ≠ .terminated) :
    loop.phase ≠ .terminated := by
  cases move with
  | subscribed running _ => exact running
  | peerClosed => exact running
  | proceeded proceeds =>
      intro ended
      simp [proceed, ended] at proceeds
  | placed phase _ _ _ | threw phase _ _ _ | dropped phase _ _ | pollFailed phase
  | polled phase _ => simp [phase]
  | peerGone isCurrent _ | readOn isCurrent => simp [(current_eq_some isCurrent).1]

namespace PollInvariant

theorem initial (isInitial : loop.Initial) : loop.PollInvariant where
  length := isInitial.slots
  placed := by
    intro topic subEventInfo listed
    simp [isInitial.subList] at listed
  low := by
    intro slot fd occupied
    obtain ⟨pollFd, found, isFd⟩ := Option.bind_eq_some_iff.mp occupied
    rw [isInitial.free pollFd (List.mem_of_getElem? found)] at isFd
    cases isFd

theorem step (invariant : loop.PollInvariant) (within : WithinConnections loop event)
    (takesLow : TakesLow loop event) (move : LoopMove loop event next)
    (running : next.phase ≠ .terminated) : next.PollInvariant := by
  have ⟨length, placed, low⟩ := invariant
  cases move with
  | @subscribed topic typeId socket _ _ =>
      refine ⟨length, ?_, ?_⟩
      · intro other subEventInfo listed notQueued there
        change other ∉ loop.unprocessedNewSubEvents ++ [topic] at notQueued
        change (loop.subList.insert topic ⟨typeId, socket⟩).lookup other = _ at listed
        have isOlder : other ≠ topic := by
          rintro rfl
          exact notQueued (by simp)
        rw [lookup_insert, if_neg isOlder] at listed
        exact placed listed (fun queued => notQueued (by simp [queued])) there
      · intro slot fd occupied there
        exact (low occupied there).trans_le (size_le_size_insert ..)
  | peerClosed =>
      exact ⟨length, fun listed notQueued there => placed listed notQueued fun already =>
        there (List.mem_cons_of_mem _ already),
        fun occupied there => low occupied fun already => there (List.mem_cons_of_mem _ already)⟩
  | proceeded _ => exact ⟨length, placed, low⟩
  | @placed topic text later subEventInfo _ queue listed free =>
      obtain ⟨isTopic, takesLow⟩ := takesLow
      obtain rfl := isTopic (mem_of_lookup listed)
      refine ⟨List.length_set.trans length, ?_, ?_⟩
      · intro other subEventInfo' listed' notLater there
        by_cases isTopic : other = text
        · subst isTopic
          obtain rfl := Option.some.inj (listed.symm.trans listed')
          exact ⟨_, keyAt_occupy_self free⟩
        · have notQueued : other ∉ loop.unprocessedNewSubEvents := by
            rw [queue]
            exact List.not_mem_cons_of_ne_of_not_mem isTopic notLater
          obtain ⟨slot, held⟩ := placed listed' notQueued there
          exact ⟨slot, keyAt_occupy_of_keyAt free held⟩
      · intro slot fd held there
        rcases keyAt_occupy_cases free held with ⟨isNew, isSocket⟩ | older
        · obtain rfl := Option.some.inj isSocket
          rw [isNew]
          exact takesLow subEventInfo listed there
        · exact low older there
  | threw _ _ _ _ => exact absurd rfl running
  | @dropped topic text later _ queue full =>
      refine ⟨length, ?_, low⟩
      intro other subEventInfo listed notLater there
      by_cases isTopic : other = topic
      · -- no slot is free, so the publisher must be gone
        subst isTopic
        have below := takesLow.2 subEventInfo listed there
        unfold WithinConnections at within
        omega
      · refine placed listed ?_ there
        rw [queue]
        exact List.not_mem_cons_of_ne_of_not_mem isTopic notLater
  | pollFailed _ => exact ⟨length, placed, low⟩
  | @polled result sockets phase _ _ =>
      have same : ∀ slot, keyAt PollFd.fd (pollEntries loop.subList.size sockets loop.pollFdList)
          slot = loop.fdAt slot :=
        keyAt_pollEntries _ _ _
      refine ⟨(pollEntries_length ..).trans length, ?_, ?_⟩
      · intro topic subEventInfo listed notQueued there
        obtain ⟨slot, held⟩ := placed listed notQueued there
        exact ⟨slot, (same slot).trans held⟩
      · exact fun held there => low ((same _).symm.trans held) there
  | @peerGone position fd isCurrent gone =>
      refine ⟨(List.length_modify ..).trans length, ?_, ?_⟩
      · intro topic subEventInfo listed notQueued there
        have different : subEventInfo.socket ≠ fd := by
          rintro rfl
          exact there gone
        exact exists_keyAt_modify (fun _ => rfl) (fdAt_of_current isCurrent) different
          (placed listed notQueued there)
      · exact fun held there => low ((keyAt_modify_frees fun _ => rfl).mp held).2 there
  | readOn _ => exact ⟨length, placed, low⟩

end PollInvariant

end EventLoop

/-- In every run of at most `max_connections_` subscriptions in which they are
taken low, and never through the text of another topic, every call of `poll`
covers every live publisher. -/
theorem event_loop_polls_everyone {loop : EventLoop}
    (reachable : ((eventLoopSystem.restrict WithinConnections).restrict TakesLow).Reachable loop) :
    loop.PollsEveryone := by
  have whileRunning : loop.phase ≠ .terminated → loop.PollInvariant := by
    refine reachable.invariant (fun loop => loop.phase ≠ .terminated → loop.PollInvariant)
      (fun _ isInitial _ => .initial isInitial) ?_
    intro loop event next invariant moved running
    obtain ⟨takesLow, moved⟩ := EventSystem.step_restrict.mp moved
    obtain ⟨within, moved⟩ := EventSystem.step_restrict.mp moved
    have move := EventLoop.step_move moved
    exact (invariant (EventLoop.running_of_move move running)).step within takesLow move running
  intro phase topic subEventInfo listed notQueued there
  have invariant := whileRunning (by simp [phase])
  obtain ⟨slot, occupied⟩ := invariant.placed listed notQueued there
  exact ⟨slot, invariant.low occupied there, occupied⟩

def EventLoop.started : EventLoop where
  subList := ∅
  unprocessedNewSubEvents := []
  pollFdList := List.replicate maxConnections ⟨none, false⟩
  phase := .draining
  connected := []
  closed := []

theorem EventLoop.started_initial : EventLoop.started.Initial where
  subList := rfl
  queue := rfl
  slots := List.length_replicate
  free := fun slot member => by rw [List.eq_of_mem_replicate member]
  phase := rfl
  connected := rfl
  closed := rfl

/-- Two topics have been subscribed, and `poll` is about to be called. -/
theorem event_loop_polls_everyone_sample : ∃ loop : EventLoop,
    loop.phase = .beforePoll ∧ loop.fdAt 0 = some 5 ∧ loop.fdAt 1 = some 6 ∧
      loop.PollsEveryone := by
  obtain ⟨loop, run, phase, first, second⟩ :=
    ((eventLoopSystem.restrict WithinConnections).restrict TakesLow).exists_run_of_steps
      [.subscribe (ascii "t") 11 5, .popNew (ascii "t") (ascii "t"), .subscribe (ascii "u") 11 6,
        .popNew (ascii "u") (ascii "u"), .proceed]
      (fun loop => loop.phase = .beforePoll ∧ loop.fdAt 0 = some 5 ∧ loop.fdAt 1 = some 6)
      EventLoop.started_initial (by decide +kernel)
  exact ⟨loop, phase, first, second, event_loop_polls_everyone ⟨_, run⟩⟩

/-- The topic is subscribed again while the old connection still has its slot:
the new one gets the second slot, and only the first one is polled. -/
theorem event_loop_polls_not_everyone : ∃ loop : EventLoop,
    (eventLoopSystem.restrict WithinConnections).Reachable loop ∧ ¬ loop.PollsEveryone := by
  obtain ⟨loop, run, phase, size, listed, queue, there, slot⟩ :=
    (eventLoopSystem.restrict WithinConnections).exists_run_of_steps
      [.subscribe (ascii "t") 11 5, .popNew (ascii "t") (ascii "t"), .proceed, .poll .failed,
        .peerClose 5, .subscribe (ascii "t") 11 6, .popNew (ascii "t") (ascii "t"), .proceed]
      (fun loop => loop.phase = .beforePoll ∧ loop.subList.size = 1 ∧
        (loop.subList.lookup (ascii "t")).map SubEventInfo.socket = some 6 ∧
        loop.unprocessedNewSubEvents = [] ∧ 6 ∉ loop.closed ∧ loop.fdAt 0 ≠ some 6)
      EventLoop.started_initial (by decide +kernel)
  obtain ⟨subEventInfo, listed, socket⟩ := Option.map_eq_some_iff.mp listed
  refine ⟨loop, ⟨_, run⟩, fun everyone => ?_⟩
  obtain ⟨index, below, occupied⟩ :=
    everyone phase listed (by simp [queue]) (by rw [socket]; exact there)
  have isFirst : index = 0 := by omega
  rw [socket, isFirst] at occupied
  exact slot occupied

end UBus
