import UBus.Master.Moves
import UBus.Runtime.EventLoop

/-!
# Reads follow readiness

Both poll loops scan all of their slots after `poll` has written the flags of
the first ones.  A flag that `poll` has not written may be left over from an
earlier pass, when more slots were polled, or from before the loop started.
The master skips free slots; a runtime does not.  A history variable keeps what
the last call of `poll` was given and what it reported.
-/

namespace UBus

open FiniteMap SlotTable

/-- A call of `poll` that has reported sockets as ready. -/
structure LastPoll where
  nfds : Nat
  ready : List Fd

/-- The slot was given to `poll`, with a socket that was reported. -/
def LastPoll.Reported (last : LastPoll) (index : Nat) (fd : Option Fd) : Prop :=
  index < last.nfds ∧ ∃ socket ∈ last.ready, fd = some socket

/-- No slot beyond the first `nfds` is one that the scan would read. -/
def NoneStale (reads : PollFd → Bool) (nfds : Nat) (pollFdList : List PollFd) : Prop :=
  ∀ slot ∈ pollFdList.drop nfds, reads slot = false

instance (reads : PollFd → Bool) (nfds : Nat) (pollFdList : List PollFd) :
    Decidable (NoneStale reads nfds pollFdList) :=
  inferInstanceAs (Decidable (∀ slot ∈ _, _))

/-- What the scan reads from some slot on has been reported. -/
def FreshFrom (reads : PollFd → Bool) (last : LastPoll) (start : Nat)
    (pollFdList : List PollFd) : Prop :=
  ∀ index ≥ start, ∀ slot, pollFdList[index]? = some slot → reads slot = true →
    last.Reported index slot.fd

namespace FreshFrom

variable {reads : PollFd → Bool} {last : LastPoll} {start : Nat} {pollFdList : List PollFd}

theorem succ (fresh : FreshFrom reads last start pollFdList) :
    FreshFrom reads last (start + 1) pollFdList :=
  fun index beyond => fresh index (Nat.le_of_succ_le beyond)

theorem modify (fresh : FreshFrom reads last start pollFdList) (change : PollFd → PollFd) :
    FreshFrom reads last (start + 1) (pollFdList.modify start change) := by
  intro index beyond slot found
  have other : start ≠ index := by omega
  exact fresh index (by omega) slot (by simpa [List.getElem?_modify, other] using found)

/-- After a call of `poll`, if nothing stale is left beyond its slots. -/
theorem poll (flagged : ∀ slot, reads slot = true → slot.readable = true) {nfds : Nat}
    (clean : NoneStale reads nfds pollFdList) (sockets : List Fd) :
    FreshFrom reads ⟨nfds, sockets⟩ 0 (pollEntries nfds sockets pollFdList) := by
  intro index _ slot found isRead
  rw [pollEntries, List.getElem?_mapIdx] at found
  obtain ⟨before, atIndex, rfl⟩ := Option.map_eq_some_iff.mp found
  by_cases polled : index < nfds
  · rw [if_pos polled] at isRead ⊢
    have isReady := flagged _ isRead
    obtain ⟨socket, isSocket, reported⟩ := (Option.any_eq_true _ _).mp isReady
    exact ⟨polled, socket, of_decide_eq_true reported, isSocket⟩
  · rw [if_neg polled] at isRead
    have beyond : before ∈ pollFdList.drop nfds := by
      apply List.mem_of_getElem? (i := index - nfds)
      rw [List.getElem?_drop, ← atIndex]
      congr 1
      omega
    rw [clean before beyond] at isRead
    exact Bool.noConfusion isRead

end FreshFrom

def PollFd.readByMaster (slot : PollFd) : Bool := slot.readable && slot.fd.isSome

/-- A runtime reads every slot whose flag is set. -/
def PollFd.readByLoop (slot : PollFd) : Bool := slot.readable

/-- When `poll` is about to report sockets, no slot beyond those it is given is
occupied and has its flag set. -/
def System.PollsFresh (system : System) : Event → Prop
  | .poll (.ready _) =>
      NoneStale PollFd.readByMaster system.master.participantList.size system.pollFdList
  | _ => True

instance (system : System) (event : Event) : Decidable (system.PollsFresh event) := by
  unfold System.PollsFresh
  split <;> infer_instance

def System.notePoll (system : System) (event : Event) (last : LastPoll) : LastPoll :=
  match event with
  | .poll (.ready sockets) => ⟨system.master.participantList.size, sockets⟩
  | _ => last

/-- The master with the last report of `poll`. -/
def notedMaster (json : JsonLibrary) : EventSystem (System × LastPoll) Event :=
  (masterSystem json).observe ⟨0, []⟩ System.notePoll

/-- A slot that is about to be read has been polled and reported in this pass. -/
def System.ReadsReported (system : System) (last : LastPoll) : Prop :=
  ∀ slot fd, system.current = some (slot, fd) → last.Reported slot (some fd)

namespace System

variable {json : JsonLibrary} {system next : System} {event : Event} {last : LastPoll}

def ScansFresh (system : System) (last : LastPoll) : Prop :=
  ∀ start, system.phase = .scanning start →
    FreshFrom PollFd.readByMaster last start system.pollFdList

theorem ScansFresh.readsReported (fresh : system.ScansFresh last) : system.ReadsReported last := by
  intro slot fd isCurrent
  unfold current at isCurrent
  split at isCurrent
  next start phase =>
      obtain ⟨fd', readable, same⟩ := Option.map_eq_some_iff.mp isCurrent
      obtain ⟨rfl, rfl⟩ := Prod.mk.inj same
      unfold readableAt at readable
      split at readable
      next fd'' found =>
          subst readable
          exact fresh start phase start le_rfl _ found rfl
      · cases readable
  · cases isCurrent

theorem phase_of_current {slot : Nat} {fd : Fd} (isCurrent : system.current = some (slot, fd)) :
    system.phase = .scanning slot := by
  unfold current at isCurrent
  split at isCurrent
  next start phase =>
      obtain ⟨fd', -, same⟩ := Option.map_eq_some_iff.mp isCurrent
      rw [phase, (Prod.mk.inj same).1]
  · cases isCurrent

theorem proceed_scanning {start : Nat} (proceeds : system.proceed = some (.scanning start)) :
    ∃ before, system.phase = .scanning before ∧ start = before + 1 := by
  unfold proceed at proceeds
  split at proceeds
  case h_6 before phase =>
    split_ifs at proceeds
    · cases proceeds
    · exact ⟨before, phase, (Phase.scanning.inj (Option.some.inj proceeds)).symm⟩
  all_goals first | cases proceeds | (split_ifs at proceeds; cases proceeds)

theorem ScansFresh.step (fresh : system.ScansFresh last) (pollsFresh : system.PollsFresh event)
    (moved : system.step json event = some next) :
    next.ScansFresh (system.notePoll event last) := by
  have passed : ∀ {slot fd}, system.current = some (slot, fd) → ∀ start,
      Phase.scanning (slot + 1) = .scanning start →
        FreshFrom PollFd.readByMaster last start system.pollFdList := by
    rintro slot fd isCurrent _ ⟨⟩
    exact (fresh _ (phase_of_current isCurrent)).succ
  cases move : step_move moved with
  | joined _ _ _ _ _ => exact fresh
  | refused _ _ => exact fresh
  | ticked _ _ => exact fresh
  | peerClosed => exact fresh
  | proceeded proceeds =>
      rintro start rfl
      obtain ⟨before, phase, rfl⟩ := proceed_scanning proceeds
      exact (fresh before phase).succ
  | removed phase _ _ | placed phase _ _ _ =>
      intro start scanning
      exact absurd (phase.symm.trans scanning) (by simp)
  | dropped _ _ _ => exact fresh
  | @polled result _ _ _ _ _ _ =>
      obtain ⟨-, polled⟩ := Option.ite_none_right_eq_some.mp moved
      cases result with
      | failed =>
          obtain rfl := (System.mk.inj (Option.some.inj polled)).2.2.1
          simp [ScansFresh]
      | timeout =>
          obtain rfl := (System.mk.inj (Option.some.inj polled)).2.2.1
          simp [ScansFresh]
      | ready sockets =>
          obtain ⟨-, rfl, rfl, -⟩ := System.mk.inj (Option.some.inj polled)
          rintro _ ⟨⟩
          exact FreshFrom.poll (fun slot isRead => (Bool.and_eq_true_iff.mp isRead).1)
            pollsFresh sockets
  | peerGone isCurrent _ =>
      rintro _ ⟨⟩
      exact (fresh _ (phase_of_current isCurrent)).modify _
  | skipped isCurrent => exact passed isCurrent
  | keptAlive isCurrent _ _ => exact passed isCurrent
  | announced isCurrent _ _ _ _ => exact passed isCurrent
  | answered isCurrent _ => exact passed isCurrent

end System

/-- When `poll` is about to report sockets, no slot beyond those it is given has
its flag set. -/
def EventLoop.PollsFresh (loop : EventLoop) : LoopEvent → Prop
  | .poll (.ready _) => NoneStale PollFd.readByLoop loop.subList.size loop.pollFdList
  | _ => True

instance (loop : EventLoop) (event : LoopEvent) : Decidable (loop.PollsFresh event) := by
  unfold EventLoop.PollsFresh
  split <;> infer_instance

def EventLoop.notePoll (loop : EventLoop) (event : LoopEvent) (last : LastPoll) : LastPoll :=
  match event with
  | .poll (.ready sockets) => ⟨loop.subList.size, sockets⟩
  | _ => last

/-- The loop of a runtime with the last report of `poll`. -/
def notedEventLoop : EventSystem (EventLoop × LastPoll) LoopEvent :=
  eventLoopSystem.observe ⟨0, []⟩ EventLoop.notePoll

/-- A slot that is about to be read has been polled and reported in this pass,
so that it has a socket. -/
def EventLoop.ReadsReported (loop : EventLoop) (last : LastPoll) : Prop :=
  ∀ slot fd, loop.current = some (slot, fd) → last.Reported slot fd

namespace EventLoop

variable {loop next : EventLoop} {event : LoopEvent} {last : LastPoll}

def ScansFresh (loop : EventLoop) (last : LastPoll) : Prop :=
  ∀ start, loop.phase = .scanning start →
    FreshFrom PollFd.readByLoop last start loop.pollFdList

theorem ScansFresh.readsReported (fresh : loop.ScansFresh last) : loop.ReadsReported last := by
  intro slot fd isCurrent
  obtain ⟨phase, found⟩ := current_eq_some isCurrent
  exact fresh slot phase slot le_rfl _ found rfl

theorem proceed_scanning {start : Nat} (proceeds : loop.proceed = some (.scanning start)) :
    ∃ before, loop.phase = .scanning before ∧ start = before + 1 := by
  unfold proceed at proceeds
  split at proceeds
  · split_ifs at proceeds
    cases proceeds
  · cases proceeds
  · cases proceeds
  next before phase =>
      split_ifs at proceeds
      · cases proceeds
      · exact ⟨before, phase, (LoopPhase.scanning.inj (Option.some.inj proceeds)).symm⟩

theorem ScansFresh.step (fresh : loop.ScansFresh last) (pollsFresh : loop.PollsFresh event)
    (move : LoopMove loop event next) : next.ScansFresh (loop.notePoll event last) := by
  cases move with
  | subscribed _ _ => exact fresh
  | peerClosed => exact fresh
  | proceeded proceeds =>
      rintro start rfl
      obtain ⟨before, phase, rfl⟩ := proceed_scanning proceeds
      exact (fresh before phase).succ
  | placed phase _ _ _ =>
      intro start scanning
      exact absurd (phase.symm.trans scanning) (by simp)
  | threw _ _ _ _ => simp [ScansFresh]
  | dropped _ _ _ => exact fresh
  | pollFailed _ => simp [ScansFresh]
  | polled _ outcome =>
      rcases outcome with ⟨-, -, rfl⟩ | ⟨rfl, rfl⟩
      · simp [ScansFresh]
      · rintro _ ⟨⟩
        exact FreshFrom.poll (fun _ isRead => isRead) pollsFresh _
  | peerGone isCurrent _ =>
      rintro _ ⟨⟩
      exact (fresh _ (current_eq_some isCurrent).1).modify _
  | readOn isCurrent =>
      rintro _ ⟨⟩
      exact (fresh _ (current_eq_some isCurrent).1).succ

end EventLoop

/-- In every run in which `poll` reports sockets only while nothing is stale
beyond the slots it is given, every read follows a report of the same pass. -/
theorem reads_follow_readiness (json : JsonLibrary) :
    (∀ system last, ((notedMaster json).restrict fun state event =>
        state.1.PollsFresh event).Reachable (system, last) → system.ReadsReported last) ∧
    ∀ loop last, (notedEventLoop.restrict fun state event =>
        state.1.PollsFresh event).Reachable (loop, last) → loop.ReadsReported last := by
  constructor
  · intro system last reachable
    refine System.ScansFresh.readsReported ?_
    refine reachable.invariant (fun state => state.1.ScansFresh state.2) ?_ ?_
    · rintro ⟨system, last⟩ ⟨isInitial, -⟩ start scanning
      exact absurd (isInitial.phase.symm.trans scanning) (by simp)
    · rintro ⟨system, last⟩ event ⟨next, later⟩ fresh moved
      obtain ⟨pollsFresh, moved⟩ := EventSystem.step_restrict.mp moved
      obtain ⟨performed, rfl⟩ := EventSystem.step_observe.mp moved
      exact fresh.step pollsFresh performed
  · intro loop last reachable
    refine EventLoop.ScansFresh.readsReported ?_
    refine reachable.invariant (fun state => state.1.ScansFresh state.2) ?_ ?_
    · rintro ⟨loop, last⟩ ⟨isInitial, -⟩ start scanning
      exact absurd (isInitial.phase.symm.trans scanning) (by simp)
    · rintro ⟨loop, last⟩ event ⟨next, later⟩ fresh moved
      obtain ⟨pollsFresh, moved⟩ := EventSystem.step_restrict.mp moved
      obtain ⟨performed, rfl⟩ := EventSystem.step_observe.mp moved
      exact fresh.step pollsFresh (EventLoop.step_move performed)

theorem notedMaster_initial (json : JsonLibrary) :
    (notedMaster json).Initial (System.started, ⟨0, []⟩) :=
  ⟨System.started_initial, rfl⟩

theorem notedEventLoop_initial {loop : EventLoop} (isInitial : loop.Initial) :
    notedEventLoop.Initial (loop, ⟨0, []⟩) :=
  ⟨isInitial, rfl⟩

/-- Both loops are about to read a socket that has just been reported. -/
theorem reads_follow_readiness_sample :
    (∃ system last, system.current = some (0, 5) ∧ System.ReadsReported system last) ∧
      ∃ loop last, loop.current = some (0, some 5) ∧ EventLoop.ReadsReported loop last := by
  constructor
  · obtain ⟨⟨system, last⟩, run, isCurrent⟩ :=
      ((notedMaster .plain).restrict fun state event =>
        state.1.PollsFresh event).exists_run_of_steps
        Event.untilRead
        (fun state => state.1.current = some (0, 5))
        (notedMaster_initial .plain) (by decide +kernel)
    exact ⟨system, last, isCurrent, (reads_follow_readiness .plain).1 system last ⟨_, run⟩⟩
  · obtain ⟨⟨loop, last⟩, run, isCurrent⟩ :=
      (notedEventLoop.restrict fun state event =>
        state.1.PollsFresh event).exists_run_of_steps
        [.subscribe (ascii "t") 11 5, .popNew (ascii "t") (ascii "t"), .proceed, .poll (.ready [5])]
        (fun state => state.1.current = some (0, some 5))
        (notedEventLoop_initial EventLoop.started_initial) (by decide +kernel)
    exact ⟨loop, last, isCurrent, (reads_follow_readiness .plain).2 loop last ⟨_, run⟩⟩

def EventLoop.dirty : EventLoop :=
  { EventLoop.started with pollFdList := List.replicate maxConnections ⟨none, true⟩ }

theorem EventLoop.dirty_initial : EventLoop.dirty.Initial where
  subList := rfl
  queue := rfl
  slots := List.length_replicate
  free := fun slot member => by rw [List.eq_of_mem_replicate member]
  phase := rfl
  connected := rfl
  closed := rfl

/-- One subscription, and one event on it: the second slot, which was never
used, is read as well. -/
theorem reads_free_slot : ∃ loop last, notedEventLoop.Reachable (loop, last) ∧
    loop.current = some (1, none) ∧ ¬ EventLoop.ReadsReported loop last := by
  obtain ⟨⟨loop, last⟩, run, isCurrent⟩ :=
    notedEventLoop.exists_run_of_steps
      [.subscribe (ascii "t") 11 5, .popNew (ascii "t") (ascii "t"), .proceed, .poll (.ready [5]),
        .readOn]
      (fun state => state.1.current = some (1, none))
      (notedEventLoop_initial EventLoop.dirty_initial) (by decide +kernel)
  refine ⟨loop, last, ⟨_, run⟩, isCurrent, fun reported => ?_⟩
  obtain ⟨-, socket, -, isSocket⟩ := reported 1 none isCurrent
  cases isSocket

end UBus
