import UBus.Master.NameService
import UBus.Master.Queues

/-!
# The watchdog

`keep_alive_worker` counts the ticks since a participant was last heard of and
hands the names of the silent ones to the processing thread, which removes
them later.  Handing over is sound: a name is only pushed after three silent
ticks.  Removal is not, because nothing looks at the counter again; this file
isolates what must not happen while a name waits.
-/

namespace UBus

open FiniteMap

namespace UBusMaster

theorem tickParticipant_watchdogCounter {master : UBusMaster} {name : Bytes}
    {participant : ParticipantRef} :
    ((master.tickParticipant name).participants participant).watchdogCounter =
      if master.participantList.lookup name = some participant then
        master.tickedCounter participant
      else (master.participants participant).watchdogCounter := by
  unfold tickParticipant
  split
  · rename_i unlisted
    simp [unlisted]
  · rename_i other listed
    by_cases same : participant = other
    · subst same
      simp [listed, setWatchdog, tickedCounter]
    · simp [listed, setWatchdog, same, Ne.symm same]

theorem tick_watchdogCounter {master : UBusMaster} (consistent : master.RegistryConsistent)
    {order : List Bytes} (distinct : order.Nodup) (participant : ParticipantRef) :
    ((master.tick order).participants participant).watchdogCounter =
      if ∃ name ∈ order, master.participantList.lookup name = some participant then
        master.tickedCounter participant
      else (master.participants participant).watchdogCounter := by
  induction order generalizing master with
  | nil => simp [tick]
  | cons name order ih =>
      obtain ⟨notLater, distinctLater⟩ := List.nodup_cons.mp distinct
      have same := master.tickParticipant_sameRegistry name
      have later := ih (consistent.sameRegistry same) distinctLater
      have listEq : (master.tickParticipant name).participantList = master.participantList := by
        obtain ⟨participants, dead, masterEq⟩ := same.rest
        rw [masterEq]
      change (((master.tickParticipant name).tick order).participants participant).watchdogCounter
        = _
      rw [later, tickedCounter, tickParticipant_watchdogCounter, listEq]
      by_cases isFirst : master.participantList.lookup name = some participant
      · -- no other name leads to the same participant
        have notOther : ¬ ∃ other ∈ order,
            master.participantList.lookup other = some participant := by
          rintro ⟨other, member, listed⟩
          exact notLater (consistent.name_unique isFirst listed ▸ member)
        simp [isFirst, notOther]
      · simp [isFirst, tickedCounter]

theorem tick_watchdogCounter_of_registered {master : UBusMaster}
    (consistent : master.RegistryConsistent) {order : List Bytes}
    (visits : Enumerates order master.participantList) {participant : ParticipantRef}
    (registered : master.Registered participant) :
    ((master.tick order).participants participant).watchdogCounter =
      master.tickedCounter participant := by
  obtain ⟨name, listed⟩ := registered
  have visited : name ∈ order := by
    rw [← List.mem_toFinset, visits.2, Finmap.mem_keys]
    exact mem_of_lookup listed
  rw [tick_watchdogCounter consistent visits.1, if_pos ⟨name, visited, listed⟩]

end UBusMaster

/-- A `FRAME_KEEP_ALIVE` is handled on a socket. -/
def Event.KeepsAlive (fd : Fd) (event : Event) : Prop :=
  ∃ frame order reply, event = .control fd frame order reply ∧
    frame.messageType = FrameType.keepAlive.code

/-- At least `count` ticks have happened since both the handshake of the
registration and the last keep-alive handled on its socket. -/
def SilentFor (json : JsonLibrary) (registration : Registration) (count : Nat)
    (history : List Event) : Prop :=
  ∃ before after, history = before ++ after ∧
    (∃ event ∈ before, event.Joins json registration) ∧
    (∀ event ∈ after, ¬ event.KeepsAlive registration.fd) ∧
    count ≤ after.countP Event.isTick

def Pushes (system next : System) (name : Bytes) : Prop :=
  ∃ pushed, next.master.unprocessedDeadParticipants =
    system.master.unprocessedDeadParticipants ++ pushed ∧ name ∈ pushed

/-- What the watchdog guarantees after a history. -/
structure WatchdogSound (json : JsonLibrary) (history : List Event) (system : System) : Prop where
  /-- A tick pushes the names of live registrations. -/
  registered : ∀ {order next name}, system.step json (.tick order) = some next →
    Pushes system next name → ∃ registration, Live json registration history ∧
      registration.name = name
  /-- A tick that pushes a live registration is at least the third silent one. -/
  silent : ∀ {order next registration}, system.step json (.tick order) = some next →
    Live json registration history → Pushes system next registration.name →
      SilentFor json registration 2 history
  /-- A keep-alive does not touch the counters of other participants. -/
  others : ∀ {event next fd participant}, system.step json event = some next →
    event.KeepsAlive fd → (system.master.participants participant).socket ≠ fd →
      (next.master.participants participant).watchdogCounter =
        (system.master.participants participant).watchdogCounter

/-- Counters never run ahead of the silent ticks. -/
def System.CountsTicks (json : JsonLibrary) (history : List Event) (system : System) : Prop :=
  ∀ participant, system.master.Registered participant →
    SilentFor json (system.master.participants participant).registration
      (system.master.participants participant).watchdogCounter.toNat history

namespace SilentFor

variable {json : JsonLibrary} {registration : Registration} {count : Nat} {history : List Event}
  {event : Event}

theorem joined (joins : event.Joins json registration) :
    SilentFor json registration 0 (history ++ [event]) :=
  ⟨history ++ [event], [], by simp, ⟨event, by simp, joins⟩, by simp, by simp⟩

theorem restart (silent : SilentFor json registration count history) :
    SilentFor json registration 0 (history ++ [event]) := by
  obtain ⟨before, after, rfl, ⟨join, member, joins⟩, -, -⟩ := silent
  exact ⟨before ++ after ++ [event], [], by simp, ⟨join, by simp [member], joins⟩, by simp,
    by simp⟩

theorem snoc (silent : SilentFor json registration count history)
    (notKept : ¬ event.KeepsAlive registration.fd) :
    SilentFor json registration (count + if event.isTick then 1 else 0) (history ++ [event]) := by
  obtain ⟨before, after, rfl, joined, quiet, enough⟩ := silent
  refine ⟨before, after ++ [event], by simp, joined, ?_, ?_⟩
  · intro later member
    rcases List.mem_append.mp member with older | newest
    · exact quiet later older
    · exact List.mem_singleton.mp newest ▸ notKept
  · rw [List.countP_append, List.countP_singleton]
    omega

theorem mono {fewer : Nat} (silent : SilentFor json registration count history)
    (le : fewer ≤ count) : SilentFor json registration fewer history := by
  obtain ⟨before, after, historyEq, joined, quiet, enough⟩ := silent
  exact ⟨before, after, historyEq, joined, quiet, le.trans enough⟩

end SilentFor

theorem System.step_keepsAlive {json : JsonLibrary} {system next : System} {event : Event} {fd : Fd}
    (kept : event.KeepsAlive fd) (moved : system.step json event = some next) :
    ∃ participant, system.master.socketParticipantMapping.lookup fd = some (some participant) ∧
      next.master = system.master.setWatchdog participant 0 := by
  obtain ⟨frame, order, reply, rfl, isKeepAlive⟩ := kept
  have completed := System.step_control moved
  rw [processFrame, isKeepAlive, FrameType.ofCode_code] at completed
  simp only [frameKeepAlive] at completed
  split at completed
  · rename_i participant mapped
    simp only [Handled.completed, Option.some.injEq, Prod.mk.injEq] at completed
    exact ⟨participant, mapped, completed.1.symm⟩
  · simp [Handled.completed] at completed

namespace System.CountsTicks

variable {json : JsonLibrary} {history : List Event} {system next : System} {event : Event}

theorem unchanged (counts : system.CountsTicks json history)
    (notKept : ∀ fd, ¬ event.KeepsAlive fd)
    (registered : ∀ participant, next.master.Registered participant →
      system.master.Registered participant)
    (registration : ∀ participant, (next.master.participants participant).registration =
      (system.master.participants participant).registration)
    (counters : ∀ participant, (next.master.participants participant).watchdogCounter =
      (system.master.participants participant).watchdogCounter) :
    next.CountsTicks json (history ++ [event]) := by
  intro participant isRegistered
  rw [registration, counters]
  exact ((counts participant (registered participant isRegistered)).snoc (notKept _)).mono
    (Nat.le_add_right ..)

theorem keptAlive {fd : Fd} (counts : system.CountsTicks json history)
    (consistent : system.master.RegistryConsistent) (kept : event.KeepsAlive fd)
    (moved : system.step json event = some next) : next.CountsTicks json (history ++ [event]) := by
  obtain ⟨owner, mapped, masterEq⟩ := System.step_keepsAlive kept moved
  obtain ⟨owner', isEntry, socket, -⟩ := consistent.mapped mapped
  obtain rfl := Option.some.inj isEntry
  intro participant registered
  rw [masterEq] at registered ⊢
  have silent := counts participant registered
  rw [(SameService.of_sameRegistry
    (system.master.setWatchdog_sameRegistry owner 0)).registration participant]
  by_cases same : participant = owner
  · subst same
    simpa [UBusMaster.setWatchdog] using silent.restart
  · have otherSocket : (system.master.participants participant).socket ≠ fd := by
      intro sameSocket
      obtain ⟨name, listed⟩ := registered
      have mapped' := (consistent.listed listed).2
      rw [sameSocket, mapped] at mapped'
      exact same (by simpa using mapped'.symm)
    have notKept : ¬ event.KeepsAlive (system.master.participants participant).socket := by
      rintro ⟨frame, order, reply, eventEq, -⟩
      obtain ⟨frame', order', reply', rfl, -⟩ := kept
      exact otherSocket (Event.control.inj eventEq).1.symm
    have later := (silent.snoc notKept).mono (Nat.le_add_right ..)
    simpa [UBusMaster.setWatchdog, same] using later

theorem step (counts : system.CountsTicks json history) (registry : system.RegistryInvariant)
    (moved : system.step json event = some next) : next.CountsTicks json (history ++ [event]) := by
  by_cases kept : ∃ fd, event.KeepsAlive fd
  · obtain ⟨fd, kept⟩ := kept
    exact counts.keptAlive registry.consistent kept moved
  have notKept : ∀ fd, ¬ event.KeepsAlive fd := not_exists.mp kept
  have same : (∀ participant, next.master.Registered participant →
      system.master.Registered participant) →
      next.master.participants = system.master.participants →
        next.CountsTicks json (history ++ [event]) :=
    fun registered participants => counts.unchanged notKept registered
      (fun participant => by rw [participants]) fun participant => by rw [participants]
  have move := step_move moved
  cases move with
  | @joined fd peer frame name ip port _ _ isInitiation joining fresh =>
      intro participant registered
      change SilentFor json
        ((system.master.register _).participants participant).registration
        ((system.master.register _).participants participant).watchdogCounter.toNat _
      rw [UBusMaster.register_participants]
      split_ifs with isNew
      · exact .joined ⟨peer, frame, rfl, isInitiation, joining⟩
      · have older := ((UBusMaster.registered_register fresh participant).mp
          registered).resolve_left isNew
        exact ((counts participant older).snoc (notKept _)).mono (Nat.le_add_right ..)
  | refused _ _ => exact same (fun _ registered => registered) rfl
  | @ticked order _ visits =>
      obtain ⟨participants, dead, tickEq⟩ := (system.master.tick_sameRegistry order).rest
      intro participant registered
      have registered' : system.master.Registered participant := by
        change (system.master.tick order).Registered participant at registered
        rw [tickEq] at registered
        exact registered
      obtain ⟨counter, infoEq⟩ := (system.master.tick_sameRegistry order).participants participant
      have ticked := UBusMaster.tick_watchdogCounter_of_registered registry.consistent visits
        registered'
      have later := (counts participant registered').snoc (notKept _)
      change SilentFor json ((system.master.tick order).participants participant).registration
        ((system.master.tick order).participants participant).watchdogCounter.toNat _
      have registrationEq : ((system.master.tick order).participants participant).registration =
          (system.master.participants participant).registration := by
        rw [infoEq]
        rfl
      rw [registrationEq, ticked]
      apply later.mono
      -- the counter may wrap around, which only makes it smaller
      rw [UBusMaster.tickedCounter, UInt8.toNat_add]
      simp only [Event.isTick, if_true]
      exact Nat.mod_le _ _
  | peerClosed => exact same (fun _ registered => registered) rfl
  | proceeded _ => exact same (fun _ registered => registered) rfl
  | @removed name later participant _ _ _ =>
      refine same ?_ rfl
      rintro other ⟨otherName, listed⟩
      change (FiniteMap.erase _ _).lookup otherName = _ at listed
      rw [lookup_erase] at listed
      split_ifs at listed
      exact ⟨otherName, listed⟩
  | placed _ _ _ _ => exact same (fun _ registered => registered) rfl
  | dropped _ _ _ => exact same (fun _ registered => registered) rfl
  | polled _ _ _ _ => exact same (fun _ registered => registered) rfl
  | peerGone _ _ => exact same (fun _ registered => registered) rfl
  | skipped _ => exact same (fun _ registered => registered) rfl
  | @keptAlive slot fd frame order reply participant _ isKeepAlive _ =>
      exact absurd ⟨frame, order, reply, rfl, isKeepAlive⟩ (notKept fd)
  | @announced slot fd frame order kind name types publisher _ _ _ _ _ =>
      have infoEq := fun participant =>
        system.master.announce_participants kind name types publisher participant
      refine counts.unchanged notKept (fun _ registered => registered) (fun participant => ?_)
        fun participant => ?_
      · obtain ⟨lists, infoEq⟩ := infoEq participant
        rw [infoEq]
        rfl
      · obtain ⟨lists, infoEq⟩ := infoEq participant
        rw [infoEq]
  | answered _ _ => exact same (fun _ registered => registered) rfl

theorem of_run (run : (masterSystem json).Run history system) :
    system.CountsTicks json history := by
  induction run with
  | initial isInitial =>
      obtain ⟨emptyMaster, -, -, -, -, -⟩ := isInitial
      rintro participant ⟨name, listed⟩
      simp [emptyMaster] at listed
  | step earlier moved ih =>
      exact ih.step (RegistryInvariant.of_reachable ⟨_, earlier⟩) moved

end System.CountsTicks

/-- After every run, a tick only pushes registrations that have been silent
for two ticks before it, and keep-alives only reset their own counter. -/
theorem watchdog_sound (json : JsonLibrary) {history : List Event} {system : System}
    (run : (masterSystem json).Run history system) : WatchdogSound json history system := by
  obtain ⟨registry, described⟩ := Described.of_run run
  have counts := System.CountsTicks.of_run run
  have pushedOverdue : ∀ {order next name}, system.step json (.tick order) = some next →
      Pushes system next name → system.master.Overdue name := by
    rintro order next name moved ⟨pushed, queueEq, member⟩
    simp only [System.step, Option.ite_none_right_eq_some, Option.some.injEq] at moved
    obtain ⟨⟨-, visits⟩, rfl⟩ := moved
    rw [UBusMaster.tick_unprocessedDeadParticipants registry.consistent visits.1] at queueEq
    rw [← List.append_cancel_left queueEq] at member
    simpa using (List.mem_filter.mp member).2
  constructor
  · intro order next name moved pushes
    obtain ⟨participant, listed, -⟩ := pushedOverdue moved pushes
    exact ⟨_, (described.live _).mpr ⟨participant, ⟨name, listed⟩, rfl⟩,
      (registry.consistent.listed listed).1⟩
  · intro order next registration moved live pushes
    obtain ⟨participant, listed, dead⟩ := pushedOverdue moved pushes
    obtain ⟨participant', registered, rfl⟩ := (described.live registration).mp live
    have listed' := registry.consistent.registered_iff.mp registered
    obtain rfl := Option.some.inj (listed'.symm.trans listed)
    apply (counts _ registered).mono
    have bounded := (system.master.participants participant').watchdogCounter.toNat_lt
    rw [UBusMaster.tickedCounter, UInt8.le_iff_toNat_le, UInt8.toNat_add] at dead
    simp only [UInt8.reduceToNat] at dead
    omega
  · intro event next fd participant moved kept otherSocket
    obtain ⟨owner, mapped, masterEq⟩ := System.step_keepsAlive kept moved
    obtain ⟨owner', isEntry, socket, -⟩ := registry.consistent.mapped mapped
    obtain rfl := Option.some.inj isEntry
    have different : participant ≠ owner := by
      rintro rfl
      exact otherSocket socket
    rw [masterEq]
    simp [UBusMaster.setWatchdog, different]

/-- Two silent ticks, after which the next one pushes the client. -/
theorem watchdog_sound_sample : ∃ history system next,
    system.step .plain (.tick [ascii "a"]) = some next ∧ Pushes system next (ascii "a") ∧
      WatchdogSound .plain history system := by
  obtain ⟨system, run, next, moved, pushes⟩ := (masterSystem .plain).exists_run_of_steps
    [.join 5 "a", .tick [ascii "a"], .tick [ascii "a"]]
    (fun system => ∃ next ∈ system.step .plain (.tick [ascii "a"]),
      next.master.unprocessedDeadParticipants =
        system.master.unprocessedDeadParticipants ++ [ascii "a"])
    System.started_initial (by decide +kernel)
  exact ⟨_, system, next, moved, ⟨_, pushes, by simp⟩, watchdog_sound .plain run⟩

/-- An event neither registers a name, nor handles a keep-alive of its
participant, nor makes its counter wrap around. -/
def SparesSilent (json : JsonLibrary) (system : System) (name : Bytes) : Event → Prop
  | .accept fd peer frame _ =>
      name ∈ (acceptNewConnection json system.master peer fd frame).1.participantList →
        name ∈ system.master.participantList
  | .control fd frame _ _ =>
      frame.messageType = FrameType.keepAlive.code →
        ∀ participant ∈ system.master.participantList.lookup name,
          (system.master.participants participant).socket ≠ fd
  | .tick _ =>
      ∀ participant ∈ system.master.participantList.lookup name,
        (system.master.participants participant).watchdogCounter ≠ 255
  | _ => True

instance (json : JsonLibrary) (system : System) (name : Bytes) :
    DecidablePred (SparesSilent json system name)
  | .accept _ _ _ _ => inferInstanceAs (Decidable (_ → _))
  | .control _ _ _ _ => inferInstanceAs (Decidable (_ → _))
  | .tick _ => inferInstanceAs (Decidable (∀ participant ∈ _, _))
  | .peerClose _ | .proceed | .popDead _ | .popNew _ | .poll _ | .readNothing | .readShort =>
      inferInstanceAs (Decidable True)

/-- Steps that spare every name that waits in the queue of dead participants. -/
def KeepsSilent (json : JsonLibrary) (system : System) (event : Event) : Prop :=
  ∀ name ∈ system.master.unprocessedDeadParticipants, SparesSilent json system name event

instance (json : JsonLibrary) (system : System) (event : Event) :
    Decidable (KeepsSilent json system event) :=
  inferInstanceAs (Decidable (∀ name ∈ _, SparesSilent json system name event))

theorem System.step_accept {json : JsonLibrary} {system next : System} {fd : Fd}
    {peer : SocketAddress} {frame : Frame} {reply : Option Frame}
    (moved : system.step json (.accept fd peer frame reply) = some next) :
    next.master = (acceptNewConnection json system.master peer fd frame).1 := by
  simp only [System.step, Option.ite_none_right_eq_some, Option.some.injEq] at moved
  obtain ⟨-, rfl⟩ := moved
  rfl

/-- The participant that the drain is about to remove has been silent for
three ticks. -/
def System.RemovesSilent (system : System) : Prop :=
  ∀ name participant, system.phase = .drainingDead →
    system.master.unprocessedDeadParticipants.head? = some name →
      system.master.participantList.lookup name = some participant →
        3 ≤ (system.master.participants participant).watchdogCounter

def System.SilentInvariant (system : System) : Prop :=
  ∀ name ∈ system.master.unprocessedDeadParticipants, ∀ participant,
    system.master.participantList.lookup name = some participant →
      3 ≤ (system.master.participants participant).watchdogCounter

namespace System.SilentInvariant

variable {json : JsonLibrary} {system next : System} {event : Event}

theorem initial (isInitial : system.Initial) : system.SilentInvariant := by
  obtain ⟨emptyMaster, -, -, -, -, -⟩ := isInitial
  simp [System.SilentInvariant, emptyMaster]

theorem unchanged (invariant : system.SilentInvariant)
    (queue : ∀ name ∈ next.master.unprocessedDeadParticipants,
      name ∈ system.master.unprocessedDeadParticipants)
    (list : ∀ name participant, next.master.participantList.lookup name = some participant →
      system.master.participantList.lookup name = some participant)
    (counters : ∀ participant, (next.master.participants participant).watchdogCounter =
      (system.master.participants participant).watchdogCounter) : next.SilentInvariant := by
  intro name waits participant listed
  rw [counters]
  exact invariant name (queue name waits) participant (list name participant listed)

theorem succ_of_three_le {counter : UInt8} (silent : 3 ≤ counter) (notLast : counter ≠ 255) :
    3 ≤ counter + 1 := by
  have bounded := counter.toNat_lt
  have notLastNat : counter.toNat ≠ 255 := fun isLast => notLast (UInt8.toNat_inj.mp isLast)
  rw [UInt8.le_iff_toNat_le] at silent ⊢
  rw [UInt8.toNat_add]
  simp only [UInt8.reduceToNat] at *
  omega

theorem step (invariant : system.SilentInvariant) (registry : system.RegistryInvariant)
    (keeps : KeepsSilent json system event) (moved : system.step json event = some next) :
    next.SilentInvariant := by
  have move := step_move moved
  cases move with
  | @joined fd peer frame name ip port _ _ _ _ fresh =>
      intro waiting waits participant listed
      have spared := keeps waiting waits
      rw [SparesSilent, ← System.step_accept moved] at spared
      have older := spared (mem_of_lookup listed)
      change (FiniteMap.insert _ _ _).lookup waiting = _ at listed
      rw [lookup_insert] at listed
      split_ifs at listed with isNew
      · obtain rfl : waiting = name := isNew
        exact absurd older fresh
      · have notNew : participant ≠ system.master.allocated :=
          Nat.ne_of_lt (registry.allocated participant ⟨waiting, listed⟩)
        change 3 ≤ ((system.master.register _).participants participant).watchdogCounter
        rw [UBusMaster.register_participants, if_neg notNew]
        exact invariant waiting waits participant listed
  | refused _ _ => exact invariant
  | @ticked order _ visits =>
      obtain ⟨participants, dead, same⟩ := (system.master.tick_sameRegistry order).rest
      intro waiting waits participant listed
      change (system.master.tick order).participantList.lookup waiting = _ at listed
      rw [same] at listed
      have ticked := UBusMaster.tick_watchdogCounter_of_registered registry.consistent visits
        ⟨waiting, listed⟩
      change 3 ≤ ((system.master.tick order).participants participant).watchdogCounter
      rw [ticked]
      change waiting ∈ (system.master.tick order).unprocessedDeadParticipants at waits
      rw [UBusMaster.tick_unprocessedDeadParticipants registry.consistent visits.1] at waits
      rcases List.mem_append.mp waits with older | pushed
      · exact succ_of_three_le (invariant waiting older participant listed)
          (keeps waiting older participant listed)
      · have overdue : system.master.Overdue waiting := by
          simpa using (List.mem_filter.mp pushed).2
        obtain ⟨participant', listed', silent⟩ := overdue
        obtain rfl := Option.some.inj (listed.symm.trans listed')
        exact silent
  | peerClosed => exact invariant
  | proceeded _ => exact invariant
  | @removed name later participant _ queue _ =>
      refine invariant.unchanged (fun waiting waits => ?_) (fun waiting participant' listed => ?_)
        fun _ => rfl
      · rw [queue]
        exact List.mem_cons_of_mem _ waits
      · change (FiniteMap.erase _ _).lookup waiting = _ at listed
        rw [lookup_erase] at listed
        split_ifs at listed
        exact listed
  | placed _ _ _ _ => exact invariant
  | dropped _ _ _ => exact invariant
  | polled _ _ _ _ => exact invariant
  | peerGone _ _ => exact invariant
  | skipped _ => exact invariant
  | @keptAlive slot fd frame order reply participant _ isKeepAlive mapped =>
      intro waiting waits participant' listed
      have otherSocket := keeps waiting waits isKeepAlive participant' listed
      obtain ⟨owner, isEntry, socket, -⟩ := registry.consistent.mapped mapped
      obtain rfl := Option.some.inj isEntry
      have different : participant' ≠ participant := by
        rintro rfl
        exact otherSocket socket
      change 3 ≤ ((system.master.setWatchdog participant 0).participants
        participant').watchdogCounter
      simpa [UBusMaster.setWatchdog, different] using
        invariant waiting waits participant' listed
  | @announced slot fd frame order kind name types publisher _ _ _ _ _ =>
      refine invariant.unchanged (fun _ waits => waits) (fun _ _ listed => listed)
        fun participant => ?_
      obtain ⟨lists, infoEq⟩ :=
        system.master.announce_participants kind name types publisher participant
      rw [infoEq]
  | answered _ _ => exact invariant

theorem of_reachable
    (reachable : ((masterSystem json).restrict (KeepsSilent json)).Reachable system) :
    system.SilentInvariant := by
  have both : system.RegistryInvariant ∧ system.SilentInvariant := by
    refine reachable.invariant (fun state => state.RegistryInvariant ∧ state.SilentInvariant)
      (fun _ isInitial => ⟨.initial isInitial, initial isInitial⟩) ?_
    rintro state event next ⟨registry, invariant⟩ moved
    obtain ⟨keeps, moved⟩ := EventSystem.step_restrict.mp moved
    exact ⟨registry.step (step_move moved), invariant.step registry keeps moved⟩
  exact both.2

end System.SilentInvariant

/-- As long as every waiting name is spared, the drain only removes
participants that have been silent for three ticks. -/
theorem removes_silent (json : JsonLibrary) {system : System}
    (reachable : ((masterSystem json).restrict (KeepsSilent json)).Reachable system) :
    system.RemovesSilent := by
  intro name participant _ first listed
  have waits : name ∈ system.master.unprocessedDeadParticipants := List.mem_of_head? first
  exact System.SilentInvariant.of_reachable reachable name waits participant listed

/-- A client that joins, stays silent for three ticks, and is about to be
removed. -/
theorem removes_silent_sample : ∃ system : System,
    system.phase = .drainingDead ∧
      system.master.unprocessedDeadParticipants = [ascii "a"] ∧ system.RemovesSilent := by
  obtain ⟨system, run, phase, queue⟩ :=
    ((masterSystem .plain).restrict (KeepsSilent .plain)).exists_run_of_steps
      [.join 5 "a", .tick [ascii "a"], .tick [ascii "a"], .tick [ascii "a"], .proceed]
      (fun system => system.phase = .drainingDead ∧
        system.master.unprocessedDeadParticipants = [ascii "a"])
      System.started_initial (by decide +kernel)
  exact ⟨system, phase, queue, removes_silent .plain ⟨_, run⟩⟩

/-- A participant that has been pushed twice is removed, joins again under its
name, and is about to be removed at once. -/
theorem removes_fresh : ∃ system : System,
    (masterSystem .plain).Reachable system ∧ ¬ system.RemovesSilent := by
  obtain ⟨system, run, phase, first, participant, listed, counter⟩ :=
    (masterSystem .plain).exists_run_of_steps
      [.join 5 "a", .tick [ascii "a"], .tick [ascii "a"], .tick [ascii "a"], .tick [ascii "a"],
        .proceed, .popDead (ascii "a"), .join 6 "a"]
      (fun system => system.phase = .drainingDead ∧
        system.master.unprocessedDeadParticipants.head? = some (ascii "a") ∧
        ∃ participant ∈ system.master.participantList.lookup (ascii "a"),
          (system.master.participants participant).watchdogCounter = 0)
      System.started_initial (by decide +kernel)
  refine ⟨system, ⟨_, run⟩, fun silent => ?_⟩
  have atLeastThree := silent _ participant phase first listed
  rw [counter] at atLeastThree
  exact absurd atLeastThree (by decide)

end UBus
