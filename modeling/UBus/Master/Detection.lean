import UBus.Master.Watchdog

/-!
# What the watchdog finds

The watchdog is not only sound: nobody who has been silent for three ticks
escapes it.  Such a name waits for its removal, and when the queue of dead
participants has been drained, no silent registration is left and none of its
topics.  The counter has eight bits, and may wrap around only while the name
already waits.
-/

namespace UBus

open FiniteMap

section Specification

variable (json : JsonLibrary)

/-- What the watchdog achieves after a history. -/
structure WatchdogComplete (history : List Event) (system : System) : Prop where
  /-- The name of a registration that has been silent for three ticks waits. -/
  waits : ∀ {registration}, Live json registration history →
    SilentFor json registration 3 history →
      registration.name ∈ system.master.unprocessedDeadParticipants
  /-- Who is still registered after the drain has been heard of. -/
  drained : ∀ {next registration}, system.phase = .drainingDead →
    system.step json .proceed = some next → Live json registration history →
      ¬ SilentFor json registration 3 history
  /-- Topics and methods that are found after the drain belong to somebody who
  has been heard of. -/
  owners : ∀ {next kind topic announcement}, system.phase = .drainingDead →
    system.step json .proceed = some next →
    (next.master.announcements kind).lookup topic = some announcement →
      ∃ registration, Owns json kind topic registration history ∧
        registration.fd = (next.master.participants announcement.publisher).socket ∧
          ¬ SilentFor json registration 3 history

end Specification

/-- A registered participant waits for its removal, or its counter is below
three and not behind the silent ticks. -/
def System.Detects (json : JsonLibrary) (history : List Event) (system : System) : Prop :=
  ∀ participant, system.master.Registered participant →
    (system.master.participants participant).name ∈ system.master.unprocessedDeadParticipants ∨
      (system.master.participants participant).watchdogCounter.toNat < 3 ∧
        ∀ count, SilentFor json (system.master.participants participant).registration count
          history → count ≤ (system.master.participants participant).watchdogCounter.toNat

namespace SilentFor

variable {json : JsonLibrary} {registration : Registration} {count : Nat} {history : List Event}
  {event : Event}

theorem of_snoc (silent : SilentFor json registration count (history ++ [event])) :
    count = 0 ∨ ¬ event.KeepsAlive registration.fd ∧
      SilentFor json registration (count - if event.isTick then 1 else 0) history := by
  obtain ⟨before, after, historyEq, joined, quiet, enough⟩ := silent
  rcases List.eq_nil_or_concat after with rfl | ⟨after', last, rfl⟩
  · exact Or.inl (by simpa using enough)
  · have regrouped : history ++ [event] = (before ++ after') ++ [last] := by simpa using historyEq
    obtain ⟨rfl, sameEvent⟩ := List.append_inj' regrouped rfl
    obtain rfl := (List.cons.inj sameEvent).1
    refine Or.inr ⟨quiet event (by simp), before, after', rfl, joined,
      fun later member => quiet later (by simp [member]), ?_⟩
    rw [List.concat_eq_append, List.countP_append, List.countP_singleton] at enough
    omega

end SilentFor

theorem accepted_of_run {json : JsonLibrary} {history : List Event} {system : System}
    (run : (masterSystem json).Run history system) {fd : Fd} {peer : SocketAddress} {frame : Frame}
    {reply : Option Frame} (member : Event.accept fd peer frame reply ∈ history) :
    fd ∈ system.accepted := by
  induction run with
  | initial => simp at member
  | @step history state next event earlier moved ih =>
      have move : Move json state event next := step_move moved
      rcases List.mem_append.mp member with older | newest
      · have known := ih older
        cases move with
        | joined | refused => exact List.mem_cons_of_mem _ known
        | _ => exact known
      · obtain rfl := List.mem_singleton.mp newest
        cases move with
        | joined | refused => exact List.mem_cons_self

namespace System.Detects

variable {json : JsonLibrary} {history : List Event} {system next : System} {event : Event}

theorem unchanged (detects : system.Detects json history) (notTick : event.isTick = false)
    (registered : ∀ participant, next.master.Registered participant →
      system.master.Registered participant)
    (registration : ∀ participant, (next.master.participants participant).registration =
      (system.master.participants participant).registration)
    (counters : ∀ participant, (next.master.participants participant).watchdogCounter =
      (system.master.participants participant).watchdogCounter)
    (waits : ∀ participant, next.master.Registered participant →
      (system.master.participants participant).name ∈
        system.master.unprocessedDeadParticipants →
      (system.master.participants participant).name ∈
        next.master.unprocessedDeadParticipants) :
    next.Detects json (history ++ [event]) := by
  intro participant isRegistered
  have name : (next.master.participants participant).name =
      (system.master.participants participant).name :=
    congrArg Registration.name (registration participant)
  rw [registration, counters, name]
  rcases detects participant (registered participant isRegistered) with older | ⟨small, notBehind⟩
  · exact Or.inl (waits participant isRegistered older)
  · refine Or.inr ⟨small, fun count silent => ?_⟩
    rcases silent.of_snoc with rfl | ⟨-, before⟩
    · exact Nat.zero_le _
    · rw [notTick] at before
      exact notBehind count (by simpa using before)

theorem keptAlive {fd : Fd} (detects : system.Detects json history)
    (consistent : system.master.RegistryConsistent) (kept : event.KeepsAlive fd)
    (moved : system.step json event = some next) : next.Detects json (history ++ [event]) := by
  obtain ⟨owner, mapped, masterEq⟩ := System.step_keepsAlive kept moved
  obtain ⟨owner', isEntry, socket, -⟩ := consistent.mapped mapped
  obtain rfl := Option.some.inj isEntry
  have notTick : event.isTick = false := by
    obtain ⟨frame, order, reply, rfl, -⟩ := kept
    rfl
  intro participant registered
  rw [masterEq] at registered ⊢
  have registration := (SameService.of_sameRegistry
    (system.master.setWatchdog_sameRegistry owner 0)).registration participant
  have name : ((system.master.setWatchdog owner 0).participants participant).name =
      (system.master.participants participant).name := congrArg Registration.name registration
  rw [registration, name]
  rcases detects participant registered with older | ⟨small, notBehind⟩
  · exact Or.inl older
  · refine Or.inr ?_
    by_cases same : participant = owner
    · subst same
      refine ⟨by simp [UBusMaster.setWatchdog], fun count silent => ?_⟩
      rcases silent.of_snoc with rfl | ⟨notKept, -⟩
      · exact Nat.zero_le _
      · -- the keep-alive has come from the socket of the registration
        have own : event.KeepsAlive (system.master.participants participant).socket := by
          rw [socket]
          exact kept
        exact absurd own notKept
    · have counter : ((system.master.setWatchdog owner 0).participants
          participant).watchdogCounter =
            (system.master.participants participant).watchdogCounter := by
        simp [UBusMaster.setWatchdog, same]
      rw [counter]
      refine ⟨small, fun count silent => ?_⟩
      rcases silent.of_snoc with rfl | ⟨-, before⟩
      · exact Nat.zero_le _
      · rw [notTick] at before
        exact notBehind count (by simpa using before)

/-- A tick counts, and a counter that has come to three makes the name wait. -/
theorem ticked {order : List Bytes} (detects : system.Detects json history)
    (consistent : system.master.RegistryConsistent)
    (visits : Enumerates order system.master.participantList)
    (masterEq : next.master = system.master.tick order) :
    next.Detects json (history ++ [.tick order]) := by
  have same := system.master.tick_sameRegistry order
  have service := SameService.of_sameRegistry same
  intro participant registered
  have registration := service.registration participant
  have name := congrArg Registration.name registration
  change ((system.master.tick order).participants participant).name =
    (system.master.participants participant).name at name
  rw [masterEq] at registered ⊢
  have registeredBefore : system.master.Registered participant := by
    obtain ⟨other, listed⟩ := registered
    exact ⟨other, service.participantList ▸ listed⟩
  have listed := consistent.registered_iff.mp registeredBefore
  rw [registration, name, UBusMaster.tick_unprocessedDeadParticipants consistent visits.1,
    UBusMaster.tick_watchdogCounter_of_registered consistent visits registeredBefore]
  rcases detects participant registeredBefore with older | ⟨small, notBehind⟩
  · exact Or.inl (List.mem_append_left _ older)
  have counted : (system.master.tickedCounter participant).toNat =
      (system.master.participants participant).watchdogCounter.toNat + 1 := by
    rw [UBusMaster.tickedCounter, UInt8.toNat_add]
    exact Nat.mod_eq_of_lt (by simp only [UInt8.reduceToNat]; omega)
  by_cases dead : 3 ≤ system.master.tickedCounter participant
  · have member : (system.master.participants participant).name ∈ order := by
      rw [← List.mem_toFinset, visits.2, Finmap.mem_keys]
      exact mem_of_lookup listed
    refine Or.inl (List.mem_append_right _ (List.mem_filter.mpr ⟨member, ?_⟩))
    exact decide_eq_true ⟨participant, listed, dead⟩
  · refine Or.inr ⟨?_, fun count silent => ?_⟩
    · rw [UInt8.le_iff_toNat_le] at dead
      simpa using dead
    · rw [counted]
      rcases silent.of_snoc with rfl | ⟨-, before⟩
      · exact Nat.zero_le _
      · have before' := notBehind _ before
        simp only [Event.isTick, if_true] at before'
        omega

theorem joined {fd : Fd} {peer : SocketAddress} {frame : Frame} {name ip : Bytes} {port : UInt32}
    (detects : system.Detects json history) (registry : system.RegistryInvariant)
    (run : (masterSystem json).Run history system) (notAccepted : fd ∉ system.accepted)
    (fresh : name ∉ system.master.participantList) {reply : Option Frame}
    (masterEq : next.master = system.master.register (joiningInfo peer fd name ip port)) :
    next.Detects json (history ++ [.accept fd peer frame reply]) := by
  intro participant registered
  rw [masterEq] at registered ⊢
  rcases (UBusMaster.registered_register fresh participant).mp registered with rfl | older
  · rw [UBusMaster.register_participants, if_pos rfl]
    refine Or.inr ⟨by simp [joiningInfo], fun count silent => ?_⟩
    rcases silent.of_snoc with rfl | ⟨-, before⟩
    · exact Nat.zero_le _
    · -- nobody has joined on this socket before
      obtain ⟨earlier, later, rfl, ⟨join, member, peer', frame', rfl, -⟩, -⟩ := before
      exact absurd (accepted_of_run run (List.mem_append_left _ member)) notAccepted
  · have notNew := Nat.ne_of_lt (registry.allocated participant older)
    rw [UBusMaster.register_participants, if_neg notNew]
    rcases detects participant older with waiting | ⟨small, notBehind⟩
    · exact Or.inl waiting
    · refine Or.inr ⟨small, fun count silent => ?_⟩
      rcases silent.of_snoc with rfl | ⟨-, before⟩
      · exact Nat.zero_le _
      · exact notBehind count (by simpa [Event.isTick] using before)

theorem step (detects : system.Detects json history) (registry : system.RegistryInvariant)
    (run : (masterSystem json).Run history system)
    (moved : system.step json event = some next) : next.Detects json (history ++ [event]) := by
  by_cases kept : ∃ fd, event.KeepsAlive fd
  · obtain ⟨fd, kept⟩ := kept
    exact detects.keptAlive registry.consistent kept moved
  have notKept : ∀ fd, ¬ event.KeepsAlive fd := not_exists.mp kept
  -- the registry is as it was
  have same (notTick : event.isTick = false) (masterEq : next.master = system.master) :
      next.Detects json (history ++ [event]) :=
    detects.unchanged notTick (fun _ registered => masterEq ▸ registered)
      (fun _ => by rw [masterEq]) (fun _ => by rw [masterEq]) fun _ _ waiting => masterEq ▸ waiting
  have move := step_move moved
  cases move with
  | joined notAccepted _ _ _ fresh => exact detects.joined registry run notAccepted fresh rfl
  | ticked _ visits => exact detects.ticked registry.consistent visits rfl
  | @removed name later participant _ queue listed =>
      refine detects.unchanged rfl ?_ (fun _ => rfl) (fun _ => rfl) ?_
      · rintro other ⟨otherName, otherListed⟩
        change (FiniteMap.erase _ _).lookup otherName = _ at otherListed
        rw [lookup_erase] at otherListed
        split_ifs at otherListed
        exact ⟨otherName, otherListed⟩
      · rintro other ⟨otherName, otherListed⟩ waiting
        change (FiniteMap.erase _ _).lookup otherName = _ at otherListed
        rw [lookup_erase] at otherListed
        split_ifs at otherListed with isRemoved
        have isOther : (system.master.participants other).name ≠ name := by
          rw [(registry.consistent.listed otherListed).1]
          exact isRemoved
        rw [queue] at waiting
        exact (List.mem_cons.mp waiting).resolve_left isOther
  | @keptAlive slot fd frame order reply participant _ isKeepAlive _ =>
      exact absurd ⟨frame, order, reply, rfl, isKeepAlive⟩ (notKept fd)
  | @announced slot fd frame order kind name types publisher _ _ _ _ _ =>
      have infoEq := fun participant =>
        system.master.announce_participants kind name types publisher participant
      refine detects.unchanged rfl (fun _ registered => registered) (fun participant => ?_)
        (fun participant => ?_) fun _ _ waiting => waiting
      · obtain ⟨lists, infoEq⟩ := infoEq participant
        rw [infoEq]
        rfl
      · obtain ⟨lists, infoEq⟩ := infoEq participant
        rw [infoEq]
  | placed | dropped =>
      exact detects.unchanged rfl (fun _ registered => registered) (fun _ => rfl) (fun _ => rfl)
        fun _ _ waiting => waiting
  | _ => exact same rfl rfl

theorem of_run (run : (masterSystem json).Run history system) :
    system.Detects json history := by
  induction run with
  | initial isInitial =>
      obtain ⟨emptyMaster, -, -, -, -, -⟩ := isInitial
      rintro participant ⟨name, listed⟩
      simp [emptyMaster] at listed
  | step earlier moved ih =>
      exact ih.step (RegistryInvariant.of_reachable ⟨_, earlier⟩) earlier moved

end System.Detects

theorem Live.waits {json : JsonLibrary} {history : List Event} {system : System}
    (run : (masterSystem json).Run history system) {registration : Registration}
    (live : Live json registration history) (silent : SilentFor json registration 3 history) :
    registration.name ∈ system.master.unprocessedDeadParticipants := by
  obtain ⟨-, described⟩ := Described.of_run run
  obtain ⟨participant, registered, rfl⟩ := (described.live registration).mp live
  rcases System.Detects.of_run run participant registered with waiting | ⟨small, notBehind⟩
  · exact waiting
  · exact absurd (notBehind 3 silent) (by omega)

theorem System.step_proceed_dead {json : JsonLibrary} {system next : System}
    (phase : system.phase = .drainingDead) (moved : system.step json .proceed = some next) :
    system.master.unprocessedDeadParticipants = [] ∧ next.master = system.master := by
  obtain ⟨later, proceeds, rfl⟩ := Option.map_eq_some_iff.mp moved
  simp only [System.proceed, phase, Option.ite_none_right_eq_some] at proceeds
  exact ⟨proceeds.1, rfl⟩

/-- After every run, the silent ones wait for their removal, and a drain leaves
none of them. -/
theorem watchdog_complete (json : JsonLibrary) {history : List Event} {system : System}
    (run : (masterSystem json).Run history system) : WatchdogComplete json history system := by
  obtain ⟨registry, described⟩ := Described.of_run run
  have drained : ∀ {next registration}, system.phase = .drainingDead →
      system.step json .proceed = some next → Live json registration history →
        ¬ SilentFor json registration 3 history := by
    intro next registration phase moved live silent
    have waiting := live.waits run silent
    rw [(System.step_proceed_dead phase moved).1] at waiting
    simp at waiting
  refine ⟨fun live silent => live.waits run silent, drained, ?_⟩
  intro next kind topic announcement phase moved found
  rw [(System.step_proceed_dead phase moved).2] at found ⊢
  have owns := (described.owned kind topic _).mpr ⟨announcement, found, rfl⟩
  have registered := (registry.consistent.of_announcement found).1
  have live := (described.live _).mpr ⟨announcement.publisher, registered, rfl⟩
  exact ⟨_, owns, rfl, drained phase moved live⟩

/-- The older one of two silent clients waits. -/
theorem watchdog_complete_sample : ∃ history system,
    system.master.unprocessedDeadParticipants = [ascii "a"] ∧
      WatchdogComplete .plain history system := by
  obtain ⟨system, run, waiting⟩ := (masterSystem .plain).exists_run_of_steps
    [.join 5 "a", .tick [ascii "a"], .join 6 "b", .tick [ascii "b", ascii "a"],
      .tick [ascii "a", ascii "b"]]
    (fun system => system.master.unprocessedDeadParticipants = [ascii "a"])
    System.started_initial (by decide +kernel)
  exact ⟨_, system, waiting, watchdog_complete .plain run⟩

end UBus
