import UBus.Master.Queues

/-!
# The slots of the poll loop

The processing thread keeps the sockets it polls in a table of slots, filled
at the first free index and never compacted.  The slots carry sockets, the
queue of new participants carries names, and the number of polled slots is the
size of yet another map.  This file determines when the three agree: when each
slot belongs to one live participant, and when every live participant is among
the polled slots.
-/

namespace UBus

open FiniteMap SlotTable

/-- Every occupied slot belongs to one live participant: no socket is in two
slots, and each is mapped to a registered participant. -/
structure System.SlotsLive (system : System) : Prop where
  once : Distinct PollFd.fd system.pollFdList
  live : ∀ {slot fd}, system.fdAt slot = some fd → ∃ participant,
    system.master.socketParticipantMapping.lookup fd = some (some participant) ∧
      system.master.Registered participant

/-- When a pass over the slots begins they are live, and no frame that arrives
during the pass makes a handler use a null participant. -/
structure System.HandlesLive (json : JsonLibrary) (system : System) : Prop where
  slots : system.phase = .scanning 0 → system.SlotsLive
  frames : ∀ {slot fd}, system.current = some (slot, fd) → ∀ order frame,
    processFrame json system.master order fd frame ≠ .crashed

/-- The slots hold mapped sockets, and a name in the queue of new participants
stands for a registered one that has no slot yet. -/
structure System.SlotInvariant (system : System) : Prop where
  once : Distinct PollFd.fd system.pollFdList
  mapped : ∀ {slot fd}, system.fdAt slot = some fd →
    fd ∈ system.master.socketParticipantMapping
  newDistinct : system.master.unprocessedNewParticipants.Nodup
  newListed : system.NewListed
  waiting : ∀ {name participant}, name ∈ system.master.unprocessedNewParticipants →
    system.master.participantList.lookup name = some participant →
      ∀ slot, system.fdAt slot ≠ some (system.master.participants participant).socket

theorem System.fdAt_of_current {system : System} {slot : Nat} {fd : Fd}
    (isCurrent : system.current = some (slot, fd)) : system.fdAt slot = some fd := by
  unfold System.current at isCurrent
  split at isCurrent
  · obtain ⟨fd', readable, same⟩ := Option.map_eq_some_iff.mp isCurrent
    obtain ⟨rfl, rfl⟩ := Prod.mk.inj same
    unfold System.readableAt at readable
    split at readable
    · rename_i slotEq
      simp [System.fdAt, keyAt, slotEq, readable]
    · simp at readable
  · simp at isCurrent

theorem System.Initial.fdAt_ne {system : System} (isInitial : system.Initial) {slot : Nat}
    {fd : Fd} : system.fdAt slot ≠ some fd := by
  intro occupied
  obtain ⟨pollFd, found, isFd⟩ := Option.bind_eq_some_iff.mp occupied
  rw [isInitial.free pollFd (List.mem_of_getElem? found)] at isFd
  simp at isFd

theorem processFrame_ne_crashed {json : JsonLibrary} {master : UBusMaster} {fd : Fd}
    {participant : ParticipantRef}
    (mapped : master.socketParticipantMapping.lookup fd = some (some participant))
    (order : List Bytes) (frame : Frame) :
    processFrame json master order fd frame ≠ .crashed := by
  have responds : ∀ master value, respond json master value ≠ .crashed := by
    intro master value
    unfold respond
    split <;> simp
  have announces : ∀ kind content, announceRequest kind json master fd content ≠ .crashed := by
    intro kind content
    simp only [announceRequest, mapped]
    repeat' split
    all_goals first | exact responds _ _ | simp
  have looksUp : ∀ kind content, lookupRequest kind json master content ≠ .crashed := by
    intro kind content
    simp only [lookupRequest]
    repeat' split
    all_goals first | exact responds _ _ | simp
  have debugs : ∀ content, frameDebug json master order content ≠ .crashed := by
    intro content
    unfold frameDebug
    split <;> simp
  unfold processFrame
  split
  · simp [frameKeepAlive, mapped]
  · exact announces _ _
  · exact looksUp _ _
  · exact announces _ _
  · exact looksUp _ _
  · exact debugs _
  · simp

namespace System.SlotInvariant

variable {json : JsonLibrary} {system next : System} {event : Event}

theorem initial (isInitial : system.Initial) : system.SlotInvariant := by
  constructor
  · exact fun occupied => absurd occupied isInitial.fdAt_ne
  · exact fun occupied => absurd occupied isInitial.fdAt_ne
  · simp [isInitial.master]
  · simp [isInitial.master, System.NewListed]
  · exact fun _ _ _ => isInitial.fdAt_ne

theorem congr (invariant : system.SlotInvariant)
    (same : UBusMaster.SameRegistry system.master next.master)
    (slots : ∀ slot, next.fdAt slot = system.fdAt slot) : next.SlotInvariant := by
  obtain ⟨once, mapped, newDistinct, newListed, waiting⟩ := invariant
  obtain ⟨participants, dead, masterEq⟩ := same.rest
  constructor
  · intro first second fd atFirst atSecond
    rw [← fdAt, slots] at atFirst atSecond
    exact once atFirst atSecond
  · intro slot fd occupied
    rw [slots] at occupied
    rw [masterEq]
    exact mapped occupied
  · rw [masterEq]
    exact newDistinct
  · rw [NewListed, masterEq]
    exact newListed
  · intro name participant queued listed slot
    rw [slots, same.socket]
    rw [masterEq] at queued listed
    exact waiting queued listed slot

theorem step (invariant : system.SlotInvariant) (registry : system.RegistryInvariant)
    (keeps : KeepsWaiting system event) (move : Move json system event next) :
    next.SlotInvariant := by
  have ⟨once, mapped, newDistinct, newListed, waiting⟩ := invariant
  have consistent := registry.consistent
  have newListedNext := newListed.step keeps move
  cases move with
  | @joined fd peer frame name listeningIp listeningPort freshFd _ _ _ fresh =>
      have notHeld : ∀ slot, system.fdAt slot ≠ some fd :=
        fun slot occupied => freshFd (registry.accepted fd (mapped occupied))
      have notQueued : name ∉ system.master.unprocessedNewParticipants :=
        fun queued => fresh (newListed name queued)
      constructor
      · exact once
      · exact fun occupied => Finmap.mem_insert.mpr (Or.inr (mapped occupied))
      · exact List.nodup_append.mpr ⟨newDistinct, by simp, by
          rintro other queued _ (_ | ⟨_, ⟨⟩⟩) rfl
          exact notQueued queued⟩
      · exact newListedNext
      · intro other participant queued listed slot
        change (FiniteMap.insert _ _ _).lookup other = _ at listed
        change system.fdAt slot ≠ some ((system.master.register
          (joiningInfo peer fd name listeningIp listeningPort)).participants participant).socket
        rw [FiniteMap.lookup_insert] at listed
        split_ifs at listed with isNew
        · obtain rfl := Option.some.inj listed
          rw [UBusMaster.register_participants, if_pos rfl]
          exact notHeld slot
        · have older : participant ≠ system.master.allocated :=
            Nat.ne_of_lt (registry.allocated participant ⟨other, listed⟩)
          have queuedBefore : other ∈ system.master.unprocessedNewParticipants :=
            (List.mem_append.mp queued).resolve_right
              fun same => isNew (List.mem_singleton.mp same)
          rw [UBusMaster.register_participants, if_neg older]
          exact waiting queuedBefore listed slot
  | refused _ _ => exact ⟨once, mapped, newDistinct, newListed, waiting⟩
  | @ticked order _ _ =>
      exact invariant.congr (system.master.tick_sameRegistry order) fun _ => rfl
  | peerClosed => exact ⟨once, mapped, newDistinct, newListed, waiting⟩
  | proceeded _ => exact ⟨once, mapped, newDistinct, newListed, waiting⟩
  | @removed name later participant _ _ listed =>
      have vacated : ∀ {slot fd}, keyAt PollFd.fd (vacate PollFd.fd PollFd.cleared
          (system.master.participants participant).socket system.pollFdList) slot = some fd ↔
          system.fdAt slot = some fd ∧ fd ≠ (system.master.participants participant).socket :=
        keyAt_vacate once fun _ => rfl
      have notRemoved : ∀ {other}, other ∈ system.master.unprocessedNewParticipants →
          other ≠ name := by
        rintro other queued rfl
        exact keeps other rfl queued
      constructor
      · exact once.vacate fun _ => rfl
      · intro slot fd occupied
        obtain ⟨held, otherSocket⟩ := vacated.mp occupied
        exact Finmap.mem_erase.mpr ⟨otherSocket, mapped held⟩
      · exact newDistinct
      · exact newListedNext
      · intro other participant' queued listed' slot occupied
        change (FiniteMap.erase _ _).lookup other = _ at listed'
        rw [FiniteMap.lookup_erase, if_neg (notRemoved queued)] at listed'
        exact waiting queued listed' slot (vacated.mp occupied).1
  | @placed name later participant _ queue listed free =>
      rw [queue] at newDistinct waiting
      obtain ⟨notLater, distinctLater⟩ := List.nodup_cons.mp newDistinct
      have fresh := waiting List.mem_cons_self listed
      constructor
      · exact once.occupy free rfl fresh
      · intro slot fd held
        rcases keyAt_occupy_cases free held with ⟨-, isSocket⟩ | older
        · obtain rfl := Option.some.inj isSocket
          exact mem_of_lookup (consistent.listed listed).2
        · exact mapped older
      · exact distinctLater
      · exact newListedNext
      · intro other participant' queued listed' slot held
        rcases keyAt_occupy_cases free held with ⟨-, sameSocket⟩ | older
        · have same := consistent.socket_injective listed listed' (Option.some.inj sameSocket)
          exact notLater (same ▸ queued)
        · exact waiting (List.mem_cons_of_mem _ queued) listed' slot older
  | dropped _ queue _ =>
      rw [queue] at newDistinct waiting
      exact ⟨once, mapped, (List.nodup_cons.mp newDistinct).2,
        newListedNext,
        fun queued => waiting (List.mem_cons_of_mem _ queued)⟩
  | polled _ _ slots _ =>
      exact invariant.congr (.refl _) slots
  | @peerGone position fd _ _ =>
      have kept : ∀ {slot other}, keyAt PollFd.fd
          (system.pollFdList.modify position PollFd.cleared) slot = some other →
          system.fdAt slot = some other :=
        fun held => ((keyAt_modify_frees fun _ => rfl).mp held).2
      exact ⟨fun atFirst atSecond => once (kept atFirst) (kept atSecond),
        fun held => mapped (kept held), newDistinct, newListed,
        fun queued listed slot held => waiting queued listed slot (kept held)⟩
  | skipped _ => exact ⟨once, mapped, newDistinct, newListed, waiting⟩
  | @keptAlive _ _ _ _ _ participant _ _ _ =>
      exact invariant.congr (system.master.setWatchdog_sameRegistry participant 0) fun _ => rfl
  | @announced _ _ _ _ kind name types publisher _ _ _ _ _ =>
      refine ⟨once, mapped, newDistinct, newListed, ?_⟩
      intro other participant queued listed slot
      obtain ⟨announced, infoEq⟩ :=
        system.master.announce_participants kind name types publisher participant
      change system.fdAt slot ≠ some
        ((system.master.announce kind name types publisher).participants participant).socket
      rw [infoEq]
      exact waiting queued listed slot
  | answered _ _ => exact ⟨once, mapped, newDistinct, newListed, waiting⟩

theorem slotsLive (invariant : system.SlotInvariant) (registry : system.RegistryInvariant) :
    system.SlotsLive where
  once := invariant.once
  live := by
    intro slot fd occupied
    obtain ⟨entry, found⟩ := mem_iff.mp (invariant.mapped occupied)
    obtain ⟨participant, rfl, -, listed⟩ := registry.consistent.mapped found
    exact ⟨participant, found, _, listed⟩

end System.SlotInvariant

/-- As long as no waiting participant is removed, every pass finds live slots
and handles its frames on live participants. -/
theorem handles_live (json : JsonLibrary) {system : System}
    (reachable : ((masterSystem json).restrict KeepsWaiting).Reachable system) :
    system.HandlesLive json := by
  have both : system.RegistryInvariant ∧ system.SlotInvariant := by
    refine reachable.invariant (fun state => state.RegistryInvariant ∧ state.SlotInvariant)
      (fun _ isInitial => ⟨.initial isInitial, .initial isInitial⟩) ?_
    rintro state event next ⟨registry, invariant⟩ moved
    obtain ⟨keeps, moved⟩ := EventSystem.step_restrict.mp moved
    have move := step_move moved
    exact ⟨registry.step move, invariant.step registry keeps move⟩
  have live := both.2.slotsLive both.1
  refine ⟨fun _ => live, fun isCurrent order frame => ?_⟩
  obtain ⟨participant, mapped, -⟩ := live.live (System.fdAt_of_current isCurrent)
  exact processFrame_ne_crashed mapped order frame

/-- A pass over the slots of two clients. -/
theorem handles_live_sample : ∃ system : System,
    system.phase = .scanning 0 ∧ system.fdAt 0 = some 5 ∧ system.fdAt 1 = some 6 ∧
      system.HandlesLive .plain := by
  obtain ⟨system, run, phase, first, second⟩ :=
    ((masterSystem .plain).restrict KeepsWaiting).exists_run_of_steps
      (Event.bothTaken ++ [.poll (.ready [6])])
      (fun system => system.phase = .scanning 0 ∧ system.fdAt 0 = some 5 ∧
        system.fdAt 1 = some 6)
      System.started_initial (by decide +kernel)
  exact ⟨system, phase, first, second, handles_live .plain ⟨_, run⟩⟩

/-- A client dies while its name waits in the queue of new participants and
joins again between the two drains: its new socket gets two slots. -/
theorem handles_doubled : ∃ system : System,
    (masterSystem .plain).Reachable system ∧ ¬ system.HandlesLive .plain := by
  obtain ⟨system, run, phase, first, second⟩ :=
    (masterSystem .plain).exists_run_of_steps
      [.join 5 "a", .tick [ascii "a"], .tick [ascii "a"], .tick [ascii "a"], .proceed,
        .popDead (ascii "a"), .proceed, .join 6 "a", .proceed, .popNew (ascii "a"),
        .popNew (ascii "a"), .proceed, .poll (.ready [])]
      (fun system => system.phase = .scanning 0 ∧ system.fdAt 0 = some 6 ∧
        system.fdAt 1 = some 6)
      System.started_initial (by decide +kernel)
  refine ⟨system, ⟨_, run⟩, fun live => ?_⟩
  have same : 0 = 1 := (live.slots phase).once first second
  exact absurd same (by decide)

end UBus
