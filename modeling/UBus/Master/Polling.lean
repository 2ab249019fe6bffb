import UBus.Master.PollTable

/-!
# Who is polled

`poll` looks at as many slots as there are registered participants.  The slots
are not compacted when a participant is removed, while their number shrinks,
so a participant in a high slot can drop out.  This file shows that nothing
else can make a live participant drop out.
-/

namespace UBus

open FiniteMap SlotTable

def WithinLimit (system : System) (_ : Event) : Prop :=
  system.master.participantList.size ≤ maxConnections

instance (system : System) (event : Event) : Decidable (WithinLimit system event) :=
  inferInstanceAs (Decidable (_ ≤ _))

/-- Every other slot of a live peer has an index below the number of
participants that remain when `name` is removed. -/
def System.RemovesLow (system : System) (name : Bytes) : Prop :=
  ∀ slot < system.pollFdList.length, ∀ fd ∈ system.fdAt slot, fd ∉ system.closed →
    (∀ participant ∈ system.master.participantList.lookup name,
      fd ≠ (system.master.participants participant).socket) →
    slot + 1 < system.master.participantList.size

instance (system : System) (name : Bytes) : Decidable (system.RemovesLow name) :=
  inferInstanceAs (Decidable (∀ slot < system.pollFdList.length,
    ∀ fd ∈ system.fdAt slot, _ → _ → _))

/-- Steps of a master within its limit that remove no waiting participant and
leave no other live participant in a slot beyond those polled. -/
def KeepsPolled (system : System) (event : Event) : Prop :=
  WithinLimit system event ∧ KeepsWaiting system event ∧
    ∀ name ∈ event.removed, system.RemovesLow name

instance (system : System) (event : Event) : Decidable (KeepsPolled system event) :=
  inferInstanceAs (Decidable (_ ∧ _ ∧ ∀ name ∈ event.removed, _))

/-- When `poll` is called, every participant that has been taken from the
queue of new ones and whose peer is still there is in a polled slot. -/
def System.PollsEveryone (system : System) : Prop :=
  system.phase = .beforePoll → ∀ {name participant},
    system.master.participantList.lookup name = some participant →
    name ∉ system.master.unprocessedNewParticipants →
    (system.master.participants participant).socket ∉ system.closed →
      ∃ slot < system.master.participantList.size,
        system.fdAt slot = some (system.master.participants participant).socket

/-- Live participants have slots, and the slots of live peers are low. -/
structure System.PollInvariant (system : System) : Prop where
  length : system.pollFdList.length = maxConnections
  placed : ∀ {name participant}, system.master.participantList.lookup name = some participant →
    name ∉ system.master.unprocessedNewParticipants →
    (system.master.participants participant).socket ∉ system.closed →
      ∃ slot, system.fdAt slot = some (system.master.participants participant).socket
  low : ∀ {slot fd}, system.fdAt slot = some fd → fd ∉ system.closed →
    slot < system.master.participantList.size

namespace System

variable {json : JsonLibrary} {system next : System} {event : Event}

theorem lt_length_of_fdAt {slot : Nat} {fd : Fd} (occupied : system.fdAt slot = some fd) :
    slot < system.pollFdList.length := by
  obtain ⟨pollFd, found, -⟩ := Option.bind_eq_some_iff.mp occupied
  exact (List.getElem?_eq_some_iff.mp found).1

/-- While a participant waits for a slot, the first free one is below the
number of participants: the others occupy at most one slot each. -/
theorem indexOf_none_lt (slots : system.SlotInvariant) (registry : system.RegistryInvariant)
    {name : Bytes} {participant : ParticipantRef}
    (queued : name ∈ system.master.unprocessedNewParticipants)
    (listed : system.master.participantList.lookup name = some participant) :
    indexOf PollFd.fd none system.pollFdList < system.master.participantList.size := by
  have socketOf : ∃ socketOf : Bytes → Fd, ∀ other participant',
      system.master.participantList.lookup other = some participant' →
        socketOf other = (system.master.participants participant').socket :=
    ⟨fun other => ((system.master.participantList.lookup other).map
      fun participant' => (system.master.participants participant').socket).getD 0,
      fun other participant' found => by simp [found]⟩
  obtain ⟨socketOf, socketOfEq⟩ := socketOf
  have member : name ∈ system.master.participantList.keys :=
    Finmap.mem_keys.mpr (mem_of_lookup listed)
  have present : ∀ slot fd, system.fdAt slot = some fd →
      fd ∈ (system.master.participantList.keys.erase name).image socketOf := by
    intro slot fd occupied
    obtain ⟨entry, mapped⟩ := mem_iff.mp (slots.mapped occupied)
    obtain ⟨participant', rfl, rfl, listed'⟩ := registry.consistent.mapped mapped
    refine Finset.mem_image.mpr ⟨_, Finset.mem_erase.mpr ⟨?_, Finmap.mem_keys.mpr
      (mem_of_lookup listed')⟩, socketOfEq _ _ listed'⟩
    rintro rfl
    obtain rfl := Option.some.inj (listed.symm.trans listed')
    exact slots.waiting queued listed slot occupied
  calc indexOf PollFd.fd none system.pollFdList
      ≤ ((system.master.participantList.keys.erase name).image socketOf).card :=
        indexOf_none_le slots.once present
    _ ≤ (system.master.participantList.keys.erase name).card := Finset.card_image_le
    _ < system.master.participantList.size := Finset.card_erase_lt_of_mem member

namespace PollInvariant

theorem initial (isInitial : system.Initial) : system.PollInvariant := by
  refine ⟨isInitial.slots, ?_, ?_⟩
  · intro name participant listed
    simp [isInitial.master] at listed
  · intro slot fd occupied
    exact absurd occupied isInitial.fdAt_ne

theorem congr (invariant : system.PollInvariant)
    (same : UBusMaster.SameRegistry system.master next.master)
    (length : next.pollFdList.length = system.pollFdList.length)
    (slots : ∀ slot, next.fdAt slot = system.fdAt slot)
    (closed : next.closed = system.closed) : next.PollInvariant := by
  obtain ⟨participants, dead, masterEq⟩ := same.rest
  refine ⟨length.trans invariant.length, ?_, ?_⟩
  · intro name participant listed notQueued peerThere
    rw [same.socket] at peerThere ⊢
    rw [masterEq] at listed notQueued
    rw [closed] at peerThere
    obtain ⟨slot, occupied⟩ := invariant.placed listed notQueued peerThere
    exact ⟨slot, (slots slot).trans occupied⟩
  · intro slot fd occupied peerThere
    rw [slots] at occupied
    rw [closed] at peerThere
    rw [masterEq]
    exact invariant.low occupied peerThere

theorem step (invariant : system.PollInvariant) (slots : system.SlotInvariant)
    (registry : system.RegistryInvariant) (keeps : KeepsPolled system event)
    (move : Move json system event next) : next.PollInvariant := by
  have ⟨length, placed, low⟩ := invariant
  have consistent := registry.consistent
  obtain ⟨within, -, removesLow⟩ := keeps
  cases move with
  | @joined fd peer frame name listeningIp listeningPort _ _ _ _ fresh =>
      refine ⟨length, ?_, ?_⟩
      · intro other participant listed notQueued peerThere
        have isOlder : other ≠ name := by
          rintro rfl
          exact notQueued (List.mem_append_right _ List.mem_cons_self)
        change (FiniteMap.insert _ _ _).lookup other = _ at listed
        change ((system.master.register
          (joiningInfo peer fd name listeningIp listeningPort)).participants participant).socket ∉ _
          at peerThere
        change ∃ slot, system.fdAt slot = some ((system.master.register
          (joiningInfo peer fd name listeningIp listeningPort)).participants participant).socket
        have lookupOlder := FiniteMap.lookup_insert system.master.participantList name other
          system.master.allocated
        rw [if_neg isOlder] at lookupOlder
        replace listed := lookupOlder.symm.trans listed
        have older : participant ≠ system.master.allocated :=
          Nat.ne_of_lt (registry.allocated participant ⟨other, listed⟩)
        rw [UBusMaster.register_participants, if_neg older] at peerThere ⊢
        exact placed listed (fun queued => notQueued (List.mem_append_left _ queued)) peerThere
      · intro slot fd' occupied peerThere
        have grown := size_insert fresh system.master.allocated
        have before := low occupied peerThere
        change slot < (FiniteMap.insert _ name _).size
        omega
  | refused _ _ => exact ⟨length, placed, low⟩
  | @ticked order _ _ =>
      exact invariant.congr (system.master.tick_sameRegistry order) rfl (fun _ => rfl) rfl
  | peerClosed =>
      exact ⟨length, fun listed notQueued peerThere =>
        placed listed notQueued fun already => peerThere (List.mem_cons_of_mem _ already),
        fun occupied peerThere =>
          low occupied fun already => peerThere (List.mem_cons_of_mem _ already)⟩
  | proceeded _ => exact ⟨length, placed, low⟩
  | @removed name later participant _ _ listed =>
      have vacated : ∀ {slot fd}, keyAt PollFd.fd (vacate PollFd.fd PollFd.cleared
          (system.master.participants participant).socket system.pollFdList) slot = some fd ↔
          system.fdAt slot = some fd ∧ fd ≠ (system.master.participants participant).socket :=
        keyAt_vacate slots.once fun _ => rfl
      refine ⟨(List.length_modify ..).trans length, ?_, ?_⟩
      · intro other participant' listed' notQueued peerThere
        change (FiniteMap.erase _ _).lookup other = _ at listed'
        rw [FiniteMap.lookup_erase] at listed'
        split_ifs at listed' with isName
        obtain ⟨slot, occupied⟩ := placed listed' notQueued peerThere
        have otherSocket : (system.master.participants participant').socket ≠
            (system.master.participants participant).socket :=
          fun same => isName (consistent.socket_injective listed' listed same)
        exact ⟨slot, vacated.mpr ⟨occupied, otherSocket⟩⟩
      · intro slot fd occupied peerThere
        obtain ⟨held, otherSocket⟩ := vacated.mp occupied
        have shrunk := size_erase (mem_of_lookup listed)
        have before := removesLow name rfl slot (lt_length_of_fdAt held) fd held peerThere
          fun participant' listed' => by
            obtain rfl := Option.some.inj (listed.symm.trans listed')
            exact otherSocket
        change slot < (FiniteMap.erase _ name).size
        omega
  | @placed name later participant _ queue listed free =>
      have queued : name ∈ system.master.unprocessedNewParticipants := by simp [queue]
      refine ⟨List.length_set.trans length, ?_, ?_⟩
      · intro other participant' listed' notLater peerThere
        by_cases isName : other = name
        · subst isName
          obtain rfl := Option.some.inj (listed.symm.trans listed')
          exact ⟨_, keyAt_occupy_self free⟩
        · have notQueued : other ∉ system.master.unprocessedNewParticipants := by
            rw [queue]
            exact List.not_mem_cons_of_ne_of_not_mem isName notLater
          obtain ⟨slot, held⟩ := placed listed' notQueued peerThere
          exact ⟨slot, keyAt_occupy_of_keyAt free held⟩
      · intro slot fd held peerThere
        rcases keyAt_occupy_cases free held with ⟨isNew, -⟩ | older
        · rw [isNew]
          exact indexOf_none_lt slots registry queued listed
        · exact low older peerThere
  | @dropped name later _ queue full =>
      have queued : name ∈ system.master.unprocessedNewParticipants := by simp [queue]
      obtain ⟨participant, listed⟩ := mem_iff.mp (slots.newListed name queued)
      have below := indexOf_none_lt slots registry queued listed
      unfold WithinLimit at within
      omega
  | polled _ size slotsEq _ => exact invariant.congr (.refl _) size slotsEq rfl
  | @peerGone position fd isCurrent gone =>
      refine ⟨(List.length_modify ..).trans length, ?_, ?_⟩
      · intro other participant listed notQueued peerThere
        have different : (system.master.participants participant).socket ≠ fd := by
          intro isGone
          exact peerThere (isGone ▸ gone)
        exact exists_keyAt_modify (fun _ => rfl) (fdAt_of_current isCurrent) different
          (placed listed notQueued peerThere)
      · exact fun held peerThere => low ((keyAt_modify_frees fun _ => rfl).mp held).2 peerThere
  | skipped _ => exact ⟨length, placed, low⟩
  | @keptAlive _ _ _ _ _ participant _ _ _ =>
      exact invariant.congr (system.master.setWatchdog_sameRegistry participant 0) rfl
        (fun _ => rfl) rfl
  | @announced _ _ _ _ kind name types publisher _ _ _ _ _ =>
      refine ⟨length, ?_, low⟩
      intro other participant listed notQueued peerThere
      obtain ⟨announced, infoEq⟩ :=
        system.master.announce_participants kind name types publisher participant
      change ((system.master.announce kind name types publisher).participants
        participant).socket ∉ _ at peerThere
      change ∃ slot, system.fdAt slot = some
        ((system.master.announce kind name types publisher).participants participant).socket
      rw [infoEq] at peerThere ⊢
      exact placed listed notQueued peerThere
  | answered _ _ => exact ⟨length, placed, low⟩

end PollInvariant

end System

/-- As long as no removal hits a waiting participant or leaves another live one
in a high slot, every call of `poll` covers every live participant. -/
theorem polls_everyone (json : JsonLibrary) {system : System}
    (reachable : ((masterSystem json).restrict KeepsPolled).Reachable system) :
    system.PollsEveryone := by
  have all : system.RegistryInvariant ∧ system.SlotInvariant ∧ system.PollInvariant := by
    refine reachable.invariant
      (fun state => state.RegistryInvariant ∧ state.SlotInvariant ∧ state.PollInvariant)
      (fun _ isInitial => ⟨.initial isInitial, .initial isInitial, .initial isInitial⟩) ?_
    rintro state event next ⟨registry, slots, invariant⟩ moved
    obtain ⟨keeps, moved⟩ := EventSystem.step_restrict.mp moved
    have move := step_move moved
    exact ⟨registry.step move, slots.step registry keeps.2.1 move,
      invariant.step slots registry keeps move⟩
  obtain ⟨-, -, invariant⟩ := all
  intro _ name participant listed notQueued peerThere
  obtain ⟨slot, occupied⟩ := invariant.placed listed notQueued peerThere
  exact ⟨slot, invariant.low occupied peerThere, occupied⟩

/-- Two clients have joined, and `poll` is about to be called. -/
theorem polls_everyone_sample : ∃ system : System,
    system.phase = .beforePoll ∧ system.fdAt 0 = some 5 ∧ system.fdAt 1 = some 6 ∧
      system.PollsEveryone := by
  obtain ⟨system, run, phase, first, second⟩ :=
    ((masterSystem .plain).restrict KeepsPolled).exists_run_of_steps
      Event.bothTaken
      (fun system => system.phase = .beforePoll ∧ system.fdAt 0 = some 5 ∧
        system.fdAt 1 = some 6)
      System.started_initial (by decide +kernel)
  exact ⟨system, phase, first, second, polls_everyone .plain ⟨_, run⟩⟩

/-- The older of two clients dies: the younger one, in the second slot, is no
longer polled. -/
theorem polls_not_everyone : ∃ system : System,
    ((masterSystem .plain).restrict WithinLimit).Reachable system ∧
      ¬ system.PollsEveryone := by
  obtain ⟨system, run, phase, size, listed, notQueued, socket, open', slot⟩ :=
    ((masterSystem .plain).restrict WithinLimit).exists_run_of_steps
      [.join 5 "a", .proceed, .proceed, .proceed, .popNew (ascii "a"), .proceed,
        .poll .failed, .tick [ascii "a"], .tick [ascii "a"], .join 6 "b", .proceed, .proceed,
        .proceed, .popNew (ascii "b"), .proceed, .poll .failed, .tick [ascii "a", ascii "b"],
        .proceed, .popDead (ascii "a"), .proceed, .proceed, .proceed]
      (fun system => system.phase = .beforePoll ∧ system.master.participantList.size = 1 ∧
        system.master.participantList.lookup (ascii "b") = some 1 ∧
        ascii "b" ∉ system.master.unprocessedNewParticipants ∧
        (system.master.participants 1).socket = 6 ∧ 6 ∉ system.closed ∧
        system.fdAt 0 ≠ some 6)
      System.started_initial (by decide +kernel)
  refine ⟨system, ⟨_, run⟩, fun everyone => ?_⟩
  obtain ⟨index, below, occupied⟩ :=
    everyone phase listed notQueued (by rw [socket]; exact open')
  rw [socket] at occupied
  have isFirst : index = 0 := by omega
  exact slot (isFirst ▸ occupied)

end UBus
