import UBus.Master.Moves

/-!
# The maps of the registry agree

Names, sockets and announcements are entered and removed by different threads
in different maps.  In every reachable state the maps describe the same
registrations.
-/

namespace UBus

open FiniteMap

namespace UBusMaster

def Registered (master : UBusMaster) (participant : ParticipantRef) : Prop :=
  ∃ name, master.participantList.lookup name = some participant

theorem registered_register {master : UBusMaster} {info : UBusParticipantInfo}
    (fresh : info.name ∉ master.participantList) (participant : ParticipantRef) :
    (master.register info).Registered participant ↔
      participant = master.allocated ∨ master.Registered participant := by
  have listEq : ∀ name, (master.register info).participantList.lookup name =
      if name = info.name then some master.allocated else master.participantList.lookup name :=
    fun name => lookup_insert _ _ name _
  constructor
  · rintro ⟨name, listed⟩
    rw [listEq] at listed
    split_ifs at listed with isNew
    · exact Or.inl (Option.some.inj listed).symm
    · exact Or.inr ⟨name, listed⟩
  · rintro (rfl | ⟨name, listed⟩)
    · exact ⟨info.name, by rw [listEq, if_pos rfl]⟩
    · have older : name ≠ info.name := by
        rintro rfl
        exact fresh (mem_of_lookup listed)
      exact ⟨name, by rw [listEq, if_neg older, listed]⟩

/-- The maps of the registry are views of the same registrations. -/
structure RegistryConsistent (master : UBusMaster) : Prop where
  listed : ∀ {name participant}, master.participantList.lookup name = some participant →
    (master.participants participant).name = name ∧
      master.socketParticipantMapping.lookup (master.participants participant).socket =
        some (some participant)
  mapped : ∀ {fd entry}, master.socketParticipantMapping.lookup fd = some entry →
    ∃ participant, entry = some participant ∧ (master.participants participant).socket = fd ∧
      master.participantList.lookup (master.participants participant).name = some participant
  announced : ∀ {kind name types participant},
    (∃ announcement, (master.announcements kind).lookup name = some announcement ∧
        announcement.publisher = participant ∧ announcement.types = types) ↔
      master.Registered participant ∧
        ((master.participants participant).announced kind).lookup name = some types

namespace RegistryConsistent

variable {master : UBusMaster} (consistent : master.RegistryConsistent)

include consistent

theorem registered_iff {participant : ParticipantRef} : master.Registered participant ↔
    master.participantList.lookup (master.participants participant).name = some participant := by
  constructor
  · rintro ⟨name, listed⟩
    rw [(consistent.listed listed).1]
    exact listed
  · exact fun listed => ⟨_, listed⟩

theorem name_unique {name other : Bytes} {participant : ParticipantRef}
    (listed : master.participantList.lookup name = some participant)
    (listedOther : master.participantList.lookup other = some participant) : name = other :=
  (consistent.listed listed).1.symm.trans (consistent.listed listedOther).1

theorem socket_injective {name other : Bytes} {participant participant' : ParticipantRef}
    (listed : master.participantList.lookup name = some participant)
    (listed' : master.participantList.lookup other = some participant')
    (sameSocket : (master.participants participant).socket =
      (master.participants participant').socket) : name = other := by
  have mapped := (consistent.listed listed).2
  rw [sameSocket, (consistent.listed listed').2] at mapped
  obtain rfl : participant' = participant := by simpa using mapped
  exact consistent.name_unique listed listed'

theorem of_announcement {kind : Kind} {name : Bytes} {announcement : Announcement kind}
    (found : (master.announcements kind).lookup name = some announcement) :
    master.Registered announcement.publisher ∧
      ((master.participants announcement.publisher).announced kind).lookup name =
        some announcement.types :=
  consistent.announced.mp ⟨announcement, found, rfl, rfl⟩

theorem sameRegistry {after : UBusMaster} (same : SameRegistry master after) :
    after.RegistryConsistent := by
  obtain ⟨participants, dead, rfl⟩ := same.rest
  have info : ∀ participant, ∃ counter, participants participant =
      { master.participants participant with watchdogCounter := counter } := same.participants
  constructor
  · intro name participant listed
    obtain ⟨counter, infoEq⟩ := info participant
    simpa [infoEq] using consistent.listed listed
  · intro fd entry mapped
    obtain ⟨participant, isEntry, socket, listed⟩ := consistent.mapped mapped
    obtain ⟨counter, infoEq⟩ := info participant
    exact ⟨participant, isEntry, by simpa [infoEq] using socket, by simpa [infoEq] using listed⟩
  · intro kind name types participant
    obtain ⟨counter, infoEq⟩ := info participant
    have before := @announced master consistent kind name types participant
    simpa [infoEq, Registered] using before

theorem setQueues (new dead : List Bytes) :
    { master with
      unprocessedNewParticipants := new
      unprocessedDeadParticipants := dead }.RegistryConsistent :=
  ⟨consistent.listed, consistent.mapped, consistent.announced⟩

theorem register {info : UBusParticipantInfo}
    (allocated : ∀ participant, master.Registered participant → participant < master.allocated)
    (freshName : info.name ∉ master.participantList)
    (freshSocket : info.socket ∉ master.socketParticipantMapping)
    (nothingYet : ∀ kind, info.announced kind = ∅) :
    (master.register info).RegistryConsistent := by
  have listEq : ∀ name, (master.register info).participantList.lookup name =
      if name = info.name then some master.allocated else master.participantList.lookup name :=
    fun name => lookup_insert _ _ name _
  have mappingEq : ∀ fd, (master.register info).socketParticipantMapping.lookup fd =
      if fd = info.socket then some (some master.allocated)
      else master.socketParticipantMapping.lookup fd :=
    fun fd => lookup_insert _ _ fd _
  have newInfo : (master.register info).participants master.allocated = info :=
    Function.update_self ..
  have oldInfo : ∀ {participant}, master.Registered participant →
      (master.register info).participants participant = master.participants participant :=
    fun registered => Function.update_of_ne (Nat.ne_of_lt (allocated _ registered)) ..
  constructor
  · intro name participant listed
    rw [listEq] at listed
    split_ifs at listed with isNew
    · obtain rfl := Option.some.inj listed
      rw [newInfo, mappingEq, if_pos rfl]
      exact ⟨isNew.symm, rfl⟩
    · obtain ⟨nameEq, mapped⟩ := consistent.listed listed
      have older : (master.participants participant).socket ≠ info.socket := by
        intro same
        exact freshSocket (same ▸ mem_of_lookup mapped)
      rw [oldInfo ⟨name, listed⟩, mappingEq, if_neg older]
      exact ⟨nameEq, mapped⟩
  · intro fd entry mapped
    rw [mappingEq] at mapped
    split_ifs at mapped with isNew
    · refine ⟨master.allocated, (Option.some.inj mapped).symm, ?_, ?_⟩
      · rw [newInfo, isNew]
      · rw [newInfo, listEq, if_pos rfl]
    · obtain ⟨participant, isEntry, socket, listed⟩ := consistent.mapped mapped
      have older : (master.participants participant).name ≠ info.name := by
        intro same
        exact freshName (same ▸ mem_of_lookup listed)
      refine ⟨participant, isEntry, ?_, ?_⟩
      · rw [oldInfo ⟨_, listed⟩, socket]
      · rw [oldInfo ⟨_, listed⟩, listEq, if_neg older, listed]
  · intro kind name types participant
    change (∃ announcement, (master.announcements kind).lookup name = some announcement ∧ _) ↔ _
    rw [registered_register freshName]
    constructor
    · intro found
      obtain ⟨registered, announcedHere⟩ := consistent.announced.mp found
      rw [oldInfo registered]
      exact ⟨Or.inr registered, announcedHere⟩
    · rintro ⟨rfl | registered, announcedHere⟩
      · rw [newInfo, nothingYet] at announcedHere
        simp at announcedHere
      · rw [oldInfo registered] at announcedHere
        exact consistent.announced.mpr ⟨registered, announcedHere⟩

theorem announce {kind : Kind} {name : Bytes} {types : kind.TypeIds} {publisher : ParticipantRef}
    (fresh : name ∉ master.announcements kind) (registered : master.Registered publisher) :
    (master.announce kind name types publisher).RegistryConsistent := by
  constructor
  · intro name' participant listed
    obtain ⟨announced, infoEq⟩ := master.announce_participants kind name types publisher participant
    rw [infoEq]
    exact consistent.listed listed
  · intro fd entry mapped
    obtain ⟨participant, isEntry, socket, listed⟩ := consistent.mapped mapped
    obtain ⟨announced, infoEq⟩ := master.announce_participants kind name types publisher participant
    exact ⟨participant, isEntry, by rw [infoEq]; exact socket, by rw [infoEq]; exact listed⟩
  · intro kind' name' types' participant
    change _ ↔ master.Registered participant ∧ _
    by_cases sameKind : kind' = kind
    · subst sameKind
      rw [announce_announcements_self]
      by_cases sameName : name' = name
      · subst sameName
        rw [lookup_insert, if_pos rfl]
        -- before, nobody announced the name
        have unannounced : ∀ {participant types}, master.Registered participant →
            ((master.participants participant).announced kind').lookup name' ≠ some types := by
          intro participant types isRegistered already
          obtain ⟨announcement, found, -⟩ := consistent.announced.mpr ⟨isRegistered, already⟩
          exact fresh (mem_of_lookup found)
        constructor
        · rintro ⟨announcement, isNew, rfl, rfl⟩
          obtain rfl := Option.some.inj isNew
          rw [announce_announced_self, lookup_insert, if_pos rfl]
          exact ⟨registered, rfl⟩
        · rintro ⟨isRegistered, announcedHere⟩
          by_cases samePublisher : participant = publisher
          · subst samePublisher
            rw [announce_announced_self, lookup_insert, if_pos rfl] at announcedHere
            exact ⟨_, rfl, rfl, Option.some.inj announcedHere⟩
          · rw [master.announce_announced_of_ne (Or.inl samePublisher)] at announcedHere
            exact absurd announcedHere (unannounced isRegistered)
      · rw [lookup_insert, if_neg sameName]
        by_cases samePublisher : participant = publisher
        · subst samePublisher
          rw [announce_announced_self, lookup_insert, if_neg sameName]
          exact consistent.announced
        · rw [master.announce_announced_of_ne (Or.inl samePublisher)]
          exact consistent.announced
    · rw [master.announce_announcements_of_ne sameKind,
        master.announce_announced_of_ne (Or.inr sameKind)]
      exact consistent.announced

/-- Removing a participant takes back exactly what it entered. -/
theorem remove {name : Bytes} {participant : ParticipantRef}
    (listed : master.participantList.lookup name = some participant) :
    (master.remove name participant).RegistryConsistent := by
  have listEq : ∀ other, (master.remove name participant).participantList.lookup other =
      if other = name then none else master.participantList.lookup other :=
    fun other => lookup_erase _ _ other
  have mappingEq : ∀ fd, (master.remove name participant).socketParticipantMapping.lookup fd =
      if fd = (master.participants participant).socket then none
      else master.socketParticipantMapping.lookup fd :=
    fun fd => lookup_erase _ _ fd
  have announcementsEq : ∀ kind topic,
      ((master.remove name participant).announcements kind).lookup topic =
        if topic ∈ (master.participants participant).announced kind then none
        else (master.announcements kind).lookup topic :=
    fun kind topic => lookup_eraseAll _ _ topic
  have registeredIff : ∀ other, (master.remove name participant).Registered other ↔
      other ≠ participant ∧ master.Registered other := by
    intro other
    constructor
    · rintro ⟨otherName, listedOther⟩
      rw [listEq] at listedOther
      split_ifs at listedOther with isName
      refine ⟨?_, otherName, listedOther⟩
      rintro rfl
      exact isName (consistent.name_unique listedOther listed)
    · rintro ⟨different, otherName, listedOther⟩
      have notName : otherName ≠ name := by
        rintro rfl
        exact different (Option.some.inj (listedOther.symm.trans listed))
      exact ⟨otherName, by rw [listEq, if_neg notName, listedOther]⟩
  constructor
  · intro other participant' listed'
    rw [listEq] at listed'
    split_ifs at listed' with isName
    obtain ⟨nameEq, mapped⟩ := consistent.listed listed'
    have otherSocket : (master.participants participant').socket ≠
        (master.participants participant).socket :=
      fun same => isName (consistent.socket_injective listed' listed same)
    change (master.participants participant').name = other ∧ _
    rw [mappingEq]
    exact ⟨nameEq, (if_neg otherSocket).trans mapped⟩
  · intro fd entry mapped
    rw [mappingEq] at mapped
    split_ifs at mapped with isSocket
    obtain ⟨participant', isEntry, socket, listed'⟩ := consistent.mapped mapped
    have notName : (master.participants participant').name ≠ name := by
      rintro rfl
      obtain rfl := Option.some.inj (listed'.symm.trans listed)
      exact isSocket socket.symm
    exact ⟨participant', isEntry, socket, by rw [listEq]; exact (if_neg notName).trans listed'⟩
  · intro kind topic types other
    rw [registeredIff, announcementsEq]
    change _ ↔ _ ∧ ((master.participants other).announced kind).lookup topic = some types
    constructor
    · rintro ⟨announcement, found, rfl, rfl⟩
      split_ifs at found with withdrawn
      obtain ⟨registered, announcedHere⟩ := consistent.of_announcement found
      refine ⟨⟨?_, registered⟩, announcedHere⟩
      intro same
      exact withdrawn (same ▸ mem_of_lookup announcedHere)
    · rintro ⟨⟨different, registered⟩, announcedHere⟩
      obtain ⟨announcement, found, isPublisher, typesEq⟩ :=
        consistent.announced.mpr ⟨registered, announcedHere⟩
      have kept : topic ∉ (master.participants participant).announced kind := by
        intro withdrawn
        obtain ⟨types', withdrawnEq⟩ := mem_iff.mp withdrawn
        obtain ⟨announcement', found', isPublisher', -⟩ :=
          consistent.announced.mpr ⟨⟨name, listed⟩, withdrawnEq⟩
        obtain rfl := Option.some.inj (found.symm.trans found')
        exact different (isPublisher.symm.trans isPublisher')
      exact ⟨announcement, by rw [if_neg kept, found], isPublisher, typesEq⟩

end RegistryConsistent

end UBusMaster

/-- The registry agrees with itself, objects and sockets are not reused. -/
structure System.RegistryInvariant (system : System) : Prop where
  consistent : system.master.RegistryConsistent
  allocated : ∀ participant, system.master.Registered participant →
    participant < system.master.allocated
  accepted : ∀ fd, fd ∈ system.master.socketParticipantMapping → fd ∈ system.accepted

namespace System.RegistryInvariant

variable {json : JsonLibrary} {system next : System} {event : Event}

theorem initial (isInitial : system.Initial) : system.RegistryInvariant := by
  obtain ⟨emptyMaster, -, -, -, -, -⟩ := isInitial
  constructor
  · rw [emptyMaster]
    constructor
    · intro name participant listed
      simp at listed
    · intro fd entry mapped
      simp at mapped
    · intro kind name types participant
      simp [UBusMaster.Registered]
  · rw [emptyMaster]
    rintro participant ⟨name, listed⟩
    simp at listed
  · rw [emptyMaster]
    intro fd mapped
    simp [mem_iff] at mapped

theorem setMaster {master : UBusMaster} (invariant : system.RegistryInvariant)
    (same : UBusMaster.SameRegistry system.master master)
    (masterEq : next.master = master) (acceptedEq : next.accepted = system.accepted) :
    next.RegistryInvariant := by
  have consistent := invariant.consistent.sameRegistry same
  obtain ⟨participants, dead, rfl⟩ := same.rest
  constructor
  · rw [masterEq]
    exact consistent
  · rw [masterEq]
    exact invariant.allocated
  · rw [masterEq, acceptedEq]
    exact invariant.accepted

theorem step (invariant : system.RegistryInvariant) (move : Move json system event next) :
    next.RegistryInvariant := by
  have ⟨consistent, allocated, accepted⟩ := invariant
  cases move with
  | @joined fd peer frame name listeningIp listeningPort freshFd _ _ _ freshName =>
      refine ⟨consistent.register allocated freshName (fun mapped => freshFd (accepted fd mapped))
        fun _ => rfl, ?_, ?_⟩
      · intro participant registered
        rcases (UBusMaster.registered_register freshName participant).mp registered with rfl | older
        · exact Nat.lt_succ_self _
        · exact Nat.lt_succ_of_lt (allocated participant older)
      · intro other mapped
        obtain ⟨entry, found⟩ := mem_iff.mp mapped
        change (FiniteMap.insert _ _ _).lookup other = _ at found
        rw [lookup_insert] at found
        split_ifs at found with isNew
        · exact isNew ▸ List.mem_cons_self
        · exact List.mem_cons_of_mem _ (accepted other (mem_of_lookup found))
  | refused _ _ =>
      exact ⟨consistent, allocated, fun other mapped =>
        List.mem_cons_of_mem _ (accepted other mapped)⟩
  | @ticked order _ _ => exact invariant.setMaster (system.master.tick_sameRegistry order) rfl rfl
  | peerClosed => exact ⟨consistent, allocated, accepted⟩
  | proceeded _ => exact ⟨consistent, allocated, accepted⟩
  | @removed name later participant _ _ listed =>
      refine ⟨(consistent.remove listed).setQueues _ _, ?_, ?_⟩
      · rintro other ⟨otherName, listedOther⟩
        change (FiniteMap.erase _ _).lookup otherName = _ at listedOther
        rw [lookup_erase] at listedOther
        split_ifs at listedOther
        exact allocated other ⟨otherName, listedOther⟩
      · intro fd mapped
        obtain ⟨entry, found⟩ := mem_iff.mp mapped
        change (FiniteMap.erase _ _).lookup fd = _ at found
        rw [lookup_erase] at found
        split_ifs at found
        exact accepted fd (mem_of_lookup found)
  | placed _ _ _ _ => exact ⟨consistent.setQueues _ _, allocated, accepted⟩
  | dropped _ _ _ => exact ⟨consistent.setQueues _ _, allocated, accepted⟩
  | polled _ _ _ _ => exact ⟨consistent, allocated, accepted⟩
  | peerGone _ _ => exact ⟨consistent, allocated, accepted⟩
  | skipped _ => exact ⟨consistent, allocated, accepted⟩
  | @keptAlive slot fd frame order reply participant _ _ _ =>
      exact invariant.setMaster (system.master.setWatchdog_sameRegistry participant 0) rfl rfl
  | announced _ _ _ fresh mapped =>
      obtain ⟨publisher, isEntry, -, listed⟩ := consistent.mapped mapped
      obtain rfl := Option.some.inj isEntry
      exact ⟨consistent.announce fresh ⟨_, listed⟩, allocated, accepted⟩
  | answered _ _ => exact ⟨consistent, allocated, accepted⟩

theorem of_reachable (reachable : (masterSystem json).Reachable system) :
    system.RegistryInvariant :=
  reachable.invariant System.RegistryInvariant (fun _ => initial)
    fun _ _ _ invariant moved => invariant.step (step_move moved)

end System.RegistryInvariant

def UBusMaster.NamedAsListed (master : UBusMaster) : Prop :=
  ∀ kind name announcement, (master.announcements kind).lookup name = some announcement →
    announcement.name = name

namespace UBusMaster.NamedAsListed

variable {json : JsonLibrary} {system next : System} {event : Event}

theorem step (named : system.master.NamedAsListed) (move : Move json system event next) :
    next.master.NamedAsListed := by
  intro kind name announcement found
  cases move with
  | joined _ _ _ _ _ => exact named _ _ _ found
  | refused _ _ => exact named _ _ _ found
  | @ticked order _ _ =>
      obtain ⟨participants, dead, masterEq⟩ := (system.master.tick_sameRegistry order).rest
      change ((system.master.tick order).announcements kind).lookup name = _ at found
      rw [masterEq] at found
      exact named _ _ _ found
  | peerClosed => exact named _ _ _ found
  | proceeded _ => exact named _ _ _ found
  | removed _ _ _ =>
      replace found := (lookup_eraseAll _ _ _).symm.trans found
      split_ifs at found
      exact named _ _ _ found
  | placed _ _ _ _ => exact named _ _ _ found
  | dropped _ _ _ => exact named _ _ _ found
  | polled _ _ _ _ => exact named _ _ _ found
  | peerGone _ _ => exact named _ _ _ found
  | skipped _ => exact named _ _ _ found
  | keptAlive _ _ _ => exact named _ _ _ found
  | @announced _ _ _ _ announcedKind topic types publisher _ _ _ _ _ =>
      change ((system.master.announce announcedKind topic types publisher).announcements
        kind).lookup name = some announcement at found
      by_cases sameKind : kind = announcedKind
      · subst sameKind
        rw [announce_announcements_self, lookup_insert] at found
        split_ifs at found with isNew
        · obtain rfl := Option.some.inj found
          exact isNew.symm
        · exact named _ _ _ found
      · rw [announce_announcements_of_ne _ sameKind] at found
        exact named _ _ _ found
  | answered _ _ => exact named _ _ _ found

theorem of_reachable (reachable : (masterSystem json).Reachable system) :
    system.master.NamedAsListed := by
  refine reachable.invariant (fun state => state.master.NamedAsListed) (fun state isInitial => ?_)
    fun _ _ _ named moved => named.step (step_move moved)
  intro kind name announcement found
  rw [isInitial.master] at found
  cases kind <;> simp at found

end UBusMaster.NamedAsListed

/-- In every reachable state the maps of the registry agree. -/
theorem registry_consistent (json : JsonLibrary) {system : System}
    (reachable : (masterSystem json).Reachable system) : system.master.RegistryConsistent :=
  (System.RegistryInvariant.of_reachable reachable).consistent

def System.joined : System :=
  (masterSystem .plain).after .started Event.bothTaken

def System.announced : System :=
  (masterSystem .plain).after (System.joined.pollReady [5, 6]) [
    .request 5 .eventRegister (advertising "t"), .request 6 .methodProvide (providing "m")]

theorem System.announced_run : ∃ history, (masterSystem .plain).Run history System.announced := by
  have run : (masterSystem .plain).Run _ System.joined :=
    EventSystem.run_of_steps System.started_initial (EventSystem.steps_after (by decide +kernel))
  have run : (masterSystem .plain).Run _ (System.joined.pollReady [5, 6]) :=
    run.step (System.step_pollReady (by decide +kernel) [5, 6])
  exact ⟨_, run.extend (EventSystem.steps_after (by decide +kernel))⟩

/-- The registry of the two, and what is left of it when the first has been
removed. -/
theorem registry_consistent_sample : ∃ (history later : List Event) (before after : System),
    (masterSystem .plain).Run history before ∧ (masterSystem .plain).Run (history ++ later) after ∧
      (before.master.eventList.lookup (ascii "t")).map Announcement.publisher = some 0 ∧
      (before.master.methodList.lookup (ascii "m")).map Announcement.publisher = some 1 ∧
      before.master.RegistryConsistent ∧
      (ascii "a" ∉ after.master.participantList ∧ 5 ∉ after.master.socketParticipantMapping ∧
        ascii "t" ∉ after.master.eventList ∧ ascii "m" ∈ after.master.methodList) ∧
      after.master.RegistryConsistent := by
  obtain ⟨history, run⟩ := System.announced_run
  have scanned := run.extend (@System.steps_scan_end .plain System.announced 2 1022
    (by decide +kernel) (by decide +kernel) (by decide +kernel))
  obtain ⟨after, later, removed⟩ := scanned.exists_extend
    [.tick [ascii "a", ascii "b"], .tick [ascii "a", ascii "b"], .tick [ascii "a", ascii "b"],
      .proceed, .popDead (ascii "a")]
    (fun system => ascii "a" ∉ system.master.participantList ∧
      5 ∉ system.master.socketParticipantMapping ∧ ascii "t" ∉ system.master.eventList ∧
        ascii "m" ∈ system.master.methodList) (by decide +kernel)
  rw [List.append_assoc] at later
  exact ⟨history, _, System.announced, after, run, later, by decide +kernel, by decide +kernel,
    registry_consistent .plain ⟨_, run⟩, removed, registry_consistent .plain ⟨_, later⟩⟩

end UBus
