import UBus.Master.Texts

/-!
# The name service

What the master is for, told from the outside: a registration is a handshake
that was answered OK, it owns the topics and methods it has announced, and it
ends when its name is removed.  The answers of the master are those of this
name service, whatever the interleaving of clients, ticks and drains.
-/

namespace UBus

open FiniteMap

structure Registration where
  fd : Fd
  name : Bytes
  listeningIp : Bytes
  listeningPort : UInt32

section Specification

variable (json : JsonLibrary)

def Event.Joins (registration : Registration) (event : Event) : Prop :=
  ∃ peer frame,
    event = .accept registration.fd peer frame (json.reply (response "OK")) ∧
      frame.messageType = FrameType.initiation.code ∧
      IsJoining json frame.data registration.name registration.listeningIp
        registration.listeningPort

/-- A `FRAME_EVENT_REGISTER` or `FRAME_METHOD_PROVIDE` answered OK. -/
def Event.Announces (kind : Kind) (topic : Bytes) (fd : Fd) (event : Event) : Prop :=
  ∃ frame order types,
    event = .control fd frame order (json.reply (response "OK")) ∧
      frame.messageType = kind.announceType.code ∧
      IsRequest json kind frame.data topic types

def Event.Removes (registration : Registration) (event : Event) : Prop :=
  event = .popDead registration.name

/-- The registration has not been removed since its handshake. -/
def Live (registration : Registration) : List Event → Prop :=
  Since (fun _ => Event.Joins json registration) (Event.Removes registration)

/-- The registration announced the topic and has not been removed since. -/
def Owns (kind : Kind) (topic : Bytes) (registration : Registration) : List Event → Prop :=
  Since (fun earlier event => Live json registration earlier ∧
    event.Announces json kind topic registration.fd) (Event.Removes registration)

def AnsweredOk (kind : Kind) (reply : Option Frame) : Prop :=
  reply ≠ none ∧ ∃ ip port name, reply = json.reply (kind.whereabouts ip port name)

/-- After a history, the master answers like the name service. -/
structure NameService (history : List Event) (system : System) : Prop where
  /-- A well-formed look-up is answered, and so is an announcement by a live
  registration, when it is the turn of their socket. -/
  answered : ∀ {slot fd frame kind topic types},
    system.current = some (slot, fd) →
    IsRequest json kind frame.data topic types →
    (frame.messageType = (Kind.lookupType kind).code ∨
      frame.messageType = (Kind.announceType kind).code ∧
        ∃ registration, registration.fd = fd ∧ Live json registration history) →
      ∀ order, ∃ reply next, system.step json (.control fd frame order (some reply)) = some next
  /-- Looking up a topic is answered OK exactly if the topic is owned, and
  NOT_PUBLISHED otherwise. -/
  lookup : ∀ {fd frame order reply next kind topic types},
    system.step json (.control fd frame order reply) = some next →
    frame.messageType = (Kind.lookupType kind).code →
    IsRequest json kind frame.data topic types →
      (AnsweredOk json kind reply ↔ ∃ registration, Owns json kind topic registration history) ∧
        (reply = json.reply (response "NOT_PUBLISHED") ↔
          ¬ ∃ registration, Owns json kind topic registration history)
  /-- The reply gives the whereabouts of the owner. -/
  whereabouts : ∀ {fd frame order reply next kind topic types registration},
    system.step json (.control fd frame order reply) = some next →
    frame.messageType = (Kind.lookupType kind).code →
    IsRequest json kind frame.data topic types →
    Owns json kind topic registration history →
    registration.listeningPort.toNat < 2 ^ 31 →
      reply = json.reply (kind.whereabouts registration.listeningIp
        (Int64.ofNat registration.listeningPort.toNat) registration.name)
  /-- Announcing a topic is answered DUPLICATE exactly if the topic is owned,
  and OK otherwise. -/
  announce : ∀ {fd frame order reply next kind topic types},
    system.step json (.control fd frame order reply) = some next →
    frame.messageType = (Kind.announceType kind).code →
    IsRequest json kind frame.data topic types →
      (reply = json.reply (response "DUPLICATE") ↔
          ∃ registration, Owns json kind topic registration history) ∧
        (reply = json.reply (response "OK") ↔
          ¬ ∃ registration, Owns json kind topic registration history)
  /-- Between two announcements of a topic answered OK, the first owner is
  removed. -/
  separated : ∀ {before first middle second after kind topic fd fd'},
    history = before ++ first :: (middle ++ second :: after) →
    first.Announces json kind topic fd → second.Announces json kind topic fd' →
      ∃ registration, registration.fd = fd ∧ Live json registration before ∧
        ∃ event ∈ middle, event.Removes registration
  /-- Removing a participant changes no answer about the topic of another
  registration. -/
  removal : ∀ {name next kind topic types registration content},
    system.step json (.popDead name) = some next →
    Owns json kind topic registration history → registration.name ≠ name →
    IsRequest json kind content topic types →
      (lookupRequest kind json next.master content).answer =
          (lookupRequest kind json system.master content).answer ∧
        ∀ fd, (announceRequest kind json next.master fd content).answer =
          (announceRequest kind json system.master fd content).answer

end Specification

def UBusParticipantInfo.registration (info : UBusParticipantInfo) : Registration where
  fd := info.socket
  name := info.name
  listeningIp := info.listeningIp
  listeningPort := info.listeningPort

/-- A port below 2^31 survives the detour through an `int32_t`. -/
theorem toInt64_toInt32 {port : UInt32} (small : port.toNat < 2 ^ 31) :
    port.toInt32.toInt64 = Int64.ofNat port.toNat := by
  have asNat : port.toInt32 = Int32.ofNat port.toNat := by
    rw [← UInt32.toInt32_ofNat', UInt32.ofNat_toNat]
  apply Int64.toInt_inj.mp
  rw [Int32.toInt_toInt64, asNat, Int32.toInt_ofNat_of_lt small,
    Int64.toInt_ofNat_of_lt (by omega)]

structure SameService (before after : UBusMaster) : Prop where
  registration : ∀ participant, (after.participants participant).registration =
    (before.participants participant).registration
  participantList : after.participantList = before.participantList
  announcements : after.announcements = before.announcements

theorem SameService.of_sameRegistry {before after : UBusMaster}
    (same : UBusMaster.SameRegistry before after) : SameService before after := by
  obtain ⟨participants, dead, afterEq⟩ := same.rest
  refine ⟨fun participant => ?_, by rw [afterEq], by rw [afterEq]⟩
  obtain ⟨counter, infoEq⟩ := same.participants participant
  rw [infoEq]
  rfl

def Event.Silent : Event → Prop
  | .accept .. | .popDead _ | .control .. => False
  | _ => True

/-- The live registrations are the registered participants, and the owners of
topics are the publishers of the announcements. -/
structure Described (json : JsonLibrary) (history : List Event) (system : System) : Prop where
  live : ∀ registration, Live json registration history ↔ ∃ participant,
    system.master.Registered participant ∧
      (system.master.participants participant).registration = registration
  owned : ∀ kind topic registration, Owns json kind topic registration history ↔
    ∃ announcement, (system.master.announcements kind).lookup topic = some announcement ∧
      (system.master.participants announcement.publisher).registration = registration

namespace Described

variable {json : JsonLibrary} {history : List Event} {system next : System} {event : Event}

theorem initial (isInitial : system.Initial) : Described json [] system := by
  obtain ⟨emptyMaster, -, -, -, -, -⟩ := isInitial
  constructor
  · intro registration
    simp [Live, Since.not_nil, emptyMaster, UBusMaster.Registered]
  · intro kind topic registration
    simp [Owns, Since.not_nil, emptyMaster]

theorem quiet (described : Described json history system)
    (noJoin : ∀ registration, ¬ event.Joins json registration)
    (noAnnounce : ∀ kind topic fd, ¬ event.Announces json kind topic fd)
    (noRemoval : ∀ registration, ¬ event.Removes registration)
    (same : SameService system.master next.master) :
    Described json (history ++ [event]) next := by
  constructor
  · intro registration
    rw [Live, Since.snoc]
    simp only [noJoin, noRemoval, false_or, not_false_eq_true, and_true, same.registration,
      UBusMaster.Registered, same.participantList]
    exact described.live registration
  · intro kind topic registration
    rw [Owns, Since.snoc]
    simp only [noAnnounce, noRemoval, and_false, false_or, not_false_eq_true, and_true,
      same.registration, same.announcements]
    exact described.owned kind topic registration

theorem silent (described : Described json history system) (isSilent : event.Silent)
    (same : SameService system.master next.master) :
    Described json (history ++ [event]) next := by
  refine described.quiet ?_ ?_ ?_ same
  · rintro registration ⟨peer, frame, rfl, -⟩
    exact isSilent
  · rintro kind topic fd ⟨frame, order, types, rfl, -⟩
    exact isSilent
  · rintro registration rfl
    exact isSilent

theorem control {fd : Fd} {frame : Frame} {order : List Bytes} {reply : Option Frame}
    (described : Described json history system)
    (noAnnounce : ∀ kind, frame.messageType = (Kind.announceType kind).code →
      reply ≠ json.reply (response "OK"))
    (same : SameService system.master next.master) :
    Described json (history ++ [.control fd frame order reply]) next := by
  refine described.quiet ?_ ?_ ?_ same
  · rintro registration ⟨peer, frame, isAccept, -⟩
    simp at isAccept
  · rintro kind topic fd' ⟨frame', order', types, isControl, isAnnounce, -⟩
    obtain ⟨rfl, rfl, rfl, rfl⟩ := Event.control.inj isControl
    exact noAnnounce kind isAnnounce rfl
  · intro registration isRemoval
    simp [Event.Removes] at isRemoval

theorem joined {fd : Fd} {peer : SocketAddress} {frame : Frame} {name ip : Bytes} {port : UInt32}
    (described : Described json history system) (registry : system.RegistryInvariant)
    (isInitiation : frame.messageType = FrameType.initiation.code)
    (joining : IsJoining json frame.data name ip port)
    (fresh : name ∉ system.master.participantList)
    (masterEq : next.master = system.master.register (joiningInfo peer fd name ip port)) :
    Described json (history ++ [.accept fd peer frame (json.reply (response "OK"))]) next := by
  have joins : ∀ registration, (Event.accept fd peer frame (json.reply (response "OK"))).Joins json
      registration ↔ ⟨fd, name, ip, port⟩ = registration := by
    intro registration
    constructor
    · rintro ⟨peer', frame', isAccept, -, joining'⟩
      obtain ⟨rfl, rfl, rfl, -⟩ := Event.accept.inj isAccept
      obtain ⟨rfl, rfl, rfl⟩ := joining.unique joining'
      rfl
    · rintro rfl
      exact ⟨peer, frame, rfl, isInitiation, joining⟩
  have noAnnounce : ∀ kind topic fd', ¬ (Event.accept fd peer frame
      (json.reply (response "OK"))).Announces json kind topic fd' := by
    rintro kind topic fd' ⟨frame', order, types, isControl, -⟩
    simp at isControl
  have noRemoval : ∀ registration, ¬ (Event.accept fd peer frame
      (json.reply (response "OK"))).Removes registration := by
    intro registration isRemoval
    simp [Event.Removes] at isRemoval
  have newRegistration :
      (next.master.participants system.master.allocated).registration = ⟨fd, name, ip, port⟩ := by
    rw [masterEq, UBusMaster.register_participants, if_pos rfl]
    rfl
  have oldRegistration : ∀ {participant}, system.master.Registered participant →
      (next.master.participants participant).registration =
        (system.master.participants participant).registration := by
    intro participant registered
    have older := Nat.ne_of_lt (registry.allocated participant registered)
    rw [masterEq, UBusMaster.register_participants, if_neg older]
  constructor
  · intro registration
    have registeredIff : ∀ participant, next.master.Registered participant ↔
        participant = system.master.allocated ∨ system.master.Registered participant := by
      rw [masterEq]
      exact UBusMaster.registered_register fresh
    rw [Live, Since.snoc, joins, ← Live, described.live]
    simp only [noRemoval, not_false_eq_true, and_true, registeredIff]
    constructor
    · rintro (isNew | ⟨participant, registered, isRegistration⟩)
      · exact ⟨_, Or.inl rfl, newRegistration.trans isNew⟩
      · exact ⟨participant, Or.inr registered,
          (oldRegistration registered).trans isRegistration⟩
    · rintro ⟨participant, rfl | registered, isRegistration⟩
      · exact Or.inl (newRegistration.symm.trans isRegistration)
      · exact Or.inr ⟨participant, registered,
          (oldRegistration registered).symm.trans isRegistration⟩
  · intro kind topic registration
    rw [Owns, Since.snoc, ← Owns, described.owned]
    simp only [noAnnounce, noRemoval, and_false, false_or, not_false_eq_true, and_true]
    have sameAnnouncements : next.master.announcements = system.master.announcements := by
      rw [masterEq]
      rfl
    rw [sameAnnouncements]
    refine exists_congr fun announcement => and_congr_right fun found => ?_
    rw [oldRegistration (registry.consistent.of_announcement found).1]

theorem removed {name : Bytes} {participant : ParticipantRef}
    (described : Described json history system) (registry : system.RegistryInvariant)
    (listed : system.master.participantList.lookup name = some participant) {dead : List Bytes}
    (masterEq : next.master = { system.master.remove name participant with
      unprocessedDeadParticipants := dead }) :
    Described json (history ++ [.popDead name]) next := by
  have consistent := registry.consistent
  have removes : ∀ registration : Registration,
      (Event.popDead name).Removes registration ↔ name = registration.name := by
    intro registration
    simp [Event.Removes]
  have sameInfo : next.master.participants = system.master.participants := by
    rw [masterEq]
    rfl
  constructor
  · intro registration
    have noJoin : ¬ (Event.popDead name).Joins json registration := by
      rintro ⟨peer, frame, isAccept, -⟩
      simp at isAccept
    rw [Live, Since.snoc, ← Live, described.live, removes, sameInfo]
    simp only [noJoin, false_or]
    constructor
    · rintro ⟨⟨participant', ⟨other, listed'⟩, rfl⟩, different⟩
      refine ⟨participant', ⟨other, ?_⟩, rfl⟩
      have isOther : other ≠ name := by
        rintro rfl
        exact different (consistent.listed listed').1.symm
      rw [masterEq]
      exact (lookup_erase _ _ _).trans ((if_neg isOther).trans listed')
    · rintro ⟨participant', ⟨other, listed'⟩, rfl⟩
      rw [masterEq] at listed'
      replace listed' := (lookup_erase _ _ _).symm.trans listed'
      split_ifs at listed' with isName
      refine ⟨⟨participant', ⟨other, listed'⟩, rfl⟩, ?_⟩
      intro same
      exact isName ((consistent.listed listed').1.symm.trans same.symm)
  · intro kind topic registration
    have noAnnounce : ∀ fd, ¬ (Event.popDead name).Announces json kind topic fd := by
      rintro fd ⟨frame, order, types, isControl, -⟩
      simp at isControl
    have announcementsEq : (next.master.announcements kind).lookup topic =
        if topic ∈ (system.master.participants participant).announced kind then none
        else (system.master.announcements kind).lookup topic := by
      rw [masterEq]
      exact lookup_eraseAll _ _ topic
    rw [Owns, Since.snoc, ← Owns, described.owned, removes, sameInfo, announcementsEq]
    simp only [noAnnounce, and_false, false_or]
    constructor
    · rintro ⟨⟨announcement, found, rfl⟩, different⟩
      refine ⟨announcement, ?_, rfl⟩
      rw [if_neg ?_, found]
      intro withdrawn
      obtain ⟨types, withdrawnEq⟩ := mem_iff.mp withdrawn
      obtain ⟨announcement', found', isPublisher, -⟩ :=
        consistent.announced.mpr ⟨⟨name, listed⟩, withdrawnEq⟩
      obtain rfl := Option.some.inj (found.symm.trans found')
      rw [isPublisher] at different
      exact different (consistent.listed listed).1.symm
    · rintro ⟨announcement, found, rfl⟩
      split_ifs at found with withdrawn
      refine ⟨⟨announcement, found, rfl⟩, ?_⟩
      intro same
      obtain ⟨registered, announcedHere⟩ := consistent.of_announcement found
      have listed' := (consistent.registered_iff).mp registered
      change name = (system.master.participants announcement.publisher).name at same
      rw [← same] at listed'
      obtain rfl := Option.some.inj (listed.symm.trans listed')
      exact withdrawn (mem_of_lookup announcedHere)

theorem announced {fd : Fd} {frame : Frame} {order : List Bytes} {kind : Kind} {name : Bytes}
    {types : kind.TypeIds} {publisher : ParticipantRef}
    (described : Described json history system) (registry : system.RegistryInvariant)
    (isAnnounce : frame.messageType = kind.announceType.code)
    (request : IsRequest json kind frame.data name types)
    (fresh : name ∉ system.master.announcements kind)
    (mapped : system.master.socketParticipantMapping.lookup fd = some (some publisher))
    (masterEq : next.master = system.master.announce kind name types publisher) :
    Described json (history ++ [.control fd frame order (json.reply (response "OK"))]) next := by
  have consistent := registry.consistent
  have noJoin : ∀ registration, ¬ (Event.control fd frame order
      (json.reply (response "OK"))).Joins json registration := by
    rintro registration ⟨peer, frame', isAccept, -⟩
    simp at isAccept
  have noRemoval : ∀ registration, ¬ (Event.control fd frame order
      (json.reply (response "OK"))).Removes registration := by
    intro registration isRemoval
    simp [Event.Removes] at isRemoval
  have announces : ∀ kind' topic fd', (Event.control fd frame order
      (json.reply (response "OK"))).Announces json kind' topic fd' ↔
        kind' = kind ∧ topic = name ∧ fd' = fd := by
    intro kind' topic fd'
    constructor
    · rintro ⟨frame', order', types', isControl, isAnnounce', request'⟩
      obtain ⟨rfl, rfl, -, -⟩ := Event.control.inj isControl
      have sameKind := Kind.announceType_injective (isAnnounce'.symm.trans isAnnounce)
      exact ⟨sameKind, request.unique request' sameKind, rfl⟩
    · rintro ⟨rfl, rfl, rfl⟩
      exact ⟨frame, order, types, rfl, isAnnounce, request⟩
  have sameRegistration : ∀ participant, (next.master.participants participant).registration =
      (system.master.participants participant).registration := by
    intro participant
    obtain ⟨lists, infoEq⟩ :=
      system.master.announce_participants kind name types publisher participant
    rw [masterEq, infoEq]
    rfl
  -- the socket of the frame determines the registration
  have owner : ∀ registration, Live json registration history ∧ registration.fd = fd ↔
      (system.master.participants publisher).registration = registration := by
    intro registration
    obtain ⟨publisher', isEntry, socket, listed⟩ := consistent.mapped mapped
    obtain rfl := Option.some.inj isEntry
    rw [described.live]
    constructor
    · rintro ⟨⟨participant, ⟨other, listed'⟩, rfl⟩, sameFd⟩
      have mapped' := (consistent.listed listed').2
      change (system.master.participants participant).socket = fd at sameFd
      rw [sameFd, mapped] at mapped'
      obtain rfl : publisher = participant := by simpa using mapped'
      rfl
    · rintro rfl
      exact ⟨⟨publisher, ⟨_, listed⟩, rfl⟩, socket⟩
  constructor
  · intro registration
    rw [Live, Since.snoc, ← Live, described.live]
    simp only [noJoin, noRemoval, false_or, not_false_eq_true, and_true, sameRegistration]
    rw [masterEq]
    rfl
  · intro kind' topic registration
    rw [Owns, Since.snoc, ← Owns, described.owned]
    simp only [announces, noRemoval, not_false_eq_true, and_true, sameRegistration]
    rw [masterEq]
    by_cases sameKind : kind' = kind
    · subst sameKind
      rw [UBusMaster.announce_announcements_self, lookup_insert]
      by_cases sameName : topic = name
      · subst sameName
        have unowned : (system.master.announcements kind').lookup topic = none :=
          notMem_iff.mp fresh
        simpa [unowned] using owner registration
      · simp [sameName]
    · rw [UBusMaster.announce_announcements_of_ne _ sameKind]
      simp [sameKind]

theorem step (described : Described json history system) (registry : system.RegistryInvariant)
    (move : Move json system event next) : Described json (history ++ [event]) next := by
  have unchanged : SameService system.master system.master := ⟨fun _ => rfl, rfl, rfl⟩
  cases move with
  | joined _ _ isInitiation joining fresh =>
      exact described.joined registry isInitiation joining fresh rfl
  | @refused fd peer frame reply _ notOk =>
      refine described.quiet ?_ ?_ ?_ unchanged
      · rintro registration ⟨peer', frame', isAccept, -⟩
        exact notOk (Event.accept.inj isAccept).2.2.2
      · rintro kind topic fd' ⟨frame', order, types, isControl, -⟩
        simp at isControl
      · intro registration isRemoval
        simp [Event.Removes] at isRemoval
  | @ticked order _ _ =>
      exact described.silent trivial (.of_sameRegistry (system.master.tick_sameRegistry order))
  | peerClosed => exact described.silent trivial unchanged
  | proceeded _ => exact described.silent trivial unchanged
  | removed _ _ listed => exact described.removed registry listed rfl
  | placed _ _ _ _ => exact described.silent trivial ⟨fun _ => rfl, rfl, rfl⟩
  | dropped _ _ _ => exact described.silent trivial ⟨fun _ => rfl, rfl, rfl⟩
  | polled _ _ _ _ => exact described.silent trivial unchanged
  | peerGone _ _ => exact described.silent trivial unchanged
  | skipped _ => exact described.silent trivial unchanged
  | @keptAlive _ _ frame _ _ participant _ isKeepAlive _ =>
      refine described.control (fun kind isAnnounce => ?_)
        (.of_sameRegistry (system.master.setWatchdog_sameRegistry participant 0))
      rw [isKeepAlive] at isAnnounce
      cases kind <;> exact absurd isAnnounce (by decide)
  | announced _ isAnnounce request fresh mapped =>
      exact described.announced registry isAnnounce request fresh mapped rfl
  | answered _ noAnnounce => exact described.control noAnnounce unchanged

theorem of_run (run : (masterSystem json).Run history system) :
    system.RegistryInvariant ∧ Described json history system := by
  induction run with
  | initial isInitial => exact ⟨.initial isInitial, initial isInitial⟩
  | step _ moved ih =>
      have move := step_move moved
      exact ⟨ih.1.step move, ih.2.step ih.1 move⟩

theorem exists_owner_iff (described : Described json history system) (kind : Kind)
    (topic : Bytes) : (∃ registration, Owns json kind topic registration history) ↔
      topic ∈ system.master.announcements kind := by
  simp only [described.owned, mem_iff]
  constructor
  · rintro ⟨registration, announcement, found, -⟩
    exact ⟨announcement, found⟩
  · rintro ⟨announcement, found⟩
    exact ⟨_, announcement, found, rfl⟩

end Described

section Answers

variable {json : JsonLibrary} {history : List Event} {system next : System} {kind : Kind}
  {topic : Bytes} {types : kind.TypeIds} {fd : Fd} {frame : Frame} {order : List Bytes}
  {reply : Option Frame}

/-- A well-formed look-up is answered, as all that it may have to write is
UTF-8. -/
theorem lookup_completed {content : Bytes} (valid : system.master.TextsValid)
    (request : IsRequest json kind content topic types) :
    ∃ reply, (lookupRequest kind json system.master content).completed =
      some (system.master, some reply) := by
  rw [lookupRequest_of_isRequest request]
  cases found : (system.master.announcements kind).lookup topic with
  | none =>
      obtain ⟨reply, replyEq⟩ := reply_response_isSome json "NOT_PUBLISHED" (by decide)
      exact ⟨reply, by simp [respond_completed, replyEq]⟩
  | some announcement =>
      obtain ⟨reply, replyEq⟩ := valid.found_isSome json kind announcement.publisher
      exact ⟨reply, by simp [respond_completed, replyEq]⟩

theorem announce_completed {content : Bytes} {publisher : ParticipantRef}
    (request : IsRequest json kind content topic types)
    (mapped : system.master.socketParticipantMapping.lookup fd = some (some publisher)) :
    ∃ master reply, (announceRequest kind json system.master fd content).completed =
      some (master, some reply) := by
  rw [announceRequest_of_isRequest request, mapped]
  split_ifs
  · obtain ⟨reply, replyEq⟩ := reply_response_isSome json "DUPLICATE" (by decide)
    exact ⟨system.master, reply, by simp [respond_completed, replyEq]⟩
  · obtain ⟨reply, replyEq⟩ := reply_response_isSome json "OK" (by decide)
    exact ⟨_, reply, by rw [respond_completed, replyEq, Option.map_some]⟩

theorem lookup_reply (moved : system.step json (.control fd frame order reply) = some next)
    (isLookup : frame.messageType = kind.lookupType.code)
    (request : IsRequest json kind frame.data topic types) :
    reply ≠ none ∧ reply = json.reply
      (match (system.master.announcements kind).lookup topic with
        | none => response "NOT_PUBLISHED"
        | some announcement => kind.found (system.master.participants announcement.publisher)) := by
  have completed := System.step_control moved
  rw [processFrame_lookupType isLookup, lookupRequest_of_isRequest request] at completed
  cases found : (system.master.announcements kind).lookup topic with
  | none =>
      rw [found] at completed
      obtain ⟨-, replyEq, answered⟩ := respond_completed_eq_some completed
      exact ⟨answered, replyEq⟩
  | some announcement =>
      rw [found] at completed
      obtain ⟨-, replyEq, answered⟩ := respond_completed_eq_some completed
      exact ⟨answered, replyEq⟩

theorem announce_reply (moved : system.step json (.control fd frame order reply) = some next)
    (isAnnounce : frame.messageType = kind.announceType.code)
    (request : IsRequest json kind frame.data topic types) :
    reply = json.reply (if topic ∈ system.master.announcements kind then response "DUPLICATE"
      else response "OK") := by
  have completed := System.step_control moved
  rw [processFrame_announceType isAnnounce, announceRequest_of_isRequest request] at completed
  split_ifs at completed ⊢ with taken
  · exact (respond_completed_eq_some completed).2.1
  · split at completed
    · exact (respond_completed_eq_some completed).2.1
    · simp [Handled.completed] at completed

/-- An announcement answered OK comes from a live registration and is about a
topic that nobody owned. -/
theorem announces_cases {event : Event} (described : Described json history system)
    (registry : system.RegistryInvariant) (moved : system.step json event = some next)
    (announces : event.Announces json kind topic fd) :
    topic ∉ system.master.announcements kind ∧
      ∃ registration, registration.fd = fd ∧ Live json registration history := by
  obtain ⟨frame, order, types, rfl, isAnnounce, request⟩ := announces
  have completed := System.step_control moved
  rw [processFrame_announceType isAnnounce, announceRequest_of_isRequest request] at completed
  split_ifs at completed with taken
  · exact absurd (respond_completed_eq_some completed).2.1 (reply_response_ne json).1
  · refine ⟨taken, ?_⟩
    split at completed
    · rename_i publisher mapped
      obtain ⟨publisher', isEntry, socket, listed⟩ := registry.consistent.mapped mapped
      exact ⟨_, socket, (described.live _).mpr ⟨publisher', ⟨_, listed⟩, rfl⟩⟩
    · simp [Handled.completed] at completed

/-- Between two announcements of a topic answered OK, the first owner is
removed. -/
theorem owner_removed {before middle after : List Event} {first second : Event} {fd' : Fd}
    (run : (masterSystem json).Run (before ++ first :: (middle ++ second :: after)) system)
    (firstOk : first.Announces json kind topic fd)
    (secondOk : second.Announces json kind topic fd') :
    ∃ registration, registration.fd = fd ∧ Live json registration before ∧
      ∃ event ∈ middle, event.Removes registration := by
  obtain ⟨earlier, _, earlierRun, firstMoved⟩ := run.split
  obtain ⟨registry, described⟩ := Described.of_run earlierRun
  obtain ⟨-, registration, sameFd, live⟩ := announces_cases described registry firstMoved firstOk
  have regrouped : before ++ first :: (middle ++ second :: after) =
      (before ++ first :: middle) ++ second :: after := by
    simp
  obtain ⟨later, _, laterRun, secondMoved⟩ := (regrouped ▸ run).split
  obtain ⟨registry', described'⟩ := Described.of_run laterRun
  obtain ⟨unowned, -⟩ := announces_cases described' registry' secondMoved secondOk
  refine ⟨registration, sameFd, live, ?_⟩
  by_contra kept
  push Not at kept
  have owns : Owns json kind topic registration (before ++ first :: middle) :=
    ⟨before, first, middle, rfl, ⟨live, sameFd ▸ firstOk⟩, kept⟩
  exact unowned ((described'.exists_owner_iff kind topic).mp ⟨registration, owns⟩)

namespace Described

variable {registration : Registration} {content : Bytes}

theorem lookup_answer (described : Described json history system)
    (owns : Owns json kind topic registration history)
    (request : IsRequest json kind content topic types) :
    (lookupRequest kind json system.master content).answer =
      json.reply (kind.whereabouts registration.listeningIp
        registration.listeningPort.toInt32.toInt64 registration.name) := by
  obtain ⟨announcement, found, rfl⟩ := (described.owned kind topic registration).mp owns
  rw [lookupRequest_of_isRequest request, found]
  change (respond json system.master (kind.found _)).answer = _
  rw [answer_respond, Kind.found_eq]
  rfl

theorem announce_answer (described : Described json history system)
    (owns : Owns json kind topic registration history)
    (request : IsRequest json kind content topic types) (fd : Fd) :
    (announceRequest kind json system.master fd content).answer =
      json.reply (response "DUPLICATE") := by
  have taken := (described.exists_owner_iff kind topic).mp ⟨registration, owns⟩
  rw [announceRequest_of_isRequest request, if_pos taken, answer_respond]

end Described

end Answers

/-- After every run of a master that has not terminated, its answers are those
of the name service. -/
theorem name_service (json : JsonLibrary) {history : List Event} {system : System}
    (run : (masterSystem json).Run history system) : NameService json history system := by
  obtain ⟨registry, described⟩ := Described.of_run run
  constructor
  · intro slot fd frame kind topic types isCurrent request isSent order
    have valid := UBusMaster.TextsValid.of_reachable ⟨history, run⟩
    rcases isSent with isLookup | ⟨isAnnounce, registration, rfl, live⟩
    · have notDebug : frame.messageType ≠ FrameType.debug.code := by
        rw [isLookup]
        cases kind <;> decide
      obtain ⟨reply, completed⟩ := lookup_completed valid request
      rw [← processFrame_lookupType isLookup system.master order fd] at completed
      exact ⟨reply, System.step_of_completed isCurrent notDebug completed⟩
    · have notDebug : frame.messageType ≠ FrameType.debug.code := by
        rw [isAnnounce]
        cases kind <;> decide
      obtain ⟨participant, ⟨name, listed⟩, rfl⟩ := (described.live registration).mp live
      have mapped := (registry.consistent.listed listed).2
      obtain ⟨master, reply, completed⟩ := announce_completed request mapped
      rw [← processFrame_announceType isAnnounce system.master order] at completed
      exact ⟨reply, System.step_of_completed isCurrent notDebug completed⟩
  · intro fd frame order reply next kind topic types moved isLookup request
    obtain ⟨answered, replyEq⟩ := lookup_reply moved isLookup request
    have bareText : (replyFrame .unknown
        (ascii "\x7b\"response\":\"NOT_PUBLISHED\"\x7d")).data[2]? = some 114 := by decide
    rw [described.exists_owner_iff]
    cases found : (system.master.announcements kind).lookup topic with
    | none =>
        rw [found] at replyEq
        have absent := notMem_iff.mpr found
        refine ⟨iff_of_false ?_ absent, iff_of_true replyEq absent⟩
        rintro ⟨-, ip, port, name, replyEq'⟩
        exact reply_whereabouts_ne json kind ip port name bareText
          (replyEq'.symm.trans replyEq)
    | some announcement =>
        rw [found] at replyEq
        change reply = json.reply (kind.found _) at replyEq
        rw [Kind.found_eq] at replyEq
        have present := mem_of_lookup found
        refine ⟨iff_of_true ⟨answered, _, _, _, replyEq⟩ present,
          iff_of_false ?_ (not_not.mpr present)⟩
        intro replyEq'
        exact reply_whereabouts_ne json kind _ _ _ bareText (replyEq.symm.trans replyEq')
  · intro fd frame order reply next kind topic types registration moved isLookup request owns small
    obtain ⟨-, replyEq⟩ := lookup_reply moved isLookup request
    obtain ⟨announcement, found, rfl⟩ := (described.owned kind topic registration).mp owns
    rw [found] at replyEq
    change reply = json.reply (kind.found _) at replyEq
    change (system.master.participants announcement.publisher).listeningPort.toNat < _ at small
    rw [Kind.found_eq, toInt64_toInt32 small] at replyEq
    exact replyEq
  · intro fd frame order reply next kind topic types moved isAnnounce request
    have replyEq := announce_reply moved isAnnounce request
    have notDuplicate := (reply_response_ne json).1
    rw [described.exists_owner_iff]
    split_ifs at replyEq with taken
    · exact ⟨iff_of_true replyEq taken,
        iff_of_false (fun isOk => notDuplicate (isOk.symm.trans replyEq)) (not_not.mpr taken)⟩
    · exact ⟨iff_of_false (fun isDuplicate => notDuplicate (replyEq.symm.trans isDuplicate)) taken,
        iff_of_true replyEq taken⟩
  · intro before first middle second after kind topic fd fd' historyEq firstOk secondOk
    exact owner_removed (historyEq ▸ run) firstOk secondOk
  · intro name next kind topic types registration content moved owns different request
    have extended : (masterSystem json).Run (history ++ [.popDead name]) next := .step run moved
    obtain ⟨-, describedNext⟩ := Described.of_run extended
    have keeps : ¬ (Event.popDead name).Removes registration := by
      intro removes
      exact different (Event.popDead.inj removes).symm
    have ownsNext : Owns json kind topic registration (history ++ [.popDead name]) :=
      Since.snoc.mpr (Or.inr ⟨owns, keeps⟩)
    refine ⟨(describedNext.lookup_answer ownsNext request).trans
      (described.lookup_answer owns request).symm, fun fd => ?_⟩
    exact (describedNext.announce_answer ownsNext request fd).trans
      (described.announce_answer owns request fd).symm

/-- Two clients have joined, one of which has advertised a topic that the other
looks up. -/
theorem name_service_sample : ∃ history system next registration,
    system.step .plain (.control 6 ⟨FrameType.eventSubscribe.code, requestText (advertising "t")⟩ []
      (JsonLibrary.plain.reply (Kind.event.whereabouts (ascii "127.0.0.1") 4000 (ascii "a")))) =
        some next ∧
      Owns .plain .event (ascii "t") registration history ∧
      NameService .plain history system := by
  obtain ⟨system, run, answered, replied⟩ := (masterSystem .plain).exists_run_of_steps
    (Event.bothTaken ++ [.poll (.ready [5, 6]), .request 5 .eventRegister (advertising "t")])
    (fun system => (system.step .plain (.control 6
        ⟨FrameType.eventSubscribe.code, requestText (advertising "t")⟩ []
        (JsonLibrary.plain.reply
          (Kind.event.whereabouts (ascii "127.0.0.1") 4000 (ascii "a"))))).isSome ∧
      JsonLibrary.plain.reply
        (Kind.event.whereabouts (ascii "127.0.0.1") 4000 (ascii "a")) ≠ none)
    System.started_initial (by decide +kernel)
  have service := name_service .plain run
  obtain ⟨next, moved⟩ := Option.isSome_iff_exists.mp answered
  have request : IsRequest .plain .event (requestText (advertising "t")) (ascii "t")
      (11 : UInt32) :=
    ⟨advertising "t", rfl, rfl, rfl, rfl⟩
  obtain ⟨registration, owns⟩ := (service.lookup moved rfl request).1.mp ⟨replied, _, _, _, rfl⟩
  exact ⟨_, system, next, registration, moved, owns, service⟩

end UBus
