import UBus.Library.Grants
import UBus.Master.Answers
import UBus.Master.Registry
import UBus.Network.Moves

/-!
# Who may publish what

The master grants a topic to the runtime that advertises it, and the runtime
stores the topic when the reply arrives.  Between the two the master already
sends subscribers to a runtime that does not know the topic yet.  The watchdog
takes the topics of a silent runtime back, which the runtime does not notice.

Master and runtimes together are an instance of exclusive grants, and what
they agree on follows from the rules for these.
-/

namespace UBus

open FiniteMap

variable {json : JsonLibrary}

namespace UBusMaster

def owner (master : UBusMaster) (topic : Bytes) : Option (Fd × UInt32) :=
  (master.eventList.lookup topic).map fun announcement =>
    ((master.participants announcement.publisher).socket, announcement.types)

def members (master : UBusMaster) : Set Fd := {fd | fd ∈ master.socketParticipantMapping}

variable {master after : UBusMaster}

theorem owner_congr (events : after.eventList = master.eventList)
    (sockets : ∀ topic announcement, master.eventList.lookup topic = some announcement →
      (after.participants announcement.publisher).socket =
        (master.participants announcement.publisher).socket) : after.owner = master.owner := by
  funext topic
  simp only [owner, events]
  cases found : master.eventList.lookup topic with
  | none => rfl
  | some announcement => simp [sockets topic announcement found]

theorem SameRegistry.owner (same : SameRegistry master after) : after.owner = master.owner := by
  refine owner_congr ?_ fun _ announcement _ => same.socket announcement.publisher
  obtain ⟨participants, dead, rfl⟩ := same.rest
  rfl

theorem SameRegistry.members (same : SameRegistry master after) :
    after.members = master.members := by
  obtain ⟨participants, dead, rfl⟩ := same.rest
  rfl

theorem announce_socket (kind : Kind) (name : Bytes) (types : kind.TypeIds)
    (publisher participant : ParticipantRef) :
    ((master.announce kind name types publisher).participants participant).socket =
      (master.participants participant).socket := by
  obtain ⟨announced, infoEq⟩ := master.announce_participants kind name types publisher participant
  rw [infoEq]

theorem owner_announce_event (topic : Bytes) (type : UInt32) (publisher : ParticipantRef) :
    (master.announce .event topic type publisher).owner =
      Function.update master.owner topic
        (some ((master.participants publisher).socket, type)) := by
  have events : (master.announce .event topic type publisher).eventList =
      master.eventList.insert topic ⟨topic, type, publisher⟩ :=
    announce_announcements_self ..
  have sockets : ∀ participant,
      ((master.announce .event topic type publisher).participants participant).socket =
        (master.participants participant).socket :=
    fun _ => announce_socket ..
  funext other
  simp only [owner, events, lookup_insert, sockets]
  by_cases same : other = topic
  · simp [same]
  · simp [same, owner]

theorem owner_announce_method (name : Bytes) (types : UInt32 × UInt32)
    (publisher : ParticipantRef) :
    (master.announce .method name types publisher).owner = master.owner :=
  owner_congr (announce_announcements_of_ne _ (by simp) ..) fun _ _ _ => announce_socket ..

theorem owner_register {info : UBusParticipantInfo} (consistent : master.RegistryConsistent)
    (allocated : ∀ participant, master.Registered participant → participant < master.allocated) :
    (master.register info).owner = master.owner := by
  refine owner_congr rfl fun topic announcement found => ?_
  have older := allocated _ (@RegistryConsistent.of_announcement _ consistent .event _ _ found).1
  rw [register_participants, if_neg (Nat.ne_of_lt older)]

theorem owner_remove {name : Bytes} {participant : ParticipantRef} (dead : List Bytes)
    (consistent : master.RegistryConsistent)
    (listed : master.participantList.lookup name = some participant) :
    { master.remove name participant with unprocessedDeadParticipants := dead }.owner =
      fun topic => (master.owner topic).filter
        (·.1 ≠ (master.participants participant).socket) := by
  funext topic
  have erased : { master.remove name participant with
      unprocessedDeadParticipants := dead }.eventList.lookup topic =
        if topic ∈ (master.participants participant).announced .event then none
        else master.eventList.lookup topic :=
    lookup_eraseAll _ _ topic
  simp only [owner, erased]
  cases found : master.eventList.lookup topic with
  | none => simp
  | some announcement =>
      obtain ⟨⟨owner, ownerListed⟩, announced⟩ := consistent.of_announcement found
      by_cases same : announcement.publisher = participant
      · have withdrawn : topic ∈ (master.participants participant).announced .event :=
          same ▸ mem_of_lookup announced
        simp [withdrawn, same, Option.filter_some]
      · have kept : topic ∉ (master.participants participant).announced .event := by
          intro withdrawn
          obtain ⟨types, withdrawnEq⟩ := mem_iff.mp withdrawn
          obtain ⟨announcement', found', isPublisher, -⟩ :=
            consistent.announced.mpr ⟨⟨name, listed⟩, withdrawnEq⟩
          obtain rfl := Option.some.inj (found.symm.trans found')
          exact same isPublisher
        have otherSocket : (master.participants announcement.publisher).socket ≠
            (master.participants participant).socket := by
          intro sameSocket
          obtain rfl := consistent.socket_injective ownerListed listed sameSocket
          exact same (Option.some.inj (ownerListed.symm.trans listed))
        simp [kept, remove, otherSocket, Option.filter_some]

def grants (master : UBusMaster) (stored : Fd → Bytes → Option UInt32)
    (pending : Fd → Option (Bytes × UInt32)) : Grants Fd Bytes UInt32 :=
  ⟨master.owner, master.members, stored, pending⟩

section Grants

variable {stored : Fd → Bytes → Option UInt32} {pending : Fd → Option (Bytes × UInt32)}

theorem grants_congr (owner : after.owner = master.owner)
    (members : after.members = master.members) :
    Relation.ReflGen Grants.Step (master.grants stored pending) (after.grants stored pending) := by
  have same : after.grants stored pending = master.grants stored pending := by
    simp only [grants, owner, members]
  rw [same]

theorem grants_admit {fd : Fd} (owner : after.owner = master.owner)
    (members : after.members = Insert.insert fd master.members)
    (fresh : (∀ topic, stored fd topic = none) ∧ pending fd = none) :
    Relation.ReflGen Grants.Step (master.grants stored pending) (after.grants stored pending) := by
  have same : after.grants stored pending =
      { master.grants stored pending with
        members := Insert.insert fd (master.grants stored pending).members } := by
    simp only [grants, owner, members]
  rw [same]
  exact .single (.enrol fresh.1 fresh.2)

theorem grants_expel {fd : Fd}
    (owner : after.owner = fun topic => (master.owner topic).filter (·.1 ≠ fd))
    (members : after.members = master.members \ {fd}) :
    Relation.ReflGen Grants.Step (master.grants stored pending) (after.grants stored pending) := by
  have same : after.grants stored pending =
      { master.grants stored pending with
        owner := fun topic => ((master.grants stored pending).owner topic).filter (·.1 ≠ fd)
        members := (master.grants stored pending).members \ {fd} } := by
    simp only [grants, owner, members]
  rw [same]
  exact .single .expel

end Grants

end UBusMaster

/-- A move of the master that grants no topic enrols or expels a runtime, or
changes nothing. -/
theorem Move.grants {system next : System} {event : Event}
    {stored : Fd → Bytes → Option UInt32} {pending : Fd → Option (Bytes × UInt32)}
    (move : Move json system event next) (registry : system.RegistryInvariant)
    (fresh : ∀ fd ∉ system.accepted, (∀ topic, stored fd topic = none) ∧ pending fd = none)
    (noGrant : ∀ fd frame order reply, event = .control fd frame order reply →
      frame.messageType = FrameType.eventRegister.code → reply ≠ json.reply (response "OK")) :
    Relation.ReflGen Grants.Step (system.master.grants stored pending)
      (next.master.grants stored pending) := by
  cases move with
  | @joined fd peer frame name listeningIp listeningPort isFresh _ _ _ _ =>
      refine UBusMaster.grants_admit (UBusMaster.owner_register registry.consistent
        registry.allocated) ?_ (fresh fd isFresh)
      ext other
      exact Finmap.mem_insert
  | @ticked order =>
      have same := system.master.tick_sameRegistry order
      exact UBusMaster.grants_congr same.owner same.members
  | @removed name later participant _ _ listed =>
      refine UBusMaster.grants_expel
        (UBusMaster.owner_remove later registry.consistent listed) ?_
      ext other
      exact Finmap.mem_erase.trans and_comm
  | @keptAlive slot fd frame order reply participant =>
      have same := system.master.setWatchdog_sameRegistry participant 0
      exact UBusMaster.grants_congr same.owner same.members
  | @announced slot fd frame order kind name types publisher _ isAnnounce _ _ _ =>
      cases kind with
      | event => exact absurd rfl (noGrant _ _ _ _ rfl isAnnounce)
      | method =>
          exact UBusMaster.grants_congr (UBusMaster.owner_announce_method ..) rfl
  | refused | peerClosed | proceeded | placed | dropped | polled | peerGone | skipped
  | answered => exact .refl

theorem announceRequest_reply {kind : Kind} {master master' : UBusMaster} {fd : Fd}
    {content : Bytes} {reply : Option Frame}
    (completed : (announceRequest kind json master fd content).completed =
      some (master', reply)) :
    ∃ answer : SubscribeAnswer, reply = json.reply (response answer.text) := by
  unfold announceRequest at completed
  split at completed
  · simp [Handled.completed] at completed
  · split at completed
    · exact ⟨.invalid, (respond_completed_eq_some completed).2.1⟩
    · split at completed
      · simp [Handled.completed] at completed
      · split at completed
        · exact ⟨.duplicate, (respond_completed_eq_some completed).2.1⟩
        · split at completed
          · simp [Handled.completed] at completed
          · split at completed
            · exact ⟨.ok, (respond_completed_eq_some completed).2.1⟩
            · simp [Handled.completed] at completed

namespace Runtime

variable (runtime : Runtime json)

/-- The topic and the type that the master has granted, while the reply has
not been read. -/
def granted : Option (Bytes × UInt32) :=
  match runtime.calling with
  | .asking (.advertise advertisement) (some (reply, _)) =>
      if saysOk json reply.data then some (advertisement.topic, advertisement.type) else none
  | _ => none

theorem granted_goOn (pubList later : FiniteMap Bytes PubEventInfo) (rest : List Bytes)
    (listening : Option Fd) :
    granted { runtime with
      pubList := later
      calling := runtime.calling.goOn pubList later rest
      listening := listening } = runtime.granted := by
  unfold granted
  cases runtime.calling <;> rfl

def accepts (topic : Bytes) : Option UInt32 :=
  (runtime.pubList.lookup topic).map PubEventInfo.type

end Runtime

namespace Network

variable {network next : Network json}

def stored (network : Network json) (fd : Fd) (topic : Bytes) : Option UInt32 :=
  (network.runtimes.lookup fd).bind fun runtime => runtime.accepts topic

def pending (network : Network json) (fd : Fd) : Option (Bytes × UInt32) :=
  (network.runtimes.lookup fd).bind Runtime.granted

def grants (network : Network json) : Grants Fd Bytes UInt32 :=
  network.master.master.grants network.stored network.pending

theorem publisherOf_eq_some {topic : Bytes} {told : Told} :
    network.publisherOf topic = some told ↔
      network.grants.owner topic = some (told.publisher, told.type) := by
  change network.publisherOf topic = some told ↔
    network.master.master.owner topic = some (told.publisher, told.type)
  constructor
  · intro isTold
    obtain ⟨announcement, found, rfl⟩ := Option.map_eq_some_iff.mp isTold
    exact Option.map_eq_some_iff.mpr ⟨announcement, found, rfl⟩
  · intro isOwner
    obtain ⟨announcement, found, same⟩ := Option.map_eq_some_iff.mp isOwner
    obtain ⟨publisher, type⟩ := told
    obtain ⟨rfl, rfl⟩ := Prod.mk.inj same
    exact Option.map_eq_some_iff.mpr ⟨announcement, found, rfl⟩

theorem stored_setRuntime (fd : Fd) (later : Runtime json) :
    (network.setRuntime fd later).stored = Function.update network.stored fd later.accepts := by
  funext other topic
  by_cases same : other = fd
  · subst same
    simp [stored, lookup_setRuntime]
  · simp [stored, lookup_setRuntime, same]

theorem pending_setRuntime (fd : Fd) (later : Runtime json) :
    (network.setRuntime fd later).pending = Function.update network.pending fd later.granted := by
  funext other
  by_cases same : other = fd
  · subst same
    simp [pending, lookup_setRuntime]
  · simp [pending, lookup_setRuntime, same]

theorem stored_eq {fd : Fd} {runtime : Runtime json}
    (found : network.runtimes.lookup fd = some runtime) : network.stored fd = runtime.accepts := by
  funext topic
  simp [stored, found]

theorem pending_eq {fd : Fd} {runtime : Runtime json}
    (found : network.runtimes.lookup fd = some runtime) : network.pending fd = runtime.granted := by
  simp [pending, found]

theorem same_setRuntime {fd : Fd} {runtime later : Runtime json}
    (found : network.runtimes.lookup fd = some runtime) (accepts : later.accepts = runtime.accepts)
    (granted : later.granted = runtime.granted) :
    (network.setRuntime fd later).stored = network.stored ∧
      (network.setRuntime fd later).pending = network.pending := by
  rw [stored_setRuntime, pending_setRuntime, accepts, granted, ← stored_eq found,
    ← pending_eq found]
  exact ⟨Function.update_eq_self .., Function.update_eq_self ..⟩

theorem grants_setRuntime (fd : Fd) (later : Runtime json) :
    (network.setRuntime fd later).grants =
      { network.grants with
        stored := Function.update network.stored fd later.accepts
        pending := Function.update network.pending fd later.granted } := by
  rw [← stored_setRuntime, ← pending_setRuntime]
  rfl

theorem same_newRuntime {fd : Fd}
    (fresh : (∀ topic, network.stored fd topic = none) ∧ network.pending fd = none) (name : Bytes)
    (port : UInt16) :
    (network.setRuntime fd { name := name, port := port }).stored = network.stored ∧
      (network.setRuntime fd { name := name, port := port }).pending = network.pending := by
  have nothing : ({ name := name, port := port } : Runtime json).accepts = network.stored fd := by
    funext topic
    rw [fresh.1 topic]
    rfl
  have idle : ({ name := name, port := port } : Runtime json).granted = network.pending fd :=
    fresh.2.symm
  rw [stored_setRuntime, pending_setRuntime, nothing, idle]
  exact ⟨Function.update_eq_self .., Function.update_eq_self ..⟩

/-- If the runtimes know what they have known, only the books matter. -/
theorem moves_of_same
    (books : Relation.ReflGen Grants.Step network.grants
      (next.master.master.grants network.stored network.pending))
    (same : next.stored = network.stored ∧ next.pending = network.pending) :
    Relation.ReflGen Grants.Step network.grants next.grants := by
  rw [show next.grants = next.master.master.grants next.stored next.pending from rfl, same.1,
    same.2]
  exact books

theorem Known.fresh (known : network.Known) :
    ∀ fd ∉ network.master.accepted,
      (∀ topic, network.stored fd topic = none) ∧ network.pending fd = none := by
  intro fd notAccepted
  have unknown : network.runtimes.lookup fd = none :=
    notMem_iff.mp fun member => notAccepted (known fd member)
  exact ⟨fun topic => by simp [stored, unknown], by simp [pending, unknown]⟩

theorem moves_receive {fd : Fd} {runtime : Runtime json} {question : Question json}
    {reply : Frame} {told : Option Told} (found : network.runtimes.lookup fd = some runtime)
    (calling : runtime.calling = .asking question (some (reply, told))) :
    Relation.ReflGen Grants.Step network.grants
      (network.setRuntime fd (runtime.receive question reply.data told)).grants := by
  have unchanged {calling : Calling json} (idle : Runtime.granted { runtime with calling } = none)
      (notGranted : runtime.granted = none) :
      Relation.ReflGen Grants.Step network.grants
        (network.setRuntime fd { runtime with calling }).grants :=
    moves_of_same .refl (same_setRuntime found rfl (idle.trans notGranted.symm))
  cases question with
  | advertise advertisement =>
      cases isOk : saysOk json reply.data with
      | true =>
          have granted : runtime.granted = some (advertisement.topic, advertisement.type) := by
            simp [Runtime.granted, calling, isOk]
          have accepts : ({ runtime with
              pubList := runtime.pubList.insert advertisement.topic { type := advertisement.type }
              calling := .idle } : Runtime json).accepts =
                Function.update (network.stored fd) advertisement.topic
                  (some advertisement.type) := by
            funext topic
            by_cases same : topic = advertisement.topic
            · simp [Runtime.accepts, lookup_insert, same]
            · simp [Runtime.accepts, lookup_insert, same, stored_eq found]
          simp only [Runtime.receive, isOk]
          rw [grants_setRuntime, accepts]
          exact .single (.store ((pending_eq found).trans granted))
      | false =>
          simp only [Runtime.receive, isOk]
          exact unchanged rfl (by simp [Runtime.granted, calling, isOk])
  | subscribe subscription =>
      have notGranted : runtime.granted = none := by simp [Runtime.granted, calling]
      cases isOk : saysOk json reply.data with
      | true =>
          simp only [Runtime.receive, isOk]
          cases publisherPort json reply.data with
          | none => exact unchanged rfl notGranted
          | some port => exact unchanged rfl notGranted
      | false =>
          simp only [Runtime.receive, isOk]
          exact unchanged rfl notGranted
  | provideMethod | queryMethod =>
      exact unchanged rfl (by simp [Runtime.granted, calling])

theorem moves_granted {fd : Fd} {runtime : Runtime json} {advertisement : Advertisement json}
    {reply : Frame} {master : System} {publisher : ParticipantRef} (told : Option Told)
    (registry : network.master.RegistryInvariant)
    (found : network.runtimes.lookup fd = some runtime)
    (calling : runtime.calling = .asking (.advertise advertisement) none)
    (isFree : advertisement.topic ∉ network.master.master.announcements .event)
    (mapped : network.master.master.socketParticipantMapping.lookup fd = some (some publisher))
    (entered : master.master = network.master.master.announce .event advertisement.topic
      advertisement.type publisher)
    (said : saysOk json reply.data = true) :
    Relation.ReflGen Grants.Step network.grants
      ({ network with master := master }.setRuntime fd
        { runtime with
          calling := .asking (.advertise advertisement) (some (reply, told)) }).grants := by
  have notGranted : runtime.granted = none := by simp [Runtime.granted, calling]
  obtain ⟨participant, isEntry, socket, -⟩ := registry.consistent.mapped mapped
  obtain rfl := Option.some.inj isEntry
  have granted : ({ runtime with
      calling := .asking (.advertise advertisement) (some (reply, told)) } :
        Runtime json).granted = some (advertisement.topic, advertisement.type) := by
    simp [Runtime.granted, said]
  have free : network.grants.owner advertisement.topic = none :=
    Option.map_eq_none_iff.mpr (notMem_iff.mp isFree)
  have step : network.grants.Step { network.grants with
      owner := Function.update network.grants.owner advertisement.topic
        (some (fd, advertisement.type))
      pending := Function.update network.grants.pending fd
        (some (advertisement.topic, advertisement.type)) } :=
    .grant (mem_of_lookup mapped) free ((pending_eq found).trans notGranted)
  have result : ({ network with master := master }.setRuntime fd { runtime with
      calling := .asking (.advertise advertisement) (some (reply, told)) }).grants =
        { network.grants with
          owner := Function.update network.grants.owner advertisement.topic
            (some (fd, advertisement.type))
          pending := Function.update network.grants.pending fd
            (some (advertisement.topic, advertisement.type)) } := by
    rw [grants_setRuntime, granted]
    apply Grants.ext
    · change master.master.owner = _
      rw [entered, UBusMaster.owner_announce_event, socket]
      rfl
    · change master.master.members = _
      rw [entered]
      rfl
    · change Function.update network.stored fd runtime.accepts = network.stored
      rw [← stored_eq found]
      exact Function.update_eq_self ..
    · rfl
  rw [result]
  exact .single step

theorem moves_serve (roundTrips : json.RoundTrips) {fd : Fd} {runtime : Runtime json}
    {question : Question json} {reply : Frame} {master : System} (told : Option Told)
    (known : network.Known) (registry : network.master.RegistryInvariant)
    (found : network.runtimes.lookup fd = some runtime)
    (calling : runtime.calling = .asking question none)
    (served : network.master.step json (.control fd question.frame [] (some reply)) =
      some master) :
    Relation.ReflGen Grants.Step network.grants
      ({ network with master := master }.setRuntime fd
        { runtime with calling := .asking question (some (reply, told)) }).grants := by
  have notGranted : runtime.granted = none := by simp [Runtime.granted, calling]
  have found' : { network with master := master }.runtimes.lookup fd = some runtime := found
  have noTopic (otherType : question.frame.messageType ≠ FrameType.eventRegister.code)
      (idle : Runtime.granted
        { runtime with calling := .asking question (some (reply, told)) } = none) :
      Relation.ReflGen Grants.Step network.grants
        ({ network with master := master }.setRuntime fd
          { runtime with calling := .asking question (some (reply, told)) }).grants := by
    refine moves_of_same ?_ (same_setRuntime found' rfl (idle.trans notGranted.symm))
    refine Move.grants (UBus.step_move served) registry known.fresh ?_
    rintro _ _ _ _ same isRegister
    cases same
    exact absurd isRegister otherType
  cases question with
  | advertise advertisement =>
      have completed := System.step_control served
      rw [@processFrame_announceType _ .event _ rfl] at completed
      obtain ⟨answer, replyEq⟩ := announceRequest_reply completed
      have isOk : saysOk json reply.data = true ↔ answer = .ok :=
        saysOk_reply roundTrips replyEq.symm
      rcases announceRequest_completed completed with
        ⟨topic, type, publisher, request, isFree, mapped, masterEq, isReply⟩ | ⟨same, notOk⟩
      · obtain ⟨rfl, rfl⟩ := advertisement.isRequest roundTrips request
        have said : saysOk json reply.data = true :=
          (@saysOk_reply _ roundTrips .ok _ isReply.symm).mpr rfl
        exact moves_granted told registry found calling isFree mapped masterEq said
      · have denied : saysOk json reply.data = false := by
          by_contra said
          obtain rfl : answer = .ok := isOk.mp (by simpa using said)
          exact notOk replyEq
        have idle : ({ runtime with
            calling := .asking (.advertise advertisement) (some (reply, told)) } :
              Runtime json).granted = none := by
          simp [Runtime.granted, denied]
        refine moves_of_same ?_ (same_setRuntime found' rfl (idle.trans notGranted.symm))
        change Relation.ReflGen Grants.Step _ (master.master.grants _ _)
        rw [same]
        exact .refl
  | subscribe =>
      have otherType : FrameType.eventSubscribe.code ≠ FrameType.eventRegister.code := by decide
      exact noTopic otherType rfl
  | provideMethod =>
      have otherType : FrameType.methodProvide.code ≠ FrameType.eventRegister.code := by decide
      exact noTopic otherType rfl
  | queryMethod =>
      have otherType : FrameType.methodQuery.code ≠ FrameType.eventRegister.code := by decide
      exact noTopic otherType rfl

/-- The network performs the steps of a grant protocol. -/
theorem Move.moves (roundTrips : json.RoundTrips) {event : NetworkEvent json}
    (move : Move network event next) (known : network.Known)
    (registry : network.master.RegistryInvariant) :
    Relation.ReflGen Grants.Step network.grants next.grants := by
  have noTopic {masterEvent : Event} {master : System}
      (moved : network.master.step json masterEvent = some master)
      (noControl : ∀ fd frame order reply, masterEvent = .control fd frame order reply →
        frame.messageType ≠ FrameType.eventRegister.code) :
      Relation.ReflGen Grants.Step network.grants
        (master.master.grants network.stored network.pending) :=
    Move.grants (UBus.step_move moved) registry known.fresh
      fun fd frame order reply same isRegister => absurd isRegister (noControl _ _ _ _ same)
  have unchanged {fd : Fd} {runtime later : Runtime json} {links : FiniteMap Fd (Link json)}
      (found : network.running fd = some runtime) (accepts : later.accepts = runtime.accepts)
      (granted : later.granted = runtime.granted) :
      Relation.ReflGen Grants.Step network.grants
        ({ network with links := links }.setRuntime fd later).grants :=
    moves_of_same .refl (@same_setRuntime _ { network with links := links } _ _ _
      (running_eq_some.mp found).1 accepts granted)
  cases move with
  | joined accepted isOk =>
      exact moves_of_same (noTopic accepted (by rintro _ _ _ _ ⟨⟩))
        (same_newRuntime (known.fresh _ (accept_fresh accepted).1) ..)
  | rejected accepted => exact noTopic accepted (by rintro _ _ _ _ ⟨⟩)
  | exited found closed =>
      exact moves_of_same (noTopic closed (by rintro _ _ _ _ ⟨⟩))
        (@same_setRuntime _ { network with master := _ } _ _ _ (running_eq_some.mp found).1 rfl rfl)
  | broke found => exact .refl
  | masterMoved internal moved =>
      refine noTopic moved ?_
      rintro _ _ _ _ rfl
      exact absurd internal (by simp [Event.isInternal])
  | served found calling served =>
      exact moves_serve roundTrips _ known registry found calling served
  | keptAlive kept =>
      refine noTopic kept ?_
      rintro _ _ _ _ ⟨⟩
      have otherType : FrameType.keepAlive.code ≠ FrameType.eventRegister.code := by decide
      exact otherType
  | asked found calling isFrom =>
      exact unchanged found rfl (by simp [Runtime.granted, calling])
  | received found calling => exact moves_receive (running_eq_some.mp found).1 calling
  | connected found calling publisherFound fresh =>
      exact unchanged found rfl (by simp [Runtime.granted, calling])
  | refused found calling | lost found calling =>
      exact unchanged found rfl (by simp [Runtime.granted, calling])
  | listened found linkFound publisher unanswered =>
      refine unchanged found ?_ (Runtime.granted_goOn ..)
      funext topic
      exact subscribe_types ..
  | answered found listening linkFound isAnswer => exact unchanged found rfl rfl
  | stored found calling linkFound streamEq isOk =>
      exact unchanged found rfl (by simp [Runtime.granted, calling])
  | denied found calling linkFound streamEq isOk =>
      exact unchanged found rfl (by simp [Runtime.granted, calling])
  | published found calling listed isType =>
      exact unchanged found rfl (by simp [Runtime.granted, calling])
  | sent found visit linkFound =>
      exact unchanged found rfl (by simp [Runtime.granted, (toVisit_eq_some visit).1])
  | missed found visit linkFound notOpen =>
      exact unchanged found rfl (by simp [Runtime.granted, (toVisit_eq_some visit).1])
  | @finished fd runtime round found calling =>
      refine unchanged found ?_ (by simp [Runtime.granted, calling])
      funext topic
      simp only [Runtime.accepts, lookup_modify, Option.map_map]
      congr 1
      funext pubEventInfo
      simp only [Function.comp_apply]
      split_ifs <;> rfl
  | delivered found linkFound streamEq subscriber => exact unchanged found rfl rfl

theorem exclusive_of_reachable (roundTrips : json.RoundTrips)
    (reachable : (networkSystem json).Reachable network) : network.grants.Exclusive := by
  refine reachable.invariant_of_reachable (fun network => network.grants.Exclusive) ?_ ?_
  · intro network initial
    have noOwner (topic : Bytes) : network.grants.owner topic = none := by
      change network.master.master.owner topic = none
      rw [initial.master.master]
      rfl
    have nothing (fd : Fd) (topic : Bytes) : network.grants.stored fd topic = none := by
      simp [grants, UBusMaster.grants, stored, initial.runtimes]
    have idle (fd : Fd) : network.grants.pending fd = none := by
      simp [grants, UBusMaster.grants, pending, initial.runtimes]
    constructor
    · simp [noOwner]
    · simp [Grants.Claims, nothing, idle]
    · simp [idle]
  · intro network event next reachable exclusive moved
    exact exclusive.moves ((step_move moved).moves roundTrips (.of_reachable reachable)
      (.of_reachable (master_reachable reachable)))

/-- Two runtimes that the master knows never publish the same topic. -/
theorem publishers_exclusive (roundTrips : json.RoundTrips)
    (reachable : (networkSystem json).Reachable network) {first second : Fd}
    {runtime runtime' : Runtime json} (found : network.running first = some runtime)
    (found' : network.running second = some runtime')
    (registered : first ∈ network.master.master.socketParticipantMapping)
    (registered' : second ∈ network.master.master.socketParticipantMapping)
    (different : first ≠ second) (topic : Bytes) :
    ¬ (topic ∈ runtime.pubList ∧ topic ∈ runtime'.pubList) := by
  have claims {fd : Fd} {runtime : Runtime json} (found : network.running fd = some runtime)
      (listed : topic ∈ runtime.pubList) : ∃ type, network.grants.Claims fd topic type := by
    obtain ⟨pubEventInfo, isListed⟩ := mem_iff.mp listed
    refine ⟨pubEventInfo.type, Or.inl ?_⟩
    change network.stored fd topic = _
    rw [stored_eq (running_eq_some.mp found).1, Runtime.accepts, isListed]
    rfl
  rintro ⟨listed, listed'⟩
  obtain ⟨type, isClaim⟩ := claims found listed
  obtain ⟨type', isClaim'⟩ := claims found' listed'
  exact different
    ((exclusive_of_reachable roundTrips reachable).unique registered registered' isClaim isClaim')

end Network

/-- While a subscriber connects to its publisher, it cannot publish the topic
itself. -/
theorem publishers_exclusive_sample : ∃ network : Network JsonLibrary.plain,
    ∃ runtime ∈ network.running 5, ∃ runtime' ∈ network.running 6,
      ascii "t" ∈ runtime.pubList ∧ ascii "t" ∉ runtime'.pubList := by
  obtain ⟨network, run, ⟨runtime, found, listed⟩, ⟨runtime', found', -⟩, registered,
      registered'⟩ := (networkSystem JsonLibrary.plain).exists_run_of_steps subscribing
      (fun network => (∃ runtime ∈ network.running 5, ascii "t" ∈ runtime.pubList) ∧
        (∃ runtime ∈ network.running 6, runtime.name = ascii "b") ∧
        5 ∈ network.master.master.socketParticipantMapping ∧
        6 ∈ network.master.master.socketParticipantMapping)
      Network.started_initial (by decide +kernel)
  have exclusive := Network.publishers_exclusive JsonLibrary.plain_roundTrips ⟨_, run⟩ found found'
    registered registered' (by decide) (ascii "t")
  exact ⟨network, runtime, found, runtime', found', listed, fun listed' =>
    exclusive ⟨listed, listed'⟩⟩

theorem Network.steps_master {events : List Event} (internal : ∀ event ∈ events, event.isInternal)
    (network : Network json) :
    (networkSystem json).steps network (events.map .master) =
      ((masterSystem json).steps network.master events).map fun master =>
        { network with master := master } := by
  induction events generalizing network with
  | nil => rfl
  | cons event events ih =>
      have isInternal := internal event (by simp)
      have moved : (networkSystem json).step network (.master event) =
          ((masterSystem json).step network.master event).map fun master =>
            { network with master := master } :=
        if_pos isInternal
      rw [List.map_cons, EventSystem.steps, EventSystem.steps, moved]
      cases (masterSystem json).step network.master event with
      | none => rfl
      | some master =>
          exact ih (fun other member => internal other (by simp [member]))
            { network with master := master }

/-- The rest of a scan that finds nothing more, up to the next drain. -/
theorem Network.steps_scan {network : Network json} {slot count : Nat}
    (phase : network.master.phase = .scanning slot)
    (length : network.master.pollFdList.length = slot + count)
    (nothing : ∀ pollFd ∈ network.master.pollFdList.drop slot, pollFd.readable = false) :
    (networkSystem json).steps network (List.replicate (count + 1) (.master .proceed)) =
      some { network with master := { network.master with phase := .passStart } } := by
  have internal : ∀ event ∈ List.replicate (count + 1) Event.proceed, event.isInternal := by
    intro event member
    rw [List.eq_of_mem_replicate member]
    rfl
  rw [← List.map_replicate, Network.steps_master internal,
    System.steps_scan_end phase length nothing]
  rfl

namespace Network

def pollReady (network : Network json) (sockets : List Fd) : Network json :=
  { network with master := network.master.pollReady sockets }

theorem step_pollReady {network : Network json} (phase : network.master.phase = .beforePoll)
    (sockets : List Fd) :
    (networkSystem json).step network (.master (.poll (.ready sockets))) =
      some (network.pollReady sockets) := by
  have polled : network.master.step json (.poll (.ready sockets)) =
      some (network.master.pollReady sockets) :=
    @System.step_pollReady json network.master phase sockets
  simp [networkSystem, step, Event.isInternal, polled, pollReady]

theorem steps_pollReady {network : Network json} (phase : network.master.phase = .beforePoll)
    (sockets : List Fd) :
    (networkSystem json).steps network [.master (.poll (.ready sockets))] =
      some (network.pollReady sockets) := by
  rw [EventSystem.steps, step_pollReady phase]
  rfl

end Network

/-- Publisher "a" joins on socket 5 and asks for its topic. -/
def asked : Network JsonLibrary.plain :=
  (networkSystem JsonLibrary.plain).after .started [
    .joins 5 "a" 4000, .master .proceed, .master .proceed, .master .proceed,
    .master (.popNew (ascii "a")), .master .proceed, .ask 5 (.advertise sampleAdvertisement)]

def silent : Network JsonLibrary.plain :=
  (networkSystem JsonLibrary.plain).after (asked.pollReady [5]) [
    .serve 5 okReply, .readAnswer 5,
    .master (.tick [ascii "a"]), .master (.tick [ascii "a"]), .master (.tick [ascii "a"])]

def scanned : Network JsonLibrary.plain :=
  { silent with master := { silent.master with phase := .passStart } }

/-- The master has removed "a", which goes on, and "b" has joined on socket 6
and asks for the same topic. -/
def replaced : Network JsonLibrary.plain :=
  (networkSystem JsonLibrary.plain).after scanned [
    .master .proceed, .master (.popDead (ascii "a")), .master .proceed,
    .joins 6 "b" 4001, .master .proceed, .master (.popNew (ascii "b")), .master .proceed,
    .ask 6 (.advertise sampleAdvertisement)]

theorem replaced_reachable : (networkSystem JsonLibrary.plain).Reachable replaced := by
  have run : (networkSystem JsonLibrary.plain).Run _ asked :=
    EventSystem.run_of_steps Network.started_initial (EventSystem.steps_after (by decide +kernel))
  have run : (networkSystem JsonLibrary.plain).Run _ (asked.pollReady [5]) :=
    run.step (Network.step_pollReady (by decide +kernel) [5])
  have run : (networkSystem JsonLibrary.plain).Run _ silent :=
    run.extend (EventSystem.steps_after (by decide +kernel))
  have run : (networkSystem JsonLibrary.plain).Run _ scanned :=
    run.extend (@Network.steps_scan _ _ 1 1023 (by decide +kernel) (by decide +kernel)
      (by decide +kernel))
  have run : (networkSystem JsonLibrary.plain).Run _ replaced :=
    run.extend (EventSystem.steps_after (by decide +kernel))
  exact ⟨_, run⟩

/-- Two running runtimes publish the same topic. -/
theorem publishers_not_exclusive : ∃ network : Network JsonLibrary.plain,
    (networkSystem JsonLibrary.plain).Reachable network ∧
      ∃ runtime ∈ network.running 5, ∃ runtime' ∈ network.running 6,
        ascii "t" ∈ runtime.pubList ∧ ascii "t" ∈ runtime'.pubList := by
  obtain ⟨_, run⟩ := replaced_reachable
  have polled := run.step (Network.step_pollReady (by decide +kernel) [6])
  obtain ⟨network, run, publish⟩ := polled.exists_extend [.serve 6 okReply, .readAnswer 6]
    (fun network => ∃ runtime ∈ network.running 5, ∃ runtime' ∈ network.running 6,
      ascii "t" ∈ runtime.pubList ∧ ascii "t" ∈ runtime'.pubList) (by decide +kernel)
  exact ⟨network, ⟨_, run⟩, publish⟩

end UBus
