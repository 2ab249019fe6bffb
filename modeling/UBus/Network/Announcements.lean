import UBus.Network.Grants

/-!
# What subscribers are told

The master's reply to a subscription names the publisher of the topic.  When
the subscription arrives there, the publisher may still be on its way from the
master's grant to its own table, and then it answers INVALID.  There is no
other way to that answer for a subscription with the type of the topic.
-/

namespace UBus

open FiniteMap

variable {json : JsonLibrary}

/-- The topic a call is about, and what the master has said of it. -/
def Calling.told : Calling json → Option (Bytes × Told)
  | .asking (.subscribe subscription) (some (_, some told)) => some (subscription.topic, told)
  | .connecting subscription _ (some told) => some (subscription.topic, told)
  | _ => none

theorem Calling.goOn_told (calling : Calling json) (pubList later : FiniteMap Bytes PubEventInfo)
    (rest : List Bytes) : (calling.goOn pubList later rest).told = calling.told := by
  cases calling <;> rfl

namespace Network

variable {network next : Network json}

/-- Whoever a subscriber has been sent to has been granted the topic. -/
structure Truthful (network : Network json) : Prop where
  calling : ∀ fd runtime, network.runtimes.lookup fd = some runtime → ∀ topic told,
    runtime.calling.told = some (topic, told) →
      network.grants.Claims told.publisher topic told.type
  links : ∀ linkFd link, network.links.lookup linkFd = some link → ∀ told,
    link.told = some told →
      network.grants.Claims told.publisher link.subscription.topic told.type

theorem Truthful.receive {fd : Fd} {runtime : Runtime json} {question : Question json}
    {reply : Frame} {told : Option Told} (truthful : network.Truthful)
    (found : network.runtimes.lookup fd = some runtime)
    (calling : runtime.calling = .asking question (some (reply, told))) (topic : Bytes)
    (told' : Told)
    (isTold : (runtime.receive question reply.data told).calling.told = some (topic, told')) :
    network.grants.Claims told'.publisher topic told'.type := by
  cases question with
  | subscribe subscription =>
      cases isOk : saysOk json reply.data with
      | true =>
          cases isPort : publisherPort json reply.data with
          | none => simp [Runtime.receive, isOk, isPort, Calling.told] at isTold
          | some port =>
              simp only [Runtime.receive, isOk, isPort] at isTold
              refine truthful.calling fd runtime found topic told' ?_
              cases told with
              | none => simp [Calling.told] at isTold
              | some told =>
                  rw [calling]
                  exact isTold
      | false => simp [Runtime.receive, isOk, Calling.told] at isTold
  | advertise advertisement =>
      cases isOk : saysOk json reply.data <;>
        simp [Runtime.receive, isOk, Calling.told] at isTold
  | provideMethod content | queryMethod content =>
      simp [Runtime.receive, Calling.told] at isTold

theorem Truthful.step {event : NetworkEvent json} (truthful : network.Truthful)
    (exclusive : network.grants.Exclusive)
    (moves : Relation.ReflGen Grants.Step network.grants next.grants)
    (move : Move network event next) : next.Truthful := by
  have claims {fd : Fd} {topic : Bytes} {type : UInt32}
      (before : network.grants.Claims fd topic type) : next.grants.Claims fd topic type :=
    exclusive.claims_moves moves before
  constructor
  · have older : ∀ fd runtime, network.runtimes.lookup fd = some runtime → ∀ topic told,
        runtime.calling.told = some (topic, told) →
          next.grants.Claims told.publisher topic told.type :=
      fun fd runtime found topic told isTold =>
        claims (truthful.calling fd runtime found topic told isTold)
    have sameCall {fd : Fd} {runtime later : Runtime json}
        (found : network.running fd = some runtime)
        (same : later.calling.told = runtime.calling.told)
        (topic : Bytes) (told : Told) (isTold : later.calling.told = some (topic, told)) :
        next.grants.Claims told.publisher topic told.type :=
      older fd runtime (running_eq_some.mp found).1 topic told (same ▸ isTold)
    -- most calls have been told nothing
    have silent {call : Calling json} (nothing : call.told = none) (topic : Bytes) (told : Told)
        (isTold : call.told = some (topic, told)) :
        next.grants.Claims told.publisher topic told.type := by
      simp [nothing] at isTold
    cases move with
    | rejected | broke | masterMoved | keptAlive => exact older
    | exited found | answered found | delivered found =>
        exact forall_insert (sameCall found rfl) older
    | listened found => exact forall_insert (sameCall found (Calling.goOn_told ..)) older
    | joined | connected | refused | lost | stored | denied | published | sent | missed
    | finished =>
        exact forall_insert (silent rfl) older
    | @asked fd question runtime found idle isFrom =>
        exact forall_insert (silent (by cases question <;> rfl)) older
    | @served fd reply runtime question master found isAsking served =>
        refine forall_insert (fun topic told isTold => ?_) older
        cases question with
        | subscribe subscription =>
            cases isPublished : network.publisherOf subscription.topic with
            | none => simp [Network.told, isPublished, Calling.told] at isTold
            | some told' =>
                simp only [Network.told, isPublished, Calling.told, Option.some.injEq,
                  Prod.mk.injEq] at isTold
                obtain ⟨rfl, rfl⟩ := isTold
                exact claims (exclusive.owned (publisherOf_eq_some.mp isPublished))
        | advertise | provideMethod | queryMethod => simp [Calling.told] at isTold
    | received found isAsking =>
        exact forall_insert (fun topic told isTold =>
          claims (truthful.receive (running_eq_some.mp found).1 isAsking topic told isTold)) older
  · intro linkFd later laterFound told isTold
    rcases (move.origin laterFound).continues with ⟨link, found, continues⟩ |
      ⟨fd, runtime, port, found, isConnecting, -⟩
    · rw [continues.told] at isTold
      rw [continues.subscription]
      exact claims (truthful.links linkFd link found told isTold)
    · rw [isTold] at isConnecting
      exact claims (truthful.calling fd runtime (running_eq_some.mp found).1
        later.subscription.topic told (by rw [isConnecting]; rfl))

theorem Truthful.of_reachable (roundTrips : json.RoundTrips)
    (reachable : (networkSystem json).Reachable network) : network.Truthful := by
  refine reachable.invariant_of_reachable Truthful ?_ ?_
  · intro network initial
    constructor
    · simp [initial.runtimes]
    · simp [initial.links]
  · intro network event next reachable truthful moved
    have moves := (step_move moved).moves roundTrips (.of_reachable reachable)
      (.of_reachable (master_reachable reachable))
    exact truthful.step (exclusive_of_reachable roundTrips reachable) moves (step_move moved)

/-- The connection goes to the publisher that the master named, and the
subscription has the type that the master has registered. -/
def Matches (link : Link json) : Prop :=
  link.told = some ⟨link.publisher, link.subscription.type⟩

/-- A publisher denies a subscription that matches what the master has said
only while it has not stored the topic yet. -/
theorem subscribe_invalid_iff (roundTrips : json.RoundTrips)
    (reachable : (networkSystem json).Reachable network) {linkFd : Fd} {link : Link json}
    {runtime : Runtime json} (linkFound : network.links.lookup linkFd = some link)
    (found : network.runtimes.lookup link.publisher = some runtime) (isMatch : Matches link) :
    (subscribe json runtime.pubList linkFd link.subscription.text).2 = .invalid ↔
      runtime.granted = some (link.subscription.topic, link.subscription.type) := by
  have truthful : network.Truthful := .of_reachable roundTrips reachable
  have claims := truthful.links linkFd link linkFound _ isMatch
  have stored := (exclusive_of_reachable roundTrips reachable).stored_iff claims
  have accepts : network.grants.stored link.publisher link.subscription.topic =
      (runtime.pubList.lookup link.subscription.topic).map PubEventInfo.type :=
    congrFun (stored_eq found) _
  have pending : network.grants.pending link.publisher = runtime.granted := pending_eq found
  rw [accepts, pending] at stored
  rw [link.subscription.subscribe_text roundTrips, iff_comm, ← not_iff_not, ← ne_eq, ← stored]
  cases listed : runtime.pubList.lookup link.subscription.topic with
  | none => simp
  | some pubEventInfo =>
      by_cases sameType : pubEventInfo.type = link.subscription.type
      · by_cases duplicate : link.subscription.name ∈ pubEventInfo.clientSocketMap <;>
          simp [sameType, duplicate]
      · simp [sameType]

/-- No subscription that matches what the master has said is answered INVALID. -/
def AcceptsAnnounced (network : Network json) : Prop :=
  ∀ linkFd link, network.links.lookup linkFd = some link → Matches link →
    link.answer ≠ some .invalid

/-- A publisher that the master announces accepts the topic, unless its call of
`advertise_event` is between the master's grant and the entry into `pub_list_`. -/
def AnnouncesAccepted (network : Network json) : Prop :=
  ∀ topic told, network.publisherOf topic = some told →
    (network.stored told.publisher topic = some told.type ↔
      network.pending told.publisher ≠ some (topic, told.type))

/-- The listening thread handles no subscription to a topic between the
master's grant and the entry into `pub_list_`. -/
def ListensAfterStoring : Network json → NetworkEvent json → Prop
  | network, .listen fd linkFd _ => ∀ link ∈ network.links.lookup linkFd,
      network.pending fd ≠ some (link.subscription.topic, link.subscription.type)
  | _, _ => True

instance (network : Network json) (event : NetworkEvent json) :
    Decidable (network.ListensAfterStoring event) :=
  match event with
  | .listen fd linkFd _ => inferInstanceAs (Decidable (∀ link ∈ network.links.lookup linkFd,
      network.pending fd ≠ some (link.subscription.topic, link.subscription.type)))
  | .join .. | .exit _ | .breakLink _ | .master _ | .serve .. | .keepAlive _ | .ask ..
  | .readAnswer _ | .connect .. | .refuse _ | .answer _ | .readReply _ | .loseReply _
  | .publish .. | .send .. | .sendFails .. | .finish _ | .deliver .. => isTrue trivial

theorem announces_accepted (roundTrips : json.RoundTrips)
    (reachable : (networkSystem json).Reachable network) : network.AnnouncesAccepted := by
  intro topic told isTold
  have exclusive : network.grants.Exclusive := exclusive_of_reachable roundTrips reachable
  exact exclusive.stored_iff (exclusive.owned (publisherOf_eq_some.mp isTold))

theorem accepts_announced (roundTrips : json.RoundTrips)
    (reachable : ((networkSystem json).restrict ListensAfterStoring).Reachable network) :
    network.AcceptsAnnounced := by
  refine reachable.invariant_of_reachable AcceptsAnnounced ?_ ?_
  · intro network initial linkFd link found
    rw [Initial.links initial] at found
    simp at found
  · intro network event next reachable accepts moved linkFd later laterFound isMatch isInvalid
    obtain ⟨guarded, moved⟩ := EventSystem.step_restrict.mp moved
    cases (step_move moved).origin laterFound with
    | connected => simp at isInvalid
    | used stream polled found => exact accepts linkFd _ found isMatch isInvalid
    | broke isBreak found => exact accepts linkFd _ found isMatch isInvalid
    | @answered rest link runtime isListen runtimeFound found unanswered =>
        subst isListen
        have publisherFound := (running_eq_some.mp runtimeFound).1
        have granted := (subscribe_invalid_iff roundTrips reachable.of_restrict found publisherFound
          isMatch).mp (Option.some.inj isInvalid)
        exact guarded link found ((pending_eq publisherFound).trans granted)

/-- A topic that the master announces is accepted by its publisher, and so are
the subscriptions that follow, apart from the time between grant and entry. -/
theorem subscriptions_accepted (roundTrips : json.RoundTrips) :
    (∀ network, (networkSystem json).Reachable network → network.AnnouncesAccepted) ∧
      ∀ network, ((networkSystem json).restrict ListensAfterStoring).Reachable network →
        network.AcceptsAnnounced :=
  ⟨fun _ reachable => announces_accepted roundTrips reachable,
    fun _ reachable => accepts_announced roundTrips reachable⟩

end Network

/-- The subscription arrives after the topic has been stored. -/
theorem subscriptions_accepted_sample : ∃ network : Network JsonLibrary.plain,
    (∃ link ∈ network.links.lookup 7, link.told = some ⟨5, 11⟩ ∧ link.answer = some .ok) ∧
      network.AnnouncesAccepted ∧ network.AcceptsAnnounced := by
  obtain ⟨network, run, answered⟩ :=
    ((networkSystem JsonLibrary.plain).restrict Network.ListensAfterStoring).exists_run_of_steps
      (subscribing ++ [.listen 5 7 []])
      (fun network => ∃ link ∈ network.links.lookup 7,
        link.told = some ⟨5, 11⟩ ∧ link.answer = some .ok)
      Network.started_initial (by decide +kernel)
  have accepted := Network.subscriptions_accepted JsonLibrary.plain_roundTrips
  exact ⟨network, answered, accepted.1 network ⟨_, run.of_restrict⟩, accepted.2 network ⟨_, run⟩⟩

/-- The subscription arrives before the publisher has read the master's reply. -/
theorem subscriptions_denied : ∃ network : Network JsonLibrary.plain,
    (networkSystem JsonLibrary.plain).Reachable network ∧ ¬ network.AcceptsAnnounced := by
  obtain ⟨network, run, link, found, isMatch, denied⟩ :=
    (networkSystem JsonLibrary.plain).exists_run_of_steps
      (requesting ++ [.master (.poll (.ready [5, 6])), .serve 5 okReply, .serve 6 foundReply,
        .readAnswer 6, .connect 6 7 5, .listen 5 7 []])
      (fun network => ∃ link ∈ network.links.lookup 7,
        link.told = some ⟨link.publisher, link.subscription.type⟩ ∧ link.answer = some .invalid)
      Network.started_initial (by decide +kernel)
  exact ⟨network, ⟨_, run⟩, fun accepts => accepts 7 link found isMatch denied⟩

end UBus
