import UBus.Network.Moves

/-!
# Type safety of events

A callback for events of one type on one topic is only called with an event of
that type that was published on that topic.  Three checks in two programs
carry this: the publisher compares the type of a subscription and the type of
an event with that of the topic, and the subscriber finds the callback by the
socket.  The contents arrive as they were published unless they have a NUL
byte that is followed by something else, where the copy into the frame stops.
-/

namespace UBus

open FiniteMap

variable {json : JsonLibrary}

namespace Network

variable {network next : Network json}

/-- The connection goes to `publisher` and carries a subscription to events of
this type on this topic. -/
def Subscribes (network : Network json) (linkFd publisher : Fd) (topic : Bytes)
    (type : UInt32) : Prop :=
  ∃ link, network.links.lookup linkFd = some link ∧ link.publisher = publisher ∧
    link.subscription.topic = topic ∧ link.subscription.type = type

/-- An event of this type was published on this topic, and it was copied into
its frame as `data`. -/
def Published (network : Network json) (topic : Bytes) (type : UInt32) (data : Bytes) : Prop :=
  ∃ publication, (type, publication) ∈ network.published ∧ publication.topic = topic ∧
    publication.body = data

/-- What the tables and the API thread of a runtime have to do with the
connections and with what has been published. -/
structure RuntimeTyped (network : Network json) (fd : Fd) (runtime : Runtime json) : Prop where
  recorded : ∀ {topic pubEventInfo name linkFd}, runtime.pubList.lookup topic = some pubEventInfo →
    pubEventInfo.clientSocketMap.lookup name = some linkFd →
      network.Subscribes linkFd fd topic pubEventInfo.type
  publishing : ∀ {round}, runtime.calling = .publishing round →
    ∃ pubEventInfo, runtime.pubList.lookup round.publication.topic = some pubEventInfo ∧
      (pubEventInfo.type, round.publication) ∈ network.published
  subscribed : ∀ {topic subEventInfo}, runtime.subList.lookup topic = some subEventInfo →
    ∃ publisher, network.Subscribes subEventInfo.socket publisher topic subEventInfo.type
  awaiting : ∀ {subscription linkFd}, runtime.calling = .awaiting subscription linkFd →
    ∃ publisher, network.Subscribes linkFd publisher subscription.topic subscription.type
  invoked : ∀ invocation ∈ runtime.invoked,
    network.Published invocation.topic invocation.type invocation.content

/-- All events on their way to a subscriber are what it subscribed to. -/
def LinkTyped (network : Network json) (link : Link json) : Prop :=
  ∀ frame ∈ link.stream, frame.messageType = FrameType.event.code →
    network.Published link.subscription.topic link.subscription.type frame.data

structure Typed (network : Network json) : Prop where
  known : network.Known
  runtimes : ∀ fd runtime, network.runtimes.lookup fd = some runtime →
    network.RuntimeTyped fd runtime
  links : ∀ fd link, network.links.lookup fd = some link → network.LinkTyped link

theorem Subscribes.mono {linkFd publisher : Fd} {topic : Bytes} {type : UInt32}
    (grows : network.Grows next) (subscribes : network.Subscribes linkFd publisher topic type) :
    next.Subscribes linkFd publisher topic type := by
  obtain ⟨link, found, rfl, rfl, rfl⟩ := subscribes
  obtain ⟨later, laterFound, same⟩ := grows.links found
  exact ⟨later, laterFound, same.publisher, by rw [same.subscription], by rw [same.subscription]⟩

theorem Published.mono {topic : Bytes} {type : UInt32} {data : Bytes}
    (grows : network.Grows next) (published : network.Published topic type data) :
    next.Published topic type data := by
  obtain ⟨publication, member, rest⟩ := published
  exact ⟨publication, grows.published member, rest⟩

theorem RuntimeTyped.mono {fd : Fd} {runtime : Runtime json} (grows : network.Grows next)
    (typed : network.RuntimeTyped fd runtime) : next.RuntimeTyped fd runtime where
  recorded listed found := (typed.recorded listed found).mono grows
  publishing calling := by
    obtain ⟨pubEventInfo, listed, member⟩ := typed.publishing calling
    exact ⟨pubEventInfo, listed, grows.published member⟩
  subscribed listed := (typed.subscribed listed).imp fun _ subscribes => subscribes.mono grows
  awaiting calling := (typed.awaiting calling).imp fun _ subscribes => subscribes.mono grows
  invoked invocation member := (typed.invoked invocation member).mono grows

theorem LinkTyped.mono {link : Link json} (grows : network.Grows next)
    (typed : network.LinkTyped link) : next.LinkTyped link :=
  fun frame member isEvent => (typed frame member isEvent).mono grows

theorem Typed.of_grows (typed : network.Typed) (known : next.Known) (grows : network.Grows next)
    (runtimes : ∀ fd runtime, next.runtimes.lookup fd = some runtime →
      network.runtimes.lookup fd = some runtime ∨ next.RuntimeTyped fd runtime)
    (links : ∀ fd link, next.links.lookup fd = some link →
      network.links.lookup fd = some link ∨ next.LinkTyped link) : next.Typed where
  known := known
  runtimes fd runtime found := by
    rcases runtimes fd runtime found with older | changed
    · exact (typed.runtimes fd runtime older).mono grows
    · exact changed
  links fd link found := by
    rcases links fd link found with older | changed
    · exact (typed.links fd link older).mono grows
    · exact changed

theorem RuntimeTyped.setCalling {fd : Fd} {runtime : Runtime json} {calling : Calling json}
    (typed : network.RuntimeTyped fd runtime)
    (notPublishing : ∀ round, calling ≠ .publishing round)
    (notAwaiting : ∀ subscription linkFd, calling ≠ .awaiting subscription linkFd) :
    network.RuntimeTyped fd { runtime with calling := calling } where
  recorded := typed.recorded
  publishing isPublishing := absurd isPublishing (notPublishing _)
  subscribed := typed.subscribed
  awaiting isAwaiting := absurd isAwaiting (notAwaiting _ _)
  invoked := typed.invoked

theorem invocation_eq_some {runtime : Runtime json} {socket : Fd} {order : List Bytes}
    {frame : Frame} {invoked : Invocation}
    (isInvoked : invocation runtime socket order frame = some invoked) :
    frame.messageType = FrameType.event.code ∧ ∃ subEventInfo,
      runtime.subList.lookup invoked.topic = some subEventInfo ∧ subEventInfo.socket = socket ∧
        invoked.type = subEventInfo.type ∧ invoked.content = frame.data := by
  simp only [invocation, Option.ite_none_right_eq_some] at isInvoked
  obtain ⟨isEvent, found⟩ := isInvoked
  obtain ⟨topic, -, atTopic⟩ := List.exists_of_findSome?_eq_some found
  obtain ⟨subEventInfo, listed, isEntry⟩ := Option.bind_eq_some_iff.mp atTopic
  simp only [Option.ite_none_right_eq_some, Option.some.injEq] at isEntry
  obtain ⟨socketEq, rfl⟩ := isEntry
  exact ⟨isEvent, subEventInfo, listed, socketEq, rfl, rfl⟩

theorem RuntimeTyped.receive {fd : Fd} {runtime : Runtime json}
    (typed : network.RuntimeTyped fd runtime) (question : Question json) (content : Bytes)
    (told : Option Told) : network.RuntimeTyped fd (runtime.receive question content told) := by
  unfold Runtime.receive
  split
  · constructor
    · intro topic pubEventInfo name linkFd listed recorded
      rw [lookup_insert] at listed
      split_ifs at listed
      · obtain rfl := Option.some.inj listed
        simp at recorded
      · exact typed.recorded listed recorded
    · simp
    · exact typed.subscribed
    · simp
    · exact typed.invoked
  · split
    · exact typed.setCalling (by simp) (by simp)
    · exact typed.setCalling (by simp) (by simp)
  · exact typed.setCalling (by simp) (by simp)

theorem RuntimeTyped.listen (roundTrips : json.RoundTrips) {fd linkFd : Fd} (rest : List Bytes)
    {runtime : Runtime json} {link : Link json} (typed : network.RuntimeTyped fd runtime)
    (found : ∃ later, network.links.lookup linkFd = some later ∧ link.Continues later)
    (publisher : link.publisher = fd) :
    network.RuntimeTyped fd { runtime with
      pubList := (subscribe json runtime.pubList linkFd link.subscription.text).1
      calling := runtime.calling.goOn runtime.pubList
        (subscribe json runtime.pubList linkFd link.subscription.text).1 rest
      listening := some linkFd } where
  recorded {topic pubEventInfo name socket} listed recorded := by
    obtain ⟨before, older, sameType, entries⟩ := subscription_recorded roundTrips _ listed
    rcases entries name socket recorded with old | ⟨rfl, -, rfl, isType, -⟩
    · exact sameType ▸ typed.recorded older old
    · obtain ⟨later, laterFound, same⟩ := found
      exact ⟨later, laterFound, same.publisher.trans publisher, by rw [same.subscription],
        by rw [same.subscription, isType]⟩
  publishing {round} calling := by
    obtain ⟨before, wasCalling, rfl⟩ := Calling.goOn_eq_publishing.mp calling
    obtain ⟨pubEventInfo, listed, member⟩ := typed.publishing wasCalling
    have sameTypes := subscribe_types json runtime.pubList linkFd link.subscription.text
      before.publication.topic
    rw [listed] at sameTypes
    obtain ⟨after, afterListed, sameType⟩ := Option.map_eq_some_iff.mp sameTypes
    rw [Round.goOn_publication]
    exact ⟨after, afterListed, sameType ▸ member⟩
  subscribed := typed.subscribed
  awaiting calling := typed.awaiting (Calling.goOn_eq_awaiting.mp calling)
  invoked := typed.invoked

theorem RuntimeTyped.iterate {fd : Fd} {runtime : Runtime json} {round : Round}
    (typed : network.RuntimeTyped fd runtime)
    (isPublished : ∃ pubEventInfo,
      runtime.pubList.lookup round.publication.topic = some pubEventInfo ∧
        (pubEventInfo.type, round.publication) ∈ network.published) :
    network.RuntimeTyped fd { runtime with calling := .publishing round } where
  recorded := typed.recorded
  publishing isPublishing := by
    obtain rfl := Calling.publishing.inj isPublishing
    exact isPublished
  subscribed := typed.subscribed
  awaiting := by simp
  invoked := typed.invoked

theorem RuntimeTyped.await {fd linkFd publisher : Fd} {runtime : Runtime json}
    {subscription : Subscription json} (typed : network.RuntimeTyped fd runtime)
    (subscribes :
      network.Subscribes linkFd publisher subscription.topic subscription.type) :
    network.RuntimeTyped fd { runtime with calling := .awaiting subscription linkFd } where
  recorded := typed.recorded
  publishing := by simp
  subscribed := typed.subscribed
  awaiting isAwaiting := by
    obtain ⟨rfl, rfl⟩ := Calling.awaiting.inj isAwaiting
    exact ⟨publisher, subscribes⟩
  invoked := typed.invoked

theorem RuntimeTyped.store {fd linkFd : Fd} {runtime : Runtime json}
    {subscription : Subscription json} (typed : network.RuntimeTyped fd runtime)
    (calling : runtime.calling = .awaiting subscription linkFd) :
    network.RuntimeTyped fd { runtime with
      subList := runtime.subList.insert subscription.topic ⟨subscription.type, linkFd⟩
      calling := .idle } where
  recorded := typed.recorded
  publishing := by simp
  subscribed {topic subEventInfo} listed := by
    rw [lookup_insert] at listed
    split_ifs at listed with isTopic
    · obtain rfl := Option.some.inj listed
      exact isTopic ▸ typed.awaiting calling
    · exact typed.subscribed listed
  awaiting := by simp
  invoked := typed.invoked

theorem RuntimeTyped.finish {fd : Fd} {runtime : Runtime json}
    (typed : network.RuntimeTyped fd runtime) (topic : Bytes) (dead : List Bytes) :
    network.RuntimeTyped fd { runtime with
      pubList := runtime.pubList.modify topic fun pubEventInfo =>
        { pubEventInfo with
          clientSocketMap := dead.foldl FiniteMap.erase pubEventInfo.clientSocketMap }
      calling := .idle } where
  recorded {other pubEventInfo name linkFd} listed recorded := by
    rw [lookup_modify] at listed
    obtain ⟨before, beforeListed, rfl⟩ := Option.map_eq_some_iff.mp listed
    split_ifs at recorded ⊢ with isTopic
    · have earlier := typed.recorded beforeListed (lookup_of_lookup_erases recorded)
      exact earlier
    · exact typed.recorded beforeListed recorded
  publishing := by simp
  subscribed := typed.subscribed
  awaiting := by simp
  invoked := typed.invoked

theorem RuntimeTyped.deliver {fd : Fd} {runtime : Runtime json} {delivered : List Invocation}
    (typed : network.RuntimeTyped fd runtime)
    (published : ∀ invocation ∈ delivered,
      network.Published invocation.topic invocation.type invocation.content) :
    network.RuntimeTyped fd { runtime with invoked := runtime.invoked ++ delivered } where
  recorded := typed.recorded
  publishing := typed.publishing
  subscribed := typed.subscribed
  awaiting := typed.awaiting
  invoked invocation member := by
    rcases List.mem_append.mp member with earlier | newest
    · exact typed.invoked invocation earlier
    · exact published invocation newest

/-- The entry that is found by its socket subscribes to what the connection
carries. -/
theorem RuntimeTyped.invocation_published {fd linkFd : Fd} {runtime : Runtime json}
    {link : Link json} {frame : Frame} {order : List Bytes} {invoked : Invocation}
    (typed : network.RuntimeTyped fd runtime) (found : network.links.lookup linkFd = some link)
    (linkTyped : network.LinkTyped link) (member : frame ∈ link.stream)
    (isInvoked : invocation runtime linkFd order frame = some invoked) :
    network.Published invoked.topic invoked.type invoked.content := by
  obtain ⟨isEvent, subEventInfo, listed, socket, type, content⟩ := invocation_eq_some isInvoked
  obtain ⟨publisher, link', found', -, topicEq, typeEq⟩ := typed.subscribed listed
  rw [socket] at found'
  obtain rfl := Option.some.inj (found.symm.trans found')
  have arrived := linkTyped frame member isEvent
  rw [topicEq, typeEq, ← type, ← content] at arrived
  exact arrived

theorem LinkTyped.append {link : Link json} {frame : Frame} (typed : network.LinkTyped link)
    (published : frame.messageType = FrameType.event.code →
      network.Published link.subscription.topic link.subscription.type frame.data) :
    network.LinkTyped { link with stream := link.stream ++ [frame] } := by
  intro other member isEvent
  rcases List.mem_append.mp member with older | newest
  · exact typed other older isEvent
  · obtain rfl := List.mem_singleton.mp newest
    exact published isEvent

theorem LinkTyped.take {link : Link json} {frame : Frame} {stream : List Frame}
    (typed : network.LinkTyped link) (streamEq : link.stream = frame :: stream) (polled : Bool) :
    network.LinkTyped { link with stream := stream, polled := polled } :=
  fun other member => typed other (by simp [streamEq, member])

theorem Typed.step (roundTrips : json.RoundTrips) {event : NetworkEvent json}
    (typed : network.Typed) (move : Move network event next) : next.Typed := by
  have grows := move.grows typed.known
  have known := typed.known.step move
  have running {fd runtime} (found : network.running fd = some runtime) :
      next.RuntimeTyped fd runtime :=
    (typed.runtimes fd runtime (running_eq_some.mp found).1).mono grows
  have linked {linkFd link} (found : network.links.lookup linkFd = some link) :
      next.LinkTyped link :=
    (typed.links linkFd link found).mono grows
  -- the other runtimes and connections are as they were
  have keep {fd : Fd} {runtime : Runtime json} (changed : next.RuntimeTyped fd runtime) :
      ∀ other found, (network.runtimes.insert fd runtime).lookup other = some found →
        network.runtimes.lookup other = some found ∨ next.RuntimeTyped other found :=
    forall_insert (Or.inr changed) fun _ _ => Or.inl
  have keepLink {fd : Fd} {link : Link json} (changed : next.LinkTyped link) :
      ∀ other found, (network.links.insert fd link).lookup other = some found →
        network.links.lookup other = some found ∨ next.LinkTyped found :=
    forall_insert (Or.inr changed) fun _ _ => Or.inl
  cases move with
  | joined accepted isOk =>
      apply typed.of_grows known grows (keep _) fun _ _ => Or.inl
      constructor <;> simp
  | rejected | masterMoved | keptAlive =>
      exact typed.of_grows known grows (fun _ _ => Or.inl) fun _ _ => Or.inl
  | exited found closed =>
      have same := running found
      apply typed.of_grows known grows (keep _) fun _ _ => Or.inl
      exact ⟨same.recorded, same.publishing, same.subscribed, same.awaiting, same.invoked⟩
  | broke found =>
      have same := linked found
      apply typed.of_grows known grows (fun _ _ => Or.inl) (keepLink _)
      exact same
  | served found calling served =>
      have same := (typed.runtimes _ _ found).mono grows
      apply typed.of_grows known grows (keep _) fun _ _ => Or.inl
      exact same.setCalling (by simp) (by simp)
  | asked found | refused found | lost found =>
      apply typed.of_grows known grows (keep _) fun _ _ => Or.inl
      exact (running found).setCalling (by simp) (by simp)
  | received found calling =>
      apply typed.of_grows known grows (keep _) fun _ _ => Or.inl
      exact (running found).receive ..
  | @connected fd linkFd publisherFd _ subscription _ _ _ found calling publisherFound fresh =>
      apply typed.of_grows known grows (keep _) (keepLink _)
      · apply (running found).await
        exact ⟨_, (lookup_setLink ..).trans (if_pos rfl), rfl, rfl, rfl⟩
      · simp [LinkTyped]
  | listened found linkFound publisher unanswered =>
      have same := linked linkFound
      apply typed.of_grows known grows (keep _) (keepLink _)
      · exact (running found).listen roundTrips _ (grows.links linkFound) publisher
      · exact same
  | @answered fd linkFd runtime link answer found listening linkFound isAnswer =>
      have same := running found
      apply typed.of_grows known grows (keep _) (keepLink _)
      · exact ⟨same.recorded, same.publishing, same.subscribed, same.awaiting, same.invoked⟩
      · apply (linked linkFound).append
        intro isEvent
        have otherType : answer.frame.messageType = FrameType.eventSubscribe.code := rfl
        rw [otherType] at isEvent
        exact absurd isEvent (by decide)
  | stored found calling linkFound streamEq =>
      apply typed.of_grows known grows (keep _) (keepLink _)
      · exact (running found).store calling
      · exact (linked linkFound).take streamEq true
  | denied found calling linkFound streamEq isOk =>
      apply typed.of_grows known grows (keep _) (keepLink _)
      · exact (running found).setCalling (by simp) (by simp)
      · exact (linked linkFound).take streamEq _
  | published found calling listed isType =>
      apply typed.of_grows known grows (keep _) fun _ _ => Or.inl
      exact (running found).iterate ⟨_, listed, by simp [isType]⟩
  | @sent fd name runtime round linkFd link found visit linkFound =>
      have same := running found
      obtain ⟨calling, pubEventInfo, listed, recorded⟩ := toVisit_eq_some visit
      obtain ⟨info, infoListed, member⟩ := same.publishing calling
      obtain rfl := Option.some.inj (listed.symm.trans infoListed)
      apply typed.of_grows known grows (keep _) (keepLink _)
      · exact same.iterate ⟨pubEventInfo, listed, member⟩
      · apply (linked linkFound).append
        intro _
        -- the subscriber is recorded for the topic and the type of the event
        obtain ⟨link', found', -, topic, type⟩ :=
          (typed.runtimes _ _ (running_eq_some.mp found).1).recorded listed recorded
        obtain rfl := Option.some.inj (linkFound.symm.trans found')
        exact ⟨round.publication, type.symm ▸ member, topic.symm, rfl⟩
  | @missed fd name brokenPipe runtime round linkFd link found visit linkFound notOpen =>
      have same := running found
      have samePublication : ((round.visit name).bury name brokenPipe).publication =
          round.publication := by
        unfold Round.bury
        split <;> rfl
      apply typed.of_grows known grows (keep _) fun _ _ => Or.inl
      apply same.iterate
      rw [samePublication]
      exact same.publishing (toVisit_eq_some visit).1
  | @finished fd runtime round found calling =>
      apply typed.of_grows known grows (keep _) fun _ _ => Or.inl
      exact (running found).finish round.publication.topic round.dead
  | @delivered fd linkFd order runtime link frame stream found linkFound streamEq subscriber =>
      apply typed.of_grows known grows (keep _) (keepLink _)
      · apply (running found).deliver
        intro invoked member
        have before := typed.runtimes _ _ (running_eq_some.mp found).1
        have published := before.invocation_published linkFound (typed.links _ _ linkFound)
          (by simp [streamEq]) (Option.mem_toList.mp member)
        exact published.mono grows
      · exact (linked linkFound).take streamEq _

theorem Typed.of_reachable (roundTrips : json.RoundTrips)
    (reachable : (networkSystem json).Reachable network) : network.Typed := by
  refine reachable.invariant Typed ?_ fun _ _ _ typed moved =>
    typed.step roundTrips (step_move moved)
  intro network initial
  constructor
  · intro fd member
    rw [initial.runtimes] at member
    exact absurd member (by simp [Finmap.notMem_empty])
  · intro fd runtime found
    rw [initial.runtimes] at found
    simp at found
  · intro fd link found
    rw [initial.links] at found
    simp at found

/-- Every callback has been called with an event of its type that was published
on its topic, as it was serialized. -/
def InvokesAsPublished (network : Network json) : Prop :=
  ∀ fd runtime, network.runtimes.lookup fd = some runtime →
    ∀ invocation ∈ runtime.invoked, ∃ publication,
      (invocation.type, publication) ∈ network.published ∧
        publication.topic = invocation.topic ∧ publication.text = invocation.content

/-- In the serialized form of an event that is published, nothing but NULs
follows the first NUL. -/
def PublishesWhole : Network json → NetworkEvent json → Prop
  | _, .publish _ _ publication _ =>
      ∀ byte ∈ publication.text.dropWhile (· ≠ 0), byte = 0
  | _, _ => True

instance (network : Network json) (event : NetworkEvent json) :
    Decidable (network.PublishesWhole event) :=
  match event with
  | .publish _ _ publication _ =>
      inferInstanceAs (Decidable (∀ byte ∈ publication.text.dropWhile (· ≠ 0), byte = 0))
  | .join .. | .exit _ | .breakLink _ | .master _ | .serve .. | .keepAlive _ | .ask ..
  | .readAnswer _ | .connect .. | .refuse _ | .listen .. | .answer _ | .readReply _
  | .loseReply _ | .send .. | .sendFails .. | .finish _ | .deliver .. => isTrue trivial

theorem Move.newlyPublished {event : NetworkEvent json} (move : Move network event next) :
    next.published = network.published ∨ ∃ fd type publication order,
      event = .publish fd type publication order ∧
        next.published = (type, publication) :: network.published := by
  cases move with
  | published found calling listed isType => exact Or.inr ⟨_, _, _, _, rfl, rfl⟩
  | _ => exact Or.inl rfl

theorem published_whole
    (reachable : ((networkSystem json).restrict PublishesWhole).Reachable network) :
    ∀ entry ∈ network.published, entry.2.body = entry.2.text := by
  refine reachable.invariant
    (fun network => ∀ entry ∈ network.published, entry.2.body = entry.2.text) ?_ ?_
  · intro network initial entry member
    rw [Initial.published initial] at member
    simp at member
  · intro network event next whole moved entry member
    obtain ⟨guarded, moved⟩ := EventSystem.step_restrict.mp moved
    rcases (step_move moved).newlyPublished with same | ⟨fd, type, publication, order, rfl, newer⟩
    · exact whole entry (same ▸ member)
    · rw [newer] at member
      rcases List.mem_cons.mp member with rfl | older
      · exact strncpy_eq_self_iff.mpr guarded
      · exact whole entry older

/-- If only such events are published, every callback gets an event that was
published on its topic with its type. -/
theorem invokes_as_published (roundTrips : json.RoundTrips) {network : Network json}
    (reachable : ((networkSystem json).restrict PublishesWhole).Reachable network) :
    network.InvokesAsPublished := by
  intro fd runtime found invocation member
  have typed : network.Typed := .of_reachable roundTrips reachable.of_restrict
  obtain ⟨publication, published, topic, content⟩ :=
    (typed.runtimes fd runtime found).invoked invocation member
  have whole := published_whole reachable _ published
  exact ⟨publication, published, topic, whole.symm.trans content⟩

end Network

def publishing (text : Bytes) : List (NetworkEvent JsonLibrary.plain) :=
  subscribing ++ [.listen 5 7 [], .answer 5, .readReply 6,
    .publish 5 11 ⟨ascii "t", text, (0, 0, 0)⟩ [ascii "b"], .send 5 (ascii "b"), .finish 5,
    .deliver 6 7 [ascii "t"]]

theorem invokes_as_published_sample : ∃ network : Network JsonLibrary.plain,
    (network.runtimes.lookup 6).any (fun runtime =>
      runtime.invoked = [⟨ascii "t", 11, ascii "hello"⟩]) ∧ network.InvokesAsPublished := by
  obtain ⟨network, run, invoked⟩ :=
    ((networkSystem JsonLibrary.plain).restrict Network.PublishesWhole).exists_run_of_steps
      (publishing (ascii "hello"))
      (fun network => (network.runtimes.lookup 6).any fun runtime =>
        runtime.invoked = [⟨ascii "t", 11, ascii "hello"⟩])
      Network.started_initial (by decide +kernel)
  exact ⟨network, invoked,
    Network.invokes_as_published JsonLibrary.plain_roundTrips ⟨_, run⟩⟩

/-- The callback gets the bytes 97, 0, 0 for an event that was published as
97, 0, 98. -/
theorem invokes_otherwise : ∃ network : Network JsonLibrary.plain,
    (networkSystem JsonLibrary.plain).Reachable network ∧ ¬ network.InvokesAsPublished := by
  obtain ⟨network, run, invoked, published⟩ :=
    (networkSystem JsonLibrary.plain).exists_run_of_steps
      (publishing [97, 0, 98])
      (fun network => ((network.runtimes.lookup 6).any fun runtime =>
          runtime.invoked = [⟨ascii "t", 11, [97, 0, 0]⟩]) ∧
        ∀ entry ∈ network.published, entry.2.text = [97, 0, 98])
      Network.started_initial (by decide +kernel)
  refine ⟨network, ⟨_, run⟩, fun asPublished => ?_⟩
  obtain ⟨runtime, found, isInvoked⟩ := (Option.any_eq_true _ _).mp invoked
  have member : ⟨ascii "t", 11, [97, 0, 0]⟩ ∈ runtime.invoked := by
    rw [of_decide_eq_true isInvoked]
    exact List.mem_singleton_self _
  obtain ⟨publication, isPublished, -, text⟩ := asPublished 6 runtime found _ member
  exact absurd ((published _ isPublished).symm.trans text) (by decide)

end UBus
