import UBus.Network.Grants

/-!
# Subscribers that come back

A publisher answers DUPLICATE to a name that its table has for the topic.  The
table forgets a subscriber only when a later event cannot be written to it, so
that the answer also meets subscribers whose earlier subscription has come to
nothing or has ended.  This file follows a recorded connection from the
subscription to its end, and shows that there is no other reason.
-/

namespace UBus

open FiniteMap

variable {json : JsonLibrary}

def Calling.subscription : Calling json → Option (Subscription json)
  | .asking (.subscribe subscription) _ => some subscription
  | .connecting subscription _ _ => some subscription
  | .awaiting subscription _ => some subscription
  | _ => none

theorem Calling.goOn_subscription (calling : Calling json)
    (pubList later : FiniteMap Bytes PubEventInfo) (rest : List Bytes) :
    (calling.goOn pubList later rest).subscription = calling.subscription := by
  cases calling <;> rfl

def Calling.awaited : Calling json → Option Fd
  | .awaiting _ linkFd => some linkFd
  | _ => none

/-- The connection that a publisher has recorded for a topic and a name. -/
def Runtime.recorded (runtime : Runtime json) (topic name : Bytes) : Option Fd :=
  (runtime.pubList.lookup topic).bind fun pubEventInfo =>
    pubEventInfo.clientSocketMap.lookup name

namespace Network

variable {network next : Network json}

def recorded (network : Network json) (fd : Fd) (topic name : Bytes) : Option Fd :=
  (network.runtimes.lookup fd).bind fun runtime => runtime.recorded topic name

/-- The connection that the `sub_list_` of a running runtime has for a topic. -/
def subscribed (network : Network json) (fd : Fd) (topic : Bytes) : Option Fd :=
  (network.running fd).bind fun runtime =>
    (runtime.subList.lookup topic).map SubEventInfo.socket

def awaited (network : Network json) (fd : Fd) : Option Fd :=
  (network.running fd).bind fun runtime => runtime.calling.awaited

/-- A running runtime of this name has the topic with this connection, which
is open. -/
def Established (network : Network json) (linkFd : Fd) (topic name : Bytes) : Prop :=
  ∃ link, network.links.lookup linkFd = some link ∧ network.IsOpen link ∧
    network.subscribed link.subscriber topic = some linkFd ∧
      ∃ runtime, network.running link.subscriber = some runtime ∧ runtime.name = name

/-- The connections whose subscriptions an event ends: those of a process that
exits, one that breaks, one whose call has not read an OK, and one that a new
subscription to the topic replaces in `sub_list_`. -/
def ended (network : Network json) : NetworkEvent json → Finset Fd
  | .exit fd => network.links.keys.filter fun linkFd =>
      ∃ link ∈ network.links.lookup linkFd, link.subscriber = fd
  | .breakLink linkFd => {linkFd}
  | .loseReply fd => (network.awaited fd).toFinset
  | .readReply fd =>
      match (network.running fd).map Runtime.calling with
      | some (.awaiting subscription linkFd) =>
          if ((network.links.lookup linkFd).bind fun link => link.stream.head?).any fun frame =>
              saysOk json frame.data then
            (network.subscribed fd subscription.topic).toFinset
          else {linkFd}
      | _ => ∅
  | _ => ∅

end Network

/-- The network, with the connections whose subscriptions have ended. -/
def subscriptionSystem (json : JsonLibrary) :
    EventSystem (Network json × Finset Fd) (NetworkEvent json) :=
  (networkSystem json).observe ∅ fun network event ended => ended ∪ network.ended event

/-- A publisher handles a subscription only if the connection that it has
recorded for the topic and the name, if any, has not ended, and the subscriber
has read the reply there. -/
def HandlesCurrent : Network json × Finset Fd → NetworkEvent json → Prop
  | (network, ended), .listen fd linkFd _ => ∀ link ∈ network.links.lookup linkFd,
      ∀ earlier ∈ network.recorded fd link.subscription.topic link.subscription.name,
        earlier ∉ ended ∧ ∀ earlierLink ∈ network.links.lookup earlier,
          network.awaited earlierLink.subscriber ≠ some earlier
  | _, _ => True

instance (state : Network json × Finset Fd) (event : NetworkEvent json) :
    Decidable (HandlesCurrent state event) :=
  match state, event with
  | (network, ended), .listen fd linkFd _ =>
      inferInstanceAs (Decidable (∀ link ∈ network.links.lookup linkFd,
        ∀ earlier ∈ network.recorded fd link.subscription.topic link.subscription.name,
          earlier ∉ ended ∧ ∀ earlierLink ∈ network.links.lookup earlier,
            network.awaited earlierLink.subscriber ≠ some earlier))
  | _, .join .. | _, .exit _ | _, .breakLink _ | _, .master _ | _, .serve .. | _, .keepAlive _
  | _, .ask .. | _, .readAnswer _ | _, .connect .. | _, .refuse _ | _, .answer _
  | _, .readReply _ | _, .loseReply _ | _, .publish .. | _, .send .. | _, .sendFails ..
  | _, .finish _ | _, .deliver .. => isTrue trivial

namespace Network

variable {network next : Network json}

structure Named (network : Network json) : Prop where
  calling : ∀ fd runtime, network.runtimes.lookup fd = some runtime → ∀ subscription,
    runtime.calling.subscription = some subscription → subscription.name = runtime.name
  links : ∀ linkFd link, network.links.lookup linkFd = some link →
    ∃ runtime, network.runtimes.lookup link.subscriber = some runtime ∧
      runtime.name = link.subscription.name

theorem Named.receive {fd : Fd} {runtime : Runtime json} {question : Question json}
    {reply : Frame} {told : Option Told} (named : network.Named)
    (found : network.runtimes.lookup fd = some runtime)
    (calling : runtime.calling = .asking question (some (reply, told)))
    (subscription : Subscription json)
    (isAbout : (runtime.receive question reply.data told).calling.subscription =
      some subscription) : subscription.name = runtime.name := by
  cases question with
  | subscribe asked =>
      cases isOk : saysOk json reply.data with
      | true =>
          cases isPort : publisherPort json reply.data with
          | none => simp [Runtime.receive, isOk, isPort, Calling.subscription] at isAbout
          | some port =>
              simp only [Runtime.receive, isOk, isPort] at isAbout
              exact named.calling fd runtime found subscription (by rw [calling]; exact isAbout)
      | false => simp [Runtime.receive, isOk, Calling.subscription] at isAbout
  | advertise advertisement =>
      cases isOk : saysOk json reply.data <;>
        simp [Runtime.receive, isOk, Calling.subscription] at isAbout
  | provideMethod content | queryMethod content =>
      simp [Runtime.receive, Calling.subscription] at isAbout

theorem Named.step {event : NetworkEvent json} (named : network.Named) (known : network.Known)
    (move : Move network event next) : next.Named := by
  have older := named.calling
  constructor
  · have sameCall {fd : Fd} {runtime later : Runtime json}
        (found : network.runtimes.lookup fd = some runtime)
        (same : later.calling.subscription = runtime.calling.subscription)
        (name : later.name = runtime.name) (subscription : Subscription json)
        (isAbout : later.calling.subscription = some subscription) :
        subscription.name = later.name := by
      rw [name]
      exact older fd runtime found subscription (same ▸ isAbout)
    -- most calls are about no subscription
    have silent {later : Runtime json} (nothing : later.calling.subscription = none)
        (subscription : Subscription json)
        (isAbout : later.calling.subscription = some subscription) :
        subscription.name = later.name := by
      simp [nothing] at isAbout
    cases move with
    | rejected | broke | masterMoved | keptAlive => exact older
    | exited found | answered found | delivered found =>
        exact forall_insert (sameCall (running_eq_some.mp found).1 rfl rfl) older
    | listened found =>
        exact forall_insert
          (sameCall (running_eq_some.mp found).1 (Calling.goOn_subscription ..) rfl) older
    | joined | refused | lost | stored | denied | published | sent | missed | finished =>
        exact forall_insert (silent rfl) older
    | @asked fd question runtime found idle isFrom =>
        refine forall_insert (fun subscription isAbout => ?_) older
        cases question with
        | subscribe asked =>
            obtain rfl := Option.some.inj isAbout
            exact of_decide_eq_true isFrom
        | advertise | provideMethod | queryMethod => simp [Calling.subscription] at isAbout
    | @served fd reply runtime question master found isAsking served =>
        refine forall_insert (sameCall found ?_ rfl) older
        rw [isAsking]
        cases question <;> rfl
    | received found isAsking =>
        refine forall_insert (fun subscription isAbout => ?_) older
        rw [Runtime.receive_name]
        exact named.receive (running_eq_some.mp found).1 isAsking subscription isAbout
    | connected found isConnecting =>
        refine forall_insert (sameCall (running_eq_some.mp found).1 ?_ rfl) older
        rw [isConnecting]
        rfl
  · intro linkFd later laterFound
    rcases (move.origin laterFound).continues with ⟨link, found, continues⟩ |
      ⟨fd, runtime, port, found, isConnecting, rfl, -⟩
    · obtain ⟨runtime, runtimeFound, name⟩ := named.links linkFd link found
      obtain ⟨after, afterFound, sameName, -⟩ := (move.grows known).runtimes runtimeFound
      rw [continues.subscriber, continues.subscription]
      exact ⟨after, afterFound, sameName.trans name⟩
    · have runtimeFound := (running_eq_some.mp found).1
      obtain ⟨after, afterFound, sameName, -⟩ := (move.grows known).runtimes runtimeFound
      have name := older _ runtime runtimeFound later.subscription (by rw [isConnecting]; rfl)
      exact ⟨after, afterFound, sameName.trans name.symm⟩

theorem Named.of_reachable (reachable : (networkSystem json).Reachable network) :
    network.Named := by
  refine reachable.invariant_of_reachable Named ?_ ?_
  · intro network initial
    constructor
    · simp [initial.runtimes]
    · simp [initial.links]
  · intro network event next reachable named moved
    exact named.step (.of_reachable reachable) (step_move moved)

/-- The listening thread of the publisher has just accepted the subscription
of this name to this topic on the connection. -/
def Accepts (network : Network json) (event : NetworkEvent json) (fd : Fd) (topic name : Bytes)
    (linkFd : Fd) : Prop :=
  ∃ rest runtime link, event = .listen fd linkFd rest ∧ network.running fd = some runtime ∧
    network.links.lookup linkFd = some link ∧ link.publisher = fd ∧
      link.subscription.topic = topic ∧ link.subscription.name = name ∧
        (subscribe json runtime.pubList linkFd link.subscription.text).2 = .ok

theorem receive_recorded {runtime : Runtime json} {question : Question json} {content : Bytes}
    {told : Option Told} {topic name : Bytes} {linkFd : Fd}
    (found : (runtime.receive question content told).recorded topic name = some linkFd) :
    runtime.recorded topic name = some linkFd := by
  unfold Runtime.receive at found
  split at found
  · obtain ⟨pubEventInfo, listed, isRecorded⟩ := Option.bind_eq_some_iff.mp found
    rw [lookup_insert] at listed
    split_ifs at listed
    · obtain rfl := Option.some.inj listed
      simp at isRecorded
    · exact Option.bind_eq_some_iff.mpr ⟨pubEventInfo, listed, isRecorded⟩
  · split at found <;> exact found
  · exact found

/-- Only an accepted subscription is new in the tables. -/
theorem Move.recorded (roundTrips : json.RoundTrips) {event : NetworkEvent json}
    (move : Move network event next) {fd : Fd} {topic name : Bytes} {linkFd : Fd}
    (found : next.recorded fd topic name = some linkFd) :
    network.recorded fd topic name = some linkFd ∨
      network.Accepts event fd topic name linkFd := by
  obtain ⟨later, laterFound, isRecorded⟩ := Option.bind_eq_some_iff.mp found
  have changed {other : Fd} {runtime changed : Runtime json}
      (runtimeFound : network.runtimes.lookup other = some runtime)
      (changedFound : (network.runtimes.insert other changed).lookup fd = some later)
      (older : changed.recorded topic name = some linkFd →
        runtime.recorded topic name = some linkFd) :
      network.recorded fd topic name = some linkFd := by
    rw [lookup_insert] at changedFound
    split_ifs at changedFound with isOther
    · obtain rfl := Option.some.inj changedFound
      exact Option.bind_eq_some_iff.mpr ⟨runtime, isOther ▸ runtimeFound, older isRecorded⟩
    · exact Option.bind_eq_some_iff.mpr ⟨later, changedFound, isRecorded⟩
  cases move with
  | rejected | broke | masterMoved | keptAlive => exact Or.inl found
  | joined accepted isOk =>
      change (network.runtimes.insert _ _).lookup fd = some later at laterFound
      rw [lookup_insert] at laterFound
      split_ifs at laterFound
      · obtain rfl := Option.some.inj laterFound
        simp [Runtime.recorded] at isRecorded
      · exact Or.inl (Option.bind_eq_some_iff.mpr ⟨later, laterFound, isRecorded⟩)
  | @listened fd' linkFd' rest runtime link runtimeFound linkFound publisher unanswered =>
      change (network.runtimes.insert _ _).lookup fd = some later at laterFound
      rw [lookup_insert] at laterFound
      split_ifs at laterFound with isListener
      · obtain rfl := Option.some.inj laterFound
        subst isListener
        obtain ⟨pubEventInfo, listed, isEntry⟩ := Option.bind_eq_some_iff.mp isRecorded
        obtain ⟨before, older, -, entries⟩ := subscription_recorded roundTrips _ listed
        rcases entries name linkFd isEntry with earlier | ⟨rfl, isName, isTopic, -, isOk⟩
        · exact Or.inl (Option.bind_eq_some_iff.mpr ⟨runtime, (running_eq_some.mp runtimeFound).1,
            Option.bind_eq_some_iff.mpr ⟨before, older, earlier⟩⟩)
        · exact Or.inr ⟨rest, runtime, link, rfl, runtimeFound, linkFound, publisher, isTopic.symm,
            isName.symm, isOk⟩
      · exact Or.inl (Option.bind_eq_some_iff.mpr ⟨later, laterFound, isRecorded⟩)
  | finished runtimeFound calling =>
      refine Or.inl (changed (running_eq_some.mp runtimeFound).1 laterFound fun isRecorded => ?_)
      obtain ⟨pubEventInfo, listed, isEntry⟩ := Option.bind_eq_some_iff.mp isRecorded
      rw [lookup_modify] at listed
      obtain ⟨before, beforeListed, rfl⟩ := Option.map_eq_some_iff.mp listed
      refine Option.bind_eq_some_iff.mpr ⟨before, beforeListed, ?_⟩
      split_ifs at isEntry
      · exact lookup_of_lookup_erases isEntry
      · exact isEntry
  | served runtimeFound => exact Or.inl (changed runtimeFound laterFound id)
  | received runtimeFound =>
      exact Or.inl (changed (running_eq_some.mp runtimeFound).1 laterFound receive_recorded)
  | exited runtimeFound | asked runtimeFound | connected runtimeFound | refused runtimeFound
  | lost runtimeFound | answered runtimeFound | stored runtimeFound | denied runtimeFound
  | published runtimeFound | sent runtimeFound | missed runtimeFound | delivered runtimeFound =>
      exact Or.inl (changed (running_eq_some.mp runtimeFound).1 laterFound id)

/-- A recorded connection carries a subscription of that name to that topic,
and has been answered OK. -/
def RecordsAccepted (network : Network json) : Prop :=
  ∀ fd topic name linkFd, network.recorded fd topic name = some linkFd →
    ∃ link, network.links.lookup linkFd = some link ∧ link.publisher = fd ∧
      link.subscription.topic = topic ∧ link.subscription.name = name ∧ link.answer = some .ok

theorem RecordsAccepted.step (roundTrips : json.RoundTrips) {event : NetworkEvent json}
    (records : network.RecordsAccepted) (known : network.Known)
    (move : Move network event next) : next.RecordsAccepted := by
  intro fd topic name linkFd isRecorded
  rcases move.recorded roundTrips isRecorded with
    older | ⟨rest, runtime, link, rfl, runtimeFound, found, publisher, isTopic, isName, isOk⟩
  · obtain ⟨link, found, rfl, rfl, rfl, isOk⟩ := records fd topic name linkFd older
    obtain ⟨later, laterFound, continues⟩ := (move.grows known).links found
    exact ⟨later, laterFound, continues.publisher, by rw [continues.subscription],
      by rw [continues.subscription], continues.answer _ isOk⟩
  · obtain ⟨later, laterFound, continues⟩ := (move.grows known).links found
    refine ⟨later, laterFound, continues.publisher.trans publisher,
      by rw [continues.subscription, isTopic], by rw [continues.subscription, isName], ?_⟩
    cases move with
    | listened runtimeFound' found' =>
        obtain rfl := Option.some.inj (runtimeFound.symm.trans runtimeFound')
        obtain rfl := Option.some.inj (found.symm.trans found')
        change (network.links.insert _ _).lookup linkFd = some later at laterFound
        rw [lookup_insert, if_pos rfl] at laterFound
        obtain rfl := Option.some.inj laterFound
        exact congrArg some isOk

end Network

def Runtime.Holds (runtime : Runtime json) (subscription : Subscription json) (linkFd : Fd) :
    Prop :=
  runtime.calling = .awaiting subscription linkFd ∨
    (runtime.subList.lookup subscription.topic).map SubEventInfo.socket = some linkFd

/-- A runtime that waits for no publisher goes on as long as it keeps its
`sub_list_`. -/
theorem Runtime.Holds.keep {before later : Runtime json} {subscription : Subscription json}
    {linkFd : Fd} (isHeld : before.Holds subscription linkFd)
    (notAwaiting : before.calling.awaited = none) (subList : later.subList = before.subList) :
    later.Holds subscription linkFd := by
  rcases isHeld with isAwaiting | isStored
  · simp [isAwaiting, Calling.awaited] at notAwaiting
  · exact Or.inr (subList ▸ isStored)

namespace Network

def Holds (network : Network json) (fd : Fd) (subscription : Subscription json) (linkFd : Fd) :
    Prop :=
  ∃ runtime, network.running fd = some runtime ∧ runtime.Holds subscription linkFd

/-- A subscription goes on until an event ends it. -/
theorem Move.holds {event : NetworkEvent json} (move : Move network event next)
    (known : network.Known) {linkFd : Fd} {link : Link json}
    (found : network.links.lookup linkFd = some link)
    (holds : network.Holds link.subscriber link.subscription linkFd)
    (goesOn : linkFd ∉ network.ended event) :
    next.Holds link.subscriber link.subscription linkFd := by
  obtain ⟨runtime, runtimeFound, isHeld⟩ := holds
  obtain ⟨entryFound, running⟩ := running_eq_some.mp runtimeFound
  have changed {other : Fd} {before later : Runtime json} {network' : Network json}
      (same : network'.runtimes = network.runtimes)
      (beforeFound : network.runtimes.lookup other = some before)
      (stillRunning : later.running = before.running)
      (keeps : other = link.subscriber →
        before.Holds link.subscription linkFd → later.Holds link.subscription linkFd) :
      (network'.setRuntime other later).Holds link.subscriber link.subscription linkFd := by
    by_cases isOther : link.subscriber = other
    · obtain rfl := Option.some.inj ((isOther ▸ entryFound).symm.trans beforeFound)
      refine ⟨later, running_eq_some.mpr ⟨?_, stillRunning.trans running⟩,
        keeps isOther.symm isHeld⟩
      rw [lookup_setRuntime, if_pos isOther]
    · refine ⟨runtime, running_eq_some.mpr ⟨?_, running⟩, isHeld⟩
      rw [lookup_setRuntime, if_neg isOther, same]
      exact entryFound
  cases move with
  | rejected | broke | masterMoved | keptAlive => exact ⟨runtime, runtimeFound, isHeld⟩
  | @joined fd name port peer text reply master accepted isOk =>
      have older : link.subscriber ≠ fd := by
        rintro rfl
        exact (accept_fresh accepted).1 (known _ (mem_of_lookup entryFound))
      refine ⟨runtime, running_eq_some.mpr ⟨?_, running⟩, isHeld⟩
      rw [lookup_setRuntime, if_neg older]
      exact entryFound
  | @exited fd exiting master exitFound closed =>
      have other : link.subscriber ≠ fd := by
        rintro rfl
        exact goesOn (by simp [ended, found, Finmap.mem_keys, mem_of_lookup found])
      refine ⟨runtime, running_eq_some.mpr ⟨?_, running⟩, isHeld⟩
      rw [lookup_setRuntime, if_neg other]
      exact entryFound
  | served before calling =>
      exact changed rfl before rfl fun _ isHeld => isHeld.keep (by rw [calling]; rfl) rfl
  | asked before calling =>
      exact changed rfl (running_eq_some.mp before).1 rfl fun _ isHeld =>
        isHeld.keep (by rw [calling]; rfl) rfl
  | received before calling =>
      exact changed rfl (running_eq_some.mp before).1 (Runtime.receive_running ..) fun _ isHeld =>
        isHeld.keep (by rw [calling]; rfl) (Runtime.receive_subList ..)
  | connected before calling =>
      exact changed rfl (running_eq_some.mp before).1 rfl fun _ isHeld =>
        isHeld.keep (by rw [calling]; rfl) rfl
  | refused before calling =>
      exact changed rfl (running_eq_some.mp before).1 rfl fun _ isHeld =>
        isHeld.keep (by rw [calling]; rfl) rfl
  | @lost fd linkFd' before subscription link' beforeFound calling linkFound notOpen =>
      refine changed rfl (running_eq_some.mp beforeFound).1 rfl fun _ isHeld => ?_
      rcases isHeld with isAwaiting | isStored
      · obtain ⟨rfl, rfl⟩ := Calling.awaiting.inj (calling.symm.trans isAwaiting)
        exact absurd (by simp [ended, awaited, beforeFound, calling, Calling.awaited]) goesOn
      · exact Or.inr isStored
  | listened before =>
      exact changed rfl (running_eq_some.mp before).1 rfl fun _ isHeld =>
        isHeld.imp_left Calling.goOn_eq_awaiting.mpr
  | answered before | delivered before =>
      exact changed rfl (running_eq_some.mp before).1 rfl fun _ => id
  | @stored fd linkFd' before subscription link' frame stream beforeFound calling linkFound streamEq
      isOk =>
      refine changed rfl (running_eq_some.mp beforeFound).1 rfl fun _ isHeld => Or.inr ?_
      rcases isHeld with isAwaiting | isStored
      · obtain ⟨rfl, rfl⟩ := Calling.awaiting.inj (calling.symm.trans isAwaiting)
        rw [lookup_insert, if_pos rfl]
        rfl
      · have otherTopic : link.subscription.topic ≠ subscription.topic := by
          intro same
          rw [same] at isStored
          -- the entry that is replaced has ended
          exact goesOn (by
            simp [ended, subscribed, beforeFound, calling, linkFound, streamEq, isOk, isStored])
        rw [lookup_insert, if_neg otherTopic]
        exact isStored
  | @denied fd linkFd' before subscription link' frame stream beforeFound calling linkFound streamEq
      isOk =>
      refine changed rfl (running_eq_some.mp beforeFound).1 rfl fun _ isHeld => ?_
      rcases isHeld with isAwaiting | isStored
      · obtain ⟨rfl, rfl⟩ := Calling.awaiting.inj (calling.symm.trans isAwaiting)
        exact absurd (by simp [ended, beforeFound, calling, linkFound, streamEq, isOk]) goesOn
      · exact Or.inr isStored
  | published before calling =>
      exact changed rfl (running_eq_some.mp before).1 rfl fun _ isHeld =>
        isHeld.keep (by rw [calling]; rfl) rfl
  | sent before visit | missed before visit =>
      exact changed rfl (running_eq_some.mp before).1 rfl fun _ isHeld =>
        isHeld.keep (by rw [(toVisit_eq_some visit).1]; rfl) rfl
  | finished before calling =>
      exact changed rfl (running_eq_some.mp before).1 rfl fun _ isHeld =>
        isHeld.keep (by rw [calling]; rfl) rfl

/-- A subscription that has not ended goes on, unless it has been denied. -/
def Current (network : Network json) (ended : Finset Fd) : Prop :=
  ∀ linkFd link, network.links.lookup linkFd = some link → linkFd ∉ ended →
    link.answer = none ∨ link.answer = some .ok →
      link.broken = false ∧ network.Holds link.subscriber link.subscription linkFd

theorem Current.step {event : NetworkEvent json} {ended : Finset Fd}
    (current : network.Current ended) (known : network.Known) (move : Move network event next) :
    next.Current (ended ∪ network.ended event) := by
  intro linkFd later laterFound notEnded isAnswer
  obtain ⟨notBefore, notNow⟩ : linkFd ∉ ended ∧ linkFd ∉ network.ended event := by
    simpa [not_or] using notEnded
  cases move.origin laterFound with
  | connected isConnect runtimeFound calling =>
      subst isConnect
      cases move with
      | @connected fd linkFd publisherFd runtime subscription port told publisher found =>
          change (network.links.insert _ _).lookup linkFd = some _ at laterFound
          rw [lookup_insert, if_pos rfl] at laterFound
          obtain rfl := (Link.mk.inj (Option.some.inj laterFound)).2.2.1
          refine ⟨rfl, { runtime with calling := .awaiting subscription linkFd },
            running_eq_some.mpr ⟨?_, (running_eq_some.mp found).2⟩, Or.inl rfl⟩
          rw [lookup_setRuntime, if_pos rfl]
  | used stream polled found =>
      obtain ⟨notBroken, holds⟩ := current linkFd _ found notBefore isAnswer
      have goesOn := move.holds known found holds notNow
      exact ⟨notBroken, goesOn⟩
  | broke isBreak found =>
      subst isBreak
      exact absurd (Finset.mem_singleton_self linkFd) notNow
  | answered isListen runtimeFound found unanswered =>
      obtain ⟨notBroken, holds⟩ := current linkFd _ found notBefore (Or.inl unanswered)
      have goesOn := move.holds known found holds notNow
      exact ⟨notBroken, goesOn⟩

theorem Current.of_reachable {ended : Finset Fd}
    (reachable : (subscriptionSystem json).Reachable (network, ended)) :
    network.Current ended := by
  refine reachable.invariant_of_reachable (fun state => state.1.Current state.2) ?_ ?_
  · rintro ⟨network, ended⟩ ⟨initial, -⟩ linkFd link found
    rw [Initial.links initial] at found
    simp at found
  · rintro ⟨network, ended⟩ event ⟨next, ended'⟩ reachable current moved
    obtain ⟨performed, rfl⟩ := EventSystem.step_observe.mp moved
    exact current.step (.of_reachable reachable.of_observe) (step_move performed)

theorem RecordsAccepted.of_reachable (roundTrips : json.RoundTrips)
    (reachable : (networkSystem json).Reachable network) : network.RecordsAccepted := by
  refine reachable.invariant_of_reachable RecordsAccepted ?_ ?_
  · intro network initial fd topic name linkFd isRecorded
    simp [recorded, initial.runtimes] at isRecorded
  · intro network event next reachable records moved
    exact records.step roundTrips (.of_reachable reachable) (step_move moved)

/-- What a running publisher has recorded is an established subscription, if it
has not ended and its reply has been read. -/
theorem established_of_recorded (roundTrips : json.RoundTrips) {ended : Finset Fd}
    (reachable : (subscriptionSystem json).Reachable (network, ended)) {fd linkFd : Fd}
    {topic name : Bytes} {publisher : Runtime json} (running : network.running fd = some publisher)
    (isRecorded : network.recorded fd topic name = some linkFd) (notEnded : linkFd ∉ ended)
    (replied : ∀ link ∈ network.links.lookup linkFd,
      network.awaited link.subscriber ≠ some linkFd) : network.Established linkFd topic name := by
  have records : network.RecordsAccepted := .of_reachable roundTrips reachable.of_observe
  have named : network.Named := .of_reachable reachable.of_observe
  have current : network.Current ended := .of_reachable reachable
  obtain ⟨link, found, rfl, rfl, rfl, isOk⟩ := records fd topic name linkFd isRecorded
  obtain ⟨notBroken, runtime, runtimeFound, isHeld⟩ :=
    current linkFd link found notEnded (Or.inr isOk)
  have isStored : network.subscribed link.subscriber link.subscription.topic = some linkFd := by
    rcases isHeld with isAwaiting | isStored
    · have waits : network.awaited link.subscriber = some linkFd := by
        simp [awaited, runtimeFound, isAwaiting, Calling.awaited]
      exact absurd waits (replied link found)
    · simpa [subscribed, runtimeFound] using isStored
  obtain ⟨runtime', runtimeFound', name⟩ := named.links linkFd link found
  obtain rfl := Option.some.inj ((running_eq_some.mp runtimeFound).1.symm.trans runtimeFound')
  exact ⟨link, found, ⟨notBroken, by simp [runtimeFound], by simp [running]⟩, isStored, runtime,
    runtimeFound, name⟩

/-- As long as publishers only handle subscriptions whose earlier ones are
current, a DUPLICATE tells of an established subscription. -/
theorem duplicates_established (roundTrips : json.RoundTrips) {ended ended' : Finset Fd}
    (reachable : ((subscriptionSystem json).restrict HandlesCurrent).Reachable (network, ended))
    {fd linkFd : Fd} {rest : List Bytes}
    (moved : ((subscriptionSystem json).restrict HandlesCurrent).step (network, ended)
      (.listen fd linkFd rest) = some (next, ended')) {link : Link json}
    (found : next.links.lookup linkFd = some link) (isDuplicate : link.answer = some .duplicate) :
    ∃ earlier, network.recorded fd link.subscription.topic link.subscription.name =
        some earlier ∧
      network.Established earlier link.subscription.topic link.subscription.name := by
  obtain ⟨guarded, moved⟩ := EventSystem.step_restrict.mp moved
  obtain ⟨performed, -⟩ := EventSystem.step_observe.mp moved
  have move : Move network (.listen fd linkFd rest) next := step_move performed
  cases move with
  | @listened _ _ _ runtime before running beforeFound publisher unanswered =>
      change (network.links.insert _ _).lookup linkFd = some link at found
      rw [lookup_insert, if_pos rfl] at found
      obtain rfl := Option.some.inj found
      have answered := Option.some.inj isDuplicate
      rw [before.subscription.subscribe_text roundTrips] at answered
      split at answered
      · simp at answered
      · rename_i pubEventInfo listed
        split_ifs at answered with wrongType isKnown
        obtain ⟨earlier, entry⟩ := mem_iff.mp isKnown
        have isRecorded : network.recorded fd before.subscription.topic
            before.subscription.name = some earlier := by
          simp [recorded, Runtime.recorded, (running_eq_some.mp running).1, listed, entry]
        obtain ⟨notEnded, replied⟩ := guarded before beforeFound earlier isRecorded
        exact ⟨earlier, isRecorded, established_of_recorded roundTrips reachable.of_restrict
          running isRecorded notEnded replied⟩

end Network

def NetworkEvent.isQuiet : NetworkEvent json → Bool
  | .exit _ | .breakLink _ | .loseReply _ | .readReply _ | .listen .. => false
  | _ => true

theorem steps_quiet {events : List (NetworkEvent json)} (quiet : ∀ event ∈ events, event.isQuiet)
    (network : Network json) (ended : Finset Fd) :
    ((subscriptionSystem json).restrict HandlesCurrent).steps (network, ended) events =
      ((networkSystem json).steps network events).map fun next => (next, ended) := by
  rw [EventSystem.steps_restrict, subscriptionSystem, EventSystem.steps_observe]
  · intro event member network ended
    have isQuiet := quiet event member
    cases event <;> first | exact Finset.union_empty _ | simp [NetworkEvent.isQuiet] at isQuiet
  · rintro event member ⟨network, ended⟩
    have isQuiet := quiet event member
    cases event <;> trivial

theorem reachable_quiet {network next : Network json} {ended : Finset Fd}
    {events : List (NetworkEvent json)}
    (reachable : ((subscriptionSystem json).restrict HandlesCurrent).Reachable (network, ended))
    (quiet : ∀ event ∈ events, event.isQuiet)
    (performed : (networkSystem json).steps network events = some next) :
    ((subscriptionSystem json).restrict HandlesCurrent).Reachable (next, ended) := by
  obtain ⟨history, run⟩ := reachable
  have moved : ((subscriptionSystem json).restrict HandlesCurrent).steps (network, ended) events =
      some (next, ended) := by
    rw [steps_quiet quiet, performed]
    rfl
  exact ⟨_, run.extend moved⟩

abbrev sampleSystem : EventSystem (Network JsonLibrary.plain × Finset Fd)
    (NetworkEvent JsonLibrary.plain) :=
  (subscriptionSystem JsonLibrary.plain).restrict HandlesCurrent

def linked : Network JsonLibrary.plain :=
  (networkSystem JsonLibrary.plain).after
    (((networkSystem JsonLibrary.plain).after .started requesting).pollReady [5, 6]) connecting

def asksAgain (network : Network JsonLibrary.plain) : Network JsonLibrary.plain :=
  (networkSystem JsonLibrary.plain).after
    { network with master := { network.master with phase := .passStart } }
    [.master .proceed, .master .proceed, .master .proceed, .master .proceed,
      .ask 6 (.subscribe sampleSubscription)]

@[irreducible]
def relinked (network : Network JsonLibrary.plain) : Network JsonLibrary.plain :=
  (networkSystem JsonLibrary.plain).after ((asksAgain network).pollReady [6])
    [.master .proceed, .serve 6 foundReply, .readAnswer 6, .connect 6 8 5]

theorem linked_reachable : sampleSystem.Reachable (linked, ∅) := by
  have start : sampleSystem.Reachable (Network.started, ∅) :=
    ⟨[], .initial ⟨Network.started_initial, rfl⟩⟩
  have asked := reachable_quiet start (by decide)
    (EventSystem.steps_after (by decide +kernel) :
      (networkSystem JsonLibrary.plain).steps .started requesting = _)
  have polled := reachable_quiet asked (by decide)
    (Network.steps_pollReady (by decide +kernel) [5, 6])
  exact reachable_quiet polled (by decide) (EventSystem.steps_after (by decide +kernel))

theorem relinked_reachable {network : Network JsonLibrary.plain} {ended : Finset Fd}
    (reachable : sampleSystem.Reachable (network, ended))
    (scanning : network.master.phase = .scanning 2 ∧
      network.master.pollFdList.length = 2 + 1022 ∧
      ∀ pollFd ∈ network.master.pollFdList.drop 2, pollFd.readable = false)
    (possible : ((networkSystem JsonLibrary.plain).steps
        { network with master := { network.master with phase := .passStart } }
        [.master .proceed, .master .proceed, .master .proceed, .master .proceed,
          .ask 6 (.subscribe sampleSubscription)]).isSome ∧
      (asksAgain network).master.phase = .beforePoll ∧
      ((networkSystem JsonLibrary.plain).steps ((asksAgain network).pollReady [6])
        [.master .proceed, .serve 6 foundReply, .readAnswer 6, .connect 6 8 5]).isSome) :
    sampleSystem.Reachable (relinked network, ended) := by
  obtain ⟨phase, length, nothing⟩ := scanning
  obtain ⟨asks, ready, links⟩ := possible
  have scanned := reachable_quiet reachable
    (fun event member => by rw [List.eq_of_mem_replicate member]; rfl)
    (Network.steps_scan phase length nothing)
  have asked := reachable_quiet scanned (by decide) (EventSystem.steps_after asks)
  have polled := reachable_quiet asked (by decide) (Network.steps_pollReady ready [6])
  unfold relinked
  exact reachable_quiet polled (by decide) (EventSystem.steps_after links)

@[irreducible]
def confirmed : Network JsonLibrary.plain × Finset Fd :=
  sampleSystem.after (linked, ∅) [.listen 5 7 [], .answer 5, .readReply 6]

/-- The first subscription is accepted, but the connection breaks before the
subscriber has read the reply. -/
@[irreducible]
def unconfirmed : Network JsonLibrary.plain × Finset Fd :=
  sampleSystem.after (linked, ∅) [.listen 5 7 [], .breakLink 7, .answer 5, .loseReply 6]

theorem confirmed_reachable :
    sampleSystem.Reachable (relinked confirmed.1, confirmed.2) := by
  obtain ⟨_, run⟩ := linked_reachable
  have possible :
      (sampleSystem.steps (linked, ∅) [.listen 5 7 [], .answer 5, .readReply 6]).isSome := by
    decide +kernel
  have handled : sampleSystem.Reachable confirmed := by
    unfold confirmed
    exact ⟨_, run.extend (EventSystem.steps_after possible)⟩
  exact relinked_reachable handled (by decide +kernel) (by decide +kernel)

theorem unconfirmed_reachable :
    sampleSystem.Reachable (relinked unconfirmed.1, unconfirmed.2) := by
  obtain ⟨_, run⟩ := linked_reachable
  have possible : (sampleSystem.steps (linked, ∅)
      [.listen 5 7 [], .breakLink 7, .answer 5, .loseReply 6]).isSome := by
    decide +kernel
  have handled : sampleSystem.Reachable unconfirmed := by
    unfold unconfirmed
    exact ⟨_, run.extend (EventSystem.steps_after possible)⟩
  exact relinked_reachable handled (by decide +kernel) (by decide +kernel)

/-- A subscriber that asks twice is told that it has subscribed. -/
theorem duplicates_established_sample : ∃ (network next : Network JsonLibrary.plain)
    (link : Link JsonLibrary.plain), network.step (.listen 5 8 []) = some next ∧
      next.links.lookup 8 = some link ∧ link.answer = some .duplicate ∧
        ∃ earlier, network.recorded 5 (ascii "t") (ascii "b") = some earlier ∧
          network.Established earlier (ascii "t") (ascii "b") := by
  have answered : (sampleSystem.step (relinked confirmed.1, confirmed.2) (.listen 5 8 [])).any
      fun next => decide (∃ link ∈ next.1.links.lookup 8, link.answer = some .duplicate ∧
        link.subscription.topic = ascii "t" ∧ link.subscription.name = ascii "b") := by
    decide +kernel
  obtain ⟨⟨next, ended⟩, moved, isAnswered⟩ := (Option.any_eq_true _ _).mp answered
  obtain ⟨link, found, isDuplicate, isTopic, isName⟩ := of_decide_eq_true isAnswered
  obtain ⟨earlier, isRecorded, established⟩ := Network.duplicates_established
    JsonLibrary.plain_roundTrips confirmed_reachable moved found isDuplicate
  rw [isTopic, isName] at isRecorded established
  have performed := (EventSystem.step_observe.mp (EventSystem.step_restrict.mp moved).2).1
  exact ⟨relinked confirmed.1, next, link, performed, found, isDuplicate, earlier, isRecorded,
    established⟩

/-- A subscriber whose connection broke before it had read the reply is told
that it has subscribed. -/
theorem duplicates_not_established : ∃ (network next : Network JsonLibrary.plain)
    (link : Link JsonLibrary.plain), (networkSystem JsonLibrary.plain).Reachable network ∧
      network.step (.listen 5 8 []) = some next ∧ next.links.lookup 8 = some link ∧
        link.answer = some .duplicate ∧ ∀ earlier,
          ¬ network.Established earlier link.subscription.topic link.subscription.name := by
  have answered : ((relinked unconfirmed.1).step (.listen 5 8 [])).any
      fun next => decide (∃ link ∈ next.links.lookup 8, link.answer = some .duplicate ∧
        ∀ fd ∈ (relinked unconfirmed.1).runtimes.keys,
          (relinked unconfirmed.1).subscribed fd link.subscription.topic = none) := by
    decide +kernel
  obtain ⟨next, moved, isAnswered⟩ := (Option.any_eq_true _ _).mp answered
  obtain ⟨link, found, isDuplicate, nothing⟩ := of_decide_eq_true isAnswered
  refine ⟨relinked unconfirmed.1, next, link, unconfirmed_reachable.of_restrict.of_observe, moved,
    found, isDuplicate, ?_⟩
  rintro earlier ⟨link', -, -, isStored, runtime, running, -⟩
  have member : link'.subscriber ∈ (relinked unconfirmed.1).runtimes.keys :=
    Finmap.mem_keys.mpr (mem_of_lookup (Network.running_eq_some.mp running).1)
  rw [nothing link'.subscriber member] at isStored
  simp at isStored

end UBus
