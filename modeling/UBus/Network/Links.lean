import UBus.Network.Duplicates

/-!
# Connections and those who use them

A runtime refers to connections from four places: the subscription that it has
handled and not answered, the reply that it waits for, its `sub_list_`, and,
through `pub_list_`, the loop over the subscribers of an event.  This file says
what the connections are in each of these places.
-/

namespace UBus

open FiniteMap

variable {json : JsonLibrary}

def Runtime.roundOf (runtime : Runtime json) (topic : Bytes) : Option Round :=
  match runtime.calling with
  | .publishing round => if round.publication.topic = topic then some round else none
  | _ => none

theorem Runtime.roundOf_eq_some {runtime : Runtime json} {topic : Bytes} {round : Round} :
    runtime.roundOf topic = some round ↔
      runtime.calling = .publishing round ∧ round.publication.topic = topic := by
  unfold roundOf
  split
  · rename_i other calling
    rw [Option.ite_none_right_eq_some, Option.some.injEq, calling, Calling.publishing.injEq]
    constructor
    · rintro ⟨isTopic, rfl⟩
      exact ⟨rfl, isTopic⟩
    · rintro ⟨rfl, isTopic⟩
      exact ⟨isTopic, rfl⟩
  · rename_i notPublishing
    simp only [reduceCtorEq, false_iff, not_and]
    exact fun calling => absurd calling (notPublishing round)

theorem Runtime.roundOf_eq_none {runtime : Runtime json}
    (notPublishing : ∀ round, runtime.calling ≠ .publishing round) (topic : Bytes) :
    runtime.roundOf topic = none := by
  rw [Option.eq_none_iff_forall_ne_some]
  exact fun round isRound => notPublishing round (roundOf_eq_some.mp isRound).1

theorem Runtime.exists_recorded_of_mem {runtime : Runtime json} {topic name : Bytes}
    (member : name ∈ subscribersOf runtime.pubList topic) :
    ∃ linkFd, runtime.recorded topic name = some linkFd := by
  unfold subscribersOf at member
  cases listed : runtime.pubList.lookup topic with
  | none =>
      rw [listed] at member
      exact absurd member Finmap.notMem_empty
  | some pubEventInfo =>
      rw [listed] at member
      obtain ⟨linkFd, entry⟩ := mem_iff.mp member
      exact ⟨linkFd, Option.bind_eq_some_iff.mpr ⟨pubEventInfo, listed, entry⟩⟩

theorem Runtime.mem_of_recorded {runtime : Runtime json} {topic name : Bytes} {linkFd : Fd}
    (isRecorded : runtime.recorded topic name = some linkFd) :
    name ∈ subscribersOf runtime.pubList topic := by
  obtain ⟨pubEventInfo, listed, entry⟩ := Option.bind_eq_some_iff.mp isRecorded
  rw [subscribersOf, listed]
  exact mem_of_lookup entry

/-- The loop visits recorded subscribers only, and each of them once. -/
structure Runtime.Visits (runtime : Runtime json) (round : Round) : Prop where
  once : round.remaining.Nodup
  ahead : ∀ name ∈ round.remaining, name ∉ round.visited
  recorded : ∀ name, name ∈ round.remaining ∨ name ∈ round.visited →
    ∃ linkFd, runtime.recorded round.publication.topic name = some linkFd

theorem Runtime.Visits.visit {runtime later : Runtime json} {round : Round} {name : Bytes}
    {linkFd : Fd} (visits : runtime.Visits round)
    (isRecorded : runtime.recorded round.publication.topic name = some linkFd)
    (same : later.pubList = runtime.pubList) : later.Visits (round.visit name) where
  once := visits.once.erase name
  ahead other member := by
    obtain ⟨isOther, remains⟩ := visits.once.mem_erase_iff.mp member
    simpa [Round.visit, isOther] using visits.ahead other remains
  recorded other member := by
    have sameRecords : later.recorded (round.visit name).publication.topic other =
        runtime.recorded round.publication.topic other := by
      unfold Runtime.recorded
      rw [same]
      rfl
    rw [sameRecords]
    rcases member with remains | visited
    · exact visits.recorded other (Or.inl (List.mem_of_mem_erase remains))
    · rcases List.mem_cons.mp visited with rfl | earlier
      · exact ⟨linkFd, isRecorded⟩
      · exact visits.recorded other (Or.inr earlier)

@[simp]
theorem Round.bury_publication (round : Round) (name : Bytes) (brokenPipe : Bool) :
    (round.bury name brokenPipe).publication = round.publication := by
  unfold bury
  split <;> rfl

@[simp]
theorem Round.bury_remaining (round : Round) (name : Bytes) (brokenPipe : Bool) :
    (round.bury name brokenPipe).remaining = round.remaining := by
  unfold bury
  split <;> rfl

@[simp]
theorem Round.bury_visited (round : Round) (name : Bytes) (brokenPipe : Bool) :
    (round.bury name brokenPipe).visited = round.visited := by
  unfold bury
  split <;> rfl

theorem Runtime.Visits.bury {runtime : Runtime json} {round : Round} (visits : runtime.Visits round)
    (name : Bytes) (brokenPipe : Bool) : runtime.Visits (round.bury name brokenPipe) where
  once := by simpa using visits.once
  ahead := by simpa using visits.ahead
  recorded := by simpa using visits.recorded

/-- Another subscriber is recorded beside the loop, and it goes on with any of
those that are recorded now. -/
theorem Runtime.Visits.goOn {runtime : Runtime json} {round : Round} (visits : runtime.Visits round)
    (pubList : FiniteMap Bytes PubEventInfo) (rest : List Bytes) :
    runtime.Visits (round.goOn pubList runtime.pubList rest) := by
  unfold Round.goOn
  split_ifs
  · refine ⟨List.nodup_dedup _, ?_, ?_⟩
    · intro name remains visited
      exact (of_decide_eq_true (List.mem_filter.mp visited).2) remains
    · rintro name (remains | visited)
      · have isRecorded := of_decide_eq_true (List.mem_filter.mp (List.mem_dedup.mp remains)).2
        exact exists_recorded_of_mem isRecorded
      · exact visits.recorded name (Or.inr (List.mem_of_mem_filter visited))
  · exact visits

theorem Runtime.Visits.of_grows {runtime later : Runtime json} {round : Round}
    (visits : runtime.Visits round) (grows : ∀ topic name linkFd,
      runtime.recorded topic name = some linkFd → later.recorded topic name = some linkFd) :
    later.Visits round :=
  ⟨visits.once, visits.ahead, fun name member =>
    (visits.recorded name member).imp fun linkFd => grows _ name linkFd⟩

namespace Network

variable {network next : Network json}

theorem step_publish {fd : Fd} {type : UInt32} {publication : Publication} {order : List Bytes}
    (moved : network.step (.publish fd type publication order) = some next) :
    ∃ runtime pubEventInfo, network.running fd = some runtime ∧
      runtime.pubList.lookup publication.topic = some pubEventInfo ∧
        Enumerates order pubEventInfo.clientSocketMap := by
  obtain ⟨runtime, found, moved⟩ := Option.bind_eq_some_iff.mp moved
  split at moved
  · obtain ⟨pubEventInfo, listed, moved⟩ := Option.bind_eq_some_iff.mp moved
    rw [Option.ite_none_right_eq_some] at moved
    exact ⟨runtime, pubEventInfo, found, listed, moved.1.2.2.1⟩
  · simp at moved

theorem step_listen {fd linkFd : Fd} {rest : List Bytes}
    (moved : network.step (.listen fd linkFd rest) = some next) :
    ∃ runtime, network.running fd = some runtime ∧ runtime.listening = none := by
  obtain ⟨runtime, found, moved⟩ := Option.bind_eq_some_iff.mp moved
  obtain ⟨link, linkFound, moved⟩ := Option.bind_eq_some_iff.mp moved
  rw [Option.ite_none_right_eq_some] at moved
  exact ⟨runtime, found, moved.1.2.2⟩

theorem step_finish {fd : Fd} (moved : network.step (.finish fd) = some next) :
    ∃ runtime round, network.running fd = some runtime ∧ runtime.calling = .publishing round ∧
      round.remaining = [] := by
  obtain ⟨runtime, found, moved⟩ := Option.bind_eq_some_iff.mp moved
  split at moved
  · rename_i round calling
    rw [Option.ite_none_right_eq_some] at moved
    exact ⟨runtime, round, found, calling, moved.1⟩
  · simp at moved

theorem step_deliver {fd linkFd : Fd} {order : List Bytes}
    (moved : network.step (.deliver fd linkFd order) = some next) :
    ∃ runtime link, network.running fd = some runtime ∧ network.links.lookup linkFd = some link ∧
      link.polled = true := by
  obtain ⟨runtime, found, moved⟩ := Option.bind_eq_some_iff.mp moved
  obtain ⟨link, linkFound, moved⟩ := Option.bind_eq_some_iff.mp moved
  split at moved
  · simp at moved
  · rw [Option.ite_none_right_eq_some] at moved
    exact ⟨runtime, link, found, linkFound, moved.1.2⟩

structure RuntimeLinked (network : Network json) (fd : Fd) (runtime : Runtime json) : Prop where
  listening : ∀ {linkFd}, runtime.listening = some linkFd →
    ∃ link, network.links.lookup linkFd = some link ∧ link.publisher = fd
  awaiting : ∀ {subscription linkFd}, runtime.calling = .awaiting subscription linkFd →
    ∃ link, network.links.lookup linkFd = some link ∧ link.subscriber = fd ∧
      link.subscription = subscription ∧ link.polled = false
  subscribed : ∀ {topic subEventInfo}, runtime.subList.lookup topic = some subEventInfo →
    ∃ link, network.links.lookup subEventInfo.socket = some link ∧ link.subscriber = fd ∧
      link.subscription.topic = topic ∧ link.polled = true
  publishing : ∀ {round}, runtime.calling = .publishing round → runtime.Visits round

structure Linked (network : Network json) : Prop where
  runtimes : ∀ fd runtime, network.runtimes.lookup fd = some runtime →
    network.RuntimeLinked fd runtime
  links : ∀ fd link, network.links.lookup fd = some link →
    link.subscriber ∈ network.runtimes ∧ link.publisher ∈ network.runtimes

def KeepsLinks (network next : Network json) : Prop :=
  ∀ linkFd link, network.links.lookup linkFd = some link →
    ∃ later, next.links.lookup linkFd = some later ∧ link.Continues later ∧
      later.polled = link.polled

theorem KeepsLinks.of_eq (same : next.links = network.links) : network.KeepsLinks next :=
  fun _ link found => ⟨link, same ▸ found, .refl link, rfl⟩

theorem KeepsLinks.setLink {linkFd : Fd} {link later : Link json}
    (found : network.links.lookup linkFd = some link) (continues : link.Continues later)
    (polled : later.polled = link.polled) : network.KeepsLinks (network.setLink linkFd later) := by
  intro other before beforeFound
  rw [lookup_setLink]
  split_ifs with same
  · subst same
    obtain rfl := Option.some.inj (found.symm.trans beforeFound)
    exact ⟨later, rfl, continues, polled⟩
  · exact ⟨before, beforeFound, .refl before, rfl⟩

theorem KeepsLinks.newLink {linkFd : Fd} (fresh : linkFd ∉ network.links) (link : Link json) :
    network.KeepsLinks (network.setLink linkFd link) := by
  intro other before beforeFound
  rw [lookup_setLink]
  split_ifs with same
  · exact absurd (mem_of_lookup beforeFound) (same ▸ fresh)
  · exact ⟨before, beforeFound, .refl before, rfl⟩

theorem RuntimeLinked.mono {fd : Fd} {runtime : Runtime json}
    (linked : network.RuntimeLinked fd runtime) (keeps : network.KeepsLinks next) :
    next.RuntimeLinked fd runtime where
  listening isListening := by
    obtain ⟨link, found, publisher⟩ := linked.listening isListening
    obtain ⟨later, laterFound, continues, -⟩ := keeps _ link found
    exact ⟨later, laterFound, continues.publisher.trans publisher⟩
  awaiting calling := by
    obtain ⟨link, found, subscriber, isAbout, polled⟩ := linked.awaiting calling
    obtain ⟨later, laterFound, continues, same⟩ := keeps _ link found
    exact ⟨later, laterFound, continues.subscriber.trans subscriber,
      continues.subscription.trans isAbout, same.trans polled⟩
  subscribed listed := by
    obtain ⟨link, found, subscriber, topic, polled⟩ := linked.subscribed listed
    obtain ⟨later, laterFound, continues, same⟩ := keeps _ link found
    exact ⟨later, laterFound, continues.subscriber.trans subscriber,
      by rw [continues.subscription, topic], same.trans polled⟩
  publishing := linked.publishing

theorem RuntimeLinked.poll {fd linkFd : Fd} {runtime : Runtime json} {link : Link json}
    (linked : network.RuntimeLinked fd runtime) (found : network.links.lookup linkFd = some link)
    (stream : List Frame) (notAwaited : runtime.calling.awaited ≠ some linkFd) :
    (network.setLink linkFd { link with stream := stream, polled := true }).RuntimeLinked fd
      runtime where
  listening {other} isListening := by
    obtain ⟨before, beforeFound, publisher⟩ := linked.listening isListening
    rw [lookup_setLink]
    split_ifs with same
    · obtain rfl := Option.some.inj (found.symm.trans (same ▸ beforeFound))
      exact ⟨_, rfl, publisher⟩
    · exact ⟨before, beforeFound, publisher⟩
  awaiting {subscription other} calling := by
    have isOther : other ≠ linkFd := by
      rintro rfl
      exact notAwaited (by rw [calling]; rfl)
    rw [lookup_setLink, if_neg isOther]
    exact linked.awaiting calling
  subscribed {topic subEventInfo} listed := by
    obtain ⟨before, beforeFound, subscriber, isTopic, polled⟩ := linked.subscribed listed
    rw [lookup_setLink]
    split_ifs with same
    · obtain rfl := Option.some.inj (found.symm.trans (same ▸ beforeFound))
      exact ⟨_, rfl, subscriber, isTopic, rfl⟩
    · exact ⟨before, beforeFound, subscriber, isTopic, polled⟩
  publishing := linked.publishing

theorem RuntimeLinked.setCalling {fd : Fd} {runtime later : Runtime json}
    (linked : network.RuntimeLinked fd runtime) (listening : later.listening = runtime.listening)
    (subList : later.subList = runtime.subList) (notAwaiting : later.calling.awaited = none)
    (notPublishing : ∀ round, later.calling ≠ .publishing round) :
    network.RuntimeLinked fd later where
  listening isListening := linked.listening (listening ▸ isListening)
  awaiting calling := by simp [calling, Calling.awaited] at notAwaiting
  subscribed listed := linked.subscribed (subList ▸ listed)
  publishing calling := absurd calling (notPublishing _)

theorem RuntimeLinked.iterate {fd : Fd} {runtime later : Runtime json} {round : Round}
    (linked : network.RuntimeLinked fd runtime) (listening : later.listening = runtime.listening)
    (subList : later.subList = runtime.subList) (calling : later.calling = .publishing round)
    (visits : later.Visits round) : network.RuntimeLinked fd later where
  listening isListening := linked.listening (listening ▸ isListening)
  awaiting isAwaiting := by simp [calling] at isAwaiting
  subscribed listed := linked.subscribed (subList ▸ listed)
  publishing isPublishing := by
    obtain rfl := Calling.publishing.inj (calling.symm.trans isPublishing)
    exact visits

theorem receive_calling {runtime : Runtime json} (question : Question json) (content : Bytes)
    (told : Option Told) :
    (runtime.receive question content told).calling.awaited = none ∧
      ∀ round, (runtime.receive question content told).calling ≠ .publishing round := by
  unfold Runtime.receive
  split
  · exact ⟨rfl, by simp⟩
  · split
    · exact ⟨rfl, by simp⟩
    · exact ⟨rfl, by simp⟩
  · exact ⟨rfl, by simp⟩

theorem receive_listening {runtime : Runtime json} (question : Question json) (content : Bytes)
    (told : Option Told) :
    (runtime.receive question content told).listening = runtime.listening := by
  unfold Runtime.receive
  split
  · rfl
  · split <;> rfl
  · rfl

theorem recorded_listen (roundTrips : json.RoundTrips) {runtime later : Runtime json}
    {subscription : Subscription json} {linkFd : Fd}
    (pubList : later.pubList = (subscribe json runtime.pubList linkFd subscription.text).1)
    {topic name : Bytes} {socket : Fd} (isRecorded : runtime.recorded topic name = some socket) :
    later.recorded topic name = some socket := by
  obtain ⟨pubEventInfo, listed, entry⟩ := Option.bind_eq_some_iff.mp isRecorded
  unfold Runtime.recorded
  rw [pubList, subscription.subscribe_text roundTrips]
  split
  · exact isRecorded
  · rename_i before found
    split_ifs with wrongType duplicate
    · exact isRecorded
    · exact isRecorded
    · rw [lookup_insert]
      split_ifs with same
      · subst same
        obtain rfl := Option.some.inj (listed.symm.trans found)
        have otherName : name ≠ subscription.name := by
          rintro rfl
          exact duplicate (mem_of_lookup entry)
        simp [lookup_insert, otherName, entry]
      · exact isRecorded

theorem recorded_of_ok (roundTrips : json.RoundTrips) {runtime : Runtime json}
    {subscription : Subscription json} {linkFd : Fd}
    (isOk : (subscribe json runtime.pubList linkFd subscription.text).2 = .ok) :
    runtime.recorded subscription.topic subscription.name = none := by
  rw [subscription.subscribe_text roundTrips] at isOk
  unfold Runtime.recorded
  split at isOk
  · rename_i notListed
    rw [notListed]
    rfl
  · rename_i pubEventInfo listed
    split_ifs at isOk with wrongType duplicate
    rw [listed, Option.bind_some]
    exact notMem_iff.mp duplicate

theorem recorded_toVisit {runtime : Runtime json} {name : Bytes} {round : Round} {linkFd : Fd}
    (visit : toVisit runtime name = some (round, linkFd)) :
    runtime.calling = .publishing round ∧ name ∉ round.visited ∧
      runtime.recorded round.publication.topic name = some linkFd := by
  obtain ⟨calling, pubEventInfo, listed, entry⟩ := toVisit_eq_some visit
  refine ⟨calling, fun isVisited => ?_, Option.bind_eq_some_iff.mpr ⟨pubEventInfo, listed, entry⟩⟩
  simp [toVisit, calling, isVisited] at visit

theorem Move.ends {event : NetworkEvent json} (move : Move network event next)
    (known : network.Known)
    (ends : ∀ fd link, network.links.lookup fd = some link →
      link.subscriber ∈ network.runtimes ∧ link.publisher ∈ network.runtimes)
    (fd : Fd) (link : Link json) (found : next.links.lookup fd = some link) :
    link.subscriber ∈ next.runtimes ∧ link.publisher ∈ next.runtimes := by
  have stays {other : Fd} (member : other ∈ network.runtimes) : other ∈ next.runtimes := by
    obtain ⟨runtime, runtimeFound⟩ := mem_iff.mp member
    obtain ⟨later, laterFound, -⟩ := (move.grows known).runtimes runtimeFound
    exact mem_of_lookup laterFound
  cases move.origin found with
  | connected isConnect runtimeFound calling =>
      subst isConnect
      cases move with
      | connected _ _ publisherFound =>
          exact ⟨stays (mem_of_lookup (running_eq_some.mp runtimeFound).1),
            stays (mem_of_lookup (running_eq_some.mp publisherFound).1)⟩
  | used stream polled before => exact (ends fd _ before).imp stays stays
  | broke isBreak before => exact (ends fd _ before).imp stays stays
  | answered isListen runtimeFound before => exact (ends fd _ before).imp stays stays

theorem Linked.of_keeps (linked : network.Linked)
    (ends : ∀ fd link, next.links.lookup fd = some link →
      link.subscriber ∈ next.runtimes ∧ link.publisher ∈ next.runtimes)
    (keeps : network.KeepsLinks next) (runtimes : next.runtimes = network.runtimes) :
    next.Linked where
  runtimes fd runtime found := (linked.runtimes fd runtime (runtimes ▸ found)).mono keeps
  links := ends

/-- It is enough to look at the runtime that has changed. -/
theorem Linked.change (linked : network.Linked)
    (ends : ∀ fd link, next.links.lookup fd = some link →
      link.subscriber ∈ next.runtimes ∧ link.publisher ∈ next.runtimes)
    (keeps : network.KeepsLinks next) {fd : Fd} {runtime : Runtime json}
    (runtimes : next.runtimes = network.runtimes.insert fd runtime)
    (changed : next.RuntimeLinked fd runtime) : next.Linked where
  runtimes := by
    rw [runtimes]
    exact forall_insert changed fun other before found =>
      (linked.runtimes other before found).mono keeps
  links := ends

theorem Linked.update (linked : network.Linked)
    (ends : ∀ fd link, next.links.lookup fd = some link →
      link.subscriber ∈ next.runtimes ∧ link.publisher ∈ next.runtimes)
    (keeps : network.KeepsLinks next) {fd : Fd} {runtime : Runtime json}
    (runtimes : next.runtimes = network.runtimes.insert fd runtime)
    (changed : network.RuntimeLinked fd runtime) : next.Linked :=
  linked.change ends keeps runtimes (changed.mono keeps)

theorem Linked.step (roundTrips : json.RoundTrips) {event : NetworkEvent json}
    (linked : network.Linked) (known : network.Known)
    (moved : network.step event = some next) : next.Linked := by
  have move := step_move moved
  have ends := move.ends known linked.links
  have running {fd runtime} (found : network.running fd = some runtime) :
      network.RuntimeLinked fd runtime :=
    linked.runtimes fd runtime (running_eq_some.mp found).1
  cases move with
  | joined accepted isOk =>
      refine linked.update ends (.of_eq rfl) rfl ?_
      constructor <;> simp
  | rejected | masterMoved | keptAlive => exact linked.of_keeps ends (.of_eq rfl) rfl
  | broke found =>
      exact linked.of_keeps ends (.setLink found ⟨rfl, rfl, rfl, rfl, fun _ => id⟩ rfl) rfl
  | exited found closed =>
      have same := running found
      exact linked.update ends (.of_eq rfl) rfl ⟨same.listening, same.awaiting, same.subscribed,
        fun calling => (same.publishing calling).of_grows fun _ _ _ => id⟩
  | served found calling served =>
      have same := linked.runtimes _ _ found
      exact linked.update ends (.of_eq rfl) rfl (same.setCalling rfl rfl rfl (by simp))
  | asked found | refused found | lost found | finished found =>
      exact linked.update ends (.of_eq rfl) rfl
        ((running found).setCalling rfl rfl rfl (by simp))
  | received found calling =>
      exact linked.update ends (.of_eq rfl) rfl ((running found).setCalling (receive_listening ..)
        (Runtime.receive_subList ..) (receive_calling ..).1 (receive_calling ..).2)
  | denied found calling linkFound =>
      exact linked.update ends (.setLink linkFound ⟨rfl, rfl, rfl, rfl, fun _ => id⟩ rfl) rfl
        ((running found).setCalling rfl rfl rfl (by simp))
  | answered found listening linkFound isAnswer =>
      have same := running found
      exact linked.update ends (.setLink linkFound ⟨rfl, rfl, rfl, rfl, fun _ => id⟩ rfl) rfl
        ⟨by simp, same.awaiting, same.subscribed, fun calling =>
          (same.publishing calling).of_grows fun _ _ _ => id⟩
  | delivered found linkFound =>
      have same := running found
      exact linked.update ends (.setLink linkFound ⟨rfl, rfl, rfl, rfl, fun _ => id⟩ rfl) rfl
        ⟨same.listening, same.awaiting, same.subscribed, fun calling =>
          (same.publishing calling).of_grows fun _ _ _ => id⟩
  | sent found visit linkFound =>
      have same := running found
      obtain ⟨calling, -, isRecorded⟩ := recorded_toVisit visit
      exact linked.update ends (.setLink linkFound ⟨rfl, rfl, rfl, rfl, fun _ => id⟩ rfl) rfl
        (same.iterate rfl rfl rfl ((same.publishing calling).visit isRecorded rfl))
  | missed found visit =>
      have same := running found
      obtain ⟨calling, -, isRecorded⟩ := recorded_toVisit visit
      exact linked.update ends (.of_eq rfl) rfl (same.iterate rfl rfl rfl
        ((((same.publishing calling).visit isRecorded rfl).bury _ _).of_grows fun _ _ _ => id))
  | @published fd type publication order runtime pubEventInfo found idle listed isType =>
      obtain ⟨runtime', pubEventInfo', found', listed', enumerates⟩ := step_publish moved
      obtain rfl := Option.some.inj (found.symm.trans found')
      obtain rfl := Option.some.inj (listed.symm.trans listed')
      have recorded : ∀ name ∈ order, ∃ linkFd,
          runtime.recorded publication.topic name = some linkFd := by
        intro name ahead
        have member : name ∈ pubEventInfo.clientSocketMap := by
          rw [← Finmap.mem_keys, ← enumerates.2]
          exact List.mem_toFinset.mpr ahead
        obtain ⟨linkFd, entry⟩ := mem_iff.mp member
        exact ⟨linkFd, Option.bind_eq_some_iff.mpr ⟨pubEventInfo, listed, entry⟩⟩
      exact linked.update ends (.of_eq rfl) rfl ((running found).iterate rfl rfl rfl
        ⟨enumerates.1, by simp, fun name member => recorded name (by simpa using member)⟩)
  | @connected fd linkFd publisherFd runtime subscription port told publisher found calling
      publisherFound fresh =>
      have keeps := KeepsLinks.newLink fresh
        { subscriber := fd, publisher := publisherFd, subscription := subscription, told := told }
      have same := (running found).mono keeps
      refine linked.change ends keeps rfl ⟨same.listening, ?_, same.subscribed, by simp⟩
      intro subscription' linkFd' isAwaiting
      obtain ⟨rfl, rfl⟩ := Calling.awaiting.inj isAwaiting
      exact ⟨_, (lookup_setLink ..).trans (if_pos rfl), rfl, rfl, rfl⟩
  | @listened fd linkFd rest runtime link found linkFound publisher unanswered =>
      have continues : link.Continues { link with
          answer := some (subscribe json runtime.pubList linkFd link.subscription.text).2 } :=
        ⟨rfl, rfl, rfl, rfl, by simp [unanswered]⟩
      have keeps := KeepsLinks.setLink linkFound continues rfl
      have same := (running found).mono keeps
      refine linked.change ends keeps rfl ⟨?_, ?_, same.subscribed, ?_⟩
      · intro linkFd' isListening
        obtain rfl := Option.some.inj isListening
        exact ⟨_, (lookup_setLink ..).trans (if_pos rfl), publisher⟩
      · exact fun calling => same.awaiting (Calling.goOn_eq_awaiting.mp calling)
      · intro round calling
        obtain ⟨before, wasCalling, rfl⟩ := Calling.goOn_eq_publishing.mp calling
        exact ((same.publishing wasCalling).of_grows fun _ _ _ =>
          recorded_listen roundTrips rfl).goOn runtime.pubList rest
  | @stored fd linkFd runtime subscription link _ stream found calling linkFound streamEq isOk =>
      have same := running found
      obtain ⟨awaited, awaitedFound, subscriber, isAbout, -⟩ := same.awaiting calling
      obtain rfl := Option.some.inj (linkFound.symm.trans awaitedFound)
      refine ⟨fun other before beforeFound => ?_, ends⟩
      rw [lookup_setRuntime] at beforeFound
      split_ifs at beforeFound with isOther
      · obtain rfl := Option.some.inj beforeFound
        subst isOther
        have idle : network.RuntimeLinked other { runtime with calling := .idle } :=
          same.setCalling rfl rfl rfl (by simp)
        have polling := idle.poll linkFound stream (by simp [Calling.awaited])
        refine ⟨polling.listening, by simp, fun {topic subEventInfo} listed => ?_, by simp⟩
        rw [lookup_insert] at listed
        split_ifs at listed with sameTopic
        · obtain rfl := Option.some.inj listed
          exact ⟨_, (lookup_setLink ..).trans (if_pos rfl), subscriber,
            (congrArg Subscription.topic isAbout).trans sameTopic.symm, rfl⟩
        · exact polling.subscribed listed
      · have elsewhere := linked.runtimes other before beforeFound
        have notAwaited : before.calling.awaited ≠ some linkFd := by
          intro isAwaited
          cases otherCalling : before.calling with
          | awaiting subscription' linkFd' =>
              obtain rfl : linkFd' = linkFd := by
                rw [otherCalling] at isAwaited
                exact Option.some.inj isAwaited
              obtain ⟨link', found', subscriber', -⟩ := elsewhere.awaiting otherCalling
              obtain rfl := Option.some.inj (linkFound.symm.trans found')
              exact isOther (subscriber'.symm.trans subscriber)
          | _ => simp [otherCalling, Calling.awaited] at isAwaited
        exact (elsewhere.poll linkFound stream notAwaited).mono (.of_eq rfl)

theorem Linked.of_reachable (roundTrips : json.RoundTrips)
    (reachable : (networkSystem json).Reachable network) : network.Linked := by
  refine reachable.invariant_of_reachable Linked ?_ ?_
  · intro network initial
    constructor
    · simp [initial.runtimes]
    · simp [initial.links]
  · intro network event next reachable linked moved
    exact linked.step roundTrips (.of_reachable reachable) moved

end Network

end UBus
