import UBus.Network.State

/-!
# The moves of the network

One inversion of the step function, with one constructor for each thing that
can happen, and what no move can undo: runtimes keep their names, connections
their ends and their subscriptions, and what has been published stays so.
-/

namespace UBus

open FiniteMap

variable {json : JsonLibrary}

/-- A later state of a connection: its ends, its subscription and what the
master said stay, and it is answered at most once. -/
structure Link.Continues (link later : Link json) : Prop where
  subscriber : later.subscriber = link.subscriber
  publisher : later.publisher = link.publisher
  subscription : later.subscription = link.subscription
  told : later.told = link.told
  answer : ∀ answer, link.answer = some answer → later.answer = some answer

theorem Link.Continues.refl (link : Link json) : link.Continues link :=
  ⟨rfl, rfl, rfl, rfl, fun _ => id⟩

theorem Runtime.receive_name (runtime : Runtime json) (question : Question json) (content : Bytes)
    (told : Option Told) : (runtime.receive question content told).name = runtime.name := by
  unfold receive
  split
  · rfl
  · split <;> rfl
  · rfl

theorem Runtime.receive_running (runtime : Runtime json) (question : Question json)
    (content : Bytes) (told : Option Told) :
    (runtime.receive question content told).running = runtime.running := by
  unfold receive
  split
  · rfl
  · split <;> rfl
  · rfl

theorem Runtime.receive_subList (runtime : Runtime json) (question : Question json)
    (content : Bytes) (told : Option Told) :
    (runtime.receive question content told).subList = runtime.subList := by
  unfold receive
  split
  · rfl
  · split <;> rfl
  · rfl

namespace Network

variable {network next : Network json}

theorem running_eq_some {fd : Fd} {runtime : Runtime json} :
    network.running fd = some runtime ↔
      network.runtimes.lookup fd = some runtime ∧ runtime.running = true :=
  Option.filter_eq_some_iff

theorem toVisit_eq_some {runtime : Runtime json} {name : Bytes} {round : Round} {linkFd : Fd}
    (visit : toVisit runtime name = some (round, linkFd)) :
    runtime.calling = .publishing round ∧ ∃ pubEventInfo,
      runtime.pubList.lookup round.publication.topic = some pubEventInfo ∧
        pubEventInfo.clientSocketMap.lookup name = some linkFd := by
  unfold toVisit at visit
  split at visit
  · rename_i round' calling
    simp only [Option.ite_none_left_eq_some, Option.bind_eq_some_iff, Option.map_eq_some_iff,
      Prod.mk.injEq] at visit
    obtain ⟨-, pubEventInfo, listed, fd, recorded, rfl, rfl⟩ := visit
    exact ⟨calling, pubEventInfo, listed, recorded⟩
  · simp at visit

/-- The possible effects of an event. -/
inductive Move (network : Network json) : NetworkEvent json → Network json → Prop
  | joined {fd name port peer text reply master} :
      network.master.step json
        (.accept fd peer ⟨FrameType.initiation.code, text⟩ (some reply)) = some master →
      saysOk json reply.data = true →
        Move network (.join fd name port peer text reply)
          ({ network with master := master }.setRuntime fd { name := name, port := port })
  | rejected {fd name port peer text reply master} :
      network.master.step json
        (.accept fd peer ⟨FrameType.initiation.code, text⟩ (some reply)) = some master →
        Move network (.join fd name port peer text reply) { network with master := master }
  | exited {fd runtime master} :
      network.running fd = some runtime →
      network.master.step json (.peerClose fd) = some master →
        Move network (.exit fd)
          ({ network with master := master }.setRuntime fd { runtime with running := false })
  | broke {fd link} :
      network.links.lookup fd = some link →
        Move network (.breakLink fd) (network.setLink fd { link with broken := true })
  | masterMoved {event master} :
      event.isInternal → network.master.step json event = some master →
        Move network (.master event) { network with master := master }
  | served {fd reply runtime question master} :
      network.runtimes.lookup fd = some runtime → runtime.calling = .asking question none →
      network.master.step json (.control fd question.frame [] (some reply)) = some master →
        Move network (.serve fd reply)
          ({ network with master := master }.setRuntime fd
            { runtime with calling := .asking question (some (reply, network.told question)) })
  | keptAlive {fd master} :
      network.master.step json (.control fd ⟨FrameType.keepAlive.code, []⟩ [] none) =
        some master →
        Move network (.keepAlive fd) { network with master := master }
  | asked {fd question runtime} :
      network.running fd = some runtime → runtime.calling = .idle →
      question.isFrom runtime.name →
        Move network (.ask fd question)
          (network.setRuntime fd { runtime with calling := .asking question none })
  | received {fd runtime question reply told} :
      network.running fd = some runtime →
      runtime.calling = .asking question (some (reply, told)) →
        Move network (.readAnswer fd)
          (network.setRuntime fd (runtime.receive question reply.data told))
  | connected {fd linkFd publisherFd runtime subscription port told publisher} :
      network.running fd = some runtime →
      runtime.calling = .connecting subscription port told →
      network.running publisherFd = some publisher → linkFd ∉ network.links →
        Move network (.connect fd linkFd publisherFd)
          ((network.setLink linkFd {
              subscriber := fd
              publisher := publisherFd
              subscription := subscription
              told := told }).setRuntime fd
            { runtime with calling := .awaiting subscription linkFd })
  | refused {fd runtime subscription port told} :
      network.running fd = some runtime →
      runtime.calling = .connecting subscription port told →
        Move network (.refuse fd) (network.setRuntime fd { runtime with calling := .idle })
  | lost {fd linkFd runtime subscription link} :
      network.running fd = some runtime → runtime.calling = .awaiting subscription linkFd →
      network.links.lookup linkFd = some link → ¬ network.IsOpen link →
        Move network (.loseReply fd) (network.setRuntime fd { runtime with calling := .idle })
  | listened {fd linkFd rest runtime link} :
      network.running fd = some runtime → network.links.lookup linkFd = some link →
      link.publisher = fd → link.answer = none →
        Move network (.listen fd linkFd rest)
          ((network.setLink linkFd { link with
              answer := some
                (subscribe json runtime.pubList linkFd link.subscription.text).2 }).setRuntime fd
            { runtime with
              pubList := (subscribe json runtime.pubList linkFd link.subscription.text).1
              calling := runtime.calling.goOn runtime.pubList
                (subscribe json runtime.pubList linkFd link.subscription.text).1 rest
              listening := some linkFd })
  | answered {fd linkFd runtime link answer} :
      network.running fd = some runtime → runtime.listening = some linkFd →
      network.links.lookup linkFd = some link → link.answer = some answer →
        Move network (.answer fd)
          ((network.setLink linkFd
              { link with stream := link.stream ++ [answer.frame] }).setRuntime fd
            { runtime with listening := none })
  | stored {fd linkFd runtime subscription link frame stream} :
      network.running fd = some runtime → runtime.calling = .awaiting subscription linkFd →
      network.links.lookup linkFd = some link → link.stream = frame :: stream →
      saysOk json frame.data = true →
        Move network (.readReply fd)
          ((network.setLink linkFd { link with stream := stream, polled := true }).setRuntime fd
            { runtime with
              subList := runtime.subList.insert subscription.topic ⟨subscription.type, linkFd⟩
              calling := .idle })
  | denied {fd linkFd runtime subscription link frame stream} :
      network.running fd = some runtime → runtime.calling = .awaiting subscription linkFd →
      network.links.lookup linkFd = some link → link.stream = frame :: stream →
      saysOk json frame.data = false →
        Move network (.readReply fd)
          ((network.setLink linkFd { link with stream := stream }).setRuntime fd
            { runtime with calling := .idle })
  | published {fd type publication order runtime pubEventInfo} :
      network.running fd = some runtime → runtime.calling = .idle →
      runtime.pubList.lookup publication.topic = some pubEventInfo → pubEventInfo.type = type →
        Move network (.publish fd type publication order)
          { network.setRuntime fd
              { runtime with calling := .publishing ⟨publication, order, [], []⟩ } with
            published := (type, publication) :: network.published }
  | sent {fd name runtime round linkFd link} :
      network.running fd = some runtime → toVisit runtime name = some (round, linkFd) →
      network.links.lookup linkFd = some link →
        Move network (.send fd name)
          ((network.setLink linkFd
              { link with stream := link.stream ++ [eventFrame round.publication.body] }).setRuntime
            fd { runtime with calling := .publishing (round.visit name) })
  | missed {fd name brokenPipe runtime round linkFd link} :
      network.running fd = some runtime → toVisit runtime name = some (round, linkFd) →
      network.links.lookup linkFd = some link → ¬ network.IsOpen link →
        Move network (.sendFails fd name brokenPipe)
          (network.setRuntime fd
            { runtime with calling := .publishing ((round.visit name).bury name brokenPipe) })
  | finished {fd runtime round} :
      network.running fd = some runtime → runtime.calling = .publishing round →
        Move network (.finish fd)
          (network.setRuntime fd { runtime with
            pubList := runtime.pubList.modify round.publication.topic fun pubEventInfo =>
              { pubEventInfo with
                clientSocketMap := round.dead.foldl FiniteMap.erase pubEventInfo.clientSocketMap }
            calling := .idle })
  | delivered {fd linkFd order runtime link frame stream} :
      network.running fd = some runtime → network.links.lookup linkFd = some link →
      link.stream = frame :: stream → link.subscriber = fd →
        Move network (.deliver fd linkFd order)
          ((network.setLink linkFd { link with stream := stream }).setRuntime fd
            { runtime with
              invoked := runtime.invoked ++ (invocation runtime linkFd order frame).toList })

theorem step_move {event : NetworkEvent json} (moved : network.step event = some next) :
    Move network event next := by
  cases event with
  | join fd name port peer text reply =>
      simp only [step, Option.ite_none_right_eq_some] at moved
      obtain ⟨master, accepted, rfl⟩ := Option.map_eq_some_iff.mp moved.2
      split_ifs with isOk
      · exact .joined accepted isOk
      · exact .rejected accepted
  | exit fd =>
      obtain ⟨runtime, found, moved⟩ := Option.bind_eq_some_iff.mp moved
      obtain ⟨master, closed, rfl⟩ := Option.map_eq_some_iff.mp moved
      exact .exited found closed
  | breakLink fd =>
      obtain ⟨link, found, rfl⟩ := Option.map_eq_some_iff.mp moved
      exact .broke found
  | master event =>
      simp only [step, Option.ite_none_right_eq_some] at moved
      obtain ⟨internal, moved⟩ := moved
      obtain ⟨master, masterMoved, rfl⟩ := Option.map_eq_some_iff.mp moved
      exact .masterMoved internal masterMoved
  | serve fd reply =>
      obtain ⟨runtime, found, moved⟩ := Option.bind_eq_some_iff.mp moved
      split at moved
      · rename_i question calling
        obtain ⟨master, served, rfl⟩ := Option.map_eq_some_iff.mp moved
        exact .served found calling served
      · simp at moved
  | keepAlive fd =>
      obtain ⟨runtime, found, moved⟩ := Option.bind_eq_some_iff.mp moved
      obtain ⟨master, kept, rfl⟩ := Option.map_eq_some_iff.mp moved
      exact .keptAlive kept
  | ask fd question =>
      obtain ⟨runtime, found, moved⟩ := Option.bind_eq_some_iff.mp moved
      split at moved
      · rename_i calling
        simp only [Option.ite_none_right_eq_some, Option.some.injEq] at moved
        obtain ⟨⟨isFrom, -⟩, rfl⟩ := moved
        exact .asked found calling isFrom
      · simp at moved
  | readAnswer fd =>
      obtain ⟨runtime, found, moved⟩ := Option.bind_eq_some_iff.mp moved
      split at moved
      · rename_i question reply told calling
        obtain rfl := Option.some.inj moved
        exact .received found calling
      · simp at moved
  | connect fd linkFd publisherFd =>
      obtain ⟨runtime, found, moved⟩ := Option.bind_eq_some_iff.mp moved
      split at moved
      · rename_i subscription port told calling
        obtain ⟨publisher, publisherFound, moved⟩ := Option.bind_eq_some_iff.mp moved
        simp only [Option.ite_none_right_eq_some, Option.some.injEq] at moved
        obtain ⟨⟨fresh, -⟩, rfl⟩ := moved
        exact .connected found calling publisherFound fresh
      · simp at moved
  | refuse fd =>
      obtain ⟨runtime, found, moved⟩ := Option.bind_eq_some_iff.mp moved
      split at moved
      · rename_i calling
        obtain rfl := Option.some.inj moved
        exact .refused found calling
      · simp at moved
  | listen fd linkFd rest =>
      obtain ⟨runtime, found, moved⟩ := Option.bind_eq_some_iff.mp moved
      obtain ⟨link, linkFound, moved⟩ := Option.bind_eq_some_iff.mp moved
      simp only [Option.ite_none_right_eq_some, Option.some.injEq] at moved
      obtain ⟨⟨publisher, unanswered, -⟩, rfl⟩ := moved
      exact .listened found linkFound publisher unanswered
  | answer fd =>
      obtain ⟨runtime, found, moved⟩ := Option.bind_eq_some_iff.mp moved
      obtain ⟨linkFd, listening, moved⟩ := Option.bind_eq_some_iff.mp moved
      obtain ⟨link, linkFound, moved⟩ := Option.bind_eq_some_iff.mp moved
      obtain ⟨answer, isAnswer, rfl⟩ := Option.map_eq_some_iff.mp moved
      exact .answered found listening linkFound isAnswer
  | readReply fd =>
      obtain ⟨runtime, found, moved⟩ := Option.bind_eq_some_iff.mp moved
      split at moved
      · rename_i subscription linkFd calling
        obtain ⟨link, linkFound, moved⟩ := Option.bind_eq_some_iff.mp moved
        split at moved
        · simp at moved
        · rename_i frame stream streamEq
          split_ifs at moved with isOk
          · obtain rfl := Option.some.inj moved
            exact .stored found calling linkFound streamEq isOk
          · obtain rfl := Option.some.inj moved
            exact .denied found calling linkFound streamEq (by simpa using isOk)
      · simp at moved
  | loseReply fd =>
      obtain ⟨runtime, found, moved⟩ := Option.bind_eq_some_iff.mp moved
      split at moved
      · rename_i subscription linkFd calling
        obtain ⟨link, linkFound, moved⟩ := Option.bind_eq_some_iff.mp moved
        simp only [Option.ite_none_left_eq_some, Option.some.injEq] at moved
        obtain ⟨notOpen, rfl⟩ := moved
        exact .lost found calling linkFound notOpen
      · simp at moved
  | publish fd type publication order =>
      obtain ⟨runtime, found, moved⟩ := Option.bind_eq_some_iff.mp moved
      split at moved
      · rename_i calling
        obtain ⟨pubEventInfo, listed, moved⟩ := Option.bind_eq_some_iff.mp moved
        simp only [Option.ite_none_right_eq_some, Option.some.injEq] at moved
        obtain ⟨⟨isType, -⟩, rfl⟩ := moved
        exact .published found calling listed isType
      · simp at moved
  | send fd name =>
      obtain ⟨runtime, found, moved⟩ := Option.bind_eq_some_iff.mp moved
      obtain ⟨⟨round, linkFd⟩, visit, moved⟩ := Option.bind_eq_some_iff.mp moved
      obtain ⟨link, linkFound, rfl⟩ := Option.map_eq_some_iff.mp moved
      exact .sent found visit linkFound
  | sendFails fd name brokenPipe =>
      obtain ⟨runtime, found, moved⟩ := Option.bind_eq_some_iff.mp moved
      obtain ⟨⟨round, linkFd⟩, visit, moved⟩ := Option.bind_eq_some_iff.mp moved
      obtain ⟨link, linkFound, moved⟩ := Option.bind_eq_some_iff.mp moved
      simp only [Option.ite_none_left_eq_some, Option.some.injEq] at moved
      obtain ⟨notOpen, rfl⟩ := moved
      exact .missed found visit linkFound notOpen
  | finish fd =>
      obtain ⟨runtime, found, moved⟩ := Option.bind_eq_some_iff.mp moved
      split at moved
      · rename_i round calling
        simp only [Option.ite_none_right_eq_some, Option.some.injEq] at moved
        obtain ⟨-, rfl⟩ := moved
        exact .finished found calling
      · simp at moved
  | deliver fd linkFd order =>
      obtain ⟨runtime, found, moved⟩ := Option.bind_eq_some_iff.mp moved
      obtain ⟨link, linkFound, moved⟩ := Option.bind_eq_some_iff.mp moved
      split at moved
      · simp at moved
      · rename_i frame stream streamEq
        simp only [Option.ite_none_right_eq_some, Option.some.injEq] at moved
        obtain ⟨⟨subscriber, -⟩, rfl⟩ := moved
        exact .delivered found linkFound streamEq subscriber

/-- Nothing is lost: neither runtimes and their names, nor connections, nor
what has been published.  A process that has ended does not run again. -/
structure Grows (network next : Network json) : Prop where
  runtimes : ∀ {fd runtime}, network.runtimes.lookup fd = some runtime →
    ∃ later, next.runtimes.lookup fd = some later ∧ later.name = runtime.name ∧
      (later.running → runtime.running)
  links : ∀ {fd link}, network.links.lookup fd = some link →
    ∃ later, next.links.lookup fd = some later ∧ link.Continues later
  published : network.published ⊆ next.published

theorem lookup_setRuntime (fd other : Fd) (runtime : Runtime json) :
    (network.setRuntime fd runtime).runtimes.lookup other =
      if other = fd then some runtime else network.runtimes.lookup other :=
  lookup_insert ..

theorem lookup_setLink (fd other : Fd) (link : Link json) :
    (network.setLink fd link).links.lookup other =
      if other = fd then some link else network.links.lookup other :=
  lookup_insert ..

namespace Grows

theorem refl (network : Network json) : network.Grows network where
  runtimes found := ⟨_, found, rfl, id⟩
  links found := ⟨_, found, .refl _⟩
  published := List.Subset.refl _

theorem setMaster (master : System) : network.Grows { network with master := master } :=
  ⟨(refl network).runtimes, (refl network).links, (refl network).published⟩

theorem trans {middle : Network json} (first : network.Grows middle) (second : middle.Grows next) :
    network.Grows next where
  runtimes found := by
    obtain ⟨later, laterFound, name, stopped⟩ := first.runtimes found
    obtain ⟨last, lastFound, name', stopped'⟩ := second.runtimes laterFound
    exact ⟨last, lastFound, name'.trans name, fun running => stopped (stopped' running)⟩
  links found := by
    obtain ⟨later, laterFound, same⟩ := first.links found
    obtain ⟨last, lastFound, same'⟩ := second.links laterFound
    exact ⟨last, lastFound, same'.subscriber.trans same.subscriber,
      same'.publisher.trans same.publisher, same'.subscription.trans same.subscription,
      same'.told.trans same.told, fun answer isAnswer => same'.answer _ (same.answer _ isAnswer)⟩
  published := List.Subset.trans first.published second.published

theorem setRuntime {fd : Fd} {runtime later : Runtime json}
    (found : network.runtimes.lookup fd = some runtime) (name : later.name = runtime.name)
    (stopped : later.running → runtime.running) :
    network.Grows (network.setRuntime fd later) where
  runtimes {other runtime'} otherFound := by
    rw [lookup_setRuntime]
    split_ifs with same
    · subst same
      obtain rfl := Option.some.inj (found.symm.trans otherFound)
      exact ⟨later, rfl, name, stopped⟩
    · exact ⟨runtime', otherFound, rfl, id⟩
  links found := ⟨_, found, .refl _⟩
  published := List.Subset.refl _

theorem newRuntime {fd : Fd} (fresh : fd ∉ network.runtimes) (runtime : Runtime json) :
    network.Grows (network.setRuntime fd runtime) where
  runtimes {other runtime'} otherFound := by
    rw [lookup_setRuntime]
    split_ifs with same
    · exact absurd (mem_of_lookup otherFound) (same ▸ fresh)
    · exact ⟨runtime', otherFound, rfl, id⟩
  links found := ⟨_, found, .refl _⟩
  published := List.Subset.refl _

theorem setLink {fd : Fd} {link later : Link json}
    (found : network.links.lookup fd = some link) (continues : link.Continues later) :
    network.Grows (network.setLink fd later) where
  runtimes found := ⟨_, found, rfl, id⟩
  links {other link'} otherFound := by
    rw [lookup_setLink]
    split_ifs with same
    · subst same
      obtain rfl := Option.some.inj (found.symm.trans otherFound)
      exact ⟨later, rfl, continues⟩
    · exact ⟨link', otherFound, .refl _⟩
  published := List.Subset.refl _

theorem newLink {fd : Fd} (fresh : fd ∉ network.links) (link : Link json) :
    network.Grows (network.setLink fd link) where
  runtimes found := ⟨_, found, rfl, id⟩
  links {other link'} otherFound := by
    rw [lookup_setLink]
    split_ifs with same
    · exact absurd (mem_of_lookup otherFound) (same ▸ fresh)
    · exact ⟨link', otherFound, .refl _⟩
  published := List.Subset.refl _

theorem setLinkRuntime {fd linkFd : Fd} {link later : Link json} {runtime next : Runtime json}
    (linkFound : network.links.lookup linkFd = some link) (continues : link.Continues later)
    (found : network.running fd = some runtime) (name : next.name = runtime.name)
    (stopped : next.running → runtime.running) :
    network.Grows ((network.setLink linkFd later).setRuntime fd next) :=
  (setLink linkFound continues).trans
    (setRuntime (show (network.setLink linkFd later).runtimes.lookup fd = some runtime from
      (running_eq_some.mp found).1) name stopped)

theorem newLinkRuntime {fd linkFd : Fd} (fresh : linkFd ∉ network.links) (link : Link json)
    {runtime next : Runtime json} (found : network.running fd = some runtime)
    (name : next.name = runtime.name) (stopped : next.running → runtime.running) :
    network.Grows ((network.setLink linkFd link).setRuntime fd next) :=
  (newLink fresh link).trans
    (setRuntime (show (network.setLink linkFd link).runtimes.lookup fd = some runtime from
      (running_eq_some.mp found).1) name stopped)

theorem setMasterRuntime {fd : Fd} {master : System} {runtime next : Runtime json}
    (found : network.runtimes.lookup fd = some runtime) (name : next.name = runtime.name)
    (stopped : next.running → runtime.running) :
    network.Grows ({ network with master := master }.setRuntime fd next) :=
  (setMaster master).trans
    (setRuntime (show { network with master := master }.runtimes.lookup fd = some runtime from
      found) name stopped)

theorem publish (event : UInt32 × Publication) :
    network.Grows { network with published := event :: network.published } :=
  ⟨(refl network).runtimes, (refl network).links, List.subset_cons_self ..⟩

end Grows

def Known (network : Network json) : Prop :=
  ∀ fd, fd ∈ network.runtimes → fd ∈ network.master.accepted

theorem accepted_subset {system later : System} {event : Event}
    (moved : system.step json event = some later) : system.accepted ⊆ later.accepted := by
  cases UBus.step_move moved <;> first | exact List.Subset.refl _ | exact List.subset_cons_self ..

theorem accept_fresh {system later : System} {fd : Fd} {peer : SocketAddress} {frame : Frame}
    {reply : Option Frame} (moved : system.step json (.accept fd peer frame reply) = some later) :
    fd ∉ system.accepted ∧ fd ∈ later.accepted := by
  cases UBus.step_move moved with
  | joined fresh _ _ _ _ => exact ⟨fresh, by simp⟩
  | refused fresh _ => exact ⟨fresh, by simp⟩

theorem Move.grows {event : NetworkEvent json} (move : Move network event next)
    (known : network.Known) : network.Grows next := by
  cases move with
  | joined accepted isOk =>
      have fresh : _ ∉ network.runtimes := fun member => (accept_fresh accepted).1 (known _ member)
      exact (Grows.newRuntime fresh _).trans (.setMaster _)
  | rejected accepted => exact .setMaster _
  | exited found closed =>
      exact .setMasterRuntime (running_eq_some.mp found).1 rfl (by simp)
  | broke found => exact .setLink found ⟨rfl, rfl, rfl, rfl, fun _ => id⟩
  | masterMoved internal moved => exact .setMaster _
  | served found calling served => exact .setMasterRuntime found rfl id
  | keptAlive kept => exact .setMaster _
  | asked found calling isFrom => exact .setRuntime (running_eq_some.mp found).1 rfl id
  | received found calling =>
      exact .setRuntime (running_eq_some.mp found).1 (Runtime.receive_name ..) (by
        rw [Runtime.receive_running]
        exact id)
  | connected found calling publisherFound fresh =>
      exact .newLinkRuntime fresh _ found rfl id
  | refused found calling => exact .setRuntime (running_eq_some.mp found).1 rfl id
  | lost found calling => exact .setRuntime (running_eq_some.mp found).1 rfl id
  | listened found linkFound publisher unanswered =>
      exact .setLinkRuntime linkFound ⟨rfl, rfl, rfl, rfl, by simp [unanswered]⟩ found rfl id
  | answered found listening linkFound isAnswer =>
      exact .setLinkRuntime linkFound ⟨rfl, rfl, rfl, rfl, fun _ => id⟩ found rfl id
  | stored found calling linkFound streamEq isOk =>
      exact .setLinkRuntime linkFound ⟨rfl, rfl, rfl, rfl, fun _ => id⟩ found rfl id
  | denied found calling linkFound streamEq isOk =>
      exact .setLinkRuntime linkFound ⟨rfl, rfl, rfl, rfl, fun _ => id⟩ found rfl id
  | @published fd type publication order runtime _ found calling listed isType =>
      have grows : network.Grows (network.setRuntime fd
          { runtime with calling := .publishing ⟨publication, order, [], []⟩ }) :=
        .setRuntime (running_eq_some.mp found).1 rfl id
      exact grows.trans (.publish _)
  | sent found visit linkFound =>
      exact .setLinkRuntime linkFound ⟨rfl, rfl, rfl, rfl, fun _ => id⟩ found rfl id
  | missed found visit linkFound notOpen => exact .setRuntime (running_eq_some.mp found).1 rfl id
  | finished found calling => exact .setRuntime (running_eq_some.mp found).1 rfl id
  | delivered found linkFound streamEq subscriber =>
      exact .setLinkRuntime linkFound ⟨rfl, rfl, rfl, rfl, fun _ => id⟩ found rfl id

theorem Move.master {event : NetworkEvent json} (move : Move network event next) :
    next.master = network.master ∨
      ∃ event, network.master.step json event = some next.master := by
  cases move with
  | joined accepted isOk => exact Or.inr ⟨_, accepted⟩
  | rejected accepted => exact Or.inr ⟨_, accepted⟩
  | exited found closed => exact Or.inr ⟨_, closed⟩
  | masterMoved internal moved => exact Or.inr ⟨_, moved⟩
  | served found calling served => exact Or.inr ⟨_, served⟩
  | keptAlive kept => exact Or.inr ⟨_, kept⟩
  | _ => exact Or.inl rfl

theorem Move.accepted {event : NetworkEvent json} (move : Move network event next) :
    network.master.accepted ⊆ next.master.accepted := by
  rcases move.master with same | ⟨event, moved⟩
  · rw [same]
    exact List.Subset.refl _
  · exact accepted_subset moved

theorem Move.runtimes {event : NetworkEvent json} (move : Move network event next) {fd : Fd}
    (member : fd ∈ next.runtimes) : fd ∈ network.runtimes ∨ fd ∈ next.master.accepted := by
  have update {network : Network json} {other : Fd} {runtime later : Runtime json}
      (found : network.runtimes.lookup other = some runtime)
      (member : fd ∈ (network.setRuntime other later).runtimes) : fd ∈ network.runtimes := by
    obtain ⟨entry, entryFound⟩ := mem_iff.mp member
    rw [lookup_setRuntime] at entryFound
    split_ifs at entryFound with same
    · exact same ▸ mem_of_lookup found
    · exact mem_of_lookup entryFound
  cases move with
  | @joined fd' name port peer text reply master accepted isOk =>
      obtain ⟨entry, entryFound⟩ := mem_iff.mp member
      rw [lookup_setRuntime] at entryFound
      split_ifs at entryFound with same
      · exact Or.inr (same ▸ (accept_fresh accepted).2)
      · exact Or.inl (mem_of_lookup entryFound)
  | rejected | broke | masterMoved | keptAlive => exact Or.inl member
  | served found => exact Or.inl (update found member)
  | exited found => exact Or.inl (update (running_eq_some.mp found).1 member)
  | asked found | received found | connected found | refused found | lost found | listened found
  | answered found | stored found | denied found | published found | sent found | missed found
  | finished found | delivered found =>
      exact Or.inl (update (running_eq_some.mp found).1 member)

/-- How a connection has come to its state: it has been set up, used, broken
or answered by the event, or it is as it was. -/
inductive LinkOrigin (network : Network json) (event : NetworkEvent json) (linkFd : Fd) :
    Link json → Prop
  | connected {fd publisherFd runtime subscription port told} :
      event = .connect fd linkFd publisherFd → network.running fd = some runtime →
      runtime.calling = .connecting subscription port told →
        LinkOrigin network event linkFd {
          subscriber := fd
          publisher := publisherFd
          subscription := subscription
          told := told }
  | used {link} (stream polled) :
      network.links.lookup linkFd = some link →
        LinkOrigin network event linkFd { link with stream := stream, polled := polled }
  | broke {link} :
      event = .breakLink linkFd → network.links.lookup linkFd = some link →
        LinkOrigin network event linkFd { link with broken := true }
  | answered {rest link runtime} :
      event = .listen link.publisher linkFd rest → network.running link.publisher = some runtime →
      network.links.lookup linkFd = some link → link.answer = none →
        LinkOrigin network event linkFd { link with
          answer := some (subscribe json runtime.pubList linkFd link.subscription.text).2 }

theorem LinkOrigin.same {event : NetworkEvent json} {linkFd : Fd} {link : Link json}
    (found : network.links.lookup linkFd = some link) : LinkOrigin network event linkFd link :=
  .used link.stream link.polled found

theorem Move.origin {event : NetworkEvent json} (move : Move network event next) {linkFd : Fd}
    {later : Link json} (found : next.links.lookup linkFd = some later) :
    LinkOrigin network event linkFd later := by
  have changed {other : Fd} {link : Link json} (origin : other = linkFd →
        LinkOrigin network event linkFd link)
      (changedFound : (network.links.insert other link).lookup linkFd = some later) :
      LinkOrigin network event linkFd later := by
    rw [lookup_insert] at changedFound
    split_ifs at changedFound with isOther
    · exact Option.some.inj changedFound ▸ origin isOther.symm
    · exact .same changedFound
  cases move with
  | connected runtimeFound calling publisherFound fresh =>
      exact changed (by rintro rfl; exact .connected rfl runtimeFound calling) found
  | broke linkFound => exact changed (by rintro rfl; exact .broke rfl linkFound) found
  | listened runtimeFound linkFound publisher unanswered =>
      subst publisher
      exact changed (by rintro rfl; exact .answered rfl runtimeFound linkFound unanswered) found
  | answered _ _ linkFound | stored _ _ linkFound | denied _ _ linkFound | sent _ _ linkFound
  | delivered _ linkFound =>
      exact changed (by rintro rfl; exact .used _ _ linkFound) found
  | _ => exact .same found

theorem LinkOrigin.continues {event : NetworkEvent json} {linkFd : Fd} {later : Link json}
    (origin : LinkOrigin network event linkFd later) :
    (∃ link, network.links.lookup linkFd = some link ∧ link.Continues later) ∨
      ∃ fd runtime port, network.running fd = some runtime ∧
        runtime.calling = .connecting later.subscription port later.told ∧
          later.subscriber = fd ∧ later.answer = none ∧ later.broken = false := by
  cases origin with
  | connected isConnect found calling =>
      exact Or.inr ⟨_, _, _, found, calling, rfl, rfl, rfl⟩
  | used stream polled found => exact Or.inl ⟨_, found, rfl, rfl, rfl, rfl, fun _ => id⟩
  | broke isBreak found => exact Or.inl ⟨_, found, rfl, rfl, rfl, rfl, fun _ => id⟩
  | answered isListen runtimeFound found unanswered =>
      exact Or.inl ⟨_, found, rfl, rfl, rfl, rfl, by simp [unanswered]⟩

theorem Known.step {event : NetworkEvent json} (known : network.Known)
    (move : Move network event next) : next.Known := by
  intro fd member
  rcases move.runtimes member with older | accepted
  · exact move.accepted (known fd older)
  · exact accepted

theorem Known.of_reachable (reachable : (networkSystem json).Reachable network) :
    network.Known := by
  refine reachable.invariant Known ?_ fun _ _ _ known moved => known.step (step_move moved)
  intro network initial fd member
  rw [initial.runtimes] at member
  exact absurd member (by simp [Finmap.notMem_empty])

/-- The master of a network is in a state that it can reach by itself. -/
theorem master_reachable (reachable : (networkSystem json).Reachable network) :
    (masterSystem json).Reachable network.master := by
  refine reachable.invariant (fun network => (masterSystem json).Reachable network.master)
    (fun network (initial : network.Initial) => ⟨[], .initial initial.master⟩) ?_
  rintro network event next ⟨history, run⟩ moved
  rcases (step_move moved).master with same | ⟨masterEvent, masterMoved⟩
  · exact same ▸ ⟨history, run⟩
  · exact ⟨_, run.step masterMoved⟩

end Network

end UBus
