import UBus.Library.Inbox
import UBus.Network.Links
import UBus.Network.TypeSafety

/-!
# Every event once, and in order

A call of `publish_event` owes the event to the subscribers that it finds in
the table.  This file follows what is written for one of them until its
callback is called.  As long as the connection is open, the callback is called
with what the subscriber is owed, in the order of the calls; the rest is on its
way.  Before that there may be one more event, which was being published when
the subscriber was recorded.

The loop over the subscribers runs beside the thread that answers them.  If
it writes to a subscriber whose reply is still to come, the subscriber takes
the event for the reply.  Its call fails then, unless the event reads as a
confirmation, in which case the event is lost.  And when a hash map moves its
entries because another thread inserts one, a loop that goes through it may
leave entries out or come to them again.
-/

namespace UBus

open FiniteMap

variable {json : JsonLibrary}

/-- What each connection has been promised by calls of `publish_event`, and
what the callback has been called with for it. -/
structure Ledger where
  due : Fd → List Bytes := fun _ => []
  called : Fd → List Bytes := fun _ => []

namespace Round

/-- The loop has the subscriber ahead. -/
def owed (round : Option Round) (name : Bytes) : Option Bytes :=
  round.bind fun round =>
    if name ∈ round.remaining then some round.publication.body else none

/-- The loop may come to the subscriber, but does not have to. -/
def late (round : Option Round) (name : Bytes) : Bool :=
  round.any fun round => name ∉ round.remaining ∧ name ∉ round.visited

theorem owed_of_mem {round : Round} {name : Bytes} (ahead : name ∈ round.remaining) :
    owed (some round) name = some round.publication.body := by
  simp [owed, ahead]

theorem owed_of_notMem {round : Round} {name : Bytes} (notAhead : name ∉ round.remaining) :
    owed (some round) name = none := by
  simp [owed, notAhead]

theorem late_of_mem {round : Round} {name : Bytes}
    (counted : name ∈ round.remaining ∨ name ∈ round.visited) : late (some round) name = false := by
  simp only [late, Option.any_some, decide_eq_false_iff_not]
  tauto

theorem visit_of_ne (round : Round) {name other : Bytes} (isOther : other ≠ name) :
    owed (some (round.visit name)) other = owed (some round) other ∧
      late (some (round.visit name)) other = late (some round) other := by
  have ahead : other ∈ round.remaining.erase name ↔ other ∈ round.remaining :=
    List.mem_erase_of_ne isOther
  constructor
  · simp [owed, visit, ahead]
  · simp [late, visit, ahead, isOther]

theorem bury_of_ne (round : Round) (name other : Bytes) (brokenPipe : Bool) :
    owed (some (round.bury name brokenPipe)) other = owed (some round) other ∧
      late (some (round.bury name brokenPipe)) other = late (some round) other := by
  constructor
  · simp [owed]
  · simp [late]

end Round

namespace Network

variable {network next : Network json}

def listening (network : Network json) (fd : Fd) : Option Fd :=
  (network.runtimes.lookup fd).bind Runtime.listening

def roundOf (network : Network json) (fd : Fd) (topic : Bytes) : Option Round :=
  (network.runtimes.lookup fd).bind fun runtime => runtime.roundOf topic

/-- A call of `publish_event` for the topic finds the connection. -/
def Reaches (network : Network json) (fd : Fd) (topic : Bytes) (linkFd : Fd) : Prop :=
  ∃ link ∈ network.links.lookup linkFd,
    network.recorded fd topic link.subscription.name = some linkFd

instance (fd : Fd) (topic : Bytes) (linkFd : Fd) : Decidable (network.Reaches fd topic linkFd) :=
  inferInstanceAs (Decidable (∃ link ∈ network.links.lookup linkFd, _))

def calls (network : Network json) (fd linkFd : Fd) (order : List Bytes) : List Bytes :=
  ((network.running fd).bind fun runtime =>
    (network.links.lookup linkFd).bind fun link =>
      link.stream.head?.bind fun frame =>
        (invocation runtime linkFd order frame).map Invocation.content).toList

def book (network : Network json) (event : NetworkEvent json) (ledger : Ledger) : Ledger :=
  match event with
  | .publish fd _ publication _ =>
      { ledger with
        due := fun linkFd =>
          if network.Reaches fd publication.topic linkFd then
            ledger.due linkFd ++ [publication.body]
          else ledger.due linkFd }
  | .deliver fd linkFd order =>
      { ledger with
        called := Function.update ledger.called linkFd
          (ledger.called linkFd ++ network.calls fd linkFd order) }
  | _ => ledger

end Network

/-- The network, with what its subscribers have been promised and have got. -/
def deliverySystem (json : JsonLibrary) :
    EventSystem (Network json × Ledger) (NetworkEvent json) :=
  (networkSystem json).observe {} Network.book

/-- An event that is written to a subscriber before its reply does not read as
a confirmation. -/
def ConfirmsNothing : Network json × Ledger → NetworkEvent json → Prop
  | (network, _), .send fd name => ∀ runtime ∈ network.running fd,
      ∀ visit ∈ Network.toVisit runtime name, runtime.listening = some visit.2 →
        saysOk json visit.1.publication.body = false
  | _, _ => True

instance (state : Network json × Ledger) (event : NetworkEvent json) :
    Decidable (ConfirmsNothing state event) :=
  match state, event with
  | (network, _), .send fd name =>
      inferInstanceAs (Decidable (∀ runtime ∈ network.running fd,
        ∀ visit ∈ Network.toVisit runtime name, runtime.listening = some visit.2 →
          saysOk json visit.1.publication.body = false))
  | _, .join .. | _, .exit _ | _, .breakLink _ | _, .master _ | _, .serve .. | _, .keepAlive _
  | _, .ask .. | _, .readAnswer _ | _, .connect .. | _, .refuse _ | _, .listen .. | _, .answer _
  | _, .readReply _ | _, .loseReply _ | _, .publish .. | _, .sendFails .. | _, .finish _
  | _, .deliver .. => isTrue trivial

def Calling.round : Calling json → Option Round
  | .publishing round => some round
  | _ => none

/-- A loop over the subscribers goes on with those that it still had to visit
when another one is recorded beside it, and a loop over `sub_list_` comes to all
topics. -/
def KeepsOrder : Network json × Ledger → NetworkEvent json → Prop
  | (network, _), .listen fd linkFd rest => ∀ runtime ∈ network.running fd,
      ∀ link ∈ network.links.lookup linkFd, ∀ round ∈ runtime.calling.round,
        round.Grows runtime.pubList
            (subscribe json runtime.pubList linkFd link.subscription.text).1 →
          rest = round.remaining
  | (network, _), .deliver fd _ order => ∀ runtime ∈ network.running fd,
      Enumerates order runtime.subList
  | _, _ => True

instance (state : Network json × Ledger) (event : NetworkEvent json) :
    Decidable (KeepsOrder state event) :=
  match state, event with
  | (network, _), .listen fd linkFd rest =>
      inferInstanceAs (Decidable (∀ runtime ∈ network.running fd,
        ∀ link ∈ network.links.lookup linkFd, ∀ round ∈ runtime.calling.round,
          round.Grows runtime.pubList
              (subscribe json runtime.pubList linkFd link.subscription.text).1 →
            rest = round.remaining))
  | (network, _), .deliver fd _ order => inferInstanceAs (Decidable (∀ runtime ∈ network.running fd,
      Enumerates order runtime.subList))
  | _, .join .. | _, .exit _ | _, .breakLink _ | _, .master _ | _, .serve .. | _, .keepAlive _
  | _, .ask .. | _, .readAnswer _ | _, .connect .. | _, .refuse _ | _, .answer _
  | _, .readReply _ | _, .loseReply _ | _, .publish .. | _, .send .. | _, .sendFails ..
  | _, .finish _ => isTrue trivial

namespace Network

variable {network next : Network json} {ledger later : Ledger}

/-- The publisher has recorded the connection for the subscription that it
carries. -/
def IsRecorded (network : Network json) (linkFd : Fd) (link : Link json) : Prop :=
  network.recorded link.publisher link.subscription.topic link.subscription.name = some linkFd

def pendingReply (network : Network json) (linkFd : Fd) (link : Link json) : List Frame :=
  if link.polled = true ∨ network.listening link.publisher = some linkFd then []
  else (link.answer.map SubscribeAnswer.frame).toList

def inbox (network : Network json) (ledger : Ledger) (linkFd : Fd) (link : Link json)
    (transit : List Bytes) : Inbox Bytes :=
  let round := network.roundOf link.publisher link.subscription.topic
  { due := ledger.due linkFd
    received := ledger.called linkFd
    transit := transit
    owed := Round.owed round link.subscription.name
    late := Round.late round link.subscription.name }

/-- The connection has the reply, if it has been written and not read, and then
`transit`. -/
structure Carries (network : Network json) (ledger : Ledger) (linkFd : Fd) (link : Link json)
    (transit : List Bytes) : Prop where
  stream : link.stream = network.pendingReply linkFd link ++ transit.map eventFrame
  silent : link.answer = none ∨ network.listening link.publisher = some linkFd →
    transit = [] ∧ link.polled = false
  unread : link.polled = false → ledger.called linkFd = []
  unanswered : link.answer = none → ledger.due linkFd = []
  account : network.IsRecorded linkFd link → (network.inbox ledger linkFd link transit).InOrder

def Denies (link : Link json) : Prop :=
  link.polled = false ∧ ∃ frame stream, link.stream = frame :: stream ∧
    saysOk json frame.data = false

/-- All open connections whose subscription goes on carry what they should, or
the subscription is about to fail. -/
def Delivers (network : Network json) (ledger : Ledger) : Prop :=
  ∀ linkFd link, network.links.lookup linkFd = some link → network.IsOpen link →
    network.Holds link.subscriber link.subscription linkFd →
      Denies link ∨ ∃ transit, network.Carries ledger linkFd link transit

/-- Connections that are not there yet have no entries. -/
def Booked (network : Network json) (ledger : Ledger) : Prop :=
  ∀ linkFd ∉ network.links, ledger.due linkFd = [] ∧ ledger.called linkFd = []

/-- For the subscriber of a connection, the publisher is where it was. -/
structure Steady (network next : Network json) (linkFd : Fd) (link : Link json) : Prop where
  listening : next.listening link.publisher = some linkFd ↔
    network.listening link.publisher = some linkFd
  recorded : next.IsRecorded linkFd link → network.IsRecorded linkFd link
  round : network.IsRecorded linkFd link →
    Round.owed (next.roundOf link.publisher link.subscription.topic) link.subscription.name =
        Round.owed (network.roundOf link.publisher link.subscription.topic)
          link.subscription.name ∧
      Round.late (next.roundOf link.publisher link.subscription.topic) link.subscription.name =
        Round.late (network.roundOf link.publisher link.subscription.topic) link.subscription.name

theorem listening_insert {fd other : Fd} {after : Runtime json}
    (runtimes : next.runtimes = network.runtimes.insert fd after) :
    next.listening other = if other = fd then after.listening else network.listening other := by
  rw [listening, runtimes, lookup_insert]
  split_ifs
  · rfl
  · rfl

theorem roundOf_insert {fd other : Fd} {after : Runtime json}
    (runtimes : next.runtimes = network.runtimes.insert fd after) (topic : Bytes) :
    next.roundOf other topic =
      if other = fd then after.roundOf topic else network.roundOf other topic := by
  rw [roundOf, runtimes, lookup_insert]
  split_ifs
  · rfl
  · rfl

theorem listening_of_lookup {fd : Fd} {runtime : Runtime json}
    (found : network.runtimes.lookup fd = some runtime) :
    network.listening fd = runtime.listening := by
  rw [listening, found]
  rfl

theorem roundOf_of_lookup {fd : Fd} {runtime : Runtime json}
    (found : network.runtimes.lookup fd = some runtime) (topic : Bytes) :
    network.roundOf fd topic = runtime.roundOf topic := by
  rw [roundOf, found]
  rfl

theorem listening_update {fd : Fd} {runtime after : Runtime json}
    (found : network.runtimes.lookup fd = some runtime)
    (runtimes : next.runtimes = network.runtimes.insert fd after)
    (listening : after.listening = runtime.listening) (other : Fd) :
    next.listening other = network.listening other := by
  rw [listening_insert runtimes]
  split_ifs with same
  · rw [same, listening_of_lookup found, listening]
  · rfl

namespace Steady

variable {linkFd : Fd} {link : Link json}

theorem of_eq (runtimes : next.runtimes = network.runtimes) :
    network.Steady next linkFd link where
  listening := by simp only [Network.listening, runtimes]
  recorded isRecorded := by
    rwa [IsRecorded, Network.recorded, runtimes] at isRecorded
  round _ := by simp only [roundOf, runtimes, and_self]

theorem of_other {fd : Fd} {after : Runtime json}
    (recorded : next.IsRecorded linkFd link → network.IsRecorded linkFd link)
    (runtimes : next.runtimes = network.runtimes.insert fd after)
    (isOther : link.publisher ≠ fd) : network.Steady next linkFd link where
  listening := by rw [listening_insert runtimes, if_neg isOther]
  recorded := recorded
  round _ := by
    rw [roundOf_insert runtimes, if_neg isOther]
    exact ⟨rfl, rfl⟩

theorem of_insert {fd : Fd} {runtime after : Runtime json}
    (recorded : next.IsRecorded linkFd link → network.IsRecorded linkFd link)
    (found : network.runtimes.lookup fd = some runtime)
    (runtimes : next.runtimes = network.runtimes.insert fd after)
    (listening : after.listening = some linkFd ↔ runtime.listening = some linkFd)
    (round : after.roundOf link.subscription.topic = runtime.roundOf link.subscription.topic) :
    network.Steady next linkFd link where
  listening := by
    rw [listening_insert runtimes]
    split_ifs with isPublisher
    · rw [isPublisher, listening_of_lookup found]
      exact listening
    · rfl
  recorded := recorded
  round _ := by
    rw [roundOf_insert runtimes]
    split_ifs with isPublisher
    · rw [isPublisher, roundOf_of_lookup found, round]
      exact ⟨rfl, rfl⟩
    · exact ⟨rfl, rfl⟩

theorem of_idle {fd : Fd} {runtime after : Runtime json}
    (recorded : next.IsRecorded linkFd link → network.IsRecorded linkFd link)
    (found : network.runtimes.lookup fd = some runtime)
    (runtimes : next.runtimes = network.runtimes.insert fd after)
    (listening : after.listening = runtime.listening)
    (before : ∀ round, runtime.calling ≠ .publishing round)
    (later : ∀ round, after.calling ≠ .publishing round) : network.Steady next linkFd link :=
  .of_insert recorded found runtimes (by rw [listening]) (by
    rw [Runtime.roundOf_eq_none before, Runtime.roundOf_eq_none later])

theorem of_visit {fd : Fd} {runtime after : Runtime json} {round later : Round} {name : Bytes}
    (recorded : next.IsRecorded linkFd link → network.IsRecorded linkFd link)
    (found : network.runtimes.lookup fd = some runtime)
    (runtimes : next.runtimes = network.runtimes.insert fd after)
    (listening : after.listening = runtime.listening)
    (before : runtime.calling = .publishing round) (calling : after.calling = .publishing later)
    (publication : later.publication = round.publication)
    (others : ∀ other, other ≠ name →
      Round.owed (some later) other = Round.owed (some round) other ∧
        Round.late (some later) other = Round.late (some round) other)
    (isOther : network.recorded fd round.publication.topic name ≠ some linkFd) :
    network.Steady next linkFd link where
  listening := by rw [listening_update found runtimes listening]
  recorded := recorded
  round isRecorded := by
    rw [roundOf_insert runtimes]
    split_ifs with isPublisher
    · rw [isPublisher, roundOf_of_lookup found]
      by_cases isTopic : round.publication.topic = link.subscription.topic
      · have otherName : link.subscription.name ≠ name := by
          rintro rfl
          rw [isTopic, ← isPublisher] at isOther
          exact isOther isRecorded
        rw [Runtime.roundOf_eq_some.mpr ⟨before, isTopic⟩,
          Runtime.roundOf_eq_some.mpr ⟨calling, publication ▸ isTopic⟩]
        exact others _ otherName
      · have noRound {runtime : Runtime json} {round' : Round}
            (isCalling : runtime.calling = .publishing round')
            (same : round'.publication = round.publication) :
            runtime.roundOf link.subscription.topic = none := by
          simp [Runtime.roundOf, isCalling, same, isTopic]
        rw [noRound before rfl, noRound calling publication]
        exact ⟨rfl, rfl⟩
    · exact ⟨rfl, rfl⟩

end Steady

theorem Carries.recount {linkFd : Fd} {link : Link json} {transit : List Bytes}
    (carries : network.Carries ledger linkFd link transit)
    (listening : next.listening link.publisher = some linkFd ↔
      network.listening link.publisher = some linkFd)
    (due : link.answer = none → later.due linkFd = [])
    (called : later.called linkFd = ledger.called linkFd)
    (account : next.IsRecorded linkFd link → (next.inbox later linkFd link transit).InOrder) :
    next.Carries later linkFd link transit where
  stream := by
    simp only [pendingReply, listening]
    exact carries.stream
  silent := by
    rw [listening]
    exact carries.silent
  unread := by
    rw [called]
    exact carries.unread
  unanswered := due
  account := account

theorem Carries.congr {linkFd : Fd} {link : Link json} {transit : List Bytes}
    (carries : network.Carries ledger linkFd link transit)
    (steady : network.Steady next linkFd link)
    (due : later.due linkFd = ledger.due linkFd)
    (called : later.called linkFd = ledger.called linkFd) :
    next.Carries later linkFd link transit := by
  refine carries.recount steady.listening (due ▸ carries.unanswered) called fun isRecorded => ?_
  obtain ⟨owed, late⟩ := steady.round (steady.recorded isRecorded)
  have same : next.inbox later linkFd link transit = network.inbox ledger linkFd link transit := by
    simp only [inbox, owed, late, due, called]
  rw [same]
  exact carries.account (steady.recorded isRecorded)

theorem Move.isOpen {event : NetworkEvent json} (move : Move network event next)
    (known : network.Known) (linked : network.Linked) {linkFd : Fd} {link after : Link json}
    (found : network.links.lookup linkFd = some link)
    (afterFound : next.links.lookup linkFd = some after) (isOpen : next.IsOpen after) :
    network.IsOpen link := by
  have stopped {fd : Fd} (member : fd ∈ network.runtimes) (running : (next.running fd).isSome) :
      (network.running fd).isSome := by
    obtain ⟨runtime, runtimeFound⟩ := mem_iff.mp member
    obtain ⟨runtime', runtimeFound', -, stopped⟩ := (move.grows known).runtimes runtimeFound
    obtain ⟨runtime'', isRunning⟩ := Option.isSome_iff_exists.mp running
    obtain ⟨runtimeFound'', stillRunning⟩ := running_eq_some.mp isRunning
    obtain rfl := Option.some.inj (runtimeFound'.symm.trans runtimeFound'')
    rw [running_eq_some.mpr ⟨runtimeFound, stopped stillRunning⟩]
    rfl
  obtain ⟨notBroken, subscriber, publisher⟩ := isOpen
  obtain ⟨subscriberKnown, publisherKnown⟩ := linked.links linkFd link found
  obtain ⟨after', afterFound', continues⟩ := (move.grows known).links found
  obtain rfl := Option.some.inj (afterFound.symm.trans afterFound')
  rw [continues.subscriber] at subscriber
  rw [continues.publisher] at publisher
  refine ⟨?_, stopped subscriberKnown subscriber, stopped publisherKnown publisher⟩
  cases move.origin afterFound with
  | connected isConnect =>
      subst isConnect
      cases move with
      | connected _ _ _ fresh => exact absurd (mem_of_lookup found) fresh
  | used stream polled before =>
      obtain rfl := Option.some.inj (found.symm.trans before)
      exact notBroken
  | broke => simp at notBroken
  | answered _ _ before =>
      obtain rfl := Option.some.inj (found.symm.trans before)
      exact notBroken

theorem Move.heldBefore {event : NetworkEvent json} (move : Move network event next)
    (linked : network.Linked) {linkFd : Fd} {link : Link json}
    (found : network.links.lookup linkFd = some link)
    (holds : next.Holds link.subscriber link.subscription linkFd) :
    network.Holds link.subscriber link.subscription linkFd := by
  obtain ⟨after, afterRunning, isHeld⟩ := holds
  obtain ⟨afterFound, stillRunning⟩ := running_eq_some.mp afterRunning
  have changed {other : Fd} {before later : Runtime json}
      (beforeFound : network.runtimes.lookup other = some before)
      (laterFound : (network.runtimes.insert other later).lookup link.subscriber = some after)
      (running : later.running → before.running)
      (held : later.Holds link.subscription linkFd → before.Holds link.subscription linkFd) :
      network.Holds link.subscriber link.subscription linkFd := by
    rw [lookup_insert] at laterFound
    split_ifs at laterFound with isOther
    · obtain rfl := Option.some.inj laterFound
      exact ⟨before, running_eq_some.mpr ⟨isOther ▸ beforeFound, running stillRunning⟩,
        held isHeld⟩
    · exact ⟨after, running_eq_some.mpr ⟨laterFound, stillRunning⟩, isHeld⟩
  cases move with
  | rejected | broke | masterMoved | keptAlive => exact ⟨after, afterRunning, isHeld⟩
  | joined accepted isOk =>
      change (network.runtimes.insert _ _).lookup _ = _ at afterFound
      rw [lookup_insert] at afterFound
      split_ifs at afterFound with isOther
      · obtain rfl := Option.some.inj afterFound
        simp [Runtime.Holds] at isHeld
      · exact ⟨after, running_eq_some.mpr ⟨afterFound, stillRunning⟩, isHeld⟩
  | exited before =>
      exact changed (running_eq_some.mp before).1 afterFound (by simp) fun held => held
  | served before =>
      exact changed before afterFound id fun held => Or.inr (held.resolve_left (by simp))
  | @received fd runtime question reply told before calling =>
      have running := runtime.receive_running question reply.data told
      have subList := runtime.receive_subList question reply.data told
      have notAwaiting : (runtime.receive question reply.data told).calling.awaited = none :=
        (receive_calling ..).1
      exact changed (running_eq_some.mp before).1 afterFound (running ▸ id) fun held =>
        held.keep notAwaiting subList.symm
  | asked before | refused before | lost before | denied before | published before | sent before
  | missed before | finished before =>
      exact changed (running_eq_some.mp before).1 afterFound id fun held =>
        Or.inr (held.resolve_left (by simp))
  | connected before calling publisherFound fresh =>
      refine changed (running_eq_some.mp before).1 afterFound id fun held =>
        Or.inr (held.resolve_left fun isAwaiting => ?_)
      obtain ⟨-, rfl⟩ := Calling.awaiting.inj isAwaiting
      exact fresh (mem_of_lookup found)
  | listened before =>
      exact changed (running_eq_some.mp before).1 afterFound id fun held =>
        held.imp_left Calling.goOn_eq_awaiting.mp
  | answered before | delivered before =>
      exact changed (running_eq_some.mp before).1 afterFound id fun held => held
  | stored before calling awaitedFound =>
      refine changed (running_eq_some.mp before).1 afterFound id fun held => ?_
      have isStored := held.resolve_left (by simp)
      rw [lookup_insert] at isStored
      split_ifs at isStored with sameTopic
      · obtain rfl := Option.some.inj isStored
        obtain ⟨link', found', -, isAbout, -⟩ :=
          (linked.runtimes _ _ (running_eq_some.mp before).1).awaiting calling
        obtain rfl := Option.some.inj (found.symm.trans found')
        exact Or.inl (isAbout ▸ calling)
      · exact Or.inr isStored

theorem Denies.append {link : Link json} (frames : List Frame) (denies : Denies link) :
    Denies { link with stream := link.stream ++ frames } := by
  obtain ⟨notPolled, frame, stream, streamEq, notOk⟩ := denies
  exact ⟨notPolled, frame, stream ++ frames, by rw [streamEq, List.cons_append], notOk⟩

theorem Move.isRecorded (roundTrips : json.RoundTrips) {event : NetworkEvent json}
    (move : Move network event next) {linkFd : Fd} {link : Link json}
    (notHandled : ∀ fd rest, event ≠ .listen fd linkFd rest)
    (isRecorded : next.IsRecorded linkFd link) : network.IsRecorded linkFd link := by
  rcases move.recorded roundTrips isRecorded with older | ⟨rest, runtime, link, isListen, -⟩
  · exact older
  · exact absurd isListen (notHandled _ rest)

/-- A subscription that is recorded now was not recorded when the round in
progress began. -/
theorem owed_of_fresh {fd : Fd} {runtime : Runtime json} {topic name : Bytes}
    (linked : network.RuntimeLinked fd runtime) (fresh : runtime.recorded topic name = none) :
    Round.owed (runtime.roundOf topic) name = none := by
  cases isRound : runtime.roundOf topic with
  | none => rfl
  | some round =>
      obtain ⟨calling, rfl⟩ := Runtime.roundOf_eq_some.mp isRound
      refine Round.owed_of_notMem fun ahead => ?_
      obtain ⟨linkFd, isRecorded⟩ := (linked.publishing calling).recorded name (Or.inl ahead)
      simp [fresh] at isRecorded

theorem goOn_remaining {runtime : Runtime json} {subscription : Subscription json} {linkFd : Fd}
    (roundTrips : json.RoundTrips) {round : Round} (visits : runtime.Visits round) :
    round.goOn runtime.pubList (subscribe json runtime.pubList linkFd subscription.text).1
      round.remaining = round := by
  let later : Runtime json := { runtime with
    pubList := (subscribe json runtime.pubList linkFd subscription.text).1 }
  have recorded : ∀ name ∈ round.remaining,
      name ∈ subscribersOf later.pubList round.publication.topic := by
    intro name ahead
    obtain ⟨socket, isRecorded⟩ := visits.recorded name (Or.inl ahead)
    have stillRecorded : later.recorded round.publication.topic name = some socket :=
      recorded_listen roundTrips rfl isRecorded
    exact Runtime.mem_of_recorded stillRecorded
  unfold Round.goOn
  split_ifs
  · have remaining : (round.remaining.filter
        (· ∈ subscribersOf later.pubList round.publication.topic)).dedup = round.remaining := by
      rw [List.filter_eq_self.mpr (by simpa using recorded), visits.once.dedup]
    have visited : round.visited.filter (· ∉ round.remaining) = round.visited := by
      refine List.filter_eq_self.mpr fun name isVisited => decide_eq_true fun ahead => ?_
      exact visits.ahead name ahead isVisited
    simp only [Round.divert]
    rw [remaining, visited]
  · rfl

theorem goOn_of_keepsOrder (roundTrips : json.RoundTrips) {fd linkFd : Fd} {rest : List Bytes}
    {runtime : Runtime json} {link : Link json}
    (keepsOrder : KeepsOrder (network, ledger) (.listen fd linkFd rest))
    (linked : network.RuntimeLinked fd runtime) (found : network.running fd = some runtime)
    (linkFound : network.links.lookup linkFd = some link) :
    runtime.calling.goOn runtime.pubList
      (subscribe json runtime.pubList linkFd link.subscription.text).1 rest = runtime.calling := by
  cases calling : runtime.calling with
  | publishing round =>
      refine congrArg Calling.publishing ?_
      by_cases grows : round.Grows runtime.pubList
          (subscribe json runtime.pubList linkFd link.subscription.text).1
      · obtain rfl := keepsOrder runtime found link linkFound round (by simp [calling,
          Calling.round]) grows
        exact goOn_remaining roundTrips (linked.publishing calling)
      · exact if_neg grows
  | _ => rfl

theorem Carries.listened (roundTrips : json.RoundTrips) {linkFd : Fd} {link : Link json}
    {runtime : Runtime json} {transit : List Bytes}
    (carries : network.Carries ledger linkFd link transit) (linked : network.Linked)
    (records : network.RecordsAccepted)
    (found : network.running link.publisher = some runtime)
    (linkFound : network.links.lookup linkFd = some link) (unanswered : link.answer = none)
    {rest : List Bytes} (move : Move network (.listen link.publisher linkFd rest) next)
    (runtimes : next.runtimes = network.runtimes.insert link.publisher
      { runtime with
        pubList := (subscribe json runtime.pubList linkFd link.subscription.text).1
        listening := some linkFd }) (answer : SubscribeAnswer) :
    next.Carries ledger linkFd { link with answer := some answer } transit := by
  have runtimeFound := (running_eq_some.mp found).1
  obtain ⟨rfl, notPolled⟩ := carries.silent (Or.inl unanswered)
  have listening : next.listening link.publisher = some linkFd := by
    rw [listening_insert runtimes, if_pos rfl]
  refine ⟨?_, fun _ => ⟨rfl, notPolled⟩, carries.unread, by simp, fun isRecorded => ?_⟩
  · have stream := carries.stream
    simpa [pendingReply, unanswered, listening] using stream
  · have due := carries.unanswered unanswered
    have called := carries.unread notPolled
    rcases move.recorded roundTrips isRecorded with older |
      ⟨_, runtime', link', -, found', linkFound', -, -, -, isOk⟩
    · obtain ⟨link', found', -, -, -, isOk⟩ := records _ _ _ _ older
      obtain rfl := Option.some.inj (linkFound.symm.trans found')
      simp [unanswered] at isOk
    · obtain rfl := Option.some.inj (found.symm.trans found')
      obtain rfl := Option.some.inj (linkFound.symm.trans linkFound')
      have owed := owed_of_fresh (linked.runtimes _ _ runtimeFound) (recorded_of_ok roundTrips isOk)
      have round : next.roundOf link.publisher link.subscription.topic =
          runtime.roundOf link.subscription.topic := by
        rw [roundOf_insert runtimes, if_pos rfl]
        rfl
      simp only [inbox, due, called, round, owed]
      exact .joined _

theorem Carries.answered {linkFd : Fd} {link : Link json} {runtime : Runtime json}
    {answer : SubscribeAnswer} {transit : List Bytes}
    (carries : network.Carries ledger linkFd link transit)
    (recorded : next.IsRecorded linkFd link → network.IsRecorded linkFd link)
    (found : network.runtimes.lookup link.publisher = some runtime)
    (isListening : runtime.listening = some linkFd) (isAnswer : link.answer = some answer)
    (runtimes : next.runtimes = network.runtimes.insert link.publisher
      { runtime with listening := none }) :
    next.Carries ledger linkFd { link with stream := link.stream ++ [answer.frame] } transit := by
  have before : network.listening link.publisher = some linkFd :=
    (listening_of_lookup found).trans isListening
  have after : next.listening link.publisher = none := by rw [listening_insert runtimes, if_pos rfl]
  have round (topic : Bytes) :
      next.roundOf link.publisher topic = network.roundOf link.publisher topic := by
    rw [roundOf_insert runtimes, if_pos rfl, roundOf_of_lookup found]
    rfl
  obtain ⟨rfl, notPolled⟩ := carries.silent (Or.inr before)
  refine ⟨?_, fun _ => ⟨rfl, notPolled⟩, carries.unread, by simp [isAnswer], fun isRecorded => ?_⟩
  · have stream := carries.stream
    simp only [pendingReply, before, or_true, if_true] at stream
    simp [pendingReply, notPolled, isAnswer, after, stream]
  · have inOrder := carries.account (recorded isRecorded)
    simp only [inbox, ← round] at inOrder
    exact inOrder

theorem Carries.stored {linkFd : Fd} {link : Link json} {frame : Frame} {stream : List Frame}
    {transit : List Bytes} (carries : network.Carries ledger linkFd link transit)
    (steady : network.Steady next linkFd link) (notPolled : link.polled = false)
    (streamEq : link.stream = frame :: stream) :
    next.Carries ledger linkFd { link with stream := stream, polled := true } transit := by
  have head := carries.stream
  have written : ¬ (link.answer = none ∨ network.listening link.publisher = some linkFd) := by
    intro isSilent
    obtain ⟨rfl, -⟩ := carries.silent isSilent
    rcases isSilent with unanswered | isListening
    · simp [pendingReply, unanswered, streamEq] at head
    · simp [pendingReply, isListening, streamEq] at head
  obtain ⟨isAnswered, notListening⟩ := not_or.mp written
  obtain ⟨answer, isAnswer⟩ := Option.ne_none_iff_exists'.mp isAnswered
  have same := carries.congr steady rfl rfl
  refine ⟨?_, fun isSilent => ?_, by simp, same.unanswered, same.account⟩
  · simp only [pendingReply, notPolled, notListening, isAnswer, streamEq] at head
    simpa [pendingReply] using (List.cons.inj head).2
  · rcases isSilent with unanswered | isListening
    · exact absurd unanswered isAnswered
    · exact absurd (steady.listening.mp isListening) notListening

theorem Carries.delivered {linkFd : Fd} {link : Link json} {data : Bytes} {stream : List Frame}
    {transit : List Bytes} (carries : network.Carries ledger linkFd link (data :: transit))
    (steady : network.Steady next linkFd link) (polled : link.polled = true)
    (streamEq : link.stream = eventFrame data :: stream)
    (due : later.due linkFd = ledger.due linkFd)
    (called : later.called linkFd = ledger.called linkFd ++ [data]) :
    next.Carries later linkFd { link with stream := stream } transit := by
  have head := carries.stream
  refine ⟨?_, fun isSilent => ?_, by simp [polled], fun unanswered => ?_, fun isRecorded => ?_⟩
  · rw [streamEq] at head
    simp only [pendingReply, polled, true_or, if_true, List.nil_append, List.map_cons] at head
    simpa [pendingReply, polled] using (List.cons.inj head).2
  · obtain ⟨-, notPolled⟩ := carries.silent (isSilent.imp id steady.listening.mp)
    simp [polled] at notPolled
  · rw [due]
    exact carries.unanswered unanswered
  · obtain ⟨owed, late⟩ := steady.round (steady.recorded isRecorded)
    have inOrder := (carries.account (steady.recorded isRecorded)).take rfl
    simp only [inbox, owed, late, due, called]
    exact inOrder

/-- A call of `publish_event` for the topic of a recorded connection. -/
theorem Carries.published {linkFd : Fd} {link : Link json} {transit : List Bytes}
    (carries : network.Carries ledger linkFd link transit) (round : Round)
    (listening : next.listening link.publisher = network.listening link.publisher)
    (isRecorded : network.IsRecorded linkFd link) (answered : link.answer ≠ none)
    (before : network.roundOf link.publisher link.subscription.topic = none)
    (after : next.roundOf link.publisher link.subscription.topic = some round)
    (ahead : link.subscription.name ∈ round.remaining)
    (due : later.due linkFd = ledger.due linkFd ++ [round.publication.body])
    (called : later.called linkFd = ledger.called linkFd) :
    next.Carries later linkFd link transit := by
  refine carries.recount (by rw [listening]) (absurd · answered) called fun _ => ?_
  have inOrder := carries.account isRecorded
  simp only [inbox, before] at inOrder
  simp only [inbox, after, due, called, Round.owed_of_mem ahead, Round.late_of_mem (Or.inl ahead)]
  exact inOrder.announce rfl

theorem Carries.finished {linkFd : Fd} {link : Link json} {transit : List Bytes}
    {round : Round} (carries : network.Carries ledger linkFd link transit)
    (listening : next.listening link.publisher = network.listening link.publisher)
    (recorded : next.IsRecorded linkFd link → network.IsRecorded linkFd link)
    (before : network.roundOf link.publisher link.subscription.topic = some round)
    (nothing : round.remaining = [])
    (after : next.roundOf link.publisher link.subscription.topic = none) :
    next.Carries ledger linkFd link transit := by
  refine carries.recount (by rw [listening]) carries.unanswered rfl fun isRecorded => ?_
  have inOrder := carries.account (recorded isRecorded)
  have owed : (network.inbox ledger linkFd link transit).owed = none := by
    simp only [inbox, before]
    exact Round.owed_of_notMem (by simp [nothing])
  have finished := inOrder.finish owed
  simp only [inbox, after]
  exact finished

theorem Carries.sent {linkFd : Fd} {link : Link json} {transit : List Bytes} {round : Round}
    (carries : network.Carries ledger linkFd link transit)
    (listening : next.listening link.publisher = network.listening link.publisher)
    (isRecorded : network.IsRecorded linkFd link)
    (written : link.answer ≠ none ∧ network.listening link.publisher ≠ some linkFd)
    (before : network.roundOf link.publisher link.subscription.topic = some round)
    (notVisited : link.subscription.name ∉ round.visited) (once : round.remaining.Nodup)
    (after : next.roundOf link.publisher link.subscription.topic =
      some (round.visit link.subscription.name)) :
    next.Carries ledger linkFd
      { link with stream := link.stream ++ [eventFrame round.publication.body] }
      (transit ++ [round.publication.body]) where
  stream := by
    simp only [pendingReply, listening, carries.stream, List.map_append, List.append_assoc,
      List.map_cons, List.map_nil]
  silent := by
    rw [listening]
    exact fun isSilent => absurd isSilent (not_or.mpr written)
  unread := carries.unread
  unanswered unanswered := absurd unanswered written.1
  account _ := by
    have inOrder := carries.account isRecorded
    have notAhead : link.subscription.name ∉ (round.visit link.subscription.name).remaining :=
      once.not_mem_erase
    have isVisited : link.subscription.name ∈ (round.visit link.subscription.name).visited :=
      List.mem_cons_self
    simp only [inbox, before] at inOrder
    simp only [inbox, after, Round.owed_of_notMem notAhead, Round.late_of_mem (Or.inr isVisited)]
    by_cases ahead : link.subscription.name ∈ round.remaining
    · exact inOrder.hand (Round.owed_of_mem ahead)
    · exact inOrder.handLate (by simp [Round.late, ahead, notVisited])

/-- The entry of `sub_list_` that a connection belongs to is the one whose
callback is called. -/
theorem calls_of_subscribed {fd linkFd : Fd} {runtime : Runtime json} {link : Link json}
    {data : Bytes} {stream : List Frame} {order : List Bytes}
    (found : network.running fd = some runtime)
    (linkFound : network.links.lookup linkFd = some link)
    (streamEq : link.stream = eventFrame data :: stream)
    (isStored : (runtime.subList.lookup link.subscription.topic).map SubEventInfo.socket =
      some linkFd) (enumerates : Enumerates order runtime.subList) :
    network.calls fd linkFd order = [data] := by
  obtain ⟨subEventInfo, listed, rfl⟩ := Option.map_eq_some_iff.mp isStored
  have member : link.subscription.topic ∈ order := by
    rw [← List.mem_toFinset, enumerates.2, Finmap.mem_keys]
    exact mem_of_lookup listed
  have isCalled : ((invocation runtime subEventInfo.socket order (eventFrame data)).map
      Invocation.content) = some data := by
    cases isInvoked : invocation runtime subEventInfo.socket order (eventFrame data) with
    | some invoked =>
        obtain ⟨-, subEventInfo', -, -, -, content⟩ := invocation_eq_some isInvoked
        exact congrArg some content
    | none =>
        simp only [invocation, eventFrame, if_true, List.findSome?_eq_none_iff] at isInvoked
        simpa [listed] using isInvoked _ member
  simp [calls, found, linkFound, streamEq, isCalled]

theorem Booked.step {event : NetworkEvent json} (booked : network.Booked ledger)
    (known : network.Known)
    (moved : network.step event = some next) : next.Booked (network.book event ledger) := by
  intro linkFd fresh
  have older : linkFd ∉ network.links := by
    intro member
    obtain ⟨link, found⟩ := mem_iff.mp member
    obtain ⟨later, laterFound, -⟩ := ((step_move moved).grows known).links found
    exact fresh (mem_of_lookup laterFound)
  obtain ⟨due, called⟩ := booked linkFd older
  unfold book
  split
  · rename_i fd type publication order
    have notReached : ¬ network.Reaches fd publication.topic linkFd := by
      rintro ⟨link, found, -⟩
      exact older (mem_of_lookup found)
    exact ⟨(if_neg notReached).trans due, called⟩
  · rename_i fd other order
    have isOther : linkFd ≠ other := by
      rintro rfl
      obtain ⟨runtime, link, -, found, -⟩ := step_deliver moved
      exact older (mem_of_lookup found)
    exact ⟨due, (Function.update_of_ne isOther ..).trans called⟩
  · exact ⟨due, called⟩

theorem Delivers.step (roundTrips : json.RoundTrips) {event : NetworkEvent json}
    (delivers : network.Delivers ledger) (booked : network.Booked ledger) (known : network.Known)
    (linked : network.Linked) (records : network.RecordsAccepted)
    (guarded : ConfirmsNothing (network, ledger) event)
    (keepsOrder : KeepsOrder (network, ledger) event) (moved : network.step event = some next) :
    next.Delivers (network.book event ledger) := by
  intro linkFd link linkFound isOpen holds
  have move := step_move moved
  have older {before} (found : network.links.lookup linkFd = some before) :
      Denies before ∨ ∃ transit, network.Carries ledger linkFd before transit := by
    obtain ⟨link', found', continues⟩ := (move.grows known).links found
    obtain rfl := Option.some.inj (linkFound.symm.trans found')
    rw [continues.subscriber, continues.subscription] at holds
    exact delivers linkFd before found (move.isOpen known linked found linkFound isOpen)
      (move.heldBefore linked found holds)
  have recorded {link} (notHandled : ∀ fd rest, event ≠ .listen fd linkFd rest) :
      next.IsRecorded linkFd link → network.IsRecorded linkFd link :=
    move.isRecorded roundTrips notHandled
  -- the connection is as it was, and so are its entries
  have same (found : network.links.lookup linkFd = some link)
      (steady : network.Steady next linkFd link)
      (due : (network.book event ledger).due linkFd = ledger.due linkFd)
      (called : (network.book event ledger).called linkFd = ledger.called linkFd) :
      Denies link ∨ ∃ transit, next.Carries (network.book event ledger) linkFd link transit :=
    (older found).imp_right fun ⟨transit, carries⟩ => ⟨transit, carries.congr steady due called⟩
  have moves := move
  cases move with
  | rejected | masterMoved | keptAlive => exact same linkFound (.of_eq rfl) rfl rfl
  | broke found =>
      rw [lookup_setLink] at linkFound
      split_ifs at linkFound with isBroken
      · obtain rfl := Option.some.inj linkFound
        simp [IsOpen] at isOpen
      · exact same linkFound (.of_eq rfl) rfl rfl
  | @joined fd =>
      rename_i accepted isOk
      have isOther : link.publisher ≠ fd := by
        intro isJoining
        have member := (linked.links linkFd link linkFound).2
        exact (accept_fresh accepted).1 (known _ (isJoining ▸ member))
      exact same linkFound (.of_other (recorded (by simp)) rfl isOther) rfl rfl
  | exited found =>
      exact same linkFound (.of_insert (recorded (by simp)) (running_eq_some.mp found).1 rfl Iff.rfl
        rfl) rfl rfl
  | served found calling =>
      exact same linkFound (.of_idle (recorded (by simp)) found rfl rfl (by simp [calling])
        (by simp)) rfl rfl
  | asked found calling | refused found calling | lost found calling =>
      exact same linkFound (.of_idle (recorded (by simp)) (running_eq_some.mp found).1 rfl rfl
        (by simp [calling]) (by simp)) rfl rfl
  | received found calling =>
      exact same linkFound (.of_idle (recorded (by simp)) (running_eq_some.mp found).1 rfl
        (receive_listening ..) (by simp [calling]) (receive_calling ..).2) rfl rfl
  | connected found calling publisherFound fresh =>
      change (network.links.insert _ _).lookup linkFd = _ at linkFound
      rw [lookup_insert] at linkFound
      split_ifs at linkFound with isNew
      · subst isNew
        obtain rfl := Option.some.inj linkFound
        obtain ⟨due, called⟩ := booked linkFd fresh
        refine Or.inr ⟨[], by simp [pendingReply], fun _ => ⟨rfl, rfl⟩, fun _ => called,
          fun _ => due, fun isRecorded => ?_⟩
        obtain ⟨link', found', -⟩ := records _ _ _ _ (recorded (by simp) isRecorded)
        exact absurd (mem_of_lookup found') fresh
      · exact same linkFound (.of_idle (recorded (by simp)) (running_eq_some.mp found).1 rfl rfl
          (by simp [calling]) (by simp)) rfl rfl
  | @listened fd _ _ runtime _ found before publisher unanswered =>
      have runtimeFound := (running_eq_some.mp found).1
      have sameCall := goOn_of_keepsOrder roundTrips keepsOrder
        (linked.runtimes fd runtime runtimeFound) found before
      change (network.links.insert _ _).lookup linkFd = _ at linkFound
      rw [lookup_insert] at linkFound
      split_ifs at linkFound with isHandled
      · subst isHandled publisher
        obtain rfl := Option.some.inj linkFound
        exact (older before).imp_right fun ⟨transit, carries⟩ => ⟨transit,
          carries.listened roundTrips linked records found before unanswered moves
            (by simp only [setRuntime, setLink, sameCall]) _⟩
      · obtain ⟨runtime', found', notListening⟩ := step_listen moved
        obtain rfl := Option.some.inj (found.symm.trans found')
        exact same linkFound (.of_insert (recorded (by simp [Ne.symm isHandled]))
          runtimeFound rfl (by simp [notListening, Ne.symm isHandled])
          (by simp only [Runtime.roundOf, sameCall])) rfl rfl
  | answered found isListening before isAnswer =>
      have runtimeFound := (running_eq_some.mp found).1
      obtain ⟨link', found', publisher⟩ :=
        (linked.runtimes _ _ runtimeFound).listening isListening
      obtain rfl := Option.some.inj (before.symm.trans found')
      change (network.links.insert _ _).lookup linkFd = _ at linkFound
      rw [lookup_insert] at linkFound
      split_ifs at linkFound with isAnswered
      · subst isAnswered publisher
        obtain rfl := Option.some.inj linkFound
        exact (older before).imp (Denies.append _) fun ⟨transit, carries⟩ => ⟨transit,
          carries.answered (recorded (by simp)) runtimeFound isListening isAnswer rfl⟩
      · exact same linkFound (.of_insert (recorded (by simp)) runtimeFound rfl
          (by simp [isListening, Ne.symm isAnswered]) rfl) rfl rfl
  | stored found calling before streamEq isOk =>
      have runtimeFound := (running_eq_some.mp found).1
      obtain ⟨link', found', -, -, notPolled⟩ := (linked.runtimes _ _ runtimeFound).awaiting calling
      obtain rfl := Option.some.inj (before.symm.trans found')
      change (network.links.insert _ _).lookup linkFd = _ at linkFound
      rw [lookup_insert] at linkFound
      split_ifs at linkFound with isRead
      · subst isRead
        obtain rfl := Option.some.inj linkFound
        rcases older before with ⟨-, frame', stream', streamEq', notOk⟩ | ⟨transit, carries⟩
        · obtain ⟨rfl, rfl⟩ := List.cons.inj (streamEq.symm.trans streamEq')
          simp [isOk] at notOk
        · exact Or.inr ⟨transit, carries.stored (.of_idle (recorded (by simp)) runtimeFound rfl rfl
            (by simp [calling]) (by simp)) notPolled streamEq⟩
      · exact same linkFound (.of_idle (recorded (by simp)) runtimeFound rfl rfl
          (by simp [calling]) (by simp)) rfl rfl
  | @denied fd linkFd' runtime subscription before frame stream found calling beforeFound =>
      have runtimeFound := (running_eq_some.mp found).1
      obtain ⟨before', found', isSubscriber, -, notPolled⟩ :=
        (linked.runtimes _ _ runtimeFound).awaiting calling
      obtain rfl := Option.some.inj (beforeFound.symm.trans found')
      change (network.links.insert _ _).lookup linkFd = _ at linkFound
      rw [lookup_insert] at linkFound
      split_ifs at linkFound with isRead
      · subst isRead isSubscriber
        obtain rfl := Option.some.inj linkFound
        -- the subscription has come to nothing
        obtain ⟨runtime', found', isHeld⟩ := holds
        have runtimeFound' := (running_eq_some.mp found').1
        rw [lookup_setRuntime, if_pos rfl] at runtimeFound'
        obtain rfl := Option.some.inj runtimeFound'
        obtain ⟨subEventInfo, listed, isSocket⟩ :=
          Option.map_eq_some_iff.mp (isHeld.resolve_left (by simp))
        obtain ⟨polled, polledFound, -, -, isPolled⟩ :=
          (linked.runtimes _ _ runtimeFound).subscribed listed
        rw [isSocket] at polledFound
        obtain rfl := Option.some.inj (beforeFound.symm.trans polledFound)
        simp [notPolled] at isPolled
      · exact same linkFound (.of_idle (recorded (by simp)) runtimeFound rfl rfl
          (by simp [calling]) (by simp)) rfl rfl
  | @published fd type publication order runtime pubEventInfo found idle listed =>
      have runtimeFound := (running_eq_some.mp found).1
      obtain ⟨runtime', pubEventInfo', found', listed', enumerates⟩ := step_publish moved
      obtain rfl := Option.some.inj (found.symm.trans found')
      obtain rfl := Option.some.inj (listed.symm.trans listed')
      refine (older linkFound).imp_right fun ⟨transit, carries⟩ => ?_
      by_cases reached : network.Reaches fd publication.topic linkFd
      · have isDue : (if network.Reaches fd publication.topic linkFd then
            ledger.due linkFd ++ [publication.body] else ledger.due linkFd) =
              ledger.due linkFd ++ [publication.body] := if_pos reached
        obtain ⟨link', found', isRecorded⟩ := reached
        obtain rfl := Option.some.inj (linkFound.symm.trans found')
        obtain ⟨link', found', isPublisher, isTopic, -, isOk⟩ := records _ _ _ _ isRecorded
        obtain rfl := Option.some.inj (linkFound.symm.trans found')
        subst isPublisher
        have ahead : link.subscription.name ∈ order := by
          simp only [Network.recorded, runtimeFound, Option.bind_some, Runtime.recorded, listed]
            at isRecorded
          rw [← List.mem_toFinset, enumerates.2, Finmap.mem_keys]
          exact mem_of_lookup isRecorded
        have before : network.roundOf link.publisher link.subscription.topic = none := by
          rw [roundOf_of_lookup runtimeFound]
          exact Runtime.roundOf_eq_none (by simp [idle]) _
        rw [← isTopic] at isRecorded
        exact ⟨transit, carries.published ⟨publication, order, [], []⟩
          (listening_update runtimeFound rfl (by rfl) _) isRecorded (by simp [isOk]) before
          ((roundOf_insert rfl _).trans ((if_pos rfl).trans
            (Runtime.roundOf_eq_some.mpr ⟨rfl, isTopic.symm⟩))) ahead isDue rfl⟩
      · have due : (if network.Reaches fd publication.topic linkFd then
            ledger.due linkFd ++ [publication.body] else ledger.due linkFd) =
              ledger.due linkFd := if_neg reached
        by_cases isPublisher : link.publisher = fd
        · refine ⟨transit, carries.congr ⟨by rw [listening_update runtimeFound rfl (by rfl)],
            recorded (by simp), fun isRecorded => ?_⟩ due rfl⟩
          -- the call is about another topic
          have otherTopic : publication.topic ≠ link.subscription.topic := by
            intro isTopic
            exact reached ⟨link, linkFound, by rw [isTopic, ← isPublisher]; exact isRecorded⟩
          have before : network.roundOf link.publisher link.subscription.topic = none := by
            rw [isPublisher, roundOf_of_lookup runtimeFound]
            exact Runtime.roundOf_eq_none (by simp [idle]) _
          have after : (network.setRuntime fd { runtime with
              calling := .publishing ⟨publication, order, [], []⟩ }).roundOf link.publisher
                link.subscription.topic = none := by
            rw [roundOf_insert rfl, if_pos isPublisher]
            simp [Runtime.roundOf, otherTopic]
          exact ⟨congrArg (Round.owed · _) (after.trans before.symm),
            congrArg (Round.late · _) (after.trans before.symm)⟩
        · exact ⟨transit, carries.congr (.of_other (recorded (by simp)) rfl isPublisher) due rfl⟩
  | @sent fd name runtime round linkFd' before found visit beforeFound =>
      have runtimeFound := (running_eq_some.mp found).1
      obtain ⟨calling, notVisited, isRecorded⟩ := recorded_toVisit visit
      have notOk := guarded runtime found _ visit
      have recordedBefore : network.recorded fd round.publication.topic name = some linkFd' := by
        simp only [Network.recorded, runtimeFound, Option.bind_some, isRecorded]
      change (network.links.insert _ _).lookup linkFd = _ at linkFound
      rw [lookup_insert] at linkFound
      split_ifs at linkFound with isWritten
      · subst isWritten
        obtain rfl := Option.some.inj linkFound
        obtain ⟨before', found', rfl, isTopic, rfl, isOk⟩ := records _ _ _ _ recordedBefore
        obtain rfl := Option.some.inj (beforeFound.symm.trans found')
        rcases older beforeFound with denies | ⟨transit, carries⟩
        · exact Or.inl (Denies.append _ denies)
        · by_cases isListening : network.listening before.publisher = some linkFd
          · obtain ⟨rfl, notPolled⟩ := carries.silent (Or.inr isListening)
            have stream := carries.stream
            simp only [pendingReply, isListening, or_true, if_true, List.map_nil,
              List.append_nil] at stream
            rw [listening_of_lookup runtimeFound] at isListening
            exact Or.inl ⟨notPolled, _, [], by rw [stream]; rfl, notOk isListening⟩
          · have once := ((linked.runtimes _ _ runtimeFound).publishing calling).once
            have inRound : network.roundOf before.publisher before.subscription.topic =
                some round := by
              rw [roundOf_of_lookup runtimeFound]
              exact Runtime.roundOf_eq_some.mpr ⟨calling, isTopic.symm⟩
            rw [← isTopic] at recordedBefore
            exact Or.inr ⟨_, carries.sent (listening_update runtimeFound rfl (by rfl) _)
              recordedBefore ⟨by simp [isOk], isListening⟩ inRound notVisited once
              ((roundOf_insert rfl _).trans ((if_pos rfl).trans
                (Runtime.roundOf_eq_some.mpr ⟨rfl, isTopic.symm⟩)))⟩
      · refine same linkFound (.of_visit (recorded (by simp)) runtimeFound rfl rfl calling rfl rfl
          (fun _ => round.visit_of_ne) ?_) rfl rfl
        rw [recordedBefore]
        simpa using Ne.symm isWritten
  | @missed fd name brokenPipe runtime round linkFd' before found visit beforeFound notOpen =>
      have runtimeFound := (running_eq_some.mp found).1
      obtain ⟨calling, notVisited, isRecorded⟩ := recorded_toVisit visit
      have recordedBefore : network.recorded fd round.publication.topic name = some linkFd' := by
        simp only [Network.recorded, runtimeFound, Option.bind_some, isRecorded]
      by_cases isMissed : linkFd = linkFd'
      · subst isMissed
        have isOpenBefore := moves.isOpen known linked beforeFound linkFound isOpen
        exact absurd isOpenBefore notOpen
      · refine same linkFound (.of_visit (recorded (by simp)) runtimeFound rfl rfl calling rfl
          (Round.bury_publication ..) (fun other (isOther : other ≠ name) => ?_) ?_) rfl rfl
        · obtain ⟨owed, late⟩ := (round.visit name).bury_of_ne name other brokenPipe
          obtain ⟨owed', late'⟩ := round.visit_of_ne isOther
          exact ⟨owed.trans owed', late.trans late'⟩
        · rw [recordedBefore]
          simpa using Ne.symm isMissed
  | @finished fd runtime round found calling =>
      have runtimeFound := (running_eq_some.mp found).1
      obtain ⟨runtime', round', found', calling', nothing⟩ := step_finish moved
      obtain rfl := Option.some.inj (found.symm.trans found')
      obtain rfl := Calling.publishing.inj (calling.symm.trans calling')
      by_cases isPublisher : link.publisher = fd
      · subst isPublisher
        by_cases isTopic : round.publication.topic = link.subscription.topic
        · have inRound : network.roundOf link.publisher link.subscription.topic = some round := by
            rw [roundOf_of_lookup runtimeFound]
            exact Runtime.roundOf_eq_some.mpr ⟨calling, isTopic⟩
          exact (older linkFound).imp_right fun ⟨transit, carries⟩ => ⟨transit,
            carries.finished (listening_update runtimeFound rfl (by rfl) _)
            (recorded (by simp)) inRound nothing ((roundOf_insert rfl _).trans (if_pos rfl))⟩
        · exact same linkFound (.of_insert (recorded (by simp)) runtimeFound rfl Iff.rfl
            (by simp [Runtime.roundOf, calling, isTopic])) rfl rfl
      · exact same linkFound (.of_other (recorded (by simp)) rfl isPublisher) rfl rfl
  | @delivered fd linkFd' order runtime before frame stream found beforeFound streamEq subscriber =>
      have runtimeFound := (running_eq_some.mp found).1
      obtain ⟨runtime', before', found', beforeFound', polled⟩ := step_deliver moved
      obtain rfl := Option.some.inj (found.symm.trans found')
      obtain rfl := Option.some.inj (beforeFound.symm.trans beforeFound')
      change (network.links.insert _ _).lookup linkFd = _ at linkFound
      rw [lookup_insert] at linkFound
      split_ifs at linkFound with isDelivered
      · subst isDelivered subscriber
        obtain rfl := Option.some.inj linkFound
        obtain ⟨transit, carries⟩ := (older beforeFound).resolve_left fun denies => by
          simp [Denies, polled] at denies
        have head := carries.stream
        simp only [streamEq, pendingReply, polled, true_or, if_true, List.nil_append] at head
        obtain ⟨data, rest, rfl, rfl, rfl⟩ := List.map_eq_cons_iff.mp head.symm
        obtain ⟨runtime', found', isHeld⟩ := moves.heldBefore linked beforeFound holds
        obtain rfl := Option.some.inj (found.symm.trans found')
        have isStored := isHeld.resolve_left fun isAwaiting => by
          obtain ⟨awaited, awaitedFound, -, -, notPolled⟩ :=
            (linked.runtimes _ _ runtimeFound).awaiting isAwaiting
          obtain rfl := Option.some.inj (beforeFound.symm.trans awaitedFound)
          simp [polled] at notPolled
        have called := calls_of_subscribed found beforeFound streamEq isStored
          (keepsOrder runtime found)
        refine Or.inr ⟨rest, carries.delivered
          (.of_insert (recorded (by simp)) runtimeFound rfl Iff.rfl rfl) polled streamEq rfl ?_⟩
        exact (Function.update_self ..).trans (congrArg _ called)
      · refine same linkFound (.of_insert (recorded (by simp)) runtimeFound rfl Iff.rfl rfl) rfl ?_
        exact Function.update_of_ne isDelivered ..

theorem delivers_of_reachable (roundTrips : json.RoundTrips)
    (reachable : (((deliverySystem json).restrict ConfirmsNothing).restrict KeepsOrder).Reachable
      (network, ledger)) : network.Delivers ledger := by
  have both : network.Delivers ledger ∧ network.Booked ledger := by
    refine reachable.invariant_of_reachable
      (fun state => state.1.Delivers state.2 ∧ state.1.Booked state.2) ?_ ?_
    · rintro ⟨network, ledger⟩ ⟨initial, rfl⟩
      refine ⟨fun linkFd link found => ?_, fun _ _ => ⟨rfl, rfl⟩⟩
      rw [Initial.links initial] at found
      simp at found
    · rintro ⟨network, ledger⟩ event ⟨next, later⟩ reachable ⟨delivers, booked⟩ moved
      obtain ⟨keepsOrder, moved⟩ := EventSystem.step_restrict.mp moved
      obtain ⟨guarded, moved⟩ := EventSystem.step_restrict.mp moved
      obtain ⟨performed, rfl⟩ := EventSystem.step_observe.mp moved
      have earlier : (networkSystem json).Reachable network :=
        reachable.of_restrict.of_restrict.of_observe
      exact ⟨delivers.step roundTrips booked (.of_reachable earlier)
        (.of_reachable roundTrips earlier) (.of_reachable roundTrips earlier) guarded keepsOrder
        performed, booked.step (.of_reachable earlier) performed⟩
  exact both.1

end Network

theorem deliverySystem_started :
    (deliverySystem JsonLibrary.plain).Initial (Network.started, {}) :=
  ⟨Network.started_initial, rfl⟩

def Network.SampleSubscribed (network : Network JsonLibrary.plain) : Prop :=
  ∃ link ∈ network.links.lookup 7, network.IsOpen link ∧
    network.recorded link.publisher link.subscription.topic link.subscription.name = some 7 ∧
      network.subscribed link.subscriber link.subscription.topic = some 7

instance (network : Network JsonLibrary.plain) : Decidable network.SampleSubscribed :=
  inferInstanceAs (Decidable (∃ link ∈ network.links.lookup 7, _))

/-- An event that reads as a confirmation is written before the reply. -/
theorem event_taken_for_reply : ∃ (network : Network JsonLibrary.plain) (ledger : Ledger),
    (deliverySystem JsonLibrary.plain).Reachable (network, ledger) ∧ network.SampleSubscribed ∧
      ledger.due 7 = [SubscribeAnswer.ok.replyText] ∧ ledger.called 7 = [] ∧
        ∀ link ∈ network.links.lookup 7, link.stream = [] := by
  obtain ⟨⟨network, ledger⟩, run, isSubscribed, due, called, stream⟩ :=
    (deliverySystem JsonLibrary.plain).exists_run_of_steps
      (subscribing ++ [.listen 5 7 [],
        .publish 5 11 ⟨ascii "t", SubscribeAnswer.ok.replyText, (0, 0, 0)⟩ [ascii "b"],
        .send 5 (ascii "b"), .finish 5, .answer 5, .readReply 6, .deliver 6 7 [ascii "t"]])
      (fun state => state.1.SampleSubscribed ∧ state.2.due 7 = [SubscribeAnswer.ok.replyText] ∧
        state.2.called 7 = [] ∧ ∀ link ∈ state.1.links.lookup 7, link.stream = [])
      deliverySystem_started (by decide +kernel)
  exact ⟨network, ledger, ⟨_, run⟩, isSubscribed, due, called, stream⟩

end UBus
