import UBus.Json.Vendored
import UBus.Runtime.Framing

/-!
# The first frame a subscriber receives

A subscriber takes the first frame on a new connection for the reply to its
subscription.  It is, on every connection that carries whole frames.  The
first step of the publishing thread to start an event too early breaks the
connection, so the rule of the previous file cannot be relaxed.
-/

namespace UBus

open FiniteMap

namespace Publisher

variable {json : JsonLibrary} {publisher : Publisher}

theorem Invariant.answered (invariant : publisher.Invariant) {fd : Fd} {connection : Connection}
    (found : publisher.connections.lookup fd = some connection) (isOpen : fd ∉ publisher.closed)
    (done : ¬ publisher.listening.Answers fd) :
    ∃ rest, nextFrame connection.stream = some (connection.answer.frame, rest) := by
  obtain ⟨wires, areWires, streamEq⟩ := invariant.framed fd connection found isOpen
  rw [outstanding, Listening.outstanding_eq_nil done, List.nil_append] at streamEq
  obtain ⟨reply, others, isWire, othersAreWires, rfl⟩ := List.forall₂_cons_left_iff.mp areWires
  rw [List.flatten_cons] at streamEq
  have missing : (publisher.publishing.outstanding fd).length ≤ others.flatten.length := by
    by_cases sends : publisher.publishing.SendsTo fd
    · obtain ⟨round, name, isSending⟩ := sends
      obtain ⟨connection', found', earlier, eventsEq⟩ := invariant.sending isSending
      obtain rfl := Option.some.inj (found.symm.trans found')
      -- the event on its way is the last one
      have total := wireSize_eq othersAreWires
      simp only [eventsEq, List.map_append, wireSize, List.sum_append, List.map_cons, List.map_nil,
        List.sum_cons, List.sum_nil, eventFrame] at total
      simp only [isSending, Publishing.outstanding, if_true]
      omega
    · simp [Publishing.outstanding_eq_nil sends]
  have lengths := congrArg List.length streamEq
  simp only [List.length_append] at lengths
  have whole : reply <+: connection.stream :=
    List.prefix_of_prefix_length_le (List.prefix_append reply others.flatten)
      (streamEq ▸ List.prefix_append ..) (by omega)
  obtain ⟨rest, stream⟩ := whole
  exact ⟨rest, by rw [← stream]; exact frameCode.next_codeword isWire rest⟩

/-- An event that is started while the reply is incomplete, or that is too
large, breaks the connection. -/
theorem Invariant.broken (invariant : publisher.Invariant) {round : Round} {name : Bytes} {fd : Fd}
    (visit : publisher.toVisit name = some (round, fd)) (isOpen : fd ∉ publisher.closed)
    (breaks : round.publication.text.length < 2 ^ 32 → publisher.listening.Answers fd) :
    ¬ (publisher.startEvent round name fd).WellFramed := by
  intro framed
  obtain ⟨-, info, listed, recorded⟩ := toVisit_eq_some visit
  obtain ⟨connection, found, -⟩ := invariant.recorded listed recorded
  obtain ⟨wires, areWires, streamEq⟩ := framed fd _
    (by rw [Publisher.startEvent, lookup_modify, found, Option.map_some, if_pos rfl]) isOpen
  have short : round.publication.text.length < 2 ^ 32 := by
    have allShort := (List.forall₂_and_left _ _).mp areWires
    have last := allShort.1 (eventFrame round.publication.body) (by simp)
    rwa [show (eventFrame round.publication.body).data.length = round.publication.text.length from
      strncpy_length _ _] at last
  obtain ⟨reply, others, ⟨-, padding, rfl⟩, -, rfl⟩ := List.forall₂_cons_left_iff.mp areWires
  have data : connection.answer.frame.data = connection.answer.replyText :=
    connection.answer.body_eq
  rw [List.flatten_cons, data] at streamEq
  obtain ⟨rest, textEq⟩ := connection.answer.replyText_head
  cases listening : publisher.listening with
  | accepting =>
      have answers := breaks short
      rw [listening] at answers
      exact answers
  | replyHeader fd' answer padding' =>
      have answers := breaks short
      rw [listening] at answers
      obtain rfl : fd' = fd := answers
      -- the connection starts with the type of an event
      obtain rfl := Option.some.inj ((invariant.fresh listening isOpen).symm.trans found)
      have types : FrameType.event.code = FrameType.eventSubscribe.code :=
        (List.cons.inj streamEq).1
      exact absurd types (by decide)
  | replyBody fd' answer =>
      have answers := breaks short
      rw [listening] at answers
      obtain rfl : fd' = fd := answers
      -- the text of the reply starts with the type of an event
      obtain ⟨padding', begun⟩ := invariant.begun listening isOpen
      obtain rfl := Option.some.inj (begun.symm.trans found)
      have texts : some FrameType.event.code = some (123 : UInt8) := by
        rw [textEq] at streamEq
        exact congrArg (fun bytes => bytes[headerSize]?) streamEq
      exact absurd texts (by decide)

end Publisher

/-- In every run in which the publishing thread keeps the rule, open
connections carry the reply and then whole events, a completed reply is the
first frame on its connection, and recorded subscribers read OK.  The first
step that does not keep the rule breaks a connection. -/
theorem reply_comes_first (json : JsonLibrary) {publisher : Publisher}
    (reachable : ((publisherSystem json).restrict Publisher.KeepsReply).Reachable publisher) :
    publisher.WellFramed ∧
      (∀ fd connection, publisher.connections.lookup fd = some connection →
        fd ∉ publisher.closed → ¬ publisher.listening.Answers fd →
          ∃ rest, nextFrame connection.stream = some (connection.answer.frame, rest)) ∧
      (∀ topic pubEventInfo name fd, publisher.pubList.lookup topic = some pubEventInfo →
        pubEventInfo.clientSocketMap.lookup name = some fd →
          fd ∉ publisher.closed → ¬ publisher.listening.Answers fd →
            ∃ connection rest, publisher.connections.lookup fd = some connection ∧
              nextFrame connection.stream = some (SubscribeAnswer.ok.frame, rest)) ∧
      ∀ event next, publisher.step json event = some next →
        (next.WellFramed ↔ publisher.KeepsReply event) := by
  have invariant := Publisher.Invariant.of_reachable reachable
  refine ⟨invariant.framed, fun fd connection => invariant.answered, ?_, ?_⟩
  · intro topic pubEventInfo name fd listed recorded isOpen done
    obtain ⟨connection, found, isOk⟩ := invariant.recorded listed recorded
    obtain ⟨rest, first⟩ := invariant.answered found isOpen done
    exact ⟨connection, rest, found, isOk ▸ first⟩
  · intro event next moved
    refine ⟨fun framed => ?_, fun keeps => (invariant.step moved keeps).framed⟩
    cases event with
    | sendHeader name =>
        obtain ⟨⟨round, fd⟩, visit, rfl⟩ := Option.map_eq_some_iff.mp moved
        simp only [Publisher.KeepsReply, visit]
        by_contra breaks
        rw [not_or] at breaks
        refine invariant.broken visit breaks.1 (fun short => ?_) framed
        by_contra done
        exact breaks.2 ⟨short, done⟩
    | _ => trivial

def subscription : Json :=
  Json.ofAssignments [
    (ascii "topic", .string (ascii "t")),
    (ascii "type_id", .ofUInt32 11),
    (ascii "name", .string (ascii "a"))]

def Publisher.started : Publisher where
  pubList := FiniteMap.insert ∅ (ascii "t") { type := 11 }
  listening := .accepting
  publishing := .idle
  connections := ∅
  closed := []

theorem Publisher.started_initial : Publisher.started.Initial where
  unsubscribed := by
    intro topic pubEventInfo listed
    rw [started, lookup_insert] at listed
    split_ifs at listed
    · exact Option.some.inj listed ▸ rfl
    · simp at listed
  listening := rfl
  publishing := rfl
  connections := rfl
  closed := rfl

def PublisherEvent.publishToSubscriber : List PublisherEvent :=
  [.publish 11 ⟨ascii "t", ascii "x", (0, 0, 0)⟩ [ascii "a"], .sendHeader (ascii "a"), .sendBody]

/-- A subscriber that is answered before an event is published. -/
theorem reply_comes_first_sample : ∃ publisher : Publisher,
    (publisher.connections.lookup 7).map Connection.events = some [ascii "x"] ∧
      publisher.WellFramed := by
  obtain ⟨publisher, run, sent⟩ :=
    ((publisherSystem .plain).restrict Publisher.KeepsReply).exists_run_of_steps
      ([.subscribe 7 (requestText subscription) (0, 0, 0) [], .replyHeader, .replyBody] ++
        PublisherEvent.publishToSubscriber)
      (fun publisher =>
        (publisher.connections.lookup 7).map Connection.events = some [ascii "x"])
      Publisher.started_initial (by decide +kernel)
  exact ⟨publisher, sent, (reply_comes_first .plain ⟨_, run⟩).1⟩

/-- An event that is published after the subscriber has been recorded and
before it is answered: the subscriber, answered OK, takes the event for the
reply. -/
theorem reply_overtaken : ∃ publisher connection,
    (publisherSystem .plain).Reachable publisher ∧
      publisher.connections.lookup 7 = some connection ∧ connection.answer = .ok ∧
      7 ∉ publisher.closed ∧ ¬ publisher.listening.Answers 7 ∧
      (nextFrame connection.stream).map Prod.fst = some (eventFrame (ascii "x")) ∧
      ¬ publisher.WellFramed := by
  obtain ⟨publisher, run, answered, isOpen, quiet, done⟩ :=
    (publisherSystem .plain).exists_run_of_steps
      ([.subscribe 7 (requestText subscription) (0, 0, 0) []] ++
        PublisherEvent.publishToSubscriber ++ [.replyHeader, .replyBody])
      (fun publisher => (publisher.connections.lookup 7).map (fun connection =>
          (connection.answer, (nextFrame connection.stream).map Prod.fst)) =
            some (.ok, some (eventFrame (ascii "x"))) ∧
        7 ∉ publisher.closed ∧ publisher.outstanding 7 = [] ∧ ¬ publisher.listening.Answers 7)
      Publisher.started_initial (by decide +kernel)
  obtain ⟨connection, found, both⟩ := Option.map_eq_some_iff.mp answered
  obtain ⟨isOk, first⟩ := Prod.mk.inj both
  refine ⟨publisher, connection, ⟨_, run⟩, found, isOk, isOpen, done, first, fun framed => ?_⟩
  obtain ⟨wires, areWires, streamEq⟩ := framed 7 connection found isOpen
  obtain ⟨reply, others, isWire, -, rfl⟩ := List.forall₂_cons_left_iff.mp areWires
  rw [quiet, List.append_nil, List.flatten_cons] at streamEq
  have read : nextFrame connection.stream = some (connection.answer.frame, others.flatten) :=
    streamEq ▸ frameCode.next_codeword isWire others.flatten
  rw [read, isOk] at first
  have types : FrameType.eventSubscribe.code = FrameType.event.code :=
    congrArg Frame.messageType (Option.some.inj first)
  exact absurd types (by decide)

end UBus
