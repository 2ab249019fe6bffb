import UBus.Runtime.Publisher

/-!
# Whole frames on the connection of a subscriber

The listening thread records a subscriber before it writes the reply, so the
publishing thread may get in between.  A connection carries the reply followed
by whole events as long as the publishing thread starts no event on it before
the reply is complete.  This file proves that by an invariant of the two
threads.
-/

namespace UBus

open FiniteMap

def Listening.Answers (listening : Listening) (fd : Fd) : Prop :=
  match listening with
  | accepting => False
  | replyHeader fd' _ _ => fd' = fd
  | replyBody fd' _ => fd' = fd

instance (listening : Listening) (fd : Fd) : Decidable (listening.Answers fd) := by
  unfold Listening.Answers
  split <;> infer_instance

def Listening.outstanding (listening : Listening) (fd : Fd) : Bytes :=
  match listening with
  | accepting => []
  | replyHeader fd' answer padding => if fd' = fd then answer.header padding ++ answer.body else []
  | replyBody fd' answer => if fd' = fd then answer.body else []

theorem Listening.outstanding_eq_nil {listening : Listening} {fd : Fd}
    (done : ¬ listening.Answers fd) : listening.outstanding fd = [] := by
  cases listening with
  | accepting => rfl
  | replyHeader fd' answer padding => exact if_neg done
  | replyBody fd' answer => exact if_neg done

def Publishing.SendsTo (publishing : Publishing) (fd : Fd) : Prop :=
  ∃ round name, publishing = sendingBody round name fd

def Publishing.outstanding (publishing : Publishing) (fd : Fd) : Bytes :=
  match publishing with
  | idle | iterating _ => []
  | sendingBody round _ fd' => if fd' = fd then round.publication.body else []

theorem Publishing.outstanding_eq_nil {publishing : Publishing} {fd : Fd}
    (outside : ¬ publishing.SendsTo fd) : publishing.outstanding fd = [] := by
  cases publishing with
  | idle => rfl
  | iterating round => rfl
  | sendingBody round name fd' => exact if_neg fun same => outside ⟨round, name, by rw [same]⟩

namespace Publisher

/-- What is not yet written of the frames begun on a connection. -/
def outstanding (publisher : Publisher) (fd : Fd) : Bytes :=
  publisher.listening.outstanding fd ++ publisher.publishing.outstanding fd

/-- On every connection whose peer has not closed, the bytes written and those
outstanding form the reply, as a whole frame, and whole frames of events after
it. -/
def WellFramed (publisher : Publisher) : Prop :=
  ∀ fd connection, publisher.connections.lookup fd = some connection → fd ∉ publisher.closed →
    ∃ wires, List.Forall₂ IsWireFrame
        (connection.answer.frame :: connection.events.map eventFrame) wires ∧
      connection.stream ++ publisher.outstanding fd = wires.flatten

/-- The publishing thread starts an event on an open connection only after the
reply, and only if a header can announce its size. -/
def KeepsReply (publisher : Publisher) : PublisherEvent → Prop
  | .sendHeader name =>
      match publisher.toVisit name with
      | none => True
      | some (round, fd) => fd ∈ publisher.closed ∨
          (round.publication.text.length < 2 ^ 32 ∧ ¬ publisher.listening.Answers fd)
  | _ => True

instance (publisher : Publisher) (event : PublisherEvent) :
    Decidable (publisher.KeepsReply event) := by
  unfold KeepsReply
  split
  · split <;> infer_instance
  · infer_instance

end Publisher

theorem SubscribeAnswer.replyText_head (answer : SubscribeAnswer) :
    ∃ rest, answer.replyText = 123 :: rest := by
  cases answer <;> exact ⟨_, rfl⟩

theorem SubscribeAnswer.body_eq (answer : SubscribeAnswer) : answer.body = answer.replyText := by
  cases answer <;> decide

theorem SubscribeAnswer.isWireFrame (answer : SubscribeAnswer) (padding : Padding) :
    IsWireFrame answer.frame (answer.header padding ++ answer.body) := by
  have data : answer.frame.data = answer.replyText := answer.body_eq
  refine ⟨?_, padding, ?_⟩
  · rw [data]
    cases answer <;> decide
  · rw [data, answer.body_eq]
    rfl

theorem subscribe_recorded {json : JsonLibrary} {pubList : FiniteMap Bytes PubEventInfo}
    {fd fd' : Fd} {content topic name : Bytes} {pubEventInfo : PubEventInfo}
    (listed : (subscribe json pubList fd content).1.lookup topic = some pubEventInfo)
    (recorded : pubEventInfo.clientSocketMap.lookup name = some fd') :
    (fd' = fd ∧ (subscribe json pubList fd content).2 = .ok) ∨
      ∃ before, pubList.lookup topic = some before ∧
        before.clientSocketMap.lookup name = some fd' := by
  unfold subscribe at listed ⊢
  split at listed
  · exact Or.inr ⟨_, listed, recorded⟩
  · split_ifs at listed with fields
    · split at listed
      · split at listed
        · exact Or.inr ⟨_, listed, recorded⟩
        · rename_i info found
          split_ifs at listed with wrongType known
          · exact Or.inr ⟨_, listed, recorded⟩
          · exact Or.inr ⟨_, listed, recorded⟩
          · rw [lookup_insert] at listed
            split_ifs at listed with sameTopic
            · obtain rfl := Option.some.inj listed
              rw [lookup_insert] at recorded
              split_ifs at recorded with sameName
              · left
                simp only [if_pos fields, if_neg wrongType, if_neg known, and_true]
                exact (Option.some.inj recorded).symm
              · exact Or.inr ⟨info, sameTopic ▸ found, recorded⟩
            · exact Or.inr ⟨_, listed, recorded⟩
      · exact Or.inr ⟨_, listed, recorded⟩
    · exact Or.inr ⟨_, listed, recorded⟩

/-- What holds as long as the publishing thread keeps the rule. -/
structure Publisher.Invariant (publisher : Publisher) : Prop where
  recorded : ∀ {topic pubEventInfo name fd}, publisher.pubList.lookup topic = some pubEventInfo →
    pubEventInfo.clientSocketMap.lookup name = some fd →
      ∃ connection, publisher.connections.lookup fd = some connection ∧ connection.answer = .ok
  fresh : ∀ {fd answer padding}, publisher.listening = .replyHeader fd answer padding →
    fd ∉ publisher.closed → publisher.connections.lookup fd = some { answer := answer }
  begun : ∀ {fd answer}, publisher.listening = .replyBody fd answer → fd ∉ publisher.closed →
    ∃ padding, publisher.connections.lookup fd =
      some { answer := answer, stream := answer.header padding }
  apart : ∀ {fd}, publisher.listening.Answers fd → fd ∉ publisher.closed →
    ¬ publisher.publishing.SendsTo fd
  sending : ∀ {round name fd}, publisher.publishing = .sendingBody round name fd →
    ∃ connection, publisher.connections.lookup fd = some connection ∧
      ∃ earlier, connection.events = earlier ++ [round.publication.body]
  framed : publisher.WellFramed

namespace Publisher

variable {json : JsonLibrary} {publisher next : Publisher}

theorem Initial.invariant (initial : publisher.Initial) : publisher.Invariant where
  recorded := by
    intro topic pubEventInfo name fd listed isRecorded
    simp [initial.unsubscribed listed] at isRecorded
  fresh := by
    intro fd answer padding answering
    simp [initial.listening] at answering
  begun := by
    intro fd answer answering
    simp [initial.listening] at answering
  apart := by
    intro fd answering
    rw [initial.listening] at answering
    exact answering.elim
  sending := by
    intro round name fd isSending
    simp [initial.publishing] at isSending
  framed := by
    intro fd connection found
    simp [initial.connections] at found

theorem lookup_write (publisher : Publisher) (fd other : Fd) (bytes : Bytes) :
    (publisher.write fd bytes).lookup other = (publisher.connections.lookup other).map
      fun connection => if other = fd then
        { connection with stream := connection.stream ++ bytes } else connection :=
  lookup_modify ..

theorem lookup_write_of_lookup {fd other : Fd} {bytes : Bytes} {connection : Connection}
    (found : publisher.connections.lookup other = some connection) :
    ∃ stream, (publisher.write fd bytes).lookup other =
      some { connection with stream := stream } := by
  rw [lookup_write, found, Option.map_some]
  split_ifs
  · exact ⟨_, rfl⟩
  · exact ⟨connection.stream, rfl⟩

/-- A thread that writes what it has outstanding keeps the frames whole. -/
theorem WellFramed.write (framed : publisher.WellFramed) {fd : Fd} {bytes : Bytes}
    (connections : next.connections = publisher.write fd bytes)
    (closed : next.closed = publisher.closed)
    (moved : ∀ other ∉ publisher.closed, publisher.outstanding other =
      if other = fd then bytes ++ next.outstanding other else next.outstanding other) :
    next.WellFramed := by
  intro other connection found isOpen
  rw [closed] at isOpen
  rw [connections, lookup_write, Option.map_eq_some_iff] at found
  obtain ⟨before, foundBefore, rfl⟩ := found
  obtain ⟨wires, areWires, streamEq⟩ := framed other before foundBefore isOpen
  rw [moved other isOpen] at streamEq
  split_ifs at streamEq with same
  · rw [if_pos same]
    exact ⟨wires, areWires, by rw [List.append_assoc]; exact streamEq⟩
  · rw [if_neg same]
    exact ⟨wires, areWires, streamEq⟩

theorem WellFramed.unchanged (framed : publisher.WellFramed)
    (connections : next.connections = publisher.connections)
    (closed : ∀ fd ∈ publisher.closed, fd ∈ next.closed)
    (same : ∀ fd ∉ next.closed, next.outstanding fd = publisher.outstanding fd) :
    next.WellFramed := by
  intro fd connection found isOpen
  rw [connections] at found
  obtain ⟨wires, areWires, streamEq⟩ :=
    framed fd connection found fun isClosed => isOpen (closed fd isClosed)
  exact ⟨wires, areWires, by rw [same fd isOpen]; exact streamEq⟩

theorem sendsTo_goOn {publishing : Publishing} {pubList later : FiniteMap Bytes PubEventInfo}
    {rest : List Bytes} {fd : Fd} :
    (publishing.goOn pubList later rest).SendsTo fd ↔ publishing.SendsTo fd := by
  cases publishing <;> simp [Publishing.goOn, Publishing.SendsTo]

theorem sendingBody_of_goOn {publishing : Publishing} {pubList later : FiniteMap Bytes PubEventInfo}
    {rest : List Bytes} {round : Round} {name : Bytes} {fd : Fd}
    (isSending : publishing.goOn pubList later rest = .sendingBody round name fd) :
    ∃ before, publishing = .sendingBody before name fd ∧
      before.publication = round.publication := by
  cases publishing with
  | sendingBody before name' fd' =>
      obtain ⟨rfl, rfl, rfl⟩ := Publishing.sendingBody.inj isSending
      exact ⟨before, rfl, (before.goOn_publication ..).symm⟩
  | _ => simp [Publishing.goOn] at isSending

theorem outstanding_goOn (publishing : Publishing) (pubList later : FiniteMap Bytes PubEventInfo)
    (rest : List Bytes) (fd : Fd) :
    (publishing.goOn pubList later rest).outstanding fd = publishing.outstanding fd := by
  cases publishing <;> simp [Publishing.goOn, Publishing.outstanding]

theorem Invariant.subscribe (invariant : publisher.Invariant) {fd : Fd} {content : Bytes}
    {padding : Padding} (rest : List Bytes) (accepting : publisher.listening = .accepting)
    (unknown : fd ∉ publisher.connections) :
    Invariant { publisher with
      pubList := (UBus.subscribe json publisher.pubList fd content).1
      listening := .replyHeader fd (UBus.subscribe json publisher.pubList fd content).2 padding
      publishing := publisher.publishing.goOn publisher.pubList
        (UBus.subscribe json publisher.pubList fd content).1 rest
      connections := publisher.connections.insert fd
        { answer := (UBus.subscribe json publisher.pubList fd content).2 } } := by
  have other : ∀ {fd' connection}, publisher.connections.lookup fd' = some connection →
      (publisher.connections.insert fd
        { answer := (UBus.subscribe json publisher.pubList fd content).2 }).lookup fd' =
          some connection := by
    intro fd' connection found
    have different : fd' ≠ fd := fun same => unknown (same ▸ mem_of_lookup found)
    rw [lookup_insert, if_neg different, found]
  have notSending : ¬ publisher.publishing.SendsTo fd := by
    rintro ⟨round, name, isSending⟩
    obtain ⟨connection, found, -⟩ := invariant.sending isSending
    exact unknown (mem_of_lookup found)
  refine ⟨?_, ?_, ?_, ?_, ?_, ?_⟩
  · intro topic pubEventInfo name fd' listed isRecorded
    rcases subscribe_recorded listed isRecorded with ⟨rfl, isOk⟩ | ⟨before, listed', isRecorded'⟩
    · exact ⟨_, by rw [lookup_insert, if_pos rfl], isOk⟩
    · obtain ⟨connection, found, isOk⟩ := invariant.recorded listed' isRecorded'
      exact ⟨connection, other found, isOk⟩
  · intro fd' answer padding' answering isOpen
    obtain ⟨rfl, rfl, rfl⟩ := Listening.replyHeader.inj answering
    rw [lookup_insert, if_pos rfl]
  · intro fd' answer answering
    simp at answering
  · rintro fd' rfl isOpen
    rwa [sendsTo_goOn]
  · intro round name fd' isSending
    obtain ⟨before, isSending', sameBody⟩ := sendingBody_of_goOn isSending
    obtain ⟨connection, found, last⟩ := invariant.sending isSending'
    exact ⟨connection, other found, sameBody ▸ last⟩
  · intro fd' connection found isOpen
    rw [lookup_insert] at found
    split_ifs at found with same
    · obtain rfl := Option.some.inj found
      subst same
      refine ⟨[_], .cons (SubscribeAnswer.isWireFrame _ padding) .nil, ?_⟩
      simp [outstanding, Listening.outstanding, outstanding_goOn,
        Publishing.outstanding_eq_nil notSending]
    · obtain ⟨wires, areWires, streamEq⟩ := invariant.framed fd' connection found isOpen
      refine ⟨wires, areWires, ?_⟩
      rw [← streamEq]
      simp [outstanding, Listening.outstanding, outstanding_goOn, accepting, Ne.symm same]

theorem Invariant.replyHeader (invariant : publisher.Invariant) {fd : Fd}
    {answer : SubscribeAnswer} {padding : Padding}
    (answering : publisher.listening = .replyHeader fd answer padding) :
    Invariant { publisher with
      connections := publisher.write fd (answer.header padding)
      listening := .replyBody fd answer } := by
  refine ⟨?_, ?_, ?_, ?_, ?_, ?_⟩
  · intro topic pubEventInfo name fd' listed isRecorded
    obtain ⟨connection, found, isOk⟩ := invariant.recorded listed isRecorded
    obtain ⟨stream, found'⟩ := lookup_write_of_lookup found
    exact ⟨_, found', isOk⟩
  · intro fd' answer' padding' answering'
    simp at answering'
  · intro fd' answer' answering' isOpen
    obtain ⟨rfl, rfl⟩ := Listening.replyBody.inj answering'
    refine ⟨padding, ?_⟩
    rw [lookup_write, invariant.fresh answering isOpen]
    simp
  · intro fd' answers isOpen
    refine invariant.apart ?_ isOpen
    rw [answering]
    exact answers
  · intro round name fd' isSending
    obtain ⟨connection, found, last⟩ := invariant.sending isSending
    obtain ⟨stream, found'⟩ := lookup_write_of_lookup found
    exact ⟨_, found', last⟩
  · refine invariant.framed.write rfl rfl fun other _ => ?_
    by_cases same : other = fd
    · simp [outstanding, Listening.outstanding, answering, same]
    · simp [outstanding, Listening.outstanding, answering, same, Ne.symm same]

theorem Invariant.replyBody (invariant : publisher.Invariant) {fd : Fd}
    {answer : SubscribeAnswer} (answering : publisher.listening = .replyBody fd answer) :
    Invariant { publisher with
      connections := publisher.write fd answer.body
      listening := .accepting } := by
  refine ⟨?_, ?_, ?_, ?_, ?_, ?_⟩
  · intro topic pubEventInfo name fd' listed isRecorded
    obtain ⟨connection, found, isOk⟩ := invariant.recorded listed isRecorded
    obtain ⟨stream, found'⟩ := lookup_write_of_lookup found
    exact ⟨_, found', isOk⟩
  · intro fd' answer' padding' answering'
    simp at answering'
  · intro fd' answer' answering'
    simp at answering'
  · intro fd' answers
    exact answers.elim
  · intro round name fd' isSending
    obtain ⟨connection, found, last⟩ := invariant.sending isSending
    obtain ⟨stream, found'⟩ := lookup_write_of_lookup found
    exact ⟨_, found', last⟩
  · refine invariant.framed.write rfl rfl fun other _ => ?_
    by_cases same : other = fd
    · simp [outstanding, Listening.outstanding, answering, same]
    · simp [outstanding, Listening.outstanding, answering, same, Ne.symm same]

theorem toVisit_eq_some {name : Bytes} {round : Round} {fd : Fd}
    (visit : publisher.toVisit name = some (round, fd)) :
    publisher.publishing = .iterating round ∧
      ∃ pubEventInfo, publisher.pubList.lookup round.publication.topic = some pubEventInfo ∧
        pubEventInfo.clientSocketMap.lookup name = some fd := by
  unfold toVisit at visit
  split at visit
  · rename_i round' isIterating
    split_ifs at visit with visited
    obtain ⟨pubEventInfo, listed, recorded⟩ := Option.bind_eq_some_iff.mp visit
    obtain ⟨fd', recorded', same⟩ := Option.map_eq_some_iff.mp recorded
    obtain ⟨rfl, rfl⟩ := Prod.mk.inj same
    exact ⟨isIterating, pubEventInfo, listed, recorded'⟩
  · simp at visit

/-- The publishing thread may change its place if it writes nothing and is
outside events afterwards, having left at most one on a closed connection. -/
theorem Invariant.publishing (invariant : publisher.Invariant) {publishing : Publishing}
    (outside : ∀ fd, ¬ publishing.SendsTo fd)
    (left : ∀ fd, publisher.publishing.SendsTo fd → fd ∈ publisher.closed) :
    Invariant { publisher with publishing := publishing } where
  recorded := invariant.recorded
  fresh := invariant.fresh
  begun := invariant.begun
  apart := fun _ _ => outside _
  sending := fun isSending => absurd ⟨_, _, isSending⟩ (outside _)
  framed := by
    refine invariant.framed.unchanged rfl (fun _ isClosed => isClosed) fun fd isOpen => ?_
    simp [outstanding, Publishing.outstanding_eq_nil (outside fd),
      Publishing.outstanding_eq_nil fun sends => isOpen (left fd sends)]

theorem not_sendsTo_iterating {round : Round} (fd : Fd) :
    ¬ (Publishing.iterating round).SendsTo fd := by
  rintro ⟨_, _, isSending⟩
  simp at isSending

theorem not_sendsTo_idle (fd : Fd) : ¬ Publishing.idle.SendsTo fd := by
  rintro ⟨_, _, isSending⟩
  simp at isSending

theorem Invariant.sendBody (invariant : publisher.Invariant) {round : Round} {name : Bytes}
    {fd : Fd} (isSending : publisher.publishing = .sendingBody round name fd) :
    Invariant { publisher with
      connections := publisher.write fd round.publication.body
      publishing := .iterating round } := by
  refine ⟨?_, ?_, ?_, ?_, ?_, ?_⟩
  · intro topic pubEventInfo name' fd' listed isRecorded
    obtain ⟨connection, found, isOk⟩ := invariant.recorded listed isRecorded
    obtain ⟨stream, found'⟩ := lookup_write_of_lookup found
    exact ⟨_, found', isOk⟩
  · intro fd' answer padding answering isOpen
    have different : fd' ≠ fd := by
      rintro rfl
      refine invariant.apart ?_ isOpen ⟨round, name, isSending⟩
      rw [answering]
      rfl
    rw [lookup_write, invariant.fresh answering isOpen, Option.map_some, if_neg different]
  · intro fd' answer answering isOpen
    have different : fd' ≠ fd := by
      rintro rfl
      refine invariant.apart ?_ isOpen ⟨round, name, isSending⟩
      rw [answering]
      rfl
    obtain ⟨padding, found⟩ := invariant.begun answering isOpen
    exact ⟨padding, by rw [lookup_write, found, Option.map_some, if_neg different]⟩
  · exact fun _ _ => not_sendsTo_iterating _
  · intro round' name' fd' isSending'
    simp at isSending'
  · refine invariant.framed.write rfl rfl fun other isOpen => ?_
    by_cases same : other = fd
    · have done : ¬ publisher.listening.Answers other :=
        fun answers => invariant.apart answers isOpen ⟨round, name, by rw [isSending, same]⟩
      simp [outstanding, Publishing.outstanding, isSending, same,
        Listening.outstanding_eq_nil (same ▸ done)]
    · simp [outstanding, Publishing.outstanding, isSending, same, Ne.symm same]

def startEvent (publisher : Publisher) (round : Round) (name : Bytes) (fd : Fd) : Publisher :=
  { publisher with
    connections := publisher.connections.modify fd fun connection =>
      { connection with
        stream := connection.stream ++ round.publication.header
        events := connection.events ++ [round.publication.body] }
    publishing := .sendingBody (round.visit name) name fd }

theorem Invariant.startEvent (invariant : publisher.Invariant) {round : Round} {name : Bytes}
    {fd : Fd} (visit : publisher.toVisit name = some (round, fd))
    (keeps : fd ∈ publisher.closed ∨
      (round.publication.text.length < 2 ^ 32 ∧ ¬ publisher.listening.Answers fd)) :
    (publisher.startEvent round name fd).Invariant := by
  obtain ⟨isIterating, info, listed, recorded⟩ := toVisit_eq_some visit
  have notAnswered : ∀ {fd'}, publisher.listening.Answers fd' → fd' ∉ publisher.closed →
      fd' ≠ fd := by
    rintro fd' answers isOpen rfl
    rcases keeps with isClosed | ⟨-, done⟩
    · exact isOpen isClosed
    · exact done answers
  refine ⟨?_, ?_, ?_, ?_, ?_, ?_⟩
  · intro topic pubEventInfo name' fd' listed isRecorded
    obtain ⟨connection, found, isOk⟩ := invariant.recorded listed isRecorded
    refine ⟨_, by rw [Publisher.startEvent, lookup_modify, found, Option.map_some], ?_⟩
    split_ifs <;> exact isOk
  · intro fd' answer padding answering isOpen
    have different := notAnswered (by rw [show publisher.listening = _ from answering]; rfl) isOpen
    rw [Publisher.startEvent, lookup_modify, invariant.fresh answering isOpen, Option.map_some,
      if_neg different]
  · intro fd' answer answering isOpen
    have different := notAnswered (by rw [show publisher.listening = _ from answering]; rfl) isOpen
    obtain ⟨padding, found⟩ := invariant.begun answering isOpen
    exact ⟨padding, by
      rw [Publisher.startEvent, lookup_modify, found, Option.map_some, if_neg different]⟩
  · rintro fd' answers isOpen ⟨round', name', isSending⟩
    obtain ⟨-, -, rfl⟩ := Publishing.sendingBody.inj isSending
    exact notAnswered answers isOpen rfl
  · intro round' name' fd' isSending
    obtain ⟨rfl, rfl, rfl⟩ := Publishing.sendingBody.inj isSending
    obtain ⟨connection, found, -⟩ := invariant.recorded listed recorded
    refine ⟨_, by rw [Publisher.startEvent, lookup_modify, found, Option.map_some, if_pos rfl],
      connection.events, rfl⟩
  · intro fd' connection found isOpen
    rw [Publisher.startEvent, lookup_modify, Option.map_eq_some_iff] at found
    obtain ⟨before, foundBefore, rfl⟩ := found
    obtain ⟨wires, areWires, streamEq⟩ := invariant.framed fd' before foundBefore isOpen
    split_ifs with same
    · subst same
      obtain ⟨short, done⟩ := keeps.resolve_left isOpen
      refine ⟨wires ++ [round.publication.header ++ round.publication.body], ?_, ?_⟩
      · rw [List.map_append, ← List.cons_append]
        exact List.rel_append areWires (.cons (Publication.isWireFrame _ short) .nil)
      · simp only [outstanding, Listening.outstanding_eq_nil done, isIterating,
          Publishing.outstanding, List.append_nil] at streamEq
        simp [Publisher.startEvent, outstanding, Listening.outstanding_eq_nil done,
          Publishing.outstanding, Round.visit, ← streamEq]
    · refine ⟨wires, areWires, ?_⟩
      rw [← streamEq]
      simp [Publisher.startEvent, outstanding, Publishing.outstanding, isIterating, Ne.symm same]

theorem Invariant.pubList (invariant : publisher.Invariant)
    {pubList : FiniteMap Bytes PubEventInfo}
    (fewer : ∀ {topic pubEventInfo name fd}, pubList.lookup topic = some pubEventInfo →
      pubEventInfo.clientSocketMap.lookup name = some fd →
        ∃ before, publisher.pubList.lookup topic = some before ∧
          before.clientSocketMap.lookup name = some fd) :
    Invariant { publisher with pubList := pubList } where
  recorded := by
    intro topic pubEventInfo name fd listed isRecorded
    obtain ⟨before, listed', isRecorded'⟩ := fewer listed isRecorded
    exact invariant.recorded listed' isRecorded'
  fresh := invariant.fresh
  begun := invariant.begun
  apart := invariant.apart
  sending := invariant.sending
  framed := invariant.framed

theorem Invariant.peerClose (invariant : publisher.Invariant) (fd : Fd) :
    Invariant { publisher with closed := fd :: publisher.closed } where
  recorded := invariant.recorded
  fresh := fun answering isOpen => invariant.fresh answering (List.not_mem_of_not_mem_cons isOpen)
  begun := fun answering isOpen => invariant.begun answering (List.not_mem_of_not_mem_cons isOpen)
  apart := fun answers isOpen => invariant.apart answers (List.not_mem_of_not_mem_cons isOpen)
  sending := invariant.sending
  framed := invariant.framed.unchanged rfl (fun _ => List.mem_cons_of_mem fd) fun _ _ => rfl

theorem Invariant.step {event : PublisherEvent} (invariant : publisher.Invariant)
    (moved : publisher.step json event = some next) (keeps : publisher.KeepsReply event) :
    next.Invariant := by
  cases event with
  | subscribe fd content padding rest =>
      simp only [Publisher.step] at moved
      split at moved
      · split_ifs at moved with known
        obtain rfl := Option.some.inj moved
        exact invariant.subscribe rest ‹_› known
      · simp at moved
  | replyHeader =>
      simp only [Publisher.step] at moved
      split at moved
      · obtain rfl := Option.some.inj moved
        exact invariant.replyHeader ‹_›
      · simp at moved
  | replyBody =>
      simp only [Publisher.step] at moved
      split at moved
      · obtain rfl := Option.some.inj moved
        exact invariant.replyBody ‹_›
      · simp at moved
  | publish type publication order =>
      simp only [Publisher.step] at moved
      split at moved
      · rename_i isIdle _
        split_ifs at moved
        · obtain rfl := Option.some.inj moved
          exact invariant
        · obtain rfl := Option.some.inj moved
          apply invariant.publishing not_sendsTo_iterating
          intro fd sends
          rw [isIdle] at sends
          exact absurd sends (not_sendsTo_idle fd)
      · obtain rfl := Option.some.inj moved
        exact invariant
      · simp at moved
  | sendHeader name =>
      obtain ⟨⟨round, fd⟩, visit, rfl⟩ := Option.map_eq_some_iff.mp moved
      simp only [KeepsReply, visit] at keeps
      exact invariant.startEvent visit keeps
  | sendBody =>
      simp only [Publisher.step] at moved
      split at moved
      · obtain rfl := Option.some.inj moved
        exact invariant.sendBody ‹_›
      · simp at moved
  | headerFails name brokenPipe =>
      obtain ⟨⟨round, fd⟩, visit, failed⟩ := Option.bind_eq_some_iff.mp moved
      simp only [Option.ite_none_right_eq_some, Option.some.injEq] at failed
      obtain ⟨-, rfl⟩ := failed
      apply invariant.publishing not_sendsTo_iterating
      intro fd' sends
      rw [(toVisit_eq_some visit).1] at sends
      exact absurd sends (not_sendsTo_iterating fd')
  | bodyFails brokenPipe =>
      simp only [Publisher.step] at moved
      split at moved
      · rename_i round name fd isSending
        split_ifs at moved with isClosed
        obtain rfl := Option.some.inj moved
        apply invariant.publishing not_sendsTo_iterating
        intro fd' sends
        obtain ⟨round', name', isSending'⟩ := sends
        obtain ⟨-, -, rfl⟩ := Publishing.sendingBody.inj (isSending.symm.trans isSending')
        exact isClosed
      · simp at moved
  | finish =>
      simp only [Publisher.step] at moved
      split at moved
      · rename_i round isIterating
        split_ifs at moved
        obtain rfl := Option.some.inj moved
        have idle : Invariant { publisher with publishing := .idle } := by
          apply invariant.publishing not_sendsTo_idle
          intro fd sends
          rw [isIterating] at sends
          exact absurd sends (not_sendsTo_iterating fd)
        refine idle.pubList fun {topic pubEventInfo name fd} listed recorded => ?_
        rw [lookup_modify, Option.map_eq_some_iff] at listed
        obtain ⟨before, listedBefore, rfl⟩ := listed
        refine ⟨before, listedBefore, ?_⟩
        split_ifs at recorded
        · exact lookup_of_lookup_erases recorded
        · exact recorded
      · simp at moved
  | peerClose fd =>
      simp only [Publisher.step, Option.ite_none_right_eq_some, Option.some.injEq] at moved
      obtain ⟨-, rfl⟩ := moved
      exact invariant.peerClose fd

theorem Invariant.of_reachable
    (reachable : ((publisherSystem json).restrict KeepsReply).Reachable publisher) :
    publisher.Invariant := by
  apply reachable.invariant (fun state => state.Invariant) (fun _ => Initial.invariant)
  intro state event next invariant moved
  obtain ⟨keeps, moved'⟩ := EventSystem.step_restrict.mp moved
  exact invariant.step moved' keeps

end Publisher

end UBus
