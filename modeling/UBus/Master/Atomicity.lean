import UBus.Master.Registry

/-!
# Handlers, statement by statement

A handler that fails half-way would leave its traces in the registry.  The
handlers of the earlier files give one result for the whole handler; here the
two that write are run in the order of their statements, with every
conversion that may throw at its place and the state as it is at that moment.
-/

namespace UBus

open FiniteMap

inductive Escape where
  | jsonException
  | nullPointer
  deriving DecidableEq

/-- Statements that read and write the registry.  What was written before an
exception stays. -/
abbrev Statement := ExceptT Escape (StateM UBusMaster)

namespace Statement

def outcome {Value : Type} (statement : Statement Value) (master : UBusMaster) :
    Except Escape Value × UBusMaster :=
  (ExceptT.run statement).run master

def orThrow {Value : Type} : Option Value → Statement Value
  | some value => pure value
  | none => throw .jsonException

/-- `socket_participant_mapping_[fd]`, which enters a null pointer for an
unknown socket. -/
def participantAt (fd : Fd) : Statement (Option ParticipantRef) := do
  match (← get).socketParticipantMapping.lookup fd with
  | some entry => return entry
  | none =>
      modify fun master => { master with
        socketParticipantMapping := master.socketParticipantMapping.insert fd none }
      return none

def dereference : Option ParticipantRef → Statement ParticipantRef
  | some participant => pure participant
  | none => throw .nullPointer

end Statement

open Statement

/-- The statements shared by `FRAME_EVENT_REGISTER` and
`FRAME_METHOD_PROVIDE`, up to the response. -/
def announceStatements (kind : Kind) (json : JsonLibrary) (fd : Fd) (content : Bytes) :
    Statement Json := do
  let contentJson ← orThrow (json.parse content)
  if ¬ kind.hasFields contentJson then return response "INVALID"
  let key ← orThrow (contentJson.stringAt kind.nameField)
  if key ∈ (← get).announcements kind then return response "DUPLICATE"
  let name ← orThrow (contentJson.stringAt kind.nameField)
  let types ← orThrow (kind.typesAt contentJson)
  let publisher ← dereference (← participantAt fd)
  let key ← orThrow (contentJson.stringAt kind.nameField)
  modify fun master => { master with
    announcements := Function.update master.announcements kind
      ((master.announcements kind).insert key ⟨name, types, publisher⟩) }
  modify fun master => { master with
    participants := Function.update master.participants publisher
      { master.participants publisher with
        announced := Function.update (master.participants publisher).announced kind
          (((master.participants publisher).announced kind).insert name types) } }
  return response "OK"

/-- The statements of the `try` block of `accept_new_connection`, up to the
response.  A participant object comes to exist for others when it is entered
into the first map. -/
def initiateStatements (json : JsonLibrary) (peer : SocketAddress) (fd : Fd) (content : Bytes) :
    Statement Json := do
  let jsonStruct ← orThrow (json.parse content)
  if ¬ initiationFields.all fun field => jsonStruct.contains field then return response "INVALID"
  if ¬ (jsonStruct.at? (ascii "api_version")).any (Json.isString apiVersion) then
    return response "VERSION_MISMATCH"
  let key ← orThrow (jsonStruct.stringAt (ascii "name"))
  if key ∈ (← get).participantList then return response "DUPLICATE"
  let name ← orThrow (jsonStruct.stringAt (ascii "name"))
  let listeningIp ← orThrow (jsonStruct.stringAt (ascii "listening_ip"))
  let listeningPort ← orThrow (jsonStruct.uint32At (ascii "listening_port"))
  let participant := (← get).allocated
  modify fun master => { master with
    participants := Function.update master.participants participant {
      name := name
      ip := inetNtoa peer.address
      port := peer.port.toUInt32
      socket := fd
      listeningIp := listeningIp
      listeningPort := listeningPort }
    allocated := participant + 1
    participantList := master.participantList.insert name participant }
  modify fun master => { master with
    socketParticipantMapping := master.socketParticipantMapping.insert fd (some participant) }
  let queued ← orThrow (jsonStruct.stringAt (ascii "name"))
  modify fun master => { master with
    unprocessedNewParticipants := master.unprocessedNewParticipants ++ [queued] }
  return response "OK"

section Outcomes

variable {Value Other : Type} (master : UBusMaster)

namespace Statement

@[simp]
theorem outcome_pure (value : Value) :
    (pure value : Statement Value).outcome master = (.ok value, master) := rfl

@[simp]
theorem outcome_throw (escape : Escape) :
    (throw escape : Statement Value).outcome master = (.error escape, master) := rfl

@[simp]
theorem outcome_get : (get : Statement UBusMaster).outcome master = (.ok master, master) := rfl

@[simp]
theorem outcome_modify (change : UBusMaster → UBusMaster) :
    (modify change : Statement PUnit).outcome master = (.ok ⟨⟩, change master) := rfl

@[simp]
theorem outcome_bind (statement : Statement Value) (next : Value → Statement Other) :
    (statement >>= next).outcome master =
      match statement.outcome master with
      | (.ok value, after) => (next value).outcome after
      | (.error escape, after) => (.error escape, after) := by
  unfold outcome
  rw [ExceptT.run_bind, StateT.run_bind]
  rcases run : StateT.run (ExceptT.run statement) master with ⟨_ | value, after⟩
  · rfl
  · rfl

@[simp]
theorem outcome_map (statement : Statement Value) (change : Value → Other) :
    (change <$> statement).outcome master =
      match statement.outcome master with
      | (.ok value, after) => (.ok (change value), after)
      | (.error escape, after) => (.error escape, after) := by
  rw [map_eq_pure_bind, outcome_bind]
  rfl

@[simp]
theorem outcome_orThrow_some (value : Value) :
    (orThrow (some value)).outcome master = (.ok value, master) := rfl

@[simp]
theorem outcome_orThrow_none :
    (orThrow (none : Option Value)).outcome master = (.error .jsonException, master) := rfl

end Statement

/-- The result of a handler, as the rest of the handler uses it. -/
def Statement.handled (json : JsonLibrary) : Except Escape Json × UBusMaster → Handled
  | (.ok value, after) => respond json after value
  | (.error .jsonException, _) => .threw
  | (.error .nullPointer, _) => .crashed

/-- The statements of an announcement compute what the handler computes. -/
theorem announceRequest_eq_handled (kind : Kind) (json : JsonLibrary) (fd : Fd)
    (content : Bytes) : announceRequest kind json master fd content =
      handled json ((announceStatements kind json fd content).outcome master) := by
  unfold announceRequest announceStatements
  cases parsed : json.parse content with
  | none => simp [handled]
  | some contentJson =>
      by_cases fields : kind.hasFields contentJson
      swap
      · simp [handled, fields]
      cases named : contentJson.stringAt kind.nameField with
      | none => simp [handled, fields, named]
      | some name =>
          by_cases taken : name ∈ master.announcements kind
          · simp [handled, fields, named, taken]
          cases typed : kind.typesAt contentJson with
          | none => simp [handled, fields, named, taken, typed]
          | some types =>
              rcases mapped : master.socketParticipantMapping.lookup fd with _ | _ | publisher
              · simp [handled, fields, named, taken, typed, mapped, participantAt, dereference]
              · simp [handled, fields, named, taken, typed, mapped, participantAt, dereference]
              · simp [handled, fields, named, taken, typed, mapped, participantAt, dereference,
                  UBusMaster.announce]

/-- The result of the `try` block, as the rest of `accept_new_connection` uses
it. -/
def Statement.accepted : Except Escape Json × UBusMaster → Option (UBusMaster × Json)
  | (.ok value, after) => some (after, value)
  | (.error _, _) => none

theorem initiate_eq_accepted (json : JsonLibrary) (peer : SocketAddress) (fd : Fd)
    (content : Bytes) : initiate json master peer fd content =
      accepted ((initiateStatements json peer fd content).outcome master) := by
  unfold initiate initiateStatements accepted
  cases parsed : json.parse content with
  | none => simp
  | some jsonStruct =>
      simp only [outcome_bind, outcome_orThrow_some]
      generalize (initiationFields.all fun field => jsonStruct.contains field) = hasFields
      generalize (jsonStruct.at? (ascii "api_version")).any (Json.isString apiVersion) = version
      cases hasFields with
      | false => simp
      | true =>
          cases version with
          | false => simp
          | true =>
              cases named : jsonStruct.stringAt (ascii "name") with
              | none => simp
              | some name =>
                  by_cases known : name ∈ master.participantList
                  · simp [known]
                  cases jsonStruct.stringAt (ascii "listening_ip") with
                  | none => simp [known]
                  | some listeningIp =>
                      cases jsonStruct.uint32At (ascii "listening_port") with
                      | none => simp [known]
                      | some listeningPort => simp [known, UBusMaster.register]

variable {master} {json : JsonLibrary} {content : Bytes}

/-- A handshake registers a participant, or it is refused or cut short and
nothing has been written. -/
theorem initiateStatements_cases (peer : SocketAddress) (fd : Fd) :
    (∃ name listeningIp listeningPort, IsJoining json content name listeningIp listeningPort ∧
        name ∉ master.participantList ∧
        (initiateStatements json peer fd content).outcome master = (.ok (response "OK"),
          master.register (joiningInfo peer fd name listeningIp listeningPort))) ∨
      ∃ result, (initiateStatements json peer fd content).outcome master = (result, master) ∧
        (result = .error .jsonException ∨
          ∃ text ∈ ["VERSION_MISMATCH", "DUPLICATE", "INVALID"], result = .ok (response text)) := by
  unfold initiateStatements
  cases parsed : json.parse content with
  | none => simp
  | some jsonStruct =>
      simp only [outcome_bind, outcome_orThrow_some]
      cases fields : initiationFields.all fun field => jsonStruct.contains field with
      | false => simp
      | true =>
          cases version : (jsonStruct.at? (ascii "api_version")).any (Json.isString apiVersion) with
          | false => simp
          | true =>
              cases named : jsonStruct.stringAt (ascii "name") with
              | none => simp
              | some name =>
                  by_cases known : name ∈ master.participantList
                  · simp [known]
                  cases hasIp : jsonStruct.stringAt (ascii "listening_ip") with
                  | none => simp [known]
                  | some listeningIp =>
                      cases hasPort : jsonStruct.uint32At (ascii "listening_port") with
                      | none => simp [known]
                      | some listeningPort =>
                          exact Or.inl ⟨name, listeningIp, listeningPort,
                            ⟨jsonStruct, parsed, fields, version, named, hasIp, hasPort⟩, known,
                            by simp [known, UBusMaster.register, joiningInfo]⟩

/-- An announcement on the socket of a participant is entered, or it is
refused or cut short and nothing has been written. -/
theorem announceStatements_cases {kind : Kind} {fd : Fd} {publisher : ParticipantRef}
    (mapped : master.socketParticipantMapping.lookup fd = some (some publisher)) :
    (∃ name types, IsRequest json kind content name types ∧ name ∉ master.announcements kind ∧
        (announceStatements kind json fd content).outcome master =
          (.ok (response "OK"), master.announce kind name types publisher)) ∨
      ∃ result, (announceStatements kind json fd content).outcome master = (result, master) ∧
        (result = .error .jsonException ∨
          ∃ text ∈ ["DUPLICATE", "INVALID"], result = .ok (response text)) := by
  unfold announceStatements
  cases parsed : json.parse content with
  | none => simp
  | some contentJson =>
      by_cases fields : kind.hasFields contentJson
      swap
      · simp [fields]
      cases named : contentJson.stringAt kind.nameField with
      | none => simp [fields, named]
      | some name =>
          by_cases taken : name ∈ master.announcements kind
          · simp [fields, named, taken]
          cases typed : kind.typesAt contentJson with
          | none => simp [fields, named, taken, typed]
          | some types =>
              exact Or.inl ⟨name, types, ⟨contentJson, parsed, fields, named, typed⟩, taken,
                by simp [fields, named, taken, typed, mapped, participantAt, dereference,
                  UBusMaster.announce]⟩

end Outcomes

/-- One registration has been added: its entries in the two maps and in the
queue of new participants. -/
structure AddsRegistration (before after : UBusMaster) (info : UBusParticipantInfo) : Prop where
  freshName : info.name ∉ before.participantList
  freshSocket : info.socket ∉ before.socketParticipantMapping
  listed : after.participantList = before.participantList.insert info.name before.allocated
  mapped : after.socketParticipantMapping =
    before.socketParticipantMapping.insert info.socket (some before.allocated)
  queued : after.unprocessedNewParticipants = before.unprocessedNewParticipants ++ [info.name]
  object : after.participants before.allocated = info
  unannounced : ∀ kind, info.announced kind = ∅
  others : ∀ participant ≠ before.allocated,
    after.participants participant = before.participants participant
  announcements : after.announcements = before.announcements
  dead : after.unprocessedDeadParticipants = before.unprocessedDeadParticipants

/-- One announcement has been added: its entry in the list of its kind and in
the list of its owner. -/
structure AddsAnnouncement (before after : UBusMaster) (kind : Kind) (name : Bytes)
    (types : kind.TypeIds) (publisher : ParticipantRef) : Prop where
  fresh : name ∉ before.announcements kind
  freshOwn : name ∉ (before.participants publisher).announced kind
  listed : after.announcements kind =
    (before.announcements kind).insert name ⟨name, types, publisher⟩
  owned : (after.participants publisher).announced kind =
    ((before.participants publisher).announced kind).insert name types
  otherListed : ∀ other ≠ kind, after.announcements other = before.announcements other
  otherOwned : ∀ other ≠ kind, (after.participants publisher).announced other =
    (before.participants publisher).announced other
  owner : ∃ announced, after.participants publisher =
    { before.participants publisher with announced := announced }
  others : ∀ participant ≠ publisher,
    after.participants participant = before.participants participant
  participantList : after.participantList = before.participantList
  mapping : after.socketParticipantMapping = before.socketParticipantMapping
  new : after.unprocessedNewParticipants = before.unprocessedNewParticipants
  dead : after.unprocessedDeadParticipants = before.unprocessedDeadParticipants

/-- A handler that ends in OK has added what it is for.  One that ends in a
refusal or in an exception of the JSON library has changed nothing. -/
def Atomic (before : UBusMaster) (adds : UBusMaster → Prop) (refusals : List String) :
    Except Escape Json × UBusMaster → Prop
  | (.ok value, after) => (value = response "OK" ∧ adds after) ∨
      ((∃ text ∈ refusals, value = response text) ∧ after = before)
  | (.error escape, after) => escape = .jsonException ∧ after = before

theorem Atomic.of_unchanged {before : UBusMaster} {adds : UBusMaster → Prop}
    {refusals : List String} {result : Except Escape Json}
    (refused : result = .error .jsonException ∨ ∃ text ∈ refusals, result = .ok (response text)) :
    Atomic before adds refusals (result, before) := by
  rcases refused with rfl | ⟨text, member, rfl⟩
  · exact ⟨rfl, rfl⟩
  · exact Or.inr ⟨⟨text, member, rfl⟩, rfl⟩

/-- In every reachable state, handshakes on a fresh socket and announcements
on the socket of a participant are atomic, whatever they contain, and their
statements are what the handlers run. -/
theorem handlers_atomic (json : JsonLibrary) {system : System}
    (reachable : (masterSystem json).Reachable system) :
    (∀ peer fd content, fd ∉ system.accepted →
      Atomic system.master
        (fun after => ∃ name listeningIp listeningPort,
          IsJoining json content name listeningIp listeningPort ∧
            AddsRegistration system.master after
              (joiningInfo peer fd name listeningIp listeningPort))
        ["VERSION_MISMATCH", "DUPLICATE", "INVALID"]
        ((initiateStatements json peer fd content).outcome system.master) ∧
      initiate json system.master peer fd content =
        accepted ((initiateStatements json peer fd content).outcome system.master)) ∧
      ∀ kind fd content publisher,
        system.master.socketParticipantMapping.lookup fd = some (some publisher) →
          Atomic system.master
            (fun after => ∃ name types, IsRequest json kind content name types ∧
              AddsAnnouncement system.master after kind name types publisher)
            ["DUPLICATE", "INVALID"]
            ((announceStatements kind json fd content).outcome system.master) ∧
          announceRequest kind json system.master fd content =
            handled json ((announceStatements kind json fd content).outcome system.master) := by
  obtain ⟨consistent, allocated, accepted⟩ := System.RegistryInvariant.of_reachable reachable
  constructor
  · intro peer fd content fresh
    refine ⟨?_, initiate_eq_accepted system.master json peer fd content⟩
    rcases @initiateStatements_cases system.master json content peer fd with
      ⟨name, ip, port, joining, unknown, outcomeEq⟩ | ⟨result, outcomeEq, refused⟩
    · rw [outcomeEq]
      refine Or.inl ⟨rfl, name, ip, port, joining, ?_⟩
      exact {
        freshName := unknown
        freshSocket := fun mapped => fresh (accepted fd mapped)
        listed := rfl
        mapped := rfl
        queued := rfl
        object := Function.update_self ..
        unannounced := fun _ => rfl
        others := fun participant isOther => Function.update_of_ne isOther ..
        announcements := rfl
        dead := rfl }
    · rw [outcomeEq]
      exact .of_unchanged refused
  · intro kind fd content publisher mapped
    refine ⟨?_, announceRequest_eq_handled system.master kind json fd content⟩
    rcases @announceStatements_cases _ json content kind _ _ mapped with
      ⟨name, types, request, fresh, outcomeEq⟩ | ⟨result, outcomeEq, refused⟩
    · rw [outcomeEq]
      obtain ⟨participant, isEntry, -, listed⟩ := consistent.mapped mapped
      obtain rfl := Option.some.inj isEntry
      refine Or.inl ⟨rfl, name, types, request, ?_⟩
      exact {
        fresh := fresh
        freshOwn := by
          intro own
          obtain ⟨types', ownEq⟩ := mem_iff.mp own
          obtain ⟨announcement, found, -⟩ := consistent.announced.mpr ⟨⟨_, listed⟩, ownEq⟩
          exact fresh (mem_of_lookup found)
        listed := UBusMaster.announce_announcements_self ..
        owned := UBusMaster.announce_announced_self ..
        otherListed := fun other isOther =>
          UBusMaster.announce_announcements_of_ne _ isOther name types publisher
        otherOwned := fun other isOther =>
          UBusMaster.announce_announced_of_ne _ (Or.inr isOther) name types
        owner := UBusMaster.announce_participants ..
        others := fun participant isOther => Function.update_of_ne isOther ..
        participantList := rfl
        mapping := rfl
        new := rfl
        dead := rfl }
    · rw [outcomeEq]
      exact .of_unchanged refused

def Statement.answered (result : Except Escape Json × UBusMaster) : Option Bytes :=
  result.1.toOption.bind (Json.stringAt (ascii "response"))

/-- A client that has joined advertises a topic, and another one joins. -/
theorem handlers_atomic_sample : ∃ system : System,
    let joining := (initiateStatements .plain ⟨(127, 0, 0, 1), 50001⟩ 6
      (requestText (joiningRequest "b"))).outcome system.master
    let announcing := (announceStatements .event .plain 5
      (requestText (advertising "t"))).outcome system.master
    (answered joining = some (ascii "OK") ∧
      Atomic system.master
        (fun after => ∃ name listeningIp listeningPort,
          IsJoining .plain (requestText (joiningRequest "b")) name listeningIp listeningPort ∧
            AddsRegistration system.master after
              (joiningInfo ⟨(127, 0, 0, 1), 50001⟩ 6 name listeningIp listeningPort))
        ["VERSION_MISMATCH", "DUPLICATE", "INVALID"] joining) ∧
    answered announcing = some (ascii "OK") ∧
      Atomic system.master
        (fun after => ∃ name types,
          IsRequest .plain .event (requestText (advertising "t")) name types ∧
            AddsAnnouncement system.master after .event name types 0)
        ["DUPLICATE", "INVALID"] announcing := by
  obtain ⟨system, run, mapped, fresh, joins, announces⟩ :=
    (masterSystem .plain).exists_run_of_steps [.join 5 "a"]
      (fun system => system.master.socketParticipantMapping.lookup 5 = some (some 0) ∧
        6 ∉ system.accepted ∧
        answered ((initiateStatements .plain ⟨(127, 0, 0, 1), 50001⟩ 6
          (requestText (joiningRequest "b"))).outcome system.master) = some (ascii "OK") ∧
        answered ((announceStatements .event .plain 5
          (requestText (advertising "t"))).outcome system.master) = some (ascii "OK"))
      System.started_initial (by decide +kernel)
  have atomic := handlers_atomic .plain ⟨_, run⟩
  exact ⟨system, ⟨joins, (atomic.1 _ 6 _ fresh).1⟩, announces, (atomic.2 .event 5 _ 0 mapped).1⟩

end UBus
