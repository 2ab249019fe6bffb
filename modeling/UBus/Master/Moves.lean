import UBus.Master.System

/-!
# What an event can do

Every invariant of the master follows from the same case analysis, which this
file makes once.  The handlers come first: each leaves the registry alone or
performs one of its operations.  `Move` then lists the possible effects of an
event on the whole system, and `step_move` says that the list is complete.
-/

namespace UBus

open FiniteMap

def Kind.announceType : Kind → FrameType
  | event => .eventRegister
  | method => .methodProvide

def Kind.lookupType : Kind → FrameType
  | event => .eventSubscribe
  | method => .methodQuery

/-- The content of a well-formed request about `name`. -/
def IsRequest (json : JsonLibrary) (kind : Kind) (content name : Bytes)
    (types : kind.TypeIds) : Prop :=
  ∃ contentJson, json.parse content = some contentJson ∧ kind.hasFields contentJson ∧
    contentJson.stringAt kind.nameField = some name ∧ kind.typesAt contentJson = some types

/-- The content of a joining request with all fields of the right types, for
the participant it describes. -/
def IsJoining (json : JsonLibrary) (content name listeningIp : Bytes)
    (listeningPort : UInt32) : Prop :=
  ∃ jsonStruct, json.parse content = some jsonStruct ∧
    (initiationFields.all fun field => jsonStruct.contains field) ∧
    (jsonStruct.at? (ascii "api_version")).any (Json.isString apiVersion) ∧
    jsonStruct.stringAt (ascii "name") = some name ∧
    jsonStruct.stringAt (ascii "listening_ip") = some listeningIp ∧
    jsonStruct.uint32At (ascii "listening_port") = some listeningPort

def joiningInfo (peer : SocketAddress) (fd : Fd) (name listeningIp : Bytes)
    (listeningPort : UInt32) : UBusParticipantInfo where
  name := name
  ip := inetNtoa peer.address
  port := peer.port.toUInt32
  socket := fd
  listeningIp := listeningIp
  listeningPort := listeningPort

section Handlers

variable {json : JsonLibrary} {master master' : UBusMaster} {reply : Option Frame}

theorem reply_response_ne (json : JsonLibrary) :
    json.reply (response "OK") ≠ json.reply (response "DUPLICATE") ∧
      json.reply (response "OK") ≠ json.reply (response "INVALID") ∧
      json.reply (response "OK") ≠ json.reply (response "VERSION_MISMATCH") ∧
      json.reply (response "OK") ≠ none := by
  have okText : json.reply (response "OK") =
      some (replyFrame .unknown (ascii "\x7b\"response\":\"OK\"\x7d")) := rfl
  have duplicateText : json.reply (response "DUPLICATE") =
      some (replyFrame .unknown (ascii "\x7b\"response\":\"DUPLICATE\"\x7d")) := rfl
  have invalidText : json.reply (response "INVALID") =
      some (replyFrame .unknown (ascii "\x7b\"response\":\"INVALID\"\x7d")) := rfl
  have mismatchText : json.reply (response "VERSION_MISMATCH") =
      some (replyFrame .unknown (ascii "\x7b\"response\":\"VERSION_MISMATCH\"\x7d")) := rfl
  rw [okText, duplicateText, invalidText, mismatchText]
  decide

theorem respond_completed (value : Json) :
    (respond json master value).completed =
      (json.reply value).map fun reply => (master, some reply) := by
  unfold respond
  cases json.reply value <;> rfl

theorem respond_completed_eq_some {value : Json}
    (completed : (respond json master value).completed = some (master', reply)) :
    master' = master ∧ reply = json.reply value ∧ reply ≠ none := by
  rw [respond_completed] at completed
  obtain ⟨frame, replyEq, same⟩ := Option.map_eq_some_iff.mp completed
  obtain ⟨rfl, rfl⟩ := Prod.mk.inj same
  exact ⟨rfl, replyEq.symm, by simp⟩

/-- An announcing request is entered and answered OK, or it changes nothing
and is answered otherwise. -/
theorem announceRequest_completed {kind : Kind} {fd : Fd} {content : Bytes}
    (completed : (announceRequest kind json master fd content).completed =
      some (master', reply)) :
    (∃ name types publisher, IsRequest json kind content name types ∧
        name ∉ master.announcements kind ∧
        master.socketParticipantMapping.lookup fd = some (some publisher) ∧
        master' = master.announce kind name types publisher ∧
        reply = json.reply (response "OK")) ∨
      (master' = master ∧ reply ≠ json.reply (response "OK")) := by
  obtain ⟨notDuplicate, notInvalid, -, -⟩ := reply_response_ne json
  unfold announceRequest at completed
  split at completed
  · simp [Handled.completed] at completed
  · rename_i contentJson parsed
    split at completed
    · obtain ⟨same, replyEq, -⟩ := respond_completed_eq_some completed
      exact Or.inr ⟨same, replyEq ▸ notInvalid.symm⟩
    · rename_i fields
      split at completed
      · simp [Handled.completed] at completed
      · rename_i name named
        split at completed
        · obtain ⟨same, replyEq, -⟩ := respond_completed_eq_some completed
          exact Or.inr ⟨same, replyEq ▸ notDuplicate.symm⟩
        · rename_i fresh
          split at completed
          · simp [Handled.completed] at completed
          · rename_i types typed
            split at completed
            · rename_i publisher mapped
              obtain ⟨same, replyEq, -⟩ := respond_completed_eq_some completed
              exact Or.inl ⟨name, types, publisher,
                ⟨contentJson, parsed, by simpa using fields, named, typed⟩, fresh, mapped,
                same, replyEq⟩
            · simp [Handled.completed] at completed

theorem lookupRequest_completed {kind : Kind} {content : Bytes}
    (completed : (lookupRequest kind json master content).completed = some (master', reply)) :
    master' = master := by
  unfold lookupRequest at completed
  split at completed
  · simp [Handled.completed] at completed
  · split at completed
    · exact (respond_completed_eq_some completed).1
    · split at completed
      · simp [Handled.completed] at completed
      · split at completed
        · exact (respond_completed_eq_some completed).1
        · exact (respond_completed_eq_some completed).1

theorem frameDebug_completed {order : List Bytes} {content : Bytes}
    (completed : (frameDebug json master order content).completed = some (master', reply)) :
    master' = master := by
  unfold frameDebug at completed
  split at completed
  · simp [Handled.completed] at completed
  · simp only [Handled.completed, Option.some.injEq, Prod.mk.injEq] at completed
    exact completed.1.symm

theorem processFrame_completed {order : List Bytes} {fd : Fd} {frame : Frame}
    (completed : (processFrame json master order fd frame).completed = some (master', reply)) :
    (∃ participant, frame.messageType = FrameType.keepAlive.code ∧
        master.socketParticipantMapping.lookup fd = some (some participant) ∧
        master' = master.setWatchdog participant 0) ∨
      (∃ kind name types publisher, frame.messageType = (Kind.announceType kind).code ∧
        IsRequest json kind frame.data name types ∧ name ∉ master.announcements kind ∧
        master.socketParticipantMapping.lookup fd = some (some publisher) ∧
        master' = master.announce kind name types publisher ∧
        reply = json.reply (response "OK")) ∨
      (master' = master ∧ ∀ kind, frame.messageType = (Kind.announceType kind).code →
        reply ≠ json.reply (response "OK")) := by
  have otherType : ∀ type, FrameType.ofCode frame.messageType = some type →
      (∀ kind, type ≠ Kind.announceType kind) →
        ∀ kind, frame.messageType = (Kind.announceType kind).code →
          reply ≠ json.reply (response "OK") := by
    intro type found different kind isAnnounce
    rw [isAnnounce, FrameType.ofCode_code] at found
    exact absurd (Option.some.inj found).symm (different kind)
  have announced : ∀ kind,
      FrameType.ofCode frame.messageType = some (Kind.announceType kind) →
      (announceRequest kind json master fd frame.data).completed = some (master', reply) →
        (∃ kind name types publisher, frame.messageType = (Kind.announceType kind).code ∧
          IsRequest json kind frame.data name types ∧ name ∉ master.announcements kind ∧
          master.socketParticipantMapping.lookup fd = some (some publisher) ∧
          master' = master.announce kind name types publisher ∧
          reply = json.reply (response "OK")) ∨
        (master' = master ∧ ∀ kind, frame.messageType = (Kind.announceType kind).code →
          reply ≠ json.reply (response "OK")) := by
    intro kind found completed
    rcases announceRequest_completed completed with
      ⟨name, types, publisher, entered⟩ | ⟨same, other⟩
    · exact Or.inl ⟨kind, name, types, publisher, FrameType.eq_code_of_ofCode found, entered⟩
    · exact Or.inr ⟨same, fun _ _ => other⟩
  unfold processFrame at completed
  split at completed
  · rename_i found
    unfold frameKeepAlive at completed
    split at completed
    · rename_i participant mapped
      simp only [Handled.completed, Option.some.injEq, Prod.mk.injEq] at completed
      exact Or.inl ⟨participant, FrameType.eq_code_of_ofCode found, mapped, completed.1.symm⟩
    · simp [Handled.completed] at completed
  · rename_i found
    exact Or.inr (announced .event found completed)
  · rename_i found
    exact Or.inr (Or.inr ⟨lookupRequest_completed completed,
      otherType _ found (by rintro (_ | _) <;> simp [Kind.announceType])⟩)
  · rename_i found
    exact Or.inr (announced .method found completed)
  · rename_i found
    exact Or.inr (Or.inr ⟨lookupRequest_completed completed,
      otherType _ found (by rintro (_ | _) <;> simp [Kind.announceType])⟩)
  · rename_i found
    exact Or.inr (Or.inr ⟨frameDebug_completed completed,
      otherType _ found (by rintro (_ | _) <;> simp [Kind.announceType])⟩)
  · rename_i notEvent _ notMethod _ _
    simp only [Handled.completed, Option.some.injEq, Prod.mk.injEq] at completed
    refine Or.inr (Or.inr ⟨completed.1.symm, fun kind isAnnounce => ?_⟩)
    exact completed.2 ▸ (reply_response_ne json).2.2.2.symm

/-- A joining request registers a participant and is answered OK, or it
changes nothing and is answered otherwise. -/
theorem initiate_eq_some {peer : SocketAddress} {fd : Fd} {content : Bytes} {value : Json}
    (initiated : initiate json master peer fd content = some (master', value)) :
    (∃ name listeningIp listeningPort, IsJoining json content name listeningIp listeningPort ∧
        name ∉ master.participantList ∧
        master' = master.register (joiningInfo peer fd name listeningIp listeningPort) ∧
        value = response "OK") ∨
      (master' = master ∧ json.reply value ≠ json.reply (response "OK")) := by
  obtain ⟨notDuplicate, notInvalid, notMismatch, -⟩ := reply_response_ne json
  unfold initiate at initiated
  split at initiated
  · simp at initiated
  · rename_i jsonStruct parsed
    split_ifs at initiated with fields version
    · split at initiated
      · simp at initiated
      · rename_i name named
        split_ifs at initiated with known
        · obtain ⟨rfl, rfl⟩ := Prod.mk.inj (Option.some.inj initiated)
          exact Or.inr ⟨rfl, notDuplicate.symm⟩
        · split at initiated
          · rename_i listeningIp listeningPort hasIp hasPort
            obtain ⟨rfl, rfl⟩ := Prod.mk.inj (Option.some.inj initiated)
            exact Or.inl ⟨name, listeningIp, listeningPort,
              ⟨jsonStruct, parsed, fields, version, named, hasIp, hasPort⟩, known, rfl, rfl⟩
          · simp at initiated
    · obtain ⟨rfl, rfl⟩ := Prod.mk.inj (Option.some.inj initiated)
      exact Or.inr ⟨rfl, notMismatch.symm⟩
    · obtain ⟨rfl, rfl⟩ := Prod.mk.inj (Option.some.inj initiated)
      exact Or.inr ⟨rfl, notInvalid.symm⟩

theorem acceptNewConnection_cases (json : JsonLibrary) (master : UBusMaster) (peer : SocketAddress)
    (fd : Fd) (frame : Frame) :
    (∃ name listeningIp listeningPort, frame.messageType = FrameType.initiation.code ∧
        IsJoining json frame.data name listeningIp listeningPort ∧
        name ∉ master.participantList ∧
        acceptNewConnection json master peer fd frame =
          (master.register (joiningInfo peer fd name listeningIp listeningPort),
            json.reply (response "OK"))) ∨
      ((acceptNewConnection json master peer fd frame).1 = master ∧
        (acceptNewConnection json master peer fd frame).2 ≠ json.reply (response "OK")) := by
  have notNone := (reply_response_ne json).2.2.2
  unfold acceptNewConnection
  split_ifs with isOther
  · exact Or.inr ⟨rfl, notNone.symm⟩
  · rw [not_not] at isOther
    split
    · exact Or.inr ⟨rfl, notNone.symm⟩
    · rename_i master' value initiated
      rcases initiate_eq_some initiated with
        ⟨name, listeningIp, listeningPort, joining, fresh, rfl, rfl⟩ | other
      · exact Or.inl ⟨name, listeningIp, listeningPort, isOther, joining, fresh, rfl⟩
      · exact Or.inr other

end Handlers

/-- The possible effects of an event. -/
inductive Move (json : JsonLibrary) (system : System) : Event → System → Prop
  | joined {fd peer frame name listeningIp listeningPort} :
      fd ∉ system.accepted → system.phase ≠ .drainingNew →
      frame.messageType = FrameType.initiation.code →
      IsJoining json frame.data name listeningIp listeningPort →
      name ∉ system.master.participantList →
        Move json system (.accept fd peer frame (json.reply (response "OK")))
          { system with
            master := system.master.register (joiningInfo peer fd name listeningIp listeningPort)
            accepted := fd :: system.accepted }
  | refused {fd peer frame reply} :
      fd ∉ system.accepted → reply ≠ json.reply (response "OK") →
        Move json system (.accept fd peer frame reply)
          { system with accepted := fd :: system.accepted }
  | ticked {order} :
      system.phase ≠ .drainingDead → Enumerates order system.master.participantList →
        Move json system (.tick order) { system with master := system.master.tick order }
  | peerClosed {fd} :
      Move json system (.peerClose fd) { system with closed := fd :: system.closed }
  | proceeded {phase} :
      system.proceed = some phase → Move json system .proceed { system with phase := phase }
  | removed {name later participant} :
      system.phase = .drainingDead →
      system.master.unprocessedDeadParticipants = name :: later →
      system.master.participantList.lookup name = some participant →
        Move json system (.popDead name)
          { system with
            master := { system.master.remove name participant with
              unprocessedDeadParticipants := later }
            pollFdList := SlotTable.vacate PollFd.fd PollFd.cleared
              (system.master.participants participant).socket system.pollFdList }
  | placed {name later participant} :
      system.phase = .drainingNew →
      system.master.unprocessedNewParticipants = name :: later →
      system.master.participantList.lookup name = some participant →
      SlotTable.indexOf PollFd.fd none system.pollFdList < system.pollFdList.length →
        Move json system (.popNew name)
          { system with
            master := { system.master with unprocessedNewParticipants := later }
            pollFdList := SlotTable.occupy PollFd.fd
              ⟨some (system.master.participants participant).socket, false⟩ system.pollFdList }
  | dropped {name later} :
      system.phase = .drainingNew →
      system.master.unprocessedNewParticipants = name :: later →
      system.pollFdList.length ≤ SlotTable.indexOf PollFd.fd none system.pollFdList →
        Move json system (.popNew name)
          { system with master := { system.master with unprocessedNewParticipants := later } }
  | polled {result pollFdList phase} :
      system.phase = .beforePoll → pollFdList.length = system.pollFdList.length →
      (∀ slot, SlotTable.keyAt PollFd.fd pollFdList slot = system.fdAt slot) →
      phase = .passStart ∨ phase = .scanning 0 →
        Move json system (.poll result)
          { system with pollFdList := pollFdList, phase := phase }
  | peerGone {slot fd} :
      system.current = some (slot, fd) → fd ∈ system.closed →
        Move json system .readNothing
          { system with
            pollFdList := system.pollFdList.modify slot PollFd.cleared
            phase := .scanning (slot + 1) }
  | skipped {slot fd} :
      system.current = some (slot, fd) →
        Move json system .readShort { system with phase := .scanning (slot + 1) }
  | keptAlive {slot fd frame order reply participant} :
      system.current = some (slot, fd) → frame.messageType = FrameType.keepAlive.code →
      system.master.socketParticipantMapping.lookup fd = some (some participant) →
        Move json system (.control fd frame order reply)
          { system with
            master := system.master.setWatchdog participant 0
            phase := .scanning (slot + 1) }
  | announced {slot fd frame order kind name types publisher} :
      system.current = some (slot, fd) →
      frame.messageType = (Kind.announceType kind).code →
      IsRequest json kind frame.data name types →
      name ∉ system.master.announcements kind →
      system.master.socketParticipantMapping.lookup fd = some (some publisher) →
        Move json system (.control fd frame order (json.reply (response "OK")))
          { system with
            master := system.master.announce kind name types publisher
            phase := .scanning (slot + 1) }
  | answered {slot fd frame order reply} :
      system.current = some (slot, fd) →
      (∀ kind, frame.messageType = (Kind.announceType kind).code →
        reply ≠ json.reply (response "OK")) →
        Move json system (.control fd frame order reply)
          { system with phase := .scanning (slot + 1) }

theorem System.fdAt_poll (system : System) (sockets : List Fd) (slot : Nat) :
    SlotTable.keyAt PollFd.fd (system.poll sockets) slot = system.fdAt slot := by
  refine SlotTable.keyAt_mapIdx (fun index slot => ?_) slot
  split <;> rfl

theorem step_move {json : JsonLibrary} {system next : System} {event : Event}
    (moved : system.step json event = some next) : Move json system event next := by
  cases event with
  | accept fd peer frame reply =>
      simp only [System.step, Option.ite_none_right_eq_some, Option.some.injEq] at moved
      obtain ⟨⟨fresh, notNew, rfl⟩, rfl⟩ := moved
      rcases acceptNewConnection_cases json system.master peer fd frame with
        ⟨name, listeningIp, listeningPort, isInitiation, joining, unknown, handled⟩ | ⟨same, other⟩
      · rw [handled]
        exact .joined fresh notNew isInitiation joining unknown
      · rw [same]
        exact .refused fresh other
  | tick order =>
      simp only [System.step, Option.ite_none_right_eq_some, Option.some.injEq] at moved
      obtain ⟨⟨notDead, visits⟩, rfl⟩ := moved
      exact .ticked notDead visits
  | peerClose fd =>
      simp only [System.step, Option.ite_none_right_eq_some, Option.some.injEq] at moved
      obtain ⟨-, rfl⟩ := moved
      exact .peerClosed
  | proceed =>
      obtain ⟨phase, proceeds, rfl⟩ := Option.map_eq_some_iff.mp moved
      exact .proceeded proceeds
  | popDead name =>
      simp only [System.step, Option.ite_none_right_eq_some] at moved
      obtain ⟨⟨phase, first⟩, popped⟩ := moved
      obtain ⟨later, queue⟩ := List.head?_eq_some_iff.mp first
      simp only [System.popDead, queue] at popped
      obtain ⟨participant, listed, rfl⟩ := Option.map_eq_some_iff.mp popped
      exact .removed phase queue listed
  | popNew name =>
      simp only [System.step, Option.ite_none_right_eq_some] at moved
      obtain ⟨⟨phase, first⟩, popped⟩ := moved
      obtain ⟨later, queue⟩ := List.head?_eq_some_iff.mp first
      simp only [System.popNew, queue] at popped
      split_ifs at popped with free
      · obtain ⟨participant, listed, rfl⟩ := Option.map_eq_some_iff.mp popped
        exact .placed phase queue listed free
      · obtain rfl := Option.some.inj popped
        exact .dropped phase queue (not_lt.mp free)
  | poll result =>
      simp only [System.step, Option.ite_none_right_eq_some] at moved
      obtain ⟨phase, polled⟩ := moved
      cases result with
      | failed =>
          obtain rfl := Option.some.inj polled
          exact .polled phase rfl (fun _ => rfl) (Or.inl rfl)
      | timeout =>
          obtain rfl := Option.some.inj polled
          exact .polled phase (by simp [System.poll]) (system.fdAt_poll []) (Or.inl rfl)
      | ready sockets =>
          obtain rfl := Option.some.inj polled
          exact .polled phase (by simp [System.poll]) (system.fdAt_poll sockets) (Or.inr rfl)
  | readNothing =>
      obtain ⟨⟨slot, fd⟩, isCurrent, read⟩ := Option.bind_eq_some_iff.mp moved
      simp only [Option.ite_none_right_eq_some, Option.some.injEq] at read
      obtain ⟨closed, rfl⟩ := read
      exact .peerGone isCurrent closed
  | readShort =>
      obtain ⟨⟨slot, fd⟩, isCurrent, rfl⟩ := Option.map_eq_some_iff.mp moved
      exact .skipped isCurrent
  | control fd frame order reply =>
      obtain ⟨⟨slot, fd'⟩, isCurrent, processed⟩ := Option.bind_eq_some_iff.mp moved
      simp only [Option.ite_none_right_eq_some] at processed
      obtain ⟨⟨rfl, -⟩, processed⟩ := processed
      obtain ⟨⟨master', reply'⟩, completed, result⟩ := Option.bind_eq_some_iff.mp processed
      simp only [Option.ite_none_right_eq_some, Option.some.injEq] at result
      obtain ⟨rfl, rfl⟩ := result
      rcases processFrame_completed completed with
        ⟨participant, isKeepAlive, mapped, rfl⟩ |
        ⟨kind, name, types, publisher, isAnnounce, request, fresh, mapped, rfl, rfl⟩ |
        ⟨rfl, other⟩
      · exact .keptAlive isCurrent isKeepAlive mapped
      · exact .announced isCurrent isAnnounce request fresh mapped
      · exact .answered isCurrent other

end UBus
