import UBus.Master.Moves

/-!
# Answers to well-formed requests

On a well-formed request the handlers reduce to a question about the
announcements.  This file states their answers in that form, and shows which
replies can be told apart.
-/

namespace UBus

/-- The reply that tells where a publisher listens. -/
def Kind.whereabouts (ip : Bytes) (port : Int64) (name : Bytes) : Kind → Json
  | event => Json.ofAssignments [
      (ascii "response", .string (ascii "OK")),
      (ascii "publisher_ip", .string ip),
      (ascii "publisher_port", .numberInteger port),
      (ascii "publisher_name", .string name)]
  | method => Json.ofAssignments [
      (ascii "response", .string (ascii "OK")),
      (ascii "provider_ip", .string ip),
      (ascii "provider_port", .numberInteger port),
      (ascii "provider_name", .string name)]

def Handled.answer (handled : Handled) : Option Frame := handled.completed.bind Prod.snd

section Requests

variable {json : JsonLibrary} {kind : Kind} {content topic : Bytes} {types : kind.TypeIds}

theorem IsRequest.unique {kind' : Kind} {topic' : Bytes} {types' : kind'.TypeIds}
    (request : IsRequest json kind content topic types)
    (request' : IsRequest json kind' content topic' types') (sameKind : kind' = kind) :
    topic' = topic := by
  subst sameKind
  obtain ⟨value, parsed, -, named, -⟩ := request
  obtain ⟨value', parsed', -, named', -⟩ := request'
  obtain rfl := Option.some.inj (parsed.symm.trans parsed')
  exact Option.some.inj (named'.symm.trans named)

theorem IsJoining.unique {name name' ip ip' : Bytes} {port port' : UInt32}
    (joining : IsJoining json content name ip port)
    (joining' : IsJoining json content name' ip' port') :
    name' = name ∧ ip' = ip ∧ port' = port := by
  obtain ⟨value, parsed, -, -, named, hasIp, hasPort⟩ := joining
  obtain ⟨value', parsed', -, -, named', hasIp', hasPort'⟩ := joining'
  obtain rfl := Option.some.inj (parsed.symm.trans parsed')
  exact ⟨Option.some.inj (named'.symm.trans named), Option.some.inj (hasIp'.symm.trans hasIp),
    Option.some.inj (hasPort'.symm.trans hasPort)⟩

theorem Kind.announceType_injective {kind kind' : Kind}
    (same : kind.announceType.code = kind'.announceType.code) : kind = kind' := by
  cases kind <;> cases kind' <;> first | rfl | exact absurd same (by decide)

theorem lookupRequest_of_isRequest (request : IsRequest json kind content topic types)
    (master : UBusMaster) : lookupRequest kind json master content =
      match (master.announcements kind).lookup topic with
      | none => respond json master (response "NOT_PUBLISHED")
      | some announcement =>
          respond json master (kind.found (master.participants announcement.publisher)) := by
  obtain ⟨value, parsed, fields, named, -⟩ := request
  cases found : (master.announcements kind).lookup topic <;>
    simp only [lookupRequest, parsed, fields, named, found, not_true_eq_false, if_false]

theorem announceRequest_of_isRequest (request : IsRequest json kind content topic types)
    (master : UBusMaster) (fd : Fd) : announceRequest kind json master fd content =
      if topic ∈ master.announcements kind then respond json master (response "DUPLICATE")
      else
        match master.socketParticipantMapping.lookup fd with
        | some (some publisher) =>
            respond json (master.announce kind topic types publisher) (response "OK")
        | _ => .crashed := by
  obtain ⟨value, parsed, fields, named, typed⟩ := request
  rcases mapped : master.socketParticipantMapping.lookup fd with _ | _ | publisher <;>
    simp only [announceRequest, parsed, fields, named, typed, mapped, not_true_eq_false, if_false]

theorem processFrame_lookupType {frame : Frame}
    (isLookup : frame.messageType = kind.lookupType.code)
    (master : UBusMaster) (order : List Bytes) (fd : Fd) :
    processFrame json master order fd frame = lookupRequest kind json master frame.data := by
  unfold processFrame
  rw [isLookup, FrameType.ofCode_code]
  cases kind <;> rfl

theorem processFrame_announceType {frame : Frame}
    (isAnnounce : frame.messageType = kind.announceType.code)
    (master : UBusMaster) (order : List Bytes) (fd : Fd) :
    processFrame json master order fd frame = announceRequest kind json master fd frame.data := by
  unfold processFrame
  rw [isAnnounce, FrameType.ofCode_code]
  cases kind <;> rfl

theorem System.step_control {system next : System} {fd : Fd} {frame : Frame}
    {order : List Bytes} {reply : Option Frame}
    (moved : system.step json (.control fd frame order reply) = some next) :
    (processFrame json system.master order fd frame).completed = some (next.master, reply) := by
  obtain ⟨⟨slot, fd'⟩, -, processed⟩ := Option.bind_eq_some_iff.mp moved
  simp only [Option.ite_none_right_eq_some] at processed
  obtain ⟨⟨rfl, -⟩, processed⟩ := processed
  obtain ⟨⟨master', reply'⟩, completed, result⟩ := Option.bind_eq_some_iff.mp processed
  simp only [Option.ite_none_right_eq_some, Option.some.injEq] at result
  obtain ⟨rfl, rfl⟩ := result
  exact completed

/-- A frame other than a query for debugging is handled if its handler comes to
an end. -/
theorem System.step_of_completed {system : System} {slot : Nat} {fd : Fd} {frame : Frame}
    {order : List Bytes} {master : UBusMaster} {reply : Option Frame}
    (isCurrent : system.current = some (slot, fd))
    (notDebug : frame.messageType ≠ FrameType.debug.code)
    (completed : (processFrame json system.master order fd frame).completed =
      some (master, reply)) :
    ∃ next, system.step json (.control fd frame order reply) = some next := by
  have visits : VisitsListed json system.master order frame := by
    simp [VisitsListed, beq_eq_false_iff_ne.mpr notDebug]
  refine ⟨{ system with master := master, phase := .scanning (slot + 1) }, ?_⟩
  simp [System.step, isCurrent, visits, completed]

theorem Kind.found_eq (kind : Kind) (info : UBusParticipantInfo) :
    kind.found info =
      kind.whereabouts info.listeningIp info.listeningPort.toInt32.toInt64 info.name := by
  cases kind <;> rfl

theorem replyFrame_third (type : FrameType) {first second third : UInt8} (rest : Bytes)
    (nonzero : first ≠ 0 ∧ second ≠ 0 ∧ third ≠ 0) :
    (replyFrame type (first :: second :: third :: rest)).data[2]? = none ∨
      (replyFrame type (first :: second :: third :: rest)).data[2]? = some third := by
  simp only [replyFrame, List.getElem?_take]
  split
  · right
    simp [strncpy, nonzero]
  · exact Or.inl rfl

theorem reply_whereabouts_ne (json : JsonLibrary) (kind : Kind) (ip : Bytes) (port : Int64)
    (name : Bytes) {other : Frame} (bare : other.data[2]? = some 114) :
    json.reply (kind.whereabouts ip port name) ≠ some other := by
  intro same
  obtain ⟨text, dumped, frameEq⟩ := Option.map_eq_some_iff.mp same
  have textEq : ∃ rest, text = 123 :: 34 :: 112 :: rest := by
    cases kind with
    | event =>
        have key : dumpQuoted (ascii "publisher_ip") = some (ascii "\"publisher_ip\"") := by decide
        obtain ⟨rest, rfl⟩ := dumpJson_object_key dumped key
        exact ⟨_, rfl⟩
    | method =>
        have key : dumpQuoted (ascii "provider_ip") = some (ascii "\"provider_ip\"") := by decide
        obtain ⟨rest, rfl⟩ := dumpJson_object_key dumped key
        exact ⟨_, rfl⟩
  obtain ⟨rest, rfl⟩ := textEq
  have nonzero : (123 : UInt8) ≠ 0 ∧ (34 : UInt8) ≠ 0 ∧ (112 : UInt8) ≠ 0 := by decide
  rw [← frameEq] at bare
  rcases replyFrame_third .unknown rest nonzero with missing | present
  · simp [missing] at bare
  · simp [present] at bare

theorem answer_respond (master : UBusMaster) (value : Json) :
    (respond json master value).answer = json.reply value := by
  unfold Handled.answer
  rw [respond_completed]
  cases json.reply value <;> rfl

end Requests

end UBus
