import UBus.Master.Texts

/-!
# Which frames are answered

Every frame a client can send should be handled without an exception leaving
the handler, and requests should get one reply, `INVALID` if they are
malformed.  This file determines for every reachable state which frames are
handled that way.  What can go wrong is the parsing of the content and the
conversion of its fields, of which only the handshake catches exceptions.
-/

namespace UBus

open FiniteMap

/-- No exception, exactly one reply, and INVALID if the request is malformed. -/
def Handled.Proper (json : JsonLibrary) (malformed : Prop) (handled : Handled) : Prop :=
  handled ≠ .threw ∧ (∃ reply, handled.answer = some reply) ∧
    (malformed → handled.answer = json.reply (response "INVALID"))

def WellFormed (json : JsonLibrary) (kind : Kind) (content : Bytes) : Prop :=
  ∃ name types, IsRequest json kind content name types

/-- The content is JSON, and it is no request because a field is missing, if
it is none. -/
def Tolerated (json : JsonLibrary) (kind : Kind) (content : Bytes) : Prop :=
  ∃ contentJson, json.parse content = some contentJson ∧
    (kind.hasFields contentJson → WellFormed json kind content)

section Proper

variable {json : JsonLibrary} {kind : Kind} {content : Bytes} {master : UBusMaster}

theorem respond_proper {malformed : Prop} {text : String} (valid : IsUtf8 (ascii text))
    (agrees : malformed → text = "INVALID") :
    (respond json master (response text)).Proper json malformed := by
  obtain ⟨reply, replyEq⟩ := reply_response_isSome json text valid
  refine ⟨?_, ⟨reply, by rw [answer_respond, replyEq]⟩, fun isMalformed => ?_⟩
  · simp [respond, replyEq]
  · rw [answer_respond, agrees isMalformed]

theorem reply_ne_invalid (json : JsonLibrary) :
    json.reply (response "DUPLICATE") ≠ json.reply (response "INVALID") ∧
      json.reply (response "NOT_PUBLISHED") ≠ json.reply (response "INVALID") ∧
      json.reply (response "VERSION_MISMATCH") ≠ json.reply (response "INVALID") := by
  have duplicateText : json.reply (response "DUPLICATE") =
      some (replyFrame .unknown (ascii "\x7b\"response\":\"DUPLICATE\"\x7d")) := rfl
  have absentText : json.reply (response "NOT_PUBLISHED") =
      some (replyFrame .unknown (ascii "\x7b\"response\":\"NOT_PUBLISHED\"\x7d")) := rfl
  have invalidText : json.reply (response "INVALID") =
      some (replyFrame .unknown (ascii "\x7b\"response\":\"INVALID\"\x7d")) := rfl
  have mismatchText : json.reply (response "VERSION_MISMATCH") =
      some (replyFrame .unknown (ascii "\x7b\"response\":\"VERSION_MISMATCH\"\x7d")) := rfl
  rw [duplicateText, absentText, invalidText, mismatchText]
  decide

theorem reply_found_ne_invalid (json : JsonLibrary) (kind : Kind) (info : UBusParticipantInfo) :
    json.reply (kind.found info) ≠ json.reply (response "INVALID") := by
  have invalidText : json.reply (response "INVALID") =
      some (replyFrame .unknown (ascii "\x7b\"response\":\"INVALID\"\x7d")) := rfl
  rw [Kind.found_eq, invalidText]
  exact reply_whereabouts_ne json kind _ _ _ (by decide)

theorem lookupRequest_proper_iff (valid : master.TextsValid) :
    (lookupRequest kind json master content).Proper json (¬ WellFormed json kind content) ↔
      Tolerated json kind content := by
  constructor
  · rintro ⟨noThrow, -, invalid⟩
    cases parsed : json.parse content with
    | none => simp [lookupRequest, parsed] at noThrow
    | some contentJson =>
        refine ⟨contentJson, parsed, fun fields => ?_⟩
        by_contra malformed
        replace invalid := invalid malformed
        simp only [lookupRequest, parsed, fields, not_true_eq_false, if_false] at noThrow invalid
        cases named : contentJson.stringAt kind.nameField with
        | none => simp [named] at noThrow
        | some name =>
            simp only [named] at invalid
            -- a name was found, so the answer depends on the announcements alone
            cases found : (master.announcements kind).lookup name with
            | none =>
                rw [found] at invalid
                exact (reply_ne_invalid json).2.1 ((answer_respond _ _).symm.trans invalid)
            | some announcement =>
                rw [found] at invalid
                exact reply_found_ne_invalid json kind _ ((answer_respond _ _).symm.trans invalid)
  · rintro ⟨contentJson, parsed, wellFormed⟩
    by_cases fields : kind.hasFields contentJson
    · obtain ⟨name, types, request⟩ := wellFormed fields
      rw [lookupRequest_of_isRequest request]
      have notMalformed : ¬ ¬ WellFormed json kind content := not_not.mpr ⟨name, types, request⟩
      cases (master.announcements kind).lookup name with
      | none => exact respond_proper (by decide) (absurd · notMalformed)
      | some announcement =>
          obtain ⟨reply, replyEq⟩ := valid.found_isSome json kind announcement.publisher
          refine ⟨?_, ⟨reply, ?_⟩, (absurd · notMalformed)⟩
          · simp [respond, replyEq]
          · simp only [answer_respond, replyEq]
    · simp only [lookupRequest, parsed, fields, Bool.false_eq_true, not_false_eq_true, if_true]
      exact respond_proper (by decide) fun _ => rfl

/-- Exactly the tolerated announcements are handled properly, if the topic is
taken or the sender is known. -/
theorem announceRequest_proper_iff (fd : Fd) :
    (announceRequest kind json master fd content).Proper json (¬ WellFormed json kind content) ↔
      Tolerated json kind content ∧ ∀ name types, IsRequest json kind content name types →
        name ∈ master.announcements kind ∨
          ∃ publisher, master.socketParticipantMapping.lookup fd = some (some publisher) := by
  constructor
  · rintro ⟨noThrow, ⟨reply, answered⟩, invalid⟩
    constructor
    · cases parsed : json.parse content with
      | none => simp [announceRequest, parsed] at noThrow
      | some contentJson =>
          refine ⟨contentJson, parsed, fun fields => ?_⟩
          by_contra malformed
          replace invalid := invalid malformed
          simp only [announceRequest, parsed, fields, not_true_eq_false, if_false]
            at noThrow invalid
          cases named : contentJson.stringAt kind.nameField with
          | none => simp [named] at noThrow
          | some name =>
              simp only [named] at noThrow invalid
              by_cases taken : name ∈ master.announcements kind
              · rw [if_pos taken] at invalid
                exact (reply_ne_invalid json).1 ((answer_respond _ _).symm.trans invalid)
              · cases typed : kind.typesAt contentJson with
                | none => simp [taken, typed] at noThrow
                | some types =>
                    exact malformed ⟨name, types, contentJson, parsed, fields, named, typed⟩
    · intro name types request
      rw [announceRequest_of_isRequest request] at answered
      by_contra unknown
      rw [not_or, not_exists] at unknown
      rw [if_neg unknown.1] at answered
      split at answered
      · rename_i publisher mapped
        exact unknown.2 publisher mapped
      · simp [Handled.answer, Handled.completed] at answered
  · rintro ⟨⟨contentJson, parsed, wellFormed⟩, known⟩
    by_cases fields : kind.hasFields contentJson
    · obtain ⟨name, types, request⟩ := wellFormed fields
      rw [announceRequest_of_isRequest request]
      have notMalformed : ¬ ¬ WellFormed json kind content := not_not.mpr ⟨name, types, request⟩
      split_ifs with taken
      · exact respond_proper (by decide) (absurd · notMalformed)
      · obtain ⟨publisher, mapped⟩ := (known name types request).resolve_left taken
        rw [mapped]
        exact respond_proper (by decide) (absurd · notMalformed)
    · simp only [announceRequest, parsed, fields, Bool.false_eq_true, not_false_eq_true, if_true]
      exact respond_proper (by decide) fun _ => rfl

end Proper

def IsHandshake (json : JsonLibrary) (content : Bytes) : Prop :=
  ∃ jsonStruct, json.parse content = some jsonStruct ∧
    (initiationFields.all fun field => jsonStruct.contains field) ∧
    (∃ version, jsonStruct.stringAt (ascii "api_version") = some version) ∧
    (∃ name, jsonStruct.stringAt (ascii "name") = some name) ∧
    (∃ listeningIp, jsonStruct.stringAt (ascii "listening_ip") = some listeningIp) ∧
    ∃ listeningPort, jsonStruct.uint32At (ascii "listening_port") = some listeningPort

/-- The content is JSON, and it is no handshake because a field is missing, if
it is none. -/
def ToleratedHandshake (json : JsonLibrary) (content : Bytes) : Prop :=
  ∃ jsonStruct, json.parse content = some jsonStruct ∧
    ((initiationFields.all fun field => jsonStruct.contains field) → IsHandshake json content)

/-- The handling of the first frame of a connection.  Exceptions are caught,
and nothing is written then. -/
def handshake (json : JsonLibrary) (master : UBusMaster) (peer : SocketAddress) (fd : Fd)
    (frame : Frame) : Handled :=
  match acceptNewConnection json master peer fd frame with
  | (master', some reply) => .replied master' reply
  | (master', none) => .silent master'

section Handshakes

variable {json : JsonLibrary} {master : UBusMaster} {peer : SocketAddress} {fd : Fd}
  {frame : Frame}

theorem handshake_ne_threw : handshake json master peer fd frame ≠ .threw := by
  unfold handshake
  split <;> simp

theorem handshake_answer :
    (handshake json master peer fd frame).answer =
      (acceptNewConnection json master peer fd frame).2 := by
  unfold handshake
  split <;> rename_i handled <;> rw [handled] <;> rfl

theorem handshake_answer_of_ne (isOther : frame.messageType ≠ FrameType.initiation.code) :
    (handshake json master peer fd frame).answer = none := by
  rw [handshake_answer]
  unfold acceptNewConnection
  rw [if_pos isOther]

theorem handshake_answer_of_initiation
    (isInitiation : frame.messageType = FrameType.initiation.code) :
    (handshake json master peer fd frame).answer =
      (initiate json master peer fd frame.data).bind fun initiated => json.reply initiated.2 := by
  rw [handshake_answer]
  unfold acceptNewConnection
  rw [if_neg (not_not.mpr isInitiation)]
  cases initiate json master peer fd frame.data <;> rfl

theorem initiate_reply {master' : UBusMaster} {content : Bytes} {value : Json}
    (initiated : initiate json master peer fd content = some (master', value)) :
    ∃ reply, json.reply value = some reply := by
  have written : ∀ text, IsUtf8 (ascii text) → value = response text →
      ∃ reply, json.reply value = some reply :=
    fun text valid isResponse => isResponse ▸ reply_response_isSome json text valid
  unfold initiate at initiated
  split at initiated
  · simp at initiated
  · split_ifs at initiated with fields version
    · split at initiated
      · simp at initiated
      · split_ifs at initiated with known
        · exact written "DUPLICATE" (by decide) (Prod.mk.inj (Option.some.inj initiated)).2.symm
        · split at initiated
          · exact written "OK" (by decide) (Prod.mk.inj (Option.some.inj initiated)).2.symm
          · simp at initiated
    · exact written "VERSION_MISMATCH" (by decide)
        (Prod.mk.inj (Option.some.inj initiated)).2.symm
    · exact written "INVALID" (by decide) (Prod.mk.inj (Option.some.inj initiated)).2.symm

theorem initiate_fields {master' : UBusMaster} {content : Bytes} {value : Json}
    (initiated : initiate json master peer fd content = some (master', value)) :
    ∃ jsonStruct, json.parse content = some jsonStruct ∧
      ((initiationFields.all fun field => jsonStruct.contains field) →
        json.reply value ≠ json.reply (response "INVALID")) ∧
      (¬ (initiationFields.all fun field => jsonStruct.contains field) →
        value = response "INVALID") := by
  obtain ⟨notDuplicate, -, notMismatch⟩ := reply_ne_invalid json
  have notOk := (reply_response_ne json).2.1
  unfold initiate at initiated
  split at initiated
  · simp at initiated
  · rename_i jsonStruct parsed
    refine ⟨jsonStruct, parsed, fun fields => ?_, fun missing => ?_⟩
    · rw [if_pos fields] at initiated
      split_ifs at initiated with version
      · split at initiated
        · simp at initiated
        · split_ifs at initiated with known
          · exact (Prod.mk.inj (Option.some.inj initiated)).2 ▸ notDuplicate
          · split at initiated
            · exact (Prod.mk.inj (Option.some.inj initiated)).2 ▸ notOk
            · simp at initiated
      · exact (Prod.mk.inj (Option.some.inj initiated)).2 ▸ notMismatch
    · rw [if_neg missing] at initiated
      exact (Prod.mk.inj (Option.some.inj initiated)).2.symm

theorem initiate_isSome_of_isHandshake (master : UBusMaster) (peer : SocketAddress) (fd : Fd)
    {content : Bytes} (wellFormed : IsHandshake json content) :
    ∃ initiated, initiate json master peer fd content = some initiated := by
  obtain ⟨jsonStruct, parsed, fields, -, ⟨name, named⟩, ⟨listeningIp, hasIp⟩,
    ⟨listeningPort, hasPort⟩⟩ := wellFormed
  simp only [initiate, parsed, fields, if_true, named, hasIp, hasPort]
  split_ifs <;> exact ⟨_, rfl⟩

theorem handshake_proper_iff (isInitiation : frame.messageType = FrameType.initiation.code) :
    (handshake json master peer fd frame).Proper json (¬ IsHandshake json frame.data) ↔
      ToleratedHandshake json frame.data := by
  rw [Handled.Proper, handshake_answer_of_initiation isInitiation]
  constructor
  · rintro ⟨-, ⟨reply, answered⟩, invalid⟩
    obtain ⟨⟨master', value⟩, initiated, replyEq⟩ := Option.bind_eq_some_iff.mp answered
    obtain ⟨jsonStruct, parsed, ifFields, -⟩ := initiate_fields initiated
    refine ⟨jsonStruct, parsed, fun fields => ?_⟩
    by_contra malformed
    rw [initiated] at invalid
    exact ifFields fields (invalid malformed)
  · rintro ⟨jsonStruct, parsed, wellFormed⟩
    by_cases fields : initiationFields.all fun field => jsonStruct.contains field
    · obtain ⟨⟨master', value⟩, initiated⟩ :=
        initiate_isSome_of_isHandshake master peer fd (wellFormed fields)
      rw [initiated]
      exact ⟨handshake_ne_threw, initiate_reply initiated,
        fun malformed => absurd (wellFormed fields) malformed⟩
    · have initiated : initiate json master peer fd frame.data =
          some (master, response "INVALID") := by
        simp only [initiate, parsed]
        rw [if_neg fields]
      rw [initiated]
      exact ⟨handshake_ne_threw, initiate_reply initiated, fun _ => rfl⟩

end Handshakes

def Frame.IsQuery (frame : Frame) : Prop :=
  frame.messageType = FrameType.debug.code ∨
    ∃ kind : Kind, frame.messageType = kind.announceType.code ∨
      frame.messageType = kind.lookupType.code

/-- A request whose content is none.  Debug frames are exempt. -/
def Frame.Malformed (json : JsonLibrary) (frame : Frame) : Prop :=
  ∃ kind : Kind, (frame.messageType = kind.announceType.code ∨
    frame.messageType = kind.lookupType.code) ∧ ¬ WellFormed json kind frame.data

/-- A frame that arrives at the master: the first of a connection, or a later
one, which is handled while hash maps are visited in `order`. -/
inductive Arrival where
  | first (peer : SocketAddress) (fd : Fd) (frame : Frame)
  | later (order : List Bytes) (fd : Fd) (frame : Frame)

namespace Arrival

def handled (json : JsonLibrary) (master : UBusMaster) : Arrival → Handled
  | first peer fd frame => handshake json master peer fd frame
  | later order fd frame => processFrame json master order fd frame

def WantsReply : Arrival → Prop
  | first _ _ frame => frame.messageType = FrameType.initiation.code ∨ frame.IsQuery
  | later _ _ frame => frame.IsQuery

def Malformed (json : JsonLibrary) : Arrival → Prop
  | first _ _ frame =>
      (frame.messageType = FrameType.initiation.code ∧ ¬ IsHandshake json frame.data) ∨
        frame.Malformed json
  | later _ _ frame => frame.Malformed json

/-- The frame is handled without an exception and answered if it has to be. -/
def WellHandled (json : JsonLibrary) (master : UBusMaster) (arrival : Arrival) : Prop :=
  arrival.handled json master ≠ .threw ∧
    (arrival.WantsReply → (arrival.handled json master).Proper json (arrival.Malformed json))

/-- The frame does not reach one of the gaps in the checks: its content is
JSON, present fields have the right types unless one is missing, a new
announcement comes from a registered participant, and the first frame is not
a query. -/
def Tolerated (json : JsonLibrary) (master : UBusMaster) : Arrival → Prop
  | first _ _ frame =>
      (frame.messageType = FrameType.initiation.code → ToleratedHandshake json frame.data) ∧
        ¬ frame.IsQuery
  | later _ fd frame => ∀ kind : Kind,
      (frame.messageType = kind.lookupType.code → UBus.Tolerated json kind frame.data) ∧
      (frame.messageType = kind.announceType.code →
        UBus.Tolerated json kind frame.data ∧ ∀ name types,
          IsRequest json kind frame.data name types → name ∈ master.announcements kind ∨
            ∃ publisher, master.socketParticipantMapping.lookup fd = some (some publisher))

end Arrival

section Arrivals

variable {json : JsonLibrary} {master : UBusMaster} {frame : Frame}

theorem Frame.malformed_iff {kind : Kind}
    (isRequest : frame.messageType = kind.announceType.code ∨
      frame.messageType = kind.lookupType.code) :
    frame.Malformed json ↔ ¬ WellFormed json kind frame.data := by
  constructor
  · rintro ⟨kind', isRequest', malformed⟩
    have sameKind : kind' = kind := by
      rcases isRequest with same | same <;> rw [same] at isRequest' <;>
        revert isRequest' <;> cases kind <;> cases kind' <;> decide
    exact sameKind ▸ malformed
  · exact fun malformed => ⟨kind, isRequest, malformed⟩

theorem Frame.not_malformed_of_debug (isDebug : frame.messageType = FrameType.debug.code) :
    ¬ frame.Malformed json := by
  rintro ⟨kind, isRequest, -⟩
  rw [isDebug] at isRequest
  revert isRequest
  cases kind <;> decide

theorem Frame.not_isQuery_of_initiation
    (isInitiation : frame.messageType = FrameType.initiation.code) : ¬ frame.IsQuery := by
  unfold Frame.IsQuery
  rw [isInitiation]
  rintro (isDebug | ⟨kind, isRequest⟩)
  · exact absurd isDebug (by decide)
  · revert isRequest
    cases kind <;> decide

theorem processFrame_ne_threw (noQuery : ¬ frame.IsQuery) (order : List Bytes) (fd : Fd) :
    processFrame json master order fd frame ≠ .threw := by
  have notRequest : ∀ {type : FrameType}, FrameType.ofCode frame.messageType = some type →
      type ≠ .debug ∧ ∀ kind : Kind, type ≠ kind.announceType ∧ type ≠ kind.lookupType := by
    intro type found
    have isType := FrameType.eq_code_of_ofCode found
    refine ⟨?_, fun kind => ⟨?_, ?_⟩⟩ <;> rintro rfl
    · exact noQuery (Or.inl isType)
    · exact noQuery (Or.inr ⟨kind, Or.inl isType⟩)
    · exact noQuery (Or.inr ⟨kind, Or.inr isType⟩)
  unfold processFrame
  split
  · unfold frameKeepAlive
    split <;> simp
  · rename_i found
    exact absurd rfl ((notRequest found).2 .event).1
  · rename_i found
    exact absurd rfl ((notRequest found).2 .event).2
  · rename_i found
    exact absurd rfl ((notRequest found).2 .method).1
  · rename_i found
    exact absurd rfl ((notRequest found).2 .method).2
  · rename_i found
    exact absurd rfl (notRequest found).1
  · simp

theorem processFrame_debug (isDebug : frame.messageType = FrameType.debug.code)
    (order : List Bytes) (fd : Fd) :
    processFrame json master order fd frame = frameDebug json master order frame.data := by
  unfold processFrame
  rw [isDebug, FrameType.ofCode_code]

theorem Arrival.first_wellHandled_iff (peer : SocketAddress) (fd : Fd) :
    (Arrival.first peer fd frame).WellHandled json master ↔
      (Arrival.first peer fd frame).Tolerated json master := by
  by_cases isInitiation : frame.messageType = FrameType.initiation.code
  · have noQuery := Frame.not_isQuery_of_initiation isInitiation
    have malformedIff : (Arrival.first peer fd frame).Malformed json ↔
        ¬ IsHandshake json frame.data := by
      refine ⟨?_, fun malformed => Or.inl ⟨isInitiation, malformed⟩⟩
      rintro (⟨-, malformed⟩ | ⟨kind, isRequest, -⟩)
      · exact malformed
      · exact absurd (Or.inr ⟨kind, isRequest⟩) noQuery
    simp only [WellHandled, handled, WantsReply, Tolerated, malformedIff, isInitiation, noQuery,
      true_or, forall_const, not_false_eq_true, and_true, handshake_proper_iff isInitiation]
    exact and_iff_right handshake_ne_threw
  · constructor
    · rintro ⟨-, proper⟩
      refine ⟨fun same => absurd same isInitiation, fun isQuery => ?_⟩
      obtain ⟨-, ⟨reply, answered⟩, -⟩ := proper (Or.inr isQuery)
      exact absurd answered (by simp [handled, handshake_answer_of_ne isInitiation])
    · rintro ⟨-, noQuery⟩
      exact ⟨handshake_ne_threw, fun wants => absurd wants (not_or.mpr ⟨isInitiation, noQuery⟩)⟩

theorem Arrival.later_wellHandled_iff (valid : master.TextsValid) (order : List Bytes) (fd : Fd) :
    (Arrival.later order fd frame).WellHandled json master ↔
      (Arrival.later order fd frame).Tolerated json master := by
  constructor
  · rintro ⟨-, proper⟩ kind
    refine ⟨fun isLookup => ?_, fun isAnnounce => ?_⟩
    · have isProper := proper (Or.inr ⟨kind, Or.inr isLookup⟩)
      simp only [handled, Malformed, Frame.malformed_iff (Or.inr isLookup),
        processFrame_lookupType isLookup] at isProper
      exact (lookupRequest_proper_iff valid).mp isProper
    · have isProper := proper (Or.inr ⟨kind, Or.inl isAnnounce⟩)
      simp only [handled, Malformed, Frame.malformed_iff (Or.inl isAnnounce),
        processFrame_announceType isAnnounce] at isProper
      exact (announceRequest_proper_iff fd).mp isProper
  · intro tolerated
    have proper : frame.IsQuery → (processFrame json master order fd frame).Proper json
        (frame.Malformed json) := by
      rintro (isDebug | ⟨kind, isAnnounce | isLookup⟩)
      · obtain ⟨text, written⟩ := valid.frameDebug json order frame.data
        rw [processFrame_debug isDebug, written]
        exact ⟨by simp, ⟨_, rfl⟩, fun malformed =>
          absurd malformed (Frame.not_malformed_of_debug isDebug)⟩
      · rw [processFrame_announceType isAnnounce, Frame.malformed_iff (Or.inl isAnnounce)]
        exact (announceRequest_proper_iff fd).mpr ((tolerated kind).2 isAnnounce)
      · rw [processFrame_lookupType isLookup, Frame.malformed_iff (Or.inr isLookup)]
        exact (lookupRequest_proper_iff valid).mpr ((tolerated kind).1 isLookup)
    refine ⟨?_, proper⟩
    by_cases isQuery : frame.IsQuery
    · exact (proper isQuery).1
    · exact processFrame_ne_threw isQuery order fd

end Arrivals

/-- In every reachable state, exactly the tolerated frames are handled without
an exception and answered as they should be. -/
theorem frames_answered_iff (json : JsonLibrary) {system : System}
    (reachable : (masterSystem json).Reachable system) (arrival : Arrival) :
    arrival.WellHandled json system.master ↔ arrival.Tolerated json system.master := by
  cases arrival with
  | first peer fd frame => exact Arrival.first_wellHandled_iff peer fd
  | later order fd frame =>
      exact Arrival.later_wellHandled_iff (UBusMaster.TextsValid.of_reachable reachable) order fd

/-- A client that has joined asks for an unknown topic. -/
theorem frames_answered_sample : ∃ system : System, system.current = some (0, 5) ∧
    (Arrival.later [] 5 ⟨FrameType.eventSubscribe.code,
      requestText (advertising "t")⟩).WellHandled .plain system.master := by
  obtain ⟨system, run, isCurrent⟩ := (masterSystem .plain).exists_run_of_steps
    Event.untilRead (fun system => system.current = some (0, 5))
    System.started_initial (by decide +kernel)
  refine ⟨system, isCurrent, (frames_answered_iff .plain ⟨_, run⟩ _).mpr ?_⟩
  intro kind
  cases kind with
  | event =>
      refine ⟨fun _ => ⟨advertising "t", rfl, fun _ => ?_⟩, fun isAnnounce => ?_⟩
      · exact ⟨ascii "t", (11 : UInt32), advertising "t", rfl, rfl, rfl, rfl⟩
      · exact absurd isAnnounce (by decide)
  | method =>
      exact ⟨fun isLookup => absurd isLookup (by decide),
        fun isAnnounce => absurd isAnnounce (by decide)⟩

/-- A client that has joined registers an event with a text that is not JSON:
the exception ends the master. -/
theorem frames_not_answered : ∃ system : System, (masterSystem .plain).Reachable system ∧
    system.current = some (0, 5) ∧
      ¬ (Arrival.later [] 5 ⟨FrameType.eventRegister.code, ascii "oops"⟩).WellHandled
        .plain system.master := by
  obtain ⟨system, run, isCurrent⟩ := (masterSystem .plain).exists_run_of_steps
    Event.untilRead (fun system => system.current = some (0, 5))
    System.started_initial (by decide +kernel)
  refine ⟨system, ⟨_, run⟩, isCurrent, fun handledWell => handledWell.1 ?_⟩
  have unparsable : JsonLibrary.plain.parse (ascii "oops") = none := by decide +kernel
  change announceRequest .event .plain system.master 5 (ascii "oops") = .threw
  simp only [announceRequest, unparsable]

end UBus
