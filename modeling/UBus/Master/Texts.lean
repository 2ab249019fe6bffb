import UBus.Master.Answers
import UBus.Master.Registry

/-!
# Texts the master serializes

The serializer throws on a string that is not UTF-8.  Everything the master
has stored came out of the parser, which rejects such strings, so no reply
and no listing can fail to be written.
-/

namespace UBus

open FiniteMap

structure UBusMaster.TextsValid (master : UBusMaster) : Prop where
  name : ∀ participant, IsUtf8 (master.participants participant).name
  ip : ∀ participant, IsUtf8 (master.participants participant).ip
  listeningIp : ∀ participant, IsUtf8 (master.participants participant).listeningIp
  announcements : ∀ {kind name announcement},
    (master.announcements kind).lookup name = some announcement → IsUtf8 announcement.name

theorem inetNtoa_isUtf8 (address : UInt8 × UInt8 × UInt8 × UInt8) : IsUtf8 (inetNtoa address) := by
  have digits : ∀ {number byte}, byte ∈ decimal number → byte.toNat < 128 :=
    fun member => by have := (decimal_digit member).2; omega
  have dot : ∀ byte ∈ ascii ".", byte.toNat < 128 := by
    change ∀ byte ∈ [(46 : UInt8)], byte.toNat < 128
    simp
  apply isUtf8_of_lt
  intro byte member
  simp only [inetNtoa, List.mem_append] at member
  rcases member with ((((((d | d) | d) | d) | d) | d) | d)
  all_goals first | exact digits d | exact dot byte d

namespace UBusMaster.TextsValid

variable {json : JsonLibrary} {system next : System} {event : Event}

theorem stringAt {content key text : Bytes} {value : Json}
    (parsed : json.parse content = some value)
    (found : value.stringAt key = some text) : IsUtf8 text :=
  json.parse_utf8 parsed text (Json.stringAt_mem_strings found)

theorem sameRegistry {before after : UBusMaster} (valid : before.TextsValid)
    (same : SameRegistry before after) : after.TextsValid := by
  obtain ⟨participants, dead, rfl⟩ := same.rest
  refine ⟨fun participant => ?_, fun participant => ?_, fun participant => ?_,
    valid.announcements⟩ <;>
    obtain ⟨counter, infoEq⟩ := same.participants participant <;>
    rw [infoEq]
  · exact valid.name participant
  · exact valid.ip participant
  · exact valid.listeningIp participant

theorem step (valid : system.master.TextsValid) (move : Move json system event next) :
    next.master.TextsValid := by
  cases move with
  | @joined fd peer frame name listeningIp listeningPort _ _ _ joining _ =>
      obtain ⟨value, parsed, -, -, named, hasIp, -⟩ := joining
      have infos : ∀ participant, (system.master.register
          (joiningInfo peer fd name listeningIp listeningPort)).participants participant =
          if participant = system.master.allocated then
            joiningInfo peer fd name listeningIp listeningPort
          else system.master.participants participant :=
        fun participant => system.master.register_participants _ participant
      refine ⟨fun participant => ?_, fun participant => ?_, fun participant => ?_,
        valid.announcements⟩ <;>
        rw [infos] <;> split_ifs
      · exact stringAt parsed named
      · exact valid.name participant
      · exact inetNtoa_isUtf8 _
      · exact valid.ip participant
      · exact stringAt parsed hasIp
      · exact valid.listeningIp participant
  | refused _ _ => exact valid
  | @ticked order _ _ => exact valid.sameRegistry (system.master.tick_sameRegistry order)
  | peerClosed => exact valid
  | proceeded _ => exact valid
  | removed _ _ _ =>
      refine ⟨valid.name, valid.ip, valid.listeningIp, ?_⟩
      intro kind name announcement found
      replace found := (lookup_eraseAll _ _ _).symm.trans found
      split_ifs at found
      exact valid.announcements found
  | placed _ _ _ _ =>
      exact ⟨valid.name, valid.ip, valid.listeningIp, valid.announcements⟩
  | dropped _ _ _ =>
      exact ⟨valid.name, valid.ip, valid.listeningIp, valid.announcements⟩
  | polled _ _ _ _ => exact valid
  | peerGone _ _ => exact valid
  | skipped _ => exact valid
  | @keptAlive _ _ _ _ _ participant _ _ _ =>
      exact valid.sameRegistry (system.master.setWatchdog_sameRegistry participant 0)
  | @announced _ _ _ _ kind name types publisher _ _ request _ _ =>
      obtain ⟨value, parsed, -, named, -⟩ := request
      refine ⟨fun participant => ?_, fun participant => ?_, fun participant => ?_, ?_⟩
      · obtain ⟨lists, infoEq⟩ :=
          system.master.announce_participants kind name types publisher participant
        exact infoEq ▸ valid.name participant
      · obtain ⟨lists, infoEq⟩ :=
          system.master.announce_participants kind name types publisher participant
        exact infoEq ▸ valid.ip participant
      · obtain ⟨lists, infoEq⟩ :=
          system.master.announce_participants kind name types publisher participant
        exact infoEq ▸ valid.listeningIp participant
      · intro kind' topic announcement found
        change ((system.master.announce kind name types publisher).announcements kind').lookup
          topic = some announcement at found
        by_cases sameKind : kind' = kind
        · subst sameKind
          rw [announce_announcements_self, lookup_insert] at found
          split_ifs at found
          · obtain rfl := Option.some.inj found
            exact stringAt parsed named
          · exact valid.announcements found
        · rw [announce_announcements_of_ne _ sameKind] at found
          exact valid.announcements found
  | answered _ _ => exact valid

theorem of_reachable (reachable : (masterSystem json).Reachable system) :
    system.master.TextsValid := by
  refine reachable.invariant (fun state => state.master.TextsValid) (fun state isInitial => ?_)
    fun _ _ _ valid moved => valid.step (step_move moved)
  rw [isInitial.master]
  refine ⟨fun _ => rfl, fun _ => rfl, fun _ => rfl, ?_⟩
  intro kind name announcement found
  cases kind <;> simp at found

end UBusMaster.TextsValid

theorem reply_isSome (json : JsonLibrary) {assignments : List (Bytes × Json)}
    (valid : ∀ assignment ∈ assignments,
      IsUtf8 assignment.1 ∧ ∀ text ∈ assignment.2.strings, IsUtf8 text) :
    ∃ reply, json.reply (Json.ofAssignments assignments) = some reply := by
  have dumped : (json.dump (Json.ofAssignments assignments)).isSome :=
    dumpJson_isSome _ _ (Json.isUtf8_ofAssignments valid)
  obtain ⟨text, textEq⟩ := Option.isSome_iff_exists.mp dumped
  exact ⟨replyFrame .unknown text, by rw [JsonLibrary.reply, textEq]; rfl⟩

theorem reply_response_isSome (json : JsonLibrary) (text : String) (valid : IsUtf8 (ascii text)) :
    ∃ reply, json.reply (response text) = some reply := by
  apply reply_isSome json
  intro assignment member
  obtain rfl := List.mem_singleton.mp member
  refine ⟨show IsUtf8 (ascii "response") by decide, fun contents inValue => ?_⟩
  obtain rfl : contents = ascii text := by simpa [Json.strings] using inValue
  exact valid

section Valid

variable {master : UBusMaster}

theorem UBusMaster.TextsValid.found_isSome (valid : master.TextsValid) (json : JsonLibrary)
    (kind : Kind) (participant : Nat) :
    ∃ reply, json.reply (kind.found (master.participants participant)) = some reply := by
  have texts := And.intro (valid.listeningIp participant) (valid.name participant)
  have okText : IsUtf8 (ascii "OK") := by decide
  cases kind with
  | event =>
      apply reply_isSome json
      simp only [List.forall_mem_cons, Json.strings, Json.ofInt32]
      have keys : IsUtf8 (ascii "response") ∧ IsUtf8 (ascii "publisher_ip") ∧
        IsUtf8 (ascii "publisher_port") ∧ IsUtf8 (ascii "publisher_name") := by decide
      simp [keys, texts, okText]
  | method =>
      apply reply_isSome json
      simp only [List.forall_mem_cons, Json.strings, Json.ofInt32]
      have keys : IsUtf8 (ascii "response") ∧ IsUtf8 (ascii "provider_ip") ∧
        IsUtf8 (ascii "provider_port") ∧ IsUtf8 (ascii "provider_name") := by decide
      simp [keys, texts, okText]

theorem UBusMaster.TextsValid.debugItems (valid : master.TextsValid) {order : List Bytes}
    {debugType : Json} {items : List Json}
    (listed : debugItems master order debugType = some items) :
    ∀ item ∈ items, ∀ text ∈ item.strings, IsUtf8 text := by
  have keys : IsUtf8 (ascii "name") ∧ IsUtf8 (ascii "type") ∧ IsUtf8 (ascii "publisher") ∧
      IsUtf8 (ascii "ip") ∧ IsUtf8 (ascii "port") ∧ IsUtf8 (ascii "listening_ip") ∧
      IsUtf8 (ascii "listening_port") ∧ IsUtf8 (ascii "request_type") ∧
      IsUtf8 (ascii "response_type") ∧ IsUtf8 (ascii "provider") := by decide
  intro item isItem
  unfold UBus.debugItems at listed
  split_ifs at listed
  · obtain rfl := Option.some.inj listed
    obtain ⟨name, -, itemEq⟩ := List.mem_filterMap.mp isItem
    obtain ⟨announcement, found, rfl⟩ := Option.map_eq_some_iff.mp itemEq
    have named : IsUtf8 announcement.name := valid.announcements found
    have published := valid.name announcement.publisher
    apply Json.isUtf8_ofAssignments
    simp only [List.forall_mem_cons, Json.strings, Json.ofUInt32]
    simp [keys, named, published]
  · obtain rfl := Option.some.inj listed
    obtain ⟨name, -, itemEq⟩ := List.mem_filterMap.mp isItem
    obtain ⟨participant, -, rfl⟩ := Option.map_eq_some_iff.mp itemEq
    have texts := And.intro (valid.name participant)
      (And.intro (valid.ip participant) (valid.listeningIp participant))
    apply Json.isUtf8_ofAssignments
    simp only [List.forall_mem_cons, Json.strings, Json.ofUInt32]
    simp [keys, texts]
  · obtain rfl := Option.some.inj listed
    obtain ⟨name, -, itemEq⟩ := List.mem_filterMap.mp isItem
    obtain ⟨announcement, found, rfl⟩ := Option.map_eq_some_iff.mp itemEq
    have named : IsUtf8 announcement.name := valid.announcements found
    have provided := valid.name announcement.publisher
    apply Json.isUtf8_ofAssignments
    simp only [List.forall_mem_cons, Json.strings, Json.ofUInt32]
    simp [keys, named, provided]

theorem UBusMaster.TextsValid.processDebugMessage (valid : master.TextsValid)
    (json : JsonLibrary) (order : List Bytes) (content : Bytes) :
    ∃ text, processDebugMessage json master order content = some text := by
  unfold UBus.processDebugMessage
  split
  · exact ⟨[], rfl⟩
  · split
    · exact ⟨[], rfl⟩
    · rename_i items listed
      refine Option.isSome_iff_exists.mp (dumpJson_isSome _ _ (Json.isUtf8_ofAssignments ?_))
      have keys : IsUtf8 (ascii "response") ∧ IsUtf8 (ascii "OK") ∧
        IsUtf8 (ascii "response_data") := by decide
      have listedTexts : ∀ text ∈ Json.itemStrings items, IsUtf8 text := by
        intro text member
        obtain ⟨item, isItem, inItem⟩ := Json.mem_itemStrings.mp member
        exact valid.debugItems listed item isItem text inItem
      simp only [List.forall_mem_cons, Json.strings]
      simpa [keys] using listedTexts

theorem UBusMaster.TextsValid.frameDebug (valid : master.TextsValid) (json : JsonLibrary)
    (order : List Bytes) (content : Bytes) :
    ∃ text, frameDebug json master order content = .replied master (replyFrame .debug text) := by
  obtain ⟨text, textEq⟩ := valid.processDebugMessage json order content
  exact ⟨text, by simp only [UBus.frameDebug, textEq]⟩

end Valid

end UBus
