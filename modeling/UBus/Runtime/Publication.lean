import UBus.Runtime.Publisher

/-!
# A call of `publish_event`

The call goes through the subscribers of a topic and writes header and text to
each of them.  A `write` may take a part, take nothing, or fail in any way; a
failure is told from the result of the last `writen` and from `errno`, which
all subscribers share.  This file determines when the subscribers that remain
are those that have received the whole event.
-/

namespace UBus

open FiniteMap

/-- How the transfer of some bytes ends on given results of `write`: whether
all bytes are taken, and `errno` afterwards. -/
def transfer (errno : Errno) : Nat → List WriteResult → Bool × Errno
  | 0, _ => (true, errno)
  | _ + 1, [] => (true, errno)
  | _ + 1, .wrote 0 :: _ => (false, errno)
  | size + 1, .wrote (count + 1) :: results => transfer errno (size - count) results
  | size + 1, .error cause :: results =>
      if cause = .eintr then transfer cause (size + 1) results else (false, cause)

theorem writen_prefix (errno : Errno) (data : Bytes) (results : List WriteResult) :
    (writen errno data results).written <+: data := by
  induction results generalizing errno data with
  | nil => cases data <;> simp [writen]
  | cons result results ih =>
      cases data with
      | nil => simp [writen]
      | cons byte bytes =>
          cases result with
          | wrote count =>
              cases count with
              | zero => simp [writen]
              | succ count =>
                  have later := ih errno ((byte :: bytes).drop (count + 1))
                  have split := List.take_append_drop (count + 1) (byte :: bytes)
                  change (byte :: bytes).take (count + 1) ++ _ <+: byte :: bytes
                  conv_rhs => rw [← split]
                  exact (List.prefix_append_right_inj _).mpr later
          | error cause =>
              simp only [writen]
              split_ifs with interrupted
              · exact ih cause (byte :: bytes)
              · exact List.nil_prefix

theorem writen_transfer (errno : Errno) (data : Bytes) (results : List WriteResult) :
    (writen errno data results).failed = !(transfer errno data.length results).1 ∧
      (writen errno data results).errno = (transfer errno data.length results).2 ∧
      ((writen errno data results).written = data ↔
        (transfer errno data.length results).1 = true) := by
  induction results generalizing errno data with
  | nil => cases data <;> simp [writen, transfer]
  | cons result results ih =>
      cases data with
      | nil => simp [writen, transfer]
      | cons byte bytes =>
          cases result with
          | wrote count =>
              cases count with
              | zero => simp [writen, transfer]
              | succ count =>
                  obtain ⟨failed, errnoEq, whole⟩ := ih errno ((byte :: bytes).drop (count + 1))
                  have size : ((byte :: bytes).drop (count + 1)).length =
                      bytes.length - count := by
                    simp
                  rw [size] at failed errnoEq whole
                  have split := List.take_append_drop (count + 1) (byte :: bytes)
                  refine ⟨failed, errnoEq, ?_⟩
                  change (byte :: bytes).take (count + 1) ++ _ = byte :: bytes ↔ _
                  conv_lhs => rhs; rw [← split]
                  rw [List.append_cancel_left_eq]
                  exact whole
          | error cause =>
              simp only [writen, List.length_cons, transfer]
              split_ifs with interrupted
              · exact ih cause (byte :: bytes)
              · simp

theorem writen_errno (errno errno' : Errno) (data : Bytes) (results : List WriteResult) :
    (writen errno data results).failed = (writen errno' data results).failed ∧
      (writen errno data results).written = (writen errno' data results).written := by
  induction results generalizing data with
  | nil => cases data <;> exact ⟨rfl, rfl⟩
  | cons result results ih =>
      cases data with
      | nil => exact ⟨rfl, rfl⟩
      | cons byte bytes =>
          cases result with
          | wrote count =>
              cases count with
              | zero => exact ⟨rfl, rfl⟩
              | succ count =>
                  have later := ih ((byte :: bytes).drop (count + 1))
                  exact ⟨later.1, congrArg ((byte :: bytes).take (count + 1) ++ ·) later.2⟩
          | error cause => exact ⟨rfl, rfl⟩

theorem writen_length_lt (errno : Errno) (data : Bytes) (results : List WriteResult)
    (cut : (transfer errno data.length results).1 = false) :
    (writen errno data results).written.length < data.length := by
  have isPrefix := writen_prefix errno data results
  refine lt_of_le_of_ne isPrefix.length_le fun same => ?_
  have whole := (writen_transfer errno data results).2.2.mp (isPrefix.eq_of_length same)
  simp [cut] at whole

/-- The results of the calls of `write` for one subscriber: those for the
header and those for the text. -/
structure Writes where
  header : List WriteResult
  body : List WriteResult

/-- `ret`: what `writen` returns for `size` bytes, cut to 32 bits. -/
def WriteOutcome.ret (size : Nat) (outcome : WriteOutcome) : Int32 :=
  if outcome.failed then -1 else Int32.ofNat size

/-- What one round of the loop leaves: the bytes on the subscriber's socket,
`ret` and `errno`. -/
structure Sending where
  written : Bytes
  ret : Int32
  errno : Errno

/-- The test for a subscriber that is to be removed. -/
def Sending.isDead (sending : Sending) : Bool := sending.ret < 0 && sending.errno = .epipe

namespace Publication

variable (publication : Publication)

def send (errno : Errno) (writes : Writes) : Sending :=
  let header := writen errno publication.header writes.header
  if header.ret headerSize < 0 then ⟨header.written, header.ret headerSize, header.errno⟩
  else
    let body := writen header.errno publication.body writes.body
    ⟨header.written ++ body.written, body.ret publication.text.length, body.errno⟩

def rounds (writes : Bytes → Writes) : Errno → List Bytes → List (Bytes × Sending)
  | _, [] => []
  | errno, name :: order =>
      let sending := publication.send errno (writes name)
      (name, sending) :: rounds writes sending.errno order

/-- `dead_subscribers`. -/
def deadSubscribers (rounds : List (Bytes × Sending)) : List Bytes :=
  (rounds.filter fun round => round.2.isDead).map Prod.fst

end Publication

/-- What a call of `publish_event` returns and leaves. -/
structure Published where
  ret : Bool
  pubList : FiniteMap Bytes PubEventInfo
  rounds : List (Bytes × Sending)

/-- `publish_event`, with the order in which the loop visits the subscribers,
the results of `write`, and `errno` before the loop.  The log macros between two
subscribers, whose header is not in the repository, are taken to leave `errno`
alone. -/
def publishEvent (pubList : FiniteMap Bytes PubEventInfo) (type : UInt32)
    (publication : Publication) (order : List Bytes) (writes : Bytes → Writes) (errno : Errno) :
    Published :=
  match pubList.lookup publication.topic with
  | none => ⟨false, pubList, []⟩
  | some pubEventInfo =>
      if type ≠ pubEventInfo.type then ⟨false, pubList, []⟩
      else if pubEventInfo.clientSocketMap.size = 0 then ⟨true, pubList, []⟩
      else
        let rounds := publication.rounds writes errno order
        ⟨true, pubList.modify publication.topic fun pubEventInfo =>
          { pubEventInfo with
            clientSocketMap := (Publication.deadSubscribers rounds).foldl FiniteMap.erase
              pubEventInfo.clientSocketMap }, rounds⟩

namespace Published

variable (published : Published)

def sentTo (name : Bytes) : Bytes :=
  ((published.rounds.lookup name).map Sending.written).getD []

def subscribersOf (topic : Bytes) : FiniteMap Bytes Fd :=
  ((published.pubList.lookup topic).map PubEventInfo.clientSocketMap).getD ∅

end Published

namespace Publication

variable (publication : Publication)

def frameBytes : Bytes := publication.header ++ publication.body

def transfer (errno : Errno) (writes : Writes) : Bool × Errno :=
  match UBus.transfer errno headerSize writes.header with
  | (true, errno) => UBus.transfer errno publication.text.length writes.body
  | (false, errno) => (false, errno)

/-- A transfer that is cut short ends with EPIPE in `errno`, and one that is
complete and whose size is negative as a number of 32 bits does not. -/
def EndsClosed (errno : Errno) (writes : Writes) : Prop :=
  if (publication.transfer errno writes).1 then
    publication.text.length % 2 ^ 32 < 2 ^ 31 ∨ (publication.transfer errno writes).2 ≠ .epipe
  else (publication.transfer errno writes).2 = .epipe

instance (errno : Errno) (writes : Writes) : Decidable (publication.EndsClosed errno writes) := by
  unfold EndsClosed
  infer_instance

theorem body_length : publication.body.length = publication.text.length :=
  strncpy_length ..

theorem ret_neg_iff (size : Nat) (outcome : WriteOutcome) :
    outcome.ret size < 0 ↔ outcome.failed = true ∨ 2 ^ 31 ≤ size % 2 ^ 32 := by
  unfold WriteOutcome.ret
  split_ifs with failed
  · simp [failed]
  · have wraps : ((Int32.ofNat size).toInt < 0) ↔ 2 ^ 31 ≤ size % 2 ^ 32 := by
      rw [Int32.toInt_ofNat']
      simp only [Int.bmod, Int32.size]
      omega
    simpa [failed, Int32.lt_iff_toInt_lt] using wraps

theorem transfer_of_header_cut {errno cause : Errno} {writes : Writes}
    (cut : UBus.transfer errno headerSize writes.header = (false, cause)) :
    publication.transfer errno writes = (false, cause) := by
  simp only [transfer, cut]

theorem transfer_of_header_sent {errno later : Errno} {writes : Writes}
    (sent : UBus.transfer errno headerSize writes.header = (true, later)) :
    publication.transfer errno writes =
      UBus.transfer later publication.text.length writes.body := by
  simp only [transfer, sent]

/-- What a round of the loop leaves, in terms of the results of `write`. -/
theorem send_transfer (errno : Errno) (writes : Writes) :
    (publication.send errno writes).errno = (publication.transfer errno writes).2 ∧
      ((publication.send errno writes).written = publication.frameBytes ↔
        (publication.transfer errno writes).1 = true) ∧
      ((publication.send errno writes).ret < 0 ↔
        (publication.transfer errno writes).1 = false ∨
          2 ^ 31 ≤ publication.text.length % 2 ^ 32) := by
  have header := writen_transfer errno publication.header writes.header
  have size : publication.header.length = headerSize := headerBytes_length ..
  rw [size] at header
  have headerRet := ret_neg_iff headerSize (writen errno publication.header writes.header)
  have small : ¬ 2 ^ 31 ≤ headerSize % 2 ^ 32 := by decide
  simp only [small, or_false] at headerRet
  cases headerEnds : UBus.transfer errno headerSize writes.header with
  | mk whole cause =>
      rw [headerEnds] at header
      obtain ⟨failed, errnoEq, written⟩ := header
      cases whole with
      | false =>
          have isCut : (writen errno publication.header writes.header).failed = true := failed
          rw [publication.transfer_of_header_cut headerEnds]
          simp only [send, if_pos (headerRet.mpr isCut)]
          refine ⟨errnoEq, ?_, by simp [headerRet.mpr isCut]⟩
          have short := writen_length_lt errno publication.header writes.header
            (by rw [size, headerEnds])
          refine iff_of_false (fun same => ?_) (by simp)
          have lengths := congrArg List.length same
          rw [frameBytes, List.length_append] at lengths
          omega
      | true =>
          have isSent : ¬ (writen errno publication.header writes.header).failed = true := by
            simp [failed]
          have body := writen_transfer cause publication.body writes.body
          rw [publication.body_length] at body
          rw [publication.transfer_of_header_sent headerEnds]
          simp only [send, if_neg (headerRet.not.mpr isSent), errnoEq, written.mpr rfl]
          obtain ⟨bodyFailed, bodyErrno, bodyWritten⟩ := body
          refine ⟨bodyErrno, ?_, ?_⟩
          · rw [frameBytes, List.append_cancel_left_eq]
            exact bodyWritten
          · rw [ret_neg_iff, bodyFailed]
            simp

/-- What reaches a subscriber depends on nothing but the results of its own
writes. -/
theorem send_written (errno errno' : Errno) (writes : Writes) :
    (publication.send errno writes).written = (publication.send errno' writes).written := by
  obtain ⟨headerFailed, headerWritten⟩ :=
    writen_errno errno errno' publication.header writes.header
  have headerRet : (writen errno publication.header writes.header).ret headerSize =
      (writen errno' publication.header writes.header).ret headerSize := by
    rw [WriteOutcome.ret, WriteOutcome.ret, headerFailed]
  unfold send
  dsimp only
  rw [headerRet]
  split_ifs with cut
  · exact headerWritten
  · have bodyWritten := (writen_errno
      (writen errno publication.header writes.header).errno
      (writen errno' publication.header writes.header).errno publication.body writes.body).2
    exact congrArg₂ (· ++ ·) headerWritten bodyWritten

theorem endsClosed_iff (errno : Errno) (writes : Writes) :
    publication.EndsClosed errno writes ↔
      ((publication.send errno writes).isDead = true ↔
        (publication.send errno writes).written ≠ publication.frameBytes) := by
  obtain ⟨errnoEq, written, ret⟩ := publication.send_transfer errno writes
  simp only [EndsClosed, Sending.isDead, Bool.and_eq_true, decide_eq_true_eq, errnoEq, ret,
    written.not]
  cases (publication.transfer errno writes).1 with
  | false => simp
  | true =>
      rw [← not_lt]
      generalize (publication.text.length % 2 ^ 32 < 2 ^ 31) = small
      by_cases fits : small <;> simp [fits]

/-- Every transfer of a call ends as it should, one after the other, each with
the `errno` that the one before has left. -/
def AllEndClosed (writes : Bytes → Writes) : Errno → List Bytes → Prop
  | _, [] => True
  | errno, name :: order =>
      publication.EndsClosed errno (writes name) ∧
        AllEndClosed writes (publication.transfer errno (writes name)).2 order

instance decidableAllEndClosed (writes : Bytes → Writes) :
    (errno : Errno) → (order : List Bytes) → Decidable (publication.AllEndClosed writes errno order)
  | _, [] => inferInstanceAs (Decidable True)
  | errno, name :: order =>
      have := decidableAllEndClosed writes (publication.transfer errno (writes name)).2 order
      inferInstanceAs (Decidable (_ ∧ _))

variable (writes : Bytes → Writes) (errno : Errno) (order : List Bytes)

theorem rounds_names :
    (publication.rounds writes errno order).map Prod.fst = order := by
  induction order generalizing errno with
  | nil => rfl
  | cons name order ih => exact congrArg (name :: ·) (ih _)

variable {publication writes errno order}

theorem rounds_send {round : Bytes × Sending}
    (isRound : round ∈ publication.rounds writes errno order) :
    ∃ before, round.2 = publication.send before (writes round.1) := by
  induction order generalizing errno with
  | nil => simp [rounds] at isRound
  | cons name order ih =>
      rcases List.mem_cons.mp isRound with rfl | later
      · exact ⟨errno, rfl⟩
      · exact ih later

theorem allEndClosed_iff :
    publication.AllEndClosed writes errno order ↔
      ∀ round ∈ publication.rounds writes errno order,
        (round.2.isDead = true ↔ round.2.written ≠ publication.frameBytes) := by
  induction order generalizing errno with
  | nil => simp [AllEndClosed, rounds]
  | cons name order ih =>
      rw [AllEndClosed, rounds, List.forall_mem_cons, ← endsClosed_iff,
        ← (publication.send_transfer errno (writes name)).1, ih]

theorem lookup_of_mem {entries : List (Bytes × Sending)} {name : Bytes} {sending : Sending}
    (once : (entries.map Prod.fst).Nodup) (member : (name, sending) ∈ entries) :
    entries.lookup name = some sending := by
  induction entries with
  | nil => simp at member
  | cons entry entries ih =>
      obtain ⟨notLater, onceLater⟩ := List.nodup_cons.mp once
      rcases List.mem_cons.mp member with rfl | later
      · simp
      · have different : name ≠ entry.1 := by
          rintro rfl
          exact notLater (List.mem_map.mpr ⟨_, later, rfl⟩)
        rw [List.lookup_cons, beq_false_of_ne different]
        exact ih onceLater later

variable (publication writes errno) in
theorem exists_round (once : order.Nodup) {name : Bytes} (visited : name ∈ order) :
    ∃ sending, (publication.rounds writes errno order).lookup name = some sending ∧
      (name, sending) ∈ publication.rounds writes errno order ∧
      (name ∈ deadSubscribers (publication.rounds writes errno order) ↔ sending.isDead = true) := by
  have names := publication.rounds_names writes errno order
  rw [← names] at once visited
  obtain ⟨⟨_, sending⟩, isRound, rfl⟩ := List.mem_map.mp visited
  have found := lookup_of_mem once isRound
  refine ⟨sending, found, isRound, fun isDead => ?_, fun dead => ?_⟩
  · obtain ⟨⟨_, other⟩, kept, rfl⟩ := List.mem_map.mp isDead
    obtain ⟨isOther, dead⟩ := List.mem_filter.mp kept
    obtain rfl := Option.some.inj (found.symm.trans (lookup_of_mem once isOther))
    exact dead
  · exact List.mem_map.mpr ⟨_, List.mem_filter.mpr ⟨isRound, dead⟩, rfl⟩

end Publication

section Call

variable {pubList : FiniteMap Bytes PubEventInfo} {publication : Publication}
  {pubEventInfo : PubEventInfo} {order : List Bytes}

/-- What a call does about one subscriber is decided in the round in which it
is visited. -/
theorem publishEvent_subscriber (listed : pubList.lookup publication.topic = some pubEventInfo)
    (enumerates : Enumerates order pubEventInfo.clientSocketMap) (writes : Bytes → Writes)
    (errno : Errno) {name : Bytes} (member : name ∈ pubEventInfo.clientSocketMap) :
    ∃ before sending, (name, sending) ∈ publication.rounds writes errno order ∧
      sending = publication.send before (writes name) ∧
      (publishEvent pubList pubEventInfo.type publication order writes errno).sentTo name =
        sending.written ∧
      (name ∈ (publishEvent pubList pubEventInfo.type publication order writes errno).subscribersOf
        publication.topic ↔ ¬ sending.isDead = true) := by
  have nonempty : ¬ pubEventInfo.clientSocketMap.size = 0 := by
    intro empty
    have := Finmap.mem_keys.mpr member
    rw [Finset.card_eq_zero.mp empty] at this
    simp at this
  have visited : name ∈ order := by
    rw [← List.mem_toFinset, enumerates.2]
    exact Finmap.mem_keys.mpr member
  obtain ⟨sending, found, isRound, deadIff⟩ :=
    publication.exists_round writes errno enumerates.1 visited
  obtain ⟨before, sendingEq⟩ := Publication.rounds_send isRound
  refine ⟨before, sending, isRound, sendingEq, ?_, ?_⟩
  · simp only [publishEvent, listed, ne_eq, not_true_eq_false, if_false, if_neg nonempty,
      Published.sentTo, found, Option.map_some, Option.getD_some]
  · simp only [publishEvent, listed, ne_eq, not_true_eq_false, if_false, if_neg nonempty,
      Published.subscribersOf, lookup_modify, Option.map_some, if_true, Option.getD_some]
    rw [mem_iff, lookup_erases, ← deadIff]
    obtain ⟨fd, recorded⟩ := mem_iff.mp member
    split_ifs with dead <;> simp [dead, recorded]

/-- The subscribers that remain are those that have received the frame, exactly
if all transfers end as they should. -/
theorem publishEvent_keeps_iff (listed : pubList.lookup publication.topic = some pubEventInfo)
    (enumerates : Enumerates order pubEventInfo.clientSocketMap) (writes : Bytes → Writes)
    (errno : Errno) :
    (∀ name ∈ pubEventInfo.clientSocketMap,
      (name ∈ (publishEvent pubList pubEventInfo.type publication order writes
          errno).subscribersOf publication.topic ↔
        (publishEvent pubList pubEventInfo.type publication order writes errno).sentTo name =
          publication.frameBytes)) ↔
      publication.AllEndClosed writes errno order := by
  rw [Publication.allEndClosed_iff]
  constructor
  · rintro keeps ⟨name, sending⟩ isRound
    have visited : name ∈ order := by
      rw [← publication.rounds_names writes errno order]
      exact List.mem_map.mpr ⟨_, isRound, rfl⟩
    have member : name ∈ pubEventInfo.clientSocketMap := by
      rw [← Finmap.mem_keys, ← enumerates.2]
      exact List.mem_toFinset.mpr visited
    obtain ⟨before, other, isOther, -, sent, kept⟩ :=
      publishEvent_subscriber listed enumerates writes errno member
    have once : ((publication.rounds writes errno order).map Prod.fst).Nodup := by
      rw [Publication.rounds_names]
      exact enumerates.1
    obtain rfl : other = sending := Option.some.inj
      ((Publication.lookup_of_mem once isOther).symm.trans
        (Publication.lookup_of_mem once isRound))
    have both := keeps name member
    rw [kept, sent] at both
    exact not_iff_comm.mp both |>.symm
  · intro ends name member
    obtain ⟨before, sending, isRound, -, sent, kept⟩ :=
      publishEvent_subscriber listed enumerates writes errno member
    rw [kept, sent, ends _ isRound, not_ne_iff]

theorem publishEvent_other {type : UInt32} (order : List Bytes) (writes : Bytes → Writes)
    (errno : Errno) (other : ∀ pubEventInfo, pubList.lookup publication.topic = some pubEventInfo →
      type ≠ pubEventInfo.type) :
    (publishEvent pubList type publication order writes errno).pubList = pubList ∧
      ∀ name, (publishEvent pubList type publication order writes errno).sentTo name = [] := by
  unfold publishEvent
  cases found : pubList.lookup publication.topic with
  | none => exact ⟨rfl, fun _ => rfl⟩
  | some pubEventInfo =>
      simp only [if_pos (other pubEventInfo found)]
      exact ⟨trivial, fun _ => rfl⟩

theorem lookup_publishEvent {type : UInt32} {writes : Bytes → Writes} {errno : Errno}
    {topic : Bytes} {later : PubEventInfo}
    (found : (publishEvent pubList type publication order writes errno).pubList.lookup topic =
      some later) :
    ∃ pubEventInfo, pubList.lookup topic = some pubEventInfo ∧
      ∀ name ∈ later.clientSocketMap, name ∈ pubEventInfo.clientSocketMap := by
  unfold publishEvent at found
  cases listed : pubList.lookup publication.topic with
  | none => exact ⟨later, by simpa [listed] using found, fun _ => id⟩
  | some pubEventInfo =>
      simp only [listed] at found
      split_ifs at found
      · exact ⟨later, found, fun _ => id⟩
      · exact ⟨later, found, fun _ => id⟩
      · rw [lookup_modify] at found
        obtain ⟨before, listedBefore, rfl⟩ := Option.map_eq_some_iff.mp found
        refine ⟨before, listedBefore, fun name member => ?_⟩
        split_ifs at member
        · obtain ⟨fd, recorded⟩ := mem_iff.mp member
          exact mem_of_lookup (lookup_of_lookup_erases recorded)
        · exact member

end Call

/-- A call of `publish_event` with everything it depends on. -/
structure PublishCall where
  type : UInt32
  publication : Publication
  order : List Bytes
  writes : Bytes → Writes
  errno : Errno

/-- The topics of a runtime and, for each topic, what its subscribers have been
sent. -/
structure Audience where
  pubList : FiniteMap Bytes PubEventInfo
  stream : Bytes → Bytes → Bytes

namespace Audience

/-- A call that returns, and whose loop has visited every subscriber. -/
def step (audience : Audience) (call : PublishCall) : Option Audience :=
  let published := publishEvent audience.pubList call.type call.publication call.order call.writes
    call.errno
  if ∀ pubEventInfo ∈ audience.pubList.lookup call.publication.topic,
      Enumerates call.order pubEventInfo.clientSocketMap then
    some {
      pubList := published.pubList
      stream := fun topic name =>
        if topic = call.publication.topic then audience.stream topic name ++ published.sentTo name
        else audience.stream topic name }
  else none

/-- The event fits a frame, and every transfer ends as it should. -/
def SendsWhole (_ : Audience) (call : PublishCall) : Prop :=
  call.publication.text.length < 2 ^ 32 ∧
    call.publication.AllEndClosed call.writes call.errno call.order

instance (audience : Audience) (call : PublishCall) : Decidable (audience.SendsWhole call) :=
  inferInstanceAs (Decidable (_ ∧ _))

def Whole (audience : Audience) : Prop :=
  ∀ topic pubEventInfo, audience.pubList.lookup topic = some pubEventInfo →
    ∀ name ∈ pubEventInfo.clientSocketMap, ∃ frames wires,
      List.Forall₂ IsWireFrame frames wires ∧ audience.stream topic name = wires.flatten

end Audience

def audienceSystem : EventSystem Audience PublishCall where
  Initial audience := audience.stream = fun _ _ => []
  step := Audience.step

namespace Audience

theorem Whole.step {audience next : Audience} {call : PublishCall} (whole : audience.Whole)
    (sends : audience.SendsWhole call) (moved : audience.step call = some next) : next.Whole := by
  obtain ⟨enumerates, moved⟩ := Option.ite_none_right_eq_some.mp moved
  obtain rfl := Option.some.inj moved
  obtain ⟨short, ends⟩ := sends
  intro topic later found name member
  obtain ⟨pubEventInfo, listed, older⟩ := lookup_publishEvent found
  obtain ⟨frames, wires, areWires, streamEq⟩ :=
    whole topic pubEventInfo listed name (older name member)
  by_cases isTopic : topic = call.publication.topic
  swap
  · exact ⟨frames, wires, areWires, by simpa [isTopic] using streamEq⟩
  subst isTopic
  by_cases typed : call.type = pubEventInfo.type
  · have kept := (publishEvent_keeps_iff listed (enumerates pubEventInfo listed) call.writes
      call.errno).mpr ends name (older name member)
    rw [← typed] at kept
    have remains : name ∈ (publishEvent audience.pubList call.type call.publication call.order
        call.writes call.errno).subscribersOf call.publication.topic := by
      simpa [Published.subscribersOf, found] using member
    refine ⟨frames ++ [eventFrame call.publication.body],
      wires ++ [call.publication.frameBytes],
      List.rel_append areWires (.cons (Publication.isWireFrame _ short) .nil), ?_⟩
    simp [streamEq, kept.mp remains]
  · have nothing := (publishEvent_other call.order call.writes call.errno
      fun other isOther => by
        obtain rfl := Option.some.inj (listed.symm.trans isOther)
        exact typed).2 name
    exact ⟨frames, wires, areWires, by simp [streamEq, nothing]⟩

end Audience

/-- The subscribers that remain after a call are those that have received its
frame, exactly if every transfer that is cut short ends with EPIPE and none that
is complete looks like one.  What a subscriber receives depends on its own
connection only, and in every run of such calls it is a list of whole frames. -/
theorem subscribers_kept_iff {pubList : FiniteMap Bytes PubEventInfo} {publication : Publication}
    {pubEventInfo : PubEventInfo} {order : List Bytes}
    (listed : pubList.lookup publication.topic = some pubEventInfo)
    (enumerates : Enumerates order pubEventInfo.clientSocketMap) (writes : Bytes → Writes)
    (errno : Errno) :
    ((∀ name ∈ pubEventInfo.clientSocketMap,
      (name ∈ (publishEvent pubList pubEventInfo.type publication order writes
          errno).subscribersOf publication.topic ↔
        (publishEvent pubList pubEventInfo.type publication order writes errno).sentTo name =
          publication.frameBytes)) ↔
      publication.AllEndClosed writes errno order) ∧
    (∀ name ∈ pubEventInfo.clientSocketMap, ∀ order' writes' errno',
      Enumerates order' pubEventInfo.clientSocketMap → writes' name = writes name →
        (publishEvent pubList pubEventInfo.type publication order' writes' errno').sentTo name =
            (publishEvent pubList pubEventInfo.type publication order writes errno).sentTo name ∧
          (publication.AllEndClosed writes errno order →
            publication.AllEndClosed writes' errno' order' →
              (name ∈ (publishEvent pubList pubEventInfo.type publication order' writes'
                  errno').subscribersOf publication.topic ↔
                name ∈ (publishEvent pubList pubEventInfo.type publication order writes
                  errno).subscribersOf publication.topic))) ∧
    ∀ audience, (audienceSystem.restrict Audience.SendsWhole).Reachable audience →
      audience.Whole := by
  refine ⟨publishEvent_keeps_iff listed enumerates writes errno, ?_, ?_⟩
  · intro name member order' writes' errno' enumerates' sameWrites
    obtain ⟨before, sending, -, sendingEq, sent, -⟩ :=
      publishEvent_subscriber listed enumerates writes errno member
    obtain ⟨before', sending', -, sendingEq', sent', -⟩ :=
      publishEvent_subscriber listed enumerates' writes' errno' member
    have sameSent : (publishEvent pubList pubEventInfo.type publication order' writes'
        errno').sentTo name =
          (publishEvent pubList pubEventInfo.type publication order writes errno).sentTo name := by
      rw [sent', sent, sendingEq', sendingEq, sameWrites, publication.send_written before' before]
    refine ⟨sameSent, fun ends ends' => ?_⟩
    have kept := (publishEvent_keeps_iff listed enumerates writes errno).mpr ends name member
    have kept' := (publishEvent_keeps_iff listed enumerates' writes' errno').mpr ends' name member
    rw [kept, kept', sameSent]
  · intro audience reachable
    refine reachable.invariant Audience.Whole ?_ ?_
    · intro start isInitial topic pubEventInfo' _ name _
      have nothing : start.stream = fun _ _ => [] := isInitial
      exact ⟨[], [], .nil, by simp [nothing]⟩
    · intro before call next whole moved
      obtain ⟨sends, moved⟩ := EventSystem.step_restrict.mp moved
      exact whole.step sends moved

def lonelyTopic : FiniteMap Bytes PubEventInfo :=
  FiniteMap.insert ∅ (ascii "t")
    { type := 11, clientSocketMap := FiniteMap.insert ∅ (ascii "a") 7 }

def shortEvent : Publication := ⟨ascii "t", ascii "x", (0, 0, 0)⟩

/-- A subscriber whose connection is closed after the header is removed. -/
theorem subscribers_kept_sample :
    ascii "a" ∉ (publishEvent lonelyTopic 11 shortEvent [ascii "a"]
      (fun _ => ⟨[.wrote 8], [.error .epipe]⟩) .eintr).subscribersOf (ascii "t") := by
  have listed : lonelyTopic.lookup shortEvent.topic =
      some { type := 11, clientSocketMap := FiniteMap.insert ∅ (ascii "a") 7 } := by
    rw [lonelyTopic, lookup_insert]
    exact if_pos rfl
  have enumerates : Enumerates [ascii "a"]
      (FiniteMap.insert (∅ : FiniteMap Bytes Fd) (ascii "a") 7) := by
    decide +kernel
  have keeps := (subscribers_kept_iff listed enumerates
    (fun _ => ⟨[.wrote 8], [.error .epipe]⟩) .eintr).1.mpr (by decide +kernel)
  intro remains
  have whole := (keeps (ascii "a") (by decide +kernel)).mp remains
  exact absurd whole (by decide +kernel)

/-- A connection that is reset after the header: the subscriber remains, and
takes the header of the next event for a part of this one. -/
theorem subscriber_cut : ¬ ∀ name ∈ FiniteMap.insert (∅ : FiniteMap Bytes Fd) (ascii "a") 7,
    (name ∈ (publishEvent lonelyTopic 11 shortEvent [ascii "a"]
        (fun _ => ⟨[.wrote 8], [.error (.other 104)]⟩) .eintr).subscribersOf (ascii "t") ↔
      (publishEvent lonelyTopic 11 shortEvent [ascii "a"]
        (fun _ => ⟨[.wrote 8], [.error (.other 104)]⟩) .eintr).sentTo name =
          shortEvent.frameBytes) := by
  intro keeps
  have both := keeps (ascii "a") (by decide +kernel)
  exact absurd both (by decide +kernel)

end UBus
