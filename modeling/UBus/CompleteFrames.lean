import UBus.Receiver

/-!
# Acting on complete frames

A receiver should only act on a frame that has arrived.  The connection is
arbitrary here: it may fall silent, end or fail after any byte, and the
buffers may contain anything.  For each of the receivers this file determines
the connections on which it never acts on bytes that were not received.
-/

namespace UBus

/-- The bytes that arrive before the stream ends or an error other than an
interruption occurs. -/
def deliveredBytes : List ReadResult → Bytes
  | [] => []
  | .bytes received :: rest => if received = [] then [] else received ++ deliveredBytes rest
  | .error errno :: rest => if errno = .eintr then deliveredBytes rest else []

/-- The result that ends the stream or reports an error, with the results
after it.  A connection without one falls silent. -/
def breakOff : List ReadResult → Option (ReadResult × List ReadResult)
  | [] => none
  | .bytes received :: rest => if received = [] then some (.bytes [], rest) else breakOff rest
  | .error errno :: rest => if errno = .eintr then breakOff rest else some (.error errno, rest)

@[simp]
theorem deliveredBytes_nil : deliveredBytes [] = [] := rfl

theorem deliveredBytes_bytes {received : Bytes} (nonempty : received ≠ [])
    (rest : List ReadResult) :
    deliveredBytes (.bytes received :: rest) = received ++ deliveredBytes rest :=
  if_neg nonempty

theorem breakOff_bytes {received : Bytes} (nonempty : received ≠ []) (rest : List ReadResult) :
    breakOff (.bytes received :: rest) = breakOff rest :=
  if_neg nonempty

/-- `readn` when enough bytes are delivered. -/
theorem readn_enough {count : Nat} {results : List ReadResult}
    (enough : count ≤ (deliveredBytes results).length) :
    ∃ rest, readn count results = some ⟨count, (deliveredBytes results).take count, rest⟩ ∧
      deliveredBytes rest = (deliveredBytes results).drop count ∧
      breakOff rest = breakOff results := by
  induction results generalizing count with
  | nil =>
      obtain rfl : count = 0 := by simpa using enough
      exact ⟨[], rfl, rfl, rfl⟩
  | cons result results ih =>
      cases count with
      | zero => exact ⟨result :: results, by simp [readn], by simp, rfl⟩
      | succ count =>
          cases result with
          | error errno =>
              by_cases interrupted : errno = .eintr
              · subst interrupted
                simpa [readn, deliveredBytes, breakOff] using ih enough
              · simp [deliveredBytes, interrupted] at enough
          | bytes received =>
              by_cases isEnd : received = []
              · simp [deliveredBytes, isEnd] at enough
              rw [deliveredBytes_bytes isEnd, breakOff_bytes isEnd]
              rw [deliveredBytes_bytes isEnd, List.length_append] at enough
              by_cases inside : count + 1 < received.length
              · have left : received.drop (count + 1) ≠ [] := by simpa using inside
                refine ⟨.bytes (received.drop (count + 1)) :: results, ?_, ?_, ?_⟩
                · simp only [readn, if_neg isEnd, if_pos inside]
                  rw [List.take_append_of_le_length (by omega)]
                · rw [deliveredBytes_bytes left, List.drop_append_of_le_length (by omega)]
                · rw [breakOff_bytes left]
              · -- the piece is stored whole and the loop goes on
                obtain ⟨rest, readEq, remaining, ending⟩ :=
                  ih (show count + 1 - received.length ≤ (deliveredBytes results).length by omega)
                refine ⟨rest, ?_, ?_, ending⟩
                · have total : ((count + 1 - received.length : Nat) : Int) + received.length =
                      ((count + 1 : Nat) : Int) := by
                    omega
                  have nonneg : ¬ ((count + 1 - received.length : Nat) : Int) < 0 := by omega
                  simp only [readn, if_neg isEnd, if_neg inside, readEq, Option.map_some,
                    if_neg nonneg, total]
                  rw [List.take_append, List.take_of_length_le (l := received) (by omega)]
                · rw [remaining, List.drop_append,
                    List.drop_of_length_le (l := received) (by omega), List.nil_append]

/-- `readn` when too few bytes are delivered: it returns when the stream ends
or fails, with what there is, and waits otherwise. -/
theorem readn_short {count : Nat} {results : List ReadResult}
    (short : (deliveredBytes results).length < count) :
    readn count results =
      match breakOff results with
      | none => none
      | some (.bytes _, rest) =>
          some ⟨(deliveredBytes results).length, deliveredBytes results, rest⟩
      | some (.error _, rest) => some ⟨-1, deliveredBytes results, rest⟩ := by
  induction results generalizing count with
  | nil =>
      obtain ⟨fewer, rfl⟩ : ∃ fewer, count = fewer + 1 := ⟨count - 1, by simp at short; omega⟩
      rfl
  | cons result results ih =>
      obtain ⟨fewer, rfl⟩ : ∃ fewer, count = fewer + 1 := ⟨count - 1, by omega⟩
      cases result with
      | error errno =>
          by_cases interrupted : errno = .eintr
          · subst interrupted
            simpa [readn, deliveredBytes, breakOff] using ih short
          · simp [readn, deliveredBytes, breakOff, interrupted]
      | bytes received =>
          by_cases isEnd : received = []
          · simp [readn, deliveredBytes, breakOff, isEnd]
          rw [deliveredBytes_bytes isEnd, breakOff_bytes isEnd]
          rw [deliveredBytes_bytes isEnd, List.length_append] at short
          have notInside : ¬ fewer + 1 < received.length := by omega
          have later :=
            ih (show (deliveredBytes results).length < fewer + 1 - received.length by omega)
          simp only [readn, if_neg isEnd, if_neg notInside, later]
          rcases breakOff results with _ | ⟨_ | _, rest⟩
          · rfl
          · have nonneg : ¬ ((deliveredBytes results).length : Int) < 0 := by omega
            simp only [Option.map_some, if_neg nonneg, List.length_append]
            simp [add_comm]
          · rfl

/-- The receiver of `accept_new_connection`, up to the point where the content
of a handshake is parsed. -/
def passOnInitiation (memory : StackMemory) (results : List ReadResult) :
    Option (Frame × List ReadResult) :=
  match readn headerSize results with
  | none => none
  | some headerRead =>
      if toSizeT headerRead.ret < headerSize then none
      else
        let header := parseHeader (fillBuffer memory.header headerSize headerRead.received)
        if header.messageType ≠ FrameType.initiation.code then none
        else
          match readn header.dataLength headerRead.rest with
          | none => none
          | some bodyRead =>
              some (⟨header.messageType,
                fillBuffer memory.content header.dataLength bodyRead.received⟩, bodyRead.rest)

def Received.passedOn (acts : UInt8 → Bool) : Received → Option (Frame × List ReadResult)
  | .frame whole rest => if acts whole.messageType then some (whole, rest) else none
  | _ => none

def actsOnInitiation (messageType : UInt8) : Bool := messageType == FrameType.initiation.code

/-- The cases of the `switch` in `start_listening_socket`. -/
def actsOnRequest (messageType : UInt8) : Bool :=
  messageType == FrameType.eventSubscribe.code || messageType == FrameType.methodCall.code

/-- The case of the `switch` in `process_event_message`. -/
def actsOnEvent (messageType : UInt8) : Bool := messageType == FrameType.event.code

def passOnRequest (memory : StackMemory) (results : List ReadResult) :
    Option (Frame × List ReadResult) :=
  (receiveFrame memory results).passedOn actsOnRequest

def passOnEvent (memory : StackMemory) (results : List ReadResult) :
    Option (Frame × List ReadResult) :=
  (receiveEventFrame memory results).passedOn actsOnEvent

/-- The frame is the one at the start of the delivered bytes, and exactly its
header and contents have been taken off the connection. -/
def Complete (results : List ReadResult) (frame : Frame) (rest : List ReadResult) : Prop :=
  nextFrame (deliveredBytes results) = some (frame, deliveredBytes rest)

/-- On this connection a receiver passes on complete frames only, whatever its
buffers contained before. -/
def PassesComplete (passOn : StackMemory → List ReadResult → Option (Frame × List ReadResult))
    (results : List ReadResult) : Prop :=
  ∀ memory frame rest, passOn memory results = some (frame, rest) → Complete results frame rest

/-- A header of which only some bytes have arrived can be filled up to one
that the receiver acts on, and the body it asks for can be waited for: every
type is possible unless the type byte has arrived, and every length that the
arrived length bytes allow. -/
def StaleHeaderActs (acts : UInt8 → Bool) (arrived : Bytes) (rest : List ReadResult) : Prop :=
  (∀ messageType ∈ arrived.head?, acts messageType) ∧
    ((parseHeader arrived).dataLength ≤ (deliveredBytes rest).length ∨ breakOff rest ≠ none)

/-- After a whole header that the receiver acts on, the body arrives or is
waited for. -/
def BodyArrives (acts : UInt8 → Bool) (results : List ReadResult) : Prop :=
  let header := parseHeader ((deliveredBytes results).take headerSize)
  acts header.messageType →
    headerSize + header.dataLength ≤ (deliveredBytes results).length ∨ breakOff results = none

/-- Where a receiver that reads its header with `readn` is safe. -/
def ReadnSafe (acts : UInt8 → Bool) (results : List ReadResult) : Prop :=
  if headerSize ≤ (deliveredBytes results).length then BodyArrives acts results
  else
    match breakOff results with
    | some (.error _, rest) => ¬ StaleHeaderActs acts (deliveredBytes results) rest
    | _ => True

/-- Where a receiver that reads its header with one `read` is safe. -/
def ReadSafe (acts : UInt8 → Bool) : List ReadResult → Prop
  | [] => True
  | .error _ :: _ => False
  | .bytes received :: rest =>
      if received = [] then True
      else if headerSize ≤ received.length then BodyArrives acts (.bytes received :: rest)
      else ¬ StaleHeaderActs acts received rest

theorem ntohl_mono {a b c d a' b' c' d' : UInt8} (first : a ≤ a') (second : b ≤ b')
    (third : c ≤ c') (fourth : d ≤ d') : ntohl a b c d ≤ ntohl a' b' c' d' := by
  rw [UInt8.le_iff_toNat_le] at first second third fourth
  unfold ntohl
  omega

theorem fillBuffer_getD {stale : Nat → UInt8} {size index : Nat} (inside : index < size)
    (received : Bytes) :
    (fillBuffer stale size received).getD index 0 = received.getD index (stale index) := by
  simp [fillBuffer, inside]

theorem fillBuffer_messageType (stale : Nat → UInt8) (arrived : Bytes) :
    (parseHeader (fillBuffer stale headerSize arrived)).messageType =
      arrived.getD 0 (stale 0) := by
  simp only [parseHeader]
  rw [fillBuffer_getD (by decide)]

theorem fillBuffer_dataLength (stale : Nat → UInt8) (arrived : Bytes) :
    (parseHeader (fillBuffer stale headerSize arrived)).dataLength =
      ntohl (arrived.getD 4 (stale 4)) (arrived.getD 5 (stale 5)) (arrived.getD 6 (stale 6))
        (arrived.getD 7 (stale 7)) := by
  simp only [parseHeader]
  rw [fillBuffer_getD (by decide), fillBuffer_getD (by decide), fillBuffer_getD (by decide),
    fillBuffer_getD (by decide)]

theorem dataLength_le_fillBuffer (stale : Nat → UInt8) (arrived : Bytes) :
    (parseHeader arrived).dataLength ≤
      (parseHeader (fillBuffer stale headerSize arrived)).dataLength := by
  have le (index : Nat) : arrived.getD index 0 ≤ arrived.getD index (stale index) := by
    cases found : arrived[index]? <;> simp [found]
  rw [fillBuffer_dataLength]
  exact ntohl_mono (le 4) (le 5) (le 6) (le 7)

theorem readn_isSome {count : Nat} {results : List ReadResult} :
    (∃ outcome, readn count results = some outcome) ↔
      count ≤ (deliveredBytes results).length ∨ breakOff results ≠ none := by
  by_cases enough : count ≤ (deliveredBytes results).length
  · obtain ⟨rest, readEq, -⟩ := readn_enough enough
    exact ⟨fun _ => Or.inl enough, fun _ => ⟨_, readEq⟩⟩
  · rw [readn_short (by omega)]
    rcases breakOff results with _ | ⟨_ | _, rest⟩ <;> simp [enough]

/-- Whether some stale bytes make a receiver act on a header of which only
some bytes have arrived. -/
theorem staleHeaderActs_iff {acts : UInt8 → Bool} (acted : ∃ messageType, acts messageType)
    (arrived : Bytes) (rest : List ReadResult) :
    StaleHeaderActs acts arrived rest ↔
      ∃ stale outcome,
        acts (parseHeader (fillBuffer stale headerSize arrived)).messageType ∧
          readn (parseHeader (fillBuffer stale headerSize arrived)).dataLength rest =
            some outcome := by
  constructor
  · rintro ⟨typeActs, waits⟩
    obtain ⟨messageType, acts⟩ := acted
    let stale : Nat → UInt8 := fun index => if index = 0 then messageType else 0
    have sameLength : (parseHeader (fillBuffer stale headerSize arrived)).dataLength =
        (parseHeader arrived).dataLength :=
      fillBuffer_dataLength stale arrived
    obtain ⟨outcome, readEq⟩ := readn_isSome.mpr waits
    refine ⟨stale, outcome, ?_, sameLength ▸ readEq⟩
    rw [fillBuffer_messageType]
    cases arrived with
    | nil => exact acts
    | cons first arrived => exact typeActs first rfl
  · rintro ⟨stale, outcome, typeActs, readEq⟩
    constructor
    · intro messageType first
      obtain ⟨later, rfl⟩ := List.head?_eq_some_iff.mp first
      rwa [fillBuffer_messageType] at typeActs
    · have longer := dataLength_le_fillBuffer stale arrived
      rcases readn_isSome.mp ⟨outcome, readEq⟩ with enough | ends
      · exact Or.inl (by omega)
      · exact Or.inr ends

theorem not_complete_of_short {results : List ReadResult}
    (short : (deliveredBytes results).length < headerSize) (frame : Frame)
    (rest : List ReadResult) : ¬ Complete results frame rest := by
  simp [Complete, nextFrame, short]

theorem Complete.length {results rest : List ReadResult} {frame : Frame}
    (complete : Complete results frame rest) :
    (deliveredBytes results).length =
      headerSize + frame.data.length + (deliveredBytes rest).length := by
  simp only [Complete, nextFrame] at complete
  split_ifs at complete with short incomplete
  obtain ⟨rfl, taken⟩ := Prod.mk.inj (Option.some.inj complete)
  rw [← taken]
  simp only [List.length_drop, List.length_take] at incomplete ⊢
  omega

/-- `readn` takes at most the bytes it asks for off the connection. -/
theorem readn_takes {count : Nat} {results : List ReadResult} {outcome : ReadOutcome}
    (finished : readn count results = some outcome) :
    (deliveredBytes results).length ≤ count + (deliveredBytes outcome.rest).length := by
  by_cases enough : count ≤ (deliveredBytes results).length
  · obtain ⟨rest, readEq, remaining, -⟩ := readn_enough enough
    obtain rfl := Option.some.inj (finished.symm.trans readEq)
    simp only [remaining, List.length_drop]
    omega
  · omega

/-- All receivers treat the rest of a frame alike once they have a header. -/
def passOnBody (acts : UInt8 → Bool) (memory : StackMemory) (header : FrameHeader)
    (results : List ReadResult) : Option (Frame × List ReadResult) :=
  if acts header.messageType then
    (readn header.dataLength results).map fun bodyRead =>
      (⟨header.messageType, fillBuffer memory.content header.dataLength bodyRead.received⟩,
        bodyRead.rest)
  else none

theorem passOnInitiation_eq (memory : StackMemory) (results : List ReadResult) :
    passOnInitiation memory results =
      (readn headerSize results).bind fun headerRead =>
        if toSizeT headerRead.ret < headerSize then none
        else passOnBody actsOnInitiation memory
          (parseHeader (fillBuffer memory.header headerSize headerRead.received))
          headerRead.rest := by
  unfold passOnInitiation
  cases readn headerSize results with
  | none => rfl
  | some headerRead =>
      simp only [Option.bind_some, passOnBody, actsOnInitiation, beq_iff_eq]
      generalize parseHeader (fillBuffer memory.header headerSize headerRead.received) = header
      by_cases isInitiation : header.messageType = FrameType.initiation.code
      · simp only [isInitiation, ne_eq, not_true_eq_false, if_false, if_true]
        cases readn header.dataLength headerRead.rest <;> rfl
      · simp only [isInitiation, ne_eq, not_false_eq_true, if_false, if_true]

theorem passedOn_receiveFrame (acts : UInt8 → Bool) (memory : StackMemory)
    (results : List ReadResult) :
    (receiveFrame memory results).passedOn acts =
      (readn headerSize results).bind fun headerRead =>
        if toSizeT headerRead.ret < headerSize then none
        else passOnBody acts memory
          (parseHeader (fillBuffer memory.header headerSize headerRead.received))
          headerRead.rest := by
  unfold receiveFrame
  cases readn headerSize results with
  | none => rfl
  | some headerRead =>
      simp only [Option.bind_some]
      split_ifs
      · rfl
      generalize parseHeader (fillBuffer memory.header headerSize headerRead.received) = header
      unfold passOnBody
      cases readn header.dataLength headerRead.rest with
      | none => exact (ite_self none).symm
      | some bodyRead => rfl

theorem passedOn_receiveEventFrame (acts : UInt8 → Bool) (memory : StackMemory)
    (results : List ReadResult) :
    (receiveEventFrame memory results).passedOn acts =
      (read headerSize results).bind fun headerRead =>
        if toSizeT headerRead.ret = 0 then none
        else passOnBody acts memory
          (parseHeader (fillBuffer memory.header headerSize headerRead.received))
          headerRead.rest := by
  unfold receiveEventFrame
  cases read headerSize results with
  | none => rfl
  | some headerRead =>
      simp only [Option.bind_some]
      by_cases closed : toSizeT headerRead.ret = 0
      · rw [if_pos closed, if_pos closed]
        rfl
      rw [if_neg closed, if_neg closed]
      generalize parseHeader (fillBuffer memory.header headerSize headerRead.received) = header
      unfold passOnBody
      by_cases hasBody : 0 < header.dataLength
      · rw [if_pos hasBody]
        cases readn header.dataLength headerRead.rest with
        | none => exact (ite_self none).symm
        | some bodyRead => rfl
      · -- reading an empty body changes nothing
        obtain noBody : header.dataLength = 0 := by omega
        simp [noBody, readn, fillBuffer, Received.passedOn]

/-- A whole header is followed by a whole body exactly if the connection goes
on for long enough. -/
theorem passesComplete_body {acts : UInt8 → Bool} {results afterHeader : List ReadResult}
    {passOn : StackMemory → List ReadResult → Option (Frame × List ReadResult)}
    (wholeHeader : headerSize ≤ (deliveredBytes results).length)
    (remaining : deliveredBytes afterHeader = (deliveredBytes results).drop headerSize)
    (ending : breakOff afterHeader = breakOff results)
    (passed : ∀ memory, passOn memory results = passOnBody acts memory
      (parseHeader (fillBuffer memory.header headerSize
        ((deliveredBytes results).take headerSize))) afterHeader) :
    PassesComplete passOn results ↔ BodyArrives acts results := by
  have size : ((deliveredBytes results).take headerSize).length = headerSize := by
    simpa using wholeHeader
  have full (stale : Nat → UInt8) :=
    fillBuffer_full stale ((deliveredBytes results).take headerSize)
  have afterLength : (deliveredBytes afterHeader).length =
      (deliveredBytes results).length - headerSize := by
    rw [remaining, List.length_drop]
  simp only [size] at full
  unfold PassesComplete BodyArrives
  simp only [passed, full, passOnBody, Complete, nextFrame, if_neg (Nat.not_lt.mpr wholeHeader),
    ← remaining]
  generalize parseHeader ((deliveredBytes results).take headerSize) = header
  by_cases typeActs : acts header.messageType
  swap
  · simp [typeActs]
  simp only [if_pos, forall_const, typeActs]
  by_cases enough : header.dataLength ≤ (deliveredBytes afterHeader).length
  · -- the body arrives, and the frame is passed on with it
    obtain ⟨rest, bodyEq, left, -⟩ := readn_enough enough
    have bodySize : ((deliveredBytes afterHeader).take header.dataLength).length =
        header.dataLength := by
      simpa using enough
    have fullBody (stale : Nat → UInt8) := fillBuffer_full stale
      ((deliveredBytes afterHeader).take header.dataLength)
    simp only [bodySize] at fullBody
    refine iff_of_true (fun memory frame passedRest found => ?_) (Or.inl (by omega))
    simp only [bodyEq, Option.map_some, fullBody] at found
    obtain ⟨rfl, rfl⟩ := Prod.mk.inj (Option.some.inj found)
    rw [if_neg (Nat.not_lt.mpr enough), left]
  · -- the body ends early, and the buffer is passed on as it is
    simp only [if_pos (Nat.lt_of_not_le enough), reduceCtorEq, imp_false]
    have notArrived : ¬ headerSize + header.dataLength ≤ (deliveredBytes results).length := by
      omega
    rcases ends : breakOff results with _ | resultAndRest
    · rw [readn_short (by omega), ending, ends]
      simp
    obtain ⟨bodyRead, bodyEq⟩ : ∃ bodyRead, readn header.dataLength afterHeader = some bodyRead :=
      readn_isSome.mpr (Or.inr (by simp [ending, ends]))
    refine iff_of_false (fun never => ?_) (by simp [notArrived])
    exact never ⟨fun _ => 0, fun _ => 0⟩ _ _ (by rw [bodyEq]; rfl)

/-- A header of which only some bytes arrived is passed on only if stale bytes
can complete it. -/
theorem passesComplete_cut {acts : UInt8 → Bool} (acted : ∃ messageType, acts messageType)
    {arrived : Bytes} {results rest : List ReadResult}
    {passOn : StackMemory → List ReadResult → Option (Frame × List ReadResult)}
    (passed : ∀ memory, passOn memory results = passOnBody acts memory
      (parseHeader (fillBuffer memory.header headerSize arrived)) rest)
    (cut : ∀ (messageType : UInt8) (data : Bytes) (bodyRead : ReadOutcome),
      readn data.length rest = some bodyRead →
        ¬ Complete results ⟨messageType, data⟩ bodyRead.rest) :
    PassesComplete passOn results ↔ ¬ StaleHeaderActs acts arrived rest := by
  rw [staleHeaderActs_iff acted]
  unfold PassesComplete
  simp only [passed, passOnBody]
  constructor
  · rintro complete ⟨stale, bodyRead, typeActs, bodyEq⟩
    have passedOn := complete ⟨stale, fun _ => 0⟩
    rw [if_pos typeActs, bodyEq] at passedOn
    refine cut _ _ bodyRead ?_ (passedOn _ _ rfl)
    rwa [fillBuffer_length]
  · intro never memory frame passedRest found
    split_ifs at found with typeActs
    obtain ⟨bodyRead, bodyEq, -⟩ := Option.map_eq_some_iff.mp found
    exact absurd ⟨memory.header, bodyRead, typeActs, bodyEq⟩ never

/-- A receiver that reads its header with `readn`. -/
theorem passesComplete_readn {acts : UInt8 → Bool} (acted : ∃ messageType, acts messageType)
    {passOn : StackMemory → List ReadResult → Option (Frame × List ReadResult)}
    (passed : ∀ memory results, passOn memory results =
      (readn headerSize results).bind fun headerRead =>
        if toSizeT headerRead.ret < headerSize then none
        else passOnBody acts memory
          (parseHeader (fillBuffer memory.header headerSize headerRead.received))
          headerRead.rest)
    (results : List ReadResult) : PassesComplete passOn results ↔ ReadnSafe acts results := by
  unfold ReadnSafe
  by_cases wholeHeader : headerSize ≤ (deliveredBytes results).length
  · obtain ⟨afterHeader, headerEq, remaining, ending⟩ := readn_enough wholeHeader
    rw [if_pos wholeHeader]
    refine passesComplete_body wholeHeader remaining ending fun memory => ?_
    rw [passed, headerEq]
    rfl
  rw [if_neg wholeHeader]
  have headerEq := readn_short (Nat.lt_of_not_le wholeHeader)
  rcases ends : breakOff results with _ | ⟨received | errno, rest⟩
  · rw [ends] at headerEq
    simp [PassesComplete, passed, headerEq]
  · -- the end of the stream is noticed
    rw [ends] at headerEq
    have small : toSizeT (deliveredBytes results).length < headerSize := by
      rw [toSizeT_natCast (by unfold headerSize at wholeHeader; omega)]
      omega
    simp [PassesComplete, passed, headerEq, small]
  · -- an error is not: -1 becomes the largest `size_t`
    rw [ends] at headerEq
    refine passesComplete_cut acted (fun memory => ?_) fun _ _ _ _ =>
      not_complete_of_short (Nat.lt_of_not_le wholeHeader) _ _
    rw [passed, headerEq]
    rfl

theorem read_eq_readn {received : Bytes} {rest : List ReadResult}
    (wholeHeader : headerSize ≤ received.length) :
    read headerSize (.bytes received :: rest) = readn headerSize (.bytes received :: rest) := by
  have nonempty : received ≠ [] := by
    rintro rfl
    exact absurd wholeHeader (by decide)
  by_cases more : headerSize < received.length
  · simp only [read, if_pos more]
    simp only [headerSize, readn, if_neg nonempty]
    exact (if_pos more).symm
  · obtain exact : received.length = headerSize := by omega
    simp [read, readn, headerSize, nonempty, exact]

/-- A receiver that reads its header with one `read`. -/
theorem passesComplete_read {acts : UInt8 → Bool} (acted : ∃ messageType, acts messageType)
    {passOn : StackMemory → List ReadResult → Option (Frame × List ReadResult)}
    (passed : ∀ memory results, passOn memory results =
      (read headerSize results).bind fun headerRead =>
        if toSizeT headerRead.ret = 0 then none
        else passOnBody acts memory
          (parseHeader (fillBuffer memory.header headerSize headerRead.received))
          headerRead.rest)
    (results : List ReadResult) : PassesComplete passOn results ↔ ReadSafe acts results := by
  match results with
  | [] => simp [PassesComplete, passed, read, ReadSafe]
  | .error errno :: rest =>
      -- the -1 is taken for a header, and the old contents of the buffer are parsed
      have stale : StaleHeaderActs acts [] rest := ⟨by simp, Or.inl (Nat.zero_le _)⟩
      refine iff_of_false (fun complete => ?_) id
      refine (passesComplete_cut acted (fun memory => ?_) ?_).mp complete stale
      · rw [passed]
        rfl
      · intro messageType data bodyRead bodyEq complete
        have consumed := complete.length
        have taken := readn_takes bodyEq
        have fewer : (deliveredBytes (.error errno :: rest)).length ≤
            (deliveredBytes rest).length := by
          by_cases interrupted : errno = .eintr <;> simp [deliveredBytes, interrupted]
        simp only [headerSize] at consumed
        omega
  | .bytes received :: rest =>
      simp only [ReadSafe]
      by_cases closed : received = []
      · simp [PassesComplete, passed, read, toSizeT, closed]
      rw [if_neg closed]
      have delivered := deliveredBytes_bytes closed rest
      by_cases wholeHeader : headerSize ≤ received.length
      · rw [if_pos wholeHeader]
        have enough : headerSize ≤ (deliveredBytes (.bytes received :: rest)).length := by
          rw [delivered, List.length_append]
          omega
        obtain ⟨afterHeader, headerEq, remaining, ending⟩ := readn_enough enough
        refine passesComplete_body enough remaining ending fun memory => ?_
        rw [passed, read_eq_readn wholeHeader, headerEq]
        rfl
      · rw [if_neg wholeHeader]
        have notWhole : ¬ headerSize < received.length := by omega
        refine passesComplete_cut acted (fun memory => ?_) ?_
        · have notClosed : toSizeT received.length ≠ 0 := by
            have := List.length_pos_of_ne_nil closed
            rw [toSizeT_natCast (by unfold headerSize at wholeHeader; omega)]
            omega
          rw [passed]
          simp [read, notWhole, notClosed]
        · intro messageType data bodyRead bodyEq complete
          have consumed := complete.length
          have taken := readn_takes bodyEq
          rw [delivered, List.length_append] at consumed
          simp only at consumed
          omega

/-- On which connections `accept_new_connection`, `start_listening_socket` and
`process_event_message` act on complete frames only.  The end of the stream is
noticed within a header, but neither an error there nor a short body is. -/
theorem acts_on_complete_frames_iff (results : List ReadResult) :
    (PassesComplete passOnInitiation results ↔ ReadnSafe actsOnInitiation results) ∧
      (PassesComplete passOnRequest results ↔ ReadnSafe actsOnRequest results) ∧
      (PassesComplete passOnEvent results ↔ ReadSafe actsOnEvent results) := by
  refine ⟨?_, ?_, ?_⟩
  · exact passesComplete_readn ⟨FrameType.initiation.code, rfl⟩ passOnInitiation_eq results
  · exact passesComplete_readn ⟨FrameType.methodCall.code, rfl⟩
      (passedOn_receiveFrame actsOnRequest) results
  · exact passesComplete_read ⟨FrameType.event.code, rfl⟩
      (passedOn_receiveEventFrame actsOnEvent) results

/-- A peer that dies after seven of ten bytes of a body, and one that resets
the connection before it sends anything. -/
theorem acts_on_incomplete_frames :
    ¬ PassesComplete passOnInitiation
        [.bytes (headerBytes FrameType.initiation.code (0, 0, 0) 10 ++ List.replicate 7 65),
          .bytes []] ∧
      ¬ PassesComplete passOnRequest [.error (.other 104)] ∧
      ¬ PassesComplete passOnEvent [.error (.other 104)] := by
  refine ⟨fun complete => ?_, fun complete => ?_, fun complete => ?_⟩
  · have passed := complete ⟨fun _ => 0, fun _ => 66⟩
      ⟨FrameType.initiation.code, List.replicate 7 65 ++ List.replicate 3 66⟩ [] (by decide)
    exact absurd passed (by unfold Complete; decide)
  · have passed := complete
      ⟨fun index => if index = 0 then FrameType.methodCall.code else 0, fun _ => 0⟩
      ⟨FrameType.methodCall.code, []⟩ [] (by decide)
    exact absurd passed (by unfold Complete; decide)
  · have passed := complete
      ⟨fun index => if index = 0 then FrameType.event.code else 0, fun _ => 0⟩
      ⟨FrameType.event.code, []⟩ [] (by decide)
    exact absurd passed (by unfold Complete; decide)

end UBus
