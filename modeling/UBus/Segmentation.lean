import UBus.Receiver

/-!
# How a stream is cut

TCP delivers bytes, not messages: a frame may arrive in any number of pieces.
Both poll loops collect the contents of a frame with `readn` but its header
with a single `read`.  Hence they receive a stream of frames exactly if no
piece ends inside a header, and this file proves that for every list of
frames and every way to cut it.
-/

namespace UBus

def Segmented (results : List ReadResult) : Prop :=
  ∀ result ∈ results, ∃ byte bytes, result = .bytes (byte :: bytes)

theorem Segmented.intact {results : List ReadResult} (segmented : Segmented results) :
    Intact results :=
  fun result member => Or.inr (segmented result member)

theorem Segmented.tail {result : ReadResult} {results : List ReadResult}
    (segmented : Segmented (result :: results)) : Segmented results :=
  fun other member => segmented other (List.mem_cons_of_mem _ member)

theorem ReadsOff.segmented {count : Nat} {results rest : List ReadResult}
    (off : ReadsOff count results rest) (segmented : Segmented results) : Segmented rest := by
  intro result member
  rcases off.kinds result member with old | piece
  · exact segmented result old
  · exact piece

/-- A piece of the stream ends strictly inside the header of a frame. -/
def SplitsHeader (wires : List Bytes) (results : List ReadResult) : Prop :=
  ∃ before wire after position, wires = before ++ wire :: after ∧ CutAt results position ∧
    before.flatten.length < position ∧ position < before.flatten.length + headerSize

/-- The master handles exactly these frames, whatever its buffers contained
before. -/
def HandlesAll (frames : List Frame) (results : List ReadResult) : Prop :=
  ∀ memory, ∃ enough, ∀ passes, enough ≤ passes → controlPasses memory passes results = frames

def eventContents (frames : List Frame) : List Bytes :=
  (frames.filter fun frame => frame.messageType = FrameType.event.code).map Frame.data

/-- A runtime passes exactly the contents of these frames to its callback,
whatever its buffers contained before. -/
def DeliversAll (frames : List Frame) (results : List ReadResult) : Prop :=
  ∀ memory, ∃ enough, ∀ passes, enough ≤ passes →
    eventPasses memory passes results = eventContents frames

theorem ReadsOff.of_whole_piece (received : Bytes) (results : List ReadResult) :
    ReadsOff received.length (.bytes received :: results) results where
  kinds := fun _ member => Or.inl (List.mem_cons_of_mem _ member)
  remaining := by rw [arrivedBytes_bytes, List.drop_left]
  cuts := by
    intro position positive
    rw [cutAt_cons, arrivedBytes_bytes, arrivedBytes_nil, List.append_nil]
    constructor
    · exact fun cut => Or.inr ⟨position, cut, rfl⟩
    · rintro (isZero | ⟨later, cut, positionEq⟩)
      · omega
      · obtain rfl : later = position := by omega
        exact cut

theorem read_header {piece : Bytes} (results : List ReadResult)
    (whole : headerSize ≤ piece.length) :
    ∃ rest, read headerSize (.bytes piece :: results) =
        some ⟨headerSize, piece.take headerSize, rest⟩ ∧
      ReadsOff headerSize (.bytes piece :: results) rest := by
  by_cases more : headerSize < piece.length
  · refine ⟨.bytes (piece.drop headerSize) :: results, ?_, .of_piece results more⟩
    simp only [read, if_pos more]
  · have size : piece.length = headerSize := by omega
    refine ⟨results, ?_, size ▸ .of_whole_piece piece results⟩
    rw [List.take_of_length_le size.le]
    simp only [read, size, lt_irrefl, if_false]

theorem read_short_header {piece : Bytes} (results : List ReadResult)
    (short : piece.length < headerSize) :
    read headerSize (.bytes piece :: results) = some ⟨piece.length, piece, results⟩ := by
  simp only [read, if_neg (not_lt.mpr short.le)]

theorem receive_whole_header {frame : Frame} {wire stream piece : Bytes}
    {results : List ReadResult} (isWire : IsWireFrame frame wire)
    (segmented : Segmented (.bytes piece :: results)) (whole : headerSize ≤ piece.length)
    (arrived : arrivedBytes (.bytes piece :: results) = wire ++ stream) :
    ∃ rest, (∀ memory, receiveControlFrame memory (.bytes piece :: results) = .frame frame rest ∧
        receiveEventFrame memory (.bytes piece :: results) = .frame frame rest) ∧
      ReadsOff wire.length (.bytes piece :: results) rest := by
  have short := isWire.1
  obtain ⟨padding, headerArrives, bodyArrives, size⟩ := isWire.arrives stream
  obtain ⟨afterHeader, headerRead, headerOff⟩ := read_header results whole
  have pieceHeader : piece.take headerSize =
      headerBytes frame.messageType padding frame.data.length := by
    rw [← headerArrives, ← arrived, arrivedBytes_bytes, List.take_append_of_le_length whole]
  have bodyArrived : arrivedBytes afterHeader = frame.data ++ stream := by
    rw [headerOff.remaining, arrived, bodyArrives]
  have headerFull : ¬ toSizeT (headerSize : Int) < headerSize := by decide
  have headerNonzero : ¬ toSizeT (headerSize : Int) = 0 := by decide
  rw [pieceHeader] at headerRead
  by_cases empty : frame.data = []
  · refine ⟨afterHeader, fun memory => ?_, ?_⟩
    · have noData : ¬ 0 < frame.data.length := by simp [empty]
      have sameFrame : (⟨frame.messageType, []⟩ : Frame) = frame := by rw [← empty]
      simp only [receiveControlFrame, receiveEventFrame, headerRead, if_neg headerFull,
        if_neg headerNonzero, parseHeader_fillBuffer short, if_neg noData, sameFrame, and_self]
    · have sizeEq : wire.length = headerSize := by rw [size, empty]; rfl
      exact sizeEq ▸ headerOff
  · obtain ⟨rest, bodyRead, bodyOff⟩ :=
      readn_body (headerOff.segmented segmented).intact bodyArrived
    refine ⟨rest, fun memory => ?_, size ▸ headerOff.trans bodyOff⟩
    have hasData : 0 < frame.data.length := List.length_pos_of_ne_nil empty
    have bodyFull : ¬ toSizeT (frame.data.length : Int) < frame.data.length := by
      rw [toSizeT_natCast (by omega)]
      omega
    simp only [receiveControlFrame, receiveEventFrame, headerRead, if_neg headerFull,
      if_neg headerNonzero, parseHeader_fillBuffer short, if_pos hasData, bodyRead,
      if_neg bodyFull, fillBuffer_full, and_self]

/-- What a pass of the master takes off a segmented stream: nothing, a short
header, or the bytes of a frame. -/
theorem receiveControlFrame_segmented {results : List ReadResult} (memory : StackMemory)
    (segmented : Segmented results) :
    receiveControlFrame memory results = .blocked ∨
      (∃ rest, receiveControlFrame memory results = .shortHeader rest ∧ Segmented rest ∧
        (arrivedBytes rest).length ≤ (arrivedBytes results).length) ∨
      ∃ frame rest, receiveControlFrame memory results = .frame frame rest ∧ Segmented rest ∧
        headerSize + frame.data.length + (arrivedBytes rest).length ≤
          (arrivedBytes results).length := by
  cases results with
  | nil => exact Or.inl rfl
  | cons result results =>
      obtain ⟨byte, bytes, rfl⟩ := segmented result (by simp)
      by_cases short : (byte :: bytes).length < headerSize
      · have size : toSizeT ((byte :: bytes).length : Int) = (byte :: bytes).length :=
          toSizeT_natCast (short.trans (by decide))
        refine Or.inr (Or.inl ⟨results, ?_, segmented.tail, ?_⟩)
        · have nonzero : ¬ (byte :: bytes).length = 0 := by simp
          simp only [receiveControlFrame, read_short_header results short, size, if_neg nonzero,
            if_pos short]
        · rw [arrivedBytes_bytes, List.length_append]
          omega
      · obtain ⟨afterHeader, headerRead, headerOff⟩ := read_header results (not_lt.mp short)
        have left := congrArg List.length headerOff.remaining
        have headerFull : ¬ toSizeT (headerSize : Int) < headerSize := by decide
        have headerNonzero : ¬ toSizeT (headerSize : Int) = 0 := by decide
        have leftSegmented := headerOff.segmented segmented
        rw [List.length_drop] at left
        have total : (byte :: bytes).length ≤
            (arrivedBytes (.bytes (byte :: bytes) :: results)).length := by simp
        unfold receiveControlFrame
        simp only [headerRead, if_neg headerFull, if_neg headerNonzero]
        generalize parsed : parseHeader (fillBuffer memory.header headerSize
          ((byte :: bytes).take headerSize)) = header
        have bounded : header.dataLength < 2 ^ 32 := parsed ▸ parseHeader_dataLength_lt _
        split_ifs with hasData
        · by_cases enough : header.dataLength ≤ (arrivedBytes afterHeader).length
          · obtain ⟨rest, bodyRead, bodyOff⟩ :=
              readn_intact header.dataLength leftSegmented.intact enough
            have bodyFull : ¬ toSizeT (header.dataLength : Int) < header.dataLength := by
              rw [toSizeT_natCast (by omega)]
              omega
            have leftLater := congrArg List.length bodyOff.remaining
            rw [List.length_drop] at leftLater
            simp only [bodyRead, if_neg bodyFull]
            refine Or.inr (Or.inr ⟨_, rest, rfl, bodyOff.segmented leftSegmented, ?_⟩)
            simp only [fillBuffer_length]
            omega
          · rw [readn_incomplete leftSegmented.intact (not_le.mp enough)]
            exact Or.inl rfl
        · refine Or.inr (Or.inr ⟨_, afterHeader, rfl, leftSegmented, ?_⟩)
          simp only [List.length_nil]
          omega

theorem wireSize_controlPasses_le {results : List ReadResult} (memory : Nat → StackMemory)
    (passes : Nat) (segmented : Segmented results) :
    wireSize (controlPasses memory passes results) ≤ (arrivedBytes results).length := by
  induction passes generalizing memory results with
  | zero => simp [controlPasses, wireSize]
  | succ passes ih =>
      rcases receiveControlFrame_segmented (memory 0) segmented with
        blocked | ⟨rest, short, leftSegmented, left⟩ | ⟨frame, rest, received, leftSegmented, left⟩
      · simp [controlPasses, blocked, wireSize]
      · have later := ih (fun pass => memory (pass + 1)) leftSegmented
        simp only [controlPasses, short]
        omega
      · have later := ih (fun pass => memory (pass + 1)) leftSegmented
        simp only [controlPasses, received, wireSize, List.map_cons, List.sum_cons] at later ⊢
        omega

/-- The first piece of a stream of frames either ends inside the header or
lets both loops receive the first frame. -/
theorem frame_start {frame : Frame} {wire : Bytes} {wires : List Bytes}
    {results : List ReadResult} (isWire : IsWireFrame frame wire)
    (segmented : Segmented results)
    (arrived : arrivedBytes results = (wire :: wires).flatten) :
    (∃ bytes others, results = .bytes (frame.messageType :: bytes) :: others ∧
        (frame.messageType :: bytes).length < headerSize ∧
        SplitsHeader (wire :: wires) results) ∨
      ∃ rest, (∀ memory, receiveControlFrame memory results = .frame frame rest ∧
          receiveEventFrame memory results = .frame frame rest) ∧
        Segmented rest ∧ arrivedBytes rest = wires.flatten ∧
        (SplitsHeader (wire :: wires) results ↔ SplitsHeader wires rest) := by
  have sized : headerSize ≤ wire.length := by
    obtain ⟨_, _, _, size⟩ := isWire.arrives []
    omega
  cases results with
  | nil =>
      have empty := congrArg List.length arrived
      simp only [arrivedBytes_nil, List.length_nil, List.flatten_cons, List.length_append] at empty
      simp only [headerSize] at sized
      omega
  | cons result others =>
      obtain ⟨byte, bytes, rfl⟩ := segmented result (by simp)
      rw [List.flatten_cons] at arrived
      by_cases short : (byte :: bytes).length < headerSize
      · left
        have firstByte : byte = frame.messageType := by
          obtain ⟨-, padding, rfl⟩ := isWire
          exact (List.cons.inj arrived).1
        subst firstByte
        refine ⟨bytes, others, rfl, short, [], wire, wires, _, rfl,
          cutAt_cons.mpr (Or.inr ⟨0, ⟨[], others, rfl, rfl⟩, rfl⟩), ?_⟩
        simp only [arrivedBytes_bytes, arrivedBytes_nil, List.append_nil, List.flatten_nil,
          List.length_nil]
        exact ⟨by simp, by omega⟩
      · right
        have whole := not_lt.mp short
        obtain ⟨rest, received, off⟩ := receive_whole_header isWire segmented whole arrived
        refine ⟨rest, received, off.segmented segmented, ?_, ?_, ?_⟩
        · rw [off.remaining, arrived, List.drop_left]
        · rintro ⟨before, inside, after, position, split, cut, low, high⟩
          cases before with
          | nil =>
              -- the first piece reaches beyond the first header
              simp only [List.flatten_nil, List.length_nil] at low high
              rw [cutAt_cons, arrivedBytes_bytes, arrivedBytes_nil, List.append_nil] at cut
              rcases cut with isZero | ⟨later, -, positionEq⟩ <;> omega
          | cons first before =>
              obtain ⟨rfl, rfl⟩ := List.cons.inj split
              simp only [List.flatten_cons, List.length_append] at low high
              refine ⟨before, inside, after, position - wire.length, rfl, ?_, by omega, by omega⟩
              rw [off.cuts (by omega)]
              rwa [show wire.length + (position - wire.length) = position by omega]
        · rintro ⟨before, inside, after, position, rfl, cut, low, high⟩
          refine ⟨wire :: before, inside, after, wire.length + position, rfl,
            (off.cuts (by omega)).mp cut, ?_, ?_⟩ <;>
            simp only [List.flatten_cons, List.length_append] <;> omega

theorem handlesAll_nil : HandlesAll [] [] := by
  intro memory
  refine ⟨0, fun passes _ => ?_⟩
  cases passes <;> rfl

theorem deliversAll_nil : DeliversAll [] [] := by
  intro memory
  refine ⟨0, fun passes _ => ?_⟩
  cases passes <;> rfl

section FrameReceived

variable {frame : Frame} {frames : List Frame} {results rest : List ReadResult}

theorem handlesAll_cons_iff
    (received : ∀ memory, receiveControlFrame memory results = .frame frame rest) :
    HandlesAll (frame :: frames) results ↔ HandlesAll frames rest := by
  constructor
  · intro handles memory
    obtain ⟨enough, handled⟩ := handles fun pass => memory (pass - 1)
    refine ⟨enough, fun passes isEnough => ?_⟩
    have next := handled (passes + 1) (by omega)
    simp only [controlPasses, received, Nat.add_sub_cancel, List.cons.injEq, true_and] at next
    exact next
  · intro handles memory
    obtain ⟨enough, handled⟩ := handles fun pass => memory (pass + 1)
    refine ⟨enough + 1, fun passes isEnough => ?_⟩
    obtain ⟨later, rfl⟩ : ∃ later, passes = later + 1 := ⟨passes - 1, by omega⟩
    simp only [controlPasses, received, handled later (by omega)]

theorem eventContents_cons (frame : Frame) (frames : List Frame) :
    eventContents (frame :: frames) =
      if frame.messageType = FrameType.event.code then frame.data :: eventContents frames
      else eventContents frames := by
  unfold eventContents
  by_cases isEvent : frame.messageType = FrameType.event.code <;> simp [isEvent]

theorem deliversAll_cons_iff
    (received : ∀ memory, receiveEventFrame memory results = .frame frame rest) :
    DeliversAll (frame :: frames) results ↔ DeliversAll frames rest := by
  constructor
  · intro delivers memory
    obtain ⟨enough, delivered⟩ := delivers fun pass => memory (pass - 1)
    refine ⟨enough, fun passes isEnough => ?_⟩
    have next := delivered (passes + 1) (by omega)
    simp only [eventPasses, received, Nat.add_sub_cancel, eventContents_cons] at next
    split_ifs at next
    · exact (List.cons.inj next).2
    · exact next
  · intro delivers memory
    obtain ⟨enough, delivered⟩ := delivers fun pass => memory (pass + 1)
    refine ⟨enough + 1, fun passes isEnough => ?_⟩
    obtain ⟨later, rfl⟩ : ∃ later, passes = later + 1 := ⟨passes - 1, by omega⟩
    simp only [eventPasses, received, delivered later (by omega), eventContents_cons]

end FrameReceived

section Streams

variable {frames : List Frame} {wires : List Bytes} {results : List ReadResult}

theorem eq_nil_of_arrived (segmented : Segmented results) (nothing : arrivedBytes results = []) :
    results = [] := by
  cases results with
  | nil => rfl
  | cons result results =>
      obtain ⟨byte, bytes, rfl⟩ := segmented result (by simp)
      simp at nothing

theorem not_splitsHeader_nil (results : List ReadResult) : ¬ SplitsHeader [] results := by
  rintro ⟨before, wire, after, -, split, -⟩
  simp at split

theorem not_handlesAll_of_short {bytes : Bytes} {others : List ReadResult}
    (areWires : List.Forall₂ IsWireFrame frames wires)
    (segmented : Segmented (.bytes bytes :: others)) (short : bytes.length < headerSize)
    (arrived : arrivedBytes (.bytes bytes :: others) = wires.flatten) :
    ¬ HandlesAll frames (.bytes bytes :: others) := by
  intro handles
  obtain ⟨enough, handled⟩ := handles fun _ => ⟨fun _ => 0, fun _ => 0⟩
  have nonempty : bytes ≠ [] := by
    obtain ⟨byte, rest, isBytes⟩ := segmented (.bytes bytes) (by simp)
    simp [ReadResult.bytes.inj isBytes]
  have positive := List.length_pos_of_ne_nil nonempty
  have skipped : receiveControlFrame ⟨fun _ => 0, fun _ => 0⟩ (.bytes bytes :: others) =
      .shortHeader others := by
    have size : toSizeT (bytes.length : Int) = bytes.length :=
      toSizeT_natCast (short.trans (by decide))
    have nonzero : ¬ bytes.length = 0 := by omega
    simp only [receiveControlFrame, read_short_header others short, size, if_neg nonzero,
      if_pos short]
  have allHandled := handled (enough + 1) (by omega)
  simp only [controlPasses, skipped] at allHandled
  have bounded := wireSize_controlPasses_le (fun _ => ⟨fun _ => 0, fun _ => 0⟩) enough
    segmented.tail
  rw [allHandled, wireSize_eq areWires, ← arrived, arrivedBytes_bytes, List.length_append]
    at bounded
  omega

theorem handlesAll_iff (areWires : List.Forall₂ IsWireFrame frames wires)
    (segmented : Segmented results) (arrived : arrivedBytes results = wires.flatten) :
    HandlesAll frames results ↔ ¬ SplitsHeader wires results := by
  induction areWires generalizing results with
  | nil =>
      obtain rfl := eq_nil_of_arrived segmented arrived
      exact iff_of_true handlesAll_nil (not_splitsHeader_nil [])
  | @cons frame wire frames wires isWire othersAreWires ih =>
      rcases frame_start isWire segmented arrived with
        ⟨bytes, others, rfl, short, splits⟩ | ⟨rest, received, restSegmented, left, splitsIff⟩
      · exact iff_of_false
          (not_handlesAll_of_short (.cons isWire othersAreWires) segmented short arrived)
          (not_not.mpr splits)
      · rw [handlesAll_cons_iff fun memory => (received memory).1, splitsIff,
          ih restSegmented left]

theorem deliversAll_of_not_splitsHeader (areWires : List.Forall₂ IsWireFrame frames wires)
    (segmented : Segmented results) (arrived : arrivedBytes results = wires.flatten)
    (keepsHeaders : ¬ SplitsHeader wires results) : DeliversAll frames results := by
  induction areWires generalizing results with
  | nil =>
      obtain rfl := eq_nil_of_arrived segmented arrived
      exact deliversAll_nil
  | @cons frame wire frames wires isWire _ ih =>
      rcases frame_start isWire segmented arrived with
        ⟨_, _, rfl, -, splits⟩ | ⟨rest, received, restSegmented, left, splitsIff⟩
      · exact absurd splits keepsHeaders
      · rw [deliversAll_cons_iff fun memory => (received memory).2]
        exact ih restSegmented left (splitsIff.not.mp keepsHeaders)

/-- A runtime that takes the length of a cut header from stale memory may be
led astray: whatever the first contents should be, it may get another number
of bytes. -/
theorem exists_eventPasses_ne_of_short {bytes : Bytes} {others : List ReadResult}
    (short : (FrameType.event.code :: bytes).length < headerSize) (content : Bytes)
    (later : List Bytes) :
    ∃ memory : Nat → StackMemory, ∀ passes,
      eventPasses memory (passes + 1) (.bytes (FrameType.event.code :: bytes) :: others) ≠
        content :: later := by
  -- the last byte of the length is stale, and off by one
  let memory : StackMemory := ⟨fun _ => UInt8.ofNat (content.length + 1), fun _ => 0⟩
  refine ⟨fun _ => memory, fun passes first => ?_⟩
  have size : toSizeT ((FrameType.event.code :: bytes).length : Int) =
      (FrameType.event.code :: bytes).length :=
    toSizeT_natCast (short.trans (by decide))
  have nonzero : ¬ (FrameType.event.code :: bytes).length = 0 := by simp
  obtain ⟨length, headerEq, wrong⟩ : ∃ length, parseHeader (fillBuffer memory.header headerSize
      (FrameType.event.code :: bytes)) = ⟨FrameType.event.code, length⟩ ∧
        length ≠ content.length := by
    refine ⟨_, rfl, ?_⟩
    have lastByte : (fillBuffer memory.header headerSize
        (FrameType.event.code :: bytes)).getD 7 0 = UInt8.ofNat (content.length + 1) := by
      have beyond : (FrameType.event.code :: bytes).length ≤ 7 := by
        simp only [headerSize] at short
        omega
      simp [fillBuffer, headerSize, List.getElem?_eq_none beyond, memory]
    simp only [lastByte, ntohl, UInt8.toNat_ofNat']
    omega
  simp only [eventPasses, receiveEventFrame, read_short_header others short, size, if_neg nonzero,
    headerEq] at first
  split_ifs at first with hasData
  · cases bodyRead : readn length others with
    | none => simp [bodyRead] at first
    | some body =>
        simp only [bodyRead, if_true, List.cons.injEq] at first
        have sameLength := congrArg List.length first.1
        rw [fillBuffer_length] at sameLength
        exact wrong sameLength
  · simp only [if_true, List.cons.injEq] at first
    have sameLength := congrArg List.length first.1
    rw [List.length_nil] at sameLength
    omega

theorem not_deliversAll_of_short {frame : Frame} {bytes : Bytes} {others : List ReadResult}
    (isEvent : frame.messageType = FrameType.event.code)
    (short : (frame.messageType :: bytes).length < headerSize) :
    ¬ DeliversAll (frame :: frames) (.bytes (frame.messageType :: bytes) :: others) := by
  intro delivers
  rw [isEvent] at short delivers
  obtain ⟨memory, different⟩ :=
    exists_eventPasses_ne_of_short short frame.data (eventContents frames)
  obtain ⟨enough, delivered⟩ := delivers memory
  have first := delivered (enough + 1) (by omega)
  rw [eventContents_cons, if_pos isEvent] at first
  exact different enough first

theorem not_splitsHeader_of_deliversAll (areWires : List.Forall₂ IsWireFrame frames wires)
    (segmented : Segmented results) (arrived : arrivedBytes results = wires.flatten)
    (areEvents : ∀ frame ∈ frames, frame.messageType = FrameType.event.code)
    (delivers : DeliversAll frames results) : ¬ SplitsHeader wires results := by
  induction areWires generalizing results with
  | nil => exact not_splitsHeader_nil results
  | @cons frame wire frames wires isWire _ ih =>
      rcases frame_start isWire segmented arrived with
        ⟨bytes, others, rfl, short, -⟩ | ⟨rest, received, restSegmented, left, splitsIff⟩
      · exact absurd delivers (not_deliversAll_of_short (areEvents frame (by simp)) short)
      · rw [splitsIff]
        exact ih restSegmented left (fun other member => areEvents other (by simp [member]))
          ((deliversAll_cons_iff fun memory => (received memory).2).mp delivers)

/-- The poll loops receive a stream of frames exactly if no piece of it ends
inside a header.  The master needs that for frames of every type, and a runtime
for events. -/
theorem segmentation_independent_iff (areWires : List.Forall₂ IsWireFrame frames wires)
    (segmented : Segmented results) (arrived : arrivedBytes results = wires.flatten) :
    (HandlesAll frames results ∧ DeliversAll frames results ↔ ¬ SplitsHeader wires results) ∧
      (HandlesAll frames results ↔ ¬ SplitsHeader wires results) ∧
      ((∀ frame ∈ frames, frame.messageType = FrameType.event.code) →
        (DeliversAll frames results ↔ ¬ SplitsHeader wires results)) := by
  have handlesIff := handlesAll_iff areWires segmented arrived
  have delivers := deliversAll_of_not_splitsHeader areWires segmented arrived
  refine ⟨⟨fun both => handlesIff.mp both.1, fun keeps => ⟨handlesIff.mpr keeps, delivers keeps⟩⟩,
    handlesIff, fun areEvents => ⟨?_, delivers⟩⟩
  exact not_splitsHeader_of_deliversAll areWires segmented arrived areEvents

end Streams

/-- Two frames that arrive in three pieces, of which one ends inside contents
and none inside a header. -/
theorem segmentation_independent_sample :
    HandlesAll [⟨4, [104, 105]⟩, ⟨5, []⟩]
        [.bytes [4, 0, 0, 0, 0, 0, 0, 2, 104], .bytes [105], .bytes [5, 0, 0, 0, 0, 0, 0, 0]] ∧
      DeliversAll [⟨4, [104, 105]⟩, ⟨5, []⟩]
        [.bytes [4, 0, 0, 0, 0, 0, 0, 2, 104], .bytes [105], .bytes [5, 0, 0, 0, 0, 0, 0, 0]] := by
  have areWires : List.Forall₂ IsWireFrame [⟨4, [104, 105]⟩, ⟨5, []⟩]
      [[4, 0, 0, 0, 0, 0, 0, 2, 104, 105], [5, 0, 0, 0, 0, 0, 0, 0]] :=
    .cons ⟨by decide, (0, 0, 0), rfl⟩ (.cons ⟨by decide, (0, 0, 0), rfl⟩ .nil)
  refine (segmentation_independent_iff areWires ?_ rfl).1.mpr ?_
  · simp [Segmented]
  · rintro ⟨before, wire, after, position, split, cut, low, high⟩
    simp only [cutAt_cons, arrivedBytes_bytes, arrivedBytes_nil, List.append_nil,
      List.length_cons, List.length_nil] at cut
    rcases before with _ | ⟨first, _ | ⟨second, before⟩⟩
    · simp only [List.flatten_nil, List.length_nil, headerSize] at low high
      omega
    · obtain ⟨rfl, -⟩ := List.cons.inj split
      simp only [List.flatten_cons, List.flatten_nil, List.length_append, List.length_cons,
        List.length_nil, headerSize] at low high
      omega
    · simp at split

/-- A keep-alive whose header arrives in two halves is lost. -/
theorem keep_alive_lost :
    List.Forall₂ IsWireFrame [⟨FrameType.keepAlive.code, []⟩] [[5, 0, 0, 0, 0, 0, 0, 0]] ∧
      Segmented [.bytes [5, 0, 0, 0], .bytes [0, 0, 0, 0]] ∧
      arrivedBytes [.bytes [5, 0, 0, 0], .bytes [0, 0, 0, 0]] = [5, 0, 0, 0, 0, 0, 0, 0] ∧
      ¬ HandlesAll [⟨FrameType.keepAlive.code, []⟩] [.bytes [5, 0, 0, 0], .bytes [0, 0, 0, 0]] := by
  refine ⟨.cons ⟨by decide, (0, 0, 0), rfl⟩ .nil, by simp [Segmented], rfl, fun handles => ?_⟩
  obtain ⟨enough, handled⟩ := handles fun _ => ⟨fun _ => 0, fun _ => 0⟩
  have nothing : controlPasses (fun _ => ⟨fun _ => 0, fun _ => 0⟩) (enough + 3)
      [.bytes [5, 0, 0, 0], .bytes [0, 0, 0, 0]] = [] := rfl
  have all := handled (enough + 3) (by omega)
  rw [nothing] at all
  simp at all

end UBus
