import UBus.Receiver

/-!
# Control frames survive the wire

A sender copies the text with `strncpy`, announces its size in the header and
pushes header and text through `writen`; a listener reads both back with
`readn`.  Whatever partial transfers and interruptions the two sides see, and
whatever the padding of the headers contains, the receiver obtains the frames
that were sent and reads exactly their bytes.
-/

namespace UBus

structure OutgoingFrame where
  type : FrameType
  padding : Padding
  text : Bytes

def OutgoingFrame.frame (outgoing : OutgoingFrame) : Frame := ⟨outgoing.type.code, outgoing.text⟩

/-- Header and text of a frame, as two `writen` calls.  A failing call is only
logged. -/
def sendFrame (outgoing : OutgoingFrame) (errno : Errno) (results : List WriteResult) :
    WriteOutcome :=
  let size := outgoing.text.length
  let data := (strncpy outgoing.text size).take (size % 2 ^ 32)
  let header := writen errno (headerBytes outgoing.type.code outgoing.padding size) results
  let body := writen header.errno data header.rest
  { body with
    failed := header.failed || body.failed
    written := header.written ++ body.written }

def sendFrames : List OutgoingFrame → Errno → List WriteResult → WriteOutcome
  | [], errno, results => ⟨false, [], errno, results⟩
  | outgoing :: others, errno, results =>
      let first := sendFrame outgoing errno results
      let later := sendFrames others first.errno first.rest
      { later with
        failed := first.failed || later.failed
        written := first.written ++ later.written }

/-- A frame whose text is NUL-free and fits the header goes out whole. -/
theorem sendFrame_progressing {outgoing : OutgoingFrame} {results : List WriteResult}
    (errno : Errno) (nulFree : 0 ∉ outgoing.text) (short : outgoing.text.length < 2 ^ 32)
    (progressing : Progressing results) :
    IsWireFrame outgoing.frame (sendFrame outgoing errno results).written ∧
      (sendFrame outgoing errno results).failed = false ∧
      Progressing (sendFrame outgoing errno results).rest := by
  have copied : (strncpy outgoing.text outgoing.text.length).take
      (outgoing.text.length % 2 ^ 32) = outgoing.text := by
    rw [strncpy_of_nulFree nulFree le_rfl, List.take_length, Nat.mod_eq_of_lt short,
      List.take_length]
  obtain ⟨headerSent, headerWritten, headerRest⟩ := writen_progressing
    (headerBytes outgoing.type.code outgoing.padding outgoing.text.length) errno progressing
  obtain ⟨bodySent, bodyWritten, bodyRest⟩ := writen_progressing outgoing.text
    (writen errno (headerBytes outgoing.type.code outgoing.padding outgoing.text.length)
      results).errno headerRest
  simp only [sendFrame, copied, headerSent, headerWritten, bodySent, bodyWritten]
  exact ⟨⟨short, outgoing.padding, rfl⟩, rfl, bodyRest⟩

theorem sendFrames_progressing {frames : List OutgoingFrame} {results : List WriteResult}
    (errno : Errno) (nulFree : ∀ outgoing ∈ frames, 0 ∉ outgoing.text)
    (short : ∀ outgoing ∈ frames, outgoing.text.length < 2 ^ 32)
    (progressing : Progressing results) :
    (∃ wires, List.Forall₂ IsWireFrame (frames.map OutgoingFrame.frame) wires ∧
        (sendFrames frames errno results).written = wires.flatten) ∧
      (sendFrames frames errno results).failed = false := by
  induction frames generalizing errno results with
  | nil => exact ⟨⟨[], .nil, rfl⟩, rfl⟩
  | cons outgoing others ih =>
      obtain ⟨isWire, sent, remaining⟩ := sendFrame_progressing errno
        (nulFree outgoing (by simp)) (short outgoing (by simp)) progressing
      obtain ⟨⟨wires, areWires, written⟩, othersSent⟩ :=
        ih (sendFrame outgoing errno results).errno
          (fun other member => nulFree other (by simp [member]))
          (fun other member => short other (by simp [member])) remaining
      refine ⟨⟨(sendFrame outgoing errno results).written :: wires, .cons isWire areWires, ?_⟩, ?_⟩
      · simp [sendFrames, written]
      · simp [sendFrames, sent, othersSent]

theorem receiveFrame_intact {frame : Frame} {wire stream : Bytes} {results : List ReadResult}
    (memory : StackMemory) (isWire : IsWireFrame frame wire) (intact : Intact results)
    (arrived : arrivedBytes results = wire ++ stream) :
    ∃ rest, receiveFrame memory results = .frame frame rest ∧
      ReadsOff wire.length results rest := by
  have short := isWire.1
  obtain ⟨padding, headerArrives, bodyArrives, size⟩ := isWire.arrives stream
  obtain ⟨afterHeader, headerRead, headerOff⟩ :=
    readn_intact headerSize intact
      (by rw [arrived, List.length_append, size]; omega)
  rw [arrived, headerArrives] at headerRead
  have bodyArrived : arrivedBytes afterHeader = frame.data ++ stream := by
    rw [headerOff.remaining, arrived, bodyArrives]
  obtain ⟨rest, bodyRead, bodyOff⟩ := readn_body (headerOff.intact intact) bodyArrived
  refine ⟨rest, ?_, size ▸ headerOff.trans bodyOff⟩
  have headerFull : ¬ toSizeT (headerSize : Int) < headerSize := by decide
  simp only [receiveFrame, headerRead, if_neg headerFull, parseHeader_fillBuffer short,
    bodyRead, fillBuffer_full]

theorem receiveFrames_intact {frames : List Frame} {wires : List Bytes} {stream : Bytes}
    {results : List ReadResult} (memory : Nat → StackMemory)
    (areWires : List.Forall₂ IsWireFrame frames wires) (intact : Intact results)
    (arrived : arrivedBytes results = wires.flatten ++ stream) :
    ∃ rest, receiveFrames memory frames.length results = some (frames, rest) ∧
      ReadsOff wires.flatten.length results rest := by
  induction areWires generalizing memory results with
  | nil =>
      exact ⟨results, rfl, .refl results⟩
  | @cons frame wire frames wires isWire _ ih =>
      rw [List.flatten_cons, List.append_assoc] at arrived
      obtain ⟨middle, firstRead, firstOff⟩ :=
        receiveFrame_intact (memory 0) isWire intact arrived
      obtain ⟨rest, othersRead, othersOff⟩ := ih (fun next => memory (next + 1))
        (firstOff.intact intact)
        (by rw [firstOff.remaining, arrived, List.drop_left])
      refine ⟨rest, ?_, ?_⟩
      · simp [receiveFrames, firstRead, othersRead]
      · rw [List.flatten_cons, List.length_append]
        exact firstOff.trans othersOff

/-- Every list of control frames is received as it was sent, and the receiver
consumes exactly the bytes of the frames. -/
theorem control_frames_round_trip (frames : List OutgoingFrame)
    (nulFree : ∀ outgoing ∈ frames, 0 ∉ outgoing.text)
    (short : ∀ outgoing ∈ frames, outgoing.text.length < 2 ^ 32)
    (errno : Errno) (departures : List WriteResult) (progressing : Progressing departures)
    (memory : Nat → StackMemory) (arrivals : List ReadResult) (intact : Intact arrivals)
    (delivered : arrivedBytes arrivals = (sendFrames frames errno departures).written) :
    (sendFrames frames errno departures).failed = false ∧
      ∃ rest, receiveFrames memory frames.length arrivals =
          some (frames.map OutgoingFrame.frame, rest) ∧
        arrivedBytes rest = [] ∧ ∀ later, receiveFrame later rest = .blocked := by
  obtain ⟨⟨wires, areWires, written⟩, sent⟩ :=
    sendFrames_progressing errno nulFree short progressing
  have arrived : arrivedBytes arrivals = wires.flatten ++ [] := by
    rw [delivered, written, List.append_nil]
  obtain ⟨rest, received, off⟩ := receiveFrames_intact memory areWires intact arrived
  have consumed : arrivedBytes rest = [] := by
    rw [off.remaining, delivered, written, List.drop_length]
  refine ⟨sent, rest, by simpa using received, consumed, fun later => ?_⟩
  have waits : readn headerSize rest = none :=
    readn_incomplete (off.intact intact) (by rw [consumed]; decide)
  simp [receiveFrame, waits]

/-- A reply sent in pieces of three bytes and one more, and received with an
interruption inside the header. -/
theorem control_frames_round_trip_sample :
    ∃ rest, receiveFrames (fun _ => ⟨fun _ => 7, fun _ => 7⟩) 1
        [.bytes [6, 1, 2, 3, 0], .error .eintr, .bytes [0, 0, 2, 123], .bytes [125]] =
      some ([⟨6, [123, 125]⟩], rest) ∧ arrivedBytes rest = [] := by
  obtain ⟨-, rest, received, consumed, -⟩ :=
    control_frames_round_trip [⟨.methodProvide, (1, 2, 3), [123, 125]⟩] (by decide) (by decide)
      .eintr [.wrote 3, .error .eintr, .wrote 1]
      (by
        intro result member
        fin_cases member
        · exact Or.inr ⟨2, rfl⟩
        · exact Or.inl rfl
        · exact Or.inr ⟨0, rfl⟩)
      (fun _ => ⟨fun _ => 7, fun _ => 7⟩)
      [.bytes [6, 1, 2, 3, 0], .error .eintr, .bytes [0, 0, 2, 123], .bytes [125]]
      (by
        intro result member
        fin_cases member
        · exact Or.inr ⟨6, [1, 2, 3, 0], rfl⟩
        · exact Or.inl rfl
        · exact Or.inr ⟨0, [0, 2, 123], rfl⟩
        · exact Or.inr ⟨125, [], rfl⟩)
      (by decide)
  exact ⟨rest, received, consumed⟩

end UBus
