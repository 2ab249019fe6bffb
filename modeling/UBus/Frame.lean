import UBus.Library.SelfDelimiting
import UBus.Text

/-!
# Frames

Everything on a connection is a frame: an eight-byte header followed by the
number of content bytes the header announces.  The header is the memory image
of a C++ struct: a type byte, three padding bytes that nobody writes, and the
length in network byte order.
-/

namespace UBus

/-- The frame types of `frame.hpp`. -/
inductive FrameType where
  | unknown
  | initiation
  | eventSubscribe
  | eventRegister
  | event
  | keepAlive
  | methodProvide
  | methodQuery
  | methodCall
  | methodResponse
  | debug
  deriving DecidableEq

/-- The byte an enumerator is stored as. -/
def FrameType.code : FrameType → UInt8
  | .unknown => 0
  | .initiation => 1
  | .eventSubscribe => 2
  | .eventRegister => 3
  | .event => 4
  | .keepAlive => 5
  | .methodProvide => 6
  | .methodQuery => 7
  | .methodCall => 8
  | .methodResponse => 9
  | .debug => 10

/-- The enumerator of a type byte.  A `switch` over any other byte takes its
`default` branch. -/
def FrameType.ofCode : UInt8 → Option FrameType
  | 0 => some .unknown
  | 1 => some .initiation
  | 2 => some .eventSubscribe
  | 3 => some .eventRegister
  | 4 => some .event
  | 5 => some .keepAlive
  | 6 => some .methodProvide
  | 7 => some .methodQuery
  | 8 => some .methodCall
  | 9 => some .methodResponse
  | 10 => some .debug
  | _ => none

@[simp]
theorem FrameType.ofCode_code (type : FrameType) : FrameType.ofCode type.code = some type := by
  cases type <;> rfl

theorem FrameType.eq_code_of_ofCode {byte : UInt8} {type : FrameType}
    (found : FrameType.ofCode byte = some type) : byte = type.code := by
  unfold FrameType.ofCode at found
  split at found <;> cases found <;> rfl

structure Frame where
  messageType : UInt8
  data : Bytes
  deriving DecidableEq

/-- A reply as it is written: the header announces the low 32 bits of the
size, and the body write takes that many bytes of the copied text. -/
def replyFrame (messageType : FrameType) (text : Bytes) : Frame :=
  ⟨messageType.code, (strncpy text text.length).take (text.length % 2 ^ 32)⟩

/-- `FrameHeader` after the receiver has converted the length with `ntohl`. -/
structure FrameHeader where
  messageType : UInt8
  dataLength : Nat

/-- `sizeof(FrameHeader)`. -/
def headerSize : Nat := 8

def htonl (value : UInt32) : Bytes :=
  [(value >>> 24).toUInt8, (value >>> 16).toUInt8, (value >>> 8).toUInt8, value.toUInt8]

def ntohl (first second third fourth : UInt8) : Nat :=
  ((first.toNat * 256 + second.toNat) * 256 + third.toNat) * 256 + fourth.toNat

/-- The three bytes between the type and the length, which no code writes. -/
abbrev Padding := UInt8 × UInt8 × UInt8

/-- The memory image of a header whose `data_length` is
`htonl(static_cast<uint32_t>(size))`. -/
def headerBytes (messageType : UInt8) (padding : Padding) (size : Nat) : Bytes :=
  messageType :: padding.1 :: padding.2.1 :: padding.2.2 :: htonl (UInt32.ofNat size)

/-- Reading a header buffer as a `FrameHeader`, with the length converted. -/
def parseHeader (buffer : Bytes) : FrameHeader where
  messageType := buffer.getD 0 0
  dataLength := ntohl (buffer.getD 4 0) (buffer.getD 5 0) (buffer.getD 6 0) (buffer.getD 7 0)

@[simp]
theorem headerBytes_length (messageType : UInt8) (padding : Padding) (size : Nat) :
    (headerBytes messageType padding size).length = headerSize := rfl

theorem ntohl_lt (first second third fourth : UInt8) :
    ntohl first second third fourth < 2 ^ 32 := by
  have := first.toNat_lt
  have := second.toNat_lt
  have := third.toNat_lt
  have := fourth.toNat_lt
  unfold ntohl
  omega

theorem ntohl_htonl (size : Nat) :
    ntohl (UInt32.ofNat size >>> 24).toUInt8 (UInt32.ofNat size >>> 16).toUInt8
      (UInt32.ofNat size >>> 8).toUInt8 (UInt32.ofNat size).toUInt8 = size % 2 ^ 32 := by
  have shift (amount : UInt32) (bits : Nat) (isBits : amount.toNat = bits)
      (bounded : bits < 32) :
      (UInt32.ofNat size >>> amount).toUInt8.toNat = size % 2 ^ 32 / 2 ^ bits % 256 := by
    subst isBits
    rw [UInt32.toNat_toUInt8, UInt32.toNat_shiftRight, UInt32.toNat_ofNat',
      Nat.mod_eq_of_lt bounded, Nat.shiftRight_eq_div_pow]
  unfold ntohl
  rw [shift 24 24 rfl (by decide), shift 16 16 rfl (by decide), shift 8 8 rfl (by decide),
    UInt32.toNat_toUInt8, UInt32.toNat_ofNat']
  have bounded : size % 2 ^ 32 < 2 ^ 32 := Nat.mod_lt _ (by norm_num)
  generalize size % 2 ^ 32 = value at bounded
  norm_num
  omega

@[simp]
theorem parseHeader_headerBytes (messageType : UInt8) (padding : Padding) (size : Nat) :
    parseHeader (headerBytes messageType padding size) = ⟨messageType, size % 2 ^ 32⟩ := by
  simp only [parseHeader, headerBytes, htonl, List.getD_cons_zero, List.getD_cons_succ,
    ntohl_htonl]

theorem parseHeader_dataLength_lt (buffer : Bytes) :
    (parseHeader buffer).dataLength < 2 ^ 32 := ntohl_lt _ _ _ _

def IsWireFrame (frame : Frame) (wire : Bytes) : Prop :=
  frame.data.length < 2 ^ 32 ∧
    ∃ padding, wire = headerBytes frame.messageType padding frame.data.length ++ frame.data

def wireSize (frames : List Frame) : Nat :=
  (frames.map fun frame => headerSize + frame.data.length).sum

theorem wireSize_eq {frames : List Frame} {wires : List Bytes}
    (areWires : List.Forall₂ IsWireFrame frames wires) :
    wireSize frames = wires.flatten.length := by
  induction areWires with
  | nil => rfl
  | @cons frame wire frames wires isWire _ ih =>
      obtain ⟨-, padding, rfl⟩ := isWire
      simp only [wireSize, List.map_cons, List.sum_cons, List.flatten_cons, List.length_append,
        headerBytes_length] at ih ⊢
      omega

/-- Take one frame off a byte stream: the header, then the announced number of
content bytes. -/
def nextFrame (stream : Bytes) : Option (Frame × Bytes) :=
  let header := parseHeader (stream.take headerSize)
  let body := stream.drop headerSize
  if stream.length < headerSize then none
  else if body.length < header.dataLength then none
  else some (⟨header.messageType, body.take header.dataLength⟩, body.drop header.dataLength)

theorem nextFrame_headerBytes (messageType : UInt8) (padding : Padding) (size : Nat)
    {stream : Bytes} (enough : size % 2 ^ 32 ≤ stream.length) :
    nextFrame (headerBytes messageType padding size ++ stream) =
      some (⟨messageType, stream.take (size % 2 ^ 32)⟩, stream.drop (size % 2 ^ 32)) := by
  have header : (headerBytes messageType padding size ++ stream).take headerSize =
      headerBytes messageType padding size :=
    List.take_left' (headerBytes_length ..)
  have body : (headerBytes messageType padding size ++ stream).drop headerSize = stream :=
    List.drop_left' (headerBytes_length ..)
  simp only [nextFrame, header, body, parseHeader_headerBytes, List.length_append,
    headerBytes_length]
  rw [if_neg (by omega), if_neg (by omega)]

def frameCode : SelfDelimiting.Code UInt8 Frame where
  Codeword := IsWireFrame
  next := nextFrame
  next_codeword := by
    rintro frame wire ⟨short, padding, rfl⟩ rest
    have size : frame.data.length % 2 ^ 32 = frame.data.length := Nat.mod_eq_of_lt short
    have enough : frame.data.length % 2 ^ 32 ≤ (frame.data ++ rest).length := by
      rw [size, List.length_append]
      omega
    rw [List.append_assoc, nextFrame_headerBytes _ _ _ enough, size, List.take_left,
      List.drop_left]
  next_shorter := by
    intro stream frame rest found
    simp only [nextFrame] at found
    split_ifs at found with short incomplete
    obtain ⟨-, rfl⟩ := Prod.mk.inj (Option.some.inj found)
    simp only [List.length_drop, headerSize] at short ⊢
    omega

theorem frameCode_extends : frameCode.Extends := by
  intro stream frame rest found later
  change nextFrame (stream ++ later) = _
  change nextFrame stream = _ at found
  simp only [nextFrame] at found ⊢
  split_ifs at found with short incomplete
  obtain ⟨rfl, rfl⟩ := Prod.mk.inj (Option.some.inj found)
  rw [List.take_append_of_le_length (not_lt.mp short),
    List.drop_append_of_le_length (not_lt.mp short),
    List.take_append_of_le_length (not_lt.mp incomplete),
    List.drop_append_of_le_length (not_lt.mp incomplete), if_neg, if_neg]
  · rw [List.length_append]
    omega
  · rw [List.length_append]
    omega

/-- All frames of a byte stream, with the bytes left over. -/
def parseFrames (stream : Bytes) : List Frame × Bytes := frameCode.decode stream

theorem parseFrames_wireFrame {frame : Frame} {wire : Bytes} (isWire : IsWireFrame frame wire)
    (rest : Bytes) :
    parseFrames (wire ++ rest) = (frame :: (parseFrames rest).1, (parseFrames rest).2) :=
  frameCode.decode_codeword isWire rest

theorem parseFrames_flatten {frames : List Frame} {wires : List Bytes}
    (areWires : List.Forall₂ IsWireFrame frames wires) :
    parseFrames wires.flatten = (frames, []) :=
  frameCode.decode_codewords areWires

theorem parseFrames_headerBytes (messageType : UInt8) (padding : Padding) (size : Nat)
    {stream : Bytes} (enough : size % 2 ^ 32 ≤ stream.length) :
    parseFrames (headerBytes messageType padding size ++ stream) =
      (⟨messageType, stream.take (size % 2 ^ 32)⟩ ::
          (parseFrames (stream.drop (size % 2 ^ 32))).1,
        (parseFrames (stream.drop (size % 2 ^ 32))).2) := by
  have found : frameCode.next (headerBytes messageType padding size ++ stream) = _ :=
    nextFrame_headerBytes messageType padding size enough
  exact frameCode.decode_of_next_some found

theorem parseFrames_data_length (stream : Bytes) :
    ∀ frame ∈ (parseFrames stream).1, frame.data.length < 2 ^ 32 := by
  refine frameCode.forall_mem_decode (fun frame => frame.data.length < 2 ^ 32)
    ?_ stream
  intro input frame rest found
  change nextFrame input = some (frame, rest) at found
  simp only [nextFrame] at found
  split_ifs at found with short incomplete
  obtain ⟨rfl, -⟩ := Prod.mk.inj (Option.some.inj found)
  have := parseHeader_dataLength_lt (input.take headerSize)
  simp only [List.length_take]
  omega

end UBus
