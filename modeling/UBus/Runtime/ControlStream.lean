import UBus.Json.Vendored
import UBus.Library.Interleaving
import UBus.Runtime.Requests

/-!
# Two threads on the control connection

`keep_alive_sender` and the API calls of a runtime write to one connection
without a lock.  A keep-alive is one write; a request is two.  This file
determines which interleavings of the writes reach the master as the frames
that were sent.
-/

namespace UBus

/-- One `writen` call on `control_sock_`. -/
inductive ControlWrite (json : JsonLibrary) (name : Bytes) where
  | keepAlive (padding : Padding)
  | requestHeader (request : SentRequest json name)
  | requestBody (request : SentRequest json name)

/-- The frame of `keep_alive_sender`, which has no contents. -/
def keepAliveFrame : Frame := ⟨FrameType.keepAlive.code, []⟩

/-- The single write of one round of `keep_alive_sender`. -/
def keepAliveBytes (padding : Padding) : Bytes := headerBytes FrameType.keepAlive.code padding 0

section ControlStream

variable {json : JsonLibrary} {name : Bytes}

def ControlWrite.bytes : ControlWrite json name → Bytes
  | keepAlive padding => keepAliveBytes padding
  | requestHeader request => request.header
  | requestBody request => request.body

def keepAliveWrites (keepAlives : List Padding) : List (ControlWrite json name) :=
  keepAlives.map .keepAlive

def requestWrites (requests : List (SentRequest json name)) : List (ControlWrite json name) :=
  requests.flatMap fun request => [.requestHeader request, .requestBody request]

def controlStream (writes : List (ControlWrite json name)) : Bytes :=
  writes.flatMap ControlWrite.bytes

/-- The stream is a concatenation of whole frames, each request's header
directly followed by its body, and parsing it yields the frames that were
sent: those of both threads, each thread's in its own order. -/
def DeliversWholeFrames (keepAlives : List Padding) (requests : List (SentRequest json name))
    (stream : Bytes) : Prop :=
  ∃ frames wires,
    Interleaving (keepAlives.map fun _ => keepAliveFrame) (requests.map SentRequest.frame) frames ∧
      List.Forall₂ IsWireFrame frames wires ∧ stream = wires.flatten ∧
        parseFrames stream = (frames, [])

/-- A keep-alive is written between the two writes of a request. -/
def KeepAliveSplitsRequest (writes : List (ControlWrite json name)) : Prop :=
  ∃ before request padding after,
    writes = before ++ .requestHeader request :: .keepAlive padding :: after

/-- How an interleaving of the two threads can start: with a keep-alive, with
a whole request, or with a request header that a keep-alive cuts off. -/
theorem controlWrites_cases {keepAlives : List Padding}
    {requests : List (SentRequest json name)} {writes : List (ControlWrite json name)}
    (interleaved : Interleaving (keepAliveWrites keepAlives) (requestWrites requests) writes) :
    (writes = [] ∧ keepAlives = [] ∧ requests = []) ∨
      (∃ padding keepAlives' writes', keepAlives = padding :: keepAlives' ∧
        writes = .keepAlive padding :: writes' ∧
          Interleaving (keepAliveWrites keepAlives') (requestWrites requests) writes') ∨
      (∃ request requests' writes', requests = request :: requests' ∧
        writes = .requestHeader request :: .requestBody request :: writes' ∧
          Interleaving (keepAliveWrites keepAlives) (requestWrites requests') writes') ∨
      ∃ request padding writes', request ∈ requests ∧
        writes = .requestHeader request :: .keepAlive padding :: writes' ∧
          .requestBody request ∈ writes' := by
  generalize firstEq : keepAliveWrites keepAlives = first at interleaved
  generalize secondEq : requestWrites requests = second at interleaved
  cases interleaved with
  | nil =>
      left
      refine ⟨rfl, List.map_eq_nil_iff.mp firstEq, ?_⟩
      cases requests with
      | nil => rfl
      | cons request requests => simp [requestWrites] at secondEq
  | left action remaining =>
      obtain ⟨padding, keepAlives', rfl, rfl, rfl⟩ := List.map_eq_cons_iff.mp firstEq
      right; left
      exact ⟨padding, keepAlives', _, rfl, rfl, secondEq ▸ remaining⟩
  | right action remaining =>
      cases requests with
      | nil => simp [requestWrites] at secondEq
      | cons request requests' =>
          have split : requestWrites (request :: requests') =
              .requestHeader request :: .requestBody request :: requestWrites requests' := rfl
          rw [split] at secondEq
          obtain ⟨rfl, rfl⟩ := List.cons.inj secondEq
          cases remaining with
          | left second remaining =>
              obtain ⟨padding, keepAlives', rfl, rfl, rfl⟩ := List.map_eq_cons_iff.mp firstEq
              right; right; right
              exact ⟨request, padding, _, by simp, rfl,
                remaining.mem_of_mem_second (by simp)⟩
          | right second remaining =>
              right; right; left
              exact ⟨request, requests', _, rfl, rfl, firstEq ▸ remaining⟩

theorem keepAlive_isWireFrame (padding : Padding) :
    IsWireFrame keepAliveFrame (keepAliveBytes padding) :=
  ⟨by simp [keepAliveFrame], padding, by simp [keepAliveFrame, keepAliveBytes]⟩

/-- Without a keep-alive inside a request every write sequence is a
concatenation of whole frames. -/
theorem wholeFrames_of_not_split {keepAlives : List Padding}
    {requests : List (SentRequest json name)} {writes : List (ControlWrite json name)}
    (interleaved : Interleaving (keepAliveWrites keepAlives) (requestWrites requests) writes)
    (short : ∀ request ∈ requests, request.text.length < 2 ^ 32)
    (notSplit : ¬ KeepAliveSplitsRequest writes) :
    ∃ frames wires,
      Interleaving (keepAlives.map fun _ => keepAliveFrame) (requests.map SentRequest.frame)
        frames ∧
      List.Forall₂ IsWireFrame frames wires ∧ controlStream writes = wires.flatten := by
  induction size : writes.length using Nat.strong_induction_on
    generalizing keepAlives requests writes with
  | _ size ih =>
      have notSplitLater : ∀ before writes', writes = before ++ writes' →
          ¬ KeepAliveSplitsRequest writes' := by
        rintro before writes' rfl ⟨earlier, request, padding, after, rfl⟩
        exact notSplit ⟨before ++ earlier, request, padding, after, by simp⟩
      rcases controlWrites_cases interleaved with
        ⟨rfl, rfl, rfl⟩ | ⟨padding, keepAlives', writes', rfl, rfl, remaining⟩ |
        ⟨request, requests', writes', rfl, rfl, remaining⟩ |
        ⟨request, padding, writes', _, rfl, _⟩
      · exact ⟨[], [], .nil, .nil, rfl⟩
      · obtain ⟨frames, wires, interleavedFrames, wireFrames, streamEq⟩ :=
          ih writes'.length (by simp [← size]) remaining short
            (notSplitLater [.keepAlive padding] writes' rfl) rfl
        refine ⟨keepAliveFrame :: frames, keepAliveBytes padding :: wires,
          .left keepAliveFrame interleavedFrames,
          .cons (keepAlive_isWireFrame padding) wireFrames, ?_⟩
        rw [List.flatten_cons, ← streamEq]
        rfl
      · have requestShort := short request (by simp)
        obtain ⟨frames, wires, interleavedFrames, wireFrames, streamEq⟩ :=
          ih writes'.length (by simp [← size]) remaining
            (fun other member => short other (by simp [member]))
            (notSplitLater [.requestHeader request, .requestBody request] writes' rfl) rfl
        refine ⟨request.frame :: frames, (request.header ++ request.body) :: wires,
          .right request.frame interleavedFrames,
          .cons (request.isWireFrame requestShort) wireFrames, ?_⟩
        rw [List.flatten_cons, ← streamEq, List.append_assoc]
        rfl
      · exact absurd ⟨[], request, padding, writes', rfl⟩ notSplit

/-- A keep-alive inside a request becomes part of the contents of some parsed
frame: contents that start with the type byte of the keep-alive. -/
theorem corruptedFrame_of_split {keepAlives : List Padding}
    {requests : List (SentRequest json name)} {writes : List (ControlWrite json name)}
    (interleaved : Interleaving (keepAliveWrites keepAlives) (requestWrites requests) writes)
    (short : ∀ request ∈ requests, request.text.length < 2 ^ 32)
    (split : KeepAliveSplitsRequest writes) :
    ∃ frame ∈ (parseFrames (controlStream writes)).1,
      ∃ contents, frame.data = FrameType.keepAlive.code :: contents := by
  induction size : writes.length using Nat.strong_induction_on
    generalizing keepAlives requests writes with
  | _ size ih =>
      obtain ⟨before, splitRequest, splitPadding, after, splitEq⟩ := split
      rcases controlWrites_cases interleaved with
        ⟨rfl, rfl, rfl⟩ | ⟨padding, keepAlives', writes', rfl, rfl, remaining⟩ |
        ⟨request, requests', writes', rfl, rfl, remaining⟩ |
        ⟨request, padding, writes', requestMem, rfl, bodyMem⟩
      · simp at splitEq
      · have later : KeepAliveSplitsRequest writes' := by
          cases before with
          | nil => simp at splitEq
          | cons first before =>
              exact ⟨before, splitRequest, splitPadding, after, (List.cons.inj splitEq).2⟩
        obtain ⟨frame, member, corrupted⟩ :=
          ih writes'.length (by simp [← size]) remaining short later rfl
        refine ⟨frame, ?_, corrupted⟩
        have streamEq : controlStream (.keepAlive padding :: writes') =
            keepAliveBytes padding ++ controlStream writes' := rfl
        rw [streamEq, parseFrames_wireFrame (keepAlive_isWireFrame padding)]
        exact List.mem_cons_of_mem _ member
      · have later : KeepAliveSplitsRequest writes' := by
          cases before with
          | nil => simp at splitEq
          | cons first before =>
              cases before with
              | nil => simp at splitEq
              | cons second before =>
                  exact ⟨before, splitRequest, splitPadding, after,
                    (List.cons.inj (List.cons.inj splitEq).2).2⟩
        obtain ⟨frame, member, corrupted⟩ :=
          ih writes'.length (by simp [← size]) remaining
            (fun other otherMem => short other (by simp [otherMem])) later rfl
        refine ⟨frame, ?_, corrupted⟩
        have streamEq : controlStream (.requestHeader request :: .requestBody request :: writes') =
            request.header ++ request.body ++ controlStream writes' := by
          rw [List.append_assoc]
          rfl
        rw [streamEq, parseFrames_wireFrame (request.isWireFrame (short request (by simp)))]
        exact List.mem_cons_of_mem _ member
      · -- the announced length covers the keep-alive, which opens the contents
        have requestShort := short request requestMem
        have size32 : request.text.length % 2 ^ 32 = request.text.length :=
          Nat.mod_eq_of_lt requestShort
        have bodyFits : request.text.length ≤ (controlStream writes').length := by
          obtain ⟨earlier, later, rfl⟩ := List.append_of_mem bodyMem
          have bodyLength : (ControlWrite.requestBody request).bytes.length =
              request.text.length :=
            congrArg List.length (request.body_of_short requestShort)
          simp only [controlStream, List.flatMap_append, List.flatMap_cons, List.length_append,
            bodyLength]
          omega
        have streamEq : controlStream (.requestHeader request :: .keepAlive padding :: writes') =
            request.header ++ (keepAliveBytes padding ++ controlStream writes') := rfl
        have enough : request.text.length % 2 ^ 32 ≤
            (keepAliveBytes padding ++ controlStream writes').length := by
          rw [size32, List.length_append]
          omega
        obtain ⟨rest, textEq⟩ := request.text_head
        refine ⟨⟨request.call.messageType.code,
          (keepAliveBytes padding ++ controlStream writes').take request.text.length⟩, ?_, ?_⟩
        · rw [streamEq, SentRequest.header, parseFrames_headerBytes _ _ _ enough, size32]
          exact List.mem_cons_self
        · rw [textEq]
          exact ⟨_, rfl⟩

/-- Contents that start like a keep-alive header belong to no frame that was
sent, so they rule out a faithful delivery. -/
theorem not_delivers_of_corruptedFrame {keepAlives : List Padding}
    {requests : List (SentRequest json name)} {stream : Bytes}
    (corrupted : ∃ frame ∈ (parseFrames stream).1,
      ∃ contents, frame.data = FrameType.keepAlive.code :: contents) :
    ¬ DeliversWholeFrames keepAlives requests stream := by
  rintro ⟨frames, wires, interleaved, -, -, parsed⟩
  obtain ⟨frame, member, contents, dataEq⟩ := corrupted
  rw [parsed] at member
  rcases interleaved.mem member with isKeepAlive | isRequest
  · obtain ⟨padding, -, rfl⟩ := List.mem_map.mp isKeepAlive
    simp [keepAliveFrame] at dataEq
  · obtain ⟨request, -, rfl⟩ := List.mem_map.mp isRequest
    obtain ⟨rest, textEq⟩ := request.text_head
    rw [show request.frame.data = request.text from rfl, textEq] at dataEq
    simp [FrameType.code] at dataEq

/-- The master's parsing yields exactly the frames that were sent iff every
request text fits the 32-bit length and no keep-alive is written between the
header and the body of a request. -/
theorem controlStream_delivers_iff {keepAlives : List Padding}
    {requests : List (SentRequest json name)} {writes : List (ControlWrite json name)}
    (interleaved : Interleaving (keepAliveWrites keepAlives) (requestWrites requests) writes) :
    DeliversWholeFrames keepAlives requests (controlStream writes) ↔
      (∀ request ∈ requests, request.text.length < 2 ^ 32) ∧
        ¬ KeepAliveSplitsRequest writes := by
  constructor
  · intro delivers
    have short : ∀ request ∈ requests, request.text.length < 2 ^ 32 := by
      obtain ⟨frames, wires, interleavedFrames, -, -, parsed⟩ := delivers
      intro request member
      have sent : request.frame ∈ frames :=
        interleavedFrames.mem_of_mem_second (List.mem_map_of_mem member)
      exact parseFrames_data_length (controlStream writes) request.frame
        (by rw [parsed]; exact sent)
    refine ⟨short, fun split => ?_⟩
    exact not_delivers_of_corruptedFrame (corruptedFrame_of_split interleaved short split) delivers
  · rintro ⟨short, notSplit⟩
    obtain ⟨frames, wires, interleavedFrames, wireFrames, streamEq⟩ :=
      wholeFrames_of_not_split interleaved short notSplit
    refine ⟨frames, wires, interleavedFrames, wireFrames, streamEq, ?_⟩
    rw [streamEq, parseFrames_flatten wireFrames]

end ControlStream

def advertiseSample : SentRequest .plain (ascii "node") where
  call := .advertiseEvent (ascii "t") 11
  padding := (0, 0, 0)
  text := ascii "\x7b\"topic\":\"t\",\"type_id\":11\x7d"
  dumped := by decide

theorem controlStream_delivers_sample :
    DeliversWholeFrames [(0, 0, 0)] [advertiseSample]
      (controlStream
        [.keepAlive (0, 0, 0), .requestHeader advertiseSample, .requestBody advertiseSample]) := by
  have interleaved : Interleaving (keepAliveWrites [(0, 0, 0)]) (requestWrites [advertiseSample])
      [.keepAlive (0, 0, 0), .requestHeader advertiseSample, .requestBody advertiseSample] :=
    .left _ (.right _ (.right _ .nil))
  refine (controlStream_delivers_iff interleaved).mpr ⟨?_, ?_⟩
  · intro request member
    rw [List.mem_singleton.mp member]
    decide
  · rintro ⟨before, request, padding, after, writesEq⟩
    match before with
    | [] | [_] | [_, _] | _ :: _ :: _ :: _ => simp at writesEq

/-- A keep-alive sent while a topic is being advertised corrupts the stream. -/
theorem controlStream_corrupted_sample :
    Interleaving (keepAliveWrites [(0, 0, 0)]) (requestWrites [advertiseSample])
        [.requestHeader advertiseSample, .keepAlive (0, 0, 0), .requestBody advertiseSample] ∧
      ¬ DeliversWholeFrames [(0, 0, 0)] [advertiseSample]
        (controlStream
          [.requestHeader advertiseSample, .keepAlive (0, 0, 0),
            .requestBody advertiseSample]) := by
  have interleaved : Interleaving (keepAliveWrites [(0, 0, 0)]) (requestWrites [advertiseSample])
      [.requestHeader advertiseSample, .keepAlive (0, 0, 0), .requestBody advertiseSample] :=
    .right _ (.left _ (.right _ .nil))
  refine ⟨interleaved, not_delivers_of_corruptedFrame (corruptedFrame_of_split interleaved ?_ ?_)⟩
  · intro request member
    rw [List.mem_singleton.mp member]
    decide
  · exact ⟨[], advertiseSample, (0, 0, 0), [.requestBody advertiseSample], rfl⟩

end UBus
