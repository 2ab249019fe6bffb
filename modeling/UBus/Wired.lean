import UBus.Accepting
import UBus.Master.PollTable
import UBus.Segmentation

/-!
# The master on its connections

In the system of the master a frame is one event.  Here its threads read from
connections on which bytes arrive at any time and in any pieces; a read that has
to wait is the event in which it ends, since no other thread reads the same
connection meanwhile.  A peer that begins with a joining request, and whose
bytes never stop inside a header, has its frames handled in order, each of them
once and whole, whatever happens on the other connections and between the
threads.
-/

namespace UBus

variable {json : JsonLibrary}

/-- The results of reading bytes that have arrived, possibly followed by the
end of the stream. -/
def arrivals (unread : Bytes) (hungUp : Bool) : List ReadResult :=
  (if unread = [] then [] else [.bytes unread]) ++ if hungUp then [.bytes []] else []

/-- The master, the bytes of each connection that no thread has read, and the
connections whose peer has hung up. -/
structure WiredMaster where
  system : System
  unread : Fd → Bytes
  hungUp : List Fd

/-- Bytes arrive, a peer hangs up, or a thread of the master moves, with any
contents of its receive buffers. -/
inductive WireEvent where
  | arrive (fd : Fd) (bytes : Bytes)
  | hangUp (fd : Fd)
  | move (memory : StackMemory) (event : Event)

namespace WiredMaster

def results (wired : WiredMaster) (fd : Fd) : List ReadResult :=
  arrivals (wired.unread fd) (decide (fd ∈ wired.hungUp))

/-- The unread bytes after a read of `fd` that leaves `rest`. -/
def leave (wired : WiredMaster) (fd : Fd) (rest : List ReadResult) : Fd → Bytes :=
  Function.update wired.unread fd (deliveredBytes rest)

def reads (wired : WiredMaster) (memory : StackMemory) : Event → Option (Fd → Bytes)
  | .accept fd _ frame _ =>
      -- connections may be accepted in any order
      match receiveTyped .initiation memory (wired.results fd) with
      | .frame received rest => if received = frame then some (wired.leave fd rest) else none
      | .shortHeader rest =>
          if frame = ⟨FrameType.unknown.code, []⟩ then some (wired.leave fd rest) else none
      | _ => none
  | .control fd frame _ _ =>
      match receiveControlFrame memory (wired.results fd) with
      | .frame received rest => if received = frame then some (wired.leave fd rest) else none
      | _ => none
  | .readShort =>
      wired.system.current.bind fun (_, fd) =>
        match receiveControlFrame memory (wired.results fd) with
        | .shortHeader rest | .shortContent rest => some (wired.leave fd rest)
        | _ => none
  | .readNothing =>
      wired.system.current.bind fun (_, fd) =>
        match receiveControlFrame memory (wired.results fd) with
        | .peerClosed rest => some (wired.leave fd rest)
        | _ => none
  | .peerClose fd => if fd ∈ wired.hungUp then some wired.unread else none
  | .poll (.ready sockets) =>
      -- `poll` reports a socket if a read would not wait
      if ∀ fd ∈ sockets, wired.results fd ≠ [] then some wired.unread else none
  | .poll .failed | .poll .timeout | .tick _ | .proceed | .popDead _ | .popNew _ =>
      some wired.unread

def step (json : JsonLibrary) (wired : WiredMaster) : WireEvent → Option WiredMaster
  | .arrive fd bytes =>
      if fd ∈ wired.hungUp then none
      else some { wired with unread := Function.update wired.unread fd (wired.unread fd ++ bytes) }
  | .hangUp fd => some { wired with hungUp := fd :: wired.hungUp }
  | .move memory event =>
      (wired.reads memory event).bind fun unread =>
        (wired.system.step json event).map fun system =>
          { wired with system := system, unread := unread }

structure Initial (wired : WiredMaster) : Prop where
  system : wired.system.Initial
  unread : wired.unread = fun _ => []
  hungUp : wired.hungUp = []

end WiredMaster

def wiredSystem (json : JsonLibrary) : EventSystem WiredMaster WireEvent where
  Initial := WiredMaster.Initial
  step := WiredMaster.step json

def frameEvents (history : List WireEvent) : List Event :=
  history.filterMap fun
    | .move _ event => some event
    | _ => none

def arrivedOn (fd : Fd) (history : List WireEvent) : Bytes :=
  history.flatMap fun
    | .arrive socket bytes => if socket = fd then bytes else []
    | _ => []

/-- The frames of a connection that an event handles. -/
def Event.handlesOn (fd : Fd) : Event → List Frame
  | .accept socket _ frame _ =>
      if socket = fd ∧ frame.messageType = FrameType.initiation.code then [frame] else []
  | .control socket frame _ _ => if socket = fd then [frame] else []
  | _ => []

def handledOn (fd : Fd) (history : List WireEvent) : List Frame :=
  (frameEvents history).flatMap (Event.handlesOn fd)

/-- The bytes stop inside a header. -/
def CutsHeader (bytes : Bytes) : Prop :=
  (parseFrames bytes).2 ≠ [] ∧ (parseFrames bytes).2.length < headerSize

/-- A peer that begins with a joining request, whose bytes never stop inside a
header, and which hangs up only between frames. -/
structure Orderly (fd : Fd) (history : List WireEvent) : Prop where
  joins : ∀ byte ∈ (arrivedOn fd history).head?, byte = FrameType.initiation.code
  whole : ∀ before, before <+: history → ¬ CutsHeader (arrivedOn fd before)
  ends : ∀ before, before ++ [.hangUp fd] <+: history →
    (parseFrames (arrivedOn fd before)).2 = []

theorem deliveredBytes_arrivals (unread : Bytes) (hungUp : Bool) :
    deliveredBytes (arrivals unread hungUp) = unread := by
  by_cases empty : unread = [] <;> cases hungUp <;> simp [arrivals, deliveredBytes, empty]

theorem breakOff_arrivals (unread : Bytes) (hungUp : Bool) :
    breakOff (arrivals unread hungUp) = if hungUp then some (.bytes [], []) else none := by
  by_cases empty : unread = [] <;> cases hungUp <;> simp [arrivals, breakOff, empty]

namespace Received

def rest : Received → List ReadResult
  | blocked => []
  | peerClosed rest | shortHeader rest | shortContent rest | frame _ rest => rest

def frames : Received → List Frame
  | frame received _ => [received]
  | _ => []

/-- What is received agrees with the bytes: a frame is the next one, and a
receiver that gives up has found no whole frame. -/
def Fits (unread : Bytes) (hungUp : Bool) : Received → Prop
  | blocked => True
  | peerClosed rest => unread = [] ∧ deliveredBytes rest = []
  | shortHeader rest => unread.length < headerSize ∧ deliveredBytes rest = []
  | shortContent _ => hungUp = true ∧ unread ≠ [] ∧ nextFrame unread = none
  | frame received rest => nextFrame unread = some (received, deliveredBytes rest)

end Received

theorem nextFrame_of_short {unread : Bytes} (short : unread.length < headerSize) :
    nextFrame unread = none :=
  if_pos short

theorem parseFrames_of_none {unread : Bytes} (stops : nextFrame unread = none) :
    parseFrames unread = ([], unread) :=
  frameCode.decode_of_next_none stops

/-- At a connection that is not cut inside a header or a frame, a thread takes
nothing or the next frame. -/
theorem Received.Fits.parseFrames_eq {unread : Bytes} {hungUp : Bool} {received : Received}
    (fits : received.Fits unread hungUp) (whole : ¬ CutsHeader unread)
    (ends : hungUp = true → (parseFrames unread).2 = []) (reads : received ≠ .blocked) :
    parseFrames unread = (received.frames ++ (parseFrames (deliveredBytes received.rest)).1,
      (parseFrames (deliveredBytes received.rest)).2) := by
  cases received with
  | blocked => exact absurd rfl reads
  | peerClosed rest =>
      obtain ⟨rfl, nothing⟩ := fits
      rw [Received.rest, nothing]
      rfl
  | shortHeader rest =>
      obtain ⟨short, nothing⟩ := fits
      have parsed := parseFrames_of_none (nextFrame_of_short short)
      have empty : unread = [] := by
        by_contra nonempty
        exact whole (by rw [CutsHeader, parsed]; exact ⟨nonempty, short⟩)
      rw [Received.rest, nothing, empty]
      rfl
  | shortContent rest =>
      obtain ⟨hung, nonempty, stops⟩ := fits
      have empty := ends hung
      rw [parseFrames_of_none stops] at empty
      exact absurd empty nonempty
  | frame frame rest => exact frameCode.decode_of_next_some fits

theorem nextFrame_whole {unread : Bytes} (whole : headerSize ≤ unread.length)
    (complete : (parseHeader (unread.take headerSize)).dataLength ≤
      (unread.drop headerSize).length) :
    nextFrame unread = some
      (⟨(parseHeader (unread.take headerSize)).messageType,
          (unread.drop headerSize).take (parseHeader (unread.take headerSize)).dataLength⟩,
        (unread.drop headerSize).drop (parseHeader (unread.take headerSize)).dataLength) := by
  simp only [nextFrame, if_neg (not_lt.mpr whole), if_neg (not_lt.mpr complete)]

theorem nextFrame_incomplete {unread : Bytes}
    (incomplete : (unread.drop headerSize).length <
      (parseHeader (unread.take headerSize)).dataLength) :
    nextFrame unread = none := by
  simp only [nextFrame, if_pos incomplete, ite_self]

theorem readn_header_arrivals {unread : Bytes} (hungUp : Bool)
    (whole : headerSize ≤ unread.length) :
    ∃ rest, readn headerSize (arrivals unread hungUp) =
        some ⟨headerSize, unread.take headerSize, rest⟩ ∧
      deliveredBytes rest = unread.drop headerSize ∧
      breakOff rest = breakOff (arrivals unread hungUp) := by
  have enough : headerSize ≤ (deliveredBytes (arrivals unread hungUp)).length := by
    rwa [deliveredBytes_arrivals]
  obtain ⟨rest, headerRead, remaining, ending⟩ := readn_enough enough
  rw [deliveredBytes_arrivals] at headerRead remaining
  exact ⟨rest, headerRead, remaining, ending⟩

theorem readn_incomplete_arrivals {unread : Bytes} {hungUp : Bool} {count : Nat}
    {results : List ReadResult} (fits : count < 2 ^ 64)
    (ending : breakOff results = breakOff (arrivals unread hungUp))
    (short : (deliveredBytes results).length < count) :
    (hungUp = false ∧ readn count results = none) ∨
      hungUp = true ∧ toSizeT (deliveredBytes results).length < count ∧
        readn count results =
          some ⟨(deliveredBytes results).length, deliveredBytes results, []⟩ := by
  rw [readn_short short, ending, breakOff_arrivals]
  cases hungUp with
  | false => exact Or.inl ⟨rfl, rfl⟩
  | true =>
      exact Or.inr ⟨rfl, (toSizeT_natCast (short.trans fits)).trans_lt short, rfl⟩

theorem receiveControlFrame_fits (memory : StackMemory) (unread : Bytes) (hungUp : Bool) :
    (receiveControlFrame memory (arrivals unread hungUp)).Fits unread hungUp := by
  rcases eq_or_ne unread [] with rfl | nonempty
  · cases hungUp with
    | false => exact trivial
    | true => exact ⟨rfl, rfl⟩
  obtain ⟨ending, arrivalsEq, nothing⟩ : ∃ ending,
      arrivals unread hungUp = .bytes unread :: ending ∧ deliveredBytes ending = [] := by
    refine ⟨if hungUp then [.bytes []] else [], by simp [arrivals, nonempty], ?_⟩
    cases hungUp <;> rfl
  by_cases short : unread.length < headerSize
  · have size : toSizeT (unread.length : Int) = unread.length :=
      toSizeT_natCast (short.trans (by decide))
    have nonzero : ¬ unread.length = 0 := by simpa using nonempty
    simp only [receiveControlFrame, arrivalsEq, read_short_header ending short, size,
      if_neg nonzero, if_pos short]
    exact ⟨short, nothing⟩
  have whole := not_lt.mp short
  obtain ⟨rest, headerRead, remaining, stays⟩ := readn_header_arrivals hungUp whole
  have readEq : read headerSize (arrivals unread hungUp) =
      some ⟨headerSize, unread.take headerSize, rest⟩ := by
    rw [arrivalsEq, read_eq_readn whole, ← arrivalsEq]
    exact headerRead
  have headerFull : ¬ toSizeT (headerSize : Int) < headerSize := by decide
  have headerNonzero : ¬ toSizeT (headerSize : Int) = 0 := by decide
  have bounded := parseHeader_dataLength_lt (unread.take headerSize)
  have fits : (parseHeader (unread.take headerSize)).dataLength < 2 ^ 64 :=
    bounded.trans (by decide)
  simp only [receiveControlFrame, readEq, if_neg headerFull, if_neg headerNonzero,
    Exchange.fillBuffer_take _ whole]
  by_cases complete : (parseHeader (unread.take headerSize)).dataLength ≤
      (unread.drop headerSize).length
  · have next := nextFrame_whole whole complete
    split_ifs with hasData
    · rw [← remaining] at complete
      obtain ⟨rest', bodyRead, left, -⟩ := readn_enough complete
      have bodyFull : ¬ toSizeT ((parseHeader (unread.take headerSize)).dataLength : Int) <
          (parseHeader (unread.take headerSize)).dataLength := by
        rw [toSizeT_natCast fits]
        exact lt_irrefl _
      simp only [bodyRead, if_neg bodyFull, Exchange.fillBuffer_take _ complete]
      rw [Received.Fits, next, left, remaining]
    · have noData : (parseHeader (unread.take headerSize)).dataLength = 0 := by omega
      rw [Received.Fits, next, noData, remaining]
      rfl
  · have incomplete := not_le.mp complete
    rw [if_pos (Nat.zero_lt_of_lt incomplete)]
    rw [← remaining] at incomplete
    rcases readn_incomplete_arrivals fits stays incomplete with
      ⟨-, waits⟩ | ⟨hung, bodyShort, ended⟩
    · simp only [waits]
      exact trivial
    · simp only [ended, if_pos bodyShort]
      rw [remaining] at incomplete
      exact ⟨hung, nonempty, nextFrame_incomplete incomplete⟩

theorem receiveTyped_fits (memory : StackMemory) {unread : Bytes} {hungUp : Bool}
    (joins : ∀ byte ∈ unread.head?, byte = FrameType.initiation.code)
    (ends : hungUp = true → (parseFrames unread).2 = []) :
    (receiveTyped .initiation memory (arrivals unread hungUp)).Fits unread hungUp := by
  have fitsHeader : headerSize < 2 ^ 64 := by decide
  by_cases short : unread.length < headerSize
  · have shortRead := short
    rw [← deliveredBytes_arrivals unread hungUp] at shortRead
    unfold receiveTyped
    rcases readn_incomplete_arrivals fitsHeader rfl shortRead with
      ⟨-, waits⟩ | ⟨-, headerShort, ended⟩
    · simp only [waits]
      exact trivial
    · simp only [ended, if_pos headerShort]
      exact ⟨short, rfl⟩
  have whole := not_lt.mp short
  obtain ⟨rest, headerRead, remaining, stays⟩ := readn_header_arrivals hungUp whole
  have headerFull : ¬ toSizeT (headerSize : Int) < headerSize := by decide
  have isInitiation : (parseHeader (unread.take headerSize)).messageType =
      FrameType.initiation.code := by
    cases unread with
    | nil => exact absurd whole (by decide)
    | cons byte bytes => exact joins byte rfl
  have fits : (parseHeader (unread.take headerSize)).dataLength < 2 ^ 64 :=
    (parseHeader_dataLength_lt _).trans (by decide)
  simp only [receiveTyped, headerRead, if_neg headerFull, Exchange.fillBuffer_take _ whole,
    isInitiation, ne_eq, not_true_eq_false, if_false]
  by_cases complete : (parseHeader (unread.take headerSize)).dataLength ≤
      (unread.drop headerSize).length
  · have next := nextFrame_whole whole complete
    rw [← remaining] at complete
    obtain ⟨rest', bodyRead, left, -⟩ := readn_enough complete
    simp only [bodyRead, Exchange.fillBuffer_take _ complete]
    rw [Received.Fits, next, left, remaining, isInitiation]
  · have incomplete := not_le.mp complete
    have stops := nextFrame_incomplete incomplete
    rw [← remaining] at incomplete
    rcases readn_incomplete_arrivals fits stays incomplete with ⟨-, waits⟩ | ⟨hung, -, -⟩
    · simp only [waits]
      exact trivial
    · -- the peer would have hung up inside its request
      have empty := ends hung
      rw [parseFrames_of_none stops] at empty
      change unread = [] at empty
      exact absurd whole (by rw [empty]; decide)

theorem head?_of_nextFrame {unread rest : Bytes} {frame : Frame}
    (next : nextFrame unread = some (frame, rest)) : unread.head? = some frame.messageType := by
  simp only [nextFrame] at next
  split_ifs at next with short
  obtain ⟨rfl, -⟩ := Prod.mk.inj (Option.some.inj next)
  cases unread with
  | nil => exact absurd short (by decide)
  | cons byte bytes => rfl

/-- The scan only visits sockets that `accept` has returned. -/
def System.SlotsAccepted (system : System) : Prop :=
  ∀ slot fd, system.fdAt slot = some fd → fd ∈ system.accepted

theorem System.SlotsAccepted.of_reachable {system : System}
    (reachable : (masterSystem json).Reachable system) : system.SlotsAccepted := by
  refine reachable.invariant_of_reachable System.SlotsAccepted ?_ ?_
  · exact fun state isInitial slot fd occupied => absurd occupied isInitial.fdAt_ne
  · intro state event next earlier slots moved slot fd occupied
    have frees : ∀ pollFd : PollFd, pollFd.cleared.fd = none := fun _ => rfl
    cases step_move moved with
    | joined _ _ _ _ _ => exact List.mem_cons_of_mem _ (slots slot fd occupied)
    | refused _ _ => exact List.mem_cons_of_mem _ (slots slot fd occupied)
    | removed _ _ _ => exact slots slot fd ((SlotTable.keyAt_modify_frees frees).mp occupied).2
    | placed _ _ listed free =>
        rcases SlotTable.keyAt_occupy_cases free occupied with ⟨-, newcomer⟩ | older
        · obtain rfl := Option.some.inj newcomer
          have registry := System.RegistryInvariant.of_reachable earlier
          exact registry.accepted _
            (FiniteMap.mem_of_lookup (registry.consistent.listed listed).2)
        · exact slots slot fd older
    | polled _ _ same _ => exact slots slot fd ((same slot).symm.trans occupied)
    | peerGone _ _ => exact slots slot fd ((SlotTable.keyAt_modify_frees frees).mp occupied).2
    | ticked _ _ => exact slots slot fd occupied
    | peerClosed => exact slots slot fd occupied
    | proceeded _ => exact slots slot fd occupied
    | dropped _ _ _ => exact slots slot fd occupied
    | skipped _ => exact slots slot fd occupied
    | keptAlive _ _ _ => exact slots slot fd occupied
    | announced _ _ _ _ _ => exact slots slot fd occupied
    | answered _ _ => exact slots slot fd occupied

theorem accepted_mono {system next : System} {event : Event} {fd : Fd}
    (moved : system.step json event = some next) (isAccepted : fd ∈ system.accepted) :
    fd ∈ next.accepted := by
  cases step_move moved with
  | joined _ _ _ _ _ | refused _ _ => exact List.mem_cons_of_mem _ isAccepted
  | _ => exact isAccepted

namespace WiredMaster

/-- The reads that an event can make. -/
inductive Reading (wired : WiredMaster) (memory : StackMemory) : Event → (Fd → Bytes) → Prop
  | silent {event} :
      (∀ fd, event.handlesOn fd = []) → Reading wired memory event wired.unread
  | accepted {fd peer frame reply received} :
      receiveTyped .initiation memory (wired.results fd) = received → received ≠ .blocked →
      received.frames = [frame] ∨
        received.frames = [] ∧ frame.messageType ≠ FrameType.initiation.code →
        Reading wired memory (.accept fd peer frame reply) (wired.leave fd received.rest)
  | scanned {slot fd event received} :
      wired.system.current = some (slot, fd) →
      receiveControlFrame memory (wired.results fd) = received → received ≠ .blocked →
      (∀ other, event.handlesOn other = if fd = other then received.frames else []) →
        Reading wired memory event (wired.leave fd received.rest)

theorem reading_of_reads {wired : WiredMaster} {memory : StackMemory} {event : Event}
    {unread : Fd → Bytes} {system : System} (read : wired.reads memory event = some unread)
    (moved : wired.system.step json event = some system) : wired.Reading memory event unread := by
  cases event with
  | accept fd peer frame reply =>
      simp only [reads] at read
      cases received : receiveTyped .initiation memory (wired.results fd) with
      | frame found rest =>
          simp only [received, Option.ite_none_right_eq_some, Option.some.injEq] at read
          obtain ⟨rfl, rfl⟩ := read
          exact .accepted received (by simp) (Or.inl rfl)
      | shortHeader rest =>
          simp only [received, Option.ite_none_right_eq_some, Option.some.injEq] at read
          obtain ⟨rfl, rfl⟩ := read
          exact .accepted received (by simp) (Or.inr ⟨rfl, by decide⟩)
      | blocked | peerClosed _ | shortContent _ => simp [received] at read
  | control fd frame order reply =>
      obtain ⟨⟨slot, fd'⟩, isCurrent, handled⟩ := Option.bind_eq_some_iff.mp moved
      simp only [Option.ite_none_right_eq_some] at handled
      obtain ⟨⟨rfl, -⟩, -⟩ := handled
      simp only [reads] at read
      cases received : receiveControlFrame memory (wired.results fd') with
      | frame found rest =>
          simp only [received, Option.ite_none_right_eq_some, Option.some.injEq] at read
          obtain ⟨rfl, rfl⟩ := read
          exact .scanned isCurrent received (by simp) fun _ => rfl
      | blocked | peerClosed _ | shortHeader _ | shortContent _ => simp [received] at read
  | readShort =>
      obtain ⟨⟨slot, fd⟩, isCurrent, read⟩ := Option.bind_eq_some_iff.mp read
      dsimp only at read
      cases received : receiveControlFrame memory (wired.results fd) with
      | shortHeader rest | shortContent rest =>
          simp only [received, Option.some.injEq] at read
          obtain rfl := read
          exact .scanned isCurrent received (by simp) fun _ => (ite_self _).symm
      | blocked | peerClosed _ | frame _ _ => simp [received] at read
  | readNothing =>
      obtain ⟨⟨slot, fd⟩, isCurrent, read⟩ := Option.bind_eq_some_iff.mp read
      dsimp only at read
      cases received : receiveControlFrame memory (wired.results fd) with
      | peerClosed rest =>
          simp only [received, Option.some.injEq] at read
          obtain rfl := read
          exact .scanned isCurrent received (by simp) fun _ => (ite_self _).symm
      | blocked | shortHeader _ | shortContent _ | frame _ _ => simp [received] at read
  | peerClose fd =>
      simp only [reads, Option.ite_none_right_eq_some, Option.some.injEq] at read
      obtain ⟨-, rfl⟩ := read
      exact .silent fun _ => rfl
  | poll result =>
      cases result with
      | ready sockets =>
          simp only [reads, Option.ite_none_right_eq_some, Option.some.injEq] at read
          obtain ⟨-, rfl⟩ := read
          exact .silent fun _ => rfl
      | failed | timeout =>
          obtain rfl := Option.some.inj read
          exact .silent fun _ => rfl
  | tick _ | proceed | popDead _ | popNew _ =>
      obtain rfl := Option.some.inj read
      exact .silent fun _ => rfl

theorem exists_reading {wired next : WiredMaster} {memory : StackMemory} {event : Event}
    (moved : wired.step json (.move memory event) = some next) :
    ∃ unread system, wired.Reading memory event unread ∧
      wired.system.step json event = some system ∧
      next = { wired with system := system, unread := unread } := by
  obtain ⟨unread, read, performed⟩ := Option.bind_eq_some_iff.mp moved
  obtain ⟨system, handled, rfl⟩ := Option.map_eq_some_iff.mp performed
  exact ⟨unread, system, reading_of_reads read handled, handled, rfl⟩

end WiredMaster

section Histories

variable {history : List WireEvent} {fd other : Fd} {bytes : Bytes} {memory : StackMemory}
  {event : Event}

theorem arrivedOn_append (fd : Fd) (history later : List WireEvent) :
    arrivedOn fd (history ++ later) = arrivedOn fd history ++ arrivedOn fd later :=
  List.flatMap_append

theorem handledOn_append (fd : Fd) (history later : List WireEvent) :
    handledOn fd (history ++ later) = handledOn fd history ++ handledOn fd later := by
  simp only [handledOn, frameEvents, List.filterMap_append, List.flatMap_append]

@[simp]
theorem arrivedOn_arrive : arrivedOn fd [.arrive other bytes] = if other = fd then bytes else [] :=
  List.append_nil _

@[simp]
theorem arrivedOn_hangUp : arrivedOn fd [.hangUp other] = [] := rfl

@[simp]
theorem arrivedOn_move : arrivedOn fd [.move memory event] = [] := rfl

@[simp]
theorem handledOn_arrive : handledOn fd [.arrive other bytes] = [] := rfl

@[simp]
theorem handledOn_hangUp : handledOn fd [.hangUp other] = [] := rfl

@[simp]
theorem handledOn_move : handledOn fd [.move memory event] = event.handlesOn fd :=
  List.append_nil _

theorem Orderly.of_append {later : List WireEvent} (orderly : Orderly fd (history ++ later)) :
    Orderly fd history where
  joins byte isFirst := by
    apply orderly.joins
    rw [arrivedOn_append, List.head?_append, Option.mem_def.mp isFirst]
    rfl
  whole before earlier := orderly.whole before (earlier.trans (List.prefix_append ..))
  ends before earlier := orderly.ends before (earlier.trans (List.prefix_append ..))

end Histories

/-- Whatever the connections do, the threads move as in the system in which a
frame is one event. -/
theorem WiredMaster.frameEvents_run {history : List WireEvent} {wired : WiredMaster}
    (run : (wiredSystem json).Run history wired) :
    (masterSystem json).Run (frameEvents history) wired.system := by
  induction run with
  | initial isInitial => exact .initial isInitial.system
  | @step history wired next event _ moved ih =>
      have events : frameEvents (history ++ [event]) = frameEvents history ++ frameEvents [event] :=
        List.filterMap_append
      rw [events]
      cases event with
      | arrive fd bytes =>
          obtain ⟨-, rfl⟩ := (Option.ite_none_left_eq_some.mp moved).imp_right Option.some.inj
          exact (List.append_nil (frameEvents history)).symm ▸ ih
      | hangUp fd =>
          obtain rfl := Option.some.inj moved
          exact (List.append_nil (frameEvents history)).symm ▸ ih
      | move memory event =>
          obtain ⟨unread, system, -, handled, rfl⟩ := exists_reading moved
          exact ih.step handled

/-- What has arrived on a connection is what has been handled and what is
unread. -/
structure InStep (fd : Fd) (history : List WireEvent) (wired : WiredMaster) : Prop where
  frames : parseFrames (arrivedOn fd history) =
    (handledOn fd history ++ (parseFrames (wired.unread fd)).1,
      (parseFrames (wired.unread fd)).2)
  /-- The first frame is for the accepting thread. -/
  fresh : fd ∉ wired.system.accepted → wired.unread fd = arrivedOn fd history
  ended : fd ∈ wired.hungUp → (parseFrames (wired.unread fd)).2 = []

namespace InStep

variable {history : List WireEvent} {fd : Fd} {wired next : WiredMaster}

theorem initial (isInitial : wired.Initial) : InStep fd [] wired := by
  obtain ⟨system, unread, hungUp⟩ := isInitial
  constructor
  · rw [unread]
    rfl
  · exact fun _ => by rw [unread]; rfl
  · intro hung
    simp [hungUp] at hung

theorem left (inStep : InStep fd history wired) :
    (parseFrames (arrivedOn fd history)).2 = (parseFrames (wired.unread fd)).2 := by
  rw [inStep.frames]

theorem congr {event : WireEvent} (inStep : InStep fd history wired)
    (nothingArrives : arrivedOn fd [event] = []) (nothingHandled : handledOn fd [event] = [])
    (unread : next.unread fd = wired.unread fd)
    (accepted : fd ∈ wired.system.accepted → fd ∈ next.system.accepted)
    (hungUp : fd ∈ next.hungUp → fd ∈ wired.hungUp) : InStep fd (history ++ [event]) next := by
  constructor
  · rw [arrivedOn_append, handledOn_append, nothingArrives, nothingHandled, List.append_nil,
      List.append_nil, unread]
    exact inStep.frames
  · intro notAccepted
    rw [arrivedOn_append, nothingArrives, List.append_nil, unread]
    exact inStep.fresh fun isAccepted => notAccepted (accepted isAccepted)
  · intro hung
    rw [unread]
    exact inStep.ended (hungUp hung)

theorem read {memory : StackMemory} {event : Event} {received : Received}
    (inStep : InStep fd history wired) (whole : ¬ CutsHeader (arrivedOn fd history))
    (fits : received.Fits (wired.unread fd) (decide (fd ∈ wired.hungUp)))
    (reads : received ≠ .blocked) (unread : next.unread fd = deliveredBytes received.rest)
    (handles : event.handlesOn fd = received.frames) (accepted : fd ∈ next.system.accepted)
    (hungUp : next.hungUp = wired.hungUp) : InStep fd (history ++ [.move memory event]) next := by
  have parsed := fits.parseFrames_eq (by rwa [CutsHeader, ← inStep.left])
    (fun hung => inStep.ended (of_decide_eq_true hung)) reads
  constructor
  · rw [arrivedOn_append, handledOn_append, arrivedOn_move, handledOn_move, List.append_nil,
      inStep.frames, handles, unread, parsed, List.append_assoc]
  · exact fun notAccepted => absurd accepted notAccepted
  · intro hung
    have ended := inStep.ended (hungUp ▸ hung)
    rw [parsed] at ended
    rw [unread]
    exact ended

theorem arrive {bytes : Bytes} (inStep : InStep fd history wired) (isOpen : fd ∉ wired.hungUp) :
    InStep fd (history ++ [.arrive fd bytes])
      { wired with unread := Function.update wired.unread fd (wired.unread fd ++ bytes) } := by
  constructor
  · have arrived := frameCode.decode_in_parts frameCode_extends (arrivedOn fd history) bytes
    have unread := frameCode.decode_in_parts frameCode_extends (wired.unread fd) bytes
    have frames := inStep.frames
    simp only [parseFrames] at frames ⊢
    rw [arrivedOn_append, handledOn_append, arrivedOn_arrive, handledOn_arrive, if_pos rfl,
      Function.update_self, arrived, unread, frames, List.append_nil, List.append_assoc]
  · intro notAccepted
    change Function.update wired.unread fd (wired.unread fd ++ bytes) fd = _
    rw [Function.update_self, inStep.fresh notAccepted, arrivedOn_append, arrivedOn_arrive,
      if_pos rfl]
  · exact fun hung => absurd hung isOpen

theorem hangUp (inStep : InStep fd history wired)
    (whole : (parseFrames (arrivedOn fd history)).2 = []) :
    InStep fd (history ++ [.hangUp fd]) { wired with hungUp := fd :: wired.hungUp } := by
  constructor
  · rw [arrivedOn_append, handledOn_append, arrivedOn_hangUp, handledOn_hangUp, List.append_nil,
      List.append_nil]
    exact inStep.frames
  · intro notAccepted
    rw [arrivedOn_append, arrivedOn_hangUp, List.append_nil]
    exact inStep.fresh notAccepted
  · exact fun _ => inStep.left.symm.trans whole

/-- Every event keeps the master in step with an orderly peer. -/
theorem step {event : WireEvent} (inStep : InStep fd history wired)
    (orderly : Orderly fd (history ++ [event]))
    (reachable : (masterSystem json).Reachable wired.system)
    (moved : wired.step json event = some next) : InStep fd (history ++ [event]) next := by
  have earlier := orderly.of_append
  have whole := earlier.whole history (List.prefix_refl _)
  cases event with
  | arrive socket bytes =>
      obtain ⟨notHung, same⟩ := Option.ite_none_left_eq_some.mp moved
      obtain rfl := Option.some.inj same
      by_cases isFd : socket = fd
      · subst isFd
        exact inStep.arrive notHung
      · exact inStep.congr (by rw [arrivedOn_arrive, if_neg isFd]) rfl
          (Function.update_of_ne (Ne.symm isFd) ..) id id
  | hangUp socket =>
      obtain rfl := Option.some.inj moved
      by_cases isFd : socket = fd
      · subst isFd
        exact inStep.hangUp (orderly.ends history (List.prefix_refl _))
      · exact inStep.congr rfl rfl rfl id fun hung =>
          (List.mem_cons.mp hung).resolve_left (Ne.symm isFd)
  | move memory event =>
      obtain ⟨unread, system, reading, handled, rfl⟩ := WiredMaster.exists_reading moved
      cases reading with
      | silent silent =>
          exact inStep.congr rfl ((handledOn_move).trans (silent fd)) rfl (accepted_mono handled) id
      | @accepted socket peer frame reply received received' reads frames =>
          by_cases isFd : socket = fd
          · subst isFd
            obtain ⟨⟨fresh, -⟩, isNext⟩ := Option.ite_none_right_eq_some.mp handled
            have unreadEq := inStep.fresh fresh
            have joins : ∀ byte ∈ (wired.unread socket).head?,
                byte = FrameType.initiation.code := unreadEq ▸ earlier.joins
            have fits := receiveTyped_fits memory joins fun hung =>
              inStep.ended (of_decide_eq_true hung)
            change (receiveTyped .initiation memory (wired.results socket)).Fits _ _ at fits
            rw [received'] at fits
            refine inStep.read whole fits reads (Function.update_self ..) ?_ ?_ rfl
            · rcases frames with one | ⟨none, other⟩
              · rw [one]
                cases received with
                | frame found rest =>
                    obtain rfl := (List.cons.inj one).1
                    have isInitiation := joins _ (head?_of_nextFrame fits)
                    exact if_pos ⟨rfl, isInitiation⟩
                | _ => exact absurd one (by simp [Received.frames])
              · rw [none]
                exact if_neg fun both => other both.2
            · obtain rfl := Option.some.inj isNext
              exact List.mem_cons_self
          · exact inStep.congr rfl ((handledOn_move).trans (if_neg fun both => isFd both.1))
              (Function.update_of_ne (Ne.symm isFd) ..) (accepted_mono handled) id
      | @scanned slot socket event received isCurrent received' reads handles =>
          by_cases isFd : socket = fd
          · subst isFd
            have fits := receiveControlFrame_fits memory (wired.unread socket)
              (decide (socket ∈ wired.hungUp))
            change (receiveControlFrame memory (wired.results socket)).Fits _ _ at fits
            rw [received'] at fits
            have slots := System.SlotsAccepted.of_reachable reachable
            exact inStep.read whole fits reads (Function.update_self ..)
              ((handles socket).trans (if_pos rfl))
              (accepted_mono handled (slots slot socket (System.fdAt_of_current isCurrent))) rfl
          · exact inStep.congr rfl ((handledOn_move).trans ((handles fd).trans (if_neg isFd)))
              (Function.update_of_ne (Ne.symm isFd) ..) (accepted_mono handled) id

theorem of_run (run : (wiredSystem json).Run history wired) (orderly : Orderly fd history) :
    InStep fd history wired := by
  induction run with
  | initial isInitial => exact initial isInitial
  | step earlier moved ih =>
      exact (ih orderly.of_append).step orderly ⟨_, WiredMaster.frameEvents_run earlier⟩ moved

end InStep

/-- A client joins with a request in two pieces, and its keep-alive arrives
together with the beginning of a request. -/
def keepingAlive : List WireEvent :=
  let memory : StackMemory := ⟨fun _ => 0, fun _ => 0⟩
  (joiningPieces "a").map (.arrive 5) ++
    [.move memory (.join 5 "a"),
      .arrive 5 (headerBytes FrameType.keepAlive.code (0, 0, 0) 0 ++
        headerBytes FrameType.eventRegister.code (0, 0, 0) 26 ++ ascii "\x7b\"topic")] ++
    [.proceed, .proceed, .proceed, .popNew (ascii "a"), .proceed, .poll (.ready [5]),
      .control 5 ⟨FrameType.keepAlive.code, []⟩ [] none].map (.move memory)

theorem keepingAlive_orderly : Orderly 5 keepingAlive where
  joins := by decide +kernel
  whole before earlier := by
    have whole : ∀ before ∈ keepingAlive.inits, ¬ CutsHeader (arrivedOn 5 before) := by
      unfold CutsHeader
      decide +kernel
    exact whole before ((List.mem_inits _ _).mpr earlier)
  ends before earlier := by
    have hangsUp : .hangUp 5 ∈ keepingAlive := earlier.subset (by simp)
    simp [keepingAlive] at hangsUp

end UBus
