import UBus.Text

/-!
# Reading and writing a socket

`helpers.hpp` wraps `read` and `write` in loops that continue after a partial
transfer and after `EINTR`.  The kernel is a list of the results it gives to
successive calls, so every segmentation, interruption and failure is an input.
A `read` takes its bytes off the first entry; when the list ends it blocks.
A `write` beyond the end of the list takes everything it is given.
-/

namespace UBus

/-- A socket returned by `accept`. -/
abbrev Fd := Nat

/-- The values of `errno` the program tells apart. -/
inductive Errno where
  | eintr
  | epipe
  | other (code : Nat)
  deriving DecidableEq

/-- One result of `read`: some bytes, none at the end of the stream, or -1. -/
inductive ReadResult where
  | bytes (received : Bytes)
  | error (errno : Errno)
  deriving DecidableEq

/-- One result of `write`: the number of bytes taken, or -1. -/
inductive WriteResult where
  | wrote (count : Nat)
  | error (errno : Errno)
  deriving DecidableEq

/-- The conversion of an `ssize_t` to `size_t`: -1 becomes the largest value. -/
def toSizeT (value : Int) : Nat := (value % 2 ^ 64).toNat

/-- A finished `read` or `readn`: its return value, the bytes it stored, and
the results still to come. -/
structure ReadOutcome where
  ret : Int
  received : Bytes
  rest : List ReadResult

/-- One `read` of at most `requested` bytes; `none` while nothing has arrived. -/
def read (requested : Nat) : List ReadResult → Option ReadOutcome
  | [] => none
  | .bytes received :: rest =>
      if requested < received.length then
        some ⟨requested, received.take requested, .bytes (received.drop requested) :: rest⟩
      else some ⟨received.length, received, rest⟩
  | .error _ :: rest => some ⟨-1, [], rest⟩

/-- `readn`: `none` if it waits for bytes that never come. -/
def readn : Nat → List ReadResult → Option ReadOutcome
  | 0, results => some ⟨0, [], results⟩
  | _ + 1, [] => none
  | nleft + 1, .error errno :: rest =>
      if errno = .eintr then readn (nleft + 1) rest else some ⟨-1, [], rest⟩
  | nleft + 1, .bytes received :: rest =>
      if received = [] then some ⟨0, [], rest⟩
      else if nleft + 1 < received.length then
        some ⟨(nleft + 1 : Nat), received.take (nleft + 1),
          .bytes (received.drop (nleft + 1)) :: rest⟩
      else (readn (nleft + 1 - received.length) rest).map fun later =>
        { later with
          ret := if later.ret < 0 then -1 else later.ret + received.length
          received := received ++ later.received }

/-- A finished `writen`: whether it returned -1, the bytes that reached the
connection, `errno` afterwards, and the results still to come. -/
structure WriteOutcome where
  failed : Bool
  written : Bytes
  errno : Errno
  rest : List WriteResult

/-- `writen`.  A `write` that takes nothing fails without touching `errno`. -/
def writen (errno : Errno) : Bytes → List WriteResult → WriteOutcome
  | [], results => ⟨false, [], errno, results⟩
  | data, [] => ⟨false, data, errno, []⟩
  | _ :: _, .wrote 0 :: rest => ⟨true, [], errno, rest⟩
  | byte :: bytes, .wrote (count + 1) :: rest =>
      let later := writen errno ((byte :: bytes).drop (count + 1)) rest
      { later with written := (byte :: bytes).take (count + 1) ++ later.written }
  | byte :: bytes, .error cause :: rest =>
      if cause = .eintr then writen cause (byte :: bytes) rest else ⟨true, [], cause, rest⟩

def arrivedBytes (results : List ReadResult) : Bytes :=
  results.flatMap fun
    | .bytes received => received
    | .error _ => []

/-- An intact connection: partial reads and interruptions, but neither an end
of the stream nor an error. -/
def Intact (results : List ReadResult) : Prop :=
  ∀ result ∈ results, result = .error .eintr ∨ ∃ byte bytes, result = .bytes (byte :: bytes)

@[simp]
theorem arrivedBytes_nil : arrivedBytes [] = [] := rfl

@[simp]
theorem arrivedBytes_bytes (received : Bytes) (results : List ReadResult) :
    arrivedBytes (.bytes received :: results) = received ++ arrivedBytes results := rfl

@[simp]
theorem arrivedBytes_error (errno : Errno) (results : List ReadResult) :
    arrivedBytes (.error errno :: results) = arrivedBytes results := rfl

theorem arrivedBytes_append (first second : List ReadResult) :
    arrivedBytes (first ++ second) = arrivedBytes first ++ arrivedBytes second :=
  List.flatMap_append

theorem Intact.tail {result : ReadResult} {results : List ReadResult}
    (intact : Intact (result :: results)) : Intact results :=
  fun other member => intact other (List.mem_cons_of_mem _ member)

/-- One read result ends, or the connection starts, after `position` bytes. -/
def CutAt (results : List ReadResult) (position : Nat) : Prop :=
  ∃ front back, results = front ++ back ∧ (arrivedBytes front).length = position

@[simp]
theorem cutAt_cons {result : ReadResult} {results : List ReadResult} {position : Nat} :
    CutAt (result :: results) position ↔ position = 0 ∨
      ∃ later, CutAt results later ∧ position = (arrivedBytes [result]).length + later := by
  constructor
  · rintro ⟨front, back, split, rfl⟩
    cases front with
    | nil => exact Or.inl rfl
    | cons first front =>
        obtain ⟨rfl, rfl⟩ := List.cons.inj split
        refine Or.inr ⟨_, ⟨front, back, rfl, rfl⟩, ?_⟩
        rw [← List.length_append, ← arrivedBytes_append, List.singleton_append]
  · rintro (rfl | ⟨_, ⟨front, back, rfl, rfl⟩, rfl⟩)
    · exact ⟨[], result :: results, rfl, rfl⟩
    · refine ⟨result :: front, back, rfl, ?_⟩
      rw [← List.length_append, ← arrivedBytes_append, List.singleton_append]

/-- `rest` is what a connection still delivers after `count` bytes have been
read: the remaining bytes, cut where the connection cut them. -/
structure ReadsOff (count : Nat) (results rest : List ReadResult) : Prop where
  kinds : ∀ result ∈ rest, result ∈ results ∨ ∃ byte bytes, result = .bytes (byte :: bytes)
  remaining : arrivedBytes rest = (arrivedBytes results).drop count
  cuts : ∀ {position}, 0 < position → (CutAt rest position ↔ CutAt results (count + position))

theorem ReadsOff.refl (results : List ReadResult) : ReadsOff 0 results results where
  kinds := fun _ member => Or.inl member
  remaining := rfl
  cuts := fun _ => by rw [Nat.zero_add]

theorem ReadsOff.trans {first second : Nat} {results middle rest : List ReadResult}
    (before : ReadsOff first results middle) (after : ReadsOff second middle rest) :
    ReadsOff (first + second) results rest where
  kinds := by
    intro result member
    rcases after.kinds result member with old | piece
    · exact before.kinds result old
    · exact Or.inr piece
  remaining := by
    rw [after.remaining, before.remaining, List.drop_drop]
  cuts := by
    intro position positive
    rw [after.cuts positive, before.cuts (by omega), Nat.add_assoc]

theorem ReadsOff.intact {count : Nat} {results rest : List ReadResult}
    (off : ReadsOff count results rest) (intact : Intact results) : Intact rest := by
  intro result member
  rcases off.kinds result member with old | piece
  · exact intact result old
  · exact Or.inr piece

theorem ReadsOff.kinds_cons {count : Nat} {first : ReadResult} {results rest : List ReadResult}
    (off : ReadsOff count results rest) : ∀ result ∈ rest,
      result ∈ first :: results ∨ ∃ byte bytes, result = .bytes (byte :: bytes) :=
  fun result member => (off.kinds result member).imp_left (List.mem_cons_of_mem first)

theorem ReadsOff.of_piece {received : Bytes} (results : List ReadResult) {count : Nat}
    (inside : count < received.length) :
    ReadsOff count (.bytes received :: results) (.bytes (received.drop count) :: results) where
  kinds := by
    intro result member
    rcases List.mem_cons.mp member with rfl | later
    · right
      have nonempty : received.drop count ≠ [] := by simpa using inside
      obtain ⟨byte, bytes, split⟩ := List.exists_cons_of_ne_nil nonempty
      exact ⟨byte, bytes, by rw [split]⟩
    · exact Or.inl (List.mem_cons_of_mem _ later)
  remaining := by
    rw [arrivedBytes_bytes, arrivedBytes_bytes, List.drop_append_of_le_length (by omega)]
  cuts := by
    intro position positive
    simp only [cutAt_cons, arrivedBytes_bytes, arrivedBytes_nil, List.append_nil, List.length_drop]
    constructor
    · rintro (isZero | ⟨later, cut, rfl⟩)
      · omega
      · exact Or.inr ⟨later, cut, by omega⟩
    · rintro (isZero | ⟨later, cut, positionEq⟩)
      · omega
      · exact Or.inr ⟨later, cut, by omega⟩

theorem readn_intact (count : Nat) {results : List ReadResult} (intact : Intact results)
    (enough : count ≤ (arrivedBytes results).length) :
    ∃ rest, readn count results = some ⟨count, (arrivedBytes results).take count, rest⟩ ∧
      ReadsOff count results rest := by
  induction results generalizing count with
  | nil =>
      have isZero : count = 0 := by simpa using enough
      subst isZero
      exact ⟨[], by simp [readn], .refl []⟩
  | cons result results ih =>
      cases count with
      | zero =>
          exact ⟨result :: results, by simp [readn], .refl _⟩
      | succ count =>
          rcases intact result (by simp) with rfl | ⟨byte, bytes, rfl⟩
          · obtain ⟨rest, readEq, off⟩ := ih (count + 1) intact.tail enough
            refine ⟨rest, by simpa [readn] using readEq, off.kinds_cons, off.remaining, ?_⟩
            intro position positive
            simp [off.cuts positive]
          · by_cases inside : count + 1 < (byte :: bytes).length
            · refine ⟨.bytes ((byte :: bytes).drop (count + 1)) :: results, ?_,
                .of_piece results inside⟩
              rw [arrivedBytes_bytes, List.take_append_of_le_length (by omega)]
              simp only [readn, reduceCtorEq, if_pos inside, if_false]
            · -- the whole piece is stored and the loop goes on
              have leftover : count + 1 - (byte :: bytes).length ≤
                  (arrivedBytes results).length := by
                simp only [arrivedBytes_bytes, List.length_append] at enough
                omega
              obtain ⟨rest, readEq, off⟩ := ih _ intact.tail leftover
              refine ⟨rest, ?_, off.kinds_cons, ?_, ?_⟩
              · have total : ((count + 1 - (byte :: bytes).length : Nat) : Int) +
                    (byte :: bytes).length = ((count + 1 : Nat) : Int) := by
                  omega
                have nonneg : ¬ ((count + 1 - (byte :: bytes).length : Nat) : Int) < 0 := by
                  omega
                rw [arrivedBytes_bytes, List.take_append,
                  List.take_of_length_le (l := byte :: bytes) (by omega)]
                simp only [readn, if_neg inside, readEq, Option.map_some, if_neg nonneg, total]
                simp
              · rw [off.remaining, arrivedBytes_bytes, List.drop_append,
                  List.drop_of_length_le (l := byte :: bytes) (by omega), List.nil_append]
              · intro position positive
                rw [off.cuts positive, cutAt_cons, arrivedBytes_bytes, arrivedBytes_nil,
                  List.append_nil]
                constructor
                · exact fun cut => Or.inr ⟨_, cut, by omega⟩
                · rintro (isZero | ⟨later, cut, positionEq⟩)
                  · omega
                  · exact (show later = count + 1 - (byte :: bytes).length + position by
                      omega) ▸ cut

/-- `readn` waits on an intact connection that carries too few bytes. -/
theorem readn_incomplete {count : Nat} {results : List ReadResult} (intact : Intact results)
    (tooFew : (arrivedBytes results).length < count) : readn count results = none := by
  induction results generalizing count with
  | nil =>
      obtain ⟨later, rfl⟩ : ∃ later, count = later + 1 := ⟨count - 1, by simp at tooFew; omega⟩
      rfl
  | cons result results ih =>
      obtain ⟨later, rfl⟩ : ∃ later, count = later + 1 := ⟨count - 1, by omega⟩
      rcases intact result (by simp) with rfl | ⟨byte, bytes, rfl⟩
      · simpa [readn] using ih intact.tail tooFew
      · rw [arrivedBytes_bytes, List.length_append] at tooFew
        have notInside : ¬ later + 1 < (byte :: bytes).length := by omega
        have waits : readn (later + 1 - (byte :: bytes).length) results = none :=
          ih intact.tail (by omega)
        simp only [readn, if_neg notInside, waits, reduceCtorEq, if_false, Option.map_none]

def Progressing (results : List WriteResult) : Prop :=
  ∀ result ∈ results, result = .error .eintr ∨ ∃ count, result = .wrote (count + 1)

theorem writen_progressing (data : Bytes) {results : List WriteResult} (errno : Errno)
    (progressing : Progressing results) :
    (writen errno data results).failed = false ∧ (writen errno data results).written = data ∧
      Progressing (writen errno data results).rest := by
  induction results generalizing data errno with
  | nil =>
      cases data <;> exact ⟨rfl, rfl, progressing⟩
  | cons result results ih =>
      have later : Progressing results :=
        fun other member => progressing other (List.mem_cons_of_mem _ member)
      cases data with
      | nil => exact ⟨rfl, rfl, progressing⟩
      | cons byte bytes =>
          rcases progressing result (by simp) with rfl | ⟨count, rfl⟩
          · simpa [writen] using ih (byte :: bytes) .eintr later
          · obtain ⟨completed, written, remaining⟩ :=
              ih ((byte :: bytes).drop (count + 1)) errno later
            refine ⟨completed, ?_, remaining⟩
            change (byte :: bytes).take (count + 1) ++ _ = _
            rw [written, List.take_append_drop]

end UBus
