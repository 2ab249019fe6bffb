import UBus.Library.EventSystem
import Mathlib.Data.Set.Finite.Lemmas

/-!
# Locks taken in the order of their ranks

Threads take locks through scoped guards: a lock is held exactly while the
body of its guard runs, so locks are released in the opposite order.  A lock
is taken for shared or for exclusive use, and a shared request also waits
behind an exclusive one.  If every guard lies inside guards of smaller rank
only, then the threads never block each other in a circle.
-/

inductive LockMode where
  | shared
  | exclusive
  deriving DecidableEq

inductive LockProgram (Lock : Type*) where
  | skip
  | guarded (lock : Lock) (mode : LockMode) (body : LockProgram Lock)
  | seq (first second : LockProgram Lock)
  | choice (first second : LockProgram Lock)
  | loop (body : LockProgram Lock)

namespace LockProgram

variable {Lock : Type*}

def oneOf : List (LockProgram Lock) → LockProgram Lock
  | [] => skip
  | program :: programs => choice program (oneOf programs)

/-- All locks have at least the rank `floor`, and a larger rank than the locks
around them. -/
def Ascends (rank : Lock → Nat) (floor : Nat) : LockProgram Lock → Prop
  | skip => True
  | guarded lock _ body => floor ≤ rank lock ∧ body.Ascends rank (rank lock + 1)
  | seq first second => first.Ascends rank floor ∧ second.Ascends rank floor
  | choice first second => first.Ascends rank floor ∧ second.Ascends rank floor
  | loop body => body.Ascends rank floor

def Ascends.decide (rank : Lock → Nat) :
    (floor : Nat) → (program : LockProgram Lock) → Decidable (program.Ascends rank floor)
  | _, skip => .isTrue trivial
  | floor, guarded lock _ body =>
      have := decide rank (rank lock + 1) body
      inferInstanceAs (Decidable (floor ≤ rank lock ∧ body.Ascends rank (rank lock + 1)))
  | floor, seq first second | floor, choice first second =>
      have := decide rank floor first
      have := decide rank floor second
      inferInstanceAs (Decidable (first.Ascends rank floor ∧ second.Ascends rank floor))
  | floor, loop body => decide rank floor body

instance (rank : Lock → Nat) (floor : Nat) (program : LockProgram Lock) :
    Decidable (program.Ascends rank floor) := Ascends.decide rank floor program

end LockProgram

inductive LockTask (Lock : Type*) where
  | run (program : LockProgram Lock)
  | await (lock : Lock) (mode : LockMode) (body : LockProgram Lock)
  | release (lock : Lock) (mode : LockMode)

/-- A thread in the middle of its program, with the locks it holds, newest
first. -/
structure LockThread (Lock : Type*) where
  held : List (Lock × LockMode)
  todo : List (LockTask Lock)

namespace LockThread

variable {Lock : Type*}

def request (thread : LockThread Lock) : Option (Lock × LockMode) :=
  match thread.todo with
  | .await lock mode _ :: _ => some (lock, mode)
  | _ => none

/-- A thread stands in the way of a request: it holds the lock and one of the
two uses is exclusive, or it waits for the lock exclusively and the request is
shared. -/
def Obstructs (thread : LockThread Lock) (wanted : Lock × LockMode) : Prop :=
  (∃ owned ∈ thread.held,
      owned.1 = wanted.1 ∧ (owned.2 = .exclusive ∨ wanted.2 = .exclusive)) ∨
    wanted.2 = .shared ∧ thread.request = some (wanted.1, .exclusive)

instance [DecidableEq Lock] (thread : LockThread Lock) (wanted : Lock × LockMode) :
    Decidable (thread.Obstructs wanted) :=
  inferInstanceAs (Decidable (_ ∨ _))

/-- One step of a thread.  `first` decides at a branch, and whether a loop goes
round again. -/
def advance [DecidableEq Lock] (thread : LockThread Lock) (first : Bool)
    (grants : Lock × LockMode → Bool) : Option (LockThread Lock) :=
  match thread.todo with
  | [] => none
  | .run .skip :: rest => some { thread with todo := rest }
  | .run (.guarded lock mode body) :: rest =>
      some { thread with todo := .await lock mode body :: rest }
  | .run (.seq before after) :: rest =>
      some { thread with todo := .run before :: .run after :: rest }
  | .run (.choice left right) :: rest =>
      some { thread with todo := .run (if first then left else right) :: rest }
  | .run (.loop body) :: rest =>
      some { thread with
        todo := if first then .run body :: .run (.loop body) :: rest else rest }
  | .await lock mode body :: rest =>
      if grants (lock, mode) then
        some ⟨(lock, mode) :: thread.held, .run body :: .release lock mode :: rest⟩
      else none
  | .release lock mode :: rest => some ⟨thread.held.erase (lock, mode), rest⟩

/-- The tasks of a thread release the locks it holds in order, and take locks
only above them. -/
def Ordered (rank : Lock → Nat) : List (LockTask Lock) → List (Lock × LockMode) → Prop
  | [], held => held = []
  | .run program :: rest, held =>
      (∃ floor, (∀ owned ∈ held, rank owned.1 < floor) ∧ program.Ascends rank floor) ∧
        Ordered rank rest held
  | .await lock _ body :: rest, held =>
      (∀ owned ∈ held, rank owned.1 < rank lock) ∧ body.Ascends rank (rank lock + 1) ∧
        Ordered rank rest held
  | .release lock mode :: rest, held =>
      ∃ outer, held = (lock, mode) :: outer ∧ Ordered rank rest outer

variable {rank : Lock → Nat} {thread next : LockThread Lock}

theorem Ordered.advance [DecidableEq Lock] (ordered : Ordered rank thread.todo thread.held)
    {first : Bool} {grants : Lock × LockMode → Bool}
    (advanced : thread.advance first grants = some next) :
    Ordered rank next.todo next.held := by
  obtain ⟨held, todo⟩ := thread
  match todo with
  | [] => simp [LockThread.advance] at advanced
  | .run .skip :: rest =>
      obtain rfl := Option.some.inj advanced
      exact ordered.2
  | .run (.guarded lock mode body) :: rest =>
      obtain rfl := Option.some.inj advanced
      obtain ⟨⟨floor, below, above, ascends⟩, later⟩ := ordered
      exact ⟨fun owned member => (below owned member).trans_le above, ascends, later⟩
  | .run (.seq before after) :: rest =>
      obtain rfl := Option.some.inj advanced
      obtain ⟨⟨floor, below, beforeAscends, afterAscends⟩, later⟩ := ordered
      exact ⟨⟨floor, below, beforeAscends⟩, ⟨floor, below, afterAscends⟩, later⟩
  | .run (.choice left right) :: rest =>
      obtain rfl := Option.some.inj advanced
      obtain ⟨⟨floor, below, leftAscends, rightAscends⟩, later⟩ := ordered
      cases first with
      | true => exact ⟨⟨floor, below, leftAscends⟩, later⟩
      | false => exact ⟨⟨floor, below, rightAscends⟩, later⟩
  | .run (.loop body) :: rest =>
      obtain rfl := Option.some.inj advanced
      obtain ⟨⟨floor, below, ascends⟩, later⟩ := ordered
      cases first with
      | true => exact ⟨⟨floor, below, ascends⟩, ⟨floor, below, ascends⟩, later⟩
      | false => exact later
  | .await lock mode body :: rest =>
      simp only [LockThread.advance, Option.ite_none_right_eq_some] at advanced
      obtain rfl := Option.some.inj advanced.2
      obtain ⟨below, ascends, later⟩ := ordered
      refine ⟨⟨rank lock + 1, fun owned member => ?_, ascends⟩, held, rfl, later⟩
      rcases List.mem_cons.mp member with rfl | older
      · exact Nat.lt_succ_self _
      · exact (below owned older).trans (Nat.lt_succ_self _)
  | .release lock mode :: rest =>
      obtain rfl := Option.some.inj advanced
      obtain ⟨outer, rfl, later⟩ := ordered
      simpa using later

/-- A thread holds only locks of smaller rank than the lock it waits for. -/
theorem Ordered.held_lt (ordered : Ordered rank thread.todo thread.held)
    {wanted : Lock × LockMode} (requested : thread.request = some wanted) :
    ∀ owned ∈ thread.held, rank owned.1 < rank wanted.1 := by
  obtain ⟨held, todo⟩ := thread
  match todo with
  | [] | .run _ :: _ | .release _ _ :: _ => cases requested
  | .await lock mode body :: rest =>
      obtain rfl := Option.some.inj requested
      exact ordered.1

theorem waits_of_halted [DecidableEq Lock] {first : Bool} {grants : Lock × LockMode → Bool}
    (halted : thread.advance first grants = none) (unfinished : thread.todo ≠ []) :
    ∃ wanted, thread.request = some wanted ∧ grants wanted = false := by
  obtain ⟨held, todo⟩ := thread
  match todo with
  | [] => exact absurd rfl unfinished
  | .run .skip :: _ | .run (.guarded ..) :: _ | .run (.seq ..) :: _ | .run (.choice ..) :: _
  | .run (.loop _) :: _ | .release .. :: _ => cases halted
  | .await lock mode body :: rest =>
      refine ⟨(lock, mode), rfl, ?_⟩
      simpa [LockThread.advance] using halted

end LockThread

namespace LockProgram

variable {Lock Thread : Type*} [DecidableEq Lock] [DecidableEq Thread] [Fintype Thread]

def grants (config : Thread → LockThread Lock) (wanted : Lock × LockMode) : Bool :=
  decide (∀ thread, ¬ (config thread).Obstructs wanted)

def system (programs : Thread → LockProgram Lock) :
    EventSystem (Thread → LockThread Lock) (Thread × Bool) where
  Initial config := ∀ thread, config thread = ⟨[], [.run (programs thread)]⟩
  step config event :=
    ((config event.1).advance event.2 (grants config)).map (Function.update config event.1)

/-- Each of these threads waits, and one of them stands in its way. -/
structure Deadlock (config : Thread → LockThread Lock) (threads : Set Thread) : Prop where
  nonempty : threads.Nonempty
  waiting : ∀ thread ∈ threads, ∃ wanted, (config thread).request = some wanted ∧
    ∃ other ∈ threads, (config other).Obstructs wanted

/-- Requests in the order in which they can wait for each other: by rank, and
for one lock the shared before the exclusive. -/
def level (rank : Lock → Nat) (wanted : Lock × LockMode) : Nat :=
  2 * rank wanted.1 + if wanted.2 = .shared then 0 else 1

section Ranked

variable {programs : Thread → LockProgram Lock} {rank : Lock → Nat}
  (ascends : ∀ thread, (programs thread).Ascends rank 0) {config : Thread → LockThread Lock}
  (reachable : (system programs).Reachable config)
include ascends reachable

theorem reachable_ordered (thread : Thread) :
    LockThread.Ordered rank (config thread).todo (config thread).held := by
  revert thread
  refine reachable.invariant
    (fun config => ∀ thread, LockThread.Ordered rank (config thread).todo (config thread).held)
    ?_ ?_
  · intro config initial thread
    rw [initial]
    exact ⟨⟨0, by simp, ascends thread⟩, rfl⟩
  · intro config event config' ordered moved thread
    obtain ⟨next, advanced, rfl⟩ := Option.map_eq_some_iff.mp moved
    by_cases mover : thread = event.1
    · subst mover
      simpa using (ordered event.1).advance advanced
    · simpa [mover] using ordered thread

theorem level_lt {other : Thread} {wanted otherWanted : Lock × LockMode}
    (inTheWay : (config other).Obstructs wanted)
    (requested : (config other).request = some otherWanted) :
    level rank wanted < level rank otherWanted := by
  unfold level
  rcases inTheWay with ⟨owned, member, same, -⟩ | ⟨isShared, waits⟩
  · have below := (reachable_ordered ascends reachable other).held_lt requested owned member
    rw [same] at below
    split_ifs <;> omega
  · obtain rfl := Option.some.inj (waits.symm.trans requested)
    simp [isShared]

theorem no_deadlock (threads : Set Thread) : ¬ Deadlock config threads := by
  intro deadlock
  let height (thread : Thread) : WithBot Nat := (config thread).request.map (level rank)
  -- the thread whose request is on the highest level waits for another one
  obtain ⟨thread, member, highest⟩ :=
    threads.toFinite.exists_maximalFor height _ deadlock.nonempty
  obtain ⟨wanted, requested, other, otherMember, inTheWay⟩ := deadlock.waiting thread member
  obtain ⟨otherWanted, otherRequested, -⟩ := deadlock.waiting other otherMember
  have higher : height thread < height other := by
    simp only [height, requested, otherRequested, Option.map_some]
    exact WithBot.coe_lt_coe.mpr (level_lt ascends reachable inTheWay otherRequested)
  exact absurd (highest otherMember higher.le) (not_le_of_gt higher)

theorem held_ne_request {thread : Thread} {wanted owned : Lock × LockMode}
    (requested : (config thread).request = some wanted)
    (member : owned ∈ (config thread).held) : owned.1 ≠ wanted.1 := by
  intro same
  have below := (reachable_ordered ascends reachable thread).held_lt requested owned member
  rw [same] at below
  exact absurd below (Nat.lt_irrefl _)

/-- As long as not all threads have finished, one of them can go on. -/
theorem progress :
    (∀ thread, (config thread).todo = []) ∨
      ∃ event config', (system programs).step config event = some config' := by
  by_contra stuck
  push Not at stuck
  obtain ⟨⟨thread, unfinished⟩, stopped⟩ := stuck
  refine no_deadlock ascends reachable {thread | (config thread).todo ≠ []}
    ⟨⟨thread, unfinished⟩, fun thread unfinished => ?_⟩
  have halted : (config thread).advance true (grants config) = none := by
    cases advanced : (config thread).advance true (grants config) with
    | none => rfl
    | some next =>
        refine absurd ?_ (stopped (thread, true) (Function.update config thread next))
        simp [system, advanced]
  obtain ⟨wanted, requested, refused⟩ := LockThread.waits_of_halted halted unfinished
  obtain ⟨other, inTheWay⟩ : ∃ other, (config other).Obstructs wanted := by
    simpa [grants] using refused
  refine ⟨wanted, requested, other, ?_, inTheWay⟩
  intro finished
  have ordered := reachable_ordered ascends reachable other
  rw [finished] at ordered
  rcases inTheWay with ⟨owned, member, -⟩ | ⟨-, waits⟩
  · rw [ordered] at member
    simp at member
  · simp [LockThread.request, finished] at waits

end Ranked

end LockProgram
