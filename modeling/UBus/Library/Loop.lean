import Mathlib.Tactic

/-!
# Loops that come to an end

The body of a loop fails, goes on with a smaller state, or leaves with a
result.  Such a loop always comes to an end, and what it returns is determined
by one round after the other.
-/

structure Loop (State Result : Type*) where
  body : State → Option (State ⊕ Result)
  size : State → Nat
  shrinks : ∀ {state next}, body state = some (.inl next) → size next < size state

namespace Loop

variable {State Result : Type*} (loop : Loop State Result)

/-- At most `rounds` rounds. -/
def runFor : Nat → State → Option Result
  | 0, _ => none
  | rounds + 1, state =>
      (loop.body state).bind fun
        | .inl next => runFor rounds next
        | .inr result => some result

/-- The size of a state bounds the rounds that it needs. -/
def run (state : State) : Option Result := loop.runFor (loop.size state + 1) state

variable {loop} {state next : State} {result : Result}

theorem runFor_eq {first second : Nat} (firstEnough : loop.size state < first)
    (secondEnough : loop.size state < second) :
    loop.runFor first state = loop.runFor second state := by
  induction first generalizing second state with
  | zero => exact absurd firstEnough (Nat.not_lt_zero _)
  | succ first ih =>
      obtain ⟨second, rfl⟩ : ∃ fewer, second = fewer + 1 := ⟨second - 1, by omega⟩
      unfold runFor
      cases performed : loop.body state with
      | none => rfl
      | some outcome =>
          cases outcome with
          | inr result => rfl
          | inl next =>
              have smaller := loop.shrinks performed
              exact ih (by omega) (by omega)

theorem run_of_next (performed : loop.body state = some (.inl next)) :
    loop.run state = loop.run next := by
  have smaller := loop.shrinks performed
  have same : loop.runFor (loop.size state) next = loop.runFor (loop.size next + 1) next :=
    runFor_eq smaller (Nat.lt_succ_self _)
  rw [run, runFor, performed, Option.bind_some]
  exact same

theorem run_of_result (performed : loop.body state = some (.inr result)) :
    loop.run state = some result := by
  rw [run, runFor, performed, Option.bind_some]

theorem run_of_none (performed : loop.body state = none) : loop.run state = none := by
  rw [run, runFor, performed, Option.bind_none]

end Loop
