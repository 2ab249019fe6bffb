import Mathlib.Tactic

/-!
# Interleavings

Two sequential threads acting on one shared object produce an interleaving of
their two sequences of actions: each sequence keeps its own order, and nothing
else is promised about the order.
-/

/-- `Interleaving first second merged`: `merged` runs through both sequences,
each in its own order. -/
inductive Interleaving {Action : Type*} :
    List Action → List Action → List Action → Prop
  | nil : Interleaving [] [] []
  | left {first second merged : List Action} (action : Action) :
      Interleaving first second merged →
        Interleaving (action :: first) second (action :: merged)
  | right {first second merged : List Action} (action : Action) :
      Interleaving first second merged →
        Interleaving first (action :: second) (action :: merged)

namespace Interleaving

variable {Action : Type*} {first second merged : List Action}

theorem mem (interleaved : Interleaving first second merged) {action : Action}
    (member : action ∈ merged) : action ∈ first ∨ action ∈ second := by
  induction interleaved with
  | nil => simp at member
  | left head _ ih =>
      rcases List.mem_cons.mp member with isHead | later
      · simp [isHead]
      · rcases ih later with inFirst | inSecond
        · simp [inFirst]
        · simp [inSecond]
  | right head _ ih =>
      rcases List.mem_cons.mp member with isHead | later
      · simp [isHead]
      · rcases ih later with inFirst | inSecond
        · simp [inFirst]
        · simp [inSecond]

theorem mem_of_mem_second (interleaved : Interleaving first second merged)
    {action : Action} (member : action ∈ second) : action ∈ merged := by
  induction interleaved with
  | nil => simp at member
  | left head _ ih => simp [ih member]
  | right head _ ih =>
      rcases List.mem_cons.mp member with isHead | later
      · simp [isHead]
      · simp [ih later]

end Interleaving
