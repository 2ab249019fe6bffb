import Mathlib.Tactic

/-!
# Systems that move on events

A system has initial states and a partial step function: an event that a
state does not admit has no successor.  Events are observable, so a run is
remembered by the list of its events, oldest first.  Restricting a system to
the steps that meet a guard gives a system again, which is how statements
about "every run whose steps all meet a condition" are expressed.
-/

/-- A set of initial states and a deterministic step for each event. -/
structure EventSystem (State Event : Type*) where
  Initial : State → Prop
  step : State → Event → Option State

namespace EventSystem

variable {State Event : Type*} (system : EventSystem State Event)

/-- `Run history state`: the events of `history` lead from some initial state
to `state`. -/
inductive Run : List Event → State → Prop
  | initial {state : State} : system.Initial state → Run [] state
  | step {history : List Event} {state next : State} {event : Event} :
      Run history state → system.step state event = some next →
        Run (history ++ [event]) next

def Reachable (state : State) : Prop := ∃ history, system.Run history state

/-- The same system, moving only where the guard allows it. -/
def restrict (guard : State → Event → Prop) [∀ state event, Decidable (guard state event)] :
    EventSystem State Event where
  Initial := system.Initial
  step state event := if guard state event then system.step state event else none

def steps : State → List Event → Option State
  | state, [] => some state
  | state, event :: events => (system.step state event).bind fun next => steps next events

def after (state : State) (events : List Event) : State :=
  (system.steps state events).getD state

/-- The same system with a history variable, which is updated at every event
and restricts nothing. -/
def observe {Note : Type*} (start : Note) (update : State → Event → Note → Note) :
    EventSystem (State × Note) Event where
  Initial state := system.Initial state.1 ∧ state.2 = start
  step state event :=
    (system.step state.1 event).map fun next => (next, update state.1 event state.2)

variable {system}

/-- What holds initially and is preserved by every step holds on every run. -/
theorem Run.invariant (Invariant : State → Prop)
    (initial : ∀ state, system.Initial state → Invariant state)
    (preserved : ∀ state event next, Invariant state → system.step state event = some next →
      Invariant next)
    {history : List Event} {state : State} (run : system.Run history state) :
    Invariant state := by
  induction run with
  | initial isInitial => exact initial _ isInitial
  | step _ moved ih => exact preserved _ _ _ ih moved

theorem Reachable.invariant (Invariant : State → Prop)
    (initial : ∀ state, system.Initial state → Invariant state)
    (preserved : ∀ state event next, Invariant state → system.step state event = some next →
      Invariant next)
    {state : State} (reachable : system.Reachable state) : Invariant state := by
  obtain ⟨history, run⟩ := reachable
  exact run.invariant Invariant initial preserved

/-- The same rule, where a step may use that it starts in a reachable state. -/
theorem Reachable.invariant_of_reachable (Invariant : State → Prop)
    (initial : ∀ state, system.Initial state → Invariant state)
    (preserved : ∀ state event next, system.Reachable state → Invariant state →
      system.step state event = some next → Invariant next)
    {state : State} (reachable : system.Reachable state) : Invariant state := by
  have both : system.Reachable state ∧ Invariant state := by
    refine reachable.invariant (fun state => system.Reachable state ∧ Invariant state)
      (fun state isInitial => ⟨⟨[], .initial isInitial⟩, initial state isInitial⟩) ?_
    rintro state event next ⟨⟨history, run⟩, invariant⟩ moved
    exact ⟨⟨_, run.step moved⟩, preserved state event next ⟨history, run⟩ invariant moved⟩
  exact both.2

theorem step_restrict {guard : State → Event → Prop}
    [∀ state event, Decidable (guard state event)] {state next : State} {event : Event} :
    (system.restrict guard).step state event = some next ↔
      guard state event ∧ system.step state event = some next := by
  simp only [restrict]
  split_ifs with allowed <;> simp [allowed]

theorem Run.of_restrict {guard : State → Event → Prop}
    [∀ state event, Decidable (guard state event)] {history : List Event} {state : State}
    (run : (system.restrict guard).Run history state) : system.Run history state := by
  induction run with
  | initial isInitial => exact .initial isInitial
  | step _ moved ih => exact .step ih (step_restrict.mp moved).2

theorem Reachable.of_restrict {guard : State → Event → Prop}
    [∀ state event, Decidable (guard state event)] {state : State}
    (reachable : (system.restrict guard).Reachable state) : system.Reachable state :=
  reachable.imp fun _ run => run.of_restrict

theorem Run.extend {history events : List Event} {state next : State}
    (run : system.Run history state) (performed : system.steps state events = some next) :
    system.Run (history ++ events) next := by
  induction events generalizing history state with
  | nil =>
      obtain rfl := Option.some.inj performed
      simpa using run
  | cons event events ih =>
      obtain ⟨middle, moved, later⟩ := Option.bind_eq_some_iff.mp performed
      simpa using ih (.step run moved) later

theorem steps_append (state : State) (events later : List Event) :
    system.steps state (events ++ later) =
      (system.steps state events).bind fun next => system.steps next later := by
  induction events generalizing state with
  | nil => rfl
  | cons event events ih =>
      rw [List.cons_append, steps, steps, Option.bind_assoc]
      congr 1
      funext next
      exact ih next

theorem steps_after {state : State} {events : List Event}
    (possible : (system.steps state events).isSome) :
    system.steps state events = some (system.after state events) := by
  obtain ⟨next, performed⟩ := Option.isSome_iff_exists.mp possible
  rw [after, performed]
  rfl

/-- A guard that lets all events of a list pass restricts nothing there. -/
theorem steps_restrict {guard : State → Event → Prop}
    [∀ state event, Decidable (guard state event)] {events : List Event}
    (allowed : ∀ event ∈ events, ∀ state, guard state event) (state : State) :
    (system.restrict guard).steps state events = system.steps state events := by
  induction events generalizing state with
  | nil => rfl
  | cons event events ih =>
      have moved : (system.restrict guard).step state event = system.step state event :=
        if_pos (allowed event (by simp) state)
      rw [steps, steps, moved]
      congr 1
      funext next
      exact ih (fun other member => allowed other (by simp [member])) next

section Observe

variable {Note : Type*} {start : Note} {update : State → Event → Note → Note}

theorem step_observe {state next : State} {note later : Note} {event : Event} :
    (system.observe start update).step (state, note) event = some (next, later) ↔
      system.step state event = some next ∧ update state event note = later := by
  simp [observe]

theorem Reachable.of_observe {state : State} {note : Note}
    (reachable : (system.observe start update).Reachable (state, note)) :
    system.Reachable state := by
  refine reachable.invariant (fun state => system.Reachable state.1) ?_ ?_
  · rintro state ⟨isInitial, -⟩
    exact ⟨[], .initial isInitial⟩
  · rintro ⟨state, note⟩ event ⟨next, later⟩ ⟨history, run⟩ moved
    exact ⟨_, run.step (step_observe.mp moved).1⟩

theorem steps_observe {events : List Event}
    (unchanged : ∀ event ∈ events, ∀ state note, update state event note = note) (state : State)
    (note : Note) :
    (system.observe start update).steps (state, note) events =
      (system.steps state events).map fun next => (next, note) := by
  induction events generalizing state with
  | nil => rfl
  | cons event events ih =>
      have observed : (system.observe start update).step (state, note) event =
          (system.step state event).map fun next => (next, note) := by
        simp only [observe, unchanged event (by simp)]
      rw [steps, steps, observed]
      cases system.step state event with
      | none => rfl
      | some next => exact ih (fun other member => unchanged other (by simp [member])) next

end Observe

theorem run_of_steps {state next : State} {events : List Event} (initial : system.Initial state)
    (performed : system.steps state events = some next) : system.Run events next := by
  simpa using Run.extend (.initial initial) performed

theorem Run.exists_extend {history : List Event} {state : State}
    (run : system.Run history state) (events : List Event) (property : State → Prop)
    [DecidablePred property]
    (performed : (system.steps state events).any fun next => decide (property next)) :
    ∃ next, system.Run (history ++ events) next ∧ property next := by
  cases stepsEq : system.steps state events with
  | none => simp [stepsEq] at performed
  | some next =>
      rw [stepsEq] at performed
      exact ⟨next, run.extend stepsEq, of_decide_eq_true performed⟩

theorem exists_run_of_steps (system : EventSystem State Event) {state : State}
    (events : List Event) (property : State → Prop) [DecidablePred property]
    (initial : system.Initial state)
    (performed : (system.steps state events).any fun next => decide (property next)) :
    ∃ next, system.Run events next ∧ property next := by
  simpa using Run.exists_extend (.initial initial) events property performed

theorem Run.split {before after : List Event} {event : Event} {state : State}
    (run : system.Run (before ++ event :: after) state) :
    ∃ earlier later, system.Run before earlier ∧ system.step earlier event = some later := by
  generalize historyEq : before ++ event :: after = history at run
  induction run generalizing after with
  | initial => simp at historyEq
  | @step history state next last run moved ih =>
      rcases List.eq_nil_or_concat after with rfl | ⟨after', final, rfl⟩
      · obtain ⟨rfl, sameEvent⟩ := List.append_inj' historyEq rfl
        obtain rfl := List.cons.inj sameEvent |>.1
        exact ⟨state, next, run, moved⟩
      · have regrouped : (before ++ event :: after') ++ [final] = history ++ [last] := by
          simpa using historyEq
        exact ih (List.append_inj' regrouped rfl).1

end EventSystem

/-- At some point of the history an event started something, given what had
happened before it, and no later event has ended it. -/
def Since {Event : Type*} (started : List Event → Event → Prop) (ended : Event → Prop)
    (history : List Event) : Prop :=
  ∃ before event after, history = before ++ event :: after ∧ started before event ∧
    ∀ later ∈ after, ¬ ended later

namespace Since

variable {Event : Type*} {started : List Event → Event → Prop} {ended : Event → Prop}

theorem not_nil : ¬ Since started ended [] := by
  rintro ⟨before, event, after, historyEq, -⟩
  simp at historyEq

/-- The newest event starts it, or it held before and the newest event does
not end it. -/
theorem snoc {history : List Event} {event : Event} :
    Since started ended (history ++ [event]) ↔
      started history event ∨ Since started ended history ∧ ¬ ended event := by
  constructor
  · rintro ⟨before, first, after, historyEq, isStart, notEnded⟩
    rcases List.eq_nil_or_concat after with rfl | ⟨after', last, rfl⟩
    · obtain ⟨rfl, sameEvent⟩ := List.append_inj' historyEq rfl
      obtain rfl := (List.cons.inj sameEvent).1
      exact Or.inl isStart
    · have regrouped : history ++ [event] = (before ++ first :: after') ++ [last] := by
        simpa using historyEq
      obtain ⟨rfl, sameEvent⟩ := List.append_inj' regrouped rfl
      obtain rfl := (List.cons.inj sameEvent).1
      exact Or.inr ⟨⟨before, first, after', rfl, isStart,
        fun later member => notEnded later (by simp [member])⟩, notEnded event (by simp)⟩
  · rintro (isStart | ⟨⟨before, first, after, rfl, isStart, notEnded⟩, notEnd⟩)
    · exact ⟨history, event, [], rfl, isStart, by simp⟩
    · refine ⟨before, first, after ++ [event], by simp, isStart, fun later member => ?_⟩
      rcases List.mem_append.mp member with older | newest
      · exact notEnded later older
      · exact (List.mem_singleton.mp newest) ▸ notEnd

end Since
