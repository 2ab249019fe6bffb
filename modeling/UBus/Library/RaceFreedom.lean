import UBus.Library.RankedLocks

/-!
# Programs whose accesses do not race

The accesses of a thread to shared variables are written like guards: an access
goes on while its variable is held, for exclusive use if it writes.  Two threads
race if they are at conflicting accesses to one variable at once.  They never
do, in any interleaving, if the locks around conflicting accesses exclude each
other.
-/

/-- An access, and the locks that are held around it. -/
structure AccessSite (Lock Variable : Type*) where
  locks : List (Lock × LockMode)
  target : Variable
  mode : LockMode

/-- Uses of one lock, or accesses to one variable, that must not overlap. -/
def LockMode.Conflict (first second : LockMode) : Prop := first = .exclusive ∨ second = .exclusive

instance (first second : LockMode) : Decidable (first.Conflict second) :=
  inferInstanceAs (Decidable (_ ∨ _))

theorem LockMode.Conflict.symm {first second : LockMode} (conflict : first.Conflict second) :
    second.Conflict first :=
  Or.symm conflict

namespace AccessSite

variable {Lock Variable : Type*}

/-- The sites conflict, but some lock around both keeps them apart. -/
def Excludes (first second : AccessSite Lock Variable) : Prop :=
  first.target = second.target → first.mode.Conflict second.mode →
    ∃ owned ∈ first.locks, ∃ other ∈ second.locks, owned.1 = other.1 ∧ owned.2.Conflict other.2

instance [DecidableEq Lock] [DecidableEq Variable] (first second : AccessSite Lock Variable) :
    Decidable (first.Excludes second) :=
  inferInstanceAs (Decidable (_ → _ → _))

end AccessSite

namespace LockProgram

variable {Lock Variable : Type*}

def reads (target : Variable) : LockProgram (Lock ⊕ Variable) := guarded (.inr target) .shared skip

def writes (target : Variable) : LockProgram (Lock ⊕ Variable) :=
  guarded (.inr target) .exclusive skip

/-- The accesses of a program, inside the locks that are held around it. -/
def sites (held : List (Lock × LockMode)) :
    LockProgram (Lock ⊕ Variable) → List (AccessSite Lock Variable)
  | skip => []
  | guarded (.inl lock) mode body => body.sites ((lock, mode) :: held)
  | guarded (.inr target) mode body => ⟨held, target, mode⟩ :: body.sites held
  | seq first second | choice first second => first.sites held ++ second.sites held
  | loop body => body.sites held

def withoutAccesses : LockProgram (Lock ⊕ Variable) → LockProgram Lock
  | skip => skip
  | guarded (.inl lock) mode body => guarded lock mode body.withoutAccesses
  | guarded (.inr _) _ body => body.withoutAccesses
  | seq first second => seq first.withoutAccesses second.withoutAccesses
  | choice first second => choice first.withoutAccesses second.withoutAccesses
  | loop body => loop body.withoutAccesses

def tidy : LockProgram Lock → LockProgram Lock
  | skip => skip
  | guarded lock mode body => guarded lock mode body.tidy
  | seq first second =>
      match first.tidy, second.tidy with
      | skip, after => after
      | before, skip => before
      | before, after => seq before after
  | choice first second =>
      match first.tidy, second.tidy with
      | skip, skip => skip
      | left, right => choice left right
  | loop body =>
      match body.tidy with
      | skip => skip
      | around => loop around

end LockProgram

namespace LockThread

variable {Lock Variable : Type*}

/-- The thread is at an access: it goes on, or is about to. -/
def Accesses (thread : LockThread (Lock ⊕ Variable)) (target : Variable) (mode : LockMode) : Prop :=
  (.inr target, mode) ∈ thread.held ∨ thread.request = some (.inr target, mode)

def locksOf (held : List ((Lock ⊕ Variable) × LockMode)) : List (Lock × LockMode) :=
  held.filterMap fun owned => owned.1.getLeft?.map fun lock => (lock, owned.2)

theorem mem_locksOf {held : List ((Lock ⊕ Variable) × LockMode)} {owned : Lock × LockMode} :
    owned ∈ locksOf held ↔ (.inl owned.1, owned.2) ∈ held := by
  obtain ⟨lock, mode⟩ := owned
  simp only [locksOf, List.mem_filterMap, Option.map_eq_some_iff, Prod.mk.injEq]
  constructor
  · rintro ⟨⟨owned, mode⟩, member, lock, found, rfl, rfl⟩
    rw [Sum.getLeft?_eq_some_iff] at found
    exact found ▸ member
  · exact fun member => ⟨_, member, lock, rfl, rfl, rfl⟩

/-- All accesses that a thread makes from here on lie at allowed sites, and it
gives back what it holds in order. -/
def Within (allowed : AccessSite Lock Variable → Prop) :
    List (LockTask (Lock ⊕ Variable)) → List ((Lock ⊕ Variable) × LockMode) → Prop
  | [], _ => True
  | .run program :: rest, held =>
      (∀ site ∈ program.sites (locksOf held), allowed site) ∧ Within allowed rest held
  | .await lock mode body :: rest, held =>
      (∀ site ∈ (LockProgram.guarded lock mode body).sites (locksOf held), allowed site) ∧
        Within allowed rest held
  | .release lock mode :: rest, held =>
      ∃ outer, held = (lock, mode) :: outer ∧ Within allowed rest outer

def Sited (allowed : AccessSite Lock Variable → Prop) :
    List ((Lock ⊕ Variable) × LockMode) → Prop
  | [] => True
  | (.inl _, _) :: held => Sited allowed held
  | (.inr target, mode) :: held => allowed ⟨locksOf held, target, mode⟩ ∧ Sited allowed held

variable {allowed : AccessSite Lock Variable → Prop}
  {thread next : LockThread (Lock ⊕ Variable)}

theorem Sited.exists_site {held : List ((Lock ⊕ Variable) × LockMode)}
    (sited : Sited allowed held) {target : Variable} {mode : LockMode}
    (member : (.inr target, mode) ∈ held) :
    ∃ locks, allowed ⟨locks, target, mode⟩ ∧ locks ⊆ locksOf held := by
  induction held with
  | nil => simp at member
  | cons owned held ih =>
      have later : locksOf held ⊆ locksOf (owned :: held) := by
        intro lock isLock
        exact mem_locksOf.mpr (List.mem_cons_of_mem _ (mem_locksOf.mp isLock))
      obtain ⟨lock | other, mode'⟩ := owned
      · rcases List.mem_cons.mp member with same | older
        · cases same
        · obtain ⟨locks, isAllowed, within⟩ := ih sited older
          exact ⟨locks, isAllowed, fun lock isLock => later (within isLock)⟩
      · rcases List.mem_cons.mp member with same | older
        · cases same
          exact ⟨locksOf held, sited.1, later⟩
        · obtain ⟨locks, isAllowed, within⟩ := ih sited.2 older
          exact ⟨locks, isAllowed, fun lock isLock => later (within isLock)⟩

theorem Within.advance [DecidableEq Lock] [DecidableEq Variable]
    (within : Within allowed thread.todo thread.held) (sited : Sited allowed thread.held)
    {first : Bool} {grants : (Lock ⊕ Variable) × LockMode → Bool}
    (advanced : thread.advance first grants = some next) :
    Within allowed next.todo next.held ∧ Sited allowed next.held := by
  obtain ⟨held, todo⟩ := thread
  match todo with
  | [] => simp [LockThread.advance] at advanced
  | .run .skip :: rest =>
      obtain rfl := Option.some.inj advanced
      exact ⟨within.2, sited⟩
  | .run (.guarded lock mode body) :: rest =>
      obtain rfl := Option.some.inj advanced
      exact ⟨within, sited⟩
  | .run (.seq before after) :: rest =>
      obtain rfl := Option.some.inj advanced
      obtain ⟨beforeSites, afterSites⟩ := List.forall_mem_append.mp within.1
      exact ⟨⟨beforeSites, afterSites, within.2⟩, sited⟩
  | .run (.choice left right) :: rest =>
      obtain rfl := Option.some.inj advanced
      obtain ⟨leftSites, rightSites⟩ := List.forall_mem_append.mp within.1
      cases first with
      | true => exact ⟨⟨leftSites, within.2⟩, sited⟩
      | false => exact ⟨⟨rightSites, within.2⟩, sited⟩
  | .run (.loop body) :: rest =>
      obtain rfl := Option.some.inj advanced
      cases first with
      | true => exact ⟨⟨within.1, within⟩, sited⟩
      | false => exact ⟨within.2, sited⟩
  | .await (.inl lock) mode body :: rest =>
      simp only [LockThread.advance, Option.ite_none_right_eq_some] at advanced
      obtain rfl := Option.some.inj advanced.2
      exact ⟨⟨within.1, held, rfl, within.2⟩, sited⟩
  | .await (.inr target) mode body :: rest =>
      simp only [LockThread.advance, Option.ite_none_right_eq_some] at advanced
      obtain rfl := Option.some.inj advanced.2
      obtain ⟨site, bodySites⟩ := List.forall_mem_cons.mp within.1
      exact ⟨⟨bodySites, held, rfl, within.2⟩, site, sited⟩
  | .release lock mode :: rest =>
      obtain rfl := Option.some.inj advanced
      obtain ⟨outer, rfl, later⟩ := within
      have sitedOuter : Sited allowed outer := by
        cases lock with
        | inl lock => exact sited
        | inr target => exact sited.2
      simpa using ⟨later, sitedOuter⟩

theorem Within.of_request (within : Within allowed thread.todo thread.held) {target : Variable}
    {mode : LockMode} (requested : thread.request = some (.inr target, mode)) :
    allowed ⟨locksOf thread.held, target, mode⟩ := by
  obtain ⟨held, todo⟩ := thread
  match todo with
  | [] | .run _ :: _ | .release _ _ :: _ => cases requested
  | .await lock mode' body :: rest =>
      cases requested
      exact within.1 _ List.mem_cons_self

theorem held_of_advance {Lock : Type*} [DecidableEq Lock] {thread next : LockThread Lock}
    {first : Bool} {grants : Lock × LockMode → Bool}
    (advanced : thread.advance first grants = some next) :
    ∀ owned ∈ next.held, owned ∈ thread.held ∨ grants owned = true := by
  obtain ⟨held, todo⟩ := thread
  match todo with
  | [] => simp [LockThread.advance] at advanced
  | .run .skip :: rest | .run (.guarded ..) :: rest | .run (.seq ..) :: rest
  | .run (.choice ..) :: rest | .run (.loop _) :: rest =>
      obtain rfl := Option.some.inj advanced
      exact fun owned member => Or.inl member
  | .await lock mode body :: rest =>
      simp only [LockThread.advance, Option.ite_none_right_eq_some] at advanced
      obtain ⟨granted, advanced⟩ := advanced
      obtain rfl := Option.some.inj advanced
      exact List.forall_mem_cons.mpr ⟨Or.inr granted, fun owned member => Or.inl member⟩
  | .release lock mode :: rest =>
      obtain rfl := Option.some.inj advanced
      exact fun owned member => Or.inl (List.mem_of_mem_erase member)

end LockThread

namespace LockProgram

section Exclusion

variable {Lock Thread : Type*} [DecidableEq Lock] [DecidableEq Thread] [Fintype Thread]

def Exclusion (config : Thread → LockThread Lock) : Prop :=
  ∀ first second, first ≠ second → ∀ owned ∈ (config first).held,
    ∀ other ∈ (config second).held, owned.1 = other.1 → ¬ owned.2.Conflict other.2

variable {programs : Thread → LockProgram Lock} {config : Thread → LockThread Lock}

theorem Exclusion.update (exclusion : Exclusion config) {mover : Thread} {next : LockThread Lock}
    {first : Bool} (advanced : (config mover).advance first (grants config) = some next) :
    Exclusion (Function.update config mover next) := by
  have fresh (thread : Thread) (different : mover ≠ thread) (owned) (isOwned : owned ∈ next.held)
      (other) (isOther : other ∈ (config thread).held) (same : owned.1 = other.1) :
      ¬ owned.2.Conflict other.2 := by
    rcases LockThread.held_of_advance advanced owned isOwned with older | granted
    · exact exclusion mover thread different owned older other isOther same
    · intro conflict
      have free := of_decide_eq_true granted thread
      exact free (Or.inl ⟨other, isOther, same.symm, conflict.symm⟩)
  intro thread thread' different owned isOwned other isOther same conflict
  by_cases isMover : thread = mover
  · subst isMover
    rw [Function.update_self] at isOwned
    rw [Function.update_of_ne different.symm] at isOther
    exact fresh thread' different owned isOwned other isOther same conflict
  · rw [Function.update_of_ne isMover] at isOwned
    by_cases isMover' : thread' = mover
    · subst isMover'
      rw [Function.update_self] at isOther
      exact fresh thread different.symm other isOther owned isOwned same.symm conflict.symm
    · rw [Function.update_of_ne isMover'] at isOther
      exact exclusion thread thread' different owned isOwned other isOther same conflict

theorem reachable_exclusion (reachable : (system programs).Reachable config) :
    Exclusion config := by
  refine reachable.invariant Exclusion ?_ ?_
  · intro config initial first second different owned isOwned
    rw [initial] at isOwned
    simp at isOwned
  · intro config event config' exclusion moved
    obtain ⟨next, advanced, rfl⟩ := Option.map_eq_some_iff.mp moved
    exact exclusion.update advanced

end Exclusion

section Races

variable {Lock Variable Thread : Type*} [DecidableEq Lock] [DecidableEq Variable]
  [DecidableEq Thread] [Fintype Thread] {programs : Thread → LockProgram (Lock ⊕ Variable)}
  {config : Thread → LockThread (Lock ⊕ Variable)}

/-- Conflicting accesses of different threads lie inside locks that exclude each
other. -/
def Disciplined (programs : Thread → LockProgram (Lock ⊕ Variable)) : Prop :=
  ∀ first second, first ≠ second → ∀ site ∈ (programs first).sites [],
    ∀ site' ∈ (programs second).sites [], site.Excludes site'

def Race (config : Thread → LockThread (Lock ⊕ Variable)) : Prop :=
  ∃ first second, first ≠ second ∧ ∃ target mode mode', (config first).Accesses target mode ∧
    (config second).Accesses target mode' ∧ mode.Conflict mode'

theorem reachable_within (reachable : (system programs).Reachable config) (thread : Thread) :
    LockThread.Within (· ∈ (programs thread).sites []) (config thread).todo
        (config thread).held ∧
      LockThread.Sited (· ∈ (programs thread).sites []) (config thread).held := by
  revert thread
  refine reachable.invariant (fun config => ∀ thread,
    LockThread.Within (· ∈ (programs thread).sites []) (config thread).todo
        (config thread).held ∧
      LockThread.Sited (· ∈ (programs thread).sites []) (config thread).held) ?_ ?_
  · intro config initial thread
    rw [initial]
    exact ⟨⟨fun site member => member, trivial⟩, trivial⟩
  · intro config event config' sited moved thread
    obtain ⟨next, advanced, rfl⟩ := Option.map_eq_some_iff.mp moved
    by_cases mover : thread = event.1
    · subst mover
      obtain ⟨within, sited⟩ := sited event.1
      simpa using within.advance sited advanced
    · simpa [mover] using sited thread

theorem exists_site (reachable : (system programs).Reachable config) {thread : Thread}
    {target : Variable} {mode : LockMode} (accesses : (config thread).Accesses target mode) :
    ∃ locks, ⟨locks, target, mode⟩ ∈ (programs thread).sites [] ∧
      ∀ owned ∈ locks, (.inl owned.1, owned.2) ∈ (config thread).held := by
  obtain ⟨within, sited⟩ := reachable_within reachable thread
  rcases accesses with member | requested
  · obtain ⟨locks, isSite, held⟩ := sited.exists_site member
    exact ⟨locks, isSite, fun owned isLock => LockThread.mem_locksOf.mp (held isLock)⟩
  · exact ⟨_, within.of_request requested, fun owned isLock => LockThread.mem_locksOf.mp isLock⟩

theorem race_free (disciplined : Disciplined programs)
    (reachable : (system programs).Reachable config) : ¬ Race config := by
  rintro ⟨first, second, different, target, mode, mode', accesses, accesses', conflict⟩
  obtain ⟨locks, isSite, held⟩ := exists_site reachable accesses
  obtain ⟨locks', isSite', held'⟩ := exists_site reachable accesses'
  obtain ⟨owned, isOwned, other, isOther, same, excluded⟩ :=
    disciplined first second different _ isSite _ isSite' rfl conflict
  exact reachable_exclusion reachable first second different _ (held owned isOwned) _
    (held' other isOther) (congrArg Sum.inl same) excluded

/-- An access never waits, so it restricts no run that it is written like a
guard. -/
theorem access_granted {rank : Lock ⊕ Variable → Nat}
    (ascends : ∀ thread, (programs thread).Ascends rank 0) (disciplined : Disciplined programs)
    (reachable : (system programs).Reachable config) {thread : Thread} {target : Variable}
    {mode : LockMode} (requested : (config thread).request = some (.inr target, mode)) :
    grants config (.inr target, mode) = true := by
  refine decide_eq_true fun other inTheWay => ?_
  by_cases same : other = thread
  · subst same
    rcases inTheWay with ⟨owned, member, sameLock, -⟩ | ⟨isShared, waits⟩
    · exact held_ne_request ascends reachable requested member sameLock
    · obtain rfl := (Prod.mk.inj (Option.some.inj (requested.symm.trans waits))).2
      cases isShared
  · refine race_free disciplined reachable ⟨other, thread, same, target, ?_⟩
    rcases inTheWay with ⟨⟨lock, mode'⟩, member, rfl, conflict⟩ | ⟨isShared, waits⟩
    · exact ⟨mode', mode, Or.inl member, Or.inr requested, conflict⟩
    · exact ⟨.exclusive, mode, Or.inr waits, Or.inr requested, Or.inl rfl⟩

end Races

end LockProgram
