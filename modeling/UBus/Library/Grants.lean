import Mathlib.Logic.Function.Basic
import Mathlib.Logic.Relation
import Mathlib.Tactic

/-!
# Exclusive grants

An authority grants keys to holders, each key to one member at a time, and
remembers who has it.  A holder learns of a grant later, when it stores the
key.  The authority may expel a member, which takes back its keys in the books
of the authority only: the holder keeps what it has stored.

As long as a holder is a member, the books and the holder agree.
-/

/-- The books of the authority, its members, and what the holders have stored
or are about to store. -/
@[ext]
structure Grants (Holder Key Value : Type*) where
  owner : Key → Option (Holder × Value)
  members : Set Holder
  stored : Holder → Key → Option Value
  pending : Holder → Option (Key × Value)

namespace Grants

variable {Holder Key Value : Type*}

/-- A holder has stored a key, or is about to. -/
def Claims (grants : Grants Holder Key Value) (holder : Holder) (key : Key) (value : Value) :
    Prop :=
  grants.stored holder key = some value ∨ grants.pending holder = some (key, value)

/-- The owners are claimants, a member that claims a key owns it, and a key
that is about to be stored is not stored yet. -/
structure Exclusive (grants : Grants Holder Key Value) : Prop where
  owned : ∀ {key holder value}, grants.owner key = some (holder, value) →
    grants.Claims holder key value
  kept : ∀ {holder key value}, holder ∈ grants.members → grants.Claims holder key value →
    grants.owner key = some (holder, value)
  fresh : ∀ {holder key value}, grants.pending holder = some (key, value) →
    grants.stored holder key = none

theorem Exclusive.unique {grants : Grants Holder Key Value} (exclusive : grants.Exclusive)
    {first second : Holder} {key : Key} {value value' : Value}
    (isMember : first ∈ grants.members) (isMember' : second ∈ grants.members)
    (claims : grants.Claims first key value) (claims' : grants.Claims second key value') :
    first = second := by
  have owner := exclusive.kept isMember claims
  have owner' := exclusive.kept isMember' claims'
  exact (Prod.mk.inj (Option.some.inj (owner.symm.trans owner'))).1

/-- The owner of a key has stored it, unless it is just about to. -/
theorem Exclusive.stored_iff {grants : Grants Holder Key Value} (exclusive : grants.Exclusive)
    {key : Key} {holder : Holder} {value : Value} (claims : grants.Claims holder key value) :
    grants.stored holder key = some value ↔ grants.pending holder ≠ some (key, value) := by
  constructor
  · intro isStored isPending
    rw [exclusive.fresh isPending] at isStored
    simp at isStored
  · exact claims.resolve_right

variable [DecidableEq Holder] [DecidableEq Key]

inductive Step (grants : Grants Holder Key Value) : Grants Holder Key Value → Prop
  | enrol {holder} :
      (∀ key, grants.stored holder key = none) → grants.pending holder = none →
        Step grants { grants with members := insert holder grants.members }
  | grant {holder key value} :
      holder ∈ grants.members → grants.owner key = none → grants.pending holder = none →
        Step grants { grants with
          owner := Function.update grants.owner key (some (holder, value))
          pending := Function.update grants.pending holder (some (key, value)) }
  | store {holder key value} :
      grants.pending holder = some (key, value) →
        Step grants { grants with
          stored := Function.update grants.stored holder
            (Function.update (grants.stored holder) key (some value))
          pending := Function.update grants.pending holder none }
  | expel {holder} :
      Step grants { grants with
        owner := fun key => (grants.owner key).filter (·.1 ≠ holder)
        members := grants.members \ {holder} }

variable {grants next : Grants Holder Key Value}

namespace Exclusive

omit [DecidableEq Holder] [DecidableEq Key] in
theorem enrol (exclusive : grants.Exclusive) {holder : Holder}
    (nothing : ∀ key, grants.stored holder key = none) (idle : grants.pending holder = none) :
    { grants with members := insert holder grants.members }.Exclusive where
  owned := exclusive.owned
  kept {holder' key value} isMember claims := by
    rcases isMember with rfl | older
    · rcases claims with isStored | isPending
      · exact absurd ((nothing key).symm.trans isStored) (by simp)
      · exact absurd (idle.symm.trans isPending) (by simp)
    · exact exclusive.kept older claims
  fresh := exclusive.fresh

theorem grant (exclusive : grants.Exclusive) {holder : Holder} {key : Key} (value : Value)
    (isMember : holder ∈ grants.members) (free : grants.owner key = none)
    (idle : grants.pending holder = none) :
    { grants with
      owner := Function.update grants.owner key (some (holder, value))
      pending := Function.update grants.pending holder (some (key, value)) }.Exclusive where
  owned {key' holder' value'} isOwner := by
    by_cases sameKey : key' = key
    · subst sameKey
      simp only [Function.update_self, Option.some.injEq, Prod.mk.injEq] at isOwner
      obtain ⟨rfl, rfl⟩ := isOwner
      exact Or.inr (Function.update_self ..)
    · simp only [Function.update_of_ne sameKey] at isOwner
      refine (exclusive.owned isOwner).imp_right fun isPending => ?_
      have other : holder' ≠ holder := by
        rintro rfl
        exact absurd (idle.symm.trans isPending) (by simp)
      exact (Function.update_of_ne other ..).trans isPending
  kept {holder' key' value'} isMember' claims := by
    have older : grants.Claims holder' key' value' →
        Function.update grants.owner key (some (holder, value)) key' =
          some (holder', value') := by
      intro claimed
      have owned := exclusive.kept isMember' claimed
      have other : key' ≠ key := by
        rintro rfl
        exact absurd (free.symm.trans owned) (by simp)
      exact (Function.update_of_ne other ..).trans owned
    rcases claims with isStored | isPending
    · exact older (Or.inl isStored)
    · by_cases same : holder' = holder
      · subst same
        simp only [Function.update_self, Option.some.injEq, Prod.mk.injEq] at isPending
        obtain ⟨rfl, rfl⟩ := isPending
        exact Function.update_self ..
      · simp only [Function.update_of_ne same] at isPending
        exact older (Or.inr isPending)
  fresh {holder' key' value'} isPending := by
    by_cases same : holder' = holder
    · subst same
      simp only [Function.update_self, Option.some.injEq, Prod.mk.injEq] at isPending
      obtain ⟨rfl, rfl⟩ := isPending
      cases isStored : grants.stored holder' key with
      | none => rfl
      | some older =>
          -- a member only stores what it owns, and nobody owned the key
          have owned := exclusive.kept isMember (Or.inl isStored)
          exact absurd (free.symm.trans owned) (by simp)
    · simp only [Function.update_of_ne same] at isPending
      exact exclusive.fresh isPending

theorem claims_store (exclusive : grants.Exclusive) {holder : Holder} {key : Key} {value : Value}
    (isPending : grants.pending holder = some (key, value)) {holder' : Holder} {key' : Key}
    {value' : Value} :
    { grants with
      stored := Function.update grants.stored holder
        (Function.update (grants.stored holder) key (some value))
      pending := Function.update grants.pending holder none }.Claims holder' key' value' ↔
      grants.Claims holder' key' value' := by
  unfold Claims
  by_cases same : holder' = holder
  · subst same
    simp only [Function.update_self]
    by_cases sameKey : key' = key
    · subst sameKey
      simp [isPending, exclusive.fresh isPending]
    · simp [isPending, Function.update_of_ne sameKey, Ne.symm sameKey]
  · simp only [Function.update_of_ne same]

theorem store (exclusive : grants.Exclusive) {holder : Holder} {key : Key} {value : Value}
    (isPending : grants.pending holder = some (key, value)) :
    { grants with
      stored := Function.update grants.stored holder
        (Function.update (grants.stored holder) key (some value))
      pending := Function.update grants.pending holder none }.Exclusive where
  owned isOwner := (exclusive.claims_store isPending).mpr (exclusive.owned isOwner)
  kept isMember claims := exclusive.kept isMember ((exclusive.claims_store isPending).mp claims)
  fresh {holder' key' value'} isPending' := by
    by_cases same : holder' = holder
    · subst same
      simp at isPending'
    · simp only [Function.update_of_ne same] at isPending' ⊢
      exact exclusive.fresh isPending'

omit [DecidableEq Key] in
theorem expel (exclusive : grants.Exclusive) (holder : Holder) :
    { grants with
      owner := fun key => (grants.owner key).filter (·.1 ≠ holder)
      members := grants.members \ {holder} }.Exclusive where
  owned isOwner := exclusive.owned (Option.filter_eq_some_iff.mp isOwner).1
  kept isMember claims := by
    have owned := exclusive.kept isMember.1 claims
    exact Option.filter_eq_some_iff.mpr ⟨owned, by simpa using isMember.2⟩
  fresh := exclusive.fresh

theorem step (exclusive : grants.Exclusive) (step : grants.Step next) : next.Exclusive := by
  cases step with
  | enrol nothing idle => exact exclusive.enrol nothing idle
  | grant isMember free idle => exact exclusive.grant _ isMember free idle
  | store isPending => exact exclusive.store isPending
  | expel => exact exclusive.expel _

theorem claims_step (exclusive : grants.Exclusive) (step : grants.Step next) {holder : Holder}
    {key : Key} {value : Value} (claims : grants.Claims holder key value) :
    next.Claims holder key value := by
  cases step with
  | enrol | expel => exact claims
  | @grant grantee key' value' isMember free idle =>
      refine claims.imp_right fun isPending => ?_
      have other : holder ≠ grantee := by
        rintro rfl
        exact absurd (idle.symm.trans isPending) (by simp)
      exact (Function.update_of_ne other ..).trans isPending
  | store isPending => exact (exclusive.claims_store isPending).mpr claims

/-- A system that performs steps of a grant protocol, or none, keeps it
exclusive. -/
theorem moves (exclusive : grants.Exclusive) (moved : Relation.ReflGen Step grants next) :
    next.Exclusive := by
  cases moved with
  | refl => exact exclusive
  | single step => exact exclusive.step step

theorem claims_moves (exclusive : grants.Exclusive) (moved : Relation.ReflGen Step grants next)
    {holder : Holder} {key : Key} {value : Value} (claims : grants.Claims holder key value) :
    next.Claims holder key value := by
  cases moved with
  | refl => exact claims
  | single step => exact exclusive.claims_step step claims

end Exclusive

end Grants
