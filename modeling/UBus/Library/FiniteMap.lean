import Mathlib.Data.Finmap
import Mathlib.Tactic

/-!
# Finite maps

Mathlib's `Finmap` with values of one type, under the operations of a hash
map whose iteration order is unspecified: access, the number of entries, the
removal of every key of another map, and enumerations of the keys.
-/

abbrev FiniteMap (Key Value : Type*) := Finmap fun _ : Key => Value

namespace FiniteMap

variable {Key Value Other : Type*} [DecidableEq Key]

def lookup (map : FiniteMap Key Value) (key : Key) : Option Value := Finmap.lookup key map

def insert (map : FiniteMap Key Value) (key : Key) (value : Value) : FiniteMap Key Value :=
  Finmap.insert key value map

def erase (map : FiniteMap Key Value) (key : Key) : FiniteMap Key Value := Finmap.erase key map

/-- Change the value at a key, if there is one. -/
def modify (map : FiniteMap Key Value) (key : Key) (change : Value → Value) : FiniteMap Key Value :=
  match map.lookup key with
  | none => map
  | some value => map.insert key (change value)

/-- Remove every key of `other`, in whatever order they come. -/
def eraseAll (map : FiniteMap Key Value) (other : FiniteMap Key Other) : FiniteMap Key Value :=
  Finmap.foldl (fun remaining key _ => Finmap.erase key remaining)
    (fun _ _ _ _ _ => Finmap.erase_erase) map other

def size (map : FiniteMap Key Value) : Nat := map.keys.card

/-- `order` lists every key of the map once. -/
def Enumerates (order : List Key) (map : FiniteMap Key Value) : Prop :=
  order.Nodup ∧ order.toFinset = map.keys

instance (order : List Key) (map : FiniteMap Key Value) : Decidable (Enumerates order map) :=
  inferInstanceAs (Decidable (_ ∧ _))

theorem mem_iff {map : FiniteMap Key Value} {key : Key} :
    key ∈ map ↔ ∃ value, map.lookup key = some value :=
  Finmap.mem_iff

theorem notMem_iff {map : FiniteMap Key Value} {key : Key} : key ∉ map ↔ map.lookup key = none :=
  Finmap.lookup_eq_none.symm

theorem mem_of_lookup {map : FiniteMap Key Value} {key : Key} {value : Value}
    (found : map.lookup key = some value) : key ∈ map :=
  mem_iff.mpr ⟨value, found⟩

@[simp]
theorem lookup_empty (key : Key) : (∅ : FiniteMap Key Value).lookup key = none :=
  Finmap.lookup_empty key

theorem lookup_insert (map : FiniteMap Key Value) (key other : Key) (value : Value) :
    (map.insert key value).lookup other = if other = key then some value else map.lookup other := by
  unfold lookup insert
  split_ifs with same
  · rw [same, Finmap.lookup_insert]
  · exact Finmap.lookup_insert_of_ne map same

theorem forall_insert {property : Key → Value → Prop} {map : FiniteMap Key Value} {key : Key}
    {value : Value} (new : property key value)
    (old : ∀ other found, map.lookup other = some found → property other found) :
    ∀ other found, (map.insert key value).lookup other = some found → property other found := by
  intro other found isFound
  rw [lookup_insert] at isFound
  split_ifs at isFound with same
  · obtain rfl := Option.some.inj isFound
    exact same ▸ new
  · exact old other found isFound

theorem lookup_modify (map : FiniteMap Key Value) (key other : Key) (change : Value → Value) :
    (map.modify key change).lookup other =
      (map.lookup other).map fun value => if other = key then change value else value := by
  unfold modify
  cases found : map.lookup key with
  | none =>
      by_cases same : other = key
      · simp [same, found]
      · simp [same]
  | some value =>
      simp only [lookup_insert]
      by_cases same : other = key
      · simp [same, found]
      · simp [same]

theorem lookup_erase (map : FiniteMap Key Value) (key other : Key) :
    (map.erase key).lookup other = if other = key then none else map.lookup other := by
  unfold lookup erase
  split_ifs with same
  · rw [same, Finmap.lookup_erase]
  · exact Finmap.lookup_erase_ne same

theorem lookup_erases (keys : List Key) (map : FiniteMap Key Value) (key : Key) :
    (keys.foldl erase map).lookup key = if key ∈ keys then none else map.lookup key := by
  induction keys generalizing map with
  | nil => simp
  | cons first keys ih =>
      rw [List.foldl_cons, ih, lookup_erase]
      by_cases isFirst : key = first
      · simp [isFirst]
      · simp [isFirst]

theorem lookup_of_lookup_erases {keys : List Key} {map : FiniteMap Key Value} {key : Key}
    {value : Value} (found : (keys.foldl erase map).lookup key = some value) :
    map.lookup key = some value := by
  rw [lookup_erases] at found
  split_ifs at found
  exact found

theorem lookup_eraseAll (map : FiniteMap Key Value) (other : FiniteMap Key Other) (key : Key) :
    (map.eraseAll other).lookup key = if key ∈ other then none else map.lookup key := by
  induction other using Finmap.induction_on with
  | _ list =>
      have general : ∀ (entries : List (Σ _ : Key, Other)) (map : FiniteMap Key Value),
          FiniteMap.lookup
            (entries.foldl (fun remaining entry => Finmap.erase entry.1 remaining) map) key =
              if key ∈ entries.keys then none else map.lookup key := by
        intro entries
        induction entries with
        | nil => simp
        | cons entry entries ih =>
            intro map
            have first := lookup_erase map entry.1 key
            rw [List.foldl_cons, ih, List.keys_cons, ← FiniteMap.erase, first]
            by_cases later : key ∈ entries.keys
            · simp [later]
            · by_cases isFirst : key = entry.1 <;> simp [isFirst, later]
      have member : key ∈ list.toFinmap ↔ key ∈ list.entries.keys := Iff.rfl
      simp only [member]
      exact general list.entries map

theorem keys_insert (map : FiniteMap Key Value) (key : Key) (value : Value) :
    (map.insert key value).keys = Insert.insert key map.keys := by
  ext other
  simp [insert, Finmap.mem_keys]

theorem size_insert {map : FiniteMap Key Value} {key : Key} (fresh : key ∉ map) (value : Value) :
    (map.insert key value).size = map.size + 1 := by
  rw [size, keys_insert, Finset.card_insert_of_notMem (by simpa [Finmap.mem_keys] using fresh)]
  rfl

theorem size_insert_of_mem {map : FiniteMap Key Value} {key : Key} (member : key ∈ map)
    (value : Value) : (map.insert key value).size = map.size := by
  rw [size, keys_insert, Finset.insert_eq_of_mem (Finmap.mem_keys.mpr member)]
  rfl

theorem size_le_size_insert (map : FiniteMap Key Value) (key : Key) (value : Value) :
    map.size ≤ (map.insert key value).size := by
  rw [size, size, keys_insert]
  exact Finset.card_le_card (Finset.subset_insert key map.keys)

theorem size_erase {map : FiniteMap Key Value} {key : Key} (member : key ∈ map) :
    (map.erase key).size + 1 = map.size := by
  rw [size, erase, Finmap.keys_erase,
    Finset.card_erase_add_one (by simpa [Finmap.mem_keys] using member)]
  rfl

end FiniteMap
