import Mathlib.Algebra.Order.BigOperators.Group.Finset
import Mathlib.Data.List.Basic
import Mathlib.Tactic

/-!
# Slot tables

A fixed array of slots, each free or occupied by a key.  A key enters at the
first free slot and leaves by vacating its slot in place, so the table is
never compacted.  What survives is a bound at the moment of entering: the
first free slot lies within the number of keys present.
-/

namespace SlotTable

variable {Slot Key : Type*} [DecidableEq Key] (key : Slot → Option Key)

def keyAt (slots : List Slot) (index : Nat) : Option Key := slots[index]?.bind key

/-- The first index with given contents, or the number of slots. -/
def indexOf (contents : Option Key) (slots : List Slot) : Nat :=
  slots.findIdx fun slot => decide (key slot = contents)

/-- Put a slot at the first free index, if there is one. -/
def occupy (slot : Slot) (slots : List Slot) : List Slot :=
  slots.set (indexOf key none slots) slot

/-- Change the first slot that contains a key. -/
def vacate (change : Slot → Slot) (occupant : Key) (slots : List Slot) : List Slot :=
  slots.modify (indexOf key (some occupant) slots) change

def Distinct (slots : List Slot) : Prop :=
  ∀ {first second occupant}, keyAt key slots first = some occupant →
    keyAt key slots second = some occupant → first = second

variable {key} {slots : List Slot}

omit [DecidableEq Key] in
theorem keyAt_modify (change : Slot → Slot) (position index : Nat) :
    keyAt key (slots.modify position change) index =
      if index = position then (slots[index]?.map change).bind key
      else keyAt key slots index := by
  unfold keyAt
  rw [List.getElem?_modify]
  by_cases same : index = position
  · simp [same]
  · simp [same, Ne.symm same]

omit [DecidableEq Key] in
theorem keyAt_mapIdx {change : Nat → Slot → Slot}
    (keeps : ∀ index slot, key (change index slot) = key slot) (index : Nat) :
    keyAt key (slots.mapIdx change) index = keyAt key slots index := by
  unfold keyAt
  rw [List.getElem?_mapIdx]
  cases slots[index]? <;> simp [keeps]

theorem keyAt_indexOf {contents : Option Key}
    (present : indexOf key contents slots < slots.length) :
    keyAt key slots (indexOf key contents slots) = contents := by
  have found := List.findIdx_getElem (w := present)
  unfold keyAt
  rw [List.getElem?_eq_getElem present]
  exact of_decide_eq_true found

theorem keyAt_of_lt_indexOf {contents : Option Key} {index : Nat}
    (earlier : index < indexOf key contents slots) : keyAt key slots index ≠ contents := by
  have inside : index < slots.length := lt_of_lt_of_le earlier List.findIdx_le_length
  have notFound := List.not_of_lt_findIdx earlier
  unfold keyAt
  rw [List.getElem?_eq_getElem inside]
  simpa using notFound

theorem indexOf_eq {occupant : Key} {index : Nat} (distinct : Distinct key slots)
    (occupied : keyAt key slots index = some occupant) :
    indexOf key (some occupant) slots = index := by
  have present : indexOf key (some occupant) slots < slots.length := by
    by_contra absent
    have inside : index < slots.length := by
      by_contra outside
      simp [keyAt, List.getElem?_eq_none (not_lt.mp outside)] at occupied
    exact keyAt_of_lt_indexOf (lt_of_lt_of_le inside (not_lt.mp absent)) occupied
  exact distinct (keyAt_indexOf present) occupied

omit [DecidableEq Key] in
theorem keyAt_modify_frees {change : Slot → Slot} (frees : ∀ slot, key (change slot) = none)
    {position index : Nat} {occupant : Key} :
    keyAt key (slots.modify position change) index = some occupant ↔
      index ≠ position ∧ keyAt key slots index = some occupant := by
  rw [keyAt_modify]
  split_ifs with same
  · cases slots[index]? <;> simp [same, frees]
  · simp [same]

omit [DecidableEq Key] in
theorem exists_keyAt_modify {change : Slot → Slot} (frees : ∀ slot, key (change slot) = none)
    {position : Nat} {gone occupant : Key} (atPosition : keyAt key slots position = some gone)
    (different : occupant ≠ gone) (present : ∃ index, keyAt key slots index = some occupant) :
    ∃ index, keyAt key (slots.modify position change) index = some occupant := by
  obtain ⟨index, held⟩ := present
  refine ⟨index, (keyAt_modify_frees frees).mpr ⟨?_, held⟩⟩
  rintro rfl
  exact different (Option.some.inj (held.symm.trans atPosition))

theorem keyAt_vacate {change : Slot → Slot} {occupant : Key} (distinct : Distinct key slots)
    (frees : ∀ slot, key (change slot) = none) {index : Nat} {other : Key} :
    keyAt key (vacate key change occupant slots) index = some other ↔
      keyAt key slots index = some other ∧ other ≠ occupant := by
  unfold vacate
  rw [keyAt_modify]
  split_ifs with atIndex
  · constructor
    · intro occupied
      cases found : slots[index]? <;> simp [found, frees] at occupied
    · rintro ⟨occupied, different⟩
      have inside : index < slots.length := by
        by_contra outside
        simp [keyAt, List.getElem?_eq_none (not_lt.mp outside)] at occupied
      rw [atIndex] at occupied inside
      exact absurd (Option.some.inj (occupied.symm.trans (keyAt_indexOf inside))) different
  · constructor
    · intro occupied
      refine ⟨occupied, ?_⟩
      rintro rfl
      exact atIndex (indexOf_eq distinct occupied).symm
    · exact And.left

theorem Distinct.vacate {change : Slot → Slot} {occupant : Key} (distinct : Distinct key slots)
    (frees : ∀ slot, key (change slot) = none) :
    Distinct key (vacate key change occupant slots) := by
  intro first second other atFirst atSecond
  exact distinct ((keyAt_vacate distinct frees).mp atFirst).1
    ((keyAt_vacate distinct frees).mp atSecond).1

theorem keyAt_occupy {slot : Slot} (free : indexOf key none slots < slots.length) (index : Nat) :
    keyAt key (occupy key slot slots) index =
      if index = indexOf key none slots then key slot else keyAt key slots index := by
  unfold keyAt occupy
  rw [List.getElem?_set]
  split_ifs with same different
  · simp
  · exact absurd same.symm different
  · exact absurd (by assumption) (Ne.symm same)
  · rfl

theorem keyAt_occupy_self {slot : Slot} (free : indexOf key none slots < slots.length) :
    keyAt key (occupy key slot slots) (indexOf key none slots) = key slot := by
  rw [keyAt_occupy free, if_pos rfl]

theorem keyAt_occupy_of_keyAt {slot : Slot} (free : indexOf key none slots < slots.length)
    {index : Nat} {occupant : Key} (held : keyAt key slots index = some occupant) :
    keyAt key (occupy key slot slots) index = some occupant := by
  have notFree : index ≠ indexOf key none slots := by
    rintro rfl
    exact absurd (held.symm.trans (keyAt_indexOf free)) (by simp)
  rw [keyAt_occupy free, if_neg notFree, held]

theorem keyAt_occupy_cases {slot : Slot} (free : indexOf key none slots < slots.length)
    {index : Nat} {occupant : Key}
    (held : keyAt key (occupy key slot slots) index = some occupant) :
    (index = indexOf key none slots ∧ key slot = some occupant) ∨
      keyAt key slots index = some occupant := by
  rw [keyAt_occupy free] at held
  split_ifs at held with isNew
  · exact Or.inl ⟨isNew, held⟩
  · exact Or.inr held

theorem Distinct.occupy {slot : Slot} {newcomer : Key} (distinct : Distinct key slots)
    (free : indexOf key none slots < slots.length) (isKey : key slot = some newcomer)
    (fresh : ∀ index, keyAt key slots index ≠ some newcomer) :
    Distinct key (occupy key slot slots) := by
  intro first second other atFirst atSecond
  rw [keyAt_occupy free, isKey] at atFirst atSecond
  split_ifs at atFirst atSecond with firstNew secondNew secondNew
  · rw [firstNew, secondNew]
  · obtain rfl := Option.some.inj atFirst
    exact absurd atSecond (fresh second)
  · obtain rfl := Option.some.inj atSecond
    exact absurd atFirst (fresh first)
  · exact distinct atFirst atSecond

theorem indexOf_none_le {occupants : Finset Key} (distinct : Distinct key slots)
    (present : ∀ index occupant, keyAt key slots index = some occupant → occupant ∈ occupants) :
    indexOf key none slots ≤ occupants.card := by
  have occupied : ∀ index ∈ Finset.range (indexOf key none slots),
      ∃ occupant, keyAt key slots index = some occupant := by
    intro index earlier
    exact Option.ne_none_iff_exists'.mp (keyAt_of_lt_indexOf (Finset.mem_range.mp earlier))
  rw [← Finset.card_range (indexOf key none slots),
    ← Finset.card_map (s := occupants) Function.Embedding.some]
  refine Finset.card_le_card_of_injOn (keyAt key slots) ?_ ?_
  · intro index earlier
    obtain ⟨occupant, atIndex⟩ := occupied index earlier
    rw [atIndex]
    exact Finset.mem_map_of_mem _ (present index occupant atIndex)
  · intro first firstEarlier second _ same
    obtain ⟨occupant, atFirst⟩ := occupied first firstEarlier
    exact distinct atFirst (same ▸ atFirst)

def occupied (key : Slot → Option Key) (slots : List Slot) : Nat :=
  slots.countP fun slot => (key slot).isSome

theorem indexOf_none_lt_iff :
    indexOf key none slots < slots.length ↔ occupied key slots < slots.length := by
  unfold indexOf occupied
  rw [List.findIdx_lt_length, lt_iff_le_and_ne]
  simp only [List.countP_le_length, true_and, ne_eq, List.countP_eq_length]
  simp [Option.isSome_iff_ne_none]

theorem occupied_occupy {slot : Slot} (free : indexOf key none slots < slots.length)
    (isKey : (key slot).isSome) :
    occupied key (occupy key slot slots) = occupied key slots + 1 := by
  have isFree := keyAt_indexOf free
  rw [keyAt, List.getElem?_eq_getElem free, Option.bind_some] at isFree
  rw [occupied, occupied, occupy, List.countP_set free]
  simp [isFree, isKey]

omit [DecidableEq Key] in
theorem occupied_modify_le {change : Slot → Slot} (frees : ∀ slot, key (change slot) = none)
    (index : Nat) : occupied key (slots.modify index change) ≤ occupied key slots := by
  unfold occupied
  induction slots generalizing index with
  | nil => simp
  | cons slot slots ih =>
      cases index with
      | zero =>
          rw [List.modify_zero_cons, List.countP_cons, List.countP_cons]
          simp [frees]
      | succ index =>
          rw [List.modify_succ_cons, List.countP_cons, List.countP_cons]
          have later := ih index
          omega

omit [DecidableEq Key] in
theorem occupied_congr {others : List Slot} (length : others.length = slots.length)
    (same : ∀ index, keyAt key others index = keyAt key slots index) :
    occupied key others = occupied key slots := by
  have keys : others.map key = slots.map key := by
    apply List.ext_getElem (by simpa using length)
    intro index before after
    rw [List.length_map] at before after
    have atIndex := same index
    rw [keyAt, keyAt, List.getElem?_eq_getElem before, List.getElem?_eq_getElem after] at atIndex
    simpa using atIndex
  have counted (slots : List Slot) : occupied key slots = (slots.map key).countP Option.isSome := by
    rw [occupied, List.countP_map]
    rfl
  rw [counted, counted, keys]

end SlotTable
