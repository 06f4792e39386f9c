import Mathlib.Data.Finmap

/-! Finite maps with a bound on the number of their keys, and the arrays of
slots with holes that hold them. -/

structure BoundedMap (κ ν : Type _) (capacity : Nat) where
  entries : Finmap fun _ : κ => ν
  bounded : entries.keys.card ≤ capacity

namespace BoundedMap

variable {κ ν : Type _} {capacity : Nat}

def empty : BoundedMap κ ν capacity := ⟨∅, by simp⟩

def size (m : BoundedMap κ ν capacity) : Nat := m.entries.keys.card

instance : Membership κ (BoundedMap κ ν capacity) :=
  ⟨fun m key => key ∈ m.entries⟩

variable [DecidableEq κ]

instance (key : κ) (m : BoundedMap κ ν capacity) : Decidable (key ∈ m) :=
  inferInstanceAs (Decidable (key ∈ m.entries))

def get (m : BoundedMap κ ν capacity) (key : κ) : Option ν :=
  m.entries.lookup key

theorem mem_iff {m : BoundedMap κ ν capacity} {key : κ} :
    key ∈ m ↔ ∃ value, m.get key = some value := Finmap.mem_iff

@[simp] theorem get_empty (key : κ) :
    (empty : BoundedMap κ ν capacity).get key = none := Finmap.lookup_empty key

private theorem keys_insert (entries : Finmap fun _ : κ => ν) (key : κ)
    (value : ν) :
    (entries.insert key value).keys = insert key entries.keys := by
  ext other
  rw [Finmap.mem_keys, Finmap.mem_insert, Finset.mem_insert, Finmap.mem_keys]

/-- A key that is present takes a new value, and any other needs room. -/
def insert (m : BoundedMap κ ν capacity) (key : κ) (value : ν)
    (room : key ∈ m ∨ m.size < capacity) : BoundedMap κ ν capacity where
  entries := m.entries.insert key value
  bounded := by
    rw [keys_insert]
    rcases room with present | free
    · rw [Finset.insert_eq_of_mem (Finmap.mem_keys.mpr present)]
      exact m.bounded
    · exact (Finset.card_insert_le _ _).trans free

def store (m : BoundedMap κ ν capacity) (key : κ) (value : ν) :
    Option (BoundedMap κ ν capacity) :=
  if room : key ∈ m ∨ m.size < capacity then some (m.insert key value room)
  else none

def erase (m : BoundedMap κ ν capacity) (key : κ) :
    BoundedMap κ ν capacity where
  entries := m.entries.erase key
  bounded := by
    rw [Finmap.keys_erase]
    exact (Finset.card_le_card (Finset.erase_subset _ _)).trans m.bounded

theorem get_insert (m : BoundedMap κ ν capacity) (key other : κ) (value : ν)
    (room : key ∈ m ∨ m.size < capacity) :
    (m.insert key value room).get other =
      if other = key then some value else m.get other := by
  by_cases same : other = key
  · rw [if_pos same, same]
    exact Finmap.lookup_insert m.entries
  · rw [if_neg same]
    exact Finmap.lookup_insert_of_ne m.entries same

theorem get_erase (m : BoundedMap κ ν capacity) (key other : κ) :
    (m.erase key).get other = if other = key then none else m.get other := by
  by_cases same : other = key
  · rw [if_pos same, same]
    exact Finmap.lookup_erase key m.entries
  · rw [if_neg same]
    exact Finmap.lookup_erase_ne same

structure Lists (m : BoundedMap κ ν capacity) (order : List κ) : Prop where
  nodup : order.Nodup
  mem : ∀ key, key ∈ order ↔ key ∈ m

omit [DecidableEq κ] in
theorem Lists.length {m : BoundedMap κ ν capacity} {order : List κ}
    (lists : m.Lists order) : order.length = m.size := by
  classical
  rw [← List.toFinset_card_of_nodup lists.nodup]
  apply congrArg Finset.card
  ext key
  rw [List.mem_toFinset, lists.mem key]
  exact Finmap.mem_keys.symm

section Slots

variable {count : Nat} {slots : Fin count → Option (κ × ν)}
  {m : BoundedMap κ ν capacity}

structure Holds (slots : Fin count → Option (κ × ν))
    (m : BoundedMap κ ν capacity) :
    Prop where
  stored : ∀ {i key value}, slots i = some (key, value) → m.get key = some value
  placed : ∀ {key value}, m.get key = some value →
    ∃ i, slots i = some (key, value)
  alone : ∀ {i j key left right}, slots i = some (key, left) →
    slots j = some (key, right) → i = j

theorem Holds.empty :
    Holds (fun _ : Fin count => none) (empty : BoundedMap κ ν capacity) where
  stored := by
    intro i key value used
    cases used
  placed := by
    intro key value present
    rw [get_empty] at present
    cases present
  alone := by
    intro i j key left right used
    cases used

/-- A slot that is free or has the key takes the entry, when no other slot has
the key. -/
theorem Holds.insert (holds : Holds slots m) {idx : Fin count} {key : κ}
    (value : ν) (room : key ∈ m ∨ m.size < capacity)
    (own : ∀ {other old}, slots idx = some (other, old) → other = key)
    (only : ∀ {i old}, slots i = some (key, old) → i = idx) :
    Holds (Function.update slots idx (some (key, value)))
      (m.insert key value room) where
  stored := by
    intro i other found used
    rw [get_insert]
    by_cases here : i = idx
    · subst here
      rw [Function.update_self] at used
      cases used
      exact if_pos rfl
    · rw [Function.update_of_ne here] at used
      rw [if_neg, holds.stored used]
      rintro rfl
      exact here (only used)
  placed := by
    intro other found present
    rw [get_insert] at present
    by_cases same : other = key
    · rw [if_pos same] at present
      cases present
      exact ⟨idx, by rw [Function.update_self, same]⟩
    · rw [if_neg same] at present
      obtain ⟨i, used⟩ := holds.placed present
      refine ⟨i, ?_⟩
      rw [Function.update_of_ne, used]
      rintro rfl
      exact same (own used)
  alone := by
    intro i j other left right first second
    by_cases here : i = idx <;> by_cases there : j = idx
    · rw [here, there]
    · subst here
      rw [Function.update_self] at first
      cases first
      rw [Function.update_of_ne there] at second
      exact absurd (only second) there
    · subst there
      rw [Function.update_self] at second
      cases second
      rw [Function.update_of_ne here] at first
      exact absurd (only first) here
    · rw [Function.update_of_ne here] at first
      rw [Function.update_of_ne there] at second
      exact holds.alone first second

theorem Holds.erase (holds : Holds slots m) {idx : Fin count} {key : κ}
    {value : ν} (used : slots idx = some (key, value)) :
    Holds (Function.update slots idx none) (m.erase key) where
  stored := by
    intro i other found kept
    by_cases here : i = idx
    · subst here
      rw [Function.update_self] at kept
      cases kept
    · rw [Function.update_of_ne here] at kept
      rw [get_erase, if_neg, holds.stored kept]
      rintro rfl
      exact here (holds.alone kept used)
  placed := by
    intro other found present
    rw [get_erase] at present
    by_cases same : other = key
    · rw [if_pos same] at present
      cases present
    · rw [if_neg same] at present
      obtain ⟨i, kept⟩ := holds.placed present
      refine ⟨i, ?_⟩
      rw [Function.update_of_ne, kept]
      rintro rfl
      rw [used] at kept
      cases kept
      exact same rfl
  alone := by
    intro i j other left right first second
    by_cases here : i = idx
    · subst here
      rw [Function.update_self] at first
      cases first
    · by_cases there : j = idx
      · subst there
        rw [Function.update_self] at second
        cases second
      · rw [Function.update_of_ne here] at first
        rw [Function.update_of_ne there] at second
        exact holds.alone first second

def listed (slots : Fin count → Option (κ × ν)) : List κ :=
  (List.finRange count).filterMap fun i => (slots i).map Prod.fst

theorem Holds.lists (holds : Holds slots m) : m.Lists (listed slots) where
  nodup := by
    refine (List.nodup_finRange count).filterMap ?_
    intro i j key first second
    obtain ⟨⟨_, left⟩, usedLeft, rfl⟩ := Option.map_eq_some_iff.mp first
    obtain ⟨⟨_, right⟩, usedRight, same⟩ := Option.map_eq_some_iff.mp second
    cases same
    exact holds.alone usedLeft usedRight
  mem := by
    intro key
    rw [mem_iff, listed, List.mem_filterMap]
    constructor
    · rintro ⟨i, -, found⟩
      obtain ⟨⟨_, value⟩, used, rfl⟩ := Option.map_eq_some_iff.mp found
      exact ⟨value, holds.stored used⟩
    · rintro ⟨value, present⟩
      obtain ⟨i, used⟩ := holds.placed present
      exact ⟨i, List.mem_finRange i, by rw [used]; rfl⟩

theorem Holds.free_iff (holds : Holds slots m) :
    m.size < count ↔ ∃ i, slots i = none := by
  rw [← holds.lists.length, listed, List.length_filterMap_eq_countP]
  constructor
  · intro fewer
    by_contra full
    rw [not_exists] at full
    rw [List.countP_eq_length.mpr, List.length_finRange] at fewer
    · exact Nat.lt_irrefl _ fewer
    · intro i _
      rw [Option.isSome_map]
      exact Option.isSome_iff_ne_none.mpr (full i)
  · rintro ⟨i, hole⟩
    refine lt_of_lt_of_eq (lt_of_le_of_ne List.countP_le_length ?_)
      List.length_finRange
    intro full
    have used := List.countP_eq_length.mp full i (List.mem_finRange i)
    rw [hole] at used
    cases used

end Slots

end BoundedMap
