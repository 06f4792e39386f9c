import Mathlib.Data.List.Range

/-! Windows of a linear memory: the values stored between two offsets, and what
a block store at the end of a window does to it. -/

namespace Window

variable {α : Type _}

/-- The values that a memory holds at `count` successive offsets. -/
def window (memory : Nat → α) (start count : Nat) : List α :=
  (List.range count).map fun offset => memory (start + offset)

def store (memory : Nat → α) (start : Nat) (block : List α) : Nat → α :=
  fun offset =>
    if start ≤ offset then (block[offset - start]?).getD (memory offset)
    else memory offset

@[simp] theorem length_window (memory : Nat → α) (start count : Nat) :
    (window memory start count).length = count := by
  simp [window]

theorem window_add (memory : Nat → α) (start first second : Nat) :
    window memory start (first + second) =
      window memory start first ++ window memory (start + first) second := by
  simp only [window, List.range_add, List.map_append, List.map_map]
  congr 1
  apply List.map_congr_left
  intro offset _
  simp [Nat.add_assoc]

theorem drop_window (memory : Nat → α) (start count dropped : Nat)
    (bound : dropped ≤ count) :
    (window memory start count).drop dropped =
      window memory (start + dropped) (count - dropped) := by
  obtain ⟨rest, rfl⟩ := Nat.exists_eq_add_of_le bound
  rw [window_add, List.drop_left' (length_window ..)]
  simp

theorem window_store_before (memory : Nat → α) (block : List α)
    (start count position : Nat) (before : start + count ≤ position) :
    window (store memory position block) start count =
      window memory start count := by
  apply List.map_congr_left
  intro offset member
  rw [List.mem_range] at member
  simp [store, show ¬ position ≤ start + offset by omega]

theorem window_store_self (memory : Nat → α) (block : List α) (start : Nat) :
    window (store memory start block) start block.length = block := by
  apply List.ext_getElem
  · simp
  · intro offset left right
    simp [window, store, List.getElem?_eq_getElem right]

/-- Storing a block at the end of a window extends the window by the block. -/
theorem window_store_end (memory : Nat → α) (block : List α)
    (start count : Nat) :
    window (store memory (start + count) block) start (count + block.length) =
      window memory start count ++ block := by
  rw [window_add, window_store_before memory block start count _
    (Nat.le_refl _), window_store_self]

/-- Copying a window to the front of the memory keeps its values. -/
theorem window_store_window (memory : Nat → α) (start count : Nat) :
    window (store memory 0 (window memory start count)) 0 count =
      window memory start count := by
  have copied := window_store_self memory (window memory start count) 0
  rwa [length_window] at copied

end Window
