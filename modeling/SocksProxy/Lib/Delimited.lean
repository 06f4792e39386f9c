import Mathlib.Algebra.BigOperators.Group.List.Basic
import Mathlib.Algebra.GroupWithZero.Nat

/-! Texts of terminated lines, and lines of separated fields.  A text can be
taken apart again exactly when no mark stands inside what it delimits. -/

namespace Delimited

variable {α : Type _} [DecidableEq α]

def join (separator : α) (fields : List (List α)) : List α :=
  [separator].intercalate fields

def split (separator : α) (line : List α) : List (List α) :=
  line.splitOn separator

def unlines (terminator : α) (lines : List (List α)) : List α :=
  lines.flatMap fun line => line ++ [terminator]

def lines (terminator : α) (text : List α) : List (List α) :=
  (split terminator text).dropLast

theorem length_split (separator : α) (line : List α) :
    (split separator line).length = line.count separator + 1 := by
  unfold split
  induction line with
  | nil => rfl
  | cons head line induction =>
      rw [List.splitOn_cons_eq_if_modifyHead, List.count_cons]
      split
      next => rw [List.length_cons, induction]
      next => rw [List.length_modifyHead, induction]

theorem count_join (separator : α) {fields : List (List α)}
    (some : fields ≠ []) :
    (join separator fields).count separator + 1 =
      (fields.map (List.count separator)).sum + fields.length := by
  unfold join
  induction fields with
  | nil => exact absurd rfl some
  | cons field fields induction =>
      cases fields with
      | nil => simp
      | cons next fields =>
          have rest := induction (by simp)
          rw [List.intercalate_cons_cons, List.count_append, List.count_append,
            List.map_cons, List.sum_cons, List.count_singleton_self,
            List.length_cons]
          omega

/-- A line has as many fields as were joined exactly when no field has a
separator. -/
theorem length_split_join {separator : α} {fields : List (List α)}
    (some : fields ≠ []) :
    (split separator (join separator fields)).length = fields.length ↔
      ∀ field ∈ fields, separator ∉ field := by
  have counted : (fields.map (List.count separator)).sum = 0 ↔
      ∀ field ∈ fields, separator ∉ field := by
    rw [List.sum_eq_zero_iff_forall_eq_nat, List.forall_mem_map]
    exact forall₂_congr fun field _ => List.count_eq_zero
  rw [← counted, length_split, count_join separator some]
  omega

theorem split_join {separator : α} {fields : List (List α)} (some : fields ≠ [])
    (free : ∀ field ∈ fields, separator ∉ field) :
    split separator (join separator fields) = fields :=
  List.splitOn_intercalate separator free some

omit [DecidableEq α] in
theorem not_mem_join {separator other : α} {fields : List (List α)}
    (apart : other ≠ separator) :
    other ∉ join separator fields ↔ ∀ field ∈ fields, other ∉ field := by
  unfold join
  induction fields with
  | nil => simp
  | cons field fields induction =>
      cases fields with
      | nil => simp
      | cons next fields =>
          rw [List.intercalate_cons_cons, List.mem_append, List.mem_append,
            List.mem_singleton, List.forall_mem_cons, ← induction]
          simp [apart]

/-- A line and its terminator are one line exactly when no other terminator is
in it. -/
theorem count_terminated {terminator : α} {line : List α} :
    (line ++ [terminator]).count terminator = 1 ↔ terminator ∉ line := by
  rw [List.count_append, List.count_singleton_self, ← List.count_eq_zero]
  omega

theorem lines_unlines {terminator : α} {text : List (List α)}
    (free : ∀ line ∈ text, terminator ∉ line) :
    lines terminator (unlines terminator text) = text := by
  unfold lines split unlines
  induction text with
  | nil => rfl
  | cons line text induction =>
      obtain ⟨here, there⟩ := List.forall_mem_cons.mp free
      rw [List.flatMap_cons, List.append_assoc, List.singleton_append,
        List.splitOn_append_cons_self_of_not_mem here,
        List.dropLast_cons_of_ne_nil (List.splitOn_ne_nil _ _), induction there]

end Delimited
