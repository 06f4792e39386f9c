import Mathlib.Data.List.Basic

/-! Descriptor tables: finitely many used slots, numbered from zero, with
allocation at the lowest free number. -/

structure Table (α : Type _) where
  slots : List (Option α)

namespace Table

variable {α : Type _}

def empty : Table α := ⟨[]⟩

def get (table : Table α) (number : Nat) : Option α :=
  (table.slots[number]?).join

private def firstFree : List (Option α) → Nat
  | [] => 0
  | none :: _ => 0
  | some _ :: rest => firstFree rest + 1

def lowestFree (table : Table α) : Nat :=
  firstFree table.slots

private def put (value : Option α) : Nat → List (Option α) → List (Option α)
  | 0, [] => [value]
  | 0, _ :: rest => value :: rest
  | number + 1, [] => none :: put value number []
  | number + 1, slot :: rest => slot :: put value number rest

def insert (table : Table α) (number : Nat) (value : α) : Table α :=
  ⟨put (some value) number table.slots⟩

def erase (table : Table α) (number : Nat) : Table α :=
  ⟨put none number table.slots⟩

private theorem join_put (value : Option α) (number other : Nat)
    (slots : List (Option α)) :
    ((put value number slots)[other]?).join =
      if other = number then value else (slots[other]?).join := by
  induction number generalizing other slots with
  | zero =>
      cases slots with
      | nil => cases other <;> simp [put]
      | cons slot rest => cases other <;> simp [put]
  | succ number induction =>
      cases slots with
      | nil =>
          cases other with
          | zero => simp [put]
          | succ other =>
              simpa [put] using induction other []
      | cons slot rest =>
          cases other with
          | zero => simp [put]
          | succ other =>
              simpa [put] using induction other rest

theorem get_insert (table : Table α) (number other : Nat) (value : α) :
    (table.insert number value).get other =
      if other = number then some value else table.get other :=
  join_put (some value) number other table.slots

theorem get_erase (table : Table α) (number other : Nat) :
    (table.erase number).get other =
      if other = number then none else table.get other :=
  join_put none number other table.slots

@[simp] theorem get_empty (number : Nat) :
    (empty : Table α).get number = none := by
  simp [get, empty]

private theorem join_firstFree (slots : List (Option α)) :
    (slots[firstFree slots]?).join = none := by
  induction slots with
  | nil => rfl
  | cons slot rest induction =>
      cases slot with
      | none => rfl
      | some value => simpa [firstFree] using induction

@[simp] theorem get_lowestFree (table : Table α) :
    table.get table.lowestFree = none :=
  join_firstFree table.slots

private theorem join_before_firstFree {slots : List (Option α)} {number : Nat}
    (before : number < firstFree slots) : ((slots[number]?).join).isSome := by
  induction slots generalizing number with
  | nil => simp [firstFree] at before
  | cons slot rest induction =>
      cases slot with
      | none => simp [firstFree] at before
      | some value =>
          cases number with
          | zero => rfl
          | succ number =>
              have below : number < firstFree rest := by
                simpa [firstFree] using before
              exact induction below

theorem used_before_lowestFree {table : Table α} {number : Nat}
    (before : number < table.lowestFree) : (table.get number).isSome :=
  join_before_firstFree before

end Table
