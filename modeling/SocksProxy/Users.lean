import Mathlib.Data.Fintype.Basic
import SocksProxy.CString

/-! The user table of `users.c`: a fixed array of slots, some of them used. -/

namespace SocksProxy

def usersMax : Nat := 64
def usersMaxName : Nat := 255
def usersMaxPass : Nat := 255

structure User where
  name : CString
  pass : CString
  deriving DecidableEq

/-- `db`; an unused slot is all zero in the source and `none` here. -/
abbrev UserTable := Fin usersMax → Option User

inductive UsersResult
  | ok | exists | notFound | full | invalid
  deriving DecidableEq, Repr

def usersInit : UserTable := fun _ => none

private def slots : List (Fin usersMax) := List.finRange usersMax

def UserTable.find (db : UserTable) (name : CString) : Option (Fin usersMax) :=
  slots.find? fun i => (db i).any fun user => user.name == name

def validField (s : Option CString) (max : Nat) : Option CString :=
  s.filter fun string => decide (0 < string.strlen ∧ string.strlen ≤ max)

def usersAdd (db : UserTable) (name pass : Option CString) :
    UserTable × UsersResult :=
  match validField name usersMaxName, validField pass usersMaxPass with
  | some name, some pass =>
      match db.find name with
      | some idx => (Function.update db idx (some ⟨name, pass⟩), .ok)
      | none =>
          match slots.find? fun i => (db i).isNone with
          | some i => (Function.update db i (some ⟨name, pass⟩), .ok)
          | none => (db, .full)
  | _, _ => (db, .invalid)

def usersDel (db : UserTable) (name : Option CString) :
    UserTable × UsersResult :=
  match name with
  | none => (db, .invalid)
  | some name =>
      match db.find name with
      | none => (db, .notFound)
      | some idx => (Function.update db idx none, .ok)

def usersCheck (db : UserTable) (name pass : Option CString) : Bool :=
  match name, pass with
  | some name, some pass =>
      match db.find name with
      | none => false
      | some idx => (db idx).any fun user => user.pass == pass
  | _, _ => false

def usersExists (db : UserTable) (name : Option CString) : Bool :=
  name.any fun name => (db.find name).isSome

def usersCount (db : UserTable) : Nat :=
  slots.countP fun i => (db i).isSome

def usersNameAt (db : UserTable) (i : Nat) : Option CString :=
  (slots.filterMap fun j => (db j).map User.name)[i]?

namespace UserTable

def UniqueNames (db : UserTable) : Prop :=
  ∀ i j left right, db i = some left → db j = some right →
    left.name = right.name → i = j

theorem find_some {db : UserTable} {name : CString} {idx : Fin usersMax}
    (found : db.find name = some idx) :
    ∃ user, db idx = some user ∧ user.name = name := by
  have holds := List.find?_some found
  simpa [Option.any_eq_true] using holds

theorem find_none {db : UserTable} {name : CString}
    (missing : db.find name = none) {i : Fin usersMax} {user : User}
    (stored : db i = some user) : user.name ≠ name := by
  have holds := List.find?_eq_none.mp missing i (List.mem_finRange i)
  simpa [stored] using holds

/-- A name that is present keeps its slot. -/
theorem add_known {db : UserTable} {name pass : Option CString}
    {key value : CString} {idx : Fin usersMax}
    (validName : validField name usersMaxName = some key)
    (validPass : validField pass usersMaxPass = some value)
    (found : db.find key = some idx) :
    usersAdd db name pass =
      (Function.update db idx (some ⟨key, value⟩), .ok) := by
  simp [usersAdd, validName, validPass, found]

/-- A new name goes to a free slot when there is one. -/
theorem add_new {db : UserTable} {name pass : Option CString}
    {key value : CString} (validName : validField name usersMaxName = some key)
    (validPass : validField pass usersMaxPass = some value)
    (missing : db.find key = none) :
    (∃ i, db i = none ∧
      usersAdd db name pass = (Function.update db i (some ⟨key, value⟩), .ok)) ∨
    ((∀ i, db i ≠ none) ∧ usersAdd db name pass = (db, .full)) := by
  simp only [usersAdd, validName, validPass, missing]
  cases free : slots.find? fun i => (db i).isNone with
  | some i =>
      refine .inl ⟨i, ?_, rfl⟩
      simpa using List.find?_some free
  | none =>
      refine .inr ⟨fun i hole => ?_, rfl⟩
      have used := List.find?_eq_none.mp free i (List.mem_finRange i)
      exact used (by rw [hole]; rfl)

theorem uniqueNames_init : UniqueNames usersInit := by
  intro i j left right stored
  simp [usersInit] at stored

theorem uniqueNames_update {db : UserTable} {idx : Fin usersMax} {user : User}
    (unique : db.UniqueNames)
    (alone : ∀ i other, i ≠ idx → db i = some other → other.name ≠ user.name) :
    UniqueNames (Function.update db idx (some user)) := by
  intro i j left right storedLeft storedRight same
  by_cases first : i = idx <;> by_cases second : j = idx
  · rw [first, second]
  · subst first
    rw [Function.update_self, Option.some.injEq] at storedLeft
    rw [Function.update_of_ne second] at storedRight
    exact absurd (same.symm.trans (congrArg User.name storedLeft.symm))
      (alone j right second storedRight)
  · subst second
    rw [Function.update_self, Option.some.injEq] at storedRight
    rw [Function.update_of_ne first] at storedLeft
    exact absurd (same.trans (congrArg User.name storedRight.symm))
      (alone i left first storedLeft)
  · rw [Function.update_of_ne first] at storedLeft
    rw [Function.update_of_ne second] at storedRight
    exact unique i j left right storedLeft storedRight same

theorem uniqueNames_add {db : UserTable} (unique : db.UniqueNames)
    (name pass : Option CString) : UniqueNames (usersAdd db name pass).1 := by
  unfold usersAdd
  split
  next name pass _ _ =>
    cases found : db.find name with
    | some idx =>
        obtain ⟨old, stored, named⟩ := find_some found
        apply uniqueNames_update unique
        intro i other apart held same
        exact apart (unique i idx other old held stored (same.trans named.symm))
    | none =>
        dsimp only
        split
        · apply uniqueNames_update unique
          intro i other _ held
          exact find_none found held
        · exact unique
  · exact unique

theorem uniqueNames_del {db : UserTable} (unique : db.UniqueNames)
    (name : Option CString) : UniqueNames (usersDel db name).1 := by
  cases name with
  | none => exact unique
  | some name =>
      cases found : db.find name with
      | none => simpa [usersDel, found] using unique
      | some idx =>
          simp only [usersDel, found]
          intro i j left right storedLeft storedRight same
          by_cases first : i = idx
          · simp [first] at storedLeft
          · by_cases second : j = idx
            · simp [second] at storedRight
            · rw [Function.update_of_ne first] at storedLeft
              rw [Function.update_of_ne second] at storedRight
              exact unique i j left right storedLeft storedRight same

theorem check_iff {db : UserTable} (unique : db.UniqueNames)
    (name pass : CString) :
    usersCheck db name pass = true ↔ ∃ i, db i = some ⟨name, pass⟩ := by
  unfold usersCheck
  dsimp only
  constructor
  · intro accepted
    cases found : db.find name with
    | none => simp [found] at accepted
    | some idx =>
        obtain ⟨user, stored, named⟩ := find_some found
        simp only [found, stored, Option.any_some, beq_iff_eq] at accepted
        refine ⟨idx, ?_⟩
        rw [stored, ← named, ← accepted]
  · rintro ⟨i, stored⟩
    cases found : db.find name with
    | none => exact absurd rfl (find_none found stored)
    | some idx =>
        obtain ⟨user, held, named⟩ := find_some found
        have same := unique idx i user ⟨name, pass⟩ held stored named
        subst same
        simp [stored]

/-- The stored names in the order of their slots. -/
def names (db : UserTable) : List CString :=
  slots.filterMap fun i => (db i).map User.name

theorem usersNameAt_eq (db : UserTable) (i : Nat) :
    usersNameAt db i = db.names[i]? := rfl

theorem usersCount_eq (db : UserTable) : usersCount db = db.names.length := by
  unfold usersCount names
  rw [List.countP_eq_length_filter, List.length_filterMap_eq_countP,
    ← List.countP_eq_length_filter]
  congr 1
  funext i
  cases db i <;> rfl

theorem length_names_le (db : UserTable) : db.names.length ≤ usersMax := by
  unfold names
  refine (List.length_filterMap_le _ _).trans ?_
  simp [slots]

theorem mem_names {db : UserTable} {name : CString} :
    name ∈ db.names ↔ ∃ i user, db i = some user ∧ user.name = name := by
  simp only [names, List.mem_filterMap, Option.map_eq_some_iff]
  constructor
  · rintro ⟨i, -, user, stored, named⟩
    exact ⟨i, user, stored, named⟩
  · rintro ⟨i, user, stored, named⟩
    exact ⟨i, List.mem_finRange i, user, stored, named⟩

theorem nodup_names {db : UserTable} (unique : db.UniqueNames) :
    db.names.Nodup := by
  refine (List.nodup_finRange usersMax).filterMap ?_
  intro i j name first second
  obtain ⟨left, storedLeft, namedLeft⟩ := Option.map_eq_some_iff.mp first
  obtain ⟨right, storedRight, namedRight⟩ := Option.map_eq_some_iff.mp second
  exact unique i j left right storedLeft storedRight
    (namedLeft.trans namedRight.symm)

def Sized (db : UserTable) : Prop :=
  ∀ i user, db i = some user → 0 < user.name.strlen ∧
    user.name.strlen ≤ usersMaxName

theorem sized_init : Sized usersInit := by
  intro i user stored
  simp [usersInit] at stored

private theorem sized_update {db : UserTable} (sized : db.Sized)
    (idx : Fin usersMax) {entry : Option User}
    (fits :
      ∀ user ∈ entry, 0 < user.name.strlen ∧ user.name.strlen ≤ usersMaxName) :
    Sized (Function.update db idx entry) := by
  intro i user stored
  by_cases same : i = idx
  · subst same
    rw [Function.update_self] at stored
    exact fits user stored
  · rw [Function.update_of_ne same] at stored
    exact sized i user stored

theorem sized_add {db : UserTable} (sized : db.Sized)
    (name pass : Option CString) :
    Sized (usersAdd db name pass).1 := by
  unfold usersAdd
  split
  next name pass validName _ =>
    have fits (word : CString) : ∀ user ∈ some (⟨name, word⟩ : User),
        0 < user.name.strlen ∧ user.name.strlen ≤ usersMaxName := by
      rintro user ⟨⟩
      have valid := Option.filter_eq_some_iff.mp validName
      simpa using valid.2
    cases found : db.find name with
    | some idx => exact sized_update sized idx (fits pass)
    | none =>
        dsimp only
        split
        · exact sized_update sized _ (fits pass)
        · exact sized
  · exact sized

theorem sized_del {db : UserTable} (sized : db.Sized) (name : Option CString) :
    Sized (usersDel db name).1 := by
  cases name with
  | none => exact sized
  | some name =>
      cases found : db.find name with
      | none => simpa [usersDel, found] using sized
      | some idx =>
          simp only [usersDel, found]
          exact sized_update sized idx (by simp)

end UserTable

end SocksProxy
