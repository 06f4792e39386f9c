import SocksProxy.Lib.BoundedMap
import SocksProxy.Users

/-! The user table as a map from names to passwords, and every sequence of calls
of the functions of `users.c` on the two. -/

namespace SocksProxy

abbrev UserName := {s : CString // 0 < s.strlen ∧ s.strlen ≤ usersMaxName}
abbrev UserPass := {s : CString // 0 < s.strlen ∧ s.strlen ≤ usersMaxPass}

abbrev UserMap := BoundedMap UserName UserPass usersMax

/-- A call of one of the functions; `none` is a NULL argument. -/
inductive UsersCall
  | add (name pass : Option CString)
  | del (name : Option CString)
  | check (name pass : Option CString)
  | exists (name : Option CString)
  | count
  | nameAt (i : Nat)

inductive UsersReturn
  | result (result : UsersResult)
  | decided (found : Bool)
  | number (count : Nat)
  | name (name : Option CString)

def usersCall (db : UserTable) : UsersCall → UserTable × UsersReturn
  | .add name pass =>
      ((usersAdd db name pass).1, .result (usersAdd db name pass).2)
  | .del name => ((usersDel db name).1, .result (usersDel db name).2)
  | .check name pass => (db, .decided (usersCheck db name pass))
  | .exists name => (db, .decided (usersExists db name))
  | .count => (db, .number (usersCount db))
  | .nameAt i => (db, .name (usersNameAt db i))

def usersCalls (calls : List UsersCall) : UserTable :=
  calls.foldl (fun db call => (usersCall db call).1) usersInit

namespace UserMap

def field (max : Nat) (s : Option CString) :
    Option {s : CString // 0 < s.strlen ∧ s.strlen ≤ max} :=
  s.bind fun s => if sized : 0 < s.strlen ∧ s.strlen ≤ max then some ⟨s, sized⟩
                  else none

def add (m : UserMap) (name pass : Option CString) : UserMap × UsersResult :=
  match field usersMaxName name, field usersMaxPass pass with
  | some name, some pass =>
      match m.store name pass with
      | some next => (next, .ok)
      | none => (m, .full)
  | _, _ => (m, .invalid)

def del (m : UserMap) (name : Option CString) : UserMap × UsersResult :=
  match name with
  | none => (m, .invalid)
  | some name =>
      match field usersMaxName (some name) with
      | some name => if name ∈ m then (m.erase name, .ok) else (m, .notFound)
      | none => (m, .notFound)

def check (m : UserMap) (name pass : Option CString) : Bool :=
  (field usersMaxName name).any fun name =>
    (m.get name).any fun stored => pass == some stored.val

def has (m : UserMap) (name : Option CString) : Bool :=
  (field usersMaxName name).any fun name => decide (name ∈ m)

def next (m : UserMap) : UsersCall → UserMap
  | .add name pass => (m.add name pass).1
  | .del name => (m.del name).1
  | _ => m

/-- What the map answers when its names are enumerated in the given order. -/
def answer (m : UserMap) (order : List UserName) : UsersCall → UsersReturn
  | .add name pass => .result (m.add name pass).2
  | .del name => .result (m.del name).2
  | .check name pass => .decided (m.check name pass)
  | .exists name => .decided (m.has name)
  | .count => .number m.size
  | .nameAt i => .name (order[i]?.map Subtype.val)

def after (calls : List UsersCall) : UserMap := calls.foldl next .empty

theorem field_eq_some {max : Nat} {s : Option CString}
    {key : {s : CString // 0 < s.strlen ∧ s.strlen ≤ max}} :
    field max s = some key ↔ s = some key.val := by
  unfold field
  constructor
  · intro accepted
    obtain ⟨string, rfl, chosen⟩ := Option.bind_eq_some_iff.mp accepted
    obtain ⟨sized, same⟩ := Option.dite_none_right_eq_some.mp chosen
    cases same
    rfl
  · rintro rfl
    simp [key.property]

@[simp] theorem field_self {max : Nat}
    (key : {s : CString // 0 < s.strlen ∧ s.strlen ≤ max}) :
    field max (some key.val) = some key := field_eq_some.mpr rfl

theorem validField_eq (max : Nat) (s : Option CString) :
    validField s max = (field max s).map Subtype.val := by
  cases s with
  | none => rfl
  | some s =>
      unfold validField field
      by_cases sized : 0 < s.strlen ∧ s.strlen ≤ max
      · simp [sized]
      · simp [Option.filter, sized]

end UserMap

def User.of (entry : UserName × UserPass) : User := ⟨entry.1.val, entry.2.val⟩

def UserTable.of (slots : Fin usersMax → Option (UserName × UserPass)) :
    UserTable :=
  Option.map User.of ∘ slots

namespace UserMap

open BoundedMap

variable {slots : Fin usersMax → Option (UserName × UserPass)} {m : UserMap}

private theorem of_eq_some {i : Fin usersMax} {user : User}
    (stored : UserTable.of slots i = some user) :
    ∃ name pass, slots i = some (name, pass) ∧ user = ⟨name.val, pass.val⟩ := by
  obtain ⟨⟨name, pass⟩, used, rfl⟩ := Option.map_eq_some_iff.mp stored
  exact ⟨name, pass, used, rfl⟩

private theorem update_of (idx : Fin usersMax)
    (entry : Option (UserName × UserPass)) :
    Function.update (UserTable.of slots) idx (entry.map User.of) =
      UserTable.of (Function.update slots idx entry) :=
  (Function.comp_update (Option.map User.of) slots idx entry).symm

private theorem find_of_some {name : CString} {idx : Fin usersMax}
    (found : (UserTable.of slots).find name = some idx) :
    ∃ key pass, slots idx = some (key, pass) ∧ key.val = name := by
  obtain ⟨user, stored, named⟩ := UserTable.find_some found
  obtain ⟨key, pass, used, rfl⟩ := of_eq_some stored
  exact ⟨key, pass, used, named⟩

private theorem find_of_none {name : CString}
    (missing : (UserTable.of slots).find name = none) {i : Fin usersMax}
    {key : UserName} {pass : UserPass} (used : slots i = some (key, pass)) :
    key.val ≠ name := by
  have stored : UserTable.of slots i = some ⟨key.val, pass.val⟩ := by
    simp [UserTable.of, used, User.of]
  exact UserTable.find_none missing stored

/-- The lookup scans every slot, and so decides whether the map has the name. -/
private theorem find_of (holds : Holds slots m) (key : UserName) :
    ((UserTable.of slots).find key.val).isSome = true ↔ key ∈ m := by
  rw [mem_iff]
  constructor
  · intro located
    obtain ⟨idx, found⟩ := Option.isSome_iff_exists.mp located
    obtain ⟨other, pass, used, same⟩ := find_of_some found
    cases Subtype.ext same
    exact ⟨pass, holds.stored used⟩
  · rintro ⟨pass, present⟩
    obtain ⟨i, used⟩ := holds.placed present
    cases found : (UserTable.of slots).find key.val with
    | none => exact absurd rfl (find_of_none found used)
    | some idx => rfl

/-- The table is the array of slots of the map. -/
def Refines (db : UserTable) (m : UserMap) : Prop :=
  ∃ slots, db = UserTable.of slots ∧ Holds slots m

theorem add_refines (holds : Holds slots m) (name pass : Option CString) :
    (usersAdd (UserTable.of slots) name pass).2 = (m.add name pass).2 ∧
      Refines (usersAdd (UserTable.of slots) name pass).1
        (m.add name pass).1 := by
  cases validName : field usersMaxName name with
  | none =>
      have refused : usersAdd (UserTable.of slots) name pass =
          (UserTable.of slots, .invalid) := by
        simp [usersAdd, validField_eq, validName]
      rw [refused, add, validName]
      exact ⟨rfl, slots, rfl, holds⟩
  | some key =>
      cases validPass : field usersMaxPass pass with
      | none =>
          have refused : usersAdd (UserTable.of slots) name pass =
              (UserTable.of slots, .invalid) := by
            simp [usersAdd, validField_eq, validPass]
          rw [refused, add, validName, validPass]
          exact ⟨rfl, slots, rfl, holds⟩
      | some value =>
          have named : validField name usersMaxName = some key.val := by
            rw [validField_eq, validName, Option.map_some]
          have secret : validField pass usersMaxPass = some value.val := by
            rw [validField_eq, validPass, Option.map_some]
          have decides := find_of holds key
          unfold add
          rw [validName, validPass]
          dsimp only
          cases found : (UserTable.of slots).find key.val with
          | some idx =>
              rw [found] at decides
              have room : key ∈ m ∨ m.size < usersMax := .inl (decides.mp rfl)
              rw [UserTable.add_known named secret found, store, dif_pos room]
              refine ⟨rfl, _, update_of idx (some (key, value)), ?_⟩
              obtain ⟨other, old, used, same⟩ := find_of_some found
              cases Subtype.ext same
              refine holds.insert value room ?_ fun again =>
                holds.alone again used
              intro other kept here
              rw [used] at here
              cases here
              rfl
          | none =>
              rw [found] at decides
              have absent : key ∉ m :=
                fun present => absurd (decides.mpr present) (by simp)
              rcases UserTable.add_new named secret found with
                ⟨i, hole, added⟩ | ⟨full, added⟩
              · have empty : slots i = none := Option.map_eq_none_iff.mp hole
                have room : key ∈ m ∨ m.size < usersMax :=
                  .inr (holds.free_iff.mpr ⟨i, empty⟩)
                rw [added, store, dif_pos room]
                refine ⟨rfl, _, update_of i (some (key, value)), ?_⟩
                refine holds.insert value room ?_ ?_
                · intro other old used
                  rw [empty] at used
                  cases used
                · intro j old used
                  exact absurd (mem_iff.mpr ⟨old, holds.stored used⟩) absent
              · have refused : ¬ (key ∈ m ∨ m.size < usersMax) := by
                  rintro (present | room)
                  · exact absent present
                  · obtain ⟨i, hole⟩ := holds.free_iff.mp room
                    exact full i (Option.map_eq_none_iff.mpr hole)
                rw [added, store, dif_neg refused]
                exact ⟨rfl, slots, rfl, holds⟩

theorem del_refines (holds : Holds slots m) (name : Option CString) :
    (usersDel (UserTable.of slots) name).2 = (m.del name).2 ∧
      Refines (usersDel (UserTable.of slots) name).1 (m.del name).1 := by
  cases name with
  | none => exact ⟨rfl, slots, rfl, holds⟩
  | some name =>
      unfold usersDel del
      dsimp only
      cases found : (UserTable.of slots).find name with
      | some idx =>
          obtain ⟨key, value, used, rfl⟩ := find_of_some found
          have present : key ∈ m := mem_iff.mpr ⟨value, holds.stored used⟩
          rw [field_self]
          dsimp only
          rw [if_pos present]
          exact ⟨rfl, _, update_of idx none, holds.erase used⟩
      | none =>
          cases valid : field usersMaxName (some name) with
          | none => exact ⟨rfl, slots, rfl, holds⟩
          | some key =>
              cases field_eq_some.mp valid
              have absent : key ∉ m := by
                rw [← find_of holds key, found]
                simp
              dsimp only
              rw [if_neg absent]
              exact ⟨rfl, slots, rfl, holds⟩

theorem next_refines {db : UserTable} (refines : Refines db m)
    (call : UsersCall) :
    Refines (usersCall db call).1 (m.next call) := by
  obtain ⟨slots, rfl, holds⟩ := refines
  cases call with
  | add name pass => exact (add_refines holds name pass).2
  | del name => exact (del_refines holds name).2
  | check | «exists» | count | nameAt => exact ⟨slots, rfl, holds⟩

theorem refines_after (calls : List UsersCall) :
    Refines (usersCalls calls) (after calls) := by
  unfold usersCalls after
  have start : Refines usersInit .empty := ⟨fun _ => none, rfl, Holds.empty⟩
  revert start
  generalize usersInit = db
  generalize (BoundedMap.empty : UserMap) = m
  intro refines
  induction calls generalizing db m with
  | nil => exact refines
  | cons call calls induction => exact induction _ _ (next_refines refines call)

private theorem check_refines (holds : Holds slots m)
    (name pass : Option CString) :
    usersCheck (UserTable.of slots) name pass = m.check name pass := by
  cases name with
  | none => rfl
  | some name =>
      cases pass with
      | none =>
          unfold check
          cases field usersMaxName (some name) with
          | none => rfl
          | some key =>
              rw [Option.any_some]
              cases m.get key <;> rfl
      | some pass =>
          unfold usersCheck check
          dsimp only
          cases found : (UserTable.of slots).find name with
          | some idx =>
              obtain ⟨key, value, used, rfl⟩ := find_of_some found
              rw [field_self, Option.any_some, holds.stored used]
              simp [UserTable.of, used, User.of, eq_comm, Bool.beq_eq_decide_eq]
          | none =>
              cases valid : field usersMaxName (some name) with
              | none => rfl
              | some key =>
                  cases field_eq_some.mp valid
                  have absent : m.get key = none := by
                    cases stored : m.get key with
                    | none => rfl
                    | some value =>
                        have present :=
                          (find_of holds key).mpr (mem_iff.mpr ⟨value, stored⟩)
                        rw [found] at present
                        cases present
                  simp [absent]

private theorem exists_refines (holds : Holds slots m) (name : Option CString) :
    usersExists (UserTable.of slots) name = m.has name := by
  cases name with
  | none => rfl
  | some name =>
      unfold usersExists has
      rw [Option.any_some]
      cases valid : field usersMaxName (some name) with
      | some key =>
          cases field_eq_some.mp valid
          rw [Option.any_some, Bool.eq_iff_iff, decide_eq_true_eq]
          exact find_of holds key
      | none =>
          cases found : (UserTable.of slots).find name with
          | none => rfl
          | some idx =>
              obtain ⟨key, value, used, rfl⟩ := find_of_some found
              rw [field_self] at valid
              cases valid

private theorem names_of (slots : Fin usersMax → Option (UserName × UserPass)) :
    (UserTable.of slots).names = (listed slots).map Subtype.val := by
  unfold listed
  rw [List.map_filterMap]
  apply List.filterMap_congr
  intro i _
  unfold UserTable.of
  rw [Function.comp_apply, Option.map_map, Option.map_map]
  rfl

theorem answers {slots : Fin usersMax → Option (UserName × UserPass)}
    {m : UserMap} (holds : Holds slots m) (call : UsersCall) :
    (usersCall (UserTable.of slots) call).2 = m.answer (listed slots) call := by
  cases call with
  | add name pass =>
      exact congrArg UsersReturn.result (add_refines holds name pass).1
  | del name => exact congrArg UsersReturn.result (del_refines holds name).1
  | check name pass =>
      exact congrArg UsersReturn.decided (check_refines holds name pass)
  | «exists» name =>
      exact congrArg UsersReturn.decided (exists_refines holds name)
  | count =>
      apply congrArg UsersReturn.number
      rw [UserTable.usersCount_eq, names_of, List.length_map,
        holds.lists.length]
  | nameAt i =>
      apply congrArg UsersReturn.name
      rw [UserTable.usersNameAt_eq, names_of, List.getElem?_map]

theorem get_add {m : UserMap} {key : UserName} {value : UserPass}
    (room : key ∈ m ∨ m.size < usersMax) (other : UserName) :
    (m.next (.add key.val value.val)).get other =
      if other = key then some value else m.get other := by
  have added : m.add key.val value.val = (m.insert key value room, .ok) := by
    simp [add, store, room]
  change (m.add key.val value.val).1.get other = _
  rw [added]
  exact get_insert m key other value room

theorem add_ok_iff {m : UserMap} {key : UserName} {value : UserPass} :
    (m.add key.val value.val).2 = .ok ↔ key ∈ m ∨ m.size < usersMax := by
  by_cases room : key ∈ m ∨ m.size < usersMax <;> simp [add, store, room]

theorem get_del (m : UserMap) (key other : UserName) :
    (m.next (.del key.val)).get other = if other = key then none
      else m.get other := by
  change (m.del key.val).1.get other = _
  by_cases present : key ∈ m
  · simp [del, present, get_erase]
  · have absent : m.get key = none := Finmap.lookup_eq_none.mpr present
    by_cases same : other = key
    · simp [del, present, same, absent]
    · simp [del, present, same]

end UserMap

theorem usersCall_failed {db : UserTable} {call : UsersCall}
    {result : UsersResult} (returns : (usersCall db call).2 = .result result)
    (failed : result ≠ .ok) :
    (usersCall db call).1 = db := by
  cases call with
  | add name pass =>
      cases returns
      change (usersAdd db name pass).2 ≠ .ok at failed
      change (usersAdd db name pass).1 = db
      unfold usersAdd at failed ⊢
      split
      · next key value named secret =>
          rw [named, secret] at failed
          dsimp only at failed
          split
          · next found =>
              rw [found] at failed
              exact absurd rfl failed
          · next missing =>
              rw [missing] at failed
              dsimp only at failed
              split
              · next free =>
                  rw [free] at failed
                  exact absurd rfl failed
              · rfl
      · rfl
  | del name =>
      cases returns
      change (usersDel db name).2 ≠ .ok at failed
      change (usersDel db name).1 = db
      unfold usersDel at failed ⊢
      cases name with
      | none => rfl
      | some name =>
          dsimp only at failed ⊢
          split
          · rfl
          · next found =>
              rw [found] at failed
              exact absurd rfl failed
  | check | «exists» | count | nameAt => rfl

/-- After every sequence of calls the table answers every call as the map does,
with its names in some order. -/
theorem users_refine (calls : List UsersCall) :
    (∃ order, (UserMap.after calls).Lists order ∧
      ∀ call, (usersCall (usersCalls calls) call).2 =
        (UserMap.after calls).answer order call) ∧
    (usersCalls calls).UniqueNames ∧
    (∀ call result, (usersCall (usersCalls calls) call).2 = .result result →
      result ≠ .ok → (usersCall (usersCalls calls) call).1 = usersCalls calls) ∧
    (∀ (key : UserName) (value : UserPass),
      ((usersAdd (usersCalls calls) key.val value.val).2 = .ok ↔
        key ∈ UserMap.after calls ∨ (UserMap.after calls).size < usersMax) ∧
      (key ∈ UserMap.after calls ∨ (UserMap.after calls).size < usersMax →
        ∀ other, (UserMap.after (calls ++ [.add key.val value.val])).get other =
          if other = key then some value
            else (UserMap.after calls).get other)) ∧
    (∀ key other : UserName,
      (UserMap.after (calls ++ [.del key.val])).get other =
        if other = key then none else (UserMap.after calls).get other) := by
  obtain ⟨slots, same, holds⟩ := UserMap.refines_after calls
  have extended (call : UsersCall) :
      UserMap.after (calls ++ [call]) = (UserMap.after calls).next call := by
    simp [UserMap.after]
  refine ⟨⟨BoundedMap.listed slots, holds.lists, ?_⟩, ?_, ?_, ?_, ?_⟩
  · intro call
    rw [same]
    exact UserMap.answers holds call
  · rw [same]
    intro i j left right first second named
    obtain ⟨name, pass, used, rfl⟩ := UserMap.of_eq_some first
    obtain ⟨other, secret, again, rfl⟩ := UserMap.of_eq_some second
    cases Subtype.ext named
    exact holds.alone used again
  · intro call result returns failed
    exact usersCall_failed returns failed
  · intro key value
    refine ⟨?_, ?_⟩
    · rw [same, (UserMap.add_refines holds _ _).1]
      exact UserMap.add_ok_iff
    · intro room other
      rw [extended]
      exact UserMap.get_add room other
  · intro key other
    rw [extended]
    exact UserMap.get_del _ key other

end SocksProxy
