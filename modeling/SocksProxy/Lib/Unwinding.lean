import Mathlib.Data.List.Forall2

/-! Two executions in lock step: what related states put out on related
inputs. -/

namespace Unwinding

section Results

variable {Left Right Value : Type _}

/-- Results that carry the same value beside related states. -/
def Agree (R : Left → Right → Prop) (left : Left × Value)
    (right : Right × Value) :
    Prop :=
  R left.1 right.1 ∧ left.2 = right.2

theorem Agree.values {R : Left → Right → Prop} {left : Left × Value}
    {right : Right × Value} (agree : Agree R left right) :
    ∃ first second value, left = (first, value) ∧ right = (second, value) ∧
      R first second :=
  ⟨left.1, right.1, left.2, rfl, Prod.ext rfl agree.2.symm, agree.1⟩

theorem rel_map {First Second : Type _} {R : Left → Right → Prop}
    {S : First → Second → Prop} {left : Option Left} {right : Option Right}
    (both : Option.Rel R left right) {f : Left → First} {g : Right → Second}
    (maps : ∀ {first second}, R first second → S (f first) (g second)) :
    Option.Rel S (left.map f) (right.map g) := by
  cases both with
  | none => exact .none
  | some related => exact .some (maps related)

theorem rel_bind {First Second : Type _} {R : Left → Right → Prop}
    {S : First → Second → Prop} {left : Option Left} {right : Option Right}
    (both : Option.Rel R left right) {f : Left → Option First}
    {g : Right → Option Second}
    (binds :
      ∀ {first second}, R first second → Option.Rel S (f first) (g second)) :
    Option.Rel S (left.bind f) (right.bind g) := by
  cases both with
  | none => exact .none
  | some related => exact binds related

end Results

section Runs

variable {Left Right Input Output : Type _}

/-- What a machine puts out on a list of inputs, until it ends by itself; `none`
when it gets stuck. -/
def outputs (step : Left → Input → Option (Output × Option Left)) :
    Left → List Input → Option (List Output)
  | _, [] => some []
  | state, input :: rest =>
      (step state input).bind fun (output, next) =>
        match next with
        | none => some [output]
        | some state => (outputs step state rest).map (output :: ·)

/-- The same output, and related states or the end of both. -/
def Matched (R : Left → Right → Prop) (left : Output × Option Left)
    (right : Output × Option Right) : Prop :=
  left.1 = right.1 ∧ Option.Rel R left.2 right.2

theorem outputs_eq {leftStep : Left → Input → Option (Output × Option Left)}
    {rightStep : Right → Input → Option (Output × Option Right)}
    {R : Left → Right → Prop} {Q : Input → Input → Prop}
    (steps : ∀ {left right input other}, R left right → Q input other →
      Option.Rel (Matched R) (leftStep left input) (rightStep right other))
    {left : Left} {right : Right} (related : R left right)
    {inputs others : List Input} (same : List.Forall₂ Q inputs others) :
    outputs leftStep left inputs = outputs rightStep right others := by
  induction same generalizing left right with
  | nil => rfl
  | @cons input other inputs others alike _ induction =>
      have matched := steps related alike
      unfold outputs
      generalize leftStep left input = first at matched ⊢
      generalize rightStep right other = second at matched ⊢
      cases matched with
      | none => rfl
      | @some first second both =>
          obtain ⟨output, next⟩ := first
          obtain ⟨_, later⟩ := second
          obtain ⟨rfl, both⟩ := both
          cases both with
          | none => rfl
          | some related =>
              exact congrArg (Option.map (output :: ·)) (induction related)

end Runs

end Unwinding
