/-! Labelled transition systems, their finite runs and the rules that lift a
fact about one step to a fact about a whole run. -/

namespace Transition

structure System (State : Type _) (Label : Type _) where
  init : State → Prop
  step : State → Label → State → Prop

namespace System

variable {State Label : Type _} {system : System State Label}

/-- Finite runs, extended at their end, with the labels of their steps. -/
inductive Run (system : System State Label) :
    State → List Label → State → Prop
  | nil (state : State) : Run system state [] state
  | snoc {first middle last : State} {labels : List Label} {label : Label}
      (before : Run system first labels middle)
      (step : system.step middle label last) :
      Run system first (labels ++ [label]) last

def Reachable (system : System State Label) (state : State) : Prop :=
  ∃ first labels, system.init first ∧ system.Run first labels state

theorem Run.single {first last : State} {label : Label}
    (step : system.step first label last) : system.Run first [label] last := by
  simpa using Run.snoc (Run.nil first) step

theorem Run.append {first middle last : State} {left right : List Label}
    (before : system.Run first left middle)
    (after : system.Run middle right last) :
    system.Run first (left ++ right) last := by
  induction after with
  | nil => simpa using before
  | snoc _ step induction =>
      rw [← List.append_assoc]
      exact .snoc induction step

theorem Run.of_nil {first last : State} (run : system.Run first [] last) :
    last = first := by
  generalize whole : [] = labels at run
  cases run with
  | nil => rfl
  | snoc => simp at whole

theorem Run.of_single {first last : State} {label : Label}
    (run : system.Run first [label] last) : system.step first label last := by
  generalize whole : [label] = labels at run
  cases run with
  | nil => cases whole
  | @snoc middle last labels other before step =>
      obtain ⟨none, same⟩ := @List.append_inj' _ [] _ _ _ whole rfl
      obtain rfl := List.singleton_inj.mp same
      rw [← none] at before
      exact before.of_nil ▸ step

theorem Run.split {first last : State} {left right : List Label}
    (run : system.Run first (left ++ right) last) :
    ∃ middle, system.Run first left middle ∧ system.Run middle right last := by
  generalize whole : left ++ right = labels at run
  induction run generalizing right with
  | nil =>
      obtain ⟨rfl, rfl⟩ := List.append_eq_nil_iff.mp whole
      exact ⟨_, .nil _, .nil _⟩
  | @snoc middle last labels label before step induction =>
      rcases List.eq_nil_or_concat right with rfl | ⟨rest, final, rfl⟩
      · rw [List.append_nil] at whole
        exact ⟨last, whole ▸ before.snoc step, .nil last⟩
      · rw [List.concat_eq_append, ← List.append_assoc] at whole
        rw [List.concat_eq_append]
        obtain ⟨same, last⟩ := List.append_inj' whole rfl
        obtain rfl := List.singleton_inj.mp last
        obtain ⟨between, opened, closed⟩ := induction same
        exact ⟨between, opened, closed.snoc step⟩

/-- A property that every step preserves holds at the end of a run. -/
theorem Run.invariant {Holds : State → Prop}
    (preserved : ∀ {state label next},
      Holds state → system.step state label next → Holds next)
    {first last : State} {labels : List Label}
    (run : system.Run first labels last) (initially : Holds first) :
    Holds last := by
  induction run with
  | nil => exact initially
  | snoc _ step induction => exact preserved induction step

/-- The same rule for a property of the labels seen so far together with the
state reached. -/
theorem Run.history {Holds : List Label → State → Prop}
    (preserved : ∀ {labels state label next},
      Holds labels state → system.step state label next →
        Holds (labels ++ [label]) next)
    {first last : State} {labels : List Label}
    (run : system.Run first labels last) (initially : Holds [] first) :
    Holds labels last := by
  induction run with
  | nil => exact initially
  | snoc _ step induction => exact preserved induction step

theorem Reachable.invariant {Holds : State → Prop}
    (initially : ∀ {state}, system.init state → Holds state)
    (preserved : ∀ {state label next},
      Holds state → system.step state label next → Holds next)
    {state : State} (reachable : system.Reachable state) : Holds state := by
  obtain ⟨first, labels, starts, run⟩ := reachable
  exact run.invariant preserved (initially starts)

theorem Reachable.step {state next : State} {label : Label}
    (reachable : system.Reachable state)
    (taken : system.step state label next) :
    system.Reachable next := by
  obtain ⟨first, labels, starts, run⟩ := reachable
  exact ⟨first, labels ++ [label], starts, run.snoc taken⟩

end System

end Transition
