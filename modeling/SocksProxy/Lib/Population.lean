import SocksProxy.Lib.Transition

/-! A place of a system at which components come and go.  What the steps of the
system show there is one whole run of a component after another. -/

namespace Transition

variable {State Label Object Act : Type _}

/-- A run with what its steps show of themselves. -/
inductive System.Shown (system : System State Label)
    (shows : State → Label → List Act) :
    State → List Label → List Act → State → Prop
  | nil (state : State) : Shown system shows state [] [] state
  | snoc {first middle last : State} {labels : List Label} {acts : List Act}
      {label : Label} (before : Shown system shows first labels acts middle)
      (step : system.step middle label last) :
      Shown system shows first (labels ++ [label]) (acts ++ shows middle label)
      last

theorem System.Shown.run {system : System State Label}
    {shows : State → Label → List Act} {first last : State}
    {labels : List Label} {acts : List Act}
    (shown : system.Shown shows first labels acts last) :
    system.Run first labels last := by
  induction shown with
  | nil => exact .nil _
  | snoc before step induction => exact induction.snoc step

theorem System.Run.shown {system : System State Label}
    (shows : State → Label → List Act) {first last : State}
    {labels : List Label} (run : system.Run first labels last) :
    ∃ acts, system.Shown shows first labels acts last := by
  induction run with
  | nil => exact ⟨[], .nil _⟩
  | snoc before step induction =>
      obtain ⟨acts, shown⟩ := induction
      exact ⟨_, shown.snoc step⟩

def System.Lifetime (component : System Object Act) (final : Object → Prop)
    (acts : List Act) : Prop :=
  ∃ first last, component.init first ∧ component.Run first acts last ∧
    final last

/-- A place: what a step shows there, which component is there, and whether
there is none. -/
structure Place (State Label Object Act : Type _) where
  shows : State → Label → List Act
  hosts : State → Object → Prop
  vacant : State → Prop

namespace Place

variable (place : Place State Label Object Act) (component : System Object Act)
  (final : Object → Prop)

inductive Entry (state : State) (label : Label) (next : State) : Prop
  | stays (quiet : place.shows state label = []) (vacant : place.vacant next)
  | arrives {object : Object} (quiet : place.shows state label = [])
      (starts : component.init object) (hosts : place.hosts next object)

inductive Onward (state : State) (label : Label) (next : State)
    (object : Object) : Prop
  | rests (quiet : place.shows state label = [])
      (hosts : place.hosts next object)
  | moves {act : Act} {after : Object} (shows : place.shows state label = [act])
      (step : component.step object act after) (hosts : place.hosts next after)
  | ends {act : Act} {after : Object} (shows : place.shows state label = [act])
      (step : component.step object act after) (final : final after)
      (vacant : place.vacant next)

structure Follows (system : System State Label) : Prop where
  initially : ∀ {state}, system.init state → place.vacant state
  entry : ∀ {state label next}, system.Reachable state →
    system.step state label next →
    place.vacant state → place.Entry component state label next
  onward : ∀ {state label next object}, system.Reachable state →
    system.step state label next → place.hosts state object →
      place.Onward component final state label next object

/-- Whole lives, and what the component that is there now has done since it
came. -/
def Succession (state : State) (acts : List Act) : Prop :=
  ∃ (lives : List (List Act)) (current : List Act),
    acts = lives.flatten ++ current ∧
    (∀ life ∈ lives, component.Lifetime final life) ∧
    (place.vacant state ∧ current = [] ∨
      ∃ first object, component.init first ∧
        component.Run first current object ∧ place.hosts state object)

variable {place component final} {state next : State} {label : Label}
  {acts : List Act}

theorem Succession.entry {lives : List (List Act)}
    (ended : ∀ life ∈ lives,
    component.Lifetime final life)
    (entry : place.Entry component state label next) :
    place.Succession component final
      next (lives.flatten ++ [] ++ place.shows state label) := by
  cases entry with
  | stays quiet vacant =>
      refine ⟨lives, [], ?_, ended, .inl ⟨vacant, rfl⟩⟩
      rw [quiet, List.append_nil]
  | @arrives object quiet starts hosts =>
      refine ⟨lives, [], ?_, ended,
        .inr ⟨object, object, starts, .nil object, hosts⟩⟩
      rw [quiet, List.append_nil]

theorem Succession.onward {lives : List (List Act)} {current : List Act}
    {first object : Object}
    (ended : ∀ life ∈ lives, component.Lifetime final life)
    (starts : component.init first) (run : component.Run first current object)
    (onward : place.Onward component final state label next object) :
    place.Succession component final next
      (lives.flatten ++ current ++ place.shows state label) := by
  cases onward with
  | rests quiet hosts =>
      refine ⟨lives, current, ?_, ended,
        .inr ⟨first, object, starts, run, hosts⟩⟩
      rw [quiet, List.append_nil]
  | @moves act after shows step hosts =>
      refine ⟨lives, current ++ [act], ?_, ended,
        .inr ⟨first, after, starts, run.snoc step, hosts⟩⟩
      rw [shows, List.append_assoc]
  | @ends act after shows step closed vacant =>
      refine ⟨lives ++ [current ++ [act]], [], ?_, fun life member => ?_,
        .inl ⟨vacant, rfl⟩⟩
      · rw [shows, List.flatten_append, List.flatten_singleton, List.append_nil,
          List.append_assoc]
      · rcases List.mem_append.mp member with earlier | same
        · exact ended life earlier
        · rw [List.mem_singleton.mp same]
          exact ⟨first, after, starts, run.snoc step, closed⟩

/-- The acts shown at a place are the acts of the components there, each from
its start. -/
theorem Follows.succession {system : System State Label}
    (follows : place.Follows component final system) {first last : State}
    {labels : List Label} (starts : system.init first)
    (shown : system.Shown place.shows first labels acts last) :
    place.Succession component final last acts := by
  induction shown with
  | nil => exact ⟨[], [], rfl, by simp, .inl ⟨follows.initially starts, rfl⟩⟩
  | @snoc middle last labels acts label before step induction =>
      have reachable : system.Reachable middle :=
        ⟨first, labels, starts, before.run⟩
      obtain ⟨lives, current, rfl, ended, ⟨vacant, rfl⟩ |
        ⟨start, object, init, run, hosts⟩⟩ :=
        induction
      · exact .entry ended (follows.entry reachable step vacant)
      · exact .onward ended init run (follows.onward reachable step hosts)

/-- The component that is at a place is one that its own system reaches. -/
theorem Succession.reachable
    (succession : place.Succession component final state acts)
    (apart : ∀ {object}, place.hosts state object → ¬ place.vacant state)
    (unique : ∀ {left right}, place.hosts state left → place.hosts state right →
      left = right) {object : Object} (hosts : place.hosts state object) :
    component.Reachable object := by
  obtain ⟨lives, current, -, -,
    ⟨vacant, -⟩ | ⟨first, other, starts, run, here⟩⟩ := succession
  · exact absurd vacant (apart hosts)
  · exact unique here hosts ▸ ⟨first, current, starts, run⟩

end Place

end Transition
