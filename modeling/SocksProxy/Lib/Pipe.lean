import Mathlib.Data.List.Infix

/-! First-in first-out pipes seen through a trace: each event may put values in
at one end and take values out at the other. -/

namespace Pipe

variable {Event Value : Type _} {inflow outflow : Event → List Value}

structure Conveys (inflow outflow : Event → List Value) (before : List Value)
    (events : List Event) (after : List Value) : Prop where
  balance : before ++ events.flatMap inflow = events.flatMap outflow ++ after
  ordered : ∀ front rest, events = front ++ rest →
    front.flatMap outflow <+: before ++ front.flatMap inflow

namespace Conveys

theorem nil (content : List Value) :
    Conveys inflow outflow content [] content where
  balance := List.append_nil content
  ordered := by
    intro front rest split
    obtain ⟨rfl, rfl⟩ := List.append_eq_nil_iff.mp split.symm
    exact List.nil_prefix

theorem append {first middle last : List Value} {left right : List Event}
    (before : Conveys inflow outflow first left middle)
    (after : Conveys inflow outflow middle right last) :
    Conveys inflow outflow first (left ++ right) last where
  balance := by
    calc
      first ++ (left ++ right).flatMap inflow =
          (first ++ left.flatMap inflow) ++ right.flatMap inflow := by
        rw [List.flatMap_append, List.append_assoc]
      _ = left.flatMap outflow ++ (middle ++ right.flatMap inflow) := by
        rw [before.balance, List.append_assoc]
      _ = (left ++ right).flatMap outflow ++ last := by
        rw [after.balance, List.flatMap_append, List.append_assoc]
  ordered := by
    intro front rest split
    rcases List.append_eq_append_iff.mp split with ⟨more, rfl, tail⟩ |
      ⟨more, whole, tail⟩
    · rw [List.flatMap_append, List.flatMap_append, ← List.append_assoc,
        before.balance, List.append_assoc]
      exact (List.prefix_append_right_inj _).mpr (after.ordered more rest tail)
    · exact before.ordered front more whole

theorem single {event : Event} {before after : List Value}
    (balance : before ++ inflow event = outflow event ++ after) :
    Conveys inflow outflow before [event] after where
  balance := by simpa using balance
  ordered := by
    intro front rest split
    rcases List.append_eq_singleton_iff.mp split.symm with ⟨rfl, -⟩ | ⟨rfl, -⟩
    · exact List.nil_prefix
    · rw [List.flatMap_singleton, List.flatMap_singleton, balance]
      exact List.prefix_append ..

theorem idle {events : List Event} (content : List Value)
    (still : ∀ event ∈ events, inflow event = [] ∧ outflow event = []) :
    Conveys inflow outflow content events content := by
  induction events with
  | nil => exact nil content
  | cons event events induction =>
      obtain ⟨noInflow, noOutflow⟩ := still event (List.mem_cons_self ..)
      have first : Conveys inflow outflow content [event] content :=
        single (by rw [noInflow, noOutflow, List.append_nil, List.nil_append])
      exact first.append
        (induction fun other member =>
          still other (List.mem_cons_of_mem _ member))

end Conveys

end Pipe
