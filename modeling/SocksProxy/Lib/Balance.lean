import Mathlib.Algebra.BigOperators.Group.List.Basic
import SocksProxy.Lib.Population

/-! Books over the runs of a system: what its acts bring in is what they take
out and what is still there, also where the stock is spread over members that
come and go. -/

namespace Transition

section Members

variable {Member Amount : Type _} [DecidableEq Member] [AddCommMonoid Amount]
  {members : List Member} {before after : Member → Amount} {p : Member}

theorem sum_erase (distinct : members.Nodup) (member : p ∈ members)
    (others : ∀ q, q ≠ p → after q = before q) :
    before p + ((members.erase p).map after).sum =
      (members.map before).sum := by
  rw [← List.sum_map_erase before member]
  refine congrArg (before p + ·)
    (congrArg List.sum (List.map_congr_left fun q kept => ?_))
  apply others
  rintro rfl
  exact distinct.not_mem_erase kept

theorem sum_replace (distinct : members.Nodup) (member : p ∈ members)
    (others : ∀ q, q ≠ p → after q = before q) :
    before p + (members.map after).sum = after p +
      (members.map before).sum := by
  rw [← sum_erase distinct member others, ← List.sum_map_erase after member]
  exact add_left_comm ..

end Members

section Books

variable {State Label Act Amount : Type _} [AddCommMonoid Amount]
  {system : System State Label} {shows : State → Label → List Act}
  {first last : State} {labels : List Label} {acts : List Act}

/-- What holds of the acts of every step holds of the acts of a run. -/
theorem System.Shown.each {Holds : Act → Prop}
    (step : ∀ {state label next}, system.Reachable state →
      system.step state label next →
      ∀ act ∈ shows state label, Holds act) (starts : system.init first)
    (shown : system.Shown shows first labels acts last) :
    ∀ act ∈ acts, Holds act := by
  induction shown with
  | nil =>
      intro act member
      cases member
  | snoc before taken induction =>
      intro act member
      rcases List.mem_append.mp member with earlier | now
      · exact induction act earlier
      · exact step ⟨_, _, starts, before.run⟩ taken act now

/-- If every step keeps the books, then every run does. -/
theorem System.Shown.balance {stock : State → Amount} {gain loss : Act → Amount}
    (step : ∀ {state label next}, system.Reachable state →
      system.step state label next →
      stock state + ((shows state label).map gain).sum =
        ((shows state label).map loss).sum + stock next)
    (starts : system.init first)
    (shown : system.Shown shows first labels acts last) :
    stock first + (acts.map gain).sum = (acts.map loss).sum + stock last := by
  induction shown with
  | nil => exact add_comm ..
  | @snoc middle last labels acts label before taken induction =>
      have kept := step ⟨_, _, starts, before.run⟩ taken
      calc
        stock first + ((acts ++ shows middle label).map gain).sum
        _ = stock first + (acts.map gain).sum +
        ((shows middle label).map gain).sum := by
          rw [List.map_append, List.sum_append, add_assoc]
        _ = (acts.map loss).sum +
        (stock middle + ((shows middle label).map gain).sum) := by
          rw [induction, add_assoc]
        _ = ((acts ++ shows middle label).map loss).sum + stock last := by
          rw [kept, List.map_append, List.sum_append, add_assoc]

end Books

end Transition
