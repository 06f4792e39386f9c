import SocksProxy.Selector

/-! `max_fd` is the greatest descriptor in use, whatever is registered and
unregistered. -/

namespace SocksProxy

/-- The loop of `items_max_fd`, for any test of a slot. -/
private def greatest (used : Nat → Bool) (count : Nat) : Nat :=
  (List.range count).foldl (fun max i => if used i ∧ i > max then i else max) 0

private theorem greatest_succ (used : Nat → Bool) (count : Nat) :
    greatest used (count + 1) =
      if used count ∧ count > greatest used count then count
        else greatest used count := by
  unfold greatest
  rw [List.range_succ, List.foldl_append]
  rfl

private theorem greatest_below (used : Nat → Bool) (count : Nat) :
    greatest used count = 0 ∨ greatest used count < count := by
  induction count with
  | zero => exact .inl rfl
  | succ count induction =>
      rw [greatest_succ]
      split
      · exact .inr (Nat.lt_succ_self count)
      · exact induction.imp_right Nat.lt_succ_of_lt

private theorem le_greatest (used : Nat → Bool) {count i : Nat}
    (below : i < count) (held : used i = true) : i ≤ greatest used count := by
  induction count with
  | zero => omega
  | succ count induction =>
      rw [greatest_succ]
      rcases Nat.lt_succ_iff_lt_or_eq.mp below with earlier | rfl
      · have under := induction earlier
        split <;> omega
      · split
        · exact Nat.le_refl _
        next small =>
          have := not_and.mp small held
          omega

private theorem greatest_held (used : Nat → Bool) (count : Nat) :
    greatest used count = 0 ∨ used (greatest used count) = true := by
  induction count with
  | zero => exact .inl rfl
  | succ count induction =>
      rw [greatest_succ]
      split
      next found => exact .inr found.1
      next => exact induction

theorem itemsMaxFd_le (s : Selector) : itemsMaxFd s ≤ s.maxFd := by
  change greatest (fun i => (s.items i).isSome) (s.maxFd + 1) ≤ s.maxFd
  rcases greatest_below (fun i => (s.items i).isSome) (s.maxFd + 1) with
    zero | below
  · exact zero ▸ Nat.zero_le _
  · exact Nat.le_of_lt_succ below

theorem le_itemsMaxFd {s : Selector} {fd : Fd} (below : fd ≤ s.maxFd)
    (used : (s.items fd).isSome) : fd ≤ itemsMaxFd s :=
  le_greatest (fun i => (s.items i).isSome) (Nat.lt_succ_of_le below) used

theorem itemsMaxFd_used (s : Selector) :
    itemsMaxFd s = 0 ∨ (s.items (itemsMaxFd s)).isSome :=
  greatest_held (fun i => (s.items i).isSome) (s.maxFd + 1)

structure Selector.Spanned (s : Selector) : Prop where
  valid : ∀ fd, (s.items fd).isSome → fd < itemsMaxSize
  below : ∀ fd, (s.items fd).isSome → fd ≤ s.maxFd
  least : s.maxFd = 0 ∨ (s.items s.maxFd).isSome

theorem spanned_selectorNew : selectorNew.Spanned where
  valid _ used := by cases used
  below _ used := by cases used
  least := .inl rfl

namespace Selector.Spanned

variable {s : Selector}

theorem congr {other : Selector} (spanned : s.Spanned)
    (maxFd : other.maxFd = s.maxFd)
    (items : ∀ fd, (other.items fd).isSome = (s.items fd).isSome) :
    other.Spanned where
  valid fd used := spanned.valid fd (items fd ▸ used)
  below fd used := maxFd ▸ spanned.below fd (items fd ▸ used)
  least := by
    rw [maxFd, items]
    exact spanned.least

theorem setInterest (spanned : s.Spanned) (fd : Fd) (i : Interest) :
    (selectorSetInterest s fd i).1.Spanned := by
  unfold selectorSetInterest
  split
  · exact spanned
  · split
    · exact spanned
    next item held =>
      refine spanned.congr rfl fun other => ?_
      by_cases same : other = fd
      · subst same
        rw [items_setItem_self, held]
        rfl
      · rw [items_setItem_ne _ _ same]

theorem register (spanned : s.Spanned) (fd : Fd) (handler : FdHandler)
    (i : Interest) (data : Ptr) :
    (selectorRegister s fd handler i data).1.Spanned := by
  unfold selectorRegister
  split
  · exact spanned
  next valid =>
    split
    · exact spanned
    next =>
      have small : fd < itemsMaxSize := by simpa [invalidFd] using valid
      refine ⟨fun other used => ?_, fun other used => ?_, .inr ?_⟩
      · by_cases same : other = fd
        · exact same ▸ small
        · exact spanned.valid other (items_setItem_ne s _ same ▸ used)
      · by_cases same : other = fd
        · subst same
          change other ≤ if other > s.maxFd then other else s.maxFd
          split
          · exact Nat.le_refl other
          next small => exact Nat.le_of_not_lt small
        · have under := spanned.below other (items_setItem_ne s _ same ▸ used)
          change other ≤ if fd > s.maxFd then fd else s.maxFd
          split
          next above => exact under.trans (Nat.le_of_lt above)
          next => exact under
      · change ((s.setItem fd _).items
          (if fd > s.maxFd then fd else s.maxFd)).isSome = true
        by_cases same : (if fd > s.maxFd then fd else s.maxFd) = fd
        · rw [same, items_setItem_self]
          rfl
        · rw [items_setItem_ne _ _ same]
          have under : ¬ fd > s.maxFd := fun above => same (if_pos above)
          rw [if_neg under] at same ⊢
          refine spanned.least.resolve_left fun zero => same ?_
          exact zero.trans (Nat.le_zero.mp (zero ▸ Nat.le_of_not_lt under)).symm

theorem remove (spanned : s.Spanned) (fd : Fd) :
    (selectorRemove s fd).Spanned := by
  have held {other : Fd} (used : ((s.setItem fd none).items other).isSome) :
      (s.items other).isSome := by
    by_cases same : other = fd
    · rw [same, items_setItem_self] at used
      cases used
    · rwa [items_setItem_ne _ _ same] at used
  refine ⟨fun other used => ?_, fun other used => ?_,
    itemsMaxFd_used (s.setItem fd none)⟩
  · exact spanned.valid other (held used)
  · exact le_itemsMaxFd (spanned.below other (held used)) used

end Selector.Spanned

end SocksProxy
