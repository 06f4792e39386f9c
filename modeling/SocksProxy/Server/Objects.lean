import SocksProxy.Server.Changes

/-! The objects of the connections: each that is allocated is in use or in the
pool. -/

namespace SocksProxy

open Transition

namespace Server

variable {σ τ : Server} {event : Event}

/-- No object is allocated but those in use and those in the pool. -/
def Unleaked (σ : Server) : Prop :=
  ∀ p s, σ.heap p = some s → p ∈ σ.live ∨ p ∈ σ.pool

theorem Unleaked.of_same (unleaked : σ.Unleaked) (heap : τ.heap = σ.heap)
    (pool : τ.pool = σ.pool) (live : τ.live = σ.live) : τ.Unleaked := by
  intro p s object
  rw [pool, live]
  exact unleaked p s (heap ▸ object)

theorem heap_setObject (p : Ptr) (made : Option Socks5) :
    (σ.setObject p made).heap p = made :=
  Function.update_self ..

theorem heap_setObject_of_ne {p q : Ptr} (other : p ≠ q)
    (made : Option Socks5) :
    (σ.setObject q made).heap p = σ.heap p := Function.update_of_ne other ..

theorem unleaked_setObject {q : Ptr} (made : Option Socks5)
    (others : ∀ p, p ≠ q → ∀ s, σ.heap p = some s → p ∈ σ.live ∨ p ∈ σ.pool)
    (p : Ptr) (s : Socks5) (object : (σ.setObject q made).heap p = some s) :
    p ∈ σ.live ∨ p ∈ σ.pool ∨ (made.map fun _ => q) = some p := by
  by_cases own : p = q
  · subst own
    rw [heap_setObject] at object
    subst object
    exact .inr (.inr rfl)
  · rw [heap_setObject_of_ne own] at object
    exact (others p own s object).imp_right .inl

/-- `socks5_new` leaves no object behind but the one that it returns. -/
theorem socks5New_unleaked {fd : Fd} {acc : AcceptAnswers} {drawn : Option Ptr}
    (unleaked : σ.Unleaked) (runs : σ.socks5New fd acc = some (τ, drawn)) :
    ∀ p s, τ.heap p = some s → p ∈ τ.live ∨ p ∈ τ.pool ∨ drawn = some p := by
  unfold socks5New at runs
  split at runs
  next q rest stock =>
    dsimp only at runs
    split at runs <;> cases runs
    refine unleaked_setObject (σ :=
      { σ with pool := rest, poolSize := σ.poolSize - 1 }) _
      fun p other s held => ?_
    rcases unleaked p s held with alive | pooled
    · exact .inl alive
    · rw [stock] at pooled
      exact .inr ((List.mem_cons.mp pooled).resolve_left other)
  next stock =>
    have kept (p : Ptr) (s : Socks5) (object : σ.heap p = some s) :
        p ∈ σ.live ∨ p ∈ σ.pool ∨ drawn = some p :=
      (unleaked p s object).imp_right .inl
    split at runs
    · cases runs
      exact kept
    · split at runs <;> cases runs
      · exact kept
      · exact unleaked_setObject _ fun p _ s held => unleaked p s held

theorem socks5Destroy_unleaked {p : Ptr} {s : Socks5}
    (object : σ.heap p = some s) (resolved : s.resolving = false)
    (others : ∀ q, q ≠ p → ∀ s, σ.heap q = some s → q ∈ σ.live ∨ q ∈ σ.pool) :
    (σ.socks5Destroy p).Unleaked := by
  unfold socks5Destroy
  rw [object]
  dsimp only
  rw [if_neg (by rw [resolved]; exact Bool.false_ne_true)]
  split
  · intro q t held
    by_cases own : q = p
    · exact .inr (own ▸ List.mem_cons_self)
    · have kept := (heap_setObject_of_ne own _).symm.trans held
      exact (others q own t kept).imp_right (List.mem_cons_of_mem p)
  · intro q t held
    by_cases own : q = p
    · subst own
      rw [heap_setObject] at held
      cases held
    · rw [heap_setObject_of_ne own, heap_setObject_of_ne own] at held
      exact others q own t held

theorem registerClient_unleaked {p : Ptr} {fd : Fd} {address : SockAddr}
    {s : Socks5}
    (kept :
      ∀ q t, σ.heap q = some t → q ∈ σ.live ∨ q ∈ σ.pool ∨ some p = some q)
    (object : σ.heap p = some s) (resolved : s.resolving = false)
    (runs : σ.registerClient p fd address = some τ) : τ.Unleaked := by
  have others (q : Ptr) (other : q ≠ p) (t : Socks5)
      (held : σ.heap q = some t) : q ∈ σ.live ∨ q ∈ σ.pool := by
    rcases kept q t held with alive | pooled | same
    · exact .inl alive
    · exact .inr pooled
    · exact absurd (Option.some.inj same).symm other
  unfold registerClient at runs
  rw [object] at runs
  dsimp only at runs
  split at runs <;> cases runs
  · intro q t held
    by_cases own : q = p
    · exact .inl (own ▸ List.mem_append_right _ List.mem_cons_self)
    · have kept := (heap_setObject_of_ne own _).symm.trans held
      exact (others q own t kept).imp_left (List.mem_append_left _)
  · refine socks5Destroy_unleaked (heap_setObject p _) resolved
      fun q other t held => ?_
    rw [heap_setObject_of_ne other] at held
    exact others q other t held

theorem socksv5PassiveAccept_unleaked (sound : σ.Sound) (unleaked : σ.Unleaked)
    {acc : AcceptAnswers} (runs : socksv5PassiveAccept acc σ = some τ) :
    τ.Unleaked := by
  unfold socksv5PassiveAccept at runs
  split at runs
  · cases runs
    exact unleaked
  next address =>
    unfold openAccepted at runs
    generalize σ.env.kernel.openSocket .accepted = opened at runs
    obtain ⟨fd, kernel⟩ := opened
    dsimp only at runs
    split at runs
    · cases runs
      exact unleaked
    · obtain ⟨⟨υ, drawn⟩, made, prepares⟩ :=
        socks5New_prepares sound.roster { σ.env with kernel := kernel } fd acc
      have kept := socks5New_unleaked
        (unleaked.of_same (τ :=
          { σ with env := { σ.env with kernel := kernel } }) rfl rfl rfl) made
      rw [made] at runs
      cases drawn with
      | none =>
          cases runs
          intro p s object
          rcases kept p s object with alive | pooled | same
          · exact .inl alive
          · exact .inr pooled
          · cases same
      | some p =>
          cases prepares with
          | drawn drawn object fresh =>
              exact registerClient_unleaked kept object fresh.resolving runs

theorem mgmtPassiveAccept_unleaked (unleaked : σ.Unleaked) {acc : AcceptAnswers}
    (runs : mgmtPassiveAccept acc σ = some τ) : τ.Unleaked := by
  suffices same : τ.heap = σ.heap ∧ τ.pool = σ.pool ∧ τ.live = σ.live from
    unleaked.of_same same.1 same.2.1 same.2.2
  unfold mgmtPassiveAccept at runs
  split at runs
  · cases runs
    exact ⟨rfl, rfl, rfl⟩
  · dsimp only at runs
    split at runs
    · cases runs
      exact ⟨rfl, rfl, rfl⟩
    · split at runs
      · cases runs
        exact ⟨rfl, rfl, rfl⟩
      · split at runs
        · cases runs
          exact ⟨rfl, rfl, rfl⟩
        · split at runs <;> cases runs <;> exact ⟨rfl, rfl, rfl⟩

theorem afterSelect_unleaked (unleaked : σ.Unleaked)
    (runs : σ.afterSelect = some τ) :
    τ.Unleaked := by
  unfold afterSelect at runs
  split at runs
  · cases runs
    exact unleaked
  · obtain ⟨υ, shut, rfl⟩ := Option.map_eq_some_iff.mp runs
    suffices kept : υ.Unleaked by
      split <;> exact kept
    split at shut
    next =>
      have dismisses := (unregisterListeners_dismisses shut).1
      exact unleaked.of_same dismisses.heap dismisses.pool dismisses.live
    next =>
      cases shut
      exact unleaked

theorem Move.unleaked (sound : σ.Sound) (unleaked : σ.Unleaked)
    (move : Move σ event τ) :
    τ.Unleaked := by
  cases move with
  | stays | selects | manages | signal | connectDone | foreignOpen
  | foreignClose =>
      exact unleaked
  | welcomes phase held listens runs =>
      have kept := socksv5PassiveAccept_unleaked sound unleaked runs
      exact kept
  | admits phase held listens runs =>
      have kept := mgmtPassiveAccept_unleaked unleaked runs
      exact kept
  | returns runs => exact afterSelect_unleaked unleaked runs
  | resolved step =>
      unfold stepResolved at step
      split at step
      next conn ticket found =>
        split at step <;> cases step
        next s held =>
          intro p t object
          by_cases own : p = conn
          · exact unleaked p s (own ▸ held)
          · exact unleaked p t ((heap_setObject_of_ne own _).symm.trans object)
      next => cases step
  | notifyBlock step =>
      unfold stepNotifyBlock at step
      split at step
      · cases step
      · split at step
        · split at step <;> cases step
          exact unleaked
        · cases step

theorem unleaked_step (sound : σ.Sound) (unleaked : σ.Unleaked)
    (step : σ.step event = .next τ) : τ.Unleaked := by
  cases step_effect sound step with
  | beside quiet unhandled beside move => exact move.unleaked sound unleaked
  | @called call kind fd a env calling asked calls member object due wired runs
      upkept returns others after aloof spent =>
      intro q t held
      by_cases own : q = call.p
      · rcases spent with freed | kept
        · rw [own, freed] at held
          cases held
        · exact own ▸ kept
      · rcases unleaked q t ((others q own).symm.trans held) with alive | pooled
        · exact .inl ((returns.live_iff own).mpr alive)
        · refine .inr ?_
          cases returns with
          | remains wired' kept live pool =>
              rw [pool]
              exact pooled
          | ended closing free retires =>
              cases retires with
              | pooled room pool =>
                  rw [pool]
                  exact List.mem_cons_of_mem _ pooled
              | freed pool =>
                  rw [pool]
                  exact pooled

theorem unleaked_of_reachable (reachable : server.Reachable σ) :
    σ.Unleaked := by
  suffices holds : σ.Sound ∧ σ.Unleaked from holds.2
  apply reachable.invariant
  · intro σ starts
    refine ⟨sound_init starts, fun p s object => ?_⟩
    rw [(init_opened starts).heap] at object
    cases object
  · intro σ event τ holds step
    exact ⟨sound_step holds.1 step, unleaked_step holds.1 holds.2 step⟩

end Server

/-- Every connection object that is allocated is in use or in the pool, and
never in both, so that there are no more of them than descriptors and places in
the pool. -/
theorem objects_accounted {σ : Server} (reachable : server.Reachable σ) :
    (∀ p, (σ.heap p).isSome ↔ p ∈ σ.live ++ σ.pool) ∧ (σ.live ++ σ.pool).Nodup ∧
      (σ.live ++ σ.pool).length ≤ itemsMaxSize + maxPool := by
  have sound := Server.sound_of_reachable reachable
  have roster := sound.roster
  refine ⟨fun p => ⟨fun stored => ?_, fun kept => ?_⟩, ?_, ?_⟩
  · obtain ⟨s, object⟩ := Option.isSome_iff_exists.mp stored
    exact List.mem_append.mpr
      (Server.unleaked_of_reachable reachable p s object)
  · apply Option.isSome_iff_exists.mpr
    rcases List.mem_append.mp kept with alive | pooled
    · obtain ⟨s, object, -⟩ := roster.wired p alive
      exact ⟨s, object⟩
    · obtain ⟨s, object, -⟩ := roster.spare p pooled
      exact ⟨s, object⟩
  · refine List.nodup_append.mpr ⟨roster.distinct, roster.unshared,
      fun p alive q pooled => ?_⟩
    rintro rfl
    exact roster.apart p pooled alive
  · rw [List.length_append, ← roster.poolSize]
    exact Nat.add_le_add sound.steady.live_length roster.bounded

private def partingTurns : List Server.Turn :=
  [.client 0 7, .client 0 9, .readable 1 (.receiving [])]

theorem objects_accounted_parting :
    ∃ σ : Server, σ.live = [9] ∧ σ.pool = [7] ∧ ∀ p, (σ.heap p).isSome ↔
      p ∈ [9, 7] := by
  have expected : ((Server.perform id Server.advance 30 partingTurns
      (.opening configInitDefaults usersInit)).any fun σ =>
        decide (σ.live = [9] ∧ σ.pool = [7])) = true := by
    decide +kernel
  obtain ⟨σ, performs, facts⟩ := (Option.any_eq_true ..).mp expected
  obtain ⟨live, pool⟩ := of_decide_eq_true facts
  obtain ⟨events, run⟩ := Server.run_of_perform Server.step_of_advance performs
  have stored := (objects_accounted ⟨_, events, Server.init_opening _ _, run⟩).1
  rw [live, pool] at stored
  exact ⟨σ, live, pool, stored⟩

end SocksProxy
