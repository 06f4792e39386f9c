import SocksProxy.Server.Invariant

/-! The invariant over one call of a connection's handler. -/

namespace SocksProxy

namespace Server

def afterCall (σ : Server) (p : Ptr) (c : Ctx) : Server :=
  let σ := { σ.setObject p (some c.s) with env := c.env }
  if c.destroyed then { σ.socks5Destroy p with live := σ.live.erase p } else σ

theorem dispatchSocks5_eq {σ : Server} {kind : EventKind} {key : Key}
    {a : Answers} {s : Socks5} {c : Ctx} (object : σ.heap key.data = some s)
    (runs : socksv5Handler kind key a ⟨σ.env, s, [], false⟩ = some c) :
    σ.dispatchSocks5 kind key a = some (σ.afterCall key.data c) := by
  unfold dispatchSocks5
  rw [object]
  dsimp only
  rw [runs]
  rfl

structure Touches (σ τ : Server) (p : Ptr) : Prop where
  others : ∀ q, q ≠ p → τ.heap q = σ.heap q
  mgmtHeap : τ.mgmtHeap = σ.mgmtHeap
  listeners : τ.listeners = σ.listeners
  phase : τ.phase = σ.phase

inductive Retires (σ τ : Server) (p : Ptr) (s : Socks5) : Prop
  | pooled (room : σ.poolSize < maxPool) (pool : τ.pool = p :: σ.pool)
      (poolSize : τ.poolSize = σ.poolSize + 1)
      (object : τ.heap p = some { s with dns := dnsRequestClear s.dns })
  | freed (pool : τ.pool = σ.pool) (poolSize : τ.poolSize = σ.poolSize)

theorem socks5Destroy_retires {σ : Server} {p : Ptr} {s : Socks5}
    (object : σ.heap p = some s) (resolved : s.resolving = false) :
    Retires σ (σ.socks5Destroy p) p s ∧ Touches σ (σ.socks5Destroy p) p ∧
      (σ.socks5Destroy p).env = σ.env ∧ (σ.socks5Destroy p).live = σ.live := by
  unfold socks5Destroy
  rw [object]
  dsimp only
  rw [if_neg (by rw [resolved]; exact Bool.false_ne_true)]
  split
  next room =>
    refine ⟨.pooled room rfl rfl (Function.update_self ..),
      ⟨fun q other => ?_, rfl, rfl, rfl⟩, rfl, rfl⟩
    exact Function.update_of_ne other ..
  next =>
    refine ⟨.freed rfl rfl, ⟨fun q other => ?_, rfl, rfl, rfl⟩, rfl, rfl⟩
    exact (Function.update_of_ne other ..).trans
      (Function.update_of_ne other ..)

/-- The connection at `p` goes on, or has given everything back. -/
inductive Returns (σ τ : Server) (p : Ptr) (c : Ctx) : Prop
  | remains (wired : Wired p c.env c.s) (object : τ.heap p = some c.s)
      (live : τ.live = σ.live) (pool : τ.pool = σ.pool)
      (poolSize : τ.poolSize = σ.poolSize)
      (connections : c.env.connections = σ.env.connections)
  | ended (closing : c.s.state.closing) (free : ∀ fd, ¬ Owned p c.env fd)
      (retires : Retires σ τ p c.s) (live : τ.live = σ.live.erase p)
      (connections : c.env.connections = σ.env.connections - 1)

theorem afterCall_returns {σ : Server} {p : Ptr} {s : Socks5} {c : Ctx}
    (upkept : Upkept p σ.env s c) :
    Returns σ (σ.afterCall p c) p c ∧ Touches σ (σ.afterCall p c) p ∧
      (σ.afterCall p c).env = c.env := by
  have stored : (σ.setObject p (some c.s)).heap p = some c.s :=
    Function.update_self ..
  have beside (q : Ptr) (other : q ≠ p) :
      (σ.setObject p (some c.s)).heap q = σ.heap q :=
    Function.update_of_ne other ..
  unfold afterCall
  rcases upkept.outcome with ⟨alive, wired, connections⟩ |
    ⟨gone, closing, resolved, free, connections⟩
  · dsimp only
    rw [if_neg (by rw [alive]; exact Bool.false_ne_true)]
    exact ⟨.remains wired stored rfl rfl rfl connections,
      ⟨beside, rfl, rfl, rfl⟩, rfl⟩
  · dsimp only
    rw [if_pos gone]
    obtain ⟨retires, touches, env, -⟩ :=
      @socks5Destroy_retires { σ.setObject p (some c.s) with env := c.env } p
        c.s stored resolved
    refine ⟨.ended closing free ?_ rfl connections,
      ⟨fun q other => ?_, touches.mgmtHeap, touches.listeners, touches.phase⟩,
        env⟩
    · cases retires with
      | pooled room pool poolSize object =>
          exact .pooled room pool poolSize object
      | freed pool poolSize => exact .freed pool poolSize
    · exact (touches.others q other).trans (beside q other)

section Call

variable {σ τ : Server} {p : Ptr} {s : Socks5} {c : Ctx}
  (touches : Touches σ τ p) (env : τ.env = c.env) (returns : Returns σ τ p c)
  (upkept : Upkept p σ.env s c)

theorem Returns.live_iff (returns : Returns σ τ p c) {q : Ptr} (other : q ≠ p) :
    q ∈ τ.live ↔ q ∈ σ.live := by
  cases returns with
  | remains wired object live => rw [live]
  | ended closing free retires live =>
      rw [live]
      exact List.mem_erase_of_ne other

theorem Returns.owner (returns : Returns σ τ p c) (member : p ∈ σ.live)
    {fd : Fd} (owned : Owned p c.env fd) : p ∈ τ.live := by
  cases returns with
  | remains wired object live =>
      rw [live]
      exact member
  | ended closing free => exact absurd owned (free fd)

theorem Returns.valid (returns : Returns σ τ p c) {fd : Fd}
    (owned : Owned p c.env fd) :
    invalidFd fd = false := by
  cases returns with
  | remains wired =>
      rcases wired.held.only fd owned with same | origin
      · rw [same]
        exact wired.held.client.1
      · exact (wired.held.origin fd origin).1.1
  | ended closing free => exact absurd owned (free fd)

include touches env returns upkept

theorem Registry.afterCall (registry : σ.Registry) (member : p ∈ σ.live) :
    τ.Registry := by
  have slots (fd : Fd) : σ.env.SameRole τ.env fd ∨
      Mine p σ.env fd ∧ Mine p τ.env fd := by
    rw [env]
    exact (upkept.frame.slots fd).imp_left Env.SameSlot.role
  have mine {fd : Fd} {item : Item} (mine : Mine p τ.env fd)
      (held : τ.env.selector.items fd = some item) :
      Owned p c.env fd ∧ item.handler = .socks5 ∧ item.data = p := by
    rw [env] at mine held
    rcases mine with ⟨free, -⟩ | ⟨⟨i, owned⟩, -⟩
    · rw [free] at held
      cases held
    · have same := held
      rw [owned] at same
      cases same
      exact ⟨⟨i, owned⟩, rfl, rfl⟩
  refine ⟨fun fd item held => ?_, fun fd item held => ?_,
    fun fd kind held => ?_, fun fd listed => ?_, ?_⟩
  · rcases slots fd with same | ⟨-, after⟩
    · exact registry.valid fd item (same.1.symm.trans held)
    · exact returns.valid (mine after held).1
  · rcases slots fd with same | ⟨-, after⟩
    · have hosted := registry.items fd item (same.1.symm.trans held)
      unfold Hosted at hosted ⊢
      rw [same.2, touches.mgmtHeap]
      cases handler : item.handler with
      | socks5 =>
          rw [handler] at hosted
          by_cases own : item.data = p
          · have owned : Owned p c.env fd := by
              refine ⟨item.interest, ?_⟩
              rw [← env, held, ← handler, ← own]
            exact own ▸ returns.owner member owned
          · exact (returns.live_iff own).mpr hosted
      | mgmt | socksListener | mgmtListener =>
          rw [handler] at hosted
          exact hosted
    · obtain ⟨owned, handler, data⟩ := mine after held
      unfold Hosted
      rw [handler, data]
      exact returns.owner member owned
  · rcases slots fd with same | ⟨-, after⟩
    · rw [same.1]
      exact registry.sockets fd kind (same.2.symm.trans held)
    · rcases after with ⟨-, closed⟩ | ⟨⟨i, owned⟩, -⟩
      · rw [Env.kindAt, closed] at held
        cases held
      · rw [owned]
        rfl
  · rw [touches.listeners] at listed
    obtain ⟨item, held, listens⟩ := registry.listeners fd listed
    rcases slots fd with same | ⟨before, -⟩
    · exact ⟨item, same.1.trans held, listens⟩
    · rcases before with ⟨free, -⟩ | ⟨⟨i, owned⟩, -⟩
      · rw [free] at held
        cases held
      · rw [owned] at held
        cases held
        exact listens.elim
  · rw [env]
    exact (congrArg Background.ebadf upkept.frame.background).trans
      registry.ebadf

theorem Roster.afterCall (roster : σ.Roster) (member : p ∈ σ.live)
    (fitted : s.wiring.Fitted) : τ.Roster := by
  have fits : c.s.wiring.Fitted := fitted.of_blocks upkept.blocks
  have others (q : Ptr) (alive : q ∈ σ.live) (other : q ≠ p) :
      ∃ s, τ.heap q = some s ∧ Wired q τ.env s ∧ s.wiring.Fitted := by
    obtain ⟨s, object, wired, fitted⟩ := roster.wired q alive
    rw [touches.others q other, env]
    exact ⟨s, object, wired.framed upkept.frame other, fitted⟩
  have unpooled : p ∉ σ.pool := fun pooled => roster.apart p pooled member
  have spares (q : Ptr) (pooled : q ∈ σ.pool) : ∃ s, τ.heap q = some s ∧
      s.wiring.Spare := by
    rw [touches.others q fun same => unpooled (same ▸ pooled)]
    exact roster.spare q pooled
  cases returns with
  | remains wired object live pool poolSize connections =>
      refine ⟨fun q alive => ?_, live ▸ roster.distinct, ?_,
        pool ▸ roster.unshared, ?_, ?_, poolSize ▸ roster.bounded, ?_⟩
      · rw [live] at alive
        by_cases own : q = p
        · subst own
          exact ⟨c.s, object, env ▸ wired, fits⟩
        · exact others q alive own
      · rw [pool]
        exact spares
      · rw [pool, live]
        exact roster.apart
      · rw [poolSize, pool, roster.poolSize]
      · rw [env, connections, live, roster.connections]
  | ended closing free retires live connections =>
      have gone : p ∉ τ.live :=
        live ▸ fun again => roster.distinct.not_mem_erase again
      have alive : ∀ q ∈ τ.live, ∃ s, τ.heap q = some s ∧ Wired q τ.env s ∧
          s.wiring.Fitted := by
        intro q alive
        have other : q ≠ p := fun same => gone (same ▸ alive)
        exact others q (List.mem_of_mem_erase (live ▸ alive)) other
      have distinct : τ.live.Nodup := live ▸ roster.distinct.erase p
      have counted : τ.env.connections = τ.live.length := by
        rw [env, connections, live, List.length_erase_of_mem member,
          roster.connections]
      have apart (q : Ptr) (pooled : q ∈ σ.pool) : q ∉ τ.live := by
        rw [live]
        exact fun again => roster.apart q pooled (List.mem_of_mem_erase again)
      cases retires with
      | pooled room pool poolSize object =>
          refine ⟨alive, distinct, ?_, ?_, ?_, ?_, ?_, counted⟩
          · rw [pool]
            intro q pooled
            rcases List.mem_cons.mp pooled with rfl | pooled
            · exact ⟨_, object, fits.spare.1, fits.spare.2⟩
            · exact spares q pooled
          · rw [pool]
            exact List.nodup_cons.mpr ⟨unpooled, roster.unshared⟩
          · rw [pool]
            intro q pooled
            rcases List.mem_cons.mp pooled with rfl | pooled
            · exact gone
            · exact apart q pooled
          · rw [poolSize, pool, List.length_cons, roster.poolSize]
          · rw [poolSize]
            exact room
      | freed pool poolSize =>
          refine ⟨alive, distinct, ?_, pool ▸ roster.unshared, ?_, ?_,
            poolSize ▸ roster.bounded, counted⟩
          · rw [pool]
            exact spares
          · rw [pool]
            exact apart
          · rw [poolSize, pool, roster.poolSize]

theorem Resolutions.afterCall {jobs : List Job}
    (resolutions : σ.Resolutions jobs) (roster : σ.Roster) (member : p ∈ σ.live)
    (object : σ.heap p = some s) (elsewhere : s.state ≠ .requestResolv) :
    τ.Resolutions jobs := by
  obtain ⟨single, tickets, issued, awaited, answered, queued⟩ := resolutions
  have idle : p ∉ (outstanding σ.env jobs).map Prod.fst := by
    intro waits
    obtain ⟨-, t, same, state⟩ := (awaited p).mp waits
    rw [object] at same
    cases same
    exact elsewhere state
  have resolverIdle {resolver : Resolver}
      (listed : resolver ∈ σ.env.resolvers) : resolver.conn ≠ p := by
    rintro rfl
    refine idle (List.mem_map.mpr ⟨(resolver.conn, resolver.ticket), ?_, rfl⟩)
    exact List.mem_append_left _ (List.mem_map_of_mem listed)
  have jobIdle {job : Job} (listed : job ∈ jobs) : job.owner ≠ p := by
    rintro rfl
    refine idle (List.mem_map.mpr ⟨(job.owner, job.ticket), ?_, rfl⟩)
    exact List.mem_append_right _ (List.mem_map_of_mem listed)
  have queued : ∀ job ∈ jobs, ∀ s, τ.heap job.owner = some s →
      job.fd = s.clientFd ∧ s.dns.Holds job.answer := by
    intro job listed
    rw [touches.others _ (jobIdle listed)]
    exact queued job listed
  have answered : ∀ resolver ∈ σ.env.resolvers, ∀ answer ∈ resolver.answer, ∀ s,
      τ.heap resolver.conn = some s → s.dns.Holds answer := by
    intro resolver listed
    rw [touches.others _ (resolverIdle listed)]
    exact answered resolver listed
  have waiting (q : Ptr) (other : q ≠ p) :
      q ∈ (outstanding σ.env jobs).map Prod.fst ↔
      q ∈ τ.live ∧ ∃ s, τ.heap q = some s ∧ s.state = .requestResolv := by
    rw [awaited, returns.live_iff other, touches.others q other]
  have threads := upkept.threads
  by_cases resolving : c.s.state = .requestResolv
  · rw [if_pos resolving] at threads
    simp only [Env.threads, launched, Prod.mk.injEq] at threads
    have more : (outstanding τ.env jobs).Perm
        ((p, σ.env.nextTicket) :: outstanding σ.env jobs) := by
      unfold outstanding
      rw [env, threads.1, List.map_append, List.append_assoc]
      exact List.perm_middle
    have remains : p ∈ τ.live ∧ τ.heap p = some c.s := by
      cases returns with
      | remains wired object live => exact ⟨live ▸ member, object⟩
      | ended closing =>
          rw [resolving] at closing
          rcases closing with closing | closing <;> cases closing
    refine ⟨?_, ?_, ?_, fun q => ?_, ?_, queued⟩
    · exact ((more.map Prod.fst).nodup_iff).mpr
        (List.nodup_cons.mpr ⟨idle, single⟩)
    · refine ((more.map Prod.snd).nodup_iff).mpr
        (List.nodup_cons.mpr ⟨fun used => ?_, tickets⟩)
      exact absurd (issued _ used) (lt_irrefl _)
    · intro ticket listed
      rw [env, threads.2]
      rcases List.mem_cons.mp ((more.map Prod.snd).mem_iff.mp listed) with
        rfl | earlier
      · exact Nat.lt_succ_self _
      · exact Nat.lt_succ_of_lt (issued ticket earlier)
    · rw [(more.map Prod.fst).mem_iff, List.map_cons, List.mem_cons]
      by_cases own : q = p
      · subst own
        exact ⟨fun _ => ⟨remains.1, c.s, remains.2, resolving⟩,
          fun _ => .inl rfl⟩
      · rw [← waiting q own]
        exact ⟨fun either => either.resolve_left own, .inr⟩
    · rw [env, threads.1]
      intro resolver listed
      rcases List.mem_append.mp listed with earlier | new
      · exact answered resolver earlier
      · rw [List.mem_singleton] at new
        subst new
        intro _ none
        cases none
  · rw [if_neg resolving] at threads
    simp only [Env.threads, Prod.mk.injEq] at threads
    have same : outstanding τ.env jobs = outstanding σ.env jobs := by
      unfold outstanding
      rw [env, threads.1]
    refine ⟨?_, ?_, ?_, fun q => ?_, ?_, queued⟩
    · rwa [same]
    · rwa [same]
    · rw [same, env, threads.2]
      exact issued
    · rw [same]
      by_cases own : q = p
      · subst own
        refine ⟨fun waits => absurd waits idle, ?_⟩
        rintro ⟨alive, t, stored, state⟩
        cases returns with
        | remains wired object live =>
            rw [object] at stored
            cases stored
            exact absurd state resolving
        | ended closing free retires live =>
            rw [live] at alive
            exact absurd alive roster.distinct.not_mem_erase
      · exact waiting q own
    · rw [env, threads.1]
      exact answered

/-- The connection whose resolution was handled waits no longer. -/
theorem Resolutions.resolved {job : Job} {jobs : List Job}
    (resolutions : σ.Resolutions (job :: jobs)) (roster : σ.Roster)
    (owner : job.owner = p) (state : s.state = .requestResolv) :
    τ.Resolutions jobs := by
  obtain ⟨single, tickets, issued, awaited, answered, queued⟩ := resolutions
  have all : (outstanding σ.env (job :: jobs)).Perm
      ((p, job.ticket) :: outstanding σ.env jobs) := by
    unfold outstanding
    rw [List.map_cons, owner]
    exact List.perm_middle
  have next : c.s.state ≠ .requestResolv := by
    have follows := upkept.follows
    rw [state] at follows
    intro same
    rw [same] at follows
    simp [SocksState.successors] at follows
  have threads := upkept.threads
  rw [if_neg next] at threads
  simp only [Env.threads, Prod.mk.injEq] at threads
  have same : outstanding τ.env jobs = outstanding σ.env jobs := by
    unfold outstanding
    rw [env, threads.1]
  obtain ⟨idle, single⟩ :=
    List.nodup_cons.mp ((all.map Prod.fst).nodup_iff.mp single)
  obtain ⟨-, tickets⟩ :=
    List.nodup_cons.mp ((all.map Prod.snd).nodup_iff.mp tickets)
  refine ⟨?_, ?_, ?_, fun q => ?_, ?_, ?_⟩
  · rwa [same]
  · rwa [same]
  · intro ticket listed
    rw [env, threads.2]
    rw [same] at listed
    exact issued ticket
      ((all.map Prod.snd).mem_iff.mpr (List.mem_cons_of_mem _ listed))
  · rw [same]
    by_cases own : q = p
    · subst own
      refine ⟨fun waits => absurd waits idle, ?_⟩
      rintro ⟨alive, t, stored, waits⟩
      cases returns with
      | remains wired object live =>
          rw [object] at stored
          cases stored
          exact absurd waits next
      | ended closing free retires live =>
          rw [live] at alive
          exact absurd alive roster.distinct.not_mem_erase
    · rw [returns.live_iff own, touches.others q own, ← awaited,
        (all.map Prod.fst).mem_iff, List.map_cons, List.mem_cons]
      exact ⟨.inr, fun either => either.resolve_left own⟩
  · rw [env, threads.1]
    intro resolver listed
    have other : resolver.conn ≠ p := by
      rintro rfl
      refine idle (List.mem_map.mpr ⟨(resolver.conn, resolver.ticket), ?_, rfl⟩)
      exact List.mem_append_left _ (List.mem_map_of_mem listed)
    rw [touches.others _ other]
    exact answered resolver listed
  · intro later listed
    have other : later.owner ≠ p := by
      rintro rfl
      refine idle (List.mem_map.mpr ⟨(later.owner, later.ticket), ?_, rfl⟩)
      exact List.mem_append_right _ (List.mem_map_of_mem listed)
    rw [touches.others _ other]
    exact queued later (List.mem_cons_of_mem _ listed)

end Call

end Server

end SocksProxy
