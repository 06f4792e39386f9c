import SocksProxy.Server.Dispatch

/-! The invariant over the accept handlers. -/

namespace SocksProxy

theorem prepare_wiring {config : ProxyConfig} {clientFd : Fd}
    {blocks : BlockAnswers} {old : Option Socks5} {s : Socks5}
    (spare : ∀ o ∈ old, o.wiring.Spare)
    (prepared : prepare config clientFd blocks old = some s) :
    s.wiring.Fitted ∧ s.clientFd = clientFd ∧ s.originFd = none ∧
      s.current = none ∧
      s.resolving = false := by
  obtain ⟨_, _, _, _, same⟩ := prepare_eq prepared
  refine ⟨?_, by rw [same]; rfl, by rw [same]; rfl, by rw [same]; rfl, by
    rw [same]; rfl⟩
  have whole {object : Socks5}
      (rawRead : object.rawRead = some object.bufferSize)
      (rawWrite : object.rawWrite = some object.bufferSize) :
      (initialise clientFd object).wiring.Fitted :=
      ⟨rawRead, rawWrite, rfl, rfl⟩
  cases old with
  | none =>
      simp only [prepare, Option.map_eq_some_iff] at prepared
      obtain ⟨object, allocated, rfl⟩ := prepared
      rw [allocateBlocks, if_pos (.inl rfl)] at allocated
      split at allocated
      · cases allocated
        exact whole rfl rfl
      · cases allocated
  | some old =>
      simp only [prepare, Option.map_eq_some_iff] at prepared
      obtain ⟨object, allocated, rfl⟩ := prepared
      unfold allocateBlocks at allocated
      split at allocated
      · split at allocated
        · cases allocated
          exact whole rfl rfl
        · cases allocated
      · cases allocated
        obtain ⟨rawRead, rawWrite⟩ := spare old rfl
        exact whole rawRead rawWrite

namespace Server

variable {σ : Server} {jobs : List Job}

/-- The invariant but for the phase, with the finished jobs named. -/
structure Steady (σ : Server) (jobs : List Job) : Prop where
  registry : σ.Registry
  roster : σ.Roster
  resolutions : σ.Resolutions jobs

theorem Unchanged.steady {τ : Server} (unchanged : Unchanged σ τ)
    (steady : σ.Steady jobs) :
    τ.Steady jobs :=
  ⟨unchanged.registry steady.registry, unchanged.alongside.roster steady.roster,
    unchanged.alongside.resolutions steady.resolutions⟩

/-- A free object, or one from the pool, is neither in use nor waited for. -/
theorem Steady.idle (steady : σ.Steady jobs) {p : Ptr} (idle : p ∉ σ.live) :
    p ∉ (outstanding σ.env jobs).map Prod.fst :=
  fun waits => idle ((steady.resolutions.awaited p).mp waits).1

theorem Resolutions.besides {τ : Server} {p : Ptr}
    (resolutions : σ.Resolutions jobs)
    (idle : p ∉ (outstanding σ.env jobs).map Prod.fst)
    (others : ∀ q, q ≠ p → τ.heap q = σ.heap q)
    (threads : τ.env.threads = σ.env.threads)
    (live : ∀ q, q ≠ p → (q ∈ τ.live ↔ q ∈ σ.live))
    (fresh : p ∈ τ.live → ∀ s, τ.heap p = some s → s.state ≠ .requestResolv) :
    τ.Resolutions jobs := by
  obtain ⟨single, tickets, issued, awaited, answered, queued⟩ := resolutions
  simp only [Env.threads, Prod.mk.injEq] at threads
  have same : outstanding τ.env jobs = outstanding σ.env jobs := by
    unfold outstanding
    rw [threads.1]
  refine ⟨?_, ?_, ?_, fun q => ?_, ?_, ?_⟩
  · rwa [same]
  · rwa [same]
  · rwa [same, threads.2]
  · rw [same]
    by_cases own : q = p
    · subst own
      refine ⟨fun waits => absurd waits idle, ?_⟩
      rintro ⟨alive, s, stored, state⟩
      exact absurd state (fresh alive s stored)
    · rw [awaited, live q own, others q own]
  · rw [threads.1]
    intro resolver listed
    have other : resolver.conn ≠ p := by
      rintro rfl
      refine idle (List.mem_map.mpr ⟨(resolver.conn, resolver.ticket), ?_, rfl⟩)
      exact List.mem_append_left _ (List.mem_map_of_mem listed)
    rw [others _ other]
    exact answered resolver listed
  · intro job listed
    have other : job.owner ≠ p := by
      rintro rfl
      refine idle (List.mem_map.mpr ⟨(job.owner, job.ticket), ?_, rfl⟩)
      exact List.mem_append_right _ (List.mem_map_of_mem listed)
    rw [others _ other]
    exact queued job listed

theorem Steady.replaced {τ : Server} {p : Ptr} (steady : σ.Steady jobs)
    (idle : p ∉ σ.live) (roles : ∀ fd, σ.env.SameRole τ.env fd)
    (ebadf : τ.env.kernel.ebadf = σ.env.kernel.ebadf)
    (threads : τ.env.threads = σ.env.threads)
    (connections : τ.env.connections = σ.env.connections)
    (others : ∀ q, q ≠ p → τ.heap q = σ.heap q)
    (mgmtHeap : τ.mgmtHeap = σ.mgmtHeap) (listeners : τ.listeners = σ.listeners)
    (live : τ.live = σ.live)
    (spare : ∀ q ∈ τ.pool, q ∈ σ.pool ∧ q ≠ p ∨
      q = p ∧ ∃ s, τ.heap p = some s ∧ s.wiring.Spare) (unshared : τ.pool.Nodup)
    (poolSize : τ.poolSize = τ.pool.length) (bounded : τ.poolSize ≤ maxPool) :
    τ.Steady jobs := by
  obtain ⟨registry, roster, resolutions⟩ := steady
  refine ⟨?_, ?_, ?_⟩
  · refine ⟨fun fd item held => ?_, fun fd item held => ?_,
      fun fd kind held => ?_, fun fd listed => ?_, ebadf.trans registry.ebadf⟩
    · exact registry.valid fd item ((roles fd).1.symm.trans held)
    · have hosted := registry.items fd item ((roles fd).1.symm.trans held)
      unfold Hosted at hosted ⊢
      rw [(roles fd).2, live, mgmtHeap]
      exact hosted
    · rw [(roles fd).1]
      exact registry.sockets fd kind ((roles fd).2.symm.trans held)
    · rw [(roles fd).1]
      rw [listeners] at listed
      exact registry.listeners fd listed
  · refine ⟨fun q alive => ?_, live ▸ roster.distinct,
      fun q pooled => ?_, unshared, fun q pooled => ?_, poolSize, bounded, ?_⟩
    · rw [live] at alive
      obtain ⟨s, object, wired, fitted⟩ := roster.wired q alive
      rw [others q fun same => idle (same ▸ alive)]
      exact ⟨s, object, wired.elsewhere fun fd => .inl (roles fd), fitted⟩
    · rcases spare q pooled with ⟨pooled, other⟩ | ⟨rfl, object⟩
      · rw [others q other]
        exact roster.spare q pooled
      · exact object
    · rw [live]
      rcases spare q pooled with ⟨pooled, -⟩ | ⟨rfl, -⟩
      · exact roster.apart q pooled
      · exact idle
    · rw [connections, live, roster.connections]
  · have unawaited : p ∉ (outstanding σ.env jobs).map Prod.fst :=
      fun waits => idle ((resolutions.awaited p).mp waits).1
    refine resolutions.besides unawaited others threads
      (fun q _ => by rw [live]) ?_
    intro alive
    rw [live] at alive
    exact absurd alive idle

structure Fresh (fd : Fd) (s : Socks5) : Prop where
  fitted : s.wiring.Fitted
  clientFd : s.clientFd = fd
  originFd : s.originFd = none
  current : s.current = none
  resolving : s.resolving = false

structure Drawn (σ : Server) (env : Env) (p : Ptr) (τ : Server) : Prop where
  idle : p ∉ σ.live
  env : τ.env = env
  others : ∀ q, q ≠ p → τ.heap q = σ.heap q
  mgmtHeap : τ.mgmtHeap = σ.mgmtHeap
  listeners : τ.listeners = σ.listeners
  phase : τ.phase = σ.phase
  live : τ.live = σ.live
  pool : ∀ q ∈ τ.pool, q ∈ σ.pool ∧ q ≠ p
  unshared : τ.pool.Nodup
  poolSize : τ.poolSize = τ.pool.length
  bounded : τ.poolSize ≤ maxPool

inductive Prepares (σ : Server) (env : Env) (fd : Fd) :
    Server × Option Ptr → Prop
  | kept : Prepares σ env fd ({ σ with env := env }, none)
  | freed {p : Ptr} {τ : Server} (drawn : Drawn σ env p τ) :
      Prepares σ env fd (τ, none)
  | drawn {p : Ptr} {τ : Server} {s : Socks5} (drawn : Drawn σ env p τ)
      (object : τ.heap p = some s) (fresh : Fresh fd s) :
      Prepares σ env fd (τ, some p)

private theorem prepares_of {env : Env} {fd : Fd} {p : Ptr} {τ : Server}
    {acc : AcceptAnswers} {old : Option Socks5}
    (spare : ∀ o ∈ old, o.wiring.Spare) (config : ProxyConfig)
    (drawn : ∀ object, Drawn σ env p (τ.setObject p object)) :
    Prepares σ env fd (τ.setObject p (prepare config fd acc.blocks old),
      (prepare config fd acc.blocks old).map fun _ => p) := by
  cases prepared : prepare config fd acc.blocks old with
  | none => exact .freed (drawn none)
  | some s =>
      obtain ⟨fitted, clientFd, originFd, current, resolving⟩ :=
        prepare_wiring spare prepared
      exact .drawn (drawn (some s)) (Function.update_self ..)
        ⟨fitted, clientFd, originFd, current, resolving⟩

theorem socks5New_prepares (roster : σ.Roster) (env : Env) (fd : Fd)
    (acc : AcceptAnswers) :
    ∃ result, Server.socks5New { σ with env := env } fd acc = some result ∧
      Prepares σ env fd result := by
  have beside (τ : Server) (p : Ptr) (object : Option Socks5) (q : Ptr)
      (other : q ≠ p) :
      (τ.setObject p object).heap q = τ.heap q := Function.update_of_ne other ..
  unfold socks5New
  dsimp only
  cases stock : σ.pool with
  | cons p rest =>
      have member : p ∈ σ.pool := stock ▸ List.mem_cons_self
      obtain ⟨old, object, spare⟩ := roster.spare p member
      have distinct := roster.unshared
      rw [stock] at distinct
      obtain ⟨once, unshared⟩ := List.nodup_cons.mp distinct
      have size := roster.poolSize
      rw [stock, List.length_cons] at size
      have bounded := roster.bounded
      dsimp only
      rw [object]
      refine ⟨_, rfl, prepares_of (fun _ same => ?_) _ fun object' => ?_⟩
      · cases same
        exact spare
      · refine ⟨roster.apart p member, rfl, beside _ p object', rfl,
          rfl, rfl, rfl, fun q pooled => ⟨?_, ?_⟩, unshared, ?_, ?_⟩
        · exact stock ▸ List.mem_cons_of_mem _ pooled
        · exact fun same => once (same ▸ pooled)
        · exact congrArg (· - 1) size
        · exact le_trans (Nat.sub_le _ _) bounded
  | nil =>
      have size := roster.poolSize
      rw [stock] at size
      cases acc.object with
      | none => exact ⟨_, rfl, stock ▸ .kept⟩
      | some p =>
          dsimp only
          split
          · exact ⟨_, rfl, stock ▸ .kept⟩
          next free =>
            refine ⟨_, rfl, prepares_of (fun _ same => ?_) _ fun object => ?_⟩
            · cases same
            refine ⟨fun alive => ?_, rfl, beside _ p object, rfl, rfl, rfl, rfl,
              fun q pooled => ?_, List.nodup_nil, size, roster.bounded⟩
            · obtain ⟨s, held, -⟩ := roster.wired p alive
              exact free (by rw [held]; rfl)
            · cases pooled

structure Enrolled (σ τ : Server) (fd : Fd) (item : Item) : Prop where
  valid : invalidFd fd = false
  free : σ.env.selector.items fd = none
  items : ∀ other, τ.env.selector.items other =
    if other = fd then some item else σ.env.selector.items other
  kinds : ∀ other, other ≠ fd → τ.env.kindAt other = σ.env.kindAt other
  ebadf : τ.env.kernel.ebadf = σ.env.kernel.ebadf
  hosted : τ.Hosted fd item
  live : ∀ p ∈ σ.live, p ∈ τ.live
  mgmtHeap : ∀ p conn, σ.mgmtHeap p = some conn → τ.mgmtHeap p = some conn
  listeners : ∀ listener ∈ τ.listeners,
    listener ∈ σ.listeners ∨ listener = fd ∧ item.handler.listening

namespace Enrolled

variable {τ : Server} {fd : Fd} {item : Item} (enrolled : Enrolled σ τ fd item)

include enrolled

theorem role {other : Fd} (apart : other ≠ fd) : σ.env.SameRole τ.env other :=
  ⟨(enrolled.items other).trans (if_neg apart), enrolled.kinds other apart⟩

theorem registry (registry : σ.Registry) : τ.Registry := by
  refine ⟨fun other held member => ?_, fun other held member => ?_,
    fun other kind held => ?_, fun listener listed =>
      ?_, enrolled.ebadf.trans registry.ebadf⟩
  · by_cases same : other = fd
    · exact same ▸ enrolled.valid
    · exact registry.valid other held ((enrolled.role same).1.symm.trans member)
  · by_cases same : other = fd
    · rw [enrolled.items, if_pos same] at member
      cases member
      exact same ▸ enrolled.hosted
    · have hosted :=
        registry.items other held ((enrolled.role same).1.symm.trans member)
      unfold Hosted at hosted ⊢
      rw [(enrolled.role same).2]
      cases handler : held.handler with
      | socks5 =>
          rw [handler] at hosted
          exact enrolled.live _ hosted
      | mgmt =>
          rw [handler] at hosted
          obtain ⟨accepted, conn, stored, number⟩ := hosted
          exact ⟨accepted, conn, enrolled.mgmtHeap _ _ stored, number⟩
      | socksListener | mgmtListener =>
          rw [handler] at hosted
          exact hosted
  · by_cases same : other = fd
    · rw [enrolled.items, if_pos same]
      rfl
    · rw [(enrolled.role same).1]
      exact registry.sockets other kind ((enrolled.role same).2.symm.trans held)
  · rcases enrolled.listeners listener listed with earlier | ⟨rfl, listens⟩
    · obtain ⟨held, member, listens⟩ := registry.listeners listener earlier
      have apart : listener ≠ fd := by
        rintro rfl
        rw [enrolled.free] at member
        cases member
      exact ⟨held, (enrolled.role apart).1.trans member, listens⟩
    · exact ⟨item, (enrolled.items _).trans (if_pos rfl), listens⟩

theorem wired {q : Ptr} {s : Socks5} (wired : Wired q σ.env s)
    (other : item.handler = .socks5 → item.data ≠ q) : Wired q τ.env s := by
  refine wired.elsewhere fun number => ?_
  by_cases same : number = fd
  · refine .inr ⟨?_, ?_⟩
    · rintro ⟨i, owned⟩
      rw [same, enrolled.free] at owned
      cases owned
    · rintro ⟨i, owned⟩
      rw [enrolled.items, if_pos same] at owned
      cases owned
      exact other rfl rfl
  · exact .inl (enrolled.role same)

end Enrolled

private def clientOf (σ : Server) (p : Ptr) : Fd :=
  ((σ.heap p).map Socks5.clientFd).getD 0

/-- Each live connection has a client descriptor of its own, so there are not
many. -/
theorem Steady.live_length (steady : σ.Steady jobs) :
    σ.live.length ≤ itemsMaxSize := by
  have registered (p : Ptr) (alive : p ∈ σ.live) :
      Registered p σ.env (clientOf σ p) := by
    obtain ⟨s, object, wired, -⟩ := steady.roster.wired p alive
    unfold clientOf
    rw [object]
    exact wired.held.client
  have distinct : (σ.live.map (clientOf σ)).Nodup := by
    refine List.Nodup.map_on (fun p alive q living same => ?_)
      steady.roster.distinct
    obtain ⟨-, i, item⟩ := registered p alive
    obtain ⟨-, j, held⟩ := registered q living
    rw [same, held] at item
    cases item
    rfl
  have within : σ.live.map (clientOf σ) ⊆ List.range itemsMaxSize := by
    intro fd member
    obtain ⟨p, alive, rfl⟩ := List.mem_map.mp member
    have valid := of_decide_eq_false (registered p alive).1
    exact List.mem_range.mpr (Nat.lt_of_not_le valid)
  have bounded := (distinct.subperm within).length_le
  rwa [List.length_map, List.length_range] at bounded

theorem Fresh.state {fd : Fd} {s : Socks5} (fresh : Fresh fd s) :
    s.state = .helloRead := by
  rw [Socks5.state, fresh.current]
  rfl

theorem Fresh.wired {p : Ptr} {fd : Fd} {s : Socks5} {env : Env}
    (fresh : Fresh fd s) (address : SockAddr) (valid : invalidFd fd = false)
    (item : env.selector.items fd = some ⟨opRead, .socks5, p⟩)
    (accepted : env.kernel.socket fd = some .accepted)
    (only : ∀ other, Owned p env other → other = fd) :
    Wired p env { s with clientAddr := address, references := 1 } := by
  have state := fresh.state
  obtain ⟨fitted, rfl, originFd, current, resolving⟩ := fresh
  have alone {P : Fd → Prop} : ∀ other ∈ s.originFd, P other := by
    rw [originFd]
    intro _ none
    cases none
  refine ⟨⟨⟨valid, opRead, item⟩, accepted, alone, alone,
    fun other owned => .inl (only other owned), ?_⟩,
    ⟨?_, ?_, fun _ => originFd, ?_⟩, ⟨?_, alone⟩, ?_⟩
  · change 1 = if s.originFd.isSome then 2 else 1
    rw [originFd]
    rfl
  · change s.resolving = decide (s.state = .requestResolv)
    rw [resolving, state]
    rfl
  · intro same
    exact absurd (state.symm.trans same) (by simp)
  · intro same
    exact absurd (state.symm.trans same) (by simp)
  · change env.selector.items s.clientFd = some ⟨_, .socks5, p⟩
    rw [item]
    change some (Item.mk opRead .socks5 p) =
      some ⟨Socks5.interestOfClient _ s.state, .socks5, p⟩
    rw [state]
    rfl
  · change ¬ s.state.closing
    rw [state]
    rintro (same | same) <;> cases same

/-- One more connection is live, and the others do not notice. -/
theorem Roster.admitted {τ : Server} {p : Ptr} {s : Socks5} (roster : σ.Roster)
    (idle : p ∉ σ.live) (few : σ.live.length ≤ itemsMaxSize)
    (live : τ.live = σ.live ++ [p]) (others : ∀ q, q ≠ p → τ.heap q = σ.heap q)
    (elsewhere : ∀ q t, q ≠ p → Wired q σ.env t → Wired q τ.env t)
    (object : τ.heap p = some s) (wired : Wired p τ.env s)
    (fitted : s.wiring.Fitted) (pool : ∀ q ∈ τ.pool, q ∈ σ.pool ∧ q ≠ p)
    (unshared : τ.pool.Nodup) (poolSize : τ.poolSize = τ.pool.length)
    (bounded : τ.poolSize ≤ maxPool)
    (metrics : τ.env.metrics = metricsConnectionOpened σ.env.metrics) :
    τ.Roster := by
  refine ⟨fun q alive => ?_, ?_, fun q pooled => ?_, unshared,
    fun q pooled alive => ?_, poolSize, bounded, ?_⟩
  · rw [live] at alive
    rcases List.mem_append.mp alive with alive | new
    · have other : q ≠ p := fun same => idle (same ▸ alive)
      obtain ⟨t, held, wired, fitted⟩ := roster.wired q alive
      rw [others q other]
      exact ⟨t, held, elsewhere q t other wired, fitted⟩
    · rw [List.mem_singleton] at new
      subst new
      exact ⟨s, object, wired, fitted⟩
  · rw [live]
    refine List.nodup_append.mpr ⟨roster.distinct, List.nodup_singleton p, ?_⟩
    intro q alive other new
    rw [List.mem_singleton] at new
    subst new
    exact fun same => idle (same ▸ alive)
  · obtain ⟨pooled, other⟩ := pool q pooled
    rw [others q other]
    exact roster.spare q pooled
  · obtain ⟨pooled, other⟩ := pool q pooled
    rw [live] at alive
    rcases List.mem_append.mp alive with alive | new
    · exact roster.apart q pooled alive
    · exact other (List.mem_singleton.mp new)
  · have counted := roster.connections
    unfold Env.connections at counted ⊢
    rw [metrics, live, List.length_append, List.length_singleton, ← counted]
    refine currentConnections_opened ?_
    rw [counted]
    unfold itemsMaxSize at few
    omega

structure Aside (σ τ : Server) (jobs : List Job) : Prop where
  steady : τ.Steady jobs
  phase : τ.phase = σ.phase
  queue : τ.env.selector.resolutionJobs = σ.env.selector.resolutionJobs
  items : ∀ fd item, σ.env.selector.items fd = some item →
    τ.env.selector.items fd = some item

/-- A new descriptor that is closed again leaves no trace. -/
theorem sameRole_close_openSocket {env after : Env} (socket : Socket)
    (items : after.selector.items = env.selector.items)
    (kernel : after.kernel =
      (env.kernel.openSocket socket).2.close (env.kernel.openSocket socket).1)
    (fd : Fd) :
    env.SameRole after fd := by
  refine ⟨congrFun items fd, ?_⟩
  unfold Env.kindAt
  rw [kernel, Kernel.socket_close_openSocket]

theorem Steady.closed {τ : Server} (steady : σ.Steady jobs) {socket : Socket}
    (kernel : τ.env.kernel =
      (σ.env.kernel.openSocket socket).2.close
        (σ.env.kernel.openSocket socket).1)
    (selector : τ.env.selector = σ.env.selector)
    (threads : τ.env.threads = σ.env.threads)
    (connections : τ.env.connections = σ.env.connections)
    (heap : τ.heap = σ.heap) (pool : τ.pool = σ.pool)
    (poolSize : τ.poolSize = σ.poolSize) (mgmtHeap : τ.mgmtHeap = σ.mgmtHeap)
    (listeners : τ.listeners = σ.listeners) (live : τ.live = σ.live)
    (phase : τ.phase = σ.phase) : Aside σ τ jobs where
  steady := by
    refine Unchanged.steady ⟨?_, ?_, threads, connections, heap, pool,
      poolSize, mgmtHeap, listeners, live⟩ steady
    · exact sameRole_close_openSocket socket (by rw [selector]) kernel
    · rw [kernel, Kernel.ebadf_close_openSocket]
  phase := phase
  queue := by rw [selector]
  items fd item held := by rw [selector, held]

section Client

variable {p : Ptr} {s : Socks5} {fd : Fd} {τ υ : Server} {kernel : Kernel}
  (steady : σ.Steady jobs)
  (opened : σ.env.kernel.openSocket .accepted = (fd, kernel))
  (drawn : Drawn σ { σ.env with kernel := kernel } p τ)

include steady opened drawn

private theorem aside_refused
    (env : υ.env = { σ.env with kernel := kernel.close fd })
    (touches : Touches τ υ p) (live : υ.live = τ.live)
    (pool : υ.pool = τ.pool ∧ υ.poolSize = τ.poolSize ∨
      ∃ s, Retires τ υ p s ∧ s.wiring.Spare) : Aside σ υ jobs := by
  have closes : kernel.close fd = (σ.env.kernel.openSocket .accepted).2.close
      (σ.env.kernel.openSocket .accepted).1 := by rw [opened]
  have unpooled : p ∉ τ.pool := fun pooled => (drawn.pool p pooled).2 rfl
  have kept (same : υ.pool = τ.pool) (size : υ.poolSize = τ.poolSize) :
      (∀ q ∈ υ.pool, q ∈ σ.pool ∧ q ≠ p ∨ q = p ∧ ∃ s, υ.heap p = some s ∧
        s.wiring.Spare) ∧
        υ.pool.Nodup ∧ υ.poolSize = υ.pool.length ∧ υ.poolSize ≤ maxPool := by
    rw [same, size]
    exact ⟨fun q pooled => .inl (drawn.pool q pooled), drawn.unshared,
      drawn.poolSize, drawn.bounded⟩
  have stock : (∀ q ∈ υ.pool, q ∈ σ.pool ∧ q ≠ p ∨
        q = p ∧ ∃ s, υ.heap p = some s ∧ s.wiring.Spare) ∧
      υ.pool.Nodup ∧ υ.poolSize = υ.pool.length ∧ υ.poolSize ≤ maxPool := by
    rcases pool with ⟨same, size⟩ | ⟨s, retires, spare⟩
    · exact kept same size
    · cases retires with
      | freed same size => exact kept same size
      | pooled room more size object =>
          rw [more, size]
          refine ⟨fun q pooled => ?_,
            List.nodup_cons.mpr ⟨unpooled, drawn.unshared⟩, ?_, room⟩
          · rcases List.mem_cons.mp pooled with rfl | pooled
            · exact .inr ⟨rfl, _, object, spare.1, spare.2⟩
            · exact .inl (drawn.pool q pooled)
          · rw [List.length_cons, drawn.poolSize]
  refine ⟨steady.replaced drawn.idle ?_ ?_ (by rw [env]; rfl)
    (by rw [env]; rfl) ?_
    (touches.mgmtHeap.trans drawn.mgmtHeap)
    (touches.listeners.trans drawn.listeners) (live.trans drawn.live) stock.1
    stock.2.1 stock.2.2.1 stock.2.2.2, touches.phase.trans drawn.phase, by
    rw [env], ?_⟩
  · exact sameRole_close_openSocket .accepted (by rw [env])
      (by rw [env, ← closes])
  · rw [env]
    exact (congrArg Kernel.ebadf closes).trans
      (Kernel.ebadf_close_openSocket ..)
  · exact fun q other => (touches.others q other).trans (drawn.others q other)
  · intro number item held
    rw [env]
    exact held

private theorem aside_registered (selector : Selector) (fresh : Fresh fd s)
    (valid : invalidFd fd = false) (free : σ.env.selector.items fd = none)
    (items : ∀ other, selector.items other =
      if other = fd then some ⟨opRead, .socks5, p⟩
        else σ.env.selector.items other)
    (queue : selector.resolutionJobs = σ.env.selector.resolutionJobs)
    (env : υ.env = { σ.env with
      kernel := kernel
      selector := selector
      metrics := metricsConnectionOpened σ.env.metrics })
    (address : SockAddr)
    (object : υ.heap p = some { s with clientAddr := address, references := 1 })
    (touches : Touches τ υ p) (live : υ.live = τ.live ++ [p])
    (pool : υ.pool = τ.pool) (poolSize : υ.poolSize = τ.poolSize) :
        Aside σ υ jobs := by
  have live : υ.live = σ.live ++ [p] := by rw [live, drawn.live]
  have others (q : Ptr) (other : q ≠ p) : υ.heap q = σ.heap q :=
    (touches.others q other).trans (drawn.others q other)
  have sockets (other : Fd) : υ.env.kernel.socket other =
      if other = fd then some .accepted else σ.env.kernel.socket other := by
    have sockets := Kernel.socket_openSocket σ.env.kernel .accepted other
    rw [env]
    rwa [opened] at sockets
  have held (other : Fd) : υ.env.selector.items other =
      if other = fd then some ⟨opRead, .socks5, p⟩
      else σ.env.selector.items other := by
    rw [env]
    exact items other
  have enrolled : Enrolled σ υ fd ⟨opRead, .socks5, p⟩ := by
    refine ⟨valid, free, held, fun other apart => ?_, ?_, ?_, fun q alive => ?_,
      fun q conn stored => ?_, fun listener listed => .inl ?_⟩
    · exact congrArg (Option.bind · Socket.kind)
        ((sockets other).trans (if_neg apart))
    · rw [env]
      have same := Kernel.ebadf_openSocket σ.env.kernel .accepted
      rwa [opened] at same
    · change p ∈ υ.live
      rw [live]
      exact List.mem_append_right _ (List.mem_singleton_self p)
    · rw [live]
      exact List.mem_append_left _ alive
    · rw [touches.mgmtHeap, drawn.mgmtHeap]
      exact stored
    · rwa [touches.listeners, drawn.listeners] at listed
  have only (other : Fd) (owned : Owned p υ.env other) : other = fd := by
    obtain ⟨i, item⟩ := owned
    by_contra apart
    rw [held, if_neg apart] at item
    exact drawn.idle (steady.registry.items other _ item)
  have wired := fresh.wired address valid ((held fd).trans (if_pos rfl))
    ((sockets fd).trans (if_pos rfl)) only
  have roster : υ.Roster := by
    refine steady.roster.admitted drawn.idle steady.live_length live others
      (fun q t other wired => enrolled.wired wired fun _ => Ne.symm other)
      object wired
      ⟨fresh.fitted.rawRead, fresh.fitted.rawWrite, fresh.fitted.readLimit,
        fresh.fitted.writeLimit⟩ (pool ▸ drawn.pool) (pool ▸ drawn.unshared) ?_
      (poolSize ▸ drawn.bounded) (by rw [env])
    rw [poolSize, pool, drawn.poolSize]
  have resolutions : υ.Resolutions jobs := by
    refine steady.resolutions.besides (steady.idle drawn.idle) others
      (by rw [env]; rfl)
      (fun q other => ?_) fun _ t stored => ?_
    · rw [live, List.mem_append, List.mem_singleton]
      exact ⟨fun either => either.resolve_right other, .inl⟩
    · rw [object] at stored
      cases stored
      change s.state ≠ .requestResolv
      rw [fresh.state]
      simp
  refine ⟨⟨enrolled.registry steady.registry, roster, resolutions⟩,
    touches.phase.trans drawn.phase, by
      rw [env]; exact queue, fun other item listed => ?_⟩
  rw [held, if_neg]
  · exact listed
  · rintro rfl
    rw [free] at listed
    cases listed

omit steady opened drawn in
private theorem env_closeFd (σ : Server) (fd : Fd) :
    (σ.closeFd fd).env = { σ.env with kernel := σ.env.kernel.close fd } := rfl

private theorem registerClient_aside (object : τ.heap p = some s)
    (fresh : Fresh fd s) (address : SockAddr) :
    ∃ υ, τ.registerClient p fd address = some υ ∧ Aside σ υ jobs := by
  have env : τ.env = { σ.env with kernel := kernel } := drawn.env
  have stored {t : Socks5} : (τ.setObject p (some t)).heap p = some t :=
    Function.update_self ..
  have beside (t : Socks5) (q : Ptr) (other : q ≠ p) :
      (τ.setObject p (some t)).heap q = τ.heap q :=
        Function.update_of_ne other ..
  have refuses : ∃ υ, some (Server.closeFd (Server.socks5Destroy
      (τ.setObject p (some { s with clientAddr := address })) p) fd) = some υ ∧
      Aside σ υ jobs := by
    obtain ⟨retires, touches, same, live⟩ :=
      @socks5Destroy_retires
        (τ.setObject p (some { s with clientAddr := address })) p _
        stored fresh.resolving
    refine ⟨_, rfl, aside_refused steady opened drawn ?_ ?_ live
      (.inr ⟨{ s with clientAddr := address }, ?_, fresh.fitted.rawRead,
        fresh.fitted.rawWrite⟩)⟩
    · rw [env_closeFd, same]
      change { τ.env with kernel := τ.env.kernel.close fd } = _
      rw [env]
    · refine ⟨fun q other => ?_, touches.mgmtHeap, touches.listeners,
        touches.phase⟩
      exact (touches.others q other).trans (beside _ q other)
    · cases retires with
      | pooled room pool poolSize object =>
          exact .pooled room pool poolSize object
      | freed pool poolSize => exact .freed pool poolSize
  unfold registerClient
  rw [object]
  dsimp only
  unfold selectorRegister
  cases valid : invalidFd fd with
  | true => exact refuses
  | false =>
      cases free : τ.env.selector.items fd with
      | some item => exact refuses
      | none =>
          refine ⟨_, rfl, aside_registered steady opened drawn
            { τ.env.selector.setItem fd (some ⟨opRead, .socks5, p⟩) with
              maxFd :=
                if fd > τ.env.selector.maxFd then fd else τ.env.selector.maxFd }
            fresh valid ?_ ?_ ?_ ?_ address stored ⟨beside _, rfl, rfl, rfl⟩
            rfl rfl rfl⟩
          · rwa [env] at free
          · rw [env]
            exact fun _ => rfl
          · rw [env]
            rfl
          · rw [env]

end Client

theorem socksv5PassiveAccept_aside (steady : σ.Steady jobs)
    (acc : AcceptAnswers) :
    ∃ τ, socksv5PassiveAccept acc σ = some τ ∧ Aside σ τ jobs := by
  unfold socksv5PassiveAccept
  split
  · exact ⟨σ, rfl, steady, rfl, rfl, fun _ _ => id⟩
  next address _ =>
    obtain ⟨⟨fd, kernel⟩, opened⟩ :
        ∃ result, σ.env.kernel.openSocket .accepted = result :=
      ⟨_, rfl⟩
    have closes : kernel.close fd = (σ.env.kernel.openSocket .accepted).2.close
        (σ.env.kernel.openSocket .accepted).1 := by rw [opened]
    unfold openAccepted
    rw [opened]
    dsimp only
    split
    · exact ⟨_, rfl, steady.closed closes rfl rfl rfl rfl rfl rfl rfl
        rfl rfl rfl⟩
    · obtain ⟨⟨τ, object⟩, runs, prepares⟩ :=
        socks5New_prepares steady.roster { σ.env with kernel := kernel } fd acc
      rw [runs]
      cases prepares with
      | kept =>
          exact ⟨_, rfl, steady.closed closes rfl rfl rfl rfl rfl rfl rfl
            rfl rfl rfl⟩
      | freed drawn =>
          refine ⟨_, rfl, aside_refused steady opened drawn ?_
            ⟨fun _ _ => rfl, rfl, rfl, rfl⟩ rfl (.inl ⟨rfl, rfl⟩)⟩
          rw [env_closeFd, drawn.env]
      | drawn drawn object fresh =>
          exact registerClient_aside steady opened drawn object fresh address

theorem Enrolled.aside {τ : Server} {fd : Fd} {item : Item}
    (enrolled : Enrolled σ τ fd item) (steady : σ.Steady jobs)
    (other : item.handler ≠ .socks5)
    (connections : τ.env.connections = σ.env.connections)
    (threads : τ.env.threads = σ.env.threads) (heap : τ.heap = σ.heap)
    (pool : τ.pool = σ.pool) (poolSize : τ.poolSize = σ.poolSize)
    (live : τ.live = σ.live) (phase : τ.phase = σ.phase)
    (queue : τ.env.selector.resolutionJobs = σ.env.selector.resolutionJobs) :
    Aside σ τ jobs := by
  have alongside : Alongside σ τ :=
    ⟨fun p s wired => enrolled.wired wired fun same => absurd same other,
      connections, threads, heap, pool, poolSize, live⟩
  refine ⟨⟨enrolled.registry steady.registry, alongside.roster steady.roster,
    alongside.resolutions steady.resolutions⟩, phase, queue,
    fun number held listed => ?_⟩
  rw [enrolled.items, if_neg]
  · exact listed
  · rintro rfl
    rw [enrolled.free] at listed
    cases listed

theorem mgmtPassiveAccept_aside (steady : σ.Steady jobs) (acc : AcceptAnswers) :
    ∃ τ, mgmtPassiveAccept acc σ = some τ ∧ Aside σ τ jobs := by
  unfold mgmtPassiveAccept
  split
  · exact ⟨σ, rfl, steady, rfl, rfl, fun _ _ => id⟩
  · obtain ⟨⟨fd, kernel⟩, opened⟩ :
        ∃ result, σ.env.kernel.openSocket .accepted = result :=
      ⟨_, rfl⟩
    have closes : kernel.close fd = (σ.env.kernel.openSocket .accepted).2.close
        (σ.env.kernel.openSocket .accepted).1 := by rw [opened]
    have refused : ∃ τ,
        some (closeFd { σ with env := { σ.env with kernel := kernel } } fd) =
          some τ ∧ Aside σ τ jobs :=
      ⟨_, rfl, steady.closed closes rfl rfl rfl rfl rfl rfl rfl rfl rfl rfl⟩
    have sockets (other : Fd) : kernel.socket other =
        if other = fd then some .accepted else σ.env.kernel.socket other := by
      have sockets := Kernel.socket_openSocket σ.env.kernel .accepted other
      rwa [opened] at sockets
    unfold openAccepted
    rw [opened]
    dsimp only
    split
    · exact refused
    · split
      · exact refused
      next p _ =>
        split
        · exact refused
        next unused =>
          unfold selectorRegister
          cases valid : invalidFd fd with
          | true => exact refused
          | false =>
              cases free : σ.env.selector.items fd with
              | some item => exact refused
              | none =>
                  refine ⟨_, rfl, @Enrolled.aside _ _ _ fd ⟨opRead, .mgmt, p⟩
                    ⟨valid, free, fun _ => rfl, ?_, ?_,
                      ⟨?_, mgmtNew fd, ?_, rfl⟩, ?_, ?_, ?_⟩
                    steady (by simp) rfl rfl rfl rfl rfl rfl rfl rfl⟩
                  · intro other apart
                    exact congrArg (Option.bind · Socket.kind)
                      ((sockets other).trans (if_neg apart))
                  · have same := Kernel.ebadf_openSocket σ.env.kernel .accepted
                    rwa [opened] at same
                  · exact congrArg (Option.bind · Socket.kind)
                      ((sockets fd).trans (if_pos rfl))
                  · exact Function.update_self ..
                  · exact fun _ => id
                  · intro q conn stored
                    refine (Function.update_of_ne ?_ ..).trans stored
                    rintro rfl
                    exact unused (by rw [stored]; rfl)
                  · exact fun _ => .inl

end Server

end SocksProxy
