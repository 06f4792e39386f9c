import SocksProxy.Server.Accept

/-! The invariant over every step of the server, and that no step goes wrong. -/

namespace SocksProxy

theorem Due.settled {p : Ptr} {env : Env} {s : Socks5} {kind : EventKind}
    {fd : Fd} (due : Due p env s kind fd) (wired : Wired p env s)
    (plain : kind ≠ .block) :
    s.state ≠ .requestResolv := by
  intro state
  cases due with
  | block => exact plain rfl
  | read item wanted =>
      rcases wired.item_interest item with ⟨-, rfl⟩ | ⟨-, rfl⟩
      · rw [state] at wanted
        cases wanted
      · rw [state] at wanted
        cases wanted
  | write item wanted =>
      rcases wired.item_interest item with ⟨-, rfl⟩ | ⟨-, rfl⟩
      · rw [state] at wanted
        cases wanted
      · rw [state] at wanted
        cases wanted

theorem Upkept.data {p : Ptr} {env : Env} {s : Socks5} {c : Ctx} {fd : Fd}
    (upkept : Upkept p env s c) (owned : Owned p env fd) {item : Item}
    (held : c.env.selector.items fd = some item) : item.data = p := by
  obtain ⟨i, before⟩ := owned
  rcases upkept.frame.slots fd with same | ⟨-, free | ⟨⟨j, after⟩, -⟩⟩
  · rw [same.1, before] at held
    cases held
    rfl
  · rw [free.1] at held
    cases held
  · rw [after] at held
    cases held
    rfl

namespace Server

variable {σ : Server} {jobs : List Job}

structure Visited (σ τ : Server) (jobs : List Job) (key : Key) : Prop where
  steady : τ.Steady jobs
  phase : τ.phase = σ.phase
  queue : τ.env.selector.resolutionJobs = σ.env.selector.resolutionJobs
  data : ∀ item, τ.env.selector.items key.fd = some item → item.data = key.data

theorem Aside.visited {τ : Server} {key : Key} {item : Item}
    (aside : Aside σ τ jobs) (held : σ.env.selector.items key.fd = some item)
    (data : item.data = key.data) :
    Visited σ τ jobs key := by
  refine ⟨aside.steady, aside.phase, aside.queue, fun other member => ?_⟩
  rw [aside.items key.fd item held] at member
  cases member
  exact data

theorem dispatchSocks5_visited {kind : EventKind} {fd : Fd} {p : Ptr}
    {i : Interest} (steady : σ.Steady jobs)
    (item : σ.env.selector.items fd = some ⟨i, .socks5, p⟩)
    (wanted : kind = .read ∧ i.read = true ∨ kind = .write ∧ i.write = true)
    (a : Answers) :
    ∃ τ, σ.dispatchSocks5 kind ⟨fd, p⟩ a = some τ ∧
      Visited σ τ jobs ⟨fd, p⟩ := by
  have member : p ∈ σ.live := steady.registry.items fd _ item
  obtain ⟨s, object, wired, fitted⟩ := steady.roster.wired p member
  have due : Due p σ.env s kind fd := by
    rcases wanted with ⟨rfl, wanted⟩ | ⟨rfl, wanted⟩
    · exact .read item wanted
    · exact .write item wanted
  have plain : kind ≠ .block := by
    rcases wanted with ⟨rfl, -⟩ | ⟨rfl, -⟩ <;> simp
  obtain ⟨c, runs, upkept⟩ := wired.serves due a
  obtain ⟨returns, touches, env⟩ := afterCall_returns upkept
  refine ⟨_, @dispatchSocks5_eq σ kind ⟨fd, p⟩ a s c object runs, ⟨?_, ?_, ?_⟩,
    touches.phase, ?_, fun held member => ?_⟩
  · exact steady.registry.afterCall touches env returns upkept member
  · exact steady.roster.afterCall touches env returns upkept member fitted
  · exact steady.resolutions.afterCall touches env returns upkept steady.roster
      member object (due.settled wired plain)
  · rw [env]
    exact congrArg Background.jobs upkept.frame.background
  · rw [env] at member
    exact upkept.data ⟨i, item⟩ member

/-- The server behind a management handler. -/
private def afterMgmt (σ : Server) (key : Key) (y : MgmtCtx) : Server :=
  { σ.setMgmt key.data (if y.closed then none else some y.c) with env := y.env }

section Mgmt

variable {key : Key} {i : Interest} {conn : MgmtConn} {y : MgmtCtx}
  (settled : MgmtSettled key ⟨σ.env, conn, [], false⟩ y)

include settled

private theorem bound_of_item {held : Item}
    (member : y.env.selector.items key.fd = some held) :
    (∃ j, held = ⟨j, .mgmt, key.data⟩) ∧ MgmtBound key y := by
  rcases settled.here with bound | ⟨-, free, -⟩
  · obtain ⟨j, kept⟩ := bound.item
    rw [kept] at member
    cases member
    exact ⟨⟨j, rfl⟩, bound⟩
  · rw [free] at member
    cases member

variable (item : σ.env.selector.items key.fd = some ⟨i, .mgmt, key.data⟩)

include item

private theorem afterMgmt_registry (registry : σ.Registry)
    (stored : σ.mgmtHeap key.data = some conn) (number : conn.fd = key.fd) :
    (afterMgmt σ key y).Registry := by
  have role {other : Fd} (apart : other ≠ key.fd) :
      σ.env.SameRole y.env other :=
    (settled.elsewhere other apart).role
  refine ⟨fun other held member => ?_, fun other held member => ?_,
    fun other kind known => ?_, fun listener listed => ?_,
    (congrArg Machinery.ebadf settled.machinery).trans registry.ebadf⟩
  · by_cases apart : other = key.fd
    · exact apart ▸ registry.valid key.fd _ item
    · exact registry.valid other held ((role apart).1.symm.trans member)
  · by_cases apart : other = key.fd
    · subst apart
      obtain ⟨⟨j, rfl⟩, bound⟩ := bound_of_item settled member
      refine ⟨kindAt_accepted.mpr bound.accepted, y.c, ?_, bound.fd⟩
      unfold afterMgmt
      rw [bound.live]
      exact Function.update_self ..
    · have hosted :=
        registry.items other held ((role apart).1.symm.trans member)
      have kind : y.env.kindAt other = σ.env.kindAt other := (role apart).2
      obtain ⟨j, handler, data⟩ := held
      cases handler with
      | mgmt =>
          obtain ⟨socket, owner, kept, its⟩ := hosted
          refine ⟨kind.trans socket, owner,
            (Function.update_of_ne ?_ ..).trans kept, its⟩
          intro shared
          rw [shared, stored] at kept
          cases kept
          exact apart (its.symm.trans number)
      | socks5 => exact hosted
      | socksListener | mgmtListener =>
          exact ⟨kind.trans hosted.1, hosted.2⟩
  · change (y.env.selector.items other).isSome
    by_cases apart : other = key.fd
    · subst apart
      rcases settled.here with bound | ⟨-, -, closed⟩
      · obtain ⟨j, kept⟩ := bound.item
        rw [kept]
        rfl
      · change y.env.kindAt key.fd = some kind at known
        rw [Env.kindAt, closed] at known
        cases known
    · rw [(role apart).1]
      exact registry.sockets other kind ((role apart).2.symm.trans known)
  · obtain ⟨held, member, listens⟩ := registry.listeners listener listed
    by_cases apart : listener = key.fd
    · rw [apart, item] at member
      cases member
      exact listens.elim
    · exact ⟨held, (role apart).1.trans member, listens⟩

private theorem alongside_afterMgmt : Alongside σ (afterMgmt σ key y) where
  wired p s wired := wired.elsewhere fun other => by
    by_cases apart : other = key.fd
    · subst apart
      refine .inr ⟨?_, ?_⟩
      · rintro ⟨j, owned⟩
        rw [item] at owned
        cases owned
      · rintro ⟨j, owned⟩
        obtain ⟨⟨_, shape⟩, -⟩ := bound_of_item settled owned
        cases shape
    · exact .inl (settled.elsewhere other apart).role
  connections :=
    congrArg Metrics.currentConnections
      (congrArg Machinery.metrics settled.machinery)
  threads := congrArg Machinery.threads settled.machinery
  heap := rfl
  pool := rfl
  poolSize := rfl
  live := rfl

end Mgmt

theorem dispatchMgmt_visited {key : Key} {i : Interest}
    {handler : Key → Answers → MgmtCtx → Option MgmtCtx} (a : Answers)
    (runs : ∀ x, MgmtBound key x → ∃ y, handler key a x = some y ∧
      MgmtSettled key x y) (steady : σ.Steady jobs)
    (item : σ.env.selector.items key.fd = some ⟨i, .mgmt, key.data⟩) :
    ∃ τ, σ.dispatchMgmt handler key a = some τ ∧ Visited σ τ jobs key := by
  obtain ⟨accepted, conn, stored, number⟩ := steady.registry.items key.fd _ item
  have valid := steady.registry.valid key.fd _ item
  obtain ⟨y, ran, settled⟩ := runs ⟨σ.env, conn, [], false⟩
    ⟨valid, ⟨i, item⟩, kindAt_accepted.mp accepted, number, rfl⟩
  have alongside := alongside_afterMgmt settled item
  refine ⟨afterMgmt σ key y, ?_,
    ⟨afterMgmt_registry settled item steady.registry stored number,
    alongside.roster steady.roster, alongside.resolutions steady.resolutions⟩,
    rfl, congrArg Machinery.jobs settled.machinery, fun held member => ?_⟩
  · unfold dispatchMgmt
    rw [stored]
    dsimp only
    rw [ran]
    rfl
  · obtain ⟨⟨j, rfl⟩, -⟩ := bound_of_item settled member
    rfl

/-- One half of a visit finds a callback for every event that it passes on. -/
theorem visitHalf_visited {kind : EventKind} {i : Fd} {data : Ptr}
    (steady : σ.Steady jobs) (plain : kind ≠ .block)
    (same : ∀ item, σ.env.selector.items i = some item → item.data = data)
    (input : Input) :
    ∃ τ, visitHalf kind i data input σ = some τ ∧
      Visited σ τ jobs ⟨i, data⟩ := by
  have nothing : Visited σ σ jobs ⟨i, data⟩ := ⟨steady, rfl, rfl, same⟩
  unfold visitHalf
  cases held : σ.env.selector.items i with
  | none => exact ⟨σ, rfl, nothing⟩
  | some item =>
      obtain ⟨interest, handler, owner⟩ := item
      obtain rfl : owner = data := same _ held
      have hosted := steady.registry.items i _ held
      cases kind with
      | block => exact absurd rfl plain
      | read =>
          dsimp only
          split
          next ready =>
            have wanted := (Bool.and_eq_true_iff.mp ready).2
            cases handler with
            | socks5 =>
                exact dispatchSocks5_visited steady held (.inl ⟨rfl, wanted⟩) _
            | mgmt =>
                exact dispatchMgmt_visited input.answers
                  (fun _ bound => settled_mgmtRead bound _) steady held
            | socksListener =>
                obtain ⟨τ, runs, aside⟩ :=
                  socksv5PassiveAccept_aside steady input.accept
                exact ⟨τ, runs, aside.visited held rfl⟩
            | mgmtListener =>
                obtain ⟨τ, runs, aside⟩ :=
                  mgmtPassiveAccept_aside steady input.accept
                exact ⟨τ, runs, aside.visited held rfl⟩
          next => exact ⟨σ, rfl, nothing⟩
      | write =>
          dsimp only
          split
          next ready =>
            have wanted := (Bool.and_eq_true_iff.mp ready).2
            cases handler with
            | socks5 =>
                exact dispatchSocks5_visited steady held (.inr ⟨rfl, wanted⟩) _
            | mgmt =>
                exact dispatchMgmt_visited input.answers
                  (fun _ bound => settled_mgmtWrite bound _) steady held
            | socksListener | mgmtListener =>
                obtain ⟨-, asked⟩ := hosted
                dsimp only at asked wanted
                rw [asked] at wanted
                cases wanted
          next => exact ⟨σ, rfl, nothing⟩

structure Awaits (σ : Server) (job : Job) (s : Socks5) : Prop where
  live : job.owner ∈ σ.live
  object : σ.heap job.owner = some s
  state : s.state = .requestResolv
  resolving : s.resolving = true
  clientFd : job.fd = s.clientFd
  item : σ.env.selector.items job.fd = some ⟨opNoop, .socks5, job.owner⟩
  answer : s.dns.Holds job.answer

theorem Steady.awaits (steady : σ.Steady jobs) {job : Job}
    (member : job ∈ jobs) :
    ∃ s, Awaits σ job s := by
  have waits : job.owner ∈ (outstanding σ.env jobs).map Prod.fst :=
    List.mem_map.mpr ⟨(job.owner, job.ticket),
      List.mem_append_right _ (List.mem_map_of_mem member), rfl⟩
  obtain ⟨live, s, object, state⟩ := (steady.resolutions.awaited _).mp waits
  obtain ⟨t, same, wired, -⟩ := steady.roster.wired _ live
  obtain rfl : s = t := Option.some.inj (object.symm.trans same)
  obtain ⟨clientFd, answer⟩ := steady.resolutions.queued job member s object
  refine ⟨s, live, object, state, ?_, clientFd, ?_, answer⟩
  · exact wired.shaped.resolving.trans (decide_eq_true state)
  · rw [clientFd, wired.tuned.client, state]
    rfl

theorem handleJob_steady {job : Job} {rest : List Job}
    (steady : σ.Steady (job :: rest)) (input : Input) :
    ∃ τ, handleJob job input σ = some τ ∧ τ.Steady rest ∧ τ.phase = σ.phase ∧
      τ.env.selector.resolutionJobs = σ.env.selector.resolutionJobs := by
  obtain ⟨s, awaits⟩ := steady.awaits List.mem_cons_self
  obtain ⟨t, object, wired, fitted⟩ := steady.roster.wired _ awaits.live
  obtain rfl : s = t := Option.some.inj (awaits.object.symm.trans object)
  obtain ⟨c, runs, upkept⟩ :=
    wired.serves (.block awaits.state : Due _ σ.env s .block job.fd)
      input.answers
  obtain ⟨returns, touches, env⟩ := afterCall_returns upkept
  unfold handleJob
  rw [awaits.item]
  refine ⟨_, @dispatchSocks5_eq σ .block ⟨job.fd, job.owner⟩ input.answers s c
    object runs, ⟨?_, ?_, ?_⟩, touches.phase, ?_⟩
  · exact steady.registry.afterCall touches env returns upkept awaits.live
  · exact steady.roster.afterCall touches env returns upkept awaits.live fitted
  · exact steady.resolutions.resolved touches env returns upkept steady.roster
      rfl awaits.state
  · rw [env]
    exact congrArg Background.jobs upkept.frame.background

/-- The listeners are leaving, so nothing is said of the list of them. -/
def unlisted (σ : Server) : Server := { σ with listeners := [] }

private theorem Steady.removed {τ : Server} {fd : Fd} {item : Item}
    (steady : σ.Steady jobs) (held : σ.env.selector.items fd = some item)
    (listens : item.handler.listening)
    (roles : ∀ other, other ≠ fd → σ.env.SameRole τ.env other)
    (free : τ.env.selector.items fd = none) (closed : τ.env.kindAt fd = none)
    (ebadf : τ.env.kernel.ebadf = σ.env.kernel.ebadf)
    (threads : τ.env.threads = σ.env.threads)
    (connections : τ.env.connections = σ.env.connections)
    (heap : τ.heap = σ.heap) (pool : τ.pool = σ.pool)
    (poolSize : τ.poolSize = σ.poolSize) (mgmtHeap : τ.mgmtHeap = σ.mgmtHeap)
    (listeners : τ.listeners = []) (live : τ.live = σ.live) :
    τ.Steady jobs := by
  have elsewhere {other : Fd} {present : Item}
      (member : τ.env.selector.items other = some present) : other ≠ fd := by
    rintro rfl
    rw [free] at member
    cases member
  have alongside : Alongside σ τ := by
    refine ⟨fun p s wired => wired.elsewhere fun other => ?_, connections,
      threads, heap, pool, poolSize, live⟩
    by_cases same : other = fd
    · refine .inr ⟨?_, ?_⟩
      · rintro ⟨i, owned⟩
        rw [same, held] at owned
        cases owned
        exact listens.elim
      · rintro ⟨i, owned⟩
        exact elsewhere owned same
    · exact .inl (roles other same)
  refine ⟨⟨fun other present member => ?_, fun other present member => ?_,
    fun other kind opened => ?_, fun listener listed =>
      ?_, ebadf.trans steady.registry.ebadf⟩,
    alongside.roster steady.roster, alongside.resolutions steady.resolutions⟩
  · have role := roles other (elsewhere member)
    exact steady.registry.valid other present (role.1.symm.trans member)
  · have role := roles other (elsewhere member)
    have hosted :=
      steady.registry.items other present (role.1.symm.trans member)
    unfold Hosted at hosted ⊢
    rw [role.2, live, mgmtHeap]
    exact hosted
  · have apart : other ≠ fd := by
      rintro rfl
      rw [closed] at opened
      cases opened
    rw [(roles other apart).1]
    exact steady.registry.sockets other kind
      ((roles other apart).2.symm.trans opened)
  · rw [listeners] at listed
    cases listed

theorem unregisterListener_steady {fd : Fd} (steady : σ.unlisted.Steady jobs)
    (listens :
      ∀ item, σ.env.selector.items fd = some item → item.handler.listening) :
    ∃ env, unregisterListener fd σ = some { σ with env := env } ∧
      (unlisted { σ with env := env }).Steady jobs ∧
      env.selector.resolutionJobs = σ.env.selector.resolutionJobs ∧
      ∀ other item, env.selector.items other = some item →
        σ.env.selector.items other = some item := by
  unfold unregisterListener
  split
  · exact ⟨σ.env, rfl, steady, rfl, fun _ _ => id⟩
  · cases held : σ.env.selector.items fd with
    | none => exact ⟨σ.env, rfl, steady, rfl, fun _ _ => id⟩
    | some item =>
        have kind : σ.env.kindAt fd = some .listener ∧
            (item.handler = .socksListener ∨ item.handler = .mgmtListener) := by
          have hosted := steady.registry.items fd item held
          have listening := listens item held
          unfold Hosted at hosted
          cases handler : item.handler with
          | socks5 | mgmt =>
              rw [handler] at listening
              exact listening.elim
          | socksListener =>
              rw [handler] at hosted
              exact ⟨hosted.1, .inl rfl⟩
          | mgmtListener =>
              rw [handler] at hosted
              exact ⟨hosted.1, .inr rfl⟩
        obtain ⟨listener, handler⟩ := kind
        obtain ⟨socket, opened⟩ : ∃ socket, σ.env.kernel.socket fd =
            some socket := by
          cases opened : σ.env.kernel.socket fd with
          | none =>
              rw [Env.kindAt, opened] at listener
              cases listener
          | some socket => exact ⟨socket, rfl⟩
        have items (other : Fd) :
            (selectorRemove σ.env.selector fd).items other =
              if other = fd then none else σ.env.selector.items other := rfl
        have role {env : Env}
            (selector : env.selector = selectorRemove σ.env.selector fd)
            (kernel : env.kernel = σ.env.kernel.close fd) {other : Fd}
            (apart : other ≠ fd) : σ.env.SameRole env other := by
          refine ⟨?_, ?_⟩
          · rw [selector, items, if_neg apart]
          · unfold Env.kindAt
            rw [kernel, Kernel.socket_close, if_neg apart]
        dsimp only
        rw [if_pos handler]
        refine ⟨_, rfl, ?_, rfl, fun other held member => ?_⟩
        · refine steady.removed held (listens item held) (fun other apart =>
            role rfl rfl apart) ?_ ?_ ?_ rfl rfl rfl rfl rfl rfl rfl rfl
          · exact (items fd).trans (if_pos rfl)
          · change (Option.bind ((σ.env.kernel.close fd).socket fd)
              Socket.kind) = none
            rw [Kernel.socket_close, if_pos rfl]
            rfl
          · exact Kernel.ebadf_close opened
        · have gone := (items other).symm.trans member
          split at gone
          · cases gone
          · exact gone

theorem unregisterListeners_steady {fds : List Fd}
    (steady : σ.unlisted.Steady jobs)
    (listens : ∀ fd ∈ fds, ∀ item, σ.env.selector.items fd = some item →
      item.handler.listening) :
    ∃ env, unregisterListeners fds σ = some (unlisted { σ with env := env }) ∧
      (unlisted { σ with env := env }).Steady jobs ∧
      env.selector.resolutionJobs = σ.env.selector.resolutionJobs := by
  induction fds generalizing σ with
  | nil => exact ⟨σ.env, rfl, steady, rfl⟩
  | cons fd rest induction =>
      obtain ⟨middle, first, steady, queue, kept⟩ :=
        unregisterListener_steady steady (listens fd List.mem_cons_self)
      obtain ⟨env, others, steady, still⟩ :=
        @induction { σ with env := middle } steady
        fun other member item held =>
          listens other (List.mem_cons_of_mem _ member) item
          (kept other item held)
      refine ⟨env, ?_, steady, still.trans queue⟩
      unfold unregisterListeners
      rw [first]
      exact others

end Server

end SocksProxy
