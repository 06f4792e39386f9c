import SocksProxy.Server.Effects

/-! What a step changes apart from the objects of the connections: the items of
the selector, the management connections, the listeners, the users and the
configuration. -/

namespace SocksProxy

def Env.settings (env : Env) : UserTable × ProxyConfig :=
  (env.users, env.config)

/-- Everything but the kernel and the resolver threads. -/
def Env.holdings (env : Env) : Selector × Metrics × UserTable × ProxyConfig :=
  (env.selector, env.metrics, env.settings)

namespace Server

variable {σ τ : Server} {event : Event}

theorem socks5New_leaves {fd : Fd} {acc : AcceptAnswers} {p : Option Ptr}
    (runs : σ.socks5New fd acc = some (τ, p)) :
    τ.env = σ.env ∧ τ.live = σ.live ∧ τ.aloof = σ.aloof := by
  unfold socks5New at runs
  split at runs
  · dsimp only at runs
    split at runs <;> cases runs
    exact ⟨rfl, rfl, rfl⟩
  · split at runs
    · cases runs
      exact ⟨rfl, rfl, rfl⟩
    · split at runs <;> cases runs <;> exact ⟨rfl, rfl, rfl⟩

structure Registering (σ τ : Server) (fd : Fd) (item : Item) : Prop where
  opened : σ.env.kernel.openSocket .accepted = (fd, τ.env.kernel)
  registered :
    selectorRegister σ.env.selector fd item.handler item.interest item.data =
      (τ.env.selector, .success)
  settings : τ.env.settings = σ.env.settings

theorem selectorRegister_items {selector after : Selector} {fd : Fd}
  {handler : FdHandler}
    {i : Interest} {p : Ptr}
    (registered : selectorRegister selector fd handler i p =
      (after, .success)) :
    invalidFd fd = false ∧ selector.items fd = none ∧ ∀ other,
      after.items other =
        if other = fd then some ⟨i, handler, p⟩ else selector.items other := by
  unfold selectorRegister at registered
  split at registered
  · exact absurd (congrArg Prod.snd registered) (by simp)
  next valid =>
    split at registered
    · exact absurd (congrArg Prod.snd registered) (by simp)
    next free =>
      refine ⟨Bool.not_eq_true _ ▸ valid, free, fun other => ?_⟩
      exact congrFun
        (congrArg Selector.items (congrArg Prod.fst registered)).symm other

theorem Registering.spot {fd : Fd} {item : Item}
    (registering : Registering σ τ fd item) :
    invalidFd fd = false ∧ σ.env.selector.items fd = none ∧
      ∀ other, τ.env.selector.items other =
        if other = fd then some item else σ.env.selector.items other :=
  selectorRegister_items registering.registered

/-- How `socksv5_passive_accept` ends. -/
inductive Welcomes (σ τ : Server) : Prop
  | refuses (holdings : τ.env.holdings = σ.env.holdings)
      (live : τ.live = σ.live)
  | registers {fd : Fd} {p : Ptr}
      (registering : Registering σ τ fd ⟨opRead, .socks5, p⟩)
      (live : τ.live = σ.live ++ [p])
      (metrics : τ.env.metrics = metricsConnectionOpened σ.env.metrics)

theorem socks5Destroy_leaves (p : Ptr) :
    (σ.socks5Destroy p).env = σ.env ∧ (σ.socks5Destroy p).live = σ.live := by
  unfold socks5Destroy
  split
  · exact ⟨rfl, rfl⟩
  · split
    · exact ⟨rfl, rfl⟩
    · dsimp only
      split <;> exact ⟨rfl, rfl⟩

theorem socksv5PassiveAccept_welcomes {acc : AcceptAnswers}
    (runs : socksv5PassiveAccept acc σ = some τ) :
    τ.aloof = σ.aloof ∧ Welcomes σ τ := by
  obtain ⟨⟨fd, kernel⟩, opened⟩ : ∃ result, σ.env.kernel.openSocket .accepted =
      result :=
    ⟨_, rfl⟩
  unfold socksv5PassiveAccept at runs
  split at runs
  · cases runs
    exact ⟨rfl, .refuses rfl rfl⟩
  · unfold openAccepted at runs
    rw [opened] at runs
    dsimp only at runs
    split at runs
    · cases runs
      exact ⟨rfl, .refuses rfl rfl⟩
    · split at runs
      · cases runs
      next υ prepared =>
        obtain ⟨env, live, aloof⟩ := socks5New_leaves prepared
        have holdings : υ.env.holdings = σ.env.holdings :=
          (congrArg Env.holdings env).trans rfl
        cases runs
        exact ⟨aloof, .refuses holdings live⟩
      next υ p prepared =>
        obtain ⟨env, live, aloof⟩ := socks5New_leaves prepared
        have holdings : υ.env.holdings = σ.env.holdings :=
          (congrArg Env.holdings env).trans rfl
        unfold registerClient at runs
        split at runs
        · cases runs
        next s object =>
          dsimp only at runs
          split at runs
          next selector registered =>
            have kernels : υ.env.kernel = kernel := by rw [env]
            have registering : Registering σ τ fd ⟨opRead, .socks5, p⟩ := by
              cases runs
              refine ⟨?_, ?_, ?_⟩
              · rw [opened, ← kernels]
              · rw [env] at registered
                exact registered
              · exact (congrArg Env.settings env).trans rfl
            cases runs
            refine ⟨aloof, .registers registering (congrArg (· ++ [p]) live) ?_⟩
            exact (congrArg (fun env : Env =>
              metricsConnectionOpened env.metrics) env).trans rfl
          next =>
            cases runs
            obtain ⟨same, left⟩ :=
              @socks5Destroy_leaves
                (υ.setObject p (some { s with clientAddr := _ })) p
            refine ⟨(socks5Destroy_aloof p).trans aloof,
              .refuses ?_ (left.trans live)⟩
            exact (congrArg Env.holdings same).trans holdings

/-- How `mgmt_passive_accept` ends. -/
inductive Admits (σ τ : Server) : Prop
  | refuses (holdings : τ.env.holdings = σ.env.holdings)
      (aloof : τ.aloof = σ.aloof)
  | registers {fd : Fd} {p : Ptr}
      (registering : Registering σ τ fd ⟨opRead, .mgmt, p⟩)
      (metrics : τ.env.metrics = σ.env.metrics) (unused : σ.mgmtHeap p = none)
      (aloof : τ.aloof =
        { σ.setMgmt p (some (mgmtNew fd)) with env := τ.env }.aloof)

theorem mgmtPassiveAccept_admits {acc : AcceptAnswers}
    (runs : mgmtPassiveAccept acc σ = some τ) :
    τ.heap = σ.heap ∧ τ.live = σ.live ∧ Admits σ τ := by
  obtain ⟨⟨fd, kernel⟩, opened⟩ : ∃ result, σ.env.kernel.openSocket .accepted =
      result :=
    ⟨_, rfl⟩
  unfold mgmtPassiveAccept at runs
  split at runs
  · cases runs
    exact ⟨rfl, rfl, .refuses rfl rfl⟩
  · unfold openAccepted at runs
    rw [opened] at runs
    dsimp only at runs
    split at runs
    · cases runs
      exact ⟨rfl, rfl, .refuses rfl rfl⟩
    · split at runs
      · cases runs
        exact ⟨rfl, rfl, .refuses rfl rfl⟩
      next p _ =>
        split at runs
        · cases runs
          exact ⟨rfl, rfl, .refuses rfl rfl⟩
        next unused =>
          split at runs
          next selector registered =>
            cases runs
            refine ⟨rfl, rfl, .registers ⟨opened, registered, rfl⟩ rfl ?_ rfl⟩
            exact Option.not_isSome_iff_eq_none.mp unused
          next =>
            cases runs
            exact ⟨rfl, rfl, .refuses rfl rfl⟩

structure Dismisses (σ τ : Server) (fds : List Fd) : Prop where
  items : ∀ fd, τ.env.selector.items fd = σ.env.selector.items fd ∨
    τ.env.selector.items fd = none ∧
      ∃ item, σ.env.selector.items fd = some item ∧ item.handler.listening
  gone : ∀ fd ∈ fds, invalidFd fd = false → τ.env.selector.items fd = none
  metrics : τ.env.metrics = σ.env.metrics
  settings : τ.env.settings = σ.env.settings
  mgmtHeap : τ.mgmtHeap = σ.mgmtHeap
  heap : τ.heap = σ.heap
  pool : τ.pool = σ.pool
  live : τ.live = σ.live
  sigcount : τ.sigcount = σ.sigcount
  shuttingDown : τ.shuttingDown = σ.shuttingDown

theorem unregisterListener_dismisses {fd : Fd}
    (runs : unregisterListener fd σ = some τ) :
    Dismisses σ τ [fd] := by
  have here {υ : Server} (free : invalidFd fd = false →
      υ.env.selector.items fd = none) :
      ∀ other ∈ [fd], invalidFd other = false →
      υ.env.selector.items other = none := by
    intro other listed valid
    rw [List.mem_singleton] at listed
    subst listed
    exact free valid
  unfold unregisterListener at runs
  split at runs
  next invalid =>
    cases runs
    refine ⟨fun _ => .inl rfl, here fun valid => ?_, rfl, rfl, rfl, rfl, rfl,
      rfl, rfl, rfl⟩
    rw [invalid] at valid
    cases valid
  · split at runs
    next free =>
      cases runs
      exact ⟨fun _ => .inl rfl, here fun _ => free, rfl, rfl, rfl, rfl, rfl,
        rfl, rfl, rfl⟩
    next item held =>
      split at runs
      next listens =>
        cases runs
        have items (other : Fd) :
            (selectorRemove σ.env.selector fd).items other =
              if other = fd then none else σ.env.selector.items other := rfl
        refine ⟨fun other => ?_, here fun _ => (items fd).trans (if_pos rfl),
          rfl, rfl, rfl, rfl, rfl, rfl, rfl, rfl⟩
        by_cases same : other = fd
        · subst same
          refine .inr ⟨(items other).trans (if_pos rfl), item, held, ?_⟩
          rcases listens with handler | handler <;> rw [handler] <;> trivial
        · exact .inl ((items other).trans (if_neg same))
      next => cases runs

theorem unregisterListeners_dismisses {fds : List Fd}
    (runs : unregisterListeners fds σ = some τ) :
    Dismisses σ τ fds ∧ τ.listeners = [] := by
  induction fds generalizing σ with
  | nil =>
      cases runs
      refine ⟨⟨fun _ => .inl rfl, ?_, rfl, rfl, rfl, rfl, rfl, rfl, rfl, rfl⟩,
        rfl⟩
      intro fd listed
      cases listed
  | cons fd rest induction =>
      obtain ⟨middle, first, others⟩ := Option.bind_eq_some_iff.mp runs
      have before := unregisterListener_dismisses first
      obtain ⟨after, empty⟩ := induction others
      refine ⟨⟨fun other => ?_, fun other listed valid => ?_,
        after.metrics.trans before.metrics,
        after.settings.trans before.settings,
        after.mgmtHeap.trans before.mgmtHeap, after.heap.trans before.heap,
        after.pool.trans before.pool, after.live.trans before.live,
        after.sigcount.trans before.sigcount,
        after.shuttingDown.trans before.shuttingDown⟩, empty⟩
      · rcases after.items other with same | ⟨free, item, held, listens⟩
        · rcases before.items other with still | ⟨free, gone⟩
          · exact .inl (same.trans still)
          · exact .inr ⟨same.trans free, gone⟩
        · rcases before.items other with still | ⟨free', gone⟩
          · exact .inr ⟨free, item, still ▸ held, listens⟩
          · exact .inr ⟨free, gone⟩
      · rcases after.items other with same | ⟨free, -⟩
        · rcases List.mem_cons.mp listed with rfl | later
          · exact same.trans
              (before.gone other (List.mem_singleton_self other) valid)
          · exact after.gone other later valid
        · exact free

structure Manages (σ : Server) (call : Managed) (kind : EventKind)
    (i : Interest) (a : Answers) :
    Prop where
  item : σ.env.selector.items call.key.fd = some ⟨i, .mgmt, call.key.data⟩
  wanted : kind = .read ∧ i.read = true ∨ kind = .write ∧ i.write = true
  object : σ.mgmtHeap call.key.data = some call.before
  runs : mgmtHandler kind call.key a ⟨σ.env, call.before, [], false⟩ =
    some call.after

def managed (σ : Server) (call : Managed) (phase : Phase) : Server :=
  { σ.setMgmt call.key.data
      (if call.after.closed then none else some call.after.c) with
    env := call.after.env, phase := phase }

theorem managing_visit {call : Managed} {kind : EventKind} {fd : Fd}
    {input : Input} {data : Ptr} {phase : Phase} (plain : kind ≠ .block)
    (found : (if σ.passes fd kind then mgmtCall kind fd input.answers σ
      else none) = some call)
    (same : ∀ item, σ.env.selector.items fd = some item → item.data = data)
    (runs : Outcome.ofOption ((σ.visitHalf kind fd data input).map fun σ =>
      { σ with phase := phase }) = .next τ) :
    ∃ i, Manages σ call kind i input.answers ∧ τ = σ.managed call phase := by
  split at found
  next passed =>
    obtain ⟨item, held, found⟩ := Option.bind_eq_some_iff.mp found
    obtain ⟨i, handler, p⟩ := item
    split at found
    next is =>
      obtain rfl : handler = .mgmt := is
      obtain rfl : p = data := same _ held
      obtain ⟨conn, object, found⟩ := Option.bind_eq_some_iff.mp found
      obtain ⟨x, ran, rfl⟩ := Option.map_eq_some_iff.mp found
      obtain ⟨υ, half, rfl⟩ :=
        Option.map_eq_some_iff.mp (eq_some_of_ofOption runs)
      rw [visitHalf_eq kind p input held, if_pos passed] at half
      have dispatched :
          σ.dispatchMgmt (mgmtHandler kind) ⟨fd, p⟩ input.answers = some υ := by
        cases kind with
        | read | write => exact half
        | block => exact absurd rfl plain
      unfold dispatchMgmt at dispatched
      dsimp only at dispatched object
      rw [object] at dispatched
      obtain ⟨y, again, rfl⟩ := Option.map_eq_some_iff.mp dispatched
      obtain rfl : x = y := Option.some.inj (ran.symm.trans again)
      exact ⟨i, ⟨held, wanted_of_passes held passed, object, ran⟩, rfl⟩
    next => cases found
  next => cases found

/-- When a management connection's handler runs, its step does nothing else. -/
theorem managing_step {call : Managed} (sound : σ.Sound)
    (step : σ.step event = .next τ) (managing : σ.managing event = some call) :
    ∃ kind i a phase, Manages σ call kind i a ∧ τ = σ.managed call phase := by
  unfold Server.managing at managing
  split at managing
  next input =>
    split at managing
    next fd n phase =>
      unfold Server.step stepMain at step
      dsimp only at step
      rw [phase] at step
      dsimp only at step
      split at step
      next free =>
        split at managing
        · unfold mgmtCall at managing
          rw [free] at managing
          cases managing
        · cases managing
      next item held =>
        obtain ⟨i, manages, same⟩ :=
          managing_visit (by simp) managing (fun other present => by
            rw [held] at present
            cases present
            rfl) step
        exact ⟨_, i, _, _, manages, same⟩
    next => cases managing
  next input =>
    split at managing
    next fd n data phase =>
      unfold Server.step stepMain at step
      dsimp only at step
      rw [phase] at step
      obtain ⟨i, manages, same⟩ :=
        managing_visit (by simp) managing (sound.visiting fd n data phase) step
      exact ⟨_, i, _, _, manages, same⟩
    next => cases managing
  next => cases managing

inductive Change (σ : Server) (event : Event) (τ : Server) : Prop
  | managed {call : Managed} {kind : EventKind} {i : Interest} {a : Answers}
      (managing : σ.managing event = some call)
      (manages : Manages σ call kind i a)
      (phase : ∃ phase, τ = σ.managed call phase)
  | called {p : Ptr} (quiet : σ.managing event = none) (member : p ∈ σ.live)
      (slots : ∀ fd, σ.env.SameSlot τ.env fd ∨ Mine p σ.env fd ∧
        Mine p τ.env fd)
      (settings : τ.env.settings = σ.env.settings)
      (live : ∀ q ∈ τ.live, q ∈ σ.live) (aloof : τ.aloof = σ.aloof)
  | welcomed {fd listener : Fd} {p : Ptr} {item : Item}
      (quiet : σ.managing event = none)
      (held : σ.env.selector.items listener = some item)
      (listens : item.handler.listening)
      (registering : Registering σ τ fd ⟨opRead, .socks5, p⟩)
      (live : τ.live = σ.live ++ [p]) (aloof : τ.aloof = σ.aloof)
  | admitted {fd listener : Fd} {p : Ptr} {item : Item}
      (quiet : σ.managing event = none)
      (held : σ.env.selector.items listener = some item)
      (listens : item.handler.listening)
      (registering : Registering σ τ fd ⟨opRead, .mgmt, p⟩)
      (unused : σ.mgmtHeap p = none) (live : τ.live = σ.live)
      (aloof : τ.aloof = (σ.setMgmt p (some (mgmtNew fd))).aloof)
  | dismissed {υ : Server} (quiet : σ.managing event = none)
      (before : σ.shuttingDown = false) (signalled : 1 ≤ σ.sigcount)
      (empty : υ.listeners = [])
      (dismisses : Dismisses { σ with shuttingDown := true } υ σ.listeners)
      (phase : ∃ phase, τ = { υ with phase := phase })
  | still (quiet : σ.managing event = none)
      (items : τ.env.selector.items = σ.env.selector.items)
      (maxFd : τ.env.selector.maxFd = σ.env.selector.maxFd)
      (settings : τ.env.settings = σ.env.settings) (live : τ.live = σ.live)
      (mgmtHeap : τ.mgmtHeap = σ.mgmtHeap)
      (listeners : τ.listeners = σ.listeners)
      (shuttingDown : τ.shuttingDown = σ.shuttingDown)

theorem still_of_holdings (quiet : σ.managing event = none)
    (holdings : τ.env.holdings = σ.env.holdings) (live : τ.live = σ.live)
    (aloof : τ.aloof = σ.aloof) : Change σ event τ := by
  simp only [Env.holdings, Server.aloof, Prod.mk.injEq] at holdings aloof
  obtain ⟨selector, metrics, settings⟩ := holdings
  obtain ⟨mgmtHeap, listeners, sigcount, shuttingDown⟩ := aloof
  exact .still quiet (congrArg Selector.items selector)
    (congrArg Selector.maxFd selector) settings
    live mgmtHeap listeners shuttingDown

theorem Move.change (quiet : σ.managing event = none) (move : Move σ event τ) :
    Change σ event τ := by
  cases move with
  | stays phase | selects | signal | connectDone origin | foreignOpen
  | foreignClose foreign =>
      exact .still quiet rfl rfl rfl rfl rfl rfl rfl
  | manages phase managing =>
      rw [quiet] at managing
      cases managing
  | @welcomes _ acc fd item υ phase held listens runs =>
      obtain ⟨aloof, welcomes⟩ := socksv5PassiveAccept_welcomes runs
      cases welcomes with
      | refuses holdings live =>
          exact still_of_holdings quiet holdings live aloof
      | registers registering live metrics =>
          refine .welcomed quiet held ?_
            ⟨registering.opened, registering.registered, registering.settings⟩
              live aloof
          rw [listens]
          trivial
  | @admits _ acc fd item υ phase held listens runs =>
      obtain ⟨heap, live, admits⟩ := mgmtPassiveAccept_admits runs
      cases admits with
      | refuses holdings aloof =>
          exact still_of_holdings quiet holdings live aloof
      | registers registering metrics unused aloof =>
          refine .admitted quiet held ?_
            ⟨registering.opened, registering.registered, registering.settings⟩
              unused live aloof
          rw [listens]
          trivial
  | returns runs =>
      unfold afterSelect at runs
      split at runs
      · cases runs
        exact .still quiet rfl rfl rfl rfl rfl rfl rfl
      · obtain ⟨υ, shut, rfl⟩ := Option.map_eq_some_iff.mp runs
        split at shut
        next first =>
          obtain ⟨dismisses, empty⟩ := unregisterListeners_dismisses shut
          refine .dismissed quiet first.2 first.1 empty dismisses ?_
          split <;> exact ⟨_, rfl⟩
        next =>
          cases shut
          split <;> exact .still quiet rfl rfl rfl rfl rfl rfl rfl
  | resolved step =>
      unfold stepResolved at step
      split at step
      · split at step <;> cases step
        exact .still quiet rfl rfl rfl rfl rfl rfl rfl
      · cases step
  | notifyBlock step =>
      unfold stepNotifyBlock at step
      split at step
      · cases step
      · split at step
        · split at step <;> cases step
          exact .still quiet rfl rfl rfl rfl rfl rfl rfl
        · cases step

theorem step_change (sound : σ.Sound) (step : σ.step event = .next τ) :
    Change σ event τ := by
  cases managing : σ.managing event with
  | some call =>
      obtain ⟨kind, i, a, phase, manages, same⟩ :=
        managing_step sound step managing
      exact .managed managing manages ⟨phase, same⟩
  | none =>
      cases step_effect sound step with
      | beside quiet unhandled beside move => exact move.change managing
      | @called call kind fd a env calling asked calls member object due wired
          runs upkept returns others after aloof =>
          have base : env.selector.items = σ.env.selector.items ∧
              env.kernel = σ.env.kernel ∧ env.settings = σ.env.settings := by
            cases calls <;> exact ⟨rfl, rfl, rfl⟩
          refine .called managing member (fun fd => ?_) ?_
            (fun q alive => ?_) aloof
          · have slots := upkept.frame.slots fd
            unfold Env.SameSlot Mine Owned at slots ⊢
            rw [base.1, base.2.1] at slots
            rw [after]
            exact slots
          · rw [after, ← base.2.2]
            have background := upkept.frame.background
            exact Prod.ext (congrArg Background.users background)
              (congrArg Background.config background)
          · cases returns with
            | remains wired' kept left => exact left ▸ alive
            | ended closing free retires left =>
                rw [left] at alive
                exact List.mem_of_mem_erase alive

theorem sound_step (sound : σ.Sound) (step : σ.step event = .next τ) :
    τ.Sound := by
  have proceeds := step_proceeds sound event
  rw [step] at proceeds
  cases proceeds with
  | next after => exact after

structure Opened (σ : Server) : Prop where
  heap : ∀ p, σ.heap p = none
  mgmtHeap : ∀ p, σ.mgmtHeap p = none
  running : σ.shuttingDown = false
  listed : ∀ fd item, σ.env.selector.items fd = some item →
    item.handler.listening ∧ fd ∈ σ.listeners

theorem addListener_opened (opened : σ.Opened) {handler : FdHandler}
    (listens : handler.listening) (created : Bool) :
    (σ.addListener handler created).Opened := by
  unfold addListener
  split
  · exact opened
  · obtain ⟨heap, mgmtHeap, running, listed⟩ := opened
    dsimp only
    split
    next selector registered =>
      refine ⟨heap, mgmtHeap, running, fun fd item held => ?_⟩
      obtain ⟨valid, free, items⟩ := selectorRegister_items registered
      rw [items] at held
      split at held
      next same =>
        cases held
        exact ⟨listens,
          same ▸ List.mem_append_right _ (List.mem_singleton_self _)⟩
      next =>
        obtain ⟨listening, member⟩ := listed fd item held
        exact ⟨listening, List.mem_append_left _ member⟩
    next => exact ⟨heap, mgmtHeap, running, listed⟩

theorem init_opened {σ : Server} (starts : server.init σ) : σ.Opened := by
  obtain ⟨descriptors, config, users, added, -, listens, rfl⟩ := starts
  have all {σ : Server} (opened : σ.Opened) :
      Opened
        (added.foldl (fun σ listener => σ.addListener listener.1 listener.2)
        σ) := by
    induction added generalizing σ with
    | nil => exact opened
    | cons listener added induction =>
        refine induction (fun other member =>
          listens other (List.mem_cons_of_mem _ member)) ?_
        exact addListener_opened opened (listens listener List.mem_cons_self)
          listener.2
  refine all ⟨fun _ => rfl, fun _ => rfl, rfl, ?_⟩
  intro fd item held
  cases held

end Server

end SocksProxy
