import SocksProxy.Server.Steps

/-! The invariant over whole runs of the server: no step goes wrong. -/

namespace SocksProxy

theorem Wired.answered {p : Ptr} {env : Env} {s : Socks5}
    (wired : Wired p env s) (answer : DnsAnswer) :
    Wired p env { s with dns :=
      { s.dns with result := answer.result, status := answer.status } } :=
  ⟨wired.held, wired.shaped, ⟨wired.tuned.client, wired.tuned.origin⟩,
    wired.lasts⟩

namespace Server

variable {σ τ : Server} {jobs : List Job}

theorem Sound.steady (sound : σ.Sound) :
    σ.Steady σ.env.selector.resolutionJobs :=
  ⟨sound.registry, sound.roster, sound.resolutions⟩

theorem Steady.sound (steady : τ.Steady jobs)
    (queue : τ.env.selector.resolutionJobs = jobs) (visiting : τ.Visiting) :
    τ.Sound := by
  subst queue
  exact ⟨steady.registry, steady.roster, steady.resolutions, visiting⟩

theorem sound_signal (sound : σ.Sound) :
    Sound { σ with sigcount := σ.sigcount + 1 } :=
  @Unchanged.sound σ _ ⟨fun _ => ⟨rfl, rfl⟩, rfl, rfl, rfl, rfl, rfl, rfl, rfl,
    rfl, rfl⟩ sound rfl sound.visiting

/-- Sockets that are nothing to the server, or stay of their kind, may
change. -/
theorem sound_setKernel {kernel : Kernel} (sound : σ.Sound)
    (kinds : ∀ fd, (kernel.socket fd).bind Socket.kind =
      (σ.env.kernel.socket fd).bind Socket.kind)
    (ebadf : kernel.ebadf = σ.env.kernel.ebadf) : (σ.setKernel kernel).Sound :=
  @Unchanged.sound σ _ ⟨fun fd => ⟨rfl, kinds fd⟩, ebadf, rfl, rfl, rfl, rfl,
    rfl, rfl, rfl, rfl⟩ sound rfl sound.visiting

theorem sound_foreignOpen (sound : σ.Sound) :
    (σ.setKernel (σ.env.kernel.openSocket .foreign).2).Sound := by
  refine sound_setKernel sound (fun fd => ?_) rfl
  rw [Kernel.socket_openSocket]
  split
  next same =>
    rw [same, Kernel.socket_openSocket_fst]
    rfl
  next => rfl

theorem sound_foreignClose {fd : Fd} (sound : σ.Sound)
    (foreign : σ.env.kernel.socket fd = some .foreign) :
    (σ.setKernel (σ.env.kernel.close fd)).Sound := by
  refine sound_setKernel sound (fun other => ?_) (Kernel.ebadf_close foreign)
  rw [Kernel.socket_close]
  split
  next same =>
    rw [same, foreign]
    rfl
  next => rfl

theorem sound_connectDone {fd : Fd} {status : ConnectStatus} (sound : σ.Sound)
    (origin : σ.env.kernel.socket fd = some (.origin .inProgress)) :
    (σ.setKernel (σ.env.kernel.setStatus fd status)).Sound := by
  refine sound_setKernel sound (fun other => ?_) (Kernel.ebadf_setStatus ..)
  rw [Kernel.socket_setStatus origin]
  split
  next same =>
    rw [same, origin]
    rfl
  next => rfl

theorem Steady.asked (steady : σ.Steady jobs) {resolver : Resolver}
    (member : resolver ∈ σ.env.resolvers) :
    resolver.conn ∈ σ.live ∧ ∃ s, σ.heap resolver.conn = some s ∧
      s.state = .requestResolv := by
  refine (steady.resolutions.awaited _).mp ?_
  exact List.mem_map.mpr ⟨(resolver.conn, resolver.ticket),
    List.mem_append_left _ (List.mem_map_of_mem member), rfl⟩

/-- Resolutions that go on as they are, in the threads or in the queue. -/
theorem Resolutions.moved {queue : List Job} (resolutions : σ.Resolutions jobs)
    (moved : (outstanding τ.env queue).Perm (outstanding σ.env jobs))
    (issued : τ.env.nextTicket = σ.env.nextTicket)
    (awaited : ∀ p,
      (p ∈ τ.live ∧ ∃ s, τ.heap p = some s ∧ s.state = .requestResolv) ↔
      p ∈ σ.live ∧ ∃ s, σ.heap p = some s ∧ s.state = .requestResolv)
    (answered : ∀ resolver ∈ τ.env.resolvers, ∀ answer ∈ resolver.answer, ∀ s,
      τ.heap resolver.conn = some s → s.dns.Holds answer)
    (queued : ∀ job ∈ queue, ∀ s, τ.heap job.owner = some s →
      job.fd = s.clientFd ∧ s.dns.Holds job.answer) : τ.Resolutions queue := by
  refine ⟨?_, ?_, ?_, fun p => ?_, answered, queued⟩
  · exact (moved.map Prod.fst).nodup_iff.mpr resolutions.single
  · exact (moved.map Prod.snd).nodup_iff.mpr resolutions.tickets
  · intro ticket listed
    rw [issued]
    exact resolutions.issued ticket ((moved.map Prod.snd).mem_iff.mp listed)
  · rw [(moved.map Prod.fst).mem_iff, resolutions.awaited, awaited]

theorem map_set_answered {resolvers : List Resolver} {index : Nat} {conn : Ptr}
    {ticket : Nat} {answer : DnsAnswer}
    (found : resolvers[index]? = some ⟨conn, ticket, none⟩) :
    (resolvers.set index ⟨conn, ticket, some answer⟩).map
        (fun resolver => (resolver.conn, resolver.ticket)) =
      resolvers.map fun resolver => (resolver.conn, resolver.ticket) := by
  refine List.ext_getElem? fun i => ?_
  have inside := (List.getElem?_eq_some_iff.mp found).1
  rw [List.getElem?_map, List.getElem?_map, List.getElem?_set]
  split
  next here =>
    rw [← here, found]
    rfl
  next => rfl

theorem outstanding_eraseIdx {env : Env} {index : Nat} {conn : Ptr}
    {ticket : Nat} {fd : Fd} {answer : DnsAnswer}
    (found : env.resolvers[index]? = some ⟨conn, ticket, some answer⟩) :
    (outstanding { env with resolvers := env.resolvers.eraseIdx index }
      (⟨fd, conn, ticket, answer⟩ :: jobs)).Perm (outstanding env jobs) := by
  obtain ⟨inside, here⟩ := List.getElem?_eq_some_iff.mp found
  have all := (List.getElem_cons_eraseIdx_perm inside).map
    fun resolver : Resolver => (resolver.conn, resolver.ticket)
  rw [here] at all
  exact List.perm_middle.trans (all.append_right _)

private theorem sound_stored {index : Nat} {conn : Ptr} {ticket : Nat}
    {s : Socks5} (sound : σ.Sound) (answer : DnsAnswer)
    (found : σ.env.resolvers[index]? = some ⟨conn, ticket, none⟩)
    (object : σ.heap conn = some s) :
    Sound ((σ.setObject conn (some { s with dns :=
        { s.dns with result := answer.result, status := answer.status }
          })).setResolvers
      (σ.env.resolvers.set index ⟨conn, ticket, some answer⟩)) := by
  obtain ⟨t, same⟩ : ∃ t : Socks5, t = { s with dns :=
      { s.dns with result := answer.result, status := answer.status } } :=
        ⟨_, rfl⟩
  rw [← same]
  have member := List.mem_of_getElem? found
  have live : conn ∈ σ.live := (sound.steady.asked member).1
  have stored : (Function.update σ.heap conn (some t)) conn = some t :=
    Function.update_self ..
  have others (q : Ptr) (other : q ≠ conn) :
      (Function.update σ.heap conn (some t)) q = σ.heap q :=
        Function.update_of_ne other ..
  have resolutions := sound.resolutions
  have single := resolutions.single
  unfold outstanding at single
  rw [List.map_append, List.map_map, List.map_map] at single
  obtain ⟨threads, queue, apart⟩ := List.nodup_append.mp single
  have waiting :
      conn ∈ σ.env.resolvers.map (Prod.fst ∘ fun resolver : Resolver =>
      (resolver.conn, resolver.ticket)) := List.mem_map.mpr ⟨_, member, rfl⟩
  refine ⟨?_, ?_, ?_, sound.visiting⟩
  · obtain ⟨valid, items, sockets, listeners, ebadf⟩ := sound.registry
    exact ⟨valid, items, sockets, listeners, ebadf⟩
  · obtain ⟨wired, distinct, spare, unshared, unlive, poolSize, bounded,
      connections⟩ :=
      sound.roster
    refine ⟨fun q alive => ?_, distinct, fun q pooled => ?_, unshared, unlive,
      poolSize, bounded, connections⟩
    · obtain ⟨u, held, wired, fitted⟩ := wired q alive
      have kept : Wired q ((σ.setObject conn (some t)).setResolvers
          (σ.env.resolvers.set index ⟨conn, ticket, some answer⟩)).env u :=
        wired.elsewhere fun _ => .inl ⟨rfl, rfl⟩
      by_cases own : q = conn
      · subst own
        rw [object] at held
        cases held
        exact ⟨t, stored, same ▸ kept.answered answer, same ▸ fitted⟩
      · exact ⟨u, (others q own).trans held, kept, fitted⟩
    · obtain ⟨u, held, spare⟩ := spare q pooled
      refine ⟨u, (others q ?_).trans held, spare⟩
      rintro rfl
      exact unlive _ pooled live
  · refine resolutions.moved ?_ rfl (fun q => ?_) ?_ ?_
    · exact .of_eq (congrArg (· ++ _) (map_set_answered found))
    · by_cases own : q = conn
      · subst own
        constructor
        · rintro ⟨alive, u, held, state⟩
          rw [show Server.heap _ q = some t from stored] at held
          cases held
          subst same
          exact ⟨alive, s, object, state⟩
        · rintro ⟨alive, u, held, state⟩
          rw [object] at held
          cases held
          subst same
          exact ⟨alive, _, stored, state⟩
      · rw [show Server.heap _ q = σ.heap q from others q own]
        exact Iff.rfl
    · intro resolver listed given holds u held
      rcases List.mem_or_eq_of_mem_set listed with earlier | rfl
      · have other : resolver.conn ≠ conn := by
          intro own
          have equal := List.inj_on_of_nodup_map threads earlier member own
          rw [equal] at holds
          cases holds
        exact resolutions.answered resolver earlier given holds u
          ((others _ other).symm.trans held)
      · rw [show Server.heap _ conn = some t from stored] at held
        cases held
        cases holds
        subst same
        exact ⟨rfl, rfl⟩
    · intro job listed u held
      have other : job.owner ≠ conn := fun own =>
        apart conn waiting _ (List.mem_map.mpr ⟨job, listed, rfl⟩) own.symm
      exact resolutions.queued job listed u ((others _ other).symm.trans held)

private theorem sound_queued {index : Nat} {conn : Ptr} {ticket : Nat}
    {answer : DnsAnswer} {s : Socks5} (sound : σ.Sound)
    (found : σ.env.resolvers[index]? = some ⟨conn, ticket, some answer⟩)
    (object : σ.heap conn = some s) :
    Sound ((σ.setSelector { σ.env.selector with resolutionJobs :=
        ⟨s.dns.notifyFd, conn, ticket, answer⟩ :: σ.env.selector.resolutionJobs
          }).setResolvers
      (σ.env.resolvers.eraseIdx index)) := by
  have member := List.mem_of_getElem? found
  obtain ⟨live, t, held, state⟩ := sound.steady.asked member
  obtain rfl : s = t := Option.some.inj (object.symm.trans held)
  refine ⟨?_, ?_, ?_, sound.visiting⟩
  · obtain ⟨valid, items, sockets, listeners, ebadf⟩ := sound.registry
    exact ⟨valid, items, sockets, listeners, ebadf⟩
  · obtain ⟨wired, distinct, spare, unshared, unlive, poolSize, bounded,
      connections⟩ :=
      sound.roster
    refine ⟨fun q alive => ?_, distinct, spare, unshared, unlive, poolSize,
      bounded, connections⟩
    obtain ⟨u, held, wired, fitted⟩ := wired q alive
    exact ⟨u, held, wired.elsewhere fun _ => .inl ⟨rfl, rfl⟩, fitted⟩
  · have resolutions := sound.resolutions
    refine resolutions.moved ?_ rfl (fun _ => Iff.rfl) ?_ ?_
    · exact outstanding_eraseIdx found
    · intro resolver listed
      exact resolutions.answered resolver (List.mem_of_mem_eraseIdx listed)
    · intro job listed u stored
      rcases List.mem_cons.mp listed with rfl | earlier
      · obtain rfl : s = u := Option.some.inj (object.symm.trans stored)
        obtain ⟨v, same, wired, -⟩ := sound.roster.wired conn live
        obtain rfl : s = v := Option.some.inj (object.symm.trans same)
        exact ⟨(wired.shaped.request state).1,
          resolutions.answered _ member answer rfl s object⟩
      · exact resolutions.queued job earlier u stored

end Server

/-- The server moves on, with its invariant, or the event cannot happen now. -/
inductive Outcome.Proceeds : Outcome → Prop
  | disabled : Proceeds .disabled
  | next {τ : Server} (sound : τ.Sound) : Proceeds (.next τ)

namespace Server

variable {σ : Server}

theorem stepResolved_proceeds (sound : σ.Sound) (index : Nat)
    (answer : DnsAnswer) :
    (σ.stepResolved index answer).Proceeds := by
  unfold stepResolved
  split
  next conn ticket found =>
    obtain ⟨-, s, object, -⟩ := sound.steady.asked (List.mem_of_getElem? found)
    dsimp only at object
    rw [object]
    exact .next (sound_stored sound answer found object)
  next => exact .disabled

theorem stepNotifyBlock_proceeds (sound : σ.Sound) (index : Nat) :
    (σ.stepNotifyBlock index).Proceeds := by
  unfold stepNotifyBlock
  split
  · exact .disabled
  · split
    next conn ticket answer found =>
      obtain ⟨-, s, object, -⟩ :=
        sound.steady.asked (List.mem_of_getElem? found)
      dsimp only at object
      rw [object]
      exact .next (sound_queued sound found object)
    next => exact .disabled

theorem Steady.to {jobs : List Job} (steady : σ.Steady jobs)
    (queue : σ.env.selector.resolutionJobs = jobs) (phase : Phase)
    (visiting : Visiting { σ with phase := phase }) :
    Sound { σ with phase := phase } :=
  (@Unchanged.steady σ jobs { σ with phase := phase }
    ⟨fun _ => ⟨rfl, rfl⟩, rfl, rfl, rfl, rfl, rfl, rfl, rfl, rfl, rfl⟩
      steady).sound queue visiting

theorem visiting_elsewhere {phase : Phase}
    (elsewhere : ∀ i n data, phase ≠ .visitWrite i n data) :
    Visiting { σ with phase := phase } :=
  fun i n data same => absurd same (elsewhere i n data)

theorem visiting_nextVisit (i n : Nat) :
    Visiting { σ with phase := nextVisit i n } := by
  apply visiting_elsewhere
  intro j m data
  unfold nextVisit
  split <;> simp

theorem Steady.unlisted {jobs : List Job} (steady : σ.Steady jobs) :
    σ.unlisted.Steady jobs := by
  obtain ⟨⟨valid, items, sockets, listeners, ebadf⟩,
      ⟨wired, distinct, spare, unshared, apart,
    poolSize, bounded, connections⟩, resolutions⟩ := steady
  refine ⟨⟨valid, items, sockets,
    fun _ listed => absurd listed List.not_mem_nil, ebadf⟩,
    ⟨wired, distinct, spare, unshared, apart, poolSize, bounded, connections⟩,
      ?_⟩
  exact resolutions.moved (.refl _) rfl (fun _ => Iff.rfl) resolutions.answered
    resolutions.queued

theorem Sound.unregistered (sound : σ.Sound) :
    ∃ env, unregisterListeners σ.listeners { σ with shuttingDown := true } =
        some (unlisted { σ with shuttingDown := true, env := env }) ∧
      (unlisted { σ with shuttingDown := true, env := env }).Steady
        σ.env.selector.resolutionJobs ∧
      env.selector.resolutionJobs = σ.env.selector.resolutionJobs := by
  have listens : ∀ fd ∈ σ.listeners, ∀ item,
      σ.env.selector.items fd = some item → item.handler.listening := by
    intro fd listed item held
    obtain ⟨other, present, listening⟩ := sound.registry.listeners fd listed
    rw [held] at present
    cases present
    exact listening
  have steady : ({ σ with shuttingDown := true } : Server).unlisted.Steady
      σ.env.selector.resolutionJobs :=
    @Unchanged.steady σ.unlisted _ _
      ⟨fun _ => ⟨rfl, rfl⟩, rfl, rfl, rfl, rfl, rfl, rfl, rfl, rfl, rfl⟩
        sound.steady.unlisted
  exact unregisterListeners_steady steady listens

theorem afterSelect_sound (sound : σ.Sound) :
    ∃ τ, σ.afterSelect = some τ ∧ τ.Sound := by
  have goes {τ : Server} (steady : τ.Steady σ.env.selector.resolutionJobs)
      (queue : τ.env.selector.resolutionJobs = σ.env.selector.resolutionJobs) :
      Sound (if τ.shuttingDown ∧ τ.env.metrics.currentConnections = 0 then
        { τ with phase := .stopped } else { τ with phase := .idle }) := by
    split
    · exact steady.to queue .stopped (visiting_elsewhere (by simp))
    · exact steady.to queue .idle (visiting_elsewhere (by simp))
  unfold afterSelect
  split
  · exact ⟨_, rfl, sound.steady.to rfl .stopped (visiting_elsewhere (by simp))⟩
  · dsimp only
    split
    · obtain ⟨env, gone, steady, queue⟩ := sound.unregistered
      rw [gone]
      exact ⟨_, rfl, goes steady queue⟩
    · exact ⟨_, rfl, goes sound.steady rfl⟩

theorem stepMain_proceeds (sound : σ.Sound) (event : Event) :
    (σ.stepMain event).Proceeds := by
  have steady := sound.steady
  unfold stepMain
  split
  next readable writable phase =>
    refine .next ?_
    exact @Unchanged.sound σ _ ⟨fun _ => ⟨rfl, rfl⟩, rfl, rfl, rfl, rfl, rfl,
      rfl, rfl, rfl, rfl⟩ sound rfl (visiting_elsewhere (by simp))
  next => exact .next (steady.to rfl .notify (visiting_elsewhere (by simp)))
  next i n input phase =>
    split
    next => exact .next (steady.to rfl _ (visiting_nextVisit i n))
    next item held =>
      have same : ∀ other, σ.env.selector.items i = some other →
          other.data = item.data := by
        intro other present
        rw [held] at present
        cases present
        rfl
      obtain ⟨τ, runs, visited⟩ := visitHalf_visited steady
        (by simp : EventKind.read ≠ .block) same input
      rw [runs]
      refine .next (visited.steady.to visited.queue _ ?_)
      intro j m data same other present
      cases same
      exact visited.data other present
  next i n data input phase =>
    obtain ⟨τ, runs, visited⟩ :=
      visitHalf_visited steady (by simp : EventKind.write ≠ .block)
      (sound.visiting i n data phase) input
    rw [runs]
    exact .next (visited.steady.to visited.queue _ (visiting_nextVisit i n))
  next input phase =>
    split
    next => exact .disabled
    next job rest queue =>
      have waiting :
          (σ.setSelector { σ.env.selector with resolutionJobs := rest }).Steady
          (job :: rest) := by
        rw [← queue]
        exact @Unchanged.steady σ _ _
          ⟨fun _ => ⟨rfl, rfl⟩, rfl, rfl, rfl, rfl, rfl, rfl, rfl, rfl, rfl⟩
            steady
      obtain ⟨τ, runs, after, same, left⟩ := handleJob_steady waiting input
      have notify : τ.phase = .notify := same.trans phase
      rw [runs]
      refine .next (after.sound left (fun i n data visiting => ?_))
      rw [notify] at visiting
      cases visiting
  next phase =>
    split
    · exact .next (steady.to rfl .mainLoop (visiting_elsewhere (by simp)))
    · exact .disabled
  next phase =>
    obtain ⟨τ, runs, sound⟩ := afterSelect_sound sound
    rw [runs]
    exact .next sound
  next => exact .disabled

theorem step_proceeds (sound : σ.Sound) (event : Event) :
    (σ.step event).Proceeds := by
  cases event with
  | signal => exact .next (sound_signal sound)
  | connectDone fd e =>
      unfold step stepConnectDone
      dsimp only
      split
      next origin => exact .next (sound_connectDone sound origin)
      next => exact .disabled
  | foreignOpen => exact .next (sound_foreignOpen sound)
  | foreignClose fd =>
      unfold step
      dsimp only
      split
      next foreign => exact .next (sound_foreignClose sound foreign)
      next => exact .disabled
  | resolved index answer => exact stepResolved_proceeds sound index answer
  | notifyBlock index => exact stepNotifyBlock_proceeds sound index
  | _ => exact stepMain_proceeds sound _

theorem sound_started {descriptors : Table Socket} (config : ProxyConfig)
    (users : UserTable)
    (foreign :
      ∀ fd socket, Table.get descriptors fd = some socket → socket = .foreign) :
    Sound (.started ⟨descriptors, 0⟩ config users) := by
  have unkind (fd : Fd) :
      (started ⟨descriptors, 0⟩ config users).env.kindAt fd = none := by
    change (Table.get descriptors fd).bind Socket.kind = none
    cases held : Table.get descriptors fd with
    | none => rfl
    | some socket =>
        rw [foreign fd socket held]
        rfl
  refine ⟨⟨fun fd item held => ?_, fun fd item held => ?_,
    fun fd kind held => ?_, fun fd listed => ?_, rfl⟩,
    ⟨fun p alive => ?_, List.nodup_nil, fun p pooled => ?_,
    List.nodup_nil, fun p pooled => ?_, rfl, Nat.zero_le _, rfl⟩,
    ⟨List.nodup_nil, List.nodup_nil, fun ticket listed => ?_, fun p => ?_,
      fun resolver listed => ?_, fun job listed => ?_⟩, fun i n data same => ?_⟩
  · cases held
  · cases held
  · rw [unkind] at held
    cases held
  · cases listed
  · cases alive
  · cases pooled
  · cases pooled
  · cases listed
  · constructor
    · intro waits
      cases waits
    · rintro ⟨alive, -⟩
      cases alive
  · cases listed
  · cases listed
  · cases same

theorem addListener_sound (sound : σ.Sound) (idle : σ.phase = .idle)
    {handler : FdHandler} (listens : handler.listening) (created : Bool) :
    (σ.addListener handler created).Sound ∧
      (σ.addListener handler created).phase = .idle := by
  have kept {τ : Server} (aside : Aside σ τ σ.env.selector.resolutionJobs) :
      τ.Sound ∧ τ.phase = .idle := by
    have phase := aside.phase.trans idle
    refine ⟨aside.steady.sound aside.queue (fun i n data visiting => ?_), phase⟩
    rw [phase] at visiting
    cases visiting
  have steady := sound.steady
  obtain ⟨⟨fd, kernel⟩, opened⟩ : ∃ result, σ.env.kernel.openSocket .listener =
      result :=
    ⟨_, rfl⟩
  have closes : kernel.close fd = (σ.env.kernel.openSocket .listener).2.close
      (σ.env.kernel.openSocket .listener).1 := by rw [opened]
  have sockets (other : Fd) : kernel.socket other =
      if other = fd then some .listener else σ.env.kernel.socket other := by
    have sockets := Kernel.socket_openSocket σ.env.kernel .listener other
    rwa [opened] at sockets
  have refused :
      Aside σ (closeFd { σ with env := { σ.env with kernel := kernel } } fd)
      σ.env.selector.resolutionJobs :=
    steady.closed closes rfl rfl rfl rfl rfl rfl rfl rfl rfl rfl
  unfold addListener
  split
  · exact ⟨sound, idle⟩
  · rw [opened]
    dsimp only
    unfold selectorRegister
    cases valid : invalidFd fd with
    | true => exact kept refused
    | false =>
        cases free : σ.env.selector.items fd with
        | some item => exact kept refused
        | none =>
            refine kept (@Enrolled.aside _ _ _ fd ⟨opRead, handler, 0⟩
              ⟨valid, free, fun _ => rfl, ?_, ?_, ?_, fun _ => id,
                fun _ _ => id, ?_⟩
              steady ?_ rfl rfl rfl rfl rfl rfl rfl rfl)
            · intro other apart
              exact congrArg (Option.bind · Socket.kind)
                ((sockets other).trans (if_neg apart))
            · have same := Kernel.ebadf_openSocket σ.env.kernel .listener
              rwa [opened] at same
            · have kind : (kernel.socket fd).bind Socket.kind =
                  some .listener :=
                congrArg (Option.bind · Socket.kind)
                  ((sockets fd).trans (if_pos rfl))
              cases handler with
              | socks5 | mgmt => exact listens.elim
              | socksListener | mgmtListener => exact ⟨kind, rfl⟩
            · intro listener listed
              rcases List.mem_append.mp listed with earlier | new
              · exact .inl earlier
              · exact .inr ⟨List.mem_singleton.mp new, listens⟩
            · rintro rfl
              exact listens.elim

theorem sound_init {σ : Server} (starts : server.init σ) : σ.Sound := by
  obtain ⟨descriptors, config, users, added, foreign, listens, rfl⟩ := starts
  have all {σ : Server} (sound : σ.Sound) (idle : σ.phase = .idle) :
      Sound (added.foldl
        (fun σ listener => σ.addListener listener.1 listener.2) σ) := by
    induction added generalizing σ with
    | nil => exact sound
    | cons listener added induction =>
        obtain ⟨sound, idle⟩ :=
          addListener_sound sound idle (listens listener List.mem_cons_self)
            listener.2
        exact induction (fun other member =>
          listens other (List.mem_cons_of_mem _ member)) sound idle
  exact all (sound_started config users foreign) rfl

structure Unused (σ : Server) : Prop where
  live : σ.live = []
  threads : σ.env.threads = ([], 0)
  metrics : σ.env.metrics = metricsInit
  phase : σ.phase = .idle

theorem addListener_unused (unused : σ.Unused) (handler : FdHandler)
    (created : Bool) :
    (σ.addListener handler created).Unused := by
  obtain ⟨live, threads, metrics, phase⟩ := unused
  unfold addListener
  split
  · exact ⟨live, threads, metrics, phase⟩
  · dsimp only
    split <;> exact ⟨live, threads, metrics, phase⟩

theorem init_unused {σ : Server} (starts : server.init σ) : σ.Unused := by
  obtain ⟨descriptors, config, users, added, -, -, rfl⟩ := starts
  have all {σ : Server} (unused : σ.Unused) :
      Unused
        (added.foldl (fun σ listener => σ.addListener listener.1 listener.2)
        σ) := by
    induction added generalizing σ with
    | nil => exact unused
    | cons listener added induction =>
        exact induction (addListener_unused unused _ _)
  exact all ⟨rfl, rfl, rfl, rfl⟩

/-- Every state that the server reaches is sound. -/
theorem sound_of_reachable {σ : Server} (reachable : server.Reachable σ) :
    σ.Sound := by
  refine reachable.invariant sound_init ?_
  intro σ event τ sound step
  have proceeds := step_proceeds sound event
  rw [show σ.step event = .next τ from step] at proceeds
  cases proceeds with
  | next sound => exact sound

end Server

namespace Server

abbrev Inputs := EventKind → Fd → Input

/-- What the main thread does next, until it is idle again. -/
def upcoming (inputs : Inputs) (σ : Server) : Option Event :=
  match σ.phase with
  | .idle | .stopped => none
  | .visit i _ => some (.visitRead (inputs .read i))
  | .visitWrite i _ _ => some (.visitWrite (inputs .write i))
  | .notify =>
      match σ.env.selector.resolutionJobs with
      | [] => some .notified
      | job :: _ => some (.job (inputs .block job.fd))
  | .mainLoop => some .afterSelect

def unaccepted : AcceptAnswers := ⟨none, false, none, ⟨none, none⟩⟩

/-- One thing that happens while the main thread waits, or a return of `pselect`
with the whole iteration that it leads to. -/
inductive Turn
  | event (event : Event)
  | iteration (readable writable : List Fd) (inputs : Inputs)

/-- One descriptor is ready, and these are the outcomes of the calls. -/
def Turn.ready (kind : EventKind) (fd : Fd) (input : Input) : Turn :=
  match kind with
  | .read => .iteration [fd] [] fun _ _ => input
  | .write | .block => .iteration [] [fd] fun _ _ => input

def Turn.readable (fd : Fd) (a : Answers) : Turn :=
  .ready .read fd ⟨a, ⟨none, false, none, ⟨none, none⟩⟩⟩

def Turn.writable (fd : Fd) (a : Answers) : Turn :=
  .ready .write fd ⟨a, ⟨none, false, none, ⟨none, none⟩⟩⟩

def Turn.client (listener : Fd) (object : Ptr) : Turn :=
  .ready .read listener
    ⟨.idle, ⟨some ⟨.inet, [10, 0, 0, 1], 4000⟩, true, some object,
    ⟨some fun _ => 0, some fun _ => 0⟩⟩⟩

variable {State : Type} (view : State → Server)
  (next : State → Event → Option State)

def iterate (inputs : Inputs) : Nat → State → Option State
  | 0, _ => none
  | fuel + 1, state =>
      match (view state).upcoming inputs with
      | none => some state
      | some event => (next state event).bind (iterate inputs fuel)

def perform (fuel : Nat) : List Turn → State → Option State
  | [], state => some state
  | .event event :: rest, state => (next state event).bind (perform fuel rest)
  | .iteration readable writable inputs :: rest, state =>
      (next state (.pselect (fun fd => decide (fd ∈ readable)) fun fd =>
        decide (fd ∈ writable))).bind fun state =>
          (iterate view next inputs fuel state).bind (perform fuel rest)

variable {view next} {system : Transition.System State Event}
  (steps : ∀ {state event after}, next state event = some after →
    ∃ label, system.step state label after)

include steps

theorem moves_of_iterate {inputs : Inputs} {fuel : Nat} {state last : State}
    (iterates : iterate view next inputs fuel state = some last) :
    ∃ events, system.Run state events last := by
  induction fuel generalizing state with
  | zero => cases iterates
  | succ fuel induction =>
      unfold iterate at iterates
      split at iterates
      · cases iterates
        exact ⟨[], .nil _⟩
      · obtain ⟨middle, step, iterates⟩ := Option.bind_eq_some_iff.mp iterates
        obtain ⟨label, taken⟩ := steps step
        obtain ⟨events, run⟩ := induction iterates
        exact ⟨_, (Transition.System.Run.single taken).append run⟩

theorem moves_of_perform {fuel : Nat} {turns : List Turn} {state last : State}
    (performs : perform view next fuel turns state = some last) :
    ∃ events, system.Run state events last := by
  induction turns generalizing state with
  | nil =>
      cases performs
      exact ⟨[], .nil _⟩
  | cons turn turns induction =>
      cases turn with
      | event event =>
          obtain ⟨middle, step, performs⟩ := Option.bind_eq_some_iff.mp performs
          obtain ⟨label, taken⟩ := steps step
          obtain ⟨events, run⟩ := induction performs
          exact ⟨_, (Transition.System.Run.single taken).append run⟩
      | iteration readable writable inputs =>
          obtain ⟨selected, step, performs⟩ :=
            Option.bind_eq_some_iff.mp performs
          obtain ⟨middle, iterates, performs⟩ :=
            Option.bind_eq_some_iff.mp performs
          obtain ⟨label, taken⟩ := steps step
          obtain ⟨visits, iterated⟩ := moves_of_iterate steps iterates
          obtain ⟨events, run⟩ := induction performs
          exact ⟨_,
            ((Transition.System.Run.single taken).append iterated).append run⟩

omit steps

theorem run_of_perform
    (steps : ∀ {state event after}, next state event = some after →
    system.step state event after) {fuel : Nat} {turns : List Turn}
    {state last : State}
    (performs : perform view next fuel turns state = some last) :
    ∃ events, system.Run state events last :=
  moves_of_perform (fun step => ⟨_, steps step⟩) performs

def advance (σ : Server) (event : Event) : Option Server :=
  match σ.step event with
  | .next τ => some τ
  | _ => none

theorem step_of_advance {σ τ : Server} {event : Event}
    (advances : σ.advance event = some τ) :
    server.step σ event τ := by
  unfold advance at advances
  split at advances
  next step =>
    cases advances
    exact step
  next => cases advances

def opening (config : ProxyConfig) (users : UserTable) : Server :=
  (started ⟨Table.empty, 0⟩ config users).addListener .socksListener true

theorem init_opening (config : ProxyConfig) (users : UserTable) :
    server.init (opening config users) := by
  refine ⟨Table.empty, config, users, [(.socksListener, true)], ?_, ?_, rfl⟩
  · intro fd socket held
    rw [Table.get_empty] at held
    cases held
  · intro listener member
    rw [List.mem_singleton.mp member]
    trivial

end Server

end SocksProxy
