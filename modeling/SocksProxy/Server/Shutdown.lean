import SocksProxy.Server.Management

/-! What the server holds beside its connections for clients: management
connections, each with its descriptor, and listeners, until they are
dismissed. -/

namespace SocksProxy

open Transition

namespace Server

variable {σ τ : Server} {event : Event}

inductive Keeps (σ τ : Server) : Prop
  | same (listeners : τ.listeners = σ.listeners)
      (shuttingDown : τ.shuttingDown = σ.shuttingDown)
      (items : ∀ fd item, τ.env.selector.items fd = some item →
        item.handler.listening → σ.env.selector.items fd = some item)
  | dismissed (empty : τ.listeners = []) (down : τ.shuttingDown = true)
      (items : ∀ fd item, τ.env.selector.items fd = some item →
        item.handler.listening →
        σ.env.selector.items fd = some item ∧
        (invalidFd fd = false → fd ∉ σ.listeners))

theorem aloof_eq (aloof : τ.aloof = σ.aloof) :
    τ.listeners = σ.listeners ∧ τ.shuttingDown = σ.shuttingDown := by
  simp only [Server.aloof, Prod.mk.injEq] at aloof
  exact ⟨aloof.2.1, aloof.2.2.2⟩

theorem Registering.listening {fd other : Fd} {i : Interest}
    {handler : FdHandler} {p : Ptr} {item : Item}
    (registering : Registering σ τ fd ⟨i, handler, p⟩)
    (plain : ¬ handler.listening)
    (held : τ.env.selector.items other = some item)
    (listens : item.handler.listening) :
    σ.env.selector.items other = some item := by
  rw [registering.spot.2.2] at held
  split at held
  · cases held
    exact absurd listens plain
  · exact held

theorem Change.keeps (sound : σ.Sound) (change : Change σ event τ) :
    Keeps σ τ := by
  cases change with
  | @managed call kind i a managing manages phase =>
      obtain ⟨phase, rfl⟩ := phase
      obtain ⟨elsewhere, here⟩ := manages.item_after sound.registry
      refine .same rfl rfl fun fd item held listens => ?_
      by_cases own : fd = call.key.fd
      · subst own
        rcases here with ⟨-, j, kept⟩ | ⟨-, free⟩
        · cases kept.symm.trans held
          exact listens.elim
        · cases free.symm.trans held
      · exact (elsewhere fd own).symm.trans held
  | called quiet member slots settings live aloof =>
      obtain ⟨listeners, shuttingDown⟩ := aloof_eq aloof
      refine .same listeners shuttingDown fun fd item held listens => ?_
      rcases slots fd with same | ⟨-, ⟨free, -⟩ | ⟨⟨i, owned⟩, -⟩⟩
      · exact same.1.symm.trans held
      · rw [free] at held
        cases held
      · rw [owned] at held
        cases held
        exact listens.elim
  | welcomed quiet held listens registering live aloof =>
      obtain ⟨listeners, shuttingDown⟩ := aloof_eq aloof
      exact .same listeners shuttingDown fun fd item => registering.listening id
  | admitted quiet held listens registering unused live aloof =>
      obtain ⟨listeners, shuttingDown⟩ := aloof_eq aloof
      exact .same listeners shuttingDown fun fd item => registering.listening id
  | dismissed quiet before signalled empty dismisses phase =>
      obtain ⟨phase, rfl⟩ := phase
      refine .dismissed empty dismisses.shuttingDown fun fd item held listens =>
        ⟨?_, ?_⟩
      · rcases dismisses.items fd with same | ⟨free, -⟩
        · exact same.symm.trans held
        · cases free.symm.trans held
      · intro valid listed
        cases (dismisses.gone fd listed valid).symm.trans held
  | still quiet items maxFd settings live mgmtHeap listeners shuttingDown =>
      refine .same listeners shuttingDown fun fd item held _ => ?_
      rw [← items]
      exact held

structure Tidy (σ : Server) : Prop where
  sound : σ.Sound
  managed : ∀ p conn, σ.mgmtHeap p = some conn →
    ∃ i, σ.env.selector.items conn.fd = some ⟨i, .mgmt, p⟩
  listed : ∀ fd item, σ.env.selector.items fd = some item →
    item.handler.listening → fd ∈ σ.listeners
  dismissed : σ.shuttingDown = true → σ.listeners = []

/-- The objects of the management connections keep their items. -/
theorem Tidy.managed_after (tidy : σ.Tidy) (step : σ.step event = .next τ)
    {p : Ptr} {conn : MgmtConn} (stored : τ.mgmtHeap p = some conn) :
    ∃ i, τ.env.selector.items conn.fd = some ⟨i, .mgmt, p⟩ := by
  have sound := tidy.sound
  cases managing : σ.managing event with
  | none =>
      cases ((step_change sound step).tends managing).1 with
      | same items heap =>
          obtain ⟨i, item⟩ := tidy.managed p conn (heap ▸ stored)
          exact ⟨i, (items ..).mpr item⟩
      | @admits fd q valid free unused items heap =>
          rw [heap] at stored
          by_cases own : p = q
          · subst own
            rw [Function.update_self] at stored
            cases stored
            exact ⟨opRead, (items fd).trans (if_pos rfl)⟩
          · rw [Function.update_of_ne own] at stored
            obtain ⟨i, item⟩ := tidy.managed p conn stored
            refine ⟨i, (items conn.fd).trans ((if_neg ?_).trans item)⟩
            intro same
            rw [same, free] at item
            cases item
  | some call =>
      obtain ⟨kind, i, a, phase, manages, rfl⟩ :=
        managing_step sound step managing
      obtain ⟨elsewhere, here⟩ := manages.item_after sound.registry
      obtain ⟨bound, settled⟩ :=
        sound.registry.settled manages.item manages.object manages.runs
      have stored : Function.update σ.mgmtHeap call.key.data
        (if call.after.closed then none else some call.after.c) p = some conn :=
        stored
      by_cases own : p = call.key.data
      · subst own
        rw [Function.update_self] at stored
        rcases here with ⟨live, kept⟩ | ⟨closed, -⟩
        · rw [live] at stored
          cases stored
          rw [settled.fd.trans bound.fd]
          exact kept
        · rw [closed] at stored
          cases stored
      · rw [Function.update_of_ne own] at stored
        obtain ⟨j, item⟩ := tidy.managed p conn stored
        refine ⟨j, (elsewhere conn.fd fun same => own ?_).trans item⟩
        rw [same, manages.item] at item
        cases item
        rfl

theorem tidy_step (tidy : σ.Tidy) (after : τ.Sound)
    (step : σ.step event = .next τ) : τ.Tidy := by
  refine ⟨after, fun p conn => tidy.managed_after step, ?_, ?_⟩
  · intro fd item held listens
    cases (step_change tidy.sound step).keeps tidy.sound with
    | same listeners shuttingDown items =>
        rw [listeners]
        exact tidy.listed fd item (items fd item held listens) listens
    | dismissed empty down items =>
        obtain ⟨before, unlisted⟩ := items fd item held listens
        exact absurd (tidy.listed fd item before listens)
          (unlisted (after.registry.valid fd item held))
  · cases (step_change tidy.sound step).keeps tidy.sound with
    | same listeners shuttingDown =>
        rw [listeners, shuttingDown]
        exact tidy.dismissed
    | dismissed empty => exact fun _ => empty

theorem tidy_of_reachable (reachable : server.Reachable σ) : σ.Tidy := by
  apply reachable.invariant
  · intro σ starts
    obtain ⟨-, unmanaged, running, listed⟩ := init_opened starts
    refine ⟨sound_init starts, fun p conn stored => ?_,
      fun fd item held _ => (listed fd item held).2, fun down => ?_⟩
    · rw [unmanaged] at stored
      cases stored
    · rw [running] at down
      cases down
  · exact fun tidy step => tidy_step tidy (sound_step tidy.sound step) step

theorem kindAt_listener {env : Env} {fd : Fd} :
    env.kindAt fd = some .listener ↔ env.kernel.socket fd = some .listener := by
  unfold Env.kindAt
  cases env.kernel.socket fd with
  | none => simp
  | some socket => cases socket <;> simp [Socket.kind]

/-- Who answers for an open socket of the server. -/
inductive Owner (σ : Server) (fd : Fd) : Socket → Prop
  | listener (listed : fd ∈ σ.listeners) : Owner σ fd .listener
  | manager {p : Ptr} {conn : MgmtConn} (object : σ.mgmtHeap p = some conn)
      (its : conn.fd = fd) : Owner σ fd .accepted
  | client {p : Ptr} {s : Socks5} (alive : p ∈ σ.live)
      (object : σ.heap p = some s) (its : s.clientFd = fd) :
      Owner σ fd .accepted
  | origin {p : Ptr} {s : Socks5} {status : ConnectStatus} (alive : p ∈ σ.live)
      (object : σ.heap p = some s) (its : s.originFd = some fd) :
      Owner σ fd (.origin status)

theorem Tidy.listening (tidy : σ.Tidy) {fd : Fd} (listed : fd ∈ σ.listeners) :
    σ.env.kernel.socket fd = some .listener := by
  obtain ⟨⟨i, handler, p⟩, held, listens⟩ :=
    tidy.sound.registry.listeners fd listed
  have hosted := tidy.sound.registry.items fd _ held
  unfold Hosted at hosted
  cases handler with
  | socks5 | mgmt => exact listens.elim
  | socksListener | mgmtListener => exact kindAt_listener.mp hosted.1

theorem Tidy.owner (tidy : σ.Tidy) {fd : Fd} {socket : Socket}
    (opened : σ.env.kernel.socket fd = some socket) (ours : socket ≠ .foreign) :
    σ.Owner fd socket := by
  obtain ⟨kind, known⟩ : ∃ kind, socket.kind = some kind := by
    cases socket with
    | foreign => exact absurd rfl ours
    | _ => exact ⟨_, rfl⟩
  have kindAt : σ.env.kindAt fd = some kind := by
    unfold Env.kindAt
    rw [opened]
    exact known
  obtain ⟨item, held⟩ :=
    Option.isSome_iff_exists.mp (tidy.sound.registry.sockets fd kind kindAt)
  have hosted := tidy.sound.registry.items fd item held
  unfold Hosted at hosted
  obtain ⟨i, handler, p⟩ := item
  cases handler with
  | socks5 =>
      obtain ⟨s, object, wired, -⟩ := tidy.sound.roster.wired p hosted
      rcases wired.held.only fd ⟨i, held⟩ with same | origin
      · have accepted := wired.held.accepted
        rw [← same, opened] at accepted
        cases accepted
        exact .client hosted object same.symm
      · obtain ⟨status, connects⟩ := wired.held.connects fd origin
        rw [opened] at connects
        cases connects
        exact .origin hosted object origin
  | mgmt =>
      obtain ⟨accepted, conn, stored, number⟩ := hosted
      have same := kindAt_accepted.mp accepted
      rw [opened] at same
      cases same
      exact .manager stored number
  | socksListener | mgmtListener =>
      have listener := kindAt_listener.mp hosted.1
      rw [opened] at listener
      cases listener
      exact .listener (tidy.listed fd _ held trivial)

structure Drained (σ τ : Server) : Prop where
  shuttingDown : τ.shuttingDown = true
  live : ∀ p ∈ τ.live, p ∈ σ.live
  mgmtHeap : ∀ p conn, τ.mgmtHeap p = some conn →
    ∃ earlier, σ.mgmtHeap p = some earlier ∧ earlier.fd = conn.fd

theorem Drained.trans {υ : Server} (first : Drained σ τ) (later : Drained τ υ) :
    Drained σ υ := by
  refine ⟨later.shuttingDown, fun p alive => first.live p (later.live p alive),
    ?_⟩
  intro p conn stored
  obtain ⟨middle, kept, same⟩ := later.mgmtHeap p conn stored
  obtain ⟨earlier, held, number⟩ := first.mgmtHeap p middle kept
  exact ⟨earlier, held, number.trans same⟩

theorem Drained.refl (down : σ.shuttingDown = true) : Drained σ σ :=
  ⟨down, fun _ => id, fun _ conn stored => ⟨conn, stored, rfl⟩⟩

/-- Nobody listens once the server shuts down. -/
theorem Tidy.deaf (tidy : σ.Tidy) (down : σ.shuttingDown = true) {fd : Fd}
    {item : Item} (held : σ.env.selector.items fd = some item) :
    ¬ item.handler.listening := by
  intro listens
  have listed := tidy.listed fd item held listens
  rw [tidy.dismissed down] at listed
  cases listed

theorem drained_step (tidy : σ.Tidy) (down : σ.shuttingDown = true)
    (step : σ.step event = .next τ) : Drained σ τ := by
  have same (heap : τ.mgmtHeap = σ.mgmtHeap) (p : Ptr) (conn : MgmtConn)
      (stored : τ.mgmtHeap p = some conn) :
      ∃ earlier, σ.mgmtHeap p = some earlier ∧ earlier.fd = conn.fd :=
    ⟨conn, heap ▸ stored, rfl⟩
  cases step_change tidy.sound step with
  | @managed call kind i a managing manages phase =>
      obtain ⟨phase, rfl⟩ := phase
      obtain ⟨bound, settled⟩ :=
        tidy.sound.registry.settled manages.item manages.object manages.runs
      refine ⟨down, fun _ => id, fun p conn stored => ?_⟩
      have stored : Function.update σ.mgmtHeap call.key.data
        (if call.after.closed then none else some call.after.c) p = some conn :=
        stored
      by_cases own : p = call.key.data
      · subst own
        rw [Function.update_self] at stored
        split at stored
        · cases stored
        · cases stored
          exact ⟨call.before, manages.object, settled.fd.symm⟩
      · rw [Function.update_of_ne own] at stored
        exact ⟨conn, stored, rfl⟩
  | called quiet member slots settings live aloof =>
      exact ⟨(aloof_eq aloof).2.trans down, live,
        same (congrArg Prod.fst aloof)⟩
  | welcomed quiet held listens | admitted quiet held listens =>
      exact absurd listens (tidy.deaf down held)
  | dismissed quiet before =>
      rw [before] at down
      cases down
  | still quiet items maxFd settings live mgmtHeap listeners shuttingDown =>
      exact ⟨shuttingDown.trans down, fun p alive => live ▸ alive,
        same mgmtHeap⟩

theorem drained_run {events : List Event} (tidy : σ.Tidy)
    (down : σ.shuttingDown = true) (run : server.Run σ events τ) :
    Drained σ τ ∧ τ.Tidy := by
  induction run with
  | nil => exact ⟨.refl down, tidy⟩
  | snoc run step induction =>
      obtain ⟨first, between⟩ := induction
      refine ⟨first.trans (drained_step between first.shuttingDown step), ?_⟩
      exact tidy_step between (sound_step between.sound step) step

theorem eq_of_afterSelect (step : σ.step .afterSelect = .next τ) :
    σ.phase = .mainLoop ∧ σ.afterSelect = some τ := by
  unfold Server.step stepMain at step
  dsimp only at step
  cases phase : σ.phase with
  | mainLoop =>
      rw [phase] at step
      exact ⟨rfl, eq_some_of_ofOption step⟩
  | _ =>
      rw [phase] at step
      cases step

theorem drained_of_signal (once : σ.sigcount = 1)
    (step : σ.step .afterSelect = .next τ) :
    Drained σ τ := by
  have runs := (eq_of_afterSelect step).2
  unfold afterSelect at runs
  rw [if_neg (by omega)] at runs
  obtain ⟨υ, shut, rfl⟩ := Option.map_eq_some_iff.mp runs
  suffices drained : Drained σ υ by
    split <;> exact ⟨drained.shuttingDown, drained.live, drained.mgmtHeap⟩
  split at shut
  next =>
    have dismisses := (unregisterListeners_dismisses shut).1
    refine ⟨dismisses.shuttingDown, fun p alive => ?_, fun p conn stored => ?_⟩
    · rw [dismisses.live] at alive
      exact alive
    · rw [dismisses.mgmtHeap] at stored
      exact ⟨conn, stored, rfl⟩
  next again =>
    cases shut
    refine .refl (Bool.of_not_eq_false fun running => again ⟨?_, running⟩)
    omega

/-- What the server has when it stops: a second signal, or nobody left to
serve. -/
def Finished (σ : Server) : Prop :=
  2 ≤ σ.sigcount ∨ σ.shuttingDown = true ∧ σ.live = []

theorem finished_of_afterSelect (sound : σ.Sound)
    (runs : σ.afterSelect = some τ) (stopped : τ.phase = .stopped) :
    τ.Finished := by
  unfold afterSelect at runs
  split at runs
  next twice =>
    cases runs
    exact .inl twice
  next =>
    obtain ⟨υ, shut, rfl⟩ := Option.map_eq_some_iff.mp runs
    suffices same : υ.env.metrics = σ.env.metrics ∧ υ.live = σ.live by
      split at stopped
      next served =>
        rw [if_pos served]
        refine .inr ⟨served.1, same.2.trans (List.length_eq_zero_iff.mp ?_)⟩
        rw [← sound.roster.connections]
        exact (congrArg Metrics.currentConnections same.1).symm.trans served.2
      next => cases stopped
    split at shut
    next =>
      have dismisses := (unregisterListeners_dismisses shut).1
      exact ⟨dismisses.metrics, dismisses.live⟩
    next =>
      cases shut
      exact ⟨rfl, rfl⟩

theorem nextVisit_ne_stopped (i n : Nat) : nextVisit i n ≠ .stopped := by
  unfold nextVisit
  split <;> exact Phase.noConfusion

theorem ofOption_phase {half : Option Server} {phase : Phase}
    (step : Outcome.ofOption (half.map fun σ => { σ with phase := phase }) =
      .next τ) :
    τ.phase = phase := by
  obtain ⟨υ, -, rfl⟩ := Option.map_eq_some_iff.mp (eq_some_of_ofOption step)
  rfl

theorem handleJob_phase (sound : σ.Sound) {job : Job} {rest : List Job}
    {input : Input} (queue : σ.env.selector.resolutionJobs = job :: rest)
    (runs : handleJob job input (σ.withQueue rest) = some τ) :
    τ.phase = σ.phase := by
  have waiting : (σ.withQueue rest).Steady (job :: rest) := by
    rw [← queue]
    exact @Unchanged.steady σ _ _
      ⟨fun _ => ⟨rfl, rfl⟩, rfl, rfl, rfl, rfl, rfl, rfl, rfl, rfl, rfl⟩
        sound.steady
  obtain ⟨υ, again, -, same, -⟩ := handleJob_steady waiting input
  exact (congrArg Server.phase (Option.some.inj (runs.symm.trans again))).trans
    same

theorem stepMain_stays (sound : σ.Sound) (step : σ.stepMain event = .next τ)
    (elsewhere : event ≠ .afterSelect) : τ.phase ≠ .stopped := by
  unfold stepMain at step
  split at step
  next =>
    cases step
    exact Phase.noConfusion
  next =>
    cases step
    exact Phase.noConfusion
  next =>
    split at step
    next =>
      cases step
      exact nextVisit_ne_stopped _ _
    next =>
      rw [ofOption_phase step]
      exact Phase.noConfusion
  next =>
    rw [ofOption_phase step]
    exact nextVisit_ne_stopped _ _
  next notifies =>
    split at step
    next => cases step
    next job rest queue =>
      rw [handleJob_phase sound queue (eq_some_of_ofOption step), notifies]
      exact Phase.noConfusion
  next =>
    split at step <;> cases step
    exact Phase.noConfusion
  next => exact absurd rfl elsewhere
  next => cases step

/-- Only the main loop stops the server, and then nothing but the world goes
on. -/
theorem stopped_of_step (sound : σ.Sound) (step : σ.step event = .next τ)
    (stopped : τ.phase = .stopped) :
    σ.afterSelect = some τ ∨ σ.phase = .stopped ∧ σ.sigcount ≤ τ.sigcount ∧
      τ.shuttingDown = σ.shuttingDown ∧ τ.live = σ.live := by
  cases event with
  | signal =>
      cases step
      exact .inr ⟨stopped, Nat.le_succ _, rfl, rfl⟩
  | foreignOpen =>
      cases step
      exact .inr ⟨stopped, Nat.le_refl _, rfl, rfl⟩
  | foreignClose fd | connectDone fd =>
      unfold Server.step at step
      try unfold stepConnectDone at step
      dsimp only at step
      split at step <;> cases step
      exact .inr ⟨stopped, Nat.le_refl _, rfl, rfl⟩
  | resolved index answer =>
      unfold Server.step stepResolved at step
      dsimp only at step
      split at step
      · split at step <;> cases step
        exact .inr ⟨stopped, Nat.le_refl _, rfl, rfl⟩
      · cases step
  | notifyBlock index =>
      unfold Server.step stepNotifyBlock at step
      dsimp only at step
      split at step
      · cases step
      · split at step
        · split at step <;> cases step
          exact .inr ⟨stopped, Nat.le_refl _, rfl, rfl⟩
        · cases step
  | afterSelect => exact .inl (eq_of_afterSelect step).2
  | pselect | interrupted | visitRead | visitWrite | job | notified =>
      exact absurd stopped (stepMain_stays sound step Event.noConfusion)

theorem finished_of_reachable (reachable : server.Reachable σ)
    (stopped : σ.phase = .stopped) :
    σ.Finished := by
  suffices holds : σ.Sound ∧
      (σ.phase = .stopped → σ.Finished) from holds.2 stopped
  apply reachable.invariant
  · intro σ starts
    refine ⟨sound_init starts, fun stopped => ?_⟩
    rw [(init_unused starts).phase] at stopped
    cases stopped
  · rintro σ τ event ⟨sound, finished⟩ step
    refine ⟨sound_step sound step, fun stopped => ?_⟩
    rcases stopped_of_step sound step stopped with runs |
      ⟨before, signals, down, live⟩
    · exact finished_of_afterSelect sound runs stopped
    · rcases finished before with twice | ⟨shut, served⟩
      · exact .inl (Nat.le_trans twice signals)
      · exact .inr ⟨down.trans shut, live.trans served⟩

end Server

/-- Every open descriptor of the server has its owner, and what the server holds
has its descriptors, open and registered: none is leaked, and none is used after
it was closed. -/
theorem descriptors_accounted {σ : Server} (reachable : server.Reachable σ) :
    (∀ fd socket, σ.env.kernel.socket fd = some socket → socket ≠ .foreign →
      σ.Owner fd socket) ∧
    (∀ fd ∈ σ.listeners, σ.env.kernel.socket fd = some .listener ∧
      ∃ item, σ.env.selector.items fd = some item ∧ item.handler.listening) ∧
    (∀ p conn, σ.mgmtHeap p = some conn →
      σ.env.kernel.socket conn.fd = some .accepted ∧
      ∃ i, σ.env.selector.items conn.fd = some ⟨i, .mgmt, p⟩) ∧
    ∀ p ∈ σ.live, ∃ s, σ.heap p = some s ∧
      σ.env.kernel.socket s.clientFd = some .accepted ∧
      (∃ i, σ.env.selector.items s.clientFd = some ⟨i, .socks5, p⟩) ∧
      ∀ fd ∈ s.originFd,
        (∃ status, σ.env.kernel.socket fd = some (.origin status)) ∧
        ∃ i, σ.env.selector.items fd = some ⟨i, .socks5, p⟩ := by
  have tidy := Server.tidy_of_reachable reachable
  refine ⟨fun fd socket => tidy.owner, fun fd listed => ?_,
    fun p conn stored => ?_, fun p alive => ?_⟩
  · exact ⟨tidy.listening listed, tidy.sound.registry.listeners fd listed⟩
  · obtain ⟨i, item⟩ := tidy.managed p conn stored
    exact ⟨kindAt_accepted.mp (tidy.sound.registry.items conn.fd _ item).1, i,
      item⟩
  · obtain ⟨s, object, wired, -⟩ := tidy.sound.roster.wired p alive
    exact ⟨s, object, wired.held.accepted, wired.held.client.2, fun fd origin =>
      ⟨wired.held.connects fd origin, (wired.held.origin fd origin).1.2⟩⟩

private def serving : List Server.Turn := [.client 0 7, .client 1 9]

theorem descriptors_accounted_serving :
    ∃ σ : Server, σ.listeners = [0, 1] ∧ σ.Owner 2 .accepted ∧
      σ.Owner 3 .accepted ∧
      (∀ fd ∈ σ.listeners, σ.env.kernel.socket fd = some .listener ∧
        ∃ item, σ.env.selector.items fd = some item ∧ item.handler.listening) ∧
      ∃ conn, σ.mgmtHeap 9 = some conn ∧ σ.env.kernel.socket conn.fd =
        some .accepted := by
  have expected : ((Server.perform id Server.advance 30 serving
      (.governed configInitDefaults usersInit)).any fun σ =>
        decide (σ.listeners = [0, 1] ∧ σ.env.kernel.socket 2 = some .accepted ∧
          σ.env.kernel.socket 3 = some .accepted) && (σ.mgmtHeap 9).isSome) =
            true := by
    decide +kernel
  obtain ⟨σ, performs, facts⟩ := (Option.any_eq_true ..).mp expected
  obtain ⟨opened, stored⟩ := Bool.and_eq_true_iff.mp facts
  obtain ⟨listeners, client, manager⟩ := of_decide_eq_true opened
  obtain ⟨conn, object⟩ := Option.isSome_iff_exists.mp stored
  obtain ⟨events, run⟩ := Server.run_of_perform Server.step_of_advance performs
  obtain ⟨owned, listening, managed, -⟩ :=
    descriptors_accounted ⟨_, events, Server.init_governed _ _, run⟩
  exact ⟨σ, listeners, owned 2 _ client Socket.noConfusion,
    owned 3 _ manager Socket.noConfusion, listening, conn, object,
    (managed 9 conn object).1⟩

/-- From the first signal on, the server takes on nobody: its listeners are
closed, whoever it serves it served before, and it stops when it has served them
all, or at a second signal. -/
theorem shutdown_drains {σ τ υ : Server} {events : List Event}
    (reachable : server.Reachable σ) (once : σ.sigcount = 1)
    (step : server.step σ .afterSelect τ) (run : server.Run τ events υ) :
    (∀ fd, υ.env.kernel.socket fd ≠ some .listener) ∧
      (∀ p ∈ υ.live, p ∈ σ.live) ∧
    (∀ p conn, υ.mgmtHeap p = some conn →
      ∃ earlier, σ.mgmtHeap p = some earlier ∧ earlier.fd = conn.fd) ∧
    (υ.phase = .stopped → 2 ≤ υ.sigcount ∨ υ.live = []) := by
  have before := Server.tidy_of_reachable reachable
  have drained := Server.drained_of_signal once step
  obtain ⟨later, after⟩ := Server.drained_run
    (Server.tidy_step before (Server.sound_step before.sound step) step)
    drained.shuttingDown run
  have whole := drained.trans later
  have reaches : server.Reachable υ := by
    obtain ⟨first, earlier, starts, past⟩ := reachable
    exact ⟨first, _, starts, (past.append (.single step)).append run⟩
  refine ⟨fun fd listens => ?_, whole.live, whole.mgmtHeap, fun stopped => ?_⟩
  · cases after.owner listens Socket.noConfusion with
    | listener listed =>
        rw [after.dismissed whole.shuttingDown] at listed
        cases listed
  · rcases Server.finished_of_reachable reaches stopped with twice | ⟨-, served⟩
    · exact .inl twice
    · exact .inr served

private def signalled : List Server.Turn :=
  serving ++ [.event .signal, .event .interrupted, .event .notified]

private def draining : List Server.Turn := [.readable 2 (.receiving [])]

theorem shutdown_drains_served :
    ∃ σ υ : Server, σ.live = [7] ∧ υ.phase = .stopped ∧
      (∀ fd, υ.env.kernel.socket fd ≠ some .listener) ∧
      (2 ≤ υ.sigcount ∨ υ.live = []) := by
  have expected : ((Server.perform id Server.advance 30 signalled
      (.governed configInitDefaults usersInit)).any fun σ =>
        decide (σ.live = [7] ∧ σ.sigcount = 1) && (σ.advance .afterSelect).any
            fun τ =>
          (Server.perform id Server.advance 30 draining τ).any fun υ =>
            decide (υ.phase = .stopped)) = true := by
    decide +kernel
  obtain ⟨σ, performs, facts⟩ := (Option.any_eq_true ..).mp expected
  obtain ⟨before, facts⟩ := Bool.and_eq_true_iff.mp facts
  obtain ⟨served, once⟩ := of_decide_eq_true before
  obtain ⟨τ, advances, facts⟩ := (Option.any_eq_true ..).mp facts
  obtain ⟨υ, drains, stopped⟩ := (Option.any_eq_true ..).mp facts
  obtain ⟨events, run⟩ := Server.run_of_perform Server.step_of_advance performs
  obtain ⟨later, rest⟩ := Server.run_of_perform Server.step_of_advance drains
  obtain ⟨deaf, -, -, ends⟩ :=
    shutdown_drains ⟨_, events, Server.init_governed _ _, run⟩ once
    (Server.step_of_advance advances) rest
  exact ⟨σ, υ, served, of_decide_eq_true stopped, deaf,
    ends (of_decide_eq_true stopped)⟩

end SocksProxy
