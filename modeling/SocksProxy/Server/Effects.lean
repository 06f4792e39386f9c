import SocksProxy.Server.Runs

/-! What a step of the server does: it calls a handler of one connection, or it
leaves the connections that there are alone. -/

namespace SocksProxy

def Event.answers : Event → Option Answers
  | .visitRead input | .visitWrite input | .job input => some input.answers
  | _ => none

namespace Server

structure Called where
  p : Ptr
  before : Socks5
  after : Ctx

def handlerCall (kind : EventKind) (fd : Fd) (a : Answers) (σ : Server) :
    Option Called :=
  (σ.env.selector.items fd).bind fun item =>
    if item.handler = .socks5 then
      (σ.heap item.data).bind fun s =>
        (socksv5Handler kind ⟨fd, item.data⟩ a ⟨σ.env, s, [], false⟩).map
            fun c =>
          ⟨item.data, s, c⟩
    else none

def withQueue (σ : Server) (queue : List Job) : Server :=
  σ.setSelector { σ.env.selector with resolutionJobs := queue }

/-- The readiness bit and the current interest both allow an event. -/
def passes (σ : Server) (i : Fd) : EventKind → Bool
  | .read => σ.env.selector.slaveR i && σ.env.selector.masterR i
  | .write => σ.env.selector.slaveW i && σ.env.selector.masterW i
  | .block => false

def visitCall (kind : EventKind) (i : Fd) (input : Input) (σ : Server) :
    Option Called :=
  if σ.passes i kind then handlerCall kind i input.answers σ else none

/-- The handler call that a step makes, if it makes one. -/
def calling (σ : Server) : Event → Option Called
  | .visitRead input =>
      match σ.phase with
      | .visit i _ => visitCall .read i input σ
      | _ => none
  | .visitWrite input =>
      match σ.phase with
      | .visitWrite i _ _ => visitCall .write i input σ
      | _ => none
  | .job input =>
      match σ.phase, σ.env.selector.resolutionJobs with
      | .notify, job :: rest =>
          handlerCall .block job.fd input.answers (σ.withQueue rest)
      | _, _ => none
  | _ => none

structure Managed where
  key : Key
  before : MgmtConn
  after : MgmtCtx

def mgmtHandler : EventKind → Key → Answers → MgmtCtx → Option MgmtCtx
  | .read => mgmtRead
  | .write => mgmtWrite
  | .block => fun _ _ _ => none

def mgmtCall (kind : EventKind) (fd : Fd) (a : Answers) (σ : Server) :
    Option Managed :=
  (σ.env.selector.items fd).bind fun item =>
    if item.handler = .mgmt then
      (σ.mgmtHeap item.data).bind fun conn =>
        (mgmtHandler kind ⟨fd, item.data⟩ a ⟨σ.env, conn, [], false⟩).map
            fun x =>
          ⟨⟨fd, item.data⟩, conn, x⟩
    else none

def managing (σ : Server) : Event → Option Managed
  | .visitRead input =>
      match σ.phase with
      | .visit i _ =>
          if σ.passes i .read then mgmtCall .read i input.answers σ else none
      | _ => none
  | .visitWrite input =>
      match σ.phase with
      | .visitWrite i _ _ =>
          if σ.passes i .write then mgmtCall .write i input.answers σ else none
      | _ => none
  | _ => none

def handling (σ : Server) : Event → Option Job
  | .job _ =>
      match σ.phase with
      | .notify => σ.env.selector.resolutionJobs.head?
      | _ => none
  | _ => none

theorem visitHalf_eq {σ : Server} {i : Fd} {item : Item} (kind : EventKind)
    (data : Ptr) (input : Input) (held : σ.env.selector.items i = some item) :
    visitHalf kind i data input σ =
      if σ.passes i kind then callHandler kind item.handler ⟨i, data⟩ input σ
      else some σ := by
  unfold visitHalf passes Selector.masterR Selector.masterW
  rw [held]
  cases kind <;> rfl

theorem wanted_of_passes {σ : Server} {i : Fd} {item : Item} {kind : EventKind}
    (held : σ.env.selector.items i = some item)
    (passed : σ.passes i kind = true) :
    kind = .read ∧ item.interest.read = true ∨ kind = .write ∧
      item.interest.write = true := by
  cases kind with
  | read =>
      have master := (Bool.and_eq_true_iff.mp passed).2
      unfold Selector.masterR at master
      rw [held] at master
      exact .inl ⟨rfl, master⟩
  | write =>
      have master := (Bool.and_eq_true_iff.mp passed).2
      unfold Selector.masterW at master
      rw [held] at master
      exact .inr ⟨rfl, master⟩
  | block => cases passed

inductive Progress (σ : Server) (event : Event) (τ : Server) : Prop
  | same (resolvers : τ.env.resolvers = σ.env.resolvers)
      (queue : τ.env.selector.resolutionJobs = σ.env.selector.resolutionJobs)
  | answered {index : Nat} {conn : Ptr} {ticket : Nat} {answer : DnsAnswer}
      (resolves : event = .resolved index answer)
      (found : σ.env.resolvers[index]? = some ⟨conn, ticket, none⟩)
      (resolvers : τ.env.resolvers = σ.env.resolvers.set index
        ⟨conn, ticket, some answer⟩)
      (queue : τ.env.selector.resolutionJobs = σ.env.selector.resolutionJobs)
  | queued {index : Nat} {conn : Ptr} {ticket : Nat} {answer : DnsAnswer}
      {fd : Fd} (notifies : event = .notifyBlock index)
      (found : σ.env.resolvers[index]? = some ⟨conn, ticket, some answer⟩)
      (resolvers : τ.env.resolvers = σ.env.resolvers.eraseIdx index)
      (queue : τ.env.selector.resolutionJobs =
        ⟨fd, conn, ticket, answer⟩ :: σ.env.selector.resolutionJobs)

/-- The connections that there are go on as they are, but perhaps for the answer
that a resolver has stored, and perhaps a new one was accepted. -/
structure Beside (σ : Server) (event : Event) (τ : Server) : Prop where
  objects : ∀ p ∈ σ.live, ∀ s, σ.heap p = some s → τ.heap p = some s ∨
    ∃ index answer, event = .resolved index answer ∧
    τ.heap p = some { s with dns :=
      { s.dns with result := answer.result, status := answer.status } }
  live : τ.live = σ.live ∨ ∃ p s, p ∉ σ.live ∧ τ.live = σ.live ++ [p] ∧
    τ.heap p = some s ∧ Accepted s
  sent : τ.env.metrics.bytesSent = σ.env.metrics.bytesSent
  received : τ.env.metrics.bytesReceived = σ.env.metrics.bytesReceived
  progress : Progress σ event τ
  issued : τ.env.nextTicket = σ.env.nextTicket
  ready : (∃ readable writable, event = .pselect readable writable) ∨
    τ.env.selector.slaveW = σ.env.selector.slaveW
  origins : ∀ fd status, τ.env.kernel.socket fd = some (.origin status) →
    σ.env.kernel.socket fd = some (.origin status) ∨
      σ.env.kernel.socket fd = some (.origin .inProgress) ∧
      ∃ e, event = .connectDone fd e ∧
        status = if e = 0 then .connected else .failed e

/-- Which call a step may make, and in which environment. -/
inductive Calls (σ : Server) (event : Event) (call : Called) :
    EventKind → Fd → Env → Prop
  | visit {kind : EventKind} {fd : Fd} (plain : kind ≠ .block)
      (unhandled : σ.handling event = none)
      (reads : kind = .read → ∃ input n, event = .visitRead input ∧
        σ.phase = .visit fd n)
      (writes : kind = .write → σ.env.selector.slaveW fd = true ∧
        ∃ input n data, event = .visitWrite input ∧
        σ.phase = .visitWrite fd n data) :
      Calls σ event call kind fd σ.env
  | job {job : Job} {rest : List Job} (handles : σ.handling event = some job)
      (queue : σ.env.selector.resolutionJobs = job :: rest)
      (owner : job.owner = call.p) :
      Calls σ event call .block job.fd (σ.withQueue rest).env

/-- What a step runs when it calls no handler of a connection. -/
inductive Move (σ : Server) : Event → Server → Prop
  | stays {event : Event} (phase : Phase) :
      Move σ event { σ with phase := phase }
  | selects {readable writable : Fd → Bool} :
      Move σ (.pselect readable writable)
        { σ.setSelector { σ.env.selector with
            slaveR := fun fd => readable fd && σ.env.selector.masterR fd
            slaveW := fun fd => writable fd && σ.env.selector.masterW fd } with
          phase := .visit 0 σ.env.selector.maxFd }
  | manages {event : Event} {call : Managed} {kind : EventKind} {i : Interest}
      {a : Answers} (phase : Phase) (managing : σ.managing event = some call)
      (item : σ.env.selector.items call.key.fd = some ⟨i, .mgmt, call.key.data⟩)
      (wanted : kind = .read ∧ i.read = true ∨ kind = .write ∧ i.write = true)
      (object : σ.mgmtHeap call.key.data = some call.before)
      (runs : mgmtHandler kind call.key a ⟨σ.env, call.before, [], false⟩ =
        some call.after) :
      Move σ event
        { σ.setMgmt call.key.data
            (if call.after.closed then none else some call.after.c) with
          env := call.after.env, phase := phase }
  | welcomes {event : Event} {acc : AcceptAnswers} {fd : Fd} {item : Item}
      {υ : Server} (phase : Phase) (held : σ.env.selector.items fd = some item)
      (listens : item.handler = .socksListener)
      (runs : socksv5PassiveAccept acc σ = some υ) :
      Move σ event { υ with phase := phase }
  | admits {event : Event} {acc : AcceptAnswers} {fd : Fd} {item : Item}
      {υ : Server} (phase : Phase) (held : σ.env.selector.items fd = some item)
      (listens : item.handler = .mgmtListener)
      (runs : mgmtPassiveAccept acc σ = some υ) :
      Move σ event { υ with phase := phase }
  | returns {τ : Server} (runs : σ.afterSelect = some τ) : Move σ .afterSelect τ
  | signal : Move σ .signal { σ with sigcount := σ.sigcount + 1 }
  | connectDone {fd : Fd} {e : Errno}
      (origin : σ.env.kernel.socket fd = some (.origin .inProgress)) :
      Move σ (.connectDone fd e) (σ.setKernel (σ.env.kernel.setStatus fd
        (if e = 0 then .connected else .failed e)))
  | foreignOpen :
      Move σ .foreignOpen (σ.setKernel (σ.env.kernel.openSocket .foreign).2)
  | foreignClose {fd : Fd} (foreign : σ.env.kernel.socket fd = some .foreign) :
      Move σ (.foreignClose fd) (σ.setKernel (σ.env.kernel.close fd))
  | resolved {index : Nat} {answer : DnsAnswer} {τ : Server}
      (step : σ.stepResolved index answer = .next τ) :
      Move σ (.resolved index answer) τ
  | notifyBlock {index : Nat} {τ : Server}
      (step : σ.stepNotifyBlock index = .next τ) : Move σ (.notifyBlock index) τ

/-- What no handler of a connection touches. -/
def aloof (σ : Server) : (Ptr → Option MgmtConn) × List Fd × Nat × Bool :=
  (σ.mgmtHeap, σ.listeners, σ.sigcount, σ.shuttingDown)

inductive Effect (σ : Server) (event : Event) (τ : Server) : Prop
  | called {call : Called} {kind : EventKind} {fd : Fd} {a : Answers}
      {env : Env} (calling : σ.calling event = some call)
      (asked : event.answers = some a) (calls : Calls σ event call kind fd env)
      (member : call.p ∈ σ.live) (object : σ.heap call.p = some call.before)
      (due : Due call.p env call.before kind fd)
      (wired : Wired call.p env call.before)
      (runs : socksv5Handler kind ⟨fd, call.p⟩ a ⟨env, call.before, [], false⟩ =
        some call.after)
      (upkept : Upkept call.p env call.before call.after)
      (returns : Returns σ τ call.p call.after)
      (others : ∀ q, q ≠ call.p → τ.heap q = σ.heap q)
      (after : τ.env = call.after.env) (aloof : τ.aloof = σ.aloof)
      (spent : τ.heap call.p = none ∨ call.p ∈ τ.live ∨ call.p ∈ τ.pool)
  | beside (quiet : σ.calling event = none)
      (unhandled : σ.handling event = none) (beside : Beside σ event τ)
      (move : Move σ event τ)

variable {σ τ : Server} {event : Event}

theorem Progress.outstanding (progress : Progress σ event τ) :
    (outstanding τ.env τ.env.selector.resolutionJobs).Perm
      (outstanding σ.env σ.env.selector.resolutionJobs) := by
  unfold Server.outstanding
  cases progress with
  | same resolvers queue => rw [resolvers, queue]
  | answered resolves found resolvers queue =>
      rw [resolvers, queue, map_set_answered found]
  | queued notifies found resolvers queue =>
      rw [resolvers, queue]
      exact outstanding_eraseIdx found

theorem Progress.queue (progress : Progress σ event τ) {job : Job}
    (queued : job ∈ σ.env.selector.resolutionJobs) :
    job ∈ τ.env.selector.resolutionJobs := by
  cases progress with
  | same _ queue | answered _ _ _ queue =>
      rw [queue]
      exact queued
  | queued _ _ _ queue =>
      rw [queue]
      exact List.mem_cons_of_mem _ queued

theorem Beside.kept (beside : Beside σ event τ) (p : Ptr) (alive : p ∈ σ.live)
    (s : Socks5) (object : σ.heap p = some s) :
    ∃ dns, τ.heap p = some { s with dns := dns } := by
  rcases beside.objects p alive s object with same |
    ⟨index, answer, resolves, stored⟩
  · exact ⟨s.dns, same⟩
  · exact ⟨_, stored⟩

theorem Beside.same (heap : τ.heap = σ.heap) (live : τ.live = σ.live)
    (metrics : τ.env.metrics = σ.env.metrics)
    (threads : τ.env.threads = σ.env.threads)
    (queue : τ.env.selector.resolutionJobs = σ.env.selector.resolutionJobs)
    (ready : τ.env.selector.slaveW = σ.env.selector.slaveW)
    (origins : ∀ fd status, τ.env.kernel.socket fd = some (.origin status) →
      σ.env.kernel.socket fd = some (.origin status)) : Beside σ event τ := by
  simp only [Env.threads, Prod.mk.injEq] at threads
  refine ⟨fun p _ s object => .inl ?_, .inl live, by rw [metrics], by
    rw [metrics],
    .same threads.1 queue, threads.2, .inr ready,
    fun fd status held => .inl (origins fd status held)⟩
  rw [heap]
  exact object

theorem Beside.phase (beside : Beside σ event τ) (phase : Phase) :
    Beside σ event { τ with phase := phase } :=
  ⟨beside.objects, beside.live, beside.sent, beside.received, by
    cases beside.progress with
    | same resolvers queue => exact .same resolvers queue
    | answered resolves found resolvers queue =>
        exact .answered resolves found resolvers queue
    | queued notifies found resolvers queue =>
        exact .queued notifies found resolvers queue,
    beside.issued, beside.ready, beside.origins⟩

section Accepting

theorem origins_accepted {env after : Env} {fd : Fd} {kernel : Kernel}
    (opened : env.kernel.openSocket .accepted = (fd, kernel))
    (sockets : ∀ other socket, after.kernel.socket other = some socket →
      kernel.socket other = some socket) (other : Fd) (status : ConnectStatus)
    (held : after.kernel.socket other = some (.origin status)) :
    env.kernel.socket other = some (.origin status) := by
  have present := sockets other _ held
  have socket := Kernel.socket_openSocket env.kernel .accepted other
  rw [opened] at socket
  rw [present] at socket
  split at socket
  · cases socket
  · exact socket.symm

theorem socket_of_close {kernel : Kernel} {fd other : Fd} {socket : Socket}
    (held : (kernel.close fd).socket other = some socket) :
    kernel.socket other = some socket := by
  rw [Kernel.socket_close] at held
  split at held
  · cases held
  · exact held

theorem selectorRegister_keeps {selector after : Selector} {fd : Fd}
  {handler : FdHandler}
    {i : Interest} {p : Ptr}
    (registered : selectorRegister selector fd handler i p =
      (after, .success)) :
    after.resolutionJobs = selector.resolutionJobs ∧
        after.slaveW = selector.slaveW := by
  unfold selectorRegister at registered
  split at registered
  · cases registered
  · split at registered <;> cases registered
    exact ⟨rfl, rfl⟩

theorem closeFd_beside {fd : Fd} {kernel : Kernel}
    (opened : σ.env.kernel.openSocket .accepted = (fd, kernel)) :
    Beside σ event
      (closeFd { σ with env := { σ.env with kernel := kernel } } fd) :=
  .same rfl rfl rfl rfl rfl rfl
    (origins_accepted opened fun _ _ held => socket_of_close held)

theorem mgmtPassiveAccept_beside {acc : AcceptAnswers}
    (runs : mgmtPassiveAccept acc σ = some τ) :
    Beside σ event τ := by
  obtain ⟨⟨fd, kernel⟩, opened⟩ : ∃ result, σ.env.kernel.openSocket .accepted =
      result :=
    ⟨_, rfl⟩
  unfold mgmtPassiveAccept at runs
  split at runs
  · cases runs
    exact .same rfl rfl rfl rfl rfl rfl fun _ _ => id
  · unfold openAccepted at runs
    rw [opened] at runs
    dsimp only at runs
    split at runs
    · cases runs
      exact closeFd_beside opened
    · split at runs
      · cases runs
        exact closeFd_beside opened
      · split at runs
        · cases runs
          exact closeFd_beside opened
        · split at runs
          next registered =>
            obtain ⟨queue, ready⟩ := selectorRegister_keeps registered
            cases runs
            exact .same rfl rfl rfl rfl queue ready
              (origins_accepted opened fun _ _ => id)
          next =>
            cases runs
            exact closeFd_beside opened

private theorem beside_of_drawn {p : Ptr} {fd : Fd} {kernel : Kernel}
    {υ : Server} (opened : σ.env.kernel.openSocket .accepted = (fd, kernel))
    (drawn : Drawn σ { σ.env with kernel := kernel } p υ)
    (others : ∀ q, q ≠ p → τ.heap q = υ.heap q)
    (live : τ.live = υ.live ∨ τ.live = υ.live ++ [p] ∧ ∃ s, τ.heap p = some s ∧
      Accepted s)
    (sent : τ.env.metrics.bytesSent = υ.env.metrics.bytesSent)
    (received : τ.env.metrics.bytesReceived = υ.env.metrics.bytesReceived)
    (threads : τ.env.threads = υ.env.threads)
    (queue : τ.env.selector.resolutionJobs = υ.env.selector.resolutionJobs)
    (ready : τ.env.selector.slaveW = υ.env.selector.slaveW)
    (sockets : ∀ other socket, τ.env.kernel.socket other = some socket →
      υ.env.kernel.socket other = some socket) : Beside σ event τ := by
  rw [drawn.env] at sent received threads queue ready sockets
  simp only [Env.threads, Prod.mk.injEq] at threads
  refine ⟨fun q alive s object => .inl ?_, ?_, sent, received,
    .same threads.1 queue, threads.2, .inr ready, fun fd status held =>
      .inl (origins_accepted opened sockets fd status held)⟩
  · have other : q ≠ p := fun same => drawn.idle (same ▸ alive)
    rw [others q other, drawn.others q other]
    exact object
  · rw [drawn.live] at live
    rcases live with same | ⟨more, s, object, accepted⟩
    · exact .inl same
    · exact .inr ⟨p, s, drawn.idle, more, object, accepted⟩

theorem socks5New_accepted {fd : Fd} {acc : AcceptAnswers} {p : Ptr}
    (runs : σ.socks5New fd acc = some (τ, some p)) :
    ∃ old s, prepare σ.env.config fd acc.blocks old = some s ∧
      τ.heap p = some s := by
  have stored (υ : Server) {old : Option Socks5} {q : Ptr}
      (result : some (υ.setObject q (prepare σ.env.config fd acc.blocks old),
        (prepare σ.env.config fd acc.blocks old).map fun _ => q) =
          some (τ, some p)) :
      ∃ old s, prepare σ.env.config fd acc.blocks old = some s ∧
      τ.heap p = some s := by
    cases prepared : prepare σ.env.config fd acc.blocks old with
    | none =>
        rw [prepared] at result
        cases result
    | some s =>
        rw [prepared] at result
        cases result
        exact ⟨old, s, prepared, Function.update_self ..⟩
  unfold socks5New at runs
  split at runs
  · dsimp only at runs
    split at runs
    · cases runs
    · exact stored _ runs
  · split at runs
    · cases runs
    · split at runs
      · cases runs
      · exact stored _ runs

theorem socksv5PassiveAccept_beside {jobs : List Job} (steady : σ.Steady jobs)
    {acc : AcceptAnswers} (runs : socksv5PassiveAccept acc σ = some τ) :
    Beside σ event τ := by
  obtain ⟨⟨fd, kernel⟩, opened⟩ : ∃ result, σ.env.kernel.openSocket .accepted =
      result :=
    ⟨_, rfl⟩
  unfold socksv5PassiveAccept at runs
  split at runs
  · cases runs
    exact .same rfl rfl rfl rfl rfl rfl fun _ _ => id
  next address _ =>
    unfold openAccepted at runs
    rw [opened] at runs
    dsimp only at runs
    split at runs
    · cases runs
      exact closeFd_beside opened
    · obtain ⟨⟨υ, object⟩, prepared, prepares⟩ :=
        socks5New_prepares steady.roster { σ.env with kernel := kernel } fd acc
      rw [prepared] at runs
      cases prepares with
      | kept =>
          cases runs
          exact closeFd_beside opened
      | freed drawn =>
          cases runs
          exact beside_of_drawn opened drawn (fun _ _ => rfl) (.inl rfl) rfl
            rfl rfl rfl rfl fun _ _ => socket_of_close
      | @drawn p υ s drawn stored fresh =>
          have beside (t : Socks5) (q : Ptr) (other : q ≠ p) :
              (υ.setObject p (some t)).heap q = υ.heap q :=
                Function.update_of_ne other ..
          unfold registerClient at runs
          dsimp only at runs
          rw [stored] at runs
          dsimp only at runs
          split at runs
          next registered =>
            obtain ⟨queue, ready⟩ := selectorRegister_keeps registered
            obtain ⟨old, t, made, same⟩ := socks5New_accepted prepared
            obtain rfl : s = t := Option.some.inj (stored.symm.trans same)
            have accepted :
                Accepted { s with clientAddr := address, references := 1 } :=
              ⟨_, fd, acc.blocks, old, s, address, made, rfl⟩
            cases runs
            exact beside_of_drawn opened drawn (beside _)
              (.inr ⟨rfl, _, Function.update_self .., accepted⟩) rfl rfl
              rfl queue ready fun _ _ => id
          next =>
            cases runs
            obtain ⟨-, touches, env, live⟩ :=
              @socks5Destroy_retires
                (υ.setObject p (some { s with clientAddr := address })) p _
                (Function.update_self ..) fresh.resolving
            have sent := congrArg (fun env : Env => env.metrics.bytesSent) env
            have received :=
              congrArg (fun env : Env => env.metrics.bytesReceived) env
            have threads := congrArg Env.threads env
            have queue :=
              congrArg (fun env : Env => env.selector.resolutionJobs) env
            have ready := congrArg (fun env : Env => env.selector.slaveW) env
            refine beside_of_drawn opened drawn
              (fun q other => (touches.others q other).trans (beside _ q other))
              (.inl live) sent received threads queue ready fun _ _ held => ?_
            have kept := socket_of_close held
            rw [env] at kept
            exact kept

end Accepting

theorem Registry.bound (registry : σ.Registry) {key : Key} {i : Interest}
    (item : σ.env.selector.items key.fd = some ⟨i, .mgmt, key.data⟩) :
    ∃ conn, σ.mgmtHeap key.data = some conn ∧
      MgmtBound key ⟨σ.env, conn, [], false⟩ := by
  obtain ⟨accepted, conn, stored, number⟩ := registry.items key.fd _ item
  exact ⟨conn, stored, registry.valid key.fd _ item,
    ⟨i, item⟩, kindAt_accepted.mp accepted, number, rfl⟩

theorem mgmtHandler_settled {kind : EventKind} {key : Key} {x : MgmtCtx}
    (bound : MgmtBound key x) (plain : kind ≠ .block) (a : Answers) :
    ∃ y, mgmtHandler kind key a x = some y ∧ MgmtSettled key x y := by
  cases kind with
  | read => exact settled_mgmtRead bound a
  | write => exact settled_mgmtWrite bound a
  | block => exact absurd rfl plain

theorem Registry.settled (registry : σ.Registry) {kind : EventKind} {key : Key}
    {i : Interest} {a : Answers} {conn : MgmtConn} {x : MgmtCtx}
    (item : σ.env.selector.items key.fd = some ⟨i, .mgmt, key.data⟩)
    (object : σ.mgmtHeap key.data = some conn)
    (runs : mgmtHandler kind key a ⟨σ.env, conn, [], false⟩ = some x) :
    MgmtBound key ⟨σ.env, conn, [], false⟩ ∧
      MgmtSettled key ⟨σ.env, conn, [], false⟩ x := by
  have plain : kind ≠ .block := by
    rintro rfl
    cases runs
  obtain ⟨other, stored, bound⟩ := registry.bound item
  obtain rfl : conn = other := Option.some.inj (object.symm.trans stored)
  obtain ⟨y, ran, settled⟩ := mgmtHandler_settled bound plain a
  obtain rfl : x = y := Option.some.inj (runs.symm.trans ran)
  exact ⟨bound, settled⟩

theorem managed_beside {key : Key} {conn : MgmtConn} {x : MgmtCtx}
    (settled : MgmtSettled key ⟨σ.env, conn, [], false⟩ x) (phase : Phase) :
    Beside σ event
      { σ.setMgmt key.data (if x.closed then none else some x.c) with
      env := x.env, phase := phase } := by
  obtain ⟨fd, elsewhere, here, machinery⟩ := settled
  refine .same rfl rfl (congrArg Machinery.metrics machinery)
    (congrArg Machinery.threads machinery) (congrArg Machinery.jobs machinery)
    (congrArg Machinery.slaveW machinery) ?_
  intro other status held
  by_cases apart : other = key.fd
  · subst apart
    rcases here with bound | ⟨-, -, closed⟩
    · rw [show _ = some Socket.accepted from bound.accepted] at held
      cases held
    · rw [show _ = none from closed] at held
      cases held
  · exact (elsewhere other apart).2.symm.trans held

private theorem unregisterListeners_env {fds : List Fd}
    (runs : unregisterListeners fds σ = some τ) :
    τ.heap = σ.heap ∧ τ.live = σ.live ∧ τ.env.metrics = σ.env.metrics ∧
      τ.env.threads = σ.env.threads ∧
      τ.env.selector.resolutionJobs = σ.env.selector.resolutionJobs ∧
      τ.env.selector.slaveW = σ.env.selector.slaveW ∧
      ∀ fd socket, τ.env.kernel.socket fd = some socket →
        σ.env.kernel.socket fd = some socket := by
  induction fds generalizing σ with
  | nil =>
      cases runs
      exact ⟨rfl, rfl, rfl, rfl, rfl, rfl, fun _ _ => id⟩
  | cons fd rest induction =>
      obtain ⟨middle, first, others⟩ := Option.bind_eq_some_iff.mp runs
      obtain ⟨heap, live, metrics, threads, queue, ready, sockets⟩ :=
        induction others
      unfold unregisterListener at first
      split at first
      · cases first
        exact ⟨heap, live, metrics, threads, queue, ready, sockets⟩
      · split at first
        · cases first
          exact ⟨heap, live, metrics, threads, queue, ready, sockets⟩
        · split at first
          · cases first
            exact ⟨heap, live, metrics, threads, queue, ready,
              fun other socket held =>
                socket_of_close (sockets other socket held)⟩
          · cases first

theorem afterSelect_beside (runs : σ.afterSelect = some τ) :
    Beside σ event τ := by
  unfold afterSelect at runs
  split at runs
  · cases runs
    exact .same rfl rfl rfl rfl rfl rfl fun _ _ => id
  · obtain ⟨υ, shut, rfl⟩ := Option.map_eq_some_iff.mp runs
    have beside : Beside σ event υ := by
      split at shut
      · obtain ⟨heap, live, metrics, threads, queue, ready, sockets⟩ :=
          unregisterListeners_env shut
        exact .same heap live metrics threads queue ready fun fd status =>
          sockets fd _
      · cases shut
        exact .same rfl rfl rfl rfl rfl rfl fun _ _ => id
    split
    · exact beside.phase .stopped
    · exact beside.phase .idle

theorem stepResolved_beside {index : Nat} {answer : DnsAnswer}
    (step : σ.stepResolved index answer = .next τ) :
    Beside σ (.resolved index answer) τ := by
  unfold stepResolved at step
  split at step
  next conn ticket found =>
    split at step
    · cases step
    next s object =>
      cases step
      refine ⟨fun p alive t held => ?_, .inl rfl, rfl, rfl,
        .answered rfl found rfl rfl, rfl, .inr rfl, fun _ _ => .inl⟩
      by_cases own : p = conn
      · subst own
        rw [object] at held
        cases held
        exact .inr ⟨index, answer, rfl, Function.update_self ..⟩
      · exact .inl ((Function.update_of_ne own ..).trans held)
  next => cases step

theorem stepNotifyBlock_beside {index : Nat}
    (step : σ.stepNotifyBlock index = .next τ) :
    Beside σ (.notifyBlock index) τ := by
  unfold stepNotifyBlock at step
  split at step
  · cases step
  · split at step
    next conn ticket answer found =>
      split at step
      · cases step
      next s object =>
        cases step
        exact ⟨fun p _ t held => .inl held, .inl rfl, rfl, rfl,
          .queued rfl found rfl rfl, rfl, .inr rfl, fun _ _ => .inl⟩
    next => cases step

theorem connectDone_beside {fd : Fd} {e : Errno}
    (origin : σ.env.kernel.socket fd = some (.origin .inProgress)) :
    Beside σ (.connectDone fd e) (σ.setKernel (σ.env.kernel.setStatus fd
      (if e = 0 then .connected else .failed e))) := by
  refine ⟨fun p _ s object => .inl object, .inl rfl, rfl, rfl, .same rfl rfl,
    rfl, .inr rfl, fun other status held => ?_⟩
  have moved : (σ.env.kernel.setStatus fd _).socket other = _ := held
  rw [Kernel.socket_setStatus origin] at moved
  split at moved
  next same =>
    subst same
    refine .inr ⟨origin, e, rfl, ?_⟩
    simpa using moved.symm
  next => exact .inl moved

theorem foreignOpen_beside :
    Beside σ event (σ.setKernel (σ.env.kernel.openSocket .foreign).2) := by
  refine .same rfl rfl rfl rfl rfl rfl fun fd status held => ?_
  have moved : (σ.env.kernel.openSocket .foreign).2.socket fd = _ := held
  rw [Kernel.socket_openSocket] at moved
  split at moved
  · cases moved
  · exact moved

theorem Move.beside (sound : σ.Sound) (move : Move σ event τ) :
    Beside σ event τ := by
  have still {phase : Phase} : Beside σ event { σ with phase := phase } :=
    .same rfl rfl rfl rfl rfl rfl fun _ _ => id
  cases move with
  | stays phase => exact still
  | @selects readable writable =>
      exact ⟨fun p _ s object => .inl object, .inl rfl, rfl, rfl, .same rfl rfl,
        rfl, .inl ⟨readable, writable, rfl⟩, fun _ _ => .inl⟩
  | manages phase managing item wanted object runs =>
      exact managed_beside (sound.registry.settled item object runs).2 phase
  | welcomes phase held listens runs =>
      exact (socksv5PassiveAccept_beside sound.steady runs).phase phase
  | admits phase held listens runs =>
      exact (mgmtPassiveAccept_beside runs).phase phase
  | returns runs => exact afterSelect_beside runs
  | signal => exact .same rfl rfl rfl rfl rfl rfl fun _ _ => id
  | connectDone origin => exact connectDone_beside origin
  | foreignOpen => exact foreignOpen_beside
  | foreignClose foreign =>
      exact .same rfl rfl rfl rfl rfl rfl fun _ _ => socket_of_close
  | resolved step => exact stepResolved_beside step
  | notifyBlock step => exact stepNotifyBlock_beside step

theorem Effect.moves (sound : σ.Sound) (quiet : σ.calling event = none)
    (unhandled : σ.handling event = none) (move : Move σ event τ) :
    Effect σ event τ :=
  .beside quiet unhandled (move.beside sound) move

theorem socks5Destroy_aloof (p : Ptr) :
    (σ.socks5Destroy p).aloof = σ.aloof := by
  unfold socks5Destroy
  split
  · rfl
  · split
    · rfl
    · dsimp only
      split <;> rfl

theorem dispatchSocks5_aloof {kind : EventKind} {key : Key} {a : Answers}
    (runs : σ.dispatchSocks5 kind key a = some τ) : τ.aloof = σ.aloof := by
  unfold dispatchSocks5 at runs
  split at runs
  · cases runs
  · obtain ⟨c, -, rfl⟩ := Option.map_eq_some_iff.mp runs
    dsimp only
    split
    · exact socks5Destroy_aloof key.data
    · rfl

theorem Returns.moved {p : Ptr} {c : Ctx} {υ : Server} (queue : List Job)
    (phase : Phase) (returns : Returns (σ.withQueue queue) υ p c) :
    Returns σ { υ with phase := phase } p c := by
  cases returns with
  | remains wired object live pool poolSize connections =>
      exact .remains wired object live pool poolSize connections
  | ended closing free retires live connections =>
      refine .ended closing free ?_ live connections
      cases retires with
      | pooled room pool poolSize object =>
          exact .pooled room pool poolSize object
      | freed pool poolSize => exact .freed pool poolSize

/-- The object of a connection that was destroyed is in the pool, or freed. -/
theorem afterCall_spent {p : Ptr} {s : Socks5} {c : Ctx}
    (upkept : Upkept p σ.env s c) (member : p ∈ σ.live) :
    (σ.afterCall p c).heap p = none ∨ p ∈ (σ.afterCall p c).live ∨
      p ∈ (σ.afterCall p c).pool := by
  unfold afterCall
  rcases upkept.outcome with ⟨alive, -⟩ | ⟨gone, -, resolved, -⟩
  · dsimp only
    rw [if_neg (by rw [alive]; exact Bool.false_ne_true)]
    exact .inr (.inl member)
  · have stored : (σ.setObject p (some c.s)).heap p = some c.s :=
      Function.update_self ..
    dsimp only
    rw [if_pos gone]
    unfold socks5Destroy
    dsimp only
    rw [stored]
    dsimp only
    rw [if_neg (by rw [resolved]; exact Bool.false_ne_true)]
    split
    · exact .inr (.inr List.mem_cons_self)
    · exact .inl (Function.update_self ..)

theorem effect_of_dispatch {jobs queue : List Job} {kind : EventKind} {fd : Fd}
    {p : Ptr} {i : Interest} {a : Answers} {υ : Server}
    (steady : (σ.withQueue queue).Steady jobs)
    (item : σ.env.selector.items fd = some ⟨i, .socks5, p⟩)
    (calling : σ.calling event = handlerCall kind fd a (σ.withQueue queue))
    (asked : event.answers = some a)
    (calls : ∀ call : Called, call.p = p →
      Calls σ event call kind fd (σ.withQueue queue).env)
    (due : ∀ s, σ.heap p = some s → Wired p (σ.withQueue queue).env s →
      Due p (σ.withQueue queue).env s kind fd)
    (runs : (σ.withQueue queue).dispatchSocks5 kind ⟨fd, p⟩ a = some υ)
    (phase : Phase) :
    Effect σ event { υ with phase := phase } := by
  have member : p ∈ σ.live := steady.registry.items fd _ item
  obtain ⟨s, object, wired, -⟩ := steady.roster.wired p member
  obtain ⟨c, handled, upkept⟩ := wired.serves (due s object wired) a
  obtain ⟨returns, touches, env⟩ := afterCall_returns upkept
  have aloof : υ.aloof = (σ.withQueue queue).aloof := dispatchSocks5_aloof runs
  have same := runs.symm.trans
    (@dispatchSocks5_eq (σ.withQueue queue) kind ⟨fd, p⟩ a s c object handled)
  cases same
  refine .called (calling.trans ?_) asked (calls ⟨p, s, c⟩ rfl) member object
    (due s object wired) wired handled upkept (returns.moved queue phase)
    (fun q other => touches.others q other) env aloof
    (afterCall_spent (σ := σ.withQueue queue) upkept member)
  unfold handlerCall
  rw [show (σ.withQueue queue).env.selector.items fd = _ from item]
  rw [Option.bind_some, if_pos rfl]
  dsimp only
  rw [object, Option.bind_some, handled]
  rfl

theorem handlerCall_none {kind : EventKind} {fd : Fd} {a : Answers}
    (other :
      ∀ item, σ.env.selector.items fd = some item → item.handler ≠ .socks5) :
    handlerCall kind fd a σ = none := by
  unfold handlerCall
  cases held : σ.env.selector.items fd with
  | none => rfl
  | some item => exact (Option.bind_some ..).trans (if_neg (other item held))

theorem effect_of_visitHalf {kind : EventKind} {i : Fd} {data : Ptr}
    {input : Input} {υ : Server} (sound : σ.Sound)
    (same : ∀ item, σ.env.selector.items i = some item → item.data = data)
    (asked : event.answers = some input.answers)
    (calling : σ.calling event = visitCall kind i input σ)
    (managing : σ.managing event =
      if σ.passes i kind then mgmtCall kind i input.answers σ else none)
    (unhandled : σ.handling event = none)
    (reads :
      kind = .read → ∃ input n, event = .visitRead input ∧ σ.phase = .visit i n)
    (writes : kind = .write →
      ∃ input n data, event = .visitWrite input ∧
      σ.phase = .visitWrite i n data)
    (runs : visitHalf kind i data input σ = some υ) (phase : Phase) :
    Effect σ event { υ with phase := phase } := by
  have steady := sound.steady
  have uncalled (other : ∀ item, σ.env.selector.items i = some item →
      item.handler ≠ .socks5) : σ.calling event = none := by
    rw [calling, visitCall, handlerCall_none other, ite_self]
  cases held : σ.env.selector.items i with
  | none =>
      unfold visitHalf at runs
      rw [held] at runs
      cases runs
      refine .moves sound (uncalled fun item present => ?_) unhandled
        (.stays phase)
      rw [held] at present
      cases present
  | some item =>
      rw [visitHalf_eq kind data input held] at runs
      split at runs
      next passed =>
        obtain ⟨interest, handler, owner⟩ := item
        obtain rfl : owner = data := same _ held
        have other (apart : handler ≠ .socks5) : σ.calling event = none := by
          refine uncalled fun item present => ?_
          rw [held] at present
          cases present
          exact apart
        have wanted := wanted_of_passes held passed
        have plain : kind ≠ .block := by
          rcases wanted with ⟨rfl, -⟩ | ⟨rfl, -⟩ <;> simp
        cases handler with
        | socks5 =>
            refine @effect_of_dispatch σ event _ σ.env.selector.resolutionJobs
              kind i _ _ _ υ
              steady held (calling.trans (if_pos passed)) asked
              (fun call _ => ?_) (fun s _ _ => ?_) ?_ phase
            · refine .visit plain unhandled reads fun write =>
                ⟨?_, writes write⟩
              subst write
              exact (Bool.and_eq_true_iff.mp passed).1
            · rcases wanted with ⟨rfl, wanted⟩ | ⟨rfl, wanted⟩
              · exact .read held wanted
              · exact .write held wanted
            · rcases wanted with ⟨rfl, -⟩ | ⟨rfl, -⟩ <;> exact runs
        | mgmt =>
            have dispatched :
                σ.dispatchMgmt (mgmtHandler kind) ⟨i, owner⟩ input.answers =
                  some υ := by
              rcases wanted with ⟨rfl, -⟩ | ⟨rfl, -⟩ <;> exact runs
            unfold dispatchMgmt at dispatched
            split at dispatched
            · cases dispatched
            next conn object =>
              obtain ⟨x, ran, rfl⟩ := Option.map_eq_some_iff.mp dispatched
              have call : σ.managing event = some ⟨⟨i, owner⟩, conn, x⟩ := by
                rw [managing, if_pos passed]
                unfold mgmtCall
                rw [held, Option.bind_some, if_pos rfl]
                dsimp only at object ran ⊢
                rw [object, Option.bind_some, ran]
                rfl
              exact .moves sound (other (by simp)) unhandled
                (.manages phase call held wanted object ran)
        | socksListener =>
            rcases wanted with ⟨rfl, -⟩ | ⟨rfl, -⟩
            · exact .moves sound (other (by simp)) unhandled
                (.welcomes phase held rfl runs)
            · cases runs
        | mgmtListener =>
            rcases wanted with ⟨rfl, -⟩ | ⟨rfl, -⟩
            · exact .moves sound (other (by simp)) unhandled
                (.admits phase held rfl runs)
            · cases runs
      next passed =>
        cases runs
        refine .moves sound ?_ unhandled (.stays phase)
        rw [calling, visitCall, if_neg passed]

theorem eq_some_of_ofOption {result : Option Server}
    (next : Outcome.ofOption result = .next τ) :
    result = some τ := by
  cases result with
  | none => cases next
  | some υ =>
      cases next
      rfl

/-- Every step of a sound server. -/
theorem step_effect (sound : σ.Sound) (step : σ.step event = .next τ) :
    Effect σ event τ := by
  have main (taken : σ.stepMain event = .next τ) : Effect σ event τ := by
    unfold stepMain at taken
    split at taken
    next readable writable phase =>
      cases taken
      exact .moves sound rfl rfl .selects
    next =>
      cases taken
      exact .moves sound rfl rfl (.stays .notify)
    next i n input phase =>
      have calling : σ.calling (.visitRead input) =
          visitCall .read i input σ := by
        unfold Server.calling
        rw [phase]
      split at taken
      next free =>
        cases taken
        refine .moves sound ?_ rfl (.stays _)
        rw [calling, visitCall, handlerCall_none, ite_self]
        intro item held
        rw [free] at held
        cases held
      next item held =>
        obtain ⟨υ, runs, rfl⟩ :=
          Option.map_eq_some_iff.mp (eq_some_of_ofOption taken)
        refine effect_of_visitHalf sound (fun other present => ?_) rfl
          calling ?_ rfl
          (fun _ => ⟨input, n, rfl, phase⟩) (fun write => by cases write) runs _
        · rw [held] at present
          cases present
          rfl
        · unfold managing
          rw [phase]
    next i n data input phase =>
      obtain ⟨υ, runs, rfl⟩ :=
        Option.map_eq_some_iff.mp (eq_some_of_ofOption taken)
      refine effect_of_visitHalf sound (sound.visiting i n data phase)
        rfl ?_ ?_ rfl
        (fun read => by cases read) (fun _ => ⟨input, n, data, rfl, phase⟩) runs
        _
      · unfold calling
        rw [phase]
      · unfold managing
        rw [phase]
    next input phase =>
      split at taken
      · cases taken
      next job rest queue =>
        have runs : handleJob job input (σ.withQueue rest) = some τ :=
          eq_some_of_ofOption taken
        obtain ⟨s, awaits⟩ := sound.steady.awaits (queue ▸ List.mem_cons_self)
        have waiting : (σ.withQueue rest).Steady (job :: rest) := by
          rw [← queue]
          exact @Unchanged.steady σ _ _
            ⟨fun _ => ⟨rfl, rfl⟩, rfl, rfl, rfl, rfl, rfl, rfl, rfl, rfl, rfl⟩
              sound.steady
        have calling : σ.calling (.job input) =
            handlerCall .block job.fd input.answers (σ.withQueue rest) := by
          unfold Server.calling
          rw [phase, queue]
        have handles : σ.handling (.job input) = some job := by
          unfold handling
          rw [phase, queue]
          rfl
        unfold handleJob at runs
        rw [show (σ.withQueue rest).env.selector.items job.fd =
          _ from awaits.item] at runs
        exact @effect_of_dispatch σ _ _ rest .block job.fd job.owner opNoop _ τ
          waiting awaits.item
          calling rfl (fun call owner => .job handles queue owner.symm)
          (fun t object _ => .block (by
            rw [awaits.object] at object
            cases object
            exact awaits.state)) runs τ.phase
    next phase =>
      split at taken
      · cases taken
        exact .moves sound rfl rfl (.stays .mainLoop)
      · cases taken
    next phase =>
      exact .moves sound rfl rfl (.returns (eq_some_of_ofOption taken))
    next => cases taken
  cases event with
  | signal =>
      cases step
      exact .moves sound rfl rfl .signal
  | connectDone fd e =>
      unfold Server.step stepConnectDone at step
      dsimp only at step
      split at step
      next origin =>
        cases step
        exact .moves sound rfl rfl (.connectDone origin)
      next => cases step
  | foreignOpen =>
      cases step
      exact .moves sound rfl rfl .foreignOpen
  | foreignClose fd =>
      unfold Server.step at step
      dsimp only at step
      split at step
      next foreign =>
        cases step
        exact .moves sound rfl rfl (.foreignClose foreign)
      · cases step
  | resolved index answer => exact .moves sound rfl rfl (.resolved step)
  | notifyBlock index => exact .moves sound rfl rfl (.notifyBlock step)
  | _ => exact main step

end Server

end SocksProxy
