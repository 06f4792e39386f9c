import SocksProxy.Lib.Transition
import SocksProxy.Mgmt.Handlers
import SocksProxy.Socks5.Lifecycle

/-! The whole server: the event loop of `selector.c`, the accept handlers, the
connection pool, the resolver threads and the main loop. -/

namespace SocksProxy

/-- Where the main thread stands: before `pselect`, at the read half or at the
write half of the visit to descriptor `i` in `handle_iteration`, in
`handle_block_notifications`, or back in `main`.  The write half keeps the
`data` that the key was given when the visit began. -/
inductive Phase
  | idle
  | visit (i n : Nat)
  | visitWrite (i n : Nat) (data : Ptr)
  | notify
  | mainLoop
  | stopped
  deriving DecidableEq, Repr

/-- `heap` holds the connection objects that are allocated, in use or in the
pool.  `live` lists the connections that were accepted and not yet destroyed;
the code does not use it. -/
structure Server where
  env : Env
  heap : Ptr → Option Socks5
  pool : List Ptr
  poolSize : Nat
  mgmtHeap : Ptr → Option MgmtConn
  listeners : List Fd
  phase : Phase
  sigcount : Nat
  shuttingDown : Bool
  live : List Ptr

def maxPool : Nat := 128

/-- The outcomes of the calls that an accept handler makes; `object` is the
address that `calloc` returns. -/
structure AcceptAnswers where
  accepted : Option SockAddr
  nio : Bool
  object : Option Ptr
  blocks : BlockAnswers

structure Input where
  answers : Answers
  accept : AcceptAnswers

namespace Server

def setObject (σ : Server) (p : Ptr) (s : Option Socks5) : Server :=
  { σ with heap := Function.update σ.heap p s }

def setMgmt (σ : Server) (p : Ptr) (c : Option MgmtConn) : Server :=
  { σ with mgmtHeap := Function.update σ.mgmtHeap p c }

def closeFd (σ : Server) (fd : Fd) : Server :=
  { σ with env := { σ.env with kernel := σ.env.kernel.close fd } }

def openAccepted (σ : Server) : Fd × Server :=
  let (fd, kernel) := σ.env.kernel.openSocket .accepted
  (fd, { σ with env := { σ.env with kernel := kernel } })

/-- `socks5_new`: an object from the pool or a new one, prepared for a client.
The address of a new object is one that is not in use. -/
def socks5New (σ : Server) (clientFd : Fd) (acc : AcceptAnswers) :
    Option (Server × Option Ptr) :=
  match σ.pool with
  | p :: rest =>
      let σ := { σ with pool := rest, poolSize := σ.poolSize - 1 }
      match σ.heap p with
      | none => none
      | some old =>
          let s := prepare σ.env.config clientFd acc.blocks (some old)
          some (σ.setObject p s, s.map fun _ => p)
  | [] =>
      match acc.object with
      | none => some (σ, none)
      | some p =>
          if (σ.heap p).isSome then some (σ, none)
          else
            let s := prepare σ.env.config clientFd acc.blocks none
            some (σ.setObject p s, s.map fun _ => p)

/-- `socks5_destroy`.  A connection whose resolution is in flight is leaked. -/
def socks5Destroy (σ : Server) (p : Ptr) : Server :=
  match σ.heap p with
  | none => σ
  | some s =>
      if s.resolving then σ
      else
        let σ := σ.setObject p (some { s with dns := dnsRequestClear s.dns })
        if σ.poolSize < maxPool then
          { σ with pool := p :: σ.pool, poolSize := σ.poolSize + 1 }
        else σ.setObject p none

/-- The end of `socksv5_passive_accept`, once there is an object. -/
def registerClient (σ : Server) (p : Ptr) (fd : Fd) (address : SockAddr) :
    Option Server :=
  match σ.heap p with
  | none => none
  | some s =>
      let s := { s with clientAddr := address }
      match selectorRegister σ.env.selector fd .socks5 opRead p with
      | (selector, .success) =>
          some { σ.setObject p (some { s with references := 1 }) with
            env := { σ.env with
              selector := selector
              metrics := metricsConnectionOpened σ.env.metrics }
            live := σ.live ++ [p] }
      | _ => some (((σ.setObject p (some s)).socks5Destroy p).closeFd fd)

def socksv5PassiveAccept (acc : AcceptAnswers) (σ : Server) : Option Server :=
  match acc.accepted with
  | none => some σ
  | some address =>
      let (fd, σ) := σ.openAccepted
      if !acc.nio then some (σ.closeFd fd)
      else
        match σ.socks5New fd acc with
        | none => none
        | some (σ, none) => some (σ.closeFd fd)
        | some (σ, some p) => σ.registerClient p fd address

def mgmtPassiveAccept (acc : AcceptAnswers) (σ : Server) : Option Server :=
  match acc.accepted with
  | none => some σ
  | some _ =>
      let (fd, σ) := σ.openAccepted
      if !acc.nio then some (σ.closeFd fd)
      else
        match acc.object with
        | none => some (σ.closeFd fd)
        | some p =>
            if (σ.mgmtHeap p).isSome then some (σ.closeFd fd)
            else
              match selectorRegister σ.env.selector fd .mgmt opRead p with
              | (selector, .success) =>
                  some { σ.setMgmt p (some (mgmtNew fd)) with
                    env := { σ.env with selector := selector } }
              | _ => some (σ.closeFd fd)

end Server

namespace Server

def dispatchSocks5 (kind : EventKind) (key : Key) (a : Answers) (σ : Server) :
    Option Server :=
  match σ.heap key.data with
  | none => none
  | some s =>
      (socksv5Handler kind key a ⟨σ.env, s, [], false⟩).map fun c =>
        let σ := { σ.setObject key.data (some c.s) with env := c.env }
        if c.destroyed then
          { σ.socks5Destroy key.data with live := σ.live.erase key.data }
        else σ

def dispatchMgmt (handler : Key → Answers → MgmtCtx → Option MgmtCtx)
    (key : Key) (a : Answers) (σ : Server) : Option Server :=
  match σ.mgmtHeap key.data with
  | none => none
  | some conn =>
      (handler key a ⟨σ.env, conn, [], false⟩).map fun x =>
        { σ.setMgmt key.data (if x.closed then none else some x.c) with
          env := x.env }

/-- `item->handler->handle_*(&key)`; `none` when there is no such callback. -/
def callHandler (kind : EventKind) (handler : FdHandler) (key : Key)
    (input : Input) (σ : Server) : Option Server :=
  match kind, handler with
  | .read, .socksListener => socksv5PassiveAccept input.accept σ
  | .read, .mgmtListener => mgmtPassiveAccept input.accept σ
  | .read, .mgmt => dispatchMgmt mgmtRead key input.answers σ
  | .write, .mgmt => dispatchMgmt mgmtWrite key input.answers σ
  | kind, .socks5 => dispatchSocks5 kind key input.answers σ
  | _, _ => none

/-- One half of a visit: the callback runs when the readiness bit and the
current interest both allow it. -/
def visitHalf (kind : EventKind) (i : Fd) (data : Ptr) (input : Input)
    (σ : Server) : Option Server :=
  match σ.env.selector.items i with
  | none => some σ
  | some item =>
      let ready :=
        match kind with
        | .read => σ.env.selector.slaveR i && item.interest.read
        | .write => σ.env.selector.slaveW i && item.interest.write
        | .block => false
      if ready then callHandler kind item.handler ⟨i, data⟩ input σ
      else some σ

/-- The next iteration of the loop of `handle_iteration`, or its end. -/
def nextVisit (i n : Nat) : Phase :=
  if i < n then .visit (i + 1) n else .notify

def handleJob (job : Job) (input : Input) (σ : Server) : Option Server :=
  match σ.env.selector.items job.fd with
  | none => some σ
  | some item => callHandler .block item.handler ⟨job.fd, item.data⟩ input σ

def started (kernel : Kernel) (config : ProxyConfig) (users : UserTable) :
    Server where
  env := envInit kernel config users
  heap := fun _ => none
  pool := []
  poolSize := 0
  mgmtHeap := fun _ => none
  listeners := []
  phase := .idle
  sigcount := 0
  shuttingDown := false
  live := []

/-- `add_listener`; `created` tells whether `create_passive_socket`
succeeded. -/
def addListener (σ : Server) (handler : FdHandler) (created : Bool) : Server :=
  if !created then σ
  else
    let (fd, kernel) := σ.env.kernel.openSocket .listener
    let σ := { σ with env := { σ.env with kernel := kernel } }
    match selectorRegister σ.env.selector fd handler opRead 0 with
    | (selector, .success) =>
        { σ with
          env := { σ.env with selector := selector }
          listeners := σ.listeners ++ [fd] }
    | _ => σ.closeFd fd

def unregisterListener (fd : Fd) (σ : Server) : Option Server :=
  if invalidFd fd then some σ
  else
    match σ.env.selector.items fd with
    | none => some σ
    | some item =>
        if item.handler = .socksListener ∨ item.handler = .mgmtListener then
          some { σ with
            env := { σ.env with
              kernel := σ.env.kernel.close fd
              selector := selectorRemove σ.env.selector fd } }
        else none

def unregisterListeners : List Fd → Server → Option Server
  | [], σ => some { σ with listeners := [] }
  | fd :: rest, σ => (σ.unregisterListener fd).bind (unregisterListeners rest)

/-- What `main` does after each return of `selector_select`. -/
def afterSelect (σ : Server) : Option Server :=
  if σ.sigcount ≥ 2 then some { σ with phase := .stopped }
  else
    let shut : Option Server :=
      if σ.sigcount ≥ 1 ∧ σ.shuttingDown = false then
        unregisterListeners σ.listeners { σ with shuttingDown := true }
      else some σ
    shut.map fun σ =>
      if σ.shuttingDown ∧ σ.env.metrics.currentConnections = 0 then
        { σ with phase := .stopped }
      else { σ with phase := .idle }

end Server

/-- What can happen next: the main thread goes on, a resolver thread or the
kernel makes progress, or a signal arrives. -/
inductive Event
  | pselect (readable writable : Fd → Bool)
  | interrupted
  | visitRead (input : Input)
  | visitWrite (input : Input)
  | job (input : Input)
  | notified
  | afterSelect
  | signal
  | connectDone (fd : Fd) (e : Errno)
  | foreignOpen
  | foreignClose (fd : Fd)
  | resolved (index : Nat) (answer : DnsAnswer)
  | notifyBlock (index : Nat)

/-- The outcome of an event: it cannot happen now, the code goes wrong (an
abort, a failed assertion, a call through a null pointer, a use of an object
that is not there), or the server moves on. -/
inductive Outcome
  | disabled
  | wrong
  | next (σ : Server)

def Outcome.ofOption : Option Server → Outcome
  | none => .wrong
  | some σ => .next σ

namespace Server

def setSelector (σ : Server) (selector : Selector) : Server :=
  { σ with env := { σ.env with selector := selector } }

def setKernel (σ : Server) (kernel : Kernel) : Server :=
  { σ with env := { σ.env with kernel := kernel } }

def setResolvers (σ : Server) (resolvers : List Resolver) : Server :=
  { σ with env := { σ.env with resolvers := resolvers } }

/-- A resolver thread stores what `getaddrinfo` returned in its request. -/
def stepResolved (σ : Server) (index : Nat) (answer : DnsAnswer) : Outcome :=
  match σ.env.resolvers[index]? with
  | some ⟨conn, ticket, none⟩ =>
      match σ.heap conn with
      | none => .wrong
      | some s =>
          let dns :=
            { s.dns with result := answer.result, status := answer.status }
          .next ((σ.setObject conn (some { s with dns := dns })).setResolvers
            (σ.env.resolvers.set index ⟨conn, ticket, some answer⟩))
  | _ => .disabled

/-- `selector_notify_block`: the thread queues its job and ends.  The queue is
locked while the main thread handles notifications. -/
def stepNotifyBlock (σ : Server) (index : Nat) : Outcome :=
  if σ.phase = .notify then .disabled
  else
    match σ.env.resolvers[index]? with
    | some ⟨conn, ticket, some answer⟩ =>
        match σ.heap conn with
        | none => .wrong
        | some s =>
            let job : Job := ⟨s.dns.notifyFd, conn, ticket, answer⟩
            let selector := { σ.env.selector with
              resolutionJobs := job :: σ.env.selector.resolutionJobs }
            .next ((σ.setSelector selector).setResolvers
              (σ.env.resolvers.eraseIdx index))
    | _ => .disabled

def stepConnectDone (σ : Server) (fd : Fd) (e : Errno) : Outcome :=
  if σ.env.kernel.socket fd = some (.origin .inProgress) then
    .next (σ.setKernel (σ.env.kernel.setStatus fd
      (if e = 0 then .connected else .failed e)))
  else .disabled

def stepMain (σ : Server) (event : Event) : Outcome :=
  match σ.phase, event with
  | .idle, .pselect readable writable =>
      .next { σ.setSelector { σ.env.selector with
          slaveR := fun fd => readable fd && σ.env.selector.masterR fd
          slaveW := fun fd => writable fd && σ.env.selector.masterW fd } with
        phase := .visit 0 σ.env.selector.maxFd }
  | .idle, .interrupted => .next { σ with phase := .notify }
  | .visit i n, .visitRead input =>
      match σ.env.selector.items i with
      | none => .next { σ with phase := nextVisit i n }
      | some item =>
          .ofOption ((σ.visitHalf .read i item.data input).map fun σ =>
            { σ with phase := .visitWrite i n item.data })
  | .visitWrite i n data, .visitWrite input =>
      .ofOption ((σ.visitHalf .write i data input).map fun σ =>
        { σ with phase := nextVisit i n })
  | .notify, .job input =>
      match σ.env.selector.resolutionJobs with
      | [] => .disabled
      | job :: rest =>
          .ofOption (handleJob job input
            (σ.setSelector { σ.env.selector with resolutionJobs := rest }))
  | .notify, .notified =>
      if σ.env.selector.resolutionJobs = [] then
        .next { σ with phase := .mainLoop }
      else .disabled
  | .mainLoop, .afterSelect => .ofOption σ.afterSelect
  | _, _ => .disabled

def step (σ : Server) (event : Event) : Outcome :=
  match event with
  | .signal => .next { σ with sigcount := σ.sigcount + 1 }
  | .connectDone fd e => σ.stepConnectDone fd e
  | .foreignOpen => .next (σ.setKernel (σ.env.kernel.openSocket .foreign).2)
  | .foreignClose fd =>
      if σ.env.kernel.socket fd = some .foreign then
        .next (σ.setKernel (σ.env.kernel.close fd))
      else .disabled
  | .resolved index answer => σ.stepResolved index answer
  | .notifyBlock index => σ.stepNotifyBlock index
  | event => σ.stepMain event

end Server

/-- The handlers of the passive sockets. -/
def FdHandler.listening : FdHandler → Prop
  | .socksListener | .mgmtListener => True
  | .socks5 | .mgmt => False

/-- The process starts with descriptors that are not its own business, and
`main` adds its listeners. -/
def server : Transition.System Server Event where
  init σ := ∃ descriptors config users, ∃ added : List (FdHandler × Bool),
    (∀ fd socket, Table.get descriptors fd = some socket → socket = .foreign) ∧
      (∀ listener ∈ added, listener.1.listening) ∧
      σ = added.foldl (fun σ listener => σ.addListener listener.1 listener.2)
        (.started ⟨descriptors, 0⟩ config users)
  step σ event next := σ.step event = .next next

end SocksProxy
