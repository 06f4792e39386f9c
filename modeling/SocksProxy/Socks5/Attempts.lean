import SocksProxy.Socks5.Wiring

/-! What the search for an origin does to the descriptors of a connection. -/

namespace SocksProxy

structure Unmoved (before after : Ctx) : Prop where
  slots : ∀ fd, before.env.SameSlot after.env fd
  background : after.env.background = before.env.background
  threads : after.env.threads = before.env.threads
  connections : after.env.connections = before.env.connections
  wiring : after.s.wiring = before.s.wiring
  destroyed : after.destroyed = before.destroyed

namespace Unmoved

variable {first middle last : Ctx}

theorem inside (env : last.env = first.env)
    (wiring : last.s.wiring = first.s.wiring)
    (destroyed : last.destroyed = first.destroyed) : Unmoved first last := by
  refine ⟨fun fd => ?_, ?_, ?_, ?_, wiring, destroyed⟩
  · rw [env]
    exact ⟨rfl, rfl⟩
  · rw [env]
  · rw [env]
  · rw [env]

theorem trans (left : Unmoved first middle) (right : Unmoved middle last) :
    Unmoved first last where
  slots fd := ⟨(right.slots fd).1.trans (left.slots fd).1,
    (right.slots fd).2.trans (left.slots fd).2⟩
  background := right.background.trans left.background
  threads := right.threads.trans left.threads
  connections := right.connections.trans left.connections
  wiring := right.wiring.trans left.wiring
  destroyed := right.destroyed.trans left.destroyed

theorem calm (unmoved : Unmoved first last) (p : Ptr) :
    Calm p first.env last.env where
  items fd := .inl (unmoved.slots fd).1
  sockets fd := (unmoved.slots fd).2
  background := unmoved.background
  threads := unmoved.threads
  connections := unmoved.connections

end Unmoved

structure Gained (p : Ptr) (fd : Fd) (i : Interest) (status : ConnectStatus)
    (before after : Ctx) : Prop where
  valid : invalidFd fd = false
  unregistered : before.env.selector.items fd = none
  closed : before.env.kernel.socket fd = none
  items : ∀ other, after.env.selector.items other =
    if other = fd then some ⟨i, .socks5, p⟩ else before.env.selector.items other
  sockets : ∀ other, after.env.kernel.socket other =
    if other = fd then some (.origin status) else before.env.kernel.socket other
  background : after.env.background = before.env.background
  threads : after.env.threads = before.env.threads
  connections : after.env.connections = before.env.connections
  wiring : after.s.wiring = { before.s.wiring with
    originFd := some fd
    references := before.s.references + 1 }
  destroyed : after.destroyed = before.destroyed

namespace Gained

variable {p : Ptr} {fd : Fd} {i : Interest} {status : ConnectStatus}
  {first middle last : Ctx}

theorem after (gained : Gained p fd i status middle last)
    (unmoved : Unmoved first middle) :
    Gained p fd i status first last where
  valid := gained.valid
  unregistered := (unmoved.slots fd).1.symm.trans gained.unregistered
  closed := (unmoved.slots fd).2.symm.trans gained.closed
  items other := by rw [gained.items, (unmoved.slots other).1]
  sockets other := by rw [gained.sockets, (unmoved.slots other).2]
  background := gained.background.trans unmoved.background
  threads := gained.threads.trans unmoved.threads
  connections := gained.connections.trans unmoved.connections
  wiring := by
    have references := congrArg Wiring.references unmoved.wiring
    rw [gained.wiring, unmoved.wiring, show middle.s.references =
      first.s.references from references]
  destroyed := gained.destroyed.trans unmoved.destroyed

theorem inside (gained : Gained p fd i status first middle)
    (env : last.env = middle.env) (wiring : last.s.wiring = middle.s.wiring)
    (destroyed : last.destroyed = middle.destroyed) :
    Gained p fd i status first last := by
  obtain ⟨valid, unregistered, closed, items, sockets, background, threads,
    connections, wired, alive⟩ := gained
  rw [← env] at items sockets background threads connections
  exact ⟨valid, unregistered, closed, items, sockets, background, threads,
    connections, wiring.trans wired, destroyed.trans alive⟩

end Gained

/-- How the search ends: no candidate is left, the origin answered at once, or a
connect is under way. -/
inductive Attempted (p : Ptr) (before : Ctx) : Ctx × SocksState → Prop
  | exhausted {after : Ctx} (unmoved : Unmoved before after) :
      Attempted p before (after, .requestWrite)
  | connected {after : Ctx} {fd : Fd}
      (gained : Gained p fd opNoop .connected before after) :
      Attempted p before (after, .requestWrite)
  | connecting {after : Ctx} {fd : Fd}
      (gained : Gained p fd opWrite .inProgress before after) :
      Attempted p before (after, .requestConnecting)

theorem Attempted.after {p : Ptr} {first middle : Ctx}
    {result : Ctx × SocksState} (attempted : Attempted p middle result)
    (unmoved : Unmoved first middle) :
    Attempted p first result := by
  cases attempted with
  | exhausted still => exact .exhausted (unmoved.trans still)
  | connected gained => exact .connected (gained.after unmoved)
  | connecting gained => exact .connecting (gained.after unmoved)

structure Sought (fd : Fd) (status : ConnectStatus) (before after : Ctx) :
    Prop where
  closed : before.env.kernel.socket fd = none
  selector : after.env.selector = before.env.selector
  sockets : ∀ other, after.env.kernel.socket other =
    if other = fd then some (.origin status) else before.env.kernel.socket other
  background : after.env.background = before.env.background
  threads : after.env.threads = before.env.threads
  connections : after.env.connections = before.env.connections
  object : after.s = before.s
  destroyed : after.destroyed = before.destroyed

theorem opened_openOrigin (c : Ctx) :
    Sought c.openOrigin.1 .unconnected c c.openOrigin.2 where
  closed := Kernel.socket_openSocket_fst _ (.origin .unconnected)
  selector := rfl
  sockets := Kernel.socket_openSocket _ _
  background := rfl
  threads := rfl
  connections := rfl
  object := rfl
  destroyed := rfl

/-- What `connect` makes of the socket. -/
def connectStatus (e : Errno) : ConnectStatus :=
  if e = 0 then .connected
  else if e = eInProgress ∨ e = eIntr then .inProgress
  else .failed e

namespace Sought

variable {fd : Fd} {status : ConnectStatus} {before after : Ctx}

theorem connect (opened : Sought fd status before after) (address : SockAddr)
    (e : Errno) :
    Sought fd (connectStatus e) before (after.connect fd address e) := by
  have held : after.env.kernel.socket fd = some (.origin status) := by
    rw [opened.sockets, if_pos rfl]
  refine ⟨opened.closed, opened.selector, fun other => ?_, ?_, opened.threads,
    opened.connections, opened.object, opened.destroyed⟩
  · refine (Kernel.socket_setStatus held _ other).trans ?_
    rw [opened.sockets]
    split
    · rfl
    · rfl
  · refine Eq.trans ?_ opened.background
    simp only [Env.background, Ctx.connect, Kernel.ebadf_setStatus]

theorem close (opened : Sought fd status before after) :
    Unmoved before (after.closeFd fd) := by
  have held : after.env.kernel.socket fd = some (.origin status) := by
    rw [opened.sockets, if_pos rfl]
  refine ⟨fun other => ⟨?_, ?_⟩, ?_, opened.threads, opened.connections, ?_,
    opened.destroyed⟩
  · exact congrArg (Selector.items · other) opened.selector
  · refine (Kernel.socket_close ..).trans ?_
    rw [opened.sockets]
    split
    next same => rw [same, opened.closed]
    next => rfl
  · refine Eq.trans ?_ opened.background
    simp only [Env.background, Ctx.closeFd, Kernel.ebadf_close held]
  · exact congrArg Socks5.wiring opened.object

theorem register (opened : Sought fd status before after) (key : Key)
    (i : Interest) :
    Unmoved before (registerOrigin key after fd i).1 ∧
        (registerOrigin key after fd i).2 = false ∨
      Gained key.data fd i status before (registerOrigin key after fd i).1 ∧
        (registerOrigin key after fd i).2 = true := by
  unfold registerOrigin selectorRegister
  cases valid : invalidFd fd with
  | true => exact .inl ⟨opened.close, rfl⟩
  | false =>
      cases free : after.env.selector.items fd with
      | some item => exact .inl ⟨opened.close, rfl⟩
      | none =>
          refine .inr
            ⟨⟨valid, opened.selector ▸ free, opened.closed, fun other => ?_,
            opened.sockets, opened.background, opened.threads,
            opened.connections, ?_, opened.destroyed⟩, rfl⟩
          · rw [← opened.selector]
            rfl
          · rw [← opened.object]
            rfl

end Sought

inductive Tried (p : Ptr) (before : Ctx) : Ctx × Option SocksState → Prop
  | failed {after : Ctx} (unmoved : Unmoved before after) :
      Tried p before (after, none)
  | ended {after : Ctx} {next : SocksState}
      (attempted : Attempted p before (after, next)) :
      Tried p before (after, some next)

theorem tried_tryCandidate (key : Key) (a : Answers) (c : Ctx) :
    Tried key.data c (tryCandidate key a c) := by
  unfold tryCandidate
  dsimp only
  have opened := opened_openOrigin c
  have connected := opened.connect ((c.s.addrs[c.s.addrIdx]?).getD default)
    (a.attempt c.s.addrIdx).connect
  split
  · exact .failed (.inside rfl rfl rfl)
  · split
    · exact .failed (opened.close.trans (.inside rfl rfl rfl))
    · split
      next success =>
        rw [success, show connectStatus 0 = .connected from rfl] at connected
        rw [success]
        rcases connected.register key opNoop with ⟨unmoved, refused⟩ |
          ⟨gained, registered⟩
        · split
          next found =>
            rw [found] at refused
            cases refused
          next found =>
            rw [found] at unmoved
            exact .failed (unmoved.trans (.inside rfl rfl rfl))
        · split
          next found =>
            rw [found] at gained
            exact .ended (.connected (gained.inside rfl rfl rfl))
          next found =>
            rw [found] at registered
            cases registered
      next failure =>
        split
        next waiting =>
          rw [connectStatus, if_neg failure, if_pos waiting] at connected
          rcases connected.register key opWrite with ⟨unmoved, refused⟩ |
            ⟨gained, registered⟩
          · split
            next found =>
              rw [found] at refused
              cases refused
            next found =>
              rw [found] at unmoved
              exact .failed (unmoved.trans (.inside rfl rfl rfl))
          · split
            next found =>
              rw [found] at gained
              exact .ended (.connecting gained)
            next found =>
              rw [found] at registered
              cases registered
        next => exact .failed (connected.close.trans (.inside rfl rfl rfl))

theorem attempted_tryCandidates (key : Key) (a : Answers) (left : Nat)
    (c : Ctx) :
    Attempted key.data c (tryCandidates key a left c) := by
  induction left generalizing c with
  | zero =>
      unfold tryCandidates
      split
      · exact .exhausted (.inside rfl rfl rfl)
      · exact .exhausted (.inside rfl rfl rfl)
  | succ left induction =>
      have tried := tried_tryCandidate key a c
      unfold tryCandidates
      split
      next found =>
        rw [found] at tried
        cases tried with
        | ended attempted => exact attempted
      next found =>
        rw [found] at tried
        cases tried with
        | failed unmoved => exact (induction _).after unmoved

theorem attempted_startConnection (key : Key) (a : Answers) (c : Ctx) :
    Attempted key.data c (startConnection key a c) := by
  apply Attempted.after (attempted_tryCandidates key a _ _)
  exact .inside rfl rfl rfl

end SocksProxy
