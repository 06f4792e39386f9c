import SocksProxy.Socks5.Copying

/-! How a connection is tied to the selector, to the kernel and to its blocks
between two calls of its handlers. -/

namespace SocksProxy

def Owned (p : Ptr) (env : Env) (fd : Fd) : Prop :=
  ∃ i, env.selector.items fd = some ⟨i, .socks5, p⟩

structure Wiring where
  clientFd : Fd
  originFd : Option Fd
  references : Nat
  resolving : Bool
  notifyFd : Fd
  conn : Ptr
  rawRead : Option Nat
  rawWrite : Option Nat
  bufferSize : Nat
  readLimit : Nat
  writeLimit : Nat

def Socks5.wiring (s : Socks5) : Wiring where
  clientFd := s.clientFd
  originFd := s.originFd
  references := s.references
  resolving := s.resolving
  notifyFd := s.dns.notifyFd
  conn := s.dns.conn
  rawRead := s.rawRead
  rawWrite := s.rawWrite
  bufferSize := s.bufferSize
  readLimit := s.readBuffer.limit
  writeLimit := s.writeBuffer.limit

structure Wiring.Fitted (w : Wiring) : Prop where
  rawRead : w.rawRead = some w.bufferSize
  rawWrite : w.rawWrite = some w.bufferSize
  readLimit : w.readLimit = w.bufferSize
  writeLimit : w.writeLimit = w.bufferSize

/-- The descriptors of a connection: open, registered, counted, and no
others. -/
structure Held (p : Ptr) (env : Env) (w : Wiring) : Prop where
  client : Registered p env w.clientFd
  accepted : env.kernel.socket w.clientFd = some .accepted
  origin : ∀ fd ∈ w.originFd, Registered p env fd ∧ fd ≠ w.clientFd
  connects : ∀ fd ∈ w.originFd, ∃ status,
    env.kernel.socket fd = some (.origin status)
  only : ∀ fd, Owned p env fd → fd = w.clientFd ∨ fd ∈ w.originFd
  references : w.references = if w.originFd.isSome then 2 else 1

/-- The states before the first connect attempt. -/
def SocksState.early : SocksState → Bool
  | .helloRead | .helloWrite | .authRead | .authWrite | .requestRead
  | .requestResolv => true
  | _ => false

structure Wiring.Shaped (p : Ptr) (st : SocksState) (w : Wiring) : Prop where
  resolving : w.resolving = decide (st = .requestResolv)
  request : st = .requestResolv → w.notifyFd = w.clientFd ∧ w.conn = p
  early : st.early = true → w.originFd = none
  connecting : st = .requestConnecting → w.originFd.isSome

/-- The interests that a connection has in a state. -/
def Socks5.interestOfClient (s : Socks5) : SocksState → Interest
  | .helloRead | .authRead | .requestRead => opRead
  | .helloWrite | .authWrite | .requestWrite => opWrite
  | .copy => clientInterest s
  | _ => opNoop

def Socks5.interestOfOrigin (s : Socks5) : SocksState → Interest
  | .requestConnecting => opWrite
  | .copy => originInterest s
  | _ => opNoop

structure Tuned (p : Ptr) (st : SocksState) (env : Env) (s : Socks5) :
    Prop where
  client : env.selector.items s.clientFd =
    some ⟨s.interestOfClient st, .socks5, p⟩
  origin : ∀ fd ∈ s.originFd, env.selector.items fd =
    some ⟨s.interestOfOrigin st, .socks5, p⟩

structure Wired (p : Ptr) (env : Env) (s : Socks5) : Prop where
  held : Held p env s.wiring
  shaped : s.wiring.Shaped p s.state
  tuned : Tuned p s.state env s
  lasts : ¬ s.state.closing

theorem Held.hosts {p : Ptr} {env : Env} {s : Socks5}
    (held : Held p env s.wiring) :
    Hosts p env s :=
  ⟨held.client, held.origin⟩

theorem Registered.owned {p : Ptr} {env : Env} {fd : Fd}
    (registered : Registered p env fd) : Owned p env fd := registered.2

structure Background where
  slaveR : Fd → Bool
  slaveW : Fd → Bool
  jobs : List Job
  config : ProxyConfig
  users : UserTable
  ebadf : Nat

def Env.background (env : Env) : Background where
  slaveR := env.selector.slaveR
  slaveW := env.selector.slaveW
  jobs := env.selector.resolutionJobs
  config := env.config
  users := env.users
  ebadf := env.kernel.ebadf

def Env.threads (env : Env) : List Resolver × Nat :=
  (env.resolvers, env.nextTicket)

def Env.connections (env : Env) : Nat := env.metrics.currentConnections

/-- A descriptor is free, or it is an open one of the connection at `p`. -/
def Mine (p : Ptr) (env : Env) (fd : Fd) : Prop :=
  env.selector.items fd = none ∧ env.kernel.socket fd = none ∨
    Owned p env fd ∧ (env.kernel.socket fd = some .accepted ∨
      ∃ status, env.kernel.socket fd = some (.origin status))

def Env.SameSlot (before after : Env) (fd : Fd) : Prop :=
  after.selector.items fd = before.selector.items fd ∧
    after.kernel.socket fd = before.kernel.socket fd

/-- Only descriptors of the connection at `p`, or free ones, were changed, and
they are of that kind again. -/
structure Frame (p : Ptr) (before after : Env) : Prop where
  slots : ∀ fd, before.SameSlot after fd ∨ Mine p before fd ∧ Mine p after fd
  background : after.background = before.background

namespace Frame

variable {p : Ptr}

theorem refl (env : Env) : Frame p env env := ⟨fun _ => .inl ⟨rfl, rfl⟩, rfl⟩

private theorem mine_of_same {before after : Env} {fd : Fd}
    (same : before.SameSlot after fd) : Mine p after fd ↔ Mine p before fd := by
  unfold Mine Owned
  rw [same.1, same.2]

theorem trans {first middle last : Env} (left : Frame p first middle)
    (right : Frame p middle last) : Frame p first last := by
  refine ⟨?_, right.background.trans left.background⟩
  intro fd
  rcases left.slots fd with same | ⟨before, between⟩
  · rcases right.slots fd with still | ⟨between, after⟩
    · exact .inl ⟨still.1.trans same.1, still.2.trans same.2⟩
    · exact .inr ⟨(mine_of_same same).mp between, after⟩
  · rcases right.slots fd with still | ⟨-, after⟩
    · exact .inr ⟨before, (mine_of_same still).mpr between⟩
    · exact .inr ⟨before, after⟩

end Frame

structure Calm (p : Ptr) (before after : Env) : Prop where
  items : ∀ fd, after.selector.items fd = before.selector.items fd ∨
    Owned p before fd ∧ Owned p after fd
  sockets : ∀ fd, after.kernel.socket fd = before.kernel.socket fd
  background : after.background = before.background
  threads : after.threads = before.threads
  connections : after.connections = before.connections

namespace Calm

variable {p : Ptr} {before after : Env}

theorem refl (env : Env) : Calm p env env :=
  ⟨fun _ => .inl rfl, fun _ => rfl, rfl, rfl, rfl⟩

theorem owned_iff (calm : Calm p before after) (fd : Fd) :
    Owned p after fd ↔ Owned p before fd := by
  rcases calm.items fd with same | ⟨left, right⟩
  · unfold Owned
    rw [same]
  · exact ⟨fun _ => left, fun _ => right⟩

theorem trans {last : Env} (left : Calm p before after)
    (right : Calm p after last) :
    Calm p before last := by
  refine ⟨?_, fun fd => (right.sockets fd).trans (left.sockets fd),
    right.background.trans left.background, right.threads.trans left.threads,
    right.connections.trans left.connections⟩
  intro fd
  rcases right.items fd with same | ⟨middle, last⟩
  · rw [same]
    rcases left.items fd with still | ⟨before, _⟩
    · exact .inl still
    · exact .inr ⟨before, by
        unfold Owned
        rw [same]
        exact (left.owned_iff fd).mpr before⟩
  · exact .inr ⟨(left.owned_iff fd).mp middle, last⟩

theorem registered_iff (calm : Calm p before after) (fd : Fd) :
    Registered p after fd ↔ Registered p before fd :=
  and_congr_right fun _ => calm.owned_iff fd

theorem held (calm : Calm p before after) {w : Wiring}
    (held : Held p before w) :
    Held p after w where
  client := (calm.registered_iff _).mpr held.client
  accepted := (calm.sockets _).trans held.accepted
  origin := fun fd origin =>
    ⟨(calm.registered_iff fd).mpr (held.origin fd origin).1,
      (held.origin fd origin).2⟩
  connects := fun fd origin => by
    obtain ⟨status, socket⟩ := held.connects fd origin
    exact ⟨status, (calm.sockets fd).trans socket⟩
  only := fun fd owned => held.only fd ((calm.owned_iff fd).mp owned)
  references := held.references

end Calm

theorem Held.mine {p : Ptr} {env : Env} {w : Wiring} (held : Held p env w)
    {fd : Fd} (owned : Owned p env fd) : Mine p env fd := by
  refine .inr ⟨owned, ?_⟩
  rcases held.only fd owned with rfl | origin
  · exact .inl held.accepted
  · exact .inr (held.connects fd origin)

theorem Calm.frame {p : Ptr} {before after : Env} (calm : Calm p before after)
    {w : Wiring} (held : Held p before w) : Frame p before after := by
  refine ⟨?_, calm.background⟩
  intro fd
  rcases calm.items fd with same | ⟨left, right⟩
  · exact .inl ⟨same, calm.sockets fd⟩
  · exact .inr ⟨held.mine left, (calm.held held).mine right⟩

structure Quiet (p : Ptr) (before after : Ctx) : Prop where
  env : Calm p before.env after.env
  wiring : after.s.wiring = before.s.wiring
  destroyed : after.destroyed = before.destroyed

namespace Quiet

variable {p : Ptr} {before after : Ctx}

theorem refl (c : Ctx) : Quiet p c c := ⟨.refl _, rfl, rfl⟩

theorem trans {last : Ctx} (left : Quiet p before after)
    (right : Quiet p after last) :
    Quiet p before last :=
  ⟨left.env.trans right.env, right.wiring.trans left.wiring,
    right.destroyed.trans left.destroyed⟩

theorem held (quiet : Quiet p before after)
    (held : Held p before.env before.s.wiring) :
    Held p after.env after.s.wiring := by
  rw [quiet.wiring]
  exact quiet.env.held held

theorem inside (env : after.env = before.env)
    (wiring : after.s.wiring = before.s.wiring)
    (destroyed : after.destroyed = before.destroyed) : Quiet p before after :=
  ⟨env ▸ .refl _, wiring, destroyed⟩

end Quiet

theorem setInterest_owned {p : Ptr} {c : Ctx} {fd : Fd}
    (registered : Registered p c.env fd) (i : Interest) :
    (c.setInterest fd i).2 = .success ∧
      ∀ other, (c.setInterest fd i).1.env.selector.items other =
        if other = fd then some ⟨i, .socks5, p⟩
        else c.env.selector.items other := by
  obtain ⟨valid, before, item⟩ := registered
  unfold Ctx.setInterest selectorSetInterest
  rw [valid, item]
  exact ⟨rfl, fun other => rfl⟩

theorem quiet_setInterest {p : Ptr} {c : Ctx} {fd : Fd}
    (registered : Registered p c.env fd) (i : Interest) :
    Quiet p c (c.setInterest fd i).1 := by
  have items := (setInterest_owned registered i).2
  have rest : (c.setInterest fd i).1.env.background = c.env.background := by
    obtain ⟨valid, before, item⟩ := registered
    simp only [Ctx.setInterest, selectorSetInterest, valid, item]
    rfl
  refine ⟨⟨?_, fun _ => rfl, rest, rfl, rfl⟩, rfl, rfl⟩
  intro other
  rw [items]
  split
  next same =>
    refine .inr ⟨same ▸ registered.owned, i, ?_⟩
    rw [items, if_pos same]
  next => exact .inl rfl

theorem setInterestOrFail_owned {p : Ptr} {c : Ctx}
    (registered : Registered p c.env c.s.clientFd) (i : Interest)
    (next : SocksState) :
    setInterestOrFail c i next = ((c.setInterest c.s.clientFd i).1, next) := by
  have success := (setInterest_owned registered i).1
  unfold setInterestOrFail
  split
  next found => rw [found]
  next failed found =>
    rw [found] at success
    exact (failed success).elim

structure Freed (fd : Fd) (before after : Env) : Prop where
  items : ∀ other, after.selector.items other =
    if other = fd then none else before.selector.items other
  sockets : ∀ other, after.kernel.socket other =
    if other = fd then none else before.kernel.socket other

theorem unregister_freed {key : Key} {fd : Fd} {c after : Ctx}
    (unregistered : selectorUnregisterFd key fd c = some after) :
    ¬ Registered key.data c.env fd ∧ after = c ∨ Freed fd c.env after.env := by
  unfold selectorUnregisterFd at unregistered
  split at unregistered
  next invalid =>
    cases unregistered
    exact .inl ⟨fun registered => by simp [registered.1] at invalid, rfl⟩
  next =>
    split at unregistered
    next free =>
      cases unregistered
      refine .inl ⟨?_, rfl⟩
      rintro ⟨-, i, item⟩
      rw [free] at item
      cases item
    next =>
      split at unregistered
      next =>
        obtain ⟨closed, closing, rfl⟩ := Option.map_eq_some_iff.mp unregistered
        have env : closed.env.selector = c.env.selector ∧
            closed.env.kernel = c.env.kernel.close fd := by
          unfold socksv5Close at closing
          split at closing
          · cases closing
          · dsimp only at closing
            split at closing <;>
              · cases closing
                exact ⟨rfl, rfl⟩
        obtain ⟨selector, kernel⟩ := env
        refine .inr ⟨fun other => ?_, fun other => ?_⟩
        · rw [← selector]
          rfl
        · rw [← Kernel.socket_close, ← kernel]
      next => cases unregistered

structure Dropped (fd : Fd) (before after : Ctx) : Prop where
  items : ∀ other, after.env.selector.items other =
    if other = fd then none else before.env.selector.items other
  sockets : ∀ other, after.env.kernel.socket other =
    if other = fd then none else before.env.kernel.socket other
  background : after.env.background = before.env.background
  threads : after.env.threads = before.env.threads
  connections : after.env.connections =
    if before.s.references - 1 = 0 then before.env.connections - 1
    else before.env.connections
  object : after.s = { before.s with references := before.s.references - 1 }
  destroyed : after.destroyed = decide (before.s.references - 1 = 0)

theorem unregister_owned {key : Key} {fd : Fd} {c : Ctx} {socket : Socket}
    (registered : Registered key.data c.env fd)
    (opened : c.env.kernel.socket fd = some socket)
    (alive : c.destroyed = false) :
    ∃ after, selectorUnregisterFd key fd c = some after ∧
      Dropped fd c after := by
  obtain ⟨valid, i, item⟩ := registered
  have ebadf := Kernel.ebadf_close opened
  unfold selectorUnregisterFd
  rw [valid, item]
  simp only [Bool.false_eq_true, if_false, and_self, if_true]
  unfold socksv5Close
  rw [alive]
  simp only [Bool.false_eq_true, if_false]
  split
  next last =>
    have last : c.s.references - 1 = 0 := last
    refine ⟨_, rfl, fun _ => rfl, Kernel.socket_close _ _, ?_, rfl, ?_, rfl, ?_⟩
    · simp only [Env.background, Ctx.closeFd, ebadf]
      rfl
    · exact (currentConnections_closed _).trans (if_pos last).symm
    · rw [decide_eq_true last]
  next more =>
    have more : c.s.references - 1 ≠ 0 := more
    refine ⟨_, rfl, fun _ => rfl, Kernel.socket_close _ _, ?_, rfl, ?_, rfl, ?_⟩
    · simp only [Env.background, Ctx.closeFd, ebadf]
      rfl
    · exact (if_neg more).symm
    · rw [decide_eq_false more]
      exact alive

namespace Dropped

variable {p : Ptr} {fd : Fd} {before after : Ctx}

theorem owned_iff (dropped : Dropped fd before after) (other : Fd) :
    Owned p after.env other ↔ other ≠ fd ∧ Owned p before.env other := by
  unfold Owned
  rw [dropped.items]
  by_cases same : other = fd
  · simp [same]
  · simp [same]

theorem registered (dropped : Dropped fd before after) {other : Fd}
    (registered : Registered p before.env other) (apart : other ≠ fd) :
    Registered p after.env other :=
  ⟨registered.1, (dropped.owned_iff other).mpr ⟨apart, registered.owned⟩⟩

theorem frame (dropped : Dropped fd before after)
    (mine : Mine p before.env fd) :
    Frame p before.env after.env := by
  refine ⟨fun other => ?_, dropped.background⟩
  by_cases same : other = fd
  · refine .inr ⟨same ▸ mine, .inl ⟨?_, ?_⟩⟩
    · rw [dropped.items, if_pos same]
    · rw [dropped.sockets, if_pos same]
  · refine .inl ⟨?_, ?_⟩
    · rw [dropped.items, if_neg same]
    · rw [dropped.sockets, if_neg same]

end Dropped

end SocksProxy
