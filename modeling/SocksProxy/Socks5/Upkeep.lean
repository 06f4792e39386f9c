import SocksProxy.Socks5.Attempts

/-! Every handler of a connection leaves it tied to the selector, to the kernel
and to its blocks as its next state needs. -/

namespace SocksProxy

def Wiring.blocks (w : Wiring) : Option Nat × Option Nat × Nat × Nat × Nat :=
  (w.rawRead, w.rawWrite, w.bufferSize, w.readLimit, w.writeLimit)

theorem Wiring.Fitted.of_blocks {before after : Wiring} (fitted : before.Fitted)
    (same : after.blocks = before.blocks) : after.Fitted := by
  simp only [Wiring.blocks, Prod.mk.injEq] at same
  obtain ⟨rawRead, rawWrite, bufferSize, readLimit, writeLimit⟩ := same
  exact ⟨by rw [rawRead, bufferSize, fitted.rawRead],
    by rw [rawWrite, bufferSize, fitted.rawWrite],
    by rw [readLimit, bufferSize, fitted.readLimit],
    by rw [writeLimit, bufferSize, fitted.writeLimit]⟩

def launched (p : Ptr) (threads : List Resolver × Nat) : List Resolver × Nat :=
  (threads.1 ++ [⟨p, threads.2, none⟩], threads.2 + 1)

/-- A connection that is about to be in `next`, with its interests set when
`tuned` says so. -/
structure Moved (p : Ptr) (next : SocksState) (tuned : Prop)
    (before after : Ctx) :
    Prop where
  held : Held p after.env after.s.wiring
  shaped : after.s.wiring.Shaped p next
  tuned : tuned → Tuned p next after.env after.s
  frame : Frame p before.env after.env
  threads : after.env.threads =
    if next = .requestResolv then launched p before.env.threads
    else before.env.threads
  connections : after.env.connections = before.env.connections
  blocks : after.s.wiring.blocks = before.s.wiring.blocks
  destroyed : after.destroyed = before.destroyed

/-- A handler of `st` that returns `next` sets the interests itself, unless an
arrival hook does. -/
def SocksState.arranged (st next : SocksState) : Prop :=
  ¬ next.closing ∧ (next = st ∨ (states next).onArrival.isNone)

structure Placed (p : Ptr) (st : SocksState) (c : Ctx) : Prop where
  held : Held p c.env c.s.wiring
  shaped : c.s.wiring.Shaped p st
  tuned : Tuned p st c.env c.s

theorem interestOfClient_eq {st : SocksState} (elsewhere : st ≠ .copy)
    (s t : Socks5) :
    s.interestOfClient st = t.interestOfClient st := by
  cases st <;> first | rfl | exact absurd rfl elsewhere

theorem interestOfOrigin_eq {st : SocksState} (elsewhere : st ≠ .copy)
    (s t : Socks5) :
    s.interestOfOrigin st = t.interestOfOrigin st := by
  cases st <;> first | rfl | exact absurd rfl elsewhere

theorem Tuned.kept {p : Ptr} {st : SocksState} {env : Env} {s t : Socks5}
    (tuned : Tuned p st env s) (elsewhere : st ≠ .copy)
    (same : t.wiring = s.wiring) :
    Tuned p st env t := by
  have clientFd : t.clientFd = s.clientFd := congrArg Wiring.clientFd same
  have originFd : t.originFd = s.originFd := congrArg Wiring.originFd same
  refine ⟨?_, fun fd origin => ?_⟩
  · rw [clientFd, interestOfClient_eq elsewhere t s]
    exact tuned.client
  · rw [originFd] at origin
    rw [interestOfOrigin_eq elsewhere t s]
    exact tuned.origin fd origin

theorem Wiring.Shaped.next {p : Ptr} {st next : SocksState} {w : Wiring}
    (shaped : w.Shaped p st) (known : st ≠ .requestResolv)
    (plain : next ≠ .requestResolv)
    (early : next.early = true → st.early = true)
    (settled : next ≠ .requestConnecting) :
    w.Shaped p next := by
  refine ⟨?_, fun same => absurd same plain,
    fun opening => shaped.early (early opening), fun same =>
      absurd same settled⟩
  rw [shaped.resolving, decide_eq_false known, decide_eq_false plain]

namespace Held

variable {p : Ptr} {env : Env} {before after : Wiring}

theorem rewire (held : Held p env before)
    (clientFd : after.clientFd = before.clientFd)
    (originFd : after.originFd = before.originFd)
    (references : after.references = before.references) : Held p env after := by
  obtain ⟨client, accepted, origin, connects, only, counted⟩ := held
  refine ⟨?_, ?_, ?_, ?_, ?_, ?_⟩
  · rwa [clientFd]
  · rwa [clientFd]
  · rwa [clientFd, originFd]
  · rwa [originFd]
  · rwa [clientFd, originFd]
  · rwa [references, originFd]

theorem aside {env' : Env} (held : Held p env before)
    (selector : env'.selector = env.selector)
    (kernel : env'.kernel = env.kernel) :
    Held p env' before := by
  obtain ⟨client, accepted, origin, connects, only, counted⟩ := held
  unfold Registered at client origin
  unfold Owned at only
  rw [← selector] at client origin only
  rw [← kernel] at accepted connects
  exact ⟨client, accepted, origin, connects, only, counted⟩

end Held

namespace Moved

variable {p : Ptr} {st next : SocksState} {tuned : Prop}
  {first middle last : Ctx}

theorem after (moved : Moved p next tuned middle last)
    (frame : Frame p first.env middle.env)
    (threads : middle.env.threads = first.env.threads)
    (connections : middle.env.connections = first.env.connections)
    (blocks : middle.s.wiring.blocks = first.s.wiring.blocks)
    (destroyed : middle.destroyed = first.destroyed) :
    Moved p next tuned first last where
  held := moved.held
  shaped := moved.shaped
  tuned := moved.tuned
  frame := frame.trans moved.frame
  threads := by rw [moved.threads, threads]
  connections := moved.connections.trans connections
  blocks := moved.blocks.trans blocks
  destroyed := moved.destroyed.trans destroyed

theorem after_quiet (moved : Moved p next tuned middle last)
    (quiet : Quiet p first middle) (held : Held p first.env first.s.wiring) :
    Moved p next tuned first last :=
  moved.after (quiet.env.frame held) quiet.env.threads quiet.env.connections
    (by rw [quiet.wiring]) quiet.destroyed

theorem of_quiet (quiet : Quiet p first last)
    (held : Held p first.env first.s.wiring)
    (shaped : first.s.wiring.Shaped p next) (plain : next ≠ .requestResolv)
    (tunes : tuned → Tuned p next last.env last.s) :
    Moved p next tuned first last where
  held := quiet.held held
  shaped := quiet.wiring ▸ shaped
  tuned := tunes
  frame := quiet.env.frame held
  threads := by rw [if_neg plain, quiet.env.threads]
  connections := quiet.env.connections
  blocks := by rw [quiet.wiring]
  destroyed := quiet.destroyed

end Moved

namespace Placed

variable {p : Ptr} {st next : SocksState} {before after : Ctx}

theorem inside (placed : Placed p st before) (elsewhere : st ≠ .copy)
    (env : after.env = before.env) (wiring : after.s.wiring = before.s.wiring) :
    Placed p st after := by
  refine ⟨?_, ?_, ?_⟩
  · rw [env, wiring]
    exact placed.held
  · rw [wiring]
    exact placed.shaped
  · rw [env]
    exact placed.tuned.kept elsewhere wiring

theorem stays (placed : Placed p st before) (elsewhere : st ≠ .copy)
    (known : st ≠ .requestResolv) (quiet : Quiet p before after)
    (env : after.env = before.env) :
    Moved p st (st.arranged st) before after := by
  refine .of_quiet quiet placed.held placed.shaped known fun _ => ?_
  rw [env]
  exact placed.tuned.kept elsewhere quiet.wiring

theorem fails {tuned : Prop} (placed : Placed p st before)
    (known : st ≠ .requestResolv) (quiet : Quiet p before after)
    (closing : next.closing) (never : ¬ tuned) :
    Moved p next tuned before after := by
  refine .of_quiet quiet placed.held ?_ ?_ fun tuned => absurd tuned never
  · refine placed.shaped.next known ?_ ?_ ?_
    · rcases closing with rfl | rfl <;> simp
    · rcases closing with rfl | rfl <;> simp [SocksState.early]
    · rcases closing with rfl | rfl <;> simp
  · rcases closing with rfl | rfl <;> simp

end Placed

theorem not_arranged_closing {st next : SocksState} (closing : next.closing) :
    ¬ st.arranged next := fun arranged => arranged.1 closing

section Handshake

variable {p : Ptr} {st : SocksState} {c : Ctx} {result : Ctx × SocksState}

theorem moved_setInterestOrFail {middle : Ctx} {i : Interest}
    {next : SocksState} (placed : Placed p st c) (early : st.early = true)
    (known : st ≠ .requestResolv) (env : middle.env = c.env)
    (wiring : middle.s.wiring = c.s.wiring)
    (destroyed : middle.destroyed = c.destroyed) (opens : next.early = true)
    (plain : next ≠ .requestResolv)
    (asks : ∀ s : Socks5, s.interestOfClient next = i) :
    Moved p (setInterestOrFail middle i next).2
      (st.arranged (setInterestOrFail middle i next).2) c
      (setInterestOrFail middle i next).1 := by
  have inside : Quiet p c middle := .inside env wiring destroyed
  have registered : Registered p middle.env middle.s.clientFd :=
    (inside.held placed.held).client
  have quiet := inside.trans (quiet_setInterest registered i)
  rw [setInterestOrFail_owned registered]
  refine .of_quiet quiet placed.held ?_ plain fun _ => ⟨?_, ?_⟩
  · refine placed.shaped.next known plain (fun _ => early) ?_
    rintro rfl
    cases opens
  · rw [Ctx.setInterest_s, (setInterest_owned registered i).2, if_pos rfl, asks]
  · intro fd origin
    have none : middle.s.originFd = none :=
      (congrArg Wiring.originFd wiring).trans (placed.shaped.early early)
    rw [Ctx.setInterest_s, none] at origin
    cases origin

theorem moved_readEffect {Parser : Type} {feed : Parser → UInt8 → Parser}
    {finished : Parser → Bool} {parser : Parser}
    {store : Ctx → Parser → Buffer → Ctx} {complete : Ctx → Ctx × SocksState}
    (placed : Placed p st c) (elsewhere : st ≠ .copy)
    (known : st ≠ .requestResolv)
    (stores : ∀ c q buffer, buffer.limit = c.s.readBuffer.limit →
      (store c q buffer).env = c.env ∧
      (store c q buffer).s.wiring = c.s.wiring ∧
        (store c q buffer).destroyed = c.destroyed)
    (completes : ∀ after : Ctx, after.env = c.env →
      after.s.wiring = c.s.wiring →
      after.destroyed = c.destroyed →
      Moved p (complete after).2 (st.arranged (complete after).2) c
        (complete after).1)
    (effect : ReadEffect feed finished parser store st complete c result) :
    Moved p result.2 (st.arranged result.2) c result.1 := by
  cases effect with
  | again e => exact placed.stays elsewhere known (.inside rfl rfl rfl) rfl
  | failed e =>
      exact placed.fails known (.inside rfl rfl rfl) (.inr rfl)
        (not_arranged_closing (.inr rfl))
  | closed =>
      exact placed.fails known (.inside rfl rfl rfl) (.inr rfl)
        (not_arranged_closing (.inr rfl))
  | @partly octets parser buffer some fits scanned content limit =>
      obtain ⟨env, wiring, destroyed⟩ :=
        stores (c.call (.recv c.s.clientFd octets)) parser buffer limit
      exact placed.stays elsewhere known (.inside env wiring destroyed) env
  | @completed octets rest parser buffer some fits scanned content limit =>
      obtain ⟨env, wiring, destroyed⟩ :=
        stores (c.call (.recv c.s.clientFd octets)) parser buffer limit
      exact completes _ env wiring destroyed

theorem wiring_writeBuffer {s : Socks5} {buffer : Buffer}
    (limit : buffer.limit = s.writeBuffer.limit) :
    Socks5.wiring { s with writeBuffer := buffer } = s.wiring := by
  simp only [Socks5.wiring, limit]

theorem wiring_readBuffer {s : Socks5} {buffer : Buffer}
    (limit : buffer.limit = s.readBuffer.limit) :
    Socks5.wiring { s with readBuffer := buffer } = s.wiring := by
  simp only [Socks5.wiring, limit]

theorem moved_writeEffect {complete : Ctx → Ctx × SocksState}
    (placed : Placed p st c) (elsewhere : st ≠ .copy)
    (known : st ≠ .requestResolv)
    (completes : ∀ after : Ctx, after.env = c.env →
      after.s.wiring = c.s.wiring →
      after.destroyed = c.destroyed →
      Moved p (complete after).2 (st.arranged (complete after).2) c
        (complete after).1) (effect : WriteEffect st complete c result) :
    Moved p result.2 (st.arranged result.2) c result.1 := by
  cases effect with
  | again e => exact placed.stays elsewhere known (.inside rfl rfl rfl) rfl
  | failed e =>
      exact placed.fails known (.inside rfl rfl rfl) (.inr rfl)
        (not_arranged_closing (.inr rfl))
  | partly split content remains limit =>
      exact placed.stays elsewhere known
        (.inside rfl (wiring_writeBuffer limit) rfl) rfl
  | flushed content limit =>
      exact completes _ rfl (wiring_writeBuffer limit) rfl

theorem moved_helloRead (key : Key) (a : Answers)
    (placed : Placed p .helloRead c) :
    Moved p (helloRead key a c).2
      (SocksState.helloRead.arranged (helloRead key a c).2) c
      (helloRead key a c).1 := by
  refine moved_readEffect placed (by simp) (by simp) ?_ ?_
    (helloRead_effect key a c)
  · exact fun _ _ _ limit => ⟨rfl, wiring_readBuffer limit, rfl⟩
  · intro after env wiring destroyed
    unfold helloCompleted
    split
    · exact placed.fails (by simp) (.inside env wiring destroyed) (.inr rfl)
        (not_arranged_closing (.inr rfl))
    · refine moved_setInterestOrFail placed rfl (by simp) env ?_ destroyed
        rfl (by simp)
        fun _ => rfl
      rw [← wiring]
      exact wiring_writeBuffer (by simp)

theorem moved_helloWrite (key : Key) (a : Answers)
    (placed : Placed p .helloWrite c) :
    Moved p (helloWrite key a c).2
      (SocksState.helloWrite.arranged (helloWrite key a c).2) c
      (helloWrite key a c).1 := by
  refine moved_writeEffect placed (by simp) (by simp) ?_
    (helloWrite_effect key a c)
  intro after env wiring destroyed
  split
  · exact placed.fails (by simp) (.inside env wiring destroyed) (.inl rfl)
      (not_arranged_closing (.inl rfl))
  · split
    · exact moved_setInterestOrFail placed rfl (by simp) env wiring destroyed
        rfl (by simp)
        fun _ => rfl
    · exact moved_setInterestOrFail placed rfl (by simp) env wiring destroyed
        rfl (by simp)
        fun _ => rfl

theorem moved_authRead (key : Key) (a : Answers)
    (placed : Placed p .authRead c) :
    Moved p (authRead key a c).2
      (SocksState.authRead.arranged (authRead key a c).2) c
      (authRead key a c).1 := by
  refine moved_readEffect placed (by simp) (by simp) ?_ ?_
    (authRead_effect key a c)
  · exact fun _ _ _ limit => ⟨rfl, wiring_readBuffer limit, rfl⟩
  · intro after env wiring destroyed
    unfold authCompleted
    split
    · exact placed.fails (by simp) (.inside env wiring destroyed) (.inr rfl)
        (not_arranged_closing (.inr rfl))
    · refine moved_setInterestOrFail placed rfl (by simp) env ?_ destroyed
        rfl (by simp)
        fun _ => rfl
      rw [← wiring]
      exact wiring_writeBuffer (by simp)

theorem moved_authWrite (key : Key) (a : Answers)
    (placed : Placed p .authWrite c) :
    Moved p (authWrite key a c).2
      (SocksState.authWrite.arranged (authWrite key a c).2) c
      (authWrite key a c).1 := by
  refine moved_writeEffect placed (by simp) (by simp) ?_
    (authWrite_effect key a c)
  intro after env wiring destroyed
  split
  · exact placed.fails (by simp) (.inside env wiring destroyed) (.inl rfl)
      (not_arranged_closing (.inl rfl))
  · exact moved_setInterestOrFail placed rfl (by simp) env wiring destroyed
      rfl (by simp)
      fun _ => rfl

end Handshake

section Attempts

variable {p : Ptr} {st : SocksState} {c : Ctx} {result : Ctx × SocksState}

/-- The new origin is one more descriptor of the connection. -/
theorem Gained.held {fd : Fd} {i : Interest} {status : ConnectStatus}
    {after : Ctx} (gained : Gained p fd i status c after)
    (held : Held p c.env c.s.wiring) (alone : c.s.originFd = none) :
    Held p after.env after.s.wiring := by
  obtain ⟨⟨valid, clientInterest, clientItem⟩, accepted, -, -, only,
    references⟩ := held
  have apart : c.s.clientFd ≠ fd := by
    rintro same
    rw [show c.s.wiring.clientFd = c.s.clientFd from rfl, same] at clientItem
    exact absurd (gained.unregistered.symm.trans clientItem) (by simp)
  have client : after.env.selector.items c.s.clientFd =
      some ⟨clientInterest, .socks5, p⟩ := by
    rw [gained.items, if_neg apart]
    exact clientItem
  have origin : after.env.selector.items fd = some ⟨i, .socks5, p⟩ := by
    rw [gained.items, if_pos rfl]
  rw [gained.wiring]
  refine ⟨⟨valid, clientInterest, client⟩, ?_, ?_, ?_, ?_, ?_⟩
  · exact ((gained.sockets _).trans (if_neg apart)).trans accepted
  · rintro other origin'
    cases origin'
    exact ⟨⟨gained.valid, i, origin⟩, apart.symm⟩
  · rintro other origin'
    cases origin'
    exact ⟨status, (gained.sockets _).trans (if_pos rfl)⟩
  · rintro other ⟨j, item⟩
    by_cases same : other = fd
    · exact .inr (congrArg some same.symm)
    · rw [gained.items, if_neg same] at item
      rcases only other ⟨j, item⟩ with client | origin'
      · exact .inl client
      · rw [show c.s.wiring.originFd = none from alone] at origin'
        cases origin'
  · rw [show c.s.wiring.originFd = none from alone] at references
    exact congrArg (· + 1) references

theorem Gained.frame {fd : Fd} {i : Interest} {status : ConnectStatus}
    {after : Ctx} (gained : Gained p fd i status c after) :
    Frame p c.env after.env := by
  refine ⟨fun other => ?_, gained.background⟩
  by_cases same : other = fd
  · refine .inr ⟨.inl ?_, .inr ⟨⟨i, ?_⟩, .inr ⟨status, ?_⟩⟩⟩
    · rw [same]
      exact ⟨gained.unregistered, gained.closed⟩
    · rw [gained.items, if_pos same]
    · rw [gained.sockets, if_pos same]
  · refine .inl ⟨?_, ?_⟩
    · rw [gained.items, if_neg same]
    · rw [gained.sockets, if_neg same]

private theorem moved_gained {fd : Fd} {i : Interest} {status : ConnectStatus}
    {after : Ctx} {next : SocksState} (gained : Gained p fd i status c after)
    (held : Held p c.env c.s.wiring) (alone : c.s.originFd = none)
    (resolved : c.s.resolving = false) (ends : next.connectResult)
    {tuned : Prop} (tunes : tuned → Tuned p next after.env after.s) :
    Moved p next tuned c after where
  held := gained.held held alone
  shaped := by
    rw [gained.wiring]
    refine ⟨?_, ?_, ?_, fun _ => rfl⟩
    · rcases ends with rfl | rfl <;> exact resolved
    · rcases ends with rfl | rfl <;> exact fun same => absurd same (by simp)
    · rcases ends with rfl | rfl <;> exact fun early => nomatch early
  tuned := tunes
  frame := gained.frame
  threads := by rcases ends with rfl | rfl <;> exact gained.threads
  connections := gained.connections
  blocks := by
    rw [gained.wiring]
    rfl
  destroyed := gained.destroyed

/-- The state after a search that began without an origin and without interest
in the client. -/
theorem moved_attempted (attempted : Attempted p c result)
    (held : Held p c.env c.s.wiring) (alone : c.s.originFd = none)
    (resolved : c.s.resolving = false)
    (quiet : c.env.selector.items c.s.clientFd = some ⟨opNoop, .socks5, p⟩)
    (elsewhere : st ≠ .requestWrite) :
    Moved p result.2 (st.arranged result.2) c result.1 := by
  have awaits : ¬ st.arranged .requestWrite := by
    rintro ⟨-, same | plain⟩
    · exact elsewhere same.symm
    · cases plain
  cases attempted with
  | exhausted unmoved =>
      have still : Quiet p c _ :=
        ⟨unmoved.calm p, unmoved.wiring, unmoved.destroyed⟩
      refine .of_quiet still held ⟨resolved, ?_, ?_, ?_⟩ (by simp)
        fun arranged => absurd arranged awaits
      · exact fun same => absurd same (by simp)
      · exact fun early => nomatch early
      · exact fun same => absurd same (by simp)
  | connected gained =>
      exact moved_gained gained held alone resolved (.inl rfl)
        fun arranged => absurd arranged awaits
  | @connecting after fd gained =>
      refine moved_gained gained held alone resolved (.inr rfl) fun _ =>
        ⟨?_, ?_⟩
      · have clientFd : after.s.clientFd = c.s.clientFd :=
          congrArg Wiring.clientFd gained.wiring
        have apart : c.s.clientFd ≠ fd := by
          rintro same
          rw [same, gained.unregistered] at quiet
          cases quiet
        rw [clientFd, gained.items, if_neg apart]
        exact quiet
      · have originFd : after.s.originFd = some fd :=
          congrArg Wiring.originFd gained.wiring
        intro other origin
        rw [originFd] at origin
        cases origin
        rw [gained.items, if_pos rfl]
        rfl

end Attempts

section Request

variable {key : Key} {a : Answers} {c : Ctx}

structure Unlinked (p : Ptr) (c : Ctx) : Prop where
  held : Held p c.env c.s.wiring
  alone : c.s.originFd = none
  resolved : c.s.resolving = false
  quiet : c.env.selector.items c.s.clientFd = some ⟨opNoop, .socks5, p⟩

theorem Unlinked.connects {p : Ptr} {st : SocksState} {before : Ctx}
    (unlinked : Unlinked key.data before) (same : key.data = p)
    (env : c.env = before.env) (clientFd : c.s.clientFd = before.s.clientFd)
    (originFd : c.s.originFd = before.s.originFd)
    (references : c.s.references = before.s.references)
    (resolving : c.s.resolving = before.s.resolving)
    (blocks : c.s.wiring.blocks = before.s.wiring.blocks)
    (destroyed : c.destroyed = before.destroyed)
    (elsewhere : st ≠ .requestWrite) :
    Moved p (startConnection key a c).2
      (st.arranged (startConnection key a c).2) before
      (startConnection key a c).1 := by
  subst same
  obtain ⟨held, alone, resolved, quiet⟩ := unlinked
  have moved : Moved key.data (startConnection key a c).2
      (st.arranged (startConnection key a c).2) c
      (startConnection key a c).1 := by
    refine moved_attempted (attempted_startConnection key a c) ?_
      (originFd.trans alone) (resolving.trans resolved) ?_ elsewhere
    · rw [env]
      exact held.rewire clientFd originFd references
    · rw [env, clientFd]
      exact quiet
  refine moved.after ?_ ?_ ?_ blocks destroyed
  · rw [env]
    exact .refl _
  · rw [env]
  · rw [env]

theorem Unlinked.answers {p : Ptr} {st : SocksState} {before : Ctx}
    (unlinked : Unlinked p before) (env : c.env = before.env)
    (clientFd : c.s.clientFd = before.s.clientFd)
    (originFd : c.s.originFd = before.s.originFd)
    (references : c.s.references = before.s.references)
    (resolving : c.s.resolving = before.s.resolving)
    (blocks : c.s.wiring.blocks = before.s.wiring.blocks)
    (destroyed : c.destroyed = before.destroyed)
    (elsewhere : st ≠ .requestWrite) :
    Moved p .requestWrite (st.arranged .requestWrite) before c where
  held := by
    rw [env]
    exact unlinked.held.rewire clientFd originFd references
  shaped := by
    refine ⟨resolving.trans unlinked.resolved, fun same => ?_, fun early => ?_,
      fun same => ?_⟩
    · cases same
    · cases early
    · cases same
  tuned := by
    rintro ⟨-, same | plain⟩
    · exact absurd same.symm elsewhere
    · cases plain
  frame := by
    rw [env]
    exact .refl _
  threads := by
    rw [env]
    rfl
  connections := by rw [env]
  blocks := blocks
  destroyed := destroyed

theorem moved_processRequest (unlinked : Unlinked key.data c) :
    Moved key.data (processRequest key a c).2
      (SocksState.requestRead.arranged (processRequest key a c).2) c
      (processRequest key a c).1 := by
  unfold processRequest
  dsimp only
  split
  · exact unlinked.answers rfl rfl rfl rfl rfl rfl rfl (by simp)
  · split
    · exact unlinked.connects rfl rfl rfl rfl rfl rfl rfl rfl (by simp)
    · split
      · exact unlinked.connects rfl rfl rfl rfl rfl rfl rfl rfl (by simp)
      · split
        · unfold dnsResolveAsync
          cases a.thread with
          | false =>
              exact unlinked.answers rfl rfl rfl rfl rfl rfl rfl (by simp)
          | true =>
              simp only [↓reduceIte]
              refine ⟨?_, ?_, ?_, ?_, rfl, rfl, rfl, rfl⟩
              · refine (unlinked.held.rewire ?_ ?_ ?_).aside ?_ ?_ <;> rfl
              · exact ⟨rfl, fun _ => ⟨rfl, rfl⟩, fun _ => unlinked.alone,
                  fun same => nomatch same⟩
              · rintro ⟨-, same | plain⟩
                · cases same
                · cases plain
              · exact ⟨fun fd => .inl ⟨rfl, rfl⟩, rfl⟩
        · exact unlinked.answers rfl rfl rfl rfl rfl rfl rfl (by simp)

theorem moved_requestRead (placed : Placed key.data .requestRead c) :
    Moved key.data (requestRead key a c).2
      (SocksState.requestRead.arranged (requestRead key a c).2) c
      (requestRead key a c).1 := by
  refine moved_readEffect placed (by simp) (by simp) ?_ ?_
    (requestRead_effect key a c)
  · exact fun _ _ _ limit => ⟨rfl, wiring_readBuffer limit, rfl⟩
  · intro after env wiring destroyed
    have inside : Quiet key.data c after := .inside env wiring destroyed
    have registered : Registered key.data after.env after.s.clientFd :=
      (inside.held placed.held).client
    have quiet := inside.trans (quiet_setInterest registered opNoop)
    have same := congrArg Wiring.originFd quiet.wiring
    have resolving := congrArg Wiring.resolving quiet.wiring
    have unlinked :
        Unlinked key.data (after.setInterest after.s.clientFd opNoop).1 := by
      refine ⟨quiet.held placed.held, ?_, ?_, ?_⟩
      · exact same.trans (placed.shaped.early rfl)
      · exact resolving.trans placed.shaped.resolving
      · rw [Ctx.setInterest_s, (setInterest_owned registered opNoop).2,
          if_pos rfl]
    unfold requestCompleted
    dsimp only
    split
    · refine Moved.after_quiet ?_ quiet placed.held
      exact unlinked.answers rfl rfl rfl rfl rfl rfl rfl (by simp)
    · exact (moved_processRequest unlinked).after_quiet quiet placed.held

theorem moved_resolvBlock (placed : Placed key.data .requestResolv c) :
    Moved key.data (resolvBlock key a c).2
      (SocksState.requestResolv.arranged (resolvBlock key a c).2) c
      (resolvBlock key a c).1 := by
  have alone : c.s.originFd = none := placed.shaped.early rfl
  have unlinked :
      Unlinked key.data { c with s := { c.s with resolving := false } } :=
    ⟨placed.held.rewire rfl rfl rfl, alone, rfl, placed.tuned.client⟩
  have resume {next : SocksState} {tuned : Prop} {after : Ctx}
      (moved :
        Moved key.data next tuned
        { c with s := { c.s with resolving := false } }
        after) : Moved key.data next tuned c after :=
    moved.after (.refl _) rfl rfl rfl rfl
  unfold resolvBlock
  dsimp only
  split
  · exact resume (unlinked.answers rfl rfl rfl rfl rfl rfl rfl (by simp))
  · split
    · exact resume (unlinked.answers rfl rfl rfl rfl rfl rfl rfl (by simp))
    · exact resume (unlinked.connects rfl rfl rfl rfl rfl rfl rfl rfl (by simp))

end Request

section Connecting

variable {key : Key} {c : Ctx}

/-- The origin of a failed connect is gone. -/
private theorem unlinked_dropped {fd : Fd} {closed : Ctx}
    (placed : Placed key.data .requestConnecting c)
    (origin : c.s.originFd = some fd) (dropped : Dropped fd c closed) :
    Unlinked key.data { closed with
      s := { closed.s with
        originFd := none
        addrIdx := closed.s.addrIdx + 1 } } := by
  obtain ⟨client, accepted, origins, -, only, references⟩ := placed.held
  have apart : c.s.clientFd ≠ fd := ((origins fd origin).2).symm
  have clientFd : closed.s.clientFd = c.s.clientFd := by rw [dropped.object]
  have counted : closed.s.references = 1 := by
    rw [dropped.object]
    rw [show c.s.wiring.originFd = some fd from origin] at references
    exact congrArg (· - 1) references
  refine ⟨⟨?_, ?_, ?_, ?_, ?_, counted⟩, rfl, ?_, ?_⟩
  · change Registered key.data closed.env closed.s.clientFd
    rw [clientFd]
    exact dropped.registered client apart
  · refine (dropped.sockets closed.s.clientFd).trans ?_
    rw [clientFd, if_neg apart]
    exact accepted
  · exact fun _ none => nomatch none
  · exact fun _ none => nomatch none
  · intro other owned
    obtain ⟨distinct, owned⟩ := (dropped.owned_iff other).mp owned
    rcases only other owned with client | same
    · exact .inl (client.trans clientFd.symm)
    · exact absurd (Option.some.inj (same.symm.trans origin)) distinct
  · refine Eq.trans ?_ placed.shaped.resolving
    change closed.s.resolving = c.s.resolving
    rw [dropped.object]
  · refine (dropped.items closed.s.clientFd).trans ?_
    rw [clientFd, if_neg apart]
    exact placed.tuned.client

theorem moved_connectingWrite (a : Answers)
    (placed : Placed key.data .requestConnecting c)
    (alive : c.destroyed = false) :
    ∃ result, connectingWrite key a c = some result ∧
      Moved key.data result.2 (SocksState.requestConnecting.arranged result.2) c
        result.1 := by
  unfold connectingWrite
  dsimp only
  split
  · refine ⟨_, rfl, .of_quiet (.inside rfl rfl rfl) placed.held ?_ (by simp) ?_⟩
    · exact placed.shaped.next (by simp) (by simp) (by simp [SocksState.early])
        (by simp)
    · rintro ⟨-, same | plain⟩
      · cases same
      · cases plain
  · obtain ⟨fd, origin⟩ :=
      Option.isSome_iff_exists.mp (placed.shaped.connecting rfl)
    have origin : c.s.originFd = some fd := origin
    generalize errnoToReply _ = reply
    obtain ⟨registered, -⟩ := placed.held.origin fd origin
    obtain ⟨status, opened⟩ := placed.held.connects fd origin
    have replied : Placed key.data .requestConnecting (c.setReply reply) :=
      placed.inside (by simp) rfl rfl
    obtain ⟨closed, unregistered, dropped⟩ :=
      @unregister_owned key fd (c.setReply reply) _ registered opened alive
    have unlinked := unlinked_dropped replied origin dropped
    have number : c.s.originNumber = fd := by
      rw [Socks5.originNumber, origin]
      rfl
    have counted : (c.setReply reply).s.references = 2 := by
      have references := placed.held.references
      rwa [show c.s.wiring.originFd = some fd from origin] at references
    rw [number, unregistered]
    have moved :=
      @Unlinked.connects key a _ key.data .requestConnecting _ unlinked rfl rfl
      rfl rfl rfl rfl rfl rfl (by simp)
    refine ⟨_, rfl, moved.after ?_ dropped.threads ?_ ?_ ?_⟩
    · exact dropped.frame (placed.held.mine registered.owned)
    · refine dropped.connections.trans (if_neg ?_)
      rw [counted]
      simp
    · change closed.s.wiring.blocks = _
      rw [dropped.object]
      rfl
    · refine dropped.destroyed.trans ?_
      rw [counted, alive]
      rfl

theorem moved_requestWrite {p : Ptr} (key : Key) (a : Answers)
    (placed : Placed p .requestWrite c) :
    Moved p (requestWrite key a c).2
      (SocksState.requestWrite.arranged (requestWrite key a c).2) c
      (requestWrite key a c).1 := by
  refine moved_writeEffect placed (by simp) (by simp) ?_
    (requestWrite_effect key a c)
  intro after env wiring destroyed
  unfold replySent
  dsimp only
  split
  · have calm : Calm p c.env { after.env with
        metrics := metricsConnectionFailed after.env.metrics } := by
      rw [env]
      exact ⟨fun _ => .inl rfl, fun _ => rfl, rfl, rfl,
        currentConnections_failed _⟩
    exact placed.fails (by simp) ⟨calm, wiring, destroyed⟩ (.inl rfl)
      (not_arranged_closing (.inl rfl))
  · refine .of_quiet (.inside env wiring destroyed) placed.held ?_ (by simp) ?_
    · exact placed.shaped.next (by simp) (by simp) (by simp [SocksState.early])
        (by simp)
    · rintro ⟨-, same | plain⟩
      · cases same
      · cases plain

end Connecting

section Relaying

variable {p : Ptr} {c : Ctx}

theorem copyComputeInterests_tunes (held : Held p c.env c.s.wiring) :
    Quiet p c (copyComputeInterests c) ∧
      Tuned p .copy (copyComputeInterests c).env
        (copyComputeInterests c).s := by
  have client := (setInterest_owned held.client (clientInterest c.s)).2
  have quiet := quiet_setInterest held.client (clientInterest c.s)
  rw [copyComputeInterests_s]
  unfold copyComputeInterests
  dsimp only
  cases found : c.s.originFd with
  | none =>
      have none :
          (c.setInterest c.s.clientFd (clientInterest c.s)).1.s.originFd =
            none := found
      rw [none]
      refine ⟨quiet,
        ⟨(client c.s.clientFd).trans (if_pos rfl), fun fd origin => ?_⟩⟩
      rw [found] at origin
      cases origin
  | some fd =>
      obtain ⟨registered, apart⟩ := held.origin fd found
      have still := (quiet.env.registered_iff fd).mpr registered
      have origin := (setInterest_owned still (originInterest c.s)).2
      have some :
          (c.setInterest c.s.clientFd (clientInterest c.s)).1.s.originFd =
            some fd := found
      rw [some]
      refine ⟨quiet.trans (quiet_setInterest still _), ?_, fun other same => ?_⟩
      · exact ((origin _).trans (if_neg (Ne.symm apart))).trans
          ((client _).trans (if_pos rfl))
      · rw [found] at same
        cases same
        exact (origin fd).trans (if_pos rfl)

inductive Finishes (p : Ptr) (c : Ctx) : Ctx × SocksState → Prop
  | updated {after : Ctx} (quiet : Quiet p c after) :
      Finishes p c (copyUpdate after)
  | failed {after : Ctx} (quiet : Quiet p c after) : Finishes p c (after, .done)

theorem quiet_shuts (c : Ctx) :
    Quiet p c (shutClientWrite (shutOriginWrite c)) := by
  have origin : Quiet p c (shutOriginWrite c) := by
    unfold shutOriginWrite
    split
    · exact .inside rfl rfl rfl
    · exact .refl c
  refine origin.trans ?_
  unfold shutClientWrite
  split
  · exact .inside rfl rfl rfl
  · exact .refl _

theorem Finishes.moved {result : Ctx × SocksState}
    (finishes : Finishes p c result) (placed : Placed p .copy c) :
    Moved p result.2 (SocksState.copy.arranged result.2) c result.1 := by
  cases finishes with
  | failed quiet =>
      exact placed.fails (by simp) quiet (.inl rfl)
        (not_arranged_closing (.inl rfl))
  | @updated after quiet =>
      have shut := quiet.trans (quiet_shuts after)
      unfold copyUpdate
      dsimp only
      split
      · exact placed.fails (by simp) shut (.inl rfl)
          (not_arranged_closing (.inl rfl))
      · obtain ⟨computed, tuned⟩ :=
          copyComputeInterests_tunes (shut.held placed.held)
        exact .of_quiet (shut.trans computed) placed.held placed.shaped
          (by simp)
          fun _ => tuned

theorem finishes_pumpThenUpdate {pumped : Ctx × Bool}
    (quiet : Quiet p c pumped.1) :
    Finishes p c (pumpThenUpdate pumped) := by
  unfold pumpThenUpdate
  split
  · exact .failed quiet
  · exact .updated quiet

theorem quiet_pumpToOrigin (a : Answers) (c : Ctx) :
    Quiet p c (pumpToOrigin a c).1 :=
  .inside rfl (wiring_readBuffer (copyPump_frame ..).2) rfl

theorem quiet_pumpToClient (a : Answers) (c : Ctx) :
    Quiet p c (pumpToClient a c).1 :=
  .inside rfl (wiring_writeBuffer (copyPump_frame ..).2) rfl

private theorem calm_metrics {env : Env} {metrics : Metrics}
    (same : metrics.currentConnections = env.metrics.currentConnections) :
    Calm p env { env with metrics := metrics } :=
  ⟨fun _ => .inl rfl, fun _ => rfl, rfl, rfl, same⟩

theorem quiet_storeFromClient (c : Ctx) (octets : List UInt8) :
    Quiet p c (storeFromClient c octets) := by
  have wiring : Socks5.wiring
      { c.s with readBuffer := bufferFill c.s.readBuffer octets } =
        c.s.wiring :=
    wiring_readBuffer (Buffer.limit_fill ..)
  unfold storeFromClient
  dsimp only
  split
  · exact ⟨calm_metrics (currentConnections_addSent ..), wiring, rfl⟩
  · exact ⟨calm_metrics (currentConnections_addSent ..), wiring, rfl⟩

theorem quiet_storeFromOrigin (c : Ctx) (octets : List UInt8) :
    Quiet p c (storeFromOrigin c octets) :=
  ⟨calm_metrics (currentConnections_addReceived ..),
    wiring_writeBuffer (Buffer.limit_fill ..), rfl⟩

theorem finishes_relayEffect {source : Fd} {buffer : Buffer} {ended : Ctx → Ctx}
    {store : Ctx → List UInt8 → Ctx} {pump : Ctx → Ctx × Bool}
    {result : Ctx × SocksState} (ends : ∀ c, Quiet p c (ended c))
    (stores : ∀ c octets, Quiet p c (store c octets))
    (pumps : ∀ c, Quiet p c (pump c).1)
    (effect : RelayEffect source buffer ended store pump c result) :
    Finishes p c result := by
  have called (made : Call) : Quiet p c (c.call made) := .inside rfl rfl rfl
  cases effect with
  | full => exact .updated (.refl c)
  | again e => exact .updated (called _)
  | failed e => exact .updated ((called _).trans (ends _))
  | closed => exact .updated ((called _).trans (ends _))
  | @relayed octets =>
      exact finishes_pumpThenUpdate
        (((called _).trans (stores _ octets)).trans (pumps _))

theorem finishes_copyRead (key : Key) (a : Answers) (c : Ctx) :
    Finishes p c (copyRead key a c) := by
  unfold copyRead
  split
  · refine finishes_relayEffect ?_ quiet_storeFromClient (quiet_pumpToOrigin a)
      (copyReadClient_effect a c)
    exact fun _ => .inside rfl rfl rfl
  · refine finishes_relayEffect ?_ quiet_storeFromOrigin (quiet_pumpToClient a)
      (copyReadOrigin_effect a c)
    exact fun _ => .inside rfl rfl rfl

theorem finishes_copyWrite (key : Key) (a : Answers) (c : Ctx) :
    Finishes p c (copyWrite key a c) := by
  unfold copyWrite
  split
  · exact finishes_pumpThenUpdate (quiet_pumpToClient a c)
  · exact finishes_pumpThenUpdate (quiet_pumpToOrigin a c)

end Relaying

/-- Every entry of the state table runs on a connection that is in its state. -/
theorem moved_handler {kind : EventKind} {key : Key} {c : Ctx} {st : SocksState}
    {handler : Handler} (a : Answers) (placed : Placed key.data st c)
    (alive : c.destroyed = false) (serves : Serves st kind handler) :
    ∃ result, handler key a c = some result ∧
      Moved key.data result.2 (st.arranged result.2) c result.1 := by
  cases serves with
  | helloRead => exact ⟨_, rfl, moved_helloRead key a placed⟩
  | helloWrite => exact ⟨_, rfl, moved_helloWrite key a placed⟩
  | authRead => exact ⟨_, rfl, moved_authRead key a placed⟩
  | authWrite => exact ⟨_, rfl, moved_authWrite key a placed⟩
  | requestRead => exact ⟨_, rfl, moved_requestRead placed⟩
  | resolvBlock => exact ⟨_, rfl, moved_resolvBlock placed⟩
  | connectingWrite => exact moved_connectingWrite a placed alive
  | requestWrite => exact ⟨_, rfl, moved_requestWrite key a placed⟩
  | copyRead => exact ⟨_, rfl, (finishes_copyRead key a c).moved placed⟩
  | copyWrite => exact ⟨_, rfl, (finishes_copyWrite key a c).moved placed⟩

end SocksProxy
