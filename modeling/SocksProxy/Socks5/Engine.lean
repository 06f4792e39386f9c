import SocksProxy.Socks5.Calls
import SocksProxy.Socks5.Transitions
import SocksProxy.Socks5.Upkeep

/-! A whole call of the engine: the handler of the current state, the arrival
hook of the next one, and the end of a connection that is given up. -/

namespace SocksProxy

section Arrival

variable {p : Ptr} {st next : SocksState} {c : Ctx} (key : Key) (a : Answers)

private theorem requestWriteArrival_tunes (held : Held p c.env c.s.wiring) :
    Quiet p c (requestWriteArrival key a c) ∧
      Tuned p .requestWrite (requestWriteArrival key a c).env
        (requestWriteArrival key a c).s := by
  have replied :
      Quiet p c { c with s := buildReply c.s c.s.reply a.sockname } := by
    refine .inside rfl ?_ rfl
    simp only [buildReply, Socks5.wiring, Buffer.limit_writeAll,
      Buffer.limit_reset]
  have held := replied.held held
  rw [requestWriteArrival_s]
  unfold requestWriteArrival
  dsimp only
  cases found : c.s.originFd with
  | none =>
      have none : (buildReply c.s c.s.reply a.sockname).originFd = none := found
      rw [none]
      have client := (setInterest_owned held.client opWrite).2
      refine ⟨replied.trans (quiet_setInterest held.client opWrite), ?_,
        fun fd origin => ?_⟩
      · exact (client _).trans (if_pos rfl)
      · rw [none] at origin
        cases origin
  | some fd =>
      have some : (buildReply c.s c.s.reply a.sockname).originFd = some fd :=
        found
      obtain ⟨registered, apart⟩ := held.origin fd some
      have quiet := quiet_setInterest registered opNoop
      have origin := (setInterest_owned registered opNoop).2
      have still := (quiet.env.registered_iff _).mpr held.client
      have client := (setInterest_owned still opWrite).2
      rw [some]
      refine ⟨(replied.trans quiet).trans (quiet_setInterest still opWrite), ?_,
        fun other same => ?_⟩
      · exact (client _).trans (if_pos rfl)
      · rw [some] at same
        cases same
        exact ((client fd).trans (if_neg apart)).trans
          ((origin fd).trans (if_pos rfl))

theorem enter_tunes (held : Held p c.env c.s.wiring)
    (shaped : c.s.wiring.Shaped p next)
    (hooked : (states next).onArrival.isSome) :
    Quiet p c (enter key a next c) ∧
      Tuned p next (enter key a next c).env (enter key a next c).s := by
  have entered : Quiet p c { c with s := { c.s with current := some next } } :=
    .inside rfl rfl rfl
  cases next with
  | requestResolv =>
      have registered := (entered.held held).client
      have client := (setInterest_owned registered opNoop).2
      refine ⟨entered.trans (quiet_setInterest registered opNoop), ?_,
        fun fd origin => ?_⟩
      · exact (client _).trans (if_pos rfl)
      · exact nomatch (shaped.early rfl).symm.trans origin
  | requestWrite =>
      obtain ⟨quiet, tuned⟩ :=
        requestWriteArrival_tunes key a (entered.held held)
      exact ⟨entered.trans quiet, tuned⟩
  | copy =>
      have opened : Quiet p c { c with
          s := arrived a c.env.config c.s .copy } := .inside rfl rfl rfl
      obtain ⟨quiet, tuned⟩ := copyComputeInterests_tunes (opened.held held)
      exact ⟨opened.trans quiet, tuned⟩
  | _ => cases hooked

end Arrival

namespace Moved

variable {p : Ptr} {st next : SocksState} {tuned : Prop}
  {before middle last c : Ctx}

theorem before_quiet (moved : Moved p next tuned before middle)
    (quiet : Quiet p middle last) {tuned' : Prop}
    (tunes : tuned' → Tuned p next last.env last.s) :
    Moved p next tuned' before last where
  held := quiet.held moved.held
  shaped := quiet.wiring ▸ moved.shaped
  tuned := tunes
  frame := moved.frame.trans (quiet.env.frame moved.held)
  threads := quiet.env.threads.trans moved.threads
  connections := quiet.env.connections.trans moved.connections
  blocks := by rw [quiet.wiring, moved.blocks]
  destroyed := quiet.destroyed.trans moved.destroyed

theorem jump (moved : Moved p next (st.arranged next) before c)
    (current : c.s.current = some st) (key : Key) (a : Answers) :
    Moved p next (¬ next.closing) before (SocksProxy.jump key a next c) := by
  unfold SocksProxy.jump
  split
  next stays =>
    refine moved.before_quiet (.refl c) fun opens =>
      moved.tuned ⟨opens, .inl ?_⟩
    exact Option.some.inj (stays.symm.trans current)
  next =>
    cases hooked : (states next).onArrival with
    | none =>
        have unhooked : enter key a next c =
            { c with s := { c.s with current := some next } } := by
          unfold enter
          dsimp only
          rw [hooked]
        have quiet :
            Quiet p c { c with s := { c.s with current := some next } } :=
          .inside rfl rfl rfl
        rw [unhooked]
        refine moved.before_quiet quiet fun opens => ?_
        refine (moved.tuned ⟨opens, .inr ?_⟩).kept ?_ rfl
        · rw [hooked]
          rfl
        · rintro rfl
          cases hooked
    | some hook =>
        have some : (states next).onArrival.isSome := by rw [hooked]; rfl
        obtain ⟨quiet, tuned⟩ := enter_tunes key a moved.held moved.shaped some
        exact moved.before_quiet quiet fun _ => tuned

end Moved

structure Released (p : Ptr) (before after : Ctx) : Prop where
  free : ∀ fd, ¬ Owned p after.env fd
  frame : Frame p before.env after.env
  threads : after.env.threads = before.env.threads
  connections : after.env.connections = before.env.connections - 1
  object : ∃ references, after.s = { before.s with references := references }
  destroyed : after.destroyed = true

theorem released_socksv5Done {key : Key} {c : Ctx}
    (held : Held key.data c.env c.s.wiring) (alive : c.destroyed = false) :
    ∃ after, socksv5Done key c = some after ∧ Released key.data c after := by
  obtain ⟨client, accepted, origins, connects, only, references⟩ := held
  obtain ⟨middle, unregistered, dropped⟩ :=
    unregister_owned client accepted alive
  have frame := dropped.frame (.inr ⟨client.owned, .inl accepted⟩)
  have unregistered : selectorUnregisterFd key c.s.clientFd c = some middle :=
    unregistered
  unfold socksv5Done
  dsimp only
  rw [unregistered, Option.bind_some]
  cases found : c.s.originFd with
  | none =>
      have found : c.s.wiring.originFd = none := found
      rw [found] at references only
      have last : c.s.references - 1 = 0 := congrArg (· - 1) references
      refine ⟨middle, rfl, ?_, frame, dropped.threads, ?_,
        ⟨_, dropped.object⟩, ?_⟩
      · intro fd owned
        obtain ⟨apart, owned⟩ := (dropped.owned_iff fd).mp owned
        rcases only fd owned with same | none
        · exact apart same
        · cases none
      · exact dropped.connections.trans (if_pos last)
      · exact dropped.destroyed.trans (decide_eq_true last)
  | some origin =>
      have found : c.s.wiring.originFd = some origin := found
      rw [found] at references only
      have counted : c.s.references = 2 := references
      have more : ¬ c.s.references - 1 = 0 := by
        rw [counted]
        simp
      obtain ⟨registered, apart⟩ := origins origin found
      obtain ⟨status, opened⟩ := connects origin found
      have still : middle.env.kernel.socket origin = some (.origin status) :=
        ((dropped.sockets origin).trans (if_neg apart)).trans opened
      have alive : middle.destroyed = false :=
        dropped.destroyed.trans (decide_eq_false more)
      have middleCount :
          middle.s.references = 1 := by rw [dropped.object, counted]
      have last : middle.s.references - 1 = 0 := by rw [middleCount]
      obtain ⟨after, gone, closed⟩ :=
        unregister_owned (dropped.registered registered apart) still alive
      have frames := closed.frame
        (.inr ⟨(dropped.registered registered apart).owned,
          .inr ⟨status, still⟩⟩)
      refine ⟨after, gone, ?_, frame.trans frames,
        closed.threads.trans dropped.threads, ?_, ⟨middle.s.references - 1, ?_⟩,
        ?_⟩
      · intro fd owned
        obtain ⟨apartOrigin, owned⟩ := (closed.owned_iff fd).mp owned
        obtain ⟨apartClient, owned⟩ := (dropped.owned_iff fd).mp owned
        rcases only fd owned with same | same
        · exact apartClient same
        · exact apartOrigin (Option.some.inj same).symm
      · refine (closed.connections.trans (if_pos last)).trans ?_
        rw [dropped.connections, if_neg more]
      · rw [closed.object, dropped.object]
      · exact closed.destroyed.trans (decide_eq_true last)

/-- An event that the selector passes on to a connection. -/
inductive Due (p : Ptr) (env : Env) (s : Socks5) : EventKind → Fd → Prop
  | read {fd : Fd} {i : Interest}
      (item : env.selector.items fd = some ⟨i, .socks5, p⟩)
      (wanted : i.read = true) : Due p env s .read fd
  | write {fd : Fd} {i : Interest}
      (item : env.selector.items fd = some ⟨i, .socks5, p⟩)
      (wanted : i.write = true) : Due p env s .write fd
  | block {fd : Fd} (awaited : s.state = .requestResolv) : Due p env s .block fd

structure Upkept (p : Ptr) (env : Env) (s : Socks5) (c : Ctx) : Prop where
  frame : Frame p env c.env
  threads : c.env.threads =
    if c.s.state = .requestResolv then launched p env.threads else env.threads
  blocks : c.s.wiring.blocks = s.wiring.blocks
  follows : c.s.state ∈ s.state.successors
  outcome : (c.destroyed = false ∧ Wired p c.env c.s ∧
      c.env.connections = env.connections) ∨
    (c.destroyed = true ∧ c.s.state.closing ∧ c.s.resolving = false ∧
      (∀ fd, ¬ Owned p c.env fd) ∧ c.env.connections = env.connections - 1)

theorem Wired.item_interest {p : Ptr} {env : Env} {s : Socks5} {fd : Fd}
    {i : Interest} (wired : Wired p env s)
    (item : env.selector.items fd = some ⟨i, .socks5, p⟩) :
    fd = s.clientFd ∧ i = s.interestOfClient s.state ∨
      fd ∈ s.originFd ∧ i = s.interestOfOrigin s.state := by
  rcases wired.held.only fd ⟨i, item⟩ with same | origin
  · have same : fd = s.clientFd := same
    have tuned := wired.tuned.client
    rw [← same, item] at tuned
    cases tuned
    exact .inl ⟨same, rfl⟩
  · have tuned := wired.tuned.origin fd origin
    rw [item] at tuned
    cases tuned
    exact .inr ⟨origin, rfl⟩

/-- No event finds the state table without an entry. -/
theorem Wired.ready {p : Ptr} {env : Env} {s : Socks5} {kind : EventKind}
    {fd : Fd} (wired : Wired p env s) (due : Due p env s kind fd) :
    ∃ handler, kind.ready (states s.state) = some handler := by
  cases due with
  | block awaited =>
      rw [awaited]
      exact ⟨_, rfl⟩
  | read item wanted =>
      rcases wired.item_interest item with ⟨-, rfl⟩ | ⟨-, rfl⟩
      · cases state : s.state <;> rw [state] at wanted <;>
          first | exact ⟨_, rfl⟩ | cases wanted
      · cases state : s.state <;> rw [state] at wanted <;>
          first | exact ⟨_, rfl⟩ | cases wanted
  | write item wanted =>
      rcases wired.item_interest item with ⟨-, rfl⟩ | ⟨-, rfl⟩
      · cases state : s.state <;> rw [state] at wanted <;>
          first | exact ⟨_, rfl⟩ | cases wanted
      · cases state : s.state <;> rw [state] at wanted <;>
          first | exact ⟨_, rfl⟩ | cases wanted

theorem Wired.placed {p : Ptr} {env : Env} {s : Socks5} (wired : Wired p env s)
    (calls : List Call) (destroyed : Bool) :
    Placed p s.state (Ctx.started ⟨env, s, calls, destroyed⟩) := by
  refine ⟨wired.held, wired.shaped, ?_, ?_⟩
  · refine Eq.trans wired.tuned.client ?_
    cases s.state <;> rfl
  · intro fd origin
    refine Eq.trans (wired.tuned.origin fd origin) ?_
    cases s.state <;> rfl

/-- A handler leaves the field by which the engine knows its state alone. -/
theorem handler_current {kind : EventKind} {key : Key} {a : Answers} {c : Ctx}
    {st : SocksState} {handler : Handler} {result : Ctx × SocksState}
    (serves : Serves st kind handler) (ran : handler key a c = some result) :
    result.1.s.current = c.s.current := by
  by_cases relaying : st = .copy
  · subst relaying
    exact @copy_field _ Socks5.current _ _ _ _ _ _
      ⟨fun _ _ _ => rfl, fun _ _ _ => rfl, fun _ _ _ => rfl, fun _ _ => rfl⟩
        serves ran
  · exact @handshake_field _ Socks5.current _ _ _ _ _ _ _
      ⟨fun _ _ _ _ _ => rfl, fun _ _ _ _ _ => rfl, fun _ _ _ _ _ _ _ _ _ _ =>
        rfl⟩
      relaying serves ran

/-- A connection serves every event that is due, and keeps its ties. -/
theorem Wired.serves {p : Ptr} {env : Env} {s : Socks5} {kind : EventKind}
    {fd : Fd} (wired : Wired p env s) (due : Due p env s kind fd)
    (a : Answers) :
    ∃ c, socksv5Handler kind ⟨fd, p⟩ a ⟨env, s, [], false⟩ = some c ∧
      Upkept p env s c := by
  obtain ⟨handler, ready⟩ := wired.ready due
  have serves := serves_of_ready ready
  obtain ⟨⟨middle, next⟩, ran, moved⟩ :=
    @moved_handler kind ⟨fd, p⟩ _ _ _ a (wired.placed [] false) rfl serves
  have current : middle.s.current = some s.state := handler_current serves ran
  have jumped := moved.jump current ⟨fd, p⟩ a
  have state := jump_state ⟨fd, p⟩ a next middle
  have follows : next ∈ s.state.successors := handler_next serves ran
  rw [socksv5Handler_eq, socksv5Handle]
  unfold stmHandler
  simp only [handleFirst_eq, started_state, ready, ran, Option.map_some,
    Option.bind_some]
  by_cases closing : next.closing
  · have gone : next = .done ∨ next = .errorState := closing
    rw [if_pos gone]
    obtain ⟨after, done, released⟩ :=
      released_socksv5Done jumped.held jumped.destroyed
    obtain ⟨references, object⟩ := released.object
    have ends : after.s.state = next := by
      rw [object]
      exact state
    have plain : next ≠ .requestResolv := by
      rcases closing with rfl | rfl <;> simp
    refine ⟨after, done, jumped.frame.trans released.frame, ?_, ?_,
      ends ▸ follows, .inr
      ⟨released.destroyed, ends ▸ closing, ?_, released.free, ?_⟩⟩
    · rw [ends, released.threads]
      exact jumped.threads
    · rw [object]
      exact jumped.blocks
    · rw [object]
      exact jumped.shaped.resolving.trans (decide_eq_false plain)
    · rw [released.connections, jumped.connections]
      rfl
  · have stays : ¬ (next = .done ∨ next = .errorState) := closing
    rw [if_neg stays]
    refine ⟨_, rfl, jumped.frame, ?_, jumped.blocks, state.symm ▸ follows, .inl
      ⟨jumped.destroyed, ⟨jumped.held, ?_, ?_, ?_⟩, jumped.connections⟩⟩
    · rw [state]
      exact jumped.threads
    · rw [state]
      exact jumped.shaped
    · rw [state]
      exact jumped.tuned closing
    · rw [state]
      exact closing

end SocksProxy
