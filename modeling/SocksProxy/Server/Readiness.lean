import SocksProxy.Server.Effects
import SocksProxy.Socks5.Connecting
import SocksProxy.Socks5.HalfClose

/-! A readiness bit that `pselect` set outlives the socket it was set for, since
unregistering does not clear it.  While no new connect gets such a number, a
reply of success means a completed connect. -/

namespace SocksProxy

open Transition

/-- The loop of `handle_iteration` has not passed this number yet. -/
def Phase.ahead : Phase → Fd → Prop
  | .visit i _, fd | .visitWrite i _ _, fd => i ≤ fd
  | _, _ => False

theorem Wired.due_seeking {p : Ptr} {env : Env} {s : Socks5} {kind : EventKind}
    {fd : Fd} (wired : Wired p env s) (due : Due p env s kind fd) :
    (s.state = .requestRead → kind = .read) ∧
      (s.state = .requestResolv → kind = .block) ∧
      (s.state = .requestConnecting → kind = .write ∧
        s.originFd = some fd) := by
  have alone {i : Interest}
      (item : env.selector.items fd = some ⟨i, .socks5, p⟩)
      (early : s.state.early = true) : i = s.interestOfClient s.state := by
    rcases wired.item_interest item with ⟨-, same⟩ | ⟨own, -⟩
    · exact same
    · rw [show s.originFd = none from wired.shaped.early early] at own
      cases own
  have own {i : Interest} (item : env.selector.items fd = some ⟨i, .socks5, p⟩)
      (connecting : s.state = .requestConnecting) :
      i = opNoop ∨ i = opWrite ∧ s.originFd = some fd := by
    rcases wired.item_interest item with ⟨-, same⟩ | ⟨own, same⟩
    · rw [connecting] at same
      exact .inl same
    · rw [connecting] at same
      exact .inr ⟨same, own⟩
  cases due with
  | block awaited =>
      rw [awaited]
      simp
  | read item wanted =>
      refine ⟨fun _ => rfl, fun state => ?_, fun state => ?_⟩
      · rw [alone item (by rw [state]; rfl), state] at wanted
        cases wanted
      · rcases own item state with rfl | ⟨rfl, -⟩ <;> cases wanted
  | write item wanted =>
      refine ⟨fun state => ?_, fun state => ?_, fun state => ?_⟩
      · rw [alone item (by rw [state]; rfl), state] at wanted
        cases wanted
      · rw [alone item (by rw [state]; rfl), state] at wanted
        cases wanted
      · rcases own item state with rfl | ⟨-, origin⟩
        · cases wanted
        · exact ⟨rfl, origin⟩

namespace Server

/-- The kernel reports no connect that is under way as ready, and a failed
`getsockopt` has an error. -/
def Genuine (σ : Server) : Event → Prop
  | .pselect _ writable =>
      ∀ fd, writable fd = true →
        σ.env.kernel.socket fd ≠ some (.origin .inProgress)
  | .visitRead input | .visitWrite input
  | .job input => input.answers.soError ≠ some 0
  | _ => True

def connectionAt (σ : Server) (fd : Fd) : Option Socks5 :=
  (σ.env.selector.items fd).bind fun item =>
    if item.handler = .socks5 then σ.heap item.data else none

/-- The number that the kernel hands out next. -/
def nextNumber (σ : Server) : Fd := (σ.env.kernel.openSocket .foreign).1

/-- A request leads to a connect in the background, while the number that its
socket gets has a write bit from before and is still to be visited. -/
def Stale (σ : Server) : Event → Prop
  | .visitRead input =>
      match σ.phase with
      | .visit i _ => (∃ s ∈ σ.connectionAt i, s.state = .requestRead) ∧
          (input.answers.attempt 0).Pends ∧ i ≤ σ.nextNumber ∧
          σ.env.selector.slaveW σ.nextNumber = true
      | _ => False
  | _ => False

variable {σ τ : Server} {event : Event} {fd : Fd}

theorem ahead_nextVisit {i n : Nat} (ahead : (nextVisit i n).ahead fd) :
    i < fd := by
  unfold nextVisit at ahead
  split at ahead
  · exact ahead
  · exact ahead.elim

/-- Apart from `pselect`, no step brings the loop back before a number. -/
theorem step_ahead (sound : σ.Sound) (step : σ.step event = .next τ)
    (returns : ∀ readable writable, event ≠ .pselect readable writable)
    (ahead : τ.phase.ahead fd) : σ.phase.ahead fd ∧
      ∀ input i n data, event = .visitWrite input →
      σ.phase = .visitWrite i n data → i < fd := by
  have main (taken : σ.stepMain event = .next τ) : σ.phase.ahead fd ∧
      ∀ input i n data, event = .visitWrite input →
        σ.phase = .visitWrite i n data → i < fd := by
    unfold stepMain at taken
    split at taken
    next readable writable phase => exact absurd rfl (returns readable writable)
    next =>
      cases taken
      exact ahead.elim
    next i n input phase =>
      rw [phase]
      refine ⟨?_, fun _ _ _ _ other => (by cases other)⟩
      split at taken
      · cases taken
        exact Nat.le_of_lt (ahead_nextVisit ahead)
      · obtain ⟨υ, runs, rfl⟩ :=
          Option.map_eq_some_iff.mp (eq_some_of_ofOption taken)
        exact ahead
    next i n data input phase =>
      obtain ⟨υ, runs, rfl⟩ :=
        Option.map_eq_some_iff.mp (eq_some_of_ofOption taken)
      have passed : i < fd := ahead_nextVisit ahead
      rw [phase]
      refine ⟨Nat.le_of_lt passed, fun _ j m other _ same => ?_⟩
      cases same
      exact passed
    next input phase =>
      split at taken
      · cases taken
      next job rest queue =>
        have waiting : (σ.withQueue rest).Steady (job :: rest) := by
          rw [← queue]
          exact @Unchanged.steady σ _ _
            ⟨fun _ => ⟨rfl, rfl⟩, rfl, rfl, rfl, rfl, rfl, rfl, rfl, rfl, rfl⟩
              sound.steady
        obtain ⟨υ, runs, after, same, left⟩ := handleJob_steady waiting input
        have equal :=
          Option.some.inj ((eq_some_of_ofOption taken).symm.trans runs)
        have notify : τ.phase = .notify :=
          (congrArg Server.phase equal).trans (same.trans phase)
        rw [notify] at ahead
        exact ahead.elim
    next phase =>
      split at taken
      · cases taken
        exact ahead.elim
      · cases taken
    next phase =>
      have runs := eq_some_of_ofOption taken
      unfold afterSelect at runs
      split at runs
      · cases runs
        exact ahead.elim
      · obtain ⟨υ, shut, rfl⟩ := Option.map_eq_some_iff.mp runs
        split at ahead <;> exact ahead.elim
    next => cases taken
  have aside (same : τ.phase = σ.phase)
      (other : ∀ input, event ≠ .visitWrite input) :
      σ.phase.ahead fd ∧ ∀ input i n data, event = .visitWrite input →
        σ.phase = .visitWrite i n data → i < fd := by
    rw [← same]
    exact ⟨ahead, fun input i n data writes => absurd writes (other input)⟩
  cases event with
  | signal =>
      cases step
      exact aside rfl (by simp)
  | connectDone fd e =>
      unfold Server.step stepConnectDone at step
      dsimp only at step
      split at step <;> cases step
      exact aside rfl (by simp)
  | foreignOpen =>
      cases step
      exact aside rfl (by simp)
  | foreignClose fd =>
      unfold Server.step at step
      dsimp only at step
      split at step <;> cases step
      exact aside rfl (by simp)
  | resolved index answer =>
      unfold Server.step stepResolved at step
      dsimp only at step
      split at step
      · split at step <;> cases step
        exact aside rfl (by simp)
      · cases step
  | notifyBlock index =>
      unfold Server.step stepNotifyBlock at step
      dsimp only at step
      split at step
      · cases step
      · split at step
        · split at step <;> cases step
          exact aside rfl (by simp)
        · cases step
  | _ => exact main step

/-- The state of every connection agrees with the kernel, and no write bit that
the loop has still to act on stands for a connect under way. -/
structure Candid (σ : Server) : Prop where
  sound : σ.Sound
  backed : ∀ p ∈ σ.live, ∀ s, σ.heap p = some s → Backed s.state σ.env.kernel s
  fresh : ∀ fd, σ.phase.ahead fd → σ.env.selector.slaveW fd = true →
    σ.env.kernel.socket fd ≠ some (.origin .inProgress)

theorem nextNumber_of_lowest (lowest : σ.env.kernel.Lowest fd) :
    fd = σ.nextNumber :=
  lowest.unique (Kernel.lowest_openSocket σ.env.kernel .foreign)

/-- A call in REQUEST_CONNECTING comes with the write bit of the origin, so that
the connect is over. -/
theorem Candid.settled (candid : σ.Candid) {call : Called} {kind : EventKind}
    {env : Env} (calls : Calls σ event call kind fd env)
    (due : Due call.p env call.before kind fd)
    (wired : Wired call.p env call.before)
    (connecting : call.before.state = .requestConnecting) {origin : Fd}
    (held : call.before.originFd = some origin) :
    σ.env.kernel.socket origin ≠ some (.origin .inProgress) := by
  obtain ⟨rfl, own⟩ := (wired.due_seeking due).2.2 connecting
  obtain rfl : origin = fd := Option.some.inj (held.symm.trans own)
  cases calls with
  | visit plain unhandled reads writes =>
      obtain ⟨bit, input, n, data, writing, phase⟩ := writes rfl
      refine candid.fresh origin ?_ bit
      rw [phase]
      exact Nat.le_refl origin

theorem Calls.kernel {call : Called} {kind : EventKind} {env : Env}
    (calls : Calls σ event call kind fd env) :
    env.kernel = σ.env.kernel ∧
      env.selector.slaveW = σ.env.selector.slaveW := by
  cases calls <;> exact ⟨rfl, rfl⟩

theorem Genuine.answers {a : Answers} (genuine : σ.Genuine event)
    (asked : event.answers = some a) : a.soError ≠ some 0 := by
  cases event <;> cases asked <;> exact genuine

theorem Backed.beside {st : SocksState} {s : Socks5} {p : Ptr}
    {dns : DnsRequest} (backed : Backed st σ.env.kernel s)
    (beside : Beside σ event τ) (wired : Wired p τ.env { s with dns := dns }) :
    Backed st τ.env.kernel { s with dns := dns } := by
  have connects : ∀ fd, s.originFd = some fd →
      ∃ status, τ.env.kernel.socket fd = some (.origin status) :=
        wired.held.connects
  refine ⟨fun connecting => ?_, fun writing success => ?_⟩
  · obtain ⟨fd, status, origin, socket, pursued⟩ := backed.connecting connecting
    obtain ⟨later, present⟩ := connects fd origin
    refine ⟨fd, later, origin, present, ?_⟩
    rcases beside.origins fd later present with same | ⟨-, e, -, rfl⟩
    · rw [socket] at same
      cases same
      exact pursued
    · split
      · trivial
      next failed => exact failed
  · obtain ⟨fd, origin, socket⟩ := backed.success writing success
    obtain ⟨later, present⟩ := connects fd origin
    refine ⟨fd, origin, ?_⟩
    rcases beside.origins fd later present with same | ⟨waiting, -⟩
    · rw [socket] at same
      cases same
      exact present
    · rw [socket] at waiting
      cases waiting

theorem Backed.framed {st : SocksState} {s : Socks5} {p q : Ptr}
    {env after : Env} (backed : Backed st env.kernel s) (wired : Wired q env s)
    (frame : Frame p env after) (other : q ≠ p) : Backed st after.kernel s := by
  have same (fd : Fd) (origin : s.originFd = some fd) :
      after.kernel.socket fd = env.kernel.socket fd := by
    rcases frame.slots fd with slot | ⟨mine, -⟩
    · exact slot.2
    · exact absurd (wired.held.origin fd origin).1.owned (mine.not_owned other)
  refine ⟨fun connecting => ?_, fun writing success => ?_⟩
  · obtain ⟨fd, status, origin, socket, pursued⟩ := backed.connecting connecting
    exact ⟨fd, status, origin, (same fd origin).trans socket, pursued⟩
  · obtain ⟨fd, origin, socket⟩ := backed.success writing success
    exact ⟨fd, origin, (same fd origin).trans socket⟩

theorem Candid.unready (candid : σ.Candid) (stale : ¬ σ.Stale event)
    (step : σ.step event = .next τ) {call : Called} {kind : EventKind}
    {a : Answers} {env : Env} (asked : event.answers = some a)
    (calls : Calls σ event call kind fd env)
    (object : σ.heap call.p = some call.before)
    (due : Due call.p env call.before kind fd)
    (wired : Wired call.p env call.before) {number : Fd}
    (opens : Opens call.before.state a env.kernel call.before number)
    (ahead : τ.phase.ahead number) (bit : σ.env.selector.slaveW number = true) :
    False := by
  have returns : ∀ readable writable, event ≠ .pselect readable writable := by
    rintro readable writable rfl
    cases asked
  obtain ⟨before, later⟩ := step_ahead candid.sound step returns ahead
  obtain ⟨reading, resolving, connecting⟩ := wired.due_seeking due
  rcases opens.seeks with state | state | state
  · -- a request: the number of its socket is the lowest free one
    obtain rfl := reading state
    obtain ⟨pends, lowest⟩ := opens.reading state
    rw [calls.kernel.1] at lowest
    have next := nextNumber_of_lowest lowest
    cases calls with
    | visit plain unhandled reads writes =>
        obtain ⟨input, n, rfl, phase⟩ := reads rfl
        cases asked
        cases due with
        | read item wanted =>
            rw [phase] at before
            refine stale ?_
            unfold Stale
            rw [phase]
            refine ⟨⟨call.before, ?_, state⟩, pends, next ▸ before, next ▸ bit⟩
            unfold connectionAt
            rw [item, Option.bind_some, if_pos rfl]
            exact object
  · -- a resolution: its job is handled after the loop
    obtain rfl := resolving state
    cases calls with
    | visit plain unhandled reads writes => exact plain rfl
    | job handles queue owner =>
        unfold handling at handles
        split at handles
        · split at handles
          next phase =>
            rw [phase] at before
            exact before
          next => cases handles
        · cases handles
  · -- the next candidate: its number is at most that of the origin before
    obtain ⟨rfl, own⟩ := connecting state
    obtain ⟨origin, held, below⟩ := opens.connecting state
    obtain rfl : origin = fd := Option.some.inj (held.symm.trans own)
    cases calls with
    | visit plain unhandled reads writes =>
        obtain ⟨-, input, n, data, writing, phase⟩ := writes rfl
        exact absurd (later input origin n data writing phase)
          (Nat.not_lt.mpr below)

theorem step_pselect {readable writable : Fd → Bool}
    (step : σ.step (.pselect readable writable) = .next τ) :
    τ.env.selector.slaveW = fun fd =>
      writable fd && σ.env.selector.masterW fd := by
  unfold Server.step stepMain at step
  cases phase : σ.phase with
  | idle =>
      rw [phase] at step
      cases step
      rfl
  | _ =>
      rw [phase] at step
      cases step

theorem candid_step (candid : σ.Candid) (after : τ.Sound)
    (genuine : σ.Genuine event) (stale : ¬ σ.Stale event)
    (step : σ.step event = .next τ) : τ.Candid := by
  have live {p : Ptr} (alive : p ∈ τ.live) {s : Socks5}
      (held : τ.heap p = some s) : Wired p τ.env s := by
    obtain ⟨t, object, wired, -⟩ := after.roster.wired p alive
    rw [held] at object
    cases object
    exact wired
  cases step_effect candid.sound step with
  | beside quiet unhandled beside =>
      have old {p : Ptr} (alive : p ∈ σ.live) {s : Socks5}
          (held : τ.heap p = some s) (wired : Wired p τ.env s) :
          Backed s.state τ.env.kernel s := by
        obtain ⟨t, object, -⟩ := candid.sound.roster.wired p alive
        obtain ⟨dns, kept⟩ := beside.kept p alive t object
        rw [held] at kept
        cases kept
        exact Backed.beside (candid.backed p alive t object) beside wired
      refine ⟨after, fun p alive s held => ?_, fun fd ahead bit held => ?_⟩
      · rcases beside.live with same | ⟨q, t, new, more, object, accepted⟩
        · exact old (same ▸ alive) held (live alive held)
        · rw [more] at alive
          rcases List.mem_append.mp alive with earlier | newcomer
          · exact old earlier held (live (more ▸ alive) held)
          · rw [List.mem_singleton.mp newcomer, object] at held
            cases held
            rw [accepted_helloRead accepted]
            exact .elsewhere (by simp) (by simp)
      · have waiting : σ.env.kernel.socket fd = some (.origin .inProgress) := by
          rcases beside.origins fd _ held with same | ⟨waiting, -⟩
          · exact same
          · exact waiting
        by_cases returns : ∃ readable writable,
          event = .pselect readable writable
        · obtain ⟨readable, writable, rfl⟩ := returns
          rw [step_pselect step] at bit
          exact genuine fd (Bool.and_eq_true_iff.mp bit).1 waiting
        · rw [beside.ready.resolve_left returns] at bit
          have before := step_ahead candid.sound step
            (fun readable writable same => returns ⟨readable, writable, same⟩)
            ahead
          exact candid.fresh fd before.1 bit waiting
  | @called call kind fd a env calling asked calls member object due wired runs
      upkept returns others same =>
      have kernel := calls.kernel
      refine ⟨after, fun q alive s held => ?_, fun number ahead bit opened =>
        ?_⟩
      · by_cases own : q = call.p
        · subst own
          cases returns with
          | ended closing free retires left =>
              rw [left] at alive
              exact absurd alive candid.sound.roster.distinct.not_mem_erase
          | remains wired' kept =>
              rw [held] at kept
              cases kept
              rw [same]
              refine call_backed wired ?_ (fun connecting origin own => ?_)
                (genuine.answers asked) runs
              · rw [kernel.1]
                exact candid.backed call.p member call.before object
              · rw [kernel.1]
                exact candid.settled calls due wired connecting own
        · have earlier : q ∈ σ.live := by
            cases returns with
            | remains _ _ left => exact left ▸ alive
            | ended _ _ _ left =>
                rw [left] at alive
                exact List.mem_of_mem_erase alive
          rw [others q own] at held
          obtain ⟨t, stored, tied, -⟩ := candid.sound.roster.wired q earlier
          rw [held] at stored
          cases stored
          rw [same]
          have tied : Wired q env s := tied.elsewhere fun fd => .inl (by
            cases calls <;> exact ⟨rfl, rfl⟩)
          refine Backed.framed ?_ tied upkept.frame own
          rw [kernel.1]
          exact candid.backed q earlier s held
      · rw [same] at bit opened
        have ready : call.after.env.selector.slaveW = env.selector.slaveW :=
          congrArg Background.slaveW upkept.frame.background
        rw [ready, kernel.2] at bit
        have returns : ∀ readable writable,
            event ≠ .pselect readable writable := by
          rintro readable writable rfl
          cases asked
        rcases call_opens wired runs opened with earlier | opens
        · rw [kernel.1] at earlier
          exact candid.fresh number
            (step_ahead candid.sound step returns ahead).1 bit earlier
        · exact candid.unready stale step asked calls object due wired
            opens ahead bit

/-- The server while the kernel keeps its word. -/
def honest : System Server Event where
  init := server.init
  step σ event τ := server.step σ event τ ∧ σ.Genuine event

/-- The same while no connect gets a stale number. -/
def attentive : System Server Event where
  init := server.init
  step σ event τ := honest.step σ event τ ∧ ¬ σ.Stale event

theorem candid_of_reachable (reachable : attentive.Reachable σ) : σ.Candid := by
  apply reachable.invariant
  · intro σ starts
    have sound := sound_init starts
    have empty := (init_unused starts).live
    refine ⟨sound, fun p alive => ?_, fun fd ahead => ?_⟩
    · rw [empty] at alive
      cases alive
    · rw [(init_unused starts).phase] at ahead
      exact ahead.elim
  · rintro σ event τ candid ⟨⟨step, genuine⟩, stale⟩
    have after : τ.Sound := by
      have proceeds := step_proceeds candid.sound event
      rw [show σ.step event = .next τ from step] at proceeds
      cases proceeds with
      | next sound => exact sound
    exact candid_step candid after genuine stale step

end Server

/-- While no connect gets a stale number: `connecting_write` runs only when the
kernel is done with the connect, and a reply of success is given only for a
completed one. -/
theorem success_means_connected {σ : Server}
    (reachable : Server.attentive.Reachable σ) :
    (∀ p ∈ σ.live, ∀ s, σ.heap p = some s → s.state = .requestWrite →
      s.reply = repSuccess →
      ∃ fd, s.originFd = some fd ∧ σ.env.kernel.socket fd =
        some (.origin .connected)) ∧
    ∀ event τ call, Server.attentive.step σ event τ →
      σ.calling event = some call →
      call.before.state = .requestConnecting →
        ∃ fd, call.before.originFd = some fd ∧
          (σ.env.kernel.socket fd = some (.origin .connected) ∨
            ∃ e, e ≠ 0 ∧ σ.env.kernel.socket fd =
              some (.origin (.failed e))) := by
  have candid := Server.candid_of_reachable reachable
  refine ⟨fun p alive s object => (candid.backed p alive s object).success, ?_⟩
  rintro event τ call ⟨⟨step, -⟩, -⟩ called connecting
  cases Server.step_effect candid.sound step with
  | beside quiet unhandled beside =>
      rw [quiet] at called
      cases called
  | called calling asked calls member object due wired runs upkept returns
        others after =>
      rw [calling] at called
      cases called
      obtain ⟨fd, status, origin, socket, pursued⟩ :=
        (candid.backed call.p member call.before object).connecting connecting
      have settled := candid.settled calls due wired connecting origin
      refine ⟨fd, origin, ?_⟩
      cases status with
      | unconnected => exact pursued.elim
      | inProgress => exact absurd socket settled
      | connected => exact .inl socket
      | failed e => exact .inr ⟨e, pursued, socket⟩

namespace Server

instance (σ : Server) (event : Event) : Decidable (σ.Stale event) := by
  unfold Stale
  cases event <;> dsimp only <;> first
    | infer_instance
    | (cases σ.phase <;> dsimp only <;> infer_instance)

/-- A step for which the kernel keeps its word: `pselect` leaves connects under
way out. -/
def honestly (σ : Server) (event : Event) : Option Server :=
  match event with
  | .pselect readable writable => σ.advance (.pselect readable fun fd =>
      writable fd &&
        decide (σ.env.kernel.socket fd ≠ some (.origin .inProgress)))
  | .visitRead input | .visitWrite input | .job input =>
      if input.answers.soError = some 0 then none else σ.advance event
  | _ => σ.advance event

theorem step_of_honestly {σ τ : Server} {event : Event}
    (advances : σ.honestly event = some τ) :
    ∃ label, honest.step σ label τ ∧ (σ.Stale label → σ.Stale event) := by
  unfold honestly at advances
  cases event with
  | pselect readable writable =>
      refine ⟨_, ⟨step_of_advance advances, fun fd ready => ?_⟩, False.elim⟩
      exact of_decide_eq_true (Bool.and_eq_true_iff.mp ready).2
  | visitRead input | visitWrite input | job input =>
      dsimp only at advances
      split at advances
      · cases advances
      next genuine => exact ⟨_, ⟨step_of_advance advances, genuine⟩, id⟩
  | _ => exact ⟨_, ⟨step_of_advance advances, trivial⟩, id⟩

def attentively (σ : Server) (event : Event) : Option Server :=
  if σ.Stale event then none else σ.honestly event

theorem step_of_attentively {σ τ : Server} {event : Event}
    (advances : σ.attentively event = some τ) :
    ∃ label, attentive.step σ label τ := by
  unfold attentively at advances
  split at advances
  · cases advances
  next current =>
    obtain ⟨label, step, stale⟩ := step_of_honestly advances
    exact ⟨label, step, fun now => current (stale now)⟩

def greeted (fd : Fd) (object : Ptr) : List Turn :=
  [.client 0 object, .readable fd (.receiving [0x05, 0x01, 0x00]),
    .writable fd (.accepting [2])]

def asking (e : Errno) : Answers :=
  { Answers.receiving [0x05, 0x01, 0x00, 0x01, 127, 0, 0, 1, 0, 80] with
    attempt := fun _ => ⟨0, true, e⟩ }

end Server

theorem success_means_connected_later :
    ∃ (σ : Server) (s : Socks5), σ.heap 7 = some s ∧ s.state = .requestWrite ∧
      s.reply = repSuccess ∧
      ∃ fd, s.originFd = some fd ∧ σ.env.kernel.socket fd =
        some (.origin .connected) := by
  have expected : ((Server.perform id Server.attentively 30
      (Server.greeted 1 7 ++ [.readable 1 (Server.asking eInProgress),
        .event (.connectDone 2 0), .writable 2 .idle])
      (.opening configInitDefaults usersInit)).any fun σ =>
        decide (7 ∈ σ.live) && (σ.heap 7).any fun s =>
          decide (s.state = .requestWrite ∧ s.reply = repSuccess)) = true := by
    decide +kernel
  obtain ⟨σ, performs, facts⟩ := (Option.any_eq_true ..).mp expected
  obtain ⟨alive, facts⟩ := Bool.and_eq_true_iff.mp facts
  obtain ⟨s, object, facts⟩ := (Option.any_eq_true ..).mp facts
  obtain ⟨state, reply⟩ := of_decide_eq_true facts
  obtain ⟨events, run⟩ :=
    Server.moves_of_perform Server.step_of_attentively performs
  have truthful :=
    success_means_connected ⟨_, events, Server.init_opening _ _, run⟩
  exact ⟨σ, s, object, state, reply,
    truthful.1 7 (of_decide_eq_true alive) s object state reply⟩

end SocksProxy
