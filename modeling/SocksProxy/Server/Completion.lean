import SocksProxy.Server.Readiness

/-! The connect behind a reply of success was left in progress, and the kernel
ended it before the `pselect` whose write bit the server acts on. -/

namespace SocksProxy

open Transition

/-- A connect that goes on in the background is not over yet. -/
def Begun (st : SocksState) (kernel : Kernel) (s : Socks5) : Prop :=
  st = .requestConnecting → ∃ fd, s.originFd = some fd ∧
    kernel.socket fd = some (.origin .inProgress)

theorem Begun.elsewhere {st : SocksState} {kernel : Kernel} {s : Socks5}
    (elsewhere : st ≠ .requestConnecting) : Begun st kernel s :=
  fun same => absurd same elsewhere

theorem startConnection_begun (key : Key) (a : Answers) (c : Ctx) :
    Begun (startConnection key a c).2 (startConnection key a c).1.env.kernel
      (startConnection key a c).1.s := by
  have attempted := attempted_startConnection key a c
  generalize startConnection key a c = result at attempted ⊢
  cases attempted with
  | exhausted | connected => exact .elsewhere (by simp)
  | @connecting after fd gained =>
      intro _
      refine ⟨fd, ?_, ?_⟩
      · exact congrArg Wiring.originFd gained.wiring
      · exact (gained.sockets fd).trans (if_pos rfl)

theorem requestCompleted_begun (key : Key) (a : Answers) (c : Ctx) :
    Begun (requestCompleted key a c).2 (requestCompleted key a c).1.env.kernel
      (requestCompleted key a c).1.s := by
  unfold requestCompleted processRequest
  dsimp only
  split
  · exact .elsewhere (by simp)
  · split
    · exact .elsewhere (by simp)
    · split
      · exact startConnection_begun key a _
      · split
        · exact startConnection_begun key a _
        · split
          · split <;> exact .elsewhere (by simp)
          · exact .elsewhere (by simp)

theorem resolvBlock_begun (key : Key) (a : Answers) (c : Ctx) :
    Begun (resolvBlock key a c).2 (resolvBlock key a c).1.env.kernel
      (resolvBlock key a c).1.s := by
  unfold resolvBlock
  dsimp only
  split
  · exact .elsewhere (by simp)
  · split
    · exact .elsewhere (by simp)
    · exact startConnection_begun key a _

theorem connectingWrite_begun {key : Key} {a : Answers} {c : Ctx}
    {result : Ctx × SocksState} (ran : connectingWrite key a c = some result) :
    Begun result.2 result.1.env.kernel result.1.s := by
  unfold connectingWrite at ran
  dsimp only at ran
  split at ran
  · cases ran
    exact .elsewhere (by simp)
  · obtain ⟨dropped, -, started⟩ := Option.map_eq_some_iff.mp ran
    rw [← started]
    exact startConnection_begun key a _

theorem handler_begun {kind : EventKind} {key : Key} {a : Answers} {c : Ctx}
    {st : SocksState} {handler : Handler} {result : Ctx × SocksState}
    (serves : Serves st kind handler) (ran : handler key a c = some result) :
    Begun result.2 result.1.env.kernel result.1.s := by
  have follows := handler_next serves ran
  have never (elsewhere : .requestConnecting ∉ st.successors) :
      Begun result.2 result.1.env.kernel result.1.s :=
    .elsewhere fun same => elsewhere (same ▸ follows)
  cases serves with
  | requestRead =>
      have effect := requestRead_effect key a c
      rw [eq_of_total ran] at effect
      cases effect with
      | again | failed | closed | partly => exact .elsewhere (by simp)
      | completed => exact requestCompleted_begun key a _
  | resolvBlock => exact eq_of_total ran ▸ resolvBlock_begun key a _
  | connectingWrite => exact connectingWrite_begun ran
  | _ => exact never (by decide)

theorem call_begun {p : Ptr} {env : Env} {s : Socks5} {kind : EventKind}
    {fd : Fd} {a : Answers} {c : Ctx}
    (runs : socksv5Handler kind ⟨fd, p⟩ a ⟨env, s, [], false⟩ = some c) :
    Begun c.s.state c.env.kernel c.s := by
  obtain ⟨middle, next, handled⟩ := handled_of_handler runs
  obtain ⟨handler, serves, ran⟩ := handled.runs
  have begun := handler_begun serves ran
  have state : c.s.state = next := handled.state
  rw [state]
  intro connecting
  rw [handled.stays (by rw [connecting]; simp [SocksState.closing]),
    jump_kernel, jump_s]
  subst connecting
  split <;> exact begun rfl

theorem tryCandidate_immediate {key : Key} {a : Answers} {c after : Ctx}
    (entered : tryCandidate key a c = (after, some .requestWrite)) :
    ∃ fd address, after.s.originFd = some fd ∧
      .connect fd address 0 ∈ after.calls := by
  unfold tryCandidate at entered
  dsimp only at entered
  split at entered
  · cases entered
  · split at entered
    · cases entered
    · split at entered
      next connected =>
        split at entered
        next registered =>
          cases entered
          rw [connected] at registered
          have origin := registerOrigin_connected registered
          refine ⟨c.openOrigin.1, c.s.candidate, origin, ?_⟩
          unfold registerOrigin at registered
          split at registered <;> cases registered
          exact List.mem_append_right _ List.mem_cons_self
        next => cases entered
      · split at entered
        · split at entered <;> cases entered
        · cases entered

theorem tryCandidates_immediate {key : Key} {a : Answers} {left : Nat}
    {c after : Ctx} (unconnected : c.s.originFd = none)
    (entered : tryCandidates key a left c = (after, .requestWrite))
    (connected : after.s.originFd ≠ none) :
    ∃ fd address, after.s.originFd = some fd ∧
      .connect fd address 0 ∈ after.calls := by
  induction left generalizing c with
  | zero =>
      unfold tryCandidates at entered
      split at entered <;>
        · cases entered
          exact absurd unconnected connected
  | succ left induction =>
      have round := round_tryCandidate key a c
      unfold tryCandidates at entered
      split at entered
      next middle next found =>
        cases entered
        exact tryCandidate_immediate found
      next middle found =>
        rw [found] at round
        cases round with
        | failure outcome nonzero unmoved object =>
            refine induction ?_ entered
            rw [object]
            exact unconnected

/-- A reply of success tells of the connect that is over, or of one that the
kernel completed within the call. -/
theorem connectingWrite_succeeds {key : Key} {a : Answers} {c : Ctx}
    {result : Ctx × SocksState} {origin : Fd}
    (held : c.s.originFd = some origin) (genuine : a.soError ≠ some 0)
    (ran : connectingWrite key a c = some result)
    (writing : result.2 = .requestWrite)
    (success : result.1.s.reply = repSuccess) :
    c.env.kernel.soError origin = 0 ∧ result.1.s.originFd = some origin ∨
      ∃ fd address, result.1.s.originFd = some fd ∧
        .connect fd address 0 ∈ result.1.calls := by
  unfold connectingWrite at ran
  dsimp only at ran
  split at ran
  next ceased =>
    cases ran
    refine .inl ⟨?_, held⟩
    cases asked : a.soError with
    | none =>
        rw [asked, held] at ceased
        exact ceased
    | some e =>
        rw [asked] at ceased
        exact absurd (asked.trans (congrArg some ceased)) genuine
  next =>
    obtain ⟨dropped, -, started⟩ := Option.map_eq_some_iff.mp ran
    obtain ⟨after, next⟩ := result
    obtain rfl : next = .requestWrite := writing
    have landed := startConnection_landed key a (abandonedCtx dropped)
    change startConnection key a (abandonedCtx dropped) =
      (after, .requestWrite) at started
    rw [started] at landed
    exact .inr (tryCandidates_immediate rfl started
      (landed (.inr (.inr ⟨rfl, success⟩))))

theorem call_succeeds {p : Ptr} {env : Env} {s : Socks5} {kind : EventKind}
    {fd origin : Fd} {a : Answers} {c : Ctx}
    (connecting : s.state = .requestConnecting)
    (held : s.originFd = some origin) (genuine : a.soError ≠ some 0)
    (runs : socksv5Handler kind ⟨fd, p⟩ a ⟨env, s, [], false⟩ = some c)
    (writing : c.s.state = .requestWrite) (success : c.s.reply = repSuccess) :
    env.kernel.soError origin = 0 ∧ c.s.originFd = some origin ∨
      ∃ other address, c.s.originFd = some other ∧
        .connect other address 0 ∈ c.calls := by
  obtain ⟨middle, next, handled⟩ := handled_of_handler runs
  obtain ⟨handler, serves, ran⟩ := handled.runs
  change Serves s.state kind handler at serves
  rw [connecting] at serves
  cases serves
  obtain rfl : next = .requestWrite := handled.state.symm.trans writing
  have after : c = jump ⟨fd, p⟩ a .requestWrite middle :=
    handled.stays (by simp [SocksState.closing])
  have kept : c.s.originFd = middle.s.originFd ∧
      c.s.reply = middle.s.reply := by
    rw [after, jump_s]
    split <;> exact ⟨rfl, rfl⟩
  have calls : c.calls = middle.calls :=
    (congrArg Ctx.calls after).trans (jump_calls ..)
  rw [kept.1, calls]
  exact connectingWrite_succeeds held genuine ran rfl
    (kept.2.symm.trans success)

namespace Server

/-- The connection waits for its connect on this descriptor. -/
def Connecting (σ : Server) (p : Ptr) (fd : Fd) : Prop :=
  p ∈ σ.live ∧ ∃ s, σ.heap p = some s ∧ s.state = .requestConnecting ∧
    s.originFd = some fd

/-- The server while it calls no callback of a connection. -/
def undisturbed (p : Ptr) : System Server Event where
  init := attentive.Reachable
  step σ event τ := attentive.step σ event τ ∧
    ∀ call, σ.calling event = some call → call.p ≠ p

def endedBy (e : Errno) : ConnectStatus :=
  if e = 0 then .connected else .failed e

variable {σ τ : Server} {event : Event} {p : Ptr} {fd : Fd}

theorem step_slaveW (sound : σ.Sound) (step : σ.step event = .next τ)
    (returns : ∀ readable writable, event ≠ .pselect readable writable) :
    τ.env.selector.slaveW = σ.env.selector.slaveW := by
  cases step_effect sound step with
  | beside quiet unhandled beside =>
      exact beside.ready.resolve_left fun ⟨readable, writable, same⟩ =>
        returns readable writable same
  | called calling asked calls member object due wired runs upkept returned
      others after =>
      rw [after]
      exact (congrArg Background.slaveW upkept.frame.background).trans
        calls.kernel.2

section Undisturbed

variable (sound : σ.Sound) (step : σ.step event = .next τ)
  (others : ∀ call, σ.calling event = some call → call.p ≠ p)

include sound step others

theorem connecting_step : τ.Connecting p fd ↔ σ.Connecting p fd := by
  cases step_effect sound step with
  | beside quiet unhandled beside =>
      have kept (alive : p ∈ σ.live) :
          (∃ s, τ.heap p = some s ∧ s.state = .requestConnecting ∧
            s.originFd = some fd) ↔ ∃ s, σ.heap p = some s ∧
              s.state = .requestConnecting ∧ s.originFd = some fd := by
        obtain ⟨s, object, -⟩ := sound.roster.wired p alive
        obtain ⟨dns, after⟩ := beside.kept p alive s object
        rw [object, after]
        constructor
        · rintro ⟨t, same, waits⟩
          cases same
          exact ⟨s, rfl, waits⟩
        · rintro ⟨t, same, waits⟩
          cases same
          exact ⟨_, rfl, waits⟩
      rcases beside.live with same | ⟨q, t, new, more, object, accepted⟩
      · unfold Connecting
        rw [same]
        exact and_congr_right kept
      · constructor
        · rintro ⟨alive, s, stored, state, origin⟩
          rw [more] at alive
          rcases List.mem_append.mp alive with earlier | newcomer
          · exact ⟨earlier, (kept earlier).mp ⟨s, stored, state, origin⟩⟩
          · rw [List.mem_singleton.mp newcomer, object] at stored
            cases stored
            rw [accepted_helloRead accepted] at state
            cases state
        · rintro ⟨alive, waits⟩
          exact ⟨more ▸ List.mem_append_left _ alive, (kept alive).mpr waits⟩
  | @called call kind fd' a env calling asked calls member object due wired runs
      upkept returned apart after =>
      have other : p ≠ call.p := (others call calling).symm
      have listed : p ∈ τ.live ↔ p ∈ σ.live := by
        cases returned with
        | remains wired' kept live => rw [live]
        | ended closing free retires live =>
            rw [live]
            exact List.mem_erase_of_ne other
      unfold Connecting
      rw [listed, apart p other]

/-- Only the kernel, which ends the connect, changes the socket. -/
theorem socket_step (after : τ.Sound) (waits : σ.Connecting p fd) :
    τ.env.kernel.socket fd = σ.env.kernel.socket fd ∨
      σ.env.kernel.socket fd = some (.origin .inProgress) ∧
      ∃ e, event = .connectDone fd e ∧
        τ.env.kernel.socket fd = some (.origin (endedBy e)) := by
  cases step_effect sound step with
  | beside quiet unhandled beside =>
      obtain ⟨alive, t, stored, -, origin⟩ :=
        (connecting_step sound step others).mpr waits
      obtain ⟨u, object, wired, -⟩ := after.roster.wired p alive
      rw [stored] at object
      cases object
      obtain ⟨status, present⟩ := wired.held.connects fd origin
      rcases beside.origins fd status present with same |
        ⟨waiting, e, done, ended⟩
      · exact .inl (present.trans same.symm)
      · subst ended
        exact .inr ⟨waiting, e, done, present⟩
  | @called call kind fd' a env calling asked calls member object due wired runs
      upkept returned apart ended =>
      obtain ⟨alive, s, stored, -, origin⟩ := waits
      obtain ⟨t, held, tied, -⟩ := sound.roster.wired p alive
      rw [stored] at held
      cases held
      have tied : Wired p env s := tied.elsewhere fun fd => .inl (by
        cases calls <;> exact ⟨rfl, rfl⟩)
      rw [ended, ← calls.kernel.1]
      rcases upkept.frame.slots fd with slot | ⟨mine, -⟩
      · exact .inl slot.2
      · exact absurd (tied.held.origin fd origin).1.owned
          (mine.not_owned (others call calling).symm)

end Undisturbed

/-- The kernel ended the connect before the last `pselect`, which then set the
write bit. -/
def Readied (fd : Fd) (e : Errno) (late : List Event) : Prop :=
  ∃ left readable writable right,
    late = left ++ .pselect readable writable :: right ∧
    .connectDone fd e ∈ left ∧ writable fd = true ∧
    ∀ readable writable, .pselect readable writable ∉ right

/-- What is known of a connect since it was left in progress. -/
structure Tracked (p : Ptr) (fd : Fd) (late : List Event) (σ : Server) :
    Prop where
  waits : σ.Connecting p fd
  status : σ.env.kernel.socket fd = some (.origin .inProgress) ∨
    ∃ e, .connectDone fd e ∈ late ∧
      σ.env.kernel.socket fd = some (.origin (endedBy e))
  ready : σ.phase.ahead fd → σ.env.selector.slaveW fd = true →
    ∃ e, Readied fd e late ∧
      σ.env.kernel.socket fd = some (.origin (endedBy e))

theorem ended_ne_inProgress {e : Errno} {kernel : Kernel}
    (ended : kernel.socket fd = some (.origin (endedBy e))) :
    kernel.socket fd ≠ some (.origin .inProgress) := by
  rw [ended, endedBy]
  split <;> simp

theorem tracked_step {late : List Event} (tracked : Tracked p fd late σ)
    (candid : σ.Candid) (after : τ.Sound)
    (step : (undisturbed p).step σ event τ) :
    Tracked p fd (late ++ [event]) τ := by
  obtain ⟨⟨⟨taken, genuine⟩, -⟩, others⟩ := step
  have sound := candid.sound
  have socket := socket_step sound taken others after tracked.waits
  have ended {e : Errno}
      (ceased : σ.env.kernel.socket fd = some (.origin (endedBy e))) :
      τ.env.kernel.socket fd = some (.origin (endedBy e)) := by
    rcases socket with same | ⟨waiting, -⟩
    · exact same.trans ceased
    · exact absurd waiting (ended_ne_inProgress ceased)
  refine ⟨(connecting_step sound taken others).mpr tracked.waits, ?_,
    fun ahead bit => ?_⟩
  · rcases tracked.status with waiting | ⟨e, done, ceased⟩
    · rcases socket with same | ⟨-, e, done, ceased⟩
      · exact .inl (same.trans waiting)
      · exact .inr ⟨e, by simp [done], ceased⟩
    · exact .inr ⟨e, List.mem_append_left _ done, ended ceased⟩
  · by_cases returns : ∃ readable writable,
      event = .pselect readable writable
    · obtain ⟨readable, writable, rfl⟩ := returns
      rw [step_pselect taken] at bit
      have ready := (Bool.and_eq_true_iff.mp bit).1
      obtain ⟨e, done, ceased⟩ := tracked.status.resolve_left (genuine fd ready)
      exact ⟨e, ⟨late, readable, writable, [], rfl, done, ready, by simp⟩,
        ended ceased⟩
    · have returns : ∀ readable writable, event ≠ .pselect readable writable :=
        fun readable writable same => returns ⟨readable, writable, same⟩
      rw [step_slaveW sound taken returns] at bit
      obtain ⟨e, ⟨left, readable, writable, right, rfl, done, ready, last⟩,
        ceased⟩ := tracked.ready (step_ahead sound taken returns ahead).1 bit
      refine ⟨e, ⟨left, readable, writable, right ++ [event], by simp, done,
        ready, fun readable writable member => ?_⟩, ended ceased⟩
      rcases List.mem_append.mp member with earlier | same
      · exact last readable writable earlier
      · exact returns readable writable (List.mem_singleton.mp same).symm

/-- Every connect that a connection waits for was left in progress, and no
callback of the connection has run since. -/
theorem tracked_of_reachable (reachable : attentive.Reachable σ)
    (waits : σ.Connecting p fd) :
    ∃ m late, attentive.Reachable m ∧ m.Connecting p fd ∧
      m.env.kernel.socket fd = some (.origin .inProgress) ∧
      (undisturbed p).Run m late σ ∧ Tracked p fd late σ := by
  suffices history : attentive.Reachable σ ∧ ∀ p fd, σ.Connecting p fd →
      ∃ m late, attentive.Reachable m ∧ m.Connecting p fd ∧
        m.env.kernel.socket fd = some (.origin .inProgress) ∧
        (undisturbed p).Run m late σ ∧ Tracked p fd late σ from
    history.2 p fd waits
  apply reachable.invariant
  · intro σ starts
    refine ⟨⟨σ, [], starts, .nil σ⟩, fun p fd waits => ?_⟩
    have alive := waits.1
    rw [(init_unused starts).live] at alive
    cases alive
  · rintro σ event τ ⟨reachable, history⟩ step
    have later := reachable.step step
    have candid := candid_of_reachable reachable
    have after := candid_of_reachable later
    have taken := step.1.1
    refine ⟨later, fun p fd waits => ?_⟩
    by_cases own : ∃ call, σ.calling event = some call ∧ call.p = p
    · -- the call that made the connect
      obtain ⟨made, calling, rfl⟩ := own
      have begun : τ.env.kernel.socket fd = some (.origin .inProgress) := by
        cases step_effect candid.sound taken with
        | beside quiet =>
            rw [quiet] at calling
            cases calling
        | called called asked calls member object due wired runs upkept returned
            others ended =>
            rw [calling] at called
            cases called
            obtain ⟨alive, s, stored, state, origin⟩ := waits
            cases returned with
            | ended closing free retires live =>
                rw [live] at alive
                exact absurd alive candid.sound.roster.distinct.not_mem_erase
            | remains wired' kept =>
                rw [stored] at kept
                cases kept
                obtain ⟨number, held, socket⟩ := call_begun runs state
                rw [origin] at held
                cases held
                rw [ended]
                exact socket
      exact ⟨τ, [], later, waits, begun, .nil τ, waits, .inl begun,
        fun ahead bit => absurd begun (after.fresh fd ahead bit)⟩
    · have others : ∀ call, σ.calling event = some call → call.p ≠ p :=
        fun call calling same => own ⟨call, calling, same⟩
      obtain ⟨m, late, first, began, socket, run, tracked⟩ := history p fd
        ((connecting_step candid.sound taken others).mp waits)
      exact ⟨m, late ++ [event], first, began, socket, run.snoc ⟨step, others⟩,
        tracked_step tracked candid after.sound ⟨step, others⟩⟩

/-- The connect of a connection was left in progress, and has ended in time for
the write bit on which the server acts; no callback of the connection has run in
between. -/
def Completed (σ : Server) (p : Ptr) (fd : Fd) (e : Errno) : Prop :=
  ∃ m late, attentive.Reachable m ∧ m.Connecting p fd ∧
    m.env.kernel.socket fd = some (.origin .inProgress) ∧
    (undisturbed p).Run m late σ ∧ Readied fd e late

theorem completed_of_call (reachable : attentive.Reachable σ)
    {call : Called} {kind : EventKind} {env : Env} {origin : Fd}
    (member : call.p ∈ σ.live) (object : σ.heap call.p = some call.before)
    (calls : Calls σ event call kind fd env)
    (due : Due call.p env call.before kind fd)
    (wired : Wired call.p env call.before)
    (connecting : call.before.state = .requestConnecting)
    (held : call.before.originFd = some origin) :
    ∃ e, σ.Completed call.p origin e ∧
      σ.env.kernel.socket origin = some (.origin (endedBy e)) := by
  obtain ⟨rfl, own⟩ := (wired.due_seeking due).2.2 connecting
  obtain rfl : origin = fd := Option.some.inj (held.symm.trans own)
  obtain ⟨m, late, first, began, socket, run, tracked⟩ :=
    tracked_of_reachable reachable
      ⟨member, call.before, object, connecting, held⟩
  cases calls with
  | visit plain unhandled reads writes =>
      obtain ⟨bit, input, n, data, writing, phase⟩ := writes rfl
      have ahead : σ.phase.ahead origin := by
        rw [phase]
        exact Nat.le_refl origin
      obtain ⟨e, readied, ceased⟩ := tracked.ready ahead bit
      exact ⟨e, ⟨m, late, first, began, socket, run, readied⟩, ceased⟩

theorem errno_of_soError {e : Errno} {kernel : Kernel}
    (ceased : kernel.socket fd = some (.origin (endedBy e)))
    (read : kernel.soError fd = 0) : e = 0 := by
  by_contra nonzero
  have failed : kernel.socket fd = some (.origin (.failed e)) := by
    rw [ceased, endedBy, if_neg nonzero]
  unfold Kernel.soError at read
  rw [failed] at read
  exact nonzero read

end Server

/-- While no connect gets a stale number: `connecting_write` runs only for a
connect that has ended, before the `pselect` whose bit it is called for; and a
connection goes from REQUEST_CONNECTING to a reply of success only when that
connect was completed, or a further one within the call itself. -/
theorem connect_completed {σ τ : Server} {event : Event}
    (reachable : Server.attentive.Reachable σ)
    (step : Server.attentive.step σ event τ) :
    (∀ call, σ.calling event = some call →
      call.before.state = .requestConnecting →
      ∃ fd e, call.before.originFd = some fd ∧ σ.Completed call.p fd e) ∧
    ∀ p s t, p ∈ σ.live → σ.heap p = some s → s.state = .requestConnecting →
      p ∈ τ.live → τ.heap p = some t → t.state = .requestWrite →
      t.reply = repSuccess →
      ∃ fd call, s.originFd = some fd ∧ σ.calling event = some call ∧
        call.p = p ∧
        (σ.Completed p fd 0 ∧ t.originFd = some fd ∧
          τ.env.kernel.socket fd = some (.origin .connected) ∨
        ∃ other address, .connect other address 0 ∈ call.after.calls ∧
          t.originFd = some other ∧
          τ.env.kernel.socket other = some (.origin .connected)) := by
  have candid := Server.candid_of_reachable reachable
  have later := Server.candid_of_reachable (reachable.step step)
  have origin {call : Server.Called}
      (member : call.p ∈ σ.live) (object : σ.heap call.p = some call.before)
      (connecting : call.before.state = .requestConnecting) :
      ∃ fd, call.before.originFd = some fd := by
    obtain ⟨fd, -, held, -⟩ :=
      (candid.backed call.p member call.before object).connecting connecting
    exact ⟨fd, held⟩
  cases Server.step_effect candid.sound step.1.1 with
  | beside quiet unhandled beside =>
      refine ⟨fun call calling => ?_, fun p s t alive object connecting _ stored
        writing => ?_⟩
      · rw [quiet] at calling
        cases calling
      · obtain ⟨dns, kept⟩ := beside.kept p alive s object
        rw [stored] at kept
        cases kept
        cases connecting.symm.trans writing
  | @called made kind number a env calling asked calls member object due wired
      runs upkept returned others after =>
      refine ⟨fun call called connecting => ?_, fun p s t alive held connecting
        remains stored writing success => ?_⟩
      · rw [calling] at called
        cases called
        obtain ⟨fd, held⟩ := origin member object connecting
        obtain ⟨e, completed, -⟩ := Server.completed_of_call reachable member
          object calls due wired connecting held
        exact ⟨fd, e, held, completed⟩
      · by_cases own : p = made.p
        · subst own
          rw [object] at held
          cases held
          obtain ⟨fd, held⟩ := origin member object connecting
          obtain ⟨e, completed, ceased⟩ := Server.completed_of_call reachable
            member object calls due wired connecting held
          obtain ⟨other, reached, socket⟩ :=
            (later.backed made.p remains t stored).success writing success
          refine ⟨fd, made, held, calling, rfl, ?_⟩
          cases returned with
          | ended closing free retires live =>
              rw [live] at remains
              exact absurd remains candid.sound.roster.distinct.not_mem_erase
          | remains wired' kept =>
              rw [stored] at kept
              cases kept
              rcases call_succeeds connecting held (step.1.2.answers asked) runs
                writing success with ⟨read, same⟩ | ⟨_, address, same, called⟩
              · rw [calls.kernel.1] at read
                obtain rfl := Server.errno_of_soError ceased read
                rw [same] at reached
                cases reached
                exact .inl ⟨completed, same, socket⟩
              · rw [same] at reached
                cases reached
                exact .inr ⟨_, address, called, same, socket⟩
        · rw [others p own, held] at stored
          cases stored
          cases connecting.symm.trans writing

namespace Server

/-- The visits of the descriptors below a number, when there are no events. -/
private def passing (inputs : Fd → Input) : Nat → List Turn
  | 0 => []
  | n + 1 => passing inputs n ++
      [.event (.visitRead (inputs n)), .event (.visitWrite ⟨.idle, unaccepted⟩)]

private def tried : List Turn :=
  greeted 1 7 ++ [.readable 1 (asking eInProgress),
    .event (.connectDone 2 0),
    .event (.pselect (fun _ => false) fun fd => decide (fd = 2))] ++
  passing (fun _ => ⟨.idle, unaccepted⟩) 2 ++
  [.event (.visitRead ⟨.idle, unaccepted⟩)]

end Server

theorem connect_completed_later :
    ∃ (σ τ : Server) (event : Event) (t : Socks5),
      Server.attentive.step σ event τ ∧ τ.heap 7 = some t ∧
      t.state = .requestWrite ∧ t.reply = repSuccess ∧
      ∃ call, σ.calling event = some call ∧ call.p = 7 ∧
        (σ.Completed 7 2 0 ∧ t.originFd = some 2 ∧
          τ.env.kernel.socket 2 = some (.origin .connected) ∨
        ∃ other address, .connect other address 0 ∈ call.after.calls ∧
          t.originFd = some other ∧
          τ.env.kernel.socket other = some (.origin .connected)) := by
  have expected : ((Server.perform id Server.attentively 30 Server.tried
      (.opening configInitDefaults usersInit)).any fun σ =>
        (Server.attentively σ (.visitWrite ⟨.idle, Server.unaccepted⟩)).any
          fun τ => decide (7 ∈ σ.live ∧ 7 ∈ τ.live) &&
            ((σ.heap 7).any fun s => decide
              (s.state = .requestConnecting ∧ s.originFd = some 2)) &&
            (τ.heap 7).any fun t => decide
              (t.state = .requestWrite ∧ t.reply = repSuccess)) = true := by
    decide +kernel
  obtain ⟨σ, performs, facts⟩ := (Option.any_eq_true ..).mp expected
  obtain ⟨τ, advances, facts⟩ := (Option.any_eq_true ..).mp facts
  obtain ⟨facts, after⟩ := Bool.and_eq_true_iff.mp facts
  obtain ⟨alive, before⟩ := Bool.and_eq_true_iff.mp facts
  obtain ⟨alive, remains⟩ := of_decide_eq_true alive
  obtain ⟨s, object, facts⟩ := (Option.any_eq_true ..).mp before
  obtain ⟨connecting, origin⟩ := of_decide_eq_true facts
  obtain ⟨t, stored, facts⟩ := (Option.any_eq_true ..).mp after
  obtain ⟨writing, success⟩ := of_decide_eq_true facts
  obtain ⟨events, run⟩ :=
    Server.moves_of_perform Server.step_of_attentively performs
  obtain ⟨event, step⟩ := Server.step_of_attentively advances
  obtain ⟨fd, call, held, completed⟩ := (connect_completed
    ⟨_, events, Server.init_opening _ _, run⟩ step).2 7 s t alive object
    connecting remains stored writing success
  rw [origin] at held
  cases held
  exact ⟨σ, τ, event, t, step, stored, writing, success, call, completed⟩

namespace Server

/-- Three connections: the first is relayed to an origin, 4, that is reported
as writable, and ends in the same iteration; the requests of the others then
take the numbers 1 and 4. -/
private def overtaken : List Turn :=
  greeted 1 10 ++ greeted 2 11 ++ greeted 3 12 ++
  [.readable 1 (asking 0), .writable 1 (.accepting [10]),
    .readable 1 { Answers.receiving [1] with sends := [.error eAgain] },
    .event (.pselect (fun fd => decide (fd ∈ [1, 2, 3]))
      fun fd => decide (fd = 4))] ++
  passing (fun fd =>
    ⟨if fd = 1 then { Answers.receiving [2] with sends := [.error 32] }
      else asking eInProgress, unaccepted⟩) 4 ++
  [.event (.visitRead ⟨.idle, unaccepted⟩)]

end Server

/-- Without the condition it is otherwise: the bit that was set for the origin
of the first connection makes `connecting_write` take the connect of the third
for completed. -/
theorem success_of_stale_bit :
    ∃ (σ τ : Server) (event : Event) (s t : Socks5),
      Server.honest.Reachable σ ∧ Server.honest.step σ event τ ∧
      12 ∈ σ.live ∧ σ.heap 12 = some s ∧ s.state = .requestConnecting ∧
      s.originFd = some 4 ∧ 12 ∈ τ.live ∧ τ.heap 12 = some t ∧
      t.state = .requestWrite ∧ t.reply = repSuccess ∧ t.originFd = some 4 ∧
      σ.env.kernel.socket 4 = some (.origin .inProgress) ∧
      τ.env.kernel.socket 4 = some (.origin .inProgress) := by
  have expected : ((Server.perform id Server.honestly 30 Server.overtaken
      (.opening configInitDefaults usersInit)).any fun σ =>
        (Server.honestly σ (.visitWrite ⟨.idle, Server.unaccepted⟩)).any
          fun τ => decide (12 ∈ σ.live ∧ 12 ∈ τ.live ∧
              σ.env.kernel.socket 4 = some (.origin .inProgress) ∧
              τ.env.kernel.socket 4 = some (.origin .inProgress)) &&
            ((σ.heap 12).any fun s => decide
              (s.state = .requestConnecting ∧ s.originFd = some 4)) &&
            (τ.heap 12).any fun t => decide
              (t.state = .requestWrite ∧ t.reply = repSuccess ∧
                t.originFd = some 4)) = true := by
    decide +kernel
  have steps {σ τ : Server} {event : Event}
      (advances : σ.honestly event = some τ) :
      ∃ label, Server.honest.step σ label τ :=
    (Server.step_of_honestly advances).imp fun _ step => step.1
  obtain ⟨σ, performs, facts⟩ := (Option.any_eq_true ..).mp expected
  obtain ⟨τ, advances, facts⟩ := (Option.any_eq_true ..).mp facts
  obtain ⟨facts, after⟩ := Bool.and_eq_true_iff.mp facts
  obtain ⟨facts, before⟩ := Bool.and_eq_true_iff.mp facts
  obtain ⟨alive, remains, waiting, still⟩ := of_decide_eq_true facts
  obtain ⟨s, object, facts⟩ := (Option.any_eq_true ..).mp before
  obtain ⟨connecting, origin⟩ := of_decide_eq_true facts
  obtain ⟨t, stored, facts⟩ := (Option.any_eq_true ..).mp after
  obtain ⟨writing, success, same⟩ := of_decide_eq_true facts
  obtain ⟨events, run⟩ := Server.moves_of_perform steps performs
  obtain ⟨event, step⟩ := steps advances
  exact ⟨σ, τ, event, s, t, ⟨_, events, Server.init_opening _ _, run⟩, step,
    alive, object, connecting, origin, remains, stored, writing, success, same,
    waiting, still⟩

end SocksProxy
