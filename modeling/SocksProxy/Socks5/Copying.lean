import SocksProxy.Socks5.Relay

/-! Runs of a connection from the moment it enters COPY. -/

namespace SocksProxy

open Pipe Transition

theorem Hosts.apart {p : Ptr} {env : Env} {s : Socks5} (hosts : Hosts p env s) :
    s.originNumber ≠ s.clientFd := by
  obtain ⟨⟨valid, _⟩, origin⟩ := hosts
  unfold Socks5.originNumber
  cases found : s.originFd with
  | none =>
      rintro same
      rw [← same] at valid
      simp [invalidFd] at valid
  | some fd => exact (origin fd found).2

theorem Carried.jump {key : Key} {a : Answers} {before : Socks5} {t : List Call}
    {c : Ctx} {next : SocksState} (carried : Carried before t c.s)
    (leaves : next = .copy ∨ next = .done) :
    Carried before t (SocksProxy.jump key a next c).s := by
  obtain ⟨clientFd, originFd, toOrigin, toClient, clientEof, originEof⟩ :=
    carried
  rw [jump_s]
  split
  · exact ⟨clientFd, originFd, toOrigin, toClient, clientEof, originEof⟩
  · rcases leaves with rfl | rfl
    · exact ⟨clientFd, originFd, toOrigin, toClient,
        fun eof => absurd eof Bool.false_ne_true, fun eof =>
          absurd eof Bool.false_ne_true⟩
    · exact ⟨clientFd, originFd, toOrigin, toClient, clientEof, originEof⟩

theorem Carried.closes {before : Socks5} {t : List Call} {c after : Ctx}
    (carried : Carried before t c.s) (closes : Closes c after) :
    Carried before t after.s := by
  obtain ⟨clientFd, originFd, toOrigin, toClient, clientEof, originEof⟩ :=
    carried
  obtain ⟨references, object⟩ := closes.object
  rw [object]
  exact ⟨clientFd, originFd, toOrigin, toClient, clientEof, originEof⟩

theorem Completed.closes {c after : Ctx} (completed : Completed c.s)
    (closes : Closes c after) : Completed after.s := by
  obtain ⟨clientEof, toOrigin, originEof, toClient⟩ := completed
  obtain ⟨references, object⟩ := closes.object
  rw [object]
  exact ⟨clientEof, toOrigin, originEof, toClient⟩

theorem Handled.state {kind : EventKind} {key : Key} {a : Answers}
    {c after middle : Ctx} {next : SocksState}
    (handled : Handled kind key a c after middle next) :
    after.s.state = next := by
  obtain ⟨references, object⟩ := handled.closes.object
  rw [object]
  exact jump_state key a next middle

/-- A step in COPY conveys octets, and leaves that state in two ways only. -/
theorem copy_step {p : Ptr} {s next : Socks5} {calls : List Call}
    (copying : s.state = .copy) (step : ConnectionStep p s calls next) :
    Carried s calls next ∧
      (next.state = .copy ∨ next.state = .done ∧
        (Completed next ∨ FailedHard s.clientFd calls ∨
          FailedHard s.originNumber calls)) := by
  cases step with
  | resolved answer =>
      exact ⟨⟨rfl, rfl, .nil _, .nil _, .inl, .inl⟩, .inl copying⟩
  | @handled kind fd a env after hosts runs =>
      obtain ⟨middle, next, handled⟩ := handled_of_handler runs
      obtain ⟨handler, serves, ran⟩ := handled.runs
      have served : Serves .copy kind handler := copying ▸ serves
      have effect := copy_effect hosts.apart a served ran
      have calls : after.calls = middle.calls :=
        handled.closes.calls.trans (jump_calls ..)
      have carries (relays : Relays (Ctx.started ⟨env, s, [], false⟩) middle)
          (leaves : next = .copy ∨ next = .done) :
          Carried s after.calls after.s := by
        obtain ⟨more, added, carried⟩ := relays
        have whole : after.calls = more := calls.trans added
        obtain ⟨clientFd, originFd, toOrigin, toClient, clientEof, originEof⟩ :=
          carried
        have carried : Carried s more middle.s :=
          ⟨clientFd, originFd, toOrigin, toClient, clientEof, originEof⟩
        rw [whole]
        exact (carried.jump leaves).closes handled.closes
      have state := handled.state
      generalize reached : (middle, next) = result at effect
      cases effect with
      | stays relays =>
          cases reached
          exact ⟨carries relays (.inl rfl), .inl state⟩
      | completed relays completed =>
          cases reached
          refine ⟨carries relays (.inr rfl), .inr ⟨state, .inl ?_⟩⟩
          refine Completed.closes ?_ handled.closes
          rw [jump_s]
          split
          · exact completed
          · exact ⟨completed.1, completed.2, completed.3, completed.4⟩
      | failed relays hard =>
          cases reached
          obtain ⟨more, added, failed⟩ := hard
          rw [show more = after.calls from (calls.trans added).symm] at failed
          exact ⟨carries relays (.inr rfl), .inr ⟨state, .inr failed⟩⟩

/-- A connection that is done makes no more calls. -/
theorem done_step {p : Ptr} {s next : Socks5} {calls : List Call}
    (done : s.state = .done) (step : ConnectionStep p s calls next) :
    calls = [] ∧ next.state = .done ∧ Carried s [] next := by
  cases step with
  | resolved answer => exact ⟨rfl, done, rfl, rfl, .nil _, .nil _, .inl, .inl⟩
  | handled hosts runs =>
      obtain ⟨middle, next, handled⟩ := handled_of_handler runs
      obtain ⟨handler, serves, ran⟩ := handled.runs
      rw [show (Ctx.s ⟨_, s, [], false⟩) = s from rfl, done] at serves
      cases serves

theorem done_run {p : Ptr} {s last : Socks5} {labels : List (List Call)}
    (done : s.state = .done) (run : (connection p).Run s labels last) :
    labels.flatten = [] ∧ last.state = .done := by
  induction run with
  | nil => exact ⟨rfl, done⟩
  | snoc _ step induction =>
      obtain ⟨quiet, closed⟩ := induction
      obtain ⟨none, still, _⟩ := done_step closed step
      rw [List.flatten_append, quiet, none]
      exact ⟨rfl, still⟩

/-- Only `request_write` enters COPY, with the last octet of a successful
reply. -/
theorem copy_entry {kind : EventKind} {key : Key} {a : Answers} {env : Env}
    {before : Socks5} {c : Ctx} (elsewhere : before.state ≠ .copy)
    (runs : socksv5Handler kind key a ⟨env, before, [], false⟩ = some c)
    (copying : c.s.state = .copy) :
    before.state = .requestWrite ∧ before.reply = repSuccess ∧
      ∃ buffer, Buffer.content buffer = [] ∧ buffer.Rewound ∧
        buffer.limit = before.writeBuffer.limit ∧
        c.calls = [.send before.clientFd before.writeBuffer.content,
          .loggerAccess before.accessRecord] ∧
        c.s = { before with
          current := some .copy
          writeBuffer := buffer
          clientEof := false
          originEof := false
          clientWrShut := false
          originWrShut := false
          sniffPop3 :=
            decide (before.destPort = pop3Port) && env.config.pop3Sniff } ∧
        c = copyComputeInterests ⟨env, c.s, c.calls, false⟩ := by
  obtain ⟨middle, next, handled⟩ := handled_of_handler runs
  obtain ⟨handler, serves, ran⟩ := handled.runs
  have same : next = .copy := handled.state.symm.trans copying
  subst same
  have follows : SocksState.copy ∈ before.state.successors :=
    handler_next serves ran
  have state : before.state = .requestWrite := by
    cases st : before.state <;> rw [st] at follows elsewhere <;>
      simp [SocksState.successors] at follows elsewhere
  rw [show (Ctx.s ⟨env, before, [], false⟩) = before from rfl, state] at serves
  cases serves
  have effect :=
    requestWrite_effect key a (Ctx.started ⟨env, before, [], false⟩)
  rw [eq_of_total ran] at effect
  generalize reached : (middle, SocksState.copy) = result at effect
  have entered := handled.stays (by simp [SocksState.closing])
  subst entered
  cases effect with
  | again | failed | partly => cases reached
  | @flushed buffer content limit rewound =>
      unfold replySent at reached
      dsimp only at reached
      split at reached
      · cases reached
      next success =>
        have success : before.reply = repSuccess := not_not.mp success
        have first : middle = _ := congrArg Prod.fst reached
        have elsewhere : middle.s.current ≠ some .copy := by
          rw [first]
          change some before.state ≠ some .copy
          rw [state]
          simp
        have jumped : jump key a .copy middle = enter key a .copy middle :=
          if_neg elsewhere
        have object : (jump key a .copy middle).s = { before with
            current := some .copy
            writeBuffer := buffer
            clientEof := false
            originEof := false
            clientWrShut := false
            originWrShut := false
            sniffPop3 :=
                decide (before.destPort = pop3Port) &&
                env.config.pop3Sniff } := by
          rw [jumped, enter_s, first]
          rfl
        have calls : (jump key a .copy middle).calls =
            [.send before.clientFd before.writeBuffer.content,
              .loggerAccess before.accessRecord] := by
          rw [jump_calls, first]
          rfl
        refine ⟨state, success, buffer, content, rewound, limit, calls, object,
          ?_⟩
        rw [object, calls, jumped, first]
        rfl

theorem copy_entered {p : Ptr} {before entered : Socks5} {calls : List Call}
    (elsewhere : before.state ≠ .copy)
    (step : ConnectionStep p before calls entered)
    (copying : entered.state = .copy) :
    entered.writeBuffer.content = [] ∧ entered.clientEof = false ∧
      entered.originEof = false ∧ entered.readBuffer = before.readBuffer := by
  cases step with
  | resolved answer => exact absurd copying elsewhere
  | handled hosts runs =>
      obtain ⟨-, -, buffer, content, -, -, -, object, -⟩ :=
        copy_entry elsewhere runs copying
      rw [object]
      exact ⟨content, rfl, rfl, rfl⟩

theorem carried_of_run {p : Ptr} {entered s : Socks5}
    {labels : List (List Call)} (copying : entered.state = .copy)
    (run : (connection p).Run entered labels s) :
    Carried entered labels.flatten s ∧ (s.state = .copy ∨ s.state = .done) := by
  induction run with
  | nil => exact ⟨.refl _, .inl copying⟩
  | snoc _ step induction =>
      obtain ⟨carried, state | state⟩ := induction
      · obtain ⟨more, next⟩ := copy_step state step
        rw [List.flatten_append, List.flatten_singleton]
        exact ⟨carried.trans more, next.imp_right And.left⟩
      · obtain ⟨rfl, done, more⟩ := done_step state step
        rw [List.flatten_append, List.flatten_singleton]
        exact ⟨carried.trans more, .inr done⟩

end SocksProxy
