import SocksProxy.Mgmt.Serving

/-! Pipelined requests: what the connection sends is what the sequential server
answers, as long as no incomplete request clogs the receive buffer. -/

namespace SocksProxy

open Framing Transition SmpMessage

structure Finished (env : Env) (messages : List SmpMessage) (link : MgmtLink) :
    Prop where
  closed : link.x.closed = true
  pending : link.pending = []
  users : link.x.env.users = (serveAll serve env messages).1.users
  config : link.x.env.config = (serveAll serve env messages).1.config
  answered : link.sent = (serveAll serve env messages).2

theorem Finished.stuck {env : Env} {messages : List SmpMessage}
    {link : MgmtLink} (finished : Finished env messages link) (key : Key)
    (event : MgmtEvent) {next : MgmtLink} :
    link.next key event ≠ some next := by
  intro taken
  cases event <;>
    simp [MgmtLink.next, MgmtLink.readable, MgmtLink.writable, finished.closed]
    at taken

theorem Attached.readable_iff {key : Key} {i : Interest} {link : MgmtLink}
    (attached : Attached key i link.x) : link.readable key ↔ i.read = true := by
  simp [MgmtLink.readable, attached.live, Selector.masterR, attached.item]

theorem Attached.writable_iff {key : Key} {i : Interest} {link : MgmtLink}
    (attached : Attached key i link.x) :
    link.writable key ↔ i.write = true := by
  simp [MgmtLink.writable, attached.live, Selector.masterW, attached.item]

theorem Attached.call {key : Key} {i : Interest} {x : MgmtCtx}
    (attached : Attached key i x) (made : MgmtCall) :
    Attached key i (x.call made) := by
  obtain ⟨live, fd, item, kept, receive, send⟩ := attached
  exact ⟨live, fd, item, kept, receive, send⟩

section Step

variable {key : Key} {env : Env} {messages done todo : List SmpMessage}
  {sizes : List Nat} {link : MgmtLink} (valid : invalidFd key.fd = false)

theorem Awaiting.space_ne_zero
    (awaiting :
      Awaiting key env done todo (occupancy (done ++ todo) sizes) link)
    (short : Incomplete todo link)
    (unclogged : ¬ Clogged (done ++ todo) sizes) :
    link.x.c.rbuf.space ≠ 0 := by
  have boundary := awaiting.boundary_iff short
  have offset := awaiting.offset
  have bound := link.x.c.rbuf.write_le_limit
  rw [awaiting.attached.receive] at bound
  unfold Buffer.space
  rw [awaiting.attached.receive]
  by_cases empty : link.x.c.rbuf.content = []
  · rw [if_pos empty] at offset
    rw [offset]
    decide
  · rw [if_neg empty] at offset
    have free : (occupancy (done ++ todo) sizes).2 ≠ mgmtRbuf := fun full =>
      unclogged ⟨fun ends => empty (boundary.mp ends), full⟩
    omega

theorem Awaiting.unready {used : Nat × Nat}
    (awaiting : Awaiting key env done todo used link)
    (room : link.x.c.rbuf.space ≠ 0) :
    mgmtRead key .idle link.x = some (link.x.call (.recvFailed eAgain)) ∧
      Awaiting key env done todo used
        ⟨link.x.call (.recvFailed eAgain), link.pending⟩ := by
  constructor
  · unfold mgmtRead
    rw [if_neg room]
    rfl
  · obtain ⟨⟨attached, effects, octets, received, offset, admitted, requests⟩,
      state, answered⟩ := awaiting
    refine ⟨⟨attached.call _, effects, octets, received, offset,
      admitted, requests⟩, state, ?_⟩
    rw [← answered]
    change delivered (link.x.calls ++ [.recvFailed eAgain]) =
      delivered link.x.calls
    rw [delivered_append]
    exact List.append_nil _

theorem Replying.blocked {used : Nat × Nat}
    (replying : Replying key env done todo used link) :
    Replying key env done todo used
      ⟨link.x.call (.sendFailed eAgain), link.pending⟩ := by
  obtain ⟨⟨attached, effects, octets, received, offset, admitted, requests⟩,
    later, answered⟩ := replying
  refine ⟨⟨attached.call _, effects, octets, received, offset,
    admitted, requests⟩, later, ?_⟩
  rw [← answered]
  change delivered (link.x.calls ++ [.sendFailed eAgain]) ++ _ =
    delivered link.x.calls ++ _
  rw [delivered_append]
  exact congrArg (· ++ _) (List.append_nil _)

/-- With nothing more to come every message has been processed. -/
theorem Awaiting.todo_eq_nil {used : Nat × Nat}
    (awaiting : Awaiting key env done todo used link)
    (short : Incomplete todo link) (last : link.pending = []) : todo = [] := by
  cases todo with
  | nil => rfl
  | cons message rest =>
      have part := short message rest rfl
      have octets := congrArg List.length awaiting.octets
      rw [last, stream_cons] at octets
      simp only [List.length_append, List.length_nil] at octets
      omega

include valid

theorem mgmtDone_attached {i : Interest} {x : MgmtCtx}
    (attached : Attached key i x) :
    mgmtDone key x = some { x with
      env := { x.env with
        kernel := x.env.kernel.close key.fd
        selector := selectorRemove x.env.selector key.fd }
      closed := true } := by
  simp [mgmtDone, valid, attached.item]

theorem Awaiting.ended {used : Nat × Nat}
    (awaiting : Awaiting key env done todo used link)
    (room : link.x.c.rbuf.space ≠ 0) (short : Incomplete todo link)
    (last : link.pending = []) :
    ∃ x, mgmtRead key (.receiving []) link.x = some x ∧
      Finished env (done ++ todo) ⟨x, link.pending⟩ := by
  have none := awaiting.todo_eq_nil short last
  subst none
  have effects := awaiting.effects
  have users : link.x.env.users = (serveAll serve env done).1.users := by
    simpa only using congrArg Env.users effects
  have config : link.x.env.config = (serveAll serve env done).1.config := by
    simpa only using congrArg Env.config effects
  have runs : mgmtRead key (.receiving []) link.x =
      mgmtDone key (link.x.call (.recv [])) := by
    unfold mgmtRead
    rw [if_neg room]
    simp only [Answers.receiving, List.take_nil, if_true]
  rw [runs, mgmtDone_attached valid (awaiting.attached.call (.recv [])),
    List.append_nil]
  refine ⟨_, rfl, ⟨rfl, last, users, config, ?_⟩⟩
  rw [← awaiting.answered]
  change delivered (link.x.calls ++ [.recv []]) = delivered link.x.calls
  rw [delivered_append]
  exact List.append_nil _

theorem Served.step {event : MgmtEvent} {next : MgmtLink}
    (served : Served key env messages (occupancy messages sizes) link)
    (unclogged : event.reads = true → ¬ Clogged messages sizes)
    (step : link.next key event = some next) :
    Served key env messages (occupancy messages (sizes ++ chunks [event]))
      next ∨
      Finished env messages next := by
  obtain ⟨done, todo, rfl, ⟨awaiting, short⟩ | replying⟩ := served
  · have unwritable : ¬ link.writable key := by
      rw [awaiting.attached.writable_iff]
      exact Bool.false_ne_true
    cases event with
    | received count =>
        have room := awaiting.space_ne_zero short (unclogged rfl)
        simp only [MgmtLink.next] at step
        split at step
        next enabled =>
          obtain ⟨_, positive, available, fits | full⟩ := enabled
          · obtain ⟨x, runs, settled⟩ :=
              awaiting.receive valid short positive available fits
            rw [runs, Nat.min_eq_left fits] at step
            cases step
            refine .inl ?_
            change Served key env (done ++ todo)
              (occupancy (done ++ todo) (sizes ++ [count])) _
            rw [occupancy_concat]
            exact settled.served
          · exact absurd full room
        next => cases step
    | unready =>
        have room := awaiting.space_ne_zero short (unclogged rfl)
        obtain ⟨runs, still⟩ := awaiting.unready room
        simp only [MgmtLink.next, runs] at step
        split at step
        next =>
          cases step
          refine .inl ⟨done, todo, rfl, .inl ⟨?_, short⟩⟩
          simpa [chunks] using still
        next => cases step
    | ended =>
        have room := awaiting.space_ne_zero short (unclogged rfl)
        simp only [MgmtLink.next] at step
        split at step
        next enabled =>
          obtain ⟨x, runs, finished⟩ :=
            awaiting.ended valid room short enabled.2
          rw [runs] at step
          cases step
          exact .inr finished
        next => cases step
    | sent count =>
        simp only [MgmtLink.next, unwritable, if_false] at step
        cases step
    | blocked =>
        simp only [MgmtLink.next, unwritable, if_false] at step
        cases step
  · have unreadable : ¬ link.readable key := by
      rw [replying.attached.readable_iff]
      exact Bool.false_ne_true
    cases event with
    | sent count =>
        obtain ⟨x, runs, result⟩ := replying.send valid count
        simp only [MgmtLink.next, runs] at step
        split at step
        next =>
          cases step
          refine .inl ?_
          change Served key env (done ++ todo)
            (occupancy (done ++ todo) (sizes ++ [])) _
          rw [List.append_nil]
          rcases result with settled | ⟨_, still⟩
          · exact settled.served
          · exact ⟨done, todo, rfl, .inr still⟩
        next => cases step
    | blocked =>
        simp only [MgmtLink.next] at step
        split at step
        next =>
          cases step
          refine .inl ⟨done, todo, rfl, .inr ?_⟩
          simpa [chunks] using replying.blocked
        next => cases step
    | _ =>
        simp only [MgmtLink.next, unreadable, false_and, if_false] at step
        cases step

/-- The client can take what is still to be sent, and then every message that
has arrived whole has been answered. -/
theorem Replying.drain {used : Nat × Nat}
    (replying : Replying key env done todo used link) :
    ∃ events last, (∀ event ∈ events, ∃ count, event = .sent count) ∧
      (management key env messages).Run link events last ∧
      last.pending = link.pending ∧
      ∃ front rest, done ++ todo = front ++ rest ∧
        Awaiting key env front rest used last ∧ Incomplete rest last := by
  induction todo generalizing done link with
  | nil =>
      obtain ⟨x, runs, result⟩ :=
        replying.send valid link.x.c.wbuf.content.length
      have taken : (management key env messages).step link
          (.sent link.x.c.wbuf.content.length) ⟨x, link.pending⟩ := by
        change MgmtLink.next key link _ = _
        rw [MgmtLink.next, if_pos (replying.attached.writable_iff.mpr rfl),
          runs]
        rfl
      rcases result with (⟨awaiting, short⟩ | ⟨_, _, none, _⟩) | ⟨less, _⟩
      · refine ⟨_, _, ?_, .single taken, rfl, done, [], rfl, awaiting, short⟩
        simp
      · cases none
      · exact absurd less (Nat.lt_irrefl _)
  | cons message rest induction =>
      obtain ⟨x, runs, result⟩ :=
        replying.send valid link.x.c.wbuf.content.length
      have taken : (management key env messages).step link
          (.sent link.x.c.wbuf.content.length) ⟨x, link.pending⟩ := by
        change MgmtLink.next key link _ = _
        rw [MgmtLink.next, if_pos (replying.attached.writable_iff.mpr rfl),
          runs]
        rfl
      rcases result with (⟨awaiting, short⟩ | ⟨_, _, same, next⟩) | ⟨less, _⟩
      · refine ⟨_, _, ?_, .single taken, rfl, done, message :: rest, rfl,
          awaiting, short⟩
        simp
      · cases same
        obtain ⟨events, last, sends, others, pending, front, left,
          split, idle⟩ :=
          induction next
        refine ⟨_ :: events, last, ?_, (System.Run.single taken).append others,
          pending, front, left, ?_, idle⟩
        · rintro event (_ | ⟨_, member⟩)
          · exact ⟨_, rfl⟩
          · exact sends event member
        · rw [← split]
          simp
      · exact absurd less (Nat.lt_irrefl _)

theorem Served.drain {used : Nat × Nat}
    (served : Served key env messages used link) :
    ∃ events last, (∀ event ∈ events, ∃ count, event = .sent count) ∧
      (management key env messages).Run link events last ∧
      last.pending = link.pending ∧
      ∃ front rest, messages = front ++ rest ∧
        Awaiting key env front rest used last ∧ Incomplete rest last := by
  obtain ⟨done, todo, rfl, ⟨awaiting, short⟩ | replying⟩ := served
  · exact ⟨[], link, by simp, .nil link, rfl, done, todo, rfl, awaiting, short⟩
  · exact replying.drain valid

end Step

section Clog

variable {key : Key} {env : Env} {messages done todo : List SmpMessage}
  {used : Nat × Nat} {sizes : List Nat} {link : MgmtLink}

theorem Awaiting.pending_ne_nil
    (awaiting : Awaiting key env done todo used link)
    (short : Incomplete todo link)
    (inside : used.1 ∉ boundaries encode (done ++ todo)) :
    link.pending ≠ [] := by
  intro last
  have octets := awaiting.octets
  rw [awaiting.todo_eq_nil short last, last, List.append_nil] at octets
  exact inside ((awaiting.boundary_iff short).mpr octets)

variable (valid : invalidFd key.fd = false)

include valid

/-- Every `mgmt_read` of a clogged connection closes it, whatever `recv` would
give. -/
theorem Awaiting.overrun
    (awaiting :
      Awaiting key env done todo (occupancy (done ++ todo) sizes) link)
    (short : Incomplete todo link) (clogged : Clogged (done ++ todo) sizes) :
    link.x.c.rbuf.space = 0 ∧
      ∃ x, x.closed = true ∧ ∀ a, mgmtRead key a link.x = some x := by
  have filled : link.x.c.rbuf.content ≠ [] := fun empty =>
    clogged.1 ((awaiting.boundary_iff short).mpr empty)
  have offset := awaiting.offset
  have full : link.x.c.rbuf.space = 0 := by
    rw [Buffer.space, awaiting.attached.receive, offset, if_neg filled,
      clogged.2, Nat.sub_self]
  obtain ⟨x, done, closed⟩ : ∃ x, mgmtDone key link.x = some x ∧
      x.closed = true :=
    ⟨_, mgmtDone_attached valid awaiting.attached, rfl⟩
  exact ⟨full, x, closed, fun a => (if_pos full).trans done⟩

theorem Awaiting.overrun_step {event : MgmtEvent} {next : MgmtLink}
    (awaiting :
      Awaiting key env done todo (occupancy (done ++ todo) sizes) link)
    (short : Incomplete todo link) (clogged : Clogged (done ++ todo) sizes)
    (reads : event.reads = true) (step : link.next key event = some next) :
    next.x.closed = true ∧ next.pending = link.pending := by
  obtain ⟨full, x, closed, runs⟩ := awaiting.overrun valid short clogged
  cases event with
  | received count =>
      simp only [MgmtLink.next, runs, full, Nat.min_zero, List.drop_zero]
        at step
      split at step
      · cases step
        exact ⟨closed, rfl⟩
      · cases step
  | unready | ended =>
      simp only [MgmtLink.next, runs] at step
      split at step
      · cases step
        exact ⟨closed, rfl⟩
      · cases step
  | sent | blocked => cases reads

theorem Served.overrun_step {event : MgmtEvent} {next : MgmtLink}
    (served : Served key env messages (occupancy messages sizes) link)
    (clogged : Clogged messages sizes) (reads : event.reads = true)
    (step : link.next key event = some next) :
    next.x.closed = true ∧ next.pending ≠ [] := by
  obtain ⟨done, todo, rfl, ⟨awaiting, short⟩ | replying⟩ := served
  · obtain ⟨closed, same⟩ :=
      awaiting.overrun_step valid short clogged reads step
    exact ⟨closed, same ▸ awaiting.pending_ne_nil short clogged.1⟩
  · have unreadable : ¬ link.readable key := by
      rw [replying.attached.readable_iff]
      exact Bool.false_ne_true
    cases event with
    | received | unready | ended =>
        simp only [MgmtLink.next, unreadable, false_and, if_false] at step
        cases step
    | sent | blocked => cases reads

/-- Whatever a clogged connection still has to send, it is closed with the
octets that are pending, and a request of them, never received. -/
theorem Served.overrun
    (served : Served key env messages (occupancy messages sizes) link)
    (clogged : Clogged messages sizes) :
    ∃ events last, (management key env messages).Run link events last ∧
      last.x.closed = true ∧ last.pending = link.pending := by
  obtain ⟨events, idle, _, run, pending, done, todo, rfl, awaiting, short⟩ :=
    served.drain valid
  obtain ⟨-, x, closed, runs⟩ := awaiting.overrun valid short clogged
  have step : (management key env (done ++ todo)).step idle .unready
      ⟨x, idle.pending⟩ := by
    change MgmtLink.next key idle .unready = _
    rw [MgmtLink.next, if_pos (awaiting.attached.readable_iff.mpr rfl), runs]
    rfl
  exact ⟨_, _, run.snoc step, closed, pending⟩

end Clog

/-- No `mgmt_read` finds the buffer clogged. -/
def Unclogged (messages : List SmpMessage) (events : List MgmtEvent) : Prop :=
  ∀ n < events.length, events[n]?.any MgmtEvent.reads = true →
    ¬ Clogged messages (chunks (events.take n))

instance (messages : List SmpMessage) (events : List MgmtEvent) :
    Decidable (Unclogged messages events) :=
  inferInstanceAs (Decidable (∀ n < events.length, _ → _))

theorem unclogged_concat {messages : List SmpMessage} {events : List MgmtEvent}
    {event : MgmtEvent} (unclogged : Unclogged messages (events ++ [event])) :
    Unclogged messages events ∧
      (event.reads = true → ¬ Clogged messages (chunks events)) := by
  constructor
  · intro n below reads
    have calm := unclogged n (by simp; omega)
    rw [List.getElem?_append_left below,
      List.take_append_of_le_length (by omega)] at calm
    exact calm reads
  · intro reads
    have calm := unclogged events.length (by simp)
    rw [List.getElem?_concat_length, List.take_left] at calm
    exact calm reads

section Run

variable {key : Key} {env : Env} {user pass : Field}
  {requests : List SmpRequest} (hosted : MgmtHosted key env)
  (admitted : admits env.config user.val pass.val = true)

include hosted admitted

theorem awaiting_opened :
    Awaiting key env [] (session user pass requests) (0, 0)
        (mgmtOpened key env (session user pass requests)) ∧
      Incomplete (session user pass requests)
        (mgmtOpened key env (session user pass requests)) := by
  refine ⟨⟨⟨⟨rfl, rfl, hosted.2, rfl, rfl, rfl⟩, rfl, rfl, rfl, rfl, ?_, ?_⟩,
    rfl, rfl⟩, ?_⟩
  · intro first second member
    simp only [session, List.mem_cons, handshake.injEq, List.mem_map,
      reduceCtorEq, and_false, exists_false, or_false] at member
    obtain ⟨rfl, rfl⟩ := member
    exact admitted
  · intro message member
    obtain ⟨r, _, rfl⟩ := List.mem_map.mp member
    rfl
  · intro message rest _
    exact List.length_pos_of_ne_nil message.encode_ne_nil

theorem served_of_run {events : List MgmtEvent} {link : MgmtLink}
    (run : (management key env (session user pass requests)).Run
      (mgmtOpened key env (session user pass requests)) events link)
    (unclogged : Unclogged (session user pass requests) events) :
    Served key env (session user pass requests)
        (occupancy (session user pass requests) (chunks events)) link ∨
      Finished env (session user pass requests) link := by
  induction run with
  | nil => exact .inl ⟨[], _, rfl, .inl (awaiting_opened hosted admitted)⟩
  | @snoc _ _ events event _ step induction =>
      obtain ⟨before, now⟩ := unclogged_concat unclogged
      rcases induction before with served | finished
      · rw [chunks_append]
        exact served.step hosted.1 now step
      · exact absurd step (finished.stuck _ _)

end Run

/-- The connection has done what the sequential server does for `done`, and has
not seen the whole of the next message. -/
structure Pipelined (key : Key) (env : Env)
    (messages done todo : List SmpMessage) (link : MgmtLink) : Prop where
  split : messages = done ++ todo
  users : link.x.env.users = (serveAll serve env done).1.users
  config : link.x.env.config = (serveAll serve env done).1.config
  replies : link.sent <+: (serveAll serve env done).2
  idle : link.readable key →
    link.sent = (serveAll serve env done).2 ∧
      ∃ part, part ++ link.pending = stream encode todo ∧
        ∀ message rest, todo = message :: rest →
        part.length < message.encode.length
  drains : link.x.closed = false →
    ∃ events last, (∀ event ∈ events, ∃ count, event = .sent count) ∧
      (management key env messages).Run link events last ∧ last.readable key
  closed : link.x.closed = true →
    todo = [] ∧ link.pending = [] ∧ link.sent = (serveAll serve env messages).2

theorem Served.pipelined {key : Key} {env : Env} {messages : List SmpMessage}
    {used : Nat × Nat} {link : MgmtLink} (valid : invalidFd key.fd = false)
    (served : Served key env messages used link) :
    ∃ done todo, Pipelined key env messages done todo link := by
  have drained : ∃ events last,
      (∀ event ∈ events, ∃ count, event = .sent count) ∧
      (management key env messages).Run link events last ∧
      last.readable key := by
    obtain ⟨events, last, sends, run, _, _, _, _, awaiting, _⟩ :=
      served.drain valid
    exact ⟨events, last, sends, run, awaiting.attached.readable_iff.mpr rfl⟩
  obtain ⟨done, todo, split, ⟨awaiting, short⟩ | replying⟩ := served
  · have effects := awaiting.effects
    refine ⟨done, todo, split, ?_, ?_, ?_, ?_, fun _ => drained, ?_⟩
    · simpa only using congrArg Env.users effects
    · simpa only using congrArg Env.config effects
    · rw [awaiting.answered]
    · exact fun _ => ⟨awaiting.answered, _, awaiting.octets, short⟩
    · intro closed
      exact absurd (awaiting.attached.live.symm.trans closed) Bool.false_ne_true
  · have effects := replying.effects
    refine ⟨done, todo, split, ?_, ?_, ?_, ?_, fun _ => drained, ?_⟩
    · simpa only using congrArg Env.users effects
    · simpa only using congrArg Env.config effects
    · rw [← replying.answered]
      exact List.prefix_append ..
    · intro readable
      exact absurd (replying.attached.readable_iff.mp readable)
        Bool.false_ne_true
    · intro closed
      exact absurd (replying.attached.live.symm.trans closed) Bool.false_ne_true

theorem Finished.pipelined {key : Key} {env : Env} {messages : List SmpMessage}
    {link : MgmtLink} (finished : Finished env messages link) :
    Pipelined key env messages messages [] link where
  split := (List.append_nil _).symm
  users := finished.users
  config := finished.config
  replies := by rw [finished.answered]
  idle readable :=
    absurd (readable.1.symm.trans finished.closed) Bool.false_ne_true
  drains live := absurd (live.symm.trans finished.closed) Bool.false_ne_true
  closed _ := ⟨rfl, finished.pending, finished.answered⟩

/-- A run that never reads into a clogged buffer serves the requests one after
the other, and the connection stays open until its client ends the stream; the
first `mgmt_read` on a clogged buffer closes it with a request only half
received. -/
theorem pipelined_of_unclogged {key : Key} {env : Env} {user pass : Field}
    {requests : List SmpRequest} (hosted : MgmtHosted key env)
    (admitted : admits env.config user.val pass.val = true)
    {events : List MgmtEvent} {link : MgmtLink}
    (run : (management key env (session user pass requests)).Run
      (mgmtOpened key env (session user pass requests)) events link)
    (unclogged : Unclogged (session user pass requests) events) :
    (∃ done todo, Pipelined key env (session user pass requests) done
      todo link) ∧
      ∀ {event next}, event.reads = true →
        Clogged (session user pass requests) (chunks events) →
        (management key env (session user pass requests)).step link event next →
        next.x.closed = true ∧
          ∀ done todo, ¬ Pipelined key env (session user pass requests) done
            todo next := by
  rcases served_of_run hosted admitted run unclogged with served | finished
  · refine ⟨served.pipelined hosted.1, fun reads clogged step => ?_⟩
    obtain ⟨closed, lost⟩ := served.overrun_step hosted.1 clogged reads step
    exact ⟨closed, fun done todo pipelined =>
      lost (pipelined.closed closed).2.1⟩
  · refine ⟨⟨_, _, finished.pipelined⟩, fun reads clogged step => ?_⟩
    exact absurd step (finished.stuck _ _)

def soleMgmtEnv (key : Key) : Env :=
  let env := envInit ⟨.empty, 0⟩ configInitDefaults usersInit
  { env with
    selector := (selectorRegister env.selector key.fd .mgmt opRead key.data).1 }

def Field.replicate (count : Nat) (octet : UInt8)
    (sized : 1 ≤ count ∧ count ≤ 255) : Field :=
  ⟨List.replicate count octet, by
    rw [FieldLength, List.length_replicate]
    exact sized⟩

private def adminField : Field := ⟨(CString.ofString "admin").octets, by decide⟩

/-- A list of events, when all of them can happen. -/
def mgmtReplay (key : Key) : MgmtLink → List MgmtEvent → Option MgmtLink
  | link, [] => some link
  | link, event :: rest => (link.next key event).bind (mgmtReplay key · rest)

theorem run_of_mgmtReplay {key : Key} {env : Env} {messages : List SmpMessage}
    {link last : MgmtLink} {events : List MgmtEvent}
    (replayed : mgmtReplay key link events = some last) :
    (management key env messages).Run link events last := by
  induction events generalizing link with
  | nil =>
      cases replayed
      exact .nil last
  | cons event events induction =>
      obtain ⟨next, step, others⟩ := Option.bind_eq_some_iff.mp replayed
      have taken : (management key env messages).step link event next := step
      exact (System.Run.single taken).append (induction others)

/-- Handshake and two requests, received in two chunks and answered in parts. -/
theorem pipelined_of_unclogged_sample :
    ∃ done todo link, link.pending.length = 1 ∧
      Pipelined ⟨5, 0⟩ (soleMgmtEnv ⟨5, 0⟩)
        (session adminField adminField [.metrics, .getConfig]) done
          todo link := by
  let messages := session adminField adminField [.metrics, .getConfig]
  let events : List MgmtEvent :=
    [.unready, .received 7, .received 9, .sent 1, .blocked, .sent 9,
      .sent 60, .sent 1]
  have replayed : ((mgmtReplay ⟨5, 0⟩
      (mgmtOpened ⟨5, 0⟩ (soleMgmtEnv ⟨5, 0⟩) messages) events).any
        fun link => link.pending.length == 1) = true := by
    decide +kernel
  obtain ⟨link, ran, left⟩ := (Option.any_eq_true ..).mp replayed
  obtain ⟨⟨done, todo, pipelined⟩, -⟩ := pipelined_of_unclogged
    ⟨by decide, by decide⟩ (by decide) (run_of_mgmtReplay ran)
      (by decide +kernel)
  exact ⟨done, todo, link, by simpa using left, pipelined⟩

/-- A first chunk that fills the buffer and ends inside a request cuts the
connection off. -/
theorem overrun_of_first_chunk {key : Key} {env : Env} {user pass : Field}
    {requests : List SmpRequest} (hosted : MgmtHosted key env)
    (admitted : admits env.config user.val pass.val = true)
    (long : mgmtRbuf ≤ (stream encode (session user pass requests)).length)
    (clogged : Clogged (session user pass requests) [mgmtRbuf]) :
    ∃ events last,
      (management key env (session user pass requests)).Run
        (mgmtOpened key env (session user pass requests)) events last ∧
      last.x.closed = true ∧
      last.pending = (stream encode (session user pass requests)).drop
        mgmtRbuf := by
  obtain ⟨awaiting, short⟩ :=
    @awaiting_opened key env user pass requests hosted admitted
  obtain ⟨x, runs, settled⟩ := awaiting.receive hosted.1 short
    (by decide) long (Nat.le_refl _)
  have step : (management key env (session user pass requests)).step
      (mgmtOpened key env (session user pass requests)) (.received mgmtRbuf)
      ⟨x, (stream encode (session user pass requests)).drop mgmtRbuf⟩ := by
    change MgmtLink.next key _ (.received mgmtRbuf) = _
    have readable := awaiting.attached.readable_iff.mpr rfl
    rw [MgmtLink.next, if_pos ⟨readable, by decide, long, .inl (Nat.le_refl _)⟩,
      runs]
    rfl
  have served := settled.served
  obtain ⟨events, last, run, closed, pending⟩ := served.overrun hosted.1 clogged
  exact ⟨_, last, (System.Run.single step).append run, closed, pending⟩

/-- Eight requests of 514 octets after the handshake: the first 4096 octets end
inside the last request, and the client never gets its reply. -/
theorem pipelining_overrun :
    ∃ (requests : List SmpRequest) (events : List MgmtEvent) (last : MgmtLink),
      (management ⟨5, 0⟩ (soleMgmtEnv ⟨5, 0⟩)
        (session adminField adminField requests)).Run
        (mgmtOpened ⟨5, 0⟩ (soleMgmtEnv ⟨5, 0⟩)
          (session adminField adminField requests)) events last ∧
      last.x.closed = true ∧ last.pending.length = 29 := by
  let field : Field := .replicate 255 117 (by decide)
  refine ⟨List.replicate 8 (.addUser field field), ?_⟩
  obtain ⟨events, last, run, closed, pending⟩ :=
    @overrun_of_first_chunk ⟨5, 0⟩ (soleMgmtEnv ⟨5, 0⟩) adminField adminField
      (List.replicate 8 (.addUser field field)) ⟨by decide, by decide⟩
      (by decide)
      (by decide +kernel) (by decide +kernel)
  refine ⟨events, last, run, closed, ?_⟩
  rw [pending, List.length_drop]
  decide +kernel

end SocksProxy
