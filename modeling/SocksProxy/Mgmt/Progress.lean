import SocksProxy.Mgmt.Dialogue

/-! The dialogue of a client with the server goes on to its end: as long as no
call fails, an octet can be moved, and there are only so many. -/

namespace SocksProxy

open Framing Transition SmpMessage

def Dialogue.moved (σ : Dialogue) : Nat :=
  σ.said.length + (mgmtReceived σ.server.calls).length +
    (delivered σ.server.calls).length + σ.heard.length

/-- The client makes no more calls than that which closes its socket. -/
def SmpClient.Over : SmpClient → Prop
  | .answered _ | .refused => True
  | _ => False

def Dialogue.Advances (key : Key) (request : List UInt8) (σ : Dialogue) :
    Prop :=
  ∃ event τ, DialogueStep key request σ event τ ∧ σ.moved < τ.moved

section Calls

variable {key : Key} {x next : MgmtCtx}

theorem received_of_receiving {octets : List UInt8} (any : octets ≠ [])
    (fits : octets.length ≤ x.c.rbuf.space)
    (runs : mgmtRead key (.receiving octets) x = some next) :
    mgmtReceived next.calls = mgmtReceived x.calls ++ octets ∧
      delivered next.calls = delivered x.calls := by
  rw [mgmtRead_receiving any fits] at runs
  obtain ⟨made, calls, received, sent⟩ := calls_tryProcess runs
  rw [calls, mgmtReceived_append, received, delivered_append, sent,
    List.append_nil, List.append_nil]
  exact ⟨by rw [MgmtCtx.call, mgmtReceived_append, mgmtReceived_recv],
    by rw [MgmtCtx.call, delivered_append]; exact List.append_nil _⟩

theorem delivered_of_accepting {count : Nat}
    (runs : mgmtWrite key (.accepting [count]) x = some next) :
    mgmtReceived next.calls = mgmtReceived x.calls ∧
      delivered next.calls = delivered x.calls ++
        x.c.wbuf.content.take count := by
  obtain ⟨made, calls, received, sent⟩ : ∃ made,
      next.calls = x.calls ++ [.send (x.c.wbuf.content.take count)] ++ made ∧
        mgmtReceived made = [] ∧ delivered made = [] := by
    rw [mgmtWrite_accepting] at runs
    dsimp only at runs
    split at runs
    · cases runs
      exact ⟨[], (List.append_nil _).symm, rfl, rfl⟩
    · split at runs
      · refine ⟨[], ?_, rfl, rfl⟩
        rw [calls_done runs, List.append_nil]
        rfl
      · exact calls_tryProcess runs
  rw [calls, mgmtReceived_append, mgmtReceived_append, delivered_append,
    delivered_append, received, sent, delivered_send]
  exact ⟨by simp, List.append_nil _⟩

end Calls

theorem serve_request {env : Env} (sized : env.users.Sized) (r : SmpRequest) :
    ∃ status data, data.length ≤ 16386 ∧
      (serve env (.request r)).2 =
        headerOctets r.parsed.cmd status data.length ++ data := by
  obtain ⟨status, data, responds, short⟩ := responds sized r
  exact ⟨status, data, short, responds.served short⟩

/-- A client that has received the whole reply does not wait for more. -/
theorem Speaks.finished {opening request said heard : List UInt8}
  {client : SmpClient}
    (speaks : Speaks opening request client said heard) {status cmd : UInt8}
    {greeting data : List UInt8} (two : greeting.length = 2)
      (small : data.length ≤ 16386)
    (whole : heard = greeting ++
      (headerOctets cmd status data.length ++ data)) :
    client.Over := by
  have total := congrArg List.length whole
  have five : (headerOctets cmd status data.length).length = 5 := rfl
  rw [List.length_append, List.length_append, five, two] at total
  cases speaks with
  | answered | refused => trivial
  | auth =>
      rw [List.length_nil] at total
      omega
  | authReply short => omega
  | request =>
      rw [length_accepted] at total
      omega
  | header short =>
      rw [List.length_append, length_accepted] at total
      omega
  | @data hdr got sized short =>
      have rest := (List.append_inj whole two.symm).2
      obtain ⟨header, same⟩ := List.append_inj rest (sized.trans five.symm)
      rw [header, getU16_header (by omega), same] at short
      exact absurd short (Nat.lt_irrefl _)

theorem Speaks.calls {opening request said heard : List UInt8}
    {client : SmpClient} (speaks : Speaks opening request client said heard)
    (going : ¬ client.Over) :
    (∃ octet next, client.send 1 = some ([octet], next)) ∨ 0 < client.room := by
  have first {left : List UInt8} (more : left ≠ []) : ∃ octet, left.take 1 =
      [octet] := by
    obtain ⟨octet, rest, rfl⟩ := List.exists_cons_of_ne_nil more
    exact ⟨octet, rfl⟩
  cases speaks with
  | @auth _ left whole more =>
      obtain ⟨octet, taken⟩ := first more
      have sends : (SmpClient.auth left).send 1 = some (left.take 1, _) := rfl
      rw [taken] at sends
      exact .inl ⟨octet, _, sends⟩
  | @request _ left whole more =>
      obtain ⟨octet, taken⟩ := first more
      have sends : (SmpClient.request left).send 1 = some (left.take 1, _) :=
        rfl
      rw [taken] at sends
      exact .inl ⟨octet, _, sends⟩
  | authReply short | header short
  | data five short => exact .inr (Nat.sub_pos_of_lt short)
  | answered | refused => exact absurd trivial going

theorem Speaks.greets {opening request said heard : List UInt8}
    {client : SmpClient} (speaks : Speaks opening request client said heard)
    (waits : 0 < client.room) :
    opening.length ≤ said.length := by
  cases speaks with
  | authReply => exact Nat.le_refl _
  | header | data => exact (List.prefix_append opening request).length_le
  | auth | request | answered | refused => exact absurd waits (Nat.lt_irrefl 0)

theorem Speaks.requests {opening request said heard : List UInt8}
    {client : SmpClient} (speaks : Speaks opening request client said heard)
    (waits : 0 < client.room) (replied : 2 ≤ heard.length) :
    said = opening ++ request := by
  cases speaks with
  | authReply short => exact absurd replied (Nat.not_le_of_lt short)
  | header | data => rfl
  | auth | request | answered | refused => exact absurd waits (Nat.lt_irrefl 0)

theorem Speaks.unrefused {opening request said heard : List UInt8}
    {client : SmpClient} (speaks : Speaks opening request client said heard)
    (waits : 0 < client.room)
    (refused : [smpVersion, smpAuthFailed] <+: heard) : False := by
  have clash {rest : List UInt8}
      (same : [smpVersion, smpAuthFailed] <+: accepted ++ rest) : False := by
    have second :=
      (List.cons_prefix_cons.mp (List.cons_prefix_cons.mp same).2).1
    exact absurd second (by decide)
  cases speaks with
  | authReply short => exact absurd refused.length_le (Nat.not_le_of_lt short)
  | header | data => exact clash refused
  | auth | request | answered | refused => exact absurd waits (Nat.lt_irrefl 0)

theorem exists_coming {arrived sent : List UInt8} (front : arrived <+: sent)
    (more : arrived ≠ sent) : ∃ octet, arrived ++ [octet] <+: sent := by
  obtain ⟨rest, rfl⟩ := front
  have left : rest ≠ [] := by
    rintro rfl
    exact more (List.append_nil _).symm
  obtain ⟨octet, rest, rfl⟩ := List.exists_cons_of_ne_nil left
  exact ⟨octet, rest, by rw [List.append_assoc, List.singleton_append]⟩

section Events

variable {key : Key} {request : List UInt8} {σ : Dialogue}

theorem advances_send (here : σ.gone = false) {octet : UInt8}
    {client : SmpClient} (sends : σ.client.send 1 = some ([octet], client)) :
    σ.Advances key request := by
  refine ⟨.send, _, .send here sends, ?_⟩
  simp only [Dialogue.moved, List.length_append, List.length_singleton]
  omega

theorem advances_receive (here : σ.gone = false) (waits : 0 < σ.client.room)
    (replied : σ.heard <+: delivered σ.server.calls)
    (more : σ.heard ≠ delivered σ.server.calls) : σ.Advances key request := by
  obtain ⟨octet, comes⟩ := exists_coming replied more
  refine ⟨.receive, _, .receive here (List.cons_ne_nil octet []) waits comes,
    ?_⟩
  simp only [Dialogue.moved, List.length_append, List.length_singleton]
  omega

variable (valid : invalidFd key.fd = false) (gated : MgmtGated key σ.server)
  (resting : MgmtResting σ.server) (live : σ.server.closed = false)

include valid gated resting live

theorem advances_read (reads : σ.server.c.state.interest.read = true)
    (room : σ.server.c.rbuf.space ≠ 0)
    (arrived : mgmtReceived σ.server.calls <+: σ.said)
    (more : mgmtReceived σ.server.calls ≠ σ.said) : σ.Advances key request := by
  obtain ⟨octet, coming⟩ := exists_coming arrived more
  have receives : σ.server.c.state ≠ .authReply := by
    intro state
    rw [state] at reads
    cases reads
  obtain ⟨next, runs, -, -, made, visited⟩ :=
    gated.read valid resting live receives (.receiving [octet])
  obtain ⟨received, sent⟩ := received_of_receiving (List.cons_ne_nil octet [])
    (Nat.one_le_iff_ne_zero.mpr room) runs
  have comes : mgmtReceived next.calls <+: σ.said := received ▸ coming
  have step : MgmtStep key σ.server ⟨σ.server.env, made, next.env⟩ next :=
    .read live (gated.item live) (gated.item live) reads runs visited.calls rfl
  refine ⟨_, _, .visit step comes, ?_⟩
  simp only [Dialogue.moved, received, sent, List.length_append,
    List.length_singleton]
  omega

theorem advances_write (writes : σ.server.c.state.interest.write = true)
    (arrived : mgmtReceived σ.server.calls <+: σ.said)
    (left : σ.server.c.wbuf.content ≠ []) : σ.Advances key request := by
  have replies : σ.server.c.state ≠ .auth := by
    intro state
    rw [state] at writes
    cases writes
  obtain ⟨next, runs, -, -, made, visited⟩ :=
    gated.write valid resting live replies (.accepting [1])
  obtain ⟨received, sent⟩ := delivered_of_accepting runs
  have step : MgmtStep key σ.server ⟨σ.server.env, made, next.env⟩ next :=
    .write live (gated.item live) (gated.item live) writes runs visited.calls
      rfl
  refine ⟨_, _, .visit step (received ▸ arrived), ?_⟩
  have some := List.length_pos_of_ne_nil left
  simp only [Dialogue.moved, received, sent, List.length_append,
    List.length_take]
  omega

end Events

section Runs

variable {key : Key} {user pass : Field} {r : SmpRequest} {first σ : Dialogue}
  {events : List DialogueEvent} {served : List (DialogueEvent × SmpMessage)}
  {todo : List SmpMessage}

theorem Field.length_le (field : Field) : field.val.length ≤ 255 :=
  field.property.2

theorem length_session_le :
    ((handshake user pass).encode ++ (SmpMessage.request r).encode).length ≤
      1027 := by
  have one := user.length_le
  have two := pass.length_le
  have three := r.encode_length_le
  rw [List.length_append, encode, encode, length_authMessage]
  omega

theorem Conversing.room
    (conversing : Conversing user pass r events served todo σ) :
    σ.server.c.rbuf.space ≠ 0 := by
  have short :=
    (conversing.arrived.trans conversing.speaks.said_prefix).length_le.trans
    length_session_le
  have filled := conversing.session.filled
  have limit := conversing.session.limit
  rw [Buffer.space, limit, mgmtRbuf]
  omega

theorem Conversing.answer
    (conversing : Conversing user pass r events served [] σ)
    (sized : ∀ client v, .visit client v ∈ events → v.before.users.Sized) :
    ∃ greeting status data, greeting.length = 2 ∧ data.length ≤ 16386 ∧
      (served.flatMap fun moment => moment.1.reply moment.2) =
        greeting ++ (headerOctets r.parsed.cmd status data.length ++ data) := by
  rcases served_cases conversing.whole with
    ⟨-, other⟩ | ⟨greeting, -, other⟩ | ⟨greeting, last, rfl, -⟩
  · cases other
  · cases other
  · have greets := conversing.trace.of_mem List.mem_cons_self
    have serves := conversing.trace.of_mem
      (List.mem_cons_of_mem _
        (List.mem_singleton_self (last, SmpMessage.request r)))
    obtain ⟨place, v, rfl⟩ := serves.2.visit
    obtain ⟨client, w, rfl⟩ := greets.2.visit
    obtain ⟨status, data, short, reply⟩ :=
      serve_request (sized place v serves.1) r
    refine ⟨(serve w.before (handshake user pass)).2, status, data,
      rfl, short, ?_⟩
    simp only [List.flatMap_cons, List.flatMap_nil, List.append_nil,
      DialogueEvent.reply, reply]

/-- No client waits once all that either side has sent has arrived. -/
theorem Conversing.finished
    (conversing : Conversing user pass r events served todo σ)
    (sized : ∀ client v, .visit client v ∈ events → v.before.users.Sized)
    (short : Incomplete todo ⟨σ.server, []⟩) (waits : 0 < σ.client.room)
    (arrived : mgmtReceived σ.server.calls = σ.said)
    (replied : σ.heard = served.flatMap fun moment => moment.1.reply moment.2) :
    σ.client.Over := by
  have received := conversing.session.received
  rw [arrived] at received
  have speaks := conversing.speaks
  rcases served_cases conversing.whole with
    ⟨rfl, rfl⟩ | ⟨greeting, rfl, rfl⟩ | ⟨greeting, last, -, rfl⟩
  · have part : σ.server.c.rbuf.content.length <
        (handshake user pass).encode.length :=
      short _ _ rfl
    have received : σ.said = σ.server.c.rbuf.content := received
    have greets := speaks.greets waits
    rw [received] at greets
    exact absurd greets (Nat.not_le_of_lt part)
  · have part : σ.server.c.rbuf.content.length <
        (SmpMessage.request r).encode.length :=
      short _ _ rfl
    have two : 2 ≤ σ.heard.length := by
      rw [replied, List.flatMap_singleton]
      obtain ⟨client, w, rfl⟩ :=
        (conversing.trace.of_mem List.mem_cons_self).2.visit
      exact Nat.le_refl 2
    have whole := received.symm.trans (speaks.requests waits two)
    have past : stream encode [handshake user pass] =
        (handshake user pass).encode :=
      List.flatMap_singleton ..
    rw [List.map_singleton, past] at whole
    rw [List.append_cancel_left whole] at part
    exact absurd part (Nat.lt_irrefl _)
  · obtain ⟨greeting, status, data, two, small, whole⟩ :=
      conversing.answer sized
    exact speaks.finished two small (replied.trans whole)

theorem Conversing.said_le
    (conversing : Conversing user pass r events served todo σ) :
    σ.said.length ≤ 1027 :=
  conversing.speaks.said_prefix.length_le.trans length_session_le

theorem Conversing.delivered_le
    (conversing : Conversing user pass r events served todo σ)
    (sized : ∀ client v, .visit client v ∈ events → v.before.users.Sized) :
    (delivered σ.server.calls).length ≤ 16393 := by
  by_cases done : todo = []
  · subst done
    obtain ⟨greeting, status, data, two, short, whole⟩ :=
      conversing.answer sized
    have five : (headerOctets r.parsed.cmd status data.length).length = 5 := rfl
    have replied := conversing.session.phase.delivered_prefix.length_le
    rw [whole, List.length_append, List.length_append, two, five] at replied
    omega
  · exact (conversing.unsent done).trans (by decide)

/-- A server without failed calls closes the connection only after a refusal,
which the client has received then. -/
theorem Conversing.stays
    (conversing : Conversing user pass r events served todo σ)
    (spared : ∀ made ∈ σ.server.calls, ¬ made.Ends) (waits : 0 < σ.client.room)
    (heard : σ.heard = delivered σ.server.calls)
    (closed : σ.server.closed = true) : False := by
  have speaks := conversing.speaks
  rcases conversing.session.phase.cause closed with full |
    ⟨made, member, ends⟩ | refused
  · exact conversing.room full
  · exact spared made member ends
  · rw [← heard] at refused
    exact speaks.unrefused waits refused

/-- A dialogue in which no call has failed goes on until the client is done. -/
theorem Conversing.advances
    (conversing : Conversing user pass r events served todo σ)
    (valid : invalidFd key.fd = false) (gated : MgmtGated key σ.server)
    (resting : MgmtResting σ.server)
    (sized : ∀ client v, .visit client v ∈ events → v.before.users.Sized)
    (spared : ∀ made ∈ σ.server.calls, ¬ made.Ends) (here : σ.gone = false)
    (going : ¬ σ.client.Over) :
    σ.Advances key (SmpMessage.request r).encode := by
  rcases conversing.speaks.calls going with ⟨octet, client, sends⟩ | waits
  · exact advances_send here sends
  · by_cases heard : σ.heard = delivered σ.server.calls
    · have live : σ.server.closed = false :=
        Bool.eq_false_of_not_eq_true (conversing.stays spared waits heard)
      cases conversing.session.phase with
      | ended closed =>
          rw [live] at closed
          cases closed
      | replying _ state later answered left =>
          have writes : σ.server.c.state.interest.write = true := by
            rcases state with state | state <;> rw [state] <;> rfl
          exact advances_write valid gated resting live writes
            conversing.arrived left
      | waiting _ state answered short =>
          have reads : σ.server.c.state.interest.read = true := by
            rw [state]
            cases todo with
            | nil => rfl
            | cons message rest => cases message <;> rfl
          by_cases arrived : mgmtReceived σ.server.calls = σ.said
          · exact absurd
              (conversing.finished sized short waits arrived
                (heard.trans answered)) going
          · exact advances_read valid gated resting live reads conversing.room
              conversing.arrived arrived
    · exact advances_receive here waits conversing.replied heard

end Runs

/-- As long as no call of the server has failed and the client has not left,
either the client is answered or refused, or one of the parties can move an
octet.  At most 1027 octets go to the server and 16393 to the client, and what
is received is the beginning of what was sent. -/
theorem dialogue_advances {key : Key} {user pass : Field} {r : SmpRequest}
    {first σ : Dialogue} {events : List DialogueEvent}
    (starts : (dialogues key user pass r).init first)
    (run : (dialogues key user pass r).Run first events σ)
    (sized : ∀ client v, .visit client v ∈ events → v.before.users.Sized)
    (spared : ∀ made ∈ σ.server.calls, ¬ made.Ends) (here : σ.gone = false) :
    (σ.said.length ≤ 1027 ∧ mgmtReceived σ.server.calls <+: σ.said) ∧
      ((delivered σ.server.calls).length ≤ 16393 ∧
        σ.heard <+: delivered σ.server.calls) ∧
      σ.moved ≤ 2 * (1027 + 16393) ∧
      (σ.client = .refused ∨ (∃ response, σ.client = .answered response) ∨
        ∃ event τ, (dialogues key user pass r).step σ event τ ∧
        σ.moved < τ.moved) := by
  obtain ⟨served, todo, conversing⟩ := conversing_of_run starts run
  obtain ⟨env, hosted, rfl⟩ := starts
  have kept := gateKept_of_run hosted (visits_of_run run)
  have said := conversing.said_le
  have sent := conversing.delivered_le sized
  refine ⟨⟨said, conversing.arrived⟩, ⟨sent, conversing.replied⟩, ?_, ?_⟩
  · have arrived := conversing.arrived.length_le
    have heard := conversing.replied.length_le
    rw [Dialogue.moved]
    omega
  by_cases finished : σ.client.Over
  · cases client : σ.client with
    | refused => exact .inl rfl
    | answered response => exact .inr (.inl ⟨response, rfl⟩)
    | auth | authReply | request | header | data =>
        rw [client] at finished
        exact finished.elim
  · exact .inr (.inr
      (conversing.advances hosted.1 kept.gated kept.resting sized spared
        here finished))

/-- The handshake has arrived and the reply to it has not been sent. -/
theorem dialogue_advances_greeted :
    ∃ σ : Dialogue, σ.client = .authReply [] ∧
      mgmtReceived σ.server.calls = σ.said ∧
      delivered σ.server.calls = [] ∧
      ∃ event τ, (dialogues ⟨5, 0⟩ administrator administrator .metrics).step σ
        event τ ∧
        σ.moved < τ.moved := by
  let greeting := (handshake administrator administrator).encode
  let first :=
    Dialogue.connected ⟨5, 0⟩ administrator administrator (soleMgmtEnv ⟨5, 0⟩)
  let σ : Dialogue := { first with client := .authReply [], said := greeting }
  have starts :
      (dialogues ⟨5, 0⟩ administrator administrator .metrics).init first :=
    ⟨soleMgmtEnv ⟨5, 0⟩, ⟨by decide, by decide⟩, rfl⟩
  have sends : (dialogues ⟨5, 0⟩ administrator administrator .metrics).step
      first .send σ := by
    have sent : first.client.send greeting.length =
        some (greeting, .authReply []) := by
      decide
    exact DialogueStep.send rfl sent
  have taken :
      ((mgmtTurns ⟨5, 0⟩ σ.server [(false, .receiving greeting)]).any fun x =>
      decide (x.calls = [.recv greeting,
        .handshake administrator.val administrator.val true])) = true := by
    decide +kernel
  obtain ⟨x, replayed, made⟩ := (Option.any_eq_true ..).mp taken
  have made := of_decide_eq_true made
  obtain ⟨v, next, before, step, same⟩ := step_of_mgmtTurns replayed
  cases same
  have comes : mgmtReceived x.calls <+: σ.said := by
    rw [made]
    exact List.prefix_refl _
  have visits : (dialogues ⟨5, 0⟩ administrator administrator .metrics).step σ
      (.visit σ.client v) { σ with server := x } :=
      DialogueStep.visit step comes
  have sized (client : SmpClient) (w : MgmtVisit)
      (member : .visit client w ∈ [DialogueEvent.send] ++ [.visit σ.client v]) :
      w.before.users.Sized := by
    have same : DialogueEvent.visit client w = .visit σ.client v := by
      simpa using member
    cases same
    rw [before]
    exact UserTable.sized_init
  have spared (call : MgmtCall) (member : call ∈ x.calls) : ¬ call.Ends := by
    rw [made] at member
    rcases List.mem_cons.mp member with rfl | member
    · exact encode_ne_nil _
    · rw [List.mem_singleton.mp member]
      exact not_false
  have advances :=
    (dialogue_advances starts (.snoc (.single sends) visits) sized
    spared rfl).2.2.2
  refine ⟨{ σ with server := x }, rfl, ?_, ?_, ?_⟩
  · rw [made]
    rfl
  · rw [made]
    rfl
  · rcases advances with refused | ⟨response, answered⟩ | moves
    · cases refused
    · cases answered
    · exact moves

end SocksProxy
