import SocksProxy.Lib.Moments
import SocksProxy.Mgmt.AuthGate
import SocksProxy.Mgmt.Responses

/-! The session of a management client while the server does anything else
between the handlers of the connection.  Each message is served whole, at one
visit. -/

namespace SocksProxy

open Framing Transition SmpMessage

/-- The visit leaves users, counters and configuration alone. -/
def MgmtVisit.Quiet (v : MgmtVisit) : Prop := v.after.records = v.before.records

/-- The visit does what the sequential server does with the message. -/
def MgmtVisit.Serves (v : MgmtVisit) (message : SmpMessage) : Prop :=
  v.after = { (serve v.before message).1 with selector := v.after.selector }

/-- The replies to the messages served, each from the server that it found. -/
def replies (served : List (MgmtVisit × SmpMessage)) : List UInt8 :=
  served.flatMap fun moment => (serve moment.1.before moment.2).2

def MgmtCall.Ends : MgmtCall → Prop
  | .recv octets => octets = []
  | .recvFailed e | .sendFailed e => wouldBlock e = false
  | _ => False

/-- Why a connection of a session is closed: there is no room for more of a
message, a call failed or found the end, or the handshake was refused. -/
def Cause (x : MgmtCtx) : Prop :=
  x.c.rbuf.space = 0 ∨ (∃ made ∈ x.calls, made.Ends) ∨
    [smpVersion, smpAuthFailed] <+: delivered x.calls

/-- What a connection has received: the octets `past` of messages that were
served, and octets that may belong to `todo`. -/
structure Receiving (past : List UInt8) (todo : List SmpMessage)
    (calls : List MgmtCall) (c : MgmtConn) : Prop where
  room : c.wbuf.limit = mgmtWbuf
  limit : c.rbuf.limit = mgmtRbuf
  filled : c.rbuf.write ≤ (mgmtReceived calls).length
  received : mgmtReceived calls = past ++ c.rbuf.content
  requests : ∀ message ∈ todo.tail, message.awaited = .request

/-- Where a connection stands that has served some messages, with these
replies. -/
inductive SessionPhase (said : List UInt8) (todo : List SmpMessage)
    (x : MgmtCtx) : Prop
  | waiting (live : x.closed = false) (state : x.c.state = awaits todo)
      (answered : delivered x.calls = said) (short : Incomplete todo ⟨x, []⟩)
  | replying (live : x.closed = false) (state : x.c.state = .authReply ∨
      x.c.state = .response)
      (later : ∀ message ∈ todo, message.awaited = .request)
      (answered : delivered x.calls ++ x.c.wbuf.content = said)
      (left : x.c.wbuf.content ≠ [])
  | ended (closed : x.closed = true) (answered : delivered x.calls <+: said)
      (cause : Cause x)

structure InSession (past said : List UInt8) (todo : List SmpMessage)
    (x : MgmtCtx) : Prop
    extends Receiving past todo x.calls x.c where
  phase : SessionPhase said todo x

/-- A handler has left the records alone, or it has served the next message. -/
def HandlerOutcome (past said : List UInt8) (todo : List SmpMessage)
    (x next : MgmtCtx) : Prop :=
  next.env.records = x.env.records ∧ InSession past said todo next ∨
    ∃ message rest, todo = message :: rest ∧
      next.env =
        { (serve x.env message).1 with selector := next.env.selector } ∧
      InSession (past ++ message.encode) (said ++ (serve x.env message).2) rest
        next

theorem serve_selector (env : Env) (selector : Selector)
    (message : SmpMessage) :
    serve { env with selector := selector } message =
      ({ (serve env message).1 with selector := selector },
        (serve env message).2) := by
  cases message with
  | handshake _ _ => rfl
  | request r => simp only [serve, processMgmtRequest_selector]

theorem Appends.begins {f : Buffer → Buffer} (appends : Appends f)
    (b : Buffer) :
    b.content <+: (f b).content := by
  obtain ⟨octets, writes⟩ := appends
  rw [writes, Buffer.content_writeAll_take]
  exact List.prefix_append ..

private theorem appended_ne_nil {f : Buffer → Buffer} (appends : Appends f)
    {b : Buffer} (room : 5 ≤ b.space) (cmd status : UInt8) (datalen : Nat) :
    (f (respHeader b cmd status datalen)).content ≠ [] := by
  have begins := appends.begins (respHeader b cmd status datalen)
  intro none
  have fits : (headerOctets cmd status datalen).length ≤ b.space := room
  rw [none, List.prefix_nil, respHeader_eq, Buffer.content_writeAll fits]
    at begins
  simp [headerOctets] at begins

private theorem respSimple_ne_nil {b : Buffer} (room : 5 ≤ b.space)
    (cmd status : UInt8) :
    (respSimple b cmd status).content ≠ [] := by
  unfold respSimple
  exact appended_ne_nil (f := fun b => b) ⟨[], fun _ => rfl⟩ room cmd status 0

private theorem respMetrics_ne_nil (env : Env) {b : Buffer}
    (room : 5 ≤ b.space) :
    (respMetrics env b).content ≠ [] := by
  have numbers (values : List Nat) : Appends fun b => values.foldl putU64 b :=
    .foldl appends_putU64 values
  unfold respMetrics
  exact appended_ne_nil (numbers _) room smpCmdMetrics smpOk 56

private theorem respGetConfig_ne_nil (env : Env) {b : Buffer}
    (room : 5 ≤ b.space) :
    (respGetConfig env b).content ≠ [] := by
  have settings (size timeout : Nat) (flag : UInt8) :
      Appends fun b => bufferWrite (putU32 (putU32 b size) timeout) flag := by
    have words := Appends.comp (g := fun b => putU32 b timeout) (f :=
      fun b => putU32 b size) (.writeAll _) (.writeAll _)
    exact Appends.comp (g := fun b => bufferWrite b flag) (.write flag) words
  unfold respGetConfig
  exact appended_ne_nil (settings _ _ _) room smpCmdGetConfig smpOk 9

private theorem respListUsers_ne_nil (env : Env) {b : Buffer}
    (room : 5 ≤ b.space) :
    (respListUsers env b).content ≠ [] := by
  have names (count : Nat) (users : List CString) : Appends fun b =>
      users.foldl
        (fun b n => bufferWriteAll (bufferWrite b n.strlen.toUInt8) n.octets)
        (putU16 b count) := by
    have name (n : CString) : Appends fun b =>
        bufferWriteAll (bufferWrite b n.strlen.toUInt8) n.octets :=
      Appends.comp (g := fun b => bufferWriteAll b n.octets) (.writeAll _)
        (.write _)
    exact Appends.comp (.foldl name users) (f :=
      fun b => putU16 b count) (.writeAll _)
  unfold respListUsers
  generalize registeredNames env.users = users
  dsimp only
  generalize users.foldl _ 2 = datalen
  generalize users.length % 2 ^ 16 = count
  exact appended_ne_nil (names count users) room smpCmdListUsers smpOk
    (datalen % 2 ^ 16)

private theorem processMgmtRequest_ne_nil (env : Env) {b : Buffer}
    (room : 5 ≤ b.space) (r : MgmtReq) :
    (processMgmtRequest env b r).2.content ≠ [] := by
  have simple (status : UInt8) := respSimple_ne_nil room r.cmd status
  unfold processMgmtRequest
  split
  · dsimp only
    exact respMetrics_ne_nil env room
  · split
    · dsimp only
      exact respGetConfig_ne_nil env room
    · split
      · dsimp only
        exact respListUsers_ne_nil env room
      · split
        · dsimp only
          exact simple _
        · split
          · dsimp only
            exact simple _
          · split
            · dsimp only
              exact simple _
            · dsimp only
              exact simple _

/-- Every message is answered. -/
theorem serve_reply_ne_nil (env : Env) (message : SmpMessage) :
    (serve env message).2 ≠ [] := by
  cases message with
  | handshake user pass => simp [serve]
  | request r =>
      have room : 5 ≤ (bufferInit mgmtWbuf fun _ => 0).space := by
        rw [Buffer.space, Buffer.limit_init, Buffer.write_init]
        decide
      exact processMgmtRequest_ne_nil env room r.parsed

theorem Responds.served {env : Env} {r : SmpRequest} {status : UInt8}
    {data : List UInt8} (responds : Responds env r status data)
    (short : data.length ≤ 16386) :
    (serve env (.request r)).2 = headerOctets r.parsed.cmd status data.length ++
      data := by
  have fresh (count : Nat) (octets : Nat → UInt8) :
      bufferReset (bufferInit count octets) = bufferInit count octets := rfl
  have content := responds.content short (Buffer.limit_init mgmtWbuf fun _ => 0)
  rw [fresh] at content
  exact content

section Handlers

variable {key : Key} {past said more : List UInt8} {todo : List SmpMessage}
  {x next : MgmtCtx}

@[simp] theorem mgmtReceived_send (octets : List UInt8) :
    mgmtReceived [.send octets] = [] :=
  rfl

theorem SessionPhase.delivered_prefix (phase : SessionPhase said todo x) :
    delivered x.calls <+: said := by
  cases phase with
  | waiting live state answered short => exact answered ▸ List.prefix_refl _
  | replying live state later answered left => exact ⟨_, answered⟩
  | ended closed answered cause => exact answered

theorem SessionPhase.cause (phase : SessionPhase said todo x)
    (closed : x.closed = true) :
    Cause x := by
  cases phase with
  | waiting live state answered short
  | replying live state later answered left =>
      rw [closed] at live
      cases live
  | ended closed answered cause => exact cause

theorem Receiving.call {calls : List MgmtCall} {c : MgmtConn}
    (receiving : Receiving past todo calls c) {made : MgmtCall}
    (receives : mgmtReceived [made] = []) :
    Receiving past todo (calls ++ [made]) c := by
  have same : mgmtReceived (calls ++ [made]) = mgmtReceived calls := by
    rw [mgmtReceived_append, receives, List.append_nil]
  refine ⟨receiving.room, receiving.limit, ?_, ?_, receiving.requests⟩
  · rw [same]
    exact receiving.filled
  · rw [same]
    exact receiving.received

theorem Receiving.fill {calls : List MgmtCall} {c : MgmtConn}
    (receiving : Receiving past todo calls c) {octets : List UInt8}
    (fits : octets.length ≤ c.rbuf.space) :
    Receiving past todo (calls ++ [.recv octets])
      { c with rbuf := bufferFill c.rbuf octets } := by
  refine ⟨receiving.room, (Buffer.limit_fill ..).trans receiving.limit, ?_, ?_,
    receiving.requests⟩
  · rw [mgmtReceived_append, mgmtReceived_recv, Buffer.write_fill fits,
      List.length_append]
    exact Nat.add_le_add_right receiving.filled _
  · rw [mgmtReceived_append, mgmtReceived_recv, receiving.received,
      Buffer.content_fill fits, List.append_assoc]

theorem Receiving.send {calls : List MgmtCall} {c : MgmtConn}
    (receiving : Receiving past todo calls c) (octets : List UInt8)
    (bytes : Nat) (state : MgmtState) :
    Receiving past todo (calls ++ [.send octets])
      { c with state := state, wbuf := bufferReadAdv c.wbuf bytes } := by
  obtain ⟨room, limit, filled, received, requests⟩ :=
    receiving.call (mgmtReceived_send octets)
  exact ⟨(Buffer.limit_readAdv ..).trans room, limit, filled,
    received, requests⟩

/-- A reply after which the connection is closed is a refusal. -/
theorem MgmtStage.refusal {calls : List MgmtCall} {c : MgmtConn}
    (stage : MgmtStage calls c)
    (replies : c.state = .authReply ∨ c.state = .response)
    (closes : c.closeAfterWrite = true) :
    delivered calls ++ c.wbuf.content = [smpVersion, smpAuthFailed] := by
  cases stage with
  | waiting state =>
      rcases replies with other | other <;> rw [state] at other <;> cases other
  | replying user pass ok state validUser validPass only sent quiet
        its arrived =>
      rw [closes] at its
      have failed : ok = false := by simpa using its.symm
      rw [sent, failed]
      rfl
  | admitted user pass skipped state validUser validPass only sent
        open_ arrived =>
      rw [closes] at open_
      cases open_

theorem InSession.waits (session : InSession past said todo x)
    (live : x.closed = false) (reads : x.c.state.interest.read = true) :
    x.c.state = awaits todo ∧ delivered x.calls = said := by
  cases session.phase with
  | waiting _ state answered short => exact ⟨state, answered⟩
  | replying _ state later answered left =>
      rcases state with state | state <;> rw [state] at reads <;> cases reads
  | ended closed answered cause =>
      rw [live] at closed
      cases closed

theorem InSession.replies (session : InSession past said todo x)
    (live : x.closed = false) (writes : x.c.state.interest.write = true) :
    (x.c.state = .authReply ∨ x.c.state = .response) ∧
      (∀ message ∈ todo, message.awaited = .request) ∧
      delivered x.calls ++ x.c.wbuf.content = said ∧ x.c.wbuf.content ≠ [] := by
  cases session.phase with
  | waiting _ state answered short =>
      rw [state] at writes
      cases todo with
      | nil => cases writes
      | cons message rest => cases message <;> cases writes
  | replying _ state later answered left => exact ⟨state, later, answered, left⟩
  | ended closed answered cause =>
      rw [live] at closed
      cases closed

theorem HandlerOutcome.of_selector {y : MgmtCtx} {selector : Selector}
    (outcome : HandlerOutcome past said todo y next)
    (env : y.env = { x.env with selector := selector }) :
    HandlerOutcome past said todo x next := by
  rcases outcome with ⟨records, session⟩ |
    ⟨message, rest, split, effect, session⟩
  · rw [env] at records
    exact .inl ⟨records, session⟩
  · rw [env, serve_selector] at effect session
    exact .inr ⟨message, rest, split, effect, session⟩

theorem Receiving.done (receiving : Receiving past todo x.calls x.c)
    (valid : invalidFd key.fd = false) {i : Interest}
    (item : x.env.selector.items key.fd = some ⟨i, .mgmt, key.data⟩)
    (answered : delivered x.calls <+: said) (cause : Cause x)
    (runs : mgmtDone key x = some next) :
    HandlerOutcome past said todo x next := by
  unfold mgmtDone at runs
  rw [if_neg (Bool.not_eq_true _ ▸ valid), item] at runs
  dsimp only at runs
  rw [if_pos ⟨rfl, rfl⟩] at runs
  cases runs
  exact .inl ⟨rfl, receiving, .ended rfl answered cause⟩

theorem calls_done (runs : mgmtDone key x = some next) :
    next.calls = x.calls := by
  unfold mgmtDone at runs
  split at runs
  · cases runs
    rfl
  · split at runs
    · cases runs
      rfl
    · split at runs
      · cases runs
        rfl
      · cases runs

/-- Processing neither receives nor sends. -/
theorem calls_tryProcess (runs : mgmtTryProcess key x = some next) :
    ∃ made, next.calls = x.calls ++ made ∧ mgmtReceived made = [] ∧
      delivered made = [] := by
  have nothing {next : MgmtCtx} (same : next.calls = x.calls) :
      ∃ made, next.calls = x.calls ++ made ∧ mgmtReceived made = [] ∧
      delivered made = [] :=
    ⟨[], by rw [same, List.append_nil], rfl, rfl⟩
  unfold mgmtTryProcess at runs
  split at runs
  · unfold mgmtProcessAuth at runs
    dsimp only at runs
    split at runs
    · cases runs
      exact nothing rfl
    · split at runs
      · exact nothing (calls_done runs)
      · cases runs
        exact ⟨[_], rfl, rfl, rfl⟩
  · unfold mgmtProcessRequest at runs
    dsimp only at runs
    split at runs
    · cases runs
      exact nothing rfl
    · split at runs
      · have same := calls_done runs
        exact nothing same
      · split at runs
        · cases runs
          exact ⟨[_], rfl, rfl, rfl⟩
        · cases runs
          exact ⟨[_], rfl, rfl, rfl⟩
  · cases runs
    exact nothing rfl
  · cases runs
    exact nothing rfl

theorem mgmtReceived_tryProcess (runs : mgmtTryProcess key x = some next) :
    mgmtReceived next.calls = mgmtReceived x.calls := by
  obtain ⟨made, calls, received, -⟩ := calls_tryProcess runs
  rw [calls, mgmtReceived_append, received, List.append_nil]

theorem Receiving.processed {message : SmpMessage} {rest : List SmpMessage}
    {others : List UInt8}
    (receiving : Receiving past (message :: rest) x.calls x.c)
    (live : x.closed = false) (answered : delivered x.calls = said)
    (arrived : x.c.rbuf.content = message.encode ++ others)
    (processed : Processed x message next)
    (received : mgmtReceived next.calls = mgmtReceived x.calls) :
    InSession (past ++ message.encode) (said ++ (serve x.env message).2)
      rest next := by
  have count : message.encode.length ≤ x.c.rbuf.content.length := by
    rw [arrived, List.length_append]
    exact Nat.le_add_right _ _
  have left : next.c.rbuf.content = others := by
    rw [processed.consumed, Buffer.content_readAdv count, arrived,
      List.drop_left]
  refine ⟨⟨processed.capacity, ?_, ?_, ?_, ?_⟩,
    .replying (processed.live.trans live) ?_ ?_ ?_ ?_⟩
  · rw [processed.consumed, Buffer.limit_readAdv, receiving.limit]
  · rw [received, processed.consumed]
    exact (Buffer.write_readAdv_le _ _).trans receiving.filled
  · rw [received, receiving.received, arrived, left, List.append_assoc]
  · exact fun other member =>
      receiving.requests other (List.mem_of_mem_tail member)
  · rw [processed.state]
    cases message with
    | handshake _ _ => exact .inl rfl
    | request _ => exact .inr rfl
  · exact receiving.requests
  · rw [processed.unsent, processed.reply, answered]
  · rw [processed.reply]
    exact serve_reply_ne_nil _ _

/-- The octets received are processed as far as the next message goes. -/
theorem Receiving.tryProcess (receiving : Receiving past todo x.calls x.c)
    (live : x.closed = false) (state : x.c.state = awaits todo)
    (answered : delivered x.calls = said)
    (runs : mgmtTryProcess key x = some next)
    (within : mgmtReceived next.calls ++ more = past ++ stream encode todo) :
    HandlerOutcome past said todo x next := by
  have kept := mgmtReceived_tryProcess runs
  rw [kept, receiving.received, List.append_assoc] at within
  have split := List.append_cancel_left within
  cases todo with
  | nil =>
      have empty : x.c.rbuf.content = [] := (List.append_eq_nil_iff.mp split).1
      have still : mgmtTryProcess key x = some x := by
        simp [mgmtTryProcess, state, awaits, mgmtProcessRequest, empty,
          parseRequest]
      cases still.symm.trans runs
      refine .inl ⟨rfl, receiving, .waiting live state answered ?_⟩
      intro message rest same
      cases same
  | cons message rest =>
      rw [stream_cons] at split
      rcases arrived_or_part split with ⟨others, arrived, -⟩ | ⟨short, part⟩
      · obtain ⟨after, ran, processed⟩ :=
          tryProcess_message key receiving.room state arrived
        cases ran.symm.trans runs
        refine .inr ⟨message, rest, rfl, ?_, ?_⟩
        · rw [processed.env]
        · exact receiving.processed live answered arrived processed kept
      · cases (tryProcess_part key state short part).symm.trans runs
        refine .inl ⟨rfl, receiving, .waiting live state answered ?_⟩
        rintro _ _ ⟨⟩
        exact short

theorem InSession.blocks (session : InSession past said todo x)
    (live : x.closed = false) {made : MgmtCall}
    (receives : mgmtReceived [made] = []) (sends : delivered [made] = []) :
    InSession past said todo (x.call made) := by
  have kept : delivered (x.call made).calls = delivered x.calls := by
    rw [MgmtCtx.call, delivered_append, sends, List.append_nil]
  refine ⟨session.toReceiving.call receives, ?_⟩
  cases session.phase with
  | waiting _ state answered short =>
      exact .waiting live state (kept.trans answered) short
  | replying _ state later answered left =>
      exact .replying live state later ((congrArg (· ++ _) kept).trans answered)
        left
  | ended closed answered cause =>
      rw [live] at closed
      cases closed

theorem InSession.breaks (session : InSession past said todo x)
    (valid : invalidFd key.fd = false) {i : Interest}
    (item : x.env.selector.items key.fd = some ⟨i, .mgmt, key.data⟩)
    {made : MgmtCall} (receives : mgmtReceived [made] = [])
    (sends : delivered [made] = []) (ends : made.Ends)
    (runs : mgmtDone key (x.call made) = some next) :
    HandlerOutcome past said todo x next := by
  have kept : delivered (x.call made).calls <+: said := by
    rw [MgmtCtx.call, delivered_append, sends, List.append_nil]
    exact session.phase.delivered_prefix
  have cause : Cause (x.call made) :=
    .inr
      (.inl ⟨made, List.mem_append_right _ (List.mem_singleton_self made),
      ends⟩)
  exact Receiving.done (x := x.call made) (session.toReceiving.call receives)
    valid item kept cause runs

theorem InSession.read (session : InSession past said todo x)
    (valid : invalidFd key.fd = false)
    (item :
      x.env.selector.items key.fd = some ⟨x.c.state.interest, .mgmt, key.data⟩)
    (live : x.closed = false) (reads : x.c.state.interest.read = true)
    {a : Answers} (runs : mgmtRead key a x = some next)
    (within : mgmtReceived next.calls ++ more = past ++ stream encode todo) :
    HandlerOutcome past said todo x next := by
  unfold mgmtRead at runs
  split at runs
  next full =>
    exact session.toReceiving.done valid item session.phase.delivered_prefix
      (.inl full) runs
  next room =>
    split at runs
    next e _ =>
      split at runs
      next =>
        cases runs
        exact .inl ⟨rfl, session.blocks live rfl rfl⟩
      next failed =>
        have ends : MgmtCall.Ends (.recvFailed e) :=
          Bool.eq_false_of_not_eq_true failed
        exact session.breaks valid item rfl rfl ends runs
    next octets _ =>
      dsimp only at runs
      split at runs
      next none =>
        have ends : MgmtCall.Ends (.recv (octets.take x.c.rbuf.space)) := none
        refine session.breaks valid item ?_ rfl ends runs
        rw [none]
        rfl
      next some =>
        obtain ⟨state, answered⟩ := session.waits live reads
        have unsent :
            delivered (x.calls ++ [.recv (octets.take x.c.rbuf.space)]) =
              said := by
          rw [delivered_append, answered]
          exact List.append_nil _
        have filled :=
          session.toReceiving.fill (List.length_take_le x.c.rbuf.space octets)
        have outcome := Receiving.tryProcess
          (x := { x.call (.recv (octets.take x.c.rbuf.space)) with
            c :=
              { x.c with
                rbuf := bufferFill x.c.rbuf (octets.take x.c.rbuf.space) } })
          filled live state unsent runs within
        exact outcome

theorem InSession.write (session : InSession past said todo x)
    (valid : invalidFd key.fd = false) (gated : MgmtGated key x)
    (live : x.closed = false) (writes : x.c.state.interest.write = true)
    {a : Answers} (runs : mgmtWrite key a x = some next)
    (within : mgmtReceived next.calls ++ more = past ++ stream encode todo) :
    HandlerOutcome past said todo x next := by
  have item := gated.item live
  unfold mgmtWrite at runs
  split at runs
  next e _ =>
    split at runs
    next =>
      cases runs
      exact .inl ⟨rfl, session.blocks live rfl rfl⟩
    next failed =>
      have ends : MgmtCall.Ends (.sendFailed e) :=
        Bool.eq_false_of_not_eq_true failed
      exact session.breaks valid item rfl rfl ends runs
  next count _ =>
    obtain ⟨state, later, answered, -⟩ := session.replies live writes
    have receiving (state : MgmtState) :=
      session.toReceiving.send (x.c.wbuf.content.take count)
      (x.c.wbuf.content.take count).length state
    have left :
        (bufferReadAdv x.c.wbuf (x.c.wbuf.content.take count).length).content =
          x.c.wbuf.content.drop (x.c.wbuf.content.take count).length :=
      Buffer.content_readAdv (List.length_take_le' ..)
    have restored :=
      List.prefix_iff_eq_append.mp (List.take_prefix count x.c.wbuf.content)
    have sent : delivered (x.calls ++ [.send (x.c.wbuf.content.take count)]) ++
        (bufferReadAdv x.c.wbuf (x.c.wbuf.content.take count).length).content =
          said := by
      rw [left, delivered_append, delivered_send, List.append_assoc,
        restored, answered]
    dsimp only at runs
    split at runs
    next more =>
      cases runs
      exact .inl ⟨rfl, receiving x.c.state,
        .replying live state later sent ((Buffer.canRead_iff _).mp more)⟩
    next flushed =>
      rw [Bool.not_eq_true, Buffer.canRead_eq_false_iff] at flushed
      have flushed : (bufferReadAdv x.c.wbuf
          (x.c.wbuf.content.take count).length).content = [] := flushed
      rw [flushed, List.append_nil] at sent
      split at runs
      next closes =>
        have refused := gated.stage.refusal state closes
        rw [answered, ← sent] at refused
        have whole :
            delivered (x.calls ++ [.send (x.c.wbuf.content.take count)]) <+:
            said :=
          sent ▸ List.prefix_refl _
        have outcome := Receiving.done
          (x := { x.call (.send (x.c.wbuf.content.take count)) with
            c := { x.c with
              wbuf :=
                bufferReadAdv x.c.wbuf (x.c.wbuf.content.take count).length } })
          (receiving x.c.state) valid item whole
          (.inr (.inr (refused ▸ List.prefix_refl _))) runs
        exact outcome
      next open_ =>
        have awaited : MgmtState.request = awaits todo := by
          cases todo with
          | nil => rfl
          | cons message rest => exact (later message List.mem_cons_self).symm
        have outcome := Receiving.tryProcess
          (x := MgmtCtx.setInterest
            { x.call (.send (x.c.wbuf.content.take count)) with
              c := { x.c with
                state := .request
                wbuf :=
                  bufferReadAdv x.c.wbuf (x.c.wbuf.content.take count).length }
                  } opRead)
          (receiving .request) live awaited sent runs within
        exact outcome.of_selector rfl

/-- Nobody else's changes to the server matter. -/
theorem InSession.elsewhere (session : InSession past said todo x) (env : Env) :
    InSession past said todo { x with env := env } := by
  refine ⟨session.toReceiving, ?_⟩
  cases session.phase with
  | waiting live state answered short =>
      exact .waiting live state answered short
  | replying live state later answered left =>
      exact .replying live state later answered left
  | ended closed answered cause => exact .ended closed answered cause

end Handlers

/-- The first of some messages have been served, each at one visit of the
trace. -/
def SessionAnswered (messages : List SmpMessage) (t : List MgmtVisit)
    (x : MgmtCtx) : Prop :=
  ∃ served todo, messages = served.map Prod.snd ++ todo ∧
    Moments.Trace MgmtVisit.Quiet MgmtVisit.Serves t served ∧
    InSession (stream encode (served.map Prod.snd)) (replies served) todo x

theorem MgmtStep.calls {key : Key} {x next : MgmtCtx} {v : MgmtVisit}
    (step : MgmtStep key x v next) : next.calls = x.calls ++ v.calls := by
  cases step with
  | read live registered kept ready runs calls after => exact calls
  | write live registered kept ready runs calls after => exact calls

theorem InSession.visit {key : Key} (valid : invalidFd key.fd = false)
    {past said more : List UInt8} {todo : List SmpMessage} {x next : MgmtCtx}
    {v : MgmtVisit} (gated : MgmtGated key x)
    (session : InSession past said todo x) (step : MgmtStep key x v next)
    (within : mgmtReceived next.calls ++ more = past ++ stream encode todo) :
    HandlerOutcome past said todo { x with env := v.before } next ∧
      next.env = v.after := by
  cases step with
  | @read a item live registered same ready runs calls after =>
      have own := (gated.item live).symm.trans registered
      refine ⟨(session.elsewhere v.before).read valid (same.trans own.symm)
        live ?_ runs within, after⟩
      exact (congrArg (·.interest.read) (Option.some.inj own)).trans ready
  | @write a item live registered same ready runs calls after =>
      have own := (gated.item live).symm.trans registered
      refine ⟨(session.elsewhere v.before).write valid
        (gated.elsewhere (same.trans registered.symm)) live ?_ runs within,
        after⟩
      exact (congrArg (·.interest.write) (Option.some.inj own)).trans ready

theorem SessionAnswered.step {key : Key} (valid : invalidFd key.fd = false)
    {messages : List SmpMessage} {t : List MgmtVisit} {x next : MgmtCtx}
    {v : MgmtVisit} (gated : MgmtGated key x)
    (answered : SessionAnswered messages t x) (step : MgmtStep key x v next)
    (arrived : mgmtReceived next.calls <+: stream encode messages) :
    SessionAnswered messages (t ++ [v]) next := by
  obtain ⟨served, todo, rfl, trace, session⟩ := answered
  obtain ⟨more, within⟩ := arrived
  rw [stream_append] at within
  obtain ⟨outcome, after⟩ := session.visit valid gated step within
  rcases outcome with ⟨records, next⟩ | ⟨message, rest, rfl, effect, next⟩
  · rw [after] at records
    exact ⟨served, todo, rfl, trace.rests records, next⟩
  · rw [after] at effect
    refine ⟨served ++ [(v, message)], rest, by simp, trace.serves effect, ?_⟩
    rw [List.map_append, stream_append, replies, List.flatMap_append]
    simpa [stream, replies] using next

theorem InSession.opened (key : Key) (env : Env) (user pass : Field)
    (requests : List SmpRequest) :
    InSession [] [] (session user pass requests)
      ⟨env, mgmtNew key.fd, [], false⟩ := by
  have empty : (mgmtNew key.fd).rbuf.content = [] :=
    Buffer.content_init mgmtRbuf fun _ => 0
  refine ⟨⟨?_, ?_, ?_, ?_, ?_⟩, .waiting rfl rfl rfl ?_⟩
  · exact Buffer.limit_init mgmtWbuf fun _ => 0
  · exact Buffer.limit_init mgmtRbuf fun _ => 0
  · exact (Buffer.write_init mgmtRbuf fun _ => 0).le
  · rw [empty]
    rfl
  · intro message member
    obtain ⟨r, -, rfl⟩ := List.mem_map.mp member
    rfl
  · intro message rest _
    exact List.length_pos_of_ne_nil message.encode_ne_nil

theorem answered_of_run {key : Key} {env : Env} (hosted : MgmtHosted key env)
    {t : List MgmtVisit} {x : MgmtCtx}
    (run : (mgmtVisits key).Run ⟨env, mgmtNew key.fd, [], false⟩ t x)
    {user pass : Field} {requests : List SmpRequest}
    (arrived :
      mgmtReceived x.calls <+: stream encode (session user pass requests)) :
    SessionAnswered (session user pass requests) t x := by
  generalize start : (⟨env, mgmtNew key.fd, [], false⟩ : MgmtCtx) = first at run
  induction run with
  | nil =>
      subst start
      exact ⟨[], _, rfl, .nil, .opened key env user pass requests⟩
  | @snoc middle last t v before step induction =>
      subst start
      have taken : MgmtStep key middle v last := step
      have earlier : mgmtReceived middle.calls <+: mgmtReceived last.calls := by
        rw [taken.calls, mgmtReceived_append]
        exact List.prefix_append ..
      exact (induction (earlier.trans arrived)).step hosted.1
        (gateKept_of_run hosted before).gated taken arrived

/-- The messages of a client are served one after the other, each whole at one
visit, whatever happens to the server between the visits; the others leave
users, counters and configuration alone.  What is sent are the replies to them,
each from the server of its moment. -/
theorem session_served {key : Key} {env : Env} (hosted : MgmtHosted key env)
    {t : List MgmtVisit} {x : MgmtCtx}
    (run : (mgmtVisits key).Run ⟨env, mgmtNew key.fd, [], false⟩ t x)
    {user pass : Field} {requests : List SmpRequest}
    (arrived :
      mgmtReceived x.calls <+: stream encode (session user pass requests)) :
    ∃ served todo, session user pass requests = served.map Prod.snd ++ todo ∧
      Moments.Trace MgmtVisit.Quiet MgmtVisit.Serves t served ∧
      delivered x.calls <+: replies served ∧
      mgmtReceived x.calls = stream encode (served.map Prod.snd) ++
        x.c.rbuf.content ∧
      (x.closed = false →
        (∃ data, x.env.selector.items key.fd = some ⟨opRead, .mgmt, data⟩) ∧
          delivered x.calls = replies served ∧
          (∀ message rest, todo = message :: rest →
            x.c.rbuf.content.length < message.encode.length) ∨
        (∃ data, x.env.selector.items key.fd = some ⟨opWrite, .mgmt, data⟩) ∧
          delivered x.calls ++ x.c.wbuf.content = replies served) := by
  obtain ⟨served, todo, whole, trace, session⟩ :=
    answered_of_run hosted run arrived
  refine ⟨served, todo, whole, trace, session.phase.delivered_prefix,
    session.received, fun live => ?_⟩
  have item := (gateKept_of_run hosted run).gated.item live
  cases session.phase with
  | waiting _ state answered short =>
      refine .inl ⟨⟨key.data, ?_⟩, answered, short⟩
      rw [item, state]
      cases todo with
      | nil => rfl
      | cons message rest => cases message <;> rfl
  | replying _ state later answered left =>
      refine .inr ⟨⟨key.data, ?_⟩, answered⟩
      rw [item]
      rcases state with state | state <;> rw [state] <;> rfl
  | ended closed answered cause =>
      rw [live] at closed
      cases closed

theorem administrator_length :
    FieldLength (CString.ofString "admin").octets := by
  decide

def administrator : Field := ⟨_, administrator_length⟩

/-- The counters are asked for in two chunks and sent in two. -/
theorem session_served_counters :
    ∃ (t : List MgmtVisit) (x : MgmtCtx)
      (served : List (MgmtVisit × SmpMessage))
      (todo : List SmpMessage), (delivered x.calls).length = 63 ∧
      session administrator administrator [.metrics] = served.map Prod.snd ++
        todo ∧
      Moments.Trace MgmtVisit.Quiet MgmtVisit.Serves t served ∧
      delivered x.calls <+: replies served := by
  have answered : ((mgmtTurns ⟨5, 0⟩ ⟨soleMgmtEnv ⟨5, 0⟩, mgmtNew 5, [], false⟩
      [(false, .receiving (authMessage administrator administrator)),
        (true, .accepting [2]), (false, .receiving [smpVersion]),
        (false, .receiving [smpCmdMetrics]), (true, .accepting [5]),
        (true, .accepting [56])]).any fun x =>
      decide (mgmtReceived x.calls =
        stream encode (session administrator administrator [.metrics])) &&
        decide ((delivered x.calls).length = 63)) = true := by
    decide +kernel
  obtain ⟨x, replayed, facts⟩ := (Option.any_eq_true ..).mp answered
  obtain ⟨received, sent⟩ := Bool.and_eq_true_iff.mp facts
  obtain ⟨t, run⟩ := run_of_mgmtTurns replayed
  have arrived : mgmtReceived x.calls <+:
      stream encode (session administrator administrator [.metrics]) :=
    (of_decide_eq_true received).symm ▸ List.prefix_refl _
  obtain ⟨served, todo, whole, trace, replied, -⟩ :=
    session_served ⟨by decide, by decide⟩ run arrived
  exact ⟨t, x, served, todo, of_decide_eq_true sent, whole, trace, replied⟩

end SocksProxy
