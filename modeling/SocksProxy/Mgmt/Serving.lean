import SocksProxy.Mgmt.Connection

/-! The invariant of a management connection: which messages have been
processed, what of their replies has been sent and what waits in the receive
buffer. -/

namespace SocksProxy

open Framing Transition SmpMessage

structure Processed (x : MgmtCtx) (message : SmpMessage) (after : MgmtCtx) :
    Prop where
  fd : after.c.fd = x.c.fd
  live : after.closed = x.closed
  state : after.c.state = message.replying
  env : after.env =
    { (serve x.env message).1 with
      selector := (selectorSetInterest x.env.selector x.c.fd opWrite).1 }
  reply : after.c.wbuf.content = (serve x.env message).2
  capacity : after.c.wbuf.limit = mgmtWbuf
  consumed : after.c.rbuf = bufferReadAdv x.c.rbuf message.encode.length
  unsent : delivered after.calls = delivered x.calls
  kept : x.c.closeAfterWrite = false →
    (∀ user pass, message = .handshake user pass →
      admits x.env.config user.val pass.val = true) →
    after.c.closeAfterWrite = false

section Process

variable (key : Key) {x : MgmtCtx} {more : List UInt8}
  (room : x.c.wbuf.limit = mgmtWbuf)

include room

private theorem content_response (env : Env) (r : MgmtReq) :
    (processMgmtRequest env (bufferReset x.c.wbuf) r).2.content =
      (processMgmtRequest env (bufferInit mgmtWbuf fun _ => 0)
        r).2.content := by
  obtain ⟨octets, writes⟩ := appends_processMgmtRequest env r
  dsimp only at writes
  rw [writes, writes, Buffer.content_writeAll_take,
    Buffer.content_writeAll_take]
  simp [Buffer.space, room]

private theorem limit_response (env : Env) (r : MgmtReq) :
    (processMgmtRequest env (bufferReset x.c.wbuf) r).2.limit = mgmtWbuf := by
  obtain ⟨octets, writes⟩ := appends_processMgmtRequest env r
  dsimp only at writes
  rw [writes, Buffer.limit_writeAll, Buffer.limit_reset, room]

theorem processAuth_message {user pass : Field}
    (arrived : x.c.rbuf.content = (handshake user pass).encode ++ more) :
    ∃ after, mgmtProcessAuth key x = some after ∧
      Processed x (handshake user pass) after := by
  have parsed := parseAuth_message user.property pass.property more
  have positive : (authMessage user.val pass.val).length ≠ 0 := by
    simp [authMessage]
  unfold mgmtProcessAuth
  rw [arrived, encode, parsed]
  dsimp only
  rw [if_neg (by omega), if_neg (by omega)]
  refine ⟨_, rfl, ?_⟩
  have written (octets : List UInt8) (two : octets.length = 2) :
      (bufferWriteAll (bufferReset x.c.wbuf) octets).content = octets :=
    Buffer.content_writeAll_reset (by rw [room, two]; decide)
  constructor
  · rfl
  · rfl
  · rfl
  · rfl
  · exact (written _ rfl).trans (by simp [serve, admits])
  · simpa [MgmtCtx.setInterest, MgmtCtx.call] using room
  · rfl
  · simp [MgmtCtx.setInterest, MgmtCtx.call, delivered]
  · intro _ admitted
    simpa [MgmtCtx.setInterest, admits] using admitted user pass rfl

theorem processRequest_message {r : SmpRequest}
    (arrived : x.c.rbuf.content = (request r).encode ++ more) :
    ∃ after, mgmtProcessRequest key x = some after ∧
      Processed x (request r) after := by
  have two := r.encode_length
  unfold mgmtProcessRequest
  rw [arrived, encode, SmpRequest.parseRequest_encode]
  dsimp only
  rcases r.code_eq with ⟨cmd, undefined, rfl⟩ | whole
  · have answered (env : Env) (b : Buffer) :=
      processMgmtRequest_unknown env b undefined
    have response := content_response room x.env
      (SmpRequest.unknown cmd undefined).parsed
    have capacity := limit_response room x.env
      (SmpRequest.unknown cmd undefined).parsed
    rw [answered, answered] at response
    rw [answered] at capacity
    dsimp only at response capacity
    have code : (SmpRequest.unknown cmd undefined).code = -2 := rfl
    rw [code, if_neg (by decide), if_neg (by decide)]
    simp only [SmpRequest.parsed, if_true]
    refine ⟨_, rfl, ?_⟩
    constructor
    · rfl
    · rfl
    · rfl
    · rw [serve, answered]
      rfl
    · rw [serve, answered]
      dsimp only [MgmtCtx.setInterest, MgmtCtx.call]
      exact response
    · dsimp only [MgmtCtx.setInterest, MgmtCtx.call]
      exact capacity
    · rfl
    · simp [MgmtCtx.setInterest, MgmtCtx.call, delivered]
    · exact fun kept _ => kept
  · rw [whole, if_neg (by omega), if_neg (by omega), if_neg (by omega)]
    refine ⟨_, rfl, ?_⟩
    constructor
    · rfl
    · rfl
    · rfl
    · simp only [serve, MgmtCtx.setInterest, MgmtCtx.call]
      rw [processMgmtRequest_env x.env (bufferInit mgmtWbuf fun _ => 0)
        (bufferReset x.c.wbuf), selector_processMgmtRequest]
    · dsimp only [serve, MgmtCtx.setInterest, MgmtCtx.call]
      exact content_response room x.env r.parsed
    · dsimp only [MgmtCtx.setInterest, MgmtCtx.call]
      exact limit_response room x.env r.parsed
    · rfl
    · simp [MgmtCtx.setInterest, MgmtCtx.call, delivered]
    · exact fun kept _ => kept

/-- A whole message at the front of the receive buffer is processed. -/
theorem tryProcess_message {message : SmpMessage}
    (state : x.c.state = message.awaited)
    (arrived : x.c.rbuf.content = message.encode ++ more) :
    ∃ after, mgmtTryProcess key x = some after ∧ Processed x message after := by
  unfold mgmtTryProcess
  cases message with
  | handshake user pass =>
      rw [state]
      exact processAuth_message key room arrived
  | request r =>
      rw [state]
      exact processRequest_message key room arrived

omit room

theorem tryProcess_part {message : SmpMessage}
    (state : x.c.state = message.awaited)
    (short : x.c.rbuf.content.length < message.encode.length)
    (part : x.c.rbuf.content = message.encode.take x.c.rbuf.content.length) :
    mgmtTryProcess key x = some x := by
  unfold mgmtTryProcess
  cases message with
  | handshake user pass =>
      rw [state]
      have asks := parseAuth_part user.property pass.property short
      rw [encode] at part
      rw [← part] at asks
      unfold awaited mgmtProcessAuth
      dsimp only
      rw [asks, if_pos rfl]
  | request r =>
      rw [state]
      have asks := r.parseRequest_part short
      rw [encode] at part
      rw [← part] at asks
      unfold awaited mgmtProcessRequest
      dsimp only
      rw [asks, if_pos rfl]

end Process

structure Attached (key : Key) (i : Interest) (x : MgmtCtx) : Prop where
  live : x.closed = false
  fd : x.c.fd = key.fd
  item : x.env.selector.items key.fd = some ⟨i, .mgmt, key.data⟩
  kept : x.c.closeAfterWrite = false
  receive : x.c.rbuf.limit = mgmtRbuf
  send : x.c.wbuf.limit = mgmtWbuf

/-- The messages `done` have been processed and `todo` have not; `used` is how
far the receive buffer is filled. -/
structure Serving (key : Key) (env : Env) (i : Interest)
    (done todo : List SmpMessage) (used : Nat × Nat) (link : MgmtLink) :
    Prop where
  attached : Attached key i link.x
  effects : link.x.env =
    { (serveAll serve env done).1 with selector := link.x.env.selector }
  octets : link.x.c.rbuf.content ++ link.pending = stream encode todo
  received : used.1 = (stream encode done).length + link.x.c.rbuf.content.length
  offset : link.x.c.rbuf.write = if link.x.c.rbuf.content = [] then 0
                                 else used.2
  admitted : ∀ user pass, handshake user pass ∈ todo →
    admits env.config user.val pass.val = true
  requests : ∀ message ∈ todo.tail, message.awaited = .request

def awaits : List SmpMessage → MgmtState
  | [] => .request
  | message :: _ => message.awaited

structure Awaiting (key : Key) (env : Env) (done todo : List SmpMessage)
    (used : Nat × Nat) (link : MgmtLink) : Prop
    extends Serving key env opRead done todo used link where
  state : link.x.c.state = awaits todo
  answered : link.sent = (serveAll serve env done).2

structure Replying (key : Key) (env : Env) (done todo : List SmpMessage)
    (used : Nat × Nat) (link : MgmtLink) : Prop
    extends Serving key env opWrite done todo used link where
  later : ∀ message ∈ todo, message.awaited = .request
  answered : link.sent ++ link.x.c.wbuf.content = (serveAll serve env done).2

/-- The next message has not arrived whole. -/
def Incomplete (todo : List SmpMessage) (link : MgmtLink) : Prop :=
  ∀ message rest, todo = message :: rest →
    link.x.c.rbuf.content.length < message.encode.length

/-- No handler runs and every whole message received has been processed, or a
reply is being sent. -/
def Served (key : Key) (env : Env) (messages : List SmpMessage)
    (used : Nat × Nat) (link : MgmtLink) : Prop :=
  ∃ done todo, messages = done ++ todo ∧
    (Awaiting key env done todo used link ∧ Incomplete todo link ∨
      Replying key env done todo used link)

theorem admits_serveAll (env : Env) (messages : List SmpMessage)
    (user pass : List UInt8) :
    admits (serveAll serve env messages).1.config user pass =
      admits env.config user pass := by
  induction messages generalizing env with
  | nil => rfl
  | cons message rest induction =>
      have same : admits (serve env message).1.config user pass =
          admits env.config user pass := by
        cases message with
        | handshake _ _ => rfl
        | request r => simp only [serve, admits, admin_processMgmtRequest]
      exact (induction (serve env message).1).trans same

theorem item_setInterest {s : Selector} {fd : Fd} {item : Item} {i : Interest}
    (valid : invalidFd fd = false) (held : s.items fd = some item) :
    (selectorSetInterest s fd i).1.items fd =
      some { item with interest := i } := by
  simp [selectorSetInterest, valid, held]

def Settled (key : Key) (env : Env) (done todo : List SmpMessage)
    (used : Nat × Nat) (link : MgmtLink) : Prop :=
  Awaiting key env done todo used link ∧ Incomplete todo link ∨
    ∃ message rest, todo = message :: rest ∧
      Replying key env (done ++ [message]) rest used link

theorem Settled.served {key : Key} {env : Env} {done todo : List SmpMessage}
    {used : Nat × Nat} {link : MgmtLink}
    (settled : Settled key env done todo used link) :
    Served key env (done ++ todo) used link := by
  rcases settled with ⟨awaiting, short⟩ | ⟨message, rest, rfl, replying⟩
  · exact ⟨done, todo, rfl, .inl ⟨awaiting, short⟩⟩
  · exact ⟨done ++ [message], rest, by simp, .inr replying⟩

/-- A whole message leads to its reply. -/
theorem Awaiting.process {key : Key} {env : Env} {done rest : List SmpMessage}
    {message : SmpMessage} {used : Nat × Nat} {link : MgmtLink}
    {more : List UInt8} (valid : invalidFd key.fd = false)
    (awaiting : Awaiting key env done (message :: rest) used link)
    (arrived : link.x.c.rbuf.content = message.encode ++ more)
    (others : more ++ link.pending = stream encode rest) :
    ∃ x, mgmtTryProcess key link.x = some x ∧
      Replying key env (done ++ [message]) rest used ⟨x, link.pending⟩ := by
  obtain ⟨⟨attached, effects, octets, received, offset, admitted, requests⟩,
    state, answered⟩ := awaiting
  obtain ⟨x, runs, after⟩ := tryProcess_message key attached.send
    state arrived
  have count : message.encode.length ≤ link.x.c.rbuf.content.length := by
    rw [arrived, List.length_append]
    exact Nat.le_add_right _ _
  have left : x.c.rbuf.content = more := by
    rw [after.consumed, Buffer.content_readAdv count, arrived, List.drop_left]
  have config : link.x.env.config = (serveAll serve env done).1.config := by
    rw [effects]
  have served : serve link.x.env message =
      ({ (serve (serveAll serve env done).1 message).1 with
          selector := link.x.env.selector },
        (serve (serveAll serve env done).1 message).2) := by
    rw [effects]
    cases message with
    | handshake _ _ => rfl
    | request r => simp only [serve, processMgmtRequest_selector]
  refine ⟨x, runs, ⟨⟨⟨?_, ?_, ?_, ?_, ?_, ?_⟩, ?_, ?_, ?_, ?_, ?_, ?_⟩, ?_, ?_⟩⟩
  · rw [after.live, attached.live]
  · rw [after.fd, attached.fd]
  · rw [after.env, attached.fd]
    exact item_setInterest valid attached.item
  · refine after.kept attached.kept fun user pass same => ?_
    rw [config, admits_serveAll]
    exact admitted user pass (by simp [same])
  · rw [after.consumed, Buffer.limit_readAdv, attached.receive]
  · exact after.capacity
  · dsimp only
    rw [after.env, served, serveAll_concat]
  · dsimp only
    rw [left, others]
  · rw [stream_append, List.length_append, left, received, arrived,
      List.length_append, stream_cons, stream_nil, List.append_nil,
      Nat.add_assoc]
  · dsimp only
    rw [left]
    have filled : link.x.c.rbuf.content ≠ [] := by
      rw [arrived]
      simp [message.encode_ne_nil]
    rw [if_neg filled] at offset
    split
    next none =>
      rw [after.consumed]
      exact Buffer.write_readAdv_all (by rw [arrived, none, List.append_nil])
    next some =>
      rw [after.consumed, ← offset]
      refine Buffer.write_readAdv_some ?_
      have positive := List.length_pos_of_ne_nil some
      rw [arrived, List.length_append]
      omega
  · exact fun user pass member =>
      admitted user pass (List.mem_cons_of_mem _ member)
  · exact fun other member => requests other (List.mem_of_mem_tail member)
  · exact fun other member => requests other member
  · rw [serveAll_concat]
    change delivered x.calls ++ x.c.wbuf.content = _
    rw [after.unsent, after.reply, served]
    exact congrArg (· ++ _) answered

theorem Awaiting.settle {key : Key} {env : Env} {done todo : List SmpMessage}
    {used : Nat × Nat} {link : MgmtLink} (valid : invalidFd key.fd = false)
    (awaiting : Awaiting key env done todo used link) :
    ∃ x, mgmtTryProcess key link.x = some x ∧
      Settled key env done todo used ⟨x, link.pending⟩ := by
  have octets := awaiting.octets
  cases todo with
  | nil =>
      have empty : link.x.c.rbuf.content = [] :=
        (List.append_eq_nil_iff.mp octets).1
      refine ⟨link.x, ?_, .inl ⟨awaiting, ?_⟩⟩
      · simp [mgmtTryProcess, awaiting.state, awaits, mgmtProcessRequest, empty,
          parseRequest]
      · intro message rest same
        cases same
  | cons message rest =>
      rw [stream_cons] at octets
      rcases arrived_or_part octets with ⟨more, arrived, others⟩ | ⟨short, part⟩
      · obtain ⟨x, runs, replying⟩ := awaiting.process valid arrived others
        exact ⟨x, runs, .inr ⟨message, rest, rfl, replying⟩⟩
      · refine ⟨link.x, tryProcess_part key awaiting.state short part,
          .inl ⟨awaiting, ?_⟩⟩
        rintro _ _ ⟨⟩
        exact short

/-- The receive buffer is empty at the boundaries and only there. -/
theorem Awaiting.boundary_iff {key : Key} {env : Env}
    {done todo : List SmpMessage} {used : Nat × Nat} {link : MgmtLink}
    (awaiting : Awaiting key env done todo used link)
    (short : Incomplete todo link) :
    used.1 ∈ boundaries encode (done ++ todo) ↔ link.x.c.rbuf.content = [] := by
  rw [awaiting.received]
  refine Framing.boundary_iff short fun none => ?_
  have octets := awaiting.octets
  rw [none, stream_nil, List.append_eq_nil_iff] at octets
  exact octets.1

theorem mgmtRead_receiving {key : Key} {x : MgmtCtx} {octets : List UInt8}
    (some : octets ≠ []) (fits : octets.length ≤ x.c.rbuf.space) :
    mgmtRead key (.receiving octets) x =
      mgmtTryProcess key
        { x.call (.recv octets) with
          c := { x.c with rbuf := bufferFill x.c.rbuf octets } } := by
  have positive := List.length_pos_of_ne_nil some
  have kept : octets.take x.c.rbuf.space = octets := List.take_of_length_le fits
  unfold mgmtRead
  rw [if_neg (by omega)]
  simp only [Answers.receiving, kept]
  rw [if_neg some]
  rfl

theorem Awaiting.receive {key : Key} {env : Env} {done todo : List SmpMessage}
    {used : Nat × Nat} {link : MgmtLink} {count : Nat}
    (valid : invalidFd key.fd = false)
    (awaiting : Awaiting key env done todo used link)
    (short : Incomplete todo link) (positive : 0 < count)
    (available : count ≤ link.pending.length)
    (fits : count ≤ link.x.c.rbuf.space) :
    ∃ x, mgmtRead key (.receiving (link.pending.take count)) link.x = some x ∧
      Settled key env done todo (occupy (done ++ todo) used count)
        ⟨x, link.pending.drop count⟩ := by
  have boundary := awaiting.boundary_iff short
  obtain ⟨⟨attached, effects, octets, received, offset, admitted, requests⟩,
    state, answered⟩ := awaiting
  have counted : (link.pending.take count).length = count := by
    rw [List.length_take]
    omega
  have fits' : (link.pending.take count).length ≤ link.x.c.rbuf.space := by
    rwa [counted]
  have some : link.pending.take count ≠ [] := by
    rw [← List.length_pos_iff, counted]
    exact positive
  have content := Buffer.content_fill fits'
  rw [mgmtRead_receiving some fits']
  have filled : Awaiting key env done todo (occupy (done ++ todo) used count)
      ⟨{ link.x.call (.recv (link.pending.take count)) with
          c := { link.x.c with
            rbuf := bufferFill link.x.c.rbuf (link.pending.take count) } },
        link.pending.drop count⟩ := by
    refine ⟨⟨⟨attached.live, attached.fd, attached.item, attached.kept, ?_,
      attached.send⟩, effects, ?_, ?_, ?_, admitted, requests⟩, state, ?_⟩
    · exact (Buffer.limit_fill ..).trans attached.receive
    · dsimp only
      rw [content, List.append_assoc, List.take_append_drop, octets]
    · dsimp only
      rw [content, List.length_append, counted, occupy, received, Nat.add_assoc]
    · have filled : link.x.c.rbuf.content ++ link.pending.take count ≠ [] := by
        simp [some]
      dsimp only
      rw [Buffer.write_fill fits', counted, offset, content, if_neg filled]
      simp only [occupy, boundary]
    · change delivered (link.x.calls ++ [.recv _]) = _
      rw [delivered_append, ← answered]
      exact List.append_nil _
  exact filled.settle valid

theorem mgmtWrite_accepting (key : Key) (x : MgmtCtx) (count : Nat) :
    mgmtWrite key (.accepting [count]) x =
      let accepted := x.c.wbuf.content.take count
      let x := x.call (.send accepted)
      let x := { x with
        c := { x.c with wbuf := bufferReadAdv x.c.wbuf accepted.length } }
      if bufferCanRead x.c.wbuf then some x
      else if x.c.closeAfterWrite then mgmtDone key x
      else
        mgmtTryProcess key (MgmtCtx.setInterest
          { x with c := { x.c with state := .request } } opRead) := rfl

/-- Octets of a reply are sent, and after the last of them the next message is
processed if it has arrived. -/
theorem Replying.send {key : Key} {env : Env} {done todo : List SmpMessage}
    {used : Nat × Nat} {link : MgmtLink} (valid : invalidFd key.fd = false)
    (replying : Replying key env done todo used link) (count : Nat) :
    ∃ x, mgmtWrite key (.accepting [count]) link.x = some x ∧
      (Settled key env done todo used ⟨x, link.pending⟩ ∨
        count < link.x.c.wbuf.content.length ∧
          Replying key env done todo used ⟨x, link.pending⟩) := by
  obtain ⟨⟨attached, effects, octets, received, offset, admitted, requests⟩,
    later, answered⟩ := replying
  have fits : (link.x.c.wbuf.content.take count).length ≤
      link.x.c.wbuf.content.length := List.length_take_le' ..
  have left := Buffer.content_readAdv fits
  have sent :
      delivered (link.x.calls ++ [.send (link.x.c.wbuf.content.take count)]) ++
      (bufferReadAdv link.x.c.wbuf
        (link.x.c.wbuf.content.take count).length).content =
          (serveAll serve env done).2 := by
    have restored := List.prefix_iff_eq_append.mp
      (List.take_prefix count link.x.c.wbuf.content)
    have single (octets : List UInt8) : delivered [.send octets] = octets := by
      simp [delivered]
    rw [left, delivered_append, single, ← answered, List.append_assoc, restored]
    rfl
  rw [mgmtWrite_accepting]
  dsimp only
  split
  next more =>
    rw [Buffer.canRead_iff] at more
    refine ⟨_, rfl,
      .inr ⟨?_, ⟨⟨attached.live, attached.fd, attached.item, attached.kept,
      attached.receive, ?_⟩, effects, octets, received, offset,
      admitted, requests⟩, later, sent⟩⟩
    · have some : link.x.c.wbuf.content.drop
          (link.x.c.wbuf.content.take count).length ≠ [] := left ▸ more
      rw [Ne, List.drop_eq_nil_iff, List.length_take] at some
      omega
    · exact (Buffer.limit_readAdv ..).trans attached.send
  next flushed =>
    rw [Bool.not_eq_true, Buffer.canRead_eq_false_iff] at flushed
    have emptied : (bufferReadAdv link.x.c.wbuf
        (link.x.c.wbuf.content.take count).length).content = [] := flushed
    rw [emptied, List.append_nil] at sent
    have awaiting : Awaiting key env done todo used
        ⟨MgmtCtx.setInterest
          { link.x.call (.send (link.x.c.wbuf.content.take count)) with
            c := { link.x.c with
              state := .request
              wbuf := bufferReadAdv link.x.c.wbuf
                (link.x.c.wbuf.content.take count).length } } opRead,
          link.pending⟩ := by
      refine ⟨⟨⟨attached.live, attached.fd, ?_, attached.kept, attached.receive,
        ?_⟩, ?_, octets, received, offset, admitted, requests⟩, ?_, sent⟩
      · have registered := item_setInterest (i := opRead) valid attached.item
        rw [← attached.fd] at registered ⊢
        exact registered
      · exact (Buffer.limit_readAdv ..).trans attached.send
      · dsimp only [MgmtCtx.setInterest, MgmtCtx.call]
        rw [effects]
      · cases todo with
        | nil => rfl
        | cons message rest =>
            exact (later message (List.mem_cons_self ..)).symm
    obtain ⟨x, runs, settled⟩ := awaiting.settle valid
    split
    next closes =>
      exact absurd (attached.kept.symm.trans closes) Bool.false_ne_true
    next => exact ⟨x, runs, .inl settled⟩

end SocksProxy
