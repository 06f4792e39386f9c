import SocksProxy.Lib.Transition
import SocksProxy.Socks5.Lifecycle

/-! One SOCKS connection as a transition system.  The rest of the server is
arbitrary between two handler calls, so that every run of the server shows to
each of its connections a run of this system. -/

namespace SocksProxy

open Scanner Transition

/-- The objects that `socksv5_passive_accept` registers. -/
def Accepted (s : Socks5) : Prop :=
  ∃ config clientFd blocks old prepared address,
    prepare config clientFd blocks old = some prepared ∧
      s = { prepared with clientAddr := address, references := 1 }

def Registered (p : Ptr) (env : Env) (fd : Fd) : Prop :=
  invalidFd fd = false ∧ ∃ i, env.selector.items fd = some ⟨i, .socks5, p⟩

/-- The connection at `p` is registered with its descriptors, which differ. -/
structure Hosts (p : Ptr) (env : Env) (s : Socks5) : Prop where
  client : Registered p env s.clientFd
  origin : ∀ fd ∈ s.originFd, Registered p env fd ∧ fd ≠ s.clientFd

/-- What happens to a connection: one of its handlers runs in some environment,
or a resolver thread stores its answer. -/
inductive ConnectionStep (p : Ptr) (s : Socks5) : List Call → Socks5 → Prop
  | handled {kind : EventKind} {fd : Fd} {a : Answers} {env : Env} {c : Ctx}
      (hosts : Hosts p env s)
      (runs : socksv5Handler kind ⟨fd, p⟩ a ⟨env, s, [], false⟩ = some c) :
      ConnectionStep p s c.calls c.s
  | resolved (answer : DnsAnswer) :
      ConnectionStep p s []
        { s with dns :=
          { s.dns with result := answer.result, status := answer.status } }

def connection (p : Ptr) : System Socks5 (List Call) where
  init := Accepted
  step := ConnectionStep p

structure Turn where
  kind : EventKind
  fd : Fd
  answers : Answers

instance (p : Ptr) (env : Env) (fd : Fd) : Decidable (Registered p env fd) :=
  match found : env.selector.items fd with
  | none => isFalse (by simp [Registered, found])
  | some item =>
      if owned : invalidFd fd = false ∧ item.handler = .socks5 ∧
        item.data = p then
        isTrue ⟨owned.1, item.interest, by rw [found, ← owned.2.1, ← owned.2.2]⟩
      else
        isFalse (by
          rintro ⟨valid, i, held⟩
          rw [found, Option.some.injEq] at held
          exact owned (by rw [held]; exact ⟨valid, rfl, rfl⟩))

instance (p : Ptr) (env : Env) (s : Socks5) : Decidable (Hosts p env s) :=
  decidable_of_iff (Registered p env s.clientFd ∧
      ∀ fd ∈ s.originFd, Registered p env fd ∧ fd ≠ s.clientFd)
    ⟨fun hosts => ⟨hosts.1, hosts.2⟩, fun hosts => ⟨hosts.client, hosts.origin⟩⟩

def soleEnv (config : ProxyConfig) (users : UserTable) (fd : Fd) (p : Ptr) :
    Env :=
  let env := envInit ⟨Table.empty.insert fd .accepted, 0⟩ config users
  { env with selector := (selectorRegister env.selector fd .socks5 opRead p).1 }

def freshConnection (config : ProxyConfig) (fd : Fd) : Socks5 :=
  { initialise fd
      { Socks5.zeroed (fun _ => 0) (fun _ => 0) with
        rawRead := some (wantedSize config)
        rawWrite := some (wantedSize config)
        bufferSize := wantedSize config } with
    references := 1 }

theorem accepted_fresh (config : ProxyConfig) (fd : Fd) :
    Accepted (freshConnection config fd) :=
  ⟨config, fd, ⟨some fun _ => 0, some fun _ => 0⟩, none, _, ⟨.other 0, [], 0⟩,
    rfl, rfl⟩

theorem accepted_helloRead {s : Socks5} (accepted : Accepted s) :
    s.state = .helloRead := by
  obtain ⟨config, clientFd, blocks, old, prepared, address, made, rfl⟩ :=
    accepted
  obtain ⟨rawRead, rawWrite, readBlock, writeBlock, rfl⟩ := prepare_eq made
  rfl

/-- The calls, the environment and the object after a list of handler calls,
when all of them can happen. -/
def replay (p : Ptr) :
    Env → Socks5 → List Turn → Option (List (List Call) × Env × Socks5)
  | env, s, [] => some ([], env, s)
  | env, s, turn :: rest =>
      if Hosts p env s then
        (socksv5Handler turn.kind ⟨turn.fd, p⟩ turn.answers
            ⟨env, s, [], false⟩).bind fun c =>
          (replay p c.env c.s rest).map fun (labels, last) =>
            (c.calls :: labels, last)
      else none

theorem run_of_replay {p : Ptr} {env last : Env} {s reached : Socks5}
    {turns : List Turn} {labels : List (List Call)}
    (replayed : replay p env s turns = some (labels, last, reached)) :
    (connection p).Run s labels reached := by
  induction turns generalizing env s labels with
  | nil =>
      cases replayed
      exact .nil reached
  | cons turn turns induction =>
      unfold replay at replayed
      split at replayed
      next hosts =>
        obtain ⟨c, runs, others⟩ := Option.bind_eq_some_iff.mp replayed
        obtain ⟨⟨rest, _⟩, remaining, same⟩ := Option.map_eq_some_iff.mp others
        cases same
        have step : (connection p).step s c.calls c.s := .handled hosts runs
        exact (System.Run.single step).append (induction remaining)
      next => cases replayed

structure Picked where
  earlier : List (List Call)
  env : Env
  before : Socks5
  after : Ctx
  later : List (List Call)
  last : Env
  reached : Socks5

def replayAround (p : Ptr) (env : Env) (s : Socks5) (front : List Turn)
    (turn : Turn) (rest : List Turn) : Option Picked :=
  (replay p env s front).bind fun (earlier, env, before) =>
    if Hosts p env before then
      (socksv5Handler turn.kind ⟨turn.fd, p⟩ turn.answers
        ⟨env, before, [], false⟩).bind fun after =>
          (replay p after.env after.s rest).map fun (later, last, reached) =>
            ⟨earlier, env, before, after, later, last, reached⟩
    else none

theorem picked_of_replay {p : Ptr} {env : Env} {s : Socks5}
    {front rest : List Turn} {turn : Turn} {picked : Picked}
    (replayed : replayAround p env s front turn rest = some picked) :
    (connection p).Run s picked.earlier picked.before ∧
      Hosts p picked.env picked.before ∧
      socksv5Handler turn.kind ⟨turn.fd, p⟩ turn.answers
        ⟨picked.env, picked.before, [], false⟩ = some picked.after ∧
      (connection p).Run picked.after.s picked.later picked.reached := by
  obtain ⟨⟨_, _, _⟩, opened, others⟩ := Option.bind_eq_some_iff.mp replayed
  dsimp only at others
  split at others
  next hosts =>
    obtain ⟨_, runs, others⟩ := Option.bind_eq_some_iff.mp others
    obtain ⟨⟨_, _, _⟩, relayed, same⟩ := Option.map_eq_some_iff.mp others
    cases same
    exact ⟨run_of_replay opened, hosts, runs, run_of_replay relayed⟩
  next => cases others

@[simp] def Call.receivedFrom (fd : Fd) : Call → List UInt8
  | .recv source octets => if source = fd then octets else []
  | _ => []

@[simp] def Call.sentTo (fd : Fd) : Call → List UInt8
  | .send target octets => if target = fd then octets else []
  | _ => []

def receivedFrom (fd : Fd) (calls : List Call) : List UInt8 :=
  calls.flatMap (Call.receivedFrom fd)

def sentTo (fd : Fd) (calls : List Call) : List UInt8 :=
  calls.flatMap (Call.sentTo fd)

/-- The method negotiations: what `auth_required` was, and the choice. -/
def negotiations (calls : List Call) : List (Bool × UInt8) :=
  calls.filterMap fun
    | .chooseMethod authRequired method => some (authRequired, method)
    | _ => none

@[simp] theorem receivedFrom_append (fd : Fd) (left right : List Call) :
    receivedFrom fd (left ++ right) =
      receivedFrom fd left ++ receivedFrom fd right :=
  List.flatMap_append

@[simp] theorem sentTo_append (fd : Fd) (left right : List Call) :
    sentTo fd (left ++ right) = sentTo fd left ++ sentTo fd right :=
  List.flatMap_append

theorem receivedFrom_recv (fd : Fd) (octets : List UInt8) :
    receivedFrom fd [.recv fd octets] = octets := by
  simp [receivedFrom]

theorem sentTo_send (fd : Fd) (octets : List UInt8) :
    sentTo fd [.send fd octets] = octets := by
  simp [sentTo]

@[simp] theorem negotiations_append (left right : List Call) :
    negotiations (left ++ right) = negotiations left ++ negotiations right :=
  List.filterMap_append

namespace Ctx

@[simp] theorem call_s (c : Ctx) (made : Call) : (c.call made).s = c.s := rfl

@[simp] theorem call_calls (c : Ctx) (made : Call) :
    (c.call made).calls = c.calls ++ [made] := rfl

theorem call_single {c : Ctx} (called : c.calls = []) (made : Call) :
    (c.call made).calls = [made] := by
  rw [call_calls, called]
  rfl

@[simp] theorem setInterest_s (c : Ctx) (fd : Fd) (i : Interest) :
    (c.setInterest fd i).1.s = c.s := rfl

end Ctx

@[simp] theorem setInterestOrFail_s (c : Ctx) (i : Interest)
    (next : SocksState) : (setInterestOrFail c i next).1.s = c.s := by
  unfold setInterestOrFail
  split <;> exact congrArg (Ctx.s ∘ Prod.fst) (Eq.symm ‹_›)

@[simp] theorem setInterestOrFail_calls (c : Ctx) (i : Interest)
    (next : SocksState) : (setInterestOrFail c i next).1.calls = c.calls := by
  unfold setInterestOrFail
  split <;> exact congrArg (Ctx.calls ∘ Prod.fst) (Eq.symm ‹_›)

theorem setInterestOrFail_next (c : Ctx) (i : Interest) (next : SocksState) :
    (setInterestOrFail c i next).2 = next ∨
      (setInterestOrFail c i next).2 = .errorState := by
  unfold setInterestOrFail
  split <;> simp

theorem setInterestOrFail_registered {p : Ptr} {c : Ctx} {i : Interest}
    {next : SocksState} (registered : Registered p c.env c.s.clientFd) :
    (setInterestOrFail c i next).2 = next := by
  obtain ⟨valid, held, item⟩ := registered
  simp [setInterestOrFail, Ctx.setInterest, selectorSetInterest, valid, item]

/-- The handler that a state has for one kind of event. -/
def EventKind.ready : EventKind → StateDefinition → Option Handler
  | .read => StateDefinition.onReadReady
  | .write => StateDefinition.onWriteReady
  | .block => StateDefinition.onBlockReady

inductive Serves : SocksState → EventKind → Handler → Prop
  | helloRead : Serves .helloRead .read (total helloRead)
  | helloWrite : Serves .helloWrite .write (total helloWrite)
  | authRead : Serves .authRead .read (total authRead)
  | authWrite : Serves .authWrite .write (total authWrite)
  | requestRead : Serves .requestRead .read (total requestRead)
  | resolvBlock : Serves .requestResolv .block (total resolvBlock)
  | connectingWrite : Serves .requestConnecting .write connectingWrite
  | requestWrite : Serves .requestWrite .write (total requestWrite)
  | copyRead : Serves .copy .read (total copyRead)
  | copyWrite : Serves .copy .write (total copyWrite)

theorem serves_of_ready {kind : EventKind} {st : SocksState} {handler : Handler}
    (ready : kind.ready (states st) = some handler) :
    Serves st kind handler := by
  cases st <;> cases kind <;> cases ready
  · exact .helloRead
  · exact .helloWrite
  · exact .authRead
  · exact .authWrite
  · exact .requestRead
  · exact .resolvBlock
  · exact .connectingWrite
  · exact .requestWrite
  · exact .copyRead
  · exact .copyWrite

theorem eq_of_total {handler : Key → Answers → Ctx → Ctx × SocksState}
    {key : Key} {a : Answers} {c : Ctx} {result : Ctx × SocksState}
    (ran : total handler key a c = some result) : handler key a c = result :=
  Option.some.inj ran

theorem socksv5Handler_eq (kind : EventKind) :
    socksv5Handler kind = socksv5Handle (stmHandler kind.ready) := by
  cases kind <;> rfl

def Ctx.started (c : Ctx) : Ctx :=
  { c with s := { c.s with current := some c.s.state } }

theorem handleFirst_eq (key : Key) (a : Answers) (c : Ctx) :
    handleFirst key a c = c.started := by
  obtain ⟨env, s, calls, destroyed⟩ := c
  obtain ⟨⟩ := s
  rename_i current _ _ _ _ _ _ _ _ _ _ _ _ _ _ _ _ _ _ _ _ _ _ _ _ _
  cases current <;> rfl

@[simp] theorem started_state (c : Ctx) : c.started.s.state = c.s.state := rfl

def arrived (a : Answers) (config : ProxyConfig) (s : Socks5) :
    SocksState → Socks5
  | .requestWrite =>
      buildReply { s with current := some .requestWrite } s.reply a.sockname
  | .copy =>
      { s with
        current := some .copy
        clientEof := false
        originEof := false
        clientWrShut := false
        originWrShut := false
        sniffPop3 := decide (s.destPort = pop3Port) && config.pop3Sniff }
  | next => { s with current := some next }

theorem copyComputeInterests_s (c : Ctx) :
    (copyComputeInterests c).s = c.s := by
  unfold copyComputeInterests
  dsimp only
  split <;> rfl

theorem copyComputeInterests_calls (c : Ctx) :
    (copyComputeInterests c).calls = c.calls := by
  unfold copyComputeInterests
  dsimp only
  split <;> rfl

theorem requestWriteArrival_s (key : Key) (a : Answers) (c : Ctx) :
    (requestWriteArrival key a c).s = buildReply c.s c.s.reply a.sockname := by
  unfold requestWriteArrival
  dsimp only
  split <;> rfl

theorem requestWriteArrival_calls (key : Key) (a : Answers) (c : Ctx) :
    (requestWriteArrival key a c).calls = c.calls := by
  unfold requestWriteArrival
  dsimp only
  split <;> rfl

theorem enter_s (key : Key) (a : Answers) (next : SocksState) (c : Ctx) :
    (enter key a next c).s = arrived a c.env.config c.s next := by
  cases next with
  | requestWrite => exact requestWriteArrival_s key a _
  | copy => exact copyComputeInterests_s _
  | _ => rfl

theorem enter_calls (key : Key) (a : Answers) (next : SocksState) (c : Ctx) :
    (enter key a next c).calls = c.calls := by
  cases next with
  | requestWrite => exact requestWriteArrival_calls key a _
  | copy => exact copyComputeInterests_calls _
  | _ => rfl

@[simp] theorem jump_calls (key : Key) (a : Answers) (next : SocksState)
    (c : Ctx) : (jump key a next c).calls = c.calls := by
  unfold jump
  split
  · rfl
  · exact enter_calls key a next c

theorem jump_s (key : Key) (a : Answers) (next : SocksState) (c : Ctx) :
    (jump key a next c).s =
      if c.s.current = some next then c.s
      else arrived a c.env.config c.s next := by
  unfold jump
  split
  · rfl
  · exact enter_s key a next c

structure Closes (before after : Ctx) : Prop where
  calls : after.calls = before.calls
  object : ∃ references, after.s = { before.s with references := references }
  tally : after.env.metrics.tally = before.env.metrics.tally

theorem Closes.refl (c : Ctx) : Closes c c := ⟨rfl, ⟨_, rfl⟩, rfl⟩

theorem Closes.trans {first middle last : Ctx} (left : Closes first middle)
    (right : Closes middle last) : Closes first last := by
  obtain ⟨count, object⟩ := right.object
  obtain ⟨_, earlier⟩ := left.object
  exact ⟨right.calls.trans left.calls, ⟨count, by rw [object, earlier]⟩,
    right.tally.trans left.tally⟩

theorem closes_socksv5Close {fd : Fd} {c after : Ctx}
    (closed : socksv5Close fd c = some after) : Closes c after := by
  unfold socksv5Close at closed
  split at closed
  · cases closed
  · dsimp only at closed
    split at closed
    · cases closed
      exact ⟨rfl, ⟨_, rfl⟩, tally_closed _⟩
    · cases closed
      exact ⟨rfl, ⟨_, rfl⟩, rfl⟩

theorem closes_unregister {key : Key} {fd : Fd} {c after : Ctx}
    (unregistered : selectorUnregisterFd key fd c = some after) :
    Closes c after := by
  unfold selectorUnregisterFd at unregistered
  split at unregistered
  · cases unregistered
    exact .refl c
  · split at unregistered
    · cases unregistered
      exact .refl c
    · split at unregistered
      · obtain ⟨closed, closing, rfl⟩ := Option.map_eq_some_iff.mp unregistered
        have same := closes_socksv5Close closing
        exact ⟨same.calls, same.object, same.tally⟩
      · cases unregistered

theorem closes_done {key : Key} {c after : Ctx}
    (done : socksv5Done key c = some after) : Closes c after := by
  unfold socksv5Done at done
  obtain ⟨middle, first, second⟩ := Option.bind_eq_some_iff.mp done
  split at second
  · exact (closes_unregister first).trans (closes_unregister second)
  · cases second
    exact closes_unregister first

/-- The states in which the engine gives the connection up. -/
def SocksState.closing (st : SocksState) : Prop := st = .done ∨ st = .errorState

/-- The engine runs the handler of the current state and jumps to the state it
returns; a closing state gives the connection up. -/
structure Handled (kind : EventKind) (key : Key) (a : Answers) (c after : Ctx)
    (middle : Ctx) (next : SocksState) : Prop where
  runs : ∃ handler, Serves c.s.state kind handler ∧
    handler key a c.started = some (middle, next)
  closes : Closes (jump key a next middle) after
  stays : ¬ next.closing → after = jump key a next middle

/-- A connection that is given up ends with its descriptors unregistered. -/
theorem finished_of_handler {kind : EventKind} {key : Key} {a : Answers}
    {c after : Ctx} (runs : socksv5Handler kind key a c = some after) :
    ∃ middle next, Handled kind key a c after middle next ∧
      (next.closing → socksv5Done key (jump key a next middle) =
        some after) := by
  rw [socksv5Handler_eq, socksv5Handle] at runs
  obtain ⟨⟨entered, reported⟩, handled, finished⟩ :=
    Option.bind_eq_some_iff.mp runs
  unfold stmHandler at handled
  simp only [handleFirst_eq, started_state] at handled
  split at handled
  · cases handled
  next handler ready =>
    obtain ⟨⟨middle, next⟩, ran, same⟩ := Option.map_eq_some_iff.mp handled
    cases same
    refine ⟨middle, next, ⟨⟨handler, serves_of_ready ready, ran⟩, ?_, ?_⟩, ?_⟩
    · dsimp only at finished
      split at finished
      · exact closes_done finished
      · cases finished
        exact .refl _
    · intro remains
      dsimp only at finished
      unfold SocksState.closing at remains
      rw [if_neg remains] at finished
      cases finished
      rfl
    · intro closing
      dsimp only at finished
      unfold SocksState.closing at closing
      rwa [if_pos closing] at finished

theorem handled_of_handler {kind : EventKind} {key : Key} {a : Answers}
    {c after : Ctx} (runs : socksv5Handler kind key a c = some after) :
    ∃ middle next, Handled kind key a c after middle next := by
  obtain ⟨middle, next, handled, -⟩ := finished_of_handler runs
  exact ⟨middle, next, handled⟩

/-! The handlers of the handshake come in two shapes: receive and parse, or
send.  An effect says all that a handler of its shape can do. -/

section Effects

variable {Parser : Type} (feed : Parser → UInt8 → Parser)
  (finished : Parser → Bool)

/-- A handler that feeds `parser`: `store` puts the parser and the read buffer
back, and `complete` is what follows when the parser has finished. -/
inductive ReadEffect (parser : Parser) (store : Ctx → Parser → Buffer → Ctx)
    (self : SocksState) (complete : Ctx → Ctx × SocksState) (c : Ctx) :
    Ctx × SocksState → Prop
  | again (e : Errno) (blocked : wouldBlock e = true) :
      ReadEffect parser store self complete c
        (c.call (.recvFailed c.s.clientFd e), self)
  | failed (e : Errno) (hard : wouldBlock e = false) :
      ReadEffect parser store self complete c
        (c.call (.recvFailed c.s.clientFd e), .errorState)
  | closed :
      ReadEffect parser store self complete c
        (c.call (.recv c.s.clientFd []), .errorState)
  | partly {octets : List UInt8} {next : Parser} {buffer : Buffer}
      (some : octets ≠ []) (fits : octets.length ≤ c.s.readBuffer.space)
      (scanned : scan feed finished parser (c.s.readBuffer.content ++ octets) =
        (next, [], false))
      (content : buffer.content = [])
      (limit : buffer.limit = c.s.readBuffer.limit) (rewound : buffer.Rewound) :
      ReadEffect parser store self complete c
        (store (c.call (.recv c.s.clientFd octets)) next buffer, self)
  | completed {octets rest : List UInt8} {next : Parser} {buffer : Buffer}
      (some : octets ≠ []) (fits : octets.length ≤ c.s.readBuffer.space)
      (scanned : scan feed finished parser (c.s.readBuffer.content ++ octets) =
        (next, rest, true))
      (content : buffer.content = rest)
      (limit : buffer.limit = c.s.readBuffer.limit) (rewound : buffer.Rewound) :
      ReadEffect parser store self complete c
        (complete (store (c.call (.recv c.s.clientFd octets)) next buffer))

end Effects

/-- A handler that sends the write buffer: `complete` follows when all of it was
accepted. -/
inductive WriteEffect (self : SocksState) (complete : Ctx → Ctx × SocksState)
    (c : Ctx) : Ctx × SocksState → Prop
  | again (e : Errno) (blocked : wouldBlock e = true) :
      WriteEffect self complete c (c.call (.sendFailed c.s.clientFd e), self)
  | failed (e : Errno) (hard : wouldBlock e = false) :
      WriteEffect self complete c
        (c.call (.sendFailed c.s.clientFd e), .errorState)
  | partly {accepted rest : List UInt8} {buffer : Buffer}
      (split : c.s.writeBuffer.content = accepted ++ rest)
      (content : buffer.content = rest) (remains : rest ≠ [])
      (limit : buffer.limit = c.s.writeBuffer.limit) :
      WriteEffect self complete c
        ({ c.call (.send c.s.clientFd accepted) with
          s := { c.s with writeBuffer := buffer } }, self)
  | flushed {buffer : Buffer} (content : buffer.content = [])
      (limit : buffer.limit = c.s.writeBuffer.limit)
      (rewound : buffer.Rewound) : WriteEffect self complete c
        (complete { c.call (.send c.s.clientFd c.s.writeBuffer.content) with
          s := { c.s with writeBuffer := buffer } })

private theorem recvClient_cases (a : Answers) (c : Ctx) :
    (∃ e, recvClient a c = (c.call (.recvFailed c.s.clientFd e),
      if wouldBlock e then .again else .failed)) ∨
    recvClient a c = (c.call (.recv c.s.clientFd []), .failed) ∨
    ∃ octets, octets ≠ [] ∧ octets.length ≤ c.s.readBuffer.space ∧
      recvClient a c = ({ c.call (.recv c.s.clientFd octets) with
        s := { c.s with readBuffer := bufferFill c.s.readBuffer octets } },
        .received) := by
  unfold recvClient
  cases a.recv with
  | error e => exact .inl ⟨e, rfl⟩
  | ready octets =>
      simp only [Ctx.recv]
      cases taken : octets.take c.s.readBuffer.space with
      | nil => exact .inr (.inl rfl)
      | cons octet rest =>
          refine .inr (.inr ⟨octet :: rest, by simp, ?_, rfl⟩)
          rw [← taken]
          exact List.length_take_le _ _

section Reading

variable {Parser : Type} {feed : Parser → UInt8 → Parser}
  {finished : Parser → Bool} {parser : Parser}
  {store : Ctx → Parser → Buffer → Ctx} {self : SocksState}
  {complete : Ctx → Ctx × SocksState}

private theorem readEffect_of (a : Answers) (c : Ctx)
    (goesOn : Ctx → Ctx × SocksState)
    (feeds : ∀ octets, goesOn { c.call (.recv c.s.clientFd octets) with
        s := { c.s with readBuffer := bufferFill c.s.readBuffer octets } } =
      let consumed := parserConsume feed finished parser
        (bufferFill c.s.readBuffer octets)
      let stored := store (c.call (.recv c.s.clientFd octets)) consumed.1
        consumed.2.1
      if consumed.2.2 then complete stored else (stored, self)) :
    ReadEffect feed finished parser store self complete c
      (match recvClient a c with
      | (c, .again) => (c, self)
      | (c, .failed) => (c, .errorState)
      | (c, .received) => goesOn c) := by
  rcases recvClient_cases a c with ⟨e, received⟩ | received |
    ⟨octets, some, fits, received⟩
  · rw [received]
    cases blocked : wouldBlock e with
    | true => exact .again e blocked
    | false => exact .failed e blocked
  · rw [received]
    exact .closed
  · rw [received]
    change ReadEffect feed finished parser store self complete c (goesOn _)
    rw [feeds]
    have filled := Buffer.content_fill fits
    obtain ⟨⟨next, rest, stop⟩, scanned⟩ :
        ∃ result, scan feed finished parser
          (c.s.readBuffer.content ++ octets) = result := ⟨_, rfl⟩
    obtain ⟨buffer, content, limit, -, rewound, consumed⟩ :=
      parserConsume_scan (filled.symm ▸ scanned)
    have rewound := rewound (Buffer.rewound_fill some fits)
    rw [Buffer.limit_fill] at limit
    rw [consumed]
    cases stop with
    | true => exact .completed some fits scanned content limit rewound
    | false =>
        have nothing := scan_more_rest scanned
        subst nothing
        exact .partly some fits scanned content limit rewound

end Reading

private theorem sendClient_cases (a : Answers) (c : Ctx) :
    (∃ e, sendClient a c = (c.call (.sendFailed c.s.clientFd e),
      if wouldBlock e then .more else .failed)) ∨
    ∃ accepted rest buffer, c.s.writeBuffer.content = accepted ++ rest ∧
      buffer.content = rest ∧ buffer.limit = c.s.writeBuffer.limit ∧
      buffer.Rewound ∧
      sendClient a c = ({ c.call (.send c.s.clientFd accepted) with
        s := { c.s with writeBuffer := buffer } },
        if rest = [] then .flushed else .more) := by
  unfold sendClient
  cases a.send with
  | error e => exact .inl ⟨e, rfl⟩
  | accept count =>
      have left : (bufferReadAdv c.s.writeBuffer
          (c.s.writeBuffer.content.take count).length).content =
            c.s.writeBuffer.content.drop count := by
        rw [Buffer.content_readAdv (List.length_take_le' _ _)]
        simp [List.length_take, List.drop_eq_drop_min]
      refine .inr ⟨c.s.writeBuffer.content.take count,
        c.s.writeBuffer.content.drop count, _,
        (List.take_append_drop ..).symm, left, by simp,
        Buffer.rewound_readAdv (List.length_take_le' _ _), Prod.ext rfl ?_⟩
      change (if bufferCanRead (bufferReadAdv c.s.writeBuffer
        (c.s.writeBuffer.content.take count).length) then _ else _) = _
      cases remaining : c.s.writeBuffer.content.drop count with
      | nil =>
          have drained :=
            (Buffer.canRead_eq_false_iff _).mpr (left.trans remaining)
          rw [drained]
          rfl
      | cons octet rest =>
          have readable := (Buffer.canRead_iff _).mpr
            (left.trans_ne (by simp [remaining]))
          rw [readable]
          rfl

private theorem writeEffect_of (a : Answers) (c : Ctx) (self : SocksState)
    (complete : Ctx → Ctx × SocksState) :
    WriteEffect self complete c
      (match sendClient a c with
      | (c, .more) => (c, self)
      | (c, .failed) => (c, .errorState)
      | (c, .flushed) => complete c) := by
  rcases sendClient_cases a c with ⟨e, sent⟩ |
    ⟨accepted, rest, buffer, split, content, limit, rewound, sent⟩
  · rw [sent]
    cases blocked : wouldBlock e with
    | true => exact .again e blocked
    | false => exact .failed e blocked
  · rw [sent]
    cases rest with
    | nil =>
        rw [List.append_nil] at split
        subst split
        exact .flushed content limit rewound
    | cons octet rest => exact .partly split content (by simp) limit

/-- What `hello_read` does once the parser has finished. -/
def helloCompleted (c : Ctx) : Ctx × SocksState :=
  if c.s.hello.state = .error then (c, .errorState)
  else
    let method := chooseMethod c.env.config c.s
    setInterestOrFail
      { c.call (.chooseMethod c.env.config.authRequired method) with
        s := { c.s with
          method := method
          writeBuffer :=
            bufferWriteAll (bufferReset c.s.writeBuffer) [0x05, method] } }
      opWrite .helloWrite

theorem helloRead_effect (key : Key) (a : Answers) (c : Ctx) :
    ReadEffect helloParserFeed HelloParser.finished c.s.hello
      (fun c hello buffer =>
        { c with s := { c.s with hello := hello, readBuffer := buffer } })
      .helloRead helloCompleted c (helloRead key a c) := by
  refine readEffect_of a c _ fun octets => ?_
  simp only [helloParserConsume, Ctx.call_s, helloCompleted]
  generalize parserConsume helloParserFeed HelloParser.finished c.s.hello
    (bufferFill c.s.readBuffer octets) = consumed
  obtain ⟨hello, buffer, stop⟩ := consumed
  cases stop with
  | false => rfl
  | true =>
      by_cases failed : hello.state = .error
      · simp [failed]
      · have accepted : (hello.state == .error) = false := by simp [failed]
        simp only [accepted, failed, if_true, if_false]

theorem helloWrite_effect (key : Key) (a : Answers) (c : Ctx) :
    WriteEffect .helloWrite
      (fun c =>
        if c.s.method = methodNone then (c, .done)
        else
          setInterestOrFail c opRead
            (if c.s.method = methodUserpass then .authRead else .requestRead))
      c (helloWrite key a c) :=
  writeEffect_of a c .helloWrite _

/-- What `auth_read` does once the parser has finished. -/
def authCompleted (c : Ctx) : Ctx × SocksState :=
  if c.s.auth.state = .error then (c, .errorState)
  else
    let user := CString.ofArray c.s.auth.username
    let pass := CString.ofArray c.s.auth.password
    let ok := usersCheck c.env.users user pass
    setInterestOrFail
      { c.call (.usersCheck user pass ok) with
        s := { c.s with
          authOk := ok
          username := user.truncate 255
          writeBuffer :=
            bufferWriteAll (bufferReset c.s.writeBuffer)
              [0x01, if ok then 0x00 else 0x01] } }
      opWrite .authWrite

theorem authRead_effect (key : Key) (a : Answers) (c : Ctx) :
    ReadEffect authParserFeed AuthParser.finished c.s.auth
      (fun c auth buffer =>
        { c with s := { c.s with auth := auth, readBuffer := buffer } })
      .authRead authCompleted c (authRead key a c) := by
  refine readEffect_of a c _ fun octets => ?_
  simp only [authParserConsume, Ctx.call_s, authCompleted]
  generalize parserConsume authParserFeed AuthParser.finished c.s.auth
    (bufferFill c.s.readBuffer octets) = consumed
  obtain ⟨auth, buffer, stop⟩ := consumed
  cases stop with
  | false => rfl
  | true =>
      by_cases failed : auth.state = .error
      · simp [failed]
      · have accepted : (auth.state == .error) = false := by simp [failed]
        simp only [accepted, failed, if_true, if_false]

theorem authWrite_effect (key : Key) (a : Answers) (c : Ctx) :
    WriteEffect .authWrite
      (fun c =>
        if !c.s.authOk then (c, .done)
        else setInterestOrFail c opRead .requestRead)
      c (authWrite key a c) :=
  writeEffect_of a c .authWrite _

/-- What `request_read` does once the parser has finished. -/
def requestCompleted (key : Key) (a : Answers) (c : Ctx) : Ctx × SocksState :=
  let c' := (c.setInterest c.s.clientFd opNoop).1
  if c.s.request.state = .error then
    (c'.setReply repGeneralFailure, .requestWrite)
  else processRequest key a c'

theorem requestRead_effect (key : Key) (a : Answers) (c : Ctx) :
    ReadEffect requestParserFeed RequestParser.finished c.s.request
      (fun c request buffer =>
        { c.call .requestParserConsume with
          s := { c.s with request := request, readBuffer := buffer } })
      .requestRead (requestCompleted key a) c (requestRead key a c) := by
  refine readEffect_of a c _ fun octets => ?_
  rcases consumed : parserConsume requestParserFeed RequestParser.finished
    c.s.request (bufferFill c.s.readBuffer octets) with ⟨request, buffer, stop⟩
  simp only [requestParserConsume, Ctx.call_s, requestCompleted, consumed]
  cases stop with
  | false => rfl
  | true =>
      by_cases failed : request.state = .error
      · simp [failed, Ctx.setInterest, Ctx.call]
      · have accepted : (request.state == .error) = false := by simp [failed]
        simp only [accepted, failed, if_true, if_false]
        rfl

/-- What `request_write` does once the reply was sent. -/
def replySent (c : Ctx) : Ctx × SocksState :=
  let c := c.call (.loggerAccess
    { user := logUser c.s
      cmd := .ofString "CONNECT"
      origin := originString c.s
      dest := destString c.s
      status := c.s.reply })
  if c.s.reply ≠ repSuccess then
    ({ c with
        env := { c.env with
          metrics := metricsConnectionFailed c.env.metrics } }, .done)
  else (c, .copy)

theorem requestWrite_effect (key : Key) (a : Answers) (c : Ctx) :
    WriteEffect .requestWrite replySent c (requestWrite key a c) :=
  writeEffect_of a c .requestWrite _

/-! The read handlers of COPY, one for each direction, have a third shape:
`ended` notes the end of the source, `store` puts what was received into the
buffer of the direction, and `pump` sends on at once. -/

inductive RelayEffect (source : Fd) (buffer : Buffer) (ended : Ctx → Ctx)
    (store : Ctx → List UInt8 → Ctx) (pump : Ctx → Ctx × Bool) (c : Ctx) :
    Ctx × SocksState → Prop
  | full (space : buffer.space = 0) :
      RelayEffect source buffer ended store pump c (copyUpdate c)
  | again (e : Errno) (blocked : wouldBlock e = true) :
      RelayEffect source buffer ended store pump c
        (copyUpdate (c.call (.recvFailed source e)))
  | failed (e : Errno) (hard : wouldBlock e = false) :
      RelayEffect source buffer ended store pump c
        (copyUpdate (ended (c.call (.recvFailed source e))))
  | closed :
      RelayEffect source buffer ended store pump c
        (copyUpdate (ended (c.call (.recv source []))))
  | relayed {octets : List UInt8} (some : octets ≠ [])
      (fits : octets.length ≤ buffer.space) :
      RelayEffect source buffer ended store pump c
        (pumpThenUpdate (pump (store (c.call (.recv source octets)) octets)))

/-- The client's octets are counted, sniffed when the port asks for it, and
stored. -/
def storeFromClient (c : Ctx) (octets : List UInt8) : Ctx :=
  let c := { c with
    s := { c.s with readBuffer := bufferFill c.s.readBuffer octets }
    env := { c.env with
      metrics := metricsAddSent c.env.metrics octets.length } }
  if c.s.sniffPop3 then sniff c octets else c

def storeFromOrigin (c : Ctx) (octets : List UInt8) : Ctx :=
  { c with
    s := { c.s with writeBuffer := bufferFill c.s.writeBuffer octets }
    env := { c.env with
      metrics := metricsAddReceived c.env.metrics octets.length } }

private theorem relayEffect_of (a : Answers) (c : Ctx) (source : Fd)
    (buffer : Buffer) (ended : Ctx → Ctx) (store : Ctx → List UInt8 → Ctx)
    (pump : Ctx → Ctx × Bool) :
    RelayEffect source buffer ended store pump c
      (if buffer.space > 0 then
        match c.recv source buffer.space a.recv with
        | (c, .error e) =>
            if wouldBlock e then copyUpdate c else copyUpdate (ended c)
        | (c, .ok []) => copyUpdate (ended c)
        | (c, .ok octets) => pumpThenUpdate (pump (store c octets))
      else copyUpdate c) := by
  split
  · cases a.recv with
    | error e =>
        cases blocked : wouldBlock e with
        | true => simpa [Ctx.recv, blocked] using .again e blocked
        | false => simpa [Ctx.recv, blocked] using .failed e blocked
    | ready octets =>
        simp only [Ctx.recv]
        cases taken : octets.take buffer.space with
        | nil => exact .closed
        | cons octet rest =>
            refine .relayed (by simp) ?_
            rw [← taken]
            exact List.length_take_le _ _
  next none => exact .full (by omega)

theorem copyReadClient_effect (a : Answers) (c : Ctx) :
    RelayEffect c.s.clientFd c.s.readBuffer
      (fun c => { c with s := { c.s with clientEof := true } })
      storeFromClient (pumpToOrigin a) c (copyReadClient a c) :=
  relayEffect_of a c c.s.clientFd c.s.readBuffer _ storeFromClient _

theorem copyReadOrigin_effect (a : Answers) (c : Ctx) :
    RelayEffect c.s.originNumber c.s.writeBuffer
      (fun c => { c with s := { c.s with originEof := true } })
      storeFromOrigin (pumpToClient a) c (copyReadOrigin a c) :=
  relayEffect_of a c c.s.originNumber c.s.writeBuffer _ storeFromOrigin _

theorem RelayEffect.follows {R : Ctx → Ctx → Prop} {source : Fd}
    {buffer : Buffer} {ended : Ctx → Ctx} {store : Ctx → List UInt8 → Ctx}
    {pump : Ctx → Ctx × Bool} {c : Ctx} {result : Ctx × SocksState}
    (effect : RelayEffect source buffer ended store pump c result)
    (trans :
      ∀ {first middle last}, R first middle → R middle last → R first last)
    (updates : ∀ c, R c (copyUpdate c).1)
    (finishes : ∀ pumped : Ctx × Bool, R pumped.1 (pumpThenUpdate pumped).1)
    (blocked : ∀ e, R c (c.call (.recvFailed source e)))
    (closed : R c (c.call (.recv source []))) (ends : ∀ c, R c (ended c))
    (stores : ∀ octets, octets ≠ [] → octets.length ≤ buffer.space →
      R c (store (c.call (.recv source octets)) octets))
    (pumps : ∀ c, R c (pump c).1) : R c result.1 := by
  cases effect with
  | full => exact updates c
  | again e => exact trans (blocked e) (updates _)
  | failed e => exact trans (trans (blocked e) (ends _)) (updates _)
  | closed => exact trans (trans closed (ends _)) (updates _)
  | @relayed octets some fits =>
      exact trans (trans (stores octets some fits) (pumps _)) (finishes _)

end SocksProxy
