import SocksProxy.Socks5.Engine
import SocksProxy.Socks5.Failover

/-! What a client will see of the handshake, as a function of its octets and of
the answers of the world alone. -/

namespace SocksProxy

open Scanner

/-- What becomes of a candidate, whatever descriptor it gets. -/
inductive Fate
  | connected | connecting | failed (reason : Option Errno)
  deriving DecidableEq

def fateOf (a : Answers) (c : Ctx) : Fate :=
  match outcomeOf a c with
  | some (.success _) => .connected
  | some (.failure reason) => .failed reason
  | none => .connecting

/-- What the world answers to a connection, whenever it asks: candidates go by
their index, and `ended` is the error of a connect that was under way. -/
structure Results where
  authRequired : Bool
  check : CString → CString → Bool
  launched : Bool
  answer : DnsAnswer
  fate : Nat → Fate
  ended : Nat → Errno
  sockname : Option SockAddr

/-- The same descriptors are open and registered. -/
def Env.SameUse (before after : Env) : Prop :=
  ∀ fd, (after.selector.items fd).isSome =
      (before.selector.items fd).isSome ∧
    after.kernel.socket fd = before.kernel.socket fd

theorem Env.SameUse.trans {first middle last : Env}
    (left : first.SameUse middle) (right : middle.SameUse last) :
    first.SameUse last :=
  fun fd => ⟨(right fd).1.trans (left fd).1, (right fd).2.trans (left fd).2⟩

theorem Unmoved.sameUse {before after : Ctx} (unmoved : Unmoved before after) :
    before.env.SameUse after.env :=
  fun fd => ⟨congrArg Option.isSome (unmoved.slots fd).1,
    (unmoved.slots fd).2⟩

theorem sameUse_setInterest (c : Ctx) (fd : Fd) (i : Interest) :
    c.env.SameUse (c.setInterest fd i).1.env := by
  refine fun other => ⟨?_, rfl⟩
  unfold Ctx.setInterest selectorSetInterest
  dsimp only
  split
  · rfl
  · split
    · rfl
    next item held =>
      by_cases same : other = fd
      · rw [same, Selector.items_setItem_self, held]
        rfl
      · rw [Selector.items_setItem_ne _ _ same]

namespace Results

variable (w : Results)

/-- The candidates fare as foreseen wherever the same descriptors are in
use. -/
def Fits (a : Answers) (env : Env) : Prop :=
  ∀ c : Ctx, env.SameUse c.env → fateOf a c = w.fate c.s.addrIdx

/-- A handler that is called in `c` gets these results. -/
def Gives (key : Key) (a : Answers) (c : Ctx) : Prop :=
  a.sockname = w.sockname ∧
    match c.s.state with
    | .helloRead => c.env.config.authRequired = w.authRequired
    | .authRead =>
        ∀ user pass : CString,
          usersCheck c.env.users user pass = w.check user pass
    | .requestRead => a.thread = w.launched ∧ w.Fits a c.env
    | .requestResolv =>
        c.s.dns.status = w.answer.status ∧ c.s.dns.result = w.answer.result ∧
          w.Fits a c.env
    | .requestConnecting =>
        connectError a c = w.ended c.s.addrIdx ∧
          ∀ reply dropped,
            selectorUnregisterFd key c.s.originNumber (c.setReply reply) =
              some dropped →
            w.Fits a dropped.env
    | _ => True

end Results

/-- What a client can see: an octet that it is sent, and a state that is
entered. -/
inductive Mark
  | sent (octet : UInt8)
  | entered (st : SocksState)
  deriving DecidableEq

def enters (st next : SocksState) : List Mark :=
  if st = next then [] else [.entered next]

def replyOctets (reply : UInt8) (bound : Option SockAddr) : List UInt8 :=
  [0x05, reply, 0x00] ++
    match bound with
    | some address =>
        let count := if address.family = .inet6 then 16 else 4
        (if address.family = .inet6 then atypIpv6 else atypIpv4) ::
          (List.range count).map (fun i => (address.addr[i]?).getD 0) ++
          [(address.port / 256).toUInt8, (address.port % 256).toUInt8]
    | none => [atypIpv4, 0, 0, 0, 0, 0, 0]

/-- What follows a scan that has stopped; before, there is nothing to see. -/
def onStop {Parser : Type} (outcome : Parser → List UInt8 → List Mark)
    (scanned : Parser × List UInt8 × Bool) : List Mark :=
  if scanned.2.2 then outcome scanned.1 scanned.2.1 else []

namespace Results

variable (w : Results)

def replied (reply : UInt8) : List Mark :=
  .entered .requestWrite ::
    ((replyOctets reply
        (if reply = repSuccess then w.sockname else none)).map .sent ++
      [.entered (if reply = repSuccess then .copy else .done)])

/-- The search for an origin from the candidate `idx`, with `left` candidates
and the reply of the last failure. -/
def searched : Nat → SocksState → Nat → UInt8 → List Mark
  | 0, _, _, reply =>
      w.replied (if reply = repSuccess then repHostUnreachable else reply)
  | left + 1, st, idx, reply =>
      match w.fate idx with
      | .failed reason =>
          searched left st (idx + 1) ((reason.map errnoToReply).getD reply)
      | .connected => w.replied repSuccess
      | .connecting =>
          enters st .requestConnecting ++
            if w.ended idx = 0 then w.replied repSuccess
            else
              searched left .requestConnecting (idx + 1)
                (errnoToReply (w.ended idx))

def resolved (reply : UInt8) : List Mark :=
  if w.answer.status ≠ 0 ∨ w.answer.result = [] then
    w.replied repHostUnreachable
  else if (candidates w.answer.result).length = 0 then
    w.replied repHostUnreachable
  else w.searched (candidates w.answer.result).length .requestResolv 0 reply

def requested (request : RequestParser) (reply : UInt8) : List Mark :=
  if request.state = .error then w.replied repGeneralFailure
  else if request.cmd ≠ cmdConnect then w.replied repCommandNotSupported
  else if request.atyp = atypIpv4 ∨ request.atyp = atypIpv6 then
    w.searched 1 .requestRead 0 reply
  else if request.atyp = atypDomain then
    if w.launched then .entered .requestResolv :: w.resolved reply
    else w.replied repGeneralFailure
  else w.replied repAtypNotSupported

/-- From here on, `stream` is what the client sent and no parser has read. -/
def requesting (s : Socks5) (stream : List UInt8) : List Mark :=
  onStop (fun request _ => w.requested request s.reply)
    (scan requestParserFeed RequestParser.finished s.request stream)

def granted (s : Socks5) (ok : Bool) (stream : List UInt8) : List Mark :=
  if ok then .entered .requestRead :: w.requesting s stream
  else [.entered .done]

def authenticated (s : Socks5) (auth : AuthParser) (stream : List UInt8) :
    List Mark :=
  if auth.state = .error then [.entered .errorState]
  else
    let ok := w.check (.ofArray auth.username) (.ofArray auth.password)
    .entered .authWrite ::
      ([0x01, if ok then 0x00 else 0x01].map .sent ++ w.granted s ok stream)

def authenticating (s : Socks5) (stream : List UInt8) : List Mark :=
  onStop (w.authenticated s)
    (scan authParserFeed AuthParser.finished s.auth stream)

def offered (s : Socks5) (method : UInt8) (stream : List UInt8) : List Mark :=
  if method = methodNone then [.entered .done]
  else if method = methodUserpass then
    .entered .authRead :: w.authenticating s stream
  else .entered .requestRead :: w.requesting s stream

def chosen (hello : HelloParser) : UInt8 :=
  if w.authRequired then
    if hello.hasUserpass then methodUserpass else methodNone
  else if hello.hasNoauth then methodNoAuth
  else if hello.hasUserpass then methodUserpass
  else methodNone

def greeted (s : Socks5) (hello : HelloParser) (stream : List UInt8) :
    List Mark :=
  if hello.state = .error then [.entered .errorState]
  else
    .entered .helloWrite ::
      ([0x05, w.chosen hello].map .sent ++
        w.offered s (w.chosen hello) stream)

def greeting (s : Socks5) (stream : List UInt8) : List Mark :=
  onStop (w.greeted s)
    (scan helloParserFeed HelloParser.finished s.hello stream)

/-- What a client of a connection in the state `st` is still to see until the
relay begins. -/
def foreseen (st : SocksState) (s : Socks5) (stream : List UInt8) :
    List Mark :=
  match st with
  | .helloRead => w.greeting s stream
  | .helloWrite =>
      s.writeBuffer.content.map .sent ++ w.offered s s.method stream
  | .authRead => w.authenticating s stream
  | .authWrite =>
      s.writeBuffer.content.map .sent ++ w.granted s s.authOk stream
  | .requestRead => w.requesting s stream
  | .requestResolv => w.resolved s.reply
  | .requestConnecting =>
      if w.ended s.addrIdx = 0 then w.replied repSuccess
      else
        w.searched (s.naddrs - (s.addrIdx + 1)) .requestConnecting
          (s.addrIdx + 1) (errnoToReply (w.ended s.addrIdx))
  | .requestWrite =>
      s.writeBuffer.content.map .sent ++
        [.entered (if s.reply = repSuccess then .copy else .done)]
  | .copy | .done | .errorState => []

/-- What follows a handler that was called in the state `st`, once the engine
has entered the state that it returned. -/
def ahead (a : Answers) (st : SocksState) (result : Ctx × SocksState)
    (left : List UInt8) : List Mark :=
  enters st result.2 ++
    w.foreseen result.2
      (if st = result.2 then result.1.s
        else arrived a result.1.env.config result.1.s result.2)
      (result.1.s.readBuffer.content ++ left)

/-- A handler shows the client the first part of what was foreseen. -/
def Foretells (a : Answers) (st : SocksState) (c : Ctx)
    (result : Ctx × SocksState) : Prop :=
  ∀ left, w.foreseen st c.s (c.s.readBuffer.content ++
      (receivedFrom c.s.clientFd result.1.calls ++ left)) =
    (sentTo c.s.clientFd result.1.calls).map .sent ++ w.ahead a st result left

end Results

theorem buildReply_octets {s : Socks5}
    (room : configMinBuffer ≤ s.writeBuffer.limit)
    (connected : s.reply = repSuccess → s.originFd.isSome)
    (sockname : Option SockAddr) :
    (buildReply s s.reply sockname).writeBuffer.content =
      replyOctets s.reply
        (if s.reply = repSuccess then sockname else none) := by
  have bound : (if s.reply = repSuccess ∧ s.originFd.isSome then sockname
      else none) = if s.reply = repSuccess then sockname else none := by
    by_cases success : s.reply = repSuccess
    · rw [if_pos ⟨success, connected success⟩, if_pos success]
    · rw [if_neg (fun both => success both.1), if_neg success]
  unfold buildReply replyOctets
  dsimp only
  rw [bound]
  apply Buffer.content_writeAll_reset
  refine Nat.le_trans ?_ room
  cases (if s.reply = repSuccess then sockname else none) with
  | none => simp [configMinBuffer]
  | some address =>
      by_cases six : address.family = .inet6
      · simp [six, configMinBuffer]
      · simp [six, configMinBuffer]

section Steps

variable {w : Results} {key : Key} {a : Answers} {c : Ctx}

theorem Results.ahead_replied {st : SocksState} (elsewhere : st ≠ .requestWrite)
    (landed : Landed .requestWrite c.s)
    (room : configMinBuffer ≤ c.s.writeBuffer.limit)
    (sockname : a.sockname = w.sockname) (left : List UInt8) :
    w.ahead a st (c, .requestWrite) left = w.replied c.s.reply := by
  have connected (success : c.s.reply = repSuccess) : c.s.originFd.isSome :=
    Option.isSome_iff_ne_none.mpr (landed (.inr (.inr ⟨rfl, success⟩)))
  have octets := @buildReply_octets
    { c.s with current := some .requestWrite } room connected w.sockname
  unfold Results.ahead enters
  rw [if_neg elsewhere, if_neg elsewhere, arrived, sockname]
  change Mark.entered .requestWrite ::
    ((buildReply _ _ _).writeBuffer.content.map Mark.sent ++ _) = _
  rw [octets]
  rfl

/-- What is foreseen of a connection that looks for its origin, or answers. -/
def Results.concluded (w : Results) (st : SocksState)
    (result : Ctx × SocksState) : List Mark :=
  match result.2 with
  | .requestWrite => w.replied result.1.s.reply
  | next => enters st next ++ w.foreseen next result.1.s []

theorem Results.searched_tryCandidates {st : SocksState} (left : Nat)
    (counted : c.s.naddrs - c.s.addrIdx = left) (fits : w.Fits a c.env) :
    w.searched left st c.s.addrIdx c.s.reply =
      w.concluded st (tryCandidates key a left c) := by
  induction left generalizing c with
  | zero =>
      unfold Results.searched tryCandidates
      split
      · rfl
      · rfl
  | succ left induction =>
      have fate := fits c fun fd => ⟨rfl, rfl⟩
      have tried := round_tryCandidate key a c
      unfold Results.searched tryCandidates
      rw [← fate, fateOf]
      generalize tryCandidate key a c = result at tried
      cases tried with
      | @failure after reason outcome nonzero unmoved object =>
          rw [outcome]
          have idx : after.s.addrIdx = c.s.addrIdx + 1 := by rw [object]
          have reply : after.s.reply =
              (reason.map errnoToReply).getD c.s.reply := by rw [object]
          have addrs : after.s.naddrs = c.s.naddrs := by
            rw [object]
            rfl
          have rest := @induction after (by omega) fun other same =>
            fits other (unmoved.sameUse.trans same)
          rw [idx, reply] at rest
          exact rest
      | @success after fd outcome gained object =>
          rw [outcome]
          unfold Results.concluded
          rw [object]
      | @pending after fd outcome gained object =>
          rw [outcome]
          have remain : left = c.s.naddrs - (c.s.addrIdx + 1) := by omega
          unfold Results.concluded
          rw [object, remain]
          rfl

theorem Results.searched_startConnection {st : SocksState} {left idx : Nat}
    {reply : UInt8} (fits : w.Fits a c.env)
    (counted : c.s.naddrs - c.s.addrIdx = left) (first : c.s.addrIdx = idx)
    (last : c.s.reply = reply) :
    w.searched left st idx reply =
      w.concluded st (startConnection key a c) := by
  subst counted first last
  exact Results.searched_tryCandidates (c.s.naddrs - c.s.addrIdx)
    (c := c.call .startConnection) rfl fits

theorem Results.requested_requestCompleted (launched : a.thread = w.launched)
    (fits : w.Fits a c.env) :
    w.requested c.s.request c.s.reply =
      w.concluded .requestRead (requestCompleted key a c) := by
  have fits : w.Fits a (c.setInterest c.s.clientFd opNoop).1.env :=
    fun other same =>
      fits other ((sameUse_setInterest c c.s.clientFd opNoop).trans same)
  unfold Results.requested requestCompleted processRequest
  dsimp only
  generalize paused : (c.setInterest c.s.clientFd opNoop).1 = c' at fits
  have same : c'.s = c.s := by rw [← paused, Ctx.setInterest_s]
  rw [← same]
  split
  · rfl
  · split
    · rfl
    · split
      next literal =>
        by_cases ipv4 : c'.s.request.atyp = atypIpv4
        · rw [if_pos ipv4]
          exact Results.searched_startConnection fits rfl rfl rfl
        · rw [if_neg ipv4, if_pos (literal.resolve_left ipv4)]
          exact Results.searched_startConnection fits rfl rfl rfl
      next named =>
        rw [if_neg fun ipv4 => named (.inl ipv4),
          if_neg fun ipv6 => named (.inr ipv6)]
        split
        · unfold dnsResolveAsync
          dsimp only
          rw [← launched]
          cases a.thread
          · rfl
          · rfl
        · rfl

theorem Results.resolved_resolvBlock
    (status : c.s.dns.status = w.answer.status)
    (result : c.s.dns.result = w.answer.result) (fits : w.Fits a c.env) :
    w.resolved c.s.reply =
      w.concluded .requestResolv (resolvBlock key a c) := by
  unfold Results.resolved resolvBlock
  dsimp only
  rw [status, result]
  split
  · rfl
  · split
    next empty =>
      rw [if_pos]
      · rfl
      · exact empty
    next some =>
      rw [if_neg]
      · exact Results.searched_startConnection fits rfl rfl rfl
      · exact some

theorem Results.foreseen_connectingWrite {result : Ctx × SocksState}
    (ended : connectError a c = w.ended c.s.addrIdx)
    (freed : ∀ reply dropped,
      selectorUnregisterFd key c.s.originNumber (c.setReply reply) =
        some dropped → w.Fits a dropped.env)
    (ran : connectingWrite key a c = some result) (stream : List UInt8) :
    w.foreseen .requestConnecting c.s stream =
      w.concluded .requestConnecting result := by
  unfold connectingWrite at ran
  change (if connectError a c = 0 then _ else _) = some result at ran
  unfold Results.foreseen
  dsimp only
  rw [← ended]
  split at ran
  next connected =>
    cases ran
    rw [if_pos connected]
    rfl
  next refused =>
    rw [if_neg refused]
    obtain ⟨dropped, unregistered, same⟩ := Option.map_eq_some_iff.mp ran
    obtain ⟨references, object⟩ := (closes_unregister unregistered).object
    have fits := freed _ _ unregistered
    rw [← same]
    refine Results.searched_startConnection fits ?_ ?_ ?_
    · rw [object]
      rfl
    · rw [object]
      rfl
    · rw [object]
      rfl

theorem Results.ahead_concluded {st : SocksState} {result : Ctx × SocksState}
    (elsewhere : st ≠ .requestWrite)
    (follows : result.2 = .requestResolv ∨ result.2.connectResult)
    (landed : Landed result.2 result.1.s)
    (room : configMinBuffer ≤ result.1.s.writeBuffer.limit)
    (sockname : a.sockname = w.sockname) (left : List UInt8) :
    w.ahead a st result left = w.concluded st result := by
  obtain ⟨after, next⟩ := result
  rcases follows with rfl | rfl | rfl
  · unfold Results.ahead
    dsimp only
    split <;> rfl
  · exact Results.ahead_replied elsewhere landed room sockname left
  · unfold Results.ahead
    dsimp only
    split <;> rfl

theorem Handled.object {kind : EventKind} {after middle : Ctx}
    {next : SocksState} (handled : Handled kind key a c after middle next) :
    ∃ references, after.s = { (if c.s.state = next then middle.s
      else arrived a middle.env.config middle.s next) with
        references := references } := by
  obtain ⟨handler, serves, ran⟩ := handled.runs
  have current : middle.s.current = some c.s.state :=
    handler_current serves ran
  obtain ⟨references, object⟩ := handled.closes.object
  refine ⟨references, ?_⟩
  rw [object, jump_s, current]
  simp only [Option.some.injEq]

/-- The calls that move no octets. -/
def Call.aside (made : Call) : Prop := ¬ made.reads ∧ ¬ made.writes

theorem Makes.receivedFrom {before after : Ctx}
    (makes : Makes Call.aside before after) (fd : Fd) :
    receivedFrom fd after.calls = SocksProxy.receivedFrom fd before.calls := by
  obtain ⟨more, calls, aside⟩ := makes
  have nothing : SocksProxy.receivedFrom fd more = [] := by
    refine List.flatMap_eq_nil_iff.mpr fun made member => ?_
    have aside := aside made member
    cases made with
    | recv => exact absurd trivial aside.1
    | _ => rfl
  rw [calls, receivedFrom_append, nothing, List.append_nil]

theorem Makes.sentTo {before after : Ctx}
    (makes : Makes Call.aside before after) (fd : Fd) :
    sentTo fd after.calls = SocksProxy.sentTo fd before.calls := by
  obtain ⟨more, calls, aside⟩ := makes
  have nothing : SocksProxy.sentTo fd more = [] := by
    refine List.flatMap_eq_nil_iff.mpr fun made member => ?_
    have aside := aside made member
    cases made with
    | send => exact absurd trivial aside.2
    | _ => rfl
  rw [calls, sentTo_append, nothing, List.append_nil]

/-- What the world makes of a call while it neither closes nor breaks the
connection, and gives room to what is received. -/
def Call.Steady : Call → Prop
  | .recv _ octets => octets ≠ []
  | .recvFailed _ e | .sendFailed _ e => wouldBlock e = true
  | _ => True

namespace Results

theorem foreseen_current (st : SocksState) (s : Socks5)
    (current : Option SocksState) (stream : List UInt8) :
    w.foreseen st { s with current := current } stream =
      w.foreseen st s stream := by
  cases st <;> rfl

theorem ahead_stays (self : SocksState) (left : List UInt8) :
    w.ahead a self (c, self) left =
      w.foreseen self c.s (c.s.readBuffer.content ++ left) := by
  unfold ahead enters
  rw [if_pos rfl, if_pos rfl]
  rfl

theorem ahead_entered (st next : SocksState) (left : List UInt8)
    (leaves : st ≠ next) (plain : next ≠ .requestWrite ∧ next ≠ .copy) :
    w.ahead a st (c, next) left =
      .entered next ::
        w.foreseen next c.s (c.s.readBuffer.content ++ left) := by
  unfold ahead enters
  rw [if_neg leaves, if_neg leaves]
  cases next <;> first | rfl | simp at plain

theorem ahead_setInterest {p : Ptr} (st next : SocksState) {i : Interest}
    (left : List UInt8) (registered : Registered p c.env c.s.clientFd)
    (leaves : st ≠ next) (plain : next ≠ .requestWrite ∧ next ≠ .copy) :
    w.ahead a st (setInterestOrFail c i next) left =
      .entered next ::
        w.foreseen next c.s (c.s.readBuffer.content ++ left) := by
  have accepted : (setInterestOrFail c i next).2 = next :=
    setInterestOrFail_registered registered
  rw [show setInterestOrFail c i next =
    ((setInterestOrFail c i next).1, next) from Prod.ext rfl accepted,
    ahead_entered _ _ _ leaves plain, setInterestOrFail_s]

theorem foretells_read {Parser : Type} {feed : Parser → UInt8 → Parser}
    {finished : Parser → Bool} {parser : Parser}
    {store : Ctx → Parser → Buffer → Ctx} {self : SocksState}
    {complete : Ctx → Ctx × SocksState} {result : Ctx × SocksState}
    (outcome : Parser → List UInt8 → List Mark)
    (effect : ReadEffect feed finished parser store self complete c result)
    (called : c.calls = []) (steady : ∀ made ∈ result.1.calls, made.Steady)
    (stores : ∀ c q buffer, Makes Call.aside c (store c q buffer) ∧
      (store c q buffer).s.readBuffer = buffer)
    (finishes : ∀ c, Makes Call.aside c (complete c).1)
    (reads : ∀ stream, w.foreseen self c.s stream =
      onStop outcome (scan feed finished parser stream))
    (goesOn : ∀ octets next buffer stream, w.foreseen self
        (store (c.call (.recv c.s.clientFd octets)) next buffer).s stream =
      onStop outcome (scan feed finished next stream))
    (completes : ∀ octets next buffer left,
      outcome next (buffer.content ++ left) = w.ahead a self
        (complete (store (c.call (.recv c.s.clientFd octets)) next buffer))
        left) :
    w.Foretells a self c result := by
  have single := Ctx.call_single called
  cases effect with
  | again e =>
      intro left
      rw [ahead_stays, single]
      rfl
  | failed e hard =>
      have blocked : wouldBlock e = true :=
        steady (.recvFailed c.s.clientFd e) (by rw [single]; simp)
      exact absurd (hard.symm.trans blocked) (by simp)
  | closed =>
      have some : ([] : List UInt8) ≠ [] :=
        steady (.recv c.s.clientFd []) (by rw [single]; simp)
      exact absurd rfl some
  | @partly octets next buffer some fits scanned content =>
      intro left
      obtain ⟨made, held⟩ :=
        stores (c.call (.recv c.s.clientFd octets)) next buffer
      rw [ahead_stays, made.receivedFrom, made.sentTo, single,
        receivedFrom_recv c.s.clientFd octets, held, content, goesOn, reads,
        ← List.append_assoc, scan_append_more scanned]
      rfl
  | @completed octets rest next buffer some fits scanned content =>
      intro left
      have made :=
        (stores (c.call (.recv c.s.clientFd octets)) next buffer).1.trans
          (finishes _)
      rw [made.receivedFrom, made.sentTo, single,
        receivedFrom_recv c.s.clientFd octets, reads, ← List.append_assoc,
        scan_append_stop scanned, ← completes octets next buffer, content]
      rfl

theorem foretells_write {self : SocksState} {complete : Ctx → Ctx × SocksState}
    {result : Ctx × SocksState} (tail : List UInt8 → List Mark)
    (effect : WriteEffect self complete c result) (called : c.calls = [])
    (steady : ∀ made ∈ result.1.calls, made.Steady)
    (finishes : ∀ c, Makes Call.aside c (complete c).1)
    (tells : ∀ buffer stream,
      w.foreseen self { c.s with writeBuffer := buffer } stream =
        buffer.content.map .sent ++ tail stream)
    (completes : ∀ buffer left, tail (c.s.readBuffer.content ++ left) =
      w.ahead a self
        (complete { c.call (.send c.s.clientFd c.s.writeBuffer.content) with
          s := { c.s with writeBuffer := buffer } }) left) :
    w.Foretells a self c result := by
  have single := Ctx.call_single called
  have whole (stream : List UInt8) : w.foreseen self c.s stream =
      c.s.writeBuffer.content.map .sent ++ tail stream :=
    tells c.s.writeBuffer stream
  cases effect with
  | again e =>
      intro left
      rw [ahead_stays, single]
      rfl
  | failed e hard =>
      have blocked : wouldBlock e = true :=
        steady (.sendFailed c.s.clientFd e) (by rw [single]; simp)
      exact absurd (hard.symm.trans blocked) (by simp)
  | @partly accepted rest buffer split content =>
      intro left
      rw [ahead_stays, whole]
      refine Eq.trans ?_ (congrArg _ (tells buffer _).symm)
      rw [content, split, List.map_append, List.append_assoc]
      change _ = (SocksProxy.sentTo _ (c.call _).calls).map _ ++ _
      rw [single, sentTo_send]
      rfl
  | @flushed buffer content =>
      intro left
      have made := finishes
        { c.call (.send c.s.clientFd c.s.writeBuffer.content) with
          s := { c.s with writeBuffer := buffer } }
      have calls : ({ c.call (.send c.s.clientFd c.s.writeBuffer.content) with
          s := { c.s with writeBuffer := buffer } } : Ctx).calls =
          [.send c.s.clientFd c.s.writeBuffer.content] := single _
      rw [made.receivedFrom, made.sentTo, calls, sentTo_send, whole,
        ← completes buffer left]
      rfl

theorem aside_setInterestOrFail (i : Interest) (next : SocksState) :
    Makes Call.aside c (setInterestOrFail c i next).1 :=
  .none (setInterestOrFail_calls ..)

theorem helloCompleted_aside : Makes Call.aside c (helloCompleted c).1 := by
  unfold helloCompleted
  dsimp only
  split
  · exact .none rfl
  · exact Makes.trans (.one rfl ⟨id, id⟩) (aside_setInterestOrFail _ _)

theorem authCompleted_aside : Makes Call.aside c (authCompleted c).1 := by
  unfold authCompleted
  dsimp only
  split
  · exact .none rfl
  · exact Makes.trans (.one rfl ⟨id, id⟩) (aside_setInterestOrFail _ _)

theorem requestCompleted_aside :
    Makes Call.aside c (requestCompleted key a c).1 := by
  refine (requestCompleted_reaches key a c).1.makes.mono fun made reaching => ?_
  cases made <;> first | exact ⟨id, id⟩ | exact reaching.elim

theorem greeted_helloCompleted {p : Ptr}
    (registered : Registered p c.env c.s.clientFd)
    (room : configMinBuffer ≤ c.s.writeBuffer.limit)
    (given : c.env.config.authRequired = w.authRequired) (left : List UInt8) :
    w.greeted c.s c.s.hello (c.s.readBuffer.content ++ left) =
      w.ahead a .helloRead (helloCompleted c) left := by
  have method : chooseMethod c.env.config c.s = w.chosen c.s.hello := by
    unfold chooseMethod chosen
    rw [given]
  symm
  unfold greeted helloCompleted
  dsimp only
  split
  · exact ahead_entered .helloRead .errorState left (by simp) (by simp)
  · rw [method]
    refine Eq.trans (ahead_setInterest .helloRead .helloWrite left registered
      (by simp) (by simp)) (congrArg (Mark.entered .helloWrite :: ·) ?_)
    change (bufferWriteAll _ _).content.map _ ++ w.offered c.s _ _ = _
    rw [Buffer.content_writeAll_reset
      (Nat.le_trans (by simp [configMinBuffer]) room)]

theorem authenticated_authCompleted {p : Ptr}
    (registered : Registered p c.env c.s.clientFd)
    (room : configMinBuffer ≤ c.s.writeBuffer.limit)
    (given : ∀ user pass : CString,
      usersCheck c.env.users user pass = w.check user pass)
    (left : List UInt8) :
    w.authenticated c.s c.s.auth (c.s.readBuffer.content ++ left) =
      w.ahead a .authRead (authCompleted c) left := by
  symm
  unfold authenticated authCompleted
  dsimp only
  split
  · exact ahead_entered .authRead .errorState left (by simp) (by simp)
  · rw [given]
    refine Eq.trans (ahead_setInterest .authRead .authWrite left registered
      (by simp) (by simp)) (congrArg (Mark.entered .authWrite :: ·) ?_)
    change (bufferWriteAll _ _).content.map _ ++ w.granted c.s _ _ = _
    rw [Buffer.content_writeAll_reset
      (Nat.le_trans (by simp [configMinBuffer]) room)]

theorem requestCompleted_next (key : Key) (a : Answers) (c : Ctx) :
    (requestCompleted key a c).2 = .requestResolv ∨
      (requestCompleted key a c).2.connectResult := by
  unfold requestCompleted
  dsimp only
  split
  · exact .inr (.inl rfl)
  · exact processRequest_next key a _

theorem foretells_helloRead {p : Ptr}
    (registered : Registered p c.env c.s.clientFd)
    (room : configMinBuffer ≤ c.s.writeBuffer.limit) (called : c.calls = [])
    (given : c.env.config.authRequired = w.authRequired)
    (steady : ∀ made ∈ (helloRead key a c).1.calls, made.Steady) :
    w.Foretells a .helloRead c (helloRead key a c) :=
  foretells_read (w.greeted c.s) (helloRead_effect key a c) called steady
    (fun _ _ _ => ⟨.none rfl, rfl⟩) (fun _ => helloCompleted_aside)
    (fun _ => rfl) (fun _ _ _ _ => rfl) fun octets hello buffer left =>
      @greeted_helloCompleted w a { c.call (.recv c.s.clientFd octets) with
        s := { c.s with hello := hello, readBuffer := buffer } } p registered
        room given left

theorem foretells_authRead {p : Ptr}
    (registered : Registered p c.env c.s.clientFd)
    (room : configMinBuffer ≤ c.s.writeBuffer.limit) (called : c.calls = [])
    (given : ∀ user pass : CString,
      usersCheck c.env.users user pass = w.check user pass)
    (steady : ∀ made ∈ (authRead key a c).1.calls, made.Steady) :
    w.Foretells a .authRead c (authRead key a c) :=
  foretells_read (w.authenticated c.s) (authRead_effect key a c) called steady
    (fun _ _ _ => ⟨.none rfl, rfl⟩) (fun _ => authCompleted_aside)
    (fun _ => rfl) (fun _ _ _ _ => rfl) fun octets auth buffer left =>
      @authenticated_authCompleted w a { c.call (.recv c.s.clientFd octets) with
        s := { c.s with auth := auth, readBuffer := buffer } } p registered
        room given left

theorem requested_ahead (room : configMinBuffer ≤ c.s.writeBuffer.limit)
    (sockname : a.sockname = w.sockname) (launched : a.thread = w.launched)
    (fits : w.Fits a c.env) (left : List UInt8) :
    w.requested c.s.request c.s.reply =
      w.ahead a .requestRead (requestCompleted key a c) left := by
  have limit := (requestCompleted_reaches key a c).1.extends.writeLimit
  exact (requested_requestCompleted launched fits).trans
    (ahead_concluded (by simp) (requestCompleted_next key a c)
      (requestCompleted_landed key a c) (limit ▸ room) sockname left).symm

theorem foretells_requestRead (room : configMinBuffer ≤ c.s.writeBuffer.limit)
    (called : c.calls = []) (sockname : a.sockname = w.sockname)
    (launched : a.thread = w.launched) (fits : w.Fits a c.env)
    (steady : ∀ made ∈ (requestRead key a c).1.calls, made.Steady) :
    w.Foretells a .requestRead c (requestRead key a c) :=
  foretells_read (fun request _ => w.requested request c.s.reply)
    (requestRead_effect key a c) called steady
    (fun _ _ _ => ⟨.one rfl ⟨id, id⟩, rfl⟩) (fun _ => requestCompleted_aside)
    (fun _ => rfl) (fun _ _ _ _ => rfl) fun octets request buffer left =>
      @requested_ahead w key a { (c.call
        (.recv c.s.clientFd octets)).call .requestParserConsume with
          s := { c.s with request := request, readBuffer := buffer } } room
        sockname launched fits left

theorem foretells_helloWrite {p : Ptr}
    (registered : Registered p c.env c.s.clientFd) (called : c.calls = [])
    (steady : ∀ made ∈ (helloWrite key a c).1.calls, made.Steady) :
    w.Foretells a .helloWrite c (helloWrite key a c) := by
  refine foretells_write (w.offered c.s c.s.method)
    (helloWrite_effect key a c) called steady (fun c => ?_) (fun _ _ => rfl)
    fun buffer left => ?_
  · split
    · exact .none rfl
    · exact aside_setInterestOrFail _ _
  · symm
    unfold offered
    split
    · exact ahead_entered .helloWrite .done left (by simp) (by simp)
    · split
      · exact ahead_setInterest .helloWrite .authRead left registered (by simp)
          (by simp)
      · exact ahead_setInterest .helloWrite .requestRead left registered
          (by simp) (by simp)

theorem foretells_authWrite {p : Ptr}
    (registered : Registered p c.env c.s.clientFd) (called : c.calls = [])
    (steady : ∀ made ∈ (authWrite key a c).1.calls, made.Steady) :
    w.Foretells a .authWrite c (authWrite key a c) := by
  refine foretells_write (w.granted c.s c.s.authOk)
    (authWrite_effect key a c) called steady (fun c => ?_) (fun _ _ => rfl)
    fun buffer left => ?_
  · split
    · exact .none rfl
    · exact aside_setInterestOrFail _ _
  · symm
    unfold granted
    cases granted : c.s.authOk with
    | true =>
        rw [if_neg (by simp), if_pos rfl]
        exact ahead_setInterest .authWrite .requestRead left registered
          (by simp) (by simp)
    | false =>
        rw [if_pos (by simp), if_neg (by simp)]
        exact ahead_entered .authWrite .done left (by simp) (by simp)

theorem foretells_requestWrite (called : c.calls = [])
    (steady : ∀ made ∈ (requestWrite key a c).1.calls, made.Steady) :
    w.Foretells a .requestWrite c (requestWrite key a c) := by
  refine foretells_write
    (fun _ => [.entered (if c.s.reply = repSuccess then .copy else .done)])
    (requestWrite_effect key a c) called steady (fun c => ?_) (fun _ _ => rfl)
    fun buffer left => ?_
  · unfold replySent
    dsimp only
    split
    · exact .one rfl ⟨id, id⟩
    · exact .one rfl ⟨id, id⟩
  · symm
    unfold replySent
    dsimp only
    split
    next refused =>
      have refused : c.s.reply ≠ repSuccess := refused
      rw [if_neg refused]
      exact ahead_entered .requestWrite .done left (by simp) (by simp)
    next success =>
      have success : c.s.reply = repSuccess := not_not.mp success
      rw [if_pos success]
      rfl

theorem foretells_concluded {st : SocksState} {result : Ctx × SocksState}
    (called : c.calls = []) (reaches : Reaches c result.1)
    (tells : ∀ stream, w.foreseen st c.s stream = w.concluded st result)
    (elsewhere : st ≠ .requestWrite) (follows : result.2.connectResult)
    (landed : Landed result.2 result.1.s)
    (room : configMinBuffer ≤ c.s.writeBuffer.limit)
    (sockname : a.sockname = w.sockname) : w.Foretells a st c result := by
  intro left
  have made : Makes Call.aside c result.1 := by
    refine reaches.makes.mono fun made reaching => ?_
    cases made <;> first | exact ⟨id, id⟩ | exact reaching.elim
  have limit := reaches.extends.writeLimit
  rw [made.sentTo, called, tells,
    ← ahead_concluded elsewhere (.inr follows) landed (limit ▸ room) sockname
      left]
  rfl

theorem foretells_handler {kind : EventKind} {st : SocksState}
    {handler : Handler} {result : Ctx × SocksState} (state : c.s.state = st)
    (elsewhere : st ≠ .copy) (serves : Serves st kind handler)
    (ran : handler key a c = some result)
    (registered : Registered key.data c.env c.s.clientFd)
    (room : configMinBuffer ≤ c.s.writeBuffer.limit)
    (landed : Landed st c.s) (called : c.calls = [])
    (gives : w.Gives key a c)
    (steady : ∀ made ∈ result.1.calls, made.Steady) :
    w.Foretells a st c result := by
  obtain ⟨sockname, given⟩ := gives
  rw [state] at given
  cases serves with
  | helloRead =>
      obtain rfl := eq_of_total ran
      exact foretells_helloRead registered room called given steady
  | helloWrite =>
      obtain rfl := eq_of_total ran
      exact foretells_helloWrite registered called steady
  | authRead =>
      obtain rfl := eq_of_total ran
      exact foretells_authRead registered room called given steady
  | authWrite =>
      obtain rfl := eq_of_total ran
      exact foretells_authWrite registered called steady
  | requestRead =>
      obtain rfl := eq_of_total ran
      exact foretells_requestRead room called sockname given.1 given.2 steady
  | resolvBlock =>
      obtain rfl := eq_of_total ran
      obtain ⟨status, answer, fits⟩ := given
      exact foretells_concluded called (resolvBlock_reaches key a c).1
        (fun _ => resolved_resolvBlock status answer fits) (by simp)
        (resolvBlock_next key a c) (resolvBlock_landed key a c) room sockname
  | connectingWrite =>
      obtain ⟨reaches, follows⟩ := connectingWrite_reaches ran
      exact foretells_concluded called reaches
        (foreseen_connectingWrite given.1 given.2 ran) (by simp) follows
        (connectingWrite_landed (landed (.inl rfl)) ran) room sockname
  | requestWrite =>
      obtain rfl := eq_of_total ran
      exact foretells_requestWrite called steady
  | copyRead | copyWrite => exact absurd rfl elsewhere

/-- A call of the engine shows the client its part of what was foreseen, and
leaves the rest. -/
theorem foreseen_call {kind : EventKind} {after : Ctx}
    (runs : socksv5Handler kind key a c = some after)
    (elsewhere : c.s.state ≠ .copy)
    (registered : Registered key.data c.env c.s.clientFd)
    (room : configMinBuffer ≤ c.s.writeBuffer.limit)
    (landed : Landed c.s.state c.s) (called : c.calls = [])
    (gives : w.Gives key a c.started)
    (steady : ∀ made ∈ after.calls, made.Steady) (left : List UInt8) :
    w.foreseen c.s.state c.s (c.s.readBuffer.content ++
        (receivedFrom c.s.clientFd after.calls ++ left)) =
      (sentTo c.s.clientFd after.calls).map .sent ++
        (enters c.s.state after.s.state ++
          w.foreseen after.s.state after.s
            (after.s.readBuffer.content ++ left)) := by
  obtain ⟨middle, next, handled⟩ := handled_of_handler runs
  obtain ⟨handler, serves, ran⟩ := handled.runs
  have calls : after.calls = middle.calls :=
    handled.closes.calls.trans (jump_calls ..)
  have foretells := @foretells_handler w key a c.started kind _ handler _ rfl
    elsewhere serves ran registered room landed called gives (calls ▸ steady)
    left
  obtain ⟨references, jumped⟩ := handled.object
  have kept (st : SocksState) (s : Socks5) (stream : List UInt8) :
      w.foreseen st { s with references := references } stream =
        w.foreseen st s stream := by
    cases st <;> rfl
  have buffer : after.s.readBuffer = middle.s.readBuffer := by
    rw [jumped]
    dsimp only
    split
    · rfl
    · cases next <;> rfl
  have before (stream : List UInt8) :
      w.foreseen c.s.state c.started.s stream =
        w.foreseen c.s.state c.s stream := foreseen_current ..
  rw [handled.state, buffer, jumped, kept, calls, ← before]
  exact foretells

end Results

end Steps

end SocksProxy
