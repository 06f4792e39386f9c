import SocksProxy.Socks5.Copying
import SocksProxy.Socks5.Grammar
import SocksProxy.Socks5.Handshake

/-! What crossed the client's socket after the negotiation: the request and its
reply. -/

namespace SocksProxy

open Scanner Transition

/-- What was received and what was sent when the client may make its request. -/
inductive Opening : List UInt8 → List UInt8 → Prop
  | noAuth {methods : List UInt8} (small : methods.length ≤ 255) :
      Opening (helloMessage methods) [0x05, methodNoAuth]
  | userpass {methods user pass : List UInt8} (small : methods.length ≤ 255)
      (validUser : FieldLength user) (validPass : FieldLength pass) :
      Opening (helloMessage methods ++ authMessage user pass)
        [0x05, methodUserpass, 0x01, 0x00]

structure Reply where
  rep : UInt8
  atyp : UInt8
  addr : List UInt8
  high : UInt8
  low : UInt8
  sized : atyp = atypIpv4 ∧ addr.length = 4 ∨ atyp = atypIpv6 ∧ addr.length = 16
  refusal : rep ≠ repSuccess →
    atyp = atypIpv4 ∧ addr = [0, 0, 0, 0] ∧ high = 0 ∧ low = 0

/-- VER REP RSV ATYP BND.ADDR BND.PORT. -/
def Reply.encode (r : Reply) : List UInt8 :=
  [0x05, r.rep, 0x00, r.atyp] ++ (r.addr ++ [r.high, r.low])

theorem buildReply_content {s : Socks5}
    (room : configMinBuffer ≤ s.writeBuffer.limit) (rep : UInt8)
    (sockname : Option SockAddr) :
    ∃ reply : Reply, reply.rep = rep ∧
      (buildReply s rep sockname).writeBuffer.content = reply.encode := by
  have written (reply : Reply) : (bufferWriteAll (bufferReset s.writeBuffer)
      reply.encode).content = reply.encode := by
    apply Buffer.content_writeAll_reset
    refine Nat.le_trans ?_ room
    have sized := reply.sized
    simp only [Reply.encode, List.length_append, List.length_cons,
      List.length_nil, configMinBuffer]
    omega
  unfold buildReply
  dsimp only
  split
  next address bound =>
    have success : rep = repSuccess := by
      by_contra other
      simp [other] at bound
    by_cases six : address.family = .inet6
    · refine ⟨⟨rep, atypIpv6,
        (List.range 16).map fun i => (address.addr[i]?).getD 0,
        (address.port / 256).toUInt8, (address.port % 256).toUInt8,
        .inr ⟨rfl, by simp⟩, fun other => absurd success other⟩, rfl, ?_⟩
      rw [← written]
      simp only [six, if_true, Reply.encode, List.cons_append]
      rfl
    · refine ⟨⟨rep, atypIpv4,
        (List.range 4).map fun i => (address.addr[i]?).getD 0,
        (address.port / 256).toUInt8, (address.port % 256).toUInt8,
        .inl ⟨rfl, by simp⟩, fun other => absurd success other⟩, rfl, ?_⟩
      rw [← written]
      simp only [six, if_false, Reply.encode, List.cons_append]
      rfl
  next =>
    refine ⟨⟨rep, atypIpv4, [0, 0, 0, 0], 0, 0, .inl ⟨rfl, rfl⟩,
      fun _ => ⟨rfl, rfl, rfl, rfl⟩⟩, rfl, ?_⟩
    rw [← written]
    rfl

theorem Reply.encode_ne_nil (r : Reply) : r.encode ≠ [] := by
  simp [Reply.encode]

/-- All that the handshake of one connection sends. -/
inductive HandshakeOutput : List UInt8 → Prop
  | refused : HandshakeOutput [0x05, methodNone]
  | rejected : HandshakeOutput [0x05, methodUserpass, 0x01, 0x01]
  | replied {opening greeting : List UInt8} (opened : Opening opening greeting)
      (reply : Reply) : HandshakeOutput (greeting ++ reply.encode)

/-- The beginning of what a handshake sends, or a successful handshake and
octets of the relay. -/
inductive Framed (octets : List UInt8) : Prop
  | handshake {out : List UInt8} (output : HandshakeOutput out)
      (begins : octets <+: out)
  | relay {opening greeting relayed : List UInt8} {reply : Reply}
      (opened : Opening opening greeting) (success : reply.rep = repSuccess)
      (split : octets = greeting ++ (reply.encode ++ relayed))

theorem Framed.of_prefix {octets front : List UInt8} (framed : Framed octets)
    (begins : front <+: octets) : Framed front := by
  cases framed with
  | handshake output whole => exact .handshake output (begins.trans whole)
  | @relay opening greeting relayed reply opened success split =>
      rw [← List.append_assoc] at split
      have whole : greeting ++ reply.encode <+: octets :=
        split ▸ List.prefix_append _ _
      rcases List.prefix_or_prefix_of_prefix begins whole with inside |
        ⟨more, rfl⟩
      · exact .handshake (.replied opened reply) inside
      · exact .relay opened success (List.append_assoc ..)

private def someReply : Reply :=
  ⟨repGeneralFailure, atypIpv4, [0, 0, 0, 0], 0, 0, .inl ⟨rfl, rfl⟩,
    fun _ => ⟨rfl, rfl, rfl, rfl⟩⟩

theorem Framed.of_method {fd : Fd} {t : List Call} {authRequired : Bool}
    {methods rest octets : List UInt8} {method : UInt8}
    (negotiated : Negotiated fd t authRequired methods rest method)
    (begins : octets <+: [0x05, method]) : Framed octets := by
  have choice := negotiated.choice
  by_cases refused : method = methodNone
  · subst refused
    exact .handshake .refused begins
  · by_cases userpass : method = methodUserpass
    · subst userpass
      exact .handshake .rejected (begins.trans ⟨[0x01, 0x01], rfl⟩)
    · obtain ⟨-, same, -⟩ :=
        methodFor_noAuth (choice ▸ refused) (choice ▸ userpass)
      rw [choice, same] at begins
      exact .handshake (.replied (.noAuth negotiated.small) someReply)
        (begins.trans (List.prefix_append _ _))

theorem Framed.of_auth {fd : Fd} {t : List Call} {authRequired ok : Bool}
    {methods user pass rest octets : List UInt8}
    (negotiated : Negotiated fd t authRequired methods rest methodUserpass)
    (validUser : FieldLength user) (validPass : FieldLength pass)
    (begins :
      octets <+: [0x05, methodUserpass, 0x01, if ok then 0x00 else 0x01]) :
    Framed octets := by
  cases ok with
  | false => exact .handshake .rejected begins
  | true =>
      exact .handshake (.replied
        (.userpass negotiated.small validUser validPass) someReply)
        (begins.trans (List.prefix_append _ _))

/-- What was received and sent after the opening. -/
def Opened (fd : Fd) (t : List Call) (received sent : List UInt8) : Prop :=
  ∃ opening greeting, Opening opening greeting ∧
    receivedFrom fd t = opening ++ received ∧ sentTo fd t = greeting ++ sent

theorem Opened.extend {fd : Fd} {t : List Call} {received sent : List UInt8}
    (opened : Opened fd t received sent) (more : List Call) :
    Opened fd (t ++ more) (received ++ receivedFrom fd more)
      (sent ++ sentTo fd more) := by
  obtain ⟨opening, greeting, valid, receives, sends⟩ := opened
  refine ⟨opening, greeting, valid, ?_, ?_⟩
  · rw [receivedFrom_append, receives, List.append_assoc]
  · rw [sentTo_append, sends, List.append_assoc]

def RequestFresh (request : RequestParser) : Prop :=
  ∃ fresh : RequestParser, fresh.Roomy ∧ request = requestParserInit fresh

/-- The request was received, and `readable` after it. -/
def Requested (s : Socks5) (received : List UInt8) : Prop :=
  ∃ r : SocksRequest, received = r.encode ++ s.readBuffer.content ∧
    s.request.Holds r

def Exchanged (s : Socks5) (t : List Call) : Prop :=
  match s.state with
  | .helloRead | .authRead => RequestFresh s.request
  | .helloWrite
  | .authWrite => RequestFresh s.request ∧ s.writeBuffer.content ≠ []
  | .requestRead =>
      ∃ consumed fresh, Opened s.clientFd t (consumed ++ s.readBuffer.content)
        [] ∧ RequestParser.Roomy fresh ∧
        scan requestParserFeed RequestParser.finished (requestParserInit fresh)
          consumed = (s.request, [], false)
  | .requestResolv | .requestConnecting =>
      ∃ received, Opened s.clientFd t received [] ∧ Requested s received
  | .requestWrite =>
      ∃ received sent reply, Opened s.clientFd t received sent ∧
        Reply.rep reply = s.reply ∧
        sent ++ s.writeBuffer.content = reply.encode ∧
        s.writeBuffer.content ≠ [] ∧
        (s.reply = repSuccess ∨ s.request.state ≠ .error → Requested s received)
  | .copy =>
      ∃ received relayed reply,
        Opened s.clientFd t received (reply.encode ++ relayed) ∧
        Reply.rep reply = repSuccess
  | .done | .errorState => Framed (sentTo s.clientFd t)

/-- Entering the state of the reply builds it whole. -/
theorem exchanged_requestWrite {s : Socks5} {t : List Call}
    {received : List UInt8} {a : Answers} {config : ProxyConfig}
    (room : configMinBuffer ≤ s.writeBuffer.limit)
    (opened : Opened s.clientFd t received [])
    (requested : s.reply = repSuccess ∨ s.request.state ≠ .error →
      Requested s received) :
    Exchanged (arrived a config s .requestWrite) t := by
  obtain ⟨reply, same, content⟩ := @buildReply_content
    { s with current := some .requestWrite } room s.reply a.sockname
  refine ⟨received, [], reply, opened, same, content, ?_, requested⟩
  change (buildReply _ _ _).writeBuffer.content ≠ []
  rw [content]
  exact reply.encode_ne_nil

theorem jump_plain {key : Key} {a : Answers} {next : SocksState} {c : Ctx}
    (writing : next ≠ .requestWrite) (copying : next ≠ .copy) :
    (jump key a next c).s = { c.s with current := some next } := by
  rw [jump_s]
  split
  next stays => rw [← stays]
  next => cases next <;> first | rfl | contradiction

theorem Stage.framed {s : Socks5} {t : List Call} (stage : Stage s t)
    (negotiating : s.state.negotiating = true) :
    Framed (sentTo s.clientFd t) := by
  unfold Stage at stage
  cases st : s.state <;> rw [st] at negotiating <;> simp only [st] at stage
  case helloRead =>
    rw [stage.2.sent]
    exact .handshake .refused List.nil_prefix
  case helloWrite =>
    obtain ⟨-, ⟨authRequired, methods, negotiated⟩, reply⟩ := stage
    exact .of_method negotiated (reply ▸ List.prefix_append _ _)
  case authRead =>
    obtain ⟨⟨authRequired, methods, consumed, fresh, negotiated, -⟩, sent⟩ :=
      stage
    exact .of_method negotiated (sent ▸ List.prefix_rfl)
  case authWrite =>
    obtain ⟨⟨authRequired, methods, user, pass, negotiated, validUser,
      validPass, -⟩, reply⟩ := stage
    exact .of_auth negotiated validUser validPass
      (reply ▸ List.prefix_append _ _)
  all_goals cases negotiating

structure Negotiates (t : List Call) (c : Ctx) (result : Ctx × SocksState) :
    Prop where
  clientFd : result.1.s.clientFd = c.s.clientFd
  request : result.1.s.request = c.s.request
  framed : Framed (sentTo c.s.clientFd (t ++ result.1.calls))
  pending : result.2 = .helloWrite ∨ result.2 = .authWrite →
    result.1.s.writeBuffer.content ≠ []

private theorem negotiates_single {t : List Call} {c : Ctx} {made : Call}
    {next : SocksState} (called : c.calls = [])
    (framed : Framed (sentTo c.s.clientFd t))
    (quiet : sentTo c.s.clientFd [made] = [])
    (pending :
      next = .helloWrite ∨ next = .authWrite → c.s.writeBuffer.content ≠ []) :
    Negotiates t c (c.call made, next) := by
  refine ⟨rfl, rfl, ?_, pending⟩
  change Framed (sentTo _ (t ++ (c.calls ++ [made])))
  rwa [called, List.nil_append, sentTo_append, quiet, List.append_nil]

private theorem negotiates_read {Parser : Type} {feed : Parser → UInt8 → Parser}
    {finished : Parser → Bool} {parser : Parser}
    {store : Ctx → Parser → Buffer → Ctx} {self : SocksState}
    {complete : Ctx → Ctx × SocksState} {c : Ctx} {result : Ctx × SocksState}
    {t : List Call} (called : c.calls = [])
    (framed : Framed (sentTo c.s.clientFd t))
    (reading : self = .helloRead ∨ self = .authRead)
    (stores : ∀ c q buffer, (store c q buffer).s.clientFd = c.s.clientFd ∧
      (store c q buffer).s.request = c.s.request ∧
      (store c q buffer).calls = c.calls ∧
      (store c q buffer).s.writeBuffer.limit = c.s.writeBuffer.limit)
    (completes : ∀ c : Ctx, configMinBuffer ≤ c.s.writeBuffer.limit →
      (complete c).1.s.clientFd = c.s.clientFd ∧
      (complete c).1.s.request = c.s.request ∧
      (∃ more, (complete c).1.calls = c.calls ++ more ∧
        ∀ fd, sentTo fd more = []) ∧
      ((complete c).2 = .helloWrite ∨ (complete c).2 = .authWrite →
        (complete c).1.s.writeBuffer.content ≠ []))
    (room : configMinBuffer ≤ c.s.writeBuffer.limit)
    (effect : ReadEffect feed finished parser store self complete c result) :
    Negotiates t c result := by
  have apart : ¬ (self = .helloWrite ∨ self = .authWrite) := by
    rcases reading with rfl | rfl <;> simp
  cases effect with
  | again e =>
      exact negotiates_single called framed rfl fun writing =>
        absurd writing apart
  | failed e => exact negotiates_single called framed rfl (by simp)
  | closed => exact negotiates_single called framed rfl (by simp)
  | @partly octets next buffer some fits scanned content limit =>
      obtain ⟨clientFd, request, calls, -⟩ :=
        stores (c.call (.recv c.s.clientFd octets)) next buffer
      refine ⟨clientFd, request, ?_, fun writing => absurd writing apart⟩
      rwa [calls, Ctx.call_calls, called, List.nil_append, sentTo_append,
        show sentTo c.s.clientFd [.recv c.s.clientFd octets] = [] from rfl,
        List.append_nil]
  | @completed octets rest next buffer some fits scanned content limit =>
      obtain ⟨clientFd, request, calls, limit⟩ :=
        stores (c.call (.recv c.s.clientFd octets)) next buffer
      obtain ⟨sameFd, sameRequest, ⟨more, added, quiet⟩, pending⟩ :=
        completes _ (limit ▸ room)
      refine ⟨sameFd.trans clientFd, sameRequest.trans request, ?_, pending⟩
      rwa [added, calls, Ctx.call_calls, called, List.nil_append, sentTo_append,
        sentTo_append, quiet, List.append_nil,
        show sentTo c.s.clientFd [.recv c.s.clientFd octets] = [] from rfl,
        List.append_nil]

theorem Negotiates.exchanged {t : List Call} {c : Ctx}
    {result : Ctx × SocksState} {key : Key} {a : Answers}
    (negotiates : Negotiates t c result) (fresh : RequestFresh c.s.request)
    (elsewhere : result.2.negotiating = true ∨ result.2.closing) :
    Exchanged (jump key a result.2 result.1).s (t ++ result.1.calls) := by
  obtain ⟨middle, next⟩ := result
  obtain ⟨clientFd, request, framed, pending⟩ := negotiates
  dsimp only at clientFd request framed pending elsewhere ⊢
  have fresh : RequestFresh middle.s.request := request ▸ fresh
  have framed : Framed (sentTo middle.s.clientFd (t ++ middle.calls)) :=
    clientFd ▸ framed
  have plain : next ≠ .requestWrite ∧ next ≠ .copy := by
    rcases elsewhere with negotiating | rfl | rfl
    · constructor
      · rintro rfl
        cases negotiating
      · rintro rfl
        cases negotiating
    · simp
    · simp
  rw [jump_plain plain.1 plain.2]
  rcases elsewhere with negotiating | rfl | rfl
  · cases next with
    | helloRead => exact fresh
    | helloWrite => exact ⟨fresh, pending (.inl rfl)⟩
    | authRead => exact fresh
    | authWrite => exact ⟨fresh, pending (.inr rfl)⟩
    | _ => cases negotiating
  · exact framed
  · exact framed

theorem helloRead_negotiates {t : List Call} {c : Ctx} (called : c.calls = [])
    (framed : Framed (sentTo c.s.clientFd t))
    (room : configMinBuffer ≤ c.s.writeBuffer.limit) (key : Key) (a : Answers) :
    Negotiates t c (helloRead key a c) := by
  refine negotiates_read called framed (.inl rfl) ?_ ?_ room
    (helloRead_effect key a c)
  · exact fun _ _ _ => ⟨rfl, rfl, rfl, rfl⟩
  intro c room
  unfold helloCompleted
  dsimp only
  split
  · exact ⟨rfl, rfl, ⟨[], (List.append_nil _).symm, fun _ => rfl⟩, by simp⟩
  · simp only [setInterestOrFail_s, setInterestOrFail_calls, true_and]
    refine ⟨⟨_, rfl, fun _ => rfl⟩, fun _ => ?_⟩
    rw [Buffer.content_writeAll_reset
      (Nat.le_trans (by simp [configMinBuffer]) room)]
    simp

theorem authRead_negotiates {t : List Call} {c : Ctx} (called : c.calls = [])
    (framed : Framed (sentTo c.s.clientFd t))
    (room : configMinBuffer ≤ c.s.writeBuffer.limit) (key : Key) (a : Answers) :
    Negotiates t c (authRead key a c) := by
  refine negotiates_read called framed (.inr rfl) ?_ ?_ room
    (authRead_effect key a c)
  · exact fun _ _ _ => ⟨rfl, rfl, rfl, rfl⟩
  intro c room
  unfold authCompleted
  dsimp only
  split
  · exact ⟨rfl, rfl, ⟨[], (List.append_nil _).symm, fun _ => rfl⟩, by simp⟩
  · simp only [setInterestOrFail_s, setInterestOrFail_calls, true_and]
    refine ⟨⟨_, rfl, fun _ => rfl⟩, fun _ => ?_⟩
    rw [Buffer.content_writeAll_reset
      (Nat.le_trans (by simp [configMinBuffer]) room)]
    simp

private theorem negotiates_write {self : SocksState}
    {complete : Ctx → Ctx × SocksState} {c : Ctx} {result : Ctx × SocksState}
    {t : List Call} {whole : List UInt8} (called : c.calls = [])
    (pending : c.s.writeBuffer.content ≠ [])
    (reply : sentTo c.s.clientFd t ++ c.s.writeBuffer.content = whole)
    (frames : ∀ octets, octets <+: whole → Framed octets)
    (completes : ∀ c : Ctx, (complete c).1.s = c.s ∧
      (complete c).1.calls = c.calls ∧
      (complete c).2 ≠ .helloWrite ∧ (complete c).2 ≠ .authWrite)
    (effect : WriteEffect self complete c result) : Negotiates t c result := by
  have unsent : Framed (sentTo c.s.clientFd t) :=
    frames _ (reply ▸ List.prefix_append _ _)
  have sends {accepted rest : List UInt8}
      (split : c.s.writeBuffer.content = accepted ++ rest) :
      Framed (sentTo c.s.clientFd (t ++ [.send c.s.clientFd accepted])) := by
    apply frames
    rw [← reply, split, sentTo_append, ← List.append_assoc]
    simp [sentTo]
  cases effect with
  | again e => exact negotiates_single called unsent rfl fun _ => pending
  | failed e => exact negotiates_single called unsent rfl (by simp)
  | @partly accepted rest buffer split content remains limit =>
      refine ⟨rfl, rfl, ?_, fun _ => content ▸ remains⟩
      change Framed (sentTo _ (t ++ (c.calls ++ [_])))
      rw [called]
      exact sends split
  | @flushed buffer content limit =>
      obtain ⟨object, calls, notHello, notAuth⟩ := completes
        { c.call (.send c.s.clientFd c.s.writeBuffer.content) with
          s := { c.s with writeBuffer := buffer } }
      refine ⟨by rw [object], by rw [object], ?_, ?_⟩
      · rw [calls]
        change Framed (sentTo _ (t ++ (c.calls ++ [_])))
        rw [called]
        exact sends (List.append_nil _).symm
      · rintro (same | same)
        · exact absurd same notHello
        · exact absurd same notAuth

theorem helloWrite_negotiates {t : List Call} {c : Ctx} (called : c.calls = [])
    (pending : c.s.writeBuffer.content ≠ [])
    (reply : HelloReply c.s.clientFd c.s.method c.s.readBuffer.content
      c.s.writeBuffer.content t) (key : Key) (a : Answers) :
    Negotiates t c (helloWrite key a c) := by
  obtain ⟨⟨authRequired, methods, negotiated⟩, whole⟩ := reply
  refine negotiates_write called pending whole (fun _ => .of_method negotiated)
    ?_ (helloWrite_effect key a c)
  intro c
  split
  · exact ⟨rfl, rfl, by simp, by simp⟩
  · simp only [setInterestOrFail_s, setInterestOrFail_calls, true_and]
    rcases setInterestOrFail_next c opRead
      (if c.s.method = methodUserpass then .authRead else .requestRead) with
      same | same
    · rw [same]
      split <;> simp
    · simp [same]

theorem authWrite_negotiates {t : List Call} {c : Ctx} (called : c.calls = [])
    (pending : c.s.writeBuffer.content ≠ [])
    (reply : AuthReply c.s.clientFd c.s.authOk c.s.readBuffer.content
      c.s.writeBuffer.content t) (key : Key) (a : Answers) :
    Negotiates t c (authWrite key a c) := by
  obtain ⟨⟨authRequired, methods, user, pass, negotiated, validUser,
    validPass, -⟩, whole⟩ := reply
  refine negotiates_write called pending whole
    (fun _ => .of_auth negotiated validUser validPass) ?_
    (authWrite_effect key a c)
  intro c
  split
  · exact ⟨rfl, rfl, by simp, by simp⟩
  · simp only [setInterestOrFail_s, setInterestOrFail_calls, true_and]
    rcases setInterestOrFail_next c opRead .requestRead with same |
      same <;> simp [same]

theorem exchanged_requestRead {key : Key} {a : Answers} {c : Ctx}
    {t : List Call} (fresh : RequestFresh c.s.request)
    (opened : Opened c.s.clientFd t c.s.readBuffer.content []) :
    Exchanged (jump key a .requestRead c).s t := by
  rw [jump_plain (by simp) (by simp)]
  obtain ⟨parser, roomy, same⟩ := fresh
  exact ⟨[], parser, opened, roomy, by rw [same]; rfl⟩

/-- A write handler goes on to another state only by sending all that was
left. -/
private theorem flushed_of_effect {self next : SocksState}
    {complete : Ctx → Ctx × SocksState} {c middle : Ctx} (leaves : next ≠ self)
    (lasts : next ≠ .errorState)
    (effect : WriteEffect self complete c (middle, next)) :
    ∃ buffer : Buffer, buffer.content = [] ∧
      buffer.limit = c.s.writeBuffer.limit ∧
      complete { c.call (.send c.s.clientFd c.s.writeBuffer.content) with
        s := { c.s with writeBuffer := buffer } } = (middle, next) := by
  generalize reached : (middle, next) = result at effect
  cases effect with
  | again e => exact absurd (congrArg Prod.snd reached) leaves
  | failed e => exact absurd (congrArg Prod.snd reached) lasts
  | partly => exact absurd (congrArg Prod.snd reached) leaves
  | flushed content limit => exact ⟨_, content, limit, rfl⟩

theorem helloWrite_opens {t : List Call} {c middle : Ctx} {key : Key}
    {a : Answers} (called : c.calls = []) (fresh : RequestFresh c.s.request)
    (reply : HelloReply c.s.clientFd c.s.method c.s.readBuffer.content
      c.s.writeBuffer.content t)
    (ran : helloWrite key a c = (middle, .requestRead)) :
    Exchanged (jump key a .requestRead middle).s (t ++ middle.calls) := by
  obtain ⟨⟨authRequired, methods, negotiated⟩, whole⟩ := reply
  obtain ⟨buffer, content, limit, completed⟩ :=
    flushed_of_effect (by simp) (by simp)
    (ran ▸ helloWrite_effect key a c)
  split at completed
  · cases completed
  next chosen =>
    have object := congrArg (fun result => result.1.s) completed
    have calls := congrArg (fun result => result.1.calls) completed
    have reached := congrArg Prod.snd completed
    simp only [setInterestOrFail_s, setInterestOrFail_calls, called,
      Ctx.call_calls, List.nil_append] at object calls
    have other : c.s.method ≠ methodUserpass := by
      intro userpass
      rcases setInterestOrFail_next _ opRead
        (if c.s.method = methodUserpass then
        SocksState.authRead else .requestRead) with same | same
      · rw [same, if_pos userpass] at reached
        cases reached
      · rw [same] at reached
        cases reached
    have choice := negotiated.choice
    obtain ⟨-, same, -⟩ := methodFor_noAuth (choice ▸ chosen) (choice ▸ other)
    apply exchanged_requestRead
    · rw [← object]
      exact fresh
    · rw [← object, ← calls]
      refine ⟨_, _, .noAuth negotiated.small, ?_, ?_⟩
      · rw [receivedFrom_append, negotiated.received]
        exact List.append_nil _
      · rw [sentTo_append, show sentTo c.s.clientFd
          [.send c.s.clientFd c.s.writeBuffer.content] =
            c.s.writeBuffer.content by
            simp [sentTo], whole, choice, same]
        rfl

theorem authWrite_opens {t : List Call} {c middle : Ctx} {key : Key}
    {a : Answers} (called : c.calls = []) (fresh : RequestFresh c.s.request)
    (reply : AuthReply c.s.clientFd c.s.authOk c.s.readBuffer.content
      c.s.writeBuffer.content t)
    (ran : authWrite key a c = (middle, .requestRead)) :
    Exchanged (jump key a .requestRead middle).s (t ++ middle.calls) := by
  obtain ⟨⟨authRequired, methods, user, pass, negotiated, validUser,
    validPass, -⟩, whole⟩ := reply
  obtain ⟨buffer, content, limit, completed⟩ :=
    flushed_of_effect (by simp) (by simp)
    (ran ▸ authWrite_effect key a c)
  split at completed
  · cases completed
  next accepted =>
    have object := congrArg (fun result => result.1.s) completed
    have calls := congrArg (fun result => result.1.calls) completed
    simp only [setInterestOrFail_s, setInterestOrFail_calls, called,
      Ctx.call_calls, List.nil_append] at object calls
    have ok : c.s.authOk = true := by simpa using accepted
    apply exchanged_requestRead
    · rw [← object]
      exact fresh
    · rw [← object, ← calls]
      refine ⟨_, _, .userpass negotiated.small validUser validPass, ?_, ?_⟩
      · rw [receivedFrom_append, negotiated.received, List.append_assoc]
        simp [receivedFrom]
      · rw [sentTo_append, show sentTo c.s.clientFd
          [.send c.s.clientFd c.s.writeBuffer.content] =
            c.s.writeBuffer.content by
            simp [sentTo], whole, ok]
        rfl

theorem Opened.framed {fd : Fd} {t : List Call} {received sent : List UInt8}
    {reply : Reply} (opened : Opened fd t received sent)
    (begins : sent <+: reply.encode) :
    Framed (sentTo fd t) := by
  obtain ⟨opening, greeting, valid, -, sends⟩ := opened
  rw [sends]
  exact .handshake (.replied valid reply)
    ((List.prefix_append_right_inj _).mpr begins)

/-- Calls that reach for the origin move no octets of the client. -/
theorem Reaches.opened {c middle : Ctx} {t : List Call}
    {received sent : List UInt8} (reaches : Reaches c middle)
    (opened : Opened c.s.clientFd (t ++ c.calls) received sent) :
    Opened middle.s.clientFd (t ++ middle.calls) received sent := by
  obtain ⟨more, calls, reaching⟩ := reaches.calls
  obtain ⟨_, _, _, _, _, _, _, _, _, object⟩ := reaches.object
  have extended := opened.extend more
  have quiet (made : Call) (member : made ∈ more) (fd : Fd) :
      made.receivedFrom fd = [] ∧ made.sentTo fd = [] := by
    have outward := reaching made member
    cases made with
    | recv => cases outward
    | send => cases outward
    | _ => exact ⟨rfl, rfl⟩
  have received : receivedFrom c.s.clientFd more = [] :=
    List.flatMap_eq_nil_iff.mpr fun made member => (quiet made member _).1
  have sent : sentTo c.s.clientFd more = [] :=
    List.flatMap_eq_nil_iff.mpr fun made member => (quiet made member _).2
  rw [received, sent, List.append_nil, List.append_nil, List.append_assoc]
    at extended
  rw [calls, object]
  exact extended

theorem Reaches.exchanged {c middle : Ctx} {t : List Call}
    {received : List UInt8} {next : SocksState} {key : Key} {a : Answers}
    (reaches : Reaches c middle)
    (opened : Opened c.s.clientFd (t ++ c.calls) received [])
    (requested : Requested c.s received)
    (current : c.s.current ≠ some .requestWrite)
    (room : configMinBuffer ≤ c.s.writeBuffer.limit)
    (follows : next = .requestResolv ∨ next.connectResult) :
    Exchanged (jump key a next middle).s (t ++ middle.calls) := by
  have opened := reaches.opened opened
  obtain ⟨_, _, _, _, _, _, _, _, _, object⟩ := reaches.object
  have requested : Requested middle.s received := by
    rw [object]
    exact requested
  rcases follows with rfl | rfl | rfl
  · rw [jump_plain (by simp) (by simp)]
    exact ⟨received, opened, requested⟩
  · have elsewhere : middle.s.current ≠ some .requestWrite := by
      rw [object]
      exact current
    rw [jump_s, if_neg elsewhere]
    refine exchanged_requestWrite ?_ opened fun _ => requested
    rw [object]
    exact room
  · rw [jump_plain (by simp) (by simp)]
    exact ⟨received, opened, requested⟩

theorem requestCompleted_exchanged {c : Ctx} {t : List Call}
    {received : List UInt8} {key : Key} {a : Answers}
    (opened : Opened c.s.clientFd (t ++ c.calls) received [])
    (current : c.s.current ≠ some .requestWrite)
    (room : configMinBuffer ≤ c.s.writeBuffer.limit)
    (parsed : c.s.request.state ≠ .error → Requested c.s received) :
    Exchanged
      (jump key a (requestCompleted key a c).2 (requestCompleted key a c).1).s
      (t ++ (requestCompleted key a c).1.calls) := by
  unfold requestCompleted
  dsimp only
  split
  next failed =>
    rw [jump_s, if_neg]
    · refine exchanged_requestWrite room opened ?_
      rintro (success | accepted)
      · cases success
      · exact absurd failed accepted
    · exact current
  next accepted =>
    have reaches :=
      (processRequest_reaches key a (c.setInterest c.s.clientFd opNoop).1).1
    exact reaches.exchanged opened (parsed accepted) current room
      (processRequest_next key a _)

theorem requestRead_exchanged {t : List Call} {c : Ctx}
    {result : Ctx × SocksState} {key : Key} {a : Answers}
    (called : c.calls = []) (current : c.s.current = some .requestRead)
    (exchanged : ∃ consumed fresh,
      Opened c.s.clientFd t (consumed ++ c.s.readBuffer.content) [] ∧
        RequestParser.Roomy fresh ∧
        scan requestParserFeed RequestParser.finished (requestParserInit fresh)
          consumed = (c.s.request, [], false))
    (room : configMinBuffer ≤ c.s.writeBuffer.limit)
    (ran : requestRead key a c = result) :
    Exchanged (jump key a result.2 result.1).s (t ++ result.1.calls) := by
  obtain ⟨consumed, fresh, opened, roomy, fed⟩ := exchanged
  have stays (e : Errno) :
      Opened c.s.clientFd (t ++ (c.calls ++ [.recvFailed c.s.clientFd e]))
        (consumed ++ c.s.readBuffer.content) [] := by
    have extended := opened.extend [.recvFailed c.s.clientFd e]
    rw [called, List.nil_append]
    simpa [receivedFrom, sentTo] using extended
  have receives (octets : List UInt8) :
      Opened c.s.clientFd (t ++ (c.calls ++ [.recv c.s.clientFd octets]))
        (consumed ++ (c.s.readBuffer.content ++ octets)) [] := by
    have extended := opened.extend [.recv c.s.clientFd octets]
    rw [called, List.nil_append]
    simpa [receivedFrom, sentTo] using extended
  have effect := requestRead_effect key a c
  rw [ran] at effect
  cases effect with
  | again e =>
      rw [jump_plain (by simp) (by simp)]
      exact ⟨consumed, fresh, stays e, roomy, fed⟩
  | failed e =>
      rw [jump_plain (by simp) (by simp)]
      exact (stays e).framed (someReply.encode.nil_prefix)
  | closed =>
      rw [jump_plain (by simp) (by simp)]
      exact (receives []).framed (someReply.encode.nil_prefix)
  | @partly octets next buffer some fits scanned content limit =>
      rw [jump_plain (by simp) (by simp)]
      have opened := (receives octets).extend [.requestParserConsume]
      have whole := (scan_append_more fed).trans scanned
      refine ⟨consumed ++ (c.s.readBuffer.content ++ octets), fresh, ?_,
        roomy, whole⟩
      change Opened c.s.clientFd _ (_ ++ buffer.content) []
      rw [content]
      simpa [receivedFrom, sentTo] using opened
  | @completed octets rest next buffer some fits scanned content limit =>
      have opened : Opened c.s.clientFd
          (t ++
            (c.calls ++ [.recv c.s.clientFd octets] ++ [.requestParserConsume]))
          (consumed ++ (c.s.readBuffer.content ++ octets)) [] := by
        have extended := (receives octets).extend [.requestParserConsume]
        simpa [receivedFrom, sentTo] using extended
      have whole := (scan_append_more fed).trans scanned
      refine requestCompleted_exchanged opened
        (by rw [Ctx.call_s, current]; simp) room ?_
      intro parsed
      have stopped := scan_stopped rfl whole
      have accepted : next.state = .done := by
        simpa [RequestParser.finished, parsed] using stopped
      obtain ⟨r, split, holds⟩ := socksRequest_of_scan roomy whole accepted
      refine ⟨r, ?_, holds⟩
      change _ = r.encode ++ buffer.content
      rw [split, content]

theorem requestWrite_exchanged {t : List Call} {c : Ctx}
    {result : Ctx × SocksState} {key : Key} {a : Answers}
    {received sent : List UInt8} {reply : Reply} (called : c.calls = [])
    (current : c.s.current = some .requestWrite)
    (opened : Opened c.s.clientFd t received sent)
    (same : reply.rep = c.s.reply)
    (whole : sent ++ c.s.writeBuffer.content = reply.encode)
    (pending : c.s.writeBuffer.content ≠ [])
    (requested : c.s.reply = repSuccess ∨ c.s.request.state ≠ .error →
      Requested c.s received) (ran : requestWrite key a c = result) :
    Exchanged (jump key a result.2 result.1).s (t ++ result.1.calls) := by
  have begins : sent <+: reply.encode := whole ▸ List.prefix_append _ _
  have blocked (e : Errno) :
      Opened c.s.clientFd (t ++ (c.calls ++ [.sendFailed c.s.clientFd e]))
        received sent := by
    have extended := opened.extend [.sendFailed c.s.clientFd e]
    rw [called, List.nil_append]
    simpa [receivedFrom, sentTo] using extended
  have sends (accepted : List UInt8) :
      Opened c.s.clientFd (t ++ (c.calls ++ [.send c.s.clientFd accepted]))
        received (sent ++ accepted) := by
    have extended := opened.extend [.send c.s.clientFd accepted]
    rw [called, List.nil_append]
    simpa [receivedFrom, sentTo] using extended
  have effect := requestWrite_effect key a c
  rw [ran] at effect
  cases effect with
  | again e =>
      rw [jump_s, if_pos (by exact current)]
      unfold Exchanged Socks5.state
      rw [Ctx.call_s, current]
      exact ⟨received, sent, reply, blocked e, same, whole, pending, requested⟩
  | failed e =>
      rw [jump_plain (by simp) (by simp)]
      exact (blocked e).framed begins
  | @partly accepted rest buffer split content remains limit =>
      rw [jump_s, if_pos (by exact current)]
      unfold Exchanged Socks5.state
      dsimp only [Ctx.call_s]
      rw [current]
      refine ⟨received, sent ++ accepted, reply, sends accepted, same, ?_,
        ?_, requested⟩
      · rw [content, List.append_assoc, ← split]
        exact whole
      · rw [content]
        exact remains
  | @flushed buffer content limit =>
      have replied := sends c.s.writeBuffer.content
      rw [whole] at replied
      have logged (record : AccessRecord) : Opened c.s.clientFd
          (t ++ (c.calls ++ [.send c.s.clientFd c.s.writeBuffer.content] ++
            [.loggerAccess record])) received reply.encode := by
        have extended := replied.extend [.loggerAccess record]
        simpa [receivedFrom, sentTo] using extended
      unfold replySent
      dsimp only
      split
      next refused =>
        rw [jump_plain (by simp) (by simp)]
        exact (logged _).framed List.prefix_rfl
      next success =>
        rw [jump_s, if_neg]
        · refine ⟨received, [], reply, ?_, ?_⟩
          · rw [List.append_nil]
            exact logged _
          · rw [same]
            exact not_not.mp success
        · change ¬ c.s.current = _
          rw [current]
          simp

theorem copy_exchanged {kind : EventKind} {t : List Call} {c : Ctx}
    {handler : Handler} {result : Ctx × SocksState} {key : Key} {a : Answers}
    {received relayed : List UInt8} {reply : Reply} (called : c.calls = [])
    (opened : Opened c.s.clientFd t received (reply.encode ++ relayed))
    (success : reply.rep = repSuccess) (apart : c.s.originNumber ≠ c.s.clientFd)
    (serves : Serves .copy kind handler) (ran : handler key a c = some result) :
    Exchanged (jump key a result.2 result.1).s (t ++ result.1.calls) := by
  have extends_ {after : Ctx} (relays : Relays c after) :
      ∃ received relayed, Opened after.s.clientFd (t ++ after.calls) received
        (reply.encode ++ relayed) := by
    obtain ⟨more, calls, carried⟩ := relays
    have extended := opened.extend more
    rw [List.append_assoc] at extended
    rw [calls, called, List.nil_append, carried.clientFd]
    exact ⟨_, _, extended⟩
  have closing {after : Ctx} (relays : Relays c after) :
      Exchanged (jump key a .done after).s (t ++ after.calls) := by
    obtain ⟨_, _, _, _, valid, _, sends⟩ := extends_ relays
    rw [jump_plain (by simp) (by simp)]
    exact .relay valid success sends
  cases copy_effect apart a serves ran with
  | @stays after relays =>
      obtain ⟨received, relayed, opened⟩ := extends_ relays
      have state := jump_state key a .copy after
      unfold Exchanged
      rw [state]
      refine ⟨received, relayed, reply, ?_, success⟩
      rw [(extends_jump key a .copy after).clientFd]
      exact opened
  | completed relays => exact closing relays
  | failed relays => exact closing relays

theorem handler_exchanged {kind : EventKind} {key : Key} {a : Answers} {c : Ctx}
    {t : List Call} {handler : Handler} {result : Ctx × SocksState}
    (called : c.calls = []) (entered : c.s.current = some c.s.state)
    (spacious : Spacious c.s) (stage : Stage c.s t)
    (exchanged : Exchanged c.s t) (apart : c.s.originNumber ≠ c.s.clientFd)
    (serves : Serves c.s.state kind handler)
    (ran : handler key a c = some result) :
    Exchanged (jump key a result.2 result.1).s (t ++ result.1.calls) := by
  have follows := handler_next serves ran
  have framed (negotiating : c.s.state.negotiating = true) :
      Framed (sentTo c.s.clientFd t) := stage.framed negotiating
  unfold Exchanged at exchanged
  unfold Stage at stage
  cases st : c.s.state <;> rw [st] at serves entered follows framed <;>
    simp only [st] at stage exchanged
  case helloRead =>
    cases serves
    have negotiates := eq_of_total ran ▸
      helloRead_negotiates called (framed rfl) spacious.2 key a
    refine negotiates.exchanged exchanged ?_
    rcases (by simpa [SocksState.successors] using follows :
      result.2 = .helloRead ∨ result.2 = .helloWrite ∨ result.2 = .errorState)
      with same | same | same
    · exact .inl (by rw [same]; rfl)
    · exact .inl (by rw [same]; rfl)
    · exact .inr (.inr same)
  case helloWrite =>
    cases serves
    have ran := eq_of_total ran
    obtain ⟨fresh, pending⟩ := exchanged
    have negotiates := ran ▸ helloWrite_negotiates called pending stage.2 key a
    obtain ⟨middle, next⟩ := result
    cases next with
    | requestRead => exact helloWrite_opens called fresh stage.2 ran
    | helloWrite => exact negotiates.exchanged fresh (.inl rfl)
    | authRead => exact negotiates.exchanged fresh (.inl rfl)
    | done => exact negotiates.exchanged fresh (.inr (.inl rfl))
    | errorState => exact negotiates.exchanged fresh (.inr (.inr rfl))
    | _ => simp [SocksState.successors] at follows
  case authRead =>
    cases serves
    have negotiates := eq_of_total ran ▸
      authRead_negotiates called (framed rfl) spacious.2 key a
    refine negotiates.exchanged exchanged ?_
    rcases (by simpa [SocksState.successors] using follows :
      result.2 = .authRead ∨ result.2 = .authWrite ∨ result.2 = .errorState)
      with same | same | same
    · exact .inl (by rw [same]; rfl)
    · exact .inl (by rw [same]; rfl)
    · exact .inr (.inr same)
  case authWrite =>
    cases serves
    have ran := eq_of_total ran
    obtain ⟨fresh, pending⟩ := exchanged
    have negotiates := ran ▸ authWrite_negotiates called pending stage key a
    obtain ⟨middle, next⟩ := result
    cases next with
    | requestRead => exact authWrite_opens called fresh stage ran
    | authWrite => exact negotiates.exchanged fresh (.inl rfl)
    | done => exact negotiates.exchanged fresh (.inr (.inl rfl))
    | errorState => exact negotiates.exchanged fresh (.inr (.inr rfl))
    | _ => simp [SocksState.successors] at follows
  case requestRead =>
    cases serves
    exact requestRead_exchanged called entered exchanged spacious.2
      (eq_of_total ran)
  case requestResolv =>
    cases serves
    have ran := eq_of_total ran
    subst ran
    obtain ⟨received, opened, requested⟩ := exchanged
    refine (resolvBlock_reaches key a c).1.exchanged ?_ requested ?_ spacious.2
      (.inr (resolvBlock_next key a c))
    · rw [called, List.append_nil]
      exact opened
    · rw [entered]
      simp
  case requestConnecting =>
    cases serves
    obtain ⟨reaches, connects⟩ := connectingWrite_reaches ran
    obtain ⟨received, opened, requested⟩ := exchanged
    refine reaches.exchanged ?_ requested ?_ spacious.2 (.inr connects)
    · rw [called, List.append_nil]
      exact opened
    · rw [entered]
      simp
  case requestWrite =>
    cases serves
    obtain ⟨received, sent, reply, opened, same, whole, pending, requested⟩ :=
      exchanged
    exact requestWrite_exchanged called entered opened same whole
      pending requested (eq_of_total ran)
  case copy =>
    obtain ⟨received, relayed, reply, opened, success⟩ := exchanged
    exact copy_exchanged called opened success apart serves ran
  case done => cases serves
  case errorState => cases serves

private theorem exchanged_closes {s : Socks5} {t : List Call} {references : Nat}
    (exchanged : Exchanged s t) :
    Exchanged { s with references := references } t :=
  exchanged

private theorem exchanged_resolved {s : Socks5} {t : List Call}
    {dns : DnsRequest} (exchanged : Exchanged s t) :
    Exchanged { s with dns := dns } t :=
  exchanged

theorem exchanged_step {p : Ptr} {fd : Fd} {s next : Socks5}
    {t calls : List Call} (progress : Progress fd s t)
    (exchanged : Exchanged s t) (step : ConnectionStep p s calls next) :
    Exchanged next (t ++ calls) := by
  cases step with
  | resolved answer =>
      rw [List.append_nil]
      exact exchanged_resolved exchanged
  | @handled kind fd a env after hosts runs =>
      obtain ⟨middle, next, handled⟩ := handled_of_handler runs
      obtain ⟨handler, serves, ran⟩ := handled.runs
      have jumped :=
        handler_exchanged (c := Ctx.started ⟨env, s, [], false⟩) (t := t)
        rfl rfl progress.spacious progress.stage exchanged hosts.apart serves
          ran
      have calls : after.calls = middle.calls :=
        handled.closes.calls.trans (jump_calls ..)
      obtain ⟨references, object⟩ := handled.closes.object
      rw [calls, object]
      exact exchanged_closes jumped

theorem accepted_exchanged {s : Socks5} (accepted : Accepted s) :
    Exchanged s [] := by
  obtain ⟨config, clientFd, blocks, old, prepared, address, made, rfl⟩ :=
    accepted
  obtain ⟨rawRead, rawWrite, readBlock, writeBlock, rfl⟩ := prepare_eq made
  exact ⟨⟨.version, 0, 0, 0, 0, List.replicate 256 0, 0, 0⟩,
    List.length_replicate, rfl⟩

/-- What every run of a connection from its accept has exchanged with the
client. -/
theorem exchanged_of_run {p : Ptr} {first s : Socks5}
    {labels : List (List Call)} (accepted : Accepted first)
    (run : (connection p).Run first labels s) :
    Exchanged s labels.flatten := by
  have preserved : ∀ {labels s calls next},
      Progress first.clientFd s (labels : List (List Call)).flatten ∧
        Exchanged s labels.flatten →
      (connection p).step s calls next →
        Progress first.clientFd next (labels ++ [calls]).flatten ∧
          Exchanged next (labels ++ [calls]).flatten := by
    rintro labels s calls next ⟨progress, exchanged⟩ step
    rw [List.flatten_append, List.flatten_singleton]
    exact ⟨progress.step step, exchanged_step progress exchanged step⟩
  exact (run.history @preserved
    ⟨progress_of_run accepted (@System.Run.nil _ _ (connection p) first),
      accepted_exchanged accepted⟩).2

theorem Exchanged.framed {s : Socks5} {t : List Call}
    (exchanged : Exchanged s t) (stage : Stage s t) :
    Framed (sentTo s.clientFd t) := by
  unfold Exchanged at exchanged
  cases st : s.state <;> simp only [st] at exchanged
  case helloRead | helloWrite | authRead | authWrite =>
    exact stage.framed (by rw [st]; rfl)
  case requestRead =>
    obtain ⟨_, _, opened, -⟩ := exchanged
    exact opened.framed someReply.encode.nil_prefix
  case requestResolv | requestConnecting =>
    obtain ⟨_, opened, -⟩ := exchanged
    exact opened.framed someReply.encode.nil_prefix
  case requestWrite =>
    obtain ⟨_, _, _, opened, _, whole, -⟩ := exchanged
    exact opened.framed (whole ▸ List.prefix_append _ _)
  case copy =>
    obtain ⟨_, _, _, ⟨_, _, valid, -, sends⟩, success⟩ := exchanged
    exact .relay valid success sends
  case done | errorState => exact exchanged

end SocksProxy
