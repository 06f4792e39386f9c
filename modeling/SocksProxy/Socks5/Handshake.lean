import SocksProxy.Socks5.Frame
import SocksProxy.Socks5.Messages

/-! What the octets that crossed the client's socket say about a connection, in
every state of its handshake. -/

namespace SocksProxy

open Scanner Transition

/-- The choice of `choose_method` on the methods of a HELLO. -/
def methodFor (authRequired : Bool) (methods : List UInt8) : UInt8 :=
  if authRequired then
    if methods.contains methodUserpass then methodUserpass else methodNone
  else if methods.contains methodNoAuth then methodNoAuth
  else if methods.contains methodUserpass then methodUserpass
  else methodNone

theorem methodFor_offered (authRequired : Bool) (methods : List UInt8) :
    methodFor authRequired methods ∈ methods ∨
      methodFor authRequired methods = methodNone := by
  unfold methodFor
  cases authRequired <;>
    by_cases user : methodUserpass ∈ methods <;>
    by_cases open_ : methodNoAuth ∈ methods <;> simp [user, open_]

theorem methodFor_noAuth {authRequired : Bool} {methods : List UInt8}
    (open_ : methodFor authRequired methods ≠ methodNone)
    (other : methodFor authRequired methods ≠ methodUserpass) :
    authRequired = false ∧ methodFor authRequired methods = methodNoAuth ∧
      methodNoAuth ∈ methods := by
  unfold methodFor at *
  cases authRequired <;>
    by_cases user : methodUserpass ∈ methods <;>
    by_cases offered : methodNoAuth ∈ methods <;> simp_all

/-- A HELLO was received and answered with a choice; `rest` was received after
the HELLO. -/
structure Negotiated (fd : Fd) (t : List Call) (authRequired : Bool)
    (methods rest : List UInt8) (method : UInt8) : Prop where
  small : methods.length ≤ 255
  received : receivedFrom fd t = helloMessage methods ++ rest
  chosen : negotiations t = [(authRequired, method)]
  choice : method = methodFor authRequired methods

theorem Negotiated.extend {fd : Fd} {t : List Call} {authRequired : Bool}
    {methods rest : List UInt8} {method : UInt8}
    (negotiated : Negotiated fd t authRequired methods rest method)
    (more : List Call) (quiet : negotiations more = []) :
    Negotiated fd (t ++ more) authRequired methods
      (rest ++ receivedFrom fd more) method where
  small := negotiated.small
  received := by
    rw [receivedFrom_append, negotiated.received, List.append_assoc]
  chosen := by
    rw [negotiations_append, negotiated.chosen, quiet, List.append_nil]
  choice := negotiated.choice

/-- The client passed the gate: it was let in without authentication, or its
credentials were checked and accepted. -/
inductive Passed (fd : Fd) (t : List Call) : Prop
  | noAuth {methods rest : List UInt8}
      (negotiated : Negotiated fd t false methods rest methodNoAuth)
      (offered : methodNoAuth ∈ methods)
      (sent : [0x05, methodNoAuth] <+: sentTo fd t)
  | userpass {authRequired : Bool} {methods user pass rest : List UInt8}
      (negotiated : Negotiated fd t authRequired methods
        (authMessage user pass ++ rest) methodUserpass)
      (offered : methodUserpass ∈ methods)
      (validUser : FieldLength user) (validPass : FieldLength pass)
      (checked : Call.usersCheck (.ofArray user) (.ofArray pass) true ∈ t)
      (sent : [0x05, methodUserpass, 0x01, 0x00] <+: sentTo fd t)

theorem Passed.extend {fd : Fd} {t more : List Call} (passed : Passed fd t)
    (quiet : negotiations more = []) : Passed fd (t ++ more) := by
  cases passed with
  | noAuth negotiated offered sent =>
      refine .noAuth (negotiated.extend _ quiet) offered ?_
      rw [sentTo_append]
      exact sent.trans (List.prefix_append _ _)
  | userpass negotiated offered validUser validPass checked sent =>
      have extended := negotiated.extend more quiet
      rw [List.append_assoc] at extended
      refine .userpass extended offered validUser validPass
        (List.mem_append_left _ checked) ?_
      rw [sentTo_append]
      exact sent.trans (List.prefix_append _ _)

structure HelloPending (fd : Fd) (hello : HelloParser) (readable : List UInt8)
    (t : List Call) : Prop where
  chosen : negotiations t = []
  sent : sentTo fd t = []
  fed : ∃ consumed, receivedFrom fd t = consumed ++ readable ∧
    scan helloParserFeed HelloParser.finished helloParserInit consumed =
      (hello, [], false)

structure HelloReply (fd : Fd) (method : UInt8) (readable unsent : List UInt8)
    (t : List Call) : Prop where
  negotiated : ∃ authRequired methods,
    Negotiated fd t authRequired methods readable method
  reply : sentTo fd t ++ unsent = [0x05, method]

structure AuthPending (fd : Fd) (auth : AuthParser) (readable : List UInt8)
    (t : List Call) : Prop where
  fed : ∃ authRequired methods consumed fresh,
    Negotiated fd t authRequired methods (consumed ++ readable) methodUserpass ∧
    fresh.Roomy ∧
    scan authParserFeed AuthParser.finished (authParserInit fresh) consumed =
      (auth, [], false)
  sent : sentTo fd t = [0x05, methodUserpass]

structure AuthReply (fd : Fd) (ok : Bool) (readable unsent : List UInt8)
    (t : List Call) : Prop where
  checked : ∃ authRequired methods user pass,
    Negotiated fd t authRequired methods (authMessage user pass ++ readable)
      methodUserpass ∧
    FieldLength user ∧ FieldLength pass ∧
    Call.usersCheck (.ofArray user) (.ofArray pass) ok ∈ t
  reply : sentTo fd t ++ unsent =
    [0x05, methodUserpass, 0x01, if ok then 0x00 else 0x01]

def AuthFresh (auth : AuthParser) : Prop :=
  ∃ fresh : AuthParser, fresh.Roomy ∧ auth = authParserInit fresh

def Stage (s : Socks5) (t : List Call) : Prop :=
  match s.state with
  | .helloRead =>
      AuthFresh s.auth ∧
        HelloPending s.clientFd s.hello s.readBuffer.content t
  | .helloWrite =>
      AuthFresh s.auth ∧
        HelloReply s.clientFd s.method s.readBuffer.content
          s.writeBuffer.content t
  | .authRead => AuthPending s.clientFd s.auth s.readBuffer.content t
  | .authWrite =>
      AuthReply s.clientFd s.authOk s.readBuffer.content s.writeBuffer.content t
  | .done | .errorState => (negotiations t).length ≤ 1
  | _ => Passed s.clientFd t

theorem Negotiated.once {fd : Fd} {t : List Call} {authRequired : Bool}
    {methods rest : List UInt8} {method : UInt8}
    (negotiated : Negotiated fd t authRequired methods rest method) :
    (negotiations t).length ≤ 1 := by
  simp [negotiated.chosen]

theorem Passed.once {fd : Fd} {t : List Call} (passed : Passed fd t) :
    (negotiations t).length ≤ 1 := by
  cases passed with
  | noAuth negotiated => exact negotiated.once
  | userpass negotiated => exact negotiated.once

/-- A connection negotiates at most once. -/
theorem Stage.once {s : Socks5} {t : List Call} (stage : Stage s t) :
    (negotiations t).length ≤ 1 := by
  unfold Stage at stage
  split at stage
  · simp [stage.2.chosen]
  · obtain ⟨-, ⟨authRequired, methods, negotiated⟩, -⟩ := stage
    exact negotiated.once
  · obtain ⟨⟨authRequired, methods, consumed, fresh, negotiated, -⟩, -⟩ := stage
    exact negotiated.once
  · obtain ⟨⟨authRequired, methods, user, pass, negotiated, -⟩, -⟩ := stage
    exact negotiated.once
  · exact stage
  · exact stage
  · exact Passed.once stage

/-- Both buffers have at least the smallest capacity. -/
def Spacious (s : Socks5) : Prop :=
  configMinBuffer ≤ s.readBuffer.limit ∧ configMinBuffer ≤ s.writeBuffer.limit

theorem accepted_stage {s : Socks5} (accepted : Accepted s) :
    Spacious s ∧ Stage s [] := by
  obtain ⟨config, clientFd, blocks, old, prepared, address, made, rfl⟩ :=
    accepted
  obtain ⟨rawRead, rawWrite, readBlock, writeBlock, rfl⟩ := prepare_eq made
  refine ⟨⟨le_wantedSize config, le_wantedSize config⟩, ⟨_, ?_, rfl⟩, ?_⟩
  · exact ⟨List.length_replicate, List.length_replicate⟩
  · exact ⟨rfl, rfl, [], rfl, rfl⟩

/-- The calls that the gate guards. -/
def Call.guarded : Call → Prop
  | .requestParserConsume | .dnsResolveAsync .. | .startConnection
  | .connect .. => True
  | _ => False

/-- The octets sent so far begin a reply whose method the client offered, or
which refuses all its methods. -/
def MethodSent (fd : Fd) (t : List Call) : Prop :=
  sentTo fd t = [] ∨
    ∃ authRequired methods rest, methods.length ≤ 255 ∧
      receivedFrom fd t = helloMessage methods ++ rest ∧
      (sentTo fd t).take 2 <+: [0x05, methodFor authRequired methods]

theorem Negotiated.methodSent {fd : Fd} {t : List Call} {authRequired : Bool}
    {methods rest : List UInt8} {method : UInt8}
    (negotiated : Negotiated fd t authRequired methods rest method)
    (sent : (sentTo fd t).take 2 <+: [0x05, method]) : MethodSent fd t :=
  .inr ⟨authRequired, methods, rest, negotiated.small, negotiated.received,
    negotiated.choice ▸ sent⟩

theorem MethodSent.extend {fd : Fd} {t more : List Call}
    (sent : MethodSent fd t) (nothing : sentTo fd more = []) :
    MethodSent fd (t ++ more) := by
  rcases sent with none | ⟨authRequired, methods, rest, small, received, sent⟩
  · exact .inl (by rw [sentTo_append, none, nothing]; rfl)
  · refine .inr ⟨authRequired, methods, rest ++ receivedFrom fd more,
      small, ?_, ?_⟩
    · rw [receivedFrom_append, received, List.append_assoc]
    · rwa [sentTo_append, nothing, List.append_nil]

private theorem take_two {first second : UInt8} {octets : List UInt8}
    (start : [first, second] <+: octets) : octets.take 2 = [first, second] :=
  (List.prefix_iff_eq_take.mp start).symm

theorem Passed.methodSent {fd : Fd} {t : List Call} (passed : Passed fd t) :
    MethodSent fd t := by
  cases passed with
  | noAuth negotiated offered sent =>
      exact negotiated.methodSent (by rw [take_two sent])
  | userpass negotiated offered validUser validPass checked sent =>
      have short : [0x05, methodUserpass] <+: sentTo fd t :=
        List.IsPrefix.trans (by simp) sent
      exact negotiated.methodSent (by rw [take_two short])

structure Guarded (fd : Fd) (t calls : List Call) : Prop where
  gate : ∀ before gate after, calls = before ++ gate :: after → gate.guarded →
    Passed fd (t ++ before)
  method : ∀ before after, calls = before ++ after → MethodSent fd (t ++ before)

theorem Guarded.of_passed {fd : Fd} {t calls : List Call} (passed : Passed fd t)
    (quiet : negotiations calls = []) : Guarded fd t calls where
  gate before gate after split _ := by
    apply passed.extend
    rw [split, negotiations_append] at quiet
    exact (List.append_eq_nil_iff.mp quiet).1
  method before after split := by
    refine (passed.extend ?_).methodSent
    rw [split, negotiations_append] at quiet
    exact (List.append_eq_nil_iff.mp quiet).1

theorem Guarded.of_unsent {fd : Fd} {t calls : List Call}
    (sent : MethodSent fd t) (nothing : sentTo fd calls = [])
    (free : ∀ made ∈ calls, ¬ made.guarded) : Guarded fd t calls where
  gate before gate after split guarded := by
    exact absurd guarded (free gate (by simp [split]))
  method before after split := by
    apply sent.extend
    rw [split, sentTo_append] at nothing
    exact (List.append_eq_nil_iff.mp nothing).1

theorem Guarded.of_single {fd : Fd} {t : List Call} {made : Call}
    (before : MethodSent fd t) (after : MethodSent fd (t ++ [made]))
    (free : ¬ made.guarded) : Guarded fd t [made] where
  gate earlier gate later split guarded := by
    have member : gate ∈ [made] := by simp [split]
    exact absurd guarded (List.mem_singleton.mp member ▸ free)
  method earlier later split := by
    rcases List.append_eq_singleton_iff.mp split.symm with ⟨rfl, -⟩ | ⟨rfl, -⟩
    · simpa using before
    · exact after

/-- The result of a handler that was called in the context `c` after the calls
`t`, once the engine has entered the state that the handler returned. -/
structure Advances (t : List Call) (c : Ctx) (result : Ctx × SocksState) :
    Prop where
  stage : Stage { result.1.s with current := some result.2 }
    (t ++ result.1.calls)
  guarded : Guarded c.s.clientFd t result.1.calls
  frame : result.1.s.clientFd = c.s.clientFd ∧
    result.1.s.readBuffer.limit = c.s.readBuffer.limit ∧
    result.1.s.writeBuffer.limit = c.s.writeBuffer.limit

private theorem stage_of_passed {s : Socks5} {t : List Call}
    (settled : s.state.negotiating = false) (passed : Passed s.clientFd t) :
    Stage s t := by
  unfold Stage
  split <;> first | exact passed | exact passed.once | skip
  all_goals
    rename_i st
    rw [st] at settled
    cases settled

private theorem settled_advances {t : List Call} {c : Ctx}
    {result : Ctx × SocksState} (called : c.calls = [])
    (passed : Passed c.s.clientFd t) (extended : Extends c result.1)
    (settled : result.2.negotiating = false) : Advances t c result := by
  obtain ⟨more, calls, quiet⟩ := extended.calls
  rw [called, List.nil_append] at calls
  refine ⟨stage_of_passed settled ?_, ?_, extended.clientFd, extended.readLimit,
    extended.writeLimit⟩
  · change Passed result.1.s.clientFd _
    rw [extended.clientFd, calls]
    exact passed.extend quiet
  · rw [calls]
    exact .of_passed passed quiet

structure Idle (fd : Fd) (calls : List Call) : Prop where
  received : receivedFrom fd calls = []
  sent : sentTo fd calls = []
  negotiated : negotiations calls = []

private theorem negotiated_idle {fd : Fd} {t more : List Call}
    {authRequired : Bool} {methods rest : List UInt8} {method : UInt8}
    (negotiated : Negotiated fd t authRequired methods rest method)
    (idle : Idle fd more) :
    Negotiated fd (t ++ more) authRequired methods rest method := by
  have extended := negotiated.extend more idle.negotiated
  rwa [idle.received, List.append_nil] at extended

private theorem stage_idle {s : Socks5} {t more : List Call} (stage : Stage s t)
    (idle : Idle s.clientFd more) : Stage s (t ++ more) := by
  have unsent : sentTo s.clientFd (t ++ more) = sentTo s.clientFd t := by
    rw [sentTo_append, idle.sent, List.append_nil]
  unfold Stage at *
  split <;> rename_i st <;> simp only [st] at stage
  · obtain ⟨fresh, pending⟩ := stage
    obtain ⟨consumed, received, fed⟩ := pending.fed
    refine ⟨fresh, ?_, unsent.trans pending.sent, consumed, ?_, fed⟩
    · rw [negotiations_append, pending.chosen, idle.negotiated]
      rfl
    · rw [receivedFrom_append, received, idle.received, List.append_nil]
  · obtain ⟨fresh, ⟨authRequired, methods, negotiated⟩, reply⟩ := stage
    exact ⟨fresh, ⟨authRequired, methods, negotiated_idle negotiated idle⟩,
      unsent ▸ reply⟩
  · obtain ⟨⟨authRequired, methods, consumed, fresh, negotiated, fed⟩, sent⟩ :=
      stage
    exact ⟨⟨authRequired, methods, consumed, fresh,
      negotiated_idle negotiated idle, fed⟩, unsent.trans sent⟩
  · obtain ⟨⟨authRequired, methods, user, pass, negotiated,
      validUser, validPass, checked⟩, reply⟩ := stage
    exact ⟨⟨authRequired, methods, user, pass, negotiated_idle negotiated idle,
      validUser, validPass, List.mem_append_left _ checked⟩, unsent ▸ reply⟩
  · rwa [negotiations_append, idle.negotiated, List.append_nil]
  · rwa [negotiations_append, idle.negotiated, List.append_nil]
  · exact stage.extend idle.negotiated

private theorem advances_plain {t calls : List Call} {c made : Ctx}
    {next : SocksState} (trace : made.calls = calls)
    (stage : Stage { made.s with current := some next } (t ++ calls))
    (guarded : Guarded c.s.clientFd t calls)
    (frame : made.s.clientFd = c.s.clientFd ∧
      made.s.readBuffer.limit = c.s.readBuffer.limit ∧
      made.s.writeBuffer.limit = c.s.writeBuffer.limit) :
    Advances t c (made, next) := by
  subst trace
  exact ⟨stage, guarded, frame⟩

private theorem advances_interest {t calls : List Call} {c made : Ctx}
    {i : Interest} {next : SocksState} (trace : made.calls = calls)
    (stage : Stage { made.s with current := some next } (t ++ calls))
    (guarded : Guarded c.s.clientFd t calls)
    (frame : made.s.clientFd = c.s.clientFd ∧
      made.s.readBuffer.limit = c.s.readBuffer.limit ∧
      made.s.writeBuffer.limit = c.s.writeBuffer.limit) :
    Advances t c (setInterestOrFail made i next) := by
  subst trace
  refine ⟨?_, ?_, ?_⟩
  · rw [setInterestOrFail_s, setInterestOrFail_calls]
    rcases setInterestOrFail_next made i next with same | same
    · rw [same]
      exact stage
    · rw [same]
      exact stage.once
  · rwa [setInterestOrFail_calls]
  · rwa [setInterestOrFail_s]

private theorem trace_single {calls : List Call} (called : calls = [])
    (made : Call) : calls ++ [made] = [made] := by
  rw [called]
  rfl

private theorem trace_pair {calls : List Call} (called : calls = [])
    (first second : Call) : calls ++ [first] ++ [second] = [first, second] := by
  rw [called]
  rfl

private theorem received_single (fd : Fd) (octets : List UInt8) :
    receivedFrom fd [.recv fd octets] = octets := by
  simp [receivedFrom]

private theorem sent_single (fd : Fd) (octets : List UInt8) :
    sentTo fd [.send fd octets] = octets := by
  simp [sentTo]

private theorem advances_idle {t : List Call} {c : Ctx} {made : Call}
    {next : SocksState} (called : c.calls = []) (stage : Stage c.s t)
    (sent : MethodSent c.s.clientFd t) (idle : Idle c.s.clientFd [made])
    (free : ¬ made.guarded)
    (same : c.s.current = some next ∨ next = .errorState) :
    Advances t c (c.call made, next) := by
  refine advances_plain (trace_single called made) ?_
    (.of_unsent sent idle.sent ?_) ⟨rfl, rfl, rfl⟩
  · rcases same with same | rfl
    · have kept : { c.s with current := some next } = c.s := by rw [← same]
      rw [Ctx.call_s, kept]
      exact stage_idle stage idle
    · exact (stage_idle stage idle).once
  · intro other member
    exact List.mem_singleton.mp member ▸ free

private theorem two_le_limit {b : Buffer} {first second : UInt8}
    (room : configMinBuffer ≤ b.limit) : [first, second].length ≤ b.limit :=
  Nat.le_trans (by simp [configMinBuffer]) room

private theorem helloPending_extend {fd : Fd} {hello next : HelloParser}
    {readable octets : List UInt8} {t : List Call}
    (pending : HelloPending fd hello readable t)
    (scanned : scan helloParserFeed HelloParser.finished hello
      (readable ++ octets) = (next, [], false)) :
    HelloPending fd next [] (t ++ [.recv fd octets]) := by
  obtain ⟨consumed, received, fed⟩ := pending.fed
  refine ⟨?_, ?_, consumed ++ (readable ++ octets), ?_, ?_⟩
  · rw [negotiations_append, pending.chosen]
    rfl
  · rw [sentTo_append, pending.sent]
    rfl
  · rw [receivedFrom_append, received, received_single]
    simp
  · rw [scan_append_more fed]
    exact scanned

private theorem helloRead_advances {t : List Call} {c : Ctx}
    {result : Ctx × SocksState} (called : c.calls = [])
    (state : c.s.current = some .helloRead) (fresh : AuthFresh c.s.auth)
    (pending : HelloPending c.s.clientFd c.s.hello c.s.readBuffer.content t)
    (room : configMinBuffer ≤ c.s.writeBuffer.limit)
    (effect : ReadEffect helloParserFeed HelloParser.finished c.s.hello
      (fun c hello buffer =>
        { c with s := { c.s with hello := hello, readBuffer := buffer } })
      .helloRead helloCompleted c result) : Advances t c result := by
  have sent : MethodSent c.s.clientFd t := .inl pending.sent
  have stage : Stage c.s t := by
    unfold Stage Socks5.state
    rw [state]
    exact ⟨fresh, pending⟩
  cases effect with
  | again e =>
      exact advances_idle called stage sent ⟨rfl, rfl, rfl⟩ id (.inl state)
  | failed e =>
      exact advances_idle called stage sent ⟨rfl, rfl, rfl⟩ id (.inr rfl)
  | closed =>
      exact advances_idle called stage sent
        ⟨received_single c.s.clientFd [], rfl, rfl⟩ id (.inr rfl)
  | @partly octets next buffer some fits scanned content limit =>
      refine advances_plain (trace_single called _) ⟨fresh, ?_⟩
        (.of_unsent sent rfl (by simp [Call.guarded])) ⟨rfl, limit, rfl⟩
      change HelloPending c.s.clientFd next buffer.content _
      rw [content]
      exact helloPending_extend pending scanned
  | @completed octets rest next buffer some fits scanned content limit =>
      unfold helloCompleted
      dsimp only
      split
      next failed =>
        have once : (negotiations (t ++ [.recv c.s.clientFd octets])).length ≤
            1 := by
          rw [negotiations_append, pending.chosen]
          exact Nat.zero_le 1
        exact advances_plain (trace_single called _) once
          (.of_unsent sent rfl (by simp [Call.guarded])) ⟨rfl, limit, rfl⟩
      next parsed =>
        obtain ⟨consumed, received, fed⟩ := pending.fed
        have whole := (scan_append_more fed).trans scanned
        have stopped := scan_stopped rfl whole
        have accepted : next.state = .done := by
          simpa [HelloParser.finished, parsed] using stopped
        obtain ⟨methods, small, stream, noauth, userpass⟩ :=
          helloMessage_of_scan whole accepted
        let method := chooseMethod c.env.config { c.s with hello := next }
        have choice : method = methodFor c.env.config.authRequired methods := by
          simp [method, chooseMethod, methodFor, noauth, userpass]
        refine advances_interest (trace_pair called _
          (.chooseMethod c.env.config.authRequired method))
          ⟨fresh, ⟨_, methods, small, ?_, ?_, choice⟩, ?_⟩
            (.of_unsent sent rfl (by simp [Call.guarded])) ⟨rfl, limit, ?_⟩
        · change receivedFrom c.s.clientFd _ = helloMessage methods ++
            buffer.content
          rw [receivedFrom_append, received, content, ← stream]
          simp [receivedFrom]
        · rw [negotiations_append, pending.chosen]
          rfl
        · change sentTo c.s.clientFd _ ++
            (bufferWriteAll (bufferReset c.s.writeBuffer)
              [0x05, method]).content = _
          rw [sentTo_append, pending.sent,
            Buffer.content_writeAll_reset (two_le_limit room)]
          rfl
        · exact (Buffer.limit_writeAll ..).trans (Buffer.limit_reset _)

private theorem helloReply_send {fd : Fd} {method : UInt8}
    {readable unsent accepted rest : List UInt8} {t : List Call}
    (reply : HelloReply fd method readable unsent t)
    (split : unsent = accepted ++ rest) :
    HelloReply fd method readable rest (t ++ [.send fd accepted]) where
  negotiated := by
    obtain ⟨authRequired, methods, negotiated⟩ := reply.negotiated
    have extended := negotiated.extend [.send fd accepted] rfl
    rw [show receivedFrom fd [.send fd accepted] = [] from rfl,
      List.append_nil] at extended
    exact ⟨authRequired, methods, extended⟩
  reply := by
    rw [sentTo_append, sent_single, List.append_assoc, ← split]
    exact reply.reply

private theorem HelloReply.methodSent {fd : Fd} {method : UInt8}
    {readable unsent : List UInt8} {t : List Call}
    (reply : HelloReply fd method readable unsent t) : MethodSent fd t := by
  obtain ⟨authRequired, methods, negotiated⟩ := reply.negotiated
  apply negotiated.methodSent
  refine (List.take_prefix _ _).trans ?_
  rw [← reply.reply]
  exact List.prefix_append _ _

private theorem helloWrite_advances {t : List Call} {c : Ctx}
    {result : Ctx × SocksState} (called : c.calls = [])
    (state : c.s.current = some .helloWrite) (fresh : AuthFresh c.s.auth)
    (reply : HelloReply c.s.clientFd c.s.method c.s.readBuffer.content
      c.s.writeBuffer.content t)
    (effect : WriteEffect .helloWrite
      (fun c =>
        if c.s.method = methodNone then (c, .done)
        else
          setInterestOrFail c opRead
            (if c.s.method = methodUserpass then .authRead else .requestRead))
      c result) : Advances t c result := by
  have sent := reply.methodSent
  have stage : Stage c.s t := by
    unfold Stage Socks5.state
    rw [state]
    exact ⟨fresh, reply⟩
  cases effect with
  | again e =>
      exact advances_idle called stage sent ⟨rfl, rfl, rfl⟩ id (.inl state)
  | failed e =>
      exact advances_idle called stage sent ⟨rfl, rfl, rfl⟩ id (.inr rfl)
  | @partly accepted rest buffer split content remains limit =>
      have next := helloReply_send reply split
      refine advances_plain (trace_single called _) ⟨fresh, ?_⟩
        (.of_single sent next.methodSent id) ⟨rfl, rfl, limit⟩
      change HelloReply c.s.clientFd c.s.method _ buffer.content _
      rw [content]
      exact next
  | @flushed buffer content limit =>
      have next := helloReply_send reply (List.append_nil _).symm
      have guarded : Guarded c.s.clientFd t
          [.send c.s.clientFd c.s.writeBuffer.content] :=
        .of_single sent next.methodSent id
      have whole := next.reply
      rw [List.append_nil] at whole
      obtain ⟨authRequired, methods, negotiated⟩ := next.negotiated
      dsimp only
      split
      next refused =>
        exact advances_plain (trace_single called _) negotiated.once guarded
          ⟨rfl, rfl, limit⟩
      next chosen =>
        have choice : c.s.method = methodFor authRequired methods :=
          negotiated.choice
        refine advances_interest (trace_single called _) ?_ guarded
          ⟨rfl, rfl, limit⟩
        split
        next userpass =>
          change c.s.method = methodUserpass at userpass
          rw [userpass] at negotiated whole
          obtain ⟨parser, roomy, same⟩ := fresh
          exact ⟨⟨authRequired, methods, [], parser, negotiated, roomy,
            by rw [same]; rfl⟩, whole⟩
        next other =>
          obtain ⟨free, same, offered⟩ :=
            methodFor_noAuth (choice ▸ chosen) (choice ▸ other)
          rw [choice, same] at negotiated whole
          rw [free] at negotiated
          exact .noAuth negotiated offered (by rw [whole])

private theorem AuthPending.methodSent {fd : Fd} {auth : AuthParser}
    {readable : List UInt8} {t : List Call}
    (pending : AuthPending fd auth readable t) : MethodSent fd t := by
  obtain ⟨authRequired, methods, consumed, fresh, negotiated, -, -⟩ :=
    pending.fed
  exact negotiated.methodSent (by rw [pending.sent]; rfl)

private theorem authPending_extend {fd : Fd} {auth next : AuthParser}
    {readable octets : List UInt8} {t : List Call}
    (pending : AuthPending fd auth readable t)
    (scanned : scan authParserFeed AuthParser.finished auth
      (readable ++ octets) = (next, [], false)) :
    AuthPending fd next [] (t ++ [.recv fd octets]) := by
  obtain ⟨authRequired, methods, consumed, fresh, negotiated, roomy, fed⟩ :=
    pending.fed
  have extended := negotiated.extend [.recv fd octets] rfl
  rw [received_single, List.append_assoc] at extended
  refine ⟨⟨authRequired, methods, consumed ++ (readable ++ octets), fresh, ?_,
    roomy, ?_⟩, ?_⟩
  · rwa [List.append_nil]
  · rw [scan_append_more fed]
    exact scanned
  · rw [sentTo_append, pending.sent]
    rfl

private theorem authPending_complete {fd : Fd} {auth next : AuthParser}
    {readable octets rest : List UInt8} {t : List Call} {ok : Bool}
    {b : Buffer} (pending : AuthPending fd auth readable t)
    (scanned : scan authParserFeed AuthParser.finished auth
      (readable ++ octets) = (next, rest, true))
    (parsed : next.state ≠ .error) (room : configMinBuffer ≤ b.limit) :
    AuthReply fd ok rest
      (bufferWriteAll (bufferReset b) [0x01, if ok then 0x00 else 0x01]).content
      (t ++ [.recv fd octets, .usersCheck (.ofArray next.username)
        (.ofArray next.password) ok]) := by
  obtain ⟨authRequired, methods, consumed, fresh, negotiated, roomy, fed⟩ :=
    pending.fed
  have whole := (scan_append_more fed).trans scanned
  have stopped := scan_stopped rfl whole
  have accepted : next.state = .done := by
    simpa [AuthParser.finished, parsed] using stopped
  obtain ⟨user, pass, validUser, validPass, stream, sameUser, samePass⟩ :=
    authMessage_of_scan roomy whole accepted
  let made : List Call := [.recv fd octets, .usersCheck (.ofArray next.username)
    (.ofArray next.password) ok]
  have extended := negotiated.extend made rfl
  have received : receivedFrom fd made = octets := by
    simp [made, receivedFrom]
  rw [received, List.append_assoc, stream] at extended
  refine ⟨⟨authRequired, methods, user, pass, extended, validUser,
    validPass, ?_⟩, ?_⟩
  · rw [sameUser, samePass]
    simp
  · rw [sentTo_append, pending.sent,
      Buffer.content_writeAll_reset (two_le_limit room)]
    rfl

private theorem authRead_advances {t : List Call} {c : Ctx}
    {result : Ctx × SocksState} (called : c.calls = [])
    (state : c.s.current = some .authRead)
    (pending : AuthPending c.s.clientFd c.s.auth c.s.readBuffer.content t)
    (room : configMinBuffer ≤ c.s.writeBuffer.limit)
    (effect : ReadEffect authParserFeed AuthParser.finished c.s.auth
      (fun c auth buffer =>
        { c with s := { c.s with auth := auth, readBuffer := buffer } })
      .authRead authCompleted c result) : Advances t c result := by
  have sent := pending.methodSent
  have stage : Stage c.s t := by
    unfold Stage Socks5.state
    rw [state]
    exact pending
  cases effect with
  | again e =>
      exact advances_idle called stage sent ⟨rfl, rfl, rfl⟩ id (.inl state)
  | failed e =>
      exact advances_idle called stage sent ⟨rfl, rfl, rfl⟩ id (.inr rfl)
  | closed =>
      exact advances_idle called stage sent
        ⟨received_single c.s.clientFd [], rfl, rfl⟩ id (.inr rfl)
  | @partly octets next buffer some fits scanned content limit =>
      refine advances_plain (trace_single called _) ?_
        (.of_unsent sent rfl (by simp [Call.guarded])) ⟨rfl, limit, rfl⟩
      change AuthPending c.s.clientFd next buffer.content _
      rw [content]
      exact authPending_extend pending scanned
  | @completed octets rest next buffer some fits scanned content limit =>
      unfold authCompleted
      dsimp only
      split
      next failed =>
        have once : (negotiations (t ++ [.recv c.s.clientFd octets])).length ≤
            1 := by
          rw [negotiations_append]
          exact (List.append_nil (negotiations t)).symm ▸ stage.once
        exact advances_plain (trace_single called _) once
          (.of_unsent sent rfl (by simp [Call.guarded])) ⟨rfl, limit, rfl⟩
      next parsed =>
        refine advances_interest (trace_pair called _ _) ?_
          (.of_unsent sent rfl (by simp [Call.guarded])) ⟨rfl, limit, ?_⟩
        · subst content
          exact authPending_complete pending scanned parsed room
        · exact (Buffer.limit_writeAll ..).trans (Buffer.limit_reset _)

private theorem authReply_send {fd : Fd} {ok : Bool}
    {readable unsent accepted rest : List UInt8} {t : List Call}
    (reply : AuthReply fd ok readable unsent t)
    (split : unsent = accepted ++ rest) :
    AuthReply fd ok readable rest (t ++ [.send fd accepted]) where
  checked := by
    obtain ⟨authRequired, methods, user, pass, negotiated, validUser, validPass,
      checked⟩ := reply.checked
    have extended := negotiated.extend [.send fd accepted] rfl
    rw [show receivedFrom fd [.send fd accepted] = [] from rfl,
      List.append_nil] at extended
    exact ⟨authRequired, methods, user, pass, extended, validUser, validPass,
      List.mem_append_left _ checked⟩
  reply := by
    rw [sentTo_append, sent_single, List.append_assoc, ← split]
    exact reply.reply

private theorem AuthReply.methodSent {fd : Fd} {ok : Bool}
    {readable unsent : List UInt8} {t : List Call}
    (reply : AuthReply fd ok readable unsent t) : MethodSent fd t := by
  obtain ⟨authRequired, methods, user, pass, negotiated, -, -, -⟩ :=
    reply.checked
  have start : sentTo fd t <+:
      [0x05, methodUserpass, 0x01, if ok then 0x00 else 0x01] := by
    rw [← reply.reply]
    exact List.prefix_append _ _
  exact negotiated.methodSent (start.take 2)

private theorem authWrite_advances {t : List Call} {c : Ctx}
    {result : Ctx × SocksState} (called : c.calls = [])
    (state : c.s.current = some .authWrite)
    (reply : AuthReply c.s.clientFd c.s.authOk c.s.readBuffer.content
      c.s.writeBuffer.content t)
    (effect : WriteEffect .authWrite
      (fun c =>
        if !c.s.authOk then (c, .done)
        else setInterestOrFail c opRead .requestRead)
      c result) : Advances t c result := by
  have sent := reply.methodSent
  have stage : Stage c.s t := by
    unfold Stage Socks5.state
    rw [state]
    exact reply
  cases effect with
  | again e =>
      exact advances_idle called stage sent ⟨rfl, rfl, rfl⟩ id (.inl state)
  | failed e =>
      exact advances_idle called stage sent ⟨rfl, rfl, rfl⟩ id (.inr rfl)
  | @partly accepted rest buffer split content remains limit =>
      have next := authReply_send reply split
      refine advances_plain (trace_single called _) ?_
        (.of_single sent next.methodSent id) ⟨rfl, rfl, limit⟩
      change AuthReply c.s.clientFd c.s.authOk _ buffer.content _
      rw [content]
      exact next
  | @flushed buffer content limit =>
      have next := authReply_send reply (List.append_nil _).symm
      have guarded : Guarded c.s.clientFd t
          [.send c.s.clientFd c.s.writeBuffer.content] :=
        .of_single sent next.methodSent id
      dsimp only
      split
      next refused =>
        obtain ⟨authRequired, methods, user, pass, negotiated, -⟩ :=
          next.checked
        exact advances_plain (trace_single called _) negotiated.once guarded
          ⟨rfl, rfl, limit⟩
      next accepted =>
        refine advances_interest (trace_single called _) ?_ guarded
          ⟨rfl, rfl, limit⟩
        have ok : c.s.authOk = true := by simpa using accepted
        have whole := next.reply
        rw [ok, List.append_nil] at whole
        obtain ⟨authRequired, methods, user, pass, negotiated, validUser,
          validPass, checked⟩ := next.checked
        have offered : methodUserpass ∈ methods := by
          have chosen := methodFor_offered authRequired methods
          rw [← negotiated.choice] at chosen
          exact chosen.resolve_right (by decide)
        exact .userpass negotiated offered validUser validPass (ok ▸ checked)
          (by rw [whole]; exact List.prefix_rfl)

theorem handler_advances {kind : EventKind} {key : Key} {a : Answers} {c : Ctx}
    {t : List Call} {handler : Handler} {result : Ctx × SocksState}
    (called : c.calls = []) (entered : c.s.current = some c.s.state)
    (spacious : Spacious c.s) (stage : Stage c.s t)
    (serves : Serves c.s.state kind handler)
    (ran : handler key a c = some result) : Advances t c result := by
  unfold Stage at stage
  cases st : c.s.state <;> rw [st] at serves entered <;> simp only [st] at stage
  case helloRead =>
    cases serves
    exact eq_of_total ran ▸ helloRead_advances called entered stage.1 stage.2
      spacious.2 (helloRead_effect key a c)
  case helloWrite =>
    cases serves
    exact eq_of_total ran ▸ helloWrite_advances called entered stage.1 stage.2
      (helloWrite_effect key a c)
  case authRead =>
    cases serves
    exact eq_of_total ran ▸ authRead_advances called entered stage spacious.2
      (authRead_effect key a c)
  case authWrite =>
    cases serves
    exact eq_of_total ran ▸ authWrite_advances called entered stage
      (authWrite_effect key a c)
  case done => cases serves
  case errorState => cases serves
  all_goals
    have settled := settled_frame rfl serves ran
    exact settled_advances called stage settled.1 settled.2

private theorem stage_jump {key : Key} {a : Answers} {next : SocksState}
    {middle : Ctx} {t : List Call}
    (stage : Stage { middle.s with current := some next } t) :
    Stage (jump key a next middle).s t := by
  rw [jump_s]
  split
  next stays =>
    have kept : { middle.s with current := some next } = middle.s := by
      rw [← stays]
    exact kept ▸ stage
  next => cases next <;> exact stage

private theorem stage_closes {s : Socks5} {t : List Call} {references : Nat}
    (stage : Stage s t) : Stage { s with references := references } t := stage

structure Progress (fd : Fd) (s : Socks5) (t : List Call) : Prop where
  clientFd : s.clientFd = fd
  spacious : Spacious s
  stage : Stage s t
  guarded : Guarded fd [] t

theorem Guarded.append {fd : Fd} {t calls : List Call}
    (before : Guarded fd [] t) (after : Guarded fd t calls) :
    Guarded fd [] (t ++ calls) where
  gate earlier gate later split guarded := by
    rcases List.append_eq_append_iff.mp split with
      ⟨rest, rfl, tail⟩ | ⟨rest, whole, tail⟩
    · exact after.gate rest gate later tail guarded
    · cases rest with
      | nil =>
          rw [List.append_nil] at whole
          rw [← whole]
          simpa using after.gate [] gate later tail.symm guarded
      | cons first rest =>
          rw [List.cons_append, List.cons.injEq] at tail
          obtain ⟨rfl, -⟩ := tail
          exact before.gate earlier gate rest whole guarded
  method earlier later split := by
    rcases List.append_eq_append_iff.mp split with
      ⟨rest, rfl, tail⟩ | ⟨rest, whole, tail⟩
    · exact after.method rest later tail
    · exact before.method earlier rest whole

theorem Guarded.methodSent {fd : Fd} {t : List Call}
    (guarded : Guarded fd [] t) :
    MethodSent fd t := guarded.method t [] (List.append_nil t).symm

theorem Progress.step {p : Ptr} {fd : Fd} {s next : Socks5}
    {t calls : List Call} (progress : Progress fd s t)
    (step : ConnectionStep p s calls next) :
    Progress fd next (t ++ calls) := by
  obtain ⟨rfl, spacious, stage, guarded⟩ := progress
  cases step with
  | resolved answer =>
      rw [List.append_nil]
      exact ⟨rfl, spacious, stage, guarded⟩
  | @handled kind fd a env after hosts runs =>
      obtain ⟨middle, next, handled⟩ := handled_of_handler runs
      obtain ⟨handler, serves, ran⟩ := handled.runs
      have advances := handler_advances (c := Ctx.started ⟨env, s, [], false⟩)
        (t := t) rfl rfl spacious stage serves ran
      have jumped := (extends_jump ⟨fd, p⟩ a next middle).trans
        handled.closes.extends
      have calls : after.calls = middle.calls :=
        handled.closes.calls.trans (jump_calls ..)
      obtain ⟨clientFd, readLimit, writeLimit⟩ := advances.frame
      obtain ⟨references, object⟩ := handled.closes.object
      refine ⟨jumped.clientFd.trans clientFd, ⟨?_, ?_⟩, ?_, ?_⟩
      · rw [jumped.readLimit, readLimit]
        exact spacious.1
      · rw [jumped.writeLimit, writeLimit]
        exact spacious.2
      · rw [calls, object]
        exact stage_closes (stage_jump advances.stage)
      · rw [calls]
        exact guarded.append advances.guarded

theorem progress_of_run {p : Ptr} {first s : Socks5} {labels : List (List Call)}
    (accepted : Accepted first) (run : (connection p).Run first labels s) :
    Progress first.clientFd s labels.flatten := by
  have preserved : ∀ {labels s calls next},
      Progress first.clientFd s (labels : List (List Call)).flatten →
      (connection p).step s calls next →
        Progress first.clientFd next (labels ++ [calls]).flatten := by
    intro labels s calls next progress step
    rw [List.flatten_append, List.flatten_singleton]
    exact progress.step step
  refine run.history @preserved ?_
  obtain ⟨spacious, stage⟩ := accepted_stage accepted
  refine ⟨rfl, spacious, stage, ?_, ?_⟩
  · intro before gate after split
    simp at split
  · intro before after split
    obtain ⟨rfl, -⟩ := List.append_eq_nil_iff.mp split.symm
    exact .inl rfl

end SocksProxy
