import SocksProxy.Socks5.Sniffing
import SocksProxy.Socks5.Wiring

/-! Requests that are refused: the reply code that each deserves, the one that
is sent, and what becomes of the connection. -/

namespace SocksProxy

open Scanner Transition

def KnownAddressType (atyp : UInt8) : Prop :=
  atyp = atypIpv4 ∨ atyp = atypIpv6 ∨ atyp = atypDomain

instance (atyp : UInt8) : Decidable (KnownAddressType atyp) :=
  inferInstanceAs (Decidable (_ ∨ _ ∨ _))

/-- The streams that are to be refused, with the code for each. -/
inductive Refusal : List UInt8 → UInt8 → Prop
  | command (r : SocksRequest) (other : r.cmd ≠ cmdConnect)
      (rest : List UInt8) : Refusal (r.encode ++ rest) repCommandNotSupported
  | addressType {atyp : UInt8} (unknown : ¬ KnownAddressType atyp)
      (rest : List UInt8) :
      Refusal (0x05 :: cmdConnect :: 0x00 :: atyp :: rest) repAtypNotSupported
  | version {version : UInt8} (other : version ≠ 0x05) (rest : List UInt8) :
      Refusal (version :: rest) repGeneralFailure
  | reserved {cmd rsv : UInt8} (nonzero : rsv ≠ 0x00) (rest : List UInt8) :
      Refusal (0x05 :: cmd :: rsv :: rest) repGeneralFailure
  | emptyName {cmd : UInt8} (rest : List UInt8) :
      Refusal (0x05 :: cmd :: 0x00 :: atypDomain :: 0x00 :: rest)
        repGeneralFailure
  | otherAddressType {cmd atyp : UInt8} (other : cmd ≠ cmdConnect)
      (unknown : ¬ KnownAddressType atyp) (rest : List UInt8) :
      Refusal (0x05 :: cmd :: 0x00 :: atyp :: rest) repGeneralFailure

/-- A CONNECT request whose address type is none of the three. -/
def AsksUnknownAddressType (stream : List UInt8) : Prop :=
  ∃ atyp rest, stream = 0x05 :: cmdConnect :: 0x00 :: atyp :: rest ∧
    ¬ KnownAddressType atyp

theorem SocksRequest.known (r : SocksRequest) : KnownAddressType r.atyp := by
  rcases r.sized with ⟨same, -⟩ | ⟨same, -⟩ | ⟨same, -⟩
  · exact .inl same
  · exact .inr (.inl same)
  · exact .inr (.inr same)

theorem Refusal.asks_iff {stream : List UInt8} {code : UInt8}
    (refusal : Refusal stream code) :
    AsksUnknownAddressType stream ↔ code = repAtypNotSupported := by
  constructor
  · rintro ⟨atyp, rest, same, unknown⟩
    cases refusal with
    | command r other more =>
        have heads : r.atyp = atyp := by
          simp [SocksRequest.encode] at same
          exact same.2.1
        exact absurd (heads ▸ r.known) unknown
    | addressType => rfl
    | version other =>
        rw [List.cons.injEq] at same
        exact absurd same.1 other
    | reserved nonzero =>
        simp only [List.cons.injEq, true_and] at same
        exact absurd same.2.1 nonzero
    | emptyName =>
        simp only [List.cons.injEq, true_and] at same
        exact absurd (.inr (.inr same.2.1.symm)) unknown
    | otherAddressType other =>
        simp only [List.cons.injEq, true_and] at same
        exact absurd same.1 other
  · rintro rfl
    generalize named : repAtypNotSupported = code at refusal
    cases refusal with
    | addressType unknown rest => exact ⟨_, rest, rfl, unknown⟩
    | _ => cases named

structure RequestParser.Refuses (q : RequestParser) (code : UInt8) : Prop where
  command : code = repCommandNotSupported → q.state = .done ∧ q.cmd ≠ cmdConnect
  failed : code ≠ repCommandNotSupported → q.state = .error

private theorem refuses_failed {q : RequestParser} {code : UInt8}
    (failed : q.state = .error) (other : code ≠ repCommandNotSupported) :
    q.Refuses code :=
  ⟨fun same => absurd same other, fun _ => failed⟩

private theorem scan_address_type {p : RequestParser} {cmd atyp : UInt8}
    (unknown : ¬ KnownAddressType atyp) (rest : List UInt8) :
    ∃ q, scan requestParserFeed RequestParser.finished (requestParserInit p)
        (0x05 :: cmd :: 0x00 :: atyp :: rest) = (q, rest, true) ∧
        q.state = .error := by
  obtain ⟨notIpv4, notIpv6, notDomain⟩ : atyp ≠ atypIpv4 ∧ atyp ≠ atypIpv6 ∧
      atyp ≠ atypDomain := by
    simpa only [KnownAddressType, not_or] using unknown
  rw [scan_cons_more (by rfl), scan_cons_more (by rfl), scan_cons_more (by rfl),
    scan_cons_stop]
  · refine ⟨_, rfl, ?_⟩
    simp [requestParserFeed, requestParserInit, notIpv4, notIpv6, notDomain]
  · simp [requestParserFeed, requestParserInit, notIpv4, notIpv6, notDomain,
      RequestParser.finished]

theorem Refusal.scanned {p : RequestParser} (roomy : p.Roomy)
    {stream : List UInt8} {code : UInt8} (refusal : Refusal stream code) :
    ∃ q rest, scan requestParserFeed RequestParser.finished
      (requestParserInit p)
      stream = (q, rest, true) ∧ q.Refuses code := by
  cases refusal with
  | command r other rest =>
      obtain ⟨q, scanned, holds⟩ := scan_socksRequest roomy r rest
      refine ⟨q, rest, scanned, fun _ => ⟨holds.state, ?_⟩, fun differs => ?_⟩
      · rwa [holds.cmd]
      · exact absurd rfl differs
  | addressType unknown rest =>
      obtain ⟨q, scanned, failed⟩ :=
        @scan_address_type p cmdConnect _ unknown rest
      exact ⟨q, rest, scanned, refuses_failed failed (by decide)⟩
  | otherAddressType _ unknown rest =>
      obtain ⟨q, scanned, failed⟩ := @scan_address_type p _ _ unknown rest
      exact ⟨q, rest, scanned, refuses_failed failed (by decide)⟩
  | version other rest =>
      rw [scan_cons_stop (by
        simp [requestParserFeed, requestParserInit, other,
          RequestParser.finished])]
      refine ⟨_, rest, rfl, refuses_failed ?_ (by decide)⟩
      simp [requestParserFeed, requestParserInit, other]
  | reserved nonzero rest =>
      rw [scan_cons_more (by rfl), scan_cons_more (by rfl), scan_cons_stop (by
        simp [requestParserFeed, requestParserInit, nonzero,
          RequestParser.finished])]
      refine ⟨_, rest, rfl, refuses_failed ?_ (by decide)⟩
      simp [requestParserFeed, requestParserInit, nonzero]
  | emptyName rest =>
      rw [scan_cons_more (by rfl), scan_cons_more (by rfl),
        scan_cons_more (by rfl),
        scan_cons_more (by rfl), scan_cons_stop (by rfl)]
      exact ⟨_, rest, rfl, refuses_failed rfl (by decide)⟩

structure Unplugged (env : Env) (fd : Fd) : Prop where
  item : env.selector.items fd = none
  socket : env.kernel.socket fd = none

private theorem unregister_unplugs {key : Key} {fd other : Fd} {c after : Ctx}
    (unregistered : selectorUnregisterFd key fd c = some after)
    (gone : other = fd ∧ Registered key.data c.env fd ∨ Unplugged c.env other) :
    Unplugged after.env other := by
  rcases unregister_freed unregistered with ⟨absent, rfl⟩ | freed
  · exact gone.resolve_left fun both => absent both.2
  · constructor
    · rw [freed.items]
      split
      next => rfl
      next apart => exact (gone.resolve_left fun both => apart both.1).item
    · rw [freed.sockets]
      split
      next => rfl
      next apart => exact (gone.resolve_left fun both => apart both.1).socket

theorem socksv5Done_unplugs {key : Key} {c after : Ctx}
    (registered : Registered key.data c.env c.s.clientFd)
    (done : socksv5Done key c = some after) :
    Unplugged after.env c.s.clientFd := by
  unfold socksv5Done at done
  obtain ⟨middle, first, second⟩ := Option.bind_eq_some_iff.mp done
  have gone := unregister_unplugs first (.inl ⟨rfl, registered⟩)
  split at second
  · exact unregister_unplugs second (.inr gone)
  · cases second
    exact gone

/-- The reply of a refusal; its address is all zeros. -/
def refusalReply (code : UInt8) : List UInt8 :=
  [0x05, code, 0x00, atypIpv4, 0, 0, 0, 0, 0, 0]

theorem Reply.encode_refusal {reply : Reply}
    (failure : reply.rep ≠ repSuccess) :
    reply.encode = refusalReply reply.rep := by
  obtain ⟨atyp, addr, high, low⟩ := reply.refusal failure
  rw [encode, atyp, addr, high, low]
  rfl

structure Declining (s : Socks5) (sent : List UInt8) (code : UInt8) : Prop where
  state : s.state = .requestWrite
  reply : s.reply = code
  whole : sent ++ s.writeBuffer.content = refusalReply code
  pending : s.writeBuffer.content ≠ []

private theorem replySent_refused {c middle : Ctx} {next : SocksState}
    (reached : (middle, next) = replySent c)
    (refused : c.s.reply ≠ repSuccess) :
    next = .done ∧ middle.env.selector = c.env.selector := by
  unfold replySent at reached
  dsimp only at reached
  split at reached
  next =>
    obtain ⟨rfl, rfl⟩ := Prod.mk.inj reached
    exact ⟨rfl, rfl⟩
  next success => exact absurd refused success

/-- A handler call either leaves a part of the refusal to send, or closes the
connection. -/
theorem Declining.handled {p : Ptr} {env : Env} {s : Socks5} {sent : List UInt8}
    {code : UInt8} {kind : EventKind} {fd : Fd} {a : Answers} {c : Ctx}
    (declining : Declining s sent code) (refused : code ≠ repSuccess)
    (hosts : Hosts p env s)
    (runs : socksv5Handler kind ⟨fd, p⟩ a ⟨env, s, [], false⟩ = some c) :
    (∀ made ∈ c.calls, ¬ made.reaching) ∧ c.s.clientFd = s.clientFd ∧
      (Declining c.s (sent ++ sentTo s.clientFd c.calls) code ∨
        c.s.state.closing ∧ Unplugged c.env s.clientFd) := by
  obtain ⟨state, reply, whole, pending⟩ := declining
  obtain ⟨middle, next, handled, finished⟩ := finished_of_handler runs
  obtain ⟨handler, serves, ran⟩ := handled.runs
  rw [show (Ctx.s ⟨env, s, [], false⟩) = s from rfl, state] at serves
  cases serves
  have calls : c.calls = middle.calls :=
    handled.closes.calls.trans (jump_calls ..)
  have silent : ∀ made ∈ c.calls, ¬ made.reaching := by
    obtain ⟨more, added, valid⟩ := handler_makes .requestWrite ran
    rw [calls, added]
    intro made member
    rcases valid made member with writes | ⟨record, rfl⟩
    · cases made with
      | send | sendFailed => exact id
      | _ => cases writes
    · exact id
  have extended :=
    (requestWrite_frame ⟨fd, p⟩ a (Ctx.started ⟨env, s, [], false⟩)).1
  have effect := requestWrite_effect ⟨fd, p⟩ a (Ctx.started ⟨env, s, [], false⟩)
  rw [eq_of_total ran] at extended effect
  have clientFd : (jump ⟨fd, p⟩ a next middle).s.clientFd = s.clientFd :=
    (extends_jump ⟨fd, p⟩ a next middle).clientFd.trans extended.clientFd
  refine ⟨silent, ?_, ?_⟩
  · obtain ⟨references, object⟩ := handled.closes.object
    rw [object]
    exact clientFd
  -- Neither the handler nor the jump to a closing state touches the
  -- descriptors.
  have closes (closing : next.closing)
      (kept : middle.env.selector = env.selector) :
      c.s.state.closing ∧ Unplugged c.env s.clientFd := by
    have entered : (jump ⟨fd, p⟩ a next middle).env = middle.env := by
      unfold jump
      split
      · rfl
      · rcases closing with rfl | rfl <;> rfl
    have registered : Registered p (jump ⟨fd, p⟩ a next middle).env
        (jump ⟨fd, p⟩ a next middle).s.clientFd := by
      rw [clientFd, entered]
      unfold Registered
      rw [kept]
      exact hosts.client
    refine ⟨?_, clientFd ▸ socksv5Done_unplugs registered (finished closing)⟩
    obtain ⟨references, object⟩ := handled.closes.object
    rw [object]
    change (jump ⟨fd, p⟩ a next middle).s.state.closing
    rwa [jump_state]
  have ends : c.s.state = next := handled.state
  have entered : (Ctx.started ⟨env, s, [], false⟩).s.current =
      some .requestWrite :=
    congrArg some state
  have stays (staying : ¬ next.closing) (same : middle.s.current = some next) :
      c = middle := by
    rw [handled.stays staying, jump, if_pos same]
  generalize reached : (middle, next) = result at effect
  cases effect with
  | again e =>
      obtain ⟨rfl, rfl⟩ := Prod.mk.inj reached
      have same := stays (by simp [SocksState.closing]) entered
      subst same
      refine .inl ⟨ends, reply, ?_, pending⟩
      change (sent ++ sentTo s.clientFd [.sendFailed s.clientFd e]) ++ _ = _
      rw [show sentTo s.clientFd [.sendFailed s.clientFd e] = [] from rfl,
        List.append_nil]
      exact whole
  | failed e =>
      obtain ⟨rfl, rfl⟩ := Prod.mk.inj reached
      exact .inr (closes (.inr rfl) rfl)
  | @partly accepted rest buffer split content remains limit =>
      obtain ⟨rfl, rfl⟩ := Prod.mk.inj reached
      have same := stays (by simp [SocksState.closing]) entered
      subst same
      refine .inl ⟨ends, reply, ?_, content ▸ remains⟩
      change (sent ++ sentTo s.clientFd [.send s.clientFd accepted]) ++
        buffer.content = _
      rw [content, show sentTo s.clientFd [.send s.clientFd accepted] =
          accepted by
        simp [sentTo], List.append_assoc, ← split]
      exact whole
  | @flushed buffer content limit =>
      have failure : s.reply ≠ repSuccess := reply ▸ refused
      obtain ⟨rfl, selector⟩ := replySent_refused reached failure
      exact .inr (closes (.inl rfl) selector)

/-- What is left of the run of a connection that declines: it sends its reply,
contacts nobody, and ends. -/
theorem Declining.run {p : Ptr} {s last : Socks5} {code : UInt8}
    {later : List (List Call)} (declining : Declining s [] code)
    (refused : code ≠ repSuccess) (run : (connection p).Run s later last) :
    (∀ made ∈ later.flatten, ¬ made.reaching) ∧
      (last.clientFd = s.clientFd ∧
        Declining last (sentTo s.clientFd later.flatten) code ∨
        last.state.closing) := by
  induction run with
  | nil => exact ⟨by simp, .inl ⟨rfl, declining⟩⟩
  | @snoc middle last labels calls before step induction =>
      obtain ⟨silent, pending⟩ := induction
      rw [List.flatten_append, List.flatten_singleton]
      rcases pending with ⟨same, pending⟩ | closing
      · cases step with
        | resolved answer =>
            obtain ⟨state, reply, whole, content⟩ := pending
            rw [List.append_nil]
            exact ⟨silent, .inl ⟨same, state, reply, whole, content⟩⟩
        | handled hosts runs =>
            obtain ⟨quiet, clientFd, remains⟩ :=
              pending.handled refused hosts runs
            rw [same] at clientFd remains
            refine ⟨?_, ?_⟩
            · intro made member
              rcases List.mem_append.mp member with early | late
              · exact silent made early
              · exact quiet made late
            · rw [sentTo_append]
              exact remains.imp (fun declines => ⟨clientFd, declines⟩) And.left
      · obtain ⟨nothing, closed⟩ := closing_run closing (.single step)
        rw [List.flatten_singleton] at nothing
        rw [nothing, List.append_nil]
        exact ⟨silent, .inr closed⟩

/-- The request was answered with a code after a handler call: nobody was
contacted, nor will be, and the connection is closed once its reply was sent. -/
structure RefusedWith (p : Ptr) (code : UInt8) (c : Ctx) : Prop where
  state : c.s.state = .requestWrite
  reply : c.s.writeBuffer.content = refusalReply code
  silent : ∀ made ∈ c.calls, ¬ made.reaching
  quiet : ∀ {later last}, (connection p).Run c.s later last →
    ∀ made ∈ later.flatten, ¬ made.reaching
  sends : ∀ {later last}, (connection p).Run c.s later last →
    Declining last (sentTo c.s.clientFd later.flatten) code ∨ last.state.closing
  closes : ∀ {later last env kind fd a after},
    (connection p).Run c.s later last → Hosts p env last →
    socksv5Handler kind ⟨fd, p⟩ a ⟨env, last, [], false⟩ = some after →
    after.s.state = .requestWrite ∨
      after.s.state.closing ∧ Unplugged after.env c.s.clientFd

private theorem closing_unserved {kind : EventKind} {key : Key} {a : Answers}
    {env : Env} {s : Socks5} {c : Ctx} (closing : s.state.closing)
    (runs : socksv5Handler kind key a ⟨env, s, [], false⟩ = some c) :
    False := by
  obtain ⟨middle, next, handled⟩ := handled_of_handler runs
  obtain ⟨handler, serves, -⟩ := handled.runs
  rw [show (Ctx.s ⟨env, s, [], false⟩) = s from rfl] at serves
  rcases closing with same | same <;>
    · rw [same] at serves
      cases serves

theorem Declining.refusedWith {p : Ptr} {code : UInt8} {c : Ctx}
    (declining : Declining c.s [] code) (refused : code ≠ repSuccess)
    (silent : ∀ made ∈ c.calls, ¬ made.reaching) : RefusedWith p code c where
  state := declining.state
  reply := declining.whole
  silent := silent
  quiet run := (declining.run refused run).1
  sends run := (declining.run refused run).2.imp_left And.right
  closes run hosts runs := by
    rcases (declining.run refused run).2 with ⟨same, declines⟩ | closing
    · rcases (declines.handled refused hosts runs).2.2 with again | closed
      · exact .inl again.state
      · exact .inr (same ▸ closed)
    · exact (closing_unserved closing runs).elim

/-- The code that is sent in place of the one that is deserved. -/
def codeSent (code : UInt8) : UInt8 :=
  if code = repCommandNotSupported then code else repGeneralFailure

theorem codeSent_ne_success (code : UInt8) : codeSent code ≠ repSuccess := by
  unfold codeSent
  split
  next same =>
    rw [same]
    decide
  next => decide

theorem Refusal.codeSent_eq_iff {stream : List UInt8} {code : UInt8}
    (refusal : Refusal stream code) :
    codeSent code = code ↔ ¬ AsksUnknownAddressType stream := by
  rw [refusal.asks_iff]
  cases refusal <;> decide

theorem requestCompleted_refuses {key : Key} {a : Answers} {c : Ctx}
    {code : UInt8} (refuses : c.s.request.Refuses code) :
    requestCompleted key a c =
      ((c.setInterest c.s.clientFd opNoop).1.setReply (codeSent code),
        .requestWrite) := by
  unfold requestCompleted codeSent
  dsimp only
  by_cases command : code = repCommandNotSupported
  · obtain ⟨done, other⟩ := refuses.command command
    rw [if_neg (by rw [done]; decide), if_pos command, command, processRequest,
      if_pos (by exact other)]
  · rw [if_pos (refuses.failed command), if_neg command]

private theorem requestCompleted_received {key : Key} {a : Answers} (c : Ctx)
    (fd : Fd) :
    receivedFrom fd (requestCompleted key a c).1.calls =
      receivedFrom fd c.calls := by
  obtain ⟨more, calls, reaching⟩ := (requestCompleted_reaches key a c).1.calls
  have nothing : receivedFrom fd more = [] := by
    refine List.flatMap_eq_nil_iff.mpr fun made member => ?_
    have outward := reaching made member
    cases made with
    | recv => cases outward
    | _ => rfl
  rw [calls, receivedFrom_append, nothing, List.append_nil]

def parsedCtx (c : Ctx) (octets : List UInt8) (q : RequestParser)
    (buffer : Buffer) : Ctx :=
  { (c.call (.recv c.s.clientFd octets)).call .requestParserConsume with
    s := { c.s with request := q, readBuffer := buffer } }

/-- The octets received by a handler call make the parser stop: the call goes on
from what the parser makes of the whole stream. -/
theorem completed_of_scan {p : Ptr} {s : Socks5} {t : List Call} {env : Env}
    {kind : EventKind} {fd : Fd} {a : Answers} {c : Ctx} {stream : List UInt8}
    {Ends : RequestParser → Prop} (exchanged : Exchanged s t)
    (reading : s.state = .requestRead)
    (runs : socksv5Handler kind ⟨fd, p⟩ a ⟨env, s, [], false⟩ = some c)
    (arrives : receivedFrom s.clientFd c.calls ≠ [])
    (opened : Opened s.clientFd (t ++ c.calls) stream [])
    (stops : ∀ {fresh : RequestParser}, fresh.Roomy →
      ∃ q rest, scan requestParserFeed RequestParser.finished
        (requestParserInit fresh)
        stream = (q, rest, true) ∧ Ends q) :
    ∃ octets q buffer middle next, Ends q ∧
      (middle, next) = requestCompleted ⟨fd, p⟩ a
        (parsedCtx (Ctx.started ⟨env, s, [], false⟩) octets q buffer) ∧
      Handled kind ⟨fd, p⟩ a ⟨env, s, [], false⟩ c middle next := by
  unfold Exchanged at exchanged
  rw [reading] at exchanged
  obtain ⟨consumed, fresh, before, roomy, fed⟩ := exchanged
  obtain ⟨q, rest, scanned, ends⟩ := stops roomy
  obtain ⟨middle, next, handled⟩ := handled_of_handler runs
  obtain ⟨handler, serves, ran⟩ := handled.runs
  have calls : c.calls = middle.calls :=
    handled.closes.calls.trans (jump_calls ..)
  rw [show (Ctx.s ⟨env, s, [], false⟩) = s from rfl, reading] at serves
  cases serves
  have effect := requestRead_effect ⟨fd, p⟩ a (Ctx.started ⟨env, s, [], false⟩)
  rw [eq_of_total ran] at effect
  rw [calls] at arrives opened
  have stream : stream = consumed ++ s.readBuffer.content ++
      receivedFrom s.clientFd middle.calls :=
    opened.same_received (before.extend middle.calls)
  generalize reached : (middle, next) = result at effect
  have made := congrArg (fun result => result.1.calls) reached
  dsimp only at made
  cases effect with
  | again e => simp [made, receivedFrom, Ctx.started] at arrives
  | failed e => simp [made, receivedFrom, Ctx.started] at arrives
  | closed => simp [made, receivedFrom, Ctx.started] at arrives
  | @partly octets again buffer nonempty fits unfinished content limit =>
      have received : receivedFrom s.clientFd middle.calls = octets := by
        rw [made]
        simp [receivedFrom, Ctx.started]
      rw [stream, received, List.append_assoc, scan_append_more fed] at scanned
      exact absurd (unfinished.symm.trans scanned) (by simp)
  | @completed octets left again buffer nonempty fits complete content limit =>
      have received : receivedFrom s.clientFd middle.calls = octets := by
        rw [made, requestCompleted_received]
        simp [receivedFrom, Ctx.started]
      rw [stream, received, List.append_assoc, scan_append_more fed] at scanned
      obtain ⟨rfl, -, -⟩ := by simpa using complete.symm.trans scanned
      exact ⟨octets, again, buffer, middle, next, ends, reached, handled⟩

/-- The octets received complete a request that is to be refused. -/
theorem declining_of_refusal {p : Ptr} {s : Socks5} {t : List Call} {env : Env}
    {kind : EventKind} {fd : Fd} {a : Answers} {c : Ctx} {stream : List UInt8}
    {code : UInt8} (spacious : Spacious s) (exchanged : Exchanged s t)
    (reading : s.state = .requestRead)
    (runs : socksv5Handler kind ⟨fd, p⟩ a ⟨env, s, [], false⟩ = some c)
    (arrives : receivedFrom s.clientFd c.calls ≠ [])
    (opened : Opened s.clientFd (t ++ c.calls) stream [])
    (refusal : Refusal stream code) :
    Declining c.s [] (codeSent code) ∧ ∀ made ∈ c.calls, ¬ made.reaching := by
  obtain ⟨octets, q, buffer, middle, next, refuses, reached, handled⟩ :=
    completed_of_scan exchanged reading runs arrives opened fun roomy =>
      refusal.scanned roomy
  rw [requestCompleted_refuses refuses] at reached
  obtain ⟨same, rfl⟩ := Prod.mk.inj reached
  have called : c.calls = [.recv s.clientFd octets, .requestParserConsume] := by
    rw [handled.closes.calls, jump_calls, same]
    rfl
  have current : ¬ middle.s.current = some .requestWrite := by
    rw [same]
    simp [Ctx.setReply, Ctx.started, parsedCtx, reading]
  have object : c.s = buildReply { middle.s with current := some .requestWrite }
      (codeSent code) a.sockname := by
    rw [handled.stays (by simp [SocksState.closing]), jump_s, if_neg current,
      same]
    rfl
  have room : configMinBuffer ≤ middle.s.writeBuffer.limit := by
    rw [same]
    exact spacious.2
  obtain ⟨answer, rep, written⟩ := @buildReply_content
    { middle.s with current := some .requestWrite } room
    (codeSent code) a.sockname
  have refused : answer.rep ≠ repSuccess := rep ▸ codeSent_ne_success code
  have content : c.s.writeBuffer.content = refusalReply (codeSent code) := by
    rw [object, written, Reply.encode_refusal refused, rep]
  refine ⟨⟨handled.state, ?_, content, ?_⟩, ?_⟩
  · rw [object, same]
    rfl
  · rw [content]
    simp [refusalReply]
  · rw [called]
    simp [Call.reaching]

/-- A request that is to be refused is answered with the code that it deserves
exactly when it does not ask for an unknown address type. -/
theorem request_refused {p : Ptr} {first s : Socks5} {labels : List (List Call)}
    {env : Env} {kind : EventKind} {fd : Fd} {a : Answers} {c : Ctx}
    {stream : List UInt8} {code : UInt8} (accepted : Accepted first)
    (run : (connection p).Run first labels s) (reading : s.state = .requestRead)
    (runs : socksv5Handler kind ⟨fd, p⟩ a ⟨env, s, [], false⟩ = some c)
    (arrives : receivedFrom s.clientFd c.calls ≠ [])
    (opened : Opened s.clientFd (labels.flatten ++ c.calls) stream [])
    (refusal : Refusal stream code) :
    RefusedWith p code c ↔ ¬ AsksUnknownAddressType stream := by
  have progress := progress_of_run accepted run
  have exchanged := exchanged_of_run accepted run
  obtain ⟨declining, silent⟩ :=
    declining_of_refusal progress.spacious exchanged reading
    runs arrives opened refusal
  rw [← refusal.codeSent_eq_iff]
  constructor
  · intro refused
    have same := declining.whole.symm.trans refused.reply
    simp only [refusalReply, List.cons.injEq, true_and] at same
    exact same.1
  · intro same
    rw [same] at declining
    exact declining.refusedWith (same ▸ codeSent_ne_success code) silent

def openEnv : Env := soleEnv configInitDefaults usersInit 5 0

def asking (a : Answers) (stream : List UInt8) :
    Option (List (List Call) × Socks5 × Ctx) :=
  (replay 0 openEnv (freshConnection configInitDefaults 5)
    [⟨.read, 5, .receiving (helloMessage [methodNoAuth])⟩,
      ⟨.write, 5, .accepting [2]⟩]).bind fun (labels, _, s) =>
    (socksv5Handler .read ⟨5, 0⟩ { a with recv := .ready stream }
        ⟨openEnv, s, [], false⟩).map fun c => (labels, s, c)

theorem run_of_asking {a : Answers} {stream : List UInt8}
    {labels : List (List Call)} {s : Socks5} {c : Ctx}
    (asked : asking a stream = some (labels, s, c)) :
    (connection 0).Run (freshConnection configInitDefaults 5) labels s ∧
      socksv5Handler .read ⟨5, 0⟩ { a with recv := .ready stream }
        ⟨openEnv, s, [], false⟩ = some c := by
  obtain ⟨⟨_, _, _⟩, replayed, mapped⟩ := Option.bind_eq_some_iff.mp asked
  obtain ⟨_, runs, same⟩ := Option.map_eq_some_iff.mp mapped
  cases same
  exact ⟨run_of_replay replayed, runs⟩

private def bindRequest : SocksRequest :=
  ⟨0x02, atypIpv4, [127, 0, 0, 1], 0, 80, .inl ⟨rfl, rfl⟩⟩

theorem request_refused_bind :
    ∃ c : Ctx, RefusedWith 0 repCommandNotSupported c := by
  have expected :
      (asking .idle (bindRequest.encode ++ [])).any (fun (labels, s, c) =>
      decide (s.state = .requestRead ∧ receivedFrom s.clientFd c.calls ≠ [] ∧
        receivedFrom s.clientFd (labels.flatten ++ c.calls) =
          helloMessage [methodNoAuth] ++ (bindRequest.encode ++ []) ∧
        sentTo s.clientFd (labels.flatten ++ c.calls) = [0x05, methodNoAuth] ++
          [])) =
      true := by
    decide +kernel
  obtain ⟨⟨labels, s, c⟩, asked, facts⟩ := (Option.any_eq_true ..).mp expected
  obtain ⟨reading, arrives, received, sent⟩ := of_decide_eq_true facts
  obtain ⟨run, runs⟩ := run_of_asking asked
  have opened : Opened s.clientFd (labels.flatten ++ c.calls)
      (bindRequest.encode ++ []) [] :=
    ⟨_, _, @Opening.noAuth [methodNoAuth] (by decide), received, sent⟩
  have refusal : Refusal (bindRequest.encode ++ []) repCommandNotSupported :=
    .command bindRequest (by decide) []
  have known : ¬ AsksUnknownAddressType (bindRequest.encode ++ []) :=
    refusal.asks_iff.not.mpr (by decide)
  exact ⟨c,
    (request_refused (accepted_fresh _ _) run reading runs arrives opened
    refusal).mpr known⟩

/-- CONNECT with the address type 05 is answered with 01. -/
theorem request_refused_address_type :
    ∃ labels s c,
      (connection 0).Run (freshConnection configInitDefaults 5) labels s ∧
      socksv5Handler .read ⟨5, 0⟩ (.receiving [0x05, 0x01, 0x00, 0x05])
        ⟨openEnv, s, [], false⟩ = some c ∧ s.state = .requestRead ∧
      Opened 5 (labels.flatten ++ c.calls) [0x05, 0x01, 0x00, 0x05] [] ∧
      Refusal [0x05, 0x01, 0x00, 0x05] repAtypNotSupported ∧
      c.s.writeBuffer.content = refusalReply repGeneralFailure ∧
      ¬ RefusedWith 0 repAtypNotSupported c := by
  have expected :
      (asking .idle [0x05, 0x01, 0x00, 0x05]).any (fun (labels, s, c) =>
      decide (s.state = .requestRead ∧
        receivedFrom 5 (labels.flatten ++ c.calls) =
          helloMessage [methodNoAuth] ++ [0x05, 0x01, 0x00, 0x05] ∧
        sentTo 5 (labels.flatten ++ c.calls) = [0x05, methodNoAuth] ++ [] ∧
        c.s.writeBuffer.content = refusalReply repGeneralFailure)) = true := by
    decide +kernel
  obtain ⟨⟨labels, s, c⟩, asked, facts⟩ := (Option.any_eq_true ..).mp expected
  obtain ⟨reading, received, sent, written⟩ := of_decide_eq_true facts
  obtain ⟨run, runs⟩ := run_of_asking asked
  refine ⟨labels, s, c, run, runs, reading,
    ⟨_, _, @Opening.noAuth [methodNoAuth] (by decide), received, sent⟩,
    .addressType (by decide) [], written, ?_⟩
  intro refused
  exact absurd (written.symm.trans refused.reply) (by decide)

end SocksProxy
