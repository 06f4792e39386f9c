import SocksProxy.Mgmt.Sessions

/-! The terminal client and the server that it talks to: one request of the
client against whatever else happens in the server. -/

namespace SocksProxy

open Framing Transition SmpMessage

/-- Where `do_auth` and `do_request` stand: what `send_all` has left to send, or
what `recv_exact` has received so far. -/
inductive SmpClient
  | auth (left : List UInt8)
  | authReply (got : List UInt8)
  | request (left : List UInt8)
  | header (got : List UInt8)
  | data (hdr got : List UInt8)
  | answered (response : SmpResponse)
  | refused
  deriving DecidableEq, Repr

/-- One `send` of `send_all`: the octets sent, and where the client stands
then. -/
def SmpClient.send : SmpClient → Nat → Option (List UInt8 × SmpClient)
  | .auth left, count =>
      some (left.take count,
        if left.drop count = [] then .authReply [] else .auth (left.drop count))
  | .request left, count =>
      some (left.take count,
        if left.drop count = [] then .header [] else .request (left.drop count))
  | _, _ => none

/-- How much the next `recv` of `recv_exact` asks for. -/
def SmpClient.room : SmpClient → Nat
  | .authReply got => 2 - got.length
  | .header got => 5 - got.length
  | .data hdr got => getU16 hdr 3 - got.length
  | _ => 0

def SmpClient.reading (hdr got : List UInt8) : SmpClient :=
  if got.length < getU16 hdr 3 then .data hdr got
  else .answered ⟨octetAt hdr 1, octetAt hdr 2, got⟩

def SmpClient.receive (request : List UInt8) :
    SmpClient → List UInt8 → SmpClient
  | .authReply got, octets =>
      let resp := got ++ octets
      if resp.length < 2 then .authReply resp
      else if octetAt resp 0 ≠ smpVersion ∨
        octetAt resp 1 ≠ smpAuthOk then .refused
      else .request request
  | .header got, octets =>
      let hdr := got ++ octets
      if hdr.length < 5 then .header hdr else .reading hdr []
  | .data hdr got, octets => .reading hdr (got ++ octets)
  | client, _ => client

/-- A client, its connection in the server, and the octets that the client has
sent and received.  It is `gone` when it has closed its socket. -/
structure Dialogue where
  client : SmpClient
  server : MgmtCtx
  said : List UInt8
  heard : List UInt8
  gone : Bool

/-- A visit shows where the client stands. -/
inductive DialogueEvent
  | send
  | receive
  | leave
  | visit (client : SmpClient) (v : MgmtVisit)

/-- Octets arrive in their order, in chunks of any size.  The client may leave
at any time: at an error, at the end of what the server sends, and when it is
done; and the calls of the server may fail at any time. -/
inductive DialogueStep (key : Key) (request : List UInt8) (σ : Dialogue) :
    DialogueEvent → Dialogue → Prop
  | send {count : Nat} {octets : List UInt8} {client : SmpClient}
      (here : σ.gone = false)
      (sends : σ.client.send count = some (octets, client)) :
      DialogueStep key request σ .send
      { σ with client := client, said := σ.said ++ octets }
  | receive {octets : List UInt8} (here : σ.gone = false) (some : octets ≠ [])
      (fits : octets.length ≤ σ.client.room)
      (comes : σ.heard ++ octets <+: delivered σ.server.calls) :
      DialogueStep key request σ .receive
        { σ with
          client := σ.client.receive request octets
          heard := σ.heard ++ octets }
  | leave : DialogueStep key request σ .leave { σ with gone := true }
  | visit {v : MgmtVisit} {next : MgmtCtx} (step : MgmtStep key σ.server v next)
      (comes : mgmtReceived next.calls <+: σ.said) :
      DialogueStep key request σ (.visit σ.client v) { σ with server := next }

def Dialogue.connected (key : Key) (user pass : Field) (env : Env) : Dialogue :=
  ⟨.auth (handshake user pass).encode, ⟨env, mgmtNew key.fd, [], false⟩,
    [], [], false⟩

def dialogues (key : Key) (user pass : Field) (r : SmpRequest) :
    System Dialogue DialogueEvent where
  init σ := ∃ env, MgmtHosted key env ∧ σ = .connected key user pass env
  step := DialogueStep key (SmpMessage.request r).encode

def DialogueEvent.Quiet : DialogueEvent → Prop
  | .visit _ v => v.Quiet
  | _ => True

/-- The event is a visit that serves the message; a request is served when the
client has sent all of it and received nothing of the answer. -/
def DialogueEvent.Serves : DialogueEvent → SmpMessage → Prop
  | .visit client v, message =>
      v.Serves message ∧ ∀ r, message = .request r → client = .header []
  | _, _ => False

/-- What `do_auth` wants to receive. -/
def accepted : List UInt8 := [smpVersion, smpAuthOk]

theorem length_accepted : accepted.length = 2 := rfl

/-- What a client has sent and received, by where it stands. -/
inductive Speaks (opening request : List UInt8) :
    SmpClient → List UInt8 → List UInt8 → Prop
  | auth {said left : List UInt8} (whole : said ++ left = opening)
      (more : left ≠ []) : Speaks opening request (.auth left) said []
  | authReply {got : List UInt8} (short : got.length < 2) :
      Speaks opening request (.authReply got) opening got
  | request {said left : List UInt8} (whole : said ++ left = opening ++ request)
      (more : left ≠ []) :
      Speaks opening request (.request left) said accepted
  | header {got : List UInt8} (short : got.length < 5) :
      Speaks opening request (.header got) (opening ++ request)
        (accepted ++ got)
  | data {hdr got : List UInt8} (five : hdr.length = 5)
      (short : got.length < getU16 hdr 3) :
      Speaks opening request (.data hdr got) (opening ++ request)
      (accepted ++ (hdr ++ got))
  | answered {hdr got : List UInt8} (five : hdr.length = 5)
      (full : got.length = getU16 hdr 3) :
      Speaks opening request (.answered ⟨octetAt hdr 1, octetAt hdr 2, got⟩)
        (opening ++ request) (accepted ++ (hdr ++ got))
  | refused {got : List UInt8} : Speaks opening request .refused opening got

section Client

variable {opening request said heard octets : List UInt8}
  {client next : SmpClient}

theorem Speaks.send (speaks : Speaks opening request client said heard)
    {count : Nat} (sends : client.send count = some (octets, next)) :
    Speaks opening request next (said ++ octets) heard := by
  cases speaks with
  | @auth _ left whole more =>
      cases sends
      have restored := List.take_append_drop count left
      split
      next none =>
        rw [none, List.append_nil] at restored
        rw [restored, whole]
        exact .authReply (by decide)
      next rest =>
        refine .auth ?_ rest
        rw [List.append_assoc, restored, whole]
  | @request _ left whole more =>
      cases sends
      have restored := List.take_append_drop count left
      split
      next none =>
        rw [none, List.append_nil] at restored
        rw [restored, whole]
        have sent : Speaks opening request (.header []) (opening ++ request)
            (accepted ++ []) :=
          .header (by decide)
        exact sent
      next rest =>
        refine .request ?_ rest
        rw [List.append_assoc, restored, whole]
  | authReply | header | data | answered | refused => cases sends

theorem Speaks.reading {hdr got : List UInt8} (five : hdr.length = 5)
    (within : got.length ≤ getU16 hdr 3) :
    Speaks opening request (.reading hdr got) (opening ++ request)
      (accepted ++ (hdr ++ got)) := by
  unfold SmpClient.reading
  split
  next short => exact .data five short
  next full =>
    exact .answered five (Nat.le_antisymm within (Nat.le_of_not_lt full))

theorem octets_eq_accepted {resp : List UInt8} (two : resp.length = 2)
    (version : octetAt resp 0 = smpVersion) (ok : octetAt resp 1 = smpAuthOk) :
    resp = accepted := by
  match resp, two with
  | [first, second], _ =>
      have first : first = smpVersion := version
      have second : second = smpAuthOk := ok
      rw [first, second, accepted]

theorem Speaks.receive (speaks : Speaks opening request client said heard)
    (sized : request ≠ []) (some : octets ≠ [])
    (fits : octets.length ≤ client.room) :
    Speaks opening request (client.receive request octets) said
      (heard ++ octets) := by
  have positive := List.length_pos_of_ne_nil some
  cases speaks with
  | auth | request | answered
  | refused => exact absurd fits (Nat.not_le_of_lt positive)
  | @authReply short =>
      have within : (heard ++ octets).length ≤ 2 := by
        have fits : octets.length ≤ 2 - heard.length := fits
        rw [List.length_append]
        omega
      unfold SmpClient.receive
      dsimp only
      split
      next short => exact .authReply short
      next full =>
        have two : (heard ++ octets).length = 2 := by omega
        split
        · exact .refused
        next agreed =>
          obtain ⟨version, ok⟩ := not_or.mp agreed
          rw [octets_eq_accepted two (not_not.mp version) (not_not.mp ok)]
          exact .request rfl sized
  | @header got short =>
      have within : (got ++ octets).length ≤ 5 := by
        have fits : octets.length ≤ 5 - got.length := fits
        rw [List.length_append]
        omega
      unfold SmpClient.receive
      dsimp only
      rw [List.append_assoc]
      split
      next short => exact .header short
      next full =>
        have reading : Speaks opening request (.reading (got ++ octets) [])
            (opening ++ request) (accepted ++ (got ++ octets ++ [])) :=
            .reading (by omega) (Nat.zero_le _)
        rwa [List.append_nil] at reading
  | @data hdr got five short =>
      have fits : octets.length ≤ getU16 hdr 3 - got.length := fits
      unfold SmpClient.receive
      rw [List.append_assoc, List.append_assoc]
      refine .reading five ?_
      rw [List.length_append]
      omega

/-- The client takes the front of what it is answered. -/
theorem doRequest_front {hdr got : List UInt8} (five : hdr.length = 5)
    (full : got.length = getU16 hdr 3) (rest : List UInt8) :
    doRequest (hdr ++ got ++ rest) =
      some ⟨octetAt hdr 1, octetAt hdr 2, got⟩ := by
  have header : recvExact 5 (hdr ++ got ++ rest) = some (hdr, got ++ rest) := by
    rw [recvExact, if_neg (by simp [five]), List.append_assoc, ← five,
      List.take_left,
      List.drop_left]
  have data : recvExact (getU16 hdr 3) (got ++ rest) = some (got, rest) := by
    rw [recvExact, if_neg (by simp [full]), ← full, List.take_left,
      List.drop_left]
  rw [doRequest, header, Option.bind_some]
  dsimp only
  rw [data]
  rfl

end Client

def DialogueEvent.reply : DialogueEvent → SmpMessage → List UInt8
  | .visit _ v, message => (serve v.before message).2
  | _, _ => []

def DialogueEvent.visited : DialogueEvent → Option MgmtVisit
  | .visit _ v => some v
  | _ => none

/-- Between two events: what the parties say to each other arrives in order, and
the first of the messages have been served, each at one event. -/
structure Conversing (user pass : Field) (r : SmpRequest)
    (events : List DialogueEvent) (served : List (DialogueEvent × SmpMessage))
    (todo : List SmpMessage) (σ : Dialogue) :
    Prop where
  speaks : Speaks (handshake user pass).encode (SmpMessage.request r).encode
    σ.client σ.said σ.heard
  arrived : mgmtReceived σ.server.calls <+: σ.said
  replied : σ.heard <+: delivered σ.server.calls
  whole : session user pass [r] = served.map Prod.snd ++ todo
  trace : Moments.Trace DialogueEvent.Quiet DialogueEvent.Serves events served
  session : InSession (stream encode (served.map Prod.snd))
    (served.flatMap fun moment => moment.1.reply moment.2) todo σ.server

/-- All events but this visit are quiet, and at the visit the client has sent
all of its request and received nothing of the answer. -/
def OnlyAt (events : List DialogueEvent) (v : MgmtVisit) : Prop :=
  ∃ before after, events = before ++ .visit (.header []) v :: after ∧
    ∀ event ∈ before ++ after, event.Quiet

/-- `OnlyAt`, and the visit `w` comes earlier. -/
def OnlyAfter (events : List DialogueEvent) (w v : MgmtVisit) : Prop :=
  ∃ client before between after,
    events = before ++ .visit client w :: between ++ .visit (.header []) v ::
      after ∧
      ∀ event ∈ before ++ .visit client w :: between ++ after, event.Quiet

theorem OnlyAfter.only {events : List DialogueEvent} {w v : MgmtVisit}
    (only : OnlyAfter events w v) : OnlyAt events v := by
  obtain ⟨client, before, between, after, whole, quiet⟩ := only
  exact ⟨before ++ .visit client w :: between, after, whole, quiet⟩

section Speaks

variable {opening request said heard : List UInt8} {client : SmpClient}

theorem Speaks.said_prefix (speaks : Speaks opening request client said heard) :
    said <+: opening ++ request := by
  cases speaks with
  | auth whole more => exact ⟨_, by rw [← whole, List.append_assoc]⟩
  | request whole more => exact ⟨_, whole⟩
  | authReply | refused => exact List.prefix_append ..
  | header | data | answered => exact List.prefix_refl _

theorem Speaks.waits (speaks : Speaks opening request client said heard)
    (sized : request ≠ []) (sent : opening ++ request <+: said)
    (unheard : heard.length ≤ 2) :
    client = .header [] := by
  have positive := List.length_pos_of_ne_nil sized
  have long := sent.length_le
  rw [List.length_append] at long
  cases speaks with
  | auth whole more =>
      rw [← whole, List.length_append] at long
      omega
  | authReply | refused => omega
  | request whole more =>
      have left := List.length_pos_of_ne_nil more
      have total := congrArg List.length whole
      rw [List.length_append, List.length_append] at total
      omega
  | @header got short =>
      rw [List.length_append, length_accepted] at unheard
      rw [List.eq_nil_of_length_eq_zero (l := got) (by omega)]
  | data five | answered five =>
      rw [List.length_append, List.length_append, length_accepted, five]
        at unheard
      omega

end Speaks

section Dialogue

variable {key : Key} {user pass : Field} {r : SmpRequest} {first σ : Dialogue}
  {events : List DialogueEvent} {served : List (DialogueEvent × SmpMessage)}
  {todo : List SmpMessage}

theorem visits_of_run (run : (dialogues key user pass r).Run first events σ) :
    (mgmtVisits key).Run first.server (events.filterMap DialogueEvent.visited)
      σ.server := by
  induction run with
  | nil => exact .nil _
  | @snoc middle last events event before step induction =>
      rw [List.filterMap_append]
      have taken : DialogueStep key (SmpMessage.request r).encode middle event
          last := step
      cases taken with
      | visit visiting comes => exact induction.snoc visiting
      | send | receive | leave => exact (List.append_nil _).symm ▸ induction

theorem stream_session :
    stream encode (session user pass [r]) =
      (handshake user pass).encode ++ (SmpMessage.request r).encode := by
  simp [stream, session]

theorem served_cases
    (whole : session user pass [r] = served.map Prod.snd ++ todo) :
    served = [] ∧ todo = [handshake user pass, .request r] ∨
      (∃ greeting, served = [(greeting, handshake user pass)] ∧
        todo = [.request r]) ∨
      ∃ greeting event,
        served = [(greeting, handshake user pass), (event, .request r)] ∧
        todo = [] := by
  match served, whole with
  | [], whole => exact .inl ⟨rfl, whole.symm⟩
  | [(greeting, message)], whole =>
      obtain ⟨same, rest⟩ := List.cons.inj whole
      exact .inr (.inl ⟨greeting, by rw [same], rest.symm⟩)
  | [(greeting, message), (event, other)], whole =>
      obtain ⟨same, rest⟩ := List.cons.inj whole
      obtain ⟨last, rest⟩ := List.cons.inj rest
      exact .inr (.inr ⟨greeting, event, by rw [same, last], rest.symm⟩)
  | _ :: _ :: _ :: _, whole =>
      have total := congrArg List.length whole
      simp [session] at total

theorem DialogueEvent.reply_handshake_le (event : DialogueEvent) :
    (event.reply (handshake user pass)).length ≤ 2 := by
  cases event with
  | visit client v => exact Nat.le_refl 2
  | send | receive | leave => exact Nat.zero_le 2

theorem DialogueEvent.Serves.visit {event : DialogueEvent}
    {message : SmpMessage} (serves : event.Serves message) :
    ∃ client v, event = .visit client v := by
  cases event with
  | visit client v => exact ⟨client, v, rfl⟩
  | send | receive | leave => exact serves.elim

theorem DialogueEvent.Serves.quiet_handshake {event : DialogueEvent}
    (serves : event.Serves (handshake user pass)) : event.Quiet := by
  obtain ⟨client, v, rfl⟩ := serves.visit
  have records : v.after.records =
      { v.before with selector := v.after.selector : Env }.records :=
    congrArg Env.records serves.1
  exact records

/-- Before the request is served the server has sent no more than a reply to the
handshake. -/
theorem Conversing.unsent
    (conversing : Conversing user pass r events served todo σ)
    (unserved : todo ≠ []) : (delivered σ.server.calls).length ≤ 2 := by
  have sent := conversing.session.phase.delivered_prefix.length_le
  rcases served_cases conversing.whole with
    ⟨rfl, -⟩ | ⟨greeting, rfl, -⟩ | ⟨greeting, last, -, none⟩
  · exact sent.trans (Nat.zero_le 2)
  · rw [List.flatMap_singleton] at sent
    exact sent.trans (DialogueEvent.reply_handshake_le greeting)
  · exact absurd none unserved

theorem Conversing.unheard
    (conversing : Conversing user pass r events served todo σ)
    (unserved : todo ≠ []) : σ.heard.length ≤ 2 :=
  conversing.replied.length_le.trans (conversing.unsent unserved)

theorem Conversing.visit (valid : invalidFd key.fd = false)
    (gated : MgmtGated key σ.server)
    (conversing : Conversing user pass r events served todo σ) {v : MgmtVisit}
    {next : MgmtCtx} (step : MgmtStep key σ.server v next)
    (comes : mgmtReceived next.calls <+: σ.said) :
    ∃ served todo, Conversing user pass r (events ++ [.visit σ.client v])
      served todo { σ with server := next } := by
  have unheard := conversing.unheard
  obtain ⟨speaks, arrived, replied, whole, trace, session⟩ := conversing
  have later : σ.heard <+: delivered next.calls := by
    rw [step.calls, delivered_append]
    exact replied.trans (List.prefix_append ..)
  obtain ⟨more, within⟩ := comes.trans speaks.said_prefix
  rw [← stream_session, whole, stream_append] at within
  obtain ⟨outcome, after⟩ := session.visit valid gated step within
  rcases outcome with ⟨records, next⟩ | ⟨message, rest, rfl, effect, next⟩
  · rw [after] at records
    have quiet : (DialogueEvent.visit σ.client v).Quiet := records
    exact ⟨served, todo, speaks, comes, later, whole, trace.rests quiet, next⟩
  · rw [after] at effect
    have waits (r' : SmpRequest) (same : message = .request r') :
        σ.client = .header [] := by
      rcases served_cases whole with
        ⟨rfl, other⟩ | ⟨greeting, rfl, only⟩ | ⟨greeting, event, rfl, none⟩
      · obtain ⟨rfl, -⟩ := List.cons.inj other
        cases same
      · obtain ⟨rfl, rfl⟩ := List.cons.inj only
        refine speaks.waits (encode_ne_nil _) ?_
          (unheard (List.cons_ne_nil _ _))
        refine List.IsPrefix.trans ?_ comes
        rw [next.received]
        simp [stream]
      · cases none
    have serves : (DialogueEvent.visit σ.client v).Serves message :=
      ⟨effect, waits⟩
    refine ⟨served ++ [(.visit σ.client v, message)], rest, speaks,
      comes, later, ?_, trace.serves serves, ?_⟩
    · rw [whole, List.map_append, List.append_assoc]
      rfl
    · rw [List.map_append, stream_append, List.flatMap_append]
      simpa [stream, DialogueEvent.reply] using next

theorem conversing_of_run (starts : (dialogues key user pass r).init first)
    (run : (dialogues key user pass r).Run first events σ) :
    ∃ served todo, Conversing user pass r events served todo σ := by
  obtain ⟨env, hosted, rfl⟩ := starts
  induction run with
  | nil =>
      exact ⟨[], _, .auth rfl (encode_ne_nil _), List.nil_prefix,
        List.nil_prefix, rfl, .nil, .opened key env user pass [r]⟩
  | @snoc middle last events event before step induction =>
      obtain ⟨served, todo, conversing⟩ := induction
      have taken : DialogueStep key (SmpMessage.request r).encode middle event
          last := step
      obtain ⟨speaks, arrived, replied, whole, trace, session⟩ := conversing
      cases taken with
      | send here sends =>
          exact ⟨served, todo, speaks.send sends,
            arrived.trans (List.prefix_append ..), replied,
            whole, trace.rests trivial, session⟩
      | receive here some fits comes =>
          exact ⟨served, todo, speaks.receive (encode_ne_nil _) some fits,
            arrived, comes, whole, trace.rests trivial, session⟩
      | leave =>
          exact ⟨served, todo, speaks, arrived, replied, whole,
            trace.rests trivial, session⟩
      | visit visiting comes =>
          have gated := (gateKept_of_run hosted (visits_of_run before)).gated
          exact Conversing.visit hosted.1 gated
            ⟨speaks, arrived, replied, whole, trace, session⟩ visiting comes

theorem Conversing.quiet
    (conversing : Conversing user pass r events served todo σ)
    (unserved : todo ≠ []) : ∀ event ∈ events, event.Quiet := by
  refine conversing.trace.all_quiet fun event message member serves => ?_
  rcases served_cases conversing.whole with
    ⟨rfl, -⟩ | ⟨greeting, rfl, -⟩ | ⟨greeting, last, -, none⟩
  · cases member
  · cases List.mem_singleton.mp member
    exact serves.quiet_handshake
  · exact absurd none unserved

theorem Conversing.sent
    (conversing : Conversing user pass r events served [] σ) :
    (handshake user pass).encode ++ (SmpMessage.request r).encode <+:
      σ.said := by
  refine List.IsPrefix.trans ?_ conversing.arrived
  have whole := conversing.whole
  rw [List.append_nil] at whole
  rw [conversing.session.received, ← whole, stream_session]
  exact List.prefix_append ..

/-- The request was served at one visit, after the handshake. -/
theorem Conversing.effect
    (conversing : Conversing user pass r events served [] σ) :
    ∃ v w, OnlyAfter events w v ∧ w.Serves (handshake user pass) ∧
      v.Serves (.request r) ∧
      σ.heard <+: (serve w.before (handshake user pass)).2 ++
        (serve v.before (.request r)).2 := by
  have heard :=
    conversing.replied.trans conversing.session.phase.delivered_prefix
  rcases served_cases conversing.whole with
    ⟨-, other⟩ | ⟨greeting, -, other⟩ | ⟨greeting, last, rfl, -⟩
  · cases other
  · cases other
  · have trace : Moments.Trace DialogueEvent.Quiet DialogueEvent.Serves events
        ([(greeting, handshake user pass)] ++ (last, .request r) :: []) :=
        conversing.trace
    obtain ⟨before, after, rfl, earlier, now, later⟩ := trace.split
    have earlier : Moments.Trace DialogueEvent.Quiet DialogueEvent.Serves before
        ([] ++ (greeting, handshake user pass) :: []) := earlier
    obtain ⟨front, rest, rfl, -, greets, -⟩ := earlier.split
    obtain ⟨place, v, rfl⟩ := now.visit
    obtain ⟨client, w, rfl⟩ := greets.visit
    obtain ⟨serves, waits⟩ := now
    obtain rfl := waits r rfl
    refine ⟨v, w, ⟨client, front, rest, after, rfl, ?_⟩, greets.1, serves, ?_⟩
    · intro event member
      rcases List.mem_append.mp member with early | late
      · refine earlier.all_quiet ?_ event early
        intro other message only serves
        cases List.mem_singleton.mp only
        exact serves.quiet_handshake
      · exact later.all_quiet (fun _ _ none => absurd none List.not_mem_nil)
          event late
    · simpa [DialogueEvent.reply] using heard

/-- A client that was answered has the response of one moment, after a handshake
that was admitted. -/
theorem Conversing.response
    (conversing : Conversing user pass r events served todo σ)
    {response : SmpResponse} (answered : σ.client = .answered response) :
    ∃ v w, OnlyAfter events w v ∧ w.Serves (handshake user pass) ∧
      admits w.before.config user.val pass.val = true ∧ v.Serves (.request r) ∧
      doRequest (σ.heard.drop 2) = some response ∧
      doRequest (serve v.before (.request r)).2 = some response := by
  have speaks := conversing.speaks
  rw [answered] at speaks
  generalize heard : σ.heard = octets at speaks
  generalize σ.said = sent at speaks
  cases speaks with
  | @answered hdr got five full =>
      have done : todo = [] := by
        by_contra unserved
        have short := conversing.unheard unserved
        rw [heard, List.length_append, List.length_append, length_accepted,
          five] at short
        omega
      subst done
      obtain ⟨v, w, only, greets, serves, replied⟩ := conversing.effect
      rw [heard] at replied
      obtain ⟨-, rest⟩ := List.cons_prefix_cons.mp replied
      obtain ⟨ok, rest⟩ := List.cons_prefix_cons.mp rest
      obtain ⟨more, reply⟩ := rest
      refine ⟨v, w, only, greets, ?_, serves, ?_, ?_⟩
      · by_contra failed
        rw [if_neg failed] at ok
        cases ok
      · have front := doRequest_front five full []
        rw [List.append_nil] at front
        exact front
      · have reply : (serve v.before (.request r)).2 = hdr ++ got ++ more :=
          reply.symm
        rw [reply]
        exact doRequest_front five full more

end Dialogue

inductive DialogueTurn
  | send (count : Nat)
  | receive (count : Nat)
  | visit (writes : Bool) (a : Answers)

def Dialogue.turn (key : Key) (request : List UInt8) (σ : Dialogue) :
    DialogueTurn → Option Dialogue
  | .send count =>
      if σ.gone = false then
        (σ.client.send count).map fun sent =>
          { σ with client := sent.2, said := σ.said ++ sent.1 }
      else none
  | .receive count =>
      let octets := ((delivered σ.server.calls).drop σ.heard.length).take count
      if σ.gone = false ∧ octets ≠ [] ∧ octets.length ≤ σ.client.room ∧
          σ.heard ++ octets <+: delivered σ.server.calls then
        some
          { σ with
            client := σ.client.receive request octets
            heard := σ.heard ++ octets }
      else none
  | .visit writes a =>
      (mgmtTurns key σ.server [(writes, a)]).bind fun next =>
        if mgmtReceived next.calls <+: σ.said then
          some { σ with server := next } else none

theorem step_of_turn {key : Key} {request : List UInt8} {σ τ : Dialogue}
    {turn : DialogueTurn} (turns : σ.turn key request turn = some τ) :
    ∃ event, DialogueStep key request σ event τ := by
  unfold Dialogue.turn at turns
  split at turns
  · split at turns
    next here =>
      obtain ⟨sent, sends, same⟩ := Option.map_eq_some_iff.mp turns
      exact ⟨.send, same ▸ .send here sends⟩
    · cases turns
  · dsimp only at turns
    split at turns
    next possible =>
      cases turns
      exact ⟨.receive, .receive possible.1 possible.2.1 possible.2.2.1
        possible.2.2.2⟩
    · cases turns
  · obtain ⟨next, replayed, arrives⟩ := Option.bind_eq_some_iff.mp turns
    split at arrives
    next comes =>
      cases arrives
      obtain ⟨v, between, -, step, same⟩ := step_of_mgmtTurns replayed
      cases same
      exact ⟨.visit σ.client v, .visit step comes⟩
    · cases arrives

def Dialogue.turns (key : Key) (request : List UInt8) (σ : Dialogue) :
    List DialogueTurn → Option Dialogue
  | [] => some σ
  | turn :: rest =>
      (σ.turn key request turn).bind fun next => next.turns key request rest

theorem run_of_turns {key : Key} {user pass : Field} {r : SmpRequest}
    {σ last : Dialogue} {turns : List DialogueTurn}
    (replayed : σ.turns key (SmpMessage.request r).encode turns = some last) :
    ∃ events, (dialogues key user pass r).Run σ events last := by
  induction turns generalizing σ with
  | nil =>
      cases replayed
      exact ⟨[], .nil last⟩
  | cons turn turns induction =>
      obtain ⟨next, turned, others⟩ := Option.bind_eq_some_iff.mp replayed
      obtain ⟨event, step⟩ := step_of_turn turned
      obtain ⟨events, run⟩ := induction others
      have taken : (dialogues key user pass r).step σ event next := step
      exact ⟨[event] ++ events, (System.Run.single taken).append run⟩

theorem asks_config :
    ∃ (first σ : Dialogue) (events : List DialogueEvent)
      (response : SmpResponse),
      (dialogues ⟨5, 0⟩ administrator administrator .getConfig).init first ∧
      (dialogues ⟨5, 0⟩ administrator administrator .getConfig).Run
        first events σ ∧
      σ.client = .answered response ∧ response.status = smpOk ∧
      response.data.length = 9 ∧
      cmdGetConfig (σ.heard.drop 2) = some (configInitDefaults.ioBufferSize,
        configInitDefaults.connTimeoutSecs,
          configInitDefaults.authRequired) := by
  let greeting := (handshake administrator administrator).encode
  let first :=
    Dialogue.connected ⟨5, 0⟩ administrator administrator (soleMgmtEnv ⟨5, 0⟩)
  have answered : ((first.turns ⟨5, 0⟩ (SmpMessage.request .getConfig).encode
      [.send 7, .visit false (.receiving (greeting.take 7)), .send 6,
        .visit false (.receiving (greeting.drop 7)),
        .visit true (.accepting [2]), .receive 2, .send 2,
        .visit false (.receiving [smpVersion, smpCmdGetConfig]),
        .visit true (.accepting [3]), .receive 3, .visit true (.accepting [11]),
        .receive 2, .receive 9]).any fun σ =>
      match σ.client with
      | .answered response =>
          decide (response.status = smpOk ∧ response.data.length = 9 ∧
          cmdGetConfig (σ.heard.drop 2) = some (configInitDefaults.ioBufferSize,
            configInitDefaults.connTimeoutSecs,
            configInitDefaults.authRequired))
      | _ => false) = true := by
    decide +kernel
  obtain ⟨σ, replayed, facts⟩ := (Option.any_eq_true ..).mp answered
  obtain ⟨events, run⟩ :
      ∃ events, (dialogues ⟨5, 0⟩ administrator administrator .getConfig).Run
        first events σ :=
    run_of_turns replayed
  have starts :
      (dialogues ⟨5, 0⟩ administrator administrator .getConfig).init first :=
    ⟨soleMgmtEnv ⟨5, 0⟩, ⟨by decide, by decide⟩, rfl⟩
  split at facts
  next response final =>
    obtain ⟨ok, nine, read⟩ := of_decide_eq_true facts
    exact ⟨first, σ, events, response, starts, run, final, ok, nine, read⟩
  · cases facts

/-- A request of the client takes effect at one moment at most, between its last
octet being sent and the first octet of its response being received; nothing
else in the dialogue changes anything.  A client that was refused has changed
nothing.  A client that was answered has its response from the server of that
moment, after a handshake that was served, and admitted, at an earlier one. -/
theorem request_linearized {key : Key} {user pass : Field} {r : SmpRequest}
    {first σ : Dialogue} {events : List DialogueEvent}
    (starts : (dialogues key user pass r).init first)
    (run : (dialogues key user pass r).Run first events σ) :
    ((∀ event ∈ events, event.Quiet) ∨ ∃ v, OnlyAt events v ∧
      v.Serves (.request r)) ∧
    (σ.client = .refused → ∀ event ∈ events, event.Quiet) ∧
    ∀ response, σ.client = .answered response →
      ∃ v w, OnlyAfter events w v ∧ w.Serves (handshake user pass) ∧
        admits w.before.config user.val pass.val = true ∧
        v.Serves (.request r) ∧
        doRequest (serve v.before (.request r)).2 = some response := by
  obtain ⟨served, todo, conversing⟩ := conversing_of_run starts run
  have speaks := conversing.speaks
  refine ⟨?_, ?_, ?_⟩
  · cases todo with
    | nil =>
        obtain ⟨v, w, only, -, serves, -⟩ := conversing.effect
        exact .inr ⟨v, only.only, serves⟩
    | cons message rest =>
        exact .inl (conversing.quiet (List.cons_ne_nil message rest))
  · intro refused
    refine conversing.quiet ?_
    rintro rfl
    have long := conversing.sent.length_le
    have some := List.length_pos_of_ne_nil (encode_ne_nil (.request r))
    rw [refused] at speaks
    rw [List.length_append] at long
    generalize σ.said = sent at speaks long
    cases speaks
    omega
  · intro response answered
    obtain ⟨v, w, only, greets, admitted, serves, -, decoded⟩ :=
      conversing.response answered
    exact ⟨v, w, only, greets, admitted, serves, decoded⟩

theorem request_linearized_config :
    ∃ (σ : Dialogue) (response : SmpResponse), σ.client = .answered response ∧
      response.status = smpOk ∧ response.data.length = 9 ∧
      ∃ v : MgmtVisit, v.Serves (.request .getConfig) ∧
        doRequest (serve v.before (.request .getConfig)).2 = some response := by
  obtain ⟨first, σ, events, response, starts, run, final, ok, nine, -⟩ :=
    asks_config
  obtain ⟨-, -, outcome⟩ := request_linearized starts run
  obtain ⟨v, w, -, -, -, serves, decoded⟩ := outcome response final
  exact ⟨σ, response, final, ok, nine, v, serves, decoded⟩

end SocksProxy
