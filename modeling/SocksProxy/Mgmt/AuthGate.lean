import SocksProxy.Mgmt.Codec
import SocksProxy.Mgmt.Pipelining

/-! The authentication gate of a management connection in a server where
anything else may happen between its handlers. -/

namespace SocksProxy

open Transition

structure MgmtVisit where
  before : Env
  calls : List MgmtCall
  after : Env

/-- A handler runs when the descriptor is ready and its interest asks for that,
and nobody else touches the registration of the descriptor. -/
inductive MgmtStep (key : Key) (x : MgmtCtx) (v : MgmtVisit) (next : MgmtCtx) :
    Prop
  | read {a : Answers} {item : Item} (live : x.closed = false)
      (registered : x.env.selector.items key.fd = some item)
      (kept : v.before.selector.items key.fd = some item)
      (ready : item.interest.read = true)
      (runs : mgmtRead key a { x with env := v.before } = some next)
      (calls : next.calls = x.calls ++ v.calls) (after : next.env = v.after)
  | write {a : Answers} {item : Item} (live : x.closed = false)
      (registered : x.env.selector.items key.fd = some item)
      (kept : v.before.selector.items key.fd = some item)
      (ready : item.interest.write = true)
      (runs : mgmtWrite key a { x with env := v.before } = some next)
      (calls : next.calls = x.calls ++ v.calls) (after : next.env = v.after)

/-- A connection that was just accepted, and its visits. -/
def mgmtVisits (key : Key) : System MgmtCtx MgmtVisit where
  init x := ∃ env, MgmtHosted key env ∧ x = ⟨env, mgmtNew key.fd, [], false⟩
  step := MgmtStep key

def mgmtReceived (calls : List MgmtCall) : List UInt8 :=
  calls.flatMap fun
    | .recv octets => octets
    | _ => []

/-- The handshakes that were compared with the configuration. -/
def handshakes (calls : List MgmtCall) :
    List (List UInt8 × List UInt8 × Bool) :=
  calls.filterMap fun
    | .handshake user pass ok => some (user, pass, ok)
    | _ => none

/-- `process_request` or the answer to an unknown command, with the octets that
the request was parsed from. -/
def MgmtCall.Answers : MgmtCall → List UInt8 → Prop
  | .processRequest r, octets =>
      0 < (parseRequest octets .zero).1 ∧ (parseRequest octets .zero).2 = r
  | .unknownCommand cmd, octets =>
      (parseRequest octets .zero).1 = -2 ∧
        (parseRequest octets .zero).2.cmd = cmd
  | _, _ => False

def MgmtCall.gated : MgmtCall → Prop
  | .processRequest _ | .unknownCommand _ => True
  | _ => False

/-- The gate was passed before a request was answered. -/
def MgmtPassed (before : List MgmtCall) (gate : MgmtCall) : Prop :=
  ∃ user pass skipped octets,
    MgmtCall.handshake user pass true ∈ before ∧
    [smpVersion, smpAuthOk] <+: delivered before ∧
    mgmtReceived before = authMessage user pass ++ (skipped ++ octets) ∧
    gate.Answers octets

/-- The handshake was refused, or it is none. -/
def MgmtRefused (calls : List MgmtCall) : Prop :=
  (∃ user pass, MgmtCall.handshake user pass false ∈ calls) ∨
    (parseAuth (mgmtReceived calls)).1 < 0

def MgmtVisit.Harmless (v : MgmtVisit) : Prop :=
  v.after.users = v.before.users ∧ v.after.config = v.before.config

@[simp] theorem mgmtReceived_append (left right : List MgmtCall) :
    mgmtReceived (left ++ right) = mgmtReceived left ++ mgmtReceived right :=
      List.flatMap_append

@[simp] theorem handshakes_append (left right : List MgmtCall) :
    handshakes (left ++ right) = handshakes left ++ handshakes right :=
  List.filterMap_append

theorem mem_handshakes {calls : List MgmtCall} {user pass : List UInt8}
    {ok : Bool} :
    (user, pass, ok) ∈ handshakes calls ↔
      MgmtCall.handshake user pass ok ∈ calls := by
  constructor
  · intro member
    obtain ⟨made, member, same⟩ := List.mem_filterMap.mp member
    cases made with
    | handshake user' pass' ok' =>
        cases same
        exact member
    | _ => cases same
  · exact fun member => List.mem_filterMap.mpr ⟨_, member, rfl⟩

theorem octetAt_eq {octets : List UInt8} {i : Nat}
    (within : i < octets.length) :
    octets.drop i = octetAt octets i :: octets.drop (i + 1) := by
  rw [List.drop_eq_getElem_cons within, octetAt,
    List.getElem?_eq_getElem within]
  rfl

theorem slice_length {octets : List UInt8} {start count : Nat}
    (within : start + count ≤ octets.length) :
    (slice octets start count).length = count := by
  rw [slice, List.length_take, List.length_drop]
  omega

theorem slice_append_drop (octets : List UInt8) (start count : Nat) :
    slice octets start count ++ octets.drop (start + count) =
      octets.drop start := by
  rw [slice, ← List.drop_drop, List.take_append_drop]

private theorem authMessage_of_fields {octets : List UInt8}
    (version : octetAt octets 0 = smpVersion)
    (named : (octetAt octets 1).toNat ≠ 0)
    (worded : (octetAt octets (2 + (octetAt octets 1).toNat)).toNat ≠ 0)
    (whole : 2 + (octetAt octets 1).toNat + 1 +
      (octetAt octets (2 + (octetAt octets 1).toNat)).toNat ≤ octets.length) :
    ∃ user pass rest, FieldLength user ∧ FieldLength pass ∧
      octets = authMessage user pass ++ rest := by
  have small (octet : UInt8) : octet.toNat ≤ 255 :=
    Nat.le_of_lt_succ octet.toNat_lt
  generalize ulen_eq : (octetAt octets 1).toNat = ulen at *
  generalize plen_eq : (octetAt octets (2 + ulen)).toNat = plen at *
  have ulen_small : ulen ≤ 255 := ulen_eq ▸ small _
  have plen_small : plen ≤ 255 := plen_eq ▸ small _
  have user_length : (slice octets 2 ulen).length = ulen :=
    slice_length (by omega)
  have pass_length : (slice octets (3 + ulen) plen).length = plen :=
    slice_length (by omega)
  refine ⟨slice octets 2 ulen, slice octets (3 + ulen) plen,
    octets.drop (3 + ulen + plen), ?_, ?_, ?_⟩
  · rw [FieldLength, user_length]
    omega
  · rw [FieldLength, pass_length]
    omega
  · have user_octet : ulen.toUInt8 = octetAt octets 1 := by
      simp [← ulen_eq]
    have pass_octet : plen.toUInt8 = octetAt octets (2 + ulen) := by
      simp [← plen_eq]
    calc octets
        = octetAt octets 0 :: octetAt octets 1 :: octets.drop 2 := by
          rw [← octetAt_eq (by omega), ← octetAt_eq (by omega), List.drop_zero]
      _ = octetAt octets 0 :: octetAt octets 1 ::
            (slice octets 2 ulen ++ octets.drop (2 + ulen)) := by
          rw [slice_append_drop]
      _ = octetAt octets 0 :: octetAt octets 1 :: (slice octets 2 ulen ++
            octetAt octets (2 + ulen) :: (slice octets (3 + ulen) plen ++
              octets.drop (3 + ulen + plen))) := by
          rw [slice_append_drop octets (3 + ulen),
            @octetAt_eq octets (2 + ulen) (by omega),
            Nat.add_right_comm 2]
      _ = authMessage (slice octets 2 ulen) (slice octets (3 + ulen) plen) ++
            octets.drop (3 + ulen + plen) := by
          rw [authMessage, user_length, pass_length, user_octet,
            pass_octet, version]
          simp [smpVersion]

theorem parseAuth_accepts {octets : List UInt8}
    (decided : 0 < (parseAuth octets).1) :
    ∃ user pass rest, FieldLength user ∧ FieldLength pass ∧
      octets = authMessage user pass ++ rest := by
  unfold parseAuth at decided
  split at decided
  · cases decided
  next two =>
    split at decided
    · cases decided
    next version =>
      dsimp only at decided
      split at decided
      · cases decided
      next named =>
        split at decided
        · cases decided
        next long =>
          split at decided
          · cases decided
          next worded =>
            split at decided
            · cases decided
            next whole =>
              exact authMessage_of_fields (not_ne_iff.mp version)
                (by omega) (by omega)
                (by omega)

theorem Incremental.bounded {α : Type} {parse : List UInt8 → Int × α}
    (incremental : Incremental parse) (octets : List UInt8) :
    (parse octets).1 ≤ octets.length := by
  by_contra longer
  have waits := incremental.waits octets octets.length (by omega)
  rw [List.take_length] at waits
  omega

theorem parseRequest_two {octets : List UInt8} {r : MgmtReq}
    (decided : (parseRequest octets r).1 ≠ 0) : 2 ≤ octets.length := by
  unfold parseRequest at decided
  split at decided
  · exact absurd rfl decided
  next two => omega

/-- The codes that `parse_request` returns. -/
theorem parseRequest_code (octets : List UInt8) (r : MgmtReq) :
    (parseRequest octets r).1 = -2 ∨ (parseRequest octets r).1 = -1 ∨
      0 ≤ (parseRequest octets r).1 := by
  have add (r : MgmtReq) :
      (parseAddUser octets r).1 = -1 ∨ 0 ≤ (parseAddUser octets r).1 := by
    unfold parseAddUser
    dsimp only
    repeat' split
    all_goals dsimp only; omega
  have del (r : MgmtReq) :
      (parseDelUser octets r).1 = -1 ∨ 0 ≤ (parseDelUser octets r).1 := by
    unfold parseDelUser
    dsimp only
    repeat' split
    all_goals dsimp only; omega
  have config (r : MgmtReq) : 0 ≤ (parseSetConfig octets r).1 := by
    unfold parseSetConfig
    dsimp only
    repeat' split
    all_goals dsimp only; omega
  unfold parseRequest
  split
  · exact .inr (.inr (Int.le_refl 0))
  · split
    · exact .inr (.inl rfl)
    · dsimp only
      split
      · exact .inr (.inr (Int.zero_le_ofNat 2))
      · split
        · exact .inr (add _)
        · split
          · exact .inr (del _)
          · split
            · exact .inr (.inr (config _))
            · exact .inl rfl

@[simp] theorem delivered_send (octets : List UInt8) :
    delivered [.send octets] = octets := List.append_nil octets

@[simp] theorem mgmtReceived_recv (octets : List UInt8) :
    mgmtReceived [.recv octets] = octets := List.append_nil octets

theorem quiet_concat {calls : List MgmtCall} {call : MgmtCall}
    (quiet : ∀ made ∈ calls, ¬ made.gated) (plain : ¬ call.gated) :
    ∀ made ∈ calls ++ [call], ¬ made.gated := by
  intro made member
  rcases List.mem_append.mp member with member | member
  · exact quiet made member
  · rw [List.mem_singleton.mp member]
    exact plain

/-- The stage of the connection: before the handshake was decided, while its
reply is sent, and after the whole of a success reply. -/
inductive MgmtStage (calls : List MgmtCall) (c : MgmtConn) : Prop
  | waiting (state : c.state = .auth) (room : c.wbuf.limit = mgmtWbuf)
      (none : handshakes calls = []) (sent : delivered calls = [])
      (quiet : ∀ made ∈ calls, ¬ made.gated)
      (arrived : mgmtReceived calls = c.rbuf.content)
  | replying (user pass : List UInt8) (ok : Bool) (state : c.state = .authReply)
      (validUser : FieldLength user) (validPass : FieldLength pass)
      (only : handshakes calls = [(user, pass, ok)])
      (sent : delivered calls ++ c.wbuf.content =
        [smpVersion, if ok then smpAuthOk else smpAuthFailed])
      (quiet : ∀ made ∈ calls, ¬ made.gated)
      (closes : c.closeAfterWrite = !ok)
      (arrived : mgmtReceived calls = authMessage user pass ++ c.rbuf.content)
  | admitted (user pass skipped : List UInt8)
      (state : c.state = .request ∨ c.state = .response)
      (validUser : FieldLength user) (validPass : FieldLength pass)
      (only : handshakes calls = [(user, pass, true)])
      (sent : [smpVersion, smpAuthOk] <+: delivered calls)
      (closes : c.closeAfterWrite = false)
      (arrived : mgmtReceived calls = authMessage user pass ++
        (skipped ++ c.rbuf.content))

theorem MgmtStage.request {calls : List MgmtCall} {c : MgmtConn} {wbuf : Buffer}
    (stage : MgmtStage calls c) (state : c.state = .request) :
    MgmtStage calls { c with wbuf := wbuf } := by
  cases stage with
  | waiting other | replying _ _ _ other =>
      rw [state] at other
      cases other
  | admitted user pass skipped state validUser validPass only sent
        closes arrived =>
      exact .admitted user pass skipped state validUser validPass only sent
        closes arrived

theorem MgmtStage.call {calls : List MgmtCall} {c : MgmtConn} {call : MgmtCall}
    (stage : MgmtStage calls c) (checks : handshakes [call] = [])
    (sends : delivered [call] = []) (receives : mgmtReceived [call] = [])
    (plain : ¬ call.gated) :
    MgmtStage (calls ++ [call]) c := by
  cases stage with
  | waiting state room none sent quiet arrived =>
      refine .waiting state room ?_ ?_ (quiet_concat quiet plain) ?_
      · rw [handshakes_append, none, checks]
        rfl
      · rw [delivered_append, sent, sends]
        rfl
      · rw [mgmtReceived_append, arrived, receives, List.append_nil]
  | replying user pass ok state validUser validPass only sent quiet
        closes arrived =>
      refine .replying user pass ok state validUser validPass ?_ ?_
        (quiet_concat quiet plain) closes ?_
      · rw [handshakes_append, only, checks]
        rfl
      · rw [delivered_append, sends, List.append_nil, sent]
      · rw [mgmtReceived_append, arrived, receives, List.append_nil]
  | admitted user pass skipped state validUser validPass only sent
        closes arrived =>
      refine .admitted user pass skipped state validUser validPass ?_
        ?_ closes ?_
      · rw [handshakes_append, only, checks]
        rfl
      · rw [delivered_append, sends, List.append_nil]
        exact sent
      · rw [mgmtReceived_append, arrived, receives, List.append_nil]

theorem MgmtStage.recv {calls : List MgmtCall} {c : MgmtConn}
    {octets : List UInt8} (stage : MgmtStage calls c)
    (fits : octets.length ≤ c.rbuf.space) :
    MgmtStage (calls ++ [.recv octets])
      { c with rbuf := bufferFill c.rbuf octets } := by
  have filled := Buffer.content_fill fits
  cases stage with
  | waiting state room none sent quiet arrived =>
      refine .waiting state room ?_ ?_ (quiet_concat quiet not_false) ?_
      · rw [handshakes_append, none]
        rfl
      · rw [delivered_append, sent]
        rfl
      · rw [mgmtReceived_append, arrived, mgmtReceived_recv]
        exact filled.symm
  | replying user pass ok state validUser validPass only sent quiet
        closes arrived =>
      refine .replying user pass ok state validUser validPass ?_ ?_
        (quiet_concat quiet not_false) closes ?_
      · rw [handshakes_append, only]
        rfl
      · rw [delivered_append]
        exact (congrArg (· ++ _) (List.append_nil _)).trans sent
      · rw [mgmtReceived_append, arrived, mgmtReceived_recv, List.append_assoc,
          filled]
  | admitted user pass skipped state validUser validPass only sent
        closes arrived =>
      refine .admitted user pass skipped state validUser validPass ?_
        ?_ closes ?_
      · rw [handshakes_append, only]
        rfl
      · rw [delivered_append]
        exact sent.trans (List.prefix_append ..)
      · rw [mgmtReceived_append, arrived, mgmtReceived_recv, List.append_assoc,
          List.append_assoc, filled]

theorem MgmtStage.send {calls : List MgmtCall} {c : MgmtConn} (count : Nat)
    (stage : MgmtStage calls c) (replies : c.state ≠ .auth) :
    MgmtStage (calls ++ [.send (c.wbuf.content.take count)])
      { c with
        wbuf := bufferReadAdv c.wbuf (c.wbuf.content.take count).length } := by
  have left :
      (bufferReadAdv c.wbuf (c.wbuf.content.take count).length).content =
        c.wbuf.content.drop (c.wbuf.content.take count).length :=
    Buffer.content_readAdv (List.length_take_le' ..)
  have restored :=
    List.prefix_iff_eq_append.mp (List.take_prefix count c.wbuf.content)
  cases stage with
  | waiting state => exact absurd state replies
  | replying user pass ok state validUser validPass only sent quiet
        closes arrived =>
      refine .replying user pass ok state validUser validPass ?_ ?_
        (quiet_concat quiet not_false) closes ?_
      · rw [handshakes_append, only]
        rfl
      · rw [left, delivered_append, delivered_send, List.append_assoc,
          restored, sent]
      · rw [mgmtReceived_append, arrived]
        exact List.append_nil _
  | admitted user pass skipped state validUser validPass only sent
        closes arrived =>
      refine .admitted user pass skipped state validUser validPass ?_
        ?_ closes ?_
      · rw [handshakes_append, only]
        rfl
      · rw [delivered_append]
        exact sent.trans (List.prefix_append ..)
      · rw [mgmtReceived_append, arrived]
        exact List.append_nil _

/-- After the whole of a reply that leaves the connection open a request is
awaited. -/
theorem MgmtStage.flushed {calls : List MgmtCall} {c : MgmtConn}
    (stage : MgmtStage calls c) (replies : c.state ≠ .auth)
    (emptied : c.wbuf.content = []) (open_ : c.closeAfterWrite = false) :
    MgmtStage calls { c with state := .request } := by
  cases stage with
  | waiting state => exact absurd state replies
  | replying user pass ok state validUser validPass only sent quiet
        closes arrived =>
      have accepted : ok = true := by
        rw [open_] at closes
        simpa using closes.symm
      subst accepted
      rw [emptied, List.append_nil] at sent
      exact .admitted user pass [] (.inl rfl) validUser validPass only
        (sent ▸ List.prefix_refl _) open_ arrived
  | admitted user pass skipped state validUser validPass only sent
        closes arrived =>
      exact .admitted user pass skipped (.inl rfl) validUser validPass
        only sent closes arrived

def MgmtState.interest : MgmtState → Interest
  | .auth | .request => opRead
  | .authReply | .response => opWrite

/-- The invariant of a run; while a handler runs the last field may not hold
yet. -/
structure MgmtGated (key : Key) (x : MgmtCtx) : Prop where
  fd : x.c.fd = key.fd
  item : x.closed = false →
    x.env.selector.items key.fd = some ⟨x.c.state.interest, .mgmt, key.data⟩
  guarded : ∀ before gate, before ++ [gate] <+: x.calls → gate.gated →
    MgmtPassed before gate
  stage : MgmtStage x.calls x.c

/-- Between two handlers a handshake is incomplete or its reply partly
unsent. -/
def MgmtResting (x : MgmtCtx) : Prop :=
  x.closed = false →
    (x.c.state = .auth → (parseAuth x.c.rbuf.content).1 = 0) ∧
    (x.c.state = .authReply → x.c.wbuf.content ≠ [])

theorem MgmtResting.of_closed {x : MgmtCtx} (closed : x.closed = true) :
    MgmtResting x := by
  intro open_
  rw [closed] at open_
  cases open_

theorem MgmtResting.of_serving {x : MgmtCtx}
    (serving : x.c.state = .request ∨ x.c.state = .response) :
    MgmtResting x := by
  intro _
  constructor <;> intro other <;> rcases serving with state | state <;>
    exact nomatch other.symm.trans state

structure MgmtVisited (x next : MgmtCtx) (made : List MgmtCall) : Prop where
  calls : next.calls = x.calls ++ made
  compared : ∀ user pass ok, MgmtCall.handshake user pass ok ∈ made →
    ok = SmpMessage.admits x.env.config user pass
  harmless : (∀ call ∈ made, ¬ call.gated) →
    next.env.users = x.env.users ∧ next.env.config = x.env.config

theorem MgmtVisited.nothing (x : MgmtCtx) : MgmtVisited x x [] :=
  ⟨(List.append_nil _).symm, fun _ _ _ member => absurd member List.not_mem_nil,
    fun _ => ⟨rfl, rfl⟩⟩

theorem MgmtVisited.after_call {x first next : MgmtCtx} {call : MgmtCall}
    {made : List MgmtCall} (visited : MgmtVisited first next made)
    (calls : first.calls = x.calls ++ [call]) (plain : handshakes [call] = [])
    (users : first.env.users = x.env.users)
    (config : first.env.config = x.env.config) :
    MgmtVisited x next (call :: made) := by
  refine ⟨?_, ?_, ?_⟩
  · rw [visited.calls, calls, List.append_assoc]
    rfl
  · intro user pass ok member
    rcases List.mem_cons.mp member with rfl | member
    · cases plain
    · rw [← config]
      exact visited.compared user pass ok member
  · intro quiet
    obtain ⟨sameUsers, sameConfig⟩ :=
      visited.harmless fun made member =>
        quiet made (List.mem_cons_of_mem _ member)
    exact ⟨sameUsers.trans users, sameConfig.trans config⟩

theorem guarded_concat {calls : List MgmtCall} {call : MgmtCall}
    (guarded : ∀ before gate, before ++ [gate] <+: calls → gate.gated →
      MgmtPassed before gate)
    (passed : call.gated → MgmtPassed calls call)
    (before : List MgmtCall) (gate : MgmtCall)
    (first : before ++ [gate] <+: calls ++ [call]) (gated : gate.gated) :
    MgmtPassed before gate := by
  rcases List.prefix_concat_iff.mp first with whole | earlier
  · obtain ⟨rfl, rfl⟩ := List.concat_inj.mp (by simpa using whole)
    exact passed gated
  · exact guarded before gate earlier gated

section Handlers

variable {key : Key} {x : MgmtCtx} (valid : invalidFd key.fd = false)

def MgmtHandled (key : Key) (x : MgmtCtx) (next : MgmtCtx) : Prop :=
  MgmtGated key next ∧ MgmtResting next ∧ ∃ made, MgmtVisited x next made

include valid

/-- `mgmt_done` closes the connection and changes nothing else. -/
theorem mgmtDone_registered {i : Interest}
    (item : x.env.selector.items key.fd = some ⟨i, .mgmt, key.data⟩) :
    ∃ env, mgmtDone key x = some { x with env := env, closed := true } ∧
      env.users = x.env.users ∧ env.config = x.env.config := by
  unfold mgmtDone
  rw [if_neg (Bool.not_eq_true _ ▸ valid), item]
  dsimp only
  rw [if_pos ⟨rfl, rfl⟩]
  exact ⟨_, rfl, rfl, rfl⟩

theorem MgmtGated.done (gated : MgmtGated key x) (live : x.closed = false) :
    ∃ next, mgmtDone key x = some next ∧ MgmtHandled key x next := by
  obtain ⟨env, runs, users, config⟩ :=
    mgmtDone_registered valid (gated.item live)
  refine ⟨_, runs, ⟨gated.fd, ?_, gated.guarded, gated.stage⟩, ?_, [], ?_⟩
  · intro open_
    cases open_
  · exact .of_closed rfl
  · exact ⟨(List.append_nil _).symm,
      fun _ _ _ member => absurd member List.not_mem_nil,
      fun _ => ⟨users, config⟩⟩

theorem MgmtGated.processAuth (gated : MgmtGated key x)
    (live : x.closed = false) (state : x.c.state = .auth) :
    ∃ next, mgmtProcessAuth key x = some next ∧ MgmtHandled key x next := by
  obtain ⟨room, none, sent, quiet, arrived⟩ :
      x.c.wbuf.limit = mgmtWbuf ∧ handshakes x.calls = [] ∧
      delivered x.calls = [] ∧
        (∀ made ∈ x.calls, ¬ made.gated) ∧ mgmtReceived x.calls =
          x.c.rbuf.content := by
    cases gated.stage with
    | waiting _ room none sent quiet arrived =>
        exact ⟨room, none, sent, quiet, arrived⟩
    | replying _ _ _ other =>
        rw [state] at other
        cases other
    | admitted _ _ _ other =>
        rw [state] at other
        rcases other with other | other <;> cases other
  by_cases decided : 0 < (parseAuth x.c.rbuf.content).1
  · obtain ⟨user, pass, rest, validUser, validPass, content⟩ :=
      parseAuth_accepts decided
    have positive : (authMessage user pass).length ≠ 0 := by
      simp [authMessage]
    have written (octets : List UInt8) (two : octets.length = 2) :
        (bufferWriteAll (bufferReset x.c.wbuf) octets).content = octets :=
      Buffer.content_writeAll_reset (by rw [room, two]; decide)
    have left :
        (bufferReadAdv x.c.rbuf (authMessage user pass).length).content =
          rest := by
      rw [Buffer.content_readAdv (by simp [content]), content, List.drop_left]
    unfold mgmtProcessAuth
    rw [content, parseAuth_message validUser validPass]
    dsimp only
    rw [if_neg (by omega), if_neg (by omega), Int.toNat_natCast]
    refine ⟨_, rfl, ⟨gated.fd, ?_, ?_, ?_⟩, ?_,
      [.handshake user pass (SmpMessage.admits x.env.config user pass)],
      rfl, ?_, ?_⟩
    · intro _
      have registered := item_setInterest (i := opWrite) valid (gated.item live)
      rw [← gated.fd] at registered ⊢
      exact registered
    · exact guarded_concat gated.guarded fun passed => passed.elim
    · refine .replying user pass (SmpMessage.admits x.env.config user pass)
        rfl validUser validPass ?_ ?_ ?_ ?_ ?_
      · change handshakes (x.calls ++ [_]) = _
        rw [handshakes_append, none]
        rfl
      · change delivered (x.calls ++ [_]) ++ _ = _
        rw [delivered_append, sent]
        refine (written _ rfl).trans ?_
        simp [SmpMessage.admits]
      · exact quiet_concat quiet not_false
      · simp [MgmtCtx.setInterest, MgmtCtx.call, SmpMessage.admits]
      · change mgmtReceived (x.calls ++ [_]) = authMessage user pass ++
          (bufferReadAdv x.c.rbuf (authMessage user pass).length).content
        rw [mgmtReceived_append, arrived, left, ← content]
        exact List.append_nil _
    · intro _
      refine ⟨fun receives => ?_, fun _ => ?_⟩
      · cases receives
      change (bufferWriteAll (bufferReset x.c.wbuf) _).content ≠ []
      rw [written _ rfl]
      exact List.cons_ne_nil _ _
    · intro _ _ _ member
      cases List.mem_singleton.mp member
      rfl
    · exact fun _ => ⟨rfl, rfl⟩
  · unfold mgmtProcessAuth
    dsimp only
    split
    next waits =>
      refine ⟨x, rfl, gated, fun _ => ⟨fun _ => waits, fun other => ?_⟩,
        [], .nothing x⟩
      rw [state] at other
      cases other
    next failed =>
      rw [if_pos (by omega)]
      exact gated.done valid live

theorem MgmtGated.answered {made : MgmtCall} {count : Nat} {env : Env}
    {wbuf : Buffer} (gated : MgmtGated key x) (live : x.closed = false)
    (state : x.c.state = .request) (selector : env.selector = x.env.selector)
    (gate : made.gated) (answers : made.Answers x.c.rbuf.content)
    (consumed : count ≤ x.c.rbuf.content.length) :
    MgmtHandled key x (MgmtCtx.setInterest
      { x.call made with
        env := env
        c := { x.c with
          rbuf := bufferReadAdv x.c.rbuf count
          wbuf := wbuf
          state := .response } } opWrite) := by
  obtain ⟨user, pass, skipped, validUser, validPass, only, sent,
      closes, arrived⟩ :
      ∃ user pass skipped, FieldLength user ∧ FieldLength pass ∧
        handshakes x.calls = [(user, pass, true)] ∧
        [smpVersion, smpAuthOk] <+: delivered x.calls ∧
        x.c.closeAfterWrite = false ∧
        mgmtReceived x.calls = authMessage user pass ++
          (skipped ++ x.c.rbuf.content) := by
    cases gated.stage with
    | waiting other | replying _ _ _ other =>
        rw [state] at other
        cases other
    | admitted user pass skipped _ validUser validPass only sent
          closes arrived =>
        exact ⟨user, pass, skipped, validUser, validPass, only, sent,
          closes, arrived⟩
  have plain : handshakes [made] = [] ∧ delivered [made] = [] ∧
      mgmtReceived [made] = [] := by
    cases made with
    | processRequest _ | unknownCommand _ => exact ⟨rfl, rfl, rfl⟩
    | _ => exact gate.elim
  have checked : MgmtCall.handshake user pass true ∈ x.calls := by
    rw [← mem_handshakes, only]
    exact List.mem_singleton_self _
  refine ⟨⟨gated.fd, ?_, ?_, ?_⟩, ?_, [made], rfl, ?_, ?_⟩
  · intro _
    have registered := item_setInterest (i := opWrite) valid (gated.item live)
    rw [← gated.fd, ← selector] at registered
    rw [← gated.fd]
    exact registered
  · exact guarded_concat gated.guarded fun _ =>
      ⟨user, pass, skipped, x.c.rbuf.content, checked, sent, arrived, answers⟩
  · refine .admitted user pass (skipped ++ x.c.rbuf.content.take count)
      (.inr rfl) validUser validPass ?_ ?_ closes ?_
    · change handshakes (x.calls ++ [made]) = _
      rw [handshakes_append, only, plain.1]
      rfl
    · change _ <+: delivered (x.calls ++ [made])
      rw [delivered_append, plain.2.1, List.append_nil]
      exact sent
    · change mgmtReceived (x.calls ++ [made]) =
        authMessage user pass ++ (_ ++ (bufferReadAdv x.c.rbuf count).content)
      rw [mgmtReceived_append, plain.2.2, List.append_nil, arrived,
        Buffer.content_readAdv consumed, List.append_assoc,
        List.take_append_drop]
  · exact .of_serving (.inr rfl)
  · intro _ _ _ member
    cases List.mem_singleton.mp member
    cases gate
  · exact fun quiet => absurd gate (quiet made (List.mem_singleton_self _))

theorem MgmtGated.processRequest (gated : MgmtGated key x)
    (live : x.closed = false) (state : x.c.state = .request) :
    ∃ next, mgmtProcessRequest key x = some next ∧ MgmtHandled key x next := by
  have bounded := (incremental_parseRequest .zero).bounded x.c.rbuf.content
  have two := @parseRequest_two x.c.rbuf.content .zero
  unfold mgmtProcessRequest
  rcases parsed : parseRequest x.c.rbuf.content .zero with ⟨rc, r⟩
  rw [parsed] at bounded two
  dsimp only at bounded two ⊢
  split
  next waits =>
    exact ⟨x, rfl, gated, .of_serving (.inl state), [], .nothing x⟩
  next decided =>
    split
    next failed =>
      have reset :
          MgmtGated key
          { x with c := { x.c with wbuf := bufferReset x.c.wbuf } } :=
        ⟨gated.fd, gated.item, gated.guarded, gated.stage.request state⟩
      obtain ⟨next, runs, handled, resting, made, visited⟩ :=
        reset.done valid live
      exact ⟨next, runs, handled, resting, made, visited.calls,
        visited.compared, visited.harmless⟩
    next accepted =>
      split
      next undefined =>
        refine ⟨_, rfl, gated.answered valid live state rfl trivial ⟨?_, ?_⟩
          (two decided)⟩
        · rw [parsed]
          exact undefined
        · rw [parsed]
      next known =>
        have code := parseRequest_code x.c.rbuf.content .zero
        rw [parsed] at code
        dsimp only at code
        refine ⟨_, rfl, gated.answered valid live state
          (selector_processMgmtRequest ..) trivial ⟨?_, ?_⟩ (by omega)⟩
        · rw [parsed]
          dsimp only
          omega
        · rw [parsed]

theorem MgmtGated.tryProcess (gated : MgmtGated key x) (live : x.closed = false)
    (receives : x.c.state ≠ .authReply) :
    ∃ next, mgmtTryProcess key x = some next ∧ MgmtHandled key x next := by
  unfold mgmtTryProcess
  split
  next state => exact gated.processAuth valid live state
  next state => exact gated.processRequest valid live state
  next state => exact absurd state receives
  next state => exact ⟨x, rfl, gated, .of_serving (.inr state), [], .nothing x⟩

omit valid

theorem MgmtGated.call {call : MgmtCall} (gated : MgmtGated key x)
    (checks : handshakes [call] = []) (sends : delivered [call] = [])
    (receives : mgmtReceived [call] = []) (plain : ¬ call.gated) :
    MgmtGated key (x.call call) :=
  ⟨gated.fd, gated.item, guarded_concat gated.guarded fun passed => absurd
    passed plain, gated.stage.call checks sends receives plain⟩

theorem MgmtHandled.after_call {first next : MgmtCtx} {call : MgmtCall}
    (handled : MgmtHandled key first next)
    (calls : first.calls = x.calls ++ [call]) (plain : handshakes [call] = [])
    (users : first.env.users = x.env.users)
    (config : first.env.config = x.env.config) :
    MgmtHandled key x next := by
  obtain ⟨gated, resting, made, visited⟩ := handled
  exact ⟨gated, resting, _, visited.after_call calls plain users config⟩

theorem MgmtGated.stop {call : MgmtCall} (gated : MgmtGated key x)
    (resting : MgmtResting x) (checks : handshakes [call] = [])
    (sends : delivered [call] = []) (receives : mgmtReceived [call] = [])
    (plain : ¬ call.gated) :
    MgmtHandled key x (x.call call) := by
  have last : MgmtHandled key (x.call call) (x.call call) :=
    ⟨gated.call checks sends receives plain, resting, [], .nothing _⟩
  exact last.after_call rfl checks rfl rfl

include valid

theorem MgmtGated.read (gated : MgmtGated key x) (resting : MgmtResting x)
    (live : x.closed = false) (receives : x.c.state ≠ .authReply)
    (a : Answers) :
    ∃ next, mgmtRead key a x = some next ∧ MgmtHandled key x next := by
  unfold mgmtRead
  split
  · exact gated.done valid live
  · split
    next e _ =>
      split
      · exact ⟨_, rfl, gated.stop resting rfl rfl rfl not_false⟩
      · have failed : MgmtGated key (x.call (.recvFailed e)) :=
          gated.call rfl rfl rfl not_false
        obtain ⟨next, runs, handled⟩ := failed.done valid live
        exact ⟨next, runs, handled.after_call rfl rfl rfl rfl⟩
    next octets _ =>
      dsimp only
      split
      next none =>
        have ended :
            MgmtGated key (x.call (.recv (octets.take x.c.rbuf.space))) :=
          gated.call rfl rfl (by rw [none]; rfl) not_false
        obtain ⟨next, runs, handled⟩ := ended.done valid live
        exact ⟨next, runs, handled.after_call rfl rfl rfl rfl⟩
      next some =>
        have filled : MgmtGated key
            { x.call (.recv (octets.take x.c.rbuf.space)) with
              c := { x.c with
                rbuf := bufferFill x.c.rbuf (octets.take x.c.rbuf.space) } } :=
          ⟨gated.fd, gated.item, guarded_concat gated.guarded fun passed =>
            passed.elim, gated.stage.recv (List.length_take_le ..)⟩
        obtain ⟨next, runs, handled⟩ := filled.tryProcess valid live receives
        exact ⟨next, runs, handled.after_call rfl rfl rfl rfl⟩

theorem MgmtGated.write (gated : MgmtGated key x) (resting : MgmtResting x)
    (live : x.closed = false) (replies : x.c.state ≠ .auth) (a : Answers) :
    ∃ next, mgmtWrite key a x = some next ∧ MgmtHandled key x next := by
  unfold mgmtWrite
  split
  next e _ =>
    split
    · exact ⟨_, rfl, gated.stop resting rfl rfl rfl not_false⟩
    · have failed : MgmtGated key (x.call (.sendFailed e)) :=
        gated.call rfl rfl rfl not_false
      obtain ⟨next, runs, handled⟩ := failed.done valid live
      exact ⟨next, runs, handled.after_call rfl rfl rfl rfl⟩
  next count _ =>
    have sent : MgmtGated key
        { x.call (.send (x.c.wbuf.content.take count)) with
          c := { x.c with
            wbuf :=
              bufferReadAdv x.c.wbuf (x.c.wbuf.content.take count).length } } :=
      ⟨gated.fd, gated.item, guarded_concat gated.guarded fun passed =>
        passed.elim, gated.stage.send count replies⟩
    dsimp only
    split
    next more =>
      have last : MgmtHandled key _ _ :=
        ⟨sent, fun _ => ⟨fun state => absurd state replies,
          fun _ => (Buffer.canRead_iff _).mp more⟩, [], .nothing _⟩
      exact ⟨_, rfl, last.after_call rfl rfl rfl rfl⟩
    next flushed =>
      split
      next =>
        obtain ⟨next, runs, handled⟩ := sent.done valid live
        exact ⟨next, runs, handled.after_call rfl rfl rfl rfl⟩
      next open_ =>
        rw [Bool.not_eq_true] at flushed open_
        have awaiting : MgmtGated key (MgmtCtx.setInterest
            { x.call (.send (x.c.wbuf.content.take count)) with
              c := { x.c with
                state := .request
                wbuf := bufferReadAdv x.c.wbuf
                  (x.c.wbuf.content.take count).length } } opRead) := by
          refine ⟨gated.fd, ?_, sent.guarded,
            sent.stage.flushed replies
              ((Buffer.canRead_eq_false_iff _).mp flushed) open_⟩
          intro _
          have registered :=
            item_setInterest (i := opRead) valid (gated.item live)
          rw [← gated.fd] at registered ⊢
          exact registered
        obtain ⟨next, runs, handled⟩ :=
          awaiting.tryProcess valid live (nomatch ·)
        exact ⟨next, runs, handled.after_call rfl rfl rfl rfl⟩

end Handlers

structure GateKept (key : Key) (t : List MgmtVisit) (x : MgmtCtx) : Prop where
  gated : MgmtGated key x
  resting : MgmtResting x
  compared : ∀ v ∈ t, ∀ user pass ok,
    MgmtCall.handshake user pass ok ∈ v.calls →
    ok = SmpMessage.admits v.before.config user pass
  recorded : x.calls = t.flatMap MgmtVisit.calls
  harmless : ∀ v ∈ t, (∀ made ∈ v.calls, ¬ made.gated) → v.Harmless

theorem MgmtGated.elsewhere {key : Key} {x : MgmtCtx} {env : Env}
    (gated : MgmtGated key x)
    (kept : env.selector.items key.fd = x.env.selector.items key.fd) :
    MgmtGated key { x with env := env } :=
  ⟨gated.fd, fun live => kept.trans (gated.item live), gated.guarded,
    gated.stage⟩

theorem GateKept.step {key : Key} (valid : invalidFd key.fd = false)
    {t : List MgmtVisit} {x next : MgmtCtx} {v : MgmtVisit}
    (kept : GateKept key t x) (step : MgmtStep key x v next) :
    GateKept key (t ++ [v]) next := by
  obtain ⟨⟨gated, resting, made, visited⟩, calls, after⟩ :
      MgmtHandled key { x with env := v.before } next ∧
        next.calls = x.calls ++ v.calls ∧ next.env = v.after := by
    cases step with
    | @read a item live registered same ready runs calls after =>
        have interest := (kept.gated.item live).symm.trans registered
        have receives : x.c.state ≠ .authReply := by
          intro state
          rw [state] at interest
          cases interest
          cases ready
        obtain ⟨found, ran, handled⟩ :=
          (kept.gated.elsewhere (same.trans registered.symm)).read valid
            kept.resting live receives a
        cases ran.symm.trans runs
        exact ⟨handled, calls, after⟩
    | @write a item live registered same ready runs calls after =>
        have interest := (kept.gated.item live).symm.trans registered
        have replies : x.c.state ≠ .auth := by
          intro state
          rw [state] at interest
          cases interest
          cases ready
        obtain ⟨found, ran, handled⟩ :=
          (kept.gated.elsewhere (same.trans registered.symm)).write valid
            kept.resting live replies a
        cases ran.symm.trans runs
        exact ⟨handled, calls, after⟩
  have same : made = v.calls :=
    List.append_cancel_left (visited.calls.symm.trans calls)
  subst same
  refine ⟨gated, resting, ?_, ?_, ?_⟩
  · intro w member
    rcases List.mem_append.mp member with member | member
    · exact kept.compared w member
    · cases List.mem_singleton.mp member
      exact visited.compared
  · rw [calls, kept.recorded, List.flatMap_append, List.flatMap_singleton]
  · intro w member
    rcases List.mem_append.mp member with member | member
    · exact kept.harmless w member
    · cases List.mem_singleton.mp member
      rw [MgmtVisit.Harmless, ← after]
      exact visited.harmless

theorem gateKept_of_run {key : Key} {env : Env} (hosted : MgmtHosted key env)
    {t : List MgmtVisit} {x : MgmtCtx}
    (run : (mgmtVisits key).Run ⟨env, mgmtNew key.fd, [], false⟩ t x) :
    GateKept key t x := by
  obtain ⟨valid, item⟩ := hosted
  refine run.history (fun kept step => kept.step valid step) ?_
  refine ⟨⟨rfl, fun _ => item, ?_, ?_⟩, ?_, ?_, ?_, ?_⟩
  · intro before gate first
    simp at first
  · refine .waiting rfl rfl rfl rfl ?_ rfl
    intro made member
    cases member
  · intro _
    exact ⟨fun _ => rfl, fun other => nomatch other⟩
  · exact fun _ member => absurd member List.not_mem_nil
  · rfl
  · exact fun _ member => absurd member List.not_mem_nil

/-- A complete handshake is accepted by `parse_auth`. -/
theorem parseAuth_complete {user pass : List UInt8}
    (validUser : FieldLength user) (validPass : FieldLength pass)
    (rest : List UInt8) :
    ¬ (parseAuth (authMessage user pass ++ rest)).1 < 0 := by
  rw [parseAuth_message validUser validPass]
  dsimp only
  omega

theorem GateKept.refused {key : Key} {t : List MgmtVisit} {x : MgmtCtx}
    (kept : GateKept key t x) (refused : MgmtRefused x.calls) :
    delivered x.calls <+: [smpVersion, smpAuthFailed] ∧
      (∀ made ∈ x.calls, ¬ made.gated) ∧
      (x.closed = true ∨ delivered x.calls ≠ [smpVersion, smpAuthFailed] ∧
        x.env.selector.items key.fd = some ⟨opWrite, .mgmt, key.data⟩) := by
  cases kept.gated.stage with
  | waiting state room none sent quiet arrived =>
      refine ⟨sent ▸ List.nil_prefix, quiet, .inl ?_⟩
      rcases refused with ⟨user, pass, checked⟩ | malformed
      · rw [← mem_handshakes, none] at checked
        cases checked
      · by_contra open_
        have asks := (kept.resting (Bool.not_eq_true _ ▸ open_)).1 state
        rw [arrived, asks] at malformed
        exact absurd malformed (Int.lt_irrefl 0)
  | replying user pass ok state validUser validPass only sent quiet
        closes arrived =>
      have failed : ok = false := by
        rcases refused with ⟨_, _, checked⟩ | malformed
        · rw [← mem_handshakes, only, List.mem_singleton] at checked
          cases checked
          rfl
        · rw [arrived] at malformed
          exact absurd malformed (parseAuth_complete validUser validPass _)
      subst failed
      refine ⟨⟨_, sent⟩, quiet, ?_⟩
      cases live : x.closed with
      | true => exact .inl rfl
      | false =>
          refine .inr ⟨?_, ?_⟩
          · intro whole
            rw [whole] at sent
            exact (kept.resting live).2 state
              (List.append_right_eq_self.mp sent)
          · have item := kept.gated.item live
            rw [state] at item
            exact item
  | admitted user pass skipped state validUser validPass only sent
        closes arrived =>
      rcases refused with ⟨_, _, checked⟩ | malformed
      · rw [← mem_handshakes, only, List.mem_singleton] at checked
        cases checked
      · rw [arrived] at malformed
        exact absurd malformed (parseAuth_complete validUser validPass _)

/-- Requests are only answered behind an accepted handshake whose reply was
sent, and are parsed from octets after it; a refused handshake leads to its
reply at most, and to the end of the connection. -/
theorem management_gate {key : Key} {env : Env} (hosted : MgmtHosted key env)
    {t : List MgmtVisit} {x : MgmtCtx}
    (run : (mgmtVisits key).Run ⟨env, mgmtNew key.fd, [], false⟩ t x) :
    x.calls = t.flatMap MgmtVisit.calls ∧
    (∀ before gate, before ++ [gate] <+: x.calls → gate.gated →
      MgmtPassed before gate) ∧
    (∀ v ∈ t, ∀ user pass ok, MgmtCall.handshake user pass ok ∈ v.calls →
      ok = SmpMessage.admits v.before.config user pass) ∧
    (x.c.state = .request → ∃ user pass skipped,
      MgmtCall.handshake user pass true ∈ x.calls ∧
      mgmtReceived x.calls = authMessage user pass ++
        (skipped ++ x.c.rbuf.content)) ∧
    (MgmtRefused x.calls →
      delivered x.calls <+: [smpVersion, smpAuthFailed] ∧
      (∀ made ∈ x.calls, ¬ made.gated) ∧ (∀ v ∈ t, v.Harmless) ∧
      (x.closed = true ∨ delivered x.calls ≠ [smpVersion, smpAuthFailed] ∧
        x.env.selector.items key.fd = some ⟨opWrite, .mgmt, key.data⟩)) := by
  have kept := gateKept_of_run hosted run
  refine ⟨kept.recorded, kept.gated.guarded, kept.compared, ?_, ?_⟩
  · intro state
    cases kept.gated.stage with
    | waiting other | replying _ _ _ other =>
        rw [state] at other
        cases other
    | admitted user pass skipped _ _ _ only _ _ arrived =>
        refine ⟨user, pass, skipped, ?_, arrived⟩
        rw [← mem_handshakes, only]
        exact List.mem_singleton_self _
  · intro refused
    obtain ⟨sent, quiet, last⟩ := kept.refused refused
    refine ⟨sent, quiet, ?_, last⟩
    intro v member
    refine kept.harmless v member fun made called => quiet made ?_
    rw [kept.recorded]
    exact List.mem_flatMap.mpr ⟨v, member, called⟩

def mgmtTurns (key : Key) (x : MgmtCtx) : List (Bool × Answers) → Option MgmtCtx
  | [] => some x
  | (writes, a) :: rest =>
      if writes then
        if x.closed = false ∧
            (x.env.selector.items key.fd).any (·.interest.write) = true then
          (mgmtWrite key a x).bind fun next =>
            if x.calls <+: next.calls then mgmtTurns key next rest else none
        else none
      else if x.closed = false ∧
          (x.env.selector.items key.fd).any (·.interest.read) = true then
        (mgmtRead key a x).bind fun next =>
          if x.calls <+: next.calls then mgmtTurns key next rest else none
      else none

theorem step_of_mgmtTurns {key : Key} {x last : MgmtCtx} {writes : Bool}
    {a : Answers} {turns : List (Bool × Answers)}
    (replayed : mgmtTurns key x ((writes, a) :: turns) = some last) :
    ∃ v next, v.before = x.env ∧ MgmtStep key x v next ∧
      mgmtTurns key next turns = some last := by
  unfold mgmtTurns at replayed
  split at replayed
  · split at replayed
    next ready =>
      obtain ⟨next, runs, others⟩ := Option.bind_eq_some_iff.mp replayed
      obtain ⟨item, registered, interest⟩ := (Option.any_eq_true ..).mp ready.2
      split at others
      next extends_ =>
        obtain ⟨made, calls⟩ := extends_
        exact ⟨⟨x.env, made, next.env⟩, next, rfl,
          .write ready.1 registered registered interest runs calls.symm rfl,
          others⟩
      · cases others
    · cases replayed
  · split at replayed
    next ready =>
      obtain ⟨next, runs, others⟩ := Option.bind_eq_some_iff.mp replayed
      obtain ⟨item, registered, interest⟩ := (Option.any_eq_true ..).mp ready.2
      split at others
      next extends_ =>
        obtain ⟨made, calls⟩ := extends_
        exact ⟨⟨x.env, made, next.env⟩, next, rfl,
          .read ready.1 registered registered interest runs calls.symm rfl,
          others⟩
      · cases others
    · cases replayed

theorem run_of_mgmtTurns {key : Key} {x last : MgmtCtx}
    {turns : List (Bool × Answers)}
    (replayed : mgmtTurns key x turns = some last) :
    ∃ t, (mgmtVisits key).Run x t last := by
  induction turns generalizing x with
  | nil =>
      cases replayed
      exact ⟨[], .nil last⟩
  | cons turn turns induction =>
      obtain ⟨v, next, -, step, others⟩ := step_of_mgmtTurns replayed
      obtain ⟨t, run⟩ := induction others
      have taken : (mgmtVisits key).step x v next := step
      exact ⟨[v] ++ t, (System.Run.single taken).append run⟩

/-- A handshake and a request in one chunk, and the reply sent octet by
octet. -/
theorem management_gate_pipelined :
    ∃ t x before gate,
      (mgmtVisits ⟨5, 0⟩).Run ⟨soleMgmtEnv ⟨5, 0⟩, mgmtNew 5, [], false⟩ t x ∧
      before ++ [gate] <+: x.calls ∧
      gate = .processRequest ⟨0, [], [], 0, 0, 0⟩ ∧
      MgmtPassed before gate := by
  have answered : ((mgmtTurns ⟨5, 0⟩ ⟨soleMgmtEnv ⟨5, 0⟩, mgmtNew 5, [], false⟩
      [(false, .receiving (authMessage (CString.ofString "admin").octets
          (CString.ofString "admin").octets ++ [smpVersion, smpCmdMetrics])),
        (true, .accepting [1]), (true, .idle), (true, .accepting [1])]).any
        fun x =>
      decide (MgmtCall.processRequest ⟨0, [], [], 0, 0, 0⟩ ∈ x.calls)) =
          true := by
    decide +kernel
  obtain ⟨x, replayed, member⟩ := (Option.any_eq_true ..).mp answered
  obtain ⟨before, after, split⟩ := List.append_of_mem (of_decide_eq_true member)
  obtain ⟨t, run⟩ := run_of_mgmtTurns replayed
  have first : before ++ [MgmtCall.processRequest ⟨0, [], [], 0, 0, 0⟩]
      <+: x.calls :=
    ⟨after, by rw [split, List.append_assoc, List.singleton_append]⟩
  exact ⟨t, x, before, _, run, first, rfl,
    (management_gate ⟨by decide, by decide⟩ run).2.1 before _ first trivial⟩

end SocksProxy
