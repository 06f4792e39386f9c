import SocksProxy.Sniffer
import SocksProxy.Socks5.Calls
import SocksProxy.Socks5.Output

/-! Which octets of the client the sniffer is given. -/

namespace SocksProxy

open Scanner Transition

/-- The octets of a call that are given to the sniffer. -/
@[simp] def Call.fedToSniffer : Call → List UInt8
  | .pop3SnifferFeed octets => octets
  | _ => []

@[simp] def Call.pop3Report : Call → Option Pop3Record
  | .loggerPop3 record => some record
  | _ => none

def fedToSniffer (calls : List Call) : List UInt8 :=
  calls.flatMap Call.fedToSniffer

def pop3Reports (calls : List Call) : List Pop3Record :=
  calls.filterMap Call.pop3Report

@[simp] theorem fedToSniffer_append (left right : List Call) :
    fedToSniffer (left ++ right) = fedToSniffer left ++ fedToSniffer right :=
  List.flatMap_append

@[simp] theorem pop3Reports_append (left right : List Call) :
    pop3Reports (left ++ right) = pop3Reports left ++ pop3Reports right :=
  List.filterMap_append

def Socks5.pop3Record (s : Socks5) (found : CString × CString) :
    Pop3Record where
  proxyUser := logUser s
  origin := originString s
  dest := destString s
  sniffUser := found.1
  sniffPass := found.2

def Socks5.identity (s : Socks5) :
    Fd × Bool × CString × SockAddr × CString × Nat :=
  (s.clientFd, s.sniffPop3, s.username, s.clientAddr, s.destHost, s.destPort)

theorem pop3Record_eq {left right : Socks5}
    (same : left.identity = right.identity) :
    left.pop3Record = right.pop3Record := by
  simp only [Socks5.identity, Prod.mk.injEq] at same
  obtain ⟨-, -, username, clientAddr, destHost, destPort⟩ := same
  funext found
  simp [Socks5.pop3Record, logUser, originString, destString,
    username, clientAddr, destHost, destPort]

/-- During the calls `t` the sniffer was given what was received from the
client, if the connection is sniffed, and all its findings were reported. -/
structure Sniffs (before : Socks5) (t : List Call) (after : Socks5) : Prop where
  fed : fedToSniffer t = if before.sniffPop3 then receivedFrom before.clientFd t
                         else []
  pop3 : after.pop3 = (pop3SnifferFeed before.pop3 (fedToSniffer t)).1
  reports : pop3Reports t =
    (pop3SnifferFeed before.pop3 (fedToSniffer t)).2.map before.pop3Record
  identity : after.identity = before.identity

namespace Sniffs

theorem refl (s : Socks5) : Sniffs s [] s :=
  ⟨by cases s.sniffPop3 <;> rfl, rfl, rfl, rfl⟩

theorem trans {first middle last : Socks5} {left right : List Call}
    (before : Sniffs first left middle) (after : Sniffs middle right last) :
    Sniffs first (left ++ right) last := by
  have same := before.identity
  have record := pop3Record_eq same
  simp only [Socks5.identity, Prod.mk.injEq] at same
  obtain ⟨fed, pop3, reports, identity⟩ := after
  rw [same.1, same.2.1] at fed
  rw [before.pop3] at pop3 reports
  rw [record] at reports
  refine ⟨?_, ?_, ?_, identity.trans before.identity⟩
  · rw [fedToSniffer_append, before.fed, fed, receivedFrom_append]
    cases first.sniffPop3 <;> rfl
  · rw [fedToSniffer_append, pop3SnifferFeed_append]
    exact pop3
  · rw [pop3Reports_append, fedToSniffer_append, pop3SnifferFeed_append,
      before.reports, reports, List.map_append]

theorem silent {before after : Socks5} {t : List Call}
    (quiet : ∀ made ∈ t, made.receivedFrom before.clientFd = [] ∧
      made.fedToSniffer = [] ∧ made.pop3Report = none)
    (pop3 : after.pop3 = before.pop3)
    (identity : after.identity = before.identity) :
    Sniffs before t after := by
  have fed : fedToSniffer t = [] :=
    List.flatMap_eq_nil_iff.mpr fun made member => (quiet made member).2.1
  have received : receivedFrom before.clientFd t = [] :=
    List.flatMap_eq_nil_iff.mpr fun made member => (quiet made member).1
  have reports : pop3Reports t = [] :=
    List.filterMap_eq_nil_iff.mpr fun made member => (quiet made member).2.2
  refine ⟨?_, ?_, ?_, identity⟩
  · rw [fed, received]
    cases before.sniffPop3 <;> rfl
  · rw [fed]
    exact pop3
  · rw [fed, reports]
    rfl

end Sniffs

def Hears (before after : Ctx) : Prop :=
  ∃ more, after.calls = before.calls ++ more ∧ Sniffs before.s more after.s

theorem Hears.trans {first middle last : Ctx} (left : Hears first middle)
    (right : Hears middle last) : Hears first last := by
  obtain ⟨earlier, before, sniffsBefore⟩ := left
  obtain ⟨later, after, sniffsAfter⟩ := right
  refine ⟨earlier ++ later, ?_, sniffsBefore.trans sniffsAfter⟩
  rw [after, before, List.append_assoc]

theorem Hears.idle {before after : Ctx} (calls : after.calls = before.calls)
    (pop3 : after.s.pop3 = before.s.pop3)
    (identity : after.s.identity = before.s.identity) : Hears before after :=
  ⟨[], by rw [calls, List.append_nil], .silent (by simp) pop3 identity⟩

theorem Hears.one {before after : Ctx} {made : Call}
    (calls : after.calls = before.calls ++ [made])
    (pop3 : after.s.pop3 = before.s.pop3)
    (identity : after.s.identity = before.s.identity)
    (received : made.receivedFrom before.s.clientFd = [])
    (fed : made.fedToSniffer = []) (report : made.pop3Report = none) :
    Hears before after := by
  refine ⟨[made], calls, .silent ?_ pop3 identity⟩
  intro other member
  rw [List.mem_singleton.mp member]
  exact ⟨received, fed, report⟩

theorem hears_pumpToOrigin (a : Answers) (c : Ctx) :
    Hears c (pumpToOrigin a c).1 := by
  refine ⟨_, rfl, .silent ?_ rfl rfl⟩
  intro made member
  rcases copyPump_only _ _ _ made member with ⟨octets, rfl⟩ | ⟨e, rfl⟩
  · exact ⟨rfl, rfl, rfl⟩
  · exact ⟨rfl, rfl, rfl⟩

theorem hears_pumpToClient (a : Answers) (c : Ctx) :
    Hears c (pumpToClient a c).1 := by
  refine ⟨_, rfl, .silent ?_ rfl rfl⟩
  intro made member
  rcases copyPump_only _ _ _ made member with ⟨octets, rfl⟩ | ⟨e, rfl⟩
  · exact ⟨rfl, rfl, rfl⟩
  · exact ⟨rfl, rfl, rfl⟩

theorem hears_copyUpdate (c : Ctx) : Hears c (copyUpdate c).1 := by
  have origin : Hears c (shutOriginWrite c) := by
    unfold shutOriginWrite
    split
    · exact .one rfl rfl rfl rfl rfl rfl
    · exact .idle rfl rfl rfl
  have client :
      Hears (shutOriginWrite c) (shutClientWrite (shutOriginWrite c)) := by
    unfold shutClientWrite
    split
    · exact .one rfl rfl rfl rfl rfl rfl
    · exact .idle rfl rfl rfl
  unfold copyUpdate
  dsimp only
  split
  · exact origin.trans client
  · refine (origin.trans client).trans
      (.idle (copyComputeInterests_calls _) ?_ ?_) <;>
      rw [copyComputeInterests_s]

theorem hears_pumpThenUpdate (pumped : Ctx × Bool) :
    Hears pumped.1 (pumpThenUpdate pumped).1 := by
  unfold pumpThenUpdate
  split
  · exact .idle rfl rfl rfl
  · exact hears_copyUpdate pumped.1

/-- The reports are no octets, and nothing that was received. -/
private theorem reported_quiet (s : Socks5) (found : List (CString × CString)) :
    fedToSniffer (found.map fun pair => .loggerPop3 (s.pop3Record pair)) = [] ∧
      receivedFrom s.clientFd
        (found.map fun pair => .loggerPop3 (s.pop3Record pair)) = [] ∧
      pop3Reports (found.map fun pair => .loggerPop3 (s.pop3Record pair)) =
        found.map s.pop3Record := by
  induction found with
  | nil => exact ⟨rfl, rfl, rfl⟩
  | cons pair found induction =>
      obtain ⟨fed, received, reports⟩ := induction
      refine ⟨fed, received, ?_⟩
      rw [List.map_cons, List.map_cons, ← reports]
      rfl

theorem hears_storeFromClient (c : Ctx) (octets : List UInt8) :
    Hears c (storeFromClient (c.call (.recv c.s.clientFd octets)) octets) := by
  have heard : receivedFrom c.s.clientFd [.recv c.s.clientFd octets] =
      octets := by
    simp [receivedFrom]
  unfold storeFromClient
  dsimp only
  split
  next sniffed =>
    have sniffed : c.s.sniffPop3 = true := sniffed
    obtain ⟨fed, received, reports⟩ :=
      reported_quiet c.s (pop3SnifferFeed c.s.pop3 octets).2
    refine ⟨[.recv c.s.clientFd octets] ++ [.pop3SnifferFeed octets] ++
      (pop3SnifferFeed c.s.pop3 octets).2.map
        fun pair => .loggerPop3 (c.s.pop3Record pair), ?_, ?_⟩
    · change c.calls ++ [_] ++ _ = _
      rw [List.append_assoc, List.append_assoc]
      rfl
    · have whole : fedToSniffer ([.recv c.s.clientFd octets] ++
          [.pop3SnifferFeed octets] ++ (pop3SnifferFeed c.s.pop3 octets).2.map
            fun pair => .loggerPop3 (c.s.pop3Record pair)) = octets := by
        rw [fedToSniffer_append, fed]
        simp [fedToSniffer]
      refine ⟨?_, ?_, ?_, rfl⟩
      · rw [whole, sniffed, receivedFrom_append, receivedFrom_append,
          received, heard]
        simp [receivedFrom]
      · rw [whole]
        rfl
      · rw [whole, pop3Reports_append, reports]
        rfl
  next unsniffed =>
    have unsniffed : c.s.sniffPop3 = false := by simpa using unsniffed
    refine ⟨[.recv c.s.clientFd octets], rfl, ?_, rfl, rfl, rfl⟩
    rw [unsniffed]
    rfl

theorem hears_storeFromOrigin {c : Ctx}
    (apart : c.s.originNumber ≠ c.s.clientFd) (octets : List UInt8) :
    Hears c (storeFromOrigin (c.call (.recv c.s.originNumber octets)) octets) :=
  .one rfl rfl rfl (if_neg apart) rfl rfl

theorem relayEffect_hears {source : Fd} {buffer : Buffer} {ended : Ctx → Ctx}
    {store : Ctx → List UInt8 → Ctx} {pump : Ctx → Ctx × Bool} {c : Ctx}
    {result : Ctx × SocksState} (ends : ∀ c, Hears c (ended c))
    (stores : ∀ octets, Hears c (store (c.call (.recv source octets)) octets))
    (pumps : ∀ c, Hears c (pump c).1)
    (effect : RelayEffect source buffer ended store pump c result) :
    Hears c result.1 := by
  have blocked (e : Errno) : Hears c (c.call (.recvFailed source e)) :=
    .one rfl rfl rfl rfl rfl rfl
  cases effect with
  | full => exact hears_copyUpdate c
  | again e => exact (blocked e).trans (hears_copyUpdate _)
  | failed e => exact ((blocked e).trans (ends _)).trans (hears_copyUpdate _)
  | closed =>
      have received : Hears c (c.call (.recv source [])) := by
        refine .one rfl rfl rfl ?_ rfl rfl
        simp only [Call.receivedFrom, ite_self]
      exact (received.trans (ends _)).trans (hears_copyUpdate _)
  | @relayed octets some fits =>
      exact ((stores octets).trans (pumps _)).trans (hears_pumpThenUpdate _)

theorem copy_hears {kind : EventKind} {key : Key} {a : Answers} {c : Ctx}
    {handler : Handler} {result : Ctx × SocksState}
    (apart : c.s.originNumber ≠ c.s.clientFd)
    (serves : Serves .copy kind handler) (ran : handler key a c = some result) :
    Hears c result.1 := by
  cases serves with
  | copyRead =>
      rw [← eq_of_total ran, copyRead]
      split
      · refine relayEffect_hears ?_ (hears_storeFromClient c)
          (hears_pumpToOrigin a) (copyReadClient_effect a c)
        exact fun _ => .idle rfl rfl rfl
      · refine relayEffect_hears ?_ (hears_storeFromOrigin apart)
          (hears_pumpToClient a) (copyReadOrigin_effect a c)
        exact fun _ => .idle rfl rfl rfl
  | copyWrite =>
      rw [← eq_of_total ran, copyWrite]
      split
      · exact (hears_pumpToClient a c).trans (hears_pumpThenUpdate _)
      · exact (hears_pumpToOrigin a c).trans (hears_pumpThenUpdate _)

theorem Sniffs.jump {key : Key} {a : Answers} {before : Socks5} {t : List Call}
    {c : Ctx} {next : SocksState} (sniffs : Sniffs before t c.s)
    (current : c.s.current = some .copy)
    (leaves : next = .copy ∨ next = .done) :
    Sniffs before t (SocksProxy.jump key a next c).s := by
  rcases leaves with rfl | rfl
  · rw [jump_s, if_pos current]
    exact sniffs
  · rw [jump_plain (by simp) (by simp)]
    exact ⟨sniffs.fed, sniffs.pop3, sniffs.reports, sniffs.identity⟩

theorem sniffs_step {p : Ptr} {s next : Socks5} {calls : List Call}
    (copying : s.state = .copy) (step : ConnectionStep p s calls next) :
    Sniffs s calls next := by
  cases step with
  | resolved answer => exact .silent (by simp) rfl rfl
  | @handled kind fd a env after hosts runs =>
      obtain ⟨middle, next, handled⟩ := handled_of_handler runs
      obtain ⟨handler, serves, ran⟩ := handled.runs
      have served : Serves .copy kind handler := copying ▸ serves
      have leaves : next = .copy ∨ next = .done := by
        have follows := handler_next served ran
        simpa [SocksState.successors] using follows
      have current : middle.s.current = some .copy := by
        have kept := @copy_field _ Socks5.current _ _ _ _ _ _
          ⟨fun _ _ _ => rfl, fun _ _ _ => rfl, fun _ _ _ => rfl, fun _ _ => rfl⟩
          served ran
        exact kept.trans (congrArg some copying)
      obtain ⟨more, added, sniffs⟩ :=
        copy_hears (c := Ctx.started ⟨env, s, [], false⟩) hosts.apart served ran
      have calls : after.calls = more :=
        (handled.closes.calls.trans (jump_calls ..)).trans added
      have started : Sniffs s more middle.s :=
        ⟨sniffs.fed, sniffs.pop3, sniffs.reports, sniffs.identity⟩
      have jumped :=
        @Sniffs.jump ⟨fd, p⟩ a s more middle next started current leaves
      obtain ⟨references, object⟩ := handled.closes.object
      rw [calls, object]
      exact ⟨jumped.fed, jumped.pop3, jumped.reports, jumped.identity⟩

theorem sniffs_of_run {p : Ptr} {entered s : Socks5} {labels : List (List Call)}
    (copying : entered.state = .copy)
    (run : (connection p).Run entered labels s) :
    Sniffs entered labels.flatten s := by
  induction run with
  | nil => exact .refl _
  | snoc before step induction =>
      rw [List.flatten_append, List.flatten_singleton]
      rcases (carried_of_run copying before).2 with state | state
      · exact induction.trans (sniffs_step state step)
      · refine induction.trans ?_
        cases step with
        | resolved answer => exact .silent (by simp) rfl rfl
        | handled hosts runs =>
            obtain ⟨_, _, handled⟩ := handled_of_handler runs
            obtain ⟨_, serves, _⟩ := handled.runs
            rw [show (Ctx.s ⟨_, _, [], false⟩).state = .done from state]
              at serves
            cases serves

structure Unsniffed (s : Socks5) (t : List Call) : Prop where
  fed : fedToSniffer t = []
  reports : pop3Reports t = []
  ready : s.pop3.Ready
  remembered : s.pop3.remembered = none

theorem accepted_unsniffed {s : Socks5} (accepted : Accepted s) :
    Unsniffed s [] := by
  obtain ⟨config, clientFd, blocks, old, prepared, address, made, rfl⟩ :=
    accepted
  obtain ⟨rawRead, rawWrite, readBlock, writeBlock, rfl⟩ := prepare_eq made
  exact ⟨rfl, rfl, ⟨List.length_replicate, rfl, rfl⟩, rfl⟩

private theorem quiet_of_mayCall {st : SocksState} {made : Call}
    (elsewhere : st ≠ .copy) (may : st.mayCall made) :
    made.fedToSniffer = [] ∧ made.pop3Report = none := by
  cases made with
  | pop3SnifferFeed octets =>
      cases st <;> simp [SocksState.mayCall, Call.reads, Call.writes,
        Call.negotiates, Call.reaching] at may elsewhere
  | loggerPop3 record =>
      cases st <;> simp [SocksState.mayCall, Call.reads, Call.writes,
        Call.negotiates, Call.reaching] at may elsewhere
  | _ => exact ⟨rfl, rfl⟩

theorem jump_pop3 (key : Key) (a : Answers) (next : SocksState) (c : Ctx) :
    (jump key a next c).s.pop3 = c.s.pop3 := by
  rw [jump_s]
  split
  · rfl
  · cases next <;> rfl

theorem Unsniffed.step {p : Ptr} {s next : Socks5} {t calls : List Call}
    (unsniffed : Unsniffed s t) (elsewhere : s.state ≠ .copy)
    (step : ConnectionStep p s calls next) : Unsniffed next (t ++ calls) := by
  cases step with
  | resolved answer =>
      rw [List.append_nil]
      exact ⟨unsniffed.fed, unsniffed.reports, unsniffed.ready,
        unsniffed.remembered⟩
  | @handled kind fd a env after hosts runs =>
      obtain ⟨middle, next, handled⟩ := handled_of_handler runs
      obtain ⟨handler, serves, ran⟩ := handled.runs
      obtain ⟨more, added, may⟩ := handler_makes serves ran
      have calls : after.calls = more :=
        (handled.closes.calls.trans (jump_calls ..)).trans added
      have quiet (made : Call) (member : made ∈ more) :=
        quiet_of_mayCall elsewhere (may made member)
      have fed : fedToSniffer more = [] :=
        List.flatMap_eq_nil_iff.mpr fun made member => (quiet made member).1
      have reports : pop3Reports more = [] :=
        List.filterMap_eq_nil_iff.mpr fun made member => (quiet made member).2
      have pop3 : after.s.pop3 = s.pop3 := by
        obtain ⟨references, object⟩ := handled.closes.object
        have kept := @handshake_field _ Socks5.pop3 _ _ _ _ _ _ _
          ⟨fun _ _ _ _ _ => rfl, fun _ _ _ _ _ => rfl,
            fun _ _ _ _ _ _ _ _ _ _ => rfl⟩
          elsewhere serves ran
        rw [object]
        exact (jump_pop3 ..).trans kept
      rw [calls]
      refine ⟨?_, ?_, pop3 ▸ unsniffed.ready, pop3 ▸ unsniffed.remembered⟩
      · rw [fedToSniffer_append, unsniffed.fed, fed]
        rfl
      · rw [pop3Reports_append, unsniffed.reports, reports]
        rfl

theorem unsniffed_of_run {p : Ptr} {first s : Socks5}
    {labels : List (List Call)} (accepted : Accepted first)
    (run : (connection p).Run first labels s) (elsewhere : s.state ≠ .copy)
    (pending : s.state ≠ .done) :
    Unsniffed s labels.flatten := by
  induction run with
  | nil => exact accepted_unsniffed accepted
  | @snoc middle last labels calls before step induction =>
      have earlier : middle.state ≠ .copy := by
        intro copying
        rcases (copy_step copying step).2 with still | ⟨done, -⟩
        · exact elsewhere still
        · exact pending done
      have unfinished : middle.state ≠ .done := fun done =>
        pending (done_step done step).2.1
      rw [List.flatten_append, List.flatten_singleton]
      exact (induction earlier unfinished).step earlier step

theorem SocksRequest.encode_whole {left right : SocksRequest}
    {more rest : List UInt8}
    (same : left.encode ++ more = right.encode ++ rest) : more = rest := by
  have roomy :
      RequestParser.Roomy ⟨.version, 0, 0, 0, 0, List.replicate 256 0, 0, 0⟩ :=
    List.length_replicate
  obtain ⟨_, one, -⟩ := scan_socksRequest roomy left more
  obtain ⟨_, two, -⟩ := scan_socksRequest roomy right rest
  rw [same, two] at one
  exact (congrArg (fun result => result.2.1) one).symm

/-- The octets after the opening are told by what was sent and received. -/
theorem Opened.same_received {fd : Fd} {t : List Call}
    {received sent otherReceived otherSent : List UInt8}
    (one : Opened fd t received sent)
    (two : Opened fd t otherReceived otherSent) :
    received = otherReceived := by
  obtain ⟨left, greeting, validLeft, receivesLeft, sendsLeft⟩ := one
  obtain ⟨right, other, validRight, receivesRight, sendsRight⟩ := two
  obtain ⟨rfl, -⟩ :=
    validLeft.same_greeting validRight (sendsLeft.symm.trans sendsRight)
  have same := receivesLeft.symm.trans receivesRight
  cases validLeft with
  | noAuth small =>
      cases validRight with
      | noAuth smallOther => exact helloMessage_whole small smallOther same
  | userpass small validUser validPass =>
      cases validRight with
      | userpass smallOther validOther validOtherPass =>
          rw [List.append_assoc, List.append_assoc] at same
          exact authMessage_whole validUser validPass validOther validOtherPass
            (helloMessage_whole small smallOther same)

/-- The sniffer was given what the client sent after its request, and it
reported the pairs of the whole lines. -/
def SnifferHears (s : Socks5) (t : List Call) : Prop :=
  ∃ (request : SocksRequest) (application sent : List UInt8),
    Opened s.clientFd t (request.encode ++ application) sent ∧
      fedToSniffer t = application ∧
      ∀ (lines : List (List UInt8)) (tail : List UInt8),
        (∀ line ∈ lines, lineFeed ∉ line) → lineFeed ∉ tail →
        application = lines.flatMap (· ++ [lineFeed]) ++ tail →
        pop3Reports t = (reportLines none lines).2.map s.pop3Record

section Entry

variable {p : Ptr} {first before s : Socks5} {earlier labels : List (List Call)}
  {kind : EventKind} {fd : Fd} {a : Answers} {env : Env} {c : Ctx}
  (accepted : Accepted first) (opened : (connection p).Run first earlier before)
  (elsewhere : before.state ≠ .copy)
  (enters : socksv5Handler kind ⟨fd, p⟩ a ⟨env, before, [], false⟩ = some c)
  (copying : c.s.state = .copy) (run : (connection p).Run c.s labels s)

include accepted opened elsewhere enters copying run

private theorem opened_entry : ∃ (request : SocksRequest) (sent : List UInt8),
    Opened s.clientFd (earlier ++ c.calls :: labels).flatten
      (request.encode ++
        (before.readBuffer.content ++ receivedFrom s.clientFd labels.flatten))
          sent := by
  obtain ⟨state, success, buffer, content, -, -, calls, object, -⟩ :=
    copy_entry elsewhere enters copying
  have exchanged := exchanged_of_run accepted opened
  unfold Exchanged at exchanged
  rw [state] at exchanged
  obtain ⟨received, sent, reply, asked, -, -, -, requested⟩ := exchanged
  obtain ⟨request, split, -⟩ := requested (.inl success)
  have client : s.clientFd = before.clientFd := by
    rw [(carried_of_run copying run).1.clientFd, object]
  have extended := asked.extend (c.calls ++ labels.flatten)
  have quiet : receivedFrom before.clientFd c.calls = [] := by
    rw [calls]
    rfl
  refine ⟨request, sent ++ sentTo before.clientFd (c.calls ++ labels.flatten),
    ?_⟩
  rw [split, receivedFrom_append, quiet, List.nil_append, List.append_assoc]
    at extended
  rw [client, List.flatten_append, List.flatten_cons]
  exact extended

private theorem sniffed_entry (port : before.destPort = pop3Port)
    (enabled : env.config.pop3Sniff = true) :
    fedToSniffer (earlier ++ c.calls :: labels).flatten =
        receivedFrom s.clientFd labels.flatten ∧
      pop3Reports (earlier ++ c.calls :: labels).flatten =
        (pop3SnifferFeed before.pop3
          (receivedFrom s.clientFd labels.flatten)).2.map s.pop3Record := by
  obtain ⟨state, success, buffer, content, -, -, calls, object, -⟩ :=
    copy_entry elsewhere enters copying
  have quiet := unsniffed_of_run accepted opened elsewhere (by simp [state])
  have sniffs := sniffs_of_run copying run
  have client : s.clientFd = c.s.clientFd :=
    (carried_of_run copying run).1.clientFd
  have sniffed : c.s.sniffPop3 = true := by
    rw [object, port, enabled]
    rfl
  have fed : fedToSniffer labels.flatten =
      receivedFrom s.clientFd labels.flatten := by
    rw [sniffs.fed, if_pos sniffed, client]
  have pop3 : c.s.pop3 = before.pop3 := by
    rw [object]
  rw [List.flatten_append, List.flatten_cons, fedToSniffer_append,
    fedToSniffer_append, pop3Reports_append, pop3Reports_append, quiet.fed,
    quiet.reports, sniffs.reports, fed, calls, pop3,
    pop3Record_eq sniffs.identity]
  exact ⟨rfl, rfl⟩

/-- What the buffer held at the entry went past the sniffer. -/
theorem empty_of_hears (port : before.destPort = pop3Port)
    (enabled : env.config.pop3Sniff = true)
    (hears : SnifferHears s (earlier ++ c.calls :: labels).flatten) :
    before.readBuffer.content = [] := by
  obtain ⟨request, sent, whole⟩ :=
    opened_entry accepted opened elsewhere enters copying run
  obtain ⟨fed, -⟩ :=
    sniffed_entry accepted opened elsewhere enters copying run port enabled
  obtain ⟨other, application, otherSent, asked, same, -⟩ := hears
  have streams := SocksRequest.encode_whole (whole.same_received asked)
  rw [← same, fed] at streams
  exact List.append_left_eq_self.mp streams

/-- The octets that were left in the read buffer when COPY was entered are the
only ones the sniffer is not given. -/
theorem sniffer_hears (port : before.destPort = pop3Port)
    (enabled : env.config.pop3Sniff = true) :
    SnifferHears s (earlier ++ c.calls :: labels).flatten ↔
      before.readBuffer.content = [] := by
  refine ⟨empty_of_hears accepted opened elsewhere enters copying run port
    enabled, ?_⟩
  intro nothing
  obtain ⟨request, sent, whole⟩ :=
    opened_entry accepted opened elsewhere enters copying run
  obtain ⟨fed, reports⟩ :=
    sniffed_entry accepted opened elsewhere enters copying run port enabled
  have state := (copy_entry elsewhere enters copying).1
  have quiet := unsniffed_of_run accepted opened elsewhere (by simp [state])
  rw [nothing, List.nil_append] at whole
  refine ⟨request, _, sent, whole, fed, ?_⟩
  intro lines tail inside last split
  rw [reports, split, reports_of_lines quiet.ready inside last,
    quiet.remembered]

end Entry

private def sniffingConfig : ProxyConfig :=
  { configInitDefaults with pop3Sniff := true }

private def sniffedRun (early : List UInt8) (turns : List Turn) :
    Option Picked :=
  replayAround 0 (soleEnv sniffingConfig usersInit 5 0)
    (freshConnection sniffingConfig 5)
    [⟨.read, 5, .receiving [0x05, 0x01, 0x00]⟩, ⟨.write, 5, .accepting [2]⟩,
      ⟨.read, 5,
        { Answers.receiving ([0x05, 0x01, 0x00, 0x01, 127, 0, 0, 1, 0, 110] ++
        early) with attempt := fun _ => ⟨0, true, 0⟩ }⟩]
    ⟨.write, 5, .accepting [10]⟩ turns

private def credentialLines : List UInt8 :=
  [85, 83, 69, 82, 32, 97, 13, 10, 80, 65, 83, 83, 32, 98, 13, 10]

/-- A client that sends its credentials together with its request: they are
forwarded to the origin, and the sniffer reports nothing. -/
theorem sniffer_hears_early : ∃ r : Picked,
    (connection 0).Run (freshConnection sniffingConfig 5) r.earlier r.before ∧
      (connection 0).step r.before r.after.calls r.after.s ∧
      r.before.state ≠ .copy ∧ r.after.s.state = .copy ∧
      r.before.destPort = pop3Port ∧ r.after.s.sniffPop3 = true ∧
      (connection 0).Run r.after.s r.later r.reached ∧
      sentTo r.reached.originNumber r.later.flatten = credentialLines ∧
      pop3Reports (r.earlier ++ r.after.calls :: r.later).flatten = [] ∧
      ¬ SnifferHears r.reached
        (r.earlier ++ r.after.calls :: r.later).flatten := by
  have expected :
      (sniffedRun credentialLines [⟨.write, 0, .accepting [16]⟩]).any
      (fun r => decide (r.before.state ≠ .copy ∧ r.after.s.state = .copy ∧
        r.before.destPort = pop3Port ∧ r.after.s.sniffPop3 = true ∧
        r.env.config.pop3Sniff = true ∧ r.before.readBuffer.content =
          credentialLines ∧
        sentTo r.reached.originNumber r.later.flatten = credentialLines ∧
        pop3Reports (r.earlier ++ r.after.calls :: r.later).flatten = [])) =
          true := by
    decide +kernel
  obtain ⟨r, replayed, facts⟩ := (Option.any_eq_true ..).mp expected
  obtain ⟨elsewhere, copying, port, sniffed, enabled, held, sent, reports⟩ :=
    of_decide_eq_true facts
  obtain ⟨opened, hosts, enters, run⟩ := picked_of_replay replayed
  refine ⟨r, opened, .handled hosts enters, elsewhere, copying, port,
    sniffed, run, sent, reports, ?_⟩
  intro hears
  have nothing :=
    empty_of_hears (accepted_fresh _ _) opened elsewhere enters copying run
    port enabled hears
  rw [held] at nothing
  cases nothing

/-- A client that waits for the reply, and is cut in the middle of its lines. -/
theorem sniffer_hears_late : ∃ r : Picked,
    receivedFrom 5 r.later.flatten = credentialLines ∧
      SnifferHears r.reached
        (r.earlier ++ r.after.calls :: r.later).flatten := by
  have expected :
      (sniffedRun [] [⟨.read, 5, .receiving (credentialLines.take 11)⟩,
      ⟨.read, 5, .receiving (credentialLines.drop 11)⟩]).any
      (fun r => decide (r.before.state ≠ .copy ∧ r.after.s.state = .copy ∧
        r.before.destPort = pop3Port ∧ r.env.config.pop3Sniff = true ∧
        r.before.readBuffer.content = [] ∧
        receivedFrom 5 r.later.flatten = credentialLines)) = true := by
    decide +kernel
  obtain ⟨r, replayed, facts⟩ := (Option.any_eq_true ..).mp expected
  obtain ⟨elsewhere, copying, port, enabled, nothing, received⟩ :=
    of_decide_eq_true facts
  obtain ⟨opened, _, enters, run⟩ := picked_of_replay replayed
  exact ⟨r, received,
    (sniffer_hears (accepted_fresh _ _) opened elsewhere enters copying
    run port enabled).mpr nothing⟩

end SocksProxy
