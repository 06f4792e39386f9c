import SocksProxy.Mgmt.Serving
import SocksProxy.Socks5.Output

/-! Credentials as the client sends them, octet strings with a length, against
the C strings that the two servers store and compare. -/

namespace SocksProxy

open Scanner Transition

/-- The part of a field that its C string keeps. -/
def cut (field : List UInt8) : List UInt8 := (CString.ofArray field).octets

/-- Both fields are free of NUL octets. -/
def NulFree (user pass : List UInt8) : Prop :=
  (0 : UInt8) ∉ user ∧ (0 : UInt8) ∉ pass

instance (user pass : List UInt8) : Decidable (NulFree user pass) :=
  inferInstanceAs (Decidable (_ ∧ _))

theorem cut_of_noNul {field : List UInt8} (noNul : (0 : UInt8) ∉ field) :
    cut field = field :=
  CString.octets_ofArray_of_noNul noNul

/-- A comparison of the cut fields decides a comparison of the fields unless it
holds of fields with a NUL. -/
theorem cut_iff {holds : List UInt8 → List UInt8 → Prop}
    (strings : ∀ user pass, holds user pass → NulFree user pass)
    (user pass : List UInt8) :
    (holds (cut user) (cut pass) ↔ holds user pass) ↔
      NulFree user pass ∨ ¬ holds (cut user) (cut pass) := by
  by_cases free : NulFree user pass
  · rw [cut_of_noNul free.1, cut_of_noNul free.2]
    simp [free]
  · have refused : ¬ holds user pass :=
      fun held => free (strings user pass held)
    simp [free, refused]

namespace UserTable

inductive Built : UserTable → Prop
  | init : Built usersInit
  | add {db : UserTable} (built : Built db) (name pass : Option CString) :
      Built (usersAdd db name pass).1
  | del {db : UserTable} (built : Built db) (name : Option CString) :
      Built (usersDel db name).1

theorem Built.unique {db : UserTable} (built : db.Built) : db.UniqueNames := by
  induction built with
  | init => exact uniqueNames_init
  | add _ name pass induction => exact uniqueNames_add induction name pass
  | del _ name induction => exact uniqueNames_del induction name

/-- Some stored user has this name and this password, octet for octet. -/
def Stores (db : UserTable) (user pass : List UInt8) : Prop :=
  ∃ i stored, db i = some stored ∧ stored.name.octets = user ∧
    stored.pass.octets = pass

theorem Stores.nulFree {db : UserTable} {user pass : List UInt8}
    (stores : db.Stores user pass) : NulFree user pass := by
  obtain ⟨i, stored, -, rfl, rfl⟩ := stores
  exact ⟨stored.name.noNul, stored.pass.noNul⟩

theorem check_iff_stores {db : UserTable} (built : db.Built)
    (name pass : CString) :
    usersCheck db name pass = true ↔ db.Stores name.octets pass.octets := by
  rw [check_iff built.unique]
  constructor
  · rintro ⟨i, stored⟩
    exact ⟨i, _, stored, rfl, rfl⟩
  · rintro ⟨i, stored, held, sameName, samePass⟩
    refine ⟨i, ?_⟩
    rw [held, ← CString.ext_octets sameName, ← CString.ext_octets samePass]

/-- No stored user is met by fields that have a NUL. -/
def Unmistaken (db : UserTable) (user pass : List UInt8) : Prop :=
  NulFree user pass ∨ ¬ db.Stores (cut user) (cut pass)

end UserTable

namespace ProxyConfig

def Names (config : ProxyConfig) (user pass : List UInt8) : Prop :=
  user = config.adminUser.octets ∧ pass = config.adminPass.octets

theorem Names.nulFree {config : ProxyConfig} {user pass : List UInt8}
    (names : config.Names user pass) : NulFree user pass := by
  obtain ⟨rfl, rfl⟩ := names
  exact ⟨config.adminUser.noNul, config.adminPass.noNul⟩

theorem admits_iff_names (config : ProxyConfig) (user pass : List UInt8) :
    SmpMessage.admits config user pass = true ↔
      config.Names (cut user) (cut pass) := by
  simp only [SmpMessage.admits, decide_eq_true_eq, Names, cut]
  constructor
  · rintro ⟨sameUser, samePass⟩
    exact ⟨by rw [sameUser], by rw [samePass]⟩
  · rintro ⟨sameUser, samePass⟩
    exact ⟨CString.ext_octets sameUser, CString.ext_octets samePass⟩

/-- The administrator is not met by fields that have a NUL. -/
def Unmistaken (config : ProxyConfig) (user pass : List UInt8) : Prop :=
  NulFree user pass ∨ ¬ config.Names (cut user) (cut pass)

end ProxyConfig

theorem authCompleted_received (fd : Fd) (c : Ctx) :
    receivedFrom fd (authCompleted c).1.calls = receivedFrom fd c.calls ∧
      sentTo fd (authCompleted c).1.calls = sentTo fd c.calls := by
  unfold authCompleted
  dsimp only
  split
  · exact ⟨rfl, rfl⟩
  · rw [setInterestOrFail_calls, Ctx.call_calls, receivedFrom_append,
      sentTo_append]
    exact ⟨List.append_nil _, List.append_nil _⟩

theorem authCompleted_writes {p : Ptr} {c : Ctx} {user pass : CString}
    (accepted : c.s.auth.state = .done)
    (name : .ofArray c.s.auth.username = user)
    (word : .ofArray c.s.auth.password = pass)
    (registered : Registered p c.env c.s.clientFd)
    (room : configMinBuffer ≤ c.s.writeBuffer.limit) :
    (authCompleted c).2 = .authWrite ∧
      (authCompleted c).1.s.writeBuffer.content =
        [0x01, if usersCheck c.env.users user pass then 0x00 else 0x01] := by
  subst name word
  unfold authCompleted
  dsimp only
  rw [if_neg (by rw [accepted]; decide)]
  refine ⟨setInterestOrFail_registered registered, ?_⟩
  rw [setInterestOrFail_s]
  exact Buffer.content_writeAll_reset
    (Nat.le_trans (by simp [configMinBuffer]) room)

/-- The octets received complete a message, and its status is written. -/
private theorem authRead_answers {p : Ptr} {c : Ctx} {result : Ctx × SocksState}
    {consumed user pass rest : List UInt8} {fresh : AuthParser}
    (called : c.calls = []) (registered : Registered p c.env c.s.clientFd)
    (room : configMinBuffer ≤ c.s.writeBuffer.limit) (roomy : fresh.Roomy)
    (fed : scan authParserFeed AuthParser.finished (authParserInit fresh)
      consumed =
        (c.s.auth, [], false)) (validUser : FieldLength user)
    (validPass : FieldLength pass)
    (effect : ReadEffect authParserFeed AuthParser.finished c.s.auth
      (fun c auth buffer =>
        { c with s := { c.s with auth := auth, readBuffer := buffer } })
      .authRead authCompleted c result)
    (arrives : receivedFrom c.s.clientFd result.1.calls ≠ [])
    (stream : consumed ++ c.s.readBuffer.content ++
        receivedFrom c.s.clientFd result.1.calls = authMessage user pass ++
          rest) :
    result.2 = .authWrite ∧ sentTo c.s.clientFd result.1.calls = [] ∧
      result.1.s.writeBuffer.content =
        [0x01,
          if usersCheck c.env.users (CString.ofArray user)
            (CString.ofArray pass)
            then 0x00 else 0x01] := by
  obtain ⟨q, whole, done, -, -, ⟨userTail, username⟩, ⟨passTail, password⟩⟩ :=
    @scan_authMessage fresh user pass rest roomy validUser validPass
  cases effect with
  | again e => simp [receivedFrom, called] at arrives
  | failed e => simp [receivedFrom, called] at arrives
  | closed => simp [receivedFrom, called] at arrives
  | @partly octets next buffer some fits scanned content limit =>
      have received : receivedFrom c.s.clientFd
          (c.calls ++ [.recv c.s.clientFd octets]) = octets := by
        simp [receivedFrom, called]
      rw [Ctx.call_calls, received] at stream
      rw [← stream, List.append_assoc, scan_append_more fed, scanned] at whole
      cases whole
  | @completed octets left next buffer some fits scanned content limit =>
      have received : receivedFrom c.s.clientFd
          (c.calls ++ [.recv c.s.clientFd octets]) = octets := by
        simp [receivedFrom, called]
      have unsent : sentTo c.s.clientFd
          (c.calls ++ [.recv c.s.clientFd octets]) = [] := by
        simp [sentTo, called]
      rw [(authCompleted_received ..).1, Ctx.call_calls, received] at stream
      rw [← stream, List.append_assoc, scan_append_more fed, scanned] at whole
      cases whole
      have name : CString.ofArray q.username = .ofArray user := by
        rw [username, CString.ofArray_append_nul]
      have word : CString.ofArray q.password = .ofArray pass := by
        rw [password, CString.ofArray_append_nul]
      obtain ⟨next, written⟩ := @authCompleted_writes p
        { c.call (.recv c.s.clientFd octets) with
          s := { c.s with auth := q, readBuffer := buffer } } _ _ done name word
        registered room
      refine ⟨next, ?_, written⟩
      rw [(authCompleted_received ..).2]
      exact unsent

structure Answered (fd : Fd) (t : List Call) (c : Ctx) (status : UInt8) :
    Prop where
  state : c.s.state = .authWrite
  sent : sentTo fd (t ++ c.calls) ++ c.s.writeBuffer.content =
    [0x05, methodUserpass, 0x01, status]

theorem answered_of_message {p : Ptr} {s : Socks5} {t : List Call} {env : Env}
    {kind : EventKind} {fd : Fd} {a : Answers} {c : Ctx}
    {methods user pass rest : List UInt8} (progress : Progress s.clientFd s t)
    (reading : s.state = .authRead) (hosts : Hosts p env s)
    (runs : socksv5Handler kind ⟨fd, p⟩ a ⟨env, s, [], false⟩ = some c)
    (small : methods.length ≤ 255) (validUser : FieldLength user)
    (validPass : FieldLength pass)
    (arrives : receivedFrom s.clientFd c.calls ≠ [])
    (received : receivedFrom s.clientFd (t ++ c.calls) =
      helloMessage methods ++ (authMessage user pass ++ rest)) :
    Answered s.clientFd t c
      (if usersCheck env.users (CString.ofArray user) (CString.ofArray pass)
        then 0x00 else 0x01) := by
  obtain ⟨-, spacious, stage, -⟩ := progress
  unfold Stage at stage
  rw [reading] at stage
  obtain ⟨⟨authRequired, offered, consumed, fresh, negotiated, roomy, fed⟩,
    sent⟩ := stage
  obtain ⟨middle, next, handled⟩ := handled_of_handler runs
  obtain ⟨handler, serves, ran⟩ := handled.runs
  have calls : c.calls = middle.calls :=
    handled.closes.calls.trans (jump_calls ..)
  rw [show (Ctx.s ⟨env, s, [], false⟩) = s from rfl, reading] at serves
  cases serves
  -- What was received, from the first octet after the HELLO.
  have stream : consumed ++ s.readBuffer.content ++
      receivedFrom s.clientFd c.calls = authMessage user pass ++ rest := by
    rw [receivedFrom_append, negotiated.received, List.append_assoc] at received
    exact helloMessage_whole negotiated.small small received
  have effect := authRead_effect ⟨fd, p⟩ a (Ctx.started ⟨env, s, [], false⟩)
  rw [eq_of_total ran] at effect
  rw [calls] at arrives stream
  obtain ⟨answers, unsent, written⟩ :=
    authRead_answers (p := p) rfl hosts.client
    spacious.2 roomy fed validUser validPass effect arrives stream
  change next = .authWrite at answers
  subst answers
  have entered := handled.stays (by simp [SocksState.closing])
  subst entered
  have kept : (jump ⟨fd, p⟩ a .authWrite middle).s.writeBuffer =
      middle.s.writeBuffer := by
    rw [jump_s]
    split <;> rfl
  refine ⟨jump_state .., ?_⟩
  rw [sentTo_append, sent, calls, kept]
  rw [show sentTo s.clientFd middle.calls = [] from unsent, List.append_nil,
    written]
  rfl

theorem waiting_step {p : Ptr} {s next : Socks5} {calls : List Call}
    (step : ConnectionStep p s calls next) (reading : s.state = .authRead)
    (nothing : receivedFrom s.clientFd calls = []) :
    sentTo s.clientFd calls = [] ∧
      (next.state = .authRead ∨ next.state.closing) := by
  cases step with
  | resolved answer => exact ⟨rfl, .inl reading⟩
  | @handled kind fd a env c hosts runs =>
      obtain ⟨middle, next, handled⟩ := handled_of_handler runs
      obtain ⟨handler, serves, ran⟩ := handled.runs
      have calls : c.calls = middle.calls :=
        handled.closes.calls.trans (jump_calls ..)
      rw [calls] at nothing ⊢
      rw [handled.state]
      rw [show (Ctx.s ⟨env, s, [], false⟩) = s from rfl, reading] at serves
      cases serves
      have effect :=
        authRead_effect ⟨fd, p⟩ a (Ctx.started ⟨env, s, [], false⟩)
      rw [eq_of_total ran] at effect
      generalize reached : (middle, next) = result at effect
      obtain rfl : middle = result.1 := congrArg Prod.fst reached
      obtain rfl : next = result.2 := congrArg Prod.snd reached
      have arrived {octets : List UInt8} :
          receivedFrom s.clientFd [.recv s.clientFd octets] = octets := by
        simp [receivedFrom]
      cases effect with
      | again e => exact ⟨rfl, .inl rfl⟩
      | failed e => exact ⟨rfl, .inr (.inr rfl)⟩
      | closed => exact ⟨rfl, .inr (.inr rfl)⟩
      | partly some => exact absurd (arrived.symm.trans nothing) some
      | completed some =>
          rw [(authCompleted_received ..).1] at nothing
          exact absurd (arrived.symm.trans nothing) some

/-- While nothing more is received, no status is sent. -/
theorem waiting_run {p : Ptr} {first s last : Socks5}
    {labels more : List (List Call)} (accepted : Accepted first)
    (run : (connection p).Run first labels s) (reading : s.state = .authRead)
    (later : (connection p).Run s more last)
    (nothing : receivedFrom s.clientFd more.flatten = []) :
    sentTo s.clientFd more.flatten = [] ∧
      (last.state = .authRead ∨ last.state.closing) := by
  induction later with
  | nil => exact ⟨rfl, .inl reading⟩
  | @snoc middle last more calls before step induction =>
      have same : middle.clientFd = s.clientFd :=
        (progress_of_run accepted (run.append before)).clientFd.trans
          (progress_of_run accepted run).clientFd.symm
      rw [List.flatten_append, List.flatten_singleton] at nothing ⊢
      rw [receivedFrom_append, List.append_eq_nil_iff] at nothing
      obtain ⟨silent, waits | gone⟩ := induction nothing.1
      · obtain ⟨quiet, next⟩ :=
          waiting_step step waits (same ▸ nothing.2)
        rw [sentTo_append, silent, ← same, quiet]
        exact ⟨rfl, next⟩
      · obtain ⟨none, gone⟩ := closing_run gone (.single step)
        rw [List.flatten_singleton] at none
        rw [sentTo_append, silent, none]
        exact ⟨rfl, .inr gone⟩

theorem status_iff {test : Bool} {refused : UInt8} {decides stores : Prop}
    (nonzero : refused ≠ 0) (tested : test = true ↔ decides) :
    (((if test then 0 else refused) = 0 ↔ stores) ↔ (decides ↔ stores)) := by
  cases test <;> simp [← tested, nonzero]

theorem unanswered_run {p : Ptr} {first s last : Socks5}
    {labels more : List (List Call)} (accepted : Accepted first)
    (run : (connection p).Run first labels s) (reading : s.state = .authRead)
    (later : (connection p).Run s more last)
    (nothing : receivedFrom s.clientFd more.flatten = []) :
    sentTo s.clientFd (labels ++ more).flatten = [0x05, methodUserpass] := by
  have unfinished := unfinished_of_run accepted run
  unfold Unfinished at unfinished
  rw [reading, ← (progress_of_run accepted run).clientFd] at unfinished
  obtain ⟨silent, -⟩ := waiting_run accepted run reading later nothing
  rw [List.flatten_append, sentTo_append, silent, List.append_nil]
  exact unfinished

/-- `mgmt_read` answers the handshake that the octets it receives complete. -/
theorem handshake_of_message {key : Key} {x : MgmtCtx} {user pass : Field}
    {octets more : List UInt8} (state : x.c.state = .auth)
    (room : x.c.wbuf.limit = mgmtWbuf) (nonempty : octets ≠ [])
    (fits : octets.length ≤ x.c.rbuf.space)
    (arrived :
      x.c.rbuf.content ++ octets = authMessage user.val pass.val ++ more) :
    ∃ after, mgmtRead key (.receiving octets) x = some after ∧
      after.c.state = .authReply ∧
      after.c.wbuf.content =
        [smpVersion, if SmpMessage.admits x.env.config user.val pass.val then
          smpAuthOk
          else smpAuthFailed] := by
  rw [mgmtRead_receiving nonempty fits]
  have filled := Buffer.content_fill fits
  obtain ⟨after, runs, processed⟩ := @tryProcess_message key
    { x.call (.recv octets) with
      c := { x.c with rbuf := bufferFill x.c.rbuf octets } }
    more room (.handshake user pass) state (filled.trans arrived)
  exact ⟨after, runs, processed.state, processed.reply⟩

theorem Answered.status_iff {fd : Fd} {t : List Call} {c : Ctx}
    {status : UInt8} (answered : Answered fd t c status) (other : UInt8) :
    Answered fd t c other ↔ status = other := by
  constructor
  · intro again
    have same := answered.sent.symm.trans again.sent
    simpa using same
  · rintro rfl
    exact answered

/-- The SOCKS server compares octet strings exactly when an octet is received in
AUTH_READ once the message is complete and its fields are not mistaken: free of
NULs, or such that what precedes their first NULs is not accepted.  Without that
octet it never answers.  The other server compares them exactly on fields that
are not mistaken. -/
theorem credentials_compared {p : Ptr} {first s : Socks5}
    {labels : List (List Call)} {env : Env} {kind : EventKind} {fd : Fd}
    {a : Answers} {c : Ctx} {methods rest octets more : List UInt8}
    {user pass : Field} {key : Key} {x : MgmtCtx}
    (accepted : Accepted first) (run : (connection p).Run first labels s)
    (reading : s.state = .authRead) (hosts : Hosts p env s)
    (built : env.users.Built)
    (runs : socksv5Handler kind ⟨fd, p⟩ a ⟨env, s, [], false⟩ = some c)
    (small : methods.length ≤ 255)
    (received : receivedFrom s.clientFd (labels.flatten ++ c.calls) =
      helloMessage methods ++ (authMessage user.val pass.val ++ rest))
    (state : x.c.state = .auth) (room : x.c.wbuf.limit = mgmtWbuf)
    (nonempty : octets ≠ []) (fits : octets.length ≤ x.c.rbuf.space)
    (arrived : x.c.rbuf.content ++ octets =
      authMessage user.val pass.val ++ more) :
    (receivedFrom s.clientFd c.calls ≠ [] →
      ∃ status, Answered s.clientFd labels.flatten c status) ∧
    ((Answered s.clientFd labels.flatten c 0x00 ↔
        env.users.Stores user.val pass.val) ↔
      if receivedFrom s.clientFd c.calls = [] then
        ¬ env.users.Stores user.val pass.val
      else env.users.Unmistaken user.val pass.val) ∧
    (∀ {later last}, (connection p).Run s later last →
      receivedFrom s.clientFd later.flatten = [] →
      sentTo s.clientFd (labels ++ later).flatten = [0x05, methodUserpass]) ∧
    (∃ after status, mgmtRead key (.receiving octets) x = some after ∧
      after.c.state = .authReply ∧ after.c.wbuf.content = [smpVersion, status] ∧
      ((status = smpAuthOk ↔ x.env.config.Names user.val pass.val) ↔
        x.env.config.Unmistaken user.val pass.val)) ∧
    (∀ otherUser otherPass,
      env.users.Unmistaken user.val pass.val →
      env.users.Unmistaken otherUser otherPass →
      env.users.Stores (cut user.val) (cut pass.val) →
      cut otherUser = cut user.val → cut otherPass = cut pass.val →
      otherUser = user.val ∧ otherPass = pass.val) := by
  have progress := progress_of_run accepted run
  rw [← progress.clientFd] at progress
  have answers (arrives : receivedFrom s.clientFd c.calls ≠ []) :=
    answered_of_message progress reading hosts runs small user.property
      pass.property arrives received
  refine ⟨fun arrives => ⟨_, answers arrives⟩, ?_, ?_, ?_, ?_⟩
  · split
    next nothing =>
      obtain ⟨-, waits⟩ := waiting_step (.handled hosts runs) reading nothing
      have unanswered : ¬ Answered s.clientFd labels.flatten c 0x00 := by
        intro answered
        rw [answered.state] at waits
        simp [SocksState.closing] at waits
      simp only [unanswered, false_iff]
    next arrives =>
      rw [(answers arrives).status_iff, UserTable.Unmistaken,
        ← cut_iff fun _ _ => UserTable.Stores.nulFree]
      exact status_iff (by decide) (UserTable.check_iff_stores built _ _)
  · exact fun continues => unanswered_run accepted run reading continues
  · obtain ⟨after, reads, replies, reply⟩ :=
      @handshake_of_message key x user pass octets more state room nonempty fits
        arrived
    refine ⟨after, _, reads, replies, reply, ?_⟩
    rw [ProxyConfig.Unmistaken, ← cut_iff fun _ _ => ProxyConfig.Names.nulFree]
    exact status_iff (by decide) (ProxyConfig.admits_iff_names _ _ _)
  · intro otherUser otherPass unmistaken others stores sameUser samePass
    have free : NulFree user.val pass.val :=
      unmistaken.resolve_right fun refused =>
        refused stores
    have otherFree : NulFree otherUser otherPass :=
      others.resolve_right fun refused =>
        refused (by rwa [sameUser, samePass])
    rw [cut_of_noNul otherFree.1, cut_of_noNul free.1] at sameUser
    rw [cut_of_noNul otherFree.2, cut_of_noNul free.2] at samePass
    exact ⟨sameUser, samePass⟩

private def storedUsers : UserTable :=
  (usersAdd usersInit (some (.ofString "ab")) (some (.ofString "cd"))).1

private def storingEnv : Env := soleEnv configInitDefaults storedUsers 5 0

private def attempt (user pass : List UInt8) :
    Option (List (List Call) × Socks5 × Ctx) :=
  (replay 0 storingEnv (freshConnection configInitDefaults 5)
    [⟨.read, 5, .receiving (helloMessage [methodUserpass])⟩,
      ⟨.write, 5, .accepting [2]⟩]).bind fun (labels, _, s) =>
    (socksv5Handler .read ⟨5, 0⟩ (.receiving (authMessage user pass))
      ⟨storingEnv, s, [], false⟩).map fun c => (labels, s, c)

private theorem run_of_attempt {user pass : List UInt8}
    {labels : List (List Call)} {s : Socks5} {c : Ctx}
    (attempted : attempt user pass = some (labels, s, c)) :
    (connection 0).Run (freshConnection configInitDefaults 5) labels s ∧
      socksv5Handler .read ⟨5, 0⟩ (.receiving (authMessage user pass))
        ⟨storingEnv, s, [], false⟩ = some c := by
  obtain ⟨⟨_, _, _⟩, replayed, mapped⟩ := Option.bind_eq_some_iff.mp attempted
  obtain ⟨_, runs, same⟩ := Option.map_eq_some_iff.mp mapped
  cases same
  exact ⟨run_of_replay replayed, runs⟩

theorem credentials_compared_stored :
    ∃ (fd : Fd) (t : List Call) (c : Ctx) (status : UInt8),
      Answered fd t c status ∧
      (Answered fd t c 0x00 ↔ storingEnv.users.Stores [97, 98] [99, 100]) := by
  have expected : (attempt [97, 98] [99, 100]).any (fun (labels, s, c) =>
      decide (s.state = .authRead ∧ Hosts 0 storingEnv s ∧
        receivedFrom s.clientFd c.calls ≠ [] ∧
        receivedFrom s.clientFd (labels.flatten ++ c.calls) =
          helloMessage [methodUserpass] ++
            (authMessage [97, 98] [99, 100] ++ []))) = true := by
    decide +kernel
  obtain ⟨⟨labels, s, c⟩, attempted, facts⟩ :=
    (Option.any_eq_true ..).mp expected
  obtain ⟨reading, hosts, arrives, received⟩ := of_decide_eq_true facts
  obtain ⟨run, runs⟩ := run_of_attempt attempted
  have built : storingEnv.users.Built := .add .init _ _
  obtain ⟨answers, compares, -⟩ :=
    @credentials_compared 0 _ s labels storingEnv .read 5 _ c [methodUserpass]
      [] (authMessage [97, 98] [99, 100]) [] ⟨[97, 98], by decide⟩
      ⟨[99, 100], by decide⟩ ⟨5, 0⟩ ⟨storingEnv, mgmtNew 5, [], false⟩
      (accepted_fresh _ _) run reading hosts built runs (by decide) received rfl
      rfl (by decide) (by decide) rfl
  obtain ⟨status, answered⟩ := answers arrives
  rw [if_neg arrives] at compares
  exact ⟨_, _, c, status, answered, compares.mpr (.inl (by decide))⟩

private theorem truncated_name :
    ∃ labels s c,
      (connection 0).Run (freshConnection configInitDefaults 5) labels s ∧
      socksv5Handler .read ⟨5, 0⟩
        (.receiving (authMessage [97, 98, 0, 120] [99, 100]))
        ⟨storingEnv, s, [], false⟩ = some c ∧
      storingEnv.users.Built ∧ c.s.state = .authWrite ∧
      receivedFrom 5 (labels.flatten ++ c.calls) =
        helloMessage [methodUserpass] ++ authMessage [97, 98, 0, 120]
          [99, 100] ∧
      c.s.writeBuffer.content = [0x01, 0x00] ∧
      ¬ storingEnv.users.Stores [97, 98, 0, 120] [99, 100] := by
  have expected :
      (attempt [97, 98, 0, 120] [99, 100]).any (fun (labels, _, c) =>
      decide (c.s.state = .authWrite ∧
        receivedFrom 5 (labels.flatten ++ c.calls) =
          helloMessage [methodUserpass] ++ authMessage [97, 98, 0, 120]
            [99, 100] ∧
        c.s.writeBuffer.content = [0x01, 0x00])) = true := by
    decide +kernel
  obtain ⟨⟨labels, s, c⟩, attempted, facts⟩ :=
    (Option.any_eq_true ..).mp expected
  obtain ⟨state, received, status⟩ := of_decide_eq_true facts
  obtain ⟨run, runs⟩ := run_of_attempt attempted
  refine ⟨labels, s, c, run, runs, .add .init _ _, state, received, status, ?_⟩
  intro stores
  exact absurd stores.nulFree (by decide)

private theorem message_early :
    ∃ labels s,
      (connection 0).Run (freshConnection configInitDefaults 5) labels s ∧
      s.state = .authRead ∧ s.clientFd = 5 ∧
      receivedFrom 5 labels.flatten =
        helloMessage [methodUserpass] ++ authMessage [97, 98] [99, 100] := by
  have expected : (replay 0 storingEnv (freshConnection configInitDefaults 5)
      [⟨.read, 5, .receiving
        (helloMessage [methodUserpass] ++ authMessage [97, 98] [99, 100])⟩,
      ⟨.write, 5, .accepting [2]⟩]).any (fun (labels, _, s) =>
      decide (s.state = .authRead ∧ s.clientFd = 5 ∧
        receivedFrom 5 labels.flatten =
          helloMessage [methodUserpass] ++ authMessage [97, 98] [99, 100])) =
            true := by
    decide +kernel
  obtain ⟨⟨labels, env, s⟩, replayed, facts⟩ :=
    (Option.any_eq_true ..).mp expected
  exact ⟨labels, s, run_of_replay replayed, of_decide_eq_true facts⟩

/-- A name that is cut at its NUL is let in, and a stored user whose message
came with the HELLO is not answered. -/
theorem credentials_truncated :
    (∃ labels s c,
      (connection 0).Run (freshConnection configInitDefaults 5) labels s ∧
      socksv5Handler .read ⟨5, 0⟩
        (.receiving (authMessage [97, 98, 0, 120] [99, 100]))
        ⟨storingEnv, s, [], false⟩ = some c ∧
      storingEnv.users.Built ∧ c.s.state = .authWrite ∧
      receivedFrom 5 (labels.flatten ++ c.calls) =
        helloMessage [methodUserpass] ++ authMessage [97, 98, 0, 120]
          [99, 100] ∧
      c.s.writeBuffer.content = [0x01, 0x00] ∧
      ¬ storingEnv.users.Stores [97, 98, 0, 120] [99, 100]) ∧
    storingEnv.users.Stores [97, 98] [99, 100] ∧
    ∃ labels s,
      (connection 0).Run (freshConnection configInitDefaults 5) labels s ∧
      receivedFrom 5 labels.flatten =
        helloMessage [methodUserpass] ++ authMessage [97, 98] [99, 100] ∧
      ∀ {later last}, (connection 0).Run s later last →
        receivedFrom 5 later.flatten = [] →
        sentTo 5 (labels ++ later).flatten = [0x05, methodUserpass] := by
  refine ⟨truncated_name, ?_, ?_⟩
  · exact ⟨⟨0, by decide⟩, _, rfl, rfl, rfl⟩
  · obtain ⟨labels, s, run, reading, client, received⟩ := message_early
    refine ⟨labels, s, run, received, fun later nothing => ?_⟩
    rw [← client] at nothing ⊢
    exact unanswered_run (accepted_fresh _ _) run reading later nothing

end SocksProxy
