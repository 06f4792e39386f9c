import SocksProxy.Socks5.Destinations
import SocksProxy.Socks5.Metering

/-! The access records of a connection and the failures that it counts. -/

namespace SocksProxy

open Transition

structure Observed where
  state : SocksState
  calls : List Call
  before : Metrics
  after : Metrics

/-- The steps of a connection, with the counters of the server. -/
inductive ObservedStep (p : Ptr) (s : Socks5) : Observed → Socks5 → Prop
  | handled {kind : EventKind} {fd : Fd} {a : Answers} {env : Env} {c : Ctx}
      (hosts : Hosts p env s)
      (runs : socksv5Handler kind ⟨fd, p⟩ a ⟨env, s, [], false⟩ = some c) :
      ObservedStep p s ⟨s.state, c.calls, env.metrics, c.env.metrics⟩ c.s
  | resolved (answer : DnsAnswer) (metrics : Metrics) :
      ObservedStep p s ⟨s.state, [], metrics, metrics⟩
        { s with dns :=
          { s.dns with result := answer.result, status := answer.status } }

def observed (p : Ptr) : System Socks5 Observed where
  init := Accepted
  step := ObservedStep p

def callsOf (t : List Observed) : List Call := t.flatMap Observed.calls

@[simp] def Call.accessRecord : Call → Option AccessRecord
  | .loggerAccess record => some record
  | _ => none

def accessRecords (calls : List Call) : List AccessRecord :=
  calls.filterMap Call.accessRecord

def Observed.failures (o : Observed) : Nat :=
  if o.after.failedConnections = o.before.failedConnections then 0 else 1

def failures (t : List Observed) : Nat := (t.map Observed.failures).sum

/-- A send of the reply failed for good. -/
def ReplyLost (fd : Fd) (t : List Observed) : Prop :=
  ∃ o ∈ t, o.state = .requestWrite ∧
    ∃ e, wouldBlock e = false ∧ Call.sendFailed fd e ∈ o.calls

/-- A resolution was asked for, or a connection attempted. -/
def Reached (t : List Observed) : Prop := ∃ made ∈ callsOf t, made.reaching

@[simp] theorem callsOf_append (left right : List Observed) :
    callsOf (left ++ right) = callsOf left ++ callsOf right :=
      List.flatMap_append

@[simp] theorem accessRecords_append (left right : List Call) :
    accessRecords (left ++ right) = accessRecords left ++ accessRecords right :=
  List.filterMap_append

@[simp] theorem failures_append (left right : List Observed) :
    failures (left ++ right) = failures left + failures right := by
  simp [failures]

@[simp] theorem callsOf_singleton (o : Observed) : callsOf [o] = o.calls := by
  simp [callsOf]

@[simp] theorem failures_singleton (o : Observed) :
    failures [o] = o.failures := by
  simp [failures]

theorem replyLost_append {fd : Fd} {left right : List Observed} :
    ReplyLost fd (left ++ right) ↔ ReplyLost fd left ∨ ReplyLost fd right := by
  simp only [ReplyLost, List.mem_append, or_and_right, exists_or]

theorem reached_append {left right : List Observed} :
    Reached (left ++ right) ↔ Reached left ∨ Reached right := by
  simp only [Reached, callsOf_append, List.mem_append, or_and_right, exists_or]

structure Unbooked (fd : Fd) (t : List Observed) : Prop where
  records : accessRecords (callsOf t) = []
  failures : failures t = 0
  kept : ¬ ReplyLost fd t

structure Accounted (fd : Fd) (s : Socks5) (t : List Observed) : Prop where
  records : accessRecords (callsOf t) = [s.accessRecord]
  failures : failures t = if s.reply = repSuccess then 0 else 1
  kept : ¬ ReplyLost fd t
  replied : ∃ received reply relayed,
    Opened fd (callsOf t) received (Reply.encode reply ++ relayed) ∧
      reply.rep = s.reply

def Booked (fd : Fd) (s : Socks5) (t : List Observed) : Prop :=
  match s.state with
  | .helloRead | .helloWrite | .authRead | .authWrite | .requestRead =>
      Unbooked fd t ∧ ¬ Reached t
  | .requestResolv | .requestConnecting | .requestWrite => Unbooked fd t
  | .copy => Accounted fd s t ∧ s.reply = repSuccess
  | .done | .errorState =>
      Reached t → Accounted fd s t ∨ accessRecords (callsOf t) = [] ∧
        ReplyLost fd t

structure Observed.Silent (o : Observed) : Prop where
  records : accessRecords o.calls = []
  failures : o.failures = 0
  kept : ∀ fd, ¬ ReplyLost fd [o]

theorem replyLost_singleton {fd : Fd} {o : Observed} : ReplyLost fd [o] ↔
    o.state = .requestWrite ∧
      ∃ e, wouldBlock e = false ∧ Call.sendFailed fd e ∈ o.calls := by
  simp [ReplyLost]

theorem Unbooked.silent {fd : Fd} {t : List Observed} {o : Observed}
    (unbooked : Unbooked fd t) (silent : o.Silent) :
    Unbooked fd (t ++ [o]) := by
  refine ⟨?_, ?_, ?_⟩
  · rw [callsOf_append, accessRecords_append, unbooked.records,
      callsOf_singleton, silent.records]
    rfl
  · rw [failures_append, unbooked.failures, failures_singleton, silent.failures]
  · rw [replyLost_append]
    exact not_or.mpr ⟨unbooked.kept, silent.kept fd⟩

theorem Accounted.silent {fd : Fd} {s next : Socks5} {t : List Observed}
    {o : Observed} (settled : Accounted fd s t) (silent : o.Silent)
    (same : next.accessRecord = s.accessRecord) :
    Accounted fd next (t ++ [o]) := by
  have reply : next.reply = s.reply := congrArg AccessRecord.status same
  have replied : ∃ received sent relayed,
      Opened fd (callsOf (t ++ [o])) received (Reply.encode sent ++ relayed) ∧
        sent.rep = next.reply := by
    obtain ⟨received, sent, relayed, opened, rep⟩ := settled.replied
    have extended := opened.extend o.calls
    rw [List.append_assoc] at extended
    rw [callsOf_append, callsOf_singleton]
    exact ⟨_, sent, _, extended, rep.trans reply.symm⟩
  refine ⟨?_, ?_, ?_, replied⟩
  · rw [callsOf_append, accessRecords_append, settled.records,
      callsOf_singleton, silent.records, same]
    rfl
  · rw [failures_append, settled.failures, reply, failures_singleton,
      silent.failures]
    rfl
  · rw [replyLost_append]
    exact not_or.mpr ⟨settled.kept, silent.kept fd⟩

private theorem records_of_mayCall {st : SocksState} {made : Call}
    (elsewhere : st ≠ .requestWrite) (may : st.mayCall made) :
    made.accessRecord = none := by
  cases made with
  | loggerAccess record =>
      cases st <;> simp [SocksState.mayCall, Call.reads, Call.writes,
        Call.negotiates, Call.reaching, Call.relays] at may elsewhere
  | _ => rfl

theorem Handled.tally {kind : EventKind} {key : Key} {a : Answers}
    {c after middle : Ctx} {next : SocksState}
    (handled : Handled kind key a c after middle next) :
    after.env.metrics.tally = middle.env.metrics.tally := by
  rw [handled.closes.tally, jump_metrics]

theorem silent_of_handled {p : Ptr} {s : Socks5} {kind : EventKind} {key : Key}
    {a : Answers} {env : Env} {after middle : Ctx} {next : SocksState}
    (hosts : Hosts p env s) (elsewhere : s.state ≠ .requestWrite)
    (handled : Handled kind key a ⟨env, s, [], false⟩ after middle next) :
    Observed.Silent ⟨s.state, after.calls, env.metrics, after.env.metrics⟩ := by
  obtain ⟨handler, serves, ran⟩ := handled.runs
  have calls : after.calls = middle.calls :=
    handled.closes.calls.trans (jump_calls ..)
  refine ⟨?_, ?_, fun _ lost => elsewhere (replyLost_singleton.mp lost).1⟩
  · obtain ⟨more, added, may⟩ := handler_makes serves ran
    refine List.filterMap_eq_nil_iff.mpr fun made member => ?_
    rw [calls, added] at member
    exact records_of_mayCall elsewhere (may made member)
  · have failed : middle.env.metrics.failedConnections =
        env.metrics.failedConnections := by
      by_cases copying : s.state = .copy
      · obtain ⟨-, -, more, -, counted⟩ :=
          copy_meters (c := Ctx.started ⟨env, s, [], false⟩)
          hosts.apart (copying ▸ serves) ran
        exact counted.failed
      · exact congrArg Prod.fst (handshake_tally copying elsewhere serves ran)
    have same := congrArg Prod.fst handled.tally
    exact if_pos (same.trans failed)

theorem unreached_of_asking {kind : EventKind} {key : Key} {a : Answers}
    {c : Ctx} {st : SocksState} {handler : Handler} {result : Ctx × SocksState}
    (asking : st.asked = false) (called : c.calls = [])
    (serves : Serves st kind handler) (ran : handler key a c = some result)
    (stays : result.2.asked = false ∨ result.2.closing) :
    Unreached result.1.calls := by
  by_cases requesting : st = .requestRead
  · subst requesting
    cases serves with
    | requestRead =>
        have effect := requestRead_effect key a c
        rw [eq_of_total ran] at effect
        have leaves (c : Ctx) : ¬ ((requestCompleted key a c).2.asked = false ∨
            (requestCompleted key a c).2.closing) := by
          rcases requestCompleted_next key a c with same | same | same <;>
            simp [same, SocksState.asked, SocksState.closing]
        cases effect with
        | again | failed | closed => simp [Unreached, called, Call.reaching]
        | partly => simp [Unreached, called, Call.reaching]
        | completed => exact absurd stays (leaves _)
  · exact unreached_of_unasked asking requesting called serves ran

theorem jump_accessRecord (key : Key) (a : Answers) (next : SocksState)
    (c : Ctx) :
    (jump key a next c).s.accessRecord = c.s.accessRecord := by
  rw [jump_s]
  split
  · rfl
  · cases next <;> rfl

theorem Handled.accessRecord {kind : EventKind} {key : Key} {a : Answers}
    {c after middle : Ctx} {next : SocksState}
    (handled : Handled kind key a c after middle next) :
    after.s.accessRecord = middle.s.accessRecord := by
  obtain ⟨references, object⟩ := handled.closes.object
  rw [object]
  exact jump_accessRecord ..

theorem booked_asking {fd : Fd} {next : Socks5} {t : List Observed}
    {o : Observed} (unbooked : Unbooked fd t) (unreached : ¬ Reached t)
    (silent : o.Silent) (elsewhere : next.state ≠ .copy)
    (still : next.state.asked = false ∨ next.state.closing → ¬ Reached [o]) :
    Booked fd next (t ++ [o]) := by
  have unbooked := unbooked.silent silent
  have apart (stays : next.state.asked = false ∨ next.state.closing) :
      ¬ Reached (t ++ [o]) := by
    rw [reached_append]
    exact not_or.mpr ⟨unreached, still stays⟩
  unfold Booked
  cases st : next.state <;> rw [st] at elsewhere apart <;> dsimp only
  case copy => exact absurd rfl elsewhere
  case done => exact fun reached => absurd reached (apart (.inr (.inl rfl)))
  case errorState =>
    exact fun reached => absurd reached (apart (.inr (.inr rfl)))
  case requestResolv | requestConnecting | requestWrite => exact unbooked
  all_goals exact ⟨unbooked, apart (.inl rfl)⟩

theorem silent_of_single {st : SocksState} {made : Call} {calls : List Call}
    {before after : Metrics} (called : calls = [made])
    (quiet : made.accessRecord = none)
    (blocked : ∀ fd e, wouldBlock e = false → Call.sendFailed fd e ≠ made)
    (counted : after.failedConnections = before.failedConnections) :
    Observed.Silent ⟨st, calls, before, after⟩ := by
  refine ⟨?_, if_pos counted, fun fd lost => ?_⟩
  · rw [called]
    exact List.filterMap_cons_none quiet
  · obtain ⟨-, e, hard, member⟩ := replyLost_singleton.mp lost
    rw [called, List.mem_singleton] at member
    exact blocked fd e hard member

theorem Unbooked.lost {fd : Fd} {t : List Observed} {o : Observed} {e : Errno}
    (unbooked : Unbooked fd t) (state : o.state = .requestWrite)
    (hard : wouldBlock e = false) (called : o.calls = [.sendFailed fd e]) :
    accessRecords (callsOf (t ++ [o])) = [] ∧ ReplyLost fd (t ++ [o]) := by
  constructor
  · rw [callsOf_append, accessRecords_append, unbooked.records,
      callsOf_singleton, called]
    rfl
  · refine replyLost_append.mpr
      (.inr (replyLost_singleton.mpr ⟨state, e, hard, ?_⟩))
    rw [called]
    exact List.mem_singleton_self _

theorem Unbooked.accounted {fd : Fd} {s next : Socks5} {t : List Observed}
    {o : Observed} {received sent : List UInt8} {reply : Reply}
    (unbooked : Unbooked fd t) (opened : Opened fd (callsOf t) received sent)
    (rep : reply.rep = s.reply)
    (whole : sent ++ s.writeBuffer.content = reply.encode)
    (called : o.calls =
      [.send fd s.writeBuffer.content, .loggerAccess s.accessRecord])
    (same : next.accessRecord = s.accessRecord)
    (counted : o.failures = if s.reply = repSuccess then 0 else 1) :
    Accounted fd next (t ++ [o]) := by
  have status : next.reply = s.reply := congrArg AccessRecord.status same
  have sends : sent ++ sentTo fd o.calls = reply.encode ++ [] := by
    rw [called, List.append_nil, ← whole]
    simp [sentTo]
  have replied : Opened fd (callsOf (t ++ [o]))
      (received ++ receivedFrom fd o.calls) (reply.encode ++ []) := by
    rw [callsOf_append, callsOf_singleton, ← sends]
    exact opened.extend o.calls
  refine ⟨?_, ?_, ?_, _, reply, [], replied, rep.trans status.symm⟩
  · rw [callsOf_append, accessRecords_append, unbooked.records,
      callsOf_singleton, called, same]
    rfl
  · rw [failures_append, unbooked.failures, failures_singleton, status,
      Nat.zero_add]
    exact counted
  · rw [replyLost_append, replyLost_singleton]
    rintro (lost | ⟨-, e, -, member⟩)
    · exact unbooked.kept lost
    · simp [called] at member

theorem replySent_books {c middle : Ctx} {next : SocksState}
    (sent : (middle, next) = replySent c) :
    middle.calls = c.calls ++ [.loggerAccess c.s.accessRecord] ∧
      middle.s.accessRecord = c.s.accessRecord ∧
      ((c.s.reply = repSuccess ∧ next = .copy ∧
          middle.env.metrics = c.env.metrics) ∨
        (c.s.reply ≠ repSuccess ∧ next = .done ∧
          middle.env.metrics.failedConnections ≠
            c.env.metrics.failedConnections)) := by
  unfold replySent at sent
  dsimp only at sent
  split at sent
  next refused =>
    obtain ⟨rfl, rfl⟩ := Prod.mk.inj sent
    exact ⟨rfl, rfl, .inr ⟨refused, rfl, failedConnections_failed_ne _⟩⟩
  next success =>
    obtain ⟨rfl, rfl⟩ := Prod.mk.inj sent
    exact ⟨rfl, rfl, .inl ⟨not_not.mp success, rfl, rfl⟩⟩

theorem booked_requestWrite {s : Socks5} {t : List Observed} {kind : EventKind}
    {key : Key} {a : Answers} {env : Env} {after middle : Ctx}
    {next : SocksState} (unbooked : Unbooked s.clientFd t)
    (exchanged : Exchanged s (callsOf t)) (state : s.state = .requestWrite)
    (handled : Handled kind key a ⟨env, s, [], false⟩ after middle next) :
    Booked s.clientFd after.s
      (t ++ [⟨s.state, after.calls, env.metrics, after.env.metrics⟩]) := by
  obtain ⟨handler, serves, ran⟩ := handled.runs
  have calls : after.calls = middle.calls :=
    handled.closes.calls.trans (jump_calls ..)
  have failed : after.env.metrics.failedConnections =
      middle.env.metrics.failedConnections := congrArg Prod.fst handled.tally
  have stated := handled.state
  rw [show (Ctx.s ⟨env, s, [], false⟩) = s from rfl, state] at serves
  cases serves
  have effect := requestWrite_effect key a (Ctx.started ⟨env, s, [], false⟩)
  rw [eq_of_total ran] at effect
  generalize reached : (middle, next) = result at effect
  unfold Booked
  cases effect with
  | again e blocked =>
      obtain ⟨rfl, rfl⟩ := Prod.mk.inj reached
      rw [stated]
      refine unbooked.silent (silent_of_single calls rfl ?_ failed)
      rintro fd other hard same
      cases same
      exact absurd (blocked.symm.trans hard) (by simp)
  | failed e hard =>
      obtain ⟨rfl, rfl⟩ := Prod.mk.inj reached
      rw [stated]
      exact fun _ => .inr (unbooked.lost state hard calls)
  | partly =>
      obtain ⟨rfl, rfl⟩ := Prod.mk.inj reached
      rw [stated]
      exact unbooked.silent (silent_of_single calls rfl (by simp) failed)
  | @flushed buffer content limit rewound =>
      unfold Exchanged at exchanged
      rw [state] at exchanged
      obtain ⟨received, sent, reply, opened, rep, whole, -, -⟩ := exchanged
      obtain ⟨called, object, booked⟩ := replySent_books reached
      have record : after.s.accessRecord = s.accessRecord :=
        handled.accessRecord.trans object
      let observed : Observed :=
        ⟨s.state, after.calls, env.metrics, after.env.metrics⟩
      have settles
          (counted : observed.failures =
            if s.reply = repSuccess then 0 else 1) :
          Accounted s.clientFd after.s (t ++ [observed]) :=
        unbooked.accounted opened rep whole (calls.trans called) record counted
      rw [stated]
      rcases booked with ⟨success, rfl, metrics⟩ | ⟨refused, rfl, counted⟩
      · have success : s.reply = repSuccess := success
        refine ⟨settles ?_, (congrArg AccessRecord.status record).trans success⟩
        rw [if_pos success]
        exact if_pos (failed.trans (congrArg Metrics.failedConnections metrics))
      · have refused : s.reply ≠ repSuccess := refused
        refine fun _ => .inl (settles ?_)
        rw [if_neg refused]
        exact if_neg (failed ▸ counted)

theorem booked_handled {p : Ptr} {s : Socks5} {t : List Observed}
    {kind : EventKind} {key : Key} {a : Answers} {env : Env}
    {after middle : Ctx} {next : SocksState} (hosts : Hosts p env s)
    (booked : Booked s.clientFd s t) (exchanged : Exchanged s (callsOf t))
    (handled : Handled kind key a ⟨env, s, [], false⟩ after middle next) :
    Booked s.clientFd after.s
      (t ++ [⟨s.state, after.calls, env.metrics, after.env.metrics⟩]) := by
  obtain ⟨handler, serves, ran⟩ := handled.runs
  have follows : next ∈ s.state.successors := handler_next serves ran
  have stated := handled.state
  have calls : after.calls = middle.calls :=
    handled.closes.calls.trans (jump_calls ..)
  unfold Booked at booked
  by_cases asking : s.state.asked = false
  · have ⟨unbooked, unreached⟩ : Unbooked s.clientFd t ∧ ¬ Reached t := by
      cases st : s.state <;> rw [st] at booked asking <;>
        first | exact booked | cases asking
    have elsewhere : s.state ≠ .requestWrite := fun same => by
      simp [same, SocksState.asked] at asking
    refine booked_asking unbooked unreached
      (silent_of_handled hosts elsewhere handled) ?_ ?_
    · rw [stated]
      rintro rfl
      cases st : s.state <;> simp [st, SocksState.asked, SocksState.successors]
        at asking follows
    · rw [stated]
      rintro stays ⟨made, member, reaching⟩
      rw [callsOf_singleton] at member
      exact unreached_of_asking asking rfl serves ran stays made
        (calls ▸ member) reaching
  · cases st : s.state with
    | helloRead | helloWrite | authRead | authWrite | requestRead =>
        exact absurd (congrArg SocksState.asked st) asking
    | requestResolv | requestConnecting =>
        simp only [st] at booked follows
        have unbooked :=
          booked.silent (silent_of_handled hosts (by simp [st]) handled)
        rw [st] at unbooked
        unfold Booked
        rw [stated]
        simp only [SocksState.successors, List.mem_cons, List.not_mem_nil,
          or_false] at follows
        rcases follows with rfl | rfl <;> exact unbooked
    | requestWrite =>
        simp only [st] at booked
        exact st ▸ booked_requestWrite booked exchanged st handled
    | copy =>
        simp only [st] at booked follows
        have record : after.s.accessRecord = s.accessRecord := by
          have kept := @copy_field _ Socks5.accessRecord _ _ _ _ _ _
            ⟨fun _ _ _ => rfl, fun _ _ _ => rfl, fun _ _ _ => rfl,
              fun _ _ => rfl⟩
            (st ▸ serves) ran
          exact handled.accessRecord.trans kept
        have settled :=
          booked.1.silent (silent_of_handled hosts (by simp [st]) handled)
          record
        rw [st] at settled
        unfold Booked
        rw [stated]
        simp only [SocksState.successors, List.mem_cons, List.not_mem_nil,
          or_false] at follows
        rcases follows with rfl | rfl
        · exact ⟨settled, (congrArg AccessRecord.status record).trans booked.2⟩
        · exact fun _ => .inl settled
    | done | errorState =>
        simp only [st] at follows
        simp [SocksState.successors] at follows

theorem booked_resolved {fd : Fd} {s next : Socks5} {t : List Observed}
    {metrics : Metrics} (booked : Booked fd s t) (state : next.state = s.state)
    (record : next.accessRecord = s.accessRecord) :
    Booked fd next (t ++ [⟨s.state, [], metrics, metrics⟩]) := by
  have silent : Observed.Silent ⟨s.state, [], metrics, metrics⟩ :=
    ⟨rfl, if_pos rfl, fun fd lost => by simp [replyLost_singleton] at lost⟩
  have reached : Reached (t ++ [⟨s.state, [], metrics, metrics⟩]) ↔
      Reached t := by
    simp [Reached]
  unfold Booked at booked ⊢
  rw [state]
  cases st : s.state <;> simp only [st] at booked silent reached ⊢
  case requestResolv | requestConnecting | requestWrite =>
    exact booked.silent silent
  case copy =>
    exact ⟨booked.1.silent silent record,
      (congrArg AccessRecord.status record).trans booked.2⟩
  case done | errorState =>
    intro asked
    rcases booked (reached.mp asked) with settled | ⟨records, lost⟩
    · exact .inl (settled.silent silent record)
    · refine .inr ⟨?_, replyLost_append.mpr (.inl lost)⟩
      rw [callsOf_append, callsOf_singleton, List.append_nil]
      exact records
  all_goals exact ⟨booked.1.silent silent, fun asked =>
    booked.2 (reached.mp asked)⟩

theorem booked_step {p : Ptr} {s next : Socks5} {t : List Observed}
    {o : Observed} (booked : Booked s.clientFd s t)
    (exchanged : Exchanged s (callsOf t)) (step : ObservedStep p s o next) :
    Booked s.clientFd next (t ++ [o]) := by
  cases step with
  | handled hosts runs =>
      obtain ⟨middle, next, handled⟩ := handled_of_handler runs
      exact booked_handled hosts booked exchanged handled
  | resolved answer metrics => exact booked_resolved booked rfl rfl

/-- The steps that were observed are the steps of the connection. -/
theorem ObservedStep.step {p : Ptr} {s next : Socks5} {o : Observed}
    (step : ObservedStep p s o next) : (connection p).step s o.calls next := by
  cases step with
  | handled hosts runs => exact .handled hosts runs
  | resolved answer metrics => exact .resolved answer

theorem jump_client (key : Key) (a : Answers) (next : SocksState) (c : Ctx) :
    ((jump key a next c).s.clientFd, (jump key a next c).s.clientAddr) =
      (c.s.clientFd, c.s.clientAddr) := by
  rw [jump_s]
  split
  · rfl
  · cases next <;> rfl

theorem client_step {p : Ptr} {s next : Socks5} {calls : List Call}
    (step : ConnectionStep p s calls next) :
    (next.clientFd, next.clientAddr) = (s.clientFd, s.clientAddr) := by
  cases step with
  | resolved answer => rfl
  | @handled kind fd a env after hosts runs =>
      obtain ⟨middle, next, handled⟩ := handled_of_handler runs
      obtain ⟨handler, serves, ran⟩ := handled.runs
      have kept : (middle.s.clientFd, middle.s.clientAddr) =
          (s.clientFd, s.clientAddr) := by
        by_cases copying : s.state = .copy
        · exact @copy_field _ (fun s => (s.clientFd, s.clientAddr)) _ _ _ _ _ _
            ⟨fun _ _ _ => rfl, fun _ _ _ => rfl, fun _ _ _ => rfl,
              fun _ _ => rfl⟩
            (copying ▸ serves) ran
        · exact @handshake_field _ (fun s => (s.clientFd, s.clientAddr))
            _ _ _ _ _ _ _
            ⟨fun _ _ _ _ _ => rfl, fun _ _ _ _ _ => rfl,
              fun _ _ _ _ _ _ _ _ _ _ => rfl⟩
            copying serves ran
      obtain ⟨references, object⟩ := handled.closes.object
      rw [object]
      exact (jump_client ⟨fd, p⟩ a next middle).trans kept

theorem failed_step {p : Ptr} {s next : Socks5} {o : Observed}
    (step : ObservedStep p s o next) : o.failures = 0 ∨
      o.after.failedConnections =
        (metricsConnectionFailed o.before).failedConnections := by
  cases step with
  | resolved answer metrics => exact .inl (if_pos rfl)
  | @handled kind fd a env after hosts runs =>
      obtain ⟨middle, next, handled⟩ := handled_of_handler runs
      by_cases writing : s.state = .requestWrite
      · obtain ⟨handler, serves, ran⟩ := handled.runs
        have failed : after.env.metrics.failedConnections =
            middle.env.metrics.failedConnections :=
              congrArg Prod.fst handled.tally
        rw [show (Ctx.s ⟨env, s, [], false⟩) = s from rfl, writing] at serves
        cases serves
        have effect :=
          requestWrite_effect ⟨fd, p⟩ a (Ctx.started ⟨env, s, [], false⟩)
        rw [eq_of_total ran] at effect
        generalize reached : (middle, next) = result at effect
        have object : middle = result.1 := congrArg Prod.fst reached
        rw [object] at failed
        cases effect with
        | again | failed | partly => exact .inl (if_pos failed)
        | flushed =>
            unfold replySent at failed
            dsimp only at failed
            split at failed
            · exact .inr failed
            · exact .inl (if_pos failed)
      · exact .inl (silent_of_handled hosts writing handled).failures

structure Tells (record : AccessRecord) (client : SockAddr) (r : SocksRequest)
    (reply : Reply) : Prop where
  origin : record.origin.octets = client.endpoint
  dest : record.dest.octets = r.endpoint
  status : record.status = reply.rep

/-- The account of a connection that was given up after it had reached for an
origin: one record of the request that it received and of the reply that it
sent, and one failure if the reply was a refusal. -/
structure Audited (first s : Socks5) (t : List Observed) : Prop where
  record : accessRecords (callsOf t) = [s.accessRecord]
  client : s.clientAddr = first.clientAddr
  tells : ∃ r reply rest relayed,
    Opened first.clientFd (callsOf t) (SocksRequest.encode r ++ rest)
      (Reply.encode reply ++ relayed) ∧
    r.cmd = cmdConnect ∧ Tells s.accessRecord first.clientAddr r reply
  failures : failures t = if s.reply = repSuccess then 0 else 1
  increments : ∀ o ∈ t, o.failures = 0 ∨
    o.after.failedConnections =
      (metricsConnectionFailed o.before).failedConnections

theorem Opened.join {fd : Fd} {t : List Call}
    {received sent others replies : List UInt8}
    (one : Opened fd t received sent) (two : Opened fd t others replies) :
    Opened fd t received replies := by
  obtain ⟨opening, greeting, valid, receives, sends⟩ := one
  obtain ⟨_, _, validOther, -, sendsOther⟩ := two
  obtain ⟨rfl, rfl⟩ :=
    valid.same_greeting validOther (sends.symm.trans sendsOther)
  exact ⟨opening, greeting, valid, receives, sends⟩

theorem Accounted.tells {fd : Fd} {s : Socks5} {t : List Observed}
    {client : SockAddr} (settled : Accounted fd s t)
    (bound : BoundFor s (callsOf t)) (clientFd : s.clientFd = fd)
    (clientAddr : s.clientAddr = client) :
    ∃ r reply rest relayed,
      Opened fd (callsOf t) (SocksRequest.encode r ++ rest)
        (Reply.encode reply ++ relayed) ∧
      r.cmd = cmdConnect ∧ Tells s.accessRecord client r reply := by
  obtain ⟨r, rest, sent, opened, connect, dest⟩ := bound
  obtain ⟨received, reply, relayed, replied, rep⟩ := settled.replied
  refine ⟨r, reply, rest, relayed, (clientFd ▸ opened).join replied,
    connect, ?_, dest, rep.symm⟩
  rw [← clientAddr]
  exact octets_sockaddrToHuman s.clientAddr

section Runs

variable {p : Ptr} {first s : Socks5} {t : List Observed}
  (accepted : Accepted first) (run : (observed p).Run first t s)

include run in
theorem connection_of_observed :
    ∃ labels, (connection p).Run first labels s ∧
      labels.flatten = callsOf t := by
  induction run with
  | nil => exact ⟨[], .nil _, rfl⟩
  | @snoc middle last t o before step induction =>
      obtain ⟨labels, run, same⟩ := induction
      refine ⟨labels ++ [o.calls], run.snoc step.step, ?_⟩
      rw [List.flatten_append, same, List.flatten_singleton, callsOf_append,
        callsOf_singleton]

include accepted run

theorem booked_of_run : Booked first.clientFd s t ∧
    (s.clientFd, s.clientAddr) = (first.clientFd, first.clientAddr) ∧
    ∀ o ∈ t, o.failures = 0 ∨
      o.after.failedConnections =
        (metricsConnectionFailed o.before).failedConnections := by
  induction run with
  | nil =>
      obtain ⟨config, clientFd, blocks, old, prepared, address, made, rfl⟩ :=
        accepted
      obtain ⟨rawRead, rawWrite, readBlock, writeBlock, rfl⟩ := prepare_eq made
      refine ⟨⟨⟨rfl, rfl, ?_⟩, ?_⟩, rfl, ?_⟩
      · simp [ReplyLost]
      · simp [Reached, callsOf]
      · simp
  | @snoc middle last t o before step induction =>
      obtain ⟨booked, client, increments⟩ := induction
      have same : middle.clientFd = first.clientFd := congrArg Prod.fst client
      obtain ⟨labels, run, calls⟩ := connection_of_observed before
      have exchanged := calls ▸ exchanged_of_run accepted run
      refine ⟨same ▸ booked_step (same ▸ booked) exchanged step,
        (client_step step.step).trans client, ?_⟩
      intro other member
      rcases List.mem_append.mp member with early | late
      · exact increments other early
      · rw [List.mem_singleton.mp late]
        exact failed_step step

/-- A connection that was given up has its one record and its count, unless a
send of its reply failed. -/
theorem audit_complete (closed : s.state.closing) (reached : Reached t) :
    Audited first s t ↔ ¬ ReplyLost first.clientFd t := by
  obtain ⟨booked, client, increments⟩ := booked_of_run accepted run
  have account : Accounted first.clientFd s t ∨
      accessRecords (callsOf t) = [] ∧ ReplyLost first.clientFd t := by
    unfold Booked at booked
    rcases closed with state | state
    · rw [state] at booked
      exact booked reached
    · rw [state] at booked
      exact booked reached
  constructor
  · intro audited lost
    rcases account with settled | ⟨records, -⟩
    · exact settled.kept lost
    · rw [audited.record] at records
      cases records
  · intro kept
    rcases account with settled | ⟨-, lost⟩
    · obtain ⟨labels, connected, calls⟩ := connection_of_observed run
      have aimed := aimed_of_run accepted connected
      have bound : BoundFor s (callsOf t) := by
        obtain ⟨made, member, reaching⟩ := reached
        rw [calls] at aimed
        unfold Aimed at aimed
        rcases closed with state | state <;> rw [state] at aimed <;>
          exact aimed.resolve_left fun unreached =>
          unreached made member reaching
      exact ⟨settled.records, congrArg Prod.snd client,
        settled.tells bound (congrArg Prod.fst client)
          (congrArg Prod.snd client),
        settled.failures, increments⟩
    · exact absurd lost kept

end Runs

def observe (p : Ptr) :
    Env → Socks5 → List Turn → Option (List Observed × Socks5)
  | _, s, [] => some ([], s)
  | env, s, turn :: rest =>
      if Hosts p env s then
        (socksv5Handler turn.kind ⟨turn.fd, p⟩ turn.answers
            ⟨env, s, [], false⟩).bind fun c =>
          (observe p c.env c.s rest).map fun (t, last) =>
            (⟨s.state, c.calls, env.metrics, c.env.metrics⟩ :: t, last)
      else none

theorem run_of_observe {p : Ptr} {env : Env} {s reached : Socks5}
    {turns : List Turn} {t : List Observed}
    (replayed : observe p env s turns = some (t, reached)) :
    (observed p).Run s t reached := by
  induction turns generalizing env s t with
  | nil =>
      cases replayed
      exact .nil reached
  | cons turn turns induction =>
      unfold observe at replayed
      split at replayed
      next hosts =>
        obtain ⟨c, runs, others⟩ := Option.bind_eq_some_iff.mp replayed
        obtain ⟨⟨rest, _⟩, remaining, same⟩ := Option.map_eq_some_iff.mp others
        cases same
        have step :
            (observed p).step s ⟨s.state, c.calls, env.metrics, c.env.metrics⟩
            c.s :=
          .handled hosts runs
        exact (System.Run.single step).append (induction remaining)
      next => cases replayed

private def auditTurns (connect : Errno) (reply : Answers) : List Turn :=
  [⟨.read, 5, .receiving [0x05, 0x01, 0x00]⟩, ⟨.write, 5, .accepting [2]⟩,
    ⟨.read, 5, { Answers.receiving [0x05, 0x01, 0x00, 0x01, 127, 0, 0, 1, 0, 80]
      with attempt := fun _ => ⟨0, true, connect⟩ }⟩, ⟨.write, 5, reply⟩]

private def auditRun (connect : Errno) (reply : Answers) :
    Option (List Observed × Socks5) :=
  observe 0 (soleEnv configInitDefaults usersInit 5 0)
    (freshConnection configInitDefaults 5) (auditTurns connect reply)

/-- A client that is connected to the origin and then resets its connection: it
leaves no record. -/
theorem audit_lost : ∃ t s,
    (observed 0).Run (freshConnection configInitDefaults 5) t s ∧
      s.state.closing ∧
      s.reply = repSuccess ∧
      Call.connect 0 ⟨.inet, [127, 0, 0, 1], 80⟩ 0 ∈ callsOf t ∧ Reached t ∧
      accessRecords (callsOf t) = [] ∧
      ¬ Audited (freshConnection configInitDefaults 5) s t := by
  have expected : (auditRun 0 { Answers.idle with sends := [.error 104] }).any
      (fun (t, s) => decide (s.state = .errorState ∧ s.reply = repSuccess ∧
        Call.connect 0 ⟨.inet, [127, 0, 0, 1], 80⟩ 0 ∈ callsOf t ∧
        accessRecords (callsOf t) = [])) = true := by
    decide +kernel
  obtain ⟨⟨t, s⟩, replayed, facts⟩ := (Option.any_eq_true ..).mp expected
  obtain ⟨failed, success, connected, records⟩ := of_decide_eq_true facts
  refine ⟨t, s, run_of_observe replayed, .inr failed, success, connected,
    ⟨_, connected, trivial⟩, records, ?_⟩
  intro audited
  rw [audited.record] at records
  cases records

/-- A connection that was refused is recorded, and counted as a failure. -/
theorem audit_complete_refused : ∃ t s, s.reply = repConnectionRefused ∧
    Audited (freshConnection configInitDefaults 5) s t := by
  have expected : (auditRun 111 (.accepting [10])).any
      (fun (t, s) => decide (s.state = .done ∧ s.reply = repConnectionRefused ∧
        Call.startConnection ∈ callsOf t ∧ callsOf t = [
          .recv 5 [0x05, 0x01, 0x00], .chooseMethod false 0,
          .send 5 [0x05, 0x00],
          .recv 5 [0x05, 0x01, 0x00, 0x01, 127, 0, 0, 1, 0, 80],
          .requestParserConsume, .startConnection,
          .connect 0 ⟨.inet, [127, 0, 0, 1], 80⟩ 111,
          .send 5 [0x05, 0x05, 0x00, 0x01, 0, 0, 0, 0, 0, 0],
          .loggerAccess s.accessRecord])) = true := by
    decide +kernel
  obtain ⟨⟨t, s⟩, replayed, facts⟩ := (Option.any_eq_true ..).mp expected
  obtain ⟨done, refused, started, calls⟩ := of_decide_eq_true facts
  have run := run_of_observe replayed
  refine ⟨t, s, refused, (audit_complete (accepted_fresh _ _) run (.inl done)
    ⟨_, started, trivial⟩).mpr ?_⟩
  rintro ⟨o, member, -, e, -, failed⟩
  have within :
      Call.sendFailed (freshConnection configInitDefaults 5).clientFd e ∈
      callsOf t := List.mem_flatMap.mpr ⟨o, member, failed⟩
  rw [calls] at within
  simp at within

end SocksProxy
