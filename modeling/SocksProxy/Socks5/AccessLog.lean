import SocksProxy.Logger
import SocksProxy.Socks5.Refusals
import SocksProxy.Socks5.Sniffing

/-! The access log of whole runs: whose strings its records are made of, and
when they cannot be forged. -/

namespace SocksProxy

open Delimited Transition

def LogRecord.call : LogRecord → Call
  | .access record => .loggerAccess record
  | .pop3 record => .loggerPop3 record

/-- The strings that the client put into a record: its names, and what was
sniffed. -/
def Socks5.put (s : Socks5) : LogRecord → List (List UInt8)
  | .access _ => [s.username.octets, s.destHost.octets]
  | .pop3 record =>
      [s.username.octets, s.destHost.octets, record.sniffUser.octets,
        record.sniffPass.octets]

inductive LoggedBy (record : LogRecord) (s : Socks5) : Prop
  | intro {p : Ptr} {first next : Socks5} {labels : List (List Call)}
      {calls : List Call} (accepted : Accepted first)
      (run : (connection p).Run first labels s)
      (step : ConnectionStep p s calls next) (made : record.call ∈ calls) :
      LoggedBy record s

theorem step_calls {p : Ptr} {s next : Socks5} {calls : List Call}
    (step : ConnectionStep p s calls next) :
    ∀ made ∈ calls, s.state.mayCall made := by
  cases step with
  | resolved answer => simp
  | handled hosts runs =>
      obtain ⟨middle, next, handled⟩ := handled_of_handler runs
      obtain ⟨handler, serves, ran⟩ := handled.runs
      obtain ⟨more, calls, valid⟩ := handler_makes serves ran
      rw [handled.closes.calls, jump_calls, calls]
      exact valid

theorem accessRecord_of_step {p : Ptr} {s next : Socks5} {calls : List Call}
    {record : AccessRecord} (step : ConnectionStep p s calls next)
    (made : .loggerAccess record ∈ calls) : record = s.accessRecord := by
  have allowed := step_calls step _ made
  cases step with
  | resolved answer => cases made
  | @handled kind fd a env after hosts runs =>
      obtain ⟨middle, next, handled⟩ := handled_of_handler runs
      obtain ⟨handler, serves, ran⟩ := handled.runs
      rw [handled.closes.calls, jump_calls] at made
      have writing : s.state = .requestWrite := by
        cases st : s.state <;> rw [st] at allowed <;>
          simp [SocksState.mayCall, Call.reads, Call.writes, Call.negotiates,
            Call.reaching, Call.relays] at allowed
      rw [show (Ctx.s ⟨env, s, [], false⟩).state = _ from writing] at serves
      cases serves
      have effect :=
        requestWrite_effect ⟨fd, p⟩ a (Ctx.started ⟨env, s, [], false⟩)
      rw [eq_of_total ran] at effect
      generalize reached : (middle, next) = result at effect
      have called := congrArg (fun result => result.1.calls) reached
      dsimp only at called
      cases effect with
      | again e => simp [called, Ctx.started] at made
      | failed e => simp [called, Ctx.started] at made
      | partly => simp [called, Ctx.started] at made
      | @flushed buffer =>
          have logged : middle.calls = [.send s.clientFd s.writeBuffer.content,
              .loggerAccess s.accessRecord] := by
            rw [called]
            unfold replySent
            dsimp only
            split <;> rfl
          simpa [logged] using made

/-- The record of sniffed credentials names what the sniffer found in the octets
that it was fed. -/
theorem pop3Record_of_step {p : Ptr} {s next : Socks5} {calls : List Call}
    {record : Pop3Record} (step : ConnectionStep p s calls next)
    (made : .loggerPop3 record ∈ calls) :
    ∃ found ∈ (pop3SnifferFeed s.pop3 (fedToSniffer calls)).2,
      record = s.pop3Record found := by
  have allowed := step_calls step _ made
  have copying : s.state = .copy := by
    cases st : s.state <;> rw [st] at allowed <;>
      simp [SocksState.mayCall, Call.reads, Call.writes, Call.negotiates,
        Call.reaching] at allowed
  have sniffs := sniffs_step copying step
  have reported : record ∈ pop3Reports calls :=
    List.mem_filterMap.mpr ⟨_, made, rfl⟩
  rw [sniffs.reports] at reported
  obtain ⟨found, member, same⟩ := List.mem_map.mp reported
  exact ⟨found, member, same.symm⟩

theorem plain_logUser (s : Socks5) :
    Plain (logUser s).octets ↔ Plain s.username.octets := by
  unfold logUser
  split
  next none =>
    rw [none]
    decide
  next => exact Iff.rfl

theorem plain_destString (s : Socks5) :
    Plain (destString s).octets ↔ Plain s.destHost.octets := by
  have colon : Plain (CString.ofString ":").octets := by decide
  have port := (graphic_ofNat s.destPort).plain
  change Plain ((s.destHost.octets ++ _) ++ _) ↔ _
  rw [plain_append, plain_append]
  exact ⟨fun plain => plain.1.1, fun plain => ⟨⟨plain, colon⟩, port⟩⟩

theorem LoggedBy.free_iff {record : LogRecord} {s : Socks5}
    (logged : LoggedBy record s) :
    record.Regular ∧ ((∀ field ∈ record.free, Plain field) ↔
      ∀ field ∈ s.put record, Plain field) := by
  obtain ⟨accepted, run, step, made⟩ := logged
  cases record with
  | access record =>
      obtain rfl := accessRecord_of_step step made
      have connect : Graphic "CONNECT" := by simp [Graphic]
      refine ⟨⟨connect.octets, graphic_sockaddrToHuman _⟩, ?_⟩
      simp only [LogRecord.free, Socks5.put, List.forall_mem_cons,
        Socks5.accessRecord, plain_logUser, plain_destString]
  | pop3 record =>
      obtain ⟨found, -, rfl⟩ := pop3Record_of_step step made
      refine ⟨graphic_sockaddrToHuman _, ?_⟩
      simp only [LogRecord.free, Socks5.put, List.forall_mem_cons,
        Socks5.pop3Record, plain_logUser, plain_destString]

structure LogCall where
  entry : Entry
  s : Socks5
  logged : LoggedBy entry.record s

/-- The log of any calls of any connections, in any order, is not forged exactly
when no client put a tab or a line feed into it. -/
theorem access_log_unforged (calls : List LogCall) :
    Unforged (calls.map LogCall.entry) ↔
      ∀ made ∈ calls, ∀ field ∈ made.s.put made.entry.record, Plain field := by
  rw [unforged_iff, List.forall_mem_map]
  · exact forall₂_congr fun made _ => made.logged.free_iff.2
  · rw [List.forall_mem_map]
    exact fun made _ => made.logged.free_iff.1

private def connectRequest (name : List UInt8) : List UInt8 :=
  [0x05, 0x01, 0x00, 0x03, 0x03] ++ name ++ [0, 80]

private def refusedLookup (name : List UInt8) : Option Picked :=
  replayAround 0 openEnv (freshConnection configInitDefaults 5)
    [⟨.read, 5, .receiving (helloMessage [methodNoAuth])⟩,
      ⟨.write, 5, .accepting [2]⟩, ⟨.read, 5, .receiving (connectRequest name)⟩]
    ⟨.write, 5, .accepting [10]⟩ []

/-- The name "a\nb" is logged on two lines. -/
theorem access_log_unforged_lineFeed :
    ∃ record s, LoggedBy (.access record) s ∧ s.destHost.octets = [97, 10, 98] ∧
      ∀ ts, ¬ Unforged [⟨ts, .access record⟩] := by
  have expected : (refusedLookup [97, 10, 98]).any (fun picked =>
      decide (picked.before.destHost.octets = [97, 10, 98]) &&
      picked.after.calls.any fun made =>
        decide (made = .loggerAccess picked.before.accessRecord)) = true := by
    decide +kernel
  obtain ⟨picked, replayed, facts⟩ := (Option.any_eq_true ..).mp expected
  obtain ⟨name, called⟩ := Bool.and_eq_true_iff.mp facts
  obtain ⟨made, member, same⟩ := List.any_eq_true.mp called
  obtain rfl := of_decide_eq_true same
  have host := of_decide_eq_true name
  obtain ⟨run, hosts, runs, -⟩ := picked_of_replay replayed
  refine ⟨_, picked.before, .intro (accepted_fresh _ _) run
    (.handled hosts runs) member, host, ?_⟩
  intro ts unforged
  have once := (unforged.oneLine _ (List.mem_singleton_self _)).once
  rw [Entry.line, LogRecord.line_eq, count_terminated, not_mem_join (by decide)]
    at once
  refine once _ (.tail _ (.tail _ (.tail _ (.head _)))) ?_
  simp [Socks5.accessRecord, destString, CString.append, host, lineFeed]

end SocksProxy
