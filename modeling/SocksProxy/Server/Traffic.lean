import Mathlib.Data.ZMod.Basic
import SocksProxy.Lib.Balance
import SocksProxy.Server.Effects
import SocksProxy.Socks5.Audit
import SocksProxy.Socks5.HalfClose

/-! The traffic counters: what they have counted is what was delivered and what
is pending, but for what a connection brings along to COPY, and for what it
drops when it leaves. -/

namespace SocksProxy

open Transition

/-- Octets that are on their way through a relaying connection. -/
def Socks5.pending (s : Socks5) (way : Way) : Nat :=
  if s.state = .copy then (s.stream way).pending.length else 0

def Metrics.counter (metrics : Metrics) : Way → Nat
  | .toOrigin => metrics.bytesSent
  | .toClient => metrics.bytesReceived

theorem Socks5.pending_elsewhere {s : Socks5} (elsewhere : s.state ≠ .copy)
    (way : Way) :
    s.pending way = 0 := if_neg elsewhere

theorem Carried.conveyed {before after : Socks5} {t : List Call}
    (carried : Carried before t after) (way : Way) :
    (before.stream way).pending.length +
      (receivedFrom (before.source way) t).length =
        (sentTo (before.dest way) t).length +
          (after.stream way).pending.length := by
  rw [← List.length_append, ← List.length_append]
  cases way with
  | toOrigin => exact congrArg List.length carried.toOrigin.balance
  | toClient => exact congrArg List.length carried.toClient.balance

/-- The counters of traffic modulo their size. -/
def Env.counted (env : Env) (way : Way) : ZMod (2 ^ 64) :=
  env.metrics.counter way

theorem counted_of_tally {before after : Env}
    (tally : after.metrics.tally = before.metrics.tally) (way : Way) :
    after.counted way = before.counted way := by
  simp only [Metrics.tally, Prod.mk.injEq] at tally
  cases way with
  | toOrigin => exact congrArg Nat.cast tally.2.1
  | toClient => exact congrArg Nat.cast tally.2.2

theorem replied_counted {self : SocksState} {c : Ctx}
    {result : Ctx × SocksState} (effect : WriteEffect self replySent c result)
    (way : Way) :
    result.1.env.counted way = c.env.counted way := by
  cases effect with
  | again | failed | partly => rfl
  | flushed =>
      unfold replySent
      dsimp only
      split <;> cases way <;> rfl

theorem replied_bounded {self : SocksState} {c : Ctx}
    {result : Ctx × SocksState} (effect : WriteEffect self replySent c result)
    (bounded : c.env.metrics.Bounded) : result.1.env.metrics.Bounded := by
  cases effect with
  | again | failed | partly => exact bounded
  | flushed =>
      unfold replySent
      dsimp only
      split <;> exact ⟨bounded.bytesSent, bounded.bytesReceived⟩

theorem handler_bounded {p : Ptr} {s : Socks5} {kind : EventKind} {fd : Fd}
    {a : Answers} {env : Env} {c : Ctx} (hosts : Hosts p env s)
    (runs : socksv5Handler kind ⟨fd, p⟩ a ⟨env, s, [], false⟩ = some c)
    (bounded : env.metrics.Bounded) : c.env.metrics.Bounded := by
  obtain ⟨middle, next, handled⟩ := handled_of_handler runs
  obtain ⟨handler, serves, ran⟩ := handled.runs
  refine Metrics.Bounded.of_tally ?_ handled.tally
  by_cases copying : s.state = .copy
  · obtain ⟨-, -, more, added, counted⟩ :=
      copy_meters (c := Ctx.started ⟨env, s, [], false⟩)
      hosts.apart (copying ▸ serves) ran
    exact counted.bounded bounded
  · by_cases pending : s.state = .requestWrite
    · have serves : Serves .requestWrite kind handler := pending ▸ serves
      cases serves with
      | requestWrite =>
          have effect :=
            requestWrite_effect ⟨fd, p⟩ a (Ctx.started ⟨env, s, [], false⟩)
          rw [eq_of_total ran] at effect
          exact replied_bounded effect bounded
    · exact bounded.of_tally (handshake_tally copying pending serves ran)

theorem handler_counted {p : Ptr} {s : Socks5} {kind : EventKind} {fd : Fd}
    {a : Answers} {env : Env} {c : Ctx} (hosts : Hosts p env s)
    (runs : socksv5Handler kind ⟨fd, p⟩ a ⟨env, s, [], false⟩ = some c)
    (way : Way) :
    c.env.counted way = env.counted way +
      (if s.state = .copy then (receivedFrom (s.source way) c.calls).length
        else 0 : Nat) := by
  obtain ⟨middle, next, handled⟩ := handled_of_handler runs
  obtain ⟨handler, serves, ran⟩ := handled.runs
  rw [counted_of_tally handled.tally]
  by_cases copying : s.state = .copy
  · obtain ⟨-, -, more, added, counted⟩ :=
      copy_meters (c := Ctx.started ⟨env, s, [], false⟩)
      hosts.apart (copying ▸ serves) ran
    have calls : c.calls = more :=
      (handled.closes.calls.trans (jump_calls ..)).trans added
    rw [if_pos copying, calls, Env.counted, Env.counted, ← Nat.cast_add,
      ZMod.natCast_eq_natCast_iff]
    cases way with
    | toOrigin => exact counted.sent
    | toClient => exact counted.received
  · rw [if_neg copying, Nat.cast_zero, add_zero]
    by_cases pending : s.state = .requestWrite
    · have serves : Serves .requestWrite kind handler := pending ▸ serves
      cases serves with
      | requestWrite =>
          have effect :=
            requestWrite_effect ⟨fd, p⟩ a (Ctx.started ⟨env, s, [], false⟩)
          rw [eq_of_total ran] at effect
          exact replied_counted effect way
    · exact counted_of_tally (handshake_tally copying pending serves ran) way

theorem unsent_of_writes {self : SocksState} {complete : Ctx → Ctx × SocksState}
    {c : Ctx} {result : Ctx × SocksState} {fd : Fd} (apart : fd ≠ c.s.clientFd)
    (completes : ∀ c, sentTo fd (complete c).1.calls = sentTo fd c.calls)
    (effect : WriteEffect self complete c result) :
    sentTo fd result.1.calls = sentTo fd c.calls := by
  have sent (octets : List UInt8) :
      sentTo fd (c.call (.send c.s.clientFd octets)).calls =
        sentTo fd c.calls := by
    simp [sentTo, Ctx.call, apart.symm]
  cases effect with
  | again | failed => simp [sentTo, Ctx.call]
  | partly => exact sent _
  | flushed => exact (completes _).trans (sent _)

theorem unsent_of_mayCall {st : SocksState} {c after : Ctx} {fd : Fd}
    (quiet : ∀ made : Call, st.mayCall made → ¬ made.writes)
    (makes : Makes st.mayCall c after) :
    sentTo fd after.calls = sentTo fd c.calls := by
  obtain ⟨more, added, may⟩ := makes
  have none : sentTo fd more = [] := by
    refine List.flatMap_eq_nil_iff.mpr fun made member => ?_
    cases made with
    | send => exact absurd trivial (quiet _ (may _ member))
    | _ => rfl
  rw [added, sentTo_append, none, List.append_nil]

theorem copies_or_writes (st : SocksState) :
    st = .copy ∨ st = .helloWrite ∨ st = .authWrite ∨ st = .requestWrite ∨
      ∀ made : Call, st.mayCall made → ¬ made.writes := by
  cases st with
  | copy | helloWrite | authWrite | requestWrite => simp
  | _ =>
      refine .inr (.inr (.inr (.inr fun made may => ?_)))
      cases made <;> simp [SocksState.mayCall, Call.reads, Call.negotiates,
        Call.reaching, Call.writes] at may ⊢

theorem handler_unsent {p : Ptr} {s : Socks5} {kind : EventKind} {fd other : Fd}
    {a : Answers} {env : Env} {c : Ctx} (elsewhere : s.state ≠ .copy)
    (apart : other ≠ s.clientFd)
    (runs : socksv5Handler kind ⟨fd, p⟩ a ⟨env, s, [], false⟩ = some c) :
    sentTo other c.calls = [] := by
  obtain ⟨middle, next, handled⟩ := handled_of_handler runs
  obtain ⟨handler, serves, ran⟩ := handled.runs
  rw [handled.closes.calls, jump_calls]
  change Serves s.state kind handler at serves
  suffices same : sentTo other middle.calls = sentTo other [] from same
  rcases copies_or_writes s.state with copying | hello | auth | request | quiet
  · exact absurd copying elsewhere
  · rw [hello] at serves
    cases serves with
    | helloWrite =>
        have effect :=
          helloWrite_effect ⟨fd, p⟩ a (Ctx.started ⟨env, s, [], false⟩)
        rw [eq_of_total ran] at effect
        refine unsent_of_writes apart (fun c => ?_) effect
        split
        · rfl
        · exact congrArg (sentTo _) (setInterestOrFail_calls ..)
  · rw [auth] at serves
    cases serves with
    | authWrite =>
        have effect :=
          authWrite_effect ⟨fd, p⟩ a (Ctx.started ⟨env, s, [], false⟩)
        rw [eq_of_total ran] at effect
        refine unsent_of_writes apart (fun c => ?_) effect
        split
        · rfl
        · exact congrArg (sentTo _) (setInterestOrFail_calls ..)
  · rw [request] at serves
    cases serves with
    | requestWrite =>
        have effect :=
          requestWrite_effect ⟨fd, p⟩ a (Ctx.started ⟨env, s, [], false⟩)
        rw [eq_of_total ran] at effect
        refine unsent_of_writes apart (fun c => ?_) effect
        unfold replySent
        dsimp only
        split <;> simp [sentTo, Ctx.call]
  · exact unsent_of_mayCall quiet (handler_makes serves ran)

namespace Server

namespace Called

variable (way : Way) (call : Called)

def received : Nat :=
  if call.before.state = .copy then
    (receivedFrom (call.before.source way) call.after.calls).length
  else 0

def delivered : Nat :=
  if call.before.state = .copy then
    (sentTo (call.before.dest way) call.after.calls).length
  else 0

/-- The octets that were in the buffer when the connection entered COPY. -/
def early : Nat :=
  if call.before.state = .copy then 0 else call.after.s.pending way

/-- The octets that were in the buffer when the connection left COPY. -/
def dropped : Nat :=
  if call.before.state = .copy ∧ call.after.s.state ≠ .copy then
    (call.after.s.stream way).pending.length
  else 0

end Called

theorem Called.balance {p : Ptr} {call : Called}
    (step : ConnectionStep p call.before call.after.calls call.after.s)
    (way : Way) :
    call.before.pending way + (call.received way + call.early way) =
      call.delivered way + call.dropped way + call.after.s.pending way := by
  unfold Called.received Called.early Called.delivered Called.dropped
  by_cases copying : call.before.state = .copy
  · have conveyed := (copy_step copying step).1.conveyed way
    unfold Socks5.pending
    rw [if_pos copying, if_pos copying, if_pos copying, if_pos copying]
    by_cases stays : call.after.s.state = .copy
    · rw [if_pos stays, if_neg fun leaves => leaves.2 stays]
      omega
    · rw [if_neg stays, if_pos ⟨copying, stays⟩]
      omega
  · rw [if_neg copying, if_neg copying, if_neg copying,
      if_neg fun leaves => copying leaves.1, Socks5.pending_elsewhere copying]
    omega

theorem Called.cut {p : Ptr} {call : Called} {way : Way}
    (step : ConnectionStep p call.before call.after.calls call.after.s)
    (drops : call.dropped way ≠ 0) :
    FailedHard call.before.clientFd call.after.calls ∨
      FailedHard call.before.originNumber call.after.calls := by
  unfold Called.dropped at drops
  split at drops
  next leaves =>
    rcases (copy_step leaves.1 step).2 with stays | ⟨-, completed | failed⟩
    · exact absurd stays leaves.2
    · refine absurd ?_ drops
      cases way with
      | toOrigin => exact congrArg List.length completed.toOrigin
      | toClient => exact congrArg List.length completed.toClient
    · exact failed
  next => exact absurd rfl drops

/-- The octets of the client behind its request that the connection brings along
to COPY. -/
def Called.leftover (call : Called) : Nat :=
  if call.before.state ≠ .copy ∧ call.after.s.state = .copy then
    call.before.readBuffer.content.length
  else 0

theorem Called.early_toOrigin {p : Ptr} {call : Called}
    (step : ConnectionStep p call.before call.after.calls call.after.s) :
    call.early .toOrigin = call.leftover := by
  unfold Called.early Called.leftover Socks5.pending
  by_cases copying : call.before.state = .copy
  · rw [if_pos copying, if_neg fun enters => enters.1 copying]
  · rw [if_neg copying]
    by_cases entered : call.after.s.state = .copy
    · obtain ⟨-, -, -, buffer⟩ := copy_entered copying step entered
      rw [if_pos entered, if_pos ⟨copying, entered⟩, ← buffer]
      rfl
    · rw [if_neg entered, if_neg fun enters => entered enters.2]

theorem Called.early_toClient {p : Ptr} {call : Called}
    (step : ConnectionStep p call.before call.after.calls call.after.s) :
    call.early .toClient = 0 := by
  unfold Called.early Socks5.pending
  split
  · rfl
  next elsewhere =>
    split
    next copying =>
      exact congrArg List.length (copy_entered elsewhere step copying).1
    next => rfl

/-- What is pending in all the connections that there are. -/
def pending (σ : Server) (way : Way) : Nat :=
  (σ.live.map fun p => (σ.heap p).elim 0 (·.pending way)).sum

def made (σ : Server) (event : Event) : List Called := (σ.calling event).toList

variable {σ τ : Server} {event : Event}

theorem Beside.pending (beside : Beside σ event τ) (sound : σ.Sound)
    (way : Way) :
    τ.pending way = σ.pending way := by
  have kept (p : Ptr) (alive : p ∈ σ.live) :
      (τ.heap p).elim 0 (·.pending way) =
        (σ.heap p).elim 0 (·.pending way) := by
    obtain ⟨s, object, -⟩ := sound.roster.wired p alive
    obtain ⟨dns, after⟩ := beside.kept p alive s object
    rw [after, object]
    cases way <;> rfl
  have before : (σ.live.map fun p => (τ.heap p).elim 0 (·.pending way)) =
      σ.live.map fun p => (σ.heap p).elim 0 (·.pending way) :=
    List.map_congr_left kept
  unfold Server.pending
  rcases beside.live with same | ⟨p, s, -, more, object, accepted⟩
  · rw [same, before]
  · have fresh : s.pending way = 0 := by
      apply Socks5.pending_elsewhere
      rw [accepted_helloRead accepted]
      exact SocksState.noConfusion
    rw [more, List.map_append, before, List.sum_append, List.map_singleton,
      object]
    simpa using fresh

theorem Returns.pending {p : Ptr} {s : Socks5} {c : Ctx}
    (returns : Returns σ τ p c) (others : ∀ q, q ≠ p → τ.heap q = σ.heap q)
    (sound : σ.Sound) (member : p ∈ σ.live) (object : σ.heap p = some s)
    (way : Way) :
    s.pending way + τ.pending way = c.s.pending way + σ.pending way := by
  have apart (q : Ptr) (other : q ≠ p) :
      (τ.heap q).elim 0 (·.pending way) =
        (σ.heap q).elim 0 (·.pending way) := by
    rw [others q other]
  have distinct := sound.roster.distinct
  unfold Server.pending
  cases returns with
  | remains wired kept live =>
      have replaced := sum_replace distinct member apart
      rw [object, kept] at replaced
      rw [live]
      exact replaced
  | ended closing free retires live =>
      have erased := sum_erase distinct member apart
      rw [object] at erased
      have closed : c.s.pending way = 0 := by
        apply Socks5.pending_elsewhere
        rintro copying
        rw [copying] at closing
        simp [SocksState.closing] at closing
      rw [live, closed, zero_add]
      exact erased

theorem made_beside (quiet : σ.calling event = none) : σ.made event = [] := by
  unfold made
  rw [quiet]
  rfl

theorem made_called {call : Called} (calling : σ.calling event = some call) :
    σ.made event = [call] := by
  unfold made
  rw [calling]
  rfl

theorem step_pending (sound : σ.Sound) (step : σ.step event = .next τ)
    (way : Way) :
    σ.pending way +
      ((σ.made event).map fun call => call.received way + call.early way).sum =
        ((σ.made event).map fun call =>
          call.delivered way + call.dropped way).sum +
          τ.pending way := by
  cases step_effect sound step with
  | beside quiet unhandled beside =>
      rw [made_beside quiet, beside.pending sound]
      exact Nat.add_comm ..
  | @called call kind fd a env calling asked calls member object due wired runs
      upkept returns others =>
      have balance :=
        Called.balance (.handled ⟨wired.held.client, wired.held.origin⟩ runs)
        way
      have moved := returns.pending others sound member object way
      rw [made_called calling, List.map_singleton, List.map_singleton,
        List.sum_singleton, List.sum_singleton]
      omega

theorem step_counted (sound : σ.Sound) (step : σ.step event = .next τ)
    (way : Way) :
    σ.env.counted way + ((σ.made event).map fun call =>
      (call.received way : ZMod (2 ^ 64))).sum =
        ((σ.made event).map fun _ => 0).sum + τ.env.counted way := by
  cases step_effect sound step with
  | beside quiet unhandled beside =>
      rw [made_beside quiet]
      have same : τ.env.counted way = σ.env.counted way := by
        cases way with
        | toOrigin => exact congrArg Nat.cast beside.sent
        | toClient => exact congrArg Nat.cast beside.received
      rw [same]
      exact add_comm ..
  | @called call kind fd a env calling asked calls member object due wired runs
      upkept returns others after =>
      have counted :=
        handler_counted ⟨wired.held.client, wired.held.origin⟩ runs way
      have base : env.counted way = σ.env.counted way := by
        cases calls <;> cases way <;> rfl
      rw [made_called calling, after, counted, base]
      simp [Called.received]

theorem bounded_of_reachable (reachable : server.Reachable σ) :
    σ.env.metrics.Bounded := by
  suffices kept : server.Reachable σ ∧ σ.env.metrics.Bounded from kept.2
  apply reachable.invariant
  · intro σ starts
    refine ⟨⟨σ, [], starts, .nil σ⟩, ?_⟩
    rw [(init_unused starts).metrics]
    exact ⟨metricsInit_fits.bytesSent, metricsInit_fits.bytesReceived⟩
  · rintro σ event τ ⟨reachable, bounded⟩ step
    refine ⟨reachable.step step, ?_⟩
    cases step_effect (sound_of_reachable reachable) step with
    | beside quiet unhandled beside =>
        exact ⟨beside.sent ▸ bounded.bytesSent,
          beside.received ▸ bounded.bytesReceived⟩
    | @called call kind fd a env calling asked calls member object due wired
        runs upkept returns others after =>
        have base : env.metrics = σ.env.metrics := by
          cases calls <;> rfl
        rw [after]
        refine handler_bounded ⟨wired.held.client, wired.held.origin⟩ runs ?_
        rw [base]
        exact bounded

structure Called.Regular (call : Called) : Prop where
  step : ConnectionStep call.p call.before call.after.calls call.after.s
  unsent : call.before.state ≠ .copy → ∀ fd ≠ call.before.clientFd,
    sentTo fd call.after.calls = []

theorem step_regular (sound : σ.Sound) (step : σ.step event = .next τ) :
    ∀ call ∈ σ.made event, call.Regular := by
  intro call member
  cases step_effect sound step with
  | beside quiet =>
      rw [made_beside quiet] at member
      cases member
  | @called other kind fd a env calling asked calls alive object due
        wired runs =>
      rw [made_called calling] at member
      obtain rfl := List.mem_singleton.mp member
      have hosts : Hosts call.p env call.before :=
        ⟨wired.held.client, wired.held.origin⟩
      exact ⟨.handled hosts runs, fun elsewhere fd apart =>
        handler_unsent elsewhere apart runs⟩

/-- The sum of an amount over the calls of a run. -/
def total (amount : Called → Nat) (calls : List Called) : Nat :=
  (calls.map amount).sum

theorem total_add (left right : Called → Nat) (calls : List Called) :
    (calls.map fun call => left call + right call).sum = total left calls +
      total right calls :=
  List.sum_map_add

theorem Unused.pending (unused : σ.Unused) (way : Way) : σ.pending way = 0 := by
  unfold Server.pending
  rw [unused.live]
  rfl

theorem Unused.counted (unused : σ.Unused) (way : Way) :
    σ.env.counted way = 0 := by
  have zero : σ.env.metrics.counter way = 0 := by
    rw [unused.metrics]
    cases way <;> rfl
  exact (congrArg Nat.cast zero).trans Nat.cast_zero

section Run

variable {first last : Server} {events : List Event} {calls : List Called}
  (starts : server.init first) (run : server.Shown made first events calls last)

include starts run

theorem octets_of_run (way : Way) :
    total (Called.received way) calls + total (Called.early way) calls =
      total (Called.delivered way) calls + last.pending way +
        total (Called.dropped way) calls := by
  have octets := run.balance (fun reachable step =>
    step_pending (sound_of_reachable reachable) step way) starts
  rw [(init_unused starts).pending, total_add, total_add] at octets
  omega

theorem counted_of_run (way : Way) :
    last.env.metrics.counter way ≡ total (Called.received way) calls
      [MOD 2 ^ 64] := by
  have counted := run.balance (fun reachable step =>
    step_counted (sound_of_reachable reachable) step way) starts
  rw [(init_unused starts).counted, List.map_const', List.sum_replicate,
    smul_zero, zero_add, zero_add] at counted
  refine (ZMod.natCast_eq_natCast_iff _ _ _).mp (counted.symm.trans ?_)
  unfold total
  rw [← Nat.coe_castAddMonoidHom, map_list_sum, List.map_map]
  rfl

theorem early_of_run :
    total (Called.early .toOrigin) calls = total Called.leftover calls ∧
      total (Called.early .toClient) calls = 0 := by
  have regular := run.each (fun reachable step =>
    step_regular (sound_of_reachable reachable) step) starts
  refine ⟨congrArg List.sum (List.map_congr_left fun call listed =>
    Called.early_toOrigin (regular call listed).step), ?_⟩
  refine List.sum_eq_zero fun amount member => ?_
  obtain ⟨call, listed, rfl⟩ := List.mem_map.mp member
  exact Called.early_toClient (regular call listed).step

theorem regular_of_run : ∀ call ∈ calls, call.Regular :=
  run.each (fun reachable step =>
    step_regular (sound_of_reachable reachable) step) starts

end Run

end Server

/-- The books of the traffic counters over every run of the server.  What
`bytes_sent` has counted, with what clients sent ahead of the relay, is what
origins accepted, what is pending and what was dropped; `bytes_received` counts
what clients accepted likewise.  Octets are dropped only where a send fails for
good, and outside COPY only the client is sent octets. -/
theorem traffic_accounted {first last : Server} {events : List Event}
    {calls : List Server.Called} (starts : server.init first)
    (run : server.Shown Server.made first events calls last) :
    last.env.metrics.bytesSent + Server.total (Server.Called.early .toOrigin)
      calls ≡
      Server.total (Server.Called.delivered .toOrigin) calls +
        last.pending .toOrigin +
        Server.total (Server.Called.dropped .toOrigin) calls [MOD 2 ^ 64] ∧
    last.env.metrics.bytesReceived ≡
      Server.total (Server.Called.delivered .toClient) calls +
        last.pending .toClient +
        Server.total (Server.Called.dropped .toClient) calls [MOD 2 ^ 64] ∧
    ∀ call ∈ calls,
      (call.before.state ≠ .copy → ∀ fd ≠ call.before.clientFd,
        sentTo fd call.after.calls = []) ∧
      ∀ way, call.dropped way ≠ 0 →
      FailedHard call.before.clientFd call.after.calls ∨
        FailedHard call.before.originNumber call.after.calls := by
  have regular := Server.regular_of_run starts run
  refine ⟨?_, ?_, fun call member => ⟨(regular call member).unsent, fun way =>
    Server.Called.cut (regular call member).step⟩⟩
  · rw [← Server.octets_of_run starts run]
    exact (Server.counted_of_run starts run .toOrigin).add_right _
  · rw [← Server.octets_of_run starts run,
      (Server.early_of_run starts run).2]
    exact Server.counted_of_run starts run .toClient

private def hastyTurns : List Server.Turn :=
  [.client 0 7, .readable 1 (.receiving [0x05, 0x01, 0x00]),
    .writable 1 (.accepting [2]),
    .readable 1
      { Answers.receiving [0x05, 0x01, 0x00, 0x01, 127, 0, 0, 1, 0,
      80, 104, 105] with attempt := fun _ => ⟨0, true, 0⟩ },
      .writable 1 (.accepting [10]),
    .readable 1
      { Answers.receiving [106, 107, 108] with
        sends := [.accept 1, .error eAgain] }]

theorem traffic_accounted_hasty :
    ∃ (σ : Server) (calls : List Server.Called),
      σ.env.metrics.bytesSent = 3 ∧ σ.pending .toOrigin = 4 ∧
      3 + Server.total (Server.Called.early .toOrigin) calls ≡
        Server.total (Server.Called.delivered .toOrigin) calls + 4 +
          Server.total (Server.Called.dropped .toOrigin) calls
            [MOD 2 ^ 64] := by
  have expected : ((Server.perform id Server.advance 30 hastyTurns
      (.opening configInitDefaults usersInit)).any fun σ =>
        decide (σ.env.metrics.bytesSent = 3 ∧ σ.pending .toOrigin = 4)) =
            true := by
    decide +kernel
  obtain ⟨σ, performs, facts⟩ := (Option.any_eq_true ..).mp expected
  obtain ⟨counted, pending⟩ := of_decide_eq_true facts
  obtain ⟨events, run⟩ := Server.run_of_perform Server.step_of_advance performs
  obtain ⟨calls, shown⟩ := run.shown Server.made
  have books := (traffic_accounted (Server.init_opening _ _) shown).1
  rw [counted, pending] at books
  exact ⟨σ, calls, counted, pending, books⟩

namespace Server

/-- The octets of the connections that were accepted where they should go, with
those that are pending and those that were dropped. -/
def carried (σ : Server) (way : Way) (calls : List Called) : Nat :=
  total (Called.delivered way) calls + σ.pending way +
    total (Called.dropped way) calls

end Server

/-- `bytes_sent` is what origins accepted, with what is pending and what was
dropped, exactly when no octets were brought along to COPY (up to its size);
`bytes_received` always is the same of the clients.  When all connections have
ended and dropped nothing, only what was accepted is left of it. -/
theorem traffic_counted {first last : Server} {events : List Event}
    {calls : List Server.Called} (starts : server.init first)
    (run : server.Shown Server.made first events calls last) :
    (last.env.metrics.bytesSent = last.carried .toOrigin calls % 2 ^ 64 ↔
      2 ^ 64 ∣ Server.total Server.Called.leftover calls) ∧
    last.env.metrics.bytesReceived = last.carried .toClient calls % 2 ^ 64 ∧
    (∀ call ∈ calls,
      (call.before.state ≠ .copy → ∀ fd ≠ call.before.clientFd,
        sentTo fd call.after.calls = []) ∧
      ∀ way, call.dropped way ≠ 0 →
      FailedHard call.before.clientFd call.after.calls ∨
        FailedHard call.before.originNumber call.after.calls) ∧
    (last.live = [] → (∀ call ∈ calls, ∀ way, call.dropped way = 0) →
      ∀ way, last.carried way calls =
        Server.total (Server.Called.delivered way) calls) := by
  have regular := Server.regular_of_run starts run
  have bounded := Server.bounded_of_reachable ⟨first, events, starts, run.run⟩
  obtain ⟨leftover, nothing⟩ := Server.early_of_run starts run
  have octets := Server.octets_of_run starts run
  have counted := Server.counted_of_run starts run
  refine ⟨?_, ?_, fun call member => ⟨(regular call member).unsent, fun way =>
    Server.Called.cut (regular call member).step⟩, fun ended kept way => ?_⟩
  · have small := Nat.mod_eq_of_lt bounded.bytesSent
    have received : last.env.metrics.bytesSent ≡
        Server.total (Server.Called.received .toOrigin) calls [MOD 2 ^ 64] :=
      counted .toOrigin
    have carried : last.carried .toOrigin calls =
        Server.total (Server.Called.received .toOrigin) calls +
          Server.total Server.Called.leftover calls := by
      rw [← leftover]
      exact (octets .toOrigin).symm
    rw [carried, ← small, ← Nat.left_modEq_add_iff]
    exact ⟨received.symm.trans, received.trans⟩
  · have carried : last.carried .toClient calls =
        Server.total (Server.Called.received .toClient) calls := by
      have balance := octets .toClient
      rw [nothing] at balance
      exact balance.symm
    rw [carried, ← Nat.mod_eq_of_lt bounded.bytesReceived]
    exact counted .toClient
  · have pending : last.pending way = 0 := by
      unfold Server.pending
      rw [ended]
      rfl
    have dropped : Server.total (Server.Called.dropped way) calls = 0 := by
      refine List.sum_eq_zero fun amount member => ?_
      obtain ⟨call, listed, rfl⟩ := List.mem_map.mp member
      exact kept call listed way
    rw [Server.carried, pending, dropped]
    rfl

namespace Server

/-- The server with the calls that it has made. -/
structure Books where
  server : Server
  calls : List Called

def Books.enter (books : Books) (event : Event) : Option Books :=
  (books.server.advance event).map fun τ =>
    ⟨τ, books.calls ++ made books.server event⟩

def bookkeeping : System Books Event where
  init books := server.init books.server
  step books event entered := books.enter event = some entered

theorem step_of_enter {books entered : Books} {event : Event}
    (enters : books.enter event = some entered) :
    bookkeeping.step books event entered := enters

theorem shown_of_books {first last : Books} {events : List Event}
    (empty : first.calls = []) (run : bookkeeping.Run first events last) :
    server.Shown made first.server events last.calls last.server := by
  induction run with
  | nil =>
      rw [empty]
      exact .nil _
  | snoc before step induction =>
      obtain ⟨τ, advances, rfl⟩ := Option.map_eq_some_iff.mp step
      exact induction.snoc (step_of_advance advances)

private def promptTurns : List Turn :=
  [.client 0 7, .readable 1 (.receiving [0x05, 0x01, 0x00]),
    .writable 1 (.accepting [2]),
    .readable 1
      { Answers.receiving [0x05, 0x01, 0x00, 0x01, 127, 0, 0, 1, 0, 80] with
        attempt := fun _ => ⟨0, true, 0⟩ },
    .writable 1 (.accepting [10]),
    .readable 1
      { Answers.receiving [106, 107, 108] with
        sends := [.accept 1, .error eAgain] }]

end Server

theorem traffic_counted_prompt :
    ∃ books : Server.Books,
      books.server.env.metrics.bytesSent = 3 ∧
      Server.total (Server.Called.delivered .toOrigin) books.calls = 1 ∧
      books.server.pending .toOrigin = 2 ∧
      books.server.env.metrics.bytesSent =
        books.server.carried .toOrigin books.calls % 2 ^ 64 := by
  have expected : ((Server.perform Server.Books.server Server.Books.enter 30
      Server.promptTurns ⟨.opening configInitDefaults usersInit, []⟩).any
        fun books => decide (books.server.env.metrics.bytesSent = 3 ∧
          Server.total (Server.Called.delivered .toOrigin) books.calls = 1 ∧
          books.server.pending .toOrigin = 2 ∧
          Server.total Server.Called.leftover books.calls = 0)) = true := by
    decide +kernel
  obtain ⟨books, performs, facts⟩ := (Option.any_eq_true ..).mp expected
  obtain ⟨counted, delivered, pending, none⟩ := of_decide_eq_true facts
  obtain ⟨events, run⟩ := Server.run_of_perform Server.step_of_enter performs
  have accounts := traffic_counted (Server.init_opening _ _)
    (Server.shown_of_books rfl run)
  refine ⟨books, counted, delivered, pending, accounts.1.mpr ?_⟩
  rw [none]
  exact Nat.dvd_zero _

/-- Octets that came with the request are delivered but never counted. -/
theorem traffic_uncounted :
    ∃ (books : Server.Books) (first : Server) (events : List Event),
      server.init first ∧
      server.Shown Server.made first events books.calls books.server ∧
      books.server.env.metrics.bytesSent = 3 ∧
      Server.total (Server.Called.delivered .toOrigin) books.calls = 1 ∧
      books.server.pending .toOrigin = 4 ∧
      Server.total (Server.Called.dropped .toOrigin) books.calls = 0 ∧
      books.server.env.metrics.bytesSent ≠
        books.server.carried .toOrigin books.calls % 2 ^ 64 := by
  have expected : ((Server.perform Server.Books.server Server.Books.enter 30
      hastyTurns ⟨.opening configInitDefaults usersInit, []⟩).any
        fun books => decide (books.server.env.metrics.bytesSent = 3 ∧
          Server.total (Server.Called.delivered .toOrigin) books.calls = 1 ∧
          books.server.pending .toOrigin = 4 ∧
          Server.total (Server.Called.dropped .toOrigin) books.calls = 0 ∧
          books.server.env.metrics.bytesSent ≠
            books.server.carried .toOrigin books.calls % 2 ^ 64)) = true := by
    decide +kernel
  obtain ⟨books, performs, facts⟩ := (Option.any_eq_true ..).mp expected
  obtain ⟨counted, delivered, pending, dropped, uneven⟩ :=
    of_decide_eq_true facts
  obtain ⟨events, run⟩ := Server.run_of_perform Server.step_of_enter performs
  exact ⟨books, _, events, Server.init_opening _ _,
    Server.shown_of_books rfl run, counted, delivered, pending, dropped, uneven⟩

end SocksProxy
