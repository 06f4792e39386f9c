import SocksProxy.Lib.HalfClose
import SocksProxy.Socks5.Interests

/-! The two directions of COPY as streams that end with a half-close. -/

namespace SocksProxy

open Transition

namespace Call

def event (source dest : Fd) : Call → Option (HalfClose.Event UInt8)
  | .recv fd octets =>
      if fd = source then
        if octets = [] then some .finish else some (.receive octets)
      else none
  | .recvFailed fd e =>
      if fd = source ∧ wouldBlock e = false then some .finish else none
  | .send fd accepted => if fd = dest then some (.deliver accepted) else none
  | .sendFailed fd _ => if fd = dest then some .attempt else none
  | .shutdown fd => if fd = dest then some .close else none
  | _ => none

theorem inflow_event (source dest : Fd) (made : Call) :
    (made.event source dest).toList.flatMap HalfClose.Event.inflow =
      made.receivedFrom source := by
  cases made with
  | recv fd octets =>
      by_cases here : fd = source
      · by_cases nothing : octets = []
        · simp [event, here, nothing, HalfClose.Event.inflow]
        · simp [event, here, nothing, HalfClose.Event.inflow]
      · simp [event, here]
  | recvFailed | send | sendFailed | shutdown =>
      rw [event]
      split <;> rfl
  | _ => rfl

theorem outflow_event (source dest : Fd) (made : Call) :
    (made.event source dest).toList.flatMap HalfClose.Event.outflow =
      made.sentTo dest := by
  cases made with
  | recv fd octets =>
      rw [event]
      split
      · split <;> rfl
      · rfl
  | send fd accepted =>
      by_cases here : fd = dest
      · simp [event, here, HalfClose.Event.outflow]
      · simp [event, here]
  | recvFailed | sendFailed | shutdown =>
      rw [event]
      split <;> rfl
  | _ => rfl

theorem finish_event {source dest : Fd} {made : Call} :
    made.event source dest = some .finish ↔
      made = .recv source [] ∨ ∃ e, wouldBlock e = false ∧
      made = .recvFailed source e := by
  cases made with
  | recv fd octets =>
      by_cases nothing : octets = []
      · simp [event, nothing]
      · simp [event, nothing]
  | recvFailed fd e =>
      simp only [event, Option.ite_none_right_eq_some, and_true, reduceCtorEq,
        false_or, recvFailed.injEq]
      constructor
      · exact fun ⟨here, hard⟩ => ⟨e, hard, here, rfl⟩
      · exact fun ⟨_, hard, here, same⟩ => ⟨here, same ▸ hard⟩
  | _ => simp [event]

theorem close_event {source dest : Fd} {made : Call} :
    made.event source dest = some .close ↔ made = .shutdown dest := by
  cases made with
  | recv fd octets =>
      rw [event]
      split
      · split <;> simp
      · simp
  | _ => simp [event]

end Call

def events (source dest : Fd) (calls : List Call) :
    List (HalfClose.Event UInt8) :=
  calls.filterMap (Call.event source dest)

section Events

variable (source dest : Fd) (calls : List Call)

@[simp] theorem events_append (left right : List Call) :
    events source dest (left ++ right) = events source dest left ++
      events source dest right :=
  List.filterMap_append

theorem inflow_events :
    (events source dest calls).flatMap HalfClose.Event.inflow =
      receivedFrom source calls := by
  rw [events, List.filterMap_eq_flatMap_toList, List.flatMap_assoc]
  exact List.flatMap_congr fun made _ => Call.inflow_event source dest made

theorem outflow_events :
    (events source dest calls).flatMap HalfClose.Event.outflow =
      sentTo dest calls := by
  rw [events, List.filterMap_eq_flatMap_toList, List.flatMap_assoc]
  exact List.flatMap_congr fun made _ => Call.outflow_event source dest made

variable {source dest calls}

theorem finish_mem_events :
    .finish ∈ events source dest calls ↔ Ended source calls := by
  rw [events, List.mem_filterMap]
  constructor
  · rintro ⟨made, member, finishes⟩
    rcases Call.finish_event.mp finishes with rfl | ⟨e, hard, rfl⟩
    · exact .inl member
    · exact .inr ⟨e, hard, member⟩
  · rintro (closed | ⟨e, hard, failed⟩)
    · exact ⟨_, closed, Call.finish_event.mpr (.inl rfl)⟩
    · exact ⟨_, failed, Call.finish_event.mpr (.inr ⟨e, hard, rfl⟩)⟩

theorem close_mem_events :
    .close ∈ events source dest calls ↔ .shutdown dest ∈ calls := by
  rw [events, List.mem_filterMap]
  constructor
  · rintro ⟨made, member, closes⟩
    exact Call.close_event.mp closes ▸ member
  · intro member
    exact ⟨_, member, Call.close_event.mpr rfl⟩

theorem events_none (quiet : ∀ made ∈ calls, made.event source dest = none) :
    events source dest calls = [] := List.filterMap_eq_nil_iff.mpr quiet

theorem still_of_events {s : HalfClose.Stream UInt8}
    (quiet : events source dest calls = []) :
    (HalfClose.stream UInt8).Run s (events source dest calls) s := by
  rw [quiet]
  exact .nil s

theorem event_none (quiet : events source dest calls = []) {made : Call}
    (member : made ∈ calls) : made.event source dest = none :=
  List.filterMap_eq_nil_iff.mp quiet made member

end Events

inductive Way
  | toOrigin
  | toClient

namespace Way

def other : Way → Way
  | toOrigin => toClient
  | toClient => toOrigin

end Way

namespace Socks5

variable (s : Socks5)

def source : Way → Fd
  | .toOrigin => s.clientFd
  | .toClient => s.originNumber

def dest : Way → Fd
  | .toOrigin => s.originNumber
  | .toClient => s.clientFd

/-- A direction of COPY as the flags and the buffer of the connection have
it. -/
def stream : Way → HalfClose.Stream UInt8
  | .toOrigin => ⟨s.readBuffer.content, s.clientEof, s.originWrShut⟩
  | .toClient => ⟨s.writeBuffer.content, s.originEof, s.clientWrShut⟩

theorem source_other (way : Way) : s.source way.other = s.dest way := by
  cases way <;> rfl

theorem dest_other (way : Way) : s.dest way.other = s.source way := by
  cases way <;> rfl

variable {s}

theorem source_ne_dest (apart : s.originNumber ≠ s.clientFd) (way : Way) :
    s.source way ≠ s.dest way := by
  cases way with
  | toOrigin => exact apart.symm
  | toClient => exact apart

end Socks5

structure Streamed (before : Socks5) (t : List Call) (after : Socks5) :
    Prop where
  clientFd : after.clientFd = before.clientFd
  originFd : after.originFd = before.originFd
  runs : ∀ way, (HalfClose.stream UInt8).Run (before.stream way)
    (events (before.source way) (before.dest way) t) (after.stream way)

namespace Streamed

variable {before middle after : Socks5} {t left right : List Call}

theorem refl (s : Socks5) : Streamed s [] s := ⟨rfl, rfl, fun _ => .nil _⟩

theorem source (streamed : Streamed before t after) (way : Way) :
    after.source way = before.source way := by
  cases way with
  | toOrigin => exact streamed.clientFd
  | toClient => exact congrArg (Option.getD · itemsMaxSize) streamed.originFd

theorem dest (streamed : Streamed before t after) (way : Way) :
    after.dest way = before.dest way := by
  rw [← Socks5.source_other, ← Socks5.source_other, streamed.source]

theorem trans (first : Streamed before left middle)
    (second : Streamed middle right after) :
    Streamed before (left ++ right) after := by
  refine ⟨second.clientFd.trans first.clientFd,
    second.originFd.trans first.originFd, ?_⟩
  intro way
  have later := second.runs way
  rw [first.source, first.dest] at later
  rw [events_append]
  exact (first.runs way).append later

end Streamed

def Flows (before after : Ctx) : Prop :=
  ∃ more, after.calls = before.calls ++ more ∧ Streamed before.s more after.s

namespace Flows

variable {before middle after : Ctx}

theorem trans (first : Flows before middle) (second : Flows middle after) :
    Flows before after := by
  obtain ⟨earlier, begun, early⟩ := first
  obtain ⟨later, ended, late⟩ := second
  refine ⟨earlier ++ later, ?_, early.trans late⟩
  rw [ended, begun, List.append_assoc]

theorem quiet {more : List Call} (calls : after.calls = before.calls ++ more)
    (still : ∀ made ∈ more, ∀ source dest, made.event source dest = none)
    (clientFd : after.s.clientFd = before.s.clientFd)
    (originFd : after.s.originFd = before.s.originFd)
    (streams : ∀ way, after.s.stream way = before.s.stream way) :
    Flows before after := by
  refine ⟨more, calls, clientFd, originFd, fun way => ?_⟩
  rw [streams]
  exact still_of_events (events_none fun made member => still made member _ _)

theorem single {made : Call} {event : HalfClose.Event UInt8} (way : Way)
    (calls : after.calls = before.calls ++ [made])
    (here : made.event (before.s.source way) (before.s.dest way) = some event)
    (there : made.event (before.s.dest way) (before.s.source way) = none)
    (clientFd : after.s.clientFd = before.s.clientFd)
    (originFd : after.s.originFd = before.s.originFd)
    (step : HalfClose.Step (before.s.stream way) event (after.s.stream way))
    (same : after.s.stream way.other = before.s.stream way.other) :
    Flows before after := by
  have moved : (HalfClose.stream UInt8).Run (before.s.stream way)
      (events (before.s.source way) (before.s.dest way) [made])
      (after.s.stream way) := by
    rw [events, List.filterMap_cons_some here]
    exact .single step
  have still : (HalfClose.stream UInt8).Run (before.s.stream way.other)
      (events (before.s.source way.other) (before.s.dest way.other) [made])
      (after.s.stream way.other) := by
    rw [same, Socks5.source_other, Socks5.dest_other, events,
      List.filterMap_cons_none there]
    exact .nil _
  refine ⟨[made], calls, clientFd, originFd, fun which => ?_⟩
  cases way <;> cases which
  · exact moved
  · exact still
  · exact still
  · exact moved

end Flows

structure Streaming (s : Socks5) : Prop where
  apart : s.originNumber ≠ s.clientFd
  settled : ∀ way, HalfClose.Settled (s.stream way)

theorem Streaming.moved {before after : Socks5} {t : List Call}
    (streaming : Streaming before) (streamed : Streamed before t after) :
    Streaming after := by
  refine ⟨?_, fun way =>
    HalfClose.settled_of_run (streamed.runs way) (streaming.settled way)⟩
  have origin := streamed.source .toClient
  have client := streamed.source .toOrigin
  change after.originNumber = before.originNumber at origin
  change after.clientFd = before.clientFd at client
  rw [origin, client]
  exact streaming.apart

theorem Streaming.flows {before after : Ctx} (streaming : Streaming before.s)
    (flows : Flows before after) : Streaming after.s := by
  obtain ⟨_, _, streamed⟩ := flows
  exact streaming.moved streamed

/-- Pumping delivers the beginning of what is pending, and may end with a failed
attempt. -/
theorem run_copyPump (source dst : Fd) (sends : List SendAnswer) (b : Buffer)
    (finished closed : Bool) (drained : closed = true → b.content = []) :
    (HalfClose.stream UInt8).Run ⟨b.content, finished, closed⟩
      (events source dst (copyPump dst sends b).2.1)
      ⟨(copyPump dst sends b).1.content, finished, closed⟩ := by
  have going (readable : bufferCanRead b = true) : closed = false := by
    have pending := (Buffer.canRead_iff b).mp readable
    exact Bool.eq_false_iff.mpr fun ended => pending (drained ended)
  have here (made : Call) (event : HalfClose.Event UInt8)
      (moves : made.event source dst = some event) :
      events source dst [made] = [event] := by
    rw [events, List.filterMap_cons_some moves]
    rfl
  have attempted (e : Errno) : events source dst [.sendFailed dst e] =
      [.attempt] :=
    here _ _ (if_pos rfl)
  induction sends generalizing b with
  | nil =>
      unfold copyPump
      split
      next readable =>
        rw [attempted]
        exact .single (.attempt (going readable))
      next => exact .nil _
  | cons answer sends induction =>
      cases answer with
      | error e =>
          unfold copyPump
          split
          next readable =>
            rw [attempted]
            exact .single (.attempt (going readable))
          next => exact .nil _
      | accept count =>
          unfold copyPump
          dsimp only
          split
          next readable =>
            have delivers : HalfClose.Step ⟨b.content, finished, closed⟩
                (.deliver (b.content.take count))
                ⟨b.content.drop count, finished, closed⟩ :=
              .deliver (going readable)
              (List.take_append_drop count b.content).symm
            have sent : events source dst [.send dst (b.content.take count)] =
                [.deliver (b.content.take count)] := here _ _ (if_pos rfl)
            split
            next accepted =>
              have fits := List.length_take_le' count b.content
              have rest :
                  (bufferReadAdv b (b.content.take count).length).content =
                    b.content.drop count := by
                rw [Buffer.content_readAdv fits, List.length_take,
                  ← List.drop_eq_drop_min]
              have later :=
                induction (bufferReadAdv b (b.content.take count).length)
                (fun ended => absurd ended (by simp [going readable]))
                (fun _ => going readable)
              rw [rest] at later
              rw [← List.singleton_append, events_append, sent]
              exact (Transition.System.Run.single delivers).append later
            next nothing =>
              have none : b.content.take count = [] :=
                List.length_eq_zero_iff.mp (Nat.eq_zero_of_not_pos nothing)
              rw [sent, none]
              exact .single (.deliver (going readable) rfl)
          next => exact .nil _

theorem copyPump_aside {dst other : Fd} (source : Fd) (apart : dst ≠ other)
    (sends : List SendAnswer) (b : Buffer) :
    events source other (copyPump dst sends b).2.1 = [] := by
  apply events_none
  intro made member
  rcases copyPump_only dst sends b made member with ⟨octets, rfl⟩ | ⟨e, rfl⟩
  · exact if_neg apart
  · exact if_neg apart

/-- A hard error leaves octets behind. -/
theorem copyPump_stuck {dst : Fd} {sends : List SendAnswer} {b : Buffer}
    (hard : (copyPump dst sends b).2.2 = true) :
    (copyPump dst sends b).1.content ≠ [] := by
  induction sends generalizing b with
  | nil =>
      unfold copyPump at hard
      split at hard <;> cases hard
  | cons answer sends induction =>
      cases answer with
      | error e =>
          unfold copyPump at hard ⊢
          split at hard
          next readable =>
            rw [if_pos readable]
            exact (Buffer.canRead_iff b).mp readable
          next => cases hard
      | accept count =>
          unfold copyPump at hard ⊢
          dsimp only at hard ⊢
          split at hard
          next readable =>
            rw [if_pos readable]
            split at hard
            next some =>
              rw [if_pos some]
              exact induction hard
            next nothing =>
              rw [if_neg nothing]
              exact (Buffer.canRead_iff b).mp readable
          next => cases hard

structure Paced (before after : Ctx) : Prop where
  flows : Flows before after
  prompt : (∀ way, HalfClose.Prompt (before.s.stream way)) →
    ∀ way, HalfClose.Prompt (after.s.stream way)

section Updating

variable {c : Ctx} (streaming : Streaming c.s)

include streaming

theorem flows_shutOriginWrite : Flows c (shutOriginWrite c) := by
  unfold shutOriginWrite
  split
  next ended =>
    simp only [Bool.and_eq_true, Bool.not_eq_true', Buffer.canRead_eq_false_iff]
      at ended
    exact .single .toOrigin rfl (if_pos rfl) (if_neg streaming.apart) rfl rfl
      (.close ended.1.1 ended.1.2 ended.2) rfl
  next => exact ⟨[], (List.append_nil _).symm, .refl _⟩

theorem flows_shutClientWrite : Flows c (shutClientWrite c) := by
  unfold shutClientWrite
  split
  next ended =>
    simp only [Bool.and_eq_true, Bool.not_eq_true', Buffer.canRead_eq_false_iff]
      at ended
    exact .single .toClient rfl (if_pos rfl) (if_neg streaming.apart.symm) rfl
      rfl (.close ended.1.1 ended.1.2 ended.2) rfl
  next => exact ⟨[], (List.append_nil _).symm, .refl _⟩

theorem flows_copyUpdate : Flows c (copyUpdate c).1 := by
  have origin := flows_shutOriginWrite streaming
  have shut := origin.trans (flows_shutClientWrite (streaming.flows origin))
  unfold copyUpdate
  dsimp only
  split
  · exact shut
  · refine shut.trans ⟨[], ?_, ?_⟩
    · rw [copyComputeInterests_calls, List.append_nil]
    · rw [copyComputeInterests_s]
      exact .refl _

end Updating

/-- After an update every direction that is over has been closed. -/
theorem prompt_copyUpdate (c : Ctx) (way : Way) :
    HalfClose.Prompt ((copyUpdate c).1.s.stream way) := by
  have object :
      (copyUpdate c).1.s = (shutClientWrite (shutOriginWrite c)).s := by
    unfold copyUpdate
    dsimp only
    split
    · rfl
    · exact copyComputeInterests_s _
  have closes {ended readable shut : Bool} {content : List UInt8}
      (empty : readable = false ↔ content = [])
      (kept : ¬ (ended && !readable && !shut) = true) :
      HalfClose.Prompt (⟨content, ended, shut⟩ : HalfClose.Stream UInt8) := by
    intro finished drained
    change ended = true at finished
    simpa [finished, empty.mpr drained] using kept
  have origin : HalfClose.Prompt ((shutOriginWrite c).s.stream .toOrigin) := by
    unfold shutOriginWrite
    split
    next => exact fun _ _ => rfl
    next kept => exact closes (Buffer.canRead_eq_false_iff _) kept
  rw [object]
  cases way with
  | toOrigin =>
      unfold shutClientWrite
      split
      · exact origin
      · exact origin
  | toClient =>
      unfold shutClientWrite
      split
      next => exact fun _ _ => rfl
      next kept => exact closes (Buffer.canRead_eq_false_iff _) kept

theorem paced_copyUpdate {c middle : Ctx} (streaming : Streaming c.s)
    (flows : Flows c middle) : Paced c (copyUpdate middle).1 :=
  ⟨flows.trans (flows_copyUpdate (streaming.flows flows)), fun _ =>
    prompt_copyUpdate middle⟩

structure Pumps (way : Way) (pump : Ctx → Ctx × Bool) : Prop where
  flows : ∀ c, Streaming c.s → Flows c (pump c).1
  aside : ∀ c, (pump c).1.s.stream way.other = c.s.stream way.other
  stuck : ∀ c, (pump c).2 = true → ((pump c).1.s.stream way).pending ≠ []

theorem pumps_toOrigin (a : Answers) : Pumps .toOrigin (pumpToOrigin a) := by
  refine ⟨fun c streaming => ⟨_, rfl, rfl, rfl, fun way => ?_⟩,
    fun _ => rfl, ?_⟩
  · cases way with
    | toOrigin =>
        exact run_copyPump _ _ a.sends c.s.readBuffer _ _
          fun closed => (streaming.settled .toOrigin closed).2
    | toClient =>
        exact still_of_events
          (copyPump_aside _ streaming.apart a.sends c.s.readBuffer)
  · exact fun _ hard => copyPump_stuck hard

theorem pumps_toClient (a : Answers) : Pumps .toClient (pumpToClient a) := by
  refine ⟨fun c streaming => ⟨_, rfl, rfl, rfl, fun way => ?_⟩,
    fun _ => rfl, ?_⟩
  · cases way with
    | toOrigin =>
        exact still_of_events
          (copyPump_aside _ streaming.apart.symm a.sends c.s.writeBuffer)
    | toClient =>
        exact run_copyPump _ _ a.sends c.s.writeBuffer _ _
          fun closed => (streaming.settled .toClient closed).2
  · exact fun _ hard => copyPump_stuck hard

theorem paced_pumpThenUpdate {way : Way} {pump : Ctx → Ctx × Bool}
    {c middle : Ctx} (pumps : Pumps way pump) (streaming : Streaming c.s)
    (flows : Flows c middle)
    (aside : middle.s.stream way.other = c.s.stream way.other) :
    Paced c (pumpThenUpdate (pump middle)).1 := by
  have pumped := flows.trans (pumps.flows middle (streaming.flows flows))
  unfold pumpThenUpdate
  split
  next hard =>
    refine ⟨pumped, fun prompt which => ?_⟩
    have here : HalfClose.Prompt ((pump middle).1.s.stream way) :=
      fun _ drained => absurd drained (pumps.stuck middle hard)
    have there : HalfClose.Prompt ((pump middle).1.s.stream way.other) := by
      rw [pumps.aside, aside]
      exact prompt way.other
    cases way <;> cases which
    · exact here
    · exact there
    · exact there
    · exact here
  next => exact paced_copyUpdate streaming pumped

theorem relayEffect_paced {way : Way} {buffer : Buffer} {ended : Ctx → Ctx}
    {store : Ctx → List UInt8 → Ctx} {pump : Ctx → Ctx × Bool} {c : Ctx}
    {result : Ctx × SocksState} (streaming : Streaming c.s)
    (pumps : Pumps way pump)
    (ends : ∀ made : Call, made.event (c.s.source way) (c.s.dest way) =
      some .finish →
      made.event (c.s.dest way) (c.s.source way) = none →
      Flows c (ended (c.call made)))
    (stores : ∀ octets, octets ≠ [] → octets.length ≤ buffer.space →
      Flows c (store (c.call (.recv (c.s.source way) octets)) octets))
    (aside : ∀ octets,
      (store (c.call (.recv (c.s.source way) octets)) octets).s.stream
        way.other =
          c.s.stream way.other)
    (effect : RelayEffect (c.s.source way) buffer ended store pump c result) :
    Paced c result.1 := by
  have apart := Socks5.source_ne_dest streaming.apart way
  cases effect with
  | full =>
      exact paced_copyUpdate streaming ⟨[], (List.append_nil _).symm, .refl _⟩
  | again e blocked =>
      refine paced_copyUpdate streaming (.quiet rfl ?_ rfl rfl fun _ => rfl)
      intro made member source dest
      obtain rfl := List.mem_singleton.mp member
      simp [Call.event, blocked]
  | failed e hard =>
      apply paced_copyUpdate streaming
      apply ends
      · exact Call.finish_event.mpr (.inr ⟨e, hard, rfl⟩)
      · exact if_neg fun here => apart here.1
  | closed =>
      apply paced_copyUpdate streaming
      apply ends
      · exact Call.finish_event.mpr (.inl rfl)
      · exact if_neg apart
  | @relayed octets some fits =>
      exact paced_pumpThenUpdate pumps streaming (stores octets some fits)
        (aside octets)

section Reading

variable {c : Ctx} (streaming : Streaming c.s)

include streaming

theorem flows_stored {way : Way} {octets : List UInt8} {after : Ctx}
    (going : (c.s.stream way).finished = false) (arrived : octets ≠ [])
    (calls : after.calls = c.calls ++ [.recv (c.s.source way) octets])
    (clientFd : after.s.clientFd = c.s.clientFd)
    (originFd : after.s.originFd = c.s.originFd)
    (here : after.s.stream way =
      { c.s.stream way with pending := (c.s.stream way).pending ++ octets })
    (there : after.s.stream way.other = c.s.stream way.other) :
        Flows c after := by
  have apart := Socks5.source_ne_dest streaming.apart way
  have received : (Call.recv (c.s.source way) octets).event (c.s.source way)
      (c.s.dest way) =
        some (.receive octets) := (if_pos rfl).trans (if_neg arrived)
  refine .single way calls received (if_neg apart) clientFd originFd ?_ there
  rw [here]
  exact .receive going

theorem paced_copyReadClient (a : Answers) (going : c.s.clientEof = false) :
    Paced c (copyReadClient a c).1 := by
  refine @relayEffect_paced .toOrigin _ _ _ _ _ _ streaming
    (pumps_toOrigin a) ?_ ?_ ?_ (copyReadClient_effect a c)
  · exact fun _ here there =>
      .single .toOrigin rfl here there rfl rfl (.finish going) rfl
  · intro octets some fits
    have stored : Flows c { c.call (.recv c.s.clientFd octets) with
        s := { c.s with readBuffer := bufferFill c.s.readBuffer octets }
        env :=
            { c.env with metrics := metricsAddSent c.env.metrics octets.length }
            } := by
      refine @flows_stored _ streaming .toOrigin octets _ going some rfl
        rfl rfl ?_ rfl
      simp [Socks5.stream, Buffer.content_fill fits]
    unfold storeFromClient
    dsimp only
    split
    · refine stored.trans (.quiet rfl ?_ rfl rfl fun way => ?_)
      · intro made member source dest
        rcases List.mem_cons.mp member with rfl | reported
        · rfl
        · obtain ⟨_, _, rfl⟩ := List.mem_map.mp reported
          rfl
      · cases way <;> rfl
    · exact stored
  · intro octets
    unfold storeFromClient
    dsimp only
    split <;> rfl

theorem paced_copyReadOrigin (a : Answers) (going : c.s.originEof = false) :
    Paced c (copyReadOrigin a c).1 := by
  refine @relayEffect_paced .toClient _ _ _ _ _ _ streaming
    (pumps_toClient a) ?_ ?_ ?_ (copyReadOrigin_effect a c)
  · exact fun _ here there =>
      .single .toClient rfl here there rfl rfl (.finish going) rfl
  · intro octets some fits
    refine @flows_stored _ streaming .toClient octets _ going some rfl
      rfl rfl ?_ rfl
    simp [Socks5.stream, storeFromOrigin, Buffer.content_fill fits]
  · exact fun _ => rfl

theorem copy_paced {kind : EventKind} {key : Key} {a : Answers}
    {handler : Handler} {result : Ctx × SocksState}
    (fromClient : kind = .read → key.fd = c.s.clientFd → c.s.clientEof = false)
    (fromOrigin : kind = .read → key.fd ≠ c.s.clientFd → c.s.originEof = false)
    (serves : Serves .copy kind handler) (ran : handler key a c = some result) :
    Paced c result.1 := by
  have still : Flows c c := ⟨[], (List.append_nil _).symm, .refl _⟩
  cases serves with
  | copyRead =>
      rw [← eq_of_total ran, copyRead]
      split
      next client =>
        exact paced_copyReadClient streaming a (fromClient rfl client)
      next origin =>
        exact paced_copyReadOrigin streaming a (fromOrigin rfl origin)
  | copyWrite =>
      rw [← eq_of_total ran, copyWrite]
      split
      · exact paced_pumpThenUpdate (pumps_toClient a) streaming still rfl
      · exact paced_pumpThenUpdate (pumps_toOrigin a) streaming still rfl

end Reading

def Socks5.descriptors (s : Socks5) : List Fd := s.clientFd :: s.originFd.toList

/-- The selector calls back for what it was asked to wait for. -/
def Awaited (selector : Selector) (fd : Fd) : EventKind → Prop
  | .read => selector.masterR fd = true
  | .write => selector.masterW fd = true
  | .block => True

instance (selector : Selector) (fd : Fd) (kind : EventKind) :
    Decidable (Awaited selector fd kind) :=
  match kind with
  | .read => inferInstanceAs (Decidable (selector.masterR fd = true))
  | .write => inferInstanceAs (Decidable (selector.masterW fd = true))
  | .block => isTrue trivial

/-- A connection with the environment that its last handler call left.  The rest
of the server changes that environment, but not what the connection's own
descriptors wait for. -/
inductive AttendedStep (p : Ptr) :
    Env × Socks5 → List Call → Env × Socks5 → Prop
  | handled {kind : EventKind} {fd : Fd} {a : Answers} {left env : Env}
      {s : Socks5} {c : Ctx} (hosts : Hosts p env s)
      (kept : ∀ own ∈ s.descriptors, env.selector.items own =
        left.selector.items own)
      (owned : fd ∈ s.descriptors)
      (awaited : Awaited env.selector fd kind)
      (runs : socksv5Handler kind ⟨fd, p⟩ a ⟨env, s, [], false⟩ = some c) :
      AttendedStep p (left, s) c.calls (c.env, c.s)
  | resolved (left : Env) (s : Socks5) (answer : DnsAnswer) :
      AttendedStep p (left, s) []
        (left, { s with dns :=
          { s.dns with result := answer.result, status := answer.status } })

def attended (p : Ptr) : System (Env × Socks5) (List Call) where
  init start := Accepted start.2
  step := AttendedStep p

theorem AttendedStep.connection {p : Ptr} {left next : Env × Socks5}
    {calls : List Call} (step : AttendedStep p left calls next) :
    ConnectionStep p left.2 calls next.2 := by
  cases step with
  | handled hosts kept owned awaited runs => exact .handled hosts runs
  | resolved left s answer => exact .resolved answer

theorem connection_of_attended {p : Ptr} {first last : Env × Socks5}
    {labels : List (List Call)} (run : (attended p).Run first labels last) :
    (connection p).Run first.2 labels last.2 := by
  induction run with
  | nil => exact .nil _
  | snoc before step induction => exact induction.snoc step.connection

/-- What a relaying connection waits for is what its last handler call asked
for. -/
theorem awake_of_attended {p : Ptr} {first last : Env × Socks5}
    {labels : List (List Call)} (accepted : Accepted first.2)
    (run : (attended p).Run first labels last)
    (copying : last.2.state = .copy) : Awake last.1.selector last.2 := by
  induction run with
  | nil =>
      rw [accepted_helloRead accepted] at copying
      cases copying
  | snoc before step induction =>
      cases step with
      | handled hosts kept owned awaited runs =>
          exact awake_of_handler accepted (connection_of_attended before) hosts
            runs copying
      | resolved left s answer =>
          have awake := induction copying
          exact ⟨awake.toOrigin, awake.toClient, awake.writesOrigin,
            awake.writesClient, awake.readsClient, awake.readsOrigin,
            fun completed => awake.unfinished
              ⟨completed.clientEof, completed.toOrigin, completed.originEof,
                completed.toClient⟩⟩

theorem Streamed.jump {key : Key} {a : Answers} {c : Ctx} {next : SocksState}
    (leaves : next = .copy ∧ c.s.current = some .copy ∨ next = .done) :
    Streamed c.s [] (SocksProxy.jump key a next c).s := by
  rw [jump_s]
  rcases leaves with ⟨rfl, current⟩ | rfl
  · rw [if_pos current]
    exact .refl _
  · split
    · exact .refl _
    · exact ⟨rfl, rfl, fun _ => .nil _⟩

theorem Streamed.closes {c after : Ctx} (closes : Closes c after) :
    Streamed c.s [] after.s := by
  obtain ⟨references, object⟩ := closes.object
  rw [object]
  exact ⟨rfl, rfl, fun _ => .nil _⟩

theorem Streamed.prompt {before after : Socks5}
    (streamed : Streamed before [] after)
    (prompt : ∀ way, HalfClose.Prompt (before.stream way)) (way : Way) :
    HalfClose.Prompt (after.stream way) := by
  rw [(streamed.runs way).of_nil]
  exact prompt way

theorem attended_step {p : Ptr} {left next : Env × Socks5} {calls : List Call}
    (copying : left.2.state = .copy) (awake : Awake left.1.selector left.2)
    (streaming : Streaming left.2)
    (prompt : ∀ way, HalfClose.Prompt (left.2.stream way))
    (step : AttendedStep p left calls next) :
    Streamed left.2 calls next.2 ∧
      ∀ way, HalfClose.Prompt (next.2.stream way) := by
  cases step with
  | resolved left s answer =>
      exact ⟨⟨rfl, rfl, fun _ => .nil _⟩, prompt⟩
  | @handled kind fd a left env s c hosts kept owned awaited runs =>
      obtain ⟨middle, next, handled⟩ := handled_of_handler runs
      obtain ⟨handler, serves, ran⟩ := handled.runs
      have served : Serves .copy kind handler := copying ▸ serves
      have begun : Streamed s [] (Ctx.started ⟨env, s, [], false⟩).s :=
        ⟨rfl, rfl, fun _ => .nil _⟩
      have waited (reads : kind = .read) : left.selector.masterR fd = true := by
        subst reads
        have same := kept fd owned
        unfold Awaited Selector.masterR at awaited
        rwa [same] at awaited
      have paced := copy_paced (streaming.moved begun)
        (fun reads client => (awake.readsClient (client ▸ waited reads)).1)
        (fun reads origin => by
          rcases List.mem_cons.mp owned with client | own
          · exact absurd client origin
          · have number : s.originNumber = fd := by
              rw [Socks5.originNumber, Option.mem_toList.mp own]
              rfl
            exact (awake.readsOrigin (number ▸ waited reads)).1)
        served ran
      have leaves : next = .copy ∧ middle.s.current = some .copy ∨
          next = .done := by
        have follows : next = .copy ∨ next = .done := by
          simpa [SocksState.successors] using handler_next served ran
        refine follows.imp_left fun same => ⟨same, ?_⟩
        have current := @copy_field _ Socks5.current _ _ _ _ _ _
          ⟨fun _ _ _ => rfl, fun _ _ _ => rfl, fun _ _ _ => rfl, fun _ _ => rfl⟩
            served ran
        exact current.trans (congrArg some copying)
      obtain ⟨more, added, moved⟩ := paced.flows
      have whole : c.calls = more :=
        (handled.closes.calls.trans (jump_calls ..)).trans added
      have quiet := (Streamed.jump leaves).trans (.closes handled.closes)
      refine ⟨?_, quiet.prompt (paced.prompt (begun.prompt prompt))⟩
      have streamed := (begun.trans moved).trans quiet
      rw [List.nil_append, List.append_nil, List.append_nil] at streamed
      rw [whole]
      exact streamed

theorem entered_streaming {p : Ptr} {before entered : Socks5}
    {calls : List Call} (elsewhere : before.state ≠ .copy)
    (step : ConnectionStep p before calls entered)
    (copying : entered.state = .copy) :
    Streaming entered ∧ entered.stream .toClient = ⟨[], false, false⟩ ∧
      entered.stream .toOrigin =
        ⟨entered.readBuffer.content, false, false⟩ := by
  cases step with
  | resolved answer => exact absurd copying elsewhere
  | handled hosts runs =>
      obtain ⟨-, -, buffer, empty, -, -, -, object, -⟩ :=
        copy_entry elsewhere runs copying
      rw [object]
      refine ⟨⟨hosts.apart, fun way closed => ?_⟩, ?_, rfl⟩
      · cases way <;> cases closed
      · change HalfClose.Stream.mk buffer.content false false = _
        rw [empty]

structure Ending (entered : Socks5) (t : List Call) (s : Socks5) : Prop where
  streamed : Streamed entered t s
  prompt : ∀ way, HalfClose.Prompt (s.stream way)
  left : s.state = .copy ∨ s.state = .done ∧
    ((∀ way, (s.stream way).finished = true ∧ (s.stream way).pending = []) ∨
      ∃ way, FailedHard (entered.dest way) t)

theorem ending_of_run {p : Ptr} {first start last : Env × Socks5}
    {earlier labels : List (List Call)} (accepted : Accepted first.2)
    (opening : (attended p).Run first earlier start)
    (streaming : Streaming start.2)
    (prompt : ∀ way, HalfClose.Prompt (start.2.stream way))
    (copying : start.2.state = .copy)
    (run : (attended p).Run start labels last) :
    Ending start.2 labels.flatten last.2 := by
  induction run with
  | nil => exact ⟨.refl _, prompt, .inl copying⟩
  | @snoc middle last labels calls before step induction =>
      obtain ⟨streamed, prompt, left⟩ := induction
      rw [List.flatten_append, List.flatten_singleton]
      rcases left with relaying | ⟨done, ended⟩
      · have awake :=
          awake_of_attended accepted (opening.append before) relaying
        have moved := streaming.moved streamed
        obtain ⟨more, prompt⟩ := attended_step relaying awake moved prompt step
        refine ⟨streamed.trans more, prompt, ?_⟩
        refine (copy_step relaying step.connection).2.imp_right
          fun ⟨done, why⟩ => ⟨done, ?_⟩
        rcases why with completed | client | origin
        · refine .inl fun way => ?_
          cases way with
          | toOrigin => exact ⟨completed.clientEof, completed.toOrigin⟩
          | toClient => exact ⟨completed.originEof, completed.toClient⟩
        · have same := streamed.dest .toClient
          exact .inr
            ⟨.toClient, same ▸ client.mono (List.subset_append_right ..)⟩
        · have same := streamed.dest .toOrigin
          exact .inr
            ⟨.toOrigin, same ▸ origin.mono (List.subset_append_right ..)⟩
      · cases step with
        | resolved environment s answer =>
            rw [List.append_nil]
            exact ⟨⟨streamed.clientFd, streamed.originFd, streamed.runs⟩,
              prompt, .inr ⟨done, ended⟩⟩
        | handled hosts kept owned awaited runs =>
            obtain ⟨_, _, handled⟩ := handled_of_handler runs
            obtain ⟨handler, serves, ran⟩ := handled.runs
            change Serves (Socks5.state _) _ _ at serves
            rw [show (Ctx.s ⟨_, _, [], false⟩).state = .done from done]
              at serves
            cases serves

/-- How the half-closes of `dest` stand in a trace: `early` and what `source`
sends is to be delivered there. -/
structure HalfCloses (source dest : Fd) (early : List UInt8) (t : List Call) :
    Prop where
  once : t.count (.shutdown dest) ≤ 1
  ended : ∀ front rest, t = front ++ .shutdown dest :: rest →
    Ended source front ∧ early ++ receivedFrom source front = sentTo dest front
  last : ∀ front rest, t = front ++ .shutdown dest :: rest →
    (∀ octets, .send dest octets ∉ rest) ∧ ∀ e, .sendFailed dest e ∉ rest
  prompt : Ended source t → early ++ receivedFrom source t = sentTo dest t →
    .shutdown dest ∈ t

/-- A stream that is closed when it is over, and then at once, shows in the
trace. -/
theorem halfCloses_of_run {source dest : Fd} {early : List UInt8}
    {t : List Call} {s : HalfClose.Stream UInt8}
    (run : (HalfClose.stream UInt8).Run ⟨early, false, false⟩
      (events source dest t) s) (prompt : HalfClose.Prompt s) :
    HalfCloses source dest early t := by
  have settled :
      HalfClose.Settled (⟨early, false, false⟩ : HalfClose.Stream UInt8) :=
    fun closed => absurd closed Bool.false_ne_true
  have closing {front rest : List Call}
      (whole : t = front ++ .shutdown dest :: rest) :
      Ended source front ∧ early ++ receivedFrom source front =
        sentTo dest front ∧ events source dest rest = [] := by
    have split : events source dest t =
        events source dest front ++ .close :: events source dest rest := by
      rw [whole, events_append]
      apply congrArg
      exact List.filterMap_cons_some (Call.close_event.mpr rfl)
    rw [split] at run
    obtain ⟨finished, balanced, nothing⟩ := HalfClose.closing settled run
    rw [inflow_events, outflow_events] at balanced
    refine ⟨?_, balanced, nothing⟩
    rcases finished with initially | finishes
    · cases initially
    · exact finish_mem_events.mp finishes
  refine ⟨?_, ?_, ?_, ?_⟩
  · by_cases member : .shutdown dest ∈ t
    · obtain ⟨front, rest, whole, before⟩ := List.eq_append_cons_of_mem member
      have after : .shutdown dest ∉ rest := fun again =>
        absurd (event_none (closing whole).2.2 again) (by simp [Call.event])
      rw [whole, List.count_append, List.count_cons_self,
        List.count_eq_zero.mpr before, List.count_eq_zero.mpr after]
    · rw [List.count_eq_zero.mpr member]
      exact Nat.zero_le 1
  · exact fun front rest whole => ⟨(closing whole).1, (closing whole).2.1⟩
  · intro front rest whole
    refine ⟨fun octets later => ?_, fun e later => ?_⟩
    · exact absurd (event_none (closing whole).2.2 later) (by simp [Call.event])
    · exact absurd (event_none (closing whole).2.2 later) (by simp [Call.event])
  · intro ended balanced
    have finished :=
      (HalfClose.finished_iff run).mpr (.inr (finish_mem_events.mpr ended))
    have pending := HalfClose.balance run
    rw [inflow_events, outflow_events] at pending
    have drained : s.pending = [] :=
      List.self_eq_append_right.mp (balanced.symm.trans pending)
    rcases (HalfClose.closed_iff run).mp (prompt finished drained) with
      initially | closes
    · cases initially
    · exact close_mem_events.mp closes

section Claim

variable {p : Ptr} {first before entered s : Env × Socks5} {calls : List Call}
  {earlier labels : List (List Call)} (accepted : Accepted first.2)
  (opening : (attended p).Run first earlier before)
  (elsewhere : before.2.state ≠ .copy)
  (entering : (attended p).step before calls entered)
  (copying : entered.2.state = .copy)
  (run : (attended p).Run entered labels s)

include accepted opening elsewhere entering copying run

/-- In COPY each socket is shut down at most once, after its peer's stream has
ended and was delivered, as the last thing that is sent to it, and by the
handler call after which this is so; and when COPY ends without a failed send,
both were. -/
theorem half_closes :
    HalfCloses entered.2.clientFd entered.2.originNumber
      entered.2.readBuffer.content
        labels.flatten ∧
      HalfCloses entered.2.originNumber entered.2.clientFd [] labels.flatten ∧
      (s.2.state ≠ .copy → ¬ FailedHard entered.2.clientFd labels.flatten →
        ¬ FailedHard entered.2.originNumber labels.flatten →
        .shutdown entered.2.originNumber ∈ labels.flatten ∧
          .shutdown entered.2.clientFd ∈ labels.flatten) := by
  obtain ⟨streaming, toClient, toOrigin⟩ :=
    entered_streaming elsewhere entering.connection copying
  have initially (way : Way) : HalfClose.Prompt (entered.2.stream way) := by
    intro finished
    cases way with
    | toOrigin =>
        rw [toOrigin] at finished
        cases finished
    | toClient =>
        rw [toClient] at finished
        cases finished
  have ending :=
    ending_of_run accepted (opening.snoc entering) streaming initially copying
    run
  have origin := ending.streamed.runs .toOrigin
  have client := ending.streamed.runs .toClient
  rw [toOrigin] at origin
  rw [toClient] at client
  refine ⟨halfCloses_of_run origin (ending.prompt .toOrigin),
    halfCloses_of_run client (ending.prompt .toClient), ?_⟩
  intro left clientServed originServed
  rcases ending.left with copying | ⟨-, ended | ⟨way, failed⟩⟩
  · exact absurd copying left
  · have shut {way : Way} {source dest : Fd} {early : List UInt8}
        (run : (HalfClose.stream UInt8).Run ⟨early, false, false⟩
          (events source dest labels.flatten) (s.2.stream way)) :
        .shutdown dest ∈ labels.flatten := by
      have closed := ending.prompt way (ended way).1 (ended way).2
      rcases (HalfClose.closed_iff run).mp closed with initially | closes
      · cases initially
      · exact close_mem_events.mp closes
    exact ⟨shut origin, shut client⟩
  · cases way with
    | toOrigin => exact absurd failed originServed
    | toClient => exact absurd failed clientServed

end Claim

def attend (p : Ptr) :
    Env → Socks5 → List Turn → Option (List (List Call) × Env × Socks5)
  | env, s, [] => some ([], env, s)
  | env, s, turn :: rest =>
      if Hosts p env s ∧ turn.fd ∈ s.descriptors ∧
          Awaited env.selector turn.fd turn.kind then
        (socksv5Handler turn.kind ⟨turn.fd, p⟩ turn.answers
            ⟨env, s, [], false⟩).bind fun c =>
          (attend p c.env c.s rest).map fun (labels, last) =>
            (c.calls :: labels, last)
      else none

theorem run_of_attend {p : Ptr} {env : Env} {s : Socks5} {last : Env × Socks5}
    {turns : List Turn} {labels : List (List Call)}
    (attends : attend p env s turns = some (labels, last)) :
    (attended p).Run (env, s) labels last := by
  induction turns generalizing env s labels with
  | nil =>
      cases attends
      exact .nil _
  | cons turn turns induction =>
      unfold attend at attends
      split at attends
      next called =>
        obtain ⟨hosts, owned, awaited⟩ := called
        obtain ⟨c, runs, others⟩ := Option.bind_eq_some_iff.mp attends
        obtain ⟨⟨rest, _⟩, remaining, same⟩ := Option.map_eq_some_iff.mp others
        cases same
        have step : (attended p).step (env, s) c.calls (c.env, c.s) :=
          .handled hosts (fun _ _ => rfl) owned awaited runs
        exact (System.Run.single step).append (induction remaining)
      next => cases attends

private def drainedTurns : List Turn :=
  [⟨.write, 0, .accepting [1]⟩, ⟨.read, 5, .receiving []⟩,
    ⟨.write, 0, .accepting [1]⟩,
    ⟨.read, 0, { Answers.receiving [111, 107] with sends := [.accept 2] }⟩,
    ⟨.read, 0, .receiving []⟩]

theorem half_closes_drained :
    ∃ (entered s : Env × Socks5) (labels : List (List Call)),
      s.2.state = .done ∧ entered.2.readBuffer.content = [104, 105] ∧
      labels.flatten =
        [.send 0 [104], .sendFailed 0 eAgain, .recv 5 [], .send 0 [105],
        .shutdown 0, .recv 0 [111, 107], .send 5 [111, 107], .recv 0 [],
          .shutdown 5] ∧
      HalfCloses entered.2.clientFd entered.2.originNumber
        entered.2.readBuffer.content
        labels.flatten ∧
      HalfCloses entered.2.originNumber entered.2.clientFd
        [] labels.flatten := by
  have expected : (attend 0 (soleEnv configInitDefaults usersInit 5 0)
      (freshConnection configInitDefaults 5)
      [⟨.read, 5, .receiving [0x05, 0x01, 0x00]⟩, ⟨.write, 5, .accepting [2]⟩,
        ⟨.read, 5,
          { Answers.receiving [0x05, 0x01, 0x00, 0x01, 127, 0, 0, 1, 0,
          80, 104, 105] with attempt := fun _ => ⟨0, true, 0⟩ }⟩]).any
            (fun requested =>
      (attend 0 requested.2.1 requested.2.2 [⟨.write, 5, .accepting [10]⟩]).any
        fun entered => (attend 0 entered.2.1 entered.2.2 drainedTurns).any
        fun ended =>
          decide (requested.2.2.state ≠ .copy ∧ entered.1.length = 1 ∧
            entered.2.2.state = .copy ∧ ended.2.2.state = .done ∧
            entered.2.2.readBuffer.content = [104, 105] ∧
            ended.1.flatten =
              [.send 0 [104], .sendFailed 0 eAgain, .recv 5 [], .send 0 [105],
              .shutdown 0, .recv 0 [111, 107], .send 5 [111, 107], .recv 0 [],
              .shutdown 5])) = true := by
    decide +kernel
  obtain ⟨requested, opened, more⟩ := (Option.any_eq_true ..).mp expected
  obtain ⟨entered, enters, more⟩ := (Option.any_eq_true ..).mp more
  obtain ⟨ended, runs, facts⟩ := (Option.any_eq_true ..).mp more
  obtain ⟨elsewhere, alone, copying, done, early, trace⟩ :=
    of_decide_eq_true facts
  obtain ⟨calls, single⟩ := List.length_eq_one_iff.mp alone
  have entering := run_of_attend enters
  rw [single] at entering
  obtain ⟨toOrigin, toClient, -⟩ :=
    half_closes (accepted_fresh _ _) (run_of_attend opened)
    elsewhere entering.of_single copying (run_of_attend runs)
  exact ⟨entered.2, ended.2, ended.1, done, early, trace, toOrigin, toClient⟩

end SocksProxy
