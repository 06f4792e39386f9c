import SocksProxy.Socks5.Copying
import SocksProxy.Socks5.Calls
import Mathlib.Data.Nat.ModEq

/-! What the handlers of a connection add to the counters. -/

namespace SocksProxy

theorem setInterestOrFail_metrics (c : Ctx) (i : Interest) (next : SocksState) :
    (setInterestOrFail c i next).1.env.metrics = c.env.metrics := by
  unfold setInterestOrFail
  split <;> exact congrArg (fun result : Ctx × SelectorStatus =>
    result.1.env.metrics) (Eq.symm ‹_›)

theorem copyComputeInterests_metrics (c : Ctx) :
    (copyComputeInterests c).env.metrics = c.env.metrics := by
  unfold copyComputeInterests
  dsimp only
  split <;> rfl

theorem jump_metrics (key : Key) (a : Answers) (next : SocksState) (c : Ctx) :
    (jump key a next c).env.metrics = c.env.metrics := by
  unfold jump
  split
  · rfl
  · cases next with
    | requestWrite =>
        unfold enter states requestWriteArrival
        dsimp only
        split <;> rfl
    | copy => exact copyComputeInterests_metrics _
    | _ => rfl

theorem readEffect_tally {Parser : Type} {feed : Parser → UInt8 → Parser}
    {finished : Parser → Bool} {parser : Parser}
    {store : Ctx → Parser → Buffer → Ctx} {self : SocksState}
    {complete : Ctx → Ctx × SocksState} {c : Ctx} {result : Ctx × SocksState}
    (stores : ∀ c q buffer, (store c q buffer).env = c.env)
    (completes : ∀ c, (complete c).1.env.metrics.tally = c.env.metrics.tally)
    (effect : ReadEffect feed finished parser store self complete c result) :
    result.1.env.metrics.tally = c.env.metrics.tally := by
  cases effect with
  | again | failed | closed => rfl
  | partly =>
      rw [stores]
      rfl
  | completed =>
      rw [completes, stores]
      rfl

theorem writeEffect_tally {self : SocksState}
    {complete : Ctx → Ctx × SocksState} {c : Ctx} {result : Ctx × SocksState}
    (completes : ∀ c, (complete c).1.env.metrics.tally = c.env.metrics.tally)
    (effect : WriteEffect self complete c result) :
    result.1.env.metrics.tally = c.env.metrics.tally := by
  cases effect with
  | again | failed | partly => rfl
  | flushed => exact completes _

theorem handshake_tally {kind : EventKind} {key : Key} {a : Answers} {c : Ctx}
    {st : SocksState} {handler : Handler} {result : Ctx × SocksState}
    (elsewhere : st ≠ .copy) (pending : st ≠ .requestWrite)
    (serves : Serves st kind handler) (ran : handler key a c = some result) :
    result.1.env.metrics.tally = c.env.metrics.tally := by
  cases serves with
  | helloRead =>
      have ran := eq_of_total ran
      subst ran
      refine readEffect_tally ?_ ?_ (helloRead_effect key a c)
      · exact fun _ _ _ => rfl
      intro c
      unfold helloCompleted
      dsimp only
      split
      · rfl
      · rw [setInterestOrFail_metrics]
        rfl
  | helloWrite =>
      have ran := eq_of_total ran
      subst ran
      refine writeEffect_tally ?_ (helloWrite_effect key a c)
      intro c
      split
      · rfl
      · rw [setInterestOrFail_metrics]
  | authRead =>
      have ran := eq_of_total ran
      subst ran
      refine readEffect_tally ?_ ?_ (authRead_effect key a c)
      · exact fun _ _ _ => rfl
      intro c
      unfold authCompleted
      dsimp only
      split
      · rfl
      · rw [setInterestOrFail_metrics]
        rfl
  | authWrite =>
      have ran := eq_of_total ran
      subst ran
      refine writeEffect_tally ?_ (authWrite_effect key a c)
      intro c
      split
      · rfl
      · rw [setInterestOrFail_metrics]
  | requestRead =>
      have ran := eq_of_total ran
      subst ran
      refine readEffect_tally ?_ ?_ (requestRead_effect key a c)
      · exact fun _ _ _ => rfl
      exact fun c => (requestCompleted_reaches key a c).1.tally
  | resolvBlock =>
      have ran := eq_of_total ran
      subst ran
      exact (resolvBlock_reaches key a c).1.tally
  | connectingWrite => exact (connectingWrite_reaches ran).1.tally
  | requestWrite => exact absurd rfl pending
  | copyRead | copyWrite => exact absurd rfl elsewhere

structure Counted (s : Socks5) (before : Metrics) (t : List Call)
    (after : Metrics) :
    Prop where
  failed : after.failedConnections = before.failedConnections
  sent : after.bytesSent ≡
    before.bytesSent + (receivedFrom s.clientFd t).length [MOD 2 ^ 64]
  received : after.bytesReceived ≡
    before.bytesReceived + (receivedFrom s.originNumber t).length [MOD 2 ^ 64]
  bounded : before.Bounded → after.Bounded

theorem Counted.trans {s : Socks5} {first middle last : Metrics}
    {left right : List Call} (before : Counted s first left middle)
    (after : Counted s middle right last) :
    Counted s first (left ++ right) last := by
  refine ⟨after.failed.trans before.failed, ?_, ?_, fun bounded =>
    after.bounded (before.bounded bounded)⟩
  · rw [receivedFrom_append, List.length_append, ← Nat.add_assoc]
    exact after.sent.trans (before.sent.add_right _)
  · rw [receivedFrom_append, List.length_append, ← Nat.add_assoc]
    exact after.received.trans (before.received.add_right _)

def Meters (before after : Ctx) : Prop :=
  after.s.clientFd = before.s.clientFd ∧ after.s.originFd = before.s.originFd ∧
    ∃ more, after.calls = before.calls ++ more ∧
      Counted before.s before.env.metrics more after.env.metrics

theorem Meters.trans {first middle last : Ctx} (left : Meters first middle)
    (right : Meters middle last) : Meters first last := by
  obtain ⟨clientFd, originFd, earlier, before, countedBefore⟩ := left
  obtain ⟨lastClient, lastOrigin, later, after, failed, sent, received,
    bounded⟩ := right
  have number : middle.s.originNumber = first.s.originNumber := by
    rw [Socks5.originNumber, originFd]
    rfl
  rw [clientFd] at sent
  rw [number] at received
  refine ⟨lastClient.trans clientFd, lastOrigin.trans originFd,
    earlier ++ later, ?_, countedBefore.trans
      ⟨failed, sent, received, bounded⟩⟩
  rw [after, before, List.append_assoc]

theorem Meters.idle {before after : Ctx} {more : List Call}
    (calls : after.calls = before.calls ++ more)
    (still : ∀ fd, ∀ made ∈ more, made.receivedFrom fd = [])
    (tally : after.env.metrics.tally = before.env.metrics.tally)
    (clientFd : after.s.clientFd = before.s.clientFd)
    (originFd : after.s.originFd = before.s.originFd) :
    Meters before after := by
  have nothing (fd : Fd) : receivedFrom fd more = [] :=
    List.flatMap_eq_nil_iff.mpr (still fd)
  have bounded (held : before.env.metrics.Bounded) :
      after.env.metrics.Bounded :=
    held.of_tally tally
  simp only [Metrics.tally, Prod.mk.injEq] at tally
  refine ⟨clientFd, originFd, more, calls, tally.1, ?_, ?_, bounded⟩
  · rw [nothing, tally.2.1]
    exact Nat.ModEq.refl _
  · rw [nothing, tally.2.2]
    exact Nat.ModEq.refl _

theorem Meters.refl (c : Ctx) : Meters c c :=
  .idle (List.append_nil _).symm (by simp) rfl rfl rfl

theorem meters_shutOriginWrite (c : Ctx) : Meters c (shutOriginWrite c) := by
  unfold shutOriginWrite
  split
  · exact .idle rfl (by simp) rfl rfl rfl
  · exact .refl c

theorem meters_shutClientWrite (c : Ctx) : Meters c (shutClientWrite c) := by
  unfold shutClientWrite
  split
  · exact .idle rfl (by simp) rfl rfl rfl
  · exact .refl c

theorem meters_copyUpdate (c : Ctx) : Meters c (copyUpdate c).1 := by
  have shut := (meters_shutOriginWrite c).trans (meters_shutClientWrite _)
  unfold copyUpdate
  dsimp only
  split
  · exact shut
  · refine shut.trans (@Meters.idle _ _ [] ?_ (by simp) ?_ ?_ ?_)
    · rw [copyComputeInterests_calls, List.append_nil]
    · rw [copyComputeInterests_metrics]
    · rw [copyComputeInterests_s]
    · rw [copyComputeInterests_s]

theorem meters_pumpThenUpdate (pumped : Ctx × Bool) :
    Meters pumped.1 (pumpThenUpdate pumped).1 := by
  unfold pumpThenUpdate
  split
  · exact .refl _
  · exact meters_copyUpdate pumped.1

theorem meters_pumpToOrigin (a : Answers) (c : Ctx) :
    Meters c (pumpToOrigin a c).1 := by
  refine .idle rfl (fun fd made member => ?_) rfl rfl rfl
  rcases copyPump_only _ _ _ made member with ⟨octets, rfl⟩ | ⟨e, rfl⟩ <;> rfl

theorem meters_pumpToClient (a : Answers) (c : Ctx) :
    Meters c (pumpToClient a c).1 := by
  refine .idle rfl (fun fd made member => ?_) rfl rfl rfl
  rcases copyPump_only _ _ _ made member with ⟨octets, rfl⟩ | ⟨e, rfl⟩ <;> rfl

theorem receivedFrom_other {fd other : Fd} (apart : other ≠ fd)
    (octets : List UInt8) :
    receivedFrom fd [.recv other octets] = [] := by
  simp [receivedFrom, apart]

section Apart

variable {c : Ctx} (apart : c.s.originNumber ≠ c.s.clientFd)

include apart

theorem meters_storeFromClient (octets : List UInt8) :
    Meters c (storeFromClient (c.call (.recv c.s.clientFd octets)) octets) := by
  have stored : Meters c { c.call (.recv c.s.clientFd octets) with
      s := { c.s with readBuffer := bufferFill c.s.readBuffer octets }
      env :=
          { c.env with metrics := metricsAddSent c.env.metrics octets.length }
          } := by
    refine ⟨rfl, rfl, [.recv c.s.clientFd octets], rfl, rfl, ?_, ?_,
      fun bounded => bounded.addSent _⟩
    · rw [receivedFrom_recv]
      exact Nat.mod_modEq _ _
    · rw [receivedFrom_other apart.symm]
      exact Nat.ModEq.refl _
  unfold storeFromClient
  dsimp only
  split
  · refine stored.trans (.idle rfl (fun fd made member => ?_) rfl rfl rfl)
    rcases List.mem_cons.mp member with rfl | reported
    · rfl
    · obtain ⟨_, _, rfl⟩ := List.mem_map.mp reported
      rfl
  · exact stored

theorem meters_storeFromOrigin (octets : List UInt8) :
    Meters c
      (storeFromOrigin (c.call (.recv c.s.originNumber octets)) octets) := by
  refine ⟨rfl, rfl, [.recv c.s.originNumber octets], rfl, rfl, ?_, ?_,
    fun bounded => bounded.addReceived _⟩
  · rw [receivedFrom_other apart]
    exact Nat.ModEq.refl _
  · rw [receivedFrom_recv]
    exact Nat.mod_modEq _ _

theorem copy_meters {kind : EventKind} {key : Key} {a : Answers}
    {handler : Handler} {result : Ctx × SocksState}
    (serves : Serves .copy kind handler) (ran : handler key a c = some result) :
    Meters c result.1 := by
  have blocked (fd : Fd) (e : Errno) : Meters c (c.call (.recvFailed fd e)) :=
    .idle rfl (by simp) rfl rfl rfl
  have closed (fd : Fd) : Meters c (c.call (.recv fd [])) :=
    .idle rfl (by simp) rfl rfl rfl
  cases serves with
  | copyRead =>
      rw [← eq_of_total ran, copyRead]
      split
      · exact (copyReadClient_effect a c).follows Meters.trans meters_copyUpdate
          meters_pumpThenUpdate (blocked _) (closed _)
          (fun _ => .idle (List.append_nil _).symm (by simp) rfl rfl rfl)
          (fun octets _ _ => meters_storeFromClient apart octets)
          (meters_pumpToOrigin a)
      · exact (copyReadOrigin_effect a c).follows Meters.trans meters_copyUpdate
          meters_pumpThenUpdate (blocked _) (closed _)
          (fun _ => .idle (List.append_nil _).symm (by simp) rfl rfl rfl)
          (fun octets _ _ => meters_storeFromOrigin apart octets)
          (meters_pumpToClient a)
  | copyWrite =>
      rw [← eq_of_total ran, copyWrite]
      split
      · exact (meters_pumpToClient a c).trans (meters_pumpThenUpdate _)
      · exact (meters_pumpToOrigin a c).trans (meters_pumpThenUpdate _)

end Apart

end SocksProxy
