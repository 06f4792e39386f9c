import SocksProxy.Lib.Pipe
import SocksProxy.Socks5.Transitions

/-! The two directions of COPY as pipes, and how the connection leaves that
state. -/

namespace SocksProxy

open Pipe Transition

def Ended (fd : Fd) (calls : List Call) : Prop :=
  Call.recv fd [] ∈ calls ∨ ∃ e, wouldBlock e = false ∧
    Call.recvFailed fd e ∈ calls

def FailedHard (fd : Fd) (calls : List Call) : Prop :=
  Call.send fd [] ∈ calls ∨ ∃ e, wouldBlock e = false ∧
    Call.sendFailed fd e ∈ calls

theorem Ended.mono {fd : Fd} {some all : List Call} (ended : Ended fd some)
    (within : some ⊆ all) : Ended fd all := by
  rcases ended with closed | ⟨e, hard, failed⟩
  · exact .inl (within closed)
  · exact .inr ⟨e, hard, within failed⟩

theorem FailedHard.mono {fd : Fd} {some all : List Call}
    (failed : FailedHard fd some) (within : some ⊆ all) :
    FailedHard fd all := by
  rcases failed with none | ⟨e, hard, failed⟩
  · exact .inl (within none)
  · exact .inr ⟨e, hard, within failed⟩

structure Carried (before : Socks5) (t : List Call) (after : Socks5) :
    Prop where
  clientFd : after.clientFd = before.clientFd
  originFd : after.originFd = before.originFd
  toOrigin : Conveys (Call.receivedFrom before.clientFd)
    (Call.sentTo before.originNumber) before.readBuffer.content t
    after.readBuffer.content
  toClient : Conveys (Call.receivedFrom before.originNumber)
    (Call.sentTo before.clientFd) before.writeBuffer.content t
    after.writeBuffer.content
  clientEof : after.clientEof = true →
    before.clientEof = true ∨ Ended before.clientFd t
  originEof : after.originEof = true →
    before.originEof = true ∨ Ended before.originNumber t

theorem Carried.refl (s : Socks5) : Carried s [] s :=
  ⟨rfl, rfl, .nil _, .nil _, .inl, .inl⟩

theorem Carried.originNumber {before after : Socks5} {t : List Call}
    (carried : Carried before t after) :
    after.originNumber = before.originNumber := by
  rw [Socks5.originNumber, carried.originFd]
  rfl

theorem Carried.trans {first middle last : Socks5} {left right : List Call}
    (before : Carried first left middle) (after : Carried middle right last) :
    Carried first (left ++ right) last := by
  have number := before.originNumber
  obtain ⟨clientFd, originFd, toOrigin, toClient, clientEof, originEof⟩ := after
  rw [before.clientFd, number] at toOrigin toClient
  rw [before.clientFd] at clientEof
  rw [number] at originEof
  refine ⟨clientFd.trans before.clientFd, originFd.trans before.originFd,
    before.toOrigin.append toOrigin, before.toClient.append toClient, ?_, ?_⟩
  · intro closed
    rcases clientEof closed with earlier | ended
    · exact (before.clientEof earlier).imp_right
        fun ended => ended.mono (List.subset_append_left ..)
    · exact .inr (ended.mono (List.subset_append_right ..))
  · intro closed
    rcases originEof closed with earlier | ended
    · exact (before.originEof earlier).imp_right
        fun ended => ended.mono (List.subset_append_left ..)
    · exact .inr (ended.mono (List.subset_append_right ..))

def Relays (before after : Ctx) : Prop :=
  ∃ more, after.calls = before.calls ++ more ∧ Carried before.s more after.s

theorem Relays.trans {first middle last : Ctx} (left : Relays first middle)
    (right : Relays middle last) : Relays first last := by
  obtain ⟨earlier, before, carriedBefore⟩ := left
  obtain ⟨later, after, carriedAfter⟩ := right
  refine ⟨earlier ++ later, ?_, carriedBefore.trans carriedAfter⟩
  rw [after, before, List.append_assoc]

theorem Relays.apart {c after : Ctx} (relays : Relays c after)
    (apart : c.s.originNumber ≠ c.s.clientFd) :
    after.s.originNumber ≠ after.s.clientFd := by
  obtain ⟨_, _, carried⟩ := relays
  rwa [carried.originNumber, carried.clientFd]

theorem Relays.idle {before after : Ctx} {more : List Call}
    (calls : after.calls = before.calls ++ more)
    (still :
      ∀ fd, ∀ made ∈ more, made.receivedFrom fd = [] ∧ made.sentTo fd = [])
    (clientFd : after.s.clientFd = before.s.clientFd)
    (originFd : after.s.originFd = before.s.originFd)
    (readBuffer : after.s.readBuffer = before.s.readBuffer)
    (writeBuffer : after.s.writeBuffer = before.s.writeBuffer)
    (clientEof : after.s.clientEof = true →
      before.s.clientEof = true ∨ Ended before.s.clientFd more)
    (originEof : after.s.originEof = true →
      before.s.originEof = true ∨ Ended before.s.originNumber more) :
    Relays before after := by
  refine ⟨more, calls, clientFd, originFd, ?_, ?_, clientEof, originEof⟩
  · rw [readBuffer]
    exact .idle _ fun made member =>
      ⟨(still _ made member).1, (still _ made member).2⟩
  · rw [writeBuffer]
    exact .idle _ fun made member =>
      ⟨(still _ made member).1, (still _ made member).2⟩

theorem copyPump_only (dst : Fd) (sends : List SendAnswer) (b : Buffer) :
    ∀ made ∈ (copyPump dst sends b).2.1,
      (∃ octets, made = .send dst octets) ∨ ∃ e, made = .sendFailed dst e := by
  induction sends generalizing b with
  | nil =>
      unfold copyPump
      split <;> simp
  | cons answer sends induction =>
      cases answer with
      | error e =>
          unfold copyPump
          split <;> simp
      | accept count =>
          unfold copyPump
          dsimp only
          split
          · split
            · intro made member
              rcases List.mem_cons.mp member with rfl | later
              · exact .inl ⟨_, rfl⟩
              · exact induction _ made later
            · simp
          · simp

theorem copyPump_conveys (src dst : Fd) (sends : List SendAnswer) (b : Buffer) :
    Conveys (Call.receivedFrom src) (Call.sentTo dst) b.content
      (copyPump dst sends b).2.1 (copyPump dst sends b).1.content := by
  induction sends generalizing b with
  | nil =>
      unfold copyPump
      split
      · exact .single (by simp)
      · exact .nil _
  | cons answer sends induction =>
      cases answer with
      | error e =>
          unfold copyPump
          split
          · exact .single (by simp)
          · exact .nil _
      | accept count =>
          unfold copyPump
          dsimp only
          split
          · split
            · have fits := List.length_take_le' count b.content
              have rest :=
                induction (bufferReadAdv b (b.content.take count).length)
              refine Conveys.append (.single ?_) rest
              have restored := List.prefix_iff_eq_append.mp
                (List.take_prefix count b.content)
              simp only [Call.receivedFrom, Call.sentTo, if_true,
                List.append_nil]
              rw [Buffer.content_readAdv fits, restored]
            next nothing =>
              have none : b.content.take count = [] :=
                List.length_eq_zero_iff.mp (Nat.eq_zero_of_not_pos nothing)
              exact .single (by simp [none])
          · exact .nil _

theorem copyPump_hard {dst : Fd} {sends : List SendAnswer} {b : Buffer}
    (hard : (copyPump dst sends b).2.2 = true) :
    FailedHard dst (copyPump dst sends b).2.1 := by
  induction sends generalizing b with
  | nil =>
      unfold copyPump at hard
      split at hard <;> cases hard
  | cons answer sends induction =>
      cases answer with
      | error e =>
          unfold copyPump at hard ⊢
          split at hard
          next some =>
            rw [if_pos some]
            exact .inr ⟨e, by simpa using hard, List.mem_singleton_self _⟩
          next => cases hard
      | accept count =>
          unfold copyPump at hard ⊢
          dsimp only at hard ⊢
          split at hard
          next readable =>
            rw [if_pos readable]
            split at hard
            next some =>
              rw [if_pos some]
              exact (induction hard).mono (List.subset_cons_self ..)
            next nothing =>
              rw [if_neg nothing]
              have none : b.content.take count = [] :=
                List.length_eq_zero_iff.mp (Nat.eq_zero_of_not_pos nothing)
              exact .inl (by simp [none])
          next => cases hard

section Handlers

variable {c : Ctx} (apart : c.s.originNumber ≠ c.s.clientFd)

include apart

theorem relays_pumpToOrigin (a : Answers) : Relays c (pumpToOrigin a c).1 := by
  refine ⟨_, rfl, rfl, rfl, copyPump_conveys .., .idle _ fun made member => ?_,
    .inl, .inl⟩
  rcases copyPump_only _ _ _ made member with ⟨octets, rfl⟩ | ⟨e, rfl⟩
  · exact ⟨rfl, if_neg apart⟩
  · exact ⟨rfl, rfl⟩

theorem relays_pumpToClient (a : Answers) : Relays c (pumpToClient a c).1 := by
  refine ⟨_, rfl, rfl, rfl, .idle _ fun made member => ?_, copyPump_conveys ..,
    .inl, .inl⟩
  rcases copyPump_only _ _ _ made member with ⟨octets, rfl⟩ | ⟨e, rfl⟩
  · exact ⟨rfl, if_neg apart.symm⟩
  · exact ⟨rfl, rfl⟩

theorem relays_storeFromClient {octets : List UInt8}
    (fits : octets.length ≤ c.s.readBuffer.space) :
    Relays c (storeFromClient (c.call (.recv c.s.clientFd octets)) octets) := by
  have filled := Buffer.content_fill fits
  have stored : Relays c { c.call (.recv c.s.clientFd octets) with
      s := { c.s with readBuffer := bufferFill c.s.readBuffer octets }
      env :=
          { c.env with metrics := metricsAddSent c.env.metrics octets.length }
          } := by
    refine ⟨[.recv c.s.clientFd octets], rfl, rfl, rfl, .single ?_,
      .single ?_, .inl, .inl⟩
    · simp [filled]
    · simp [apart.symm]
  unfold storeFromClient
  dsimp only
  split
  · refine stored.trans (.idle rfl ?_ rfl rfl rfl rfl .inl .inl)
    intro fd made member
    rcases List.mem_cons.mp member with rfl | reported
    · exact ⟨rfl, rfl⟩
    · obtain ⟨_, _, rfl⟩ := List.mem_map.mp reported
      exact ⟨rfl, rfl⟩
  · exact stored

theorem relays_storeFromOrigin {octets : List UInt8}
    (fits : octets.length ≤ c.s.writeBuffer.space) :
    Relays c
      (storeFromOrigin (c.call (.recv c.s.originNumber octets)) octets) := by
  have filled := Buffer.content_fill fits
  refine ⟨[.recv c.s.originNumber octets], rfl, rfl, rfl, .single ?_,
    .single ?_, .inl, .inl⟩
  · simp [storeFromOrigin, apart]
  · simp [storeFromOrigin, filled]

end Handlers

structure Completed (s : Socks5) : Prop where
  clientEof : s.clientEof = true
  toOrigin : s.readBuffer.content = []
  originEof : s.originEof = true
  toClient : s.writeBuffer.content = []

inductive CopyEffect (c : Ctx) : Ctx × SocksState → Prop
  | stays {after : Ctx} (relays : Relays c after) : CopyEffect c (after, .copy)
  | completed {after : Ctx} (relays : Relays c after)
      (completed : Completed after.s) : CopyEffect c (after, .done)
  | failed {after : Ctx} (relays : Relays c after)
      (hard : ∃ more, after.calls = c.calls ++ more ∧
        (FailedHard c.s.clientFd more ∨ FailedHard c.s.originNumber more)) :
      CopyEffect c (after, .done)

theorem CopyEffect.after {c middle : Ctx} {result : Ctx × SocksState}
    (relays : Relays c middle) (effect : CopyEffect middle result) :
    CopyEffect c result := by
  cases effect with
  | stays next => exact .stays (relays.trans next)
  | completed next completed => exact .completed (relays.trans next) completed
  | failed next hard =>
      obtain ⟨earlier, before, carried⟩ := relays
      obtain ⟨later, calls, failed⟩ := hard
      refine .failed (Relays.trans ⟨earlier, before, carried⟩ next)
        ⟨earlier ++ later, by rw [calls, before, List.append_assoc], ?_⟩
      rw [carried.clientFd, carried.originNumber] at failed
      exact failed.imp (·.mono (List.subset_append_right ..))
        (·.mono (List.subset_append_right ..))

theorem relays_shutOriginWrite (c : Ctx) : Relays c (shutOriginWrite c) := by
  unfold shutOriginWrite
  split
  · exact .idle rfl (by simp) rfl rfl rfl rfl .inl .inl
  · exact ⟨[], (List.append_nil _).symm, .refl _⟩

theorem relays_shutClientWrite (c : Ctx) : Relays c (shutClientWrite c) := by
  unfold shutClientWrite
  split
  · exact .idle rfl (by simp) rfl rfl rfl rfl .inl .inl
  · exact ⟨[], (List.append_nil _).symm, .refl _⟩

theorem copyUpdate_effect (c : Ctx) : CopyEffect c (copyUpdate c) := by
  have shut := (relays_shutOriginWrite c).trans (relays_shutClientWrite _)
  unfold copyUpdate
  dsimp only
  split
  next done =>
    simp only [Bool.and_eq_true, Bool.not_eq_true', Buffer.canRead_eq_false_iff]
      at done
    exact .completed shut ⟨done.1.1, done.1.2, done.2.1, done.2.2⟩
  next =>
    refine .stays (shut.trans ⟨[], ?_, ?_⟩)
    · rw [copyComputeInterests_calls, List.append_nil]
    · rw [copyComputeInterests_s]
      exact .refl _

theorem pumpThenUpdate_effect {c : Ctx} {pumped : Ctx × Bool}
    (relays : Relays c pumped.1)
    (hard : pumped.2 = true → ∃ more, pumped.1.calls = c.calls ++ more ∧
      (FailedHard c.s.clientFd more ∨ FailedHard c.s.originNumber more)) :
    CopyEffect c (pumpThenUpdate pumped) := by
  unfold pumpThenUpdate
  split
  next failed => exact .failed relays (hard failed)
  next => exact (copyUpdate_effect pumped.1).after relays

section Handlers

variable {c : Ctx} (apart : c.s.originNumber ≠ c.s.clientFd) (a : Answers)

include apart

theorem pumpToOrigin_effect :
    CopyEffect c (pumpThenUpdate (pumpToOrigin a c)) :=
  pumpThenUpdate_effect (relays_pumpToOrigin apart a) fun hard =>
    ⟨_, rfl, .inr (copyPump_hard hard)⟩

theorem pumpToClient_effect :
    CopyEffect c (pumpThenUpdate (pumpToClient a c)) :=
  pumpThenUpdate_effect (relays_pumpToClient apart a) fun hard =>
    ⟨_, rfl, .inl (copyPump_hard hard)⟩

theorem copyReadClient_copies : CopyEffect c (copyReadClient a c) := by
  have idle (e : Errno) : Relays c (c.call (.recvFailed c.s.clientFd e)) :=
    .idle rfl (by simp) rfl rfl rfl rfl .inl .inl
  have effect := copyReadClient_effect a c
  generalize copyReadClient a c = result at effect ⊢
  cases effect with
  | full => exact copyUpdate_effect c
  | again e => exact (copyUpdate_effect _).after (idle e)
  | failed e hard =>
      have ended : Relays c { c.call (.recvFailed c.s.clientFd e) with
          s := { c.s with clientEof := true } } :=
        .idle rfl (by simp) rfl rfl rfl rfl
          (fun _ => .inr (.inr ⟨e, hard, List.mem_singleton_self _⟩)) .inl
      exact (copyUpdate_effect _).after ended
  | closed =>
      have ended : Relays c { c.call (.recv c.s.clientFd []) with
          s := { c.s with clientEof := true } } :=
        .idle rfl (by simp) rfl rfl rfl rfl
          (fun _ => .inr (.inl (List.mem_singleton_self _))) .inl
      exact (copyUpdate_effect _).after ended
  | @relayed octets some fits =>
      have stored := relays_storeFromClient apart fits
      exact (pumpToOrigin_effect (stored.apart apart) a).after stored

theorem copyReadOrigin_copies : CopyEffect c (copyReadOrigin a c) := by
  have idle (e : Errno) : Relays c (c.call (.recvFailed c.s.originNumber e)) :=
    .idle rfl (by simp) rfl rfl rfl rfl .inl .inl
  have effect := copyReadOrigin_effect a c
  generalize copyReadOrigin a c = result at effect ⊢
  cases effect with
  | full => exact copyUpdate_effect c
  | again e => exact (copyUpdate_effect _).after (idle e)
  | failed e hard =>
      have ended : Relays c { c.call (.recvFailed c.s.originNumber e) with
          s := { c.s with originEof := true } } :=
        .idle rfl (by simp) rfl rfl rfl rfl .inl
          fun _ => .inr (.inr ⟨e, hard, List.mem_singleton_self _⟩)
      exact (copyUpdate_effect _).after ended
  | closed =>
      have ended : Relays c { c.call (.recv c.s.originNumber []) with
          s := { c.s with originEof := true } } :=
        .idle rfl (by simp) rfl rfl rfl rfl .inl
          fun _ => .inr (.inl (List.mem_singleton_self _))
      exact (copyUpdate_effect _).after ended
  | @relayed octets some fits =>
      have stored := relays_storeFromOrigin apart fits
      exact (pumpToClient_effect (stored.apart apart) a).after stored

theorem copy_effect {kind : EventKind} {key : Key} {handler : Handler}
    {result : Ctx × SocksState} (serves : Serves .copy kind handler)
    (ran : handler key a c = some result) : CopyEffect c result := by
  cases serves with
  | copyRead =>
      rw [← eq_of_total ran, copyRead]
      split
      · exact copyReadClient_copies apart a
      · exact copyReadOrigin_copies apart a
  | copyWrite =>
      rw [← eq_of_total ran, copyWrite]
      split
      · exact pumpToClient_effect apart a
      · exact pumpToOrigin_effect apart a

end Handlers

end SocksProxy
