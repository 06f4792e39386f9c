import SocksProxy.Socks5.Connection

/-! What the handlers after the negotiation leave alone. -/

namespace SocksProxy

def SocksState.negotiating : SocksState → Bool
  | .helloRead | .helloWrite | .authRead | .authWrite => true
  | _ => false

/-- Calls were added, none of them a negotiation, and the client's descriptor
and the capacities of the buffers stayed as they were. -/
structure Extends (before after : Ctx) : Prop where
  calls : ∃ more, after.calls = before.calls ++ more ∧ negotiations more = []
  clientFd : after.s.clientFd = before.s.clientFd
  readLimit : after.s.readBuffer.limit = before.s.readBuffer.limit
  writeLimit : after.s.writeBuffer.limit = before.s.writeBuffer.limit

namespace Extends

theorem refl (c : Ctx) : Extends c c := ⟨⟨[], by simp, rfl⟩, rfl, rfl, rfl⟩

theorem trans {first middle last : Ctx} (left : Extends first middle)
    (right : Extends middle last) : Extends first last := by
  obtain ⟨earlier, before, quiet⟩ := left.calls
  obtain ⟨later, after, silent⟩ := right.calls
  refine ⟨⟨earlier ++ later, ?_, ?_⟩, right.clientFd.trans left.clientFd,
    right.readLimit.trans left.readLimit,
    right.writeLimit.trans left.writeLimit⟩
  · rw [after, before, List.append_assoc]
  · rw [negotiations_append, quiet, silent]
    rfl

theorem silent {before after : Ctx} (calls : after.calls = before.calls)
    (clientFd : after.s.clientFd = before.s.clientFd)
    (readLimit : after.s.readBuffer.limit = before.s.readBuffer.limit)
    (writeLimit : after.s.writeBuffer.limit = before.s.writeBuffer.limit) :
    Extends before after :=
  ⟨⟨[], by simp [calls], rfl⟩, clientFd, readLimit, writeLimit⟩

theorem quietly {first middle last : Ctx} (extended : Extends middle last)
    (calls : middle.calls = first.calls)
    (clientFd : middle.s.clientFd = first.s.clientFd)
    (readLimit : middle.s.readBuffer.limit = first.s.readBuffer.limit)
    (writeLimit : middle.s.writeBuffer.limit = first.s.writeBuffer.limit) :
    Extends first last :=
  (silent calls clientFd readLimit writeLimit).trans extended

theorem call (c : Ctx) {made : Call} (quiet : negotiations [made] = []) :
    Extends c (c.call made) :=
  ⟨⟨[made], rfl, quiet⟩, rfl, rfl, rfl⟩

theorem calling {before after : Ctx} {made : Call}
    (calls : after.calls = before.calls ++ [made])
    (quiet : negotiations [made] = [])
    (clientFd : after.s.clientFd = before.s.clientFd)
    (readLimit : after.s.readBuffer.limit = before.s.readBuffer.limit)
    (writeLimit : after.s.writeBuffer.limit = before.s.writeBuffer.limit) :
    Extends before after :=
  ⟨⟨[made], calls, quiet⟩, clientFd, readLimit, writeLimit⟩

end Extends

/-- The calls that contact the origin or a resolver. -/
def Call.reaching : Call → Prop
  | .dnsResolveAsync .. | .startConnection | .connect .. => True
  | _ => False

structure Reaches (before after : Ctx) : Prop where
  calls : ∃ more, after.calls = before.calls ++ more ∧ ∀ made ∈ more,
    made.reaching
  object :
    ∃ originFd addrs addrIdx dns resolving destHost destPort reply references,
    after.s = { before.s with
      originFd := originFd
      addrs := addrs
      addrIdx := addrIdx
      dns := dns
      resolving := resolving
      destHost := destHost
      destPort := destPort
      reply := reply
      references := references }
  tally : after.env.metrics.tally = before.env.metrics.tally

namespace Reaches

theorem silent {before after : Ctx} (calls : after.calls = before.calls)
    (object :
      ∃ originFd addrs addrIdx dns resolving destHost destPort reply references,
      after.s = { before.s with
        originFd := originFd
        addrs := addrs
        addrIdx := addrIdx
        dns := dns
        resolving := resolving
        destHost := destHost
        destPort := destPort
        reply := reply
        references := references })
    (tally : after.env.metrics.tally = before.env.metrics.tally) :
    Reaches before after :=
  ⟨⟨[], by rw [calls, List.append_nil], by simp⟩, object, tally⟩

theorem same {before after : Ctx} (calls : after.calls = before.calls)
    (object : after.s = before.s)
    (tally : after.env.metrics.tally = before.env.metrics.tally) :
    Reaches before after :=
  .silent calls ⟨_, _, _, _, _, _, _, _, _, object⟩ tally

theorem calling {before after : Ctx} {made : Call}
    (calls : after.calls = before.calls ++ [made]) (object : after.s = before.s)
    (reaching : made.reaching)
    (tally : after.env.metrics.tally = before.env.metrics.tally) :
    Reaches before after := by
  refine ⟨⟨[made], calls, ?_⟩, ⟨_, _, _, _, _, _, _, _, _, object⟩, tally⟩
  intro other member
  exact List.mem_singleton.mp member ▸ reaching

theorem trans {first middle last : Ctx} (left : Reaches first middle)
    (right : Reaches middle last) : Reaches first last := by
  obtain ⟨earlier, before, reachingBefore⟩ := left.calls
  obtain ⟨later, after, reachingAfter⟩ := right.calls
  obtain ⟨_, _, _, _, _, _, _, _, _, middleObject⟩ := left.object
  obtain ⟨_, _, _, _, _, _, _, _, _, lastObject⟩ := right.object
  refine ⟨⟨earlier ++ later, ?_, ?_⟩, ⟨_, _, _, _, _, _, _, _, _,
    by rw [lastObject, middleObject]⟩, right.tally.trans left.tally⟩
  · rw [after, before, List.append_assoc]
  · intro made member
    rcases List.mem_append.mp member with early | late
    · exact reachingBefore made early
    · exact reachingAfter made late

theorem quietly {first middle last : Ctx} (reaches : Reaches middle last)
    (calls : middle.calls = first.calls)
    (object :
      ∃ originFd addrs addrIdx dns resolving destHost destPort reply references,
      middle.s = { first.s with
        originFd := originFd
        addrs := addrs
        addrIdx := addrIdx
        dns := dns
        resolving := resolving
        destHost := destHost
        destPort := destPort
        reply := reply
        references := references })
    (tally : middle.env.metrics.tally = first.env.metrics.tally) :
    Reaches first last :=
  (silent calls object tally).trans reaches

theorem nextCandidate (c : Ctx) : Reaches c c.nextCandidate :=
  .silent rfl ⟨_, _, _, _, _, _, _, _, _, rfl⟩ rfl

theorem setReply (c : Ctx) (reply : UInt8) : Reaches c (c.setReply reply) :=
  .silent rfl ⟨_, _, _, _, _, _, _, _, _, rfl⟩ rfl

theorem closeFd (c : Ctx) (fd : Fd) : Reaches c (c.closeFd fd) :=
  .same rfl rfl rfl

end Reaches

theorem Reaches.extends {before after : Ctx} (reaches : Reaches before after) :
    Extends before after := by
  obtain ⟨more, calls, reaching⟩ := reaches.calls
  obtain ⟨_, _, _, _, _, _, _, _, _, object⟩ := reaches.object
  refine ⟨⟨more, calls, ?_⟩, by rw [object], by rw [object], by rw [object]⟩
  refine List.filterMap_eq_nil_iff.mpr fun made member => ?_
  have outward := reaching made member
  cases made with
  | chooseMethod => cases outward
  | _ => rfl

theorem reaches_registerOrigin (key : Key) (c : Ctx) (fd : Fd) (i : Interest) :
    Reaches c (registerOrigin key c fd i).1 := by
  unfold registerOrigin
  split
  · exact .silent rfl ⟨_, _, _, _, _, _, _, _, _, rfl⟩ rfl
  · exact .closeFd c fd

theorem reaches_tryCandidate (key : Key) (a : Answers) (c : Ctx) :
    Reaches c (tryCandidate key a c).1 := by
  unfold tryCandidate
  dsimp only
  have opened : Reaches c c.openOrigin.2 := .same rfl rfl rfl
  have connected : Reaches c (c.openOrigin.2.connect c.openOrigin.1
      ((c.s.addrs[c.s.addrIdx]?).getD default)
      (a.attempt c.s.addrIdx).connect) :=
    opened.trans (.calling rfl rfl trivial rfl)
  split
  · exact (Reaches.setReply c _).trans (.nextCandidate _)
  · split
    · exact (opened.trans (.closeFd _ _)).trans (.nextCandidate _)
    · split
      · have registered := connected.trans
          (reaches_registerOrigin key _ c.openOrigin.1 opNoop)
        split
        next registration =>
          rw [registration] at registered
          exact registered.trans (.setReply _ _)
        next registration =>
          rw [registration] at registered
          exact registered.trans (.nextCandidate _)
      · split
        · have registered := connected.trans
            (reaches_registerOrigin key _ c.openOrigin.1 opWrite)
          split
          next registration =>
            rw [registration] at registered
            exact registered
          next registration =>
            rw [registration] at registered
            exact registered.trans (.nextCandidate _)
        · exact ((connected.trans (.setReply _ _)).trans (.closeFd _ _)).trans
            (.nextCandidate _)

def SocksState.connectResult (st : SocksState) : Prop :=
  st = .requestWrite ∨ st = .requestConnecting

theorem tryCandidate_state {key : Key} {a : Answers} {c : Ctx}
    {next : SocksState} (entered : (tryCandidate key a c).2 = some next) :
    next.connectResult := by
  unfold tryCandidate at entered
  dsimp only at entered
  split at entered
  · cases entered
  · split at entered
    · cases entered
    · split at entered
      · split at entered <;> cases entered
        exact .inl rfl
      · split at entered
        · split at entered <;> cases entered
          exact .inr rfl
        · cases entered

theorem tryCandidates_reaches (key : Key) (a : Answers) (left : Nat) (c : Ctx) :
    Reaches c (tryCandidates key a left c).1 ∧
      (tryCandidates key a left c).2.connectResult := by
  induction left generalizing c with
  | zero =>
      unfold tryCandidates
      split
      · exact ⟨.setReply c _, .inl rfl⟩
      · exact ⟨.same rfl rfl rfl, .inl rfl⟩
  | succ left induction =>
      have tried := reaches_tryCandidate key a c
      unfold tryCandidates
      split
      next entered =>
        rw [entered] at tried
        exact ⟨tried, tryCandidate_state (by rw [entered])⟩
      next failed =>
        rw [failed] at tried
        exact ⟨tried.trans (induction _).1, (induction _).2⟩

theorem startConnection_reaches (key : Key) (a : Answers) (c : Ctx) :
    Reaches c (startConnection key a c).1 ∧
      (startConnection key a c).2.connectResult := by
  obtain ⟨same, result⟩ := tryCandidates_reaches key a
    (c.s.naddrs - c.s.addrIdx) (c.call .startConnection)
  have called : Reaches c (c.call .startConnection) :=
    .calling rfl rfl trivial rfl
  exact ⟨called.trans same, result⟩

theorem SocksState.connectResult.settled {st : SocksState}
    (result : st.connectResult) : st.negotiating = false := by
  rcases result with rfl | rfl <;> rfl

theorem reaches_dnsResolveAsync {a : Answers} {c after : Ctx} {launched : Bool}
    (asked : dnsResolveAsync a c = (after, launched)) : Reaches c after := by
  obtain rfl : (dnsResolveAsync a c).1 = after := congrArg Prod.fst asked
  unfold dnsResolveAsync
  cases a.thread <;> exact .calling rfl rfl trivial rfl

theorem processRequest_reaches (key : Key) (a : Answers) (c : Ctx) :
    Reaches c (processRequest key a c).1 ∧
      (processRequest key a c).2.negotiating = false := by
  unfold processRequest
  dsimp only
  split
  · exact ⟨.setReply c _, rfl⟩
  · split
    · obtain ⟨same, result⟩ := startConnection_reaches key a _
      exact ⟨same.quietly rfl ⟨_, _, _, _, _, _, _, _, _, rfl⟩ rfl,
        result.settled⟩
    · split
      · obtain ⟨same, result⟩ := startConnection_reaches key a _
        exact ⟨same.quietly rfl ⟨_, _, _, _, _, _, _, _, _, rfl⟩ rfl,
          result.settled⟩
      · split
        · split
          next failed =>
            have reaches := (reaches_dnsResolveAsync failed).trans
              (.setReply _ repGeneralFailure)
            exact ⟨reaches.quietly rfl ⟨_, _, _, _, _, _, _, _, _, rfl⟩ rfl,
              rfl⟩
          next after launched =>
            have resolving : Reaches after
                { after with s := { after.s with resolving := true } } :=
              .silent rfl ⟨_, _, _, _, _, _, _, _, _, rfl⟩ rfl
            have reaches := (reaches_dnsResolveAsync launched).trans resolving
            exact ⟨reaches.quietly rfl ⟨_, _, _, _, _, _, _, _, _, rfl⟩ rfl,
              rfl⟩
        · exact ⟨.silent rfl ⟨_, _, _, _, _, _, _, _, _, rfl⟩ rfl, rfl⟩

theorem requestCompleted_reaches (key : Key) (a : Answers) (c : Ctx) :
    Reaches c (requestCompleted key a c).1 ∧
      (requestCompleted key a c).2.negotiating = false := by
  have tuned : Reaches c (c.setInterest c.s.clientFd opNoop).1 :=
    .same rfl rfl rfl
  unfold requestCompleted
  dsimp only
  split
  · exact ⟨tuned.trans (.setReply _ _), rfl⟩
  · obtain ⟨same, result⟩ := processRequest_reaches key a
      (c.setInterest c.s.clientFd opNoop).1
    exact ⟨tuned.trans same, result⟩

theorem resolvBlock_reaches (key : Key) (a : Answers) (c : Ctx) :
    Reaches c (resolvBlock key a c).1 ∧
      (resolvBlock key a c).2.negotiating = false := by
  unfold resolvBlock
  dsimp only
  split
  · exact ⟨.silent rfl ⟨_, _, _, _, _, _, _, _, _, rfl⟩ rfl, rfl⟩
  · split
    · exact ⟨.silent rfl ⟨_, _, _, _, _, _, _, _, _, rfl⟩ rfl, rfl⟩
    · obtain ⟨same, result⟩ := startConnection_reaches key a _
      exact ⟨same.quietly rfl ⟨_, _, _, _, _, _, _, _, _, rfl⟩ rfl,
        result.settled⟩

theorem Closes.reaches {before after : Ctx} (closes : Closes before after) :
    Reaches before after := by
  obtain ⟨references, object⟩ := closes.object
  exact .silent closes.calls ⟨_, _, _, _, _, _, _, _, _, object⟩ closes.tally

theorem Closes.extends {before after : Ctx} (closes : Closes before after) :
    Extends before after := closes.reaches.extends

theorem connectingWrite_reaches {key : Key} {a : Answers} {c after : Ctx}
    {next : SocksState} (ran : connectingWrite key a c = some (after, next)) :
    Reaches c after ∧ next.connectResult := by
  unfold connectingWrite at ran
  dsimp only at ran
  split at ran
  · cases ran
    exact ⟨.setReply c _, .inl rfl⟩
  · obtain ⟨closed, unregistered, started⟩ := Option.map_eq_some_iff.mp ran
    obtain ⟨same, result⟩ := startConnection_reaches key a { closed with
      s := { closed.s with
        originFd := none
        addrIdx := closed.s.addrIdx + 1 } }
    rw [started] at same result
    have before : Reaches c closed :=
      (Reaches.setReply c _).trans (closes_unregister unregistered).reaches
    exact ⟨before.trans (same.quietly rfl ⟨_, _, _, _, _, _, _, _, _, rfl⟩ rfl),
      result⟩

theorem replySent_frame (c : Ctx) :
    Extends c (replySent c).1 ∧ (replySent c).2.negotiating = false := by
  unfold replySent
  dsimp only
  split
  · exact ⟨.calling rfl rfl rfl rfl rfl, rfl⟩
  · exact ⟨.calling rfl rfl rfl rfl rfl, rfl⟩

theorem copyPump_frame (dst : Fd) (sends : List SendAnswer) (b : Buffer) :
    negotiations (copyPump dst sends b).2.1 = [] ∧
      (copyPump dst sends b).1.limit = b.limit := by
  induction sends generalizing b with
  | nil =>
      unfold copyPump
      split <;> exact ⟨rfl, rfl⟩
  | cons answer sends induction =>
      cases answer with
      | error e =>
          unfold copyPump
          split <;> exact ⟨rfl, rfl⟩
      | accept count =>
          unfold copyPump
          dsimp only
          split
          · split
            · obtain ⟨quiet, limit⟩ := induction
                (bufferReadAdv b (b.content.take count).length)
              exact ⟨quiet, limit.trans (Buffer.limit_readAdv ..)⟩
            · exact ⟨rfl, rfl⟩
          · exact ⟨rfl, rfl⟩

theorem extends_pumpToOrigin (a : Answers) (c : Ctx) :
    Extends c (pumpToOrigin a c).1 := by
  obtain ⟨quiet, limit⟩ :=
    copyPump_frame c.s.originNumber a.sends c.s.readBuffer
  exact ⟨⟨_, rfl, quiet⟩, rfl, limit, rfl⟩

theorem extends_pumpToClient (a : Answers) (c : Ctx) :
    Extends c (pumpToClient a c).1 := by
  obtain ⟨quiet, limit⟩ := copyPump_frame c.s.clientFd a.sends c.s.writeBuffer
  exact ⟨⟨_, rfl, quiet⟩, rfl, rfl, limit⟩

theorem extends_copyComputeInterests (c : Ctx) :
    Extends c (copyComputeInterests c) :=
  .silent (copyComputeInterests_calls c) (by rw [copyComputeInterests_s])
    (by rw [copyComputeInterests_s]) (by rw [copyComputeInterests_s])

theorem extends_shutOriginWrite (c : Ctx) : Extends c (shutOriginWrite c) := by
  unfold shutOriginWrite
  split
  · exact .calling rfl rfl rfl rfl rfl
  · exact .refl c

theorem extends_shutClientWrite (c : Ctx) : Extends c (shutClientWrite c) := by
  unfold shutClientWrite
  split
  · exact .calling rfl rfl rfl rfl rfl
  · exact .refl c

theorem copyUpdate_frame (c : Ctx) :
    Extends c (copyUpdate c).1 ∧ (copyUpdate c).2.negotiating = false := by
  have shut := (extends_shutOriginWrite c).trans (extends_shutClientWrite _)
  unfold copyUpdate
  dsimp only
  split
  · exact ⟨shut, rfl⟩
  · exact ⟨shut.trans (extends_copyComputeInterests _), rfl⟩

theorem pumpThenUpdate_frame (pumped : Ctx × Bool) :
    Extends pumped.1 (pumpThenUpdate pumped).1 ∧
      (pumpThenUpdate pumped).2.negotiating = false := by
  unfold pumpThenUpdate
  split
  · exact ⟨.refl _, rfl⟩
  · exact copyUpdate_frame pumped.1

theorem extends_sniff (c : Ctx) (octets : List UInt8) :
    Extends c (sniff c octets) := by
  refine ⟨⟨_, rfl, ?_⟩, rfl, rfl, rfl⟩
  refine List.filterMap_eq_nil_iff.mpr fun made member => ?_
  rcases List.mem_cons.mp member with rfl | reported
  · rfl
  · obtain ⟨_, _, rfl⟩ := List.mem_map.mp reported
    rfl

theorem extends_storeFromClient (c : Ctx) (octets : List UInt8) :
    Extends c (storeFromClient c octets) := by
  unfold storeFromClient
  dsimp only
  split
  · exact (extends_sniff _ octets).quietly rfl rfl (Buffer.limit_fill ..) rfl
  · exact .silent rfl rfl (Buffer.limit_fill ..) rfl

theorem extends_storeFromOrigin (c : Ctx) (octets : List UInt8) :
    Extends c (storeFromOrigin c octets) :=
  .silent rfl rfl rfl (Buffer.limit_fill ..)

theorem relayEffect_frame {source : Fd} {buffer : Buffer} {ended : Ctx → Ctx}
    {store : Ctx → List UInt8 → Ctx} {pump : Ctx → Ctx × Bool} {c : Ctx}
    {result : Ctx × SocksState} (ends : ∀ c, Extends c (ended c))
    (stores : ∀ c octets, Extends c (store c octets))
    (pumps : ∀ c, Extends c (pump c).1)
    (effect : RelayEffect source buffer ended store pump c result) :
    Extends c result.1 ∧ result.2.negotiating = false := by
  cases effect with
  | full => exact copyUpdate_frame c
  | again e =>
      obtain ⟨same, settled⟩ := copyUpdate_frame (c.call (.recvFailed source e))
      exact ⟨(Extends.call c rfl).trans same, settled⟩
  | failed e =>
      obtain ⟨same, settled⟩ :=
        copyUpdate_frame (ended (c.call (.recvFailed source e)))
      exact ⟨((Extends.call c rfl).trans (ends _)).trans same, settled⟩
  | closed =>
      obtain ⟨same, settled⟩ :=
        copyUpdate_frame (ended (c.call (.recv source [])))
      exact ⟨((Extends.call c rfl).trans (ends _)).trans same, settled⟩
  | @relayed octets some fits =>
      obtain ⟨same, settled⟩ := pumpThenUpdate_frame
        (pump (store (c.call (.recv source octets)) octets))
      exact ⟨(((Extends.call c rfl).trans (stores _ octets)).trans
        (pumps _)).trans same, settled⟩

theorem copyRead_frame (key : Key) (a : Answers) (c : Ctx) :
    Extends c (copyRead key a c).1 ∧
      (copyRead key a c).2.negotiating = false := by
  unfold copyRead
  split
  · refine relayEffect_frame ?_ extends_storeFromClient (extends_pumpToOrigin a)
      (copyReadClient_effect a c)
    exact fun _ => .silent rfl rfl rfl rfl
  · refine relayEffect_frame ?_ extends_storeFromOrigin (extends_pumpToClient a)
      (copyReadOrigin_effect a c)
    exact fun _ => .silent rfl rfl rfl rfl

theorem copyWrite_frame (key : Key) (a : Answers) (c : Ctx) :
    Extends c (copyWrite key a c).1 ∧
      (copyWrite key a c).2.negotiating = false := by
  unfold copyWrite
  split
  · obtain ⟨same, settled⟩ := pumpThenUpdate_frame (pumpToClient a c)
    exact ⟨(extends_pumpToClient a c).trans same, settled⟩
  · obtain ⟨same, settled⟩ := pumpThenUpdate_frame (pumpToOrigin a c)
    exact ⟨(extends_pumpToOrigin a c).trans same, settled⟩

theorem readEffect_frame {Parser : Type} {feed : Parser → UInt8 → Parser}
    {finished : Parser → Bool} {parser : Parser}
    {store : Ctx → Parser → Buffer → Ctx} {self : SocksState}
    {complete : Ctx → Ctx × SocksState} {c : Ctx} {result : Ctx × SocksState}
    (settled : self.negotiating = false)
    (stores : ∀ c q buffer, buffer.limit = c.s.readBuffer.limit →
      Extends c (store c q buffer))
    (completes : ∀ c, Extends c (complete c).1 ∧
      (complete c).2.negotiating = false)
    (effect : ReadEffect feed finished parser store self complete c result) :
    Extends c result.1 ∧ result.2.negotiating = false := by
  cases effect with
  | again e => exact ⟨.call c rfl, settled⟩
  | failed e => exact ⟨.call c rfl, rfl⟩
  | closed => exact ⟨.call c rfl, rfl⟩
  | partly some fits scanned content limit =>
      exact ⟨(Extends.call c rfl).trans (stores _ _ _ limit), settled⟩
  | completed some fits scanned content limit =>
      obtain ⟨same, result⟩ := completes (store _ _ _)
      exact ⟨((Extends.call c rfl).trans (stores _ _ _ limit)).trans same,
        result⟩

theorem writeEffect_frame {self : SocksState}
    {complete : Ctx → Ctx × SocksState} {c : Ctx} {result : Ctx × SocksState}
    (settled : self.negotiating = false)
    (completes : ∀ c, Extends c (complete c).1 ∧
      (complete c).2.negotiating = false)
    (effect : WriteEffect self complete c result) :
    Extends c result.1 ∧ result.2.negotiating = false := by
  cases effect with
  | again e => exact ⟨.call c rfl, settled⟩
  | failed e => exact ⟨.call c rfl, rfl⟩
  | partly split content remains limit =>
      exact ⟨.calling rfl rfl rfl rfl limit, settled⟩
  | flushed content limit =>
      obtain ⟨same, result⟩ := completes _
      refine ⟨Extends.trans ?_ same, result⟩
      exact .calling rfl rfl rfl rfl limit

theorem requestRead_frame (key : Key) (a : Answers) (c : Ctx) :
    Extends c (requestRead key a c).1 ∧
      (requestRead key a c).2.negotiating = false := by
  refine readEffect_frame rfl ?_ (fun c => ?_) (requestRead_effect key a c)
  · exact fun _ _ _ limit => .calling rfl rfl rfl limit rfl
  · exact (requestCompleted_reaches key a c).imp_left Reaches.extends

theorem requestWrite_frame (key : Key) (a : Answers) (c : Ctx) :
    Extends c (requestWrite key a c).1 ∧
      (requestWrite key a c).2.negotiating = false :=
  writeEffect_frame rfl replySent_frame (requestWrite_effect key a c)

/-- A handler of a settled state does not negotiate, and does not go back. -/
theorem settled_frame {kind : EventKind} {key : Key} {a : Answers} {c : Ctx}
    {st : SocksState} {handler : Handler} {result : Ctx × SocksState}
    (settled : st.negotiating = false) (serves : Serves st kind handler)
    (ran : handler key a c = some result) :
    Extends c result.1 ∧ result.2.negotiating = false := by
  cases serves with
  | helloRead | helloWrite | authRead | authWrite => cases settled
  | requestRead => exact eq_of_total ran ▸ requestRead_frame key a c
  | resolvBlock =>
      exact eq_of_total ran ▸ (resolvBlock_reaches key a c).imp_left
        Reaches.extends
  | connectingWrite =>
      obtain ⟨reaches, result⟩ := connectingWrite_reaches ran
      exact ⟨reaches.extends, result.settled⟩
  | requestWrite => exact eq_of_total ran ▸ requestWrite_frame key a c
  | copyRead => exact eq_of_total ran ▸ copyRead_frame key a c
  | copyWrite => exact eq_of_total ran ▸ copyWrite_frame key a c

theorem limit_buildReply (s : Socks5) (rep : UInt8)
    (sockname : Option SockAddr) :
    (buildReply s rep sockname).writeBuffer.limit = s.writeBuffer.limit := by
  unfold buildReply
  rw [Buffer.limit_writeAll, Buffer.limit_reset]

theorem extends_jump (key : Key) (a : Answers) (next : SocksState) (c : Ctx) :
    Extends c (jump key a next c) := by
  have object := jump_s key a next c
  split at object
  · exact .silent (jump_calls ..) (by rw [object]) (by rw [object])
      (by rw [object])
  · cases next with
    | requestWrite =>
        exact .silent (jump_calls ..) (by rw [object]; rfl)
          (by rw [object]; rfl)
          (by rw [object]; exact limit_buildReply ..)
    | _ =>
        exact .silent (jump_calls ..) (by rw [object]; rfl)
          (by rw [object]; rfl)
          (by rw [object]; rfl)

@[simp] theorem jump_state (key : Key) (a : Answers) (next : SocksState)
    (c : Ctx) : (jump key a next c).s.state = next := by
  have object := jump_s key a next c
  rw [Socks5.state, object]
  split
  next stays => rw [stays]; rfl
  next => cases next <;> rfl

end SocksProxy
