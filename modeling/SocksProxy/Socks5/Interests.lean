import SocksProxy.Socks5.Calls
import SocksProxy.Socks5.Exchange
import SocksProxy.Socks5.Wiring

/-! What a relaying connection waits for: the interests that the handlers of
COPY leave in the selector. -/

namespace SocksProxy

open Transition

/-- In these states, and behind a reply of success, there is an origin. -/
def Landed (st : SocksState) (s : Socks5) : Prop :=
  st = .requestConnecting ∨ st = .copy ∨ st = .requestWrite ∧
    s.reply = repSuccess → s.originFd ≠ none

theorem Landed.refused {s : Socks5} (reply : UInt8)
    (refused : reply ≠ repSuccess) (same : s.reply = reply) :
    Landed .requestWrite s := by
  rintro (other | other | ⟨-, success⟩)
  · cases other
  · cases other
  · exact absurd (same.symm.trans success) refused

theorem Landed.elsewhere {st : SocksState} {s : Socks5}
    (elsewhere : st ≠ .requestConnecting ∧ st ≠ .copy ∧ st ≠ .requestWrite) :
    Landed st s := by
  rintro (same | same | ⟨same, -⟩)
  · exact absurd same elsewhere.1
  · exact absurd same elsewhere.2.1
  · exact absurd same elsewhere.2.2

theorem registerOrigin_connected {key : Key} {c after : Ctx} {fd : Fd}
    {i : Interest} (registered : registerOrigin key c fd i = (after, true)) :
    after.s.originFd = some fd := by
  unfold registerOrigin at registered
  split at registered <;> cases registered
  rfl

theorem tryCandidate_connected {key : Key} {a : Answers} {c after : Ctx}
    {next : SocksState} (entered : tryCandidate key a c = (after, some next)) :
    after.s.originFd ≠ none := by
  unfold tryCandidate at entered
  dsimp only at entered
  split at entered
  · cases entered
  · split at entered
    · cases entered
    · split at entered
      · split at entered <;> cases entered
        next registered =>
          have connected := registerOrigin_connected registered
          intro none
          exact absurd (connected.symm.trans none) (by simp)
      · split at entered
        · split at entered <;> cases entered
          next registered =>
            rw [registerOrigin_connected registered]
            simp
        · cases entered

theorem tryCandidates_landed (key : Key) (a : Answers) (left : Nat) (c : Ctx) :
    Landed (tryCandidates key a left c).2 (tryCandidates key a left c).1.s := by
  induction left generalizing c with
  | zero =>
      unfold tryCandidates
      split
      next => exact .refused repHostUnreachable (by decide) rfl
      next refused => exact .refused _ refused rfl
  | succ left induction =>
      unfold tryCandidates
      split
      next entered => exact fun _ => tryCandidate_connected entered
      next => exact induction _

theorem startConnection_landed (key : Key) (a : Answers) (c : Ctx) :
    Landed (startConnection key a c).2 (startConnection key a c).1.s :=
  tryCandidates_landed key a _ _

theorem processRequest_landed (key : Key) (a : Answers) (c : Ctx) :
    Landed (processRequest key a c).2 (processRequest key a c).1.s := by
  unfold processRequest
  dsimp only
  split
  · exact .refused repCommandNotSupported (by decide) rfl
  · split
    · exact startConnection_landed key a _
    · split
      · exact startConnection_landed key a _
      · split
        · split
          · exact .refused repGeneralFailure (by decide) rfl
          · exact .elsewhere (by simp)
        · exact .refused repAtypNotSupported (by decide) rfl

theorem requestCompleted_landed (key : Key) (a : Answers) (c : Ctx) :
    Landed (requestCompleted key a c).2 (requestCompleted key a c).1.s := by
  unfold requestCompleted
  dsimp only
  split
  · exact .refused repGeneralFailure (by decide) rfl
  · exact processRequest_landed key a _

theorem resolvBlock_landed (key : Key) (a : Answers) (c : Ctx) :
    Landed (resolvBlock key a c).2 (resolvBlock key a c).1.s := by
  unfold resolvBlock
  dsimp only
  split
  · exact .refused repHostUnreachable (by decide) rfl
  · split
    · exact .refused repHostUnreachable (by decide) rfl
    · exact startConnection_landed key a _

theorem connectingWrite_landed {key : Key} {a : Answers} {c : Ctx}
    {result : Ctx × SocksState} (connected : c.s.originFd ≠ none)
    (ran : connectingWrite key a c = some result) :
    Landed result.2 result.1.s := by
  unfold connectingWrite at ran
  dsimp only at ran
  split at ran
  · cases ran
    exact fun _ => connected
  · obtain ⟨closed, -, started⟩ := Option.map_eq_some_iff.mp ran
    rw [← started]
    exact startConnection_landed key a _

theorem handler_landed {kind : EventKind} {key : Key} {a : Answers} {c : Ctx}
    {st : SocksState} {handler : Handler} {result : Ctx × SocksState}
    (landed : Landed st c.s) (serves : Serves st kind handler)
    (ran : handler key a c = some result) : Landed result.2 result.1.s := by
  have follows := handler_next serves ran
  have early
      (plain :
      st.successors.all (fun next => decide (next ≠ .requestConnecting ∧
      next ≠ .copy ∧ next ≠ .requestWrite)) = true) :
      Landed result.2 result.1.s :=
    .elsewhere (of_decide_eq_true (List.all_eq_true.mp plain _ follows))
  have copied {kind : EventKind} {handler : Handler}
      (serves : Serves .copy kind handler)
      (ran : handler key a c = some result) :
      result.1.s.originFd = c.s.originFd :=
    @copy_field _ Socks5.originFd _ _ _ _ _ _
      ⟨fun _ _ _ => rfl, fun _ _ _ => rfl, fun _ _ _ => rfl, fun _ _ => rfl⟩
        serves ran
  cases serves with
  | helloRead | helloWrite | authRead | authWrite => exact early rfl
  | requestRead =>
      have effect := requestRead_effect key a c
      rw [eq_of_total ran] at effect
      cases effect with
      | again | failed | closed | partly => exact .elsewhere (by simp)
      | completed => exact requestCompleted_landed key a _
  | resolvBlock => exact eq_of_total ran ▸ resolvBlock_landed key a c
  | connectingWrite => exact connectingWrite_landed (landed (.inl rfl)) ran
  | requestWrite =>
      have effect := requestWrite_effect key a c
      rw [eq_of_total ran] at effect
      cases effect with
      | again => exact landed
      | failed => exact .elsewhere (by simp)
      | partly => exact landed
      | flushed =>
          unfold replySent
          dsimp only
          split
          next => exact .elsewhere (by simp)
          next success =>
            exact fun _ => landed (.inr (.inr ⟨rfl, not_not.mp success⟩))
  | copyRead => exact fun _ => copied .copyRead ran ▸ landed (.inr (.inl rfl))
  | copyWrite => exact fun _ => copied .copyWrite ran ▸ landed (.inr (.inl rfl))

theorem Landed.jump {next : SocksState} {c : Ctx} (landed : Landed next c.s)
    (key : Key) (a : Answers) :
    Landed next (SocksProxy.jump key a next c).s := by
  rw [jump_s]
  split
  · exact landed
  · cases next <;> exact landed

theorem landed_step {p : Ptr} {s next : Socks5} {calls : List Call}
    (landed : Landed s.state s) (step : ConnectionStep p s calls next) :
    Landed next.state next := by
  cases step with
  | resolved answer => exact landed
  | @handled kind fd a env after hosts runs =>
      obtain ⟨middle, next, handled⟩ := handled_of_handler runs
      obtain ⟨handler, serves, ran⟩ := handled.runs
      have jumped := (handler_landed landed serves ran).jump ⟨fd, p⟩ a
      have state := handled.state
      obtain ⟨references, object⟩ := handled.closes.object
      rw [state, object]
      exact jumped

theorem landed_of_run {p : Ptr} {first s : Socks5} {labels : List (List Call)}
    (accepted : Accepted first) (run : (connection p).Run first labels s) :
    Landed s.state s := by
  have preserved : ∀ {s calls next}, Landed (Socks5.state s) s →
      (connection p).step s calls next → Landed next.state next :=
    fun landed step => landed_step landed step
  refine run.invariant @preserved ?_
  obtain ⟨config, clientFd, blocks, old, prepared, address, made, rfl⟩ :=
    accepted
  obtain ⟨rawRead, rawWrite, readBlock, writeBlock, rfl⟩ := prepare_eq made
  exact .elsewhere (by simp [Socks5.state, initialise, initialState])

structure Poised (p : Ptr) (c : Ctx) : Prop where
  hosts : Hosts p c.env c.s
  connected : c.s.originFd ≠ none
  spacious : Spacious c.s
  toOrigin : c.s.readBuffer.Rewound
  toClient : c.s.writeBuffer.Rewound

theorem Poised.moved {p : Ptr} {before after : Ctx} (poised : Poised p before)
    (selector : after.env.selector = before.env.selector)
    (clientFd : after.s.clientFd = before.s.clientFd)
    (originFd : after.s.originFd = before.s.originFd)
    (readLimit : after.s.readBuffer.limit = before.s.readBuffer.limit)
    (writeLimit : after.s.writeBuffer.limit = before.s.writeBuffer.limit)
    (toOrigin : after.s.readBuffer.Rewound)
    (toClient : after.s.writeBuffer.Rewound) :
    Poised p after := by
  obtain ⟨⟨client, origin⟩, connected, ⟨reading, writing⟩, -, -⟩ := poised
  unfold Registered at client origin
  rw [← selector, ← clientFd] at client origin
  rw [← originFd] at origin connected
  exact ⟨⟨client, origin⟩, connected,
    ⟨readLimit ▸ reading, writeLimit ▸ writing⟩, toOrigin, toClient⟩

theorem copyPump_rewound (dst : Fd) (sends : List SendAnswer) {b : Buffer}
    (rewound : b.Rewound) : (copyPump dst sends b).1.Rewound := by
  induction sends generalizing b with
  | nil =>
      unfold copyPump
      split <;> exact rewound
  | cons answer sends induction =>
      cases answer with
      | error e =>
          unfold copyPump
          split <;> exact rewound
      | accept count =>
          unfold copyPump
          dsimp only
          split
          · split
            · exact induction (Buffer.rewound_readAdv
                (List.length_take_le' _ _))
            · exact rewound
          · exact rewound

section Handlers

variable {p : Ptr} {c : Ctx}

theorem Poised.pumpToOrigin (poised : Poised p c) (a : Answers) :
    Poised p (SocksProxy.pumpToOrigin a c).1 :=
  poised.moved rfl rfl rfl (copyPump_frame ..).2 rfl
    (copyPump_rewound _ _ poised.toOrigin) poised.toClient

theorem Poised.pumpToClient (poised : Poised p c) (a : Answers) :
    Poised p (SocksProxy.pumpToClient a c).1 :=
  poised.moved rfl rfl rfl rfl (copyPump_frame ..).2 poised.toOrigin
    (copyPump_rewound _ _ poised.toClient)

theorem Poised.storeFromClient (poised : Poised p c) {octets : List UInt8}
    (some : octets ≠ []) (fits : octets.length ≤ c.s.readBuffer.space) :
    Poised p (SocksProxy.storeFromClient c octets) := by
  unfold SocksProxy.storeFromClient
  dsimp only
  split
  · exact poised.moved rfl rfl rfl (Buffer.limit_fill ..) rfl
      (Buffer.rewound_fill some fits) poised.toClient
  · exact poised.moved rfl rfl rfl (Buffer.limit_fill ..) rfl
      (Buffer.rewound_fill some fits) poised.toClient

theorem Poised.storeFromOrigin (poised : Poised p c) {octets : List UInt8}
    (some : octets ≠ []) (fits : octets.length ≤ c.s.writeBuffer.space) :
    Poised p (SocksProxy.storeFromOrigin c octets) :=
  poised.moved rfl rfl rfl rfl (Buffer.limit_fill ..) poised.toOrigin
    (Buffer.rewound_fill some fits)

theorem Poised.noted {after : Ctx} (poised : Poised p c)
    (env : after.env = c.env) (clientFd : after.s.clientFd = c.s.clientFd)
    (originFd : after.s.originFd = c.s.originFd)
    (readBuffer : after.s.readBuffer = c.s.readBuffer)
    (writeBuffer : after.s.writeBuffer = c.s.writeBuffer) : Poised p after :=
  poised.moved (by rw [env]) clientFd originFd (by rw [readBuffer])
    (by rw [writeBuffer])
    (readBuffer ▸ poised.toOrigin) (writeBuffer ▸ poised.toClient)

end Handlers

inductive Updated (p : Ptr) : Ctx × SocksState → Prop
  | updated {c : Ctx} (poised : Poised p c) : Updated p (copyUpdate c)
  | failed {c : Ctx} (poised : Poised p c) : Updated p (c, .done)

theorem updated_pumpThenUpdate {p : Ptr} {pumped : Ctx × Bool}
    (poised : Poised p pumped.1) : Updated p (pumpThenUpdate pumped) := by
  unfold pumpThenUpdate
  split
  · exact .failed poised
  · exact .updated poised

theorem relayEffect_updated {p : Ptr} {source : Fd} {buffer : Buffer}
    {ended : Ctx → Ctx} {store : Ctx → List UInt8 → Ctx}
    {pump : Ctx → Ctx × Bool} {c : Ctx} {result : Ctx × SocksState}
    (poised : Poised p c) (ends : ∀ c, Poised p c → Poised p (ended c))
    (stores : ∀ octets, octets ≠ [] → octets.length ≤ buffer.space →
      Poised p (store (c.call (.recv source octets)) octets))
    (pumps : ∀ c, Poised p c → Poised p (pump c).1)
    (effect : RelayEffect source buffer ended store pump c result) :
    Updated p result := by
  have called (made : Call) : Poised p (c.call made) :=
    poised.noted rfl rfl rfl rfl rfl
  cases effect with
  | full => exact .updated poised
  | again e => exact .updated (called _)
  | failed e => exact .updated (ends _ (called _))
  | closed => exact .updated (ends _ (called _))
  | @relayed octets some fits =>
      exact updated_pumpThenUpdate (pumps _ (stores octets some fits))

theorem copy_updated {p : Ptr} {kind : EventKind} {key : Key} {a : Answers}
    {c : Ctx} {handler : Handler} {result : Ctx × SocksState}
    (poised : Poised p c) (serves : Serves .copy kind handler)
    (ran : handler key a c = some result) :
    Updated p result := by
  have called (made : Call) : Poised p (c.call made) :=
    poised.noted rfl rfl rfl rfl rfl
  cases serves with
  | copyRead =>
      rw [← eq_of_total ran, copyRead]
      split
      · refine relayEffect_updated poised ?_ ?_ ?_ (copyReadClient_effect a c)
        · exact fun _ poised => poised.noted rfl rfl rfl rfl rfl
        · exact fun _ some fits => (called _).storeFromClient some fits
        · exact fun _ poised => poised.pumpToOrigin a
      · refine relayEffect_updated poised ?_ ?_ ?_ (copyReadOrigin_effect a c)
        · exact fun _ poised => poised.noted rfl rfl rfl rfl rfl
        · exact fun _ some fits => (called _).storeFromOrigin some fits
        · exact fun _ poised => poised.pumpToClient a
  | copyWrite =>
      rw [← eq_of_total ran, copyWrite]
      split
      · exact updated_pumpThenUpdate (poised.pumpToClient a)
      · exact updated_pumpThenUpdate (poised.pumpToOrigin a)

theorem readEffect_rewound {Parser : Type} {feed : Parser → UInt8 → Parser}
    {finished : Parser → Bool} {parser : Parser}
    {store : Ctx → Parser → Buffer → Ctx} {self : SocksState}
    {complete : Ctx → Ctx × SocksState} {c : Ctx} {result : Ctx × SocksState}
    (rewound : c.s.readBuffer.Rewound)
    (stores : ∀ c q buffer, (store c q buffer).s.readBuffer = buffer)
    (completes : ∀ c, (complete c).1.s.readBuffer = c.s.readBuffer)
    (effect : ReadEffect feed finished parser store self complete c result) :
    result.1.s.readBuffer.Rewound := by
  cases effect with
  | again | failed | closed => exact rewound
  | partly some fits scanned content limit rewound =>
      exact stores _ _ _ ▸ rewound
  | completed some fits scanned content limit rewound =>
      rw [completes, stores]
      exact rewound

theorem handler_rewound {kind : EventKind} {key : Key} {a : Answers} {c : Ctx}
    {st : SocksState} {handler : Handler} {result : Ctx × SocksState}
    (rewound : c.s.readBuffer.Rewound) (elsewhere : st ≠ .copy)
    (serves : Serves st kind handler) (ran : handler key a c = some result) :
    result.1.s.readBuffer.Rewound := by
  have reaches {after : Ctx} (reaches : Reaches c after) :
      after.s.readBuffer.Rewound := by
    obtain ⟨_, _, _, _, _, _, _, _, _, object⟩ := reaches.object
    rw [object]
    exact rewound
  have writes {self : SocksState} {complete : Ctx → Ctx × SocksState}
      (completes : ∀ c, (complete c).1.s.readBuffer = c.s.readBuffer)
      (effect : WriteEffect self complete c result) :
      result.1.s.readBuffer.Rewound :=
    @writeEffect_field _ Socks5.readBuffer _ _ _ _ (fun _ _ => rfl)
      completes effect ▸ rewound
  cases serves with
  | helloRead =>
      have ran := eq_of_total ran
      subst ran
      refine readEffect_rewound rewound (fun _ _ _ => rfl) ?_
        (helloRead_effect key a c)
      intro c
      unfold helloCompleted
      dsimp only
      split
      · rfl
      · rw [setInterestOrFail_s]
  | helloWrite =>
      have ran := eq_of_total ran
      subst ran
      refine writes ?_ (helloWrite_effect key a c)
      intro c
      split
      · rfl
      · rw [setInterestOrFail_s]
  | authRead =>
      have ran := eq_of_total ran
      subst ran
      refine readEffect_rewound rewound (fun _ _ _ => rfl) ?_
        (authRead_effect key a c)
      intro c
      unfold authCompleted
      dsimp only
      split
      · rfl
      · rw [setInterestOrFail_s]
  | authWrite =>
      have ran := eq_of_total ran
      subst ran
      refine writes ?_ (authWrite_effect key a c)
      intro c
      split
      · rfl
      · rw [setInterestOrFail_s]
  | requestRead =>
      have ran := eq_of_total ran
      subst ran
      refine readEffect_rewound rewound (fun _ _ _ => rfl) ?_
        (requestRead_effect key a c)
      intro c
      obtain ⟨_, _, _, _, _, _, _, _, _, object⟩ :=
        (requestCompleted_reaches key a c).1.object
      rw [object]
  | resolvBlock =>
      have ran := eq_of_total ran
      subst ran
      exact reaches (resolvBlock_reaches key a c).1
  | connectingWrite => exact reaches (connectingWrite_reaches ran).1
  | requestWrite =>
      have ran := eq_of_total ran
      subst ran
      refine writes ?_ (requestWrite_effect key a c)
      intro c
      unfold replySent
      dsimp only
      split <;> rfl
  | copyRead | copyWrite => exact absurd rfl elsewhere

theorem jump_readBuffer (key : Key) (a : Answers) (next : SocksState)
    (c : Ctx) :
    (jump key a next c).s.readBuffer = c.s.readBuffer := by
  rw [jump_s]
  split
  · rfl
  · cases next <;> rfl

theorem jump_writeBuffer (key : Key) (a : Answers) {next : SocksState} (c : Ctx)
    (elsewhere : next ≠ .requestWrite) :
    (jump key a next c).s.writeBuffer = c.s.writeBuffer := by
  rw [jump_s]
  split
  · rfl
  · cases next <;> first | rfl | contradiction

def Rested (s : Socks5) : Prop :=
  s.readBuffer.Rewound ∧ (s.state = .copy → s.writeBuffer.Rewound)

theorem Updated.rewound {p : Ptr} {result : Ctx × SocksState}
    (updated : Updated p result) :
    result.1.s.readBuffer.Rewound ∧ result.1.s.writeBuffer.Rewound := by
  cases updated with
  | failed poised => exact ⟨poised.toOrigin, poised.toClient⟩
  | @updated c poised =>
      have kept := @copyUpdate_field _ (fun s => (s.readBuffer, s.writeBuffer))
        (fun _ _ _ => rfl) c
      simp only [Prod.mk.injEq] at kept
      rw [kept.1, kept.2]
      exact ⟨poised.toOrigin, poised.toClient⟩

/-- A relaying connection that is registered meets all that the interests rely
on. -/
theorem poised_of_run {p : Ptr} {first s : Socks5} {labels : List (List Call)}
    {env : Env} (accepted : Accepted first)
    (run : (connection p).Run first labels s) (rested : Rested s)
    (copying : s.state = .copy) (hosts : Hosts p env s) :
    Poised p (Ctx.started ⟨env, s, [], false⟩) := by
  have connected : s.originFd ≠ none :=
    landed_of_run accepted run (.inr (.inl copying))
  exact ⟨⟨hosts.client, hosts.origin⟩, connected,
    (progress_of_run accepted run).spacious, rested.1, rested.2 copying⟩

theorem rested_of_run {p : Ptr} {first s : Socks5} {labels : List (List Call)}
    (accepted : Accepted first) (run : (connection p).Run first labels s) :
    Rested s := by
  induction run with
  | nil =>
      obtain ⟨config, clientFd, blocks, old, prepared, address, made, rfl⟩ :=
        accepted
      obtain ⟨rawRead, rawWrite, readBlock, writeBlock, rfl⟩ := prepare_eq made
      exact ⟨Buffer.rewound_init _ _, fun _ => Buffer.rewound_init _ _⟩
  | @snoc s last labels calls before step rested =>
      cases step with
      | resolved answer => exact rested
      | @handled kind fd a env after hosts runs =>
          obtain ⟨middle, next, handled⟩ := handled_of_handler runs
          obtain ⟨handler, serves, ran⟩ := handled.runs
          obtain ⟨references, object⟩ := handled.closes.object
          by_cases copying : s.state = .copy
          · have poised := poised_of_run accepted before rested copying hosts
            have rewound := (copy_updated poised (copying ▸ serves) ran).rewound
            have plain : next ≠ .requestWrite := by
              have follows := handler_next (copying ▸ serves) ran
              rintro rfl
              simp [SocksState.successors] at follows
            rw [object]
            refine ⟨?_, fun _ => ?_⟩
            · exact (jump_readBuffer ⟨fd, p⟩ a next middle).symm ▸ rewound.1
            · exact (jump_writeBuffer ⟨fd, p⟩ a middle plain).symm ▸ rewound.2
          · have reading := handler_rewound rested.1 copying serves ran
            refine ⟨?_, fun entered => ?_⟩
            · rw [object]
              exact (jump_readBuffer ⟨fd, p⟩ a next middle).symm ▸ reading
            · obtain ⟨-, -, buffer, -, rewound, -, -, same, -⟩ :=
                copy_entry copying runs entered
              rw [same]
              exact rewound

/-- What the selector waits for on behalf of a relaying connection: some event
for each direction that goes on, and no event that would have nothing to do. -/
structure Awake (selector : Selector) (s : Socks5) : Prop where
  toOrigin : ¬ (s.clientEof = true ∧ s.readBuffer.content = []) →
    selector.masterW s.originNumber = true ∨ selector.masterR s.clientFd = true
  toClient : ¬ (s.originEof = true ∧ s.writeBuffer.content = []) →
    selector.masterW s.clientFd = true ∨ selector.masterR s.originNumber = true
  writesOrigin : selector.masterW s.originNumber = true →
    s.readBuffer.content ≠ []
  writesClient : selector.masterW s.clientFd = true → s.writeBuffer.content ≠ []
  readsClient : selector.masterR s.clientFd = true →
    s.clientEof = false ∧ 0 < s.readBuffer.space
  readsOrigin : selector.masterR s.originNumber = true →
    s.originEof = false ∧ 0 < s.writeBuffer.space
  unfinished : ¬ Completed s

theorem interests_of_poised {p : Ptr} {c : Ctx} (poised : Poised p c) :
    (copyComputeInterests c).env.selector.items c.s.clientFd =
        some ⟨clientInterest c.s, .socks5, p⟩ ∧
      (copyComputeInterests c).env.selector.items c.s.originNumber =
        some ⟨originInterest c.s, .socks5, p⟩ := by
  obtain ⟨fd, found⟩ := Option.ne_none_iff_exists'.mp poised.connected
  obtain ⟨registered, apart⟩ := poised.hosts.origin fd found
  have number : c.s.originNumber = fd := by
    rw [Socks5.originNumber, found]
    rfl
  have client := (setInterest_owned poised.hosts.client (clientInterest c.s)).2
  have still :
      Registered p (c.setInterest c.s.clientFd (clientInterest c.s)).1.env
      fd := by
    obtain ⟨valid, i, item⟩ := registered
    exact ⟨valid, i, by rw [client, if_neg apart, item]⟩
  have origin := (setInterest_owned still (originInterest c.s)).2
  unfold copyComputeInterests
  dsimp only
  rw [Ctx.setInterest_s, found, number]
  dsimp only
  rw [origin, origin, if_neg apart.symm, if_pos rfl, client, if_pos rfl]
  exact ⟨rfl, rfl⟩

theorem Buffer.canWrite_of_empty {b : Buffer} (rewound : b.Rewound)
    (room : configMinBuffer ≤ b.limit) (nothing : b.content = []) :
    bufferCanWrite b = true := by
  rw [Buffer.canWrite_iff, rewound.space nothing]
  unfold configMinBuffer at room
  omega

theorem awake_of_poised {p : Ptr} {c : Ctx} (poised : Poised p c)
    (unfinished : ¬ Completed c.s) :
    Awake (copyComputeInterests c).env.selector c.s := by
  obtain ⟨client, origin⟩ := interests_of_poised poised
  have reads (fd : Fd) {i : Interest}
      (item : (copyComputeInterests c).env.selector.items fd =
        some ⟨i, .socks5, p⟩) :
      (copyComputeInterests c).env.selector.masterR fd = i.read := by
    rw [Selector.masterR, item]
    rfl
  have writes (fd : Fd) {i : Interest}
      (item : (copyComputeInterests c).env.selector.items fd =
        some ⟨i, .socks5, p⟩) :
      (copyComputeInterests c).env.selector.masterW fd = i.write := by
    rw [Selector.masterW, item]
    rfl
  have writable {b : Buffer} (free : bufferCanWrite b = true) : 0 < b.space :=
    Nat.pos_of_ne_zero ((Buffer.canWrite_iff b).mp free)
  refine ⟨?_, ?_, ?_, ?_, ?_, ?_, unfinished⟩
  · intro going
    rw [writes _ origin, reads _ client]
    by_cases nothing : c.s.readBuffer.content = []
    · have open_ : c.s.clientEof = false := by
        simpa [nothing] using going
      refine .inr ?_
      simp [clientInterest, open_,
        Buffer.canWrite_of_empty poised.toOrigin poised.spacious.1 nothing]
    · exact .inl ((Buffer.canRead_iff _).mpr nothing)
  · intro going
    rw [writes _ client, reads _ origin]
    by_cases nothing : c.s.writeBuffer.content = []
    · have open_ : c.s.originEof = false := by
        simpa [nothing] using going
      refine .inr ?_
      simp [originInterest, open_,
        Buffer.canWrite_of_empty poised.toClient poised.spacious.2 nothing]
    · exact .inl ((Buffer.canRead_iff _).mpr nothing)
  · rw [writes _ origin]
    exact (Buffer.canRead_iff _).mp
  · rw [writes _ client]
    exact (Buffer.canRead_iff _).mp
  · rw [reads _ client]
    intro reading
    obtain ⟨open_, free⟩ := Bool.and_eq_true_iff.mp reading
    exact ⟨by simpa using open_, writable free⟩
  · rw [reads _ origin]
    intro reading
    obtain ⟨open_, free⟩ := Bool.and_eq_true_iff.mp reading
    exact ⟨by simpa using open_, writable free⟩

theorem Updated.awake {p : Ptr} {result : Ctx × SocksState}
    (updated : Updated p result) (stays : result.2 = .copy) :
    Awake result.1.env.selector result.1.s := by
  cases updated with
  | failed poised => cases stays
  | @updated c poised =>
      have shut : Poised p (shutClientWrite (shutOriginWrite c)) := by
        have origin : Poised p (shutOriginWrite c) := by
          unfold shutOriginWrite
          split
          · exact poised.noted rfl rfl rfl rfl rfl
          · exact poised
        unfold shutClientWrite
        split
        · exact origin.noted rfl rfl rfl rfl rfl
        · exact origin
      unfold copyUpdate at stays ⊢
      dsimp only at stays ⊢
      split at stays
      · cases stays
      next going =>
        rw [if_neg going]
        change Awake _ (copyComputeInterests _).s
        rw [copyComputeInterests_s]
        refine awake_of_poised shut fun completed => going ?_
        rw [completed.clientEof, completed.originEof,
          (Buffer.canRead_eq_false_iff _).mpr completed.toOrigin,
          (Buffer.canRead_eq_false_iff _).mpr completed.toClient]
        rfl

section Runs

variable {p : Ptr} {first s : Socks5} {labels : List (List Call)}
  {kind : EventKind} {fd : Fd} {a : Answers} {env : Env} {c : Ctx}
  (accepted : Accepted first) (run : (connection p).Run first labels s)
  (hosts : Hosts p env s)
  (runs : socksv5Handler kind ⟨fd, p⟩ a ⟨env, s, [], false⟩ = some c)

include accepted run hosts runs

private theorem awake_entered (elsewhere : s.state ≠ .copy)
    (copying : c.s.state = .copy) :
    Awake c.env.selector c.s := by
  have rested := rested_of_run accepted run
  have spacious := (progress_of_run accepted run).spacious
  obtain ⟨state, success, buffer, content, rewound, limit, -, object, entry⟩ :=
    copy_entry elsewhere runs copying
  have connected : s.originFd ≠ none :=
    landed_of_run accepted run (.inr (.inr ⟨state, success⟩))
  have poised : Poised p ⟨env, c.s, c.calls, false⟩ := by
    rw [object]
    exact ⟨⟨hosts.client, hosts.origin⟩, connected,
      ⟨spacious.1, limit ▸ spacious.2⟩, rested.1, rewound⟩
  have open_ : c.s.clientEof = false := by
    rw [object]
  have awake := awake_of_poised poised fun completed =>
    absurd (completed.clientEof.symm.trans open_) (by simp)
  rwa [← entry] at awake

private theorem awake_staying (relaying : s.state = .copy)
    (copying : c.s.state = .copy) :
    Awake c.env.selector c.s := by
  have poised :=
    poised_of_run accepted run (rested_of_run accepted run) relaying hosts
  obtain ⟨middle, next, handled⟩ := handled_of_handler runs
  obtain ⟨handler, serves, ran⟩ := handled.runs
  have same : next = .copy := handled.state.symm.trans copying
  subst same
  have served : Serves .copy kind handler := relaying ▸ serves
  have current : middle.s.current = some .copy := by
    have kept := @copy_field _ Socks5.current _ _ _ _ _ _
      ⟨fun _ _ _ => rfl, fun _ _ _ => rfl, fun _ _ _ => rfl, fun _ _ => rfl⟩
        served ran
    exact kept.trans (congrArg some relaying)
  have after := handled.stays (by simp [SocksState.closing])
  rw [show jump ⟨fd, p⟩ a .copy middle = middle from if_pos current] at after
  rw [after]
  exact (copy_updated poised served ran).awake rfl

theorem awake_of_handler (copying : c.s.state = .copy) :
    Awake c.env.selector c.s := by
  by_cases relaying : s.state = .copy
  · exact awake_staying accepted run hosts runs relaying copying
  · exact awake_entered accepted run hosts runs relaying copying

/-- Whenever a handler leaves a connection in COPY, each direction that goes on
waits for an event, and no event is waited for in vain; and when both directions
are complete the connection does not stay there. -/
theorem relay_awake :
    (c.s.state = .copy → Awake c.env.selector c.s) ∧
      (s.state = .copy → Completed c.s → c.s.state = .done) := by
  have awake := awake_of_handler accepted run hosts runs
  refine ⟨awake, fun relaying completed => ?_⟩
  rcases (copy_step relaying (.handled hosts runs)).2 with copying | ⟨done, -⟩
  · exact absurd completed (awake copying).unfinished
  · exact done

end Runs

private def cloggedTurns : List Turn :=
  [⟨.read, 5, .receiving [0x05, 0x01, 0x00]⟩, ⟨.write, 5, .accepting [2]⟩,
    ⟨.read, 5,
      { Answers.receiving [0x05, 0x01, 0x00, 0x01, 127, 0, 0, 1, 0,
      80, 104, 105] with attempt := fun _ => ⟨0, true, 0⟩ }⟩,
    ⟨.write, 5, .accepting [10]⟩]

theorem relay_awake_clogged : ∃ r : Picked,
    r.after.s.clientEof = true ∧ r.after.s.readBuffer.content = [104, 105] ∧
      Awake r.after.env.selector r.after.s := by
  have expected : (replayAround 0 (soleEnv configInitDefaults usersInit 5 0)
      (freshConnection configInitDefaults 5) cloggedTurns
      ⟨.read, 5, .receiving []⟩ []).any
      (fun r => decide (r.after.s.state = .copy ∧ r.after.s.clientEof = true ∧
        r.after.s.readBuffer.content = [104, 105])) = true := by
    decide +kernel
  obtain ⟨r, replayed, facts⟩ := (Option.any_eq_true ..).mp expected
  obtain ⟨copying, ended, held⟩ := of_decide_eq_true facts
  obtain ⟨run, hosts, runs, -⟩ := picked_of_replay replayed
  exact ⟨r, ended, held,
    (relay_awake (accepted_fresh _ _) run hosts runs).1 copying⟩

end SocksProxy
