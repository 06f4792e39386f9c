import SocksProxy.Server.Runs

/-! What every reachable state of the server is like: no event aborts it, and
what it holds for its connections is accounted for. -/

namespace SocksProxy

open Transition

def FdHandler.has (handler : FdHandler) : EventKind → Bool
  | .read => handler.hasRead
  | .write => handler.hasWrite
  | .block => handler.hasBlock

namespace Server

/-- What the loops of the selector may pass to an item: what is ready and
wanted, and finished jobs. -/
inductive Dispatched (σ : Server) : EventKind → Fd → Item → Prop
  | read {fd : Fd} {item : Item} (held : σ.env.selector.items fd = some item)
      (ready : σ.env.selector.slaveR fd = true)
      (wanted : item.interest.read = true) : Dispatched σ .read fd item
  | write {fd : Fd} {item : Item} (held : σ.env.selector.items fd = some item)
      (ready : σ.env.selector.slaveW fd = true)
      (wanted : item.interest.write = true) : Dispatched σ .write fd item
  | block {job : Job} {item : Item}
      (queued : job ∈ σ.env.selector.resolutionJobs)
      (held : σ.env.selector.items job.fd = some item) :
      Dispatched σ .block job.fd item

/-- There is a callback, and for a connection an entry for its state. -/
def Answered (σ : Server) (kind : EventKind) (item : Item) : Prop :=
  item.handler.has kind = true ∧
    (item.handler = .socks5 → ∃ s handler, σ.heap item.data = some s ∧
      kind.ready (states s.state) = some handler)

variable {σ : Server}

theorem Sound.answered (sound : σ.Sound) {kind : EventKind} {fd : Fd}
    {item : Item} (dispatched : Dispatched σ kind fd item) :
    σ.Answered kind item := by
  have entry {p : Ptr} {s : Socks5} (object : σ.heap p = some s)
      (wired : Wired p σ.env s) (due : Due p σ.env s kind fd)
      (data : item.data = p) :
      ∃ s handler, σ.heap item.data = some s ∧ kind.ready (states s.state) =
        some handler := by
    obtain ⟨handler, ready⟩ := wired.ready due
    exact ⟨s, handler, data ▸ object, ready⟩
  cases dispatched with
  | read held ready wanted =>
      obtain ⟨interest, handler, p⟩ := item
      refine ⟨rfl, fun connection => ?_⟩
      obtain rfl : handler = .socks5 := connection
      obtain ⟨s, object, wired, -⟩ :=
        sound.roster.wired p (sound.registry.items fd _ held)
      exact entry object wired (.read held wanted) rfl
  | write held ready wanted =>
      obtain ⟨interest, handler, p⟩ := item
      refine ⟨?_, fun connection => ?_⟩
      · have hosted := sound.registry.items fd _ held
        cases handler with
        | socks5 | mgmt => rfl
        | socksListener | mgmtListener =>
            have asked : interest = opRead := hosted.2
            change interest.write = true at wanted
            rw [asked] at wanted
            cases wanted
      · obtain rfl : handler = .socks5 := connection
        obtain ⟨s, object, wired, -⟩ :=
          sound.roster.wired p (sound.registry.items fd _ held)
        exact entry object wired (.write held wanted) rfl
  | @block job item queued held =>
      obtain ⟨s, awaits⟩ := sound.steady.awaits queued
      obtain ⟨t, object, wired, -⟩ := sound.roster.wired _ awaits.live
      obtain rfl : s = t := Option.some.inj (awaits.object.symm.trans object)
      rw [awaits.item] at held
      cases held
      exact ⟨rfl, fun _ => entry object wired (.block awaits.state) rfl⟩

end Server

/-- No event that the loop can dispatch finds a callback or a state's entry
missing, and no step goes wrong. -/
theorem server_never_aborts {σ : Server} (reachable : server.Reachable σ) :
    (∀ kind fd item, σ.Dispatched kind fd item → σ.Answered kind item) ∧
      ∀ event, σ.step event ≠ .wrong := by
  have sound := Server.sound_of_reachable reachable
  refine ⟨fun kind fd item dispatched => sound.answered dispatched,
    fun event wrong => ?_⟩
  have proceeds := Server.step_proceeds sound event
  rw [wrong] at proceeds
  cases proceeds

private def connectedTurns : List Server.Turn :=
  [.client 0 7, .readable 1 (.receiving [0x05, 0x01, 0x00]),
    .writable 1 (.accepting [2]),
    .readable 1
      { Answers.receiving [0x05, 0x01, 0x00, 0x01, 127, 0, 0, 1, 0, 80]
      with attempt := fun _ => ⟨0, true, 0⟩ }]

theorem server_never_aborts_connected :
    ∃ (σ : Server) (item : Item), σ.Dispatched .write 1 item ∧
      σ.Answered .write item ∧
      ∀ event, σ.step event ≠ .wrong := by
  have expected : ((Server.perform id Server.advance 30
      (connectedTurns ++
        [.event (.pselect (fun _ => false) fun fd => decide (fd = 1))])
      (.opening configInitDefaults usersInit)).any fun σ =>
        σ.env.selector.slaveW 1 && (σ.env.selector.items 1).any fun item =>
          item.interest.write) = true := by
    decide +kernel
  obtain ⟨σ, performs, facts⟩ := (Option.any_eq_true ..).mp expected
  obtain ⟨ready, facts⟩ := Bool.and_eq_true_iff.mp facts
  obtain ⟨item, held, wanted⟩ := (Option.any_eq_true ..).mp facts
  obtain ⟨events, run⟩ := Server.run_of_perform Server.step_of_advance performs
  have safe := server_never_aborts ⟨_, events, Server.init_opening _ _, run⟩
  have dispatched : σ.Dispatched .write 1 item := .write held ready wanted
  exact ⟨σ, item, dispatched, safe.1 _ _ _ dispatched, safe.2⟩

namespace Server

def owns (σ : Server) (p : Ptr) (fd : Fd) : Bool :=
  (σ.env.selector.items fd).any fun item =>
    decide (item.handler = .socks5 ∧ item.data = p)

def itemsOf (σ : Server) (p : Ptr) : List Fd :=
  (List.range itemsMaxSize).filter (σ.owns p)

theorem owns_iff {σ : Server} {p : Ptr} {fd : Fd} :
    σ.owns p fd = true ↔ Owned p σ.env fd := by
  unfold owns Owned
  cases σ.env.selector.items fd with
  | none => simp
  | some item =>
      obtain ⟨interest, handler, data⟩ := item
      simp

structure Holds (σ : Server) (p : Ptr) (s : Socks5) : Prop where
  references : s.references = (σ.itemsOf p).length
  client : s.clientFd ∈ σ.itemsOf p
  origin : ∀ fd, s.originFd = some fd ↔ fd ∈ σ.itemsOf p ∧ fd ≠ s.clientFd
  rawRead : s.rawRead = some s.readBuffer.limit
  rawWrite : s.rawWrite = some s.writeBuffer.limit

structure Kept (σ : Server) : Prop where
  holds : ∀ p ∈ σ.live, ∃ s, σ.heap p = some s ∧ σ.Holds p s
  owners : ∀ p fd, fd ∈ σ.itemsOf p → p ∈ σ.live
  distinct : σ.live.Nodup
  unpooled : ∀ p ∈ σ.live, p ∉ σ.pool
  unshared : σ.pool.Nodup
  poolSize : σ.pool.length = σ.poolSize
  bounded : σ.poolSize ≤ maxPool
  connections : σ.env.metrics.currentConnections = σ.live.length
  opened : ∀ p fd, fd ∈ σ.itemsOf p → σ.env.kernel.socket fd = some .accepted ∨
    ∃ status, σ.env.kernel.socket fd = some (.origin status)
  origins : ∀ fd status, σ.env.kernel.socket fd = some (.origin status) →
    ∃ p, fd ∈ σ.itemsOf p
  clients : ∀ fd, σ.env.kernel.socket fd = some .accepted →
    (∃ p, fd ∈ σ.itemsOf p) ∨ ∃ item, σ.env.selector.items fd = some item ∧
    item.handler = .mgmt
  closes : σ.env.kernel.ebadf = 0

variable {σ : Server}

theorem Steady.mem_itemsOf {jobs : List Job} (steady : σ.Steady jobs) {p : Ptr}
    {fd : Fd} :
    fd ∈ σ.itemsOf p ↔ Owned p σ.env fd := by
  unfold itemsOf
  rw [List.mem_filter, List.mem_range, owns_iff]
  constructor
  · exact And.right
  · rintro ⟨i, held⟩
    have valid := of_decide_eq_false (steady.registry.valid fd _ held)
    exact ⟨Nat.lt_of_not_le valid, i, held⟩

theorem Steady.holds {jobs : List Job} (steady : σ.Steady jobs) {p : Ptr}
    {s : Socks5} (wired : Wired p σ.env s) (fitted : s.wiring.Fitted) :
    σ.Holds p s := by
  obtain ⟨client, -, origin, -, only, references⟩ := wired.held
  have distinct : (σ.itemsOf p).Nodup := List.nodup_range.filter _
  have others (fd : Fd) : s.originFd = some fd ↔ fd ∈ σ.itemsOf p ∧
      fd ≠ s.clientFd := by
    rw [steady.mem_itemsOf]
    constructor
    · exact fun same => ⟨(origin fd same).1.owned, (origin fd same).2⟩
    · exact fun ⟨owned, apart⟩ => (only fd owned).resolve_left apart
  have first : s.clientFd ∈ σ.itemsOf p := steady.mem_itemsOf.mpr client.owned
  refine ⟨?_, first, others, ?_, ?_⟩
  · have all : (σ.itemsOf p).Perm (s.clientFd :: s.originFd.toList) := by
      refine (List.perm_ext_iff_of_nodup distinct ?_).mpr fun fd => ?_
      · refine List.nodup_cons.mpr ⟨fun again => ?_, ?_⟩
        · exact ((others _).mp (Option.mem_toList.mp again)).2 rfl
        · cases s.originFd <;> simp
      · rw [List.mem_cons, Option.mem_toList, others]
        by_cases own : fd = s.clientFd
        · simp [own, first]
        · simp [own]
    rw [all.length_eq, List.length_cons]
    change s.wiring.references = _
    rw [references]
    change (if s.originFd.isSome then 2 else 1) = s.originFd.toList.length + 1
    cases s.originFd <;> rfl
  · exact fitted.rawRead.trans (congrArg some fitted.readLimit.symm)
  · exact fitted.rawWrite.trans (congrArg some fitted.writeLimit.symm)

theorem Sound.kept (sound : σ.Sound) : σ.Kept := by
  have steady := sound.steady
  have roster := sound.roster
  have registry := sound.registry
  have live {p : Ptr} {fd : Fd} (member : fd ∈ σ.itemsOf p) : p ∈ σ.live := by
    obtain ⟨i, held⟩ := steady.mem_itemsOf.mp member
    exact registry.items fd _ held
  refine ⟨fun p alive => ?_, fun p fd => live, roster.distinct,
    fun p alive pooled => roster.apart p pooled alive, roster.unshared,
    roster.poolSize.symm, roster.bounded, roster.connections, fun p fd member =>
      ?_, fun fd status open_ => ?_,
    fun fd open_ => ?_, registry.ebadf⟩
  · obtain ⟨s, object, wired, fitted⟩ := roster.wired p alive
    exact ⟨s, object, steady.holds wired fitted⟩
  · obtain ⟨s, object, wired, -⟩ := roster.wired p (live member)
    rcases wired.held.only fd (steady.mem_itemsOf.mp member) with rfl | origin
    · exact .inl wired.held.accepted
    · exact .inr (wired.held.connects fd origin)
  · have kind := kindAt_origin.mpr ⟨status, open_⟩
    obtain ⟨⟨interest, handler, p⟩, held⟩ :=
      Option.isSome_iff_exists.mp (registry.sockets fd _ kind)
    have hosted := registry.items fd _ held
    cases handler with
    | socks5 => exact ⟨p, steady.mem_itemsOf.mpr ⟨interest, held⟩⟩
    | mgmt | socksListener | mgmtListener =>
        have other := hosted.1
        rw [kind] at other
        cases other
  · have kind := kindAt_accepted.mpr open_
    obtain ⟨⟨interest, handler, p⟩, held⟩ :=
      Option.isSome_iff_exists.mp (registry.sockets fd _ kind)
    have hosted := registry.items fd _ held
    cases handler with
    | socks5 => exact .inl ⟨p, steady.mem_itemsOf.mpr ⟨interest, held⟩⟩
    | mgmt => exact .inr ⟨_, held, rfl⟩
    | socksListener | mgmtListener =>
        have other := hosted.1
        rw [kind] at other
        cases other

/-- A graceful shutdown waits for the last connection, and for no longer. -/
theorem Sound.stops (sound : σ.Sound) (once : σ.sigcount = 1) {τ : Server}
    (runs : σ.afterSelect = some τ) : τ.phase = .stopped ↔ σ.live = [] := by
  have stops {υ : Server} (shutting : υ.shuttingDown = true)
      (counted : υ.env.metrics.currentConnections = σ.live.length)
      (same : τ = if υ.shuttingDown ∧ υ.env.metrics.currentConnections = 0 then
        { υ with phase := .stopped } else { υ with phase := .idle }) :
      τ.phase = .stopped ↔ σ.live = [] := by
    rw [same, counted]
    by_cases none : σ.live = []
    · simp [shutting, none]
    · simp [shutting, none]
  unfold afterSelect at runs
  rw [if_neg (by omega)] at runs
  dsimp only at runs
  split at runs
  next =>
    obtain ⟨env, gone, steady, -⟩ := sound.unregistered
    rw [gone] at runs
    exact stops rfl steady.roster.connections (Option.some.inj runs).symm
  next already =>
    have shutting : σ.shuttingDown = true := by
      by_contra off
      exact already ⟨by omega, by simpa using off⟩
    exact stops shutting sound.roster.connections (Option.some.inj runs).symm

end Server

/-- Between two calls of its handlers the server's books are right; and after
one signal the main loop ends exactly when no connection is left. -/
theorem lifecycle {σ : Server} (reachable : server.Reachable σ) :
    σ.Kept ∧ ∀ τ, σ.phase = .mainLoop → σ.sigcount = 1 →
      σ.step .afterSelect = .next τ →
      (τ.phase = .stopped ↔ σ.live = []) := by
  have sound := Server.sound_of_reachable reachable
  refine ⟨sound.kept, fun τ phase once step => sound.stops once ?_⟩
  unfold Server.step Server.stepMain at step
  rw [phase] at step
  dsimp only at step
  cases after : σ.afterSelect with
  | none =>
      rw [after] at step
      cases step
  | some υ =>
      rw [after] at step
      cases step
      rfl

theorem lifecycle_connected :
    ∃ σ : Server, σ.live = [7] ∧ σ.itemsOf 7 = [1, 2] ∧ σ.Kept := by
  have expected : ((Server.perform id Server.advance 30 connectedTurns
      (.opening configInitDefaults usersInit)).any fun σ =>
        decide (σ.live = [7] ∧ σ.itemsOf 7 = [1, 2])) = true := by
    decide +kernel
  obtain ⟨σ, performs, facts⟩ := (Option.any_eq_true ..).mp expected
  obtain ⟨live, items⟩ := of_decide_eq_true facts
  obtain ⟨events, run⟩ := Server.run_of_perform Server.step_of_advance performs
  exact ⟨σ, live, items,
    (lifecycle ⟨_, events, Server.init_opening _ _, run⟩).1⟩

end SocksProxy
