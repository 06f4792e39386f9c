import SocksProxy.Server.Projection
import SocksProxy.Socks5.HalfClose
import SocksProxy.Socks5.Interests

/-! What the server waits for on behalf of its connections. -/

namespace SocksProxy

open Transition

theorem Awake.congr {left right : Selector} {s : Socks5} (awake : Awake left s)
    (client : right.items s.clientFd = left.items s.clientFd)
    (origin : right.items s.originNumber = left.items s.originNumber) :
    Awake right s := by
  have readsOf (fd : Fd) (same : right.items fd = left.items fd) :
      right.masterR fd = left.masterR fd :=
        congrArg (·.any fun item => item.interest.read) same
  have writesOf (fd : Fd) (same : right.items fd = left.items fd) :
      right.masterW fd = left.masterW fd :=
        congrArg (·.any fun item => item.interest.write) same
  constructor
  · rw [writesOf _ origin, readsOf _ client]
    exact awake.toOrigin
  · rw [writesOf _ client, readsOf _ origin]
    exact awake.toClient
  · rw [writesOf _ origin]
    exact awake.writesOrigin
  · rw [writesOf _ client]
    exact awake.writesClient
  · rw [readsOf _ client]
    exact awake.readsClient
  · rw [readsOf _ origin]
    exact awake.readsOrigin
  · exact awake.unfinished

/-- A connection does not stay in COPY when both directions are complete. -/
theorem uncompleted_of_run {p : Ptr} {first s : Socks5}
    {labels : List (List Call)} (accepted : Accepted first)
    (run : (connection p).Run first labels s) (copying : s.state = .copy) :
    ¬ Completed s := by
  induction run with
  | nil =>
      rw [accepted_helloRead accepted] at copying
      cases copying
  | snoc before step induction =>
      cases step with
      | handled hosts runs =>
          exact (awake_of_handler accepted before hosts runs copying).unfinished
      | resolved answer =>
          intro completed
          exact induction copying ⟨completed.1, completed.2, completed.3,
            completed.4⟩

namespace Server

variable {σ : Server} {p : Ptr} {s : Socks5}

/-- What a connection that is there waits for. -/
def WaitsFor (σ : Server) (p : Ptr) (s : Socks5) : Prop :=
  match s.state with
  | .helloRead | .authRead
  | .requestRead => σ.env.selector.masterR s.clientFd = true
  | .helloWrite | .authWrite
  | .requestWrite => σ.env.selector.masterW s.clientFd = true
  | .requestResolv =>
      p ∈ (outstanding σ.env σ.env.selector.resolutionJobs).map Prod.fst
  | .requestConnecting => σ.env.selector.masterW s.originNumber = true
  | .copy => Awake σ.env.selector s
  | .done | .errorState => False

/-- A connection of a reachable server is one that its own system reaches. -/
theorem connection_reachable (reachable : server.Reachable σ)
    (alive : p ∈ σ.live) (object : σ.heap p = some s) :
    (connection p).Reachable s := by
  obtain ⟨first, events, starts, run⟩ := reachable
  obtain ⟨acts, shown⟩ := run.shown (shows p)
  refine ((connectionPlace_follows p).succession starts shown).reachable ?_ ?_
    ⟨alive, object⟩
  · exact fun hosts vacant => vacant hosts.1
  · exact fun left right => Option.some.inj (left.2.symm.trans right.2)

theorem awake_of_wired (wired : Wired p σ.env s)
    (reaches : (connection p).Reachable s) (copying : s.state = .copy) :
    Awake σ.env.selector s := by
  obtain ⟨first, labels, accepted, run⟩ := reaches
  have rested := rested_of_run accepted run
  have poised : Poised p ⟨σ.env, s, [], false⟩ :=
    ⟨wired.held.hosts, landed_of_run accepted run (.inr (.inl copying)),
      (progress_of_run accepted run).spacious, rested.1, rested.2 copying⟩
  have awake := awake_of_poised poised (uncompleted_of_run accepted run copying)
  obtain ⟨client, origin⟩ := interests_of_poised poised
  have tuned := wired.tuned
  obtain ⟨fd, found⟩ := Option.ne_none_iff_exists'.mp poised.connected
  refine awake.congr ?_ ?_
  · refine Eq.trans ?_ client.symm
    rw [copying] at tuned
    exact tuned.client
  · refine Eq.trans ?_ origin.symm
    rw [copying] at tuned
    have number : s.originNumber = fd :=
      congrArg (Option.getD · itemsMaxSize) found
    rw [number]
    exact tuned.origin fd found

end Server

/-- Whatever state the server is in, each of its connections can go on: the
selector waits for the event that its state is about, or its resolution is
outstanding, and in COPY for what each direction needs and for nothing else. -/
theorem connections_wait {σ : Server} (reachable : server.Reachable σ) :
    ∀ p ∈ σ.live, ∃ s, σ.heap p = some s ∧ σ.WaitsFor p s := by
  intro p alive
  have sound := Server.sound_of_reachable reachable
  obtain ⟨s, object, wired, -⟩ := sound.roster.wired p alive
  refine ⟨s, object, ?_⟩
  have client := wired.tuned.client
  unfold Server.WaitsFor Selector.masterR Selector.masterW
  cases state : s.state with
  | helloRead | authRead | requestRead | helloWrite | authWrite
  | requestWrite =>
      rw [state] at client
      dsimp only
      rw [client]
      rfl
  | requestResolv =>
      exact (sound.resolutions.awaited p).mpr ⟨alive, s, object, state⟩
  | requestConnecting =>
      obtain ⟨fd, found⟩ :=
        Option.isSome_iff_exists.mp (wired.shaped.connecting state)
      have origin := wired.tuned.origin fd found
      have number : s.originNumber = fd :=
        congrArg (Option.getD · itemsMaxSize) found
      rw [state] at origin
      dsimp only
      rw [number, origin]
      rfl
  | copy =>
      have reaches := Server.connection_reachable reachable alive object
      exact Server.awake_of_wired wired reaches state
  | done => exact wired.lasts (.inl state)
  | errorState => exact wired.lasts (.inr state)

private def mixedTurns : List Server.Turn :=
  [.client 0 7, .readable 1 (.receiving [0x05, 0x01, 0x00]),
    .writable 1 (.accepting [2]),
    .readable 1
      { Answers.receiving [0x05, 0x01, 0x00, 0x01, 127, 0, 0, 1, 0, 80]
      with attempt := fun _ => ⟨0, true, 0⟩ }, .writable 1 (.accepting [10]),
    .client 0 9, .readable 3 (.receiving [0x05, 0x01, 0x00]),
    .writable 3 (.accepting [2])]

theorem connections_wait_mixed :
    ∃ (σ : Server) (s t : Socks5), σ.heap 7 = some s ∧ s.state = .copy ∧
      Awake σ.env.selector s ∧ σ.heap 9 = some t ∧ t.state = .requestRead ∧
      σ.env.selector.masterR t.clientFd = true := by
  have expected : ((Server.perform id Server.advance 30 mixedTurns
      (.opening configInitDefaults usersInit)).any fun σ =>
        decide (σ.live = [7, 9]) &&
          ((σ.heap 7).any (fun s => decide (s.state = .copy)) &&
          (σ.heap 9).any fun t => decide (t.state = .requestRead))) = true := by
    decide +kernel
  obtain ⟨σ, performs, facts⟩ := (Option.any_eq_true ..).mp expected
  obtain ⟨live, facts⟩ := Bool.and_eq_true_iff.mp facts
  obtain ⟨first, second⟩ := Bool.and_eq_true_iff.mp facts
  obtain ⟨s, relaying, copying⟩ := (Option.any_eq_true ..).mp first
  obtain ⟨t, asked, requesting⟩ := (Option.any_eq_true ..).mp second
  obtain ⟨events, run⟩ := Server.run_of_perform Server.step_of_advance performs
  have waits := connections_wait ⟨_, events, Server.init_opening _ _, run⟩
  rw [of_decide_eq_true live] at waits
  obtain ⟨u, here, awake⟩ := waits 7 List.mem_cons_self
  obtain ⟨v, there, reads⟩ :=
    waits 9 (List.mem_cons_of_mem _ List.mem_cons_self)
  obtain rfl : s = u := Option.some.inj (relaying.symm.trans here)
  obtain rfl : t = v := Option.some.inj (asked.symm.trans there)
  unfold Server.WaitsFor at awake reads
  rw [of_decide_eq_true copying] at awake
  rw [of_decide_eq_true requesting] at reads
  exact ⟨σ, s, t, here, of_decide_eq_true copying, awake, there,
    of_decide_eq_true requesting, reads⟩

end SocksProxy
