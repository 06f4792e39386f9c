import SocksProxy.Server.Effects

/-! Resolver threads end in any order, and a job says only at which descriptor
its connection waits.  Each still comes back, once, to the connection that
launched it. -/

namespace SocksProxy

open Transition

namespace Server

/-- The resolutions that were launched and not yet handled. -/
def unhandled (σ : Server) : List (Ptr × Nat) :=
  outstanding σ.env σ.env.selector.resolutionJobs

def launching (σ : Server) (event : Event) : List (Ptr × Nat) :=
  match σ.calling event with
  | some call =>
      if σ.env.nextTicket < call.after.env.nextTicket then
        [(call.p, σ.env.nextTicket)] else []
  | none => []

def finishing (σ : Server) (event : Event) : List (Ptr × Nat) :=
  (σ.handling event).toList.map fun job => (job.owner, job.ticket)

variable {σ τ : Server} {event : Event}

theorem Sound.waits (sound : σ.Sound) {entry : Ptr × Nat}
    (listed : entry ∈ σ.unhandled) :
    entry.1 ∈ σ.live :=
  ((sound.resolutions.awaited entry.1).mp (List.mem_map_of_mem listed)).1

/-- What a call leaves in the threads, when its connection has launched a
resolution. -/
theorem Upkept.launches {p : Ptr} {env : Env} {s : Socks5} {c : Ctx}
    (upkept : Upkept p env s c) (state : c.s.state = .requestResolv)
    (jobs : List Job) :
    (outstanding c.env jobs).Perm
      (outstanding env jobs ++ [(p, env.nextTicket)]) ∧
      c.env.nextTicket = env.nextTicket + 1 := by
  have threads := upkept.threads
  rw [if_pos state] at threads
  simp only [Env.threads, launched, Prod.mk.injEq] at threads
  refine ⟨?_, threads.2⟩
  unfold outstanding
  rw [threads.1, List.map_append, List.append_assoc, List.append_assoc]
  exact List.perm_append_comm.append_left _

theorem Upkept.waits {p : Ptr} {env : Env} {s : Socks5} {c : Ctx}
    (upkept : Upkept p env s c) (state : c.s.state ≠ .requestResolv)
    (jobs : List Job) :
    outstanding c.env jobs = outstanding env jobs ∧
      c.env.nextTicket = env.nextTicket := by
  have threads := upkept.threads
  rw [if_neg state] at threads
  simp only [Env.threads, Prod.mk.injEq] at threads
  refine ⟨?_, threads.2⟩
  unfold outstanding
  rw [threads.1]

/-- Between two states of the server, `launched` were launched and `finished`
were handled. -/
structure Settles (σ τ : Server) (launched finished : List (Ptr × Nat)) :
    Prop where
  balance : (finished ++ τ.unhandled).Perm (σ.unhandled ++ launched)
  tickets : List.range τ.env.nextTicket =
    List.range σ.env.nextTicket ++ launched.map Prod.snd

theorem step_settles (sound : σ.Sound) (step : σ.step event = .next τ) :
    Settles σ τ (σ.launching event) (σ.finishing event) := by
  cases step_effect sound step with
  | beside quiet unhandled beside =>
      unfold launching finishing
      rw [quiet, unhandled]
      refine ⟨?_, ?_⟩
      · rw [List.append_nil]
        exact beside.progress.outstanding
      · rw [beside.issued]
        exact (List.append_nil _).symm
  | @called call kind fd a env calling asked calls member object due wired runs
      upkept returns others after =>
      have jobs : τ.env.selector.resolutionJobs =
          env.selector.resolutionJobs := by
        rw [after]
        exact congrArg Background.jobs upkept.frame.background
      unfold launching finishing
      rw [calling]
      dsimp only
      cases calls with
      | visit plain unhandled reads writes =>
          rw [unhandled]
          by_cases state : call.after.s.state = .requestResolv
          · obtain ⟨balance, issued⟩ :=
              Upkept.launches upkept state σ.env.selector.resolutionJobs
            rw [if_pos (by omega)]
            refine ⟨?_, ?_⟩
            · unfold Server.unhandled
              rw [jobs, after]
              exact balance
            · rw [after, issued]
              exact List.range_succ
          · obtain ⟨balance, issued⟩ :=
              Upkept.waits upkept state σ.env.selector.resolutionJobs
            rw [if_neg (by omega)]
            refine ⟨?_, ?_⟩
            · unfold Server.unhandled
              rw [jobs, after, balance]
              exact .of_eq (List.append_nil _).symm
            · rw [after, issued]
              exact (List.append_nil _).symm
      | @job job rest handles queue owner =>
          have awaited : call.before.state = .requestResolv := by
            cases due with
            | block awaited => exact awaited
          have left : call.after.s.state ≠ .requestResolv := by
            have follows := upkept.follows
            rw [awaited] at follows
            intro again
            rw [again] at follows
            simp [SocksState.successors] at follows
          obtain ⟨balance, issued⟩ := Upkept.waits upkept left rest
          have same : call.after.env.nextTicket = σ.env.nextTicket := issued
          rw [handles, if_neg (by omega)]
          refine ⟨?_, ?_⟩
          · unfold Server.unhandled
            rw [jobs, after, queue]
            change ((job.owner, job.ticket) :: outstanding call.after.env
              rest).Perm _
            rw [balance, List.append_nil]
            exact List.perm_middle.symm
          · rw [after, same]
            exact (List.append_nil _).symm

theorem step_queue (sound : σ.Sound) (step : σ.step event = .next τ) {job : Job}
    (queued : job ∈ σ.env.selector.resolutionJobs) :
    job ∈ τ.env.selector.resolutionJobs ∨ σ.handling event = some job := by
  cases step_effect sound step with
  | beside quiet unhandled beside => exact .inl (beside.progress.queue queued)
  | called calling asked calls member object due wired runs upkept returns
        others after =>
      rw [after]
      have jobs := congrArg Background.jobs upkept.frame.background
      simp only [Env.background] at jobs
      rw [jobs]
      cases calls with
      | visit => exact .inl queued
      | job handles queue owner =>
          rw [queue] at queued
          rcases List.mem_cons.mp queued with rfl | later
          · exact .inr handles
          · exact .inl later

/-- A job is handled by the handler of the connection that it is for. -/
theorem step_handles (sound : σ.Sound) (step : σ.step event = .next τ)
    {job : Job} (handling : σ.handling event = some job) :
    job ∈ σ.env.selector.resolutionJobs ∧ ∃ call, σ.calling event = some call ∧
      call.p = job.owner ∧ Awaits σ job call.before := by
  cases step_effect sound step with
  | beside quiet unhandled beside =>
      rw [unhandled] at handling
      cases handling
  | called calling asked calls member object due wired runs upkept returns
        others after =>
      cases calls with
      | visit plain unhandled reads writes =>
          rw [unhandled] at handling
          cases handling
      | job handles queue owner =>
          rw [handles] at handling
          cases handling
          have queued := queue ▸ List.mem_cons_self
          obtain ⟨s, awaits⟩ := sound.steady.awaits queued
          have same := awaits.object
          rw [owner, object] at same
          cases same
          exact ⟨queued, _, calling, owner.symm, awaits⟩

theorem step_concerns (sound : σ.Sound) (step : σ.step event = .next τ)
    {entry : Ptr × Nat}
    (listed : entry ∈ σ.launching event ∨ entry ∈ σ.finishing event ∨
      entry ∈ τ.unhandled) :
    entry.1 ∈ σ.live := by
  have launched (listed : entry ∈ σ.launching event) : entry.1 ∈ σ.live := by
    unfold launching at listed
    cases step_effect sound step with
    | beside quiet unhandled beside =>
        rw [quiet] at listed
        cases listed
    | called calling asked calls member object due wired runs upkept returns
          others after =>
        rw [calling] at listed
        dsimp only at listed
        split at listed
        · rw [List.mem_singleton.mp listed]
          exact member
        · cases listed
  have settled (listed : entry ∈ σ.finishing event ++ τ.unhandled) :
      entry.1 ∈ σ.live := by
    rcases List.mem_append.mp
      ((step_settles sound step).balance.mem_iff.mp listed) with earlier | new
    · exact sound.waits earlier
    · exact launched new
  rcases listed with new | done | open_
  · exact launched new
  · exact settled (List.mem_append_left _ done)
  · exact settled (List.mem_append_right _ open_)

/-- A resolution: the address of its connection, the step at which the
connection that lives there arrived, and the ticket of its thread. -/
structure Resolution where
  conn : Ptr
  arrival : Nat
  ticket : Nat
  deriving DecidableEq

structure Ledger where
  server : Server
  steps : Nat
  arrival : Ptr → Nat
  launched : List Resolution
  answers : List (Nat × DnsAnswer)
  handled : List Resolution

def answering (σ : Server) : Event → List (Nat × DnsAnswer)
  | .resolved index answer =>
      match σ.env.resolvers[index]? with
      | some ⟨_, ticket, none⟩ => [(ticket, answer)]
      | _ => []
  | _ => []

namespace Ledger

def resolution (L : Ledger) (entry : Ptr × Nat) : Resolution :=
  ⟨entry.1, L.arrival entry.1, entry.2⟩

def record (L : Ledger) (event : Event) (τ : Server) : Ledger where
  server := τ
  steps := L.steps + 1
  arrival p := if p ∈ τ.live ∧ p ∉ L.server.live then L.steps else L.arrival p
  launched := L.launched ++ (L.server.launching event).map L.resolution
  answers := L.answers ++ L.server.answering event
  handled := L.handled ++ (L.server.finishing event).map L.resolution

end Ledger

def ledger : System Ledger Event where
  init L := server.init L.server ∧ L.launched = [] ∧ L.answers = [] ∧
    L.handled = []
  step L event M := ∃ τ, L.server.step event = .next τ ∧ M = L.record event τ

theorem ledger_of_reachable {σ : Server} (reachable : server.Reachable σ) :
    ∃ L, ledger.Reachable L ∧ L.server = σ := by
  obtain ⟨first, events, starts, run⟩ := reachable
  induction run with
  | nil =>
      exact ⟨⟨first, 0, fun _ => 0, [], [], []⟩,
        ⟨_, [], ⟨starts, rfl, rfl, rfl⟩, .nil _⟩, rfl⟩
  | snoc before step induction =>
      obtain ⟨L, recorded, rfl⟩ := induction
      exact ⟨_, recorded.step ⟨_, step, rfl⟩, rfl⟩

/-- Every resolution that was launched is running, or waits in the queue, or was
handled, and its connection is still the one that launched it. -/
structure Balanced (L : Ledger) : Prop where
  balance : (L.handled ++ L.server.unhandled.map L.resolution).Perm L.launched
  tickets : L.launched.map Resolution.ticket =
    List.range L.server.env.nextTicket

theorem balanced_step {L : Ledger} (sound : L.server.Sound)
    (balanced : Balanced L) (step : L.server.step event = .next τ) :
    Balanced (L.record event τ) := by
  obtain ⟨balance, tickets⟩ := step_settles sound step
  have same : ∀ entry ∈ τ.unhandled, (L.record event τ).resolution entry =
      L.resolution entry := by
    intro entry listed
    have there := step_concerns sound step (.inr (.inr listed))
    unfold Ledger.resolution Ledger.record
    dsimp only
    rw [if_neg fun arrives => arrives.2 there]
  refine ⟨?_, ?_⟩
  · change ((L.handled ++ _) ++ τ.unhandled.map _).Perm (L.launched ++ _)
    rw [List.map_congr_left same]
    have moved := (balance.map L.resolution).append_left L.handled
    simp only [List.map_append, ← List.append_assoc] at moved
    exact moved.trans (balanced.balance.append_right _)
  · change List.map _ (L.launched ++ _) = List.range τ.env.nextTicket
    rw [List.map_append, balanced.tickets, tickets, List.map_map]
    rfl

structure Recorded (σ : Server) (answers : List (Nat × DnsAnswer)) : Prop where
  running : ∀ resolver ∈ σ.env.resolvers, ∀ answer ∈ resolver.answer,
    (resolver.ticket, answer) ∈ answers
  queued : ∀ job ∈ σ.env.selector.resolutionJobs,
    (job.ticket, job.answer) ∈ answers
  open_ : ∀ resolver ∈ σ.env.resolvers, resolver.answer = none →
    resolver.ticket ∉ answers.map Prod.fst
  issued : ∀ ticket ∈ answers.map Prod.fst, ticket < σ.env.nextTicket
  once : (answers.map Prod.fst).Nodup

theorem Sound.thread_tickets (sound : σ.Sound) :
    (σ.env.resolvers.map Resolver.ticket).Nodup := by
  have tickets := sound.resolutions.tickets
  unfold outstanding at tickets
  rw [List.map_append, List.map_map] at tickets
  exact (List.nodup_append.mp tickets).1

theorem answering_of_same (step : σ.step event = .next τ)
    (same : τ.env.resolvers = σ.env.resolvers) : σ.answering event = [] := by
  unfold answering
  split
  next index answer =>
    split
    next conn ticket found =>
      unfold Server.step stepResolved at step
      dsimp only at step
      rw [found] at step
      dsimp only at step
      split at step
      · cases step
      · cases step
        have there := (List.getElem?_eq_some_iff.mp found).1
        have changed :=
          List.getElem?_set_self (a := ⟨conn, ticket, some answer⟩) there
        rw [show σ.env.resolvers.set index _ = _ from same, found] at changed
        cases changed
    next => rfl
  next => rfl

theorem Recorded.called {answers : List (Nat × DnsAnswer)}
    (recorded : Recorded σ answers)
    (running : ∀ resolver ∈ τ.env.resolvers, resolver ∈ σ.env.resolvers ∨
      resolver.answer = none ∧ resolver.ticket = σ.env.nextTicket)
    (queued : ∀ job ∈ τ.env.selector.resolutionJobs,
      job ∈ σ.env.selector.resolutionJobs)
    (issued : σ.env.nextTicket ≤ τ.env.nextTicket) : Recorded τ answers := by
  refine ⟨fun resolver listed answer given => ?_,
    fun job listed => recorded.queued job (queued job listed),
    fun resolver listed waits => ?_, fun ticket listed => ?_, recorded.once⟩
  · rcases running resolver listed with earlier | ⟨waits, -⟩
    · exact recorded.running resolver earlier answer given
    · rw [waits] at given
      cases given
  · rcases running resolver listed with earlier | ⟨-, ticket⟩
    · exact recorded.open_ resolver earlier waits
    · intro answered
      have below := recorded.issued _ answered
      omega
  · exact Nat.lt_of_lt_of_le (recorded.issued ticket listed) issued

theorem recorded_progress {answers : List (Nat × DnsAnswer)} (sound : σ.Sound)
    (after : τ.Sound) (recorded : Recorded σ answers)
    (step : σ.step event = .next τ) (progress : Progress σ event τ)
    (issued : τ.env.nextTicket = σ.env.nextTicket) :
    Recorded τ (answers ++ σ.answering event) := by
  cases progress with
  | same resolvers queue =>
      rw [answering_of_same step resolvers, List.append_nil]
      refine recorded.called (fun resolver listed => .inl ?_)
        (fun job listed => ?_) issued.ge
      · exact resolvers ▸ listed
      · exact queue ▸ listed
  | @queued index conn ticket answer fd notifies found resolvers queue =>
      subst notifies
      change Recorded τ (answers ++ [])
      rw [List.append_nil]
      refine ⟨fun resolver listed => ?_, fun job listed => ?_,
        fun resolver listed => ?_, fun ticket listed => ?_, recorded.once⟩
      · exact recorded.running resolver
          (List.mem_of_mem_eraseIdx (resolvers ▸ listed))
      · rw [queue] at listed
        rcases List.mem_cons.mp listed with rfl | earlier
        · exact recorded.running _ (List.mem_of_getElem? found) answer rfl
        · exact recorded.queued job earlier
      · exact recorded.open_ resolver
          (List.mem_of_mem_eraseIdx (resolvers ▸ listed))
      · rw [issued]
        exact recorded.issued ticket listed
  | @answered index conn ticket answer resolves found resolvers queue =>
      subst resolves
      have new : σ.answering (.resolved index answer) = [(ticket, answer)] := by
        unfold answering
        dsimp only
        rw [found]
      have member := List.mem_of_getElem? found
      have unanswered := recorded.open_ _ member rfl
      have stored :
          (⟨conn, ticket, some answer⟩ : Resolver) ∈ τ.env.resolvers := by
        rw [resolvers]
        exact List.mem_set (List.getElem?_eq_some_iff.mp found).1 _
      rw [new]
      refine ⟨fun resolver listed given holds => ?_, fun job listed => ?_,
        fun resolver listed waits => ?_, fun other listed => ?_, ?_⟩
      · rw [resolvers] at listed
        rcases List.mem_or_eq_of_mem_set listed with earlier | rfl
        · exact List.mem_append_left _
            (recorded.running resolver earlier given holds)
        · cases holds
          exact List.mem_append_right _ (List.mem_singleton.mpr rfl)
      · rw [queue] at listed
        exact List.mem_append_left _ (recorded.queued job listed)
      · have other : resolver.ticket ≠ ticket := by
          intro same
          have equal :=
            List.inj_on_of_nodup_map after.thread_tickets listed stored same
          rw [equal] at waits
          cases waits
        rw [List.map_append, List.mem_append, not_or]
        refine ⟨?_, fun same => other (List.mem_singleton.mp same)⟩
        rw [resolvers] at listed
        rcases List.mem_or_eq_of_mem_set listed with earlier | rfl
        · exact recorded.open_ resolver earlier waits
        · cases waits
      · rw [issued]
        rw [List.map_append] at listed
        rcases List.mem_append.mp listed with earlier | same
        · exact recorded.issued other earlier
        · rw [List.mem_singleton.mp same]
          refine sound.resolutions.issued ticket ?_
          exact List.mem_map.mpr ⟨(conn, ticket),
            List.mem_append_left _ (List.mem_map.mpr ⟨_, member, rfl⟩), rfl⟩
      · rw [List.map_append]
        exact List.Nodup.append recorded.once (List.nodup_singleton _)
          (List.disjoint_singleton.mpr unanswered)

theorem recorded_step {answers : List (Nat × DnsAnswer)} (sound : σ.Sound)
    (after : τ.Sound) (recorded : Recorded σ answers)
    (step : σ.step event = .next τ) :
    Recorded τ (answers ++ σ.answering event) := by
  cases step_effect sound step with
  | beside quiet unhandled beside =>
      exact recorded_progress sound after recorded step beside.progress
        beside.issued
  | @called call kind fd a env calling asked calls member object due wired runs
      upkept returns others same =>
      have quiet : σ.answering event = [] := by
        cases event <;> first | rfl | cases calling
      have jobs := congrArg Background.jobs upkept.frame.background
      simp only [Env.background] at jobs
      have threads : env.resolvers = σ.env.resolvers ∧
          env.nextTicket = σ.env.nextTicket ∧
          ∀ job ∈ env.selector.resolutionJobs,
          job ∈ σ.env.selector.resolutionJobs := by
        cases calls with
        | visit => exact ⟨rfl, rfl, fun _ => id⟩
        | job handles queue owner =>
            exact ⟨rfl, rfl, fun job => queue ▸ List.mem_cons_of_mem _⟩
      have changed := upkept.threads
      rw [quiet, List.append_nil]
      split at changed
      · simp only [Env.threads, launched, Prod.mk.injEq, threads.1, threads.2.1]
          at changed
        refine recorded.called (fun resolver listed => ?_)
          (fun job listed => ?_) ?_
        · rw [same, changed.1] at listed
          rcases List.mem_append.mp listed with earlier | new
          · exact .inl earlier
          · rw [List.mem_singleton.mp new]
            exact .inr ⟨rfl, rfl⟩
        · rw [same, jobs] at listed
          exact threads.2.2 job listed
        · rw [same, changed.2]
          exact Nat.le_succ _
      · simp only [Env.threads, Prod.mk.injEq, threads.1, threads.2.1]
          at changed
        refine recorded.called (fun resolver listed => .inl ?_)
          (fun job listed => ?_) ?_
        · rw [same, changed.1] at listed
          exact listed
        · rw [same, jobs] at listed
          exact threads.2.2 job listed
        · rw [same, changed.2]

structure Delivers (L : Ledger) : Prop where
  balance : (L.handled ++ L.server.unhandled.map L.resolution).Perm L.launched
  once : (L.launched.map Resolution.ticket).Nodup
  single : (L.server.unhandled.map Prod.fst).Nodup
  answers : (L.answers.map Prod.fst).Nodup
  awaited : ∀ job ∈ L.server.env.selector.resolutionJobs,
    (job.ticket, job.answer) ∈ L.answers ∧ ∃ s, Awaits L.server job s
  kept : ∀ event M, ledger.step L event M →
    ∀ job ∈ L.server.env.selector.resolutionJobs,
    job ∈ M.server.env.selector.resolutionJobs ∨
    L.server.handling event = some job
  handled : ∀ event M job, ledger.step L event M →
    L.server.handling event = some job →
    job ∈ L.server.env.selector.resolutionJobs ∧
      L.resolution (job.owner, job.ticket) ∈ L.launched ∧
      ∃ call, L.server.calling event = some call ∧ call.p = job.owner ∧
        Awaits L.server job call.before

structure Ledger.Sound (L : Ledger) : Prop where
  server : L.server.Sound
  balanced : Balanced L
  recorded : Recorded L.server L.answers

theorem ledger_sound {L : Ledger} (reachable : ledger.Reachable L) :
    L.Sound := by
  apply reachable.invariant
  · rintro L ⟨starts, launched, answers, handled⟩
    have sound := sound_init starts
    obtain ⟨live, threads, -, -⟩ := init_unused starts
    simp only [Env.threads, Prod.mk.injEq] at threads
    have none : L.server.unhandled = [] := by
      refine List.eq_nil_iff_forall_not_mem.mpr fun entry listed => ?_
      have member := sound.waits listed
      rw [live] at member
      cases member
    have empty : L.server.env.resolvers = [] ∧
        L.server.env.selector.resolutionJobs = [] := by
      have parts := List.append_eq_nil_iff.mp none
      exact ⟨List.map_eq_nil_iff.mp parts.1, List.map_eq_nil_iff.mp parts.2⟩
    refine ⟨sound, ⟨?_, ?_⟩, ?_⟩
    · rw [launched, handled, none]
      exact .refl _
    · rw [launched, threads.2]
      rfl
    · rw [answers]
      refine ⟨fun resolver listed => ?_, fun job listed => ?_,
        fun _ _ _ => List.not_mem_nil, fun _ listed =>
          absurd listed List.not_mem_nil, List.nodup_nil⟩
      · rw [empty.1] at listed
        cases listed
      · rw [empty.2] at listed
        cases listed
  · rintro L event M ⟨server, balanced, recorded⟩ ⟨τ, step, rfl⟩
    have after : τ.Sound := by
      have proceeds := step_proceeds server event
      rw [step] at proceeds
      cases proceeds with
      | next sound => exact sound
    exact ⟨after, balanced_step server balanced step,
      recorded_step server after recorded step⟩

end Server

/-- What a resolver thread has found out goes to the connection that launched
the thread, once, in whatever order the threads end and whatever happens to
descriptors meanwhile. -/
theorem resolutions_delivered {L : Server.Ledger}
    (reachable : Server.ledger.Reachable L) :
    Server.Delivers L := by
  obtain ⟨sound, ⟨balance, tickets⟩, recorded⟩ := Server.ledger_sound reachable
  refine ⟨balance, ?_, sound.resolutions.single, recorded.once,
    fun job queued => ?_, ?_, ?_⟩
  · rw [tickets]
    exact List.nodup_range
  · exact ⟨recorded.queued job queued, sound.steady.awaits queued⟩
  · rintro event M ⟨τ, step, rfl⟩ job queued
    exact Server.step_queue sound step queued
  · rintro event M job ⟨τ, step, rfl⟩ handling
    obtain ⟨queued, called⟩ := Server.step_handles sound step handling
    refine ⟨queued, ?_, called⟩
    refine balance.mem_iff.mp (List.mem_append_right _ (List.mem_map_of_mem ?_))
    exact List.mem_append_right _ (List.mem_map.mpr ⟨job, queued, rfl⟩)

namespace Server

def Ledger.follow (L : Ledger) (event : Event) : Option Ledger :=
  (L.server.advance event).map (L.record event)

theorem step_of_follow {L M : Ledger} {event : Event}
    (follows : L.follow event = some M) :
    ledger.step L event M := by
  obtain ⟨τ, advances, rfl⟩ := Option.map_eq_some_iff.mp follows
  exact ⟨τ, step_of_advance advances, rfl⟩

private def askedByName (fd : Fd) (object : Ptr) : List Turn :=
  [.client 0 object, .readable fd (.receiving [0x05, 0x01, 0x00]),
    .writable fd (.accepting [2]),
    .readable fd
      { Answers.receiving [0x05, 0x01, 0x00, 0x03, 1, 97, 0, 80] with
        thread := true }]

private def crossedTurns : List Turn :=
  askedByName 1 7 ++ askedByName 2 8 ++
    [.event (.resolved 1 ⟨1, []⟩), .event (.notifyBlock 1),
      .iteration [] [] fun _ _ =>
      ⟨.idle, ⟨none, false, none, ⟨none, none⟩⟩⟩,
      .event (.resolved 0 ⟨0, [⟨.inet, [127, 0, 0, 1], 80⟩]⟩),
        .event (.notifyBlock 0)]

end Server

theorem resolutions_delivered_crossed :
    ∃ L : Server.Ledger, L.handled.map Server.Resolution.conn = [8] ∧
      L.server.env.selector.resolutionJobs.map Job.owner = [7] ∧
      Server.Delivers L := by
  have expected :
      ((Server.perform Server.Ledger.server Server.Ledger.follow 30
      Server.crossedTurns
      ⟨.opening configInitDefaults usersInit, 0, fun _ => 0, [], [], []⟩).any
        fun L =>
        decide (L.handled.map Server.Resolution.conn = [8] ∧
          L.server.env.selector.resolutionJobs.map Job.owner = [7])) =
            true := by
    decide +kernel
  obtain ⟨L, performs, facts⟩ := (Option.any_eq_true ..).mp expected
  obtain ⟨handled, queued⟩ := of_decide_eq_true facts
  obtain ⟨events, run⟩ := Server.run_of_perform Server.step_of_follow performs
  exact ⟨L, handled, queued,
    resolutions_delivered ⟨_, events, ⟨Server.init_opening _ _, rfl, rfl, rfl⟩,
      run⟩⟩

end SocksProxy
