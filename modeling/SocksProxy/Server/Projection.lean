import SocksProxy.Lib.Population
import SocksProxy.Server.Effects

/-! The server runs its connections beside each other.  What it does at one
address is one run of a connection after another, each from an accepted object
to a closing one. -/

namespace SocksProxy

open Transition

namespace Server

def storing (σ : Server) (p : Ptr) : Event → Bool
  | .resolved index _ =>
      (σ.env.resolvers[index]?).any fun resolver => resolver.conn == p
  | _ => false

/-- What a step is to the connection at an address: the calls of its handler,
none when an answer is stored, or nothing. -/
def shows (p : Ptr) (σ : Server) (event : Event) : List (List Call) :=
  if σ.storing p event then [[]]
  else
    match σ.calling event with
    | some call => if call.p = p then [call.after.calls] else []
    | none => []

/-- An address, and the connection that is accepted there. -/
def connectionPlace (p : Ptr) : Place Server Event Socks5 (List Call) where
  shows := shows p
  hosts σ s := p ∈ σ.live ∧ σ.heap p = some s
  vacant σ := p ∉ σ.live

variable {σ τ : Server} {event : Event} {p : Ptr}

theorem resolved_of_storing (answers : σ.storing p event = true) :
    ∃ index answer, event = .resolved index answer := by
  cases event with
  | resolved index answer => exact ⟨index, answer, rfl⟩
  | _ => cases answers

theorem shows_called {call : Called} {a : Answers}
    (asked : event.answers = some a) (calling : σ.calling event = some call) :
    shows p σ event = if call.p = p then [call.after.calls] else [] := by
  unfold shows
  rw [calling, if_neg]
  intro answers
  obtain ⟨index, answer, rfl⟩ := resolved_of_storing answers
  cases asked

theorem shows_silent (quiet : σ.calling event = none)
    (silent : ¬ σ.storing p event) :
    shows p σ event = [] := by
  unfold shows
  rw [quiet, if_neg silent]

theorem live_of_storing (sound : σ.Sound) (answers : σ.storing p event = true) :
    p ∈ σ.live := by
  obtain ⟨index, answer, rfl⟩ := resolved_of_storing answers
  obtain ⟨resolver, found, same⟩ := (Option.any_eq_true ..).mp answers
  rw [← beq_iff_eq.mp same]
  exact (sound.steady.asked (List.mem_of_getElem? found)).1

theorem entry_of_step (sound : σ.Sound) (step : σ.step event = .next τ)
    (vacant : p ∉ σ.live) :
    (connectionPlace p).Entry (connection p) σ event τ := by
  cases step_effect sound step with
  | beside quiet unhandled beside =>
      have silent := shows_silent quiet fun answers =>
        vacant (live_of_storing sound answers)
      rcases beside.live with same | ⟨q, s, new, more, object, accepted⟩
      · exact .stays silent fun alive => vacant (same ▸ alive)
      · by_cases own : q = p
        · subst own
          refine .arrives silent accepted ⟨?_, object⟩
          rw [more]
          exact List.mem_append_right _ (List.mem_singleton_self q)
        · refine .stays silent fun alive => ?_
          rw [more] at alive
          rcases List.mem_append.mp alive with earlier | same
          · exact vacant earlier
          · exact own (List.mem_singleton.mp same).symm
  | @called call kind fd a env calling asked calls member object due wired runs
      upkept returns others after =>
      have other : call.p ≠ p := fun same => vacant (same ▸ member)
      refine .stays ((shows_called asked calling).trans (if_neg other))
        fun alive => vacant ?_
      cases returns with
      | remains wired' kept left => exact left ▸ alive
      | ended closing free retires left =>
          rw [left] at alive
          exact List.mem_of_mem_erase alive

/-- A stored answer is a step of its connection, and of no other. -/
theorem onward_of_resolved {index : Nat} {answer : DnsAnswer} {s : Socks5}
    (step : σ.stepResolved index answer = .next τ) (alive : p ∈ σ.live)
    (object : σ.heap p = some s) :
    (connectionPlace p).Onward (connection p) (·.state.closing) σ
      (.resolved index answer) τ
      s := by
  unfold stepResolved at step
  split at step
  next conn ticket found =>
    split at step
    · cases step
    next t held =>
      cases step
      have answers : σ.storing p (.resolved index answer) = (conn == p) := by
        change (σ.env.resolvers[index]?).any _ = _
        rw [found]
        rfl
      by_cases own : conn = p
      · subst own
        obtain rfl : s = t := Option.some.inj (object.symm.trans held)
        refine .moves ?_ (.resolved answer) ⟨alive, Function.update_self ..⟩
        change shows conn σ _ = _
        unfold shows
        rw [if_pos (answers.trans (beq_self_eq_true conn))]
      · refine .rests (shows_silent rfl ?_) ⟨alive, ?_⟩
        · rw [answers, beq_iff_eq]
          exact own
        · exact (Function.update_of_ne (Ne.symm own) ..).trans object
  next => cases step

theorem onward_of_step {s : Socks5} (sound : σ.Sound)
    (step : σ.step event = .next τ) (alive : p ∈ σ.live)
    (object : σ.heap p = some s) :
    (connectionPlace p).Onward (connection p) (·.state.closing) σ
      event τ s := by
  cases step_effect sound step with
  | beside quiet unhandled beside =>
      rcases beside.objects p alive s object with same | ⟨index, answer, rfl, -⟩
      · by_cases answers : σ.storing p event = true
        · obtain ⟨index, answer, rfl⟩ := resolved_of_storing answers
          exact onward_of_resolved step alive object
        · refine .rests (shows_silent quiet answers) ⟨?_, same⟩
          rcases beside.live with same | ⟨q, t, new, more, -⟩
          · exact same ▸ alive
          · rw [more]
            exact List.mem_append_left _ alive
      · exact onward_of_resolved step alive object
  | @called call kind fd a env calling asked calls member held due wired runs
      upkept returns others after =>
      by_cases own : call.p = p
      · subst own
        obtain rfl : s = call.before := Option.some.inj (object.symm.trans held)
        have shown :=
          (shows_called (p := call.p) asked calling).trans (if_pos rfl)
        have taken :
            (connection call.p).step call.before call.after.calls
            call.after.s :=
          .handled ⟨wired.held.client, wired.held.origin⟩ runs
        cases returns with
        | remains wired' kept left =>
            exact .moves shown taken ⟨left ▸ alive, kept⟩
        | ended closing free retires left =>
            refine .ends shown taken closing fun still => ?_
            change call.p ∈ τ.live at still
            rw [left] at still
            exact sound.roster.distinct.not_mem_erase still
      · refine .rests ((shows_called asked calling).trans (if_neg own)) ⟨?_, ?_⟩
        · cases returns with
          | remains wired' kept left => exact left ▸ alive
          | ended closing free retires left =>
              rw [left]
              exact (List.mem_erase_of_ne (Ne.symm own)).mpr alive
        · exact (others p (Ne.symm own)).trans object

theorem connectionPlace_follows (p : Ptr) :
    (connectionPlace p).Follows (connection p) (·.state.closing) server := by
  refine ⟨fun starts alive => ?_, fun reachable step vacant => ?_,
    fun reachable step hosts => ?_⟩
  · have empty := (init_unused starts).live
    rw [empty] at alive
    cases alive
  · exact entry_of_step (sound_of_reachable reachable) step vacant
  · exact onward_of_step (sound_of_reachable reachable) step hosts.1 hosts.2

end Server

/-- In every run of the server, what it does at an address is one whole run of a
connection after another, and then the run of the connection that is there
now. -/
theorem server_hosts_connections {first last : Server} {events : List Event}
    {acts : List (List Call)} {p : Ptr} (starts : server.init first)
    (run : server.Shown (Server.shows p) first events acts last) :
    ∃ (lives : List (List (List Call))) (current : List (List Call)),
      acts = lives.flatten ++ current ∧
      (∀ life ∈ lives, ∃ s t, Accepted s ∧ (connection p).Run s life t ∧
        t.state.closing) ∧
      (p ∉ last.live ∧ current = [] ∨
        ∃ s t, Accepted s ∧ (connection p).Run s current t ∧ p ∈ last.live ∧
          last.heap p = some t) :=
  (Server.connectionPlace_follows p).succession starts run

private def succeedingTurns : List Server.Turn :=
  [.client 0 7, .readable 1 (.receiving []), .client 0 9,
    .readable 1 (.receiving [0x05, 0x01, 0x00])]

theorem server_hosts_connections_recycled :
    ∃ (σ : Server) (lives : List (List (List Call)))
      (current : List (List Call))
      (s t : Socks5),
        (∀ life ∈ lives, ∃ s t, Accepted s ∧ (connection 7).Run s life t ∧
        t.state.closing) ∧ Accepted s ∧ (connection 7).Run s current t ∧
      σ.heap 7 = some t ∧ t.state = .helloWrite := by
  have expected : ((Server.perform id Server.advance 30 succeedingTurns
      (.opening configInitDefaults usersInit)).any fun σ =>
        decide (7 ∈ σ.live) && (σ.heap 7).any fun s =>
            decide (s.state = .helloWrite)) = true := by
    decide +kernel
  obtain ⟨σ, performs, facts⟩ := (Option.any_eq_true ..).mp expected
  obtain ⟨alive, facts⟩ := Bool.and_eq_true_iff.mp facts
  obtain ⟨t, object, state⟩ := (Option.any_eq_true ..).mp facts
  obtain ⟨events, run⟩ := Server.run_of_perform Server.step_of_advance performs
  obtain ⟨acts, shown⟩ := run.shown (Server.shows 7)
  obtain ⟨lives, current, -, ended, ⟨gone, -⟩ |
    ⟨s, u, accepted, lasts, -, held⟩⟩ :=
    server_hosts_connections (Server.init_opening _ _) shown
  · exact absurd (of_decide_eq_true alive) gone
  · obtain rfl : t = u := Option.some.inj (object.symm.trans held)
    exact ⟨σ, lives, current, s, t, ended, accepted, lasts, held,
      of_decide_eq_true state⟩

end SocksProxy
