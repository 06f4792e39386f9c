import SocksProxy.Lib.Population
import SocksProxy.Server.Operating
import SocksProxy.Server.Shutdown

/-! What an iteration of the event loop does: every descriptor has its turn, in
order, and is served if `pselect` reported it and it still wants to be. -/

namespace SocksProxy

open Transition

/-- One half of the turn of a descriptor: whether the descriptor is in use and
wants the event then, and whether its callback is called. -/
structure Half where
  fd : Fd
  kind : EventKind
  used : Bool
  wanted : Bool
  called : Bool

/-- The halves of whole turns of the descriptors below a bound: one that is not
in use has no second half. -/
inductive Swept : Nat → List Half → Prop
  | nil : Swept 0 []
  | free {i : Nat} {acts : List Half} {first : Half} (before : Swept i acts)
      (fd : first.fd = i) (kind : first.kind = .read)
      (used : first.used = false) : Swept (i + 1) (acts ++ [first])
  | used {i : Nat} {acts : List Half} {first second : Half}
      (before : Swept i acts) (fd : first.fd = i) (kind : first.kind = .read)
      (used : first.used = true) (same : second.fd = i)
      (write : second.kind = .write) :
      Swept (i + 1) (acts ++ [first] ++ [second])

/-- How far an iteration over the descriptors up to `n` is. -/
def Phase.Along (n : Nat) (acts : List Half) : Phase → Prop
  | .visit i last => last = n ∧ i ≤ n ∧ Swept i acts
  | .visitWrite i last _ =>
      last = n ∧ i ≤ n ∧ ∃ before first, acts = before ++ [first] ∧
      Swept i before ∧ first.fd = i ∧ first.kind = .read ∧ first.used = true
  | .idle | .notify | .mainLoop | .stopped => Swept (n + 1) acts

theorem along_nextVisit {i n : Nat} {acts : List Half} (below : i ≤ n)
    (swept : Swept (i + 1) acts) : (Server.nextVisit i n).Along n acts := by
  unfold Server.nextVisit
  split
  next more => exact ⟨rfl, more, swept⟩
  next last =>
    obtain rfl : i = n := Nat.le_antisymm below (Nat.le_of_not_lt last)
    exact swept

namespace Server

variable {σ τ : Server} {event : Event} {n : Nat} {acts : List Half}

def wants (σ : Server) (i : Fd) : EventKind → Bool
  | .read => σ.env.selector.masterR i
  | .write => σ.env.selector.masterW i
  | .block => false

def half (σ : Server) (kind : EventKind) (i : Fd) : Half :=
  ⟨i, kind, (σ.env.selector.items i).isSome, σ.wants i kind, σ.passes i kind⟩

def halves (σ : Server) (event : Event) : List Half :=
  match σ.phase, event with
  | .visit i _, .visitRead _ => [σ.half .read i]
  | .visitWrite i _ _, .visitWrite _ => [σ.half .write i]
  | _, _ => []

theorem afterSelect_along (runs : σ.afterSelect = some τ)
    (swept : Swept (n + 1) acts) :
    τ.phase.Along n acts := by
  unfold afterSelect at runs
  split at runs
  · cases runs
    exact swept
  · obtain ⟨υ, -, same⟩ := Option.map_eq_some_iff.mp runs
    rw [← same]
    split <;> exact swept

theorem main_along (sound : σ.Sound) (step : σ.stepMain event = .next τ)
    (plain : ∀ readable writable, event ≠ .pselect readable writable)
    (along : σ.phase.Along n acts) :
    τ.phase.Along n (acts ++ σ.halves event) := by
  unfold stepMain at step
  split at step
  next => exact absurd rfl (plain _ _)
  next idle =>
    cases step
    unfold halves
    rw [idle] at along ⊢
    rw [List.append_nil]
    exact along
  next i last input phase =>
    have shown : σ.halves (.visitRead input) = [σ.half .read i] := by
      unfold halves
      rw [phase]
    rw [shown]
    rw [phase] at along
    obtain ⟨rfl, below, swept⟩ := along
    split at step
    next free =>
      cases step
      refine along_nextVisit below (.free swept rfl rfl ?_)
      exact congrArg Option.isSome free
    next item held =>
      obtain ⟨υ, -, same⟩ :=
        Option.map_eq_some_iff.mp (eq_some_of_ofOption step)
      rw [← same]
      exact ⟨rfl, below, acts, _, rfl, swept, rfl, rfl,
        congrArg Option.isSome held⟩
  next i last data input phase =>
    have shown : σ.halves (.visitWrite input) = [σ.half .write i] := by
      unfold halves
      rw [phase]
    rw [shown]
    rw [phase] at along
    obtain ⟨rfl, below, before, first, rfl, swept, fd, kind, used⟩ := along
    obtain ⟨υ, -, same⟩ := Option.map_eq_some_iff.mp (eq_some_of_ofOption step)
    rw [← same]
    exact along_nextVisit below (.used swept fd kind used rfl rfl)
  next input phase =>
    have shown : σ.halves (.job input) = [] := by
      unfold halves
      rw [phase]
    rw [shown, List.append_nil]
    split at step
    next => cases step
    next job rest queue =>
      rw [handleJob_phase sound queue (eq_some_of_ofOption step)]
      exact along
  next phase =>
    unfold halves
    rw [phase] at along ⊢
    rw [List.append_nil]
    split at step <;> cases step
    exact along
  next phase =>
    unfold halves
    rw [phase] at along ⊢
    rw [List.append_nil]
    exact afterSelect_along (eq_some_of_ofOption step) along
  next => cases step

theorem step_along (sound : σ.Sound) (step : σ.step event = .next τ)
    (plain : ∀ readable writable, event ≠ .pselect readable writable)
    (along : σ.phase.Along n acts) :
    τ.phase.Along n (acts ++ σ.halves event) := by
  have aside (phase : τ.phase = σ.phase) (shown : σ.halves event = []) :
      τ.phase.Along n (acts ++ σ.halves event) := by
    rw [phase, shown, List.append_nil]
    exact along
  cases event with
  | signal | foreignOpen =>
      cases step
      refine aside rfl ?_
      unfold halves
      cases σ.phase <;> rfl
  | connectDone fd e =>
      refine aside ?_ ?_
      · change σ.stepConnectDone fd e = .next τ at step
        unfold stepConnectDone at step
        split at step <;> cases step
        rfl
      · unfold halves
        cases σ.phase <;> rfl
  | foreignClose fd =>
      refine aside ?_ ?_
      · unfold Server.step at step
        dsimp only at step
        split at step <;> cases step
        rfl
      · unfold halves
        cases σ.phase <;> rfl
  | resolved index answer =>
      refine aside ?_ ?_
      · change σ.stepResolved index answer = .next τ at step
        unfold stepResolved at step
        split at step
        · split at step <;> cases step
          rfl
        · cases step
      · unfold halves
        cases σ.phase <;> rfl
  | notifyBlock index =>
      refine aside ?_ ?_
      · change σ.stepNotifyBlock index = .next τ at step
        unfold stepNotifyBlock at step
        split at step
        · cases step
        · split at step
          · split at step <;> cases step
            rfl
          · cases step
      · unfold halves
        cases σ.phase <;> rfl
  | _ => exact main_along sound step plain along

/-- What `pselect` reports: descriptors that somebody wants, and that are
ready. -/
def reports (σ : Server) (readable writable : Fd → Bool) (kind : EventKind)
    (fd : Fd) : Bool :=
  match kind with
  | .read => readable fd && σ.env.selector.masterR fd
  | .write => writable fd && σ.env.selector.masterW fd
  | .block => false

structure Reported (ready : EventKind → Fd → Bool) (σ : Server) : Prop where
  read : ∀ fd, σ.env.selector.slaveR fd = ready .read fd
  write : ∀ fd, σ.env.selector.slaveW fd = ready .write fd

theorem Reported.called {ready : EventKind → Fd → Bool}
    (reported : Reported ready σ) (event : Event) : ∀ half ∈ σ.halves event,
      half.called = (ready half.kind half.fd && half.wanted) := by
  have one {kind : EventKind} {i : Fd} (plain : kind ≠ .block) (half : Half)
      (among : half ∈ [σ.half kind i]) :
      half.called = (ready half.kind half.fd && half.wanted) := by
    rw [List.mem_singleton.mp among]
    cases kind with
    | read => exact congrArg (· && σ.env.selector.masterR i) (reported.read i)
    | write => exact congrArg (· && σ.env.selector.masterW i) (reported.write i)
    | block => exact absurd rfl plain
  unfold halves
  split
  · exact one (by simp)
  · exact one (by simp)
  · exact fun _ among => absurd among List.not_mem_nil

theorem Reported.step {ready : EventKind → Fd → Bool}
    (reported : Reported ready σ) (step : σ.step event = .next τ)
    (plain : ∀ readable writable, event ≠ .pselect readable writable) :
    Reported ready τ := by
  obtain ⟨reads, writes⟩ := (step_drives step).ready plain
  refine ⟨fun fd => ?_, fun fd => ?_⟩
  · rw [reads]
    exact reported.read fd
  · rw [writes]
    exact reported.write fd

end Server

/-- After `pselect` has returned, each descriptor in use up to then has its
turn, once and in ascending order; and in its turn it is served just if
`pselect` reported it and it is still registered for the event. -/
theorem iteration_covers {σ τ ω : Server} {readable writable : Fd → Bool}
    {events : List Event} {acts : List Half} (reachable : server.Reachable σ)
    (selected : server.step σ (.pselect readable writable) τ)
    (shown : server.Shown Server.halves τ events acts ω)
    (alone : ∀ readable writable, Event.pselect readable writable ∉ events) :
    (∀ fd, (σ.env.selector.items fd).isSome → fd ≤ σ.env.selector.maxFd) ∧
      ω.phase.Along σ.env.selector.maxFd acts ∧
      ∀ half ∈ acts, half.called =
        (σ.reports readable writable half.kind half.fd && half.wanted) := by
  refine ⟨(Server.spanned_of_reachable reachable).below, ?_⟩
  have fresh := reachable.step selected
  suffices along : ω.phase.Along σ.env.selector.maxFd acts ∧
      Server.Reported (σ.reports readable writable) ω ∧
      ∀ half ∈ acts, half.called =
        (σ.reports readable writable half.kind half.fd && half.wanted) from
    ⟨along.1, along.2.2⟩
  induction shown with
  | nil =>
      change σ.stepMain (.pselect readable writable) = .next _ at selected
      unfold Server.stepMain at selected
      cases phase : σ.phase <;> rw [phase] at selected <;> cases selected
      exact ⟨⟨rfl, Nat.zero_le _, .nil⟩, ⟨fun _ => rfl, fun _ => rfl⟩,
        fun _ among => absurd among List.not_mem_nil⟩
  | @snoc middle last events acts event before step induction =>
      have plain (readable writable : Fd → Bool) :
          event ≠ .pselect readable writable := by
        rintro rfl
        exact alone readable writable
          (List.mem_append_right _ List.mem_cons_self)
      obtain ⟨along, reported, called⟩ :=
        induction fun readable writable among =>
          alone readable writable (List.mem_append_left _ among)
      have sound : middle.Sound := by
        obtain ⟨first, labels, starts, run⟩ := fresh
        exact Server.sound_of_reachable
          ⟨first, _, starts, run.append before.run⟩
      refine ⟨Server.step_along sound step plain along,
        reported.step step plain, fun half among => ?_⟩
      rcases List.mem_append.mp among with earlier | now
      · exact called half earlier
      · exact reported.called event half now

/-- The listener of a server without clients has its turn, and nobody is there
to accept. -/
theorem iteration_covers_listening :
    ∃ (ω : Server) (acts : List Half), ω.phase = .notify ∧
    acts.map (fun half => (half.fd, half.kind, half.called)) =
      [(0, .read, true), (0, .write, false)] ∧ Swept 1 acts := by
  have reachable : server.Reachable (.opening configInitDefaults usersInit) :=
    ⟨_, [], Server.init_opening _ _, .nil _⟩
  obtain ⟨τ, selected⟩ :
      ∃ τ, server.step (.opening configInitDefaults usersInit)
      (.pselect (fun _ => true) fun _ => false) τ := ⟨_, rfl⟩
  obtain ⟨υ, reads⟩ :
      ∃ υ, server.step τ (.visitRead ⟨.idle, Server.unaccepted⟩) υ := by
    cases selected
    exact ⟨_, rfl⟩
  obtain ⟨ω, writes⟩ :
      ∃ ω, server.step υ (.visitWrite ⟨.idle, Server.unaccepted⟩) ω := by
    cases selected
    cases reads
    exact ⟨_, rfl⟩
  have shown : server.Shown Server.halves τ _ _ ω :=
    (System.Shown.nil τ).snoc reads |>.snoc writes
  have along := (iteration_covers reachable selected shown (by simp)).2.1
  have phase : ω.phase = .notify := by
    cases selected
    cases reads
    cases writes
    rfl
  rw [phase] at along
  refine ⟨ω, _, phase, ?_, along⟩
  cases selected
  cases reads
  rfl

end SocksProxy
