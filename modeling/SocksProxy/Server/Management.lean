import SocksProxy.Lib.Population
import SocksProxy.Mgmt.AuthGate
import SocksProxy.Server.Changes

/-! The management connections of the server.  What it does with one is a run of
that connection alone, and users and configuration change only behind its
gate. -/

namespace SocksProxy

open Transition

namespace MgmtCtx

/-- The same with calls from before. -/
def following (x : MgmtCtx) (before : List MgmtCall) : MgmtCtx :=
  { x with calls := before ++ x.calls }

variable (x : MgmtCtx) (before : List MgmtCall)

@[simp] theorem following_env : (x.following before).env = x.env := rfl
@[simp] theorem following_c : (x.following before).c = x.c := rfl
@[simp] theorem call_following (made : MgmtCall) :
    (x.following before).call made = (x.call made).following before := by
  unfold call following
  rw [List.append_assoc]

end MgmtCtx

section Following

variable (key : Key) (a : Answers) (x : MgmtCtx) (before : List MgmtCall)

theorem mgmtDone_following : mgmtDone key (x.following before) =
    (mgmtDone key x).map (·.following before) := by
  unfold mgmtDone
  rw [MgmtCtx.following_env]
  split
  · rfl
  · split
    · rfl
    · split <;> rfl

theorem mgmtProcessAuth_following : mgmtProcessAuth key (x.following before) =
    (mgmtProcessAuth key x).map (·.following before) := by
  unfold mgmtProcessAuth
  rw [MgmtCtx.following_c]
  generalize parseAuth x.c.rbuf.content = parsed
  dsimp only
  split
  · rfl
  · split
    · exact mgmtDone_following key x before
    · rw [MgmtCtx.call_following]
      rfl

theorem mgmtProcessRequest_following :
    mgmtProcessRequest key (x.following before) =
      (mgmtProcessRequest key x).map (·.following before) := by
  unfold mgmtProcessRequest
  rw [MgmtCtx.following_c]
  generalize parseRequest x.c.rbuf.content .zero = parsed
  dsimp only
  split
  · rfl
  · split
    · exact mgmtDone_following key { x with c := _ } before
    · rw [show ({ x.following before with
                  c := { x.c with wbuf := bufferReset x.c.wbuf } } :
          MgmtCtx) = MgmtCtx.following
            { x with c := { x.c with wbuf := bufferReset x.c.wbuf } }
            before from rfl]
      rw [MgmtCtx.call_following, MgmtCtx.call_following]
      split <;> rfl

theorem mgmtTryProcess_following : mgmtTryProcess key (x.following before) =
    (mgmtTryProcess key x).map (·.following before) := by
  unfold mgmtTryProcess
  rw [MgmtCtx.following_c]
  split
  · exact mgmtProcessAuth_following key x before
  · exact mgmtProcessRequest_following key x before
  · rfl
  · rfl

theorem mgmtRead_following : mgmtRead key a (x.following before) =
    (mgmtRead key a x).map (·.following before) := by
  unfold mgmtRead
  rw [MgmtCtx.following_c]
  split
  · exact mgmtDone_following key x before
  · split
    · rw [MgmtCtx.call_following]
      split
      · rfl
      · exact mgmtDone_following key _ before
    · dsimp only
      rw [MgmtCtx.call_following]
      split
      · exact mgmtDone_following key _ before
      · exact mgmtTryProcess_following key { x.call _ with c := _ } before

theorem mgmtWrite_following : mgmtWrite key a (x.following before) =
    (mgmtWrite key a x).map (·.following before) := by
  unfold mgmtWrite
  rw [MgmtCtx.following_c]
  split
  · rw [MgmtCtx.call_following]
    split
    · rfl
    · exact mgmtDone_following key _ before
  · dsimp only
    rw [MgmtCtx.call_following, MgmtCtx.following_c]
    split
    · rfl
    · split
      · exact mgmtDone_following key { x.call _ with c := _ } before
      · exact mgmtTryProcess_following key
          (MgmtCtx.setInterest { x.call _ with c := _ } opRead) before

end Following

namespace Server

variable {σ τ : Server} {event : Event} {key : Key}

theorem key_eq {left right : Key} (fd : left.fd = right.fd)
    (data : left.data = right.data) :
    left = right := by
  obtain ⟨leftFd, leftData⟩ := left
  cases fd
  cases data
  rfl

/-- A step that runs none of their handlers leaves them alone, but may admit a
new one. -/
inductive Tends (σ τ : Server) : Prop
  | same (items : ∀ fd i p, τ.env.selector.items fd = some ⟨i, .mgmt, p⟩ ↔
      σ.env.selector.items fd = some ⟨i, .mgmt, p⟩)
        (heap : τ.mgmtHeap = σ.mgmtHeap)
  | admits {fd : Fd} {p : Ptr} (valid : invalidFd fd = false)
      (free : σ.env.selector.items fd = none) (unused : σ.mgmtHeap p = none)
      (items : ∀ other, τ.env.selector.items other =
        if other = fd then some ⟨opRead, .mgmt, p⟩
        else σ.env.selector.items other)
      (heap : τ.mgmtHeap = Function.update σ.mgmtHeap p (some (mgmtNew fd)))

theorem Change.tends (change : Change σ event τ)
    (quiet : σ.managing event = none) :
    Tends σ τ ∧ τ.env.settings = σ.env.settings := by
  cases change with
  | managed managing =>
      rw [quiet] at managing
      cases managing
  | called quiet member slots settings live aloof =>
      refine ⟨.same (fun fd i p => ?_) (congrArg Prod.fst aloof), settings⟩
      rcases slots fd with same | ⟨before, after⟩
      · rw [same.1]
      · have other {env : Env} {q : Ptr} (mine : Mine q env fd) :
            env.selector.items fd ≠ some ⟨i, .mgmt, p⟩ := by
          intro held
          rcases mine with ⟨free, -⟩ | ⟨⟨j, owned⟩, -⟩
          · rw [free] at held
            cases held
          · rw [owned] at held
            cases held
        exact iff_of_false (other after) (other before)
  | welcomed quiet held listens registering live aloof =>
      obtain ⟨valid, free, items⟩ := registering.spot
      refine ⟨.same (fun other i p => ?_) (congrArg Prod.fst aloof),
        registering.settings⟩
      rw [items]
      split
      next same =>
        rw [same, free]
        simp
      next => rfl
  | admitted quiet held listens registering unused live aloof =>
      obtain ⟨valid, free, items⟩ := registering.spot
      exact ⟨.admits valid free unused items (congrArg Prod.fst aloof),
        registering.settings⟩
  | dismissed quiet before signalled empty dismisses phase =>
      obtain ⟨phase, rfl⟩ := phase
      refine ⟨.same (fun fd i p => ?_) dismisses.mgmtHeap, dismisses.settings⟩
      rcases dismisses.items fd with same | ⟨free, item, held, listens⟩
      · exact Eq.congr_left same
      · refine iff_of_false (fun kept => ?_) fun kept => ?_
        · rw [show _ = none from free] at kept
          cases kept
        · rw [show _ = some item from held] at kept
          cases kept
          exact listens.elim
  | still quiet items maxFd settings live mgmtHeap =>
      exact ⟨.same (fun fd i p => by rw [items]) mgmtHeap, settings⟩

/-- Two items of management connections do not share an object. -/
theorem Registry.apart (registry : σ.Registry) {fd other : Fd} {i j : Interest}
    {p : Ptr} (held : σ.env.selector.items fd = some ⟨i, .mgmt, p⟩)
    (also : σ.env.selector.items other = some ⟨j, .mgmt, p⟩) : fd = other := by
  obtain ⟨-, conn, stored, number⟩ := registry.items fd _ held
  obtain ⟨-, again, same, its⟩ := registry.items other _ also
  obtain rfl : conn = again := Option.some.inj (stored.symm.trans same)
  exact number.symm.trans its

def visits (key : Key) (σ : Server) (event : Event) : List MgmtVisit :=
  match σ.managing event with
  | some call =>
      if call.key = key then [⟨σ.env, call.after.calls, call.after.env⟩] else []
  | none => []

/-- A key, and the management connection that is registered with it. -/
def managementPlace (key : Key) : Place Server Event MgmtCtx MgmtVisit where
  shows := visits key
  hosts σ x := x.closed = false ∧ σ.mgmtHeap key.data = some x.c ∧
    x.env.selector.items key.fd = σ.env.selector.items key.fd ∧
      ∃ i, σ.env.selector.items key.fd = some ⟨i, .mgmt, key.data⟩
  vacant σ := ∀ i, σ.env.selector.items key.fd ≠ some ⟨i, .mgmt, key.data⟩

theorem visits_quiet (quiet : σ.managing event = none) :
    visits key σ event = [] := by
  unfold visits
  rw [quiet]

theorem visits_managing {call : Managed}
    (managing : σ.managing event = some call) :
    visits key σ event =
      if call.key = key then [⟨σ.env, call.after.calls, call.after.env⟩]
        else [] := by
  unfold visits
  rw [managing]

theorem visits_own {call : Managed} (managing : σ.managing event = some call) :
    visits call.key σ event = [⟨σ.env, call.after.calls, call.after.env⟩] :=
  (visits_managing managing).trans (if_pos rfl)

theorem Manages.visit {call : Managed} {kind : EventKind} {i : Interest}
    {a : Answers} (manages : Manages σ call kind i a) {x : MgmtCtx}
    (open_ : x.closed = false) (object : x.c = call.before)
    (item : x.env.selector.items call.key.fd = some ⟨i, .mgmt, call.key.data⟩) :
    MgmtStep call.key x ⟨σ.env, call.after.calls, call.after.env⟩
      (call.after.following x.calls) := by
  have begins : ({ x with env := σ.env } : MgmtCtx) =
      MgmtCtx.following ⟨σ.env, call.before, [], false⟩ x.calls := by
    unfold MgmtCtx.following
    rw [List.append_nil, ← object, ← open_]
  rcases manages.wanted with ⟨rfl, wanted⟩ | ⟨rfl, wanted⟩
  · refine .read (a := a) open_ item manages.item wanted ?_ rfl rfl
    rw [begins, mgmtRead_following]
    exact congrArg (Option.map _) manages.runs
  · refine .write (a := a) open_ item manages.item wanted ?_ rfl rfl
    rw [begins, mgmtWrite_following]
    exact congrArg (Option.map _) manages.runs

theorem Manages.item_after {call : Managed} {kind : EventKind} {i : Interest}
    {a : Answers} (manages : Manages σ call kind i a) (registry : σ.Registry) :
    (∀ fd, fd ≠ call.key.fd → call.after.env.selector.items fd =
      σ.env.selector.items fd) ∧
      (call.after.closed = false ∧
          (∃ j, call.after.env.selector.items call.key.fd =
            some ⟨j, .mgmt, call.key.data⟩) ∨
        call.after.closed = true ∧ call.after.env.selector.items call.key.fd =
          none) := by
  have settled := (registry.settled manages.item manages.object manages.runs).2
  refine ⟨fun fd other => (settled.elsewhere fd other).1, ?_⟩
  rcases settled.here with bound | ⟨closed, free, -⟩
  · exact .inl ⟨bound.live, bound.item⟩
  · exact .inr ⟨closed, free⟩

theorem Manages.apart {call : Managed} {kind : EventKind} {i j : Interest}
    {a : Answers} (manages : Manages σ call kind i a) (registry : σ.Registry)
    (item : σ.env.selector.items key.fd = some ⟨j, .mgmt, key.data⟩)
    (other : call.key ≠ key) :
    key.fd ≠ call.key.fd ∧ key.data ≠ call.key.data := by
  obtain ⟨⟨fd, data⟩, before, after⟩ := call
  obtain ⟨fd', data'⟩ := key
  have held : σ.env.selector.items fd = some ⟨i, .mgmt, data⟩ := manages.item
  dsimp only at item other ⊢
  constructor
  · rintro rfl
    rw [held] at item
    cases item
    exact other rfl
  · rintro rfl
    obtain rfl : fd = fd' := registry.apart held item
    exact other rfl

theorem entry_of_management (sound : σ.Sound) (step : σ.step event = .next τ)
    (vacant : (managementPlace key).vacant σ) :
    (managementPlace key).Entry (mgmtVisits key) σ event τ := by
  cases managing : σ.managing event with
  | none =>
      have quiet : visits key σ event = [] := visits_quiet managing
      cases ((step_change sound step).tends managing).1 with
      | same items heap =>
          exact .stays quiet fun i held => vacant i ((items ..).mp held)
      | @admits fd p valid free unused items heap =>
          by_cases own : fd = key.fd ∧ p = key.data
          · obtain ⟨rfl, rfl⟩ := own
            have item := (items key.fd).trans (if_pos rfl)
            refine @Place.Entry.arrives _ _ _ _ _ _ _ _ _
              ⟨τ.env, mgmtNew key.fd, [], false⟩
              quiet ⟨τ.env, ⟨valid, item⟩, rfl⟩ ⟨rfl, ?_, rfl, opRead, item⟩
            rw [heap]
            exact Function.update_self ..
          · refine .stays quiet fun i held => ?_
            rw [items] at held
            split at held
            next same =>
              cases held
              exact own ⟨same.symm, rfl⟩
            next => exact vacant i held
  | some call =>
      obtain ⟨kind, i, a, phase, manages, rfl⟩ :=
        managing_step sound step managing
      have other : call.key ≠ key := by
        rintro rfl
        exact vacant i manages.item
      obtain ⟨elsewhere, here⟩ := manages.item_after sound.registry
      refine .stays ((visits_managing managing).trans (if_neg other))
        fun j held => ?_
      have held : call.after.env.selector.items key.fd =
          some ⟨j, .mgmt, key.data⟩ := held
      by_cases same : key.fd = call.key.fd
      · rw [same] at held
        rcases here with ⟨-, k, kept⟩ | ⟨-, free⟩
        · rw [kept] at held
          have data : call.key.data = key.data :=
            congrArg Item.data (Option.some.inj held)
          exact other (key_eq same.symm data)
        · rw [free] at held
          cases held
      · exact vacant j ((elsewhere key.fd same).symm.trans held)

theorem onward_of_management {x : MgmtCtx} (sound : σ.Sound)
    (step : σ.step event = .next τ) (hosts : (managementPlace key).hosts σ x) :
    (managementPlace key).Onward (mgmtVisits key) (·.closed = true) σ
      event τ x := by
  obtain ⟨open_, object, same, i, item⟩ := hosts
  cases managing : σ.managing event with
  | none =>
      have quiet : visits key σ event = [] := visits_quiet managing
      cases ((step_change sound step).tends managing).1 with
      | same items heap =>
          have kept := (items ..).mpr item
          exact .rests quiet
            ⟨open_, heap ▸ object, same.trans (item.trans kept.symm), i, kept⟩
      | @admits fd p valid free unused items heap =>
          have other : key.fd ≠ fd := by
            rintro rfl
            rw [free] at item
            cases item
          have kept := (items key.fd).trans (if_neg other)
          refine .rests quiet
            ⟨open_, ?_, same.trans kept.symm, i, kept.trans item⟩
          rw [heap]
          refine (Function.update_of_ne ?_ ..).trans object
          rintro rfl
          rw [unused] at object
          cases object
  | some call =>
      obtain ⟨kind, j, a, phase, manages, rfl⟩ :=
        managing_step sound step managing
      obtain ⟨elsewhere, here⟩ := manages.item_after sound.registry
      by_cases own : call.key = key
      · subst own
        have its : x.c = call.before :=
          Option.some.inj (object.symm.trans manages.object)
        have visit := manages.visit open_ its (same.trans manages.item)
        have shown := visits_own managing
        rcases here with ⟨live, k, kept⟩ | ⟨closed, free⟩
        · refine .moves shown visit ⟨live, ?_, rfl, k, kept⟩
          unfold managed
          rw [live]
          exact Function.update_self ..
        · refine .ends shown visit closed fun k held => ?_
          have held : call.after.env.selector.items call.key.fd = _ := held
          rw [free] at held
          cases held
      · obtain ⟨fd, data⟩ := manages.apart sound.registry item own
        have kept : (σ.managed call phase).env.selector.items key.fd = _ :=
          elsewhere key.fd fd
        refine .rests ((visits_managing managing).trans (if_neg own))
          ⟨open_, ?_, same.trans kept.symm, i, kept.trans item⟩
        exact (Function.update_of_ne data ..).trans object

theorem managementPlace_follows (key : Key) :
    (managementPlace key).Follows (mgmtVisits key) (·.closed = true)
      server := by
  refine ⟨fun starts i held => ?_, fun reachable step vacant => ?_,
    fun reachable step hosts => ?_⟩
  · exact ((init_opened starts).listed key.fd _ held).1
  · exact entry_of_management (sound_of_reachable reachable) step vacant
  · exact onward_of_management (sound_of_reachable reachable) step hosts

end Server

/-- In every run of the server, what it does with a key is one whole run of a
management connection after another, and then the run of the one that is
registered now. -/
theorem server_hosts_management {first last : Server} {events : List Event}
    {acts : List MgmtVisit} {key : Key} (starts : server.init first)
    (shown : server.Shown (Server.visits key) first events acts last) :
    ∃ (lives : List (List MgmtVisit)) (current : List MgmtVisit),
      acts = lives.flatten ++ current ∧
      (∀ life ∈ lives, ∃ x y, (mgmtVisits key).init x ∧
        (mgmtVisits key).Run x life y ∧
        y.closed = true) ∧
      ((∀ i, last.env.selector.items key.fd ≠ some ⟨i, .mgmt, key.data⟩) ∧
        current = [] ∨
        ∃ x y, (mgmtVisits key).init x ∧ (mgmtVisits key).Run x current y ∧
        y.closed = false ∧
          last.mgmtHeap key.data = some y.c ∧
          y.env.selector.items key.fd = last.env.selector.items key.fd ∧
          ∃ i, last.env.selector.items key.fd = some ⟨i, .mgmt, key.data⟩) :=
  (Server.managementPlace_follows key).succession starts shown

structure Privileged (key : Key) (conn : MgmtConn) (current : List MgmtVisit)
    (visit : MgmtVisit) :
    Prop where
  since : ∃ x y, (mgmtVisits key).init x ∧ (mgmtVisits key).Run x current y ∧
    y.c = conn
  passed : ∃ before gate, before ++ [gate] <+: (current ++ [visit]).flatMap
    MgmtVisit.calls ∧ gate ∈ visit.calls ∧ gate.gated ∧ MgmtPassed before gate
  admitted : ∃ v ∈ current ++ [visit], ∃ user pass,
    MgmtCall.handshake user pass true ∈ v.calls ∧
    SmpMessage.admits v.before.config user pass

/-- A visit that changes users or configuration answers a request behind the
gate. -/
theorem privileged_of_change {key : Key} {x y next : MgmtCtx}
    {current : List MgmtVisit} {visit : MgmtVisit}
    (starts : (mgmtVisits key).init x) (run : (mgmtVisits key).Run x current y)
    (step : MgmtStep key y visit next) (changed : ¬ visit.Harmless) :
    Privileged key y.c current visit := by
  obtain ⟨env, hosted, rfl⟩ := starts
  have whole : (mgmtVisits key).Run _ (current ++ [visit]) next := run.snoc step
  have kept := gateKept_of_run hosted whole
  have member : visit ∈ current ++ [visit] :=
    List.mem_append_right _ (List.mem_singleton_self visit)
  obtain ⟨gate, made, gated⟩ : ∃ gate ∈ visit.calls, gate.gated := by
    by_contra none
    exact changed (kept.harmless visit member fun made called gated =>
      none ⟨made, called, gated⟩)
  obtain ⟨front, rest, split⟩ := List.append_of_mem made
  have calls : (current ++ [visit]).flatMap MgmtVisit.calls =
      (current.flatMap MgmtVisit.calls ++ front) ++ [gate] ++ rest := by
    rw [List.flatMap_append, List.flatMap_singleton, split, List.append_assoc,
      List.append_assoc, List.singleton_append]
  have behind : current.flatMap MgmtVisit.calls ++ front ++ [gate] <+:
      (current ++ [visit]).flatMap MgmtVisit.calls := ⟨rest, calls.symm⟩
  have passed := kept.gated.guarded _ gate (kept.recorded ▸ behind) gated
  have ⟨user, pass, skipped, octets, checked, _⟩ := passed
  have earlier : MgmtCall.handshake user pass true ∈
      (current ++ [visit]).flatMap MgmtVisit.calls := by
    rw [calls, List.append_assoc]
    exact List.mem_append_left _ checked
  obtain ⟨v, listed, called⟩ := List.mem_flatMap.mp earlier
  exact ⟨⟨_, y, ⟨env, hosted, rfl⟩, run, rfl⟩,
    ⟨_, gate, behind, made, gated, passed⟩, v, listed, user, pass, called,
      (kept.compared v listed user pass true called).symm⟩

/-- Users and configuration change only while the server answers a request of a
management connection that has passed the gate since it was accepted. -/
theorem settings_change_behind_gate {first σ τ : Server} {events : List Event}
    {event : Event} (starts : server.init first)
    (run : server.Run first events σ) (step : server.step σ event τ)
    (changed : τ.env.settings ≠ σ.env.settings) :
    ∃ call lives current visit, σ.managing event = some call ∧
      server.Shown (Server.visits call.key) first events (lives ++ current) σ ∧
      Server.visits call.key σ event = [visit] ∧
      Privileged call.key call.before current visit := by
  have reachable : server.Reachable σ := ⟨first, events, starts, run⟩
  have sound := Server.sound_of_reachable reachable
  cases managing : σ.managing event with
  | none =>
      exact absurd ((Server.step_change sound step).tends managing).2 changed
  | some call =>
      obtain ⟨kind, i, a, phase, manages, rfl⟩ :=
        Server.managing_step sound step managing
      obtain ⟨acts, shown⟩ := run.shown (Server.visits call.key)
      have visit := Server.visits_own managing
      obtain ⟨lives, current, rfl, -, ⟨vacant, -⟩ |
        ⟨x, y, init, lasts, open_, object, item, -⟩⟩ :=
        (Server.managementPlace_follows call.key).succession starts shown
      · exact absurd manages.item (vacant i)
      · have its : y.c = call.before :=
          Option.some.inj (object.symm.trans manages.object)
        have step := manages.visit open_ its (item.trans manages.item)
        refine ⟨call, lives.flatten, current, _, rfl, shown, visit, its ▸ ?_⟩
        refine privileged_of_change init lasts step fun harmless => changed ?_
        exact Prod.ext harmless.1 harmless.2

def Server.governed (config : ProxyConfig) (users : UserTable) : Server :=
  (Server.opening config users).addListener .mgmtListener true

theorem Server.init_governed (config : ProxyConfig) (users : UserTable) :
    server.init (Server.governed config users) := by
  refine ⟨Table.empty, config, users,
    [(.socksListener, true), (.mgmtListener, true)], ?_, ?_, rfl⟩
  · intro fd socket held
    rw [Table.get_empty] at held
    cases held
  · intro listener member
    rcases List.mem_cons.mp member with rfl | later
    · trivial
    · rw [List.mem_singleton.mp later]
      trivial

private def entering : List Server.Turn :=
  [.client 1 9,
    .readable 2 (.receiving (authMessage (CString.ofString "admin").octets
    (CString.ofString "admin").octets)), .writable 2 (.accepting [2])]

theorem server_hosts_management_entered :
    ∃ (σ : Server) (lives : List (List MgmtVisit)) (current : List MgmtVisit)
      (x y : MgmtCtx),
      (∀ life ∈ lives, ∃ x y, (mgmtVisits ⟨2, 9⟩).init x ∧
        (mgmtVisits ⟨2, 9⟩).Run x life y ∧
        y.closed = true) ∧
      (mgmtVisits ⟨2, 9⟩).init x ∧ (mgmtVisits ⟨2, 9⟩).Run x current y ∧
      σ.mgmtHeap 9 = some y.c ∧ y.c.state = .request := by
  have expected : ((Server.perform id Server.advance 30 entering
      (.governed configInitDefaults usersInit)).any fun σ =>
        (σ.mgmtHeap 9).any (fun conn => decide (conn.state = .request)) &&
          (σ.env.selector.items 2).any fun item =>
          decide (item = ⟨opRead, .mgmt, 9⟩)) = true := by
    decide +kernel
  obtain ⟨σ, performs, facts⟩ := (Option.any_eq_true ..).mp expected
  obtain ⟨state, item⟩ := Bool.and_eq_true_iff.mp facts
  obtain ⟨conn, object, state⟩ := (Option.any_eq_true ..).mp state
  obtain ⟨item, held, same⟩ := (Option.any_eq_true ..).mp item
  obtain ⟨events, run⟩ := Server.run_of_perform Server.step_of_advance performs
  obtain ⟨acts, shown⟩ := run.shown (Server.visits ⟨2, 9⟩)
  obtain ⟨lives, current, -, ended, ⟨vacant, -⟩ |
    ⟨x, y, init, lasts, -, its, -⟩⟩ :=
    server_hosts_management (Server.init_governed _ _) shown
  · exact absurd (of_decide_eq_true same ▸ held) (vacant opRead)
  · obtain rfl : conn = y.c := Option.some.inj (object.symm.trans its)
    exact ⟨σ, lives, current, x, y, ended, init, lasts, its,
      of_decide_eq_true state⟩

private def approaching : List Server.Turn :=
  let passes := [.event (.visitRead ⟨.idle, Server.unaccepted⟩),
    .event (.visitWrite ⟨.idle, Server.unaccepted⟩)]
  entering ++ [.event (.pselect (fun fd => decide (fd = 2)) fun _ => false)] ++
    passes ++ passes

private def adding : Event :=
  .visitRead
    ⟨.receiving
    ((cmdAddUserRequest (.ofString "bob") (.ofString "secret")).getD []),
    Server.unaccepted⟩

theorem settings_change_behind_gate_adding :
    ∃ (σ τ : Server) (call : Server.Managed) (current : List MgmtVisit)
      (visit : MgmtVisit),
      server.step σ adding τ ∧ τ.env.settings ≠ σ.env.settings ∧
      Privileged call.key call.before current visit := by
  have expected : ((Server.perform id Server.advance 30 approaching
      (.governed configInitDefaults usersInit)).any fun σ =>
        (σ.advance adding).any fun τ =>
          !usersCheck σ.env.users (CString.ofString "bob")
            (CString.ofString "secret") &&
            usersCheck τ.env.users (CString.ofString "bob")
            (CString.ofString "secret")) = true := by
    decide +kernel
  obtain ⟨σ, performs, facts⟩ := (Option.any_eq_true ..).mp expected
  obtain ⟨τ, advances, facts⟩ := (Option.any_eq_true ..).mp facts
  obtain ⟨unknown, known⟩ := Bool.and_eq_true_iff.mp facts
  obtain ⟨events, run⟩ := Server.run_of_perform Server.step_of_advance performs
  have changed : τ.env.settings ≠ σ.env.settings := by
    intro same
    have users : τ.env.users = σ.env.users := congrArg Prod.fst same
    rw [← users, known] at unknown
    cases unknown
  obtain ⟨call, lives, current, visit, -, -, -, privileged⟩ :=
    settings_change_behind_gate
    (Server.init_governed _ _) run (Server.step_of_advance advances) changed
  exact ⟨σ, τ, call, current, visit, Server.step_of_advance advances,
    changed, privileged⟩

end SocksProxy
