import SocksProxy.Server.Management
import SocksProxy.UserMap

/-! Users and configuration over a whole run: what the requests make of them,
processed one after another, however the connections that send them
interleave. -/

namespace SocksProxy

open Transition

def processed (calls : List MgmtCall) : List MgmtReq :=
  calls.filterMap fun
    | .processRequest r => some r
    | _ => none

@[simp] theorem processed_append (left right : List MgmtCall) :
    processed (left ++ right) = processed left ++ processed right :=
  List.filterMap_append

/-- What a request makes of users and configuration. -/
def applyRequest (settings : UserTable × ProxyConfig) (r : MgmtReq) :
    UserTable × ProxyConfig :=
  if r.cmd = smpCmdAddUser then
    ((usersAdd settings.1 (some (.ofArray r.user)) (some (.ofArray r.pass))).1,
      settings.2)
  else if r.cmd = smpCmdDelUser then
    ((usersDel settings.1 (some (.ofArray r.user))).1, settings.2)
  else if r.cmd = smpCmdSetConfig then (settings.1, (setConfig settings.2 r).1)
  else settings

theorem settings_processMgmtRequest (env : Env) (b : Buffer) (r : MgmtReq) :
    (processMgmtRequest env b r).1.settings = applyRequest env.settings r := by
  unfold processMgmtRequest applyRequest
  split
  next metrics =>
    rw [metrics]
    rfl
  · split
    next getConfig =>
      rw [getConfig]
      rfl
    · split
      next listUsers =>
        rw [listUsers]
        rfl
      · split
        · rfl
        · split
          · rfl
          · split <;> rfl

/-- A handler has made of users and configuration what the requests do that it
processed. -/
def Replays (x next : MgmtCtx) : Prop :=
  ∃ made, next.calls = x.calls ++ made ∧
    next.env.settings = (processed made).foldl applyRequest x.env.settings

theorem Replays.of_settings {x next : MgmtCtx} (made : List MgmtCall)
    (calls : next.calls = x.calls ++ made) (none : processed made = [])
    (settings : next.env.settings = x.env.settings) : Replays x next := by
  refine ⟨made, calls, ?_⟩
  rw [none]
  exact settings

theorem Replays.trans {x y z : MgmtCtx} (first : Replays x y)
    (second : Replays y z) :
    Replays x z := by
  obtain ⟨made, calls, settings⟩ := first
  obtain ⟨more, others, final⟩ := second
  refine ⟨made ++ more, ?_, ?_⟩
  · rw [others, calls, List.append_assoc]
  · rw [final, settings, processed_append, List.foldl_append]

section Handlers

variable {key : Key} {x next : MgmtCtx}

theorem Replays.call {y : MgmtCtx} (made : MgmtCall)
    (calls : y.calls = x.calls ++ [made]) (plain : processed [made] = [])
    (settings : y.env.settings = x.env.settings) :
    Replays x y := .of_settings [made] calls plain settings

theorem replays_done (runs : mgmtDone key x = some next) : Replays x next := by
  have nothing : x.calls = x.calls ++ [] := (List.append_nil _).symm
  unfold mgmtDone at runs
  split at runs
  · cases runs
    exact .of_settings [] nothing rfl rfl
  · split at runs
    · cases runs
      exact .of_settings [] nothing rfl rfl
    · split at runs
      · cases runs
        exact .of_settings [] nothing rfl rfl
      · cases runs

theorem replays_processRequest (runs : mgmtProcessRequest key x = some next) :
    Replays x next := by
  have nothing : x.calls = x.calls ++ [] := (List.append_nil _).symm
  unfold mgmtProcessRequest at runs
  dsimp only at runs
  split at runs
  · cases runs
    exact .of_settings [] nothing rfl rfl
  · split at runs
    · have reset :
          Replays x { x with c := { x.c with wbuf := bufferReset x.c.wbuf } } :=
        .of_settings [] nothing rfl rfl
      exact reset.trans (replays_done runs)
    · split at runs
      · cases runs
        exact .call _ rfl rfl rfl
      · cases runs
        exact ⟨[.processRequest _], rfl, settings_processMgmtRequest ..⟩

theorem replays_tryProcess (runs : mgmtTryProcess key x = some next) :
    Replays x next := by
  have nothing : x.calls = x.calls ++ [] := (List.append_nil _).symm
  unfold mgmtTryProcess at runs
  split at runs
  · unfold mgmtProcessAuth at runs
    dsimp only at runs
    split at runs
    · cases runs
      exact .of_settings [] nothing rfl rfl
    · split at runs
      · exact replays_done runs
      · cases runs
        exact .call _ rfl rfl rfl
  · exact replays_processRequest runs
  · cases runs
    exact .of_settings [] nothing rfl rfl
  · cases runs
    exact .of_settings [] nothing rfl rfl

theorem replays_read {a : Answers} (runs : mgmtRead key a x = some next) :
    Replays x next := by
  unfold mgmtRead at runs
  split at runs
  · exact replays_done runs
  · split at runs
    next e _ =>
      have failed : Replays x (x.call (.recvFailed e)) := .call _ rfl rfl rfl
      split at runs
      · cases runs
        exact failed
      · exact failed.trans (replays_done runs)
    next octets _ =>
      dsimp only at runs
      split at runs
      · have ended : Replays x (x.call (.recv (octets.take x.c.rbuf.space))) :=
          .call _ rfl rfl rfl
        exact ended.trans (replays_done runs)
      · have filled :
            Replays x { x.call (.recv (octets.take x.c.rbuf.space)) with
            c := { x.c with
              rbuf := bufferFill x.c.rbuf (octets.take x.c.rbuf.space) } } :=
          .call _ rfl rfl rfl
        exact filled.trans (replays_tryProcess runs)

theorem replays_write {a : Answers} (runs : mgmtWrite key a x = some next) :
    Replays x next := by
  unfold mgmtWrite at runs
  split at runs
  next e _ =>
    have failed : Replays x (x.call (.sendFailed e)) := .call _ rfl rfl rfl
    split at runs
    · cases runs
      exact failed
    · exact failed.trans (replays_done runs)
  next count _ =>
    dsimp only at runs
    have sent : Replays x { x.call (.send (x.c.wbuf.content.take count)) with
        c := { x.c with
          wbuf :=
            bufferReadAdv x.c.wbuf (x.c.wbuf.content.take count).length } } :=
      .call _ rfl rfl rfl
    split at runs
    · cases runs
      exact sent
    · split at runs
      · exact sent.trans (replays_done runs)
      · have awaiting : Replays x (MgmtCtx.setInterest
            { x.call (.send (x.c.wbuf.content.take count)) with
              c := { x.c with
                state := .request
                wbuf := bufferReadAdv x.c.wbuf
                  (x.c.wbuf.content.take count).length } } opRead) :=
                  .call _ rfl rfl rfl
        exact awaiting.trans (replays_tryProcess runs)

end Handlers

namespace Server

variable {σ τ : Server} {event : Event}

def requests (σ : Server) (event : Event) : List MgmtReq :=
  (σ.managing event).elim [] fun call => processed call.after.calls

theorem Manages.replays {call : Managed} {kind : EventKind} {i : Interest}
    {a : Answers} (manages : Manages σ call kind i a) :
    call.after.env.settings =
      (processed call.after.calls).foldl applyRequest σ.env.settings := by
  have handled : Replays ⟨σ.env, call.before, [], false⟩ call.after := by
    have runs := manages.runs
    rcases manages.wanted with ⟨rfl, -⟩ | ⟨rfl, -⟩
    · exact replays_read runs
    · exact replays_write runs
  obtain ⟨made, calls, settings⟩ := handled
  rw [List.nil_append] at calls
  rw [calls]
  exact settings

theorem step_settings (sound : σ.Sound) (step : σ.step event = .next τ) :
    τ.env.settings = (σ.requests event).foldl applyRequest σ.env.settings := by
  unfold requests
  cases managing : σ.managing event with
  | none => exact ((step_change sound step).tends managing).2
  | some call =>
      obtain ⟨kind, i, a, phase, manages, rfl⟩ :=
        managing_step sound step managing
      exact manages.replays

end Server

theorem settings_replayed {first last : Server} {events : List Event}
    {acts : List MgmtReq} (starts : server.init first)
    (shown : server.Shown Server.requests first events acts last) :
    last.env.settings = acts.foldl applyRequest first.env.settings := by
  induction shown with
  | nil => rfl
  | @snoc middle last events acts event before step induction =>
      have sound : middle.Sound :=
        Server.sound_of_reachable ⟨first, events, starts, before.run⟩
      rw [List.foldl_append, ← induction]
      exact Server.step_settings sound step

/-- The call of `users.c` that a request makes to change the table. -/
def MgmtReq.change (r : MgmtReq) : Option UsersCall :=
  if r.cmd = smpCmdAddUser then
    some (.add (some (.ofArray r.user)) (some (.ofArray r.pass)))
  else if r.cmd = smpCmdDelUser then some (.del (some (.ofArray r.user)))
  else none

/-- What a request makes of the configuration. -/
def MgmtReq.configures (config : ProxyConfig) (r : MgmtReq) : ProxyConfig :=
  if r.cmd = smpCmdSetConfig then (setConfig config r).1 else config

theorem usersCalls_concat (calls : List UsersCall) (call : UsersCall) :
    usersCalls (calls ++ [call]) = (usersCall (usersCalls calls) call).1 := by
  unfold usersCalls
  rw [List.foldl_append]
  rfl

theorem applyRequest_eq (calls : List UsersCall) (config : ProxyConfig)
    (r : MgmtReq) :
    applyRequest (usersCalls calls, config) r =
      (usersCalls (calls ++ r.change.toList), MgmtReq.configures config r) := by
  unfold applyRequest MgmtReq.change MgmtReq.configures
  split
  next add =>
    rw [Option.toList_some, usersCalls_concat, if_neg (by rw [add]; decide)]
    rfl
  · split
    next del =>
      rw [Option.toList_some, usersCalls_concat, if_neg (by rw [del]; decide)]
      rfl
    · rw [Option.toList_none, List.append_nil]
      split <;> rfl

theorem foldl_applyRequest (acts : List MgmtReq) (calls : List UsersCall)
    (config : ProxyConfig) :
    acts.foldl applyRequest (usersCalls calls, config) =
      (usersCalls (calls ++ acts.filterMap MgmtReq.change),
        acts.foldl MgmtReq.configures config) := by
  induction acts generalizing calls config with
  | nil =>
      rw [List.filterMap_nil, List.append_nil, List.foldl_nil, List.foldl_nil]
  | cons r acts induction =>
      rw [List.foldl_cons, applyRequest_eq, induction, List.foldl_cons,
        List.append_assoc]
      congr 3
      cases changed : r.change <;> simp [changed]

theorem settings_applied {first last : Server} {events : List Event}
    {acts : List MgmtReq} (starts : server.init first)
    (shown : server.Shown Server.requests first events acts last)
    {calls : List UsersCall} (begun : first.env.users = usersCalls calls) :
    last.env.settings = (usersCalls (calls ++ acts.filterMap MgmtReq.change),
      acts.foldl MgmtReq.configures first.env.config) := by
  have before : first.env.settings = (usersCalls calls, first.env.config) :=
    Prod.ext begun rfl
  rw [settings_replayed starts shown, before, foldl_applyRequest]

/-- The users that the server knows are at every moment those of a map to which
the requests processed so far have been applied one after another, and the
configuration is what they make of it. -/
theorem accounts_replayed {first last : Server} {events : List Event}
    {acts : List MgmtReq} (starts : server.init first)
    (shown : server.Shown Server.requests first events acts last)
    {calls : List UsersCall} (begun : first.env.users = usersCalls calls) :
    last.env.config = acts.foldl MgmtReq.configures first.env.config ∧
      ∃ order, (UserMap.after (calls ++ acts.filterMap MgmtReq.change)).Lists
        order ∧
        ∀ call, (usersCall last.env.users call).2 =
          (UserMap.after (calls ++ acts.filterMap MgmtReq.change)).answer
            order call := by
  have settings := settings_applied starts shown begun
  refine ⟨congrArg Prod.snd settings, ?_⟩
  have users :
      last.env.users = usersCalls (calls ++ acts.filterMap MgmtReq.change) :=
    congrArg Prod.fst settings
  obtain ⟨slots, same, holds⟩ :=
    UserMap.refines_after (calls ++ acts.filterMap MgmtReq.change)
  refine ⟨BoundedMap.listed slots, holds.lists, fun call => ?_⟩
  rw [users, same]
  exact UserMap.answers holds call

private def enrolling : List Server.Turn :=
  [.client 1 9,
    .readable 2 (.receiving (authMessage (CString.ofString "admin").octets
    (CString.ofString "admin").octets)), .writable 2 (.accepting [2]),
    .readable 2 (.receiving
      ((cmdAddUserRequest (.ofString "bob") (.ofString "old")).getD [])),
    .writable 2 (.accepting [5]), .readable 2 (.receiving
      ((cmdAddUserRequest (.ofString "bob") (.ofString "new")).getD []))]

theorem accounts_replayed_enrolled :
    ∃ (σ : Server) (acts : List MgmtReq) (order : List UserName),
      usersCheck σ.env.users (CString.ofString "bob") (CString.ofString "new") =
        true ∧
      (usersCall σ.env.users (.exists (some (.ofString "bob")))).2 =
        (UserMap.after ([] ++ acts.filterMap MgmtReq.change)).answer order
          (.exists (some (.ofString "bob"))) := by
  have expected : ((Server.perform id Server.advance 30 enrolling
      (.governed configInitDefaults usersInit)).any fun σ =>
        usersCheck σ.env.users (CString.ofString "bob")
            (CString.ofString "new")) = true := by
    decide +kernel
  obtain ⟨σ, performs, known⟩ := (Option.any_eq_true ..).mp expected
  obtain ⟨events, run⟩ := Server.run_of_perform Server.step_of_advance performs
  obtain ⟨acts, shown⟩ := run.shown Server.requests
  have begun : (Server.governed configInitDefaults usersInit).env.users =
      usersCalls [] := rfl
  obtain ⟨-, order, -, answers⟩ :=
    accounts_replayed (Server.init_governed _ _) shown begun
  exact ⟨σ, acts, order, known, answers _⟩

end SocksProxy
