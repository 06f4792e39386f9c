import SocksProxy.Mgmt.Dialogue

/-! What the terminal prints, against what the server had at the moment of the
request. -/

namespace SocksProxy

open Framing Transition SmpMessage

inductive Printed
  | counters (values : List Nat)
  | settings (size timeout : Nat) (auth : Bool)
  | names (users : List CString)
  | status (status : UInt8)
  deriving DecidableEq

namespace SmpRequest

def prints (octets : List UInt8) : SmpRequest → Option Printed
  | metrics => (cmdMetrics octets).map .counters
  | getConfig => (cmdGetConfig octets).map fun values =>
      .settings values.1 values.2.1 values.2.2
  | listUsers => (cmdListUsers octets).map .names
  | addUser .. | delUser .. | setConfig ..
  | unknown .. => (cmdStatus octets).map .status

/-- What a request should print, asked of a server. -/
def outcome (env : Env) : SmpRequest → Printed
  | metrics => .counters env.counters
  | getConfig => .settings env.config.ioBufferSize env.config.connTimeoutSecs
      env.config.authRequired
  | listUsers => .names env.users.names
  | addUser user pass => .status (addUserStatus
      (usersAdd env.users (some (.ofArray user)) (some (.ofArray pass))).2)
  | delUser user =>
      .status (delUserStatus (usersDel env.users (some (.ofArray user))).2)
  | setConfig key value sized =>
      .status
        (SocksProxy.setConfig env.config (setConfig key value sized).parsed).2
  | unknown .. => .status smpUnknownCommand

end SmpRequest

theorem Responds.status_printed {env : Env} {r : SmpRequest} {status : UInt8}
    (responds : Responds env r status []) :
    cmdStatus (serve env (.request r)).2 = some status := by
  rw [responds.served (Nat.zero_le _), cmdStatus,
    doRequest_response (by decide)]
  rfl

theorem prints_reply {env : Env} (bounded : env.records.Bounded)
    (r : SmpRequest) :
    r.prints (serve env (.request r)).2 = some (r.outcome env) := by
  cases r with
  | metrics =>
      have short : (env.counters.flatMap u64Octets).length ≤ 16386 := by
        rw [length_counters]
        decide
      rw [SmpRequest.prints, (responds_metrics env).served short,
        cmdMetrics_response bounded.fits]
      rfl
  | getConfig =>
      have size : env.config.ioBufferSize < 2 ^ 32 :=
        Nat.lt_of_le_of_lt bounded.most (by decide)
      have timeout : env.config.connTimeoutSecs < 2 ^ 32 := bounded.timeout
      rw [SmpRequest.prints,
        (responds_getConfig env).served (by simp [u32Octets]),
        cmdGetConfig_response _ size timeout]
      rfl
  | listUsers =>
      have sized : env.users.Sized := bounded.sized
      rw [SmpRequest.prints,
        (responds_listUsers sized).served (length_namesOctets_le sized),
        cmdListUsers_response _ sized]
      rfl
  | addUser user pass =>
      have responds : Responds env (.addUser user pass) (addUserStatus
          (usersAdd env.users (some (.ofArray user)) (some (.ofArray pass))).2)
          [] :=
        responds_simple fun b => written_addUser env b rfl
      rw [SmpRequest.prints, responds.status_printed]
      rfl
  | delUser user =>
      have responds : Responds env (.delUser user) (delUserStatus
          (usersDel env.users (some (.ofArray user))).2) [] :=
        responds_simple fun b => written_delUser env b rfl
      rw [SmpRequest.prints, responds.status_printed]
      rfl
  | setConfig key value sized =>
      have responds : Responds env (.setConfig key value sized)
          (setConfig env.config (SmpRequest.setConfig key value sized).parsed).2
          [] :=
        responds_simple fun b =>
          written_setConfig env b (SmpRequest.setConfig_cmd key value sized)
      rw [SmpRequest.prints, responds.status_printed]
      rfl
  | unknown cmd undefined =>
      have responds :
          Responds env (.unknown cmd undefined) smpUnknownCommand [] :=
        responds_simple fun b => written_unknown env b undefined
      rw [SmpRequest.prints, responds.status_printed]
      rfl

/-- A command looks at the response only. -/
theorem prints_congr {left right : List UInt8}
    (same : doRequest left = doRequest right) (r : SmpRequest) :
    r.prints left = r.prints right := by
  cases r with
  | metrics =>
      rw [SmpRequest.prints, SmpRequest.prints, cmdMetrics, cmdMetrics, same]
  | getConfig =>
      rw [SmpRequest.prints, SmpRequest.prints, cmdGetConfig, cmdGetConfig,
        same]
  | listUsers =>
      rw [SmpRequest.prints, SmpRequest.prints, cmdListUsers, cmdListUsers,
        same]
  | addUser | delUser | setConfig | unknown =>
      rw [SmpRequest.prints, SmpRequest.prints, cmdStatus, cmdStatus, same]

/-- What the terminal prints is what its request gives on the server at one
moment, between the request being sent and the response being received. -/
theorem terminal_prints {key : Key} {user pass : Field} {r : SmpRequest}
    {first σ : Dialogue} {events : List DialogueEvent}
    (starts : (dialogues key user pass r).init first)
    (run : (dialogues key user pass r).Run first events σ)
    {response : SmpResponse} (answered : σ.client = .answered response) :
    ∃ v, OnlyAt events v ∧ v.Serves (.request r) ∧
      (v.before.records.Bounded →
        r.prints (σ.heard.drop 2) = some (r.outcome v.before)) := by
  obtain ⟨served, todo, conversing⟩ := conversing_of_run starts run
  obtain ⟨v, w, only, -, -, serves, heard, decoded⟩ :=
    conversing.response answered
  refine ⟨v, only.only, serves, fun bounded => ?_⟩
  rw [prints_congr (heard.trans decoded.symm)]
  exact prints_reply bounded r

/-- The defaults of the configuration are printed. -/
theorem terminal_prints_config :
    ∃ (σ : Dialogue) (v : MgmtVisit), v.Serves (.request .getConfig) ∧
      SmpRequest.getConfig.prints (σ.heard.drop 2) = some (.settings
        configInitDefaults.ioBufferSize configInitDefaults.connTimeoutSecs
        configInitDefaults.authRequired) ∧
      (v.before.records.Bounded → SmpRequest.getConfig.prints (σ.heard.drop 2) =
        some (SmpRequest.getConfig.outcome v.before)) := by
  obtain ⟨first, σ, events, response, starts, run, final, -, -, read⟩ :=
    asks_config
  obtain ⟨v, only, serves, printed⟩ := terminal_prints starts run final
  refine ⟨σ, v, serves, ?_, printed⟩
  rw [SmpRequest.prints, read]
  rfl

end SocksProxy
