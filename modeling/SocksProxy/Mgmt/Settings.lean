import SocksProxy.Mgmt.Responses
import SocksProxy.Mgmt.Serving

/-! `set-config`, from the text that the client is given to the configuration of
the server and back. -/

namespace SocksProxy

inductive Setting
  | bufferSize | timeout | authRequired
  deriving DecidableEq, Repr

def numeral (text : CString) : Option Nat :=
  if !text.octets.isEmpty && text.octets.all isDigit then
    some (digitsValue text.octets)
  else none

namespace Setting

def name : Setting → CString
  | bufferSize => .ofString "buffer-size"
  | timeout => .ofString "timeout"
  | authRequired => .ofString "auth-required"

/-- The number that a text gives for a setting; a flag is any numeral. -/
def value (setting : Setting) (text : CString) : Option Nat :=
  match setting with
  | bufferSize | timeout => (numeral text).filter fun v => decide (v < 2 ^ 32)
  | authRequired => numeral text

def set (setting : Setting) (v : Nat) (config : ProxyConfig) : ProxyConfig :=
  match setting with
  | bufferSize =>
      { config with
        ioBufferSize := max configMinBuffer (min v configMaxBuffer) }
  | timeout => { config with connTimeoutSecs := v }
  | authRequired => { config with authRequired := decide (v ≠ 0) }

/-- The setting has the value of the text and the client exits with 0, or the
text has none, nothing has changed and the client exits with 1. -/
def SetsExactly (setting : Setting) (text : CString)
    (before after : ProxyConfig) (exit : Int) : Prop :=
  match setting.value text with
  | some v => after = setting.set v before ∧ exit = 0
  | none => after = before ∧ exit = 1

/-- The number that the client converts the text to, narrowed to the field of
the request. -/
def narrowed (setting : Setting) (text : CString) : Nat :=
  match setting with
  | bufferSize | timeout => strtoul text % 2 ^ 32
  | authRequired => if strtoul text ≠ 0 then 1 else 0

end Setting

/-- What `cmd_set_config` returns for the octets that come back. -/
def cmdSetConfig (stream : List UInt8) : Int :=
  if cmdStatus stream = some smpOk then 0 else 1

structure MgmtIdle (x : MgmtCtx) : Prop where
  state : x.c.state = .request
  empty : x.c.rbuf.content = []
  space : 7 ≤ x.c.rbuf.space
  room : x.c.wbuf.limit = mgmtWbuf

theorem numeral_strtoul {text : CString} {v : Nat}
    (given : numeral text = some v) :
    strtoul text = if v ≥ 2 ^ 64 then 2 ^ 64 - 1 else v := by
  unfold numeral at given
  split at given
  · next digits =>
      cases given
      obtain ⟨some, digits⟩ : text.octets ≠ [] ∧ ∀ octet ∈ text.octets,
          isDigit octet = true := by
        simpa using digits
      exact strtoul_digits some digits
  · cases given

theorem Setting.narrowed_eq {setting : Setting} {text : CString} {v : Nat}
    (given : setting.value text = some v) (config : ProxyConfig) :
    setting.set (setting.narrowed text) config = setting.set v config := by
  cases setting with
  | bufferSize | timeout =>
      obtain ⟨digits, small⟩ := Option.filter_eq_some_iff.mp given
      have below : v < 2 ^ 32 := of_decide_eq_true small
      rw [narrowed, numeral_strtoul digits, if_neg (by omega),
        Nat.mod_eq_of_lt below]
  | authRequired =>
      have same : (if v ≥ 2 ^ 64 then 2 ^ 64 - 1 else v) = 0 ↔ v = 0 := by
        split <;> omega
      rw [narrowed, numeral_strtoul given]
      by_cases zero : v = 0
      · rw [if_neg (not_not_intro (same.mpr zero)), zero]
      · rw [if_pos fun large => zero (same.mp large)]
        simp [set, zero]

def Setting.request (setting : Setting) (text : CString) : SmpRequest :=
  match setting with
  | bufferSize =>
      .setConfig smpCfgIoBufferSize (u32Octets (strtoul text % 2 ^ 32)) rfl
  | timeout =>
      .setConfig smpCfgConnTimeout (u32Octets (strtoul text % 2 ^ 32)) rfl
  | authRequired =>
      .setConfig smpCfgAuthRequired [if strtoul text ≠ 0 then 1 else 0] rfl

theorem Setting.cmdSetConfigRequest_eq (setting : Setting) (text : CString) :
    cmdSetConfigRequest setting.name text =
      some (setting.request text).encode := by
  obtain ⟨size, timeout, auth⟩ := cmdSetConfig_keys text
  cases setting with
  | bufferSize => exact size
  | timeout => exact timeout
  | authRequired => exact auth

theorem Setting.cmd_request (setting : Setting) (text : CString) :
    (setting.request text).parsed.cmd = smpCmdSetConfig := by
  cases setting <;> exact SmpRequest.setConfig_cmd _ _ _

theorem Setting.setConfig_request (setting : Setting) (text : CString)
    (config : ProxyConfig) :
    setConfig config (setting.request text).parsed =
      (setting.set (setting.narrowed text) config, smpOk) := by
  have small : strtoul text % 2 ^ 32 < 2 ^ 32 := Nat.mod_lt _ (by decide)
  unfold setConfig
  cases setting with
  | bufferSize =>
      have asked : (Setting.bufferSize.request text).parsed.key =
          smpCfgIoBufferSize := rfl
      have number : (Setting.bufferSize.request text).parsed.u32 =
          strtoul text % 2 ^ 32 :=
        u32At_octets small
      rw [if_pos asked, number]
      refine Prod.ext
        (congrArg (fun size => { config with ioBufferSize := size }) ?_) rfl
      change _ = max configMinBuffer
        (min (strtoul text % 2 ^ 32) configMaxBuffer)
      generalize strtoul text % 2 ^ 32 = v
      have range : configMinBuffer ≤ configMaxBuffer := by decide
      split <;> split <;> omega
  | timeout =>
      have asked : (Setting.timeout.request text).parsed.key =
          smpCfgConnTimeout := rfl
      have number : (Setting.timeout.request text).parsed.u32 =
          strtoul text % 2 ^ 32 :=
        u32At_octets small
      rw [asked, if_neg (by decide), if_pos rfl, number]
      rfl
  | authRequired =>
      have asked : (Setting.authRequired.request text).parsed.key =
          smpCfgAuthRequired := rfl
      have flag : (Setting.authRequired.request text).parsed.u8 =
          if strtoul text ≠ 0 then 1 else 0 := rfl
      rw [asked, if_neg (by decide), if_neg (by decide), if_pos rfl, flag]
      unfold narrowed
      by_cases zero : strtoul text = 0
      · rw [if_neg (not_not_intro zero), if_neg (not_not_intro zero)]
        rfl
      · rw [if_pos zero, if_pos zero]
        rfl

private theorem config_setConfig (env : Env) (b : Buffer) {r : MgmtReq}
    (asked : r.cmd = smpCmdSetConfig) :
    (processMgmtRequest env b r).1.config = (setConfig env.config r).1 := by
  rw [processMgmtRequest, asked, if_neg (by decide), if_neg (by decide),
    if_neg (by decide), if_neg (by decide), if_neg (by decide), if_pos rfl]

/-- The setting has the number that the client converted the text to, and the
client is told so, whatever the text is. -/
theorem MgmtIdle.sets {key : Key} {x : MgmtCtx} (idle : MgmtIdle x)
    (setting : Setting) (text : CString) :
    ∃ octets after, cmdSetConfigRequest setting.name text = some octets ∧
      mgmtRead key (.receiving octets) x = some after ∧
      after.env.config = setting.set (setting.narrowed text) x.env.config ∧
      cmdSetConfig after.c.wbuf.content = 0 := by
  obtain ⟨state, empty, space, room⟩ := idle
  have sized : (setting.request text).encode.length ≤ 7 := by
    cases setting <;> simp [Setting.request, SmpRequest.encode, u32Octets]
  have nonempty : (setting.request text).encode ≠ [] := by
    cases setting <;> simp [Setting.request, SmpRequest.encode]
  have fits : (setting.request text).encode.length ≤ x.c.rbuf.space :=
    sized.trans space
  have arrived := Buffer.content_fill fits
  rw [empty, List.nil_append] at arrived
  obtain ⟨after, runs, processed⟩ := @tryProcess_message key
    { x.call (.recv (setting.request text).encode) with
      c :=
        { x.c with rbuf := bufferFill x.c.rbuf (setting.request text).encode } }
    [] room (.request (setting.request text)) state
    (arrived.trans (List.append_nil _).symm)
  have cmd := setting.cmd_request text
  have stored := setting.setConfig_request text x.env.config
  refine ⟨_, after, setting.cmdSetConfigRequest_eq text, ?_, ?_, ?_⟩
  · rw [mgmtRead_receiving nonempty fits]
    exact runs
  · rw [processed.env]
    refine (config_setConfig x.env _ cmd).trans ?_
    rw [stored]
  · have responds :=
      @responds_simple x.env (setting.request text) smpOk fun b => by
        rw [written_setConfig x.env b cmd, stored]
    have reply : after.c.wbuf.content = headerOctets smpCmdSetConfig smpOk 0 ++
        [] := by
      refine processed.reply.trans ?_
      rw [← cmd]
      exact @Responds.content x.env (setting.request text) smpOk [] responds
        (by simp)
        (bufferInit mgmtWbuf fun _ => 0) rfl
    have told : doRequest after.c.wbuf.content =
        some ⟨smpCmdSetConfig, smpOk, []⟩ := by
      rw [reply]
      exact doRequest_response (by decide)
    rw [cmdSetConfig, cmdStatus, told]
    rfl

/-- The texts that set a setting to their value, or are refused, are exactly its
numerals; the size of the buffers stays in its range whatever is requested. -/
theorem set_config {key : Key} {x : MgmtCtx} (idle : MgmtIdle x) :
    (∀ (setting : Setting) (text : CString), ∃ octets after,
      cmdSetConfigRequest setting.name text = some octets ∧
      mgmtRead key (.receiving octets) x = some after ∧
      (setting.SetsExactly text x.env.config after.env.config
          (cmdSetConfig after.c.wbuf.content) ↔
        (setting.value text).isSome)) ∧
    ∀ {records : Records}, records.Reachable →
      configMinBuffer ≤ records.config.ioBufferSize ∧
        records.config.ioBufferSize ≤ configMaxBuffer := by
  refine ⟨?_, fun reached => ⟨reached.bounded.least, reached.bounded.most⟩⟩
  intro setting text
  obtain ⟨octets, after, asks, runs, config, exits⟩ :=
    @MgmtIdle.sets key x idle setting text
  refine ⟨octets, after, asks, runs, ?_⟩
  unfold Setting.SetsExactly
  cases given : setting.value text with
  | none =>
      rw [exits]
      simp
  | some v =>
      rw [exits, config, Setting.narrowed_eq given]
      simp

private def idleCtx : MgmtCtx where
  env :=
    envInit ⟨.empty, 0⟩ { configInitDefaults with authRequired := true }
    usersInit
  c := { mgmtNew 5 with state := .request, authOk := true }
  calls := []
  closed := false

private theorem mgmtIdle_idleCtx : MgmtIdle idleCtx := by
  constructor <;> decide +kernel

theorem set_config_timeout : ∃ octets after,
    cmdSetConfigRequest (.ofString "timeout") (.ofString "300") = some octets ∧
      mgmtRead ⟨5, 0⟩ (.receiving octets) idleCtx = some after ∧
      Setting.timeout.SetsExactly (.ofString "300") idleCtx.env.config
        after.env.config
        (cmdSetConfig after.c.wbuf.content) := by
  obtain ⟨octets, after, asks, runs, sets⟩ :=
    (@set_config ⟨5, 0⟩ idleCtx mgmtIdle_idleCtx).1 .timeout (.ofString "300")
  refine ⟨octets, after, asks, runs, ?_⟩
  rw [sets]
  decide +kernel

/-- "on" is not a numeral; it turns authentication off, and the client exits
with 0. -/
theorem set_config_off : ∃ octets after,
    cmdSetConfigRequest (.ofString "auth-required") (.ofString "on") =
      some octets ∧
      mgmtRead ⟨5, 0⟩ (.receiving octets) idleCtx = some after ∧
      idleCtx.env.config.authRequired = true ∧
      after.env.config.authRequired = false ∧
      cmdSetConfig after.c.wbuf.content = 0 ∧
      ¬ Setting.authRequired.SetsExactly (.ofString "on") idleCtx.env.config
        after.env.config (cmdSetConfig after.c.wbuf.content) := by
  obtain ⟨octets, after, asks, runs, config, exits⟩ :=
    @MgmtIdle.sets ⟨5, 0⟩ idleCtx mgmtIdle_idleCtx .authRequired
      (.ofString "on")
  refine ⟨octets, after, asks, runs, rfl, ?_, exits, ?_⟩
  · rw [config]
    decide +kernel
  · rw [exits]
    have unknown : Setting.authRequired.value (.ofString "on") = none := by
      decide +kernel
    rw [Setting.SetsExactly, unknown]
    rintro ⟨-, failed⟩
    cases failed

end SocksProxy
