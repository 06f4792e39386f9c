import SocksProxy.Mgmt.Protocol
import SocksProxy.Socks5.Messages

/-! The well-formed SMP messages as octet strings, and what the parsers of
`mgmt.c` make of a stream that begins with one, or with a part of one. -/

namespace SocksProxy

abbrev Field := { octets : List UInt8 // FieldLength octets }

/-- The well-formed requests; the octets after a command that is not known are
not part of its message. -/
inductive SmpRequest
  | metrics
  | listUsers
  | getConfig
  | addUser (user pass : Field)
  | delUser (user : Field)
  | setConfig (key : UInt8) (value : List UInt8)
      (sized : value.length = if key = smpCfgAuthRequired then 1 else 4)
  | unknown (cmd : UInt8) (undefined : smpCmdSetConfig < cmd)

namespace SmpRequest

def encode : SmpRequest → List UInt8
  | metrics => [smpVersion, smpCmdMetrics]
  | listUsers => [smpVersion, smpCmdListUsers]
  | getConfig => [smpVersion, smpCmdGetConfig]
  | addUser user pass =>
      [smpVersion, smpCmdAddUser, user.val.length.toUInt8] ++
        (user.val ++ pass.val.length.toUInt8 :: pass.val)
  | delUser user =>
      [smpVersion, smpCmdDelUser, user.val.length.toUInt8] ++ user.val
  | setConfig key value _ => [smpVersion, smpCmdSetConfig, key] ++ value
  | unknown cmd _ => [smpVersion, cmd]

def parsed : SmpRequest → MgmtReq
  | metrics => { MgmtReq.zero with cmd := smpCmdMetrics }
  | listUsers => { MgmtReq.zero with cmd := smpCmdListUsers }
  | getConfig => { MgmtReq.zero with cmd := smpCmdGetConfig }
  | addUser user pass =>
      { MgmtReq.zero with cmd := smpCmdAddUser, user := user, pass := pass }
  | delUser user => { MgmtReq.zero with cmd := smpCmdDelUser, user := user }
  | setConfig key value _ =>
      if key = smpCfgAuthRequired then
        { MgmtReq.zero with
          cmd := smpCmdSetConfig, key := key, u8 := octetAt value 0 }
      else
        { MgmtReq.zero with
          cmd := smpCmdSetConfig, key := key, u32 := u32At value 0 }
  | unknown cmd _ => { MgmtReq.zero with cmd := cmd }

def code : SmpRequest → Int
  | unknown .. => -2
  | request => request.encode.length

end SmpRequest

theorem octetAt_after {front : List UInt8} {i : Nat}
    (counted : front.length = i) (octet : UInt8) (rest : List UInt8) :
    octetAt (front ++ octet :: rest) i = octet := by
  subst counted
  simp [octetAt]

theorem slice_after {front field : List UInt8} {start count : Nat}
    (first : front.length = start) (counted : field.length = count)
    (rest : List UInt8) :
    slice (front ++ (field ++ rest)) start count = field := by
  subst first counted
  simp [slice]

theorem octetAt_take (octets : List UInt8) {count i : Nat} (below : i < count) :
    octetAt (octets.take count) i = octetAt octets i := by
  simp [octetAt, below]

section Handshake

private theorem auth_split (user pass rest : List UInt8) :
    authMessage user pass ++ rest =
      (0x01 :: user.length.toUInt8 :: user) ++
        pass.length.toUInt8 :: (pass ++ rest) := by
  simp [authMessage]

private theorem auth_plen (user pass rest : List UInt8) :
    octetAt (authMessage user pass ++ rest) (2 + user.length) =
      pass.length.toUInt8 := by
  rw [auth_split]
  exact octetAt_after (by simp; omega) _ _

theorem length_authMessage (user pass : List UInt8) :
    (authMessage user pass).length = 2 + user.length + 1 + pass.length := by
  simp [authMessage]
  omega

variable {user pass : List UInt8} (validUser : FieldLength user)
  (validPass : FieldLength pass)

include validUser validPass

theorem parseAuth_message (rest : List UInt8) :
    parseAuth (authMessage user pass ++ rest) =
      (((authMessage user pass).length : Int), user, pass) := by
  have ulen : (octetAt (authMessage user pass ++ rest) 1).toNat = user.length :=
    toNat_length validUser.2
  have plen :
      (octetAt (authMessage user pass ++ rest) (2 + user.length)).toNat =
        pass.length := by
    rw [auth_plen, toNat_length validPass.2]
  have long : (authMessage user pass ++ rest).length =
      2 + user.length + 1 + pass.length + rest.length := by
    rw [List.length_append, length_authMessage]
  have name : slice (authMessage user pass ++ rest) 2 user.length = user := by
    have split : authMessage user pass ++ rest =
        [0x01, user.length.toUInt8] ++
          (user ++ (pass.length.toUInt8 :: pass ++ rest)) := by
      simp [authMessage]
    rw [split]
    exact slice_after rfl rfl _
  have word : slice (authMessage user pass ++ rest) (3 + user.length)
      pass.length = pass := by
    have split : authMessage user pass ++ rest =
        ((0x01 :: user.length.toUInt8 :: user) ++ [pass.length.toUInt8]) ++
          (pass ++ rest) := by
      simp [authMessage]
    rw [split]
    exact slice_after (by simp; omega) rfl _
  have version : octetAt (authMessage user pass ++ rest) 0 = smpVersion := rfl
  have someUser := validUser.1
  have somePass := validPass.1
  unfold parseAuth
  simp only [ulen, plen, long, name, word, length_authMessage]
  rw [if_neg (by omega), if_neg (by rw [version]; exact not_not_intro rfl),
    if_neg (by omega), if_neg (by omega),
    if_neg (by omega), if_neg (by omega)]

theorem parseAuth_part {count : Nat}
    (part : count < (authMessage user pass).length) :
    (parseAuth ((authMessage user pass).take count)).1 = 0 := by
  rw [length_authMessage] at part
  have long : ((authMessage user pass).take count).length = count := by
    rw [List.length_take, length_authMessage]
    omega
  have someUser := validUser.1
  have somePass := validPass.1
  unfold parseAuth
  simp only [long]
  split
  · rfl
  next two =>
    have version : octetAt ((authMessage user pass).take count) 0 =
        smpVersion := by
      rw [octetAt_take _ (by omega)]
      rfl
    have ulen : (octetAt ((authMessage user pass).take count) 1).toNat =
        user.length := by
      rw [octetAt_take _ (by omega)]
      exact toNat_length validUser.2
    rw [if_neg (by rw [version]; decide), ulen, if_neg (by omega)]
    split
    · rfl
    next named =>
      have plen : (octetAt ((authMessage user pass).take count)
          (2 + user.length)).toNat = pass.length := by
        have whole := auth_plen user pass []
        rw [List.append_nil] at whole
        rw [octetAt_take _ (by omega), whole, toNat_length validPass.2]
      rw [plen, if_neg (by omega), if_pos (by omega)]

end Handshake

namespace SmpRequest

section AddUser

variable {user pass : List UInt8} (validUser : FieldLength user)
  (validPass : FieldLength pass) (r : MgmtReq)

private def addUserOctets (user pass : List UInt8) : List UInt8 :=
  [smpVersion, smpCmdAddUser, user.length.toUInt8] ++
    (user ++ pass.length.toUInt8 :: pass)

private theorem addUser_length (user pass : List UInt8) :
    (addUserOctets user pass).length = 3 + user.length + 1 + pass.length := by
  simp [addUserOctets]
  omega

private theorem addUser_plen (user pass rest : List UInt8) :
    octetAt (addUserOctets user pass ++ rest) (3 + user.length) =
      pass.length.toUInt8 := by
  have split : addUserOctets user pass ++ rest =
      ([smpVersion, smpCmdAddUser, user.length.toUInt8] ++ user) ++
        pass.length.toUInt8 :: (pass ++ rest) := by
    simp [addUserOctets]
  rw [split]
  exact octetAt_after (by simp; omega) _ _

include validUser validPass

private theorem parseAddUser_whole (rest : List UInt8) :
    parseAddUser (addUserOctets user pass ++ rest) r =
      (((addUserOctets user pass).length : Int),
        { r with user := user, pass := pass }) := by
  have ulen : (octetAt (addUserOctets user pass ++ rest) 2).toNat =
      user.length :=
    toNat_length validUser.2
  have plen : (octetAt (addUserOctets user pass ++ rest)
      (3 + user.length)).toNat = pass.length := by
    rw [addUser_plen, toNat_length validPass.2]
  have long : (addUserOctets user pass ++ rest).length =
      3 + user.length + 1 + pass.length + rest.length := by
    rw [List.length_append, addUser_length]
  have name : slice (addUserOctets user pass ++ rest) 3 user.length = user := by
    have split : addUserOctets user pass ++ rest =
        [smpVersion, smpCmdAddUser, user.length.toUInt8] ++
          (user ++ (pass.length.toUInt8 :: pass ++ rest)) := by
      simp [addUserOctets]
    rw [split]
    exact slice_after rfl rfl _
  have word : slice (addUserOctets user pass ++ rest) (4 + user.length)
      pass.length = pass := by
    have split : addUserOctets user pass ++ rest =
        ([smpVersion, smpCmdAddUser, user.length.toUInt8] ++ user ++
          [pass.length.toUInt8]) ++ (pass ++ rest) := by
      simp [addUserOctets]
    rw [split]
    exact slice_after (by simp; omega) rfl _
  have someUser := validUser.1
  have somePass := validPass.1
  unfold parseAddUser
  simp only [ulen, plen, long, name, word, addUser_length]
  rw [if_neg (by omega), if_neg (by omega), if_neg (by omega),
    if_neg (by omega),
    if_neg (by omega)]

private theorem parseAddUser_part {count : Nat}
    (part : count < (addUserOctets user pass).length) :
    (parseAddUser ((addUserOctets user pass).take count) r).1 = 0 := by
  rw [addUser_length] at part
  have long : ((addUserOctets user pass).take count).length = count := by
    rw [List.length_take, addUser_length]
    omega
  have someUser := validUser.1
  have somePass := validPass.1
  unfold parseAddUser
  simp only [long]
  split
  · rfl
  next three =>
    have ulen : (octetAt ((addUserOctets user pass).take count) 2).toNat =
        user.length := by
      rw [octetAt_take _ (by omega)]
      exact toNat_length validUser.2
    rw [ulen, if_neg (by omega)]
    split
    · rfl
    next named =>
      have plen : (octetAt ((addUserOctets user pass).take count)
          (3 + user.length)).toNat = pass.length := by
        have whole := addUser_plen user pass []
        rw [List.append_nil] at whole
        rw [octetAt_take _ (by omega), whole, toNat_length validPass.2]
      rw [plen, if_neg (by omega), if_pos (by omega)]

end AddUser

section DelUser

variable {user : List UInt8} (valid : FieldLength user) (r : MgmtReq)

private def delUserOctets (user : List UInt8) : List UInt8 :=
  [smpVersion, smpCmdDelUser, user.length.toUInt8] ++ user

private theorem delUser_length (user : List UInt8) :
    (delUserOctets user).length = 3 + user.length := by
  simp [delUserOctets]
  omega

include valid

private theorem parseDelUser_whole (rest : List UInt8) :
    parseDelUser (delUserOctets user ++ rest) r =
      (((delUserOctets user).length : Int), { r with user := user }) := by
  have ulen : (octetAt (delUserOctets user ++ rest) 2).toNat = user.length :=
    toNat_length valid.2
  have long : (delUserOctets user ++ rest).length =
      3 + user.length + rest.length := by
    rw [List.length_append, delUser_length]
  have name : slice (delUserOctets user ++ rest) 3 user.length = user := by
    have split : delUserOctets user ++ rest =
        [smpVersion, smpCmdDelUser, user.length.toUInt8] ++ (user ++ rest) := by
      simp [delUserOctets]
    rw [split]
    exact slice_after rfl rfl _
  have some := valid.1
  unfold parseDelUser
  simp only [ulen, long, name, delUser_length]
  rw [if_neg (by omega), if_neg (by omega), if_neg (by omega)]

private theorem parseDelUser_part {count : Nat}
    (part : count < (delUserOctets user).length) :
    (parseDelUser ((delUserOctets user).take count) r).1 = 0 := by
  rw [delUser_length] at part
  have long : ((delUserOctets user).take count).length = count := by
    rw [List.length_take, delUser_length]
    omega
  have some := valid.1
  unfold parseDelUser
  simp only [long]
  split
  · rfl
  next three =>
    have ulen : (octetAt ((delUserOctets user).take count) 2).toNat =
        user.length := by
      rw [octetAt_take _ (by omega)]
      exact toNat_length valid.2
    rw [ulen, if_neg (by omega), if_pos (by omega)]

end DelUser

section SetConfig

variable {key : UInt8} {value : List UInt8}
  (sized : value.length = if key = smpCfgAuthRequired then 1 else 4)
  (r : MgmtReq)

include sized

private theorem parseSetConfig_whole (rest : List UInt8) :
    parseSetConfig ([smpVersion, smpCmdSetConfig, key] ++ (value ++ rest)) r =
      (((3 + value.length : Nat) : Int),
        if key = smpCfgAuthRequired then
          { r with key := key, u8 := octetAt value 0 }
        else { r with key := key, u32 := u32At value 0 }) := by
  by_cases auth : key = smpCfgAuthRequired
  · rw [if_pos auth] at sized
    obtain ⟨octet, rfl⟩ := List.length_eq_one_iff.mp sized
    simp [parseSetConfig, octetAt, auth]
    rw [if_neg (by omega), if_neg (by omega)]
  · rw [if_neg auth] at sized
    obtain ⟨first, second, third, fourth, rfl⟩ := List.length_eq_four.mp sized
    simp [parseSetConfig, octetAt, u32At, auth]
    rw [if_neg (by omega), if_neg (by omega)]

private theorem parseSetConfig_part {count : Nat}
    (part : count < 3 + value.length) :
    (parseSetConfig (([smpVersion, smpCmdSetConfig, key] ++ value).take count)
      r).1 = 0 := by
  have long :
      (([smpVersion, smpCmdSetConfig, key] ++ value).take count).length =
        count := by
    simp only [List.length_take, List.length_append, List.length_cons,
      List.length_nil]
    omega
  unfold parseSetConfig
  simp only [long]
  split
  · rfl
  next three =>
    have named :
        octetAt (([smpVersion, smpCmdSetConfig, key] ++ value).take count)
        2 = key := by
      rw [octetAt_take _ (by omega)]
      rfl
    rw [named]
    split
    next auth =>
      rw [if_pos auth] at sized
      rw [if_pos (by omega)]
    next other =>
      rw [if_neg other] at sized
      rw [if_pos (by omega)]

end SetConfig

theorem encode_length (r : SmpRequest) : 2 ≤ r.encode.length := by
  cases r <;> simp [encode]

/-- No request is longer than a user name and a password allow. -/
theorem encode_length_le (r : SmpRequest) : r.encode.length ≤ 514 := by
  cases r with
  | addUser user pass =>
      have smallUser := user.property.2
      have smallPass := pass.property.2
      simp only [encode, List.length_append, List.length_cons, List.length_nil]
      omega
  | delUser user =>
      have small := user.property.2
      simp only [encode, List.length_append, List.length_cons, List.length_nil]
      omega
  | setConfig key value sized =>
      simp only [encode, List.length_append, List.length_cons, List.length_nil,
        sized]
      split <;> omega
  | _ => simp [encode]

theorem undefined_ne {cmd : UInt8} (undefined : smpCmdSetConfig < cmd) :
    ¬ (cmd = smpCmdMetrics ∨ cmd = smpCmdListUsers ∨ cmd = smpCmdGetConfig) ∧
      cmd ≠ smpCmdAddUser ∧ cmd ≠ smpCmdDelUser ∧ cmd ≠ smpCmdSetConfig := by
  refine ⟨?_, ?_, ?_, ?_⟩
  · rintro (rfl | rfl | rfl) <;> exact absurd undefined (by decide)
  · rintro rfl
    exact absurd undefined (by decide)
  · rintro rfl
    exact absurd undefined (by decide)
  · rintro rfl
    exact absurd undefined (by decide)

theorem parseRequest_encode (r : SmpRequest) (rest : List UInt8) :
    parseRequest (r.encode ++ rest) .zero = (r.code, r.parsed) := by
  have long : ¬ (r.encode ++ rest).length < 2 := by
    have two := r.encode_length
    rw [List.length_append]
    omega
  unfold parseRequest
  rw [if_neg long]
  cases r with
  | metrics => rfl
  | listUsers => rfl
  | getConfig => rfl
  | addUser user pass =>
      exact parseAddUser_whole user.property pass.property
        { MgmtReq.zero with cmd := smpCmdAddUser } rest
  | delUser user =>
      exact parseDelUser_whole user.property
        { MgmtReq.zero with cmd := smpCmdDelUser } rest
  | setConfig key value sized =>
      have whole := parseSetConfig_whole sized
        { MgmtReq.zero with cmd := smpCmdSetConfig } rest
      rw [← List.append_assoc] at whole
      simp only [code, encode, List.length_append]
      exact whole
  | unknown cmd undefined =>
      obtain ⟨known, add, del, config⟩ := undefined_ne undefined
      change (if cmd = smpCmdMetrics ∨ cmd = smpCmdListUsers ∨
          cmd = smpCmdGetConfig then _ else _) = _
      rw [if_neg known]
      change (if cmd = smpCmdAddUser then _ else _) = _
      rw [if_neg add]
      change (if cmd = smpCmdDelUser then _ else _) = _
      rw [if_neg del]
      change (if cmd = smpCmdSetConfig then _ else _) = _
      rw [if_neg config]
      rfl

theorem parseRequest_part (r : SmpRequest) {count : Nat}
    (part : count < r.encode.length) :
    (parseRequest (r.encode.take count) .zero).1 = 0 := by
  have long : (r.encode.take count).length = count := by
    rw [List.length_take]
    omega
  unfold parseRequest
  rw [long]
  split
  · rfl
  next two =>
    have version : octetAt (r.encode.take count) 0 = smpVersion := by
      rw [octetAt_take _ (by omega)]
      cases r <;> rfl
    rw [if_neg (by rw [version]; exact not_not_intro rfl)]
    rw [octetAt_take _ (by omega)]
    cases r with
    | addUser user pass =>
        exact parseAddUser_part user.property pass.property _ part
    | delUser user => exact parseDelUser_part user.property _ part
    | setConfig key value sized =>
        refine parseSetConfig_part sized _ ?_
        simp only [encode, List.length_append, List.length_cons,
          List.length_nil] at part
        omega
    | _ => exact absurd part two

end SmpRequest

/-! Responses.  What is written for a request does not depend on the buffer that
it is written into. -/

def Appends (f : Buffer → Buffer) : Prop :=
  ∃ octets, ∀ b, f b = bufferWriteAll b octets

namespace Appends

theorem writeAll (octets : List UInt8) : Appends (bufferWriteAll · octets) :=
  ⟨octets, fun _ => rfl⟩

theorem write (octet : UInt8) : Appends (bufferWrite · octet) :=
  ⟨[octet], fun _ => rfl⟩

theorem comp {f g : Buffer → Buffer} (outer : Appends g) (inner : Appends f) :
    Appends fun b => g (f b) := by
  obtain ⟨first, writesFirst⟩ := inner
  obtain ⟨second, writesSecond⟩ := outer
  refine ⟨first ++ second, fun b => ?_⟩
  change g (f b) = _
  rw [writesFirst, writesSecond, bufferWriteAll, bufferWriteAll, bufferWriteAll,
    List.foldl_append]

theorem foldl {α : Type} {f : Buffer → α → Buffer}
    (writes : ∀ a, Appends fun b => f b a) (items : List α) :
    Appends fun b => items.foldl f b := by
  induction items with
  | nil => exact ⟨[], fun _ => rfl⟩
  | cons item items induction => exact induction.comp (writes item)

end Appends

theorem appends_respHeader (cmd status : UInt8) (datalen : Nat) :
    Appends fun b => respHeader b cmd status datalen :=
  (Appends.writeAll _).comp (.writeAll _)

theorem appends_putU64 (v : Nat) : Appends fun b => putU64 b v :=
  .writeAll _

theorem appends_respMetrics (env : Env) : Appends (respMetrics env) := by
  let m := env.metrics
  exact Appends.comp (f := fun b => respHeader b smpCmdMetrics smpOk 56)
    (g := fun b => [m.historicConnections, m.currentConnections,
      metricsBytesTransferred m, m.failedConnections, usersCount env.users,
      m.bytesSent, m.bytesReceived].foldl putU64 b)
    (.foldl appends_putU64 _) (appends_respHeader smpCmdMetrics smpOk 56)

theorem appends_respGetConfig (env : Env) : Appends (respGetConfig env) := by
  have size : Appends fun b => putU32 (respHeader b smpCmdGetConfig smpOk 9)
      env.config.ioBufferSize :=
    Appends.comp (g := fun b => putU32 b env.config.ioBufferSize) (.writeAll _)
      (appends_respHeader smpCmdGetConfig smpOk 9)
  have timeout :=
    Appends.comp (g := fun b => putU32 b env.config.connTimeoutSecs)
    (.writeAll _) size
  exact Appends.comp
    (g := fun b => bufferWrite b (if env.config.authRequired then 1 else 0))
    (.write _) timeout

theorem appends_respListUsers (env : Env) : Appends (respListUsers env) := by
  have name (n : CString) : Appends fun b =>
      bufferWriteAll (bufferWrite b n.strlen.toUInt8) n.octets :=
    Appends.comp (g := fun b => bufferWriteAll b n.octets) (.writeAll _)
      (.write _)
  have header (count datalen : Nat) : Appends fun b =>
      putU16 (respHeader b smpCmdListUsers smpOk datalen) count :=
    Appends.comp (g := fun b => putU16 b count) (.writeAll _)
      (appends_respHeader smpCmdListUsers smpOk datalen)
  unfold respListUsers
  exact Appends.comp (.foldl name _) (header _ _)

/-- Every response is written after what the buffer held. -/
theorem appends_processMgmtRequest (env : Env) (r : MgmtReq) :
    Appends fun b => (processMgmtRequest env b r).2 := by
  have simple (status : UInt8) : Appends fun b => respSimple b r.cmd status :=
    appends_respHeader r.cmd status 0
  unfold processMgmtRequest
  split
  · dsimp only
    exact appends_respMetrics env
  · split
    · dsimp only
      exact appends_respGetConfig env
    · split
      · dsimp only
        exact appends_respListUsers env
      · split
        · generalize usersAdd env.users (some (.ofArray r.user))
            (some (.ofArray r.pass)) = added
          obtain ⟨users, result⟩ := added
          dsimp only
          exact simple (addUserStatus result)
        · split
          · generalize usersDel env.users (some (.ofArray r.user)) = deleted
            obtain ⟨users, result⟩ := deleted
            dsimp only
            exact simple (delUserStatus result)
          · split
            · generalize setConfig env.config r = changed
              obtain ⟨config, status⟩ := changed
              dsimp only
              exact simple status
            · dsimp only
              exact simple smpUnknownCommand

theorem processMgmtRequest_env (env : Env) (left right : Buffer) (r : MgmtReq) :
    (processMgmtRequest env left r).1 = (processMgmtRequest env right r).1 := by
  unfold processMgmtRequest
  split
  · rfl
  · split
    · rfl
    · split
      · rfl
      · split
        · rfl
        · split
          · rfl
          · split <;> rfl

section Selector

variable (env : Env) (selector : Selector) (b : Buffer)

private theorem respMetrics_selector :
    respMetrics { env with selector := selector } b = respMetrics env b := by
  simp only [respMetrics]

private theorem respGetConfig_selector :
    respGetConfig { env with selector := selector } b =
      respGetConfig env b := by
  simp only [respGetConfig]

private theorem respListUsers_selector :
    respListUsers { env with selector := selector } b =
      respListUsers env b := by
  simp only [respListUsers]

theorem processMgmtRequest_selector (r : MgmtReq) :
    processMgmtRequest { env with selector := selector } b r =
      ({ (processMgmtRequest env b r).1 with selector := selector },
        (processMgmtRequest env b r).2) := by
  unfold processMgmtRequest
  split
  · rw [respMetrics_selector]
  · split
    · rw [respGetConfig_selector]
    · split
      · rw [respListUsers_selector]
      · split
        · dsimp only
        · split
          · dsimp only
          · split
            · dsimp only
            · dsimp only

end Selector

theorem selector_processMgmtRequest (env : Env) (b : Buffer) (r : MgmtReq) :
    (processMgmtRequest env b r).1.selector = env.selector := by
  unfold processMgmtRequest
  split
  · rfl
  · split
    · rfl
    · split
      · rfl
      · split
        · dsimp only
        · split
          · dsimp only
          · split
            · dsimp only
            · rfl

theorem admin_setConfig (config : ProxyConfig) (r : MgmtReq) :
    (setConfig config r).1.adminUser = config.adminUser ∧
      (setConfig config r).1.adminPass = config.adminPass := by
  unfold setConfig
  split
  · exact ⟨rfl, rfl⟩
  · split
    · exact ⟨rfl, rfl⟩
    · split <;> exact ⟨rfl, rfl⟩

theorem admin_processMgmtRequest (env : Env) (b : Buffer) (r : MgmtReq) :
    (processMgmtRequest env b r).1.config.adminUser = env.config.adminUser ∧
      (processMgmtRequest env b r).1.config.adminPass =
        env.config.adminPass := by
  unfold processMgmtRequest
  split
  · exact ⟨rfl, rfl⟩
  · split
    · exact ⟨rfl, rfl⟩
    · split
      · exact ⟨rfl, rfl⟩
      · split
        · exact ⟨rfl, rfl⟩
        · split
          · exact ⟨rfl, rfl⟩
          · split
            · exact admin_setConfig env.config r
            · exact ⟨rfl, rfl⟩

theorem processMgmtRequest_unknown (env : Env) (b : Buffer) {cmd : UInt8}
    (undefined : smpCmdSetConfig < cmd) :
    processMgmtRequest env b (SmpRequest.unknown cmd undefined).parsed =
      (env, respSimple b cmd smpUnknownCommand) := by
  obtain ⟨known, add, del, config⟩ := SmpRequest.undefined_ne undefined
  rw [not_or, not_or] at known
  simp only [processMgmtRequest, SmpRequest.parsed, known.1, known.2.1,
    known.2.2, add, del, config, if_false]

theorem SmpRequest.code_eq (r : SmpRequest) :
    (∃ cmd undefined, r = .unknown cmd undefined) ∨
      r.code = (r.encode.length : Int) := by
  cases r with
  | unknown cmd undefined => exact .inl ⟨cmd, undefined, rfl⟩
  | _ => exact .inr rfl

end SocksProxy
