import SocksProxy.Socks5.Types

/-! The SMP messages of `mgmt.c`: its parsers and the responses it builds. -/

namespace SocksProxy

def smpVersion : UInt8 := 0x01

def smpCmdMetrics : UInt8 := 0x00
def smpCmdAddUser : UInt8 := 0x01
def smpCmdDelUser : UInt8 := 0x02
def smpCmdListUsers : UInt8 := 0x03
def smpCmdGetConfig : UInt8 := 0x04
def smpCmdSetConfig : UInt8 := 0x05

def smpOk : UInt8 := 0x00
def smpUnknownCommand : UInt8 := 0x02
def smpInvalidArguments : UInt8 := 0x03
def smpUserNotFound : UInt8 := 0x05
def smpUserLimitReached : UInt8 := 0x06

def smpAuthOk : UInt8 := 0x00
def smpAuthFailed : UInt8 := 0x01

def smpCfgIoBufferSize : UInt8 := 0x01
def smpCfgConnTimeout : UInt8 := 0x02
def smpCfgAuthRequired : UInt8 := 0x03

def putU16 (b : Buffer) (v : Nat) : Buffer :=
  bufferWriteAll b [(v / 256).toUInt8, v.toUInt8]

def putU32 (b : Buffer) (v : Nat) : Buffer :=
  bufferWriteAll b
    [(v / 2 ^ 24).toUInt8, (v / 2 ^ 16).toUInt8, (v / 2 ^ 8).toUInt8, v.toUInt8]

def putU64 (b : Buffer) (v : Nat) : Buffer :=
  bufferWriteAll b
    ([7, 6, 5, 4, 3, 2, 1, 0].map fun i => (v / 2 ^ (i * 8)).toUInt8)

/-- `struct mgmt_req`; the two names are the octets copied before the
terminator. -/
structure MgmtReq where
  cmd : UInt8
  user : List UInt8
  pass : List UInt8
  key : UInt8
  u32 : Nat
  u8 : UInt8
  deriving DecidableEq, Repr

def MgmtReq.zero : MgmtReq := ⟨0, [], [], 0, 0, 0⟩

def octetAt (p : List UInt8) (i : Nat) : UInt8 := (p[i]?).getD 0

/-- The octets that `memcpy(dst, p + start, count)` copies. -/
def slice (p : List UInt8) (start count : Nat) : List UInt8 :=
  (p.drop start).take count

/-- -1 on an error, 0 when more octets are needed, and else the number of octets
consumed, with the user and the password. -/
def parseAuth (p : List UInt8) : Int × List UInt8 × List UInt8 :=
  if p.length < 2 then (0, [], [])
  else if octetAt p 0 ≠ smpVersion then (-1, [], [])
  else
    let ulen := (octetAt p 1).toNat
    if ulen = 0 then (-1, [], [])
    else if p.length < 2 + ulen + 1 then (0, [], [])
    else
      let plen := (octetAt p (2 + ulen)).toNat
      if plen = 0 then (-1, [], [])
      else
        let need := 2 + ulen + 1 + plen
        if p.length < need then (0, [], [])
        else (need, slice p 2 ulen, slice p (3 + ulen) plen)

def u32At (p : List UInt8) (i : Nat) : Nat :=
  (octetAt p i).toNat * 2 ^ 24 + (octetAt p (i + 1)).toNat * 2 ^ 16 +
    (octetAt p (i + 2)).toNat * 2 ^ 8 + (octetAt p (i + 3)).toNat

def parseAddUser (p : List UInt8) (r : MgmtReq) : Int × MgmtReq :=
  if p.length < 3 then (0, r)
  else
    let ulen := (octetAt p 2).toNat
    if ulen = 0 then (-1, r)
    else if p.length < 3 + ulen + 1 then (0, r)
    else
      let plen := (octetAt p (3 + ulen)).toNat
      if plen = 0 then (-1, r)
      else
        let need := 3 + ulen + 1 + plen
        if p.length < need then (0, r)
        else
          (need,
            { r with user := slice p 3 ulen, pass := slice p (4 + ulen) plen })

def parseDelUser (p : List UInt8) (r : MgmtReq) : Int × MgmtReq :=
  if p.length < 3 then (0, r)
  else
    let ulen := (octetAt p 2).toNat
    if ulen = 0 then (-1, r)
    else
      let need := 3 + ulen
      if p.length < need then (0, r)
      else (need, { r with user := slice p 3 ulen })

def parseSetConfig (p : List UInt8) (r : MgmtReq) : Int × MgmtReq :=
  if p.length < 3 then (0, r)
  else
    let r := { r with key := octetAt p 2 }
    if r.key = smpCfgAuthRequired then
      if p.length < 4 then (0, r) else (4, { r with u8 := octetAt p 3 })
    else if p.length < 7 then (0, r)
    else (7, { r with u32 := u32At p 3 })

/-- As `parseAuth`, and -2 for an unknown command. -/
def parseRequest (p : List UInt8) (r : MgmtReq) : Int × MgmtReq :=
  if p.length < 2 then (0, r)
  else if octetAt p 0 ≠ smpVersion then (-1, r)
  else
    let r := { r with cmd := octetAt p 1 }
    if r.cmd = smpCmdMetrics ∨ r.cmd = smpCmdListUsers ∨
        r.cmd = smpCmdGetConfig then (2, r)
    else if r.cmd = smpCmdAddUser then parseAddUser p r
    else if r.cmd = smpCmdDelUser then parseDelUser p r
    else if r.cmd = smpCmdSetConfig then parseSetConfig p r
    else (-2, r)

def respHeader (b : Buffer) (cmd status : UInt8) (datalen : Nat) : Buffer :=
  putU16 (bufferWriteAll b [smpVersion, cmd, status]) datalen

def respSimple (b : Buffer) (cmd status : UInt8) : Buffer :=
  respHeader b cmd status 0

def respMetrics (env : Env) (b : Buffer) : Buffer :=
  let m := env.metrics
  [m.historicConnections, m.currentConnections, metricsBytesTransferred m,
    m.failedConnections, usersCount env.users, m.bytesSent,
    m.bytesReceived].foldl putU64 (respHeader b smpCmdMetrics smpOk 56)

def respGetConfig (env : Env) (b : Buffer) : Buffer :=
  let config := env.config
  bufferWrite
    (putU32
      (putU32 (respHeader b smpCmdGetConfig smpOk 9) config.ioBufferSize)
      config.connTimeoutSecs)
    (if config.authRequired then 1 else 0)

/-- The names that `users_name_at` gives for `0 .. users_count() - 1`. -/
def registeredNames (db : UserTable) : List CString :=
  (List.range (usersCount db)).map fun i => (usersNameAt db i).getD .empty

def respListUsers (env : Env) (b : Buffer) : Buffer :=
  let names := registeredNames env.users
  let datalen :=
    names.foldl (fun sum n => (sum + 1 + n.strlen % 2 ^ 32) % 2 ^ 32) 2
  let b := respHeader b smpCmdListUsers smpOk (datalen % 2 ^ 16)
  let b := putU16 b (names.length % 2 ^ 16)
  names.foldl
    (fun b n => bufferWriteAll (bufferWrite b n.strlen.toUInt8) n.octets) b

/-- The part of `process_request` for `SMP_CMD_SET_CONFIG`. -/
def setConfig (config : ProxyConfig) (r : MgmtReq) : ProxyConfig × UInt8 :=
  if r.key = smpCfgIoBufferSize then
    let low := if r.u32 < configMinBuffer then configMinBuffer else r.u32
    let value := if low > configMaxBuffer then configMaxBuffer else low
    ({ config with ioBufferSize := value }, smpOk)
  else if r.key = smpCfgConnTimeout then
    ({ config with connTimeoutSecs := r.u32 }, smpOk)
  else if r.key = smpCfgAuthRequired then
    ({ config with authRequired := r.u8 != 0 }, smpOk)
  else (config, smpInvalidArguments)

def addUserStatus : UsersResult → UInt8
  | .full => smpUserLimitReached
  | .invalid => smpInvalidArguments
  | _ => smpOk

def delUserStatus : UsersResult → UInt8
  | .ok => smpOk
  | .notFound => smpUserNotFound
  | _ => smpInvalidArguments

/-- `process_request`: the effect of a request and the response it writes. -/
def processMgmtRequest (env : Env) (b : Buffer) (r : MgmtReq) : Env × Buffer :=
  if r.cmd = smpCmdMetrics then (env, respMetrics env b)
  else if r.cmd = smpCmdGetConfig then (env, respGetConfig env b)
  else if r.cmd = smpCmdListUsers then (env, respListUsers env b)
  else if r.cmd = smpCmdAddUser then
    let (users, result) :=
      usersAdd env.users (some (.ofArray r.user)) (some (.ofArray r.pass))
    ({ env with users := users }, respSimple b r.cmd (addUserStatus result))
  else if r.cmd = smpCmdDelUser then
    let (users, result) := usersDel env.users (some (.ofArray r.user))
    ({ env with users := users }, respSimple b r.cmd (delUserStatus result))
  else if r.cmd = smpCmdSetConfig then
    let (config, status) := setConfig env.config r
    ({ env with config := config }, respSimple b r.cmd status)
  else (env, respSimple b r.cmd smpUnknownCommand)

end SocksProxy
