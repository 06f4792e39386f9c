import SocksProxy.Socks5.Types

/-! The state handlers of `socks5.c`.  Each takes the key of the descriptor that
became ready, the answers of the operating system, and the state it runs in. -/

namespace SocksProxy

def errnoToReply (e : Errno) : UInt8 :=
  if e = 0 then repSuccess
  else if e = eConnRefused then repConnectionRefused
  else if e = eNetUnreach then repNetworkUnreachable
  else if e = eNetDown then repNetworkUnreachable
  else if e = eHostUnreach then repHostUnreachable
  else if e = eHostDown then repHostUnreachable
  else if e = eTimedOut then repTtlExpired
  else repGeneralFailure

def buildReply (s : Socks5) (rep : UInt8) (sockname : Option SockAddr) :
    Socks5 :=
  let bound := if rep = repSuccess ∧ s.originFd.isSome then sockname else none
  let tail : List UInt8 :=
    match bound with
    | some address =>
        let count := if address.family = .inet6 then 16 else 4
        (if address.family = .inet6 then atypIpv6 else atypIpv4) ::
          (List.range count).map (fun i => (address.addr[i]?).getD 0) ++
          [(address.port / 256).toUInt8, (address.port % 256).toUInt8]
    | none => [atypIpv4, 0, 0, 0, 0, 0, 0]
  { s with
    writeBuffer :=
      bufferWriteAll (bufferReset s.writeBuffer) ([0x05, rep, 0x00] ++ tail) }

def originString (s : Socks5) : CString := sockaddrToHuman s.clientAddr

/-- The `"%s:%u"` text of the destination. -/
def destString (s : Socks5) : CString :=
  (s.destHost.append (.ofString ":")).append (.ofNat s.destPort)

/-- The user name of the log records, `"-"` when there is none. -/
def logUser (s : Socks5) : CString :=
  if s.username = .empty then .ofString "-" else s.username

/-- The registration that ends a successful attempt: it makes the descriptor the
origin of the connection, or closes it. -/
def registerOrigin (key : Key) (c : Ctx) (fd : Fd) (i : Interest) :
    Ctx × Bool :=
  match selectorRegister c.env.selector fd .socks5 i key.data with
  | (selector, .success) =>
      ({ c with
          env := { c.env with selector := selector }
          s := { c.s with
            originFd := some fd
            references := c.s.references + 1 } }, true)
  | _ => (c.closeFd fd, false)

def Ctx.nextCandidate (c : Ctx) : Ctx :=
  { c with s := { c.s with addrIdx := c.s.addrIdx + 1 } }

def Ctx.setReply (c : Ctx) (reply : UInt8) : Ctx :=
  { c with s := { c.s with reply := reply } }

/-- `socket`, with the descriptor that the kernel hands out. -/
def Ctx.openOrigin (c : Ctx) : Fd × Ctx :=
  let (fd, kernel) := c.env.kernel.openSocket (.origin .unconnected)
  (fd, { c with env := { c.env with kernel := kernel } })

def Ctx.connect (c : Ctx) (fd : Fd) (address : SockAddr) (e : Errno) : Ctx :=
  let status : ConnectStatus :=
    if e = 0 then .connected
    else if e = eInProgress ∨ e = eIntr then .inProgress
    else .failed e
  { c.call (.connect fd address e) with
    env := { c.env with kernel := c.env.kernel.setStatus fd status } }

/-- One round of the loop of `start_connection`: the state to enter, or `none`
to go on with the next candidate. -/
def tryCandidate (key : Key) (a : Answers) (c : Ctx) :
    Ctx × Option SocksState :=
  let address := (c.s.addrs[c.s.addrIdx]?).getD default
  let attempt := a.attempt c.s.addrIdx
  if attempt.socket ≠ 0 then
    ((c.setReply (errnoToReply attempt.socket)).nextCandidate, none)
  else
    let (fd, c) := c.openOrigin
    if !attempt.nio then ((c.closeFd fd).nextCandidate, none)
    else
      let c := c.connect fd address attempt.connect
      if attempt.connect = 0 then
        match registerOrigin key c fd opNoop with
        | (c, true) => (c.setReply repSuccess, some .requestWrite)
        | (c, false) => (c.nextCandidate, none)
      else if attempt.connect = eInProgress ∨ attempt.connect = eIntr then
        match registerOrigin key c fd opWrite with
        | (c, true) => (c, some .requestConnecting)
        | (c, false) => (c.nextCandidate, none)
      else
        (((c.setReply (errnoToReply attempt.connect)).closeFd fd).nextCandidate,
          none)

/-- The loop of `start_connection`, with the number of candidates left. -/
def tryCandidates (key : Key) (a : Answers) : Nat → Ctx → Ctx × SocksState
  | 0, c =>
      if c.s.reply = repSuccess then
        (c.setReply repHostUnreachable, .requestWrite)
      else (c, .requestWrite)
  | left + 1, c =>
      match tryCandidate key a c with
      | (c, some next) => (c, next)
      | (c, none) => tryCandidates key a left c

def startConnection (key : Key) (a : Answers) (c : Ctx) : Ctx × SocksState :=
  tryCandidates key a (c.s.naddrs - c.s.addrIdx) (c.call .startConnection)

/-! The two skeletons that the handshake handlers share -/

/-- How a `recv` into the read buffer ended: nothing for now, the connection is
over, or octets were added. -/
inductive RecvStep
  | again | failed | received
  deriving DecidableEq, Repr

def recvClient (a : Answers) (c : Ctx) : Ctx × RecvStep :=
  match c.recv c.s.clientFd c.s.readBuffer.space a.recv with
  | (c, .error e) => (c, if wouldBlock e then .again else .failed)
  | (c, .ok []) => (c, .failed)
  | (c, .ok octets) =>
      ({ c with
          s := { c.s with readBuffer := bufferFill c.s.readBuffer octets } },
        .received)

/-- How a `send` from the write buffer ended: octets are left, the connection is
over, or everything was sent. -/
inductive SendStep
  | more | failed | flushed
  deriving DecidableEq, Repr

def sendClient (a : Answers) (c : Ctx) : Ctx × SendStep :=
  match c.send c.s.clientFd c.s.writeBuffer.content a.send with
  | (c, .error e) => (c, if wouldBlock e then .more else .failed)
  | (c, .ok count) =>
      let c := { c with
        s := { c.s with writeBuffer := bufferReadAdv c.s.writeBuffer count } }
      (c, if bufferCanRead c.s.writeBuffer then .more else .flushed)

/-- The check `selector_set_interest(..) != SELECTOR_SUCCESS`. -/
def setInterestOrFail (c : Ctx) (i : Interest) (next : SocksState) :
    Ctx × SocksState :=
  match c.setInterest c.s.clientFd i with
  | (c, .success) => (c, next)
  | (c, _) => (c, .errorState)

def chooseMethod (config : ProxyConfig) (s : Socks5) : UInt8 :=
  if config.authRequired then
    if s.hello.hasUserpass then methodUserpass else methodNone
  else if s.hello.hasNoauth then methodNoAuth
  else if s.hello.hasUserpass then methodUserpass
  else methodNone

def helloRead (_ : Key) (a : Answers) (c : Ctx) : Ctx × SocksState :=
  match recvClient a c with
  | (c, .again) => (c, .helloRead)
  | (c, .failed) => (c, .errorState)
  | (c, .received) =>
      let (hello, buffer, finished) :=
        helloParserConsume c.s.hello c.s.readBuffer
      let c := { c with s := { c.s with hello := hello, readBuffer := buffer } }
      match finished with
      | none => (c, .helloRead)
      | some true => (c, .errorState)
      | some false =>
          let method := chooseMethod c.env.config c.s
          let c := c.call (.chooseMethod c.env.config.authRequired method)
          let c := { c with
            s := { c.s with
              method := method
              writeBuffer :=
                bufferWriteAll (bufferReset c.s.writeBuffer) [0x05, method] } }
          setInterestOrFail c opWrite .helloWrite

def helloWrite (_ : Key) (a : Answers) (c : Ctx) : Ctx × SocksState :=
  match sendClient a c with
  | (c, .more) => (c, .helloWrite)
  | (c, .failed) => (c, .errorState)
  | (c, .flushed) =>
      if c.s.method = methodNone then (c, .done)
      else
        setInterestOrFail c opRead
          (if c.s.method = methodUserpass then .authRead else .requestRead)

def authRead (_ : Key) (a : Answers) (c : Ctx) : Ctx × SocksState :=
  match recvClient a c with
  | (c, .again) => (c, .authRead)
  | (c, .failed) => (c, .errorState)
  | (c, .received) =>
      let (auth, buffer, finished) := authParserConsume c.s.auth c.s.readBuffer
      let c := { c with s := { c.s with auth := auth, readBuffer := buffer } }
      match finished with
      | none => (c, .authRead)
      | some true => (c, .errorState)
      | some false =>
          let user := CString.ofArray c.s.auth.username
          let pass := CString.ofArray c.s.auth.password
          let ok := usersCheck c.env.users user pass
          let c := c.call (.usersCheck user pass ok)
          let c := { c with
            s := { c.s with
              authOk := ok
              username := user.truncate 255
              writeBuffer :=
                bufferWriteAll (bufferReset c.s.writeBuffer)
                  [0x01, if ok then 0x00 else 0x01] } }
          setInterestOrFail c opWrite .authWrite

def authWrite (_ : Key) (a : Answers) (c : Ctx) : Ctx × SocksState :=
  match sendClient a c with
  | (c, .more) => (c, .authWrite)
  | (c, .failed) => (c, .errorState)
  | (c, .flushed) =>
      if !c.s.authOk then (c, .done)
      else setInterestOrFail c opRead .requestRead

/-- `dns_resolve_async`: a new resolver thread, or a failure to start one. -/
def dnsResolveAsync (a : Answers) (c : Ctx) : Ctx × Bool :=
  let c := c.call (.dnsResolveAsync c.s.dns.host c.s.dns.service a.thread)
  if a.thread then
    ({ c with
        env := { c.env with
          resolvers :=
            c.env.resolvers ++ [⟨c.s.dns.conn, c.env.nextTicket, none⟩]
          nextTicket := c.env.nextTicket + 1 } }, true)
  else (c, false)

def processRequest (key : Key) (a : Answers) (c : Ctx) : Ctx × SocksState :=
  if c.s.request.cmd ≠ cmdConnect then
    (c.setReply repCommandNotSupported, .requestWrite)
  else
    let request := c.s.request
    let c := { c with s := { c.s with destPort := request.port } }
    if request.atyp = atypIpv4 then
      let address : SockAddr := ⟨.inet, request.addr.take 4, request.port⟩
      startConnection key a { c with
        s := { c.s with
          addrs := [address]
          addrIdx := 0
          destHost := inetNtop .inet address.addr } }
    else if request.atyp = atypIpv6 then
      let address : SockAddr := ⟨.inet6, request.addr.take 16, request.port⟩
      startConnection key a { c with
        s := { c.s with
          addrs := [address]
          addrIdx := 0
          destHost := inetNtop .inet6 address.addr } }
    else if request.atyp = atypDomain then
      let host := (CString.ofArray request.addr).truncate 255
      let c := { c with
        s := { c.s with
          destHost := host
          dns :=
            { notifyFd := c.s.clientFd
              conn := key.data
              host := host.truncate 255
              service := (CString.ofNat request.port).truncate 7
              result := []
              status := 0 } } }
      match dnsResolveAsync a c with
      | (c, false) => (c.setReply repGeneralFailure, .requestWrite)
      | (c, true) =>
          ({ c with s := { c.s with resolving := true } }, .requestResolv)
    else (c.setReply repAtypNotSupported, .requestWrite)

def requestRead (key : Key) (a : Answers) (c : Ctx) : Ctx × SocksState :=
  match recvClient a c with
  | (c, .again) => (c, .requestRead)
  | (c, .failed) => (c, .errorState)
  | (c, .received) =>
      let c := c.call .requestParserConsume
      let (request, buffer, finished) :=
        requestParserConsume c.s.request c.s.readBuffer
      let c := { c with
        s := { c.s with request := request, readBuffer := buffer } }
      match finished with
      | none => (c, .requestRead)
      | some error =>
          -- no more reads from the client while connecting or resolving
          let c := (c.setInterest c.s.clientFd opNoop).1
          if error then (c.setReply repGeneralFailure, .requestWrite)
          else processRequest key a c

def resolvArrival (_ : Key) (_ : Answers) (c : Ctx) : Ctx :=
  (c.setInterest c.s.clientFd opNoop).1

def maxAddrs : Nat := 16

def dnsRequestClear (dns : DnsRequest) : DnsRequest := { dns with result := [] }

/-- The candidates that `resolv_block` copies from the answer. -/
def candidates (result : List SockAddr) : List SockAddr :=
  (result.filter fun address =>
    address.family == .inet || address.family == .inet6).take maxAddrs

def resolvBlock (key : Key) (a : Answers) (c : Ctx) : Ctx × SocksState :=
  let c := { c with s := { c.s with resolving := false } }
  if c.s.dns.status ≠ 0 ∨ c.s.dns.result = [] then
    ({ c with
        s := { c.s with
          reply := repHostUnreachable
          dns := dnsRequestClear c.s.dns } }, .requestWrite)
  else
    let c := { c with
      s := { c.s with
        addrs := candidates c.s.dns.result
        addrIdx := 0
        dns := dnsRequestClear c.s.dns } }
    if c.s.naddrs = 0 then (c.setReply repHostUnreachable, .requestWrite)
    else startConnection key a c

/-- `socksv5_close`, the close callback.  A call on an object that was already
given back has no meaning. -/
def socksv5Close (fd : Fd) (c : Ctx) : Option Ctx :=
  if c.destroyed then none
  else
    let c := c.closeFd fd
    let references := c.s.references - 1
    let c := { c with s := { c.s with references := references } }
    if references = 0 then
      some { c with
        env := { c.env with metrics := metricsConnectionClosed c.env.metrics }
        destroyed := true }
    else some c

/-- `selector_unregister_fd` from a connection's own handlers.  An item of
another object has no meaning here: it is the case that must never happen. -/
def selectorUnregisterFd (key : Key) (fd : Fd) (c : Ctx) : Option Ctx :=
  if invalidFd fd then some c
  else
    match c.env.selector.items fd with
    | none => some c
    | some item =>
        if item.handler = .socks5 ∧ item.data = key.data then
          (socksv5Close fd c).map fun c =>
            { c with
              env := { c.env with
                selector := selectorRemove c.env.selector fd } }
        else none

def connectingWrite (key : Key) (a : Answers) (c : Ctx) :
    Option (Ctx × SocksState) :=
  let error := a.soError.getD (c.s.originFd.elim eBadf c.env.kernel.soError)
  if error = 0 then some (c.setReply repSuccess, .requestWrite)
  else
    (selectorUnregisterFd key c.s.originNumber
        (c.setReply (errnoToReply error))).map fun c =>
      startConnection key a { c with
        s := { c.s with originFd := none, addrIdx := c.s.addrIdx + 1 } }

def requestWriteArrival (_ : Key) (a : Answers) (c : Ctx) : Ctx :=
  let c := { c with s := buildReply c.s c.s.reply a.sockname }
  let c :=
    match c.s.originFd with
    | some origin => (c.setInterest origin opNoop).1
    | none => c
  (c.setInterest c.s.clientFd opWrite).1

def requestWrite (_ : Key) (a : Answers) (c : Ctx) : Ctx × SocksState :=
  match sendClient a c with
  | (c, .more) => (c, .requestWrite)
  | (c, .failed) => (c, .errorState)
  | (c, .flushed) =>
      let c := c.call (.loggerAccess
        { user := logUser c.s
          cmd := .ofString "CONNECT"
          origin := originString c.s
          dest := destString c.s
          status := c.s.reply })
      if c.s.reply ≠ repSuccess then
        ({ c with
            env := { c.env with
              metrics := metricsConnectionFailed c.env.metrics } }, .done)
      else (c, .copy)

def clientInterest (s : Socks5) : Interest where
  read := !s.clientEof && bufferCanWrite s.readBuffer
  write := bufferCanRead s.writeBuffer

def originInterest (s : Socks5) : Interest where
  read := !s.originEof && bufferCanWrite s.writeBuffer
  write := bufferCanRead s.readBuffer

def copyComputeInterests (c : Ctx) : Ctx :=
  let c := (c.setInterest c.s.clientFd (clientInterest c.s)).1
  match c.s.originFd with
  | some origin => (c.setInterest origin (originInterest c.s)).1
  | none => c

def copyArrival (_ : Key) (_ : Answers) (c : Ctx) : Ctx :=
  copyComputeInterests { c with
    s := { c.s with
      clientEof := false
      originEof := false
      clientWrShut := false
      originWrShut := false
      sniffPop3 :=
        decide (c.s.destPort = pop3Port) && c.env.config.pop3Sniff } }

/-- The two half-closes of `copy_update`: a direction whose source has ended and
whose buffer is empty shuts its destination down, once. -/
def shutOriginWrite (c : Ctx) : Ctx :=
  if c.s.clientEof && !bufferCanRead c.s.readBuffer && !c.s.originWrShut then
    { c.call (.shutdown c.s.originNumber) with
      s := { c.s with originWrShut := true } }
  else c

def shutClientWrite (c : Ctx) : Ctx :=
  if c.s.originEof && !bufferCanRead c.s.writeBuffer && !c.s.clientWrShut then
    { c.call (.shutdown c.s.clientFd) with
      s := { c.s with clientWrShut := true } }
  else c

def copyUpdate (c : Ctx) : Ctx × SocksState :=
  let c := shutClientWrite (shutOriginWrite c)
  let c2oDone := c.s.clientEof && !bufferCanRead c.s.readBuffer
  let o2cDone := c.s.originEof && !bufferCanRead c.s.writeBuffer
  if c2oDone && o2cDone then (c, .done) else (copyComputeInterests c, .copy)

/-- `copy_pump`: send until the buffer is empty or the socket is full.  The flag
tells of a hard error.  Answers that are used up would block. -/
def copyPump (dst : Fd) : List SendAnswer → Buffer → Buffer × List Call × Bool
  | [], b =>
      if bufferCanRead b then (b, [.sendFailed dst eAgain], false)
      else (b, [], false)
  | .accept count :: answers, b =>
      if bufferCanRead b then
        let accepted := b.content.take count
        if accepted.length > 0 then
          let (b, calls, hard) :=
            copyPump dst answers (bufferReadAdv b accepted.length)
          (b, .send dst accepted :: calls, hard)
        else (b, [.send dst accepted], true)
      else (b, [], false)
  | .error e :: _, b =>
      if bufferCanRead b then (b, [.sendFailed dst e], !wouldBlock e)
      else (b, [], false)

def pumpToOrigin (a : Answers) (c : Ctx) : Ctx × Bool :=
  let (buffer, calls, hard) :=
    copyPump c.s.originNumber a.sends c.s.readBuffer
  ({ c with
      s := { c.s with readBuffer := buffer }
      calls := c.calls ++ calls }, hard)

def pumpToClient (a : Answers) (c : Ctx) : Ctx × Bool :=
  let (buffer, calls, hard) := copyPump c.s.clientFd a.sends c.s.writeBuffer
  ({ c with
      s := { c.s with writeBuffer := buffer }
      calls := c.calls ++ calls }, hard)

def pumpThenUpdate (pumped : Ctx × Bool) : Ctx × SocksState :=
  if pumped.2 then (pumped.1, .done) else copyUpdate pumped.1

/-- `pop3_sniffer_feed` with the callback `on_pop3_credential`. -/
def sniff (c : Ctx) (octets : List UInt8) : Ctx :=
  let (pop3, reported) := pop3SnifferFeed c.s.pop3 octets
  { c with
    s := { c.s with pop3 := pop3 }
    calls :=
        c.calls ++ .pop3SnifferFeed octets :: reported.map fun (user, pass) =>
      .loggerPop3
        { proxyUser := logUser c.s
          origin := originString c.s
          dest := destString c.s
          sniffUser := user
          sniffPass := pass } }

/-- The part of `copy_read` for the client's descriptor. -/
def copyReadClient (a : Answers) (c : Ctx) : Ctx × SocksState :=
  if c.s.readBuffer.space > 0 then
    match c.recv c.s.clientFd c.s.readBuffer.space a.recv with
    | (c, .error e) =>
        if wouldBlock e then copyUpdate c
        else copyUpdate { c with s := { c.s with clientEof := true } }
    | (c, .ok []) => copyUpdate { c with s := { c.s with clientEof := true } }
    | (c, .ok octets) =>
        let c := { c with
          s := { c.s with readBuffer := bufferFill c.s.readBuffer octets }
          env := { c.env with
            metrics := metricsAddSent c.env.metrics octets.length } }
        let c := if c.s.sniffPop3 then sniff c octets else c
        pumpThenUpdate (pumpToOrigin a c)
  else copyUpdate c

/-- The part of `copy_read` for the origin's descriptor. -/
def copyReadOrigin (a : Answers) (c : Ctx) : Ctx × SocksState :=
  if c.s.writeBuffer.space > 0 then
    match c.recv c.s.originNumber c.s.writeBuffer.space a.recv with
    | (c, .error e) =>
        if wouldBlock e then copyUpdate c
        else copyUpdate { c with s := { c.s with originEof := true } }
    | (c, .ok []) => copyUpdate { c with s := { c.s with originEof := true } }
    | (c, .ok octets) =>
        let c := { c with
          s := { c.s with writeBuffer := bufferFill c.s.writeBuffer octets }
          env := { c.env with
            metrics := metricsAddReceived c.env.metrics octets.length } }
        pumpThenUpdate (pumpToClient a c)
  else copyUpdate c

def copyRead (key : Key) (a : Answers) (c : Ctx) : Ctx × SocksState :=
  if key.fd = c.s.clientFd then copyReadClient a c else copyReadOrigin a c

def copyWrite (key : Key) (a : Answers) (c : Ctx) : Ctx × SocksState :=
  if key.fd = c.s.clientFd then pumpThenUpdate (pumpToClient a c)
  else pumpThenUpdate (pumpToOrigin a c)

end SocksProxy
