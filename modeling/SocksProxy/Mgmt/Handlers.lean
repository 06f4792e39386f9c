import SocksProxy.Mgmt.Protocol

/-! The management connection of `mgmt.c` and its handlers. -/

namespace SocksProxy

def mgmtRbuf : Nat := 4096
def mgmtWbuf : Nat := 65536

inductive MgmtState
  | auth | authReply | request | response
  deriving DecidableEq, Repr

structure MgmtConn where
  fd : Fd
  state : MgmtState
  authOk : Bool
  closeAfterWrite : Bool
  rbuf : Buffer
  wbuf : Buffer

/-- The calls of a management handler and the points at which it decides. -/
inductive MgmtCall
  | recv (octets : List UInt8)
  | recvFailed (e : Errno)
  | send (accepted : List UInt8)
  | sendFailed (e : Errno)
  | handshake (user pass : List UInt8) (ok : Bool)
  | processRequest (r : MgmtReq)
  | unknownCommand (cmd : UInt8)
  deriving DecidableEq, Repr

/-- The state in which a management handler runs; `closed` tells that the close
callback has freed the object. -/
structure MgmtCtx where
  env : Env
  c : MgmtConn
  calls : List MgmtCall
  closed : Bool

namespace MgmtCtx

def call (x : MgmtCtx) (made : MgmtCall) : MgmtCtx :=
  { x with calls := x.calls ++ [made] }

def setInterest (x : MgmtCtx) (i : Interest) : MgmtCtx :=
  { x with env := { x.env with
      selector := (selectorSetInterest x.env.selector x.c.fd i).1 } }

end MgmtCtx

/-- `mgmt_done`: unregister the descriptor; its callback closes it and frees the
object.  An item of another object has no meaning here. -/
def mgmtDone (key : Key) (x : MgmtCtx) : Option MgmtCtx :=
  if invalidFd key.fd then some x
  else
    match x.env.selector.items key.fd with
    | none => some x
    | some item =>
        if item.handler = .mgmt ∧ item.data = key.data then
          some { x with
            env := { x.env with
              kernel := x.env.kernel.close key.fd
              selector := selectorRemove x.env.selector key.fd }
            closed := true }
        else none

/-- The handshake branch of `mgmt_try_process`. -/
def mgmtProcessAuth (key : Key) (x : MgmtCtx) : Option MgmtCtx :=
  let (rc, user, pass) := parseAuth x.c.rbuf.content
  if rc = 0 then some x
  else if rc < 0 then mgmtDone key x
  else
    let ok := CString.ofArray user = x.env.config.adminUser ∧
      CString.ofArray pass = x.env.config.adminPass
    let x := x.call (.handshake user pass ok)
    some (MgmtCtx.setInterest { x with
      c := { x.c with
        rbuf := bufferReadAdv x.c.rbuf rc.toNat
        authOk := ok
        wbuf := bufferWriteAll (bufferReset x.c.wbuf)
          [smpVersion, if ok then smpAuthOk else smpAuthFailed]
        closeAfterWrite := !ok
        state := .authReply } } opWrite)

/-- The request branch of `mgmt_try_process`. -/
def mgmtProcessRequest (key : Key) (x : MgmtCtx) : Option MgmtCtx :=
  let (rc, r) := parseRequest x.c.rbuf.content .zero
  if rc = 0 then some x
  else
    let x := { x with c := { x.c with wbuf := bufferReset x.c.wbuf } }
    if rc = -1 then mgmtDone key x
    else
      let x :=
        if rc = -2 then
          { x.call (.unknownCommand r.cmd) with
            c := { x.c with
              rbuf := bufferReadAdv x.c.rbuf 2
              wbuf := respSimple x.c.wbuf r.cmd smpUnknownCommand } }
        else
          let (env, wbuf) := processMgmtRequest x.env x.c.wbuf r
          { x.call (.processRequest r) with
            env := env
            c := { x.c with
              rbuf := bufferReadAdv x.c.rbuf rc.toNat
              wbuf := wbuf } }
      some (MgmtCtx.setInterest
        { x with c := { x.c with state := .response } } opWrite)

/-- `mgmt_try_process`; every round of its loop returns. -/
def mgmtTryProcess (key : Key) (x : MgmtCtx) : Option MgmtCtx :=
  match x.c.state with
  | .auth => mgmtProcessAuth key x
  | .request => mgmtProcessRequest key x
  | .authReply | .response => some x

def mgmtRead (key : Key) (a : Answers) (x : MgmtCtx) : Option MgmtCtx :=
  if x.c.rbuf.space = 0 then mgmtDone key x
  else
    match a.recv with
    | .error e =>
        if wouldBlock e then some (x.call (.recvFailed e))
        else mgmtDone key (x.call (.recvFailed e))
    | .ready octets =>
        let octets := octets.take x.c.rbuf.space
        let x := x.call (.recv octets)
        if octets = [] then mgmtDone key x
        else
          mgmtTryProcess key
            { x with c := { x.c with rbuf := bufferFill x.c.rbuf octets } }

def mgmtWrite (key : Key) (a : Answers) (x : MgmtCtx) : Option MgmtCtx :=
  match a.send with
  | .error e =>
      if wouldBlock e then some (x.call (.sendFailed e))
      else mgmtDone key (x.call (.sendFailed e))
  | .accept count =>
      let accepted := x.c.wbuf.content.take count
      let x := x.call (.send accepted)
      let x := { x with
        c := { x.c with wbuf := bufferReadAdv x.c.wbuf accepted.length } }
      if bufferCanRead x.c.wbuf then some x
      else if x.c.closeAfterWrite then mgmtDone key x
      else
        mgmtTryProcess key (MgmtCtx.setInterest
          { x with c := { x.c with state := .request } } opRead)

/-- The object that `mgmt_passive_accept` creates. -/
def mgmtNew (fd : Fd) : MgmtConn where
  fd := fd
  state := .auth
  authOk := false
  closeAfterWrite := false
  rbuf := bufferInit mgmtRbuf fun _ => 0
  wbuf := bufferInit mgmtWbuf fun _ => 0

end SocksProxy
