import SocksProxy.Lib.Framing
import SocksProxy.Lib.Transition
import SocksProxy.Mgmt.Grammar
import SocksProxy.Mgmt.Handlers

/-! A management connection and the client's end of it as a transition system,
and the sequential server that it is compared with. -/

namespace SocksProxy

open Framing Transition

inductive SmpMessage
  | handshake (user pass : Field)
  | request (r : SmpRequest)

namespace SmpMessage

def encode : SmpMessage → List UInt8
  | handshake user pass => authMessage user pass
  | request r => r.encode

def awaited : SmpMessage → MgmtState
  | handshake .. => .auth
  | request _ => .request

def replying : SmpMessage → MgmtState
  | handshake .. => .authReply
  | request _ => .response

/-- Whether the configured administrator sends these credentials. -/
def admits (config : ProxyConfig) (user pass : List UInt8) : Bool :=
  decide (CString.ofArray user = config.adminUser ∧
    CString.ofArray pass = config.adminPass)

/-- One message served on its own, with a response buffer of its own. -/
def serve (env : Env) : SmpMessage → Env × List UInt8
  | handshake user pass =>
      (env, [smpVersion, if admits env.config user pass then smpAuthOk
        else smpAuthFailed])
  | request r =>
      let (env, wbuf) :=
        processMgmtRequest env (bufferInit mgmtWbuf fun _ => 0) r.parsed
      (env, wbuf.content)

/-- What a client of a whole connection sends. -/
def session (user pass : Field) (requests : List SmpRequest) :
    List SmpMessage :=
  handshake user pass :: requests.map request

theorem encode_ne_nil (message : SmpMessage) : message.encode ≠ [] := by
  cases message with
  | handshake user pass => simp [encode, authMessage]
  | request r =>
      have two := r.encode_length
      intro none
      rw [encode] at none
      simp [none] at two

end SmpMessage

/-- A management connection, and the octets that its client has sent or will
send and that the connection has not received. -/
structure MgmtLink where
  x : MgmtCtx
  pending : List UInt8

/-- What `pselect` and the kernel do with the connection: `recv` returns a
number of octets, would block or finds the end of the stream; `send` takes a
number of octets or would block. -/
inductive MgmtEvent
  | received (count : Nat)
  | unready
  | ended
  | sent (count : Nat)
  | blocked
  deriving DecidableEq, Repr

def MgmtEvent.reads : MgmtEvent → Bool
  | received _ | unready | ended => true
  | sent _ | blocked => false

def delivered (calls : List MgmtCall) : List UInt8 :=
  calls.flatMap fun
    | .send accepted => accepted
    | _ => []

@[simp] theorem delivered_append (left right : List MgmtCall) :
    delivered (left ++ right) = delivered left ++ delivered right :=
  List.flatMap_append

namespace MgmtLink

def sent (link : MgmtLink) : List UInt8 := delivered link.x.calls

def readable (key : Key) (link : MgmtLink) : Prop :=
  link.x.closed = false ∧ link.x.env.selector.masterR key.fd = true

def writable (key : Key) (link : MgmtLink) : Prop :=
  link.x.closed = false ∧ link.x.env.selector.masterW key.fd = true

instance (key : Key) (link : MgmtLink) : Decidable (link.readable key) :=
  inferInstanceAs (Decidable (_ ∧ _))

instance (key : Key) (link : MgmtLink) : Decidable (link.writable key) :=
  inferInstanceAs (Decidable (_ ∧ _))

/-- One event, with no octets received when `mgmt_read` finds no room. -/
def next (key : Key) (link : MgmtLink) : MgmtEvent → Option MgmtLink
  | .received count =>
      if link.readable key ∧ 0 < count ∧ count ≤ link.pending.length ∧
          (count ≤ link.x.c.rbuf.space ∨ link.x.c.rbuf.space = 0) then
        (mgmtRead key (.receiving (link.pending.take count)) link.x).map
          (⟨·, link.pending.drop (min count link.x.c.rbuf.space)⟩)
      else none
  | .unready =>
      if link.readable key then (mgmtRead key .idle link.x).map
        (⟨·, link.pending⟩)
      else none
  | .ended =>
      if link.readable key ∧ link.pending = [] then
        (mgmtRead key (.receiving []) link.x).map (⟨·, link.pending⟩)
      else none
  | .sent count =>
      if link.writable key then
        (mgmtWrite key (.accepting [count]) link.x).map (⟨·, link.pending⟩)
      else none
  | .blocked =>
      if link.writable key then (mgmtWrite key .idle link.x).map
        (⟨·, link.pending⟩)
      else none

end MgmtLink

/-- The connection that `mgmt_passive_accept` has just registered, and a client
that will send these messages. -/
def mgmtOpened (key : Key) (env : Env) (messages : List SmpMessage) :
    MgmtLink where
  x := ⟨env, mgmtNew key.fd, [], false⟩
  pending := stream SmpMessage.encode messages

def management (key : Key) (env : Env) (messages : List SmpMessage) :
    System MgmtLink MgmtEvent where
  init link := link = mgmtOpened key env messages
  step link event next := link.next key event = some next

def MgmtHosted (key : Key) (env : Env) : Prop :=
  invalidFd key.fd = false ∧
    env.selector.items key.fd = some ⟨opRead, .mgmt, key.data⟩

/-! How far the receive buffer is filled.  Its offsets only return to the start
when everything in it has been consumed, which happens when a chunk ends where a
message does. -/

def chunks (events : List MgmtEvent) : List Nat :=
  events.filterMap fun
    | .received count => some count
    | _ => none

/-- One more chunk, after the octets received so far and those of them since the
last chunk that ended at a boundary. -/
def occupy (messages : List SmpMessage) (used : Nat × Nat) (size : Nat) :
    Nat × Nat :=
  (used.1 + size,
    (if used.1 ∈ boundaries SmpMessage.encode messages then 0 else used.2) +
      size)

def occupancy (messages : List SmpMessage) (sizes : List Nat) : Nat × Nat :=
  sizes.foldl (occupy messages) (0, 0)

/-- A request is incomplete although the chunks since the last boundary are as
long as the whole receive buffer. -/
def Clogged (messages : List SmpMessage) (sizes : List Nat) : Prop :=
  (occupancy messages sizes).1 ∉ boundaries SmpMessage.encode messages ∧
    (occupancy messages sizes).2 = mgmtRbuf

instance (messages : List SmpMessage) (sizes : List Nat) :
    Decidable (Clogged messages sizes) :=
  inferInstanceAs (Decidable (_ ∧ _))

theorem occupancy_concat (messages : List SmpMessage) (sizes : List Nat)
    (size : Nat) :
    occupancy messages (sizes ++ [size]) =
      occupy messages (occupancy messages sizes) size :=
  List.foldl_concat ..

@[simp] theorem chunks_append (left right : List MgmtEvent) :
    chunks (left ++ right) = chunks left ++ chunks right :=
  List.filterMap_append

end SocksProxy
