import SocksProxy.Socks5.Handlers

/-! The state machine engine of `stm.c` over the state table of `socks5.c`, and
the callbacks that the connection registers with the selector. -/

namespace SocksProxy

/-- A state handler; `none` when the code would go wrong. -/
abbrev Handler := Key → Answers → Ctx → Option (Ctx × SocksState)

/-- `struct state_definition`; no state of the table has a departure hook. -/
structure StateDefinition where
  onArrival : Option (Key → Answers → Ctx → Ctx) := none
  onReadReady : Option Handler := none
  onWriteReady : Option Handler := none
  onBlockReady : Option Handler := none

def total (handler : Key → Answers → Ctx → Ctx × SocksState) : Handler :=
  fun key a c => some (handler key a c)

def states : SocksState → StateDefinition
  | .helloRead => { onReadReady := some (total helloRead) }
  | .helloWrite => { onWriteReady := some (total helloWrite) }
  | .authRead => { onReadReady := some (total authRead) }
  | .authWrite => { onWriteReady := some (total authWrite) }
  | .requestRead => { onReadReady := some (total requestRead) }
  | .requestResolv =>
      { onArrival := some resolvArrival
        onBlockReady := some (total resolvBlock) }
  | .requestConnecting => { onWriteReady := some connectingWrite }
  | .requestWrite =>
      { onArrival := some requestWriteArrival
        onWriteReady := some (total requestWrite) }
  | .copy =>
      { onArrival := some copyArrival
        onReadReady := some (total copyRead)
        onWriteReady := some (total copyWrite) }
  | .done => {}
  | .errorState => {}

def initialState : SocksState := .helloRead

def Socks5.state (s : Socks5) : SocksState := s.current.getD initialState

def enter (key : Key) (a : Answers) (next : SocksState) (c : Ctx) : Ctx :=
  let c := { c with s := { c.s with current := some next } }
  match (states next).onArrival with
  | some arrival => arrival key a c
  | none => c

def handleFirst (key : Key) (a : Answers) (c : Ctx) : Ctx :=
  match c.s.current with
  | none => enter key a initialState c
  | some _ => c

/-- `jump`: nothing happens when the handler stays in its state. -/
def jump (key : Key) (a : Answers) (next : SocksState) (c : Ctx) : Ctx :=
  if c.s.current = some next then c else enter key a next c

/-- The engine for one kind of event; `none` in place of a handler is the
`abort` of the source. -/
def stmHandler (ready : StateDefinition → Option Handler) : Handler :=
  fun key a c =>
    let c := handleFirst key a c
    match ready (states c.s.state) with
    | none => none
    | some handler =>
        (handler key a c).map fun (c, next) => (jump key a next c, next)

def stmHandlerRead : Handler := stmHandler StateDefinition.onReadReady
def stmHandlerWrite : Handler := stmHandler StateDefinition.onWriteReady
def stmHandlerBlock : Handler := stmHandler StateDefinition.onBlockReady

/-- `socksv5_done`: unregister the client and then the origin, as they were when
the call began. -/
def socksv5Done (key : Key) (c : Ctx) : Option Ctx :=
  let origin := c.s.originFd
  (selectorUnregisterFd key c.s.clientFd c).bind fun c =>
    match origin with
    | some fd => selectorUnregisterFd key fd c
    | none => some c

/-- The common body of `socksv5_read`, `socksv5_write` and `socksv5_block`. -/
def socksv5Handle (stm : Handler) (key : Key) (a : Answers) (c : Ctx) :
    Option Ctx :=
  (stm key a c).bind fun (c, st) =>
    if st = .done ∨ st = .errorState then socksv5Done key c else some c

def socksv5Read := socksv5Handle stmHandlerRead
def socksv5Write := socksv5Handle stmHandlerWrite
def socksv5Block := socksv5Handle stmHandlerBlock

inductive EventKind
  | read | write | block
  deriving DecidableEq, Repr

def socksv5Handler : EventKind → Key → Answers → Ctx → Option Ctx
  | .read => socksv5Read
  | .write => socksv5Write
  | .block => socksv5Block

end SocksProxy
