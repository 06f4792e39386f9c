import SocksProxy.Buffer
import SocksProxy.CString
import SocksProxy.Lib.Scanner

/-! The incremental SOCKS parsers of `socks5_parsers.c`, fed octet by octet from
a buffer. -/

namespace SocksProxy

open Scanner

def methodNoAuth : UInt8 := 0x00
def methodUserpass : UInt8 := 0x02
def methodNone : UInt8 := 0xFF

def cmdConnect : UInt8 := 0x01

def atypIpv4 : UInt8 := 0x01
def atypDomain : UInt8 := 0x03
def atypIpv6 : UInt8 := 0x04

def repSuccess : UInt8 := 0x00
def repGeneralFailure : UInt8 := 0x01
def repNetworkUnreachable : UInt8 := 0x03
def repHostUnreachable : UInt8 := 0x04
def repConnectionRefused : UInt8 := 0x05
def repTtlExpired : UInt8 := 0x06
def repCommandNotSupported : UInt8 := 0x07
def repAtypNotSupported : UInt8 := 0x08

section Consume

variable {Parser : Type} (feed : Parser → UInt8 → Parser)
  (finished : Parser → Bool)

/-- At most `fuel` rounds of the loop; the flag tells that the parser
finished. -/
def consumeLoop : Nat → Parser → Buffer → Parser × Buffer × Bool
  | 0, p, b => (p, b, false)
  | fuel + 1, p, b =>
      if bufferCanRead b then
        let (octet, rest) := bufferRead b
        let next := feed p octet
        if finished next then (next, rest, true)
        else consumeLoop fuel next rest
      else (p, b, false)

/-- One octet is consumed in each round, so the readable octets bound them. -/
def parserConsume (p : Parser) (b : Buffer) : Parser × Buffer × Bool :=
  consumeLoop feed finished (b.write - b.read) p b

variable {feed finished}

private theorem consumeLoop_scan (fuel : Nat) (p : Parser) (b : Buffer)
    (enough : b.content.length ≤ fuel) :
    (consumeLoop feed finished fuel p b).1 =
        (scan feed finished p b.content).1 ∧
      (consumeLoop feed finished fuel p b).2.1.content =
        (scan feed finished p b.content).2.1 ∧
      (consumeLoop feed finished fuel p b).2.2 =
        (scan feed finished p b.content).2.2 := by
  induction fuel generalizing p b with
  | zero =>
      have nothing : b.content = [] := List.length_eq_zero_iff.mp (by omega)
      simp [consumeLoop, nothing]
  | succ fuel induction =>
      cases readable : b.content with
      | nil =>
          have stuck := (Buffer.canRead_eq_false_iff b).mpr readable
          simp [consumeLoop, stuck, readable]
      | cons octet rest =>
          have some := (Buffer.canRead_iff b).mpr (by simp [readable])
          obtain ⟨first, next⟩ := Buffer.read_of_content_cons readable
          have left : (bufferReadAdv b 1).content = rest := by
            rw [Buffer.content_readAdv (by simp [readable]), readable]
            rfl
          simp only [consumeLoop, some, if_true, first, next]
          cases stops : finished (feed p octet) with
          | true => simp [scan_cons_stop stops, left]
          | false =>
              rw [scan_cons_more stops]
              have shorter : (bufferReadAdv b 1).content.length ≤ fuel := by
                rw [left]
                simp only [readable, List.length_cons] at enough
                omega
              have rest := induction (feed p octet) (bufferReadAdv b 1) shorter
              rwa [left] at rest

theorem parserConsume_state (p : Parser) (b : Buffer) :
    (parserConsume feed finished p b).1 =
      (scan feed finished p b.content).1 :=
  (consumeLoop_scan _ p b (by simp)).1

/-- The loop leaves the unread octets in the buffer. -/
theorem parserConsume_content (p : Parser) (b : Buffer) :
    (parserConsume feed finished p b).2.1.content =
      (scan feed finished p b.content).2.1 :=
  (consumeLoop_scan _ p b (by simp)).2.1

theorem parserConsume_flag (p : Parser) (b : Buffer) :
    (parserConsume feed finished p b).2.2 =
      (scan feed finished p b.content).2.2 :=
  (consumeLoop_scan _ p b (by simp)).2.2

private theorem limit_consumeLoop (fuel : Nat) (p : Parser) (b : Buffer) :
    (consumeLoop feed finished fuel p b).2.1.limit = b.limit := by
  induction fuel generalizing p b with
  | zero => rfl
  | succ fuel induction =>
      simp only [consumeLoop]
      split
      next some =>
        have advanced : (bufferRead b).2.limit = b.limit := by
          simp [bufferRead, some]
        split
        · exact advanced
        · rw [induction, advanced]
      next => rfl

@[simp] theorem limit_parserConsume (p : Parser) (b : Buffer) :
    (parserConsume feed finished p b).2.1.limit = b.limit :=
  limit_consumeLoop _ p b

private theorem write_consumeLoop (fuel : Nat) (p : Parser) (b : Buffer)
    (remains : (consumeLoop feed finished fuel p b).2.1.content ≠ []) :
    (consumeLoop feed finished fuel p b).2.1.write = b.write := by
  induction fuel generalizing p b with
  | zero => rfl
  | succ fuel induction =>
      cases readable : b.content with
      | nil =>
          have stuck := (Buffer.canRead_eq_false_iff b).mpr readable
          simp [consumeLoop, stuck]
      | cons octet rest =>
          have some := (Buffer.canRead_iff b).mpr (by simp [readable])
          have next := (Buffer.read_of_content_cons readable).2
          -- the buffer is only compacted when the octet read was the last one
          have kept (more : (bufferReadAdv b 1).content ≠ []) :
              (bufferReadAdv b 1).write = b.write := by
            apply Buffer.write_readAdv_some
            rw [Buffer.content_readAdv (by simp [readable]), readable] at more
            rw [readable, List.length_cons]
            have := List.length_pos_iff.mpr more
            simpa using this
          simp only [consumeLoop, some, if_true, next] at remains ⊢
          split
          next stops =>
            rw [if_pos stops] at remains
            exact kept remains
          next more =>
            rw [if_neg more] at remains
            rw [induction _ _ remains]
            apply kept
            intro nothing
            have stuck := (Buffer.canRead_eq_false_iff _).mpr nothing
            apply remains
            cases fuel <;> simp [consumeLoop, stuck, nothing]

theorem write_parserConsume {p : Parser} {b : Buffer}
    (remains : (parserConsume feed finished p b).2.1.content ≠ []) :
    (parserConsume feed finished p b).2.1.write = b.write :=
  write_consumeLoop _ p b remains

private theorem rewound_consumeLoop (fuel : Nat) (p : Parser) {b : Buffer}
    (rewound : b.Rewound) :
    (consumeLoop feed finished fuel p b).2.1.Rewound := by
  induction fuel generalizing p b with
  | zero => exact rewound
  | succ fuel induction =>
      cases readable : b.content with
      | nil =>
          have stuck := (Buffer.canRead_eq_false_iff b).mpr readable
          simpa [consumeLoop, stuck] using rewound
      | cons octet rest =>
          have some := (Buffer.canRead_iff b).mpr (by simp [readable])
          have next := (Buffer.read_of_content_cons readable).2
          have advanced : (bufferReadAdv b 1).Rewound :=
            Buffer.rewound_readAdv (by simp [readable])
          simp only [consumeLoop, some, if_true, next]
          split
          · exact advanced
          · exact induction _ advanced

/-- The loop as one scan of the readable octets. -/
theorem parserConsume_scan {p q : Parser} {b : Buffer} {rest : List UInt8}
    {stop : Bool} (scanned : scan feed finished p b.content = (q, rest, stop)) :
    ∃ buffer, buffer.content = rest ∧ buffer.limit = b.limit ∧
      (rest ≠ [] → buffer.write = b.write) ∧ (b.Rewound → buffer.Rewound) ∧
      parserConsume feed finished p b = (q, buffer, stop) := by
  refine ⟨(parserConsume feed finished p b).2.1, ?_, limit_parserConsume p b,
    ?_, rewound_consumeLoop _ p, ?_⟩
  · rw [parserConsume_content, scanned]
  · intro remains
    apply write_parserConsume
    rwa [parserConsume_content, scanned]
  · refine Prod.ext ?_ (Prod.ext rfl ?_)
    · rw [parserConsume_state, scanned]
    · rw [parserConsume_flag, scanned]

end Consume

inductive HelloState
  | version | nmethods | methods | done | error
  deriving DecidableEq, Repr

structure HelloParser where
  state : HelloState
  remaining : Nat
  hasNoauth : Bool
  hasUserpass : Bool
  deriving DecidableEq, Repr

def helloParserInit : HelloParser where
  state := .version
  remaining := 0
  hasNoauth := false
  hasUserpass := false

def helloParserFeed (p : HelloParser) (b : UInt8) : HelloParser :=
  match p.state with
  | .version => { p with state := if b = 0x05 then .nmethods else .error }
  | .nmethods =>
      { p with
        remaining := b.toNat
        state := if b = 0 then .done else .methods }
  | .methods =>
      let remaining := (p.remaining + 255) % 256
      { p with
        hasNoauth := p.hasNoauth || b == methodNoAuth
        hasUserpass := p.hasUserpass || b == methodUserpass
        remaining := remaining
        state := if remaining = 0 then .done else .methods }
  | .done => p
  | .error => p

def HelloParser.finished (p : HelloParser) : Bool :=
  p.state == .done || p.state == .error

/-- The third component is `none` while more octets are needed, and then the
value of `*error`. -/
def helloParserConsume (p : HelloParser) (b : Buffer) :
    HelloParser × Buffer × Option Bool :=
  let (p, b, finished) := parserConsume helloParserFeed HelloParser.finished p b
  (p, b, if finished then some (p.state == .error) else none)

inductive AuthState
  | version | ulen | uname | plen | passwd | done | error
  deriving DecidableEq, Repr

structure AuthParser where
  state : AuthState
  ulen : Nat
  plen : Nat
  idx : Nat
  username : List UInt8
  password : List UInt8
  deriving DecidableEq, Repr

/-- Initialisation keeps whatever the two arrays held after their first
octet. -/
def authParserInit (p : AuthParser) : AuthParser where
  state := .version
  ulen := 0
  plen := 0
  idx := 0
  username := p.username.set 0 0
  password := p.password.set 0 0

def authParserFeed (p : AuthParser) (b : UInt8) : AuthParser :=
  match p.state with
  | .version => { p with state := if b = 0x01 then .ulen else .error }
  | .ulen =>
      { p with
        ulen := b.toNat
        idx := 0
        state := if b = 0 then .error else .uname }
  | .uname =>
      let username := p.username.set p.idx b
      let idx := (p.idx + 1) % 256
      if idx = p.ulen then
        { p with username := username.set idx 0, idx := idx, state := .plen }
      else { p with username := username, idx := idx }
  | .plen =>
      { p with
        plen := b.toNat
        idx := 0
        state := if b = 0 then .error else .passwd }
  | .passwd =>
      let password := p.password.set p.idx b
      let idx := (p.idx + 1) % 256
      if idx = p.plen then
        { p with password := password.set idx 0, idx := idx, state := .done }
      else { p with password := password, idx := idx }
  | .done => p
  | .error => p

def AuthParser.finished (p : AuthParser) : Bool :=
  p.state == .done || p.state == .error

def authParserConsume (p : AuthParser) (b : Buffer) :
    AuthParser × Buffer × Option Bool :=
  let (p, b, finished) := parserConsume authParserFeed AuthParser.finished p b
  (p, b, if finished then some (p.state == .error) else none)

inductive RequestState
  | version | cmd | rsv | atyp | daddrIpv4 | daddrDomainLen | daddrDomain
  | daddrIpv6 | dport | done | error
  deriving DecidableEq, Repr

structure RequestParser where
  state : RequestState
  cmd : UInt8
  atyp : UInt8
  addrLen : Nat
  idx : Nat
  addr : List UInt8
  port : Nat
  portIdx : Nat
  deriving DecidableEq, Repr

/-- Initialisation does not touch the address array. -/
def requestParserInit (p : RequestParser) : RequestParser where
  state := .version
  cmd := 0
  atyp := 0
  addrLen := 0
  idx := 0
  addr := p.addr
  port := 0
  portIdx := 0

def requestParserFeed (p : RequestParser) (b : UInt8) : RequestParser :=
  match p.state with
  | .version => { p with state := if b = 0x05 then .cmd else .error }
  | .cmd => { p with cmd := b, state := .rsv }
  | .rsv => { p with state := if b = 0x00 then .atyp else .error }
  | .atyp =>
      let p := { p with atyp := b, idx := 0 }
      if b = atypIpv4 then { p with addrLen := 4, state := .daddrIpv4 }
      else if b = atypIpv6 then { p with addrLen := 16, state := .daddrIpv6 }
      else if b = atypDomain then { p with state := .daddrDomainLen }
      else { p with state := .error }
  | .daddrIpv4 =>
      let p := { p with addr := p.addr.set p.idx b, idx := (p.idx + 1) % 256 }
      if p.idx = 4 then { p with portIdx := 0, state := .dport } else p
  | .daddrDomainLen =>
      { p with
        addrLen := b.toNat
        idx := 0
        state := if b = 0 then .error else .daddrDomain }
  | .daddrDomain =>
      let p := { p with addr := p.addr.set p.idx b, idx := (p.idx + 1) % 256 }
      if p.idx = p.addrLen then
        { p with addr := p.addr.set p.idx 0, portIdx := 0, state := .dport }
      else p
  | .daddrIpv6 =>
      let p := { p with addr := p.addr.set p.idx b, idx := (p.idx + 1) % 256 }
      if p.idx = 16 then { p with portIdx := 0, state := .dport } else p
  | .dport =>
      let p := { p with
        port := (p.port * 256 + b.toNat) % 65536
        portIdx := (p.portIdx + 1) % 256 }
      if p.portIdx = 2 then { p with state := .done } else p
  | .done => p
  | .error => p

def RequestParser.finished (p : RequestParser) : Bool :=
  p.state == .done || p.state == .error

def requestParserConsume (p : RequestParser) (b : Buffer) :
    RequestParser × Buffer × Option Bool :=
  let (p, b, finished) :=
    parserConsume requestParserFeed RequestParser.finished p b
  (p, b, if finished then some (p.state == .error) else none)

end SocksProxy
