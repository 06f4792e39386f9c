import SocksProxy.Config
import SocksProxy.Kernel
import SocksProxy.Parsers
import SocksProxy.Pop3
import SocksProxy.Selector
import SocksProxy.Users

/-! The connection object of `socks5.c`, what a handler can reach besides it,
and the calls that a handler makes. -/

namespace SocksProxy

inductive SocksState
  | helloRead | helloWrite | authRead | authWrite | requestRead | requestResolv
  | requestConnecting | requestWrite | copy | done | errorState
  deriving DecidableEq, Repr

structure DnsRequest where
  notifyFd : Fd
  conn : Ptr
  host : CString
  service : CString
  result : List SockAddr
  status : Nat
  deriving DecidableEq

/-- `struct socks5`.  A descriptor of -1 and a null block are `none`; `rawRead`
and `rawWrite` are the lengths of the two blocks, whose octets are the `data`
of the two buffers; `addrs` holds the first `naddrs` candidates. -/
structure Socks5 where
  clientFd : Fd
  originFd : Option Fd
  clientAddr : SockAddr
  current : Option SocksState
  hello : HelloParser
  auth : AuthParser
  request : RequestParser
  method : UInt8
  authOk : Bool
  username : CString
  addrs : List SockAddr
  addrIdx : Nat
  dns : DnsRequest
  resolving : Bool
  destHost : CString
  destPort : Nat
  reply : UInt8
  clientEof : Bool
  originEof : Bool
  clientWrShut : Bool
  originWrShut : Bool
  sniffPop3 : Bool
  pop3 : Pop3Sniffer
  rawRead : Option Nat
  rawWrite : Option Nat
  readBuffer : Buffer
  writeBuffer : Buffer
  bufferSize : Nat
  references : Nat

def Socks5.naddrs (s : Socks5) : Nat := s.addrs.length

/-- The origin descriptor as an argument of a call; without one, a number that
is as invalid as the -1 of the source. -/
def Socks5.originNumber (s : Socks5) : Fd := s.originFd.getD itemsMaxSize

/-- A resolver thread; `conn` is the object whose request it works on.  The
answer is `none` while `getaddrinfo` runs. -/
structure Resolver where
  conn : Ptr
  ticket : Nat
  answer : Option DnsAnswer
  deriving DecidableEq, Repr

structure Env where
  selector : Selector
  kernel : Kernel
  config : ProxyConfig
  users : UserTable
  metrics : Metrics
  resolvers : List Resolver
  nextTicket : Nat

def envInit (kernel : Kernel) (config : ProxyConfig) (users : UserTable) :
    Env where
  selector := selectorNew
  kernel := kernel
  config := config
  users := users
  metrics := metricsInit
  resolvers := []
  nextTicket := 0

structure AccessRecord where
  user : CString
  cmd : CString
  origin : CString
  dest : CString
  status : UInt8
  deriving DecidableEq

structure Pop3Record where
  proxyUser : CString
  origin : CString
  dest : CString
  sniffUser : CString
  sniffPass : CString
  deriving DecidableEq

/-- The calls by which a handler acts on the rest of the world, in the order in
which it makes them, each with its outcome. -/
inductive Call
  | recv (fd : Fd) (octets : List UInt8)
  | recvFailed (fd : Fd) (e : Errno)
  | send (fd : Fd) (accepted : List UInt8)
  | sendFailed (fd : Fd) (e : Errno)
  | shutdown (fd : Fd)
  | chooseMethod (authRequired : Bool) (method : UInt8)
  | usersCheck (user pass : CString) (ok : Bool)
  | requestParserConsume
  | dnsResolveAsync (host service : CString) (launched : Bool)
  | startConnection
  | connect (fd : Fd) (addr : SockAddr) (e : Errno)
  | loggerAccess (record : AccessRecord)
  | pop3SnifferFeed (octets : List UInt8)
  | loggerPop3 (record : Pop3Record)
  deriving DecidableEq

/-- What the kernel has for a `recv` call: octets, an empty list at end of file,
or an error. -/
inductive RecvAnswer
  | ready (octets : List UInt8)
  | error (e : Errno)
  deriving DecidableEq, Repr

inductive SendAnswer
  | accept (count : Nat)
  | error (e : Errno)
  deriving DecidableEq, Repr

structure Attempt where
  socket : Errno
  nio : Bool
  connect : Errno
  deriving DecidableEq, Repr

/-- The answers of the operating system to the calls of one handler invocation:
`sends` for its successive `send` calls, which would block once they are used
up, and `attempt` by the index of the candidate address. -/
structure Answers where
  recv : RecvAnswer
  sends : List SendAnswer
  attempt : Nat → Attempt
  soError : Option Errno
  sockname : Option SockAddr
  thread : Bool

def Answers.idle : Answers where
  recv := .error eAgain
  sends := []
  attempt := fun _ => ⟨eAgain, false, eAgain⟩
  soError := none
  sockname := none
  thread := false

def Answers.receiving (octets : List UInt8) : Answers :=
  { Answers.idle with recv := .ready octets }

def Answers.accepting (counts : List Nat) : Answers :=
  { Answers.idle with sends := counts.map .accept }

structure Key where
  fd : Fd
  data : Ptr
  deriving DecidableEq, Repr

/-- The state in which a handler runs.  `destroyed` tells that the object was
given back by the close callback of its last descriptor. -/
structure Ctx where
  env : Env
  s : Socks5
  calls : List Call
  destroyed : Bool

namespace Ctx

def call (c : Ctx) (made : Call) : Ctx := { c with calls := c.calls ++ [made] }

/-- `recv` into the free space of a buffer: no more octets than fit. -/
def recv (c : Ctx) (fd : Fd) (space : Nat) : RecvAnswer →
    Ctx × Except Errno (List UInt8)
  | .ready octets =>
      (c.call (.recv fd (octets.take space)), .ok (octets.take space))
  | .error e => (c.call (.recvFailed fd e), .error e)

/-- `send` of the readable octets of a buffer: no more than there are. -/
def send (c : Ctx) (fd : Fd) (octets : List UInt8) : SendAnswer →
    Ctx × Except Errno Nat
  | .accept count =>
      (c.call (.send fd (octets.take count)), .ok (octets.take count).length)
  | .error e => (c.call (.sendFailed fd e), .error e)

def setInterest (c : Ctx) (fd : Fd) (i : Interest) : Ctx × SelectorStatus :=
  let (selector, status) := selectorSetInterest c.env.selector fd i
  ({ c with env := { c.env with selector := selector } }, status)

def closeFd (c : Ctx) (fd : Fd) : Ctx :=
  { c with env := { c.env with kernel := c.env.kernel.close fd } }

end Ctx

def Answers.send (a : Answers) : SendAnswer :=
  a.sends.head?.getD (.error eAgain)

end SocksProxy
