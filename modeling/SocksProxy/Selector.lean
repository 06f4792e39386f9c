import SocksProxy.Net

/-! The multiplexer of `selector.c`: registered items, readiness bits and the
queue of finished blocking jobs. -/

namespace SocksProxy

abbrev Ptr := Nat

structure Interest where
  read : Bool
  write : Bool
  deriving DecidableEq, Repr

def opNoop : Interest := ⟨false, false⟩
def opRead : Interest := ⟨true, false⟩
def opWrite : Interest := ⟨false, true⟩

inductive FdHandler
  | socksListener | mgmtListener | socks5 | mgmt
  deriving DecidableEq, Repr

namespace FdHandler

def hasRead : FdHandler → Bool
  | _ => true

def hasWrite : FdHandler → Bool
  | .socksListener | .mgmtListener => false
  | .socks5 | .mgmt => true

def hasBlock : FdHandler → Bool
  | .socks5 => true
  | _ => false

end FdHandler

structure Item where
  interest : Interest
  handler : FdHandler
  data : Ptr
  deriving DecidableEq, Repr

/-- What `getaddrinfo` returned; an empty list is a null pointer. -/
structure DnsAnswer where
  status : Nat
  result : List SockAddr
  deriving DecidableEq, Repr

/-- `struct blocking_job`.  The code uses only `fd`; the other fields record
which resolution the job completes. -/
structure Job where
  fd : Fd
  owner : Ptr
  ticket : Nat
  answer : DnsAnswer
  deriving DecidableEq, Repr

/-- `struct fdselector`.  An unused slot of `fds` is `none`, and the master sets
are those of the items' interests. -/
structure Selector where
  items : Fd → Option Item
  maxFd : Nat
  slaveR : Fd → Bool
  slaveW : Fd → Bool
  resolutionJobs : List Job

inductive SelectorStatus
  | success | enomem | maxfd | iargs | fdinuse | io
  deriving DecidableEq, Repr

def selectorNew : Selector where
  items := fun _ => none
  maxFd := 0
  slaveR := fun _ => false
  slaveW := fun _ => false
  resolutionJobs := []

/-- `FD_SETSIZE`. -/
def itemsMaxSize : Nat := 1024

def invalidFd (fd : Fd) : Bool := decide (fd ≥ itemsMaxSize)

namespace Selector

def masterR (s : Selector) (fd : Fd) : Bool :=
  (s.items fd).any fun item => item.interest.read

def masterW (s : Selector) (fd : Fd) : Bool :=
  (s.items fd).any fun item => item.interest.write

def setItem (s : Selector) (fd : Fd) (item : Option Item) : Selector :=
  { s with items := fun other => if other = fd then item else s.items other }

@[simp] theorem items_setItem_self (s : Selector) (fd : Fd)
    (item : Option Item) : (s.setItem fd item).items fd = item := by
  simp [setItem]

theorem items_setItem_ne (s : Selector) {fd other : Fd} (item : Option Item)
    (distinct : other ≠ fd) :
    (s.setItem fd item).items other = s.items other := by
  simp [setItem, distinct]

end Selector

def itemsMaxFd (s : Selector) : Nat :=
  (List.range (s.maxFd + 1)).foldl
    (fun max i => if (s.items i).isSome ∧ i > max then i else max) 0

/-- The slots are allocated for every valid descriptor when the selector is
created, so that registering never has to grow them. -/
def selectorRegister (s : Selector) (fd : Fd) (handler : FdHandler)
    (interest : Interest) (data : Ptr) : Selector × SelectorStatus :=
  if invalidFd fd then (s, .iargs)
  else
    match s.items fd with
    | some _ => (s, .fdinuse)
    | none =>
        ({ s.setItem fd (some ⟨interest, handler, data⟩) with
            maxFd := if fd > s.maxFd then fd else s.maxFd }, .success)

/-- The part of `selector_unregister_fd` after the close callback. -/
def selectorRemove (s : Selector) (fd : Fd) : Selector :=
  let s := s.setItem fd none
  { s with maxFd := itemsMaxFd s }

def selectorSetInterest (s : Selector) (fd : Fd) (i : Interest) :
    Selector × SelectorStatus :=
  if invalidFd fd then (s, .iargs)
  else
    match s.items fd with
    | none => (s, .iargs)
    | some item => (s.setItem fd (some { item with interest := i }), .success)

end SocksProxy
