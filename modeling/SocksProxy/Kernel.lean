import SocksProxy.Lib.Table
import SocksProxy.Net

/-! The part of the operating system that the server's descriptors live in. -/

namespace SocksProxy

inductive ConnectStatus
  | unconnected | inProgress | connected | failed (e : Errno)
  deriving DecidableEq, Repr

/-- An open descriptor.  The foreign ones belong to the rest of the process:
its standard streams and whatever a resolver thread opens. -/
inductive Socket
  | foreign | listener | accepted | origin (status : ConnectStatus)
  deriving DecidableEq, Repr

/-- The descriptor table of the process, and the number of `close` calls that
were made on a number that was not open. -/
structure Kernel where
  descriptors : Table Socket
  ebadf : Nat

namespace Kernel

def socket (k : Kernel) (fd : Fd) : Option Socket := k.descriptors.get fd

/-- A new descriptor gets the lowest number that is not open. -/
def openSocket (k : Kernel) (socket : Socket) : Fd × Kernel :=
  (k.descriptors.lowestFree,
    { k with
      descriptors := k.descriptors.insert k.descriptors.lowestFree socket })

def setStatus (k : Kernel) (fd : Fd) (status : ConnectStatus) : Kernel :=
  match k.socket fd with
  | some (.origin _) =>
      { k with descriptors := k.descriptors.insert fd (.origin status) }
  | _ => k

def close (k : Kernel) (fd : Fd) : Kernel :=
  match k.socket fd with
  | some _ => { k with descriptors := k.descriptors.erase fd }
  | none => { k with ebadf := k.ebadf + 1 }

/-- `SO_ERROR`: the error of a failed connect, and 0 on every other socket. -/
def soError (k : Kernel) (fd : Fd) : Errno :=
  match k.socket fd with
  | some (.origin (.failed e)) => e
  | some _ => 0
  | none => eBadf

@[simp] theorem socket_openSocket (k : Kernel) (socket : Socket) (fd : Fd) :
    (k.openSocket socket).2.socket fd =
      if fd = (k.openSocket socket).1 then some socket else k.socket fd :=
  Table.get_insert ..

@[simp] theorem socket_openSocket_fst (k : Kernel) (socket : Socket) :
    k.socket (k.openSocket socket).1 = none :=
  Table.get_lowestFree _

theorem open_below (k : Kernel) (socket : Socket) {fd : Fd}
    (below : fd < (k.openSocket socket).1) : (k.socket fd).isSome :=
  Table.used_before_lowestFree below

@[simp] theorem socket_close (k : Kernel) (fd other : Fd) :
    (k.close fd).socket other = if other = fd then none
      else k.socket other := by
  unfold close
  split
  · exact Table.get_erase ..
  next closed =>
    split
    next same => exact same ▸ closed
    next => rfl

theorem socket_setStatus {k : Kernel} {fd : Fd} {before : ConnectStatus}
    (origin : k.socket fd = some (.origin before)) (status : ConnectStatus)
    (other : Fd) :
    (k.setStatus fd status).socket other =
      if other = fd then some (.origin status) else k.socket other := by
  unfold setStatus
  rw [origin]
  exact Table.get_insert ..

@[simp] theorem ebadf_openSocket (k : Kernel) (socket : Socket) :
    (k.openSocket socket).2.ebadf = k.ebadf := rfl

theorem ebadf_close {k : Kernel} {fd : Fd} {socket : Socket}
    (held : k.socket fd = some socket) : (k.close fd).ebadf = k.ebadf := by
  unfold close
  rw [held]

@[simp] theorem ebadf_setStatus (k : Kernel) (fd : Fd)
    (status : ConnectStatus) :
    (k.setStatus fd status).ebadf = k.ebadf := by
  unfold setStatus
  split <;> rfl

theorem socket_close_openSocket (k : Kernel) (socket : Socket) (fd : Fd) :
    ((k.openSocket socket).2.close (k.openSocket socket).1).socket fd =
      k.socket fd := by
  rw [socket_close, socket_openSocket]
  split
  next same => rw [same, socket_openSocket_fst]
  next => rfl

theorem ebadf_close_openSocket (k : Kernel) (socket : Socket) :
    ((k.openSocket socket).2.close (k.openSocket socket).1).ebadf =
      k.ebadf := by
  have held : (k.openSocket socket).2.socket (k.openSocket socket).1 =
      some socket := by
    rw [socket_openSocket, if_pos rfl]
  rw [ebadf_close held, ebadf_openSocket]

end Kernel

end SocksProxy
