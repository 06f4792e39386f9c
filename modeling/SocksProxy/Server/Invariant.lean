import Mathlib.Data.List.Perm.Subperm
import SocksProxy.Mgmt.Upkeep
import SocksProxy.Server.Model
import SocksProxy.Socks5.Engine

/-! The invariant of the server: who owns which descriptor, which objects are in
use or in the pool, and which resolutions are outstanding. -/

namespace SocksProxy

/-- What a descriptor is to the server; foreign ones are nothing to it. -/
inductive SocketKind
  | listener | accepted | origin
  deriving DecidableEq, Repr

def Socket.kind : Socket → Option SocketKind
  | .foreign => none
  | .listener => some .listener
  | .accepted => some .accepted
  | .origin _ => some .origin

def Env.kindAt (env : Env) (fd : Fd) : Option SocketKind :=
  (env.kernel.socket fd).bind Socket.kind

theorem kindAt_accepted {env : Env} {fd : Fd} :
    env.kindAt fd = some .accepted ↔ env.kernel.socket fd = some .accepted := by
  unfold Env.kindAt
  cases env.kernel.socket fd with
  | none => simp
  | some socket => cases socket <;> simp [Socket.kind]

theorem kindAt_origin {env : Env} {fd : Fd} :
    env.kindAt fd = some .origin ↔
      ∃ status, env.kernel.socket fd = some (.origin status) := by
  unfold Env.kindAt
  cases env.kernel.socket fd with
  | none => simp
  | some socket => cases socket <;> simp [Socket.kind]

structure Wiring.Spare (w : Wiring) : Prop where
  rawRead : w.rawRead = some w.bufferSize
  rawWrite : w.rawWrite = some w.bufferSize

theorem Wiring.Fitted.spare {w : Wiring} (fitted : w.Fitted) : w.Spare :=
  ⟨fitted.rawRead, fitted.rawWrite⟩

/-- The request holds what the resolution returned. -/
def DnsRequest.Holds (dns : DnsRequest) (answer : DnsAnswer) : Prop :=
  dns.result = answer.result ∧ dns.status = answer.status

namespace Server

/-- What an item of the selector stands for. -/
def Hosted (σ : Server) (fd : Fd) (item : Item) : Prop :=
  match item.handler with
  | .socks5 => item.data ∈ σ.live
  | .mgmt => σ.env.kindAt fd = some .accepted ∧
      ∃ conn, σ.mgmtHeap item.data = some conn ∧ conn.fd = fd
  | .socksListener | .mgmtListener =>
      σ.env.kindAt fd = some .listener ∧ item.interest = opRead

/-- A descriptor of the server is open exactly while it is registered. -/
structure Registry (σ : Server) : Prop where
  valid : ∀ fd item, σ.env.selector.items fd = some item → invalidFd fd = false
  items : ∀ fd item, σ.env.selector.items fd = some item → σ.Hosted fd item
  sockets : ∀ fd kind, σ.env.kindAt fd = some kind →
    (σ.env.selector.items fd).isSome
  listeners : ∀ fd ∈ σ.listeners, ∃ item,
    σ.env.selector.items fd = some item ∧ item.handler.listening
  ebadf : σ.env.kernel.ebadf = 0

structure Roster (σ : Server) : Prop where
  wired : ∀ p ∈ σ.live, ∃ s, σ.heap p = some s ∧ Wired p σ.env s ∧
    s.wiring.Fitted
  distinct : σ.live.Nodup
  spare : ∀ p ∈ σ.pool, ∃ s, σ.heap p = some s ∧ s.wiring.Spare
  unshared : σ.pool.Nodup
  apart : ∀ p ∈ σ.pool, p ∉ σ.live
  poolSize : σ.poolSize = σ.pool.length
  bounded : σ.poolSize ≤ maxPool
  connections : σ.env.connections = σ.live.length

/-- The resolutions that were started and not yet handled: whose they are, and
their tickets.  `jobs` are the finished ones. -/
def outstanding (env : Env) (jobs : List Job) : List (Ptr × Nat) :=
  env.resolvers.map (fun resolver => (resolver.conn, resolver.ticket)) ++
    jobs.map fun job => (job.owner, job.ticket)

/-- A connection has one outstanding resolution while it is in REQUEST_RESOLV,
and none otherwise. -/
structure Resolutions (σ : Server) (jobs : List Job) : Prop where
  single : ((outstanding σ.env jobs).map Prod.fst).Nodup
  tickets : ((outstanding σ.env jobs).map Prod.snd).Nodup
  issued : ∀ ticket ∈ (outstanding σ.env jobs).map Prod.snd,
    ticket < σ.env.nextTicket
  awaited : ∀ p, p ∈ (outstanding σ.env jobs).map Prod.fst ↔
    p ∈ σ.live ∧ ∃ s, σ.heap p = some s ∧ s.state = .requestResolv
  answered : ∀ resolver ∈ σ.env.resolvers, ∀ answer ∈ resolver.answer, ∀ s,
    σ.heap resolver.conn = some s → s.dns.Holds answer
  queued : ∀ job ∈ jobs, ∀ s, σ.heap job.owner = some s →
    job.fd = s.clientFd ∧ s.dns.Holds job.answer

/-- The write half of a visit finds the object that its read half found, or
none. -/
def Visiting (σ : Server) : Prop :=
  ∀ i n data, σ.phase = .visitWrite i n data →
    ∀ item, σ.env.selector.items i = some item → item.data = data

structure Sound (σ : Server) : Prop where
  registry : σ.Registry
  roster : σ.Roster
  resolutions : σ.Resolutions σ.env.selector.resolutionJobs
  visiting : σ.Visiting

end Server

/-- A descriptor stands for the same, in the eyes of the server. -/
def Env.SameRole (before after : Env) (fd : Fd) : Prop :=
  after.selector.items fd = before.selector.items fd ∧
    after.kindAt fd = before.kindAt fd

theorem Env.SameSlot.role {before after : Env} {fd : Fd}
    (same : before.SameSlot after fd) :
    before.SameRole after fd :=
  ⟨same.1, by rw [Env.kindAt, Env.kindAt, same.2]⟩

/-- A connection does not notice what happens to the descriptors of others. -/
theorem Wired.elsewhere {q : Ptr} {before after : Env} {s : Socks5}
    (wired : Wired q before s)
    (slots : ∀ fd, before.SameRole after fd ∨ ¬ Owned q before fd ∧
      ¬ Owned q after fd) :
    Wired q after s := by
  have keeps {fd : Fd} (owned : Owned q before fd) : before.SameRole after fd :=
    (slots fd).resolve_right fun gone => gone.1 owned
  have registers {fd : Fd} (registered : Registered q before fd) :
      Registered q after fd := by
    unfold Registered
    rw [(keeps registered.owned).1]
    exact registered
  obtain ⟨⟨client, accepted, origin, connects, only, references⟩, shaped, tuned,
    lasts⟩ := wired
  refine ⟨⟨registers client, ?_, ?_, ?_, ?_, references⟩, shaped,
    ⟨?_, ?_⟩, lasts⟩
  · rw [← kindAt_accepted] at accepted ⊢
    rw [(keeps client.owned).2]
    exact accepted
  · exact fun fd same => ⟨registers (origin fd same).1, (origin fd same).2⟩
  · intro fd same
    rw [← kindAt_origin, (keeps (origin fd same).1.owned).2, kindAt_origin]
    exact connects fd same
  · intro fd owned
    refine only fd ?_
    rcases slots fd with same | gone
    · unfold Owned
      rw [← same.1]
      exact owned
    · exact absurd owned gone.2
  · exact (keeps client.owned).1.trans tuned.client
  · exact fun fd same =>
      (keeps (origin fd same).1.owned).1.trans (tuned.origin fd same)

theorem Mine.not_owned {p q : Ptr} {env : Env} {fd : Fd} (mine : Mine p env fd)
    (other : q ≠ p) : ¬ Owned q env fd := by
  rintro ⟨i, item⟩
  rcases mine with ⟨free, -⟩ | ⟨⟨j, owned⟩, -⟩
  · rw [free] at item
    cases item
  · rw [owned] at item
    cases item
    exact other rfl

theorem Wired.framed {p q : Ptr} {before after : Env} {s : Socks5}
    (wired : Wired q before s) (frame : Frame p before after) (other : q ≠ p) :
    Wired q after s := by
  refine wired.elsewhere fun fd => ?_
  rcases frame.slots fd with same | ⟨left, right⟩
  · exact .inl same.role
  · exact .inr ⟨left.not_owned other, right.not_owned other⟩

namespace Server

structure Alongside (σ τ : Server) : Prop where
  wired : ∀ p s, Wired p σ.env s → Wired p τ.env s
  connections : τ.env.connections = σ.env.connections
  threads : τ.env.threads = σ.env.threads
  heap : τ.heap = σ.heap
  pool : τ.pool = σ.pool
  poolSize : τ.poolSize = σ.poolSize
  live : τ.live = σ.live

namespace Alongside

variable {σ τ : Server} {jobs : List Job} (alongside : Alongside σ τ)

include alongside

theorem roster (roster : σ.Roster) : τ.Roster where
  wired := by
    intro p member
    rw [alongside.live] at member
    obtain ⟨s, object, wired, fitted⟩ := roster.wired p member
    exact ⟨s, by rw [alongside.heap, object], alongside.wired p s wired, fitted⟩
  distinct := alongside.live ▸ roster.distinct
  spare := by
    rw [alongside.pool, alongside.heap]
    exact roster.spare
  unshared := alongside.pool ▸ roster.unshared
  apart := by
    rw [alongside.pool, alongside.live]
    exact roster.apart
  poolSize := by rw [alongside.poolSize, alongside.pool, roster.poolSize]
  bounded := alongside.poolSize ▸ roster.bounded
  connections := by
    rw [alongside.connections, alongside.live, roster.connections]

theorem resolutions (resolutions : σ.Resolutions jobs) :
    τ.Resolutions jobs := by
  have threads := alongside.threads
  simp only [Env.threads, Prod.mk.injEq] at threads
  obtain ⟨single, tickets, issued, awaited, answered, queued⟩ := resolutions
  have same : outstanding τ.env jobs = outstanding σ.env jobs := by
    unfold outstanding
    rw [threads.1]
  refine ⟨?_, ?_, ?_, ?_, ?_, ?_⟩
  · rwa [same]
  · rwa [same]
  · rwa [same, threads.2]
  · rwa [same, alongside.live, alongside.heap]
  · rwa [threads.1, alongside.heap]
  · rwa [alongside.heap]

end Alongside

structure Unchanged (σ τ : Server) : Prop where
  roles : ∀ fd, σ.env.SameRole τ.env fd
  ebadf : τ.env.kernel.ebadf = σ.env.kernel.ebadf
  threads : τ.env.threads = σ.env.threads
  connections : τ.env.connections = σ.env.connections
  heap : τ.heap = σ.heap
  pool : τ.pool = σ.pool
  poolSize : τ.poolSize = σ.poolSize
  mgmtHeap : τ.mgmtHeap = σ.mgmtHeap
  listeners : τ.listeners = σ.listeners
  live : τ.live = σ.live

namespace Unchanged

variable {σ τ : Server} (unchanged : Unchanged σ τ)

include unchanged

theorem hosted {fd : Fd} {item : Item} (hosted : σ.Hosted fd item) :
    τ.Hosted fd item := by
  unfold Hosted at hosted ⊢
  rw [(unchanged.roles fd).2, unchanged.live, unchanged.mgmtHeap]
  exact hosted

theorem registry (registry : σ.Registry) : τ.Registry where
  valid fd item held :=
    registry.valid fd item ((unchanged.roles fd).1.symm.trans held)
  items fd item held :=
    unchanged.hosted
      (registry.items fd item ((unchanged.roles fd).1.symm.trans held))
  sockets fd kind held := by
    rw [(unchanged.roles fd).1]
    exact registry.sockets fd kind ((unchanged.roles fd).2.symm.trans held)
  listeners fd member := by
    rw [unchanged.listeners] at member
    rw [(unchanged.roles fd).1]
    exact registry.listeners fd member
  ebadf := unchanged.ebadf.trans registry.ebadf

theorem alongside : Alongside σ τ where
  wired _ _ wired := wired.elsewhere fun fd => .inl (unchanged.roles fd)
  connections := unchanged.connections
  threads := unchanged.threads
  heap := unchanged.heap
  pool := unchanged.pool
  poolSize := unchanged.poolSize
  live := unchanged.live

theorem sound (sound : σ.Sound)
    (jobs : τ.env.selector.resolutionJobs = σ.env.selector.resolutionJobs)
    (visiting : τ.Visiting) : τ.Sound where
  registry := unchanged.registry sound.registry
  roster := unchanged.alongside.roster sound.roster
  resolutions := by
    rw [jobs]
    exact unchanged.alongside.resolutions sound.resolutions
  visiting := visiting

end Unchanged

end Server

end SocksProxy
