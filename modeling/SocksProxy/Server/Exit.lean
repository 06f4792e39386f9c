import SocksProxy.Server.Lifecycle
import SocksProxy.Server.Objects
import SocksProxy.Server.Shutdown

/-! How `main` ends: it closes what is still registered, and frees the pool. -/

namespace SocksProxy

namespace Server

/-- `mgmt_close` and what `selector_unregister_fd` does after it. -/
def unregisterMgmt (fd : Fd) (p : Ptr) (σ : Server) : Option Server :=
  match σ.mgmtHeap p with
  | none => none
  | some _ =>
      some { σ.setMgmt p none with
        env := { σ.env with
          kernel := σ.env.kernel.close fd
          selector := selectorRemove σ.env.selector fd } }

/-- `socksv5_close`, with `socks5_destroy` at the last reference. -/
def unregisterSocks5 (fd : Fd) (p : Ptr) (σ : Server) : Option Server :=
  match σ.heap p with
  | none => none
  | some s =>
      (selectorUnregisterFd ⟨fd, p⟩ fd ⟨σ.env, s, [], false⟩).map
        (σ.afterCall p)

/-- `selector_unregister_fd` from outside of a handler. -/
def unregisterFd (fd : Fd) (σ : Server) : Option Server :=
  if invalidFd fd then some σ
  else
    match σ.env.selector.items fd with
    | none => some σ
    | some item =>
        match item.handler with
        | .socksListener | .mgmtListener => σ.unregisterListener fd
        | .mgmt => σ.unregisterMgmt fd item.data
        | .socks5 => σ.unregisterSocks5 fd item.data

def unregisterFds : List Fd → Server → Option Server
  | [], σ => some σ
  | fd :: rest, σ => (σ.unregisterFd fd).bind (unregisterFds rest)

/-- `selector_destroy`: every item is unregistered, and the queue of jobs is
freed. -/
def selectorDestroy (σ : Server) : Option Server :=
  (unregisterFds (List.range itemsMaxSize) σ).map fun σ => σ.withQueue []

def freeObjects : List Ptr → Server → Server
  | [], σ => σ
  | p :: rest, σ => freeObjects rest (σ.setObject p none)

def socksv5PoolDestroy (σ : Server) : Server :=
  { freeObjects σ.pool σ with pool := [], poolSize := 0 }

/-- What `main` does after its loop. -/
def leave (σ : Server) : Option Server :=
  ((unregisterFds σ.listeners σ).bind selectorDestroy).map socksv5PoolDestroy

variable {σ τ υ : Server}

def Standing (σ : Server) (fd : Fd) (item : Item) : Prop :=
  match item.handler with
  | .socks5 =>
      ∃ s, σ.heap item.data = some s ∧ s.references =
        (σ.itemsOf item.data).length
  | .mgmt => ∃ conn, σ.mgmtHeap item.data = some conn ∧ conn.fd = fd
  | .socksListener | .mgmtListener => True

/-- What is left of a server that closes down: each item has its socket and its
object. -/
structure Remains (σ τ : Server) : Prop where
  valid : ∀ fd item, τ.env.selector.items fd = some item → invalidFd fd = false
  standing : ∀ fd item, τ.env.selector.items fd = some item → τ.Standing fd item
  opened : ∀ fd item, τ.env.selector.items fd = some item →
    (τ.env.kindAt fd).isSome
  sockets : ∀ fd kind, τ.env.kindAt fd = some kind →
    (τ.env.selector.items fd).isSome
  foreign : ∀ fd, σ.env.kernel.socket fd = some .foreign →
    τ.env.kernel.socket fd = some .foreign
  ebadf : τ.env.kernel.ebadf = 0
  managed : ∀ p conn, τ.mgmtHeap p = some conn →
    ∃ i, τ.env.selector.items conn.fd = some ⟨i, .mgmt, p⟩
  objects : ∀ p s, τ.heap p = some s →
    (∃ fd, Owned p τ.env fd) ∨ p ∈ τ.pool ∨ s.resolving = true
  idle : ∀ p ∈ τ.pool, ∀ fd, ¬ Owned p τ.env fd
  pooled : ∀ p ∈ σ.pool, p ∈ τ.pool
  kept : ∀ p s, τ.heap p = some s → ∃ before, σ.heap p = some before ∧
    s.resolving = before.resolving

theorem Tidy.opened (tidy : σ.Tidy) {fd : Fd} {item : Item}
    (held : σ.env.selector.items fd = some item) :
    (σ.env.kindAt fd).isSome := by
  have hosted := tidy.sound.registry.items fd item held
  obtain ⟨i, handler, p⟩ := item
  cases handler with
  | socks5 =>
      obtain ⟨s, object, wired, -⟩ := tidy.sound.roster.wired p hosted
      rcases wired.held.only fd ⟨i, held⟩ with rfl | origin
      · rw [kindAt_accepted.mpr wired.held.accepted]
        rfl
      · rw [kindAt_origin.mpr (wired.held.connects fd origin)]
        rfl
  | mgmt | socksListener | mgmtListener =>
      have kind := hosted.1
      rw [kind]
      rfl

theorem remains_of_reachable (reachable : server.Reachable σ) :
    Remains σ σ := by
  have tidy := tidy_of_reachable reachable
  have registry := tidy.sound.registry
  have roster := tidy.sound.roster
  refine ⟨registry.valid, fun fd item held => ?_, fun fd item => tidy.opened,
    registry.sockets, fun _ => id, registry.ebadf, tidy.managed,
    fun p s object => ?_, fun p pooled fd owned => ?_,
    fun _ => id, fun p s object => ⟨s, object, rfl⟩⟩
  · have hosted := registry.items fd item held
    obtain ⟨i, handler, p⟩ := item
    cases handler with
    | socks5 =>
        obtain ⟨s, object, wired, fitted⟩ := roster.wired p hosted
        exact ⟨s, object, (tidy.sound.steady.holds wired fitted).references⟩
    | mgmt => exact hosted.2
    | socksListener | mgmtListener => trivial
  · rcases unleaked_of_reachable reachable p s object with alive | pooled
    · obtain ⟨t, held, wired, -⟩ := roster.wired p alive
      exact .inl ⟨_, wired.held.client.owned⟩
    · exact .inr (.inl pooled)
  · obtain ⟨i, held⟩ := owned
    exact roster.apart p pooled (registry.items fd _ held)

structure Parted (τ υ : Server) (fd : Fd) : Prop where
  freed : Freed fd τ.env υ.env
  ebadf : υ.env.kernel.ebadf = τ.env.kernel.ebadf

theorem Parted.owned_iff {fd other : Fd} {p : Ptr} (parted : Parted τ υ fd) :
    Owned p υ.env other ↔ other ≠ fd ∧ Owned p τ.env other := by
  unfold Owned
  rw [parted.freed.items]
  by_cases same : other = fd
  · simp [same]
  · simp [same]

theorem Parted.itemsOf {fd : Fd} (parted : Parted τ υ fd) (p : Ptr) :
    υ.itemsOf p = (τ.itemsOf p).erase fd := by
  have distinct : (τ.itemsOf p).Nodup := List.nodup_range.filter _
  rw [distinct.erase_eq_filter]
  unfold Server.itemsOf
  rw [List.filter_filter]
  refine List.filter_congr fun other _ => ?_
  rw [Bool.eq_iff_iff, owns_iff, parted.owned_iff, Bool.and_eq_true,
    owns_iff, bne_iff_ne]

theorem Parted.kindAt {fd : Fd} (parted : Parted τ υ fd) (other : Fd) :
    υ.env.kindAt other = if other = fd then none else τ.env.kindAt other := by
  unfold Env.kindAt
  rw [parted.freed.sockets]
  split <;> rfl

/-- The objects are those that there were, but perhaps for that of the item. -/
theorem Remains.parted {fd : Fd} (remains : Remains σ τ)
    (parted : Parted τ υ fd) (known : (τ.env.kindAt fd).isSome)
    (standing : ∀ other item, other ≠ fd →
      τ.env.selector.items other = some item →
      υ.Standing other item)
    (managed : ∀ p conn, υ.mgmtHeap p = some conn → conn.fd ≠ fd ∧
      τ.mgmtHeap p = some conn)
    (objects : ∀ p s, υ.heap p = some s →
      (∃ fd, Owned p υ.env fd) ∨ p ∈ υ.pool ∨ s.resolving = true)
    (idle : ∀ p ∈ υ.pool, ∀ fd, ¬ Owned p υ.env fd)
    (pooled : ∀ p ∈ τ.pool, p ∈ υ.pool)
    (kept : ∀ p s, υ.heap p = some s → ∃ before, τ.heap p = some before ∧
      s.resolving = before.resolving) : Remains σ υ := by
  have before {other : Fd} {item : Item}
      (held : υ.env.selector.items other = some item) :
      other ≠ fd ∧ τ.env.selector.items other = some item := by
    rw [parted.freed.items] at held
    split at held
    · cases held
    next apart => exact ⟨apart, held⟩
  refine ⟨fun other item held => remains.valid other item (before held).2,
    fun other item held => standing other item (before held).1 (before held).2,
    fun other item held => ?_, fun other kind at_ => ?_, fun other foreign =>
      ?_,
    parted.ebadf.trans remains.ebadf, fun p conn stored => ?_, objects, idle,
    fun p member => pooled p (remains.pooled p member), fun p s object => ?_⟩
  · rw [parted.kindAt, if_neg (before held).1]
    exact remains.opened other item (before held).2
  · rw [parted.kindAt] at at_
    split at at_
    · cases at_
    next apart =>
      rw [parted.freed.items, if_neg apart]
      exact remains.sockets other kind at_
  · have open_ := remains.foreign other foreign
    rw [parted.freed.sockets, if_neg]
    · exact open_
    · rintro rfl
      unfold Env.kindAt at known
      rw [open_] at known
      cases known
  · obtain ⟨apart, earlier⟩ := managed p conn stored
    obtain ⟨i, item⟩ := remains.managed p conn earlier
    exact ⟨i, (parted.freed.items conn.fd).trans ((if_neg apart).trans item)⟩
  · obtain ⟨middle, held, same⟩ := kept p s object
    obtain ⟨first, stored, agrees⟩ := remains.kept p middle held
    exact ⟨first, stored, same.trans agrees⟩

theorem socket_of_kindAt {env : Env} {fd : Fd}
    (known : (env.kindAt fd).isSome) :
    ∃ socket, env.kernel.socket fd = some socket := by
  unfold Env.kindAt at known
  cases opened : env.kernel.socket fd with
  | none =>
      rw [opened] at known
      cases known
  | some socket => exact ⟨socket, rfl⟩

theorem parted_of_close {fd : Fd} (known : (τ.env.kindAt fd).isSome)
    (kernel : υ.env.kernel = τ.env.kernel.close fd)
    (selector : υ.env.selector = selectorRemove τ.env.selector fd) :
    Parted τ υ fd := by
  obtain ⟨socket, opened⟩ := socket_of_kindAt known
  refine ⟨⟨fun other => ?_, fun other => ?_⟩, ?_⟩
  · rw [selector]
    rfl
  · rw [kernel, Kernel.socket_close]
  · rw [kernel, Kernel.ebadf_close opened]

theorem Remains.aside {fd : Fd} {item : Item} (remains : Remains σ τ)
    (parted : Parted τ υ fd) (held : τ.env.selector.items fd = some item)
    (other : item.handler ≠ .socks5) (heap : υ.heap = τ.heap)
    (pool : υ.pool = τ.pool)
    (standing : ∀ other item, other ≠ fd → item.handler = .mgmt →
      τ.env.selector.items other = some item → υ.Standing other item)
    (managed : ∀ p conn, υ.mgmtHeap p = some conn → conn.fd ≠ fd ∧
      τ.mgmtHeap p = some conn) :
    Remains σ υ := by
  have unowned (p : Ptr) : ¬ Owned p τ.env fd := by
    rintro ⟨i, owned⟩
    rw [held] at owned
    cases owned
    exact other rfl
  have owned_iff (p : Ptr) (number : Fd) : Owned p υ.env number ↔
      Owned p τ.env number := by
    rw [parted.owned_iff]
    refine ⟨And.right, fun owned => ⟨?_, owned⟩⟩
    rintro rfl
    exact unowned p owned
  refine remains.parted parted (remains.opened fd item held)
    (fun number entry apart present => ?_) managed (fun p s object => ?_)
    (fun p member number => ?_) (fun p => by rw [pool]; exact id)
    fun p s object => ⟨s, heap ▸ object, rfl⟩
  · obtain ⟨i, handler, p⟩ := entry
    cases handler with
    | socks5 =>
        obtain ⟨s, object, references⟩ := remains.standing number _ present
        refine ⟨s, heap ▸ object, references.trans (congrArg List.length ?_)⟩
        rw [parted.itemsOf]
        refine (List.erase_of_not_mem fun listed => unowned p ?_).symm
        exact owns_iff.mp (List.mem_filter.mp listed).2
    | mgmt => exact standing number _ apart rfl present
    | socksListener | mgmtListener => trivial
  · rw [pool]
    refine (remains.objects p s (heap ▸ object)).imp_left ?_
    rintro ⟨number, owned⟩
    exact ⟨number, (owned_iff p number).mpr owned⟩
  · rw [owned_iff]
    exact remains.idle p (pool ▸ member) number

theorem remains_listener {fd : Fd} {item : Item} (remains : Remains σ τ)
    (held : τ.env.selector.items fd = some item)
    (listens : item.handler.listening) :
    ∃ υ, τ.unregisterListener fd = some υ ∧ Remains σ υ ∧ Parted τ υ fd := by
  have valid := remains.valid fd item held
  have listener : item.handler = .socksListener ∨
      item.handler = .mgmtListener := by
    cases handler : item.handler with
    | socksListener => exact .inl rfl
    | mgmtListener => exact .inr rfl
    | socks5 | mgmt =>
        rw [handler] at listens
        exact listens.elim
  unfold unregisterListener
  rw [valid, if_neg Bool.false_ne_true, held]
  dsimp only
  rw [if_pos listener]
  refine ⟨_, rfl, ?_, parted_of_close (remains.opened fd item held) rfl rfl⟩
  refine remains.aside (parted_of_close (remains.opened fd item held) rfl rfl)
    held ?_ rfl rfl
    (fun number entry apart is present => ?_) fun p conn stored => ⟨?_, stored⟩
  · intro same
    rw [same] at listens
    exact listens.elim
  · have standing := remains.standing number entry present
    unfold Standing at standing ⊢
    rw [is] at standing ⊢
    exact standing
  · rintro rfl
    obtain ⟨i, mine⟩ := remains.managed p conn stored
    rw [held] at mine
    cases mine
    exact listens.elim

theorem remains_mgmt {fd : Fd} {i : Interest} {p : Ptr} (remains : Remains σ τ)
    (held : τ.env.selector.items fd = some ⟨i, .mgmt, p⟩) :
    ∃ υ, τ.unregisterMgmt fd p = some υ ∧ Remains σ υ ∧ Parted τ υ fd := by
  obtain ⟨conn, stored, number⟩ := remains.standing fd _ held
  have known := remains.opened fd _ held
  unfold unregisterMgmt
  rw [stored]
  refine ⟨_, rfl, ?_, parted_of_close known rfl rfl⟩
  refine remains.aside (parted_of_close known rfl rfl) held (by simp) rfl rfl
    (fun other entry apart is present => ?_) fun q other present => ?_
  · have standing := remains.standing other entry present
    unfold Standing at standing ⊢
    rw [is] at standing ⊢
    obtain ⟨its, object, same⟩ := standing
    refine ⟨its, (Function.update_of_ne ?_ ..).trans object, same⟩
    intro own
    rw [own, stored] at object
    cases object
    exact apart (same.symm.trans number)
  · have present : Function.update τ.mgmtHeap p none q = some other := present
    by_cases own : q = p
    · rw [own, Function.update_self] at present
      cases present
    · rw [Function.update_of_ne own] at present
      refine ⟨fun same => own ?_, present⟩
      obtain ⟨j, mine⟩ := remains.managed q other present
      rw [same, held] at mine
      cases mine
      rfl

inductive Spends (τ υ : Server) (p : Ptr) (c : Ctx) : Prop
  | keeps (lasts : c.destroyed = false ∨ c.s.resolving = true)
      (object : υ.heap p = some c.s) (pool : υ.pool = τ.pool)
  | pools {dns : DnsRequest} (ends : c.destroyed = true)
      (object : υ.heap p = some { c.s with dns := dns })
      (pool : υ.pool = p :: τ.pool)
  | frees (ends : c.destroyed = true) (object : υ.heap p = none)
      (pool : υ.pool = τ.pool)

theorem afterCall_spends (p : Ptr) (c : Ctx) :
    (∀ q, q ≠ p → (τ.afterCall p c).heap q = τ.heap q) ∧
      (τ.afterCall p c).mgmtHeap = τ.mgmtHeap ∧ (τ.afterCall p c).env = c.env ∧
      Spends τ (τ.afterCall p c) p c := by
  have stored := τ.heap_setObject p (some c.s)
  unfold afterCall
  dsimp only
  split
  next destroyed =>
    unfold socks5Destroy
    dsimp only
    rw [stored]
    dsimp only
    split
    next resolving =>
      exact ⟨fun q other => heap_setObject_of_ne other _, rfl, rfl,
        .keeps (.inr resolving) stored rfl⟩
    next =>
      have apart (υ : Server) (made : Option Socks5)
          (same : υ.heap = (τ.setObject p (some c.s)).heap)
          (q : Ptr) (other : q ≠ p) : (υ.setObject p made).heap q = τ.heap q :=
        (heap_setObject_of_ne other made).trans ((congrFun same q).trans
          (heap_setObject_of_ne other _))
      split
      · exact ⟨apart _ _ rfl, rfl, rfl,
          .pools destroyed (heap_setObject ..) rfl⟩
      · refine ⟨fun q other => ?_, rfl, rfl,
          .frees destroyed (heap_setObject ..) rfl⟩
        exact (heap_setObject_of_ne other _).trans (apart _ _ rfl q other)
  next alive =>
    exact ⟨fun q other => heap_setObject_of_ne other _, rfl, rfl,
      .keeps (.inl (Bool.eq_false_iff.mpr alive)) stored rfl⟩

theorem Remains.mem_itemsOf (remains : Remains σ τ) {p : Ptr} {fd : Fd} :
    fd ∈ τ.itemsOf p ↔ Owned p τ.env fd := by
  unfold Server.itemsOf
  rw [List.mem_filter, List.mem_range, owns_iff]
  refine ⟨And.right, fun owned => ⟨?_, owned⟩⟩
  obtain ⟨i, held⟩ := owned
  exact Nat.lt_of_not_le (of_decide_eq_false (remains.valid fd _ held))

structure Loses (τ υ : Server) (fd : Fd) (p : Ptr) (c : Ctx) : Prop where
  parted : Parted τ υ fd
  owned : Owned p τ.env fd
  others : ∀ q, q ≠ p → υ.heap q = τ.heap q
  mgmtHeap : υ.mgmtHeap = τ.mgmtHeap
  spends : Spends τ υ p c
  count : c.s.references = (υ.itemsOf p).length
  ends : c.destroyed = decide (c.s.references = 0)

namespace Loses

variable {fd : Fd} {p : Ptr} {c : Ctx} (loses : Loses τ υ fd p c)

include loses

theorem foreign {q : Ptr} (other : q ≠ p) : ¬ Owned q τ.env fd := by
  rintro ⟨j, owned⟩
  obtain ⟨i, held⟩ := loses.owned
  rw [held] at owned
  cases owned
  exact other rfl

theorem owned_iff {q : Ptr} (other : q ≠ p) (number : Fd) :
    Owned q υ.env number ↔ Owned q τ.env number := by
  rw [loses.parted.owned_iff]
  refine ⟨And.right, fun owned => ⟨?_, owned⟩⟩
  rintro rfl
  exact loses.foreign other owned

theorem grows {q : Ptr} (pooled : q ∈ τ.pool) : q ∈ υ.pool := by
  cases loses.spends with
  | keeps lasts object pool | frees gone object pool => exact pool ▸ pooled
  | pools gone object pool => exact pool ▸ List.mem_cons_of_mem p pooled

variable (remains : Remains σ τ)

include remains

theorem own_iff (number : Fd) :
    number ∈ υ.itemsOf p ↔ Owned p υ.env number := by
  have distinct : (τ.itemsOf p).Nodup := List.nodup_range.filter _
  rw [loses.parted.itemsOf, distinct.mem_erase_iff, remains.mem_itemsOf,
    loses.parted.owned_iff]

theorem standing {other : Fd} {item : Item} (apart : other ≠ fd)
    (present : τ.env.selector.items other = some item) :
    υ.Standing other item := by
  obtain ⟨j, handler, q⟩ := item
  cases handler with
  | socks5 =>
      by_cases own : q = p
      · subst own
        have listed : other ∈ υ.itemsOf q :=
          (loses.own_iff remains other).mpr
            (loses.parted.owned_iff.mpr ⟨apart, j, present⟩)
        have counted : c.s.references ≠ 0 := by
          rw [loses.count]
          exact Nat.ne_of_gt (List.length_pos_of_mem listed)
        have alive : c.destroyed = false :=
          loses.ends.trans (decide_eq_false counted)
        cases loses.spends with
        | keeps lasts object pool => exact ⟨c.s, object, loses.count⟩
        | pools gone | frees gone =>
            rw [alive] at gone
            cases gone
      · obtain ⟨t, stored, same⟩ := remains.standing other _ present
        refine ⟨t, (loses.others q own).trans stored,
          same.trans (congrArg List.length ?_)⟩
        rw [loses.parted.itemsOf]
        exact (List.erase_of_not_mem fun listed =>
          loses.foreign own (remains.mem_itemsOf.mp listed)).symm
  | mgmt =>
      obtain ⟨conn, stored, same⟩ := remains.standing other _ present
      exact ⟨conn, (congrFun loses.mgmtHeap q).trans stored, same⟩
  | socksListener | mgmtListener => trivial

theorem objects {q : Ptr} {t : Socks5} (stored : υ.heap q = some t) :
    (∃ number, Owned q υ.env number) ∨ q ∈ υ.pool ∨ t.resolving = true := by
  by_cases own : q = p
  · subst own
    cases loses.spends with
    | keeps lasts object pool =>
        rw [object] at stored
        cases stored
        rcases lasts with alive | resolving
        · rw [loses.ends, decide_eq_false_iff_not, loses.count] at alive
          obtain ⟨number, listed⟩ :=
            List.exists_mem_of_length_pos (Nat.pos_of_ne_zero alive)
          exact .inl ⟨number, (loses.own_iff remains number).mp listed⟩
        · exact .inr (.inr resolving)
    | pools gone object pool =>
        rw [pool]
        exact .inr (.inl List.mem_cons_self)
    | frees gone object pool =>
        rw [object] at stored
        cases stored
  · rw [loses.others q own] at stored
    rcases remains.objects q t stored with ⟨number, owned⟩ | pooled | resolving
    · exact .inl ⟨number, (loses.owned_iff own number).mpr owned⟩
    · exact .inr (.inl (loses.grows pooled))
    · exact .inr (.inr resolving)

theorem idle {q : Ptr} (member : q ∈ υ.pool) (number : Fd) :
    ¬ Owned q υ.env number := by
  by_cases own : q = p
  · subst own
    cases loses.spends with
    | keeps lasts object pool | frees gone object pool =>
        rw [pool] at member
        exact absurd loses.owned (remains.idle q member fd)
    | pools gone object pool =>
        rw [← loses.own_iff remains]
        rw [loses.ends, decide_eq_true_iff, loses.count] at gone
        rw [List.length_eq_zero_iff.mp gone]
        exact List.not_mem_nil
  · rw [loses.owned_iff own]
    refine remains.idle q ?_ number
    cases loses.spends with
    | keeps lasts object pool | frees gone object pool => exact pool ▸ member
    | pools gone object pool =>
        rw [pool] at member
        exact (List.mem_cons.mp member).resolve_left own

end Loses

theorem Spends.resolving {p : Ptr} {c : Ctx} {t : Socks5}
    (spends : Spends τ υ p c) (stored : υ.heap p = some t) :
    t.resolving = c.s.resolving := by
  cases spends with
  | keeps lasts kept | pools gone kept =>
      rw [kept] at stored
      cases stored
      rfl
  | frees gone kept =>
      rw [kept] at stored
      cases stored

theorem remains_socks5 {fd : Fd} {i : Interest} {p : Ptr}
    (remains : Remains σ τ)
    (held : τ.env.selector.items fd = some ⟨i, .socks5, p⟩) :
    ∃ υ, τ.unregisterSocks5 fd p = some υ ∧ Remains σ υ ∧ Parted τ υ fd := by
  obtain ⟨s, object, references⟩ := remains.standing fd _ held
  have known := remains.opened fd _ held
  obtain ⟨socket, opened⟩ := socket_of_kindAt known
  have registered : Registered p τ.env fd := ⟨remains.valid fd _ held, i, held⟩
  obtain ⟨c, unregistered, dropped⟩ :=
    @unregister_owned ⟨fd, p⟩ fd ⟨τ.env, s, [], false⟩ socket registered opened
      rfl
  obtain ⟨others, mgmtHeap, env, spends⟩ := τ.afterCall_spends p c
  have parted : Parted τ (τ.afterCall p c) fd := by
    refine ⟨⟨fun other => ?_, fun other => ?_⟩, ?_⟩
    · rw [env]
      exact dropped.items other
    · rw [env]
      exact dropped.sockets other
    · rw [env]
      exact congrArg Background.ebadf dropped.background
  have mine : fd ∈ τ.itemsOf p := remains.mem_itemsOf.mpr ⟨i, held⟩
  have count : c.s.references = ((τ.afterCall p c).itemsOf p).length := by
    rw [parted.itemsOf, List.length_erase_of_mem mine, ← references,
      dropped.object]
  have loses : Loses τ (τ.afterCall p c) fd p c :=
    ⟨parted, ⟨i, held⟩, others, mgmtHeap, spends, count,
      by rw [dropped.destroyed, dropped.object]⟩
  refine ⟨τ.afterCall p c, ?_, remains.parted parted known
    (fun _ _ => loses.standing remains) (fun q conn stored => ?_)
    (fun _ _ => loses.objects remains) (fun _ => loses.idle remains)
    (fun _ => loses.grows) fun q t stored => ?_, parted⟩
  · unfold unregisterSocks5
    rw [object]
    dsimp only
    rw [unregistered]
    rfl
  · rw [mgmtHeap] at stored
    refine ⟨?_, stored⟩
    rintro rfl
    obtain ⟨j, managed⟩ := remains.managed q conn stored
    rw [held] at managed
    cases managed
  · by_cases own : q = p
    · subst own
      refine ⟨s, object, (spends.resolving stored).trans ?_⟩
      rw [dropped.object]
    · exact ⟨t, (others q own).symm.trans stored, rfl⟩

/-- A descriptor that is registered is closed with its object; another is left
alone. -/
theorem remains_unregisterFd (remains : Remains σ τ) (fd : Fd) :
    ∃ υ, τ.unregisterFd fd = some υ ∧ Remains σ υ ∧
      ∀ other, υ.env.selector.items other =
        if other = fd then none else τ.env.selector.items other := by
  unfold unregisterFd
  cases held : τ.env.selector.items fd with
  | none =>
      refine ⟨τ, ?_, remains, fun other => ?_⟩
      · split <;> rfl
      · split
        next same => rw [same, held]
        next => rfl
  | some item =>
      rw [remains.valid fd item held, if_neg Bool.false_ne_true]
      obtain ⟨i, handler, p⟩ := item
      cases handler with
      | socks5 =>
          obtain ⟨υ, runs, kept, parted⟩ := remains_socks5 remains held
          exact ⟨υ, runs, kept, parted.freed.items⟩
      | mgmt =>
          obtain ⟨υ, runs, kept, parted⟩ := remains_mgmt remains held
          exact ⟨υ, runs, kept, parted.freed.items⟩
      | socksListener | mgmtListener =>
          obtain ⟨υ, runs, kept, parted⟩ :=
            remains_listener remains held trivial
          exact ⟨υ, runs, kept, parted.freed.items⟩

theorem remains_unregisterFds (remains : Remains σ τ) (fds : List Fd) :
    ∃ υ, unregisterFds fds τ = some υ ∧ Remains σ υ ∧
      ∀ other, υ.env.selector.items other =
        if other ∈ fds then none else τ.env.selector.items other := by
  induction fds generalizing τ with
  | nil => exact ⟨τ, rfl, remains, fun other => (if_neg List.not_mem_nil).symm⟩
  | cons fd rest induction =>
      obtain ⟨middle, first, kept, items⟩ := remains_unregisterFd remains fd
      obtain ⟨υ, later, after, others⟩ := induction kept
      refine ⟨υ, ?_, after, fun other => ?_⟩
      · unfold unregisterFds
        rw [first]
        exact later
      · rw [others, items]
        by_cases same : other = fd
        · simp [same]
        · simp [same]

theorem freeObjects_heap (pool : List Ptr) (p : Ptr) :
    (freeObjects pool σ).heap p = if p ∈ pool then none else σ.heap p := by
  induction pool generalizing σ with
  | nil => simp [freeObjects]
  | cons q rest induction =>
      unfold freeObjects
      rw [induction]
      by_cases same : p = q
      · subst same
        simp [heap_setObject]
      · rw [heap_setObject_of_ne same]
        simp [same]

theorem freeObjects_rest (pool : List Ptr) :
    (freeObjects pool σ).env = σ.env ∧ (freeObjects pool σ).mgmtHeap =
      σ.mgmtHeap := by
  induction pool generalizing σ with
  | nil => exact ⟨rfl, rfl⟩
  | cons q rest induction => exact induction

end Server

/-- When `main` returns, from whatever state it left its loop in, every
descriptor of the server is closed, once each, and every object is freed; only
that of a connection whose resolution is in flight is not. -/
theorem exit_releases {σ : Server} (reachable : server.Reachable σ) :
    ∃ τ, σ.leave = some τ ∧ (∀ fd, τ.env.kindAt fd = none) ∧
      (∀ fd, σ.env.kernel.socket fd = some .foreign →
        τ.env.kernel.socket fd = some .foreign) ∧
      τ.env.kernel.ebadf = 0 ∧ (∀ p, τ.mgmtHeap p = none) ∧
      ∀ p, (τ.heap p).isSome →
        p ∈ σ.live ∧ ∃ s, σ.heap p = some s ∧ s.state = .requestResolv := by
  have remains := Server.remains_of_reachable reachable
  obtain ⟨υ, listeners, between, -⟩ :=
    Server.remains_unregisterFds remains σ.listeners
  obtain ⟨φ, others, left, items⟩ :=
    Server.remains_unregisterFds between (List.range itemsMaxSize)
  have gone (fd : Fd) : φ.env.selector.items fd = none := by
    cases held : φ.env.selector.items fd with
    | none => rfl
    | some item =>
        have valid := of_decide_eq_false (left.valid fd item held)
        rw [items, if_pos (List.mem_range.mpr (Nat.lt_of_not_le valid))] at held
        cases held
  have unowned (p : Ptr) (fd : Fd) : ¬ Owned p φ.env fd := by
    rintro ⟨i, held⟩
    rw [gone] at held
    cases held
  obtain ⟨env, mgmtHeap⟩ := Server.freeObjects_rest (σ := φ.withQueue []) φ.pool
  refine ⟨(φ.withQueue []).socksv5PoolDestroy, ?_, fun fd => ?_,
    fun fd foreign => ?_, ?_, fun p => ?_, fun p stored => ?_⟩
  · unfold Server.leave Server.selectorDestroy
    rw [listeners, Option.bind_some, others]
    rfl
  · cases open_ : φ.env.kindAt fd with
    | none => exact (congrArg (Env.kindAt · fd) env).trans open_
    | some kind =>
        have registered := left.sockets fd kind open_
        rw [gone] at registered
        cases registered
  · exact (congrArg (fun env : Env => env.kernel.socket fd) env).trans
      (left.foreign fd foreign)
  · exact (congrArg (fun env : Env => env.kernel.ebadf) env).trans left.ebadf
  · cases managed : φ.mgmtHeap p with
    | none => exact (congrFun mgmtHeap p).trans managed
    | some conn =>
        obtain ⟨i, held⟩ := left.managed p conn managed
        rw [gone] at held
        cases held
  · obtain ⟨s, object⟩ := Option.isSome_iff_exists.mp stored
    have object : (Server.freeObjects φ.pool (φ.withQueue [])).heap p =
        some s := object
    rw [Server.freeObjects_heap] at object
    split at object
    · cases object
    next unpooled =>
      obtain ⟨before, earlier, same⟩ := left.kept p s object
      rcases left.objects p s object with ⟨fd, owned⟩ | pooled | resolving
      · exact absurd owned (unowned p fd)
      · exact absurd pooled unpooled
      · rcases Server.unleaked_of_reachable reachable p before earlier with
          alive | pooled
        · obtain ⟨t, held, wired, -⟩ :=
            (Server.sound_of_reachable reachable).roster.wired p alive
          obtain rfl : before = t := Option.some.inj (earlier.symm.trans held)
          refine ⟨alive, before, earlier, of_decide_eq_true ?_⟩
          exact wired.shaped.resolving.symm.trans (same.symm.trans resolving)
        · exact absurd (left.pooled p pooled) unpooled

private def leavingTurns : List Server.Turn :=
  [.client 0 7, .client 1 9, .event .signal, .event .signal,
    .event .interrupted, .event .notified, .event .afterSelect]

theorem exit_releases_forced :
    ∃ σ τ : Server, σ.phase = .stopped ∧ σ.live = [7] ∧ (σ.mgmtHeap 9).isSome ∧
      σ.leave = some τ ∧ (∀ fd, τ.env.kindAt fd = none) ∧
      τ.env.kernel.ebadf = 0 ∧
      ∀ p, τ.mgmtHeap p = none := by
  have expected : ((Server.perform id Server.advance 30 leavingTurns
      (.governed configInitDefaults usersInit)).any fun σ =>
        decide (σ.phase = .stopped ∧ σ.live = [7]) && (σ.mgmtHeap 9).isSome) =
            true := by
    decide +kernel
  obtain ⟨σ, performs, facts⟩ := (Option.any_eq_true ..).mp expected
  obtain ⟨left, managed⟩ := Bool.and_eq_true_iff.mp facts
  obtain ⟨stopped, live⟩ := of_decide_eq_true left
  obtain ⟨events, run⟩ := Server.run_of_perform Server.step_of_advance performs
  obtain ⟨τ, leaves, closed, -, once, freed, -⟩ :=
    exit_releases ⟨_, events, Server.init_governed _ _, run⟩
  exact ⟨σ, τ, stopped, live, managed, leaves, closed, once, freed⟩

end SocksProxy
