import SocksProxy.Mgmt.Handlers
import SocksProxy.Socks5.Wiring

/-! What the handlers of a management connection do to the selector and the
kernel. -/

namespace SocksProxy

structure Machinery where
  slaveR : Fd → Bool
  slaveW : Fd → Bool
  jobs : List Job
  ebadf : Nat
  metrics : Metrics
  threads : List Resolver × Nat

def Env.machinery (env : Env) : Machinery where
  slaveR := env.selector.slaveR
  slaveW := env.selector.slaveW
  jobs := env.selector.resolutionJobs
  ebadf := env.kernel.ebadf
  metrics := env.metrics
  threads := env.threads

structure MgmtBound (key : Key) (x : MgmtCtx) : Prop where
  valid : invalidFd key.fd = false
  item : ∃ i, x.env.selector.items key.fd = some ⟨i, .mgmt, key.data⟩
  accepted : x.env.kernel.socket key.fd = some .accepted
  fd : x.c.fd = key.fd
  live : x.closed = false

structure MgmtSettled (key : Key) (before after : MgmtCtx) : Prop where
  fd : after.c.fd = before.c.fd
  elsewhere : ∀ fd, fd ≠ key.fd → before.env.SameSlot after.env fd
  here : MgmtBound key after ∨ after.closed = true ∧
    after.env.selector.items key.fd = none ∧
    after.env.kernel.socket key.fd = none
  machinery : after.env.machinery = before.env.machinery

structure MgmtInside (before after : MgmtCtx) : Prop where
  fd : after.c.fd = before.c.fd
  live : after.closed = before.closed
  selector : after.env.selector = before.env.selector
  kernel : after.env.kernel = before.env.kernel
  metrics : after.env.metrics = before.env.metrics
  threads : after.env.threads = before.env.threads

namespace MgmtInside

variable {key : Key} {first middle last : MgmtCtx}

theorem bound (inside : MgmtInside first last) (bound : MgmtBound key first) :
    MgmtBound key last := by
  obtain ⟨valid, item, accepted, fd, live⟩ := bound
  refine ⟨valid, ?_, ?_, inside.fd.trans fd, inside.live.trans live⟩
  · rwa [inside.selector]
  · rwa [inside.kernel]

theorem machinery (inside : MgmtInside first last) :
    last.env.machinery = first.env.machinery := by
  simp only [Env.machinery, inside.selector, inside.kernel, inside.metrics,
    inside.threads]

theorem settled (inside : MgmtInside first last) (bound : MgmtBound key first) :
    MgmtSettled key first last := by
  refine ⟨inside.fd, fun fd _ => ?_, .inl (inside.bound bound),
    inside.machinery⟩
  unfold Env.SameSlot
  rw [inside.selector, inside.kernel]
  exact ⟨rfl, rfl⟩

theorem then_settled (inside : MgmtInside first middle)
    (settled : MgmtSettled key middle last) : MgmtSettled key first last := by
  obtain ⟨fd, elsewhere, here, machinery⟩ := settled
  refine ⟨fd.trans inside.fd, fun other apart => ?_, here,
    machinery.trans inside.machinery⟩
  have same := elsewhere other apart
  unfold Env.SameSlot at same ⊢
  rwa [inside.selector, inside.kernel] at same

end MgmtInside

section Handlers

variable {key : Key} {x : MgmtCtx} (bound : MgmtBound key x)

include bound

theorem settled_setInterest (i : Interest) :
    MgmtSettled key x (x.setInterest i) := by
  obtain ⟨valid, ⟨j, item⟩, accepted, fd, live⟩ := bound
  have selector : selectorSetInterest x.env.selector x.c.fd i =
      (x.env.selector.setItem key.fd (some ⟨i, .mgmt, key.data⟩),
        .success) := by
    unfold selectorSetInterest
    rw [fd, valid, item]
    rfl
  unfold MgmtCtx.setInterest
  rw [selector]
  refine ⟨rfl, fun other apart => ⟨?_, rfl⟩,
    .inl ⟨valid, ⟨i, ?_⟩, accepted, fd, live⟩, rfl⟩
  · exact Selector.items_setItem_ne _ _ apart
  · exact Selector.items_setItem_self ..

omit bound in
theorem settled_setInterest_after {y : MgmtCtx} (bound : MgmtBound key x)
    (inside : MgmtInside x y) (i : Interest) :
    MgmtSettled key x (y.setInterest i) :=
  inside.then_settled (settled_setInterest (inside.bound bound) i)

theorem settled_mgmtDone :
    ∃ y, mgmtDone key x = some y ∧ MgmtSettled key x y := by
  obtain ⟨valid, ⟨j, item⟩, accepted, fd, live⟩ := bound
  unfold mgmtDone
  rw [if_neg (Bool.not_eq_true _ ▸ valid), item]
  dsimp only
  rw [if_pos ⟨rfl, rfl⟩]
  refine ⟨_, rfl, rfl, fun other apart => ⟨?_, ?_⟩, .inr ⟨rfl, ?_, ?_⟩, ?_⟩
  · exact Selector.items_setItem_ne _ _ apart
  · exact (Kernel.socket_close ..).trans (if_neg apart)
  · exact Selector.items_setItem_self ..
  · exact (Kernel.socket_close ..).trans (if_pos rfl)
  · simp only [Env.machinery, Kernel.ebadf_close accepted]
    rfl

theorem settled_processAuth :
    ∃ y, mgmtProcessAuth key x = some y ∧ MgmtSettled key x y := by
  unfold mgmtProcessAuth
  dsimp only
  split
  · exact ⟨x, rfl, MgmtInside.settled ⟨rfl, rfl, rfl, rfl, rfl, rfl⟩ bound⟩
  · split
    · exact settled_mgmtDone bound
    · refine ⟨_, rfl, settled_setInterest_after bound ?_ opWrite⟩
      exact ⟨rfl, rfl, rfl, rfl, rfl, rfl⟩

omit bound in
theorem processMgmtRequest_inside (env : Env) (b : Buffer) (r : MgmtReq) :
    ∃ users config, (processMgmtRequest env b r).1 =
      { env with users := users, config := config } := by
  unfold processMgmtRequest
  split
  · exact ⟨_, _, rfl⟩
  · split
    · exact ⟨_, _, rfl⟩
    · split
      · exact ⟨_, _, rfl⟩
      · split
        · exact ⟨_, _, rfl⟩
        · split
          · exact ⟨_, _, rfl⟩
          · split
            · exact ⟨_, _, rfl⟩
            · exact ⟨_, _, rfl⟩

theorem settled_processRequest :
    ∃ y, mgmtProcessRequest key x = some y ∧ MgmtSettled key x y := by
  unfold mgmtProcessRequest
  dsimp only
  split
  · exact ⟨x, rfl, MgmtInside.settled ⟨rfl, rfl, rfl, rfl, rfl, rfl⟩ bound⟩
  · split
    · have inside :
          MgmtInside x
          { x with c := { x.c with wbuf := bufferReset x.c.wbuf } } :=
        ⟨rfl, rfl, rfl, rfl, rfl, rfl⟩
      obtain ⟨y, done, settled⟩ := settled_mgmtDone (inside.bound bound)
      exact ⟨y, done, inside.then_settled settled⟩
    · split
      · refine ⟨_, rfl, settled_setInterest_after bound ?_ opWrite⟩
        exact ⟨rfl, rfl, rfl, rfl, rfl, rfl⟩
      · obtain ⟨users, config, env⟩ := processMgmtRequest_inside x.env
          (bufferReset x.c.wbuf) (parseRequest x.c.rbuf.content .zero).2
        rw [env]
        refine ⟨_, rfl, settled_setInterest_after bound ?_ opWrite⟩
        exact ⟨rfl, rfl, rfl, rfl, rfl, rfl⟩

theorem settled_tryProcess :
    ∃ y, mgmtTryProcess key x = some y ∧ MgmtSettled key x y := by
  unfold mgmtTryProcess
  split
  · exact settled_processAuth bound
  · exact settled_processRequest bound
  · exact ⟨x, rfl, MgmtInside.settled ⟨rfl, rfl, rfl, rfl, rfl, rfl⟩ bound⟩
  · exact ⟨x, rfl, MgmtInside.settled ⟨rfl, rfl, rfl, rfl, rfl, rfl⟩ bound⟩

omit bound in
theorem settled_after {y : MgmtCtx} {run : MgmtCtx → Option MgmtCtx}
    (bound : MgmtBound key x) (inside : MgmtInside x y)
    (runs : ∀ y, MgmtBound key y → ∃ z, run y = some z ∧ MgmtSettled key y z) :
    ∃ z, run y = some z ∧ MgmtSettled key x z := by
  obtain ⟨z, ran, settled⟩ := runs y (inside.bound bound)
  exact ⟨z, ran, inside.then_settled settled⟩

omit bound in
theorem settled_then {y : MgmtCtx} {run : MgmtCtx → Option MgmtCtx}
    (before : MgmtSettled key x y) (live : y.closed = false)
    (runs : ∀ y, MgmtBound key y → ∃ z, run y = some z ∧ MgmtSettled key y z) :
    ∃ z, run y = some z ∧ MgmtSettled key x z := by
  obtain bound | ⟨closed, -⟩ := before.here
  · obtain ⟨z, ran, after⟩ := runs y bound
    refine ⟨z, ran, after.fd.trans before.fd, fun other apart => ?_, after.here,
      after.machinery.trans before.machinery⟩
    have left := before.elsewhere other apart
    have right := after.elsewhere other apart
    exact ⟨right.1.trans left.1, right.2.trans left.2⟩
  · rw [live] at closed
    cases closed

theorem settled_mgmtRead (a : Answers) :
    ∃ y, mgmtRead key a x = some y ∧ MgmtSettled key x y := by
  unfold mgmtRead
  split
  · exact settled_mgmtDone bound
  · split
    · split
      · refine ⟨_, rfl, MgmtInside.settled ?_ bound⟩
        exact ⟨rfl, rfl, rfl, rfl, rfl, rfl⟩
      · refine settled_after bound ?_ fun _ => settled_mgmtDone
        exact ⟨rfl, rfl, rfl, rfl, rfl, rfl⟩
    · dsimp only
      split
      · refine settled_after bound ?_ fun _ => settled_mgmtDone
        exact ⟨rfl, rfl, rfl, rfl, rfl, rfl⟩
      · refine settled_after bound ?_ fun _ => settled_tryProcess
        exact ⟨rfl, rfl, rfl, rfl, rfl, rfl⟩

theorem settled_mgmtWrite (a : Answers) :
    ∃ y, mgmtWrite key a x = some y ∧ MgmtSettled key x y := by
  unfold mgmtWrite
  split
  · split
    · refine ⟨_, rfl, MgmtInside.settled ?_ bound⟩
      exact ⟨rfl, rfl, rfl, rfl, rfl, rfl⟩
    · refine settled_after bound ?_ fun _ => settled_mgmtDone
      exact ⟨rfl, rfl, rfl, rfl, rfl, rfl⟩
  · dsimp only
    split
    · refine ⟨_, rfl, MgmtInside.settled ?_ bound⟩
      exact ⟨rfl, rfl, rfl, rfl, rfl, rfl⟩
    · split
      · refine settled_after bound ?_ fun _ => settled_mgmtDone
        exact ⟨rfl, rfl, rfl, rfl, rfl, rfl⟩
      · refine settled_then (settled_setInterest_after bound ?_ opRead) ?_
            fun _ =>
          settled_tryProcess
        · exact ⟨rfl, rfl, rfl, rfl, rfl, rfl⟩
        · exact bound.live

end Handlers

end SocksProxy
