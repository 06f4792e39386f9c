import SocksProxy.Socks5.Failover
import SocksProxy.Socks5.Interests

/-! What the kernel makes of the connect calls of a connection: which number a
connect under way has, and what stands behind a reply of success. -/

namespace SocksProxy

/-- The connect of an attempt is made, and goes on in the background. -/
def Attempt.Pends (attempt : Attempt) : Prop :=
  attempt.socket = 0 ∧ attempt.nio = true ∧
    (attempt.connect = eInProgress ∨ attempt.connect = eIntr)

instance (attempt : Attempt) : Decidable attempt.Pends :=
  inferInstanceAs (Decidable (_ ∧ _ ∧ _))

/-- A number that the kernel would hand out next. -/
def Kernel.Lowest (k : Kernel) (fd : Fd) : Prop :=
  k.socket fd = none ∧ ∀ lower, lower < fd → (k.socket lower).isSome

theorem Kernel.lowest_openSocket (k : Kernel) (socket : Socket) :
    k.Lowest (k.openSocket socket).1 :=
  ⟨k.socket_openSocket_fst socket, fun _ => k.open_below socket⟩

theorem Kernel.Lowest.congr {k other : Kernel} {fd : Fd} (lowest : k.Lowest fd)
    (same : ∀ fd, other.socket fd = k.socket fd) : other.Lowest fd := by
  refine ⟨(same fd).trans lowest.1, fun lower below => ?_⟩
  rw [same]
  exact lowest.2 lower below

theorem Kernel.Lowest.unique {k : Kernel} {left right : Fd}
    (first : k.Lowest left) (second : k.Lowest right) : left = right := by
  rcases Nat.lt_trichotomy left right with below | same | above
  · have used := second.2 left below
    rw [first.1] at used
    cases used
  · exact same
  · have used := first.2 right above
    rw [second.1] at used
    cases used

structure Pending (a : Answers) (before after : Ctx) (k : Nat) (fd : Fd) :
    Prop where
  pends : (a.attempt k).Pends
  origin : after.s.originFd = some fd
  lowest : before.env.kernel.Lowest fd

theorem tryCandidate_pending {key : Key} {a : Answers} {c after : Ctx}
    (entered : tryCandidate key a c = (after, some .requestConnecting)) :
    ∃ fd, Pending a c after c.s.addrIdx fd := by
  unfold tryCandidate at entered
  dsimp only at entered
  split at entered
  · cases entered
  next opened =>
    split at entered
    · cases entered
    next prepared =>
      split at entered
      · split at entered <;> cases entered
      · split at entered
        next waiting =>
          split at entered <;> cases entered
          next registered =>
            refine ⟨c.openOrigin.1,
              ⟨not_not.mp opened, by simpa using prepared, waiting⟩, ?_, ?_⟩
            · exact registerOrigin_connected registered
            · exact Kernel.lowest_openSocket _ (.origin .unconnected)
        · cases entered

theorem tryCandidates_pending {key : Key} {a : Answers} {left : Nat}
    {c after : Ctx}
    (entered : tryCandidates key a left c = (after, .requestConnecting)) :
    ∃ k fd, c.s.addrIdx ≤ k ∧ k < c.s.addrIdx + left ∧
      Pending a c after k fd := by
  induction left generalizing c with
  | zero =>
      unfold tryCandidates at entered
      split at entered <;> cases entered
  | succ left induction =>
      have round := round_tryCandidate key a c
      unfold tryCandidates at entered
      split at entered
      next middle next found =>
        cases entered
        obtain ⟨fd, pending⟩ := tryCandidate_pending found
        exact ⟨c.s.addrIdx, fd, Nat.le_refl _, by omega, pending⟩
      next middle found =>
        rw [found] at round
        cases round with
        | @failure after reason outcome nonzero unmoved object =>
            have index : middle.s.addrIdx = c.s.addrIdx + 1 := by rw [object]
            obtain ⟨k, fd, above, below, pends, origin, lowest⟩ :=
              induction entered
            refine ⟨k, fd, by omega, by omega, pends, origin,
              lowest.congr fun other => ?_⟩
            exact (unmoved.slots other).2.symm

theorem startConnection_pending {key : Key} {a : Answers} {c after : Ctx}
    (entered : startConnection key a c = (after, .requestConnecting)) :
    ∃ k fd, c.s.addrIdx ≤ k ∧ k < c.s.naddrs ∧ Pending a c after k fd := by
  obtain ⟨k, fd, above, below, pending⟩ := tryCandidates_pending entered
  have index : (c.call .startConnection).s.addrIdx = c.s.addrIdx := rfl
  exact ⟨k, fd, above, by omega, pending.pends, pending.origin, pending.lowest⟩

/-- The sockets after a search: the only connect under way that is new has the
lowest number. -/
theorem startConnection_opens {key : Key} {a : Answers} {c : Ctx} {fd : Fd}
    (held : (startConnection key a c).1.env.kernel.socket fd =
      some (.origin .inProgress)) :
    c.env.kernel.socket fd = some (.origin .inProgress) ∨
      ∃ k, c.s.addrIdx ≤ k ∧ k < c.s.naddrs ∧ (a.attempt k).Pends ∧
        c.env.kernel.Lowest fd := by
  have attempted := attempted_startConnection key a c
  obtain ⟨⟨after, next⟩, ran⟩ : ∃ result, startConnection key a c = result :=
    ⟨_, rfl⟩
  rw [ran] at attempted held
  cases attempted with
  | exhausted unmoved => exact .inl ((unmoved.slots fd).2.symm.trans held)
  | @connected after other gained =>
      have socket := gained.sockets fd
      rw [show after.env.kernel.socket fd = _ from held] at socket
      split at socket
      · cases socket
      · exact .inl socket.symm
  | @connecting after other gained =>
      obtain ⟨k, fd', above, below, pends, origin, lowest⟩ :=
        startConnection_pending ran
      have same : other = fd' :=
        Option.some.inj
          ((congrArg Wiring.originFd gained.wiring).symm.trans origin)
      have socket := gained.sockets fd
      rw [show after.env.kernel.socket fd = _ from held] at socket
      split at socket
      next here => exact .inr ⟨k, above, below, pends, here ▸ same ▸ lowest⟩
      next => exact .inl socket.symm

/-- The kernel was asked to connect, and has not refused at once. -/
def ConnectStatus.Pursued : ConnectStatus → Prop
  | .unconnected => False
  | .inProgress | .connected => True
  | .failed e => e ≠ 0

structure Backed (st : SocksState) (kernel : Kernel) (s : Socks5) : Prop where
  connecting : st = .requestConnecting → ∃ fd status, s.originFd = some fd ∧
    kernel.socket fd = some (.origin status) ∧ status.Pursued
  success : st = .requestWrite → s.reply = repSuccess →
    ∃ fd, s.originFd = some fd ∧ kernel.socket fd = some (.origin .connected)

namespace Backed

variable {st : SocksState} {kernel : Kernel} {s : Socks5}

theorem elsewhere (connecting : st ≠ .requestConnecting)
    (writing : st ≠ .requestWrite) :
    Backed st kernel s :=
  ⟨fun same => absurd same connecting, fun same => absurd same writing⟩

theorem refused {reply : UInt8} (refused : reply ≠ repSuccess)
    (same : s.reply = reply) :
    Backed .requestWrite kernel s :=
  ⟨fun other => (by cases other), fun _ success =>
    absurd (same.symm.trans success) refused⟩

theorem congr {other : Socks5} (backed : Backed st kernel s)
    (origin : other.originFd = s.originFd) (reply : other.reply = s.reply) :
    Backed st kernel other := by
  refine ⟨fun same => ?_, fun same success => ?_⟩
  · rw [origin]
    exact backed.connecting same
  · rw [origin]
    exact backed.success same (reply.symm.trans success)

end Backed

theorem startConnection_backed {key : Key} {a : Answers} {c : Ctx}
    (unconnected : c.s.originFd = none) :
    Backed (startConnection key a c).2 (startConnection key a c).1.env.kernel
      (startConnection key a c).1.s := by
  have attempted := attempted_startConnection key a c
  have landed := startConnection_landed key a c
  obtain ⟨result, ran⟩ : ∃ result, startConnection key a c = result := ⟨_, rfl⟩
  rw [ran] at attempted landed ⊢
  cases attempted with
  | @exhausted after unmoved =>
      refine ⟨fun other => (by cases other), fun _ success => ?_⟩
      have origin : after.s.originFd = none :=
        (congrArg Wiring.originFd unmoved.wiring).trans unconnected
      exact absurd origin (landed (.inr (.inr ⟨rfl, success⟩)))
  | @connected after fd gained =>
      refine ⟨fun other => (by cases other), fun _ _ => ⟨fd, ?_, ?_⟩⟩
      · exact congrArg Wiring.originFd gained.wiring
      · exact (gained.sockets fd).trans (if_pos rfl)
  | @connecting after fd gained =>
      refine ⟨fun _ => ⟨fd, .inProgress, ?_, ?_, trivial⟩, fun other =>
        (by cases other)⟩
      · exact congrArg Wiring.originFd gained.wiring
      · exact (gained.sockets fd).trans (if_pos rfl)

theorem processRequest_backed {key : Key} {a : Answers} {c : Ctx}
    (unconnected : c.s.originFd = none) :
    Backed (processRequest key a c).2 (processRequest key a c).1.env.kernel
      (processRequest key a c).1.s := by
  unfold processRequest
  dsimp only
  split
  · exact @Backed.refused _ _ repCommandNotSupported (by decide) rfl
  · split
    · exact startConnection_backed unconnected
    · split
      · exact startConnection_backed unconnected
      · split
        · split
          · exact @Backed.refused _ _ repGeneralFailure (by decide) rfl
          · exact .elsewhere (by simp) (by simp)
        · exact @Backed.refused _ _ repAtypNotSupported (by decide) rfl

theorem requestCompleted_backed {key : Key} {a : Answers} {c : Ctx}
    (unconnected : c.s.originFd = none) :
    Backed (requestCompleted key a c).2 (requestCompleted key a c).1.env.kernel
      (requestCompleted key a c).1.s := by
  unfold requestCompleted
  dsimp only
  split
  · exact @Backed.refused _ _ repGeneralFailure (by decide) rfl
  · exact processRequest_backed unconnected

theorem resolvBlock_backed {key : Key} {a : Answers} {c : Ctx}
    (unconnected : c.s.originFd = none) :
    Backed (resolvBlock key a c).2 (resolvBlock key a c).1.env.kernel
      (resolvBlock key a c).1.s := by
  unfold resolvBlock
  dsimp only
  split
  · exact @Backed.refused _ _ repHostUnreachable (by decide) rfl
  · split
    · exact @Backed.refused _ _ repHostUnreachable (by decide) rfl
    · exact startConnection_backed unconnected

/-- The error that `connecting_write` reads tells of the socket of a connect
that is over. -/
theorem connectingWrite_backed {key : Key} {a : Answers} {c : Ctx}
    {result : Ctx × SocksState}
    (backed : Backed .requestConnecting c.env.kernel c.s)
    (settled : ∀ fd, c.s.originFd = some fd →
      c.env.kernel.socket fd ≠ some (.origin .inProgress))
    (genuine : a.soError ≠ some 0)
    (ran : connectingWrite key a c = some result) :
    Backed result.2 result.1.env.kernel result.1.s := by
  obtain ⟨fd, status, origin, socket, pursued⟩ := backed.connecting rfl
  unfold connectingWrite at ran
  dsimp only at ran
  split at ran
  next success =>
    cases ran
    refine ⟨fun other => (by cases other), fun _ _ => ⟨fd, origin, ?_⟩⟩
    have unanswered : a.soError = none := by
      cases held : a.soError with
      | none => rfl
      | some e =>
          rw [held] at success
          exact absurd (held.trans (congrArg some success)) genuine
    rw [unanswered, origin] at success
    have read : c.env.kernel.soError fd = 0 := success
    unfold Kernel.soError at read
    rw [socket] at read
    cases status with
    | unconnected => exact pursued.elim
    | inProgress => exact absurd socket (settled fd origin)
    | connected => exact socket
    | failed e => exact absurd read pursued
  next =>
    obtain ⟨closed, -, started⟩ := Option.map_eq_some_iff.mp ran
    rw [← started]
    exact startConnection_backed rfl

@[simp] theorem setInterestOrFail_kernel (c : Ctx) (i : Interest)
    (next : SocksState) :
    (setInterestOrFail c i next).1.env.kernel = c.env.kernel := by
  unfold setInterestOrFail
  split <;> exact congrArg (fun result : Ctx × SelectorStatus =>
    result.1.env.kernel) (Eq.symm ‹_›)

@[simp] theorem copyComputeInterests_kernel (c : Ctx) :
    (copyComputeInterests c).env.kernel = c.env.kernel := by
  unfold copyComputeInterests
  dsimp only
  split <;> rfl

theorem copyUpdate_kernel (c : Ctx) :
    (copyUpdate c).1.env.kernel = c.env.kernel := by
  have shut : (shutClientWrite (shutOriginWrite c)).env.kernel =
      c.env.kernel := by
    unfold shutClientWrite shutOriginWrite
    split <;> split <;> rfl
  unfold copyUpdate
  dsimp only
  split
  · exact shut
  · exact (copyComputeInterests_kernel _).trans shut

theorem pumpThenUpdate_kernel (pumped : Ctx × Bool) :
    (pumpThenUpdate pumped).1.env.kernel = pumped.1.env.kernel := by
  unfold pumpThenUpdate
  split
  · rfl
  · exact copyUpdate_kernel pumped.1

theorem jump_kernel (key : Key) (a : Answers) (next : SocksState) (c : Ctx) :
    (jump key a next c).env.kernel = c.env.kernel := by
  unfold jump
  split
  · rfl
  · cases next with
    | requestWrite =>
        unfold enter states requestWriteArrival
        dsimp only
        split <;> rfl
    | copy => exact copyComputeInterests_kernel _
    | _ => rfl

abbrev SameKernel (before after : Ctx) : Prop :=
  after.env.kernel = before.env.kernel

theorem copy_kernel {kind : EventKind} {key : Key} {a : Answers} {c : Ctx}
    {handler : Handler} {result : Ctx × SocksState}
    (serves : Serves .copy kind handler) (ran : handler key a c = some result) :
    result.1.env.kernel = c.env.kernel := by
  have trans {first middle last : Ctx} (left : SameKernel first middle)
      (right : SameKernel middle last) : SameKernel first last :=
      right.trans left
  cases serves with
  | copyRead =>
      rw [← eq_of_total ran, copyRead]
      split
      · refine (copyReadClient_effect a c).follows (R :=
          SameKernel) trans copyUpdate_kernel
          pumpThenUpdate_kernel (fun _ => rfl) rfl (fun _ => rfl)
            (fun octets _ _ => ?_)
          fun _ => rfl
        unfold SameKernel storeFromClient
        dsimp only
        split <;> rfl
      · exact (copyReadOrigin_effect a c).follows (R :=
          SameKernel) trans copyUpdate_kernel
          pumpThenUpdate_kernel (fun _ => rfl) rfl (fun _ => rfl)
            (fun _ _ _ => rfl) fun _ => rfl
  | copyWrite =>
      rw [← eq_of_total ran, copyWrite]
      split
      · exact pumpThenUpdate_kernel (pumpToClient a c)
      · exact pumpThenUpdate_kernel (pumpToOrigin a c)

theorem writeEffect_kernel {self : SocksState}
    {complete : Ctx → Ctx × SocksState} {c : Ctx} {result : Ctx × SocksState}
    (completes : ∀ c, (complete c).1.env.kernel = c.env.kernel)
    (effect : WriteEffect self complete c result) :
    result.1.env.kernel = c.env.kernel := by
  cases effect with
  | again | failed | partly => rfl
  | flushed => exact completes _

theorem readEffect_kernel {Parser : Type} {feed : Parser → UInt8 → Parser}
    {finished : Parser → Bool} {parser : Parser}
    {store : Ctx → Parser → Buffer → Ctx} {self : SocksState}
    {complete : Ctx → Ctx × SocksState} {c : Ctx} {result : Ctx × SocksState}
    (stores : ∀ c q buffer, (store c q buffer).env = c.env)
    (completes : ∀ c, (complete c).1.env.kernel = c.env.kernel)
    (effect : ReadEffect feed finished parser store self complete c result) :
    result.1.env.kernel = c.env.kernel := by
  cases effect with
  | again | failed | closed => rfl
  | partly =>
      rw [stores]
      rfl
  | completed =>
      rw [completes, stores]
      rfl

/-- The states whose handlers may open or close an origin. -/
def SocksState.seeks (st : SocksState) : Prop :=
  st = .requestRead ∨ st = .requestResolv ∨ st = .requestConnecting

theorem handler_kernel {kind : EventKind} {key : Key} {a : Answers} {c : Ctx}
    {st : SocksState} {handler : Handler} {result : Ctx × SocksState}
    (plain : ¬ st.seeks) (serves : Serves st kind handler)
    (ran : handler key a c = some result) :
    result.1.env.kernel = c.env.kernel := by
  cases serves with
  | helloRead =>
      rw [← eq_of_total ran]
      refine readEffect_kernel ?_ (fun c => ?_) (helloRead_effect key a c)
      · exact fun _ _ _ => rfl
      · unfold helloCompleted
        split
        · rfl
        · exact setInterestOrFail_kernel ..
  | helloWrite =>
      rw [← eq_of_total ran]
      refine writeEffect_kernel (fun c => ?_) (helloWrite_effect key a c)
      split
      · rfl
      · exact setInterestOrFail_kernel ..
  | authRead =>
      rw [← eq_of_total ran]
      refine readEffect_kernel ?_ (fun c => ?_) (authRead_effect key a c)
      · exact fun _ _ _ => rfl
      · unfold authCompleted
        split
        · rfl
        · exact setInterestOrFail_kernel ..
  | authWrite =>
      rw [← eq_of_total ran]
      refine writeEffect_kernel (fun c => ?_) (authWrite_effect key a c)
      split
      · rfl
      · exact setInterestOrFail_kernel ..
  | requestWrite =>
      rw [← eq_of_total ran]
      refine writeEffect_kernel (fun c => ?_) (requestWrite_effect key a c)
      unfold replySent
      dsimp only
      split <;> rfl
  | copyRead => exact copy_kernel .copyRead ran
  | copyWrite => exact copy_kernel .copyWrite ran
  | requestRead => exact absurd (.inl rfl) plain
  | resolvBlock => exact absurd (.inr (.inl rfl)) plain
  | connectingWrite => exact absurd (.inr (.inr rfl)) plain

theorem handler_backed {kind : EventKind} {key : Key} {a : Answers} {c : Ctx}
    {st : SocksState} {handler : Handler} {result : Ctx × SocksState}
    (backed : Backed st c.env.kernel c.s)
    (unconnected : st.early = true → c.s.originFd = none)
    (settled : st = .requestConnecting → ∀ fd, c.s.originFd = some fd →
      c.env.kernel.socket fd ≠ some (.origin .inProgress))
    (genuine : a.soError ≠ some 0) (serves : Serves st kind handler)
    (ran : handler key a c = some result) :
    Backed result.2 result.1.env.kernel result.1.s := by
  have follows := handler_next serves ran
  have early
      (plain :
      st.successors.all (fun next => decide (next ≠ .requestConnecting ∧
      next ≠ .requestWrite)) = true) :
      Backed result.2 result.1.env.kernel result.1.s := by
    have next := of_decide_eq_true (List.all_eq_true.mp plain _ follows)
    exact .elsewhere next.1 next.2
  cases serves with
  | helloRead | helloWrite | authRead | authWrite | copyRead
  | copyWrite => exact early rfl
  | requestRead =>
      have effect := requestRead_effect key a c
      rw [eq_of_total ran] at effect
      cases effect with
      | again | failed | closed | partly => exact .elsewhere (by simp) (by simp)
      | completed => exact requestCompleted_backed (unconnected rfl)
  | resolvBlock => exact eq_of_total ran ▸ resolvBlock_backed (unconnected rfl)
  | connectingWrite =>
      exact connectingWrite_backed backed (settled rfl) genuine ran
  | requestWrite =>
      have effect := requestWrite_effect key a c
      rw [eq_of_total ran] at effect
      cases effect with
      | again => exact backed
      | failed => exact .elsewhere (by simp) (by simp)
      | partly => exact backed.congr rfl rfl
      | flushed =>
          unfold replySent
          dsimp only
          split <;> exact .elsewhere (by simp) (by simp)

/-- Where a handler may leave a connect under way that was not there before. -/
structure Opens (st : SocksState) (a : Answers) (kernel : Kernel) (s : Socks5)
    (fd : Fd) :
    Prop where
  seeks : st.seeks
  reading : st = .requestRead → (a.attempt 0).Pends ∧ kernel.Lowest fd
  connecting : st = .requestConnecting → ∃ origin, s.originFd = some origin ∧
    fd ≤ origin

theorem dnsResolveAsync_kernel {a : Answers} {c after : Ctx} {launched : Bool}
    (ran : dnsResolveAsync a c = (after, launched)) :
    after.env.kernel = c.env.kernel := by
  unfold dnsResolveAsync at ran
  dsimp only at ran
  split at ran <;> cases ran <;> rfl

theorem processRequest_opens {key : Key} {a : Answers} {c : Ctx} {fd : Fd}
    (held : (processRequest key a c).1.env.kernel.socket fd =
      some (.origin .inProgress)) :
    c.env.kernel.socket fd = some (.origin .inProgress) ∨
      (a.attempt 0).Pends ∧ c.env.kernel.Lowest fd := by
  have single {before : Ctx} {address : SockAddr}
      (held : (startConnection key a before).1.env.kernel.socket fd =
        some (.origin .inProgress))
      (addrs : before.s.addrs = [address]) (idx : before.s.addrIdx = 0)
      (kernel : before.env.kernel = c.env.kernel) :
      c.env.kernel.socket fd = some (.origin .inProgress) ∨
        (a.attempt 0).Pends ∧ c.env.kernel.Lowest fd := by
    rw [← kernel]
    rcases startConnection_opens held with same |
      ⟨k, above, below, pends, lowest⟩
    · exact .inl same
    · have one : k = 0 := by
        rw [Socks5.naddrs, addrs] at below
        simpa using below
      exact .inr ⟨one ▸ pends, lowest⟩
  unfold processRequest at held
  dsimp only at held
  split at held
  · exact .inl held
  · split at held
    · exact single held rfl rfl rfl
    · split at held
      · exact single held rfl rfl rfl
      · split at held
        · split at held
          next after found =>
            have kernel := dnsResolveAsync_kernel found
            exact .inl ((congrArg (Kernel.socket · fd) kernel).symm.trans held)
          next after found =>
            have kernel := dnsResolveAsync_kernel found
            exact .inl ((congrArg (Kernel.socket · fd) kernel).symm.trans held)
        · exact .inl held

/-- The lowest number once the origin is closed is no higher than the
origin's. -/
theorem connectingWrite_opens {key : Key} {a : Answers} {c : Ctx}
    {result : Ctx × SocksState} {fd origin : Fd}
    (held : c.s.originFd = some origin)
    (registered : Registered key.data c.env origin)
    (ran : connectingWrite key a c = some result)
    (opened : result.1.env.kernel.socket fd = some (.origin .inProgress)) :
    c.env.kernel.socket fd = some (.origin .inProgress) ∨ fd ≤ origin := by
  have number : c.s.originNumber = origin := by
    rw [Socks5.originNumber, held]
    rfl
  unfold connectingWrite at ran
  dsimp only at ran
  split at ran
  next =>
    cases ran
    exact .inl opened
  next =>
    obtain ⟨dropped, unregistered, same⟩ := Option.map_eq_some_iff.mp ran
    rw [number] at unregistered
    have freed := (unregister_freed unregistered).resolve_left fun absent =>
      absent.1 registered
    rw [← same] at opened
    rcases startConnection_opens opened with earlier |
      ⟨k, above, below, pends, lowest⟩
    · have socket := freed.sockets fd
      rw [show dropped.env.kernel.socket fd = _ from earlier] at socket
      split at socket
      · cases socket
      · exact .inl socket.symm
    · refine .inr (Nat.le_of_not_lt fun above => ?_)
      have used := lowest.2 origin above
      have free := (freed.sockets origin).trans (if_pos rfl)
      change (dropped.env.kernel.socket origin).isSome = true at used
      rw [show dropped.env.kernel.socket origin = none from free] at used
      cases used

theorem handler_opens {kind : EventKind} {key : Key} {a : Answers} {c : Ctx}
    {st : SocksState} {handler : Handler} {result : Ctx × SocksState} {fd : Fd}
    (registered :
      ∀ origin, c.s.originFd = some origin → Registered key.data c.env origin)
    (connects : st = .requestConnecting → c.s.originFd.isSome)
    (serves : Serves st kind handler) (ran : handler key a c = some result)
    (opened : result.1.env.kernel.socket fd = some (.origin .inProgress)) :
    c.env.kernel.socket fd = some (.origin .inProgress) ∨
      Opens st a c.env.kernel c.s fd := by
  by_cases plain : st.seeks
  · cases serves with
    | requestRead =>
        have effect := requestRead_effect key a c
        rw [eq_of_total ran] at effect
        have searched {middle : Ctx}
            (opened : (requestCompleted key a middle).1.env.kernel.socket fd =
              some (.origin .inProgress))
                (kernel : middle.env.kernel = c.env.kernel) :
            c.env.kernel.socket fd = some (.origin .inProgress) ∨
              Opens .requestRead a c.env.kernel c.s fd := by
          rw [← kernel]
          unfold requestCompleted at opened
          dsimp only at opened
          split at opened
          · exact .inl opened
          · exact (processRequest_opens opened).imp_right fun found =>
              ⟨plain, fun _ => found, fun other => (by cases other)⟩
        cases effect with
        | again | failed | closed | partly => exact .inl opened
        | completed => exact searched opened rfl
    | resolvBlock =>
        exact .inr ⟨plain, fun other => (by cases other), fun other =>
          (by cases other)⟩
    | connectingWrite =>
        obtain ⟨origin, held⟩ := Option.isSome_iff_exists.mp (connects rfl)
        exact (connectingWrite_opens held (registered origin held) ran
          opened).imp_right
          fun below =>
          ⟨plain, fun other => (by cases other), fun _ => ⟨origin, held, below⟩⟩
    | _ => simp [SocksState.seeks] at plain
  · rw [handler_kernel plain serves ran] at opened
    exact .inl opened

theorem Backed.jump {next : SocksState} {c : Ctx}
    (backed : Backed next c.env.kernel c.s) (key : Key) (a : Answers) :
    Backed next (SocksProxy.jump key a next c).env.kernel
      (SocksProxy.jump key a next c).s := by
  rw [jump_kernel, jump_s]
  split
  · exact backed
  · cases next <;> exact backed.congr rfl rfl

theorem unregister_sockets {key : Key} {fd other : Fd} {c after : Ctx}
    {socket : Socket} (ran : selectorUnregisterFd key fd c = some after)
    (held : after.env.kernel.socket other = some socket) :
    c.env.kernel.socket other = some socket := by
  rcases unregister_freed ran with ⟨-, rfl⟩ | freed
  · exact held
  · rw [freed.sockets] at held
    split at held
    · cases held
    · exact held

theorem done_sockets {key : Key} {other : Fd} {c after : Ctx} {socket : Socket}
    (ran : socksv5Done key c = some after)
    (held : after.env.kernel.socket other = some socket) :
    c.env.kernel.socket other = some socket := by
  obtain ⟨middle, first, second⟩ := Option.bind_eq_some_iff.mp ran
  cases origin : c.s.originFd with
  | none =>
      rw [origin] at second
      cases second
      exact unregister_sockets first held
  | some fd =>
      rw [origin] at second
      exact unregister_sockets first (unregister_sockets second held)

section Calls

variable {p : Ptr} {env : Env} {s : Socks5} {kind : EventKind} {fd : Fd}
  {a : Answers} {c : Ctx}

theorem call_backed (wired : Wired p env s)
    (backed : Backed s.state env.kernel s)
    (settled : s.state = .requestConnecting →
      ∀ origin, s.originFd = some origin →
      env.kernel.socket origin ≠ some (.origin .inProgress))
    (genuine : a.soError ≠ some 0)
    (runs : socksv5Handler kind ⟨fd, p⟩ a ⟨env, s, [], false⟩ = some c) :
    Backed c.s.state c.env.kernel c.s := by
  obtain ⟨middle, next, handled⟩ := handled_of_handler runs
  obtain ⟨handler, serves, ran⟩ := handled.runs
  have left : Backed next middle.env.kernel middle.s := by
    refine handler_backed (c := Ctx.started ⟨env, s, [], false⟩) ?_ ?_ settled
      genuine serves ran
    · exact backed.congr rfl rfl
    · exact fun early => wired.shaped.early early
  have state : c.s.state = next := handled.state
  rw [state]
  by_cases closing : next.closing
  · rcases closing with rfl | rfl <;> exact .elsewhere (by simp) (by simp)
  · rw [handled.stays closing]
    exact left.jump ⟨fd, p⟩ a

theorem call_opens {other : Fd} (wired : Wired p env s)
    (runs : socksv5Handler kind ⟨fd, p⟩ a ⟨env, s, [], false⟩ = some c)
    (opened : c.env.kernel.socket other = some (.origin .inProgress)) :
    env.kernel.socket other = some (.origin .inProgress) ∨
      Opens s.state a env.kernel s other := by
  obtain ⟨middle, next, handled, done⟩ := finished_of_handler runs
  obtain ⟨handler, serves, ran⟩ := handled.runs
  have before : middle.env.kernel.socket other =
      some (.origin .inProgress) := by
    rw [← jump_kernel ⟨fd, p⟩ a next middle]
    by_cases closing : next.closing
    · exact done_sockets (done closing) opened
    · rw [← handled.stays closing]
      exact opened
  rcases handler_opens (c := Ctx.started ⟨env, s, [], false⟩)
    (fun origin held => (wired.held.origin origin held).1)
    (fun connecting => wired.shaped.connecting connecting) serves ran before
    with earlier | ⟨seeks, reading, connecting⟩
  · exact .inl earlier
  · exact .inr ⟨seeks, reading, connecting⟩

end Calls

end SocksProxy
