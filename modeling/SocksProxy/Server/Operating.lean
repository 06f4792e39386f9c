import SocksProxy.FdSelector
import SocksProxy.Mgmt.Grammar
import SocksProxy.Server.Effects
import SocksProxy.Socks5.Connecting

/-! The server changes its selector by calls of its functions alone. -/

namespace SocksProxy

def Operates (before after : Ctx) : Prop :=
  before.env.selector.Operated after.env.selector

theorem Operates.same {before after : Ctx}
    (same : after.env.selector = before.env.selector) :
    Operates before after := by
  unfold Operates
  rw [same]
  exact .refl _

theorem Operates.trans {first middle last : Ctx} (left : Operates first middle)
    (right : Operates middle last) : Operates first last :=
  Selector.Operated.trans left right

theorem operates_setInterest (c : Ctx) (fd : Fd) (i : Interest) :
    Operates c (c.setInterest fd i).1 :=
  (Selector.Operated.refl _).setInterest fd i

theorem operates_setInterestOrFail {before : Ctx} (c : Ctx) (i : Interest)
    (next : SocksState) (same : c.env.selector = before.env.selector) :
    Operates before (setInterestOrFail c i next).1 := by
  have one :=
    Operates.trans (.same same) (operates_setInterest c c.s.clientFd i)
  unfold setInterestOrFail
  split
  next held => exact congrArg Prod.fst held ▸ one
  next held => exact congrArg Prod.fst held ▸ one

theorem operates_registerOrigin {key : Key} {c after : Ctx} {fd : Fd}
    {i : Interest} {done : Bool}
    (ran : registerOrigin key c fd i = (after, done)) : Operates c after := by
  unfold registerOrigin at ran
  split at ran
  next selector held =>
    have one :=
      (Selector.Operated.refl c.env.selector).register fd .socks5 i key.data
    rw [held] at one
    cases ran
    exact one
  next =>
    cases ran
    exact .same rfl

theorem operates_tryCandidate (key : Key) (a : Answers) (c : Ctx) :
    Operates c (tryCandidate key a c).1 := by
  unfold tryCandidate
  dsimp only
  split
  · exact .same rfl
  · split
    · exact .same rfl
    · split
      · split
        all_goals
          next held =>
            have one := operates_registerOrigin held
            exact one
      · split
        · split
          all_goals
            next held =>
              have one := operates_registerOrigin held
              exact one
        · exact .same rfl

theorem operates_tryCandidates (key : Key) (a : Answers) (left : Nat)
    (c : Ctx) :
    Operates c (tryCandidates key a left c).1 := by
  induction left generalizing c with
  | zero =>
      unfold tryCandidates
      split <;> exact .same rfl
  | succ left induction =>
      have one := operates_tryCandidate key a c
      unfold tryCandidates
      split
      next held =>
        rw [held] at one
        exact one
      next middle held =>
        rw [held] at one
        exact one.trans (induction middle)

theorem operates_startConnection (key : Key) (a : Answers) {before : Ctx}
    (c : Ctx) (same : c.env.selector = before.env.selector) :
    Operates before (startConnection key a c).1 :=
  Operates.trans (.same same)
    (operates_tryCandidates key a _ (c.call .startConnection))

theorem operates_processRequest (key : Key) (a : Answers) (c : Ctx) :
    Operates c (processRequest key a c).1 := by
  unfold processRequest
  dsimp only
  split
  · exact .same rfl
  · split
    · exact operates_startConnection key a _ rfl
    · split
      · exact operates_startConnection key a _ rfl
      · split
        · unfold dnsResolveAsync
          dsimp only
          split
          next held =>
            split at held <;> cases held
            exact .same rfl
          next held =>
            split at held <;> cases held
            exact .same rfl
        · exact .same rfl

theorem operates_requestCompleted (key : Key) (a : Answers) (c : Ctx) :
    Operates c (requestCompleted key a c).1 := by
  have one := operates_setInterest c c.s.clientFd opNoop
  unfold requestCompleted
  dsimp only
  split
  · exact one
  · exact one.trans (operates_processRequest key a _)

theorem operates_resolvBlock (key : Key) (a : Answers) (c : Ctx) :
    Operates c (resolvBlock key a c).1 := by
  unfold resolvBlock
  dsimp only
  split
  · exact .same rfl
  · split
    · exact .same rfl
    · exact operates_startConnection key a _ rfl

theorem operates_unregister {key : Key} {fd : Fd} {c after : Ctx}
    (ran : selectorUnregisterFd key fd c = some after) : Operates c after := by
  unfold selectorUnregisterFd at ran
  split at ran
  · cases ran
    exact .same rfl
  next valid =>
    split at ran
    · cases ran
      exact .same rfl
    next item held =>
      split at ran
      · obtain ⟨closed, shut, same⟩ := Option.map_eq_some_iff.mp ran
        have kept : closed.env.selector = c.env.selector := by
          unfold socksv5Close at shut
          split at shut
          · cases shut
          · dsimp only at shut
            split at shut <;> cases shut <;> rfl
        rw [← same]
        change c.env.selector.Operated (selectorRemove closed.env.selector fd)
        rw [kept]
        exact (Selector.Operated.refl _).remove fd valid
          (Option.isSome_iff_exists.mpr ⟨item, held⟩)
      · cases ran

theorem operates_done {key : Key} {c after : Ctx}
    (ran : socksv5Done key c = some after) :
    Operates c after := by
  obtain ⟨middle, first, second⟩ := Option.bind_eq_some_iff.mp ran
  have one := operates_unregister first
  split at second
  · exact one.trans (operates_unregister second)
  · cases second
    exact one

theorem operates_connectingWrite {key : Key} {a : Answers} {c : Ctx}
    {result : Ctx × SocksState} (ran : connectingWrite key a c = some result) :
    Operates c result.1 := by
  unfold connectingWrite at ran
  dsimp only at ran
  split at ran
  · cases ran
    exact .same rfl
  · obtain ⟨closed, unregistered, same⟩ := Option.map_eq_some_iff.mp ran
    have one := operates_unregister unregistered
    rw [← same]
    exact one.trans (operates_startConnection key a _ rfl)

theorem operates_copyComputeInterests {before : Ctx} (c : Ctx)
    (same : c.env.selector = before.env.selector) :
    Operates before (copyComputeInterests c) := by
  have one :=
    Operates.trans (.same same)
    (operates_setInterest c c.s.clientFd (clientInterest c.s))
  unfold copyComputeInterests
  dsimp only
  split
  next origin held => exact one.trans (operates_setInterest _ origin _)
  next => exact one

theorem operates_copyUpdate (c : Ctx) : Operates c (copyUpdate c).1 := by
  have shut : Operates c (shutClientWrite (shutOriginWrite c)) := by
    refine .same ?_
    unfold shutClientWrite shutOriginWrite
    split <;> split <;> rfl
  unfold copyUpdate
  dsimp only
  split
  · exact shut
  · exact shut.trans (operates_copyComputeInterests _ rfl)

theorem operates_pumpThenUpdate (pumped : Ctx × Bool) :
    Operates pumped.1 (pumpThenUpdate pumped).1 := by
  unfold pumpThenUpdate
  split
  · exact .same rfl
  · exact operates_copyUpdate pumped.1

theorem operates_copy {kind : EventKind} {key : Key} {a : Answers} {c : Ctx}
    {handler : Handler} {result : Ctx × SocksState}
    (serves : Serves .copy kind handler) (ran : handler key a c = some result) :
    Operates c result.1 := by
  cases serves with
  | copyRead =>
      rw [← eq_of_total ran, copyRead]
      split
      · refine (copyReadClient_effect a c).follows (R :=
          Operates) Operates.trans operates_copyUpdate
          operates_pumpThenUpdate (fun _ => .same rfl) (.same rfl)
            (fun _ => .same rfl)
          (fun octets _ _ => .same ?_) fun _ => .same rfl
        unfold storeFromClient
        dsimp only
        split <;> rfl
      · exact (copyReadOrigin_effect a c).follows (R := Operates) Operates.trans
          operates_copyUpdate
          operates_pumpThenUpdate (fun _ => .same rfl) (.same rfl)
          (fun _ => .same rfl) (fun _ _ _ => .same rfl) fun _ => .same rfl
  | copyWrite =>
      rw [← eq_of_total ran, copyWrite]
      split
      · exact Operates.trans (.same rfl)
          (operates_pumpThenUpdate (pumpToClient a c))
      · exact Operates.trans (.same rfl)
          (operates_pumpThenUpdate (pumpToOrigin a c))

theorem operates_readEffect {Parser : Type} {feed : Parser → UInt8 → Parser}
    {finished : Parser → Bool} {parser : Parser}
    {store : Ctx → Parser → Buffer → Ctx} {self : SocksState}
    {complete : Ctx → Ctx × SocksState} {c : Ctx} {result : Ctx × SocksState}
    (stores : ∀ c q buffer, (store c q buffer).env = c.env)
    (completes : ∀ c, Operates c (complete c).1)
    (effect : ReadEffect feed finished parser store self complete c result) :
    Operates c result.1 := by
  cases effect with
  | again | failed | closed => exact .same rfl
  | partly => exact .same (congrArg Env.selector (stores ..))
  | @completed octets rest next buffer =>
      have stored := stores (c.call (.recv c.s.clientFd octets)) next buffer
      exact .trans (.same (congrArg Env.selector stored)) (completes _)

theorem operates_writeEffect {self : SocksState}
    {complete : Ctx → Ctx × SocksState} {c : Ctx} {result : Ctx × SocksState}
    (completes : ∀ c, Operates c (complete c).1)
    (effect : WriteEffect self complete c result) : Operates c result.1 := by
  cases effect with
  | again | failed | partly => exact .same rfl
  | @flushed buffer =>
      have finish :=
        completes { c.call (.send c.s.clientFd c.s.writeBuffer.content) with
        s := { c.s with writeBuffer := buffer } }
      exact finish

theorem operates_handler {kind : EventKind} {key : Key} {a : Answers} {c : Ctx}
    {st : SocksState} {handler : Handler} {result : Ctx × SocksState}
    (serves : Serves st kind handler) (ran : handler key a c = some result) :
    Operates c result.1 := by
  cases serves with
  | helloRead =>
      rw [← eq_of_total ran]
      refine operates_readEffect ?_ (fun c => ?_) (helloRead_effect key a c)
      · exact fun _ _ _ => rfl
      · unfold helloCompleted
        split
        · exact .same rfl
        · exact operates_setInterestOrFail _ opWrite .helloWrite rfl
  | helloWrite =>
      rw [← eq_of_total ran]
      refine operates_writeEffect (fun c => ?_) (helloWrite_effect key a c)
      split
      · exact .same rfl
      · exact operates_setInterestOrFail c opRead _ rfl
  | authRead =>
      rw [← eq_of_total ran]
      refine operates_readEffect ?_ (fun c => ?_) (authRead_effect key a c)
      · exact fun _ _ _ => rfl
      · unfold authCompleted
        split
        · exact .same rfl
        · exact operates_setInterestOrFail _ opWrite .authWrite rfl
  | authWrite =>
      rw [← eq_of_total ran]
      refine operates_writeEffect (fun c => ?_) (authWrite_effect key a c)
      split
      · exact .same rfl
      · exact operates_setInterestOrFail c opRead _ rfl
  | requestRead =>
      rw [← eq_of_total ran]
      refine operates_readEffect ?_ (operates_requestCompleted key a)
        (requestRead_effect key a c)
      exact fun _ _ _ => rfl
  | resolvBlock => exact eq_of_total ran ▸ operates_resolvBlock key a c
  | connectingWrite => exact operates_connectingWrite ran
  | requestWrite =>
      rw [← eq_of_total ran]
      refine operates_writeEffect (fun c => .same ?_)
        (requestWrite_effect key a c)
      unfold replySent
      dsimp only
      split <;> rfl
  | copyRead => exact operates_copy .copyRead ran
  | copyWrite => exact operates_copy .copyWrite ran

theorem operates_jump (key : Key) (a : Answers) (next : SocksState) (c : Ctx) :
    Operates c (jump key a next c) := by
  unfold jump
  split
  · exact .same rfl
  · cases next with
    | requestResolv => exact (Selector.Operated.refl _).setInterest _ opNoop
    | requestWrite =>
        unfold enter states requestWriteArrival
        dsimp only
        split
        · exact ((Selector.Operated.refl _).setInterest _ opNoop).setInterest _
            opWrite
        · exact (Selector.Operated.refl _).setInterest _ opWrite
    | copy => exact operates_copyComputeInterests _ rfl
    | _ => exact .same rfl

theorem operates_call {kind : EventKind} {key : Key} {a : Answers}
    {c after : Ctx} (runs : socksv5Handler kind key a c = some after) :
    Operates c after := by
  obtain ⟨middle, next, handled, done⟩ := finished_of_handler runs
  obtain ⟨handler, serves, ran⟩ := handled.runs
  have entered : Operates c (jump key a next middle) :=
    (operates_handler serves ran).trans (operates_jump key a next middle)
  by_cases closing : next.closing
  · exact entered.trans (operates_done (done closing))
  · exact handled.stays closing ▸ entered

section Management

abbrev MgmtOperates (before after : MgmtCtx) : Prop :=
  before.env.selector.Operated after.env.selector

variable {key : Key} {x after : MgmtCtx}

theorem operates_mgmtDone (ran : mgmtDone key x = some after) :
    MgmtOperates x after := by
  unfold mgmtDone at ran
  split at ran
  · cases ran
    exact .refl _
  next valid =>
    split at ran
    · cases ran
      exact .refl _
    next item held =>
      split at ran
      · cases ran
        exact (Selector.Operated.refl _).remove key.fd valid
          (Option.isSome_iff_exists.mpr ⟨item, held⟩)
      · cases ran

theorem operates_mgmtTryProcess (ran : mgmtTryProcess key x = some after) :
    MgmtOperates x after := by
  unfold mgmtTryProcess at ran
  split at ran
  · unfold mgmtProcessAuth at ran
    dsimp only at ran
    split at ran
    · cases ran
      exact .refl _
    · split at ran
      · exact operates_mgmtDone ran
      · cases ran
        exact (Selector.Operated.refl _).setInterest _ opWrite
  · unfold mgmtProcessRequest at ran
    dsimp only at ran
    split at ran
    · cases ran
      exact .refl _
    · split at ran
      · have one := operates_mgmtDone ran
        exact one
      · cases ran
        split
        · exact (Selector.Operated.refl _).setInterest _ opWrite
        · have same := selector_processMgmtRequest x.env (bufferReset x.c.wbuf)
            (parseRequest x.c.rbuf.content .zero).2
          have one :=
            (Selector.Operated.refl x.env.selector).setInterest x.c.fd opWrite
          change x.env.selector.Operated
            (selectorSetInterest (processMgmtRequest _ _ _).1.selector
              x.c.fd opWrite).1
          rw [same]
          exact one
  · cases ran
    exact .refl _
  · cases ran
    exact .refl _

theorem operates_mgmtRead {a : Answers} (ran : mgmtRead key a x = some after) :
    MgmtOperates x after := by
  unfold mgmtRead at ran
  split at ran
  · exact operates_mgmtDone ran
  · split at ran
    · split at ran
      · cases ran
        exact .refl _
      · have one := operates_mgmtDone ran
        exact one
    · dsimp only at ran
      split at ran
      · have one := operates_mgmtDone ran
        exact one
      · have one := operates_mgmtTryProcess ran
        exact one

theorem operates_mgmtWrite {a : Answers}
    (ran : mgmtWrite key a x = some after) :
    MgmtOperates x after := by
  unfold mgmtWrite at ran
  split at ran
  · split at ran
    · cases ran
      exact .refl _
    · have one := operates_mgmtDone ran
      exact one
  · dsimp only at ran
    split at ran
    · cases ran
      exact .refl _
    · split at ran
      · have one := operates_mgmtDone ran
        exact one
      · have one := operates_mgmtTryProcess ran
        exact ((Selector.Operated.refl x.env.selector).setInterest x.c.fd
          opRead).trans one

end Management

namespace Server

variable {σ τ : Server}

def Operated (σ τ : Server) : Prop := σ.env.selector.Operated τ.env.selector

theorem Operated.same (same : τ.env.selector = σ.env.selector) :
    σ.Operated τ := by
  unfold Operated
  rw [same]
  exact .refl _

@[simp] theorem socks5Destroy_env (σ : Server) (p : Ptr) :
    (σ.socks5Destroy p).env = σ.env := by
  unfold socks5Destroy
  split
  · rfl
  · split
    · rfl
    · dsimp only
      split <;> rfl

theorem operated_registerClient {p : Ptr} {fd : Fd} {address : SockAddr}
    (runs : σ.registerClient p fd address = some τ) : σ.Operated τ := by
  unfold registerClient at runs
  split at runs
  · cases runs
  · dsimp only at runs
    split at runs
    next selector held =>
      cases runs
      have one :=
        (Selector.Operated.refl σ.env.selector).register fd .socks5 opRead p
      rw [held] at one
      exact one
    next =>
      cases runs
      refine .same ?_
      change (socks5Destroy _ p).env.selector = _
      rw [socks5Destroy_env]
      rfl

theorem socks5New_env {fd : Fd} {acc : AcceptAnswers} {drawn : Option Ptr}
    (runs : σ.socks5New fd acc = some (τ, drawn)) : τ.env = σ.env := by
  unfold socks5New at runs
  split at runs
  · dsimp only at runs
    split at runs
    · cases runs
    · cases runs
      rfl
  · split at runs
    · cases runs
      rfl
    · split at runs <;> cases runs <;> rfl

theorem operated_socksv5PassiveAccept {acc : AcceptAnswers}
    (runs : socksv5PassiveAccept acc σ = some τ) : σ.Operated τ := by
  unfold socksv5PassiveAccept at runs
  split at runs
  · cases runs
    exact .same rfl
  · dsimp only at runs
    split at runs
    · cases runs
      exact .same rfl
    · split at runs
      · cases runs
      next υ drawn =>
        cases runs
        refine .same ?_
        change υ.env.selector = σ.env.selector
        rw [socks5New_env drawn]
        rfl
      next υ p drawn =>
        have one := operated_registerClient runs
        unfold Operated at one
        rw [socks5New_env drawn] at one
        exact one

theorem operated_mgmtPassiveAccept {acc : AcceptAnswers}
    (runs : mgmtPassiveAccept acc σ = some τ) : σ.Operated τ := by
  unfold mgmtPassiveAccept at runs
  split at runs
  · cases runs
    exact .same rfl
  · dsimp only at runs
    split at runs
    · cases runs
      exact .same rfl
    · split at runs
      · cases runs
        exact .same rfl
      · split at runs
        · cases runs
          exact .same rfl
        · split at runs
          next p _ _ _ selector held =>
            cases runs
            have one := (Selector.Operated.refl σ.env.selector).register
              σ.openAccepted.1 .mgmt opRead p
            unfold Operated
            rw [show selectorRegister σ.env.selector σ.openAccepted.1 .mgmt
              opRead p = _ from held] at one
            exact one
          next =>
            cases runs
            exact .same rfl

theorem operated_dispatchSocks5 {kind : EventKind} {key : Key} {a : Answers}
    (runs : σ.dispatchSocks5 kind key a = some τ) : σ.Operated τ := by
  unfold dispatchSocks5 at runs
  split at runs
  · cases runs
  next s object =>
    obtain ⟨c, called, same⟩ := Option.map_eq_some_iff.mp runs
    have one := operates_call called
    dsimp only at same
    rw [← same]
    unfold Operated
    split
    · change σ.env.selector.Operated (socks5Destroy _ key.data).env.selector
      rw [socks5Destroy_env]
      exact one
    · exact one

theorem operated_dispatchMgmt
    {handler : Key → Answers → MgmtCtx → Option MgmtCtx} {key : Key}
    {a : Answers}
    (operates :
      ∀ {x after}, handler key a x = some after → MgmtOperates x after)
    (runs : σ.dispatchMgmt handler key a = some τ) : σ.Operated τ := by
  unfold dispatchMgmt at runs
  split at runs
  · cases runs
  · obtain ⟨x, called, same⟩ := Option.map_eq_some_iff.mp runs
    rw [← same]
    exact operates called

theorem operated_callHandler {kind : EventKind} {handler : FdHandler}
    {key : Key} {input : Input}
    (runs : callHandler kind handler key input σ = some τ) : σ.Operated τ := by
  unfold callHandler at runs
  split at runs
  · exact operated_socksv5PassiveAccept runs
  · exact operated_mgmtPassiveAccept runs
  · exact operated_dispatchMgmt operates_mgmtRead runs
  · exact operated_dispatchMgmt operates_mgmtWrite runs
  · exact operated_dispatchSocks5 runs
  · cases runs

theorem operated_visitHalf {kind : EventKind} {i : Fd} {data : Ptr}
    {input : Input} (runs : visitHalf kind i data input σ = some τ) :
    σ.Operated τ := by
  cases held : σ.env.selector.items i with
  | none =>
      unfold visitHalf at runs
      rw [held] at runs
      cases runs
      exact .same rfl
  | some item =>
      rw [visitHalf_eq kind data input held] at runs
      split at runs
      · exact operated_callHandler runs
      · cases runs
        exact .same rfl

theorem operated_unregisterListeners {fds : List Fd}
    (runs : unregisterListeners fds σ = some τ) : σ.Operated τ := by
  induction fds generalizing σ with
  | nil =>
      cases runs
      exact .same rfl
  | cons fd rest induction =>
      obtain ⟨middle, first, others⟩ := Option.bind_eq_some_iff.mp runs
      have later : middle.env.selector.Operated τ.env.selector :=
        induction others
      unfold unregisterListener at first
      split at first
      · cases first
        exact later
      next valid =>
        split at first
        · cases first
          exact later
        next item held =>
          split at first
          · cases first
            exact ((Selector.Operated.refl σ.env.selector).remove fd valid
              (Option.isSome_iff_exists.mpr ⟨item, held⟩)).trans later
          · cases first

theorem operated_afterSelect (runs : σ.afterSelect = some τ) :
    σ.Operated τ := by
  unfold afterSelect at runs
  split at runs
  · cases runs
    exact .same rfl
  · obtain ⟨υ, shut, same⟩ := Option.map_eq_some_iff.mp runs
    have one : σ.Operated υ := by
      split at shut
      · have other := operated_unregisterListeners shut
        exact other
      · cases shut
        exact .same rfl
    rw [← same]
    split <;> exact one

/-- The calls that a step makes of the selector: only `pselect` marks
descriptors. -/
structure Drives (σ : Server) (event : Event) (τ : Server) : Prop where
  calls : ∃ calls, (σ.env.selector.performs calls).1 = τ.env.selector
  ready : (∀ readable writable, event ≠ .pselect readable writable) →
    τ.env.selector.slaveR = σ.env.selector.slaveR ∧
      τ.env.selector.slaveW = σ.env.selector.slaveW

variable {event : Event}

theorem Operated.drives (operated : σ.Operated τ) : Drives σ event τ := by
  refine ⟨?_, fun _ => ⟨operated.kept.1, operated.kept.2.1⟩⟩
  obtain ⟨calls, -, ran⟩ := operated
  exact ⟨calls, ran⟩

theorem Drives.quiet (same : τ.env.selector = σ.env.selector) :
    Drives σ event τ :=
  Operated.drives (.same same)

/-- A job leaves the queue before its callback runs. -/
theorem drives_job {job : Job} {rest : List Job} {input : Input}
    (queue : σ.env.selector.resolutionJobs = job :: rest)
    (runs : handleJob job input
      (σ.setSelector { σ.env.selector with resolutionJobs := rest }) = some τ) :
    Drives σ event τ := by
  have operated :
      (σ.setSelector { σ.env.selector with resolutionJobs := rest }).Operated
      τ := by
    unfold handleJob at runs
    split at runs
    · cases runs
      exact .same rfl
    · exact operated_callHandler runs
  obtain ⟨calls, plain, ran⟩ := operated
  refine ⟨⟨.notified :: calls, ?_⟩, fun _ => ?_⟩
  · rw [← ran]
    change (Selector.performs calls (σ.env.selector.perform .notified).1).1 = _
    unfold Selector.perform
    rw [queue]
    rfl
  · have kept := Selector.Operated.kept ⟨calls, plain, ran⟩
    exact ⟨kept.1, kept.2.1⟩

theorem step_drives (step : σ.step event = .next τ) : Drives σ event τ := by
  have main (taken : σ.stepMain event = .next τ) : Drives σ event τ := by
    unfold stepMain at taken
    split at taken
    next readable writable idle =>
      cases taken
      exact ⟨⟨[.select readable writable], rfl⟩, fun other =>
        absurd rfl (other _ _)⟩
    next =>
      cases taken
      exact .quiet rfl
    next =>
      split at taken
      next =>
        cases taken
        exact .quiet rfl
      next =>
        obtain ⟨υ, runs, same⟩ :=
          Option.map_eq_some_iff.mp (eq_some_of_ofOption taken)
        rw [← same]
        refine Operated.drives ?_
        have operated := operated_visitHalf runs
        exact operated
    next =>
      obtain ⟨υ, runs, same⟩ :=
        Option.map_eq_some_iff.mp (eq_some_of_ofOption taken)
      rw [← same]
      refine Operated.drives ?_
      have operated := operated_visitHalf runs
      exact operated
    next =>
      split at taken
      next => cases taken
      next queue => exact drives_job queue (eq_some_of_ofOption taken)
    next =>
      split at taken <;> cases taken
      exact .quiet rfl
    next => exact (operated_afterSelect (eq_some_of_ofOption taken)).drives
    next => cases taken
  cases event with
  | signal | foreignOpen =>
      cases step
      exact .quiet rfl
  | connectDone fd e =>
      change σ.stepConnectDone fd e = .next τ at step
      unfold stepConnectDone at step
      split at step <;> cases step
      exact .quiet rfl
  | foreignClose fd =>
      unfold Server.step at step
      dsimp only at step
      split at step <;> cases step
      exact .quiet rfl
  | resolved index answer =>
      change σ.stepResolved index answer = .next τ at step
      unfold stepResolved at step
      split at step
      · split at step <;> cases step
        exact .quiet rfl
      · cases step
  | notifyBlock index =>
      change σ.stepNotifyBlock index = .next τ at step
      unfold stepNotifyBlock at step
      split at step
      · cases step
      · split at step
        · split at step
          · cases step
          next s object =>
            cases step
            exact ⟨⟨[.notifyBlock _], rfl⟩, fun _ => ⟨rfl, rfl⟩⟩
        · cases step
  | _ => exact main step

theorem calls_addListeners (added : List (FdHandler × Bool)) (σ : Server) :
    ∃ calls, (σ.env.selector.performs calls).1 =
      (added.foldl (fun σ listener => σ.addListener listener.1 listener.2)
        σ).env.selector := by
  have one (σ : Server) (handler : FdHandler) (created : Bool) :
      σ.Operated (σ.addListener handler created) := by
    unfold addListener
    split
    · exact .same rfl
    · dsimp only
      split
      next selector held =>
        have one := (Selector.Operated.refl σ.env.selector).register
          (σ.env.kernel.openSocket .listener).1 handler opRead 0
        rw [held] at one
        exact one
      next => exact .same rfl
  induction added generalizing σ with
  | nil => exact ⟨[], rfl⟩
  | cons listener added induction =>
      obtain ⟨front, -, ran⟩ := one σ listener.1 listener.2
      obtain ⟨back, rest⟩ := induction (σ.addListener listener.1 listener.2)
      refine ⟨front ++ back, ?_⟩
      rw [Selector.performs_append, ran, rest]
      rfl

/-- The selector of a running server is what calls made of a new one. -/
def Driven (σ : Server) : Prop :=
  ∃ calls, (selectorNew.performs calls).1 = σ.env.selector

theorem driven_of_reachable (reachable : server.Reachable σ) : σ.Driven := by
  obtain ⟨first, events, ⟨descriptors, config, users, added, -, -, rfl⟩, run⟩ :=
    reachable
  refine run.invariant ?_ ?_
  · intro σ event τ earlier step
    obtain ⟨front, before⟩ := earlier
    obtain ⟨back, after⟩ := (step_drives step).calls
    refine ⟨front ++ back, ?_⟩
    rw [Selector.performs_append, before, after]
  · exact calls_addListeners added (.started ⟨descriptors, 0⟩ config users)

theorem spanned_of_reachable (reachable : server.Reachable σ) :
    σ.env.selector.Spanned := by
  obtain ⟨calls, same⟩ := driven_of_reachable reachable
  exact same ▸ spanned_selectorNew.performs calls

/-- The table of a selector that was made for every valid descriptor represents
the server's selector throughout: the calls that the server makes stay inside
it, and return on both levels the same. -/
theorem selector_represented {memory : Option (Nat → Slot)} {raw : FdSelector}
    (made : FdSelector.selectorNew itemsMaxSize true memory = some raw)
    (reachable : server.Reachable σ) :
    ∃ calls after statuses, raw.performs calls = some (after, statuses) ∧
      selectorNew.performs calls = (σ.env.selector, statuses) ∧
      after.Represents σ.env.selector := by
  obtain ⟨calls, same⟩ := driven_of_reachable reachable
  obtain ⟨represents, size⟩ := represents_selectorNew made
  have large : itemsMaxSize ≤ raw.fdSize := by
    rw [size]
    exact Nat.le_of_lt (lt_nextCapacity (Nat.le_refl _))
  obtain ⟨after, ran, represents, -⟩ :=
    represents_performs represents large calls
  rw [same] at represents
  exact ⟨calls, after, _, ran, Prod.ext same rfl, represents⟩

theorem selector_represented_client :
    ∃ (σ : Server) (after : FdSelector), σ.live = [7] ∧
      after.Represents σ.env.selector ∧
      after.maxFd = 1 ∧ after.masterR 1 = true := by
  have expected : ((perform id advance 30 [.client 0 7]
      (.opening configInitDefaults usersInit)).any fun σ =>
        decide (σ.live = [7] ∧ σ.env.selector.maxFd = 1 ∧
          σ.env.selector.masterR 1 = true)) = true := by
    decide +kernel
  obtain ⟨σ, performs, facts⟩ := (Option.any_eq_true ..).mp expected
  obtain ⟨live, greatest, reads⟩ := of_decide_eq_true facts
  obtain ⟨events, run⟩ := run_of_perform step_of_advance performs
  obtain ⟨raw, made⟩ : ∃ raw, FdSelector.selectorNew itemsMaxSize true
      (some fun _ => .zeroed) = some raw := ⟨_, rfl⟩
  obtain ⟨calls, after, statuses, -, -, represents⟩ :=
    selector_represented made ⟨_, events, init_opening _ _, run⟩
  exact ⟨σ, after, live, represents, represents.maxFd.trans greatest,
    (congrFun represents.masterR 1).trans reads⟩

end Server

end SocksProxy
