import SocksProxy.Lib.Failover
import SocksProxy.Socks5.Attempts
import SocksProxy.Socks5.Output
import SocksProxy.Socks5.Interests

/-! The search for an origin among the addresses of a name, over the handler
calls that begin and resume it. -/

namespace SocksProxy

open Failover Transition

/-- An address, with the registered descriptor of its connection or the error of
its failure. -/
abbrev ConnectTrial := Trial SockAddr Fd Errno

/-- Whether `selector_register` takes a new descriptor. -/
def registers (selector : Selector) (fd : Fd) : Bool :=
  !invalidFd fd && (selector.items fd).isNone

/-- What becomes of the candidate of a round, by the answers of the operating
system; `none` while its connect is under way. -/
def outcomeOf (a : Answers) (c : Ctx) : Option (TrialOutcome Fd Errno) :=
  let attempt := a.attempt c.s.addrIdx
  let fd := c.openOrigin.1
  if attempt.socket ≠ 0 then some (.failure (some attempt.socket))
  else if !attempt.nio then some (.failure none)
  else if attempt.connect = 0 then
    if registers c.env.selector fd then some (.success fd)
    else some (.failure none)
  else if attempt.connect = eInProgress ∨ attempt.connect = eIntr then
    if registers c.env.selector fd then none else some (.failure none)
  else some (.failure (some attempt.connect))

def Socks5.candidate (s : Socks5) : SockAddr :=
  (s.addrs[s.addrIdx]?).getD default

/-- A registration succeeds when the selector has room for the descriptor. -/
theorem Sought.registered {fd : Fd} {status : ConnectStatus}
    {before after : Ctx} (opened : Sought fd status before after) (key : Key)
    (i : Interest) :
    registers before.env.selector fd = false ∧
        Unmoved before (registerOrigin key after fd i).1 ∧
        (registerOrigin key after fd i).2 = false ∧
        (registerOrigin key after fd i).1.s = before.s ∨
      registers before.env.selector fd = true ∧
        Gained key.data fd i status before (registerOrigin key after fd i).1 ∧
        (registerOrigin key after fd i).2 = true ∧
        (registerOrigin key after fd i).1.s =
          { before.s with
            originFd := some fd
            references := before.s.references + 1 } := by
  have either := opened.register key i
  unfold registers
  rw [← opened.selector, ← opened.object]
  unfold registerOrigin selectorRegister at either ⊢
  cases valid : invalidFd fd with
  | true =>
      rw [valid] at either
      rcases either with ⟨unmoved, -⟩ | ⟨-, registered⟩
      · exact .inl ⟨rfl, unmoved, rfl, rfl⟩
      · cases registered
  | false =>
      rw [valid] at either
      cases free : after.env.selector.items fd with
      | some item =>
          rw [free] at either
          rcases either with ⟨unmoved, -⟩ | ⟨-, registered⟩
          · exact .inl ⟨rfl, unmoved, rfl, rfl⟩
          · cases registered
      | none =>
          rw [free] at either
          rcases either with ⟨-, refused⟩ | ⟨gained, -⟩
          · cases refused
          · exact .inr ⟨rfl, gained, rfl, rfl⟩

inductive Round (p : Ptr) (a : Answers) (c : Ctx) :
    Ctx × Option SocksState → Prop
  | failure {after : Ctx} {reason : Option Errno}
      (outcome : outcomeOf a c = some (.failure reason))
      (nonzero : ∀ e ∈ reason, e ≠ 0) (unmoved : Unmoved c after)
      (object : after.s = { c.s with
        addrIdx := c.s.addrIdx + 1
        reply := (reason.map errnoToReply).getD c.s.reply }) :
      Round p a c (after, none)
  | success {after : Ctx} {fd : Fd}
      (outcome : outcomeOf a c = some (.success fd))
      (gained : Gained p fd opNoop .connected c after)
      (object : after.s = { c.s with
        originFd := some fd
        references := c.s.references + 1
        reply := repSuccess }) :
      Round p a c (after, some .requestWrite)
  | pending {after : Ctx} {fd : Fd} (outcome : outcomeOf a c = none)
      (gained : Gained p fd opWrite .inProgress c after)
      (object : after.s = { c.s with
        originFd := some fd
        references := c.s.references + 1 }) :
      Round p a c (after, some .requestConnecting)

theorem round_tryCandidate (key : Key) (a : Answers) (c : Ctx) :
    Round key.data a c (tryCandidate key a c) := by
  have opened := opened_openOrigin c
  have connected := opened.connect ((c.s.addrs[c.s.addrIdx]?).getD default)
    (a.attempt c.s.addrIdx).connect
  have outcome : outcomeOf a c = outcomeOf a c := rfl
  unfold tryCandidate
  conv at outcome => rhs; unfold outcomeOf
  dsimp only at outcome ⊢
  split
  next failed =>
    rw [if_pos failed] at outcome
    refine .failure outcome ?_ (.inside rfl rfl rfl) rfl
    rintro e ⟨⟩
    exact failed
  next fine =>
    rw [if_neg fine] at outcome
    split
    next blocking =>
      rw [if_pos blocking] at outcome
      refine .failure outcome (by simp)
        (opened.close.trans (.inside rfl rfl rfl)) rfl
    next prepared =>
      rw [if_neg prepared] at outcome
      split
      next success =>
        rw [if_pos success] at outcome
        rw [success, show connectStatus 0 = .connected from rfl] at connected
        rw [success]
        rcases connected.registered key opNoop with
          ⟨full, unmoved, refused, object⟩ | ⟨room, gained, registered, object⟩
        · rw [full, if_neg (by simp)] at outcome
          split
          next found =>
            rw [found] at refused
            cases refused
          next after found =>
            rw [found] at unmoved object
            refine .failure outcome (by simp)
              (unmoved.trans (.inside rfl rfl rfl)) ?_
            dsimp only [Ctx.nextCandidate] at object ⊢
            rw [object]
            rfl
        · rw [room, if_pos rfl] at outcome
          split
          next after found =>
            rw [found] at gained object
            refine .success outcome (gained.inside rfl rfl rfl) ?_
            dsimp only [Ctx.setReply] at object ⊢
            rw [object]
          next found =>
            rw [found] at registered
            cases registered
      next failure =>
        rw [if_neg failure] at outcome
        split
        next waiting =>
          rw [if_pos waiting] at outcome
          rw [connectStatus, if_neg failure, if_pos waiting] at connected
          rcases connected.registered key opWrite with
            ⟨full, unmoved, refused, object⟩ |
              ⟨room, gained, registered, object⟩
          · rw [full, if_neg (by simp)] at outcome
            split
            next found =>
              rw [found] at refused
              cases refused
            next after found =>
              rw [found] at unmoved object
              refine .failure outcome (by simp)
                (unmoved.trans (.inside rfl rfl rfl)) ?_
              dsimp only [Ctx.nextCandidate] at object ⊢
              rw [object]
              rfl
          · rw [room, if_pos rfl] at outcome
            split
            next after found =>
              rw [found] at gained object
              exact .pending outcome gained object
            next found =>
              rw [found] at registered
              cases registered
        next hard =>
          rw [if_neg hard] at outcome
          refine .failure outcome ?_
            (connected.close.trans (.inside rfl rfl rfl)) rfl
          rintro e ⟨⟩
          exact failure

def rounds (key : Key) (a : Answers) : Nat → Ctx → List ConnectTrial
  | 0, _ => []
  | left + 1, c =>
      match outcomeOf a c with
      | none => []
      | some outcome =>
          ⟨c.s.candidate, outcome⟩ ::
            match tryCandidate key a c with
            | (c, none) => rounds key a left c
            | (_, some _) => []

structure Seeking (candidates : List SockAddr) (s : Socks5)
    (reason : Option Errno) :
    Prop where
  addrs : s.addrs = candidates
  reply : s.reply = (reason.map errnoToReply).getD repSuccess
  nonzero : ∀ e ∈ reason, e ≠ 0

def SocksState.answered (st : SocksState) : Prop :=
  st = .requestWrite ∨ st = .copy ∨ st.closing

inductive Conducts (candidates : List SockAddr) (s : Socks5) :
    SocksState → Standing Fd Errno → Prop
  | connecting {reason : Option Errno} (seeking : Seeking candidates s reason)
      (within : s.addrIdx < candidates.length) (held : s.originFd.isSome) :
      Conducts candidates s .requestConnecting (.seeking s.addrIdx reason)
  | found {st : SocksState} {origin : Fd} (answered : st.answered)
      (reply : s.reply = repSuccess) (held : s.originFd = some origin) :
      Conducts candidates s st (.found origin)
  | exhausted {st : SocksState} {reason : Option Errno} (answered : st.answered)
      (reply : s.reply = (reason.map errnoToReply).getD repHostUnreachable)
      (nonzero : ∀ e ∈ reason, e ≠ 0) (none : s.originFd = none) :
      Conducts candidates s st (.seeking candidates.length reason)

theorem errnoToReply_ne_success {e : Errno} (nonzero : e ≠ 0) :
    errnoToReply e ≠ repSuccess := by
  unfold errnoToReply
  rw [if_neg nonzero]
  split_ifs <;> decide

theorem run_cons {candidates : List SockAddr}
    {first middle last : Standing Fd Errno} {trial : ConnectTrial}
    {log : List ConnectTrial}
    (step : (failover candidates).step first trial middle)
    (rest : (failover candidates).Run middle log last) :
    (failover candidates).Run first (trial :: log) last :=
  (System.Run.single step).append rest

theorem tryCandidates_conducts {candidates : List SockAddr} (key : Key)
    (a : Answers) (left : Nat) {c : Ctx} {reason : Option Errno}
    (seeking : Seeking candidates c.s reason)
    (unconnected : c.s.originFd = none)
    (counted : c.s.addrIdx + left = candidates.length) :
    ∃ standing, (failover candidates).Run (.seeking c.s.addrIdx reason)
        (rounds key a left c) standing ∧
      Conducts candidates (tryCandidates key a left c).1.s
        (tryCandidates key a left c).2
        standing := by
  induction left generalizing c reason with
  | zero =>
      refine ⟨.seeking candidates.length reason, ?_, ?_⟩
      · rw [← counted]
        exact .nil _
      · obtain ⟨addrs, reply, nonzero⟩ := seeking
        unfold tryCandidates
        cases reason with
        | none =>
            have reply : c.s.reply = repSuccess := reply
            rw [if_pos reply]
            exact .exhausted (.inl rfl) rfl nonzero unconnected
        | some e =>
            have refused := errnoToReply_ne_success (nonzero e rfl)
            have reply : c.s.reply = errnoToReply e := reply
            rw [if_neg (by rw [reply]; exact refused)]
            exact .exhausted (.inl rfl) reply nonzero unconnected
  | succ left induction =>
      have within : c.s.addrIdx < candidates.length := by omega
      have next : candidates[c.s.addrIdx]? = some c.s.candidate := by
        unfold Socks5.candidate
        rw [seeking.addrs, List.getElem?_eq_getElem within]
        rfl
      have tried := round_tryCandidate key a c
      unfold tryCandidates rounds
      generalize tryCandidate key a c = result at tried
      cases tried with
      | @failure after given outcome nonzero unmoved object =>
          have seeks : Seeking candidates after.s (given.or reason) := by
            obtain ⟨addrs, reply, before⟩ := seeking
            refine ⟨by rw [object]; exact addrs, ?_, ?_⟩
            · rw [object]
              cases given with
              | none => exact reply
              | some e => rfl
            · cases given with
              | none => exact before
              | some e => exact nonzero
          have idx : after.s.addrIdx = c.s.addrIdx + 1 := by rw [object]
          obtain ⟨standing, run, conducts⟩ :=
            induction seeks (by rw [object]; exact unconnected)
            (by omega)
          rw [outcome]
          rw [idx] at run
          exact ⟨standing, run_cons (.failure next) run, conducts⟩
      | @success after fd outcome gained object =>
          rw [outcome]
          refine ⟨.found fd, .single (.success next), .found (.inl rfl) ?_ ?_⟩
          · rw [object]
          · rw [object]
      | @pending after fd outcome gained object =>
          rw [outcome]
          have idx : after.s.addrIdx = c.s.addrIdx := by rw [object]
          refine ⟨.seeking after.s.addrIdx reason, ?_, .connecting ?_ ?_ ?_⟩
          · rw [idx]
            exact .nil _
          · obtain ⟨addrs, reply, nonzero⟩ := seeking
            exact ⟨by rw [object]; exact addrs, by rw [object]; exact reply,
              nonzero⟩
          · exact idx ▸ within
          · change after.s.originFd.isSome
            rw [object]
            rfl

/-- The records of an answer that are to be tried. -/
def candidatesOf (dns : DnsRequest) : List SockAddr :=
  if dns.status ≠ 0 then [] else candidates dns.result

def resolvedCtx (c : Ctx) : Ctx :=
  { c with
    s := { c.s with
      resolving := false
      addrs := candidates c.s.dns.result
      addrIdx := 0
      dns := dnsRequestClear c.s.dns } }

def abandonedCtx (c : Ctx) : Ctx :=
  { c with s := { c.s with originFd := none, addrIdx := c.s.addrIdx + 1 } }

def connectError (a : Answers) (c : Ctx) : Errno :=
  a.soError.getD (c.s.originFd.elim eBadf c.env.kernel.soError)

/-- The candidates that a handler call settles, in its order. -/
def trialsOf (key : Key) (a : Answers) (c : Ctx) : List ConnectTrial :=
  match c.s.state with
  | .requestResolv =>
      rounds key a (candidatesOf c.s.dns).length
        ((resolvedCtx c).call .startConnection)
  | .requestConnecting =>
      let error := connectError a c
      if error = 0 then [⟨c.s.candidate, .success c.s.originNumber⟩]
      else
        ⟨c.s.candidate, .failure (some error)⟩ ::
          match selectorUnregisterFd key c.s.originNumber
              (c.setReply (errnoToReply error)) with
          | some c =>
              rounds key a (c.s.naddrs - (c.s.addrIdx + 1))
                ((abandonedCtx c).call .startConnection)
          | none => []
  | _ => []

theorem resolvBlock_conducts {key : Key} {a : Answers} {c : Ctx}
    (state : c.s.state = .requestResolv) (reply : c.s.reply = repSuccess)
    (unconnected : c.s.originFd = none) :
    ∃ standing, (failover (candidatesOf c.s.dns)).Run (.seeking 0 none)
      (trialsOf key a c)
        standing ∧
      Conducts (candidatesOf c.s.dns) (resolvBlock key a c).1.s
        (resolvBlock key a c).2
        standing := by
  have exhausted {after : Ctx} (empty : candidatesOf c.s.dns = [])
      (refused : after.s.reply = repHostUnreachable)
      (origin : after.s.originFd = none) :
      ∃ standing, (failover (candidatesOf c.s.dns)).Run (.seeking 0 none)
          (trialsOf key a c) standing ∧
        Conducts (candidatesOf c.s.dns) after.s .requestWrite standing := by
    refine ⟨.seeking 0 none, ?_, ?_⟩
    · unfold trialsOf
      rw [state, empty]
      exact .nil _
    · rw [empty]
      exact @Conducts.exhausted [] _ _ _ (.inl rfl) refused (by simp) origin
  unfold resolvBlock
  dsimp only
  split
  next failed =>
    refine exhausted ?_ rfl unconnected
    unfold candidatesOf
    rcases failed with failed | nothing
    · rw [if_pos failed]
    · have nothing : c.s.dns.result = [] := nothing
      rw [nothing]
      exact ite_self _
  next answered =>
    have fine : c.s.dns.status = 0 := by
      by_contra failed
      exact answered (.inl failed)
    have same : candidatesOf c.s.dns = candidates c.s.dns.result := by
      rw [candidatesOf, if_neg (not_not.mpr fine)]
    split
    next empty =>
      refine exhausted ?_ rfl unconnected
      rw [same]
      exact List.eq_nil_of_length_eq_zero empty
    next =>
      have conducts := @tryCandidates_conducts (candidates c.s.dns.result) key a
        (candidates c.s.dns.result).length
        ((resolvedCtx c).call .startConnection) none
        ⟨rfl, reply, by simp⟩ unconnected (Nat.zero_add _)
      unfold trialsOf
      rw [state, same]
      exact conducts

theorem connectingWrite_conducts {candidates : List SockAddr} {key : Key}
    {a : Answers} {c : Ctx} {result : Ctx × SocksState} {reason : Option Errno}
    (state : c.s.state = .requestConnecting)
    (seeking : Seeking candidates c.s reason)
    (within : c.s.addrIdx < candidates.length) (held : c.s.originFd.isSome)
    (ran : connectingWrite key a c = some result) :
    ∃ standing, (failover candidates).Run (.seeking c.s.addrIdx reason)
      (trialsOf key a c)
        standing ∧ Conducts candidates result.1.s result.2 standing := by
  have next : candidates[c.s.addrIdx]? = some c.s.candidate := by
    unfold Socks5.candidate
    rw [seeking.addrs, List.getElem?_eq_getElem within]
    rfl
  obtain ⟨origin, held⟩ := Option.isSome_iff_exists.mp held
  have number : c.s.originNumber = origin := by
    rw [Socks5.originNumber, held]
    rfl
  unfold trialsOf
  rw [state]
  unfold connectingWrite at ran
  change (if connectError a c = 0 then _ else _) = some result at ran
  dsimp only
  split at ran
  next connected =>
    cases ran
    rw [if_pos connected, number]
    exact ⟨.found origin, .single (.success next), .found (.inl rfl) rfl held⟩
  next refused =>
    rw [if_neg refused]
    obtain ⟨dropped, unregistered, same⟩ := Option.map_eq_some_iff.mp ran
    obtain ⟨references, object⟩ := (closes_unregister unregistered).object
    change selectorUnregisterFd key c.s.originNumber
      (c.setReply (errnoToReply (connectError a c))) = some dropped
      at unregistered
    rw [unregistered]
    have idx : dropped.s.addrIdx = c.s.addrIdx := by rw [object]; rfl
    have addrs : dropped.s.addrs = candidates := by
      rw [object]
      exact seeking.addrs
    have seeks :
        Seeking candidates ((abandonedCtx dropped).call .startConnection).s
        (some (connectError a c)) := by
      refine ⟨addrs, ?_, ?_⟩
      · change dropped.s.reply = _
        rw [object]
        rfl
      · rintro e ⟨⟩
        exact refused
    have naddrs : dropped.s.naddrs = candidates.length :=
      congrArg List.length addrs
    obtain ⟨standing, run, conducts⟩ := @tryCandidates_conducts candidates key a
      (dropped.s.naddrs - (dropped.s.addrIdx + 1))
      ((abandonedCtx dropped).call .startConnection) _ seeks rfl (by
        change dropped.s.addrIdx + 1 + _ = _
        omega)
    refine ⟨standing, run_cons (.failure next) ?_, ?_⟩
    · rw [← idx]
      exact run
    · rw [← same]
      exact conducts

structure Searched where
  calls : List Call
  trials : List ConnectTrial

inductive SearchStep (p : Ptr) (s : Socks5) : Searched → Socks5 → Prop
  | handled {kind : EventKind} {fd : Fd} {a : Answers} {env : Env} {c : Ctx}
      (hosts : Hosts p env s)
      (runs : socksv5Handler kind ⟨fd, p⟩ a ⟨env, s, [], false⟩ = some c) :
      SearchStep p s
        ⟨c.calls, trialsOf ⟨fd, p⟩ a (Ctx.started ⟨env, s, [], false⟩)⟩ c.s
  | resolved (answer : DnsAnswer) :
      SearchStep p s ⟨[], []⟩
        { s with dns :=
          { s.dns with result := answer.result, status := answer.status } }

def searching (p : Ptr) : System Socks5 Searched where
  init := Accepted
  step := SearchStep p

def callsMade (t : List Searched) : List Call := t.flatMap Searched.calls

def trialLog (t : List Searched) : List ConnectTrial :=
  t.flatMap Searched.trials

theorem run_of_search {p : Ptr} {first s : Socks5} {t : List Searched}
    (run : (searching p).Run first t s) :
    (connection p).Run first (t.map Searched.calls) s := by
  induction run with
  | nil => exact .nil first
  | snoc before step induction =>
      rw [List.map_append]
      cases step with
      | handled hosts runs => exact induction.snoc (.handled hosts runs)
      | resolved answer => exact induction.snoc (.resolved answer)

theorem search_of_run {p : Ptr} {first s : Socks5} {labels : List (List Call)}
    (run : (connection p).Run first labels s) :
    ∃ t, (searching p).Run first t s ∧ t.map Searched.calls = labels := by
  induction run with
  | nil => exact ⟨[], .nil first, rfl⟩
  | snoc before step induction =>
      obtain ⟨t, searched, rfl⟩ := induction
      cases step with
      | handled hosts runs =>
          exact ⟨_, searched.snoc (.handled hosts runs), List.map_append⟩
      | resolved answer =>
          exact ⟨_, searched.snoc (.resolved answer), List.map_append⟩

def Unsearched (s : Socks5) : Prop :=
  s.state.early = true → s.reply = repSuccess ∧ s.originFd = none

private theorem jump_answer (key : Key) (a : Answers) (next : SocksState)
    (c : Ctx) :
    ((jump key a next c).s.reply, (jump key a next c).s.originFd) =
      (c.s.reply, c.s.originFd) := by
  rw [jump_s]
  split
  · rfl
  · cases next <;> rfl

private theorem handled_answer {kind : EventKind} {key : Key} {a : Answers}
    {c after middle : Ctx} {next : SocksState}
    (handled : Handled kind key a c after middle next) :
    (after.s.reply, after.s.originFd) =
      (middle.s.reply, middle.s.originFd) := by
  obtain ⟨references, object⟩ := handled.closes.object
  rw [object]
  exact jump_answer key a next middle

private def answerOf (s : Socks5) : UInt8 × Option Fd := (s.reply, s.originFd)

private theorem setInterestOrFail_answer (c : Ctx) (i : Interest)
    (next : SocksState) :
    answerOf (setInterestOrFail c i next).1.s = answerOf c.s := by
  rw [setInterestOrFail_s]

private theorem requestCompleted_unsearched {key : Key} {a : Answers} {c : Ctx}
    (early : (requestCompleted key a c).2.early = true) :
    answerOf (requestCompleted key a c).1.s = answerOf c.s := by
  have late (c : Ctx) : (startConnection key a c).2.early ≠ true := by
    rcases (startConnection_reaches key a c).2 with same | same <;>
      · rw [same]
        decide
  revert early
  unfold requestCompleted
  dsimp only
  split
  · exact fun early => by cases early
  · unfold processRequest
    dsimp only
    split
    · exact fun early => by cases early
    · split
      · exact fun early => absurd early (late _)
      · split
        · exact fun early => absurd early (late _)
        · split
          · unfold dnsResolveAsync
            cases a.thread with
            | true => exact fun _ => rfl
            | false => exact fun early => by cases early
          · exact fun early => by cases early

private theorem handler_unsearched {kind : EventKind} {key : Key} {a : Answers}
    {c : Ctx} {st : SocksState} {handler : Handler} {result : Ctx × SocksState}
    (serves : Serves st kind handler) (ran : handler key a c = some result)
    (early : st.early = true) (still : result.2.early = true) :
    answerOf result.1.s = answerOf c.s := by
  cases serves with
  | helloRead =>
      refine eq_of_total ran ▸ readEffect_field ?_ ?_ (helloRead_effect key a c)
      · exact fun _ _ _ => rfl
      intro c
      unfold helloCompleted
      dsimp only
      split
      · rfl
      · exact setInterestOrFail_answer ..
  | helloWrite =>
      refine eq_of_total ran ▸ writeEffect_field ?_ ?_
        (helloWrite_effect key a c)
      · exact fun _ _ => rfl
      intro c
      split
      · rfl
      · exact setInterestOrFail_answer ..
  | authRead =>
      refine eq_of_total ran ▸ readEffect_field ?_ ?_ (authRead_effect key a c)
      · exact fun _ _ _ => rfl
      intro c
      unfold authCompleted
      dsimp only
      split
      · rfl
      · exact setInterestOrFail_answer ..
  | authWrite =>
      refine eq_of_total ran ▸ writeEffect_field ?_ ?_
        (authWrite_effect key a c)
      · exact fun _ _ => rfl
      intro c
      split
      · rfl
      · exact setInterestOrFail_answer ..
  | requestRead =>
      have ran := eq_of_total ran
      subst ran
      have effect := requestRead_effect key a c
      generalize requestRead key a c = result at effect still
      cases effect with
      | again | failed | closed | partly => rfl
      | completed => exact requestCompleted_unsearched still
  | resolvBlock =>
      have ran := eq_of_total ran
      subst ran
      rcases resolvBlock_next key a c with same | same <;>
        · rw [same] at still
          cases still
  | _ => cases early

private theorem early_of_successor {st next : SocksState}
    (follows : next ∈ st.successors) (early : next.early = true) :
    st.early = true := by
  cases st <;> first | rfl | skip
  all_goals
    cases next <;> simp [SocksState.successors, SocksState.early]
      at follows early

theorem Unsearched.step {p : Ptr} {s next : Socks5} {calls : List Call}
    (unsearched : Unsearched s) (step : ConnectionStep p s calls next) :
    Unsearched next := by
  cases step with
  | resolved answer => exact unsearched
  | @handled kind fd a env after hosts runs =>
      obtain ⟨middle, next, handled⟩ := handled_of_handler runs
      obtain ⟨handler, serves, ran⟩ := handled.runs
      intro still
      rw [handled.state] at still
      have early := early_of_successor (handler_next serves ran) still
      obtain ⟨reply, origin⟩ := unsearched early
      have same :=
        (handled_answer handled).trans
        (handler_unsearched serves ran early still)
      obtain ⟨sameReply, sameOrigin⟩ := Prod.mk.inj same
      exact ⟨sameReply.trans reply, sameOrigin.trans origin⟩

theorem unsearched_of_run {p : Ptr} {first s : Socks5}
    {labels : List (List Call)} (accepted : Accepted first)
    (run : (connection p).Run first labels s) :
    Unsearched s := by
  have preserved : ∀ {s calls next}, Unsearched s →
      (connection p).step s calls next → Unsearched next :=
    fun unsearched step => unsearched.step step
  refine run.invariant @preserved ?_
  obtain ⟨config, clientFd, blocks, old, prepared, address, made, rfl⟩ :=
    accepted
  obtain ⟨rawRead, rawWrite, readBlock, writeBlock, rfl⟩ := prepare_eq made
  exact fun _ => ⟨rfl, rfl⟩

private theorem handler_answered {kind : EventKind} {key : Key} {a : Answers}
    {c : Ctx} {st : SocksState} {handler : Handler} {result : Ctx × SocksState}
    (serves : Serves st kind handler) (ran : handler key a c = some result)
    (answered : st.answered) :
    result.2.answered ∧ answerOf result.1.s = answerOf c.s := by
  have follows := handler_next serves ran
  rcases answered with rfl | rfl | closing
  · refine ⟨?_, ?_⟩
    · revert follows
      generalize result.2 = next
      cases next <;> simp [SocksState.successors, SocksState.answered,
        SocksState.closing]
    · cases serves
      refine eq_of_total ran ▸ writeEffect_field ?_ ?_
        (requestWrite_effect key a c)
      · exact fun _ _ => rfl
      intro c
      unfold replySent
      dsimp only
      split <;> rfl
  · refine ⟨?_, @copy_field _ answerOf _ _ _ _ _ _
      ⟨fun _ _ _ => rfl, fun _ _ _ => rfl, fun _ _ _ => rfl, fun _ _ => rfl⟩
        serves ran⟩
    revert follows
    generalize result.2 = next
    cases next <;> simp [SocksState.successors, SocksState.answered,
      SocksState.closing]
  · rcases closing with rfl | rfl <;> cases serves

theorem Conducts.moved {candidates : List SockAddr} {s next : Socks5}
    {st : SocksState} {standing : Standing Fd Errno}
    (conducts : Conducts candidates s st standing)
    (addrs : next.addrs = s.addrs) (idx : next.addrIdx = s.addrIdx)
    (answer : answerOf next = answerOf s) :
    Conducts candidates next st standing := by
  obtain ⟨sameReply, sameOrigin⟩ := Prod.mk.inj answer
  cases conducts with
  | connecting seeking within held =>
      rw [← idx]
      exact .connecting
        ⟨addrs.trans seeking.addrs, sameReply.trans seeking.reply,
        seeking.nonzero⟩ (idx ▸ within) (sameOrigin ▸ held)
  | found answered reply held =>
      exact .found answered (sameReply.trans reply) (sameOrigin.trans held)
  | exhausted answered reply nonzero none =>
      exact .exhausted answered (sameReply.trans reply) nonzero
        (sameOrigin.trans none)

theorem conducts_handled {kind : EventKind} {key : Key} {a : Answers}
    {c after middle : Ctx} {next : SocksState} {candidates : List SockAddr}
    {standing : Standing Fd Errno}
    (handled : Handled kind key a c after middle next)
    (conducts : Conducts candidates middle.s next standing) :
    Conducts candidates after.s after.s.state standing := by
  rw [handled.state]
  have kept :
      ((jump key a next middle).s.addrs, (jump key a next middle).s.addrIdx) =
        (middle.s.addrs, middle.s.addrIdx) := by
    rw [jump_s]
    split
    · rfl
    · cases next <;> rfl
  obtain ⟨addrs, idx⟩ := Prod.mk.inj kept
  have answer := handled_answer handled
  obtain ⟨references, object⟩ := handled.closes.object
  refine conducts.moved ?_ ?_ answer
  · rw [object]
    exact addrs
  · rw [object]
    exact idx

/-- A step of the connection is a part of the run of its search. -/
theorem conducts_step {p : Ptr} {s next : Socks5} {label : Searched}
    {candidates : List SockAddr} {standing : Standing Fd Errno}
    (conducts : Conducts candidates s s.state standing)
    (step : SearchStep p s label next) :
    ∃ later, (failover candidates).Run standing label.trials later ∧
      Conducts candidates next next.state later := by
  cases step with
  | resolved answer => exact ⟨standing, .nil _, conducts.moved rfl rfl rfl⟩
  | @handled kind fd a env after hosts runs =>
      obtain ⟨middle, next, handled⟩ := handled_of_handler runs
      obtain ⟨handler, serves, ran⟩ := handled.runs
      generalize state : s.state = st at conducts
      have quiet (answered : st.answered) :
          trialsOf ⟨fd, p⟩ a (Ctx.started ⟨env, s, [], false⟩) = [] := by
        unfold trialsOf
        rw [started_state, show (Ctx.s ⟨env, s, [], false⟩).state =
          st from state]
        rcases answered with rfl | rfl | rfl | rfl <;> rfl
      rw [show (Ctx.s ⟨env, s, [], false⟩).state = st from state] at serves
      dsimp only
      cases conducts with
      | connecting seeking within held =>
          cases serves
          obtain ⟨later, run, conducts⟩ :=
            connectingWrite_conducts state
              ⟨seeking.addrs, seeking.reply, seeking.nonzero⟩ within held ran
          exact ⟨later, run, conducts_handled handled conducts⟩
      | found answered reply held =>
          obtain ⟨still, same⟩ := handler_answered serves ran answered
          obtain ⟨sameReply, sameOrigin⟩ := Prod.mk.inj same
          rw [quiet answered]
          exact ⟨_, .nil _, conducts_handled handled
            (.found still (sameReply.trans reply) (sameOrigin.trans held))⟩
      | exhausted answered reply nonzero none =>
          obtain ⟨still, same⟩ := handler_answered serves ran answered
          obtain ⟨sameReply, sameOrigin⟩ := Prod.mk.inj same
          rw [quiet answered]
          exact ⟨_, .nil _, conducts_handled handled
            (.exhausted still (sameReply.trans reply) nonzero
              (sameOrigin.trans none))⟩

/-- A handler call closes every socket that it opened or had, but the origin
that it leaves, which is registered. -/
structure Leaves (p : Ptr) (env : Env) (origin : Option Fd) (after : Env)
    (left : Option Fd) : Prop where
  sockets : ∀ fd ∉ left, after.kernel.socket fd =
    if fd ∈ origin then none else env.kernel.socket fd
  registered : ∀ fd ∈ left, Registered p after fd

theorem Attempted.leaves {p : Ptr} {c : Ctx} {result : Ctx × SocksState}
    (attempted : Attempted p c result) (unconnected : c.s.originFd = none) :
    Leaves p c.env none result.1.env result.1.s.originFd := by
  cases attempted with
  | @exhausted after unmoved =>
      have origin : after.s.originFd = c.s.originFd :=
        congrArg Wiring.originFd unmoved.wiring
      refine ⟨fun fd _ => (unmoved.slots fd).2, fun fd held => ?_⟩
      rw [origin, unconnected] at held
      cases held
  | @connected after fd gained =>
      have origin : after.s.originFd = some fd :=
        congrArg Wiring.originFd gained.wiring
      refine ⟨fun other apart => ?_, fun other held => ?_⟩
      · rw [gained.sockets,
          if_neg (fun same => apart (by rw [origin, same]; rfl))]
        rfl
      · rw [origin] at held
        cases held
        exact ⟨gained.valid, opNoop, (gained.items fd).trans (if_pos rfl)⟩
  | @connecting after fd gained =>
      have origin : after.s.originFd = some fd :=
        congrArg Wiring.originFd gained.wiring
      refine ⟨fun other apart => ?_, fun other held => ?_⟩
      · rw [gained.sockets,
          if_neg (fun same => apart (by rw [origin, same]; rfl))]
        rfl
      · rw [origin] at held
        cases held
        exact ⟨gained.valid, opWrite, (gained.items fd).trans (if_pos rfl)⟩

theorem resolvBlock_leaves {key : Key} {a : Answers} {c : Ctx}
    (unconnected : c.s.originFd = none) :
    Leaves key.data c.env none (resolvBlock key a c).1.env
      (resolvBlock key a c).1.s.originFd := by
  have idle {after : Ctx} (env : after.env = c.env)
      (origin : after.s.originFd = none) :
      Leaves key.data c.env none after.env after.s.originFd := by
    rw [env, origin]
    exact ⟨fun fd _ => rfl, fun fd held => by cases held⟩
  unfold resolvBlock
  dsimp only
  split
  · exact idle rfl unconnected
  · split
    · exact idle rfl unconnected
    · exact (attempted_startConnection key a (resolvedCtx c)).leaves unconnected

theorem connectingWrite_leaves {key : Key} {a : Answers} {c : Ctx}
    {result : Ctx × SocksState}
    (hosts : ∀ fd ∈ c.s.originFd, Registered key.data c.env fd)
    (held : c.s.originFd.isSome) (ran : connectingWrite key a c = some result) :
    Leaves key.data c.env c.s.originFd result.1.env result.1.s.originFd := by
  obtain ⟨origin, held⟩ := Option.isSome_iff_exists.mp held
  have registered := hosts origin held
  have number : c.s.originNumber = origin := by
    rw [Socks5.originNumber, held]
    rfl
  unfold connectingWrite at ran
  dsimp only at ran
  split at ran
  next =>
    cases ran
    refine ⟨fun fd apart => (if_neg apart).symm, hosts⟩
  next =>
    obtain ⟨dropped, unregistered, same⟩ := Option.map_eq_some_iff.mp ran
    rw [number] at unregistered
    have freed := (unregister_freed unregistered).resolve_left fun absent =>
      absent.1 registered
    have leaves :=
      (attempted_startConnection key a (abandonedCtx dropped)).leaves rfl
    rw [← same, held]
    refine ⟨fun fd apart => (leaves.sockets fd apart).trans ?_,
      leaves.registered⟩
    refine Eq.trans (if_neg (by simp)) ((freed.sockets fd).trans ?_)
    by_cases same : fd = origin
    · simp [same]
    · rw [if_neg same, if_neg (by simpa using Ne.symm same)]
      rfl

private theorem selectorSetInterest_item {selector : Selector} {fd : Fd}
    {item : Item} (held : selector.items fd = some item) (other : Fd)
    (i : Interest) :
    ∃ changed, (selectorSetInterest selector other i).1.items fd =
      some { item with interest := changed } := by
  unfold selectorSetInterest
  split
  · exact ⟨item.interest, held⟩
  · split
    · exact ⟨item.interest, held⟩
    next found =>
      by_cases same : fd = other
      · subst same
        rw [held] at found
        cases found
        exact ⟨i, Selector.items_setItem_self ..⟩
      · exact ⟨item.interest, (Selector.items_setItem_ne _ _ same).trans held⟩

theorem setInterest_registered {p : Ptr} {c : Ctx} {fd : Fd}
    (registered : Registered p c.env fd) (other : Fd) (i : Interest) :
    Registered p (c.setInterest other i).1.env fd := by
  obtain ⟨valid, before, item⟩ := registered
  exact ⟨valid, selectorSetInterest_item item other i⟩

theorem jump_leaves {p : Ptr} {env : Env} {origin : Option Fd} {key : Key}
    {a : Answers} {c : Ctx} {next : SocksState} (result : next.connectResult)
    (leaves : Leaves p env origin c.env c.s.originFd) :
    Leaves p env origin (jump key a next c).env
      (jump key a next c).s.originFd := by
  have kept : (jump key a next c).s.originFd = c.s.originFd :=
    congrArg Prod.snd (jump_answer key a next c)
  have machine : (jump key a next c).env.kernel = c.env.kernel ∧
      ∀ fd, Registered p c.env fd →
      Registered p (jump key a next c).env fd := by
    unfold jump
    split
    · exact ⟨rfl, fun _ registered => registered⟩
    · rcases result with rfl | rfl
      · unfold enter states requestWriteArrival
        dsimp only
        split
        · exact ⟨rfl, fun fd registered =>
            setInterest_registered (setInterest_registered registered _ _) _ _⟩
        · exact ⟨rfl, fun fd registered =>
            setInterest_registered registered _ _⟩
      · exact ⟨rfl, fun _ registered => registered⟩
  rw [kept]
  refine ⟨fun fd apart => ?_, fun fd held =>
    machine.2 fd (leaves.registered fd held)⟩
  rw [machine.1]
  exact leaves.sockets fd apart

theorem search_leaves {p : Ptr} {env : Env} {s : Socks5} {kind : EventKind}
    {fd : Fd} {a : Answers} {c : Ctx} (hosts : Hosts p env s)
    (state : s.state = .requestResolv ∧ s.originFd = none ∨
      s.state = .requestConnecting ∧ s.originFd.isSome)
    (runs : socksv5Handler kind ⟨fd, p⟩ a ⟨env, s, [], false⟩ = some c) :
    Leaves p env s.originFd c.env c.s.originFd := by
  obtain ⟨middle, next, handled⟩ := handled_of_handler runs
  obtain ⟨handler, serves, ran⟩ := handled.runs
  rcases state with ⟨state, unconnected⟩ | ⟨state, held⟩
  · rw [show (Ctx.s ⟨env, s, [], false⟩).state = _ from state] at serves
    cases serves
    have leaves :=
      @resolvBlock_leaves ⟨fd, p⟩ a (Ctx.started ⟨env, s, [], false⟩)
      unconnected
    have result := resolvBlock_next ⟨fd, p⟩ a (Ctx.started ⟨env, s, [], false⟩)
    rw [eq_of_total ran] at leaves result
    have stays := handled.stays (by
      rcases result with same | same <;>
        · rw [show next = _ from same]
          simp [SocksState.closing])
    rw [unconnected, stays]
    exact jump_leaves result leaves
  · rw [show (Ctx.s ⟨env, s, [], false⟩).state = _ from state] at serves
    cases serves
    have leaves :=
      connectingWrite_leaves (fun fd origin => (hosts.origin fd origin).1) held
      ran
    have result := (connectingWrite_reaches ran).2
    have stays := handled.stays (by
      rcases result with same | same <;>
        · rw [show next = _ from same]
          simp [SocksState.closing])
    rw [stays]
    exact jump_leaves result leaves

def Call.connectAddress : Call → Option SockAddr
  | .connect _ address _ => some address
  | _ => none

def connects (calls : List Call) : List SockAddr :=
  calls.filterMap Call.connectAddress

@[simp] theorem connects_append (left right : List Call) :
    connects (left ++ right) = connects left ++ connects right :=
      List.filterMap_append

/-- The candidate whose connect is under way in a state. -/
def Socks5.underWay (s : Socks5) (st : SocksState) : List SockAddr :=
  if st = .requestConnecting then [s.candidate] else []

/-- There is a socket to connect. -/
def Attempt.Granted (attempt : Attempt) : Prop :=
  attempt.socket = 0 ∧ attempt.nio = true

instance (attempt : Attempt) : Decidable attempt.Granted :=
  inferInstanceAs (Decidable (_ ∧ _))

/-- The candidates, tried from an index on, that there is a socket for. -/
def grantedFrom (a : Answers) : Nat → List SockAddr → List SockAddr
  | _, [] => []
  | idx, candidate :: rest =>
      if (a.attempt idx).Granted then candidate :: grantedFrom a (idx + 1) rest
      else grantedFrom a (idx + 1) rest

theorem grantedFrom_sublist (a : Answers) (idx : Nat) (tried : List SockAddr) :
    (grantedFrom a idx tried).Sublist tried := by
  induction tried generalizing idx with
  | nil => exact List.nil_sublist _
  | cons candidate rest induction =>
      unfold grantedFrom
      split
      · exact (induction _).cons_cons candidate
      · exact (induction _).cons candidate

theorem grantedFrom_cons (a : Answers) (idx : Nat) (candidate : SockAddr)
    (rest : List SockAddr) :
    grantedFrom a idx (candidate :: rest) =
      grantedFrom a idx [candidate] ++ grantedFrom a (idx + 1) rest := by
  simp only [grantedFrom]
  split
  · rfl
  · rfl

/-- A round connects to its candidate exactly if there is a socket for it. -/
theorem tryCandidate_calls (key : Key) (a : Answers) (c : Ctx) :
    (tryCandidate key a c).1.calls = c.calls ∧
      ¬ (a.attempt c.s.addrIdx).Granted ∨
      ∃ fd e, (tryCandidate key a c).1.calls = c.calls ++
        [.connect fd c.s.candidate e] ∧
        (a.attempt c.s.addrIdx).Granted := by
  have registers {c after : Ctx} {fd : Fd} {i : Interest} {taken : Bool}
      (found : registerOrigin key c fd i = (after, taken)) :
      after.calls = c.calls := by
    unfold registerOrigin at found
    split at found <;>
      · cases found
        rfl
  unfold tryCandidate
  dsimp only
  split
  next refused => exact .inl ⟨rfl, fun granted => refused granted.1⟩
  next =>
    split
    next blocking =>
      refine .inl ⟨rfl, fun granted => ?_⟩
      rw [granted.2] at blocking
      cases blocking
    next opened prepared =>
      have granted : (a.attempt c.s.addrIdx).Granted := by
        simpa [Attempt.Granted] using And.intro opened prepared
      split
      · split
        next found => exact .inr ⟨_, _, registers found, granted⟩
        next found => exact .inr ⟨_, _, registers found, granted⟩
      · split
        · split
          next found => exact .inr ⟨_, _, registers found, granted⟩
          next found => exact .inr ⟨_, _, registers found, granted⟩
        · exact .inr ⟨_, _, rfl, granted⟩

theorem tryCandidate_connects (key : Key) (a : Answers) (c : Ctx) :
    ∃ more, (tryCandidate key a c).1.calls = c.calls ++ more ∧
      connects more = grantedFrom a c.s.addrIdx [c.s.candidate] := by
  rcases tryCandidate_calls key a c with ⟨silent, refused⟩ |
    ⟨fd, e, called, granted⟩
  · exact ⟨[], by rw [silent, List.append_nil], (if_neg refused).symm⟩
  · exact ⟨_, called, (if_pos granted).symm⟩

theorem tryCandidates_connects (key : Key) (a : Answers) (left : Nat)
    (c : Ctx) :
    ∃ more, (tryCandidates key a left c).1.calls = c.calls ++ more ∧
      connects more = grantedFrom a c.s.addrIdx
        ((rounds key a left c).map Trial.candidate ++
        (tryCandidates key a left c).1.s.underWay
          (tryCandidates key a left c).2) := by
  induction left generalizing c with
  | zero =>
      unfold tryCandidates
      split
      · exact ⟨[], (List.append_nil _).symm, rfl⟩
      · exact ⟨[], (List.append_nil _).symm, rfl⟩
  | succ left induction =>
      obtain ⟨first, called, contacted⟩ := tryCandidate_connects key a c
      have tried := round_tryCandidate key a c
      unfold tryCandidates rounds
      generalize tryCandidate key a c = result at tried called
      cases tried with
      | @failure after reason outcome nonzero unmoved object =>
          obtain ⟨more, calls, rest⟩ := induction after
          have idx : after.s.addrIdx = c.s.addrIdx + 1 := by rw [object]
          rw [idx] at rest
          rw [outcome]
          refine ⟨first ++ more, ?_, ?_⟩
          · rw [← List.append_assoc, ← called]
            exact calls
          · rw [connects_append, contacted, rest]
            exact (grantedFrom_cons ..).symm
      | @success after fd outcome =>
          rw [outcome]
          exact ⟨first, called, contacted⟩
      | @pending after fd outcome gained object =>
          rw [outcome]
          have same : after.s.candidate = c.s.candidate := by rw [object]; rfl
          refine ⟨first, called, ?_⟩
          change connects first = grantedFrom a c.s.addrIdx [after.s.candidate]
          rw [same]
          exact contacted

theorem startConnection_connects (key : Key) (a : Answers) (c : Ctx) :
    ∃ more, (startConnection key a c).1.calls = c.calls ++ more ∧
      connects more = grantedFrom a c.s.addrIdx
        ((rounds key a (c.s.naddrs - c.s.addrIdx) (c.call .startConnection)).map
            Trial.candidate ++
          (startConnection key a c).1.s.underWay
            (startConnection key a c).2) := by
  obtain ⟨more, calls, contacted⟩ :=
    tryCandidates_connects key a (c.s.naddrs - c.s.addrIdx)
      (c.call .startConnection)
  refine ⟨.startConnection :: more, ?_, contacted⟩
  rw [startConnection, calls]
  exact List.append_assoc ..

theorem resolvBlock_connects {key : Key} {a : Answers} {c : Ctx}
    (state : c.s.state = .requestResolv) :
    ∃ more, (resolvBlock key a c).1.calls = c.calls ++ more ∧
      connects more = grantedFrom a 0 ((trialsOf key a c).map Trial.candidate ++
        (resolvBlock key a c).1.s.underWay (resolvBlock key a c).2) := by
  have unsearched (empty : candidatesOf c.s.dns = []) :
      trialsOf key a c = [] := by
    unfold trialsOf
    rw [state, empty]
    rfl
  unfold resolvBlock
  dsimp only
  split
  next failed =>
    refine ⟨[], (List.append_nil _).symm, ?_⟩
    rw [unsearched]
    · rfl
    · unfold candidatesOf
      rcases failed with failed | nothing
      · rw [if_pos failed]
      · have nothing : c.s.dns.result = [] := nothing
        rw [nothing]
        exact ite_self _
  next answered =>
    have fine : c.s.dns.status = 0 := by
      by_contra failed
      exact answered (.inl failed)
    have same : candidatesOf c.s.dns = candidates c.s.dns.result := by
      rw [candidatesOf, if_neg (not_not.mpr fine)]
    split
    next empty =>
      refine ⟨[], (List.append_nil _).symm, ?_⟩
      rw [unsearched]
      · rfl
      · rw [same]
        exact List.eq_nil_of_length_eq_zero empty
    next =>
      have started := startConnection_connects key a (resolvedCtx c)
      unfold trialsOf
      rw [state, same]
      exact started

theorem connectingWrite_connects {key : Key} {a : Answers} {c : Ctx}
    {result : Ctx × SocksState} (state : c.s.state = .requestConnecting)
    (ran : connectingWrite key a c = some result) :
    ∃ more outcome rest, result.1.calls = c.calls ++ more ∧
      trialsOf key a c = ⟨c.s.candidate, outcome⟩ :: rest ∧
      connects more = grantedFrom a (c.s.addrIdx + 1)
        (rest.map Trial.candidate ++ result.1.s.underWay result.2) := by
  unfold trialsOf
  rw [state]
  unfold connectingWrite at ran
  change (if connectError a c = 0 then _ else _) = some result at ran
  dsimp only
  split at ran
  next connected =>
    cases ran
    rw [if_pos connected]
    exact ⟨[], _, [], (List.append_nil _).symm, rfl, rfl⟩
  next refused =>
    obtain ⟨dropped, unregistered, same⟩ := Option.map_eq_some_iff.mp ran
    obtain ⟨references, object⟩ := (closes_unregister unregistered).object
    have calls : dropped.calls = c.calls :=
      (closes_unregister unregistered).calls
    have idx : dropped.s.addrIdx = c.s.addrIdx := by rw [object]; rfl
    change selectorUnregisterFd key c.s.originNumber
      (c.setReply (errnoToReply (connectError a c))) = some dropped
      at unregistered
    rw [if_neg refused, unregistered]
    obtain ⟨more, called, contacted⟩ :=
      startConnection_connects key a (abandonedCtx dropped)
    rw [← same, ← calls, ← idx]
    exact ⟨more, _, _, called, rfl, contacted⟩

/-- Only candidates of the log, and the one under way, were connected to, in
order. -/
def Contacted (s : Socks5) (calls : List Call) (log : List ConnectTrial) :
    Prop :=
  (connects calls).Sublist (log.map Trial.candidate ++ s.underWay s.state)

theorem underWay_handled {kind : EventKind} {key : Key} {a : Answers}
    {c after middle : Ctx} {next : SocksState}
    (handled : Handled kind key a c after middle next) :
    after.s.underWay after.s.state = middle.s.underWay next := by
  have kept : (jump key a next middle).s.candidate = middle.s.candidate := by
    rw [jump_s]
    split
    · rfl
    · cases next <;> rfl
  have state := handled.state
  obtain ⟨references, object⟩ := handled.closes.object
  unfold Socks5.underWay
  rw [state, object]
  exact congrArg (fun candidate => if next = .requestConnecting then [candidate]
    else []) kept

theorem connects_resolved {p : Ptr} {s : Socks5} {kind : EventKind} {fd : Fd}
    {a : Answers} {env : Env} {c : Ctx} (resolving : s.state = .requestResolv)
    (runs : socksv5Handler kind ⟨fd, p⟩ a ⟨env, s, [], false⟩ = some c) :
    connects c.calls = grantedFrom a 0
      ((trialsOf ⟨fd, p⟩ a (Ctx.started ⟨env, s, [], false⟩)).map
        Trial.candidate ++
        c.s.underWay c.s.state) := by
  obtain ⟨middle, next, handled⟩ := handled_of_handler runs
  obtain ⟨handler, serves, ran⟩ := handled.runs
  rw [show (Ctx.s ⟨env, s, [], false⟩).state = _ from resolving] at serves
  cases serves
  obtain ⟨more, calls, contacted⟩ :=
    @resolvBlock_connects ⟨fd, p⟩ a (Ctx.started ⟨env, s, [], false⟩) resolving
  rw [eq_of_total ran] at calls contacted
  have called : c.calls = more :=
    (handled.closes.calls.trans (jump_calls ..)).trans calls
  rw [underWay_handled handled, called]
  exact contacted

theorem connects_resumed {p : Ptr} {s : Socks5} {kind : EventKind} {fd : Fd}
    {a : Answers} {env : Env} {c : Ctx}
    (connecting : s.state = .requestConnecting)
    (runs : socksv5Handler kind ⟨fd, p⟩ a ⟨env, s, [], false⟩ = some c) :
    ∃ outcome rest,
      trialsOf ⟨fd, p⟩ a (Ctx.started ⟨env, s, [], false⟩) =
        ⟨s.candidate, outcome⟩ :: rest ∧
      connects c.calls = grantedFrom a (s.addrIdx + 1)
        (rest.map Trial.candidate ++ c.s.underWay c.s.state) := by
  obtain ⟨middle, next, handled⟩ := handled_of_handler runs
  obtain ⟨handler, serves, ran⟩ := handled.runs
  rw [show (Ctx.s ⟨env, s, [], false⟩).state = _ from connecting] at serves
  cases serves
  obtain ⟨more, outcome, rest, calls, trials, contacted⟩ :=
    connectingWrite_connects connecting ran
  have called : c.calls = more :=
    (handled.closes.calls.trans (jump_calls ..)).trans calls
  refine ⟨outcome, rest, trials, ?_⟩
  rw [underWay_handled handled, called]
  exact contacted

theorem contacted_step {p : Ptr} {s next : Socks5} {label : Searched}
    {calls : List Call} {log : List ConnectTrial}
    (contacted : Contacted s calls log)
    (searching : s.state = .requestConnecting ∨ s.state.answered)
    (step : SearchStep p s label next) :
    Contacted next (calls ++ label.calls) (log ++ label.trials) := by
  unfold Contacted at contacted ⊢
  cases step with
  | resolved answer =>
      rw [List.append_nil, List.append_nil]
      exact contacted
  | @handled kind fd a env after hosts runs =>
      rw [connects_append]
      rcases searching with state | answered
      · obtain ⟨outcome, rest, trials, resumed⟩ := connects_resumed state runs
        have under : s.underWay s.state = [s.candidate] := if_pos state
        rw [under] at contacted
        dsimp only
        rw [trials, resumed, List.map_append, List.map_cons,
          ← List.singleton_append, ← List.append_assoc, List.append_assoc]
        exact contacted.append (grantedFrom_sublist ..)
      · obtain ⟨middle, next, handled⟩ := handled_of_handler runs
        obtain ⟨handler, serves, ran⟩ := handled.runs
        have called : after.calls = middle.calls :=
          handled.closes.calls.trans (jump_calls ..)
        have quiet : trialsOf ⟨fd, p⟩ a (Ctx.started ⟨env, s, [], false⟩) =
            [] := by
          unfold trialsOf
          rw [started_state]
          change (match s.state with
            | .requestResolv => _
            | .requestConnecting => _
            | _ => []) = []
          rcases answered with state | state | state | state <;> rw [state]
        have idle : s.underWay s.state = [] := by
          unfold Socks5.underWay
          rcases answered with state | state | state |
            state <;> rw [state] <;> rfl
        obtain ⟨more, made, valid⟩ := handler_makes serves ran
        have silent : connects more = [] := by
          refine List.filterMap_eq_nil_iff.mpr fun made member => ?_
          have allowed := valid made member
          rw [show (Ctx.s ⟨env, s, [], false⟩).state = s.state from rfl]
            at allowed
          rcases answered with state | state | state | state <;>
            · rw [state] at allowed
              cases made <;> first
                | rfl
                | simp [SocksState.mayCall, Call.reads, Call.writes,
                    Call.relays] at allowed
        rw [idle, List.append_nil] at contacted
        dsimp only
        rw [quiet, List.append_nil, called, show middle.calls = more from made,
          silent, List.append_nil]
        exact contacted.trans (List.sublist_append_left _ _)

/-- The search for an origin as it should be: every candidate in order and at
most once, until one succeeds, with the answer and the origin that follow from
their outcomes. -/
structure SearchesExactly (candidates : List SockAddr) (log : List ConnectTrial)
    (s : Socks5) : Prop where
  order : log.map Trial.candidate <+: candidates
  stops : ∀ trial ∈ log.dropLast, trial.Failed
  waits : s.state = .requestConnecting → (∀ trial ∈ log, trial.Failed) ∧
    candidates[log.length]? = some s.candidate ∧ s.originFd ≠ none
  success : s.state ≠ .requestConnecting →
    (s.reply = repSuccess ↔ ∃ candidate origin, Found log candidate origin)
  found : ∀ {candidate origin}, s.state ≠ .requestConnecting →
    Found log candidate origin → s.originFd = some origin
  exhausted : s.state ≠ .requestConnecting → (∀ trial ∈ log, trial.Failed) →
    log.map Trial.candidate = candidates ∧ s.originFd = none ∧
      s.reply = ((lastReason log).map errnoToReply).getD repHostUnreachable

theorem searchesExactly_of_conducts {candidates : List SockAddr}
    {log : List ConnectTrial} {s : Socks5} {standing : Standing Fd Errno}
    (logged : Logged candidates log standing)
    (conducts : Conducts candidates s s.state standing) :
    SearchesExactly candidates log s := by
  have order := logged.order
  have stops := logged.stops
  generalize state : s.state = st at conducts
  cases conducts with
  | @connecting reason seeking within held =>
      refine ⟨order, stops, fun _ => ?_, fun other => absurd state other,
        fun other => absurd state other, fun other => absurd state other⟩
      generalize tried : s.addrIdx = idx at logged within
      cases logged with
      | seeking _ _ failed =>
          refine ⟨failed, ?_, ?_⟩
          · rw [List.getElem?_eq_getElem within, Socks5.candidate,
              seeking.addrs, tried, List.getElem?_eq_getElem within]
            rfl
          · intro none
            rw [none] at held
            cases held
  | @found st origin answered reply held =>
      cases logged with
      | @found candidate origin order found =>
          refine ⟨order, stops, ?_,
            fun _ => ⟨fun _ => ⟨_, _, found⟩, fun _ => reply⟩,
            fun _ other => ?_, fun _ failed => absurd failed found.not_failed⟩
          · intro waiting
            rw [state] at waiting
            subst waiting
            rcases answered with same | same | same | same <;> cases same
          · rw [held, found.unique other]
  | @exhausted st reason answered reply nonzero none =>
      generalize tried : candidates.length = count at logged
      cases logged with
      | seeking whole _ failed =>
          have refused : s.reply ≠ repSuccess := by
            rw [reply]
            generalize lastReason log = reason at nonzero
            cases reason with
            | none => decide
            | some e => exact errnoToReply_ne_success (nonzero e rfl)
          refine ⟨order, stops, ?_,
            fun _ => ⟨fun success => absurd success refused, ?_⟩,
            fun _ found => absurd failed found.not_failed, fun _ _ =>
              ⟨?_, none, reply⟩⟩
          · intro waiting
            rw [state] at waiting
            subst waiting
            rcases answered with same | same | same | same <;> cases same
          · rintro ⟨candidate, origin, found⟩
            exact absurd failed found.not_failed
          · rw [whole, ← tried, List.take_length]

/-- What was settled, and what is under way, is where the candidates begin. -/
theorem SearchesExactly.tried {candidates : List SockAddr}
    {log : List ConnectTrial} {s : Socks5}
    (exactly : SearchesExactly candidates log s) :
    log.map Trial.candidate ++ s.underWay s.state <+: candidates := by
  unfold Socks5.underWay
  split
  next waiting =>
    obtain ⟨below, next⟩ :=
      List.getElem?_eq_some_iff.mp (exactly.waits waiting).2.1
    obtain ⟨rest, whole⟩ := exactly.order
    have split : rest = s.candidate :: rest.tail := by
      subst whole
      rw [List.getElem_append_right (by simp)] at next
      cases rest with
      | nil => simp at below
      | cons head rest => simpa using next
    exact ⟨rest.tail, by
      rw [List.append_assoc, List.singleton_append, ← split, whole]⟩
  next =>
    rw [List.append_nil]
    exact exactly.order

theorem length_candidatesOf (dns : DnsRequest) :
    (candidatesOf dns).length ≤ maxAddrs := by
  unfold candidatesOf candidates
  split
  · exact Nat.zero_le _
  · exact List.length_take_le _ _

theorem Conducts.searching {candidates : List SockAddr} {s : Socks5}
    {st : SocksState} {standing : Standing Fd Errno}
    (conducts : Conducts candidates s st standing) :
    st = .requestConnecting ∨ st.answered := by
  cases conducts with
  | connecting => exact .inl rfl
  | found answered => exact .inr answered
  | exhausted answered => exact .inr answered

/-- A search goes on through every later step of its connection. -/
theorem search_run {p : Ptr} {s last : Socks5} {later : List Searched}
    {candidates : List SockAddr} {standing : Standing Fd Errno}
    {calls : List Call} {log : List ConnectTrial}
    (searched : (searching p).Run s later last)
    (began : (failover candidates).Run (.seeking 0 none) log standing)
    (conducts : Conducts candidates s s.state standing)
    (contacted : Contacted s calls log) :
    ∃ standing, (failover candidates).Run (.seeking 0 none)
      (log ++ trialLog later)
        standing ∧
      Conducts candidates last last.state standing ∧
      Contacted last (calls ++ callsMade later) (log ++ trialLog later) := by
  induction searched with
  | nil =>
      rw [trialLog, callsMade, List.flatMap_nil, List.flatMap_nil,
        List.append_nil, List.append_nil]
      exact ⟨standing, began, conducts, contacted⟩
  | @snoc middle last labels label _ step induction =>
      obtain ⟨standing, before, conducts, contacted⟩ := induction
      obtain ⟨further, after, conducted⟩ := conducts_step conducts step
      have trials : trialLog (labels ++ [label]) = trialLog labels ++
          label.trials := by
        simp [trialLog]
      have calls : callsMade (labels ++ [label]) = callsMade labels ++
          label.calls := by
        simp [callsMade]
      rw [trials, calls, ← List.append_assoc, ← List.append_assoc]
      exact ⟨further, before.append after, conducted,
        contacted_step contacted conducts.searching step⟩

section Search

variable {p : Ptr} {first before s : Socks5} {earlier : List (List Call)}
  {later : List Searched} {env : Env} {fd : Fd} {a : Answers} {c : Ctx}
  (accepted : Accepted first) (run : (connection p).Run first earlier before)
  (resolving : before.state = .requestResolv)
  (runs : socksv5Handler .block ⟨fd, p⟩ a ⟨env, before, [], false⟩ = some c)

include accepted run resolving runs

private theorem conducts_begun :
    ∃ standing, (failover (candidatesOf before.dns)).Run (.seeking 0 none)
        (trialsOf ⟨fd, p⟩ a (Ctx.started ⟨env, before, [], false⟩)) standing ∧
      Conducts (candidatesOf before.dns) c.s c.s.state standing ∧
      Contacted c.s c.calls
        (trialsOf ⟨fd, p⟩ a (Ctx.started ⟨env, before, [], false⟩)) := by
  obtain ⟨reply, unconnected⟩ :=
    unsearched_of_run accepted run (by rw [resolving]; rfl)
  obtain ⟨middle, next, handled⟩ := handled_of_handler runs
  obtain ⟨handler, serves, ran⟩ := handled.runs
  rw [show (Ctx.s ⟨env, before, [], false⟩).state = _ from resolving] at serves
  cases serves
  obtain ⟨standing, begins, conducts⟩ := @resolvBlock_conducts ⟨fd, p⟩ a
    (Ctx.started ⟨env, before, [], false⟩) resolving reply unconnected
  rw [eq_of_total ran] at conducts
  refine ⟨standing, begins, conducts_handled handled conducts, ?_⟩
  unfold Contacted
  rw [connects_resolved resolving runs]
  exact grantedFrom_sublist ..

variable (searched : (searching p).Run c.s later s)

include searched

private theorem conducts_later :
    ∃ standing, (failover (candidatesOf before.dns)).Run (.seeking 0 none)
        (trialsOf ⟨fd, p⟩ a (Ctx.started ⟨env, before, [], false⟩) ++
          trialLog later)
        standing ∧
      Conducts (candidatesOf before.dns) s s.state standing ∧
      Contacted s (c.calls ++ callsMade later)
        (trialsOf ⟨fd, p⟩ a (Ctx.started ⟨env, before, [], false⟩) ++
          trialLog later) := by
  obtain ⟨standing, began, conducts, contacted⟩ :=
    conducts_begun accepted run resolving runs
  exact search_run searched began conducts contacted

/-- A connection whose name was resolved tries the first sixteen addresses of
the answer in order and at most once each, until one is connected and
registered, and connects to each that it has a socket for; its reply and its
origin are what the outcomes say; every other socket is closed again. -/
theorem origin_failover (hosts : Hosts p env before) :
    ∃ log, log = trialsOf ⟨fd, p⟩ a (Ctx.started ⟨env, before, [], false⟩) ++
        trialLog later ∧
      SearchesExactly (candidatesOf before.dns) log s ∧
      log.length + (s.underWay s.state).length ≤ maxAddrs ∧
      (connects (c.calls ++ callsMade later)).Sublist
        (log.map Trial.candidate ++ s.underWay s.state) ∧
      connects c.calls = grantedFrom a 0
        ((trialsOf ⟨fd, p⟩ a (Ctx.started ⟨env, before, [], false⟩)).map
            Trial.candidate ++ c.s.underWay c.s.state) ∧
      Leaves p env none c.env c.s.originFd ∧
      (∀ {kind fd a env after}, s.state = .requestConnecting → Hosts p env s →
        socksv5Handler kind ⟨fd, p⟩ a ⟨env, s, [], false⟩ = some after →
        Leaves p env s.originFd after.env after.s.originFd ∧
          ∃ outcome rest, trialsOf ⟨fd, p⟩ a (Ctx.started ⟨env, s, [], false⟩) =
              ⟨s.candidate, outcome⟩ :: rest ∧
            connects after.calls = grantedFrom a (s.addrIdx + 1)
              (rest.map Trial.candidate ++ after.s.underWay after.s.state)) ∧
      (s.state = .requestWrite → ∃ opening greeting reply,
        Opening opening greeting ∧
        Reply.rep reply = s.reply ∧
        sentTo first.clientFd
          (earlier.flatten ++ (c.calls ++ callsMade later)) ++
          s.writeBuffer.content = greeting ++ reply.encode) ∧
      (s.state = .copy → s.originFd ≠ none) := by
  obtain ⟨standing, began, conducts, contacted⟩ :=
    conducts_later accepted run resolving runs searched
  have logged := logged_of_run began
  have exactly := searchesExactly_of_conducts logged conducts
  have unconnected :=
    (unsearched_of_run accepted run (by rw [resolving]; rfl)).2
  have whole :
      (connection p).Run first (earlier ++ c.calls :: later.map Searched.calls)
      s := by
    rw [← List.singleton_append, ← List.append_assoc]
    exact (run.snoc (.handled hosts runs)).append (run_of_search searched)
  have landed := landed_of_run accepted whole
  refine ⟨_, rfl, exactly, ?_, contacted, connects_resolved resolving runs, ?_,
    ?_, ?_, fun copying => landed (.inr (.inl copying))⟩
  · have few := length_candidatesOf before.dns
    unfold Socks5.underWay
    split
    next waiting =>
      obtain ⟨below, -⟩ :=
        List.getElem?_eq_some_iff.mp (exactly.waits waiting).2.1
      rw [List.length_singleton]
      omega
    next =>
      have counted := logged.length_le
      rw [List.length_nil]
      omega
  · have leaves := search_leaves hosts (.inl ⟨resolving, unconnected⟩) runs
    rwa [unconnected] at leaves
  · intro kind fd a env after waiting hosts runs
    have held : s.originFd.isSome := by
      rw [Option.isSome_iff_ne_none]
      exact landed (.inl waiting)
    exact ⟨search_leaves hosts (.inr ⟨waiting, held⟩) runs,
      connects_resumed waiting runs⟩
  · intro writing
    have unfinished := unfinished_of_run accepted whole
    unfold Unfinished at unfinished
    rw [writing] at unfinished
    have calls : (earlier ++ c.calls :: later.map Searched.calls).flatten =
        earlier.flatten ++ (c.calls ++ callsMade later) := by
      simp [callsMade, List.flatMap]
    rwa [calls] at unfinished

end Search

private def namedRequest : List UInt8 :=
  [0x05, 0x01, 0x00, 0x03, 0x01, 97, 0x00, 80]

private def firstAddress : SockAddr := ⟨.inet, [127, 0, 0, 1], 80⟩

private def secondAddress : SockAddr := ⟨.inet, [127, 0, 0, 2], 80⟩

private def refusedOnce : Answers :=
  { Answers.idle with
    attempt :=
      fun idx => if idx = 0 then ⟨0, true, eConnRefused⟩ else ⟨0, true, 0⟩ }

private def lookup : Option (List (List Call) × Env × Socks5) :=
  replay 0 (soleEnv configInitDefaults usersInit 5 0)
    (freshConnection configInitDefaults 5)
    [⟨.read, 5, .receiving (helloMessage [methodNoAuth])⟩,
      ⟨.write, 5, .accepting [2]⟩,
      ⟨.read, 5, { Answers.receiving namedRequest with thread := true }⟩]

private def answeredLookup (s : Socks5) : Socks5 :=
  { s with
    dns := { s.dns with result := [firstAddress, secondAddress], status := 0 } }

theorem origin_failover_refused : ∃ (s : Socks5) (c : Ctx),
    SearchesExactly (candidatesOf (answeredLookup s).dns)
        [⟨firstAddress, .failure (some eConnRefused)⟩,
          ⟨secondAddress, .success 0⟩] c.s ∧
      c.s.state = .requestWrite ∧ c.s.originFd = some 0 := by
  have expected : lookup.any (fun found =>
      decide (found.2.2.state = .requestResolv ∧
        Hosts 0 found.2.1 (answeredLookup found.2.2)) &&
      (socksv5Handler .block ⟨5, 0⟩ refusedOnce
          ⟨found.2.1, answeredLookup found.2.2, [], false⟩).any
        fun c => decide (trialsOf ⟨5, 0⟩ refusedOnce
          (Ctx.started ⟨found.2.1, answeredLookup found.2.2, [], false⟩) =
            [⟨firstAddress, .failure (some eConnRefused)⟩,
              ⟨secondAddress, .success 0⟩] ∧
          c.s.state = .requestWrite)) = true := by
    decide +kernel
  obtain ⟨⟨labels, env, s⟩, replayed, facts⟩ :=
    (Option.any_eq_true ..).mp expected
  obtain ⟨first, called⟩ := Bool.and_eq_true_iff.mp facts
  obtain ⟨resolving, hosts⟩ := of_decide_eq_true first
  obtain ⟨c, runs, reached⟩ := (Option.any_eq_true ..).mp called
  obtain ⟨trials, writing⟩ := of_decide_eq_true reached
  have run : (connection 0).Run (freshConnection configInitDefaults 5)
      (labels ++ [[]]) (answeredLookup s) :=
      (run_of_replay replayed).snoc (.resolved ⟨0, _⟩)
  obtain ⟨log, same, exactly, -⟩ :=
    origin_failover (accepted_fresh _ _) run resolving runs (.nil c.s) hosts
  rw [trialLog, List.flatMap_nil, List.append_nil, trials] at same
  subst same
  have found : Found [⟨firstAddress, .failure (some eConnRefused)⟩,
      ⟨secondAddress, .success 0⟩] secondAddress (0 : Fd) :=
    ⟨[⟨firstAddress, .failure (some eConnRefused)⟩],
      rfl, by simp [Trial.Failed]⟩
  exact ⟨s, c, exactly, writing, exactly.found (by rw [writing]; decide) found⟩

end SocksProxy
