import SocksProxy.Credentials
import SocksProxy.Mgmt.Codec
import SocksProxy.Socks5.Failover
import SocksProxy.Socks5.Refusals

/-! The destination of a CONNECT request: the address that is connected to, or
the name that is looked up. -/

namespace SocksProxy

open Failover Scanner Transition

def SockAddr.portOctets (address : SockAddr) : List UInt8 :=
  [(address.port / 256).toUInt8, (address.port % 256).toUInt8]

def decimal (port : Nat) : List UInt8 :=
  (Nat.toDigits 10 port).map fun digit => digit.toNat.toUInt8

theorem SocksRequest.port_lt (r : SocksRequest) : r.port < 65536 := by
  have high := r.high.toNat_lt
  have low := r.low.toNat_lt
  unfold SocksRequest.port
  omega

theorem SocksRequest.portOctets (r : SocksRequest) (family : Family) :
    (SockAddr.mk family r.address r.port).portOctets = [r.high, r.low] := by
  have high : r.port / 256 = r.high.toNat := by
    have low := r.low.toNat_lt
    unfold SocksRequest.port
    omega
  have low : r.port % 256 = r.low.toNat := by
    have low := r.low.toNat_lt
    unfold SocksRequest.port
    omega
  rw [SockAddr.portOctets, high, low]
  simp

theorem service_whole {port : Nat} (small : port < 65536) :
    ((CString.ofNat port).truncate 7).octets = decimal port := by
  have digits : (Nat.toDigits 10 port).length ≤ 5 :=
    (Nat.length_toDigits_le_iff (by decide) (by decide)).mpr (by omega)
  change (CString.ofNat port).octets.take 7 = decimal port
  rw [octets_ofNat]
  apply List.take_of_length_le
  rw [List.length_map]
  omega

def Call.resolution : Call → Option (CString × CString)
  | .dnsResolveAsync host service _ => some (host, service)
  | _ => none

/-- The names and services that a list of calls looks up. -/
def resolutions (calls : List Call) : List (CString × CString) :=
  calls.filterMap Call.resolution

@[simp] theorem resolutions_append (left right : List Call) :
    resolutions (left ++ right) = resolutions left ++ resolutions right :=
  List.filterMap_append

def Call.contacting : Call → Prop
  | .startConnection | .connect .. => True
  | _ => False

theorem resolutions_contacting {calls : List Call}
    (contacting : ∀ made ∈ calls, made.contacting) :
    resolutions calls = [] := by
  refine List.filterMap_eq_nil_iff.mpr fun made member => ?_
  have contacts := contacting made member
  cases made with
  | dnsResolveAsync => cases contacts
  | _ => rfl

theorem tryCandidates_makes (key : Key) (a : Answers) (left : Nat) (c : Ctx) :
    Makes Call.contacting c (tryCandidates key a left c).1 := by
  induction left generalizing c with
  | zero =>
      unfold tryCandidates
      split
      · exact .none rfl
      · exact .none rfl
  | succ left induction =>
      have tried : Makes Call.contacting c (tryCandidate key a c).1 := by
        rcases tryCandidate_calls key a c with ⟨silent, -⟩ | ⟨fd, e, called, -⟩
        · exact .none silent
        · exact .one called trivial
      unfold tryCandidates
      split
      next entered =>
        rw [entered] at tried
        exact tried
      next failed =>
        rw [failed] at tried
        exact tried.trans (induction _)

theorem startConnection_makes (key : Key) (a : Answers) (c : Ctx) :
    Makes Call.contacting c (startConnection key a c).1 := by
  have called : Makes Call.contacting c (c.call .startConnection) :=
    .one rfl trivial
  exact called.trans (tryCandidates_makes key a _ _)

def Socks5.names (s : Socks5) : CString × CString × CString :=
  (s.destHost, s.dns.host, s.dns.service)

def Socks5.kept (s : Socks5) : (CString × CString × CString) × Nat :=
  (s.names, s.destPort)

theorem tryCandidates_kept (key : Key) (a : Answers) (left : Nat) (c : Ctx) :
    (tryCandidates key a left c).1.s.kept = c.s.kept := by
  induction left generalizing c with
  | zero =>
      unfold tryCandidates
      split <;> rfl
  | succ left induction =>
      have tried := round_tryCandidate key a c
      unfold tryCandidates
      generalize tryCandidate key a c = result at tried
      cases tried with
      | failure outcome nonzero unmoved object =>
          refine (induction _).trans ?_
          rw [object]
          rfl
      | success outcome gained object =>
          change Socks5.kept (Ctx.s _) = _
          rw [object]
          rfl
      | pending outcome gained object =>
          change Socks5.kept (Ctx.s _) = _
          rw [object]
          rfl

theorem startConnection_kept (key : Key) (a : Answers) (c : Ctx) :
    (startConnection key a c).1.s.kept = c.s.kept :=
  tryCandidates_kept key a _ (c.call .startConnection)

def SocksState.asked : SocksState → Bool
  | .requestResolv | .requestConnecting | .requestWrite | .copy | .done
  | .errorState => true
  | _ => false

/-- What a step after the request keeps: it looks nothing up, and what is kept
of the request stays. -/
structure Looked (before after : Ctx) : Prop where
  calls : ∃ more, after.calls = before.calls ++ more ∧ resolutions more = []
  kept : after.s.kept = before.s.kept

theorem Looked.of_makes {before after : Ctx}
    (makes : Makes Call.contacting before after)
    (kept : after.s.kept = before.s.kept) : Looked before after := by
  obtain ⟨more, calls, contacting⟩ := makes
  exact ⟨⟨more, calls, resolutions_contacting contacting⟩, kept⟩

theorem resolvBlock_looked (key : Key) (a : Answers) (c : Ctx) :
    Looked c (resolvBlock key a c).1 := by
  unfold resolvBlock
  dsimp only
  split
  · exact .of_makes (.none rfl) rfl
  · split
    · exact .of_makes (.none rfl) rfl
    · exact .of_makes (Makes.trans (.none rfl) (startConnection_makes key a _))
        (startConnection_kept key a _)

theorem connectingWrite_looked {key : Key} {a : Answers} {c : Ctx}
    {result : Ctx × SocksState} (ran : connectingWrite key a c = some result) :
    Looked c result.1 := by
  unfold connectingWrite at ran
  dsimp only at ran
  split at ran
  next connected =>
    cases ran
    exact .of_makes (.none rfl) rfl
  next refused =>
    obtain ⟨dropped, unregistered, rfl⟩ := Option.map_eq_some_iff.mp ran
    have closes := closes_unregister unregistered
    have kept : dropped.s.kept = c.s.kept := by
      obtain ⟨references, object⟩ := closes.object
      rw [object]
      rfl
    exact .of_makes
      (Makes.trans (.none closes.calls) (startConnection_makes key a _))
      ((startConnection_kept key a _).trans kept)

theorem handler_looked {kind : EventKind} {key : Key} {a : Answers} {c : Ctx}
    {st : SocksState} {handler : Handler} {result : Ctx × SocksState}
    (asked : st.asked = true) (serves : Serves st kind handler)
    (ran : handler key a c = some result) :
    Looked c result.1 ∧ result.2.asked = true := by
  have makes := handler_makes serves ran
  have follows := handler_next serves ran
  refine ⟨?_, ?_⟩
  · have quiet (silent : ∀ made, st.mayCall made → made.resolution = none)
        (kept : result.1.s.kept = c.s.kept) : Looked c result.1 := by
      obtain ⟨more, calls, valid⟩ := makes
      refine ⟨⟨more, calls, List.filterMap_eq_nil_iff.mpr fun made member =>
        ?_⟩, kept⟩
      exact silent made (valid made member)
    cases serves with
    | resolvBlock => exact eq_of_total ran ▸ resolvBlock_looked key a c
    | connectingWrite => exact connectingWrite_looked ran
    | requestWrite =>
        apply quiet
        · intro made allowed
          cases made with
          | dnsResolveAsync => simp [SocksState.mayCall, Call.writes] at allowed
          | _ => rfl
        · refine eq_of_total ran ▸ writeEffect_field ?_ ?_
            (requestWrite_effect key a c)
          · exact fun _ _ => rfl
          intro c
          unfold replySent
          dsimp only
          split <;> rfl
    | copyRead | copyWrite =>
        apply quiet
        · intro made allowed
          cases made with
          | dnsResolveAsync =>
              simp [SocksState.mayCall, Call.reads, Call.writes, Call.relays]
                at allowed
          | _ => rfl
        · exact @copy_field _ Socks5.kept _ _ _ _ _ _
            ⟨fun _ _ _ => rfl, fun _ _ _ => rfl, fun _ _ _ => rfl,
              fun _ _ => rfl⟩
            (by constructor) ran
    | _ => cases asked
  · revert follows
    generalize result.2 = next
    cases st <;> cases next <;>
      simp_all [SocksState.successors, SocksState.asked]

theorem jump_kept (key : Key) (a : Answers) (next : SocksState) (c : Ctx) :
    (jump key a next c).s.kept = c.s.kept := by
  rw [jump_s]
  split
  · rfl
  · cases next <;> rfl

theorem handled_kept {kind : EventKind} {key : Key} {a : Answers}
    {c after middle : Ctx} {next : SocksState}
    (handled : Handled kind key a c after middle next) :
    after.s.kept = middle.s.kept := by
  obtain ⟨references, object⟩ := handled.closes.object
  rw [object]
  exact jump_kept key a next middle

/-- Nothing is looked up after the request was read. -/
theorem looked_run {p : Ptr} {s last : Socks5} {later : List (List Call)}
    (asked : s.state.asked = true) (run : (connection p).Run s later last) :
    resolutions later.flatten = [] ∧ last.kept = s.kept ∧
      last.state.asked = true := by
  induction run with
  | nil => exact ⟨rfl, rfl, asked⟩
  | @snoc middle last labels calls before step induction =>
      obtain ⟨nothing, kept, still⟩ := induction
      rw [List.flatten_append, List.flatten_singleton, resolutions_append,
        nothing, List.nil_append]
      cases step with
      | resolved answer => exact ⟨rfl, kept, still⟩
      | @handled kind fd a env after hosts runs =>
          obtain ⟨middle, next, handled⟩ := handled_of_handler runs
          obtain ⟨handler, serves, ran⟩ := handled.runs
          obtain ⟨looked, further⟩ := handler_looked still serves ran
          obtain ⟨more, calls, silent⟩ := looked.calls
          refine ⟨?_, ?_, ?_⟩
          · rw [handled.closes.calls, jump_calls, calls]
            exact silent
          · exact ((handled_kept handled).trans looked.kept).trans kept
          · rw [handled.state]
            exact further

/-- A handler call that received the last octets of a CONNECT request. -/
inductive Asked (p : Ptr) (r : SocksRequest) (a : Answers) (c : Ctx) : Prop
  | intro {first s : Socks5} {labels : List (List Call)} {env : Env}
      {kind : EventKind} {fd : Fd} {rest : List UInt8}
      (accepted : Accepted first) (run : (connection p).Run first labels s)
      (reading : s.state = .requestRead)
      (runs : socksv5Handler kind ⟨fd, p⟩ a ⟨env, s, [], false⟩ = some c)
      (arrives : receivedFrom s.clientFd c.calls ≠ [])
      (opened : Opened s.clientFd (labels.flatten ++ c.calls) (r.encode ++ rest)
        [])
      (connect : r.cmd = cmdConnect) : Asked p r a c

structure SocksRequest.Addresses (r : SocksRequest) (family : Family)
    (address : SockAddr) : Prop where
  family : address.family = family
  addr : address.addr = r.address
  port : address.portOctets = [r.high, r.low]

structure ConnectsTo (p : Ptr) (a : Answers) (c : Ctx) (address : SockAddr) :
    Prop where
  prompt : (a.attempt 0).Granted → connects c.calls = [address]
  only : ∀ {later last}, (connection p).Run c.s later last →
    (connects (c.calls ++ later.flatten)).Sublist [address] ∧
      resolutions (c.calls ++ later.flatten) = []

/-- One name is looked up, and it is kept for the log. -/
def LooksUp (p : Ptr) (c : Ctx) (name : List UInt8) (port : Nat) : Prop :=
  ∃ host service : CString, host.octets = name ∧ service.octets = decimal port ∧
    resolutions c.calls = [(host, service)] ∧ connects c.calls = [] ∧
    ∀ {later last}, (connection p).Run c.s later last →
      resolutions later.flatten = [] ∧ last.names = (host, host, service)

structure Destined (p : Ptr) (r : SocksRequest) (a : Answers) (c : Ctx) :
    Prop where
  ipv4 : r.atyp = atypIpv4 → ∃ address, r.Addresses .inet address ∧
    ConnectsTo p a c address
  ipv6 : r.atyp = atypIpv6 → ∃ address, r.Addresses .inet6 address ∧
    ConnectsTo p a c address
  domain : r.atyp = atypDomain → LooksUp p c r.address r.port

def SocksRequest.NulFree (r : SocksRequest) : Prop :=
  r.atyp = atypDomain → (0 : UInt8) ∉ r.address

theorem Asked.connect {p : Ptr} {r : SocksRequest} {a : Answers} {c : Ctx}
    (asked : Asked p r a c) : r.cmd = cmdConnect := by
  obtain ⟨_, _, _, _, _, _, connect⟩ := asked
  exact connect

structure Processing (r : SocksRequest) (c : Ctx) : Prop where
  holds : c.s.request.Holds r
  reply : c.s.reply = repSuccess
  unconnected : c.s.originFd = none
  connects : connects c.calls = []
  resolutions : resolutions c.calls = []

theorem Asked.processed {p : Ptr} {r : SocksRequest} {a : Answers} {c : Ctx}
    (asked : Asked p r a c) :
    ∃ fd kind start before middle next, Processing r before ∧
      (middle, next) = processRequest ⟨fd, p⟩ a before ∧
      Handled kind ⟨fd, p⟩ a start c middle next := by
  obtain ⟨accepted, run, reading, runs, arrives, opened, connect⟩ := asked
  obtain ⟨reply, unconnected⟩ :=
    unsearched_of_run accepted run (by rw [reading]; rfl)
  obtain ⟨octets, q, buffer, middle, next, holds, reached, handled⟩ :=
    completed_of_scan (exchanged_of_run accepted run) reading runs
      arrives opened fun roomy =>
        have ⟨q, scanned, holds⟩ := scan_socksRequest roomy r _
        ⟨q, _, scanned, holds⟩
  rw [requestCompleted, if_neg (by
    rw [show (Ctx.s _).request.state = q.state from rfl, holds.state]
    decide)] at reached
  exact ⟨_, _, _, _, middle, next, ⟨holds, reply, unconnected, rfl, rfl⟩,
    reached, handled⟩

theorem SocksRequest.take_address {r : SocksRequest} {q : RequestParser}
    {count : Nat} (holds : q.Holds r) (sized : r.address.length = count) :
    q.addr.take count = r.address := by
  obtain ⟨tail, array, -⟩ := holds.addr
  rw [array, ← sized, List.take_left]

/-- The string that the parser leaves for a name ends at its first NUL. -/
theorem SocksRequest.ofArray_address {r : SocksRequest} {q : RequestParser}
    (holds : q.Holds r) (domain : r.atyp = atypDomain) :
    (CString.ofArray q.addr).octets = cut r.address := by
  obtain ⟨tail, array, terminated⟩ := holds.addr
  obtain ⟨rest, rfl⟩ : ∃ rest, tail = 0 :: rest := by
    cases tail with
    | nil => cases terminated domain
    | cons head rest =>
        cases terminated domain
        exact ⟨rest, rfl⟩
  rw [array, CString.ofArray_append_nul]
  rfl

theorem connectsTo_of_tried {p : Ptr} {fd : Fd} {kind : EventKind} {a : Answers}
    {start before c middle : Ctx} {next : SocksState} {address : SockAddr}
    (addrs : before.s.addrs = [address]) (idx : before.s.addrIdx = 0)
    (reply : before.s.reply = repSuccess)
    (unconnected : before.s.originFd = none)
    (quiet : connects before.calls = [])
    (unresolved : resolutions before.calls = [])
    (reached : (middle, next) = tryCandidates ⟨fd, p⟩ a 1 before)
    (handled : Handled kind ⟨fd, p⟩ a start c middle next) :
    ConnectsTo p a c address := by
  have called : c.calls = middle.calls :=
    handled.closes.calls.trans (jump_calls ..)
  have candidate : before.s.candidate = address := by
    rw [Socks5.candidate, addrs, idx]
    rfl
  constructor
  · intro granted
    have tried := tryCandidate_calls ⟨fd, p⟩ a before
    rw [idx, candidate] at tried
    obtain ⟨origin, e, made, -⟩ :=
      tried.resolve_left fun silent => silent.2 granted
    have whole : middle.calls = before.calls ++
        [.connect origin address e] := by
      rw [← made, show middle = (middle, next).1 from rfl, reached]
      unfold tryCandidates
      split
      next entered => rw [entered]
      next after failed =>
        rw [failed]
        unfold tryCandidates
        split <;> rfl
    rw [called, whole, connects_append, quiet]
    rfl
  · intro later last run
    have seeking : Seeking [address] before.s none := ⟨addrs, reply, by simp⟩
    obtain ⟨standing, began, conducts⟩ :=
      tryCandidates_conducts ⟨fd, p⟩ a 1 seeking unconnected (by rw [idx]; rfl)
    obtain ⟨more, calls, contacted⟩ := tryCandidates_connects ⟨fd, p⟩ a 1 before
    obtain ⟨made, sameCalls, contacting⟩ :=
      tryCandidates_makes ⟨fd, p⟩ a 1 before
    have result := (tryCandidates_reaches ⟨fd, p⟩ a 1 before).2
    rw [← reached] at conducts calls contacted sameCalls result
    rw [idx] at began
    have asked : c.s.state.asked = true := by
      rw [handled.state]
      rcases result with same | same <;>
        · rw [show next = _ from same]
          rfl
    obtain ⟨nothing, -, -⟩ := looked_run asked run
    obtain ⟨t, searched, rfl⟩ := search_of_run run
    have begins : Contacted c.s c.calls (rounds ⟨fd, p⟩ a 1 before) := by
      unfold Contacted
      rw [underWay_handled handled, called, calls, connects_append, quiet,
        List.nil_append, contacted]
      exact grantedFrom_sublist ..
    obtain ⟨final, ran, conducted, reaches⟩ := search_run searched began
      (conducts_handled handled conducts) begins
    have exactly := searchesExactly_of_conducts (logged_of_run ran) conducted
    refine ⟨List.Sublist.trans reaches exactly.tried.sublist, ?_⟩
    rw [resolutions_append, nothing, called, sameCalls, resolutions_append,
      unresolved, resolutions_contacting contacting]
    rfl

theorem Asked.connectsTo {p : Ptr} {r : SocksRequest} {a : Answers} {c : Ctx}
    (asked : Asked p r a c) {family : Family}
    (kind : r.atyp = atypIpv4 ∧ family = .inet ∨ r.atyp = atypIpv6 ∧
      family = .inet6) :
    ∃ address, r.Addresses family address ∧ ConnectsTo p a c address := by
  have connect := asked.connect
  obtain ⟨fd, event, start, before, middle, next, ready, reached, handled⟩ :=
    asked.processed
  have holds := ready.holds
  have quiet : connects (before.calls ++ [.startConnection]) = [] := by
    rw [connects_append, ready.connects]
    rfl
  have unresolved : resolutions (before.calls ++ [.startConnection]) = [] := by
    rw [resolutions_append, ready.resolutions]
    rfl
  refine ⟨⟨family, r.address, r.port⟩, ⟨rfl, rfl, r.portOctets family⟩, ?_⟩
  unfold processRequest at reached
  rw [if_neg (by rw [holds.cmd, connect]; exact fun other => other rfl)]
    at reached
  dsimp only at reached
  rw [holds.atyp, holds.port] at reached
  rcases kind with ⟨atyp, rfl⟩ | ⟨atyp, rfl⟩
  · have sized : r.address.length = 4 := by
      rcases r.sized with ⟨-, length⟩ | ⟨other, -⟩ | ⟨other, -⟩
      · exact length
      · exact absurd (atyp.symm.trans other) (by decide)
      · exact absurd (atyp.symm.trans other) (by decide)
    rw [if_pos atyp, r.take_address holds sized] at reached
    refine connectsTo_of_tried ?_ ?_ ?_ ?_ ?_ ?_ reached handled
    · rfl
    · rfl
    · exact ready.reply
    · exact ready.unconnected
    · exact quiet
    · exact unresolved
  · have sized : r.address.length = 16 := by
      rcases r.sized with ⟨other, -⟩ | ⟨-, length⟩ | ⟨other, -⟩
      · exact absurd (atyp.symm.trans other) (by decide)
      · exact length
      · exact absurd (atyp.symm.trans other) (by decide)
    rw [if_neg (by rw [atyp]; decide), if_pos atyp, r.take_address holds sized]
      at reached
    refine connectsTo_of_tried ?_ ?_ ?_ ?_ ?_ ?_ reached handled
    · rfl
    · rfl
    · exact ready.reply
    · exact ready.unconnected
    · exact quiet
    · exact unresolved

/-- The name that is looked up is the part of the octets before their first
NUL. -/
theorem Asked.looksUp {p : Ptr} {r : SocksRequest} {a : Answers} {c : Ctx}
    (asked : Asked p r a c) (domain : r.atyp = atypDomain) :
    LooksUp p c (cut r.address) r.port := by
  have connect := asked.connect
  obtain ⟨fd, event, start, before, middle, next, ready, reached, handled⟩ :=
    asked.processed
  have holds := ready.holds
  have short : (cut r.address).length ≤ 255 := by
    refine (List.takeWhile_sublist _).length_le.trans ?_
    rcases r.sized with ⟨other, -⟩ | ⟨other, -⟩ | ⟨-, -, bound⟩
    · exact absurd (domain.symm.trans other) (by decide)
    · exact absurd (domain.symm.trans other) (by decide)
    · exact bound
  have name : ((CString.ofArray before.s.request.addr).truncate 255).octets =
      cut r.address := by
    change (CString.ofArray _).octets.take 255 = _
    rw [r.ofArray_address holds domain, List.take_of_length_le short]
  have whole :
      ((CString.ofArray before.s.request.addr).truncate 255).truncate 255 =
        (CString.ofArray before.s.request.addr).truncate 255 := by
    apply CString.ext_octets
    change List.take 255 _ = _
    rw [name, List.take_of_length_le short]
  unfold processRequest at reached
  rw [if_neg (by rw [holds.cmd, connect]; exact fun other => other rfl)]
    at reached
  dsimp only at reached
  rw [holds.atyp, holds.port, if_neg (by rw [domain]; decide),
    if_neg (by rw [domain]; decide),
    if_pos domain, whole] at reached
  generalize (CString.ofArray before.s.request.addr).truncate 255 =
    host at name reached
  -- Without a thread the request is answered at once; the names are kept all
  -- the same.
  have outcome : middle.calls = before.calls ++
        [.dnsResolveAsync host ((CString.ofNat r.port).truncate 7) a.thread] ∧
      middle.s.names = (host, host, (CString.ofNat r.port).truncate 7) ∧
      next.asked = true := by
    unfold dnsResolveAsync at reached
    cases thread : a.thread <;> rw [thread] at reached <;> cases reached <;>
      exact ⟨rfl, rfl, rfl⟩
  obtain ⟨calls, names, after⟩ := outcome
  have called : c.calls = middle.calls :=
    handled.closes.calls.trans (jump_calls ..)
  refine ⟨host, (CString.ofNat r.port).truncate 7, name,
    service_whole r.port_lt, ?_, ?_, ?_⟩
  · rw [called, calls, resolutions_append, ready.resolutions]
    rfl
  · rw [called, calls, connects_append, ready.connects]
    rfl
  · intro later last run
    obtain ⟨nothing, kept, -⟩ :=
      looked_run (by rw [handled.state]; exact after) run
    have same := congrArg Prod.fst (kept.trans (handled_kept handled))
    exact ⟨nothing, same.trans names⟩

theorem Asked.destined_iff {p : Ptr} {r : SocksRequest} {a : Answers} {c : Ctx}
    (asked : Asked p r a c) : Destined p r a c ↔ r.NulFree := by
  constructor
  · intro destined domain
    obtain ⟨host, service, same, -, resolved, -⟩ := destined.domain domain
    obtain ⟨cutHost, other, cutSame, -, cutResolved, -⟩ := asked.looksUp domain
    obtain ⟨rfl, -⟩ := by simpa using resolved.symm.trans cutResolved
    exact CString.noNul_of_octets_ofArray (cutSame.symm.trans same)
  · intro free
    refine ⟨fun ipv4 => asked.connectsTo (.inl ⟨ipv4, rfl⟩),
      fun ipv6 => asked.connectsTo (.inr ⟨ipv6, rfl⟩), fun domain => ?_⟩
    have whole : cut r.address = r.address :=
      CString.octets_ofArray_of_noNul (free domain)
    exact whole ▸ asked.looksUp domain

def Distinguished (r other : SocksRequest) (c after : Ctx) : Prop :=
  r.atyp = atypDomain → other.atyp = atypDomain → r.address ≠ other.address →
    ∀ left ∈ resolutions c.calls, ∀ right ∈ resolutions after.calls,
    left.1 ≠ right.1

theorem LooksUp.host {p : Ptr} {c : Ctx} {name : List UInt8} {port : Nat}
    (looksUp : LooksUp p c name port) {looked : CString × CString}
    (member : looked ∈ resolutions c.calls) : looked.1.octets = name := by
  obtain ⟨host, service, same, -, resolved, -⟩ := looksUp
  rw [resolved] at member
  rw [List.mem_singleton.mp member]
  exact same

/-- Two requests lead each to its own destination exactly when neither of them
asks for a name that has a NUL. -/
theorem destinations_exact {p q : Ptr} {r other : SocksRequest} {a b : Answers}
    {c after : Ctx} (asked : Asked p r a c) (also : Asked q other b after) :
    Destined p r a c ∧ Destined q other b after ∧
      Distinguished r other c after ↔
      r.NulFree ∧ other.NulFree := by
  rw [asked.destined_iff, also.destined_iff]
  constructor
  · rintro ⟨free, alsoFree, -⟩
    exact ⟨free, alsoFree⟩
  · rintro ⟨free, alsoFree⟩
    refine ⟨free, alsoFree, ?_⟩
    intro domain alsoDomain differ left looked right alsoLooked same
    have name := ((asked.destined_iff.mpr free).domain domain).host looked
    have alsoName :=
      ((also.destined_iff.mpr alsoFree).domain alsoDomain).host alsoLooked
    exact differ
      (name.symm.trans ((congrArg CString.octets same).trans alsoName))

/-- `host:port`. -/
def endpoint (host : List UInt8) (port : Nat) : List UInt8 :=
  host ++ 58 :: decimal port

def SockAddr.endpoint (address : SockAddr) : List UInt8 :=
  match address.family with
  | .inet | .inet6 =>
      SocksProxy.endpoint (inetNtop address.family address.addr).octets
        address.port
  | .other _ => (CString.ofString "unknown:").octets

/-- The destination of a request; a name is printed up to its first NUL. -/
def SocksRequest.endpoint (r : SocksRequest) : List UInt8 :=
  if r.atyp = atypIpv4 then SockAddr.endpoint ⟨.inet, r.address, r.port⟩
  else if r.atyp = atypIpv6 then SockAddr.endpoint ⟨.inet6, r.address, r.port⟩
  else SocksProxy.endpoint (cut r.address) r.port

theorem octets_endpoint (host : CString) (port : Nat) :
    ((host.append (.ofString ":")).append (.ofNat port)).octets =
      endpoint host.octets port := by
  change (host.octets ++ [58]) ++ (CString.ofNat port).octets = _
  rw [octets_ofNat, List.append_assoc]
  rfl

theorem octets_sockaddrToHuman (address : SockAddr) :
    (sockaddrToHuman address).octets = address.endpoint := by
  unfold sockaddrToHuman SockAddr.endpoint
  cases address.family with
  | other => rfl
  | _ => exact octets_endpoint ..

def RequestParser.host (q : RequestParser) : CString :=
  if q.atyp = atypIpv4 then inetNtop .inet (q.addr.take 4)
  else if q.atyp = atypIpv6 then inetNtop .inet6 (q.addr.take 16)
  else (CString.ofArray q.addr).truncate 255

theorem processRequest_keeps (key : Key) (a : Answers) (c : Ctx) :
    ((processRequest key a c).1.calls = c.calls ∧
        (processRequest key a c).2 = .requestWrite) ∨
      (c.s.request.cmd = cmdConnect ∧
        (processRequest key a c).1.s.destHost = c.s.request.host ∧
        (processRequest key a c).1.s.destPort = c.s.request.port) := by
  have started (c : Ctx) :
      (startConnection key a c).1.s.destHost = c.s.destHost ∧
        (startConnection key a c).1.s.destPort = c.s.destPort := by
    have kept := startConnection_kept key a c
    exact ⟨congrArg (fun kept => kept.1.1) kept, congrArg Prod.snd kept⟩
  unfold processRequest
  dsimp only
  split
  next => exact .inl ⟨rfl, rfl⟩
  next connect =>
    have connect : c.s.request.cmd = cmdConnect := not_not.mp connect
    split
    next ipv4 =>
      refine .inr ⟨connect, (started _).1.trans ?_, (started _).2⟩
      exact (if_pos ipv4).symm
    next notIpv4 =>
      split
      next ipv6 =>
        refine .inr ⟨connect, (started _).1.trans ?_, (started _).2⟩
        exact ((if_neg notIpv4).trans (if_pos ipv6)).symm
      next notIpv6 =>
        have named : c.s.request.host =
            (CString.ofArray c.s.request.addr).truncate 255 :=
          (if_neg notIpv4).trans (if_neg notIpv6)
        unfold dnsResolveAsync
        split
        next =>
          cases a.thread <;> exact .inr ⟨connect, named.symm, rfl⟩
        next => exact .inl ⟨rfl, rfl⟩

theorem RequestParser.Holds.endpoint {q : RequestParser} {r : SocksRequest}
    (holds : q.Holds r) :
    SocksProxy.endpoint q.host.octets q.port = r.endpoint := by
  unfold RequestParser.host SocksRequest.endpoint
  rw [holds.atyp, holds.port]
  rcases r.sized with ⟨ipv4, four⟩ | ⟨ipv6, sixteen⟩ | ⟨domain, -, bound⟩
  · rw [if_pos ipv4, if_pos ipv4, r.take_address holds four]
    rfl
  · rw [if_neg (by rw [ipv6]; decide), if_pos ipv6,
      if_neg (by rw [ipv6]; decide),
      if_pos ipv6, r.take_address holds sixteen]
    rfl
  · rw [if_neg (by rw [domain]; decide), if_neg (by rw [domain]; decide),
      if_neg (by rw [domain]; decide), if_neg (by rw [domain]; decide)]
    have short : (cut r.address).length ≤ 255 :=
      (List.takeWhile_sublist _).length_le.trans bound
    change SocksProxy.endpoint ((CString.ofArray q.addr).octets.take 255) _ = _
    rw [r.ofArray_address holds domain, List.take_of_length_le short]

/-- The connection was asked to connect, and logs the destination of its
request. -/
def BoundFor (s : Socks5) (t : List Call) : Prop :=
  ∃ r rest sent, Opened s.clientFd t (SocksRequest.encode r ++ rest) sent ∧
    r.cmd = cmdConnect ∧ (destString s).octets = r.endpoint

def Unreached (t : List Call) : Prop := ∀ made ∈ t, ¬ made.reaching

theorem Unreached.append {left right : List Call} (one : Unreached left)
    (two : Unreached right) : Unreached (left ++ right) := by
  intro made member
  rcases List.mem_append.mp member with early | late
  · exact one made early
  · exact two made late

theorem BoundFor.extend {s next : Socks5} {t : List Call} (bound : BoundFor s t)
    (more : List Call) (clientFd : next.clientFd = s.clientFd)
    (kept : next.kept = s.kept) : BoundFor next (t ++ more) := by
  obtain ⟨r, rest, sent, opened, connect, same⟩ := bound
  have extended := opened.extend more
  rw [List.append_assoc] at extended
  have host : next.destHost = s.destHost := congrArg (fun kept => kept.1.1) kept
  have port : next.destPort = s.destPort := congrArg Prod.snd kept
  refine ⟨r, _, _, clientFd ▸ extended, connect, ?_⟩
  rw [destString, host, port]
  exact same

/-- What is known of the destination in each state. -/
def Aimed (s : Socks5) (t : List Call) : Prop :=
  match s.state with
  | .requestResolv | .requestConnecting => BoundFor s t
  | .requestWrite | .copy | .done | .errorState => Unreached t ∨ BoundFor s t
  | _ => Unreached t

theorem BoundFor.aimed {s : Socks5} {t : List Call} (bound : BoundFor s t)
    (asked : s.state.asked = true) : Aimed s t := by
  unfold Aimed
  cases st : s.state <;> rw [st] at asked
  case requestResolv | requestConnecting => exact bound
  case requestWrite | copy | done | errorState => exact .inr bound
  all_goals cases asked

theorem Unreached.aimed {s : Socks5} {t : List Call} (unreached : Unreached t)
    (elsewhere : s.state ≠ .requestResolv ∧ s.state ≠ .requestConnecting) :
    Aimed s t := by
  unfold Aimed
  cases st : s.state <;> rw [st] at elsewhere
  case requestResolv => exact absurd rfl elsewhere.1
  case requestConnecting => exact absurd rfl elsewhere.2
  case requestWrite | copy | done | errorState => exact .inl unreached
  all_goals exact unreached

theorem unreached_of_unasked {kind : EventKind} {key : Key} {a : Answers}
    {c : Ctx} {st : SocksState} {handler : Handler} {result : Ctx × SocksState}
    (unasked : st.asked = false) (elsewhere : st ≠ .requestRead)
    (called : c.calls = []) (serves : Serves st kind handler)
    (ran : handler key a c = some result) : Unreached result.1.calls := by
  obtain ⟨more, added, may⟩ := handler_makes serves ran
  rw [added, called, List.nil_append]
  intro made member reaching
  have may := may made member
  have outside : made.reads ∨ made.negotiates ∨ made.writes := by
    cases st with
    | helloRead | authRead => exact may.elim .inl fun made => .inr (.inl made)
    | helloWrite | authWrite => exact .inr (.inr may)
    | requestRead => exact absurd rfl elsewhere
    | _ => cases unasked
  cases made <;>
    simp [Call.reads, Call.negotiates, Call.writes, Call.reaching]
    at outside reaching

theorem unreached_of_answered {kind : EventKind} {key : Key} {a : Answers}
    {c : Ctx} {st : SocksState} {handler : Handler} {result : Ctx × SocksState}
    (answered : st = .requestWrite ∨ st = .copy) (called : c.calls = [])
    (serves : Serves st kind handler) (ran : handler key a c = some result) :
    Unreached result.1.calls := by
  obtain ⟨more, added, may⟩ := handler_makes serves ran
  rw [added, called, List.nil_append]
  intro made member reaching
  have may := may made member
  rcases answered with rfl | rfl <;> cases made <;>
    simp [SocksState.mayCall, Call.reads, Call.writes, Call.relays,
      Call.reaching] at may reaching

/-- A request that was parsed is answered at once, or its destination is
kept. -/
theorem requestCompleted_keeps (key : Key) (a : Answers) (c : Ctx) :
    ((requestCompleted key a c).1.calls = c.calls ∧
        (requestCompleted key a c).2 = .requestWrite) ∨
      (c.s.request.state ≠ .error ∧ c.s.request.cmd = cmdConnect ∧
        (requestCompleted key a c).1.s.destHost = c.s.request.host ∧
        (requestCompleted key a c).1.s.destPort = c.s.request.port) := by
  unfold requestCompleted
  dsimp only
  split
  next => exact .inl ⟨rfl, rfl⟩
  next parsed =>
    rcases processRequest_keeps key a (c.setInterest c.s.clientFd opNoop).1 with
      answered | keeps
    · exact .inl answered
    · exact .inr ⟨parsed, keeps⟩

theorem requestCompleted_next (key : Key) (a : Answers) (c : Ctx) :
    (requestCompleted key a c).2 = .requestResolv ∨
      (requestCompleted key a c).2 = .requestConnecting ∨
      (requestCompleted key a c).2 = .requestWrite := by
  unfold requestCompleted
  dsimp only
  split
  next => exact .inr (.inr rfl)
  next =>
    rcases processRequest_next key a _ with same | same | same
    · exact .inl same
    · exact .inr (.inr same)
    · exact .inr (.inl same)

theorem handled_request {kind : EventKind} {key : Key} {a : Answers}
    {c after middle : Ctx} {next : SocksState}
    (handled : Handled kind key a c after middle next) :
    after.s.request = middle.s.request := by
  obtain ⟨references, object⟩ := handled.closes.object
  rw [object]
  change (jump key a next middle).s.request = _
  rw [jump_s]
  split
  · rfl
  · cases next <;> rfl

theorem bound_of_exchanged {s : Socks5} {t : List Call} {q : RequestParser}
    (exchanged : Exchanged s t) (same : s.request = q)
    (parsed : q.state ≠ .error) (connect : q.cmd = cmdConnect)
    (host : s.destHost = q.host) (port : s.destPort = q.port)
    (follows : s.state = .requestResolv ∨ s.state = .requestConnecting ∨
      s.state = .requestWrite) : BoundFor s t := by
  have ⟨received, sent, opened, r, split, holds⟩ :
      ∃ received sent, Opened s.clientFd t received sent ∧
        Requested s received := by
    unfold Exchanged at exchanged
    rcases follows with st | st | st <;> simp only [st] at exchanged
    · obtain ⟨received, opened, requested⟩ := exchanged
      exact ⟨received, [], opened, requested⟩
    · obtain ⟨received, opened, requested⟩ := exchanged
      exact ⟨received, [], opened, requested⟩
    · obtain ⟨received, sent, _, opened, -, -, -, requested⟩ := exchanged
      exact ⟨received, sent, opened, requested (.inr (same ▸ parsed))⟩
  rw [same] at holds
  refine ⟨r, _, sent, split ▸ opened, holds.cmd.symm.trans connect, ?_⟩
  rw [destString, octets_endpoint, host, port]
  exact holds.endpoint

theorem requestRead_aims {kind : EventKind} {key : Key} {a : Answers}
    {c after middle : Ctx} {next : SocksState} {t : List Call}
    (called : c.calls = []) (reading : c.s.state = .requestRead)
    (unreached : Unreached t) (handled : Handled kind key a c after middle next)
    (exchanged : Exchanged after.s (t ++ after.calls)) :
    Aimed after.s (t ++ after.calls) := by
  obtain ⟨handler, serves, ran⟩ := handled.runs
  have calls : after.calls = middle.calls :=
    handled.closes.calls.trans (jump_calls ..)
  have stated := handled.state
  rw [reading] at serves
  cases serves
  have effect := requestRead_effect key a c.started
  rw [eq_of_total ran] at effect
  generalize reached : (middle, next) = result at effect
  have silent (quiet : Unreached middle.calls)
      (elsewhere : next ≠ .requestResolv ∧ next ≠ .requestConnecting) :
      Aimed after.s (t ++ after.calls) := by
    refine Unreached.aimed ?_ (stated ▸ elsewhere)
    rw [calls]
    exact unreached.append quiet
  have opening (made : Call) (outside : ¬ made.reaching) :
      Unreached (c.started.calls ++ [made]) := by
    rw [show c.started.calls = [] from called]
    simpa [Unreached] using outside
  have parsing (octets : List UInt8) :
      Unreached (c.started.calls ++ [.recv c.started.s.clientFd octets] ++
        [.requestParserConsume]) :=
    (opening _ id).append (by simp [Unreached, Call.reaching])
  cases effect with
  | again e =>
      obtain ⟨rfl, rfl⟩ := Prod.mk.inj reached
      exact silent (opening _ id) (by simp)
  | failed e =>
      obtain ⟨rfl, rfl⟩ := Prod.mk.inj reached
      exact silent (opening _ id) (by simp)
  | closed =>
      obtain ⟨rfl, rfl⟩ := Prod.mk.inj reached
      exact silent (opening _ id) (by simp)
  | @partly octets =>
      obtain ⟨rfl, rfl⟩ := Prod.mk.inj reached
      exact silent (parsing octets) (by simp)
  | @completed octets rest q buffer =>
      change (middle, next) =
        requestCompleted key a (parsedCtx c.started octets q buffer) at reached
      have keeps :=
        requestCompleted_keeps key a (parsedCtx c.started octets q buffer)
      have follows :=
        requestCompleted_next key a (parsedCtx c.started octets q buffer)
      have reaches := (requestCompleted_reaches key a
        (parsedCtx c.started octets q buffer)).1.object
      rw [← reached] at keeps follows reaches
      rcases keeps with ⟨quiet, answered⟩ | ⟨parsed, connect, host, port⟩
      · change next = .requestWrite at answered
        refine silent ?_ (by simp [answered])
        exact quiet ▸ parsing octets
      · obtain ⟨_, _, _, _, _, _, _, _, _, object⟩ := reaches
        have kept := handled_kept handled
        have request : after.s.request = q :=
          (handled_request handled).trans (congrArg Socks5.request object)
        have bound := bound_of_exchanged exchanged request parsed connect
          ((congrArg (fun kept => kept.1.1) kept).trans host)
          ((congrArg Prod.snd kept).trans port) (stated ▸ follows)
        refine bound.aimed ?_
        rw [stated]
        rcases follows with same | same | same <;>
          · change next = _ at same
            rw [same]
            rfl

theorem aimed_handled {kind : EventKind} {key : Key} {a : Answers} {env : Env}
    {s : Socks5} {after middle : Ctx} {next : SocksState} {t : List Call}
    (aimed : Aimed s t)
    (handled : Handled kind key a ⟨env, s, [], false⟩ after middle next)
    (clientFd : after.s.clientFd = s.clientFd)
    (exchanged : Exchanged after.s (t ++ after.calls)) :
    Aimed after.s (t ++ after.calls) := by
  by_cases reading : s.state = .requestRead
  · unfold Aimed at aimed
    rw [reading] at aimed
    exact requestRead_aims rfl reading aimed handled exchanged
  obtain ⟨handler, serves, ran⟩ := handled.runs
  have calls : after.calls = middle.calls :=
    handled.closes.calls.trans (jump_calls ..)
  have follows := handler_next serves ran
  have stated := handled.state
  have unmoved (unreached : Unreached t) (quiet : Unreached middle.calls)
      (elsewhere : next ≠ .requestResolv ∧ next ≠ .requestConnecting) :
      Aimed after.s (t ++ after.calls) := by
    refine Unreached.aimed ?_ (stated ▸ elsewhere)
    rw [calls]
    exact unreached.append quiet
  have further (asked : s.state.asked = true) (bound : BoundFor s t) :
      Aimed after.s (t ++ after.calls) := by
    obtain ⟨looked, still⟩ := handler_looked asked serves ran
    have kept := (handled_kept handled).trans looked.kept
    exact (bound.extend after.calls clientFd kept).aimed (stated ▸ still)
  unfold Aimed at aimed
  cases st : s.state <;> simp only [st] at aimed reading further
  case requestRead => exact absurd trivial reading
  case requestResolv | requestConnecting => exact further rfl aimed
  case done | errorState =>
    rw [show (Ctx.s ⟨env, s, [], false⟩).state = _ from st] at serves
    cases serves
  case requestWrite | copy =>
    rcases aimed with unreached | bound
    · rw [show (Ctx.s ⟨env, s, [], false⟩).state = _ from st] at serves follows
      refine unmoved unreached
        (unreached_of_answered (by simp) rfl serves ran) ?_
      revert follows
      cases next <;> simp [SocksState.successors]
    · exact further rfl bound
  all_goals
    rw [show (Ctx.s ⟨env, s, [], false⟩).state = _ from st] at serves follows
    refine unmoved aimed (unreached_of_unasked rfl (by simp) rfl serves ran) ?_
    revert follows
    cases next <;> simp [SocksState.successors]

/-- A connection that has reached for an origin logs the destination of a
CONNECT request that it received. -/
theorem aimed_of_run {p : Ptr} {first s : Socks5} {labels : List (List Call)}
    (accepted : Accepted first) (run : (connection p).Run first labels s) :
    Aimed s labels.flatten := by
  induction run with
  | nil =>
      obtain ⟨config, clientFd, blocks, old, prepared, address, made, rfl⟩ :=
        accepted
      obtain ⟨rawRead, rawWrite, readBlock, writeBlock, rfl⟩ := prepare_eq made
      exact fun made member => absurd member List.not_mem_nil
  | @snoc middle last labels calls before step induction =>
      have run := before.snoc step
      have same : last.clientFd = middle.clientFd :=
        (progress_of_run accepted run).clientFd.trans
          (progress_of_run accepted before).clientFd.symm
      have exchanged := exchanged_of_run accepted run
      rw [List.flatten_append, List.flatten_singleton] at exchanged ⊢
      cases step with
      | resolved answer =>
          rw [List.append_nil]
          exact induction
      | handled hosts runs =>
          obtain ⟨_, _, handled⟩ := handled_of_handler runs
          exact aimed_handled induction handled same exchanged

private def resolving : Answers := { Answers.idle with thread := true }

private def nameRequest (name : List UInt8)
    (sized : name.length = 3 ∨ name.length = 1) :
    SocksRequest :=
  ⟨cmdConnect, atypDomain, name, 0, 80, .inr (.inr ⟨rfl, by omega, by omega⟩)⟩

private theorem asked_of_asking {r : SocksRequest} {labels : List (List Call)}
    {s : Socks5} {c : Ctx}
    (asked : asking resolving (r.encode ++ []) = some (labels, s, c))
    (reading : s.state = .requestRead)
    (arrives : receivedFrom s.clientFd c.calls ≠ [])
    (received : receivedFrom s.clientFd (labels.flatten ++ c.calls) =
      helloMessage [methodNoAuth] ++ (r.encode ++ []))
    (sent : sentTo s.clientFd (labels.flatten ++ c.calls) =
      [0x05, methodNoAuth] ++ []) (connect : r.cmd = cmdConnect) :
    Asked 0 r { resolving with recv := .ready (r.encode ++ []) } c := by
  obtain ⟨run, runs⟩ := run_of_asking asked
  exact .intro (accepted_fresh _ _) run reading runs arrives
    ⟨_, _, @Opening.noAuth [methodNoAuth] (by decide), received, sent⟩ connect

private theorem asked_name (name : List UInt8)
    (sized : name.length = 3 ∨ name.length = 1)
    (expected : (asking resolving ((nameRequest name sized).encode ++ [])).any
      (fun (labels, s, c) => decide (s.state = .requestRead ∧
        receivedFrom s.clientFd c.calls ≠ [] ∧
        receivedFrom s.clientFd (labels.flatten ++ c.calls) =
          helloMessage [methodNoAuth] ++
            ((nameRequest name sized).encode ++ []) ∧
        sentTo s.clientFd (labels.flatten ++ c.calls) = [0x05, methodNoAuth] ++
          [])) = true) :
    ∃ c, Asked 0 (nameRequest name sized)
      { resolving with recv := .ready ((nameRequest name sized).encode ++ []) }
        c := by
  obtain ⟨⟨labels, s, c⟩, asked, facts⟩ := (Option.any_eq_true ..).mp expected
  obtain ⟨reading, arrives, received, sent⟩ := of_decide_eq_true facts
  exact ⟨c, asked_of_asking asked reading arrives received sent rfl⟩

theorem destinations_exact_name :
    ∃ r a c, r.address = [97] ∧ Destined 0 r a c := by
  obtain ⟨c, asked⟩ := asked_name [97] (.inr rfl) (by decide +kernel)
  have free : (nameRequest [97] (.inr rfl)).NulFree := by
    intro _ nul
    simp [nameRequest] at nul
  exact ⟨_, _, c, rfl, ((destinations_exact asked asked).mpr ⟨free, free⟩).1⟩

/-- The names "a" and "a\0b" are looked up alike. -/
theorem destinations_exact_nul :
    ∃ r other a b c after, Asked 0 r a c ∧ Asked 0 other b after ∧
      r.address = [97, 0, 98] ∧ other.address = [97] ∧ ¬ Destined 0 r a c ∧
      ¬ Distinguished r other c after := by
  obtain ⟨c, asked⟩ := asked_name [97, 0, 98] (.inl rfl) (by decide +kernel)
  obtain ⟨after, also⟩ := asked_name [97] (.inr rfl) (by decide +kernel)
  refine ⟨_, _, _, _, c, after, asked, also, rfl, rfl, ?_, ?_⟩
  · intro destined
    obtain ⟨host, -, name, -⟩ := destined.domain rfl
    exact host.noNul (by rw [name]; simp [nameRequest])
  · intro distinguished
    obtain ⟨host, service, name, -, resolved, -⟩ := asked.looksUp rfl
    obtain ⟨alsoHost, alsoService, alsoName, -, alsoResolved, -⟩ :=
      also.looksUp rfl
    have same : host = alsoHost := CString.ext_octets (name.trans alsoName.symm)
    exact distinguished rfl rfl (by simp [nameRequest]) (host, service)
      (by rw [resolved]; exact List.mem_singleton_self _)
      (alsoHost, alsoService)
      (by rw [alsoResolved]; exact List.mem_singleton_self _) same

end SocksProxy
