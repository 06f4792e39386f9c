import SocksProxy.Socks5.Foresight

/-! How the kernel cuts the octets of the handshake, and what the client sees of
it. -/

namespace SocksProxy

open Scanner Transition

/-- A connection in its handshake, and the octets that its client has sent and
that no `recv` has returned. -/
structure Delivery where
  s : Socks5
  left : List UInt8

/-- A step as it is noted: where it began, the calls it made, and what the
client saw of it. -/
structure Passage where
  before : Delivery
  calls : List Call
  marks : List Mark

/-- The client does not close and nothing fails for good, so that only a `recv`
into a full buffer returns no octets. -/
def Delivery.Serves (d : Delivery) : Call → Prop
  | .recv _ octets =>
      octets = [] → d.s.readBuffer.space = 0 ∧ d.left ≠ []
  | .recvFailed _ e | .sendFailed _ e => wouldBlock e = true
  | _ => True

instance (d : Delivery) : DecidablePred d.Serves
  | .recv _ octets =>
      inferInstanceAs
        (Decidable (octets = [] → d.s.readBuffer.space = 0 ∧ d.left ≠ []))
  | .recvFailed _ e | .sendFailed _ e =>
      inferInstanceAs (Decidable (wouldBlock e = true))
  | .send .. | .shutdown _ | .chooseMethod .. | .usersCheck ..
  | .requestParserConsume | .dnsResolveAsync .. | .startConnection
  | .connect .. | .loggerAccess _ | .pop3SnifferFeed _ | .loggerPop3 _ =>
      inferInstanceAs (Decidable True)

/-- One step of a delivery under the results `w`, while the relay has not
begun. -/
inductive DeliveryStep (p : Ptr) (w : Results) (d : Delivery) :
    Passage → Delivery → Prop
  | handled {kind : EventKind} {fd : Fd} {a : Answers} {env : Env} {c : Ctx}
      {left : List UInt8} (handshake : d.s.state ≠ .copy)
      (hosts : Hosts p env d.s)
      (runs : socksv5Handler kind ⟨fd, p⟩ a ⟨env, d.s, [], false⟩ = some c)
      (gives : w.Gives ⟨fd, p⟩ a (Ctx.started ⟨env, d.s, [], false⟩))
      (serves : ∀ made ∈ c.calls, d.Serves made)
      (delivers : d.left = receivedFrom d.s.clientFd c.calls ++ left) :
      DeliveryStep p w d
        ⟨d, c.calls, (sentTo d.s.clientFd c.calls).map .sent ++
          enters d.s.state c.s.state⟩
        ⟨c.s, left⟩
  | resolved :
      DeliveryStep p w d ⟨d, [], []⟩
        ⟨{ d.s with dns :=
          { d.s.dns with
            result := w.answer.result
            status := w.answer.status } }, d.left⟩

def delivery (p : Ptr) (w : Results) : System Delivery Passage where
  init d := Accepted d.s
  step := DeliveryStep p w

/-- What the client saw, in order. -/
def marks (t : List Passage) : List Mark := t.flatMap Passage.marks

def Call.starves : Call → Bool
  | .recv _ octets => octets.isEmpty
  | _ => false

/-- What follows the HELLO is no AUTH, and ends the connection anyway. -/
def Delivery.refused (d : Delivery) : Bool :=
  let scanned := scan authParserFeed AuthParser.finished d.s.auth
    (d.s.readBuffer.content ++ d.left)
  d.s.state == .authRead && scanned.2.2 && scanned.1.state == .error

/-- No `recv` finds the read buffer full, where that matters. -/
def Passage.Roomy (passage : Passage) : Prop :=
  ∀ made ∈ passage.calls, made.starves = true → passage.before.refused = true

def Roomy (t : List Passage) : Prop := ∀ passage ∈ t, passage.Roomy

instance (passage : Passage) : Decidable passage.Roomy :=
  inferInstanceAs (Decidable (∀ made ∈ passage.calls, _ → _))

instance (t : List Passage) : Decidable (Roomy t) :=
  inferInstanceAs (Decidable (∀ passage ∈ t, passage.Roomy))

/-- Nothing is enabled before the client sends more, or the handshake is
over. -/
def Delivery.Resting (d : Delivery) : Prop :=
  d.left = [] ∧ (d.s.state = .helloRead ∨ d.s.state = .authRead ∨
    d.s.state = .requestRead) ∨ d.s.state = .copy ∨ d.s.state.closing

/-- The state that a reply leads to, once it is sent. -/
def Socks5.onward (s : Socks5) : SocksState → SocksState
  | .helloWrite =>
      if s.method = methodNone then .done
      else if s.method = methodUserpass then .authRead
      else .requestRead
  | .authWrite => if s.authOk then .requestRead else .done
  | st => st

/-- The parser of a state stops on what the read buffer holds. -/
def Socks5.holdsFor (s : Socks5) : SocksState → Bool
  | .authRead =>
      (scan authParserFeed AuthParser.finished s.auth
        s.readBuffer.content).2.2
  | .requestRead =>
      (scan requestParserFeed RequestParser.finished s.request
        s.readBuffer.content).2.2
  | _ => false

/-- The message that comes next is in the read buffer, and nothing is to come
after it. -/
def Delivery.Missed (d : Delivery) : Prop :=
  d.left = [] ∧ d.s.holdsFor (d.s.onward d.s.state) = true

/-- It is there before the reply to the last one is sent. -/
def Delivery.Overlooks (d : Delivery) : Prop :=
  (d.s.state = .helloWrite ∨ d.s.state = .authWrite) ∧ d.Missed

/-- Every message is read, whatever came with it. -/
def Heard (t : List Passage) : Prop :=
  Roomy t ∧ ∀ passage ∈ t, ¬ passage.before.Overlooks

instance (d : Delivery) : Decidable d.Overlooks :=
  inferInstanceAs (Decidable ((_ ∨ _) ∧ _ ∧ _))

instance (t : List Passage) : Decidable (Heard t) :=
  inferInstanceAs (Decidable (_ ∧ ∀ passage ∈ t, ¬ _))

section Runs

variable {p : Ptr} {w : Results} {d e : Delivery} {t u : List Passage}

theorem run_of_delivery (run : (delivery p w).Run d t e) :
    (connection p).Run d.s (t.map Passage.calls) e.s := by
  induction run with
  | nil => exact .nil _
  | snoc before step induction =>
      rw [List.map_append]
      refine induction.append (.single ?_)
      cases step with
      | handled handshake hosts runs => exact .handled hosts runs
      | resolved => exact .resolved w.answer

/-- The octets still to be read begin with what is in the read buffer. -/
def Delivery.foreseen (w : Results) (d : Delivery) : List Mark :=
  w.foreseen d.s.state d.s (d.s.readBuffer.content ++ d.left)

theorem foreseen_steady {passage : Passage} (spacious : Spacious d.s)
    (landed : Landed d.s.state d.s)
    (step : (delivery p w).step d passage e)
    (fed : ∀ made ∈ passage.calls, made.starves = false) :
    d.foreseen w = passage.marks ++ e.foreseen w := by
  cases step with
  | resolved =>
      have kept (st : SocksState) (dns : DnsRequest) (stream : List UInt8) :
          w.foreseen st { d.s with dns := dns } stream =
            w.foreseen st d.s stream := by
        cases st <;> rfl
      exact (kept ..).symm
  | @handled kind fd a env c left handshake hosts runs gives serves delivers =>
      have steady : ∀ made ∈ c.calls, made.Steady := by
        intro made member
        have served := serves made member
        cases made with
        | recv fd octets =>
            rintro rfl
            exact absurd (fed _ member) (by simp [Call.starves])
        | recvFailed => exact served
        | sendFailed => exact served
        | _ => trivial
      have foreseen := Results.foreseen_call runs handshake hosts.client
        spacious.2 landed rfl gives steady left
      unfold Delivery.foreseen
      rw [delivers, List.append_assoc]
      exact foreseen

theorem starves_of_aside {made : Call} (aside : made.aside) :
    made.starves = false := by
  cases made with
  | recv => exact absurd trivial aside.1
  | _ => rfl

theorem starved_read {Parser : Type} {feed : Parser → UInt8 → Parser}
    {finished : Parser → Bool} {parser : Parser}
    {store : Ctx → Parser → Buffer → Ctx} {self : SocksState}
    {complete : Ctx → Ctx × SocksState} {c : Ctx} {result : Ctx × SocksState}
    (effect : ReadEffect feed finished parser store self complete c result)
    (called : c.calls = [])
    (stores : ∀ c q buffer, Makes Call.aside c (store c q buffer))
    (finishes : ∀ c, Makes Call.aside c (complete c).1)
    (starves : ∃ made ∈ result.1.calls, made.starves = true) :
    result = (c.call (.recv c.s.clientFd []), .errorState) := by
  have fed {octets : List UInt8} {last : Ctx} (some : octets ≠ [])
      (makes : Makes Call.aside (c.call (.recv c.s.clientFd octets)) last) :
      ∀ made ∈ last.calls, made.starves = false := by
    obtain ⟨more, calls, aside⟩ := makes
    intro made member
    rw [calls, Ctx.call_calls, called] at member
    rcases List.mem_append.mp member with received | later
    · obtain rfl := List.mem_singleton.mp received
      exact List.isEmpty_eq_false_iff.mpr some
    · exact starves_of_aside (aside made later)
  obtain ⟨made, member, starving⟩ := starves
  cases effect with
  | again e | failed e =>
      rw [Ctx.call_calls, called] at member
      obtain rfl := List.mem_singleton.mp member
      cases starving
  | closed => rfl
  | partly some =>
      exact absurd (starving.symm.trans (fed some (stores ..) made member))
        (by simp)
  | completed some =>
      have full := fed some ((stores ..).trans (finishes _)) made member
      exact absurd (starving.symm.trans full) (by simp)

/-- A call that finds the read buffer full takes it for the end of the
stream. -/
structure Starved (c after : Ctx) : Prop where
  reading : c.s.state = .helloRead ∨ c.s.state = .authRead ∨
    c.s.state = .requestRead
  unsent : sentTo c.s.clientFd after.calls = []
  failed : after.s.state = .errorState

theorem mayCall_reads {st : SocksState} {made : Call} (calls : st.mayCall made)
    (reads : made.reads) :
    (st = .helloRead ∨ st = .authRead ∨ st = .requestRead) ∨ st = .copy := by
  cases made with
  | recv | recvFailed =>
      cases st <;>
        simp [SocksState.mayCall, Call.writes, Call.reaching] at calls ⊢
  | _ => cases reads

theorem starved_call {kind : EventKind} {key : Key} {a : Answers}
    {c after : Ctx} (runs : socksv5Handler kind key a c = some after)
    (elsewhere : c.s.state ≠ .copy) (called : c.calls = [])
    (starves : ∃ made ∈ after.calls, made.starves = true) :
    Starved c after := by
  obtain ⟨middle, next, handled⟩ := handled_of_handler runs
  obtain ⟨handler, serves, ran⟩ := handled.runs
  have calls : after.calls = middle.calls :=
    handled.closes.calls.trans (jump_calls ..)
  rw [calls] at starves
  have reading : c.s.state = .helloRead ∨ c.s.state = .authRead ∨
      c.s.state = .requestRead := by
    obtain ⟨more, made, makes⟩ := handler_makes serves ran
    obtain ⟨starving, member, full⟩ := starves
    have member : starving ∈ [] ++ more := called ▸ made ▸ member
    have reads : starving.reads := by
      cases starving with
      | recv => trivial
      | _ => cases full
    exact (mayCall_reads (makes _ member) reads).resolve_right elsewhere
  have ends (failed : (middle, next) =
      (c.started.call (.recv c.s.clientFd []), .errorState)) :
      Starved c after := by
    obtain ⟨rfl, rfl⟩ := Prod.mk.inj failed
    refine ⟨reading, ?_, handled.state⟩
    rw [calls, Ctx.call_calls, sentTo_append]
    change sentTo _ c.calls ++ [] = []
    rw [called]
    rfl
  rcases reading with state | state | state
  · rw [state] at serves
    cases serves
    have effect := helloRead_effect key a c.started
    rw [eq_of_total ran] at effect
    exact ends (starved_read effect called (fun _ _ _ => .none rfl)
      (fun _ => Results.helloCompleted_aside) starves)
  · rw [state] at serves
    cases serves
    have effect := authRead_effect key a c.started
    rw [eq_of_total ran] at effect
    exact ends (starved_read effect called (fun _ _ _ => .none rfl)
      (fun _ => Results.authCompleted_aside) starves)
  · rw [state] at serves
    cases serves
    have effect := requestRead_effect key a c.started
    rw [eq_of_total ran] at effect
    exact ends (starved_read effect called (fun _ _ _ => .one rfl ⟨id, id⟩)
      (fun _ => Results.requestCompleted_aside) starves)

theorem helloCompleted_next (c : Ctx) :
    (helloCompleted c).2 = .helloWrite ∨
      (helloCompleted c).2 = .errorState := by
  unfold helloCompleted
  dsimp only
  split
  · exact .inr rfl
  · exact setInterestOrFail_next _ _ _

/-- What is received in HELLO_READ is read at once. -/
def Socks5.Drained (s : Socks5) : Prop :=
  s.state = .helloRead → s.readBuffer.content = [] ∧ s.readBuffer.Rewound

theorem drained_step {s next : Socks5} {calls : List Call}
    (drained : s.Drained) (step : ConnectionStep p s calls next) :
    next.Drained := by
  intro greeting
  cases step with
  | resolved answer => exact drained greeting
  | @handled kind fd a env c hosts runs =>
      obtain ⟨middle, next, handled⟩ := handled_of_handler runs
      obtain ⟨handler, serves, ran⟩ := handled.runs
      have same : next = .helloRead := handled.state.symm.trans greeting
      subst same
      have entered := handled.stays (by simp [SocksState.closing])
      rw [entered, jump_plain (by simp) (by simp)]
      change middle.s.readBuffer.content = [] ∧ middle.s.readBuffer.Rewound
      have follows : SocksState.helloRead ∈ s.state.successors :=
        handler_next serves ran
      have state : s.state = .helloRead := by
        cases st : s.state <;> simp [st, SocksState.successors] at follows ⊢
      rw [show (Ctx.s ⟨env, s, [], false⟩) = s from rfl, state] at serves
      cases serves
      have effect :=
        helloRead_effect ⟨fd, p⟩ a (Ctx.started ⟨env, s, [], false⟩)
      rw [eq_of_total ran] at effect
      generalize reached : (middle, SocksState.helloRead) = result at effect
      obtain rfl : middle = result.1 := congrArg Prod.fst reached
      have stays : result.2 = .helloRead := (congrArg Prod.snd reached).symm
      cases effect with
      | again e => exact drained state
      | failed e => cases stays
      | closed => cases stays
      | partly some fits scanned content limit rewound =>
          exact ⟨content, rewound⟩
      | completed =>
          exfalso
          rcases helloCompleted_next _ with other | other
          · cases stays.symm.trans other
          · cases stays.symm.trans other

theorem drained_of_run {first s : Socks5} {labels : List (List Call)}
    (accepted : Accepted first) (run : (connection p).Run first labels s) :
    s.Drained := by
  have preserved : ∀ {s calls next}, Socks5.Drained s →
      (connection p).step s calls next → next.Drained :=
    fun drained step => drained_step drained step
  refine run.invariant @preserved fun _ => ?_
  obtain ⟨config, clientFd, blocks, old, prepared, address, made, rfl⟩ :=
    accepted
  obtain ⟨rawRead, rawWrite, readBlock, writeBlock, rfl⟩ := prepare_eq made
  exact ⟨rfl, fun _ => rfl⟩

end Runs

section Waiting

/-- What says whether the next message is in the read buffer. -/
def Socks5.waiting (s : Socks5) :
    AuthParser × RequestParser × Buffer × UInt8 × Bool :=
  (s.auth, s.request, s.readBuffer, s.method, s.authOk)

theorem holdsFor_congr {s t : Socks5} (same : t.waiting = s.waiting)
    (st : SocksState) :
    t.holdsFor (t.onward st) = s.holdsFor (s.onward st) := by
  simp only [Socks5.waiting, Prod.mk.injEq] at same
  obtain ⟨auth, request, buffer, method, ok⟩ := same
  have onward : t.onward st = s.onward st := by
    cases st <;> simp only [Socks5.onward, method, ok]
  rw [onward]
  cases s.onward st <;> simp only [Socks5.holdsFor, auth, request, buffer]

theorem onward_of_holdsFor {s : Socks5} {st : SocksState}
    (holds : s.holdsFor st = true) : s.onward st = st := by
  cases st with
  | authRead | requestRead => rfl
  | _ => cases holds

/-- What a handler does to a message that waits in the read buffer. -/
structure Bears (st : SocksState) (c : Ctx) (result : Ctx × SocksState) :
    Prop where
  keeps (unread : receivedFrom c.s.clientFd result.1.calls = [])
    (fed : ∀ made ∈ result.1.calls, made.starves = false)
    (holds : c.s.holdsFor (c.s.onward st) = true) :
    result.1.s.holdsFor (result.1.s.onward result.2) = true
  brings (holds : result.1.s.holdsFor result.2 = true) :
    receivedFrom c.s.clientFd result.1.calls = [] ∧
      c.s.holdsFor (c.s.onward st) = true

variable {key : Key} {a : Answers} {c : Ctx} {result : Ctx × SocksState}
  {d : Delivery}

theorem bears_read {Parser : Type} {feed : Parser → UInt8 → Parser}
    {finished : Parser → Bool} {parser : Parser}
    {store : Ctx → Parser → Buffer → Ctx} {self : SocksState}
    {complete : Ctx → Ctx × SocksState}
    (effect : ReadEffect feed finished parser store self complete c result)
    (called : c.calls = []) (served : ∀ made ∈ result.1.calls, d.Serves made)
    (stays : c.s.onward self = self)
    (stores : ∀ c q buffer, Makes Call.aside c (store c q buffer))
    (drains : ∀ c q buffer, buffer.content = [] →
      (store c q buffer).s.holdsFor self = false)
    (finishes : ∀ c, Makes Call.aside c (complete c).1)
    (leaves : ∀ c, (complete c).1.s.holdsFor (complete c).2 = false) :
    Bears self c result := by
  have single := Ctx.call_single called
  have received {octets : List UInt8} {last : Ctx}
      (makes : Makes Call.aside (c.call (.recv c.s.clientFd octets)) last) :
      receivedFrom c.s.clientFd last.calls = octets := by
    rw [makes.receivedFrom, single, receivedFrom_recv]
  cases effect with
  | again e =>
      refine ⟨fun _ _ holds => holds, fun holds => ⟨?_, ?_⟩⟩
      · rw [single]
        rfl
      · rw [stays]
        exact holds
  | failed e hard =>
      have blocked : wouldBlock e = true :=
        served (.recvFailed c.s.clientFd e) (by rw [single]; simp)
      exact absurd (hard.symm.trans blocked) (by simp)
  | closed =>
      refine ⟨fun _ fed _ => ?_, fun holds => by cases holds⟩
      have starving := fed (.recv c.s.clientFd []) (by rw [single]; simp)
      cases starving
  | partly some fits scanned content =>
      refine ⟨fun unread => absurd unread ?_, fun holds => ?_⟩
      · rw [received (stores ..)]
        exact some
      · exact absurd (holds.symm.trans (drains _ _ _ content)) (by simp)
  | completed some =>
      refine ⟨fun unread => absurd unread ?_, fun holds => ?_⟩
      · rw [received ((stores ..).trans (finishes _))]
        exact some
      · exact absurd (holds.symm.trans (leaves _)) (by simp)

theorem bears_write {self : SocksState} {complete : Ctx → Ctx × SocksState}
    (effect : WriteEffect self complete c result) (called : c.calls = [])
    (served : ∀ made ∈ result.1.calls, d.Serves made)
    (writes : ∀ s : Socks5, s.holdsFor self = false)
    (finishes : ∀ c, Makes Call.aside c (complete c).1)
    (completes : ∀ flushed : Ctx, flushed.env = c.env →
      flushed.s.clientFd = c.s.clientFd →
      (complete flushed).1.s.holdsFor
          ((complete flushed).1.s.onward (complete flushed).2) =
        flushed.s.holdsFor (flushed.s.onward self)) :
    Bears self c result := by
  have single := Ctx.call_single called
  cases effect with
  | again e =>
      refine ⟨fun _ _ holds => holds, fun holds => ?_⟩
      exact absurd (holds.symm.trans (writes _)) (by simp)
  | failed e hard =>
      have blocked : wouldBlock e = true :=
        served (.sendFailed c.s.clientFd e) (by rw [single]; simp)
      exact absurd (hard.symm.trans blocked) (by simp)
  | partly =>
      refine ⟨fun _ _ holds => ?_, fun holds => ?_⟩
      · exact (holdsFor_congr (by rfl) self).trans holds
      · exact absurd (holds.symm.trans (writes _)) (by simp)
  | @flushed buffer =>
      have same := (completes
        { c.call (.send c.s.clientFd c.s.writeBuffer.content) with
          s := { c.s with writeBuffer := buffer } } rfl rfl).trans
        (@holdsFor_congr c.s _ rfl self)
      refine ⟨fun _ _ holds => same.trans holds, fun holds => ⟨?_, ?_⟩⟩
      · rw [(finishes _).receivedFrom]
        change receivedFrom _ (c.call _).calls = []
        rw [single]
        rfl
      · rw [← same, onward_of_holdsFor holds]
        exact holds

theorem bears_apart {st : SocksState}
    (apart : ∀ s : Socks5, s.holdsFor (s.onward st) = false)
    (follows : ∀ s : Socks5, s.holdsFor result.2 = false) :
    Bears st c result :=
  ⟨fun _ _ holds => absurd (holds.symm.trans (apart _)) (by simp),
    fun holds => absurd (holds.symm.trans (follows _)) (by simp)⟩

theorem holdsFor_setInterestOrFail {p : Ptr} {i : Interest}
    {next : SocksState} (registered : Registered p c.env c.s.clientFd) :
    (setInterestOrFail c i next).1.s.holdsFor
        ((setInterestOrFail c i next).1.s.onward
          (setInterestOrFail c i next).2) =
      c.s.holdsFor (c.s.onward next) := by
  rw [setInterestOrFail_s, setInterestOrFail_registered registered]

theorem bears_helloWrite {p : Ptr}
    (registered : Registered p c.env c.s.clientFd) (called : c.calls = [])
    (served : ∀ made ∈ (helloWrite key a c).1.calls, d.Serves made) :
    Bears .helloWrite c (helloWrite key a c) := by
  refine bears_write (helloWrite_effect key a c) called served (fun _ => rfl)
    (fun flushed => ?_) fun flushed env client => ?_
  · split
    · exact .none rfl
    · exact Results.aside_setInterestOrFail _ _
  · have registered : Registered p flushed.env flushed.s.clientFd :=
      env ▸ client ▸ registered
    unfold Socks5.onward
    split
    next refused => rfl
    next chosen =>
      refine (holdsFor_setInterestOrFail registered).trans ?_
      split <;> rfl

theorem bears_authWrite {p : Ptr}
    (registered : Registered p c.env c.s.clientFd) (called : c.calls = [])
    (served : ∀ made ∈ (authWrite key a c).1.calls, d.Serves made) :
    Bears .authWrite c (authWrite key a c) := by
  refine bears_write (authWrite_effect key a c) called served (fun _ => rfl)
    (fun flushed => ?_) fun flushed env client => ?_
  · split
    · exact .none rfl
    · exact Results.aside_setInterestOrFail _ _
  · have registered : Registered p flushed.env flushed.s.clientFd :=
      env ▸ client ▸ registered
    cases granted : flushed.s.authOk with
    | true =>
        refine (holdsFor_setInterestOrFail registered).trans ?_
        simp [Socks5.onward, granted]
    | false => simp [Socks5.onward, granted, Socks5.holdsFor]

theorem authCompleted_next (c : Ctx) :
    (authCompleted c).2 = .authWrite ∨ (authCompleted c).2 = .errorState := by
  unfold authCompleted
  dsimp only
  split
  · exact .inr rfl
  · exact setInterestOrFail_next _ _ _

theorem bears_handler {p : Ptr} {kind : EventKind} {st : SocksState}
    {handler : Handler} (elsewhere : st ≠ .copy)
    (serves : Serves st kind handler) (ran : handler key a c = some result)
    (registered : Registered p c.env c.s.clientFd) (called : c.calls = [])
    (served : ∀ made ∈ result.1.calls, d.Serves made) : Bears st c result := by
  have follows := handler_next serves ran
  cases serves with
  | helloRead =>
      obtain rfl := eq_of_total ran
      refine bears_read (helloRead_effect key a c) called served rfl
        (fun _ _ _ => .none rfl) (fun _ _ _ _ => rfl)
        (fun _ => Results.helloCompleted_aside) fun after => ?_
      rcases helloCompleted_next after with next | next
      · rw [next]
        rfl
      · rw [next]
        rfl
  | helloWrite =>
      obtain rfl := eq_of_total ran
      exact bears_helloWrite registered called served
  | authRead =>
      obtain rfl := eq_of_total ran
      refine bears_read (authRead_effect key a c) called served rfl
        (fun _ _ _ => .none rfl) (fun _ auth buffer content => ?_)
        (fun _ => Results.authCompleted_aside) fun after => ?_
      · change (scan _ _ auth buffer.content).2.2 = false
        rw [content]
        rfl
      · rcases authCompleted_next after with next | next
        · rw [next]
          rfl
        · rw [next]
          rfl
  | authWrite =>
      obtain rfl := eq_of_total ran
      exact bears_authWrite registered called served
  | requestRead =>
      obtain rfl := eq_of_total ran
      refine bears_read (requestRead_effect key a c) called served rfl
        (fun _ _ _ => .one rfl ⟨id, id⟩) (fun _ request buffer content => ?_)
        (fun _ => Results.requestCompleted_aside) fun after => ?_
      · change (scan _ _ request buffer.content).2.2 = false
        rw [content]
        rfl
      · rcases Results.requestCompleted_next key a after with next | next | next
        · rw [next]
          rfl
        · rw [next]
          rfl
        · rw [next]
          rfl
  | copyRead | copyWrite => exact absurd rfl elsewhere
  | _ =>
      refine bears_apart (fun _ => rfl) fun s => ?_
      cases after : result.2 <;>
        first | rfl | simp [after, SocksState.successors] at follows

theorem holdsFor_resolved (d : Delivery) (answer : DnsAnswer) :
    Delivery.Missed ⟨{ d.s with dns :=
      { d.s.dns with result := answer.result, status := answer.status } },
      d.left⟩ ↔ d.Missed :=
  and_congr_right fun _ =>
    Eq.congr_left (holdsFor_congr (by rfl) d.s.state)

/-- A message is missed from the moment it is overlooked. -/
theorem missed_step {p : Ptr} {w : Results} {d e : Delivery}
    {passage : Passage} (step : (delivery p w).step d passage e) :
    e.Missed ↔ e.Overlooks ∨ d.Missed := by
  cases step with
  | resolved =>
      have same := holdsFor_resolved d w.answer
      exact ⟨fun missed => .inr (same.mp missed),
        fun before => before.elim And.right same.mpr⟩
  | @handled kind fd a env c left handshake hosts runs gives served delivers =>
      obtain ⟨middle, next, handled⟩ := handled_of_handler runs
      obtain ⟨handler, serves, ran⟩ := handled.runs
      have calls : c.calls = middle.calls :=
        handled.closes.calls.trans (jump_calls ..)
      have bears : Bears d.s.state _ (middle, next) := bears_handler handshake
        serves ran hosts.client rfl (calls ▸ served)
      obtain ⟨references, object⟩ := handled.object
      have state : c.s.state = next := handled.state
      have waits (st : SocksState) : c.s.holdsFor (c.s.onward st) =
          middle.s.holdsFor (middle.s.onward st) := by
        refine holdsFor_congr ?_ st
        rw [object]
        dsimp only
        split
        · rfl
        · cases next <;> rfl
      have started : d.s.holdsFor (d.s.onward d.s.state) =
          (Ctx.started ⟨env, d.s, [], false⟩).s.holdsFor
            ((Ctx.started ⟨env, d.s, [], false⟩).s.onward d.s.state) :=
        holdsFor_congr (by rfl) _
      refine ⟨fun missed => ?_, fun before => before.elim And.right ?_⟩
      · obtain ⟨nothing, holds⟩ := missed
        by_cases replies : next = .helloWrite ∨ next = .authWrite
        · exact .inl ⟨state ▸ replies, nothing, holds⟩
        · change c.s.holdsFor (c.s.onward c.s.state) = true at holds
          have plain : middle.s.onward next = next := by
            cases next <;> first | rfl | simp at replies
          rw [state, waits, plain] at holds
          obtain ⟨unread, before⟩ := bears.brings holds
          have unread : receivedFrom d.s.clientFd c.calls = [] :=
            calls.symm ▸ unread
          refine .inr ⟨?_, started ▸ before⟩
          rw [delivers, unread]
          exact nothing
      · rintro ⟨nothing, holds⟩
        obtain ⟨unread, rest⟩ :=
          List.append_eq_nil_iff.mp (delivers.symm.trans nothing)
        refine ⟨rest, ?_⟩
        change c.s.holdsFor (c.s.onward c.s.state) = true
        rw [state, waits]
        refine bears.keeps (calls ▸ unread) (fun made member => ?_)
          (started ▸ holds)
        rw [← calls] at member
        cases made with
        | recv fd octets =>
            refine List.isEmpty_eq_false_iff.mpr fun empty => ?_
            exact (served _ member empty).2 nothing
        | _ => rfl

end Waiting

section Ends

variable (w : Results)

theorem Results.searched_ne_nil (left : Nat) (st : SocksState) (idx : Nat)
    (reply : UInt8) : w.searched left st idx reply ≠ [] := by
  induction left generalizing st idx reply with
  | zero => exact List.cons_ne_nil _ _
  | succ left induction =>
      unfold searched
      cases w.fate idx with
      | connected => exact List.cons_ne_nil _ _
      | failed reason => exact induction _ _ _
      | connecting =>
          refine List.append_ne_nil_of_right_ne_nil _ ?_
          split
          · exact List.cons_ne_nil _ _
          · exact induction _ _ _

theorem Results.requested_ne_nil (request : RequestParser) (reply : UInt8) :
    w.requested request reply ≠ [] := by
  unfold requested
  split_ifs <;>
    first | exact List.cons_ne_nil _ _ | exact w.searched_ne_nil _ _ _ _

theorem Results.authenticated_ne_nil (s : Socks5) (auth : AuthParser)
    (stream : List UInt8) : w.authenticated s auth stream ≠ [] := by
  unfold authenticated
  split
  · exact List.cons_ne_nil _ _
  · exact List.cons_ne_nil _ _

theorem onStop_eq_nil_iff {Parser : Type}
    {outcome : Parser → List UInt8 → List Mark}
    (some : ∀ parser rest, outcome parser rest ≠ [])
    (scanned : Parser × List UInt8 × Bool) :
    onStop outcome scanned = [] ↔ scanned.2.2 = false := by
  unfold onStop
  split
  next stops => simp [stops, some]
  next more => simp [more]

/-- At rest, the client is to see nothing more unless a message is missed. -/
theorem Delivery.foreseen_eq_nil_iff {p : Ptr} {first : Socks5} {d : Delivery}
    {labels : List (List Call)} (accepted : Accepted first)
    (run : (connection p).Run first labels d.s) (resting : d.Resting) :
    d.foreseen w = [] ↔ ¬ d.Missed := by
  have ends (st : SocksState) (state : d.s.state = st)
      (ended : st = .copy ∨ st = .done ∨ st = .errorState) :
      d.foreseen w = [] ↔ ¬ d.Missed := by
    unfold Delivery.foreseen Delivery.Missed
    rw [state]
    rcases ended with rfl | rfl | rfl <;>
      simp [Results.foreseen, Socks5.onward, Socks5.holdsFor]
  rcases resting with ⟨nothing, greeting | authenticating | requesting⟩ | state
  · have drained := (drained_of_run accepted run greeting).1
    unfold Delivery.foreseen Delivery.Missed
    rw [greeting, nothing, drained]
    simp [Results.foreseen, Results.greeting, onStop, Socks5.onward,
      Socks5.holdsFor]
  · have outcome := onStop_eq_nil_iff (w.authenticated_ne_nil d.s)
      (scan authParserFeed AuthParser.finished d.s.auth
        d.s.readBuffer.content)
    unfold Delivery.foreseen Delivery.Missed
    rw [authenticating, nothing, List.append_nil]
    refine outcome.trans ?_
    simp [Socks5.onward, Socks5.holdsFor]
  · have outcome := onStop_eq_nil_iff
      (fun request _ => w.requested_ne_nil request d.s.reply)
      (scan requestParserFeed RequestParser.finished d.s.request
        d.s.readBuffer.content)
    unfold Delivery.foreseen Delivery.Missed
    rw [requesting, nothing, List.append_nil]
    refine outcome.trans ?_
    simp [Socks5.onward, Socks5.holdsFor]
  · exact ends _ rfl state

end Ends

section Starving

variable {p : Ptr} {w : Results} {d e : Delivery} {passage : Passage}

theorem errorState_not_mem_replied (reply : UInt8) :
    Mark.entered .errorState ∉ w.replied reply := by
  unfold Results.replied
  split <;> simp

theorem errorState_not_mem_searched (left : Nat) (st : SocksState) (idx : Nat)
    (reply : UInt8) :
    Mark.entered .errorState ∉ w.searched left st idx reply := by
  induction left generalizing st idx reply with
  | zero => exact errorState_not_mem_replied _
  | succ left induction =>
      unfold Results.searched
      cases w.fate idx with
      | connected => exact errorState_not_mem_replied _
      | failed reason => exact induction _ _ _
      | connecting =>
          refine List.not_mem_append ?_ ?_
          · unfold enters
            split <;> simp
          · split
            · exact errorState_not_mem_replied _
            · exact induction _ _ _

theorem errorState_not_mem_resolved (reply : UInt8) :
    Mark.entered .errorState ∉ w.resolved reply := by
  unfold Results.resolved
  split
  · exact errorState_not_mem_replied _
  · split
    · exact errorState_not_mem_replied _
    · exact errorState_not_mem_searched _ _ _ _

theorem errorState_not_mem_requested (request : RequestParser)
    (reply : UInt8) : Mark.entered .errorState ∉ w.requested request reply := by
  unfold Results.requested
  split_ifs <;>
    first
      | exact errorState_not_mem_replied _
      | exact errorState_not_mem_searched _ _ _ _
      | exact List.not_mem_cons_of_ne_of_not_mem (by simp)
          (errorState_not_mem_resolved _)

/-- Only an AUTH that is none leads to ERROR_STATE at once. -/
theorem Delivery.foreseen_iff_refused (w : Results) (d : Delivery)
    (reading : d.s.state = .authRead ∨ d.s.state = .requestRead) :
    d.foreseen w = [.entered .errorState] ↔ d.refused = true := by
  unfold Delivery.foreseen Delivery.refused
  rcases reading with state | state
  · rw [state]
    unfold Results.foreseen Results.authenticating
    dsimp only
    generalize scan authParserFeed AuthParser.finished d.s.auth
      (d.s.readBuffer.content ++ d.left) = scanned
    obtain ⟨auth, rest, stops⟩ := scanned
    cases stops with
    | false => simp [onStop]
    | true =>
        by_cases failed : auth.state = .error
        · simp [onStop, Results.authenticated, failed]
        · simp [onStop, Results.authenticated, failed]
  · rw [state]
    unfold Results.foreseen Results.requesting
    dsimp only
    generalize scan requestParserFeed RequestParser.finished d.s.request
      (d.s.readBuffer.content ++ d.left) = scanned
    refine ⟨fun failed => ?_, by simp⟩
    have member : Mark.entered .errorState ∈
        onStop (fun request _ => w.requested request d.s.reply) scanned :=
      failed.symm ▸ List.mem_singleton_self _
    unfold onStop at member
    split at member
    · exact absurd member (errorState_not_mem_requested _ _)
    · cases member

theorem starved_step (drained : d.s.Drained) (spacious : Spacious d.s)
    (step : (delivery p w).step d passage e)
    (starves : ∃ made ∈ passage.calls, made.starves = true) :
    (d.s.state = .authRead ∨ d.s.state = .requestRead) ∧
      passage.marks = [.entered .errorState] ∧ e.s.state = .errorState := by
  cases step with
  | resolved =>
      obtain ⟨made, member, -⟩ := starves
      cases member
  | @handled kind fd a env c left handshake hosts runs gives serves delivers =>
      have starved := starved_call runs handshake rfl starves
      have reading : d.s.state = .authRead ∨ d.s.state = .requestRead := by
        refine starved.reading.resolve_left fun greeting => ?_
        obtain ⟨made, member, full⟩ := starves
        have served := serves made member
        cases made with
        | recv fd octets =>
            obtain ⟨nothing, rewound⟩ := drained greeting
            have space := (served (List.isEmpty_iff.mp full)).1
            rw [rewound.space nothing] at space
            have room := spacious.1
            rw [space] at room
            cases room
        | _ => cases full
      have failed : c.s.state = .errorState := starved.failed
      refine ⟨reading, ?_, failed⟩
      have unsent : sentTo d.s.clientFd c.calls = [] := starved.unsent
      dsimp only
      rw [unsent, failed, enters]
      rcases reading with state | state
      · rw [state]
        rfl
      · rw [state]
        rfl

end Starving

theorem Delivery.Resting.not_overlooks {d : Delivery} (rests : d.Resting) :
    ¬ d.Overlooks := by
  rintro ⟨replying, -⟩
  unfold Delivery.Resting SocksState.closing at rests
  rcases replying with state | state <;> simp [state] at rests

theorem marks_concat (t : List Passage) (passage : Passage) :
    marks (t ++ [passage]) = marks t ++ passage.marks := by
  rw [marks, marks, List.flatMap_append, List.flatMap_singleton]

theorem roomy_concat (t : List Passage) (passage : Passage) :
    Roomy (t ++ [passage]) ↔ Roomy t ∧ passage.Roomy := by
  simp [Roomy, or_imp, forall_and]

/-- What the client has seen is the first part of `whole`, or it ends with
ERROR_STATE in the place of something else. -/
inductive Seen (w : Results) (whole : List Mark) (t : List Passage)
    (d : Delivery) : Prop
  | shown (roomy : Roomy t) (follows : whole = marks t ++ d.foreseen w)
  | spoiled (full : ¬ Roomy t) (failed : d.s.state = .errorState)
      (differs : marks t ≠ whole)

theorem Seen.step {p : Ptr} {w : Results} {whole : List Mark} {d e : Delivery}
    {t : List Passage} {passage : Passage} (seen : Seen w whole t d)
    (spacious : Spacious d.s) (landed : Landed d.s.state d.s)
    (drained : d.s.Drained) (step : (delivery p w).step d passage e) :
    Seen w whole (t ++ [passage]) e := by
  have began : passage.before = d := by cases step <;> rfl
  cases seen with
  | shown roomy follows =>
      by_cases fed : ∀ made ∈ passage.calls, made.starves = false
      · refine .shown ((roomy_concat ..).mpr ⟨roomy, ?_⟩) ?_
        · intro made member full
          exact absurd (full.symm.trans (fed made member)) (by simp)
        · rw [follows, marks_concat, List.append_assoc,
            foreseen_steady spacious landed step fed]
      · have starves : ∃ made ∈ passage.calls, made.starves = true := by
          simpa using fed
        obtain ⟨reading, shows, failed⟩ :=
          starved_step drained spacious step starves
        have ends : e.foreseen w = [] := by
          unfold Delivery.foreseen
          rw [failed]
          rfl
        have outcome := d.foreseen_iff_refused w reading
        by_cases refused : d.refused = true
        · refine .shown ((roomy_concat ..).mpr ⟨roomy, ?_⟩) ?_
          · exact fun _ _ _ => began ▸ refused
          · rw [follows, marks_concat, shows, ends, outcome.mpr refused,
              List.append_nil]
        · refine .spoiled (fun roomy => refused ?_) failed ?_
          · obtain ⟨made, member, full⟩ := starves
            exact began ▸ ((roomy_concat ..).mp roomy).2 made member full
          · rw [marks_concat, shows, follows]
            exact fun same =>
              refused (outcome.mp (List.append_cancel_left same).symm)
  | spoiled full failed differs =>
      -- A connection that failed has no handler left.
      have rests : passage.marks = [] ∧ e.s.state = .errorState := by
        cases step with
        | resolved => exact ⟨rfl, failed⟩
        | handled handshake hosts runs =>
            obtain ⟨middle, next, handled⟩ := handled_of_handler runs
            obtain ⟨handler, serves, ran⟩ := handled.runs
            rw [show (Ctx.s ⟨_, d.s, [], false⟩) = d.s from rfl, failed]
              at serves
            cases serves
      refine .spoiled (fun roomy => full ((roomy_concat ..).mp roomy).1)
        rests.2 ?_
      rw [marks_concat, rests.1, List.append_nil]
      exact differs

theorem seen_of_run {p : Ptr} {w : Results} {d e : Delivery} {t : List Passage}
    (accepted : Accepted d.s) (run : (delivery p w).Run d t e) :
    Seen w (d.foreseen w) t e := by
  induction run with
  | nil => exact .shown (by simp [Roomy]) rfl
  | snoc before step induction =>
      have reached := run_of_delivery before
      exact induction.step (progress_of_run accepted reached).spacious
        (landed_of_run accepted reached) (drained_of_run accepted reached) step

theorem missed_of_run {p : Ptr} {w : Results} {d e : Delivery}
    {t : List Passage} (accepted : Accepted d.s)
    (run : (delivery p w).Run d t e) :
    e.Missed ↔ e.Overlooks ∨ ∃ passage ∈ t, passage.before.Overlooks := by
  induction run with
  | nil =>
      simp [Delivery.Overlooks, Delivery.Missed, accepted_helloRead accepted,
        Socks5.onward, Socks5.holdsFor]
  | @snoc middle last t passage before step induction =>
      have began : passage.before = middle := by cases step <;> rfl
      rw [missed_step step, induction, or_comm (a := middle.Overlooks)]
      simp only [List.mem_append, List.mem_singleton, or_and_right, exists_or,
        exists_eq_left, began]

/-- What the kernel has for one handler call: octets, or room for a number of
them. -/
private inductive Supply
  | octets (ready : List UInt8)
  | room (count : Nat)

private def Supply.kind : Supply → EventKind
  | .octets _ => .read
  | .room _ => .write

private def Supply.answers : Supply → Answers
  | .octets ready => .receiving ready
  | .room count => .accepting [count]

private def deliver (env : Env) :
    Delivery → List Supply → Option (List Passage × Delivery)
  | d, [] => some ([], d)
  | d, supply :: rest =>
      if d.s.state ∉ [.copy, .requestResolv, .requestConnecting] ∧
          Hosts 0 env d.s then
        (socksv5Handler supply.kind ⟨d.s.clientFd, 0⟩ supply.answers
            ⟨env, d.s, [], false⟩).bind fun c =>
          let octets := receivedFrom d.s.clientFd c.calls
          if octets <+: d.left ∧ ∀ made ∈ c.calls, d.Serves made then
            (deliver env ⟨c.s, d.left.drop octets.length⟩ rest).map
              fun (t, e) =>
                (⟨d, c.calls, (sentTo d.s.clientFd c.calls).map .sent ++
                  enters d.s.state c.s.state⟩ :: t, e)
          else none
      else none

/-- The results of an environment in which no attempt gets a socket. -/
private def idleResults (env : Env) : Results where
  authRequired := env.config.authRequired
  check user pass := usersCheck env.users user pass
  launched := false
  answer := ⟨0, []⟩
  fate _ := .failed (some eAgain)
  ended _ := 0
  sockname := none

private theorem idle_gives {env : Env} {s : Socks5} {key : Key}
    (supply : Supply)
    (early : s.state ∉ [.copy, .requestResolv, .requestConnecting]) :
    (idleResults env).Gives key supply.answers
      (Ctx.started ⟨env, s, [], false⟩) := by
  have idle : ∃ recv sends, supply.answers =
      { Answers.idle with recv := recv, sends := sends } := by
    cases supply with
    | octets octets => exact ⟨_, _, rfl⟩
    | room count => exact ⟨_, _, rfl⟩
  obtain ⟨recv, sends, answers⟩ := idle
  rw [answers]
  refine ⟨rfl, ?_⟩
  rw [started_state]
  cases state : s.state with
  | helloRead => rfl
  | authRead => exact fun _ _ => rfl
  | requestRead => exact ⟨rfl, fun _ _ => rfl⟩
  | requestResolv | requestConnecting => simp [state] at early
  | _ => trivial

private theorem run_of_deliver {env : Env} {d e : Delivery}
    {supplies : List Supply} {t : List Passage}
    (delivered : deliver env d supplies = some (t, e)) :
    (delivery 0 (idleResults env)).Run d t e := by
  induction supplies generalizing d t with
  | nil =>
      cases delivered
      exact .nil _
  | cons supply supplies induction =>
      unfold deliver at delivered
      split at delivered
      next ready =>
        obtain ⟨early, hosts⟩ := ready
        obtain ⟨c, runs, others⟩ := Option.bind_eq_some_iff.mp delivered
        dsimp only at others
        split at others
        next served =>
          obtain ⟨begins, serves⟩ := served
          obtain ⟨⟨rest, _⟩, remaining, same⟩ :=
            Option.map_eq_some_iff.mp others
          cases same
          refine (System.Run.single ?_).append (induction remaining)
          exact .handled (fun copying => early (by simp [copying])) hosts runs
            (idle_gives supply early) serves
            (List.prefix_iff_eq_append.mp begins).symm
        next => cases others
      next => cases delivered

private structure Cuts where
  env : Env
  first : Socks5
  stream : List UInt8
  one : List Supply
  other : List Supply

private def Cuts.meet (cuts : Cuts) (holds : List Passage → Delivery →
    List Passage → Delivery → Bool) : Bool :=
  (deliver cuts.env ⟨cuts.first, cuts.stream⟩ cuts.one).any fun (t, d) =>
    (deliver cuts.env ⟨cuts.first, cuts.stream⟩ cuts.other).any fun (u, e) =>
      holds t d u e

private theorem runs_of_meet {cuts : Cuts} {holds : List Passage → Delivery →
    List Passage → Delivery → Bool} (met : cuts.meet holds = true) :
    ∃ t d u e,
      (delivery 0 (idleResults cuts.env)).Run ⟨cuts.first, cuts.stream⟩ t d ∧
      (delivery 0 (idleResults cuts.env)).Run ⟨cuts.first, cuts.stream⟩ u e ∧
      holds t d u e = true := by
  obtain ⟨⟨t, d⟩, one, met⟩ := (Option.any_eq_true ..).mp met
  obtain ⟨⟨u, e⟩, other, met⟩ := (Option.any_eq_true ..).mp met
  exact ⟨t, d, u, e, run_of_deliver one, run_of_deliver other, met⟩

private def literalRequest : List UInt8 :=
  [0x05, 0x01, 0x00, 0x01, 127, 0, 0, 1, 0, 80]

private def refusedCuts : Cuts where
  env := soleEnv configInitDefaults usersInit 5 0
  first := freshConnection configInitDefaults 5
  stream := helloMessage [methodNoAuth] ++ literalRequest
  one := [.octets (helloMessage [methodNoAuth]), .room 2,
    .octets literalRequest, .room 10]
  other := [.octets [0x05], .octets [0x01, 0x00], .room 1, .room 1,
    .octets (literalRequest.take 5), .octets (literalRequest.drop 5), .room 7,
    .room 3]

private def authStream : List UInt8 :=
  helloMessage [methodUserpass] ++ authMessage [97, 98] [99, 100]

/-- HELLO and AUTH apart, and in one segment. -/
private def overlookedCuts : Cuts where
  env := soleEnv configInitDefaults
    (usersAdd usersInit (some (.ofString "ab")) (some (.ofString "cd"))).1 5 0
  first := freshConnection configInitDefaults 5
  stream := authStream
  one := [.octets (helloMessage [methodUserpass]), .room 2,
    .octets (authMessage [97, 98] [99, 100]), .room 2]
  other := [.octets authStream, .room 2]

private def smallBuffer : ProxyConfig :=
  { configInitDefaults with ioBufferSize := configMinBuffer }

private def longRequest : List UInt8 :=
  [0x05, 0x01, 0x00, 0x03, 250] ++ List.replicate 250 97 ++ [0, 80]

/-- The long REQUEST after the HELLO, and in the segment that fills the
buffer. -/
private def cloggedCuts : Cuts where
  env := soleEnv smallBuffer usersInit 5 0
  first := freshConnection smallBuffer 5
  stream := helloMessage [methodNoAuth] ++ longRequest
  one := [.octets (helloMessage [methodNoAuth]), .room 2,
    .octets longRequest, .octets (longRequest.drop 256), .room 10]
  other := [.octets (helloMessage [methodNoAuth] ++ longRequest), .room 2,
    .octets (longRequest.drop 253)]

end SocksProxy
