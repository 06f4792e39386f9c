import SocksProxy.Socks5.Exchange

/-! The octets that the client is sent, over whole runs of a connection. -/

namespace SocksProxy

open Transition

inductive Refusing : List UInt8 → Prop
  | refused : Refusing [0x05, methodNone]
  | rejected : Refusing [0x05, methodUserpass, 0x01, 0x01]
  | replied {opening greeting : List UInt8} {reply : Reply}
      (opened : Opening opening greeting) (failure : reply.rep ≠ repSuccess) :
      Refusing (greeting ++ reply.encode)

/-- Where the octets sent so far stand in a state; `unsent` is in the write
buffer. -/
def Unfinished (s : Socks5) (sent unsent : List UInt8) : Prop :=
  match s.state with
  | .helloRead => sent = []
  | .helloWrite => sent ++ unsent = [0x05, s.method]
  | .authRead => sent = [0x05, methodUserpass]
  | .authWrite =>
      sent ++ unsent =
        [0x05, methodUserpass, 0x01, if s.authOk then 0x00 else 0x01]
  | .requestRead | .requestResolv | .requestConnecting =>
      ∃ opening, Opening opening sent
  | .requestWrite =>
      ∃ opening greeting reply, Opening opening greeting ∧
        Reply.rep reply = s.reply ∧ sent ++ unsent = greeting ++ reply.encode
  | .copy =>
      ∃ opening greeting reply relayed, Opening opening greeting ∧
        Reply.rep reply = repSuccess ∧
        sent = greeting ++ (reply.encode ++ relayed)
  | .done | .errorState => Framed sent

theorem unfinished_of_run {p : Ptr} {first s : Socks5}
    {labels : List (List Call)} (accepted : Accepted first)
    (run : (connection p).Run first labels s) :
    Unfinished s (sentTo first.clientFd labels.flatten)
      s.writeBuffer.content := by
  have progress := progress_of_run accepted run
  have exchanged := exchanged_of_run accepted run
  have stage := progress.stage
  rw [← progress.clientFd]
  unfold Unfinished
  unfold Stage at stage
  unfold Exchanged at exchanged
  cases st : s.state <;> simp only [st] at stage exchanged
  case helloRead => exact stage.2.sent
  case helloWrite => exact stage.2.reply
  case authRead => exact stage.sent
  case authWrite => exact stage.reply
  case requestRead =>
    obtain ⟨_, _, ⟨opening, greeting, valid, -, sends⟩, -⟩ := exchanged
    exact ⟨opening, by rwa [sends, List.append_nil]⟩
  case requestResolv =>
    obtain ⟨_, ⟨opening, greeting, valid, -, sends⟩, -⟩ := exchanged
    exact ⟨opening, by rwa [sends, List.append_nil]⟩
  case requestConnecting =>
    obtain ⟨_, ⟨opening, greeting, valid, -, sends⟩, -⟩ := exchanged
    exact ⟨opening, by rwa [sends, List.append_nil]⟩
  case requestWrite =>
    obtain ⟨_, sent, reply, ⟨opening, greeting, valid, -, sends⟩, same,
      whole, -⟩ :=
      exchanged
    exact ⟨opening, greeting, reply, valid, same, by
      rw [sends, List.append_assoc, whole]⟩
  case copy =>
    obtain ⟨_, relayed, reply, ⟨opening, greeting, valid, -, sends⟩, success⟩ :=
      exchanged
    exact ⟨opening, greeting, reply, relayed, valid, success, sends⟩
  case done => exact exchanged
  case errorState => exact exchanged

theorem Opening.greeting_cases {opening greeting : List UInt8}
    (opened : Opening opening greeting) :
    greeting = [0x05, methodNoAuth] ∨
      greeting = [0x05, methodUserpass, 0x01, 0x00] := by
  cases opened with
  | noAuth => exact .inl rfl
  | userpass => exact .inr rfl

/-- The greetings of two openings are told apart by their second octet. -/
theorem Opening.same_greeting
    {left right greeting other first second : List UInt8}
    (one : Opening left greeting) (two : Opening right other)
    (same : greeting ++ first = other ++ second) :
    greeting = other ∧ first = second := by
  rcases one.greeting_cases with rfl | rfl <;> rcases two.greeting_cases with
    rfl | rfl
  · exact ⟨rfl, List.append_cancel_left same⟩
  · simp [methodNoAuth, methodUserpass] at same
  · simp [methodNoAuth, methodUserpass] at same
  · exact ⟨rfl, List.append_cancel_left same⟩

/-- The address type tells how long a reply is. -/
theorem Reply.encode_whole {left right : Reply} {more rest : List UInt8}
    (same : left.encode ++ more = right.encode ++ rest) :
    left.rep = right.rep ∧ more = rest := by
  have heads : left.rep = right.rep ∧ left.atyp = right.atyp ∧
      left.addr ++ ([left.high, left.low] ++ more) =
        right.addr ++ ([right.high, right.low] ++ rest) := by
    simpa [Reply.encode] using same
  obtain ⟨rep, atyp, tails⟩ := heads
  have sized : left.addr.length = right.addr.length := by
    have one := left.sized
    have two := right.sized
    rw [atyp] at one
    rcases one with ⟨ipv4, four⟩ | ⟨ipv6, sixteen⟩ <;>
      rcases two with ⟨otherIpv4, otherFour⟩ | ⟨otherIpv6, otherSixteen⟩
    · omega
    · exact absurd (ipv4.symm.trans otherIpv6) (by decide)
    · exact absurd (otherIpv4.symm.trans ipv6) (by decide)
    · omega
  obtain ⟨-, ports⟩ := List.append_inj tails sized
  exact ⟨rep, (List.append_inj ports rfl).2⟩

/-- No greeting begins like a refusal. -/
theorem Opening.not_refused {opening greeting octets more rest : List UInt8}
    (opened : Opening opening greeting)
    (refusal : octets = [0x05, methodNone] ∨
      octets = [0x05, methodUserpass, 0x01, 0x01])
    (same : octets ++ more = greeting ++ rest) : False := by
  rcases refusal with rfl | rfl <;> rcases opened.greeting_cases with
    rfl | rfl <;> simp [methodNone, methodNoAuth, methodUserpass] at same

theorem Refusing.long {octets : List UInt8} (refusing : Refusing octets) :
    octets = [0x05, methodNone] ∨ octets = [0x05, methodUserpass, 0x01, 0x01] ∨
      ∃ opening greeting reply, Opening opening greeting ∧
        Reply.rep reply ≠ repSuccess ∧ octets = greeting ++ reply.encode ∧
        4 < octets.length := by
  cases refusing with
  | refused => exact .inl rfl
  | rejected => exact .inr (.inl rfl)
  | @replied opening greeting reply opened failure =>
      refine .inr (.inr ⟨opening, greeting, reply, opened, failure, rfl, ?_⟩)
      rcases opened.greeting_cases with rfl | rfl <;>
        simp [Reply.encode]

theorem closing_of_refusing {s : Socks5} {sent : List UInt8}
    (unfinished : Unfinished s sent s.writeBuffer.content)
    (pending : s.state = .helloWrite ∨ s.state = .authWrite ∨
      s.state = .requestWrite →
      s.writeBuffer.content ≠ []) (refusing : Refusing sent) :
    s.state.closing := by
  have forms := refusing.long
  have left (writing : s.state = .helloWrite ∨ s.state = .authWrite ∨
      s.state = .requestWrite) : 0 < s.writeBuffer.content.length :=
    List.length_pos_iff.mpr (pending writing)
  unfold Unfinished at unfinished
  cases st : s.state <;> simp only [st] at unfinished left
  case helloRead =>
    subst unfinished
    simp at forms
  case helloWrite =>
    have counted := congrArg List.length unfinished
    have some := left (.inl trivial)
    simp only [List.length_append, List.length_cons, List.length_nil] at counted
    rcases forms with rfl | rfl | ⟨_, _, _, _, _, _, long⟩
    · simp only [List.length_cons, List.length_nil] at counted
      omega
    · simp only [List.length_cons, List.length_nil] at counted
      omega
    · omega
  case authRead =>
    subst unfinished
    simp [methodUserpass, methodNone] at forms
  case authWrite =>
    have counted := congrArg List.length unfinished
    have some := left (.inr (.inl trivial))
    simp only [List.length_append, List.length_cons, List.length_nil] at counted
    rcases forms with rfl | rfl | ⟨_, _, _, _, _, _, long⟩
    · simp [methodUserpass, methodNone] at unfinished
    · simp only [List.length_cons, List.length_nil] at counted
      omega
    · omega
  case requestRead | requestResolv | requestConnecting =>
    obtain ⟨opening, valid⟩ := unfinished
    rcases valid.greeting_cases with rfl | rfl <;>
      simp [methodNoAuth, methodUserpass, methodNone] at forms
  case requestWrite =>
    obtain ⟨opening, greeting, reply, valid, -, whole⟩ := unfinished
    rcases forms with refused | rejected |
      ⟨_, other, refusal, opened, _, rfl, _⟩
    · exact (valid.not_refused (.inl refused) whole).elim
    · exact (valid.not_refused (.inr rejected) whole).elim
    · rw [List.append_assoc] at whole
      obtain ⟨-, replies⟩ := opened.same_greeting valid whole
      rw [← List.append_nil reply.encode] at replies
      exact absurd (Reply.encode_whole replies).2 (pending (by simp [st]))
  case copy =>
    obtain ⟨opening, greeting, reply, relayed, valid, success, split⟩ :=
      unfinished
    have whole := (List.append_nil sent).trans split
    rcases forms with refused | rejected |
      ⟨_, other, refusal, opened, failure, same, _⟩
    · exact (valid.not_refused (.inl refused) whole).elim
    · exact (valid.not_refused (.inr rejected) whole).elim
    · obtain ⟨-, replies⟩ := opened.same_greeting valid (same.symm.trans split)
      rw [← List.append_nil refusal.encode] at replies
      exact absurd ((Reply.encode_whole replies).1.trans success) failure
  case done => exact .inl rfl
  case errorState => exact .inr rfl

theorem closing_run {p : Ptr} {s last : Socks5} {labels : List (List Call)}
    (closing : s.state.closing) (run : (connection p).Run s labels last) :
    labels.flatten = [] ∧ last.state.closing := by
  induction run with
  | nil => exact ⟨rfl, closing⟩
  | snoc _ step induction =>
      obtain ⟨quiet, closed⟩ := induction
      rw [List.flatten_append, quiet]
      cases step with
      | resolved answer => exact ⟨rfl, closed⟩
      | handled hosts runs =>
          obtain ⟨middle, next, handled⟩ := handled_of_handler runs
          obtain ⟨handler, serves, ran⟩ := handled.runs
          rcases closed with done | failed
          · rw [show (Ctx.s ⟨_, _, [], false⟩).state = .done from done]
              at serves
            cases serves
          · rw [show (Ctx.s ⟨_, _, [], false⟩).state = .errorState from failed]
              at serves
            cases serves

/-- The octets sent to the client are at every moment the beginning of a
handshake, or a successful one and relayed octets; no message is dropped, cut or
repeated; and after a refusal the connection is given up and sends nothing
more. -/
theorem handshake_output {p : Ptr} {first s : Socks5}
    {labels : List (List Call)} (accepted : Accepted first)
    (run : (connection p).Run first labels s) :
    Unfinished s (sentTo first.clientFd labels.flatten) s.writeBuffer.content ∧
      (∀ front rest, labels.flatten = front ++ rest →
        Framed (sentTo first.clientFd front)) ∧
      (Refusing (sentTo first.clientFd labels.flatten) → s.state.closing ∧
        ∀ {later last}, (connection p).Run s later last →
        later.flatten = []) := by
  have unfinished := unfinished_of_run accepted run
  have progress := progress_of_run accepted run
  have exchanged := exchanged_of_run accepted run
  refine ⟨unfinished, ?_, ?_⟩
  · intro front rest split
    have whole := exchanged.framed progress.stage
    rw [progress.clientFd, split, sentTo_append] at whole
    exact whole.of_prefix (List.prefix_append _ _)
  · intro refusing
    have closing := closing_of_refusing unfinished ?_ refusing
    · exact ⟨closing, fun later => (closing_run closing later).1⟩
    unfold Exchanged at exchanged
    rintro (state | state | state)
    · rw [state] at exchanged
      exact exchanged.2
    · rw [state] at exchanged
      exact exchanged.2
    · rw [state] at exchanged
      obtain ⟨_, _, _, _, _, _, some, _⟩ := exchanged
      exact some

private def refusedTurns : List Turn :=
  [⟨.read, 5, .receiving [0x05, 0x01, 0x01]⟩, ⟨.write, 5, .accepting [1]⟩,
    ⟨.write, 5, .accepting [1]⟩]

theorem handshake_output_refused :
    ∃ labels s,
      (connection 0).Run (freshConnection configInitDefaults 5) labels s ∧
      sentTo (freshConnection configInitDefaults 5).clientFd labels.flatten =
        [0x05, methodNone] ∧ s.state.closing := by
  have sent : (replay 0 (soleEnv configInitDefaults usersInit 5 0)
      (freshConnection configInitDefaults 5) refusedTurns).any (fun reached =>
        decide (sentTo 5 reached.1.flatten = [0x05, methodNone])) = true := by
    decide +kernel
  obtain ⟨⟨labels, _, s⟩, replayed, refused⟩ := (Option.any_eq_true ..).mp sent
  have refused := of_decide_eq_true refused
  have run := run_of_replay replayed
  refine ⟨labels, s, run, refused, ?_⟩
  exact ((handshake_output (accepted_fresh _ _) run).2.2 (refused ▸ .refused)).1

end SocksProxy
