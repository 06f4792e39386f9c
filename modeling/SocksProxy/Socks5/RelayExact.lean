import SocksProxy.Socks5.Copying

/-! What the relay delivers over whole runs, and how it ends. -/

namespace SocksProxy

open Transition

section Relay

variable {p : Ptr} {before entered s : Socks5} {calls : List Call}
  {labels : List (List Call)} (elsewhere : before.state ≠ .copy)
  (entering : (connection p).step before calls entered)
  (copying : entered.state = .copy)
  (run : (connection p).Run entered labels s)

include elsewhere entering copying run

/-- Between two handler calls each direction has delivered all it received
except what its buffer holds, and at any moment nothing but the beginning of
it. -/
theorem relay_exact :
    entered.readBuffer.content ++ receivedFrom entered.clientFd labels.flatten =
        sentTo entered.originNumber labels.flatten ++ s.readBuffer.content ∧
      receivedFrom entered.originNumber labels.flatten =
        sentTo entered.clientFd labels.flatten ++ s.writeBuffer.content ∧
      ∀ front rest, labels.flatten = front ++ rest →
        sentTo entered.originNumber front <+:
            entered.readBuffer.content ++ receivedFrom entered.clientFd front ∧
          sentTo entered.clientFd front <+: receivedFrom entered.originNumber
            front := by
  obtain ⟨empty, _, _, _⟩ := copy_entered elsewhere entering copying
  obtain ⟨⟨_, _, toOrigin, toClient, _, _⟩, _⟩ := carried_of_run copying run
  rw [empty] at toClient
  obtain ⟨balance, ordered⟩ := toClient
  rw [List.nil_append] at balance
  refine ⟨toOrigin.balance, balance, ?_⟩
  intro front rest split
  have begins := ordered front rest split
  rw [List.nil_append] at begins
  exact ⟨toOrigin.ordered front rest split, begins⟩

/-- The connection leaves COPY when both directions are complete, or when a send
failed for good, and relays nothing afterwards. -/
theorem relay_closing {last : Socks5} {final : List Call}
    (relaying : s.state = .copy) (leaving : (connection p).step s final last)
    (left : last.state ≠ .copy) :
    last.state = .done ∧
      (Ended entered.clientFd (labels.flatten ++ final) ∧
          Ended entered.originNumber (labels.flatten ++ final) ∧
          entered.readBuffer.content ++
              receivedFrom entered.clientFd (labels.flatten ++ final) =
            sentTo entered.originNumber (labels.flatten ++ final) ∧
          receivedFrom entered.originNumber (labels.flatten ++ final) =
            sentTo entered.clientFd (labels.flatten ++ final) ∨
        FailedHard entered.clientFd final ∨
        FailedHard entered.originNumber final) ∧
      ∀ {later after}, (connection p).Run last later after →
      later.flatten = [] := by
  obtain ⟨empty, clientOpen, originOpen, _⟩ :=
    copy_entered elsewhere entering copying
  have carried := (carried_of_run copying run).1
  obtain ⟨more, stays | ⟨done, ending⟩⟩ := copy_step relaying leaving
  · exact absurd stays left
  have whole := carried.trans more
  refine ⟨done, ?_, fun run => (done_run done run).1⟩
  rcases ending with completed | failed
  · have toOrigin := whole.toOrigin.balance
    have toClient := whole.toClient.balance
    rw [completed.toOrigin, List.append_nil] at toOrigin
    rw [empty, completed.toClient, List.append_nil, List.nil_append] at toClient
    refine .inl ⟨?_, ?_, toOrigin, toClient⟩
    · rcases whole.clientEof completed.clientEof with earlier | ended
      · exact absurd (clientOpen.symm.trans earlier) Bool.false_ne_true
      · exact ended
    · rcases whole.originEof completed.originEof with earlier | ended
      · exact absurd (originOpen.symm.trans earlier) Bool.false_ne_true
      · exact ended
  · rw [carried.clientFd, carried.originNumber] at failed
    exact .inr failed

end Relay

private def requestTurns : List Turn :=
  [⟨.read, 5, .receiving [0x05, 0x01, 0x00]⟩, ⟨.write, 5, .accepting [2]⟩,
    ⟨.read, 5,
      { Answers.receiving [0x05, 0x01, 0x00, 0x01, 127, 0, 0, 1, 0,
      80, 104, 105] with attempt := fun _ => ⟨0, true, 0⟩ }⟩]

private def relayed (turns : List Turn) : Option Picked :=
  replayAround 0 (soleEnv configInitDefaults usersInit 5 0)
    (freshConnection configInitDefaults 5) requestTurns
    ⟨.write, 5, .accepting [10]⟩ turns

theorem relay_exact_partial :
    ∃ (entered s : Socks5) (more : List (List Call)),
      entered.readBuffer.content = [104, 105] ∧
      receivedFrom entered.clientFd more.flatten = [106, 107, 108] ∧
      entered.readBuffer.content ++ receivedFrom entered.clientFd more.flatten =
        sentTo entered.originNumber more.flatten ++ s.readBuffer.content := by
  have expected : (relayed [⟨.read, 5,
      { Answers.receiving [106, 107, 108] with
        sends := [.accept 1, .accept 2] }⟩]).any
      (fun r => decide (r.before.state ≠ .copy ∧ r.after.s.state = .copy ∧
        r.after.s.readBuffer.content = [104, 105] ∧
        receivedFrom r.after.s.clientFd r.later.flatten = [106, 107, 108])) =
          true := by
    decide +kernel
  obtain ⟨r, replayed, facts⟩ := (Option.any_eq_true ..).mp expected
  obtain ⟨elsewhere, copying, early, received⟩ := of_decide_eq_true facts
  obtain ⟨_, hosts, enters, run⟩ := picked_of_replay replayed
  exact ⟨r.after.s, r.reached, r.later, early, received,
    (relay_exact elsewhere (.handled hosts enters) copying run).1⟩

/-- The origin answers while the client's socket is full and then resets the
connection: its answer is never delivered, although its own stream has not ended
and no send to the client has failed. -/
theorem relay_cut :
    ∃ (labels more : List (List Call)) (before entered s last : Socks5)
      (calls final : List Call),
      (connection 0).Run (freshConnection configInitDefaults 5) labels before ∧
      (connection 0).step before calls entered ∧ before.state ≠ .copy ∧
      entered.state = .copy ∧ (connection 0).Run entered more s ∧
      s.state = .copy ∧
      (connection 0).step s final last ∧ last.state = .done ∧
      last.writeBuffer.content = [111, 107] ∧
      ¬ Ended entered.originNumber (more.flatten ++ final) ∧
      ¬ FailedHard entered.clientFd (more.flatten ++ final) := by
  have expected : (relayed [⟨.read, 0,
      { Answers.receiving [111, 107] with sends := [.error eAgain] }⟩]).any
      (fun r => decide (r.before.state ≠ .copy ∧ r.after.s.state = .copy ∧
        r.reached.state = .copy ∧ Hosts 0 r.last r.reached ∧
        r.after.s.clientFd = 5 ∧ r.after.s.originNumber = 0 ∧
        r.later.flatten = [.recv 0 [111, 107], .sendFailed 5 eAgain]) &&
        (socksv5Handler .read ⟨5, 0⟩
          { Answers.receiving [104] with sends := [.error 32] }
          ⟨r.last, r.reached, [], false⟩).any fun c =>
            decide (c.s.state = .done ∧ c.s.writeBuffer.content = [111, 107] ∧
            c.calls = [.recv 5 [104], .sendFailed 0 32])) = true := by
    decide +kernel
  obtain ⟨r, replayed, facts⟩ := (Option.any_eq_true ..).mp expected
  obtain ⟨opened, ending⟩ := Bool.and_eq_true_iff.mp facts
  obtain ⟨elsewhere, copying, relaying, hosts, client, origin, trace⟩ :=
    of_decide_eq_true opened
  obtain ⟨c, runs, facts⟩ := (Option.any_eq_true ..).mp ending
  obtain ⟨done, pending, final⟩ := of_decide_eq_true facts
  obtain ⟨requested, wired, enters, run⟩ := picked_of_replay replayed
  refine ⟨r.earlier, r.later, r.before, r.after.s, r.reached, c.s, _,
    c.calls, requested, .handled wired enters, elsewhere, copying, run,
    relaying, .handled hosts runs, done, pending, ?_, ?_⟩
  · rw [trace, final, origin]
    simp [Ended]
  · rw [trace, final, client]
    simp [FailedHard, wouldBlock, eAgain]

/-- The client ends its stream, then the origin. -/
theorem relay_closing_complete :
    ∃ (entered last : Socks5) (more : List (List Call)) (final : List Call),
      last.state = .done ∧
      (Ended entered.clientFd (more.flatten ++ final) ∧
          Ended entered.originNumber (more.flatten ++ final) ∧
          entered.readBuffer.content ++
              receivedFrom entered.clientFd (more.flatten ++ final) =
            sentTo entered.originNumber (more.flatten ++ final) ∧
          receivedFrom entered.originNumber (more.flatten ++ final) =
            sentTo entered.clientFd (more.flatten ++ final) ∨
        FailedHard entered.clientFd final ∨
        FailedHard entered.originNumber final) := by
  have expected :
      (relayed [⟨.write, 0, .accepting [2]⟩, ⟨.read, 5, .receiving []⟩]).any
      (fun r => decide (r.before.state ≠ .copy ∧ r.after.s.state = .copy ∧
        r.reached.state = .copy ∧ Hosts 0 r.last r.reached) &&
        (socksv5Handler .read ⟨0, 0⟩ (.receiving [])
          ⟨r.last, r.reached, [], false⟩).any
          fun c => decide (c.s.state ≠ .copy)) = true := by
    decide +kernel
  obtain ⟨r, replayed, facts⟩ := (Option.any_eq_true ..).mp expected
  obtain ⟨opened, ending⟩ := Bool.and_eq_true_iff.mp facts
  obtain ⟨elsewhere, copying, relaying, hosts⟩ := of_decide_eq_true opened
  obtain ⟨c, runs, left⟩ := (Option.any_eq_true ..).mp ending
  obtain ⟨_, wired, enters, run⟩ := picked_of_replay replayed
  obtain ⟨done, ended, _⟩ :=
    relay_closing elsewhere (.handled wired enters) copying run
    relaying (.handled hosts runs) (of_decide_eq_true left)
  exact ⟨r.after.s, c.s, r.later, c.calls, done, ended⟩

end SocksProxy
