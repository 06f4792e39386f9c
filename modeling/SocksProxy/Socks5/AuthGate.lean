import SocksProxy.Socks5.Handshake

/-! The authentication gate over whole runs of a connection. -/

namespace SocksProxy

/-- No request is parsed or resolved and no origin is contacted before the gate
was passed; with authentication required that takes accepted credentials; and a
method is only sent when the client offered it, or to refuse all of them. -/
theorem authentication_gate {p : Ptr} {first s : Socks5}
    {labels : List (List Call)} (accepted : Accepted first)
    (run : (connection p).Run first labels s) :
    (∀ before gate after, labels.flatten = before ++ gate :: after →
      gate.guarded → Passed first.clientFd before) ∧
    (∀ before gate after method, labels.flatten = before ++ gate :: after →
      gate.guarded → (true, method) ∈ negotiations labels.flatten →
      ∃ user pass, Call.usersCheck user pass true ∈ before) ∧
    (∀ before after version method more, labels.flatten = before ++ after →
      sentTo first.clientFd before = version :: method :: more →
      version = 0x05 ∧ ∃ methods rest,
        receivedFrom first.clientFd before = helloMessage methods ++ rest ∧
        (method ∈ methods ∨ method = methodNone)) := by
  obtain ⟨-, -, stage, guarded⟩ := progress_of_run accepted run
  refine ⟨?_, ?_, ?_⟩
  · intro before gate after split gated
    exact guarded.gate before gate after split gated
  · intro before gate after method split gated required
    have passed : Passed first.clientFd before :=
      guarded.gate before gate after split gated
    cases passed with
    | noAuth negotiated =>
        have once := stage.once
        rw [split, negotiations_append, negotiated.chosen] at once required
        have nothing : negotiations (gate :: after) = [] := by
          simpa using once
        rw [nothing] at required
        simp at required
    | userpass _ _ _ _ checked => exact ⟨_, _, checked⟩
  · intro before after version method more split sent
    have moment : MethodSent first.clientFd before :=
      guarded.method before after split
    rcases moment with nothing |
      ⟨authRequired, methods, rest, -, received, start⟩
    · rw [sent] at nothing
      cases nothing
    · rw [sent] at start
      have same : [version, method] = [0x05, methodFor authRequired methods] :=
        start.eq_of_length rfl
      cases same
      exact ⟨rfl, methods, rest, received,
        methodFor_offered authRequired methods⟩

private def openTurns : List Turn :=
  [⟨.read, 5, .receiving [0x05, 0x01, 0x00]⟩, ⟨.write, 5, .accepting [2]⟩,
    ⟨.read, 5, .receiving [0x05, 0x01, 0x00]⟩]

theorem authentication_gate_open :
    ∃ labels s before after,
      (connection 0).Run (freshConnection configInitDefaults 5) labels s ∧
      labels.flatten = before ++ Call.requestParserConsume :: after ∧
      Passed (freshConnection configInitDefaults 5).clientFd before := by
  have parsed : (replay 0 (soleEnv configInitDefaults usersInit 5 0)
      (freshConnection configInitDefaults 5) openTurns).any (fun reached =>
        decide (Call.requestParserConsume ∈ reached.1.flatten)) = true := by
    decide +kernel
  obtain ⟨⟨labels, _, s⟩, replayed, member⟩ := (Option.any_eq_true ..).mp parsed
  obtain ⟨before, after, split⟩ := List.append_of_mem (of_decide_eq_true member)
  have run := run_of_replay replayed
  exact ⟨labels, s, before, after, run, split,
    (authentication_gate (accepted_fresh _ _) run).1 before _ after
      split trivial⟩

end SocksProxy
