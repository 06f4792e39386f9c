import SocksProxy.Lib.Scanner

/-! Scanners that recognise the messages of a grammar, and when they refuse. -/

namespace Scanner

variable {State Token : Type _}

variable {feed : State → Token → State} {stopped : State → Bool}

theorem scan_last {state next : State} {tokens rest : List Token}
    (scanned : scan feed stopped state tokens = (next, rest, true)) :
    ∃ front token before, tokens = front ++ token :: rest ∧
      scan feed stopped state front = (before, [], false) ∧
      next = feed before token ∧ stopped next = true := by
  induction tokens generalizing state with
  | nil => simp at scanned
  | cons token tokens induction =>
      cases stops : stopped (feed state token) with
      | true =>
          rw [scan_cons_stop stops] at scanned
          cases scanned
          exact ⟨[], token, state, rfl, rfl, rfl, stops⟩
      | false =>
          rw [scan_cons_more stops] at scanned
          obtain ⟨front, last, before, split, running, fed, stop⟩ :=
            induction scanned
          refine ⟨token :: front, last, before, by rw [split]; rfl,
            ?_, fed, stop⟩
          rw [scan_cons_more stops]
          exact running

def Partial (Message : List Token → Prop) (tokens : List Token) : Prop :=
  ∃ token more, Message (tokens ++ token :: more)

def Completable (Message : List Token → Prop) (tokens : List Token) : Prop :=
  ∃ more, Message (tokens ++ more)

/-- Some tokens lead from a state to acceptance. -/
def Promising (feed : State → Token → State) (stopped accepted : State → Bool)
    (state : State) : Prop :=
  ∃ more last, scan feed stopped state more = (last, [], true) ∧
    accepted last = true

/-- A state is promising when a token can always bring it nearer to
acceptance. -/
theorem promising_of_rank {accepted : State → Bool} (rank : State → Nat)
    {Live : State → Prop}
    (preserved : ∀ state token, stopped state = false → Live state →
      Live (feed state token))
    (progress : ∀ state, stopped state = false → Live state → ∃ token,
      stopped (feed state token) = true ∧ accepted (feed state token) = true ∨
        stopped (feed state token) = false ∧
        rank (feed state token) < rank state) {state : State}
    (running : stopped state = false) (live : Live state) :
    Promising feed stopped accepted state := by
  generalize bound : rank state = distance
  induction distance using Nat.strongRecOn generalizing state with
  | ind distance induction =>
      subst bound
      obtain ⟨token, ⟨stops, accepts⟩ | ⟨runs, nearer⟩⟩ :=
        progress state running live
      · exact ⟨[token], _, scan_cons_stop stops, accepts⟩
      · obtain ⟨more, last, scanned, accepts⟩ :=
          induction _ nearer runs (preserved state token running live) rfl
        refine ⟨token :: more, last, ?_, accepts⟩
        rw [scan_cons_more runs]
        exact scanned

/-- The scanner takes every message to its last token, takes nothing else, and
can be led to a message as long as it runs. -/
structure Recognises (feed : State → Token → State)
    (stopped accepted : State → Bool) (first : State)
    (Message : List Token → Prop) : Prop where
  complete : ∀ message, Message message →
    ∃ state, scan feed stopped first message = (state, [], true) ∧
      accepted state = true
  sound : ∀ message state, scan feed stopped first message = (state, [], true) →
    accepted state = true → Message message
  alive : ∀ tokens state, scan feed stopped first tokens = (state, [], false) →
    Promising feed stopped accepted state

namespace Recognises

variable {accepted : State → Bool} {first : State} {Message : List Token → Prop}
  (recognises : Recognises feed stopped accepted first Message)

include recognises

/-- Acceptance: the stream begins with a message, and what follows it is
kept. -/
theorem accepts_iff {tokens rest : List Token} :
    (∃ state, scan feed stopped first tokens = (state, rest, true) ∧
        accepted state = true) ↔
      ∃ message, Message message ∧ tokens = message ++ rest := by
  constructor
  · rintro ⟨state, scanned, accepts⟩
    obtain ⟨message, split, whole⟩ := scan_consumed scanned
    exact ⟨message, recognises.sound message state whole accepts, split⟩
  · rintro ⟨message, valid, rfl⟩
    obtain ⟨state, whole, accepts⟩ := recognises.complete message valid
    exact ⟨state, scan_append_stop whole, accepts⟩

private theorem runs_on_part {tokens : List Token}
    (part : Partial Message tokens) :
    ∃ state, scan feed stopped first tokens = (state, [], false) := by
  obtain ⟨token, more, valid⟩ := part
  obtain ⟨state, whole, -⟩ := recognises.complete _ valid
  rcases scanned : scan feed stopped first tokens with ⟨middle, rest, stop⟩
  cases stop with
  | false =>
      have nothing := scan_more_rest scanned
      subst nothing
      exact ⟨middle, rfl⟩
  | true =>
      rw [scan_append_stop scanned] at whole
      have leftover := congrArg (fun result => result.2.1) whole
      simp at leftover

private theorem part_of_running {tokens : List Token} {state : State}
    (running : scan feed stopped first tokens = (state, [], false)) :
    Partial Message tokens := by
  obtain ⟨more, last, scanned, accepts⟩ := recognises.alive tokens state running
  have whole : scan feed stopped first (tokens ++ more) = (last, [], true) := by
    rw [scan_append_more running]
    exact scanned
  cases more with
  | nil => simp at scanned
  | cons token more =>
      exact ⟨token, more, recognises.sound _ last whole accepts⟩

/-- More tokens are wanted exactly as long as the stream is part of a
message. -/
theorem waits_iff {tokens : List Token} :
    (∃ state, scan feed stopped first tokens = (state, [], false)) ↔
      Partial Message tokens :=
  ⟨fun ⟨_, running⟩ => recognises.part_of_running running,
    recognises.runs_on_part⟩

/-- Refusal: the scan stops at the first token that no message can have
there. -/
theorem refuses_iff {tokens rest : List Token} :
    (∃ state, scan feed stopped first tokens = (state, rest, true) ∧
        accepted state = false) ↔
      ∃ front token, tokens = front ++ token :: rest ∧ Partial Message front ∧
        ¬ Completable Message (front ++ [token]) := by
  constructor
  · rintro ⟨state, scanned, refused⟩
    obtain ⟨front, token, before, split, running, fed, stops⟩ :=
      scan_last scanned
    refine ⟨front, token, split, recognises.part_of_running running, ?_⟩
    rintro ⟨more, valid⟩
    obtain ⟨last, whole, accepts⟩ := recognises.complete _ valid
    have stopping : scan feed stopped before (token :: more) =
        (state, more, true) := by
      rw [scan_cons_stop (fed ▸ stops), ← fed]
    rw [List.append_assoc, scan_append_more running, List.singleton_append,
      stopping] at whole
    have same : state = last := congrArg Prod.fst whole
    rw [← same, refused] at accepts
    exact Bool.false_ne_true accepts
  · rintro ⟨front, token, rfl, part, hopeless⟩
    obtain ⟨before, running⟩ := recognises.runs_on_part part
    have onward : scan feed stopped first (front ++ token :: rest) =
        scan feed stopped before (token :: rest) := scan_append_more running
    have single : scan feed stopped first (front ++ [token]) =
        scan feed stopped before [token] := scan_append_more running
    cases stops : stopped (feed before token) with
    | false =>
        rw [scan_cons_more stops, scan_nil] at single
        obtain ⟨next, more, valid⟩ := recognises.part_of_running single
        exact absurd ⟨next :: more, valid⟩ hopeless
    | true =>
        refine ⟨feed before token, ?_, ?_⟩
        · rw [onward, scan_cons_stop stops]
        · rw [← Bool.not_eq_true]
          intro accepts
          rw [scan_cons_stop stops] at single
          have valid := recognises.sound _ _ single accepts
          exact hopeless ⟨[], by rwa [List.append_nil]⟩

end Recognises

end Scanner
