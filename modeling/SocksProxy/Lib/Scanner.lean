/-! Incremental scanners: a state fed one token at a time until it stops.  The
result of a scan does not depend on how the stream was cut. -/

namespace Scanner

variable {State Token : Type _} (feed : State → Token → State)
  (stopped : State → Bool)

/-- Feed tokens until the state stops; the tokens after the stop are kept. -/
def scan : State → List Token → State × List Token × Bool
  | state, [] => (state, [], false)
  | state, token :: rest =>
      if stopped (feed state token) then (feed state token, rest, true)
      else scan (feed state token) rest

@[simp] theorem scan_nil (state : State) :
    scan feed stopped state [] = (state, [], false) := rfl

variable {feed stopped}

theorem scan_cons_stop {state : State} {token : Token} {rest : List Token}
    (stops : stopped (feed state token) = true) :
    scan feed stopped state (token :: rest) =
      (feed state token, rest, true) := by
  simp [scan, stops]

theorem scan_cons_more {state : State} {token : Token} {rest : List Token}
    (more : stopped (feed state token) = false) :
    scan feed stopped state (token :: rest) =
      scan feed stopped (feed state token) rest := by
  simp [scan, more]

theorem scan_more_rest {state next : State} {tokens rest : List Token}
    (scanned : scan feed stopped state tokens = (next, rest, false)) :
    rest = [] := by
  induction tokens generalizing state with
  | nil =>
      simp only [scan_nil, Prod.mk.injEq] at scanned
      exact scanned.2.1.symm
  | cons token tokens induction =>
      cases stops : stopped (feed state token) with
      | true => simp [scan_cons_stop stops] at scanned
      | false =>
          rw [scan_cons_more stops] at scanned
          exact induction scanned

/-- A scan that has not stopped resumes where it was on the next tokens. -/
theorem scan_append_more {state next : State} {tokens rest more : List Token}
    (scanned : scan feed stopped state tokens = (next, rest, false)) :
    scan feed stopped state (tokens ++ more) =
      scan feed stopped next more := by
  induction tokens generalizing state with
  | nil =>
      simp only [scan_nil, Prod.mk.injEq] at scanned
      rw [scanned.1, List.nil_append]
  | cons token tokens induction =>
      cases stops : stopped (feed state token) with
      | true => simp [scan_cons_stop stops] at scanned
      | false =>
          rw [scan_cons_more stops] at scanned
          rw [List.cons_append, scan_cons_more stops]
          exact induction scanned

theorem scan_append_stop {state next : State} {tokens rest more : List Token}
    (scanned : scan feed stopped state tokens = (next, rest, true)) :
    scan feed stopped state (tokens ++ more) = (next, rest ++ more, true) := by
  induction tokens generalizing state with
  | nil => simp at scanned
  | cons token tokens induction =>
      cases stops : stopped (feed state token) with
      | true =>
          rw [scan_cons_stop stops] at scanned
          simp only [Prod.mk.injEq] at scanned
          rw [List.cons_append, scan_cons_stop stops, scanned.1, scanned.2.1]
      | false =>
          rw [scan_cons_more stops] at scanned
          rw [List.cons_append, scan_cons_more stops]
          exact induction scanned

/-- What a scan consumed, followed by what it kept, is the stream. -/
theorem scan_consumed {state next : State} {tokens rest : List Token}
    {stop : Bool}
    (scanned : scan feed stopped state tokens = (next, rest, stop)) :
    ∃ consumed, tokens = consumed ++ rest ∧
      scan feed stopped state consumed = (next, [], stop) := by
  induction tokens generalizing state with
  | nil =>
      simp only [scan_nil, Prod.mk.injEq] at scanned
      obtain ⟨rfl, rfl, rfl⟩ := scanned
      exact ⟨[], rfl, rfl⟩
  | cons token tokens induction =>
      cases stops : stopped (feed state token) with
      | true =>
          rw [scan_cons_stop stops] at scanned
          simp only [Prod.mk.injEq] at scanned
          obtain ⟨rfl, rfl, rfl⟩ := scanned
          exact ⟨[token], rfl, scan_cons_stop stops⟩
      | false =>
          rw [scan_cons_more stops] at scanned
          obtain ⟨consumed, split, again⟩ := induction scanned
          exact ⟨token :: consumed, by rw [split]; rfl, by
            rw [scan_cons_more stops]; exact again⟩

/-- A scanner whose state satisfies a property before each token keeps it. -/
theorem scan_invariant {Holds : State → Prop}
    (preserved : ∀ state token, stopped state = false →
      Holds state → Holds (feed state token))
    {state next : State} {tokens rest : List Token} {stop : Bool}
    (running : stopped state = false) (initially : Holds state)
    (scanned : scan feed stopped state tokens = (next, rest, stop)) :
    Holds next := by
  induction tokens generalizing state with
  | nil =>
      simp only [scan_nil, Prod.mk.injEq] at scanned
      exact scanned.1 ▸ initially
  | cons token tokens induction =>
      have fed := preserved state token running initially
      cases stops : stopped (feed state token) with
      | true =>
          rw [scan_cons_stop stops] at scanned
          simp only [Prod.mk.injEq] at scanned
          exact scanned.1 ▸ fed
      | false =>
          rw [scan_cons_more stops] at scanned
          exact induction stops fed scanned

theorem scan_stopped {state next : State} {tokens rest : List Token}
    {stop : Bool} (running : stopped state = false)
    (scanned : scan feed stopped state tokens = (next, rest, stop)) :
    stopped next = stop := by
  induction tokens generalizing state with
  | nil =>
      simp only [scan_nil, Prod.mk.injEq] at scanned
      obtain ⟨rfl, -, rfl⟩ := scanned
      exact running
  | cons token tokens induction =>
      cases stops : stopped (feed state token) with
      | true =>
          rw [scan_cons_stop stops] at scanned
          simp only [Prod.mk.injEq] at scanned
          obtain ⟨rfl, -, rfl⟩ := scanned
          exact stops
      | false =>
          rw [scan_cons_more stops] at scanned
          exact induction stops scanned

end Scanner
