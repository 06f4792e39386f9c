import SocksProxy.Lib.Transition

/-! One-way streams that end with a half-close: values are received from a
source until it finishes, kept, and delivered to a destination, which is told of
the end by closing. -/

namespace HalfClose

open Transition

variable {Value : Type _}

/-- What happens to a stream; an attempt is a delivery that failed. -/
inductive Event (Value : Type _)
  | receive (values : List Value)
  | finish
  | deliver (values : List Value)
  | attempt
  | close

namespace Event

def inflow : Event Value → List Value
  | receive values => values
  | _ => []

def outflow : Event Value → List Value
  | deliver values => values
  | _ => []

end Event

structure Stream (Value : Type _) where
  pending : List Value
  finished : Bool
  closed : Bool

/-- Nothing is received once the source has finished, and nothing is delivered
once the destination was closed, which waits for both the end of the source and
the last value. -/
inductive Step (s : Stream Value) : Event Value → Stream Value → Prop
  | receive {values : List Value} (going : s.finished = false) :
      Step s (.receive values) { s with pending := s.pending ++ values }
  | finish (going : s.finished = false) :
      Step s .finish { s with finished := true }
  | deliver {values rest : List Value} (going : s.closed = false)
      (held : s.pending = values ++ rest) :
      Step s (.deliver values) { s with pending := rest }
  | attempt (going : s.closed = false) : Step s .attempt s
  | close (finished : s.finished = true) (drained : s.pending = [])
      (going : s.closed = false) : Step s .close { s with closed := true }

def stream (Value : Type _) : System (Stream Value) (Event Value) where
  init s := s.finished = false ∧ s.closed = false
  step := Step

def Settled (s : Stream Value) : Prop :=
  s.closed = true → s.finished = true ∧ s.pending = []

def Prompt (s : Stream Value) : Prop :=
  s.finished = true → s.pending = [] → s.closed = true

theorem Settled.step {s next : Stream Value} {event : Event Value}
    (settled : Settled s) (step : Step s event next) : Settled next := by
  intro closed
  cases step with
  | receive going => exact absurd (settled closed).1 (by simp [going])
  | finish going => exact absurd (settled closed).1 (by simp [going])
  | deliver going => exact absurd closed (by simp [going])
  | attempt going => exact absurd closed (by simp [going])
  | close finished drained => exact ⟨finished, drained⟩

section Runs

variable {first last : Stream Value} {t : List (Event Value)}
  (run : (stream Value).Run first t last)

include run

theorem settled_of_run (settled : Settled first) : Settled last := by
  have preserved : ∀ {s : Stream Value} {event next}, Settled s →
      (stream Value).step s event next → Settled next :=
    fun settled step => settled.step step
  exact run.invariant @preserved settled

theorem balance :
    first.pending ++ t.flatMap Event.inflow = t.flatMap Event.outflow ++
      last.pending := by
  induction run with
  | nil => simp
  | snoc before step induction =>
      rw [List.flatMap_append, List.flatMap_append, List.flatMap_singleton,
        List.flatMap_singleton, ← List.append_assoc, induction,
        List.append_assoc, List.append_assoc]
      apply congrArg
      cases step with
      | receive => rfl
      | finish => exact List.append_nil _
      | deliver going held => exact (List.append_nil _).trans held
      | attempt => exact List.append_nil _
      | close => exact List.append_nil _

theorem finished_iff :
    last.finished = true ↔ first.finished = true ∨ .finish ∈ t := by
  induction run with
  | nil => simp
  | snoc before step induction =>
      rw [List.mem_append, List.mem_singleton, ← or_assoc, ← induction]
      cases step <;> simp

theorem closed_iff : last.closed = true ↔ first.closed = true ∨ .close ∈ t := by
  induction run with
  | nil => simp
  | snoc before step induction =>
      rw [List.mem_append, List.mem_singleton, ← or_assoc, ← induction]
      cases step <;> simp

theorem nothing_after_close (settled : Settled first)
    (closed : first.closed = true) :
    t = [] ∧ last = first := by
  induction run with
  | nil => exact ⟨rfl, rfl⟩
  | snoc before step induction =>
      obtain ⟨-, rfl⟩ := induction
      obtain ⟨finished, -⟩ := settled closed
      cases step with
      | receive going => exact absurd finished (by simp [going])
      | finish going => exact absurd finished (by simp [going])
      | deliver going => exact absurd closed (by simp [going])
      | attempt going => exact absurd closed (by simp [going])
      | close _ _ going => exact absurd closed (by simp [going])

end Runs

/-- A stream is closed after its source has finished and all was delivered, as
the last thing that happens to it. -/
theorem closing {first last : Stream Value} {front rest : List (Event Value)}
    (settled : Settled first)
    (run : (stream Value).Run first (front ++ .close :: rest) last) :
    (first.finished = true ∨ .finish ∈ front) ∧
      first.pending ++ front.flatMap Event.inflow =
        front.flatMap Event.outflow ∧
      rest = [] := by
  obtain ⟨middle, before, after⟩ := run.split
  obtain ⟨closed, closes, later⟩ :=
    @System.Run.split _ _ _ _ _ [Event.close] rest after
  have step := closes.of_single
  have here := settled_of_run before settled
  have nothing :=
    nothing_after_close later (here.step step) (by cases step; rfl)
  cases step with
  | close finished drained =>
      refine ⟨(finished_iff before).mp finished, ?_, nothing.1⟩
      have balanced := balance before
      rwa [drained, List.append_nil] at balanced

end HalfClose
