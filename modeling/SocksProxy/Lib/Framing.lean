import Mathlib.Data.List.Infix

/-! Streams of messages: a message is recognised by the octets that encode it,
and a server answers one message after the other. -/

namespace Framing

variable {Message Octet State : Type _}

def stream (encode : Message → List Octet) (messages : List Message) :
    List Octet :=
  messages.flatMap encode

def serveAll (serve : State → Message → State × List Octet) (first : State) :
    List Message → State × List Octet
  | [] => (first, [])
  | message :: rest =>
      let served := serve first message
      let others := serveAll serve served.1 rest
      (others.1, served.2 ++ others.2)

/-- The positions in a stream at which a message ends, and its start. -/
def boundaries (encode : Message → List Octet) (messages : List Message) :
    List Nat :=
  messages.inits.map fun front => (stream encode front).length

section Serve

variable (serve : State → Message → State × List Octet)

theorem serveAll_append (first : State) (front rest : List Message) :
    serveAll serve first (front ++ rest) =
      ((serveAll serve (serveAll serve first front).1 rest).1,
        (serveAll serve first front).2 ++
          (serveAll serve (serveAll serve first front).1 rest).2) := by
  induction front generalizing first with
  | nil => rfl
  | cons message front induction =>
      simp only [List.cons_append, serveAll, induction, List.append_assoc]

theorem serveAll_concat (first : State) (front : List Message)
    (message : Message) :
    serveAll serve first (front ++ [message]) =
      ((serve (serveAll serve first front).1 message).1,
        (serveAll serve first front).2 ++
          (serve (serveAll serve first front).1 message).2) := by
  rw [serveAll_append]
  simp [serveAll]

end Serve

variable {encode : Message → List Octet}

@[simp] theorem stream_nil : stream encode ([] : List Message) = [] := rfl

theorem stream_cons (message : Message) (rest : List Message) :
    stream encode (message :: rest) = encode message ++ stream encode rest :=
      rfl

theorem stream_append (front rest : List Message) :
    stream encode (front ++ rest) = stream encode front ++ stream encode rest :=
  List.flatMap_append

/-- Of a stream that begins with a message, either all its octets have arrived
or a proper part of them. -/
theorem arrived_or_part {message received pending rest : List Octet}
    (split : received ++ pending = message ++ rest) :
    (∃ more, received = message ++ more ∧ more ++ pending = rest) ∨
      received.length < message.length ∧
        received = message.take received.length := by
  rcases List.append_eq_append_iff.mp split with
    ⟨more, whole, _⟩ | ⟨more, whole, others⟩
  · cases more with
    | nil =>
        rw [List.append_nil] at whole
        subst whole
        exact .inl ⟨[], (List.append_nil _).symm, List.append_cancel_left split⟩
    | cons octet more =>
        subst whole
        exact .inr ⟨by simp, by simp⟩
  · exact .inl ⟨more, whole, others.symm⟩

theorem mem_boundaries {messages : List Message} {position : Nat} :
    position ∈ boundaries encode messages ↔
      ∃ front, front <+: messages ∧
      (stream encode front).length = position := by
  simp [boundaries]

/-- While the next message is incomplete, the octets received end at a boundary
exactly when nothing of it has arrived. -/
theorem boundary_iff {served todo : List Message} {part : List Octet}
    (short : ∀ message rest, todo = message :: rest →
      part.length < (encode message).length)
    (last : todo = [] → part = []) :
    (stream encode served).length + part.length ∈
        boundaries encode (served ++ todo) ↔ part = [] := by
  rw [mem_boundaries]
  constructor
  · rintro ⟨front, begins, position⟩
    cases todo with
    | nil => exact last rfl
    | cons message rest =>
        rcases List.prefix_or_prefix_of_prefix begins
          (List.prefix_append served (message :: rest)) with
          ⟨others, rfl⟩ | ⟨more, rfl⟩
        · rw [stream_append, List.length_append] at position
          rw [← List.length_eq_zero_iff]
          omega
        · have within := (List.prefix_append_right_inj served).mp begins
          rw [stream_append, List.length_append] at position
          cases more with
          | nil =>
              rw [← List.length_eq_zero_iff]
              simpa using position.symm
          | cons other more =>
              obtain ⟨rfl, _⟩ := List.cons_prefix_cons.mp within
              rw [stream_cons, List.length_append] at position
              have less := short other rest rfl
              omega
  · rintro rfl
    exact ⟨served, List.prefix_append .., by simp⟩

end Framing
