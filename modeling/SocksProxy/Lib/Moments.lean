import Mathlib.Data.List.Infix

/-! Parties that share a state with a sequential service.  Each visit of a party
either leaves alone what the service keeps, or serves one message at that
moment. -/

namespace Moments

variable {Visit Message : Type _} {quiet : Visit → Prop}
  {serves : Visit → Message → Prop}

/-- The visits of a trace that serve a message, with these messages, and nothing
but quiet visits between them. -/
inductive Trace (quiet : Visit → Prop) (serves : Visit → Message → Prop) :
    List Visit → List (Visit × Message) → Prop
  | nil : Trace quiet serves [] []
  | rests {visits : List Visit} {served : List (Visit × Message)}
      {visit : Visit} (before : Trace quiet serves visits served)
      (still : quiet visit) : Trace quiet serves (visits ++ [visit]) served
  | serves {visits : List Visit} {served : List (Visit × Message)}
      {visit : Visit} {message : Message}
      (before : Trace quiet serves visits served) (now : serves visit message) :
      Trace quiet serves (visits ++ [visit]) (served ++ [(visit, message)])

/-- Every message is served by one visit of the trace, after the earlier
ones. -/
theorem Trace.split {visits : List Visit} {left right : List (Visit × Message)}
    {visit : Visit} {message : Message}
    (trace : Trace quiet serves visits (left ++ (visit, message) :: right)) :
    ∃ before after, visits = before ++ visit :: after ∧
      Trace quiet serves before left ∧
      serves visit message ∧ Trace quiet serves after right := by
  generalize whole : left ++ (visit, message) :: right = served at trace
  induction trace generalizing right with
  | nil => simp at whole
  | @rests visits served other before still induction =>
      obtain ⟨front, rest, rfl, earlier, now, later⟩ := induction whole
      exact ⟨front, rest ++ [other], by simp, earlier, now, later.rests still⟩
  | @serves visits served other last before now induction =>
      rcases List.eq_nil_or_concat right with rfl | ⟨others, final, rfl⟩
      · obtain ⟨rfl, same⟩ := List.append_inj' whole rfl
        cases same
        exact ⟨visits, [], rfl, before, now, .nil⟩
      · rw [List.concat_eq_append, ← List.cons_append, ← List.append_assoc]
          at whole
        obtain ⟨same, ends⟩ := List.append_inj' whole rfl
        cases ends
        obtain ⟨front, rest, rfl, earlier, first, later⟩ := induction same
        rw [List.concat_eq_append]
        exact ⟨front, rest ++ [other], by simp, earlier, first,
          later.serves now⟩

theorem Trace.of_mem {visits : List Visit} {served : List (Visit × Message)}
    {visit : Visit} {message : Message}
    (trace : Trace quiet serves visits served)
    (member : (visit, message) ∈ served) :
    visit ∈ visits ∧ serves visit message := by
  induction trace with
  | nil => cases member
  | rests before still induction =>
      exact ⟨List.mem_append_left _ (induction member).1, (induction member).2⟩
  | serves before now induction =>
      rcases List.mem_append.mp member with earlier | last
      · exact ⟨List.mem_append_left _ (induction earlier).1,
          (induction earlier).2⟩
      · cases List.mem_singleton.mp last
        exact ⟨List.mem_append_right _ (List.mem_singleton_self _), now⟩

theorem Trace.all_quiet {visits : List Visit} {served : List (Visit × Message)}
    (trace : Trace quiet serves visits served)
    (idle : ∀ visit message, (visit, message) ∈ served → serves visit message →
      quiet visit) :
    ∀ visit ∈ visits, quiet visit := by
  induction trace with
  | nil => exact fun _ member => absurd member List.not_mem_nil
  | rests before still induction =>
      intro visit member
      rcases List.mem_append.mp member with earlier | last
      · exact induction idle visit earlier
      · exact List.mem_singleton.mp last ▸ still
  | serves before now induction =>
      intro visit member
      rcases List.mem_append.mp member with earlier | last
      · exact induction
          (fun other message among =>
            idle other message (List.mem_append_left _ among))
          visit earlier
      · obtain rfl := List.mem_singleton.mp last
        exact idle _ _ (List.mem_append_right _ (List.mem_singleton_self _)) now

end Moments
