import SocksProxy.Lib.Transition

/-! Failover: candidates are tried in order until one succeeds.  A failure may
give its reason, and the last reason that was given is remembered. -/

namespace Failover

open Transition

inductive TrialOutcome (Handle Reason : Type _)
  | success (handle : Handle)
  | failure (reason : Option Reason)
  deriving DecidableEq

structure Trial (Candidate Handle Reason : Type _) where
  candidate : Candidate
  outcome : TrialOutcome Handle Reason
  deriving DecidableEq

/-- Where a search stands: how many candidates have failed and the last reason,
or the success that ended it. -/
inductive Standing (Handle Reason : Type _)
  | seeking (tried : Nat) (reason : Option Reason)
  | found (handle : Handle)

variable {Candidate Handle Reason : Type _}

inductive Step (candidates : List Candidate) :
    Standing Handle Reason → Trial Candidate Handle Reason →
      Standing Handle Reason → Prop
  | failure {tried : Nat} {reason given : Option Reason} {candidate : Candidate}
      (next : candidates[tried]? = some candidate) :
      Step candidates (.seeking tried reason) ⟨candidate, .failure given⟩
        (.seeking (tried + 1) (given.or reason))
  | success {tried : Nat} {reason : Option Reason} {candidate : Candidate}
      {handle : Handle} (next : candidates[tried]? = some candidate) :
      Step candidates (.seeking tried reason) ⟨candidate, .success handle⟩
      (.found handle)

def failover (candidates : List Candidate) :
    System (Standing Handle Reason) (Trial Candidate Handle Reason) where
  init standing := standing = .seeking 0 none
  step := Step candidates

namespace Trial

def reason (trial : Trial Candidate Handle Reason) : Option Reason :=
  match trial.outcome with
  | .success _ => none
  | .failure reason => reason

def Failed (trial : Trial Candidate Handle Reason) : Prop :=
  ∃ reason, trial.outcome = .failure reason

end Trial

def lastReason (log : List (Trial Candidate Handle Reason)) : Option Reason :=
  (log.filterMap Trial.reason).getLast?

theorem lastReason_concat (log : List (Trial Candidate Handle Reason))
    (trial : Trial Candidate Handle Reason) :
    lastReason (log ++ [trial]) = trial.reason.or (lastReason log) := by
  unfold lastReason
  rw [List.filterMap_append]
  cases given : trial.reason with
  | none => simp [given]
  | some reason => simp [given]

structure Found (log : List (Trial Candidate Handle Reason))
    (candidate : Candidate) (handle : Handle) : Prop where
  last : ∃ front, log = front ++ [⟨candidate, .success handle⟩] ∧
    ∀ trial ∈ front, trial.Failed

namespace Found

variable {log : List (Trial Candidate Handle Reason)}
  {candidate other : Candidate} {handle found : Handle}

theorem unique (left : Found log candidate handle)
    (right : Found log other found) :
    handle = found := by
  obtain ⟨front, split, -⟩ := left.last
  obtain ⟨_, same, -⟩ := right.last
  have trials := congrArg List.getLast? (split.symm.trans same)
  simp only [List.getLast?_concat, Option.some.injEq, Trial.mk.injEq,
    TrialOutcome.success.injEq] at trials
  exact trials.2

theorem not_failed (found : Found log candidate handle) :
    ¬ ∀ trial ∈ log, trial.Failed := by
  intro failed
  obtain ⟨front, rfl, -⟩ := found.last
  obtain ⟨reason, outcome⟩ :=
    failed _ (List.mem_append_right _ (List.mem_singleton_self _))
  cases outcome

end Found

inductive Logged (candidates : List Candidate)
    (log : List (Trial Candidate Handle Reason)) :
    Standing Handle Reason → Prop
  | seeking (order : log.map Trial.candidate = candidates.take log.length)
      (within : log.length ≤ candidates.length)
      (failed : ∀ trial ∈ log, trial.Failed) :
      Logged candidates log (.seeking log.length (lastReason log))
  | found {candidate : Candidate} {handle : Handle}
      (order : log.map Trial.candidate <+: candidates)
      (found : Found log candidate handle) :
      Logged candidates log (.found handle)

theorem logged_failure {candidates : List Candidate}
    {log : List (Trial Candidate Handle Reason)} {tried : Nat}
    {reason : Option Reason} {trial : Trial Candidate Handle Reason}
    (logged : Logged candidates log (.seeking tried reason))
    (next : candidates[tried]? = some trial.candidate) (failed : trial.Failed) :
    Logged candidates (log ++ [trial])
      (.seeking (tried + 1) (trial.reason.or reason)) := by
  cases logged with
  | seeking order within before =>
      obtain ⟨below, same⟩ := List.getElem?_eq_some_iff.mp next
      have counted : (log ++ [trial]).length = log.length + 1 := by simp
      rw [← lastReason_concat, ← counted]
      refine .seeking ?_ ?_ ?_
      · rw [List.map_append, order, counted, List.take_add_one, next]
        rfl
      · rw [counted]
        exact below
      · intro other member
        rcases List.mem_append.mp member with early | last
        · exact before other early
        · rw [List.mem_singleton] at last
          exact last ▸ failed

theorem logged_step {candidates : List Candidate}
    {log : List (Trial Candidate Handle Reason)}
    {standing next : Standing Handle Reason}
    {trial : Trial Candidate Handle Reason}
    (logged : Logged candidates log standing)
    (step : (failover candidates).step standing trial next) :
    Logged candidates (log ++ [trial]) next := by
  cases step with
  | failure next => exact logged_failure logged next ⟨_, rfl⟩
  | @success tried reason candidate handle next =>
      cases logged with
      | seeking order within failed =>
          refine .found ?_ ⟨log, rfl, failed⟩
          rw [List.map_append, order]
          refine ⟨candidates.drop (log.length + 1), ?_⟩
          have whole := List.take_append_drop (log.length + 1) candidates
          rw [List.take_add_one, next] at whole
          exact whole

theorem logged_of_run {candidates : List Candidate}
    {log : List (Trial Candidate Handle Reason)}
    {standing : Standing Handle Reason}
    (run : (failover candidates).Run (.seeking 0 none) log standing) :
    Logged candidates log standing :=
  run.history logged_step (.seeking (by simp) (Nat.zero_le _) (by simp))

namespace Logged

variable {candidates : List Candidate}
  {log : List (Trial Candidate Handle Reason)}
  {standing : Standing Handle Reason}

/-- Candidates are tried in order, each at most once. -/
theorem order (logged : Logged candidates log standing) :
    log.map Trial.candidate <+: candidates := by
  cases logged with
  | seeking order => exact order ▸ List.take_prefix _ _
  | found order => exact order

theorem length_le (logged : Logged candidates log standing) :
    log.length ≤ candidates.length := by
  have counted := logged.order.length_le
  rwa [List.length_map] at counted

/-- The search stops at the first success. -/
theorem stops (logged : Logged candidates log standing) :
    ∀ trial ∈ log.dropLast, trial.Failed := by
  cases logged with
  | seeking _ _ failed =>
      intro trial member
      exact failed trial ((List.dropLast_sublist log).subset member)
  | found _ found =>
      obtain ⟨front, rfl, failed⟩ := found.last
      rwa [List.dropLast_concat]

end Logged

end Failover
