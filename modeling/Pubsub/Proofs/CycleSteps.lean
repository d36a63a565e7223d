import Pubsub.Retry.Cycle

/-!
# What a step of a cycle comes to

A step of a cycle keeps the request, the policy and the choice whether to move the cursor; it
finishes only with the result of the attempt it was told of; and it moves the cursor only to the
position that a successful result names, for the channels of the request. None of this depends on
which attempts are retried.
-/

namespace Pubsub

namespace Cycle

variable {cycle : Cycle} {cursor : Cursor} {now : Binary64} {fed : Option Outcome}
  {step : CycleStep}

/-- What the cursor is after a step that was told of an outcome: what it was, or advanced to the
position of a successful result for the channels of the request. -/
def MovesBy (cycle : Cycle) (outcome : Outcome) (cursor cursor' : Cursor) : Prop :=
  cursor' = cursor ∨ ∃ result channels, cycle.request.classify outcome = .ok result
    ∧ result.code = .ok ∧ cycle.request.query.channels? = some channels
    ∧ cursor' = cursor.advance channels (result.timetoken.getD "None")

theorem movesBy_moveCursor {outcome : Outcome} {result : Result} {cursor' : Cursor}
    (hr : cycle.request.classify outcome = .ok result) (hc : result.code = .ok)
    (h : cycle.moveCursor cursor result = .ok cursor') : cycle.MovesBy outcome cursor cursor' := by
  unfold moveCursor at h
  split at h
  · split at h
    · rename_i channels hchannels
      cases h
      exact Or.inr ⟨result, channels, hr, hc, hchannels, rfl⟩
    · cases h
  · cases h
    exact Or.inl rfl

/-- The step after an attempt, as far as it does not depend on the policy. -/
theorem afterOutcome_spec (cycle : Cycle) (cursor : Cursor) (start now : Binary64)
    (outcome : Outcome) :
    (∃ state, (cycle.afterOutcome cursor start now outcome).cycle = { cycle with state })
    ∧ (∀ result, (cycle.afterOutcome cursor start now outcome).effect = .finish result →
        cycle.request.classify outcome = .ok result)
    ∧ cycle.MovesBy outcome cursor (cycle.afterOutcome cursor start now outcome).cursor := by
  unfold afterOutcome
  cases hr : cycle.request.classify outcome with
  | error e =>
    refine ⟨⟨_, rfl⟩, ?_, Or.inl rfl⟩
    rintro result ⟨⟩
  | ok result =>
    dsimp only
    split
    · rename_i hc
      cases hm : cycle.moveCursor cursor result with
      | error e =>
        refine ⟨⟨_, rfl⟩, ?_, Or.inl rfl⟩
        rintro result' ⟨⟩
      | ok cursor' =>
        refine ⟨⟨_, rfl⟩, ?_, movesBy_moveCursor hr hc hm⟩
        rintro result' ⟨⟩
        rfl
    · split
      · refine ⟨⟨_, rfl⟩, ?_, Or.inl rfl⟩
        rintro result' ⟨⟩
        rfl
      · split
        · refine ⟨⟨_, rfl⟩, ?_, Or.inl rfl⟩
          rintro result' ⟨⟩
        · refine ⟨⟨_, rfl⟩, ?_, Or.inl rfl⟩
          rintro result' ⟨⟩

/-- A step sends the request, for the first time or once more, or follows the outcome of an
attempt. -/
theorem resume?_eq_some (h : cycle.resume? cursor now fed = some step) :
    (fed = none ∧ ∃ start, step = ⟨{ cycle with state := .sent start }, cursor, none, .send⟩)
    ∨ ∃ start outcome, cycle.state = .sent start ∧ fed = some outcome
      ∧ step = cycle.afterOutcome cursor start now outcome := by
  unfold resume? at h
  split at h
  · cases h
    exact Or.inl ⟨rfl, now, rfl⟩
  · rename_i start _
    cases h
    exact Or.inl ⟨rfl, start, rfl⟩
  · rename_i start outcome hs
    cases h
    exact Or.inr ⟨start, outcome, hs, rfl, rfl⟩
  · cases h

/-- A cycle that waits before a retry waits some time. -/
theorem pos_of_sleep (h : cycle.resume? cursor now fed = some step) {seconds : Binary64}
    (he : step.effect = .sleep seconds) : Binary64.lt 0 seconds = true := by
  rcases resume?_eq_some h with ⟨-, start, rfl⟩ | ⟨start, outcome, -, -, rfl⟩
  · cases he
  · unfold afterOutcome at he
    dsimp only at he
    split at he
    · cases he
    · split at he
      · split at he <;> cases he
      · split at he
        · cases he
        · split at he
          · rename_i hdelay
            cases he
            exact hdelay
          · cases he

/-- A cycle is about one request throughout. -/
theorem request_of_resume? (h : cycle.resume? cursor now fed = some step) :
    step.cycle.request = cycle.request := by
  rcases resume?_eq_some h with ⟨-, start, rfl⟩ | ⟨start, outcome, -, -, rfl⟩
  · rfl
  · obtain ⟨⟨state, hstate⟩, -, -⟩ := afterOutcome_spec cycle cursor start now outcome
    rw [hstate]

/-- **A cycle finishes with the result of the attempt it was told of.** -/
theorem classify_of_finish (h : cycle.resume? cursor now fed = some step) {result : Result}
    (he : step.effect = .finish result) :
    ∃ outcome, fed = some outcome ∧ cycle.request.classify outcome = .ok result := by
  rcases resume?_eq_some h with ⟨-, start, rfl⟩ | ⟨start, outcome, -, rfl, rfl⟩
  · cases he
  · exact ⟨outcome, rfl, (afterOutcome_spec cycle cursor start now outcome).2.1 result he⟩

/-- A step that is told of no outcome leaves the cursor alone. -/
theorem cursor_of_resume? (h : cycle.resume? cursor now fed = some step) :
    step.cursor = cursor ∨ ∃ outcome, fed = some outcome
      ∧ cycle.MovesBy outcome cursor step.cursor := by
  rcases resume?_eq_some h with ⟨-, start, rfl⟩ | ⟨start, outcome, -, rfl, rfl⟩
  · exact Or.inl rfl
  · exact Or.inr ⟨outcome, rfl, (afterOutcome_spec cycle cursor start now outcome).2.2⟩

/-- **Only the last step of a cycle moves the cursor**, and only if it comes to a result. -/
theorem cursor_of_unfinished (h : cycle.resume? cursor now fed = some step)
    (he : ∀ result, step.effect ≠ .finish result) : step.cursor = cursor := by
  rcases resume?_eq_some h with ⟨-, start, rfl⟩ | ⟨start, outcome, -, rfl, rfl⟩
  · rfl
  · unfold afterOutcome at he ⊢
    split
    · rfl
    · rename_i result hr
      rw [hr] at he
      dsimp only at he
      split
      · rename_i hc
        rw [if_pos hc] at he
        split
        · rename_i hm
          rw [hm] at he
          exact absurd rfl (he result)
        · rfl
      · dsimp only
        split
        · rfl
        · split <;> rfl

end Cycle

end Pubsub
