import Pubsub.Call
import Pubsub.Frontend
import Pubsub.Proofs.Readings
import Pubsub.Proofs.RetryCycle

/-!
# What is seen of an operation

A **script** says what the server answers to the requests of an operation, one after the other, and
how long each answer takes. It is **timely** if every answer comes before its request counts as
unanswered, on a clock that goes on by the time that answers take and by the pauses before retries,
and if its last answer is the first one that ends the operation.

`Cycle.Performs` says what is then seen, at which readings of the clock: requests, pauses, reports,
and what the callback is told. Nothing of it is about frontends; it only asks the cycle what it
wants done next. A timely script has a performance (`Request.Timely.exists_performs`).
-/

namespace Pubsub

variable {Handler : Type}

/-- An answer of the server, and the seconds that it takes. -/
structure Exchange where
  answer : Answer
  takes : Binary64

/-- What can be seen of an operation from outside. -/
inductive Sight (Handler : Type) where
  | sent (request : Request)
  | slept (seconds : Binary64)
  | printed (line : String)
  | notified (handler : Handler) (notification : Notification)

/-- Something that was seen, and the reading of the clock then. -/
structure Sighting (Handler : Type) where
  clock : Binary64
  sight : Sight Handler

/-- How an operation ends. -/
structure Ending where
  clock : Binary64
  result : Result
  cursor : Cursor

/-! ## Performances -/

/-- The report of a step, as it is seen. -/
def CycleStep.shown (step : CycleStep) (now : Binary64) : List (Sighting Handler) :=
  step.report.toList.map fun line => ⟨now, .printed line⟩

/-- The notification of a callback, if there is one. -/
def Result.told (result : Result) (callback : Option Handler) (now : Binary64) :
    List (Sighting Handler) :=
  callback.toList.map fun handler => ⟨now, .notified handler (Notification.ofResult result)⟩

namespace Cycle

/-- What is seen of a cycle that is resumed now, when the exchanges go as in the script, each answer
coming before the request counts as unanswered; and how it ends. -/
inductive Performs (callback : Option Handler) : Cycle → Cursor → Binary64 → Option Outcome →
    List Exchange → List (Sighting Handler) → Ending → Prop where
  | send {cycle : Cycle} {cursor : Cursor} {now : Binary64} {fed : Option Outcome}
      {step : CycleStep} {e : Exchange} {outcome : Outcome} {script : List Exchange}
      {seen : List (Sighting Handler)} {ending : Ending}
      (h : cycle.resume? cursor now fed = some step) (he : step.effect = .send)
      (ho : e.answer.outcome = .ok outcome) (hle : now.le (now + e.takes) = true)
      (hlt : (now + e.takes).lt (now + cycle.request.timeout) = true)
      (hr : Performs callback step.cycle step.cursor (now + e.takes) (some outcome) script seen
        ending) :
      Performs callback cycle cursor now fed (e :: script)
        (step.shown now ++ ⟨now, .sent cycle.request⟩ :: seen) ending
  | sleep {cycle : Cycle} {cursor : Cursor} {now seconds : Binary64} {fed : Option Outcome}
      {step : CycleStep} {script : List Exchange} {seen : List (Sighting Handler)} {ending : Ending}
      (h : cycle.resume? cursor now fed = some step) (he : step.effect = .sleep seconds)
      (hr : Performs callback step.cycle step.cursor (now + seconds) none script seen ending) :
      Performs callback cycle cursor now fed script
        (step.shown now ++ ⟨now, .slept seconds⟩ :: seen) ending
  | finish {cycle : Cycle} {cursor : Cursor} {now : Binary64} {fed : Option Outcome}
      {step : CycleStep} {result : Result} (h : cycle.resume? cursor now fed = some step)
      (he : step.effect = .finish result) :
      Performs callback cycle cursor now fed [] (step.shown now ++ result.told callback now)
        ⟨now, result, step.cursor⟩

end Cycle

/-! ## Timely scripts -/

/-- Every answer of the script comes in time, and its last one is the first that ends the operation.
The first attempt began at `start`, and the next one begins now. -/
inductive Request.Timely (request : Request) (policy : RetryPolicy) (start : Binary64) :
    Binary64 → List Exchange → Prop where
  | last {now : Binary64} {e : Exchange} {outcome : Outcome} (ho : e.answer.outcome = .ok outcome)
      (hle : now.le (now + e.takes) = true)
      (hlt : (now + e.takes).lt (now + request.timeout) = true)
      (hs : policy.Stops start (now + e.takes) (request.resultOf outcome).code) :
      Timely request policy start now [e]
  | retry {now : Binary64} {e : Exchange} {outcome : Outcome} {script : List Exchange}
      (ho : e.answer.outcome = .ok outcome) (hle : now.le (now + e.takes) = true)
      (hlt : (now + e.takes).lt (now + request.timeout) = true)
      (hs : ¬ policy.Stops start (now + e.takes) (request.resultOf outcome).code)
      (hr : Timely request policy start
        (if Binary64.lt 0 policy.delay then now + e.takes + policy.delay else now + e.takes)
        script) :
      Timely request policy start now (e :: script)

section Timely

open Pubsub.Cycle

variable {request : Request} {policy : RetryPolicy} {start now : Binary64} {script : List Exchange}

/-- What is seen of a timely script from the next sending of the request on, whichever step of the
cycle wants that. -/
theorem Request.Timely.exists_performs_send (hq : request.query ≠ .bare)
    (h : request.Timely policy start now script) (callback : Option Handler) (cursor : Cursor) :
    ∃ seen ending, ∀ {cycle : Cycle} {before : Cursor} {fed : Option Outcome}
      {report : Option String}, cycle.request = request →
      cycle.resume? before now fed = some ⟨sentAt request policy start, cursor, report, .send⟩ →
      cycle.Performs callback before now fed script
        (report.toList.map (fun line => ⟨now, .printed line⟩) ++ ⟨now, .sent request⟩ :: seen)
        ending := by
  -- It is enough to see what follows the sending.
  suffices hsuff : ∃ e rest outcome seen ending, script = e :: rest ∧ e.answer.outcome = .ok outcome
      ∧ now.le (now + e.takes) = true ∧ (now + e.takes).lt (now + request.timeout) = true
      ∧ (sentAt request policy start).Performs callback cursor (now + e.takes) (some outcome) rest
        seen ending by
    obtain ⟨e, rest, outcome, seen, ending, rfl, ho, hle, hlt, hrest⟩ := hsuff
    refine ⟨seen, ending, ?_⟩
    rintro cycle before fed report rfl hstep
    exact .send hstep rfl ho hle hlt hrest
  induction h with
  | @last now e outcome ho hle hlt hs =>
    have hfinal : (sentAt request policy start).resume? cursor (now + e.takes) (some outcome)
        = some _ :=
      congrArg some (afterOutcome_of_stops hq (Answer.isGenuine_outcome ho) hs)
    exact ⟨e, [], outcome, _, _, rfl, ho, hle, hlt, .finish hfinal rfl⟩
  | @retry now e outcome script ho hle hlt hs hr ih =>
    obtain ⟨e', rest, outcome', seen, ending, rfl, ho', hle', hlt', hrest⟩ := ih
    have hnext : (sentAt request policy start).resume? cursor (now + e.takes) (some outcome)
        = some _ :=
      congrArg some (afterOutcome_of_not_stops hq hs)
    by_cases hdelay : Binary64.lt 0 policy.delay = true
    · simp only [hdelay, if_true] at hnext hle' hlt' hrest
      have hpaused : Cycle.resume? { sentAt request policy start with state := .paused start }
          cursor (now + e.takes + policy.delay) none
            = some ⟨sentAt request policy start, cursor, none, .send⟩ := rfl
      exact ⟨e, _, outcome, _, _, rfl, ho, hle, hlt,
        .sleep hnext rfl (.send hpaused rfl ho' hle' hlt' hrest)⟩
    · simp only [hdelay] at hnext hle' hlt' hrest
      exact ⟨e, _, outcome, _, _, rfl, ho, hle, hlt, .send hnext rfl ho' hle' hlt' hrest⟩

/-- **A timely script has a performance**: the cycle of the request neither raises an error nor goes
on after the last answer. -/
theorem Request.Timely.exists_performs (hq : request.query ≠ .bare)
    (h : request.Timely policy start start script) (callback : Option Handler) (cursor : Cursor) :
    ∃ seen ending, (Cycle.start request policy (request.kind == .subscribe)).Performs callback
      cursor start none script seen ending := by
  obtain ⟨seen, ending, hperforms⟩ := h.exists_performs_send hq callback cursor
  exact ⟨_, _, hperforms rfl rfl⟩

end Timely

end Pubsub
