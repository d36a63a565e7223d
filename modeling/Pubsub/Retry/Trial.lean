import Pubsub.Retry.Cycle
import Pubsub.Text.Lines

/-!
# Trying out a cycle

A trial drives a cycle against outcomes that are known in advance, on a clock that starts at zero
and moves only by the time that outcomes take and by the waits of the cycle. It ends when the cycle
does, or when the cycle sends its request and no outcome is left.
-/

namespace Pubsub

/-- What a trial shows. -/
inductive TrialEvent where
  | sent
  /-- The cursor just before an outcome is delivered. -/
  | position (cursor : Cursor)
  | slept (seconds : Binary64)
  | printed (line : String)
  | returned (result : Result)
  /-- The request was sent, and there is no outcome left. -/
  | exhausted
deriving Inhabited

/-- The lines that a report is printed as. -/
def reportEvents (report : Option String) : List TrialEvent :=
  match report with
  | some text => (textLines text).map .printed
  | none => []

/-- The rest of a trial in which the cycle is about to be resumed with `fed`: what it shows, and the
cursor in the end. An error out of the cycle ends the trial. Every second step at least uses up an
outcome, so a fuel of two steps for each, and some for the ends, is enough. -/
def Cycle.tryFrom (cycle : Cycle) (cursor : Cursor) (now : Binary64) (fed : Option Outcome)
    (outcomes : List (Outcome × Binary64)) : Nat → Except Error (List TrialEvent × Cursor)
  | 0 => .ok ([], cursor)
  | fuel + 1 =>
    match cycle.resume? cursor now fed with
    | none => .ok ([], cursor)
    | some step =>
      let shown := reportEvents step.report
      match step.effect with
      | .raise e => .error e
      | .finish result => .ok (shown ++ [.returned result], step.cursor)
      | .sleep seconds => do
        let (events, cursor) ←
          step.cycle.tryFrom step.cursor (now + seconds) none outcomes fuel
        return (shown ++ .slept seconds :: events, cursor)
      | .send =>
        match outcomes with
        | [] => .ok (shown ++ [.exhausted], step.cursor)
        | (outcome, takes) :: rest => do
          let (events, cursor) ←
            step.cycle.tryFrom step.cursor (now + takes) (some outcome) rest fuel
          return (shown ++ .sent :: .position step.cursor :: events, cursor)

/-- A trial of a cycle that was not started yet. -/
def Cycle.trial (cycle : Cycle) (cursor : Cursor) (outcomes : List (Outcome × Binary64)) :
    Except Error (List TrialEvent × Cursor) :=
  cycle.tryFrom cursor 0 none outcomes (2 * outcomes.length + 3)

end Pubsub
