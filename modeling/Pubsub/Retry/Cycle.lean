import Pubsub.Retry.Outcome
import Pubsub.Retry.Policy

/-!
# The life of an operation

The cycle of an operation is: send the request, classify what comes of it, and either end with the
result or send the same request again, after a pause if the policy has one. It performs nothing
itself. It is a machine whose `resume` takes what the last effect came to and the reading of the
clock, and gives the next effect; whoever drives it sends requests and waits.

A successful result sets the positions of the channels of a subscription. A failure is reported if
the policy says so, as retried or as final.
-/

namespace Pubsub

/-- Where a cycle stands. -/
inductive CycleState where
  /-- Nothing was sent yet. -/
  | fresh
  /-- The request was sent, and the first attempt began at `start`. -/
  | sent (start : Binary64)
  /-- A retry is being waited for. -/
  | paused (start : Binary64)
  /-- The cycle has ended. -/
  | ended
deriving Inhabited

/-- The cycle of one operation. -/
structure Cycle where
  request : Request
  policy : RetryPolicy
  /-- Whether a success sets positions. -/
  movesCursor : Bool
  state : CycleState
deriving Inhabited

/-- What a cycle wants done next. -/
inductive Effect where
  /-- Send the request. -/
  | send
  /-- Wait before the next attempt. -/
  | sleep (seconds : Binary64)
  /-- Nothing more: the operation has this result. -/
  | finish (result : Result)
  /-- Nothing more: the outcome could not be classified, or its position not recorded. -/
  | raise (e : Error)
deriving Inhabited

/-- What a step of a cycle comes to: the cycle after it, the cursor after it, the report it makes,
and the next effect. -/
structure CycleStep where
  cycle : Cycle
  cursor : Cursor
  report : Option String
  effect : Effect
deriving Inhabited

namespace Cycle

/-- The cycle of a request that was not sent yet. -/
def start (request : Request) (policy : RetryPolicy) (movesCursor : Bool) : Cycle :=
  ⟨request, policy, movesCursor, .fresh⟩

/-- The report of a failed attempt. -/
def report (request : Request) (result : Result) (retry : Bool) : String :=
  "pnclient: " ++ request.kind.name ++ " failed with " ++ result.code.name ++ " (" ++ result.text
    ++ "), " ++ (if retry then "retrying" else "giving up")

/-- Is the budget of the policy used up? -/
def isSpent (policy : RetryPolicy) (start now : Binary64) : Bool :=
  match policy.budget with
  | none => false
  | some budget => budget.le (now - start)

/-- The cursor after a successful result. A request that names no channels cannot move one. -/
def moveCursor (cycle : Cycle) (cursor : Cursor) (result : Result) : Except Error Cursor :=
  if cycle.movesCursor then
    match cycle.request.query.channels? with
    | some channels => .ok (cursor.advance channels (result.timetoken.getD "None"))
    | none => .error (.withoutChannels cycle.request.query.requestName)
  else .ok cursor

/-- The step after an attempt that ended in `outcome`, the first attempt having begun at `start`. -/
def afterOutcome (cycle : Cycle) (cursor : Cursor) (start now : Binary64) (outcome : Outcome) :
    CycleStep :=
  match cycle.request.classify outcome with
  | .error e => ⟨{ cycle with state := .ended }, cursor, none, .raise e⟩
  | .ok result =>
    if result.code = .ok then
      match cycle.moveCursor cursor result with
      | .ok cursor => ⟨{ cycle with state := .ended }, cursor, none, .finish result⟩
      | .error e => ⟨{ cycle with state := .ended }, cursor, none, .raise e⟩
    else
      let retry := cycle.policy.retries result.code && !isSpent cycle.policy start now
      let line :=
        if cycle.policy.reports then some (report cycle.request result retry) else none
      if !retry then ⟨{ cycle with state := .ended }, cursor, line, .finish result⟩
      else if Binary64.lt 0 cycle.policy.delay then
        ⟨{ cycle with state := .paused start }, cursor, line, .sleep cycle.policy.delay⟩
      else ⟨{ cycle with state := .sent start }, cursor, line, .send⟩

/-- The next step of a cycle. `outcome` is what the attempt in progress came to, if there is one; a
cycle that sent its request and is not told an outcome, or that has ended, has no step. -/
def resume? (cycle : Cycle) (cursor : Cursor) (now : Binary64) (outcome : Option Outcome) :
    Option CycleStep :=
  match cycle.state, outcome with
  | .fresh, none => some ⟨{ cycle with state := .sent now }, cursor, none, .send⟩
  | .paused start, none => some ⟨{ cycle with state := .sent start }, cursor, none, .send⟩
  | .sent start, some outcome => some (cycle.afterOutcome cursor start now outcome)
  | _, _ => none

end Cycle

end Pubsub
