import Pubsub.Result
import Pubsub.Text.Quoted

/-!
# Which failures are retried

A retry policy has one bit for each result code, kept as an integer of any size and read in two's
complement, so that a negative mask has infinitely many bits set. Successes and refusals are never
retried, whatever their bits say. A policy also says how long to wait before a retry, for how long
after the first attempt retries may be made, and whether failures are reported.
-/

namespace Pubsub

/-- A retry policy. -/
structure RetryPolicy where
  /-- One bit for each code. -/
  mask : Int
  /-- Whether failures are reported. -/
  reports : Bool
  /-- The seconds before each retry. -/
  delay : Binary64
  /-- The seconds after the first attempt in which retries may be made, if they are bounded. -/
  budget : Option Binary64
deriving Inhabited

namespace RetryPolicy

/-- The default mask: everything but malformed responses. -/
def retryDefault : Int := -33

/-- The bit of an integer at a position, in two's complement. -/
def bit (mask : Int) (position : Nat) : Bool := mask.fdiv (Nat.pow 2 position) % 2 = 1

/-- Is a failure with this code retried? -/
def retries (policy : RetryPolicy) (code : Code) : Bool :=
  code != .ok && code != .occupied && bit policy.mask code.number

/-- The policy that the arguments of an application describe. -/
def ofArguments (mask reports delay budget : Json) : Except Error RetryPolicy := do
  let mask ← mask.toInteger
  let delay ← delay.toDouble
  let budget ← match budget with
    | .null => pure none
    | budget => budget.toDouble.map some
  return ⟨mask, reports.isTruthy, delay, budget⟩

end RetryPolicy

end Pubsub
