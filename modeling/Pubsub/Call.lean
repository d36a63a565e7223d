import Pubsub.Retry.Cycle
import Pubsub.Session

/-!
# Calls

A call is one accepted operation: its request, the cycle that its frontend drives, and the callback
that learns what came of it. It is settled once. **Completing** it hands the result to the session,
releases the session, and only then notifies the callback, which may therefore start the next
operation at once. **Abandoning** it releases the session and notifies nobody; abandoning a settled
call does nothing, so an error that passes several handlers may be met by each of them.
-/

namespace Pubsub

/-- What a callback is told. -/
structure Notification where
  code : Code
  /-- The channel of each message; only for subscriptions. -/
  channels : Option (List String)
  body : Body
deriving Inhabited

/-- What the callback of an operation is told of its result. -/
def Notification.ofResult (result : Result) : Notification :=
  { code := result.code
    channels := if result.kind = .subscribe then some (result.channels.getD []) else none
    body := result.body }

/-- One accepted operation. `Handler` is what an application gives as a callback. -/
structure Call (Handler : Type) where
  /-- The session that the call holds. -/
  session : Nat
  request : Request
  callback : Option Handler
  /-- Was the call completed or abandoned? -/
  settled : Bool
  cycle : Cycle
deriving Inhabited

namespace Call

variable {Handler : Type}

/-- A new call for a request on a session whose retry policy is `policy`. Only a subscription moves
the cursor. -/
def start (session : Nat) (request : Request) (policy : RetryPolicy) (callback : Option Handler) :
    Call Handler :=
  { session, request, callback, settled := false
    cycle := Cycle.start request policy (request.kind == .subscribe) }

/-- The call abandoned, and its session `s` released if that settles it. -/
def abandon (call : Call Handler) (s : Session) : Call Handler × Session :=
  if call.settled then (call, s) else ({ call with settled := true }, s.release none)

/-- The call completed with a result, and its session `s` released. -/
def complete (call : Call Handler) (s : Session) (result : Result) :
    Except Error (Call Handler × Session) :=
  if call.settled then .error (.alreadyCompleted call.request.display)
  else .ok ({ call with settled := true }, s.release (some result))

/-! ## A call is settled once -/

/-- Abandoning a settled call does nothing. -/
theorem abandon_of_settled {call : Call Handler} (s : Session) (h : call.settled = true) :
    call.abandon s = (call, s) := by
  simp [abandon, h]

/-- **A call is completed exactly if it was not settled before.** -/
theorem complete_eq_ok_iff (call call' : Call Handler) (s s' : Session) (result : Result) :
    call.complete s result = .ok (call', s')
      ↔ call.settled = false ∧ call' = { call with settled := true }
        ∧ s' = s.release (some result) := by
  cases h : call.settled <;> simp [complete, h, eq_comm]

end Call

end Pubsub
