import Pubsub.Client.Basic

/-!
# Calls on a reactor

On a reactor a call is a chain of jobs. Resuming its cycle asks for a wait, which is a timer that
resumes it again, or for an attempt. An attempt is first given a timer, for the time after which its
request counts as unanswered, and then to the pool; the worker hands what came of it back as a job.
Whichever of the two comes first settles the attempt, and the other is ignored.

When the reactor or the pool takes no more work the call cannot go on, and is abandoned.
-/

namespace Pubsub

namespace Client

variable {Handler : Type}

/-- An error that ended the work on a call: it is printed, and the call is abandoned. -/
def giveUpCall (w : Client Handler) (c : Nat) (e : Error) : Client Handler :=
  ({ w with work := .none }.print e.describe).abandonCall c

/-- What an attempt that was not answered in time comes to. -/
def unanswered (request : Request) : Outcome :=
  .failure .timeout (some ("no response in " ++ request.timeout.toTenths ++ " sec"))

/-- What the pool handed back, as an outcome: here no error escapes. -/
def arrivedOutcome : Except Error Outcome → Outcome
  | .ok outcome => outcome
  | .error e => .failure .ioError (some (Answer.describeFault e.family e.message))

/-- The attempt settled, if it was not. -/
def settleAttempt? (w : Client Handler) (a : Nat) : Option (Client Handler × Attempt) :=
  match w.attempts[a]? with
  | some attempt =>
    if attempt.settled then none
    else some ({ w with attempts := w.attempts.set a { attempt with settled := true } }, attempt)
  | none => none

/-- The reactor begins a job. -/
def beginJob (w : Client Handler) : Job → Client Handler
  | .advance c => { w with work := .advancing c none }
  | .arrive a answer =>
    match w.settleAttempt? a with
    | some (w, attempt) =>
      { w with
        reactor := w.reactor.cancel attempt.timer
        work := .advancing attempt.call (some (arrivedOutcome answer)) }
    | none => w
  | .expire a =>
    match w.settleAttempt? a with
    | some (w, attempt) =>
      match w.calls[attempt.call]? with
      | some call => { w with work := .advancing attempt.call (some (unanswered call.request)) }
      | none => w
    | none => w

/-- The cycle of a call resumed on the reactor. -/
def advanceCall (w : Client Handler) (c : Nat) (fed : Option Outcome) : Client Handler :=
  match w.resumeCall? c fed with
  | none => { w with work := .none }
  | some (w, .send) => { w with work := .arming c }
  | some (w, .sleep seconds) => { w with work := .pausing c seconds }
  | some (w, .raise e) => w.giveUpCall c e
  | some (w, .finish result) =>
    match w.completeCall c result with
    | .error e => { w with work := .none }.print e.describe
    | .ok (w, true) => { w with work := .calling c }
    | .ok (w, false) => { w with work := .none }

/-- The wait for a retry scheduled. -/
def pauseCall (w : Client Handler) (c : Nat) (seconds : Binary64) : Client Handler :=
  match w.reactor.schedule w.clock seconds (.advance c) with
  | .error e => w.giveUpCall c e
  | .ok (_, reactor) => { w with reactor, work := .none }

/-- The timer of a new attempt scheduled. -/
def armCall (w : Client Handler) (c : Nat) : Client Handler :=
  match w.calls[c]? with
  | none => { w with work := .none }
  | some call =>
    let a := w.attempts.length
    match w.reactor.schedule w.clock call.request.timeout (.expire a) with
    | .error e => w.giveUpCall c e
    | .ok (timer, reactor) =>
      { w with
        reactor
        attempts := w.attempts ++ [⟨c, timer.number, false, false⟩]
        work := .submitting a }

/-- An attempt given to the pool. -/
def submitAttempt (w : Client Handler) (a : Nat) : Client Handler :=
  match w.attempts[a]? with
  | none => { w with work := .none }
  | some attempt =>
    if w.frontend.poolClosed then w.giveUpCall attempt.call .poolShutDown
    else
      { w with
        attempts := w.attempts.set a { attempt with inFlight := true }
        work := .none }.record (.sent attempt.call)

/-- The next step of the thread of the reactor. There is none while it polls, while a callback runs,
and when the loop has ended. -/
def stepReactor? (w : Client Handler) : Option (Client Handler) :=
  match w.work with
  | .advancing c fed => some (w.advanceCall c fed)
  | .pausing c seconds => some (w.pauseCall c seconds)
  | .arming c => some (w.armCall c)
  | .submitting a => some (w.submitAttempt a)
  | .calling _ => none
  | .none =>
    match w.reactor.step? w.clock with
    | some (reactor, some job) => some ({ w with reactor }.beginJob job)
    | some (reactor, none) => some { w with reactor }
    | none => none

/-! ## What the world answers -/

/-- The reactor polled. A frontend watches no sockets. -/
def pollReactor? (w : Client Handler) : Option (Client Handler) :=
  match w.work, w.reactor.phase with
  | .none, .polling => some { w with reactor := w.reactor.poll w.clock fun _ => false }
  | _, _ => none

/-- A worker is done with an attempt and hands back what came of it. If the reactor was stopped, the
call of the attempt is abandoned. -/
def postAttempt? (w : Client Handler) (a : Nat) (answer : Except Error Outcome) :
    Option (Client Handler) :=
  match w.attempts[a]? with
  | some attempt =>
    if attempt.inFlight then
      let w := { w with attempts := w.attempts.set a { attempt with inFlight := false } }
      match w.reactor.call (.run (.arrive a answer)) with
      | .ok reactor => some { w with reactor }
      | .error _ => some (w.abandonCall attempt.call)
    else none
  | none => none

/-- The callback that runs on the reactor returned, or raised an error: an exception is printed. -/
def returnReactor? (w : Client Handler) (raised : Option Error) : Option (Client Handler) :=
  match w.work with
  | .calling _ =>
    let w := { w with reactor := w.reactor.leave raised, work := .none }
    match raised with
    | some e => if e.isException then some (w.print e.describe) else some w
    | none => some w
  | _ => none

/-- What becomes of a callback that runs on the reactor. -/
theorem returnReactor?_eq_some {w w' : Client Handler} {raised : Option Error}
    (h : w.returnReactor? raised = some w') :
    (∃ c, w.work = .calling c)
    ∧ (raised = none ∧ w' = { w with work := .none }
      ∨ ∃ e, raised = some e
        ∧ (e.isException = true
            ∧ w' = ({ w with work := .none } : Client Handler).print e.describe
          ∨ e.isException = false
            ∧ w'
              = { w with reactor := { w.reactor with phase := .failed e }, work := .none })) := by
  unfold returnReactor? at h
  split at h
  · rename_i c hwork
    refine ⟨⟨c, hwork⟩, ?_⟩
    cases raised with
    | none =>
      cases h
      exact .inl ⟨rfl, rfl⟩
    | some e =>
      refine .inr ⟨e, rfl, ?_⟩
      dsimp only at h
      cases he : e.isException with
      | true =>
        rw [Reactor.leave_of_isException _ he, if_pos he] at h
        exact .inl ⟨rfl, (Option.some.inj h).symm⟩
      | false =>
        rw [Reactor.leave_of_not_isException _ he, if_neg (Bool.eq_false_iff.1 he)] at h
        exact .inr ⟨rfl, (Option.some.inj h).symm⟩
  · cases h

/-- The client after its reactor was told to stop. -/
def stopReactor (w : Client Handler) : Client Handler := { w with reactor := w.reactor.stop }

end Client

end Pubsub
