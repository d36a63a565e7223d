import Pubsub.Client.Basic

/-!
# Operations in progress

An operation claims its session, builds its request, and hands a new call to the frontend. Whatever
goes wrong on the way releases the session again, and the thread that asked gets the error. A
blocking frontend drives the call on that thread; an event loop gets a task to run; a reactor gets a
job.

An error that escapes from a blocking frontend meets two handlers, that of the frontend and that of
the session, and each abandons the call.
-/

namespace Pubsub

namespace Client

variable {Handler : Type}

/-- The client after an application asked for an operation. -/
def ask (w : Client Handler) (session : Nat) (operation : Operation) (timeout : Json)
    (callback : Option Handler) : Client Handler :=
  { w with
    invocations := w.invocations ++ [⟨session, operation, timeout, callback, .asked⟩] }

/-- The client with the phase of an invocation replaced. -/
def setInvocation (w : Client Handler) (i : Nat) (phase : InvocationPhase) : Client Handler :=
  { w with invocations := w.invocations.modify i fun v => { v with phase } }

/-- The phase of an invocation. -/
def invocationPhase? (w : Client Handler) (i : Nat) : Option InvocationPhase :=
  (w.invocations[i]?).map (·.phase)

/-- The session claimed by an invocation. -/
def claimFor? (w : Client Handler) (i : Nat) (v : Invocation Handler) : Option (Client Handler) :=
  (w.sessions[v.session]?).map fun s =>
    match s.claim with
    | .error e => w.setInvocation i (.ended (.error e))
    | .ok s => (w.setSession v.session s).setInvocation i .claimed

/-- The request of an invocation built, and its call made. -/
def buildFor? (w : Client Handler) (i : Nat) (v : Invocation Handler) : Option (Client Handler) :=
  (w.sessions[v.session]?).map fun s =>
    match Request.build s.profile s.cursor w.fresh w.config v.operation v.timeout with
    | (.error e, config) =>
      (({ w with config }).setSession v.session (s.release none)).setInvocation i
        (.ended (.error e))
    | (.ok request, config) =>
      let call := Call.start v.session request s.policy (v.callback.or w.frontend.callback)
      ({ w with config, calls := w.calls ++ [call] }).setInvocation i (.launching w.calls.length)

/-- The call of an invocation handed to the frontend. -/
def launchFor (w : Client Handler) (i c : Nat) : Client Handler :=
  match w.frontend.kind with
  | .blocking => w.setInvocation i (.driving c (.resuming none))
  | .eventLoop =>
    if w.frontend.loopRunning then
      let task : LoopTask := ⟨c, .unstarted⟩
      ({ w with tasks := w.tasks ++ [task] }).setInvocation i
        (.ended (.ok (.task w.tasks.length)))
    else w.setInvocation i (.unwinding c .noEventLoop)
  | .reactor =>
    match w.reactor.call (.run (.advance c)) with
    | .error e => w.setInvocation i (.unwinding c e)
    | .ok reactor => ({ w with reactor }).setInvocation i (.ended (.ok .nothing))

/-- The next step that an invocation takes by itself. -/
def stepInvocation? (w : Client Handler) (i : Nat) : Option (Client Handler) :=
  match w.invocations[i]? with
  | none => none
  | some v =>
    match v.phase with
    | .asked => w.claimFor? i v
    | .claimed => w.buildFor? i v
    | .launching c => some (w.launchFor i c)
    | .driving _ (.finished result) => some (w.setInvocation i (.ended (.ok (.result result))))
    | .driving c (.failed e) => some (w.setInvocation i (.unwinding c e))
    | .driving c drive =>
      (w.stepDrive? c drive).map fun (w, drive) => w.setInvocation i (.driving c drive)
    | .unwinding c e => some ((w.abandonCall c).setInvocation i (.ended (.error e)))
    | .ended _ => none

/-! ## What the world answers -/

/-- The attempt of an invocation came to something. -/
def answerInvocation? (w : Client Handler) (i : Nat) (answer : Except Error Outcome) :
    Option (Client Handler) :=
  match w.invocationPhase? i with
  | some (.driving c drive) =>
    (drive.answer? answer).map fun drive => w.setInvocation i (.driving c drive)
  | _ => none

/-- The wait of an invocation is over. -/
def wakeInvocation? (w : Client Handler) (i : Nat) : Option (Client Handler) :=
  match w.invocationPhase? i with
  | some (.driving c drive) => drive.wake?.map fun drive => w.setInvocation i (.driving c drive)
  | _ => none

/-- The callback of an invocation returned, or raised an error. -/
def returnInvocation? (w : Client Handler) (i : Nat) (raised : Option Error) :
    Option (Client Handler) :=
  match w.invocationPhase? i, raised with
  | some (.driving c (.calling result)), none =>
    some (w.setInvocation i (.driving c (.finished result)))
  | some (.driving c (.calling _)), some e => some (w.setInvocation i (.driving c (.failing e)))
  | _, _ => none

/-! ## Tasks

The callback of a task runs outside of what the task guards, so an error from it leaves the call,
which is completed by then, alone. A task that is cancelled before its first step never takes one.
-/

/-- The phase of a task. -/
def taskPhase? (w : Client Handler) (t : Nat) : Option TaskPhase := (w.tasks[t]?).map LoopTask.phase

theorem taskPhase?_of_none {w : Client Handler} {t : Nat} (h : w.tasks[t]? = none) :
    w.taskPhase? t = none := by
  unfold taskPhase?
  rw [h]
  rfl

theorem taskPhase?_of_some {w : Client Handler} {t : Nat} {task : LoopTask}
    (h : w.tasks[t]? = some task) : w.taskPhase? t = some task.phase := by
  unfold taskPhase?
  rw [h]
  rfl

/-- The client with the phase of a task replaced. -/
def setTask (w : Client Handler) (t : Nat) (drive : Drive) : Client Handler :=
  { w with tasks := w.tasks.modify t fun task => { task with phase := .running drive } }

/-- The next step that a task takes by itself. -/
def stepTask? (w : Client Handler) (t : Nat) : Option (Client Handler) :=
  match w.tasks[t]? with
  | none => none
  | some task =>
    match task.phase with
    | .unstarted => some (w.setTask t (.resuming none))
    | .running drive => (w.stepDrive? task.call drive).map fun (w, drive) => w.setTask t drive

/-- The attempt of a task came to something. -/
def answerTask? (w : Client Handler) (t : Nat) (answer : Except Error Outcome) :
    Option (Client Handler) :=
  match w.taskPhase? t with
  | some (.running drive) => (drive.answer? answer).map (w.setTask t)
  | _ => none

/-- The wait of a task is over. -/
def wakeTask? (w : Client Handler) (t : Nat) : Option (Client Handler) :=
  match w.taskPhase? t with
  | some (.running drive) => drive.wake?.map (w.setTask t)
  | _ => none

/-- The callback of a task returned, or raised an error. -/
def returnTask? (w : Client Handler) (t : Nat) (raised : Option Error) : Option (Client Handler) :=
  match w.taskPhase? t, raised with
  | some (.running (.calling result)), none => some (w.setTask t (.finished result))
  | some (.running (.calling _)), some e => some (w.setTask t (.failed e))
  | _, _ => none

/-- A task was cancelled: where it is suspended the cancellation is an error like others, and before
its first step it ends it at once. -/
def cancelTask? (w : Client Handler) (t : Nat) : Option (Client Handler) :=
  match w.taskPhase? t with
  | some .unstarted => some (w.setTask t (.failed .cancelled))
  | some (.running .inFlight) => some (w.setTask t (.failing .cancelled))
  | some (.running (.asleep _)) => some (w.setTask t (.failing .cancelled))
  | _ => none

end Client

end Pubsub
