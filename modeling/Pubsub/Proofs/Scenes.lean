import Mathlib.Logic.Relation
import Pubsub.Client.Run
import Pubsub.Proofs.Performances
import Pubsub.Proofs.Waiting

/-!
# An operation on the scene

A **scene** is a client in the middle of an operation, with the rest of the script and with what was
seen so far. A scene goes on in two ways. The threads that work on the operation take their steps,
in any order; this takes no time. And the world does its part, of which it knows only what was seen:
an answer comes as long after a request was sent as the script says, and a pause is over as long
after it began as it was asked for. So the clock goes on by nothing else.

A client is **at rest** if nothing of an earlier operation is left that could still do anything. Its
reactor may be anywhere in its loop, and alarms of earlier attempts may wait in it.
-/

namespace Pubsub

variable {Handler : Type}

/-! ## What is seen of an action -/

/-- What an event of the journal looks like from outside. -/
def Event.sight? (calls : List (Call Handler)) : Event Handler → Option (Sight Handler)
  | .sent c => (calls[c]?).map fun call => .sent call.request
  | .slept _ seconds => some (.slept seconds)
  | .printed line => some (.printed line)
  | .notified _ handler notification => some (.notified handler notification)
  | .paused _ => none
  | .received _ _ _ => none

/-- No worker is busy with any of the attempts. -/
def Attempt.NoneInFlight (attempts : List Attempt) : Prop :=
  ∀ attempt ∈ attempts, attempt.inFlight = false

/-- Where an operation lies in a client. -/
structure Places where
  invocation : Nat
  call : Nat
  task : Nat

namespace Client

/-- The pause that an action begins on a reactor. It is a timer there, of which the journal does not
speak. -/
def pause? (w : Client Handler) : Action Handler → Option Binary64
  | .stepReactor =>
    match w.work with
    | .pausing _ seconds => if w.reactor.stopped then none else some seconds
    | _ => none
  | _ => none

/-- What is seen of an action that leads to `w'`. -/
def sightings (w : Client Handler) (action : Action Handler) (w' : Client Handler) :
    List (Sighting Handler) :=
  ((w'.journal.drop w.journal.length).filterMap (Event.sight? w'.calls)
    ++ (w.pause? action).toList.map Sight.slept).map fun sight => ⟨w'.clock, sight⟩

/-- Where the next operation will lie. -/
def places (w : Client Handler) : Places := ⟨w.invocations.length, w.calls.length, w.tasks.length⟩

/-- **Nothing of an earlier operation can still do anything**, at least not on a reactor: it runs
and waits for nothing but the alarms of settled attempts, and no worker is busy. -/
structure AtRest (w : Client Handler) : Prop where
  work : w.work = .none
  pool : Attempt.NoneInFlight w.attempts
  reactor : w.reactor.Awaits w.attempts w.clock 0

end Client

/-- Can the frontend do its work? -/
structure Frontend.IsLive (f : Frontend Handler) : Prop where
  connections : f.connectionsClosed = false
  loop : f.kind = .eventLoop → f.loopRunning = true
  pool : f.kind = .reactor → f.poolClosed = false

/-! ## How a scene goes on -/

/-- The steps that the threads take which work on an operation; a callback returns. -/
inductive Places.IsOwn (p : Places) : Action Handler → Prop where
  | invocation : IsOwn p (.stepInvocation p.invocation)
  | invocationReturns : IsOwn p (.returnInvocation p.invocation none)
  | task : IsOwn p (.stepTask p.task)
  | taskReturns : IsOwn p (.returnTask p.task none)
  | reactor : IsOwn p .stepReactor
  | reactorPolls : IsOwn p .pollReactor
  | reactorReturns : IsOwn p (.returnReactor none)

/-- The ways in which an answer reaches whoever waits for it. -/
inductive Places.IsAnswer (p : Places) (answer : Except Error Outcome) : Action Handler → Prop where
  | invocation : IsAnswer p answer (.answerInvocation p.invocation answer)
  | task : IsAnswer p answer (.answerTask p.task answer)
  | attempt (a : Nat) : IsAnswer p answer (.postAttempt a answer)

/-- How somebody is woken when a pause is over. A reactor looks at the clock itself. -/
def Places.wake (p : Places) : FrontendKind → List (Action Handler)
  | .blocking => [.wakeInvocation p.invocation]
  | .eventLoop => [.wakeTask p.task]
  | .reactor => []

/-- A client in the middle of an operation. -/
structure Scene (Handler : Type) where
  client : Client Handler
  /-- The exchanges that are still to come. -/
  script : List Exchange
  /-- What was seen so far. -/
  seen : List (Sighting Handler)

namespace Scene

/-- **How a scene goes on.** -/
inductive Next (p : Places) : Scene Handler → Scene Handler → Prop where
  | own {w w' : Client Handler} {script : List Exchange} {seen : List (Sighting Handler)}
      {action : Action Handler} (ho : p.IsOwn action) (h : w.act? action = some w') :
      Next p ⟨w, script, seen⟩ ⟨w', script, seen ++ w.sightings action w'⟩
  /-- The answer comes to the request that was sent last. -/
  | answer {w w' : Client Handler} {e : Exchange} {script : List Exchange}
      {seen : List (Sighting Handler)} {now : Binary64} {request : Request}
      {action : Action Handler} (hs : seen.getLast? = some ⟨now, .sent request⟩)
      (ha : p.IsAnswer e.answer.outcome action)
      (h : w.run? [.tick (now + e.takes), action] = some w') :
      Next p ⟨w, e :: script, seen⟩ ⟨w', script, seen⟩
  /-- The pause is over that began last. -/
  | wake {w w' : Client Handler} {script : List Exchange} {seen : List (Sighting Handler)}
      {now seconds : Binary64} (hs : seen.getLast? = some ⟨now, .slept seconds⟩)
      (h : w.run? (.tick (now + seconds) :: p.wake w.frontend.kind) = some w') :
      Next p ⟨w, script, seen⟩ ⟨w', script, seen⟩

/-- What a scene can lead to. -/
abbrev Leads (p : Places) : Scene Handler → Scene Handler → Prop := Relation.ReflTransGen (Next p)

/-! ## The end -/

/-- Is the operation over? Whoever asked for it goes on, the task has ended if there is one, and so
have the call and its callback. -/
structure IsOver (p : Places) (scene : Scene Handler) : Prop where
  invocation : ∃ outcome, scene.client.invocationPhase? p.invocation = some (.ended outcome)
  task : ∀ phase, scene.client.taskPhase? p.task = some phase →
    (∃ result, phase = .running (.finished result)) ∨ ∃ e, phase = .running (.failed e)
  call : ∀ call, scene.client.calls[p.call]? = some call → call.settled = true
  work : scene.client.work = .none

end Scene

/-- What the operation gave back to whoever asked for it: the result itself, or a task that came to
it, or nothing. -/
def Client.GaveBack (w : Client Handler) (p : Places) (result : Result) : Prop :=
  match w.frontend.kind with
  | .blocking => w.invocationPhase? p.invocation = some (.ended (.ok (.result result)))
  | .eventLoop => w.invocationPhase? p.invocation = some (.ended (.ok (.task p.task)))
      ∧ w.taskPhase? p.task = some (.running (.finished result))
  | .reactor => w.invocationPhase? p.invocation = some (.ended (.ok .nothing))

/-- **The operation ended as it should**: this was seen, nothing of the script is left, the session
is idle and has the cursor and the result, and the client is at rest. -/
structure Scene.Concludes (p : Places) (session : Nat) (before : Session)
    (seen : List (Sighting Handler)) (ending : Ending) (scene : Scene Handler) : Prop where
  seen : scene.seen = seen
  script : scene.script = []
  clock : scene.client.clock = ending.clock
  session : scene.client.sessions[session]? = some
    { before with
      cursor := ending.cursor, lastResult := some ending.result, busy := false, idle := true }
  gaveBack : scene.client.GaveBack p ending.result
  atRest : scene.client.AtRest

end Pubsub
