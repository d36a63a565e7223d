import Pubsub.Client.Run
import Pubsub.Scenario.Script
import Pubsub.Text.Lines

/-!
# The stage of a script

A script is played by one application thread, with everything else scheduled around it in a fixed
way: what could happen at once happens in the order in which it was begun, and time passes only when
nothing else is left to do. The stage is the state of that: the client, what the network has in
store, the attempts that workers are busy with, the tasks that wait for their event loop, and what
was seen so far.
-/

namespace Pubsub.Scenario

/-- An attempt that a worker is busy with, and when it will be done. -/
structure Flight where
  attempt : Nat
  arrival : Binary64
  answer : Except Error Outcome
deriving Inhabited

/-- What waits for the event loop. -/
inductive Ready where
  | task (task : Nat)
  /-- The connections of the frontend are to be closed. -/
  | closing
deriving DecidableEq, Inhabited

/-- The state of a script being played. -/
structure Stage where
  client : Client Script
  /-- How much of the journal of the client was seen. -/
  seen : Nat
  /-- What the network has in store. -/
  replies : List Reply
  /-- The attempts that workers are busy with, in the order in which they began. -/
  flights : List Flight
  /-- An attempt on the reactor found that the network had nothing in store for it. -/
  exhausted : Bool
  /-- What waits for the event loop, oldest first. -/
  ready : List Ready
  /-- The task that the application started last. -/
  lastTask : Option Nat
  /-- The message on which receivers raise an error. -/
  boom : Option Json
  log : List Entry
deriving Inhabited

/-- A part of playing a script. -/
abbrev Play := StateM Stage

namespace Stage

/-- A stage on which nothing has happened. -/
def initial (client : Client Script) (boom : Option Json) : Stage :=
  ⟨client, client.journal.length, [], [], false, [], none, boom, []⟩

/-- The session that a script is about. -/
def session (stage : Stage) : Session := stage.client.sessions[0]?.getD default

/-- What is seen of an event. -/
def entriesOf (client : Client Script) : Event Script → List Entry
  | .sent c =>
    match client.calls[c]? with
    | some call =>
      (client.frontend.userAgent.map Entry.userAgent).toList
        ++ [.request call.request.method call.request.url? call.request.timeout]
    | none => []
  | .slept _ seconds => [.slept seconds]
  | .printed text => (textLines text).map .printed
  | .notified c _ notification =>
    match client.callOn? c with
    | some (_, s) => [.notified s.busy notification]
    | none => []
  | .paused seconds => [.paused seconds]
  | .received receiver channel message => [.received receiver channel message]

/-- The stage with another state of the client, and with what happened seen. -/
def advance (stage : Stage) (client : Client Script) : Stage :=
  { stage with
    client
    ready := stage.ready
      ++ (if client.frontend.closeScheduled && !stage.client.frontend.closeScheduled then
          [Ready.closing] else [])
    seen := client.journal.length
    log := stage.log ++ (client.journal.drop stage.seen).flatMap (entriesOf client) }

end Stage

/-! ## Acting on the stage -/

/-- The state of the client. -/
def client : Play (Client Script) := return (← get).client

/-- Something happens to the client; says whether it was possible. -/
def takeAction (action : Action Script) : Play Bool :=
  modifyGet fun stage =>
    match stage.client.act? action with
    | some client => (true, stage.advance client)
    | none => (false, stage)

/-- Things happen to the client. -/
def takeActions : List (Action Script) → Play Unit
  | [] => return
  | action :: rest => do
    let _ ← takeAction action
    takeActions rest

/-- Time passes. -/
def pass (seconds : Binary64) : Play Unit := do
  let _ ← takeAction (.tick ((← client).clock + seconds))

/-- Something is seen. -/
def note (entry : Entry) : Play Unit :=
  modify fun stage => { stage with log := stage.log ++ [entry] }

/-- The next reply of the network. -/
def nextReply : Play (Option Reply) :=
  modifyGet fun stage =>
    match stage.replies with
    | reply :: rest => (some reply, { stage with replies := rest })
    | [] => (none, stage)

/-- The flights that arrive until a time, earliest first. -/
def Stage.arrivals (stage : Stage) (latest : Binary64) : List Flight :=
  (stage.flights.filter (·.arrival.le latest)).mergeSort fun f g => f.arrival.le g.arrival

/-- A worker hands back what came of its attempt, and the clock stands at the time of that. -/
def land (flight : Flight) : Play Unit := do
  modify fun stage =>
    { stage with flights := stage.flights.filter (·.attempt != flight.attempt) }
  takeActions [.tick flight.arrival, .postAttempt flight.attempt flight.answer]

/-- All workers hand back what came of their attempts. -/
def landAll : List Flight → Play Unit
  | [] => return
  | flight :: rest => do
    land flight
    landAll rest

/-- The time at which a poll of some milliseconds ends, if nothing wakes it. What is left of less
than a millisecond before the first timer is due passes as well. -/
def endOfPoll (w : Client Script) (milliseconds : Nat) : Binary64 :=
  match milliseconds, w.reactor.timers with
  | 0, timer :: _ => Binary64.max w.clock timer.deadline
  | _, _ => w.clock + .ofDecimal false milliseconds (-3)

/-- Does a receiver raise an error on a message? -/
def Stage.isBoom (stage : Stage) : Message → Bool
  | .plain (.value v) => (stage.boom.map v.alike).getD false
  | _ => false

end Pubsub.Scenario
