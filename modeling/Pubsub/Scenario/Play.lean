import Pubsub.Scenario.Stage

/-!
# Playing a script

Steps of the application, attempts, callbacks, tasks, jobs and listeners are all played by taking
the steps of the client in turn, and answering it where it waits: an attempt takes the next reply of
the network, a callback takes the steps of its script, a wait moves the clock. Steps within a step
are taken while what surrounds them is suspended.

The functions below call each other through such nesting and share a fuel, which bounds how deep
that goes and how long it lasts. `Play.run` starts with more than any script needs that comes to an
end.
-/

namespace Pubsub.Scenario

/-- The application changes a setting, and gets the retry policy if it changed that. -/
def changeSetting (change : SettingChange) : Play (Except Error Value) := do
  let (outcome, _) := (← client).changeSetting 0 change
  takeActions [.changeSetting 0 change]
  let policy := (← get).session.policy
  return outcome.map fun _ => match change with
    | .policy _ _ _ _ => .policy policy
    | _ => .nothing

/-- What can be said without touching anything. -/
def inspect (f : Stage → Value) : Play (Except Error Value) := return .ok (f (← get))

/-- The state of a closing, played to its end. -/
def playClosing : Nat → Nat → Play (Except Error Value)
  | 0, _ => return .ok .nothing
  | fuel + 1, k => do
    match ((← client).closings[k]?).map Closing.phase with
    | some (.ended outcome) => return outcome.map fun _ => .nothing
    | _ =>
      if ← takeAction (.stepClosing k) then playClosing fuel k
      else if ← takeAction (.giveUpClosing k) then playClosing fuel k
      else return .ok .nothing

/-- The application closes its session. -/
def closeSession (timeout : Option Binary64) : Play (Except Error Value) := do
  let k := (← client).closings.length
  takeActions [.beginClose 0 timeout]
  playClosing 8 k

/-- What the outcome of an operation is to the application. -/
def valueOf : Except Error Returned → Except Error Value
  | .error e => .error e
  | .ok (.result r) => .ok (.result r)
  | .ok (.task _) => .ok .task
  | .ok .nothing => .ok .nothing

/-- Has the task ended? Then nobody who waits for it has to wait. -/
def hasEnded (w : Client Script) (t : Nat) : Bool :=
  match w.taskPhase? t with
  | some (.running (.finished _)) | some (.running (.failed _)) => true
  | _ => false

/-- The value of a task that has ended. -/
def taskValue (w : Client Script) (t : Nat) : Except Error Value :=
  match w.taskPhase? t with
  | some (.running (.finished r)) => .ok (.result r)
  | some (.running (.failed e)) => .error e
  | _ => .ok .nothing

mutual

/-- Steps taken within another step, each of which is seen with its outcome. -/
def playSteps : Nat → List Step → Play Unit
  | 0, _ => return
  | _ + 1, [] => return
  | fuel + 1, .mk act _ replies :: rest => do
    modify fun stage => { stage with replies := stage.replies ++ replies }
    let outcome ← playAct fuel act
    note (.nested outcome (Snapshot.of (← get).session))
    playSteps fuel rest

/-- One thing that the application does. -/
def playAct : Nat → Act → Play (Except Error Value)
  | 0, _ => return .ok .nothing
  | fuel + 1, act =>
    match act with
    | .fail e => return .error e
    | .operate operation timeout callback => do
      let i := (← client).invocations.length
      takeActions [.ask 0 operation timeout callback]
      let outcome ← playInvocation fuel i
      match outcome with
      | .ok (.task t) => modify fun stage => { stage with ready := stage.ready ++ [.task t] }
      | _ => pure ()
      return valueOf outcome
    | .change setting vector => do
      takeActions (vector.map Action.draw).toList
      changeSetting setting
    | .currentUuid => inspect fun stage => .text stage.session.profile.uuid
    | .currentPolicy => inspect fun stage => .policy stage.session.policy
    | .clearCursor none => do
      takeActions [.clearCursor 0 none]
      return .ok .nothing
    | .clearCursor (some channels) =>
      match channels.elements with
      | .error e => return .error e
      | .ok channels => do
        takeActions [.clearCursor 0 (some (channels.map Json.toText))]
        return .ok .nothing
    | .display => inspect fun stage => .text stage.session.display
    | .lastResult =>
      inspect fun stage => (stage.session.lastResult.map Value.result).getD .nothing
    | .close timeout => closeSession timeout
    | .within steps => do
      playSteps fuel steps
      closeSession none
    | .closeFrontend => do
      takeActions [.closeFrontend]
      return .ok .nothing
    | .awaitClose => do
      takeActions [.closeFrontend, .finishFrontend]
      return .ok .nothing
    | .connectionsClosed => inspect fun stage => .truth stage.client.frontend.connectionsClosed
    | .wait => return .ok .nothing
    | .stopReactor => do
      takeActions [.stopReactor]
      return .ok .nothing
    | .reactorStopped => inspect fun stage => .truth stage.client.reactor.stopped
    | .listen channels receiver timeout => do
      let (outcome, _) := (← client).startListener 0 channels receiver timeout none
      takeActions [.startListener 0 channels receiver timeout none]
      return outcome.map fun _ => .nothing
    | .runListener receiver => do
      match (← client).latestListener? receiver with
      | some l => rerunListener fuel l
      | none => return .ok .nothing
    | .stopListener receiver wait => do
      let l := (← client).listenerOf? receiver
      takeActions [.stopListener receiver]
      match wait, l with
      | true, some l => rerunListener fuel l
      | _, _ => return .ok .nothing
    | .isListening receiver =>
      inspect fun stage => .truth (stage.client.listenerOf? receiver).isSome
    | .countListeners => inspect fun stage => .count stage.client.registry.length
    | .collect receiver => do
      takeActions [.collect receiver]
      return .ok .nothing

/-- An operation, until the thread that asked for it has it back. -/
def playInvocation : Nat → Nat → Play (Except Error Returned)
  | 0, _ => return .ok .nothing
  | fuel + 1, i => do
    match (← client).invocationPhase? i with
    | some (.ended outcome) => return outcome
    | some (.driving _ .inFlight) =>
      let answer ← playExchange fuel
      takeActions [.answerInvocation i answer]
      playInvocation fuel i
    | some (.driving _ (.asleep seconds)) =>
      pass seconds
      takeActions [.wakeInvocation i]
      playInvocation fuel i
    | some (.driving c (.calling _)) =>
      let raised ← playCallback fuel c
      takeActions [.returnInvocation i raised]
      playInvocation fuel i
    | some _ =>
      if ← takeAction (.stepInvocation i) then playInvocation fuel i else return .ok .nothing
    | none => return .ok .nothing

/-- An exchange with the network, on the thread that waits for it. -/
def playExchange : Nat → Play (Except Error Outcome)
  | 0 => return .error .noReply
  | fuel + 1 => do
    match ← nextReply with
    | some (.mk (some answer) takes during) =>
      playSteps fuel during
      pass takes
      return answer.outcome
    | _ => return .error .noReply

/-- The callback of a call: the error it raises, if it does. -/
def playCallback : Nat → Nat → Play (Option Error)
  | 0, _ => return none
  | fuel + 1, c => do
    match ((← client).calls[c]?).bind Call.callback with
    | some (.mk steps raised) =>
      playSteps fuel steps
      return raised.map .callbackFailed
    | none => return none

/-- A task, until it has ended. -/
def playTask : Nat → Nat → Play Unit
  | 0, _ => return
  | fuel + 1, t => do
    let w ← client
    match w.taskPhase? t with
    | some (.running .inFlight) =>
      let answer ← playExchange fuel
      takeActions [.answerTask t answer]
      playTask fuel t
    | some (.running (.asleep seconds)) =>
      pass seconds
      takeActions [.wakeTask t]
      playTask fuel t
    | some (.running (.calling _)) =>
      let raised ← playCallback fuel (((w.tasks[t]?).map LoopTask.call).getD 0)
      takeActions [.returnTask t raised]
      playTask fuel t
    | _ => if ← takeAction (.stepTask t) then playTask fuel t else return

/-- The event loop, until nothing waits for it. -/
def playReady : Nat → Play Unit
  | 0 => return
  | fuel + 1 => do
    match (← get).ready with
    | [] => return
    | next :: rest =>
      modify fun stage => { stage with ready := rest }
      match next with
      | .task t => playTask fuel t
      | .closing => takeActions [.finishFrontend]
      playReady fuel

/-- A listener from the head of its loop on, also one that was there before. -/
def rerunListener : Nat → Nat → Play (Except Error Value)
  | 0, _ => return .ok .nothing
  | fuel + 1, l => do
    modify fun stage => { stage with client := stage.client.setListener l .looping }
    playListener fuel l

/-- A listener, until its thread has ended. -/
def playListener : Nat → Nat → Play (Except Error Value)
  | 0, _ => return .ok .nothing
  | fuel + 1, l => do
    match ((← client).listeners[l]?).map Listener.phase with
    | some (.crashed e) => return .error e
    | some (.subscribing i) =>
      let _ ← playInvocation fuel i
      takeActions [.stepListener l]
      playListener fuel l
    | some .pausing =>
      takeActions [.wakeListener l]
      playListener fuel l
    | some (.receiving channel message _) =>
      let raised := if (← get).isBoom message then
        some (.applicationFailed ("boom on " ++ channel)) else none
      takeActions [.returnListener l raised]
      playListener fuel l
    | _ =>
      if ← takeAction (.stepListener l) then playListener fuel l else return .ok .nothing

/-- The exchange of an attempt that a worker was given. -/
def playFlight : Nat → Nat → Play Unit
  | 0, _ => return
  | fuel + 1, a => do
    match ← nextReply with
    | none => modify fun stage => { stage with exhausted := true }
    | some (.mk answer takes during) =>
      playSteps fuel during
      match answer with
      | some answer =>
        modify fun stage =>
          { stage with
            flights := stage.flights ++ [⟨a, stage.client.clock + takes, answer.outcome⟩] }
      | none => return

/-- The reactor, until nothing is left for it to do. Time passes only while it polls, until the
first timer is due or the first worker is done. -/
def playReactor : Nat → Play Unit
  | 0 => return
  | fuel + 1 => do
    let w ← client
    match w.work with
    | .calling c =>
      let raised ← playCallback fuel c
      takeActions [.returnReactor raised]
      playReactor fuel
    | .submitting a =>
      takeActions [.stepReactor]
      if (((← client).attempts[a]?).map Attempt.inFlight).getD false then playFlight fuel a
      playReactor fuel
    | _ =>
      if ← takeAction .stepReactor then playReactor fuel
      else match w.reactor.phase with
        | .polling =>
          if w.reactor.stopped || w.reactor.signalled then
            takeActions [.pollReactor]
            playReactor fuel
          else if (← get).exhausted then return
          else match (← get).arrivals w.clock with
            | flight :: _ =>
              land flight
              playReactor fuel
            | [] =>
              if !w.reactor.isWaiting then return
              match w.reactor.pollTime w.clock with
              | .error _ =>
                takeActions [.pollReactor]
                playReactor fuel
              | .ok milliseconds =>
                let latest := endOfPoll w milliseconds.toNat
                match (← get).arrivals latest with
                | flight :: _ =>
                  land flight
                  playReactor fuel
                | [] =>
                  takeActions [.tick latest, .pollReactor]
                  playReactor fuel
        | .ended => landAll (← get).flights
        | _ => return

end

/-- The error that ended the loop of the reactor, if one did. -/
def loopError? (stage : Stage) : Option Error :=
  match stage.client.reactor.phase with
  | .failed e => some e
  | _ => none

/-- What follows a step of the application itself: the event loop runs if the step awaits a task,
and the reactor runs until it is idle. -/
def playStep (fuel : Nat) (act : Act) (pending : Bool) : Play (Except Error Value) := do
  let before := (← client).tasks.length
  let outcome ← playAct fuel act
  let w ← client
  match w.frontend.kind with
  | .blocking => return outcome
  | .reactor =>
    if !pending then playReactor fuel
    return outcome
  | .eventLoop =>
    match outcome, act with
    | .ok .task, _ =>
      modify fun stage => { stage with lastTask := some before }
      if pending then return outcome
      playReady fuel
      return taskValue (← client) before
    | _, .wait =>
      match (← get).lastTask with
      | some t =>
        if !hasEnded (← client) t then playReady fuel
        return taskValue (← client) t
      | none => return outcome
    | _, _ => return outcome

/-- What is seen of one step of a script. -/
structure Scene where
  outcome : Except Error Value
  after : Snapshot
  entries : List Entry
deriving Inhabited

/-- More fuel than a script needs that comes to an end. -/
def plenty : Nat := 1000000

/-- A script played from a stage on, until an error ends the loop of the reactor. -/
def playScript : List Step → Play (List Scene)
  | [] => return []
  | .mk act pending replies :: rest => do
    modify fun stage => { stage with replies := stage.replies ++ replies, log := [] }
    let outcome ← playStep plenty act pending
    let stage ← get
    if (loopError? stage).isSome then return []
    let scenes ← playScript rest
    return ⟨outcome, Snapshot.of stage.session, stage.log⟩ :: scenes

/-- What is seen of a script. An error that ends the loop of the reactor is all that is seen. -/
def perform (stage : Stage) (script : List Step) : Except Error (List Scene) :=
  let (scenes, stage) := (playScript script).run stage
  (loopError? stage).elim (.ok scenes) .error

end Pubsub.Scenario
