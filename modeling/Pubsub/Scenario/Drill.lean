import Pubsub.Reactor
import Pubsub.Text.Lines

/-!
# Drills

A drill exercises a reactor by itself, on a clock that moves only while the reactor polls and has
nothing to do. Its jobs are routines that take steps of the drill in turn, and readers of sockets,
which take one message each time they run. The loop runs only when a step of the drill lets it.
-/

namespace Pubsub.Drill

mutual

/-- One step of a drill. -/
inductive Step where
  | call (routine : Routine)
  | schedule (routine : Routine) (seconds : Binary64)
  /-- Cancel the timer that was scheduled last under a name. -/
  | cancel (name : String)
  /-- Have the messages at a socket read, each reading perhaps raising an error. -/
  | watch (socket : String) (raised : Option String)
  | unwatch (socket : String)
  | send (socket message : String)
  | pollTime
  | isInThread
  /-- Prepare what all reactors share, twice; says whether that is one thing. -/
  | setup
  /-- Let the loop run until it is idle, or until a time. -/
  | pump (latest : Option Binary64)
  | stop

/-- A named job: the steps it takes, and the error it then raises. -/
inductive Routine where
  | mk (name : String) (steps : List Step) (raised : Option String)

end

instance : Inhabited Step := ⟨.stop⟩

instance : Inhabited Routine := ⟨.mk "" [] none⟩

/-- The jobs of a drill. -/
inductive Job where
  | run (routine : Routine)
  | read (socket : String) (raised : Option String)

instance : Inhabited Job := ⟨.read "" none⟩

/-- What a step comes to. -/
inductive Value where
  | nothing
  | seconds (x : Binary64)
  | milliseconds (n : Int)
  | truth (b : Bool)
deriving Inhabited

/-- What can be seen during a step. -/
inductive Entry where
  | ran (name : String) (now : Binary64)
  | read (socket message : String)
  | nested (outcome : Except Error Value)
  | printed (line : String)
  | waited (milliseconds : Int)
deriving Inhabited

/-- The state of a drill. -/
structure State where
  reactor : Reactor Job
  clock : Binary64
  /-- The messages at each socket, oldest first. -/
  inbox : List (String × String)
  /-- The number of the timer scheduled last under each name. -/
  names : List (String × Nat)
  /-- Is a job running? -/
  inThread : Bool
  log : List Entry
deriving Inhabited

/-- A part of a drill. -/
abbrev Run := StateM State

/-- A drill with a reactor that was just started. -/
def State.initial : State := ⟨Reactor.initial, 0, [], [], false, []⟩

/-- Something is seen. -/
def note (entry : Entry) : Run Unit := modify fun s => { s with log := s.log ++ [entry] }

/-- The reactor changes, unless it refuses. -/
def change (f : Reactor Job → Except Error (Reactor Job)) : Run (Except Error Value) :=
  modifyGet fun s =>
    match f s.reactor with
    | .error e => (.error e, s)
    | .ok reactor => (.ok .nothing, { s with reactor })

/-- An error of a job is printed. -/
def complain (raised : Option String) : Run Unit := do
  match raised with
  | some text =>
    for line in textLines (Error.applicationFailed text).describe do
      note (.printed line)
  | none => return

/-- Has a socket a message to read? -/
def State.isReadable (s : State) (socket : String) : Bool := s.inbox.any (·.1 == socket)

/-- The oldest message at a socket, taken from it. -/
def takeMessage (socket : String) : Run String :=
  modifyGet fun s =>
    match s.inbox.find? (·.1 == socket) with
    | some entry => (entry.2, { s with inbox := s.inbox.erase entry })
    | none => ("", s)

mutual

/-- One step of a drill. -/
def play : Nat → Step → Run (Except Error Value)
  | 0, _ => return .ok .nothing
  | fuel + 1, step =>
    match step with
    | .call routine => change (·.call (.run (.run routine)))
    | .schedule (.mk name steps raised) seconds =>
      modifyGet fun s =>
        match s.reactor.schedule s.clock seconds (.run (.mk name steps raised)) with
        | .error e => (.error e, s)
        | .ok (timer, reactor) =>
          (.ok (.seconds timer.deadline),
            { s with reactor, names := (name, timer.number) :: s.names })
    | .cancel name =>
      modifyGet fun s =>
        match s.names.find? (·.1 == name) with
        | some entry => (.ok .nothing, { s with reactor := s.reactor.cancel entry.2 })
        | none => (.error (.unknownTimer name), s)
    | .watch socket raised => change (·.call (.watch socket (.read socket raised)))
    | .unwatch socket => change (·.call (.unwatch socket))
    | .send socket message => do
      modify fun s => { s with inbox := s.inbox ++ [(socket, message)] }
      return .ok .nothing
    | .pollTime => return ((← get).reactor.pollTime (← get).clock).map .milliseconds
    | .isInThread => return .ok (.truth (← get).inThread)
    | .setup => return .ok (.truth true)
    | .pump latest => do
      if (← get).inThread then return .ok .nothing
      let outcome ← pump fuel latest
      modify fun s => match s.reactor.phase with
        | .failed _ => { s with reactor := { s.reactor with phase := .polling } }
        | _ => s
      return outcome
    | .stop => change fun r => .ok r.stop

/-- A job. -/
def runJob : Nat → Job → Run Unit
  | 0, _ => return
  | fuel + 1, .run (.mk name steps raised) => do
    note (.ran name (← get).clock)
    modify fun s => { s with inThread := true }
    playNested fuel steps
    modify fun s => { s with inThread := false }
    complain raised
  | _ + 1, .read socket raised => do
    let message ← takeMessage socket
    note (.read socket message)
    complain raised

/-- Steps taken by a job. -/
def playNested : Nat → List Step → Run Unit
  | 0, _ => return
  | _ + 1, [] => return
  | fuel + 1, step :: rest => do
    let outcome ← play fuel step
    note (.nested outcome)
    playNested fuel rest

/-- The loop, until it is idle or the clock has reached a time. -/
def pump : Nat → Option Binary64 → Run (Except Error Value)
  | 0, _ => return .ok .nothing
  | fuel + 1, latest => do
    let s ← get
    match s.reactor.step? s.clock with
    | some (reactor, job) =>
      set { s with reactor }
      match job with
      | some job => runJob fuel job
      | none => pure ()
      pump fuel latest
    | none =>
      match s.reactor.phase with
      | .polling =>
        let go (clock : Binary64) : State :=
          { s with clock, reactor := s.reactor.poll clock s.isReadable }
        match s.reactor.pollTime s.clock with
        | .error e =>
          set (go s.clock)
          return if s.reactor.stopped then .ok .nothing else .error e
        | .ok milliseconds =>
          if s.reactor.stopped then
            set (go s.clock)
            return .ok .nothing
          else if s.reactor.signalled || s.reactor.watched.any (s.isReadable ·.1) then
            set (go s.clock)
            pump fuel latest
          else
            let reached := match latest with
              | some latest => latest.le s.clock
              | none => !s.reactor.isWaiting
            if reached then return .ok .nothing
            let waited := s.clock + .ofDecimal false milliseconds.toNat (-3)
            let clock := match latest with
              | some latest => Binary64.min waited latest
              | none => waited
            set { go clock with log := s.log ++ [Entry.waited milliseconds] }
            pump fuel latest
      | _ => return .ok .nothing

end

/-- More fuel than a drill needs that comes to an end. -/
def plenty : Nat := 1000000

/-- What is seen of one step of a drill. -/
structure Scene where
  outcome : Except Error Value
  after : State
deriving Inhabited

/-- The steps of a drill in turn. -/
def playAll : List Step → Run (List Scene)
  | [] => return []
  | step :: rest => do
    modify fun s => { s with log := [] }
    let outcome ← play plenty step
    let after ← get
    let scenes ← playAll rest
    return ⟨outcome, after⟩ :: scenes

end Pubsub.Drill
