import Pubsub.Call
import Pubsub.Frontend
import Pubsub.Reactor

/-!
# The state of a client

A client is what the threads of an application share: the sessions, the frontend they use, the calls
that were started, and everything that is on its way to settle them. Several threads act on it, and
one of them may be overtaken by another between any two of its steps; so whatever a thread is in the
middle of doing is part of the state too, as a **phase**:

* an `Invocation` is an operation that an application asked for, on the thread that asked;
* a `LoopTask` is a call driven by an event loop;
* a `Work` is what the thread of the reactor is doing for a call;
* a `Closing` is a session being closed;
* a `Listener` is a thread that subscribes over and over.

A phase says what happens next. Some steps a thread takes by itself; others wait for what the world
answers, such as the outcome of an attempt or the return of a callback. Sessions, calls, invocations
and so on are named by their positions in the lists of the client, which only grow.

The journal is everything that an observer can see happen, oldest first.
-/

namespace Pubsub

variable {Handler : Type}

/-! ## Driving a call -/

/-- The phases in which a call is driven to its end by a thread or a task. -/
inductive Drive where
  /-- The cycle is to be resumed with the outcome of the attempt in progress, if there is one. -/
  | resuming (fed : Option Outcome)
  /-- A request was sent, and its outcome is awaited. -/
  | inFlight
  /-- A retry is waited for. -/
  | asleep (seconds : Binary64)
  /-- The call is completed, and its callback is running. -/
  | calling (result : Result)
  /-- An error is on its way out, and the call is to be abandoned. -/
  | failing (e : Error)
  | finished (result : Result)
  | failed (e : Error)
deriving Inhabited

namespace Drive

/-- The phase after an attempt came to something, or was ended by an error. -/
def answer? : Drive → Except Error Outcome → Option Drive
  | inFlight, .ok outcome => some (resuming (some outcome))
  | inFlight, .error e => some (failing e)
  | _, _ => none

/-- The phase after the wait for a retry is over. -/
def wake? : Drive → Option Drive
  | asleep _ => some (resuming none)
  | _ => none

end Drive

/-! ## Activities -/

/-- What an operation gives back to the thread that asked for it. -/
inductive Returned where
  | result (r : Result)
  /-- The task that will come to the result. -/
  | task (task : Nat)
  | nothing
deriving Inhabited

/-- The phases of an invocation. -/
inductive InvocationPhase where
  /-- The session is to be claimed. -/
  | asked
  /-- The session is claimed, and the request is to be built. -/
  | claimed
  /-- The call exists, and the frontend is to start it. -/
  | launching (call : Nat)
  /-- The frontend drives the call on this thread. -/
  | driving (call : Nat) (drive : Drive)
  /-- The frontend let an error through, and the call is to be abandoned once more. -/
  | unwinding (call : Nat) (e : Error)
  | ended (outcome : Except Error Returned)
deriving Inhabited

/-- An operation that an application asked for. -/
structure Invocation (Handler : Type) where
  session : Nat
  operation : Operation
  timeout : Json
  callback : Option Handler
  phase : InvocationPhase
deriving Inhabited

/-- The phases of a task. -/
inductive TaskPhase where
  /-- The event loop has not run it yet. -/
  | unstarted
  | running (drive : Drive)
deriving Inhabited

/-- A call driven by an event loop. -/
structure LoopTask where
  call : Nat
  phase : TaskPhase
deriving Inhabited

/-- The jobs that a frontend gives to its reactor. -/
inductive Job where
  /-- Resume the cycle of a call, at its start or after a wait. -/
  | advance (call : Nat)
  /-- Take the outcome of an attempt from the pool. -/
  | arrive (attempt : Nat) (answer : Except Error Outcome)
  /-- End an attempt that took too long. -/
  | expire (attempt : Nat)
deriving Inhabited

/-- One request sent from the pool for a call. Either its outcome or its timer settles it. -/
structure Attempt where
  call : Nat
  /-- The number of the timer that ends it. -/
  timer : Nat
  settled : Bool
  /-- Is a worker busy with it? -/
  inFlight : Bool
deriving DecidableEq, Repr, Inhabited

/-- What the thread of the reactor is doing for a call. -/
inductive Work where
  /-- Nothing: the loop goes on. -/
  | none
  /-- The cycle of the call is to be resumed. -/
  | advancing (call : Nat) (fed : Option Outcome)
  /-- The wait for a retry is to be scheduled. -/
  | pausing (call : Nat) (seconds : Binary64)
  /-- The timer of a new attempt is to be scheduled. -/
  | arming (call : Nat)
  /-- The attempt is to be given to the pool. -/
  | submitting (attempt : Nat)
  /-- The callback of the call is running. -/
  | calling (call : Nat)
deriving Inhabited

/-- The phases of closing a session. -/
inductive ClosingPhase where
  | asked
  /-- Waiting until no operation holds the session. -/
  | waiting
  /-- The wait is over. -/
  | woken
  /-- The session is closed, and its frontend is next if the session owns it. -/
  | marked
  | ended (outcome : Except Error Unit)
deriving Inhabited

/-- A session being closed. -/
structure Closing where
  session : Nat
  /-- The seconds to wait at most. -/
  timeout : Option Binary64
  phase : ClosingPhase
deriving Inhabited

/-- The phases of a listener. -/
inductive ListenerPhase where
  /-- At the head of its loop. -/
  | looping
  /-- The subscription that it asked for is in progress. -/
  | subscribing (invocation : Nat)
  /-- Waiting after a subscription that failed. -/
  | pausing
  /-- These messages are still to be handed on. -/
  | delivering (messages : List (String × Message))
  /-- The receiver was handed a message, and is running; the others come after it. -/
  | receiving (channel : String) (message : Message) (rest : List (String × Message))
  /-- The loop is left, and the listener looks whether it is still in the registry. -/
  | leaving
  /-- It was, and what the registry has for its receiver is to be struck off. -/
  | striking
  | ended
  /-- An error that nobody caught ended it. -/
  | crashed (e : Error)
  /-- It was registered, but then this error kept its thread from being started. -/
  | stillborn (e : Error)
deriving Inhabited

/-- A thread that subscribes over and over and hands messages to a receiver. -/
structure Listener where
  /-- Who receives the messages. -/
  receiver : String
  session : Nat
  channels : List Json
  timeout : Json
  /-- Was it told to stop? -/
  stopping : Bool
  phase : ListenerPhase
deriving Inhabited

/-! ## The client -/

/-- What an observer can see happen. -/
inductive Event (Handler : Type) where
  /-- A request of the call was sent. -/
  | sent (call : Nat)
  /-- A wait before a retry of the call began. -/
  | slept (call : Nat) (seconds : Binary64)
  /-- A line was printed. -/
  | printed (line : String)
  /-- The callback of the call was told something. -/
  | notified (call : Nat) (handler : Handler) (notification : Notification)
  /-- A listener began to wait. -/
  | paused (seconds : Binary64)
  /-- A receiver was handed a message. -/
  | received (receiver channel : String) (message : Message)
deriving Inhabited

/-- The state of a client. -/
structure Client (Handler : Type) where
  config : Configuration
  /-- The reading of the clock. -/
  clock : Binary64
  /-- What the random source gives as the next vector. -/
  fresh : Bytes
  frontend : Frontend Handler
  sessions : List Session
  calls : List (Call Handler)
  invocations : List (Invocation Handler)
  tasks : List LoopTask
  attempts : List Attempt
  reactor : Reactor Job
  work : Work
  closings : List Closing
  listeners : List Listener
  /-- The listener of each receiver that has one. -/
  registry : List (String × Nat)
  /-- The receivers that exist no more. -/
  collected : List String
  journal : List (Event Handler)
deriving Inhabited

namespace Client

/-- A client without sessions. -/
def initial (config : Configuration) (fresh : Bytes) (frontend : Frontend Handler) :
    Client Handler :=
  { config, clock := 0, fresh, frontend, sessions := [], calls := [], invocations := [], tasks := []
    attempts := [], reactor := Reactor.initial, work := .none, closings := [], listeners := []
    registry := [], collected := [], journal := [] }

/-- The client with one more session; `identity` is the fresh identity for it. -/
def openSession (w : Client Handler) (options : SessionOptions) (identity : String) :
    Except Error (Client Handler) :=
  match Session.create options identity w.config with
  | (.error e, _) => .error e
  | (.ok s, config) => .ok { w with config, sessions := w.sessions ++ [s] }

/-- The client after something that can be seen. -/
def record (w : Client Handler) (event : Event Handler) : Client Handler :=
  { w with journal := w.journal ++ [event] }

/-- The client after a line was printed. -/
def print (w : Client Handler) (line : String) : Client Handler := w.record (.printed line)

/-- The client with the state of a session replaced. -/
def setSession (w : Client Handler) (i : Nat) (s : Session) : Client Handler :=
  { w with sessions := w.sessions.set i s }

/-- The client after an application asked for a change of a setting, and whether it was made. -/
def changeSetting (w : Client Handler) (i : Nat) (change : SettingChange) :
    Except Error Unit × Client Handler :=
  match w.sessions[i]? with
  | some s => ((s.set change).1, w.setSession i (s.set change).2)
  | none => (.ok (), w)

/-- A change of a setting is made, or leaves everything as it was. -/
theorem changeSetting_cases (w : Client Handler) (i : Nat) (change : SettingChange) :
    (w.changeSetting i change).2 = w
    ∨ ∃ s t, w.sessions[i]? = some s ∧ s.set change = (.ok (), t)
      ∧ w.changeSetting i change = (.ok (), w.setSession i t) := by
  unfold changeSetting
  cases hs : w.sessions[i]? with
  | none => exact .inl rfl
  | some s =>
    dsimp only
    rcases hset : s.set change with ⟨outcome, t⟩
    cases outcome with
    | ok made => exact .inr ⟨s, t, rfl, hset, rfl⟩
    | error e =>
      obtain rfl := Session.set_eq_error hset
      obtain ⟨hlt, rfl⟩ := List.getElem?_eq_some_iff.1 hs
      refine .inl ?_
      unfold setSession
      rw [List.set_getElem_self]

/-- The client after an application cleared the positions of some channels, or of all. -/
def clearCursor (w : Client Handler) (i : Nat) (channels : Option (List String)) :
    Client Handler :=
  match w.sessions[i]? with
  | some s =>
    w.setSession i { s with cursor := match channels with
      | some channels => s.cursor.clear channels
      | none => Cursor.empty }
  | none => w

/-- A call and the session it holds. -/
def callOn? (w : Client Handler) (c : Nat) : Option (Call Handler × Session) := do
  let call ← w.calls[c]?
  let s ← w.sessions[call.session]?
  return (call, s)

/-- The client with the state of a call and of its session replaced. -/
def setCall (w : Client Handler) (c : Nat) (call : Call Handler) (s : Session) : Client Handler :=
  { w with calls := w.calls.set c call, sessions := w.sessions.set call.session s }

/-- The client when its clock reads `now`; a clock does not go back. -/
def tick? (w : Client Handler) (now : Binary64) : Option (Client Handler) :=
  if w.clock.le now then some { w with clock := now } else none

/-! ## Calls -/

/-- The cycle of a call resumed: the client after it, its report printed, and the effect wanted. -/
def resumeCall? (w : Client Handler) (c : Nat) (fed : Option Outcome) :
    Option (Client Handler × Effect) := do
  let (call, s) ← w.callOn? c
  let step ← call.cycle.resume? s.cursor w.clock fed
  let w := w.setCall c { call with cycle := step.cycle } { s with cursor := step.cursor }
  return (match step.report with
    | some line => w.print line
    | none => w, step.effect)

/-- The client after a call was abandoned. -/
def abandonCall (w : Client Handler) (c : Nat) : Client Handler :=
  match w.callOn? c with
  | some (call, s) =>
    let (call, s) := call.abandon s
    w.setCall c call s
  | none => w

/-- The client after a call was completed and its callback, if it has one, notified; and whether a
callback is running now. -/
def completeCall (w : Client Handler) (c : Nat) (result : Result) :
    Except Error (Client Handler × Bool) :=
  match w.callOn? c with
  | none => .ok (w, false)
  | some (call, s) =>
    match call.complete s result with
    | .error e => .error e
    | .ok (call, s) =>
      let w := w.setCall c call s
      match call.callback with
      | some handler =>
        .ok (w.record (.notified c handler (Notification.ofResult result)), true)
      | none => .ok (w, false)

/-- The next step of a drive that it takes by itself. -/
def stepDrive? (w : Client Handler) (c : Nat) : Drive → Option (Client Handler × Drive)
  | .resuming fed =>
    match w.resumeCall? c fed with
    | none => none
    | some (w, .send) =>
      if w.frontend.connectionsClosed then some (w, .failing .connectionClosed)
      else some (w.record (.sent c), .inFlight)
    | some (w, .sleep seconds) => some (w.record (.slept c seconds), .asleep seconds)
    | some (w, .raise e) => some (w, .failing e)
    | some (w, .finish result) =>
      match w.completeCall c result with
      | .error e => some (w, .failing e)
      | .ok (w, true) => some (w, .calling result)
      | .ok (w, false) => some (w, .finished result)
  | .failing e => some (w.abandonCall c, .failed e)
  | _ => none

end Client

end Pubsub
