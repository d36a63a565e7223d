import Pubsub.Error
import Pubsub.Heap
import Pubsub.Number.Binary64

/-!
# The reactor

A reactor is one thread that runs **jobs**: those handed to it by any thread, those whose time has
come, and those that wait for a socket to become readable. A turn of its loop polls, runs the jobs
of the readable sockets, then empties the queue, and then fires the timers that are due. Everything
that other threads want goes through the queue, so only the loop itself touches the timers and the
sockets.

What a job does is not the reactor's business: `Reactor.step?` gives the job that is to run next and
the reactor goes on when it is asked again. Jobs are of any type here.

Timers wait in a heap, and fire in the order of their deadlines, and of their creation where
deadlines agree. A cancelled timer stays in the heap until its turn comes, and is then dropped. A
deadline that is no number comes neither before nor after any other, and may leave the heap without
an order.

A job may raise an error. An exception is printed, and the loop goes on; another error, such as a
cancellation, is caught by nobody and ends the loop.
-/

namespace Pubsub

variable {Job : Type}

/-- A job to be run at a time. -/
structure Timer (Job : Type) where
  deadline : Binary64
  /-- The position among all timers of the reactor in the order of creation. -/
  number : Nat
  job : Job
deriving Inhabited

namespace Timer

/-- Is the timer `s` to fire before `t`? -/
def before (s t : Timer Job) : Bool :=
  if s.deadline.eq t.deadline then s.number < t.number else s.deadline.lt t.deadline

end Timer

/-- What the queue of a reactor holds. -/
inductive Command (Job : Type) where
  /-- Run a job. -/
  | run (job : Job)
  /-- Put a timer among the waiting ones. -/
  | arm (timer : Timer Job)
  /-- Run the job whenever the socket is readable. -/
  | watch (socket : String) (job : Job)
  /-- Forget the socket. -/
  | unwatch (socket : String)
deriving Inhabited

/-- Where the loop of a reactor stands. -/
inductive LoopPhase where
  /-- At the head of the loop. -/
  | polling
  /-- These sockets were found readable, and their jobs are still to be run. -/
  | reading (sockets : List String)
  /-- The queue is being emptied. -/
  | draining
  /-- The timers that were due at `now` are being fired. -/
  | firing (now : Binary64)
  /-- The loop was told to stop, and has. -/
  | ended
  /-- The loop was ended by an error. -/
  | failed (e : Error)
deriving Inhabited

/-- A reactor. -/
structure Reactor (Job : Type) where
  /-- Was it told to stop? -/
  stopped : Bool
  /-- Is there a signal that wakes a poll? -/
  signalled : Bool
  /-- What was handed to it, oldest first. -/
  queue : List (Command Job)
  /-- The waiting timers, as a heap. -/
  timers : List (Timer Job)
  /-- The numbers of the cancelled timers. -/
  cancelled : List Nat
  /-- How many timers were created. -/
  created : Nat
  /-- The sockets it watches, in the order of registration, each with its job. -/
  watched : List (String × Job)
  phase : LoopPhase
deriving Inhabited

namespace Reactor

/-- A reactor that was just started. -/
def initial : Reactor Job := ⟨false, false, [], [], [], 0, [], .polling⟩

/-! ## What any thread may do -/

/-- Hand something to the reactor, which takes nothing any more once it was told to stop. -/
def call (r : Reactor Job) (command : Command Job) : Except Error (Reactor Job) :=
  if r.stopped then .error .reactorStopped
  else .ok { r with queue := r.queue ++ [command], signalled := true }

/-- Have a job run after some seconds, and get the timer of it. -/
def schedule (r : Reactor Job) (now seconds : Binary64) (job : Job) :
    Except Error (Timer Job × Reactor Job) :=
  let timer : Timer Job := ⟨now + seconds, r.created, job⟩
  (({ r with created := r.created + 1 }).call (.arm timer)).map fun r => (timer, r)

/-- Cancel the timer with a number. -/
def cancel (r : Reactor Job) (number : Nat) : Reactor Job :=
  { r with cancelled := number :: r.cancelled }

/-- Tell the reactor to stop. -/
def stop (r : Reactor Job) : Reactor Job := { r with stopped := true, signalled := true }

/-! ## The loop -/

/-- Was the timer cancelled? -/
def isCancelled (r : Reactor Job) (timer : Timer Job) : Bool := r.cancelled.contains timer.number

/-- Is there a waiting timer that was not cancelled? -/
def isWaiting (r : Reactor Job) : Bool := r.timers.any fun timer => !r.isCancelled timer

/-- The longest time of a poll, in seconds. -/
def longestPoll : Binary64 := 1

/-- The milliseconds that a poll may take: until the first timer is due, and never more than the
longest time. -/
def pollTime (r : Reactor Job) (now : Binary64) : Except Error Int :=
  let seconds := match r.timers with
    | [] => longestPoll
    | timer :: _ => Binary64.min (Binary64.max (timer.deadline - now) 0) longestPoll
  match seconds * 1000 with
  | .nan => .error .integerOfNan
  | milliseconds => .ok (milliseconds.truncate?.getD 0)

/-- The sockets with one more watched; one that is watched already keeps its place. -/
def register (watched : List (String × Job)) (socket : String) (job : Job) :
    List (String × Job) :=
  if watched.any (·.1 == socket) then
    watched.map fun entry => if entry.1 == socket then (socket, job) else entry
  else watched ++ [(socket, job)]

/-- What a poll that ends at `now` finds: the sockets for which `isReadable` holds. A reactor that
was told to stop does not poll any more, and one that cannot say how long to poll fails. -/
def poll (r : Reactor Job) (now : Binary64) (isReadable : String → Bool) : Reactor Job :=
  match r.phase with
  | .polling =>
    if r.stopped then { r with phase := .ended }
    else match r.pollTime now with
      | .error e => { r with phase := .failed e }
      | .ok _ =>
        { r with
          signalled := false
          phase := .reading ((r.watched.map (·.1)).filter isReadable) }
  | _ => r

/-- What comes of the oldest entry of the queue: the reactor after it, and the job that is to be run
for it. -/
def execute (r : Reactor Job) : Command Job → Reactor Job × Option Job
  | .run job => (r, some job)
  | .arm timer => ({ r with timers := Heap.push Timer.before r.timers timer }, none)
  | .watch socket job => ({ r with watched := register r.watched socket job }, none)
  | .unwatch socket => ({ r with watched := r.watched.filter (·.1 != socket) }, none)

/-- The next step of the loop at a time, with the job that is to be run before the step after it. No
step is left to the loop itself when it polls, and when it has ended. -/
def step? (r : Reactor Job) (now : Binary64) : Option (Reactor Job × Option Job) :=
  match r.phase with
  | .reading [] => some ({ r with phase := .draining }, none)
  | .reading (socket :: rest) =>
    some ({ r with phase := .reading rest }, (r.watched.find? (·.1 == socket)).map (·.2))
  | .draining =>
    match r.queue with
    | [] => some ({ r with phase := .firing now }, none)
    | command :: rest => some (({ r with queue := rest }).execute command)
  | .firing start =>
    match Heap.pop? Timer.before r.timers with
    | none => some ({ r with phase := .polling }, none)
    | some (timer, rest) =>
      if timer.deadline.le start then
        some ({ r with timers := rest }, if r.isCancelled timer then none else some timer.job)
      else some ({ r with phase := .polling }, none)
  | _ => none

/-- The reactor after a job that it ran returned, or raised an error: an exception leaves the loop
as it is, and any other error ends it. -/
def leave (r : Reactor Job) : Option Error → Reactor Job
  | none => r
  | some e => if e.isException then r else { r with phase := .failed e }

theorem leave_of_isException {e : Error} (r : Reactor Job) (h : e.isException = true) :
    r.leave (some e) = r := if_pos h

theorem leave_of_isCaught {raised : Option Error} (r : Reactor Job) (h : Error.IsCaught raised) :
    r.leave raised = r := by
  cases raised with
  | none => rfl
  | some e => exact r.leave_of_isException (h e rfl)

theorem leave_of_not_isException {e : Error} (r : Reactor Job) (h : e.isException = false) :
    r.leave (some e) = { r with phase := .failed e } := if_neg (Bool.eq_false_iff.1 h)

end Reactor

end Pubsub
