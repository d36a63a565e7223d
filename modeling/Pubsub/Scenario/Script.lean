import Pubsub.Call
import Pubsub.Frontend

/-!
# Scripts

A script says what an application does with a client, step by step, and what the network answers. It
is a tree: the callback of an operation may take steps of its own, and so may the application while
the request of an operation is in flight.
-/

namespace Pubsub.Scenario

mutual

/-- One step of an application. -/
inductive Step where
  /-- The replies are added to what the network has in store before the step is taken. A step that
  is `pending` leaves what it started unfinished. -/
  | mk (act : Act) (pending : Bool) (replies : List Reply)

/-- What a step does. -/
inductive Act where
  /-- Fail at once, with an argument that cannot be written down. -/
  | fail (e : Error)
  | operate (operation : Operation) (timeout : Json) (callback : Option Script)
  /-- Change a setting; the vector is what the random source gives from then on. -/
  | change (setting : SettingChange) (vector : Option Bytes)
  | currentUuid
  | currentPolicy
  | clearCursor (channels : Option Json)
  | display
  | lastResult
  | close (timeout : Option Binary64)
  /-- Take steps, and close the session after them. -/
  | within (steps : List Step)
  | closeFrontend
  /-- Close the frontend from within its event loop, and wait until it is closed. -/
  | awaitClose
  /-- Are the connections of the frontend closed? -/
  | connectionsClosed
  /-- Wait for what is pending. -/
  | wait
  | stopReactor
  | reactorStopped
  /-- The receiver is none for something that cannot be called. -/
  | listen (channels : Json) (receiver : Option String) (timeout : Json)
  /-- Let the listener of a receiver run to its end. -/
  | runListener (receiver : String)
  | stopListener (receiver : String) (wait : Bool)
  | isListening (receiver : String)
  | countListeners
  /-- The receiver exists no more. -/
  | collect (receiver : String)

/-- The callback of an operation: the steps it takes, and the error it then raises. -/
inductive Script where
  | mk (steps : List Step) (raised : Option String)

/-- What the network has in store for one exchange: an answer, unless there will never be one, the
seconds it takes, and the steps that the application takes in the meantime. -/
inductive Reply where
  | mk (answer : Option Answer) (takes : Binary64) (during : List Step)

end

instance : Inhabited Step := ⟨.mk .display false []⟩

instance : Inhabited Act := ⟨.display⟩

instance : Inhabited Script := ⟨.mk [] none⟩

instance : Inhabited Reply := ⟨.mk none 0 []⟩

/-- What a step comes to. -/
inductive Value where
  | nothing
  | text (s : String)
  | truth (b : Bool)
  | count (n : Nat)
  | result (r : Result)
  | policy (p : RetryPolicy)
  /-- Something that is still to be finished. -/
  | task
deriving Inhabited

/-- What can be seen of a session after a step. -/
structure Snapshot where
  busy : Bool
  closed : Bool
  positions : List (String × String)
  last : Option String
deriving Inhabited

/-- The session as it is seen. -/
def Snapshot.of (s : Session) : Snapshot :=
  ⟨s.busy, s.closed, s.cursor.sorted, s.lastResult.map Result.display⟩

/-- What can be seen during a step. -/
inductive Entry where
  | userAgent (name : String)
  | request (method : String) (url : Option String) (timeout : Binary64)
  | slept (seconds : Binary64)
  | printed (line : String)
  | notified (busy : Bool) (notification : Notification)
  /-- A step within a step. -/
  | nested (outcome : Except Error Value) (after : Snapshot)
  | paused (seconds : Binary64)
  | received (receiver channel : String) (message : Message)
deriving Inhabited

end Pubsub.Scenario
