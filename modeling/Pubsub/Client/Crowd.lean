import Pubsub.Client.Run

/-!
# Threads that overtake each other

In a run of a client a session is claimed in one step, and in one step a call is settled, its
session released and its callback notified. That is what these come to for a thread that nobody
overtakes. But each of them is several lines, of which each reads or writes one thing, and a lock is
held only for the middle of a claim. So other threads may act between any two of the lines, and what
a thread has seen may not be true any more when it acts on it.

Here the lines are taken one at a time. A thread that is in the middle of a claim, of a change of a
setting or of a release is on a **stint**, which says how far it is. A **crowd** is a client
together with the stints of its threads, and a **move** of it is an action, with which a stint may
begin, or the next line of a stint. As long as a thread is on a stint it does nothing else.

When a stint begins, the client is as the action leaves it, but for what the lines of the stint have
still to write. So a crowd in which every stint is taken to its end at once is a client in a run.
-/

namespace Pubsub

variable {Handler : Type}

/-! ## Stints -/

/-- Whose lines they are. -/
inductive Thread where
  /-- The thread that asked for an operation. -/
  | invocation (invocation : Nat)
  | task (task : Nat)
  | reactor
  /-- A worker of the pool. -/
  | worker
deriving DecidableEq, Repr, Inhabited

/-- How far a claim is. -/
inductive ClaimPoint where
  /-- The session was seen to be open. -/
  | opened
  /-- The lock is held, and no operation was seen to hold the session. -/
  | locked
  /-- The flag is up; the signal is still to go down, and the lock to be let go. -/
  | raised
  | ended
deriving DecidableEq, Repr, Inhabited

/-- How far a release is. -/
inductive ReleasePoint where
  /-- The call was seen not to be settled. -/
  | looked
  /-- The call is marked as settled. -/
  | marked
  /-- The result is recorded, if there is one. -/
  | recorded
  /-- The flag is down. -/
  | dropped
  /-- The signal is up; the callback is still to be notified. -/
  | signalled
  | ended
deriving DecidableEq, Repr, Inhabited

/-- What is to become of a call: it is completed with a result, or abandoned. -/
structure Settlement where
  call : Nat
  outcome : Option Result
deriving Inhabited

/-- A thread in the middle of something that other threads may interfere with. -/
inductive Stint where
  /-- An operation claims a session. -/
  | claiming (invocation session : Nat) (point : ClaimPoint)
  /-- A setting of a session is changed, which no operation was seen to hold. -/
  | changing (session : Nat) (change : SettingChange) (written : Bool)
  /-- A session is released, because of what is to become of a call, or because the request of an
  operation could not be built. -/
  | releasing (thread : Thread) (session : Nat) (settlement : Option Settlement)
      (point : ReleasePoint)
deriving Inhabited

namespace Stint

/-- The session that a stint is about. -/
def session : Stint → Nat
  | claiming _ i _ => i
  | changing i _ _ => i
  | releasing _ i _ _ => i

/-- The thread that can do nothing else, unless it is one of the application. -/
def thread? : Stint → Option Thread
  | claiming i _ _ => some (.invocation i)
  | changing _ _ _ => none
  | releasing thread _ _ _ => some thread

/-- Has the stint come to its end? -/
def isOver : Stint → Bool
  | claiming _ _ point => point == .ended
  | changing _ _ written => written
  | releasing _ _ _ point => point == .ended

/-- Does the thread hold the lock of the session? -/
def holdsLock : Stint → Bool
  | claiming _ _ .locked | claiming _ _ .raised => true
  | _ => false

end Stint

namespace Client

/-! ## Where stints begin

A call is settled where its cycle comes to a result, where an error on its way out meets a handler,
and where a worker finds that the reactor was stopped. What the thread does before it looks whether
the call is settled, and what it does when it is through, is its own affair; both are done when the
stint begins.
-/

/-- Does the call have a callback? -/
def hasCallback (w : Client Handler) (c : Nat) : Bool :=
  (w.calls[c]?).any (·.callback.isSome)

/-- A drive that is about to settle its call: the client, the phase after it, and what the call
comes to. -/
def driveToBrink? (w : Client Handler) (c : Nat) :
    Drive → Option (Client Handler × Drive × Option Result)
  | .resuming fed =>
    match w.resumeCall? c fed with
    | some (w, .finish result) =>
      some (w, if w.hasCallback c then .calling result else .finished result, some result)
    | _ => none
  | .failing e => some (w, .failed e, none)
  | _ => none

/-- An invocation that is about to settle its call. -/
def invocationToBrink? (w : Client Handler) (i : Nat) : Option (Client Handler × Settlement) :=
  match w.invocationPhase? i with
  | some (.driving c drive) =>
    (w.driveToBrink? c drive).map fun (w, drive, outcome) =>
      (w.setInvocation i (.driving c drive), ⟨c, outcome⟩)
  | some (.unwinding c e) => some (w.setInvocation i (.ended (.error e)), ⟨c, none⟩)
  | _ => none

/-- A task that is about to settle its call. -/
def taskToBrink? (w : Client Handler) (t : Nat) : Option (Client Handler × Settlement) :=
  match w.tasks[t]? with
  | some ⟨c, .running drive⟩ =>
    (w.driveToBrink? c drive).map fun (w, drive, outcome) => (w.setTask t drive, ⟨c, outcome⟩)
  | _ => none

/-- The thread of the reactor, which is about to abandon a call after an error. -/
def reactorGivingUp (w : Client Handler) (c : Nat) (e : Error) : Client Handler × Settlement :=
  (({ w with work := .none } : Client Handler).print e.describe, ⟨c, none⟩)

/-- The thread of the reactor, which is about to settle a call. -/
def reactorToBrink? (w : Client Handler) : Option (Client Handler × Settlement) :=
  match w.work with
  | .advancing c fed =>
    match w.resumeCall? c fed with
    | some (w, .raise e) => some (w.reactorGivingUp c e)
    | some (w, .finish result) =>
      some ({ w with work := if w.hasCallback c then .calling c else .none }, ⟨c, some result⟩)
    | _ => none
  | .pausing c seconds =>
    match w.reactor.schedule w.clock seconds (.advance c) with
    | .error e => some (w.reactorGivingUp c e)
    | .ok _ => none
  | .arming c =>
    (w.calls[c]?).bind fun call =>
      match w.reactor.schedule w.clock call.request.timeout (.expire w.attempts.length) with
      | .error e => some (w.reactorGivingUp c e)
      | .ok _ => none
  | .submitting a =>
    (w.attempts[a]?).bind fun attempt =>
      if w.frontend.poolClosed then some (w.reactorGivingUp attempt.call .poolShutDown) else none
  | .calling _ | .none => none

/-- A worker that is about to abandon the call of its attempt, because the reactor was stopped. -/
def workerToBrink? (w : Client Handler) (a : Nat) (answer : Except Error Outcome) :
    Option (Client Handler × Settlement) :=
  (w.attempts[a]?).bind fun attempt =>
    if attempt.inFlight then
      match w.reactor.call (.run (.arrive a answer)) with
      | .ok _ => none
      | .error _ =>
        some ({ w with attempts := w.attempts.set a { attempt with inFlight := false } },
          ⟨attempt.call, none⟩)
    else none

/-- The client when an action is about to settle a call, and whose action it is. -/
def brink? (w : Client Handler) : Action Handler → Option (Thread × Client Handler × Settlement)
  | .stepInvocation i => (w.invocationToBrink? i).map (Thread.invocation i, ·)
  | .stepTask t => (w.taskToBrink? t).map (Thread.task t, ·)
  | .stepReactor => w.reactorToBrink?.map (Thread.reactor, ·)
  | .postAttempt a answer => (w.workerToBrink? a answer).map (Thread.worker, ·)
  | _ => none

/-- The release that an action begins when it looks at a call and sees that it is not settled. -/
def beginSettling? (w : Client Handler) (action : Action Handler) :
    Option (Client Handler × Stint) :=
  match w.brink? action with
  | some (thread, w, settlement) =>
    match w.callOn? settlement.call with
    | some (call, _) =>
      if call.settled then none
      else some (w, .releasing thread call.session (some settlement) .looked)
    | none => none
  | none => none

/-- The claim that an operation begins when it sees that its session is open, and the release with
which it ends when its request cannot be built. -/
def beginOperation? (w : Client Handler) (i : Nat) : Option (Client Handler × Stint) := do
  let v ← w.invocations[i]?
  let s ← w.sessions[v.session]?
  match v.phase with
  | .asked => if s.closed then none else some (w, .claiming i v.session .opened)
  | .claimed =>
    match Request.build s.profile s.cursor w.fresh w.config v.operation v.timeout with
    | (.error e, config) =>
      some (({ w with config } : Client Handler).setInvocation i (.ended (.error e)),
        .releasing (.invocation i) v.session none .marked)
    | (.ok _, _) => none
  | _ => none

/-- The change of a setting that begins when no operation is seen to hold the session. -/
def beginChange? (w : Client Handler) (i : Nat) (change : SettingChange) :
    Option (Client Handler × Stint) :=
  (w.sessions[i]?).bind fun s => if s.busy then none else some (w, .changing i change false)

/-- The stint that begins with an action, if one does, and the client when it begins. -/
def begin? (w : Client Handler) : Action Handler → Option (Client Handler × Stint)
  | .changeSetting i change => w.beginChange? i change
  | .stepInvocation i => (w.beginOperation? i).or (w.beginSettling? (.stepInvocation i))
  | action => w.beginSettling? action

/-- Is it an action of the thread? A listener that waits for its subscription is on the thread of
the operation. -/
def isActionOf (w : Client Handler) : Thread → Action Handler → Bool
  | .invocation i, .stepInvocation k => k == i
  | .invocation i, .answerInvocation k _ => k == i
  | .invocation i, .wakeInvocation k => k == i
  | .invocation i, .returnInvocation k _ => k == i
  | .invocation i, .stepListener l =>
    (w.listeners[l]?).any fun listener =>
      match listener.phase with
      | .subscribing k => k == i
      | _ => false
  | .task t, .stepTask k => k == t
  | .task t, .answerTask k _ => k == t
  | .task t, .wakeTask k => k == t
  | .task t, .returnTask k _ => k == t
  | .task t, .cancelTask k => k == t
  | .reactor, .stepReactor => true
  | .reactor, .pollReactor => true
  | .reactor, .returnReactor _ => true
  | _, _ => false

/-! ## The lines -/

/-- The client with something written to a session. -/
def touch (w : Client Handler) (i : Nat) (f : Session → Session) : Client Handler :=
  { w with sessions := w.sessions.modify i f }

/-- The client with a call marked as settled. -/
def markSettled (w : Client Handler) (c : Nat) : Client Handler :=
  { w with calls := w.calls.modify c fun call => { call with settled := true } }

/-- The client with the callback of a completed call notified, if it has one. -/
def tell (w : Client Handler) : Settlement → Client Handler
  | ⟨c, some result⟩ =>
    match (w.calls[c]?).bind (·.callback) with
    | some handler => w.record (.notified c handler (Notification.ofResult result))
    | none => w
  | ⟨_, none⟩ => w

/-- The next line of a claim. The lock is free or not; while another thread holds it there is no
next line. -/
def claimLine? (w : Client Handler) (lockIsFree : Bool) (i session : Nat) :
    ClaimPoint → Option (Client Handler × ClaimPoint)
  | .opened =>
    if lockIsFree then
      (w.sessions[session]?).map fun s =>
        match s.checkIdle with
        | .error e => (w.setInvocation i (.ended (.error e)), .ended)
        | .ok () => (w, .locked)
    else none
  | .locked => some (w.touch session Session.raiseBusy, .raised)
  | .raised => some ((w.touch session Session.clearIdle).setInvocation i .claimed, .ended)
  | .ended => none

/-- The next line of a release. -/
def releaseLine? (w : Client Handler) (session : Nat) (settlement : Option Settlement) :
    ReleasePoint → Option (Client Handler × ReleasePoint)
  | .looked => some (settlement.elim w fun x => w.markSettled x.call, .marked)
  | .marked => some (w.touch session (·.recordResult (settlement.bind (·.outcome))), .recorded)
  | .recorded => some (w.touch session Session.dropBusy, .dropped)
  | .dropped => some (w.touch session Session.setIdle, .signalled)
  | .signalled => some (settlement.elim w w.tell, .ended)
  | .ended => none

/-- The next line of a stint. -/
def line? (w : Client Handler) (lockIsFree : Bool) : Stint → Option (Client Handler × Stint)
  | .claiming i session point =>
    (w.claimLine? lockIsFree i session point).map fun (w, point) => (w, .claiming i session point)
  | .changing session change written =>
    if written then none
    else some (w.touch session fun s => (s.write change).2, .changing session change true)
  | .releasing thread session settlement point =>
    (w.releaseLine? session settlement point).map fun (w, point) =>
      (w, .releasing thread session settlement point)

end Client

/-! ## Crowds -/

/-- A client and the stints that its threads have begun. -/
structure Crowd (Handler : Type) where
  client : Client Handler
  stints : List Stint
deriving Inhabited

namespace Crowd

/-- What can happen in a crowd. -/
inductive Move (Handler : Type) where
  | act (action : Action Handler)
  /-- The next line of a stint. -/
  | go (stint : Nat)
deriving Inhabited

/-- A client none of whose threads has begun a stint. -/
def ofClient (w : Client Handler) : Crowd Handler := ⟨w, []⟩

/-- Does no thread hold the lock of the session? -/
def isLockFree (x : Crowd Handler) (session : Nat) : Bool :=
  !x.stints.any fun stint => stint.session == session && stint.holdsLock

/-- Is the action one of a thread that is on a stint? -/
def isEngaged (x : Crowd Handler) (action : Action Handler) : Bool :=
  x.stints.any fun stint => !stint.isOver && stint.thread?.any (x.client.isActionOf · action)

/-- The crowd after a move, where the move is possible. -/
def move? (x : Crowd Handler) : Move Handler → Option (Crowd Handler)
  | .act action =>
    if x.isEngaged action then none
    else match x.client.begin? action with
      | some (client, stint) => some ⟨client, x.stints ++ [stint]⟩
      | none => (x.client.act? action).map fun client => ⟨client, x.stints⟩
  | .go j =>
    (x.stints[j]?).bind fun stint =>
      (x.client.line? (x.isLockFree stint.session) stint).map fun (client, stint) =>
        ⟨client, x.stints.set j stint⟩

/-- The crowd after some moves. -/
def run? (x : Crowd Handler) (moves : List (Move Handler)) : Option (Crowd Handler) :=
  moves.foldlM move? x

@[simp] theorem run?_nil (x : Crowd Handler) : x.run? [] = some x := rfl

theorem run?_cons (x : Crowd Handler) (move : Move Handler) (rest : List (Move Handler)) :
    x.run? (move :: rest) = (x.move? move).bind fun y => y.run? rest := rfl

/-- The crowds that moves lead to of which each satisfies `A` where it is made. -/
inductive Reached (A : Crowd Handler → Move Handler → Prop) : Crowd Handler → Prop where
  | initial (config : Configuration) (fresh : Bytes) (frontend : Frontend Handler) :
      Reached A (ofClient (.initial config fresh frontend))
  | move {x y : Crowd Handler} {move : Move Handler} (hx : Reached A x) (hA : A x move)
      (h : x.move? move = some y) : Reached A y

/-- The crowd after some moves, of which each satisfies `A` where it is made. -/
def runWith? (A : Crowd Handler → Move Handler → Prop) [∀ x move, Decidable (A x move)]
    (x : Crowd Handler) (moves : List (Move Handler)) : Option (Crowd Handler) :=
  moves.foldlM (fun x move => if A x move then x.move? move else none) x

theorem Reached.run {A : Crowd Handler → Move Handler → Prop} [∀ x move, Decidable (A x move)]
    {x y : Crowd Handler} {moves : List (Move Handler)} (hx : Reached A x)
    (h : x.runWith? A moves = some y) : Reached A y := by
  induction moves generalizing x with
  | nil =>
    cases h
    exact hx
  | cons move rest ih =>
    obtain ⟨z, hz, h⟩ := Option.bind_eq_some_iff.1 (h : (_ : Option _).bind _ = _)
    dsimp only at hz
    split at hz
    · rename_i hA
      exact ih (hx.move hA hz) h
    · cases hz

/-- What fewer moves lead to, more moves lead to. -/
theorem Reached.mono {A B : Crowd Handler → Move Handler → Prop} (hAB : ∀ x m, A x m → B x m)
    {x : Crowd Handler} (h : Reached A x) : Reached B x := by
  induction h with
  | initial config fresh frontend => exact .initial config fresh frontend
  | move _ hA h ih => exact ih.move (hAB _ _ hA) h

end Crowd

end Pubsub
