import Pubsub.Client.Invocation

/-!
# Listeners

A listener is a thread that subscribes to its channels over and over and hands each message to a
receiver. A registry names the listener of each receiver that has one. Starting a listener for a
receiver tells the one before it to stop, and puts the new one in its place; a listener strikes
itself off when it leaves its loop, unless another one has taken its place. It looks first and
strikes then, and other threads may act in between.

A listener is registered before it is complete, so an error on the way leaves one in the registry
whose thread was never started.

A listener leaves its loop when it was told to stop, or when its receiver exists no more. After a
subscription that failed it waits a while. An exception of its receiver is printed, and the listener
goes on. An error out of a subscription ends it where it stands, and so does an error of its
receiver that is no exception.
-/

namespace Pubsub

namespace Client

variable {Handler : Type}

/-- The client with the phase of a listener replaced. -/
def setListener (w : Client Handler) (l : Nat) (phase : ListenerPhase) : Client Handler :=
  { w with listeners := w.listeners.modify l fun listener => { listener with phase } }

/-- The listener of a receiver. -/
def listenerOf? (w : Client Handler) (receiver : String) : Option Nat :=
  (w.registry.find? (·.1 == receiver)).map (·.2)

/-- The listener that was started last for a receiver, whether it still goes on or not. -/
def latestListener? (w : Client Handler) (receiver : String) : Option Nat :=
  (List.range w.listeners.length).reverse.find? fun l =>
    (w.listeners[l]?).any (·.receiver == receiver)

/-- The registry with the listener of a receiver replaced. -/
def enroll (registry : List (String × Nat)) (receiver : String) (l : Nat) : List (String × Nat) :=
  (receiver, l) :: registry.filter (·.1 != receiver)

/-- The client with the listener of a receiver struck off the registry, whichever it is. -/
def strike (w : Client Handler) (receiver : String) : Client Handler :=
  { w with registry := w.registry.filter (·.1 != receiver) }

/-- Tell the listener of a receiver to stop. -/
def stopListener (w : Client Handler) (receiver : String) : Client Handler :=
  match w.listenerOf? receiver with
  | some l =>
    { w with listeners := w.listeners.modify l fun listener => { listener with stopping := true } }
  | none => w

/-- The error that telling the listener of a receiver to stop ends with, after it was told: one that
has no reference to its receiver has nothing to wake it up with either. -/
def stopFault? (w : Client Handler) (receiver : String) : Option Error := do
  let listener ← w.listeners[← w.listenerOf? receiver]?
  match listener.phase with
  | .stillborn (.notReferable _) => some .incompleteListener
  | _ => none

/-- The channels that a listener is given: one name, or the elements of a value. -/
def listenedChannels : Json → Except Error (List Json)
  | .str s => .ok [.str s]
  | value => value.elements

/-- The phase in which a listener is started, which an error may keep from being completed. -/
def birth : Option Error → ListenerPhase
  | none => .looping
  | some e => .stillborn e

/-- The client with a listener put in the place of the one before it. -/
def enlist (w : Client Handler) (listener : Listener) : Client Handler :=
  { w with
    registry := enroll w.registry listener.receiver w.listeners.length
    listeners := w.listeners ++ [listener] }

/-- Start a listener on a session. `receiver` is none for something that cannot be called. `fault`
is the error that comes of completing the listener once it is registered: there may be no weak
references to the receiver, or no further thread. -/
def startListener (w : Client Handler) (session : Nat) (channels : Json) (receiver : Option String)
    (timeout : Json) (fault : Option Error) : Except Error Unit × Client Handler :=
  if !w.frontend.isBlocking then (.error .listenerNeedsBlocking, w)
  else match receiver with
    | none => (.error .receiverNotCallable, w)
    | some receiver =>
      match listenedChannels channels, w.stopFault? receiver with
      | .error e, none | _, some e => (.error e, w.stopListener receiver)
      | .ok channels, none =>
        (fault.elim (.ok ()) .error,
          (w.stopListener receiver).enlist
            ⟨receiver, session, channels, timeout, false, birth fault⟩)

/-- Starting a listener leaves the client as it is, or only tells the one before it to stop, or puts
a new one in its place. -/
theorem startListener_cases (w : Client Handler) (session : Nat) (channels : Json)
    (receiver : Option String) (timeout : Json) (fault : Option Error) :
    (w.startListener session channels receiver timeout fault).2 = w
    ∨ ∃ r, receiver = some r
      ∧ ((w.startListener session channels receiver timeout fault).2 = w.stopListener r
        ∨ ∃ list, listenedChannels channels = .ok list
          ∧ (w.startListener session channels receiver timeout fault).2
            = (w.stopListener r).enlist ⟨r, session, list, timeout, false, birth fault⟩) := by
  unfold startListener
  split
  · exact .inl rfl
  · split
    · exact .inl rfl
    · rename_i r
      refine .inr ⟨r, rfl, ?_⟩
      split
      · exact .inl rfl
      · exact .inl rfl
      · rename_i list hlist _
        exact .inr ⟨list, hlist, rfl⟩

/-- What starting a listener comes to when nothing stands against it. -/
theorem startListener_eq_ok {w w' : Client Handler} {session : Nat} {channels timeout : Json}
    {receiver : String} {fault : Option Error}
    (h : w.startListener session channels (some receiver) timeout fault = (.ok (), w')) :
    w.frontend.isBlocking = true ∧ fault = none
    ∧ ∃ list, listenedChannels channels = .ok list
      ∧ w' = (w.stopListener receiver).enlist
          ⟨receiver, session, list, timeout, false, .looping⟩ := by
  unfold startListener at h
  split at h
  · cases h
  · rename_i hblocking
    dsimp only at h
    split at h
    · cases h
    · cases h
    · rename_i list hlist _
      cases fault with
      | some e => cases h
      | none =>
        cases h
        exact ⟨by simpa using hblocking, rfl, list, hlist, rfl⟩

/-- A receiver exists no more. -/
def collect (w : Client Handler) (receiver : String) : Client Handler :=
  { w with collected := receiver :: w.collected }

/-- The seconds that a listener waits after a subscription that failed. -/
def pauseTime : Binary64 := 1

/-- The messages of a result, each with its channel. -/
def deliveries (result : Result) : List (String × Message) :=
  (result.channels.getD []).zip (result.messages.getD [])

/-- The phase of a listener whose subscription came to a result. -/
def afterResult (w : Client Handler) (listener : Listener) (result : Result) : ListenerPhase :=
  if listener.stopping then .leaving
  else if result.code != .ok then .pausing
  else if w.collected.contains listener.receiver then .leaving
  else .delivering (deliveries result)

/-- The next step that a listener takes by itself. -/
def stepListener? (w : Client Handler) (l : Nat) : Option (Client Handler) :=
  match w.listeners[l]? with
  | none => none
  | some listener =>
    match listener.phase with
    | .looping =>
      if listener.stopping then some (w.setListener l .leaving)
      else
        let i := w.invocations.length
        some ((w.ask listener.session (.subscribeMulti (.arr listener.channels)) listener.timeout
          none).setListener l (.subscribing i))
    | .subscribing i =>
      match w.invocationPhase? i with
      | some (.ended (.error e)) => some (w.setListener l (.crashed e))
      | some (.ended (.ok (.result result))) =>
        match w.afterResult listener result with
        | .pausing => some ((w.record (.paused pauseTime)).setListener l .pausing)
        | phase => some (w.setListener l phase)
      | _ => none
    | .delivering [] => some (w.setListener l .looping)
    | .delivering ((channel, message) :: rest) =>
      some ((w.record (.received listener.receiver channel message)).setListener l
        (.receiving channel message rest))
    | .leaving =>
      if w.listenerOf? listener.receiver = some l then some (w.setListener l .striking)
      else some (w.setListener l .ended)
    | .striking =>
      match w.listenerOf? listener.receiver with
      | some _ => some ((w.strike listener.receiver).setListener l .ended)
      | none => some (w.setListener l (.crashed (.notRegistered listener.receiver)))
    | _ => none

/-! ## What the world answers -/

/-- The wait of a listener is over. -/
def wakeListener? (w : Client Handler) (l : Nat) : Option (Client Handler) :=
  match (w.listeners[l]?).map Listener.phase with
  | some .pausing => some (w.setListener l .looping)
  | _ => none

/-- The receiver of a listener returned, or raised an error: an exception is printed. -/
def returnListener? (w : Client Handler) (l : Nat) (raised : Option Error) :
    Option (Client Handler) :=
  match (w.listeners[l]?).map Listener.phase, raised with
  | some (.receiving _ _ rest), none => some (w.setListener l (.delivering rest))
  | some (.receiving _ _ rest), some e =>
    if e.isException then some ((w.print e.describe).setListener l (.delivering rest))
    else some (w.setListener l (.crashed e))
  | _, _ => none

/-- What becomes of a receiver that a listener runs. -/
theorem returnListener?_eq_some {w w' : Client Handler} {l : Nat} {raised : Option Error}
    (h : w.returnListener? l raised = some w') :
    ∃ channel message rest,
      (w.listeners[l]?).map Listener.phase = some (.receiving channel message rest)
      ∧ (raised = none ∧ w' = w.setListener l (.delivering rest)
        ∨ ∃ e, raised = some e
          ∧ (e.isException = true ∧ w' = (w.print e.describe).setListener l (.delivering rest)
            ∨ e.isException = false ∧ w' = w.setListener l (.crashed e))) := by
  unfold returnListener? at h
  split at h
  · rename_i channel message rest hp
    cases h
    exact ⟨channel, message, rest, hp, .inl ⟨rfl, rfl⟩⟩
  · rename_i channel message rest e hp
    refine ⟨channel, message, rest, hp, .inr ⟨e, rfl, ?_⟩⟩
    split at h
    · rename_i he
      cases h
      exact .inl ⟨he, rfl⟩
    · rename_i he
      cases h
      exact .inr ⟨Bool.eq_false_iff.2 he, rfl⟩
  · cases h

end Client

end Pubsub
