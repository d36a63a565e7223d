import Pubsub.Proofs.Errands
import Pubsub.Proofs.Reacting

/-!
# In whose hands an operation is

An operation is first in the hands of the thread that asked for it. A blocking frontend leaves it
there, an event loop makes a task of it, and a reactor takes it over: there it is a job in the
queue, what the thread of the reactor is doing, an attempt in the pool, or a timer. `Errand.InHands`
says which of these go with which point of the operation, and `Errand.OnTrack` that the operation
goes as it should and is in such hands.

Nothing else is at work. So all that a reactor may do besides is to turn its loop, and that changes
nothing that matters until it takes an entry that is open (`Client.turn_of_stepReactor?`).
-/

namespace Pubsub

variable {Handler : Type}

/-! ## What is seen -/

namespace Client

variable {w w' : Client Handler} {action : Action Handler}

/-- What an action shows that writes nothing into the journal. -/
theorem sightings_eq_nil (hj : w'.journal = w.journal) (hp : w.pause? action = none) :
    w.sightings action w' = [] := by
  unfold sightings
  rw [hj, hp, List.drop_length]
  rfl

theorem pause?_of_work (hw : ∀ c seconds, w.work ≠ .pausing c seconds) :
    w.pause? action = none := by
  unfold pause?
  split
  · split
    · rename_i c seconds hpausing
      exact absurd hpausing (hw c seconds)
    · rfl
  · rfl

theorem pause?_of_ne (ha : action ≠ .stepReactor) : w.pause? action = none := by
  unfold pause?
  split
  · exact absurd rfl ha
  · rfl

end Client

/-! ## Threads and tasks -/

/-- The phase of a drive after its callback returned. -/
def Drive.back? : Drive → Option Drive
  | calling result => some (finished result)
  | _ => none

/-- The reactor does it. -/
def Action.ByReactor (action : Action Handler) : Prop :=
  action = .stepReactor ∨ action = .pollReactor ∨ action = .returnReactor none

/-- Who drives a call: the thread that asked for the operation, or a task. -/
inductive Seat where
  | thread
  | task

namespace Seat

/-- The drive of the call is in this phase. Nobody else drives it. -/
def Holds (p : Places) (w : Client Handler) (drive : Drive) : Seat → Prop
  | thread => w.frontend.kind = .blocking
      ∧ w.invocationPhase? p.invocation = some (.driving p.call drive) ∧ w.tasks[p.task]? = none
  | task => w.frontend.kind = .eventLoop
      ∧ w.invocationPhase? p.invocation = some (.ended (.ok (.task p.task)))
      ∧ w.tasks[p.task]? = some ⟨p.call, .running drive⟩

/-- The client with the drive in another phase. -/
def put (p : Places) (w : Client Handler) (drive : Drive) : Seat → Client Handler
  | thread => w.setInvocation p.invocation (.driving p.call drive)
  | task => w.setTask p.task drive

/-- The step that the drive takes by itself. -/
def step (p : Places) : Seat → Action Handler
  | thread => .stepInvocation p.invocation
  | task => .stepTask p.task

/-- An answer comes to the drive. -/
def answer (p : Places) (answer : Except Error Outcome) : Seat → Action Handler
  | thread => .answerInvocation p.invocation answer
  | task => .answerTask p.task answer

/-- The drive is woken. -/
def wake (p : Places) : Seat → Action Handler
  | thread => .wakeInvocation p.invocation
  | task => .wakeTask p.task

/-- The callback of the drive returns. -/
def back (p : Places) : Seat → Action Handler
  | thread => .returnInvocation p.invocation none
  | task => .returnTask p.task none

end Seat

/-! ## Hands -/

namespace Errand

variable (E : Errand Handler)

/-- The operation was asked for, it leads to the request, and it is in this phase. -/
def Asks (w : Client Handler) (phase : InvocationPhase) : Prop :=
  ∃ operation timeout callback config,
    w.invocations[E.invocation]? = some ⟨E.session, operation, timeout, callback, phase⟩
    ∧ Request.build E.before.profile E.before.cursor w.fresh w.config operation timeout
      = (.ok E.request, config)
    ∧ callback.or w.frontend.callback = E.callback ∧ w.calls.length = E.call
    ∧ w.tasks.length = E.task

/-- The operation is on its way from the thread that asked for it to whoever drives the call, or has
come back to that thread. -/
inductive Passes (w : Client Handler) : Point → Prop where
  | asked (h : E.Asks w .asked) (hopen : E.before.closed = false) (hfree : E.before.busy = false) :
      Passes w .asked
  | claimed (h : E.Asks w .claimed) : Passes w .claimed
  | launching (hp : w.invocationPhase? E.invocation = some (.launching E.call))
      (ht : w.tasks.length = E.task) : Passes w .launching
  /-- An event loop is to run the task. -/
  | unstarted (hk : w.frontend.kind = .eventLoop)
      (hp : w.invocationPhase? E.invocation = some (.ended (.ok (.task E.task))))
      (ht : w.tasks[E.task]? = some ⟨E.call, .unstarted⟩) : Passes w (.ready none)
  /-- A blocking frontend has given back the result. -/
  | returned {result : Result} (hk : w.frontend.kind = .blocking)
      (hp : w.invocationPhase? E.invocation = some (.ended (.ok (.result result))))
      (ht : w.tasks[E.task]? = none) : Passes w (.done result)

/-- The reactor or its pool waits, and these entries are open in the reactor. -/
inductive Waits (w : Client Handler) : Multiset (Command Job) → Point → Prop where
  /-- The job that begins the call is in the queue. -/
  | queued (hpool : Attempt.NoneInFlight w.attempts) :
      Waits w {.run (.advance E.call)} (.ready none)
  /-- A worker has the attempt, and no worker has another. -/
  | inFlight {a number : Nat} (ha : w.attempts[a]? = some ⟨E.call, number, false, true⟩)
      (hpool : Attempt.NoneInFlight (w.attempts.set a ⟨E.call, number, false, false⟩)) :
      Waits w {.arm ⟨w.clock + E.request.timeout, number, .expire a⟩} .awaiting
  /-- The job that takes the answer is in the queue, and the time of the attempt is not over. -/
  | arrived {a number : Nat} {outcome : Outcome} {deadline : Binary64}
      (ha : w.attempts[a]? = some ⟨E.call, number, false, false⟩)
      (hlt : w.clock.lt deadline = true) (hpool : Attempt.NoneInFlight w.attempts) :
      Waits w {.run (.arrive a (.ok outcome)), .arm ⟨deadline, number, .expire a⟩}
        (.ready (some outcome))
  /-- The timer of the pause is set. -/
  | asleep {seconds : Binary64} {number : Nat} (hn : number ∉ w.reactor.cancelled)
      (hpool : Attempt.NoneInFlight w.attempts) :
      Waits w {.arm ⟨w.clock + seconds, number, .advance E.call⟩} (.asleep seconds)
  /-- The timer of the pause is to go off. -/
  | woken {number : Nat} (hn : number ∉ w.reactor.cancelled)
      (hpool : Attempt.NoneInFlight w.attempts) :
      Waits w {.arm ⟨w.clock, number, .advance E.call⟩} (.ready none)
  | completed {result : Result} (hpool : Attempt.NoneInFlight w.attempts) :
      Waits w 0 (.completed result)

/-- What the thread of the reactor is doing for the call at a point, and which entries are open in
the reactor. -/
inductive Works (w : Client Handler) : Multiset (Command Job) → Point → Prop where
  | advancing {fed : Option Outcome} (hw : w.work = .advancing E.call fed) :
      Works w 0 (.resuming fed)
  | arming (hw : w.work = .arming E.call) : Works w 0 .sending
  /-- The timer of the attempt is set. -/
  | submitting {a number : Nat} (hw : w.work = .submitting a)
      (ha : w.attempts[a]? = some ⟨E.call, number, false, false⟩) :
      Works w {.arm ⟨w.clock + E.request.timeout, number, .expire a⟩} .submitting
  | pausing {seconds : Binary64} (hw : w.work = .pausing E.call seconds) :
      Works w 0 (.pausing seconds)
  | calling {result : Result} (hw : w.work = .calling E.call) : Works w 0 (.calling result)

/-- The operation was given to the reactor. -/
structure Entrusted (w : Client Handler) : Prop where
  kind : w.frontend.kind = .reactor
  phase : w.invocationPhase? E.invocation = some (.ended (.ok .nothing))
  task : w.tasks[E.task]? = none

/-- These hands take the operation on from this point. -/
inductive InHands (w : Client Handler) (point : Point) : Prop where
  | passing (hrest : w.AtRest) (h : E.Passes w point)
  | driving {seat : Seat} {drive : Drive} (hrest : w.AtRest) (hs : seat.Holds E.toPlaces w drive)
      (hd : drive.point? = some point)
  | waiting {items : Multiset (Command Job)} (he : E.Entrusted w) (hw : w.work = .none)
      (hr : w.reactor.Awaits w.attempts w.clock items) (h : E.Waits w items point)
  | working {items : Multiset (Command Job)} (he : E.Entrusted w)
      (hr : w.reactor.Awaits w.attempts w.clock items) (hpool : Attempt.NoneInFlight w.attempts)
      (h : E.Works w items point)

/-- **The operation goes as it should, and is in the right hands.** -/
structure OnTrack (scene : Scene Handler) (point : Point) : Prop where
  goes : E.Goes scene point
  hands : E.InHands scene.client point

/-- The action is possible, and takes the operation on to another point. -/
def Moves (scene : Scene Handler) (point : Point) (action : Action Handler) : Prop :=
  ∃ w' point', scene.client.act? action = some w' ∧ point'.rank < point.rank
    ∧ E.OnTrack ⟨w', scene.script, scene.seen ++ scene.client.sightings action w'⟩ point'

section Moves

variable {E} {w v w' : Client Handler} {script : List Exchange}
  {seen shown : List (Sighting Handler)} {point point' : Point} {action : Action Handler}

theorem Moves.onTrack (h : E.Moves ⟨w, script, seen⟩ point action) (ha : w.act? action = some w') :
    ∃ point', E.OnTrack ⟨w', script, seen ++ w.sightings action w'⟩ point' := by
  obtain ⟨v, point', hv, -, htrack⟩ := h
  obtain rfl := Option.some.inj (hv.symm.trans ha)
  exact ⟨point', htrack⟩

/-- Nothing is seen of an action that writes nothing into the journal. -/
theorem onTrack_of_quiet (h : E.OnTrack ⟨w', script, seen⟩ point) (hj : w'.journal = w.journal)
    (hp : w.pause? action = none) :
    E.OnTrack ⟨w', script, seen ++ w.sightings action w'⟩ point := by
  rw [Client.sightings_eq_nil hj hp, List.append_nil]
  exact h

theorem Moves.of_quiet (ha : w.act? action = some w') (hj : w'.journal = w.journal)
    (hp : w.pause? action = none) (hrank : point'.rank < point.rank)
    (ht : E.OnTrack ⟨w', script, seen⟩ point') : E.Moves ⟨w, script, seen⟩ point action :=
  ⟨w', point', ha, hrank, onTrack_of_quiet ht hj hp⟩

/-- From where the call exists, it is known which request it sends. -/
theorem Goes.request (h : E.Goes ⟨w, script, seen⟩ point) (ha : point ≠ .asked)
    (hc : point ≠ .claimed) : (w.calls[E.call]?).map Call.request = some E.request := by
  have hended : ∀ {result left}, E.Ended w result script left →
      (w.calls[E.call]?).map Call.request = some E.request := by
    rintro result left ⟨-, -, -, -, cycle, hcall⟩
    rw [(Client.callOn?_eq_some_iff.1 hcall).1]
    rfl
  obtain ⟨left, -, hstands⟩ := h.stands
  cases point with
  | asked => exact absurd rfl ha
  | claimed => exact absurd rfl hc
  | launching | ready | resuming | finishing | asleep =>
    obtain ⟨cycle, cursor, hand, -⟩ := hstands
    exact hand.request
  | pausing =>
    obtain ⟨rest, -, cycle, cursor, hand, -⟩ := hstands
    exact hand.request
  | sending | submitting =>
    obtain ⟨rest, -, cycle, cursor, e, outcome, script, hand, -⟩ := hstands
    exact hand.request
  | awaiting =>
    obtain ⟨cycle, cursor, e, outcome, script, hand, -⟩ := hstands
    exact hand.request
  | calling | completed | done => exact hended hstands

/-- What the journal shows of an action is seen of it. -/
theorem Shows.onTrack (h : E.Shows w v shown) (ht : E.OnTrack ⟨w', script, seen ++ shown⟩ point)
    (ha : point ≠ .asked) (hc : point ≠ .claimed) (hp : w.pause? action = none)
    (hcalls : w'.calls = v.calls) (hjournal : w'.journal = v.journal)
    (hclock : w'.clock = v.clock) :
    E.OnTrack ⟨w', script, seen ++ w.sightings action w'⟩ point := by
  have hrequest := ht.goes.request ha hc
  rw [hcalls] at hrequest
  rw [h.sightings_eq hrequest hp hcalls hjournal hclock]
  exact ht

end Moves

end Errand

/-! ## Who can act -/

namespace Client

variable {w w' : Client Handler} {i t a : Nat} {answer : Except Error Outcome}
  {raised : Option Error}

theorem exists_driving_of_answerInvocation? (h : w.answerInvocation? i answer = some w') :
    ∃ c drive, w.invocationPhase? i = some (.driving c drive) := by
  unfold answerInvocation? at h
  split at h
  · exact ⟨_, _, ‹_›⟩
  · cases h

theorem exists_driving_of_wakeInvocation? (h : w.wakeInvocation? i = some w') :
    ∃ c drive, w.invocationPhase? i = some (.driving c drive) := by
  unfold wakeInvocation? at h
  split at h
  · exact ⟨_, _, ‹_›⟩
  · cases h

theorem exists_driving_of_returnInvocation? (h : w.returnInvocation? i raised = some w') :
    ∃ c drive, w.invocationPhase? i = some (.driving c drive) := by
  unfold returnInvocation? at h
  split at h
  · exact ⟨_, _, ‹_›⟩
  · exact ⟨_, _, ‹_›⟩
  · cases h

theorem exists_running_of_answerTask? (h : w.answerTask? t answer = some w') :
    ∃ drive, w.taskPhase? t = some (.running drive) := by
  unfold answerTask? at h
  split at h
  · exact ⟨_, ‹_›⟩
  · cases h

theorem exists_running_of_wakeTask? (h : w.wakeTask? t = some w') :
    ∃ drive, w.taskPhase? t = some (.running drive) := by
  unfold wakeTask? at h
  split at h
  · exact ⟨_, ‹_›⟩
  · cases h

theorem exists_running_of_returnTask? (h : w.returnTask? t raised = some w') :
    ∃ drive, w.taskPhase? t = some (.running drive) := by
  unfold returnTask? at h
  split at h
  · exact ⟨_, ‹_›⟩
  · exact ⟨_, ‹_›⟩
  · cases h

/-- An invocation that has ended takes no step. -/
theorem stepInvocation?_of_ended {outcome : Except Error Returned}
    (h : w.invocationPhase? i = some (.ended outcome)) : w.stepInvocation? i = none := by
  obtain ⟨v, hv, hp⟩ := Option.map_eq_some_iff.1 h
  unfold stepInvocation?
  rw [hv]
  dsimp only
  rw [hp]

theorem stepTask?_of_none (h : w.tasks[t]? = none) : w.stepTask? t = none := by
  unfold stepTask?
  rw [h]

/-- Who hands an answer back was busy with an attempt. -/
theorem exists_inFlight_of_postAttempt? (h : w.postAttempt? a answer = some w') :
    ∃ attempt, w.attempts[a]? = some attempt ∧ attempt.inFlight = true := by
  unfold postAttempt? at h
  split at h
  · rename_i attempt ha
    split at h
    · exact ⟨attempt, ha, ‹_›⟩
    · cases h
  · cases h

theorem exists_calling_of_returnReactor? (h : w.returnReactor? raised = some w') :
    ∃ c, w.work = .calling c := by
  exact (returnReactor?_eq_some h).1

end Client

/-- Nobody drives the call. -/
structure Places.Undriven (p : Places) (w : Client Handler) : Prop where
  invocation : ∀ c drive, w.invocationPhase? p.invocation ≠ some (.driving c drive)
  task : ∀ drive, w.taskPhase? p.task ≠ some (.running drive)

namespace Places.Undriven

variable {p : Places} {w w' : Client Handler} {action : Action Handler}
  {outcome : Except Error Outcome}

theorem of_isOwn (h : p.Undriven w) (ho : p.IsOwn action) (ha : w.act? action = some w') :
    action = .stepInvocation p.invocation ∨ action = .stepTask p.task ∨ action.ByReactor := by
  cases ho with
  | invocation => exact .inl rfl
  | invocationReturns =>
    obtain ⟨c, drive, hdriving⟩ := Client.exists_driving_of_returnInvocation? ha
    exact absurd hdriving (h.invocation c drive)
  | task => exact .inr (.inl rfl)
  | taskReturns =>
    obtain ⟨drive, hrunning⟩ := Client.exists_running_of_returnTask? ha
    exact absurd hrunning (h.task drive)
  | reactor => exact .inr (.inr (.inl rfl))
  | reactorPolls => exact .inr (.inr (.inr (.inl rfl)))
  | reactorReturns => exact .inr (.inr (.inr (.inr rfl)))

/-- Only a worker of the pool can hand back an answer. -/
theorem of_isAnswer (h : p.Undriven w) (ho : p.IsAnswer outcome action)
    (ha : w.act? action = some w') :
    ∃ a attempt, action = .postAttempt a outcome ∧ w.attempts[a]? = some attempt
      ∧ attempt.inFlight = true := by
  cases ho with
  | invocation =>
    obtain ⟨c, drive, hdriving⟩ := Client.exists_driving_of_answerInvocation? ha
    exact absurd hdriving (h.invocation c drive)
  | task =>
    obtain ⟨drive, hrunning⟩ := Client.exists_running_of_answerTask? ha
    exact absurd hrunning (h.task drive)
  | attempt a =>
    obtain ⟨attempt, hattempt, hbusy⟩ := Client.exists_inFlight_of_postAttempt? ha
    exact ⟨a, attempt, rfl, hattempt, hbusy⟩

/-- Nobody is there to be woken. -/
theorem of_wake (h : p.Undriven w) {kind : FrontendKind} (ha : w.run? (p.wake kind) = some w') :
    w' = w := by
  cases kind with
  | blocking =>
    obtain ⟨v, hv, -⟩ := Option.bind_eq_some_iff.1 ha
    obtain ⟨c, drive, hdriving⟩ := Client.exists_driving_of_wakeInvocation? hv
    exact absurd hdriving (h.invocation c drive)
  | eventLoop =>
    obtain ⟨v, hv, -⟩ := Option.bind_eq_some_iff.1 ha
    obtain ⟨drive, hrunning⟩ := Client.exists_running_of_wakeTask? hv
    exact absurd hrunning (h.task drive)
  | reactor => exact (Option.some.inj ha).symm

end Places.Undriven

/-! ## Turns of the loop -/

namespace Client

/-- A run that begins with the clock going on. -/
theorem run?_tick {w : Client Handler} {now : Binary64} (hle : w.clock.le now = true)
    (rest : List (Action Handler)) :
    w.run? (.tick now :: rest) = ({ w with clock := now } : Client Handler).run? rest := by
  rw [run?_cons]
  show (w.tick? now).bind _ = _
  unfold tick?
  rw [if_pos hle]
  rfl

theorem run?_tick_eq_some {w w' : Client Handler} {now : Binary64} {rest : List (Action Handler)}
    (h : w.run? (.tick now :: rest) = some w') :
    ({ w with clock := now } : Client Handler).run? rest = some w' := by
  obtain ⟨v, hv, hrest⟩ := Option.bind_eq_some_iff.1 h
  have htick : w.tick? now = some v := hv
  unfold tick? at htick
  split at htick
  · cases htick
    exact hrest
  · cases htick

variable {w w' : Client Handler} {items : Multiset (Command Job)} {action : Action Handler}

/-- The alarm of a settled attempt is ignored. -/
theorem beginJob_of_settled {a : Nat} (ha : (w.attempts[a]?).any (·.settled) = true) :
    w.beginJob (.expire a) = w := by
  have hnone : w.settleAttempt? a = none := by
    refine settleAttempt?_eq_none fun attempt hattempt => ?_
    rw [hattempt] at ha
    exact ha
  unfold beginJob
  dsimp only
  rw [hnone]

/-- Beginning a job shows nothing. -/
theorem journal_beginJob (w : Client Handler) (job : Job) :
    (w.beginJob job).journal = w.journal := by
  have hsettle : ∀ {a : Nat} {v : Client Handler} {attempt : Attempt},
      w.settleAttempt? a = some (v, attempt) → v.journal = w.journal := by
    intro a v attempt h
    unfold settleAttempt? at h
    split at h
    · split at h <;> cases h
      rfl
    · cases h
  cases job with
  | advance c => rfl
  | arrive a answer =>
    unfold beginJob
    dsimp only
    split
    · rename_i v attempt hsettled
      exact hsettle (v := v) hsettled
    · rfl
  | expire a =>
    unfold beginJob
    dsimp only
    split
    · rename_i v attempt hsettled
      split <;> exact hsettle (v := v) hsettled
    · rfl

/-- A reactor that does nothing for a call turns its loop, and begins the job that it comes to. -/
theorem stepReactor?_of_idle {r : Reactor Job} {next : Option Job} (hw : w.work = .none)
    (hs : w.reactor.step? w.clock = some (r, next)) :
    w.stepReactor? = some ((next.map ({ w with reactor := r } : Client Handler).beginJob).getD
      { w with reactor := r }) := by
  unfold stepReactor?
  split
  case h_6 =>
    rw [hs]
    cases next <;> rfl
  all_goals
    rename_i hother
    cases hw.symm.trans hother

/-- A loop that turns while the reactor does nothing for a call either changes nothing that matters,
or takes one of the entries that are open. -/
theorem turn_of_stepReactor? (hw : w.work = .none)
    (hr : w.reactor.Awaits w.attempts w.clock items) (h : w.stepReactor? = some w') :
    ∃ r, r.cancelled = w.reactor.cancelled
      ∧ (w' = { w with reactor := r } ∧ r.Awaits w.attempts w.clock items
        ∨ ∃ item rest next, items = item ::ₘ rest ∧ r.Awaits w.attempts w.clock rest
          ∧ w.reactor.Takes w.clock item next
          ∧ w' = (next.map ({ w with reactor := r } : Client Handler).beginJob).getD
            { w with reactor := r }) := by
  cases hs : w.reactor.step? w.clock with
  | none =>
    unfold stepReactor? at h
    rw [hw] at h
    dsimp only at h
    rw [hs] at h
    cases h
  | some turned =>
    obtain ⟨r, next⟩ := turned
    obtain rfl := Option.some.inj ((stepReactor?_of_idle hw hs).symm.trans h)
    refine ⟨r, Reactor.cancelled_of_step? hs, ?_⟩
    rcases hr.of_step? hs with ⟨hawaits, hnext⟩ | ⟨item, rest, hitems, hawaits, htakes⟩
    · refine .inl ⟨?_, hawaits⟩
      rcases hnext with rfl | ⟨a, rfl, ha⟩
      · rfl
      · exact beginJob_of_settled (w := { w with reactor := r }) ha
    · exact .inr ⟨item, rest, next, hitems, hawaits, htakes, rfl⟩

/-- A poll changes nothing that matters. -/
theorem poll_of_pollReactor? (hr : w.reactor.Awaits w.attempts w.clock items)
    (h : w.pollReactor? = some w') :
    w.work = .none ∧ ∃ r, r.cancelled = w.reactor.cancelled ∧ w' = { w with reactor := r }
      ∧ r.Awaits w.attempts w.clock items := by
  unfold pollReactor? at h
  split at h
  · rename_i hw hp
    cases h
    refine ⟨hw, _, ?_, rfl, hr.poll hp⟩
    rw [hr.poll_eq hp]
  · cases h

end Client

end Pubsub
