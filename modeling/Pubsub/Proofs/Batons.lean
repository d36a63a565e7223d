import Mathlib.Algebra.Order.Group.Multiset
import Pubsub.Proofs.Bookkeeping
import Pubsub.Proofs.LoopHistories

/-!
# Who goes on with a call

At any time the cycle of a call is somebody's business: of the thread that asked for the operation,
of a task, of the thread of the reactor, of a job in its queue, of a timer, or of an attempt whose
outcome is awaited. Each of these is a **baton**, and whoever holds it will resume the cycle. A
state lists the batons in `Client.batons`, a multiset, since they lie in invocations, tasks, the
reactor and attempts, and only how many there are for a call matters, not where.

What becomes of a call is told by its **events**: that it is started on the reactor, that its cycle
is resumed, that an attempt is made and what comes of that, that a wait begins and that it is over.
`Client.event?` says which of them an action is, and `Client.history` lists those of one call along
a run. They are the only steps at which something is done for a call with its cycle.
-/

namespace Pubsub

variable {Handler : Type}

/-! ## Events -/

/-- What can happen to a call on its way. -/
inductive CallEvent where
  /-- The reactor took it up. -/
  | started
  /-- Its cycle was resumed, and fed the outcome of an attempt if there was one. -/
  | resumed (fed : Option Outcome)
  /-- A new attempt was given its timer. -/
  | attempted (attempt : Nat)
  /-- The attempt was given to the pool. -/
  | submitted (attempt : Nat)
  /-- The response to an attempt was taken. -/
  | arrived (attempt : Nat) (outcome : Outcome)
  /-- The time of an attempt was over. -/
  | expired (attempt : Nat) (outcome : Outcome)
  /-- The timer of a wait was set. -/
  | slept (timer : Nat)
  /-- The timer of a wait went off. -/
  | woken (timer : Nat)
deriving Inhabited

namespace CallEvent

/-- What happens to one call, if anything happens to it. -/
def ofCall (c : Nat) : Option (Nat × CallEvent) → List CallEvent
  | some (d, event) => if d = c then [event] else []
  | none => []

/-- The attempt whose outcome became known. -/
def answered? : CallEvent → Option Nat
  | arrived a _ => some a
  | expired a _ => some a
  | _ => none

/-- The timer that went off. -/
def woken? : CallEvent → Option Nat
  | woken n => some n
  | _ => none

end CallEvent

/-- The event that the next step of a drive is. -/
def Drive.event? (c : Nat) : Drive → Option (Nat × CallEvent)
  | .resuming fed => some (c, .resumed fed)
  | _ => none

/-- The number of the timer that is about to go off, while the loop fires timers. -/
def Reactor.ringing? {Job : Type} (r : Reactor Job) : Option Nat :=
  match r.phase with
  | .firing _ => r.timers.head?.map Timer.number
  | _ => none

namespace Client

/-- The attempt of a number, if it is not settled. -/
def unsettled? (w : Client Handler) (a : Nat) : Option Attempt :=
  (w.attempts[a]?).filter fun attempt => !attempt.settled

/-- The event that beginning a job is. A response and a timer that come too late are none. -/
def jobEvent? (w : Client Handler) : Job → Option (Nat × CallEvent)
  | .advance c =>
    match w.reactor.ringing? with
    | some n => some (c, .woken n)
    | none => some (c, .started)
  | .arrive a answer =>
    (w.unsettled? a).map fun attempt => (attempt.call, .arrived a (arrivedOutcome answer))
  | .expire a => do
    let attempt ← w.unsettled? a
    let call ← w.calls[attempt.call]?
    return (attempt.call, .expired a (unanswered call.request))

/-- The event that the next step of the thread of the reactor is. -/
def workEvent? (w : Client Handler) : Option (Nat × CallEvent) :=
  match w.work with
  | .advancing c fed => some (c, .resumed fed)
  | .pausing c _ => if w.reactor.stopped then none else some (c, .slept w.reactor.created)
  | .arming c => if w.reactor.stopped then none else some (c, .attempted w.attempts.length)
  | .submitting a =>
    if w.frontend.poolClosed then none
    else (w.attempts[a]?).map fun attempt => (attempt.call, .submitted a)
  | .calling _ => none
  | .none =>
    match w.reactor.step? w.clock with
    | some (_, some job) => w.jobEvent? job
    | _ => none

/-- The event that an action is, and the call that it happens to. -/
def event? (w : Client Handler) : Action Handler → Option (Nat × CallEvent)
  | .stepInvocation i =>
    match w.invocationPhase? i with
    | some (.driving c drive) => drive.event? c
    | _ => none
  | .stepTask t =>
    match w.tasks[t]? with
    | some ⟨c, .running drive⟩ => drive.event? c
    | _ => none
  | .stepReactor => w.workEvent?
  | _ => none

/-- What an action does to one call. -/
def eventsOf (w : Client Handler) (c : Nat) (action : Action Handler) : List CallEvent :=
  CallEvent.ofCall c (w.event? action)

/-- What a run does to one call, oldest first. -/
def history (w : Client Handler) (c : Nat) : List (Action Handler) → List CallEvent
  | [] => []
  | action :: rest =>
    w.eventsOf c action ++ match w.act? action with
      | some w' => w'.history c rest
      | none => []

/-- The history of a run that begins with an action. -/
theorem history_cons {w w' : Client Handler} {action : Action Handler}
    (h : w.act? action = some w') (c : Nat) (rest : List (Action Handler)) :
    w.history c (action :: rest) = w.eventsOf c action ++ w'.history c rest := by
  show _ ++ _ = _
  rw [h]

end Client

/-! ## Batons -/

/-- In whose hands a call is. -/
inductive Baton where
  /-- The operation is about to hand it to the frontend. -/
  | launching
  /-- The operation is about to abandon it. -/
  | unwinding
  /-- Its task has not been run yet. -/
  | unstarted
  /-- A thread or a task drives it. -/
  | driven (drive : Drive)
  /-- It waits in the queue of the reactor. -/
  | queued
  /-- The reactor is about to resume its cycle. -/
  | advancing (fed : Option Outcome)
  /-- The reactor is about to give a new attempt its timer. -/
  | arming
  /-- The reactor is about to set the timer of a wait. -/
  | pausing
  /-- The outcome of an attempt is awaited. -/
  | awaiting (attempt : Nat)
  /-- It waits for a timer. -/
  | timed (timer : Nat)
deriving Inhabited

/-- The baton that an invocation holds, with its call. -/
def InvocationPhase.baton? : InvocationPhase → Option (Nat × Baton)
  | .launching c => some (c, .launching)
  | .driving c drive => some (c, .driven drive)
  | .unwinding c _ => some (c, .unwinding)
  | _ => none

/-- The baton that a task holds, also when it has ended. -/
def LoopTask.baton? (task : LoopTask) : Option (Nat × Baton) :=
  match task.phase with
  | .unstarted => some (task.call, .unstarted)
  | .running drive => some (task.call, .driven drive)

/-- The baton that the thread of the reactor holds. -/
def Work.baton? : Work → Option (Nat × Baton)
  | .advancing c fed => some (c, .advancing fed)
  | .pausing c _ => some (c, .pausing)
  | .arming c => some (c, .arming)
  | _ => .none

/-- The baton that a timer holds. -/
def Timer.baton? (timer : Timer Job) : Option (Nat × Baton) :=
  match timer.job with
  | .advance c => some (c, .timed timer.number)
  | _ => none

/-- The baton that a command in the queue of the reactor holds. -/
def Command.baton? : Command Job → Option (Nat × Baton)
  | .run (.advance c) => some (c, .queued)
  | .arm timer => timer.baton?
  | _ => none

/-- The attempt whose response a command in the queue of the reactor brings. -/
def Command.response? : Command Job → Option Nat
  | .run (.arrive a _) => some a
  | _ => none

/-- The baton that an attempt holds as long as it is not settled. -/
def Attempt.baton? (a : Nat) (attempt : Attempt) : Option (Nat × Baton) :=
  if attempt.settled then none else some (attempt.call, .awaiting a)

/-- The attempt, if a worker is busy with it. -/
def Attempt.worker? (a : Nat) (attempt : Attempt) : Option Nat :=
  if attempt.inFlight then some a else none

/-- The batons in the queue of a reactor and with its waiting timers. -/
def Reactor.batons (r : Reactor Job) : Multiset (Nat × Baton) :=
  ↑(r.queue.filterMap Command.baton?) + ↑(r.timers.filterMap Timer.baton?)

/-- The attempts whose responses are in the queue of a reactor. -/
def Reactor.responses (r : Reactor Job) : Multiset Nat := ↑(r.queue.filterMap Command.response?)

namespace Client

/-- The batons that the thread of the reactor does not hold. -/
def standing (w : Client Handler) : Multiset (Nat × Baton) :=
  ↑(w.invocations.filterMap fun v => v.phase.baton?)
  + ↑(w.tasks.filterMap LoopTask.baton?)
  + w.reactor.batons
  + ↑((w.attempts.mapIdx Attempt.baton?).filterMap id)

/-- The batons of all calls. -/
def batons (w : Client Handler) : Multiset (Nat × Baton) := ↑w.work.baton?.toList + w.standing

/-- The attempt that is about to be given to the pool. -/
def submitting? (w : Client Handler) : Option Nat :=
  match w.work with
  | .submitting a => some a
  | _ => none

/-- The attempts that are in the pool, and those whose responses are in the queue of the reactor. -/
def sent (w : Client Handler) : Multiset Nat :=
  ↑((w.attempts.mapIdx Attempt.worker?).filterMap id) + w.reactor.responses

/-- The attempts that are still on their way. -/
def underway (w : Client Handler) : Multiset Nat := ↑w.submitting?.toList + w.sent

/-- **Where a baton can lie**: with the thread of the reactor, an invocation, a task, in the queue
of the reactor, with a timer, or with an attempt. -/
theorem mem_batons_iff {w : Client Handler} {held : Nat × Baton} :
    held ∈ w.batons ↔ w.work.baton? = some held
      ∨ (∃ v ∈ w.invocations, v.phase.baton? = some held)
      ∨ (∃ task ∈ w.tasks, task.baton? = some held)
      ∨ (∃ command ∈ w.reactor.queue, command.baton? = some held)
      ∨ (∃ timer ∈ w.reactor.timers, timer.baton? = some held)
      ∨ ∃ (a : Nat) (attempt : Attempt),
        w.attempts[a]? = some attempt ∧ attempt.baton? a = some held := by
  have hattempts : (∃ x, (∃ (a : Nat) (h : a < w.attempts.length),
      w.attempts[a].baton? a = x) ∧ x = some held)
      ↔ ∃ (a : Nat) (attempt : Attempt),
        w.attempts[a]? = some attempt ∧ attempt.baton? a = some held := by
    constructor
    · rintro ⟨_, ⟨a, hlt, rfl⟩, hheld⟩
      exact ⟨a, _, List.getElem?_eq_getElem hlt, hheld⟩
    · rintro ⟨a, attempt, ha, hheld⟩
      obtain ⟨hlt, rfl⟩ := List.getElem?_eq_some_iff.1 ha
      exact ⟨_, ⟨a, hlt, rfl⟩, hheld⟩
  unfold batons standing Reactor.batons
  simp only [Multiset.mem_add, Multiset.mem_coe, List.mem_filterMap, List.mem_mapIdx,
    Option.mem_toList, id, hattempts, or_assoc]

/-- Where an attempt on its way can be: about to be given to the pool, with a worker, or, as a
response, in the queue of the reactor. -/
theorem mem_underway_iff {w : Client Handler} {a : Nat} :
    a ∈ w.underway ↔ w.submitting? = some a
      ∨ (∃ attempt : Attempt, w.attempts[a]? = some attempt ∧ attempt.inFlight = true)
      ∨ ∃ command ∈ w.reactor.queue, command.response? = some a := by
  have hworkers : (∃ x, (∃ (b : Nat) (h : b < w.attempts.length),
      w.attempts[b].worker? b = x) ∧ x = some a)
      ↔ ∃ attempt : Attempt, w.attempts[a]? = some attempt ∧ attempt.inFlight = true := by
    constructor
    · rintro ⟨_, ⟨b, hlt, rfl⟩, hworker⟩
      unfold Attempt.worker? at hworker
      split at hworker
      · rename_i hbusy
        obtain rfl := Option.some.inj hworker
        exact ⟨_, List.getElem?_eq_getElem hlt, hbusy⟩
      · cases hworker
    · rintro ⟨attempt, ha, hbusy⟩
      obtain ⟨hlt, rfl⟩ := List.getElem?_eq_some_iff.1 ha
      refine ⟨_, ⟨a, hlt, rfl⟩, ?_⟩
      unfold Attempt.worker?
      rw [if_pos hbusy]
  unfold underway sent Reactor.responses
  simp only [Multiset.mem_add, Multiset.mem_coe, List.mem_filterMap, List.mem_mapIdx,
    Option.mem_toList, id, hworkers]

end Client

/-! ## What a reactor does with batons -/

namespace Reactor

section Reactor

variable {Job : Type} {r r' : Reactor Job}

/-- A reactor that takes something puts it at the end of its queue. -/
theorem call_eq_ok {command : Command Job} (h : r.call command = .ok r') :
    r.stopped = false ∧ r' = { r with queue := r.queue ++ [command], signalled := true } := by
  unfold call at h
  split at h
  · cases h
  · rename_i hs
    cases h
    exact ⟨Bool.eq_false_iff.2 hs, rfl⟩

/-- A reactor refuses everything exactly if it was told to stop. -/
theorem stopped_of_call_eq_error {command : Command Job} {e : Error}
    (h : r.call command = .error e) : r.stopped = true := by
  unfold call at h
  split at h
  · assumption
  · cases h

/-- A reactor that sets a timer gives it the next number. -/
theorem schedule_eq_ok {now seconds : Binary64} {job : Job} {timer : Timer Job}
    (h : r.schedule now seconds job = .ok (timer, r')) :
    r.stopped = false ∧ timer = ⟨now + seconds, r.created, job⟩
      ∧ r' = { r with
        created := r.created + 1, queue := r.queue ++ [.arm timer], signalled := true } := by
  unfold schedule at h
  obtain ⟨r₁, hr, h⟩ := map_eq_ok_iff.1 h
  obtain ⟨rfl, rfl⟩ := Prod.mk.inj h
  obtain ⟨hs, rfl⟩ := call_eq_ok hr
  exact ⟨hs, rfl, rfl⟩

theorem stopped_of_schedule_eq_error {now seconds : Binary64} {job : Job} {e : Error}
    (h : r.schedule now seconds job = .error e) : r.stopped = true := by
  unfold schedule at h
  dsimp only at h
  cases hr : ({ r with created := r.created + 1 } : Reactor Job).call
      (.arm ⟨now + seconds, r.created, job⟩) with
  | error e' => exact stopped_of_call_eq_error (r := { r with created := r.created + 1 }) hr
  | ok r₁ =>
    rw [hr] at h
    cases h

/-- What a step of the loop can be, if no socket is readable, and the job that is to be run. -/
inductive Turns (r : Reactor Job) : Reactor Job → Option Job → Prop where
  /-- The loop goes on to its next part. -/
  | onward (phase : LoopPhase) (hp : ∀ sockets, phase ≠ .reading sockets) (he : phase ≠ .ended)
      (hf : ∀ e, phase ≠ .failed e) : Turns r { r with phase } none
  | armed {timer : Timer Job} {rest : List (Command Job)} (hq : r.queue = .arm timer :: rest) :
      Turns r { r with queue := rest, timers := Heap.push Timer.before r.timers timer } none
  /-- A socket is watched from now on, or is not any more. -/
  | watched {command : Command Job} {rest : List (Command Job)} (hq : r.queue = command :: rest)
      (hc : ∀ job, command ≠ .run job) (ha : ∀ timer, command ≠ .arm timer)
      (sockets : List (String × Job)) :
      Turns r { r with queue := rest, watched := sockets } none
  | ran {job : Job} {rest : List (Command Job)} (hr : r.ringing? = none)
      (hq : r.queue = .run job :: rest) : Turns r { r with queue := rest } (some job)
  | fired {timer : Timer Job} {rest : List (Timer Job)} (hr : r.ringing? = some timer.number)
      (ht : r.timers.Perm (timer :: rest)) (hc : timer.number ∉ r.cancelled) :
      Turns r { r with timers := rest } (some timer.job)
  | dropped {timer : Timer Job} {rest : List (Timer Job)} (ht : r.timers.Perm (timer :: rest))
      (hc : timer.number ∈ r.cancelled) : Turns r { r with timers := rest } none

/-- **The loop runs what is in its queue and the timers that are due**, if no socket is readable. -/
theorem turns_of_step? {now : Binary64} {next : Option Job}
    (hread : ∀ sockets, r.phase = .reading sockets → sockets = [])
    (h : r.step? now = some (r', next)) : r.Turns r' next := by
  obtain ⟨hdoes, rfl⟩ := does_of_step? h
  generalize r.deed = deed at hdoes
  cases hdoes with
  | read hp _ hdone =>
    obtain ⟨rfl, rfl⟩ := hdone (hread _ hp)
    exact .onward _ (by rintro _ ⟨⟩) (by rintro ⟨⟩) (by rintro _ ⟨⟩)
  | @take command rest hp hq =>
    cases command with
    | run job =>
      refine .ran ?_ hq
      unfold ringing?
      rw [hp]
    | arm timer => exact .armed hq
    | watch socket job => exact .watched hq (by rintro _ ⟨⟩) (by rintro _ ⟨⟩) _
    | unwatch socket => exact .watched hq (by rintro _ ⟨⟩) (by rintro _ ⟨⟩) _
  | turnTo hp hq => exact .onward _ (by rintro _ ⟨⟩) (by rintro ⟨⟩) (by rintro _ ⟨⟩)
  | fire hp ht hd hc =>
    obtain ⟨hperm, hhead⟩ := Heap.perm_of_pop? ht
    refine .fired ?_ hperm hc
    unfold ringing?
    rw [hp, hhead]
    rfl
  | drop hp ht hd hc => exact .dropped (Heap.perm_of_pop? ht).1 hc
  | finish hp hn => exact .onward _ (by rintro _ ⟨⟩) (by rintro ⟨⟩) (by rintro _ ⟨⟩)

end Reactor

section Batons

variable {r r' : Reactor Job}

/-- What is handed to a reactor adds its baton to those that are there. -/
theorem batons_enqueue (r : Reactor Job) (command : Command Job) (signalled : Bool)
    (created : Nat) :
    ({ r with queue := r.queue ++ [command], signalled, created } : Reactor Job).batons
      = ↑command.baton?.toList + r.batons := by
  have hone : ([command].filterMap Command.baton?) = command.baton?.toList := by
    rw [List.filterMap_cons]
    cases command.baton? <;> rfl
  unfold batons
  dsimp only
  rw [List.filterMap_append, hone, ← Multiset.coe_add, ← add_assoc]
  congr 1
  exact add_comm _ _

theorem responses_enqueue (r : Reactor Job) (command : Command Job) (signalled : Bool)
    (created : Nat) :
    ({ r with queue := r.queue ++ [command], signalled, created } : Reactor Job).responses
      = ↑command.response?.toList + r.responses := by
  have hone : ([command].filterMap Command.response?) = command.response?.toList := by
    rw [List.filterMap_cons]
    cases command.response? <;> rfl
  unfold responses
  dsimp only
  rw [List.filterMap_append, hone, ← Multiset.coe_add]
  exact add_comm _ _

/-- What is taken out of the queue takes its baton with it. -/
theorem batons_dequeue {command : Command Job} {rest : List (Command Job)}
    (hq : r.queue = command :: rest) :
    r.batons = ↑command.baton?.toList + ({ r with queue := rest } : Reactor Job).batons := by
  unfold batons
  rw [hq, List.filterMap_cons, ← add_assoc]
  cases command.baton? <;> rfl

theorem responses_dequeue {command : Command Job} {rest : List (Command Job)}
    (hq : r.queue = command :: rest) :
    r.responses
      = ↑command.response?.toList + ({ r with queue := rest } : Reactor Job).responses := by
  unfold responses
  rw [hq, List.filterMap_cons]
  cases command.response? <;> rfl

/-- A timer that is put among the waiting ones brings its baton there. -/
theorem batons_push (r : Reactor Job) (timer : Timer Job) :
    ({ r with timers := Heap.push Timer.before r.timers timer } : Reactor Job).batons
      = ↑timer.baton?.toList + r.batons := by
  have hperm := (Heap.perm_push Timer.before r.timers timer).filterMap Timer.baton?
  unfold batons
  dsimp only
  rw [Multiset.coe_eq_coe.2 hperm, List.filterMap_cons, add_left_comm]
  cases timer.baton? <;> rfl

/-- A timer that goes off takes its baton with it. -/
theorem batons_fire {timer : Timer Job} {rest : List (Timer Job)}
    (ht : r.timers.Perm (timer :: rest)) :
    r.batons = ↑timer.baton?.toList + ({ r with timers := rest } : Reactor Job).batons := by
  unfold batons
  rw [Multiset.coe_eq_coe.2 (ht.filterMap Timer.baton?), List.filterMap_cons, add_left_comm]
  cases timer.baton? <;> rfl

end Batons

end Reactor

/-! ## Replacing one holder -/

section Split

variable {α β : Type} {xs : List α} {i : Nat} {x : α}

/-- What the elements of a list hold is what one of them holds and what the others do, and stays so
when that one is replaced. -/
theorem exists_filterMap_set (g : α → Option β) (h : xs[i]? = some x) :
    ∃ others : Multiset β, ↑(xs.filterMap g) = ↑(g x).toList + others
      ∧ ∀ y, ↑((xs.set i y).filterMap g) = ↑(g y).toList + others := by
  obtain ⟨hi, rfl⟩ := List.getElem?_eq_some_iff.1 h
  have hsplit : ∀ y, ((xs.set i y).filterMap g : Multiset β)
      = ↑(g y).toList + ↑((xs.take i ++ xs.drop (i + 1)).filterMap g) := by
    intro y
    rw [List.set_eq_take_append_cons_drop, if_pos hi, Multiset.coe_add, Multiset.coe_eq_coe]
    have hperm : (xs.take i ++ y :: xs.drop (i + 1)).Perm (y :: (xs.take i ++ xs.drop (i + 1))) :=
      List.perm_middle
    refine (hperm.filterMap g).trans (List.Perm.of_eq ?_)
    rw [List.filterMap_cons]
    cases g y <;> rfl
  refine ⟨_, ?_, hsplit⟩
  rw [← hsplit, List.set_getElem_self hi]

/-- The same for an element that is changed in place. -/
theorem exists_filterMap_modify (g : α → Option β) (h : xs[i]? = some x) :
    ∃ others : Multiset β, ↑(xs.filterMap g) = ↑(g x).toList + others
      ∧ ∀ f : α → α, ↑((xs.modify i f).filterMap g) = ↑(g (f x)).toList + others := by
  obtain ⟨others, hxs, hset⟩ := exists_filterMap_set g h
  refine ⟨others, hxs, fun f => ?_⟩
  have hmodify : xs.modify i f = xs.set i (f x) := by
    rw [List.modify_eq_set_getElem?, h]
    rfl
  rw [hmodify]
  exact hset (f x)

/-- The same for a list whose elements hold something that depends on their positions. -/
theorem exists_filterMap_mapIdx_set (g : Nat → α → Option β) (h : xs[i]? = some x) :
    ∃ others : Multiset β, ↑((xs.mapIdx g).filterMap id) = ↑(g i x).toList + others
      ∧ ∀ y, ↑(((xs.set i y).mapIdx g).filterMap id) = ↑(g i y).toList + others := by
  have hg : (xs.mapIdx g)[i]? = some (g i x) := by
    rw [List.getElem?_mapIdx, h]
    rfl
  obtain ⟨others, hxs, hset⟩ := exists_filterMap_set id hg
  refine ⟨others, hxs, fun y => ?_⟩
  rw [List.mapIdx_set]
  exact hset (g i y)

/-- What the elements hold once the list has one more. -/
theorem filterMap_mapIdx_concat (g : Nat → α → Option β) (xs : List α) (x : α) :
    (((xs ++ [x]).mapIdx g).filterMap id : Multiset β)
      = ↑(g xs.length x).toList + ↑((xs.mapIdx g).filterMap id) := by
  rw [List.mapIdx_concat, List.filterMap_append, ← Multiset.coe_add, add_comm]
  congr 1

end Split

end Pubsub
