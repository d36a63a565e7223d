import Pubsub.Proofs.Heaps
import Pubsub.Proofs.Readings

/-!
# Histories of a reactor

A reactor is used from all sides: any thread may hand it jobs, set timers and cancel them, and so
may the jobs that it runs, while the loop goes on whenever no job is running. `Moves` says how a
reactor changes together with a clock that does not go back, and a `History` is any sequence of such
moves, with a log of what happened. What the loop does is named by its `Deed`, and what that changes
is said once for each (`does_of_step?`).
-/

namespace Pubsub

/-! ## The order of timers -/

namespace Timer

variable {Job : Type} {s t u : Timer Job} {timers rest : List (Timer Job)}

/-- Deadlines are compared first, and numbers where these agree. -/
theorem before_iff (hs : s.deadline ≠ .nan) (ht : t.deadline ≠ .nan) :
    s.before t = true ↔ s.deadline.place < t.deadline.place
      ∨ s.deadline.place = t.deadline.place ∧ s.number < t.number := by
  unfold before
  split
  · rename_i heq
    have hplace := (Binary64.eq_iff.1 heq).2.2
    simp only [decide_eq_true_eq]
    omega
  · rename_i hne
    have hplace : s.deadline.place ≠ t.deadline.place := fun h =>
      hne (Binary64.eq_iff.2 ⟨hs, ht, h⟩)
    rw [Binary64.lt_iff]
    simp only [ne_eq, hs, not_false_eq_true, ht, true_and]
    omega

theorem not_before_iff (hs : s.deadline ≠ .nan) (ht : t.deadline ≠ .nan) :
    s.before t = false ↔ t.deadline.place < s.deadline.place
      ∨ t.deadline.place = s.deadline.place ∧ t.number ≤ s.number := by
  rw [Bool.eq_false_iff, ne_eq, before_iff hs ht]
  omega

/-- Timers are in order, unless a deadline is no number. -/
theorem orders : Heap.Orders before fun t : Timer Job => t.deadline ≠ .nan where
  asymm ha hb h := by
    rw [before_iff ha hb] at h
    rw [not_before_iff hb ha]
    omega
  trans ha hb hc hab hbc := by
    rw [not_before_iff hb ha] at hab
    rw [not_before_iff hc hb] at hbc
    rw [not_before_iff hc ha]
    omega

/-- Of two timers with different numbers one comes before the other. -/
theorem before_of_not_before (hs : s.deadline ≠ .nan) (ht : t.deadline ≠ .nan)
    (hne : s.number ≠ t.number) (h : t.before s = false) : s.before t = true := by
  rw [not_before_iff ht hs] at h
  exact (before_iff hs ht).2 (by omega)

theorem le_of_not_before (hs : s.deadline ≠ .nan) (ht : t.deadline ≠ .nan)
    (h : t.before s = false) : s.deadline.le t.deadline = true := by
  rw [not_before_iff ht hs] at h
  exact Binary64.le_iff.2 ⟨hs, ht, by omega⟩

/-- No deadline is earlier than that of the timer at the head of the heap. -/
theorem le_of_head? (h : Heap.IsHeap before timers) (hn : ∀ t ∈ timers, t.deadline ≠ .nan)
    (hs : timers.head? = some s) (ht : t ∈ timers) : s.deadline.le t.deadline = true :=
  le_of_not_before (hn s (List.mem_of_mem_head? hs)) (hn t ht)
    (h.not_before_head orders hn hs ht)

end Timer

namespace Reactor

variable {Job : Type}

/-! ## What the loop does -/

/-- What the loop does in one step. -/
inductive Deed (Job : Type) where
  /-- It goes on with the readable sockets, and perhaps runs the job of one. -/
  | read (job : Option Job)
  /-- It takes the oldest entry of the queue. -/
  | take (command : Command Job)
  /-- It finds the queue empty and turns to the timers, of which these are waiting. -/
  | turnTo (waiting : List (Timer Job))
  /-- It fires a timer that is due. -/
  | fire (timer : Timer Job)
  /-- It drops a timer that is due and was cancelled. -/
  | drop (timer : Timer Job)
  /-- It finds no timer due any more, and the turn is over. -/
  | finish

/-- The job that is run for it. -/
def Deed.job : Deed Job → Option Job
  | .read job => job
  | .take (.run job) => some job
  | .fire timer => some timer.job
  | _ => none

/-- What the loop does next. -/
def deed (r : Reactor Job) : Deed Job :=
  match r.phase with
  | .reading (socket :: _) => .read ((r.watched.find? (·.1 == socket)).map (·.2))
  | .draining =>
    match r.queue with
    | [] => .turnTo r.timers
    | command :: _ => .take command
  | .firing start =>
    match Heap.pop? Timer.before r.timers with
    | none => .finish
    | some (timer, _) =>
      if timer.deadline.le start then if r.isCancelled timer then .drop timer else .fire timer
      else .finish
  | _ => .read none

/-- How the reactor changes by what its loop does. -/
inductive Does (now : Binary64) (r : Reactor Job) : Deed Job → Reactor Job → Prop where
  | read {sockets : List String} {job : Option Job} {phase : LoopPhase}
      (hp : r.phase = .reading sockets)
      (hnext : phase = .draining ∨ ∃ others, phase = .reading others)
      (hdone : sockets = [] → phase = .draining ∧ job = none) :
      Does now r (.read job) { r with phase }
  | take {command : Command Job} {rest : List (Command Job)} (hp : r.phase = .draining)
      (hq : r.queue = command :: rest) :
      Does now r (.take command) (({ r with queue := rest }).execute command).1
  | turnTo (hp : r.phase = .draining) (hq : r.queue = []) :
      Does now r (.turnTo r.timers) { r with phase := .firing now }
  | fire {start : Binary64} {timer : Timer Job} {rest : List (Timer Job)}
      (hp : r.phase = .firing start)
      (ht : Heap.pop? Timer.before r.timers = some (timer, rest))
      (hd : timer.deadline.le start = true) (hc : timer.number ∉ r.cancelled) :
      Does now r (.fire timer) { r with timers := rest }
  | drop {start : Binary64} {timer : Timer Job} {rest : List (Timer Job)}
      (hp : r.phase = .firing start)
      (ht : Heap.pop? Timer.before r.timers = some (timer, rest))
      (hd : timer.deadline.le start = true) (hc : timer.number ∈ r.cancelled) :
      Does now r (.drop timer) { r with timers := rest }
  | finish {start : Binary64} (hp : r.phase = .firing start)
      (hn : ∀ timer ∈ r.timers.head?, ¬ timer.deadline.le start = true) :
      Does now r .finish { r with phase := .polling }

variable {r r' : Reactor Job} {now : Binary64} {next : Option Job}

/-- **A step of the loop does what `deed` says**, and hands out the job of that. -/
theorem does_of_step? (hs : r.step? now = some (r', next)) :
    r.Does now r.deed r' ∧ next = r.deed.job := by
  unfold step? at hs
  split at hs
  · rename_i hp
    cases hs
    have hdeed : r.deed = .read none := by simp only [deed, hp]
    rw [hdeed]
    exact ⟨.read hp (.inl rfl) fun _ => ⟨rfl, rfl⟩, rfl⟩
  · rename_i socket rest hp
    cases hs
    have hdeed : r.deed = .read ((r.watched.find? (·.1 == socket)).map (·.2)) := by
      simp only [deed, hp]
    rw [hdeed]
    exact ⟨.read hp (.inr ⟨rest, rfl⟩) (by simp), rfl⟩
  · rename_i hp
    split at hs
    · rename_i hq
      cases hs
      have hdeed : r.deed = .turnTo r.timers := by simp only [deed, hp, hq]
      rw [hdeed]
      exact ⟨.turnTo hp hq, rfl⟩
    · rename_i command rest hq
      have hdeed : r.deed = .take command := by simp only [deed, hp, hq]
      obtain ⟨rfl, rfl⟩ := Prod.ext_iff.1 (Option.some.inj hs)
      rw [hdeed]
      refine ⟨.take hp hq, ?_⟩
      cases command <;> rfl
  · rename_i start hp
    split at hs
    · rename_i ht
      cases hs
      have hdeed : r.deed = .finish := by simp only [deed, hp, ht]
      rw [hdeed]
      exact ⟨.finish hp (by simp [Heap.pop?_eq_none_iff.1 ht]), rfl⟩
    · rename_i timer rest ht
      split at hs
      · rename_i hd
        cases hs
        by_cases hc : r.isCancelled timer = true
        · have hdeed : r.deed = .drop timer := by simp only [deed, hp, ht, if_pos hd, if_pos hc]
          rw [hdeed, if_pos hc]
          exact ⟨.drop hp ht hd (List.contains_iff_mem.1 hc), rfl⟩
        · have hdeed : r.deed = .fire timer := by simp only [deed, hp, ht, if_pos hd, if_neg hc]
          rw [hdeed, if_neg hc]
          exact ⟨.fire hp ht hd fun h => hc (List.contains_iff_mem.2 h), rfl⟩
      · rename_i hd
        cases hs
        have hdeed : r.deed = .finish := by simp only [deed, hp, ht, if_neg hd]
        rw [hdeed]
        exact ⟨.finish hp (by simpa [(Heap.perm_of_pop? ht).2] using hd), rfl⟩
  · cases hs

/-- A poll concerns the loop and its signal only. -/
theorem exists_poll_eq (r : Reactor Job) (now : Binary64) (isReadable : String → Bool) :
    ∃ signalled phase, r.poll now isReadable = { r with signalled, phase } := by
  unfold poll
  repeat' split
  all_goals exact ⟨_, _, rfl⟩

/-- A loop that can say how long to poll goes on with the sockets that it found, unless the reactor
was told to stop. -/
theorem poll_eq_of_pollTime {n : Int} (hp : r.phase = .polling) (hn : r.pollTime now = .ok n)
    (isReadable : String → Bool) :
    r.stopped = true ∧ r.poll now isReadable = { r with phase := .ended }
      ∨ r.stopped = false ∧ r.poll now isReadable
        = { r with
          signalled := false
          phase := .reading ((r.watched.map (·.1)).filter isReadable) } := by
  unfold poll
  simp only [hp, hn]
  cases hs : r.stopped with
  | true => exact .inl ⟨rfl, rfl⟩
  | false => exact .inr ⟨rfl, rfl⟩

/-- A loop that goes on and does not poll has a next step. -/
theorem exists_step? (hp : r.phase ≠ .polling) (he : r.phase ≠ .ended)
    (hf : ∀ e, r.phase ≠ .failed e) : ∃ r' next, r.step? now = some (r', next) := by
  unfold step?
  cases hloop : r.phase with
  | polling => exact absurd hloop hp
  | reading sockets =>
    cases sockets with
    | nil => exact ⟨_, _, rfl⟩
    | cons socket others => exact ⟨_, _, rfl⟩
  | draining =>
    cases hq : r.queue with
    | nil => exact ⟨_, _, rfl⟩
    | cons command others => exact ⟨_, _, rfl⟩
  | firing start =>
    cases ht : Heap.pop? Timer.before r.timers with
    | none => exact ⟨_, _, rfl⟩
    | some taken =>
      dsimp only
      split <;> exact ⟨_, _, rfl⟩
  | ended => exact absurd hloop he
  | failed e => exact absurd hloop (hf e)

/-! ## Moves -/

/-- A reactor in use. -/
structure Situation (Job : Type) where
  reactor : Reactor Job
  /-- What the clock says. -/
  now : Binary64
  /-- The job that the loop is running. -/
  running : Option Job

/-- A reactor that was just started. -/
def Situation.initial (now : Binary64) : Situation Job := ⟨Reactor.initial, now, none⟩

/-- What happens to a reactor in use. -/
inductive Event (Job : Type) where
  /-- Something other than a timer was handed to it. -/
  | called (command : Command Job)
  /-- A timer was set for some seconds from then. -/
  | scheduled (seconds : Binary64) (timer : Timer Job)
  | cancelled (number : Nat)
  | stopped
  | ticked
  | polled
  /-- The loop did this, and a job is to be run for it. -/
  | did (deed : Deed Job) (next : Option Job)
  /-- The job that was running came to an end, perhaps by an error. -/
  | returned (raised : Option Error)

/-- **What may happen next.** Jobs and timers are handed over, and timers cancelled, at any time,
whether a job is running or not; the clock goes on; and while no job is running the loop goes on. A
job may raise any error; `Reactor.leave` says what the loop makes of it. -/
inductive Moves : Situation Job → Event Job → Situation Job → Prop where
  | call {s : Situation Job} {command : Command Job} {r : Reactor Job}
      (hc : ∀ timer, command ≠ .arm timer) (h : s.reactor.call command = .ok r) :
      Moves s (.called command) { s with reactor := r }
  | schedule {s : Situation Job} {seconds : Binary64} {job : Job} {timer : Timer Job}
      {r : Reactor Job}
      (hf : seconds.isFinite = true)
      (h : s.reactor.schedule s.now seconds job = .ok (timer, r)) :
      Moves s (.scheduled seconds timer) { s with reactor := r }
  | cancel {s : Situation Job} (number : Nat) :
      Moves s (.cancelled number) { s with reactor := s.reactor.cancel number }
  | stop {s : Situation Job} : Moves s .stopped { s with reactor := s.reactor.stop }
  | tick {s : Situation Job} {now : Binary64} (hle : s.now.le now = true)
      (hf : now.isFinite = true) : Moves s .ticked { s with now }
  | poll {s : Situation Job} (isReadable : String → Bool) (hr : s.running = none)
      (hp : s.reactor.phase = .polling) :
      Moves s .polled { s with reactor := s.reactor.poll s.now isReadable }
  | step {s : Situation Job} {r : Reactor Job} {next : Option Job} (hr : s.running = none)
      (h : s.reactor.step? s.now = some (r, next)) :
      Moves s (.did s.reactor.deed next) ⟨r, s.now, next⟩
  | leave {s : Situation Job} {job : Job} (hr : s.running = some job) (raised : Option Error) :
      Moves s (.returned raised) { s with reactor := s.reactor.leave raised, running := none }

/-- Something that happened, and what the clock said. -/
structure LogEntry (Job : Type) where
  now : Binary64
  event : Event Job

/-- Some moves in turn, with the log of them. -/
inductive History : Situation Job → List (LogEntry Job) → Situation Job → Prop where
  | nil (s : Situation Job) : History s [] s
  | cons {s t u : Situation Job} {event : Event Job} {log : List (LogEntry Job)}
      (hm : Moves s event t) (hc : History t log u) : History s (⟨s.now, event⟩ :: log) u

variable {s t u : Situation Job} {event : Event Job} {entry : LogEntry Job}
  {log before during after : List (LogEntry Job)}

/-- What is logged happened after a history. -/
theorem History.split (h : History s (before ++ ⟨now, event⟩ :: after) u) :
    ∃ m m', History s before m ∧ now = m.now ∧ Moves m event m' ∧ History m' after u := by
  induction before generalizing s with
  | nil =>
    cases h with
    | cons hm hc => exact ⟨_, _, .nil _, rfl, hm, hc⟩
  | cons first rest ih =>
    cases h with
    | cons hm hc =>
      obtain ⟨m, m', hbefore, hnow, hentry, hafter⟩ := ih hc
      exact ⟨m, m', .cons hm hbefore, hnow, hentry, hafter⟩

theorem History.append_split (h : History s (before ++ after) u) :
    ∃ m, History s before m ∧ History m after u := by
  induction before generalizing s with
  | nil => exact ⟨s, .nil s, h⟩
  | cons first rest ih =>
    cases h with
    | cons hm hc =>
      obtain ⟨m, hbefore, hafter⟩ := ih hc
      exact ⟨m, .cons hm hbefore, hafter⟩

/-! ## What a log says -/

/-- What entered the queue. -/
def Event.accepted? : Event Job → Option (Command Job)
  | .called command => some command
  | .scheduled _ timer => some (.arm timer)
  | _ => none

/-- What was taken from the queue. -/
def Event.taken? : Event Job → Option (Command Job)
  | .did (.take command) _ => some command
  | _ => none

/-- The timer that was fired. -/
def Event.fired? : Event Job → Option (Timer Job)
  | .did (.fire timer) _ => some timer
  | _ => none

/-- The timer that was fired or dropped. -/
def Event.removed? : Event Job → Option (Timer Job)
  | .did (.fire timer) _ => some timer
  | .did (.drop timer) _ => some timer
  | _ => none

/-- The number of the timer that was cancelled. -/
def Event.cancelled? : Event Job → Option Nat
  | .cancelled number => some number
  | _ => none

/-- Does the loop turn to the timers? -/
def Event.turnsToTimers : Event Job → Bool
  | .did (.turnTo _) _ => true
  | _ => false

def accepted (log : List (LogEntry Job)) : List (Command Job) := log.filterMap (·.event.accepted?)

def taken (log : List (LogEntry Job)) : List (Command Job) := log.filterMap (·.event.taken?)

def fired (log : List (LogEntry Job)) : List (Timer Job) := log.filterMap (·.event.fired?)

def removed (log : List (LogEntry Job)) : List (Timer Job) := log.filterMap (·.event.removed?)

def cancelledIn (log : List (LogEntry Job)) : List Nat := log.filterMap (·.event.cancelled?)

/-- The timers among some entries of a queue. -/
def armed (commands : List (Command Job)) : List (Timer Job) :=
  commands.filterMap fun
    | .arm timer => some timer
    | _ => none

end Reactor

end Pubsub
