import Pubsub.Client.Run
import Pubsub.Proofs.Heaps

/-!
# The outcomes on their way to a cycle

What came of an attempt is not fed to the cycle at once. A thread that waited for it holds it until
its next step, and on a reactor it first travels as a job. `Client.Feeds P` says that every outcome
on its way satisfies `P`.

A transport gives a reply or says that the response took too long or that communication failed; it
never reports success or any other code without a response. Such outcomes are **genuine**. If the
world gives only genuine outcomes, then only genuine ones are on their way, since those that a
client makes itself are genuine too: an attempt that was not answered in time, and an error in the
pool.
-/

namespace Pubsub

variable {Handler : Type}

/-- Can a transport give the outcome? -/
def Outcome.IsGenuine : Outcome → Prop
  | .reply _ _ => True
  | .failure code _ => code = .timeout ∨ code = .ioError

/-- A transport does not report success without a response. -/
theorem Outcome.IsGenuine.ne_success {outcome : Outcome} (h : outcome.IsGenuine)
    (text : Option String) : outcome ≠ .failure .ok text := by
  rintro rfl
  rcases h with h | h <;> cases h

/-- **What an exchange comes to is genuine.** -/
theorem Answer.isGenuine_outcome {answer : Answer} {outcome : Outcome}
    (h : answer.outcome = .ok outcome) : outcome.IsGenuine := by
  cases answer with
  | response status content =>
    cases h
    trivial
  | fault name text =>
    unfold Answer.outcome at h
    dsimp only at h
    split at h
    · cases h
      exact Or.inl rfl
    · split at h
      · cases h
      · cases h
        exact Or.inr rfl

/-- An action by which the world gives an outcome gives a genuine one. -/
def Action.IsGenuine : Action Handler → Prop
  | .answerInvocation _ (.ok outcome) => outcome.IsGenuine
  | .answerTask _ (.ok outcome) => outcome.IsGenuine
  | .postAttempt _ (.ok outcome) => outcome.IsGenuine
  | _ => True

/-! ## Where outcomes wait -/

/-- The outcome that a drive is about to feed, if any, satisfies `P`. -/
def Drive.Feeds (P : Outcome → Prop) : Drive → Prop
  | .resuming (some outcome) => P outcome
  | _ => True

/-- The outcome that an invocation is about to feed, if any, satisfies `P`. -/
def InvocationPhase.Feeds (P : Outcome → Prop) : InvocationPhase → Prop
  | .driving _ drive => drive.Feeds P
  | _ => True

/-- The outcome that a task is about to feed, if any, satisfies `P`. -/
def TaskPhase.Feeds (P : Outcome → Prop) : TaskPhase → Prop
  | .running drive => drive.Feeds P
  | .unstarted => True

/-- The outcome that the thread of the reactor is about to feed, if any, satisfies `P`. -/
def Work.Feeds (P : Outcome → Prop) : Work → Prop
  | .advancing _ (some outcome) => P outcome
  | _ => True

/-- The outcome that a job carries, if any, satisfies `P`. -/
def Job.Feeds (P : Outcome → Prop) : Job → Prop
  | .arrive _ (.ok outcome) => P outcome
  | _ => True

/-! ## Jobs in a reactor -/

section Jobs

variable {Job : Type}

/-- The job that a command brings to a reactor, if any. -/
def Command.job? : Command Job → Option Job
  | .run job => some job
  | .arm timer => some timer.job
  | .watch _ job => some job
  | .unwatch _ => none

/-- Every job that a reactor has to run satisfies `Q`. -/
structure Reactor.AllJobs (Q : Job → Prop) (r : Reactor Job) : Prop where
  queue : ∀ command ∈ r.queue, ∀ job, command.job? = some job → Q job
  timers : ∀ timer ∈ r.timers, Q timer.job
  watched : ∀ entry ∈ r.watched, Q entry.2

namespace Reactor.AllJobs

variable {Q : Job → Prop} {r r' : Reactor Job}

theorem initial : (Reactor.initial : Reactor Job).AllJobs Q :=
  ⟨by simp [Reactor.initial], by simp [Reactor.initial], by simp [Reactor.initial]⟩

/-- A reactor takes only the job of the command that it is handed. -/
theorem call {command : Command Job} (h : r.AllJobs Q)
    (hc : ∀ job, command.job? = some job → Q job) (hr : r.call command = .ok r') :
    r'.AllJobs Q := by
  unfold Reactor.call at hr
  split at hr
  · cases hr
  · cases hr
    refine ⟨?_, h.timers, h.watched⟩
    intro command' hm
    rcases List.mem_append.1 hm with hm | hm
    · exact h.queue command' hm
    · rw [List.mem_singleton.1 hm]
      exact hc

theorem schedule {now seconds : Binary64} {job : Job} {timer : Timer Job} (h : r.AllJobs Q)
    (hj : Q job) (hr : r.schedule now seconds job = .ok (timer, r')) : r'.AllJobs Q := by
  unfold Reactor.schedule at hr
  dsimp only at hr
  cases hc : ({ r with created := r.created + 1 } : Reactor Job).call
      (.arm ⟨now + seconds, r.created, job⟩) with
  | error e =>
    rw [hc] at hr
    cases hr
  | ok r'' =>
    rw [hc] at hr
    cases hr
    refine call (r := { r with created := r.created + 1 }) ⟨h.queue, h.timers, h.watched⟩ ?_ hc
    rintro _ ⟨⟩
    exact hj

theorem cancel (h : r.AllJobs Q) (number : Nat) : (r.cancel number).AllJobs Q :=
  ⟨h.queue, h.timers, h.watched⟩

theorem stop (h : r.AllJobs Q) : r.stop.AllJobs Q := ⟨h.queue, h.timers, h.watched⟩

theorem poll (h : r.AllJobs Q) (now : Binary64) (isReadable : String → Bool) :
    (r.poll now isReadable).AllJobs Q := by
  unfold Reactor.poll
  split
  · split
    · exact ⟨h.queue, h.timers, h.watched⟩
    · split <;> exact ⟨h.queue, h.timers, h.watched⟩
  · exact h

/-- A socket that is registered brings its job, and leaves the jobs of the others. -/
theorem mem_register {watched : List (String × Job)} {socket : String} {job : Job}
    {entry : String × Job} (h : entry ∈ Reactor.register watched socket job) :
    entry.2 = job ∨ entry ∈ watched := by
  unfold Reactor.register at h
  split at h
  · obtain ⟨old, ho, rfl⟩ := List.mem_map.1 h
    split
    · exact Or.inl rfl
    · exact Or.inr ho
  · rcases List.mem_append.1 h with h | h
    · exact Or.inr h
    · rw [List.mem_singleton.1 h]
      exact Or.inl rfl

/-- **The loop runs only jobs that it was handed.** -/
theorem execute {command : Command Job} (h : r.AllJobs Q)
    (hc : ∀ job, command.job? = some job → Q job) :
    (r.execute command).1.AllJobs Q ∧ ∀ job, (r.execute command).2 = some job → Q job := by
  cases command with
  | run job =>
    refine ⟨h, ?_⟩
    rintro _ ⟨⟩
    exact hc job rfl
  | arm timer =>
    refine ⟨⟨h.queue, ?_, h.watched⟩, by rintro _ ⟨⟩⟩
    intro timer' hm
    have hperm := Heap.perm_push Timer.before r.timers timer
    rcases List.mem_cons.1 (hperm.mem_iff.1 hm) with rfl | hm
    · exact hc _ rfl
    · exact h.timers timer' hm
  | watch socket job =>
    refine ⟨⟨h.queue, h.timers, ?_⟩, by rintro _ ⟨⟩⟩
    intro entry hm
    rcases mem_register hm with he | hm
    · rw [he]
      exact hc job rfl
    · exact h.watched entry hm
  | unwatch socket =>
    refine ⟨⟨h.queue, h.timers, ?_⟩, by rintro _ ⟨⟩⟩
    intro entry hm
    exact h.watched entry (List.mem_filter.1 hm).1

theorem step? {now : Binary64} {next : Option Job} (h : r.AllJobs Q)
    (hr : r.step? now = some (r', next)) : r'.AllJobs Q ∧ ∀ job, next = some job → Q job := by
  unfold Reactor.step? at hr
  split at hr
  · cases hr
    exact ⟨⟨h.queue, h.timers, h.watched⟩, by rintro _ ⟨⟩⟩
  · cases hr
    refine ⟨⟨h.queue, h.timers, h.watched⟩, ?_⟩
    intro job hj
    obtain ⟨entry, he, rfl⟩ := Option.map_eq_some_iff.1 hj
    exact h.watched entry (List.mem_of_find?_eq_some he)
  · split at hr
    · cases hr
      exact ⟨⟨h.queue, h.timers, h.watched⟩, by rintro _ ⟨⟩⟩
    · rename_i command rest hq
      have hqueue : ∀ command' ∈ rest, ∀ job, command'.job? = some job → Q job :=
        fun command' hm => h.queue command' (by rw [hq]; exact List.mem_cons_of_mem command hm)
      have hcommand := h.queue command (by rw [hq]; exact List.mem_cons_self)
      have he := execute (r := { r with queue := rest }) ⟨hqueue, h.timers, h.watched⟩ hcommand
      rw [Option.some.inj hr] at he
      exact he
  · split at hr
    · cases hr
      exact ⟨⟨h.queue, h.timers, h.watched⟩, by rintro _ ⟨⟩⟩
    · rename_i timer rest ht
      have hperm := (Heap.perm_of_pop? ht).1
      split at hr
      · cases hr
        refine ⟨⟨h.queue, fun timer' hm => h.timers timer' ?_, h.watched⟩, ?_⟩
        · exact hperm.mem_iff.2 (List.mem_cons_of_mem timer hm)
        · intro job hj
          split at hj
          · cases hj
          · cases hj
            exact h.timers timer (hperm.mem_iff.2 List.mem_cons_self)
      · cases hr
        exact ⟨⟨h.queue, h.timers, h.watched⟩, by rintro _ ⟨⟩⟩
  · cases hr

end Reactor.AllJobs

end Jobs

/-! ## The outcomes in a state -/

/-- Every outcome on its way to a cycle satisfies `P`. -/
structure Client.Feeds (P : Outcome → Prop) (w : Client Handler) : Prop where
  invocations : ∀ v ∈ w.invocations, v.phase.Feeds P
  tasks : ∀ task ∈ w.tasks, task.phase.Feeds P
  reactor : w.reactor.AllJobs (Job.Feeds P)
  work : w.work.Feeds P

/-- Nothing is required of outcomes by the property that holds of all. -/
theorem Client.feeds_true (w : Client Handler) : w.Feeds fun _ => True := by
  have hdrive : ∀ drive : Drive, drive.Feeds fun _ => True := by
    intro drive
    unfold Drive.Feeds
    split <;> trivial
  have hjob : ∀ job : Job, job.Feeds fun _ => True := by
    intro job
    unfold Job.Feeds
    split <;> trivial
  refine ⟨?_, ?_, ⟨fun _ _ job _ => hjob job, fun timer _ => hjob timer.job,
    fun entry _ => hjob entry.2⟩, ?_⟩
  · intro v _
    unfold InvocationPhase.Feeds
    split
    · exact hdrive _
    · trivial
  · intro task _
    unfold TaskPhase.Feeds
    split
    · exact hdrive _
    · trivial
  · unfold Work.Feeds
    split <;> trivial

end Pubsub
