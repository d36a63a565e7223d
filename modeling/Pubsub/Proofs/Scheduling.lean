import Pubsub.Proofs.LoopHistories
import Pubsub.Proofs.Waiting

/-!
# The schedule of a reactor

What the loop of a reactor makes of all that it is handed is read off the log of a history, in three
accounts. The entries that were taken from the queue, and then those that are still in it, are the
entries that were accepted (`Accounts.queue`). The timers that were taken from the queue are those
that were fired or dropped and those that are waiting (`Accounts.timers`), each under a number of
its own. And while timers are fired none is added, so those that were waiting in the beginning leave
in the order of their deadlines and numbers (`Accounts.exists_waiting`).

Together they say that a loop keeps to the schedule (`keeps_schedule`).
-/

namespace Pubsub

namespace Reactor

variable {Job : Type} {r r' : Reactor Job} {now : Binary64} {next : Option Job}
  {s t u : Situation Job} {event : Event Job} {entry : LogEntry Job}
  {log before during after : List (LogEntry Job)}

/-! ## The accounts -/

section Logs

variable {log' : List (LogEntry Job)} {commands commands' : List (Command Job)}

theorem cancelledIn_append : cancelledIn (log ++ log') = cancelledIn log ++ cancelledIn log' :=
  List.filterMap_append

theorem armed_append : armed (commands ++ commands') = armed commands ++ armed commands' :=
  List.filterMap_append

end Logs

/-- The loop is in order: it fires the timers that were due at a time that has come, and it has
ended only if the reactor was told to stop. -/
def IsInOrder (r : Reactor Job) (now : Binary64) : Prop :=
  match r.phase with
  | .firing start => start.le now = true
  | .ended => r.stopped = true
  | _ => True

theorem IsInOrder.stopped_of_ended (h : r.IsInOrder now) (hp : r.phase = .ended) :
    r.stopped = true := by
  rw [IsInOrder, hp] at h
  exact h

/-- Time goes on, and a reactor may be told to stop. -/
theorem IsInOrder.mono {now' : Binary64} (h : r.IsInOrder now) (hle : now.le now' = true)
    (hp : r'.phase = r.phase) (hs : r.stopped = true → r'.stopped = true) :
    r'.IsInOrder now' := by
  unfold IsInOrder at h ⊢
  rw [hp]
  cases hphase : r.phase with
  | firing start =>
    rw [hphase] at h
    exact Binary64.le_trans h hle
  | ended =>
    rw [hphase] at h
    exact hs h
  | _ => trivial

/-- **The accounts of a reactor**: what the log says about where everything is that was handed to
it. -/
structure Accounts (log : List (LogEntry Job)) (s : Situation Job) : Prop where
  /-- What was accepted was taken in turn, or is still in the queue. -/
  queue : taken log ++ s.reactor.queue = accepted log
  /-- A timer that was taken from the queue was fired or dropped, or is waiting. -/
  timers : (armed (taken log)).Perm (removed log ++ s.reactor.timers)
  /-- Timers are numbered in the order of their creation. -/
  numbers : (armed (accepted log)).map (·.number) = List.range s.reactor.created
  deadlines : ∀ timer ∈ armed (accepted log), timer.deadline ≠ .nan
  /-- The timer that is to fire first is at the head of the heap. -/
  order : Heap.IsHeap Timer.before s.reactor.timers
  cancelled : ∀ n, n ∈ s.reactor.cancelled ↔ n ∈ cancelledIn log
  clock : s.now.isFinite = true
  phase : s.reactor.IsInOrder s.now
  /-- No exception has ended the loop. -/
  failed : ∀ e, s.reactor.phase = .failed e →
    e.isException = false ∧ ∃ entry ∈ log, entry.event = .returned (some e)

namespace Accounts

theorem initial (hf : now.isFinite = true) :
    Accounts [] (Situation.initial now : Situation Job) where
  queue := rfl
  timers := .refl _
  numbers := rfl
  deadlines := by rintro timer ⟨⟩
  order := Heap.IsHeap.nil
  cancelled _ := Iff.rfl
  clock := hf
  phase := trivial
  failed := by rintro e ⟨⟩

/-- Every timer that waits was accepted. -/
theorem mem_accepted (h : Accounts log s) {timer : Timer Job} (ht : timer ∈ s.reactor.timers) :
    timer ∈ armed (accepted log) := by
  rw [← h.queue, armed_append]
  exact List.mem_append_left _ (h.timers.mem_iff.2 (List.mem_append_right _ ht))

/-- No two timers have the same number, wherever they are. -/
theorem nodup_numbers (h : Accounts log s) :
    ((removed log ++ s.reactor.timers ++ armed s.reactor.queue).map (·.number)).Nodup := by
  have hperm : (armed (accepted log)).Perm
      (removed log ++ s.reactor.timers ++ armed s.reactor.queue) := by
    rw [← h.queue, armed_append]
    exact h.timers.append_right _
  rw [← (hperm.map _).nodup_iff, h.numbers]
  exact List.nodup_range

theorem deadline_ne_nan (h : Accounts log s) {timer : Timer Job}
    (ht : timer ∈ s.reactor.timers) : timer.deadline ≠ .nan :=
  h.deadlines timer (h.mem_accepted ht)

/-- No waiting timer is due before the one at the head of the heap. -/
theorem le_of_head? (h : Accounts log s) {first timer : Timer Job}
    (hfirst : s.reactor.timers.head? = some first) (ht : timer ∈ s.reactor.timers) :
    first.deadline.le timer.deadline = true :=
  Timer.le_of_head? h.order (fun _ => h.deadline_ne_nan) hfirst ht

/-- The timer that is taken from the heap comes before those that stay. -/
theorem before_of_pop? (h : Accounts log s) {first timer : Timer Job} {rest : List (Timer Job)}
    (hpop : Heap.pop? Timer.before s.reactor.timers = some (first, rest)) (ht : timer ∈ rest) :
    first.before timer = true := by
  have hperm := (Heap.perm_of_pop? hpop).1
  have hfirst := h.deadline_ne_nan (hperm.mem_iff.2 List.mem_cons_self)
  have hlater := h.deadline_ne_nan (hperm.mem_iff.2 (List.mem_cons_of_mem first ht))
  have hnumbers := h.nodup_numbers
  rw [List.append_assoc, List.map_append, List.map_append] at hnumbers
  have hwaiting := (List.nodup_append.1 (List.nodup_append.1 hnumbers).2.1).1
  rw [(hperm.map _).nodup_iff, List.map_cons] at hwaiting
  have hne : first.number ≠ timer.number := fun heq =>
    (List.nodup_cons.1 hwaiting).1 (heq ▸ List.mem_map_of_mem ht)
  exact Timer.before_of_not_before hfirst hlater hne
    (h.order.not_before_of_pop? Timer.orders (fun _ => h.deadline_ne_nan) hpop ht)

/-- What ended the loop is still in the log later. -/
theorem failed_append (h : Accounts log s) {e : Error} (he : s.reactor.phase = .failed e)
    (entry : LogEntry Job) :
    e.isException = false ∧ ∃ other ∈ log ++ [entry], other.event = .returned (some e) := by
  obtain ⟨hexception, other, hmem, hother⟩ := h.failed e he
  exact ⟨hexception, other, List.mem_append_left _ hmem, hother⟩

/-- What concerns neither the queue nor the timers leaves the accounts as they are. -/
theorem of_quiet (h : Accounts log s) (hc : event.cancelled? = none)
    (ha : event.accepted? = none) (ht : event.taken? = none) (hr : event.removed? = none)
    (hqueue : t.reactor.queue = s.reactor.queue) (htimers : t.reactor.timers = s.reactor.timers)
    (hcreated : t.reactor.created = s.reactor.created)
    (hcancelled : t.reactor.cancelled = s.reactor.cancelled) (hclock : t.now.isFinite = true)
    (hphase : t.reactor.IsInOrder t.now)
    (hfailed : ∀ e, t.reactor.phase = .failed e → s.reactor.phase = .failed e
      ∨ e.isException = false ∧ event = .returned (some e)) :
    Accounts (log ++ [⟨s.now, event⟩]) t := by
  have hac : accepted (log ++ [⟨s.now, event⟩]) = accepted log := by
    simp [accepted, ha]
  have hta : taken (log ++ [⟨s.now, event⟩]) = taken log := by simp [taken, ht]
  have hre : removed (log ++ [⟨s.now, event⟩]) = removed log := by
    simp [removed, hr]
  have hca : cancelledIn (log ++ [⟨s.now, event⟩]) = cancelledIn log := by
    simp [cancelledIn, hc]
  refine ⟨by rw [hac, hta, hqueue]; exact h.queue, by rw [hta, hre, htimers]; exact h.timers,
    by rw [hac, hcreated]; exact h.numbers, by rw [hac]; exact h.deadlines,
    by rw [htimers]; exact h.order, by rw [hcancelled, hca]; exact h.cancelled, hclock, hphase,
    fun e he => ?_⟩
  rcases hfailed e he with hold | ⟨hexception, rfl⟩
  · exact h.failed_append hold _
  · exact ⟨hexception, _, List.mem_append_right log List.mem_cons_self, rfl⟩

/-- Something is put into the queue. -/
theorem enqueue (h : Accounts log s) {command : Command Job} {n : Nat}
    (hc : event.cancelled? = none) (ha : event.accepted? = some command)
    (ht : event.taken? = none) (hr : event.removed? = none)
    (hn : (∀ timer, command ≠ .arm timer) ∧ n = s.reactor.created
      ∨ ∃ timer, command = .arm timer ∧ timer.deadline ≠ .nan
        ∧ timer.number = s.reactor.created ∧ n = s.reactor.created + 1) :
    Accounts (log ++ [⟨s.now, event⟩])
      { s with reactor := { s.reactor with
        created := n, queue := s.reactor.queue ++ [command], signalled := true } } := by
  have hac : accepted (log ++ [⟨s.now, event⟩]) = accepted log ++ [command] := by
    simp [accepted, ha]
  have hta : taken (log ++ [⟨s.now, event⟩]) = taken log := by simp [taken, ht]
  have hre : removed (log ++ [⟨s.now, event⟩]) = removed log := by simp [removed, hr]
  have hca : cancelledIn (log ++ [⟨s.now, event⟩]) = cancelledIn log := by simp [cancelledIn, hc]
  refine ⟨?_, ?_, ?_, ?_, h.order, by rw [hca]; exact h.cancelled, h.clock, h.phase,
    fun e he => h.failed_append he _⟩
  · rw [hac, hta, ← h.queue, List.append_assoc]
  · rw [hta, hre]
    exact h.timers
  · rw [hac, armed_append, List.map_append, h.numbers]
    obtain ⟨hother, rfl⟩ | ⟨timer, rfl, -, hnumber, rfl⟩ := hn
    · cases command with
      | arm timer => exact absurd rfl (hother timer)
      | _ => exact List.append_nil _
    · rw [List.range_succ, ← hnumber]
      rfl
  · intro other hother
    rw [hac, armed_append] at hother
    rcases List.mem_append.1 hother with hold | hnew
    · exact h.deadlines other hold
    · obtain ⟨hother, rfl⟩ | ⟨timer, rfl, hd, -⟩ := hn
      · cases command with
        | arm timer => exact absurd rfl (hother timer)
        | _ => cases hnew
      · rw [List.mem_singleton.1 hnew]
        exact hd

/-- The oldest entry of the queue is taken. -/
theorem take (h : Accounts log s) {command : Command Job} {rest : List (Command Job)}
    {next : Option Job} (hq : s.reactor.queue = command :: rest)
    (hp : s.reactor.phase = .draining) :
    Accounts (log ++ [⟨s.now, .did (.take command) next⟩])
      ⟨(({ s.reactor with queue := rest } : Reactor Job).execute command).1, s.now, next⟩ := by
  have hac : accepted (log ++ [⟨s.now, .did (.take command) next⟩]) = accepted log := by
    simp [accepted, Event.accepted?]
  have hta : taken (log ++ [⟨s.now, .did (.take command) next⟩]) = taken log ++ [command] := by
    simp [taken, Event.taken?]
  have hre : removed (log ++ [⟨s.now, .did (.take command) next⟩]) = removed log := by
    simp [removed, Event.removed?]
  have hca : cancelledIn (log ++ [⟨s.now, .did (.take command) next⟩]) = cancelledIn log := by
    simp [cancelledIn, Event.cancelled?]
  have hqueue : taken log ++ [command] ++ rest = accepted log := by
    rw [← h.queue, hq, List.append_assoc]
    rfl
  have hphase : ∀ timers watched, ({ s.reactor with queue := rest, timers, watched } :
      Reactor Job).IsInOrder s.now := by
    intro timers watched
    simp only [IsInOrder, hp]
  cases command with
  | arm timer =>
    have haccepted : timer ∈ armed (accepted log) := by
      rw [← h.queue, armed_append, hq]
      exact List.mem_append_right _ List.mem_cons_self
    refine ⟨by rw [hac, hta]; exact hqueue, ?_, by rw [hac]; exact h.numbers,
      by rw [hac]; exact h.deadlines, ?_, by rw [hca]; exact h.cancelled, h.clock, hphase _ _,
      fun e he => h.failed_append he _⟩
    · rw [hta, hre, armed_append]
      have hpush := (Heap.perm_push Timer.before s.reactor.timers timer).append_left (removed log)
      refine ((h.timers.append_right [timer]).trans ?_).trans hpush.symm
      rw [List.append_assoc]
      exact (List.perm_append_singleton timer _).append_left _
    · exact h.order.push Timer.orders (fun _ => h.deadline_ne_nan) (h.deadlines timer haccepted)
  | _ =>
    exact ⟨by rw [hac, hta]; exact hqueue,
      by rw [hta, hre, armed_append]; exact (List.append_nil _).symm ▸ h.timers,
      by rw [hac]; exact h.numbers, by rw [hac]; exact h.deadlines, h.order,
      by rw [hca]; exact h.cancelled, h.clock, hphase _ _, fun e he => h.failed_append he _⟩

/-- The first of the waiting timers is fired or dropped. -/
theorem remove (h : Accounts log s) {timer : Timer Job} {rest : List (Timer Job)}
    {deed : Deed Job} {next : Option Job} (hd : deed = .fire timer ∨ deed = .drop timer)
    (ht : Heap.pop? Timer.before s.reactor.timers = some (timer, rest)) :
    Accounts (log ++ [⟨s.now, .did deed next⟩])
      ⟨{ s.reactor with timers := rest }, s.now, next⟩ := by
  have hac : accepted (log ++ [⟨s.now, .did deed next⟩]) = accepted log := by
    simp [accepted, Event.accepted?]
  have hta : taken (log ++ [⟨s.now, .did deed next⟩]) = taken log := by
    rcases hd with rfl | rfl <;> simp [taken, Event.taken?]
  have hre : removed (log ++ [⟨s.now, .did deed next⟩]) = removed log ++ [timer] := by
    rcases hd with rfl | rfl <;> simp [removed, Event.removed?]
  have hca : cancelledIn (log ++ [⟨s.now, .did deed next⟩]) = cancelledIn log := by
    simp [cancelledIn, Event.cancelled?]
  refine ⟨by rw [hac, hta]; exact h.queue, ?_, by rw [hac]; exact h.numbers,
    by rw [hac]; exact h.deadlines, h.order.of_pop? Timer.orders (fun _ => h.deadline_ne_nan) ht,
    by rw [hca]; exact h.cancelled, h.clock, h.phase, fun e he => h.failed_append he _⟩
  rw [hta, hre, List.append_assoc, List.singleton_append]
  exact h.timers.trans ((Heap.perm_of_pop? ht).1.append_left _)

/-- A timer is cancelled. -/
theorem cancel (h : Accounts log s) (number : Nat) :
    Accounts (log ++ [⟨s.now, .cancelled number⟩])
      { s with reactor := s.reactor.cancel number } := by
  have hac : accepted (log ++ [⟨s.now, .cancelled number⟩]) = accepted log := by
    simp [accepted, Event.accepted?]
  have hta : taken (log ++ [⟨s.now, .cancelled number⟩]) = taken log := by
    simp [taken, Event.taken?]
  have hre : removed (log ++ [⟨s.now, .cancelled number⟩]) = removed log := by
    simp [removed, Event.removed?]
  have hca : cancelledIn (log ++ [⟨s.now, .cancelled number⟩]) = cancelledIn log ++ [number] := by
    simp [cancelledIn, Event.cancelled?]
  refine ⟨by rw [hac, hta]; exact h.queue, by rw [hta, hre]; exact h.timers,
    by rw [hac]; exact h.numbers, by rw [hac]; exact h.deadlines, h.order, fun n => ?_, h.clock,
    h.phase, fun e he => h.failed_append he _⟩
  rw [hca, List.mem_append, List.mem_singleton, ← h.cancelled n]
  exact List.mem_cons.trans or_comm

/-- A loop in order that polls goes on with the sockets it found, unless it was told to stop. -/
theorem phase_poll (h : Accounts log s) (hp : s.reactor.phase = .polling)
    (isReadable : String → Bool) :
    s.reactor.stopped = true ∧ s.reactor.poll s.now isReadable = { s.reactor with phase := .ended }
      ∨ s.reactor.stopped = false ∧ ∃ sockets, s.reactor.poll s.now isReadable
        = { s.reactor with signalled := false, phase := .reading sockets } := by
  obtain ⟨n, hn⟩ := exists_pollTime h.clock fun _ => h.deadline_ne_nan
  exact (poll_eq_of_pollTime hp hn isReadable).imp_right fun hfound => ⟨hfound.1, _, hfound.2⟩

/-- **Every move keeps the accounts.** -/
theorem of_moves (h : Accounts log s) (hm : Moves s event t) :
    Accounts (log ++ [⟨s.now, event⟩]) t := by
  cases hm with
  | call hc hcall =>
    unfold Reactor.call at hcall
    split at hcall
    · cases hcall
    · cases hcall
      exact h.enqueue rfl rfl rfl rfl (.inl ⟨hc, rfl⟩)
  | schedule hf hcall =>
    unfold Reactor.schedule Reactor.call at hcall
    dsimp only at hcall
    split at hcall
    · cases hcall
    · cases hcall
      refine h.enqueue rfl rfl rfl rfl (.inr ⟨_, rfl, ?_, rfl, rfl⟩)
      exact Binary64.add_ne_nan h.clock (Binary64.ne_nan_of_isFinite hf)
  | cancel number => exact h.cancel number
  | stop =>
    exact h.of_quiet rfl rfl rfl rfl rfl rfl rfl rfl h.clock
      (h.phase.mono (Binary64.le_refl (Binary64.ne_nan_of_isFinite h.clock)) rfl fun _ => rfl)
      fun _ => .inl
  | tick hle hf =>
    exact h.of_quiet rfl rfl rfl rfl rfl rfl rfl rfl hf (h.phase.mono hle rfl id) fun _ => .inl
  | poll isReadable hr hp =>
    obtain ⟨hstopped, heq⟩ | ⟨-, sockets, heq⟩ := h.phase_poll hp isReadable
    · rw [heq]
      exact h.of_quiet rfl rfl rfl rfl rfl rfl rfl rfl h.clock hstopped (by rintro e ⟨⟩)
    · rw [heq]
      exact h.of_quiet rfl rfl rfl rfl rfl rfl rfl rfl h.clock trivial (by rintro e ⟨⟩)
  | step hr hs =>
    obtain ⟨hdoes, -⟩ := does_of_step? hs
    generalize s.reactor.deed = deed at hdoes
    cases hdoes with
    | read hp hnext =>
      refine h.of_quiet rfl rfl rfl rfl rfl rfl rfl rfl h.clock ?_ ?_
      · rcases hnext with rfl | ⟨others, rfl⟩ <;> trivial
      · rcases hnext with rfl | ⟨others, rfl⟩ <;> rintro e ⟨⟩
    | take hp hq => exact h.take hq hp
    | turnTo hp hq =>
      exact h.of_quiet rfl rfl rfl rfl rfl rfl rfl rfl h.clock
        (Binary64.le_refl (Binary64.ne_nan_of_isFinite h.clock)) (by rintro e ⟨⟩)
    | fire hp ht hd hc => exact h.remove (.inl rfl) ht
    | drop hp ht hc => exact h.remove (.inr rfl) ht
    | finish hp hn =>
      exact h.of_quiet rfl rfl rfl rfl rfl rfl rfl rfl h.clock trivial (by rintro e ⟨⟩)
  | leave hr raised =>
    obtain hcaught | ⟨e, rfl, he⟩ := Error.isCaught_or raised
    · rw [leave_of_isCaught _ hcaught]
      exact h.of_quiet rfl rfl rfl rfl rfl rfl rfl rfl h.clock h.phase fun _ => .inl
    · rw [leave_of_not_isException _ he]
      refine h.of_quiet rfl rfl rfl rfl rfl rfl rfl rfl h.clock trivial ?_
      rintro _ ⟨⟩
      exact .inr ⟨he, rfl⟩

/-- **The accounts are right after any history.** -/
theorem of_history (h : Accounts before s) (hc : History s log t) : Accounts (before ++ log) t := by
  induction hc generalizing before with
  | nil s =>
    rw [List.append_nil]
    exact h
  | cons hm hc ih =>
    have hnext := ih (h.of_moves hm)
    rw [List.append_assoc] at hnext
    exact hnext

end Accounts

/-! ## A turn of the timers -/

/-- **What a move is**: it concerns neither the loop nor the waiting timers, or it is a poll, or a
job raises an error that ends the loop, or the loop does something. -/
theorem Moves.cases_loop (hm : Moves s event t) :
    event.removed? = none ∧ (∀ next, event ≠ .did .finish next)
        ∧ t.reactor.phase = s.reactor.phase ∧ t.reactor.timers = s.reactor.timers
      ∨ (event = .polled ∧ s.reactor.phase = .polling
        ∧ ∃ isReadable, t.reactor = s.reactor.poll s.now isReadable)
      ∨ (∃ e, event = .returned (some e) ∧ e.isException = false
        ∧ t.reactor = { s.reactor with phase := .failed e })
      ∨ ∃ deed, event = .did deed deed.job ∧ s.reactor.Does s.now deed t.reactor := by
  cases hm with
  | call hcommand hcall =>
    unfold Reactor.call at hcall
    split at hcall <;> cases hcall
    exact .inl ⟨rfl, by simp, rfl, rfl⟩
  | schedule hf hcall =>
    unfold Reactor.schedule Reactor.call at hcall
    dsimp only at hcall
    split at hcall <;> cases hcall
    exact .inl ⟨rfl, by simp, rfl, rfl⟩
  | cancel number => exact .inl ⟨rfl, by simp, rfl, rfl⟩
  | stop => exact .inl ⟨rfl, by simp, rfl, rfl⟩
  | tick hle hf => exact .inl ⟨rfl, by simp, rfl, rfl⟩
  | leave hr raised =>
    obtain hcaught | ⟨e, rfl, he⟩ := Error.isCaught_or raised
    · rw [leave_of_isCaught _ hcaught]
      exact .inl ⟨rfl, by simp, rfl, rfl⟩
    · exact .inr (.inr (.inl ⟨e, rfl, he, leave_of_not_isException _ he⟩))
  | poll isReadable hr hp => exact .inr (.inl ⟨rfl, hp, isReadable, rfl⟩)
  | step hr hs =>
    obtain ⟨hdoes, rfl⟩ := does_of_step? hs
    exact .inr (.inr (.inr ⟨_, rfl, hdoes⟩))

/-- What the loop does is logged with the job that is handed out for it. -/
theorem Moves.does {deed : Deed Job} (hm : Moves s (.did deed next) t) :
    next = deed.job ∧ s.reactor.Does s.now deed t.reactor := by
  cases hm with
  | step hr hs =>
    obtain ⟨hdoes, rfl⟩ := does_of_step? hs
    exact ⟨rfl, hdoes⟩

theorem removed_cons_of_none (h : entry.event.removed? = none) :
    removed (entry :: log) = removed log :=
  List.filterMap_cons_none h

theorem removed_cons_of_some {timer : Timer Job} (h : entry.event.removed? = some timer) :
    removed (entry :: log) = timer :: removed log :=
  List.filterMap_cons_some h

/-- What is fired is removed. -/
theorem sublist_fired (log : List (LogEntry Job)) : (fired log).Sublist (removed log) := by
  induction log with
  | nil => exact .slnil
  | cons entry rest ih =>
    obtain ⟨_, event⟩ := entry
    cases event with
    | did deed next =>
      cases deed with
      | fire timer => exact ih.cons_cons timer
      | drop timer => exact ih.cons timer
      | _ => exact ih
    | _ => exact ih

/-- What is removed was fired, unless it was dropped. -/
theorem exists_of_mem_removed {timer : Timer Job} (h : timer ∈ removed log) :
    timer ∈ fired log ∨ ∃ before after now next,
      log = before ++ ⟨now, .did (.drop timer) next⟩ :: after := by
  obtain ⟨⟨now, event⟩, hmem, hevent⟩ := List.mem_filterMap.1 h
  cases event with
  | did deed next =>
    cases deed with
    | fire other =>
      cases hevent
      exact .inl (List.mem_filterMap.2 ⟨_, hmem, rfl⟩)
    | drop other =>
      cases hevent
      obtain ⟨before, after, heq⟩ := List.append_of_mem hmem
      exact .inr ⟨before, after, now, next, heq⟩
    | _ => cases hevent
  | _ => cases hevent

/-- Until the loop turns to the timers, no timer is removed. -/
theorem History.removed_eq_nil (h : History s log t)
    (hp : ∀ start, s.reactor.phase ≠ .firing start)
    (hfree : ∀ entry ∈ log, entry.event.turnsToTimers = false) : removed log = [] := by
  induction h with
  | nil => rfl
  | @cons s t u event log hm hc ih =>
    obtain ⟨hfirst, hrest⟩ := List.forall_mem_cons.1 hfree
    suffices h : event.removed? = none ∧ ∀ start, t.reactor.phase ≠ .firing start by
      rw [removed_cons_of_none h.1]
      exact ih h.2 hrest
    obtain ⟨hevent, -, hphase, -⟩ | ⟨rfl, hpolling, isReadable, heq⟩ | ⟨e, rfl, -, hbroken⟩
      | ⟨deed, rfl, hdoes⟩ := hm.cases_loop
    · exact ⟨hevent, fun start => hphase ▸ hp start⟩
    · refine ⟨rfl, fun start => ?_⟩
      rw [heq]
      unfold poll
      simp only [hpolling]
      repeat' split
      all_goals simp
    · exact ⟨rfl, by simp [hbroken]⟩
    · generalize t.reactor = r' at hdoes
      cases hdoes with
      | read hread hnext => exact ⟨rfl, by rcases hnext with rfl | ⟨others, rfl⟩ <;> simp⟩
      | @take command rest hdraining hq =>
        refine ⟨rfl, fun start => ?_⟩
        cases command <;> simp [execute, hdraining]
      | turnTo hdraining hq => cases hfirst
      | fire hfiring => exact absurd hfiring (hp _)
      | drop hfiring => exact absurd hfiring (hp _)
      | finish hfiring => exact absurd hfiring (hp _)

/-- Did the loop find no timer due any more? -/
def Finishes (log : List (LogEntry Job)) : Prop :=
  ∃ entry ∈ log, ∃ next, entry.event = .did .finish next

theorem Finishes.of_cons (h : Finishes (entry :: log))
    (hentry : ∀ next, entry.event ≠ .did .finish next) : Finishes log := by
  obtain ⟨other, hmem, next, hother⟩ := h
  rcases List.mem_cons.1 hmem with rfl | hmem
  · exact absurd hother (hentry next)
  · exact ⟨other, hmem, next, hother⟩

/-- A loop that an error has ended does nothing any more. -/
theorem History.not_finishes_of_failed {e : Error} (h : History s log t)
    (hp : s.reactor.phase = .failed e) : ¬ Finishes log := by
  induction h generalizing e with
  | nil =>
    rintro ⟨entry, hmem, -⟩
    cases hmem
  | @cons s t u event log hm hc ih =>
    intro hfinishes
    obtain ⟨-, hfinish, hphase, -⟩ | ⟨-, hpolling, -⟩ | ⟨other, rfl, -, hbroken⟩
      | ⟨deed, -, hdoes⟩ := hm.cases_loop
    · exact ih (hphase.trans hp) (hfinishes.of_cons hfinish)
    · cases hp.symm.trans hpolling
    · exact ih (by rw [hbroken]) (hfinishes.of_cons (by simp))
    · generalize t.reactor = r' at hdoes
      cases hdoes with
      | read hq | take hq | turnTo hq | fire hq | drop hq | finish hq => cases hp.symm.trans hq

/-- **While timers are fired none is added.** Those that are waiting are removed in the order of
their deadlines and numbers, and when the turn is over then none of those that are left is due. -/
theorem Accounts.exists_waiting {start : Binary64} (ha : Accounts before s) (h : History s log t)
    (hp : s.reactor.phase = .firing start)
    (hfree : ∀ entry ∈ log, entry.event.turnsToTimers = false) :
    ∃ rest, s.reactor.timers.Perm (removed log ++ rest)
      ∧ (removed log).Pairwise (fun s t => s.before t = true)
      ∧ (Finishes log → ∀ timer ∈ rest, ¬ timer.deadline.le start = true) := by
  induction h generalizing before with
  | nil s =>
    exact ⟨s.reactor.timers, .refl _, .nil, by rintro ⟨entry, hmem, -⟩; cases hmem⟩
  | @cons s t u event log hm hc ih =>
    obtain ⟨hfirst, hrest⟩ := List.forall_mem_cons.1 hfree
    have hnext := ha.of_moves hm
    obtain ⟨hevent, hfinish, hphase, htimers⟩ | ⟨rfl, hpolling, -⟩ | ⟨e, rfl, -, hbroken⟩
      | ⟨deed, rfl, hdoes⟩ := hm.cases_loop
    · obtain ⟨rest, hwaiting, horder, hdue⟩ := ih hnext (hphase.trans hp) hrest
      rw [removed_cons_of_none hevent, ← htimers]
      exact ⟨rest, hwaiting, horder, fun h => hdue (h.of_cons hfinish)⟩
    · cases hp.symm.trans hpolling
    · -- The loop has ended, so no timer is removed any more.
      have hfailed : t.reactor.phase = .failed e := by rw [hbroken]
      have hnone := hc.removed_eq_nil (by simp [hfailed]) hrest
      rw [removed_cons_of_none rfl, hnone]
      refine ⟨s.reactor.timers, .refl _, .nil, fun h => ?_⟩
      exact absurd (h.of_cons (by simp)) (hc.not_finishes_of_failed hfailed)
    · -- The first of the waiting timers is taken away, and comes before all others.
      have hremove : ∀ {timer : Timer Job} {others : List (Timer Job)},
          deed = .fire timer ∨ deed = .drop timer →
          Heap.pop? Timer.before s.reactor.timers = some (timer, others) →
          t.reactor = { s.reactor with timers := others } →
          ∃ rest, s.reactor.timers.Perm (removed (⟨s.now, .did deed deed.job⟩ :: log) ++ rest)
            ∧ (removed (⟨s.now, .did deed deed.job⟩ :: log)).Pairwise
              (fun s t => s.before t = true)
            ∧ (Finishes (⟨s.now, .did deed deed.job⟩ :: log) →
              ∀ timer ∈ rest, ¬ timer.deadline.le start = true) := by
        intro timer others hdeed hpop hreactor
        obtain ⟨rest, hwaiting, horder, hdue⟩ := ih hnext (by rw [hreactor]; exact hp) hrest
        have hothers : others.Perm (removed log ++ rest) := by
          rw [hreactor] at hwaiting
          exact hwaiting
        have hevent : (Event.did deed deed.job).removed? = some timer := by
          rcases hdeed with rfl | rfl <;> rfl
        rw [removed_cons_of_some hevent]
        refine ⟨rest, (Heap.perm_of_pop? hpop).1.trans (hothers.cons timer), ?_,
          fun h => hdue (h.of_cons ?_)⟩
        · refine List.pairwise_cons.2 ⟨fun later hlater => ?_, horder⟩
          exact ha.before_of_pop? hpop (hothers.mem_iff.2 (List.mem_append_left rest hlater))
        · rcases hdeed with rfl | rfl <;> simp
      generalize hreactor : t.reactor = r' at hdoes
      cases hdoes with
      | read hq | take hq | turnTo hq => cases hp.symm.trans hq
      | fire hfiring ht => exact hremove (.inl rfl) ht hreactor
      | drop hfiring ht => exact hremove (.inr rfl) ht hreactor
      | finish hfiring hn =>
        cases hp.symm.trans hfiring
        have hnone := hc.removed_eq_nil (by rw [hreactor]; simp) hrest
        rw [removed_cons_of_none rfl, hnone]
        refine ⟨s.reactor.timers, .refl _, .nil, fun _ timer htimer hd => ?_⟩
        obtain ⟨first, hhead⟩ := Option.ne_none_iff_exists'.1
          (mt List.head?_eq_none_iff.1 (List.ne_nil_of_mem htimer))
        exact hn first hhead (Binary64.le_trans (ha.le_of_head? hhead htimer) hd)

/-! ## The schedule -/

/-- Is it a move of the loop? -/
def Event.IsOfLoop : Event Job → Prop
  | .polled => True
  | .did _ _ => True
  | _ => False

theorem Moves.of_scheduled {seconds : Binary64} {timer : Timer Job}
    (hm : Moves s (.scheduled seconds timer) t) :
    timer.deadline = s.now + seconds ∧ timer.number = s.reactor.created := by
  cases hm with
  | schedule hf hcall =>
    unfold Reactor.schedule Reactor.call at hcall
    dsimp only at hcall
    split at hcall <;> cases hcall
    exact ⟨rfl, rfl⟩

namespace Accounts

variable {timer : Timer Job}

/-- The loop turns to the timers when the queue is empty. -/
theorem of_turnTo (h : Accounts log s) {waiting : List (Timer Job)}
    (hm : Moves s (.did (.turnTo waiting) next) t) :
    taken log = accepted log ∧ waiting = s.reactor.timers ∧ t.reactor.timers = waiting
      ∧ t.reactor.phase = .firing s.now := by
  obtain ⟨-, hdoes⟩ := hm.does
  generalize t.reactor = r' at hdoes
  cases hdoes with
  | turnTo hp hq =>
    have hqueue := h.queue
    rw [hq, List.append_nil] at hqueue
    exact ⟨hqueue, rfl, rfl, rfl⟩

/-- A timer is fired when it is due and was not cancelled. -/
theorem of_fire (h : Accounts log s) (hm : Moves s (.did (.fire timer) next) t) :
    timer.deadline.le s.now = true ∧ timer.number ∉ cancelledIn log := by
  obtain ⟨-, hdoes⟩ := hm.does
  generalize t.reactor = r' at hdoes
  cases hdoes with
  | fire hp ht hd hc =>
    have hphase := h.phase
    unfold IsInOrder at hphase
    rw [hp] at hphase
    exact ⟨Binary64.le_trans hd hphase, fun hmem => hc ((h.cancelled _).2 hmem)⟩

/-- A timer is dropped when it was cancelled. -/
theorem of_drop (h : Accounts log s) (hm : Moves s (.did (.drop timer) next) t) :
    timer.number ∈ cancelledIn log := by
  obtain ⟨-, hdoes⟩ := hm.does
  generalize t.reactor = r' at hdoes
  cases hdoes with
  | drop hp ht hd hc => exact (h.cancelled _).1 hc

/-- **A turn fires what is due.** The timers that wait when the loop turns to them are fired in the
order of their deadlines and numbers, and when the loop is through then none is left that is due
and was not cancelled. -/
theorem of_turn (h : Accounts log s) {waiting : List (Timer Job)}
    (hm : Moves s (.did (.turnTo waiting) next) t) (hc : History t during u)
    (hfree : ∀ entry ∈ during, entry.event.turnsToTimers = false) :
    (fired during).Pairwise (fun s t => s.before t = true)
      ∧ (Finishes during → ∀ timer ∈ waiting, timer.deadline.le s.now = true →
        timer.number ∉ cancelledIn (log ++ ⟨s.now, .did (.turnTo waiting) next⟩ :: during) →
        timer ∈ fired during) := by
  obtain ⟨-, rfl, htimers, hphase⟩ := h.of_turnTo hm
  obtain ⟨rest, hwaiting, horder, hdue⟩ := (h.of_moves hm).exists_waiting hc hphase hfree
  rw [htimers] at hwaiting
  refine ⟨horder.sublist (sublist_fired during), fun hfinish timer htimer hd hn => ?_⟩
  rcases List.mem_append.1 (hwaiting.mem_iff.1 htimer) with hmem | hmem
  · rcases exists_of_mem_removed hmem with hfired | ⟨before, after, at_, next', rfl⟩
    · exact hfired
    · -- A timer that was dropped had been cancelled before.
      obtain ⟨m, m', hbefore, -, hdrop, -⟩ := hc.split
      have hcancelled := (h.of_moves hm).of_history hbefore |>.of_drop hdrop
      refine absurd ?_ hn
      rw [List.append_assoc, cancelledIn_append] at hcancelled
      rw [cancelledIn_append]
      rcases List.mem_append.1 hcancelled with hold | hnew
      · exact List.mem_append_left _ hold
      · refine List.mem_append_right _ ?_
        rw [← List.singleton_append, ← List.append_assoc, cancelledIn_append]
        exact List.mem_append_left _ hnew
  · exact absurd hd (hdue hfinish timer hmem)

/-- A loop in order is never stuck while no job is running. -/
theorem exists_move (h : Accounts log s) (hr : s.running = none)
    (hstopped : s.reactor.stopped = false) (hf : ∀ e, s.reactor.phase ≠ .failed e) :
    ∃ event t, Moves s event t ∧ event.IsOfLoop := by
  by_cases hp : s.reactor.phase = .polling
  · exact ⟨.polled, _, .poll (fun _ => false) hr hp, trivial⟩
  · obtain ⟨r', next, hs⟩ : ∃ r' next, s.reactor.step? s.now = some (r', next) :=
      exists_step? hp (fun he => Bool.eq_false_iff.1 hstopped (h.phase.stopped_of_ended he)) hf
    exact ⟨_, _, .step hr hs, trivial⟩

end Accounts

/-- **The loop keeps to the schedule**, as far as a log and what came of it show. -/
structure KeepsSchedule (log : List (LogEntry Job)) (s : Situation Job) : Prop where
  /-- Whenever the loop does something, the job that is run is the one that belongs to it. -/
  runs : ∀ before now deed next after, log = before ++ ⟨now, .did deed next⟩ :: after →
    next = deed.job
  /-- What was accepted is taken in that order, and nothing is taken twice. -/
  in_order : taken log ++ s.reactor.queue = accepted log
  /-- When the loop turns to the timers then everything that was accepted has been taken. -/
  empties : ∀ before now waiting next after,
    log = before ++ ⟨now, .did (.turnTo waiting) next⟩ :: after → taken before = accepted before
  /-- A timer has the deadline that was asked for, and its place in the order of creation. -/
  sets : ∀ before now seconds timer after,
    log = before ++ ⟨now, .scheduled seconds timer⟩ :: after →
    timer.deadline = now + seconds ∧ timer.number = (armed (accepted before)).length
  /-- Only timers that were set are fired. -/
  fires_set : ∀ timer ∈ fired log, timer ∈ armed (accepted log)
  /-- No timer is fired before its deadline. -/
  in_time : ∀ before now timer next after,
    log = before ++ ⟨now, .did (.fire timer) next⟩ :: after → timer.deadline.le now = true
  /-- No timer is fired twice. -/
  once : ((fired log).map (·.number)).Nodup
  /-- No timer is fired that was cancelled. -/
  uncancelled : ∀ before now timer next after,
    log = before ++ ⟨now, .did (.fire timer) next⟩ :: after → timer.number ∉ cancelledIn before
  /-- The timers that wait when the loop turns to them are those that were taken from the queue and
  neither fired nor dropped. Until it does so again they are fired in the order of their deadlines
  and numbers; and when it is through, each of them that was due was fired, unless it was
  cancelled. -/
  in_turn : ∀ before start waiting next during after,
    log = before ++ ⟨start, .did (.turnTo waiting) next⟩ :: (during ++ after) →
    (∀ entry ∈ during, entry.event.turnsToTimers = false) →
    (armed (taken before)).Perm (removed before ++ waiting)
      ∧ (fired during).Pairwise (fun s t => s.before t = true)
      ∧ (Finishes during → ∀ timer ∈ waiting, timer.deadline.le start = true →
        timer.number ∉ cancelledIn (before ++ ⟨start, .did (.turnTo waiting) next⟩ :: during) →
        timer ∈ fired during)
  /-- As long as the jobs raise no errors but exceptions, a job that comes to an end leaves
  everything as it is, and the loop goes on. -/
  goes_on : (∀ entry ∈ log, ∀ raised, entry.event = .returned raised → Error.IsCaught raised) →
    s.reactor.stopped = false → ∀ raised, Error.IsCaught raised →
    ∃ idle, (s.running = none ∧ idle = s ∨ Moves s (.returned raised) idle)
      ∧ idle.reactor = s.reactor ∧ ∃ event t, Moves idle event t ∧ event.IsOfLoop

/-- **Jobs run in the order in which they were handed over, and timers fire when they should**,
whatever is handed to a reactor, set and cancelled, by anyone and at any time, and whatever
exceptions the jobs raise. An error that is no exception would end the loop. -/
theorem keeps_schedule (hf : now.isFinite = true) (h : History (Situation.initial now) log s) :
    KeepsSchedule log s := by
  have haccounts : ∀ {log : List (LogEntry Job)} {s : Situation Job},
      History (Situation.initial now) log s → Accounts log s := fun h =>
    (Accounts.initial hf).of_history h
  have hend := haccounts h
  refine ⟨?_, hend.queue, ?_, ?_, ?_, ?_, ?_, ?_, ?_, ?_⟩
  · rintro before now deed next after rfl
    obtain ⟨m, m', -, -, hm, -⟩ := h.split
    exact hm.does.1
  · rintro before now waiting next after rfl
    obtain ⟨m, m', hbefore, -, hm, -⟩ := h.split
    exact ((haccounts hbefore).of_turnTo hm).1
  · rintro before now seconds timer after rfl
    obtain ⟨m, m', hbefore, rfl, hm, -⟩ := h.split
    have hnumbers := congrArg List.length (haccounts hbefore).numbers
    rw [List.length_map, List.length_range] at hnumbers
    rw [hnumbers]
    exact hm.of_scheduled
  · intro timer htimer
    have hremoved := (sublist_fired log).subset htimer
    have harmed := hend.timers.mem_iff.2 (List.mem_append_left _ hremoved)
    rw [← hend.queue, armed_append]
    exact List.mem_append_left _ harmed
  · rintro before now timer next after rfl
    obtain ⟨m, m', hbefore, rfl, hm, -⟩ := h.split
    exact ((haccounts hbefore).of_fire hm).1
  · have hnodup := hend.nodup_numbers
    rw [List.append_assoc, List.map_append] at hnodup
    exact ((sublist_fired log).map _).nodup (List.nodup_append.1 hnodup).1
  · rintro before now timer next after rfl
    obtain ⟨m, m', hbefore, -, hm, -⟩ := h.split
    exact ((haccounts hbefore).of_fire hm).2
  · rintro before start waiting next during after rfl hfree
    obtain ⟨m, m', hbefore, rfl, hm, hrest⟩ := h.split
    obtain ⟨m'', hduring, -⟩ := hrest.append_split
    have hthere := haccounts hbefore
    obtain ⟨-, rfl, -⟩ := hthere.of_turnTo hm
    exact ⟨hthere.timers, hthere.of_turn hm hduring hfree⟩
  · intro hcaught hstopped raised hraised
    have hf : ∀ e, s.reactor.phase ≠ .failed e := by
      intro e he
      obtain ⟨hexception, entry, hmem, hentry⟩ := hend.failed e he
      cases (hcaught entry hmem _ hentry e rfl).symm.trans hexception
    cases hr : s.running with
    | none => exact ⟨s, .inl ⟨rfl, rfl⟩, rfl, hend.exists_move hr hstopped hf⟩
    | some job =>
      have hm : Moves s (.returned raised) { s with running := none } := by
        have hleave := Moves.leave hr raised
        rwa [leave_of_isCaught _ hraised] at hleave
      exact ⟨_, .inr hm, rfl, (hend.of_moves hm).exists_move rfl hstopped hf⟩

/-- A step of the loop, given what it does. -/
theorem History.step {r r' : Reactor Job} {deed : Deed Job} (hd : r.deed = deed)
    (hs : r.step? now = some (r', next)) (hc : History ⟨r', now, next⟩ log s) :
    History ⟨r, now, none⟩ (⟨now, .did deed next⟩ :: log) s := by
  subst hd
  exact .cons (.step rfl hs) hc

/-- Two timers are set and a job is handed over; it raises an error, and later both timers are due
at once, of which the first to fire cancels the other. -/
theorem keeps_schedule_two_timers :
    ∃ (log : List (LogEntry String)) (s : Situation String), (0 : Binary64).isFinite = true
      ∧ History (Situation.initial 0) log s ∧ KeepsSchedule log s
      ∧ taken log = [.arm ⟨0 + 2, 0, "late"⟩, .arm ⟨0 + 1, 1, "early"⟩, .run "job"]
      ∧ fired log = [⟨0 + 1, 1, "early"⟩] ∧ Finishes log := by
  have hfinite : (0 : Binary64).isFinite = true ∧ (1 : Binary64).isFinite = true
      ∧ (2 : Binary64).isFinite = true ∧ (0 : Binary64).le 2 = true := by decide +kernel
  have hdue : (0 + 1 : Binary64).le 2 = true ∧ (0 + 2 : Binary64).le 2 = true
      ∧ Timer.before (⟨0 + 1, 1, "early"⟩ : Timer String) ⟨0 + 2, 0, "late"⟩ = true := by
    decide +kernel
  -- Nothing but these facts matters of the readings.
  generalize (0 : Binary64) = now, (1 : Binary64) = one, (2 : Binary64) = two at hfinite hdue ⊢
  obtain ⟨hnow, hone, htwo, htick⟩ := hfinite
  obtain ⟨hearly, hlate, hbefore⟩ := hdue
  have hpush : Heap.push Timer.before [⟨now + two, 0, "late"⟩]
      (⟨now + one, 1, "early"⟩ : Timer String)
      = [⟨now + one, 1, "early"⟩, ⟨now + two, 0, "late"⟩] := by
    simp [Heap.push, Heap.rise, Heap.parent, hbefore]
  have hpoll : poll (⟨false, true, [.arm ⟨now + two, 0, "late"⟩, .arm ⟨now + one, 1, "early"⟩,
      .run "job"], [], [], 2, [], .polling⟩ : Reactor String) now (fun _ => false)
      = ⟨false, false, [.arm ⟨now + two, 0, "late"⟩, .arm ⟨now + one, 1, "early"⟩, .run "job"],
        [], [], 2, [], .reading []⟩ := by
    obtain ⟨n, hn⟩ := exists_pollTime (r := (⟨false, true,
      [.arm ⟨now + two, 0, "late"⟩, .arm ⟨now + one, 1, "early"⟩, .run "job"], [], [], 2, [],
      .polling⟩ : Reactor String)) hnow (by simp)
    simp [poll, hn]
  have hhistory : History (Situation.initial now)
      [⟨now, .scheduled two ⟨now + two, 0, "late"⟩⟩, ⟨now, .scheduled one ⟨now + one, 1, "early"⟩⟩,
        ⟨now, .called (.run "job")⟩, ⟨now, .polled⟩, ⟨now, .did (.read none) none⟩,
        ⟨now, .did (.take (.arm ⟨now + two, 0, "late"⟩)) none⟩,
        ⟨now, .did (.take (.arm ⟨now + one, 1, "early"⟩)) none⟩,
        ⟨now, .did (.take (.run "job")) (some "job")⟩,
        ⟨now, .returned (some .closed)⟩, ⟨now, .ticked⟩,
        ⟨two, .did (.turnTo [⟨now + one, 1, "early"⟩, ⟨now + two, 0, "late"⟩]) none⟩,
        ⟨two, .did (.fire ⟨now + one, 1, "early"⟩) (some "early")⟩, ⟨two, .cancelled 0⟩,
        ⟨two, .returned none⟩, ⟨two, .did (.drop ⟨now + two, 0, "late"⟩) none⟩,
        ⟨two, .did .finish none⟩]
      ⟨⟨false, false, [], [], [0], 2, [], .polling⟩, two, none⟩ := by
    refine .cons (.schedule htwo rfl) (.cons (.schedule hone rfl) ?_)
    change History ⟨⟨false, true, [.arm ⟨now + two, 0, "late"⟩, .arm ⟨now + one, 1, "early"⟩],
      [], [], 2, [], .polling⟩, now, none⟩ _ _
    refine .cons (.call (by simp) rfl) (.cons (.poll (fun _ => false) rfl rfl) ?_)
    change History ⟨poll ⟨false, true, [.arm ⟨now + two, 0, "late"⟩, .arm ⟨now + one, 1, "early"⟩,
        .run "job"], [], [], 2, [], .polling⟩ now fun _ => false, now, none⟩ _ _
    rw [hpoll]
    refine .step rfl rfl (.step rfl rfl (.step rfl rfl (.step rfl rfl ?_)))
    refine .cons (.leave rfl _) (.cons (.tick htick htwo) ?_)
    change History ⟨⟨false, false, [], Heap.push Timer.before [⟨now + two, 0, "late"⟩]
      ⟨now + one, 1, "early"⟩, [], 2, [], .draining⟩, two, none⟩ _ _
    rw [hpush]
    have hfire : step? ⟨false, false, [], [⟨now + one, 1, "early"⟩, ⟨now + two, 0, "late"⟩], [], 2,
        [], .firing two⟩ two = some (⟨false, false, [], [⟨now + two, 0, "late"⟩], [], 2, [],
        .firing two⟩, some "early") := by
      simp [step?, Heap.pop?, Heap.sink, Heap.rise, hearly, isCancelled]
    refine .step rfl rfl (.step ?_ hfire ?_)
    · simp [deed, Heap.pop?, Heap.sink, Heap.rise, hearly, isCancelled]
    refine .cons (.cancel 0) (.cons (.leave rfl _) ?_)
    have hdrop : step? ⟨false, false, [], [⟨now + two, 0, "late"⟩], [0], 2, [], .firing two⟩ two
        = some (⟨false, false, [], [], [0], 2, [], .firing two⟩, none) := by
      simp [step?, Heap.pop?, hlate, isCancelled]
    refine .step (by simp [deed, leave, cancel, Heap.pop?, hlate, isCancelled]) hdrop ?_
    exact .step rfl rfl (.nil _)
  exact ⟨_, _, hnow, hhistory, keeps_schedule hnow hhistory, rfl, rfl, ⟨two, .did .finish none⟩,
    by simp, none, rfl⟩

end Reactor

end Pubsub
