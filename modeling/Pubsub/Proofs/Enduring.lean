import Pubsub.Proofs.Completion
import Pubsub.Proofs.Scheduling
import Pubsub.Proofs.Soundness

/-!
# A loop that does not fail

The timeout of a call may be any double, and it reaches the reactor as it is: the timer of an
attempt is set for the sum of the time and the timeout. While the sums are numbers, infinite ones
among them, the loop can always say how long to poll, the first of its timers is at the head of the
heap, and so it comes upon every timer that is due (`Reactor.IsSteady`, `Reactor.Faces`). Whatever
calls are in progress, the loop then never ends by an error (`Client.endures`), unless a callback
raises one that is no exception.

A timeout that is no number slips through the bounds of the time of a poll, because it is neither
less nor more than they are. The loop then fails for all calls, and their timers never fire
(`Client.LoopHasFailed.not_firesIn`).
-/

namespace Pubsub

namespace Reactor

variable {r r' : Reactor Job} {now now' : Binary64} {timer : Timer Job} {deed : Deed Job}

/-! ## What waits for the loop -/

/-- What leaves the reactor by what its loop does. -/
def Deed.left : Deed Job → List (Command Job)
  | .take (.arm _) => []
  | .take command => [command]
  | .fire timer => [.arm timer]
  | .drop timer => [.arm timer]
  | _ => []

/-- **Nothing gets lost**: what waits leaves by what the loop does, or goes on waiting. -/
theorem Does.perm_waiting (h : r.Does now deed r') : r.waiting.Perm (deed.left ++ r'.waiting) := by
  cases h with
  | read => exact .refl _
  | @take command rest hp hq =>
    have hwaiting : r.waiting = command :: (rest ++ r.timers.map .arm) := by
      unfold waiting
      rw [hq, List.cons_append]
    rw [hwaiting]
    cases command with
    | arm timer =>
      refine List.perm_middle.symm.trans (List.Perm.append_left rest ?_)
      exact ((Heap.perm_push Timer.before r.timers timer).map Command.arm).symm
    | _ => exact .refl _
  | turnTo => exact .refl _
  | fire hp ht | drop hp ht =>
    have hperm := (Heap.perm_of_pop? ht).1.map Command.arm
    exact (List.Perm.append_left r.queue hperm).trans List.perm_middle
  | finish => exact .refl _

/-- A timer waits until it is fired, or dropped because it was cancelled. -/
theorem Does.waits (h : r.Does now deed r') (hm : .arm timer ∈ r.waiting) :
    deed = .fire timer ∨ timer.number ∈ r.cancelled ∨ .arm timer ∈ r'.waiting := by
  rcases List.mem_append.1 (h.perm_waiting.mem_iff.1 hm) with hleft | hstays
  · cases h with
    | take =>
      rename_i command _ _ _
      cases command <;> simp [Deed.left] at hleft
    | fire =>
      obtain ⟨rfl⟩ := List.mem_singleton.1 hleft
      exact .inl rfl
    | drop _ _ _ hc =>
      obtain ⟨rfl⟩ := List.mem_singleton.1 hleft
      exact .inr (.inl hc)
    | _ => cases hleft
  · exact .inr (.inr hstays)

/-! ## Steady loops -/

/-- **A steady loop**: it has not failed, and whatever waits for it can be compared. -/
structure IsSteady (r : Reactor Job) (now : Binary64) : Prop where
  clock : now.isFinite = true
  phase : r.IsInOrder now
  alive : ∀ e, r.phase ≠ .failed e
  deadlines : ∀ timer, .arm timer ∈ r.waiting → timer.deadline ≠ .nan
  order : Heap.IsHeap Timer.before r.timers

namespace IsSteady

theorem initial (hf : now.isFinite = true) : (Reactor.initial : Reactor Job).IsSteady now :=
  ⟨hf, trivial, by rintro e ⟨⟩, by rintro timer ⟨⟩, Heap.IsHeap.nil⟩

theorem ne_nan_of_mem_timers (h : r.IsSteady now) (ht : timer ∈ r.timers) :
    timer.deadline ≠ .nan :=
  h.deadlines timer (List.mem_append_right _ (List.mem_map_of_mem ht))

/-- What other threads do to a reactor leaves its loop alone. They may put anything into the queue
but a timer without a deadline. -/
theorem of_outside (h : r.IsSteady now) (hle : now.le now' = true) (hf : now'.isFinite = true)
    (hphase : r'.phase = r.phase) (hstopped : r.stopped = true → r'.stopped = true)
    (htimers : r'.timers = r.timers)
    (hqueue : ∀ command ∈ r'.queue, command ∈ r.queue
      ∨ ∀ timer, command = .arm timer → timer.deadline ≠ .nan) : r'.IsSteady now' := by
  refine ⟨hf, h.phase.mono hle hphase hstopped, fun e => hphase ▸ h.alive e,
    fun timer htimer => ?_, htimers ▸ h.order⟩
  rcases List.mem_append.1 htimer with hm | hm
  · rcases hqueue _ hm with hold | hnew
    · exact h.deadlines timer (List.mem_append_left _ hold)
    · exact hnew timer rfl
  · rw [htimers] at hm
    exact h.deadlines timer (List.mem_append_right _ hm)

/-- **A steady loop can say how long to poll**: for at most a second. -/
theorem exists_pollTime (h : r.IsSteady now) :
    ∃ n, r.pollTime now = .ok n ∧ 0 ≤ n ∧ n ≤ 1000 := by
  rcases r.pollTime_spec h.clock with ⟨-, hn⟩ | ⟨⟨timer, ht, hnan⟩, -⟩
  · exact hn
  · exact absurd hnan (h.ne_nan_of_mem_timers (List.mem_of_mem_head? ht))

/-- A poll is over without having found a socket, unless the reactor was told to stop. -/
theorem poll_eq (h : r.IsSteady now) (hp : r.phase = .polling) :
    r.stopped = true ∧ (r.poll now fun _ => false) = { r with phase := .ended }
      ∨ (r.poll now fun _ => false) = { r with signalled := false, phase := .reading [] } := by
  obtain ⟨n, hn, -⟩ := h.exists_pollTime
  refine (poll_eq_of_pollTime hp hn fun _ => false).imp_right fun hfound => ?_
  rw [hfound.2, List.filter_false]

theorem poll (h : r.IsSteady now) (hp : r.phase = .polling) :
    (r.poll now fun _ => false).IsSteady now := by
  obtain ⟨hs, heq⟩ | heq := h.poll_eq hp
  · rw [heq]
    exact ⟨h.clock, hs, by rintro e ⟨⟩, h.deadlines, h.order⟩
  · rw [heq]
    exact ⟨h.clock, trivial, by rintro e ⟨⟩, h.deadlines, h.order⟩

/-- What the loop does leaves it steady. -/
theorem does (h : r.IsSteady now) (hd : r.Does now deed r') : r'.IsSteady now := by
  have hdeadlines : ∀ timer, .arm timer ∈ r'.waiting → timer.deadline ≠ .nan := fun timer hm =>
    h.deadlines timer (hd.perm_waiting.mem_iff.2 (List.mem_append_right _ hm))
  have hordered : ∀ {timer : Timer Job} {rest : List (Timer Job)},
      Heap.pop? Timer.before r.timers = some (timer, rest) → Heap.IsHeap Timer.before rest :=
    h.order.of_pop? Timer.orders fun _ => h.ne_nan_of_mem_timers
  cases hd with
  | read hp hnext =>
    refine ⟨h.clock, ?_, ?_, hdeadlines, h.order⟩
    · rcases hnext with rfl | ⟨others, rfl⟩ <;> trivial
    · rcases hnext with rfl | ⟨others, rfl⟩ <;> rintro e ⟨⟩
  | @take command rest hp hq =>
    have hphase := h.phase
    rw [IsInOrder, hp] at hphase
    cases command with
    | arm timer =>
      refine ⟨h.clock, ?_, h.alive, hdeadlines, ?_⟩
      · simp only [execute, IsInOrder, hp]
      · refine h.order.push Timer.orders (fun _ => h.ne_nan_of_mem_timers) (h.deadlines timer ?_)
        exact List.mem_append_left _ (hq ▸ List.mem_cons_self)
    | _ => exact ⟨h.clock, by simp only [execute, IsInOrder, hp], h.alive, hdeadlines, h.order⟩
  | turnTo =>
    exact ⟨h.clock, Binary64.le_refl (Binary64.ne_nan_of_isFinite h.clock), by rintro e ⟨⟩,
      hdeadlines, h.order⟩
  | fire _ ht | drop _ ht => exact ⟨h.clock, h.phase, h.alive, hdeadlines, hordered ht⟩
  | finish => exact ⟨h.clock, trivial, by rintro e ⟨⟩, hdeadlines, h.order⟩

end IsSteady

/-! ## Timers that are due -/

/-- **The loop comes upon the timer before it polls again**, if the timer is due by the time at
which the loop turns to the timers. -/
structure Faces (r : Reactor Job) (timer : Timer Job) : Prop where
  waits : .arm timer ∈ r.waiting
  phase : r.phase ≠ .polling
  firing : ∀ start, r.phase = .firing start → timer ∈ r.timers ∧ timer.deadline.le start = true

/-- What the loop does brings it closer to a timer that is due. -/
theorem Faces.does (h : r.Faces timer) (hs : r.IsSteady now) (hdue : timer.deadline.le now = true)
    (hd : r.Does now deed r') :
    deed = .fire timer ∨ timer.number ∈ r.cancelled ∨ r'.Faces timer := by
  rcases hd.waits h.waits with hfired | hcancelled | hwaits
  · exact .inl hfired
  · exact .inr (.inl hcancelled)
  · -- While timers are fired, the due ones that are left are still among them.
    have hleft : ∀ {start : Binary64} {first : Timer Job} {rest : List (Timer Job)},
        r.phase = .firing start → Heap.pop? Timer.before r.timers = some (first, rest) →
        timer = first ∨ ({ r with timers := rest } : Reactor Job).Faces timer := by
      intro start first rest hp ht
      obtain ⟨hmem, hstart⟩ := h.firing start hp
      rw [(Heap.perm_of_pop? ht).1.mem_iff] at hmem
      refine (List.mem_cons.1 hmem).imp id fun hrest => ?_
      refine ⟨List.mem_append_right _ (List.mem_map_of_mem hrest), h.phase, fun start' hp' => ?_⟩
      obtain rfl := LoopPhase.firing.inj (hp.symm.trans hp')
      exact ⟨hrest, hstart⟩
    cases hd with
    | read hp hnext =>
      refine .inr (.inr ⟨hwaits, ?_, fun start hp' => ?_⟩)
      · rcases hnext with rfl | ⟨others, rfl⟩ <;> rintro ⟨⟩
      · rcases hnext with rfl | ⟨others, rfl⟩ <;> cases hp'
    | @take command rest hp hq =>
      have hphase : (({ r with queue := rest } : Reactor Job).execute command).1.phase
          = .draining := by
        cases command <;> exact hp
      refine .inr (.inr ⟨hwaits, ?_, fun start hp' => ?_⟩)
      · rw [hphase]
        rintro ⟨⟩
      · rw [hphase] at hp'
        cases hp'
    | turnTo hp hq =>
      refine .inr (.inr ⟨hwaits, by rintro ⟨⟩, ?_⟩)
      rintro start ⟨⟩
      have hm := h.waits
      rw [waiting, hq, List.nil_append] at hm
      obtain ⟨other, hmem, heq⟩ := List.mem_map.1 hm
      obtain rfl := Command.arm.inj heq
      exact ⟨hmem, hdue⟩
    | fire hp ht =>
      rcases hleft hp ht with rfl | hfaces
      · exact .inl rfl
      · exact .inr (.inr hfaces)
    | drop hp ht hd hc =>
      rcases hleft hp ht with rfl | hfaces
      · exact .inr (.inl hc)
      · exact .inr (.inr hfaces)
    | @finish start hp hn =>
      -- The first timer is due no later than this one.
      obtain ⟨hmem, hstart⟩ := h.firing start hp
      obtain ⟨first, hhead⟩ := Option.ne_none_iff_exists'.1
        (mt List.head?_eq_none_iff.1 (List.ne_nil_of_mem hmem))
      have hle := Timer.le_of_head? hs.order (fun _ => hs.ne_nan_of_mem_timers) hhead hmem
      exact absurd (Binary64.le_trans hle hstart) (hn first hhead)

end Reactor

/-- The error that ended the loop. -/
def LoopPhase.error? : LoopPhase → Option Error
  | .failed e => some e
  | _ => none

theorem LoopPhase.eq_failed_of_error? {phase : LoopPhase} {e : Error} (h : phase.error? = some e) :
    phase = .failed e := by
  cases phase <;> cases h
  rfl

/-! ## Actions -/

/-- The clock shows a number, and a callback on the reactor raises no error but exceptions. -/
def Action.IsTame {Handler : Type} : Action Handler → Prop
  | .tick now => now.isFinite = true
  | .returnReactor raised => Error.IsCaught raised
  | _ => True

/-- Does the reactor poll? -/
def Action.isPoll {Handler : Type} : Action Handler → Bool
  | .pollReactor => true
  | _ => false

namespace Client

variable {Handler : Type} {w w' : Client Handler} {action : Action Handler}
  {actions : List (Action Handler)} {reactor : Reactor Job} {work : Work} {clock : Binary64}
  {timer : Timer Job}

/-- The timeout of every call is a number, perhaps an infinite one. -/
def HasTimeouts (w : Client Handler) : Prop := ∀ call ∈ w.calls, call.request.timeout ≠ .nan

/-- Calls keep their timeouts. -/
theorem HasTimeouts.of_run? (h : w'.HasTimeouts) (hr : w.run? actions = some w') :
    w.HasTimeouts := by
  intro call hcall
  obtain ⟨c, hc⟩ := List.mem_iff_getElem?.1 hcall
  obtain ⟨call', hc', hsame⟩ := exists_same_of_run? hr hc
  rw [← hsame.request]
  exact h call' (List.mem_of_getElem? hc')

/-- The timer fires in the course of the run: the loop takes it, and begins its job. -/
def FiresIn (w : Client Handler) (actions : List (Action Handler)) (timer : Timer Job) : Prop :=
  ∃ u reactor, u.work = .none ∧ u.reactor.deed = .fire timer
    ∧ w.Occurs actions u .stepReactor (({ u with reactor } : Client Handler).beginJob timer.job)

/-- **What a tame action is to the loop**: it leaves the loop alone, or it is a poll, or the loop
does something. -/
theorem Stirs.cases_loop (h : w.Stirs action reactor work clock) (hk : action.IsTame) :
    reactor.timers = w.reactor.timers ∧ reactor.phase = w.reactor.phase
        ∧ reactor.cancelled = w.reactor.cancelled ∧ w.reactor.queue ⊆ reactor.queue
      ∨ (w.reactor.phase = .polling ∧ reactor = w.reactor.poll w.clock fun _ => false)
      ∨ (action = .stepReactor ∧ w.work = .none
        ∧ ∃ next cancelled, w.reactor.Does w.clock w.reactor.deed next
          ∧ next.cancelled = w.reactor.cancelled
          ∧ reactor = { next with cancelled := cancelled ++ next.cancelled }) := by
  cases h with
  | aside => exact .inl ⟨rfl, rfl, rfl, List.Subset.refl _⟩
  | ticked => exact .inl ⟨rfl, rfl, rfl, List.Subset.refl _⟩
  | handed _ hcall =>
    obtain ⟨-, rfl⟩ := Reactor.call_eq_ok hcall
    exact .inl ⟨rfl, rfl, rfl, List.subset_append_left _ _⟩
  | stopped => exact .inl ⟨rfl, rfl, rfl, List.Subset.refl _⟩
  | polled _ hp => exact .inr (.inl ⟨hp, rfl⟩)
  | turned hw hstep cancelled _ =>
    exact .inr (.inr ⟨rfl, hw, _, cancelled, (Reactor.does_of_step? hstep).1,
      Reactor.cancelled_of_step? hstep, rfl⟩)
  | worked => exact .inl ⟨rfl, rfl, rfl, List.Subset.refl _⟩
  | broke _ he => cases (hk _ rfl).symm.trans he
  | armed _ _ _ hschedule _ =>
    obtain ⟨-, -, rfl⟩ := Reactor.schedule_eq_ok hschedule
    exact .inl ⟨rfl, rfl, rfl, List.subset_append_left _ _⟩

theorem Stirs.le_clock (h : w.Stirs action reactor work clock) (hf : w.clock.isFinite = true) :
    w.clock.le clock = true := by
  cases h with
  | ticked hle => exact hle
  | _ => exact Binary64.le_refl (Binary64.ne_nan_of_isFinite hf)

/-! ## Steady clients -/

/-- **The reactor is steady**, and the thread of it sets no timer without a deadline for a retry. -/
structure IsSteady (w : Client Handler) : Prop where
  reactor : w.reactor.IsSteady w.clock
  pause : ∀ c seconds, w.work = .pausing c seconds → seconds ≠ .nan

/-- What a timer is set for is a number, if the timeouts of calls are. -/
theorem Sets.ne_nan {seconds : Binary64} (hs : w.Sets seconds) (h : w.IsSteady)
    (hcalls : w.HasTimeouts) : seconds ≠ .nan := by
  cases hs with
  | pause hw => exact h.pause _ _ hw
  | alarm _ hc => exact hcalls _ hc

/-- **Every tame action leaves a reactor steady**, if timeouts are numbers. -/
theorem IsSteady.stirs (h : w.IsSteady) (hcalls : w.HasTimeouts) (hk : action.IsTame)
    (hs : w.Stirs action reactor work clock) :
    reactor.IsSteady clock ∧ ∀ c seconds, work = .pausing c seconds → seconds ≠ .nan := by
  have hclock := h.reactor.clock
  have hnow := Binary64.le_refl (Binary64.ne_nan_of_isFinite hclock)
  have hold : ∀ command ∈ w.reactor.queue, command ∈ w.reactor.queue
      ∨ ∀ timer, command = .arm timer → timer.deadline ≠ .nan := fun _ hm => .inl hm
  cases hs with
  | aside => exact ⟨h.reactor, h.pause⟩
  | ticked hle => exact ⟨h.reactor.of_outside hle hk rfl id rfl hold, h.pause⟩
  | handed _ hcall =>
    obtain ⟨-, rfl⟩ := Reactor.call_eq_ok hcall
    refine ⟨h.reactor.of_outside hnow hclock rfl id rfl fun command hm => ?_, h.pause⟩
    refine (List.mem_append.1 hm).imp id fun hnew => ?_
    rw [List.mem_singleton.1 hnew]
    rintro timer ⟨⟩
  | stopped =>
    exact ⟨h.reactor.of_outside hnow hclock rfl (fun _ => rfl) rfl hold, h.pause⟩
  | polled _ hp => exact ⟨h.reactor.poll hp, by rintro c seconds ⟨⟩⟩
  | turned _ hstep cancelled hp =>
    have hturned := h.reactor.does (Reactor.does_of_step? hstep).1
    refine ⟨?_, fun c seconds hwork => absurd hwork (hp c seconds)⟩
    exact ⟨hturned.clock, hturned.phase, hturned.alive, hturned.deadlines, hturned.order⟩
  | worked _ _ hp =>
    exact ⟨h.reactor, fun c seconds hwork => (Binary64.lt_iff.1 (hp c seconds hwork)).2.1⟩
  | broke _ he => cases (hk _ rfl).symm.trans he
  | armed _ hsets _ hschedule hp =>
    obtain ⟨-, htimer, rfl⟩ := Reactor.schedule_eq_ok hschedule
    refine ⟨h.reactor.of_outside hnow hclock rfl id rfl fun command hm => ?_,
      fun c seconds hwork => absurd hwork (hp c seconds)⟩
    refine (List.mem_append.1 hm).imp id fun hnew => ?_
    rw [List.mem_singleton.1 hnew, htimer]
    rintro _ ⟨⟩
    exact Binary64.add_ne_nan hclock (hsets.ne_nan h hcalls)

/-- **The reactor is steady in every state** that runs lead to, if timeouts are numbers. -/
theorem ReachableBy.isSteady (hw : ReachableBy Action.IsTame w) (hcalls : w.HasTimeouts) :
    w.IsSteady := by
  induction hw with
  | initial config fresh frontend =>
    have hzero : (0 : Binary64).isFinite = true := Binary64.isFinite_ofNat (by decide)
    exact ⟨Reactor.IsSteady.initial hzero, by rintro c seconds ⟨⟩⟩
  | act action _ hk ha ih =>
    have hbefore := hcalls.of_run? ((run?_singleton _ action).trans ha)
    obtain ⟨hreactor, hpause⟩ := (ih hbefore).stirs hbefore hk (stirs_act? ha)
    exact ⟨hreactor, hpause⟩

/-- The thread of a reactor can go on as long as its loop has neither failed nor ended. -/
theorem exists_act? (hf : ∀ e, w.reactor.phase ≠ .failed e) :
    w.reactor.phase = .ended
      ∨ ∃ action ∈ [Action.stepReactor, .pollReactor, .returnReactor none],
        (w.act? action).isSome = true := by
  by_cases he : w.reactor.phase = .ended
  · exact .inl he
  · refine .inr ?_
    cases hwork : w.work with
    | none =>
      by_cases hp : w.reactor.phase = .polling
      · refine ⟨.pollReactor, by simp, ?_⟩
        simp [act?, pollReactor?, hwork, hp]
      · obtain ⟨reactor, next, hs⟩ : ∃ r' next, w.reactor.step? w.clock = some (r', next) :=
          Reactor.exists_step? hp he hf
        refine ⟨.stepReactor, by simp, ?_⟩
        cases next <;> simp [act?, stepReactor?, hwork, hs]
    | calling c =>
      refine ⟨.returnReactor none, by simp, ?_⟩
      simp [act?, returnReactor?, hwork, Reactor.leave]
    | _ => exact ⟨.stepReactor, by simp, by simp [act?, stepReactor?, hwork]⟩

/-! ## Runs -/

/-- A cancelled timer stays cancelled. -/
theorem cancelled_of_run? {n : Nat} (hk : ∀ action ∈ actions, action.IsTame)
    (hr : w.run? actions = some w') (hn : n ∈ w.reactor.cancelled) :
    n ∈ w'.reactor.cancelled := by
  induction actions generalizing w with
  | nil =>
    cases hr
    exact hn
  | cons action rest ih =>
    obtain ⟨hkfirst, hkrest⟩ := List.forall_mem_cons.1 hk
    rw [run?_cons] at hr
    obtain ⟨v, ha, hr⟩ := Option.bind_eq_some_iff.1 hr
    refine ih hkrest hr ?_
    rcases (stirs_act? ha).cases_loop hkfirst with
      ⟨-, -, hsame, -⟩ | ⟨-, hpoll⟩ | ⟨-, -, _, _, -, hsame, hnext⟩
    · rw [hsame]
      exact hn
    · obtain ⟨_, _, heq⟩ := w.reactor.exists_poll_eq w.clock fun _ => false
      rw [hpoll, heq]
      exact hn
    · rw [hnext]
      exact List.mem_append_right _ (hsame ▸ hn)

theorem FiresIn.later {v : Client Handler} (h : v.FiresIn actions timer)
    (ha : w.act? action = some v) : w.FiresIn (action :: actions) timer := by
  obtain ⟨u, reactor, hu, hd, ho⟩ := h
  exact ⟨u, reactor, hu, hd, .later ha ho⟩

/-- What the loop is about to do, its next step does. -/
theorem firesIn_of_deed (hw : w.work = .none) (hd : w.reactor.deed = .fire timer)
    (ha : w.act? .stepReactor = some w') : w.FiresIn (.stepReactor :: actions) timer := by
  have hstep := ha
  unfold act? stepReactor? at hstep
  simp only [hw] at hstep
  split at hstep
  · rename_i reactor job hs
    cases hstep
    have hjob := (Reactor.does_of_step? hs).2
    rw [hd] at hjob
    cases hjob
    have hsame : ({ w with reactor, work := .none } : Client Handler) = { w with reactor } := by
      rw [← hw]
    rw [hsame] at ha
    exact ⟨w, reactor, hw, hd, .now ha⟩
  · rename_i reactor hs
    have hjob := (Reactor.does_of_step? hs).2
    rw [hd] at hjob
    cases hjob
  · cases hstep

/-- A timer waits until it is fired or cancelled. -/
theorem waits_act? (h : .arm timer ∈ w.reactor.waiting) (hk : action.IsTame)
    (ha : w.act? action = some w') :
    (∀ rest, w.FiresIn (action :: rest) timer) ∨ timer.number ∈ w'.reactor.cancelled
      ∨ .arm timer ∈ w'.reactor.waiting := by
  rcases (stirs_act? ha).cases_loop hk with
    ⟨htimers, -, -, hqueue⟩ | ⟨-, hpoll⟩ | ⟨rfl, hw, next, cancelled, hdoes, hsame, hnext⟩
  · refine .inr (.inr ?_)
    unfold Reactor.waiting
    rw [htimers]
    exact (List.mem_append.1 h).elim (fun hm => List.mem_append_left _ (hqueue hm))
      (List.mem_append_right _)
  · obtain ⟨_, _, heq⟩ := w.reactor.exists_poll_eq w.clock fun _ => false
    rw [hpoll, heq]
    exact .inr (.inr h)
  · rcases hdoes.waits h with hfires | hcancelled | hwaits
    · exact .inl fun rest => firesIn_of_deed hw hfires ha
    · rw [hnext]
      exact .inr (.inl (List.mem_append_right _ (hsame ▸ hcancelled)))
    · rw [hnext]
      exact .inr (.inr hwaits)

/-- A poll is made at the head of the loop, and the loop faces every timer afterwards. -/
theorem faces_of_poll (h : w.IsSteady) (ha : w.act? .pollReactor = some w') :
    w.reactor.phase = .polling
      ∧ ∀ timer, .arm timer ∈ w'.reactor.waiting → w'.reactor.Faces timer := by
  unfold act? pollReactor? at ha
  dsimp only at ha
  split at ha <;> cases ha
  rename_i hp
  refine ⟨hp, fun timer hm => ?_⟩
  dsimp only at hm ⊢
  obtain ⟨-, heq⟩ | heq := h.reactor.poll_eq hp
  · rw [heq] at hm ⊢
    exact ⟨hm, by rintro ⟨⟩, by rintro start ⟨⟩⟩
  · rw [heq] at hm ⊢
    exact ⟨hm, by rintro ⟨⟩, by rintro start ⟨⟩⟩

/-- The loop does not poll before it has come upon a timer that it faces. -/
theorem faces_act? (h : w.IsSteady) (hf : w.reactor.Faces timer)
    (hdue : timer.deadline.le w.clock = true) (hk : action.IsTame)
    (ha : w.act? action = some w') :
    (∀ rest, w.FiresIn (action :: rest) timer) ∨ timer.number ∈ w'.reactor.cancelled
      ∨ w'.reactor.Faces timer ∧ action.isPoll = false := by
  have hpoll : action.isPoll = false := by
    cases action with
    | pollReactor => exact absurd (faces_of_poll h ha).1 hf.phase
    | _ => rfl
  rcases (stirs_act? ha).cases_loop hk with
    ⟨htimers, hphase, -, -⟩ | ⟨hp, -⟩ | ⟨rfl, hw, next, cancelled, hdoes, hsame, hnext⟩
  · rcases waits_act? hf.waits hk ha with hfires | hcancelled | hwaits
    · exact .inl hfires
    · exact .inr (.inl hcancelled)
    · refine .inr (.inr ⟨⟨hwaits, ?_, ?_⟩, hpoll⟩)
      · rw [hphase]
        exact hf.phase
      · rw [hphase, htimers]
        exact hf.firing
  · exact absurd hp hf.phase
  · rcases hf.does h.reactor hdue hdoes with hfires | hcancelled | hfaces
    · exact .inl fun rest => firesIn_of_deed hw hfires ha
    · rw [hnext]
      exact .inr (.inl (List.mem_append_right _ (hsame ▸ hcancelled)))
    · rw [hnext]
      exact .inr (.inr ⟨⟨hfaces.waits, hfaces.phase, hfaces.firing⟩, hpoll⟩)

/-- **A timer that is faced leaves the reactor before the next poll.** -/
theorem faces_run? (hw : ReachableBy Action.IsTame w)
    (hk : ∀ action ∈ actions, action.IsTame) (hr : w.run? actions = some w')
    (hcalls : w'.HasTimeouts) (hf : w.reactor.Faces timer)
    (hdue : timer.deadline.le w.clock = true) :
    w.FiresIn actions timer ∨ timer.number ∈ w'.reactor.cancelled
      ∨ .arm timer ∈ w'.reactor.waiting ∧ actions.countP Action.isPoll = 0 := by
  induction actions generalizing w with
  | nil =>
    cases hr
    exact .inr (.inr ⟨hf.waits, rfl⟩)
  | cons action rest ih =>
    have hsteady := hw.isSteady (hcalls.of_run? hr)
    obtain ⟨hkfirst, hkrest⟩ := List.forall_mem_cons.1 hk
    rw [run?_cons] at hr
    obtain ⟨v, ha, hr⟩ := Option.bind_eq_some_iff.1 hr
    rcases faces_act? hsteady hf hdue hkfirst ha with hfires | hcancelled | ⟨hfaces, hpoll⟩
    · exact .inl (hfires rest)
    · exact .inr (.inl (cancelled_of_run? hkrest hr hcancelled))
    · have hlater := Binary64.le_trans hdue ((stirs_act? ha).le_clock hsteady.reactor.clock)
      rcases ih (hw.act action hkfirst ha) hkrest hr hfaces hlater with hfires | hrest
      · exact .inl (hfires.later ha)
      · rw [List.countP_cons_of_neg (Bool.eq_false_iff.1 hpoll)]
        exact .inr hrest

/-- **A timer that waits and is due leaves the reactor before the second poll.** -/
theorem waits_run? (hw : ReachableBy Action.IsTame w)
    (hk : ∀ action ∈ actions, action.IsTame) (hr : w.run? actions = some w')
    (hcalls : w'.HasTimeouts) (hm : .arm timer ∈ w.reactor.waiting) :
    w.FiresIn actions timer ∨ timer.number ∈ w'.reactor.cancelled
      ∨ .arm timer ∈ w'.reactor.waiting
        ∧ (timer.deadline.le w.clock = true → actions.countP Action.isPoll ≤ 1) := by
  induction actions generalizing w with
  | nil =>
    cases hr
    exact .inr (.inr ⟨hm, fun _ => Nat.zero_le 1⟩)
  | cons action rest ih =>
    have hsteady := hw.isSteady (hcalls.of_run? hr)
    obtain ⟨hkfirst, hkrest⟩ := List.forall_mem_cons.1 hk
    rw [run?_cons] at hr
    obtain ⟨v, ha, hr⟩ := Option.bind_eq_some_iff.1 hr
    have hv := hw.act action hkfirst ha
    have hclock := (stirs_act? ha).le_clock hsteady.reactor.clock
    rcases waits_act? hm hkfirst ha with hfires | hcancelled | hwaits
    · exact .inl (hfires rest)
    · exact .inr (.inl (cancelled_of_run? hkrest hr hcancelled))
    · rcases ih hv hkrest hr hwaits with hfires | hcancelled | ⟨hstays, hpolls⟩
      · exact .inl (hfires.later ha)
      · exact .inr (.inl hcancelled)
      · by_cases hpoll : action.isPoll = true ∧ timer.deadline.le w.clock = true
        · -- From this poll on the loop faces the timer.
          obtain ⟨hpoll, hdue⟩ := hpoll
          have hfaces : v.reactor.Faces timer := by
            cases action with
            | pollReactor => exact (faces_of_poll hsteady ha).2 timer hwaits
            | _ => cases hpoll
          rcases faces_run? hv hkrest hr hcalls hfaces (Binary64.le_trans hdue hclock) with
            hfires | hcancelled | ⟨-, hnone⟩
          · exact .inl (hfires.later ha)
          · exact .inr (.inl hcancelled)
          · refine .inr (.inr ⟨hstays, fun _ => ?_⟩)
            rw [List.countP_cons_of_pos hpoll, hnone]
        · refine .inr (.inr ⟨hstays, fun hdue => ?_⟩)
          rw [List.countP_cons_of_neg fun hp => hpoll ⟨hp, hdue⟩]
          exact hpolls (Binary64.le_trans hdue hclock)

/-- An attempt for a call is given a timer for the timeout of the call. -/
theorem exists_timer_of_arming {c : Nat} {call : Call Handler} (hw : w.work = .arming c)
    (hc : w.calls[c]? = some call) (ha : w.act? .stepReactor = some w') :
    w.reactor.stopped = true
      ∨ ∃ timer, .arm timer ∈ w'.reactor.waiting
        ∧ timer.deadline = w.clock + call.request.timeout
        ∧ timer.job = .expire w.attempts.length := by
  have hstep : w' = w.armCall c := by
    simp only [act?, stepReactor?, hw] at ha
    exact (Option.some.inj ha).symm
  rw [hstep, armCall, hc]
  dsimp only
  split
  · rename_i e hrefused
    exact .inl (Reactor.stopped_of_schedule_eq_error hrefused)
  · rename_i timer reactor hschedule
    obtain ⟨-, htimer, rfl⟩ := Reactor.schedule_eq_ok hschedule
    refine .inr ⟨timer, ?_, by rw [htimer], by rw [htimer]⟩
    exact List.mem_append_left _ (List.mem_append_right _ List.mem_cons_self)

/-- **No call stops the reactor, as long as timeouts are numbers** and callbacks raise no errors but
exceptions. Whatever calls are in progress, with whatever finite or infinite timeouts, and whatever
happens to them: the loop never fails; it polls for a whole number of milliseconds, at most a
thousand; and it can go on, unless it ended because it was told to stop. The timer of an attempt is
set for the timeout of its call, unless the reactor was told to stop. A timer that was set waits
until it is fired or cancelled, and once its deadline has passed the loop does not poll twice before
that. -/
theorem endures (hw : ReachableBy Action.IsTame w) (hcalls : w.HasTimeouts) :
    (∀ e, w.reactor.phase ≠ .failed e)
    ∧ (∃ n, w.reactor.pollTime w.clock = .ok n ∧ 0 ≤ n ∧ n ≤ 1000)
    ∧ (w.reactor.phase = .ended ∧ w.reactor.stopped = true
      ∨ ∃ action ∈ [Action.stepReactor, .pollReactor, .returnReactor none],
        (w.act? action).isSome = true)
    ∧ (∀ c call w', w.work = .arming c → w.calls[c]? = some call →
      w.act? .stepReactor = some w' →
      w.reactor.stopped = true
        ∨ ∃ timer, .arm timer ∈ w'.reactor.waiting
          ∧ timer.deadline = w.clock + call.request.timeout
          ∧ timer.job = .expire w.attempts.length)
    ∧ ∀ timer, .arm timer ∈ w.reactor.waiting → ∀ actions w',
      (∀ action ∈ actions, action.IsTame) → w.run? actions = some w' → w'.HasTimeouts →
      w.FiresIn actions timer ∨ timer.number ∈ w'.reactor.cancelled
        ∨ .arm timer ∈ w'.reactor.waiting
          ∧ (timer.deadline.le w.clock = true → actions.countP Action.isPoll ≤ 1) := by
  have hsteady := hw.isSteady hcalls
  have hf := hsteady.reactor.alive
  refine ⟨hf, hsteady.reactor.exists_pollTime, ?_, fun c call w' => exists_timer_of_arming, ?_⟩
  · refine (exists_act? hf).imp_left fun he => ⟨he, ?_⟩
    exact hsteady.reactor.phase.stopped_of_ended he
  · intro timer hm actions w' hk hr hcalls'
    exact waits_run? hw hk hr hcalls' hm

/-- Two requests are on their way, one of them with an infinite timeout, and the time of the other
is over. -/
def twoTimeouts : List (Action Unit) :=
  [.openSession ⟨.null, .null, .null, .str "u", false⟩ "u",
    .openSession ⟨.null, .null, .null, .str "v", false⟩ "v",
    .ask 0 .time (.float (.infinity false)) none, .ask 1 .time (.int 1) none,
    .stepInvocation 0, .stepInvocation 0, .stepInvocation 0, .stepInvocation 1, .stepInvocation 1,
    .stepInvocation 1, .pollReactor, .stepReactor, .stepReactor, .stepReactor, .stepReactor,
    .stepReactor, .stepReactor, .stepReactor, .stepReactor, .stepReactor, .stepReactor,
    .stepReactor, .stepReactor, .stepReactor, .tick 2]

/-- The loop goes round once. -/
def oneRound : List (Action Unit) :=
  [.pollReactor, .stepReactor, .stepReactor, .stepReactor, .stepReactor, .stepReactor, .stepReactor,
    .pollReactor]

/-- The timer of the second request fires, whatever the first one waits for. -/
theorem endures_twoTimeouts :
    ∃ (w w' : Client Unit) (timer : Timer Job),
      ReachableBy Action.IsTame w ∧ w.HasTimeouts
      ∧ w.calls.map (·.request.timeout.isFinite) = [false, true]
      ∧ (∃ n, w.reactor.pollTime w.clock = .ok n ∧ 0 ≤ n ∧ n ≤ 1000)
      ∧ .arm timer ∈ w.reactor.waiting ∧ timer.deadline.le w.clock = true
      ∧ w.run? oneRound = some w' ∧ w'.HasTimeouts ∧ w.FiresIn oneRound timer := by
  have hfacts : (onReactor.run? twoTimeouts).any (fun w =>
      w.calls.map (·.request.timeout.isFinite) == [false, true]
      && w.reactor.timers.head?.any (fun timer => timer.deadline.le w.clock)
      && (w.run? oneRound).any fun w' => w'.reactor.cancelled.isEmpty
        && w'.calls.all fun call => call.request.timeout.le call.request.timeout) = true := by
    decide +kernel
  have htwo : (2 : Binary64).isFinite = true := Binary64.isFinite_ofNat (by decide)
  have hkeeps : ∀ action ∈ oneRound, action.IsTame := by simp [oneRound, Action.IsTame]
  obtain ⟨w, hrun, hfacts⟩ := (Option.any_eq_true _ _).1 hfacts
  simp only [Option.any_eq_true, Bool.and_eq_true, beq_iff_eq, List.isEmpty_iff,
    List.all_eq_true] at hfacts
  obtain ⟨⟨htimeouts, timer, ht, hdue⟩, w', hround, hcancelled, hnumbers⟩ := hfacts
  have hw : ReachableBy Action.IsTame w :=
    ReachableBy.run (.initial _ _ _) (by simp [twoTimeouts, Action.IsTame, htwo]) hrun
  have hcalls' : w'.HasTimeouts := fun call hcall =>
    (Binary64.le_iff.1 (hnumbers call hcall)).1
  have hcalls := hcalls'.of_run? hround
  have hm := Reactor.Awaits.mem_waiting_of_mem_timers (List.mem_of_mem_head? ht)
  obtain ⟨-, hpoll, -, -, hfires⟩ := endures hw hcalls
  refine ⟨w, w', timer, hw, hcalls, htimeouts, hpoll, hm, hdue, hround, hcalls', ?_⟩
  rcases hfires timer hm oneRound w' hkeeps hround hcalls' with hfired | hmem | ⟨-, hpolls⟩
  · exact hfired
  · rw [hcancelled] at hmem
    cases hmem
  · exact absurd (hpolls hdue) (by decide)

/-! ## Timeouts that are no numbers -/

/-- Did the loop end by an error? Its thread does nothing any more. -/
def LoopHasFailed (w : Client Handler) (e : Error) : Prop :=
  w.reactor.phase = .failed e ∧ w.work = .none

/-- Nothing gets a loop that has failed to go on. -/
theorem LoopHasFailed.act? {e : Error} (h : w.LoopHasFailed e) (ha : w.act? action = some w') :
    w'.LoopHasFailed e := by
  obtain ⟨hp, hw⟩ := h
  have hstirs := stirs_act? ha
  unfold LoopHasFailed
  generalize w'.reactor = reactor, w'.work = work, w'.clock = clock at hstirs ⊢
  cases hstirs with
  | aside => exact ⟨hp, hw⟩
  | ticked => exact ⟨hp, hw⟩
  | handed _ hcall =>
    obtain ⟨-, rfl⟩ := Reactor.call_eq_ok hcall
    exact ⟨hp, hw⟩
  | stopped => exact ⟨hp, hw⟩
  | polled _ hpolling =>
    rw [hp] at hpolling
    cases hpolling
  | turned _ hstep =>
    rw [Reactor.step?, hp] at hstep
    cases hstep
  | worked _ hbusy => exact absurd hw hbusy
  | broke hbusy => cases hw.symm.trans hbusy
  | armed _ hsets =>
    cases hsets with
    | pause hbusy =>
      rw [hw] at hbusy
      cases hbusy
    | alarm hbusy =>
      rw [hw] at hbusy
      cases hbusy

/-- **A loop that has failed fires no timer any more.** -/
theorem LoopHasFailed.not_firesIn {e : Error} (h : w.LoopHasFailed e) :
    ¬ w.FiresIn actions timer := by
  have hkept : ∀ {w u u' : Client Handler} {action : Action Handler}
      {actions : List (Action Handler)}, w.Occurs actions u action u' → w.LoopHasFailed e →
      u.LoopHasFailed e := by
    intro w u u' action actions ho
    induction ho with
    | now => exact id
    | later ha _ ih => exact fun h => ih (h.act? ha)
  rintro ⟨u, reactor, -, hd, ho⟩
  have hp := (hkept ho h).1
  simp [Reactor.deed, hp] at hd

/-- A client of a reactor, configured with a timeout that is no number. -/
def unbounded : Client Unit :=
  initial (Configuration.initial ⟨[("PNCLIENT_TIMEOUT", "nan")]⟩ none) []
    (Frontend.borrowing .reactor)

/-- Two requests are on their way, one of them with the configured timeout, and the time of the
other is over when the loop polls. -/
def oneTimeout : List (Action Unit) :=
  [.openSession ⟨.null, .null, .null, .str "u", false⟩ "u",
    .openSession ⟨.null, .null, .null, .str "v", false⟩ "v",
    .ask 0 .time .null none, .ask 1 .time (.int 1) none,
    .stepInvocation 0, .stepInvocation 0, .stepInvocation 0, .stepInvocation 1, .stepInvocation 1,
    .stepInvocation 1, .pollReactor, .stepReactor, .stepReactor, .stepReactor, .stepReactor,
    .stepReactor, .stepReactor, .stepReactor, .stepReactor, .stepReactor, .stepReactor,
    .stepReactor, .stepReactor, .stepReactor, .tick 2, .pollReactor]

/-- **A timeout that is no number stops the reactor.** The loop cannot say how long to poll and ends
by an error, and the timer of the other request never fires. -/
theorem fails_oneTimeout :
    ∃ (w : Client Unit) (timer : Timer Job), ReachableBy Action.IsTame w
      ∧ w.reactor.pollTime w.clock = .error .integerOfNan ∧ (∃ e, w.reactor.phase = .failed e)
      ∧ .arm timer ∈ w.reactor.waiting ∧ timer.deadline.isFinite = true
      ∧ timer.deadline.le w.clock = true ∧ timer.number ∉ w.reactor.cancelled
      ∧ ∀ actions, ¬ w.FiresIn actions timer := by
  have hfacts : (unbounded.run? oneTimeout).any (fun w =>
      w.reactor.phase.error?.isSome && w.reactor.cancelled.isEmpty && w.clock.isFinite
      && w.reactor.timers.head?.any (fun timer => !timer.deadline.le timer.deadline)
      && w.reactor.timers.getLast?.any fun timer =>
        timer.deadline.isFinite && timer.deadline.le w.clock) = true := by
    decide +kernel
  have htwo : (2 : Binary64).isFinite = true := Binary64.isFinite_ofNat (by decide)
  obtain ⟨w, hrun, hfacts⟩ := (Option.any_eq_true _ _).1 hfacts
  simp only [Option.any_eq_true, Bool.and_eq_true, Bool.not_eq_true', Option.isSome_iff_exists,
    List.isEmpty_iff] at hfacts
  obtain ⟨⟨⟨⟨⟨e, hfailed⟩, hcancelled⟩, hclock⟩, first, hfirst, hnan⟩, timer, ht, hfinite, hdue⟩ :=
    hfacts
  have hw : ReachableBy Action.IsTame w :=
    ReachableBy.run (.initial _ _ _) (by simp [oneTimeout, Action.IsTame, htwo]) hrun
  have hphase := LoopPhase.eq_failed_of_error? hfailed
  have hidle := (ReachableBy.reachable hw).isSound_relay.2.failed e hphase
  have hm := Reactor.Awaits.mem_waiting_of_mem_timers (List.mem_of_getLast? ht)
  refine ⟨w, timer, hw, ?_, ⟨e, hphase⟩, hm, hfinite, hdue, ?_, fun actions => ?_⟩
  · rcases w.reactor.pollTime_spec hclock with ⟨hnumbers, -⟩ | ⟨-, herror⟩
    · exact absurd (Binary64.le_refl (hnumbers first hfirst)) (Bool.eq_false_iff.1 hnan)
    · exact herror
  · rw [hcancelled]
    exact List.not_mem_nil
  · exact LoopHasFailed.not_firesIn ⟨hphase, hidle⟩

end Client

end Pubsub
