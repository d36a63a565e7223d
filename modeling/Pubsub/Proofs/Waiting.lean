import Mathlib.Algebra.Order.Group.Multiset
import Pubsub.Client.Dispatch
import Pubsub.Proofs.LoopHistories

/-!
# What waits in a reactor

A reactor that works for one call at a time holds little that matters: the job that goes on with the
call, or the alarm of an attempt that is on its way. Everything else in its queue and among its
timers are alarms of attempts that are settled, and they come to nothing. `Reactor.Awaits` says
which entries are still **open**, beside invariants of the loop. The turns of the loop leave that
alone until one of the open entries is run (`Awaits.of_step?`), and an open entry whose time has
come is run after finitely many of them (`Awaits.exists_comesTo`).
-/

namespace Pubsub

/-! ## Open entries -/

/-- Can something still come of the entry? Nothing comes of the alarm of a settled attempt. -/
def Command.isOpen (attempts : List Attempt) : Command Job → Bool
  | .arm timer =>
    match timer.job with
    | .expire a => !(attempts[a]?).any (·.settled)
    | _ => true
  | _ => true

/-- The loop goes on, and no socket is to be read. Timers are fired for a time that has come. -/
def LoopPhase.Serves (now : Binary64) : LoopPhase → Prop
  | .polling => True
  | .reading sockets => sockets = []
  | .draining => True
  | .firing start => start.le now = true
  | .ended => False
  | .failed _ => False

namespace Reactor

/-- Everything that waits in the reactor, in its queue or for its time. -/
def waiting (r : Reactor Job) : List (Command Job) := r.queue ++ r.timers.map .arm

/-- **These are the open entries of a reactor**, and its loop is in order. -/
structure Awaits (r : Reactor Job) (attempts : List Attempt) (now : Binary64)
    (items : Multiset (Command Job)) : Prop where
  running : r.stopped = false
  phase : r.phase.Serves now
  now : now.isFinite = true
  items : ↑(r.waiting.filter (Command.isOpen attempts)) = items
  /-- Nobody asks for sockets to be watched. -/
  queue : ∀ command ∈ r.queue, (∃ job, command = .run job) ∨ ∃ timer, command = .arm timer
  timers : ∀ timer, .arm timer ∈ r.waiting → timer.deadline ≠ .nan ∧ timer.number < r.created
  order : Heap.IsHeap Timer.before r.timers
  cancelled : ∀ n ∈ r.cancelled, n < r.created

namespace Awaits

variable {r r' : Reactor Job} {attempts attempts' : List Attempt} {now now' : Binary64}
  {items rest : Multiset (Command Job)}

theorem mem_waiting_of_mem_timers {timer : Timer Job} (h : timer ∈ r.timers) :
    .arm timer ∈ r.waiting :=
  List.mem_append_right _ (List.mem_map_of_mem h)

/-- A new reactor has nothing to do. -/
theorem initial (attempts : List Attempt) (hnow : now.isFinite = true) :
    (Reactor.initial : Reactor Job).Awaits attempts now 0 :=
  ⟨rfl, trivial, hnow, rfl, by rintro command ⟨⟩, by rintro timer ⟨⟩, Heap.IsHeap.nil,
    by rintro n ⟨⟩⟩

/-- The clock goes on. -/
theorem tick (h : r.Awaits attempts now items) (hle : now.le now' = true)
    (hnow : now'.isFinite = true) : r.Awaits attempts now' items := by
  refine ⟨h.running, ?_, hnow, h.items, h.queue, h.timers, h.order, h.cancelled⟩
  have hp := h.phase
  cases hphase : r.phase with
  | firing start =>
    rw [hphase] at hp
    exact Binary64.le_trans hp hle
  | _ =>
    rw [hphase] at hp
    exact hp

/-- Attempts may change as long as the same entries are open. -/
theorem congr (h : r.Awaits attempts now items)
    (hopen : ∀ command ∈ r.waiting, Command.isOpen attempts' command
      = Command.isOpen attempts command) : r.Awaits attempts' now items := by
  refine ⟨h.running, h.phase, h.now, ?_, h.queue, h.timers, h.order, h.cancelled⟩
  rw [List.filter_congr hopen]
  exact h.items

/-- What is open and taken out is one of the open entries. -/
theorem items_of_perm (h : r.Awaits attempts now items) {command : Command Job}
    (hperm : r.waiting.Perm (command :: r'.waiting))
    (hopen : Command.isOpen attempts command = true) :
    items = command ::ₘ ↑(r'.waiting.filter (Command.isOpen attempts)) := by
  rw [← h.items, Multiset.coe_eq_coe.2 (hperm.filter _), List.filter_cons_of_pos hopen,
    ← Multiset.cons_coe]

/-- What is not open can be taken out. -/
theorem items_of_perm_of_not_isOpen (h : r.Awaits attempts now items) {command : Command Job}
    (hperm : r.waiting.Perm (command :: r'.waiting))
    (hopen : ¬ Command.isOpen attempts command = true) :
    ↑(r'.waiting.filter (Command.isOpen attempts)) = items := by
  rw [← h.items, Multiset.coe_eq_coe.2 (hperm.filter _), List.filter_cons_of_neg hopen]

/-- The alarm that is not open is that of a settled attempt. -/
theorem exists_expire_of_not_isOpen {timer : Timer Job}
    (h : ¬ Command.isOpen attempts (.arm timer) = true) :
    ∃ a, some timer.job = some (.expire a) ∧ (attempts[a]?).any (·.settled) = true := by
  unfold Command.isOpen at h
  dsimp only at h
  split at h
  · rename_i a hjob
    exact ⟨a, congrArg some hjob, by simpa using h⟩
  · exact absurd rfl h

/-- The first timer leaves the heap. -/
theorem of_pop? (h : r.Awaits attempts now items) {timer : Timer Job} {rest : List (Timer Job)}
    (ht : Heap.pop? Timer.before r.timers = some (timer, rest)) :
    r.waiting.Perm (.arm timer :: ({ r with timers := rest } : Reactor Job).waiting)
      ∧ ∀ items', ↑(({ r with timers := rest } : Reactor Job).waiting.filter
          (Command.isOpen attempts)) = items' →
        ({ r with timers := rest } : Reactor Job).Awaits attempts now items' := by
  have hperm : r.waiting.Perm
      (.arm timer :: ({ r with timers := rest } : Reactor Job).waiting) :=
    (((Heap.perm_of_pop? ht).1.map Command.arm).append_left r.queue).trans List.perm_middle
  refine ⟨hperm, fun items' hitems => ?_⟩
  refine ⟨h.running, h.phase, h.now, hitems, h.queue, fun other hother => ?_, ?_, h.cancelled⟩
  · exact h.timers other (hperm.mem_iff.2 (List.mem_cons_of_mem _ hother))
  · exact h.order.of_pop? Timer.orders
      (fun other hother => (h.timers other (mem_waiting_of_mem_timers hother)).1) ht

/-! ## What is handed to the reactor -/

/-- Something is put into the queue, and perhaps a timer was created for it. -/
theorem enqueue (h : r.Awaits attempts now items) {command : Command Job} {n : Nat}
    (hopen : Command.isOpen attempts command = true) (hn : r.created ≤ n)
    (hc : (∃ job, command = .run job)
      ∨ ∃ timer, command = .arm timer ∧ timer.deadline ≠ .nan ∧ timer.number < n) :
    ({ r with created := n, queue := r.queue ++ [command], signalled := true } :
      Reactor Job).Awaits attempts now (command ::ₘ items) := by
  have hperm : ((r.queue ++ [command]) ++ r.timers.map Command.arm).Perm
      (command :: r.waiting) := by
    unfold waiting
    rw [List.append_assoc]
    exact List.perm_middle
  refine ⟨h.running, h.phase, h.now, ?_, ?_, ?_, h.order, ?_⟩
  · have hfilter := hperm.filter (Command.isOpen attempts)
    rw [List.filter_cons_of_pos hopen] at hfilter
    rw [← h.items, Multiset.cons_coe]
    exact Multiset.coe_eq_coe.2 hfilter
  · intro other hother
    rcases List.mem_append.1 hother with hother | hother
    · exact h.queue other hother
    · rw [List.mem_singleton.1 hother]
      rcases hc with hrun | ⟨timer, rfl, -, -⟩
      · exact .inl hrun
      · exact .inr ⟨timer, rfl⟩
  · intro timer htimer
    rcases List.mem_cons.1 (hperm.mem_iff.1 htimer) with heq | hold
    · rcases hc with ⟨job, rfl⟩ | ⟨armed, rfl, hd, hnumber⟩
      · cases heq
      · cases heq
        exact ⟨hd, hnumber⟩
    · exact ⟨(h.timers timer hold).1, Nat.lt_of_lt_of_le (h.timers timer hold).2 hn⟩
  · exact fun m hm => Nat.lt_of_lt_of_le (h.cancelled m hm) hn

/-- A job is handed to the reactor. -/
theorem call (h : r.Awaits attempts now items) (job : Job) :
    ∃ r', r.call (.run job) = .ok r' ∧ r'.Awaits attempts now (.run job ::ₘ items) := by
  refine ⟨{ r with queue := r.queue ++ [.run job], signalled := true }, ?_,
    h.enqueue rfl (Nat.le_refl _) (.inl ⟨job, rfl⟩)⟩
  unfold Reactor.call
  rw [h.running]
  rfl

/-- A timer is set. -/
theorem schedule (h : r.Awaits attempts now items) {seconds : Binary64} {job : Job}
    (hopen : Command.isOpen attempts (.arm ⟨now + seconds, r.created, job⟩) = true)
    (hd : now + seconds ≠ .nan) :
    ∃ r', r.schedule now seconds job = .ok (⟨now + seconds, r.created, job⟩, r')
      ∧ r'.Awaits attempts now (.arm ⟨now + seconds, r.created, job⟩ ::ₘ items)
      ∧ r'.cancelled = r.cancelled := by
  refine ⟨_, ?_, h.enqueue hopen (Nat.le_succ _) (.inr ⟨_, rfl, hd, Nat.lt_succ_self _⟩), rfl⟩
  unfold Reactor.schedule Reactor.call
  dsimp only
  rw [h.running]
  rfl

/-- The timer of an attempt is cancelled. -/
theorem cancel (h : r.Awaits attempts now items) {number : Nat} (hnumber : number < r.created) :
    (r.cancel number).Awaits attempts now items := by
  refine ⟨h.running, h.phase, h.now, h.items, h.queue, h.timers, h.order, fun n hn => ?_⟩
  rcases List.mem_cons.1 hn with rfl | hn
  · exact hnumber
  · exact h.cancelled n hn

/-! ## Turns of the loop -/

/-- A poll ends without having found a socket. -/
theorem poll_eq (h : r.Awaits attempts now items) (hp : r.phase = .polling) :
    (r.poll now fun _ => false) = { r with signalled := false, phase := .reading [] } := by
  obtain ⟨n, hn⟩ := exists_pollTime h.now fun timer htimer =>
    (h.timers timer (mem_waiting_of_mem_timers htimer)).1
  obtain ⟨hstopped, -⟩ | ⟨-, heq⟩ := poll_eq_of_pollTime hp hn fun _ => false
  · rw [h.running] at hstopped
    cases hstopped
  · rw [heq, List.filter_false]

theorem poll (h : r.Awaits attempts now items) (hp : r.phase = .polling) :
    (r.poll now fun _ => false).Awaits attempts now items := by
  rw [h.poll_eq hp]
  exact ⟨h.running, rfl, h.now, h.items, h.queue, h.timers, h.order, h.cancelled⟩

end Awaits

/-- What a turn makes of an open entry: a job is run, and so is that of a timer whose time has come,
unless the timer was cancelled. -/
inductive Takes (r : Reactor Job) (now : Binary64) : Command Job → Option Job → Prop where
  | run (job : Job) : Takes r now (.run job) (some job)
  | fire {timer : Timer Job} (hd : timer.deadline.le now = true) :
      Takes r now (.arm timer) (if r.isCancelled timer then none else some timer.job)

/-- A timer that was not cancelled fires when its time has come. -/
theorem Takes.of_not_cancelled {r : Reactor Job} {now : Binary64} {timer : Timer Job}
    {next : Option Job} (h : r.Takes now (.arm timer) next) (hn : timer.number ∉ r.cancelled) :
    next = some timer.job ∧ timer.deadline.le now = true := by
  obtain ⟨hd⟩ := h
  have hfresh : r.isCancelled timer = false := by
    simpa [isCancelled] using hn
  rw [hfresh]
  exact ⟨rfl, by assumption⟩

/-- **A turn takes one of the open entries, or it changes nothing that matters**: at most it comes
upon the alarm of a settled attempt. -/
theorem Awaits.of_step? {r r' : Reactor Job} {attempts : List Attempt} {now : Binary64}
    {items : Multiset (Command Job)} {next : Option Job} (h : r.Awaits attempts now items)
    (hs : r.step? now = some (r', next)) :
    (r'.Awaits attempts now items
        ∧ (next = none ∨ ∃ a, next = some (.expire a) ∧ (attempts[a]?).any (·.settled) = true))
      ∨ ∃ item rest, items = item ::ₘ rest ∧ r'.Awaits attempts now rest
        ∧ r.Takes now item next := by
  obtain ⟨hdoes, rfl⟩ := does_of_step? hs
  generalize r.deed = deed at hdoes
  have hphase := h.phase
  have hdeadlines : ∀ timer ∈ r.timers, timer.deadline ≠ .nan := fun timer htimer =>
    (h.timers timer (mem_waiting_of_mem_timers htimer)).1
  cases hdoes with
  | read hp _ hdone =>
    rw [hp] at hphase
    obtain ⟨rfl, rfl⟩ := hdone hphase
    exact .inl ⟨⟨h.running, trivial, h.now, h.items, h.queue, h.timers, h.order, h.cancelled⟩,
      .inl rfl⟩
  | @take command rest hp hq =>
    rw [hp] at hphase
    have hwaiting : r.waiting = command :: ({ r with queue := rest } : Reactor Job).waiting := by
      unfold waiting
      rw [hq]
      rfl
    have hrest : ∀ other ∈ rest, other ∈ r.queue := fun other hother =>
      hq ▸ List.mem_cons_of_mem command hother
    rcases h.queue command (hq ▸ List.mem_cons_self) with ⟨job, rfl⟩ | ⟨timer, rfl⟩
    · refine .inr ⟨.run job, _, h.items_of_perm (List.Perm.of_eq hwaiting) rfl,
        ⟨h.running, h.phase, h.now, rfl, ?_, ?_, h.order, h.cancelled⟩, .run job⟩
      · exact fun other hother => h.queue other (hrest other hother)
      · exact fun timer htimer => h.timers timer (hwaiting ▸ List.mem_cons_of_mem _ htimer)
    · have hperm : (rest ++ (Heap.push Timer.before r.timers timer).map Command.arm).Perm
          r.waiting := by
        rw [hwaiting]
        have hpush := (Heap.perm_push Timer.before r.timers timer).map Command.arm
        exact (List.Perm.append_left rest hpush).trans List.perm_middle
      refine .inl ⟨⟨h.running, h.phase, h.now, ?_, ?_, ?_, ?_, h.cancelled⟩, .inl rfl⟩
      · rw [← h.items]
        exact Multiset.coe_eq_coe.2 (hperm.filter _)
      · exact fun other hother => h.queue other (hrest other hother)
      · exact fun other hother => h.timers other (hperm.mem_iff.1 hother)
      · exact h.order.push Timer.orders hdeadlines
          (h.timers timer (hwaiting ▸ List.mem_cons_self)).1
  | turnTo hp hq =>
    exact .inl ⟨⟨h.running, Binary64.le_refl (Binary64.ne_nan_of_isFinite h.now), h.now, h.items,
      h.queue, h.timers, h.order, h.cancelled⟩, .inl rfl⟩
  | @fire start timer rest hp ht hdue hc =>
    rw [hp] at hphase
    obtain ⟨hperm, hkept⟩ := h.of_pop? ht
    by_cases hopen : Command.isOpen attempts (.arm timer) = true
    · refine .inr ⟨.arm timer, _, h.items_of_perm hperm hopen, hkept _ rfl, ?_⟩
      have hfire := Takes.fire (r := r) (Binary64.le_trans hdue hphase)
      rwa [show r.isCancelled timer = false by simpa [isCancelled] using hc] at hfire
    · refine .inl ⟨hkept _ (h.items_of_perm_of_not_isOpen hperm hopen), .inr ?_⟩
      exact exists_expire_of_not_isOpen hopen
  | @drop start timer rest hp ht hdue hc =>
    rw [hp] at hphase
    obtain ⟨hperm, hkept⟩ := h.of_pop? ht
    by_cases hopen : Command.isOpen attempts (.arm timer) = true
    · refine .inr ⟨.arm timer, _, h.items_of_perm hperm hopen, hkept _ rfl, ?_⟩
      have hfire := Takes.fire (r := r) (Binary64.le_trans hdue hphase)
      rwa [show r.isCancelled timer = true by simpa [isCancelled] using hc] at hfire
    · exact .inl ⟨hkept _ (h.items_of_perm_of_not_isOpen hperm hopen), .inl rfl⟩
  | finish hp hn =>
    exact .inl ⟨⟨h.running, trivial, h.now, h.items, h.queue, h.timers, h.order, h.cancelled⟩,
      .inl rfl⟩

/-! ## What is ready is taken -/

/-- A turn that changes nothing that matters. -/
inductive Idles (attempts : List Attempt) (now : Binary64) (r : Reactor Job) :
    Reactor Job → Prop where
  | poll (hp : r.phase = .polling) : Idles attempts now r (r.poll now fun _ => false)
  | step {r' : Reactor Job} {next : Option Job} (hs : r.step? now = some (r', next))
      (hn : next = none ∨ ∃ a, next = some (.expire a) ∧ (attempts[a]?).any (·.settled) = true) :
      Idles attempts now r r'

/-- The entry is the job, or a timer of it whose time has come. -/
def IsReady (r : Reactor Job) (now : Binary64) (item : Command Job) (job : Job) : Prop :=
  item = .run job
  ∨ ∃ timer, item = .arm timer ∧ timer.job = job ∧ timer.deadline.le now = true
    ∧ timer.number ∉ r.cancelled

/-- How many turns the loop makes at most before it takes an entry that is ready. Timers that are
due are fired after the queue was emptied, unless that is what the loop is doing. -/
def rank (r : Reactor Job) (now : Binary64) : Nat :=
  let all := r.queue.length + r.timers.length
  match r.phase with
  | .draining => all + r.queue.length + 1
  | .reading _ => all + r.queue.length + 2
  | .polling => all + r.queue.length + 3
  | .firing start =>
    if r.queue.length = 0 ∧ now.le start = true then all else all + r.queue.length + 4
  | _ => 0

section Rank

variable {r r' : Reactor Job} {attempts : List Attempt} {now : Binary64} {item : Command Job}
  {rest : Multiset (Command Job)} {job : Job} {next : Option Job}

theorem Awaits.mem_waiting (h : r.Awaits attempts now (item ::ₘ rest)) : item ∈ r.waiting := by
  have hmem : item ∈ (↑(r.waiting.filter (Command.isOpen attempts)) : Multiset (Command Job)) := by
    rw [h.items]
    exact Multiset.mem_cons_self item rest
  exact (List.mem_filter.1 (Multiset.mem_coe.1 hmem)).1

/-- A job that is ready and not in the queue is that of a timer. -/
theorem IsReady.exists_timer (hr : r.IsReady now item job) (hw : item ∈ r.waiting)
    (hq : r.queue = []) : ∃ timer ∈ r.timers, item = .arm timer ∧ timer.deadline.le now = true := by
  unfold waiting at hw
  rw [hq, List.nil_append] at hw
  obtain ⟨timer, htimer, rfl⟩ := List.mem_map.1 hw
  rcases hr with hrun | ⟨due, harm, -, hd, -⟩
  · cases hrun
  · cases harm
    exact ⟨timer, htimer, rfl, hd⟩

/-- Every turn of the loop brings it closer to an entry that is ready. -/
theorem Awaits.rank_lt (h : r.Awaits attempts now (item ::ₘ rest)) (hr : r.IsReady now item job)
    (hs : r.step? now = some (r', next)) : r'.rank now < r.rank now := by
  have hphase := h.phase
  obtain ⟨hdoes, -⟩ := does_of_step? hs
  generalize r.deed = deed at hdoes
  unfold rank
  cases hdoes with
  | read hp _ hdone =>
    rw [hp] at hphase
    obtain ⟨rfl, -⟩ := hdone hphase
    simp [hp]
  | @take command others hp hq =>
    rcases h.queue command (hq ▸ List.mem_cons_self) with ⟨other, rfl⟩ | ⟨timer, rfl⟩
    · simp [hp, hq, execute]
      omega
    · have hlength := (Heap.perm_push Timer.before r.timers timer).length_eq
      simp [hp, hq, execute, hlength]
      omega
  | turnTo hp hq =>
    have hnow := Binary64.le_refl (Binary64.ne_nan_of_isFinite h.now)
    simp [hp, hq, hnow]
  | fire hp ht =>
    have hlength := (Heap.perm_of_pop? ht).1.length_eq
    simp only [hp, hlength, List.length_cons]
    split <;> omega
  | drop hp ht =>
    have hlength := (Heap.perm_of_pop? ht).1.length_eq
    simp only [hp, hlength, List.length_cons]
    split <;> omega
  | @finish start hp hn =>
    -- If the loop fires the timers that are due now, then so is the entry.
    have hbad : ¬ (r.queue.length = 0 ∧ now.le start = true) := by
      rintro ⟨hq, hstart⟩
      obtain ⟨timer, htimer, -, hd⟩ := hr.exists_timer h.mem_waiting (List.length_eq_zero_iff.1 hq)
      cases hhead : r.timers.head? with
      | none =>
        rw [List.head?_eq_none_iff.1 hhead] at htimer
        cases htimer
      | some first =>
        have hle := Timer.le_of_head? h.order
          (fun other hother => (h.timers other (mem_waiting_of_mem_timers hother)).1) hhead htimer
        exact hn first hhead (Binary64.le_trans hle (Binary64.le_trans hd hstart))
    simp only [hp, if_neg hbad]
    omega

/-- Turns cancel no timers. -/
theorem cancelled_of_step? (hs : r.step? now = some (r', next)) : r'.cancelled = r.cancelled := by
  obtain ⟨hdoes, -⟩ := does_of_step? hs
  generalize r.deed = deed at hdoes
  cases hdoes with
  | @take command => cases command <;> rfl
  | _ => rfl

/-- A loop that is in order and does not poll has a next step. -/
theorem Awaits.exists_step {items : Multiset (Command Job)} (h : r.Awaits attempts now items)
    (hp : r.phase ≠ .polling) : ∃ r' next, r.step? now = some (r', next) := by
  have hphase := h.phase
  refine exists_step? hp (fun he => ?_) fun e hf => ?_
  · rw [he] at hphase
    cases hphase
  · rw [hf] at hphase
    cases hphase

/-- An entry that cannot be taken now. -/
def LiesAhead (now : Binary64) (command : Command Job) : Prop :=
  ∃ timer, command = .arm timer ∧ ¬ timer.deadline.le now = true

/-- After some turns that change nothing the loop takes the job, and this reactor is left. -/
def ComesTo (r : Reactor Job) (attempts : List Attempt) (now : Binary64) (job : Job)
    (r' : Reactor Job) : Prop :=
  ∃ before, Relation.ReflTransGen (Idles attempts now) r before
    ∧ before.step? now = some (r', some job)

/-- **An entry that is ready is taken** after finitely many turns that change nothing, if it is the
only one that can be taken now. -/
theorem Awaits.exists_comesTo (h : r.Awaits attempts now (item ::ₘ rest))
    (hr : r.IsReady now item job) (hrest : ∀ other ∈ rest, LiesAhead now other) :
    ∃ r', r.ComesTo attempts now job r' ∧ r'.Awaits attempts now rest := by
  generalize hn : r.rank now = n
  induction n using Nat.strongRecOn generalizing r with
  | ind n ih =>
    -- A turn that changes nothing leaves less to do.
    have hidle : ∀ {s : Reactor Job}, Idles attempts now r s →
        s.Awaits attempts now (item ::ₘ rest) → s.rank now < r.rank now →
        s.cancelled = r.cancelled →
        ∃ r', r.ComesTo attempts now job r' ∧ r'.Awaits attempts now rest := by
      intro s hturn hs hrank hcancelled
      have hready : s.IsReady now item job := by
        unfold IsReady
        rw [hcancelled]
        exact hr
      obtain ⟨r', ⟨before, hpath, hstep⟩, hawaits⟩ := ih _ (hn ▸ hrank) hs hready rfl
      exact ⟨r', ⟨before, hpath.head hturn, hstep⟩, hawaits⟩
    by_cases hp : r.phase = .polling
    · refine hidle (.poll hp) (h.poll hp) ?_ ?_
      · rw [h.poll_eq hp]
        simp [rank, hp]
      · rw [h.poll_eq hp]
    · obtain ⟨s, next, hstep⟩ := h.exists_step hp
      obtain ⟨hs, hnext⟩ | ⟨taken, left, hitems, hs, htakes⟩ := h.of_step? hstep
      · exact hidle (.step hstep hnext) hs (h.rank_lt hr hstep) (cancelled_of_step? hstep)
      · obtain ⟨rfl, rfl⟩ | ⟨-, others, rfl, -⟩ := Multiset.cons_eq_cons.1 hitems
        · have hjob : next = some job := by
            rcases hr with rfl | ⟨timer, rfl, rfl, -, hn⟩
            · cases htakes
              rfl
            · exact (htakes.of_not_cancelled hn).1
          exact ⟨s, ⟨r, .refl, hjob ▸ hstep⟩, hs⟩
        · obtain ⟨timer, rfl, hahead⟩ := hrest taken (Multiset.mem_cons_self taken others)
          cases htakes with
          | fire hd => exact absurd hd hahead

end Rank

end Reactor

end Pubsub
