import Pubsub.Proofs.Hands

/-!
# Worked on by a reactor

Once an operation was given to a reactor, the thread of the reactor does something for it, or waits
until an entry of the queue or a timer is taken, or until a worker of the pool hands back an answer.
All turns of the loop that do not take the one entry that is due change nothing that matters. So the
operation stays on its track (`Waits.next`, `Works.next`).
-/

namespace Pubsub

variable {Handler : Type}

/-! ## Which alarms are open -/

namespace Command

variable {attempts : List Attempt} {attempt attempt' : Attempt} {a : Nat} {command : Command Job}

/-- Whether an entry is open depends on which attempts are settled. -/
theorem isOpen_congr {attempts' : List Attempt}
    (h : ∀ b : Nat, (attempts'[b]?).any Attempt.settled = (attempts[b]?).any Attempt.settled) :
    isOpen attempts' command = isOpen attempts command := by
  unfold isOpen
  simp only [h]

theorem isOpen_append (hu : attempt.settled = false) :
    isOpen (attempts ++ [attempt]) command = isOpen attempts command := by
  refine isOpen_congr fun b => ?_
  rw [List.getElem?_append]
  split
  · rfl
  · rename_i hb
    rw [List.getElem?_eq_none_iff.2 (Nat.not_lt.1 hb)]
    cases hc : b - attempts.length with
    | zero => simp [hu]
    | succ n => simp

theorem isOpen_set (ha : attempts[a]? = some attempt) (hs : attempt'.settled = attempt.settled) :
    isOpen (attempts.set a attempt') command = isOpen attempts command := by
  refine isOpen_congr fun b => ?_
  by_cases hb : a = b
  · subst hb
    rw [List.getElem?_set_self (List.getElem?_eq_some_iff.1 ha).1, ha]
    exact hs
  · rw [List.getElem?_set_ne hb]

/-- Settling an attempt opens nothing. -/
theorem isOpen_of_isOpen_set (hs : attempt'.settled = true)
    (h : isOpen (attempts.set a attempt') command = true) : isOpen attempts command = true := by
  unfold isOpen at *
  split
  · rename_i timer
    dsimp only at h ⊢
    split
    · rename_i b hjob
      rw [hjob] at h
      dsimp only at h
      by_cases hb : a = b
      · subst hb
        by_cases ha : a < attempts.length
        · rw [List.getElem?_set_self ha] at h
          simp [hs] at h
        · rw [List.getElem?_eq_none_iff.2 (Nat.not_lt.1 ha)]
          rfl
      · rw [List.getElem?_set_ne hb] at h
        exact h
    · rfl
  · rfl

end Command

/-- When an attempt is settled of which only the alarm is open, nothing is open any more. -/
theorem Reactor.Awaits.settle {r : Reactor Job} {attempts : List Attempt} {now : Binary64}
    {timer : Timer Job} {a : Nat} {attempt attempt' : Attempt}
    (h : r.Awaits attempts now {.arm timer}) (hjob : timer.job = .expire a)
    (ha : attempts[a]? = some attempt) (hs : attempt'.settled = true) :
    r.Awaits (attempts.set a attempt') now 0 := by
  refine ⟨h.running, h.phase, h.now, ?_, h.queue, h.timers, h.order, h.cancelled⟩
  have hnil : r.waiting.filter (Command.isOpen (attempts.set a attempt')) = [] := by
    refine List.filter_eq_nil_iff.2 fun command hcommand hopen => ?_
    have hmem : command ∈ (↑(r.waiting.filter (Command.isOpen attempts)) :
        Multiset (Command Job)) :=
      Multiset.mem_coe.2 (List.mem_filter.2 ⟨hcommand, Command.isOpen_of_isOpen_set hs hopen⟩)
    rw [h.items, Multiset.mem_singleton] at hmem
    subst hmem
    unfold Command.isOpen at hopen
    dsimp only at hopen
    rw [hjob] at hopen
    dsimp only at hopen
    rw [List.getElem?_set_self (List.getElem?_eq_some_iff.1 ha).1] at hopen
    simp [hs] at hopen
  rw [hnil]
  rfl

namespace Errand

variable {E : Errand Handler} {w w' : Client Handler} {script : List Exchange}
  {seen : List (Sighting Handler)} {fed : Option Outcome} {result : Result} {seconds : Binary64}
  {items : Multiset (Command Job)} {point : Point} {r : Reactor Job} {a number : Nat}
  {outcome : Outcome} {deadline : Binary64}

/-! ## What the thread of the reactor does -/

theorem Entrusted.of_agreesOutside (h : E.Entrusted w) (ha : w.AgreesOutside w') :
    E.Entrusted w' := by
  rw [ha]
  exact ⟨h.kind, h.phase, h.task⟩

theorem Entrusted.undriven (h : E.Entrusted w) : E.toPlaces.Undriven w :=
  ⟨by simp [h.phase], fun drive => by simp [Client.taskPhase?_of_none h.task]⟩

/-- **The reactor resumes the cycle.** -/
theorem moves_advance (he : E.Entrusted w) (hr : w.reactor.Awaits w.attempts w.clock 0)
    (hpool : Attempt.NoneInFlight w.attempts) (hw : w.work = .advancing E.call fed)
    (hgoes : E.Goes ⟨w, script, seen⟩ (.resuming fed)) :
    E.Moves ⟨w, script, seen⟩ (.resuming fed) .stepReactor := by
  obtain ⟨w₁, effect, point, shown, hresume, hpoint, hrank, hshows, hnext⟩ := hgoes.resume
  have hquiet : w.pause? .stepReactor = none := Client.pause?_of_work (by simp [hw])
  have hstep : w.act? .stepReactor = some (w.advanceCall E.call fed) := by
    show w.stepReactor? = _
    unfold Client.stepReactor?
    rw [hw]
  unfold Client.advanceCall at hstep
  rw [hresume] at hstep
  -- Whatever the reactor is to do next, nothing is open for it.
  have hworking : ∀ {v : Client Handler} {work : Work} {point : Point}, w.AgreesOutside v →
      E.Works { v with work } 0 point → E.InHands { v with work } point := by
    intro v work point hv hworks
    have he' := he.of_agreesOutside hv
    refine .working ⟨he'.kind, he'.phase, he'.task⟩ ?_ ?_ hworks
    · rw [hv]
      exact hr
    · rw [hv]
      exact hpool
  cases effect with
  | send =>
    cases hpoint
    have htrack : E.OnTrack ⟨{ w₁ with work := .arming E.call }, script, seen ++ shown⟩ .sending :=
      ⟨hnext.congr rfl rfl rfl rfl, hworking hshows.agrees (.arming rfl)⟩
    exact ⟨_, _, hstep, hrank, hshows.onTrack htrack (by simp) (by simp) hquiet rfl rfl rfl⟩
  | sleep seconds =>
    cases hpoint
    have htrack : E.OnTrack ⟨{ w₁ with work := .pausing E.call seconds }, script, seen ++ shown⟩
        (.pausing seconds) :=
      ⟨hnext.congr rfl rfl rfl rfl, hworking hshows.agrees (.pausing rfl)⟩
    exact ⟨_, _, hstep, hrank, hshows.onTrack htrack (by simp) (by simp) hquiet rfl rfl rfl⟩
  | finish result =>
    cases hpoint
    obtain ⟨w₂, notified, hcomplete, hnotified, hdone⟩ := hnext.complete
    rw [List.append_assoc] at hdone
    have hboth := hshows.trans hnotified
    dsimp only at hstep
    rw [hcomplete] at hstep
    cases hsome : E.callback.isSome with
    | true =>
      rw [hsome] at hstep
      have hcalling := goes_calling_iff.2 hdone
      have htrack : E.OnTrack ⟨{ w₂ with work := .calling E.call }, script,
          seen ++ (shown ++ notified)⟩ (.calling result) :=
        ⟨hcalling.congr rfl rfl rfl rfl, hworking hboth.agrees (.calling rfl)⟩
      exact ⟨_, .calling result, hstep, Nat.lt_trans (by simp [Point.rank]) hrank,
        hboth.onTrack htrack (by simp) (by simp) hquiet rfl rfl rfl⟩
    | false =>
      rw [hsome] at hstep
      have hcompleted := goes_completed_iff.2 hdone
      have he' := he.of_agreesOutside hboth.agrees
      have hr' : w₂.reactor.Awaits w₂.attempts w₂.clock 0 := by
        rw [hboth.agrees]
        exact hr
      have hpool' : Attempt.NoneInFlight w₂.attempts := by
        rw [hboth.agrees]
        exact hpool
      have htrack : E.OnTrack ⟨{ w₂ with work := .none }, script, seen ++ (shown ++ notified)⟩
          (.completed result) :=
        ⟨hcompleted.congr rfl rfl rfl rfl,
          .waiting ⟨he'.kind, he'.phase, he'.task⟩ rfl hr' (.completed hpool')⟩
      exact ⟨_, .completed result, hstep, Nat.lt_trans (by simp [Point.rank]) hrank,
        hboth.onTrack htrack (by simp) (by simp) hquiet rfl rfl rfl⟩
  | raise e => cases hpoint

/-- **The timer of the next attempt is set.** -/
theorem moves_arm (he : E.Entrusted w) (hr : w.reactor.Awaits w.attempts w.clock 0)
    (hpool : Attempt.NoneInFlight w.attempts) (hw : w.work = .arming E.call)
    (hgoes : E.Goes ⟨w, script, seen⟩ .sending) :
    E.Moves ⟨w, script, seen⟩ .sending .stepReactor := by
  obtain ⟨call, hcall, hrequest⟩ := Option.map_eq_some_iff.1 (hgoes.request (by simp) (by simp))
  have hd : w.clock + E.request.timeout ≠ .nan := by
    obtain ⟨left, -, rest, -, cycle, cursor, e, outcome, others, -, -, -, -, hlt, -⟩ := hgoes.stands
    exact (Binary64.lt_iff.1 hlt).2.1
  have hopen : Command.isOpen w.attempts (.arm ⟨w.clock + E.request.timeout, w.reactor.created,
      .expire w.attempts.length⟩) = true := by
    unfold Command.isOpen
    dsimp only
    rw [List.getElem?_eq_none_iff.2 (Nat.le_refl _)]
    rfl
  obtain ⟨r, hschedule, hawaits, -⟩ := hr.schedule hopen hd
  have hstep : w.act? .stepReactor = some
      { w with
        reactor := r
        attempts := w.attempts ++ [⟨E.call, w.reactor.created, false, false⟩]
        work := .submitting w.attempts.length } := by
    show w.stepReactor? = _
    unfold Client.stepReactor?
    rw [hw]
    dsimp only
    unfold Client.armCall
    rw [hcall]
    dsimp only
    rw [hrequest, hschedule]
  have hsubmit := goes_submitting_iff.2 hgoes
  have hlanded : Attempt.NoneInFlight
      (w.attempts ++ [⟨E.call, w.reactor.created, false, false⟩]) := by
    intro attempt hattempt
    rcases List.mem_append.1 hattempt with hold | hnew
    · exact hpool attempt hold
    · rw [List.mem_singleton.1 hnew]
  exact .of_quiet hstep rfl (Client.pause?_of_work (by simp [hw])) (by decide)
    ⟨hsubmit.congr rfl rfl rfl rfl, .working ⟨he.kind, he.phase, he.task⟩
      (hawaits.congr fun command _ => Command.isOpen_append rfl) hlanded
      (.submitting rfl List.getElem?_concat_length)⟩

/-- **The attempt is given to the pool**, which sends the request. -/
theorem moves_submit (he : E.Entrusted w)
    (hr : w.reactor.Awaits w.attempts w.clock
      {.arm ⟨w.clock + E.request.timeout, number, .expire a⟩})
    (hpool : Attempt.NoneInFlight w.attempts) (hw : w.work = .submitting a)
    (ha : w.attempts[a]? = some ⟨E.call, number, false, false⟩)
    (hgoes : E.Goes ⟨w, script, seen⟩ .submitting) :
    E.Moves ⟨w, script, seen⟩ .submitting .stepReactor := by
  let w₁ : Client Handler :=
    { w with attempts := w.attempts.set a ⟨E.call, number, false, true⟩, work := .none }
  have hstep : w.act? .stepReactor = some (w₁.record (.sent E.call)) := by
    show w.stepReactor? = _
    unfold Client.stepReactor?
    rw [hw]
    dsimp only
    unfold Client.submitAttempt
    rw [ha]
    dsimp only
    rw [if_neg (Bool.eq_false_iff.1 (hgoes.live.pool he.kind))]
  have hshows : E.Shows w (w.record (.sent E.call)) [⟨w.clock, .sent E.request⟩] :=
    shows_record w (by simp) rfl
  have hlength := (List.getElem?_eq_some_iff.1 ha).1
  have hlanded : Attempt.NoneInFlight ((w.attempts.set a ⟨E.call, number, false, true⟩).set a
      ⟨E.call, number, false, false⟩) := by
    rw [List.set_set, ← (List.getElem?_eq_some_iff.1 ha).2, List.set_getElem_self]
    exact hpool
  have hawaits : w.reactor.Awaits (w.attempts.set a ⟨E.call, number, false, true⟩) w.clock
      {.arm ⟨w.clock + E.request.timeout, number, .expire a⟩} :=
    hr.congr fun command _ => Command.isOpen_set ha rfl
  have htrack : E.OnTrack ⟨w₁.record (.sent E.call), script,
      seen ++ [⟨w.clock, .sent E.request⟩]⟩ .awaiting :=
    ⟨hgoes.send rfl rfl rfl rfl, .waiting ⟨he.kind, he.phase, he.task⟩ rfl hawaits
      (.inFlight (List.getElem?_set_self hlength) hlanded)⟩
  exact ⟨_, .awaiting, hstep, by decide, hshows.onTrack htrack (by simp) (by simp)
    (Client.pause?_of_work (by simp [hw])) rfl rfl rfl⟩

/-- **The timer of the pause is set.** -/
theorem moves_pause (he : E.Entrusted w) (hr : w.reactor.Awaits w.attempts w.clock 0)
    (hpool : Attempt.NoneInFlight w.attempts) (hw : w.work = .pausing E.call seconds)
    (hgoes : E.Goes ⟨w, script, seen⟩ (.pausing seconds)) :
    E.Moves ⟨w, script, seen⟩ (.pausing seconds) .stepReactor := by
  have hd : w.clock + seconds ≠ .nan := by
    obtain ⟨left, -, rest, -, cycle, cursor, -, -, hperforms⟩ := hgoes.stands
    exact Binary64.ne_nan_of_isFinite hperforms.isFinite
  have hopen : Command.isOpen w.attempts (.arm ⟨w.clock + seconds, w.reactor.created,
      .advance E.call⟩) = true := rfl
  obtain ⟨r, hschedule, hawaits, hcancelled⟩ := hr.schedule hopen hd
  have hstep : w.act? .stepReactor = some { w with reactor := r, work := .none } := by
    show w.stepReactor? = _
    unfold Client.stepReactor?
    rw [hw]
    dsimp only
    unfold Client.pauseCall
    rw [hschedule]
  have hsightings : w.sightings .stepReactor { w with reactor := r, work := .none }
      = [⟨w.clock, .slept seconds⟩] := by
    unfold Client.sightings Client.pause?
    rw [hw]
    dsimp only
    rw [if_neg (Bool.eq_false_iff.1 hr.running), List.drop_length]
    rfl
  have hn : w.reactor.created ∉ r.cancelled := by
    rw [hcancelled]
    exact fun h => Nat.lt_irrefl _ (hr.cancelled _ h)
  refine ⟨_, .asleep seconds, hstep, by simp [Point.rank], ?_⟩
  show E.OnTrack ⟨_, script, seen ++ w.sightings .stepReactor _⟩ (.asleep seconds)
  rw [hsightings]
  exact ⟨hgoes.pause rfl rfl rfl rfl, .waiting ⟨he.kind, he.phase, he.task⟩ rfl hawaits
    (.asleep hn hpool)⟩

/-- **The callback returns.** -/
theorem moves_return (he : E.Entrusted w) (hr : w.reactor.Awaits w.attempts w.clock 0)
    (hpool : Attempt.NoneInFlight w.attempts) (hw : w.work = .calling E.call)
    (hgoes : E.Goes ⟨w, script, seen⟩ (.calling result)) :
    E.Moves ⟨w, script, seen⟩ (.calling result) (.returnReactor none) := by
  have hstep : w.act? (.returnReactor none) = some { w with work := .none } := by
    show w.returnReactor? none = _
    unfold Client.returnReactor?
    rw [hw]
    rfl
  have hcompleted := goes_completed_iff.2 (goes_calling_iff.1 hgoes)
  exact .of_quiet hstep rfl (Client.pause?_of_ne (by simp)) (by simp [Point.rank])
    ⟨hcompleted.congr rfl rfl rfl rfl,
      .waiting ⟨he.kind, he.phase, he.task⟩ rfl hr (.completed hpool)⟩

/-! ## What is taken -/

/-- **The job is begun that resumes the cycle.** -/
theorem onTrack_beginAdvance (he : E.Entrusted w) (hpool : Attempt.NoneInFlight w.attempts)
    (hr : r.Awaits w.attempts w.clock 0) (hgoes : E.Goes ⟨w, script, seen⟩ (.resuming none)) :
    E.OnTrack ⟨({ w with reactor := r } : Client Handler).beginJob (.advance E.call), script, seen⟩
      (.resuming none) :=
  ⟨hgoes.congr rfl rfl rfl rfl, .working ⟨he.kind, he.phase, he.task⟩ hr hpool (.advancing rfl)⟩

/-- **The job is begun that takes the answer**, which settles the attempt and cancels its timer. -/
theorem onTrack_beginArrive (he : E.Entrusted w) (hpool : Attempt.NoneInFlight w.attempts)
    (ha : w.attempts[a]? = some ⟨E.call, number, false, false⟩)
    (hr : r.Awaits w.attempts w.clock {.arm ⟨deadline, number, .expire a⟩})
    (hgoes : E.Goes ⟨w, script, seen⟩ (.ready (some outcome))) :
    E.OnTrack ⟨({ w with reactor := r } : Client Handler).beginJob (.arrive a (.ok outcome)),
      script, seen⟩ (.resuming (some outcome)) := by
  have hsettle : ({ w with reactor := r } : Client Handler).settleAttempt? a = some _ :=
    Client.settleAttempt?_of_unsettled ha rfl
  have hbegin : ({ w with reactor := r } : Client Handler).beginJob (.arrive a (.ok outcome))
      = { w with
          reactor := r.cancel number
          attempts := w.attempts.set a ⟨E.call, number, true, false⟩
          work := .advancing E.call (some outcome) } := by
    unfold Client.beginJob
    dsimp only
    rw [hsettle]
    rfl
  have hresuming := goes_resuming_iff.2 hgoes
  have hnumber : number < r.created := (hr.timers _ hr.mem_waiting).2
  have hawaits : (r.cancel number).Awaits (w.attempts.set a ⟨E.call, number, true, false⟩) w.clock
      0 := (hr.settle rfl ha rfl).cancel hnumber
  have hlanded : Attempt.NoneInFlight (w.attempts.set a ⟨E.call, number, true, false⟩) := by
    intro attempt hattempt
    rcases List.mem_or_eq_of_mem_set hattempt with hold | rfl
    · exact hpool attempt hold
    · rfl
  rw [hbegin]
  exact ⟨hresuming.congr rfl rfl rfl rfl, .working ⟨he.kind, he.phase, he.task⟩ hawaits hlanded
    (.advancing rfl)⟩

/-- The time of an attempt is not over while its answer is awaited. -/
theorem Goes.lt_deadline (h : E.Goes ⟨w, script, seen⟩ .awaiting) :
    w.clock.lt (w.clock + E.request.timeout) = true := by
  obtain ⟨left, -, cycle, cursor, e, outcome, others, -, -, -, hle, hlt, -⟩ := h.stands
  exact Binary64.lt_of_le_of_lt hle hlt

theorem Waits.react (h : E.Waits w items point) (hc : r.cancelled = w.reactor.cancelled) :
    E.Waits { w with reactor := r } items point := by
  cases h with
  | queued hpool => exact .queued hpool
  | inFlight ha hpool => exact .inFlight ha hpool
  | arrived ha hlt hpool => exact .arrived ha hlt hpool
  | asleep hn hpool => exact .asleep (hc ▸ hn) hpool
  | woken hn hpool => exact .woken (hc ▸ hn) hpool
  | completed hpool => exact .completed hpool

/-- **When an open entry is taken, it is the one that takes the operation on.** No alarm goes off
before its time. -/
theorem Waits.take (h : E.Waits w items point) (he : E.Entrusted w)
    (hgoes : E.Goes ⟨w, script, seen⟩ point) {item : Command Job} {rest : Multiset (Command Job)}
    {next : Option Job} (hitems : items = item ::ₘ rest) (hr : r.Awaits w.attempts w.clock rest)
    (ht : w.reactor.Takes w.clock item next) :
    ∃ job point', next = some job ∧ E.OnTrack
      ⟨({ w with reactor := r } : Client Handler).beginJob job, script, seen⟩ point' := by
  cases h with
  | queued hpool =>
    obtain ⟨rfl, rfl⟩ := (Multiset.singleton_eq_cons_iff _).1 hitems
    cases ht
    exact ⟨_, _, rfl, onTrack_beginAdvance he hpool hr (goes_resuming_iff.2 hgoes)⟩
  | inFlight ha hpool =>
    obtain ⟨rfl, rfl⟩ := (Multiset.singleton_eq_cons_iff _).1 hitems
    cases ht with
    | fire hd => exact absurd hd (Binary64.not_le_of_lt hgoes.lt_deadline)
  | arrived ha hlt hpool =>
    rcases Multiset.cons_eq_cons.1 hitems with ⟨rfl, rfl⟩ | ⟨-, others, hothers, -⟩
    · cases ht
      exact ⟨_, _, rfl, onTrack_beginArrive he hpool ha hr hgoes⟩
    · obtain ⟨rfl, rfl⟩ := (Multiset.singleton_eq_cons_iff _).1 hothers
      cases ht with
      | fire hd => exact absurd hd (Binary64.not_le_of_lt hlt)
  | asleep hn hpool =>
    obtain ⟨rfl, rfl⟩ := (Multiset.singleton_eq_cons_iff _).1 hitems
    obtain ⟨rfl, hle⟩ := ht.of_not_cancelled hn
    exact ⟨_, _, rfl, onTrack_beginAdvance he hpool hr (hgoes.skip hle)⟩
  | woken hn hpool =>
    obtain ⟨rfl, rfl⟩ := (Multiset.singleton_eq_cons_iff _).1 hitems
    obtain ⟨rfl, -⟩ := ht.of_not_cancelled hn
    exact ⟨_, _, rfl, onTrack_beginAdvance he hpool hr (goes_resuming_iff.2 hgoes)⟩
  | completed hpool => exact absurd hitems.symm Multiset.cons_ne_zero

/-- **A worker hands back the answer.** -/
theorem exists_run_post {e : Exchange} (he : E.Entrusted w) (hw : w.work = .none)
    (hr : w.reactor.Awaits w.attempts w.clock
      {.arm ⟨w.clock + E.request.timeout, number, .expire a⟩})
    (ha : w.attempts[a]? = some ⟨E.call, number, false, true⟩)
    (hpool : Attempt.NoneInFlight (w.attempts.set a ⟨E.call, number, false, false⟩))
    (hgoes : E.Goes ⟨w, e :: script, seen⟩ .awaiting) :
    ∃ w' outcome, w.run? [.tick (w.clock + e.takes), .postAttempt a e.answer.outcome] = some w'
      ∧ E.OnTrack ⟨w', script, seen⟩ (.ready (some outcome)) := by
  obtain ⟨outcome, ho, hle, hlt, hnext⟩ := hgoes.answer
  have hready := goes_resuming_iff.1 hnext
  have hawaits : w.reactor.Awaits (w.attempts.set a ⟨E.call, number, false, false⟩)
      (w.clock + e.takes) {.arm ⟨w.clock + E.request.timeout, number, .expire a⟩} :=
    (hr.tick hle hnext.clock).congr fun command _ => Command.isOpen_set ha rfl
  obtain ⟨r, hcall, hcalled⟩ := hawaits.call (.arrive a (.ok outcome))
  have hlength := (List.getElem?_eq_some_iff.1 ha).1
  refine ⟨{ w with
      clock := w.clock + e.takes
      attempts := w.attempts.set a ⟨E.call, number, false, false⟩
      reactor := r }, outcome, ?_, hready.congr rfl rfl rfl rfl,
    .waiting ⟨he.kind, he.phase, he.task⟩ hw hcalled
      (.arrived (List.getElem?_set_self hlength) hlt hpool)⟩
  rw [Client.run?_tick hle, Client.run?_singleton, ho]
  show Client.postAttempt? _ a (.ok outcome) = _
  unfold Client.postAttempt?
  dsimp only
  rw [ha]
  dsimp only
  rw [if_pos rfl, hcall]

/-- **The time of the pause is over.** -/
theorem exists_run_elapse (he : E.Entrusted w) (hw : w.work = .none)
    (hr : w.reactor.Awaits w.attempts w.clock
      {.arm ⟨w.clock + seconds, number, .advance E.call⟩})
    (hn : number ∉ w.reactor.cancelled) (hpool : Attempt.NoneInFlight w.attempts)
    (hgoes : E.Goes ⟨w, script, seen⟩ (.asleep seconds)) :
    ∃ w', w.run? (.tick (w.clock + seconds) :: E.toPlaces.wake w.frontend.kind) = some w'
      ∧ E.OnTrack ⟨w', script, seen⟩ (.ready none) := by
  obtain ⟨hle, hfinite, hnext⟩ := hgoes.wake
  refine ⟨{ w with clock := w.clock + seconds }, ?_,
    goes_resuming_iff.1 hnext,
    .waiting ⟨he.kind, he.phase, he.task⟩ hw (hr.tick hle hfinite) (.woken hn hpool)⟩
  rw [Client.run?_tick hle, he.kind]
  rfl

/-! ## On track -/

section OnTrack

variable {scene : Scene Handler} {action : Action Handler}

/-- Of the steps that threads take, only those of the reactor are possible. -/
theorem Entrusted.byReactor (he : E.Entrusted w) (ho : E.toPlaces.IsOwn action)
    (ha : w.act? action = some w') : action.ByReactor := by
  rcases he.undriven.of_isOwn ho ha with rfl | rfl | hr
  · cases (Client.stepInvocation?_of_ended he.phase).symm.trans ha
  · cases (Client.stepTask?_of_none he.task).symm.trans ha
  · exact hr

/-- Nobody has to be woken. -/
theorem Entrusted.eq_of_run? {now : Binary64} {kind : FrontendKind} (he : E.Entrusted w)
    (ha : w.run? (.tick now :: E.toPlaces.wake kind) = some w') : w' = { w with clock := now } := by
  have hundriven : E.toPlaces.Undriven { w with clock := now } :=
    ⟨he.undriven.invocation, he.undriven.task⟩
  exact hundriven.of_wake (Client.run?_tick_eq_some ha)

/-- Only a worker can hand back an answer. -/
theorem Entrusted.exists_post {now : Binary64} {answer : Except Error Outcome} (he : E.Entrusted w)
    (ho : E.toPlaces.IsAnswer answer action) (ha : w.run? [.tick now, action] = some w') :
    ∃ a attempt, action = .postAttempt a answer ∧ w.attempts[a]? = some attempt
      ∧ attempt.inFlight = true := by
  have hundriven : E.toPlaces.Undriven { w with clock := now } :=
    ⟨he.undriven.invocation, he.undriven.task⟩
  have hact := Client.run?_tick_eq_some ha
  rw [Client.run?_singleton] at hact
  exact hundriven.of_isAnswer ho hact

/-- Who is asleep, or not: no worker is busy, unless an answer is awaited. -/
theorem Waits.noneInFlight (h : E.Waits w items point) (hp : point ≠ .awaiting) :
    Attempt.NoneInFlight w.attempts := by
  cases h with
  | inFlight ha hpool => exact absurd rfl hp
  | _ => assumption

/-- **An operation that waits in a reactor stays on its track.** -/
theorem Waits.next (h : E.Waits w items point) (he : E.Entrusted w) (hw : w.work = .none)
    (hr : w.reactor.Awaits w.attempts w.clock items) (hgoes : E.Goes ⟨w, script, seen⟩ point)
    (hn : Scene.Next E.toPlaces ⟨w, script, seen⟩ scene) : ∃ point', E.OnTrack scene point' := by
  have hquiet : ∀ {action : Action Handler}, w.pause? action = none :=
    Client.pause?_of_work (by simp [hw])
  cases hn with
  | own ho ha =>
    have hidle : ∀ {r : Reactor Job}, r.cancelled = w.reactor.cancelled →
        r.Awaits w.attempts w.clock items →
        E.OnTrack ⟨{ w with reactor := r }, script, seen⟩ point := fun hc hawaits =>
      ⟨hgoes.congr rfl rfl rfl rfl, .waiting ⟨he.kind, he.phase, he.task⟩ hw hawaits (h.react hc)⟩
    obtain rfl | rfl | rfl := he.byReactor ho ha
    · obtain ⟨r, hc, ⟨rfl, hawaits⟩ | ⟨item, rest, next, hitems, hawaits, htakes, rfl⟩⟩ :=
        Client.turn_of_stepReactor? hw hr ha
      · exact ⟨point, onTrack_of_quiet (hidle hc hawaits) rfl hquiet⟩
      · obtain ⟨job, point', rfl, htrack⟩ := h.take he hgoes hitems hawaits htakes
        exact ⟨point', onTrack_of_quiet htrack (Client.journal_beginJob _ job) hquiet⟩
    · obtain ⟨-, r, hc, rfl, hawaits⟩ := Client.poll_of_pollReactor? hr ha
      exact ⟨point, onTrack_of_quiet (hidle hc hawaits) rfl hquiet⟩
    · obtain ⟨c, hcalling⟩ :=
        Client.exists_calling_of_returnReactor? (show w.returnReactor? none = _ from ha)
      cases hw.symm.trans hcalling
  | answer hlast ho ha =>
    obtain ⟨b, attempt, rfl, hattempt, hbusy⟩ := he.exists_post ho ha
    by_cases hp : point = .awaiting
    · subst hp
      cases h with
      | @inFlight a number ha' hpool =>
        have hb : a = b := by
          by_contra hb
          rw [← List.getElem?_set_ne hb] at hattempt
          cases (hpool attempt (List.mem_of_getElem? hattempt)).symm.trans hbusy
        subst hb
        obtain ⟨rfl, -⟩ := Sighting.mk.inj (Option.some.inj (hgoes.punctual.symm.trans hlast))
        obtain ⟨v, outcome, hv, htrack⟩ := exists_run_post he hw hr ha' hpool hgoes
        obtain rfl := Option.some.inj (hv.symm.trans ha)
        exact ⟨_, htrack⟩
    · cases (h.noneInFlight hp attempt (List.mem_of_getElem? hattempt)).symm.trans hbusy
  | wake hlast ha =>
    by_cases hp : ∃ seconds, point = .asleep seconds
    · obtain ⟨s, rfl⟩ := hp
      cases h with
      | asleep hn hpool =>
        obtain ⟨rfl, hsight⟩ := Sighting.mk.inj (Option.some.inj (hgoes.punctual.symm.trans hlast))
        cases hsight
        obtain ⟨v, hv, htrack⟩ := exists_run_elapse he hw hr hn hpool hgoes
        obtain rfl := Option.some.inj (hv.symm.trans ha)
        exact ⟨_, htrack⟩
    · have hsame := he.eq_of_run? ha
      rw [hgoes.eq_of_slept (fun s hs => hp ⟨s, hs⟩) hlast] at hsame
      subst hsame
      exact ⟨point, hgoes, .waiting he hw hr h⟩

theorem Works.work_ne_none (h : E.Works w items point) : w.work ≠ .none := by
  cases h with
  | _ hw => simp [hw]

/-- **An operation for which the reactor does something stays on its track.** -/
theorem Works.next (h : E.Works w items point) (he : E.Entrusted w)
    (hr : w.reactor.Awaits w.attempts w.clock items) (hpool : Attempt.NoneInFlight w.attempts)
    (hgoes : E.Goes ⟨w, script, seen⟩ point)
    (hn : Scene.Next E.toPlaces ⟨w, script, seen⟩ scene) : ∃ point', E.OnTrack scene point' := by
  cases hn with
  | own ho ha =>
    obtain rfl | rfl | rfl := he.byReactor ho ha
    · cases h with
      | advancing hw => exact (moves_advance he hr hpool hw hgoes).onTrack ha
      | arming hw => exact (moves_arm he hr hpool hw hgoes).onTrack ha
      | submitting hw hattempt => exact (moves_submit he hr hpool hw hattempt hgoes).onTrack ha
      | pausing hw => exact (moves_pause he hr hpool hw hgoes).onTrack ha
      | calling hw =>
        have hstep : w.stepReactor? = some _ := ha
        unfold Client.stepReactor? at hstep
        rw [hw] at hstep
        cases hstep
    · exact absurd (Client.poll_of_pollReactor? hr ha).1 h.work_ne_none
    · obtain ⟨c, hcalling⟩ :=
        Client.exists_calling_of_returnReactor? (show w.returnReactor? none = _ from ha)
      cases h with
      | calling hw => exact (moves_return he hr hpool hw hgoes).onTrack ha
      | advancing hw => cases hw.symm.trans hcalling
      | arming hw => cases hw.symm.trans hcalling
      | submitting hw hattempt => cases hw.symm.trans hcalling
      | pausing hw => cases hw.symm.trans hcalling
  | answer hlast ho ha =>
    obtain ⟨a, attempt, -, hattempt, hbusy⟩ := he.exists_post ho ha
    cases (hpool attempt (List.mem_of_getElem? hattempt)).symm.trans hbusy
  | wake hlast ha =>
    have hsame := he.eq_of_run? ha
    rw [hgoes.eq_of_slept (by cases h <;> simp) hlast] at hsame
    subst hsame
    exact ⟨point, hgoes, .working he hr hpool h⟩

end OnTrack

end Errand

end Pubsub
