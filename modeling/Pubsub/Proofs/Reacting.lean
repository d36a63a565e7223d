import Pubsub.Proofs.Relaying

/-!
# The moves of the reactor

What the thread of the reactor does for a call, what its loop does with jobs and timers, and what a
worker of the pool hands back: each of these is one move of the relay, and the one that
`Client.workEvent?` says it is.
-/

namespace Pubsub

variable {Handler : Type}

namespace Client

open Relay

variable {w w' w₁ : Client Handler} {clearing : Prop}

/-! ## Attempts -/

section Attempts

variable {a : Nat} {attempt : Attempt}

/-- Who awaits an attempt is the call that it was made for, and it is not settled. -/
theorem attempt_of_mem_batons {c : Nat} (h : (c, Baton.awaiting a) ∈ w.batons) :
    ∃ attempt, w.attempts[a]? = some attempt ∧ attempt.settled = false ∧ attempt.call = c := by
  have hinvocation : ∀ phase : InvocationPhase, phase.baton? ≠ some (c, .awaiting a) := by
    intro phase
    cases phase <;> simp [InvocationPhase.baton?]
  have htask : ∀ task : LoopTask, task.baton? ≠ some (c, .awaiting a) := by
    rintro ⟨d, phase⟩
    cases phase <;> simp [LoopTask.baton?]
  have hwork : ∀ work : Work, work.baton? ≠ some (c, .awaiting a) := by
    intro work
    cases work <;> simp [Work.baton?]
  have htimer : ∀ timer : Timer Job, timer.baton? ≠ some (c, .awaiting a) := by
    intro timer
    unfold Timer.baton?
    split <;> simp
  have hcommand : ∀ command : Command Job, command.baton? ≠ some (c, .awaiting a) := by
    intro command
    unfold Command.baton?
    split
    · simp
    · exact htimer _
    · simp
  rcases mem_batons_iff.1 h with
    h | ⟨v, -, h⟩ | ⟨task, -, h⟩ | ⟨command, -, h⟩ | ⟨timer, -, h⟩ | ⟨a', attempt, ha, h⟩
  · exact absurd h (hwork _)
  · exact absurd h (hinvocation _)
  · exact absurd h (htask _)
  · exact absurd h (hcommand _)
  · exact absurd h (htimer _)
  · unfold Attempt.baton? at h
    split at h
    · cases h
    · rename_i hs
      obtain ⟨hcall, hindex⟩ := Prod.mk.inj (Option.some.inj h)
      obtain rfl := Baton.awaiting.inj hindex
      exact ⟨attempt, ha, Bool.eq_false_iff.2 hs, hcall⟩

/-- The batons that stand are that of one attempt and the others, and those on their way are that
attempt and the others, whatever becomes of it. -/
theorem exists_setAttempt (ha : w.attempts[a]? = some attempt) :
    ∃ (rest : Multiset (Nat × Baton)) (others : Multiset Nat),
      w.standing = ↑(attempt.baton? a).toList + rest
      ∧ w.sent = ↑(attempt.worker? a).toList + others
      ∧ ∀ attempt' : Attempt,
          ({ w with attempts := w.attempts.set a attempt' } : Client Handler).standing
            = ↑(attempt'.baton? a).toList + rest
          ∧ ({ w with attempts := w.attempts.set a attempt' } : Client Handler).sent
            = ↑(attempt'.worker? a).toList + others := by
  obtain ⟨rest, hbefore, hafter⟩ := exists_filterMap_mapIdx_set Attempt.baton? ha
  obtain ⟨others, hbefore', hafter'⟩ := exists_filterMap_mapIdx_set Attempt.worker? ha
  refine ⟨↑(w.invocations.filterMap fun v => v.phase.baton?)
    + ↑(w.tasks.filterMap LoopTask.baton?) + w.reactor.batons + rest,
    others + w.reactor.responses, ?_, ?_, ?_⟩
  · unfold standing
    rw [hbefore]
    abel
  · unfold sent
    rw [hbefore']
    abel
  · intro attempt'
    unfold standing sent
    dsimp only
    rw [hafter attempt', hafter' attempt']
    constructor <;> abel

/-- A new attempt adds its baton, and itself if a worker is busy with it. -/
theorem standing_addAttempt (w : Client Handler) (attempt : Attempt) :
    ({ w with attempts := w.attempts ++ [attempt] } : Client Handler).standing
      = ↑(attempt.baton? w.attempts.length).toList + w.standing := by
  have hbatons := filterMap_mapIdx_concat Attempt.baton? w.attempts attempt
  unfold standing
  dsimp only
  rw [hbatons]
  abel

theorem sent_addAttempt (w : Client Handler) (attempt : Attempt) :
    ({ w with attempts := w.attempts ++ [attempt] } : Client Handler).sent
      = ↑(attempt.worker? w.attempts.length).toList + w.sent := by
  have hworkers := filterMap_mapIdx_concat Attempt.worker? w.attempts attempt
  unfold sent
  dsimp only
  rw [hworkers]
  abel

/-- The timers of the attempts stay when one of them becomes another state of itself. -/
theorem alarms_set (ha : w.attempts[a]? = some attempt) {attempt' : Attempt}
    (ht : attempt'.timer = attempt.timer) :
    (w.attempts.set a attempt').map Attempt.timer = w.attempts.map Attempt.timer := by
  rw [List.map_set, ht]
  refine set_of_getElem?_eq_some ?_
  rw [List.getElem?_map, ha]
  rfl

end Attempts

/-! ## What the thread of the reactor does for a call -/

section Work

variable {c a : Nat}

/-- The thread of the reactor turns to something else than giving an attempt to the pool. -/
theorem relay_withWork (hi : w.submitting? = none) (work : Work)
    (hn : ({ w with work } : Client Handler).submitting? = none) :
    ({ w with work } : Client Handler).relay
      = { w.relay with batons := ↑work.baton?.toList + w.standing } := by
  have hunderway : ({ w with work } : Client Handler).underway = w.underway := by
    unfold underway
    rw [hi, hn]
    rfl
  exact Relay.ext rfl rfl rfl rfl hunderway (hn.trans hi.symm) rfl rfl rfl rfl rfl

/-- What the thread of the reactor holds while it works for a call. -/
theorem batons_of_work {work : Work} {b : Baton} (hwork : w.work = work)
    (hb : work.baton? = some (c, b)) :
    w.batons = {(c, b)} + w.standing ∧ w.submitting? = none ∧ w.underway = w.sent := by
  have hi : w.submitting? = none := by
    unfold submitting?
    rw [hwork]
    cases work <;> first | rfl | cases hb
  refine ⟨?_, hi, ?_⟩
  · unfold batons
    rw [hwork, hb]
    rfl
  · unfold underway
    rw [hi]
    exact zero_add _

/-- An error that ends the work on a call settles the call, and the thread of the reactor holds
nothing any more. -/
theorem relay_giveUpCall {call : Call Handler} {s : Session} (hc : w.callOn? c = some (call, s))
    (e : Error) :
    (w.giveUpCall c e).relay
      = ({ w with work := .none } : Client Handler).relay.settle c call :=
  relay_abandonCall (w := ({ w with work := .none } : Client Handler).print e.describe) hc

/-- The session of a call exists, so the two are found together. -/
theorem exists_callOn? (hreg : w.ledger.IsRegular) {call : Call Handler}
    (hc : w.calls[c]? = some call) : ∃ s, w.callOn? c = some (call, s) := by
  have hlt := hreg.session call (List.mem_of_getElem? hc)
  exact ⟨_, callOn?_eq_some_iff.2 ⟨hc, List.getElem?_eq_getElem hlt⟩⟩

/-- The thread of the reactor gives up a call whose baton it holds. -/
theorem move_giveUpCall (hreg : w.ledger.IsRegular) (hs : w.relay.IsSound) {b : Baton}
    (hb : w.batons = {(c, b)} + w.standing) (hi : w.submitting? = none)
    (hn : b.Abandons w.reactor.stopped none) (e : Error) :
    Move clearing w.relay none (w.giveUpCall c e).relay := by
  obtain ⟨call, hcall, -⟩ := hs.exists_fits hb
  obtain ⟨s, hc⟩ := exists_callOn? hreg hcall
  rw [relay_giveUpCall hc e, relay_withWork hi .none rfl]
  exact .abandoned (r := w.relay) hb hcall hn

theorem move_advanceCall {fed : Option Outcome} (hreg : w.ledger.IsRegular)
    (hs : w.relay.IsSound) (hwork : w.work = .advancing c fed) :
    Move clearing w.relay (some (c, .resumed fed)) (w.advanceCall c fed).relay := by
  obtain ⟨hb, hi, hu⟩ := batons_of_work hwork rfl
  obtain ⟨call, hcall, hfits⟩ := hs.exists_fits hb
  obtain ⟨s, hc⟩ := exists_callOn? hreg hcall
  have hcursor : w.relay.cursors[call.session]? = some s.cursor := by
    show (w.sessions.map Session.cursor)[call.session]? = _
    rw [List.getElem?_map, (callOn?_eq_some_iff.1 hc).2]
    rfl
  -- The cycle can be resumed, because the call stands where the baton says.
  obtain ⟨step, hr⟩ : ∃ step, call.cycle.resume? s.cursor w.clock fed = some step :=
    Option.isSome_iff_exists.1 ((call.cycle.isSome_resume? s.cursor w.clock fed).trans hfits.2)
  have hmove : ∀ {settled : Bool} {next : Option Baton},
      (Baton.advancing fed).Continues step.effect call.settled settled next →
      Move clearing w.relay (some (c, .resumed fed))
        { w.relay.after c call step settled with batons := Baton.held c next + w.standing } :=
    fun hn => .resumed (r := w.relay) w.clock hb hcall hcursor .advancing hr hn
  obtain ⟨w₁, hw⟩ : ∃ w₁, w.resumeCall? c fed = some (w₁, step.effect) := by
    unfold resumeCall?
    rw [hc]
    show ∃ w₁, (call.cycle.resume? s.cursor w.clock fed).bind _ = _
    rw [hr]
    exact ⟨_, rfl⟩
  obtain ⟨call', s', step', hc', hr', -, ha, hl⟩ := resumeCall?_eq_some hw
  obtain ⟨rfl, rfl⟩ := Prod.mk.inj (Option.some.inj (hc.symm.trans hc'))
  obtain rfl := Option.some.inj (hr.symm.trans hr')
  have hrelay := relay_resumeCall? ha hl
  -- Neither the step of the cycle nor settling the call changes who else holds batons.
  have hframe : ∀ {u : Client Handler}, w.AgreesOutside u →
      u.submitting? = none ∧ u.standing = w.standing := by
    intro u hu
    rw [hu]
    exact ⟨hi, rfl⟩
  obtain ⟨hi₁, hstanding⟩ := hframe ha
  unfold advanceCall
  rw [hw]
  cases he : step.effect with
  | send =>
    show Move clearing w.relay _ ({ w₁ with work := .arming c } : Client Handler).relay
    rw [relay_withWork hi₁ _ rfl, hrelay, hstanding]
    have hn : (Baton.advancing fed).Continues step.effect call.settled call.settled
        (some .arming) := he ▸ .arming
    exact hmove hn
  | sleep seconds =>
    show Move clearing w.relay _ ({ w₁ with work := .pausing c seconds } : Client Handler).relay
    rw [relay_withWork hi₁ _ rfl, hrelay, hstanding]
    have hn : (Baton.advancing fed).Continues step.effect call.settled call.settled
        (some .pausing) := he ▸ .pausing
    exact hmove hn
  | raise e =>
    show Move clearing w.relay _ (w₁.giveUpCall c e).relay
    rw [relay_giveUpCall (callOn?_after hc hl) e, relay_withWork hi₁ .none rfl, hrelay,
      hstanding]
    show Move clearing w.relay _
      { (w.relay.after c call step call.settled).settle c (call.after step) with batons := _ }
    rw [settle_after]
    exact hmove .ended
  | finish result =>
    dsimp only
    split
    · rename_i e hcomplete
      have hsettled : call.settled = true := by
        cases hu : call.settled with
        | true => rfl
        | false =>
          obtain ⟨_, h, -⟩ := completeCall_of_unsettled (callOn?_after hc hl) hu result
          rw [h] at hcomplete
          cases hcomplete
      show Move clearing w.relay _ ({ w₁ with work := .none } : Client Handler).relay
      rw [relay_withWork hi₁ _ rfl, hrelay, hstanding, hsettled]
      exact hmove .ended
    · rename_i w₂ hcomplete
      obtain ⟨hi₂, hstanding₂⟩ := hframe (ha.trans (agreesOutside_completeCall hcomplete))
      rw [relay_withWork hi₂ _ rfl, relay_completeCall_after hc ha hl hcomplete, hstanding₂]
      exact hmove .ended
    · rename_i w₂ hcomplete
      obtain ⟨hi₂, hstanding₂⟩ := hframe (ha.trans (agreesOutside_completeCall hcomplete))
      rw [relay_withWork hi₂ _ rfl, relay_completeCall_after hc ha hl hcomplete, hstanding₂]
      exact hmove .ended

theorem move_pauseCall {seconds : Binary64} (hreg : w.ledger.IsRegular) (hs : w.relay.IsSound)
    (hwork : w.work = .pausing c seconds) :
    Move clearing w.relay (if w.reactor.stopped then none else some (c, .slept w.reactor.created))
      (w.pauseCall c seconds).relay := by
  obtain ⟨hb, hi, hu⟩ := batons_of_work hwork rfl
  unfold pauseCall
  cases hr : w.reactor.schedule w.clock seconds (.advance c) with
  | error e =>
    have hstopped := Reactor.stopped_of_schedule_eq_error hr
    rw [if_pos hstopped]
    exact move_giveUpCall hreg hs hb hi (.pausing hstopped) e
  | ok scheduled =>
    obtain ⟨timer, reactor⟩ := scheduled
    obtain ⟨hopen, htimer, hreactor⟩ := Reactor.schedule_eq_ok hr
    have hstanding := standing_enqueue w (.arm timer) true (w.reactor.created + 1)
    have hsent := sent_enqueue w (.arm timer) true (w.reactor.created + 1)
    rw [if_neg (by rw [hopen]; exact Bool.false_ne_true)]
    show Move clearing w.relay _ ({ w with reactor, work := .none } : Client Handler).relay
    have hmove : Move clearing w.relay _ _ := .slept hb
    have hnew : ({ w with reactor, work := .none } : Client Handler).relay = { w.relay with
        batons := {(c, .timed w.reactor.created)} + w.standing
        created := w.reactor.created + 1 } := by
      refine (relay_withWork (w := { w with reactor }) hi _ rfl).trans ?_
      rw [hreactor, hstanding, relay_enqueue w rfl true (w.reactor.created + 1), htimer]
      rfl
    rw [hnew]
    exact hmove

theorem move_armCall (hreg : w.ledger.IsRegular) (hs : w.relay.IsSound)
    (hwork : w.work = .arming c) :
    Move clearing w.relay
      (if w.reactor.stopped then none else some (c, .attempted w.attempts.length))
      (w.armCall c).relay := by
  obtain ⟨hb, hi, hu⟩ := batons_of_work hwork rfl
  obtain ⟨call, hcall, -⟩ := hs.exists_fits hb
  have hcall' : w.calls[c]? = some call := hcall
  unfold armCall
  rw [hcall']
  dsimp only
  cases hr : w.reactor.schedule w.clock call.request.timeout (.expire w.attempts.length) with
  | error e =>
    have hstopped := Reactor.stopped_of_schedule_eq_error hr
    rw [if_pos hstopped]
    exact move_giveUpCall hreg hs hb hi (.arming hstopped) e
  | ok scheduled =>
    obtain ⟨timer, reactor⟩ := scheduled
    obtain ⟨hopen, htimer, hreactor⟩ := Reactor.schedule_eq_ok hr
    -- First there is one more attempt, then its timer is in the queue.
    have hstanding := standing_enqueue
      { w with attempts := w.attempts ++ [⟨c, w.reactor.created, false, false⟩] } (.arm timer) true
      (w.reactor.created + 1)
    have hsent := sent_enqueue
      { w with attempts := w.attempts ++ [⟨c, w.reactor.created, false, false⟩] } (.arm timer) true
      (w.reactor.created + 1)
    rw [standing_addAttempt, htimer] at hstanding
    rw [sent_addAttempt, htimer] at hsent
    have hbatons : ({ w with
        reactor
        attempts := w.attempts ++ [⟨c, timer.number, false, false⟩]
        work := .submitting w.attempts.length } : Client Handler).batons
        = {(c, .awaiting w.attempts.length)} + w.standing := by
      rw [hreactor, htimer]
      refine (zero_add _).trans (hstanding.trans ?_)
      exact zero_add _
    have hunderway : ({ w with
        reactor
        attempts := w.attempts ++ [⟨c, timer.number, false, false⟩]
        work := .submitting w.attempts.length } : Client Handler).underway
        = {w.attempts.length} + w.underway := by
      rw [hreactor, htimer, hu]
      refine congrArg ({w.attempts.length} + ·) (hsent.trans ?_)
      exact (zero_add _).trans (zero_add _)
    have hlength : w.relay.alarms.length = w.attempts.length := List.length_map _
    have halarms : List.map Attempt.timer (w.attempts ++ [⟨c, timer.number, false, false⟩])
        = w.relay.alarms ++ [w.relay.created] := by
      rw [List.map_append, htimer]
      rfl
    have hmove : Move clearing w.relay _ _ := .attempted hi hb
    have hnew : ({ w with
        reactor
        attempts := w.attempts ++ [⟨c, timer.number, false, false⟩]
        work := .submitting w.attempts.length } : Client Handler).relay
        = { w.relay with
            batons := {(c, .awaiting w.attempts.length)} + w.standing
            underway := {w.attempts.length} + w.underway
            submitting := some w.attempts.length
            alarms := w.relay.alarms ++ [w.relay.created]
            created := w.reactor.created + 1 } := by
      refine Relay.ext rfl rfl rfl hbatons hunderway rfl halarms ?_ ?_ ?_ rfl
      all_goals
        rw [hreactor]
        rfl
    rw [hlength] at hmove
    rw [if_neg (by rw [hopen]; exact Bool.false_ne_true)]
    refine Eq.subst (motive := Move clearing w.relay _) hnew.symm ?_
    exact hmove

theorem move_submitAttempt (hreg : w.ledger.IsRegular) (hs : w.relay.IsSound)
    (hwork : w.work = .submitting a) :
    Move clearing w.relay
      (if w.frontend.poolClosed then none
        else (w.attempts[a]?).map fun attempt => (attempt.call, .submitted a))
      (w.submitAttempt a).relay := by
  have hi : w.submitting? = some a := by
    unfold submitting?
    rw [hwork]
  have hb : w.batons = w.standing := by
    unfold batons
    rw [hwork]
    exact zero_add _
  have hu : w.underway = {a} + w.sent := by
    unfold underway
    rw [hi]
    rfl
  obtain ⟨c, hc⟩ := hs.awaited.submitting hi
  obtain ⟨attempt, ha, hunsettled, rfl⟩ := attempt_of_mem_batons hc
  have ho : ∀ d, (d, Baton.awaiting a) ∈ w.batons → d = attempt.call := by
    intro d hd
    obtain ⟨attempt', ha', -, rfl⟩ := attempt_of_mem_batons hd
    rw [ha] at ha'
    rw [Option.some.inj ha']
  obtain ⟨call, hcall, -⟩ := hs.carried.fits hc
  unfold submitAttempt
  rw [ha]
  dsimp only
  split
  · rename_i hclosed
    obtain ⟨s, hcs⟩ := exists_callOn? hreg hcall
    have hidle : ({ w with work := .none } : Client Handler).relay
        = { w.relay with underway := w.sent, submitting := none } := by
      have hbatons : ({ w with work := .none } : Client Handler).batons = w.batons :=
        (zero_add _).trans hb.symm
      have hunderway : ({ w with work := .none } : Client Handler).underway = w.sent := zero_add _
      exact Relay.ext rfl rfl rfl hbatons hunderway rfl rfl rfl rfl rfl rfl
    rw [relay_giveUpCall hcs .poolShutDown, hidle]
    exact .declined (r := w.relay) hclosed hi hc ho hu hcall
  · rename_i hopen
    obtain ⟨rest, others, hstanding, hsent, hset⟩ := exists_setAttempt ha
    obtain ⟨hstanding', hsent'⟩ := hset { attempt with inFlight := true }
    -- No worker was busy with the attempt before, since it is not on its way twice.
    have hworker : attempt.worker? a = none := by
      have hunique : ({a} + w.sent).Nodup := hu ▸ hs.awaited.unique
      unfold Attempt.worker? at hsent ⊢
      split
      · rename_i hbusy
        rw [hsent, if_pos hbusy, Multiset.singleton_add, Multiset.nodup_cons] at hunique
        exact absurd (Multiset.mem_add.2 (Or.inl (Multiset.mem_singleton_self a))) hunique.1
      · rfl
    have hbatons : (({ w with
        attempts := w.attempts.set a { attempt with inFlight := true }
        work := .none } : Client Handler).record (.sent attempt.call)).batons = w.batons := by
      rw [hb, hstanding]
      exact (zero_add _).trans hstanding'
    have hunderway : (({ w with
        attempts := w.attempts.set a { attempt with inFlight := true }
        work := .none } : Client Handler).record (.sent attempt.call)).underway = w.underway := by
      rw [hu, hsent, hworker]
      refine (zero_add _).trans (hsent'.trans ?_)
      exact congrArg ({a} + ·) (zero_add others).symm
    have hmove : Move clearing w.relay _ _ := .submitted (Bool.eq_false_iff.2 hopen) hi hc
    have hnew : (({ w with
        attempts := w.attempts.set a { attempt with inFlight := true }
        work := .none } : Client Handler).record (.sent attempt.call)).relay
        = { w.relay with submitting := none } :=
      Relay.ext rfl rfl rfl hbatons hunderway rfl (alarms_set ha rfl) rfl rfl rfl rfl
    rw [hnew]
    exact hmove

end Work

/-! ## Jobs -/

section Jobs

variable {a : Nat} {attempt : Attempt}

theorem settleAttempt?_of_unsettled (ha : w.attempts[a]? = some attempt)
    (hu : attempt.settled = false) :
    w.settleAttempt? a
      = some ({ w with attempts := w.attempts.set a { attempt with settled := true } },
          attempt) := by
  unfold settleAttempt?
  rw [ha]
  dsimp only
  rw [hu]
  rfl

/-- An attempt that is settled, or that does not exist, is not settled again. -/
theorem settleAttempt?_eq_none (h : ∀ attempt, w.attempts[a]? = some attempt →
    attempt.settled = true) : w.settleAttempt? a = none := by
  unfold settleAttempt?
  split
  · rename_i attempt ha
    rw [h attempt ha]
    rfl
  · rfl

/-- Either an attempt is to be settled, or nothing is left to be done for it. -/
theorem unsettled_or_settled (w : Client Handler) (a : Nat) :
    (∃ attempt, w.attempts[a]? = some attempt ∧ attempt.settled = false)
      ∨ ∀ attempt, w.attempts[a]? = some attempt → attempt.settled = true := by
  cases ha : w.attempts[a]? with
  | none => exact Or.inr (by rintro _ ⟨⟩)
  | some attempt =>
    cases hu : attempt.settled with
    | false => exact Or.inl ⟨attempt, rfl, hu⟩
    | true =>
      refine Or.inr ?_
      rintro _ ⟨⟩
      exact hu

theorem unsettled?_eq_some (ha : w.attempts[a]? = some attempt) (hu : attempt.settled = false) :
    w.unsettled? a = some attempt := by
  unfold unsettled?
  rw [ha]
  simp [hu]

theorem unsettled?_eq_none (h : ∀ attempt, w.attempts[a]? = some attempt →
    attempt.settled = true) : w.unsettled? a = none := by
  unfold unsettled?
  cases ha : w.attempts[a]? with
  | none => rfl
  | some attempt => simp [h attempt ha]

/-- Nobody awaits an attempt for which nothing is left to be done. -/
theorem not_mem_batons_of_settled (h : ∀ attempt, w.attempts[a]? = some attempt →
    attempt.settled = true) (d : Nat) : (d, Baton.awaiting a) ∉ w.batons := by
  intro hd
  obtain ⟨attempt, ha, hu, -⟩ := attempt_of_mem_batons hd
  rw [h attempt ha] at hu
  cases hu

/-- What the thread of the reactor holds while it has nothing to do. -/
theorem of_idle (hwork : w.work = .none) :
    w.submitting? = none ∧ w.batons = w.standing ∧ w.underway = w.sent := by
  have hi : w.submitting? = none := by
    unfold submitting?
    rw [hwork]
  refine ⟨hi, ?_, ?_⟩
  · unfold batons
    rw [hwork]
    exact zero_add _
  · unfold underway
    rw [hi]
    exact zero_add _

/-- Settling an attempt puts its call into the hands of the reactor. -/
theorem exists_settled (hwork : w.work = .none) (ha : w.attempts[a]? = some attempt)
    (hu : attempt.settled = false) :
    ∃ rest, w.batons = {(attempt.call, .awaiting a)} + rest ∧ (∀ d, (d, .awaiting a) ∉ rest)
      ∧ ∀ fed, ({ w with
            attempts := w.attempts.set a { attempt with settled := true }
            work := .advancing attempt.call fed } : Client Handler).relay
          = { w.relay with batons := {(attempt.call, .advancing fed)} + rest } := by
  obtain ⟨rest, others, hstanding, hsent, hset⟩ := exists_setAttempt ha
  obtain ⟨hstanding', hsent'⟩ := hset { attempt with settled := true }
  obtain ⟨hi, hidle, hunderway⟩ := of_idle hwork
  have hbefore : attempt.baton? a = some (attempt.call, .awaiting a) := by
    unfold Attempt.baton?
    rw [hu]
    rfl
  rw [hbefore] at hstanding
  have hrest : ({ w with attempts := w.attempts.set a { attempt with settled := true } } :
      Client Handler).standing = rest := hstanding'.trans (zero_add rest)
  refine ⟨rest, hidle.trans hstanding, ?_, ?_⟩
  · -- Whoever awaits the attempt still does so after it was settled, which nobody does.
    intro d hd
    refine not_mem_batons_of_settled (a := a)
      (w := { w with attempts := w.attempts.set a { attempt with settled := true } }) ?_ d ?_
    · intro attempt' ha'
      rw [List.getElem?_set_self (List.getElem?_eq_some_iff.1 ha).1] at ha'
      rw [← Option.some.inj ha']
    · unfold batons
      rw [hrest]
      exact Multiset.mem_add.2 (Or.inr hd)
  · intro fed
    refine Relay.ext rfl rfl rfl ?_ ?_ hi.symm (alarms_set ha rfl) rfl rfl rfl rfl
    · exact congrArg ({(attempt.call, Baton.advancing fed)} + ·) hrest
    · exact (zero_add _).trans (hsent'.trans (hsent.symm.trans hunderway.symm))

/-- The reactor takes up a call that was in its queue or waited for a timer. -/
theorem move_beginAdvance {c : Nat} {b : Baton} {event : CallEvent} (hwork : w.work = .none)
    (hb : w₁.batons = {(c, b)} + w.batons) (hw : w₁.relay = { w.relay with batons := w₁.batons })
    (hpass : b.Passes w.frontend.kind (some event) (.advancing none)) :
    Move clearing w₁.relay (some (c, event)) (w.beginJob (.advance c)).relay := by
  obtain ⟨hi, hidle, -⟩ := of_idle hwork
  have hkind : w₁.relay.kind = w.frontend.kind := by
    rw [hw]
    rfl
  have hmove : Move clearing w₁.relay _ _ := .passed hb (hkind ▸ hpass)
  have hnew : (w.beginJob (.advance c)).relay
      = { w₁.relay with batons := {(c, .advancing none)} + w.batons } := by
    show ({ w with work := .advancing c none } : Client Handler).relay = _
    rw [relay_withWork hi _ rfl, hw, hidle]
    rfl
  rw [hnew]
  exact hmove

/-- The reactor ends an attempt that took too long, if it is not settled. -/
theorem move_beginExpire (hs : w.relay.IsSound) (hwork : w.work = .none) (a : Nat) :
    Move clearing w.relay (w.jobEvent? (.expire a)) (w.beginJob (.expire a)).relay := by
  unfold jobEvent? beginJob
  dsimp only
  rcases unsettled_or_settled w a with ⟨attempt, ha, hu⟩ | hsettled
  · obtain ⟨rest, hb, ho, hnew⟩ := exists_settled hwork ha hu
    obtain ⟨call, hcall, -⟩ := hs.exists_fits hb
    have hcall' : w.calls[attempt.call]? = some call := hcall
    obtain ⟨hi, -, -⟩ := of_idle hwork
    rw [settleAttempt?_of_unsettled ha hu, unsettled?_eq_some ha hu]
    show Move clearing w.relay ((w.calls[attempt.call]?).bind _) _
    dsimp only
    rw [hcall']
    refine Eq.subst (motive := Move clearing w.relay _) (hnew _).symm ?_
    exact .expired (r := w.relay) hi hb ho (by rintro status content ⟨⟩)
  · rw [settleAttempt?_eq_none hsettled, unsettled?_eq_none hsettled]
    exact move_of_relay_eq rfl

/-- The reactor takes a response, if it does not come too late. -/
theorem move_beginArrive (hwork : w.work = .none) {a : Nat} (hu : w₁.underway = {a} + w.underway)
    (hw : w₁.relay = { w.relay with underway := w₁.underway })
    (answer : Except Error Outcome) :
    Move clearing w₁.relay (w.jobEvent? (.arrive a answer))
      (w.beginJob (.arrive a answer)).relay := by
  obtain ⟨hi, -, -⟩ := of_idle hwork
  have hi₁ : w₁.relay.submitting = none := by
    rw [hw]
    exact hi
  have hb₁ : w₁.batons = w.batons := congrArg Relay.batons hw
  unfold jobEvent? beginJob
  dsimp only
  rcases unsettled_or_settled w a with ⟨attempt, ha, hunsettled⟩ | hsettled
  · obtain ⟨rest, hb, ho, hnew⟩ := exists_settled hwork ha hunsettled
    have halarm : w₁.relay.alarms[a]? = some attempt.timer := by
      rw [hw]
      show (w.attempts.map Attempt.timer)[a]? = _
      rw [List.getElem?_map, ha]
      rfl
    have hmove : Move clearing w₁.relay
        (some (attempt.call, .arrived a (arrivedOutcome answer))) _ :=
      .arrived hi₁ (hb₁.trans hb) ho hu halarm
    rw [settleAttempt?_of_unsettled ha hunsettled, unsettled?_eq_some ha hunsettled]
    dsimp only
    have hcancel : ({ w with
        attempts := w.attempts.set a { attempt with settled := true }
        reactor := w.reactor.cancel attempt.timer
        work := .advancing attempt.call (some (arrivedOutcome answer)) } : Client Handler).relay
        = { w₁.relay with
            batons := {(attempt.call, .advancing (some (arrivedOutcome answer)))} + rest
            underway := w.underway
            cancelled := attempt.timer :: w₁.relay.cancelled } := by
      rw [hw]
      exact congrArg (fun r : Relay Handler =>
        { r with cancelled := attempt.timer :: w.reactor.cancelled }) (hnew _)
    refine Eq.subst (motive := Move clearing w₁.relay _) hcancel.symm ?_
    exact hmove
  · rw [settleAttempt?_eq_none hsettled, unsettled?_eq_none hsettled]
    have hmove : Move clearing w₁.relay none _ :=
      .dropped (fun d hd => not_mem_batons_of_settled hsettled d (hb₁ ▸ hd)) hu
    have hnew : w.relay = { w₁.relay with underway := w.underway } := by
      rw [hw]
      rfl
    refine Eq.subst (motive := Move clearing w₁.relay _) hnew.symm ?_
    exact hmove

end Jobs

/-! ## The loop of the reactor -/

/-- What else is true of a reactor and its thread: responses come through the queue and not by
timers, no socket is readable, and the thread does nothing once the loop is over. -/
structure IsOrderly (reactor : Reactor Job) (work : Work) : Prop where
  queue : ∀ {timer : Timer Job}, Command.arm timer ∈ reactor.queue →
    ∀ a answer, timer.job ≠ .arrive a answer
  timers : ∀ {timer : Timer Job}, timer ∈ reactor.timers → ∀ a answer, timer.job ≠ .arrive a answer
  reading : ∀ sockets, reactor.phase = .reading sockets → sockets = []
  ended : reactor.phase = .ended → work = .none
  failed : ∀ e, reactor.phase = .failed e → work = .none

/-- The reactor of a state may be replaced by one in another phase, with other sockets, that holds
the same jobs and timers. -/
theorem relay_withReactor {reactor : Reactor Job} (hb : reactor.batons = w.reactor.batons)
    (hr : reactor.responses = w.reactor.responses) (hc : reactor.created = w.reactor.created)
    (hx : reactor.cancelled = w.reactor.cancelled) (hs : reactor.stopped = w.reactor.stopped) :
    ({ w with reactor } : Client Handler).relay = w.relay := by
  refine Relay.ext rfl rfl rfl ?_ ?_ rfl rfl hc hx hs rfl
  · show ({ w with reactor } : Client Handler).batons = w.batons
    unfold batons standing
    rw [hb]
  · show ({ w with reactor } : Client Handler).underway = w.underway
    unfold underway sent
    rw [hr]
    rfl

/-- What a reactor gives away is taken from the state. -/
theorem batons_withReactor {reactor : Reactor Job} {taken : Multiset (Nat × Baton)}
    (h : w.reactor.batons = taken + reactor.batons) :
    w.batons = taken + ({ w with reactor } : Client Handler).batons := by
  refine batons_of_standing (by rfl) ?_
  unfold standing
  dsimp only
  rw [h]
  abel

theorem underway_withReactor {reactor : Reactor Job} {taken : Multiset Nat}
    (h : w.reactor.responses = taken + reactor.responses) :
    w.underway = taken + ({ w with reactor } : Client Handler).underway := by
  refine underway_of_sent (by rfl) ?_
  unfold sent
  rw [h]
  exact add_left_comm _ _ _

/-- A step of the loop is a move, and so is beginning the job that it takes up. -/
theorem move_turn (hs : w.relay.IsSound) (ho : IsOrderly w.reactor w.work) (hwork : w.work = .none)
    {reactor : Reactor Job} {next : Option Job} (h : w.reactor.Turns reactor next) :
    Move clearing w.relay (next.bind fun job => w.jobEvent? job)
      (match next with
        | some job => ({ w with reactor } : Client Handler).beginJob job
        | none => { w with reactor }).relay := by
  cases h with
  | onward phase _ _ _ => exact move_of_relay_eq (relay_withReactor rfl rfl rfl rfl rfl)
  | @armed timer rest hq =>
    have hbefore := Reactor.batons_dequeue hq
    have hafter := Reactor.batons_push { w.reactor with queue := rest } timer
    have hresponses := Reactor.responses_dequeue hq
    refine move_of_relay_eq (relay_withReactor (hafter.trans hbefore.symm) ?_ rfl rfl rfl)
    exact ((zero_add _).symm.trans hresponses.symm)
  | @watched command rest hq hrun harm sockets =>
    have hnone : command.baton? = none ∧ command.response? = none := by
      cases command with
      | run job => exact absurd rfl (hrun job)
      | arm timer => exact absurd rfl (harm timer)
      | watch socket job => exact ⟨rfl, rfl⟩
      | unwatch socket => exact ⟨rfl, rfl⟩
    have hbatons := Reactor.batons_dequeue hq
    have hresponses := Reactor.responses_dequeue hq
    rw [hnone.1] at hbatons
    rw [hnone.2] at hresponses
    exact move_of_relay_eq (relay_withReactor ((zero_add _).symm.trans hbatons.symm)
      ((zero_add _).symm.trans hresponses.symm) rfl rfl rfl)
  | @ran job rest hring hq =>
    have hbatons := Reactor.batons_dequeue hq
    have hresponses := Reactor.responses_dequeue hq
    cases job with
    | advance c =>
      have hb := batons_withReactor hbatons
      have hu := (underway_withReactor hresponses).trans (zero_add _)
      have hevent : w.jobEvent? (.advance c) = some (c, .started) := by
        unfold jobEvent?
        rw [hring]
      show Move clearing w.relay (w.jobEvent? (.advance c)) _
      rw [hevent]
      exact move_beginAdvance hwork hb
        (Relay.ext rfl rfl rfl rfl hu rfl rfl rfl rfl rfl rfl) .started
    | arrive a answer =>
      have hb := (batons_withReactor hbatons).trans (zero_add _)
      have hu := underway_withReactor hresponses
      exact move_beginArrive (w := { w with reactor := { w.reactor with queue := rest } }) hwork hu
        (Relay.ext rfl rfl rfl hb rfl rfl rfl rfl rfl rfl rfl) answer
    | expire a =>
      have hsame : ({ w with reactor := { w.reactor with queue := rest } } : Client Handler).relay
          = w.relay := relay_withReactor
        ((zero_add _).symm.trans hbatons.symm) ((zero_add _).symm.trans hresponses.symm) rfl rfl rfl
      have hmove : Move clearing _ _ _ := move_beginExpire
        (w := { w with reactor := { w.reactor with queue := rest } }) (hsame ▸ hs) hwork a
      rw [hsame] at hmove
      exact hmove
  | @fired timer rest hring ht hc =>
    have hbatons := Reactor.batons_fire ht
    unfold Timer.baton? at hbatons
    show Move clearing w.relay (w.jobEvent? timer.job) (beginJob _ timer.job).relay
    cases hjob : timer.job with
    | advance c =>
      rw [hjob] at hbatons
      have hb := batons_withReactor hbatons
      have hevent : w.jobEvent? (.advance c) = some (c, .woken timer.number) := by
        unfold jobEvent?
        rw [hring]
      rw [hevent]
      exact move_beginAdvance hwork hb
        (Relay.ext rfl rfl rfl rfl rfl rfl rfl rfl rfl rfl rfl) .woken
    | arrive a answer =>
      exact absurd hjob (ho.timers (ht.mem_iff.2 List.mem_cons_self) a answer)
    | expire a =>
      rw [hjob] at hbatons
      have hsame : ({ w with reactor := { w.reactor with timers := rest } } : Client Handler).relay
          = w.relay := relay_withReactor
        ((zero_add _).symm.trans hbatons.symm) rfl rfl rfl rfl
      have hmove : Move clearing _ _ _ := move_beginExpire
        (w := { w with reactor := { w.reactor with timers := rest } }) (hsame ▸ hs) hwork a
      rw [hsame] at hmove
      exact hmove
  | @dropped timer rest ht hc =>
    have hbatons := Reactor.batons_fire ht
    have hnone : timer.baton? = none := by
      cases hb : timer.baton? with
      | none => rfl
      | some held =>
        -- Only the timers of attempts are cancelled, and this one is the timer of a wait.
        rw [hb] at hbatons
        have hheld := batons_withReactor hbatons
        unfold Timer.baton? at hb
        split at hb <;> cases hb
        obtain ⟨-, halarm⟩ := hs.timed.wait
          (hheld ▸ Multiset.mem_add.2 (Or.inl (Multiset.mem_singleton_self _)))
        exact absurd (hs.timed.cancel hc) halarm
    rw [hnone] at hbatons
    exact move_of_relay_eq
      (relay_withReactor ((zero_add _).symm.trans hbatons.symm) rfl rfl rfl rfl)

/-- While the thread of the reactor has nothing to do, the event is that of the job it takes up. -/
theorem workEvent?_of_idle (hwork : w.work = .none) {reactor : Reactor Job} {next : Option Job}
    (hr : w.reactor.step? w.clock = some (reactor, next)) :
    w.workEvent? = next.bind fun job => w.jobEvent? job := by
  unfold workEvent?
  rw [hwork]
  dsimp only
  rw [hr]
  cases next <;> rfl

theorem move_stepReactor? (hreg : w.ledger.IsRegular) (hs : w.relay.IsSound)
    (ho : IsOrderly w.reactor w.work) (h : w.stepReactor? = some w') :
    Move clearing w.relay w.workEvent? w'.relay := by
  unfold stepReactor? at h
  split at h
  · rename_i c fed hwork
    cases h
    have hevent : w.workEvent?
        = some (c, .resumed fed) := by
      unfold workEvent?
      rw [hwork]
    rw [hevent]
    exact move_advanceCall hreg hs hwork
  · rename_i c seconds hwork
    cases h
    have hevent : w.workEvent?
        = if w.reactor.stopped then none else some (c, .slept w.reactor.created) := by
      unfold workEvent?
      rw [hwork]
    rw [hevent]
    exact move_pauseCall hreg hs hwork
  · rename_i c hwork
    cases h
    have hevent : w.workEvent?
        = if w.reactor.stopped then none else some (c, .attempted w.attempts.length) := by
      unfold workEvent?
      rw [hwork]
    rw [hevent]
    exact move_armCall hreg hs hwork
  · rename_i a hwork
    cases h
    have hevent : w.workEvent?
        = if w.frontend.poolClosed then none
        else (w.attempts[a]?).map fun attempt => (attempt.call, .submitted a) := by
      unfold workEvent?
      rw [hwork]
    rw [hevent]
    exact move_submitAttempt hreg hs hwork
  · cases h
  · rename_i hwork
    split at h
    · rename_i reactor job hr
      cases h
      rw [workEvent?_of_idle hwork hr]
      exact move_turn hs ho hwork (Reactor.turns_of_step? ho.reading hr)
    · rename_i reactor hr
      cases h
      rw [workEvent?_of_idle hwork hr]
      exact move_turn hs ho hwork (Reactor.turns_of_step? ho.reading hr)
    · cases h

/-- The callback on the reactor is over. -/
theorem move_returnReactor? {raised : Option Error} (h : w.returnReactor? raised = some w') :
    Move clearing w.relay none w'.relay := by
  have hidle : ∀ c, w.work = .calling c →
      ({ w with work := .none } : Client Handler).relay = w.relay := by
    intro c hwork
    have hi : w.submitting? = none := by
      unfold submitting?
      rw [hwork]
    rw [relay_withWork hi _ rfl]
    refine Relay.ext rfl rfl rfl ?_ rfl rfl rfl rfl rfl rfl rfl
    show _ = w.batons
    unfold batons
    rw [hwork]
    rfl
  obtain ⟨⟨c, hwork⟩, ⟨-, rfl⟩ | ⟨e, -, ⟨-, rfl⟩ | ⟨-, rfl⟩⟩⟩ := returnReactor?_eq_some h
  · exact move_of_relay_eq (hidle c hwork)
  · exact move_of_relay_eq (hidle c hwork)
  · exact move_of_relay_eq (hidle c hwork)

theorem move_pollReactor? (h : w.pollReactor? = some w') : Move clearing w.relay none w'.relay := by
  unfold pollReactor? at h
  split at h <;> cases h
  refine move_of_relay_eq ?_
  unfold Reactor.poll
  split
  · split
    · exact relay_withReactor rfl rfl rfl rfl rfl
    · split <;> exact relay_withReactor rfl rfl rfl rfl rfl
  · rfl

/-- The client when a worker is done with an attempt, before the response goes anywhere. -/
def land (w : Client Handler) (a : Nat) (attempt : Attempt) : Client Handler :=
  { w with attempts := w.attempts.set a { attempt with inFlight := false } }

/-- An attempt that a worker is done with is taken from those on their way, and the batons stay
where they are. -/
theorem relay_land {a : Nat} {attempt : Attempt} (ha : w.attempts[a]? = some attempt)
    (hbusy : attempt.inFlight = true) :
    w.underway = {a} + (w.land a attempt).underway
      ∧ (w.land a attempt).relay
        = { w.relay with underway := (w.land a attempt).underway } := by
  obtain ⟨rest, others, hstanding, hsent, hset⟩ := exists_setAttempt ha
  obtain ⟨hstanding', hsent'⟩ := hset { attempt with inFlight := false }
  have hworker : attempt.worker? a = some a := by
    unfold Attempt.worker?
    rw [if_pos hbusy]
  rw [hworker] at hsent
  have hothers : (w.land a attempt).sent = others := hsent'.trans (zero_add others)
  have hbatons : w.batons = (w.land a attempt).batons :=
    (batons_of_standing (by rfl) ((hstanding.trans hstanding'.symm).trans
      (zero_add _).symm)).trans (zero_add _)
  refine ⟨underway_of_sent (by rfl) (hsent.trans (congrArg ({a} + ·) hothers.symm)), ?_⟩
  exact Relay.ext rfl rfl rfl hbatons.symm rfl rfl (alarms_set ha rfl) rfl rfl rfl rfl

/-- A worker is done: its response is in the queue, or it is refused and the call abandoned. -/
theorem move_postAttempt? {a : Nat} {answer : Except Error Outcome} (hreg : w.ledger.IsRegular)
    (hs : w.relay.IsSound) (h : w.postAttempt? a answer = some w') :
    Move clearing w.relay none w'.relay := by
  unfold postAttempt? at h
  cases ha : w.attempts[a]? with
  | none =>
    rw [ha] at h
    cases h
  | some attempt =>
    rw [ha] at h
    dsimp only at h
    split at h
    · rename_i hbusy
      obtain ⟨hunderway, hrelay⟩ := relay_land ha hbusy
      split at h
      · rename_i reactor hr
        cases h
        obtain ⟨-, hreactor⟩ := Reactor.call_eq_ok hr
        have hbatons := batons_enqueue (w.land a attempt) (.run (.arrive a answer)) true
          w.reactor.created
        have hqueued := underway_enqueue (w.land a attempt) (.run (.arrive a answer)) true
          w.reactor.created
        have hkept : (w.land a attempt).batons = w.batons := congrArg Relay.batons hrelay
        rw [hreactor]
        refine move_of_relay_eq
          (Relay.ext rfl rfl rfl ?_ ?_ rfl (alarms_set ha rfl) rfl rfl rfl rfl)
        · exact hbatons.trans ((zero_add _).trans hkept)
        · exact hqueued.trans hunderway.symm
      · rename_i e hr
        cases h
        show Move clearing w.relay none ((w.land a attempt).abandonCall attempt.call).relay
        have hstopped := Reactor.stopped_of_call_eq_error hr
        have howner : ∀ d, (d, Baton.awaiting a) ∈ w.batons → d = attempt.call := by
          intro d hd
          obtain ⟨attempt', ha', -, rfl⟩ := attempt_of_mem_batons hd
          rw [ha] at ha'
          rw [Option.some.inj ha']
        cases hcall : w.calls[attempt.call]? with
        | some call =>
          obtain ⟨s, hc⟩ := exists_callOn? hreg hcall
          rw [relay_abandonCall (w := w.land a attempt) hc, hrelay]
          exact .refused (r := w.relay) hstopped howner hunderway hcall
        | none =>
          -- If the attempt belonged to no call, nobody would await it.
          have hcallOn : (w.land a attempt).callOn? attempt.call = none := by
            show (w.calls[attempt.call]?).bind _ = none
            rw [hcall]
            rfl
          have hsame : (w.land a attempt).abandonCall attempt.call = w.land a attempt := by
            unfold abandonCall
            rw [hcallOn]
          have hnobody : ∀ d, (d, Baton.awaiting a) ∉ w.batons := by
            intro d hd
            obtain ⟨call, hcall', -⟩ := hs.carried.fits hd
            rw [howner d hd] at hcall'
            cases (show w.calls[attempt.call]? = some call from hcall').symm.trans hcall
          rw [hsame, hrelay]
          exact .dropped (r := w.relay) hnobody hunderway
    · cases h

end Client

end Pubsub
