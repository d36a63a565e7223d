import Pubsub.Proofs.Relaying

/-!
# How actions reach the reactor

Most actions leave the reactor and its thread alone. The others hand it a job, tell it to stop, or
are what its thread does itself: it polls, makes a turn of its loop and perhaps begins a job, or
goes on with the job that it began, in the course of which it may set one timer. `Client.Stirs` says
so once, with what is known of the timer: its seconds are those of a pause that a cycle asked for,
or those that a call gives an answer. What is to be proved of the reactor of every state is proved
of these cases.
-/

namespace Pubsub

variable {Handler : Type}

namespace Client

/-- The seconds that the thread of the reactor may be about to set a timer for. -/
inductive Sets (w : Client Handler) : Binary64 → Prop where
  | pause {c : Nat} {seconds : Binary64} (hw : w.work = .pausing c seconds) : Sets w seconds
  | alarm {c : Nat} {call : Call Handler} (hw : w.work = .arming c) (hc : call ∈ w.calls) :
      Sets w call.request.timeout

/-- **What an action makes of the reactor, of what its thread is doing, and of the clock.** -/
inductive Stirs (w : Client Handler) : Action Handler → Reactor Job → Work → Binary64 → Prop where
  /-- Nothing. -/
  | aside (action : Action Handler) : Stirs w action w.reactor w.work w.clock
  | ticked {now : Binary64} (hle : w.clock.le now = true) :
      Stirs w (.tick now) w.reactor w.work now
  /-- A job is handed to the reactor. -/
  | handed (action : Action Handler) {reactor : Reactor Job} {job : Job}
      (h : w.reactor.call (.run job) = .ok reactor) : Stirs w action reactor w.work w.clock
  | stopped (action : Action Handler) : Stirs w action w.reactor.stop w.work w.clock
  | polled (hw : w.work = .none) (hp : w.reactor.phase = .polling) :
      Stirs w .pollReactor (w.reactor.poll w.clock fun _ => false) .none w.clock
  /-- The loop makes a turn, and perhaps a job is begun, which may cancel timers. -/
  | turned {reactor : Reactor Job} {next : Option Job} (hw : w.work = .none)
      (h : w.reactor.step? w.clock = some (reactor, next)) (cancelled : List Nat) {work : Work}
      (hp : ∀ c seconds, work ≠ .pausing c seconds) :
      Stirs w .stepReactor { reactor with cancelled := cancelled ++ reactor.cancelled } work w.clock
  /-- The thread goes on with a job. -/
  | worked (action : Action Handler) (hw : w.work ≠ .none) {work : Work}
      (hp : ∀ c seconds, work = .pausing c seconds → Binary64.lt 0 seconds = true) :
      Stirs w action w.reactor work w.clock
  /-- The callback that the thread runs raises an error that ends the loop. -/
  | broke {c : Nat} {e : Error} (hw : w.work = .calling c) (he : e.isException = false) :
      Stirs w (.returnReactor (some e)) { w.reactor with phase := .failed e } .none w.clock
  /-- The thread sets a timer. -/
  | armed (action : Action Handler) {seconds : Binary64} {job : Job} {timer : Timer Job}
      {reactor : Reactor Job} (hs : w.Sets seconds) (hj : ∀ a answer, job ≠ .arrive a answer)
      (h : w.reactor.schedule w.clock seconds job = .ok (timer, reactor)) {work : Work}
      (hp : ∀ c seconds, work ≠ .pausing c seconds) : Stirs w action reactor work w.clock

variable {w w' : Client Handler} {action : Action Handler}

theorem stirs_of_agreesOutside (ha : w.AgreesOutside w') :
    w.Stirs action w'.reactor w'.work w'.clock := by
  rw [ha]
  exact .aside action

theorem stirs_stepInvocation? {i : Nat} (h : w.stepInvocation? i = some w') :
    w.Stirs action w'.reactor w'.work w'.clock := by
  unfold stepInvocation? at h
  split at h
  · cases h
  · split at h
    · obtain ⟨s, -, h⟩ := Option.map_eq_some_iff.1 h
      split at h <;> subst h <;> exact .aside action
    · obtain ⟨s, -, h⟩ := Option.map_eq_some_iff.1 h
      split at h <;> subst h <;> exact .aside action
    · cases h
      unfold launchFor
      split
      · exact .aside action
      · split <;> exact .aside action
      · split
        · exact .aside action
        · rename_i reactor hr
          exact .handed action hr
    · cases h
      exact .aside action
    · cases h
      exact .aside action
    · obtain ⟨⟨w₁, drive'⟩, hd, rfl⟩ := Option.map_eq_some_iff.1 h
      have hsame : w.Stirs action _ _ _ := stirs_of_agreesOutside (agreesOutside_stepDrive? hd)
      exact hsame
    · rename_i c e _
      cases h
      have hsame : w.Stirs action _ _ _ :=
        stirs_of_agreesOutside (agreesOutside_abandonCall w c)
      exact hsame
    · cases h

theorem stirs_stepTask? {t : Nat} (h : w.stepTask? t = some w') :
    w.Stirs action w'.reactor w'.work w'.clock := by
  unfold stepTask? at h
  split at h
  · cases h
  · split at h
    · cases h
      exact .aside action
    · obtain ⟨⟨w₁, drive'⟩, hd, rfl⟩ := Option.map_eq_some_iff.1 h
      have hsame : w.Stirs action _ _ _ := stirs_of_agreesOutside (agreesOutside_stepDrive? hd)
      exact hsame

/-! ## The thread of the reactor -/

/-- While the thread works for a call, it may turn to any work for it but a pause of no time. -/
theorem stirs_of_work {u : Client Handler} (hw : w.work ≠ .none) (ha : w.AgreesOutside u)
    {work : Work}
    (hp : ∀ c seconds, work = .pausing c seconds → Binary64.lt 0 seconds = true) :
    w.Stirs action u.reactor work u.clock := by
  rw [ha]
  exact .worked action hw hp

theorem stirs_giveUpCall (hw : w.work ≠ .none) {u : Client Handler} (ha : w.AgreesOutside u)
    (c : Nat) (e : Error) :
    w.Stirs action (u.giveUpCall c e).reactor (u.giveUpCall c e).work (u.giveUpCall c e).clock := by
  have habandoned := agreesOutside_abandonCall
    (({ u with work := .none } : Client Handler).print e.describe) c
  unfold giveUpCall
  rw [habandoned, ha]
  exact .worked action hw (by rintro c seconds ⟨⟩)

theorem stirs_advanceCall (hw : w.work ≠ .none) (c : Nat) (fed : Option Outcome) :
    w.Stirs action (w.advanceCall c fed).reactor (w.advanceCall c fed).work
      (w.advanceCall c fed).clock := by
  unfold advanceCall
  split
  · exact .worked action hw (by rintro c seconds ⟨⟩)
  · rename_i w₁ hr
    obtain ⟨-, -, -, -, -, -, ha, -⟩ := resumeCall?_eq_some hr
    exact stirs_of_work hw ha (by rintro c seconds ⟨⟩)
  · rename_i w₁ seconds hr
    obtain ⟨call, s, step, -, hstep, heffect, ha, -⟩ := resumeCall?_eq_some hr
    refine stirs_of_work hw ha ?_
    rintro c seconds' ⟨⟩
    exact Cycle.pos_of_sleep hstep heffect.symm
  · rename_i w₁ e hr
    obtain ⟨-, -, -, -, -, -, ha, -⟩ := resumeCall?_eq_some hr
    exact stirs_giveUpCall hw ha c e
  · rename_i w₁ result hr
    obtain ⟨-, -, -, -, -, -, ha, -⟩ := resumeCall?_eq_some hr
    split
    · exact stirs_of_work hw ha (by rintro c seconds ⟨⟩)
    · rename_i hc
      exact stirs_of_work hw (ha.trans (agreesOutside_completeCall hc)) (by rintro c seconds ⟨⟩)
    · rename_i hc
      exact stirs_of_work hw (ha.trans (agreesOutside_completeCall hc)) (by rintro c seconds ⟨⟩)

theorem settleAttempt?_eq_some {a : Nat} {u : Client Handler} {attempt : Attempt}
    (h : w.settleAttempt? a = some (u, attempt)) :
    u.reactor = w.reactor ∧ u.work = w.work ∧ u.clock = w.clock := by
  unfold settleAttempt? at h
  split at h
  · split at h <;> cases h
    exact ⟨rfl, rfl, rfl⟩
  · cases h

/-- Beginning a job cancels timers at most. -/
theorem exists_of_beginJob (w : Client Handler) (job : Job) (hw : w.work = .none) :
    ∃ cancelled work, (∀ c seconds, work ≠ .pausing c seconds)
      ∧ (w.beginJob job).reactor
        = { w.reactor with cancelled := cancelled ++ w.reactor.cancelled }
      ∧ (w.beginJob job).work = work ∧ (w.beginJob job).clock = w.clock := by
  have hidle : ∀ c seconds, w.work ≠ .pausing c seconds := by
    rw [hw]
    rintro c seconds ⟨⟩
  cases job with
  | advance c => exact ⟨[], _, by rintro c seconds ⟨⟩, rfl, rfl, rfl⟩
  | arrive a answer =>
    unfold beginJob
    dsimp only
    split
    · rename_i u attempt hs
      obtain ⟨hr, -, hc⟩ := settleAttempt?_eq_some hs
      refine ⟨[attempt.timer], _, ?_, ?_, rfl, hc⟩
      · rintro c seconds ⟨⟩
      · rw [hr]
        rfl
    · exact ⟨[], _, hidle, rfl, rfl, rfl⟩
  | expire a =>
    unfold beginJob
    dsimp only
    split
    · rename_i u attempt hs
      obtain ⟨hr, hwork, hc⟩ := settleAttempt?_eq_some hs
      split
      · exact ⟨[], _, by rintro c seconds ⟨⟩, hr, rfl, hc⟩
      · exact ⟨[], _, by rw [hwork]; exact hidle, hr, rfl, hc⟩
    · exact ⟨[], _, hidle, rfl, rfl, rfl⟩

theorem stirs_stepReactor? (h : w.stepReactor? = some w') :
    w.Stirs .stepReactor w'.reactor w'.work w'.clock := by
  unfold stepReactor? at h
  split at h
  · rename_i c fed hwork
    cases h
    exact stirs_advanceCall (by rw [hwork]; rintro ⟨⟩) c fed
  · rename_i c seconds hwork
    cases h
    unfold pauseCall
    split
    · exact stirs_giveUpCall (by rw [hwork]; rintro ⟨⟩) (.refl w) c _
    · rename_i timer reactor hr
      exact .armed _ (.pause hwork) (by rintro a answer ⟨⟩) hr (by rintro c seconds ⟨⟩)
  · rename_i c hwork
    have hbusy : w.work ≠ .none := by rw [hwork]; rintro ⟨⟩
    cases h
    unfold armCall
    split
    · exact .worked _ hbusy (by rintro c seconds ⟨⟩)
    · rename_i call hc
      dsimp only
      split
      · exact stirs_giveUpCall hbusy (.refl w) c _
      · rename_i timer reactor hr
        exact .armed _ (.alarm hwork (List.mem_of_getElem? hc)) (by rintro a answer ⟨⟩) hr
          (by rintro c seconds ⟨⟩)
  · rename_i a hwork
    have hbusy : w.work ≠ .none := by rw [hwork]; rintro ⟨⟩
    cases h
    unfold submitAttempt
    split
    · exact .worked _ hbusy (by rintro c seconds ⟨⟩)
    · split
      · exact stirs_giveUpCall hbusy (.refl w) _ _
      · exact .worked _ hbusy (by rintro c seconds ⟨⟩)
  · cases h
  · rename_i hwork
    split at h
    · rename_i reactor job hr
      cases h
      obtain ⟨cancelled, work, hp, hreactor, hbegun, hclock⟩ :=
        exists_of_beginJob { w with reactor } job hwork
      rw [hreactor, hbegun, hclock]
      exact .turned hwork hr cancelled hp
    · rename_i reactor hr
      cases h
      exact .turned hwork hr [] (by rw [hwork]; rintro c seconds ⟨⟩)
    · cases h

theorem stirs_postAttempt? {a : Nat} {answer : Except Error Outcome}
    (h : w.postAttempt? a answer = some w') : w.Stirs action w'.reactor w'.work w'.clock := by
  unfold postAttempt? at h
  split at h
  · rename_i attempt _
    split at h
    · dsimp only at h
      split at h
      · rename_i reactor hr
        cases h
        exact .handed action hr
      · cases h
        have hsame := agreesOutside_abandonCall
          { w with attempts := w.attempts.set a { attempt with inFlight := false } } attempt.call
        rw [hsame]
        exact .aside action
    · cases h
  · cases h

theorem stirs_closeFrontend (w : Client Handler) :
    w.Stirs action w.closeFrontend.reactor w.closeFrontend.work w.closeFrontend.clock := by
  unfold closeFrontend
  dsimp only
  split
  · exact .stopped action
  · exact .aside action

theorem stirs_stepClosing? {k : Nat} (h : w.stepClosing? k = some w') :
    w.Stirs action w'.reactor w'.work w'.clock := by
  unfold stepClosing? at h
  obtain ⟨closing, -, h⟩ := Option.bind_eq_some_iff.1 h
  obtain ⟨s, -, h⟩ := Option.bind_eq_some_iff.1 h
  split at h
  · split at h
    · cases h
      exact .aside action
    · split at h <;> cases h <;> exact .aside action
  · split at h <;> cases h
    exact .aside action
  · cases h
    exact .aside action
  · cases h
    split
    · exact stirs_closeFrontend w
    · exact .aside action
  · cases h

/-- Listeners have nothing to do with the reactor. -/
theorem stirs_stepListener? {l : Nat} (h : w.stepListener? l = some w') :
    w.Stirs action w'.reactor w'.work w'.clock := by
  unfold stepListener? at h
  split at h
  · cases h
  · split at h
    · split at h <;> cases h <;> exact .aside action
    · split at h
      · cases h
        exact .aside action
      · split at h <;> cases h <;> exact .aside action
      · cases h
    · cases h
      exact .aside action
    · cases h
      exact .aside action
    · split at h <;> cases h <;> exact .aside action
    · split at h <;> cases h <;> exact .aside action
    · cases h

theorem stirs_stopListener (w : Client Handler) (receiver : String) :
    w.Stirs action (w.stopListener receiver).reactor (w.stopListener receiver).work
      (w.stopListener receiver).clock := by
  unfold stopListener
  split <;> exact .aside action

theorem stirs_startListener (w : Client Handler) (session : Nat) (channels : Json)
    (receiver : Option String) (timeout : Json) (fault : Option Error) :
    w.Stirs action (w.startListener session channels receiver timeout fault).2.reactor
      (w.startListener session channels receiver timeout fault).2.work
      (w.startListener session channels receiver timeout fault).2.clock := by
  obtain hkept | ⟨r, rfl, hstop | ⟨list, -, henlist⟩⟩ :=
    w.startListener_cases session channels receiver timeout fault
  · rw [hkept]
    exact .aside action
  · rw [hstop]
    exact stirs_stopListener w r
  · rw [henlist]
    exact stirs_stopListener w r

/-! ## Actions -/

/-- **Every action is one of the cases.** -/
theorem stirs_act? (h : w.act? action = some w') :
    w.Stirs action w'.reactor w'.work w'.clock := by
  cases action with
  | openSession options identity =>
    unfold act? at h
    dsimp only at h
    cases hopen : w.openSession options identity with
    | error e =>
      rw [hopen] at h
      cases h
    | ok w₁ =>
      rw [hopen] at h
      cases h
      unfold openSession at hopen
      split at hopen <;> cases hopen
      exact .aside _
  | changeSetting session change =>
    cases h
    rcases w.changeSetting_cases session change with hkept | ⟨s, t, -, -, heq⟩
    · rw [hkept]
      exact .aside _
    · rw [heq]
      exact .aside _
  | clearCursor session channels =>
    cases h
    unfold clearCursor
    split <;> exact .aside _
  | closeFrontend =>
    cases h
    exact stirs_closeFrontend w
  | stopReactor =>
    cases h
    exact .stopped _
  | cancelTask t =>
    unfold act? cancelTask? at h
    dsimp only at h
    split at h <;> cases h <;> exact .aside _
  | startListener session channels receiver timeout fault =>
    cases h
    exact stirs_startListener w session channels receiver timeout fault
  | stopListener receiver =>
    cases h
    exact stirs_stopListener w receiver
  | stepInvocation i => exact stirs_stepInvocation? h
  | stepTask t => exact stirs_stepTask? h
  | stepReactor => exact stirs_stepReactor? h
  | stepClosing k => exact stirs_stepClosing? h
  | stepListener l => exact stirs_stepListener? h
  | answerInvocation i answer =>
    unfold act? answerInvocation? at h
    dsimp only at h
    split at h
    · obtain ⟨_, -, rfl⟩ := Option.map_eq_some_iff.1 h
      exact .aside _
    · cases h
  | wakeInvocation i =>
    unfold act? wakeInvocation? at h
    dsimp only at h
    split at h
    · obtain ⟨_, -, rfl⟩ := Option.map_eq_some_iff.1 h
      exact .aside _
    · cases h
  | returnInvocation i raised =>
    unfold act? returnInvocation? at h
    dsimp only at h
    split at h <;> cases h <;> exact .aside _
  | answerTask t answer =>
    unfold act? answerTask? at h
    dsimp only at h
    split at h
    · obtain ⟨_, -, rfl⟩ := Option.map_eq_some_iff.1 h
      exact .aside _
    · cases h
  | wakeTask t =>
    unfold act? wakeTask? at h
    dsimp only at h
    split at h
    · obtain ⟨_, -, rfl⟩ := Option.map_eq_some_iff.1 h
      exact .aside _
    · cases h
  | returnTask t raised =>
    unfold act? returnTask? at h
    dsimp only at h
    split at h <;> cases h <;> exact .aside _
  | pollReactor =>
    unfold act? pollReactor? at h
    dsimp only at h
    split at h <;> cases h
    rename_i hwork hphase
    have hpolled : w.Stirs .pollReactor _ _ _ := .polled hwork hphase
    rw [← hwork] at hpolled
    exact hpolled
  | postAttempt a answer => exact stirs_postAttempt? h
  | returnReactor raised =>
    obtain ⟨⟨c, hwork⟩, ⟨-, rfl⟩ | ⟨e, rfl, ⟨he, rfl⟩ | ⟨he, rfl⟩⟩⟩ := returnReactor?_eq_some h
    · exact .worked _ (by rw [hwork]; rintro ⟨⟩) (by rintro c seconds ⟨⟩)
    · exact .worked _ (by rw [hwork]; rintro ⟨⟩) (by rintro c seconds ⟨⟩)
    · exact .broke hwork he
  | giveUpClosing k =>
    unfold act? giveUpClosing? at h
    obtain ⟨closing, -, h⟩ := Option.bind_eq_some_iff.1 h
    obtain ⟨s, -, h⟩ := Option.bind_eq_some_iff.1 h
    split at h
    · split at h <;> cases h
      exact .aside _
    · cases h
  | wakeListener l =>
    unfold act? wakeListener? at h
    dsimp only at h
    split at h <;> cases h
    exact .aside _
  | returnListener l raised =>
    obtain ⟨-, -, -, -, ⟨-, rfl⟩ | ⟨e, -, ⟨-, rfl⟩ | ⟨-, rfl⟩⟩⟩ := returnListener?_eq_some h
    all_goals exact .aside _
  | tick now =>
    unfold act? tick? at h
    dsimp only at h
    split at h <;> cases h
    rename_i hle
    exact .ticked hle
  | ask session operation timeout callback =>
    cases h
    exact .aside _
  | beginClose session timeout =>
    cases h
    exact .aside _
  | finishFrontend =>
    cases h
    exact .aside _
  | collect receiver =>
    cases h
    exact .aside _
  | draw vector =>
    cases h
    exact .aside _

end Client

end Pubsub
