import Pubsub.Proofs.Hands

/-!
# Driven by a thread or a task

As long as an operation is in the hands of a thread or of a task, one step takes it on, or it waits
for an answer or for the end of a pause. Whatever else can happen is a turn of a reactor that is at
rest. So the operation stays on its track (`Passes.next`, `next_of_holds`).
-/

namespace Pubsub

variable {Handler : Type}

/-! ## Seats -/

namespace Seat

variable {p : Places} {w w' : Client Handler} {seat : Seat} {drive : Drive}
  {outcome : Except Error Outcome} {action : Action Handler}

theorem Holds.put (h : seat.Holds p w drive) (drive' : Drive) :
    seat.Holds p (seat.put p w drive') drive' := by
  cases seat with
  | thread =>
    obtain ⟨hk, hp, ht⟩ := h
    obtain ⟨v, hv, -⟩ := Option.map_eq_some_iff.1 hp
    exact ⟨hk, Client.invocationPhase?_setInvocation hv _, ht⟩
  | task =>
    obtain ⟨hk, hp, ht⟩ := h
    refine ⟨hk, hp, ?_⟩
    show (w.tasks.modify p.task fun task => { task with phase := .running drive' })[p.task]? = _
    rw [List.getElem?_modify, ht]
    simp

theorem Holds.of_agreesOutside (h : seat.Holds p w drive) (ha : w.AgreesOutside w') :
    seat.Holds p w' drive := by
  rw [ha]
  cases seat <;> exact h

theorem Holds.tick (h : seat.Holds p w drive) (now : Binary64) :
    seat.Holds p { w with clock := now } drive := by
  cases seat <;> exact h

theorem isOwn_step (p : Places) (seat : Seat) : p.IsOwn (seat.step p : Action Handler) := by
  cases seat
  · exact .invocation
  · exact .task

theorem isOwn_back (p : Places) (seat : Seat) : p.IsOwn (seat.back p : Action Handler) := by
  cases seat
  · exact .invocationReturns
  · exact .taskReturns

theorem isAnswer_answer (p : Places) (outcome : Except Error Outcome) (seat : Seat) :
    p.IsAnswer outcome (seat.answer p outcome : Action Handler) := by
  cases seat
  · exact .invocation
  · exact .task

theorem step_ne_stepReactor (p : Places) (seat : Seat) :
    (seat.step p : Action Handler) ≠ .stepReactor := by
  cases seat <;> simp [Seat.step]

/-- A drive that has not ended takes its step. -/
theorem Holds.act?_step (h : seat.Holds p w drive) (hf : ∀ result, drive ≠ .finished result)
    (he : ∀ e, drive ≠ .failed e) :
    w.act? (seat.step p)
      = (w.stepDrive? p.call drive).map fun next => seat.put p next.1 next.2 := by
  cases seat with
  | thread =>
    obtain ⟨-, hp, -⟩ := h
    obtain ⟨v, hv, hphase⟩ := Option.map_eq_some_iff.1 hp
    show w.stepInvocation? p.invocation = _
    unfold Client.stepInvocation?
    rw [hv]
    dsimp only
    rw [hphase]
    cases drive with
    | finished result => exact absurd rfl (hf result)
    | failed e => exact absurd rfl (he e)
    | _ => rfl
  | task =>
    obtain ⟨-, -, ht⟩ := h
    show w.stepTask? p.task = _
    unfold Client.stepTask?
    rw [ht]
    rfl

/-- A thread whose call is finished goes on with the result. A task has ended with it. -/
theorem Holds.act?_step_finished {result : Result} (h : seat.Holds p w (.finished result)) :
    w.act? (seat.step p) = match seat with
      | .thread => some (w.setInvocation p.invocation (.ended (.ok (.result result))))
      | .task => none := by
  cases seat with
  | thread =>
    obtain ⟨v, hv, hphase⟩ := Option.map_eq_some_iff.1 h.2.1
    show w.stepInvocation? p.invocation = _
    unfold Client.stepInvocation?
    rw [hv]
    dsimp only
    rw [hphase]
  | task =>
    show w.stepTask? p.task = _
    unfold Client.stepTask?
    rw [h.2.2]
    rfl

theorem Holds.act?_answer (h : seat.Holds p w drive) :
    w.act? (seat.answer p outcome) = (drive.answer? outcome).map (seat.put p w ·) := by
  cases seat with
  | thread =>
    show w.answerInvocation? p.invocation outcome = _
    unfold Client.answerInvocation?
    rw [h.2.1]
    rfl
  | task =>
    show w.answerTask? p.task outcome = _
    unfold Client.answerTask?
    rw [Client.taskPhase?_of_some h.2.2]
    rfl

theorem Holds.act?_wake (h : seat.Holds p w drive) :
    w.act? (seat.wake p) = drive.wake?.map (seat.put p w ·) := by
  cases seat with
  | thread =>
    show w.wakeInvocation? p.invocation = _
    unfold Client.wakeInvocation?
    rw [h.2.1]
    rfl
  | task =>
    show w.wakeTask? p.task = _
    unfold Client.wakeTask?
    rw [Client.taskPhase?_of_some h.2.2]
    rfl

theorem Holds.act?_back (h : seat.Holds p w drive) :
    w.act? (seat.back p) = drive.back?.map (seat.put p w ·) := by
  cases seat with
  | thread =>
    show w.returnInvocation? p.invocation none = _
    unfold Client.returnInvocation?
    rw [h.2.1]
    cases drive <;> rfl
  | task =>
    show w.returnTask? p.task none = _
    unfold Client.returnTask?
    rw [Client.taskPhase?_of_some h.2.2]
    cases drive <;> rfl

theorem Holds.invocationPhase?_of_task (h : task.Holds p w drive) {c : Nat} {drive' : Drive} :
    w.invocationPhase? p.invocation ≠ some (.driving c drive') := by
  rw [h.2.1]
  simp

/-- Of the steps that threads take, the drive takes its own, and its callback returns. -/
theorem Holds.of_isOwn (h : seat.Holds p w drive) (ho : p.IsOwn action)
    (ha : w.act? action = some w') :
    action = seat.step p ∨ action = seat.back p ∨ action.ByReactor := by
  cases ho with
  | reactor => exact .inr (.inr (.inl rfl))
  | reactorPolls => exact .inr (.inr (.inr (.inl rfl)))
  | reactorReturns => exact .inr (.inr (.inr (.inr rfl)))
  | invocation =>
    cases seat with
    | thread => exact .inl rfl
    | task => cases (Client.stepInvocation?_of_ended h.2.1).symm.trans ha
  | invocationReturns =>
    cases seat with
    | thread => exact .inr (.inl rfl)
    | task =>
      obtain ⟨c, drive', hdriving⟩ := Client.exists_driving_of_returnInvocation? ha
      exact absurd hdriving h.invocationPhase?_of_task
  | task =>
    cases seat with
    | thread => cases (Client.stepTask?_of_none h.2.2).symm.trans ha
    | task => exact .inl rfl
  | taskReturns =>
    cases seat with
    | thread =>
      obtain ⟨drive', hrunning⟩ := Client.exists_running_of_returnTask? ha
      cases (Client.taskPhase?_of_none h.2.2).symm.trans hrunning
    | task => exact .inr (.inl rfl)

/-- An answer comes to the drive if no worker of a pool is busy. -/
theorem Holds.of_isAnswer (h : seat.Holds p w drive) (hpool : Attempt.NoneInFlight w.attempts)
    (ho : p.IsAnswer outcome action) (ha : w.act? action = some w') :
    action = seat.answer p outcome := by
  cases ho with
  | invocation =>
    cases seat with
    | thread => rfl
    | task =>
      obtain ⟨c, drive', hdriving⟩ := Client.exists_driving_of_answerInvocation? ha
      exact absurd hdriving h.invocationPhase?_of_task
  | task =>
    cases seat with
    | thread =>
      obtain ⟨drive', hrunning⟩ := Client.exists_running_of_answerTask? ha
      cases (Client.taskPhase?_of_none h.2.2).symm.trans hrunning
    | task => rfl
  | attempt a =>
    obtain ⟨attempt, hattempt, hbusy⟩ := Client.exists_inFlight_of_postAttempt? ha
    cases (hpool attempt (List.mem_of_getElem? hattempt)).symm.trans hbusy

theorem Holds.wake_eq (h : seat.Holds p w drive) :
    (p.wake w.frontend.kind : List (Action Handler)) = [seat.wake p] := by
  cases seat <;> rw [h.1] <;> rfl

end Seat

/-! ## Steps -/

namespace Client

variable {w w' : Client Handler}

theorem AtRest.of_agreesOutside (h : w.AtRest) (ha : w.AgreesOutside w') : w'.AtRest := by
  rw [ha]
  exact ⟨h.work, h.pool, h.reactor⟩

theorem AtRest.tick (h : w.AtRest) {now : Binary64} (hle : w.clock.le now = true)
    (hnow : now.isFinite = true) : ({ w with clock := now } : Client Handler).AtRest :=
  ⟨h.work, h.pool, h.reactor.tick hle hnow⟩

theorem AtRest.put (h : w.AtRest) (seat : Seat) (p : Places) (drive : Drive) :
    (seat.put p w drive).AtRest := by
  cases seat <;> exact ⟨h.work, h.pool, h.reactor⟩

/-- **A reactor at rest stays so**, whatever it does. -/
theorem AtRest.react (h : w.AtRest) {action : Action Handler} (hr : action.ByReactor)
    (ha : w.act? action = some w') : ∃ r, w' = { w with reactor := r } ∧ w'.AtRest := by
  obtain rfl | rfl | rfl := hr
  · obtain ⟨r, -, ⟨rfl, hr⟩ | ⟨item, rest, next, hitems, -⟩⟩ :=
      turn_of_stepReactor? h.work h.reactor ha
    · exact ⟨r, rfl, h.work, h.pool, hr⟩
    · exact absurd hitems.symm Multiset.cons_ne_zero
  · obtain ⟨-, r, -, rfl, hr⟩ := poll_of_pollReactor? h.reactor ha
    exact ⟨r, rfl, h.work, h.pool, hr⟩
  · obtain ⟨c, hcalling⟩ :=
      exists_calling_of_returnReactor? (show w.returnReactor? none = _ from ha)
    cases h.work.symm.trans hcalling

end Client

namespace Errand

variable {E : Errand Handler} {w w' : Client Handler} {script : List Exchange}
  {seen : List (Sighting Handler)} {fed : Option Outcome} {result : Result} {seat : Seat}

/-- What a drive changes besides is of no account. -/
theorem Goes.put {point : Point} (h : E.Goes ⟨w, script, seen⟩ point) (seat : Seat) (p : Places)
    (drive : Drive) : E.Goes ⟨seat.put p w drive, script, seen⟩ point := by
  cases seat <;> exact h.congr rfl rfl rfl rfl

/-- **The session is claimed.** -/
theorem Asks.moves_claim (h : E.Asks w .asked) (hgoes : E.Goes ⟨w, script, seen⟩ .asked)
    (hrest : w.AtRest) (hopen : E.before.closed = false) (hfree : E.before.busy = false) :
    E.Moves ⟨w, script, seen⟩ .asked (.stepInvocation E.invocation) := by
  obtain ⟨operation, timeout, callback, config, hv, hbuild, hcallback, hc, ht⟩ := h
  obtain ⟨⟨left, hseen, hsession, hperforms⟩, hpunctual, hfinite, hlive⟩ := hgoes
  have hclaim : E.before.claim = .ok (E.held E.before.cursor) :=
    (Session.claim_eq_ok_iff _ _).2 ⟨hopen, hfree, rfl⟩
  let w₁ := (w.setSession E.session (E.held E.before.cursor)).setInvocation E.invocation .claimed
  have hstep : w.act? (.stepInvocation E.invocation) = some w₁ := by
    show w.stepInvocation? E.invocation = _
    rw [Client.stepInvocation?_of_asked hv rfl]
    unfold Client.claimFor?
    dsimp only
    rw [hsession, Option.map_some, hclaim]
  have hset : (w.sessions.set E.session (E.held E.before.cursor))[E.session]?
      = some (E.held E.before.cursor) := by
    rw [List.getElem?_set_self (List.getElem?_eq_some_iff.1 hsession).1]
  have hmodify : (w.invocations.modify E.invocation fun v => { v with phase := .claimed })[
      E.invocation]? = some ⟨E.session, operation, timeout, callback, .claimed⟩ := by
    rw [List.getElem?_modify, hv]
    simp
  have hasks : E.Asks w₁ .claimed :=
    ⟨operation, timeout, callback, config, hmodify, hbuild, hcallback, hc, ht⟩
  have htrack : E.OnTrack ⟨w₁, script, seen⟩ .claimed :=
    ⟨⟨⟨left, hseen, hset, hperforms⟩, hpunctual, hfinite, hlive⟩,
      .passing ⟨hrest.work, hrest.pool, hrest.reactor⟩ (.claimed hasks)⟩
  exact .of_quiet hstep rfl (Client.pause?_of_ne (by simp)) (by decide) htrack

/-- **The request is built, and the call exists.** -/
theorem Asks.moves_build (h : E.Asks w .claimed) (hgoes : E.Goes ⟨w, script, seen⟩ .claimed)
    (hrest : w.AtRest) :
    E.Moves ⟨w, script, seen⟩ .claimed (.stepInvocation E.invocation) := by
  obtain ⟨operation, timeout, callback, config, hv, hbuild, hcallback, hc, ht⟩ := h
  obtain ⟨⟨left, hseen, hsession, hperforms⟩, hpunctual, hfinite, hlive⟩ := hgoes
  have hheld : Request.build (E.held E.before.cursor).profile (E.held E.before.cursor).cursor
      w.fresh w.config operation timeout = (.ok E.request, config) := hbuild
  let w₁ := ({ w with config, calls := w.calls ++ [E.calling E.beginning] } : Client
    Handler).setInvocation E.invocation (.launching w.calls.length)
  have hstep : w.act? (.stepInvocation E.invocation) = some w₁ := by
    show w.stepInvocation? E.invocation = _
    rw [Client.stepInvocation?_of_claimed hv rfl]
    unfold Client.buildFor?
    dsimp only
    rw [hsession, Option.map_some, hheld]
    dsimp only
    rw [hcallback]
    rfl
  have hcall : w₁.callOn? E.call = some (E.calling E.beginning, E.held E.before.cursor) := by
    refine Client.callOn?_eq_some_iff.2 ⟨?_, hsession⟩
    show (w.calls ++ [E.calling E.beginning])[E.call]? = _
    rw [← hc, List.getElem?_concat_length]
  have hphase : w₁.invocationPhase? E.invocation = some (.launching E.call) := by
    rw [← hc]
    exact Client.invocationPhase?_setInvocation hv _
  have htrack : E.OnTrack ⟨w₁, script, seen⟩ .launching :=
    ⟨⟨⟨left, hseen, _, _, ⟨hcall, rfl⟩, hperforms⟩, hpunctual, hfinite, hlive⟩,
      .passing ⟨hrest.work, hrest.pool, hrest.reactor⟩ (.launching hphase ht)⟩
  exact .of_quiet hstep rfl (Client.pause?_of_ne (by simp)) (by decide) htrack

section Launching

variable {v : Invocation Handler} (hv : w.invocations[E.invocation]? = some v)
  (ht : w.tasks.length = E.task) (hgoes : E.Goes ⟨w, script, seen⟩ .launching) (hrest : w.AtRest)

include hv ht hgoes hrest

/-- A blocking frontend drives the call on the thread that asked. -/
theorem onTrack_launch_blocking (hk : w.frontend.kind = .blocking) :
    E.OnTrack ⟨w.launchFor E.invocation E.call, script, seen⟩ (.resuming none) := by
  have hlaunch : w.launchFor E.invocation E.call
      = w.setInvocation E.invocation (.driving E.call (.resuming none)) := by
    unfold Client.launchFor
    rw [hk]
  have hseat : Seat.thread.Holds E.toPlaces
      (w.setInvocation E.invocation (.driving E.call (.resuming none))) (.resuming none) :=
    ⟨hk, Client.invocationPhase?_setInvocation hv _, List.getElem?_eq_none_iff.2 ht.le⟩
  rw [hlaunch]
  exact ⟨(goes_resuming_iff.2 (goes_launching_iff.1 hgoes)).put .thread E.toPlaces _,
    .driving (hrest.put .thread E.toPlaces _) hseat rfl⟩

/-- An event loop gets a task. -/
theorem onTrack_launch_eventLoop (hk : w.frontend.kind = .eventLoop) :
    E.OnTrack ⟨w.launchFor E.invocation E.call, script, seen⟩ (.ready none) := by
  let w₁ : Client Handler := { w with tasks := w.tasks ++ [⟨E.call, .unstarted⟩] }
  have hlaunch : w.launchFor E.invocation E.call
      = w₁.setInvocation E.invocation (.ended (.ok (.task E.task))) := by
    unfold Client.launchFor
    rw [hk]
    dsimp only
    rw [if_pos (hgoes.live.loop hk), ht]
  have hphase : (w₁.setInvocation E.invocation (.ended (.ok (.task E.task)))).invocationPhase?
      E.invocation = some (.ended (.ok (.task E.task))) :=
    Client.invocationPhase?_setInvocation hv _
  have htask : (w.tasks ++ [⟨E.call, .unstarted⟩])[E.task]? = some ⟨E.call, .unstarted⟩ := by
    rw [← ht, List.getElem?_concat_length]
  rw [hlaunch]
  exact ⟨(goes_launching_iff.1 hgoes).congr rfl rfl rfl rfl,
    .passing ⟨hrest.work, hrest.pool, hrest.reactor⟩ (.unstarted hk hphase htask)⟩

/-- A reactor gets a job. -/
theorem onTrack_launch_reactor (hk : w.frontend.kind = .reactor) :
    E.OnTrack ⟨w.launchFor E.invocation E.call, script, seen⟩ (.ready none) := by
  obtain ⟨r, hcall, hr⟩ := hrest.reactor.call (.advance E.call)
  have hlaunch : w.launchFor E.invocation E.call
      = ({ w with reactor := r } : Client Handler).setInvocation E.invocation
        (.ended (.ok .nothing)) := by
    unfold Client.launchFor
    rw [hk]
    dsimp only
    rw [hcall]
  have hphase : (({ w with reactor := r } : Client Handler).setInvocation E.invocation
      (.ended (.ok .nothing))).invocationPhase? E.invocation = some (.ended (.ok .nothing)) :=
    Client.invocationPhase?_setInvocation hv _
  rw [hlaunch]
  exact ⟨(goes_launching_iff.1 hgoes).congr rfl rfl rfl rfl,
    .waiting ⟨hk, hphase, List.getElem?_eq_none_iff.2 ht.le⟩ hrest.work hr (.queued hrest.pool)⟩

end Launching

theorem journal_launchFor (w : Client Handler) (i c : Nat) :
    (w.launchFor i c).journal = w.journal := by
  unfold Client.launchFor
  split
  · rfl
  · split <;> rfl
  · split <;> rfl

/-- **The frontend starts the call.** -/
theorem moves_launch (hp : w.invocationPhase? E.invocation = some (.launching E.call))
    (ht : w.tasks.length = E.task) (hgoes : E.Goes ⟨w, script, seen⟩ .launching)
    (hrest : w.AtRest) :
    E.Moves ⟨w, script, seen⟩ .launching (.stepInvocation E.invocation) := by
  obtain ⟨v, hv, hphase⟩ := Option.map_eq_some_iff.1 hp
  have hstep : w.act? (.stepInvocation E.invocation)
      = some (w.launchFor E.invocation E.call) := by
    show w.stepInvocation? E.invocation = _
    unfold Client.stepInvocation?
    rw [hv]
    dsimp only
    rw [hphase]
  have hjournal := journal_launchFor w E.invocation E.call
  have hquiet : w.pause? (.stepInvocation E.invocation) = none := Client.pause?_of_ne (by simp)
  cases hk : w.frontend.kind with
  | blocking =>
    exact .of_quiet hstep hjournal hquiet (by decide) (onTrack_launch_blocking hv ht hgoes hrest hk)
  | eventLoop =>
    exact .of_quiet hstep hjournal hquiet (by decide)
      (onTrack_launch_eventLoop hv ht hgoes hrest hk)
  | reactor =>
    exact .of_quiet hstep hjournal hquiet (by decide) (onTrack_launch_reactor hv ht hgoes hrest hk)

/-- **The event loop begins to run the task.** -/
theorem moves_run (hk : w.frontend.kind = .eventLoop)
    (hp : w.invocationPhase? E.invocation = some (.ended (.ok (.task E.task))))
    (ht : w.tasks[E.task]? = some ⟨E.call, .unstarted⟩)
    (hgoes : E.Goes ⟨w, script, seen⟩ (.ready none)) (hrest : w.AtRest) :
    E.Moves ⟨w, script, seen⟩ (.ready none) (.stepTask E.task) := by
  have hstep : w.act? (.stepTask E.task) = some (w.setTask E.task (.resuming none)) := by
    show w.stepTask? E.task = _
    unfold Client.stepTask?
    rw [ht]
  have htask : (w.tasks.modify E.task fun task => { task with phase := .running (.resuming none) })[
      E.task]? = some ⟨E.call, .running (.resuming none)⟩ := by
    rw [List.getElem?_modify, ht]
    simp
  have hseat : Seat.task.Holds E.toPlaces (w.setTask E.task (.resuming none)) (.resuming none) :=
    ⟨hk, hp, htask⟩
  exact .of_quiet hstep rfl (Client.pause?_of_ne (by simp)) (by decide)
    ⟨(goes_resuming_iff.2 hgoes).put .task E.toPlaces _,
      .driving (hrest.put .task E.toPlaces _) hseat rfl⟩

/-- **A drive resumes the cycle.** -/
theorem moves_drive (hs : seat.Holds E.toPlaces w (.resuming fed))
    (hgoes : E.Goes ⟨w, script, seen⟩ (.resuming fed)) (hrest : w.AtRest) :
    E.Moves ⟨w, script, seen⟩ (.resuming fed) (seat.step E.toPlaces) := by
  obtain ⟨w₁, drive, point, shown, hdrive, hpoint, hrank, hshows, hnext⟩ := hgoes.drive
  have hstep : w.act? (seat.step E.toPlaces) = some (seat.put E.toPlaces w₁ drive) := by
    rw [hs.act?_step (by simp) (by simp)]
    show (w.stepDrive? E.call (.resuming fed)).map _ = _
    rw [hdrive]
    rfl
  have hseat := (hs.of_agreesOutside hshows.agrees).put drive
  have hrest' := (hrest.of_agreesOutside hshows.agrees).put seat E.toPlaces drive
  have htrack : E.OnTrack ⟨seat.put E.toPlaces w₁ drive, script, seen ++ shown⟩ point :=
    ⟨hnext.put seat _ _, .driving hrest' hseat hpoint⟩
  refine ⟨_, point, hstep, hrank, hshows.onTrack htrack ?_ ?_
    (Client.pause?_of_ne (seat.step_ne_stepReactor _)) ?_ ?_ ?_⟩
  · rintro rfl
    cases drive <;> cases hpoint
  · rintro rfl
    cases drive <;> cases hpoint
  all_goals cases seat <;> rfl

/-- **The callback of a drive returns.** -/
theorem moves_back (hs : seat.Holds E.toPlaces w (.calling result))
    (hgoes : E.Goes ⟨w, script, seen⟩ (.calling result)) (hrest : w.AtRest) :
    E.Moves ⟨w, script, seen⟩ (.calling result) (seat.back E.toPlaces) := by
  have hstep : w.act? (seat.back E.toPlaces)
      = some (seat.put E.toPlaces w (.finished result)) := hs.act?_back
  have hcompleted := goes_completed_iff.2 (goes_calling_iff.1 hgoes)
  refine .of_quiet hstep ?_ (Client.pause?_of_ne ?_) (by simp [Point.rank])
    ⟨hcompleted.put seat _ _, .driving (hrest.put seat _ _) (hs.put _) rfl⟩
  · cases seat <;> rfl
  · cases seat <;> simp [Seat.back]

/-- **A thread goes on with the result.** -/
theorem moves_finish (hs : Seat.thread.Holds E.toPlaces w (.finished result))
    (hgoes : E.Goes ⟨w, script, seen⟩ (.completed result)) (hrest : w.AtRest) :
    E.Moves ⟨w, script, seen⟩ (.completed result) (.stepInvocation E.invocation) := by
  have hstep := hs.act?_step_finished
  obtain ⟨hk, hp, ht⟩ := hs
  obtain ⟨v, hv, -⟩ := Option.map_eq_some_iff.1 hp
  have hphase := Client.invocationPhase?_setInvocation hv (.ended (.ok (.result result)))
  have hdone := goes_completed_iff.1 hgoes
  exact .of_quiet hstep rfl (Client.pause?_of_ne (by simp)) (by simp [Point.rank])
    ⟨hdone.congr rfl rfl rfl rfl,
      .passing ⟨hrest.work, hrest.pool, hrest.reactor⟩ (.returned hk hphase ht)⟩

/-- **The answer comes to a drive.** -/
theorem exists_run_answer {e : Exchange} (hs : seat.Holds E.toPlaces w .inFlight)
    (hgoes : E.Goes ⟨w, e :: script, seen⟩ .awaiting) (hrest : w.AtRest) :
    ∃ w' outcome, w.run? [.tick (w.clock + e.takes), seat.answer E.toPlaces e.answer.outcome]
      = some w' ∧ E.OnTrack ⟨w', script, seen⟩ (.resuming (some outcome)) := by
  obtain ⟨outcome, ho, hle, -, hnext⟩ := hgoes.answer
  have hticked := hs.tick (w.clock + e.takes)
  refine ⟨seat.put E.toPlaces { w with clock := w.clock + e.takes } (.resuming (some outcome)),
    outcome, ?_, hnext.put seat _ _, .driving ((hrest.tick hle hnext.clock).put seat _ _)
    (hticked.put _) rfl⟩
  rw [Client.run?_tick hle, Client.run?_cons, hticked.act?_answer, ho]
  rfl

/-- **The pause of a drive is over.** -/
theorem exists_run_wake {seconds : Binary64} (hs : seat.Holds E.toPlaces w (.asleep seconds))
    (hgoes : E.Goes ⟨w, script, seen⟩ (.asleep seconds)) (hrest : w.AtRest) :
    ∃ w', w.run? (.tick (w.clock + seconds) :: E.toPlaces.wake w.frontend.kind) = some w'
      ∧ E.OnTrack ⟨w', script, seen⟩ (.resuming none) := by
  obtain ⟨hle, hfinite, hnext⟩ := hgoes.wake
  have hticked := hs.tick (w.clock + seconds)
  refine ⟨seat.put E.toPlaces { w with clock := w.clock + seconds } (.resuming none), ?_,
    hnext.put seat _ _, .driving ((hrest.tick hle hfinite).put seat _ _)
    (hticked.put _) rfl⟩
  rw [hs.wake_eq, Client.run?_tick hle, Client.run?_cons, hticked.act?_wake]
  rfl

/-! ## On track -/

section OnTrack

variable {point : Point} {scene : Scene Handler} {action : Action Handler}

theorem Asks.invocationPhase? {phase : InvocationPhase} (h : E.Asks w phase) :
    w.invocationPhase? E.invocation = some phase := by
  obtain ⟨operation, timeout, callback, config, hv, -⟩ := h
  unfold Client.invocationPhase?
  rw [hv]
  rfl

theorem Asks.getElem?_tasks {phase : InvocationPhase} (h : E.Asks w phase) :
    w.tasks[E.task]? = none := by
  obtain ⟨operation, timeout, callback, config, -, -, -, -, ht⟩ := h
  exact List.getElem?_eq_none_iff.2 ht.le

/-- Nobody drives a call that is on its way to whoever will drive it. -/
theorem Passes.undriven (h : E.Passes w point) : E.toPlaces.Undriven w := by
  have hnone : w.tasks[E.task]? = none → ∀ drive, w.taskPhase? E.task ≠ some (.running drive) := by
    intro ht drive
    simp [Client.taskPhase?_of_none ht]
  cases h with
  | asked h hopen hfree => exact ⟨by simp [h.invocationPhase?], hnone h.getElem?_tasks⟩
  | claimed h => exact ⟨by simp [h.invocationPhase?], hnone h.getElem?_tasks⟩
  | launching hp ht => exact ⟨by simp [hp], hnone (List.getElem?_eq_none_iff.2 ht.le)⟩
  | unstarted hk hp ht =>
    exact ⟨by simp [hp], fun drive => by simp [Client.taskPhase?_of_some ht]⟩
  | returned hk hp ht => exact ⟨by simp [hp], hnone ht⟩

theorem Passes.react (h : E.Passes w point) (r : Reactor Job) :
    E.Passes { w with reactor := r } point := by
  cases h with
  | asked h hopen hfree => exact .asked h hopen hfree
  | claimed h => exact .claimed h
  | launching hp ht => exact .launching hp ht
  | unstarted hk hp ht => exact .unstarted hk hp ht
  | returned hk hp ht => exact .returned hk hp ht

/-- Whatever is done that is not done by the reactor takes the operation on. -/
theorem Passes.moves (h : E.Passes w point) (hgoes : E.Goes ⟨w, script, seen⟩ point)
    (hrest : w.AtRest) (ho : E.toPlaces.IsOwn action) (hr : ¬ action.ByReactor)
    (ha : w.act? action = some w') : E.Moves ⟨w, script, seen⟩ point action := by
  rcases h.undriven.of_isOwn ho ha with rfl | rfl | hr'
  · cases h with
    | asked h hopen hfree => exact h.moves_claim hgoes hrest hopen hfree
    | claimed h => exact h.moves_build hgoes hrest
    | launching hp ht => exact moves_launch hp ht hgoes hrest
    | unstarted hk hp ht => cases (Client.stepInvocation?_of_ended hp).symm.trans ha
    | returned hk hp ht => cases (Client.stepInvocation?_of_ended hp).symm.trans ha
  · cases h with
    | asked h hopen hfree => cases (Client.stepTask?_of_none h.getElem?_tasks).symm.trans ha
    | claimed h => cases (Client.stepTask?_of_none h.getElem?_tasks).symm.trans ha
    | launching hp ht =>
      cases (Client.stepTask?_of_none (List.getElem?_eq_none_iff.2 ht.le)).symm.trans ha
    | unstarted hk hp ht => exact moves_run hk hp ht hgoes hrest
    | returned hk hp ht => cases (Client.stepTask?_of_none ht).symm.trans ha
  · exact absurd hr' hr

/-- Whatever is done that is not done by the reactor takes the operation on. -/
theorem moves_of_holds {drive : Drive} (hs : seat.Holds E.toPlaces w drive)
    (hd : drive.point? = some point) (hgoes : E.Goes ⟨w, script, seen⟩ point) (hrest : w.AtRest)
    (ho : E.toPlaces.IsOwn action) (hr : ¬ action.ByReactor) (ha : w.act? action = some w') :
    E.Moves ⟨w, script, seen⟩ point action := by
  rcases hs.of_isOwn ho ha with rfl | rfl | hr'
  · cases drive with
    | resuming fed =>
      cases hd
      exact moves_drive hs hgoes hrest
    | finished result =>
      cases hd
      cases seat with
      | thread => exact moves_finish hs hgoes hrest
      | task => cases hs.act?_step_finished.symm.trans ha
    | failing e => cases hd
    | failed e => cases hd
    | _ => cases (hs.act?_step (by simp) (by simp)).symm.trans ha
  · rw [hs.act?_back] at ha
    cases drive with
    | calling result =>
      cases hd
      exact moves_back hs hgoes hrest
    | _ => cases ha
  · exact absurd hr' hr

/-- **An operation that is passed on stays on its track.** -/
theorem Passes.next (h : E.Passes w point) (hgoes : E.Goes ⟨w, script, seen⟩ point)
    (hrest : w.AtRest) (hn : Scene.Next E.toPlaces ⟨w, script, seen⟩ scene) :
    ∃ point', E.OnTrack scene point' := by
  have hundriven : ∀ now, E.toPlaces.Undriven { w with clock := now } := fun _ =>
    ⟨h.undriven.invocation, h.undriven.task⟩
  cases hn with
  | @own _ v _ _ action ho ha =>
    by_cases hr : action.ByReactor
    · obtain ⟨r, rfl, hrest'⟩ := hrest.react hr ha
      exact ⟨point, onTrack_of_quiet ⟨hgoes.congr rfl rfl rfl rfl, .passing hrest' (h.react r)⟩ rfl
        (Client.pause?_of_work (by simp [hrest.work]))⟩
    · exact (h.moves hgoes hrest ho hr ha).onTrack ha
  | answer hs ho ha =>
    have hact := Client.run?_tick_eq_some ha
    rw [Client.run?_singleton] at hact
    obtain ⟨a, attempt, -, hattempt, hbusy⟩ := (hundriven _).of_isAnswer ho hact
    cases (hrest.pool attempt (List.mem_of_getElem? hattempt)).symm.trans hbusy
  | wake hs ha =>
    have hsame := (hundriven _).of_wake (Client.run?_tick_eq_some ha)
    rw [hgoes.eq_of_slept (by cases h <;> simp) hs] at hsame
    subst hsame
    exact ⟨point, hgoes, .passing hrest h⟩

/-- **An operation that is driven stays on its track.** -/
theorem next_of_holds {drive : Drive} (hs : seat.Holds E.toPlaces w drive)
    (hd : drive.point? = some point) (hgoes : E.Goes ⟨w, script, seen⟩ point) (hrest : w.AtRest)
    (hn : Scene.Next E.toPlaces ⟨w, script, seen⟩ scene) : ∃ point', E.OnTrack scene point' := by
  cases hn with
  | @own _ v _ _ action ho ha =>
    by_cases hr : action.ByReactor
    · obtain ⟨r, rfl, hrest'⟩ := hrest.react hr ha
      have hseat : seat.Holds E.toPlaces { w with reactor := r } drive := by
        cases seat <;> exact hs
      exact ⟨point, onTrack_of_quiet ⟨hgoes.congr rfl rfl rfl rfl, .driving hrest' hseat hd⟩ rfl
        (Client.pause?_of_work (by simp [hrest.work]))⟩
    · exact (moves_of_holds hs hd hgoes hrest ho hr ha).onTrack ha
  | @answer _ _ e _ _ now request action hlast ho ha =>
    have hact := Client.run?_tick_eq_some ha
    rw [Client.run?_singleton] at hact
    obtain rfl := (hs.tick (now + e.takes)).of_isAnswer hrest.pool ho hact
    rw [(hs.tick (now + e.takes)).act?_answer] at hact
    cases drive with
    | inFlight =>
      cases hd
      obtain ⟨rfl, -⟩ := Sighting.mk.inj (Option.some.inj (hgoes.punctual.symm.trans hlast))
      obtain ⟨v, outcome, hv, htrack⟩ := exists_run_answer hs hgoes hrest
      obtain rfl := Option.some.inj (hv.symm.trans ha)
      exact ⟨_, htrack⟩
    | _ => cases hact
  | @wake _ _ _ _ now seconds hlast ha =>
    have hact := Client.run?_tick_eq_some ha
    rw [hs.wake_eq, Client.run?_singleton, (hs.tick (now + seconds)).act?_wake] at hact
    cases drive with
    | asleep s =>
      cases hd
      obtain ⟨rfl, hsight⟩ := Sighting.mk.inj (Option.some.inj (hgoes.punctual.symm.trans hlast))
      cases hsight
      obtain ⟨v, hv, htrack⟩ := exists_run_wake hs hgoes hrest
      obtain rfl := Option.some.inj (hv.symm.trans ha)
      exact ⟨_, htrack⟩
    | _ => cases hact

end OnTrack

end Errand

end Pubsub
