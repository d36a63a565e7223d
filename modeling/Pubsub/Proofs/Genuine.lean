import Pubsub.Proofs.Bookkeeping

/-!
# Only genuine outcomes are fed

If the world gives only outcomes that a transport can give, then no others are ever on their way to
a cycle. An outcome that an action hands over is genuine by assumption, one that was on its way
before is so by induction, and the ones that a client makes itself, for an attempt without an answer
or an error in the pool, are failures of the two kinds that a transport reports.
-/

namespace Pubsub

variable {Handler : Type} {P : Outcome → Prop} {w w' : Client Handler}

/-! ## Drives -/

/-- A drive that is answered feeds the answer. -/
theorem Drive.feeds_of_answer? {drive drive' : Drive} {answer : Except Error Outcome}
    (h : drive.answer? answer = some drive') (ha : ∀ outcome, answer = .ok outcome → P outcome) :
    drive'.Feeds P := by
  unfold answer? at h
  split at h
  · cases h
    exact ha _ rfl
  · cases h
    trivial
  · cases h

theorem Drive.feeds_of_wake? {drive drive' : Drive} (h : drive.wake? = some drive') :
    drive'.Feeds P := by
  unfold wake? at h
  split at h <;> cases h
  trivial

namespace Client

namespace Feeds

/-! ## What writes to a state keep -/

theorem of_agreesOutside (h : w.Feeds P) (ha : w.AgreesOutside w') : w'.Feeds P := by
  rw [ha]
  exact ⟨h.invocations, h.tasks, h.reactor, h.work⟩

/-- An invocation may be moved to a phase that feeds nothing wrong. -/
theorem setInvocation (h : w.Feeds P) {i : Nat} {phase : InvocationPhase} (hp : phase.Feeds P) :
    (w.setInvocation i phase).Feeds P := by
  refine ⟨?_, h.tasks, h.reactor, h.work⟩
  intro v hv
  change v ∈ w.invocations.modify i _ at hv
  obtain ⟨j, hj⟩ := List.getElem?_of_mem hv
  rw [List.getElem?_modify] at hj
  obtain ⟨v', hv', rfl⟩ := Option.map_eq_some_iff.1 hj
  split
  · exact hp
  · exact h.invocations v' (List.mem_of_getElem? hv')

theorem setTask (h : w.Feeds P) {t : Nat} {drive : Drive} (hd : drive.Feeds P) :
    (w.setTask t drive).Feeds P := by
  refine ⟨h.invocations, ?_, h.reactor, h.work⟩
  intro task htask
  change task ∈ w.tasks.modify t _ at htask
  obtain ⟨j, hj⟩ := List.getElem?_of_mem htask
  rw [List.getElem?_modify] at hj
  obtain ⟨task', htask', rfl⟩ := Option.map_eq_some_iff.1 hj
  split
  · exact hd
  · exact h.tasks task' (List.mem_of_getElem? htask')

/-- An operation that is asked for feeds nothing yet. -/
theorem ask (h : w.Feeds P) (session : Nat) (operation : Operation) (timeout : Json)
    (callback : Option Handler) : (w.ask session operation timeout callback).Feeds P := by
  refine ⟨?_, h.tasks, h.reactor, h.work⟩
  intro v hv
  rcases List.mem_append.1 hv with hv | hv
  · exact h.invocations v hv
  · rw [List.mem_singleton.1 hv]
    trivial

theorem withReactor (h : w.Feeds P) {reactor : Reactor Job} (hr : reactor.AllJobs (Job.Feeds P)) :
    ({ w with reactor } : Client Handler).Feeds P :=
  ⟨h.invocations, h.tasks, hr, h.work⟩

theorem withWork (h : w.Feeds P) {work : Work} (hw : work.Feeds P) :
    ({ w with work } : Client Handler).Feeds P :=
  ⟨h.invocations, h.tasks, h.reactor, hw⟩

/-! ## Invocations and tasks -/

theorem claimFor? (h : w.Feeds P) {i : Nat} {v : Invocation Handler}
    (hs : w.claimFor? i v = some w') : w'.Feeds P := by
  obtain ⟨s, -, hs⟩ := Option.map_eq_some_iff.1 hs
  split at hs
  · subst hs
    exact h.setInvocation trivial
  · rename_i t _
    subst hs
    have hset : (w.setSession v.session t).Feeds P :=
      ⟨h.invocations, h.tasks, h.reactor, h.work⟩
    exact hset.setInvocation trivial

theorem buildFor? (h : w.Feeds P) {i : Nat} {v : Invocation Handler}
    (hs : w.buildFor? i v = some w') : w'.Feeds P := by
  obtain ⟨s, -, hs⟩ := Option.map_eq_some_iff.1 hs
  split at hs
  · subst hs
    refine setInvocation ?_ trivial
    exact ⟨h.invocations, h.tasks, h.reactor, h.work⟩
  · subst hs
    refine setInvocation ?_ trivial
    exact ⟨h.invocations, h.tasks, h.reactor, h.work⟩

theorem launchFor (h : w.Feeds P) (i c : Nat) : (w.launchFor i c).Feeds P := by
  unfold Client.launchFor
  split
  · exact h.setInvocation trivial
  · split
    · have htasks : ∀ task ∈ w.tasks ++ [⟨c, .unstarted⟩], task.phase.Feeds P := by
        intro task htask
        rcases List.mem_append.1 htask with htask | htask
        · exact h.tasks task htask
        · rw [List.mem_singleton.1 htask]
          trivial
      have htask : ({ w with tasks := w.tasks ++ [⟨c, .unstarted⟩] } : Client Handler).Feeds P :=
        ⟨h.invocations, htasks, h.reactor, h.work⟩
      exact htask.setInvocation trivial
    · exact h.setInvocation trivial
  · split
    · exact h.setInvocation trivial
    · rename_i reactor hr
      refine setInvocation (h.withReactor (h.reactor.call ?_ hr)) trivial
      rintro _ ⟨⟩
      trivial

theorem stepInvocation? (h : w.Feeds P) {i : Nat} (hs : w.stepInvocation? i = some w') :
    w'.Feeds P := by
  unfold Client.stepInvocation? at hs
  split at hs
  · cases hs
  · rename_i v hv
    have hfeeds := h.invocations v (List.mem_of_getElem? hv)
    split at hs
    · exact h.claimFor? hs
    · exact h.buildFor? hs
    · cases hs
      exact h.launchFor i _
    · cases hs
      exact h.setInvocation trivial
    · cases hs
      exact h.setInvocation trivial
    · rename_i hp
      obtain ⟨⟨w₁, drive'⟩, hd, rfl⟩ := Option.map_eq_some_iff.1 hs
      rw [hp] at hfeeds
      obtain ⟨-, ha, hd'⟩ := entry_stepDrive? hfeeds hd
      exact (h.of_agreesOutside ha).setInvocation hd'
    · rename_i c e hp
      cases hs
      exact (h.of_agreesOutside (agreesOutside_abandonCall w c)).setInvocation trivial
    · cases hs

/-- A drive that the world moves on makes its invocation feed what the drive then feeds. -/
theorem mapDrive (h : w.Feeds P) {i c : Nat} {next : Option Drive}
    (hn : ∀ drive, next = some drive → drive.Feeds P)
    (hs : next.map (fun drive => w.setInvocation i (.driving c drive)) = some w') :
    w'.Feeds P := by
  obtain ⟨drive, hdrive, rfl⟩ := Option.map_eq_some_iff.1 hs
  exact h.setInvocation (hn drive hdrive)

theorem answerInvocation? (h : w.Feeds P) {i : Nat} {answer : Except Error Outcome}
    (ha : ∀ outcome, answer = .ok outcome → P outcome)
    (hs : w.answerInvocation? i answer = some w') : w'.Feeds P := by
  unfold Client.answerInvocation? at hs
  split at hs
  · exact h.mapDrive (fun drive hd => Drive.feeds_of_answer? hd ha) hs
  · cases hs

theorem wakeInvocation? (h : w.Feeds P) {i : Nat} (hs : w.wakeInvocation? i = some w') :
    w'.Feeds P := by
  unfold Client.wakeInvocation? at hs
  split at hs
  · exact h.mapDrive (fun drive hd => Drive.feeds_of_wake? hd) hs
  · cases hs

theorem returnInvocation? (h : w.Feeds P) {i : Nat} {raised : Option Error}
    (hs : w.returnInvocation? i raised = some w') : w'.Feeds P := by
  unfold Client.returnInvocation? at hs
  split at hs <;> cases hs
  · exact h.setInvocation trivial
  · exact h.setInvocation trivial

theorem stepTask? (h : w.Feeds P) {t : Nat} (hs : w.stepTask? t = some w') : w'.Feeds P := by
  unfold Client.stepTask? at hs
  split at hs
  · cases hs
  · rename_i task ht
    have hfeeds := h.tasks task (List.mem_of_getElem? ht)
    split at hs
    · cases hs
      exact h.setTask trivial
    · rename_i hp
      obtain ⟨⟨w₁, drive'⟩, hd, rfl⟩ := Option.map_eq_some_iff.1 hs
      rw [hp] at hfeeds
      obtain ⟨-, ha, hd'⟩ := entry_stepDrive? hfeeds hd
      exact (h.of_agreesOutside ha).setTask hd'

theorem answerTask? (h : w.Feeds P) {t : Nat} {answer : Except Error Outcome}
    (ha : ∀ outcome, answer = .ok outcome → P outcome) (hs : w.answerTask? t answer = some w') :
    w'.Feeds P := by
  unfold Client.answerTask? at hs
  split at hs
  · obtain ⟨drive, hd, rfl⟩ := Option.map_eq_some_iff.1 hs
    exact h.setTask (Drive.feeds_of_answer? hd ha)
  · cases hs

theorem wakeTask? (h : w.Feeds P) {t : Nat} (hs : w.wakeTask? t = some w') : w'.Feeds P := by
  unfold Client.wakeTask? at hs
  split at hs
  · obtain ⟨drive, hd, rfl⟩ := Option.map_eq_some_iff.1 hs
    exact h.setTask (Drive.feeds_of_wake? hd)
  · cases hs

theorem returnTask? (h : w.Feeds P) {t : Nat} {raised : Option Error}
    (hs : w.returnTask? t raised = some w') : w'.Feeds P := by
  unfold Client.returnTask? at hs
  split at hs <;> cases hs
  · exact h.setTask trivial
  · exact h.setTask trivial

theorem cancelTask? (h : w.Feeds P) {t : Nat} (hs : w.cancelTask? t = some w') : w'.Feeds P := by
  unfold Client.cancelTask? at hs
  split at hs <;> cases hs
  · exact h.setTask trivial
  · exact h.setTask trivial
  · exact h.setTask trivial

/-! ## The reactor -/

theorem giveUpCall (h : w.Feeds P) (c : Nat) (e : Error) : (w.giveUpCall c e).Feeds P := by
  have hprint : (({ w with work := .none } : Client Handler).print e.describe).Feeds P :=
    ⟨h.invocations, h.tasks, h.reactor, trivial⟩
  exact hprint.of_agreesOutside (agreesOutside_abandonCall _ c)

/-- **What arrives from the pool is genuine** if what the worker handed back is. -/
theorem isGenuine_arrivedOutcome {answer : Except Error Outcome}
    (h : ∀ outcome, answer = .ok outcome → outcome.IsGenuine) :
    (arrivedOutcome answer).IsGenuine := by
  cases answer with
  | ok outcome => exact h outcome rfl
  | error e => exact Or.inr rfl

theorem beginJob (h : w.Feeds Outcome.IsGenuine) {job : Job} (hj : job.Feeds Outcome.IsGenuine) :
    (w.beginJob job).Feeds Outcome.IsGenuine := by
  have hsettle : ∀ {a : Nat} {w₁ : Client Handler} {attempt : Attempt},
      w.settleAttempt? a = some (w₁, attempt) → w₁.Feeds Outcome.IsGenuine := by
    intro a w₁ attempt hs
    unfold settleAttempt? at hs
    split at hs
    · split at hs <;> cases hs
      exact ⟨h.invocations, h.tasks, h.reactor, h.work⟩
    · cases hs
  cases job with
  | advance c => exact h.withWork trivial
  | arrive a answer =>
    unfold Client.beginJob
    dsimp only
    split
    · rename_i w₁ attempt hs
      have h₁ := hsettle hs
      refine ⟨h₁.invocations, h₁.tasks, h₁.reactor.cancel _, ?_⟩
      refine isGenuine_arrivedOutcome ?_
      rintro outcome rfl
      exact hj
    · exact h
  | expire a =>
    unfold Client.beginJob
    dsimp only
    split
    · rename_i w₁ attempt hs
      have h₁ := hsettle hs
      -- What is fed for an attempt without an answer is that it took too long.
      split
      · exact h₁.withWork (Or.inl rfl)
      · exact h₁
    · exact h

theorem advanceCall (h : w.Feeds P) (c : Nat) (fed : Option Outcome) :
    (w.advanceCall c fed).Feeds P := by
  unfold Client.advanceCall
  split
  · exact h.withWork trivial
  · rename_i w₁ hr
    obtain ⟨-, -, -, -, -, -, ha, -⟩ := resumeCall?_eq_some hr
    exact (h.of_agreesOutside ha).withWork trivial
  · rename_i w₁ seconds hr
    obtain ⟨-, -, -, -, -, -, ha, -⟩ := resumeCall?_eq_some hr
    exact (h.of_agreesOutside ha).withWork trivial
  · rename_i w₁ e hr
    obtain ⟨-, -, -, -, -, -, ha, -⟩ := resumeCall?_eq_some hr
    exact (h.of_agreesOutside ha).giveUpCall c e
  · rename_i w₁ result hr
    obtain ⟨-, -, -, -, -, -, ha, -⟩ := resumeCall?_eq_some hr
    have h₁ := h.of_agreesOutside ha
    split
    · exact ⟨h₁.invocations, h₁.tasks, h₁.reactor, trivial⟩
    · rename_i hc
      exact (h₁.of_agreesOutside (agreesOutside_completeCall hc)).withWork trivial
    · rename_i hc
      exact (h₁.of_agreesOutside (agreesOutside_completeCall hc)).withWork trivial

theorem pauseCall (h : w.Feeds P) (c : Nat) (seconds : Binary64) :
    (w.pauseCall c seconds).Feeds P := by
  unfold Client.pauseCall
  split
  · exact h.giveUpCall c _
  · rename_i hr
    have hjob : (Job.advance c).Feeds P := trivial
    exact ⟨h.invocations, h.tasks, h.reactor.schedule hjob hr, trivial⟩

theorem armCall (h : w.Feeds P) (c : Nat) : (w.armCall c).Feeds P := by
  unfold Client.armCall
  split
  · exact h.withWork trivial
  · dsimp only
    split
    · exact h.giveUpCall c _
    · rename_i hr
      have hjob : (Job.expire w.attempts.length).Feeds P := trivial
      exact ⟨h.invocations, h.tasks, h.reactor.schedule hjob hr, trivial⟩

theorem submitAttempt (h : w.Feeds P) (a : Nat) : (w.submitAttempt a).Feeds P := by
  unfold Client.submitAttempt
  split
  · exact h.withWork trivial
  · split
    · exact h.giveUpCall _ _
    · exact ⟨h.invocations, h.tasks, h.reactor, trivial⟩

theorem stepReactor? (h : w.Feeds Outcome.IsGenuine) (hs : w.stepReactor? = some w') :
    w'.Feeds Outcome.IsGenuine := by
  unfold Client.stepReactor? at hs
  split at hs
  · cases hs
    exact h.advanceCall _ _
  · cases hs
    exact h.pauseCall _ _
  · cases hs
    exact h.armCall _
  · cases hs
    exact h.submitAttempt _
  · cases hs
  · split at hs
    · rename_i hr
      obtain ⟨hreactor, hjob⟩ := h.reactor.step? hr
      cases hs
      exact (h.withReactor hreactor).beginJob (hjob _ rfl)
    · rename_i hr
      cases hs
      exact h.withReactor (h.reactor.step? hr).1
    · cases hs

theorem pollReactor? (h : w.Feeds P) (hs : w.pollReactor? = some w') : w'.Feeds P := by
  unfold Client.pollReactor? at hs
  split at hs <;> cases hs
  exact h.withReactor (h.reactor.poll _ _)

theorem postAttempt? (h : w.Feeds P) {a : Nat} {answer : Except Error Outcome}
    (ha : ∀ outcome, answer = .ok outcome → P outcome) (hs : w.postAttempt? a answer = some w') :
    w'.Feeds P := by
  unfold Client.postAttempt? at hs
  split at hs
  · rename_i attempt _
    split at hs
    · have hset : ({ w with
          attempts := w.attempts.set a { attempt with inFlight := false } } :
          Client Handler).Feeds P := ⟨h.invocations, h.tasks, h.reactor, h.work⟩
      dsimp only at hs
      split at hs
      · rename_i hr
        cases hs
        refine hset.withReactor (h.reactor.call ?_ hr)
        rintro _ ⟨⟩
        cases answer with
        | ok outcome => exact ha outcome rfl
        | error e => trivial
      · cases hs
        exact hset.of_agreesOutside (agreesOutside_abandonCall _ attempt.call)
    · cases hs
  · cases hs

theorem returnReactor? (h : w.Feeds P) {raised : Option Error}
    (hs : w.returnReactor? raised = some w') : w'.Feeds P := by
  obtain ⟨-, ⟨-, rfl⟩ | ⟨e, -, ⟨-, rfl⟩ | ⟨-, rfl⟩⟩⟩ := returnReactor?_eq_some hs
  · exact h.withWork trivial
  · exact ⟨h.invocations, h.tasks, h.reactor, trivial⟩
  · exact ⟨h.invocations, h.tasks, ⟨h.reactor.queue, h.reactor.timers, h.reactor.watched⟩, trivial⟩

/-! ## Sessions, closings and listeners -/

theorem closeFrontend (h : w.Feeds P) : w.closeFrontend.Feeds P := by
  unfold Client.closeFrontend
  dsimp only
  split
  · exact ⟨h.invocations, h.tasks, h.reactor.stop, h.work⟩
  · exact ⟨h.invocations, h.tasks, h.reactor, h.work⟩

theorem stepClosing? (h : w.Feeds P) {k : Nat} (hs : w.stepClosing? k = some w') : w'.Feeds P := by
  have hclosing : ∀ {u : Client Handler} (phase : ClosingPhase), u.Feeds P →
      (u.setClosing k phase).Feeds P :=
    fun _ hu => ⟨hu.invocations, hu.tasks, hu.reactor, hu.work⟩
  unfold Client.stepClosing? at hs
  obtain ⟨closing, -, hs⟩ := Option.bind_eq_some_iff.1 hs
  obtain ⟨s, -, hs⟩ := Option.bind_eq_some_iff.1 hs
  split at hs
  · split at hs
    · cases hs
      exact hclosing _ h
    · split at hs <;> cases hs <;> exact hclosing _ h
  · split at hs <;> cases hs
    exact hclosing _ h
  · cases hs
    exact ⟨h.invocations, h.tasks, h.reactor, h.work⟩
  · cases hs
    refine hclosing _ ?_
    split
    · exact h.closeFrontend
    · exact h
  · cases hs

theorem stopListener (h : w.Feeds P) (receiver : String) : (w.stopListener receiver).Feeds P := by
  unfold Client.stopListener
  split
  · exact ⟨h.invocations, h.tasks, h.reactor, h.work⟩
  · exact h

theorem startListener (h : w.Feeds P) (session : Nat) (channels : Json) (receiver : Option String)
    (timeout : Json) (fault : Option Error) :
    (w.startListener session channels receiver timeout fault).2.Feeds P := by
  obtain hkept | ⟨r, rfl, hstop | ⟨list, -, henlist⟩⟩ :=
    w.startListener_cases session channels receiver timeout fault
  · rwa [hkept]
  · rw [hstop]
    exact h.stopListener r
  · have hstop := h.stopListener r
    rw [henlist]
    exact ⟨hstop.invocations, hstop.tasks, hstop.reactor, hstop.work⟩

theorem stepListener? (h : w.Feeds P) {l : Nat} (hs : w.stepListener? l = some w') :
    w'.Feeds P := by
  have hlistener : ∀ {u : Client Handler} (phase : ListenerPhase), u.Feeds P →
      (u.setListener l phase).Feeds P :=
    fun _ hu => ⟨hu.invocations, hu.tasks, hu.reactor, hu.work⟩
  have hrecord : ∀ event, (w.record event).Feeds P :=
    fun _ => ⟨h.invocations, h.tasks, h.reactor, h.work⟩
  unfold Client.stepListener? at hs
  split at hs
  · cases hs
  · split at hs
    · split at hs
      · cases hs
        exact hlistener _ h
      · cases hs
        exact hlistener _ (h.ask _ _ _ none)
    · split at hs
      · cases hs
        exact hlistener _ h
      · split at hs
        · cases hs
          exact hlistener _ (hrecord _)
        · cases hs
          exact hlistener _ h
      · cases hs
    · cases hs
      exact hlistener _ h
    · cases hs
      exact hlistener _ (hrecord _)
    · split at hs <;> cases hs <;> exact hlistener _ h
    · split at hs <;> cases hs <;> exact ⟨h.invocations, h.tasks, h.reactor, h.work⟩
    · cases hs

/-! ## Actions -/

/-- **Genuine outcomes bring genuine outcomes on their way.** -/
theorem act? (h : w.Feeds Outcome.IsGenuine) {action : Action Handler} (ha : action.IsGenuine)
    (hs : w.act? action = some w') : w'.Feeds Outcome.IsGenuine := by
  have hother : ∀ {u : Client Handler}, u.invocations = w.invocations → u.tasks = w.tasks →
      u.reactor = w.reactor → u.work = w.work → u.Feeds Outcome.IsGenuine :=
    fun hi ht hr hw => ⟨hi ▸ h.invocations, ht ▸ h.tasks, hr ▸ h.reactor, hw ▸ h.work⟩
  cases action with
  | openSession options identity =>
    unfold Client.act? at hs
    dsimp only at hs
    cases ho : w.openSession options identity with
    | error e =>
      rw [ho] at hs
      cases hs
    | ok w₁ =>
      rw [ho] at hs
      cases hs
      unfold openSession at ho
      split at ho <;> cases ho
      exact hother rfl rfl rfl rfl
  | ask session operation timeout callback =>
    cases hs
    exact h.ask session operation timeout callback
  | changeSetting session change =>
    cases hs
    rcases w.changeSetting_cases session change with hkept | ⟨s, t, -, -, heq⟩
    · rwa [hkept]
    · rw [heq]
      exact hother rfl rfl rfl rfl
  | clearCursor session channels =>
    cases hs
    unfold clearCursor
    split
    · exact hother rfl rfl rfl rfl
    · exact h
  | beginClose session timeout =>
    cases hs
    exact hother rfl rfl rfl rfl
  | closeFrontend =>
    cases hs
    exact h.closeFrontend
  | stopReactor =>
    cases hs
    exact h.withReactor h.reactor.stop
  | cancelTask t => exact h.cancelTask? hs
  | startListener session channels receiver timeout fault =>
    cases hs
    exact h.startListener session channels receiver timeout fault
  | stopListener receiver =>
    cases hs
    exact h.stopListener receiver
  | stepInvocation i => exact h.stepInvocation? hs
  | stepTask t => exact h.stepTask? hs
  | stepReactor => exact h.stepReactor? hs
  | stepClosing k => exact h.stepClosing? hs
  | stepListener l => exact h.stepListener? hs
  | answerInvocation i answer =>
    refine h.answerInvocation? ?_ hs
    rintro outcome rfl
    exact ha
  | wakeInvocation i => exact h.wakeInvocation? hs
  | returnInvocation i raised => exact h.returnInvocation? hs
  | answerTask t answer =>
    refine h.answerTask? ?_ hs
    rintro outcome rfl
    exact ha
  | wakeTask t => exact h.wakeTask? hs
  | returnTask t raised => exact h.returnTask? hs
  | pollReactor => exact h.pollReactor? hs
  | postAttempt a answer =>
    refine h.postAttempt? ?_ hs
    rintro outcome rfl
    exact ha
  | returnReactor raised => exact h.returnReactor? hs
  | giveUpClosing k =>
    change w.giveUpClosing? k = some w' at hs
    unfold giveUpClosing? at hs
    obtain ⟨closing, -, hs⟩ := Option.bind_eq_some_iff.1 hs
    obtain ⟨s, -, hs⟩ := Option.bind_eq_some_iff.1 hs
    split at hs
    · split at hs <;> cases hs
      exact hother rfl rfl rfl rfl
    · cases hs
  | finishFrontend =>
    cases hs
    exact hother rfl rfl rfl rfl
  | wakeListener l =>
    change w.wakeListener? l = some w' at hs
    unfold wakeListener? at hs
    split at hs <;> cases hs
    exact hother rfl rfl rfl rfl
  | returnListener l raised =>
    change w.returnListener? l raised = some w' at hs
    obtain ⟨-, -, -, -, ⟨-, rfl⟩ | ⟨e, -, ⟨-, rfl⟩ | ⟨-, rfl⟩⟩⟩ := returnListener?_eq_some hs
    all_goals exact hother rfl rfl rfl rfl
  | collect receiver =>
    cases hs
    exact hother rfl rfl rfl rfl
  | tick now =>
    change w.tick? now = some w' at hs
    unfold tick? at hs
    split at hs <;> cases hs
    exact hother rfl rfl rfl rfl
  | draw vector =>
    cases hs
    exact hother rfl rfl rfl rfl

end Feeds

/-- **In a world that gives genuine outcomes, only genuine outcomes are fed to cycles.** -/
theorem feeds_isGenuine (h : ReachableBy Action.IsGenuine w) : w.Feeds Outcome.IsGenuine := by
  induction h with
  | initial config fresh frontend =>
    refine ⟨?_, ?_, .initial, trivial⟩
    · rintro v ⟨⟩
    · rintro task ⟨⟩
  | act action _ ha hs ih => exact ih.act? ha hs

end Client

end Pubsub
