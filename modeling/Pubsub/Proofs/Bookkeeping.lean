import Pubsub.Proofs.Feeding
import Pubsub.Proofs.Settling

/-!
# Every action makes at most one entry

The state of a client is more than its ledger, but what an action does to the ledger is one
`Ledger.Entry` (`Client.entry_act?`). This is the one place where the steps of invocations, tasks,
the reactor, closings and listeners are opened; the facts about claims, calls and positions are read
off the entries.
-/

namespace Pubsub

variable {Handler : Type} {P : Outcome → Prop} {w w' w₁ w₂ : Client Handler}

namespace Client

open Ledger

/-! ## Calls -/

theorem entry_abandonCall (w : Client Handler) (c : Nat) :
    Entry P w.ledger (w.abandonCall c).ledger := by
  cases h : w.callOn? c with
  | none =>
    have hw : w.abandonCall c = w := by simp [abandonCall, h]
    rw [hw]
    exact .blank
  | some held =>
    obtain ⟨call, s⟩ := held
    cases hu : call.settled with
    | false =>
      rw [ledger_abandonCall_of_unsettled h hu]
      exact .abandoned h hu
    | true =>
      rw [abandonCall_of_settled (callOn?_eq_some_iff.1 h).1 hu]
      exact .blank

section Resumed

variable {c : Nat} {call : Call Handler} {s : Session} {step : CycleStep} {now : Binary64}
  {fed : Option Outcome}

/-- A call whose cycle made a step is found as it is after the step. -/
theorem callOn?_after (hc : w.callOn? c = some (call, s))
    (hl : w₁.ledger = w.ledger.setCall c (call.after step) (s.after step)) :
    w₁.callOn? c = some (call.after step, s.after step) := by
  show w₁.ledger.callOn? c = _
  rw [hl]
  exact callOn?_setCall (l := w.ledger) hc (call.after step) rfl (s.after step)

/-- A call whose cycle made a step, and which was then completed with the result that the step came
to. -/
theorem entry_completeCall (hc : w.callOn? c = some (call, s)) (hP : ∀ o, fed = some o → P o)
    (hr : call.cycle.resume? s.cursor now fed = some step)
    (hl : w₁.ledger = w.ledger.setCall c (call.after step) (s.after step)) {result : Result}
    (he : step.effect = .finish result) {running : Bool}
    (h : w₁.completeCall c result = .ok (w₂, running)) : Entry P w.ledger w₂.ledger := by
  have hc₁ := callOn?_after hc hl
  cases hu : call.settled with
  | true =>
    rw [completeCall_of_settled hc₁ hu] at h
    cases h
  | false =>
    obtain ⟨w₃, h₃, -, hl₃⟩ := completeCall_of_unsettled hc₁ hu result
    obtain ⟨rfl, -⟩ : w₃ = w₂ ∧ _ := by simpa [h₃] using h
    rw [hl₃, hl]
    refine .ended now fed hc hu hP hr ?_
    rintro _ ⟨⟩
    exact he

/-- A call whose cycle made a step, and which was then abandoned. -/
theorem entry_abandonCall_after (hc : w.callOn? c = some (call, s)) (hP : ∀ o, fed = some o → P o)
    (hr : call.cycle.resume? s.cursor now fed = some step)
    (hl : w₁.ledger = w.ledger.setCall c (call.after step) (s.after step)) :
    Entry P w.ledger (w₁.abandonCall c).ledger := by
  have hc₁ := callOn?_after hc hl
  cases hu : call.settled with
  | true =>
    rw [abandonCall_of_settled (callOn?_eq_some_iff.1 hc₁).1 hu, hl]
    exact .resumed now fed hc hP hr
  | false =>
    rw [ledger_abandonCall_of_unsettled hc₁ hu, hl]
    exact .ended now fed hc hu hP hr (by rintro _ ⟨⟩)

end Resumed

/-! ## Drives -/

/-- A step of a drive makes an entry, touches nothing but sessions, calls and journal, and leaves no
outcome to be fed. -/
theorem entry_stepDrive? {c : Nat} {drive drive' : Drive} (hd : drive.Feeds P)
    (h : w.stepDrive? c drive = some (w', drive')) :
    Entry P w.ledger w'.ledger ∧ w.AgreesOutside w' ∧ drive'.Feeds P := by
  cases drive with
  | resuming fed =>
    have hP : ∀ o, fed = some o → P o := by
      rintro o rfl
      exact hd
    unfold stepDrive? at h
    dsimp only at h
    cases hw : w.resumeCall? c fed with
    | none =>
      rw [hw] at h
      cases h
    | some resumed =>
      obtain ⟨w₁, effect⟩ := resumed
      obtain ⟨call, s, step, hc, hr, he, ha, hl⟩ := resumeCall?_eq_some hw
      have hresumed : Entry P w.ledger w₁.ledger := hl ▸ .resumed w.clock fed hc hP hr
      rw [hw] at h
      cases effect with
      | send =>
        dsimp only at h
        split at h
        · cases h
          exact ⟨hresumed, ha, trivial⟩
        · cases h
          refine ⟨?_, ha.trans (agreesOutside_record _ _), trivial⟩
          rw [ledger_record_of_notice? _ rfl]
          exact hresumed
      | sleep seconds =>
        cases h
        refine ⟨?_, ha.trans (agreesOutside_record _ _), trivial⟩
        rw [ledger_record_of_notice? _ rfl]
        exact hresumed
      | raise e =>
        cases h
        exact ⟨hresumed, ha, trivial⟩
      | finish result =>
        -- The call is completed in the same step, with a callback to run, without one, or in vain.
        dsimp only at h
        split at h
        · cases h
          exact ⟨hresumed, ha, trivial⟩
        · rename_i hcomplete
          cases h
          exact ⟨entry_completeCall hc hP hr hl he.symm hcomplete,
            ha.trans (agreesOutside_completeCall hcomplete), trivial⟩
        · rename_i hcomplete
          cases h
          exact ⟨entry_completeCall hc hP hr hl he.symm hcomplete,
            ha.trans (agreesOutside_completeCall hcomplete), trivial⟩
  | failing e =>
    cases h
    exact ⟨entry_abandonCall w c, agreesOutside_abandonCall w c, trivial⟩
  | inFlight => cases h
  | asleep seconds => cases h
  | calling result => cases h
  | finished result => cases h
  | failed e => cases h

/-- A step of a drive changes sessions, calls and journal only. -/
theorem agreesOutside_stepDrive? {c : Nat} {drive drive' : Drive}
    (h : w.stepDrive? c drive = some (w', drive')) : w.AgreesOutside w' := by
  have hfeeds : drive.Feeds fun _ => True := by
    unfold Drive.Feeds
    split <;> trivial
  exact (entry_stepDrive? hfeeds h).2.1

/-! ## Invocations -/

section Invocations

variable {i : Nat} {v : Invocation Handler}

/-- An invocation is in the phase that it was moved to. -/
theorem invocationPhase?_setInvocation (hv : w.invocations[i]? = some v) (phase : InvocationPhase) :
    (w.setInvocation i phase).invocationPhase? i = some phase := by
  unfold invocationPhase? setInvocation
  rw [List.getElem?_modify, hv]
  simp

/-- Moving an invocation to a phase, or from it, counts among the operations that build requests on
its session if their requests are built in that phase. -/
theorem building_setInvocation (hv : w.invocations[i]? = some v) (phase : InvocationPhase)
    (j : Nat) :
    (w.setInvocation i phase).building j + (if v.session == j && v.phase.isBuilding then 1 else 0)
      = w.building j + (if v.session == j && phase.isBuilding then 1 else 0) :=
  countP_modify_add (p := fun v : Invocation Handler => v.session == j && v.phase.isBuilding)
    (fun v => { v with phase }) hv

/-- Moving an invocation from a phase to another changes the ledger only if its request is being
built in one of them. -/
theorem ledger_setInvocation (hv : w.invocations[i]? = some v) {phase : InvocationPhase}
    (hb : v.phase.isBuilding = phase.isBuilding) : (w.setInvocation i phase).ledger = w.ledger := by
  have hbuilding : (w.setInvocation i phase).building = w.building := by
    funext j
    have hj := building_setInvocation hv phase j
    rw [hb] at hj
    exact Nat.add_right_cancel hj
  unfold ledger
  rw [hbuilding]
  rfl

/-- An operation that claims its session begins to build its request. -/
theorem ledger_claimed (hv : w.invocations[i]? = some v) (hp : v.phase = .asked) :
    (w.setInvocation i .claimed).ledger = w.ledger.beginBuilding v.session := by
  have hb : (w.setInvocation i .claimed).building
      = fun j => w.building j + if v.session = j then 1 else 0 := by
    funext j
    have hj := building_setInvocation hv .claimed j
    rw [hp] at hj
    simpa [InvocationPhase.isBuilding] using hj
  unfold ledger
  rw [hb]
  rfl

/-- An operation whose request is built or cannot be built is not building it any more. -/
theorem ledger_unclaimed (hv : w.invocations[i]? = some v) (hp : v.phase = .claimed)
    (phase : InvocationPhase) (hn : phase.isBuilding = false) :
    (w.setInvocation i phase).ledger = w.ledger.endBuilding v.session := by
  have hb : (w.setInvocation i phase).building
      = fun j => w.building j - if v.session = j then 1 else 0 := by
    funext j
    have hj := building_setInvocation hv phase j
    rw [hp, hn] at hj
    simp only [InvocationPhase.isBuilding, Bool.and_true, Bool.and_false, beq_iff_eq,
      Bool.false_eq_true, if_false, Nat.add_zero] at hj
    omega
  unfold ledger
  rw [hb]
  rfl

/-- An operation that builds its request is counted. -/
theorem building_pos (hv : w.invocations[i]? = some v) (hp : v.phase = .claimed) :
    0 < w.building v.session := by
  refine List.countP_pos_iff.2 ⟨v, List.mem_of_getElem? hv, ?_⟩
  simp [hp, InvocationPhase.isBuilding]

/-- An operation that was asked for claims its session. -/
theorem stepInvocation?_of_asked (hv : w.invocations[i]? = some v) (hp : v.phase = .asked) :
    w.stepInvocation? i = w.claimFor? i v := by
  unfold stepInvocation?
  rw [hv]
  dsimp only
  rw [hp]

/-- An operation that claimed its session builds its request. -/
theorem stepInvocation?_of_claimed (hv : w.invocations[i]? = some v) (hp : v.phase = .claimed) :
    w.stepInvocation? i = w.buildFor? i v := by
  unfold stepInvocation?
  rw [hv]
  dsimp only
  rw [hp]

theorem entry_claimFor? (hv : w.invocations[i]? = some v)
    (hp : v.phase = .asked) (h : w.claimFor? i v = some w') : Entry P w.ledger w'.ledger := by
  unfold claimFor? at h
  obtain ⟨s, hs, h⟩ := Option.map_eq_some_iff.1 h
  split at h
  · subst h
    rw [ledger_setInvocation hv (by rw [hp]; rfl)]
    exact .blank
  · rename_i t ht
    subst h
    rw [ledger_claimed (w := w.setSession v.session t) hv hp]
    exact .claimed hs ht

theorem entry_buildFor? (hv : w.invocations[i]? = some v)
    (hp : v.phase = .claimed) (h : w.buildFor? i v = some w') : Entry P w.ledger w'.ledger := by
  have hb := building_pos hv hp
  unfold buildFor? at h
  obtain ⟨s, hs, h⟩ := Option.map_eq_some_iff.1 h
  split at h
  · rename_i e config _
    subst h
    rw [ledger_unclaimed
      (w := ({ w with config } : Client Handler).setSession v.session (s.release none))
      hv hp (.ended (.error e)) rfl]
    exact .unbuilt hs hb
  · rename_i request config _
    subst h
    rw [ledger_unclaimed (w := { w with config, calls := w.calls ++ [_] }) hv hp
      (.launching w.calls.length) rfl]
    exact .accepted hs hb request (v.callback.or w.frontend.callback)

theorem ledger_launchFor {c : Nat} (hv : w.invocations[i]? = some v)
    (hb : v.phase.isBuilding = false) : (w.launchFor i c).ledger = w.ledger := by
  unfold launchFor
  split
  · exact ledger_setInvocation hv hb
  · split
    · exact ledger_setInvocation (w := { w with tasks := w.tasks ++ [_] }) hv hb
    · exact ledger_setInvocation hv hb
  · split
    · exact ledger_setInvocation hv hb
    · rename_i reactor _
      exact ledger_setInvocation (w := { w with reactor }) hv hb

end Invocations

theorem entry_stepInvocation? {i : Nat} (hf : ∀ v ∈ w.invocations, v.phase.Feeds P)
    (h : w.stepInvocation? i = some w') : Entry P w.ledger w'.ledger := by
  unfold stepInvocation? at h
  cases hv : w.invocations[i]? with
  | none =>
    rw [hv] at h
    cases h
  | some v =>
    rw [hv] at h
    have hfeeds := hf v (List.mem_of_getElem? hv)
    dsimp only at h
    split at h
    · rename_i hp
      exact entry_claimFor? hv hp h
    · rename_i hp
      exact entry_buildFor? hv hp h
    · rename_i c hp
      cases h
      rw [ledger_launchFor hv (by rw [hp]; rfl)]
      exact .blank
    · rename_i hp
      cases h
      rw [ledger_setInvocation hv (by rw [hp]; rfl)]
      exact .blank
    · rename_i hp
      cases h
      rw [ledger_setInvocation hv (by rw [hp]; rfl)]
      exact .blank
    · rename_i c drive _ _ hp
      obtain ⟨⟨w₁, drive'⟩, hd, rfl⟩ := Option.map_eq_some_iff.1 h
      rw [hp] at hfeeds
      obtain ⟨he, ha, -⟩ := entry_stepDrive? hfeeds hd
      have hv₁ : w₁.invocations[i]? = some v := by rwa [ha]
      rw [ledger_setInvocation hv₁ (by rw [hp]; rfl)]
      exact he
    · rename_i c e hp
      cases h
      have hv₁ : (w.abandonCall c).invocations[i]? = some v := by
        rwa [agreesOutside_abandonCall w c]
      rw [ledger_setInvocation hv₁ (by rw [hp]; rfl)]
      exact entry_abandonCall w c
    · cases h

/-- An answer to an invocation, a wait that is over and a callback that returned only move it. -/
theorem ledger_driving {i c : Nat} {drive : Drive}
    (hp : w.invocationPhase? i = some (.driving c drive)) (drive' : Drive) :
    (w.setInvocation i (.driving c drive')).ledger = w.ledger := by
  obtain ⟨v, hv, hp⟩ := Option.map_eq_some_iff.1 hp
  exact ledger_setInvocation hv (by rw [hp]; rfl)

theorem ledger_answerInvocation? {i : Nat} {answer : Except Error Outcome}
    (h : w.answerInvocation? i answer = some w') : w'.ledger = w.ledger := by
  unfold answerInvocation? at h
  split at h
  · rename_i hp
    obtain ⟨drive', -, rfl⟩ := Option.map_eq_some_iff.1 h
    exact ledger_driving hp drive'
  · cases h

theorem ledger_wakeInvocation? {i : Nat} (h : w.wakeInvocation? i = some w') :
    w'.ledger = w.ledger := by
  unfold wakeInvocation? at h
  split at h
  · rename_i hp
    obtain ⟨drive', -, rfl⟩ := Option.map_eq_some_iff.1 h
    exact ledger_driving hp drive'
  · cases h

theorem ledger_returnInvocation? {i : Nat} {raised : Option Error}
    (h : w.returnInvocation? i raised = some w') : w'.ledger = w.ledger := by
  unfold returnInvocation? at h
  split at h
  · rename_i hp
    cases h
    exact ledger_driving hp _
  · rename_i hp
    cases h
    exact ledger_driving hp _
  · cases h

/-! ## Tasks -/

theorem entry_stepTask? {t : Nat} (hf : ∀ task ∈ w.tasks, task.phase.Feeds P)
    (h : w.stepTask? t = some w') : Entry P w.ledger w'.ledger := by
  unfold stepTask? at h
  cases ht : w.tasks[t]? with
  | none =>
    rw [ht] at h
    cases h
  | some task =>
    rw [ht] at h
    have hfeeds := hf task (List.mem_of_getElem? ht)
    dsimp only at h
    split at h
    · cases h
      exact .blank
    · rename_i drive hp
      obtain ⟨⟨w₁, drive'⟩, hd, rfl⟩ := Option.map_eq_some_iff.1 h
      rw [hp] at hfeeds
      exact (entry_stepDrive? hfeeds hd).1

theorem ledger_answerTask? {t : Nat} {answer : Except Error Outcome}
    (h : w.answerTask? t answer = some w') : w'.ledger = w.ledger := by
  unfold answerTask? at h
  split at h
  · obtain ⟨drive, -, rfl⟩ := Option.map_eq_some_iff.1 h
    rfl
  · cases h

theorem ledger_wakeTask? {t : Nat} (h : w.wakeTask? t = some w') : w'.ledger = w.ledger := by
  unfold wakeTask? at h
  split at h
  · obtain ⟨drive, -, rfl⟩ := Option.map_eq_some_iff.1 h
    rfl
  · cases h

theorem ledger_returnTask? {t : Nat} {raised : Option Error}
    (h : w.returnTask? t raised = some w') : w'.ledger = w.ledger := by
  unfold returnTask? at h
  split at h <;> cases h <;> rfl

theorem ledger_cancelTask? {t : Nat} (h : w.cancelTask? t = some w') : w'.ledger = w.ledger := by
  unfold cancelTask? at h
  split at h <;> cases h <;> rfl

/-! ## The reactor -/

theorem entry_giveUpCall (w : Client Handler) (c : Nat) (e : Error) :
    Entry P w.ledger (w.giveUpCall c e).ledger := by
  have he : Entry P (({ w with work := .none } : Client Handler).print e.describe).ledger
      (w.giveUpCall c e).ledger := entry_abandonCall _ c
  rw [ledger_print] at he
  exact he

theorem ledger_settleAttempt? {a : Nat} {attempt : Attempt}
    (h : w.settleAttempt? a = some (w', attempt)) : w'.ledger = w.ledger := by
  unfold settleAttempt? at h
  split at h
  · split at h
    · cases h
    · cases h
      rfl
  · cases h

theorem ledger_beginJob (w : Client Handler) (job : Job) : (w.beginJob job).ledger = w.ledger := by
  cases job with
  | advance c => rfl
  | arrive a answer =>
    unfold beginJob
    dsimp only
    split
    · rename_i w₁ attempt h
      have hl : w₁.ledger = w.ledger := ledger_settleAttempt? h
      exact hl
    · rfl
  | expire a =>
    unfold beginJob
    dsimp only
    split
    · rename_i w₁ attempt h
      have hl : w₁.ledger = w.ledger := ledger_settleAttempt? h
      split <;> exact hl
    · rfl

theorem entry_advanceCall {c : Nat} {fed : Option Outcome} (hP : ∀ o, fed = some o → P o) :
    Entry P w.ledger (w.advanceCall c fed).ledger := by
  unfold advanceCall
  cases hw : w.resumeCall? c fed with
  | none => exact .blank
  | some resumed =>
    obtain ⟨w₁, effect⟩ := resumed
    obtain ⟨call, s, step, hc, hr, he, -, hl⟩ := resumeCall?_eq_some hw
    have hresumed : Entry P w.ledger w₁.ledger := hl ▸ .resumed w.clock fed hc hP hr
    cases effect with
    | send => exact hresumed
    | sleep seconds => exact hresumed
    | raise e =>
      refine entry_abandonCall_after hc hP hr ?_
      rw [ledger_print]
      exact hl
    | finish result =>
      dsimp only
      split
      · rw [ledger_print]
        exact hresumed
      · rename_i w₂ hcomplete
        have hended : Entry P w.ledger w₂.ledger :=
          entry_completeCall hc hP hr hl he.symm hcomplete
        exact hended
      · rename_i w₂ hcomplete
        have hended : Entry P w.ledger w₂.ledger :=
          entry_completeCall hc hP hr hl he.symm hcomplete
        exact hended

theorem entry_stepReactor? (hf : w.work.Feeds P) (h : w.stepReactor? = some w') :
    Entry P w.ledger w'.ledger := by
  unfold stepReactor? at h
  split at h
  · rename_i c fed hwork
    cases h
    refine entry_advanceCall ?_
    rintro o rfl
    rw [hwork] at hf
    exact hf
  · rename_i c seconds hwork
    cases h
    unfold pauseCall
    split
    · exact entry_giveUpCall w c _
    · exact .blank
  · rename_i c hwork
    cases h
    unfold armCall
    split
    · exact .blank
    · dsimp only
      split
      · exact entry_giveUpCall w c _
      · exact .blank
  · rename_i a hwork
    cases h
    unfold submitAttempt
    split
    · exact .blank
    · split
      · exact entry_giveUpCall w _ _
      · rw [ledger_record_of_notice? _ rfl]
        exact .blank
  · cases h
  · split at h
    · rename_i reactor job _
      cases h
      rw [ledger_beginJob]
      exact .blank
    · cases h
      exact .blank
    · cases h

theorem entry_postAttempt? {a : Nat} {answer : Except Error Outcome}
    (h : w.postAttempt? a answer = some w') : Entry P w.ledger w'.ledger := by
  unfold postAttempt? at h
  split at h
  · split at h
    · dsimp only at h
      -- A reactor that was stopped takes no job, and the call is abandoned instead.
      split at h
      · cases h
        exact .blank
      · cases h
        rename_i attempt _ _ _ _ _
        exact entry_abandonCall
          { w with attempts := w.attempts.set a { attempt with inFlight := false } } attempt.call
    · cases h
  · cases h

theorem ledger_pollReactor? (h : w.pollReactor? = some w') : w'.ledger = w.ledger := by
  unfold pollReactor? at h
  split at h <;> cases h
  rfl

theorem ledger_returnReactor? {raised : Option Error} (h : w.returnReactor? raised = some w') :
    w'.ledger = w.ledger := by
  obtain ⟨-, ⟨-, rfl⟩ | ⟨e, -, ⟨-, rfl⟩ | ⟨-, rfl⟩⟩⟩ := returnReactor?_eq_some h
  · rfl
  · rw [ledger_print]
    rfl
  · rfl

/-! ## Sessions -/

/-- The origin of a new session was given by a text, in the options or in the settings. -/
theorem exists_given_of_originOf {options : SessionOptions} {origin : String}
    {c c' : Configuration} (h : Session.originOf options c = (.ok origin, c')) :
    ∃ given, normalizeOrigin given = .ok origin := by
  unfold Session.originOf at h
  split at h
  · obtain ⟨h, -⟩ := Prod.mk.inj h
    obtain ⟨value, -, h⟩ := bind_eq_ok_iff.1 h
    exact ⟨value.toText, h⟩
  · exact ⟨options.origin.toText, (Prod.mk.inj h).1⟩

theorem isNew_create {options : SessionOptions} {identity : String} {c c' : Configuration}
    {s : Session} (h : Session.create options identity c = (.ok s, c')) : s.IsNew := by
  unfold Session.create at h
  split at h
  · cases h
  · rename_i origin _ horigin
    dsimp only at h
    obtain ⟨h, -⟩ := Prod.mk.inj h
    obtain ⟨policy, -, rfl⟩ := map_eq_ok_iff.1 h
    exact ⟨rfl, rfl, rfl, rfl, exists_given_of_originOf horigin⟩

theorem entry_openSession {options : SessionOptions} {identity : String}
    (h : w.openSession options identity = .ok w') : Entry P w.ledger w'.ledger := by
  unfold openSession at h
  split at h
  · cases h
  · rename_i s config hs
    cases h
    exact .opened (isNew_create hs)

theorem entry_changeSetting (w : Client Handler) (i : Nat) (change : SettingChange) :
    Entry P w.ledger (w.changeSetting i change).2.ledger := by
  rcases w.changeSetting_cases i change with hkept | ⟨s, t, hs, ht, heq⟩
  · rw [hkept]
    exact .blank
  · rw [heq]
    exact .changed hs change ht

theorem entry_clearCursor (w : Client Handler) (i : Nat) (channels : Option (List String)) :
    Entry P w.ledger (w.clearCursor i channels).ledger := by
  unfold clearCursor
  split
  · rename_i s hs
    refine .cleared hs _ ?_
    intro channel position h
    split at h
    · exact Cursor.get?_of_get?_clear h
    · cases h
  · exact .blank

theorem ledger_closeFrontend (w : Client Handler) : w.closeFrontend.ledger = w.ledger := by
  unfold closeFrontend
  dsimp only
  split <;> rfl

theorem entry_stepClosing? {k : Nat} (h : w.stepClosing? k = some w') :
    Entry P w.ledger w'.ledger := by
  unfold stepClosing? at h
  obtain ⟨closing, -, h⟩ := Option.bind_eq_some_iff.1 h
  obtain ⟨s, hs, h⟩ := Option.bind_eq_some_iff.1 h
  split at h
  · split at h
    · cases h
      exact .blank
    · split at h <;> cases h <;> exact .blank
  · split at h <;> cases h
    exact .blank
  · cases h
    exact .closed hs
  · cases h
    show Entry P w.ledger (ledger (if s.ownsFrontend then w.closeFrontend else w))
    split
    · rw [ledger_closeFrontend]
      exact .blank
    · exact .blank
  · cases h

theorem ledger_giveUpClosing? {k : Nat} (h : w.giveUpClosing? k = some w') :
    w'.ledger = w.ledger := by
  unfold giveUpClosing? at h
  obtain ⟨closing, -, h⟩ := Option.bind_eq_some_iff.1 h
  obtain ⟨s, -, h⟩ := Option.bind_eq_some_iff.1 h
  split at h
  · split at h <;> cases h
    rfl
  · cases h

/-! ## Listeners -/

theorem ledger_ask (w : Client Handler) (i : Nat) (operation : Operation) (timeout : Json)
    (callback : Option Handler) : (w.ask i operation timeout callback).ledger = w.ledger := by
  have hb : (w.ask i operation timeout callback).building = w.building := by
    funext j
    unfold building ask
    rw [List.countP_append]
    simp [InvocationPhase.isBuilding]
  unfold ledger
  rw [hb]
  rfl

theorem ledger_stopListener (w : Client Handler) (receiver : String) :
    (w.stopListener receiver).ledger = w.ledger := by
  unfold stopListener
  split <;> rfl

theorem ledger_startListener (w : Client Handler) (session : Nat) (channels : Json)
    (receiver : Option String) (timeout : Json) (fault : Option Error) :
    (w.startListener session channels receiver timeout fault).2.ledger = w.ledger := by
  obtain hkept | ⟨r, rfl, hstop | ⟨list, -, henlist⟩⟩ :=
    w.startListener_cases session channels receiver timeout fault
  · rw [hkept]
  · rw [hstop, ledger_stopListener]
  · rw [henlist]
    exact ledger_stopListener w r

theorem ledger_stepListener? {l : Nat} (h : w.stepListener? l = some w') :
    w'.ledger = w.ledger := by
  unfold stepListener? at h
  split at h
  · cases h
  · split at h
    · split at h
      · cases h
        rfl
      · cases h
        exact ledger_ask w _ _ _ none
    · split at h
      · cases h
        rfl
      · split at h
        · cases h
          exact ledger_record_of_notice? w rfl
        · cases h
          rfl
      · cases h
    · cases h
      rfl
    · cases h
      exact ledger_record_of_notice? w rfl
    · split at h <;> cases h <;> rfl
    · split at h <;> cases h <;> rfl
    · cases h

theorem ledger_wakeListener? {l : Nat} (h : w.wakeListener? l = some w') :
    w'.ledger = w.ledger := by
  unfold wakeListener? at h
  split at h <;> cases h
  rfl

theorem ledger_returnListener? {l : Nat} {raised : Option Error}
    (h : w.returnListener? l raised = some w') : w'.ledger = w.ledger := by
  obtain ⟨-, -, -, -, ⟨-, rfl⟩ | ⟨e, -, ⟨-, rfl⟩ | ⟨-, rfl⟩⟩⟩ := returnListener?_eq_some h
  · rfl
  · exact ledger_print w e.describe
  · rfl

/-! ## Actions -/

/-- **An action makes at most one entry**, and feeds to a cycle only outcomes that were on their
way. -/
theorem entry_act? {action : Action Handler} (hf : w.Feeds P) (h : w.act? action = some w') :
    Entry P w.ledger w'.ledger := by
  have of_eq : ∀ {u : Client Handler}, u.ledger = w.ledger → Entry P w.ledger u.ledger :=
    fun hu => hu ▸ .blank
  cases action with
  | openSession options identity =>
    unfold act? at h
    dsimp only at h
    cases hs : w.openSession options identity with
    | error e =>
      rw [hs] at h
      cases h
    | ok w₁ =>
      rw [hs] at h
      cases h
      exact entry_openSession hs
  | ask session operation timeout callback =>
    cases h
    exact of_eq (ledger_ask w session operation timeout callback)
  | changeSetting session change =>
    cases h
    exact entry_changeSetting w session change
  | clearCursor session channels =>
    cases h
    exact entry_clearCursor w session channels
  | beginClose session timeout =>
    cases h
    exact .blank
  | closeFrontend =>
    cases h
    exact of_eq (ledger_closeFrontend w)
  | stopReactor =>
    cases h
    exact .blank
  | cancelTask t => exact of_eq (ledger_cancelTask? h)
  | startListener session channels receiver timeout fault =>
    cases h
    exact of_eq (ledger_startListener w session channels receiver timeout fault)
  | stopListener receiver =>
    cases h
    exact of_eq (ledger_stopListener w receiver)
  | stepInvocation i => exact entry_stepInvocation? hf.invocations h
  | stepTask t => exact entry_stepTask? hf.tasks h
  | stepReactor => exact entry_stepReactor? hf.work h
  | stepClosing k => exact entry_stepClosing? h
  | stepListener l => exact of_eq (ledger_stepListener? h)
  | answerInvocation i answer => exact of_eq (ledger_answerInvocation? h)
  | wakeInvocation i => exact of_eq (ledger_wakeInvocation? h)
  | returnInvocation i raised => exact of_eq (ledger_returnInvocation? h)
  | answerTask t answer => exact of_eq (ledger_answerTask? h)
  | wakeTask t => exact of_eq (ledger_wakeTask? h)
  | returnTask t raised => exact of_eq (ledger_returnTask? h)
  | pollReactor => exact of_eq (ledger_pollReactor? h)
  | postAttempt a answer => exact entry_postAttempt? h
  | returnReactor raised => exact of_eq (ledger_returnReactor? h)
  | giveUpClosing k => exact of_eq (ledger_giveUpClosing? h)
  | finishFrontend =>
    cases h
    exact .blank
  | wakeListener l => exact of_eq (ledger_wakeListener? h)
  | returnListener l raised => exact of_eq (ledger_returnListener? h)
  | collect receiver =>
    cases h
    exact .blank
  | tick now =>
    unfold act? tick? at h
    dsimp only at h
    split at h <;> cases h
    exact .blank
  | draw vector =>
    cases h
    exact .blank

/-! ## Reachable ledgers

What holds of the empty ledger and is kept by every entry holds in every state that runs lead to.
-/

/-- **The invariants of ledgers hold in reachable states.** The runs may be restricted to actions
that satisfy `A`, if that restricts the outcomes on their way to those that satisfy `P`. -/
theorem ReachableBy.ledger {A : Action Handler → Prop} {Q : Ledger Handler → Prop}
    (hf : ∀ {w}, ReachableBy A w → w.Feeds P) (hempty : Q Ledger.empty)
    (hentry : ∀ {l l'}, Q l → Entry P l l' → Q l') (h : ReachableBy A w) : Q w.ledger := by
  induction h with
  | initial config fresh frontend => exact hempty
  | act action hw _ ha ih => exact hentry ih (entry_act? (hf hw) ha)

/-- The same for runs without restriction. -/
theorem Reachable.ledger {Q : Ledger Handler → Prop} (hempty : Q Ledger.empty)
    (hentry : ∀ {l l'}, Q l → Entry (fun _ => True) l l' → Q l') (h : Reachable w) : Q w.ledger :=
  ReachableBy.ledger (fun {w} _ => w.feeds_true) hempty hentry h

end Client

end Pubsub
