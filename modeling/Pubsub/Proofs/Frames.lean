import Pubsub.Proofs.Batons

/-!
# What an action leaves alone

An action of one thread touches little of the state of the others. A call is changed only by an
action of somebody who has it (`Client.Handles`), an invocation only by its own thread, and new
attempts are made only for the call that the reactor is about to make one for. A session becomes
busy only by the claim of an operation, and closed only at the hand of a closing that was woken.

`Client.Frame` collects these facts, and `frame_act?` says them of every action. What a thread knows
of its own state while others act is read off it.
-/

namespace Pubsub

variable {Handler : Type}

/-- Is it an action of the invocation: a step that its thread takes, or an answer that its thread
gets? -/
def Action.isOf (k : Nat) : Action Handler → Bool
  | .stepInvocation j => j == k
  | .answerInvocation j _ => j == k
  | .wakeInvocation j => j == k
  | .returnInvocation j _ => j == k
  | _ => false

/-- Is it an action of the task: a step that it takes, an answer that it gets, or its
cancellation? -/
def Action.isOfTask (t : Nat) : Action Handler → Bool
  | .stepTask u => u == t
  | .answerTask u _ => u == t
  | .wakeTask u => u == t
  | .returnTask u _ => u == t
  | .cancelTask u => u == t
  | _ => false

/-- Is it an action of a closing? -/
def Action.isClosing : Action Handler → Bool
  | .beginClose _ _ => true
  | .stepClosing _ => true
  | .giveUpClosing _ => true
  | _ => false

/-- No session is busy or closed that was not before. -/
structure RaisesNoFlag (before after : List Session) : Prop where
  busy : ∀ {i : Nat} {s' : Session}, after[i]? = some s' → s'.busy = true →
    ∃ s, before[i]? = some s ∧ s.busy = true
  closed : ∀ {i : Nat} {s' : Session}, after[i]? = some s' → s'.closed = true →
    ∃ s, before[i]? = some s ∧ s.closed = true

namespace RaisesNoFlag

variable {before after last : List Session} {i : Nat} {s t : Session}

theorem refl (sessions : List Session) : RaisesNoFlag sessions sessions :=
  ⟨fun hs hb => ⟨_, hs, hb⟩, fun hs hc => ⟨_, hs, hc⟩⟩

theorem trans (h : RaisesNoFlag before after) (h' : RaisesNoFlag after last) :
    RaisesNoFlag before last := by
  constructor
  · intro i s' hs hb
    obtain ⟨s, hs, hb⟩ := h'.busy hs hb
    exact h.busy hs hb
  · intro i s' hs hc
    obtain ⟨s, hs, hc⟩ := h'.closed hs hc
    exact h.closed hs hc

/-- A session may be rewritten with fewer flags. -/
theorem set (hs : before[i]? = some s) (hb : t.busy = true → s.busy = true)
    (hc : t.closed = true → s.closed = true) : RaisesNoFlag before (before.set i t) := by
  have hflag : ∀ {j : Nat} {s' : Session}, (before.set i t)[j]? = some s' →
      (j = i ∧ s' = t) ∨ before[j]? = some s' := by
    intro j s' hs'
    by_cases hij : i = j
    · subst hij
      rw [List.getElem?_set_self (List.getElem?_eq_some_iff.1 hs).1] at hs'
      exact .inl ⟨rfl, (Option.some.inj hs').symm⟩
    · rw [List.getElem?_set_ne hij] at hs'
      exact .inr hs'
  constructor
  · intro j s' hs' hbusy
    rcases hflag hs' with ⟨rfl, rfl⟩ | hold
    · exact ⟨s, hs, hb hbusy⟩
    · exact ⟨s', hold, hbusy⟩
  · intro j s' hs' hclosed
    rcases hflag hs' with ⟨rfl, rfl⟩ | hold
    · exact ⟨s, hs, hc hclosed⟩
    · exact ⟨s', hold, hclosed⟩

end RaisesNoFlag

namespace Client

variable {w w' u v w₁ : Client Handler} {c i k : Nat}

/-! ## Going on with one call -/

/-- What is done for one call leaves the other calls alone, and raises no flag. -/
structure GoesOn (w : Client Handler) (c : Nat) (w' : Client Handler) : Prop where
  outside : w.AgreesOutside w'
  others : ∀ d, d ≠ c → w'.calls[d]? = w.calls[d]?
  flags : RaisesNoFlag w.sessions w'.sessions

namespace GoesOn

theorem refl (w : Client Handler) (c : Nat) : w.GoesOn c w :=
  ⟨AgreesOutside.refl w, fun _ _ => rfl, .refl _⟩

theorem trans (h : u.GoesOn c v) (h' : v.GoesOn c w) : u.GoesOn c w :=
  ⟨h.outside.trans h'.outside, fun d hd => (h'.others d hd).trans (h.others d hd),
    h.flags.trans h'.flags⟩

theorem record (h : w.GoesOn c w') (event : Event Handler) : w.GoesOn c (w'.record event) :=
  h.trans ⟨agreesOutside_record w' event, fun _ _ => rfl, .refl _⟩

/-- A call may be rewritten, and its session with fewer flags. -/
theorem setCall {call call' : Call Handler} {s t : Session} (h : w.callOn? c = some (call, s))
    (hs : call'.session = call.session) (hb : t.busy = true → s.busy = true)
    (hc : t.closed = true → s.closed = true) : w.GoesOn c (w.setCall c call' t) := by
  refine ⟨agreesOutside_setCall w c call' t, fun d hd => List.getElem?_set_ne hd.symm, ?_⟩
  have hsession : w.sessions[call'.session]? = some s := hs ▸ (callOn?_eq_some_iff.1 h).2
  exact .set hsession hb hc

end GoesOn

theorem goesOn_abandonCall (w : Client Handler) (c : Nat) : w.GoesOn c (w.abandonCall c) := by
  cases h : w.callOn? c with
  | none =>
    have hw : w.abandonCall c = w := by simp [abandonCall, h]
    rw [hw]
    exact .refl w c
  | some held =>
    obtain ⟨call, s⟩ := held
    cases hu : call.settled with
    | false =>
      rw [abandonCall_of_unsettled h hu]
      exact .setCall h rfl (by rintro ⟨⟩) id
    | true =>
      rw [abandonCall_of_settled (callOn?_eq_some_iff.1 h).1 hu]
      exact .refl w c

theorem goesOn_completeCall {result : Result} {running : Bool}
    (h : w.completeCall c result = .ok (w', running)) : w.GoesOn c w' := by
  unfold completeCall at h
  split at h
  · cases h
    exact .refl w c
  · rename_i call s hc
    split at h
    · cases h
    · rename_i call' s' hcomplete
      obtain ⟨-, rfl, rfl⟩ := (Call.complete_eq_ok_iff _ _ _ _ _).1 hcomplete
      have hset : w.GoesOn c
          (w.setCall c { call with settled := true } (s.release (some result))) :=
        .setCall hc rfl (by rintro ⟨⟩) id
      split at h
      · cases h
        exact hset.record _
      · cases h
        exact hset

theorem goesOn_resumeCall? {fed : Option Outcome} {effect : Effect}
    (h : w.resumeCall? c fed = some (w', effect)) : w.GoesOn c w' := by
  unfold resumeCall? at h
  obtain ⟨⟨call, s⟩, hc, h⟩ := Option.bind_eq_some_iff.1 h
  obtain ⟨step, -, h⟩ := Option.bind_eq_some_iff.1 h
  have hset : w.GoesOn c (w.setCall c (call.after step) (s.after step)) := .setCall hc rfl id id
  cases hreport : step.report with
  | none =>
    rw [hreport] at h
    cases h
    exact hset
  | some line =>
    rw [hreport] at h
    cases h
    exact hset.record _

theorem goesOn_stepDrive? {drive drive' : Drive} (h : w.stepDrive? c drive = some (w', drive')) :
    w.GoesOn c w' := by
  cases drive with
  | resuming fed =>
    unfold stepDrive? at h
    dsimp only at h
    cases hresume : w.resumeCall? c fed with
    | none =>
      rw [hresume] at h
      cases h
    | some resumed =>
      obtain ⟨w₁, effect⟩ := resumed
      have hgoes := goesOn_resumeCall? hresume
      rw [hresume] at h
      cases effect with
      | send =>
        dsimp only at h
        split at h
        · cases h
          exact hgoes
        · cases h
          exact hgoes.record _
      | sleep seconds =>
        cases h
        exact hgoes.record _
      | raise e =>
        cases h
        exact hgoes
      | finish result =>
        dsimp only at h
        split at h
        · cases h
          exact hgoes
        · rename_i hcomplete
          cases h
          exact hgoes.trans (goesOn_completeCall hcomplete)
        · rename_i hcomplete
          cases h
          exact hgoes.trans (goesOn_completeCall hcomplete)
  | failing e =>
    cases h
    exact goesOn_abandonCall w c
  | inFlight => cases h
  | asleep seconds => cases h
  | calling result => cases h
  | finished result => cases h
  | failed e => cases h

/-! ## Who does what -/

/-- Is the call in the hands of whoever takes the action? -/
inductive Handles (w : Client Handler) : Action Handler → Nat → Prop where
  | invocation {j c : Nat} {v : Invocation Handler} {b : Baton} (hv : w.invocations[j]? = some v)
      (hb : v.phase.baton? = some (c, b)) : Handles w (.stepInvocation j) c
  | task {t : Nat} {task : LoopTask} (ht : w.tasks[t]? = some task) :
      Handles w (.stepTask t) task.call
  | reactor {c : Nat} {b : Baton} (hb : w.work.baton? = some (c, b)) : Handles w .stepReactor c
  | pool {a : Nat} {attempt : Attempt} (hw : w.work = .submitting a)
      (ha : w.attempts[a]? = some attempt) : Handles w .stepReactor attempt.call
  | worker {a : Nat} {attempt : Attempt} {answer : Except Error Outcome}
      (ha : w.attempts[a]? = some attempt) : Handles w (.postAttempt a answer) attempt.call

/-- Does an operation claim the session by the action? -/
inductive Claims (w : Client Handler) : Action Handler → Nat → Prop where
  | intro {j : Nat} {v : Invocation Handler} {s : Session} (hv : w.invocations[j]? = some v)
      (hp : v.phase = .asked) (hs : w.sessions[v.session]? = some s) (hopen : s.closed = false)
      (hfree : s.busy = false) : Claims w (.stepInvocation j) v.session

/-- A closing that was moved is one that was there, in its new phase. -/
theorem mem_closings_setClosing {closing other : Closing} (hk : w.closings[k]? = some closing)
    {phase : ClosingPhase} (hm : other ∈ (w.setClosing k phase).closings) :
    other ∈ w.closings ∨ other = { closing with phase } := by
  have hmodify : (w.setClosing k phase).closings = w.closings.set k { closing with phase } := by
    show w.closings.modify k _ = _
    rw [List.modify_eq_set_getElem?, hk]
    rfl
  rw [hmodify] at hm
  exact List.mem_or_eq_of_mem_set hm

/-- Does a closing that was woken mark the session as closed by the action? -/
inductive Marks (w : Client Handler) : Action Handler → Nat → Prop where
  | intro {k : Nat} {closing : Closing} (hk : w.closings[k]? = some closing)
      (hp : closing.phase = .woken) : Marks w (.stepClosing k) closing.session

/-- What can become of a task by an action: it moves by itself, stays as it is, or is new. -/
inductive TaskFrame (action : Action Handler) (t : Nat) (before after : Option LoopTask) :
    Prop where
  | own (h : action.isOfTask t = true)
  | kept (h : after = before)
  | created {c : Nat} (h : before = none) (h' : after = some ⟨c, .unstarted⟩)

/-- **What an action leaves alone.** -/
structure Frame (w : Client Handler) (action : Action Handler) (w' : Client Handler) : Prop where
  calls : ∀ {c : Nat} {call : Call Handler}, w.calls[c]? = some call →
    w.Handles action c ∨ w'.calls[c]? = some call
  attempts : ∀ {attempt : Attempt}, attempt ∈ w'.attempts →
    w.work = .arming attempt.call ∨ ∃ old ∈ w.attempts, old.call = attempt.call
  invocations : ∀ {j : Nat} {v : Invocation Handler}, w.invocations[j]? = some v →
    action.isOf j = true ∨ w'.invocations[j]? = some v
  closings : action.isClosing = true ∨ w'.closings = w.closings
  tasks : ∀ t, TaskFrame action t w.tasks[t]? w'.tasks[t]?
  busy : ∀ {i : Nat} {s' : Session}, w'.sessions[i]? = some s' → s'.busy = true →
    (∃ s, w.sessions[i]? = some s ∧ s.busy = true) ∨ w.Claims action i
  closed : ∀ {i : Nat} {s' : Session}, w'.sessions[i]? = some s' → s'.closed = true →
    (∃ s, w.sessions[i]? = some s ∧ s.closed = true) ∨ w.Marks action i

/-- An attempt may be rewritten as long as its call stays. -/
theorem attempts_set {a : Nat} {attempt attempt' : Attempt} (ha : w.attempts[a]? = some attempt)
    {x : Attempt} (hx : x ∈ w.attempts.set a attempt') (hc : attempt'.call = attempt.call) :
    ∃ old ∈ w.attempts, old.call = x.call := by
  rcases List.mem_or_eq_of_mem_set hx with hx | rfl
  · exact ⟨x, hx, rfl⟩
  · exact ⟨attempt, List.mem_of_getElem? ha, hc.symm⟩

namespace Frame

variable {action : Action Handler}

/-- An action that moves invocations of its own and touches sessions at most, without raising a
flag. -/
theorem of_flags (hc : w'.calls = w.calls) (ha : w'.attempts = w.attempts)
    (hi : ∀ {j : Nat} {v : Invocation Handler}, w.invocations[j]? = some v →
      action.isOf j = true ∨ w'.invocations[j]? = some v)
    (hk : w'.closings = w.closings) (ht : w'.tasks = w.tasks)
    (hf : RaisesNoFlag w.sessions w'.sessions) : Frame w action w' := by
  refine ⟨?_, ?_, hi, .inr hk, fun t => .kept (by rw [ht]), ?_, ?_⟩
  · intro c call hcall
    exact .inr (hc ▸ hcall)
  · intro attempt hattempt
    exact .inr ⟨attempt, ha ▸ hattempt, rfl⟩
  · intro i s' hs' hb
    exact .inl (hf.busy hs' hb)
  · intro i s' hs' hclosed
    exact .inl (hf.closed hs' hclosed)

/-- An action that touches none of these. -/
theorem of_eq (hc : w'.calls = w.calls) (ha : w'.attempts = w.attempts)
    (hi : w'.invocations = w.invocations) (hk : w'.closings = w.closings)
    (ht : w'.tasks = w.tasks) (hs : w'.sessions = w.sessions) : Frame w action w' :=
  of_flags hc ha (fun hv => .inr (hi ▸ hv)) hk ht (hs ▸ .refl _)

theorem refl (w : Client Handler) : Frame w action w := of_eq rfl rfl rfl rfl rfl rfl

/-- An action that touches attempts at most, and keeps their calls. -/
theorem of_attempts (hc : w'.calls = w.calls)
    (ha : ∀ {attempt : Attempt}, attempt ∈ w'.attempts →
      ∃ old ∈ w.attempts, old.call = attempt.call)
    (hi : w'.invocations = w.invocations) (hk : w'.closings = w.closings)
    (ht : w'.tasks = w.tasks) (hs : w'.sessions = w.sessions) : Frame w action w' :=
  { (of_eq hc rfl hi hk ht hs : Frame w action { w' with attempts := w.attempts }) with
    attempts := fun hx => .inr (ha hx)
    tasks := fun t => .kept (by rw [ht]) }

/-- An action of somebody who has a call, by which no other call is changed. -/
theorem of_handled (hh : w.Handles action c) (ho : ∀ d, d ≠ c → w'.calls[d]? = w.calls[d]?)
    (hf : RaisesNoFlag w.sessions w'.sessions)
    (ha : ∀ {attempt : Attempt}, attempt ∈ w'.attempts →
      ∃ old ∈ w.attempts, old.call = attempt.call)
    (hi : ∀ {j : Nat} {v : Invocation Handler}, w.invocations[j]? = some v →
      action.isOf j = true ∨ w'.invocations[j]? = some v)
    (hk : w'.closings = w.closings) (ht : w'.tasks = w.tasks) : Frame w action w' := by
  refine ⟨?_, fun hx => .inr (ha hx), hi, .inr hk, fun t => .kept (by rw [ht]),
    fun hs' hb => .inl (hf.busy hs' hb), fun hs' hc => .inl (hf.closed hs' hc)⟩
  intro d call hcall
  by_cases hd : d = c
  · exact .inl (hd ▸ hh)
  · exact .inr ((ho d hd).trans hcall)

/-- An invocation or a task that goes on with its call. -/
theorem of_goesOn (h : w.GoesOn c w₁) (hh : w.Handles action c) (hc : w'.calls = w₁.calls)
    (hs : w'.sessions = w₁.sessions) (ha : w'.attempts = w.attempts)
    (hi : ∀ {j : Nat} {v : Invocation Handler}, w.invocations[j]? = some v →
      action.isOf j = true ∨ w'.invocations[j]? = some v)
    (hk : w'.closings = w.closings) (ht : w'.tasks = w.tasks) : Frame w action w' :=
  of_handled hh (fun d hd => hc ▸ h.others d hd) (hs ▸ h.flags)
    (fun {attempt} hx => ⟨attempt, ha ▸ hx, rfl⟩) hi hk ht

end Frame

/-- An invocation that is moved leaves the others where they are. -/
theorem invocations_setInvocation {action : Action Handler} (ha : action.isOf i = true)
    (phase : InvocationPhase) {j : Nat} {v : Invocation Handler}
    (hv : w.invocations[j]? = some v) :
    action.isOf j = true ∨ (w.setInvocation i phase).invocations[j]? = some v := by
  by_cases hij : i = j
  · subst hij
    exact .inl ha
  · refine .inr ?_
    show (w.invocations.modify i _)[j]? = some v
    rw [List.getElem?_modify_ne _ _ hij]
    exact hv

/-! ## Invocations and tasks -/

theorem frame_setInvocation {action : Action Handler} (ha : action.isOf i = true)
    (phase : InvocationPhase) : Frame w action (w.setInvocation i phase) :=
  .of_flags rfl rfl (invocations_setInvocation ha phase) rfl rfl (.refl _)

theorem frame_claimFor? {x : Invocation Handler} (hx : w.invocations[i]? = some x)
    (hp : x.phase = .asked) (h : w.claimFor? i x = some w') :
    Frame w (.stepInvocation i) w' := by
  have ho : (Action.stepInvocation i : Action Handler).isOf i = true := beq_self_eq_true i
  unfold claimFor? at h
  obtain ⟨s, hs, h⟩ := Option.map_eq_some_iff.1 h
  split at h
  · subst h
    exact frame_setInvocation ho _
  · rename_i t ht
    subst h
    obtain ⟨hopen, hfree, rfl⟩ := (Session.claim_eq_ok_iff s t).1 ht
    have hlt := (List.getElem?_eq_some_iff.1 hs).1
    refine ⟨fun hc => .inr hc, fun ha => .inr ⟨_, ha, rfl⟩,
      invocations_setInvocation (w := w.setSession x.session _) ho _, .inr rfl, fun _ => .kept rfl,
      ?_, ?_⟩
    · intro j s' hs' hb
      change (w.sessions.set x.session _)[j]? = some s' at hs'
      by_cases hj : x.session = j
      · subst hj
        exact .inr (.intro hx hp hs hopen hfree)
      · rw [List.getElem?_set_ne hj] at hs'
        exact .inl ⟨s', hs', hb⟩
    · intro j s' hs' hclosed
      change (w.sessions.set x.session _)[j]? = some s' at hs'
      by_cases hj : x.session = j
      · subst hj
        rw [List.getElem?_set_self hlt] at hs'
        obtain rfl := Option.some.inj hs'
        exact .inl ⟨s, hs, hclosed⟩
      · rw [List.getElem?_set_ne hj] at hs'
        exact .inl ⟨s', hs', hclosed⟩

theorem frame_buildFor? {x : Invocation Handler} (h : w.buildFor? i x = some w') :
    Frame w (.stepInvocation i) w' := by
  have ho : (Action.stepInvocation i : Action Handler).isOf i = true := beq_self_eq_true i
  unfold buildFor? at h
  obtain ⟨s, hs, h⟩ := Option.map_eq_some_iff.1 h
  split at h
  · rename_i e config _
    subst h
    have hflags : RaisesNoFlag w.sessions (w.sessions.set x.session (s.release none)) :=
      .set hs (by rintro ⟨⟩) id
    exact .of_flags rfl rfl (invocations_setInvocation
      (w := ({ w with config } : Client Handler).setSession x.session _) ho _) rfl rfl hflags
  · rename_i request config _
    subst h
    refine ⟨?_, fun ha => .inr ⟨_, ha, rfl⟩,
      invocations_setInvocation (w := { w with config, calls := w.calls ++ [_] }) ho _, .inr rfl,
      fun _ => .kept rfl, fun hs' hb => .inl ⟨_, hs', hb⟩, fun hs' hc => .inl ⟨_, hs', hc⟩⟩
    intro c call hcall
    exact .inr ((List.getElem?_append_left (List.getElem?_eq_some_iff.1 hcall).1).trans hcall)

theorem frame_launchFor (w : Client Handler) (i c : Nat) :
    Frame w (.stepInvocation i) (w.launchFor i c) := by
  have ho : (Action.stepInvocation i : Action Handler).isOf i = true := beq_self_eq_true i
  unfold launchFor
  split
  · exact frame_setInvocation ho _
  · split
    · refine { (frame_setInvocation ho _ : Frame w (.stepInvocation i) (w.setInvocation i _)) with
        tasks := ?_ }
      intro t
      rcases Nat.lt_trichotomy t w.tasks.length with hlt | rfl | hgt
      · exact .kept (List.getElem?_append_left hlt)
      · exact .created (List.getElem?_eq_none (Nat.le_refl _)) List.getElem?_concat_length
      · have hafter : (w.tasks ++ [(⟨c, .unstarted⟩ : LoopTask)])[t]? = none :=
          List.getElem?_eq_none (by rw [List.length_append]; exact hgt)
        exact .kept (hafter.trans (List.getElem?_eq_none (Nat.le_of_lt hgt)).symm)
    · exact frame_setInvocation ho _
  · split
    · exact frame_setInvocation ho _
    · rename_i reactor _
      exact .of_flags rfl rfl (invocations_setInvocation (w := { w with reactor }) ho _) rfl rfl
        (.refl _)

theorem frame_stepInvocation? (h : w.stepInvocation? i = some w') :
    Frame w (.stepInvocation i) w' := by
  have ho : (Action.stepInvocation i : Action Handler).isOf i = true := beq_self_eq_true i
  unfold stepInvocation? at h
  cases hx : w.invocations[i]? with
  | none =>
    rw [hx] at h
    cases h
  | some x =>
    rw [hx] at h
    dsimp only at h
    split at h
    · rename_i hp
      exact frame_claimFor? hx hp h
    · exact frame_buildFor? h
    · cases h
      exact frame_launchFor w i _
    · cases h
      exact frame_setInvocation ho _
    · cases h
      exact frame_setInvocation ho _
    · rename_i c drive _ _ hp
      obtain ⟨⟨w₁, drive'⟩, hd, rfl⟩ := Option.map_eq_some_iff.1 h
      have hgoes := goesOn_stepDrive? hd
      refine .of_goesOn hgoes (.invocation hx (by rw [hp]; rfl)) rfl rfl ?_ ?_ ?_ ?_
      · show w₁.attempts = w.attempts
        rw [hgoes.outside]
      · intro j v hv
        exact invocations_setInvocation (w := w₁) ho _ (by rwa [hgoes.outside])
      · show w₁.closings = w.closings
        rw [hgoes.outside]
      · show w₁.tasks = w.tasks
        rw [hgoes.outside]
    · rename_i c e hp
      cases h
      have hgoes := goesOn_abandonCall w c
      refine .of_goesOn hgoes (.invocation hx (by rw [hp]; rfl)) rfl rfl ?_ ?_ ?_ ?_
      · show (w.abandonCall c).attempts = w.attempts
        rw [hgoes.outside]
      · intro j v hv
        exact invocations_setInvocation (w := w.abandonCall c) ho _ (by rwa [hgoes.outside])
      · show (w.abandonCall c).closings = w.closings
        rw [hgoes.outside]
      · show (w.abandonCall c).tasks = w.tasks
        rw [hgoes.outside]
    · cases h

/-- A task that is moved leaves everything else where it is. -/
theorem frame_setTask {action : Action Handler} {t : Nat} (ha : action.isOfTask t = true)
    (h : Frame w action w') (drive : Drive) : Frame w action (w'.setTask t drive) := by
  refine { h with tasks := ?_ }
  intro u
  by_cases hu : t = u
  · subst hu
    exact .own ha
  · show TaskFrame action u _ (w'.tasks.modify t _)[u]?
    rw [List.getElem?_modify_ne _ _ hu]
    exact h.tasks u

theorem frame_stepTask? {t : Nat} (h : w.stepTask? t = some w') : Frame w (.stepTask t) w' := by
  have ho : (Action.stepTask t : Action Handler).isOfTask t = true := beq_self_eq_true t
  unfold stepTask? at h
  cases ht : w.tasks[t]? with
  | none =>
    rw [ht] at h
    cases h
  | some task =>
    rw [ht] at h
    dsimp only at h
    split at h
    · cases h
      exact frame_setTask ho (.refl w) _
    · obtain ⟨⟨w₁, drive'⟩, hd, rfl⟩ := Option.map_eq_some_iff.1 h
      have hgoes := goesOn_stepDrive? hd
      refine frame_setTask ho (.of_goesOn hgoes (.task ht) rfl rfl ?_ ?_ ?_ ?_) drive'
      · rw [hgoes.outside]
      · intro j v hv
        rw [hgoes.outside]
        exact .inr hv
      · rw [hgoes.outside]
      · rw [hgoes.outside]

/-! ## The reactor and its pool -/

/-- An action on the reactor that goes on with a call and moves no invocation. -/
theorem Frame.of_goesOn_reactor {action : Action Handler} (h : w.GoesOn c w₁)
    (hh : w.Handles action c) (hc : w'.calls = w₁.calls) (hs : w'.sessions = w₁.sessions)
    (ha : w'.attempts = w₁.attempts) (hi : w'.invocations = w₁.invocations)
    (hk : w'.closings = w₁.closings) (ht : w'.tasks = w₁.tasks) : Frame w action w' := by
  refine .of_goesOn h hh hc hs ?_ ?_ ?_ ?_
  · rw [ha, h.outside]
  · intro j v hv
    rw [hi, h.outside]
    exact .inr hv
  · rw [hk, h.outside]
  · rw [ht, h.outside]

/-- A call that is given up is printed and abandoned. -/
theorem giveUpCall_eq (w : Client Handler) (c : Nat) (e : Error) :
    w.giveUpCall c e = { (w.print e.describe).abandonCall c with work := .none } := by
  have hcall : (({ w with work := .none } : Client Handler).print e.describe).callOn? c
      = (w.print e.describe).callOn? c := rfl
  unfold giveUpCall abandonCall
  rw [hcall]
  split <;> rfl

theorem goesOn_giveUp (w : Client Handler) (c : Nat) (e : Error) :
    w.GoesOn c ((w.print e.describe).abandonCall c) :=
  ((GoesOn.refl w c).record _).trans (goesOn_abandonCall _ c)

theorem frame_giveUpCall {action : Action Handler} (hh : w.Handles action c) (e : Error) :
    Frame w action (w.giveUpCall c e) := by
  rw [giveUpCall_eq]
  exact .of_goesOn_reactor (goesOn_giveUp w c e) hh rfl rfl rfl rfl rfl rfl

theorem frame_advanceCall {fed : Option Outcome} (hwork : w.work = .advancing c fed) :
    Frame w .stepReactor (w.advanceCall c fed) := by
  have hh : w.Handles .stepReactor c := .reactor (b := .advancing fed) (by rw [hwork]; rfl)
  unfold advanceCall
  cases hresume : w.resumeCall? c fed with
  | none => exact .of_eq rfl rfl rfl rfl rfl rfl
  | some resumed =>
    obtain ⟨w₁, effect⟩ := resumed
    have hgoes := goesOn_resumeCall? hresume
    cases effect with
    | send => exact .of_goesOn_reactor hgoes hh rfl rfl rfl rfl rfl rfl
    | sleep seconds => exact .of_goesOn_reactor hgoes hh rfl rfl rfl rfl rfl rfl
    | raise e =>
      dsimp only
      rw [giveUpCall_eq]
      exact .of_goesOn_reactor (hgoes.trans (goesOn_giveUp w₁ c e)) hh rfl rfl rfl rfl rfl rfl
    | finish result =>
      dsimp only
      split
      · exact .of_goesOn_reactor hgoes hh rfl rfl rfl rfl rfl rfl
      · rename_i hcomplete
        have hgoes := hgoes.trans (goesOn_completeCall hcomplete)
        exact .of_goesOn_reactor hgoes hh rfl rfl rfl rfl rfl rfl
      · rename_i hcomplete
        have hgoes := hgoes.trans (goesOn_completeCall hcomplete)
        exact .of_goesOn_reactor hgoes hh rfl rfl rfl rfl rfl rfl

theorem frame_pauseCall {seconds : Binary64} (hwork : w.work = .pausing c seconds) :
    Frame w .stepReactor (w.pauseCall c seconds) := by
  unfold pauseCall
  split
  · exact frame_giveUpCall (.reactor (b := .pausing) (by rw [hwork]; rfl)) _
  · exact .of_eq rfl rfl rfl rfl rfl rfl

theorem frame_armCall (hwork : w.work = .arming c) : Frame w .stepReactor (w.armCall c) := by
  unfold armCall
  split
  · exact .of_eq rfl rfl rfl rfl rfl rfl
  · dsimp only
    split
    · exact frame_giveUpCall (.reactor (b := .arming) (by rw [hwork]; rfl)) _
    · refine { (.refl w : Frame w .stepReactor w) with
        attempts := ?_ }
      intro attempt hattempt
      rcases List.mem_append.1 hattempt with hattempt | hattempt
      · exact .inr ⟨attempt, hattempt, rfl⟩
      · rw [List.mem_singleton.1 hattempt]
        exact .inl hwork

theorem frame_submitAttempt {a : Nat} (hwork : w.work = .submitting a) :
    Frame w .stepReactor (w.submitAttempt a) := by
  unfold submitAttempt
  split
  · exact .of_eq rfl rfl rfl rfl rfl rfl
  · rename_i attempt ha
    split
    · exact frame_giveUpCall (.pool hwork ha) _
    · exact .of_attempts rfl (fun hx => attempts_set ha hx rfl) rfl rfl rfl rfl

/-- Beginning a job settles an attempt at most. -/
theorem exists_beginJob_eq (w : Client Handler) (job : Job) :
    ∃ attempts reactor work, w.beginJob job = { w with attempts, reactor, work }
      ∧ ∀ attempt ∈ attempts, ∃ old ∈ w.attempts, old.call = attempt.call := by
  have hsettle : ∀ {a : Nat} {u : Client Handler} {attempt : Attempt},
      w.settleAttempt? a = some (u, attempt) → ∃ attempts, u = { w with attempts }
        ∧ ∀ attempt ∈ attempts, ∃ old ∈ w.attempts, old.call = attempt.call := by
    intro a u attempt h
    unfold settleAttempt? at h
    split at h
    · rename_i old hold
      split at h
      · cases h
      · cases h
        exact ⟨_, rfl, fun _ hx => attempts_set hold hx rfl⟩
    · cases h
  have hsame : ∀ attempt ∈ w.attempts, ∃ old ∈ w.attempts, old.call = attempt.call :=
    fun attempt hattempt => ⟨attempt, hattempt, rfl⟩
  cases job with
  | advance c => exact ⟨_, _, _, rfl, hsame⟩
  | arrive a answer =>
    unfold beginJob
    dsimp only
    split
    · rename_i u attempt hu
      obtain ⟨attempts, rfl, hkept⟩ := hsettle hu
      exact ⟨_, _, _, rfl, hkept⟩
    · exact ⟨_, _, _, rfl, hsame⟩
  | expire a =>
    unfold beginJob
    dsimp only
    split
    · rename_i u attempt hu
      obtain ⟨attempts, rfl, hkept⟩ := hsettle hu
      split
      · exact ⟨_, _, _, rfl, hkept⟩
      · exact ⟨_, _, _, rfl, hkept⟩
    · exact ⟨_, _, _, rfl, hsame⟩

theorem frame_stepReactor? (h : w.stepReactor? = some w') : Frame w .stepReactor w' := by
  unfold stepReactor? at h
  split at h
  · rename_i hwork
    cases h
    exact frame_advanceCall hwork
  · rename_i hwork
    cases h
    exact frame_pauseCall hwork
  · rename_i hwork
    cases h
    exact frame_armCall hwork
  · rename_i hwork
    cases h
    exact frame_submitAttempt hwork
  · cases h
  · split at h
    · rename_i reactor job _
      cases h
      obtain ⟨attempts, reactor', work, heq, hkept⟩ := exists_beginJob_eq { w with reactor } job
      rw [heq]
      exact .of_attempts rfl (hkept _) rfl rfl rfl rfl
    · cases h
      exact .of_eq rfl rfl rfl rfl rfl rfl
    · cases h

theorem frame_postAttempt? {a : Nat} {answer : Except Error Outcome}
    (h : w.postAttempt? a answer = some w') : Frame w (.postAttempt a answer) w' := by
  unfold postAttempt? at h
  split at h
  · rename_i attempt ha
    split at h
    · dsimp only at h
      split at h
      · cases h
        exact .of_attempts rfl (fun hx => attempts_set ha hx rfl) rfl rfl rfl rfl
      · cases h
        have hgoes := goesOn_abandonCall
          { w with attempts := w.attempts.set a { attempt with inFlight := false } } attempt.call
        refine .of_handled (.worker ha) hgoes.others hgoes.flags ?_ ?_ ?_ ?_
        · intro x hx
          rw [hgoes.outside] at hx
          exact attempts_set ha hx rfl
        · intro j v hv
          rw [hgoes.outside]
          exact .inr hv
        · rw [hgoes.outside]
        · rw [hgoes.outside]
    · cases h
  · cases h

/-! ## Sessions, closings and listeners -/

theorem frame_openSession {options : SessionOptions} {identity : String}
    (h : w.openSession options identity = .ok w') :
    Frame w (.openSession options identity) w' := by
  unfold openSession at h
  split at h <;> cases h
  rename_i s config hs
  have hnew : s.busy = false ∧ s.closed = false := by
    unfold Session.create at hs
    split at hs
    · cases hs
    · dsimp only at hs
      obtain ⟨hs, -⟩ := Prod.mk.inj hs
      obtain ⟨policy, -, rfl⟩ := map_eq_ok_iff.1 hs
      exact ⟨rfl, rfl⟩
  -- The session that is there now and was not before has no flag.
  have hold : ∀ {i : Nat} {s' : Session}, (w.sessions ++ [s])[i]? = some s' →
      w.sessions[i]? = some s' ∨ s' = s := by
    intro i s' hs'
    rw [List.getElem?_append] at hs'
    split at hs'
    · exact .inl hs'
    · exact .inr (List.mem_singleton.1 (List.mem_of_getElem? hs'))
  refine .of_flags rfl rfl .inr rfl rfl ⟨?_, ?_⟩
  · intro i s' hs' hb
    rcases hold hs' with hs' | rfl
    · exact ⟨s', hs', hb⟩
    · rw [hnew.1] at hb
      cases hb
  · intro i s' hs' hc
    rcases hold hs' with hs' | rfl
    · exact ⟨s', hs', hc⟩
    · rw [hnew.2] at hc
      cases hc

theorem frame_changeSetting (w : Client Handler) (i : Nat) (change : SettingChange) :
    Frame w (.changeSetting i change) (w.changeSetting i change).2 := by
  rcases w.changeSetting_cases i change with hkept | ⟨s, t, hs, ht, heq⟩
  · rw [hkept]
    exact .of_eq rfl rfl rfl rfl rfl rfl
  · rw [heq]
    obtain ⟨-, ht⟩ := Session.set_eq_ok ht
    exact .of_flags rfl rfl .inr rfl rfl
      (.set hs (fun hb => by rw [ht] at hb; exact hb) (fun hc => by rw [ht] at hc; exact hc))

theorem frame_clearCursor (w : Client Handler) (i : Nat) (channels : Option (List String)) :
    Frame w (.clearCursor i channels) (w.clearCursor i channels) := by
  unfold clearCursor
  split
  · rename_i s hs
    exact .of_flags rfl rfl .inr rfl rfl (.set hs id id)
  · exact .of_eq rfl rfl rfl rfl rfl rfl

/-- An operation that is asked for comes after those that are there. -/
theorem frame_ask {action : Action Handler} (w : Client Handler) (session : Nat)
    (operation : Operation) (timeout : Json) (callback : Option Handler) :
    Frame w action (w.ask session operation timeout callback) := by
  refine .of_flags rfl rfl ?_ rfl rfl (.refl _)
  intro j v hv
  exact .inr ((List.getElem?_append_left (List.getElem?_eq_some_iff.1 hv).1).trans hv)

theorem frame_stepClosing? (h : w.stepClosing? k = some w') : Frame w (.stepClosing k) w' := by
  unfold stepClosing? at h
  obtain ⟨closing, hk, h⟩ := Option.bind_eq_some_iff.1 h
  obtain ⟨s, hs, h⟩ := Option.bind_eq_some_iff.1 h
  have hmoved : ∀ phase, Frame w (.stepClosing k) (w.setClosing k phase) := fun phase =>
    { (.refl w : Frame w (.stepClosing k) w) with
      closings := .inl rfl }
  split at h
  · split at h
    · cases h
      exact hmoved _
    · split at h <;> cases h <;> exact hmoved _
  · split at h <;> cases h
    exact hmoved _
  · rename_i hp
    cases h
    have hlt := (List.getElem?_eq_some_iff.1 hs).1
    refine { hmoved .marked with busy := ?_, closed := ?_ }
    · intro i s' hs' hb
      change (w.sessions.set closing.session _)[i]? = some s' at hs'
      by_cases hi : closing.session = i
      · subst hi
        rw [List.getElem?_set_self hlt] at hs'
        obtain rfl := Option.some.inj hs'
        exact .inl ⟨s, hs, hb⟩
      · rw [List.getElem?_set_ne hi] at hs'
        exact .inl ⟨s', hs', hb⟩
    · intro i s' hs' hclosed
      change (w.sessions.set closing.session _)[i]? = some s' at hs'
      by_cases hi : closing.session = i
      · subst hi
        exact .inr (.intro hk hp)
      · rw [List.getElem?_set_ne hi] at hs'
        exact .inl ⟨s', hs', hclosed⟩
  · cases h
    have hclose : Frame w (.stepClosing k) w.closeFrontend := by
      unfold closeFrontend
      dsimp only
      split <;> exact .of_eq rfl rfl rfl rfl rfl rfl
    split
    · exact { hclose with closings := .inl rfl }
    · exact hmoved _
  · cases h

theorem frame_giveUpClosing? (h : w.giveUpClosing? k = some w') :
    Frame w (.giveUpClosing k) w' := by
  unfold giveUpClosing? at h
  obtain ⟨closing, -, h⟩ := Option.bind_eq_some_iff.1 h
  obtain ⟨s, -, h⟩ := Option.bind_eq_some_iff.1 h
  split at h
  · split at h <;> cases h
    exact { (.refl w : Frame w (.giveUpClosing k) w) with
      closings := .inl rfl }
  · cases h

theorem frame_stopListener {action : Action Handler} (w : Client Handler) (receiver : String) :
    Frame w action (w.stopListener receiver) := by
  unfold stopListener
  split <;> exact .of_eq rfl rfl rfl rfl rfl rfl

theorem frame_startListener (w : Client Handler) (session : Nat) (channels : Json)
    (receiver : Option String) (timeout : Json) (fault : Option Error) :
    Frame w (.startListener session channels receiver timeout fault)
      (w.startListener session channels receiver timeout fault).2 := by
  obtain hkept | ⟨r, rfl, hstop | ⟨list, -, henlist⟩⟩ :=
    w.startListener_cases session channels receiver timeout fault
  · rw [hkept]
    exact .of_eq rfl rfl rfl rfl rfl rfl
  · rw [hstop]
    exact frame_stopListener w r
  · have hstop : Frame w (.startListener session channels (some r) timeout fault)
        (w.stopListener r) := frame_stopListener w r
    rw [henlist]
    exact ⟨hstop.calls, hstop.attempts, hstop.invocations, hstop.closings, hstop.tasks, hstop.busy,
      hstop.closed⟩

theorem frame_stepListener? {l : Nat} (h : w.stepListener? l = some w') :
    Frame w (.stepListener l) w' := by
  unfold stepListener? at h
  split at h
  · cases h
  · split at h
    · split at h
      · cases h
        exact .of_eq rfl rfl rfl rfl rfl rfl
      · cases h
        rename_i listener _ _ _ _
        have hask : Frame w (.stepListener l) (w.ask listener.session
            (.subscribeMulti (.arr listener.channels)) listener.timeout none) := frame_ask ..
        exact ⟨hask.calls, hask.attempts, hask.invocations, hask.closings, hask.tasks, hask.busy,
          hask.closed⟩
    · split at h
      · cases h
        exact .of_eq rfl rfl rfl rfl rfl rfl
      · split at h <;> cases h <;> exact .of_eq rfl rfl rfl rfl rfl rfl
      · cases h
    · cases h
      exact .of_eq rfl rfl rfl rfl rfl rfl
    · cases h
      exact .of_eq rfl rfl rfl rfl rfl rfl
    · split at h <;> cases h <;> exact .of_eq rfl rfl rfl rfl rfl rfl
    · split at h <;> cases h <;> exact .of_eq rfl rfl rfl rfl rfl rfl
    · cases h

/-! ## Actions -/

/-- **Every action stays in its frame.** -/
theorem frame_act? {action : Action Handler} (h : w.act? action = some w') :
    Frame w action w' := by
  cases action with
  | openSession options identity =>
    unfold act? at h
    dsimp only at h
    cases hopen : w.openSession options identity with
    | error e =>
      rw [hopen] at h
      cases h
    | ok w₁ =>
      rw [hopen] at h
      cases h
      exact frame_openSession hopen
  | ask session operation timeout callback =>
    cases h
    exact frame_ask w session operation timeout callback
  | changeSetting session change =>
    cases h
    exact frame_changeSetting w session change
  | clearCursor session channels =>
    cases h
    exact frame_clearCursor w session channels
  | beginClose session timeout =>
    cases h
    exact { (.refl w : Frame w (.beginClose session timeout) w) with
      closings := .inl rfl }
  | closeFrontend =>
    cases h
    show Frame w .closeFrontend w.closeFrontend
    unfold closeFrontend
    dsimp only
    split <;> exact .of_eq rfl rfl rfl rfl rfl rfl
  | stopReactor =>
    cases h
    exact .of_eq rfl rfl rfl rfl rfl rfl
  | cancelTask t =>
    unfold act? cancelTask? at h
    dsimp only at h
    split at h <;> cases h
    all_goals
      refine frame_setTask ?_ (.refl w) _
      exact beq_self_eq_true t
  | startListener session channels receiver timeout fault =>
    cases h
    exact frame_startListener w session channels receiver timeout fault
  | stopListener receiver =>
    cases h
    exact frame_stopListener w receiver
  | stepInvocation i => exact frame_stepInvocation? h
  | stepTask t => exact frame_stepTask? h
  | stepReactor => exact frame_stepReactor? h
  | stepClosing k => exact frame_stepClosing? h
  | stepListener l => exact frame_stepListener? h
  | answerInvocation i answer =>
    unfold act? answerInvocation? at h
    dsimp only at h
    split at h
    · obtain ⟨_, -, rfl⟩ := Option.map_eq_some_iff.1 h
      refine frame_setInvocation ?_ _
      exact beq_self_eq_true i
    · cases h
  | wakeInvocation i =>
    unfold act? wakeInvocation? at h
    dsimp only at h
    split at h
    · obtain ⟨_, -, rfl⟩ := Option.map_eq_some_iff.1 h
      refine frame_setInvocation ?_ _
      exact beq_self_eq_true i
    · cases h
  | returnInvocation i raised =>
    unfold act? returnInvocation? at h
    dsimp only at h
    split at h <;> cases h
    all_goals
      refine frame_setInvocation ?_ _
      exact beq_self_eq_true i
  | answerTask t answer =>
    unfold act? answerTask? at h
    dsimp only at h
    split at h
    · obtain ⟨_, -, rfl⟩ := Option.map_eq_some_iff.1 h
      refine frame_setTask ?_ (.refl w) _
      exact beq_self_eq_true t
    · cases h
  | wakeTask t =>
    unfold act? wakeTask? at h
    dsimp only at h
    split at h
    · obtain ⟨_, -, rfl⟩ := Option.map_eq_some_iff.1 h
      refine frame_setTask ?_ (.refl w) _
      exact beq_self_eq_true t
    · cases h
  | returnTask t raised =>
    unfold act? returnTask? at h
    dsimp only at h
    split at h <;> cases h
    all_goals
      refine frame_setTask ?_ (.refl w) _
      exact beq_self_eq_true t
  | pollReactor =>
    unfold act? pollReactor? at h
    dsimp only at h
    split at h <;> cases h
    exact .of_eq rfl rfl rfl rfl rfl rfl
  | postAttempt a answer => exact frame_postAttempt? h
  | returnReactor raised =>
    obtain ⟨-, ⟨-, rfl⟩ | ⟨e, -, ⟨-, rfl⟩ | ⟨-, rfl⟩⟩⟩ := returnReactor?_eq_some h
    all_goals exact .of_eq rfl rfl rfl rfl rfl rfl
  | giveUpClosing k => exact frame_giveUpClosing? h
  | finishFrontend =>
    cases h
    exact .of_eq rfl rfl rfl rfl rfl rfl
  | wakeListener l =>
    unfold act? wakeListener? at h
    dsimp only at h
    split at h <;> cases h
    exact .of_eq rfl rfl rfl rfl rfl rfl
  | returnListener l raised =>
    obtain ⟨-, -, -, -, ⟨-, rfl⟩ | ⟨e, -, ⟨-, rfl⟩ | ⟨-, rfl⟩⟩⟩ := returnListener?_eq_some h
    all_goals exact .of_eq rfl rfl rfl rfl rfl rfl
  | collect receiver =>
    cases h
    exact .of_eq rfl rfl rfl rfl rfl rfl
  | tick now =>
    unfold act? tick? at h
    dsimp only at h
    split at h <;> cases h
    exact .of_eq rfl rfl rfl rfl rfl rfl
  | draw vector =>
    cases h
    exact .of_eq rfl rfl rfl rfl rfl rfl

end Client

end Pubsub
