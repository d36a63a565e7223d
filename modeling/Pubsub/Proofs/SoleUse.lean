import Pubsub.Proofs.Alignment
import Pubsub.Proofs.Recording
import Pubsub.Proofs.Replacement

/-!
# A session that one listener has to itself

Operations are asked for by applications and by listeners, calls are made on the sessions of their
operations, and the positions of a session are moved by the calls on it. So a listener that is
started on a session that nobody uses (`Client.IsUnused`) has the session to itself from then on
(`Client.HasAlone`), as long as no application uses it: there is no operation in progress on it but
the subscription that the listener waits for, and nothing else moves its positions.
-/

namespace Pubsub

variable {Handler : Type}

/-- There are never fewer sessions than before. -/
theorem Ledger.Entry.length_sessions_le {P : Outcome → Prop} {l l' : Ledger Handler}
    (h : Ledger.Entry P l l') : l.sessions.length ≤ l'.sessions.length := by
  cases h with
  | opened hn => exact (List.length_append ..).symm ▸ Nat.le_add_right _ _
  | ended now fed hc hu hP hr ho =>
    rw [settle_setCall]
    exact (List.length_set ..).ge
  | blank | accepted => exact Nat.le_refl _
  | _ => exact (List.length_set ..).ge

/-- Does an application use the session by the action: for an operation or a listener, or to close
it or to clear its positions? -/
def Action.uses (i : Nat) : Action Handler → Bool
  | .ask session _ _ _ => session == i
  | .clearCursor session _ => session == i
  | .beginClose session _ => session == i
  | .startListener session _ _ _ _ => session == i
  | _ => false

namespace Client

variable {w w' : Client Handler} {action : Action Handler} {i j k l c : Nat}
  {v v' : Invocation Handler} {x x' : Listener} {b : Baton} {s : Session}

/-! ## Who asks for operations -/

/-- A listener reads no settings, and asks for an operation only at the head of its loop. -/
theorem heard_of_isOfListener (ha : w.act? action = some w') (ho : action.isOfListener l = true) :
    w'.config = w.config ∧ (w'.invocations = w.invocations
      ∨ ∃ x, action = .stepListener l ∧ w.listeners[l]? = some x ∧ x.phase = .looping
        ∧ x.stopping = false ∧ w'.invocations = w.invocations
          ++ [⟨x.session, .subscribeMulti (.arr x.channels), x.timeout, none, .asked⟩]) := by
  obtain ⟨x, phase, hx, ht, rfl⟩ := turns_act? ha ho
  refine ⟨aside_config w x action phase, ?_⟩
  cases ht with
  | asks hp hs => exact .inr ⟨x, rfl, hx, hp, hs, by simp only [aside, hp]; rfl⟩
  | stops hp => exact .inl (by simp only [aside, hp]; rfl)
  | fails hp | takes hp | returns hp | hands hp | finds hp | ends hp | strikes hp | misses hp
  | wakes hp | resumes hp | breaks hp => exact .inl (aside_invocations (by rw [hp]; rintro ⟨⟩))

/-- Actions that concern listeners read no settings, and ask for an operation only if a listener
is at the head of its loop. -/
theorem heard_act? (ha : w.act? action = some w') (hl : action.isListening = true) :
    w'.config = w.config ∧ (w'.invocations = w.invocations
      ∨ ∃ l x, action = .stepListener l ∧ w.listeners[l]? = some x ∧ x.phase = .looping
        ∧ x.stopping = false ∧ w'.invocations = w.invocations
          ++ [⟨x.session, .subscribeMulti (.arr x.channels), x.timeout, none, .asked⟩]) := by
  have hstop (receiver : String) : (w.stopListener receiver).config = w.config
      ∧ (w.stopListener receiver).invocations = w.invocations := by
    unfold stopListener
    split <;> exact ⟨rfl, rfl⟩
  cases action with
  | startListener session channels receiver timeout fault =>
    cases ha
    show (w.startListener session channels receiver timeout fault).2.config = _
      ∧ ((w.startListener session channels receiver timeout fault).2.invocations = _ ∨ _)
    obtain hkept | ⟨r, rfl, hstopped | ⟨list, -, henlist⟩⟩ :=
      w.startListener_cases session channels receiver timeout fault
    · rw [hkept]
      exact ⟨rfl, .inl rfl⟩
    · rw [hstopped]
      exact ⟨(hstop r).1, .inl (hstop r).2⟩
    · rw [henlist]
      exact ⟨(hstop r).1, .inl (hstop r).2⟩
  | stopListener receiver =>
    cases ha
    exact ⟨(hstop receiver).1, .inl (hstop receiver).2⟩
  | stepListener l | wakeListener l | returnListener l raised =>
    obtain ⟨hconfig, hinvocations⟩ := heard_of_isOfListener ha (beq_self_eq_true l)
    exact ⟨hconfig, hinvocations.imp_right fun ⟨x, hx⟩ => ⟨l, x, hx⟩⟩
  | collect receiver =>
    cases ha
    exact ⟨rfl, .inl rfl⟩
  | _ => cases hl

/-- Is the operation asked for by the action, on this session? -/
inductive Asks (w : Client Handler) : Action Handler → Nat → Prop where
  | application {session : Nat} {operation : Operation} {timeout : Json}
      {callback : Option Handler} :
      Asks w (.ask session operation timeout callback) session
  | listener {l : Nat} {x : Listener} (hx : w.listeners[l]? = some x) (hp : x.phase = .looping)
      (hs : x.stopping = false) : Asks w (.stepListener l) x.session

/-- **An operation that was not there before was just asked for**, by an application or by a
listener. -/
theorem asks_act? (ha : w.act? action = some w') (hnone : w.invocations[j]? = none)
    (hv : w'.invocations[j]? = some v) :
    w.Asks action v.session ∧ v.phase = .asked ∧ j = w.invocations.length := by
  have hnew {x : Invocation Handler} (hx : w'.invocations = w.invocations ++ [x]) :
      v = x ∧ j = w.invocations.length := by
    have hlt := (List.getElem?_eq_some_iff.1 hv).1
    rw [hx, List.length_append, List.length_singleton] at hlt
    rw [List.getElem?_eq_none_iff] at hnone
    obtain rfl : j = w.invocations.length := by omega
    rw [hx, List.getElem?_concat_length] at hv
    exact ⟨(Option.some.inj hv).symm, rfl⟩
  have hkept (hlength : w'.invocations.length = w.invocations.length) : False := by
    have hlt := (List.getElem?_eq_some_iff.1 hv).1
    rw [List.getElem?_eq_none_iff] at hnone
    omega
  cases hl : action.isListening with
  | true =>
    obtain ⟨-, hsame | ⟨l, x, rfl, hx, hp, hs, hnow⟩⟩ := heard_act? ha hl
    · exact (hkept (congrArg List.length hsame)).elim
    · obtain ⟨rfl, hj⟩ := hnew hnow
      exact ⟨.listener hx hp hs, rfl, hj⟩
  | false =>
    by_cases hask : ∃ session operation timeout callback,
        action = .ask session operation timeout callback
    · obtain ⟨session, operation, timeout, callback, rfl⟩ := hask
      cases ha
      obtain ⟨rfl, hj⟩ := hnew rfl
      exact ⟨.application, rfl, hj⟩
    · refine (hkept (undisturbed_act? ha hl ?_).invocations).elim
      rintro session operation timeout callback rfl
      exact hask ⟨session, operation, timeout, callback, rfl⟩

/-- **Settings that were loaded stay.** -/
theorem settings_act? (ha : w.act? action = some w') (hloaded : w.config.loaded.isSome = true) :
    w'.config = w.config := by
  cases hl : action.isListening with
  | true => exact (heard_act? ha hl).1
  | false =>
    by_cases hask : ∃ session operation timeout callback,
        action = .ask session operation timeout callback
    · obtain ⟨session, operation, timeout, callback, rfl⟩ := hask
      cases ha
      rfl
    · refine (undisturbed_act? ha hl ?_).settings hloaded
      rintro session operation timeout callback rfl
      exact hask ⟨session, operation, timeout, callback, rfl⟩

/-! ## Calls are on the sessions of their operations -/

/-- An operation that has a call after a step of its own had it before, or has just made it. -/
theorem call_of_stepInvocation? (hv : w.invocations[k]? = some v)
    (h : w.stepInvocation? k = some w') (hv' : w'.invocations[k]? = some v')
    (hb : v'.phase.baton? = some (c, b)) :
    (∃ b', v.phase.baton? = some (c, b'))
      ∨ ∃ call, w'.calls[c]? = some call ∧ call.session = v.session := by
  have hphase {phase : InvocationPhase}
      (hset : w'.invocations = w.invocations.modify k fun v => { v with phase }) :
      phase.baton? = some (c, b) := by
    rw [hset, List.getElem?_modify_eq, hv] at hv'
    cases hv'
    exact hb
  unfold stepInvocation? at h
  simp only [hv] at h
  split at h
  · unfold claimFor? at h
    obtain ⟨s, -, h⟩ := Option.map_eq_some_iff.1 h
    split at h <;> subst h <;> cases hphase rfl
  · unfold buildFor? at h
    obtain ⟨s, -, h⟩ := Option.map_eq_some_iff.1 h
    split at h
    · subst h
      cases hphase rfl
    · subst h
      cases hphase rfl
      exact .inr ⟨_, List.getElem?_concat_length, rfl⟩
  · rename_i d hp
    rw [hp]
    cases h
    unfold launchFor at hphase
    refine .inl ?_
    split at hphase
    · cases hphase rfl
      exact ⟨_, rfl⟩
    · split at hphase
      · cases hphase rfl
      · cases hphase rfl
        exact ⟨_, rfl⟩
    · split at hphase
      · cases hphase rfl
        exact ⟨_, rfl⟩
      · cases hphase rfl
  · cases h
    cases hphase rfl
  · rename_i hp
    rw [hp]
    cases h
    cases hphase rfl
    exact .inl ⟨_, rfl⟩
  · rename_i hp
    rw [hp]
    obtain ⟨⟨w₁, drive'⟩, hd, rfl⟩ := Option.map_eq_some_iff.1 h
    have hsame : w₁.invocations = w.invocations := by
      rw [(goesOn_stepDrive? hd).outside]
    cases hphase (congrArg (List.modify · k _) hsame)
    exact .inl ⟨_, rfl⟩
  · rename_i d e hp
    cases h
    have hsame : (w.abandonCall d).invocations = w.invocations := by
      rw [(goesOn_abandonCall w d).outside]
    cases hphase (congrArg (List.modify · k _) hsame)
  · cases h

/-- **The call of an operation is on the session of the operation.** -/
theorem Reachable.exists_call_of_baton? (hw : Reachable w) (hv : w.invocations[k]? = some v)
    (hb : v.phase.baton? = some (c, b)) :
    ∃ call, w.calls[c]? = some call ∧ call.session = v.session := by
  induction hw generalizing v b with
  | initial config fresh frontend => cases hv
  | @act w w' action hw _ ha ih =>
    have hkept {call : Call Handler} {session : Nat} (hc : w.calls[c]? = some call)
        (hs : call.session = session) :
        ∃ call', w'.calls[c]? = some call' ∧ call'.session = session := by
      obtain ⟨call', hc', same⟩ := exists_same_of_run? ((run?_singleton w action).trans ha) hc
      exact ⟨call', hc', same.session.trans hs⟩
    cases hold : w.invocations[k]? with
    | none =>
      rw [(asks_act? ha hold hv).2.1] at hb
      cases hb
    | some u =>
      obtain ⟨phase, hv', -⟩ := invocation_act? hold ha
      obtain rfl := Option.some.inj (hv.symm.trans hv')
      cases ho : action.isOf k with
      | false =>
        have hsame := ((frame_act? ha).invocations hold).resolve_left (by simp [ho])
        have hphase : u.phase = phase :=
          congrArg Invocation.phase (Option.some.inj (hsame.symm.trans hv))
        obtain ⟨call, hc, hs⟩ := ih hold (hphase ▸ hb)
        exact hkept hc hs
      | true =>
        by_cases hne : action = .stepInvocation k
        · subst hne
          rcases call_of_stepInvocation? hold ha hv hb with ⟨b', hb'⟩ | hnew
          · obtain ⟨call, hc, hs⟩ := ih hold hb'
            exact hkept hc hs
          · exact hnew
        · obtain ⟨d, drive, drive', hp, rfl, -⟩ := exists_answered hold ho hne ha
          rw [getElem?_setInvocation hold] at hv
          obtain rfl : InvocationPhase.driving d drive' = phase :=
            congrArg Invocation.phase (Option.some.inj hv)
          cases hb
          obtain ⟨call, hc, hs⟩ := ih hold (congrArg InvocationPhase.baton? hp)
          exact hkept hc hs

/-! ## Who moves the positions of a session -/

/-- **The cycles of a blocking client are resumed by operations.** -/
theorem Reachable.driving_of_event? (hw : Reachable w) (hk : w.frontend.kind = .blocking)
    {fed : Option Outcome} (h : w.event? action = some (c, .resumed fed)) :
    ∃ j v, action = .stepInvocation j ∧ w.invocations[j]? = some v
      ∧ v.phase = .driving c (.resuming fed) := by
  have hdrive {d : Nat} {drive : Drive} (he : drive.event? d = some (c, .resumed fed)) :
      d = c ∧ drive = .resuming fed := by
    cases drive with
    | resuming fed' =>
      cases he
      exact ⟨rfl, rfl⟩
    | _ => cases he
  unfold event? at h
  split at h
  · split at h
    · rename_i j _ d drive hp
      obtain ⟨v, hv, hphase⟩ := Option.map_eq_some_iff.1 hp
      obtain ⟨rfl, rfl⟩ := hdrive h
      exact ⟨j, v, rfl, hv, hphase⟩
    · cases h
  · split at h
    · rename_i ht
      rw [hw.tasks_eq_nil hk] at ht
      cases ht
    · cases h
  · -- A reactor resumes cycles only if the frontend has one.
    exfalso
    unfold workEvent? at h
    split at h
    · rename_i d fed' hadvancing
      have hb : (d, Baton.advancing fed') ∈ w.batons :=
        mem_batons_iff.2 (.inl (by rw [hadvancing]; rfl))
      obtain ⟨call, -, hfits⟩ := hw.isSound_relay.1.carried.fits hb
      cases hk.symm.trans hfits.1
    · split at h <;> cases h
    · split at h <;> cases h
    · split at h
      · cases h
      · obtain ⟨attempt, -, he⟩ := Option.map_eq_some_iff.1 h
        cases he
    · cases h
    · split at h
      · unfold jobEvent? at h
        split at h
        · split at h <;> cases h
        · obtain ⟨attempt, -, he⟩ := Option.map_eq_some_iff.1 h
          cases he
        · obtain ⟨attempt, -, h⟩ := Option.bind_eq_some_iff.1 h
          obtain ⟨call, -, he⟩ := Option.bind_eq_some_iff.1 h
          cases he
      · cases h
  · cases h

/-- **The positions of a session are moved by operations on it**, if nobody clears them. -/
theorem ReachableBy.cursorAt_of_foreign (hw : ReachableBy Action.IsGenuine w)
    (hk : w.frontend.kind = .blocking) (hclear : ∀ channels, action ≠ .clearCursor i channels)
    (hown : ∀ {j v}, w.invocations[j]? = some v → v.session = i → action.isOf j = false
      ∨ ∃ outcome, v.phase = .ended outcome)
    (ha : w.act? action = some w') : w'.relay.cursorAt i = w.relay.cursorAt i := by
  rw [hw.cursorAt_act? hclear ha]
  cases hsuccess : w.successOf i action with
  | none => rfl
  | some success =>
    obtain ⟨hevent, hc, rfl, -⟩ := successOf_eq_some_iff.1 (show _ = some (success.1, success.2)
      from hsuccess)
    obtain ⟨j, v, rfl, hv, hp⟩ := hw.reachable.driving_of_event? hk hevent
    obtain ⟨call', hc', hs⟩ :=
      hw.reachable.exists_call_of_baton? hv (congrArg InvocationPhase.baton? hp)
    obtain rfl := Option.some.inj (hc.symm.trans hc')
    rcases hown hv hs.symm with hforeign | ⟨outcome, hover⟩
    · rw [show Action.isOf j (.stepInvocation j) = true from beq_self_eq_true j] at hforeign
      cases hforeign
    · cases hp.symm.trans hover

/-! ## A session to itself -/

/-- Nobody uses the session, and it can be used: it is open, the operations that were asked for on
it are over, and so are its closings and its listeners. -/
structure IsUnused (w : Client Handler) (i : Nat) (s : Session) : Prop where
  known : w.sessions[i]? = some s
  isOpen : s.closed = false
  operations : ∀ v ∈ w.invocations, v.session = i → ∃ outcome, v.phase = .ended outcome
  closings : ∀ closing ∈ w.closings, closing.session = i → ∃ outcome, closing.phase = .ended outcome
  listeners : ∀ x ∈ w.listeners, x.session = i → x.phase.isGoing = false

/-- The listener has its session to itself: that is open, no operation is in progress on it but the
one that the listener waits for, nobody closes it, and no other listener subscribes on it. -/
structure HasAlone (w : Client Handler) (l : Nat) (x : Listener) : Prop where
  isOpen : ∃ s, w.sessions[x.session]? = some s ∧ s.closed = false
  operations : ∀ {j : Nat} {v : Invocation Handler}, w.invocations[j]? = some v →
    v.session = x.session → (∃ outcome, v.phase = .ended outcome) ∨ x.phase = .subscribing j
  closings : ∀ closing ∈ w.closings, closing.session = x.session →
    ∃ outcome, closing.phase = .ended outcome
  others : ∀ {k : Nat} {y : Listener}, w.listeners[k]? = some y → k ≠ l →
    y.session = x.session → y.phase.isGoing = false

/-- A listener that has left its loop does not come back to it. -/
theorem Becomes.isGoing_eq_false (h : w.Becomes l x action x') (hp : x.phase.isGoing = false) :
    x'.phase.isGoing = false := by
  cases h with
  | stays => exact hp
  | told => exact hp
  | turns ht =>
    cases ht with
    | finds | ends | strikes | misses | breaks => rfl
    | asks hp' | stops hp' | fails hp' | takes hp' | returns hp' | hands hp' | wakes hp'
    | resumes hp' =>
      rw [hp'] at hp
      cases hp

/-- A closing is one that was there before, which does not go on if it had ended; or it was just
begun. -/
theorem closing_act? {closing : Closing} (ha : w.act? action = some w')
    (hm : closing ∈ w'.closings) :
    (∃ old ∈ w.closings, old.session = closing.session
      ∧ ∀ outcome, old.phase = .ended outcome → closing.phase = .ended outcome)
    ∨ ∃ timeout, action = .beginClose closing.session timeout := by
  have hset {k : Nat} {old : Closing} (phase : ClosingPhase) (hk : w.closings[k]? = some old)
      (hgoing : ∀ outcome, old.phase ≠ .ended outcome)
      (hm : closing ∈ (w.setClosing k phase).closings) :
      ∃ old ∈ w.closings, old.session = closing.session
        ∧ ∀ outcome, old.phase = .ended outcome → closing.phase = .ended outcome := by
    rcases mem_closings_setClosing hk hm with hm | rfl
    · exact ⟨closing, hm, rfl, fun _ => id⟩
    · exact ⟨old, List.mem_of_getElem? hk, rfl, fun outcome hp => absurd hp (hgoing outcome)⟩
  rcases (frame_act? ha).closings with hclosing | hsame
  · cases action with
    | beginClose session timeout =>
      cases ha
      rcases List.mem_append.1 hm with hm | hm
      · exact .inl ⟨closing, hm, rfl, fun _ => id⟩
      · rw [List.mem_singleton.1 hm]
        exact .inr ⟨timeout, rfl⟩
    | giveUpClosing k =>
      unfold act? giveUpClosing? at ha
      obtain ⟨old, hk, ha⟩ := Option.bind_eq_some_iff.1 ha
      obtain ⟨s, -, ha⟩ := Option.bind_eq_some_iff.1 ha
      split at ha
      · rename_i hp _
        split at ha <;> cases ha
        exact .inl (hset _ hk (by rw [hp]; rintro outcome ⟨⟩) hm)
      · cases ha
    | stepClosing k =>
      unfold act? stepClosing? at ha
      obtain ⟨old, hk, ha⟩ := Option.bind_eq_some_iff.1 ha
      obtain ⟨s, -, ha⟩ := Option.bind_eq_some_iff.1 ha
      refine .inl ?_
      split at ha
      · rename_i hp
        have hgoing : ∀ outcome, old.phase ≠ .ended outcome := by
          rw [hp]
          rintro outcome ⟨⟩
        split at ha
        · cases ha
          exact hset _ hk hgoing hm
        · split at ha <;> cases ha <;> exact hset _ hk hgoing hm
      · rename_i hp
        split at ha <;> cases ha
        exact hset _ hk (by rw [hp]; rintro outcome ⟨⟩) hm
      · rename_i hp
        cases ha
        exact hset _ hk (by rw [hp]; rintro outcome ⟨⟩) hm
      · rename_i hp
        cases ha
        refine hset (.ended (.ok ())) hk (by rw [hp]; rintro outcome ⟨⟩) ?_
        have hclosings : w.closeFrontend.closings = w.closings := by
          unfold closeFrontend
          dsimp only
          split <;> rfl
        have hsame : ∀ {u : Client Handler}, u.closings = w.closings →
            closing ∈ (u.setClosing k (.ended (.ok ()))).closings →
            closing ∈ (w.setClosing k (.ended (.ok ()))).closings := by
          intro u hu hm
          unfold setClosing at hm ⊢
          rwa [← hu]
        split at hm
        · exact hsame hclosings hm
        · exact hm
      · cases ha
    | _ => cases hclosing
  · exact .inl ⟨closing, hsame ▸ hm, rfl, fun _ => id⟩

/-- **A listener keeps its session to itself** as long as no application uses it. -/
theorem HasAlone.act? (h : w.HasAlone l x) (hx : w.listeners[l]? = some x)
    (ha : w.act? action = some w') (huse : action.uses x.session = false)
    (hx' : w'.listeners[l]? = some x') (hb : w.Becomes l x action x') : w'.HasAlone l x' := by
  obtain ⟨-, hsession, -, -⟩ := hb.same
  have hframe := frame_act? ha
  refine ⟨?_, ?_, ?_, ?_⟩ <;> rw [hsession]
  · obtain ⟨s, hs, hopen⟩ := h.isOpen
    have hlt : x.session < w'.sessions.length :=
      Nat.lt_of_lt_of_le (List.getElem?_eq_some_iff.1 hs).1
        (entry_act? w.feeds_true ha).length_sessions_le
    refine ⟨_, List.getElem?_eq_getElem hlt, ?_⟩
    by_contra hclosed
    rcases hframe.closed (List.getElem?_eq_getElem hlt) (Bool.eq_true_of_not_eq_false hclosed) with
      ⟨s₁, hs₁, hclosed⟩ | hmarks
    · obtain rfl := Option.some.inj (hs.symm.trans hs₁)
      cases hopen.symm.trans hclosed
    · generalize hi : x.session = i at hmarks
      obtain ⟨hk, hp⟩ := hmarks
      obtain ⟨outcome, hended⟩ := h.closings _ (List.mem_of_getElem? hk) hi.symm
      cases hp.symm.trans hended
  · intro j v hv hvs
    cases hold : w.invocations[j]? with
    | some u =>
      obtain ⟨phase, hv', hmoves⟩ := invocation_act? hold ha
      obtain rfl := Option.some.inj (hv.symm.trans hv')
      rcases h.operations hold hvs with ⟨outcome, hover⟩ | hwaits
      · exact .inl ⟨outcome, hmoves.ended outcome hover⟩
      · rcases waits_or_ended_act? hx hwaits ha with ⟨y, hy, hp⟩ | ⟨outcome, hover⟩
        · obtain rfl := Option.some.inj (hx'.symm.trans hy)
          exact .inr hp
        · obtain ⟨v', hv', hover⟩ := Option.map_eq_some_iff.1 hover
          obtain rfl := Option.some.inj (hv.symm.trans hv')
          exact .inl ⟨outcome, hover⟩
    | none =>
      obtain ⟨hasks, -, rfl⟩ := asks_act? ha hold hv
      rw [hvs] at hasks
      generalize hi : x.session = i at hasks huse
      cases hasks with
      | application => cases (beq_self_eq_true i).symm.trans huse
      | @listener m y hy hp hs =>
        by_cases hm : m = l
        · subst hm
          obtain rfl := Option.some.inj (hx.symm.trans hy)
          obtain rfl := Option.some.inj ((stepListener?_of_looping hx hp hs).symm.trans ha)
          obtain rfl := Option.some.inj
            (hx'.symm.trans (getElem?_setListener_self (w := w.ask _ _ _ _) hx _))
          exact .inr rfl
        · have hgone := h.others hy hm hi.symm
          rw [hp] at hgone
          cases hgone
  · intro closing hm hc
    rcases closing_act? ha hm with ⟨old, hold, hs, hkept⟩ | ⟨timeout, rfl⟩
    · obtain ⟨outcome, hended⟩ := h.closings old hold (hs.trans hc)
      exact ⟨outcome, hkept outcome hended⟩
    · rw [← hc, show Action.uses closing.session (.beginClose closing.session timeout) = true
        from beq_self_eq_true _] at huse
      cases huse
  · intro k y hy hne hys
    cases hold : w.listeners[k]? with
    | some z =>
      obtain ⟨z', hz', hbecomes⟩ := (hears_act? ha).becomes hold
      obtain rfl := Option.some.inj (hy.symm.trans hz')
      exact hbecomes.isGoing_eq_false (h.others hold hne (hbecomes.same.2.1.symm.trans hys))
    | none =>
      obtain ⟨session, channels, receiver, timeout, fault, list, rfl, -, -, rfl, -⟩ :=
        (hears_act? ha).started_of_new hold hy
      rw [← hys] at huse
      cases (beq_self_eq_true session).symm.trans huse

end Client

end Pubsub
