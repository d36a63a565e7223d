import Pubsub.Proofs.Attending
import Pubsub.Proofs.Blocking
import Pubsub.Proofs.Registry

/-!
# Replacing a listener

When a listener is started for a receiver that has one, the old one is told to stop and the new one
begins at once. What the old one does from then on is to **wind up**: it hands on the messages that
it has, lets the subscription that it waits for come to its end, and asks for no other one.

The new one does not wait for that. As long as the subscription of the old one is in progress, their
session is busy, and a subscription of the new one that comes in the meantime is refused, by an
error that ends the new listener: then nobody serves the receiver. This is the only harm that a
replacement can do. A subscription of the new listener is refused only while the session is held,
either by the request that the old one had in progress when it was replaced, or by an operation that
is of neither; and a new listener that is not refused comes round to ask for the next subscription,
again and again.
-/

namespace Pubsub

variable {Handler : Type}

/-- The messages that a listener has still to hand on. -/
def ListenerPhase.pending : ListenerPhase → List (String × Message)
  | delivering messages => messages
  | receiving _ _ rest => rest
  | _ => []

/-- The operation that a listener waits for. -/
def ListenerPhase.subscription? : ListenerPhase → Option Nat
  | subscribing k => some k
  | _ => none

/-- Is the session still to be claimed? -/
def InvocationPhase.isAsked : InvocationPhase → Bool
  | asked => true
  | _ => false

/-- Was the listener ended because its session was busy? -/
def ListenerPhase.isRefused : ListenerPhase → Bool
  | crashed .busy => true
  | _ => false

theorem ListenerPhase.eq_of_subscription? {phase : ListenerPhase} {k : Nat}
    (h : phase.subscription? = some k) : phase = .subscribing k := by
  cases phase with
  | subscribing j =>
    cases h
    rfl
  | _ => cases h

theorem ListenerPhase.eq_of_isRefused {phase : ListenerPhase} (h : phase.isRefused = true) :
    phase = .crashed .busy := by
  unfold isRefused at h
  split at h
  · rfl
  · cases h

/-- What a listener can have come to that was told to stop: it has no more messages than before, and
waits for no other subscription. -/
structure Listener.WindsUp (x x' : Listener) : Prop where
  stopping : x'.stopping = true
  receiver : x'.receiver = x.receiver
  pending : x'.phase.pending <:+ x.phase.pending
  subscribing : ∀ {k : Nat}, x'.phase = .subscribing k → x.phase = .subscribing k

namespace Listener.WindsUp

variable {x y z : Listener}

theorem refl (hs : x.stopping = true) : x.WindsUp x := ⟨hs, rfl, List.suffix_refl _, id⟩

theorem trans (h : x.WindsUp y) (h' : y.WindsUp z) : x.WindsUp z :=
  ⟨h'.stopping, h'.receiver.trans h.receiver, h'.pending.trans h.pending,
    fun hp => h.subscribing (h'.subscribing hp)⟩

end Listener.WindsUp

namespace Client

variable {w w' u v : Client Handler} {action : Action Handler} {actions : List (Action Handler)}
  {l k i : Nat} {x x' y : Listener}

/-! ## The old listener -/

/-- A listener that was told to stop winds up by whatever happens. -/
theorem Becomes.windsUp (h : w.Becomes l x action x') (hs : x.stopping = true) :
    x.WindsUp x' := by
  refine ⟨h.stopping hs, h.same.1, ?_, ?_⟩
  · cases h with
    | stays => exact List.suffix_refl _
    | told => exact List.suffix_refl _
    | turns ht =>
      cases ht with
      | hands hp =>
        rw [hp]
        exact List.suffix_cons _ _
      | resumes hp =>
        rw [hp]
        exact List.suffix_refl _
      | @takes _ result =>
        have hleaves : w.afterResult x result = .leaving := if_pos hs
        rw [hleaves]
        exact List.nil_suffix
      | _ => exact List.nil_suffix
  · intro k hk
    cases h with
    | stays => exact hk
    | told => exact hk
    | @turns phase ht =>
      obtain rfl : phase = .subscribing k := hk
      generalize hphase : ListenerPhase.subscribing k = phase at ht
      cases ht with
      | asks hp hgoing => cases hs.symm.trans hgoing
      | @takes _ result =>
        rcases w.afterResult_eq x result with heq | heq | heq <;> cases hphase.trans heq
      | _ => cases hphase

/-- **A listener that was told to stop winds up, along every run.** -/
theorem windsUp_run? (hx : w.listeners[l]? = some x) (hs : x.stopping = true)
    (hr : w.run? actions = some w') : ∃ x', w'.listeners[l]? = some x' ∧ x.WindsUp x' := by
  refine of_run? (P := fun v => ∃ y, v.listeners[l]? = some y ∧ x.WindsUp y) ?_
    ⟨x, hx, .refl hs⟩ hr
  rintro u v action ⟨y, hy, hwinds⟩ ha
  obtain ⟨z, hz, hbecomes⟩ := (hears_act? ha).becomes hy
  exact ⟨z, hz, hwinds.trans (hbecomes.windsUp hwinds.stopping)⟩

/-- A listener that was told to stop asks for nothing, and hands on what it has. -/
theorem stepListener?_of_stopping (hx : w.listeners[l]? = some x) (hs : x.stopping = true)
    (h : w.stepListener? l = some w') :
    w'.invocations = w.invocations
      ∧ (w'.journal = w.journal ∨ ∃ channel message, (channel, message) ∈ x.phase.pending
        ∧ w'.journal = w.journal ++ [.received x.receiver channel message]) := by
  have ha : w.act? (.stepListener l) = some w' := h
  obtain ⟨y, phase, hy, ht, rfl⟩ := turns_act? ha (beq_self_eq_true l)
  obtain rfl := Option.some.inj (hx.symm.trans hy)
  cases ht with
  | asks _ hgoing => cases hs.symm.trans hgoing
  | @takes i result hp =>
    have hleaves : w.afterResult x result = .leaving := if_pos hs
    simp only [aside, hp, hleaves]
    exact ⟨rfl, .inl rfl⟩
  | @hands channel message rest hp =>
    simp only [aside, hp]
    exact ⟨rfl, .inr ⟨channel, message, List.mem_cons_self, rfl⟩⟩
  | stops hp | fails hp | returns hp | finds hp | ends hp | strikes hp | misses hp =>
    simp only [aside, hp]
    exact ⟨rfl, .inl rfl⟩

/-! ## What a listener waits for -/

/-- In the course of the run the listener waits for the operation. -/
def WaitsFor (w : Client Handler) (actions : List (Action Handler)) (l k : Nat) : Prop :=
  ∃ first rest v x, actions = first ++ rest ∧ w.run? first = some v ∧ v.listeners[l]? = some x
    ∧ x.phase = .subscribing k

/-- An operation that is over stays over. -/
theorem ended_act? {outcome : Except Error Returned}
    (h : w.invocationPhase? k = some (.ended outcome)) (ha : w.act? action = some w') :
    w'.invocationPhase? k = some (.ended outcome) := by
  obtain ⟨x, hx, hp⟩ := Option.map_eq_some_iff.1 h
  obtain ⟨phase, hx', hmoves⟩ := invocation_act? hx ha
  unfold invocationPhase?
  rw [hx', Option.map_some, hmoves.ended outcome hp]

/-- A listener waits for a subscription until that is over. -/
theorem waits_or_ended_act? (hx : w.listeners[l]? = some x) (hp : x.phase = .subscribing k)
    (ha : w.act? action = some w') :
    (∃ x', w'.listeners[l]? = some x' ∧ x'.phase = .subscribing k)
      ∨ ∃ outcome, w'.invocationPhase? k = some (.ended outcome) := by
  obtain ⟨y, hy, hbecomes⟩ := (hears_act? ha).becomes hx
  cases hbecomes with
  | stays => exact .inl ⟨_, hy, hp⟩
  | told => exact .inl ⟨_, hy, hp⟩
  | turns ht =>
    cases ht with
    | fails hp' hi =>
      cases hp.symm.trans hp'
      exact .inr ⟨_, ended_act? hi ha⟩
    | takes hp' hi =>
      cases hp.symm.trans hp'
      exact .inr ⟨_, ended_act? hi ha⟩
    | asks hp' | stops hp' | returns hp' | hands hp' | finds hp' | ends hp' | strikes hp'
    | misses hp' | wakes hp' | resumes hp' | breaks hp' => cases hp.symm.trans hp'

theorem waits_or_ended_run? (hx : w.listeners[l]? = some x) (hp : x.phase = .subscribing k)
    (hr : w.run? actions = some w') :
    (∃ x', w'.listeners[l]? = some x' ∧ x'.phase = .subscribing k)
      ∨ ∃ outcome, w'.invocationPhase? k = some (.ended outcome) := by
  refine of_run? (P := fun v => (∃ y, v.listeners[l]? = some y ∧ y.phase = .subscribing k)
    ∨ ∃ outcome, v.invocationPhase? k = some (.ended outcome)) ?_ (.inl ⟨x, hx, hp⟩) hr
  rintro u v action (⟨y, hy, hp⟩ | ⟨outcome, hended⟩) ha
  · exact waits_or_ended_act? hy hp ha
  · exact .inr ⟨outcome, ended_act? hended ha⟩

/-- An operation that holds a session is not over, nor still to claim it. -/
theorem Holds.phase_ne {v : Invocation Handler} (h : w.Holds i v) :
    v.phase ≠ .asked ∧ ∀ outcome, v.phase ≠ .ended outcome := by
  cases h with
  | building hp => simp [hp]
  | carrying hp =>
    constructor
    · intro hasked
      rw [hasked] at hp
      cases hp
    · intro outcome hended
      rw [hended] at hp
      cases hp

/-- An operation that holds a session is none that the listener ever waited for, if it waits for
another one now that has still to claim the session. -/
theorem not_waitsFor_of_holds {j : Nat} {z v : Invocation Handler}
    (hr : w.run? actions = some w') (hx : w'.listeners[l]? = some x)
    (hp : x.phase = .subscribing j) (hj : w'.invocations[j]? = some z) (hz : z.phase = .asked)
    (hk : w'.invocations[k]? = some v) (h : w'.Holds i v) : ¬ w.WaitsFor actions l k := by
  rintro ⟨first, rest, m, y, rfl, hfirst, hy, hwaits⟩
  rw [run?_append, hfirst] at hr
  rcases waits_or_ended_run? hy hwaits hr with ⟨x', hx', hp'⟩ | ⟨outcome, hended⟩
  · obtain rfl := Option.some.inj (hx.symm.trans hx')
    cases hp.symm.trans hp'
    obtain rfl := Option.some.inj (hj.symm.trans hk)
    exact h.phase_ne.1 hz
  · obtain ⟨v', hv', hover⟩ := Option.map_eq_some_iff.1 hended
    obtain rfl := Option.some.inj (hk.symm.trans hv')
    exact h.phase_ne.2 outcome hover

/-! ## The new listener -/

/-- By actions of its own only, the listener comes to ask for the next subscription. -/
def ComesRound (w : Client Handler) (l : Nat) (x : Listener) : Prop :=
  ∃ more w', w.run? more = some w' ∧ (∀ action ∈ more, action.isOfListener l = true)
    ∧ w'.listeners[l]? = some { x with phase := .subscribing w.invocations.length }
    ∧ w'.invocations = w.invocations
      ++ [⟨x.session, .subscribeMulti (.arr x.channels), x.timeout, none, .asked⟩]

/-- One more action of the listener, by which it asks for nothing. -/
theorem ComesRound.cons {phase : ListenerPhase} (h : v.ComesRound l { x with phase })
    (ha : w.act? action = some v) (ho : action.isOfListener l = true)
    (hi : v.invocations = w.invocations) : w.ComesRound l x := by
  obtain ⟨more, w', hr, hall, hx, hasked⟩ := h
  rw [hi] at hx hasked
  refine ⟨action :: more, w', ?_, ?_, hx, hasked⟩
  · rw [run?_cons, ha]
    exact hr
  · intro a hm
    rcases List.mem_cons.1 hm with rfl | hm
    · exact ho
    · exact hall a hm

theorem getElem?_setListener_self (hx : w.listeners[l]? = some x) (phase : ListenerPhase) :
    (w.setListener l phase).listeners[l]? = some { x with phase } := by
  rw [getElem?_setListener, hx, Option.map_some, if_pos rfl]

theorem comesRound_of_looping (hx : w.listeners[l]? = some x) (hp : x.phase = .looping)
    (hs : x.stopping = false) : w.ComesRound l x := by
  refine ⟨[.stepListener l], _, (run?_singleton w _).trans (stepListener?_of_looping hx hp hs), ?_,
    ?_, rfl⟩
  · intro action hm
    obtain rfl := List.mem_singleton.1 hm
    exact beq_self_eq_true l
  · exact getElem?_setListener_self (w := w.ask _ _ _ _) hx _

theorem comesRound_of_pausing (hx : w.listeners[l]? = some x) (hp : x.phase = .pausing)
    (hs : x.stopping = false) : w.ComesRound l x := by
  have hwakes : w.act? (.wakeListener l) = some (w.setListener l .looping) := by
    unfold act? wakeListener?
    simp only [hx, hp, Option.map_some]
  exact (comesRound_of_looping (getElem?_setListener_self hx _) rfl hs).cons hwakes
    (beq_self_eq_true l) rfl

/-- A listener whose receiver was handed a message comes round if it does so from there. -/
theorem comesRound_of_receiving {channel : String} {message : Message}
    {rest : List (String × Message)} (hx : w.listeners[l]? = some x)
    (hp : x.phase = .receiving channel message rest)
    (h : (w.setListener l (.delivering rest)).ComesRound l { x with phase := .delivering rest }) :
    w.ComesRound l x := by
  have hresumes : w.act? (.returnListener l none) = some (w.setListener l (.delivering rest)) := by
    unfold act? returnListener?
    simp only [hx, hp, Option.map_some]
  exact h.cons hresumes (beq_self_eq_true l) rfl

/-- A listener that hands messages on comes round when it has handed on all of them. -/
theorem comesRound_of_delivering {messages : List (String × Message)}
    (hx : w.listeners[l]? = some x) (hp : x.phase = .delivering messages)
    (hs : x.stopping = false) : w.ComesRound l x := by
  induction messages generalizing w x with
  | nil =>
    have hreturns : w.act? (.stepListener l) = some (w.setListener l .looping) := by
      unfold act? stepListener?
      simp only [hx, hp]
    exact (comesRound_of_looping (getElem?_setListener_self hx _) rfl hs).cons hreturns
      (beq_self_eq_true l) rfl
  | cons entry rest ih =>
    obtain ⟨channel, message⟩ := entry
    have hhands : w.act? (.stepListener l)
        = some ((w.record (.received x.receiver channel message)).setListener l
          (.receiving channel message rest)) := by
      unfold act? stepListener?
      simp only [hx, hp]
    have hy := getElem?_setListener_self (w := w.record (.received x.receiver channel message)) hx
      (.receiving channel message rest)
    have hround := comesRound_of_receiving hy rfl (ih (getElem?_setListener_self hy _) rfl hs)
    exact hround.cons hhands (beq_self_eq_true l) rfl

/-- A listener whose subscription came to a result comes round, unless it is dismissed. -/
theorem comesRound_of_result {result : Result} (hx : w.listeners[l]? = some x)
    (hp : x.phase = .subscribing k)
    (hi : w.invocationPhase? k = some (.ended (.ok (.result result)))) (hs : x.stopping = false)
    (hc : x.receiver ∉ w.collected) : w.ComesRound l x := by
  have hstays : ¬ x.stopping = true := by simp [hs]
  have hthere : ¬ w.collected.contains x.receiver = true := fun h => hc (List.contains_iff_mem.mp h)
  by_cases hcode : (result.code != .ok) = true
  · have hafter : w.afterResult x result = .pausing := by
      unfold afterResult
      rw [if_neg hstays, if_pos hcode]
    have htakes : w.act? (.stepListener l)
        = some ((w.record (.paused pauseTime)).setListener l .pausing) := by
      unfold act? stepListener?
      simp only [hx, hp, hi, hafter]
    exact (comesRound_of_pausing (getElem?_setListener_self (w := w.record _) hx _) rfl hs).cons
      htakes (beq_self_eq_true l) rfl
  · have hafter : w.afterResult x result = .delivering (deliveries result) := by
      unfold afterResult
      rw [if_neg hstays, if_neg hcode, if_neg hthere]
    have htakes : w.act? (.stepListener l)
        = some (w.setListener l (.delivering (deliveries result))) := by
      unfold act? stepListener?
      simp only [hx, hp, hi, hafter]
    exact (comesRound_of_delivering (getElem?_setListener_self hx _) rfl hs).cons htakes
      (beq_self_eq_true l) rfl

/-- The listener waits for a subscription of its own that is in progress, or was ended by an
error. -/
def AwaitsSubscription (w : Client Handler) (x : Listener) : Prop :=
  ∃ (j : Nat) (v : Invocation Handler), x.phase = .subscribing j ∧ w.invocations[j]? = some v
    ∧ IsSubscriptionOf v x ∧ ∀ returned, v.phase ≠ .ended (.ok returned)

/-- **A listener that is in its loop and was not dismissed comes round**, unless it waits for a
subscription. -/
theorem Reachable.comesRound (hw : Reachable w) (hk : w.frontend.kind = .blocking)
    (hx : w.listeners[l]? = some x) (hgoing : x.phase.isGoing = true) (hs : x.stopping = false)
    (hc : x.receiver ∉ w.collected) : w.AwaitsSubscription x ∨ w.ComesRound l x := by
  cases hp : x.phase with
  | looping => exact .inr (comesRound_of_looping hx hp hs)
  | pausing => exact .inr (comesRound_of_pausing hx hp hs)
  | delivering messages => exact .inr (comesRound_of_delivering hx hp hs)
  | receiving channel message rest =>
    exact .inr (comesRound_of_receiving hx hp
      (comesRound_of_delivering (getElem?_setListener_self hx _) rfl hs))
  | subscribing j =>
    obtain ⟨v, hv, ho, hresult⟩ := (hw.attends hx).asked hp
    by_cases hover : ∃ returned, v.phase = .ended (.ok returned)
    · obtain ⟨returned, hreturned⟩ := hover
      obtain ⟨result, rfl⟩ := hresult hk returned hreturned
      have hi : w.invocationPhase? j = some (.ended (.ok (.result result))) := by
        unfold invocationPhase?
        rw [hv, Option.map_some, hreturned]
      exact .inr (comesRound_of_result hx hp hi hs hc)
    · exact .inl ⟨j, v, hp, hv, ho, not_exists.1 hover⟩
  | _ =>
    rw [hp] at hgoing
    cases hgoing

/-! ## The replacement -/

/-- What becomes of a replaced listener along a run; `old` is what it was when it was replaced. -/
structure Retires (w : Client Handler) (o : Nat) (old : Listener)
    (actions : List (Action Handler)) (w' : Client Handler) : Prop where
  windsUp : ∃ old', w'.listeners[o]? = some old' ∧ old.WindsUp old'
  /-- By its steps nothing is asked for, and no messages are handed on but those that it had. -/
  step : ∀ {v v' : Client Handler}, w.Occurs actions v (.stepListener o) v' →
    v'.invocations = v.invocations
      ∧ (v'.journal = v.journal ∨ ∃ channel message, (channel, message) ∈ old.phase.pending
        ∧ v'.journal = v.journal ++ [.received old.receiver channel message])

/-- How the listener that took the place of another one stands after a run: `new` is what it is
then, and `old` what the other one was when it was replaced. -/
structure Serves (w : Client Handler) (o : Nat) (old : Listener) (n : Nat) (new : Listener)
    (actions : List (Action Handler)) (w' : Client Handler) : Prop where
  fares : w'.Fares new
  /-- As long as it is not dismissed, it asks for one subscription after the other. -/
  round : new.phase.isGoing = true → new.stopping = false → new.receiver ∉ w'.collected →
    w'.AwaitsSubscription new ∨ w'.ComesRound n new
  /-- A subscription that finds the session free claims it. -/
  claims : ∀ {j : Nat} {x : Invocation Handler} {s : Session}, new.phase = .subscribing j →
    w'.invocations[j]? = some x → x.phase = .asked → w'.sessions[new.session]? = some s →
    s.closed = false → s.busy = false →
    ∃ v, w'.act? (.stepInvocation j) = some v ∧ v.invocationPhase? j = some .claimed
  /-- One that finds the session busy finds it held by the subscription that the other listener had
  in progress when it was replaced, or by an operation that neither listener ever waited for. -/
  refused : ∀ {j : Nat} {x : Invocation Handler} {s : Session}, new.phase = .subscribing j →
    w'.invocations[j]? = some x → x.phase = .asked → w'.sessions[new.session]? = some s →
    s.busy = true →
    ∃ (k : Nat) (holder : Invocation Handler), w'.invocations[k]? = some holder
      ∧ w'.Holds new.session holder
      ∧ (old.phase = .subscribing k ∨ ¬ w.WaitsFor actions o k ∧ ¬ w.WaitsFor actions n k)

/-- A listener that was told to stop retires. -/
theorem retires_of_stopping {old : Listener} {o : Nat}
    (hx : w.listeners[o]? = some { old with stopping := true }) (hr : w.run? actions = some w') :
    w.Retires o old actions w' := by
  refine ⟨?_, ?_⟩
  · obtain ⟨old', hold', hwinds⟩ := windsUp_run? hx rfl hr
    exact ⟨old', hold', hwinds.stopping, hwinds.receiver, hwinds.pending, hwinds.subscribing⟩
  · intro v v' ho
    obtain ⟨before, after, -, hbefore, hstep, -⟩ := ho.exists_run? hr
    obtain ⟨y, hy, hwinds⟩ := windsUp_run? hx rfl hbefore
    obtain ⟨hasked, hjournal⟩ := stepListener?_of_stopping hy hwinds.stopping hstep
    refine ⟨hasked, hjournal.imp_right ?_⟩
    rintro ⟨channel, message, hm, heq⟩
    rw [hwinds.receiver] at heq
    exact ⟨channel, message, hwinds.pending.subset hm, heq⟩

/-- A listener that took the place of one that was told to stop serves. -/
theorem Reachable.serves_of_stopping {old new : Listener} {o n : Nat} (hw : Reachable w)
    (hk : w.frontend.kind = .blocking) (hx : w.listeners[o]? = some { old with stopping := true })
    (hr : w.run? actions = some w') (hn : w'.listeners[n]? = some new)
    (hborn : ∀ e, new.phase ≠ .stillborn e) : w.Serves o old n new actions w' := by
  have hw' : Reachable w' := ReachableBy.run hw (fun _ _ => trivial) hr
  have hk' : w'.frontend.kind = .blocking := (hw.kind_run? hr).trans hk
  have hown {j : Nat} {x : Invocation Handler} (hp : new.phase = .subscribing j)
      (hj : w'.invocations[j]? = some x) : x.session = new.session := by
    obtain ⟨v, hv, ho, -⟩ := (hw'.attends hn).asked hp
    obtain rfl := Option.some.inj (hj.symm.trans hv)
    exact ho.session
  have hfares := (hw'.attends hn).fares.resolve_right (by rintro ⟨e, he⟩; exact hborn e he)
  refine ⟨hfares, hw'.comesRound hk' hn, ?_, ?_⟩
  · intro j x s hp hj hasked hs hopen hfree
    have hclaims := claimed_of_stepInvocation? hs hopen hfree hj (hown hp hj) hasked
    refine ⟨_, hclaims, ?_⟩
    unfold invocationPhase?
    rw [getElem?_setInvocation (w := w'.setSession new.session _) hj, Option.map_some]
  · intro j x s hp hj hasked hs hbusy
    obtain ⟨k, holder, hholder, hholds⟩ := (hw'.busy_iff_holds hk' hs).1 hbusy
    refine ⟨k, holder, hholder, hholds, ?_⟩
    by_cases hold : old.phase = .subscribing k
    · exact .inl hold
    · refine .inr ⟨?_, not_waitsFor_of_holds hr hn hp hj hasked hholder hholds⟩
      -- The old listener waits for nothing that it did not wait for before.
      rintro ⟨first, rest, v, y, rfl, hfirst, hy, hwaits⟩
      obtain ⟨y', hy', hwinds⟩ := windsUp_run? hx rfl hfirst
      obtain rfl := Option.some.inj (hy.symm.trans hy')
      exact hold (hwinds.subscribing hwaits)

/-- A listener whose thread was started stays one. -/
theorem Becomes.phase_ne_stillborn (h : w.Becomes l x action x')
    (hp : ∀ e, x.phase ≠ .stillborn e) (e : Error) : x'.phase ≠ .stillborn e := by
  cases h with
  | stays => exact hp e
  | told => exact hp e
  | turns ht =>
    cases ht with
    | @takes _ result =>
      show w.afterResult x result ≠ .stillborn e
      rcases w.afterResult_eq x result with heq | heq | heq <;> rw [heq] <;> rintro ⟨⟩
    | _ => rintro ⟨⟩

/-- What a listener is stays along a run, apart from what it does. -/
theorem exists_same_listener_run? (hx : w.listeners[l]? = some x)
    (hborn : ∀ e, x.phase ≠ .stillborn e) (hr : w.run? actions = some w') :
    ∃ x', w'.listeners[l]? = some x' ∧ x'.receiver = x.receiver ∧ x'.session = x.session
      ∧ x'.channels = x.channels ∧ x'.timeout = x.timeout ∧ ∀ e, x'.phase ≠ .stillborn e := by
  refine of_run? (P := fun v => ∃ y, v.listeners[l]? = some y ∧ y.receiver = x.receiver
    ∧ y.session = x.session ∧ y.channels = x.channels ∧ y.timeout = x.timeout
    ∧ ∀ e, y.phase ≠ .stillborn e) ?_ ⟨x, hx, rfl, rfl, rfl, rfl, hborn⟩ hr
  rintro u v action ⟨y, hy, hreceiver, hsession, hchannels, htimeout, hborn⟩ ha
  obtain ⟨z, hz, hbecomes⟩ := (hears_act? ha).becomes hy
  obtain ⟨hreceiver', hsession', hchannels', htimeout'⟩ := hbecomes.same
  exact ⟨z, hz, hreceiver'.trans hreceiver, hsession'.trans hsession, hchannels'.trans hchannels,
    htimeout'.trans htimeout, hbecomes.phase_ne_stillborn hborn⟩

/-- **A listener that is started takes over from the one before it**, as far as a request in
progress lets it. Let a listener be registered for a receiver, whatever it does, and another one be
started for the receiver; and let anything happen then.

* The old listener asks for no other subscription, and hands on no messages but those that it had
  when it was replaced (`Retires`): a result that comes later is not even looked at.
* The new one subscribes to the new channels, over and over, until it is dismissed, or an error
  comes out of a subscription of its own, or its receiver raises one that is no exception
  (`Serves`). By the replacement itself an error can only be a refusal while the request that the
  old one had in progress, or was about to make, holds the session. When that request is over, or if
  there was none, the session is the new listener's, unless it is closed or in use by somebody
  else. -/
theorem Reachable.replacement_takes_over {old : Listener} {o : Nat} {receiver : String}
    {channels timeout : Json} (hu : Reachable u) (hr : u.listenerOf? receiver = some o)
    (ho : u.listeners[o]? = some old)
    {fault : Option Error}
    (hstart : u.startListener i channels (some receiver) timeout fault = (.ok (), w))
    (hrun : w.run? actions = some w') :
    w.Retires o old actions w'
    ∧ ∃ list new, listenedChannels channels = .ok list
      ∧ w'.listeners[u.listeners.length]? = some new ∧ new.receiver = receiver ∧ new.session = i
      ∧ new.channels = list ∧ new.timeout = timeout
      ∧ w.Serves o old u.listeners.length new actions w' := by
  have hact : u.act? (.startListener i channels (some receiver) timeout fault) = some w := by
    show some (u.startListener i channels (some receiver) timeout fault).2 = some w
    rw [hstart]
  have hw : Reachable w := hu.act _ trivial hact
  obtain ⟨hblocking, -, list, hlist, henlist⟩ := startListener_eq_ok hstart
  have hk : w.frontend.kind = .blocking := by
    rw [henlist, enlist, frontend_stopListener]
    exact eq_of_beq hblocking
  have hlisteners : w.listeners = (u.stopListener receiver).listeners
      ++ [⟨receiver, i, list, timeout, false, .looping⟩] := by
    rw [henlist, enlist]
  have hlength := length_stopListener u receiver
  have hlt := (List.getElem?_eq_some_iff.1 ho).1
  have hold : w.listeners[o]? = some { old with stopping := true } := by
    rw [hlisteners, List.getElem?_append_left (by omega), getElem?_stopListener, ho,
      Option.map_some, if_pos hr]
  have hnew : w.listeners[u.listeners.length]?
      = some ⟨receiver, i, list, timeout, false, .looping⟩ := by
    rw [hlisteners, ← hlength]
    exact List.getElem?_concat_length
  obtain ⟨new, hnew', hreceiver, hsession, hchannels, htimeout, hborn⟩ :=
    exists_same_listener_run? hnew (by rintro e ⟨⟩) hrun
  exact ⟨retires_of_stopping hold hrun, list, new, hlist, hnew', hreceiver, hsession, hchannels,
    htimeout, hw.serves_of_stopping hk hold hrun hnew' hborn⟩

/-- An application listens on a channel, and the request of the listener is in progress. -/
def listeningInFlight : List (Action Unit) :=
  [.openSession ⟨.null, .null, .null, .null, true⟩ "u",
    .startListener 0 (.str "a") (some "r") .null none, .stepListener 0, .stepInvocation 0,
    .stepInvocation 0, .stepInvocation 0, .stepInvocation 0]

/-- The client then. -/
def inFlightClient : Client Unit := (blockingClient.run? listeningInFlight).getD blockingClient

/-- The client after another listener was started for the same receiver. -/
def replacedClient : Client Unit :=
  (inFlightClient.startListener 0 (.str "b") (some "r") .null none).2

theorem run?_listeningInFlight : blockingClient.run? listeningInFlight = some inFlightClient := by
  obtain ⟨u, hu⟩ := Option.isSome_iff_exists.1
    (show (blockingClient.run? listeningInFlight).isSome = true by decide +kernel)
  unfold inFlightClient
  rw [hu]
  rfl

theorem reachable_inFlightClient : Reachable inFlightClient :=
  ReachableBy.run (.initial _ [] _) (fun _ _ => trivial) run?_listeningInFlight

/-- In that client a listener waits for its request, and can be replaced. -/
theorem inFlightClient_facts :
    inFlightClient.listenerOf? "r" = some 0
      ∧ (∃ old, inFlightClient.listeners[0]? = some old ∧ old.session = 0
        ∧ old.phase = .subscribing 0)
      ∧ inFlightClient.listeners.length = 1
      ∧ inFlightClient.startListener 0 (.str "b") (some "r") .null none
        = (.ok (), replacedClient) := by
  have hfacts : (inFlightClient.listenerOf? "r" == some 0
      && (inFlightClient.listeners[0]?).any (fun old => old.session == 0
        && old.phase.subscription? == some 0)
      && inFlightClient.listeners.length == 1
      && (inFlightClient.startListener 0 (.str "b") (some "r") .null none).1.isOk) = true := by
    decide +kernel
  simp only [Bool.and_eq_true, beq_iff_eq] at hfacts
  obtain ⟨⟨⟨hr, hold⟩, hlength⟩, hok⟩ := hfacts
  obtain ⟨old, hold, hphase⟩ := (Option.any_eq_true _ _).1 hold
  simp only [Bool.and_eq_true, beq_iff_eq] at hphase
  refine ⟨hr, ⟨old, hold, hphase.1, ListenerPhase.eq_of_subscription? hphase.2⟩, hlength, ?_⟩
  generalize hstart : inFlightClient.startListener 0 (.str "b") (some "r") .null none = started
    at hok
  obtain ⟨outcome, w⟩ := started
  cases outcome with
  | error e => cases hok
  | ok =>
    unfold replacedClient
    rw [hstart]

/-- The request of the first listener is answered, and the other one asks for a subscription. -/
def answeredBefore : List (Action Unit) :=
  [.answerInvocation 0 (.ok (.reply 200 (utf8Bytes "[[],\"5\"]"))), .stepInvocation 0,
    .stepInvocation 0, .stepListener 1]

/-- The request is over when the new listener asks, so its subscription claims the session. -/
theorem replacement_takes_over_answeredBefore :
    ∃ (w' v : Client Unit) (new : Listener),
      inFlightClient.startListener 0 (.str "b") (some "r") .null none = (.ok (), replacedClient)
      ∧ replacedClient.run? answeredBefore = some w' ∧ w'.listeners[1]? = some new
      ∧ new.channels = [.str "b"] ∧ w'.act? (.stepInvocation 1) = some v
      ∧ v.invocationPhase? 1 = some .claimed := by
  obtain ⟨hr, ⟨old, hold, -, -⟩, hlength, hstart⟩ := inFlightClient_facts
  have hfacts : (replacedClient.run? answeredBefore).any (fun w' =>
      (w'.listeners[1]?).any (·.phase.subscription? == some 1)
        && (w'.invocations[1]?).any (·.phase.isAsked)
        && (w'.sessions[0]?).any fun s => s.closed == false && s.busy == false) = true := by
    decide +kernel
  obtain ⟨w', hrun, hfacts⟩ := (Option.any_eq_true _ _).1 hfacts
  simp only [Bool.and_eq_true] at hfacts
  obtain ⟨⟨hwaits, hasked⟩, hfree⟩ := hfacts
  obtain ⟨x, hx, hasked⟩ := (Option.any_eq_true _ _).1 hasked
  obtain ⟨s, hs, hfree⟩ := (Option.any_eq_true _ _).1 hfree
  simp only [Bool.and_eq_true, beq_iff_eq] at hfree
  have hphase : x.phase = .asked := by
    unfold InvocationPhase.isAsked at hasked
    split at hasked
    · assumption
    · cases hasked
  obtain ⟨-, list, new, hlist, hnew, -, hsession, hchannels, -, hserves⟩ :=
    reachable_inFlightClient.replacement_takes_over hr hold hstart hrun
  rw [hlength] at hnew
  rw [hnew] at hwaits
  have hwaits : new.phase = .subscribing 1 :=
    ListenerPhase.eq_of_subscription? (by simpa using hwaits)
  obtain ⟨v, hv, hclaimed⟩ := hserves.claims hwaits hx hphase (hsession ▸ hs) hfree.1 hfree.2
  cases hlist
  exact ⟨w', v, new, hstart, hrun, hnew, hchannels, hv, hclaimed⟩

/-- The new listener asks for a subscription before the request of the first one is answered. -/
def answeredAfter : List (Action Unit) :=
  [.stepListener 1, .stepInvocation 1, .stepListener 1,
    .answerInvocation 0 (.ok (.reply 200 (utf8Bytes "[[],\"5\"]"))), .stepInvocation 0,
    .stepInvocation 0, .stepListener 0, .stepListener 0]

/-- **A replacement can leave the receiver to nobody.** A listener is replaced while its request is
in progress, on a session that nobody else uses. The subscription of the new one is refused, as the
session is busy, and the error ends the new listener, which was not told to stop and whose receiver
is there. When the request is answered, the old listener leaves as well, and the session is free. -/
theorem handed_over_to_nobody :
    ∃ (w' : Client Unit) (old new : Listener), Reachable inFlightClient
      ∧ inFlightClient.listenerOf? "r" = some 0 ∧ inFlightClient.listeners[0]? = some old
      ∧ old.session = 0 ∧ old.phase = .subscribing 0
      ∧ inFlightClient.startListener 0 (.str "b") (some "r") .null none = (.ok (), replacedClient)
      ∧ replacedClient.run? answeredAfter = some w'
      ∧ w'.listeners.map (·.phase.isGoing) = [false, false] ∧ w'.listeners[1]? = some new
      ∧ new.phase = .crashed .busy ∧ new.stopping = false ∧ w'.collected = []
      ∧ w'.sessions.map Session.busy = [false] := by
  obtain ⟨hr, ⟨old, hold, hsession, hwaits⟩, -, hstart⟩ := inFlightClient_facts
  have hfacts : (replacedClient.run? answeredAfter).any (fun w' =>
      w'.listeners.map (·.phase.isGoing) == [false, false]
        && (w'.listeners[1]?).any (fun x => x.phase.isRefused && x.stopping == false)
        && w'.collected.isEmpty && w'.sessions.map Session.busy == [false]) = true := by
    decide +kernel
  obtain ⟨w', hrun, hfacts⟩ := (Option.any_eq_true _ _).1 hfacts
  simp only [Bool.and_eq_true, beq_iff_eq, List.isEmpty_iff] at hfacts
  obtain ⟨⟨⟨hover, hcrashed⟩, hthere⟩, hfree⟩ := hfacts
  obtain ⟨new, hnew, hcrashed⟩ := (Option.any_eq_true _ _).1 hcrashed
  simp only [Bool.and_eq_true, beq_iff_eq] at hcrashed
  exact ⟨w', old, new, reachable_inFlightClient, hr, hold, hsession, hwaits, hstart, hrun, hover,
    hnew, ListenerPhase.eq_of_isRefused hcrashed.1, hcrashed.2, hthere, hfree⟩

end Client

end Pubsub
