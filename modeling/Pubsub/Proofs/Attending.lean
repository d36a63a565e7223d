import Pubsub.Proofs.Listening

/-!
# How listeners fare

A listener waits for one subscription after the other, and each is an operation like any other: it
moves on by its own steps, and is over at some time (`Client.MovesOn`). What a listener waits for is
a subscription of its own (`Client.Attends`). So a listener goes on unless there is a reason
(`Client.Fares`): it was told to stop, its receiver exists no more, or an error came out of its
subscription or, if it is no exception, of its receiver.
-/

namespace Pubsub

variable {Handler : Type}

/-- Is the listener still in its loop? -/
def ListenerPhase.isGoing : ListenerPhase → Bool
  | looping => true
  | subscribing _ => true
  | pausing => true
  | delivering _ => true
  | receiving _ _ _ => true
  | _ => false

namespace Client

variable {w w' : Client Handler} {action : Action Handler} {l : Nat} {x x' : Listener}

/-! ## Operations move on -/

/-- What can become of an operation by an action: it stays over once it is over, and what a blocking
frontend gives back is a result. -/
structure MovesOn (w : Client Handler) (before after : InvocationPhase) : Prop where
  ended : ∀ outcome, before = .ended outcome → after = .ended outcome
  returned : w.frontend.kind = .blocking → ∀ returned, after = .ended (.ok returned) →
    before = after ∨ ∃ result, returned = .result result

namespace MovesOn

variable {before after : InvocationPhase}

theorem refl (w : Client Handler) (phase : InvocationPhase) : w.MovesOn phase phase :=
  ⟨fun _ h => h, fun _ _ _ => .inl rfl⟩

/-- An operation that is not over may move to a phase in which nothing is given back. -/
theorem of_going (hb : ∀ outcome, before ≠ .ended outcome)
    (ha : ∀ returned, after ≠ .ended (.ok returned)) : w.MovesOn before after :=
  ⟨fun outcome h => absurd h (hb outcome), fun _ returned h => absurd h (ha returned)⟩

end MovesOn

/-- A call that is handed to a blocking frontend is driven by the operation. -/
theorem movesOn_launchFor {k c : Nat} {v : Invocation Handler} (hv : w.invocations[k]? = some v)
    (hp : v.phase = .launching c) :
    ∃ phase, (w.launchFor k c).invocations[k]? = some { v with phase }
      ∧ w.MovesOn v.phase phase := by
  have hgoing : ∀ outcome, v.phase ≠ .ended outcome := by
    rw [hp]
    rintro outcome ⟨⟩
  have hforeign {phase : InvocationPhase} (hk : w.frontend.kind ≠ .blocking) :
      w.MovesOn v.phase phase :=
    ⟨fun outcome h => absurd h (hgoing outcome), fun h => absurd h hk⟩
  unfold launchFor
  split
  · exact ⟨_, getElem?_setInvocation hv _, .of_going hgoing (by rintro _ ⟨⟩)⟩
  · next hk =>
    split <;> exact ⟨_, getElem?_setInvocation hv _, hforeign (by simp [hk])⟩
  · next hk =>
    split <;> exact ⟨_, getElem?_setInvocation hv _, hforeign (by simp [hk])⟩

/-- **An operation stays what was asked for, and moves on.** -/
theorem invocation_act? {k : Nat} {v : Invocation Handler} (hv : w.invocations[k]? = some v)
    (ha : w.act? action = some w') :
    ∃ phase, w'.invocations[k]? = some { v with phase } ∧ w.MovesOn v.phase phase := by
  cases ho : action.isOf k with
  | false =>
    exact ⟨v.phase, ((frame_act? ha).invocations hv).resolve_left (by simp [ho]), .refl w _⟩
  | true =>
    by_cases hne : action = .stepInvocation k
    · subst hne
      unfold act? stepInvocation? at ha
      simp only [hv] at ha
      have hmoved {u : Client Handler} {phase : InvocationPhase}
          (hu : u.invocations = w.invocations) (hm : w.MovesOn v.phase phase) :
          ∃ phase', (u.setInvocation k phase).invocations[k]? = some { v with phase := phase' }
            ∧ w.MovesOn v.phase phase' :=
        ⟨phase, getElem?_setInvocation (hu ▸ hv) phase, hm⟩
      cases hp : v.phase with
      | ended outcome =>
        rw [hp] at ha
        cases ha
      | asked =>
        rw [hp] at ha hmoved
        unfold claimFor? at ha
        obtain ⟨s, -, rfl⟩ := Option.map_eq_some_iff.1 ha
        split <;> exact hmoved rfl (.of_going (by rintro _ ⟨⟩) (by rintro _ ⟨⟩))
      | claimed =>
        rw [hp] at ha hmoved
        unfold buildFor? at ha
        obtain ⟨s, -, rfl⟩ := Option.map_eq_some_iff.1 ha
        split <;> exact hmoved rfl (.of_going (by rintro _ ⟨⟩) (by rintro _ ⟨⟩))
      | launching c =>
        rw [hp] at ha
        cases ha
        exact hp ▸ movesOn_launchFor hv hp
      | unwinding c e =>
        rw [hp] at ha hmoved
        cases ha
        refine hmoved ?_ (.of_going (by rintro _ ⟨⟩) (by rintro _ ⟨⟩))
        rw [(goesOn_abandonCall w c).outside]
      | driving c drive =>
        rw [hp] at ha hmoved
        split at ha
        all_goals rename_i hphase
        all_goals cases hphase
        · cases ha
          refine hmoved rfl ⟨by rintro _ ⟨⟩, ?_⟩
          rintro - _ ⟨⟩
          exact .inr ⟨_, rfl⟩
        · cases ha
          exact hmoved rfl (.of_going (by rintro _ ⟨⟩) (by rintro _ ⟨⟩))
        · obtain ⟨⟨w₁, drive'⟩, hd, rfl⟩ := Option.map_eq_some_iff.1 ha
          refine hmoved ?_ (.of_going (by rintro _ ⟨⟩) (by rintro _ ⟨⟩))
          rw [(goesOn_stepDrive? hd).outside]
    · obtain ⟨c, drive, drive', hp, rfl, -⟩ := exists_answered hv ho hne ha
      refine ⟨_, getElem?_setInvocation hv _, .of_going ?_ (by rintro _ ⟨⟩)⟩
      rw [hp]
      rintro outcome ⟨⟩

/-! ## The subscriptions of listeners -/

/-- The operation is a subscription as the listener asks for it. -/
structure IsSubscriptionOf (v : Invocation Handler) (x : Listener) : Prop where
  session : v.session = x.session
  operation : v.operation = .subscribeMulti (.arr x.channels)
  timeout : v.timeout = x.timeout

theorem IsSubscriptionOf.becomes {v : Invocation Handler} (hv : IsSubscriptionOf v x)
    (h : w.Becomes l x action x') (phase : InvocationPhase) :
    IsSubscriptionOf { v with phase } x' := by
  obtain ⟨-, hsession, hchannels, htimeout⟩ := h.same
  refine ⟨hv.session.trans hsession.symm, ?_, hv.timeout.trans htimeout.symm⟩
  rw [hchannels]
  exact hv.operation

/-- **How a listener fares**: it is in its loop; or it has left it, as it was told to or as its
receiver exists no more; or an error that came out of a subscription of its own ended it, or one of
its receiver that is no exception. -/
inductive Fares (w : Client Handler) (x : Listener) : Prop where
  | goesOn (hp : x.phase.isGoing = true)
  | dismissed (h : x.stopping = true ∨ x.receiver ∈ w.collected)
  | failed {i : Nat} {v : Invocation Handler} {e : Error} (hv : w.invocations[i]? = some v)
      (ho : IsSubscriptionOf v x) (he : v.phase = .ended (.error e)) (hp : x.phase = .crashed e)
  | broken {e : Error} (he : e.isException = false) (hp : x.phase = .crashed e)

/-- What is known of every listener: what it waits for is a subscription of its own, to which a
blocking frontend gives back a result; and it goes on unless there is a reason. -/
structure Attends (w : Client Handler) (x : Listener) : Prop where
  asked : ∀ {i : Nat}, x.phase = .subscribing i →
    ∃ v, w.invocations[i]? = some v ∧ IsSubscriptionOf v x
      ∧ (w.frontend.kind = .blocking → ∀ returned, v.phase = .ended (.ok returned) →
        ∃ result, returned = .result result)
  fares : w.Fares x ∨ ∃ e, x.phase = .stillborn e

/-- A listener on its way out was dismissed. -/
theorem Attends.isDismissed (h : w.Attends x) (hp : x.phase = .leaving ∨ x.phase = .striking) :
    x.stopping = true ∨ x.receiver ∈ w.collected := by
  rcases h.fares with hfares | ⟨e, he⟩
  case inr => rcases hp with hp | hp <;> cases hp.symm.trans he
  cases hfares with
  | goesOn hgoing => rcases hp with hp | hp <;> simp [hp, ListenerPhase.isGoing] at hgoing
  | dismissed h => exact h
  | failed _ _ _ hcrashed => rcases hp with hp | hp <;> simp [hp] at hcrashed
  | broken _ hcrashed => rcases hp with hp | hp <;> simp [hp] at hcrashed

/-- A listener that takes up a result stays in its loop, unless it is dismissed. -/
theorem fares_afterResult (w : Client Handler) (x : Listener) (result : Result) :
    w.Fares { x with phase := w.afterResult x result } := by
  unfold afterResult
  split
  · next hs => exact .dismissed (.inl hs)
  · split
    · exact .goesOn rfl
    · split
      · next hc => exact .dismissed (.inr (List.contains_iff_mem.mp hc))
      · exact .goesOn rfl

/-- What a listener does leaves it in its loop, unless there is a reason. -/
theorem Attends.turns {phase : ListenerPhase} (h : w.Attends x) (ht : w.Turns l x action phase) :
    w.Fares { x with phase } := by
  cases ht with
  | asks | returns | hands | wakes | resumes => exact .goesOn rfl
  | stops hp hs => exact .dismissed (.inl hs)
  | fails hp hi =>
    obtain ⟨v, hv, ho, -⟩ := h.asked hp
    obtain ⟨v', hv', he⟩ := Option.map_eq_some_iff.1 hi
    obtain rfl := Option.some.inj (hv.symm.trans hv')
    exact .failed hv ⟨ho.session, ho.operation, ho.timeout⟩ he rfl
  | takes hp hi => exact fares_afterResult w x _
  | breaks hp he => exact .broken he rfl
  | finds hp | ends hp => exact .dismissed (h.isDismissed (.inl hp))
  | strikes hp | misses hp => exact .dismissed (h.isDismissed (.inr hp))

/-- How a listener fares does not change by what others do. -/
theorem Fares.act? (h : w.Fares x) (ha : w.act? action = some w') : w'.Fares x := by
  cases h with
  | goesOn hp => exact .goesOn hp
  | dismissed h => exact .dismissed (h.imp_right (hears_act? ha).collected)
  | failed hv ho he hp =>
    obtain ⟨phase, hv', hmoves⟩ := invocation_act? hv ha
    exact .failed hv' ⟨ho.session, ho.operation, ho.timeout⟩ (hmoves.ended _ he) hp
  | broken he hp => exact .broken he hp

theorem Attends.act? (h : w.Attends x) (hw : Reachable w) (hx : w.listeners[l]? = some x)
    (hx' : w'.listeners[l]? = some x') (ha : w.act? action = some w') : w'.Attends x' := by
  obtain ⟨y, hy, hbecomes⟩ := (hears_act? ha).becomes hx
  obtain rfl := Option.some.inj (hy.symm.trans hx')
  refine ⟨?_, ?_⟩
  · intro i hi
    -- A subscription that was in progress goes on; a new one was asked for just now.
    have hold : x.phase = .subscribing i → ∃ v, w'.invocations[i]? = some v
        ∧ IsSubscriptionOf v y ∧ (w'.frontend.kind = .blocking → ∀ returned,
          v.phase = .ended (.ok returned) → ∃ result, returned = .result result) := by
      intro hp
      obtain ⟨v, hv, ho, hresult⟩ := h.asked hp
      obtain ⟨phase, hv', hmoves⟩ := invocation_act? hv ha
      refine ⟨_, hv', ho.becomes hbecomes phase, fun hk returned hreturned => ?_⟩
      have hk : w.frontend.kind = .blocking := (hw.move_act? ha).kind_eq.symm.trans hk
      rcases hmoves.returned hk returned hreturned with hsame | hnew
      · exact hresult hk returned (hsame.trans hreturned)
      · exact hnew
    cases hbecomes with
    | stays => exact hold hi
    | told => exact hold hi
    | @turns phase ht =>
      obtain rfl : phase = .subscribing i := hi
      generalize hphase : ListenerPhase.subscribing i = phase at ht
      cases ht with
      | asks hp hs =>
        obtain rfl := ListenerPhase.subscribing.inj hphase
        obtain rfl := Option.some.inj ((stepListener?_of_looping hx hp hs).symm.trans ha)
        exact ⟨_, List.getElem?_concat_length, ⟨rfl, rfl, rfl⟩, by rintro - returned ⟨⟩⟩
      | @takes _ result hp hi =>
        rcases w.afterResult_eq x result with heq | heq | heq <;> cases hphase.trans heq
      | _ => cases hphase
  · cases hbecomes with
    | stays => exact h.fares.imp_left fun hfares => hfares.act? ha
    | told => exact .inl (.dismissed (.inl rfl))
    | turns ht => exact .inl ((h.turns ht).act? ha)

/-- **Every listener attends to its subscriptions.** -/
theorem Reachable.attends (hw : Reachable w) (hx : w.listeners[l]? = some x) : w.Attends x := by
  induction hw generalizing l x with
  | initial config fresh frontend => cases hx
  | @act w w' action hw _ ha ih =>
    have hears := hears_act? ha
    cases hold : w.listeners[l]? with
    | some y => exact (ih hold).act? (ReachableBy.reachable hw) hold hx ha
    | none =>
      obtain ⟨_, _, _, _, fault, _, -, -, -, rfl, -⟩ := hears.started_of_new hold hx
      cases fault with
      | none => exact ⟨by rintro i ⟨⟩, .inl (.goesOn rfl)⟩
      | some e => exact ⟨by rintro i ⟨⟩, .inr ⟨e, rfl⟩⟩

end Client

end Pubsub
