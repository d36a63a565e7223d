import Pubsub.Proofs.Attending

/-!
# The registry of listeners

The registry names the listener of each receiver that has one. It never names a listener that has
come to the end of its thread, nor one that was replaced: whoever is in the registry is the last
listener that was started for its receiver. A listener that leaves its loop strikes itself off, but
it looks first and strikes then; if a new listener of the same receiver is started in between, the
new one is struck off in its place, and goes on unregistered. And a listener that dies of an error
does not strike itself off at all.

These are the only ways in which the registry can be wrong. In the states that runs lead to in which
nobody starts a listener while an older one of the same receiver is about to strike
(`Client.Unraced`), a receiver is registered exactly as long as the last listener that was started
for it has not come to its end; and a listener that crashed did so by an error that came out of its
own subscription, or by one of its receiver that is no exception.
-/

namespace Pubsub

variable {Handler : Type}

/-- Is the listener about to be struck off the registry? -/
def ListenerPhase.isStriking : ListenerPhase → Bool
  | striking => true
  | _ => false

namespace Client

variable {w w' : Client Handler} {action : Action Handler} {l k : Nat} {x x' y : Listener}
  {receiver r : String}

/-! ## Looking up -/

theorem listenerOf?_congr (h : w'.registry = w.registry) (r : String) :
    w'.listenerOf? r = w.listenerOf? r := by
  unfold listenerOf?
  rw [h]

theorem find?_filter_ne (registry : List (String × Nat)) (receiver r : String) :
    (registry.filter (·.1 != receiver)).find? (·.1 == r)
      = if r = receiver then none else registry.find? (·.1 == r) := by
  rw [List.find?_filter]
  split
  · next heq =>
    rw [List.find?_eq_none]
    simp [heq]
  · next hne =>
    congr 1
    funext entry
    by_cases hentry : entry.1 = r <;> simp [hentry, hne]

/-- What is struck off is the entry of one receiver. -/
theorem listenerOf?_strike (w : Client Handler) (receiver r : String) :
    (w.strike receiver).listenerOf? r = if r = receiver then none else w.listenerOf? r := by
  show ((w.registry.filter (·.1 != receiver)).find? (·.1 == r)).map (·.2) = _
  rw [find?_filter_ne]
  split <;> rfl

/-- What is entered is the entry of one receiver. -/
theorem listenerOf?_enroll (h : w'.registry = enroll w.registry receiver l) (r : String) :
    w'.listenerOf? r = if r = receiver then some l else w.listenerOf? r := by
  unfold listenerOf? enroll at *
  rw [h, List.find?_cons, find?_filter_ne]
  by_cases hr : r = receiver
  · simp [hr]
  · simp [hr, beq_eq_false_iff_ne.2 (Ne.symm hr)]

theorem registry_stopListener (w : Client Handler) (receiver : String) :
    (w.stopListener receiver).registry = w.registry := by
  unfold stopListener
  split <;> rfl

/-- An entry that is there after an action was there before, or belongs to a listener that was just
started. -/
theorem Hears.listenerOf? (h : w.Hears action w') (hr : w'.listenerOf? r = some l) :
    w.listenerOf? r = some l
      ∨ l = w.listeners.length ∧ ∃ x, w'.listeners[l]? = some x ∧ x.receiver = r
        ∧ x.phase ≠ .ended := by
  cases h with
  | quiet h => exact .inl (listenerOf?_congr h.registry r ▸ hr)
  | stopped _ h =>
    exact .inl (listenerOf?_congr (h.registry.trans (registry_stopListener w _)) r ▸ hr)
  | @started session channels receiver timeout fault list w' hc hl hentry =>
    rw [listenerOf?_enroll hentry] at hr
    split at hr
    · next heq =>
      cases hr
      refine .inr ⟨rfl, ⟨receiver, session, list, timeout, false, birth fault⟩, ?_, heq.symm, ?_⟩
      · rw [hl, ← length_stopListener w receiver]
        exact List.getElem?_concat_length
      · cases fault <;> rintro ⟨⟩
    · exact .inl hr
  | turned _ _ _ h => exact .inl (listenerOf?_congr h.registry r ▸ hr)
  | @struck l x k w' hx hp hk h =>
    have heq : w'.listenerOf? r = (w.strike x.receiver).listenerOf? r :=
      listenerOf?_congr h.registry r
    rw [heq, listenerOf?_strike] at hr
    split at hr
    · cases hr
    · exact .inl hr
  | collects other => exact .inl hr

/-! ## The last listener of a receiver -/

/-- The listener is the last one that was started for the receiver. -/
structure IsLatest (w : Client Handler) (r : String) (l : Nat) (x : Listener) : Prop where
  here : w.listeners[l]? = some x
  receiver : x.receiver = r
  last : ∀ {k : Nat} {y : Listener}, l < k → w.listeners[k]? = some y → y.receiver ≠ r

/-- The last listener of all is the last one of its receiver. -/
theorem isLatest_of_length_le (hx : w.listeners[l]? = some x)
    (hlast : w.listeners.length ≤ l + 1) : w.IsLatest x.receiver l x := by
  refine ⟨hx, rfl, ?_⟩
  intro k y hk hy
  have hlt := (List.getElem?_eq_some_iff.1 hy).1
  omega

/-- A listener that is the last one after an action was so before, or was just started. -/
theorem IsLatest.before (h : w'.IsLatest r l x') (hears : w.Hears action w') :
    (∃ x, w.IsLatest r l x ∧ w.Becomes l x action x') ∨ l = w.listeners.length := by
  cases hold : w.listeners[l]? with
  | none =>
    obtain ⟨_, _, _, _, _, _, -, -, hl, -, -⟩ := hears.started_of_new hold h.here
    exact .inr hl
  | some x =>
    obtain ⟨y, hy, hbecomes⟩ := hears.becomes hold
    obtain rfl := Option.some.inj (hy.symm.trans h.here)
    refine .inl ⟨x, ⟨hold, hbecomes.same.1 ▸ h.receiver, ?_⟩, hbecomes⟩
    intro k z hk hz
    obtain ⟨z', hz', hbecomes'⟩ := hears.becomes hz
    exact hbecomes'.same.1 ▸ h.last hk hz'

/-- The last listener of a receiver stays so, unless another one is started. -/
theorem IsLatest.after (h : w.IsLatest r l x) (hears : w.Hears action w')
    (hr : w'.listenerOf? r = some l) : ∃ x', w'.IsLatest r l x' ∧ w.Becomes l x action x' := by
  obtain ⟨x', hx', hbecomes⟩ := hears.becomes h.here
  refine ⟨x', ⟨hx', hbecomes.same.1.trans h.receiver, ?_⟩, hbecomes⟩
  intro k y' hk hy'
  cases hold : w.listeners[k]? with
  | some y =>
    obtain ⟨z, hz, hbecomes'⟩ := hears.becomes hold
    obtain rfl := Option.some.inj (hz.symm.trans hy')
    exact hbecomes'.same.1 ▸ h.last hk hold
  | none =>
    -- A listener started for the receiver would have taken the entry.
    obtain ⟨_, _, receiver, _, _, _, -, -, -, rfl, hentry⟩ := hears.started_of_new hold hy'
    rintro rfl
    rw [listenerOf?_enroll hentry, if_pos rfl] at hr
    have hlt := (List.getElem?_eq_some_iff.1 h.here).1
    have hlast := Option.some.inj hr
    omega

/-! ## Whoever is registered is the last one -/

/-- A listener that has come to the end of its thread stays there. -/
theorem Becomes.ended (h : w.Becomes l x action x') (hp : x.phase = .ended) :
    x'.phase = .ended := by
  cases h with
  | stays => exact hp
  | told => exact hp
  | turns ht => cases ht <;> simp_all

theorem stepListener?_of_striking (hx : w.listeners[l]? = some x) (hp : x.phase = .striking)
    (hr : w.listenerOf? x.receiver = some k) :
    w.stepListener? l = some ((w.strike x.receiver).setListener l .ended) := by
  unfold stepListener?
  simp only [hx, hp, hr]

/-- A listener that is registered before an action and after it has not come to its end by it. -/
theorem Becomes.phase_ne_ended (h : w.Becomes l x action x') (ha : w.act? action = some w')
    (hx : w.listeners[l]? = some x) (hp : x.phase ≠ .ended)
    (hr : w.listenerOf? x.receiver = some l) (hr' : w'.listenerOf? x.receiver = some l) :
    x'.phase ≠ .ended := by
  cases h with
  | stays => exact hp
  | told => exact hp
  | turns ht =>
    cases ht with
    | @takes _ result =>
      show w.afterResult x result ≠ .ended
      rcases w.afterResult_eq x result with heq | heq | heq <;> rw [heq] <;> rintro ⟨⟩
    | ends _ hother => exact absurd hr hother
    | strikes hstriking hk =>
      obtain rfl := Option.some.inj ((stepListener?_of_striking hx hstriking hk).symm.trans ha)
      have hgone : (w.strike x.receiver).listenerOf? x.receiver = some l := hr'
      rw [listenerOf?_strike, if_pos rfl] at hgone
      cases hgone
    | _ => rintro ⟨⟩

/-- **Whoever is registered is the last listener of its receiver, and has not come to its end.** -/
theorem Reachable.exists_latest (hw : Reachable w) (hr : w.listenerOf? r = some l) :
    ∃ x, w.IsLatest r l x ∧ x.phase ≠ .ended := by
  induction hw generalizing r l with
  | initial config fresh frontend => cases hr
  | @act w w' action hw _ ha ih =>
    have hears := hears_act? ha
    rcases hears.listenerOf? hr with hold | ⟨hnew, x, hx, hreceiver, hp⟩
    · obtain ⟨x, hlatest, hp⟩ := ih hold
      obtain ⟨x', hlatest', hbecomes⟩ := hlatest.after hears hr
      obtain rfl := hlatest.receiver
      exact ⟨x', hlatest', hbecomes.phase_ne_ended ha hlatest.here hp hold hr⟩
    · refine ⟨x, ⟨hx, hreceiver, ?_⟩, hp⟩
      intro k y hk hy
      -- The last listener of all is the last one of its receiver.
      obtain ⟨_, _, _, _, _, _, -, -, hlast, -, -⟩ :=
        hears.started_of_new (List.getElem?_eq_none (by omega)) hy
      omega

/-! ## Races -/

/-- By the action, is a listener started while an older one of its receiver is about to strike off
whoever is registered for it? -/
def races (w : Client Handler) : Action Handler → Bool
  | .startListener _ _ (some receiver) _ _ =>
    w.listeners.any fun x => x.receiver == receiver && x.phase.isStriking
  | _ => false

/-- The states that runs lead to in which no listener is started while an older one of its receiver
is about to strike. -/
inductive Unraced : Client Handler → Prop where
  | initial (config : Configuration) (fresh : Bytes) (frontend : Frontend Handler) :
      Unraced (initial config fresh frontend)
  | act {w w' : Client Handler} {action : Action Handler} (hw : Unraced w)
      (hn : w.races action = false) (ha : w.act? action = some w') : Unraced w'

theorem Unraced.reachable (h : Unraced w) : Reachable w := by
  induction h with
  | initial config fresh frontend => exact .initial config fresh frontend
  | act hw hn ha ih => exact ih.act _ trivial ha

/-- No action of the run races. -/
def isUnraced (w : Client Handler) : List (Action Handler) → Bool
  | [] => true
  | action :: rest => !w.races action && (w.act? action).all fun w' => w'.isUnraced rest

theorem Unraced.run {actions : List (Action Handler)} (h : Unraced w)
    (hu : w.isUnraced actions = true) (hr : w.run? actions = some w') : Unraced w' := by
  induction actions generalizing w with
  | nil =>
    cases hr
    exact h
  | cons action rest ih =>
    rw [run?_cons] at hr
    obtain ⟨v, hv, hr⟩ := Option.bind_eq_some_iff.1 hr
    unfold isUnraced at hu
    rw [hv, Option.all_some, Bool.and_eq_true, Bool.not_eq_true'] at hu
    exact ih (h.act hu.1 hv) hu.2 hr

/-- The registry is up to date: a listener that is about to strike finds itself there, the last
listener of a receiver is there until it has come to its end, and what is there and crashed did so
by an error that came out of its subscription, or by one that is no exception. -/
structure IsUpToDate (w : Client Handler) : Prop where
  striking : ∀ {l : Nat} {x : Listener}, w.listeners[l]? = some x → x.phase = .striking →
    w.listenerOf? x.receiver = some l
  registered : ∀ {r : String} {l : Nat} {x : Listener}, w.IsLatest r l x → x.phase ≠ .ended →
    w.listenerOf? r = some l
  crashed : ∀ {l : Nat} {x : Listener} {e : Error}, w.listeners[l]? = some x →
    x.phase = .crashed e → (∃ (i : Nat) (v : Invocation Handler), w.invocations[i]? = some v
      ∧ IsSubscriptionOf v x ∧ v.phase = .ended (.error e)) ∨ e.isException = false

/-- An entry stays, unless the listener in it comes to its end or a newer one takes its place. -/
theorem IsUpToDate.listenerOf?_act? (h : w.IsUpToDate) (hw : Reachable w)
    (hr : w.listenerOf? r = some l) (ha : w.act? action = some w') :
    w'.listenerOf? r = some l
      ∨ (∃ x', w'.listeners[l]? = some x' ∧ x'.phase = .ended)
      ∨ (∃ k y, l < k ∧ w'.listeners[k]? = some y ∧ y.receiver = r)
        ∧ ∃ session channels timeout fault,
          action = .startListener session channels (some r) timeout fault := by
  cases hears_act? ha with
  | quiet h => exact .inl ((listenerOf?_congr h.registry r).trans hr)
  | stopped _ h =>
    exact .inl ((listenerOf?_congr (h.registry.trans (registry_stopListener w _)) r).trans hr)
  | @started session channels receiver timeout fault list w' hc hl hentry =>
    by_cases hreceiver : r = receiver
    · subst hreceiver
      obtain ⟨x, hlatest, -⟩ := hw.exists_latest hr
      have hlt := (List.getElem?_eq_some_iff.1 hlatest.here).1
      refine .inr (.inr ⟨⟨w.listeners.length, ⟨r, session, list, timeout, false, birth fault⟩, hlt,
        ?_, rfl⟩, session, channels, timeout, fault, rfl⟩)
      rw [hl, ← length_stopListener w r]
      exact List.getElem?_concat_length
    · rw [listenerOf?_enroll hentry, if_neg hreceiver]
      exact .inl hr
  | turned _ _ _ h => exact .inl ((listenerOf?_congr h.registry r).trans hr)
  | @struck k y j w' hy hstriking hj hafter =>
    have heq : w'.listenerOf? r = (w.strike y.receiver).listenerOf? r :=
      listenerOf?_congr hafter.registry r
    by_cases hreceiver : r = y.receiver
    · subst hreceiver
      obtain rfl := Option.some.inj (hr.symm.trans (h.striking hy hstriking))
      refine .inr (.inl ⟨{ y with phase := .ended }, ?_, rfl⟩)
      rw [hafter.listeners, getElem?_setListener]
      show (w.listeners[l]?).map _ = _
      rw [hy, Option.map_some, if_pos rfl]
    · rw [heq, listenerOf?_strike, if_neg hreceiver]
      exact .inl hr
  | collects other => exact .inl hr

/-- **Actions that do not race keep the registry up to date.** -/
theorem IsUpToDate.act? (h : w.IsUpToDate) (hw : Reachable w) (hn : w.races action = false)
    (ha : w.act? action = some w') : w'.IsUpToDate := by
  have hears := hears_act? ha
  refine ⟨?_, ?_, ?_⟩
  · intro l x' hx' hp'
    cases hold : w.listeners[l]? with
    | none =>
      obtain ⟨_, _, _, _, fault, _, -, -, -, rfl, -⟩ := hears.started_of_new hold hx'
      cases fault <;> cases hp'
    | some x =>
      obtain ⟨y, hy, hbecomes⟩ := hears.becomes hold
      obtain rfl := Option.some.inj (hy.symm.trans hx')
      obtain ⟨hreceiver, -⟩ := hbecomes.same
      -- It was there when it found itself, and whoever would take its place now would race.
      have hfound : w.listenerOf? x.receiver = some l
          ∧ (x.phase = .striking ∨ action = .stepListener l) := by
        cases hbecomes with
        | stays => exact ⟨h.striking hold hp', .inl hp'⟩
        | told => exact ⟨h.striking hold hp', .inl hp'⟩
        | turns ht =>
          cases ht with
          | finds hp hr => exact ⟨hr, .inr rfl⟩
          | @takes _ result =>
            rcases w.afterResult_eq x result with heq | heq | heq <;> cases hp'.symm.trans heq
          | _ => cases hp'
      rw [hreceiver]
      rcases h.listenerOf?_act? hw hfound.1 ha with hkept | ⟨z, hz, hended⟩ | ⟨-, hstarted⟩
      · exact hkept
      · obtain rfl := Option.some.inj (hz.symm.trans hx')
        cases hp'.symm.trans hended
      · obtain ⟨session, channels, timeout, fault, rfl⟩ := hstarted
        rcases hfound.2 with hstriking | hstep
        · have hraces : w.races
              (.startListener session channels (some x.receiver) timeout fault) = true := by
            refine List.any_eq_true.2 ⟨x, List.mem_of_getElem? hold, ?_⟩
            simp [hstriking, ListenerPhase.isStriking]
          rw [hn] at hraces
          cases hraces
        · cases hstep
  · intro r l x' hlatest' hp'
    rcases hlatest'.before hears with ⟨x, hlatest, hbecomes⟩ | hnew
    · have hr := h.registered hlatest fun hp => hp' (hbecomes.ended hp)
      rcases h.listenerOf?_act? hw hr ha with hkept | ⟨z, hz, hended⟩ | ⟨⟨k, y, hk, hy, hy'⟩, -⟩
      · exact hkept
      · obtain rfl := Option.some.inj (hz.symm.trans hlatest'.here)
        exact absurd hended hp'
      · exact absurd hy' (hlatest'.last hk hy)
    · obtain ⟨_, _, receiver, _, _, _, -, -, -, rfl, hentry⟩ :=
        hears.started_of_new (List.getElem?_eq_none (by omega)) hlatest'.here
      rw [listenerOf?_enroll hentry, if_pos hlatest'.receiver.symm, hnew]
  · intro l x' e hx' hp'
    cases hold : w.listeners[l]? with
    | none =>
      obtain ⟨_, _, _, _, fault, _, -, -, -, rfl, -⟩ := hears.started_of_new hold hx'
      cases fault <;> cases hp'
    | some x =>
      obtain ⟨y, hy, hbecomes⟩ := hears.becomes hold
      obtain rfl := Option.some.inj (hy.symm.trans hx')
      have hcrashed : (∃ (i : Nat) (v : Invocation Handler), w.invocations[i]? = some v
          ∧ IsSubscriptionOf v x ∧ v.phase = .ended (.error e)) ∨ e.isException = false := by
        cases hbecomes with
        | stays => exact h.crashed hold hp'
        | told => exact h.crashed hold hp'
        | turns ht =>
          cases ht with
          | @fails i e' hp hi =>
            obtain rfl := ListenerPhase.crashed.inj hp'
            obtain ⟨v, hv, ho, -⟩ := (hw.attends hold).asked hp
            obtain ⟨v', hv', he⟩ := Option.map_eq_some_iff.1 hi
            obtain rfl := Option.some.inj (hv.symm.trans hv')
            exact .inl ⟨i, v, hv, ho, he⟩
          | breaks hp he =>
            obtain rfl := ListenerPhase.crashed.inj hp'
            exact .inr he
          | misses hp hr => cases hr.symm.trans (h.striking hold hp)
          | @takes _ result =>
            rcases w.afterResult_eq x result with heq | heq | heq <;> cases hp'.symm.trans heq
          | _ => cases hp'
      refine hcrashed.imp_left fun ⟨i, v, hv, ho, he⟩ => ?_
      obtain ⟨phase, hv', hmoves⟩ := invocation_act? hv ha
      exact ⟨i, _, hv', ho.becomes hbecomes phase, hmoves.ended _ he⟩

theorem Unraced.isUpToDate (h : Unraced w) : w.IsUpToDate := by
  induction h with
  | initial config fresh frontend =>
    refine ⟨by rintro l x ⟨⟩, ?_, by rintro l x e ⟨⟩⟩
    rintro r l x ⟨⟨⟩, -, -⟩
  | act hw hn ha ih => exact ih.act? hw.reachable hn ha

/-- **The registry is truthful, except for listeners that crashed.** Whoever is registered is the
last listener that was started for its receiver, and has not come to its end; this is so whatever
the threads do. If no listener is started while an older one of its receiver is about to strike, the
converse is true as well: the last listener of a receiver is registered as long as it has not come
to its end. Then a listener that crashed was ended by an error that came out of a subscription of
its own, or by one that is no exception. One whose thread could not be started is registered all the
same. -/
theorem registry_is_truthful :
    (∀ w : Client Handler, Reachable w → ∀ r l, w.listenerOf? r = some l →
      ∃ x, w.IsLatest r l x ∧ x.phase ≠ .ended)
    ∧ ∀ w : Client Handler, Unraced w → ∀ r l,
      (w.listenerOf? r = some l ↔ ∃ x, w.IsLatest r l x ∧ x.phase ≠ .ended)
      ∧ ∀ x e, w.listeners[l]? = some x → x.phase = .crashed e →
        (∃ (i : Nat) (v : Invocation Handler), w.invocations[i]? = some v ∧ IsSubscriptionOf v x
          ∧ v.phase = .ended (.error e)) ∨ e.isException = false := by
  refine ⟨fun w hw r l hr => hw.exists_latest hr, fun w hw r l => ⟨⟨?_, ?_⟩, ?_⟩⟩
  · intro hr
    exact hw.reachable.exists_latest hr
  · rintro ⟨x, hlatest, hp⟩
    exact hw.isUpToDate.registered hlatest hp
  · intro x e hx hp
    exact hw.isUpToDate.crashed hx hp

/-- The client of an application with a blocking frontend, before it does anything. -/
def blockingClient : Client Unit :=
  initial (Configuration.initial ⟨[]⟩ none) [] (Frontend.borrowing .blocking)

/-- An application that listens, stops, waits until the listener has come to its end, and listens
again. -/
def listeningAgain : List (Action Unit) :=
  [.openSession ⟨.null, .null, .null, .null, true⟩ "u",
    .startListener 0 (.str "a") (some "r") .null none, .stopListener "r", .stepListener 0,
    .stepListener 0, .stepListener 0, .startListener 0 (.str "a") (some "r") .null none]

/-- The second listener is registered. -/
theorem registry_is_truthful_listeningAgain :
    ∃ w : Client Unit, Unraced w ∧ (w.listeners[0]?).any (·.phase matches .ended) = true
      ∧ w.listenerOf? "r" = some 1 := by
  have hfacts : (blockingClient.run? listeningAgain).any (fun w =>
      (w.listeners[0]?).any (·.phase matches .ended) && w.listeners.length == 2
        && (w.listeners[1]?).any fun x => x.receiver == "r" && x.phase matches .looping)
      = true := by
    decide +kernel
  have hunraced : blockingClient.isUnraced listeningAgain = true := by
    decide +kernel
  obtain ⟨w, hrun, hfacts⟩ := (Option.any_eq_true _ _).1 hfacts
  simp only [Bool.and_eq_true, beq_iff_eq] at hfacts
  obtain ⟨⟨hended, hlength⟩, hsecond⟩ := hfacts
  obtain ⟨x, hx, hfacts⟩ := (Option.any_eq_true _ _).1 hsecond
  simp only [Bool.and_eq_true, beq_iff_eq] at hfacts
  have hw : Unraced w := .run (.initial _ [] _) hunraced hrun
  have hlatest : w.IsLatest "r" 1 x := hfacts.1 ▸ isLatest_of_length_le hx (by omega)
  obtain ⟨-, htruthful⟩ := @registry_is_truthful Unit
  have hp : x.phase ≠ .ended := by
    intro hp
    simp [hp] at hfacts
  exact ⟨w, hw, hended, (htruthful w hw "r" 1).1.2 ⟨x, hlatest, hp⟩⟩

/-- A listener is started on a channel whose name is empty. -/
def listeningToNothing : List (Action Unit) :=
  [.openSession ⟨.null, .null, .null, .null, true⟩ "u",
    .startListener 0 (.str "") (some "r") .null none, .stepListener 0, .stepInvocation 0,
    .stepInvocation 0, .stepListener 0]

/-- A listener is stopped and has found itself in the registry when another one is started for its
receiver. -/
def overtakenListener : List (Action Unit) :=
  [.openSession ⟨.null, .null, .null, .null, true⟩ "u",
    .startListener 0 (.str "a") (some "r") .null none, .stopListener "r", .stepListener 0,
    .stepListener 0, .startListener 0 (.str "a") (some "r") .null none, .stepListener 0]

/-- **A listener that crashed stays registered, and one that goes on can be struck off by one that
was started before it.** -/
theorem registry_is_wrong :
    (∃ (w : Client Unit) (x : Listener) (e : Error), Unraced w ∧ w.listenerOf? "r" = some 0
      ∧ w.listeners[0]? = some x ∧ x.phase = .crashed e)
    ∧ ∃ (w : Client Unit) (x : Listener), Reachable w ∧ w.listenerOf? "r" = none
      ∧ w.IsLatest "r" 1 x ∧ x.phase = .looping := by
  constructor
  · have hfacts : (blockingClient.run? listeningToNothing).any (fun w =>
        w.listenerOf? "r" == some 0 && (w.listeners[0]?).any (·.phase matches .crashed _))
        = true := by
      decide +kernel
    have hunraced : blockingClient.isUnraced listeningToNothing = true := by
      decide +kernel
    obtain ⟨w, hrun, hfacts⟩ := (Option.any_eq_true _ _).1 hfacts
    simp only [Bool.and_eq_true, beq_iff_eq] at hfacts
    obtain ⟨hregistered, hcrashed⟩ := hfacts
    obtain ⟨x, hx, hcrashed⟩ := (Option.any_eq_true _ _).1 hcrashed
    obtain ⟨e, he⟩ : ∃ e, x.phase = .crashed e := by
      split at hcrashed
      · next e he => exact ⟨e, he⟩
      · cases hcrashed
    exact ⟨w, x, e, .run (.initial _ [] _) hunraced hrun, hregistered, hx, he⟩
  · have hfacts : (blockingClient.run? overtakenListener).any (fun w =>
        w.listenerOf? "r" == none && w.listeners.length == 2
          && (w.listeners[1]?).any fun x => x.receiver == "r" && x.phase matches .looping)
        = true := by
      decide +kernel
    obtain ⟨w, hrun, hfacts⟩ := (Option.any_eq_true _ _).1 hfacts
    simp only [Bool.and_eq_true, beq_iff_eq] at hfacts
    obtain ⟨⟨hgone, hlength⟩, hsecond⟩ := hfacts
    obtain ⟨x, hx, hfacts⟩ := (Option.any_eq_true _ _).1 hsecond
    simp only [Bool.and_eq_true, beq_iff_eq] at hfacts
    have hlatest : w.IsLatest "r" 1 x := hfacts.1 ▸ isLatest_of_length_le hx (by omega)
    refine ⟨w, x, .run (.initial _ [] _) (fun _ _ => trivial) hrun, hgone, hlatest, ?_⟩
    have hlooping := hfacts.2
    split at hlooping
    · assumption
    · cases hlooping

end Client

end Pubsub
