import Pubsub.Proofs.Failures
import Pubsub.Proofs.LoadedSettings

/-!
# What becomes of listeners

The listeners of a client and their registry are touched by few actions: by starting and stopping
listeners, by the steps that a listener takes and the answers that it gets, and by the end of a
receiver. Everything that an action can do to them is a case of `Client.Hears`, and everything that
can become of one listener by its own doing a case of `Client.Turns`; what is said of listeners
along runs is derived from these two. All other actions leave listeners undisturbed
(`Client.Undisturbed`).
-/

namespace Pubsub

variable {Handler : Type}

/-- Does the action concern the listeners, or what they look at? -/
def Action.isListening : Action Handler → Bool
  | .startListener _ _ _ _ _ => true
  | .stopListener _ => true
  | .stepListener _ => true
  | .wakeListener _ => true
  | .returnListener _ _ => true
  | .collect _ => true
  | _ => false

/-- Is it an action of the listener: a step that it takes, or an answer that it gets? -/
def Action.isOfListener (l : Nat) : Action Handler → Bool
  | .stepListener k => k == l
  | .wakeListener k => k == l
  | .returnListener k _ => k == l
  | _ => false

/-- Is the listener of the receiver told to stop by the action? -/
def Action.Stops (action : Action Handler) (receiver : String) : Prop :=
  action = .stopListener receiver
    ∨ ∃ session channels timeout fault,
      action = .startListener session channels (some receiver) timeout fault

namespace Client

variable {w w' u v : Client Handler} {action : Action Handler} {l : Nat} {x x' : Listener}

/-! ## Actions that concern no listener -/

/-- What happened concerned no listener. -/
structure Unheard (w w' : Client Handler) : Prop where
  listeners : w'.listeners = w.listeners
  registry : w'.registry = w.registry
  collected : w'.collected = w.collected

namespace Unheard

theorem refl (w : Client Handler) : w.Unheard w := ⟨rfl, rfl, rfl⟩

theorem trans (h : u.Unheard v) (h' : v.Unheard w) : u.Unheard w :=
  ⟨h'.listeners.trans h.listeners, h'.registry.trans h.registry, h'.collected.trans h.collected⟩

end Unheard

/-- What happened concerned no listener and asked for no operation; and if the settings were loaded
before, they are what they were. -/
structure Undisturbed (w w' : Client Handler) : Prop extends Unheard w w' where
  settings : w.config.loaded.isSome = true → w'.config = w.config
  invocations : w'.invocations.length = w.invocations.length

namespace Undisturbed

/-- What touches none of these disturbs no listener. -/
theorem of_eq (hl : w'.listeners = w.listeners) (hr : w'.registry = w.registry)
    (hg : w'.collected = w.collected) (hc : w'.config = w.config)
    (hi : w'.invocations.length = w.invocations.length) : w.Undisturbed w' :=
  ⟨⟨hl, hr, hg⟩, fun _ => hc, hi⟩

theorem refl (w : Client Handler) : w.Undisturbed w := .of_eq rfl rfl rfl rfl rfl

theorem trans (h : u.Undisturbed v) (h' : v.Undisturbed w) : u.Undisturbed w := by
  refine ⟨h.toUnheard.trans h'.toUnheard, ?_, h'.invocations.trans h.invocations⟩
  intro hloaded
  have hkept := h.settings hloaded
  exact (h'.settings (hkept ▸ hloaded)).trans hkept

end Undisturbed

theorem AgreesOutside.undisturbed (h : w.AgreesOutside w') : w.Undisturbed w' := by
  unfold AgreesOutside at h
  rw [h]
  exact .of_eq rfl rfl rfl rfl rfl

theorem undisturbed_setInvocation (w : Client Handler) (i : Nat) (phase : InvocationPhase) :
    w.Undisturbed (w.setInvocation i phase) :=
  .of_eq rfl rfl rfl rfl (List.length_modify ..)

theorem undisturbed_giveUpCall (w : Client Handler) (c : Nat) (e : Error) :
    w.Undisturbed (w.giveUpCall c e) := by
  rw [giveUpCall_eq]
  exact (goesOn_giveUp w c e).outside.undisturbed.trans (.of_eq rfl rfl rfl rfl rfl)

theorem undisturbed_closeFrontend (w : Client Handler) : w.Undisturbed w.closeFrontend := by
  unfold closeFrontend
  dsimp only
  split <;> exact .of_eq rfl rfl rfl rfl rfl

/-- An operation that builds its request reads settings only if none were loaded. -/
theorem undisturbed_buildFor? {i : Nat} {v : Invocation Handler}
    (h : w.buildFor? i v = some w') : w.Undisturbed w' := by
  unfold buildFor? at h
  obtain ⟨s, -, h⟩ := Option.map_eq_some_iff.1 h
  have hkept (hloaded : w.config.loaded.isSome = true) :=
    Request.snd_build s.profile s.cursor w.fresh hloaded v.operation v.timeout
  split at h
  · rename_i hbuilt
    rw [hbuilt] at hkept
    subst h
    exact ⟨⟨rfl, rfl, rfl⟩, hkept, List.length_modify ..⟩
  · rename_i hbuilt
    rw [hbuilt] at hkept
    subst h
    exact ⟨⟨rfl, rfl, rfl⟩, hkept, List.length_modify ..⟩

theorem undisturbed_stepInvocation? {i : Nat} (h : w.stepInvocation? i = some w') :
    w.Undisturbed w' := by
  have hmoved {u : Client Handler} (hu : w.Undisturbed u) (phase : InvocationPhase) :
      w.Undisturbed (u.setInvocation i phase) := hu.trans (undisturbed_setInvocation u i phase)
  unfold stepInvocation? at h
  split at h
  · cases h
  · split at h
    · unfold claimFor? at h
      obtain ⟨s, -, rfl⟩ := Option.map_eq_some_iff.1 h
      split
      · exact undisturbed_setInvocation w i _
      · exact .of_eq rfl rfl rfl rfl (List.length_modify ..)
    · exact undisturbed_buildFor? h
    · cases h
      unfold launchFor
      split
      · exact undisturbed_setInvocation w i _
      · split
        · exact .of_eq rfl rfl rfl rfl (List.length_modify ..)
        · exact undisturbed_setInvocation w i _
      · split
        · exact undisturbed_setInvocation w i _
        · exact .of_eq rfl rfl rfl rfl (List.length_modify ..)
    · cases h
      exact undisturbed_setInvocation w i _
    · cases h
      exact undisturbed_setInvocation w i _
    · obtain ⟨⟨w₁, drive'⟩, hd, rfl⟩ := Option.map_eq_some_iff.1 h
      exact hmoved (goesOn_stepDrive? hd).outside.undisturbed _
    · cases h
      exact hmoved (goesOn_abandonCall w _).outside.undisturbed _
    · cases h

theorem undisturbed_stepTask? {t : Nat} (h : w.stepTask? t = some w') : w.Undisturbed w' := by
  unfold stepTask? at h
  split at h
  · cases h
  · split at h
    · cases h
      exact .of_eq rfl rfl rfl rfl rfl
    · obtain ⟨⟨w₁, drive'⟩, hd, rfl⟩ := Option.map_eq_some_iff.1 h
      exact (goesOn_stepDrive? hd).outside.undisturbed.trans (.of_eq rfl rfl rfl rfl rfl)

theorem undisturbed_advanceCall (w : Client Handler) (c : Nat) (fed : Option Outcome) :
    w.Undisturbed (w.advanceCall c fed) := by
  unfold advanceCall
  cases hresume : w.resumeCall? c fed with
  | none => exact .of_eq rfl rfl rfl rfl rfl
  | some resumed =>
    obtain ⟨w₁, effect⟩ := resumed
    have hresumed := (goesOn_resumeCall? hresume).outside.undisturbed
    cases effect with
    | send => exact hresumed.trans (.of_eq rfl rfl rfl rfl rfl)
    | sleep seconds => exact hresumed.trans (.of_eq rfl rfl rfl rfl rfl)
    | raise e => exact hresumed.trans (undisturbed_giveUpCall w₁ c e)
    | finish result =>
      dsimp only
      split
      · exact hresumed.trans (.of_eq rfl rfl rfl rfl rfl)
      all_goals
        rename_i hcomplete
        have hcompleted := (goesOn_completeCall hcomplete).outside.undisturbed
        exact (hresumed.trans hcompleted).trans (.of_eq rfl rfl rfl rfl rfl)

theorem undisturbed_stepReactor? (h : w.stepReactor? = some w') : w.Undisturbed w' := by
  unfold stepReactor? at h
  split at h
  · cases h
    exact undisturbed_advanceCall w _ _
  · cases h
    unfold pauseCall
    split
    · exact undisturbed_giveUpCall w _ _
    · exact .of_eq rfl rfl rfl rfl rfl
  · cases h
    unfold armCall
    split
    · exact .of_eq rfl rfl rfl rfl rfl
    · dsimp only
      split
      · exact undisturbed_giveUpCall w _ _
      · exact .of_eq rfl rfl rfl rfl rfl
  · cases h
    unfold submitAttempt
    split
    · exact .of_eq rfl rfl rfl rfl rfl
    · split
      · exact undisturbed_giveUpCall w _ _
      · exact .of_eq rfl rfl rfl rfl rfl
  · cases h
  · split at h
    · rename_i reactor job _
      cases h
      obtain ⟨attempts, reactor', work, heq, -⟩ := exists_beginJob_eq { w with reactor } job
      rw [heq]
      exact .of_eq rfl rfl rfl rfl rfl
    · cases h
      exact .of_eq rfl rfl rfl rfl rfl
    · cases h

theorem undisturbed_stepClosing? {k : Nat} (h : w.stepClosing? k = some w') : w.Undisturbed w' := by
  unfold stepClosing? at h
  obtain ⟨closing, -, h⟩ := Option.bind_eq_some_iff.1 h
  obtain ⟨s, -, h⟩ := Option.bind_eq_some_iff.1 h
  split at h
  · split at h
    · cases h
      exact .of_eq rfl rfl rfl rfl rfl
    · split at h <;> cases h <;> exact .of_eq rfl rfl rfl rfl rfl
  · split at h <;> cases h
    exact .of_eq rfl rfl rfl rfl rfl
  · cases h
    exact .of_eq rfl rfl rfl rfl rfl
  · cases h
    split
    · exact (undisturbed_closeFrontend w).trans (.of_eq rfl rfl rfl rfl rfl)
    · exact .of_eq rfl rfl rfl rfl rfl
  · cases h

theorem undisturbed_openSession {options : SessionOptions} {identity : String}
    (h : w.openSession options identity = .ok w') : w.Undisturbed w' := by
  unfold openSession at h
  have hkept (hloaded : w.config.loaded.isSome = true) :=
    Session.snd_create options identity hloaded
  split at h
  · cases h
  · rename_i hcreated
    rw [hcreated] at hkept
    cases h
    exact ⟨⟨rfl, rfl, rfl⟩, hkept, rfl⟩

/-- **Actions that concern no listener leave the listeners and their registry alone.** Unless they
ask for an operation, there are no more operations after them, and settings that were loaded are
kept. -/
theorem undisturbed_act? (ha : w.act? action = some w') (hl : action.isListening = false)
    (hask : ∀ session operation timeout callback,
      action ≠ .ask session operation timeout callback) : w.Undisturbed w' := by
  cases action with
  | startListener | stopListener | stepListener | wakeListener | returnListener | collect =>
    cases hl
  | ask session operation timeout callback =>
    exact absurd rfl (hask session operation timeout callback)
  | stepInvocation i => exact undisturbed_stepInvocation? ha
  | stepTask t => exact undisturbed_stepTask? ha
  | stepReactor => exact undisturbed_stepReactor? ha
  | stepClosing k => exact undisturbed_stepClosing? ha
  | beginClose | stopReactor | finishFrontend | draw =>
    cases ha
    exact .of_eq rfl rfl rfl rfl rfl
  | closeFrontend =>
    cases ha
    exact undisturbed_closeFrontend w
  | openSession options identity =>
    unfold act? at ha
    dsimp only at ha
    cases hopen : w.openSession options identity with
    | error e =>
      rw [hopen] at ha
      cases ha
    | ok v =>
      rw [hopen] at ha
      cases ha
      exact undisturbed_openSession hopen
  | changeSetting session change =>
    cases ha
    show w.Undisturbed (w.changeSetting session change).2
    rcases w.changeSetting_cases session change with hkept | ⟨s, t, -, -, heq⟩
    · rw [hkept]
      exact .refl w
    · rw [heq]
      exact .of_eq rfl rfl rfl rfl rfl
  | clearCursor session channels =>
    cases ha
    show w.Undisturbed (w.clearCursor session channels)
    unfold clearCursor
    split
    · exact .of_eq rfl rfl rfl rfl rfl
    · exact .refl w
  | cancelTask t =>
    unfold act? cancelTask? at ha
    dsimp only at ha
    split at ha <;> cases ha <;> exact .of_eq rfl rfl rfl rfl rfl
  | answerInvocation i answer =>
    unfold act? answerInvocation? at ha
    dsimp only at ha
    split at ha
    · obtain ⟨_, -, rfl⟩ := Option.map_eq_some_iff.1 ha
      exact undisturbed_setInvocation w i _
    · cases ha
  | wakeInvocation i =>
    unfold act? wakeInvocation? at ha
    dsimp only at ha
    split at ha
    · obtain ⟨_, -, rfl⟩ := Option.map_eq_some_iff.1 ha
      exact undisturbed_setInvocation w i _
    · cases ha
  | returnInvocation i raised =>
    unfold act? returnInvocation? at ha
    dsimp only at ha
    split at ha <;> cases ha <;> exact undisturbed_setInvocation w i _
  | answerTask t answer =>
    unfold act? answerTask? at ha
    dsimp only at ha
    split at ha
    · obtain ⟨_, -, rfl⟩ := Option.map_eq_some_iff.1 ha
      exact .of_eq rfl rfl rfl rfl rfl
    · cases ha
  | wakeTask t =>
    unfold act? wakeTask? at ha
    dsimp only at ha
    split at ha
    · obtain ⟨_, -, rfl⟩ := Option.map_eq_some_iff.1 ha
      exact .of_eq rfl rfl rfl rfl rfl
    · cases ha
  | returnTask t raised =>
    unfold act? returnTask? at ha
    dsimp only at ha
    split at ha <;> cases ha <;> exact .of_eq rfl rfl rfl rfl rfl
  | pollReactor =>
    unfold act? pollReactor? at ha
    dsimp only at ha
    split at ha <;> cases ha
    exact .of_eq rfl rfl rfl rfl rfl
  | postAttempt a answer =>
    unfold act? postAttempt? at ha
    dsimp only at ha
    split at ha
    · split at ha
      · split at ha <;> cases ha
        · exact .of_eq rfl rfl rfl rfl rfl
        · have hposted (attempts : List Attempt) : w.Undisturbed { w with attempts } :=
            .of_eq rfl rfl rfl rfl rfl
          exact (hposted _).trans (goesOn_abandonCall _ _).outside.undisturbed
      · cases ha
    · cases ha
  | returnReactor raised =>
    obtain ⟨-, ⟨-, rfl⟩ | ⟨e, -, ⟨-, rfl⟩ | ⟨-, rfl⟩⟩⟩ := returnReactor?_eq_some ha
    all_goals exact .of_eq rfl rfl rfl rfl rfl
  | giveUpClosing k =>
    obtain ⟨phase, rfl⟩ := exists_setClosing_of_giveUpClosing? ha
    exact .of_eq rfl rfl rfl rfl rfl
  | tick now =>
    unfold act? tick? at ha
    dsimp only at ha
    split at ha <;> cases ha
    exact .of_eq rfl rfl rfl rfl rfl

theorem unheard_act? (ha : w.act? action = some w') (hl : action.isListening = false) :
    w.Unheard w' := by
  by_cases hask : ∃ session operation timeout callback,
      action = .ask session operation timeout callback
  · obtain ⟨session, operation, timeout, callback, rfl⟩ := hask
    cases ha
    exact ⟨rfl, rfl, rfl⟩
  · refine (undisturbed_act? ha hl ?_).toUnheard
    rintro session operation timeout callback rfl
    exact hask ⟨session, operation, timeout, callback, rfl⟩

/-! ## What a listener does -/

/-- A step of a listener from its phase to another one, or the answer that takes it there. -/
inductive Turns (w : Client Handler) (l : Nat) (x : Listener) :
    Action Handler → ListenerPhase → Prop where
  /-- It asks for the next subscription. -/
  | asks (hp : x.phase = .looping) (hs : x.stopping = false) :
      Turns w l x (.stepListener l) (.subscribing w.invocations.length)
  /-- It was told to stop. -/
  | stops (hp : x.phase = .looping) (hs : x.stopping = true) :
      Turns w l x (.stepListener l) .leaving
  /-- An error came out of its subscription. -/
  | fails {i : Nat} {e : Error} (hp : x.phase = .subscribing i)
      (hi : w.invocationPhase? i = some (.ended (.error e))) :
      Turns w l x (.stepListener l) (.crashed e)
  /-- Its subscription came to a result. -/
  | takes {i : Nat} {result : Result} (hp : x.phase = .subscribing i)
      (hi : w.invocationPhase? i = some (.ended (.ok (.result result)))) :
      Turns w l x (.stepListener l) (w.afterResult x result)
  /-- It has handed all messages on. -/
  | returns (hp : x.phase = .delivering []) : Turns w l x (.stepListener l) .looping
  | hands {channel : String} {message : Message} {rest : List (String × Message)}
      (hp : x.phase = .delivering ((channel, message) :: rest)) :
      Turns w l x (.stepListener l) (.receiving channel message rest)
  /-- It finds itself in the registry. -/
  | finds (hp : x.phase = .leaving) (hr : w.listenerOf? x.receiver = some l) :
      Turns w l x (.stepListener l) .striking
  /-- It does not find itself in the registry. -/
  | ends (hp : x.phase = .leaving) (hr : w.listenerOf? x.receiver ≠ some l) :
      Turns w l x (.stepListener l) .ended
  | strikes {k : Nat} (hp : x.phase = .striking) (hr : w.listenerOf? x.receiver = some k) :
      Turns w l x (.stepListener l) .ended
  /-- There is nothing to strike off any more. -/
  | misses (hp : x.phase = .striking) (hr : w.listenerOf? x.receiver = none) :
      Turns w l x (.stepListener l) (.crashed (.notRegistered x.receiver))
  | wakes (hp : x.phase = .pausing) : Turns w l x (.wakeListener l) .looping
  /-- Its receiver returned or raised an exception. -/
  | resumes {channel : String} {message : Message} {rest : List (String × Message)}
      {raised : Option Error} (hp : x.phase = .receiving channel message rest)
      (he : Error.IsCaught raised) :
      Turns w l x (.returnListener l raised) (.delivering rest)
  /-- Its receiver raised an error that is no exception. -/
  | breaks {channel : String} {message : Message} {rest : List (String × Message)} {e : Error}
      (hp : x.phase = .receiving channel message rest) (he : e.isException = false) :
      Turns w l x (.returnListener l (some e)) (.crashed e)

/-- After a result a listener leaves its loop, waits a while, or hands the messages on. -/
theorem afterResult_eq (w : Client Handler) (x : Listener) (result : Result) :
    w.afterResult x result = .leaving ∨ w.afterResult x result = .pausing
      ∨ w.afterResult x result = .delivering (deliveries result) := by
  unfold afterResult
  split
  · exact .inl rfl
  · split
    · exact .inr (.inl rfl)
    · split
      · exact .inl rfl
      · exact .inr (.inr rfl)

/-- What a listener does by its action besides going to another phase. -/
def aside (w : Client Handler) (x : Listener) (action : Action Handler) (phase : ListenerPhase) :
    Client Handler :=
  match x.phase, phase, action with
  | .looping, .subscribing _, _ =>
    w.ask x.session (.subscribeMulti (.arr x.channels)) x.timeout none
  | .subscribing _, .pausing, _ => w.record (.paused pauseTime)
  | .delivering _, .receiving channel message _, _ =>
    w.record (.received x.receiver channel message)
  | .receiving _ _ _, .delivering _, .returnListener _ (some e) => w.print e.describe
  | .striking, .ended, _ => w.strike x.receiver
  | _, _, _ => w

/-- **An action of a listener takes it from its phase to another one**, and does nothing else but
what it does aside. -/
theorem turns_act? (ha : w.act? action = some w') (ho : action.isOfListener l = true) :
    ∃ x phase, w.listeners[l]? = some x ∧ w.Turns l x action phase
      ∧ w' = (w.aside x action phase).setListener l phase := by
  have haside {action : Action Handler} {x : Listener} {phase : ListenerPhase}
      {v : Client Handler} (hx : w.listeners[l]? = some x) (ht : w.Turns l x action phase)
      (hv : w.aside x action phase = v) :
      ∃ x' phase', w.listeners[l]? = some x' ∧ w.Turns l x' action phase'
        ∧ v.setListener l phase = (w.aside x' action phase').setListener l phase' :=
    ⟨x, phase, hx, ht, hv ▸ rfl⟩
  cases action with
  | stepListener k =>
    obtain rfl : k = l := eq_of_beq ho
    change w.stepListener? k = some w' at ha
    unfold stepListener? at ha
    split at ha
    · cases ha
    rename_i x hx
    split at ha
    · rename_i hp
      split at ha
      · rename_i hs
        cases ha
        exact haside hx (.stops hp hs) (by simp only [aside, hp])
      · rename_i hs
        cases ha
        exact haside hx (.asks hp (Bool.eq_false_iff.2 hs)) (by simp only [aside, hp])
    · rename_i i hp
      split at ha
      · rename_i e hi
        cases ha
        exact haside hx (.fails hp hi) (by simp only [aside, hp])
      · rename_i result hi
        split at ha
        · rename_i hafter
          cases ha
          exact haside hx (hafter ▸ .takes hp hi) (by simp only [aside, hp])
        · rename_i hafter
          cases ha
          refine haside hx (.takes hp hi) ?_
          rcases w.afterResult_eq x result with heq | heq | heq
          · simp only [aside, hp, heq]
          · exact absurd heq hafter
          · simp only [aside, hp, heq]
      · cases ha
    · rename_i hp
      cases ha
      exact haside hx (.returns hp) (by simp only [aside, hp])
    · rename_i hp
      cases ha
      exact haside hx (.hands hp) (by simp only [aside, hp])
    · rename_i hp
      split at ha
      · rename_i hr
        cases ha
        exact haside hx (.finds hp hr) (by simp only [aside, hp])
      · rename_i hr
        cases ha
        exact haside hx (.ends hp hr) (by simp only [aside, hp])
    · rename_i hp
      split at ha
      · rename_i hr
        cases ha
        exact haside hx (.strikes hp hr) (by simp only [aside, hp])
      · rename_i hr
        cases ha
        exact haside hx (.misses hp hr) (by simp only [aside, hp])
    · cases ha
  | wakeListener k =>
    obtain rfl : k = l := eq_of_beq ho
    unfold act? wakeListener? at ha
    dsimp only at ha
    split at ha <;> cases ha
    rename_i hphase
    obtain ⟨x, hx, hp⟩ := Option.map_eq_some_iff.1 hphase
    exact haside hx (.wakes hp) (by simp only [aside, hp])
  | returnListener k raised =>
    obtain rfl : k = l := eq_of_beq ho
    obtain ⟨channel, message, rest, hphase, hreturned⟩ := returnListener?_eq_some ha
    obtain ⟨x, hx, hp⟩ := Option.map_eq_some_iff.1 hphase
    obtain ⟨rfl, rfl⟩ | ⟨e, rfl, ⟨he, rfl⟩ | ⟨he, rfl⟩⟩ := hreturned
    · exact haside hx (.resumes hp (by rintro e ⟨⟩)) (by simp only [aside, hp])
    · exact haside hx (.resumes hp (by rintro _ ⟨⟩; exact he)) (by simp only [aside, hp])
    · exact haside hx (.breaks hp he) (by simp only [aside, hp])
  | _ => cases ho

theorem aside_listeners (w : Client Handler) (x : Listener) (action : Action Handler)
    (phase : ListenerPhase) : (w.aside x action phase).listeners = w.listeners := by
  unfold aside
  split <;> rfl

theorem aside_collected (w : Client Handler) (x : Listener) (action : Action Handler)
    (phase : ListenerPhase) : (w.aside x action phase).collected = w.collected := by
  unfold aside
  split <;> rfl

theorem aside_sessions (w : Client Handler) (x : Listener) (action : Action Handler)
    (phase : ListenerPhase) : (w.aside x action phase).sessions = w.sessions := by
  unfold aside
  split <;> rfl

theorem aside_config (w : Client Handler) (x : Listener) (action : Action Handler)
    (phase : ListenerPhase) : (w.aside x action phase).config = w.config := by
  unfold aside
  split <;> rfl

theorem aside_frontend (w : Client Handler) (x : Listener) (action : Action Handler)
    (phase : ListenerPhase) : (w.aside x action phase).frontend = w.frontend := by
  unfold aside
  split <;> rfl

/-- A listener asks for operations only at the head of its loop. -/
theorem aside_invocations {phase : ListenerPhase} (hp : x.phase ≠ .looping) :
    (w.aside x action phase).invocations = w.invocations := by
  unfold aside
  split <;> first | rfl | simp_all

/-- A listener touches the registry only when it strikes itself off. -/
theorem aside_registry {phase : ListenerPhase} (hp : x.phase ≠ .striking ∨ phase ≠ .ended) :
    (w.aside x action phase).registry = w.registry := by
  unfold aside
  split <;> first | rfl | simp_all

/-- **What an action does to the listeners and the registry.** -/
inductive Hears (w : Client Handler) : Action Handler → Client Handler → Prop where
  | quiet {action : Action Handler} {w' : Client Handler} (h : w.Unheard w') : Hears w action w'
  | stopped {action : Action Handler} {receiver : String} {w' : Client Handler}
      (ha : action.Stops receiver) (h : (w.stopListener receiver).Unheard w') : Hears w action w'
  | started {session : Nat} {channels : Json} {receiver : String} {timeout : Json}
      {fault : Option Error} {list : List Json} {w' : Client Handler}
      (hc : listenedChannels channels = .ok list)
      (hl : w'.listeners = (w.stopListener receiver).listeners
        ++ [⟨receiver, session, list, timeout, false, birth fault⟩])
      (hr : w'.registry = enroll w.registry receiver w.listeners.length)
      (hg : w'.collected = w.collected) :
      Hears w (.startListener session channels (some receiver) timeout fault) w'
  | turned {action : Action Handler} {l : Nat} {x : Listener} {phase : ListenerPhase}
      {w' : Client Handler} (hx : w.listeners[l]? = some x) (ht : w.Turns l x action phase)
      (hp : x.phase ≠ .striking ∨ phase ≠ .ended) (h : (w.setListener l phase).Unheard w') :
      Hears w action w'
  | struck {l : Nat} {x : Listener} {k : Nat} {w' : Client Handler}
      (hx : w.listeners[l]? = some x) (hp : x.phase = .striking)
      (hr : w.listenerOf? x.receiver = some k)
      (h : ((w.strike x.receiver).setListener l .ended).Unheard w') :
      Hears w (.stepListener l) w'
  | collects (receiver : String) : Hears w (.collect receiver) (w.collect receiver)

/-- What a listener does by itself is heard. -/
theorem hears_of_turns {phase : ListenerPhase} (hx : w.listeners[l]? = some x)
    (ht : w.Turns l x action phase) :
    w.Hears action ((w.aside x action phase).setListener l phase) := by
  have hturned (hp : x.phase ≠ .striking ∨ phase ≠ .ended) :
      w.Hears action ((w.aside x action phase).setListener l phase) := by
    refine .turned hx ht hp ⟨?_, aside_registry hp, aside_collected w x action phase⟩
    unfold setListener
    rw [aside_listeners]
  cases ht with
  | strikes hp hr =>
    refine .struck hx hp hr ?_
    simp only [aside, hp]
    exact .refl _
  | asks hp | stops hp | fails hp | takes hp | returns hp | hands hp | finds hp | ends hp
  | wakes hp | resumes hp | breaks hp => exact hturned (.inl (by rw [hp]; rintro ⟨⟩))
  | misses => exact hturned (.inr (by rintro ⟨⟩))

theorem hears_startListener (w : Client Handler) (session : Nat) (channels : Json)
    (receiver : Option String) (timeout : Json) (fault : Option Error) :
    w.Hears (.startListener session channels receiver timeout fault)
      (w.startListener session channels receiver timeout fault).2 := by
  obtain hkept | ⟨r, rfl, hstop | ⟨list, hc, henlist⟩⟩ :=
    w.startListener_cases session channels receiver timeout fault
  · rw [hkept]
    exact .quiet (.refl w)
  · rw [hstop]
    exact .stopped (.inr ⟨_, _, _, _, rfl⟩) (.refl _)
  · have hkept : (w.stopListener r).registry = w.registry
        ∧ (w.stopListener r).collected = w.collected
        ∧ (w.stopListener r).listeners.length = w.listeners.length := by
      unfold stopListener
      split
      · exact ⟨rfl, rfl, List.length_modify ..⟩
      · exact ⟨rfl, rfl, rfl⟩
    rw [henlist]
    refine .started hc rfl ?_ hkept.2.1
    show enroll _ r _ = _
    rw [hkept.1, hkept.2.2]

/-- **Every action does to the listeners what `Client.Hears` says.** -/
theorem hears_act? (ha : w.act? action = some w') : w.Hears action w' := by
  cases hl : action.isListening with
  | false => exact .quiet (unheard_act? ha hl)
  | true =>
    cases action with
    | startListener session channels receiver timeout fault =>
      cases ha
      exact hears_startListener w session channels receiver timeout fault
    | stopListener receiver =>
      cases ha
      exact .stopped (.inl rfl) (.refl _)
    | stepListener l | wakeListener l | returnListener l raised =>
      obtain ⟨x, phase, hx, ht, rfl⟩ := turns_act? ha (beq_self_eq_true l)
      exact hears_of_turns hx ht
    | collect receiver =>
      cases ha
      exact .collects receiver
    | _ => cases hl

/-! ## What becomes of one listener -/

/-- What a listener can be after an action. -/
inductive Becomes (w : Client Handler) (l : Nat) (x : Listener) (action : Action Handler) :
    Listener → Prop where
  | stays : Becomes w l x action x
  /-- It was told to stop, as the listener of the receiver. -/
  | told {receiver : String} (hr : w.listenerOf? receiver = some l) (ha : action.Stops receiver) :
      Becomes w l x action { x with stopping := true }
  | turns {phase : ListenerPhase} (ht : w.Turns l x action phase) :
      Becomes w l x action { x with phase }

theorem getElem?_setListener (w : Client Handler) (l k : Nat) (phase : ListenerPhase) :
    (w.setListener l phase).listeners[k]?
      = (w.listeners[k]?).map fun x => if l = k then { x with phase } else x := by
  show (w.listeners.modify l _)[k]? = _
  rw [List.getElem?_modify]
  cases w.listeners[k]? with
  | none => rfl
  | some x =>
    show some _ = some _
    split <;> rfl

theorem getElem?_stopListener (w : Client Handler) (receiver : String) (k : Nat) :
    (w.stopListener receiver).listeners[k]?
      = (w.listeners[k]?).map fun x =>
        if w.listenerOf? receiver = some k then { x with stopping := true } else x := by
  unfold stopListener
  cases w.listenerOf? receiver with
  | none => simp
  | some l =>
    show (w.listeners.modify l _)[k]? = _
    rw [List.getElem?_modify]
    cases w.listeners[k]? with
    | none => rfl
    | some x => simp

/-- Telling a listener to stop makes no listener and removes none. -/
theorem length_stopListener (w : Client Handler) (receiver : String) :
    (w.stopListener receiver).listeners.length = w.listeners.length := by
  unfold stopListener
  split <;> simp

theorem frontend_stopListener (w : Client Handler) (receiver : String) :
    (w.stopListener receiver).frontend = w.frontend := by
  unfold stopListener
  split <;> rfl

/-- A listener that is there stays, and becomes what an action can make of it. -/
theorem Hears.becomes (h : w.Hears action w') (hx : w.listeners[l]? = some x) :
    ∃ x', w'.listeners[l]? = some x' ∧ w.Becomes l x action x' := by
  have hstop {receiver : String} (ha : action.Stops receiver) :
      ∃ x', (w.stopListener receiver).listeners[l]? = some x' ∧ w.Becomes l x action x' := by
    rw [getElem?_stopListener, hx, Option.map_some]
    split
    · next hr => exact ⟨_, rfl, .told hr ha⟩
    · exact ⟨_, rfl, .stays⟩
  have hturn {k : Nat} {y : Listener} {phase : ListenerPhase} (hy : w.listeners[k]? = some y)
      (ht : w.Turns k y action phase) :
      ∃ x', (w.setListener k phase).listeners[l]? = some x' ∧ w.Becomes l x action x' := by
    rw [getElem?_setListener, hx, Option.map_some]
    split
    · next hk =>
      subst hk
      obtain rfl := Option.some.inj (hx.symm.trans hy)
      exact ⟨_, rfl, .turns ht⟩
    · exact ⟨_, rfl, .stays⟩
  cases h with
  | quiet h => exact ⟨x, h.listeners ▸ hx, .stays⟩
  | stopped ha h =>
    rw [h.listeners]
    exact hstop ha
  | @started session channels receiver timeout fault list w' hc hl =>
    obtain ⟨x', hx', hb⟩ := hstop (.inr ⟨session, channels, timeout, fault, rfl⟩)
    rw [hl]
    exact ⟨x', (List.getElem?_append_left (List.getElem?_eq_some_iff.1 hx').1).trans hx', hb⟩
  | turned hy ht _ h =>
    rw [h.listeners]
    exact hturn hy ht
  | struck hy hp hr h =>
    rw [h.listeners]
    exact hturn hy (.strikes hp hr)
  | collects receiver => exact ⟨x, hx, .stays⟩

/-- A listener that was not there before was just started. -/
theorem Hears.started_of_new (h : w.Hears action w') (hx : w.listeners[l]? = none)
    (hx' : w'.listeners[l]? = some x') :
    ∃ session channels receiver timeout fault list,
      action = .startListener session channels (some receiver) timeout fault
      ∧ listenedChannels channels = .ok list ∧ l = w.listeners.length
      ∧ x' = ⟨receiver, session, list, timeout, false, birth fault⟩
      ∧ w'.registry = enroll w.registry receiver w.listeners.length := by
  have hnone {listeners : List Listener} (hlength : listeners.length = w.listeners.length) :
      listeners[l]? = none := by
    rw [List.getElem?_eq_none_iff] at hx ⊢
    omega
  have hgone {listeners : List Listener} (hlength : listeners.length = w.listeners.length)
      (hl : w'.listeners = listeners) : False := by
    rw [hl, hnone hlength] at hx'
    cases hx'
  cases h with
  | quiet h => exact (hgone rfl h.listeners).elim
  | stopped ha h => exact (hgone (length_stopListener w _) h.listeners).elim
  | @started session channels receiver timeout fault list w' hc hl hr =>
    have hlength := length_stopListener w receiver
    rw [hl, List.getElem?_append, hnone hlength] at hx'
    split at hx'
    · cases hx'
    · next hge =>
      obtain ⟨hlt, heq⟩ := List.getElem?_eq_some_iff.1 hx'
      have hzero : l - (w.stopListener receiver).listeners.length = 0 := by
        simpa using hlt
      refine ⟨session, channels, receiver, timeout, fault, list, rfl, hc, by omega, ?_, hr⟩
      simpa [hzero] using heq.symm
  | turned hy ht _ h => exact (hgone (List.length_modify ..) h.listeners).elim
  | struck hy hp hr h => exact (hgone (List.length_modify ..) h.listeners).elim
  | collects receiver => exact (hgone rfl rfl).elim

/-- What a listener is, apart from what it does, stays. -/
theorem Becomes.same (h : w.Becomes l x action x') :
    x'.receiver = x.receiver ∧ x'.session = x.session ∧ x'.channels = x.channels
      ∧ x'.timeout = x.timeout := by
  cases h <;> exact ⟨rfl, rfl, rfl, rfl⟩

/-- A listener that was told to stop stays told. -/
theorem Becomes.stopping (h : w.Becomes l x action x') (hs : x.stopping = true) :
    x'.stopping = true := by
  cases h with
  | stays => exact hs
  | told => rfl
  | turns => exact hs

/-- A receiver that exists no more does not exist later. -/
theorem Hears.collected {receiver : String} (h : w.Hears action w') (hr : receiver ∈ w.collected) :
    receiver ∈ w'.collected := by
  have hstop (r : String) : (w.stopListener r).collected = w.collected := by
    unfold stopListener
    split <;> rfl
  cases h with
  | quiet h => exact h.collected ▸ hr
  | stopped _ h => exact (h.collected.trans (hstop _)) ▸ hr
  | started _ _ _ hg => exact hg ▸ hr
  | turned _ _ _ h => exact h.collected ▸ hr
  | struck _ _ _ h => exact h.collected ▸ hr
  | collects other => exact List.mem_cons_of_mem other hr

/-- A listener that is at the head of its loop and was not told to stop asks for a subscription. -/
theorem stepListener?_of_looping (hx : w.listeners[l]? = some x) (hp : x.phase = .looping)
    (hs : x.stopping = false) :
    w.stepListener? l
      = some ((w.ask x.session (.subscribeMulti (.arr x.channels)) x.timeout none).setListener l
        (.subscribing w.invocations.length)) := by
  unfold stepListener?
  simp only [hx, hp, hs]
  rfl

end Client

end Pubsub
