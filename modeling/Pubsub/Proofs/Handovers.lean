import Pubsub.Proofs.Replacement

/-!
# What a listener hands on

A listener takes up one result after the other and looks each time whether it was told to stop; a
result is **late** if it was. It hands on the messages of the OK results that are not late, each
result from the first message to the last, and no result before the one that came before it is
done with. So what it has handed to its receiver, and what it has still to hand on, are together the
messages of these results, in order (`Client.handed_run?`): none is lost and none is handed on
twice. That the receiver raises an exception, or that the listener is told to stop while the
receiver runs, changes nothing about the messages that it has. An error that is no exception would
end the listener where it stands.
-/

namespace Pubsub

variable {Handler : Type}

/-- A result that a listener took up. -/
structure Return where
  result : Result
  /-- Had the listener been told to stop by then? -/
  late : Bool

/-- The messages that are to be handed on because of it: those of an OK result that is not late, the
first message with the first channel of the result, the second with the second, and so on. -/
def Return.messages (r : Return) : List (String × Message) :=
  match r.late, r.result.code, r.result.channels, r.result.messages with
  | false, .ok, some channels, some messages => channels.zip messages
  | _, _, _, _ => []

/-- Nothing is to be handed on because of a result that is late, or no OK result. -/
theorem Return.messages_eq_nil {r : Return} (h : r.late = true ∨ r.result.code ≠ .ok) :
    r.messages = [] := by
  unfold messages
  split
  · rename_i hlate hcode _ _
    rcases h with h | h
    · cases h.symm.trans hlate
    · exact absurd hcode h
  · rfl

/-- What was handed over, and to whom. -/
def Event.received? : Event Handler → Option (String × String × Message)
  | .received receiver channel message => some (receiver, channel, message)
  | _ => none

/-- The message that the next step of a listener hands on. -/
def ListenerPhase.next : ListenerPhase → List (String × Message)
  | delivering (first :: _) => [first]
  | _ => []

namespace Client

variable {w w' v : Client Handler} {action : Action Handler} {actions : List (Action Handler)}
  {l k : Nat} {x x' : Listener} {r : Return}

/-- The result that a listener takes up by the action. -/
def returnOf? (w : Client Handler) (l : Nat) : Action Handler → Option Return
  | .stepListener k =>
    if k = l then (w.listeners[l]?).bind fun x => match x.phase with
      | .subscribing i => match w.invocationPhase? i with
        | some (.ended (.ok (.result result))) => some ⟨result, x.stopping⟩
        | _ => none
      | _ => none
    else none
  | _ => none

/-- The results that a listener takes up in the course of a run, oldest first. -/
def returns (w : Client Handler) (l : Nat) : List (Action Handler) → List Return
  | [] => []
  | action :: rest =>
    (w.returnOf? l action).toList ++ match w.act? action with
      | some w' => w'.returns l rest
      | none => []

/-- What the receivers were handed from one state to a later one. -/
def handedSince (w w' : Client Handler) : List (String × String × Message) :=
  (w'.journal.drop w.journal.length).filterMap Event.received?

/-- **What a listener hands over in the course of a run**, oldest first: what its actions add to
what an observer can see. -/
def handed (w : Client Handler) (l : Nat) : List (Action Handler) → List (String × String × Message)
  | [] => []
  | action :: rest =>
    match w.act? action with
    | some w' => (if action.isOfListener l then w.handedSince w' else []) ++ w'.handed l rest
    | none => []

theorem returns_cons {rest : List (Action Handler)} (ha : w.act? action = some w') :
    w.returns l (action :: rest) = (w.returnOf? l action).toList ++ w'.returns l rest := by
  rw [returns, ha]

theorem handed_cons {rest : List (Action Handler)} (ha : w.act? action = some w') :
    w.handed l (action :: rest)
      = (if action.isOfListener l then w.handedSince w' else []) ++ w'.handed l rest := by
  rw [handed, ha]

/-- A listener takes up a result when the subscription that it waits for has come to it. -/
theorem returnOf?_eq_some_iff : w.returnOf? l action = some r ↔ action = .stepListener l
    ∧ ∃ x i, w.listeners[l]? = some x ∧ x.phase = .subscribing i
      ∧ w.invocationPhase? i = some (.ended (.ok (.result r.result))) ∧ r.late = x.stopping := by
  constructor
  · intro h
    unfold returnOf? at h
    split at h
    · split at h
      · rename_i hk
        subst hk
        obtain ⟨x, hx, h⟩ := Option.bind_eq_some_iff.1 h
        split at h
        · rename_i i hp
          split at h
          · rename_i result hi
            cases h
            exact ⟨rfl, x, i, hx, hp, hi, rfl⟩
          · cases h
        · cases h
      · cases h
    · cases h
  · rintro ⟨rfl, x, i, hx, hp, hi, hlate⟩
    simp only [returnOf?, hx, hp, hi, ← hlate, if_true, Option.bind_some]

/-! ## One action of the listener -/

/-- What an action of a listener does: it takes the listener from its phase to another one, hands
over the message that is next, and touches no session. -/
structure Acts (w : Client Handler) (l : Nat) (x : Listener) (action : Action Handler)
    (phase : ListenerPhase) (w' : Client Handler) : Prop where
  turns : w.Turns l x action phase
  listener : w'.listeners[l]? = some { x with phase }
  journal : ∃ events, w'.journal = w.journal ++ events
    ∧ events.filterMap Event.received? = x.phase.next.map (Prod.mk x.receiver)
  sessions : w'.sessions = w.sessions
  frontend : w'.frontend = w.frontend

/-- What a listener does aside is seen only if it hands on the message that is next, if the error
of its receiver is printed, or if it pauses. -/
theorem Turns.journal {phase : ListenerPhase} (ht : w.Turns l x action phase) :
    ∃ events, (w.aside x action phase).journal = w.journal ++ events
      ∧ events.filterMap Event.received? = x.phase.next.map (Prod.mk x.receiver) := by
  have hsilent (hj : (w.aside x action phase).journal = w.journal) (hn : x.phase.next = []) :
      ∃ events, (w.aside x action phase).journal = w.journal ++ events
        ∧ events.filterMap Event.received? = x.phase.next.map (Prod.mk x.receiver) := by
    rw [hn]
    exact ⟨[], hj.trans (List.append_nil _).symm, rfl⟩
  cases ht with
  | @hands channel message rest hp =>
    simp only [aside, hp]
    exact ⟨[.received x.receiver channel message], rfl, rfl⟩
  | @takes i result hp =>
    rcases w.afterResult_eq x result with heq | heq | heq <;> simp only [aside, hp, heq]
    · exact ⟨[], (List.append_nil _).symm, rfl⟩
    · exact ⟨[.paused pauseTime], rfl, rfl⟩
    · exact ⟨[], (List.append_nil _).symm, rfl⟩
  | @resumes channel message rest raised hp he =>
    cases raised with
    | none => exact hsilent (by simp only [aside, hp]) (by rw [hp]; rfl)
    | some e =>
      simp only [aside, hp]
      exact ⟨[.printed e.describe], rfl, rfl⟩
  | asks hp | strikes hp => exact hsilent (by simp only [aside, hp]; rfl) (by rw [hp]; rfl)
  | stops hp | fails hp | returns hp | finds hp | ends hp | misses hp | wakes hp | breaks hp =>
    exact hsilent (by simp only [aside, hp]) (by rw [hp]; rfl)

/-- **An action of a listener moves it.** -/
theorem acts_act? (hx : w.listeners[l]? = some x) (ha : w.act? action = some w')
    (ho : action.isOfListener l = true) : ∃ phase, w.Acts l x action phase w' := by
  obtain ⟨y, phase, hy, ht, rfl⟩ := turns_act? ha ho
  obtain rfl := Option.some.inj (hx.symm.trans hy)
  refine ⟨phase, ht, ?_, ht.journal, aside_sessions w x action phase,
    aside_frontend w x action phase⟩
  exact getElem?_setListener_self ((aside_listeners w x action phase).symm ▸ hx) phase

/-- What others do leaves a listener as it is, or tells it to stop. -/
theorem becomes_of_foreign (hx : w.listeners[l]? = some x) (ho : action.isOfListener l = false)
    (ha : w.act? action = some w') :
    ∃ stopping, w'.listeners[l]? = some { x with stopping } := by
  obtain ⟨x', hx', hb⟩ := (hears_act? ha).becomes hx
  cases hb with
  | stays => exact ⟨x.stopping, hx'⟩
  | told => exact ⟨true, hx'⟩
  | turns ht =>
    have hown : action.isOfListener l = true := by
      cases ht <;> exact beq_self_eq_true l
    cases ho.symm.trans hown

/-- What is no action of the listener brings it no result. -/
theorem returnOf?_of_foreign (ho : action.isOfListener l = false) :
    w.returnOf? l action = none := by
  rw [Option.eq_none_iff_forall_ne_some]
  intro r h
  rw [(returnOf?_eq_some_iff.1 h).1, show Action.isOfListener l (.stepListener l) = true
    from beq_self_eq_true l] at ho
  cases ho

/-- Only a listener that waits for a subscription takes up a result. -/
theorem returnOf?_of_subscription? (hx : w.listeners[l]? = some x)
    (hp : x.phase.subscription? = none) : w.returnOf? l action = none := by
  rw [Option.eq_none_iff_forall_ne_some]
  intro r h
  obtain ⟨-, y, i, hy, hwaits, -⟩ := returnOf?_eq_some_iff.1 h
  obtain rfl := Option.some.inj (hx.symm.trans hy)
  rw [hwaits] at hp
  cases hp

/-- After a result a listener has the messages to hand on that it has to, if there is somebody to
hand them to. -/
theorem pending_afterResult (hc : x.receiver ∉ w.collected) (result : Result) :
    (w.afterResult x result).pending = Return.messages ⟨result, x.stopping⟩ := by
  have hthere : ¬ w.collected.contains x.receiver = true := fun h => hc (List.contains_iff_mem.mp h)
  unfold afterResult
  cases hs : x.stopping with
  | true =>
    rw [if_pos rfl, Return.messages_eq_nil (.inl rfl)]
    rfl
  | false =>
    by_cases hcode : result.code = .ok
    · rw [if_neg Bool.false_ne_true, if_neg (by simp [hcode]), if_neg hthere]
      unfold Return.messages ListenerPhase.pending deliveries
      rw [hcode]
      cases result.channels <;> cases result.messages <;> simp
    · rw [if_neg Bool.false_ne_true, if_pos (by simpa using hcode),
        Return.messages_eq_nil (.inr hcode)]
      rfl

/-- **An action of a listener hands on what is next, and a result that it takes up is what it hands
on next**, unless its receiver raises an error that is no exception. -/
theorem Acts.pending {phase : ListenerPhase} (h : w.Acts l x action phase w')
    (hx : w.listeners[l]? = some x) (hc : x.receiver ∉ w.collected)
    (hcaught : ∀ raised, action = .returnListener l raised → Error.IsCaught raised) :
    x.phase.next ++ phase.pending
      = x.phase.pending ++ (w.returnOf? l action).toList.flatMap Return.messages := by
  cases h.turns with
  | @takes i result hp hi =>
    have hreturn : w.returnOf? l (.stepListener l) = some ⟨result, x.stopping⟩ :=
      returnOf?_eq_some_iff.2 ⟨rfl, x, i, hx, hp, hi, rfl⟩
    rw [hreturn, hp, pending_afterResult hc]
    exact (List.append_nil _).symm
  | @fails i e hp hi =>
    have hnone : w.returnOf? l (.stepListener l) = none := by
      rw [Option.eq_none_iff_forall_ne_some]
      intro r hr
      obtain ⟨-, y, j, hy, hwaits, hended, -⟩ := returnOf?_eq_some_iff.1 hr
      obtain rfl := Option.some.inj (hx.symm.trans hy)
      obtain rfl := ListenerPhase.subscribing.inj (hp.symm.trans hwaits)
      cases hi.symm.trans hended
    rw [hnone, hp]
    rfl
  | asks hp | stops hp | returns hp | hands hp | finds hp | ends hp | strikes hp | misses hp
  | wakes hp | resumes hp =>
    rw [returnOf?_of_subscription? hx (by rw [hp]; rfl), hp]
    exact (List.append_nil _).symm
  | breaks hp he => cases (hcaught _ rfl _ rfl).symm.trans he

theorem Acts.handedSince {phase : ListenerPhase} (h : w.Acts l x action phase w') :
    w.handedSince w' = x.phase.next.map (Prod.mk x.receiver) := by
  obtain ⟨events, hjournal, hreceived⟩ := h.journal
  unfold Client.handedSince
  rw [hjournal, List.drop_left, hreceived]

/-- **After a failure that is not late a listener pauses**, and nothing else happens. -/
theorem pauses_of_returnOf? (hx : w.listeners[l]? = some x) (h : w.returnOf? l action = some r)
    (hlate : r.late = false) (hcode : r.result.code ≠ .ok) (ha : w.act? action = some w') :
    w'.listeners[l]? = some { x with phase := .pausing } ∧ w'.sessions = w.sessions
      ∧ w'.journal = w.journal ++ [.paused pauseTime] := by
  obtain ⟨rfl, y, i, hy, hp, hi, hs⟩ := returnOf?_eq_some_iff.1 h
  obtain rfl := Option.some.inj (hx.symm.trans hy)
  have hafter : w.afterResult x r.result = .pausing := by
    unfold afterResult
    rw [if_neg (by simp [← hs, hlate]), if_pos (by simpa using hcode)]
  unfold act? stepListener? at ha
  simp only [hx, hp, hi, hafter] at ha
  cases ha
  exact ⟨getElem?_setListener_self (w := w.record _) hx _, rfl, rfl⟩

/-- **After a result that is late a listener leaves its loop**, whatever the result is, and nothing
else happens. -/
theorem leaves_of_returnOf? (hx : w.listeners[l]? = some x) (h : w.returnOf? l action = some r)
    (hlate : r.late = true) (ha : w.act? action = some w') :
    w'.listeners[l]? = some { x with phase := .leaving } ∧ w'.sessions = w.sessions
      ∧ w'.journal = w.journal := by
  obtain ⟨rfl, y, i, hy, hp, hi, hs⟩ := returnOf?_eq_some_iff.1 h
  obtain rfl := Option.some.inj (hx.symm.trans hy)
  have hafter : w.afterResult x r.result = .leaving := if_pos (hs.symm.trans hlate)
  unfold act? stepListener? at ha
  simp only [hx, hp, hi, hafter] at ha
  cases ha
  exact ⟨getElem?_setListener_self hx _, rfl, rfl⟩

/-! ## Runs -/

/-- **Nothing is lost, and nothing is handed on twice.** What a listener hands over in the course of
a run, and what it has to hand on then, is what it had to hand on before and the messages of the
results that it took up, in this order. Its receiver may raise exceptions. -/
theorem handed_run? (hx : w.listeners[l]? = some x) (hr : w.run? actions = some w')
    (hx' : w'.listeners[l]? = some x') (hc : x.receiver ∉ w'.collected)
    (hcaught : ∀ raised, .returnListener l raised ∈ actions → Error.IsCaught raised) :
    w.handed l actions ++ x'.phase.pending.map (Prod.mk x.receiver)
      = (x.phase.pending ++ (w.returns l actions).flatMap Return.messages).map
        (Prod.mk x.receiver) := by
  induction actions generalizing w x with
  | nil =>
    cases hr
    obtain rfl := Option.some.inj (hx.symm.trans hx')
    exact congrArg (List.map _) (List.append_nil _).symm
  | cons action rest ih =>
    rw [run?_cons] at hr
    obtain ⟨v, ha, hr⟩ := Option.bind_eq_some_iff.1 hr
    rw [handed_cons ha, returns_cons ha]
    have hcaught' := fun raised hm => hcaught raised (List.mem_cons_of_mem action hm)
    cases ho : action.isOfListener l with
    | false =>
      obtain ⟨stopping, hv⟩ := becomes_of_foreign hx ho ha
      have hrest := ih hv hr hc hcaught'
      rw [returnOf?_of_foreign ho]
      exact hrest
    | true =>
      obtain ⟨phase, hacts⟩ := acts_act? hx ha ho
      have hthere : x.receiver ∉ w.collected := by
        intro hgone
        exact hc (of_run? (P := fun u => x.receiver ∈ u.collected)
          (fun hm ha => (hears_act? ha).collected hm) ((hears_act? ha).collected hgone) hr)
      have hrest := ih hacts.listener hr hc hcaught'
      have hfirst := hacts.pending hx hthere
        (fun raised heq => hcaught raised (heq ▸ List.mem_cons_self))
      rw [if_pos rfl, hacts.handedSince, List.append_assoc, hrest, ← List.map_append,
        ← List.append_assoc, hfirst, List.flatMap_append, List.append_assoc]

/-- What comes back to a listener that was told to stop is late. -/
theorem late_run? (hx : w.listeners[l]? = some x) (hs : x.stopping = true)
    (hr : w.run? actions = some w') : ∀ r ∈ w.returns l actions, r.late = true := by
  induction actions generalizing w x with
  | nil => rintro r ⟨⟩
  | cons action rest ih =>
    rw [run?_cons] at hr
    obtain ⟨v, ha, hr⟩ := Option.bind_eq_some_iff.1 hr
    rw [returns_cons ha]
    intro r hm
    rcases List.mem_append.1 hm with hm | hm
    · obtain ⟨-, y, i, hy, -, -, hlate⟩ := returnOf?_eq_some_iff.1 (Option.mem_toList.1 hm)
      obtain rfl := Option.some.inj (hx.symm.trans hy)
      exact hlate.trans hs
    · obtain ⟨y, hy, hb⟩ := (hears_act? ha).becomes hx
      exact ih hy (hb.stopping hs) hr r hm

/-- **A listener that was told to stop hands on the messages that it has, and no others.** -/
theorem handed_of_stopping (hx : w.listeners[l]? = some x) (hs : x.stopping = true)
    (hr : w.run? actions = some w') (hx' : w'.listeners[l]? = some x')
    (hc : x.receiver ∉ w'.collected)
    (hcaught : ∀ raised, .returnListener l raised ∈ actions → Error.IsCaught raised) :
    w.handed l actions ++ x'.phase.pending.map (Prod.mk x.receiver)
      = x.phase.pending.map (Prod.mk x.receiver) := by
  have hnone : (w.returns l actions).flatMap Return.messages = [] := by
    rw [List.flatMap_eq_nil_iff]
    intro r hm
    exact Return.messages_eq_nil (.inl (late_run? hx hs hr r hm))
  rw [handed_run? hx hr hx' hc hcaught, hnone, List.append_nil]

/-! ## What becomes of the messages of a result -/

/-- The actions by which a listener hands on its messages, one after the other; each time the
receiver returns, or raises an exception. -/
def handing (l : Nat) (raises : List (Option Error)) : List (Action Handler) :=
  raises.flatMap fun raised => [.stepListener l, .returnListener l raised]

/-- A listener that has messages to hand on hands the first of them over. -/
theorem stepListener?_of_delivering {channel : String} {message : Message}
    {rest : List (String × Message)} (hx : w.listeners[l]? = some x)
    (hp : x.phase = .delivering ((channel, message) :: rest)) :
    ∃ w', w.act? (.stepListener l) = some w'
      ∧ w'.listeners[l]? = some { x with phase := .receiving channel message rest }
      ∧ w.handedSince w' = [(x.receiver, channel, message)] := by
  have hact : ∃ w', w.act? (.stepListener l) = some w' := by
    unfold act? stepListener?
    simp only [hx, hp]
    exact ⟨_, rfl⟩
  obtain ⟨w', ha⟩ := hact
  obtain ⟨phase, hacts⟩ := acts_act? hx ha (beq_self_eq_true l)
  refine ⟨w', ha, ?_, ?_⟩
  · have hlistener := hacts.listener
    cases hacts.turns with
    | hands hp' =>
      cases hp.symm.trans hp'
      exact hlistener
    | asks hp' | stops hp' | fails hp' | takes hp' | returns hp' | finds hp' | ends hp'
    | strikes hp' | misses hp' => cases hp.symm.trans hp'
  · rw [hacts.handedSince, hp]
    rfl

/-- When the receiver returns, or raises an exception, the listener goes on with the rest. -/
theorem returnListener?_of_receiving {channel : String} {message : Message}
    {rest : List (String × Message)} (hx : w.listeners[l]? = some x)
    (hp : x.phase = .receiving channel message rest) {raised : Option Error}
    (hcaught : Error.IsCaught raised) :
    ∃ w', w.act? (.returnListener l raised) = some w'
      ∧ w'.listeners[l]? = some { x with phase := .delivering rest }
      ∧ w.handedSince w' = [] := by
  have hact : ∃ w', w.act? (.returnListener l raised) = some w' := by
    unfold act? returnListener?
    simp only [hx, Option.map_some, hp]
    cases raised with
    | none => exact ⟨_, rfl⟩
    | some e => exact ⟨_, if_pos (hcaught e rfl)⟩
  obtain ⟨w', ha⟩ := hact
  obtain ⟨phase, hacts⟩ := acts_act? hx ha (beq_self_eq_true l)
  refine ⟨w', ha, ?_, ?_⟩
  · have hlistener := hacts.listener
    cases hacts.turns with
    | resumes hp' =>
      cases hp.symm.trans hp'
      exact hlistener
    | breaks hp' he => cases (hcaught _ rfl).symm.trans he
  · rw [hacts.handedSince, hp]
    rfl

/-- **A listener can hand on all messages that it has**, whichever of them its receiver raises an
exception at, and whether or not it was told to stop. -/
theorem run?_handing {messages : List (String × Message)} {raises : List (Option Error)}
    (hx : w.listeners[l]? = some x) (hp : x.phase = .delivering messages)
    (hlength : raises.length = messages.length)
    (hcaught : ∀ raised ∈ raises, Error.IsCaught raised) :
    ∃ w', w.run? (handing l raises) = some w'
      ∧ w'.listeners[l]? = some { x with phase := .delivering [] }
      ∧ w.handed l (handing l raises) = messages.map (Prod.mk x.receiver) := by
  induction messages generalizing w x raises with
  | nil =>
    obtain rfl := List.length_eq_zero_iff.1 hlength
    exact ⟨w, rfl, hp ▸ hx, rfl⟩
  | cons first messages ih =>
    obtain ⟨raised, raises, rfl⟩ := List.exists_cons_of_length_eq_add_one hlength
    obtain ⟨u, hu, hy, hhanded⟩ := stepListener?_of_delivering hx hp
    obtain ⟨v, hv, hz, hsilent⟩ :=
      returnListener?_of_receiving hy rfl (hcaught raised List.mem_cons_self)
    obtain ⟨w', hr, hx', hrest⟩ := ih hz rfl (Nat.succ.inj hlength)
      fun other hm => hcaught other (List.mem_cons_of_mem raised hm)
    refine ⟨w', ?_, hx', ?_⟩
    · show w.run? (.stepListener l :: .returnListener l raised :: handing l raises) = some w'
      rw [run?_cons, hu, Option.bind_some, run?_cons, hv]
      exact hr
    · show w.handed l (.stepListener l :: .returnListener l raised :: handing l raises) = _
      rw [handed_cons hu, handed_cons hv, hrest, hhanded, hsilent]
      simp [Action.isOfListener]

end Client

end Pubsub
