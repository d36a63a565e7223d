import Pubsub.Proofs.Beginnings
import Pubsub.Proofs.SingleFlight

/-!
# Operations that fail

An operation may raise an error before its result is delivered: when its request cannot be built,
when the frontend cannot start its call, or when an error escapes from an attempt, the first one or
a retry. Such a failure leaves no trace. The operation held its session from its claim on, and lets
it go in one of its own steps, which lowers the flag and does nothing else. Before that step it
changed no session, and told no callback; and if its call was not driven, it sent nothing either.

The states of an operation that are told apart here are three. It **holds** its session, while it
builds its request or has a call that is not settled; it **has failed**, when an error is on its way
out and the session was let go; and it **has delivered**, when the call was handed over or
completed. What others do changes none of that (`Client.Reachable.call_of_foreign`), so a run of the
operation is a run of its own steps, and from the second and the third of these states there is no
way back.
-/

namespace Pubsub

variable {Handler : Type}

/-- Is the call still to be completed or abandoned by the drive? -/
def Drive.isOpen : Drive → Bool
  | .resuming _ => true
  | .inFlight => true
  | .asleep _ => true
  | .failing _ => true
  | _ => false

namespace InvocationPhase

/-- The call that the operation has still to complete or to abandon. -/
def open? : InvocationPhase → Option Nat
  | launching c => some c
  | driving c drive => if drive.isOpen then some c else none
  | unwinding c _ => some c
  | _ => none

/-- Does the frontend drive the call on the thread that asked? -/
def isDriving : InvocationPhase → Bool
  | driving _ _ => true
  | _ => false

/-- Was the call handed over to others, or completed? -/
def isDelivered : InvocationPhase → Bool
  | driving _ (.calling _) => true
  | driving _ (.finished _) => true
  | ended (.ok _) => true
  | _ => false

/-- A call that is still to be completed was not delivered. -/
theorem isDelivered_of_isOpen {c : Nat} {drive : Drive} (h : drive.isOpen = true) :
    (driving c drive).isDelivered = false := by
  cases drive <;> first | rfl | cases h

/-- An operation holds the baton of the call that it has. -/
theorem exists_baton_of_open? {phase : InvocationPhase} {c : Nat} (h : phase.open? = some c) :
    ∃ b, phase.baton? = some (c, b) := by
  cases phase with
  | launching d =>
    cases h
    exact ⟨_, rfl⟩
  | driving d drive =>
    unfold open? at h
    dsimp only at h
    split at h <;> cases h
    exact ⟨_, rfl⟩
  | unwinding d e =>
    cases h
    exact ⟨_, rfl⟩
  | asked => cases h
  | claimed => cases h
  | ended outcome => cases h

end InvocationPhase

/-- The actions of an invocation are its steps and what the world answers to it. -/
theorem Action.eq_of_isOf {action : Action Handler} {k : Nat} (h : action.isOf k = true) :
    action = .stepInvocation k ∨ (∃ answer, action = .answerInvocation k answer)
      ∨ action = .wakeInvocation k ∨ ∃ raised, action = .returnInvocation k raised := by
  cases action with
  | stepInvocation j =>
    obtain rfl : j = k := beq_iff_eq.1 h
    exact Or.inl rfl
  | answerInvocation j answer =>
    obtain rfl : j = k := beq_iff_eq.1 h
    exact Or.inr (Or.inl ⟨answer, rfl⟩)
  | wakeInvocation j =>
    obtain rfl : j = k := beq_iff_eq.1 h
    exact Or.inr (Or.inr (Or.inl rfl))
  | returnInvocation j raised =>
    obtain rfl : j = k := beq_iff_eq.1 h
    exact Or.inr (Or.inr (Or.inr ⟨raised, rfl⟩))
  | _ => cases h

/-! ## Calls of which nothing was told -/

namespace Ledger

variable {P : Outcome → Prop} {l l' : Ledger Handler}

/-- Of a call that is not settled nothing was told. -/
def IsDiscreet (l : Ledger Handler) : Prop :=
  ∀ (c : Nat) (call : Call Handler), l.calls[c]? = some call → call.settled = false →
    l.noticesOf c = []

/-- With a new call nobody is told anything. -/
theorem Entry.length_or_notices (he : Entry P l l') :
    l'.calls.length = l.calls.length ∨ l'.notices = l.notices := by
  cases he with
  | accepted hs hb request callback => exact Or.inr rfl
  | resumed now fed hc hP hr => exact Or.inl List.length_set
  | abandoned hc hu => exact Or.inl List.length_set
  | ended now fed hc hu hP hr ho =>
    rw [settle_setCall]
    exact Or.inl List.length_set
  | _ => exact Or.inl rfl

theorem IsDiscreet.entry (h : l.IsDiscreet) (hr : l.IsRegular) (he : Entry P l l') :
    l'.IsDiscreet := by
  intro c call hc hu
  by_cases hlt : c < l.calls.length
  · have hold : l.calls[c]? = some l.calls[c] := List.getElem?_eq_getElem hlt
    cases he.progress hold with
    | kept hc' same hu' hn =>
      obtain rfl := Option.some.inj (hc.symm.trans hc')
      rw [hn]
      exact h c _ hold (hu'.symm.trans hu)
    | settled _ hc' _ hu' =>
      obtain rfl := Option.some.inj (hc.symm.trans hc')
      rw [hu] at hu'
      cases hu'
  · have hlt' := (List.getElem?_eq_some_iff.1 hc).1
    have hsame : l'.notices = l.notices :=
      he.length_or_notices.resolve_left fun hlength => hlt (hlength ▸ hlt')
    unfold noticesOf
    rw [hsame]
    refine List.filterMap_eq_nil_iff.2 fun notice hnotice => if_neg ?_
    have := hr.notice notice hnotice
    omega

end Ledger

/-- Nothing is told of a call before it is settled. -/
theorem Client.Reachable.noticesOf_eq_nil {w : Client Handler} {c : Nat} {call : Call Handler}
    (hw : Reachable w) (hc : w.calls[c]? = some call) (hu : call.settled = false) :
    w.noticesOf c = [] := by
  have hboth : w.ledger.IsRegular ∧ w.ledger.IsDiscreet :=
    Reachable.ledger (Q := fun l => l.IsRegular ∧ l.IsDiscreet)
      ⟨.empty, by rintro c call ⟨⟩⟩ (fun h he => ⟨h.1.entry he, h.2.entry h.1 he⟩) hw
  exact hboth.2 c call hc hu

namespace Client

variable {w w' w₁ u u' v : Client Handler} {k i c : Nat} {x x' : Invocation Handler}
  {action : Action Handler} {actions rest : List (Action Handler)} {call : Call Handler}
  {s t : Session} {R Q : Client Handler → Client Handler → Prop} {e : Error}

/-! ## Own steps -/

/-- By what happened no session was changed, and no callback was told anything. -/
structure KeepsQuiet (w w' : Client Handler) : Prop where
  sessions : w'.sessions = w.sessions
  notices : w'.ledger.notices = w.ledger.notices

/-- By what happened no session was changed, and nothing was to be seen. -/
structure KeepsStill (w w' : Client Handler) : Prop where
  sessions : w'.sessions = w.sessions
  journal : w'.journal = w.journal

/-- What happens unseen tells nobody anything. -/
theorem KeepsStill.keepsQuiet (h : w.KeepsStill w') : w.KeepsQuiet w' :=
  ⟨h.sessions, congrArg (List.filterMap Event.notice?) h.journal⟩

/-- What the invocation does itself in a run leads from state to state as `R` says. -/
def OwnSteps (w : Client Handler) (k : Nat) (actions : List (Action Handler))
    (R : Client Handler → Client Handler → Prop) : Prop :=
  ∀ {u : Client Handler} {action : Action Handler} {u' : Client Handler},
    w.Occurs actions u action u' → action.isOf k = true → R u u'

theorem OwnSteps.nil : w.OwnSteps k [] R := by
  intro u action u' h
  cases h

theorem OwnSteps.cons (ha : w.act? action = some v) (hnow : action.isOf k = true → R w v)
    (hlater : v.OwnSteps k rest R) : w.OwnSteps k (action :: rest) R := by
  intro u a u' h ho
  rcases h.now_or_later ha with ⟨rfl, rfl, rfl⟩ | h
  · exact hnow ho
  · exact hlater h ho

/-- An invocation that is moved is in its new phase. -/
theorem getElem?_setInvocation (hx : w.invocations[k]? = some x) (phase : InvocationPhase) :
    (w.setInvocation k phase).invocations[k]? = some { x with phase } := by
  show (w.invocations.modify k _)[k]? = _
  rw [List.getElem?_modify_eq, hx]
  rfl

/-- What the world answers to a drive: an attempt or a wait is over, or the callback returned. -/
inductive Answered (k : Nat) : Action Handler → Drive → Drive → Prop where
  | waited {action : Action Handler} {drive drive' : Drive} (h : drive.isOpen = true)
      (h' : drive'.isOpen = true) : Answered k action drive drive'
  | returned {result : Result} :
      Answered k (.returnInvocation k none) (.calling result) (.finished result)
  | raised {result : Result} {e : Error} :
      Answered k (.returnInvocation k (some e)) (.calling result) (.failing e)

/-- **An action of an invocation that is no step of it** is an answer to its drive, and only moves
it. -/
theorem exists_answered (hx : w.invocations[k]? = some x) (ho : action.isOf k = true)
    (hne : action ≠ .stepInvocation k) (ha : w.act? action = some w') :
    ∃ c drive drive', x.phase = .driving c drive
      ∧ w' = w.setInvocation k (.driving c drive') ∧ Answered k action drive drive' := by
  have hphase : w.invocationPhase? k = some x.phase := by
    unfold invocationPhase?
    rw [hx, Option.map_some]
  have hdriving : ∀ {c : Nat} {drive : Drive}, w.invocationPhase? k = some (.driving c drive) →
      x.phase = .driving c drive := fun h => Option.some.inj (hphase.symm.trans h)
  rcases Action.eq_of_isOf ho with rfl | ⟨answer, rfl⟩ | rfl | ⟨raised, rfl⟩
  · exact absurd rfl hne
  · unfold act? answerInvocation? at ha
    dsimp only at ha
    split at ha
    · rename_i hp
      obtain ⟨drive', hanswer, rfl⟩ := Option.map_eq_some_iff.1 ha
      refine ⟨_, _, drive', hdriving hp, rfl, ?_⟩
      unfold Drive.answer? at hanswer
      split at hanswer <;> cases hanswer <;> exact .waited rfl rfl
    · cases ha
  · unfold act? wakeInvocation? at ha
    dsimp only at ha
    split at ha
    · rename_i hp
      obtain ⟨drive', hwake, rfl⟩ := Option.map_eq_some_iff.1 ha
      refine ⟨_, _, drive', hdriving hp, rfl, ?_⟩
      unfold Drive.wake? at hwake
      split at hwake <;> cases hwake
      exact .waited rfl rfl
    · cases ha
  · unfold act? returnInvocation? at ha
    dsimp only at ha
    split at ha
    · rename_i hp
      cases ha
      exact ⟨_, _, _, hdriving hp, rfl, .returned⟩
    · rename_i hp
      cases ha
      exact ⟨_, _, _, hdriving hp, rfl, .raised⟩
    · cases ha

/-! ## What an operation can have come to -/

/-- The operation holds the session: it builds its request, or has a call that is not settled. -/
inductive Holds (w : Client Handler) (i : Nat) (x : Invocation Handler) : Prop where
  | building (hp : x.phase = .claimed) (hi : x.session = i)
  | carrying {c : Nat} {call : Call Handler} (hp : x.phase.open? = some c)
      (hc : w.calls[c]? = some call) (hi : call.session = i) (hu : call.settled = false)

/-- An error ended the operation, and the session was let go. -/
inductive HasFailed (w : Client Handler) (x : Invocation Handler) : Prop where
  | escaping {c : Nat} {e : Error} (hp : x.phase = .driving c (.failed e))
      (hs : w.isSettled c = true)
  | unwinding {c : Nat} {e : Error} (hp : x.phase = .unwinding c e) (hs : w.isSettled c = true)
  | ended {e : Error} (hp : x.phase = .ended (.error e))

/-- What an operation that holds its session comes to by an action of its own. -/
inductive Proceeds (w : Client Handler) (k i : Nat) (x : Invocation Handler)
    (action : Action Handler) (w' : Client Handler) : Prop where
  /-- It holds the session still. Only while its call is driven is anything to be seen. -/
  | goesOn {x' : Invocation Handler} (hx : w'.invocations[k]? = some x') (hh : w'.Holds i x')
      (hq : w.KeepsQuiet w') (hs : x.phase.isDriving = false → w.KeepsStill w')
      (hd : x.phase.isDriving = true → x'.phase.isDriving = true)
  /-- It lets the session go, and an error is on its way out. -/
  | fails {x' : Invocation Handler} {t : Session} (hx : w'.invocations[k]? = some x')
      (hf : w'.HasFailed x') (ha : action = .stepInvocation k) (ht : w.sessions[i]? = some t)
      (hs : w'.sessions = w.sessions.set i (t.release none)) (hj : w'.journal = w.journal)
      (hd : x.phase.isDriving = true → ∃ c e, x.phase = .driving c (.failing e))
  | delivers {x' : Invocation Handler} (hx : w'.invocations[k]? = some x')
      (hd : x'.phase.isDelivered = true)

/-! ## What an operation does that holds its session -/

/-- An operation that builds its request has it accepted, or lets its session go. -/
theorem proceeds_of_buildFor? (hx : w.invocations[k]? = some x) (hp : x.phase = .claimed)
    (h : w.buildFor? k x = some w') : w.Proceeds k x.session x (.stepInvocation k) w' := by
  unfold buildFor? at h
  obtain ⟨s, hs, h⟩ := Option.map_eq_some_iff.1 h
  have hd : x.phase.isDriving = true → ∃ c e, x.phase = .driving c (.failing e) := by
    rw [hp]
    rintro ⟨⟩
  split at h
  · subst h
    exact .fails (getElem?_setInvocation hx _) (.ended rfl) rfl hs rfl rfl hd
  · subst h
    refine .goesOn (getElem?_setInvocation hx _)
      (.carrying rfl List.getElem?_concat_length rfl rfl) ⟨rfl, rfl⟩ (fun _ => ⟨rfl, rfl⟩) ?_
    rw [hp]
    rintro ⟨⟩

/-- An operation that moves without a step of the cycle goes on with its call. -/
theorem proceeds_of_move (hx : w.invocations[k]? = some x) (hc : w.calls[c]? = some call)
    (hu : call.settled = false) {phase : InvocationPhase} (hopen : phase.open? = some c)
    (hd : x.phase.isDriving = true → phase.isDriving = true) :
    w.Proceeds k call.session x action (w.setInvocation k phase) :=
  .goesOn (getElem?_setInvocation hx _) (.carrying hopen hc rfl hu) ⟨rfl, rfl⟩
    (fun _ => ⟨rfl, rfl⟩) hd

/-- A call that is handed to its frontend is driven, taken, or refused. -/
theorem proceeds_of_launchFor (hx : w.invocations[k]? = some x) (hp : x.phase = .launching c)
    (hc : w.calls[c]? = some call) (hu : call.settled = false) :
    w.Proceeds k call.session x action (w.launchFor k c) := by
  have hd : ∀ {phase : InvocationPhase}, x.phase.isDriving = true → phase.isDriving = true := by
    rw [hp]
    rintro phase ⟨⟩
  unfold launchFor
  split
  · exact proceeds_of_move hx hc hu rfl hd
  · split
    · exact .delivers (getElem?_setInvocation hx _) rfl
    · exact proceeds_of_move hx hc hu rfl hd
  · split
    · exact proceeds_of_move hx hc hu rfl hd
    · exact .delivers (getElem?_setInvocation hx _) rfl

/-- **A step of the cycle of an unsettled call** changes no session and tells no callback, unless it
completes the call. -/
theorem quiet_or_complete_of_stepDrive? {fed : Option Outcome} {drive' : Drive}
    (hc : w.callOn? c = some (call, s)) (hu : call.settled = false)
    (h : w.stepDrive? c (.resuming fed) = some (w₁, drive')) :
    (drive'.isOpen = true ∧ w.KeepsQuiet w₁
      ∧ ∃ call', w₁.calls[c]? = some call' ∧ call'.session = call.session ∧ call'.settled = false)
    ∨ ∃ result, drive' = .calling result ∨ drive' = .finished result := by
  unfold stepDrive? at h
  dsimp only at h
  cases hresume : w.resumeCall? c fed with
  | none =>
    rw [hresume] at h
    cases h
  | some resumed =>
    obtain ⟨w₂, effect⟩ := resumed
    obtain ⟨call', s', step, hc', hr, he, -, hl⟩ := resumeCall?_eq_some hresume
    obtain ⟨rfl, rfl⟩ := Prod.mk.inj (Option.some.inj (hc.symm.trans hc'))
    have hc₂ := callOn?_after hc hl
    -- A step that does not come to a result leaves the cursor, and so the session, as it is.
    have hquiet : (∀ result, effect ≠ .finish result) → w.KeepsQuiet w₂ := by
      intro hne
      have hcursor : step.cursor = s.cursor := Cycle.cursor_of_unfinished hr (he ▸ hne)
      have hsame : s.after step = s := by
        unfold Session.after
        rw [hcursor]
      have hback : w.sessions.set call.session (s.after step) = w.sessions := by
        rw [hsame]
        exact set_of_getElem?_eq_some (callOn?_eq_some_iff.1 hc).2
      have hsessions : w₂.sessions = w.sessions.set call.session (s.after step) :=
        congrArg Ledger.sessions hl
      have hnotices : w₂.ledger.notices = w.ledger.notices := by
        rw [hl]
        rfl
      exact ⟨hsessions.trans hback, hnotices⟩
    have hcall : ∃ call', w₂.calls[c]? = some call' ∧ call'.session = call.session
        ∧ call'.settled = false := ⟨_, (callOn?_eq_some_iff.1 hc₂).1, rfl, hu⟩
    have hrecord : ∀ {event : Event Handler}, event.notice? = none → w.KeepsQuiet w₂ →
        w.KeepsQuiet (w₂.record event) := by
      intro event hnotice hq
      refine ⟨hq.sessions, ?_⟩
      rw [ledger_record_of_notice? _ hnotice]
      exact hq.notices
    rw [hresume] at h
    cases effect with
    | send =>
      have hq := hquiet (by rintro result ⟨⟩)
      dsimp only at h
      split at h
      · cases h
        exact Or.inl ⟨rfl, hq, hcall⟩
      · cases h
        exact Or.inl ⟨rfl, hrecord rfl hq, hcall⟩
    | sleep seconds =>
      cases h
      exact Or.inl ⟨rfl, hrecord rfl (hquiet (by rintro result ⟨⟩)), hcall⟩
    | raise e =>
      cases h
      exact Or.inl ⟨rfl, hquiet (by rintro result ⟨⟩), hcall⟩
    | finish result =>
      dsimp only at h
      split at h
      · -- The call is not settled, so it can be completed.
        rename_i hcomplete
        obtain ⟨_, hok, -⟩ := completeCall_of_unsettled hc₂ hu result
        rw [hok] at hcomplete
        cases hcomplete
      · cases h
        exact Or.inr ⟨result, Or.inl rfl⟩
      · cases h
        exact Or.inr ⟨result, Or.inr rfl⟩

/-- Abandoning an unsettled call lets its session go, and nothing else becomes of it. -/
theorem abandonCall_lets_go (hc : w.callOn? c = some (call, s)) (hu : call.settled = false) :
    (w.abandonCall c).sessions = w.sessions.set call.session (s.release none)
      ∧ (w.abandonCall c).journal = w.journal ∧ (w.abandonCall c).isSettled c = true
      ∧ (w.abandonCall c).invocations = w.invocations := by
  have hlt := (List.getElem?_eq_some_iff.1 (callOn?_eq_some_iff.1 hc).1).1
  rw [abandonCall_of_unsettled hc hu]
  refine ⟨rfl, rfl, ?_, rfl⟩
  show ((w.calls.set c { call with settled := true })[c]?).any (·.settled) = true
  rw [List.getElem?_set_self hlt]
  rfl

/-- An operation that abandons its call lets the session go. -/
theorem proceeds_of_abandonCall (hx : w.invocations[k]? = some x)
    (hc : w.callOn? c = some (call, s)) (hu : call.settled = false) {phase : InvocationPhase}
    (hp : phase = .driving c (.failed e) ∨ phase = .ended (.error e))
    (hd : x.phase.isDriving = true → ∃ c e, x.phase = .driving c (.failing e)) :
    w.Proceeds k call.session x (.stepInvocation k)
      ((w.abandonCall c).setInvocation k phase) := by
  obtain ⟨hsessions, hjournal, hsettled, hsame⟩ := abandonCall_lets_go hc hu
  have hfailed : ((w.abandonCall c).setInvocation k phase).HasFailed { x with phase } := by
    rcases hp with rfl | rfl
    · exact .escaping rfl hsettled
    · exact .ended rfl
  exact .fails (getElem?_setInvocation (hsame ▸ hx) _) hfailed rfl (callOn?_eq_some_iff.1 hc).2
    hsessions hjournal hd

/-- An operation that drives its call goes on with it, lets the session go, or has delivered. -/
theorem proceeds_of_driving {drive : Drive} (hx : w.invocations[k]? = some x)
    (hp : x.phase = .driving c drive) (hopen : drive.isOpen = true)
    (hc : w.callOn? c = some (call, s)) (hu : call.settled = false)
    (ha : w.stepInvocation? k = some w') :
    w.Proceeds k call.session x (.stepInvocation k) w' := by
  unfold stepInvocation? at ha
  simp only [hx, hp] at ha
  cases drive with
  | resuming fed =>
    obtain ⟨⟨w₁, drive'⟩, hstep, rfl⟩ := Option.map_eq_some_iff.1 ha
    have hx₁ : w₁.invocations[k]? = some x := by
      rw [agreesOutside_stepDrive? hstep]
      exact hx
    rcases quiet_or_complete_of_stepDrive? hc hu hstep with
      ⟨hopen', hq, call', hc', hi, hu'⟩ | ⟨result, rfl | rfl⟩
    · refine .goesOn (getElem?_setInvocation hx₁ _) (.carrying ?_ hc' hi hu')
        ⟨hq.sessions, hq.notices⟩ ?_ (fun _ => rfl)
      · exact if_pos hopen'
      · rw [hp]
        rintro ⟨⟩
    · exact .delivers (getElem?_setInvocation hx₁ _) rfl
    · exact .delivers (getElem?_setInvocation hx₁ _) rfl
  | failing e =>
    cases ha
    exact proceeds_of_abandonCall hx hc hu (Or.inl rfl) fun _ => ⟨c, e, hp⟩
  | inFlight => cases ha
  | asleep seconds => cases ha
  | calling result => cases hopen
  | finished result => cases hopen
  | failed e => cases hopen

/-- **What an operation that holds its session does next.** -/
theorem Reachable.proceeds (hw : Reachable w) (hx : w.invocations[k]? = some x)
    (h : w.Holds i x) (ho : action.isOf k = true) (ha : w.act? action = some w') :
    w.Proceeds k i x action w' := by
  -- In a phase in which the call is not driven only a step of the thread is possible.
  have hstep : x.phase.isDriving = false → action = .stepInvocation k := by
    intro hd
    by_contra hne
    obtain ⟨c, drive, -, hp, -⟩ := exists_answered hx ho hne ha
    rw [hp] at hd
    cases hd
  cases h with
  | building hp hi =>
    subst hi
    obtain rfl := hstep (by rw [hp]; rfl)
    exact proceeds_of_buildFor? hx hp ((stepInvocation?_of_claimed hx hp).symm.trans ha)
  | @carrying c call hp hc hi hu =>
    subst hi
    obtain ⟨s, hs⟩ : ∃ s, w.sessions[call.session]? = some s :=
      ⟨_, List.getElem?_eq_getElem (hw.isRegular.session call (List.mem_of_getElem? hc))⟩
    have hon : w.callOn? c = some (call, s) := callOn?_eq_some_iff.2 ⟨hc, hs⟩
    cases hphase : x.phase with
    | asked => rw [hphase] at hp; cases hp
    | claimed => rw [hphase] at hp; cases hp
    | ended outcome => rw [hphase] at hp; cases hp
    | launching d =>
      rw [hphase] at hp
      cases hp
      obtain rfl := hstep (by rw [hphase]; rfl)
      unfold act? stepInvocation? at ha
      simp only [hx, hphase] at ha
      cases ha
      exact proceeds_of_launchFor hx hphase hc hu
    | unwinding d e =>
      rw [hphase] at hp
      cases hp
      obtain rfl := hstep (by rw [hphase]; rfl)
      unfold act? stepInvocation? at ha
      simp only [hx, hphase] at ha
      cases ha
      refine proceeds_of_abandonCall hx hon hu (Or.inr rfl) ?_
      rw [hphase]
      rintro ⟨⟩
    | driving d drive =>
      rw [hphase] at hp
      unfold InvocationPhase.open? at hp
      dsimp only at hp
      split at hp <;> cases hp
      rename_i hopen
      by_cases hne : action = .stepInvocation k
      · subst hne
        exact proceeds_of_driving hx hphase hopen hon hu ha
      · obtain ⟨d, drive, drive', hp, rfl, hanswered⟩ := exists_answered hx ho hne ha
        rw [hphase] at hp
        cases hp
        cases hanswered with
        | waited _ hopen' => exact proceeds_of_move hx hc hu (if_pos hopen') fun _ => rfl
        | returned => cases hopen
        | raised => cases hopen

/-! ## What others do meanwhile -/

theorem exists_settled_of_isSettled (h : w.isSettled c = true) :
    ∃ call, w.calls[c]? = some call ∧ call.settled = true := by
  unfold isSettled at h
  cases hc : w.calls[c]? with
  | none =>
    rw [hc] at h
    cases h
  | some call =>
    rw [hc] at h
    exact ⟨call, rfl, h⟩

/-- A settled call stays settled. -/
theorem isSettled_act? (h : w.isSettled c = true) (ha : w.act? action = some w') :
    w'.isSettled c = true := by
  obtain ⟨call, hc, hs⟩ := exists_settled_of_isSettled h
  exact (settled_of_run? ((run?_singleton w action).trans ha) hc hs).1

/-- An operation that holds its session does so whatever others do. -/
theorem Reachable.holds_of_foreign (hw : Reachable w) (hx : w.invocations[k]? = some x)
    (h : w.Holds i x) (ho : action.isOf k = false) (ha : w.act? action = some w') :
    w'.invocations[k]? = some x ∧ w'.Holds i x := by
  cases h with
  | building hp hi =>
    refine ⟨((frame_act? ha).invocations hx).resolve_left ?_, .building hp hi⟩
    rw [ho]
    rintro ⟨⟩
  | carrying hp hc hi hu =>
    obtain ⟨b, hb⟩ := InvocationPhase.exists_baton_of_open? hp
    obtain ⟨hx', hc'⟩ := hw.call_of_foreign hx hb hc hu ho ha
    exact ⟨hx', .carrying hp hc' hi hu⟩

/-- A session that an operation holds is busy. -/
theorem Reachable.busy_of_holds (hw : Reachable w) (hx : w.invocations[k]? = some x)
    (h : w.Holds i x) (hs : w.sessions[i]? = some s) : s.busy = true := by
  refine (hw.isSound.of_claims_pos (l := w.ledger) hs ?_).1
  cases h with
  | building hp hi =>
    subst hi
    exact Nat.add_pos_left (building_pos hx hp) _
  | carrying hp hc hi hu =>
    subst hi
    exact Nat.add_pos_right _ (Ledger.unsettled_pos (l := w.ledger) hc hu)

/-! ## After the operation has let its session go -/

/-- **An operation that has failed does nothing more**, but to pass the error on. -/
theorem HasFailed.act? (hx : w.invocations[k]? = some x) (h : w.HasFailed x)
    (ha : w.act? action = some w') :
    (action.isOf k = true → w.KeepsStill w')
      ∧ ∃ x', w'.invocations[k]? = some x' ∧ w'.HasFailed x' := by
  cases ho : action.isOf k with
  | false =>
    have hx' := ((frame_act? ha).invocations hx).resolve_left (by rw [ho]; rintro ⟨⟩)
    refine ⟨by rintro ⟨⟩, x, hx', ?_⟩
    cases h with
    | escaping hp hs => exact .escaping hp (isSettled_act? hs ha)
    | unwinding hp hs => exact .unwinding hp (isSettled_act? hs ha)
    | ended hp => exact .ended hp
  | true =>
    by_cases hne : action = .stepInvocation k
    · subst hne
      unfold Client.act? stepInvocation? at ha
      cases h with
      | escaping hp hs =>
        simp only [hx, hp] at ha
        cases ha
        exact ⟨fun _ => ⟨rfl, rfl⟩, _, getElem?_setInvocation hx _, .unwinding rfl hs⟩
      | @unwinding c e hp hs =>
        obtain ⟨call, hc, hsettled⟩ := exists_settled_of_isSettled hs
        simp only [hx, hp, abandonCall_of_settled hc hsettled] at ha
        cases ha
        exact ⟨fun _ => ⟨rfl, rfl⟩, _, getElem?_setInvocation hx _, .ended rfl⟩
      | ended hp =>
        simp only [hx, hp] at ha
        cases ha
    · obtain ⟨c, drive, drive', hp, rfl, hanswered⟩ := exists_answered hx ho hne ha
      cases h with
      | escaping hp' hs =>
        cases hp.symm.trans hp'
        cases hanswered with
        | waited hopen _ => cases hopen
      | unwinding hp' hs => cases hp.symm.trans hp'
      | ended hp' => cases hp.symm.trans hp'

theorem HasFailed.ownSteps (hx : w.invocations[k]? = some x) (h : w.HasFailed x)
    (hr : w.run? actions = some w') : w.OwnSteps k actions KeepsStill := by
  induction actions generalizing w x with
  | nil => exact OwnSteps.nil
  | cons action rest ih =>
    rw [run?_cons] at hr
    obtain ⟨v, hv, hr⟩ := Option.bind_eq_some_iff.1 hr
    obtain ⟨hstill, x', hx', h'⟩ := h.act? hx hv
    exact OwnSteps.cons hv hstill (ih hx' h' hr)

/-- **An operation that has delivered has delivered for good**, unless its callback raises an
error. -/
theorem isDelivered_act? (hx : w.invocations[k]? = some x) (h : x.phase.isDelivered = true)
    (hraised : ∀ e, action ≠ .returnInvocation k (some e)) (ha : w.act? action = some w') :
    ∃ x', w'.invocations[k]? = some x' ∧ x'.phase.isDelivered = true := by
  cases ho : action.isOf k with
  | false => exact ⟨x, ((frame_act? ha).invocations hx).resolve_left (by rw [ho]; rintro ⟨⟩), h⟩
  | true =>
    by_cases hne : action = .stepInvocation k
    · subst hne
      unfold act? stepInvocation? at ha
      cases hp : x.phase with
      | driving c drive =>
        simp only [hx, hp] at ha
        rw [hp] at h
        cases drive with
        | calling result => cases ha
        | finished result =>
          cases ha
          exact ⟨_, getElem?_setInvocation hx _, rfl⟩
        | resuming fed => cases h
        | inFlight => cases h
        | asleep seconds => cases h
        | failing e => cases h
        | failed e => cases h
      | ended outcome =>
        simp only [hx, hp] at ha
        cases ha
      | asked => rw [hp] at h; cases h
      | claimed => rw [hp] at h; cases h
      | launching c => rw [hp] at h; cases h
      | unwinding c e => rw [hp] at h; cases h
    · obtain ⟨c, drive, drive', hp, rfl, hanswered⟩ := exists_answered hx ho hne ha
      rw [hp] at h
      cases hanswered with
      | waited hopen _ =>
        rw [InvocationPhase.isDelivered_of_isOpen hopen] at h
        cases h
      | returned => exact ⟨_, getElem?_setInvocation hx _, rfl⟩
      | raised => exact absurd rfl (hraised _)

/-- Such an operation ends with no error. -/
theorem not_failed_of_isDelivered (hx : w.invocations[k]? = some x)
    (h : x.phase.isDelivered = true) (hraised : ∀ e, .returnInvocation k (some e) ∉ actions)
    (hr : w.run? actions = some w') : w'.invocationPhase? k ≠ some (.ended (.error e)) := by
  induction actions generalizing w x with
  | nil =>
    cases hr
    intro hend
    unfold invocationPhase? at hend
    rw [hx, Option.map_some] at hend
    rw [Option.some.inj hend] at h
    cases h
  | cons action rest ih =>
    rw [run?_cons] at hr
    obtain ⟨v, hv, hr⟩ := Option.bind_eq_some_iff.1 hr
    obtain ⟨x', hx', h'⟩ := isDelivered_act? hx h
      (fun e he => hraised e (he ▸ List.mem_cons_self)) hv
    exact ih hx' h' (fun e he => hraised e (List.mem_cons_of_mem _ he)) hr

/-- **The course of an operation that fails**, from its claim on. The run comes to a state `u`, in
which it lets its session go by a step of its own, and goes on from the state `u'` after that. -/
structure LetsGo (w : Client Handler) (k i : Nat) (before : List (Action Handler))
    (u u' : Client Handler) (after : List (Action Handler)) (w' : Client Handler) : Prop where
  arrives : w.run? before = some u
  step : u.act? (.stepInvocation k) = some u'
  goesOn : u'.run? after = some w'
  /-- By this step the session is not busy any more and its signal is up, and nothing else becomes
  of it or of any other session; and nothing is to be seen. -/
  released : ∃ t, u.sessions[i]? = some t ∧ t.busy = true
    ∧ u'.sessions = u.sessions.set i { t with busy := false, idle := true }
  unseen : u'.journal = u.journal
  /-- The steps of the operation before it change no session and tell no callback. -/
  quiet : w.OwnSteps k before KeepsQuiet
  /-- Its steps after it change no session, and nothing of them is to be seen. -/
  still : u'.OwnSteps k after KeepsStill
  /-- If the frontend did not drive the call, then nothing of the earlier steps is to be seen
  either, and the call, if there is one, was not begun. -/
  unsent : (∃ c e, u.invocationPhase? k = some (.driving c (.failing e)))
    ∨ w.OwnSteps k before KeepsStill
      ∧ ∀ c e, u.invocationPhase? k = some (.unwinding c e) →
        ∃ call, u.calls[c]? = some call ∧ call.cycle.state.isFresh = true
  /-- The callback of the call, if there is one, is never told anything. -/
  untold : ∀ phase c, u.invocationPhase? k = some phase → phase.open? = some c →
    w'.noticesOf c = []

/-- One more action before the course of an operation that fails, which is none of its own or by
which nothing is to be heard. -/
theorem LetsGo.cons {before after : List (Action Handler)} (h : v.LetsGo k i before u u' after w')
    (ha : w.act? action = some v) (hq : action.isOf k = true → w.KeepsQuiet v)
    (hs : (∃ c e, u.invocationPhase? k = some (.driving c (.failing e)))
      ∨ (action.isOf k = true → w.KeepsStill v)) :
    w.LetsGo k i (action :: before) u u' after w' := by
  refine { h with arrives := ?_, quiet := OwnSteps.cons ha hq h.quiet, unsent := ?_ }
  · rw [run?_cons, ha]
    exact h.arrives
  · rcases h.unsent with hfailing | ⟨hstill, hfresh⟩
    · exact Or.inl hfailing
    · exact hs.imp_right fun hnow => ⟨OwnSteps.cons ha hnow hstill, hfresh⟩

/-- An operation that lets its session go now. -/
theorem Reachable.letsGo_now (hw : Reachable w) (hx : w.invocations[k]? = some x)
    (h : w.Holds i x) (ha : w.act? (.stepInvocation k) = some v)
    (hx' : v.invocations[k]? = some x') (hf : v.HasFailed x') (ht : w.sessions[i]? = some t)
    (hs : v.sessions = w.sessions.set i (t.release none)) (hj : v.journal = w.journal)
    (hd : x.phase.isDriving = true → ∃ c e, x.phase = .driving c (.failing e))
    (hr : v.run? rest = some w') : w.LetsGo k i [] w v rest w' := by
  have hphase : w.invocationPhase? k = some x.phase := by
    unfold invocationPhase?
    rw [hx, Option.map_some]
  refine ⟨rfl, ha, hr, ⟨t, ht, hw.busy_of_holds hx h ht, hs⟩, hj, OwnSteps.nil,
    hf.ownSteps hx' hr, ?_, ?_⟩
  · rw [hphase]
    cases hdriving : x.phase.isDriving with
    | true =>
      obtain ⟨c, e, hp⟩ := hd hdriving
      exact Or.inl ⟨c, e, congrArg some hp⟩
    | false =>
      refine Or.inr ⟨OwnSteps.nil, ?_⟩
      intro c e hp
      have hp := Option.some.inj hp
      cases h with
      | building hp' hi => cases hp.symm.trans hp'
      | @carrying d call hopen hc hi hu =>
        rw [hp] at hopen
        cases hopen
        have hmem : (c, Baton.unwinding) ∈ w.batons := by
          refine mem_batons_iff.2 (Or.inr (Or.inl ⟨x, List.mem_of_getElem? hx, ?_⟩))
          rw [hp]
          rfl
        rcases hw.isBeginning c _ call hmem hc with hsettled | hfresh
        · rw [hu] at hsettled
          cases hsettled
        · exact ⟨call, hc, hfresh⟩
  · intro phase c hp hopen
    obtain rfl := Option.some.inj (hphase.symm.trans hp)
    cases h with
    | building hp' hi =>
      rw [hp'] at hopen
      cases hopen
    | @carrying d call hopen' hc hi hu =>
      obtain rfl := Option.some.inj (hopen.symm.trans hopen')
      have htold : v.noticesOf c = [] := by
        have hnotices : v.ledger.notices = w.ledger.notices :=
          congrArg (List.filterMap Event.notice?) hj
        unfold noticesOf Ledger.noticesOf
        rw [hnotices]
        exact hw.noticesOf_eq_nil hc hu
      -- The session is not busy any more, so no call of it is left that is not settled.
      obtain ⟨call', hc', same⟩ :=
        exists_same_of_run? ((run?_singleton w (.stepInvocation k)).trans ha) hc
      have hfree : v.sessions[call'.session]? = some (t.release none) := by
        rw [hs, same.session, hi, List.getElem?_set_self (List.getElem?_eq_some_iff.1 ht).1]
      have hsettled : call'.settled = true := by
        by_contra hne
        have hv : Reachable v := hw.act _ trivial ha
        have hzero := hv.isSound.claims_eq_zero (l := v.ledger) hfree rfl
        have hpos := Ledger.unsettled_pos (l := v.ledger) hc' (Bool.eq_false_iff.2 hne)
        unfold Ledger.claims at hzero
        omega
      exact (settled_of_run? hr hc' hsettled).2.trans htold

/-- **An operation that holds its session and ends with an error lets the session go.** -/
theorem Reachable.exists_letsGo (hw : Reachable w) (hx : w.invocations[k]? = some x)
    (h : w.Holds i x) (hr : w.run? actions = some w')
    (hend : w'.invocationPhase? k = some (.ended (.error e)))
    (hraised : ∀ e, .returnInvocation k (some e) ∉ actions) :
    ∃ before u u' after, actions = before ++ .stepInvocation k :: after
      ∧ w.LetsGo k i before u u' after w'
      ∧ (x.phase.isDriving = true →
        ∃ c e, u.invocationPhase? k = some (.driving c (.failing e))) := by
  induction actions generalizing w x with
  | nil =>
    cases hr
    unfold invocationPhase? at hend
    rw [hx, Option.map_some] at hend
    have hp := Option.some.inj hend
    cases h with
    | building hp' hi => cases hp.symm.trans hp'
    | carrying hopen hc hi hu =>
      rw [hp] at hopen
      cases hopen
  | cons action rest ih =>
    rw [run?_cons] at hr
    obtain ⟨v, hv, hrun⟩ := Option.bind_eq_some_iff.1 hr
    have hlater : ∀ e, .returnInvocation k (some e) ∉ rest :=
      fun e he => hraised e (List.mem_cons_of_mem _ he)
    have hw' : Reachable v := hw.act action trivial hv
    cases ho : action.isOf k with
    | false =>
      obtain ⟨hx', h'⟩ := hw.holds_of_foreign hx h ho hv
      obtain ⟨before, u, u', after, rfl, hgo, hd⟩ := ih hw' hx' h' hrun hlater
      refine ⟨action :: before, u, u', after, rfl, hgo.cons hv ?_ (Or.inr ?_), hd⟩
      · rw [ho]
        rintro ⟨⟩
      · rw [ho]
        rintro ⟨⟩
    | true =>
      cases hw.proceeds hx h ho hv with
      | goesOn hx' h' hq hs hd' =>
        obtain ⟨before, u, u', after, rfl, hgo, hd⟩ := ih hw' hx' h' hrun hlater
        refine ⟨action :: before, u, u', after, rfl, hgo.cons hv (fun _ => hq) ?_,
          fun hdriving => hd (hd' hdriving)⟩
        cases hdriving : x.phase.isDriving with
        | true => exact Or.inl (hd (hd' hdriving))
        | false => exact Or.inr fun _ => hs hdriving
      | fails hx' hf ha ht hs hj hd =>
        subst ha
        refine ⟨[], w, v, rest, rfl, hw.letsGo_now hx h hv hx' hf ht hs hj hd hrun, ?_⟩
        intro hdriving
        obtain ⟨c, e, hp⟩ := hd hdriving
        exact ⟨c, e, by unfold invocationPhase?; rw [hx, Option.map_some, hp]⟩
      | delivers hx' hd =>
        exact absurd hend (not_failed_of_isDelivered hx' hd hlater hrun)

/-- A session that nobody changes is the same at the end of a run. -/
theorem session_of_undisturbed (hown : w.OwnSteps k actions KeepsQuiet)
    (hothers : ∀ u action u', w.Occurs actions u action u' → action.isOf k = false →
      u'.sessions[i]? = u.sessions[i]?) (hr : w.run? actions = some w') :
    w'.sessions[i]? = w.sessions[i]? := by
  induction actions generalizing w with
  | nil =>
    cases hr
    rfl
  | cons action rest ih =>
    rw [run?_cons] at hr
    obtain ⟨v, hv, hrun⟩ := Option.bind_eq_some_iff.1 hr
    have hfirst : v.sessions[i]? = w.sessions[i]? := by
      cases ho : action.isOf k with
      | true => rw [(hown (.now hv) ho).sessions]
      | false => exact hothers w action v (.now hv) ho
    refine (ih ?_ (fun u a u' h => hothers u a u' (.later hv h)) hrun).trans hfirst
    intro u a u' h
    exact hown (.later hv h)

/-- A session that nobody else touches is what it was before the operation. -/
theorem LetsGo.session_of_undisturbed {before after : List (Action Handler)}
    (h : v.LetsGo k i before u u' after w')
    (hs : v.sessions[i]? = some { s with busy := true, idle := false }) (hfree : s.busy = false)
    (hidle : s.idle = true)
    (hothers : ∀ y action y', v.Occurs (before ++ .stepInvocation k :: after) y action y' →
      action.isOf k = false → y'.sessions[i]? = y.sessions[i]?) :
    w'.sessions[i]? = some s := by
  obtain ⟨t, ht, -, hreleased⟩ := h.released
  have hheld : u.sessions[i]? = v.sessions[i]? :=
    Client.session_of_undisturbed h.quiet
      (fun y action y' ho => hothers y action y' (ho.append_left _)) h.arrives
  have hrest : w'.sessions[i]? = u'.sessions[i]? := by
    refine Client.session_of_undisturbed (fun ho hown => (h.still ho hown).keepsQuiet) ?_ h.goesOn
    intro y action y' ho
    exact hothers y action y' (.append_right h.arrives (.later h.step ho))
  obtain rfl := Option.some.inj (ht.symm.trans (hheld.trans hs))
  rw [hrest, hreleased, List.getElem?_set_self (List.getElem?_eq_some_iff.1 ht).1]
  cases s
  subst hfree hidle
  rfl

/-- What an operation does that finds its session open and free. -/
theorem claimed_of_stepInvocation? (hs : w.sessions[i]? = some s) (hopen : s.closed = false)
    (hfree : s.busy = false) (hx : w.invocations[k]? = some x) (hi : x.session = i)
    (hp : x.phase = .asked) :
    w.act? (.stepInvocation k)
      = some ((w.setSession i { s with busy := true, idle := false }).setInvocation k
        .claimed) := by
  subst hi
  show w.stepInvocation? k = _
  rw [stepInvocation?_of_asked hx hp]
  unfold claimFor?
  rw [hs, Option.map_some, (Session.claim_eq_ok_iff s _).2 ⟨hopen, hfree, rfl⟩]

/-- **A failure leaves no trace.** Let an operation claim its session, which is open and not busy,
and end with an error that is none of its callback, whatever else goes on meanwhile. Then its claim
raises the flag of the session and does nothing else, and there is one step of its own by which it
lets the session go (`LetsGo`):

* that step lowers the flag, puts the signal up, and does nothing else to that session or another;
* neither before nor after it does the operation change any session or tell any callback anything,
  and its own callback is never told anything;
* unless it was the frontend that drove its call, nothing was to be seen of it, so it sent nothing;
* if nobody else touched the session in the meantime, then the session is exactly what it was: free,
  its signal up, with the same cursor, last result, profile and policy.

A change of a setting that is refused leaves everything as it is. -/
theorem Reachable.failure_leaves_no_trace (hw : Reachable w) (hs : w.sessions[i]? = some s)
    (hopen : s.closed = false) (hfree : s.busy = false) (hx : w.invocations[k]? = some x)
    (hi : x.session = i) (hp : x.phase = .asked)
    (hr : w.run? (.stepInvocation k :: actions) = some w')
    (hend : w'.invocationPhase? k = some (.ended (.error e)))
    (hraised : ∀ e', .returnInvocation k (some e') ∉ actions) :
    (∃ v before u u' after, w.act? (.stepInvocation k) = some v
      ∧ v.sessions = w.sessions.set i { s with busy := true, idle := false }
      ∧ v.journal = w.journal
      ∧ actions = before ++ .stepInvocation k :: after
      ∧ v.LetsGo k i before u u' after w'
      ∧ ((∀ y action y', v.Occurs actions y action y' → action.isOf k = false →
          y'.sessions[i]? = y.sessions[i]?) →
        w'.sessions[i]? = some s))
    ∧ s.idle = true
    ∧ ∀ j change e', (w.changeSetting j change).1 = .error e' →
        (w.changeSetting j change).2 = w := by
  have hidle : s.idle = true := by
    rw [hw.isSound.idle i s hs, hfree]
    rfl
  have hclaim := claimed_of_stepInvocation? hs hopen hfree hx hi hp
  rw [run?_cons, hclaim] at hr
  have hlt := (List.getElem?_eq_some_iff.1 hs).1
  refine ⟨?_, hidle, ?_⟩
  · obtain ⟨before, u, u', after, rfl, hgo, -⟩ :=
      Reachable.exists_letsGo (hw.act _ trivial hclaim)
        (getElem?_setInvocation (w := w.setSession i _) hx _) (.building rfl hi) hr hend hraised
    exact ⟨_, before, u, u', after, hclaim, rfl, rfl, rfl, hgo,
      hgo.session_of_undisturbed (List.getElem?_set_self hlt) hfree hidle⟩
  · intro j change e' herror
    rcases w.changeSetting_cases j change with hkept | ⟨s', t, -, -, heq⟩
    · exact hkept
    · rw [heq] at herror
      cases herror

/-- An operation is asked for on a new session. -/
def oneQuery : List (Action Unit) :=
  [.openSession ⟨.null, .null, .null, .null, false⟩ "u", .ask 0 .time .null none]

/-- Its first attempt is not answered in time, and an error escapes from the second one. -/
def escapingRetry : List (Action Unit) :=
  [.stepInvocation 0, .stepInvocation 0, .stepInvocation 0,
    .answerInvocation 0 (.ok (.failure .timeout none)), .stepInvocation 0, .wakeInvocation 0,
    .stepInvocation 0, .answerInvocation 0 (.error (.network "InvalidURL" "bad")),
    .stepInvocation 0, .stepInvocation 0, .stepInvocation 0]

/-- A blocking client on which a query was asked for. -/
def askedQuery : Client Unit :=
  let w := initial (Configuration.initial ⟨[]⟩ none) [] (Frontend.borrowing .blocking)
  (w.run? oneQuery).getD w

theorem reachable_askedQuery : Reachable askedQuery :=
  have hrun : (initial (Configuration.initial ⟨[]⟩ none) [] (Frontend.borrowing .blocking)).run?
      oneQuery = some askedQuery := rfl
  ReachableBy.run (.initial _ [] (Frontend.borrowing .blocking)) (fun _ _ => trivial) hrun

/-- Was it an error that the operation ended with? -/
def InvocationPhase.isError : InvocationPhase → Bool
  | .ended (.error _) => true
  | _ => false

/-- A query whose retry fails leaves its session as it was, although it sent two requests. -/
theorem failure_leaves_no_trace_escapingRetry :
    ∃ (w : Client Unit) (s : Session) (e : Error), askedQuery.sessions[0]? = some s
      ∧ askedQuery.run? (.stepInvocation 0 :: escapingRetry) = some w
      ∧ w.invocationPhase? 0 = some (.ended (.error e))
      ∧ w.journal.countP (fun event => match event with
        | .sent _ => true
        | _ => false) = 2
      ∧ w.sessions[0]? = some s ∧ s.busy = false ∧ s.idle = true := by
  have hfacts : (askedQuery.run? (.stepInvocation 0 :: escapingRetry)).any (fun w =>
      (w.invocationPhase? 0).any InvocationPhase.isError
        && w.journal.countP (fun event => match event with
          | .sent _ => true
          | _ => false) == 2) = true := by
    decide +kernel
  obtain ⟨w, hr, hfacts⟩ := (Option.any_eq_true _ _).1 hfacts
  simp only [Option.any_eq_true, Bool.and_eq_true, beq_iff_eq] at hfacts
  obtain ⟨⟨phase, hphase, herror⟩, hsent⟩ := hfacts
  obtain ⟨e, rfl⟩ : ∃ e, phase = .ended (.error e) := by
    unfold InvocationPhase.isError at herror
    split at herror
    · exact ⟨_, rfl⟩
    · cases herror
  obtain ⟨⟨v, before, u, u', after, -, -, -, -, -, hsame⟩, hidle, -⟩ :=
    reachable_askedQuery.failure_leaves_no_trace (i := 0) (k := 0) rfl rfl rfl rfl rfl rfl hr hphase
      (by intro e h; simp [escapingRetry] at h)
  refine ⟨w, _, e, rfl, hr, hphase, hsent, hsame ?_, rfl, hidle⟩
  -- Nobody else does anything in this run.
  intro y action y' ho hforeign
  have hown : action.isOf 0 = true := by
    have hmem := ho.mem
    simp only [escapingRetry, List.mem_cons, List.not_mem_nil, or_false] at hmem
    rcases hmem with rfl | rfl | rfl | rfl | rfl | rfl | rfl | rfl | rfl | rfl | rfl <;> rfl
  rw [hown] at hforeign
  cases hforeign

end Client

end Pubsub
