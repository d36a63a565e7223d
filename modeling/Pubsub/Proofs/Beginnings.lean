import Pubsub.Proofs.Courses
import Pubsub.Proofs.Frames

/-!
# Calls that were not begun

The cycle of a call is **fresh** until its first request is to be sent. Whoever has a call before
that, the operation that made it or a task that was not run yet, finds its cycle fresh; so does an
operation whose call the frontend refused, and a task that was cancelled before its first step,
unless the call was settled. Attempts are made for calls that were begun.

An operation that has an unsettled call is therefore the only one who can do anything to it
(`Client.Reachable.not_handles`): no other holder of its baton exists, and if the call was not begun
there are no attempts for it either, whose workers might abandon it.
-/

namespace Pubsub

variable {Handler : Type}

/-- Was nothing sent yet? -/
def CycleState.isFresh : CycleState → Bool
  | fresh => true
  | _ => false

/-- A cycle whose request was sent was begun. -/
theorem CycleState.isFresh_of_isSent {state : CycleState} (h : state.isSent = true) :
    state.isFresh = false := by
  cases state <;> first | rfl | cases h

/-- A step of a cycle begins it. -/
theorem Cycle.isFresh_of_resume? {cycle : Cycle} {cursor : Cursor} {now : Binary64}
    {fed : Option Outcome} {step : CycleStep} (h : cycle.resume? cursor now fed = some step) :
    step.cycle.state.isFresh = false := by
  rcases Cycle.resume?_eq_some h with ⟨-, start, rfl⟩ | ⟨start, outcome, -, -, rfl⟩
  · rfl
  · unfold Cycle.afterOutcome
    split
    · rfl
    · split
      · split <;> rfl
      · dsimp only
        split
        · rfl
        · split <;> rfl

/-! ## Batons of calls that were not begun -/

namespace Baton

/-- If the holder of the baton is one who has not begun the call, then the cycle of the call is
fresh, or the call is settled and nothing is left to be begun. -/
def Begins (call : Call Handler) : Baton → Prop
  | launching => call.cycle.state.isFresh = true
  | unstarted => call.cycle.state.isFresh = true
  | unwinding => call.settled = true ∨ call.cycle.state.isFresh = true
  | driven (.failed _) => call.settled = true ∨ call.cycle.state.isFresh = true
  | _ => True

theorem Begins.settle {call : Call Handler} {b : Baton} (h : b.Begins call) :
    b.Begins { call with settled := true } := by
  cases b with
  | unwinding => exact Or.inl rfl
  | driven drive => cases drive <;> first | exact trivial | exact Or.inl rfl
  | _ => exact h

/-- Whoever gets a call before it is begun gets it from one who has not begun it. -/
theorem Passes.begins {kind : FrontendKind} {call : Call Handler} {event : Option CallEvent}
    {b b' : Baton} (h : b.Passes kind event b') (hf : b.Fits kind call) (hb : b.Begins call) :
    b'.Begins call := by
  cases h with
  | enlisting hk => exact hb
  | refused => exact Or.inr hb
  | cancelled => exact Or.inr hb
  | raised => exact Or.inl hf.2
  | escaped => exact hb
  | _ => exact trivial

/-- Whoever has a call that was not begun knows it. -/
theorem isPassedOn_begins (kind : FrontendKind) :
    IsPassedOn kind (Begins : Call Handler → Baton → Prop) where
  settle := Begins.settle
  start i request policy callback := rfl
  passes := Passes.begins
  continues h := by cases h <;> trivial
  abandons h hs := by
    cases h
    exact Or.inl hs
  timed call n := trivial
  awaiting call a := trivial
  advancing call fed := trivial

end Baton

/-- On a reactor an operation has only calls that were not begun, and settled ones. -/
theorem InvocationPhase.isFresh_of_baton? {phase : InvocationPhase} {c : Nat} {b : Baton}
    {call : Call Handler} (hp : phase.baton? = some (c, b)) (hf : b.Fits .reactor call)
    (hb : b.Begins call) (hu : call.settled = false) : call.cycle.state.isFresh = true := by
  cases phase with
  | launching d =>
    cases hp
    exact hb
  | driving d drive =>
    cases hp
    exact absurd rfl hf.1
  | unwinding d e =>
    cases hp
    rcases hb with hsettled | hfresh
    · rw [hu] at hsettled
      cases hsettled
    · exact hfresh
  | asked => cases hp
  | claimed => cases hp
  | ended outcome => cases hp

namespace Relay

variable {clearing : Prop} {r r' : Relay Handler} {event : Option (Nat × CallEvent)} {c : Nat}
  {call : Call Handler}

/-- A call that somebody has who has not begun it is fresh, or settled. -/
def IsBeginning (r : Relay Handler) : Prop :=
  ∀ (c : Nat) (b : Baton) (call : Call Handler), (c, b) ∈ r.batons → r.calls[c]? = some call →
    b.Begins call

/-- **Every move leaves the calls that were not begun with those who have not begun them.** -/
theorem IsBeginning.move (h : r.IsBeginning) (hs : r.IsSound) (hm : Move clearing r event r') :
    r'.IsBeginning :=
  HoldersKnow.move h (Baton.isPassedOn_begins r.kind) hs hm

/-- **A call that was begun stays so.** -/
theorem Move.exists_begun (hm : Move clearing r event r') (hc : r.calls[c]? = some call)
    (hb : call.cycle.state.isFresh = false) :
    ∃ call', r'.calls[c]? = some call' ∧ call'.cycle.state.isFresh = false := by
  have hset : ∀ {d : Nat} {old call' : Call Handler}, r.calls[d]? = some old →
      (old.cycle.state.isFresh = false → call'.cycle.state.isFresh = false) →
      ∃ call'', (r.calls.set d call')[c]? = some call'' ∧ call''.cycle.state.isFresh = false := by
    intro d old call' hd hbegun
    by_cases hdc : d = c
    · subst hdc
      obtain rfl := Option.some.inj (hd.symm.trans hc)
      exact ⟨call', List.getElem?_set_self (List.getElem?_eq_some_iff.1 hc).1, hbegun hb⟩
    · exact ⟨call, (List.getElem?_set_ne hdc).trans hc, hb⟩
  cases hm with
  | accepted hi request policy callback =>
    have hlt := (List.getElem?_eq_some_iff.1 hc).1
    exact ⟨call, (List.getElem?_append_left hlt).trans hc, hb⟩
  | abandoned _ hd _ => exact hset hd id
  | declined _ _ _ _ _ hd => exact hset hd id
  | refused _ _ _ hd => exact hset hd id
  | resumed now _ hd _ _ hr _ => exact hset hd fun _ => Cycle.isFresh_of_resume? hr
  | _ => exact ⟨call, hc, hb⟩

end Relay

namespace Client

variable {w w' : Client Handler} {c k : Nat} {b : Baton} {call : Call Handler}
  {v : Invocation Handler} {action : Action Handler}

/-! ## In reachable states -/

theorem Reachable.isBeginning (h : Reachable w) : w.relay.IsBeginning := by
  induction h with
  | initial config fresh frontend =>
    intro c b call hb
    exact absurd hb (Multiset.notMem_zero _)
  | act action hw _ ha ih =>
    have hw := ReachableBy.reachable hw
    exact ih.move hw.isSound_relay.1 (hw.move_act? ha)

/-- **Attempts are made on a reactor, for calls that were begun.** -/
theorem Reachable.begun_of_attempt (h : Reachable w) {attempt : Attempt}
    (ha : attempt ∈ w.attempts) :
    w.frontend.kind = .reactor
      ∧ ∃ call, w.calls[attempt.call]? = some call ∧ call.cycle.state.isFresh = false := by
  induction h generalizing attempt with
  | initial config fresh frontend => cases ha
  | @act w w' action hw _ hact ih =>
    have hw := ReachableBy.reachable hw
    have hm := hw.move_act? hact
    have hkind : w'.frontend.kind = w.frontend.kind := hm.kind_eq
    rcases (frame_act? hact).attempts ha with harming | ⟨old, hold, hcall⟩
    · -- The reactor was about to make the attempt, so the request of the call was to be sent.
      obtain ⟨call, hc, hk, hsent⟩ :=
        hw.isSound_relay.1.carried.fits (mem_batons_iff.2 (Or.inl (by rw [harming]; rfl)))
      exact ⟨hkind.trans hk, hm.exists_begun hc (CycleState.isFresh_of_isSent hsent)⟩
    · obtain ⟨hk, call, hc, hbegun⟩ := ih hold
      rw [hcall] at hc
      exact ⟨hkind.trans hk, hm.exists_begun hc hbegun⟩

/-! ## Whose call it is -/

/-- Nobody else holds the baton of a call that an invocation holds. -/
theorem Reachable.not_mem_batons_of_moved (hw : Reachable w) (hv : w.invocations[k]? = some v)
    (hb : v.phase.baton? = some (c, b)) (b' : Baton) :
    (c, b') ∉ (w.setInvocation k .asked).batons := by
  obtain ⟨rest, hbefore, hafter⟩ := exists_batons_setInvocation hv
  rw [hb] at hbefore
  obtain ⟨hcarried, -, -⟩ := hw.isSound_relay.1.take hbefore
  rw [hafter .asked]
  intro hmem
  rcases Multiset.mem_add.1 hmem with hmem | hmem
  · cases hmem
  · exact hcarried.ne_of_mem hmem rfl

/-- **Nobody else does anything to the unsettled call of an operation.** -/
theorem Reachable.not_handles (hw : Reachable w) (hv : w.invocations[k]? = some v)
    (hb : v.phase.baton? = some (c, b)) (hc : w.calls[c]? = some call)
    (hu : call.settled = false) (ha : action.isOf k = false) : ¬ w.Handles action c := by
  have halone := hw.not_mem_batons_of_moved hv hb
  -- There is no attempt for the call: it is driven by a thread, or was not begun.
  have hunsent : ∀ {a : Nat} {attempt : Attempt}, w.attempts[a]? = some attempt →
      attempt.call ≠ c := by
    rintro a attempt hattempt rfl
    obtain ⟨hk, call', hc', hbegun⟩ := hw.begun_of_attempt (List.mem_of_getElem? hattempt)
    obtain rfl := Option.some.inj (hc.symm.trans hc')
    have hmem : (attempt.call, b) ∈ w.batons :=
      mem_batons_iff.2 (Or.inr (Or.inl ⟨v, List.mem_of_getElem? hv, hb⟩))
    obtain ⟨call', hc', hfits⟩ := hw.isSound_relay.1.carried.fits hmem
    obtain rfl := Option.some.inj (hc.symm.trans hc')
    have hfresh := InvocationPhase.isFresh_of_baton? hb (hk ▸ hfits)
      (hw.isBeginning _ b call hmem hc) hu
    rw [hbegun] at hfresh
    cases hfresh
  intro hh
  cases hh with
  | @invocation j _ other b' ho hb' =>
    have hne : k ≠ j := by
      rintro rfl
      rw [show Action.isOf k (.stepInvocation k) = true from beq_self_eq_true k] at ha
      cases ha
    refine halone b' (mem_batons_iff.2 (Or.inr (Or.inl ⟨other, List.mem_of_getElem? (i := j) ?_,
      hb'⟩)))
    show (w.invocations.modify k _)[j]? = some other
    rw [List.getElem?_modify_ne _ _ hne]
    exact ho
  | @task t task ht =>
    obtain ⟨b', hb'⟩ : ∃ b', task.baton? = some (task.call, b') := by
      unfold LoopTask.baton?
      split <;> exact ⟨_, rfl⟩
    exact halone b' (mem_batons_iff.2 (Or.inr (Or.inr (Or.inl
      ⟨task, List.mem_of_getElem? (i := t) ht, hb'⟩))))
  | @reactor _ b' hb' => exact halone b' (mem_batons_iff.2 (Or.inl hb'))
  | pool _ hattempt => exact hunsent hattempt rfl
  | worker hattempt => exact hunsent hattempt rfl

/-- The unsettled call of an operation stays as it is while others act. -/
theorem Reachable.call_of_foreign (hw : Reachable w) (hv : w.invocations[k]? = some v)
    (hb : v.phase.baton? = some (c, b)) (hc : w.calls[c]? = some call)
    (hu : call.settled = false) (ha : action.isOf k = false) (h : w.act? action = some w') :
    w'.invocations[k]? = some v ∧ w'.calls[c]? = some call := by
  have hframe := frame_act? h
  refine ⟨?_, (hframe.calls hc).resolve_left (hw.not_handles hv hb hc hu ha)⟩
  rcases hframe.invocations hv with hown | hkept
  · rw [ha] at hown
    cases hown
  · exact hkept

end Client

end Pubsub
