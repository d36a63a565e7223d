import Pubsub.Proofs.Batons
import Pubsub.Proofs.CycleSteps

/-!
# How batons are passed on

Whoever holds a baton expects the call to stand somewhere: its cycle waits for an outcome where one
is awaited, and it is paused where a timer is. `Baton.Fits` says where. A baton is **passed on**
while the cycle is left alone (`Baton.Passes`), it **continues** after a step of the cycle
(`Baton.Continues`), and it is **abandoned** with its call (`Baton.Abandons`). Each of these leaves
the call where the next holder expects it.
-/

namespace Pubsub

variable {Handler : Type}

/-! ## Where the cycle of a call stands -/

namespace CycleState

/-- Was a request sent, and is its outcome awaited? -/
def isSent : CycleState → Bool
  | sent _ => true
  | _ => false

/-- Is a retry being waited for? -/
def isPaused : CycleState → Bool
  | paused _ => true
  | _ => false

/-- Can the cycle be resumed with this? -/
def takes : CycleState → Option Outcome → Bool
  | fresh, none => true
  | paused _, none => true
  | sent _, some _ => true
  | _, _ => false

/-- A cycle that waits for an outcome can be resumed with any. -/
theorem takes_of_isSent {state : CycleState} (h : state.isSent = true) (outcome : Outcome) :
    state.takes (some outcome) = true := by
  cases state <;> first | rfl | cases h

theorem takes_of_isPaused {state : CycleState} (h : state.isPaused = true) :
    state.takes none = true := by
  cases state <;> first | rfl | cases h

end CycleState

/-- A cycle has a step exactly if it can be resumed. -/
theorem Cycle.isSome_resume? (cycle : Cycle) (cursor : Cursor) (now : Binary64)
    (fed : Option Outcome) : (cycle.resume? cursor now fed).isSome = cycle.state.takes fed := by
  unfold Cycle.resume? CycleState.takes
  split <;> simp_all

/-- A cycle that asks for a request to be sent then waits for the outcome. -/
theorem Cycle.isSent_of_resume? {cycle : Cycle} {cursor : Cursor} {now : Binary64}
    {fed : Option Outcome} {step : CycleStep} (h : cycle.resume? cursor now fed = some step)
    (he : step.effect = .send) : step.cycle.state.isSent = true := by
  rcases Cycle.resume?_eq_some h with ⟨-, start, rfl⟩ | ⟨start, outcome, -, -, rfl⟩
  · rfl
  · unfold Cycle.afterOutcome at he ⊢
    split at he
    · cases he
    · split at he
      · split at he <;> cases he
      · dsimp only at he ⊢
        split at he
        · cases he
        · split at he
          · cases he
          · simp_all [CycleState.isSent]

/-- A cycle that asks for a wait is then paused. -/
theorem Cycle.isPaused_of_resume? {cycle : Cycle} {cursor : Cursor} {now : Binary64}
    {fed : Option Outcome} {step : CycleStep} (h : cycle.resume? cursor now fed = some step)
    {seconds : Binary64} (he : step.effect = .sleep seconds) :
    step.cycle.state.isPaused = true := by
  rcases Cycle.resume?_eq_some h with ⟨-, start, rfl⟩ | ⟨start, outcome, -, -, rfl⟩
  · cases he
  · unfold Cycle.afterOutcome at he ⊢
    split at he
    · cases he
    · split at he
      · split at he <;> cases he
      · dsimp only at he ⊢
        split at he
        · cases he
        · split at he
          · simp_all [CycleState.isPaused]
          · cases he

/-- Does the call stand where the drive expects it? -/
def Drive.Fits (call : Call Handler) : Drive → Prop
  | .resuming fed => call.cycle.state.takes fed = true
  | .inFlight => call.cycle.state.isSent = true
  | .asleep _ => call.cycle.state.isPaused = true
  | .calling _ => call.settled = true
  | .failing _ => True
  | .finished _ => call.settled = true
  | .failed _ => True

/-- Will the drive go on with the cycle? -/
def Drive.isLive : Drive → Bool
  | .resuming _ => true
  | .inFlight => true
  | .asleep _ => true
  | _ => false

namespace Baton

/-- Does the call stand where the holder of the baton expects it? And is the holder one that there
is with a frontend of this kind? -/
def Fits (kind : FrontendKind) (call : Call Handler) : Baton → Prop
  | launching => call.cycle.state.takes none = true
  | unwinding => True
  | unstarted => kind ≠ .reactor ∧ call.cycle.state.takes none = true
  | driven drive => kind ≠ .reactor ∧ drive.Fits call
  | queued => kind = .reactor ∧ call.cycle.state.takes none = true
  | advancing fed => kind = .reactor ∧ call.cycle.state.takes fed = true
  | arming => kind = .reactor ∧ call.cycle.state.isSent = true
  | pausing => kind = .reactor ∧ call.cycle.state.isPaused = true
  | awaiting _ => kind = .reactor ∧ call.cycle.state.isSent = true
  | timed _ => kind = .reactor ∧ call.cycle.state.isPaused = true

/-- Will the holder of the baton go on with the cycle? -/
def isLive : Baton → Bool
  | unwinding => false
  | driven drive => drive.isLive
  | _ => true

/-- The cycle that the holder of a baton goes on with has not ended. -/
theorem Fits.ne_ended {kind : FrontendKind} {call : Call Handler} {b : Baton}
    (h : b.Fits kind call) (hl : b.isLive = true) : call.cycle.state ≠ .ended := by
  intro he
  cases b with
  | driven drive => cases drive <;> simp_all [Fits, Drive.Fits, isLive, Drive.isLive,
      CycleState.takes, CycleState.isSent, CycleState.isPaused]
  | _ => simp_all [Fits, isLive, CycleState.takes, CycleState.isSent, CycleState.isPaused]

/-- The holder of a baton may find its call settled. -/
theorem Fits.settle {kind : FrontendKind} {call : Call Handler} {b : Baton}
    (h : b.Fits kind call) : b.Fits kind { call with settled := true } := by
  cases b with
  | driven drive =>
    obtain ⟨hk, hd⟩ := h
    refine ⟨hk, ?_⟩
    cases drive <;> first | exact hd | rfl
  | _ => exact h

/-! ## What becomes of a baton -/

/-- How a baton is passed on while the cycle of its call is left alone, with the event that this is,
if it is one. -/
inductive Passes (kind : FrontendKind) : Baton → Option CallEvent → Baton → Prop where
  | driving (hk : kind = .blocking) : Passes kind launching none (driven (.resuming none))
  | enlisting (hk : kind = .eventLoop) : Passes kind launching none unstarted
  | queueing (hk : kind = .reactor) : Passes kind launching none queued
  | refused : Passes kind launching none unwinding
  | begun : Passes kind unstarted none (driven (.resuming none))
  | cancelled {e : Error} : Passes kind unstarted none (driven (.failed e))
  | answered {outcome : Outcome} :
      Passes kind (driven .inFlight) none (driven (.resuming (some outcome)))
  | rested {seconds : Binary64} :
      Passes kind (driven (.asleep seconds)) none (driven (.resuming none))
  | broken {drive : Drive} {e : Error} : Passes kind (driven drive) none (driven (.failing e))
  | returned {result : Result} :
      Passes kind (driven (.calling result)) none (driven (.finished result))
  | raised {result : Result} {e : Error} :
      Passes kind (driven (.calling result)) none (driven (.failed e))
  | escaped {e : Error} : Passes kind (driven (.failed e)) none unwinding
  | started : Passes kind queued (some .started) (advancing none)
  | woken {n : Nat} : Passes kind (timed n) (some (.woken n)) (advancing none)

/-- Is the cycle about to be resumed with this? -/
inductive Resumes (fed : Option Outcome) : Baton → Prop where
  | driven : Resumes fed (driven (.resuming fed))
  | advancing : Resumes fed (advancing fed)

/-- Where a baton goes after a step of the cycle with some effect. Was the call settled before, and
is it settled now? -/
inductive Continues : Baton → Effect → Bool → Bool → Option Baton → Prop where
  | sent {fed : Option Outcome} {settled : Bool} :
      Continues (driven (.resuming fed)) .send settled settled (some (driven .inFlight))
  | asleep {fed : Option Outcome} {seconds : Binary64} {settled : Bool} :
      Continues (driven (.resuming fed)) (.sleep seconds) settled settled
        (some (driven (.asleep seconds)))
  /-- The connections are closed, or the cycle raised an error, or the call was settled before. -/
  | broken {fed : Option Outcome} {effect : Effect} {settled : Bool} {e : Error} :
      Continues (driven (.resuming fed)) effect settled settled (some (driven (.failing e)))
  | told {fed : Option Outcome} {result : Result} {settled : Bool} :
      Continues (driven (.resuming fed)) (.finish result) settled true
        (some (driven (.calling result)))
  | finished {fed : Option Outcome} {result : Result} {settled : Bool} :
      Continues (driven (.resuming fed)) (.finish result) settled true
        (some (driven (.finished result)))
  | arming {fed : Option Outcome} {settled : Bool} :
      Continues (advancing fed) .send settled settled (some arming)
  | pausing {fed : Option Outcome} {seconds : Binary64} {settled : Bool} :
      Continues (advancing fed) (.sleep seconds) settled settled (some pausing)
  /-- The call is completed or abandoned, if it was not settled before. -/
  | ended {fed : Option Outcome} {effect : Effect} {settled : Bool} :
      Continues (advancing fed) effect settled true none

/-- How a baton is dropped, or kept for no more than the error, when its holder abandons the
call. The reactor does so if it was stopped. -/
inductive Abandons (stopped : Bool) : Baton → Option Baton → Prop where
  | arming (hs : stopped = true) : Abandons stopped arming none
  | pausing (hs : stopped = true) : Abandons stopped pausing none
  | unwinding : Abandons stopped unwinding none
  | failing {e : Error} : Abandons stopped (driven (.failing e)) (some (driven (.failed e)))

/-- Is it the baton of an attempt whose outcome is awaited? -/
def isAwaiting : Baton → Bool
  | awaiting _ => true
  | _ => false

/-- Is it the baton of a timer? -/
def isTimed : Baton → Bool
  | timed _ => true
  | _ => false

section Becoming

variable {kind : FrontendKind} {call : Call Handler} {event : Option CallEvent} {b b' : Baton}

/-- A baton is passed to hands that expect the call where it stands. -/
theorem Passes.fits (h : Passes kind b event b') (hb : b.Fits kind call) : b'.Fits kind call := by
  cases h with
  | driving hk => exact ⟨by simp [hk], hb⟩
  | enlisting hk => exact ⟨by simp [hk], hb⟩
  | queueing hk => exact ⟨hk, hb⟩
  | refused => trivial
  | begun => exact hb
  | cancelled => exact ⟨hb.1, trivial⟩
  | answered => exact ⟨hb.1, CycleState.takes_of_isSent hb.2 _⟩
  | rested => exact ⟨hb.1, CycleState.takes_of_isPaused hb.2⟩
  | broken => exact ⟨hb.1, trivial⟩
  | returned => exact hb
  | raised => exact ⟨hb.1, trivial⟩
  | escaped => trivial
  | started => exact hb
  | woken => exact ⟨hb.1, CycleState.takes_of_isPaused hb.2⟩

/-- Nobody gets a live baton from one who is done with the cycle. -/
theorem Passes.isLive (h : Passes kind b event b') (hl : b'.isLive = true) : b.isLive = true := by
  cases h <;> first | rfl | cases hl

/-- A baton that is passed on is not that of an attempt, before or after, nor that of a timer
after. -/
theorem Passes.isAwaiting (h : Passes kind b event b') :
    b.isAwaiting = false ∧ b'.isAwaiting = false ∧ b'.isTimed = false := by
  cases h <;> exact ⟨rfl, rfl, rfl⟩

/-- What happens to a call while its baton is passed on happens to a live one. -/
theorem Passes.isLive_of_event {event : CallEvent} (h : Passes kind b (some event) b') :
    b.isLive = true := by
  cases h <;> rfl

theorem Abandons.fits {stopped : Bool} {next : Option Baton} (h : Abandons stopped b next)
    (hb : b.Fits kind call) :
    ∀ b', next = some b' → b'.Fits kind { call with settled := true } := by
  cases h with
  | failing =>
    rintro _ ⟨⟩
    exact ⟨hb.1, trivial⟩
  | _ => rintro _ ⟨⟩

/-- A call is abandoned by one who awaits no attempt, and nobody goes on with it then. -/
theorem Abandons.isAwaiting {stopped : Bool} {next : Option Baton} (h : Abandons stopped b next) :
    b.isAwaiting = false
      ∧ ∀ b', next = some b' → b'.isAwaiting = false ∧ b'.isTimed = false ∧ b'.isLive = false := by
  cases h with
  | failing =>
    refine ⟨rfl, ?_⟩
    rintro _ ⟨⟩
    exact ⟨rfl, rfl, rfl⟩
  | _ => exact ⟨rfl, by rintro _ ⟨⟩⟩

theorem Resumes.isLive {fed : Option Outcome} (h : b.Resumes fed) : b.isLive = true := by
  cases h <;> rfl

/-- A step of the cycle leaves the call where whoever goes on with it expects it. -/
theorem Continues.fits {cursor : Cursor} {now : Binary64} {fed : Option Outcome}
    {step : CycleStep} {settled : Bool} {next : Option Baton}
    (h : b.Continues step.effect call.settled settled next) (hb : b.Fits kind call)
    (hr : call.cycle.resume? cursor now fed = some step) :
    ∀ b', next = some b' → b'.Fits kind { call with cycle := step.cycle, settled } := by
  generalize he : step.effect = effect at h
  cases h with
  | sent =>
    rintro _ ⟨⟩
    exact ⟨hb.1, Cycle.isSent_of_resume? hr he⟩
  | asleep =>
    rintro _ ⟨⟩
    exact ⟨hb.1, Cycle.isPaused_of_resume? hr he⟩
  | broken =>
    rintro _ ⟨⟩
    exact ⟨hb.1, trivial⟩
  | told =>
    rintro _ ⟨⟩
    exact ⟨hb.1, rfl⟩
  | finished =>
    rintro _ ⟨⟩
    exact ⟨hb.1, rfl⟩
  | arming =>
    rintro _ ⟨⟩
    exact ⟨hb.1, Cycle.isSent_of_resume? hr he⟩
  | pausing =>
    rintro _ ⟨⟩
    exact ⟨hb.1, Cycle.isPaused_of_resume? hr he⟩
  | ended => rintro _ ⟨⟩

/-- A step of the cycle settles the call if nobody goes on with it, and only then. -/
theorem Continues.settled {effect : Effect} {before settled : Bool} {next : Option Baton}
    (h : b.Continues effect before settled next) :
    (next = none → settled = true)
      ∧ ∀ b', next = some b' → settled = true → b'.isLive = true → before = true := by
  cases h with
  | ended => exact ⟨fun _ => rfl, by rintro _ ⟨⟩⟩
  | _ =>
    refine ⟨by rintro ⟨⟩, ?_⟩
    rintro _ ⟨⟩ hs hl
    first | exact hs | cases hl

theorem Continues.isAwaiting {effect : Effect} {before settled : Bool} {next : Option Baton}
    (h : b.Continues effect before settled next) :
    b.isAwaiting = false ∧ ∀ b', next = some b' → b'.isAwaiting = false ∧ b'.isTimed = false := by
  cases h with
  | ended => exact ⟨rfl, by rintro _ ⟨⟩⟩
  | _ =>
    refine ⟨rfl, ?_⟩
    rintro _ ⟨⟩
    exact ⟨rfl, rfl⟩

end Becoming

/-- The batons of a call that has one or none. -/
def held (c : Nat) (b : Option Baton) : Multiset (Nat × Baton) := ↑(b.map fun b => (c, b)).toList

theorem mem_held {c d : Nat} {b : Option Baton} {x : Baton} :
    (d, x) ∈ held c b ↔ d = c ∧ b = some x := by
  cases b with
  | none => simp [held]
  | some b => simp [held, eq_comm]

end Baton

end Pubsub
