import Mathlib.Data.List.Chain
import Pubsub.Proofs.CycleSteps
import Pubsub.Proofs.Rounding

/-!
# How late a retry can be

The budget of a policy is compared with the time that has passed when a failure is delivered. The
retry itself is sent later, if there is a pause before it. So what the budget bounds is the moment
at which a pause begins; a retry after a pause can be later than that by the length of the pause,
and it is, unless the pause is over before the budget is.

A **turn** of a cycle is one resumption, with what it comes to. What the clock reads at a turn is a
double, and readings are compared by their units, as exact numbers. The time that has passed is
rounded, but a failure that reaches the budget reaches it after rounding (`Binary64.le_sub`), so
every retry follows a failure that did not.
-/

namespace Pubsub

/-- A cycle being told to go on: the reading of the clock, and the outcome of the attempt in
progress, if there is one. -/
structure Resumption where
  clock : Binary64
  fed : Option Outcome

/-- A step that a cycle took: the reading of the clock, and what it wants done next. -/
structure Turn where
  clock : Binary64
  effect : Effect

namespace Turn

/-- Is the request sent? -/
def IsSend (turn : Turn) : Prop := turn.effect = .send

/-- Does a pause begin? -/
def IsPause (turn : Turn) : Prop := ∃ seconds, turn.effect = .sleep seconds

/-- Does the clock read less than `limit` units? -/
def IsBefore (turn : Turn) (limit : Int) : Prop :=
  ∃ t, turn.clock.units? = some t ∧ t < limit

/-- The clock does not go back from one turn to the next. -/
def NotBack (turn next : Turn) : Prop :=
  ∃ t u, turn.clock.units? = some t ∧ next.clock.units? = some u ∧ t ≤ u

/-- The clock does not go back from one turn to the next, and goes on by no more than `p` units if a
pause lies between them. -/
def PausesFor (p : Int) (turn next : Turn) : Prop :=
  ∃ t u, turn.clock.units? = some t ∧ next.clock.units? = some u ∧ t ≤ u
    ∧ (turn.IsPause → u ≤ t + p)

theorem PausesFor.notBack {p : Int} {turn next : Turn} (h : PausesFor p turn next) :
    NotBack turn next := by
  obtain ⟨t, u, ht, hu, hle, -⟩ := h
  exact ⟨t, u, ht, hu, hle⟩

theorem IsBefore.mono {turn : Turn} {limit limit' : Int} (h : turn.IsBefore limit)
    (hle : limit ≤ limit') : turn.IsBefore limit' := by
  obtain ⟨t, ht, hlt⟩ := h
  exact ⟨t, ht, Int.lt_of_lt_of_le hlt hle⟩

/-- A turn after a pause that began in time is late by no more than the pause. -/
theorem IsBefore.after_pause {turn next : Turn} {limit p : Int} (h : turn.IsBefore limit)
    (hp : turn.IsPause) (hpause : PausesFor p turn next) : next.IsBefore (limit + p) := by
  obtain ⟨t, u, ht, hu, -, hlength⟩ := hpause
  obtain ⟨t', ht', hlt⟩ := h
  obtain rfl : t = t' := Option.some.inj (ht.symm.trans ht')
  have hle := hlength hp
  exact ⟨u, hu, by omega⟩

end Turn

namespace Cycle

/-- The turns of a cycle that is resumed again and again, as far as it can be. -/
def turns (cycle : Cycle) (cursor : Cursor) : List Resumption → List Turn
  | [] => []
  | r :: rest =>
    match cycle.resume? cursor r.clock r.fed with
    | none => []
    | some step => ⟨r.clock, step.effect⟩ :: step.cycle.turns step.cursor rest

theorem turns_of_some {cycle : Cycle} {cursor : Cursor} {r : Resumption} {step : CycleStep}
    (h : cycle.resume? cursor r.clock r.fed = some step) (rest : List Resumption) :
    cycle.turns cursor (r :: rest)
      = ⟨r.clock, step.effect⟩ :: step.cycle.turns step.cursor rest := by
  simp only [turns, h]

theorem turns_of_none {cycle : Cycle} {cursor : Cursor} {r : Resumption}
    (h : cycle.resume? cursor r.clock r.fed = none) (rest : List Resumption) :
    cycle.turns cursor (r :: rest) = [] := by
  simp only [turns, h]

/-! ## One turn -/

variable {cycle : Cycle} {cursor : Cursor} {budget start now : Binary64} {fed : Option Outcome}
  {b g t : Int} {turn : Turn} {r : Resumption} {step : CycleStep}

/-- **A failure that reaches the budget uses it up**, whatever rounding does. -/
theorem lt_of_not_isSpent {policy : RetryPolicy} (hbudget : policy.budget = some budget)
    (hb : start.units? = some b) (hg : budget.units? = some g) (ht : now.units? = some t)
    (hmono : b ≤ t) (h : isSpent policy start now = false) : t < b + g := by
  by_contra hlt
  have hreached : budget.le (now - start) = true :=
    Binary64.le_sub ht hb hg hmono (Int.not_lt.1 hlt)
  simp [isSpent, hbudget, hreached] at h

/-- A cycle follows one policy throughout. -/
theorem policy_of_resume? (h : cycle.resume? cursor now fed = some step) :
    step.cycle.policy = cycle.policy := by
  rcases resume?_eq_some h with ⟨-, start, rfl⟩ | ⟨start, outcome, -, -, rfl⟩
  · rfl
  · obtain ⟨⟨state, hstate⟩, -, -⟩ := afterOutcome_spec cycle cursor start now outcome
    rw [hstate]

/-- A pause is followed by the next attempt, whatever the clock reads when it is over. -/
theorem eq_of_resume?_paused (hs : cycle.state = .paused start)
    (h : cycle.resume? cursor now fed = some step) :
    step = ⟨{ cycle with state := .sent start }, cursor, none, .send⟩ := by
  cases fed with
  | none => simpa [resume?, hs, eq_comm] using h
  | some outcome => simp [resume?, hs] at h

/-- An attempt is followed by what its outcome leads to. -/
theorem exists_of_resume?_sent (hs : cycle.state = .sent start)
    (h : cycle.resume? cursor now fed = some step) :
    ∃ outcome, cycle.afterOutcome cursor start now outcome = step := by
  cases fed with
  | none => simp [resume?, hs] at h
  | some outcome => exact ⟨outcome, by simpa [resume?, hs] using h⟩

/-- **What follows an attempt**: the cycle ends; or the budget is not used up, and the request is
sent again at once if there is no delay, and after a pause if there is one. -/
theorem afterOutcome_cases {outcome : Outcome}
    (h : cycle.afterOutcome cursor start now outcome = step) :
    (step.cycle.state = .ended ∧ step.effect ≠ .send ∧ ∀ seconds, step.effect ≠ .sleep seconds)
    ∨ (isSpent cycle.policy start now = false
      ∧ ((step.cycle.state = .sent start ∧ step.effect = .send)
        ∨ (step.cycle.state = .paused start ∧ step.effect = .sleep cycle.policy.delay
          ∧ Binary64.lt 0 cycle.policy.delay = true))) := by
  subst h
  unfold afterOutcome
  cases cycle.request.classify outcome with
  | error e => simp
  | ok result =>
    by_cases hok : result.code = .ok
    · cases hmove : cycle.moveCursor cursor result <;> simp [hok, hmove]
    · cases hretry : cycle.policy.retries result.code <;>
        cases hspent : isSpent cycle.policy start now <;>
        cases hdelay : Binary64.lt 0 cycle.policy.delay <;> simp [hok, hretry]

/-- Where a cycle stands after a turn: it has ended, or its request is in flight, or it pauses since
a failure that came before `limit`. -/
inductive StandsAfter (cycle : Cycle) (start : Binary64) (limit : Int) (turn : Turn) : Prop where
  | ended (h : cycle.state = .ended)
  | sent (h : cycle.state = .sent start)
  | paused (h : cycle.state = .paused start) (hp : turn.IsPause) (hl : turn.IsBefore limit)
      (hd : Binary64.lt 0 cycle.policy.delay = true)

/-- What a limit says of a turn and the next one: a pause begins before it, and the request is sent
before it, unless there was a pause that began before it. -/
structure InTime (delay : Binary64) (limit : Int) (turn next : Turn) : Prop where
  pause : next.IsPause → next.IsBefore limit
  send : next.IsSend → next.IsBefore limit
    ∨ (Binary64.lt 0 delay = true ∧ turn.IsPause ∧ turn.IsBefore limit)

/-- **From where a cycle stands after a turn, the next turn is in time**, and the cycle stands so
after that one too. -/
theorem StandsAfter.next (h : cycle.StandsAfter start (b + g) turn)
    (hbudget : cycle.policy.budget = some budget) (hb : start.units? = some b)
    (hg : budget.units? = some g) (hr : cycle.resume? cursor r.clock r.fed = some step)
    (ht : r.clock.units? = some t) (hmono : b ≤ t) :
    step.cycle.StandsAfter start (b + g) ⟨r.clock, step.effect⟩
      ∧ InTime cycle.policy.delay (b + g) turn ⟨r.clock, step.effect⟩ := by
  cases h with
  | ended hs => simp [resume?, hs] at hr
  | paused hs hp hl hd =>
    obtain rfl := eq_of_resume?_paused hs hr
    refine ⟨.sent rfl, ?_, fun _ => .inr ⟨hd, hp, hl⟩⟩
    rintro ⟨seconds, ⟨⟩⟩
  | sent hs =>
    have hpolicy := policy_of_resume? hr
    obtain ⟨outcome, hr⟩ := exists_of_resume?_sent hs hr
    rcases afterOutcome_cases hr with ⟨hstate, hsend, hsleep⟩ | ⟨hspent, hretry⟩
    · refine ⟨.ended hstate, ?_, fun h => absurd h hsend⟩
      rintro ⟨seconds, h⟩
      exact absurd h (hsleep seconds)
    · have hlt : t < b + g := lt_of_not_isSpent hbudget hb hg ht hmono hspent
      have hbefore : Turn.IsBefore ⟨r.clock, step.effect⟩ (b + g) := ⟨t, ht, hlt⟩
      refine ⟨?_, fun _ => hbefore, fun _ => .inl hbefore⟩
      rcases hretry with ⟨hstate, -⟩ | ⟨hstate, heffect, hdelay⟩
      · exact .sent hstate
      · exact .paused hstate ⟨_, heffect⟩ hbefore (hpolicy ▸ hdelay)

/-! ## All turns -/

/-- **Every turn after the first is in time**, and follows a turn as the clock has it. -/
theorem StandsAfter.turns {R : Turn → Turn → Prop} (hR : ∀ {x y}, R x y → Turn.NotBack x y)
    (h : cycle.StandsAfter start (b + g) turn) (hbudget : cycle.policy.budget = some budget)
    (hb : start.units? = some b) (hg : budget.units? = some g)
    (ht : turn.clock.units? = some t) (hmono : b ≤ t) {rs : List Resumption}
    (hchain : (turn :: cycle.turns cursor rs).IsChain R) :
    ∀ next ∈ cycle.turns cursor rs, ∃ before, R before next
      ∧ InTime cycle.policy.delay (b + g) before next := by
  induction rs generalizing cycle cursor turn t with
  | nil => rintro next ⟨⟩
  | cons r rest ih =>
    cases hr : cycle.resume? cursor r.clock r.fed with
    | none =>
      rw [turns_of_none hr]
      rintro next ⟨⟩
    | some step =>
      rw [turns_of_some hr] at hchain ⊢
      obtain ⟨hrel, hrest⟩ := List.isChain_cons_cons.1 hchain
      obtain ⟨t', u, ht', hu, hle⟩ := hR hrel
      obtain rfl : t = t' := Option.some.inj (ht.symm.trans ht')
      have hpolicy := policy_of_resume? hr
      obtain ⟨hstands, hin⟩ := h.next hbudget hb hg hr hu (Int.le_trans hmono hle)
      intro next hm
      rcases List.mem_cons.1 hm with rfl | hm
      · exact ⟨turn, hrel, hin⟩
      · rw [← hpolicy] at hbudget ⊢
        exact ih hstands hbudget hu (Int.le_trans hmono hle) hrest next hm

/-- A cycle begins by sending its request, if it is told to go on without an outcome. -/
theorem exists_turns_start (request : Request) (policy : RetryPolicy) (movesCursor : Bool)
    (cursor : Cursor) (r : Resumption) (rs : List Resumption) :
    (Cycle.start request policy movesCursor).turns cursor (r :: rs) = []
    ∨ ∃ cycle : Cycle, cycle.state = .sent r.clock ∧ cycle.policy = policy
      ∧ (Cycle.start request policy movesCursor).turns cursor (r :: rs)
        = ⟨r.clock, .send⟩ :: cycle.turns cursor rs := by
  obtain ⟨now, fed⟩ := r
  cases fed with
  | some outcome => exact .inl rfl
  | none => exact .inr ⟨_, rfl, rfl, rfl⟩

/-- **Retries and the budget.** Let a cycle run on a clock that does not go back, under a policy
with a budget of `g` units, and let its first attempt begin when the clock reads `b` units.

* Every pause begins less than the budget after the first attempt did.
* If the policy has no delay, every retry is sent less than the budget after the first attempt
  began.
* If no pause takes longer than `p` units, every retry is sent less than the budget and `p` units
  after the first attempt began. -/
theorem retries_within_budget (request : Request) {policy : RetryPolicy} (movesCursor : Bool)
    (cursor : Cursor) {budget : Binary64} {b g : Int} (hbudget : policy.budget = some budget)
    (hg : budget.units? = some g) {r : Resumption} (hb : r.clock.units? = some b)
    {rs : List Resumption} {turns : List Turn}
    (hturns : (Cycle.start request policy movesCursor).turns cursor (r :: rs) = turns)
    (hclock : turns.IsChain Turn.NotBack) :
    (∀ turn ∈ turns.tail, turn.IsPause → turn.IsBefore (b + g))
    ∧ (Binary64.lt 0 policy.delay = false →
      ∀ turn ∈ turns.tail, turn.IsSend → turn.IsBefore (b + g))
    ∧ ∀ p, 0 ≤ p → turns.IsChain (Turn.PausesFor p) →
      ∀ turn ∈ turns.tail, turn.IsSend → turn.IsBefore (b + g + p) := by
  rcases exists_turns_start request policy movesCursor cursor r rs with
    hnone | ⟨cycle, hstate, rfl, hcycle⟩
  · rw [hnone] at hturns
    subst hturns
    simp
  · rw [hcycle] at hturns
    subst hturns
    have hstands : cycle.StandsAfter r.clock (b + g) ⟨r.clock, .send⟩ := .sent hstate
    have hin := hstands.turns id hbudget hb hg hb (Int.le_refl b) hclock
    refine ⟨?_, ?_, ?_⟩
    · intro turn hm hp
      obtain ⟨before, -, hin⟩ := hin turn hm
      exact hin.pause hp
    · intro hdelay turn hm hs
      obtain ⟨before, -, hin⟩ := hin turn hm
      rcases hin.send hs with hbefore | ⟨hd, -⟩
      · exact hbefore
      · rw [hdelay] at hd
        cases hd
    · intro p hp hpauses turn hm hs
      obtain ⟨before, hpause, hin⟩ :=
        hstands.turns Turn.PausesFor.notBack hbudget hb hg hb (Int.le_refl b) hpauses turn hm
      rcases hin.send hs with hbefore | ⟨-, hp', hbefore⟩
      · exact hbefore.mono (by omega)
      · exact hbefore.after_pause hp' hpause

/-- The time is asked for, and everything is retried for two seconds, after a pause of two. -/
def hesitant : RetryPolicy := ⟨-1, true, 2, some 2⟩

/-- A request for the time. -/
def timeQuery : Request := ⟨"http://o", "u", "s", none, 5, .time⟩

/-- The first attempt fails after one second, and the pause takes the two seconds that were asked
for. -/
def hesitation : List Resumption :=
  [⟨0, none⟩, ⟨1, some (.failure .timeout (some "slow"))⟩, ⟨3, none⟩]

/-- A failure that comes in time leads to a pause, and the pause to a retry. -/
theorem turns_hesitation :
    (Cycle.start timeQuery hesitant false).turns .empty hesitation
      = [⟨0, .send⟩, ⟨1, .sleep 2⟩, ⟨3, .send⟩] := by
  have hspent : isSpent hesitant 0 1 = false := by decide +kernel
  have hseconds : hesitant.delay = 2 := rfl
  have hdelay : Binary64.lt 0 2 = true := by decide +kernel
  have hretry : hesitant.retries .timeout = true := by decide
  simp [hesitation, turns, Cycle.start, resume?, afterOutcome, Request.classify, Result.plain,
    hspent, hseconds, hdelay, hretry]

/-- Whole seconds, in terms of the units that one second is made of. -/
theorem exists_second :
    ∃ second : Int, 0 < second ∧ (0 : Binary64).units? = some 0
      ∧ (1 : Binary64).units? = some second ∧ (2 : Binary64).units? = some (2 * second)
      ∧ (3 : Binary64).units? = some (3 * second) :=
  ⟨Binary64.unitsPerOne, by decide +kernel, by decide +kernel, by decide +kernel,
    by decide +kernel, by decide +kernel⟩

/-- The pause of the hesitation takes two seconds. -/
theorem isChain_hesitation {second : Int} (hpos : 0 < second)
    (hzero : (0 : Binary64).units? = some 0) (hone : (1 : Binary64).units? = some second)
    (hthree : (3 : Binary64).units? = some (3 * second)) :
    ([⟨0, .send⟩, ⟨1, .sleep 2⟩, ⟨3, .send⟩] : List Turn).IsChain
      (Turn.PausesFor (2 * second)) := by
  refine .cons_cons ⟨0, second, hzero, hone, by omega, ?_⟩
    (.cons_cons ⟨second, 3 * second, hone, hthree, by omega, fun _ => by omega⟩ (.singleton _))
  rintro ⟨seconds, ⟨⟩⟩

/-- The retry after the hesitation is sent less than four seconds after the first attempt began. -/
theorem retries_within_budget_hesitation :
    ∃ second : Int, (1 : Binary64).units? = some second
      ∧ Turn.IsBefore ⟨3, .send⟩ (0 + 2 * second + 2 * second) := by
  obtain ⟨second, hpos, hzero, hone, htwo, hthree⟩ := exists_second
  have hchain := isChain_hesitation hpos hzero hone hthree
  have hbudget : hesitant.budget = some 2 := rfl
  have hbounds := retries_within_budget timeQuery false .empty hbudget htwo (r := ⟨0, none⟩) hzero
    turns_hesitation (hchain.imp fun _ _ => Turn.PausesFor.notBack)
  exact ⟨second, hone, hbounds.2.2 (2 * second) (by omega) hchain ⟨3, .send⟩ (by simp) rfl⟩

/-- **A retry can be sent after the budget is used up.** The budget and the delay are two seconds.
The first attempt begins when the clock reads zero and fails when it reads one, the pause takes the
two seconds that were asked for, and the retry is sent when the clock reads three. -/
theorem retry_after_budget :
    ∃ (turns : List Turn) (pause retry : Turn) (b g d t u : Int),
      (Cycle.start timeQuery hesitant false).turns .empty hesitation = turns
      ∧ turns.IsChain Turn.NotBack
      ∧ turns = [⟨0, .send⟩, pause, retry] ∧ pause.effect = .sleep hesitant.delay ∧ retry.IsSend
      ∧ hesitant.budget = some 2 ∧ (2 : Binary64).units? = some g
      ∧ hesitant.delay.units? = some d ∧ (0 : Binary64).units? = some b
      ∧ pause.clock.units? = some t ∧ retry.clock.units? = some u ∧ t + d ≤ u
      ∧ ¬ retry.IsBefore (b + g) := by
  obtain ⟨second, hpos, hzero, hone, htwo, hthree⟩ := exists_second
  have hchain := isChain_hesitation hpos hzero hone hthree
  refine ⟨_, ⟨1, .sleep 2⟩, ⟨3, .send⟩, 0, 2 * second, 2 * second, second, 3 * second,
    turns_hesitation, hchain.imp fun _ _ => Turn.PausesFor.notBack, rfl, rfl, rfl, rfl, htwo, htwo,
    hzero, hone, hthree, by omega, ?_⟩
  rintro ⟨u, hu, hlt⟩
  obtain rfl : 3 * second = u := Option.some.inj (hthree.symm.trans hu)
  omega

end Cycle

end Pubsub
