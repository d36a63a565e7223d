import Mathlib.Data.Int.Bitwise
import Pubsub.Proofs.Feeding
import Pubsub.Proofs.Responses
import Pubsub.Proofs.Rounding

/-!
# What a cycle does from its start to its end

Whoever drives a cycle sends the request when it is told to, waits when it is told to, and delivers
the outcome of each attempt with the reading of the clock. `Cycle.Yields` says what is then seen,
for any outcomes, any readings and any length of the waits. It turns out to depend on very little.
Each attempt either **stops** the cycle, by its code, the mask and the time that has passed, or it
does not; every attempt before the first one that stops it is retried in the same way, and that one
is final.

Nothing of this needs to know how many attempts there are. What follows a sending is described for
one attempt that stops the cycle and for one that does not, and the whole follows by induction.
-/

namespace Pubsub

/-! ## Driving a cycle -/

/-- What came of an attempt, and the reading of the clock when the cycle was told. -/
structure Delivery where
  outcome : Outcome
  clock : Binary64

/-- What is seen of a cycle. -/
inductive CycleEvent where
  | sent (request : Request)
  | reported (line : String)
  | slept (seconds : Binary64)
  | returned (result : Result)
  | raised (e : Error)

/-- The report that a step makes, if any. -/
def CycleStep.reported (step : CycleStep) : List CycleEvent := step.report.toList.map .reported

namespace Cycle

/-- What is seen of a cycle that is resumed, when these outcomes are delivered to it one after the
other, and the cursor that is left. A cycle that sends its request after the last of them waits. The
reading of the clock when a pause is over is arbitrary. -/
inductive Yields : Cycle → Cursor → Binary64 → Option Outcome → List Delivery → List CycleEvent →
    Cursor → Prop where
  | send {cycle : Cycle} {cursor cursor' : Cursor} {now : Binary64} {fed : Option Outcome}
      {step : CycleStep} {d : Delivery} {rest : List Delivery} {events : List CycleEvent}
      (h : cycle.resume? cursor now fed = some step) (he : step.effect = .send)
      (hr : Yields step.cycle step.cursor d.clock (some d.outcome) rest events cursor') :
      Yields cycle cursor now fed (d :: rest)
        (step.reported ++ .sent step.cycle.request :: events) cursor'
  | wait {cycle : Cycle} {cursor : Cursor} {now : Binary64} {fed : Option Outcome}
      {step : CycleStep} (h : cycle.resume? cursor now fed = some step) (he : step.effect = .send) :
      Yields cycle cursor now fed [] (step.reported ++ [.sent step.cycle.request]) step.cursor
  | sleep {cycle : Cycle} {cursor cursor' : Cursor} {now seconds : Binary64} {fed : Option Outcome}
      {step : CycleStep} {ds : List Delivery} {events : List CycleEvent}
      (h : cycle.resume? cursor now fed = some step) (he : step.effect = .sleep seconds)
      (wake : Binary64) (hr : Yields step.cycle step.cursor wake none ds events cursor') :
      Yields cycle cursor now fed ds (step.reported ++ .slept seconds :: events) cursor'
  | finish {cycle : Cycle} {cursor : Cursor} {now : Binary64} {fed : Option Outcome}
      {step : CycleStep} {ds : List Delivery} {result : Result}
      (h : cycle.resume? cursor now fed = some step) (he : step.effect = .finish result) :
      Yields cycle cursor now fed ds (step.reported ++ [.returned result]) step.cursor
  | raise {cycle : Cycle} {cursor : Cursor} {now : Binary64} {fed : Option Outcome}
      {step : CycleStep} {ds : List Delivery} {e : Error}
      (h : cycle.resume? cursor now fed = some step) (he : step.effect = .raise e) :
      Yields cycle cursor now fed ds (step.reported ++ [.raised e]) step.cursor

/-- What is seen after the request was sent, when these outcomes are still to be delivered. -/
def FollowsSend (cycle : Cycle) (cursor : Cursor) (ds : List Delivery) (events : List CycleEvent)
    (cursor' : Cursor) : Prop :=
  match ds with
  | [] => events = [] ∧ cursor' = cursor
  | d :: rest => cycle.Yields cursor d.clock (some d.outcome) rest events cursor'

/-- What is seen after the report of a step: what its effect brings about, and what follows. -/
def Continues (step : CycleStep) (ds : List Delivery) (events : List CycleEvent)
    (cursor' : Cursor) : Prop :=
  match step.effect with
  | .send =>
    ∃ rest, events = .sent step.cycle.request :: rest
      ∧ step.cycle.FollowsSend step.cursor ds rest cursor'
  | .sleep seconds =>
    ∃ wake rest, events = .slept seconds :: rest
      ∧ step.cycle.Yields step.cursor wake none ds rest cursor'
  | .finish result => events = [.returned result] ∧ cursor' = step.cursor
  | .raise e => events = [.raised e] ∧ cursor' = step.cursor

/-- **What is seen of a cycle is the report of its next step and what that step continues with.** -/
theorem yields_iff {cycle : Cycle} {cursor cursor' : Cursor} {now : Binary64}
    {fed : Option Outcome} {step : CycleStep} {ds : List Delivery} {events : List CycleEvent}
    (h : cycle.resume? cursor now fed = some step) :
    cycle.Yields cursor now fed ds events cursor'
      ↔ ∃ rest, events = step.reported ++ rest ∧ Continues step ds rest cursor' := by
  constructor
  · intro hy
    unfold Continues
    cases hy with
    | send h' he hr =>
      obtain rfl := Option.some.inj (h.symm.trans h')
      rw [he]
      exact ⟨_, rfl, _, rfl, hr⟩
    | wait h' he =>
      obtain rfl := Option.some.inj (h.symm.trans h')
      rw [he]
      exact ⟨_, rfl, [], rfl, rfl, rfl⟩
    | sleep h' he wake hr =>
      obtain rfl := Option.some.inj (h.symm.trans h')
      rw [he]
      exact ⟨_, rfl, wake, _, rfl, hr⟩
    | finish h' he =>
      obtain rfl := Option.some.inj (h.symm.trans h')
      rw [he]
      exact ⟨_, rfl, rfl, rfl⟩
    | raise h' he =>
      obtain rfl := Option.some.inj (h.symm.trans h')
      rw [he]
      exact ⟨_, rfl, rfl, rfl⟩
  · rintro ⟨rest, rfl, hc⟩
    unfold Continues at hc
    split at hc
    · rename_i he
      obtain ⟨rest, rfl, hr⟩ := hc
      cases ds with
      | nil =>
        obtain ⟨rfl, rfl⟩ := hr
        exact .wait h he
      | cons d ds => exact .send h he hr
    · rename_i he
      obtain ⟨wake, rest, rfl, hr⟩ := hc
      exact .sleep h he wake hr
    · rename_i he
      obtain ⟨rfl, rfl⟩ := hc
      exact .finish h he
    · rename_i he
      obtain ⟨rfl, rfl⟩ := hc
      exact .raise h he

/-- What is seen of a cycle that is about to send its request without a report. -/
theorem yields_send {cycle next : Cycle} {cursor cursor' : Cursor} {now : Binary64}
    {fed : Option Outcome} {ds : List Delivery} {events : List CycleEvent}
    (h : cycle.resume? cursor now fed = some ⟨next, cursor, none, .send⟩) :
    cycle.Yields cursor now fed ds events cursor'
      ↔ ∃ after, events = .sent next.request :: after
        ∧ next.FollowsSend cursor ds after cursor' := by
  rw [yields_iff h]
  constructor
  · rintro ⟨_, rfl, after, rfl, hr⟩
    exact ⟨after, rfl, hr⟩
  · rintro ⟨after, rfl, hr⟩
    exact ⟨_, rfl, after, rfl, hr⟩

end Cycle

/-! ## Which attempts stop a cycle -/

/-- Does the policy end a cycle after an attempt with this code? The first attempt began at `start`,
and the cycle is told at `now`. A success and a refusal end it, and so does a failure whose bit is
not set; and so does any failure when the time that has passed, as the clock gives it, has reached
the budget. -/
def RetryPolicy.Stops (policy : RetryPolicy) (start now : Binary64) (code : Code) : Prop :=
  code = .ok ∨ code = .occupied ∨ Int.testBit policy.mask code.number = false
    ∨ ∃ budget, policy.budget = some budget ∧ budget.le (now - start) = true

/-- **The mask is read in two's complement.** -/
theorem RetryPolicy.bit_eq_testBit (mask : Int) (position : Nat) :
    bit mask position = Int.testBit mask position := by
  have hpow : (0 : Int) ≤ (2 ^ position : Nat) := Int.natCast_nonneg _
  unfold bit
  show decide (mask.fdiv (2 ^ position : Nat) % 2 = 1) = _
  rw [Int.fdiv_eq_ediv_of_nonneg _ hpow]
  cases mask with
  | ofNat n =>
    show _ = Nat.testBit n position
    rw [Nat.testBit_eq_decide_div_mod_eq, decide_eq_decide]
    show ((n : Int) / (2 ^ position : Nat)) % 2 = 1 ↔ _
    rw [← Int.natCast_ediv]
    generalize n / 2 ^ position = quotient
    omega
  | negSucc n =>
    show _ = !Nat.testBit n position
    rw [Nat.testBit_eq_decide_div_mod_eq, ← decide_not, decide_eq_decide]
    rw [Int.negSucc_ediv _ (Int.natCast_pos.2 (Nat.two_pow_pos position))]
    show -((n : Int) / (2 ^ position : Nat) + 1) % 2 = 1 ↔ _
    rw [← Int.natCast_ediv]
    generalize n / 2 ^ position = quotient
    omega

/-- A failure is retried exactly if it does not stop the cycle. -/
theorem RetryPolicy.retries_and_not_isSpent (policy : RetryPolicy) (start now : Binary64)
    {code : Code} (hc : code ≠ .ok) :
    (policy.retries code && !Cycle.isSpent policy start now) = true
      ↔ ¬ policy.Stops start now code := by
  unfold retries Stops Cycle.isSpent
  rw [bit_eq_testBit]
  cases policy.budget with
  | none => simp [hc]
  | some budget => simp [hc, and_assoc]

/-! ## Attempts -/

namespace Request

/-- The result of an attempt. Only a bare request has none. -/
def resultOf (r : Request) (outcome : Outcome) : Result :=
  match r.classify outcome with
  | .ok result => result
  | .error _ => default

theorem classify_eq_resultOf {r : Request} (hq : r.query ≠ .bare) (outcome : Outcome) :
    r.classify outcome = .ok (r.resultOf outcome) := by
  obtain ⟨result, hr⟩ := exists_classify_eq_ok hq outcome
  unfold resultOf
  rw [hr]

/-- The cursor after the last attempt: a successful subscription moves its channels to the timetoken
of the result, and nothing else moves any. -/
def cursorAfter (r : Request) (cursor : Cursor) (result : Result) : Cursor :=
  match result.code, r.query.channels?, result.timetoken with
  | .ok, some channels, some timetoken => cursor.advance channels timetoken
  | _, _, _ => cursor

end Request

namespace Cycle

/-- What is seen after an attempt that does not stop the cycle, up to the next one. -/
def retryEvents (request : Request) (policy : RetryPolicy) (result : Result) : List CycleEvent :=
  (if policy.reports then [.reported (report request result true)] else [])
    ++ (if Binary64.lt 0 policy.delay then [.slept policy.delay] else []) ++ [.sent request]

/-- What is seen after the attempt that stops the cycle. A success is not reported. -/
def finalEvents (request : Request) (policy : RetryPolicy) (result : Result) : List CycleEvent :=
  (if policy.reports && result.code != .ok then [.reported (report request result false)] else [])
    ++ [.returned result]

/-- The cycle of a request that was sent, the first attempt having begun at `start`. -/
def sentAt (request : Request) (policy : RetryPolicy) (start : Binary64) : Cycle :=
  { Cycle.start request policy (request.kind == .subscribe) with state := .sent start }

@[simp] theorem sentAt_request (request : Request) (policy : RetryPolicy) (start : Binary64) :
    (sentAt request policy start).request = request := rfl

@[simp] theorem sentAt_policy (request : Request) (policy : RetryPolicy) (start : Binary64) :
    (sentAt request policy start).policy = policy := rfl

@[simp] theorem sentAt_movesCursor (request : Request) (policy : RetryPolicy) (start : Binary64) :
    (sentAt request policy start).movesCursor = (request.kind == .subscribe) := rfl

section Attempts

variable {request : Request} {policy : RetryPolicy} {cursor cursor' : Cursor}
  {start now : Binary64} {outcome : Outcome} {d : Delivery} {ds rest : List Delivery}
  {events : List CycleEvent}

theorem request_subscribe_of_channels? {channels : List String}
    (h : request.query.channels? = some channels) : request.kind = .subscribe := by
  unfold Request.kind
  cases hq : request.query with
  | subscribe channels timetoken timetokens => rfl
  | _ =>
    rw [hq] at h
    cases h

/-- The cursor after a success is given by the channels and the timetoken of the result. -/
theorem moveCursor_sentAt (hq : request.query ≠ .bare) (hg : outcome.IsGenuine)
    (hc : (request.resultOf outcome).code = .ok) :
    (sentAt request policy start).moveCursor cursor (request.resultOf outcome)
      = .ok (request.cursorAfter cursor (request.resultOf outcome)) := by
  unfold moveCursor Request.cursorAfter
  rw [sentAt_movesCursor, sentAt_request, hc]
  cases hchannels : request.query.channels? with
  | some channels =>
    obtain ⟨timetoken, ht, -⟩ := Request.timetoken_classify hchannels hg.ne_success
      (Request.classify_eq_resultOf hq outcome) hc
    rw [ht, request_subscribe_of_channels? hchannels]
    rfl
  | none =>
    have hkind : (request.kind == .subscribe) = false := by
      unfold Request.kind
      cases hquery : request.query with
      | subscribe channels timetoken timetokens =>
        rw [hquery] at hchannels
        cases hchannels
      | _ => rfl
    rw [hkind]
    rfl

/-- **An attempt that stops the cycle is its last**, and the cycle finishes with the result. -/
theorem afterOutcome_of_stops (hq : request.query ≠ .bare) (hg : outcome.IsGenuine)
    (hs : policy.Stops start now (request.resultOf outcome).code) :
    (sentAt request policy start).afterOutcome cursor start now outcome
      = { cycle := { sentAt request policy start with state := .ended }
          cursor := request.cursorAfter cursor (request.resultOf outcome)
          report := if policy.reports && (request.resultOf outcome).code != .ok then
            some (report request (request.resultOf outcome) false) else none
          effect := .finish (request.resultOf outcome) } := by
  unfold afterOutcome
  rw [sentAt_request, Request.classify_eq_resultOf hq outcome]
  dsimp only
  by_cases hc : (request.resultOf outcome).code = .ok
  · rw [if_pos hc, moveCursor_sentAt hq hg hc]
    simp [hc]
  · -- The attempt failed, so it stops the cycle because it is not retried.
    have hretry : (policy.retries (request.resultOf outcome).code && !isSpent policy start now)
        = false :=
      Bool.eq_false_iff.2 fun h =>
        (RetryPolicy.retries_and_not_isSpent policy start now hc).1 h hs
    have hcursor : request.cursorAfter cursor (request.resultOf outcome) = cursor := by
      unfold Request.cursorAfter
      split
      · exact absurd ‹_› hc
      · rfl
    have hfailed : ((request.resultOf outcome).code != .ok) = true := bne_iff_ne.2 hc
    rw [if_neg hc, sentAt_policy, hretry, hcursor, hfailed, Bool.and_true]
    rfl

/-- **An attempt that does not stop the cycle is retried**, at once or after a pause. -/
theorem afterOutcome_of_not_stops (hq : request.query ≠ .bare)
    (hs : ¬ policy.Stops start now (request.resultOf outcome).code) :
    (sentAt request policy start).afterOutcome cursor start now outcome
      = { cycle := if Binary64.lt 0 policy.delay then
            { sentAt request policy start with state := .paused start }
            else sentAt request policy start
          cursor := cursor
          report := if policy.reports then
            some (report request (request.resultOf outcome) true) else none
          effect := if Binary64.lt 0 policy.delay then .sleep policy.delay else .send } := by
  have hc : (request.resultOf outcome).code ≠ .ok := fun hc => hs (Or.inl hc)
  have hretry : (policy.retries (request.resultOf outcome).code && !isSpent policy start now)
      = true :=
    (RetryPolicy.retries_and_not_isSpent policy start now hc).2 hs
  unfold afterOutcome
  rw [sentAt_request, Request.classify_eq_resultOf hq outcome]
  dsimp only
  rw [if_neg hc, sentAt_policy, hretry]
  -- Whether there is a pause does not depend on what the delay is, only on its sign.
  generalize Binary64.lt 0 policy.delay = positive
  cases positive <;> rfl

theorem map_reported (reports : Bool) (line : String) :
    (if reports then some line else none).toList.map CycleEvent.reported
      = if reports then [.reported line] else [] := by
  cases reports <;> rfl

/-- After a pause the request is sent, whatever the clock reads then. -/
theorem yields_paused {wake : Binary64} :
    Cycle.Yields { sentAt request policy start with state := .paused start } cursor wake none rest
        events cursor'
      ↔ ∃ after, events = .sent request :: after
        ∧ (sentAt request policy start).FollowsSend cursor rest after cursor' := by
  have hstep : Cycle.resume? { sentAt request policy start with state := .paused start } cursor wake
      none = some ⟨sentAt request policy start, cursor, none, .send⟩ := rfl
  exact yields_send hstep

/-- What is seen if the next attempt stops the cycle. -/
theorem followsSend_of_stops (hq : request.query ≠ .bare) (hg : d.outcome.IsGenuine)
    (hs : policy.Stops start d.clock (request.resultOf d.outcome).code) :
    (sentAt request policy start).FollowsSend cursor (d :: rest) events cursor'
      ↔ events = finalEvents request policy (request.resultOf d.outcome)
        ∧ cursor' = request.cursorAfter cursor (request.resultOf d.outcome) := by
  have hstep : (sentAt request policy start).resume? cursor d.clock (some d.outcome)
      = some ((sentAt request policy start).afterOutcome cursor start d.clock d.outcome) := rfl
  show (sentAt request policy start).Yields cursor d.clock (some d.outcome) rest events cursor' ↔ _
  rw [yields_iff hstep, afterOutcome_of_stops hq hg hs]
  unfold Continues CycleStep.reported finalEvents
  rw [map_reported]
  constructor
  · rintro ⟨after, rfl, rfl, rfl⟩
    exact ⟨rfl, rfl⟩
  · rintro ⟨rfl, rfl⟩
    exact ⟨_, rfl, rfl, rfl⟩

/-- What is seen if the next attempt does not stop the cycle. -/
theorem followsSend_of_not_stops (hq : request.query ≠ .bare)
    (hs : ¬ policy.Stops start d.clock (request.resultOf d.outcome).code) :
    (sentAt request policy start).FollowsSend cursor (d :: rest) events cursor'
      ↔ ∃ after, events = retryEvents request policy (request.resultOf d.outcome) ++ after
        ∧ (sentAt request policy start).FollowsSend cursor rest after cursor' := by
  have hstep : (sentAt request policy start).resume? cursor d.clock (some d.outcome)
      = some ((sentAt request policy start).afterOutcome cursor start d.clock d.outcome) := rfl
  show (sentAt request policy start).Yields cursor d.clock (some d.outcome) rest events cursor' ↔ _
  rw [yields_iff hstep, afterOutcome_of_not_stops hq hs]
  unfold Continues CycleStep.reported retryEvents
  dsimp only
  rw [map_reported]
  generalize Binary64.lt 0 policy.delay = positive
  cases positive with
  | false =>
    constructor
    · rintro ⟨_, rfl, after, rfl, hr⟩
      exact ⟨after, by simp [sentAt, Cycle.start], hr⟩
    · rintro ⟨after, rfl, hr⟩
      exact ⟨_, by simp [sentAt, Cycle.start], after, rfl, hr⟩
  | true =>
    constructor
    · rintro ⟨_, rfl, wake, shown, rfl, hy⟩
      obtain ⟨after, rfl, hr⟩ := yields_paused.1 hy
      exact ⟨after, by simp, hr⟩
    · rintro ⟨after, rfl, hr⟩
      -- Any reading at the end of the pause will do.
      exact ⟨_, by simp, start, _, rfl, yields_paused.2 ⟨after, rfl, hr⟩⟩

/-! ## Whole cycles -/

/-- What is seen if there is a first attempt that stops the cycle. -/
theorem followsSend_of_first_stop (hq : request.query ≠ .bare) {n : Nat} (hd : ds[n]? = some d)
    (hg : d.outcome.IsGenuine) (hs : policy.Stops start d.clock (request.resultOf d.outcome).code)
    (hbefore : ∀ (m : Nat) (e : Delivery), m < n → ds[m]? = some e →
      ¬ policy.Stops start e.clock (request.resultOf e.outcome).code) :
    (sentAt request policy start).FollowsSend cursor ds events cursor'
      ↔ events = (ds.take n).flatMap
            (fun e => retryEvents request policy (request.resultOf e.outcome))
          ++ finalEvents request policy (request.resultOf d.outcome)
        ∧ cursor' = request.cursorAfter cursor (request.resultOf d.outcome) := by
  -- By induction on the number of attempts before the one that stops the cycle.
  induction n generalizing ds events with
  | zero =>
    cases ds with
    | nil => cases hd
    | cons e rest =>
      cases hd
      exact followsSend_of_stops hq hg hs
  | succ n ih =>
    cases ds with
    | nil => cases hd
    | cons e rest =>
      rw [followsSend_of_not_stops hq (hbefore 0 e (Nat.zero_lt_succ n) rfl), List.take_succ_cons,
        List.flatMap_cons, List.append_assoc]
      have hrest : ∀ {after},
          (sentAt request policy start).FollowsSend cursor rest after cursor' ↔ _ :=
        ih hd fun m e' hm he' => hbefore (m + 1) e' (Nat.succ_lt_succ hm) he'
      constructor
      · rintro ⟨after, rfl, hr⟩
        obtain ⟨rfl, hcursor⟩ := hrest.1 hr
        exact ⟨rfl, hcursor⟩
      · rintro ⟨rfl, hcursor⟩
        exact ⟨_, rfl, hrest.2 ⟨rfl, hcursor⟩⟩

/-- What is seen if no attempt stops the cycle: each is retried, and the cycle waits for more. -/
theorem followsSend_of_no_stop (hq : request.query ≠ .bare)
    (hnone : ∀ e ∈ ds, ¬ policy.Stops start e.clock (request.resultOf e.outcome).code) :
    (sentAt request policy start).FollowsSend cursor ds events cursor'
      ↔ events = ds.flatMap (fun e => retryEvents request policy (request.resultOf e.outcome))
        ∧ cursor' = cursor := by
  induction ds generalizing events with
  | nil => exact Iff.rfl
  | cons e rest ih =>
    rw [followsSend_of_not_stops hq (hnone e List.mem_cons_self), List.flatMap_cons]
    have hrest : ∀ {after},
        (sentAt request policy start).FollowsSend cursor rest after cursor' ↔ _ :=
      ih fun e' he' => hnone e' (List.mem_cons_of_mem e he')
    constructor
    · rintro ⟨after, rfl, hr⟩
      obtain ⟨rfl, hcursor⟩ := hrest.1 hr
      exact ⟨rfl, hcursor⟩
    · rintro ⟨rfl, hcursor⟩
      exact ⟨_, rfl, hrest.2 ⟨rfl, hcursor⟩⟩

/-- A cycle begins by sending its request. -/
theorem yields_start :
    (Cycle.start request policy (request.kind == .subscribe)).Yields cursor start none ds events
        cursor'
      ↔ ∃ after, events = .sent request :: after
        ∧ (sentAt request policy start).FollowsSend cursor ds after cursor' := by
  have hstep : (Cycle.start request policy (request.kind == .subscribe)).resume? cursor start none
      = some ⟨sentAt request policy start, cursor, none, .send⟩ := rfl
  exact yields_send hstep

/-- **What a cycle does, from its start to its end.** Let the request be any but the bare one, and
the outcomes such as a transport gives.

* If there is a first attempt that stops the cycle, then the request is sent, every attempt before
  that one is reported if the policy reports, waited after if the policy has a delay, and followed
  by the same request; the one that stops the cycle is reported if it failed, and its result is what
  the cycle returns. The cursor is moved to the timetoken of the result if that is a successful
  subscription, and otherwise stays.
* If no attempt stops it, the request is sent once more than there were outcomes, and the cursor
  stays.
* A budget is used up whenever the clock has reached the start and the budget added to it; and
  exactly then, if the time that has passed is a double and so is not rounded.

No outcomes make it raise an error, and what is seen is the same whatever the clock reads when a
pause is over. -/
theorem yields_start_iff (hq : request.query ≠ .bare) (hg : ∀ d ∈ ds, d.outcome.IsGenuine) :
    (∀ (n : Nat) (d : Delivery), ds[n]? = some d →
      policy.Stops start d.clock (request.resultOf d.outcome).code →
      (∀ (m : Nat) (e : Delivery), m < n → ds[m]? = some e →
        ¬ policy.Stops start e.clock (request.resultOf e.outcome).code) →
      ∀ events cursor',
        (Cycle.start request policy (request.kind == .subscribe)).Yields cursor start none ds events
            cursor'
          ↔ events = .sent request
              :: ((ds.take n).flatMap
                  (fun e => retryEvents request policy (request.resultOf e.outcome))
                ++ finalEvents request policy (request.resultOf d.outcome))
            ∧ cursor' = request.cursorAfter cursor (request.resultOf d.outcome))
    ∧ ((∀ d ∈ ds, ¬ policy.Stops start d.clock (request.resultOf d.outcome).code) →
      ∀ events cursor',
        (Cycle.start request policy (request.kind == .subscribe)).Yields cursor start none ds events
            cursor'
          ↔ events = .sent request
              :: ds.flatMap (fun e => retryEvents request policy (request.resultOf e.outcome))
            ∧ cursor' = cursor)
    ∧ ∀ (budget : Binary64) (b g t : Int) (d : Delivery), policy.budget = some budget →
      start.units? = some b → budget.units? = some g → d.clock.units? = some t → b ≤ t →
      (b + g ≤ t → policy.Stops start d.clock (request.resultOf d.outcome).code)
      ∧ (Binary64.Fits (t - b).natAbs → (budget.le (d.clock - start) = true ↔ b + g ≤ t)) := by
  refine ⟨?_, ?_, ?_⟩
  · intro n d hd hs hbefore events cursor'
    have hgenuine := hg d (List.mem_of_getElem? hd)
    rw [yields_start]
    constructor
    · rintro ⟨after, rfl, hr⟩
      obtain ⟨rfl, hcursor⟩ := (followsSend_of_first_stop hq hd hgenuine hs hbefore).1 hr
      exact ⟨rfl, hcursor⟩
    · rintro ⟨rfl, hcursor⟩
      exact ⟨_, rfl, (followsSend_of_first_stop hq hd hgenuine hs hbefore).2 ⟨rfl, hcursor⟩⟩
  · intro hnone events cursor'
    rw [yields_start]
    constructor
    · rintro ⟨after, rfl, hr⟩
      obtain ⟨rfl, hcursor⟩ := (followsSend_of_no_stop hq hnone).1 hr
      exact ⟨rfl, hcursor⟩
    · rintro ⟨rfl, hcursor⟩
      exact ⟨_, rfl, (followsSend_of_no_stop hq hnone).2 ⟨rfl, hcursor⟩⟩
  · intro budget b g t d hbudget hb hg' ht hmono
    refine ⟨fun hreached => ?_, fun hfits => Binary64.le_sub_iff ht hb hg' hmono hfits⟩
    exact Or.inr (Or.inr (Or.inr ⟨budget, hbudget, Binary64.le_sub ht hb hg' hmono hreached⟩))

end Attempts

/-- A subscription to one channel. -/
def subscription : Request := ⟨"http://o", "u", "s", none, 5, .subscribe ["a"] "0" ["0"]⟩

/-- A subscription that gets no response at first, and then a message and a timetoken. -/
def deliveries : List Delivery :=
  [⟨.failure .timeout (some "slow"), 1⟩, ⟨.reply 200 (utf8Bytes "[[7],\"20\"]"), 3⟩]

/-- Everything is retried for ten seconds, after a pause of one. -/
def patient : RetryPolicy := ⟨-1, true, 1, some 10⟩

/-- A failure that is retried after a pause, and a success that moves the cursor. -/
theorem yields_start_iff_subscription :
    ∃ events, (Cycle.start subscription patient true).Yields .empty 0 none deliveries
        events (Cursor.empty.advance ["a"] "20")
      ∧ events = [.sent subscription,
          .reported "pnclient: subscribe failed with TIMEOUT (slow), retrying", .slept 1,
          .sent subscription,
          .returned (subscription.resultOf (.reply 200 (utf8Bytes "[[7],\"20\"]")))] := by
  have hq : subscription.query ≠ .bare := by decide
  have hg : ∀ d ∈ deliveries, d.outcome.IsGenuine := by
    unfold deliveries
    simp [Outcome.IsGenuine]
  have hcode : (subscription.resultOf (.reply 200 (utf8Bytes "[[7],\"20\"]"))).code = .ok := by
    decide +kernel
  have htoken : (subscription.resultOf (.reply 200 (utf8Bytes "[[7],\"20\"]"))).timetoken
      = some "20" := by
    decide +kernel
  have hstops : patient.Stops 0 3
      (subscription.resultOf (.reply 200 (utf8Bytes "[[7],\"20\"]"))).code := Or.inl hcode
  have hbefore : ∀ (m : Nat) (e : Delivery), m < 1 → deliveries[m]? = some e →
      ¬ patient.Stops 0 e.clock (subscription.resultOf e.outcome).code := by
    intro m e hm he
    obtain rfl : m = 0 := by omega
    cases he
    rintro (h | h | h | ⟨budget, h, hspent⟩)
    · exact absurd h (by decide)
    · exact absurd h (by decide)
    · exact absurd h (by decide)
    · have hbudget : some 10 = some budget := h
      rw [← Option.some.inj hbudget] at hspent
      exact absurd hspent (by decide +kernel)
  have hdelay : Binary64.lt 0 patient.delay = true := by decide +kernel
  refine ⟨_, ((yields_start_iff hq hg).1 1 _ rfl hstops hbefore _ _).2 ⟨rfl, ?_⟩, ?_⟩
  · unfold Request.cursorAfter
    rw [hcode, htoken]
    rfl
  · have hretry : retryEvents subscription patient
          (subscription.resultOf (.failure .timeout (some "slow")))
        = [.reported "pnclient: subscribe failed with TIMEOUT (slow), retrying", .slept 1,
          .sent subscription] := by
      unfold retryEvents
      rw [if_pos (show patient.reports = true from rfl), if_pos hdelay]
      rfl
    have hfinal : finalEvents subscription patient
          (subscription.resultOf (.reply 200 (utf8Bytes "[[7],\"20\"]")))
        = [.returned (subscription.resultOf (.reply 200 (utf8Bytes "[[7],\"20\"]")))] := by
      unfold finalEvents
      rw [hcode]
      rfl
    show CycleEvent.sent subscription :: (retryEvents _ _ _ ++ [] ++ finalEvents _ _ _) = _
    rw [hretry, hfinal]
    rfl

/-- Three halves of the distance between one and the next double. -/
def earlyStart : Binary64 := .ofUnits (3 * 2 ^ 1021)

/-- The third double after one. -/
def earlyClock : Binary64 := .ofUnits (2 ^ 1074 + 3 * 2 ^ 1022)

/-- The second double after one. -/
def earlyBudget : Binary64 := .ofUnits (2 ^ 1074 + 2 ^ 1023)

/-- **A cycle can give up before its budget is used up.** The clock has not reached the start and
the budget added to it, neither exactly nor rounded, and the mask retries the failure; still the
time that has passed is rounded up to the budget, and the first attempt is the last. -/
theorem yields_start_early :
    (∃ b g t : Int, earlyStart.units? = some b ∧ earlyBudget.units? = some g
      ∧ earlyClock.units? = some t ∧ b ≤ t ∧ t < b + g)
    ∧ Binary64.le (earlyStart + earlyBudget) earlyClock = false
    ∧ Int.testBit (-1) Code.timeout.number = true
    ∧ (Cycle.start subscription ⟨-1, true, 0, some earlyBudget⟩ true).Yields .empty earlyStart none
        [⟨.failure .timeout (some "slow"), earlyClock⟩]
        [.sent subscription, .reported "pnclient: subscribe failed with TIMEOUT (slow), giving up",
          .returned (subscription.resultOf (.failure .timeout (some "slow")))] .empty := by
  have hspent : earlyBudget.le (earlyClock - earlyStart) = true := by decide +kernel
  refine ⟨⟨3 * 2 ^ 1021, 2 ^ 1074 + 2 ^ 1023, 2 ^ 1074 + 3 * 2 ^ 1022, by decide +kernel,
    by decide +kernel, by decide +kernel, by decide +kernel, by decide +kernel⟩, by decide +kernel,
    by decide, ?_⟩
  revert hspent
  -- From here on the values are arbitrary.
  generalize earlyStart = start, earlyClock = clock, earlyBudget = budget
  intro hspent
  have hstops : RetryPolicy.Stops ⟨-1, true, 0, some budget⟩ start clock
      (subscription.resultOf (.failure .timeout (some "slow"))).code :=
    Or.inr (Or.inr (Or.inr ⟨budget, rfl, hspent⟩))
  have hgenuine : Outcome.IsGenuine (.failure .timeout (some "slow")) := Or.inl rfl
  refine yields_start.2 ⟨_, rfl, ?_⟩
  exact (followsSend_of_stops (d := ⟨.failure .timeout (some "slow"), clock⟩) (by decide) hgenuine
    hstops).2 ⟨rfl, rfl⟩

end Cycle

end Pubsub
