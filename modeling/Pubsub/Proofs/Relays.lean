import Pubsub.Proofs.Passing

/-!
# One baton for every call

A call that is not settled is in exactly one pair of hands, and the cycle of the call stands where
these hands expect it. So nobody else can resume it, and it cannot be forgotten.

This is proved on the **relay** of a state: its calls, the cursors of its sessions, its batons, the
attempts that are still on their way, and what is known of timers. A relay makes **moves**. What can
happen in a move is said once, in `Relay.Move`, with a constructor for each thing that can happen to
a baton: it is passed on, it is dropped when its call is settled, an attempt is made, arrives,
expires or is refused. The invariant `Relay.IsSound` is kept by every move.

One thing the invariant cannot say is that a settled call is in nobody's hands. An attempt that the
pool refuses, because it was closed, and a response that a stopped reactor refuses both abandon the
call without asking who has its baton. `IsCarried.idle` says that this is the only way.
-/

namespace Pubsub

variable {Handler : Type}

/-! ## Relays and their moves -/

/-- What a client keeps of its calls and of whoever goes on with them. -/
@[ext]
structure Relay (Handler : Type) where
  kind : FrontendKind
  calls : List (Call Handler)
  /-- The cursor of each session. -/
  cursors : List Cursor
  batons : Multiset (Nat × Baton)
  /-- The attempts that are still on their way. -/
  underway : Multiset Nat
  /-- The attempt that is about to be given to the pool. -/
  submitting : Option Nat
  /-- The number of the timer of each attempt. -/
  alarms : List Nat
  /-- How many timers were created. -/
  created : Nat
  /-- The numbers of the cancelled timers. -/
  cancelled : List Nat
  /-- Was the reactor told to stop? -/
  stopped : Bool
  /-- Does the pool refuse attempts? -/
  closed : Bool

namespace Relay

/-- The relay with a call settled. -/
def settle (r : Relay Handler) (c : Nat) (call : Call Handler) : Relay Handler :=
  { r with calls := r.calls.set c { call with settled := true } }

/-- The relay after the cycle of a call made a step, and was perhaps settled. -/
def after (r : Relay Handler) (c : Nat) (call : Call Handler) (step : CycleStep)
    (settled : Bool) : Relay Handler :=
  { r with
    calls := r.calls.set c { call with cycle := step.cycle, settled }
    cursors := r.cursors.set call.session step.cursor }

/-- One move of a relay, with the event that it is. Cursors may be cleared if `clearing` holds. -/
inductive Move (clearing : Prop) (r : Relay Handler) :
    Option (Nat × CallEvent) → Relay Handler → Prop where
  /-- No call is concerned; the reactor may be told to stop, and the pool be closed. -/
  | still (stopped closed : Bool) (hs : r.stopped = true → stopped = true)
      (hc : r.closed = true → closed = true) : Move clearing r none { r with stopped, closed }
  /-- A session was opened. -/
  | opened : Move clearing r none { r with cursors := r.cursors ++ [Cursor.empty] }
  /-- Positions were cleared by an application. -/
  | cleared (h : clearing) (cursors : List Cursor) : Move clearing r none { r with cursors }
  /-- An operation was accepted. -/
  | accepted {i : Nat} (hi : i < r.cursors.length) (request : Request) (policy : RetryPolicy)
      (callback : Option Handler) :
      Move clearing r none
        { r with
          calls := r.calls ++ [.start i request policy callback]
          batons := {(r.calls.length, .launching)} + r.batons }
  | passed {c : Nat} {b b' : Baton} {event : Option CallEvent} {rest : Multiset (Nat × Baton)}
      (hb : r.batons = {(c, b)} + rest) (hp : b.Passes r.kind event b') :
      Move clearing r (event.map fun event => (c, event))
        { r with batons := {(c, b')} + rest }
  /-- The thread that drove a call returns. -/
  | left {c : Nat} {result : Result} {rest : Multiset (Nat × Baton)}
      (hb : r.batons = {(c, .driven (.finished result))} + rest) :
      Move clearing r none { r with batons := rest }
  | abandoned {c : Nat} {call : Call Handler} {b : Baton} {next : Option Baton}
      {rest : Multiset (Nat × Baton)} (hb : r.batons = {(c, b)} + rest)
      (hc : r.calls[c]? = some call) (hn : b.Abandons r.stopped next) :
      Move clearing r none { r.settle c call with batons := Baton.held c next + rest }
  /-- The cycle of a call made a step, and the call may have been settled in consequence. -/
  | resumed {c : Nat} {call : Call Handler} {cursor : Cursor} {step : CycleStep} {b : Baton}
      {settled : Bool} {next : Option Baton} {rest : Multiset (Nat × Baton)} (now : Binary64)
      {fed : Option Outcome} (hb : r.batons = {(c, b)} + rest) (hc : r.calls[c]? = some call)
      (hcursor : r.cursors[call.session]? = some cursor) (hf : b.Resumes fed)
      (hr : call.cycle.resume? cursor now fed = some step)
      (hn : b.Continues step.effect call.settled settled next) :
      Move clearing r (some (c, .resumed fed))
        { r.after c call step settled with batons := Baton.held c next + rest }
  | slept {c : Nat} {rest : Multiset (Nat × Baton)} (hb : r.batons = {(c, .pausing)} + rest) :
      Move clearing r (some (c, .slept r.created))
        { r with
          batons := {(c, .timed r.created)} + rest
          created := r.created + 1 }
  | attempted {c : Nat} {rest : Multiset (Nat × Baton)} (hi : r.submitting = none)
      (hb : r.batons = {(c, .arming)} + rest) :
      Move clearing r (some (c, .attempted r.alarms.length))
        { r with
          batons := {(c, .awaiting r.alarms.length)} + rest
          underway := {r.alarms.length} + r.underway
          submitting := some r.alarms.length
          alarms := r.alarms ++ [r.created]
          created := r.created + 1 }
  | submitted {c a : Nat} (hopen : r.closed = false) (ha : r.submitting = some a)
      (hb : (c, .awaiting a) ∈ r.batons) :
      Move clearing r (some (c, .submitted a)) { r with submitting := none }
  /-- The pool refused an attempt. -/
  | declined {c a : Nat} {call : Call Handler} {others : Multiset Nat} (hclosed : r.closed = true)
      (ha : r.submitting = some a) (hb : (c, .awaiting a) ∈ r.batons)
      (ho : ∀ d, (d, .awaiting a) ∈ r.batons → d = c) (hu : r.underway = {a} + others)
      (hc : r.calls[c]? = some call) :
      Move clearing r none { r.settle c call with underway := others, submitting := none }
  /-- The reactor refused a response. -/
  | refused {c a : Nat} {call : Call Handler} {others : Multiset Nat} (hs : r.stopped = true)
      (ho : ∀ d, (d, .awaiting a) ∈ r.batons → d = c) (hu : r.underway = {a} + others)
      (hc : r.calls[c]? = some call) :
      Move clearing r none { r.settle c call with underway := others }
  | arrived {c a timer : Nat} {outcome : Outcome} {rest : Multiset (Nat × Baton)}
      {others : Multiset Nat} (hi : r.submitting = none)
      (hb : r.batons = {(c, .awaiting a)} + rest) (ho : ∀ d, (d, .awaiting a) ∉ rest)
      (hu : r.underway = {a} + others) (ht : r.alarms[a]? = some timer) :
      Move clearing r (some (c, .arrived a outcome))
        { r with
          batons := {(c, .advancing (some outcome))} + rest
          underway := others
          cancelled := timer :: r.cancelled }
  | expired {c a : Nat} {outcome : Outcome} {rest : Multiset (Nat × Baton)}
      (hi : r.submitting = none) (hb : r.batons = {(c, .awaiting a)} + rest)
      (ho : ∀ d, (d, .awaiting a) ∉ rest) (hn : ∀ status content, outcome ≠ .reply status content) :
      Move clearing r (some (c, .expired a outcome))
        { r with batons := {(c, .advancing (some outcome))} + rest }
  /-- A response came too late. -/
  | dropped {a : Nat} {others : Multiset Nat} (ho : ∀ d, (d, .awaiting a) ∉ r.batons)
      (hu : r.underway = {a} + others) : Move clearing r none { r with underway := others }

/-! ## What is true of a relay -/

/-- Every call that is not settled has one baton, and its holder finds the cycle where it expects
it. A settled call whose baton is live is one that the frontend refused to go on with. -/
structure IsCarried (kind : FrontendKind) (calls : List (Call Handler))
    (batons : Multiset (Nat × Baton)) (halted : Prop) : Prop where
  unique : (batons.map Prod.fst).Nodup
  fits : ∀ {c : Nat} {b : Baton}, (c, b) ∈ batons →
    ∃ call, calls[c]? = some call ∧ b.Fits kind call
  carried : ∀ {c : Nat} {call : Call Handler}, calls[c]? = some call → call.settled = false →
    ∃ b, (c, b) ∈ batons
  idle : ∀ {c : Nat} {b : Baton} {call : Call Handler}, (c, b) ∈ batons → calls[c]? = some call →
    call.settled = true → b.isLive = true → kind = .reactor ∧ halted

/-- The outcome that a call waits for is on its way, unless the call was settled meanwhile, and then
it is not, except on a stopped reactor or just before the pool refuses the attempt. No attempt is on
its way twice. -/
structure IsAwaited (kind : FrontendKind) (calls : List (Call Handler))
    (batons : Multiset (Nat × Baton)) (underway : Multiset Nat) (submitting : Option Nat)
    (made : Nat) (stopped : Prop) : Prop where
  unique : underway.Nodup
  bound : ∀ {a : Nat}, a ∈ underway → a < made ∧ kind = .reactor
  known : ∀ {c a : Nat}, (c, .awaiting a) ∈ batons → a < made
  present : ∀ {c a : Nat} {call : Call Handler}, (c, .awaiting a) ∈ batons →
    calls[c]? = some call → call.settled = false → a ∈ underway
  absent : ∀ {c a : Nat} {call : Call Handler}, (c, .awaiting a) ∈ batons →
    calls[c]? = some call → call.settled = true → a ∈ underway → stopped ∨ submitting = some a
  submitting : ∀ {a : Nat}, submitting = some a → ∃ c, (c, .awaiting a) ∈ batons

/-- Only the timers of attempts are cancelled, and never the timer of a wait. -/
structure IsTimed (batons : Multiset (Nat × Baton)) (alarms : List Nat) (created : Nat)
    (cancelled : List Nat) : Prop where
  wait : ∀ {c n : Nat}, (c, .timed n) ∈ batons → n < created ∧ n ∉ alarms
  alarm : ∀ {n : Nat}, n ∈ alarms → n < created
  cancel : ∀ {n : Nat}, n ∈ cancelled → n ∈ alarms

/-- The invariant of relays. -/
structure IsSound (r : Relay Handler) : Prop where
  carried : IsCarried r.kind r.calls r.batons (r.stopped = true ∨ r.closed = true)
  awaited : IsAwaited r.kind r.calls r.batons r.underway r.submitting r.alarms.length
    (r.stopped = true)
  timed : IsTimed r.batons r.alarms r.created r.cancelled

/-! ## Calls keep their batons -/

namespace IsCarried

variable {kind : FrontendKind} {calls : List (Call Handler)} {batons rest : Multiset (Nat × Baton)}
  {halted halted' : Prop} {c d : Nat} {b x : Baton} {call call' : Call Handler}

/-- The others do not hold a baton of the same call. -/
theorem ne_of_mem (h : IsCarried kind calls ({(c, b)} + rest) halted) (hd : (d, x) ∈ rest) :
    d ≠ c := by
  have hunique := h.unique
  rw [Multiset.map_add, Multiset.map_singleton, Multiset.singleton_add, Multiset.nodup_cons]
    at hunique
  intro hdc
  exact hunique.1 (Multiset.mem_map.2 ⟨(d, x), hd, hdc⟩)

theorem halt (h : IsCarried kind calls batons halted) (hh : halted → halted') :
    IsCarried kind calls batons halted' :=
  ⟨h.unique, h.fits, h.carried, fun hb hc hs hl => (h.idle hb hc hs hl).imp_right hh⟩

/-- The baton of a call may be replaced by another one, and the call with it, if they fit; and it
may be dropped when the call is settled. -/
theorem replace (h : IsCarried kind calls ({(c, b)} + rest) halted) (hc : calls[c]? = some call)
    (call' : Call Handler) (next : Option Baton) (hfits : ∀ b', next = some b' → b'.Fits kind call')
    (hnone : next = none → call'.settled = true)
    (hidle : ∀ b', next = some b' → call'.settled = true → b'.isLive = true →
      call.settled = true ∧ b.isLive = true) :
    IsCarried kind (calls.set c call') (Baton.held c next + rest) halted := by
  have hmem : ∀ {d x}, (d, x) ∈ rest → (d, x) ∈ {(c, b)} + rest :=
    fun hd => Multiset.mem_add.2 (Or.inr hd)
  have hself : (calls.set c call')[c]? = some call' :=
    List.getElem?_set_self (List.getElem?_eq_some_iff.1 hc).1
  have hother : ∀ {d}, d ≠ c → (calls.set c call')[d]? = calls[d]? :=
    fun hd => List.getElem?_set_ne hd.symm
  refine ⟨?_, ?_, ?_, ?_⟩
  · have hunique := h.unique
    rw [Multiset.map_add] at hunique ⊢
    cases next with
    | none =>
      have hnone : (Baton.held c none).map Prod.fst = 0 := rfl
      rw [hnone, zero_add]
      exact Multiset.nodup_of_le (Multiset.le_add_left _ _) hunique
    | some b' => exact hunique
  · intro d x hx
    rcases Multiset.mem_add.1 hx with hx | hx
    · obtain ⟨rfl, hnext⟩ := Baton.mem_held.1 hx
      exact ⟨call', hself, hfits x hnext⟩
    · rw [hother (h.ne_of_mem hx)]
      exact h.fits (hmem hx)
  · intro d other hd hu
    by_cases hdc : d = c
    · subst hdc
      obtain rfl : call' = other := Option.some.inj (hself.symm.trans hd)
      cases hnext : next with
      | none =>
        rw [hnone hnext] at hu
        cases hu
      | some b' => exact ⟨b', Multiset.mem_add.2 (Or.inl (Baton.mem_held.2 ⟨rfl, rfl⟩))⟩
    · rw [hother hdc] at hd
      obtain ⟨x, hx⟩ := h.carried hd hu
      refine ⟨x, Multiset.mem_add.2 (Or.inr ?_)⟩
      rcases Multiset.mem_add.1 hx with hx | hx
      · exact absurd (congrArg Prod.fst (Multiset.mem_singleton.1 hx)) hdc
      · exact hx
  · intro d x other hx hd hs hl
    rcases Multiset.mem_add.1 hx with hx | hx
    · obtain ⟨rfl, hnext⟩ := Baton.mem_held.1 hx
      obtain rfl : call' = other := Option.some.inj (hself.symm.trans hd)
      obtain ⟨hsettled, hlive⟩ := hidle x hnext hs hl
      exact h.idle (Multiset.mem_add.2 (Or.inl (Multiset.mem_singleton_self _))) hc hsettled hlive
    · rw [hother (h.ne_of_mem hx)] at hd
      exact h.idle (hmem hx) hd hs hl

/-- A baton may be passed on to hands that the call fits as well. -/
theorem pass (h : IsCarried kind calls ({(c, b)} + rest) halted) {b' : Baton}
    (hfits : ∀ call : Call Handler, b.Fits kind call → b'.Fits kind call)
    (hlive : b'.isLive = true → b.isLive = true) :
    IsCarried kind calls ({(c, b')} + rest) halted := by
  obtain ⟨call, hc, hfit⟩ := h.fits (Multiset.mem_add.2 (Or.inl (Multiset.mem_singleton_self _)))
  have hreplace := h.replace hc call (some b')
    (by rintro _ ⟨⟩; exact hfits call hfit) (by rintro ⟨⟩)
    (by rintro _ ⟨⟩ hs hl; exact ⟨hs, hlive hl⟩)
  rw [set_of_getElem?_eq_some hc] at hreplace
  exact hreplace

/-- A call whose attempt came to something is to be resumed with that. -/
theorem answer {a : Nat} (h : IsCarried kind calls ({(c, .awaiting a)} + rest) halted)
    (outcome : Outcome) :
    IsCarried kind calls ({(c, .advancing (some outcome))} + rest) halted :=
  h.pass (fun _ hfits => ⟨hfits.1, CycleState.takes_of_isSent hfits.2 outcome⟩) (fun _ => rfl)

/-- A call may be settled while its baton stays where it is, if the frontend refuses to go on. -/
theorem settle (h : IsCarried kind calls batons halted) (hc : calls[c]? = some call)
    (hk : kind = .reactor) (hh : halted) :
    IsCarried kind (calls.set c { call with settled := true }) batons halted := by
  have hself : (calls.set c { call with settled := true })[c]?
      = some { call with settled := true } :=
    List.getElem?_set_self (List.getElem?_eq_some_iff.1 hc).1
  refine ⟨h.unique, ?_, ?_, ?_⟩
  · intro d x hx
    obtain ⟨other, hd, hfits⟩ := h.fits hx
    by_cases hdc : d = c
    · subst hdc
      obtain rfl : call = other := Option.some.inj (hc.symm.trans hd)
      exact ⟨_, hself, hfits.settle⟩
    · exact ⟨other, (List.getElem?_set_ne (Ne.symm hdc)).trans hd, hfits⟩
  · intro d other hd hu
    by_cases hdc : d = c
    · subst hdc
      obtain rfl := Option.some.inj (hself.symm.trans hd)
      cases hu
    · rw [List.getElem?_set_ne (Ne.symm hdc)] at hd
      exact h.carried hd hu
  · intro d x other hx hd hs hl
    exact ⟨hk, hh⟩

/-- A new call comes with its baton. -/
theorem concat (h : IsCarried kind calls batons halted) (hfits : b.Fits kind call)
    (hu : call.settled = false) :
    IsCarried kind (calls ++ [call]) ({(calls.length, b)} + batons) halted := by
  have hold : ∀ {d x}, (d, x) ∈ batons → d < calls.length ∧ (calls ++ [call])[d]? = calls[d]? := by
    intro d x hx
    obtain ⟨other, hd, -⟩ := h.fits hx
    have hlt := (List.getElem?_eq_some_iff.1 hd).1
    exact ⟨hlt, List.getElem?_append_left hlt⟩
  refine ⟨?_, ?_, ?_, ?_⟩
  · rw [Multiset.map_add, Multiset.map_singleton, Multiset.singleton_add, Multiset.nodup_cons]
    refine ⟨?_, h.unique⟩
    intro hm
    obtain ⟨⟨d, x⟩, hx, hd⟩ := Multiset.mem_map.1 hm
    exact absurd hd (Nat.ne_of_lt (hold hx).1)
  · intro d x hx
    rcases Multiset.mem_add.1 hx with hx | hx
    · obtain ⟨rfl, rfl⟩ := Prod.mk.inj (Multiset.mem_singleton.1 hx)
      exact ⟨call, List.getElem?_concat_length, hfits⟩
    · rw [(hold hx).2]
      exact h.fits hx
  · intro d other hd hu'
    by_cases hdc : d = calls.length
    · subst hdc
      exact ⟨b, Multiset.mem_add.2 (Or.inl (Multiset.mem_singleton_self _))⟩
    · have hlt : d < calls.length := by
        have := (List.getElem?_eq_some_iff.1 hd).1
        rw [List.length_append, List.length_singleton] at this
        omega
      rw [List.getElem?_append_left hlt] at hd
      obtain ⟨x, hx⟩ := h.carried hd hu'
      exact ⟨x, Multiset.mem_add.2 (Or.inr hx)⟩
  · intro d x other hx hd hs hl
    rcases Multiset.mem_add.1 hx with hx | hx
    · obtain ⟨rfl, rfl⟩ := Prod.mk.inj (Multiset.mem_singleton.1 hx)
      obtain rfl := Option.some.inj (List.getElem?_concat_length.symm.trans hd)
      rw [hu] at hs
      cases hs
    · rw [(hold hx).2] at hd
      exact h.idle hx hd hs hl

/-- A call has one baton. -/
theorem eq_of_mem (h : IsCarried kind calls batons halted) (hx : (c, x) ∈ batons)
    (hb : (c, b) ∈ batons) : x = b := by
  obtain ⟨rest, rfl⟩ := Multiset.exists_cons_of_mem hb
  rw [← Multiset.singleton_add] at h
  rcases Multiset.mem_cons.1 hx with hx | hx
  · exact (Prod.mk.inj hx).2
  · exact absurd rfl (h.ne_of_mem hx)

end IsCarried

/-! ## Attempts and timers -/

/-- A baton that is replaced by one that is neither that of an attempt nor that of a timer. -/
theorem mem_of_mem_replaced {rest : Multiset (Nat × Baton)} {c d : Nat} {next : Option Baton}
    {x : Baton} (hn : ∀ b, next = some b → b ≠ x) (hx : (d, x) ∈ Baton.held c next + rest) :
    (d, x) ∈ rest := by
  rcases Multiset.mem_add.1 hx with hx | hx
  · exact absurd rfl (hn x (Baton.mem_held.1 hx).2)
  · exact hx

/-- Another baton than the one that is taken out stays. -/
theorem mem_of_ne {rest : Multiset (Nat × Baton)} {c d : Nat} {b x : Baton} (hb : b ≠ x)
    (hx : (d, x) ∈ {(c, b)} + rest) : (d, x) ∈ rest := by
  rcases Multiset.mem_add.1 hx with hx | hx
  · exact absurd (Prod.mk.inj (Multiset.mem_singleton.1 hx)).2.symm hb
  · exact hx

namespace IsAwaited

variable {kind : FrontendKind} {calls calls' : List (Call Handler)}
  {batons batons' rest : Multiset (Nat × Baton)} {underway others : Multiset Nat}
  {submitting : Option Nat} {made a c : Nat} {stopped stopped' halted : Prop} {b : Baton}
  {call : Call Handler}

/-- Nothing changes for attempts if nobody awaits one that was not awaited before, and no call that
awaits one has changed. -/
theorem mono (h : IsAwaited kind calls batons underway submitting made stopped)
    (hb : ∀ d a, (d, .awaiting a) ∈ batons' → (d, .awaiting a) ∈ batons ∧ calls'[d]? = calls[d]?)
    (hs : ∀ a, submitting = some a → ∃ c, (c, .awaiting a) ∈ batons')
    (hh : stopped → stopped') :
    IsAwaited kind calls' batons' underway submitting made stopped' := by
  refine ⟨h.unique, h.bound, ?_, ?_, ?_, fun ha => hs _ ha⟩
  · intro d a hd
    exact h.known (hb d a hd).1
  · intro d a other hd hc hu
    exact h.present (hb d a hd).1 ((hb d a hd).2 ▸ hc) hu
  · intro d a other hd hc hs' ha
    exact (h.absent (hb d a hd).1 ((hb d a hd).2 ▸ hc) hs' ha).imp_left hh

/-- A call that awaits no attempt may get another baton that awaits none. -/
theorem replace (h : IsAwaited kind calls ({(c, b)} + rest) underway submitting made stopped)
    (hcarried : IsCarried kind calls ({(c, b)} + rest) halted) (hb : b.isAwaiting = false)
    (call' : Call Handler) {next : Option Baton}
    (hn : ∀ b', next = some b' → b'.isAwaiting = false) :
    IsAwaited kind (calls.set c call') (Baton.held c next + rest) underway submitting made
      stopped := by
  refine h.mono ?_ ?_ id
  · intro d a hd
    have hrest : (d, .awaiting a) ∈ rest :=
      mem_of_mem_replaced (by rintro b' hb' rfl; cases hn _ hb') hd
    exact ⟨Multiset.mem_add.2 (Or.inr hrest),
      List.getElem?_set_ne (hcarried.ne_of_mem hrest).symm⟩
  · intro a ha
    obtain ⟨d, hd⟩ := h.submitting ha
    exact ⟨d, Multiset.mem_add.2 (Or.inr (mem_of_ne (by rintro rfl; cases hb) hd))⟩

/-- The same when the call stays as it is. -/
theorem pass (h : IsAwaited kind calls ({(c, b)} + rest) underway submitting made stopped)
    (hcarried : IsCarried kind calls ({(c, b)} + rest) halted) (hb : b.isAwaiting = false)
    (next : Option Baton) (hn : ∀ b', next = some b' → b'.isAwaiting = false) :
    IsAwaited kind calls (Baton.held c next + rest) underway submitting made stopped := by
  obtain ⟨call, hc, -⟩ :=
    hcarried.fits (Multiset.mem_add.2 (Or.inl (Multiset.mem_singleton_self _)))
  have hreplace := h.replace hcarried hb call hn
  rw [set_of_getElem?_eq_some hc] at hreplace
  exact hreplace

/-- A new attempt is awaited and on its way. -/
theorem attempt (h : IsAwaited kind calls ({(c, b)} + rest) underway none made stopped)
    (hk : kind = .reactor) :
    IsAwaited kind calls ({(c, .awaiting made)} + rest) ({made} + underway) (some made)
      (made + 1) stopped := by
  have hnew : ∀ {d a}, (d, Baton.awaiting a) ∈ {(c, .awaiting made)} + rest →
      a = made ∨ (d, .awaiting a) ∈ {(c, b)} + rest := by
    intro d a hd
    rcases Multiset.mem_add.1 hd with hd | hd
    · exact Or.inl (Baton.awaiting.inj (Prod.mk.inj (Multiset.mem_singleton.1 hd)).2)
    · exact Or.inr (Multiset.mem_add.2 (Or.inr hd))
  refine ⟨?_, ?_, ?_, ?_, ?_, ?_⟩
  · rw [Multiset.singleton_add, Multiset.nodup_cons]
    exact ⟨fun hm => Nat.lt_irrefl made (h.bound hm).1, h.unique⟩
  · intro a ha
    rcases Multiset.mem_add.1 ha with ha | ha
    · obtain rfl := Multiset.mem_singleton.1 ha
      exact ⟨Nat.lt_succ_self a, hk⟩
    · exact ⟨Nat.lt_succ_of_lt (h.bound ha).1, hk⟩
  · intro d a hd
    rcases hnew hd with rfl | hd
    · exact Nat.lt_succ_self a
    · exact Nat.lt_succ_of_lt (h.known hd)
  · intro d a other hd hc hu
    rcases hnew hd with rfl | hd
    · exact Multiset.mem_add.2 (Or.inl (Multiset.mem_singleton_self a))
    · exact Multiset.mem_add.2 (Or.inr (h.present hd hc hu))
  · intro d a other hd hc hs ha
    rcases hnew hd with rfl | hd
    · exact Or.inr rfl
    · rcases Multiset.mem_add.1 ha with ha | ha
      · exact Or.inr (congrArg some (Multiset.mem_singleton.1 ha).symm)
      · rcases h.absent hd hc hs ha with hstopped | ⟨⟨⟩⟩
        exact Or.inl hstopped
  · rintro a ⟨⟩
    exact ⟨c, Multiset.mem_add.2 (Or.inl (Multiset.mem_singleton_self _))⟩

/-- An attempt is in the pool. If its call is settled, then the reactor was stopped, since the pool
is open. -/
theorem submit (h : IsAwaited kind calls batons underway submitting made stopped)
    (hcarried : IsCarried kind calls batons halted) (hh : halted → stopped) :
    IsAwaited kind calls batons underway none made stopped := by
  refine ⟨h.unique, h.bound, h.known, h.present, ?_, by rintro _ ⟨⟩⟩
  intro d a other hd hc hs ha
  exact Or.inl (hh (hcarried.idle hd hc hs rfl).2)

/-- What an attempt came to is known, and its call awaits it no more. -/
theorem answer (h : IsAwaited kind calls ({(c, .awaiting a)} + rest) underway none made stopped)
    (hb : b.isAwaiting = false) :
    IsAwaited kind calls ({(c, b)} + rest) underway none made stopped := by
  refine h.mono ?_ (by rintro _ ⟨⟩) id
  intro d x hd
  exact ⟨Multiset.mem_add.2 (Or.inr (mem_of_ne (by rintro rfl; cases hb) hd)), rfl⟩

/-- An attempt that nobody awaits any more is not on its way any more. -/
theorem drop (h : IsAwaited kind calls batons ({a} + others) submitting made stopped)
    (ho : ∀ d, (d, .awaiting a) ∉ batons) :
    IsAwaited kind calls batons others submitting made stopped := by
  have hmem : ∀ {x}, x ∈ others → x ∈ {a} + others := fun hx => Multiset.mem_add.2 (Or.inr hx)
  refine ⟨?_, fun hx => h.bound (hmem hx), h.known, ?_,
    fun hd hc hs hx => h.absent hd hc hs (hmem hx), h.submitting⟩
  · have hunique := h.unique
    rw [Multiset.singleton_add, Multiset.nodup_cons] at hunique
    exact hunique.2
  · intro d x other hd hc hu
    rcases Multiset.mem_add.1 (h.present hd hc hu) with hx | hx
    · obtain rfl := Multiset.mem_singleton.1 hx
      exact absurd hd (ho d)
    · exact hx

/-- An attempt that is refused is awaited by the settled call alone. -/
theorem present_of_settle
    (h : IsAwaited kind calls batons ({a} + others) submitting made stopped)
    (hc : calls[c]? = some call) (ho : ∀ d, (d, .awaiting a) ∈ batons → d = c) {d x : Nat}
    {other : Call Handler} (hd : (d, .awaiting x) ∈ batons)
    (hother : (calls.set c { call with settled := true })[d]? = some other)
    (hu : other.settled = false) : x ∈ others := by
  have hdc : d ≠ c := by
    rintro rfl
    rw [List.getElem?_set_self (List.getElem?_eq_some_iff.1 hc).1] at hother
    obtain rfl := Option.some.inj hother
    cases hu
  rw [List.getElem?_set_ne hdc.symm] at hother
  rcases Multiset.mem_add.1 (h.present hd hother hu) with hx | hx
  · obtain rfl := Multiset.mem_singleton.1 hx
    exact absurd (ho d hd) hdc
  · exact hx

/-- The pool refuses an attempt, and its call is settled. -/
theorem decline (h : IsAwaited kind calls batons ({a} + others) (some a) made stopped)
    (hcarried : IsCarried kind calls batons halted) (hb : (c, .awaiting a) ∈ batons)
    (hc : calls[c]? = some call) (ho : ∀ d, (d, .awaiting a) ∈ batons → d = c) :
    IsAwaited kind (calls.set c { call with settled := true }) batons others none made
      stopped := by
  have hmem : ∀ {x}, x ∈ others → x ∈ {a} + others := fun hx => Multiset.mem_add.2 (Or.inr hx)
  have hunique := h.unique
  rw [Multiset.singleton_add, Multiset.nodup_cons] at hunique
  refine ⟨hunique.2, fun hx => h.bound (hmem hx), h.known,
    fun hd hother hu => h.present_of_settle hc ho hd hother hu, ?_, by rintro _ ⟨⟩⟩
  intro d x other hd hother hs hx
  have hxa : x ≠ a := by
    rintro rfl
    exact hunique.1 hx
  have hdc : d ≠ c := by
    rintro rfl
    exact hxa (Baton.awaiting.inj (hcarried.eq_of_mem hd hb))
  rw [List.getElem?_set_ne hdc.symm] at hother
  rcases h.absent hd hother hs (hmem hx) with hstopped | hsubmitting
  · exact Or.inl hstopped
  · exact absurd (Option.some.inj hsubmitting).symm hxa

/-- A stopped reactor refuses a response, and the call of its attempt is settled. -/
theorem refuse (h : IsAwaited kind calls batons ({a} + others) submitting made stopped)
    (hc : calls[c]? = some call) (ho : ∀ d, (d, .awaiting a) ∈ batons → d = c) (hs : stopped) :
    IsAwaited kind (calls.set c { call with settled := true }) batons others submitting made
      stopped := by
  have hmem : ∀ {x}, x ∈ others → x ∈ {a} + others := fun hx => Multiset.mem_add.2 (Or.inr hx)
  have hunique := h.unique
  rw [Multiset.singleton_add, Multiset.nodup_cons] at hunique
  exact ⟨hunique.2, fun hx => h.bound (hmem hx), h.known,
    fun hd hother hu => h.present_of_settle hc ho hd hother hu, fun _ _ _ _ => Or.inl hs,
    h.submitting⟩

end IsAwaited

namespace IsTimed

variable {batons batons' rest : Multiset (Nat × Baton)} {alarms cancelled : List Nat}
  {created c : Nat} {b : Baton}

/-- Nothing changes for timers if no baton of one is new. -/
theorem mono (h : IsTimed batons alarms created cancelled)
    (hb : ∀ c n, (c, .timed n) ∈ batons' → (c, .timed n) ∈ batons) :
    IsTimed batons' alarms created cancelled :=
  ⟨fun hc => h.wait (hb _ _ hc), h.alarm, h.cancel⟩

theorem replace (h : IsTimed ({(c, b)} + rest) alarms created cancelled)
    (next : Option Baton) (hn : ∀ b', next = some b' → b'.isTimed = false) :
    IsTimed (Baton.held c next + rest) alarms created cancelled := by
  refine h.mono ?_
  intro d n hd
  exact Multiset.mem_add.2 (Or.inr (mem_of_mem_replaced (by rintro b' hb' rfl; cases hn _ hb') hd))

/-- A new timer for a wait is the timer of no attempt. -/
theorem wait_created (h : IsTimed ({(c, b)} + rest) alarms created cancelled) :
    IsTimed ({(c, .timed created)} + rest) alarms (created + 1) cancelled := by
  refine ⟨?_, fun hn => Nat.lt_succ_of_lt (h.alarm hn), h.cancel⟩
  intro d n hd
  rcases Multiset.mem_add.1 hd with hd | hd
  · obtain rfl := Baton.timed.inj (Prod.mk.inj (Multiset.mem_singleton.1 hd)).2
    exact ⟨Nat.lt_succ_self n, fun hn => Nat.lt_irrefl n (h.alarm hn)⟩
  · obtain ⟨hlt, hn⟩ := h.wait (Multiset.mem_add.2 (Or.inr hd))
    exact ⟨Nat.lt_succ_of_lt hlt, hn⟩

/-- A new timer for an attempt is the timer of no wait. -/
theorem alarm_created (h : IsTimed batons alarms created cancelled) :
    IsTimed batons (alarms ++ [created]) (created + 1) cancelled := by
  refine ⟨?_, ?_, fun hn => List.mem_append_left _ (h.cancel hn)⟩
  · intro d n hd
    obtain ⟨hlt, hn⟩ := h.wait hd
    refine ⟨Nat.lt_succ_of_lt hlt, ?_⟩
    intro hm
    rcases List.mem_append.1 hm with hm | hm
    · exact hn hm
    · exact Nat.ne_of_lt hlt (List.mem_singleton.1 hm)
  · intro n hm
    rcases List.mem_append.1 hm with hm | hm
    · exact Nat.lt_succ_of_lt (h.alarm hm)
    · exact Nat.lt_succ_of_le (Nat.le_of_eq (List.mem_singleton.1 hm))

end IsTimed

/-! ## Every move keeps a relay sound -/

namespace IsSound

variable {clearing : Prop} {r r' : Relay Handler} {event : Option (Nat × CallEvent)} {c : Nat}
  {b : Baton} {rest : Multiset (Nat × Baton)}

/-- A sound relay, with one of its batons taken out of the others. -/
theorem take (h : r.IsSound) (hb : r.batons = {(c, b)} + rest) :
    IsCarried r.kind r.calls ({(c, b)} + rest) (r.stopped = true ∨ r.closed = true)
    ∧ IsAwaited r.kind r.calls ({(c, b)} + rest) r.underway r.submitting r.alarms.length
      (r.stopped = true)
    ∧ IsTimed ({(c, b)} + rest) r.alarms r.created r.cancelled :=
  hb ▸ ⟨h.carried, h.awaited, h.timed⟩

/-- The call of a baton that is taken out fits. -/
theorem exists_fits (h : r.IsSound) (hb : r.batons = {(c, b)} + rest) :
    ∃ call, r.calls[c]? = some call ∧ b.Fits r.kind call :=
  h.carried.fits (hb ▸ Multiset.mem_add.2 (Or.inl (Multiset.mem_singleton_self _)))

/-- **Every move keeps a relay sound.** -/
theorem move (h : r.IsSound) (hm : Move clearing r event r') : r'.IsSound := by
  cases hm with
  | still stopped closed hs hc =>
    refine ⟨h.carried.halt (Or.imp hs hc), ?_, h.timed⟩
    exact h.awaited.mono (fun d a hd => ⟨hd, rfl⟩) (fun a ha => h.awaited.submitting ha) hs
  | opened => exact ⟨h.carried, h.awaited, h.timed⟩
  | cleared _ cursors => exact ⟨h.carried, h.awaited, h.timed⟩
  | accepted hi request policy callback =>
    have hmem : ∀ {d x}, x ≠ .launching →
        (d, x) ∈ {(r.calls.length, Baton.launching)} + r.batons → (d, x) ∈ r.batons :=
      fun hx hd => mem_of_ne hx.symm hd
    refine ⟨h.carried.concat rfl rfl, h.awaited.mono ?_ ?_ id, h.timed.mono ?_⟩
    · intro d a hd
      have hold := hmem (by rintro ⟨⟩) hd
      obtain ⟨other, hother, -⟩ := h.carried.fits hold
      exact ⟨hold, List.getElem?_append_left (List.getElem?_eq_some_iff.1 hother).1⟩
    · intro a ha
      obtain ⟨d, hd⟩ := h.awaited.submitting ha
      exact ⟨d, Multiset.mem_add.2 (Or.inr hd)⟩
    · intro d n hd
      exact hmem (by rintro ⟨⟩) hd
  | @passed c b b' _ rest hb hp =>
    obtain ⟨hcarried, hawaited, htimed⟩ := h.take hb
    obtain ⟨hbefore, hafter, htimer⟩ := hp.isAwaiting
    refine ⟨hcarried.pass (fun call hfits => hp.fits hfits) hp.isLive, ?_, ?_⟩
    · exact hawaited.pass hcarried hbefore (some b') (by rintro _ ⟨⟩; exact hafter)
    · exact htimed.replace (some b') (by rintro _ ⟨⟩; exact htimer)
  | @left c result rest hb =>
    obtain ⟨hcarried, hawaited, htimed⟩ := h.take hb
    obtain ⟨call, hc, hfits⟩ := h.exists_fits hb
    have hsettled : call.settled = true := hfits.2
    have hreplace := hcarried.replace hc call none (by rintro _ ⟨⟩)
      (fun _ => hsettled) (by rintro _ ⟨⟩)
    have hpass := hawaited.pass hcarried rfl none (by rintro _ ⟨⟩)
    have htimed' := htimed.replace none (by rintro _ ⟨⟩)
    rw [set_of_getElem?_eq_some hc] at hreplace
    have hnone : Baton.held c none + rest = rest := zero_add rest
    rw [hnone] at hreplace hpass htimed'
    exact ⟨hreplace, hpass, htimed'⟩
  | @abandoned c call b next rest hb hc hn =>
    obtain ⟨hcarried, hawaited, htimed⟩ := h.take hb
    obtain ⟨call', hc', hfits⟩ := h.exists_fits hb
    obtain rfl : call = call' := Option.some.inj (hc.symm.trans hc')
    obtain ⟨hbefore, hafter⟩ := hn.isAwaiting
    refine ⟨hcarried.replace hc _ next (hn.fits hfits) (fun _ => rfl) ?_,
      hawaited.replace hcarried hbefore _ (fun b' hb' => (hafter b' hb').1),
      htimed.replace next (fun b' hb' => (hafter b' hb').2.1)⟩
    intro b' hb' _ hlive
    rw [(hafter b' hb').2.2] at hlive
    cases hlive
  | @resumed c call cursor step b settled next rest now fed hb hc hcursor hf hr hn =>
    obtain ⟨hcarried, hawaited, htimed⟩ := h.take hb
    obtain ⟨call', hc', hfits⟩ := h.exists_fits hb
    obtain rfl : call = call' := Option.some.inj (hc.symm.trans hc')
    obtain ⟨hbefore, hafter⟩ := hn.isAwaiting
    obtain ⟨hnone, hsettled⟩ := hn.settled
    exact ⟨hcarried.replace hc _ next (hn.fits hfits hr) hnone
        (fun b' hb' hs hl => ⟨hsettled b' hb' hs hl, hf.isLive⟩),
      hawaited.replace hcarried hbefore _ (fun b' hb' => (hafter b' hb').1),
      htimed.replace next (fun b' hb' => (hafter b' hb').2)⟩
  | @slept c rest hb =>
    obtain ⟨hcarried, hawaited, htimed⟩ := h.take hb
    exact ⟨hcarried.pass (fun call hfits => hfits) (fun _ => rfl),
      hawaited.pass hcarried rfl (some (.timed r.created)) (by rintro _ ⟨⟩; rfl),
      htimed.wait_created⟩
  | @attempted c rest hi hb =>
    obtain ⟨hcarried, hawaited, htimed⟩ := h.take hb
    obtain ⟨call, hc, hfits⟩ := h.exists_fits hb
    rw [hi] at hawaited
    have hattempt := hawaited.attempt hfits.1
    have hlength : (r.alarms ++ [r.created]).length = r.alarms.length + 1 := by simp
    rw [← hlength] at hattempt
    have hreplace := htimed.replace (some (.awaiting r.alarms.length)) (by rintro _ ⟨⟩; rfl)
    exact ⟨hcarried.pass (fun call hfits => hfits) (fun _ => rfl), hattempt,
      hreplace.alarm_created⟩
  | submitted hopen ha hb =>
    refine ⟨h.carried, h.awaited.submit h.carried ?_, h.timed⟩
    rintro (hs | hc)
    · exact hs
    · rw [hopen] at hc
      cases hc
  | @declined c a call others hclosed ha hb ho hu hc =>
    have hawaited := h.awaited
    rw [ha, hu] at hawaited
    have hk := (hawaited.bound (Multiset.mem_add.2 (Or.inl (Multiset.mem_singleton_self a)))).2
    exact ⟨h.carried.settle hc hk (Or.inr hclosed), hawaited.decline h.carried hb hc ho, h.timed⟩
  | @refused c a call others hs ho hu hc =>
    have hawaited := h.awaited
    rw [hu] at hawaited
    have hk := (hawaited.bound (Multiset.mem_add.2 (Or.inl (Multiset.mem_singleton_self a)))).2
    exact ⟨h.carried.settle hc hk (Or.inl hs), hawaited.refuse hc ho hs, h.timed⟩
  | @arrived c a timer outcome rest others hi hb ho hu ht =>
    obtain ⟨hcarried, hawaited, htimed⟩ := h.take hb
    rw [hi] at hawaited
    have hanswered := hawaited.answer (b := .advancing (some outcome)) rfl
    rw [hu] at hanswered
    have hdropped := hanswered.drop (fun d hd => ho d (mem_of_ne (by rintro ⟨⟩) hd))
    have hreplace := htimed.replace (some (.advancing (some outcome))) (by rintro _ ⟨⟩; rfl)
    refine ⟨hcarried.answer outcome, hi ▸ hdropped, hreplace.wait, hreplace.alarm, ?_⟩
    intro n hn
    rcases List.mem_cons.1 hn with rfl | hn
    · exact List.mem_of_getElem? ht
    · exact h.timed.cancel hn
  | @expired c a outcome rest hi hb ho _ =>
    obtain ⟨hcarried, hawaited, htimed⟩ := h.take hb
    rw [hi] at hawaited
    have hanswered := hawaited.answer (b := .advancing (some outcome)) rfl
    exact ⟨hcarried.answer outcome, hi ▸ hanswered,
      htimed.replace (some (.advancing (some outcome))) (by rintro _ ⟨⟩; rfl)⟩
  | @dropped a others ho hu =>
    have hawaited := h.awaited
    rw [hu] at hawaited
    exact ⟨h.carried, hawaited.drop ho, h.timed⟩

end IsSound

end Relay

/-! ## What the holders of batons know -/

/-- Something that is true of a call and the holder of its baton when the operation is accepted, and
stays true while the baton goes from hand to hand, whatever becomes of the call. -/
structure Baton.IsPassedOn (kind : FrontendKind) (P : Call Handler → Baton → Prop) : Prop where
  settle : ∀ {call : Call Handler} {b : Baton}, P call b → P { call with settled := true } b
  start : ∀ (i : Nat) (request : Request) (policy : RetryPolicy) (callback : Option Handler),
    P (.start i request policy callback) .launching
  passes : ∀ {call : Call Handler} {event : Option CallEvent} {b b' : Baton},
    b.Passes kind event b' → b.Fits kind call → P call b → P call b'
  continues : ∀ {call : Call Handler} {effect : Effect} {before settled : Bool} {b b' : Baton},
    b.Continues effect before settled (some b') → P call b'
  abandons : ∀ {call : Call Handler} {stopped : Bool} {b b' : Baton},
    b.Abandons stopped (some b') → call.settled = true → P call b'
  timed : ∀ (call : Call Handler) (n : Nat), P call (.timed n)
  awaiting : ∀ (call : Call Handler) (a : Nat), P call (.awaiting a)
  advancing : ∀ (call : Call Handler) (fed : Option Outcome), P call (.advancing fed)

namespace Relay

/-- It is true of every call whose baton somebody holds, and of the holder. -/
def HoldersKnow (r : Relay Handler) (P : Call Handler → Baton → Prop) : Prop :=
  ∀ (c : Nat) (b : Baton) (call : Call Handler), (c, b) ∈ r.batons → r.calls[c]? = some call →
    P call b

namespace HoldersKnow

variable {clearing : Prop} {r r' : Relay Handler} {event : Option (Nat × CallEvent)} {c : Nat}
  {call : Call Handler} {P : Call Handler → Baton → Prop}

/-- A baton may be replaced by one whose holder knows it of the call as it is then. -/
theorem replace (h : r.HoldersKnow P) (hs : r.IsSound) {b : Baton}
    {rest : Multiset (Nat × Baton)} (hb : r.batons = {(c, b)} + rest) (next : Option Baton)
    (hn : ∀ b' call, next = some b' → r'.calls[c]? = some call → P call b')
    (hbatons : r'.batons = Baton.held c next + rest)
    (hcalls : ∀ d, d ≠ c → r'.calls[d]? = r.calls[d]?) : r'.HoldersKnow P := by
  obtain ⟨hcarried, -, -⟩ := hs.take hb
  intro d x call hd hcall
  rw [hbatons] at hd
  rcases Multiset.mem_add.1 hd with hd | hd
  · obtain ⟨rfl, hx⟩ := Baton.mem_held.1 hd
    exact hn x call hx hcall
  · rw [hcalls d (hcarried.ne_of_mem hd)] at hcall
    exact h d x call (hb ▸ Multiset.mem_add.2 (Or.inr hd)) hcall

/-- A call may be settled in the hands that it is in. -/
theorem settle (h : r.HoldersKnow P) (hp : Baton.IsPassedOn r.kind P)
    (hc : r.calls[c]? = some call) : (r.settle c call).HoldersKnow P := by
  intro d x other hd hother
  by_cases hdc : c = d
  · subst hdc
    change (r.calls.set c _)[c]? = some other at hother
    rw [List.getElem?_set_self (List.getElem?_eq_some_iff.1 hc).1] at hother
    obtain rfl := Option.some.inj hother
    exact hp.settle (h c x call hd hc)
  · exact h d x other hd ((List.getElem?_set_ne hdc).symm.trans hother)

/-- **Every move leaves the calls with holders who know of them what is passed on.** -/
theorem move (h : r.HoldersKnow P) (hpassed : Baton.IsPassedOn r.kind P) (hs : r.IsSound)
    (hm : Move clearing r event r') : r'.HoldersKnow P := by
  have hother : ∀ {c : Nat} {call' : Call Handler} {d : Nat}, d ≠ c →
      (r.calls.set c call')[d]? = r.calls[d]? := fun hd => List.getElem?_set_ne (Ne.symm hd)
  have hself : ∀ {c : Nat} {call call' other : Call Handler}, r.calls[c]? = some call →
      (r.calls.set c call')[c]? = some other → other = call' := by
    intro c call call' other hc hother
    rw [List.getElem?_set_self (List.getElem?_eq_some_iff.1 hc).1] at hother
    exact (Option.some.inj hother).symm
  cases hm with
  | still stopped closed hstop hclose => exact h
  | opened => exact h
  | cleared hcl cursors => exact h
  | submitted hopen ha hb => exact h
  | dropped ho hu => exact h
  | declined hclosed ha hb ho hu hc => exact h.settle hpassed hc
  | refused hstopped ho hu hc => exact h.settle hpassed hc
  | accepted hi request policy callback =>
    intro d x call hd hcall
    rcases Multiset.mem_add.1 hd with hd | hd
    · obtain ⟨rfl, rfl⟩ := Prod.mk.inj (Multiset.mem_singleton.1 hd)
      obtain rfl := Option.some.inj (List.getElem?_concat_length.symm.trans hcall)
      exact hpassed.start _ request policy callback
    · obtain ⟨call', hcall', -⟩ := hs.carried.fits hd
      have hlt := (List.getElem?_eq_some_iff.1 hcall').1
      exact h d x call hd ((List.getElem?_append_left hlt).symm.trans hcall)
  | @passed c b b' event rest hb hp =>
    obtain ⟨call, hcall, hfits⟩ := hs.exists_fits hb
    have hknown := h c b call (hb ▸ Multiset.mem_add.2 (Or.inl (Multiset.mem_singleton_self _)))
      hcall
    refine h.replace hs hb (some b') ?_ rfl (fun d hd => rfl)
    rintro _ other ⟨⟩ ho
    obtain rfl := Option.some.inj (hcall.symm.trans ho)
    exact hpassed.passes hp hfits hknown
  | left hb => exact h.replace hs hb none (by rintro _ _ ⟨⟩) (zero_add _).symm (fun d hd => rfl)
  | abandoned hb hc hn =>
    refine h.replace hs hb _ ?_ rfl (fun d hd => hother hd)
    rintro b' other rfl ho
    obtain rfl := hself hc ho
    exact hpassed.abandons hn rfl
  | resumed now hb hc hcursor hf hr hn =>
    refine h.replace hs hb _ ?_ rfl (fun d hd => hother hd)
    rintro b' other rfl -
    exact hpassed.continues hn
  | slept hb =>
    exact h.replace hs hb (some (.timed r.created))
      (by rintro _ _ ⟨⟩ _; exact hpassed.timed _ _) rfl (fun d hd => rfl)
  | attempted hi hb =>
    exact h.replace hs hb (some (.awaiting r.alarms.length))
      (by rintro _ _ ⟨⟩ _; exact hpassed.awaiting _ _) rfl (fun d hd => rfl)
  | arrived hi hb ho hu ht =>
    exact h.replace hs hb (some (.advancing _))
      (by rintro _ _ ⟨⟩ _; exact hpassed.advancing _ _) rfl (fun d hd => rfl)
  | expired hi hb ho hn =>
    exact h.replace hs hb (some (.advancing _))
      (by rintro _ _ ⟨⟩ _; exact hpassed.advancing _ _) rfl (fun d hd => rfl)

end HoldersKnow

end Relay

end Pubsub
