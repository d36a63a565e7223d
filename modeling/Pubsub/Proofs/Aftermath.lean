import Pubsub.Proofs.Soundness

/-!
# What happens to a call after it was settled

A call that was settled is done with when nobody holds a live baton of it: then nothing happens to
it any more. This is so whenever its cycle has ended, as it has when the call was completed, and
whenever the reactor is running and the pool is open.

It need not be so when the pool was shut down or the reactor told to stop. An attempt gets its timer
before it is given to the pool. If the pool refuses it, the call is abandoned, but the timer stays,
and when it goes off the cycle of the abandoned call is resumed as if the attempt had taken too
long.
-/

namespace Pubsub

variable {Handler : Type}

namespace Relay

variable {clearing : Prop} {r r' : Relay Handler} {event : Option (Nat × CallEvent)} {c : Nat}
  {call : Call Handler}

/-- The call is settled, and nobody will go on with it. -/
structure IsDead (r : Relay Handler) (c : Nat) (call : Call Handler) : Prop where
  known : r.calls[c]? = some call
  settled : call.settled = true
  idle : ∀ {b : Baton}, (c, b) ∈ r.batons → b.isLive = false

/-- Settling a call once more, or another call, leaves it as it is. -/
theorem IsDead.set_settled (h : r.IsDead c call) {d : Nat} {other : Call Handler}
    (hd : r.calls[d]? = some other) :
    (r.calls.set d { other with settled := true })[c]? = some call := by
  by_cases hdc : d = c
  · subst hdc
    obtain rfl : other = call := Option.some.inj (hd.symm.trans h.known)
    rw [List.getElem?_set_self (List.getElem?_eq_some_iff.1 hd).1, ← h.settled]
  · rw [List.getElem?_set_ne hdc]
    exact h.known

/-- A live baton is one of another call. -/
theorem IsDead.ne_of_isLive (h : r.IsDead c call) {d : Nat} {b : Baton} (hb : (d, b) ∈ r.batons)
    (hl : b.isLive = true) : d ≠ c := by
  rintro rfl
  rw [h.idle hb] at hl
  cases hl

/-- When a baton is replaced, whether it is that of a dead call or of another one, the dead call
gets no live baton. -/
theorem IsDead.replace (h : r.IsDead c call) {d : Nat} {b : Baton}
    {rest : Multiset (Nat × Baton)} (hb : r.batons = {(d, b)} + rest) (next : Option Baton)
    (hnext : ∀ b', next = some b' → b'.isLive = true → b.isLive = true) {x : Baton}
    (hx : (c, x) ∈ Baton.held d next + rest) : x.isLive = false := by
  rcases Multiset.mem_add.1 hx with hx | hx
  · obtain ⟨rfl, hheld⟩ := Baton.mem_held.1 hx
    by_contra hl
    have hlive := hnext x hheld (Bool.eq_true_of_not_eq_false hl)
    rw [h.idle (hb ▸ Multiset.mem_add.2 (Or.inl (Multiset.mem_singleton_self _)))] at hlive
    cases hlive
  · exact h.idle (hb ▸ Multiset.mem_add.2 (Or.inr hx))

/-- **A dead call stays dead**: no move concerns it, and it stays as it is. -/
theorem IsDead.move (h : r.IsDead c call) (hm : Move clearing r event r') :
    CallEvent.ofCall c event = [] ∧ r'.IsDead c call := by
  have hother : ∀ {d : Nat} {b : Baton} {rest : Multiset (Nat × Baton)} {e : CallEvent},
      r.batons = {(d, b)} + rest → b.isLive = true → CallEvent.ofCall c (some (d, e)) = [] :=
    fun hb hl => if_neg (h.ne_of_isLive
      (hb ▸ Multiset.mem_add.2 (Or.inl (Multiset.mem_singleton_self _))) hl)
  cases hm with
  | still => exact ⟨rfl, h.known, h.settled, h.idle⟩
  | opened => exact ⟨rfl, h.known, h.settled, h.idle⟩
  | cleared => exact ⟨rfl, h.known, h.settled, h.idle⟩
  | dropped => exact ⟨rfl, h.known, h.settled, h.idle⟩
  | accepted hi request policy callback =>
    have hlt := (List.getElem?_eq_some_iff.1 h.known).1
    refine ⟨rfl, (List.getElem?_append_left hlt).trans h.known, h.settled, ?_⟩
    intro x hx
    rcases Multiset.mem_add.1 hx with hx | hx
    · exact absurd (Prod.mk.inj (Multiset.mem_singleton.1 hx)).1 (Nat.ne_of_lt hlt)
    · exact h.idle hx
  | @passed d b b' event rest hb hp =>
    refine ⟨?_, h.known, h.settled, fun hx => h.replace hb (some b') ?_ hx⟩
    · cases event with
      | none => rfl
      | some e => exact hother hb hp.isLive_of_event
    · rintro _ ⟨⟩ hl
      exact hp.isLive hl
  | left hb =>
    exact ⟨rfl, h.known, h.settled, fun hx => h.idle (hb ▸ Multiset.mem_add.2 (Or.inr hx))⟩
  | abandoned hb hd hn =>
    refine ⟨rfl, h.set_settled hd, h.settled, fun hx => h.replace hb _ ?_ hx⟩
    intro b' hb' hl
    rw [(hn.isAwaiting.2 b' hb').2.2] at hl
    cases hl
  | @resumed d other cursor step b settled next rest now fed hb hd hcursor hf hr hn =>
    have hdc := h.ne_of_isLive
      (hb ▸ Multiset.mem_add.2 (Or.inl (Multiset.mem_singleton_self (d, b)))) hf.isLive
    refine ⟨if_neg hdc, (List.getElem?_set_ne hdc).trans h.known, h.settled, ?_⟩
    exact fun hx => h.replace hb _ (fun _ _ _ => hf.isLive) hx
  | slept hb =>
    exact ⟨hother hb rfl, h.known, h.settled,
      fun hx => h.replace hb (some (.timed r.created)) (fun _ _ _ => rfl) hx⟩
  | attempted hi hb =>
    exact ⟨hother hb rfl, h.known, h.settled,
      fun hx => h.replace hb (some (.awaiting r.alarms.length)) (fun _ _ _ => rfl) hx⟩
  | submitted hopen ha hb =>
    exact ⟨if_neg (h.ne_of_isLive hb rfl), h.known, h.settled, h.idle⟩
  | declined hclosed ha hb ho hu hd => exact ⟨rfl, h.set_settled hd, h.settled, h.idle⟩
  | refused hs ho hu hd => exact ⟨rfl, h.set_settled hd, h.settled, h.idle⟩
  | arrived hi hb ho hu ht =>
    exact ⟨hother hb rfl, h.known, h.settled,
      fun hx => h.replace hb (some (.advancing _)) (fun _ _ _ => rfl) hx⟩
  | expired hi hb ho _ =>
    exact ⟨hother hb rfl, h.known, h.settled,
      fun hx => h.replace hb (some (.advancing _)) (fun _ _ _ => rfl) hx⟩

/-- A settled call is dead if its cycle has ended, and if nothing made the frontend refuse to go on
with calls. -/
theorem IsSound.isDead (h : r.IsSound) (hc : r.calls[c]? = some call) (hs : call.settled = true)
    (hd : (r.stopped = false ∧ r.closed = false) ∨ call.cycle.state = .ended) :
    r.IsDead c call := by
  refine ⟨hc, hs, ?_⟩
  intro b hb
  by_contra hl
  have hlive : b.isLive = true := Bool.eq_true_of_not_eq_false hl
  rcases hd with ⟨hstopped, hclosed⟩ | hended
  · rcases (h.carried.idle hb hc hs hlive).2 with hyes | hyes
    · rw [hstopped] at hyes
      cases hyes
    · rw [hclosed] at hyes
      cases hyes
  · obtain ⟨call', hc', hfits⟩ := h.carried.fits hb
    obtain rfl : call = call' := Option.some.inj (hc.symm.trans hc')
    exact hfits.ne_ended hlive hended

end Relay

namespace Client

variable {w w' : Client Handler} {c : Nat} {call : Call Handler}

/-- Nothing happens to a dead call in any run. -/
theorem Reachable.history_of_isDead (hw : Reachable w) (h : w.relay.IsDead c call)
    {actions : List (Action Handler)} (hr : w.run? actions = some w') :
    w.history c actions = [] ∧ w'.calls[c]? = some call := by
  induction actions generalizing w with
  | nil =>
    cases hr
    exact ⟨rfl, h.known⟩
  | cons action rest ih =>
    rw [run?_cons] at hr
    obtain ⟨v, hv, hr⟩ := Option.bind_eq_some_iff.1 hr
    obtain ⟨hnothing, hdead⟩ := h.move (hw.move_act? hv)
    obtain ⟨hrest, hcall⟩ := ih (hw.act action trivial hv) hdead hr
    rw [history_cons hv, hrest, List.append_nil]
    exact ⟨hnothing, hcall⟩

/-- **A settled call stays dead**, unless it was the frontend that gave it up. Whatever run follows,
nothing happens to the call: no outcome is fed to its cycle, it makes no report and is not completed
again, no timer is set for it and no attempt is made; provided that its cycle has ended, or that the
reactor is running and the pool is open. -/
theorem Reachable.settled_stays_dead (hw : Reachable w) (hc : w.calls[c]? = some call)
    (hs : call.settled = true)
    (hd : (w.reactor.stopped = false ∧ w.frontend.poolClosed = false)
      ∨ call.cycle.state = .ended)
    {actions : List (Action Handler)} (hr : w.run? actions = some w') :
    w.history c actions = [] ∧ w'.calls[c]? = some call :=
  hw.history_of_isDead (hw.isSound_relay.1.isDead hc hs hd) hr

/-- An operation that is answered in time, and completed. -/
def answeredAttempt : List (Action Unit) :=
  [.openSession ⟨.null, .null, .null, .str "u", false⟩ "u", .ask 0 .time (.int 1) none,
    .stepInvocation 0, .stepInvocation 0, .stepInvocation 0, .pollReactor, .stepReactor,
    .stepReactor, .stepReactor, .stepReactor, .stepReactor, .stepReactor,
    .postAttempt 0 (.ok (.reply 200 (utf8Bytes "[1]"))), .stepReactor, .stepReactor]

/-- Then the time of its attempt is over, and the timer is dropped. -/
def droppedTimer : List (Action Unit) :=
  [.stepReactor, .stepReactor, .tick 2, .pollReactor, .stepReactor, .stepReactor, .stepReactor]

/-- The timer of an attempt that was answered does nothing to its call. -/
theorem settled_stays_dead_answered :
    ∃ (w w' : Client Unit) (call : Call Unit), onReactor.run? answeredAttempt = some w
      ∧ w.calls[0]? = some call ∧ call.settled = true ∧ w.run? droppedTimer = some w'
      ∧ w.history 0 droppedTimer = [] ∧ w'.calls[0]? = some call := by
  obtain ⟨w, hrun⟩ := Option.isSome_iff_exists.1
    (show (onReactor.run? answeredAttempt).isSome = true by decide +kernel)
  have hfacts : (onReactor.run? answeredAttempt).any (fun w =>
      (w.calls[0]?).any (fun call => call.settled) && !w.reactor.stopped
        && !w.frontend.poolClosed && (w.run? droppedTimer).isSome) = true := by
    decide +kernel
  rw [hrun] at hfacts
  simp only [Option.any_some, Bool.and_eq_true, Bool.not_eq_true'] at hfacts
  obtain ⟨⟨⟨hcall, hstopped⟩, hclosed⟩, hon⟩ := hfacts
  obtain ⟨w', hw'⟩ := Option.isSome_iff_exists.1 hon
  cases hc : w.calls[0]? with
  | none =>
    rw [hc] at hcall
    cases hcall
  | some call =>
    rw [hc] at hcall
    have hs : call.settled = true := hcall
    obtain ⟨hnothing, hkept⟩ :=
      (reachable_onReactor hrun).settled_stays_dead hc hs (Or.inl ⟨hstopped, hclosed⟩) hw'
    exact ⟨w, w', call, hrun, hc, hs, hw', hnothing, hkept⟩

/-- An operation whose attempt the pool refuses, since the frontend was closed. -/
def refusedAttempt : List (Action Unit) :=
  [.openSession ⟨.null, .null, .null, .str "u", false⟩ "u",
    .changeSetting 0 (.policy (.int 0) (.bool true) .null .null), .closeFrontend,
    .ask 0 .time (.int 1) none, .stepInvocation 0, .stepInvocation 0, .stepInvocation 0,
    .pollReactor, .stepReactor, .stepReactor, .stepReactor, .stepReactor, .stepReactor]

/-- Then the time of the attempt is over all the same. -/
def leftoverTimer : List (Action Unit) :=
  [.stepReactor, .stepReactor, .stepReactor, .tick 2, .pollReactor, .stepReactor, .stepReactor,
    .stepReactor, .stepReactor]

/-- The line that an event prints. -/
def printed? : Event Unit → Option String
  | .printed line => some line
  | _ => none

/-- **An abandoned call can be resumed**: the timer of an attempt that the pool refused feeds a
timeout to the cycle of the abandoned call, which reports it, and the call is completed once more,
which fails. -/
theorem abandoned_call_resumed :
    ∃ w w' : Client Unit, Reachable w ∧ w.isSettled 0 = true ∧ w.run? leftoverTimer = some w'
      ∧ (w.history 0 leftoverTimer).filterMap CallEvent.answered? = [0]
      ∧ (w.history 0 leftoverTimer).length = 2
      ∧ w'.journal.filterMap printed? = w.journal.filterMap printed?
        ++ [
        "pnclient: time failed with TIMEOUT (no response in 1.0 sec), giving up",
        "RuntimeError: call already completed: <time http://pubsub.pubnub.com/time/0?uuid=u>"] := by
  obtain ⟨w, hrun⟩ := Option.isSome_iff_exists.1
    (show (onReactor.run? refusedAttempt).isSome = true by decide +kernel)
  have hfacts : (onReactor.run? refusedAttempt).any (fun w =>
      w.isSettled 0 && (w.history 0 leftoverTimer).filterMap CallEvent.answered? == [0]
        && (w.history 0 leftoverTimer).length == 2
        && (w.run? leftoverTimer).any (fun w' =>
          w'.journal.filterMap printed? == w.journal.filterMap printed?
            ++ [
            "pnclient: time failed with TIMEOUT (no response in 1.0 sec), giving up",
            "RuntimeError: call already completed: <time http://pubsub.pubnub.com/time/0?uuid=u>"]))
      = true := by
    decide +kernel
  rw [hrun] at hfacts
  simp only [Option.any_some, Bool.and_eq_true, beq_iff_eq] at hfacts
  obtain ⟨⟨⟨hs, hanswered⟩, hlength⟩, hprinted⟩ := hfacts
  cases hw' : w.run? leftoverTimer with
  | none =>
    rw [hw'] at hprinted
    cases hprinted
  | some w' =>
    rw [hw'] at hprinted
    exact ⟨w, w', reachable_onReactor hrun, hs, hw', hanswered, hlength, by simpa using hprinted⟩

end Client

end Pubsub
