import Pubsub.Proofs.Ledger

/-!
# Settling a call

A call is settled by completing or by abandoning it. Both are described here by what they do to a
call that is settled already, which is nothing, and to one that is not. Neither touches more of a
state than sessions, calls and journal, and neither does resuming a cycle; `AgreesOutside` says so.
-/

namespace Pubsub

variable {Handler : Type}

/-- Writing an element of a list back to its place changes nothing. -/
theorem set_of_getElem?_eq_some {α : Type} {xs : List α} {i : Nat} {x : α}
    (h : xs[i]? = some x) : xs.set i x = xs := by
  obtain ⟨hi, rfl⟩ := List.getElem?_eq_some_iff.1 h
  exact List.set_getElem_self hi

/-- Replacing an element of a list moves a count by what the two elements count. -/
theorem countP_set_add {α : Type} {p : α → Bool} {xs : List α} {i : Nat} {x : α} (y : α)
    (h : xs[i]? = some x) :
    (xs.set i y).countP p + (if p x then 1 else 0) = xs.countP p + (if p y then 1 else 0) := by
  obtain ⟨hi, rfl⟩ := List.getElem?_eq_some_iff.1 h
  have hle : (if p xs[i] then 1 else 0) ≤ xs.countP p := List.boole_getElem_le_countP hi
  rw [List.countP_set hi]
  omega

/-- Changing an element of a list in place moves a count likewise. -/
theorem countP_modify_add {α : Type} {p : α → Bool} {xs : List α} {i : Nat} {x : α} (f : α → α)
    (h : xs[i]? = some x) :
    (xs.modify i f).countP p + (if p x then 1 else 0)
      = xs.countP p + (if p (f x) then 1 else 0) := by
  have hset : xs.modify i f = xs.set i (f x) := by
    refine List.ext_getElem? fun j => ?_
    rw [List.getElem?_modify, List.getElem?_set']
    by_cases hij : i = j
    · subst hij
      simp [h]
    · simp [hij]
  rw [hset]
  exact countP_set_add (f x) h

namespace Client

/-! ## What a function leaves alone -/

/-- A state that differs from `w` in its sessions, calls and journal only. -/
def AgreesOutside (w w' : Client Handler) : Prop :=
  w' = { w with sessions := w'.sessions, calls := w'.calls, journal := w'.journal }

theorem AgreesOutside.refl (w : Client Handler) : w.AgreesOutside w := rfl

theorem AgreesOutside.trans {u v w : Client Handler} (h₁ : u.AgreesOutside v)
    (h₂ : v.AgreesOutside w) : u.AgreesOutside w := by
  unfold AgreesOutside at *
  rw [h₂, h₁]

theorem agreesOutside_setCall (w : Client Handler) (c : Nat) (call : Call Handler) (s : Session) :
    w.AgreesOutside (w.setCall c call s) := rfl

theorem agreesOutside_record (w : Client Handler) (event : Event Handler) :
    w.AgreesOutside (w.record event) := rfl

/-! ## The ledger of a changed state -/

theorem ledger_record (w : Client Handler) (event : Event Handler) :
    (w.record event).ledger
      = { w.ledger with notices := w.ledger.notices ++ event.notice?.toList } := by
  have hn : (w.record event).journal.filterMap Event.notice?
      = w.journal.filterMap Event.notice? ++ event.notice?.toList := by
    show (w.journal ++ [event]).filterMap Event.notice? = _
    rw [List.filterMap_append]
    cases h : event.notice? <;> simp [h]
  unfold ledger
  rw [hn]
  rfl

/-- What is not a notice leaves no trace in the ledger. -/
theorem ledger_record_of_notice? (w : Client Handler) {event : Event Handler}
    (h : event.notice? = none) : (w.record event).ledger = w.ledger := by
  rw [ledger_record, h]
  simp

theorem ledger_print (w : Client Handler) (line : String) : (w.print line).ledger = w.ledger :=
  ledger_record_of_notice? w rfl

/-! ## Settling a call -/

theorem callOn?_eq_some_iff {w : Client Handler} {c : Nat} {call : Call Handler} {s : Session} :
    w.callOn? c = some (call, s)
      ↔ w.calls[c]? = some call ∧ w.sessions[call.session]? = some s :=
  Ledger.callOn?_eq_some_iff (l := w.ledger)

/-- Writing a call and its session back changes nothing. -/
theorem setCall_of_callOn? {w : Client Handler} {c : Nat} {call : Call Handler} {s : Session}
    (h : w.callOn? c = some (call, s)) : w.setCall c call s = w := by
  obtain ⟨hc, hs⟩ := callOn?_eq_some_iff.1 h
  unfold setCall
  rw [set_of_getElem?_eq_some hc, set_of_getElem?_eq_some hs]

/-- **Abandoning a settled call does nothing**, to the call or to anything else. -/
theorem abandonCall_of_settled {w : Client Handler} {c : Nat} {call : Call Handler}
    (hc : w.calls[c]? = some call) (hs : call.settled = true) : w.abandonCall c = w := by
  unfold abandonCall
  split
  · rename_i call' s h
    obtain ⟨hc', -⟩ := callOn?_eq_some_iff.1 h
    obtain rfl : call' = call := Option.some.inj (hc'.symm.trans hc)
    rw [Call.abandon_of_settled s hs]
    exact setCall_of_callOn? h
  · rfl

/-- Abandoning a call that is not settled settles it and releases its session. -/
theorem abandonCall_of_unsettled {w : Client Handler} {c : Nat} {call : Call Handler} {s : Session}
    (h : w.callOn? c = some (call, s)) (hu : call.settled = false) :
    w.abandonCall c = w.setCall c { call with settled := true } (s.release none) := by
  unfold abandonCall
  rw [h]
  simp [Call.abandon, hu]

theorem ledger_abandonCall_of_unsettled {w : Client Handler} {c : Nat} {call : Call Handler}
    {s : Session} (h : w.callOn? c = some (call, s)) (hu : call.settled = false) :
    (w.abandonCall c).ledger = w.ledger.settle c call s none := by
  rw [abandonCall_of_unsettled h hu]
  unfold Ledger.settle
  rw [Ledger.notice_none, List.append_nil]
  rfl

/-- **A settled call cannot be completed**, and an attempt at it changes nothing. -/
theorem completeCall_of_settled {w : Client Handler} {c : Nat} {call : Call Handler} {s : Session}
    (h : w.callOn? c = some (call, s)) (hs : call.settled = true) (result : Result) :
    w.completeCall c result = .error (.alreadyCompleted call.request.display) := by
  unfold completeCall
  rw [h]
  simp [Call.complete, hs]

theorem agreesOutside_abandonCall (w : Client Handler) (c : Nat) :
    w.AgreesOutside (w.abandonCall c) := by
  unfold abandonCall
  split
  · exact agreesOutside_setCall _ _ _ _
  · exact AgreesOutside.refl w

theorem agreesOutside_completeCall {w w' : Client Handler} {c : Nat} {result : Result}
    {running : Bool} (h : w.completeCall c result = .ok (w', running)) : w.AgreesOutside w' := by
  unfold completeCall at h
  split at h
  · cases h
    exact AgreesOutside.refl w
  · split at h
    · cases h
    · split at h
      · cases h
        exact (agreesOutside_setCall _ _ _ _).trans (agreesOutside_record _ _)
      · cases h
        exact agreesOutside_setCall _ _ _ _

/-- Completing a call that is not settled settles it, releases its session with the result, and
notifies its callback if it has one. -/
theorem completeCall_of_unsettled {w : Client Handler} {c : Nat} {call : Call Handler} {s : Session}
    (h : w.callOn? c = some (call, s)) (hu : call.settled = false) (result : Result) :
    ∃ w', w.completeCall c result = .ok (w', call.callback.isSome) ∧ w.AgreesOutside w'
      ∧ w'.ledger = w.ledger.settle c call s (some result) := by
  have hcomplete : call.complete s result
      = .ok ({ call with settled := true }, s.release (some result)) := by
    simp [Call.complete, hu]
  unfold completeCall
  rw [h]
  dsimp only
  rw [hcomplete]
  dsimp only
  cases hcb : call.callback with
  | none =>
    refine ⟨_, rfl, rfl, ?_⟩
    have hn : Ledger.notice c call (some result) = [] := by simp [Ledger.notice, hcb]
    unfold Ledger.settle
    rw [hn, List.append_nil, hcb]
    rfl
  | some handler =>
    refine ⟨_, rfl, rfl, ?_⟩
    have hn : Ledger.notice c call (some result) = [(c, handler, .ofResult result)] := by
      simp [Ledger.notice, hcb]
    unfold Ledger.settle
    rw [hn, ledger_record, hcb]
    rfl

/-- Resuming the cycle of a call moves the call and the cursor of its session, and prints at most
a report. -/
theorem resumeCall?_eq_some {w w' : Client Handler} {c : Nat} {fed : Option Outcome}
    {effect : Effect} (h : w.resumeCall? c fed = some (w', effect)) :
    ∃ call s step, w.callOn? c = some (call, s)
      ∧ call.cycle.resume? s.cursor w.clock fed = some step ∧ effect = step.effect
      ∧ w.AgreesOutside w' ∧ w'.ledger = w.ledger.setCall c (call.after step) (s.after step) := by
  unfold resumeCall? at h
  obtain ⟨⟨call, s⟩, hc, h⟩ := Option.bind_eq_some_iff.1 h
  obtain ⟨step, hr, h⟩ := Option.bind_eq_some_iff.1 h
  refine ⟨call, s, step, hc, hr, ?_⟩
  cases hreport : step.report with
  | none =>
    rw [hreport] at h
    cases h
    exact ⟨rfl, rfl, rfl⟩
  | some line =>
    rw [hreport] at h
    cases h
    refine ⟨rfl, rfl, ?_⟩
    rw [ledger_print]
    rfl

end Client

end Pubsub
