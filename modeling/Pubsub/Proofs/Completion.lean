import Pubsub.Proofs.Bookkeeping
import Pubsub.Proofs.CycleSteps
import Pubsub.Proofs.Responses

/-!
# Calls settle and stay settled

What happens to one call in the course of a run is read off the ledger. An entry either leaves the
call as settled or unsettled as it was, and tells its callback nothing, or it settles a call that
was not settled (`Ledger.Progress`). A run is a sequence of entries, so by induction along the run a
call that is settled stays settled.
-/

namespace Pubsub

variable {Handler : Type} {P : Outcome → Prop}

/-- Is it the same call, in whatever state? -/
structure Call.IsSameAs (call' call : Call Handler) : Prop where
  session : call'.session = call.session
  request : call'.request = call.request
  callback : call'.callback = call.callback

theorem Call.IsSameAs.refl (call : Call Handler) : call.IsSameAs call := ⟨rfl, rfl, rfl⟩

theorem Call.IsSameAs.trans {a b c : Call Handler} (h : a.IsSameAs b) (h' : b.IsSameAs c) :
    a.IsSameAs c :=
  ⟨h.session.trans h'.session, h.request.trans h'.request, h.callback.trans h'.callback⟩

namespace Ledger

/-! ## What is regular about calls -/

/-- Every call is on a session and drives its own request, and callbacks are told of calls that
exist. -/
structure IsRegular (l : Ledger Handler) : Prop where
  session : ∀ call ∈ l.calls, call.session < l.sessions.length
  request : ∀ call ∈ l.calls, call.cycle.request = call.request
  notice : ∀ notice ∈ l.notices, notice.1 < l.calls.length

theorem fst_of_mem_notice {c : Nat} {call : Call Handler} {outcome : Option Result}
    {entry : Nat × Handler × Notification} (h : entry ∈ notice c call outcome) : entry.1 = c := by
  unfold notice at h
  split at h
  · rw [List.mem_singleton.1 h]
  · cases h

namespace IsRegular

variable {l l' : Ledger Handler} {c : Nat} {call : Call Handler} {s t : Session}

theorem empty : (Ledger.empty : Ledger Handler).IsRegular :=
  ⟨by rintro call ⟨⟩, by rintro call ⟨⟩, by rintro notice ⟨⟩⟩

/-- More sessions, or the same in other states, are no matter. -/
theorem of_sessions (h : l.IsRegular) {sessions : List Session}
    (hs : l.sessions.length ≤ sessions.length) (building : Nat → Nat) :
    ({ l with sessions, building } : Ledger Handler).IsRegular :=
  ⟨fun call hm => Nat.lt_of_lt_of_le (h.session call hm) hs, h.request, h.notice⟩

theorem setSession (h : l.IsRegular) (i : Nat) (t : Session) : (l.setSession i t).IsRegular :=
  h.of_sessions (Nat.le_of_eq List.length_set.symm) l.building

theorem accepted (h : l.IsRegular) {i : Nat} (hs : l.sessions[i]? = some s) (request : Request)
    (callback : Option Handler) :
    ((l.endBuilding i).addCall (.start i request s.policy callback)).IsRegular := by
  refine ⟨?_, ?_, ?_⟩
  · intro call hm
    rcases List.mem_append.1 hm with hm | hm
    · exact h.session call hm
    · rw [List.mem_singleton.1 hm]
      exact (List.getElem?_eq_some_iff.1 hs).1
  · intro call hm
    rcases List.mem_append.1 hm with hm | hm
    · exact h.request call hm
    · rw [List.mem_singleton.1 hm]
      rfl
  · intro notice hm
    show notice.1 < (l.calls ++ [_]).length
    rw [List.length_append]
    exact Nat.lt_add_right _ (h.notice notice hm)

theorem setCall (h : l.IsRegular) (hc : l.callOn? c = some (call, s)) (call' : Call Handler)
    (hs : call'.session = call.session) (hr : call'.cycle.request = call'.request) (t : Session) :
    (l.setCall c call' t).IsRegular := by
  obtain ⟨hcall, -⟩ := callOn?_eq_some_iff.1 hc
  refine ⟨?_, ?_, ?_⟩
  · intro other hm
    show other.session < (l.sessions.set call'.session t).length
    rw [List.length_set]
    rcases List.mem_or_eq_of_mem_set hm with hm | rfl
    · exact h.session other hm
    · rw [hs]
      exact h.session call (List.mem_of_getElem? hcall)
  · intro other hm
    rcases List.mem_or_eq_of_mem_set hm with hm | rfl
    · exact h.request other hm
    · exact hr
  · intro notice hm
    show notice.1 < (l.calls.set c call').length
    rw [List.length_set]
    exact h.notice notice hm

/-- A cycle goes on with the request it has. -/
theorem resumed (h : l.IsRegular) (hc : l.callOn? c = some (call, s)) {now : Binary64}
    {fed : Option Outcome} {step : CycleStep}
    (hr : call.cycle.resume? s.cursor now fed = some step) :
    (l.setCall c (call.after step) (s.after step)).IsRegular := by
  refine h.setCall hc (call.after step) rfl ?_ (s.after step)
  exact (Cycle.request_of_resume? hr).trans
    (h.request call (List.mem_of_getElem? (callOn?_eq_some_iff.1 hc).1))

theorem settle (h : l.IsRegular) (hc : l.callOn? c = some (call, s)) (outcome : Option Result) :
    (l.settle c call s outcome).IsRegular := by
  obtain ⟨hcall, -⟩ := callOn?_eq_some_iff.1 hc
  have hset := h.setCall hc { call with settled := true } rfl
    (h.request call (List.mem_of_getElem? hcall)) (s.release outcome)
  refine ⟨hset.session, hset.request, ?_⟩
  intro notice hm
  rcases List.mem_append.1 hm with hm | hm
  · exact hset.notice notice hm
  · show notice.1 < (l.calls.set c _).length
    rw [fst_of_mem_notice hm, List.length_set]
    exact (List.getElem?_eq_some_iff.1 hcall).1

theorem entry (h : l.IsRegular) (he : Entry P l l') : l'.IsRegular := by
  cases he with
  | blank => exact h
  | opened hn => exact h.of_sessions (by simp) l.building
  | changed hs change ht => exact h.setSession _ _
  | cleared hs cursor _ => exact h.setSession _ _
  | closed hs => exact h.setSession _ _
  | claimed hs ht => exact (h.setSession _ _).of_sessions (Nat.le_refl _) _
  | unbuilt hs hb => exact (h.setSession _ _).of_sessions (Nat.le_refl _) _
  | accepted hs hb request callback => exact h.accepted hs request callback
  | @resumed c call s step now fed hc hP hr =>
    exact h.resumed hc hr
  | @ended c call s step outcome now fed hc hu hP hr ho =>
    exact (h.resumed hc hr).settle (callOn?_setCall hc (call.after step) rfl (s.after step)) outcome
  | abandoned hc hu => exact h.settle hc none

end IsRegular

/-! ## What an entry does to a call -/

/-- What the callback of a call was told, oldest first. -/
def noticesOf (l : Ledger Handler) (c : Nat) : List (Handler × Notification) :=
  l.notices.filterMap fun entry => if entry.1 = c then some entry.2 else none

/-- What an entry can do to a call. -/
inductive Progress (l l' : Ledger Handler) (c : Nat) (call : Call Handler) : Prop where
  /-- It is as settled as it was, and its callback was told nothing. -/
  | kept {call' : Call Handler} (hc : l'.calls[c]? = some call') (same : call'.IsSameAs call)
      (hu : call'.settled = call.settled) (hn : l'.noticesOf c = l.noticesOf c)
  /-- It was not settled and is now. -/
  | settled {call' : Call Handler} (hu : call.settled = false) (hc : l'.calls[c]? = some call')
      (same : call'.IsSameAs call) (hu' : call'.settled = true)

section Progress

variable {l l' : Ledger Handler} {c d : Nat} {call call₁ call₂ : Call Handler} {s t : Session}

/-- Only the callback of the call that is settled is told anything. -/
theorem noticesOf_settle (l : Ledger Handler) (c d : Nat) (call : Call Handler) (s : Session)
    (outcome : Option Result) :
    (l.settle d call s outcome).noticesOf c
      = l.noticesOf c ++ if d = c then (notice d call outcome).map (·.2) else [] := by
  show (l.notices ++ notice d call outcome).filterMap _ = _
  rw [List.filterMap_append]
  congr 1
  unfold notice
  split
  · by_cases hd : d = c
    · simp [hd]
    · simp [hd]
  · simp

/-- What settling a call does to this call and to others. -/
theorem progress_settle (hd : l.callOn? d = some (call₁, s)) (hu : call₁.settled = false)
    (same : call₂.IsSameAs call₁) (t : Session) (outcome : Option Result)
    (hc : l.calls[c]? = some call) : Progress l (l.settle d call₂ t outcome) c call := by
  obtain ⟨hcall, -⟩ := callOn?_eq_some_iff.1 hd
  obtain ⟨hlt, -⟩ := List.getElem?_eq_some_iff.1 hcall
  have hn := noticesOf_settle l c d call₂ t outcome
  by_cases hdc : d = c
  · subst hdc
    obtain rfl : call₁ = call := Option.some.inj (hcall.symm.trans hc)
    have hself : (l.settle d call₂ t outcome).calls[d]? = some { call₂ with settled := true } :=
      List.getElem?_set_self hlt
    exact .settled hu hself ⟨same.session, same.request, same.callback⟩ rfl
  · rw [if_neg hdc, List.append_nil] at hn
    exact .kept ((List.getElem?_set_ne hdc).trans hc) (.refl call) rfl hn

/-- **Every entry keeps a call as it is or settles it.** -/
theorem Entry.progress (he : Entry P l l') (hc : l.calls[c]? = some call) :
    Progress l l' c call := by
  cases he with
  | blank => exact .kept hc (.refl call) rfl rfl
  | opened hn => exact .kept hc (.refl call) rfl rfl
  | changed hs change ht => exact .kept hc (.refl call) rfl rfl
  | cleared hs cursor _ => exact .kept hc (.refl call) rfl rfl
  | closed hs => exact .kept hc (.refl call) rfl rfl
  | claimed hs ht => exact .kept hc (.refl call) rfl rfl
  | unbuilt hs hb => exact .kept hc (.refl call) rfl rfl
  | accepted hs hb request callback =>
    refine .kept ?_ (.refl call) rfl rfl
    exact (List.getElem?_append_left (List.getElem?_eq_some_iff.1 hc).1).trans hc
  | @resumed d call₁ s step now fed hd hP hr =>
    obtain ⟨hcall, -⟩ := callOn?_eq_some_iff.1 hd
    by_cases hdc : d = c
    · subst hdc
      obtain rfl : call₁ = call := Option.some.inj (hcall.symm.trans hc)
      have hself : (l.setCall d (call₁.after step) (s.after step)).calls[d]?
          = some (call₁.after step) := List.getElem?_set_self (List.getElem?_eq_some_iff.1 hcall).1
      exact .kept hself ⟨rfl, rfl, rfl⟩ rfl rfl
    · exact .kept ((List.getElem?_set_ne hdc).trans hc) (.refl call) rfl rfl
  | @ended d call₁ s step outcome now fed hd hu hP hr ho =>
    -- The step and the settlement are one entry, so only the latter shows.
    rw [settle_setCall]
    have same : (call₁.after step).IsSameAs call₁ := ⟨rfl, rfl, rfl⟩
    exact progress_settle hd hu same (s.after step) outcome hc
  | @abandoned d call₁ s hd hu => exact progress_settle hd hu (.refl _) s none hc

end Progress

end Ledger

namespace Client

variable {w w' : Client Handler} {c : Nat} {call call' : Call Handler}

/-! ## One call in a run -/

/-- Was the call settled? -/
def isSettled (w : Client Handler) (c : Nat) : Bool := (w.calls[c]?).any (·.settled)

/-- What the callback of a call was told, oldest first. -/
def noticesOf (w : Client Handler) (c : Nat) : List (Handler × Notification) := w.ledger.noticesOf c

theorem isSettled_of_getElem? (hc : w.calls[c]? = some call) : w.isSettled c = call.settled := by
  unfold isSettled
  rw [hc]
  rfl

theorem Reachable.isRegular (h : Reachable w) : w.ledger.IsRegular :=
  Reachable.ledger .empty (fun h he => h.entry he) h

theorem progress_act? {action : Action Handler} (h : w.act? action = some w')
    (hc : w.calls[c]? = some call) : Ledger.Progress w.ledger w'.ledger c call :=
  (entry_act? w.feeds_true h).progress hc

/-- A call is found again at the end of a run. -/
theorem exists_same_of_run? {actions : List (Action Handler)} (hr : w.run? actions = some w')
    (hc : w.calls[c]? = some call) :
    ∃ call', w'.calls[c]? = some call' ∧ call'.IsSameAs call := by
  refine of_run? (P := fun v => ∃ call', v.calls[c]? = some call' ∧ call'.IsSameAs call) ?_
    ⟨call, hc, .refl call⟩ hr
  rintro u v action ⟨call', hc', same⟩ ha
  cases progress_act? ha hc' with
  | kept hc'' same' => exact ⟨_, hc'', same'.trans same⟩
  | settled _ hc'' same' => exact ⟨_, hc'', same'.trans same⟩

/-- **A settled call stays settled**, and its callback is not told anything any more. -/
theorem settled_of_run? {actions : List (Action Handler)} (hr : w.run? actions = some w')
    (hc : w.calls[c]? = some call) (hu : call.settled = true) :
    w'.isSettled c = true ∧ w'.noticesOf c = w.noticesOf c := by
  induction actions generalizing w call with
  | nil =>
    cases hr
    exact ⟨(isSettled_of_getElem? hc).trans hu, rfl⟩
  | cons action rest ih =>
    rw [run?_cons] at hr
    obtain ⟨v, hv, hr⟩ := Option.bind_eq_some_iff.1 hr
    cases progress_act? hv hc with
    | kept hc' _ hu' hn =>
      obtain ⟨hsettled, hnotices⟩ := ih hr hc' (hu'.trans hu)
      exact ⟨hsettled, hnotices.trans hn⟩
    | settled hu' =>
      rw [hu] at hu'
      cases hu'

end Client

end Pubsub
