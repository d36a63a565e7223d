import Pubsub.Client.Crowd
import Pubsub.Proofs.Completion
import Pubsub.Proofs.SingleFlight

/-!
# Where stints begin

An action with which no stint begins claims no session, releases none, settles no call and notifies
no callback: it spares the ledger (`Ledger.Spares`, `Client.spares_act?`). With every other action
that is what is left to do when the stint begins. What comes before spares the ledger too, and what
is left is done by the lines of the stint: taken all at once they do what the action does in a run
(`Client.Begins`).
-/

namespace Pubsub

variable {Handler : Type}

/-- What claims and releases write to a session. -/
structure Session.Flags where
  busy : Bool
  idle : Bool
  last : Option Result

/-- What claims and releases have written to a session. -/
def Session.flags (s : Session) : Session.Flags := ⟨s.busy, s.idle, s.lastResult⟩

/-- What is written of a session that nobody has claimed yet. -/
def Session.Flags.untouched : Session.Flags := ⟨false, true, none⟩

theorem Session.IsNew.flags {s : Session} (h : s.IsNew) : s.flags = .untouched := by
  unfold Session.flags
  rw [h.busy, h.idle, h.lastResult]
  rfl

namespace Ledger

/-- What claims and releases have written to a session; one that does not exist yet is untouched. -/
def flags (l : Ledger Handler) (i : Nat) : Session.Flags :=
  ((l.sessions[i]?).map Session.flags).getD .untouched

/-- Is there a call of this number, and is it settled? -/
def isSettled (l : Ledger Handler) (c : Nat) : Bool := (l.calls[c]?).any (·.settled)

/-- **Nothing is claimed, released, settled or told.** -/
structure Spares (l l' : Ledger Handler) : Prop where
  claims : ∀ i, l'.claims i = l.claims i
  flags : ∀ i, l'.flags i = l.flags i
  sessions : l.sessions.length ≤ l'.sessions.length
  settled : ∀ c, l'.isSettled c = l.isSettled c
  calls : ∀ {c : Nat} {call : Call Handler}, l.calls[c]? = some call →
    ∃ call', l'.calls[c]? = some call' ∧ call'.IsSameAs call
  notices : l'.notices = l.notices
  regular : l.IsRegular → l'.IsRegular

namespace Spares

variable {l l' l'' : Ledger Handler} {i c : Nat} {s t : Session} {call call' : Call Handler}

theorem refl (l : Ledger Handler) : l.Spares l :=
  ⟨fun _ => rfl, fun _ => rfl, Nat.le_refl _, fun _ => rfl, fun hc => ⟨_, hc, .refl _⟩, rfl,
    id⟩

theorem trans (h : l.Spares l') (h' : l'.Spares l'') : l.Spares l'' := by
  refine ⟨fun i => (h'.claims i).trans (h.claims i), fun i => (h'.flags i).trans (h.flags i),
    Nat.le_trans h.sessions h'.sessions, fun c => (h'.settled c).trans (h.settled c), ?_,
    h'.notices.trans h.notices, h'.regular ∘ h.regular⟩
  intro c call hc
  obtain ⟨call₁, hc₁, same⟩ := h.calls hc
  obtain ⟨call₂, hc₂, same'⟩ := h'.calls hc₁
  exact ⟨call₂, hc₂, same'.trans same⟩

theorem flags_set {sessions : List Session} (hs : sessions[i]? = some s) (ht : t.flags = s.flags)
    (j : Nat) : ((sessions.set i t)[j]?).map Session.flags = (sessions[j]?).map Session.flags := by
  obtain ⟨hlt, -⟩ := List.getElem?_eq_some_iff.1 hs
  by_cases hij : i = j
  · subst hij
    rw [List.getElem?_set_self hlt, hs, Option.map_some, Option.map_some, ht]
  · rw [List.getElem?_set_ne hij]

theorem setSession (hs : l.sessions[i]? = some s) (ht : t.flags = s.flags) :
    l.Spares (l.setSession i t) := by
  refine ⟨fun _ => rfl, ?_, Nat.le_of_eq List.length_set.symm, fun _ => rfl,
    fun hc => ⟨_, hc, .refl _⟩, rfl, fun h => h.setSession i t⟩
  intro j
  show (((l.sessions.set i t)[j]?).map _).getD _ = _
  rw [flags_set hs ht]
  rfl

theorem opened (hn : s.IsNew) :
    l.Spares ({ l with sessions := l.sessions ++ [s] } : Ledger Handler) := by
  refine ⟨fun _ => rfl, ?_, by simp, fun _ => rfl, fun hc => ⟨_, hc, .refl _⟩, rfl,
    fun h => h.of_sessions (by simp) l.building⟩
  intro j
  show (((l.sessions ++ [s])[j]?).map _).getD _ = ((l.sessions[j]?).map _).getD _
  rcases Nat.lt_trichotomy j l.sessions.length with hlt | rfl | hgt
  · rw [List.getElem?_append_left hlt]
  · rw [List.getElem?_concat_length, List.getElem?_eq_none (Nat.le_refl _), Option.map_some,
      hn.flags]
    rfl
  · rw [List.getElem?_eq_none (by simpa using Nat.succ_le_of_lt hgt),
      List.getElem?_eq_none (Nat.le_of_lt hgt)]

theorem setCall (hc : l.callOn? c = some (call, s)) (same : call'.IsSameAs call)
    (hr : call.cycle.request = call.request → call'.cycle.request = call'.request)
    (hu : call'.settled = call.settled) (ht : t.flags = s.flags) :
    l.Spares (l.setCall c call' t) := by
  obtain ⟨hcall, hs⟩ := callOn?_eq_some_iff.1 hc
  obtain ⟨hlt, -⟩ := List.getElem?_eq_some_iff.1 hcall
  have hset : l.Spares (l.setSession call'.session t) :=
    setSession (same.session.symm ▸ hs) ht
  refine ⟨?_, hset.flags, hset.sessions, ?_, ?_, rfl, fun h =>
    h.setCall hc call' same.session (hr (h.request call (List.mem_of_getElem? hcall))) t⟩
  · intro j
    show l.building j + (l.setCall c call' t).unsettled j = l.building j + l.unsettled j
    rw [unsettled_setCall hcall same.session hu]
  · intro d
    show ((l.calls.set c call')[d]?).any _ = (l.calls[d]?).any _
    by_cases hcd : c = d
    · subst hcd
      rw [List.getElem?_set_self hlt, hcall]
      exact hu
    · rw [List.getElem?_set_ne hcd]
  · intro d call₁ hd
    by_cases hcd : c = d
    · subst hcd
      obtain rfl := Option.some.inj (hcall.symm.trans hd)
      exact ⟨call', List.getElem?_set_self hlt, same⟩
    · exact ⟨call₁, (List.getElem?_set_ne hcd).trans hd, .refl _⟩

/-- An operation whose request is built goes on as a call. -/
theorem accepted (hs : l.sessions[i]? = some s) (hb : 0 < l.building i) (request : Request)
    (callback : Option Handler) :
    l.Spares ((l.endBuilding i).addCall (.start i request s.policy callback)) := by
  refine ⟨?_, fun _ => rfl, Nat.le_refl _, ?_, ?_, rfl,
    fun h => h.accepted hs request callback⟩
  · intro j
    show l.building j - (if i = j then 1 else 0)
        + ((l.endBuilding i).addCall (.start i request s.policy callback)).unsettled j
      = l.building j + l.unsettled j
    have hi : (Call.start i request s.policy callback).session = i := rfl
    rw [unsettled_addCall _ rfl, hi]
    show _ + (l.unsettled j + _) = l.building j + l.unsettled j
    by_cases hij : i = j
    · subst hij
      rw [if_pos rfl]
      omega
    · rw [if_neg hij]
      rfl
  · intro c
    show ((l.calls ++ [.start i request s.policy callback])[c]?).any _ = (l.calls[c]?).any _
    rcases Nat.lt_trichotomy c l.calls.length with hlt | rfl | hgt
    · rw [List.getElem?_append_left hlt]
    · rw [List.getElem?_concat_length, List.getElem?_eq_none (Nat.le_refl _)]
      rfl
    · rw [List.getElem?_eq_none (by simpa using Nat.succ_le_of_lt hgt),
        List.getElem?_eq_none (Nat.le_of_lt hgt)]
  · intro c call₁ hc
    obtain ⟨hlt, -⟩ := List.getElem?_eq_some_iff.1 hc
    exact ⟨call₁, (List.getElem?_append_left hlt).trans hc, .refl _⟩

/-- A call is as settled as it was. -/
theorem exists_call (h : l.Spares l') (hc : l.calls[c]? = some call) :
    ∃ call', l'.calls[c]? = some call' ∧ call'.IsSameAs call ∧ call'.settled = call.settled := by
  obtain ⟨call', hc', same⟩ := h.calls hc
  have hsettled := h.settled c
  unfold isSettled at hsettled
  rw [hc, hc'] at hsettled
  exact ⟨call', hc', same, hsettled⟩

end Spares

end Ledger

namespace Client

open Ledger

variable {w w' u : Client Handler} {c i : Nat} {call : Call Handler} {s : Session}
  {outcome : Option Result}

/-! ## All the lines of a release -/

/-- The client after the lines of a release that follow the mark of the call. -/
def releaseMarked (w : Client Handler) (i : Nat) (settlement : Option Settlement) :
    Client Handler :=
  let w := w.touch i (·.recordResult (settlement.bind (·.outcome)))
  let w := (w.touch i Session.dropBusy).touch i Session.setIdle
  settlement.elim w w.tell

/-- The client after all the lines of a release. -/
def release (w : Client Handler) (i : Nat) (settlement : Option Settlement) : Client Handler :=
  (settlement.elim w fun y => w.markSettled y.call).releaseMarked i settlement

theorem touch_eq (hs : w.sessions[i]? = some s) (f : Session → Session) :
    w.touch i f = w.setSession i (f s) := by
  unfold touch setSession
  rw [List.modify_eq_set_getElem?, hs]
  rfl

theorem touch_setSession (hs : w.sessions[i]? = some s) (t : Session) (f : Session → Session) :
    (w.setSession i t).touch i f = w.setSession i (f t) := by
  have ht : (w.setSession i t).sessions[i]? = some t :=
    List.getElem?_set_self (List.getElem?_eq_some_iff.1 hs).1
  rw [touch_eq ht]
  unfold setSession
  rw [List.set_set]

/-- A session whose request could not be built is released at once. -/
theorem release_none (hs : w.sessions[i]? = some s) :
    w.release i none = w.setSession i (s.release none) := by
  unfold release releaseMarked
  dsimp only [Option.elim]
  rw [touch_eq hs, touch_setSession hs, touch_setSession hs]
  rfl

theorem markSettled_eq (hc : w.calls[c]? = some call) :
    w.markSettled c = { w with calls := w.calls.set c { call with settled := true } } := by
  unfold markSettled
  rw [List.modify_eq_set_getElem?, hc]
  rfl

/-- Settling a call at once. -/
theorem release_some (hc : w.callOn? c = some (call, s)) (outcome : Option Result) :
    w.release call.session (some ⟨c, outcome⟩)
      = (w.setCall c { call with settled := true } (s.release outcome)).tell ⟨c, outcome⟩ := by
  obtain ⟨hcall, hs⟩ := callOn?_eq_some_iff.1 hc
  unfold release releaseMarked
  dsimp only [Option.elim, Option.bind]
  have hs' : (w.markSettled c).sessions[call.session]? = some s := hs
  rw [touch_eq hs', touch_setSession hs', touch_setSession hs', markSettled_eq hcall]
  rfl

/-- **Abandoning a call is a release** taken at once. -/
theorem abandonCall_eq_release (hc : w.callOn? c = some (call, s)) (hu : call.settled = false) :
    w.abandonCall c = w.release call.session (some ⟨c, none⟩) := by
  rw [release_some hc, abandonCall_of_unsettled hc hu]
  rfl

/-- **Completing a call is a release** taken at once. -/
theorem completeCall_eq_release (hc : w.callOn? c = some (call, s)) (hu : call.settled = false)
    (result : Result) :
    w.completeCall c result
      = .ok (w.release call.session (some ⟨c, some result⟩), w.hasCallback c) := by
  obtain ⟨hcall, -⟩ := callOn?_eq_some_iff.1 hc
  obtain ⟨hlt, -⟩ := List.getElem?_eq_some_iff.1 hcall
  rw [release_some hc]
  unfold completeCall hasCallback tell
  rw [hc, hcall]
  simp only [Call.complete, hu, Bool.false_eq_true, if_false, Option.any_some]
  have hset : (w.setCall c { call with settled := true } (s.release (some result))).calls[c]?
      = some { call with settled := true } := List.getElem?_set_self hlt
  rw [hset, Option.bind_some]
  dsimp only
  cases hcb : call.callback with
  | none => rfl
  | some handler => rfl

/-- What a release writes is a matter of the sessions, the calls and the journal. -/
theorem release_congr (hs : u.sessions = w.sessions) (hc : u.calls = w.calls)
    (hj : u.journal = w.journal) (i : Nat) (settlement : Option Settlement) :
    u.release i settlement
      = { u with
          sessions := (w.release i settlement).sessions
          calls := (w.release i settlement).calls
          journal := (w.release i settlement).journal } := by
  obtain ⟨⟩ := u
  obtain ⟨⟩ := w
  obtain rfl : _ = _ := hs
  obtain rfl : _ = _ := hc
  obtain rfl : _ = _ := hj
  rcases settlement with _ | ⟨c, _ | result⟩
  · rfl
  · rfl
  · unfold release releaseMarked
    dsimp only [Option.elim, markSettled, touch, tell]
    split <;> rfl

/-- A release commutes with what touches neither the sessions nor the calls nor the journal. -/
theorem release_comm {f : Client Handler → Client Handler}
    (hf : ∀ sessions calls journal,
      f { w with sessions, calls, journal } = { f w with sessions, calls, journal })
    (i : Nat) (settlement : Option Settlement) :
    (f w).release i settlement = f (w.release i settlement) := by
  have hw : f w
      = { f w with sessions := w.sessions, calls := w.calls, journal := w.journal } := hf _ _ _
  have hs : (f w).sessions = w.sessions := by rw [hw]
  have hc : (f w).calls = w.calls := by rw [hw]
  have hj : (f w).journal = w.journal := by rw [hw]
  have hrelease := release_congr (u := w) (w := w) rfl rfl rfl i settlement
  calc (f w).release i settlement
      = { f w with
          sessions := (w.release i settlement).sessions
          calls := (w.release i settlement).calls
          journal := (w.release i settlement).journal } := release_congr hs hc hj i settlement
    _ = f { w with
          sessions := (w.release i settlement).sessions
          calls := (w.release i settlement).calls
          journal := (w.release i settlement).journal } := (hf _ _ _).symm
    _ = f (w.release i settlement) := congrArg f hrelease.symm

/-! ## What is left alone when nothing is settled -/

/-- There is nothing to settle about the call. -/
def IsDone (w : Client Handler) (c : Nat) : Prop :=
  ∀ call s, w.callOn? c = some (call, s) → call.settled = true

theorem abandonCall_of_isDone (h : w.IsDone c) : w.abandonCall c = w := by
  cases hc : w.callOn? c with
  | none =>
    unfold abandonCall
    rw [hc]
  | some held => exact abandonCall_of_settled (callOn?_eq_some_iff.1 hc).1 (h _ _ hc)

theorem completeCall_of_isDone (h : w.IsDone c) (result : Result) :
    (∃ e, w.completeCall c result = .error e) ∨ w.completeCall c result = .ok (w, false) := by
  cases hc : w.callOn? c with
  | none =>
    unfold completeCall
    rw [hc]
    exact .inr rfl
  | some held => exact .inl ⟨_, completeCall_of_settled hc (h _ _ hc) result⟩

theorem spares_resumeCall? {fed : Option Outcome} {effect : Effect}
    (h : w.resumeCall? c fed = some (w', effect)) : w.ledger.Spares w'.ledger := by
  obtain ⟨call, s, step, hc, hr, -, -, hl⟩ := resumeCall?_eq_some h
  rw [hl]
  exact .setCall hc ⟨rfl, rfl, rfl⟩ (fun hrequest => (Cycle.request_of_resume? hr).trans hrequest)
    rfl rfl

/-- A result that a cycle comes to is of the kind of its request. -/
theorem kind_of_resumeCall? {fed : Option Outcome} {result : Result}
    (h : w.resumeCall? c fed = some (u, .finish result)) (hc : u.callOn? c = some (call, s)) :
    result.kind = call.cycle.request.kind := by
  obtain ⟨call₀, s₀, step, hc₀, hr, he, -, hl⟩ := resumeCall?_eq_some h
  have hafter := callOn?_after hc₀ hl
  obtain ⟨rfl, -⟩ := Prod.mk.inj (Option.some.inj (hafter.symm.trans hc))
  obtain ⟨outcome, -, hclassify⟩ := Cycle.classify_of_finish hr he.symm
  exact (Request.kind_classify hclassify).trans
    (congrArg Request.kind (Cycle.request_of_resume? hr).symm)

/-- What leaves the ledger alone spares it. -/
theorem spares_of_eq (h : w'.ledger = w.ledger) : w.ledger.Spares w'.ledger := h ▸ .refl _

theorem spares_record {event : Event Handler} (hw : u.ledger.Spares w.ledger)
    (he : event.notice? = none) : u.ledger.Spares (w.record event).ledger := by
  rw [ledger_record_of_notice? w he]
  exact hw

/-- A step of a drive that has nothing to settle. -/
theorem spares_stepDrive? {drive drive' : Drive} (h : w.stepDrive? c drive = some (w', drive'))
    (hdone : ∀ {u d o}, w.driveToBrink? c drive = some (u, d, o) → u.IsDone c) :
    w.ledger.Spares w'.ledger := by
  unfold stepDrive? at h
  cases drive with
  | resuming fed =>
    dsimp only at h
    cases hw : w.resumeCall? c fed with
    | none =>
      rw [hw] at h
      cases h
    | some resumed =>
      obtain ⟨w₁, effect⟩ := resumed
      have hspares := spares_resumeCall? hw
      rw [hw] at h
      cases effect with
      | send =>
        dsimp only at h
        split at h <;> cases h
        · exact hspares
        · exact spares_record hspares rfl
      | sleep seconds =>
        cases h
        exact spares_record hspares rfl
      | raise e =>
        cases h
        exact hspares
      | finish result =>
        have hd : w₁.IsDone c := by
          refine hdone (d := if w₁.hasCallback c then .calling result else .finished result)
            (o := some result) ?_
          unfold driveToBrink?
          dsimp only
          rw [hw]
        dsimp only at h
        rcases completeCall_of_isDone hd result with ⟨e, he⟩ | he <;> rw [he] at h <;> cases h
        · exact hspares
        · exact hspares
  | failing e =>
    cases h
    rw [abandonCall_of_isDone (hdone rfl)]
    exact .refl _
  | inFlight => cases h
  | asleep seconds => cases h
  | calling result => cases h
  | finished result => cases h
  | failed e => cases h

/-- A step of a drive that settles its call. -/
theorem stepDrive?_of_brink {drive drive' : Drive} {outcome : Option Result}
    (hb : w.driveToBrink? c drive = some (u, drive', outcome)) (hc : u.callOn? c = some (call, s))
    (hu : call.settled = false) :
    w.stepDrive? c drive = some (u.release call.session (some ⟨c, outcome⟩), drive')
    ∧ w.ledger.Spares u.ledger ∧ w.AgreesOutside u
    ∧ ∀ result, outcome = some result → result.kind = call.cycle.request.kind := by
  unfold driveToBrink? at hb
  split at hb
  · rename_i fed
    split at hb
    · rename_i w₁ result hw
      cases hb
      obtain ⟨-, -, -, -, -, -, ha, -⟩ := resumeCall?_eq_some hw
      refine ⟨?_, spares_resumeCall? hw, ha, ?_⟩
      swap
      · rintro _ ⟨⟩
        exact kind_of_resumeCall? hw hc
      unfold stepDrive?
      dsimp only
      rw [hw]
      dsimp only
      rw [completeCall_eq_release hc hu]
      cases u.hasCallback c <;> rfl
    · cases hb
  · cases hb
    refine ⟨?_, .refl _, .refl _, by rintro _ ⟨⟩⟩
    unfold stepDrive?
    dsimp only
    rw [abandonCall_eq_release hc hu]
  · cases hb

/-! ## Actions at the brink -/

theorem beginSettling?_eq_none {action : Action Handler} {thread : Thread} {y : Settlement}
    (h : w.beginSettling? action = none) (hb : w.brink? action = some (thread, u, y)) :
    u.IsDone y.call := by
  intro call s hc
  unfold beginSettling? at h
  rw [hb] at h
  dsimp only at h
  rw [hc] at h
  dsimp only at h
  split at h
  · assumption
  · cases h

theorem beginSettling?_eq_some {action : Action Handler} {stint : Stint}
    (h : w.beginSettling? action = some (u, stint)) :
    ∃ thread y call s, w.brink? action = some (thread, u, y)
      ∧ u.callOn? y.call = some (call, s) ∧ call.settled = false
      ∧ stint = .releasing thread call.session (some y) .looked := by
  unfold beginSettling? at h
  split at h
  · rename_i thread w₁ y hb
    split at h
    · rename_i call s hc
      split at h
      · cases h
      · rename_i hu
        cases h
        exact ⟨thread, y, call, s, hb, hc, Bool.eq_false_iff.2 hu, rfl⟩
    · cases h
  · cases h

/-! ### Invocations -/

theorem invocationToBrink?_of_driving {drive d : Drive} {o : Option Result}
    (hp : w.invocationPhase? i = some (.driving c drive))
    (hb : w.driveToBrink? c drive = some (u, d, o)) :
    w.invocationToBrink? i = some (u.setInvocation i (.driving c d), ⟨c, o⟩) := by
  unfold invocationToBrink?
  rw [hp]
  dsimp only
  rw [hb]
  rfl

theorem invocationToBrink?_of_unwinding {e : Error}
    (hp : w.invocationPhase? i = some (.unwinding c e)) :
    w.invocationToBrink? i = some (w.setInvocation i (.ended (.error e)), ⟨c, none⟩) := by
  unfold invocationToBrink?
  rw [hp]

theorem brink?_stepInvocation {y : Settlement} (h : w.invocationToBrink? i = some (u, y)) :
    w.brink? (.stepInvocation i) = some (.invocation i, u, y) := by
  show (w.invocationToBrink? i).map _ = _
  rw [h]
  rfl

section Invocations

variable {v : Invocation Handler}

theorem beginOperation?_of_asked (hv : w.invocations[i]? = some v) (hp : v.phase = .asked)
    (hs : w.sessions[v.session]? = some s) :
    w.beginOperation? i
      = if s.closed then none else some (w, .claiming i v.session .opened) := by
  unfold beginOperation?
  simp [hv, hs, hp]

theorem beginOperation?_of_unbuilt {e : Error} {config : Configuration}
    (hv : w.invocations[i]? = some v) (hp : v.phase = .claimed)
    (hs : w.sessions[v.session]? = some s)
    (hbuild : Request.build s.profile s.cursor w.fresh w.config v.operation v.timeout
      = (.error e, config)) :
    w.beginOperation? i
      = some (({ w with config } : Client Handler).setInvocation i (.ended (.error e)),
        .releasing (.invocation i) v.session none .marked) := by
  unfold beginOperation?
  simp [hv, hs, hp, hbuild]

theorem beginOperation?_of_built {request : Request} {config : Configuration}
    (hv : w.invocations[i]? = some v) (hp : v.phase = .claimed)
    (hs : w.sessions[v.session]? = some s)
    (hbuild : Request.build s.profile s.cursor w.fresh w.config v.operation v.timeout
      = (.ok request, config)) : w.beginOperation? i = none := by
  unfold beginOperation?
  simp [hv, hs, hp, hbuild]

theorem beginOperation?_eq_some {stint : Stint} (h : w.beginOperation? i = some (u, stint)) :
    ∃ v s, w.invocations[i]? = some v ∧ w.sessions[v.session]? = some s
      ∧ (v.phase = .asked ∧ s.closed = false ∧ u = w
          ∧ stint = .claiming i v.session .opened
        ∨ v.phase = .claimed ∧ stint = .releasing (.invocation i) v.session none .marked
          ∧ ∃ e config,
              Request.build s.profile s.cursor w.fresh w.config v.operation v.timeout
                = (.error e, config)
              ∧ u = ({ w with config } : Client Handler).setInvocation i (.ended (.error e))) := by
  have h' := h
  unfold beginOperation? at h'
  obtain ⟨v, hv, h'⟩ := Option.bind_eq_some_iff.1 h'
  obtain ⟨s, hs, h'⟩ := Option.bind_eq_some_iff.1 h'
  refine ⟨v, s, hv, hs, ?_⟩
  cases hp : v.phase with
  | asked =>
    rw [beginOperation?_of_asked hv hp hs] at h
    split at h
    · cases h
    · rename_i hopen
      cases h
      exact .inl ⟨rfl, Bool.eq_false_iff.2 hopen, rfl, rfl⟩
  | claimed =>
    rcases hbuild : Request.build s.profile s.cursor w.fresh w.config v.operation v.timeout with
      ⟨e | request, config⟩
    · rw [beginOperation?_of_unbuilt hv hp hs hbuild] at h
      cases h
      exact .inr ⟨rfl, rfl, e, config, rfl, rfl⟩
    · rw [beginOperation?_of_built hv hp hs hbuild] at h
      cases h
  | launching c =>
    rw [hp] at h'
    cases h'
  | driving c drive =>
    rw [hp] at h'
    cases h'
  | unwinding c e =>
    rw [hp] at h'
    cases h'
  | ended outcome =>
    rw [hp] at h'
    cases h'

/-- An operation that is asked for leaves the ledger as it is where it does not begin a claim: it is
refused. -/
theorem spares_claimFor? (hv : w.invocations[i]? = some v) (hp : v.phase = .asked)
    (h : w.claimFor? i v = some w') (hb : w.beginOperation? i = none) :
    w.ledger.Spares w'.ledger := by
  unfold claimFor? at h
  obtain ⟨s, hs, h⟩ := Option.map_eq_some_iff.1 h
  rw [beginOperation?_of_asked hv hp hs] at hb
  have hclosed : s.closed = true := by
    split at hb
    · assumption
    · cases hb
  split at h
  · cases h
    exact spares_of_eq (ledger_setInvocation hv (by rw [hp]; rfl))
  · rename_i t ht
    obtain ⟨hopen, -, -⟩ := (Session.claim_eq_ok_iff s t).1 ht
    rw [hclosed] at hopen
    cases hopen

/-- An operation that builds its request is accepted where it does not begin to release its
session. -/
theorem spares_buildFor? (hv : w.invocations[i]? = some v) (hp : v.phase = .claimed)
    (h : w.buildFor? i v = some w') (hb : w.beginOperation? i = none) :
    w.ledger.Spares w'.ledger := by
  have hpos := building_pos hv hp
  unfold buildFor? at h
  obtain ⟨s, hs, h⟩ := Option.map_eq_some_iff.1 h
  split at h
  · rename_i e config hbuild
    rw [beginOperation?_of_unbuilt hv hp hs hbuild] at hb
    cases hb
  · rename_i request config hbuild
    cases h
    rw [ledger_unclaimed (w := { w with config, calls := w.calls ++ [_] }) hv hp
      (.launching w.calls.length) rfl]
    exact .accepted hs hpos request (v.callback.or w.frontend.callback)

theorem spares_stepInvocation? (h : w.stepInvocation? i = some w')
    (hb : w.beginOperation? i = none) (hb' : w.beginSettling? (.stepInvocation i) = none) :
    w.ledger.Spares w'.ledger := by
  unfold stepInvocation? at h
  cases hv : w.invocations[i]? with
  | none =>
    rw [hv] at h
    cases h
  | some v =>
    have hphase : w.invocationPhase? i = some v.phase := by
      unfold invocationPhase?
      rw [hv]
      rfl
    rw [hv] at h
    dsimp only at h
    split at h
    · rename_i hp
      exact spares_claimFor? hv hp h hb
    · rename_i hp
      exact spares_buildFor? hv hp h hb
    · rename_i c hp
      cases h
      exact spares_of_eq (ledger_launchFor hv (by rw [hp]; rfl))
    · rename_i hp
      cases h
      exact spares_of_eq (ledger_setInvocation hv (by rw [hp]; rfl))
    · rename_i hp
      cases h
      exact spares_of_eq (ledger_setInvocation hv (by rw [hp]; rfl))
    · rename_i c drive _ _ hp
      obtain ⟨⟨w₁, drive'⟩, hd, rfl⟩ := Option.map_eq_some_iff.1 h
      have hspares : w.ledger.Spares w₁.ledger := by
        refine spares_stepDrive? hd ?_
        intro u d o hbrink
        have hi := invocationToBrink?_of_driving (hphase.trans (congrArg some hp)) hbrink
        exact beginSettling?_eq_none hb' (brink?_stepInvocation hi)
      have hv₁ : w₁.invocations[i]? = some v := by
        rwa [agreesOutside_stepDrive? hd]
      exact hspares.trans (spares_of_eq (ledger_setInvocation hv₁ (by rw [hp]; rfl)))
    · rename_i c e hp
      cases h
      have hdone : w.IsDone c := by
        have hi := invocationToBrink?_of_unwinding (hphase.trans (congrArg some hp))
        exact beginSettling?_eq_none hb' (brink?_stepInvocation hi)
      rw [abandonCall_of_isDone hdone]
      exact spares_of_eq (ledger_setInvocation hv (by rw [hp]; rfl))
    · cases h

end Invocations

/-! ### Tasks -/

theorem taskToBrink?_of_running {t : Nat} {drive d : Drive} {o : Option Result}
    (ht : w.tasks[t]? = some ⟨c, .running drive⟩)
    (hb : w.driveToBrink? c drive = some (u, d, o)) :
    w.taskToBrink? t = some (u.setTask t d, ⟨c, o⟩) := by
  unfold taskToBrink?
  rw [ht]
  dsimp only
  rw [hb]
  rfl

theorem brink?_stepTask {t : Nat} {y : Settlement} (h : w.taskToBrink? t = some (u, y)) :
    w.brink? (.stepTask t) = some (.task t, u, y) := by
  show (w.taskToBrink? t).map _ = _
  rw [h]
  rfl

theorem spares_stepTask? {t : Nat} (h : w.stepTask? t = some w')
    (hb : w.beginSettling? (.stepTask t) = none) : w.ledger.Spares w'.ledger := by
  unfold stepTask? at h
  cases ht : w.tasks[t]? with
  | none =>
    rw [ht] at h
    cases h
  | some task =>
    obtain ⟨c, phase⟩ := task
    rw [ht] at h
    dsimp only at h
    cases phase with
    | unstarted =>
      cases h
      exact .refl _
    | running drive =>
      obtain ⟨⟨w₁, drive'⟩, hd, rfl⟩ := Option.map_eq_some_iff.1 h
      have hspares : w.ledger.Spares w₁.ledger := by
        refine spares_stepDrive? hd ?_
        intro u d o hbrink
        exact beginSettling?_eq_none hb (brink?_stepTask (taskToBrink?_of_running ht hbrink))
      exact hspares

/-! ### The reactor and its pool -/

theorem brink?_stepReactor {y : Settlement} (h : w.reactorToBrink? = some (u, y)) :
    w.brink? .stepReactor = some (.reactor, u, y) := by
  show w.reactorToBrink?.map _ = _
  rw [h]
  rfl

/-- Where the thread of the reactor stands with regard to settling a call. -/
inductive ReactorStands (w : Client Handler) : Prop where
  /-- It is about to settle nothing. -/
  | away (hb : w.reactorToBrink? = none)
      (hs : ∀ {w' : Client Handler}, w.stepReactor? = some w' → w.ledger.Spares w'.ledger)
  /-- It is about to give a call up. -/
  | givingUp {c : Nat} {e : Error} {w₁ : Client Handler}
      (hb : w.reactorToBrink? = some (w₁.reactorGivingUp c e))
      (hs : w.stepReactor? = some (w₁.giveUpCall c e)) (hspares : w.ledger.Spares w₁.ledger)
  /-- The cycle of a call has come to a result. -/
  | completing {c : Nat} {fed : Option Outcome} {result : Result} {w₁ : Client Handler}
      (hb : w.reactorToBrink?
        = some ({ w₁ with work := if w₁.hasCallback c then .calling c else .none },
          ⟨c, some result⟩))
      (hs : w.stepReactor? = some (w.advanceCall c fed))
      (hw : w.resumeCall? c fed = some (w₁, .finish result))

theorem ReactorStands.of_spares (hb : w.reactorToBrink? = none) (hs : w.stepReactor? = some w')
    (hspares : w.ledger.Spares w'.ledger) : w.ReactorStands := by
  refine .away hb fun h => ?_
  obtain rfl := Option.some.inj (hs.symm.trans h)
  exact hspares

theorem reactorStands_advancing {fed : Option Outcome} (hwork : w.work = .advancing c fed) :
    w.ReactorStands := by
  have hs : w.stepReactor? = some (w.advanceCall c fed) := by
    unfold stepReactor?
    rw [hwork]
  cases hw : w.resumeCall? c fed with
  | none =>
    refine .of_spares (by simp [reactorToBrink?, hwork, hw]) hs ?_
    unfold advanceCall
    rw [hw]
    exact .refl _
  | some resumed =>
    obtain ⟨w₁, effect⟩ := resumed
    have hspares := spares_resumeCall? hw
    cases effect with
    | send =>
      refine .of_spares (by simp [reactorToBrink?, hwork, hw]) hs ?_
      unfold advanceCall
      rw [hw]
      exact hspares
    | sleep seconds =>
      refine .of_spares (by simp [reactorToBrink?, hwork, hw]) hs ?_
      unfold advanceCall
      rw [hw]
      exact hspares
    | raise e =>
      unfold advanceCall at hs
      rw [hw] at hs
      exact .givingUp (by simp [reactorToBrink?, hwork, hw]) hs hspares
    | finish result => exact .completing (by simp [reactorToBrink?, hwork, hw]) hs hw

theorem reactorStands_pausing {seconds : Binary64} (hwork : w.work = .pausing c seconds) :
    w.ReactorStands := by
  have hs : w.stepReactor? = some (w.pauseCall c seconds) := by
    unfold stepReactor?
    rw [hwork]
  unfold pauseCall at hs
  cases hschedule : w.reactor.schedule w.clock seconds (.advance c) with
  | error e =>
    rw [hschedule] at hs
    exact .givingUp (by simp [reactorToBrink?, hwork, hschedule]) hs (.refl _)
  | ok _ =>
    rw [hschedule] at hs
    exact .of_spares (by simp [reactorToBrink?, hwork, hschedule]) hs (.refl _)

theorem reactorStands_arming (hwork : w.work = .arming c) : w.ReactorStands := by
  have hs : w.stepReactor? = some (w.armCall c) := by
    unfold stepReactor?
    rw [hwork]
  unfold armCall at hs
  cases hc : w.calls[c]? with
  | none =>
    rw [hc] at hs
    exact .of_spares (by simp [reactorToBrink?, hwork, hc]) hs (.refl _)
  | some call =>
    rw [hc] at hs
    dsimp only at hs
    cases hschedule : w.reactor.schedule w.clock call.request.timeout
        (.expire w.attempts.length) with
    | error e =>
      rw [hschedule] at hs
      exact .givingUp (by simp [reactorToBrink?, hwork, hc, hschedule]) hs (.refl _)
    | ok _ =>
      rw [hschedule] at hs
      exact .of_spares (by simp [reactorToBrink?, hwork, hc, hschedule]) hs (.refl _)

theorem reactorStands_submitting {a : Nat} (hwork : w.work = .submitting a) :
    w.ReactorStands := by
  have hs : w.stepReactor? = some (w.submitAttempt a) := by
    unfold stepReactor?
    rw [hwork]
  unfold submitAttempt at hs
  cases ha : w.attempts[a]? with
  | none =>
    rw [ha] at hs
    exact .of_spares (by simp [reactorToBrink?, hwork, ha]) hs (.refl _)
  | some attempt =>
    rw [ha] at hs
    dsimp only at hs
    cases hpool : w.frontend.poolClosed with
    | true =>
      rw [if_pos hpool] at hs
      exact .givingUp (by simp [reactorToBrink?, hwork, ha, hpool]) hs (.refl _)
    | false =>
      rw [if_neg (Bool.eq_false_iff.1 hpool)] at hs
      exact .of_spares (by simp [reactorToBrink?, hwork, ha, hpool]) hs
        (spares_record (.refl _) rfl)

theorem reactorStands (w : Client Handler) : w.ReactorStands := by
  cases hwork : w.work with
  | advancing c fed => exact reactorStands_advancing hwork
  | pausing c seconds => exact reactorStands_pausing hwork
  | arming c => exact reactorStands_arming hwork
  | submitting a => exact reactorStands_submitting hwork
  | calling c =>
    refine .away (by simp [reactorToBrink?, hwork]) fun h => ?_
    simp [stepReactor?, hwork] at h
  | none =>
    refine .away (by simp [reactorToBrink?, hwork]) fun h => ?_
    unfold stepReactor? at h
    rw [hwork] at h
    dsimp only at h
    split at h
    · rename_i reactor job _
      cases h
      exact spares_of_eq (ledger_beginJob _ job)
    · cases h
      exact .refl _
    · cases h

theorem spares_stepReactor? (h : w.stepReactor? = some w')
    (hb : w.beginSettling? .stepReactor = none) : w.ledger.Spares w'.ledger := by
  cases w.reactorStands with
  | away _ hs => exact hs h
  | givingUp hbrink hs hspares =>
    obtain rfl := Option.some.inj (hs.symm.trans h)
    have hdone := beginSettling?_eq_none hb (brink?_stepReactor hbrink)
    unfold giveUpCall
    rw [abandonCall_of_isDone hdone, ledger_print]
    exact hspares
  | @completing c fed result w₁ hbrink hs hw =>
    obtain rfl := Option.some.inj (hs.symm.trans h)
    have hdone : w₁.IsDone c := beginSettling?_eq_none hb (brink?_stepReactor hbrink)
    have hspares := spares_resumeCall? hw
    unfold advanceCall
    rw [hw]
    dsimp only
    rcases completeCall_of_isDone hdone result with ⟨e, he⟩ | he <;> rw [he]
    · exact show (Ledger.Spares _ (Client.print _ e.describe).ledger) from
        spares_record hspares rfl
    · exact hspares

theorem brink?_postAttempt {a : Nat} {answer : Except Error Outcome} {y : Settlement}
    (h : w.workerToBrink? a answer = some (u, y)) :
    w.brink? (.postAttempt a answer) = some (.worker, u, y) := by
  show (w.workerToBrink? a answer).map _ = _
  rw [h]
  rfl

theorem spares_postAttempt? {a : Nat} {answer : Except Error Outcome}
    (h : w.postAttempt? a answer = some w')
    (hb : w.beginSettling? (.postAttempt a answer) = none) : w.ledger.Spares w'.ledger := by
  unfold postAttempt? at h
  split at h
  · rename_i attempt ha
    split at h
    · rename_i hflight
      dsimp only at h
      split at h
      · cases h
        exact .refl _
      · rename_i e hcall
        cases h
        have hbrink : w.workerToBrink? a answer
            = some ({ w with attempts := w.attempts.set a { attempt with inFlight := false } },
              ⟨attempt.call, none⟩) := by
          unfold workerToBrink?
          rw [ha, Option.bind_some, if_pos hflight, hcall]
        have hdone := beginSettling?_eq_none hb (brink?_postAttempt hbrink)
        rw [abandonCall_of_isDone hdone]
        exact .refl _
    · cases h
  · cases h

/-! ### All actions -/

theorem spares_openSession {options : SessionOptions} {identity : String}
    (h : w.openSession options identity = .ok w') : w.ledger.Spares w'.ledger := by
  unfold openSession at h
  split at h
  · cases h
  · rename_i s config hs
    cases h
    exact .opened (isNew_create hs)

theorem spares_changeSetting (w : Client Handler) (i : Nat) (change : SettingChange) :
    w.ledger.Spares (w.changeSetting i change).2.ledger := by
  rcases w.changeSetting_cases i change with hkept | ⟨s, t, hs, ht, heq⟩
  · rw [hkept]
    exact .refl _
  · obtain ⟨-, ht⟩ := Session.set_eq_ok ht
    rw [heq]
    exact .setSession hs (by rw [ht]; rfl)

theorem spares_clearCursor (w : Client Handler) (i : Nat) (channels : Option (List String)) :
    w.ledger.Spares (w.clearCursor i channels).ledger := by
  unfold clearCursor
  split
  · rename_i s hs
    exact .setSession hs rfl
  · exact .refl _

theorem spares_stepClosing? {k : Nat} (h : w.stepClosing? k = some w') :
    w.ledger.Spares w'.ledger := by
  unfold stepClosing? at h
  obtain ⟨closing, -, h⟩ := Option.bind_eq_some_iff.1 h
  obtain ⟨s, hs, h⟩ := Option.bind_eq_some_iff.1 h
  split at h
  · split at h
    · cases h
      exact .refl _
    · split at h <;> cases h <;> exact .refl _
  · split at h <;> cases h
    exact .refl _
  · cases h
    exact .setSession hs rfl
  · cases h
    refine spares_of_eq ?_
    show ledger (if s.ownsFrontend then w.closeFrontend else w) = _
    split
    · exact ledger_closeFrontend w
    · rfl
  · cases h

/-- **An action with which no stint begins** claims, releases, settles and tells nothing. -/
theorem spares_act? {action : Action Handler} (h : w.act? action = some w')
    (hb : w.begin? action = none) : w.ledger.Spares w'.ledger := by
  cases action with
  | openSession options identity =>
    unfold act? at h
    dsimp only at h
    cases hs : w.openSession options identity with
    | error e =>
      rw [hs] at h
      cases h
    | ok w₁ =>
      rw [hs] at h
      cases h
      exact spares_openSession hs
  | ask session operation timeout callback =>
    cases h
    exact spares_of_eq (ledger_ask w session operation timeout callback)
  | changeSetting session change =>
    cases h
    exact spares_changeSetting w session change
  | clearCursor session channels =>
    cases h
    exact spares_clearCursor w session channels
  | beginClose session timeout =>
    cases h
    exact .refl _
  | closeFrontend =>
    cases h
    exact spares_of_eq (ledger_closeFrontend w)
  | stopReactor =>
    cases h
    exact .refl _
  | cancelTask t => exact spares_of_eq (ledger_cancelTask? h)
  | startListener session channels receiver timeout fault =>
    cases h
    exact spares_of_eq (ledger_startListener w session channels receiver timeout fault)
  | stopListener receiver =>
    cases h
    exact spares_of_eq (ledger_stopListener w receiver)
  | stepInvocation i =>
    obtain ⟨hoperation, hsettling⟩ := Option.or_eq_none_iff.1 hb
    exact spares_stepInvocation? h hoperation hsettling
  | stepTask t => exact spares_stepTask? h hb
  | stepReactor => exact spares_stepReactor? h hb
  | stepClosing k => exact spares_stepClosing? h
  | stepListener l => exact spares_of_eq (ledger_stepListener? h)
  | answerInvocation i answer => exact spares_of_eq (ledger_answerInvocation? h)
  | wakeInvocation i => exact spares_of_eq (ledger_wakeInvocation? h)
  | returnInvocation i raised => exact spares_of_eq (ledger_returnInvocation? h)
  | answerTask t answer => exact spares_of_eq (ledger_answerTask? h)
  | wakeTask t => exact spares_of_eq (ledger_wakeTask? h)
  | returnTask t raised => exact spares_of_eq (ledger_returnTask? h)
  | pollReactor => exact spares_of_eq (ledger_pollReactor? h)
  | postAttempt a answer => exact spares_postAttempt? h hb
  | returnReactor raised => exact spares_of_eq (ledger_returnReactor? h)
  | giveUpClosing k => exact spares_of_eq (ledger_giveUpClosing? h)
  | finishFrontend =>
    cases h
    exact .refl _
  | wakeListener l => exact spares_of_eq (ledger_wakeListener? h)
  | returnListener l raised => exact spares_of_eq (ledger_returnListener? h)
  | collect receiver =>
    cases h
    exact .refl _
  | tick now =>
    unfold act? tick? at h
    dsimp only at h
    split at h <;> cases h
    exact .refl _
  | draw vector =>
    cases h
    exact .refl _

/-- **At the brink** nothing is left of a step but to settle the call and to release its session,
and what came before spares the ledger. -/
structure AtBrink (w : Client Handler) (next : Option (Client Handler)) (u : Client Handler)
    (y : Settlement) (call : Call Handler) : Prop where
  next : next = some (u.release call.session (some y))
  spares : w.ledger.Spares u.ledger
  kind : ∀ result, y.outcome = some result → result.kind = call.cycle.request.kind

/-- An invocation at the brink. -/
theorem stepInvocation?_of_brink {y : Settlement} (hb : w.invocationToBrink? i = some (u, y))
    (hc : u.callOn? y.call = some (call, s)) (hu : call.settled = false) :
    w.AtBrink (w.stepInvocation? i) u y call := by
  unfold invocationToBrink? at hb
  split at hb
  · rename_i c drive hp
    obtain ⟨v, hv, hp⟩ := Option.map_eq_some_iff.1 hp
    obtain ⟨⟨u₁, d, o⟩, hbrink, hb⟩ := Option.map_eq_some_iff.1 hb
    cases hb
    obtain ⟨hstep, hspares, ha, hkind⟩ := stepDrive?_of_brink hbrink hc hu
    have hv₁ : u₁.invocations[i]? = some v := by rwa [ha]
    refine ⟨?_, hspares.trans (spares_of_eq (ledger_setInvocation hv₁ (by rw [hp]; rfl))), hkind⟩
    have hmap : w.stepInvocation? i
        = (w.stepDrive? c drive).map fun p => p.1.setInvocation i (.driving c p.2) := by
      unfold stepInvocation?
      rw [hv]
      dsimp only
      rw [hp]
      cases drive with
      | finished result => cases hstep
      | failed e => cases hstep
      | _ => rfl
    rw [hmap, hstep, release_comm (f := (setInvocation · i (.driving c d))) fun _ _ _ => rfl]
    rfl
  · rename_i c e hp
    obtain ⟨v, hv, hp⟩ := Option.map_eq_some_iff.1 hp
    cases hb
    refine ⟨?_, spares_of_eq (ledger_setInvocation hv (by rw [hp]; rfl)), by rintro _ ⟨⟩⟩
    unfold stepInvocation?
    rw [hv]
    dsimp only
    rw [hp]
    dsimp only
    rw [abandonCall_eq_release (w := w) hc hu,
      release_comm (f := (setInvocation · i (.ended (.error e)))) fun _ _ _ => rfl]
  · cases hb

/-- A task at the brink. -/
theorem stepTask?_of_brink {t : Nat} {y : Settlement} (hb : w.taskToBrink? t = some (u, y))
    (hc : u.callOn? y.call = some (call, s)) (hu : call.settled = false) :
    w.AtBrink (w.stepTask? t) u y call := by
  unfold taskToBrink? at hb
  split at hb
  · rename_i c drive ht
    obtain ⟨⟨u₁, d, o⟩, hbrink, hb⟩ := Option.map_eq_some_iff.1 hb
    cases hb
    obtain ⟨hstep, hspares, -, hkind⟩ := stepDrive?_of_brink hbrink hc hu
    refine ⟨?_, hspares, hkind⟩
    unfold stepTask?
    rw [ht]
    dsimp only
    rw [hstep, release_comm (f := (setTask · t d)) fun _ _ _ => rfl]
    rfl
  · cases hb

/-- The thread of the reactor at the brink. -/
theorem stepReactor?_of_brink {y : Settlement} (hb : w.reactorToBrink? = some (u, y))
    (hc : u.callOn? y.call = some (call, s)) (hu : call.settled = false) :
    w.AtBrink w.stepReactor? u y call := by
  cases w.reactorStands with
  | away hnone => cases hnone.symm.trans hb
  | @givingUp c e w₁ hbrink hs hspares =>
    cases hbrink.symm.trans hb
    have hprinted := spares_of_eq (ledger_print { w₁ with work := .none } e.describe)
    exact ⟨hs.trans (congrArg some (abandonCall_eq_release hc hu)), hspares.trans hprinted,
      by rintro _ ⟨⟩⟩
  | @completing c fed result w₁ hbrink hs hw =>
    cases hbrink.symm.trans hb
    have hspares : w.ledger.Spares w₁.ledger := spares_resumeCall? hw
    refine ⟨hs.trans ?_, hspares, ?_⟩
    · unfold advanceCall
      rw [hw]
      dsimp only
      rw [completeCall_eq_release (w := w₁) hc hu,
        release_comm (f := fun w : Client Handler =>
          { w with work := if w₁.hasCallback c then .calling c else .none }) fun _ _ _ => rfl]
      cases w₁.hasCallback c <;> rfl
    · rintro _ ⟨⟩
      exact kind_of_resumeCall? hw hc

/-- A worker at the brink. -/
theorem postAttempt?_of_brink {a : Nat} {answer : Except Error Outcome} {y : Settlement}
    (hb : w.workerToBrink? a answer = some (u, y)) (hc : u.callOn? y.call = some (call, s))
    (hu : call.settled = false) :
    w.AtBrink (w.postAttempt? a answer) u y call := by
  unfold workerToBrink? at hb
  obtain ⟨attempt, ha, hb⟩ := Option.bind_eq_some_iff.1 hb
  split at hb
  · rename_i hflight
    split at hb
    · cases hb
    · rename_i e hcall
      cases hb
      refine ⟨?_, .refl _, by rintro _ ⟨⟩⟩
      unfold postAttempt?
      rw [ha]
      dsimp only
      rw [if_pos hflight, hcall]
      exact congrArg some (abandonCall_eq_release hc hu)
  · cases hb

/-- **An action at the brink** does at once what is left to do: it settles the call and releases its
session. What it does before that claims, releases, settles and tells nothing. -/
theorem act?_of_brink {action : Action Handler} {thread : Thread} {y : Settlement}
    (hb : w.brink? action = some (thread, u, y)) (hc : u.callOn? y.call = some (call, s))
    (hu : call.settled = false) :
    w.AtBrink (w.act? action) u y call := by
  unfold brink? at hb
  split at hb
  · obtain ⟨brink, hb, heq⟩ := Option.map_eq_some_iff.1 hb
    cases heq
    exact stepInvocation?_of_brink hb hc hu
  · obtain ⟨brink, hb, heq⟩ := Option.map_eq_some_iff.1 hb
    cases heq
    exact stepTask?_of_brink hb hc hu
  · obtain ⟨brink, hb, heq⟩ := Option.map_eq_some_iff.1 hb
    cases heq
    exact stepReactor?_of_brink hb hc hu
  · obtain ⟨brink, hb, heq⟩ := Option.map_eq_some_iff.1 hb
    cases heq
    exact postAttempt?_of_brink hb hc hu
  · cases hb

/-! ## How stints begin -/

/-- **How a stint begins**, and the client when it does. -/
inductive Begins (w : Client Handler) : Action Handler → Client Handler → Stint → Prop where
  /-- An operation saw that its session is open. -/
  | claim {i : Nat} {v : Invocation Handler} {s : Session} (hv : w.invocations[i]? = some v)
      (hp : v.phase = .asked) (hs : w.sessions[v.session]? = some s) (hopen : s.closed = false) :
      Begins w (.stepInvocation i) w (.claiming i v.session .opened)
  /-- No operation was seen to hold a session a setting of which is to be changed. -/
  | change {i : Nat} {s : Session} {change : SettingChange} (hs : w.sessions[i]? = some s)
      (hfree : s.busy = false) : Begins w (.changeSetting i change) w (.changing i change false)
  /-- The request of an operation could not be built. -/
  | unbuilt {i : Nat} {v : Invocation Handler} {s : Session} {u : Client Handler}
      (hv : w.invocations[i]? = some v) (hp : v.phase = .claimed)
      (hs : w.sessions[v.session]? = some s) (hsessions : u.sessions = w.sessions)
      (hl : u.ledger = w.ledger.endBuilding v.session)
      (ha : w.act? (.stepInvocation i) = some (u.release v.session none)) :
      Begins w (.stepInvocation i) u (.releasing (.invocation i) v.session none .marked)
  /-- A call was seen not to be settled. -/
  | settle {action : Action Handler} {thread : Thread} {u : Client Handler} {y : Settlement}
      {call : Call Handler} {s : Session} (hc : u.callOn? y.call = some (call, s))
      (hu : call.settled = false) (hspares : w.ledger.Spares u.ledger)
      (hk : ∀ result, y.outcome = some result → result.kind = call.cycle.request.kind)
      (ha : w.act? action = some (u.release call.session (some y))) :
      Begins w action u (.releasing thread call.session (some y) .looked)

theorem begins_of_beginSettling? {action : Action Handler} {stint : Stint}
    (h : w.beginSettling? action = some (u, stint)) : w.Begins action u stint := by
  obtain ⟨thread, y, call, s, hb, hc, hu, rfl⟩ := beginSettling?_eq_some h
  obtain ⟨ha, hspares, hk⟩ := act?_of_brink hb hc hu
  exact .settle hc hu hspares hk ha

theorem begins_of_begin? {action : Action Handler} {stint : Stint}
    (h : w.begin? action = some (u, stint)) : w.Begins action u stint := by
  unfold begin? at h
  split at h
  · unfold beginChange? at h
    obtain ⟨s, hs, h⟩ := Option.bind_eq_some_iff.1 h
    split at h
    · cases h
    · rename_i hfree
      cases h
      exact .change hs (Bool.eq_false_iff.2 hfree)
  · rename_i i
    rcases Option.or_eq_some_iff.1 h with h | ⟨-, h⟩
    · obtain ⟨v, s, hv, hs, ⟨hp, hopen, rfl, rfl⟩ | ⟨hp, rfl, e, config, hbuild, rfl⟩⟩ :=
        beginOperation?_eq_some h
      · exact .claim hv hp hs hopen
      · refine .unbuilt hv hp hs rfl (ledger_unclaimed (w := { w with config }) hv hp _ rfl) ?_
        show w.stepInvocation? i = _
        rw [stepInvocation?_of_claimed hv hp]
        unfold buildFor?
        rw [hs, Option.map_some, hbuild,
          release_none (w := ({ w with config } : Client Handler).setInvocation i
            (.ended (.error e))) hs]
        rfl
    · exact begins_of_beginSettling? h
  · exact begins_of_beginSettling? h

end Client

end Pubsub
