import Pubsub.Proofs.Attempts

/-!
# Responses in time and responses that come too late

A worker may hand its response over long after anybody can use it. If the attempt or the call was
settled by then, or the reactor was told to stop, the response is **lost**: it is not taken in any
run that follows.

A response that was handed over in time is taken while its call is not settled, as long as the
reactor is running. When it was told to stop, another worker may find that out and give the call up
while the response is still in the queue; the loop finishes its turn, and takes it all the same.
-/

namespace Pubsub

variable {Handler : Type}

/-! ## Lost responses -/

namespace Relay

variable {clearing : Prop} {r r' : Relay Handler} {event : Option (Nat × CallEvent)} {c a : Nat}
  {call : Call Handler} {status : Int} {content : Bytes}

/-- Is the response to the attempt lost? Then nobody awaits the attempt, or it is not on its way. -/
structure IsLost (r : Relay Handler) (a : Nat) : Prop where
  made : a < r.alarms.length
  missed : ∀ d, (d, .awaiting a) ∈ r.batons → a ∉ r.underway

/-- A response stays lost where the attempt is awaited no more, and is on its way no more, than
before. -/
theorem IsLost.mono (h : r.IsLost a) (halarms : r.alarms.length ≤ r'.alarms.length)
    (hb : ∀ d, (d, .awaiting a) ∈ r'.batons → (d, .awaiting a) ∈ r.batons)
    (hu : a ∈ r'.underway → a ∈ r.underway) : r'.IsLost a :=
  ⟨h.made.trans_le halarms, fun d hd ha => h.missed d (hb d hd) (hu ha)⟩

/-- A baton that is replaced by that of no attempt brings none back. -/
theorem IsLost.replace (h : r.IsLost a) {c : Nat} {b : Baton}
    {rest : Multiset (Nat × Baton)} (hb : r.batons = {(c, b)} + rest) (next : Option Baton)
    (hn : ∀ b', next = some b' → b'.isAwaiting = false)
    (hbatons : r'.batons = Baton.held c next + rest) (halarms : r'.alarms = r.alarms)
    (hu : a ∈ r'.underway → a ∈ r.underway) : r'.IsLost a := by
  refine h.mono (Nat.le_of_eq (congrArg List.length halarms.symm)) ?_ hu
  intro d hd
  rw [hbatons] at hd
  rw [hb]
  rcases Multiset.mem_add.1 hd with hd | hd
  · cases hn _ (Baton.mem_held.1 hd).2
  · exact Multiset.mem_add.2 (Or.inr hd)

/-- **A lost response stays lost.** -/
theorem IsLost.move (h : r.IsLost a) (hm : Move clearing r event r') : r'.IsLost a := by
  have hothers : ∀ {x : Nat} {others : Multiset Nat}, r.underway = {x} + others → a ∈ others →
      a ∈ r.underway := fun hu ha => hu ▸ Multiset.mem_add.2 (Or.inr ha)
  cases hm with
  | still stopped closed hs hc => exact ⟨h.made, h.missed⟩
  | opened => exact ⟨h.made, h.missed⟩
  | cleared hcl cursors => exact ⟨h.made, h.missed⟩
  | submitted hopen ha hb => exact ⟨h.made, h.missed⟩
  | accepted hi request policy callback =>
    refine h.mono (Nat.le_refl _) ?_ id
    intro d hd
    exact mem_of_ne (by rintro ⟨⟩) hd
  | @passed c b b' event rest hb hp =>
    refine h.replace hb (some b') ?_ rfl rfl id
    rintro _ ⟨⟩
    exact hp.isAwaiting.2.1
  | left hb =>
    refine h.mono (Nat.le_refl _) ?_ id
    intro d hd
    exact hb ▸ Multiset.mem_add.2 (Or.inr hd)
  | abandoned hb hc hn =>
    exact h.replace hb _ (fun b' hb' => (hn.isAwaiting.2 b' hb').1) rfl rfl id
  | resumed now hb hc hcursor hf hr hn =>
    exact h.replace hb _ (fun b' hb' => (hn.isAwaiting.2 b' hb').1) rfl rfl id
  | slept hb => exact h.replace hb (some (.timed r.created)) (by rintro _ ⟨⟩; rfl) rfl rfl id
  | @attempted c rest hi hb =>
    -- The attempt that is made now is another one, since its number is new.
    have hne : a ≠ r.alarms.length := Nat.ne_of_lt h.made
    refine h.mono (by simp) ?_ ?_
    · intro d hd
      rw [hb]
      refine Multiset.mem_add.2 (Or.inr (mem_of_ne ?_ hd))
      intro heq
      exact hne (Baton.awaiting.inj heq.symm)
    · intro ha
      rcases Multiset.mem_add.1 ha with ha | ha
      · exact absurd (Multiset.mem_singleton.1 ha) hne
      · exact ha
  | declined hclosed ha hb ho hu hc => exact h.mono (Nat.le_refl _) (fun _ hd => hd) (hothers hu)
  | refused hs ho hu hc => exact h.mono (Nat.le_refl _) (fun _ hd => hd) (hothers hu)
  | dropped ho hu => exact h.mono (Nat.le_refl _) (fun _ hd => hd) (hothers hu)
  | arrived hi hb ho hu ht =>
    exact h.replace hb (some (.advancing _)) (by rintro _ ⟨⟩; rfl) rfl rfl (hothers hu)
  | expired hi hb ho _ =>
    exact h.replace hb (some (.advancing _)) (by rintro _ ⟨⟩; rfl) rfl rfl id

/-- A lost response does not arrive. -/
theorem IsLost.ne_arrived (h : r.IsLost a) (hm : Move clearing r event r') (c : Nat)
    (outcome : Outcome) : event ≠ some (c, .arrived a outcome) := by
  intro hevent
  cases hm with
  | arrived hi hb ho hu ht =>
    cases hevent
    exact h.missed c (hb ▸ Multiset.mem_add.2 (Or.inl (Multiset.mem_singleton_self _)))
      (hu ▸ Multiset.mem_add.2 (Or.inl (Multiset.mem_singleton_self _)))
  | passed hb hp => cases hp <;> cases hevent
  | _ => cases hevent

/-! ## Responses that are taken -/

/-- A reply that is about to be fed to a settled call was taken by a reactor that was told to
stop. -/
def IsPrompt (r : Relay Handler) : Prop :=
  ∀ (c : Nat) (status : Int) (content : Bytes) (call : Call Handler),
    (c, .advancing (some (.reply status content))) ∈ r.batons → r.calls[c]? = some call →
    call.settled = true → r.stopped = true

/-- A baton may be replaced by another that feeds no reply, whatever becomes of its call. -/
theorem IsPrompt.replace (h : r.IsPrompt) (hs : r.IsSound) {b : Baton}
    {rest : Multiset (Nat × Baton)} (hb : r.batons = {(c, b)} + rest) (next : Option Baton)
    (hn : ∀ status content, next ≠ some (.advancing (some (.reply status content))))
    (hbatons : r'.batons = Baton.held c next + rest)
    (hcalls : ∀ d, d ≠ c → r'.calls[d]? = r.calls[d]?) (hstopped : r'.stopped = r.stopped) :
    r'.IsPrompt := by
  obtain ⟨hcarried, -, -⟩ := hs.take hb
  intro d status content call hd hcall hsettled
  rw [hbatons] at hd
  rw [hstopped]
  rcases Multiset.mem_add.1 hd with hd | hd
  · exact absurd (Baton.mem_held.1 hd).2 (hn status content)
  · rw [hcalls d (hcarried.ne_of_mem hd)] at hcall
    exact h d status content call (hb ▸ Multiset.mem_add.2 (Or.inr hd)) hcall hsettled

/-- What an attempt came to is about to be fed to its call. -/
theorem IsPrompt.answer (h : r.IsPrompt) {rest : Multiset (Nat × Baton)} {outcome : Outcome}
    (hb : r.batons = {(c, .awaiting a)} + rest)
    (ho : ∀ status content call, outcome = .reply status content → r.calls[c]? = some call →
      call.settled = true → r.stopped = true)
    (hbatons : r'.batons = {(c, .advancing (some outcome))} + rest) (hcalls : r'.calls = r.calls)
    (hstopped : r'.stopped = r.stopped) : r'.IsPrompt := by
  intro d status content call hd hcall hsettled
  rw [hbatons] at hd
  rw [hcalls] at hcall
  rw [hstopped]
  rcases Multiset.mem_add.1 hd with hd | hd
  · cases Multiset.mem_singleton.1 hd
    exact ho status content call rfl hcall hsettled
  · exact h d status content call (hb ▸ Multiset.mem_add.2 (Or.inr hd)) hcall hsettled

/-- **Every move keeps replies prompt.** -/
theorem IsPrompt.move (h : r.IsPrompt) (hs : r.IsSound) (hm : Move clearing r event r') :
    r'.IsPrompt := by
  have hother : ∀ {c : Nat} {call' : Call Handler} {d : Nat}, d ≠ c →
      (r.calls.set c call')[d]? = r.calls[d]? := fun hd => List.getElem?_set_ne (Ne.symm hd)
  cases hm with
  | still stopped closed hstop hclose =>
    intro d status content call hd hcall hsettled
    exact hstop (h d status content call hd hcall hsettled)
  | opened => exact h
  | cleared hcl cursors => exact h
  | submitted hopen ha hb => exact h
  | dropped ho hu => exact h
  | accepted hi request policy callback =>
    intro d status content call hd hcall hsettled
    have hold : (d, Baton.advancing (some (.reply status content))) ∈ r.batons :=
      mem_of_ne (by rintro ⟨⟩) hd
    obtain ⟨call', hcall', -⟩ := hs.carried.fits hold
    have hlt := (List.getElem?_eq_some_iff.1 hcall').1
    exact h d status content call hold ((List.getElem?_append_left hlt).symm.trans hcall) hsettled
  | @passed c b b' event rest hb hp =>
    refine h.replace hs hb (some b') ?_ rfl (fun d hd => rfl) rfl
    rintro status content ⟨⟩
    cases hp
  | left hb =>
    exact h.replace hs hb none (by rintro status content ⟨⟩) (zero_add _).symm (fun d hd => rfl) rfl
  | abandoned hb hc hn =>
    refine h.replace hs hb _ ?_ rfl (fun d hd => hother hd) rfl
    rintro status content rfl
    cases hn
  | @resumed c call cursor step b settled next rest now fed hb hc hcursor hf hr hn =>
    refine h.replace hs hb next ?_ rfl (fun d hd => hother hd) rfl
    rintro status content rfl
    generalize step.effect = effect at hn
    cases hn
  | slept hb =>
    exact h.replace hs hb (some (.timed r.created)) (by rintro status content ⟨⟩) rfl
      (fun d hd => rfl) rfl
  | attempted hi hb =>
    exact h.replace hs hb (some (.awaiting r.alarms.length)) (by rintro status content ⟨⟩) rfl
      (fun d hd => rfl) rfl
  | @declined c a call others hclosed ha hb ho hu hc =>
    intro d status content other hd hcall hsettled
    have hne : d ≠ c := by
      rintro rfl
      cases hs.carried.eq_of_mem hd hb
    exact h d status content other hd ((hother hne).symm.trans hcall) hsettled
  | refused hstopped ho hu hc =>
    intro d status content other hd hcall hsettled
    exact hstopped
  | @arrived c a timer outcome rest others hi hb ho hu ht =>
    refine h.answer hb ?_ rfl rfl rfl
    intro status content call _ hcall hsettled
    -- The response was on its way although the call was settled, so the reactor was stopped.
    rcases hs.awaited.absent (hb ▸ Multiset.mem_add.2 (Or.inl (Multiset.mem_singleton_self _)))
      hcall hsettled (hu ▸ Multiset.mem_add.2 (Or.inl (Multiset.mem_singleton_self _)))
      with hstopped | hsubmitting
    · exact hstopped
    · rw [hi] at hsubmitting
      cases hsubmitting
  | expired hi hb ho hn =>
    refine h.answer hb ?_ rfl rfl rfl
    intro status content call heq
    exact absurd heq (hn status content)

/-- **A reply that is fed to a cycle is fed to an unsettled call**, unless the reactor was told to
stop. -/
theorem IsPrompt.unsettled (h : r.IsPrompt) (hs : r.IsSound)
    (hm : Move clearing r (some (c, .resumed (some (.reply status content)))) r')
    (hc : r.calls[c]? = some call) (hstopped : r.stopped = false) : call.settled = false := by
  by_contra hsettled
  have hsettled' : call.settled = true := Bool.eq_true_of_not_eq_false hsettled
  generalize hevent : some (c, CallEvent.resumed (some (.reply status content))) = event at hm
  cases hm with
  | @resumed d other cursor step b settled next rest now fed hb hd hcursor hf hr hn =>
    cases hevent
    have hself : (c, b) ∈ r.batons :=
      hb ▸ Multiset.mem_add.2 (Or.inl (Multiset.mem_singleton_self _))
    cases hf with
    | driven =>
      obtain ⟨call', hc', hkind, -⟩ := hs.carried.fits hself
      exact hkind (hs.carried.idle hself hc hsettled' rfl).1
    | advancing =>
      rw [h c status content call hself hc hsettled'] at hstopped
      cases hstopped
  | passed hb hp => cases hp <;> cases hevent
  | _ => cases hevent

end Relay

namespace Client

variable {w w' : Client Handler} {a c : Nat} {call : Call Handler} {action : Action Handler}
  {status : Int} {content : Bytes}

/-! ## Every run -/

theorem Reachable.isPrompt (h : Reachable w) : w.relay.IsPrompt := by
  induction h with
  | initial config fresh frontend =>
    intro c status content call hb
    exact absurd hb (Multiset.notMem_zero _)
  | act action hw _ ha ih =>
    exact ih.move (ReachableBy.reachable hw).isSound_relay.1
      ((ReachableBy.reachable hw).move_act? ha)

/-- **No reply is fed to a settled call** while the reactor is running. -/
theorem Reachable.unsettled_of_reply (hw : Reachable w) (ha : w.act? action = some w')
    (hevent : w.event? action = some (c, .resumed (some (.reply status content))))
    (hc : w.calls[c]? = some call) (hstopped : w.reactor.stopped = false) :
    call.settled = false :=
  hw.isPrompt.unsettled hw.isSound_relay.1 (hevent ▸ hw.move_act? ha) hc hstopped

/-- A worker is busy with an attempt after it was given to the pool, and once it is done, nothing of
the attempt is on its way but the response. -/
theorem not_mem_underway_land {attempt : Attempt} (hs : w.relay.IsSound)
    (ha : w.attempts[a]? = some attempt) (hbusy : attempt.inFlight = true) :
    w.submitting? ≠ some a ∧ a ∉ (w.land a attempt).underway := by
  have hunique : w.underway.Nodup := hs.awaited.unique
  rw [(relay_land ha hbusy).1, Multiset.singleton_add, Multiset.nodup_cons] at hunique
  refine ⟨?_, hunique.1⟩
  intro hi
  refine hunique.1 (mem_underway_iff.2 (Or.inl ?_))
  exact hi

/-- While the reactor is running, an attempt that is still in the pool for a settled call is settled
itself. -/
theorem settled_of_isSettled {attempt : Attempt} (hs : w.relay.IsSound)
    (ha : w.attempts[a]? = some attempt) (hbusy : attempt.inFlight = true)
    (hsettled : w.isSettled attempt.call = true) (hstopped : w.reactor.stopped = false) :
    attempt.settled = true := by
  by_contra hopen
  have hb := mem_batons_of_attempt ha (Bool.eq_false_iff.2 hopen)
  obtain ⟨call, hc, -⟩ := hs.carried.fits hb
  rw [isSettled_of_getElem? hc] at hsettled
  have hon : a ∈ w.underway := mem_underway_iff.2 (Or.inr (Or.inl ⟨attempt, ha, hbusy⟩))
  rcases hs.awaited.absent hb hc hsettled hon with hyes | hsubmitting
  · cases hstopped.symm.trans hyes
  · exact (not_mem_underway_land hs ha hbusy).1 hsubmitting

/-- **A response that is handed over too late is lost**: when its attempt or its call is settled by
then, or the reactor was told to stop. -/
theorem Reachable.isLost_of_postAttempt? (hw : Reachable w) {attempt : Attempt}
    {answer : Except Error Outcome} (ha : w.attempts[a]? = some attempt)
    (hlate : attempt.settled = true ∨ w.isSettled attempt.call = true ∨ w.reactor.stopped = true)
    (h : w.act? (.postAttempt a answer) = some w') : w'.relay.IsLost a := by
  obtain ⟨hs, -⟩ := hw.isSound_relay
  have hlt : a < w.attempts.length := (List.getElem?_eq_some_iff.1 ha).1
  have hmade : a < (w.land a attempt).relay.alarms.length := by
    show a < ((w.attempts.set a _).map Attempt.timer).length
    simpa using hlt
  unfold act? postAttempt? at h
  dsimp only at h
  rw [ha] at h
  dsimp only at h
  split at h
  · rename_i hbusy
    split at h
    · rename_i reactor hr
      cases h
      -- The reactor took the response, so it is the attempt that is settled, and nobody awaits it.
      obtain ⟨hrunning, -⟩ := Reactor.call_eq_ok hr
      have hsettled : attempt.settled = true := by
        rcases hlate with hattempt | hcall | hstopped
        · exact hattempt
        · exact settled_of_isSettled hs ha hbusy hcall hrunning
        · cases hrunning.symm.trans hstopped
      refine ⟨hmade, fun d hd => absurd hd (not_mem_batons_of_settled ?_ d)⟩
      intro other ho
      change (w.attempts.set a _)[a]? = some other at ho
      rw [List.getElem?_set_self hlt] at ho
      obtain rfl := Option.some.inj ho
      exact hsettled
    · cases h
      show ((w.land a attempt).abandonCall attempt.call).relay.IsLost a
      rw [relay_of_agreesOutside (agreesOutside_abandonCall (w.land a attempt) attempt.call)]
      exact ⟨hmade, fun d _ => (not_mem_underway_land hs ha hbusy).2⟩
  · cases h

/-- A lost response is not taken in any run. -/
theorem Reachable.not_arrived_of_isLost (hw : Reachable w) (h : w.relay.IsLost a)
    {actions : List (Action Handler)} (hr : w.run? actions = some w') (c : Nat)
    (outcome : Outcome) : .arrived a outcome ∉ w.history c actions := by
  induction actions generalizing w with
  | nil => exact List.not_mem_nil
  | cons action rest ih =>
    rw [run?_cons] at hr
    obtain ⟨v, hv, hr⟩ := Option.bind_eq_some_iff.1 hr
    have hm := hw.move_act? hv
    rw [history_cons hv]
    intro harrived
    rcases List.mem_append.1 harrived with hnow | hlater
    · unfold eventsOf CallEvent.ofCall at hnow
      split at hnow
      · rename_i d event hevent
        split at hnow
        · rw [← List.mem_singleton.1 hnow] at hevent
          exact h.ne_arrived hm d outcome hevent
        · cases hnow
      · cases hnow
    · exact ih (hw.act action trivial hv) (h.move hm) hr hlater

end Client

end Pubsub
