import Pubsub.Proofs.Contention

/-!
# What becomes of a call

A call is settled by a thread that marks it, and everything that settling comes to stands in the
lines that follow: the result is recorded, the session is released, and the callback is notified.
The stints of a crowd are never forgotten, so they tell the whole story of a call. As long as moves
are orderly one stint at most has marked it, and how far this stint is says what the session has and
what the callback was told (`Crowd.Fate`).

Once it is marked nothing can be done to a call. It cannot be completed again, and abandoning it
changes nothing, neither the call nor the session, which may be held by a newer call by then. The
steps by which an error from a callback unwinds the operation that it ended are of this kind.

What is orderly about such moves is not kept by the code. An operation may claim the session when
the signal is up and the callback not yet notified, and then the callback finds the session busy
(`Crowd.told_under_query`). And a worker may see that a call is not settled which the reactor is
about to mark; then both settle it (`Crowd.settled_by_two`).
-/

namespace Pubsub

variable {Handler : Type}

/-! ## What stints have come to -/

/-- Is the result recorded, and the callback not yet notified? -/
def ReleasePoint.hasRecorded : ReleasePoint → Bool
  | recorded | dropped | signalled => true
  | _ => false

namespace Stint

/-- Has the thread marked the call, to settle it? -/
def settles (c : Nat) : Stint → Bool
  | releasing _ _ settlement point => settlement.any (·.call == c) && point != .looked
  | _ => false

/-- Is the thread through with settling the call? -/
def hasSettled (c : Nat) : Stint → Bool
  | releasing _ _ settlement point => settlement.any (·.call == c) && point == .ended
  | _ => false

theorem settles_signalled (thread : Thread) (i : Nat) (y : Settlement) :
    (releasing thread i (some y) .signalled).settles y.call = true := by
  simp [settles]

theorem settles_ended (thread : Thread) (i : Nat) (y : Settlement) :
    (releasing thread i (some y) .ended).settles y.call = true := by
  simp [settles]

theorem exists_of_settles {stint : Stint} {c : Nat} (h : stint.settles c = true) :
    ∃ thread i y point, stint = .releasing thread i (some y) point ∧ y.call = c := by
  cases stint with
  | releasing thread i settlement point =>
    obtain ⟨hcall, -⟩ := Bool.and_eq_true_iff.1 h
    obtain ⟨y, rfl, hy⟩ := (Option.any_eq_true _ _).1 hcall
    exact ⟨thread, i, y, point, rfl, beq_iff_eq.1 hy⟩
  | _ => cases h

theorem settles_of_hasSettled {stint : Stint} {c : Nat} (h : stint.hasSettled c = true) :
    stint.settles c = true := by
  cases stint with
  | releasing thread i settlement point =>
    obtain ⟨hcall, hpoint⟩ := Bool.and_eq_true_iff.1 h
    obtain rfl := beq_iff_eq.1 hpoint
    exact Bool.and_eq_true_iff.2 ⟨hcall, rfl⟩
  | _ => cases h

end Stint

/-- What the callback of a call is told if the call comes to a result: nothing if there is none, and
otherwise the code and the body, and for a subscription a list of channels besides. -/
def noticesAfter (call : Call Handler) (result : Result) : List (Handler × Notification) :=
  call.callback.toList.map fun handler =>
    (handler, { code := result.code
                channels := if call.request.kind = .subscribe then some (result.channels.getD [])
                  else none
                body := result.body })

theorem noticesAfter_congr {call call' : Call Handler} (same : call'.IsSameAs call) :
    noticesAfter call' = noticesAfter call := by
  funext result
  unfold noticesAfter
  rw [same.callback, same.request]

namespace Client

variable {w w' : Client Handler} {c : Nat} {call : Call Handler}

/-! ## What a line does to calls and callbacks -/

theorem noticesOf_record (w : Client Handler) (d : Nat) (handler : Handler)
    (notification : Notification) (c : Nat) :
    (w.record (.notified d handler notification)).noticesOf c
      = w.noticesOf c ++ if d = c then [(handler, notification)] else [] := by
  unfold noticesOf Ledger.noticesOf
  rw [ledger_record]
  show (w.ledger.notices ++ [(d, handler, notification)]).filterMap _ = _
  rw [List.filterMap_append]
  congr 1
  by_cases hd : d = c <;> simp [hd]

/-- What is written to a session is no matter for its last result, or for that of another one. -/
theorem last_touch {k i : Nat} {f : Session → Session}
    (h : k ≠ i ∨ ∀ s, (f s).lastResult = s.lastResult) :
    ((w.touch k f).flags i).last = (w.flags i).last := by
  cases hk : w.sessions[k]? with
  | none =>
    have htouch : w.touch k f = w := by
      unfold touch
      rw [List.modify_eq_set_getElem?, hk]
      rfl
    rw [htouch]
  | some s =>
    rw [flags_touch hk]
    split
    · rename_i hki
      subst hki
      rw [flags_of_getElem? hk]
      exact h.resolve_left (absurd rfl) s
    · rfl

/-- What is told is told to the callback of the call. -/
theorem noticesOf_tell {y : Settlement} (hc : w.calls[y.call]? = some call)
    (hk : ∀ result, y.outcome = some result → result.kind = call.request.kind) (c : Nat) :
    (w.tell y).noticesOf c
      = w.noticesOf c ++ if y.call = c then y.outcome.elim [] (noticesAfter call) else [] := by
  obtain ⟨d, outcome⟩ := y
  cases outcome with
  | none => simp [tell]
  | some result =>
    have hkind : result.kind = call.request.kind := hk result rfl
    unfold tell noticesAfter
    dsimp only
    rw [hc, Option.bind_some]
    cases call.callback with
    | none => simp
    | some handler =>
      dsimp only
      rw [noticesOf_record]
      unfold Notification.ofResult
      simp [hkind]

/-- What is kept when no stint goes on: what calls are, whether they are settled, what their
callbacks were told, and what was written to sessions. -/
structure Retains (w w' : Client Handler) : Prop where
  calls : ∀ {c : Nat} {call : Call Handler}, w.calls[c]? = some call →
    ∃ call', w'.calls[c]? = some call' ∧ call'.IsSameAs call
  settled : ∀ c, w'.isSettled c = w.isSettled c
  notices : ∀ c, w'.noticesOf c = w.noticesOf c
  flags : ∀ i, w'.flags i = w.flags i

theorem retains_of_spares (h : w.ledger.Spares w'.ledger) : w.Retains w' := by
  refine ⟨fun hc => h.calls hc, h.settled, ?_, h.flags⟩
  intro c
  show w'.ledger.notices.filterMap _ = w.ledger.notices.filterMap _
  rw [h.notices]

theorem retains_of_begins {action : Action Handler} {stint : Stint}
    (hb : w.Begins action w' stint) : w.Retains w' := by
  cases hb with
  | claim hv hp hs hopen => exact retains_of_spares (.refl _)
  | change hs hfree => exact retains_of_spares (.refl _)
  | unbuilt hv hp hs hsessions hl ha =>
    have hcalls : w'.calls = w.calls := congrArg Ledger.calls hl
    refine ⟨?_, ?_, ?_, ?_⟩
    · intro c call hc
      exact ⟨call, hcalls ▸ hc, .refl call⟩
    · intro c
      unfold isSettled
      rw [hcalls]
    · intro c
      unfold noticesOf
      rw [hl]
      rfl
    · intro i
      unfold flags
      rw [hl]
      rfl
  | settle hc hu hspares hk ha => exact retains_of_spares hspares

namespace Goes

variable {lockIsFree : Bool} {stint stint' : Stint}

/-- A release goes on with the settlement that it is for. -/
theorem releasing {thread : Thread} {i : Nat} {settlement : Option Settlement}
    {point : ReleasePoint} (h : w.Goes lockIsFree stint w' (.releasing thread i settlement point)) :
    ∃ point', stint = .releasing thread i settlement point' := by
  cases h <;> exact ⟨_, rfl⟩

/-- Whatever a line does, a call remains what it is. -/
theorem exists_call (h : w.Goes lockIsFree stint w' stint') (hc : w.calls[c]? = some call) :
    ∃ call', w'.calls[c]? = some call' ∧ call'.IsSameAs call := by
  cases h with
  | @marked thread i settlement =>
    cases settlement with
    | none => exact ⟨call, hc, .refl call⟩
    | some y =>
      by_cases hy : y.call = c
      · refine ⟨{ call with settled := true }, ?_, ⟨rfl, rfl, rfl⟩⟩
        show (w.calls.modify y.call _)[c]? = _
        simp [hy, hc]
      · refine ⟨call, ?_, .refl call⟩
        show (w.calls.modify y.call _)[c]? = _
        simp [hy, hc]
  | @told thread i settlement =>
    cases settlement with
    | none => exact ⟨call, hc, .refl call⟩
    | some y => exact ⟨call, (congrArg (·[c]?) (w.sessions_tell y).2.1).trans hc, .refl call⟩
  | _ => exact ⟨call, hc, .refl call⟩

/-- A call is settled by the line that marks it. -/
theorem settles (h : w.Goes lockIsFree stint w' stint') (c : Nat) :
    (stint'.settles c = stint.settles c ∧ w'.isSettled c = w.isSettled c)
    ∨ (stint.looksAt c = true ∧ stint'.settles c = true
      ∧ w'.isSettled c = (w.calls[c]?).isSome) := by
  have hkept : w'.calls = w.calls → w'.isSettled c = w.isSettled c := by
    intro hcalls
    unfold isSettled
    rw [hcalls]
  cases h with
  | @marked thread i settlement =>
    cases settlement with
    | none => exact .inl ⟨rfl, rfl⟩
    | some y =>
      by_cases hy : y.call = c
      · refine .inr ⟨beq_iff_eq.2 hy, by simp [Stint.settles, hy], ?_⟩
        show ((w.calls.modify y.call _)[c]?).any _ = _
        cases hc : w.calls[c]? <;> simp [hy, hc]
      · refine .inl ⟨by simp [Stint.settles, hy], ?_⟩
        show ((w.calls.modify y.call _)[c]?).any _ = (w.calls[c]?).any _
        simp [hy]
  | @told thread i settlement =>
    cases settlement with
    | none => exact .inl ⟨rfl, rfl⟩
    | some y => exact .inl ⟨rfl, hkept (w.sessions_tell y).2.1⟩
  | _ => exact .inl ⟨rfl, hkept rfl⟩

/-- A callback is notified by the last line of the stint that settles its call. -/
theorem notices (h : w.Goes lockIsFree stint w' stint') :
    (∀ c, stint'.hasSettled c = stint.hasSettled c ∧ w'.noticesOf c = w.noticesOf c)
    ∨ ∃ thread i y, stint = .releasing thread i (some y) .signalled
      ∧ stint' = .releasing thread i (some y) .ended ∧ w' = w.tell y := by
  cases h with
  | @marked thread i settlement => cases settlement <;> exact .inl fun c => ⟨rfl, rfl⟩
  | @told thread i settlement =>
    cases settlement with
    | none => exact .inl fun c => ⟨rfl, rfl⟩
    | some y => exact .inr ⟨thread, i, y, rfl, rfl, rfl⟩
  | _ => exact .inl fun c => ⟨rfl, rfl⟩

/-- A line records the result of the settlement that it is for, and no other line writes it. -/
theorem last (h : w.Goes lockIsFree stint w' stint') (i : Nat) :
    (w'.flags i).last = (w.flags i).last
    ∨ ∃ thread settlement, stint = .releasing thread i settlement .marked
      ∧ stint' = .releasing thread i settlement .recorded
      ∧ ∀ s, w.sessions[i]? = some s →
        (w'.flags i).last = (settlement.bind (·.outcome)).or s.lastResult := by
  cases h with
  | refused => exact .inl rfl
  | locked => exact .inl rfl
  | raised => exact .inl (last_touch (.inr fun s => rfl))
  | claimed => exact .inl (last_touch (f := Session.clearIdle) (.inr fun s => rfl))
  | written =>
    refine .inl (last_touch (.inr fun s => ?_))
    rw [s.snd_write]
  | @marked thread k settlement => cases settlement <;> exact .inl rfl
  | @recorded thread k settlement =>
    by_cases hki : k = i
    · subst hki
      refine .inr ⟨thread, settlement, rfl, rfl, ?_⟩
      intro s hs
      rw [flags_touch hs, if_pos rfl]
      rfl
    · exact .inl (last_touch (.inl hki))
  | dropped => exact .inl (last_touch (.inr fun s => rfl))
  | signalled => exact .inl (last_touch (.inr fun s => rfl))
  | @told thread k settlement =>
    cases settlement with
    | none => exact .inl rfl
    | some y => exact .inl (congrArg (fun flags => (flags i).last) (w.flags_tell y))

end Goes

end Client

namespace Crowd

variable {x : Crowd Handler} {move : Move Handler} {w : Client Handler} {stint stint' : Stint}
  {c i j k : Nat} {call : Call Handler}

/-! ## Accounts -/

/-- What the stints of an orderly crowd tell of calls and sessions. -/
structure IsAccounted (x : Crowd Handler) : Prop where
  /-- A call that is settled was marked once, and the others were not. -/
  once : ∀ c, x.stints.countP (·.settles c) = if x.client.isSettled c then 1 else 0
  call : ∀ {thread : Thread} {i : Nat} {y : Settlement} {point : ReleasePoint},
    .releasing thread i (some y) point ∈ x.stints →
    ∃ call, x.client.calls[y.call]? = some call ∧ call.session = i
      ∧ ∀ result, y.outcome = some result → result.kind = call.request.kind
  silent : ∀ c, (∀ stint ∈ x.stints, stint.hasSettled c = false) → x.client.noticesOf c = []
  told : ∀ {thread : Thread} {i : Nat} {y : Settlement} {call : Call Handler},
    .releasing thread i (some y) .ended ∈ x.stints → x.client.calls[y.call]? = some call →
    x.client.noticesOf y.call = y.outcome.elim [] (noticesAfter call)
  last : ∀ {thread : Thread} {i : Nat} {y : Settlement} {point : ReleasePoint} {result : Result},
    .releasing thread i (some y) point ∈ x.stints → point.hasRecorded = true →
    y.outcome = some result → (x.client.flags i).last = some result
  /-- Before a release is over nobody else has to do with the session. -/
  parted : ∀ i, 0 < standing x.stints i .signalled → (x.census i).engaged = 0

namespace IsAccounted

/-- Two stints that have marked the same call are one. -/
theorem eq_of_settles (h : x.IsAccounted) (hj : x.stints[j]? = some stint)
    (hk : x.stints[k]? = some stint') (hsettles : stint.settles c = true)
    (hsettles' : stint'.settles c = true) : j = k := by
  have hle : x.stints.countP (·.settles c) ≤ 1 := by
    rw [h.once c]
    split <;> omega
  rcases Nat.lt_trichotomy j k with hlt | heq | hgt
  · have htwo := two_le_countP (p := (Stint.settles c ·)) hlt hj hk hsettles hsettles'
    omega
  · exact heq
  · have htwo := two_le_countP (p := (Stint.settles c ·)) hgt hk hj hsettles' hsettles
    omega

/-- While a thread is about to record a result, no other has recorded one and not yet notified the
callback. -/
theorem not_recorded (h : x.IsAccounted) (ht : Tally (x.census i)) {thread thread' : Thread}
    {settlement settlement' : Option Settlement} {point : ReleasePoint}
    (hj : x.stints[j]? = some (.releasing thread i settlement .marked))
    (hk : x.stints[k]? = some (.releasing thread' i settlement' point)) :
    ¬ point.hasRecorded = true := by
  have hone : _ + standing x.stints i .held + standing x.stints i .dropped ≤ 1 := ht.one
  have hpos : ∀ {k : Nat} {stint : Stint} {p : Place}, x.stints[k]? = some stint →
      stint.StandsAt i p → 0 < standing x.stints i p := by
    intro k stint p hk hp
    refine Nat.pos_of_ne_zero fun hzero => ?_
    exact standing_eq_zero_iff.1 hzero stint (List.mem_of_getElem? hk) hp
  have hheld := hpos hj ⟨rfl, rfl⟩
  intro hp
  cases point with
  | recorded =>
    have hne : j ≠ k := by
      rintro rfl
      cases hj.symm.trans hk
    have htwo : 2 ≤ standing x.stints i .held := by
      rcases Nat.lt_or_gt_of_ne hne with hlt | hgt
      · exact two_le_countP hlt hj hk (by simp [Stint.session, Stint.place?])
          (by simp [Stint.session, Stint.place?])
      · exact two_le_countP hgt hk hj (by simp [Stint.session, Stint.place?])
          (by simp [Stint.session, Stint.place?])
    omega
  | dropped =>
    have hdropped := hpos hk ⟨rfl, rfl⟩
    omega
  | signalled =>
    have hzero := h.parted i (hpos hk ⟨rfl, rfl⟩)
    have hle : standing x.stints i .held ≤ (x.census i).engaged :=
      Nat.le_trans (Nat.le_add_left _ _) (Nat.le_add_right _ _)
    omega
  | _ => cases hp

/-- Nothing new is to be told when no stint goes on. -/
theorem retained (h : x.IsAccounted) (hr : x.client.Retains w) {stints : List Stint}
    (hold : ∀ stint ∈ x.stints, stint ∈ stints)
    (hnew : ∀ stint ∈ stints, stint ∈ x.stints ∨ (∀ c, stint.settles c = false)
      ∧ ∀ {thread : Thread} {i : Nat} {y : Settlement} {point : ReleasePoint},
        stint = .releasing thread i (some y) point →
        ∃ call, w.calls[y.call]? = some call ∧ call.session = i
          ∧ ∀ result, y.outcome = some result → result.kind = call.request.kind)
    (hcount : ∀ c, stints.countP (·.settles c) = x.stints.countP (·.settles c))
    (hparted : ∀ i, 0 < standing stints i .signalled → (census ⟨w, stints⟩ i).engaged = 0) :
    IsAccounted ⟨w, stints⟩ := by
  have hcall : ∀ {thread : Thread} {i : Nat} {y : Settlement} {point : ReleasePoint},
      .releasing thread i (some y) point ∈ stints →
      ∃ call, w.calls[y.call]? = some call ∧ call.session = i
        ∧ ∀ result, y.outcome = some result → result.kind = call.request.kind := by
    intro thread i y point hm
    rcases hnew _ hm with hm | ⟨-, hstint⟩
    · obtain ⟨call, hc, hi, hk⟩ := h.call hm
      obtain ⟨call', hc', same⟩ := hr.calls hc
      refine ⟨call', hc', same.session.trans hi, ?_⟩
      rw [same.request]
      exact hk
    · exact hstint rfl
  -- A stint that has come so far was there before.
  have hwas : ∀ {thread : Thread} {i : Nat} {y : Settlement} {point : ReleasePoint},
      .releasing thread i (some y) point ∈ stints → point ≠ .looked →
      .releasing thread i (some y) point ∈ x.stints := by
    intro thread i y point hm hp
    rcases hnew _ hm with hm | ⟨hnone, -⟩
    · exact hm
    · have hsettles := hnone y.call
      simp [Stint.settles, hp] at hsettles
  refine ⟨?_, hcall, ?_, ?_, ?_, hparted⟩
  · intro c
    show stints.countP (·.settles c) = if w.isSettled c then 1 else 0
    rw [hcount, hr.settled]
    exact h.once c
  · intro c hsilent
    show w.noticesOf c = []
    rw [hr.notices]
    exact h.silent c fun stint hm => hsilent stint (hold stint hm)
  · intro thread i y call' hm hc'
    have hm := hwas hm (by rintro ⟨⟩)
    obtain ⟨call, hc, -, -⟩ := h.call hm
    obtain ⟨call'', hc'', same⟩ := hr.calls hc
    obtain rfl := Option.some.inj (hc''.symm.trans hc')
    show w.noticesOf y.call = _
    rw [hr.notices, h.told hm hc]
    rw [noticesAfter_congr same]
  · intro thread i y point result hm hp ho
    show (w.flags i).last = some result
    rw [hr.flags]
    exact h.last (hwas hm (by rintro rfl; cases hp)) hp ho

theorem acted (h : x.IsAccounted) {action : Action Handler}
    (hb : x.client.begin? action = none) (ha : x.client.act? action = some w) :
    IsAccounted ⟨w, x.stints⟩ := by
  have hspares := Client.spares_act? ha hb
  refine h.retained (Client.retains_of_spares hspares) (fun stint hm => hm)
    (fun stint hm => .inl hm) (fun c => rfl) ?_
  intro i hpos
  rw [census_of_spares hspares]
  exact h.parted i hpos

theorem begun (h : x.IsAccounted) (hx : x.IsSound) {action : Action Handler}
    (hb : x.client.Begins action w stint) : IsAccounted ⟨w, x.stints ++ [stint]⟩ := by
  have hnone : ∀ c, stint.settles c = false := by
    intro c
    cases hb <;> simp [Stint.settles]
  refine h.retained (Client.retains_of_begins hb) (fun stint hm => List.mem_append_left _ hm) ?_ ?_
    ?_
  · intro other hm
    rcases List.mem_append.1 hm with hm | hm
    · exact .inl hm
    · obtain rfl := List.mem_singleton.1 hm
      refine .inr ⟨hnone, ?_⟩
      rintro thread i y point rfl
      cases hb with
      | settle hc hu hspares hk ha =>
        obtain ⟨hcall, -⟩ := Client.callOn?_eq_some_iff.1 hc
        refine ⟨_, hcall, rfl, ?_⟩
        rw [← (hspares.regular hx.regular).request _ (List.mem_of_getElem? hcall)]
        exact hk
  · intro c
    rw [List.countP_append, List.countP_singleton, hnone c]
    rfl
  · intro i hpos
    have hplace : stint.place? = none ∨ stint.place? = some .held := by
      cases hb
      · exact .inl rfl
      · exact .inl rfl
      · exact .inr rfl
      · exact .inl rfl
    have hstands : ∀ p, p ≠ .held → standing (x.stints ++ [stint]) i p = standing x.stints i p := by
      intro p hp
      rw [standing_append, if_neg, Nat.add_zero]
      rintro ⟨-, hplace'⟩
      rcases hplace with hplace | hplace
      · cases hplace.symm.trans hplace'
      · exact hp (Option.some.inj (hplace'.symm.trans hplace))
    have hshifts := (shifts_begun hb i).engaged
    rw [locked_begun hb i, h.parted i (hstands .signalled (by rintro ⟨⟩) ▸ hpos)] at hshifts
    omega

/-- Only a thread that leaves a session raises its signal. -/
theorem parted_gone (h : x.IsAccounted) (hx : x.IsSound) (hj : x.stints[j]? = some stint)
    (hg : x.client.Goes (x.isLockFree stint.session) stint w stint')
    (hA : x.claimsAt .signalled (.go j) = false)
    (hpos : 0 < standing (x.stints.set j stint') i .signalled) :
    (census ⟨w, x.stints.set j stint'⟩ i).engaged = 0 := by
  have hshifts := (shifts_gone hx hj hg i).engaged
  have hlocked := standing_set hj stint' i .locked
  have hdropped := standing_set hj stint' i .dropped
  have hsignalled := standing_set hj stint' i .signalled
  have hlocked' : (census ⟨w, x.stints.set j stint'⟩ i).locked
      = standing (x.stints.set j stint') i .locked := rfl
  have hdropped' : (census ⟨w, x.stints.set j stint'⟩ i).dropped
      = standing (x.stints.set j stint') i .dropped := rfl
  have hlocked₀ : (x.census i).locked = standing x.stints i .locked := rfl
  have hdropped₀ : (x.census i).dropped = standing x.stints i .dropped := rfl
  by_cases hstands : stint'.StandsAt i .signalled
  · -- The thread stood before the line that raises the signal, and it was the only one.
    have hleft : stint.StandsAt i .dropped := by
      refine ⟨hg.session.symm.trans hstands.1, ?_⟩
      have hplace := hstands.2
      cases hg <;> first | rfl | cases hplace
    have hnot : ∀ p, p ≠ .signalled → ¬ stint'.StandsAt i p := fun p hp hp' =>
      hp (Option.some.inj (hp'.2.symm.trans hstands.2))
    have hnot' : ¬ stint.StandsAt i .locked := fun hp => by cases hp.2.symm.trans hleft.2
    rw [if_neg (hnot .locked (by rintro ⟨⟩)), if_neg hnot'] at hlocked
    rw [if_neg (hnot .dropped (by rintro ⟨⟩)), if_pos hleft] at hdropped
    have hone := (hx.tally i).one
    omega
  · -- Somebody else had raised the signal already, so nobody takes the lock.
    rw [if_neg hstands] at hsignalled
    have hzero := h.parted i (by omega)
    have hlock : (census ⟨w, x.stints.set j stint'⟩ i).locked ≠ (x.census i).locked + 1 := by
      intro hl
      have hnobody := standing_of_locks hj hg hA hl
      omega
    have hle : (if stint'.StandsAt i .locked then 1 else 0) ≤ 1 := by split <;> omega
    omega

/-- What the callbacks of settled calls were told after a line. -/
theorem told_gone (h : x.IsAccounted) (hj : x.stints[j]? = some stint)
    (hg : x.client.Goes (x.isLockFree stint.session) stint w stint') {thread : Thread} {i : Nat}
    {y : Settlement} {call : Call Handler}
    (hm : .releasing thread i (some y) .ended ∈ x.stints.set j stint')
    (hc : w.calls[y.call]? = some call) :
    w.noticesOf y.call = y.outcome.elim [] (noticesAfter call) := by
  obtain ⟨k, hset⟩ := List.getElem?_of_mem hm
  rcases getElem?_set_cases hset with ⟨rfl, rfl⟩ | ⟨hkj, hk⟩
  · cases hg with
    | told =>
      -- Nobody but this thread has marked the call, so nobody was told of it yet.
      have hsilent : x.client.noticesOf y.call = [] := by
        refine h.silent y.call fun other hother => ?_
        by_contra htold
        rw [Bool.not_eq_false] at htold
        obtain ⟨k', hk'⟩ := List.getElem?_of_mem hother
        obtain rfl := h.eq_of_settles hj hk' (Stint.settles_signalled thread i y)
          (Stint.settles_of_hasSettled htold)
        obtain rfl := Option.some.inj (hj.symm.trans hk')
        simp [Stint.hasSettled] at htold
      obtain ⟨call', hc', -, hkind⟩ := h.call (List.mem_of_getElem? hj)
      obtain rfl := Option.some.inj
        (((congrArg (·[y.call]?) (x.client.sessions_tell y).2.1).symm.trans hc).symm.trans hc')
      show (x.client.tell y).noticesOf y.call = _
      rw [Client.noticesOf_tell hc' hkind, hsilent, if_pos rfl, List.nil_append]
  · have hold := List.mem_of_getElem? hk
    obtain ⟨call', hc', -, -⟩ := h.call hold
    obtain ⟨call'', hc'', same⟩ := hg.exists_call hc'
    obtain rfl := Option.some.inj (hc''.symm.trans hc)
    have hnotices : w.noticesOf y.call = x.client.noticesOf y.call := by
      rcases hg.notices with hkept | ⟨thread', i', y', rfl, rfl, rfl⟩
      · exact (hkept y.call).2
      · obtain ⟨call₁, hc₁, -, hkind⟩ := h.call (List.mem_of_getElem? hj)
        have hne : y'.call ≠ y.call := by
          intro heq
          exact hkj (h.eq_of_settles hk hj (Stint.settles_ended thread i y)
            (heq ▸ Stint.settles_signalled thread' i' y'))
        rw [Client.noticesOf_tell hc₁ hkind, if_neg hne, List.append_nil]
    rw [hnotices, h.told hold hc', noticesAfter_congr same]

/-- What sessions have as their last results after a line. -/
theorem last_gone (h : x.IsAccounted) (hx : x.IsSound) (hj : x.stints[j]? = some stint)
    (hg : x.client.Goes (x.isLockFree stint.session) stint w stint') {thread : Thread} {i : Nat}
    {y : Settlement} {point : ReleasePoint} {result : Result}
    (hm : .releasing thread i (some y) point ∈ x.stints.set j stint')
    (hp : point.hasRecorded = true) (ho : y.outcome = some result) :
    (w.flags i).last = some result := by
  obtain ⟨k, hset⟩ := List.getElem?_of_mem hm
  rcases getElem?_set_cases hset with ⟨rfl, rfl⟩ | ⟨hkj, hk⟩
  · have hold := List.mem_of_getElem? hj
    cases hg with
    | recorded =>
      obtain ⟨s, hs⟩ : ∃ s, x.client.sessions[i]? = some s :=
        ⟨_, List.getElem?_eq_getElem (hx.session _ hold)⟩
      rw [Client.flags_touch hs, if_pos rfl]
      show y.outcome.or s.lastResult = some result
      rw [ho]
      rfl
    | dropped =>
      rw [Client.last_touch (f := Session.dropBusy) (.inr fun s => rfl)]
      exact h.last hold rfl ho
    | signalled =>
      rw [Client.last_touch (f := Session.setIdle) (.inr fun s => rfl)]
      exact h.last hold rfl ho
    | marked => cases hp
    | told => cases hp
  · rcases hg.last i with hlast | ⟨thread', settlement, rfl, rfl, -⟩
    · rw [hlast]
      exact h.last (List.mem_of_getElem? hk) hp ho
    · exact absurd hp (h.not_recorded (hx.tally i) hj hk)

theorem gone (h : x.IsAccounted) (hx : x.IsSound) (hj : x.stints[j]? = some stint)
    (hg : x.client.Goes (x.isLockFree stint.session) stint w stint')
    (hA : x.claimsAt .signalled (.go j) = false) : IsAccounted ⟨w, x.stints.set j stint'⟩ := by
  have hm := List.mem_of_getElem? hj
  have hcall : ∀ {thread : Thread} {i : Nat} {y : Settlement} {point : ReleasePoint},
      .releasing thread i (some y) point ∈ x.stints.set j stint' →
      ∃ point', .releasing thread i (some y) point' ∈ x.stints := by
    intro thread i y point hm'
    rcases List.mem_or_eq_of_mem_set hm' with hm' | rfl
    · exact ⟨point, hm'⟩
    · obtain ⟨point', rfl⟩ := hg.releasing
      exact ⟨point', hm⟩
  refine ⟨?_, ?_, ?_, ?_, ?_, fun i hpos => h.parted_gone hx hj hg hA hpos⟩
  · intro c
    have hcount := countP_set_add (p := fun stint : Stint => stint.settles c) stint' hj
    have honce := h.once c
    show (x.stints.set j stint').countP (·.settles c) = if w.isSettled c then 1 else 0
    rcases hg.settles c with ⟨hsettles, hsettled⟩ | ⟨hlooks, hsettles, hsettled⟩
    · rw [hsettles] at hcount
      rw [hsettled]
      omega
    · obtain ⟨thread, i, y, rfl, rfl⟩ := Stint.looksAt_iff.1 hlooks
      obtain ⟨call, hc, -, hu⟩ := hx.looked hm
      have hnot : (Stint.releasing thread i (some y) .looked).settles y.call = false := by
        simp [Stint.settles]
      rw [hsettles, hnot] at hcount
      rw [Client.isSettled_of_getElem? hc, hu] at honce
      rw [hsettled, hc]
      simp only [Bool.false_eq_true, if_true, if_false, Option.isSome_some] at hcount honce ⊢
      omega
  · intro thread i y point hm'
    obtain ⟨point', hm'⟩ := hcall hm'
    obtain ⟨call, hc, hi, hk⟩ := h.call hm'
    obtain ⟨call', hc', same⟩ := hg.exists_call hc
    refine ⟨call', hc', same.session.trans hi, ?_⟩
    rw [same.request]
    exact hk
  · intro c hsilent
    have hself : stint'.hasSettled c = false :=
      hsilent stint' (List.mem_of_getElem? (List.getElem?_set_self
        (List.getElem?_eq_some_iff.1 hj).1))
    obtain ⟨hstint, hnotices⟩ : stint.hasSettled c = false
        ∧ w.noticesOf c = x.client.noticesOf c := by
      rcases hg.notices with hkept | ⟨thread, i, y, rfl, rfl, rfl⟩
      · exact ⟨(hkept c).1.symm.trans hself, (hkept c).2⟩
      · obtain ⟨call, hc, -, hk⟩ := h.call hm
        have hy : y.call ≠ c := by
          rintro rfl
          simp [Stint.hasSettled] at hself
        refine ⟨by simp [Stint.hasSettled], ?_⟩
        rw [Client.noticesOf_tell hc hk, if_neg hy, List.append_nil]
    show w.noticesOf c = []
    rw [hnotices]
    refine h.silent c fun other hother => ?_
    obtain ⟨k, hk⟩ := List.getElem?_of_mem hother
    by_cases hkj : j = k
    · subst hkj
      obtain rfl := Option.some.inj (hj.symm.trans hk)
      exact hstint
    · exact hsilent other (List.mem_of_getElem? ((List.getElem?_set_ne hkj).trans hk))
  · exact fun hm' hc' => h.told_gone hj hg hm' hc'
  · exact fun hm' hp ho => h.last_gone hx hj hg hm' hp ho

end IsAccounted

theorem Orderly.isAccounted (h : x.Orderly) : x.IsAccounted := by
  induction h with
  | initial config fresh frontend =>
    refine ⟨fun c => rfl, ?_, fun c _ => rfl, ?_, ?_, ?_⟩
    · rintro thread i y point ⟨⟩
    · rintro thread i y call ⟨⟩
    · rintro thread i y point result ⟨⟩
    · rintro i ⟨⟩
  | move hx hA hm ih =>
    have hsound := Careful.isSound (Orderly.careful hx)
    cases moves_of_move? hm with
    | acted hfree hb ha => exact ih.acted hb ha
    | begun hfree hb => exact ih.begun hsound (Client.begins_of_begin? hb)
    | gone hj hg => exact ih.gone hsound hj hg hA.2

/-! ## Fates -/

/-- What has become of a call. -/
inductive Fate (x : Crowd Handler) (c : Nat) (call : Call Handler) : Prop where
  /-- It is not settled, and its callback was told nothing. -/
  | unsettled (hu : x.client.isSettled c = false) (hn : x.client.noticesOf c = [])
      (h : ∀ stint ∈ x.stints, stint.settles c = false)
  /-- One thread has settled it and completes it with a result. As soon as that is recorded, and
  until the callback was notified, it is the last result of the session. The session is free when
  the callback is to be notified, and the callback is told of the result once. -/
  | completed (j : Nat) (thread : Thread) (result : Result) (point : ReleasePoint)
      (hj : x.stints[j]? = some (.releasing thread call.session (some ⟨c, some result⟩) point))
      (honly : ∀ (k : Nat) (stint : Stint), x.stints[k]? = some stint → stint.settles c = true →
        k = j)
      (hu : x.client.isSettled c = true) (hk : result.kind = call.request.kind)
      (hl : point.hasRecorded = true → ∀ s, x.client.sessions[call.session]? = some s →
        s.lastResult = some result)
      (hfree : point = .signalled → ∀ s, x.client.sessions[call.session]? = some s →
        s.busy = false ∧ s.idle = true)
      (hn : x.client.noticesOf c = if point = .ended then noticesAfter call result else [])
  /-- One thread has settled it and abandons it. Its callback is told nothing. -/
  | abandoned (j : Nat) (thread : Thread) (point : ReleasePoint)
      (hj : x.stints[j]? = some (.releasing thread call.session (some ⟨c, none⟩) point))
      (honly : ∀ (k : Nat) (stint : Stint), x.stints[k]? = some stint → stint.settles c = true →
        k = j)
      (hu : x.client.isSettled c = true) (hn : x.client.noticesOf c = [])

theorem Orderly.fate (h : x.Orderly) (hc : x.client.calls[c]? = some call) : x.Fate c call := by
  have ha := h.isAccounted
  have honce := ha.once c
  cases hu : x.client.isSettled c with
  | false =>
    rw [hu, if_neg Bool.false_ne_true, List.countP_eq_zero] at honce
    have hnone : ∀ stint ∈ x.stints, stint.settles c = false := fun stint hm =>
      Bool.eq_false_iff.2 (honce stint hm)
    refine .unsettled hu (ha.silent c fun stint hm => ?_) hnone
    exact Bool.eq_false_iff.2 fun hsettled =>
      honce stint hm (Stint.settles_of_hasSettled hsettled)
  | true =>
    rw [hu, if_pos rfl] at honce
    obtain ⟨stint, hm, hsettles⟩ := List.countP_pos_iff.1 (honce ▸ Nat.one_pos)
    obtain ⟨j, hj⟩ := List.getElem?_of_mem hm
    have honly : ∀ (k : Nat) (other : Stint), x.stints[k]? = some other →
        other.settles c = true → k = j := fun k other hk hother =>
      ha.eq_of_settles hk hj hother hsettles
    obtain ⟨thread, i, y, point, rfl, rfl⟩ := Stint.exists_of_settles hsettles
    obtain ⟨call', hc', rfl, hk⟩ := ha.call hm
    obtain rfl := Option.some.inj (hc'.symm.trans hc)
    have hn : x.client.noticesOf y.call
        = if point = .ended then y.outcome.elim [] (noticesAfter call') else [] := by
      split
      · rename_i hover
        subst hover
        exact ha.told hm hc
      · rename_i hover
        refine ha.silent y.call fun other hother => Bool.eq_false_iff.2 fun hsettled => ?_
        obtain ⟨k, hk⟩ := List.getElem?_of_mem hother
        obtain rfl := honly k other hk (Stint.settles_of_hasSettled hsettled)
        obtain rfl := Option.some.inj (hj.symm.trans hk)
        simp [Stint.hasSettled, hover] at hsettled
    obtain ⟨c, outcome⟩ := y
    cases outcome with
    | none =>
      refine .abandoned j thread point hj honly hu ?_
      rw [hn]
      exact ite_self []
    | some result =>
      refine .completed j thread result point hj honly hu (hk result rfl) ?_ ?_ hn
      · intro hp s hs
        have hlast := ha.last hm hp rfl
        rw [Client.flags_of_getElem? hs] at hlast
        exact hlast
      · rintro rfl s hs
        have hpos : 0 < standing x.stints call'.session .signalled := by
          refine Nat.pos_of_ne_zero fun hzero => ?_
          exact standing_eq_zero_iff.1 hzero _ hm ⟨rfl, rfl⟩
        exact h.careful.free_of_engaged (ha.parted _ hpos) hs

end Crowd

/-! ## Accepted operations -/

namespace Client

variable {w w' : Client Handler} {c : Nat} {call : Call Handler}

/-- The step by which the operation `v`, whose invocation is `k`, is accepted as the call `c`. -/
structure Accepts (w : Client Handler) (k : Nat) (v : Invocation Handler) (c : Nat)
    (w' : Client Handler) : Prop where
  invocation : w.invocations[k]? = some v
  claimed : v.phase = .claimed
  step : w.act? (.stepInvocation k) = some w'
  launching : w'.invocationPhase? k = some (.launching c)

/-- An accepted operation is a new call, on the session of the operation, and with its callback or
that of the frontend. -/
theorem Accepts.newCall {k : Nat} {v : Invocation Handler} (h : w.Accepts k v c w') :
    ∃ request policy, c = w.calls.length ∧ w'.journal = w.journal
      ∧ w'.calls
        = w.calls ++ [.start v.session request policy (v.callback.or w.frontend.callback)] := by
  have hstep : w.buildFor? k v = some w' := by
    rw [← stepInvocation?_of_claimed h.invocation h.claimed]
    exact h.step
  unfold buildFor? at hstep
  obtain ⟨s, -, hw⟩ := Option.map_eq_some_iff.1 hstep
  have hphase := h.launching
  split at hw
  · subst hw
    cases (invocationPhase?_setInvocation h.invocation _).symm.trans hphase
  · subst hw
    cases (invocationPhase?_setInvocation h.invocation _).symm.trans hphase
    exact ⟨_, s.policy, rfl, rfl, rfl⟩

/-- Nothing is left over when an operation is accepted: no stint begins. -/
theorem Accepts.begin?_eq_none {k : Nat} {v : Invocation Handler} (h : w.Accepts k v c w') :
    w.begin? (.stepInvocation k) = none := by
  have hphase : w.invocationPhase? k = some .claimed := by
    unfold invocationPhase?
    rw [h.invocation, Option.map_some, h.claimed]
  have hsettling : w.beginSettling? (.stepInvocation k) = none := by
    unfold beginSettling? brink? invocationToBrink?
    simp only [hphase, Option.map_none]
  have hoperation : w.beginOperation? k = none := by
    cases hb : w.beginOperation? k with
    | none => rfl
    | some begun =>
      obtain ⟨u, stint⟩ := begun
      obtain ⟨v', s, hv', hs, ⟨hp, -⟩ | ⟨-, -, e, config, hbuild, -⟩⟩ := beginOperation?_eq_some hb
      · obtain rfl := Option.some.inj (h.invocation.symm.trans hv')
        cases h.claimed.symm.trans hp
      · obtain rfl := Option.some.inj (h.invocation.symm.trans hv')
        -- An operation whose request cannot be built ends, and is not accepted.
        have hstep : w.buildFor? k v = some w' := by
          rw [← stepInvocation?_of_claimed h.invocation h.claimed]
          exact h.step
        unfold buildFor? at hstep
        rw [hs, Option.map_some, hbuild] at hstep
        obtain rfl := Option.some.inj hstep
        cases (invocationPhase?_setInvocation h.invocation _).symm.trans h.launching
  show (w.beginOperation? k).or _ = none
  rw [hoperation, hsettling]
  rfl

/-! ## Settled calls rest -/

/-- No thread sets out to settle a call that is settled. -/
theorem beginSettling?_of_settled {action : Action Handler} {thread : Thread} {u : Client Handler}
    {y : Settlement} (hb : w.brink? action = some (thread, u, y))
    (hc : u.calls[y.call]? = some call) (hu : call.settled = true) :
    w.beginSettling? action = none := by
  unfold beginSettling?
  rw [hb]
  dsimp only
  cases hs : u.callOn? y.call with
  | none => rfl
  | some held =>
    obtain ⟨call', s⟩ := held
    obtain ⟨hc', -⟩ := callOn?_eq_some_iff.1 hs
    obtain rfl := Option.some.inj (hc'.symm.trans hc)
    exact if_pos hu

/-- An operation that has its request settles a call, or begins nothing. -/
theorem begin?_of_invocationPhase? {k : Nat} {phase : InvocationPhase}
    (hp : w.invocationPhase? k = some phase) (hasked : phase ≠ .asked)
    (hclaimed : phase ≠ .claimed) :
    w.begin? (.stepInvocation k) = w.beginSettling? (.stepInvocation k) := by
  obtain ⟨v, hv, rfl⟩ := Option.map_eq_some_iff.1 hp
  show (w.beginOperation? k).or _ = _
  cases hb : w.beginOperation? k with
  | none => rfl
  | some begun =>
    obtain ⟨u, stint⟩ := begun
    obtain ⟨v', s, hv', -, ⟨hp', -⟩ | ⟨hp', -⟩⟩ := beginOperation?_eq_some hb
    · obtain rfl := Option.some.inj (hv.symm.trans hv')
      exact absurd hp' hasked
    · obtain rfl := Option.some.inj (hv.symm.trans hv')
      exact absurd hp' hclaimed

/-- An error that reached the driver of a call abandons the call, and goes on to what is around the
driver. -/
theorem stepInvocation?_of_failing {k : Nat} {e : Error}
    (hp : w.invocationPhase? k = some (.driving c (.failing e))) :
    w.stepInvocation? k = some ((w.abandonCall c).setInvocation k (.driving c (.failed e))) := by
  obtain ⟨v, hv, hp⟩ := Option.map_eq_some_iff.1 hp
  unfold stepInvocation?
  rw [hv]
  dsimp only
  rw [hp]
  rfl

/-- An error that leaves an operation abandons the call that the operation made. -/
theorem stepInvocation?_of_unwinding {k : Nat} {e : Error}
    (hp : w.invocationPhase? k = some (.unwinding c e)) :
    w.stepInvocation? k = some ((w.abandonCall c).setInvocation k (.ended (.error e))) := by
  obtain ⟨v, hv, hp⟩ := Option.map_eq_some_iff.1 hp
  unfold stepInvocation?
  rw [hv]
  dsimp only
  rw [hp]

/-- An error that reached the driver of a task abandons the call of the task. -/
theorem stepTask?_of_failing {t : Nat} {e : Error}
    (ht : w.tasks[t]? = some ⟨c, .running (.failing e)⟩) :
    w.stepTask? t = some ((w.abandonCall c).setTask t (.failed e)) := by
  unfold stepTask?
  rw [ht]
  rfl

end Client

namespace Crowd

variable {x y : Crowd Handler} {c : Nat} {call : Call Handler}

/-- An action with which no stint begins does what it does to the client. -/
theorem move?_of_begin?_eq_none {action : Action Handler} {w : Client Handler}
    (hfree : x.isEngaged action = false) (hb : x.client.begin? action = none)
    (ha : x.client.act? action = some w) : x.move? (.act action) = some ⟨w, x.stints⟩ := by
  unfold move?
  dsimp only
  rw [hfree, hb, ha]
  rfl

/-- Nothing is left that could be done to a call: it cannot be completed, abandoning it changes
nothing, no thread sets out to settle it or is about to mark it, and the steps by which the
operation that made it is unwound change nothing but how far the error is on its way. -/
structure Rests (x : Crowd Handler) (c : Nat) (call : Call Handler) : Prop where
  complete : ∀ result,
    x.client.completeCall c result = .error (.alreadyCompleted call.request.display)
  abandon : x.client.abandonCall c = x.client
  begins : ∀ {action : Action Handler} {w : Client Handler} {stint : Stint},
    x.client.begin? action = some (w, stint) → stint.looksAt c = false
  marks : ∀ stint ∈ x.stints, stint.looksAt c = false
  giveUp : ∀ e, x.client.giveUpCall c e
    = ({ x.client with work := .none } : Client Handler).print e.describe
  failing : ∀ k e, x.client.invocationPhase? k = some (.driving c (.failing e)) →
    x.isEngaged (.stepInvocation k) = false →
    x.move? (.act (.stepInvocation k))
      = some ⟨x.client.setInvocation k (.driving c (.failed e)), x.stints⟩
  unwinding : ∀ k e, x.client.invocationPhase? k = some (.unwinding c e) →
    x.isEngaged (.stepInvocation k) = false →
    x.move? (.act (.stepInvocation k))
      = some ⟨x.client.setInvocation k (.ended (.error e)), x.stints⟩
  task : ∀ t e, x.client.tasks[t]? = some ⟨c, .running (.failing e)⟩ →
    x.isEngaged (.stepTask t) = false →
    x.move? (.act (.stepTask t)) = some ⟨x.client.setTask t (.failed e), x.stints⟩

/-- No stint begins that looks at a settled call. -/
theorem looksAt_of_begin?_of_settled (hc : x.client.calls[c]? = some call)
    (hu : call.settled = true) {action : Action Handler} {w : Client Handler} {stint : Stint}
    (hb : x.client.begin? action = some (w, stint)) : stint.looksAt c = false := by
  refine Bool.eq_false_iff.2 fun hlooks => ?_
  obtain ⟨thread, i, y, rfl, rfl⟩ := Stint.looksAt_iff.1 hlooks
  have hbegins := Client.begins_of_begin? hb
  obtain ⟨call', hc', -, hsettled⟩ := calls_begun hbegins hc
  cases hbegins with
  | settle hc'' hu' hspares hk ha =>
    obtain ⟨hc'', -⟩ := Client.callOn?_eq_some_iff.1 hc''
    obtain rfl := Option.some.inj (hc'.symm.trans hc'')
    rw [hsettled, hu] at hu'
    cases hu'

/-- No stint is about to mark a settled call. -/
theorem IsSound.looksAt_of_settled (h : x.IsSound) (hc : x.client.calls[c]? = some call)
    (hu : call.settled = true) {stint : Stint} (hm : stint ∈ x.stints) :
    stint.looksAt c = false := by
  refine Bool.eq_false_iff.2 fun hlooks => ?_
  obtain ⟨thread, i, y, rfl, rfl⟩ := Stint.looksAt_iff.1 hlooks
  obtain ⟨call', hc', -, hu'⟩ := h.looked hm
  obtain rfl := Option.some.inj (hc.symm.trans hc')
  cases hu.symm.trans hu'

theorem IsSound.rests (h : x.IsSound) (hc : x.client.calls[c]? = some call)
    (hu : call.settled = true) : x.Rests c call := by
  obtain ⟨s, hs⟩ : ∃ s, x.client.sessions[call.session]? = some s :=
    ⟨_, List.getElem?_eq_getElem (h.regular.session call (List.mem_of_getElem? hc))⟩
  have habandon := Client.abandonCall_of_settled hc hu
  exact {
    complete := Client.completeCall_of_settled (Client.callOn?_eq_some_iff.2 ⟨hc, hs⟩) hu
    abandon := habandon
    begins := looksAt_of_begin?_of_settled hc hu
    marks := fun _ hm => h.looksAt_of_settled hc hu hm
    giveUp := fun e => Client.abandonCall_of_settled
      (w := ({ x.client with work := .none } : Client Handler).print e.describe) hc hu
    failing := by
      intro k e hp hfree
      refine move?_of_begin?_eq_none hfree ?_ ?_
      · rw [Client.begin?_of_invocationPhase? hp (by rintro ⟨⟩) (by rintro ⟨⟩)]
        exact Client.beginSettling?_of_settled (Client.brink?_stepInvocation
          (Client.invocationToBrink?_of_driving hp rfl)) hc hu
      · exact (Client.stepInvocation?_of_failing hp).trans (by rw [habandon])
    unwinding := by
      intro k e hp hfree
      refine move?_of_begin?_eq_none hfree ?_ ?_
      · rw [Client.begin?_of_invocationPhase? hp (by rintro ⟨⟩) (by rintro ⟨⟩)]
        exact Client.beginSettling?_of_settled
          (Client.brink?_stepInvocation (Client.invocationToBrink?_of_unwinding hp)) hc hu
      · exact (Client.stepInvocation?_of_unwinding hp).trans (by rw [habandon])
    task := by
      intro t e ht hfree
      refine move?_of_begin?_eq_none hfree ?_ ?_
      · exact Client.beginSettling?_of_settled (Client.brink?_stepTask
          (Client.taskToBrink?_of_running ht rfl)) hc hu
      · exact (Client.stepTask?_of_failing ht).trans (by rw [habandon]) }

/-! ## One settlement -/

variable {z : Crowd Handler}

theorem Moves.exists_call {move : Move Handler} (h : x.Moves move y)
    (hc : x.client.calls[c]? = some call) :
    ∃ call', y.client.calls[c]? = some call' ∧ call'.IsSameAs call := by
  cases h with
  | acted hfree hb ha => exact (Client.spares_act? ha hb).calls hc
  | begun hfree hb => exact (Client.retains_of_begins (Client.begins_of_begin? hb)).calls hc
  | gone hj hg => exact hg.exists_call hc

/-- A call is found again at the end of a run. -/
theorem exists_call_of_run {A : Crowd Handler → Move Handler → Prop}
    [∀ x move, Decidable (A x move)] {moves : List (Move Handler)}
    (hr : y.runWith? A moves = some z) (hc : y.client.calls[c]? = some call) :
    ∃ call', z.client.calls[c]? = some call' ∧ call'.IsSameAs call := by
  induction moves generalizing y call with
  | nil =>
    cases hr
    exact ⟨call, hc, .refl call⟩
  | cons move rest ih =>
    obtain ⟨x, hx, hr⟩ := Option.bind_eq_some_iff.1 (hr : (_ : Option _).bind _ = _)
    dsimp only at hx
    split at hx
    · obtain ⟨call', hc', same⟩ := (moves_of_move? hx).exists_call hc
      obtain ⟨call'', hc'', same'⟩ := ih hr hc'
      exact ⟨call'', hc'', same'.trans same⟩
    · cases hx

theorem Fate.congr {call' : Call Handler} (h : x.Fate c call') (same : call'.IsSameAs call) :
    x.Fate c call := by
  cases h with
  | unsettled hu hn h => exact .unsettled hu hn h
  | completed j thread result point hj honly hu hk hl hfree hn =>
    rw [same.session] at hj hl hfree
    rw [same.request] at hk
    rw [noticesAfter_congr same] at hn
    exact .completed j thread result point hj honly hu hk hl hfree hn
  | abandoned j thread point hj honly hu hn =>
    rw [same.session] at hj
    exact .abandoned j thread point hj honly hu hn

/-- **How the settlement of a call goes on.** Its next line can always be taken. If the call is
abandoned no line changes the last result of any session, and the line that notifies the callback of
a completed call tells it the result and writes to no session. -/
theorem Orderly.settlement_goes_on (h : x.Orderly) (hc : x.client.calls[c]? = some call) {j : Nat}
    {thread : Thread} {outcome : Option Result} {point : ReleasePoint}
    (hj : x.stints[j]? = some (.releasing thread call.session (some ⟨c, outcome⟩) point))
    (hp : point ≠ .ended) :
    ∃ y, x.move? (.go j) = some y ∧ y.Orderly
      ∧ (outcome = none → ∀ i, (y.client.flags i).last = (x.client.flags i).last)
      ∧ (point = .signalled → y.client.sessions = x.client.sessions
        ∧ y.client.noticesOf c = outcome.elim [] (noticesAfter call)) := by
  obtain ⟨w, point', hline⟩ : ∃ w point', x.client.line? (x.isLockFree call.session)
      (.releasing thread call.session (some ⟨c, outcome⟩) point)
        = some (w, .releasing thread call.session (some ⟨c, outcome⟩) point') := by
    cases point with
    | ended => exact absurd rfl hp
    | _ => exact ⟨_, _, rfl⟩
  have hmove : x.move? (.go j)
      = some ⟨w, x.stints.set j (.releasing thread call.session (some ⟨c, outcome⟩) point')⟩ := by
    unfold move?
    dsimp only
    rw [hj, Option.bind_some]
    show (x.client.line? (x.isLockFree call.session) _).map _ = _
    rw [hline]
    rfl
  have horderly : x.OrderlyMove (.go j) := by
    have hclaims : ∀ p, x.claimsAt p (.go j) = false := by
      intro p
      unfold claimsAt
      dsimp only
      rw [hj]
    exact ⟨⟨rfl, hclaims .dropped⟩, hclaims .signalled⟩
  have hg := Client.goes_of_line? hline
  refine ⟨_, hmove, h.move horderly hmove, ?_, ?_⟩
  · rintro rfl i
    rcases hg.last i with hlast | ⟨thread', settlement, heq, -, hwrites⟩
    · exact hlast
    · cases heq
      obtain ⟨s, hs⟩ : ∃ s, x.client.sessions[call.session]? = some s :=
        ⟨_, List.getElem?_eq_getElem (h.careful.isSound.session _ (List.mem_of_getElem? hj))⟩
      rw [hwrites s hs, Client.flags_of_getElem? hs]
      rfl
  · rintro rfl
    cases hg with
    | told =>
      refine ⟨(x.client.sessions_tell _).1, ?_⟩
      have hy : Orderly _ := h.move horderly hmove
      exact hy.isAccounted.told (List.mem_of_getElem? (List.getElem?_set_self
        (List.getElem?_eq_some_iff.1 hj).1))
        ((congrArg (·[c]?) (x.client.sessions_tell _).2.1).trans hc)

/-- **An accepted operation is completed or abandoned once, or not at all.** Whatever the threads of
an orderly crowd do after the operation was accepted, and in whatever order: one thread at most
settles its call. If it completes the call with a result, the callback is told of the result once,
at a moment at which the session is free and has the result as its last one; and otherwise nobody is
told anything, and the last result is not changed. As soon as the call is settled, nothing that is
still done to it changes anything, not even if its session is held by a newer call. -/
theorem Orderly.settles_once (hx : x.Orderly) {k : Nat} {v : Invocation Handler}
    (hm : x.move? (.act (.stepInvocation k)) = some y) (ha : x.client.Accepts k v c y.client)
    {moves : List (Move Handler)} (hr : y.runWith? OrderlyMove moves = some z) :
    ∃ call, y.client.calls[c]? = some call ∧ call.session = v.session
      ∧ call.callback = v.callback.or x.client.frontend.callback
      ∧ z.Fate c call
      ∧ (∀ {j : Nat} {thread : Thread} {outcome : Option Result} {point : ReleasePoint},
          z.stints[j]? = some (.releasing thread call.session (some ⟨c, outcome⟩) point) →
          point ≠ .ended → ∃ u, z.move? (.go j) = some u ∧ u.Orderly
            ∧ (outcome = none → ∀ i, (u.client.flags i).last = (z.client.flags i).last)
            ∧ (point = .signalled → u.client.sessions = z.client.sessions
              ∧ u.client.noticesOf c = outcome.elim [] (noticesAfter call)))
      ∧ (z.client.isSettled c = true →
          ∃ call', z.client.calls[c]? = some call' ∧ call'.IsSameAs call ∧ z.Rests c call')
      ∧ ∀ request, (Error.alreadyCompleted request).family = "RuntimeError" := by
  obtain ⟨request, policy, rfl, -, hcalls⟩ := ha.newCall
  have hbegin := ha.begin?_eq_none
  have horderly : x.OrderlyMove (.act (.stepInvocation k)) := by
    refine ⟨⟨?_, rfl⟩, rfl⟩
    unfold looksTwice
    dsimp only
    rw [hbegin]
  have hz : z.Orderly := (hx.move horderly hm).run hr
  have hc : y.client.calls[x.client.calls.length]?
      = some (.start v.session request policy (v.callback.or x.client.frontend.callback)) := by
    rw [hcalls]
    exact List.getElem?_concat_length
  obtain ⟨call', hc', same⟩ := exists_call_of_run hr hc
  refine ⟨_, hc, rfl, rfl, (hz.fate hc').congr same, ?_, ?_, fun _ => rfl⟩
  · intro j thread outcome point hj hp
    rw [← same.session] at hj
    rw [← noticesAfter_congr same]
    exact hz.settlement_goes_on hc' hj hp
  · intro hu
    rw [Client.isSettled_of_getElem? hc'] at hu
    exact ⟨call', hc', same, hz.careful.isSound.rests hc' hu⟩

/-- An operation with a callback has claimed its session. -/
def claimedByQuery : Crowd Unit :=
  (blockingCrowd.runWith? OrderlyMove
    [.act (.openSession ⟨.null, .null, .null, .null, false⟩ "u"),
      .act (.ask 0 .time .null (some ())), .act (.stepInvocation 0), .go 0, .go 0, .go 0]).getD
    blockingCrowd

/-- The operation was accepted. -/
def acceptedQuery : Crowd Unit :=
  (claimedByQuery.move? (.act (.stepInvocation 0))).getD claimedByQuery

/-- The rest of the operation once it was accepted: the callback starts another operation on the
session and then raises an error, which unwinds the first one. -/
def rudeCallback : List (Move Unit) :=
  [.act (.stepInvocation 0), .act (.stepInvocation 0),
    .act (.answerInvocation 0 (.ok (.reply 200 (utf8Bytes "[1]")))), .act (.stepInvocation 0),
    .go 1, .go 1, .go 1, .go 1, .go 1, .act (.ask 0 .time .null none), .act (.stepInvocation 1),
    .go 2, .go 2, .go 2, .act (.returnInvocation 0 (some (.callbackFailed "rude"))),
    .act (.stepInvocation 0), .act (.stepInvocation 0), .act (.stepInvocation 0)]

/-- The operation whose callback is rude is settled once, and its callback told once; and the
operation that the callback started still holds the session when the first one is unwound. -/
theorem settles_once_rudeCallback :
    ∃ (z : Crowd Unit) (v : Invocation Unit) (call : Call Unit), claimedByQuery.Orderly
      ∧ claimedByQuery.move? (.act (.stepInvocation 0)) = some acceptedQuery
      ∧ claimedByQuery.client.Accepts 0 v 0 acceptedQuery.client
      ∧ acceptedQuery.runWith? OrderlyMove rudeCallback = some z
      ∧ z.Fate 0 call ∧ z.client.noticesOf 0 = [((), ⟨.ok, none, .value (.int 1)⟩)]
      ∧ (∃ call', z.client.calls[0]? = some call' ∧ z.Rests 0 call')
      ∧ z.client.sessions.map (·.busy) = [true] := by
  have hx : blockingCrowd.runWith? OrderlyMove
      [.act (.openSession ⟨.null, .null, .null, .null, false⟩ "u"),
        .act (.ask 0 .time .null (some ())), .act (.stepInvocation 0), .go 0, .go 0, .go 0]
      = some claimedByQuery := rfl
  have horderly : claimedByQuery.Orderly := .run (.initial _ [] (Frontend.borrowing .blocking)) hx
  have hm : claimedByQuery.move? (.act (.stepInvocation 0)) = some acceptedQuery := rfl
  have ha : claimedByQuery.client.Accepts 0 _ 0 acceptedQuery.client := ⟨rfl, rfl, rfl, rfl⟩
  have hr : acceptedQuery.runWith? OrderlyMove rudeCallback = some _ := rfl
  obtain ⟨call, -, -, -, hfate, -, hrests, -⟩ := horderly.settles_once hm ha hr
  obtain ⟨call', hc', -, hrest⟩ := hrests rfl
  exact ⟨_, _, call, horderly, hm, ha, hr, hfate, rfl, ⟨call', hc', hrest⟩, rfl⟩

/-- An operation with a callback is completed, and the application asks for the next one when the
release has raised the signal and the callback is still to be notified. -/
def nextQuery : List (Move Unit) :=
  [.act (.openSession ⟨.null, .null, .null, .null, false⟩ "u"),
    .act (.ask 0 .time .null (some ())), .act (.stepInvocation 0), .go 0, .go 0, .go 0,
    .act (.stepInvocation 0), .act (.stepInvocation 0), .act .pollReactor, .act .stepReactor,
    .act .stepReactor, .act .stepReactor, .act .stepReactor, .act .stepReactor, .act .stepReactor,
    .act (.postAttempt 0 (.ok (.reply 200 (utf8Bytes "[1]")))), .act .stepReactor,
    .act .stepReactor, .go 1, .go 1, .go 1, .go 1, .act (.ask 0 .time .null none),
    .act (.stepInvocation 1), .go 2, .go 2, .go 2]

/-- **A callback can find its session busy** when it is notified that its operation was completed,
with another operation that builds its request. -/
theorem told_under_query :
    ∃ (x y : Crowd Unit) (s : Session) (call : Call Unit), Reached (fun _ _ => True) x
      ∧ x.client.calls[0]? = some call ∧ call.session = 0 ∧ x.client.sessions[0]? = some s
      ∧ s.busy = true ∧ x.client.noticesOf 0 = [] ∧ x.move? (.go 1) = some y
      ∧ (y.client.noticesOf 0).length = 1 ∧ (y.client.sessions[0]?).any Session.busy = true := by
  have hfacts : (reactorCrowd.runWith? (fun _ _ => True) nextQuery).any (fun x =>
      (x.client.calls[0]?).any (·.session == 0) && (x.client.sessions[0]?).any Session.busy
        && (x.client.noticesOf 0).isEmpty
        && (x.move? (.go 1)).any fun y => (y.client.noticesOf 0).length == 1
          && (y.client.sessions[0]?).any Session.busy) = true := by
    decide +kernel
  obtain ⟨x, hrun, hfacts⟩ := (Option.any_eq_true _ _).1 hfacts
  simp only [Option.any_eq_true, Bool.and_eq_true, beq_iff_eq, List.isEmpty_iff] at hfacts
  obtain ⟨⟨⟨⟨call, hcall, hsession⟩, s, hs, hbusy⟩, hnone⟩, y, hy, htold, hstill⟩ := hfacts
  exact ⟨x, y, s, call, .run (.initial _ [] (Frontend.borrowing .reactor)) hrun, hcall, hsession,
    hs, hbusy, hnone, hy, htold, (Option.any_eq_true _ _).2 hstill⟩

/-- The time of an attempt is over, and the reactor has seen that the call is not settled. Then it
is stopped, and the worker with the response sees the same. The reactor completes the call, the
application asks for the next operation, and the worker abandons the call that was completed. -/
def lateWorker : List (Move Unit) :=
  [.act (.openSession ⟨.null, .null, .null, .null, false⟩ "u"),
    .act (.changeSetting 0 (.policy (.int 0) (.bool false) .null .null)), .go 0,
    .act (.ask 0 .time (.int 1) none), .act (.stepInvocation 0), .go 1, .go 1, .go 1,
    .act (.stepInvocation 0), .act (.stepInvocation 0), .act .pollReactor, .act .stepReactor,
    .act .stepReactor, .act .stepReactor, .act .stepReactor, .act .stepReactor, .act .stepReactor,
    .act (.tick 2), .act .stepReactor, .act .stepReactor, .act .stepReactor, .act .stopReactor,
    .act (.postAttempt 0 (.ok (.reply 200 (utf8Bytes "[1]")))), .go 2, .go 2, .go 2, .go 2, .go 2,
    .act (.ask 0 .time .null none), .act (.stepInvocation 1), .go 4, .go 4, .go 4,
    .act (.stepInvocation 1), .go 3, .go 3, .go 3, .go 3, .go 3]

/-- **A call can be settled by two threads**, and the second one releases the session under the call
of another operation, which is not settled. -/
theorem settled_by_two :
    ∃ (x : Crowd Unit) (s : Session) (call : Call Unit), Reached (fun _ _ => True) x
      ∧ x.stints.countP (·.hasSettled 0) = 2 ∧ x.client.calls[1]? = some call
      ∧ call.session = 0 ∧ call.settled = false
      ∧ x.client.sessions[0]? = some s ∧ s.busy = false := by
  have hfacts : (reactorCrowd.runWith? (fun _ _ => True) lateWorker).any (fun x =>
      x.stints.countP (·.hasSettled 0) == 2
        && (x.client.calls[1]?).any (fun call => call.session == 0 && !call.settled)
        && (x.client.sessions[0]?).any (fun s => !s.busy)) = true := by
    decide +kernel
  obtain ⟨x, hrun, hfacts⟩ := (Option.any_eq_true _ _).1 hfacts
  simp only [Option.any_eq_true, Bool.and_eq_true, beq_iff_eq, Bool.not_eq_true'] at hfacts
  obtain ⟨⟨htwice, call, hcall, hsession, hu⟩, s, hs, hfree⟩ := hfacts
  exact ⟨x, s, call, .run (.initial _ [] (Frontend.borrowing .reactor)) hrun, htwice, hcall,
    hsession, hu, hs, hfree⟩

end Crowd

end Pubsub
