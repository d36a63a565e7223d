import Pubsub.Proofs.Contention

/-!
# Closing a session under operations

Whoever closes a session waits for the signal that no operation holds it. A wait that is over stays
over: from when it was woken until it marks the session as closed, the closing does not look at the
session again, and it takes no lock. So an operation can claim the session in between, and then the
closing marks a session under an operation in progress. The documented use invites this: the signal
goes up just before the callback of an operation runs, and the callback may start the next operation
at once (`Crowd.closed_under_query`).

There are other ways to the same end. An operation looks whether the session is closed before it
takes the lock, and does not look again; and a closing can be woken by a signal that is still up
because a claim has only raised the flag so far. `Crowd.contests` says of a move that it is one of
these three. Besides, threads may not be careful, so that the signal is up while the session is held
(`Crowd.idle_under_query`).

If nothing of this happens a closed session is free: nobody has to do with it, and none of its calls
is left unsettled. What carries this through every interleaving is that nobody comes to the session
any more from the moment at which its closing was woken.
-/

namespace Pubsub

variable {Handler : Type}

namespace Ledger

variable {P : Outcome → Prop} {l l' : Ledger Handler} {i : Nat} {s : Session}

/-- A closed session is closed after an entry. -/
theorem Entry.exists_closed (he : Entry P l l') (hs : l.sessions[i]? = some s)
    (hc : s.closed = true) : ∃ s', l'.sessions[i]? = some s' ∧ s'.closed = true := by
  have hset : ∀ {j : Nat} {old t : Session}, l.sessions[j]? = some old →
      (old.closed = true → t.closed = true) →
      ∃ s', (l.sessions.set j t)[i]? = some s' ∧ s'.closed = true := by
    intro j old t hj hkeep
    by_cases hji : j = i
    · subst hji
      obtain rfl := Option.some.inj (hj.symm.trans hs)
      exact ⟨t, List.getElem?_set_self (List.getElem?_eq_some_iff.1 hs).1, hkeep hc⟩
    · exact ⟨s, (List.getElem?_set_ne hji).trans hs, hc⟩
  cases he with
  | blank => exact ⟨s, hs, hc⟩
  | opened hn =>
    have hlt := (List.getElem?_eq_some_iff.1 hs).1
    exact ⟨s, (List.getElem?_append_left hlt).trans hs, hc⟩
  | changed hj change ht =>
    obtain ⟨-, ht⟩ := Session.set_eq_ok ht
    exact hset hj fun hold => by rw [ht]; exact hold
  | cleared hj cursor _ => exact hset hj id
  | closed hj => exact hset hj fun _ => rfl
  | claimed hj ht =>
    obtain ⟨-, -, rfl⟩ := (Session.claim_eq_ok_iff _ _).1 ht
    exact hset hj id
  | unbuilt hj hb => exact hset hj id
  | accepted hj hb request callback => exact ⟨s, hs, hc⟩
  | resumed now fed hd hP hr => exact hset (callOn?_eq_some_iff.1 hd).2 id
  | ended now fed hd hu hP hr ho =>
    rw [settle_setCall]
    exact hset (callOn?_eq_some_iff.1 hd).2 id
  | abandoned hd hu => exact hset (callOn?_eq_some_iff.1 hd).2 id

end Ledger

/-- Is the wait over, and the session not marked yet? -/
def ClosingPhase.isWoken : ClosingPhase → Bool
  | woken => true
  | _ => false

/-- Does the closing wait for the signal? -/
def ClosingPhase.isWaiting : ClosingPhase → Bool
  | waiting => true
  | _ => false

namespace Client

variable {w w' u : Client Handler} {action : Action Handler} {i k : Nat} {s : Session}
  {closing : Closing} {stint stint' : Stint}

/-- Is there a session of this number, and is it closed? -/
def isClosed (w : Client Handler) (i : Nat) : Bool := (w.sessions[i]?).any (·.closed)

theorem isClosed_of_getElem? (hs : w.sessions[i]? = some s) : w.isClosed i = s.closed := by
  unfold isClosed
  rw [hs]
  rfl

theorem isClosed_iff : w.isClosed i = true ↔ ∃ s, w.sessions[i]? = some s ∧ s.closed = true :=
  Option.any_eq_true _ _

/-- **A closed session stays closed.** -/
theorem isClosed_act? (ha : w.act? action = some w') (hi : w.isClosed i = true) :
    w'.isClosed i = true := by
  obtain ⟨s, hs, hc⟩ := isClosed_iff.1 hi
  exact isClosed_iff.2 ((entry_act? w.feeds_true ha).exists_closed (l := w.ledger) hs hc)

/-- What is written to a session is no matter for whether it is closed, unless that is written. -/
theorem isClosed_touch {f : Session → Session} (hf : ∀ s, (f s).closed = s.closed)
    (w : Client Handler) (j i : Nat) : (w.touch j f).isClosed i = w.isClosed i := by
  unfold isClosed touch
  rw [List.getElem?_modify]
  cases w.sessions[i]? with
  | none => rfl
  | some s =>
    show (if j = i then f s else s).closed = s.closed
    split
    · exact hf s
    · rfl

theorem isClosed_tell (w : Client Handler) (y : Settlement) (i : Nat) :
    (w.tell y).isClosed i = w.isClosed i := by
  unfold isClosed
  rw [(w.sessions_tell y).1]

theorem isClosed_release (w : Client Handler) (j : Nat) (settlement : Option Settlement) (i : Nat) :
    (w.release j settlement).isClosed i = w.isClosed i := by
  have hwritten : ∀ u : Client Handler,
      (((u.touch j (·.recordResult (settlement.bind (·.outcome)))).touch j Session.dropBusy).touch
        j Session.setIdle).isClosed i = u.isClosed i := by
    intro u
    have hrecord := isClosed_touch (f := (·.recordResult (settlement.bind (·.outcome))))
      (fun s => rfl) u j i
    have hdrop : ∀ v : Client Handler, (v.touch j Session.dropBusy).isClosed i = v.isClosed i :=
      fun v => isClosed_touch (f := Session.dropBusy) (fun s => rfl) v j i
    have hset : ∀ v : Client Handler, (v.touch j Session.setIdle).isClosed i = v.isClosed i :=
      fun v => isClosed_touch (f := Session.setIdle) (fun s => rfl) v j i
    rw [hset, hdrop, hrecord]
  cases settlement with
  | none => exact hwritten w
  | some y => exact (isClosed_tell _ y i).trans (hwritten (w.markSettled y.call))

theorem closings_release (w : Client Handler) (j : Nat) (settlement : Option Settlement) :
    (w.release j settlement).closings = w.closings := by
  rw [release_congr (u := w) (w := w) rfl rfl rfl j settlement]

theorem Goes.isClosed {lockIsFree : Bool} (h : w.Goes lockIsFree stint w' stint') (i : Nat) :
    w'.isClosed i = w.isClosed i := by
  cases h with
  | refused => rfl
  | locked => rfl
  | raised => exact isClosed_touch (f := Session.raiseBusy) (fun s => rfl) w _ i
  | claimed => exact isClosed_touch (f := Session.clearIdle) (fun s => rfl) w _ i
  | written =>
    refine isClosed_touch (fun s => ?_) _ _ _
    rw [s.snd_write]
  | @marked thread j settlement => cases settlement <;> rfl
  | recorded => exact isClosed_touch (f := (·.recordResult _)) (fun s => rfl) w _ i
  | dropped => exact isClosed_touch (f := Session.dropBusy) (fun s => rfl) w _ i
  | signalled => exact isClosed_touch (f := Session.setIdle) (fun s => rfl) w _ i
  | @told thread j settlement =>
    cases settlement with
    | none => rfl
    | some y => exact isClosed_tell w y i

theorem Goes.closings {lockIsFree : Bool} (h : w.Goes lockIsFree stint w' stint') :
    w'.closings = w.closings := by
  cases h with
  | @marked thread j settlement => cases settlement <;> rfl
  | @told thread j settlement =>
    cases settlement with
    | none => rfl
    | some y =>
      obtain ⟨c, _ | result⟩ := y
      · rfl
      · show (w.tell ⟨c, some result⟩).closings = w.closings
        unfold tell
        dsimp only
        split <;> rfl
  | _ => rfl

/-- No stint begins with an action of a closing. -/
theorem isClosing_of_begin? (h : w.begin? action = some (u, stint)) : action.isClosing = false := by
  cases action with
  | beginClose => cases h
  | stepClosing => cases h
  | giveUpClosing => cases h
  | _ => rfl

/-- When a stint begins, closings are as they were, and so is what is closed. -/
theorem closings_of_begin? (h : w.begin? action = some (u, stint)) :
    u.closings = w.closings ∧ ∀ i, u.isClosed i = w.isClosed i := by
  have hnot := isClosing_of_begin? h
  have hreleased : ∀ {j : Nat} {settlement : Option Settlement},
      w.act? action = some (u.release j settlement) →
      u.closings = w.closings ∧ ∀ i, u.isClosed i = w.isClosed i := by
    intro j settlement ha
    have hframe := frame_act? ha
    refine ⟨?_, ?_⟩
    · rw [← closings_release u j settlement]
      exact hframe.closings.resolve_left (Bool.eq_false_iff.1 hnot)
    · intro i
      rw [← isClosed_release u j settlement i]
      refine Bool.eq_iff_iff.2 ⟨fun hi => ?_, isClosed_act? ha⟩
      obtain ⟨s, hs, hc⟩ := isClosed_iff.1 hi
      rcases hframe.closed hs hc with hclosed | hmarks
      · exact isClosed_iff.2 hclosed
      · cases hmarks with
        | intro => cases hnot
  cases begins_of_begin? h with
  | claim => exact ⟨rfl, fun i => rfl⟩
  | change => exact ⟨rfl, fun i => rfl⟩
  | unbuilt hv hp hs hsessions hl ha => exact hreleased ha
  | settle hc hu hspares hk ha => exact hreleased ha

/-! ## What becomes of closings -/

/-- What a closing can be after an action: what it was, or woken because the signal was up when it
waited, or done with marking its session, or in a phase in which it has still to look at the session
or will not any more. -/
inductive Wakes (w : Client Handler) (action : Action Handler) (w' : Client Handler)
    (closing : Closing) : Prop where
  | kept (hm : closing ∈ w.closings)
  | woken {k : Nat} {old : Closing} {s : Session} (ha : action = .stepClosing k)
      (hk : w.closings[k]? = some old) (hsession : old.session = closing.session)
      (hold : old.phase = .waiting) (hs : w.sessions[closing.session]? = some s)
      (hi : s.idle = true) (hp : closing.phase = .woken)
  | marked {s : Session} (hs : w'.sessions[closing.session]? = some s) (hc : s.closed = true)
      (hp : closing.phase = .marked)
  | other (hp : closing.phase ≠ .woken) (hp' : closing.phase ≠ .marked)

theorem wakes_giveUpClosing? {k : Nat} (ha : w.giveUpClosing? k = some w')
    (hm : closing ∈ w'.closings) : w.Wakes (.giveUpClosing k) w' closing := by
  unfold giveUpClosing? at ha
  obtain ⟨old, hk, ha⟩ := Option.bind_eq_some_iff.1 ha
  obtain ⟨s, -, ha⟩ := Option.bind_eq_some_iff.1 ha
  split at ha
  · split at ha <;> cases ha
    rcases mem_closings_setClosing hk hm with hm | rfl
    · exact .kept hm
    · exact .other (by rintro ⟨⟩) (by rintro ⟨⟩)
  · cases ha

/-- A closing that is put into a phase in which it neither is woken nor has closed its session, and
by which the others stay. -/
theorem Wakes.of_setClosing {k : Nat} {old : Closing} {u : Client Handler} {phase : ClosingPhase}
    (hk : w.closings[k]? = some old) (hsame : u.closings = w.closings) (hwoken : phase ≠ .woken)
    (hmarked : phase ≠ .marked) (hm : closing ∈ (u.setClosing k phase).closings) :
    w.Wakes action w' closing := by
  rcases mem_closings_setClosing (hsame ▸ hk) hm with hm | rfl
  · exact .kept (hsame ▸ hm)
  · exact .other hwoken hmarked

theorem wakes_stepClosing? {k : Nat} (ha : w.stepClosing? k = some w')
    (hm : closing ∈ w'.closings) : w.Wakes (.stepClosing k) w' closing := by
  unfold stepClosing? at ha
  obtain ⟨old, hk, ha⟩ := Option.bind_eq_some_iff.1 ha
  obtain ⟨s, hs, ha⟩ := Option.bind_eq_some_iff.1 ha
  split at ha
  · split at ha
    · cases ha
      exact .of_setClosing hk rfl (by rintro ⟨⟩) (by rintro ⟨⟩) hm
    · split at ha <;> cases ha <;> exact .of_setClosing hk rfl (by rintro ⟨⟩) (by rintro ⟨⟩) hm
  · rename_i hwaiting
    split at ha
    · rename_i hidle
      cases ha
      rcases mem_closings_setClosing hk hm with hm | rfl
      · exact .kept hm
      · exact .woken rfl hk rfl hwaiting hs hidle rfl
    · cases ha
  · cases ha
    rcases mem_closings_setClosing
      (w := w.setSession old.session { s with closed := true }) hk hm with hm | rfl
    · exact .kept hm
    · exact .marked (List.getElem?_set_self (List.getElem?_eq_some_iff.1 hs).1) rfl rfl
  · cases ha
    have hclosings : w.closeFrontend.closings = w.closings := by
      unfold closeFrontend
      dsimp only
      split <;> rfl
    refine .of_setClosing hk ?_ (by rintro ⟨⟩) (by rintro ⟨⟩) hm
    split
    · exact hclosings
    · rfl
  · cases ha

theorem wakes_act? (ha : w.act? action = some w') (hm : closing ∈ w'.closings) :
    w.Wakes action w' closing := by
  rcases (frame_act? ha).closings with hclosing | hsame
  · cases action with
    | beginClose session timeout =>
      cases ha
      rcases List.mem_append.1 hm with hm | hm
      · exact .kept hm
      · rw [List.mem_singleton.1 hm]
        exact .other (by rintro ⟨⟩) (by rintro ⟨⟩)
    | giveUpClosing k => exact wakes_giveUpClosing? ha hm
    | stepClosing k => exact wakes_stepClosing? ha hm
    | _ => cases hclosing
  · exact .kept (hsame ▸ hm)

end Client

namespace Crowd

variable {x y : Crowd Handler} {move : Move Handler} {w : Client Handler} {stint stint' : Stint}
  {i j : Nat} {s : Session}

/-! ## Contested sessions -/

/-- By the move, does an operation take the lock of a session that is closed, or a closing of which
is woken? Or is a closing woken while a thread holds the lock? -/
def contests (x : Crowd Handler) : Move Handler → Bool
  | .go j =>
    match x.stints[j]? with
    | some (.claiming _ i .opened) =>
      x.client.isClosed i
        || x.client.closings.any fun closing => closing.session == i && closing.phase.isWoken
    | _ => false
  | .act (.stepClosing k) =>
    (x.client.closings[k]?).any fun closing =>
      closing.phase.isWaiting && !x.isLockFree closing.session
  | .act _ => false

/-- The move is careful and contests no session. -/
abbrev UncontestedMove (x : Crowd Handler) (move : Move Handler) : Prop :=
  x.CarefulMove move ∧ x.contests move = false

/-- The crowds that such moves lead to. -/
abbrev Uncontested : Crowd Handler → Prop := Reached UncontestedMove

theorem Uncontested.careful (h : x.Uncontested) : x.Careful := h.mono fun _ _ hA => hA.1

/-- A line that contests no session takes no lock of one that is closed or about to be. -/
theorem locked_of_contests (hj : x.stints[j]? = some stint)
    (hg : x.client.Goes (x.isLockFree stint.session) stint w stint')
    (hn : x.contests (.go j) = false)
    (hi : x.client.isClosed i = true
      ∨ ∃ closing ∈ x.client.closings, closing.session = i ∧ closing.phase = .woken) :
    (census ⟨w, x.stints.set j stint'⟩ i).locked ≤ (x.census i).locked := by
  refine Nat.le_of_lt_succ (Nat.lt_of_le_of_ne (locked_gone_le hj w stint' i) fun hl => ?_)
  obtain ⟨k, hopened⟩ := opened_of_locks hj hg hl
  unfold contests at hn
  dsimp only at hn
  rw [hopened] at hn
  obtain ⟨hclosed, hnone⟩ := Bool.or_eq_false_iff.1 hn
  rcases hi with hi | ⟨closing, hm, hsession, hp⟩
  · rw [hi] at hclosed
    cases hclosed
  · refine (List.any_eq_false.1 hnone) closing hm ?_
    rw [hsession, hp, beq_self_eq_true]
    rfl

/-- A closing is woken when nobody has to do with the session. -/
theorem engaged_of_woken (h : x.IsSound) {k : Nat} {closing : Closing}
    (hn : x.contests (.act (.stepClosing k)) = false) (hk : x.client.closings[k]? = some closing)
    (hp : closing.phase = .waiting) (hs : x.client.sessions[closing.session]? = some s)
    (hidle : s.idle = true) : (x.census closing.session).engaged = 0 := by
  have hlock : x.isLockFree closing.session = true := by
    unfold contests at hn
    dsimp only at hn
    rw [hk, Option.any_some, hp] at hn
    simpa [ClosingPhase.isWaiting] using hn
  obtain ⟨hlocked, hraised⟩ := standing_of_isLockFree hlock
  have hsignal := (h.tally closing.session).idle
  have hflag : (x.census closing.session).flags.idle = s.idle := Client.idle_flags hs
  rw [hflag, hidle, if_pos rfl] at hsignal
  have hlocked' : (x.census closing.session).locked = 0 := hlocked
  have hraised' : (x.census closing.session).raised = 0 := hraised
  unfold Census.engaged
  omega

/-! ## Closed sessions are free -/

/-- Nobody has to do with a session that a closing is about to mark, or has marked, or that was
closed otherwise. -/
structure IsUnhurried (x : Crowd Handler) : Prop where
  woken : ∀ {closing : Closing}, closing ∈ x.client.closings → closing.phase = .woken →
    (x.census closing.session).engaged = 0
  marked : ∀ {closing : Closing}, closing ∈ x.client.closings → closing.phase = .marked →
    x.client.isClosed closing.session = true
  closed : ∀ i, x.client.isClosed i = true → (x.census i).engaged = 0

namespace IsUnhurried

theorem acted (h : x.IsUnhurried) (hx : x.IsSound) {action : Action Handler}
    (hn : x.contests (.act action) = false) (hb : x.client.begin? action = none)
    (ha : x.client.act? action = some w) : IsUnhurried ⟨w, x.stints⟩ := by
  have hcensus := census_of_spares (x := x) (Client.spares_act? ha hb)
  refine ⟨?_, ?_, ?_⟩
  · intro closing hm hp
    rw [hcensus]
    cases Client.wakes_act? ha hm with
    | kept hm => exact h.woken hm hp
    | woken haction hk hsession hold hs hidle =>
      subst haction
      rw [← hsession] at hs ⊢
      exact engaged_of_woken hx hn hk hold hs hidle
    | marked hs hc hp' => cases hp.symm.trans hp'
    | other hp' _ => exact absurd hp hp'
  · intro closing hm hp
    cases Client.wakes_act? ha hm with
    | kept hm => exact Client.isClosed_act? ha (h.marked hm hp)
    | woken _ _ _ _ _ _ hp' => cases hp.symm.trans hp'
    | marked hs hc _ => exact Client.isClosed_iff.2 ⟨_, hs, hc⟩
    | other _ hp' => exact absurd hp hp'
  · intro i hi
    rw [hcensus]
    obtain ⟨s', hs', hc⟩ := Client.isClosed_iff.1 hi
    rcases (Client.frame_act? ha).closed hs' hc with hclosed | hmarks
    · exact h.closed i (Client.isClosed_iff.2 hclosed)
    · cases hmarks with
      | intro hk hp => exact h.woken (List.mem_of_getElem? hk) hp

theorem begun (h : x.IsUnhurried) {action : Action Handler}
    (hb : x.client.begin? action = some (w, stint)) :
    IsUnhurried ⟨w, x.stints ++ [stint]⟩ := by
  obtain ⟨hclosings, hclosed⟩ := Client.closings_of_begin? hb
  have hbegins := Client.begins_of_begin? hb
  have hengaged : ∀ i, (x.census i).engaged = 0 →
      (census ⟨w, x.stints ++ [stint]⟩ i).engaged = 0 := by
    intro i hzero
    have hshifts := (shifts_begun hbegins i).engaged
    rw [locked_begun hbegins i] at hshifts
    omega
  refine ⟨?_, ?_, fun i hi => hengaged i (h.closed i ((hclosed i).symm.trans hi))⟩
  · intro closing hm hp
    exact hengaged _ (h.woken (hclosings ▸ hm) hp)
  · intro closing hm hp
    exact (hclosed closing.session).trans (h.marked (hclosings ▸ hm) hp)

theorem gone (h : x.IsUnhurried) (hx : x.IsSound) (hj : x.stints[j]? = some stint)
    (hg : x.client.Goes (x.isLockFree stint.session) stint w stint')
    (hn : x.contests (.go j) = false) : IsUnhurried ⟨w, x.stints.set j stint'⟩ := by
  have hengaged : ∀ i, (x.census i).engaged = 0 →
      (census ⟨w, x.stints.set j stint'⟩ i).locked ≤ (x.census i).locked →
      (census ⟨w, x.stints.set j stint'⟩ i).engaged = 0 := by
    intro i hzero hle
    have hshifts := (shifts_gone hx hj hg i).engaged
    omega
  refine ⟨?_, ?_, ?_⟩
  · intro closing hm hp
    have hm : closing ∈ x.client.closings := hg.closings ▸ hm
    exact hengaged _ (h.woken hm hp)
      (locked_of_contests hj hg hn (.inr ⟨closing, hm, rfl, hp⟩))
  · intro closing hm hp
    show w.isClosed closing.session = true
    rw [hg.isClosed]
    exact h.marked (hg.closings ▸ hm) hp
  · intro i hi
    have hi : x.client.isClosed i = true := (hg.isClosed i).symm.trans hi
    exact hengaged i (h.closed i hi) (locked_of_contests hj hg hn (.inl hi))

end IsUnhurried

theorem Uncontested.isUnhurried (h : x.Uncontested) : x.IsUnhurried := by
  induction h with
  | initial config fresh frontend =>
    refine ⟨?_, ?_, ?_⟩
    · rintro closing ⟨⟩
    · rintro closing ⟨⟩
    · rintro i ⟨⟩
  | move hx hA hm ih =>
    have hsound := Careful.isSound (Uncontested.careful hx)
    cases moves_of_move? hm with
    | acted hfree hb ha => exact ih.acted hsound hA.2 hb ha
    | begun hfree hb => exact ih.begun hb
    | gone hj hg => exact ih.gone hsound hj hg hA.2

/-- **A closed session is free**, whatever the threads do and in whatever order, as long as they are
careful and contest no session. Then nobody has to do with a session when it is closed: it is not
busy, no operation builds its request, no thread is about to claim or to release it, and none of its
calls is left unsettled. The same is true when a closing is about to mark it, and when a closing
that has marked it is about to close the frontend. -/
theorem Uncontested.closed_is_free (h : x.Uncontested) (hs : x.client.sessions[i]? = some s)
    (hc : s.closed = true ∨ ∃ closing ∈ x.client.closings, closing.session = i
      ∧ (closing.phase = .woken ∨ closing.phase = .marked)) :
    s.busy = false ∧ s.idle = true ∧ x.client.claims i = 0
    ∧ (∀ p, p ≠ .signalled → standing x.stints i p = 0)
    ∧ ∀ (c : Nat) (call : Call Handler), x.client.calls[c]? = some call → call.session = i →
        call.settled = true := by
  have hu := h.isUnhurried
  have hzero : (x.census i).engaged = 0 := by
    rcases hc with hc | ⟨closing, hm, rfl, hp | hp⟩
    · exact hu.closed i ((Client.isClosed_of_getElem? hs).trans hc)
    · exact hu.woken hm hp
    · exact hu.closed _ (hu.marked hm hp)
  obtain ⟨hbusy, hidle⟩ := h.careful.free_of_engaged hzero hs
  have hengaged : x.client.claims i + standing x.stints i .locked + standing x.stints i .raised
      + standing x.stints i .held + standing x.stints i .dropped = 0 := hzero
  have hclaims : x.client.claims i = 0 := by omega
  refine ⟨hbusy, hidle, hclaims, ?_, ?_⟩
  · intro p hp
    cases p with
    | signalled => exact absurd rfl hp
    | _ => omega
  · rintro c call hcall rfl
    by_contra hunsettled
    have hpos := Ledger.unsettled_pos (l := x.client.ledger) hcall
      (Bool.eq_false_iff.2 hunsettled)
    have hle : x.client.ledger.unsettled call.session ≤ x.client.claims call.session :=
      Nat.le_add_left _ _
    omega

/-- An application that has its own connections, before it does anything. -/
def owningConnections : Crowd Unit :=
  ofClient (.initial (Configuration.initial ⟨[]⟩ none) []
    { Frontend.borrowing .blocking with userAgent := some "client" })

/-- A session is closed while an operation on it is in progress: the closing waits, and goes on when
the operation is completed. -/
def patientClosing : List (Move Unit) :=
  [.act (.openSession ⟨.null, .null, .null, .null, true⟩ "u"), .act (.ask 0 .time .null none),
    .act (.stepInvocation 0), .go 0, .go 0, .go 0, .act (.stepInvocation 0),
    .act (.stepInvocation 0), .act (.stepInvocation 0), .act (.beginClose 0 none),
    .act (.stepClosing 0), .act (.answerInvocation 0 (.ok (.reply 200 (utf8Bytes "[1]")))),
    .act (.stepInvocation 0), .go 1, .go 1, .go 1, .go 1, .go 1, .act (.stepClosing 0),
    .act (.stepClosing 0), .act (.stepClosing 0)]

/-- A closing that waits until the operation is completed leaves a closed session that is free. -/
theorem closed_is_free_patientClosing :
    ∃ (x : Crowd Unit) (s : Session),
      owningConnections.runWith? UncontestedMove patientClosing = some x ∧ x.Uncontested
      ∧ x.client.sessions[0]? = some s ∧ s.closed = true ∧ s.busy = false
      ∧ x.client.claims 0 = 0 := by
  have hclosed : (owningConnections.runWith? UncontestedMove patientClosing).any (fun x =>
      (x.client.sessions[0]?).any Session.closed) = true := by
    decide +kernel
  obtain ⟨x, hrun, hclosed⟩ := (Option.any_eq_true _ _).1 hclosed
  obtain ⟨s, hs, hc⟩ := (Option.any_eq_true _ _).1 hclosed
  have hx : Uncontested x := .run (.initial _ [] _) hrun
  obtain ⟨hfree, -, hclaims, -⟩ := hx.closed_is_free hs (Or.inl hc)
  exact ⟨x, s, hrun, hx, hs, hc, hfree, hclaims⟩

/-- A closing waits for an operation. When the session is released, the closing is woken, and the
callback of the operation asks for the next one, which claims the session and sends its request;
then the closing goes on. -/
def hastyClosing : List (Move Unit) :=
  [.act (.openSession ⟨.null, .null, .null, .null, true⟩ "u"),
    .act (.ask 0 .time .null (some ())), .act (.stepInvocation 0), .go 0, .go 0, .go 0,
    .act (.stepInvocation 0), .act (.stepInvocation 0), .act (.stepInvocation 0),
    .act (.beginClose 0 none), .act (.stepClosing 0),
    .act (.answerInvocation 0 (.ok (.reply 200 (utf8Bytes "[1]")))), .act (.stepInvocation 0),
    .go 1, .go 1, .go 1, .go 1, .go 1, .act (.stepClosing 0), .act (.ask 0 .time .null none),
    .act (.stepInvocation 1), .go 2, .go 2, .go 2, .act (.stepInvocation 1),
    .act (.stepInvocation 1), .act (.stepInvocation 1), .act (.stepClosing 0),
    .act (.stepClosing 0)]

/-- **A session can be closed under an operation**, though all threads are orderly: the session is
closed and its connections too, while a request of its second call is in flight; the call is not
settled, and the session is busy. -/
theorem closed_under_query :
    ∃ (x : Crowd Unit) (s : Session) (call : Call Unit), x.Orderly ∧ x.IsQuiet
      ∧ x.client.sessions[0]? = some s ∧ s.closed = true ∧ s.busy = true
      ∧ x.client.calls[1]? = some call ∧ call.session = 0 ∧ call.settled = false
      ∧ x.client.frontend.connectionsClosed = true := by
  have hfacts : (owningConnections.runWith? OrderlyMove hastyClosing).any (fun x =>
      x.stints.all Stint.isOver && (x.client.sessions[0]?).any (fun s => s.closed && s.busy)
        && (x.client.calls[1]?).any (fun call => call.session == 0 && !call.settled)
        && x.client.frontend.connectionsClosed) = true := by
    decide +kernel
  obtain ⟨x, hrun, hfacts⟩ := (Option.any_eq_true _ _).1 hfacts
  simp only [Option.any_eq_true, Bool.and_eq_true, beq_iff_eq, Bool.not_eq_true',
    List.all_eq_true] at hfacts
  obtain ⟨⟨⟨hquiet, s, hs, hclosed, hbusy⟩, call, hcall, hsession, hu⟩, hconnections⟩ := hfacts
  exact ⟨x, s, call, .run (.initial _ [] _) hrun, hquiet, hs, hclosed, hbusy, hcall, hsession, hu,
    hconnections⟩

end Crowd

end Pubsub
