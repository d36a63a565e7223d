import Pubsub.Proofs.Frames
import Pubsub.Proofs.Stints

/-!
# Who holds a session

The flag and the signal of a session are written by whoever claims or releases it, line by line and
on whatever thread. What keeps the lines apart is not the lock, which releases do not take, but that
there is one **holder** of a session at most: an operation that builds its request, a call that is
not settled, or a thread that stands between two of the lines. The **tally** of a session counts all
of these. There is one, at the place that says what flag and signal are, or there is none; and each
line moves it on to the next place (`Tally`).

This needs that two threads are careful: one that is about to settle a call that another is about to
settle, and one that claims a session whose flag is down while its signal is not yet up. `Careful`
are the crowds that moves lead to none of which does either, and these are sound
(`Careful.isSound`).
-/

namespace Pubsub

variable {Handler : Type}

/-! ## Where threads stand -/

/-- The places at which a thread has something to do with the flag or the signal of a session. -/
inductive Place where
  /-- It holds the lock, and will raise the flag. -/
  | locked
  /-- It raised the flag, and will lower the signal. -/
  | raised
  /-- It will drop the flag. -/
  | held
  /-- It dropped the flag, and will raise the signal. -/
  | dropped
  /-- It raised the signal, and will notify a callback. -/
  | signalled
deriving DecidableEq, Repr

/-- The place at which the thread of a stint stands, if it is one of these. -/
def Stint.place? : Stint → Option Place
  | claiming _ _ .locked => some .locked
  | claiming _ _ .raised => some .raised
  | releasing _ _ _ .marked => some .held
  | releasing _ _ _ .recorded => some .held
  | releasing _ _ _ .dropped => some .dropped
  | releasing _ _ _ .signalled => some .signalled
  | _ => none

/-- How many threads stand at a place of a session. -/
def standing (stints : List Stint) (i : Nat) (p : Place) : Nat :=
  stints.countP fun stint => stint.session == i && stint.place? == some p

/-- Does the stint stand at the place of the session? -/
def Stint.StandsAt (stint : Stint) (i : Nat) (p : Place) : Prop :=
  stint.session = i ∧ stint.place? = some p

instance (stint : Stint) (i : Nat) (p : Place) : Decidable (stint.StandsAt i p) :=
  inferInstanceAs (Decidable (_ ∧ _))

theorem Stint.holdsLock_iff {stint : Stint} :
    stint.holdsLock = true ↔ stint.place? = some .locked ∨ stint.place? = some .raised := by
  cases stint with
  | claiming k i point => cases point <;> simp [holdsLock, place?]
  | changing i change written => simp [holdsLock, place?]
  | releasing thread i settlement point => cases point <;> simp [holdsLock, place?]

section Standing

variable {stints : List Stint} {stint stint' : Stint} {i j : Nat} {p : Place}

theorem standing_set (hj : stints[j]? = some stint) (stint' : Stint) (i : Nat) (p : Place) :
    standing (stints.set j stint') i p + (if stint.StandsAt i p then 1 else 0)
      = standing stints i p + (if stint'.StandsAt i p then 1 else 0) := by
  have h := countP_set_add (p := fun stint : Stint => stint.session == i && stint.place? == some p)
    stint' hj
  simp only [Bool.and_eq_true, beq_iff_eq] at h
  exact h

theorem standing_append (stints : List Stint) (stint : Stint) (i : Nat) (p : Place) :
    standing (stints ++ [stint]) i p
      = standing stints i p + (if stint.StandsAt i p then 1 else 0) := by
  unfold standing
  rw [List.countP_append, List.countP_singleton]
  simp only [Bool.and_eq_true, beq_iff_eq]
  rfl

theorem standing_eq_zero_iff :
    standing stints i p = 0 ↔ ∀ stint ∈ stints, ¬ stint.StandsAt i p := by
  unfold standing Stint.StandsAt
  rw [List.countP_eq_zero]
  simp only [Bool.and_eq_true, beq_iff_eq]

end Standing

/-! ## Tallies -/

/-- **The census of a session**: how many claims on it are outstanding, how many threads stand at
each of the places where the flag and the signal are written, and what these say. -/
structure Census where
  claims : Nat
  locked : Nat
  raised : Nat
  held : Nat
  dropped : Nat
  flags : Session.Flags

namespace Census

/-- How many have to do with the session. -/
def engaged (t : Census) : Nat := t.claims + t.locked + t.raised + t.held + t.dropped

/-- What a move can make of the census of a session. -/
inductive Shifts : Census → Census → Prop where
  | stays {t : Census} : Shifts t t
  /-- A thread takes the lock, and the flag is down. -/
  | locks {c k d : Nat} {f : Session.Flags} (hb : f.busy = false) :
      Shifts ⟨c, 0, 0, k, d, f⟩ ⟨c, 1, 0, k, d, f⟩
  | raises {c l r k d : Nat} {f : Session.Flags} :
      Shifts ⟨c, l + 1, r, k, d, f⟩ ⟨c, l, r + 1, k, d, { f with busy := true }⟩
  | lowers {c l r k d : Nat} {f : Session.Flags} :
      Shifts ⟨c, l, r + 1, k, d, f⟩ ⟨c + 1, l, r, k, d, { f with idle := false }⟩
  /-- A claim is given up by a thread that will release the session. -/
  | marks {c l r k d : Nat} {f : Session.Flags} :
      Shifts ⟨c + 1, l, r, k, d, f⟩ ⟨c, l, r, k + 1, d, f⟩
  | records {c l r k d : Nat} {f : Session.Flags} (last : Option Result) :
      Shifts ⟨c, l, r, k, d, f⟩ ⟨c, l, r, k, d, { f with last }⟩
  | drops {c l r k d : Nat} {f : Session.Flags} :
      Shifts ⟨c, l, r, k + 1, d, f⟩ ⟨c, l, r, k, d + 1, { f with busy := false }⟩
  | signals {c l r k d : Nat} {f : Session.Flags} :
      Shifts ⟨c, l, r, k, d + 1, f⟩ ⟨c, l, r, k, d, { f with idle := true }⟩

/-- Only those who take the lock come to a session, and only those who raise the signal leave it. -/
theorem Shifts.engaged {t t' : Census} (h : t.Shifts t') :
    t'.engaged + (t.dropped - t'.dropped) = t.engaged + (t'.locked - t.locked) := by
  cases h <;> simp only [Census.engaged] <;> omega

end Census

/-- **The tally of a session.** One at most has to do with it, and the flag and the signal say at
which place. -/
structure Tally (t : Census) : Prop where
  one : t.engaged ≤ 1
  busy : t.claims + t.raised + t.held = if t.flags.busy then 1 else 0
  idle : t.claims + t.held + t.dropped = if t.flags.idle then 0 else 1

namespace Tally

theorem untouched : Tally ⟨0, 0, 0, 0, 0, .untouched⟩ := ⟨Nat.zero_le 1, rfl, rfl⟩

/-- A tally remains one, unless the lock is taken while another thread is about to raise the
signal. -/
theorem shifts {t t' : Census} (h : Tally t) (hs : t.Shifts t')
    (hcare : t'.locked = t.locked + 1 → t.dropped = 0) : Tally t' := by
  obtain ⟨hone, hbusy, hidle⟩ := h
  unfold Census.engaged at hone
  cases hs with
  | stays => exact ⟨hone, hbusy, hidle⟩
  | locks hb =>
    have hdropped := hcare rfl
    refine ⟨?_, hbusy, hidle⟩
    rw [hb] at hbusy
    simp only [Census.engaged, Bool.false_eq_true, if_false] at *
    omega
  | records last => exact ⟨hone, hbusy, hidle⟩
  | signals =>
    refine ⟨?_, hbusy, ?_⟩ <;> simp only [Census.engaged, if_true] at * <;> omega
  | raises =>
    refine ⟨?_, ?_, hidle⟩ <;> simp only [Census.engaged, if_true] at * <;> omega
  | lowers | marks | drops =>
    refine ⟨?_, ?_, ?_⟩ <;>
      simp only [Census.engaged, Bool.false_eq_true, if_false] at * <;> omega

end Tally

/-- Has the thread seen that the call is not settled, without having marked it yet? -/
def Stint.looksAt (c : Nat) : Stint → Bool
  | releasing _ _ (some y) .looked => y.call == c
  | _ => false

theorem Stint.looksAt_iff {stint : Stint} {c : Nat} :
    stint.looksAt c = true
      ↔ ∃ thread i y, stint = .releasing thread i (some y) .looked ∧ y.call = c := by
  constructor
  · intro h
    unfold looksAt at h
    split at h
    · exact ⟨_, _, _, rfl, beq_iff_eq.1 h⟩
    · cases h
  · rintro ⟨thread, i, y, rfl, rfl⟩
    exact beq_self_eq_true y.call

/-! ## What a move does -/

namespace Client

variable {w w' u : Client Handler} {c i k : Nat} {call : Call Handler} {s : Session}

/-- What claims and releases have written to a session. -/
def flags (w : Client Handler) (i : Nat) : Session.Flags := w.ledger.flags i

theorem flags_of_getElem? (hs : w.sessions[i]? = some s) : w.flags i = s.flags := by
  show ((w.sessions[i]?).map _).getD _ = _
  rw [hs]
  rfl

theorem busy_flags (hs : w.sessions[i]? = some s) : (w.flags i).busy = s.busy := by
  rw [flags_of_getElem? hs]
  rfl

theorem idle_flags (hs : w.sessions[i]? = some s) : (w.flags i).idle = s.idle := by
  rw [flags_of_getElem? hs]
  rfl

/-- What is written to a session is found there, and nothing is written to others. -/
theorem flags_touch (hs : w.sessions[i]? = some s) (f : Session → Session) (j : Nat) :
    (w.touch i f).flags j = if i = j then (f s).flags else w.flags j := by
  obtain ⟨hlt, -⟩ := List.getElem?_eq_some_iff.1 hs
  rw [touch_eq hs]
  show (((w.sessions.set i (f s))[j]?).map _).getD _ = _
  by_cases hij : i = j
  · subst hij
    rw [List.getElem?_set_self hlt, if_pos rfl]
    rfl
  · rw [List.getElem?_set_ne hij, if_neg hij]
    rfl

theorem length_sessions_touch (w : Client Handler) (i : Nat) (f : Session → Session) :
    (w.touch i f).sessions.length = w.sessions.length := List.length_modify _ _ _

/-- Marking a call takes the claim that it was. -/
theorem claims_markSettled (hc : w.calls[c]? = some call) (hu : call.settled = false) (i : Nat) :
    (w.markSettled c).claims i + (if call.session = i then 1 else 0) = w.claims i := by
  have h := countP_modify_add (p := fun call : Call Handler => call.session == i && !call.settled)
    (fun call => { call with settled := true }) hc
  simp only [hu, Bool.not_false, Bool.not_true, Bool.and_true, Bool.and_false, beq_iff_eq,
    Bool.false_eq_true, if_false, Nat.add_zero] at h
  show w.building i + (w.markSettled c).calls.countP _ + _ = w.building i + w.calls.countP _
  rw [Nat.add_assoc]
  exact congrArg (w.building i + ·) h

/-- An operation that has claimed a session is a claim. -/
theorem claims_setInvocation_claimed {v : Invocation Handler} (hv : w.invocations[k]? = some v)
    (hp : v.phase = .asked) (i : Nat) :
    (w.setInvocation k .claimed).claims i = w.claims i + if v.session = i then 1 else 0 := by
  have h : (w.setInvocation k .claimed).building i
      = w.building i + if v.session = i then 1 else 0 :=
    congrFun (congrArg Ledger.building (ledger_claimed hv hp)) i
  show (w.setInvocation k .claimed).building i + w.calls.countP _
    = w.building i + w.calls.countP _ + _
  rw [h]
  omega

/-- Notifying a callback is no matter for claims, flags and signals. -/
theorem sessions_tell (w : Client Handler) (y : Settlement) :
    (w.tell y).sessions = w.sessions ∧ (w.tell y).calls = w.calls
    ∧ (w.tell y).invocations = w.invocations := by
  obtain ⟨c, _ | result⟩ := y
  · exact ⟨rfl, rfl, rfl⟩
  · unfold tell
    dsimp only
    split <;> exact ⟨rfl, rfl, rfl⟩

theorem claims_tell (w : Client Handler) (y : Settlement) : (w.tell y).claims = w.claims := by
  obtain ⟨-, hcalls, hinvocations⟩ := w.sessions_tell y
  unfold claims building
  rw [hcalls, hinvocations]

theorem flags_tell (w : Client Handler) (y : Settlement) : (w.tell y).flags = w.flags := by
  obtain ⟨hsessions, -, -⟩ := w.sessions_tell y
  unfold flags Ledger.flags
  show (fun i => (((w.tell y).sessions[i]?).map _).getD _) = _
  rw [hsessions]
  rfl

/-- What the next line of a stint does. -/
inductive Goes (w : Client Handler) (lockIsFree : Bool) :
    Stint → Client Handler → Stint → Prop where
  /-- The lock was taken, and an operation seen to hold the session. -/
  | refused {k i : Nat} {s : Session} (hfree : lockIsFree = true) (hs : w.sessions[i]? = some s)
      (hb : s.busy = true) :
      Goes w lockIsFree (.claiming k i .opened) (w.setInvocation k (.ended (.error .busy)))
        (.claiming k i .ended)
  | locked {k i : Nat} {s : Session} (hfree : lockIsFree = true) (hs : w.sessions[i]? = some s)
      (hb : s.busy = false) :
      Goes w lockIsFree (.claiming k i .opened) w (.claiming k i .locked)
  | raised {k i : Nat} :
      Goes w lockIsFree (.claiming k i .locked) (w.touch i Session.raiseBusy)
        (.claiming k i .raised)
  | claimed {k i : Nat} :
      Goes w lockIsFree (.claiming k i .raised)
        ((w.touch i Session.clearIdle).setInvocation k .claimed) (.claiming k i .ended)
  | written {i : Nat} {change : SettingChange} :
      Goes w lockIsFree (.changing i change false) (w.touch i fun s => (s.write change).2)
        (.changing i change true)
  | marked {thread : Thread} {i : Nat} {settlement : Option Settlement} :
      Goes w lockIsFree (.releasing thread i settlement .looked)
        (settlement.elim w fun y => w.markSettled y.call) (.releasing thread i settlement .marked)
  | recorded {thread : Thread} {i : Nat} {settlement : Option Settlement} :
      Goes w lockIsFree (.releasing thread i settlement .marked)
        (w.touch i (·.recordResult (settlement.bind (·.outcome))))
        (.releasing thread i settlement .recorded)
  | dropped {thread : Thread} {i : Nat} {settlement : Option Settlement} :
      Goes w lockIsFree (.releasing thread i settlement .recorded) (w.touch i Session.dropBusy)
        (.releasing thread i settlement .dropped)
  | signalled {thread : Thread} {i : Nat} {settlement : Option Settlement} :
      Goes w lockIsFree (.releasing thread i settlement .dropped) (w.touch i Session.setIdle)
        (.releasing thread i settlement .signalled)
  | told {thread : Thread} {i : Nat} {settlement : Option Settlement} :
      Goes w lockIsFree (.releasing thread i settlement .signalled) (settlement.elim w w.tell)
        (.releasing thread i settlement .ended)

theorem goes_of_line? {lockIsFree : Bool} {stint stint' : Stint}
    (h : w.line? lockIsFree stint = some (w', stint')) : w.Goes lockIsFree stint w' stint' := by
  cases stint with
  | claiming k i point =>
    obtain ⟨⟨w₁, point'⟩, hl, heq⟩ := Option.map_eq_some_iff.1 h
    cases heq
    cases point with
    | opened =>
      unfold claimLine? at hl
      dsimp only at hl
      split at hl
      · rename_i hfree
        obtain ⟨s, hs, hl⟩ := Option.map_eq_some_iff.1 hl
        unfold Session.checkIdle at hl
        cases hb : s.busy with
        | true =>
          rw [hb] at hl
          cases hl
          exact .refused hfree hs hb
        | false =>
          rw [hb] at hl
          cases hl
          exact .locked hfree hs hb
      · cases hl
    | locked =>
      cases hl
      exact .raised
    | raised =>
      cases hl
      exact .claimed
    | ended => cases hl
  | changing i change written =>
    unfold line? at h
    cases written with
    | true => cases h
    | false =>
      cases h
      exact .written
  | releasing thread i settlement point =>
    obtain ⟨⟨w₁, point'⟩, hl, heq⟩ := Option.map_eq_some_iff.1 h
    cases heq
    cases point with
    | looked =>
      cases hl
      exact .marked
    | marked =>
      cases hl
      exact .recorded
    | recorded =>
      cases hl
      exact .dropped
    | dropped =>
      cases hl
      exact .signalled
    | signalled =>
      cases hl
      exact .told
    | ended => cases hl

/-- An operation that takes the lock and finds the session busy is refused. -/
theorem line?_of_busy (hs : w.sessions[i]? = some s) (hb : s.busy = true) :
    w.line? true (.claiming k i .opened)
      = some (w.setInvocation k (.ended (.error .busy)), .claiming k i .ended) := by
  unfold line? claimLine?
  dsimp only
  rw [if_pos rfl, hs]
  simp [Session.checkIdle, hb]

/-- An operation that takes the lock and finds the session free goes on to claim it. -/
theorem line?_of_free (hs : w.sessions[i]? = some s) (hb : s.busy = false) :
    w.line? true (.claiming k i .opened) = some (w, .claiming k i .locked) := by
  unfold line? claimLine?
  dsimp only
  rw [if_pos rfl, hs]
  simp [Session.checkIdle, hb]

namespace Goes

variable {lockIsFree : Bool} {stint stint' : Stint}

theorem session (h : w.Goes lockIsFree stint w' stint') : stint'.session = stint.session := by
  cases h <;> rfl

/-- No line opens a session. -/
theorem length_sessions (h : w.Goes lockIsFree stint w' stint') :
    w'.sessions.length = w.sessions.length := by
  cases h with
  | refused => rfl
  | locked => rfl
  | raised => exact length_sessions_touch _ _ _
  | claimed => exact length_sessions_touch _ _ _
  | written => exact length_sessions_touch _ _ _
  | @marked thread i settlement => cases settlement <;> rfl
  | recorded => exact length_sessions_touch _ _ _
  | dropped => exact length_sessions_touch _ _ _
  | signalled => exact length_sessions_touch _ _ _
  | @told thread i settlement =>
    cases settlement with
    | none => rfl
    | some y => exact congrArg List.length (w.sessions_tell y).1

/-- A line moves no invocation but that of the operation that claims a session by it. -/
theorem invocations (h : w.Goes lockIsFree stint w' stint') (k : Nat) :
    w'.invocations[k]? = w.invocations[k]?
    ∨ ∃ i point, point ≠ .ended ∧ stint = .claiming k i point := by
  have hset : ∀ {u : Client Handler} {k' : Nat} {phase : InvocationPhase},
      u.invocations = w.invocations → k' ≠ k →
      (u.setInvocation k' phase).invocations[k]? = w.invocations[k]? := by
    intro u k' phase hu hk
    show (u.invocations.modify k' _)[k]? = _
    simp [hk, hu]
  cases h with
  | @refused k' i s =>
    by_cases hk : k' = k
    · subst hk
      exact .inr ⟨_, _, by rintro ⟨⟩, rfl⟩
    · exact .inl (hset rfl hk)
  | @claimed k' i =>
    by_cases hk : k' = k
    · subst hk
      exact .inr ⟨_, _, by rintro ⟨⟩, rfl⟩
    · exact .inl (hset (u := w.touch i Session.clearIdle) rfl hk)
  | locked => exact .inl rfl
  | raised => exact .inl rfl
  | written => exact .inl rfl
  | @marked thread i settlement => cases settlement <;> exact .inl rfl
  | recorded => exact .inl rfl
  | dropped => exact .inl rfl
  | signalled => exact .inl rfl
  | @told thread i settlement =>
    cases settlement with
    | none => exact .inl rfl
    | some y => exact .inl (congrArg (·[k]?) (w.sessions_tell y).2.2)

/-- A claim that is not over after a line was not over before it. -/
theorem claiming {k i : Nat} {point : ClaimPoint}
    (h : w.Goes lockIsFree stint w' (.claiming k i point)) (hp : point ≠ .ended) :
    w'.invocations = w.invocations ∧ ∃ point', point' ≠ .ended ∧ stint = .claiming k i point' := by
  cases h with
  | refused => exact absurd rfl hp
  | locked => exact ⟨rfl, _, by rintro ⟨⟩, rfl⟩
  | raised => exact ⟨rfl, _, by rintro ⟨⟩, rfl⟩
  | claimed => exact absurd rfl hp

/-- After a line the call is not only looked at any more. -/
theorem not_looked {thread : Thread} {i : Nat} {settlement : Option Settlement} :
    ¬ w.Goes lockIsFree stint w' (.releasing thread i settlement .looked) := by
  rintro ⟨⟩

theorem not_looksAt (h : w.Goes lockIsFree stint w' stint') {c : Nat} :
    ¬ stint'.looksAt c = true := by
  intro hlooks
  obtain ⟨thread, i, y, rfl, -⟩ := Stint.looksAt_iff.1 hlooks
  exact not_looked h

/-- The lock is taken by a claim of a session that was seen to be open. -/
theorem opened_of_locked (h : w.Goes lockIsFree stint w' stint')
    (hp : stint'.place? = some .locked) : ∃ k, stint = .claiming k stint.session .opened := by
  cases h with
  | locked => exact ⟨_, rfl⟩
  | _ => cases hp

/-- A line changes no call but the one that it marks. -/
theorem calls (h : w.Goes lockIsFree stint w' stint') (c : Nat) :
    w'.calls[c]? = w.calls[c]? ∨ stint.looksAt c = true := by
  cases h with
  | @marked thread i settlement =>
    cases settlement with
    | none => exact .inl rfl
    | some y =>
      by_cases hc : y.call = c
      · exact .inr (beq_iff_eq.2 hc)
      · refine .inl ?_
        show (w.calls.modify y.call _)[c]? = _
        simp [hc]
  | @told thread i settlement =>
    cases settlement with
    | none => exact .inl rfl
    | some y => exact .inl (congrArg (·[c]?) (w.sessions_tell y).2.1)
  | _ => exact .inl rfl

end Goes

end Client

namespace Crowd

/-- **What a move does**: an action that no stint begins with, one that a stint begins with, or a
line of a stint. -/
inductive Moves (x : Crowd Handler) : Move Handler → Crowd Handler → Prop where
  | acted {action : Action Handler} {w : Client Handler} (hfree : x.isEngaged action = false)
      (hb : x.client.begin? action = none) (ha : x.client.act? action = some w) :
      Moves x (.act action) ⟨w, x.stints⟩
  | begun {action : Action Handler} {w : Client Handler} {stint : Stint}
      (hfree : x.isEngaged action = false) (hb : x.client.begin? action = some (w, stint)) :
      Moves x (.act action) ⟨w, x.stints ++ [stint]⟩
  | gone {j : Nat} {stint stint' : Stint} {w : Client Handler} (hj : x.stints[j]? = some stint)
      (hg : x.client.Goes (x.isLockFree stint.session) stint w stint') :
      Moves x (.go j) ⟨w, x.stints.set j stint'⟩

theorem moves_of_move? {x y : Crowd Handler} {move : Move Handler} (h : x.move? move = some y) :
    x.Moves move y := by
  unfold move? at h
  cases move with
  | act action =>
    dsimp only at h
    split at h
    · cases h
    · rename_i hfree
      rw [Bool.not_eq_true] at hfree
      split at h
      · rename_i hb
        cases h
        exact .begun hfree hb
      · rename_i hb
        obtain ⟨w, ha, rfl⟩ := Option.map_eq_some_iff.1 h
        exact .acted hfree hb ha
  | go j =>
    obtain ⟨stint, hj, h⟩ := Option.bind_eq_some_iff.1 h
    obtain ⟨⟨w, stint'⟩, hl, rfl⟩ := Option.map_eq_some_iff.1 h
    exact .gone hj (Client.goes_of_line? hl)

end Crowd

/-! ## Threads in each other's way -/

namespace Crowd

/-- By the move, does a thread see that a call is not settled which another thread has seen not to
be settled and has not marked yet? -/
def looksTwice (x : Crowd Handler) : Move Handler → Bool
  | .act action =>
    match x.client.begin? action with
    | some (_, .releasing _ _ (some y) .looked) => x.stints.any (·.looksAt y.call)
    | _ => false
  | .go _ => false

/-- By the move, does a thread take the lock of a session while another stands at the place? -/
def claimsAt (x : Crowd Handler) (p : Place) : Move Handler → Bool
  | .go j =>
    match x.stints[j]? with
    | some (.claiming _ i .opened) => standing x.stints i p != 0
    | _ => false
  | .act _ => false

/-- The move looks at no call that is about to be settled, and claims no session between the lines
that drop its flag and raise its signal. -/
abbrev CarefulMove (x : Crowd Handler) (move : Move Handler) : Prop :=
  x.looksTwice move = false ∧ x.claimsAt .dropped move = false

/-- The census of a session. -/
def census (x : Crowd Handler) (i : Nat) : Census where
  claims := x.client.claims i
  locked := standing x.stints i .locked
  raised := standing x.stints i .raised
  held := standing x.stints i .held
  dropped := standing x.stints i .dropped
  flags := x.client.flags i

/-- The crowds that careful moves lead to. -/
abbrev Careful : Crowd Handler → Prop := Reached CarefulMove

/-- What holds of a crowd as long as its threads are careful. -/
structure IsSound (x : Crowd Handler) : Prop where
  tally : ∀ i, Tally (x.census i)
  session : ∀ stint ∈ x.stints, stint.session < x.client.sessions.length
  /-- An operation that is on its way to a session has not claimed it yet. -/
  asked : ∀ {k i : Nat} {point : ClaimPoint}, .claiming k i point ∈ x.stints → point ≠ .ended →
    ∃ v, x.client.invocations[k]? = some v ∧ v.phase = .asked ∧ v.session = i
  /-- An operation is on its way once. -/
  single : ∀ {j j' k i i' : Nat} {point point' : ClaimPoint},
    x.stints[j]? = some (.claiming k i point) → x.stints[j']? = some (.claiming k i' point') →
    point ≠ .ended → point' ≠ .ended → j = j'
  /-- A call that is about to be marked is not settled. -/
  looked : ∀ {thread : Thread} {i : Nat} {y : Settlement},
    .releasing thread i (some y) .looked ∈ x.stints →
    ∃ call, x.client.calls[y.call]? = some call ∧ call.session = i ∧ call.settled = false
  /-- One thread at most is about to mark a call. -/
  alone : ∀ {j j' c : Nat} {stint stint' : Stint}, x.stints[j]? = some stint →
    x.stints[j']? = some stint' → stint.looksAt c = true → stint'.looksAt c = true → j = j'
  /-- Only a call is looked at. -/
  call : ∀ {thread : Thread} {i : Nat}, .releasing thread i none .looked ∉ x.stints
  regular : x.client.ledger.IsRegular

section Kept

variable {x y : Crowd Handler} {move : Move Handler} {j : Nat} {stint stint' : Stint}
  {w : Client Handler}

/-- What is found in a list after an element was replaced. -/
theorem getElem?_set_cases {α : Type} {xs : List α} {j k : Nat} {a b : α}
    (h : (xs.set j a)[k]? = some b) : (k = j ∧ b = a) ∨ (k ≠ j ∧ xs[k]? = some b) := by
  by_cases hkj : k = j
  · subst hkj
    rw [List.getElem?_set] at h
    simp only [if_true] at h
    split at h
    · cases h
      exact .inl ⟨rfl, rfl⟩
    · cases h
  · rw [List.getElem?_set_ne (Ne.symm hkj)] at h
    exact .inr ⟨hkj, h⟩

/-- What is found in a list after an element was added at its end. -/
theorem getElem?_append_cases {α : Type} {xs : List α} {k : Nat} {a b : α}
    (h : (xs ++ [a])[k]? = some b) : (k = xs.length ∧ b = a) ∨ xs[k]? = some b := by
  rcases Nat.lt_trichotomy k xs.length with hlt | rfl | hgt
  · rw [List.getElem?_append_left hlt] at h
    exact .inr h
  · rw [List.getElem?_concat_length] at h
    exact .inl ⟨rfl, (Option.some.inj h).symm⟩
  · rw [List.getElem?_eq_none (by simpa using Nat.succ_le_of_lt hgt)] at h
    cases h

theorem census_of_spares (h : x.client.ledger.Spares w.ledger) (i : Nat) :
    census ⟨w, x.stints⟩ i = x.census i := by
  have hclaims : w.claims i = x.client.claims i := h.claims i
  have hflags : w.flags i = x.client.flags i := h.flags i
  unfold census
  rw [hclaims, hflags]

/-- What the beginning of a stint makes of a census. -/
theorem shifts_begun {action : Action Handler} (hb : x.client.Begins action w stint) (i : Nat) :
    (x.census i).Shifts (census ⟨w, x.stints ++ [stint]⟩ i) := by
  unfold census
  simp only [standing_append]
  cases hb with
  | claim hv hp hs hopen => simpa [Stint.StandsAt, Stint.place?] using Census.Shifts.stays
  | change hs hfree => simpa [Stint.StandsAt, Stint.place?] using Census.Shifts.stays
  | @unbuilt k v s u hv hp hs hsessions hl ha =>
    have hpos := Client.building_pos hv hp
    have hflags : w.flags i = x.client.flags i := by
      show w.ledger.flags i = _
      rw [hl]
      rfl
    have hclaims : w.claims i + (if v.session = i then 1 else 0) = x.client.claims i := by
      have hbuilding : w.building i = x.client.building i - if v.session = i then 1 else 0 :=
        congrFun (congrArg Ledger.building hl) i
      have hcalls : w.calls = x.client.calls := congrArg Ledger.calls hl
      unfold Client.claims
      rw [hbuilding, hcalls]
      by_cases hi : v.session = i
      · subst hi
        rw [if_pos rfl]
        omega
      · rw [if_neg hi]
        rfl
    rw [hflags, ← hclaims]
    by_cases hi : v.session = i
    · simpa [Stint.StandsAt, Stint.place?, Stint.session, hi] using Census.Shifts.marks
    · simpa [Stint.StandsAt, Stint.place?, Stint.session, hi] using Census.Shifts.stays
  | @settle action thread u y call s hc hu hspares hk ha =>
    have hflags : w.flags i = x.client.flags i := hspares.flags i
    have hclaims : w.claims i = x.client.claims i := hspares.claims i
    rw [hflags, hclaims]
    simpa [Stint.StandsAt, Stint.place?] using Census.Shifts.stays

/-- Nobody holds the lock of a session whose lock is free. -/
theorem standing_of_isLockFree {i : Nat} (h : x.isLockFree i = true) :
    standing x.stints i .locked = 0 ∧ standing x.stints i .raised = 0 := by
  have hany : ∀ stint ∈ x.stints, stint.session = i → stint.holdsLock = false := by
    intro stint hm hi
    unfold isLockFree at h
    rw [Bool.not_eq_true', List.any_eq_false] at h
    have hnot := h stint hm
    rw [hi, beq_self_eq_true, Bool.true_and, Bool.not_eq_true] at hnot
    exact hnot
  refine ⟨standing_eq_zero_iff.2 ?_, standing_eq_zero_iff.2 ?_⟩
  · rintro stint hm ⟨hi, hp⟩
    exact absurd (Stint.holdsLock_iff.2 (.inl hp)) (Bool.eq_false_iff.1 (hany stint hm hi))
  · rintro stint hm ⟨hi, hp⟩
    exact absurd (Stint.holdsLock_iff.2 (.inr hp)) (Bool.eq_false_iff.1 (hany stint hm hi))

/-- A thread that may take the lock finds nobody at the place. -/
theorem standing_of_claimsAt {k i : Nat} {p : Place}
    (hj : x.stints[j]? = some (.claiming k i .opened)) (h : x.claimsAt p (.go j) = false) :
    standing x.stints i p = 0 := by
  unfold claimsAt at h
  dsimp only at h
  rw [hj] at h
  simpa using h

/-- Who takes the lock is an operation that saw that its session is open. -/
theorem opened_of_locks (hj : x.stints[j]? = some stint)
    (hg : x.client.Goes (x.isLockFree stint.session) stint w stint') {i : Nat}
    (hl : (census ⟨w, x.stints.set j stint'⟩ i).locked = (x.census i).locked + 1) :
    ∃ k, x.stints[j]? = some (.claiming k i .opened) := by
  have hset := standing_set hj stint' i .locked
  have hlocked : stint'.StandsAt i .locked := by
    by_contra hnot
    rw [if_neg hnot] at hset
    change standing (x.stints.set j stint') i .locked = standing x.stints i .locked + 1 at hl
    omega
  obtain ⟨k, hopened⟩ := hg.opened_of_locked hlocked.2
  rw [hg.session.symm.trans hlocked.1] at hopened
  exact ⟨k, hopened ▸ hj⟩

/-- A thread that takes the lock finds nobody at the place. -/
theorem standing_of_locks (hj : x.stints[j]? = some stint)
    (hg : x.client.Goes (x.isLockFree stint.session) stint w stint') {p : Place}
    (hA : x.claimsAt p (.go j) = false) {i : Nat}
    (hl : (census ⟨w, x.stints.set j stint'⟩ i).locked = (x.census i).locked + 1) :
    standing x.stints i p = 0 := by
  obtain ⟨k, hopened⟩ := opened_of_locks hj hg hl
  exact standing_of_claimsAt hopened hA

/-- A line takes the lock at most once. -/
theorem locked_gone_le (hj : x.stints[j]? = some stint) (w : Client Handler) (stint' : Stint)
    (i : Nat) : (census ⟨w, x.stints.set j stint'⟩ i).locked ≤ (x.census i).locked + 1 := by
  have hset := standing_set hj stint' i .locked
  have hle : (if stint'.StandsAt i .locked then 1 else 0) ≤ 1 := by split <;> omega
  show standing (x.stints.set j stint') i .locked ≤ standing x.stints i .locked + 1
  omega

/-- The beginning of a stint takes no lock. -/
theorem locked_begun {action : Action Handler} (hb : x.client.Begins action w stint) (i : Nat) :
    (census ⟨w, x.stints ++ [stint]⟩ i).locked = (x.census i).locked := by
  show standing (x.stints ++ [stint]) i .locked = standing x.stints i .locked
  rw [standing_append, if_neg, Nat.add_zero]
  rintro ⟨-, hp⟩
  cases hb <;> cases hp

/-- A line of a stint writes nothing of other sessions. -/
theorem elsewhere (h : x.IsSound) (hj : x.stints[j]? = some stint)
    (hg : x.client.Goes (x.isLockFree stint.session) stint w stint') {i : Nat}
    (hi : stint.session ≠ i) : w.claims i = x.client.claims i ∧ w.flags i = x.client.flags i := by
  have hm := List.mem_of_getElem? hj
  obtain ⟨s, hs⟩ : ∃ s, x.client.sessions[stint.session]? = some s :=
    ⟨_, List.getElem?_eq_getElem (h.session stint hm)⟩
  have htouch : ∀ f, (x.client.touch stint.session f).flags i = x.client.flags i := by
    intro f
    rw [Client.flags_touch hs, if_neg hi]
  cases hg with
  | refused hfree hs hb =>
    obtain ⟨v, hv, hp, -⟩ := h.asked hm (by rintro ⟨⟩)
    have hl : (x.client.setInvocation _ (.ended (.error .busy))).ledger = x.client.ledger :=
      Client.ledger_setInvocation hv (by rw [hp]; rfl)
    exact ⟨congrArg (Ledger.claims · i) hl, congrArg (Ledger.flags · i) hl⟩
  | locked hfree hs hb => exact ⟨rfl, rfl⟩
  | raised => exact ⟨rfl, htouch _⟩
  | @claimed k i' =>
    obtain ⟨v, hv, hp, rfl⟩ := h.asked hm (by rintro ⟨⟩)
    refine ⟨?_, htouch _⟩
    have hclaims := Client.claims_setInvocation_claimed
      (w := x.client.touch v.session Session.clearIdle) hv hp i
    rw [if_neg (show v.session ≠ i from hi)] at hclaims
    exact hclaims
  | written => exact ⟨rfl, htouch _⟩
  | @marked thread i' settlement =>
    cases settlement with
    | none => exact absurd hm h.call
    | some y =>
      obtain ⟨call, hc, rfl, hu⟩ := h.looked hm
      refine ⟨?_, rfl⟩
      have hclaims := Client.claims_markSettled hc hu i
      rw [if_neg (show call.session ≠ i from hi)] at hclaims
      exact hclaims
  | recorded => exact ⟨rfl, htouch _⟩
  | dropped => exact ⟨rfl, htouch _⟩
  | signalled => exact ⟨rfl, htouch _⟩
  | @told thread i' settlement =>
    cases settlement with
    | none => exact ⟨rfl, rfl⟩
    | some y =>
      exact ⟨congrArg (· i) (Client.claims_tell _ y), congrArg (· i) (Client.flags_tell _ y)⟩

/-- Only the threads of a session stand at its places. -/
theorem standing_elsewhere (hj : x.stints[j]? = some stint)
    (hs : stint'.session = stint.session) {i : Nat} (hi : stint.session ≠ i) (p : Place) :
    standing (x.stints.set j stint') i p = standing x.stints i p := by
  have h := standing_set hj stint' i p
  rw [if_neg fun hp => hi hp.1, if_neg fun hp => hi (hs.symm.trans hp.1)] at h
  exact h

/-- What a line of a stint makes of the census of its session. -/
theorem shifts_own (h : x.IsSound) (hj : x.stints[j]? = some stint)
    (hg : x.client.Goes (x.isLockFree stint.session) stint w stint') :
    (x.census stint.session).Shifts (census ⟨w, x.stints.set j stint'⟩ stint.session) := by
  have hm := List.mem_of_getElem? hj
  obtain ⟨s, hs⟩ : ∃ s, x.client.sessions[stint.session]? = some s :=
    ⟨_, List.getElem?_eq_getElem (h.session stint hm)⟩
  have hold : x.client.flags stint.session = s.flags := Client.flags_of_getElem? hs
  have htouch : ∀ f, (x.client.touch stint.session f).flags stint.session = (f s).flags := by
    intro f
    rw [Client.flags_touch hs, if_pos rfl]
  -- The thread leaves the place at which it stood, and comes to the next.
  have hstanding : ∀ p, standing (x.stints.set j stint') stint.session p
      + (if stint.place? = some p then 1 else 0)
      = standing x.stints stint.session p + (if stint'.place? = some p then 1 else 0) := by
    intro p
    have hset := standing_set hj stint' stint.session p
    simpa only [Stint.StandsAt, hg.session, true_and] using hset
  have hl := hstanding .locked
  have hr := hstanding .raised
  have hh := hstanding .held
  have hd := hstanding .dropped
  unfold census
  cases hg <;> dsimp only [Stint.session] at hs hold htouch hl hr hh hd ⊢ <;>
    simp only [Stint.place?, Option.some.injEq, reduceCtorEq, if_true, if_false, Nat.add_zero]
      at hl hr hh hd
  case refused k i s' hs' hb hfree =>
    obtain ⟨v, hv, hp, -⟩ := h.asked hm (by rintro ⟨⟩)
    have hledger : (x.client.setInvocation k (.ended (.error .busy))).ledger = x.client.ledger :=
      Client.ledger_setInvocation hv (by rw [hp]; rfl)
    have hclaims : Client.claims _ i = x.client.claims i := congrArg (Ledger.claims · i) hledger
    have hflags : Client.flags _ i = x.client.flags i := congrArg (Ledger.flags · i) hledger
    rw [hl, hr, hh, hd, hclaims, hflags]
    exact .stays
  case locked k i s' hs' hb hfree =>
    obtain ⟨hlocked, hraised⟩ := standing_of_isLockFree hfree
    have hbusy : (x.client.flags i).busy = false := by
      rw [Client.flags_of_getElem? hs']
      exact hb
    rw [hl, hr, hh, hd, show standing x.stints i .locked = 0 from hlocked,
      show standing x.stints i .raised = 0 from hraised]
    exact .locks hbusy
  case raised k i =>
    rw [htouch, hr, hh, hd, ← hl, hold]
    exact .raises
  case claimed k i =>
    obtain ⟨v, hv, hp, rfl⟩ := h.asked hm (by rintro ⟨⟩)
    have hclaims := Client.claims_setInvocation_claimed
      (w := x.client.touch v.session Session.clearIdle) hv hp v.session
    rw [if_pos rfl] at hclaims
    have hflags : ((x.client.touch v.session Session.clearIdle).setInvocation k .claimed).flags
        v.session = s.clearIdle.flags := htouch Session.clearIdle
    rw [hclaims, hl, hh, hd, hflags, ← hr, hold]
    exact .lowers
  case written i change =>
    have hflags : (s.write change).2.flags = s.flags := by
      rw [s.snd_write change]
      rfl
    rw [htouch, hl, hr, hh, hd, hflags, ← hold]
    exact .stays
  case marked thread i settlement =>
    cases settlement with
    | none => exact absurd hm h.call
    | some y =>
      obtain ⟨call, hc, rfl, hu⟩ := h.looked hm
      have hclaims := Client.claims_markSettled hc hu call.session
      rw [if_pos rfl] at hclaims
      rw [hl, hr, hh, hd, ← hclaims]
      exact .marks
  case recorded thread i settlement =>
    rw [htouch, hl, hr, Nat.add_right_cancel hh, hd, hold]
    exact .records _
  case dropped thread i settlement =>
    rw [htouch, hl, hr, hd, ← hh, hold]
    exact .drops
  case signalled thread i settlement =>
    rw [htouch, hl, hr, hh, ← hd, hold]
    exact .signals
  case told thread i settlement =>
    rw [hl, hr, hh, hd]
    cases settlement with
    | none => exact .stays
    | some y =>
      dsimp only [Option.elim]
      rw [x.client.claims_tell y, x.client.flags_tell y]
      exact .stays

/-- What a line of a stint makes of a census. -/
theorem shifts_gone (h : x.IsSound) (hj : x.stints[j]? = some stint)
    (hg : x.client.Goes (x.isLockFree stint.session) stint w stint') (i : Nat) :
    (x.census i).Shifts (census ⟨w, x.stints.set j stint'⟩ i) := by
  by_cases hi : stint.session = i
  · subst hi
    exact shifts_own h hj hg
  · obtain ⟨hclaims, hflags⟩ := elsewhere h hj hg hi
    unfold census
    dsimp only
    rw [hclaims, hflags]
    simp only [standing_elsewhere hj hg.session hi]
    exact .stays

/-! ### The other facts -/

theorem session_begun {action : Action Handler}
    (hb : x.client.Begins action w stint) :
    x.client.sessions.length ≤ w.sessions.length ∧ stint.session < w.sessions.length := by
  cases hb with
  | claim hv hp hs hopen => exact ⟨Nat.le_refl _, (List.getElem?_eq_some_iff.1 hs).1⟩
  | change hs hfree => exact ⟨Nat.le_refl _, (List.getElem?_eq_some_iff.1 hs).1⟩
  | unbuilt hv hp hs hsessions hl ha =>
    rw [hsessions]
    exact ⟨Nat.le_refl _, (List.getElem?_eq_some_iff.1 hs).1⟩
  | settle hc hu hspares hk ha =>
    obtain ⟨-, hs⟩ := Client.callOn?_eq_some_iff.1 hc
    exact ⟨hspares.sessions, (List.getElem?_eq_some_iff.1 hs).1⟩

/-- The thread of an operation on its way to a session does nothing else. -/
theorem isOf_eq_false {action : Action Handler} {k i : Nat} {point : ClaimPoint}
    (h : x.isEngaged action = false) (hm : .claiming k i point ∈ x.stints) (hp : point ≠ .ended) :
    action.isOf k = false := by
  unfold isEngaged at h
  rw [List.any_eq_false] at h
  have hnot := h _ hm
  have hover : (Stint.claiming k i point).isOver = false := by
    cases point with
    | ended => exact absurd rfl hp
    | _ => rfl
  rw [hover] at hnot
  cases action with
  | stepInvocation j => simpa [Stint.thread?, Client.isActionOf, Action.isOf] using hnot
  | answerInvocation j answer => simpa [Stint.thread?, Client.isActionOf, Action.isOf] using hnot
  | wakeInvocation j => simpa [Stint.thread?, Client.isActionOf, Action.isOf] using hnot
  | returnInvocation j raised => simpa [Stint.thread?, Client.isActionOf, Action.isOf] using hnot
  | _ => rfl

theorem invocations_release (w : Client Handler) (i : Nat) (settlement : Option Settlement) :
    (w.release i settlement).invocations = w.invocations := by
  rw [Client.release_congr (u := w) (w := w) rfl rfl rfl i settlement]

/-- The beginning of a stint moves no invocation of another thread. -/
theorem invocations_begun {action : Action Handler} (hb : x.client.Begins action w stint) {k : Nat}
    {v : Invocation Handler} (hv : x.client.invocations[k]? = some v)
    (hof : action.isOf k = false) : w.invocations[k]? = some v := by
  have hact : ∀ {i : Nat} {settlement : Option Settlement},
      x.client.act? action = some (w.release i settlement) → w.invocations[k]? = some v := by
    intro i settlement ha
    rcases (Client.frame_act? ha).invocations hv with hof' | hv'
    · rw [hof] at hof'
      cases hof'
    · rwa [invocations_release] at hv'
  cases hb with
  | claim hv' hp hs hopen => exact hv
  | change hs hfree => exact hv
  | unbuilt hv' hp hs hsessions hl ha => exact hact ha
  | settle hc hu hspares hk ha => exact hact ha

theorem asked_begun (h : x.IsSound) {action : Action Handler} (hfree : x.isEngaged action = false)
    (hb : x.client.Begins action w stint) {k i : Nat} {point : ClaimPoint}
    (hm : .claiming k i point ∈ x.stints ++ [stint]) (hp : point ≠ .ended) :
    ∃ v, w.invocations[k]? = some v ∧ v.phase = .asked ∧ v.session = i := by
  rcases List.mem_append.1 hm with hm | hm
  · obtain ⟨v, hv, hasked, hi⟩ := h.asked hm hp
    exact ⟨v, invocations_begun hb hv (isOf_eq_false hfree hm hp), hasked, hi⟩
  · obtain rfl := List.mem_singleton.1 hm
    cases hb with
    | claim hv hasked hs hopen => exact ⟨_, hv, hasked, rfl⟩

theorem asked_gone (h : x.IsSound) (hj : x.stints[j]? = some stint)
    (hg : x.client.Goes (x.isLockFree stint.session) stint w stint') {k i : Nat}
    {point : ClaimPoint} (hm : .claiming k i point ∈ x.stints.set j stint') (hp : point ≠ .ended) :
    ∃ v, w.invocations[k]? = some v ∧ v.phase = .asked ∧ v.session = i := by
  obtain ⟨j', hj'⟩ := List.getElem?_of_mem hm
  rcases getElem?_set_cases hj' with ⟨-, rfl⟩ | ⟨hne, hj'⟩
  · obtain ⟨hkept, point', hp', rfl⟩ := hg.claiming hp
    rw [hkept]
    exact h.asked (List.mem_of_getElem? hj) hp'
  · obtain ⟨v, hv, hasked⟩ := h.asked (List.mem_of_getElem? hj') hp
    rcases hg.invocations k with hkept | ⟨i', point', hp', rfl⟩
    · exact ⟨v, hkept.trans hv, hasked⟩
    · exact absurd (h.single hj' hj hp hp') hne

/-- In what a stint begins with, calls are as they were. -/
theorem calls_begun {action : Action Handler} (hb : x.client.Begins action w stint) {c : Nat}
    {call : Call Handler} (hc : x.client.calls[c]? = some call) :
    ∃ call', w.calls[c]? = some call' ∧ call'.IsSameAs call ∧ call'.settled = call.settled := by
  cases hb with
  | claim hv hp hs hopen => exact ⟨call, hc, .refl _, rfl⟩
  | change hs hfree => exact ⟨call, hc, .refl _, rfl⟩
  | unbuilt hv hp hs hsessions hl ha =>
    have hcalls : w.calls = x.client.calls := congrArg Ledger.calls hl
    exact ⟨call, hcalls ▸ hc, .refl _, rfl⟩
  | settle hc' hu hspares hk ha => exact hspares.exists_call hc

theorem looked_begun (h : x.IsSound) {action : Action Handler}
    (hb : x.client.Begins action w stint) {thread : Thread} {i : Nat} {y : Settlement}
    (hm : .releasing thread i (some y) .looked ∈ x.stints ++ [stint]) :
    ∃ call, w.calls[y.call]? = some call ∧ call.session = i ∧ call.settled = false := by
  rcases List.mem_append.1 hm with hm | hm
  · obtain ⟨call, hc, hi, hu⟩ := h.looked hm
    obtain ⟨call', hc', same, hsettled⟩ := calls_begun hb hc
    exact ⟨call', hc', same.session.trans hi, hsettled.trans hu⟩
  · obtain rfl := List.mem_singleton.1 hm
    cases hb with
    | settle hc hu hspares hk ha =>
      exact ⟨_, (Client.callOn?_eq_some_iff.1 hc).1, rfl, hu⟩

theorem looked_gone (h : x.IsSound) (hj : x.stints[j]? = some stint)
    (hg : x.client.Goes (x.isLockFree stint.session) stint w stint') {thread : Thread} {i : Nat}
    {y : Settlement} (hm : .releasing thread i (some y) .looked ∈ x.stints.set j stint') :
    ∃ call, w.calls[y.call]? = some call ∧ call.session = i ∧ call.settled = false := by
  obtain ⟨j', hj'⟩ := List.getElem?_of_mem hm
  rcases getElem?_set_cases hj' with ⟨-, rfl⟩ | ⟨hne, hj'⟩
  · exact absurd hg Client.Goes.not_looked
  · obtain ⟨call, hc, hlooked⟩ := h.looked (List.mem_of_getElem? hj')
    rcases hg.calls y.call with hkept | hlooks
    · exact ⟨call, hkept.trans hc, hlooked⟩
    · exact absurd (h.alone hj' hj (beq_self_eq_true _) hlooks) hne

/-! ### Regularity -/

theorem regular_begun (h : x.IsSound) {action : Action Handler}
    (hb : x.client.Begins action w stint) : w.ledger.IsRegular := by
  cases hb with
  | claim hv hp hs hopen => exact h.regular
  | change hs hfree => exact h.regular
  | unbuilt hv hp hs hsessions hl ha =>
    rw [hl]
    exact h.regular.of_sessions (Nat.le_refl _) _
  | settle hc hu hspares hk ha => exact hspares.regular h.regular

/-- The mark of a call is no matter for regularity. -/
theorem regular_markSettled (h : w.ledger.IsRegular) (c : Nat) :
    (w.markSettled c).ledger.IsRegular := by
  have hcalls : ∀ call ∈ (w.markSettled c).calls,
      ∃ old ∈ w.calls, old.session = call.session ∧ old.request = call.request
        ∧ old.cycle = call.cycle := by
    intro call hm
    obtain ⟨d, hd⟩ := List.getElem?_of_mem hm
    unfold Client.markSettled at hd
    dsimp only at hd
    rw [List.getElem?_modify] at hd
    obtain ⟨old, hold, rfl⟩ := Option.map_eq_some_iff.1 hd
    refine ⟨old, List.mem_of_getElem? hold, ?_⟩
    split <;> exact ⟨rfl, rfl, rfl⟩
  refine ⟨?_, ?_, ?_⟩
  · intro call hm
    obtain ⟨old, hold, hsession, -, -⟩ := hcalls call hm
    exact hsession ▸ h.session old hold
  · intro call hm
    obtain ⟨old, hold, -, hrequest, hcycle⟩ := hcalls call hm
    rw [← hrequest, ← hcycle]
    exact h.request old hold
  · intro notice hm
    show notice.1 < (w.calls.modify c _).length
    rw [List.length_modify]
    exact h.notice notice hm

/-- What is told is told of a call that exists. -/
theorem regular_tell (h : w.ledger.IsRegular) (y : Settlement) : (w.tell y).ledger.IsRegular := by
  obtain ⟨c, _ | result⟩ := y
  · exact h
  · unfold Client.tell
    dsimp only
    split
    · rename_i handler hc
      obtain ⟨call, hc, -⟩ := Option.bind_eq_some_iff.1 hc
      rw [Client.ledger_record]
      refine ⟨h.session, h.request, ?_⟩
      intro notice hm
      rcases List.mem_append.1 hm with hm | hm
      · exact h.notice notice hm
      · obtain rfl := List.mem_singleton.1 hm
        exact (List.getElem?_eq_some_iff.1 hc).1
    · exact h

theorem regular_gone (h : x.IsSound)
    (hg : x.client.Goes (x.isLockFree stint.session) stint w stint') : w.ledger.IsRegular := by
  have htouch : ∀ {i : Nat} {f : Session → Session},
      (x.client.touch i f).ledger.IsRegular := fun {i f} =>
    h.regular.of_sessions (Nat.le_of_eq (x.client.length_sessions_touch i f).symm) _
  cases hg with
  | refused => exact h.regular.of_sessions (Nat.le_refl _) _
  | locked => exact h.regular
  | claimed => exact htouch.of_sessions (Nat.le_refl _) _
  | @marked thread i settlement =>
    cases settlement with
    | none => exact h.regular
    | some y => exact regular_markSettled h.regular y.call
  | @told thread i settlement =>
    cases settlement with
    | none => exact h.regular
    | some y => exact regular_tell h.regular y
  | _ => exact htouch

/-! ### Every careful move keeps a crowd sound -/

theorem IsSound.acted (h : x.IsSound) {action : Action Handler} (hfree : x.isEngaged action = false)
    (hb : x.client.begin? action = none) (ha : x.client.act? action = some w) :
    (⟨w, x.stints⟩ : Crowd Handler).IsSound := by
  have hspares := Client.spares_act? ha hb
  refine ⟨?_, ?_, ?_, h.single, ?_, h.alone, h.call, hspares.regular h.regular⟩
  · intro i
    rw [census_of_spares hspares]
    exact h.tally i
  · intro stint hm
    exact Nat.lt_of_lt_of_le (h.session stint hm) hspares.sessions
  · intro k i point hm hp
    obtain ⟨v, hv, hasked⟩ := h.asked hm hp
    rcases (Client.frame_act? ha).invocations hv with hof | hv'
    · rw [isOf_eq_false hfree hm hp] at hof
      cases hof
    · exact ⟨v, hv', hasked⟩
  · intro thread i y hm
    obtain ⟨call, hc, hi, hu⟩ := h.looked hm
    obtain ⟨call', hc', same, hsettled⟩ := hspares.exists_call hc
    exact ⟨call', hc', same.session.trans hi, hsettled.trans hu⟩

theorem IsSound.begun (h : x.IsSound) {action : Action Handler} (hfree : x.isEngaged action = false)
    (hbegin : x.client.begin? action = some (w, stint)) (hA : x.looksTwice (.act action) = false) :
    (⟨w, x.stints ++ [stint]⟩ : Crowd Handler).IsSound := by
  have hb := Client.begins_of_begin? hbegin
  obtain ⟨hle, hlt⟩ := session_begun hb
  refine ⟨?_, ?_, asked_begun h hfree hb, ?_, looked_begun h hb, ?_, ?_, regular_begun h hb⟩
  · intro i
    refine (h.tally i).shifts (shifts_begun hb i) fun hl => ?_
    rw [locked_begun hb i] at hl
    omega
  · intro other hm
    rcases List.mem_append.1 hm with hm | hm
    · exact Nat.lt_of_lt_of_le (h.session other hm) hle
    · exact List.mem_singleton.1 hm ▸ hlt
  · -- An operation on its way to a session does not set out again.
    have hnew : ∀ {j k i i' : Nat} {point point' : ClaimPoint},
        x.stints[j]? = some (.claiming k i point) → point ≠ .ended →
        .claiming k i' point' ≠ stint := by
      rintro j k i i' point point' hj hp rfl
      have hof := isOf_eq_false hfree (List.mem_of_getElem? hj) hp
      cases hb with
      | claim hv hasked hs hopen =>
        exact absurd (beq_self_eq_true k) (Bool.eq_false_iff.1 hof)
    intro j j' k i i' point point' hj hj' hp hp'
    rcases getElem?_append_cases hj with ⟨rfl, hnow⟩ | hold <;>
      rcases getElem?_append_cases hj' with ⟨rfl, hnow'⟩ | hold'
    · rfl
    · exact absurd hnow (hnew hold' hp')
    · exact absurd hnow' (hnew hold hp)
    · exact h.single hold hold' hp hp'
  · have hnew : ∀ {j c : Nat} {other : Stint}, x.stints[j]? = some other →
        other.looksAt c = true → stint.looksAt c = false := by
      intro j c other hj hlooks
      refine Bool.eq_false_iff.2 fun hlooks' => ?_
      obtain ⟨thread, i, y, rfl, rfl⟩ := Stint.looksAt_iff.1 hlooks'
      have hany : x.stints.any (·.looksAt y.call) = true :=
        List.any_eq_true.2 ⟨other, List.mem_of_getElem? hj, hlooks⟩
      unfold looksTwice at hA
      dsimp only at hA
      rw [hbegin] at hA
      exact absurd hany (Bool.eq_false_iff.1 hA)
    intro j j' c one other hj hj' hlooks hlooks'
    rcases getElem?_append_cases hj with ⟨rfl, rfl⟩ | hold <;>
      rcases getElem?_append_cases hj' with ⟨rfl, rfl⟩ | hold'
    · rfl
    · exact absurd hlooks (Bool.eq_false_iff.1 (hnew hold' hlooks'))
    · exact absurd hlooks' (Bool.eq_false_iff.1 (hnew hold hlooks))
    · exact h.alone hold hold' hlooks hlooks'
  · intro thread i hm
    rcases List.mem_append.1 hm with hm | hm
    · exact h.call hm
    · obtain rfl := List.mem_singleton.1 hm
      cases hb

theorem IsSound.gone (h : x.IsSound) (hj : x.stints[j]? = some stint)
    (hg : x.client.Goes (x.isLockFree stint.session) stint w stint')
    (hA : x.claimsAt .dropped (.go j) = false) :
    (⟨w, x.stints.set j stint'⟩ : Crowd Handler).IsSound := by
  have hlength := hg.length_sessions
  refine ⟨fun i => (h.tally i).shifts (shifts_gone h hj hg i) (standing_of_locks hj hg hA), ?_,
    asked_gone h hj hg, ?_, looked_gone h hj hg, ?_, ?_, regular_gone h hg⟩
  · intro other hm
    rw [hlength]
    rcases List.mem_or_eq_of_mem_set hm with hm | rfl
    · exact h.session other hm
    · rw [hg.session]
      exact h.session stint (List.mem_of_getElem? hj)
  · -- A claim that goes on is the claim that it was.
    have hold : ∀ {k₁ k i : Nat} {point : ClaimPoint},
        (x.stints.set j stint')[k₁]? = some (.claiming k i point) → point ≠ .ended →
        ∃ point', x.stints[k₁]? = some (.claiming k i point') ∧ point' ≠ .ended := by
      intro k₁ k i point hk₁ hp
      rcases getElem?_set_cases hk₁ with ⟨rfl, rfl⟩ | ⟨-, hk₁⟩
      · obtain ⟨-, point', hp', rfl⟩ := hg.claiming hp
        exact ⟨point', hj, hp'⟩
      · exact ⟨point, hk₁, hp⟩
    intro j₁ j₂ k i i' point point' hj₁ hj₂ hp hp'
    obtain ⟨p₁, hj₁, hp₁⟩ := hold hj₁ hp
    obtain ⟨p₂, hj₂, hp₂⟩ := hold hj₂ hp'
    exact h.single hj₁ hj₂ hp₁ hp₂
  · have hold : ∀ {k c : Nat} {other : Stint}, (x.stints.set j stint')[k]? = some other →
        other.looksAt c = true → x.stints[k]? = some other := by
      intro k c other hk hlooks
      rcases getElem?_set_cases hk with ⟨rfl, rfl⟩ | ⟨-, hk⟩
      · exact absurd hlooks hg.not_looksAt
      · exact hk
    intro j₁ j₂ c one other hj₁ hj₂ hlooks hlooks'
    exact h.alone (hold hj₁ hlooks) (hold hj₂ hlooks') hlooks hlooks'
  · intro thread i hm
    rcases List.mem_or_eq_of_mem_set hm with hm | heq
    · exact h.call hm
    · exact Client.Goes.not_looked (heq ▸ hg)

/-- **Every careful move keeps a crowd sound.** -/
theorem IsSound.moved (h : x.IsSound) (hm : x.move? move = some y)
    (hA : x.CarefulMove move) : y.IsSound := by
  cases moves_of_move? hm with
  | acted hfree hb ha => exact h.acted hfree hb ha
  | begun hfree hb => exact h.begun hfree hb hA.1
  | gone hj hg => exact h.gone hj hg hA.2

theorem Careful.isSound (h : x.Careful) : x.IsSound := by
  induction h with
  | initial config fresh frontend =>
    refine ⟨?_, ?_, ?_, ?_, ?_, ?_, ?_, .empty⟩
    · intro i
      exact Tally.untouched
    · rintro stint ⟨⟩
    · rintro k i point ⟨⟩
    · rintro j j' k i i' point point' ⟨⟩
    · rintro thread i y ⟨⟩
    · rintro j j' c stint stint' ⟨⟩
    · rintro thread i ⟨⟩
  | move _ hA hm ih => exact ih.moved hm hA

end Kept

end Crowd

end Pubsub
