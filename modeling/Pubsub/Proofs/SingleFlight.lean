import Pubsub.Proofs.Bookkeeping

/-!
# One operation at a time

An operation holds its session from its claim until its request could not be built or its call is
settled. Both are counted here: the **claims** on a session are its operations that build their
requests and its calls that are not settled. In a run of a client a claim and a release are one
action each, and after every action the flag `busy` says that there is one claim; when it is not set
there is none. The invariant that carries this through a run is `Ledger.IsSound`, and each kind of
entry keeps it.

What a session shows while threads stand between the lines of a claim or a release is counted in
`Pubsub.Proofs.Tallies`.
-/

namespace Pubsub

variable {Handler : Type} {P : Outcome → Prop}

namespace Ledger

/-- How many calls of a session are not settled. -/
def unsettled (l : Ledger Handler) (i : Nat) : Nat :=
  l.calls.countP fun call => call.session == i && !call.settled

/-- How many claims on a session are outstanding. -/
def claims (l : Ledger Handler) (i : Nat) : Nat := l.building i + l.unsettled i

/-- Is there a session of this number, and is it busy? -/
def isBusy (l : Ledger Handler) (i : Nat) : Bool := (l.sessions[i]?).any (·.busy)

/-- A busy session has one claim on it and the others have none, and the signal on which closing
waits is the opposite of the flag. -/
structure IsSound (l : Ledger Handler) : Prop where
  claims : ∀ i, l.claims i = if l.isBusy i then 1 else 0
  idle : ∀ (i : Nat) (s : Session), l.sessions[i]? = some s → s.idle = !s.busy

/-! ## What entries do to flags and claims -/

section Writes

variable {l : Ledger Handler} {i c : Nat} {s t : Session} {call : Call Handler}

theorem isBusy_of_getElem? (hs : l.sessions[i]? = some s) : l.isBusy i = s.busy := by
  unfold isBusy
  rw [hs]
  rfl

theorem isBusy_setSession (hs : l.sessions[i]? = some s) (t : Session) (j : Nat) :
    (l.setSession i t).isBusy j = if i = j then t.busy else l.isBusy j := by
  obtain ⟨hlt, -⟩ := List.getElem?_eq_some_iff.1 hs
  unfold isBusy setSession
  dsimp only
  by_cases hij : i = j
  · subst hij
    rw [List.getElem?_set_self hlt, if_pos rfl]
    rfl
  · rw [List.getElem?_set_ne hij, if_neg hij]

/-- The signal and the flag agree in every session if they agree in the one that is written. -/
theorem idle_setSession (h : l.IsSound) (ht : t.idle = !t.busy) (j : Nat) (s' : Session)
    (hs' : (l.setSession i t).sessions[j]? = some s') : s'.idle = !s'.busy := by
  change (l.sessions.set i t)[j]? = some s' at hs'
  rw [List.getElem?_set] at hs'
  split at hs'
  · split at hs'
    · cases hs'
      exact ht
    · cases hs'
  · exact h.idle j s' hs'

/-- A call whose session and settlement are kept is counted as it was. -/
theorem unsettled_setCall (hc : l.calls[c]? = some call) {call' : Call Handler}
    (hs : call'.session = call.session) (hu : call'.settled = call.settled) (s : Session)
    (j : Nat) : (l.setCall c call' s).unsettled j = l.unsettled j := by
  have hcount := countP_set_add (p := fun call : Call Handler => call.session == j && !call.settled)
    call' hc
  rw [hs, hu] at hcount
  exact Nat.add_right_cancel hcount

/-- A call that is settled is one less of those that were not. -/
theorem unsettled_settle (hc : l.calls[c]? = some call) (hu : call.settled = false) (s : Session)
    (outcome : Option Result) (j : Nat) :
    (l.settle c call s outcome).unsettled j + (if call.session = j then 1 else 0)
      = l.unsettled j := by
  have hcount := countP_set_add (p := fun call : Call Handler => call.session == j && !call.settled)
    { call with settled := true } hc
  simp only [hu, Bool.not_false, Bool.not_true, Bool.and_true, Bool.and_false, beq_iff_eq,
    Bool.false_eq_true, if_false, Nat.add_zero] at hcount
  exact hcount

/-- A new call is one more. -/
theorem unsettled_addCall (l : Ledger Handler) (hu : call.settled = false) (j : Nat) :
    (l.addCall call).unsettled j = l.unsettled j + if call.session = j then 1 else 0 := by
  unfold unsettled addCall
  rw [List.countP_append]
  simp [hu]

/-- A call that is not settled is a claim on its session. -/
theorem unsettled_pos (hc : l.calls[c]? = some call) (hu : call.settled = false) :
    0 < l.unsettled call.session := by
  refine List.countP_pos_iff.2 ⟨call, List.mem_of_getElem? hc, ?_⟩
  simp [hu]

end Writes

/-! ## Every entry keeps a ledger sound -/

namespace IsSound

variable {l l' : Ledger Handler} {i c : Nat} {s t : Session} {call : Call Handler}

theorem empty : (Ledger.empty : Ledger Handler).IsSound :=
  ⟨fun _ => rfl, fun i s hs => by cases hs⟩

/-- A session on which there is a claim is busy, and there is no other claim on it. -/
theorem of_claims_pos (h : l.IsSound) (hs : l.sessions[i]? = some s) (hp : 0 < l.claims i) :
    s.busy = true ∧ l.claims i = 1 := by
  have hc := h.claims i
  rw [isBusy_of_getElem? hs] at hc
  cases hb : s.busy with
  | true =>
    rw [hb] at hc
    exact ⟨rfl, hc⟩
  | false =>
    rw [hb] at hc
    exact absurd hc (Nat.ne_of_gt hp)

/-- A session that is open for one more claim has none. -/
theorem claims_eq_zero (h : l.IsSound) (hs : l.sessions[i]? = some s) (hb : s.busy = false) :
    l.claims i = 0 := by
  rw [h.claims i, isBusy_of_getElem? hs, hb]
  rfl

theorem opened (h : l.IsSound) (hn : s.IsNew) :
    ({ l with sessions := l.sessions ++ [s] } : Ledger Handler).IsSound := by
  constructor
  · intro j
    -- The new session is not busy, and neither is a session that does not exist.
    have hbusy : ({ l with sessions := l.sessions ++ [s] } : Ledger Handler).isBusy j
        = l.isBusy j := by
      unfold isBusy
      dsimp only
      rw [List.getElem?_append]
      split
      · rfl
      · rename_i hj
        rw [List.getElem?_eq_none (Nat.not_lt.1 hj)]
        cases hs : [s][j - l.sessions.length]? with
        | none => rfl
        | some s' =>
          obtain rfl := List.mem_singleton.1 (List.mem_of_getElem? hs)
          exact hn.busy
    rw [hbusy]
    exact h.claims j
  · intro j s' hs'
    change (l.sessions ++ [s])[j]? = some s' at hs'
    rcases List.mem_append.1 (List.mem_of_getElem? hs') with hm | hm
    · obtain ⟨k, hk⟩ := List.getElem?_of_mem hm
      exact h.idle k s' hk
    · obtain rfl := List.mem_singleton.1 hm
      rw [hn.idle, hn.busy]
      rfl

/-- A session may be rewritten freely as long as its flag and its signal stay. -/
theorem setSession (h : l.IsSound) (hs : l.sessions[i]? = some s) (hb : t.busy = s.busy)
    (hi : t.idle = s.idle) : (l.setSession i t).IsSound := by
  refine ⟨?_, idle_setSession h ?_⟩
  · intro j
    rw [isBusy_setSession hs t j]
    split
    · rename_i hij
      subst hij
      rw [hb, ← isBusy_of_getElem? hs]
      exact h.claims i
    · exact h.claims j
  · rw [hb, hi]
    exact h.idle i s hs

theorem claimed (h : l.IsSound) (hs : l.sessions[i]? = some s) (ht : s.claim = .ok t) :
    ((l.setSession i t).beginBuilding i).IsSound := by
  obtain ⟨-, hb, rfl⟩ := (Session.claim_eq_ok_iff s t).1 ht
  have hzero := h.claims_eq_zero hs hb
  refine ⟨?_, idle_setSession h rfl⟩
  intro j
  have hj := h.claims j
  show l.building j + (if i = j then 1 else 0) + l.unsettled j
    = if (l.setSession i _).isBusy j then 1 else 0
  rw [isBusy_setSession hs]
  by_cases hij : i = j
  · subst hij
    unfold Ledger.claims at hzero
    rw [if_pos rfl, if_pos rfl, if_pos rfl]
    omega
  · rw [if_neg hij, if_neg hij, ← hj]
    rfl

theorem unbuilt (h : l.IsSound) (hs : l.sessions[i]? = some s) (hb : 0 < l.building i) :
    ((l.setSession i (s.release none)).endBuilding i).IsSound := by
  obtain ⟨-, hone⟩ := h.of_claims_pos hs (Nat.add_pos_left hb _)
  refine ⟨?_, idle_setSession h rfl⟩
  intro j
  have hj := h.claims j
  show l.building j - (if i = j then 1 else 0) + l.unsettled j
    = if (l.setSession i (s.release none)).isBusy j then 1 else 0
  rw [isBusy_setSession hs]
  by_cases hij : i = j
  · subst hij
    unfold Ledger.claims at hone
    rw [if_pos rfl, if_pos rfl, Session.busy_release, if_neg Bool.false_ne_true]
    omega
  · rw [if_neg hij, if_neg hij, ← hj]
    rfl

theorem accepted (h : l.IsSound) (hb : 0 < l.building i) (hu : call.settled = false)
    (hi : call.session = i) : ((l.endBuilding i).addCall call).IsSound := by
  refine ⟨?_, h.idle⟩
  intro j
  have hj := h.claims j
  show l.building j - (if i = j then 1 else 0) + ((l.endBuilding i).addCall call).unsettled j
    = if l.isBusy j then 1 else 0
  rw [unsettled_addCall _ hu, hi, ← hj]
  -- The operation is counted as a call from now on, and not as building any more.
  show _ + (l.unsettled j + _) = l.building j + l.unsettled j
  by_cases hij : i = j
  · subst hij
    rw [if_pos rfl]
    omega
  · rw [if_neg hij]
    rfl

theorem setCall (h : l.IsSound) (hc : l.callOn? c = some (call, s)) {call' : Call Handler}
    (hs' : call'.session = call.session) (hu : call'.settled = call.settled)
    (hb : t.busy = s.busy) (hi : t.idle = s.idle) : (l.setCall c call' t).IsSound := by
  obtain ⟨hcall, hs⟩ := callOn?_eq_some_iff.1 hc
  have hset := h.setSession hs hb hi
  rw [← hs'] at hset
  refine ⟨?_, hset.idle⟩
  intro j
  refine Eq.trans ?_ (hset.claims j)
  show l.building j + (l.setCall c call' t).unsettled j = l.building j + l.unsettled j
  rw [unsettled_setCall hcall hs' hu]

/-- **Settling a call gives its session back**, and takes the one claim there was. -/
theorem settle (h : l.IsSound) (hc : l.callOn? c = some (call, s)) (hu : call.settled = false)
    (outcome : Option Result) : (l.settle c call s outcome).IsSound := by
  obtain ⟨hcall, hs⟩ := callOn?_eq_some_iff.1 hc
  obtain ⟨-, hone⟩ := h.of_claims_pos hs (Nat.add_pos_right _ (unsettled_pos hcall hu))
  refine ⟨?_, idle_setSession (i := call.session) h rfl⟩
  intro j
  have hj := h.claims j
  have hcount := unsettled_settle hcall hu s outcome j
  show l.building j + (l.settle c call s outcome).unsettled j
    = if (l.setSession call.session (s.release outcome)).isBusy j then 1 else 0
  rw [isBusy_setSession hs]
  unfold Ledger.claims at hj hone
  -- The call was the only claim on its session, and is none on any other.
  by_cases hij : call.session = j
  · subst hij
    rw [if_pos rfl] at hcount ⊢
    rw [Session.busy_release, if_neg Bool.false_ne_true]
    omega
  · rw [if_neg hij] at hcount ⊢
    omega

/-- **Every entry keeps a ledger sound.** -/
theorem entry (h : l.IsSound) (he : Entry P l l') : l'.IsSound := by
  cases he with
  | blank => exact h
  | opened hn => exact h.opened hn
  | changed hs change ht =>
    obtain ⟨-, ht⟩ := Session.set_eq_ok ht
    exact h.setSession hs (by rw [ht]) (by rw [ht])
  | cleared hs cursor _ => exact h.setSession hs rfl rfl
  | closed hs => exact h.setSession hs rfl rfl
  | claimed hs ht => exact h.claimed hs ht
  | unbuilt hs hb => exact h.unbuilt hs hb
  | accepted hs hb request callback => exact h.accepted hb rfl rfl
  | resumed now fed hc hP hr => exact h.setCall hc rfl rfl rfl rfl
  | @ended c call s step outcome now fed hc hu =>
    have hafter : (l.setCall c (call.after step) (s.after step)).IsSound :=
      h.setCall hc rfl rfl rfl rfl
    exact hafter.settle (callOn?_setCall hc (call.after step) rfl (s.after step)) hu outcome
  | abandoned hc hu => exact h.settle hc hu none

end IsSound

end Ledger

/-- Elements of a list that are counted, at different places, are counted twice. -/
theorem two_le_countP {α : Type} {p : α → Bool} {xs : List α} {i j : Nat} {x y : α} (hij : i < j)
    (hi : xs[i]? = some x) (hj : xs[j]? = some y) (hx : p x = true) (hy : p y = true) :
    2 ≤ xs.countP p := by
  have hbefore : 0 < (xs.take j).countP p := by
    refine List.countP_pos_iff.2 ⟨x, List.mem_of_getElem? (i := i) ?_, hx⟩
    rw [List.getElem?_take_of_lt hij]
    exact hi
  have hafter : 0 < (xs.drop j).countP p := by
    refine List.countP_pos_iff.2 ⟨y, List.mem_of_getElem? (i := 0) ?_, hy⟩
    rw [List.getElem?_drop]
    exact hj
  rw [← List.take_append_drop j xs, List.countP_append]
  exact Nat.add_le_add hbefore hafter

namespace Client

variable {w : Client Handler} {i : Nat} {s : Session}

/-- How many claims on a session are outstanding: operations that build their requests, and calls
that are not settled. -/
def claims (w : Client Handler) (i : Nat) : Nat :=
  w.building i + w.calls.countP fun call => call.session == i && !call.settled

theorem Reachable.isSound (h : Reachable w) : w.ledger.IsSound :=
  Reachable.ledger .empty (fun h he => h.entry he) h

/-- The flag of a session says that there is one claim on it, and its absence that there is none. -/
theorem Reachable.claims_eq (h : Reachable w) (hs : w.sessions[i]? = some s) :
    w.claims i = if s.busy then 1 else 0 := by
  rw [← Ledger.isBusy_of_getElem? (l := w.ledger) hs]
  exact h.isSound.claims i

/-- Who has a claim on a busy session: an operation that builds its request, or a call that is not
settled. -/
theorem Reachable.exists_claim (h : Reachable w) (hs : w.sessions[i]? = some s)
    (hb : s.busy = true) :
    (∃ (k : Nat) (v : Invocation Handler), w.invocations[k]? = some v ∧ v.phase = .claimed
      ∧ v.session = i)
    ∨ ∃ (c : Nat) (call : Call Handler), w.calls[c]? = some call ∧ call.session = i
      ∧ call.settled = false := by
  have hclaims := h.claims_eq hs
  rw [hb, if_pos rfl] at hclaims
  unfold claims building at hclaims
  by_cases hbuilding : 0 < w.invocations.countP fun v => v.session == i && v.phase.isBuilding
  · obtain ⟨v, hv, hp⟩ := List.countP_pos_iff.1 hbuilding
    obtain ⟨k, hv⟩ := List.getElem?_of_mem hv
    rw [Bool.and_eq_true, beq_iff_eq] at hp
    refine .inl ⟨k, v, hv, ?_, hp.1⟩
    unfold InvocationPhase.isBuilding at hp
    split at hp
    · assumption
    · cases hp.2
  · have hcarrying : 0 < w.calls.countP fun call => call.session == i && !call.settled := by omega
    obtain ⟨call, hm, hp⟩ := List.countP_pos_iff.1 hcarrying
    obtain ⟨c, hc⟩ := List.getElem?_of_mem hm
    rw [Bool.and_eq_true, beq_iff_eq, Bool.not_eq_true'] at hp
    exact .inr ⟨c, call, hc, hp⟩

/-- Two calls of a session that are not settled are one, if there is one claim on it at most. -/
theorem eq_of_claims_le_one (h : w.claims i ≤ 1) {c d : Nat} {call call' : Call Handler}
    (hc : w.calls[c]? = some call) (hd : w.calls[d]? = some call') (hi : call.session = i)
    (hi' : call'.session = i) (hu : call.settled = false) (hu' : call'.settled = false) :
    c = d := by
  have hle : w.calls.countP (fun other => other.session == i && !other.settled) ≤ 1 :=
    Nat.le_trans (Nat.le_add_left _ (w.building i)) h
  rcases Nat.lt_trichotomy c d with hlt | heq | hgt
  · have htwo := two_le_countP (p := fun other : Call Handler =>
      other.session == i && !other.settled) hlt hc hd (by simp [hi, hu]) (by simp [hi', hu'])
    omega
  · exact heq
  · have htwo := two_le_countP (p := fun other : Call Handler =>
      other.session == i && !other.settled) hgt hd hc (by simp [hi', hu']) (by simp [hi, hu])
    omega

/-- A change of a setting that is asked for while the session is busy is not made. -/
theorem changeSetting_of_busy (hs : w.sessions[i]? = some s) (hb : s.busy = true)
    (setting : SettingChange) : w.changeSetting i setting = (.error .busy, w) := by
  unfold changeSetting setSession
  rw [hs]
  dsimp only
  rw [Session.set_of_busy hb, set_of_getElem?_eq_some hs]

end Client

end Pubsub
