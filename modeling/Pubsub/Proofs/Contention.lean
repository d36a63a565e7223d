import Pubsub.Proofs.Tallies

/-!
# One operation at a time

A crowd in which no thread interrupts another does what a client does in a run: each action is
followed by all the lines of the stint that begins with it. So every client that a run leads to is
the client of a crowd that is **quiet**, in which no thread is on a stint, and that was **orderly**
all the way (`Crowd.exists_orderly`).

In a crowd whose threads are careful a session has one holder at most, and the flag says whether it
has one. The signal says the opposite, but for the threads that stand between the two lines that
write them (`Crowd.Careful.single_flight`).

Nothing in a release keeps a thread from claiming the session between the line that drops the flag
and the line that raises the signal. The signal that the release then raises stays up under the new
operation until that is settled (`Crowd.idle_under_query`).
-/

namespace Pubsub

variable {Handler : Type}

namespace Crowd

/-! ## Threads that do not interrupt each other -/

/-- The move is careful, and it claims no session before the release of it is over. -/
abbrev OrderlyMove (x : Crowd Handler) (move : Move Handler) : Prop :=
  x.CarefulMove move ∧ x.claimsAt .signalled move = false

/-- The crowds that orderly moves lead to. -/
abbrev Orderly : Crowd Handler → Prop := Reached OrderlyMove

theorem Orderly.careful {x : Crowd Handler} (h : x.Orderly) : x.Careful := h.mono fun _ _ hA => hA.1

/-- Is no thread on a stint? -/
def IsQuiet (x : Crowd Handler) : Prop := ∀ stint ∈ x.stints, stint.isOver = true

section Quiet

variable {stints : List Stint} {stint stint' : Stint} {w w' u : Client Handler} {i k c : Nat}

theorem place?_of_isOver (h : stint.isOver = true) : stint.place? = none := by
  cases stint with
  | claiming k i point =>
    cases point with
    | ended => rfl
    | _ => cases h
  | changing i change written => rfl
  | releasing thread i settlement point =>
    cases point with
    | ended => rfl
    | _ => cases h

theorem standing_of_quiet (h : ∀ stint ∈ stints, stint.isOver = true) (i : Nat) (p : Place) :
    standing stints i p = 0 := by
  refine standing_eq_zero_iff.2 ?_
  rintro stint hm ⟨-, hp⟩
  rw [place?_of_isOver (h stint hm)] at hp
  cases hp

/-- The lines that are left of the last stint, taken one after the other, lead to `w'`, and there is
nothing disorderly about them. -/
def Finishes (stints : List Stint) (w : Client Handler) (stint : Stint) (w' : Client Handler) :
    Prop :=
  ∃ n stint', stint'.isOver = true
    ∧ (⟨w, stints ++ [stint]⟩ : Crowd Handler).run? (List.replicate n (.go stints.length))
      = some ⟨w', stints ++ [stint']⟩
    ∧ ((⟨w, stints ++ [stint]⟩ : Crowd Handler).Orderly →
      (⟨w', stints ++ [stint']⟩ : Crowd Handler).Orderly)

theorem finishes_of_isOver (h : stint.isOver = true) : Finishes stints w stint w :=
  ⟨0, stint, h, rfl, id⟩

/-- One line, and then those that are left. -/
theorem Finishes.line (h : Finishes stints w' stint' u)
    (hquiet : ∀ stint ∈ stints, stint.isOver = true)
    (hl : w.line? (isLockFree ⟨w, stints ++ [stint]⟩ stint.session) stint = some (w', stint')) :
    Finishes stints w stint u := by
  obtain ⟨n, last, hover, hrun, horderly⟩ := h
  have hmove : (⟨w, stints ++ [stint]⟩ : Crowd Handler).move? (.go stints.length)
      = some ⟨w', stints ++ [stint']⟩ := by
    unfold move?
    dsimp only
    rw [List.getElem?_concat_length, Option.bind_some, hl, Option.map_some]
    simp
  refine ⟨n + 1, last, hover, ?_, ?_⟩
  · rw [List.replicate_succ, run?_cons, hmove]
    exact hrun
  · intro hw
    refine horderly (hw.move ⟨⟨rfl, ?_⟩, ?_⟩ hmove)
    all_goals
      unfold claimsAt
      dsimp only
      rw [List.getElem?_concat_length]
      split
      · rename_i heq
        obtain rfl := Option.some.inj heq
        rw [standing_append, standing_of_quiet hquiet]
        simp [Stint.StandsAt, Stint.place?]
      · rfl

/-- A release that nobody interrupts, from the mark of the call on. -/
theorem finishes_marked (hquiet : ∀ stint ∈ stints, stint.isOver = true) (w : Client Handler)
    (thread : Thread) (i : Nat) (settlement : Option Settlement) :
    Finishes stints w (.releasing thread i settlement .marked) (w.releaseMarked i settlement) :=
  have hover : Finishes stints _ (.releasing thread i settlement .ended)
      (w.releaseMarked i settlement) := finishes_of_isOver rfl
  have hsignalled : Finishes stints _ (.releasing thread i settlement .signalled) _ :=
    hover.line hquiet rfl
  have hdropped : Finishes stints _ (.releasing thread i settlement .dropped) _ :=
    hsignalled.line hquiet rfl
  have hrecorded : Finishes stints _ (.releasing thread i settlement .recorded) _ :=
    hdropped.line hquiet rfl
  hrecorded.line hquiet rfl

/-- A release that nobody interrupts. -/
theorem finishes_looked (hquiet : ∀ stint ∈ stints, stint.isOver = true) (w : Client Handler)
    (thread : Thread) (i : Nat) (settlement : Option Settlement) :
    Finishes stints w (.releasing thread i settlement .looked) (w.release i settlement) :=
  (finishes_marked hquiet _ thread i settlement).line hquiet rfl

/-- The lock is free while no other thread is on a stint. -/
theorem isLockFree_of_quiet (hquiet : ∀ stint ∈ stints, stint.isOver = true)
    (hlast : stint.holdsLock = false) (w : Client Handler) (i : Nat) :
    isLockFree (⟨w, stints ++ [stint]⟩ : Crowd Handler) i = true := by
  unfold isLockFree
  rw [Bool.not_eq_true', List.any_eq_false]
  intro other hm
  rw [Bool.not_eq_true, Bool.and_eq_false_iff]
  refine .inr ?_
  rcases List.mem_append.1 hm with hm | hm
  · refine Bool.eq_false_iff.2 fun hlock => ?_
    rcases Stint.holdsLock_iff.1 hlock with hp | hp <;>
      rw [place?_of_isOver (hquiet other hm)] at hp <;> cases hp
  · exact List.mem_singleton.1 hm ▸ hlast

/-- A claim that nobody interrupts, or its refusal. -/
theorem finishes_claiming (hquiet : ∀ stint ∈ stints, stint.isOver = true)
    {v : Invocation Handler} {s : Session} (hs : w.sessions[v.session]? = some s)
    (hopen : s.closed = false) (h : w.claimFor? k v = some w') :
    Finishes stints w (.claiming k v.session .opened) w' := by
  have hlock : isLockFree ⟨w, stints ++ [.claiming k v.session .opened]⟩ v.session = true :=
    isLockFree_of_quiet hquiet rfl w v.session
  have hover : ∀ u : Client Handler, Finishes stints u (.claiming k v.session .ended) u :=
    fun u => finishes_of_isOver rfl
  unfold Client.claimFor? at h
  rw [hs, Option.map_some] at h
  cases hb : s.busy with
  | true =>
    rw [Session.claim_of_busy hb, hopen] at h
    obtain rfl := Option.some.inj h
    refine (hover _).line hquiet ?_
    rw [show isLockFree _ (Stint.claiming k v.session .opened).session = true from hlock]
    exact Client.line?_of_busy hs hb
  | false =>
    rw [(Session.claim_eq_ok_iff s _).2 ⟨hopen, hb, rfl⟩] at h
    obtain rfl := Option.some.inj h
    have htouch : (w.touch v.session Session.raiseBusy).touch v.session Session.clearIdle
        = w.setSession v.session { s with busy := true, idle := false } := by
      rw [Client.touch_eq hs, Client.touch_setSession hs]
      rfl
    have hraised : Finishes stints (w.touch v.session Session.raiseBusy)
        (.claiming k v.session .raised) _ := (hover _).line hquiet rfl
    rw [htouch] at hraised
    have hlocked : Finishes stints w (.claiming k v.session .locked) _ := hraised.line hquiet rfl
    refine hlocked.line hquiet ?_
    rw [show isLockFree _ (Stint.claiming k v.session .opened).session = true from hlock]
    exact Client.line?_of_free hs hb

/-- A change of a setting that nobody interrupts. -/
theorem finishes_changing (hquiet : ∀ stint ∈ stints, stint.isOver = true) {s : Session}
    {change : SettingChange} (hs : w.sessions[i]? = some s) (hb : s.busy = false) :
    Finishes stints w (.changing i change false) (w.changeSetting i change).2 := by
  have hset : (w.changeSetting i change).2 = w.touch i fun s => (s.write change).2 := by
    unfold Client.changeSetting Session.set Session.checkIdle
    rw [hs, Client.touch_eq hs]
    dsimp only
    rw [hb]
    rfl
  rw [hset]
  have hover : ∀ u : Client Handler, Finishes stints u (.changing i change true) u :=
    fun u => finishes_of_isOver rfl
  exact (hover _).line hquiet rfl

end Quiet

variable {x : Crowd Handler} {w : Client Handler} {action : Action Handler}

/-- With no other thread on a stint, a stint that begins with an action may do at once what is left
of the action. -/
theorem finishes_of_begins {u : Client Handler} {stint : Stint} (hquiet : x.IsQuiet)
    (hb : x.client.Begins action u stint) (ha : x.client.act? action = some w) :
    Finishes x.stints u stint w := by
  cases hb with
  | claim hv hp hs hopen =>
    refine finishes_claiming hquiet hs hopen ?_
    rw [← Client.stepInvocation?_of_asked hv hp]
    exact ha
  | @change i s change hs hfree =>
    obtain rfl : (x.client.changeSetting i change).2 = w := Option.some.inj ha
    exact finishes_changing hquiet hs hfree
  | unbuilt hv hp hs hsessions hl ha' =>
    obtain rfl := Option.some.inj (ha'.symm.trans ha)
    exact finishes_marked hquiet u _ _ none
  | settle hc hu hspares hk ha' =>
    obtain rfl := Option.some.inj (ha'.symm.trans ha)
    exact finishes_looked hquiet u _ _ _

/-- No thread is in the way of a quiet crowd. -/
theorem isEngaged_of_isQuiet (hquiet : x.IsQuiet) (action : Action Handler) :
    x.isEngaged action = false := by
  unfold isEngaged
  rw [List.any_eq_false]
  intro stint hm
  rw [hquiet stint hm]
  simp

/-- **What an action does in a run, a crowd does whose threads do not interrupt each other**: the
action, followed by the lines of the stint that begins with it, if one does. -/
theorem exists_run?_of_act? (hquiet : x.IsQuiet) (ha : x.client.act? action = some w) :
    ∃ n y, x.run? (.act action :: List.replicate n (.go x.stints.length)) = some y
      ∧ y.client = w ∧ y.IsQuiet ∧ (x.Orderly → y.Orderly) := by
  have hfree := isEngaged_of_isQuiet hquiet action
  have hlooks : x.looksTwice (.act action) = false := by
    unfold looksTwice
    dsimp only
    split
    · rw [List.any_eq_false]
      intro stint hm hlooks
      obtain ⟨thread, i, y, rfl, -⟩ := Stint.looksAt_iff.1 hlooks
      cases hquiet _ hm
    · rfl
  cases hb : x.client.begin? action with
  | none =>
    have hmove : x.move? (.act action) = some ⟨w, x.stints⟩ := by
      unfold move?
      dsimp only
      rw [hfree, hb, ha]
      rfl
    refine ⟨0, ⟨w, x.stints⟩, ?_, rfl, hquiet, fun hx => hx.move ⟨⟨hlooks, rfl⟩, rfl⟩ hmove⟩
    rw [run?_cons, hmove]
    rfl
  | some begun =>
    obtain ⟨u, stint⟩ := begun
    have hmove : x.move? (.act action) = some ⟨u, x.stints ++ [stint]⟩ := by
      unfold move?
      dsimp only
      rw [hfree, hb]
      rfl
    obtain ⟨n, last, hover, hrun, horderly⟩ :=
      finishes_of_begins hquiet (Client.begins_of_begin? hb) ha
    refine ⟨n, ⟨w, x.stints ++ [last]⟩, ?_, rfl, ?_,
      fun hx => horderly (hx.move ⟨⟨hlooks, rfl⟩, rfl⟩ hmove)⟩
    · rw [run?_cons, hmove]
      exact hrun
    · intro other hm
      rcases List.mem_append.1 hm with hm | hm
      · exact hquiet other hm
      · exact List.mem_singleton.1 hm ▸ hover

/-- **A client in a run is a crowd that is quiet**, and was orderly all the way. -/
theorem exists_orderly (h : Client.Reachable w) :
    ∃ x : Crowd Handler, x.Orderly ∧ x.IsQuiet ∧ x.client = w := by
  induction h with
  | initial config fresh frontend =>
    exact ⟨ofClient (.initial config fresh frontend), .initial config fresh frontend,
      by rintro stint ⟨⟩, rfl⟩
  | act action _ _ ha ih =>
    obtain ⟨x, hx, hquiet, rfl⟩ := ih
    obtain ⟨n, y, -, hclient, hquiet', horderly⟩ := exists_run?_of_act? hquiet ha
    exact ⟨y, horderly hx, hquiet', hclient⟩

/-! ## Single flight -/

section SingleFlight

variable {x : Crowd Handler} {i : Nat} {s : Session}

/-- How many hold a session: operations that build their requests, calls that are not settled, and
threads that have raised the flag and will lower the signal, or have marked a call and will drop the
flag. -/
def holders (x : Crowd Handler) (i : Nat) : Nat :=
  x.client.claims i + standing x.stints i .raised + standing x.stints i .held

/-- What becomes of those who come to a busy session. Nothing is sent, and every session, call,
attempt and task stays as it was: all that is moved is the invocation that is refused, or the stint
that looks for the lock. -/
structure Refuses (x : Crowd Handler) (i : Nat) (s : Session) : Prop where
  /-- A change of a setting is refused. -/
  change : ∀ change, x.client.changeSetting i change = (.error .busy, x.client)
    ∧ x.move? (.act (.changeSetting i change)) = some x
  /-- An operation is refused by a closed session. -/
  closed : s.closed = true → ∀ {k : Nat} {v : Invocation Handler},
    x.client.invocations[k]? = some v → v.session = i → v.phase = .asked →
    x.isEngaged (.stepInvocation k) = false →
    x.move? (.act (.stepInvocation k))
      = some ⟨x.client.setInvocation k (.ended (.error .closed)), x.stints⟩
  /-- An operation goes for the lock of an open one. -/
  opened : s.closed = false → ∀ {k : Nat} {v : Invocation Handler},
    x.client.invocations[k]? = some v → v.session = i → v.phase = .asked →
    x.isEngaged (.stepInvocation k) = false →
    x.move? (.act (.stepInvocation k)) = some ⟨x.client, x.stints ++ [.claiming k i .opened]⟩
  /-- When it gets the lock, it is refused. -/
  locked : ∀ {j k : Nat}, x.stints[j]? = some (.claiming k i .opened) → x.isLockFree i = true →
    x.move? (.go j)
      = some ⟨x.client.setInvocation k (.ended (.error .busy)),
          x.stints.set j (.claiming k i .ended)⟩

/-- An application that changes a setting is on no stint. -/
theorem isEngaged_changeSetting (x : Crowd Handler) (i : Nat) (change : SettingChange) :
    x.isEngaged (.changeSetting i change) = false := by
  unfold isEngaged
  rw [List.any_eq_false]
  intro stint hm
  cases stint with
  | claiming k j point => simp [Stint.thread?, Client.isActionOf]
  | changing j change written => simp [Stint.thread?]
  | releasing thread j settlement point => cases thread <;> simp [Stint.thread?, Client.isActionOf]

/-- What begins when an operation comes to its session. -/
theorem begin?_of_asked {w : Client Handler} {k : Nat} {v : Invocation Handler}
    (hv : w.invocations[k]? = some v) (hp : v.phase = .asked)
    (hs : w.sessions[v.session]? = some s) :
    w.begin? (.stepInvocation k)
      = if s.closed then none else some (w, .claiming k v.session .opened) := by
  have hsettles : w.beginSettling? (.stepInvocation k) = none := by
    have hbrink : w.brink? (.stepInvocation k) = none := by
      show (w.invocationToBrink? k).map _ = none
      unfold Client.invocationToBrink? Client.invocationPhase?
      rw [hv, Option.map_some, hp]
      rfl
    unfold Client.beginSettling?
    rw [hbrink]
  show (w.beginOperation? k).or _ = _
  rw [Client.beginOperation?_of_asked hv hp hs, hsettles, Option.or_none]

theorem refuses_of_busy (hs : x.client.sessions[i]? = some s) (hb : s.busy = true) :
    x.Refuses i s := by
  refine ⟨?_, ?_, ?_, ?_⟩
  · intro change
    have hchange := Client.changeSetting_of_busy hs hb change
    refine ⟨hchange, ?_⟩
    have hbegin : x.client.begin? (.changeSetting i change) = none := by
      show x.client.beginChange? i change = none
      unfold Client.beginChange?
      rw [hs, Option.bind_some, if_pos hb]
    unfold move?
    dsimp only
    rw [isEngaged_changeSetting, hbegin]
    show some (⟨(x.client.changeSetting i change).2, x.stints⟩ : Crowd Handler) = some x
    rw [hchange]
  · rintro hclosed k v hv rfl hp hfree
    have hbegin := begin?_of_asked hv hp hs
    rw [if_pos hclosed] at hbegin
    have hact : x.client.act? (.stepInvocation k)
        = some (x.client.setInvocation k (.ended (.error .closed))) := by
      show x.client.stepInvocation? k = _
      rw [Client.stepInvocation?_of_asked hv hp]
      unfold Client.claimFor?
      rw [hs, Option.map_some, Session.claim_of_closed hclosed]
    unfold move?
    dsimp only
    rw [hfree, hbegin, hact]
    rfl
  · rintro hopen k v hv rfl hp hfree
    have hbegin := begin?_of_asked hv hp hs
    rw [if_neg (Bool.eq_false_iff.1 hopen)] at hbegin
    unfold move?
    dsimp only
    rw [hfree, hbegin]
    rfl
  · intro j k hj hlock
    have hline := Client.line?_of_busy (k := k) hs hb
    unfold move?
    dsimp only
    rw [hj, Option.bind_some,
      show x.isLockFree (Stint.claiming k i .opened).session = true from hlock, hline]
    rfl

/-- **Single flight.** Whatever careful threads do, and in whatever order:

* a session is busy exactly if it has one holder, and otherwise it has none;
* there are never two unsettled calls of a session;
* the signal on which closing waits is the opposite of the flag, except exactly while a thread
  stands between the two lines of a claim or of a release that write them;
* while it is busy, changes of settings and operations are refused. -/
theorem Careful.single_flight (h : x.Careful) (hs : x.client.sessions[i]? = some s) :
    (s.busy = true ↔ x.holders i = 1) ∧ (s.busy = false ↔ x.holders i = 0)
    ∧ (∀ (c d : Nat) (call call' : Call Handler), x.client.calls[c]? = some call →
        x.client.calls[d]? = some call' → call.session = i → call'.session = i →
        call.settled = false → call'.settled = false → c = d)
    ∧ (s.idle = s.busy
        ↔ standing x.stints i .raised + standing x.stints i .dropped = 1)
    ∧ (s.busy = true → x.Refuses i s)
    ∧ Error.busy.family = "ContextBusy" ∧ Error.closed.family = "RuntimeError" := by
  have ht := h.isSound.tally i
  have hone : x.client.claims i + standing x.stints i .locked + standing x.stints i .raised
      + standing x.stints i .held + standing x.stints i .dropped ≤ 1 := ht.one
  have hbusy : x.holders i = if s.busy then 1 else 0 := by
    rw [← Client.busy_flags hs]
    exact ht.busy
  have hidle : x.client.claims i + standing x.stints i .held + standing x.stints i .dropped
      = if s.idle then 0 else 1 := by
    rw [← Client.idle_flags hs]
    exact ht.idle
  refine ⟨?_, ?_, ?_, ?_, refuses_of_busy hs, rfl, rfl⟩
  · rw [hbusy]
    cases s.busy <;> simp
  · rw [hbusy]
    cases s.busy <;> simp
  · intro c d call call' hc hd hi hi' hu hu'
    exact Client.eq_of_claims_le_one (by omega) hc hd hi hi' hu hu'
  · -- Flag and signal are both up behind a claim, and both down behind a release.
    unfold holders at hbusy
    cases hb : s.busy <;> cases hi : s.idle <;> rw [hb] at hbusy <;> rw [hi] at hidle <;>
      simp only [Bool.false_eq_true, if_true, if_false] at hbusy hidle <;> simp <;> omega

/-- A session with which nobody has to do is free. -/
theorem Careful.free_of_engaged (h : x.Careful) (hz : (x.census i).engaged = 0)
    (hs : x.client.sessions[i]? = some s) : s.busy = false ∧ s.idle = true := by
  have ht := h.isSound.tally i
  have hbusy := ht.busy
  have hidle := ht.idle
  unfold Census.engaged at hz
  have hb : (x.census i).flags.busy = s.busy := Client.busy_flags hs
  have hi : (x.census i).flags.idle = s.idle := Client.idle_flags hs
  rw [hb] at hbusy
  rw [hi] at hidle
  constructor
  · cases hb : s.busy with
    | false => rfl
    | true =>
      rw [hb, if_pos rfl] at hbusy
      omega
  · cases hi : s.idle with
    | true => rfl
    | false =>
      rw [hi, if_neg Bool.false_ne_true] at hidle
      omega

/-- A blocking client before it does anything. -/
def blockingCrowd : Crowd Unit :=
  ofClient (.initial (Configuration.initial ⟨[]⟩ none) [] (Frontend.borrowing .blocking))

/-- An operation claims its session on a blocking client, and another one comes to it. -/
def twoQueries : List (Move Unit) :=
  [.act (.openSession ⟨.null, .null, .null, .null, false⟩ "u"), .act (.ask 0 .time .null none),
    .act (.ask 0 .time .null none), .act (.stepInvocation 0), .go 0, .go 0, .go 0,
    .act (.stepInvocation 1)]

/-- Of two operations on a session, the one that gets the lock while the other builds its request is
refused. -/
theorem single_flight_twoQueries :
    ∃ (x : Crowd Unit) (s : Session), x.Careful ∧ x.client.sessions[0]? = some s ∧ s.busy = true
      ∧ x.holders 0 = 1
      ∧ x.move? (.go 1)
        = some ⟨x.client.setInvocation 1 (.ended (.error .busy)),
            x.stints.set 1 (.claiming 1 0 .ended)⟩ := by
  have hrun : blockingCrowd.runWith? CarefulMove twoQueries = some _ := rfl
  have hcareful : Careful _ := .run (.initial _ [] (Frontend.borrowing .blocking)) hrun
  obtain ⟨hholders, -, -, -, hrefuses, -⟩ := hcareful.single_flight (i := 0) rfl
  exact ⟨_, _, hcareful, rfl, rfl, hholders.1 rfl, (hrefuses rfl).locked (j := 1) rfl rfl⟩

/-- A client with a reactor before it does anything. -/
def reactorCrowd : Crowd Unit :=
  ofClient (.initial (Configuration.initial ⟨[]⟩ none) [] (Frontend.borrowing .reactor))

/-- On a client with a reactor, the application asks for an operation when the release of the one
before it has dropped the flag and not yet raised the signal. -/
def earlyQuery : List (Move Unit) :=
  [.act (.openSession ⟨.null, .null, .null, .null, false⟩ "u"), .act (.ask 0 .time .null none),
    .act (.stepInvocation 0), .go 0, .go 0, .go 0, .act (.stepInvocation 0),
    .act (.stepInvocation 0), .act .pollReactor, .act .stepReactor, .act .stepReactor,
    .act .stepReactor, .act .stepReactor, .act .stepReactor, .act .stepReactor,
    .act (.postAttempt 0 (.ok (.reply 200 (utf8Bytes "[1]")))), .act .stepReactor,
    .act .stepReactor, .go 1, .go 1, .go 1, .act (.ask 0 .time .null none),
    .act (.stepInvocation 1), .go 2, .go 2, .go 2, .go 1, .go 1, .act (.stepInvocation 1),
    .act (.stepInvocation 1)]

/-- **A session can be busy and say that it is idle**, while its call is in flight and all threads
are through with claiming and releasing it. -/
theorem idle_under_query :
    ∃ (x : Crowd Unit) (s : Session) (call : Call Unit), Reached (fun _ _ => True) x
      ∧ x.IsQuiet ∧ x.client.sessions[0]? = some s ∧ s.busy = true ∧ s.idle = true
      ∧ x.client.calls[1]? = some call ∧ call.session = 0 ∧ call.settled = false := by
  have hfacts : (reactorCrowd.runWith? (fun _ _ => True) earlyQuery).any (fun x =>
      x.stints.all Stint.isOver && (x.client.sessions[0]?).any (fun s => s.busy && s.idle)
        && (x.client.calls[1]?).any (fun call => call.session == 0 && !call.settled)) = true := by
    decide +kernel
  obtain ⟨x, hrun, hfacts⟩ := (Option.any_eq_true _ _).1 hfacts
  simp only [Option.any_eq_true, Bool.and_eq_true, beq_iff_eq, Bool.not_eq_true',
    List.all_eq_true] at hfacts
  obtain ⟨⟨hquiet, s, hs, hbusy, hidle⟩, call, hcall, hsession, hu⟩ := hfacts
  exact ⟨x, s, call, .run (.initial _ [] _) hrun, hquiet, hs, hbusy, hidle, hcall, hsession, hu⟩

end SingleFlight

end Crowd

end Pubsub
