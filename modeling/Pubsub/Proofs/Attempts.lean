import Pubsub.Proofs.Courses

/-!
# One outcome for every attempt

Several requests of one call may be on their way at once: an attempt whose time is over stays in the
pool, and its response may come while a later attempt is made, or a retry is waited for. None of
this confuses the cycle. Each attempt is answered once, by its response or by its time; only what
the attempt made last came to is fed; a cycle that waits for a timer is resumed when that timer goes
off, and by nothing else.

A response that comes after the time of its attempt was over is dropped where it is taken. Nothing
that an application could see depends on it.
-/

namespace Pubsub

variable {Handler : Type}

/-! ## What a course says of outcomes -/

/-- The outcomes that are fed to a cycle are those of the attempts it made, each at its time. -/
structure WellFed (events : List CallEvent) : Prop where
  /-- No attempt is answered twice, by its response or by its time. -/
  answeredOnce : (events.filterMap CallEvent.answered?).Nodup
  /-- An outcome is fed when the attempt made last has come to it, and nothing happened between. -/
  latest : ∀ {before after : List CallEvent} {outcome : Outcome},
    events = before ++ .resumed (some outcome) :: after →
    ∃ first a, ∃ sent : Bool, ∃ answer,
      before = first ++ .attempted a :: (if sent then [.submitted a] else []) ++ [answer]
      ∧ (answer = .arrived a outcome ∨ answer = .expired a outcome)
  /-- A cycle is resumed without an outcome at its start, and when the timer it waits for has gone
  off. -/
  rested : ∀ {before after : List CallEvent}, events = before ++ .resumed none :: after →
    before = [.started] ∨ ∃ first n, before = first ++ [.slept n, .woken n]
  /-- While it waits for a timer, all that can happen is that this timer goes off, and then that
  the cycle is resumed. -/
  asleep : ∀ {before after : List CallEvent} {n : Nat}, events = before ++ .slept n :: after →
    after = [] ∨ after = [.woken n] ∨ ∃ rest, after = .woken n :: .resumed none :: rest
  /-- No timer goes off twice. -/
  wokenOnce : (events.filterMap CallEvent.woken?).Nodup

namespace Course

variable {events before after : List CallEvent} {event event' : CallEvent} {stage : Stage}

/-- Of two events that follow each other, the second one leads on from where the first one led. -/
theorem of_consecutive (h : Course (before ++ event :: event' :: after) stage) :
    ∃ earlier middle later : Stage, earlier.Next event middle ∧ middle.Next event' later := by
  have hsplit : before ++ event :: event' :: after = (before ++ [event]) ++ event' :: after := by
    simp
  rw [hsplit] at h
  obtain ⟨middle, later, hc, hn', -⟩ := h.of_mid
  obtain ⟨earlier, -, hn⟩ := hc.of_concat
  exact ⟨earlier, middle, later, hn, hn'⟩

/-- **A course feeds well.** -/
theorem wellFed (h : Course events stage)
    (ha : (events.filterMap CallEvent.answered?).Nodup)
    (hw : (events.filterMap CallEvent.woken?).Nodup) : WellFed events := by
  refine ⟨ha, ?_, ?_, ?_, hw⟩
  · rintro before after outcome rfl
    obtain ⟨earlier, later, hc, hn, -⟩ := h.of_mid
    cases hn
    exact hc.of_ready_some
  · rintro before after rfl
    obtain ⟨earlier, later, hc, hn, -⟩ := h.of_mid
    cases hn
    exact hc.of_ready_none
  · rintro before after n rfl
    cases after with
    | nil => exact Or.inl rfl
    | cons event after =>
      obtain ⟨_, _, _, hn, hn'⟩ := h.of_consecutive
      cases hn
      cases hn'
      refine Or.inr ?_
      cases after with
      | nil => exact Or.inl rfl
      | cons event after =>
        have hsplit : before ++ .slept n :: .woken n :: event :: after
            = (before ++ [.slept n]) ++ .woken n :: event :: after := by simp
        rw [hsplit] at h
        obtain ⟨_, _, _, hn, hn'⟩ := h.of_consecutive
        cases hn
        cases hn'
        exact Or.inr ⟨after, rfl⟩

end Course

/-! ## What feeds a cycle -/

namespace Relay

variable {clearing : Prop} {r r' : Relay Handler} {event : Option (Nat × CallEvent)} {c : Nat}
  {call call' : Call Handler}

/-- A call whose place is taken by itself, or by itself settled, keeps its cycle. -/
theorem cycle_of_set {calls : List (Call Handler)} {d : Nat} {other other' : Call Handler}
    (hd : calls[d]? = some other) (hcycle : other'.cycle = other.cycle)
    (hc : calls[c]? = some call) (hc' : (calls.set d other')[c]? = some call') :
    call'.cycle = call.cycle := by
  by_cases hdc : d = c
  · subst hdc
    rw [List.getElem?_set_self (List.getElem?_eq_some_iff.1 hd).1] at hc'
    rw [← Option.some.inj hc', hcycle, Option.some.inj (hd.symm.trans hc)]
  · rw [List.getElem?_set_ne hdc] at hc'
    rw [Option.some.inj (hc.symm.trans hc')]

/-- **Only a move that is said to resume a cycle makes a step of it.** -/
theorem Move.cycle (hm : Move clearing r event r') (hc : r.calls[c]? = some call)
    (hc' : r'.calls[c]? = some call') :
    call'.cycle = call.cycle
      ∨ ∃ fed cursor now step, event = some (c, .resumed fed)
        ∧ r.cursors[call.session]? = some cursor
        ∧ call.cycle.resume? cursor now fed = some step ∧ call'.cycle = step.cycle := by
  have hsame : ∀ {other : Call Handler}, r.calls[c]? = some other → other.cycle = call.cycle := by
    intro other ho
    rw [Option.some.inj (hc.symm.trans ho)]
  cases hm with
  | abandoned hb hd hn => exact Or.inl (cycle_of_set hd (by rfl) hc hc')
  | declined hclosed ha hb ho hu hd => exact Or.inl (cycle_of_set hd (by rfl) hc hc')
  | refused hs ho hu hd => exact Or.inl (cycle_of_set hd (by rfl) hc hc')
  | @resumed d other cursor step b settled next rest now fed hb hd hcursor hf hr hn =>
    by_cases hdc : d = c
    · subst hdc
      obtain rfl : other = call := Option.some.inj (hd.symm.trans hc)
      have hself := List.getElem?_set_self (a := { other with cycle := step.cycle, settled })
        (List.getElem?_eq_some_iff.1 hd).1
      refine Or.inr ⟨fed, cursor, now, step, rfl, hcursor, hr, ?_⟩
      rw [← Option.some.inj (hself.symm.trans hc')]
    · refine Or.inl (hsame ?_)
      exact (List.getElem?_set_ne hdc).symm.trans hc'
  | accepted hi request policy callback =>
    have hlt := (List.getElem?_eq_some_iff.1 hc).1
    exact Or.inl (hsame ((List.getElem?_append_left hlt).symm.trans hc'))
  | still => exact Or.inl (hsame hc')
  | opened => exact Or.inl (hsame hc')
  | cleared => exact Or.inl (hsame hc')
  | passed => exact Or.inl (hsame hc')
  | left => exact Or.inl (hsame hc')
  | slept => exact Or.inl (hsame hc')
  | attempted => exact Or.inl (hsame hc')
  | submitted => exact Or.inl (hsame hc')
  | arrived => exact Or.inl (hsame hc')
  | expired => exact Or.inl (hsame hc')
  | dropped => exact Or.inl (hsame hc')

end Relay

/-! ## Late responses -/

namespace Client

variable {w w' : Client Handler} {a c : Nat} {attempt : Attempt} {answer : Except Error Outcome}

/-- An attempt that is not settled is awaited by the call that it was made for. -/
theorem mem_batons_of_attempt (ha : w.attempts[a]? = some attempt) (hu : attempt.settled = false) :
    (attempt.call, Baton.awaiting a) ∈ w.batons := by
  refine mem_batons_iff.2 (Or.inr (Or.inr (Or.inr (Or.inr (Or.inr ⟨a, attempt, ha, ?_⟩)))))
  unfold Attempt.baton?
  rw [hu]
  rfl

/-- A step on the way of a response: its worker hands it to the reactor, and the reactor takes it
out of its queue. A reactor that was told to stop takes nothing, so no response reaches it. -/
inductive Delivers (w : Client Handler) (a : Nat) (answer : Except Error Outcome)
    (w' : Client Handler) : Prop where
  | posted (hs : w.reactor.stopped = false) (h : w.act? (.postAttempt a answer) = some w')
  | taken {rest : List (Command Job)} (hw : w.work = .none) (hp : w.reactor.phase = .draining)
      (hq : w.reactor.queue = .run (.arrive a answer) :: rest) (h : w.act? .stepReactor = some w')

/-- **A late response changes nothing**: the delivery of a response to a settled attempt leaves
sessions, calls and journal as they are, and the thread of the reactor at rest. -/
theorem Delivers.of_settled (h : w.Delivers a answer w')
    (hs : ∀ attempt, w.attempts[a]? = some attempt → attempt.settled = true) :
    w'.sessions = w.sessions ∧ w'.calls = w.calls ∧ w'.journal = w.journal
      ∧ w'.work = w.work := by
  cases h with
  | posted hstopped h =>
    unfold act? postAttempt? at h
    dsimp only at h
    split at h
    · split at h
      · split at h
        · cases h
          exact ⟨rfl, rfl, rfl, rfl⟩
        · rename_i hr
          rw [Reactor.stopped_of_call_eq_error hr] at hstopped
          cases hstopped
      · cases h
    · cases h
  | @taken rest hw hp hq h =>
    have hstep : w.reactor.step? w.clock
        = some ({ w.reactor with queue := rest }, some (.arrive a answer)) := by
      simp [Reactor.step?, Reactor.execute, hp, hq]
    have hnone : ({ w with reactor := { w.reactor with queue := rest } } :
        Client Handler).settleAttempt? a = none := settleAttempt?_eq_none hs
    have hact : w.act? .stepReactor = some (({ w with
        reactor := { w.reactor with queue := rest } } : Client Handler).beginJob
          (.arrive a answer)) := by
      unfold act? stepReactor?
      rw [hw]
      dsimp only
      rw [hstep]
    unfold beginJob at hact
    dsimp only at hact
    rw [hnone] at hact
    obtain rfl := Option.some.inj (h.symm.trans hact)
    exact ⟨rfl, rfl, rfl, rfl⟩

/-- Abandoning a call shows nothing and records no result. -/
theorem kept_of_abandonCall (w : Client Handler) (c : Nat) :
    (w.abandonCall c).journal = w.journal
      ∧ (w.abandonCall c).sessions.map (fun s => (s.cursor, s.lastResult))
        = w.sessions.map fun s => (s.cursor, s.lastResult) := by
  cases hc : w.callOn? c with
  | none =>
    unfold abandonCall
    rw [hc]
    exact ⟨rfl, rfl⟩
  | some found =>
    obtain ⟨call, s⟩ := found
    obtain ⟨hcall, hs⟩ := callOn?_eq_some_iff.1 hc
    cases hu : call.settled with
    | true =>
      rw [abandonCall_of_settled hcall hu]
      exact ⟨rfl, rfl⟩
    | false =>
      rw [abandonCall_of_unsettled hc hu]
      refine ⟨rfl, ?_⟩
      show (w.sessions.set call.session (s.release none)).map _ = _
      rw [List.map_set]
      refine set_of_getElem?_eq_some ?_
      rw [List.getElem?_map, hs]
      rfl

/-- Whatever becomes of a response that is handed to a reactor, nothing is seen of it then. -/
theorem kept_of_postAttempt? (h : w.act? (.postAttempt a answer) = some w') :
    w'.journal = w.journal
      ∧ w'.sessions.map (fun s => (s.cursor, s.lastResult))
        = w.sessions.map fun s => (s.cursor, s.lastResult) := by
  unfold act? postAttempt? at h
  dsimp only at h
  split at h
  · split at h
    · split at h <;> cases h
      · exact ⟨rfl, rfl⟩
      · exact kept_of_abandonCall _ _
    · cases h
  · cases h

/-- **Each attempt on a reactor feeds one outcome to its call at most**, and only while it is the
attempt that the cycle waits for. The history of a call is fed well; its cycle makes a step at those
events only that feed it; and a response to an attempt whose time is over changes no session, no
call, and nothing that can be seen. On a reactor that was told to stop no response is taken any more
that is handed over then. Handing it over, late or not, moves no cursor, records no result and shows
nothing; but the worker abandons the call of the attempt, if that is not settled, and so the session
can be released by it. -/
theorem one_outcome_per_attempt {config : Configuration} {fresh : Bytes}
    {frontend : Frontend Handler} (hk : frontend.kind = .reactor) {actions : List (Action Handler)}
    (hr : (initial config fresh frontend).run? actions = some w) (c : Nat) :
    WellFed ((initial config fresh frontend).history c actions)
    ∧ (∀ {action : Action Handler} {w' : Client Handler} {call call' : Call Handler},
      w.act? action = some w' → w.calls[c]? = some call → w'.calls[c]? = some call' →
      call'.cycle = call.cycle
        ∨ ∃ fed cursor now step, w.eventsOf c action = [.resumed fed]
          ∧ call.cycle.resume? cursor now fed = some step ∧ call'.cycle = step.cycle)
    ∧ (∀ {a : Nat} {outcome : Outcome},
      .expired a outcome ∈ (initial config fresh frontend).history c actions →
      ∀ {answer : Except Error Outcome} {w' : Client Handler}, w.Delivers a answer w' →
        w'.sessions = w.sessions ∧ w'.calls = w.calls ∧ w'.journal = w.journal
          ∧ w'.work = w.work)
    ∧ ∀ {a : Nat} {answer : Except Error Outcome} {w' : Client Handler},
      w.act? (.postAttempt a answer) = some w' →
        w'.journal = w.journal
        ∧ w'.sessions.map (fun s => (s.cursor, s.lastResult))
          = w.sessions.map fun s => (s.cursor, s.lastResult) := by
  have hinitial : Reachable (initial config fresh frontend) := .initial config fresh frontend
  have hw : Reachable w := hinitial.run (fun _ _ => trivial) hr
  obtain ⟨stage, hfollows⟩ := hinitial.follows hk (Relay.Follows.initial rfl) (c := c) hr
  rw [List.nil_append] at hfollows
  have hmemory := hfollows.memory
  refine ⟨hfollows.course.wellFed hmemory.answeredOnce hmemory.wokenOnce, ?_, ?_,
    kept_of_postAttempt?⟩
  · intro action w' call call' ha hc hc'
    rcases (hw.move_act? ha).cycle hc hc' with hsame | ⟨fed, cursor, now, step, hevent, -, hstep⟩
    · exact Or.inl hsame
    · refine Or.inr ⟨fed, cursor, now, step, ?_, hstep⟩
      unfold eventsOf CallEvent.ofCall
      rw [hevent]
      exact if_pos rfl
  · intro a outcome hexpired answer w' hdelivers
    -- Nobody awaits the attempt any more, so it is settled.
    have hanswered : a ∈ ((initial config fresh frontend).history c actions).filterMap
        CallEvent.answered? := List.mem_filterMap.2 ⟨_, hexpired, rfl⟩
    obtain ⟨-, hnobody⟩ := hmemory.answered hanswered
    refine hdelivers.of_settled ?_
    intro attempt ha
    by_contra hu
    exact hnobody attempt.call (mem_batons_of_attempt ha (Bool.eq_false_iff.2 hu))

/-- An operation whose attempt takes too long, so that a retry is waited for. -/
def slowAttempt : List (Action Unit) :=
  [.openSession ⟨.null, .null, .null, .str "u", false⟩ "u", .ask 0 .time (.int 1) none,
    .stepInvocation 0, .stepInvocation 0, .stepInvocation 0, .pollReactor, .stepReactor,
    .stepReactor, .stepReactor, .stepReactor, .stepReactor, .stepReactor, .stepReactor,
    .stepReactor, .tick 2, .pollReactor, .stepReactor, .stepReactor, .stepReactor, .stepReactor,
    .stepReactor]

/-- The response to the attempt comes while the retry is waited for, and nothing is seen of it. -/
theorem one_outcome_per_attempt_slowAttempt :
    ∃ (w w' : Client Unit) (answer : Except Error Outcome),
      onReactor.run? slowAttempt = some w ∧ w.Delivers 0 answer w'
      ∧ WellFed (onReactor.history 0 slowAttempt)
      ∧ (onReactor.history 0 slowAttempt).filterMap CallEvent.answered? = [0]
      ∧ w'.sessions = w.sessions ∧ w'.journal = w.journal := by
  obtain ⟨w, hrun⟩ := Option.isSome_iff_exists.1
    (show (onReactor.run? slowAttempt).isSome = true by decide +kernel)
  have hlate : (onReactor.run? slowAttempt).any (fun w => !w.reactor.stopped
      && (w.act? (.postAttempt 0 (.ok (.reply 200 (utf8Bytes "[1]"))))).isSome) = true := by
    decide +kernel
  have hover : (onReactor.history 0 slowAttempt).any (fun event => match event with
      | .expired 0 _ => true
      | _ => false) = true := by
    decide +kernel
  rw [hrun] at hlate
  obtain ⟨hstopped, hpost⟩ := Bool.and_eq_true_iff.1 hlate
  have hrunning : w.reactor.stopped = false := by simpa using hstopped
  obtain ⟨w', hw'⟩ := Option.isSome_iff_exists.1 hpost
  obtain ⟨event, hm, hevent⟩ := List.any_eq_true.1 hover
  have hkind : (Frontend.borrowing .reactor : Frontend Unit).kind = .reactor := rfl
  obtain ⟨hfed, -, hsilent, -⟩ := one_outcome_per_attempt hkind hrun 0
  split at hevent
  · obtain ⟨hsessions, -, hjournal, -⟩ := hsilent hm (.posted hrunning hw')
    exact ⟨w, w', _, hrun, .posted hrunning hw', hfed, by decide +kernel,
      hsessions, hjournal⟩
  · cases hevent

end Client

end Pubsub
