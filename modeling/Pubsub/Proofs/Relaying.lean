import Mathlib.Tactic.Abel
import Pubsub.Proofs.Completion
import Pubsub.Proofs.Relays

/-!
# The moves of invocations and tasks

The relay of a state is what the state keeps of its calls and of whoever goes on with them. Here the
steps of invocations and tasks are shown to be moves of it: they hand a call to a frontend, drive
its cycle, and abandon it when an error is on its way out.
-/

namespace Pubsub

variable {Handler : Type}

namespace Client

open Relay

variable {w w' w₁ : Client Handler} {clearing : Prop}

/-- What a client keeps of its calls and of whoever goes on with them. -/
def relay (w : Client Handler) : Relay Handler :=
  { kind := w.frontend.kind
    calls := w.calls
    cursors := w.sessions.map Session.cursor
    batons := w.batons
    underway := w.underway
    submitting := w.submitting?
    alarms := w.attempts.map Attempt.timer
    created := w.reactor.created
    cancelled := w.reactor.cancelled
    stopped := w.reactor.stopped
    closed := w.frontend.poolClosed }

/-- A state that keeps the same of its calls makes no move. -/
theorem move_of_relay_eq {r : Relay Handler} (h : w'.relay = r) :
    Move clearing r none w'.relay := by
  rw [h]
  exact .still r.stopped r.closed id id

/-- What is changed in sessions, calls and journal only leaves the batons where they are. -/
theorem relay_of_agreesOutside (h : w.AgreesOutside w') :
    w'.relay = { w.relay with calls := w'.calls, cursors := w'.sessions.map Session.cursor } := by
  rw [h]
  rfl

/-! ## Settling, and steps of cycles -/

/-- A session that keeps its cursor may be rewritten. -/
theorem cursors_set {sessions : List Session} {i : Nat} {s t : Session}
    (hs : sessions[i]? = some s) (ht : t.cursor = s.cursor) :
    (sessions.set i t).map Session.cursor = sessions.map Session.cursor := by
  rw [List.map_set, ht]
  refine set_of_getElem?_eq_some ?_
  rw [List.getElem?_map, hs]
  rfl

theorem relay_setSession {i : Nat} {s t : Session} (hs : w.sessions[i]? = some s)
    (ht : t.cursor = s.cursor) : (w.setSession i t).relay = w.relay := by
  have hcursors := cursors_set hs ht
  show { w.relay with cursors := (w.sessions.set i t).map Session.cursor } = w.relay
  rw [hcursors]
  rfl

section Settling

variable {c : Nat} {call : Call Handler} {s : Session} {step : CycleStep} {now : Binary64}
  {fed : Option Outcome}

/-- What abandoning does to a call and the cursors, whether the call was settled before or not. -/
theorem relay_abandonCall (h : w.callOn? c = some (call, s)) :
    (w.abandonCall c).relay = w.relay.settle c call := by
  obtain ⟨hc, hs⟩ := callOn?_eq_some_iff.1 h
  cases hu : call.settled with
  | true =>
    have hsame : ({ call with settled := true } : Call Handler) = call := by
      rw [← hu]
    rw [abandonCall_of_settled hc hu]
    unfold Relay.settle
    rw [hsame]
    show w.relay = { w.relay with calls := w.calls.set c call }
    rw [set_of_getElem?_eq_some hc]
    rfl
  | false =>
    have hcursors := cursors_set (t := s.release none) hs rfl
    rw [abandonCall_of_unsettled h hu]
    unfold relay
    show { w.relay with
      calls := w.calls.set c { call with settled := true }
      cursors := (w.sessions.set call.session (s.release none)).map Session.cursor } = _
    rw [hcursors]
    rfl

/-- What completing does to them. -/
theorem relay_completeCall {result : Result} {running : Bool} (h : w.callOn? c = some (call, s))
    (hw : w.completeCall c result = .ok (w', running)) : w'.relay = w.relay.settle c call := by
  obtain ⟨hc, hs⟩ := callOn?_eq_some_iff.1 h
  cases hu : call.settled with
  | true =>
    rw [completeCall_of_settled h hu] at hw
    cases hw
  | false =>
    obtain ⟨w₂, h₂, ha, hl⟩ := completeCall_of_unsettled h hu result
    obtain ⟨rfl, -⟩ : w₂ = w' ∧ _ := by simpa [h₂] using hw
    have hcalls : w₂.calls = w.calls.set c { call with settled := true } :=
      congrArg Ledger.calls hl
    have hsessions : w₂.sessions = w.sessions.set call.session (s.release (some result)) :=
      congrArg Ledger.sessions hl
    have hcursors := cursors_set (t := s.release (some result)) hs rfl
    rw [relay_of_agreesOutside ha, hcalls, hsessions, hcursors]
    rfl

/-- What a step of the cycle of a call does to them. -/
theorem relay_resumeCall? (ha : w.AgreesOutside w₁)
    (hl : w₁.ledger = w.ledger.setCall c (call.after step) (s.after step)) :
    w₁.relay = w.relay.after c call step call.settled := by
  have hcalls : w₁.calls = w.calls.set c (call.after step) := congrArg Ledger.calls hl
  have hsessions : w₁.sessions = w.sessions.set call.session (s.after step) :=
    congrArg Ledger.sessions hl
  rw [relay_of_agreesOutside ha, hcalls, hsessions, List.map_set]
  rfl

/-- Settling a call after a step of its cycle. -/
theorem settle_after (r : Relay Handler) (c : Nat) (call : Call Handler) (step : CycleStep) :
    (r.after c call step call.settled).settle c (call.after step) = r.after c call step true := by
  unfold Relay.settle Relay.after
  dsimp only
  rw [List.set_set]
  rfl

theorem relay_completeCall_after {result : Result} {running : Bool}
    (hc : w.callOn? c = some (call, s)) (ha : w.AgreesOutside w₁)
    (hl : w₁.ledger = w.ledger.setCall c (call.after step) (s.after step))
    (hw : w₁.completeCall c result = .ok (w', running)) :
    w'.relay = w.relay.after c call step true := by
  rw [relay_completeCall (callOn?_after hc hl) hw, relay_resumeCall? ha hl, settle_after]

end Settling

/-! ## Drives -/

/-- What a step of a drive can be: a step of the cycle, after which the call may be settled, or the
end of a drive that failed, which abandons the call. -/
inductive DriveStep (w w₁ : Client Handler) (c : Nat) : Drive → Drive → Prop where
  | resumed {fed : Option Outcome} {call : Call Handler} {s : Session} {step : CycleStep}
      {settled : Bool} {drive' : Drive} (hc : w.callOn? c = some (call, s))
      (hr : call.cycle.resume? s.cursor w.clock fed = some step)
      (hn : (Baton.driven (.resuming fed)).Continues step.effect call.settled settled
        (some (.driven drive')))
      (hw : w₁.relay = w.relay.after c call step settled) : DriveStep w w₁ c (.resuming fed) drive'
  | abandoned {e : Error} (hw : w₁ = w.abandonCall c) :
      DriveStep w w₁ c (.failing e) (.failed e)

theorem driveStep_of_stepDrive? {c : Nat} {drive drive' : Drive}
    (h : w.stepDrive? c drive = some (w₁, drive')) : DriveStep w w₁ c drive drive' := by
  cases drive with
  | resuming fed =>
    unfold stepDrive? at h
    dsimp only at h
    cases hw : w.resumeCall? c fed with
    | none =>
      rw [hw] at h
      cases h
    | some resumed =>
      obtain ⟨w₂, effect⟩ := resumed
      obtain ⟨call, s, step, hc, hr, he, ha, hl⟩ := resumeCall?_eq_some hw
      have hrelay := relay_resumeCall? ha hl
      rw [hw] at h
      cases effect with
      | send =>
        dsimp only at h
        split at h
        · cases h
          exact .resumed hc hr .broken hrelay
        · cases h
          exact .resumed hc hr (he ▸ .sent) hrelay
      | sleep seconds =>
        cases h
        exact .resumed hc hr (he ▸ .asleep) hrelay
      | raise e =>
        cases h
        exact .resumed hc hr .broken hrelay
      | finish result =>
        dsimp only at h
        split at h
        · cases h
          exact .resumed hc hr .broken hrelay
        · rename_i hcomplete
          cases h
          exact .resumed hc hr (he ▸ .told) (relay_completeCall_after hc ha hl hcomplete)
        · rename_i hcomplete
          cases h
          exact .resumed hc hr (he ▸ .finished) (relay_completeCall_after hc ha hl hcomplete)
  | failing e =>
    cases h
    exact .abandoned rfl
  | inFlight => cases h
  | asleep seconds => cases h
  | calling result => cases h
  | finished result => cases h
  | failed e => cases h

/-- A step of a drive is a move, wherever the drive is kept. -/
theorem move_driveStep {c : Nat} {drive drive' : Drive} {rest : Multiset (Nat × Baton)}
    (hreg : w.ledger.IsRegular) (hs : w.relay.IsSound)
    (hb : w.batons = {(c, .driven drive)} + rest) (h : DriveStep w w₁ c drive drive') :
    Move clearing w.relay (drive.event? c)
      { w₁.relay with batons := {(c, .driven drive')} + rest } := by
  cases h with
  | @resumed fed call s step settled _ hc hr hn hw =>
    obtain ⟨hcall, hsession⟩ := callOn?_eq_some_iff.1 hc
    have hcursor : w.relay.cursors[call.session]? = some s.cursor := by
      show (w.sessions.map Session.cursor)[call.session]? = _
      rw [List.getElem?_map, hsession]
      rfl
    rw [hw]
    exact .resumed w.clock hb hcall hcursor .driven hr hn
  | abandoned hw =>
    obtain ⟨call, hcall, -⟩ := hs.exists_fits hb
    obtain ⟨s, hsession⟩ : ∃ s, w.sessions[call.session]? = some s :=
      ⟨_, List.getElem?_eq_getElem (hreg.session call (List.mem_of_getElem? hcall))⟩
    rw [hw, relay_abandonCall (callOn?_eq_some_iff.2 ⟨hcall, hsession⟩)]
    exact .abandoned hb hcall .failing

/-! ## What comes to a state -/

/-- A task that is made brings its baton. -/
theorem batons_addTask (w : Client Handler) (task : LoopTask) :
    ({ w with tasks := w.tasks ++ [task] } : Client Handler).batons
      = ↑task.baton?.toList + w.batons := by
  have hone : ([task].filterMap LoopTask.baton?) = task.baton?.toList := by
    rw [List.filterMap_cons]
    cases task.baton? <;> rfl
  unfold batons standing
  dsimp only
  rw [List.filterMap_append, hone, ← Multiset.coe_add]
  abel

/-- What is taken from the batons that stand is taken from all of them. -/
theorem batons_of_standing (hw : w'.work = w.work) {taken : Multiset (Nat × Baton)}
    (h : w.standing = taken + w'.standing) : w.batons = taken + w'.batons := by
  unfold batons
  rw [h, hw]
  exact add_left_comm _ _ _

/-- What is taken from the attempts that were sent is taken from all that are on their way. -/
theorem underway_of_sent (hw : w'.work = w.work) {taken : Multiset Nat}
    (h : w.sent = taken + w'.sent) : w.underway = taken + w'.underway := by
  unfold underway submitting?
  rw [h, hw]
  exact add_left_comm _ _ _

section Enqueue

variable (w : Client Handler) (command : Command Job) (signalled : Bool) (created : Nat)

/-- What is handed to the reactor brings its baton. -/
theorem standing_enqueue :
    ({ w with reactor := { w.reactor with
        queue := w.reactor.queue ++ [command], signalled, created } } : Client Handler).standing
      = ↑command.baton?.toList + w.standing := by
  have hbatons := w.reactor.batons_enqueue command signalled created
  unfold standing
  dsimp only
  rw [hbatons]
  abel

theorem sent_enqueue :
    ({ w with reactor := { w.reactor with
        queue := w.reactor.queue ++ [command], signalled, created } } : Client Handler).sent
      = ↑command.response?.toList + w.sent := by
  have hresponses := w.reactor.responses_enqueue command signalled created
  unfold sent
  dsimp only
  rw [hresponses]
  abel

theorem batons_enqueue :
    ({ w with reactor := { w.reactor with
        queue := w.reactor.queue ++ [command], signalled, created } } : Client Handler).batons
      = ↑command.baton?.toList + w.batons :=
  batons_of_standing (by rfl) (standing_enqueue w command signalled created)

theorem underway_enqueue :
    ({ w with reactor := { w.reactor with
        queue := w.reactor.queue ++ [command], signalled, created } } : Client Handler).underway
      = ↑command.response?.toList + w.underway :=
  underway_of_sent (by rfl) (sent_enqueue w command signalled created)

end Enqueue

/-- The relay of a state in which a job other than a response was handed to the reactor. -/
theorem relay_enqueue (w : Client Handler) {command : Command Job} (h : command.response? = none)
    (signalled : Bool) (created : Nat) :
    ({ w with reactor := { w.reactor with
        queue := w.reactor.queue ++ [command], signalled, created } } : Client Handler).relay
      = { w.relay with batons := ↑command.baton?.toList + w.batons, created } := by
  have hunderway := underway_enqueue w command signalled created
  have hnone : (↑command.response?.toList : Multiset Nat) + w.underway = w.underway := by
    rw [h]
    exact zero_add w.underway
  rw [hnone] at hunderway
  exact Relay.ext rfl rfl rfl (batons_enqueue w command signalled created) hunderway rfl rfl rfl
    rfl rfl rfl

/-! ## Invocations -/

section Invocations

variable {i : Nat} {v : Invocation Handler}

/-- The batons of a state are that of one invocation, if it holds one, and the others, wherever the
invocation moves. -/
theorem exists_batons_setInvocation (hv : w.invocations[i]? = some v) :
    ∃ rest, w.batons = ↑v.phase.baton?.toList + rest
      ∧ ∀ phase, (w.setInvocation i phase).batons = ↑phase.baton?.toList + rest := by
  obtain ⟨others, hbefore, hafter⟩ :=
    exists_filterMap_modify (fun v : Invocation Handler => v.phase.baton?) hv
  refine ⟨↑w.work.baton?.toList + (others + ↑(w.tasks.filterMap LoopTask.baton?)
    + w.reactor.batons + ↑((w.attempts.mapIdx Attempt.baton?).filterMap id)), ?_, ?_⟩
  · unfold batons standing
    rw [hbefore]
    abel
  · intro phase
    have hphase := hafter fun v => { v with phase }
    unfold batons standing setInvocation
    dsimp only
    rw [hphase]
    abel

/-- The relay of a state in which an invocation has moved. -/
theorem relay_setInvocation (w : Client Handler) (i : Nat) (phase : InvocationPhase) :
    (w.setInvocation i phase).relay
      = { w.relay with batons := (w.setInvocation i phase).batons } := rfl

/-- An invocation that holds no baton before and after makes no move. -/
theorem relay_setInvocation_of_none (hv : w.invocations[i]? = some v)
    (hb : v.phase.baton? = none) {phase : InvocationPhase} (hp : phase.baton? = none) :
    (w.setInvocation i phase).relay = w.relay := by
  obtain ⟨rest, hbefore, hafter⟩ := exists_batons_setInvocation hv
  rw [relay_setInvocation, hafter phase, hp, ← hb, ← hbefore]
  rfl

/-- An invocation passes its baton on to itself. -/
theorem move_setInvocation (hv : w.invocations[i]? = some v) {c : Nat} {b b' : Baton}
    (hb : v.phase.baton? = some (c, b)) {phase : InvocationPhase}
    (hp : phase.baton? = some (c, b')) (hpass : b.Passes w.frontend.kind none b') :
    Move clearing w.relay none (w.setInvocation i phase).relay := by
  obtain ⟨rest, hbefore, hafter⟩ := exists_batons_setInvocation hv
  rw [hb] at hbefore
  rw [relay_setInvocation, hafter phase, hp]
  exact .passed (r := w.relay) hbefore hpass

theorem move_claimFor? (hv : w.invocations[i]? = some v) (hp : v.phase = .asked)
    (h : w.claimFor? i v = some w') : Move clearing w.relay none w'.relay := by
  have hb : v.phase.baton? = none := by
    rw [hp]
    rfl
  obtain ⟨s, hs, h⟩ := Option.map_eq_some_iff.1 h
  refine move_of_relay_eq ?_
  split at h
  · subst h
    exact relay_setInvocation_of_none hv hb rfl
  · rename_i t ht
    subst h
    obtain ⟨-, -, rfl⟩ := (Session.claim_eq_ok_iff s t).1 ht
    rw [relay_setInvocation_of_none (w := w.setSession v.session _) hv hb rfl]
    exact relay_setSession hs rfl

theorem move_buildFor? (hv : w.invocations[i]? = some v) (hp : v.phase = .claimed)
    (h : w.buildFor? i v = some w') : Move clearing w.relay none w'.relay := by
  have hb : v.phase.baton? = none := by
    rw [hp]
    rfl
  obtain ⟨s, hs, h⟩ := Option.map_eq_some_iff.1 h
  split at h
  · rename_i e config _
    subst h
    refine move_of_relay_eq ?_
    rw [relay_setInvocation_of_none
      (w := ({ w with config } : Client Handler).setSession v.session (s.release none)) hv hb rfl]
    exact relay_setSession (w := { w with config }) hs rfl
  · rename_i request config _
    subst h
    obtain ⟨rest, hbefore, hafter⟩ := exists_batons_setInvocation
      (w := { w with config, calls := w.calls ++ [_] }) hv
    rw [hb] at hbefore
    rw [relay_setInvocation, hafter]
    have hrest : w.batons = rest := hbefore.trans (zero_add rest)
    rw [← hrest]
    refine .accepted (r := w.relay) (i := v.session) ?_ request s.policy _
    show v.session < (w.sessions.map Session.cursor).length
    rw [List.length_map]
    exact (List.getElem?_eq_some_iff.1 hs).1

/-- An operation whose call is handed to a task or to the queue of the reactor. -/
theorem move_launched (hv : w.invocations[i]? = some v) {c : Nat} (hp : v.phase = .launching c)
    {b' : Baton} {u : Client Handler}
    (hpass : Baton.launching.Passes w.frontend.kind none b')
    (hv₁ : u.invocations[i]? = some v) {phase : InvocationPhase} (hphase : phase.baton? = none)
    (hbatons : u.batons = {(c, b')} + w.batons)
    (hrelay : u.relay = { w.relay with batons := u.batons }) :
    Move clearing w.relay none (u.setInvocation i phase).relay := by
  have hb : v.phase.baton? = some (c, .launching) := by
    rw [hp]
    rfl
  obtain ⟨rest, hbefore, -⟩ := exists_batons_setInvocation hv
  obtain ⟨rest₁, hbefore₁, hafter₁⟩ := exists_batons_setInvocation hv₁
  rw [hb] at hbefore hbefore₁
  have hrest : rest₁ = {(c, b')} + rest := by
    rw [hbatons, hbefore, add_left_comm] at hbefore₁
    exact (add_left_cancel hbefore₁).symm
  rw [relay_setInvocation, hafter₁ phase, hphase, hrest, hrelay]
  have hzero : ((↑(none : Option (Nat × Baton)).toList : Multiset (Nat × Baton))
      + ({(c, b')} + rest)) = {(c, b')} + rest := zero_add _
  rw [hzero]
  exact .passed (r := w.relay) hbefore hpass

theorem move_launchFor (hv : w.invocations[i]? = some v) {c : Nat} (hp : v.phase = .launching c) :
    Move clearing w.relay none (w.launchFor i c).relay := by
  have hb : v.phase.baton? = some (c, .launching) := by
    rw [hp]
    rfl
  unfold launchFor
  split
  · rename_i hkind
    exact move_setInvocation hv hb rfl (.driving hkind)
  · rename_i hkind
    split
    · exact move_launched (u := { w with tasks := w.tasks ++ [⟨c, .unstarted⟩] }) hv hp
        (.enlisting hkind) hv rfl (batons_addTask w ⟨c, .unstarted⟩) rfl
    · exact move_setInvocation hv hb rfl .refused
  · rename_i hkind
    split
    · exact move_setInvocation hv hb rfl .refused
    · rename_i reactor hr
      obtain ⟨-, hreactor⟩ := Reactor.call_eq_ok hr
      refine move_launched (u := { w with reactor }) hv hp (.queueing hkind) hv rfl ?_ ?_
      · rw [hreactor]
        exact batons_enqueue w (.run (.advance c)) true w.reactor.created
      · rw [hreactor, batons_enqueue w (.run (.advance c)) true w.reactor.created]
        exact relay_enqueue w rfl true w.reactor.created

/-- An invocation that drives its call makes the event that its drive makes, and no other does. -/
theorem event?_stepInvocation (hv : w.invocations[i]? = some v) :
    w.event? (.stepInvocation i) = match v.phase with
      | .driving c drive => drive.event? c
      | _ => none := by
  unfold event? invocationPhase?
  dsimp only
  rw [hv]
  dsimp only [Option.map_some]
  cases v.phase <;> rfl

theorem move_stepInvocation? (hreg : w.ledger.IsRegular) (hs : w.relay.IsSound)
    (h : w.stepInvocation? i = some w') :
    Move clearing w.relay (w.event? (.stepInvocation i)) w'.relay := by
  unfold stepInvocation? at h
  cases hv : w.invocations[i]? with
  | none =>
    rw [hv] at h
    cases h
  | some v =>
    rw [hv] at h
    rw [event?_stepInvocation hv]
    obtain ⟨rest, hbefore, hafter⟩ := exists_batons_setInvocation hv
    dsimp only at h
    split at h
    · rename_i hp
      rw [hp]
      exact move_claimFor? hv hp h
    · rename_i hp
      rw [hp]
      exact move_buildFor? hv hp h
    · rename_i c hp
      cases h
      rw [hp]
      exact move_launchFor hv hp
    · rename_i c result hp
      cases h
      rw [hp] at hbefore ⊢
      rw [relay_setInvocation, hafter]
      have hzero : (↑(none : Option (Nat × Baton)).toList : Multiset (Nat × Baton)) + rest = rest :=
        zero_add rest
      rw [show InvocationPhase.baton? (.ended (.ok (.result result))) = none from rfl, hzero]
      exact .left (r := w.relay) hbefore
    · rename_i c e hp
      cases h
      rw [hp]
      exact move_setInvocation hv (by rw [hp]; rfl) rfl .escaped
    · rename_i c drive _ _ hp
      obtain ⟨⟨w₁, drive'⟩, hd, rfl⟩ := Option.map_eq_some_iff.1 h
      rw [hp] at hbefore ⊢
      have hmove : Move clearing _ _ _ := move_driveStep hreg hs hbefore
        (driveStep_of_stepDrive? hd)
      -- The step of the drive leaves the invocations as they are.
      have ha := agreesOutside_stepDrive? hd
      have hbatons : (w₁.setInvocation i (.driving c drive')).batons
          = (w.setInvocation i (.driving c drive')).batons := by
        rw [ha]
        rfl
      rw [relay_setInvocation, hbatons, hafter]
      exact hmove
    · rename_i c e hp
      cases h
      rw [hp] at hbefore ⊢
      obtain ⟨call, hcall, -⟩ := hs.exists_fits hbefore
      obtain ⟨s, hsession⟩ : ∃ s, w.sessions[call.session]? = some s :=
        ⟨_, List.getElem?_eq_getElem (hreg.session call (List.mem_of_getElem? hcall))⟩
      have hbatons : ((w.abandonCall c).setInvocation i (.ended (.error e))).batons
          = (w.setInvocation i (.ended (.error e))).batons := by
        rw [agreesOutside_abandonCall w c]
        rfl
      rw [relay_setInvocation, hbatons, hafter,
        relay_abandonCall (callOn?_eq_some_iff.2 ⟨hcall, hsession⟩)]
      exact .abandoned (r := w.relay) hbefore hcall .unwinding
    · cases h

/-- The world answers to the drive of an invocation. -/
theorem move_turned {c : Nat} {drive drive' : Drive}
    (hp : w.invocationPhase? i = some (.driving c drive))
    (hpass : (Baton.driven drive).Passes w.frontend.kind none (.driven drive')) :
    Move clearing w.relay none (w.setInvocation i (.driving c drive')).relay := by
  obtain ⟨v, hv, hp⟩ := Option.map_eq_some_iff.1 hp
  exact move_setInvocation hv (by rw [hp]; rfl) rfl hpass

theorem passes_of_answer? {kind : FrontendKind} {drive drive' : Drive}
    {answer : Except Error Outcome} (h : drive.answer? answer = some drive') :
    (Baton.driven drive).Passes kind none (.driven drive') := by
  unfold Drive.answer? at h
  split at h
  · cases h
    exact .answered
  · cases h
    exact .broken
  · cases h

theorem passes_of_wake? {kind : FrontendKind} {drive drive' : Drive}
    (h : drive.wake? = some drive') : (Baton.driven drive).Passes kind none (.driven drive') := by
  unfold Drive.wake? at h
  split at h <;> cases h
  exact .rested

theorem move_answerInvocation? {answer : Except Error Outcome}
    (h : w.answerInvocation? i answer = some w') : Move clearing w.relay none w'.relay := by
  unfold answerInvocation? at h
  split at h
  · rename_i hp
    obtain ⟨drive', hd, rfl⟩ := Option.map_eq_some_iff.1 h
    exact move_turned hp (passes_of_answer? hd)
  · cases h

theorem move_wakeInvocation? (h : w.wakeInvocation? i = some w') :
    Move clearing w.relay none w'.relay := by
  unfold wakeInvocation? at h
  split at h
  · rename_i hp
    obtain ⟨drive', hd, rfl⟩ := Option.map_eq_some_iff.1 h
    exact move_turned hp (passes_of_wake? hd)
  · cases h

theorem move_returnInvocation? {raised : Option Error}
    (h : w.returnInvocation? i raised = some w') :
    Move clearing w.relay none w'.relay := by
  unfold returnInvocation? at h
  split at h
  · rename_i hp
    cases h
    exact move_turned hp .returned
  · rename_i hp
    cases h
    exact move_turned hp .broken
  · cases h

end Invocations

/-! ## Tasks -/

section Tasks

variable {t : Nat} {task : LoopTask}

/-- The batons of a state are that of one task and the others, wherever the task moves. -/
theorem exists_batons_setTask (ht : w.tasks[t]? = some task) :
    ∃ rest, w.batons = ↑task.baton?.toList + rest
      ∧ ∀ drive, (w.setTask t drive).batons = {(task.call, .driven drive)} + rest := by
  obtain ⟨others, hbefore, hafter⟩ := exists_filterMap_modify LoopTask.baton? ht
  refine ⟨↑w.work.baton?.toList + (↑(w.invocations.filterMap fun v => v.phase.baton?) + others
    + w.reactor.batons + ↑((w.attempts.mapIdx Attempt.baton?).filterMap id)), ?_, ?_⟩
  · unfold batons standing
    rw [hbefore]
    abel
  · intro drive
    have hdrive : ↑((w.tasks.modify t fun task => { task with phase := .running drive }).filterMap
        LoopTask.baton?) = {(task.call, .driven drive)} + others :=
      hafter fun task => { task with phase := .running drive }
    unfold batons standing setTask
    dsimp only
    rw [hdrive]
    abel

theorem relay_setTask (w : Client Handler) (t : Nat) (drive : Drive) :
    (w.setTask t drive).relay = { w.relay with batons := (w.setTask t drive).batons } := rfl

/-- A task passes its baton on to itself. -/
theorem move_setTask (ht : w.tasks[t]? = some task) {b : Baton}
    (hb : task.baton? = some (task.call, b)) {drive : Drive}
    (hpass : b.Passes w.frontend.kind none (.driven drive)) :
    Move clearing w.relay none (w.setTask t drive).relay := by
  obtain ⟨rest, hbefore, hafter⟩ := exists_batons_setTask ht
  rw [hb] at hbefore
  rw [relay_setTask, hafter]
  exact .passed (r := w.relay) hbefore hpass

theorem move_stepTask? (hreg : w.ledger.IsRegular) (hs : w.relay.IsSound)
    (h : w.stepTask? t = some w') : Move clearing w.relay (w.event? (.stepTask t)) w'.relay := by
  unfold stepTask? at h
  cases ht : w.tasks[t]? with
  | none =>
    rw [ht] at h
    cases h
  | some task =>
    rw [ht] at h
    obtain ⟨c, phase⟩ := task
    obtain ⟨rest, hbefore, hafter⟩ := exists_batons_setTask ht
    cases phase with
    | unstarted =>
      cases h
      have hevent : w.event? (.stepTask t) = none := by
        unfold event?
        dsimp only
        rw [ht]
      rw [hevent]
      exact move_setTask ht rfl .begun
    | running drive =>
      have hevent : w.event? (.stepTask t) = drive.event? c := by
        unfold event?
        dsimp only
        rw [ht]
      obtain ⟨⟨w₁, drive'⟩, hd, rfl⟩ := Option.map_eq_some_iff.1 h
      have hmove : Move clearing _ _ _ := move_driveStep hreg hs hbefore
        (driveStep_of_stepDrive? hd)
      have hbatons : (w₁.setTask t drive').batons = (w.setTask t drive').batons := by
        rw [agreesOutside_stepDrive? hd]
        rfl
      rw [hevent, relay_setTask, hbatons, hafter]
      exact hmove

/-- The world answers to the drive of a task. -/
theorem move_taskTurned {drive drive' : Drive} (hp : w.taskPhase? t = some (.running drive))
    (hpass : (Baton.driven drive).Passes w.frontend.kind none (.driven drive')) :
    Move clearing w.relay none (w.setTask t drive').relay := by
  obtain ⟨task, ht, hp⟩ := Option.map_eq_some_iff.1 hp
  obtain ⟨c, phase⟩ := task
  obtain rfl : phase = .running drive := hp
  exact move_setTask ht rfl hpass

theorem move_answerTask? {answer : Except Error Outcome} (h : w.answerTask? t answer = some w') :
    Move clearing w.relay none w'.relay := by
  unfold answerTask? at h
  split at h
  · rename_i hp
    obtain ⟨drive', hd, rfl⟩ := Option.map_eq_some_iff.1 h
    exact move_taskTurned hp (passes_of_answer? hd)
  · cases h

theorem move_wakeTask? (h : w.wakeTask? t = some w') : Move clearing w.relay none w'.relay := by
  unfold wakeTask? at h
  split at h
  · rename_i hp
    obtain ⟨drive', hd, rfl⟩ := Option.map_eq_some_iff.1 h
    exact move_taskTurned hp (passes_of_wake? hd)
  · cases h

theorem move_returnTask? {raised : Option Error} (h : w.returnTask? t raised = some w') :
    Move clearing w.relay none w'.relay := by
  unfold returnTask? at h
  split at h
  · rename_i hp
    cases h
    exact move_taskTurned hp .returned
  · rename_i hp
    cases h
    exact move_taskTurned hp .raised
  · cases h

theorem move_cancelTask? (h : w.cancelTask? t = some w') :
    Move clearing w.relay none w'.relay := by
  unfold cancelTask? at h
  split at h
  · rename_i hp
    cases h
    obtain ⟨⟨c, phase⟩, ht, hp⟩ := Option.map_eq_some_iff.1 hp
    obtain rfl : phase = .unstarted := hp
    exact move_setTask ht rfl .cancelled
  · rename_i hp
    cases h
    exact move_taskTurned hp .broken
  · rename_i hp
    cases h
    exact move_taskTurned hp .broken
  · cases h

end Tasks

end Client

end Pubsub
