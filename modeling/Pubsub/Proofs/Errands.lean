import Pubsub.Proofs.Bookkeeping
import Pubsub.Proofs.CycleSteps
import Pubsub.Proofs.Scenes

/-!
# Where an operation stands

The frontends do the same with an operation, in steps that differ. What they have in common is the
**point** at which the operation stands: its session is to be claimed, its cycle to be resumed, its
request to be sent; an answer or the end of a pause is awaited; the call is completed. For each of
these points `Errand.Goes` says what the call and its session look like, and that what is still to
be seen is a performance of the cycle from there.

The steps from one point to the next are the same for all frontends: the cycle is resumed
(`Goes.resume`), the request is sent (`Goes.send`), a pause begins and ends (`Goes.pause`,
`Goes.wake`), the answer comes (`Goes.answer`), the call is completed (`Goes.complete`). All that a
frontend adds is who takes them and when.
-/

namespace Pubsub

variable {Handler : Type}

/-- An operation and how it should go. -/
structure Errand (Handler : Type) extends Places where
  session : Nat
  /-- The session as it was when the operation was asked for. -/
  before : Session
  request : Request
  callback : Option Handler
  /-- All that is to be seen of it. -/
  sights : List (Sighting Handler)
  ending : Ending

/-- The points at which an operation can stand. -/
inductive Point where
  /-- The session is to be claimed. -/
  | asked
  /-- The request is to be built. -/
  | claimed
  /-- The frontend is to start the call. -/
  | launching
  /-- A job or a task that resumes the cycle is to be run. -/
  | ready (fed : Option Outcome)
  /-- The cycle is to be resumed. -/
  | resuming (fed : Option Outcome)
  /-- The request is to be sent. -/
  | sending
  /-- The request is to be given to the pool. -/
  | submitting
  /-- The answer is awaited. -/
  | awaiting
  /-- A pause is to begin. -/
  | pausing (seconds : Binary64)
  | asleep (seconds : Binary64)
  /-- The call is to be completed. -/
  | finishing (result : Result)
  /-- The call is completed, and its callback is running. -/
  | calling (result : Result)
  /-- The callback has returned, if there is one. -/
  | completed (result : Result)
  /-- Whoever asked for the operation goes on. -/
  | done (result : Result)

namespace Point

/-- How much is left to be done up to the next answer of the server, or to the end. -/
def rank : Point → Nat
  | .asked => 11
  | .claimed => 10
  | .launching => 9
  | .ready (some _) => 12
  | .ready none => 8
  | .resuming (some _) => 11
  | .resuming none => 7
  | .sending => 6
  | .submitting => 5
  | .awaiting => 4
  | .pausing _ => 10
  | .asleep _ => 9
  | .finishing _ => 3
  | .calling _ => 2
  | .completed _ => 1
  | .done _ => 0

end Point

/-- How much is left to be done at a point of a scene. -/
def Scene.measure (scene : Scene Handler) (point : Point) : Nat :=
  10 * scene.script.length + point.rank

/-- The point to which an effect of the cycle leads. -/
def Effect.point? : Effect → Option Point
  | .send => some .sending
  | .sleep seconds => some (.pausing seconds)
  | .finish result => some (.finishing result)
  | .raise _ => none

/-- The point at which a drive stands that goes well. -/
def Drive.point? : Drive → Option Point
  | .resuming fed => some (.resuming fed)
  | .inFlight => some .awaiting
  | .asleep seconds => some (.asleep seconds)
  | .calling result => some (.calling result)
  | .finished result => some (.completed result)
  | .failing _ => none
  | .failed _ => none

namespace Errand

variable (E : Errand Handler)

/-- The cycle before anything was sent. -/
def beginning : Cycle := Cycle.start E.request E.before.policy (E.request.kind == .subscribe)

/-- The call while its cycle goes on. -/
def calling (cycle : Cycle) : Call Handler := ⟨E.session, E.request, E.callback, false, cycle⟩

/-- The session while the call goes on. -/
def held (cursor : Cursor) : Session := { E.before with cursor, busy := true, idle := false }

/-- The session after the call was completed. -/
def released : Session :=
  { E.before with
    cursor := E.ending.cursor, lastResult := some E.ending.result, busy := false, idle := true }

/-- The call goes on, with this cycle and this cursor. -/
def InHand (w : Client Handler) (cycle : Cycle) (cursor : Cursor) : Prop :=
  w.callOn? E.call = some (E.calling cycle, E.held cursor) ∧ cycle.request = E.request

/-- The answer of the next exchange is on its way, and this is still to be seen. -/
def Awaits (w : Client Handler) (script : List Exchange) (left : List (Sighting Handler)) : Prop :=
  ∃ cycle cursor e outcome rest, E.InHand w cycle cursor ∧ script = e :: rest
    ∧ e.answer.outcome = .ok outcome ∧ w.clock.le (w.clock + e.takes) = true
    ∧ (w.clock + e.takes).lt (w.clock + E.request.timeout) = true
    ∧ cycle.Performs E.callback cursor (w.clock + e.takes) (some outcome) rest left E.ending

/-- A pause begins now, and this is still to be seen after it. -/
def Pauses (w : Client Handler) (seconds : Binary64) (script : List Exchange)
    (left : List (Sighting Handler)) : Prop :=
  ∃ cycle cursor, E.InHand w cycle cursor ∧ Binary64.lt 0 seconds = true
    ∧ cycle.Performs E.callback cursor (w.clock + seconds) none script left E.ending

/-- The cycle is resumed now, and this is still to be seen. -/
def Runs (w : Client Handler) (fed : Option Outcome) (script : List Exchange)
    (left : List (Sighting Handler)) : Prop :=
  ∃ cycle cursor, E.InHand w cycle cursor
    ∧ cycle.Performs E.callback cursor w.clock fed script left E.ending

/-- The call was completed with the result, and nothing is left to be seen. -/
def Ended (w : Client Handler) (result : Result) (script : List Exchange)
    (left : List (Sighting Handler)) : Prop :=
  script = [] ∧ left = [] ∧ result = E.ending.result ∧ w.clock = E.ending.clock
    ∧ ∃ cycle, w.callOn? E.call = some ({ E.calling cycle with settled := true }, E.released)

/-- What the call and its session look like at a point, what is left of the script, and what is
still to be seen. -/
def Stands (w : Client Handler) (script : List Exchange) (left : List (Sighting Handler)) :
    Point → Prop
  | .asked => w.sessions[E.session]? = some E.before
      ∧ E.beginning.Performs E.callback E.before.cursor w.clock none script left E.ending
  | .claimed => w.sessions[E.session]? = some (E.held E.before.cursor)
      ∧ E.beginning.Performs E.callback E.before.cursor w.clock none script left E.ending
  | .launching => E.Runs w none script left
  | .ready fed => E.Runs w fed script left
  | .resuming fed => E.Runs w fed script left
  | .sending => ∃ rest, left = ⟨w.clock, .sent E.request⟩ :: rest ∧ E.Awaits w script rest
  | .submitting => ∃ rest, left = ⟨w.clock, .sent E.request⟩ :: rest ∧ E.Awaits w script rest
  | .awaiting => E.Awaits w script left
  | .pausing seconds => ∃ rest, left = ⟨w.clock, .slept seconds⟩ :: rest
      ∧ E.Pauses w seconds script rest
  | .asleep seconds => E.Pauses w seconds script left
  | .finishing result => ∃ cycle cursor, E.InHand w cycle cursor ∧ script = []
      ∧ left = result.told E.callback w.clock ∧ E.ending = ⟨w.clock, result, cursor⟩
  | .calling result => E.Ended w result script left
  | .completed result => E.Ended w result script left
  | .done result => E.Ended w result script left

/-- If a pause is the last thing that was seen, then it is over now. -/
def Resumes (seen : List (Sighting Handler)) (now : Binary64) : Prop :=
  ∀ before seconds, seen.getLast? = some ⟨before, .slept seconds⟩ → now = before + seconds

/-- The last thing that was seen is what the operation waits for: a request that was sent now, or a
pause that began now. -/
def Punctual (seen : List (Sighting Handler)) (now : Binary64) : Point → Prop
  | .awaiting => seen.getLast? = some ⟨now, .sent E.request⟩
  | .asleep seconds => seen.getLast? = some ⟨now, .slept seconds⟩
  | _ => Resumes seen now

/-- **The operation stands at a point and goes as it should.** -/
structure Goes (scene : Scene Handler) (point : Point) : Prop where
  stands : ∃ left, scene.seen ++ left = E.sights
    ∧ E.Stands scene.client scene.script left point
  punctual : E.Punctual scene.seen scene.client.clock point
  clock : scene.client.clock.isFinite = true
  live : scene.client.frontend.IsLive

/-! ## What is shown -/

/-- How an event of the call looks from outside. -/
def sighting? (now : Binary64) : Event Handler → Option (Sighting Handler)
  | .sent _ => some ⟨now, .sent E.request⟩
  | .slept _ seconds => some ⟨now, .slept seconds⟩
  | .printed line => some ⟨now, .printed line⟩
  | .notified _ handler notification => some ⟨now, .notified handler notification⟩
  | .paused _ => none
  | .received _ _ _ => none

/-- Calls, sessions and the journal of a client change, and this is seen of it. -/
structure Shows (w w' : Client Handler) (shown : List (Sighting Handler)) : Prop where
  agrees : w.AgreesOutside w'
  journal : ∃ events, w'.journal = w.journal ++ events ∧ (∀ c, .sent c ∈ events → c = E.call)
    ∧ events.filterMap (E.sighting? w.clock) = shown

variable {E} {u v w w' : Client Handler} {shown shown' left seen : List (Sighting Handler)}
  {script : List Exchange} {scene : Scene Handler} {point : Point} {cycle : Cycle} {cursor : Cursor}

theorem Shows.clock (h : E.Shows w w' shown) : w'.clock = w.clock := by
  rw [h.agrees]

theorem Shows.frontend (h : E.Shows w w' shown) : w'.frontend = w.frontend := by
  rw [h.agrees]

theorem Shows.trans (h : E.Shows u v shown) (h' : E.Shows v w shown') :
    E.Shows u w (shown ++ shown') := by
  obtain ⟨events, hj, hown, hshown⟩ := h.journal
  obtain ⟨events', hj', hown', hshown'⟩ := h'.journal
  refine ⟨h.agrees.trans h'.agrees, events ++ events', ?_, ?_, ?_⟩
  · rw [hj', hj, List.append_assoc]
  · intro c hc
    exact (List.mem_append.1 hc).elim (hown c) (hown' c)
  · rw [List.filterMap_append, hshown, ← h.clock, hshown']

theorem shows_record (w : Client Handler) {event : Event Handler} {sighting : Sighting Handler}
    (hown : ∀ c, event = .sent c → c = E.call)
    (hs : E.sighting? w.clock event = some sighting) :
    E.Shows w (w.record event) [sighting] := by
  refine ⟨Client.agreesOutside_record w event, [event], rfl, ?_, ?_⟩
  · exact fun c hc => hown c (List.mem_singleton.1 hc).symm
  · rw [List.filterMap_cons, hs]
    rfl

/-- What the journal shows of an action is what is seen of it, if the action is no pause on a
reactor. -/
theorem Shows.sightings_eq {action : Action Handler} (h : E.Shows w v shown)
    (hcall : (v.calls[E.call]?).map Call.request = some E.request) (hp : w.pause? action = none)
    (hcalls : w'.calls = v.calls) (hjournal : w'.journal = v.journal)
    (hclock : w'.clock = v.clock) :
    w.sightings action w' = shown := by
  obtain ⟨events, hj, hown, hshown⟩ := h.journal
  unfold Client.sightings
  rw [hp, hcalls, hjournal, hclock, hj, h.clock, List.drop_left, Option.toList_none, List.map_nil,
    List.append_nil, List.map_filterMap, ← hshown]
  refine List.filterMap_congr fun event hevent => ?_
  cases event with
  | sent c =>
    obtain rfl := hown c hevent
    obtain ⟨call, hc, hr⟩ := Option.map_eq_some_iff.1 hcall
    show ((v.calls[E.call]?).map _).map _ = some (Sighting.mk w.clock (.sent E.request))
    rw [hc, ← hr]
    rfl
  | _ => rfl

/-- What comes after a pause is no pause. -/
theorem Resumes.append {now : Binary64} (h : Resumes seen now)
    (hs : ∀ sighting ∈ shown, ∀ seconds, sighting.sight ≠ .slept seconds) :
    Resumes (seen ++ shown) now := by
  intro before seconds hlast
  rw [List.getLast?_append] at hlast
  cases hl : shown.getLast? with
  | none =>
    rw [hl] at hlast
    exact h before seconds hlast
  | some sighting =>
    rw [hl] at hlast
    obtain rfl := Option.some.inj hlast
    exact absurd rfl (hs _ (List.mem_of_getLast? hl) seconds)

theorem sight_ne_slept_of_mem_shown {step : CycleStep} {now : Binary64}
    {sighting : Sighting Handler} (h : sighting ∈ step.shown now) (seconds : Binary64) :
    sighting.sight ≠ .slept seconds := by
  obtain ⟨line, -, rfl⟩ := List.mem_map.1 h
  simp

theorem sight_ne_slept_of_mem_told {result : Result} {callback : Option Handler} {now : Binary64}
    {sighting : Sighting Handler} (h : sighting ∈ result.told callback now) (seconds : Binary64) :
    sighting.sight ≠ .slept seconds := by
  obtain ⟨handler, -, rfl⟩ := List.mem_map.1 h
  simp

/-! ## The steps that frontends have in common -/

theorem InHand.request (h : E.InHand w cycle cursor) :
    (w.calls[E.call]?).map Call.request = some E.request := by
  rw [(Client.callOn?_eq_some_iff.1 h.1).1]
  rfl

/-- Where an operation stands depends on its call and its session, on the clock and on the
frontend. -/
theorem Goes.congr (h : E.Goes ⟨w, script, seen⟩ point) (hcalls : w'.calls = w.calls)
    (hsessions : w'.sessions = w.sessions) (hclock : w'.clock = w.clock)
    (hfrontend : w'.frontend = w.frontend) : E.Goes ⟨w', script, seen⟩ point := by
  have hcallOn : w'.callOn? E.call = w.callOn? E.call := by
    unfold Client.callOn?
    rw [hcalls, hsessions]
  obtain ⟨⟨left, hseen, hstands⟩, hpunctual, hfinite, hlive⟩ := h
  refine ⟨⟨left, hseen, ?_⟩, ?_, ?_, ?_⟩
  · cases point <;>
      simpa only [Stands, Runs, Awaits, Pauses, Ended, InHand, hcallOn, hsessions, hclock]
        using hstands
  · simpa only [hclock] using hpunctual
  · simpa only [hclock] using hfinite
  · simpa only [hfrontend] using hlive

section Same

variable {fed : Option Outcome} {result : Result}

/-! Some points differ only in who has the operation. -/

theorem goes_launching_iff : E.Goes scene .launching ↔ E.Goes scene (.ready none) :=
  ⟨fun h => ⟨h.stands, h.punctual, h.clock, h.live⟩,
    fun h => ⟨h.stands, h.punctual, h.clock, h.live⟩⟩

theorem goes_resuming_iff : E.Goes scene (.resuming fed) ↔ E.Goes scene (.ready fed) :=
  ⟨fun h => ⟨h.stands, h.punctual, h.clock, h.live⟩,
    fun h => ⟨h.stands, h.punctual, h.clock, h.live⟩⟩

theorem goes_submitting_iff : E.Goes scene .submitting ↔ E.Goes scene .sending :=
  ⟨fun h => ⟨h.stands, h.punctual, h.clock, h.live⟩,
    fun h => ⟨h.stands, h.punctual, h.clock, h.live⟩⟩

theorem goes_calling_iff : E.Goes scene (.calling result) ↔ E.Goes scene (.done result) :=
  ⟨fun h => ⟨h.stands, h.punctual, h.clock, h.live⟩,
    fun h => ⟨h.stands, h.punctual, h.clock, h.live⟩⟩

theorem goes_completed_iff : E.Goes scene (.completed result) ↔ E.Goes scene (.done result) :=
  ⟨fun h => ⟨h.stands, h.punctual, h.clock, h.live⟩,
    fun h => ⟨h.stands, h.punctual, h.clock, h.live⟩⟩

end Same

end Errand

/-- A cycle that is not told an outcome sends its request. -/
theorem Cycle.effect_of_resume?_none {cycle : Cycle} {cursor : Cursor} {now : Binary64}
    {step : CycleStep} (h : cycle.resume? cursor now none = some step) : step.effect = .send := by
  rcases resume?_eq_some h with ⟨-, start, rfl⟩ | ⟨start, outcome, -, hfed, -⟩
  · rfl
  · cases hfed

/-- Where a request is sent, the clock can be read. -/
theorem Cycle.Performs.isFinite {callback : Option Handler} {cycle : Cycle} {cursor : Cursor}
    {now : Binary64} {script : List Exchange} {seen : List (Sighting Handler)} {ending : Ending}
    (h : cycle.Performs callback cursor now none script seen ending) : now.isFinite = true := by
  cases h with
  | send hs he ho hle hlt hr => exact (Binary64.isFinite_of_le_lt hle hlt).1
  | sleep hs he hr => cases he.symm.trans (effect_of_resume?_none hs)
  | finish hs he => cases he.symm.trans (effect_of_resume?_none hs)

theorem Client.callOn?_setCall {w : Client Handler} {c : Nat} {call : Call Handler} {s : Session}
    (h : w.callOn? c = some (call, s)) (call' : Call Handler) (hs : call'.session = call.session)
    (s' : Session) : (w.setCall c call' s').callOn? c = some (call', s') :=
  Ledger.callOn?_setCall (l := w.ledger) h call' hs s'

namespace Errand

variable {E : Errand Handler} {w w' : Client Handler} {script : List Exchange} {e : Exchange}
  {seen shown : List (Sighting Handler)} {scene : Scene Handler} {point : Point}
  {seconds : Binary64} {result : Result} {fed : Option Outcome}

theorem InHand.exists_resumeCall? {cycle : Cycle} {cursor : Cursor} {step : CycleStep}
    (h : E.InHand w cycle cursor) (hs : cycle.resume? cursor w.clock fed = some step) :
    ∃ w', w.resumeCall? E.call fed = some (w', step.effect) ∧ E.Shows w w' (step.shown w.clock)
      ∧ E.InHand w' step.cycle step.cursor := by
  obtain ⟨hc, hrequest⟩ := h
  let w₁ := w.setCall E.call (E.calling step.cycle) (E.held step.cursor)
  have hresume : w.resumeCall? E.call fed = some (step.report.elim w₁ w₁.print, step.effect) := by
    unfold Client.resumeCall?
    rw [hc]
    show (cycle.resume? cursor w.clock fed >>= _) = _
    rw [hs]
    obtain ⟨cycle', cursor', report, effect⟩ := step
    cases report <;> rfl
  have hnext : w₁.callOn? E.call = some (E.calling step.cycle, E.held step.cursor) :=
    Client.callOn?_setCall hc (E.calling step.cycle) rfl (E.held step.cursor)
  have hset : E.Shows w w₁ [] := ⟨rfl, [], (List.append_nil _).symm, by simp, rfl⟩
  have hrequest' : step.cycle.request = E.request := (Cycle.request_of_resume? hs).trans hrequest
  rw [hresume]
  unfold CycleStep.shown
  cases step.report with
  | none => exact ⟨w₁, rfl, hset, hnext, hrequest'⟩
  | some line =>
    exact ⟨w₁.print line, rfl, hset.trans (shows_record w₁ (by simp) rfl), hnext, hrequest'⟩

/-- **Resuming the cycle** shows its report and leads to where its effect is brought about. It does
not raise an error. -/
theorem Goes.resume (h : E.Goes ⟨w, script, seen⟩ (.resuming fed)) :
    ∃ w' effect point shown, w.resumeCall? E.call fed = some (w', effect)
      ∧ effect.point? = some point ∧ point.rank < (Point.resuming fed).rank ∧ E.Shows w w' shown
      ∧ E.Goes ⟨w', script, seen ++ shown⟩ point := by
  obtain ⟨⟨left, hseen, cycle, cursor, hand, hperforms⟩, hpunctual, hfinite, hlive⟩ := h
  -- What is shown is the report, after which an earlier pause is not the last thing seen.
  have hnext : ∀ {step : CycleStep} {w' : Client Handler} {rest : List (Sighting Handler)}
      {point : Point}, E.Shows w w' (step.shown w.clock) →
      left = step.shown w.clock ++ rest → E.Stands w' script rest point →
      (∀ seen now, E.Punctual seen now point ↔ Resumes seen now) →
      E.Goes ⟨w', script, seen ++ step.shown w.clock⟩ point := by
    intro step w' rest point hshows hleft hstands hpoint
    refine ⟨⟨rest, ?_, hstands⟩, (hpoint _ _).2 ?_, ?_, ?_⟩
    · rw [List.append_assoc, ← hleft]
      exact hseen
    · rw [hshows.clock]
      exact Resumes.append hpunctual fun sighting hs seconds =>
        sight_ne_slept_of_mem_shown hs seconds
    · rw [hshows.clock]
      exact hfinite
    · rw [hshows.frontend]
      exact hlive
  generalize hending : E.ending = ending at hperforms
  cases hperforms with
  | @send _ _ _ _ step e outcome rest shown _ hs he ho hle hlt hr =>
    obtain ⟨w', hresume, hshows, hand'⟩ := hand.exists_resumeCall? hs
    rw [hand.2] at hlt hnext
    have hrank : Point.sending.rank < (Point.resuming fed).rank := by
      cases fed <;> simp [Point.rank]
    refine ⟨w', _, .sending, _, hresume, by rw [he]; rfl, hrank, hshows,
      hnext hshows rfl ⟨shown, ?_, ?_⟩ fun _ _ => Iff.rfl⟩
    · rw [hshows.clock]
    · subst hending
      refine ⟨step.cycle, step.cursor, e, outcome, rest, hand', rfl, ho, ?_, ?_, ?_⟩ <;>
        rw [hshows.clock] <;> assumption
  | @sleep _ _ _ seconds _ step _ shown _ hs he hr =>
    obtain ⟨w', hresume, hshows, hand'⟩ := hand.exists_resumeCall? hs
    have hrank : (Point.pausing seconds).rank < (Point.resuming fed).rank := by
      cases fed with
      | none => cases he.symm.trans (Cycle.effect_of_resume?_none hs)
      | some outcome => simp [Point.rank]
    refine ⟨w', _, .pausing seconds, _, hresume, by rw [he]; rfl, hrank, hshows,
      hnext hshows rfl ⟨shown, ?_, ?_⟩ fun _ _ => Iff.rfl⟩
    · rw [hshows.clock]
    · subst hending
      exact ⟨step.cycle, step.cursor, hand', Cycle.pos_of_sleep hs he, hshows.clock.symm ▸ hr⟩
  | @finish _ _ _ _ step result hs he =>
    obtain ⟨w', hresume, hshows, hand'⟩ := hand.exists_resumeCall? hs
    have hrank : (Point.finishing result).rank < (Point.resuming fed).rank := by
      cases fed <;> simp [Point.rank]
    refine ⟨w', _, .finishing result, _, hresume, by rw [he]; rfl, hrank, hshows,
      hnext hshows rfl ⟨step.cycle, step.cursor, hand', rfl, ?_, ?_⟩ fun _ _ => Iff.rfl⟩
    · rw [hshows.clock]
    · rw [hshows.clock]
      exact hending

/-- **The request is sent.** -/
theorem Goes.send (h : E.Goes ⟨w, script, seen⟩ .submitting) (hcalls : w'.calls = w.calls)
    (hsessions : w'.sessions = w.sessions) (hclock : w'.clock = w.clock)
    (hfrontend : w'.frontend = w.frontend) :
    E.Goes ⟨w', script, seen ++ [⟨w.clock, .sent E.request⟩]⟩ .awaiting := by
  obtain ⟨⟨left, hseen, rest, rfl, hawaits⟩, hpunctual, hfinite, hlive⟩ := h
  have hsent : E.Goes ⟨w, script, seen ++ [⟨w.clock, .sent E.request⟩]⟩ .awaiting := by
    refine ⟨⟨rest, ?_, hawaits⟩, ?_, hfinite, hlive⟩
    · rw [List.append_assoc]
      exact hseen
    · exact List.getLast?_concat
  exact hsent.congr hcalls hsessions hclock hfrontend

/-- **A pause begins.** -/
theorem Goes.pause (h : E.Goes ⟨w, script, seen⟩ (.pausing seconds)) (hcalls : w'.calls = w.calls)
    (hsessions : w'.sessions = w.sessions) (hclock : w'.clock = w.clock)
    (hfrontend : w'.frontend = w.frontend) :
    E.Goes ⟨w', script, seen ++ [⟨w.clock, .slept seconds⟩]⟩ (.asleep seconds) := by
  obtain ⟨⟨left, hseen, rest, rfl, hpauses⟩, hpunctual, hfinite, hlive⟩ := h
  have hslept : E.Goes ⟨w, script, seen ++ [⟨w.clock, .slept seconds⟩]⟩ (.asleep seconds) := by
    refine ⟨⟨rest, ?_, hpauses⟩, ?_, hfinite, hlive⟩
    · rw [List.append_assoc]
      exact hseen
    · exact List.getLast?_concat
  exact hslept.congr hcalls hsessions hclock hfrontend

/-- **The pause is over.** -/
theorem Goes.wake (h : E.Goes ⟨w, script, seen⟩ (.asleep seconds)) :
    w.clock.le (w.clock + seconds) = true ∧ (w.clock + seconds).isFinite = true
      ∧ E.Goes ⟨{ w with clock := w.clock + seconds }, script, seen⟩ (.resuming none) := by
  obtain ⟨⟨left, hseen, cycle, cursor, hand, hpos, hperforms⟩, hpunctual, hfinite, hlive⟩ := h
  refine ⟨Binary64.le_add hfinite hpos, hperforms.isFinite,
    ⟨left, hseen, cycle, cursor, hand, hperforms⟩, ?_, hperforms.isFinite, hlive⟩
  intro before seconds' hlast
  obtain ⟨rfl, hsight⟩ := Sighting.mk.inj (Option.some.inj (hpunctual.symm.trans hlast))
  cases hsight
  rfl

/-- Where no pause is awaited, the last one that was seen is over. -/
theorem Goes.eq_of_slept {before : Binary64} (h : E.Goes ⟨w, script, seen⟩ point)
    (hp : ∀ s, point ≠ .asleep s) (hs : seen.getLast? = some ⟨before, .slept seconds⟩) :
    before + seconds = w.clock := by
  have hpunctual := h.punctual
  cases point with
  | asleep s => exact absurd rfl (hp s)
  | awaiting => cases hpunctual.symm.trans hs
  | _ => exact (hpunctual before seconds hs).symm

/-- **A pause that leads nowhere is over at once.** -/
theorem Goes.skip (h : E.Goes ⟨w, script, seen⟩ (.asleep seconds))
    (hle : (w.clock + seconds).le w.clock = true) : E.Goes ⟨w, script, seen⟩ (.resuming none) := by
  obtain ⟨left, hseen, cycle, cursor, hand, hpos, hperforms⟩ := h.stands
  have hsame := Binary64.add_eq_of_add_le h.clock hpos hle
  have hwoken := h.wake.2.2
  rw [hsame] at hwoken
  exact hwoken

/-- **The answer comes.** -/
theorem Goes.answer (h : E.Goes ⟨w, e :: script, seen⟩ .awaiting) :
    ∃ outcome, e.answer.outcome = .ok outcome ∧ w.clock.le (w.clock + e.takes) = true
      ∧ (w.clock + e.takes).lt (w.clock + E.request.timeout) = true
      ∧ E.Goes ⟨{ w with clock := w.clock + e.takes }, script, seen⟩
        (.resuming (some outcome)) := by
  obtain ⟨⟨left, hseen, hawaits⟩, hpunctual, hfinite, hlive⟩ := h
  obtain ⟨cycle, cursor, e', outcome, rest, hand, hscript, ho, hle, hlt, hperforms⟩ := hawaits
  obtain ⟨rfl, rfl⟩ := List.cons.inj hscript
  refine ⟨outcome, ho, hle, hlt, ⟨left, hseen, cycle, cursor, hand, hperforms⟩, ?_,
    (Binary64.isFinite_of_le_lt hle hlt).2, hlive⟩
  intro before seconds hlast
  obtain ⟨-, hsight⟩ := Sighting.mk.inj (Option.some.inj (hpunctual.symm.trans hlast))
  cases hsight

/-- **The call is completed**, which shows the notification of its callback. -/
theorem Goes.complete (h : E.Goes ⟨w, script, seen⟩ (.finishing result)) :
    ∃ w' shown, w.completeCall E.call result = .ok (w', E.callback.isSome) ∧ E.Shows w w' shown
      ∧ E.Goes ⟨w', script, seen ++ shown⟩ (.done result) := by
  obtain ⟨⟨left, hseen, cycle, cursor, ⟨hc, -⟩, rfl, rfl, hending⟩, hpunctual, hfinite, hlive⟩ := h
  let call' : Call Handler := { E.calling cycle with settled := true }
  let w₁ := w.setCall E.call call' E.released
  have hnext : w₁.callOn? E.call = some (call', E.released) :=
    Client.callOn?_setCall hc call' rfl E.released
  have hreleased : (E.held cursor).release (some result) = E.released := by
    unfold released
    rw [hending]
    rfl
  have hcomplete : (E.calling cycle).complete (E.held cursor) result = .ok (call', E.released) :=
    (Call.complete_eq_ok_iff _ _ _ _ _).2 ⟨rfl, rfl, hreleased.symm⟩
  have hdone : w.completeCall E.call result = .ok (E.callback.elim (w₁, false) fun handler =>
      (w₁.record (.notified E.call handler (Notification.ofResult result)), true)) := by
    unfold Client.completeCall
    rw [hc]
    dsimp only
    rw [hcomplete]
    generalize hcallback : E.callback = callback
    have hcall' : call'.callback = callback := hcallback
    dsimp only
    rw [hcall']
    cases callback <;> rfl
  have hset : E.Shows w w₁ [] := ⟨rfl, [], (List.append_nil _).symm, by simp, rfl⟩
  have hshows : ∃ w', w.completeCall E.call result = .ok (w', E.callback.isSome)
      ∧ E.Shows w w' (result.told E.callback w.clock) ∧ w'.callOn? E.call = w₁.callOn? E.call := by
    rw [hdone]
    unfold Result.told
    cases E.callback with
    | none => exact ⟨w₁, rfl, hset, rfl⟩
    | some handler => exact ⟨_, rfl, hset.trans (shows_record w₁ (by simp) rfl), rfl⟩
  obtain ⟨w', hresult, hshows, hcall⟩ := hshows
  refine ⟨w', _, hresult, hshows, ⟨[], ?_, rfl, rfl, ?_, ?_, cycle, hcall.trans hnext⟩, ?_, ?_, ?_⟩
  · rw [List.append_nil]
    exact hseen
  · rw [hending]
  · rw [hshows.clock, hending]
  · rw [hshows.clock]
    exact Resumes.append hpunctual fun sighting hs seconds => sight_ne_slept_of_mem_told hs seconds
  · rw [hshows.clock]
    exact hfinite
  · rw [hshows.frontend]
    exact hlive

/-- **A drive takes the operation on** from where its cycle is to be resumed. -/
theorem Goes.drive (h : E.Goes ⟨w, script, seen⟩ (.resuming fed)) :
    ∃ w' drive point shown, w.stepDrive? E.call (.resuming fed) = some (w', drive)
      ∧ drive.point? = some point ∧ point.rank < (Point.resuming fed).rank ∧ E.Shows w w' shown
      ∧ E.Goes ⟨w', script, seen ++ shown⟩ point := by
  obtain ⟨w₁, effect, point, shown, hresume, hpoint, hrank, hshows, hgoes⟩ := h.resume
  unfold Client.stepDrive?
  dsimp only
  rw [hresume]
  cases effect with
  | send =>
    cases hpoint
    have hsent : E.Shows w₁ (w₁.record (.sent E.call)) [⟨w₁.clock, .sent E.request⟩] :=
      shows_record w₁ (by simp) rfl
    dsimp only
    rw [if_neg (Bool.eq_false_iff.1 hgoes.live.connections)]
    refine ⟨_, _, .awaiting, _, rfl, rfl, Nat.lt_trans (by simp [Point.rank]) hrank,
      hshows.trans hsent, ?_⟩
    rw [← List.append_assoc]
    exact (goes_submitting_iff.2 hgoes).send rfl rfl rfl rfl
  | sleep seconds =>
    cases hpoint
    have hslept : E.Shows w₁ (w₁.record (.slept E.call seconds)) [⟨w₁.clock, .slept seconds⟩] :=
      shows_record w₁ (by simp) rfl
    refine ⟨_, _, .asleep seconds, _, rfl, rfl, Nat.lt_trans (by simp [Point.rank]) hrank,
      hshows.trans hslept, ?_⟩
    rw [← List.append_assoc]
    exact hgoes.pause rfl rfl rfl rfl
  | finish result =>
    cases hpoint
    obtain ⟨w₂, notified, hcomplete, hnotified, hdone⟩ := hgoes.complete
    dsimp only
    rw [hcomplete]
    rw [List.append_assoc] at hdone
    cases E.callback.isSome with
    | true =>
      exact ⟨_, _, .calling result, _, rfl, rfl, Nat.lt_trans (by simp [Point.rank]) hrank,
        hshows.trans hnotified, goes_calling_iff.2 hdone⟩
    | false =>
      exact ⟨_, _, .completed result, _, rfl, rfl, Nat.lt_trans (by simp [Point.rank]) hrank,
        hshows.trans hnotified, goes_completed_iff.2 hdone⟩
  | raise e => cases hpoint

end Errand

end Pubsub
