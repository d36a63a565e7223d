import Pubsub.Proofs.DrivenHands
import Pubsub.Proofs.ReactingHands
import Pubsub.Proofs.Subscribing

/-!
# Frontends agree

Whichever frontend a client uses, an operation stays on its track (`OnTrack.next`), it can always
go on until it is over (`OnTrack.exists_leads_isOver`), and then it has ended as it should
(`OnTrack.concludes`). As the track does not depend on the frontend, frontends agree
(`Client.frontends_agree`): they send the same requests, make the same pauses, print the same
reports, tell callbacks the same, come to the same result and leave the session in the same state.
-/

namespace Pubsub

variable {Handler : Type}

namespace Scene

variable {p : Places} {w w' : Client Handler} {script : List Exchange}
  {seen : List (Sighting Handler)} {action : Action Handler}

/-- A step of which nothing is seen. -/
theorem next_of_quiet (ho : p.IsOwn action) (ha : w.act? action = some w')
    (hj : w'.journal = w.journal) (hp : w.pause? action = none) :
    Next p ⟨w, script, seen⟩ ⟨w', script, seen⟩ := by
  have hnext : Next p ⟨w, script, seen⟩ ⟨w', script, seen ++ w.sightings action w'⟩ := .own ho ha
  rw [Client.sightings_eq_nil hj hp, List.append_nil] at hnext
  exact hnext

/-- A reactor can turn its loop. -/
theorem leads_of_idles {r : Reactor Job} (hw : w.work = .none)
    (h : Relation.ReflTransGen (Reactor.Idles w.attempts w.clock) w.reactor r) :
    Leads p ⟨w, script, seen⟩ ⟨{ w with reactor := r }, script, seen⟩ := by
  induction h with
  | refl => exact .refl
  | @tail r r' _ hturn ih =>
    refine ih.tail ?_
    cases hturn with
    | poll hp =>
      refine next_of_quiet .reactorPolls ?_ rfl (Client.pause?_of_ne (by simp))
      show Client.pollReactor? _ = _
      unfold Client.pollReactor?
      dsimp only
      rw [hw, hp]
    | step hs hn =>
      refine next_of_quiet .reactor ?_ rfl (Client.pause?_of_work (by simp [hw]))
      show Client.stepReactor? _ = _
      rw [Client.stepReactor?_of_idle (w := { w with reactor := r }) hw hs]
      rcases hn with rfl | ⟨a, rfl, ha⟩
      · rfl
      · exact congrArg some (Client.beginJob_of_settled (w := { w with reactor := r' }) ha)

/-- A reactor can turn its loop until it takes a job that is ready. -/
theorem leads_of_comesTo {r : Reactor Job} {job : Job} (hw : w.work = .none)
    (h : w.reactor.ComesTo w.attempts w.clock job r) :
    Leads p ⟨w, script, seen⟩
      ⟨({ w with reactor := r } : Client Handler).beginJob job, script, seen⟩ := by
  obtain ⟨before, hpath, hstep⟩ := h
  refine (leads_of_idles hw hpath).tail (next_of_quiet .reactor ?_
    (Client.journal_beginJob _ job) (Client.pause?_of_work (by simp [hw])))
  show Client.stepReactor? _ = _
  rw [Client.stepReactor?_of_idle (w := { w with reactor := before }) hw hstep]
  rfl

end Scene

namespace Errand

variable {E : Errand Handler} {scene later : Scene Handler} {point : Point} {w : Client Handler}
  {script : List Exchange} {seen : List (Sighting Handler)}

/-! ## On track -/

/-- **An operation stays on its track**, whatever happens next. -/
theorem OnTrack.next (h : E.OnTrack scene point) (hn : Scene.Next E.toPlaces scene later) :
    ∃ point', E.OnTrack later point' := by
  obtain ⟨w, script, seen⟩ := scene
  cases h.hands with
  | passing hrest hp => exact hp.next h.goes hrest hn
  | driving hrest hs hd => exact next_of_holds hs hd h.goes hrest hn
  | waiting he hw hr hwaits => exact hwaits.next he hw hr h.goes hn
  | working he hr hpool hworks => exact hworks.next he hr hpool h.goes hn

/-- **An operation stays on its track** as long as the scene goes on. -/
theorem OnTrack.leads (h : E.OnTrack scene point) (hl : Scene.Leads E.toPlaces scene later) :
    ∃ point', E.OnTrack later point' := by
  induction hl with
  | refl => exact ⟨point, h⟩
  | tail _ hn ih =>
    obtain ⟨point', htrack⟩ := ih
    exact htrack.next hn

/-! ## Going on -/

/-- The scene can lead to one on track from which less is left to be done. -/
def Advances (E : Errand Handler) (scene : Scene Handler) (point : Point) : Prop :=
  ∃ next point', Scene.Leads E.toPlaces scene next ∧ E.OnTrack next point'
    ∧ next.measure point' < scene.measure point

theorem Moves.advances {action : Action Handler} (h : E.Moves ⟨w, script, seen⟩ point action)
    (ho : E.toPlaces.IsOwn action) : E.Advances ⟨w, script, seen⟩ point := by
  obtain ⟨w', point', ha, hrank, htrack⟩ := h
  exact ⟨_, point', .single (.own ho ha), htrack, Nat.add_lt_add_left hrank _⟩

/-- A job that is ready is taken, which takes the operation on. -/
theorem advances_of_isReady {items : Multiset (Command Job)} {item : Command Job} {job : Job}
    {point' : Point} (hw : w.work = .none)
    (hr : w.reactor.Awaits w.attempts w.clock (item ::ₘ items))
    (hready : w.reactor.IsReady w.clock item job)
    (hahead : ∀ other ∈ items, Reactor.LiesAhead w.clock other) (hrank : point'.rank < point.rank)
    (htrack : ∀ r, r.Awaits w.attempts w.clock items →
      E.OnTrack ⟨({ w with reactor := r } : Client Handler).beginJob job, script, seen⟩ point') :
    E.Advances ⟨w, script, seen⟩ point := by
  obtain ⟨r, hcomes, hawaits⟩ := hr.exists_comesTo hready hahead
  exact ⟨_, point', Scene.leads_of_comesTo hw hcomes, htrack r hawaits, Nat.add_lt_add_left hrank _⟩

/-- The answer that is awaited comes. -/
theorem advances_of_answer {e : Exchange} {w' : Client Handler} {action : Action Handler}
    {point' : Point} (hgoes : E.Goes ⟨w, e :: script, seen⟩ .awaiting)
    (ho : E.toPlaces.IsAnswer e.answer.outcome action)
    (ha : w.run? [.tick (w.clock + e.takes), action] = some w') (hrank : point'.rank ≤ 12)
    (htrack : E.OnTrack ⟨w', script, seen⟩ point') :
    E.Advances ⟨w, e :: script, seen⟩ .awaiting := by
  refine ⟨_, point', .single (.answer hgoes.punctual ho ha), htrack, ?_⟩
  unfold Scene.measure
  simp only [List.length_cons]
  have hawaiting : Point.awaiting.rank = 4 := rfl
  omega

/-- The pause that is awaited is over. -/
theorem advances_of_wake {seconds : Binary64} {w' : Client Handler} {point' : Point}
    (hgoes : E.Goes ⟨w, script, seen⟩ (.asleep seconds))
    (ha : w.run? (.tick (w.clock + seconds) :: E.toPlaces.wake w.frontend.kind) = some w')
    (hrank : point'.rank < 9) (htrack : E.OnTrack ⟨w', script, seen⟩ point') :
    E.Advances ⟨w, script, seen⟩ (.asleep seconds) :=
  ⟨_, point', .single (.wake hgoes.punctual ha), htrack, Nat.add_lt_add_left hrank _⟩

/-- Where an answer is awaited, one is to come. -/
theorem Goes.exists_exchange (h : E.Goes ⟨w, script, seen⟩ .awaiting) :
    ∃ e rest, script = e :: rest := by
  obtain ⟨left, -, cycle, cursor, e, outcome, rest, -, rfl, -⟩ := h.stands
  exact ⟨e, rest, rfl⟩

theorem Ended.settled {result : Result} {left : List (Sighting Handler)}
    (h : E.Ended w result script left) {call : Call Handler} (hc : w.calls[E.call]? = some call) :
    call.settled = true := by
  obtain ⟨-, -, -, -, cycle, hcall⟩ := h
  obtain rfl := Option.some.inj ((Client.callOn?_eq_some_iff.1 hcall).1.symm.trans hc)
  rfl

theorem advances_or_isOver_of_passes (h : E.Passes w point)
    (hgoes : E.Goes ⟨w, script, seen⟩ point) (hrest : w.AtRest) :
    E.Advances ⟨w, script, seen⟩ point ∨ Scene.IsOver E.toPlaces ⟨w, script, seen⟩ := by
  cases h with
  | asked h hopen hfree => exact .inl ((h.moves_claim hgoes hrest hopen hfree).advances .invocation)
  | claimed h => exact .inl ((h.moves_build hgoes hrest).advances .invocation)
  | launching hp ht => exact .inl ((moves_launch hp ht hgoes hrest).advances .invocation)
  | unstarted hk hp ht => exact .inl ((moves_run hk hp ht hgoes hrest).advances .task)
  | returned hk hp ht =>
    obtain ⟨left, -, hended⟩ := hgoes.stands
    refine .inr ⟨⟨_, hp⟩, fun phase hphase => ?_, fun call hc => hended.settled hc, hrest.work⟩
    cases (Client.taskPhase?_of_none ht).symm.trans hphase

theorem advances_or_isOver_of_holds {seat : Seat} {drive : Drive}
    (hs : seat.Holds E.toPlaces w drive) (hd : drive.point? = some point)
    (hgoes : E.Goes ⟨w, script, seen⟩ point) (hrest : w.AtRest) :
    E.Advances ⟨w, script, seen⟩ point ∨ Scene.IsOver E.toPlaces ⟨w, script, seen⟩ := by
  cases drive with
  | resuming fed =>
    cases hd
    exact .inl ((moves_drive hs hgoes hrest).advances (seat.isOwn_step _))
  | inFlight =>
    cases hd
    obtain ⟨e, rest, rfl⟩ := hgoes.exists_exchange
    obtain ⟨w', outcome, ha, htrack⟩ := exists_run_answer hs hgoes hrest
    exact .inl
      (advances_of_answer hgoes (seat.isAnswer_answer _ _) ha (by simp [Point.rank]) htrack)
  | asleep seconds =>
    cases hd
    obtain ⟨w', ha, htrack⟩ := exists_run_wake hs hgoes hrest
    exact .inl (advances_of_wake hgoes ha (by simp [Point.rank]) htrack)
  | calling result =>
    cases hd
    exact .inl ((moves_back hs hgoes hrest).advances (seat.isOwn_back _))
  | finished result =>
    cases hd
    cases seat with
    | thread => exact .inl ((moves_finish hs hgoes hrest).advances .invocation)
    | task =>
      obtain ⟨left, -, hended⟩ := hgoes.stands
      have htask := Client.taskPhase?_of_some hs.2.2
      refine .inr ⟨⟨_, hs.2.1⟩, fun phase hphase => ?_, fun call hc => hended.settled hc,
        hrest.work⟩
      exact .inl ⟨result, Option.some.inj (hphase.symm.trans htask)⟩
  | failing e => cases hd
  | failed e => cases hd

theorem advances_or_isOver_of_waits {items : Multiset (Command Job)} (h : E.Waits w items point)
    (he : E.Entrusted w) (hw : w.work = .none) (hr : w.reactor.Awaits w.attempts w.clock items)
    (hgoes : E.Goes ⟨w, script, seen⟩ point) :
    E.Advances ⟨w, script, seen⟩ point ∨ Scene.IsOver E.toPlaces ⟨w, script, seen⟩ := by
  cases h with
  | queued hpool =>
    exact .inl (advances_of_isReady hw hr (.inl rfl) (by simp) (by decide) fun r hawaits =>
      onTrack_beginAdvance he hpool hawaits (goes_resuming_iff.2 hgoes))
  | inFlight ha hpool =>
    obtain ⟨e, rest, rfl⟩ := hgoes.exists_exchange
    obtain ⟨w', outcome, hrun, htrack⟩ := exists_run_post he hw hr ha hpool hgoes
    exact .inl (advances_of_answer hgoes (.attempt _) hrun (by simp [Point.rank]) htrack)
  | arrived ha hlt hpool =>
    refine .inl (advances_of_isReady hw hr (.inl rfl) ?_ ?_ fun r hawaits =>
      onTrack_beginArrive he hpool ha hawaits hgoes)
    · intro other hother
      rw [Multiset.mem_singleton.1 hother]
      exact ⟨_, rfl, Binary64.not_le_of_lt hlt⟩
    · simp [Point.rank]
  | asleep hn hpool =>
    obtain ⟨w', ha, htrack⟩ := exists_run_elapse he hw hr hn hpool hgoes
    exact .inl (advances_of_wake hgoes ha (by simp [Point.rank]) htrack)
  | woken hn hpool =>
    have hdue : w.clock.le w.clock = true :=
      Binary64.le_refl (Binary64.ne_nan_of_isFinite hgoes.clock)
    exact .inl (advances_of_isReady hw hr (.inr ⟨_, rfl, rfl, hdue, hn⟩) (by simp) (by decide)
      fun r hawaits => onTrack_beginAdvance he hpool hawaits (goes_resuming_iff.2 hgoes))
  | completed hpool =>
    obtain ⟨left, -, hended⟩ := hgoes.stands
    refine .inr ⟨⟨_, he.phase⟩, fun phase hphase => ?_, fun call hc => hended.settled hc, hw⟩
    cases (Client.taskPhase?_of_none he.task).symm.trans hphase

theorem advances_of_works {items : Multiset (Command Job)} (h : E.Works w items point)
    (he : E.Entrusted w) (hr : w.reactor.Awaits w.attempts w.clock items)
    (hpool : Attempt.NoneInFlight w.attempts) (hgoes : E.Goes ⟨w, script, seen⟩ point) :
    E.Advances ⟨w, script, seen⟩ point := by
  cases h with
  | advancing hw => exact (moves_advance he hr hpool hw hgoes).advances .reactor
  | arming hw => exact (moves_arm he hr hpool hw hgoes).advances .reactor
  | submitting hw ha => exact (moves_submit he hr hpool hw ha hgoes).advances .reactor
  | pausing hw => exact (moves_pause he hr hpool hw hgoes).advances .reactor
  | calling hw => exact (moves_return he hr hpool hw hgoes).advances .reactorReturns

/-- **An operation that is not over can go on.** -/
theorem OnTrack.advances_or_isOver (h : E.OnTrack scene point) :
    E.Advances scene point ∨ scene.IsOver E.toPlaces := by
  obtain ⟨w, script, seen⟩ := scene
  cases h.hands with
  | passing hrest hp => exact advances_or_isOver_of_passes hp h.goes hrest
  | driving hrest hs hd => exact advances_or_isOver_of_holds hs hd h.goes hrest
  | waiting he hw hr hwaits => exact advances_or_isOver_of_waits hwaits he hw hr h.goes
  | working he hr hpool hworks => exact .inl (advances_of_works hworks he hr hpool h.goes)

/-- **An operation can go on until it is over.** -/
theorem OnTrack.exists_leads_isOver (h : E.OnTrack scene point) :
    ∃ last, Scene.Leads E.toPlaces scene last ∧ last.IsOver E.toPlaces := by
  generalize hn : scene.measure point = n
  induction n using Nat.strongRecOn generalizing scene point with
  | ind n ih =>
    rcases h.advances_or_isOver with ⟨next, point', hleads, htrack, hless⟩ | hover
    · obtain ⟨last, hlast, hover⟩ := ih _ (hn ▸ hless) htrack rfl
      exact ⟨last, hleads.trans hlast, hover⟩
    · exact ⟨scene, .refl, hover⟩

/-! ## The end -/

/-- What was seen of an operation on its track is as it should be. -/
theorem OnTrack.isPrefix_seen (h : E.OnTrack scene point) : scene.seen <+: E.sights := by
  obtain ⟨left, hseen, -⟩ := h.goes.stands
  exact ⟨left, hseen⟩

/-- An operation whose call goes on is not over. -/
theorem InHand.not_isOver {cycle : Cycle} {cursor : Cursor} (h : E.InHand w cycle cursor) :
    ¬ Scene.IsOver E.toPlaces ⟨w, script, seen⟩ := by
  intro ho
  have hsettled : false = true := ho.call _ (Client.callOn?_eq_some_iff.1 h.1).1
  cases hsettled

theorem Ended.concludes {result : Result} {left : List (Sighting Handler)}
    (h : E.Ended w result script left) (hseen : seen ++ left = E.sights)
    (hback : w.GaveBack E.toPlaces result) (hrest : w.AtRest) :
    Scene.Concludes E.toPlaces E.session E.before E.sights E.ending ⟨w, script, seen⟩ := by
  obtain ⟨rfl, rfl, rfl, hclock, cycle, hcall⟩ := h
  rw [List.append_nil] at hseen
  exact ⟨hseen, rfl, hclock, (Client.callOn?_eq_some_iff.1 hcall).2, hback, hrest⟩

theorem concludes_of_passes (h : E.Passes w point) (hgoes : E.Goes ⟨w, script, seen⟩ point)
    (hrest : w.AtRest) (ho : Scene.IsOver E.toPlaces ⟨w, script, seen⟩) :
    Scene.Concludes E.toPlaces E.session E.before E.sights E.ending ⟨w, script, seen⟩ := by
  obtain ⟨left, hseen, hstands⟩ := hgoes.stands
  obtain ⟨outcome, hended⟩ := ho.invocation
  cases h with
  | asked h hopen hfree => cases h.invocationPhase?.symm.trans hended
  | claimed h => cases h.invocationPhase?.symm.trans hended
  | launching hp ht => cases hp.symm.trans hended
  | unstarted hk hp ht =>
    obtain ⟨cycle, cursor, hand, -⟩ := hstands
    exact absurd ho hand.not_isOver
  | returned hk hp ht =>
    refine hstands.concludes hseen ?_ hrest
    unfold Client.GaveBack
    rw [hk]
    exact hp

theorem concludes_of_holds {seat : Seat} {drive : Drive} (hs : seat.Holds E.toPlaces w drive)
    (hd : drive.point? = some point) (hgoes : E.Goes ⟨w, script, seen⟩ point) (hrest : w.AtRest)
    (ho : Scene.IsOver E.toPlaces ⟨w, script, seen⟩) :
    Scene.Concludes E.toPlaces E.session E.before E.sights E.ending ⟨w, script, seen⟩ := by
  cases seat with
  | thread =>
    obtain ⟨outcome, hended⟩ := ho.invocation
    cases hs.2.1.symm.trans hended
  | task =>
    have htask := Client.taskPhase?_of_some hs.2.2
    obtain ⟨result, hfinished⟩ | ⟨e, hfailed⟩ := ho.task _ htask
    · cases hfinished
      cases hd
      obtain ⟨left, hseen, hstands⟩ := hgoes.stands
      refine hstands.concludes hseen ?_ hrest
      unfold Client.GaveBack
      rw [hs.1]
      exact ⟨hs.2.1, htask⟩
    · cases hfailed
      cases hd

theorem concludes_of_waits {items : Multiset (Command Job)} (h : E.Waits w items point)
    (he : E.Entrusted w) (hw : w.work = .none) (hr : w.reactor.Awaits w.attempts w.clock items)
    (hgoes : E.Goes ⟨w, script, seen⟩ point) (ho : Scene.IsOver E.toPlaces ⟨w, script, seen⟩) :
    Scene.Concludes E.toPlaces E.session E.before E.sights E.ending ⟨w, script, seen⟩ := by
  obtain ⟨left, hseen, hstands⟩ := hgoes.stands
  cases h with
  | queued hpool | arrived ha hlt hpool | woken hn hpool | asleep hn hpool =>
    obtain ⟨cycle, cursor, hand, -⟩ := hstands
    exact absurd ho hand.not_isOver
  | inFlight ha hpool =>
    obtain ⟨cycle, cursor, e, outcome, rest, hand, -⟩ := hstands
    exact absurd ho hand.not_isOver
  | completed hpool =>
    refine hstands.concludes hseen ?_ ⟨hw, hpool, hr⟩
    unfold Client.GaveBack
    rw [he.kind]
    exact he.phase

/-- **An operation that is over has ended as it should.** -/
theorem OnTrack.concludes (h : E.OnTrack scene point) (ho : scene.IsOver E.toPlaces) :
    scene.Concludes E.toPlaces E.session E.before E.sights E.ending := by
  obtain ⟨w, script, seen⟩ := scene
  cases h.hands with
  | passing hrest hp => exact concludes_of_passes hp h.goes hrest ho
  | driving hrest hs hd => exact concludes_of_holds hs hd h.goes hrest ho
  | waiting he hw hr hwaits => exact concludes_of_waits hwaits he hw hr h.goes ho
  | working he hr hpool hworks => exact absurd ho.work hworks.work_ne_none

end Errand

/-! ## Agreement -/

namespace Client

/-- A client that has done nothing yet is at rest. -/
theorem atRest_of_new {w : Client Handler} (hw : w.work = .none) (ha : w.attempts = [])
    (hr : w.reactor = Reactor.initial) (hnow : w.clock.isFinite = true) : w.AtRest := by
  refine ⟨hw, ?_, ?_⟩
  · rw [ha]
    rintro attempt ⟨⟩
  · rw [hr]
    exact Reactor.Awaits.initial w.attempts hnow

variable {s : Session} {config config' : Configuration} {fresh : Bytes} {operation : Operation}
  {timeout : Json} {request : Request} {now : Binary64} {script : List Exchange}

/-- **Frontends agree.** An operation of an idle session leads to a request, and the server answers
in time, according to a script whose last answer is the first that ends the operation. Then what is
to be seen, at which readings of the clock, and how the operation ends is settled by that alone:
whatever its frontend is, any client at rest with that session shows nothing else, can always go on
until the operation is over, and has then shown all of it, come to the same result, left the session
idle with the same cursor and the same last result, and is at rest again. -/
theorem frontends_agree (handler : Option Handler) (hopen : s.closed = false)
    (hfree : s.busy = false)
    (hbuild : Request.build s.profile s.cursor fresh config operation timeout
      = (.ok request, config'))
    (hq : request.query ≠ .bare) (htimely : request.Timely s.policy now now script) :
    ∃ sights ending,
      (Cycle.start request s.policy (request.kind == .subscribe)).Performs handler s.cursor now none
        script sights ending
      ∧ ∀ (w : Client Handler) (i : Nat) (callback : Option Handler) (scene : Scene Handler),
        w.AtRest → w.frontend.IsLive → w.sessions[i]? = some s → w.config = config →
        w.fresh = fresh → w.clock = now → callback.or w.frontend.callback = handler →
        Scene.Leads w.places ⟨w.ask i operation timeout callback, script, []⟩ scene →
        scene.seen <+: sights
        ∧ (∃ last, Scene.Leads w.places scene last ∧ last.IsOver w.places)
        ∧ (scene.IsOver w.places → scene.Concludes w.places i s sights ending) := by
  obtain ⟨sights, ending, hperforms⟩ := htimely.exists_performs hq handler s.cursor
  refine ⟨sights, ending, hperforms, ?_⟩
  rintro w i callback scene hrest hlive hsession rfl rfl rfl hcallback hleads
  let E : Errand Handler :=
    { w.places with
      session := i
      before := s
      request
      callback := handler
      sights
      ending }
  have hasks : E.Asks (w.ask i operation timeout callback) .asked :=
    ⟨operation, timeout, callback, config', List.getElem?_concat_length, hbuild, hcallback, rfl,
      rfl⟩
  have hasked : E.OnTrack ⟨w.ask i operation timeout callback, script, []⟩ .asked := by
    refine ⟨⟨⟨sights, rfl, hsession, hperforms⟩, ?_, hrest.reactor.now, hlive⟩,
      .passing ⟨hrest.work, hrest.pool, hrest.reactor⟩ (.asked hasks hopen hfree)⟩
    rintro before seconds ⟨⟩
  obtain ⟨point, htrack⟩ := hasked.leads hleads
  exact ⟨htrack.isPrefix_seen, htrack.exists_leads_isOver, htrack.concludes⟩

/-- A session that retries everything. -/
def patientSession : Session :=
  ⟨⟨"p", "s", none, .hmacSha256, none, "http://o", "u"⟩, Cycle.patient, .empty, false, true, none,
    false, false⟩

/-- A new client with that session. -/
def waitingRoom (kind : FrontendKind) : Client Nat :=
  { initial (Configuration.initial ⟨[]⟩ none) [] (Frontend.borrowing kind) with
    sessions := [patientSession] }

/-- First the answer takes too long for the network, and then there is a message. -/
def exchanges : List Exchange :=
  [⟨.fault "ReadTimeout" "slow", 1⟩, ⟨.response 200 (utf8Bytes "[[7],\"20\"]"), 1⟩]

/-- With every frontend a subscription that is retried once can go on until it is over, and then it
has ended in the same way. -/
theorem frontends_agree_subscription :
    ∃ sights ending, ∀ kind : FrontendKind, ∃ scene,
      Scene.Leads (waitingRoom kind).places
          ⟨(waitingRoom kind).ask 0 (.subscribe (.str "a")) (.int 5) (some 7), exchanges, []⟩ scene
        ∧ scene.Concludes (waitingRoom kind).places 0 patientSession sights ending := by
  have hname : ∀ name ∈ ["a"], IsChannelName name := by
    intro name hm
    rw [List.mem_singleton.1 hm]
    exact ⟨by decide, by decide⟩
  have hbuild : Request.build patientSession.profile patientSession.cursor []
      (Configuration.initial ⟨[]⟩ none) (.subscribe (.str "a")) (.int 5)
        = (.ok Cycle.subscription, Configuration.initial ⟨[]⟩ none) :=
    Request.build_of_subscribesTo (.one "a") (List.cons_ne_nil _ _) hname rfl
      (Json.toDouble_int (n := 5) (by decide +kernel)) _ _ _ _
  have htimely : Cycle.subscription.Timely patientSession.policy 0 0 exchanges := by
    have hretries : ¬ patientSession.policy.Stops 0 (0 + 1)
        (Cycle.subscription.resultOf (.failure .timeout (some "ReadTimeout: slow"))).code := by
      rintro (h | h | h | ⟨budget, h, hspent⟩)
      · exact absurd h (by decide)
      · exact absurd h (by decide)
      · exact absurd h (by decide)
      · have hbudget : some 10 = some budget := h
        rw [← Option.some.inj hbudget] at hspent
        exact absurd hspent (by decide +kernel)
    have hslow : Answer.outcome (.fault "ReadTimeout" "slow")
        = .ok (.failure .timeout (some "ReadTimeout: slow")) := rfl
    have hreply : Answer.outcome (.response 200 (utf8Bytes "[[7],\"20\"]"))
        = .ok (.reply 200 (utf8Bytes "[[7],\"20\"]")) := rfl
    have hdelay : Binary64.lt 0 patientSession.policy.delay = true := by decide +kernel
    refine .retry hslow (by decide +kernel) (by decide +kernel) hretries ?_
    rw [if_pos hdelay]
    exact .last hreply (by decide +kernel) (by decide +kernel) (Or.inl (by decide +kernel))
  obtain ⟨sights, ending, -, h⟩ :=
    frontends_agree (some 7) (s := patientSession) rfl rfl hbuild (by decide) htimely
  refine ⟨sights, ending, fun kind => ?_⟩
  have hzero : (0 : Binary64).isFinite = true := by decide +kernel
  have hrest : (waitingRoom kind).AtRest := atRest_of_new rfl rfl rfl hzero
  have hlive : (waitingRoom kind).frontend.IsLive := ⟨rfl, fun _ => rfl, fun _ => rfl⟩
  have hagrees := fun scene => h (waitingRoom kind) 0 (some 7) scene hrest hlive rfl rfl rfl rfl rfl
  obtain ⟨-, ⟨last, hlast, hover⟩, -⟩ := hagrees _ .refl
  exact ⟨last, hlast, (hagrees last hlast).2.2 hover⟩

end Client

end Pubsub
