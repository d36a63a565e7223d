import Pubsub.Proofs.Addresses
import Pubsub.Proofs.Handovers
import Pubsub.Proofs.SentPositions
import Pubsub.Proofs.SoleUse

/-!
# Positions that follow what a listener takes up

A listener that has its session to itself asks for one subscription there after the other. The
positions of the session are moved by the results of these subscriptions alone: an OK result moves
all channels of the listener to its timetoken, a failure leaves them where they are
(`Cursor.heed`). A subscription that is in progress was built from the positions that the results
before it left (`Client.Course`), so it continues exactly where the last one ended. Both are kept by
every action, whatever goes on beside the session (`Client.Follows`).
-/

namespace Pubsub

/-! ## What a result does to the positions -/

/-- A result can be handed on without a loss: if it is OK, it has a channel for each message, and a
timetoken. -/
def Result.IsWhole (result : Result) : Prop :=
  result.code = .ok → ∃ channels messages timetoken, result.channels = some channels
    ∧ result.messages = some messages ∧ channels.length = messages.length
    ∧ result.timetoken = some timetoken

/-- The messages of a whole result, and their channels. -/
theorem Return.map_messages {r : Return} (hlate : r.late = false) (hcode : r.result.code = .ok)
    (hwhole : r.result.IsWhole) : r.result.channels = some (r.messages.map Prod.fst)
      ∧ r.result.messages = some (r.messages.map Prod.snd) := by
  obtain ⟨channels, messages, -, hchannels, hmessages, hlength, -⟩ := hwhole hcode
  have hpairs : r.messages = channels.zip messages := by
    unfold Return.messages
    rw [hlate, hcode, hchannels, hmessages]
  rw [hpairs, List.map_fst_zip hlength.le, List.map_snd_zip hlength.ge]
  exact ⟨hchannels, hmessages⟩

/-- The positions after a result of a subscription to these channels: an OK result moves all of them
to its timetoken. -/
def Cursor.heed (cursor : Cursor) (names : List String) (result : Result) : Cursor :=
  if result.code = .ok then result.timetoken.elim cursor (cursor.advance names) else cursor

namespace Cursor

variable {names : List String} {timetoken : String}

/-- After a success all positions of its channels are the same. -/
theorem positions_advance (cursor : Cursor) :
    (cursor.advance names timetoken).positions names = names.map fun _ => timetoken := by
  refine List.map_congr_left fun name hm => ?_
  rw [get?_advance, if_pos hm]
  rfl

/-- The next subscription to the channels of a success starts at its timetoken. -/
theorem position_advance (cursor : Cursor) (hne : names ≠ []) (ht : IsDecimalText timetoken) :
    (cursor.advance names timetoken).position names = .ok timetoken := by
  obtain ⟨name, rest, rfl⟩ := List.exists_cons_of_ne_nil hne
  unfold position
  rw [positions_advance]
  by_cases ho : timetoken = origin
  · simp [ho]
  · have hkept : ((name :: rest).map fun _ => timetoken).filter (· != origin)
        = timetoken :: rest.map fun _ => timetoken := List.filter_eq_self.2 (by simp [ho])
    have htexts : ∀ s ∈ rest.map fun _ => timetoken, IsDecimalText s := by
      intro s hm
      obtain ⟨_, -, rfl⟩ := List.mem_map.1 hm
      exact ht
    obtain ⟨least, hm, hleast, -⟩ := @leastFrom_of_isDecimalText timetoken _ htexts
    obtain rfl : least = timetoken := by
      rcases List.mem_cons.1 hm with rfl | hm
      · rfl
      · exact (List.mem_map.1 hm).elim fun _ h => h.2.symm
    rw [hkept]
    show (Json.integerOfText least).bind (fun n => leastFrom (least, n) _) = _
    rw [Json.integerOfText_of_isDecimalText ht]
    exact hleast

end Cursor

namespace Request

variable {r : Request} {outcome : Outcome} {result : Result} {names : List String}
  {timetoken : String} {timetokens : List String}

theorem isWhole_of_classify (hq : r.query = .subscribe names timetoken timetokens)
    (hf : ∀ text, outcome ≠ .failure .ok text) (h : r.classify outcome = .ok result) :
    result.IsWhole := by
  intro hc
  unfold classify at h
  split at h
  · rename_i code text
    cases h
    change code = .ok at hc
    exact absurd (congrArg (Outcome.failure · text) hc) (hf text)
  · split at h
    · cases h
      cases hc
    · split at h
      · cases h
        cases hc
      · split at h
        · rename_i hi
          cases h
          have hk : r.kind = .subscribe := by
            unfold kind
            rw [hq]
            rfl
          obtain ⟨hm, -, hs⟩ := alignedWith_of_interpret (.inl hk) hi
          obtain ⟨channels, position, hchannels, hlength, -, hposition, -⟩ := hs _ _ _ hq
          exact ⟨channels, _, position, hchannels, hm, hlength, hposition⟩
        · cases h
          cases hc
        · cases h

/-- What a genuine outcome writes into the cursor is what its result does to the positions. -/
theorem foldl_write_success? (cursor : Cursor)
    (hq : r.query = .subscribe names timetoken timetokens)
    (hf : ∀ text, outcome ≠ .failure .ok text) (h : r.classify outcome = .ok result) :
    (r.success? outcome).toList.foldl Cursor.write cursor = cursor.heed names result := by
  have hnames : r.query.channels? = some names := by
    rw [hq]
    rfl
  unfold Cursor.heed
  by_cases hc : result.code = .ok
  · obtain ⟨position, hposition, -⟩ := timetoken_classify hnames hf h hc
    rw [if_pos hc, hposition]
    cases outcome with
    | reply status content =>
      rw [success?_eq_some_iff.2 ⟨status, content, result, rfl, h, hc, hnames, hposition⟩]
      rfl
    | failure code text =>
      cases h
      change code = .ok at hc
      exact absurd (congrArg (Outcome.failure · text) hc) (hf text)
  · rw [if_neg hc]
    have hnone : r.success? outcome = none := by
      rw [Option.eq_none_iff_forall_ne_some]
      rintro ⟨_, _⟩ hsuccess
      obtain ⟨-, -, result', -, hresult, hok, -, -⟩ := success?_eq_some_iff.1 hsuccess
      obtain rfl := Except.ok.inj (h.symm.trans hresult)
      exact hc hok
    rw [hnone]
    rfl

end Request

variable {Handler : Type}

/-- The names of the channels that a listener subscribes to, if these are valid. -/
def Listener.names (x : Listener) : List String :=
  (checkChannels (.arr x.channels)).toOption.getD []

/-- The result that a subscription has come to, also while its callback is running. -/
def InvocationPhase.result? : InvocationPhase → Option Result
  | driving _ (.calling result) => some result
  | driving _ (.finished result) => some result
  | ended (.ok (.result result)) => some result
  | _ => none

/-- Is it certain that no result will come back? -/
def InvocationPhase.isLost : InvocationPhase → Bool
  | driving _ (.failing _) => true
  | driving _ (.failed _) => true
  | unwinding _ _ => true
  | ended (.ok (.result _)) => false
  | ended _ => true
  | _ => false

/-- The operation is about to have the call driven, or has it driven to a result. -/
inductive InvocationPhase.IsUnderway (c : Nat) : InvocationPhase → Prop where
  | launching : IsUnderway c (launching c)
  | driving {drive : Drive} (h : drive.isLive = true) : IsUnderway c (driving c drive)

/-- A subscription that is underway has come to nothing yet. -/
theorem InvocationPhase.IsUnderway.isOpen {phase : InvocationPhase} {c : Nat}
    (h : phase.IsUnderway c) : phase.result? = none ∧ phase.isLost = false := by
  cases h with
  | launching => exact ⟨rfl, rfl⟩
  | @driving drive hlive =>
    cases drive <;> first | exact ⟨rfl, rfl⟩ | cases hlive

namespace Client

variable {w w' w₁ : Client Handler} {action : Action Handler} {i j k l c : Nat}
  {v : Invocation Handler} {x x' : Listener} {cursor : Cursor} {s : Session} {call : Call Handler}

/-! ## The course of a subscription -/

/-- A subscription of the listener can be built from these positions. -/
structure Ready (w : Client Handler) (x : Listener) (cursor : Cursor) : Prop where
  channels : checkChannels (.arr x.channels) = .ok x.names
  position : ∃ timetoken, cursor.position x.names = .ok timetoken
  timeout : w.config.Resolves x.timeout Setting.subscribeTimeout.name

/-- **How far the subscription has come that a listener waits for**, and what is known then of its
request and of the positions of the session, which were `cursor` when it was asked for. -/
inductive Course (w : Client Handler) (x : Listener) (cursor : Cursor) :
    InvocationPhase → Prop where
  /-- It is to claim the session, or to build its request. -/
  | begun {phase : InvocationPhase} (hp : phase = .asked ∨ phase = .claimed)
      (hd : w.relay.cursorAt x.session = cursor) : Course w x cursor phase
  /-- Its request was built from the positions, and they are what they were. -/
  | underway {phase : InvocationPhase} {c : Nat} {call : Call Handler} {timetoken : String}
      (hp : phase.IsUnderway c) (hc : w.calls[c]? = some call) (hs : call.session = x.session)
      (hu : call.settled = false) (ht : cursor.position x.names = .ok timetoken)
      (hq : call.request.query = .subscribe x.names timetoken (cursor.positions x.names))
      (hr : w.Ready x cursor) (hd : w.relay.cursorAt x.session = cursor) : Course w x cursor phase
  /-- It came to a result, which the positions follow. -/
  | came {phase : InvocationPhase} {result : Result} (hp : phase.result? = some result)
      (hr : w.Ready x cursor) (hw : result.IsWhole)
      (hd : w.relay.cursorAt x.session = cursor.heed x.names result) : Course w x cursor phase
  /-- An error is on its way out. -/
  | lost {phase : InvocationPhase} (hp : phase.isLost = true) : Course w x cursor phase

theorem Ready.mono (h : w.Ready x cursor)
    (hkept : w.config.loaded.isSome = true → w'.config = w.config) : w'.Ready x cursor :=
  ⟨h.channels, h.position, h.timeout.mono hkept⟩

/-- A listener that was ready is ready for what comes after a result, if the timetoken of that is a
number. -/
theorem Ready.heed {result : Result} (h : w.Ready x cursor) (hwhole : result.IsWhole)
    (hdecimal : result.code = .ok → ∀ timetoken, result.timetoken = some timetoken →
      IsDecimalText timetoken) : w.Ready x (cursor.heed x.names result) := by
  refine ⟨h.channels, ?_, h.timeout⟩
  unfold Cursor.heed
  by_cases hc : result.code = .ok
  · obtain ⟨_, _, timetoken, -, -, -, htimetoken⟩ := hwhole hc
    rw [if_pos hc, htimetoken]
    exact ⟨timetoken, Cursor.position_advance cursor (checkChannels_eq_ok h.channels).1
      (hdecimal hc timetoken htimetoken)⟩
  · rw [if_neg hc]
    exact h.position

/-- Where the sessions are what they were, so are the positions. -/
theorem cursorAt_of_sessions (h : w'.sessions = w.sessions) (i : Nat) :
    w'.relay.cursorAt i = w.relay.cursorAt i := by
  show (((w'.sessions.map Session.cursor))[i]?).getD _ = _
  rw [h]
  rfl

/-- A subscription that is completed has come to its result. -/
theorem Course.of_completeCall {result : Result} {running : Bool} {phase : InvocationPhase}
    (hc : w.callOn? c = some (call, s)) (hs : call.session = x.session)
    (hu : call.settled = false) (hr : w.Ready x cursor) (hwhole : result.IsWhole)
    (hd : s.cursor = cursor.heed x.names result)
    (h : w.completeCall c result = .ok (w', running)) (hp : phase.result? = some result) :
    w'.Course x cursor phase := by
  obtain ⟨v, hcomplete, hagrees, hl⟩ := completeCall_of_unsettled hc hu result
  obtain ⟨rfl, -⟩ := Prod.mk.inj (Except.ok.inj (h.symm.trans hcomplete))
  have hsession := (callOn?_eq_some_iff.1 hc).2
  have hsession' : w'.sessions[x.session]? = some (s.release (some result)) := by
    have hsessions : w'.sessions = w.sessions.set call.session (s.release (some result)) :=
      congrArg Ledger.sessions hl
    rw [hsessions, ← hs]
    exact List.getElem?_set_self (List.getElem?_eq_some_iff.1 hsession).1
  refine .came hp (hr.mono fun _ => by rw [hagrees]) hwhole ?_
  rw [cursorAt_of_getElem? hsession']
  exact hd

/-- The step of the cycle of a subscription takes it on, or to a result, or to an error. -/
theorem Course.of_stepDrive? {fed : Option Outcome} {drive : Drive} {timetoken : String}
    (hrequest : call.cycle.request = call.request) (hrecording : call.cycle.IsRecording)
    (hg : ∀ outcome, fed = some outcome → outcome.IsGenuine)
    (hc : w.callOn? c = some (call, s)) (hs : call.session = x.session)
    (hu : call.settled = false) (ht : s.cursor.position x.names = .ok timetoken)
    (hq : call.request.query = .subscribe x.names timetoken (s.cursor.positions x.names))
    (hr : w.Ready x s.cursor) (h : w.stepDrive? c (.resuming fed) = some (w₁, drive)) :
    w₁.Course x s.cursor (.driving c drive) := by
  unfold stepDrive? at h
  dsimp only at h
  cases hresume : w.resumeCall? c fed with
  | none =>
    rw [hresume] at h
    cases h
  | some resumed =>
    obtain ⟨w₂, effect⟩ := resumed
    obtain ⟨call', s', step, hc', hstep, rfl, hagrees, hl⟩ := resumeCall?_eq_some hresume
    obtain ⟨rfl, rfl⟩ := Prod.mk.inj (Option.some.inj (hc.symm.trans hc'))
    have hc₂ := callOn?_after hc hl
    obtain ⟨hcall₂, hsession₂⟩ := callOn?_eq_some_iff.1 hc₂
    have hr₂ : w₂.Ready x s.cursor := hr.mono fun _ => by rw [hagrees]
    rw [hresume] at h
    -- As long as the cycle goes on it leaves the positions alone.
    have hgoes {event : Event Handler} {drive : Drive} (hlive : drive.isLive = true)
        (hunfinished : ∀ result, step.effect ≠ .finish result) :
        (w₂.record event).Course x s.cursor (.driving c drive) := by
      refine .underway (.driving hlive) hcall₂ hs hu ht hq (hr₂.mono fun _ => rfl) ?_
      have hcursor : w₂.relay.cursorAt x.session = step.cursor := by
        rw [← hs]
        exact cursorAt_of_getElem? hsession₂
      exact hcursor.trans (Cycle.cursor_of_unfinished hstep hunfinished)
    cases heffect : step.effect with
    | send =>
      rw [heffect] at h
      dsimp only at h
      split at h
      · cases h
        exact .lost rfl
      · cases h
        exact hgoes rfl (by rw [heffect]; rintro result ⟨⟩)
    | sleep seconds =>
      rw [heffect] at h
      cases h
      exact hgoes rfl (by rw [heffect]; rintro result ⟨⟩)
    | raise e =>
      rw [heffect] at h
      cases h
      exact .lost rfl
    | finish result =>
      obtain ⟨outcome, rfl, hresult⟩ := Cycle.classify_of_finish hstep heffect
      rw [hrequest] at hresult
      have hgenuine := (hg outcome rfl).ne_success
      have hwhole := Request.isWhole_of_classify hq hgenuine hresult
      have hcursor : step.cursor = s.cursor.heed x.names result := by
        rw [Cycle.cursor_eq_foldl hrecording hg hstep, hrequest]
        exact Request.foldl_write_success? s.cursor hq hgenuine hresult
      rw [heffect] at h
      dsimp only at h
      split at h
      · cases h
        exact .lost rfl
      · rename_i hcomplete
        cases h
        exact .of_completeCall hc₂ hs hu hr₂ hwhole hcursor hcomplete rfl
      · rename_i hcomplete
        cases h
        exact .of_completeCall hc₂ hs hu hr₂ hwhole hcursor hcomplete rfl

/-- An operation that claims its session leaves the positions of that alone. -/
theorem Course.of_claimFor? (hs : w.sessions[x.session]? = some s)
    (hv : w.invocations[k]? = some v) (ho : IsSubscriptionOf v x)
    (h : w.claimFor? k v = some w') :
    ∃ phase, w'.invocations[k]? = some { v with phase } ∧ w'.Course x s.cursor phase := by
  unfold claimFor? at h
  rw [ho.session, hs, Option.map_some] at h
  cases hclaim : s.claim with
  | error e =>
    rw [hclaim] at h
    cases h
    exact ⟨_, getElem?_setInvocation hv _, .lost rfl⟩
  | ok t =>
    rw [hclaim] at h
    cases h
    obtain ⟨-, -, rfl⟩ := (Session.claim_eq_ok_iff s t).1 hclaim
    refine ⟨.claimed, getElem?_setInvocation hv _, .begun (.inr rfl) ?_⟩
    exact (cursorAt_of_getElem? (w := w.setSession x.session _)
      (List.getElem?_set_self (List.getElem?_eq_some_iff.1 hs).1)).trans rfl

/-- An operation that builds its request builds it from the positions of its session. -/
theorem Course.of_buildFor? (hs : w.sessions[x.session]? = some s)
    (hv : w.invocations[k]? = some v) (ho : IsSubscriptionOf v x)
    (h : w.buildFor? k v = some w') :
    ∃ phase, w'.invocations[k]? = some { v with phase } ∧ w'.Course x s.cursor phase := by
  unfold buildFor? at h
  rw [ho.session, hs, Option.map_some] at h
  cases hbuilt : Request.build s.profile s.cursor w.fresh w.config v.operation v.timeout with
  | mk answer config =>
    rw [hbuilt] at h
    cases answer with
    | error e =>
      cases h
      exact ⟨_, getElem?_setInvocation hv _, .lost rfl⟩
    | ok request =>
      cases h
      refine ⟨_, getElem?_setInvocation hv _, ?_⟩
      obtain ⟨hquery, -⟩ := Request.build_eq_ok hbuilt
      have htimeout := Request.resolves_of_build hbuilt
      rw [ho.operation] at hquery htimeout
      rw [ho.timeout] at htimeout
      obtain ⟨names, timetoken, hnames, ht, hq⟩ := Query.ofSubscribe_eq_ok hquery
      obtain rfl : x.names = names := by
        unfold Listener.names
        rw [hnames]
        rfl
      exact .underway .launching List.getElem?_concat_length rfl rfl ht hq
        ⟨hnames, ⟨timetoken, ht⟩, htimeout⟩ (cursorAt_of_getElem? hs)

/-- The course of a subscription does not change by what changes nothing that it is about. -/
theorem Course.keep (h : w.Course x cursor phase)
    (hsettings : w.config.loaded.isSome = true → w'.config = w.config)
    (hcall : ∀ {c : Nat} {call : Call Handler}, phase.IsUnderway c → w.calls[c]? = some call →
      call.settled = false → w'.calls[c]? = some call)
    (hcursor : w'.relay.cursorAt x.session = w.relay.cursorAt x.session) :
    w'.Course x cursor phase := by
  cases h with
  | begun hp hd => exact .begun hp (hcursor.trans hd)
  | underway hp hc hs hu ht hq hr hd =>
    exact .underway hp (hcall hp hc hu) hs hu ht hq (hr.mono hsettings) (hcursor.trans hd)
  | came hp hr hw hd => exact .came hp (hr.mono hsettings) hw (hcursor.trans hd)
  | lost hp => exact .lost hp

theorem Becomes.names (hb : w.Becomes l x action x') : x'.names = x.names := by
  obtain ⟨-, -, hchannels, -⟩ := hb.same
  unfold Listener.names
  rw [hchannels]

theorem Ready.becomes (h : w.Ready x cursor) (hb : w₁.Becomes l x action x') :
    w.Ready x' cursor := by
  obtain ⟨-, -, hchannels, htimeout⟩ := hb.same
  have hnames := hb.names
  refine ⟨?_, ?_, htimeout ▸ h.timeout⟩
  · rw [hchannels, hnames]
    exact h.channels
  · rw [hnames]
    exact h.position

/-- The course of a subscription is the same for what the listener becomes. -/
theorem Course.becomes (h : w.Course x cursor phase) (hb : w₁.Becomes l x action x') :
    w.Course x' cursor phase := by
  obtain ⟨-, hsession, -, -⟩ := hb.same
  have hnames := hb.names
  cases h with
  | begun hp hd => exact .begun hp (hsession ▸ hd)
  | underway hp hc hs hu ht hq hr hd =>
    exact .underway hp hc (hs.trans hsession.symm) hu (hnames ▸ ht) (hnames ▸ hq) (hr.becomes hb)
      (hsession ▸ hd)
  | came hp hr hw hd => exact .came hp (hr.becomes hb) hw (by rw [hsession, hnames, hd])
  | lost hp => exact .lost hp

/-- Moving an operation leaves the course of a subscription as it is. -/
theorem Course.setInvocation (h : w.Course x cursor phase) (j : Nat) (moved : InvocationPhase) :
    (w.setInvocation j moved).Course x cursor phase :=
  h.keep (fun _ => rfl) (fun _ hc _ => hc) rfl

/-- What an operation feeds to its cycle was given by the world. -/
theorem ReachableBy.isGenuine_of_resuming {fed : Option Outcome}
    (hw : ReachableBy Action.IsGenuine w) (hv : w.invocations[k]? = some v)
    (hp : v.phase = .driving c (.resuming fed)) (outcome : Outcome) (hfed : fed = some outcome) :
    outcome.IsGenuine := by
  have hfeeds := (feeds_isGenuine hw).invocations v (List.mem_of_getElem? hv)
  rw [hp, hfed] at hfeeds
  exact hfeeds

/-- **A step of the operation takes the subscription on.** -/
theorem Course.stepInvocation? (h : w.Course x cursor v.phase)
    (hw : ReachableBy Action.IsGenuine w) (hk : w.frontend.kind = .blocking)
    (hs : w.sessions[x.session]? = some s) (hv : w.invocations[k]? = some v)
    (ho : IsSubscriptionOf v x) (ha : w.stepInvocation? k = some w') :
    ∃ phase, w'.invocations[k]? = some { v with phase } ∧ w'.Course x cursor phase := by
  generalize hp : v.phase = phase at h
  cases h with
  | begun hbegun hd =>
    rw [cursorAt_of_getElem? hs] at hd
    subst hd
    rcases hbegun with rfl | rfl
    · rw [stepInvocation?_of_asked hv hp] at ha
      exact Course.of_claimFor? hs hv ho ha
    · rw [stepInvocation?_of_claimed hv hp] at ha
      exact Course.of_buildFor? hs hv ho ha
  | underway hunderway hc hcs hu ht hq hr hd =>
    have hsession := hs
    rw [← hcs] at hsession
    unfold Client.stepInvocation? at ha
    simp only [hv, hp] at ha
    cases hunderway with
    | launching =>
      cases ha
      unfold launchFor
      rw [hk]
      exact ⟨_, getElem?_setInvocation hv _,
        .underway (.driving rfl) hc hcs hu ht hq (hr.mono fun _ => rfl) hd⟩
    | @driving drive hlive =>
      cases drive with
      | resuming fed =>
        obtain ⟨⟨w₁, drive'⟩, hdrive, rfl⟩ := Option.map_eq_some_iff.1 ha
        have hrequest := hw.reachable.isRegular.request _ (List.mem_of_getElem? hc)
        have hrecording : w.ledger.IsRecording :=
          hw.reachable.ledger (by rintro call ⟨⟩) fun h he => h.entry he
        rw [cursorAt_of_getElem? hs] at hd
        subst hd
        have hcourse := Course.of_stepDrive? hrequest (hrecording _ (List.mem_of_getElem? hc))
          (hw.isGenuine_of_resuming hv hp) (callOn?_eq_some_iff.2 ⟨hc, hsession⟩) hcs hu ht hq hr
          hdrive
        have hsame : w₁.invocations = w.invocations := by
          rw [(goesOn_stepDrive? hdrive).outside]
        exact ⟨_, getElem?_setInvocation (hsame ▸ hv) _, hcourse.setInvocation k _⟩
      | inFlight | asleep => cases ha
      | _ => cases hlive
  | came hresult hr hwhole hd =>
    unfold Client.stepInvocation? at ha
    simp only [hv, hp] at ha
    unfold InvocationPhase.result? at hresult
    split at hresult <;> cases hresult
    · cases ha
    · cases ha
      exact ⟨_, getElem?_setInvocation hv _, .came rfl (hr.mono fun _ => rfl) hwhole hd⟩
    · cases ha
  | lost hlost =>
    unfold Client.stepInvocation? at ha
    simp only [hv, hp] at ha
    unfold InvocationPhase.isLost at hlost
    split at hlost
    · cases ha
      rename_i c e
      have hsame : (w.abandonCall c).invocations = w.invocations := by
        rw [(goesOn_abandonCall w c).outside]
      exact ⟨_, getElem?_setInvocation (hsame ▸ hv) _, .lost rfl⟩
    · cases ha
      exact ⟨_, getElem?_setInvocation hv _, .lost rfl⟩
    · cases ha
      rename_i c e
      have hsame : (w.abandonCall c).invocations = w.invocations := by
        rw [(goesOn_abandonCall w c).outside]
      exact ⟨_, getElem?_setInvocation (hsame ▸ hv) _, .lost rfl⟩
    · cases hlost
    · cases ha
    · cases hlost

/-- An error on its way out waits for no answer. -/
theorem not_answered_of_failing {e : Error} (hv : w.invocations[k]? = some v)
    (hp : v.phase = .driving c (.failing e)) (ho : action.isOf k = true)
    (hne : action ≠ .stepInvocation k) : w.act? action = none := by
  have hphase : w.invocationPhase? k = some (.driving c (.failing e)) := by
    unfold invocationPhase?
    rw [hv, Option.map_some, hp]
  rcases Action.eq_of_isOf ho with rfl | ⟨answer, rfl⟩ | rfl | ⟨raised, rfl⟩
  · exact absurd rfl hne
  · show w.answerInvocation? k answer = none
    unfold answerInvocation?
    rw [hphase]
    rfl
  · show w.wakeInvocation? k = none
    unfold wakeInvocation?
    rw [hphase]
    rfl
  · show w.returnInvocation? k raised = none
    unfold returnInvocation?
    rw [hphase]

/-- What the world answers to the operation takes the subscription on. -/
theorem Course.answers (h : w.Course x cursor v.phase) (hv : w.invocations[k]? = some v)
    (ho : action.isOf k = true) (hne : action ≠ .stepInvocation k)
    (ha : w.act? action = some w') :
    ∃ phase, w'.invocations[k]? = some { v with phase } ∧ w'.Course x cursor phase := by
  obtain ⟨c, drive, drive', hp, hw', hanswered⟩ := exists_answered hv ho hne ha
  rw [hw']
  refine ⟨_, getElem?_setInvocation hv _, Course.setInvocation ?_ k _⟩
  rw [hp] at h
  cases hanswered with
  | waited hopen hopen' =>
    cases h with
    | begun hbegun => rcases hbegun with hbegun | hbegun <;> cases hbegun
    | underway hunderway hc hs hu ht hq hr hd =>
      cases hunderway
      cases drive' with
      | failing e => exact .lost rfl
      | resuming | inFlight | asleep => exact .underway (.driving rfl) hc hs hu ht hq hr hd
      | _ => cases hopen'
    | came hresult =>
      cases drive with
      | calling | finished => cases hopen
      | _ => cases hresult
    | lost hlost =>
      cases drive with
      | failing => exact absurd ha (by simp [not_answered_of_failing hv hp ho hne])
      | failed => cases hopen
      | _ => cases hlost
  | returned =>
    cases h with
    | begun hbegun => rcases hbegun with hbegun | hbegun <;> cases hbegun
    | underway hunderway =>
      cases hunderway with
      | driving hlive => cases hlive
    | came hresult hr hwhole hd =>
      cases hresult
      exact .came rfl hr hwhole hd
    | lost hlost => cases hlost
  | raised => exact .lost rfl

/-- **Whatever happens, the subscription of a listener that has its session to itself stays on its
course**, as long as no application uses the session. -/
theorem Course.act? (h : w.Course x cursor v.phase) (hw : ReachableBy Action.IsGenuine w)
    (hk : w.frontend.kind = .blocking) (halone : w.HasAlone l x) (hp : x.phase = .subscribing k)
    (hv : w.invocations[k]? = some v) (ho : IsSubscriptionOf v x)
    (huse : action.uses x.session = false) (ha : w.act? action = some w') :
    ∃ phase, w'.invocations[k]? = some { v with phase } ∧ w'.Course x cursor phase := by
  cases hown : action.isOf k with
  | true =>
    by_cases hstep : action = .stepInvocation k
    · subst hstep
      obtain ⟨s, hs, -⟩ := halone.isOpen
      exact h.stepInvocation? hw hk hs hv ho ha
    · exact h.answers hv hown hstep ha
  | false =>
    refine ⟨v.phase, ((frame_act? ha).invocations hv).resolve_left (by simp [hown]), ?_⟩
    refine h.keep (settings_act? ha) ?_ (hw.cursorAt_of_foreign hk ?_ ?_ ha)
    · intro c call hunderway hc hu
      have hb : ∃ b, v.phase.baton? = some (c, b) := by
        generalize v.phase = phase at hunderway
        cases hunderway <;> exact ⟨_, rfl⟩
      obtain ⟨b, hb⟩ := hb
      exact (hw.reachable.call_of_foreign hv hb hc hu hown ha).2
    · rintro channels rfl
      cases (beq_self_eq_true x.session).symm.trans huse
    · intro j u hu hs
      rcases halone.operations hu hs with hover | hwaits
      · exact .inr hover
      · obtain rfl := ListenerPhase.subscribing.inj (hp.symm.trans hwaits)
        exact .inl hown

/-! ## The course of a listener -/

/-- **What the positions of the session are that a listener has to itself**, if the results that it
took up have left `cursor`: that between two subscriptions, and what the subscription makes of it
while one is in progress. After an error that ended the listener nothing is said. -/
inductive Follows (w : Client Handler) (x : Listener) (cursor : Cursor) : Prop where
  | between (hp : x.phase.subscription? = none) (hd : w.relay.cursorAt x.session = cursor)
  | during {k : Nat} {v : Invocation Handler} (hp : x.phase = .subscribing k)
      (hv : w.invocations[k]? = some v) (hc : w.Course x cursor v.phase)
  | crashed {e : Error} (hp : x.phase = .crashed e)

/-- What the positions are after what a listener takes up by an action. -/
def cursorAfter (cursor : Cursor) (names : List String) (returns : List Return) : Cursor :=
  returns.foldl (fun cursor r => cursor.heed names r.result) cursor

/-- Between two subscriptions the positions are known, unless an error ended the listener. -/
theorem Follows.cursorAt (h : w.Follows x cursor) (hp : x.phase.subscription? = none)
    (hcrashed : ∀ e, x.phase ≠ .crashed e) : w.relay.cursorAt x.session = cursor := by
  cases h with
  | between _ hd => exact hd
  | during hp' =>
    rw [hp'] at hp
    cases hp
  | crashed hp' => exact absurd hp' (hcrashed _)

/-- What comes back to a listener is whole, and was asked for when it was ready. -/
theorem Follows.returned {r : Return} (h : w.Follows x cursor) (hx : w.listeners[l]? = some x)
    (hr : w.returnOf? l action = some r) :
    r.result.IsWhole ∧ w.Ready x cursor
      ∧ w.relay.cursorAt x.session = cursor.heed x.names r.result := by
  obtain ⟨-, y, k, hy, hp, hended, -⟩ := returnOf?_eq_some_iff.1 hr
  obtain rfl := Option.some.inj (hx.symm.trans hy)
  obtain ⟨v, hv, hended⟩ := Option.map_eq_some_iff.1 hended
  cases h with
  | between hp' =>
    rw [hp] at hp'
    cases hp'
  | during hp' hv' hc =>
    obtain rfl := ListenerPhase.subscribing.inj (hp.symm.trans hp')
    obtain rfl := Option.some.inj (hv.symm.trans hv')
    rw [hended] at hc
    cases hc with
    | begun hbegun => rcases hbegun with hbegun | hbegun <;> cases hbegun
    | underway hunderway => cases hunderway
    | came hresult hready hwhole hd =>
      cases hresult
      exact ⟨hwhole, hready, hd⟩
    | lost hlost => cases hlost
  | crashed hp' => cases hp.symm.trans hp'

/-- **Whatever happens, the positions follow the results that the listener takes up.** -/
theorem Follows.act? (h : w.Follows x cursor) (hw : ReachableBy Action.IsGenuine w)
    (hk : w.frontend.kind = .blocking) (hx : w.listeners[l]? = some x)
    (halone : w.HasAlone l x) (huse : action.uses x.session = false)
    (ha : w.act? action = some w') (hx' : w'.listeners[l]? = some x') :
    w'.Follows x' (cursorAfter cursor x.names (w.returnOf? l action).toList) := by
  obtain ⟨y, hy, hbecomes⟩ := (hears_act? ha).becomes hx
  obtain rfl := Option.some.inj (hx'.symm.trans hy)
  cases ho : action.isOfListener l with
  | false =>
    obtain ⟨stopping, hy⟩ := becomes_of_foreign hx ho ha
    obtain rfl := Option.some.inj (hx'.symm.trans hy)
    rw [returnOf?_of_foreign ho]
    cases h with
    | between hp hd =>
      refine .between hp ((hw.cursorAt_of_foreign hk ?_ ?_ ha).trans hd)
      · rintro channels rfl
        cases (beq_self_eq_true x.session).symm.trans huse
      · intro j u hu hs
        rcases halone.operations hu hs with hover | hwaits
        · exact .inr hover
        · rw [hwaits] at hp
          cases hp
    | during hp hv hc =>
      obtain ⟨u, hu, hof, -⟩ := (hw.reachable.attends hx).asked hp
      obtain rfl := Option.some.inj (hv.symm.trans hu)
      obtain ⟨phase, hv', hc'⟩ := hc.act? hw hk halone hp hv hof huse ha
      exact .during hp hv' (hc'.becomes hbecomes)
    | crashed hp => exact .crashed hp
  | true =>
    obtain ⟨phase, hacts⟩ := acts_act? hx ha ho
    obtain rfl := Option.some.inj (hx'.symm.trans hacts.listener)
    have hsame : w'.relay.cursorAt x.session = w.relay.cursorAt x.session :=
      cursorAt_of_sessions hacts.sessions _
    -- Between two subscriptions nothing moves the positions, and no result comes back.
    have hgoes (hp : x.phase.subscription? = none) (hcrashed : ∀ e, x.phase ≠ .crashed e)
        (hphase : phase.subscription? = none) :
        w'.Follows { x with phase } (cursorAfter cursor x.names (w.returnOf? l action).toList) := by
      rw [returnOf?_of_subscription? hx hp]
      exact .between hphase (hsame.trans (h.cursorAt hp hcrashed))
    cases hacts.turns with
    | asks hp hs =>
      have hd := h.cursorAt (by rw [hp]; rfl) (by rw [hp]; rintro e ⟨⟩)
      rw [returnOf?_of_subscription? hx (by rw [hp]; rfl)]
      obtain rfl := Option.some.inj ((stepListener?_of_looping hx hp hs).symm.trans ha)
      exact .during rfl List.getElem?_concat_length (.begun (.inl rfl) hd)
    | @takes i result hp hi =>
      have hreturn : w.returnOf? l (.stepListener l) = some ⟨result, x.stopping⟩ :=
        returnOf?_eq_some_iff.2 ⟨rfl, x, i, hx, hp, hi, rfl⟩
      obtain ⟨-, -, hd⟩ := h.returned hx hreturn
      rw [hreturn]
      refine .between ?_ (hsame.trans hd)
      rcases w.afterResult_eq x result with heq | heq | heq <;> rw [heq] <;> rfl
    | fails hp hi => exact .crashed rfl
    | misses hp hr => exact .crashed rfl
    | breaks hp he => exact .crashed rfl
    | stops hp | returns hp | hands hp | finds hp | ends hp | strikes hp | wakes hp
    | resumes hp =>
      exact hgoes (by rw [hp]; rfl) (by rw [hp]; rintro e ⟨⟩) rfl

/-- **Along every run the positions follow the results that the listener takes up**, as long as it
has its session to itself: an OK result moves all of its channels to the timetoken of the result,
and nothing else moves them. -/
theorem Follows.run? {actions : List (Action Handler)} (h : w.Follows x cursor)
    (hw : ReachableBy Action.IsGenuine w) (hk : w.frontend.kind = .blocking)
    (hx : w.listeners[l]? = some x) (halone : w.HasAlone l x)
    (hg : ∀ action ∈ actions, action.IsGenuine)
    (huse : ∀ action ∈ actions, action.uses x.session = false)
    (hr : w.run? actions = some w') (hx' : w'.listeners[l]? = some x') :
    w'.HasAlone l x' ∧ w'.Follows x' (cursorAfter cursor x.names (w.returns l actions))
      ∧ (∀ r ∈ w.returns l actions, r.result.IsWhole)
      ∧ ((∀ r ∈ w.returns l actions, r.result.code = .ok → ∀ timetoken,
          r.result.timetoken = some timetoken → IsDecimalText timetoken) →
        w.Ready x cursor ∨ w.returns l actions ≠ [] →
        w'.Ready x' (cursorAfter cursor x.names (w.returns l actions))) := by
  induction actions generalizing w x cursor with
  | nil =>
    cases hr
    obtain rfl := Option.some.inj (hx.symm.trans hx')
    exact ⟨halone, h, by rintro r ⟨⟩, fun _ hready => hready.resolve_right (absurd rfl)⟩
  | cons action rest ih =>
    rw [run?_cons] at hr
    obtain ⟨v, ha, hr⟩ := Option.bind_eq_some_iff.1 hr
    obtain ⟨y, hy, hb⟩ := (hears_act? ha).becomes hx
    have huse₁ := huse action List.mem_cons_self
    have hv : ReachableBy Action.IsGenuine v := hw.act action (hg action List.mem_cons_self) ha
    have hrest := ih (h.act? hw hk hx halone huse₁ ha hy) hv
      ((hw.reachable.move_act? ha).kind_eq.trans hk) hy (halone.act? hx ha huse₁ hy hb)
      (fun other hm => hg other (List.mem_cons_of_mem action hm))
      (fun other hm => hb.same.2.1 ▸ huse other (List.mem_cons_of_mem action hm)) hr
    obtain ⟨halone', hfollows, hwhole, hready⟩ := hrest
    rw [hb.names] at hfollows hready
    rw [returns_cons ha]
    have hafter : cursorAfter cursor x.names
          ((w.returnOf? l action).toList ++ v.returns l rest)
        = cursorAfter (cursorAfter cursor x.names (w.returnOf? l action).toList) x.names
          (v.returns l rest) := List.foldl_append
    rw [hafter]
    refine ⟨halone', hfollows, ?_, ?_⟩
    · intro r hm
      rcases List.mem_append.1 hm with hm | hm
      · exact (h.returned hx (Option.mem_toList.1 hm)).1
      · exact hwhole r hm
    · intro hdecimal hbefore
      refine hready (fun r hm => hdecimal r (List.mem_append_right _ hm)) ?_
      cases hreturn : w.returnOf? l action with
      | none =>
        rw [hreturn] at hbefore
        refine hbefore.imp_left fun hready => ?_
        exact (hready.mono (settings_act? ha)).becomes hb
      | some r =>
        obtain ⟨hwhole, hready, -⟩ := h.returned hx hreturn
        have hr : r ∈ (w.returnOf? l action).toList ++ v.returns l rest := by simp [hreturn]
        exact .inl (((hready.heed hwhole (hdecimal r hr)).mono (settings_act? ha)).becomes hb)

end Client

end Pubsub
