import Pubsub.Proofs.Heeding

/-!
# A listener delivers every message once

A listener that has its session to itself and took up a result comes to subscribe again, unless it
is told to stop or its receiver is gone: the session is free when it asks, and the request can be
built because one was built before (`Client.Follows.comesToSubscribe`). The next subscription starts
from where the results before it have left the positions, so no message is asked for twice, and none
is passed over.

Together with what is known of the messages that a listener hands on, this says what a listener does
for its receiver in the long run (`Client.ReachableBy.delivers_every_message_once`).
-/

namespace Pubsub

variable {Handler : Type}

namespace Client

variable {u w w' v : Client Handler} {action : Action Handler} {actions : List (Action Handler)}
  {i k l : Nat} {x x' : Listener} {cursor : Cursor} {s : Session}

/-! ## From one subscription to the next -/

/-- An operation that a listener asks for finds its session free, if the listener has that to
itself. -/
theorem HasAlone.free {o : Invocation Handler} (h : w.HasAlone l x) (hw : Reachable w)
    (hk : w.frontend.kind = .blocking) (hp : x.phase = .subscribing k)
    (ho : w.invocations[k]? = some o) (hasked : o.phase = .asked)
    (hs : w.sessions[x.session]? = some s) : s.busy = false := by
  by_contra hbusy
  obtain ⟨j, holder, hj, hholds⟩ :=
    (hw.busy_iff_holds hk hs).1 (Bool.eq_true_of_not_eq_false hbusy)
  have hsession : holder.session = x.session := by
    cases hholds with
    | building _ hi => exact hi
    | carrying hopen hc hi hu =>
      obtain ⟨b, hb⟩ := InvocationPhase.exists_baton_of_open? hopen
      obtain ⟨call, hc', hsame⟩ := hw.exists_call_of_baton? hj hb
      obtain rfl := Option.some.inj (hc.symm.trans hc')
      exact hsame.symm.trans hi
  rcases h.operations hj hsession with ⟨outcome, hover⟩ | hwaits
  · exact hholds.phase_ne.2 outcome hover
  · obtain rfl := ListenerPhase.subscribing.inj (hp.symm.trans hwaits)
    obtain rfl := Option.some.inj (ho.symm.trans hj)
    exact hholds.phase_ne.1 hasked

/-- The request of a subscription is built if the listener is ready. -/
theorem Ready.builds (h : w.Ready x s.cursor) :
    ∃ request config, Request.build s.profile s.cursor w.fresh w.config
      (.subscribeMulti (.arr x.channels)) x.timeout = (.ok request, config) := by
  obtain ⟨timetoken, hposition⟩ := h.position
  obtain ⟨seconds, htimeout⟩ := h.timeout
  have hquery : Query.ofOperation s.profile s.cursor w.fresh (.subscribeMulti (.arr x.channels))
      = .ok (.subscribe x.names timetoken (s.cursor.positions x.names)) := by
    show Query.ofSubscribe s.cursor (.arr x.channels) = _
    unfold Query.ofSubscribe
    rw [h.channels]
    show (s.cursor.position x.names).bind _ = _
    rw [hposition]
    rfl
  unfold Request.build
  rw [show w.config.resolveTimeout x.timeout
    (Operation.subscribeMulti (.arr x.channels)).timeoutSetting.name = (.ok seconds, w.config)
    from htimeout, hquery]
  exact ⟨_, _, rfl⟩

/-- An operation that has claimed its session has a fresh call made for its request. -/
theorem launches_of_claimed {o : Invocation Handler} {request : Request} {config : Configuration}
    (hs : w.sessions[o.session]? = some s) (ho : w.invocations[k]? = some o)
    (hp : o.phase = .claimed) (hbuild : Request.build s.profile s.cursor w.fresh w.config
      o.operation o.timeout = (.ok request, config)) :
    ∃ w' call, w.act? (.stepInvocation k) = some w'
      ∧ w'.invocations[k]? = some { o with phase := .launching w.calls.length }
      ∧ w'.callOn? w.calls.length = some (call, s) ∧ call.cycle.state = .fresh
      ∧ w'.frontend = w.frontend ∧ w'.journal = w.journal := by
  have hact : w.act? (.stepInvocation k) = w.buildFor? k o := stepInvocation?_of_claimed ho hp
  unfold buildFor? at hact
  rw [hs, Option.map_some, hbuild] at hact
  refine ⟨_, Call.start o.session request s.policy (o.callback.or w.frontend.callback), hact,
    getElem?_setInvocation (w := { w with config, calls := _ }) ho _, ?_, rfl, rfl, rfl⟩
  exact callOn?_eq_some_iff.2 ⟨List.getElem?_concat_length, hs⟩

/-- A fresh call is to be sent. -/
theorem resumeCall?_of_fresh {c : Nat} {call : Call Handler} (hc : w.callOn? c = some (call, s))
    (hfresh : call.cycle.state = .fresh) :
    w.resumeCall? c none = some (w.setCall c
      { call with cycle := { call.cycle with state := .sent w.clock } } s, .send) := by
  have hstep : call.cycle.resume? s.cursor w.clock none
      = some ⟨{ call.cycle with state := .sent w.clock }, s.cursor, none, .send⟩ := by
    unfold Cycle.resume?
    rw [hfresh]
  unfold resumeCall?
  rw [hc, Option.bind_eq_bind, Option.bind_some]
  dsimp only
  rw [hstep]
  rfl

/-- A fresh call is sent as soon as its thread drives it, if the connections are open. -/
theorem sends_of_launching {o : Invocation Handler} {c : Nat} {call : Call Handler}
    (hk : w.frontend.kind = .blocking) (hconnected : w.frontend.connectionsClosed = false)
    (ho : w.invocations[k]? = some o) (hp : o.phase = .launching c)
    (hc : w.callOn? c = some (call, s)) (hfresh : call.cycle.state = .fresh) :
    ∃ w', w.run? [.stepInvocation k, .stepInvocation k] = some w'
      ∧ w'.invocationPhase? k = some (.driving c .inFlight)
      ∧ w'.journal = w.journal ++ [.sent c] := by
  have hlaunches : w.act? (.stepInvocation k)
      = some (w.setInvocation k (.driving c (.resuming none))) := by
    show w.stepInvocation? k = _
    unfold stepInvocation? launchFor
    simp only [ho, hp, hk]
  generalize hv : w.setInvocation k (.driving c (.resuming none)) = v at hlaunches
  have ho' : v.invocations[k]? = some { o with phase := .driving c (.resuming none) } :=
    hv ▸ getElem?_setInvocation ho _
  have hc' : v.callOn? c = some (call, s) := by
    rw [← hv]
    exact hc
  have hresume := resumeCall?_of_fresh hc' hfresh
  have hsends : v.act? (.stepInvocation k) = some (((v.setCall c { call with
      cycle := { call.cycle with state := .sent v.clock } } s).record (.sent c)).setInvocation k
        (.driving c .inFlight)) := by
    show v.stepInvocation? k = _
    unfold stepInvocation? stepDrive?
    simp only [ho', hresume]
    rw [show (v.setCall c { call with cycle := { call.cycle with state := .sent v.clock } }
      s).frontend.connectionsClosed = false from hv ▸ hconnected]
    rfl
  have hrun : w.run? [.stepInvocation k, .stepInvocation k] = v.act? (.stepInvocation k) := by
    rw [run?_cons, hlaunches, Option.bind_some, run?_singleton]
  refine ⟨_, hrun.trans hsends, ?_, ?_⟩
  · unfold invocationPhase?
    rw [getElem?_setInvocation (w := (v.setCall c _ s).record _) ho', Option.map_some]
  · rw [← hv]
    rfl

/-- **An operation on a free session sends its request**, if that can be built and the connections
are open. -/
theorem sends_of_asked {o : Invocation Handler} (hk : w.frontend.kind = .blocking)
    (hconnected : w.frontend.connectionsClosed = false) (hs : w.sessions[o.session]? = some s)
    (hopen : s.closed = false) (hfree : s.busy = false) (ho : w.invocations[k]? = some o)
    (hp : o.phase = .asked)
    (hbuilds : ∃ request config, Request.build s.profile s.cursor w.fresh w.config o.operation
      o.timeout = (.ok request, config)) :
    ∃ w' c, w.run? (List.replicate 4 (.stepInvocation k)) = some w'
      ∧ w'.invocationPhase? k = some (.driving c .inFlight)
      ∧ w'.journal = w.journal ++ [.sent c] := by
  obtain ⟨request, config, hbuild⟩ := hbuilds
  have hclaims := claimed_of_stepInvocation? hs hopen hfree ho rfl hp
  generalize hv : (w.setSession o.session { s with busy := true, idle := false }).setInvocation k
    .claimed = v at hclaims
  have ho' : v.invocations[k]? = some { o with phase := .claimed } :=
    hv ▸ getElem?_setInvocation (w := w.setSession _ _) ho _
  have hs' : v.sessions[o.session]? = some { s with busy := true, idle := false } :=
    hv ▸ List.getElem?_set_self (List.getElem?_eq_some_iff.1 hs).1
  have hbuild' : Request.build s.profile s.cursor v.fresh v.config o.operation o.timeout
      = (.ok request, config) := by
    rw [← hv]
    exact hbuild
  obtain ⟨u, call, hlaunches, hu, hc, hfresh, hfrontend, hjournal⟩ :=
    launches_of_claimed (o := { o with phase := .claimed }) hs' ho' rfl hbuild'
  have hfrontend' : u.frontend = w.frontend := by rw [hfrontend, ← hv]; rfl
  obtain ⟨w', hrun, hphase, hsent⟩ := sends_of_launching (hfrontend' ▸ hk)
    (hfrontend' ▸ hconnected) hu rfl hc hfresh
  refine ⟨w', _, ?_, hphase, ?_⟩
  · show w.run? (.stepInvocation k :: .stepInvocation k :: [.stepInvocation k, .stepInvocation k])
      = some w'
    rw [run?_cons, hclaims, Option.bind_some, run?_cons, hlaunches]
    exact hrun
  · rw [hsent, hjournal, ← hv]
    rfl

/-- The call is a subscription of the listener that continues from these positions. -/
def StartsFrom (w : Client Handler) (c : Nat) (x : Listener) (cursor : Cursor) : Prop :=
  ∃ call timetoken, w.calls[c]? = some call ∧ call.session = x.session
    ∧ cursor.position x.names = .ok timetoken
    ∧ call.request.query = .subscribe x.names timetoken (cursor.positions x.names)

/-- **The subscription that a listener has in progress continues from where the results before it
have left the positions.** -/
theorem Follows.startsFrom {c : Nat} {phase : InvocationPhase} (h : w.Follows x cursor)
    (hp : x.phase = .subscribing k) (hphase : w.invocationPhase? k = some phase)
    (hunderway : phase.IsUnderway c) : w.StartsFrom c x cursor := by
  obtain ⟨o, ho, rfl⟩ := Option.map_eq_some_iff.1 hphase
  cases h with
  | between hp' =>
    rw [hp] at hp'
    cases hp'
  | during hp' ho' hc =>
    obtain rfl := ListenerPhase.subscribing.inj (hp.symm.trans hp')
    obtain rfl := Option.some.inj (ho.symm.trans ho')
    generalize o.phase = phase at hunderway hc
    cases hc with
    | begun hbegun => rcases hbegun with rfl | rfl <;> cases hunderway
    | underway hunderway' hc hs hu ht hq =>
      cases hunderway <;> cases hunderway' <;> exact ⟨_, _, hc, hs, ht, hq⟩
    | came hresult => cases hunderway.isOpen.1.symm.trans hresult
    | lost hlost => cases hunderway.isOpen.2.symm.trans hlost
  | crashed hp' => cases hp.symm.trans hp'

/-- By actions of its own, and steps of the operation that it asks for, the listener comes to have
sent a subscription that continues from these positions. -/
def ComesToSubscribe (w : Client Handler) (l : Nat) (x : Listener) (cursor : Cursor) : Prop :=
  ∃ more w' c, w.run? more = some w'
    ∧ (∀ action ∈ more, action.isOfListener l = true
      ∨ action = .stepInvocation w.invocations.length)
    ∧ w'.listeners[l]? = some { x with phase := .subscribing w.invocations.length }
    ∧ w'.invocationPhase? w.invocations.length = some (.driving c .inFlight)
    ∧ w'.journal.getLast? = some (.sent c) ∧ w'.StartsFrom c x cursor

/-- What a listener does by itself touches no session, no setting and no connection. -/
theorem own_run? (hx : w.listeners[l]? = some x)
    (hown : ∀ action ∈ actions, action.isOfListener l = true) (hr : w.run? actions = some w') :
    w'.sessions = w.sessions ∧ w'.config = w.config ∧ w'.frontend = w.frontend := by
  induction actions generalizing w x with
  | nil =>
    cases hr
    exact ⟨rfl, rfl, rfl⟩
  | cons action rest ih =>
    rw [run?_cons] at hr
    obtain ⟨v, ha, hr⟩ := Option.bind_eq_some_iff.1 hr
    have ho := hown action List.mem_cons_self
    obtain ⟨phase, hacts⟩ := acts_act? hx ha ho
    have hlistening : action.isListening = true := by
      cases action <;> first | rfl | cases ho
    obtain ⟨hsessions, hconfig, hfrontend⟩ :=
      ih hacts.listener (fun other hm => hown other (List.mem_cons_of_mem action hm)) hr
    exact ⟨hsessions.trans hacts.sessions, hconfig.trans (heard_act? ha hlistening).1,
      hfrontend.trans hacts.frontend⟩

/-- What concerns no listener brings none a result. -/
theorem unheard_run? (hl : ∀ action ∈ actions, action.isListening = false)
    (hr : w.run? actions = some w') : w'.listeners = w.listeners ∧ w.returns l actions = [] := by
  induction actions generalizing w with
  | nil =>
    cases hr
    exact ⟨rfl, rfl⟩
  | cons action rest ih =>
    rw [run?_cons] at hr
    obtain ⟨v, ha, hr⟩ := Option.bind_eq_some_iff.1 hr
    have hquiet := hl action List.mem_cons_self
    have hforeign : action.isOfListener l = false := by
      cases action <;> first | rfl | cases hquiet
    obtain ⟨hlisteners, hreturns⟩ :=
      ih (fun other hm => hl other (List.mem_cons_of_mem action hm)) hr
    rw [returns_cons ha, returnOf?_of_foreign hforeign, hreturns]
    exact ⟨hlisteners.trans (unheard_act? ha hquiet).listeners, rfl⟩

/-- A listener that has asked for a subscription has it sent. -/
theorem Follows.sends {o : Invocation Handler} (h : w.Follows x cursor)
    (hw : ReachableBy Action.IsGenuine w) (hk : w.frontend.kind = .blocking)
    (hconnected : w.frontend.connectionsClosed = false) (hx : w.listeners[l]? = some x)
    (halone : w.HasAlone l x) (hready : w.Ready x cursor) (hp : x.phase = .subscribing k)
    (ho : w.invocations[k]? = some o) (hasked : o.phase = .asked)
    (hd : w.relay.cursorAt x.session = cursor) :
    ∃ w' c, w.run? (List.replicate 4 (.stepInvocation k)) = some w'
      ∧ w'.listeners[l]? = some x ∧ w'.invocationPhase? k = some (.driving c .inFlight)
      ∧ w'.journal = w.journal ++ [.sent c] ∧ w'.StartsFrom c x cursor := by
  obtain ⟨o', ho', hof, -⟩ := (hw.reachable.attends hx).asked hp
  obtain rfl := Option.some.inj (ho.symm.trans ho')
  obtain ⟨s, hs, hopen⟩ := halone.isOpen
  have hfree := halone.free hw.reachable hk hp ho hasked hs
  have hbuilds : ∃ request config, Request.build s.profile s.cursor w.fresh w.config o.operation
      o.timeout = (.ok request, config) := by
    rw [cursorAt_of_getElem? hs] at hd
    rw [hof.operation, hof.timeout]
    exact Ready.builds (hd ▸ hready)
  obtain ⟨w', c, hrun, hsent, hjournal⟩ :=
    sends_of_asked hk hconnected (hof.session ▸ hs) hopen hfree ho hasked hbuilds
  have hsteps : ∀ action ∈ List.replicate 4 (.stepInvocation k : Action Handler),
      action = .stepInvocation k := fun action hm => List.eq_of_mem_replicate hm
  obtain ⟨hlisteners, hreturns⟩ := unheard_run? (l := l)
    (fun action hm => by rw [hsteps action hm]; rfl) hrun
  have hx' := hx
  rw [← hlisteners] at hx'
  obtain ⟨-, hfollows, -⟩ := h.run? hw hk hx halone
    (fun action hm => by rw [hsteps action hm]; trivial)
    (fun action hm => by rw [hsteps action hm]; rfl) hrun hx'
  rw [hreturns] at hfollows
  exact ⟨w', c, hrun, hx', hsent, hjournal, hfollows.startsFrom hp hsent (.driving rfl)⟩

/-- **A listener that is in its loop comes to subscribe**, from where the results that it took up
have left the positions. -/
theorem Follows.comesToSubscribe (h : w.Follows x cursor) (hw : ReachableBy Action.IsGenuine w)
    (hk : w.frontend.kind = .blocking) (hconnected : w.frontend.connectionsClosed = false)
    (hx : w.listeners[l]? = some x) (halone : w.HasAlone l x) (hready : w.Ready x cursor)
    (hgoing : x.phase.isGoing = true) (hp : x.phase.subscription? = none)
    (hs : x.stopping = false) (hc : x.receiver ∉ w.collected) : w.ComesToSubscribe l x cursor := by
  have hround : w.ComesRound l x := by
    refine (hw.reachable.comesRound hk hx hgoing hs hc).resolve_left ?_
    rintro ⟨j, v, hwaits, -⟩
    rw [hwaits] at hp
    cases hp
  obtain ⟨first, u, hfirst, hown, hy, hasked⟩ := hround
  have hcrashed : ∀ e, x.phase ≠ .crashed e := by
    intro e he
    rw [he] at hgoing
    cases hgoing
  -- By its own actions it has asked for an operation, and its session is what it was.
  obtain ⟨hsessions, hconfig, hfrontend⟩ := own_run? hx hown hfirst
  have hquiet {action : Action Handler} (ho : action.isOfListener l = true) :
      action.IsGenuine ∧ action.uses x.session = false := by
    cases action <;> first | exact ⟨trivial, rfl⟩ | cases ho
  obtain ⟨halone', -⟩ := h.run? hw hk hx halone (fun action hm => (hquiet (hown action hm)).1)
    (fun action hm => (hquiet (hown action hm)).2) hfirst hy
  have hd : u.relay.cursorAt x.session = cursor :=
    (cursorAt_of_sessions hsessions _).trans (h.cursorAt hp hcrashed)
  have hat : u.invocations[w.invocations.length]?
      = some ⟨x.session, .subscribeMulti (.arr x.channels), x.timeout, none, .asked⟩ := by
    rw [hasked]
    exact List.getElem?_concat_length
  have hready' : u.Ready x cursor := hready.mono fun _ => hconfig
  have hfollows : u.Follows { x with phase := .subscribing w.invocations.length } cursor :=
    .during rfl hat (.begun (.inl rfl) hd)
  obtain ⟨w', c, hsecond, hx', hsent, hjournal, hstarts⟩ :=
    hfollows.sends (hw.run (fun action hm => (hquiet (hown action hm)).1) hfirst)
      (hfrontend ▸ hk) (hfrontend ▸ hconnected) hy halone'
      ⟨hready'.channels, hready'.position, hready'.timeout⟩ rfl hat rfl hd
  refine ⟨first ++ List.replicate 4 (.stepInvocation w.invocations.length), w', c, ?_, ?_, hx',
    hsent, ?_, hstarts⟩
  · rw [run?_append, hfirst]
    exact hsecond
  · intro action hm
    rcases List.mem_append.1 hm with hm | hm
    · exact .inl (hown action hm)
    · exact .inr (List.eq_of_mem_replicate hm)
  · rw [hjournal, List.getLast?_concat]

/-! ## Every message once -/

/-- Starting a listener touches no session, no operation and no closing. -/
theorem enlist_keeps (u : Client Handler) (receiver : String) (listener : Listener) :
    ((u.stopListener receiver).enlist listener).sessions = u.sessions
      ∧ ((u.stopListener receiver).enlist listener).invocations = u.invocations
      ∧ ((u.stopListener receiver).enlist listener).closings = u.closings := by
  unfold enlist stopListener
  split <;> exact ⟨rfl, rfl, rfl⟩

/-- A listener that was started on a session that nobody uses has that to itself, and is about to
subscribe from the positions that it has. -/
theorem IsUnused.started {channels timeout : Json} {receiver : String} (h : u.IsUnused i s)
    {fault : Option Error}
    (hstart : u.startListener i channels (some receiver) timeout fault = (.ok (), w)) :
    ∃ x, w.listeners[u.listeners.length]? = some x ∧ x.receiver = receiver ∧ x.session = i
      ∧ listenedChannels channels = .ok x.channels ∧ x.phase = .looping
      ∧ w.HasAlone u.listeners.length x ∧ w.Follows x s.cursor := by
  obtain ⟨-, -, list, hlist, rfl⟩ := startListener_eq_ok hstart
  obtain ⟨hsessions, hinvocations, hclosings⟩ :=
    enlist_keeps u receiver ⟨receiver, i, list, timeout, false, .looping⟩
  have hlisteners : ((u.stopListener receiver).enlist
      ⟨receiver, i, list, timeout, false, .looping⟩).listeners
      = (u.stopListener receiver).listeners ++ [⟨receiver, i, list, timeout, false, .looping⟩] :=
    rfl
  have hlength := length_stopListener u receiver
  refine ⟨⟨receiver, i, list, timeout, false, .looping⟩, ?_, rfl, rfl, hlist, rfl,
    ⟨?_, ?_, ?_, ?_⟩, .between rfl ?_⟩
  · rw [hlisteners, ← hlength, List.getElem?_concat_length]
  · exact ⟨s, hsessions ▸ h.known, h.isOpen⟩
  · intro j o ho hs
    exact .inl (h.operations o (List.mem_of_getElem? (hinvocations ▸ ho)) hs)
  · rw [hclosings]
    exact h.closings
  · intro k y hy hne hs
    rw [hlisteners, List.getElem?_append] at hy
    split at hy
    · rw [getElem?_stopListener] at hy
      obtain ⟨z, hz, rfl⟩ := Option.map_eq_some_iff.1 hy
      have hgone := h.listeners z (List.mem_of_getElem? hz)
      split at hs
      · next hr =>
        rw [if_pos hr]
        exact hgone hs
      · next hr =>
        rw [if_neg hr]
        exact hgone hs
    · obtain ⟨hlt, -⟩ := List.getElem?_eq_some_iff.1 hy
      rw [List.length_singleton] at hlt
      omega
  · exact (cursorAt_of_sessions hsessions i).trans (cursorAt_of_getElem? h.known)

/-- **How a listener delivers**, along a run that leads from `w` to `v`: `x` is what it is then, and
`start` what the positions of its session were when the run began. -/
structure DeliversOnce (w : Client Handler) (l : Nat) (actions : List (Action Handler))
    (v : Client Handler) (x : Listener) (start : Cursor) : Prop where
  /-- What was handed over, and what is still to be handed on, are the messages of the OK results
  that the listener took up before it was told to stop, in order: all of them, and each once. -/
  handed : w.handed l actions ++ x.phase.pending.map (Prod.mk x.receiver)
    = ((w.returns l actions).flatMap Return.messages).map (Prod.mk x.receiver)
  /-- An OK result has a channel for each of its messages, so none is left out. -/
  whole : ∀ r ∈ w.returns l actions, r.result.IsWhole
  /-- The messages of an OK result that the listener took up before it was told to stop are all of
  its messages, each with the channel that the result has for it. -/
  paired : ∀ r ∈ w.returns l actions, r.late = false → r.result.code = .ok →
    r.result.channels = some (r.messages.map Prod.fst)
      ∧ r.result.messages = some (r.messages.map Prod.snd)
  /-- When the receiver returns, or raises an exception, the listener goes on with the rest. -/
  resumes : ∀ {channel : String} {message : Message} {rest : List (String × Message)}
    {raised : Option Error}, x.phase = .receiving channel message rest → Error.IsCaught raised →
    ∃ v', v.act? (.returnListener l raised) = some v'
      ∧ v'.listeners[l]? = some { x with phase := .delivering rest }
  /-- What is still to be handed on is handed on, whether the listener was told to stop or not, and
  at whichever messages the receiver raises an exception. -/
  finishes : ∀ {messages : List (String × Message)} {raises : List (Option Error)},
    x.phase = .delivering messages → raises.length = messages.length →
    (∀ raised ∈ raises, Error.IsCaught raised) →
    ∃ v', v.run? (handing l raises) = some v'
      ∧ v'.listeners[l]? = some { x with phase := .delivering [] }
      ∧ v.handed l (handing l raises) = messages.map (Prod.mk x.receiver)
  /-- From when the listener was told to stop, every result is late, and nothing is handed over but
  what there was to be handed on. -/
  stops : ∀ {first rest : List (Action Handler)} {m : Client Handler} {y : Listener},
    actions = first ++ rest → w.run? first = some m → m.listeners[l]? = some y →
    y.stopping = true → (∀ r ∈ m.returns l rest, r.late = true)
      ∧ m.handed l rest ++ x.phase.pending.map (Prod.mk x.receiver)
        = y.phase.pending.map (Prod.mk x.receiver)
  /-- After a failure that is not late, the listener pauses and touches no session. -/
  pauses : ∀ {m m' : Client Handler} {action : Action Handler} {r : Return},
    w.Occurs actions m action m' → m.returnOf? l action = some r → r.late = false →
    r.result.code ≠ .ok → m'.journal = m.journal ++ [.paused pauseTime]
      ∧ m'.sessions = m.sessions ∧ ∃ y, m'.listeners[l]? = some y ∧ y.phase = .pausing
  /-- After a result that is late, of whichever kind, the listener leaves its loop, and does nothing
  else. -/
  leaves : ∀ {m m' : Client Handler} {action : Action Handler} {r : Return},
    w.Occurs actions m action m' → m.returnOf? l action = some r → r.late = true →
    m'.journal = m.journal ∧ m'.sessions = m.sessions
      ∧ ∃ y, m'.listeners[l]? = some y ∧ y.phase = .leaving
  /-- A listener that took up a result has valid channels, and at least one. -/
  names : w.returns l actions ≠ [] → checkChannels (.arr x.channels) = .ok x.names ∧ x.names ≠ []
  /-- Between two subscriptions the positions are what the results have made of them. -/
  positions : x.phase.subscription? = none → (∀ e, x.phase ≠ .crashed e) →
    ∃ t, v.sessions[x.session]? = some t
      ∧ t.cursor = cursorAfter start x.names (w.returns l actions)
  /-- A subscription that is in progress starts from there. -/
  starts : ∀ {k c : Nat} {phase : InvocationPhase}, x.phase = .subscribing k →
    v.invocationPhase? k = some phase → phase.IsUnderway c →
    v.StartsFrom c x (cursorAfter start x.names (w.returns l actions))
  /-- A failure leaves the positions unchanged. -/
  failed : ∀ {before : List Return} {r : Return}, w.returns l actions = before ++ [r] →
    r.result.code ≠ .ok → cursorAfter start x.names (w.returns l actions)
      = cursorAfter start x.names before
  /-- After an OK result every channel is at its timetoken, and a subscription that starts from
  there asks for what comes after this timetoken, and has no list of positions. -/
  succeeded : ∀ {before : List Return} {r : Return}, w.returns l actions = before ++ [r] →
    r.result.code = .ok → ∃ timetoken, r.result.timetoken = some timetoken
      ∧ (∀ name ∈ x.names,
        (cursorAfter start x.names (w.returns l actions)).get? name = some timetoken)
      ∧ ∀ {m : Client Handler} {c : Nat} {call : Call Handler}, m.calls[c]? = some call →
        m.StartsFrom c x (cursorAfter start x.names (w.returns l actions)) →
        call.request.query = .subscribe x.names timetoken (x.names.map fun _ => timetoken)
          ∧ call.request.parameters = [("uuid", call.request.uuid)]
  /-- Unless it is told to stop, the listener comes to subscribe again from there. -/
  subscribes : w.returns l actions ≠ [] → (∀ e, x.phase ≠ .crashed e) →
    x.phase.subscription? = none → x.stopping = false → v.frontend.connectionsClosed = false →
    v.ComesToSubscribe l x (cursorAfter start x.names (w.returns l actions))

section

variable {start : Cursor} {names : List String} {before : List Return} {r : Return}

theorem cursorAfter_concat : cursorAfter start names (before ++ [r])
    = (cursorAfter start names before).heed names r.result := by
  unfold cursorAfter
  rw [List.foldl_append]
  rfl

/-- A failure leaves the positions as they were. -/
theorem cursorAfter_of_failure (h : r.result.code ≠ .ok) :
    cursorAfter start names (before ++ [r]) = cursorAfter start names before := by
  rw [cursorAfter_concat]
  exact if_neg h

/-- An OK result moves all positions to its timetoken. -/
theorem cursorAfter_of_ok {timetoken : String} (h : r.result.code = .ok)
    (ht : r.result.timetoken = some timetoken) : cursorAfter start names (before ++ [r])
      = (cursorAfter start names before).advance names timetoken := by
  rw [cursorAfter_concat]
  unfold Cursor.heed
  rw [if_pos h, ht]
  rfl

end

/-- A listener that was not dismissed, and that no error ended, is in its loop. -/
theorem Fares.isGoing (h : w.Fares x) (hs : x.stopping = false) (hc : x.receiver ∉ w.collected)
    (hcrashed : ∀ e, x.phase ≠ .crashed e) : x.phase.isGoing = true := by
  cases h with
  | goesOn hgoing => exact hgoing
  | dismissed hgone =>
    rcases hgone with hgone | hgone
    · cases hs.symm.trans hgone
    · exact absurd hgone hc
  | failed _ _ _ hp => exact absurd hp (hcrashed _)
  | broken _ hp => exact absurd hp (hcrashed _)

/-- A subscription from positions that are all the same asks for what comes after that one, and
lists none. -/
theorem StartsFrom.of_advance {c : Nat} {call : Call Handler} {timetoken : String}
    (h : w.StartsFrom c x (cursor.advance x.names timetoken)) (hc : w.calls[c]? = some call)
    (hne : x.names ≠ []) (ht : IsDecimalText timetoken) :
    call.request.query = .subscribe x.names timetoken (x.names.map fun _ => timetoken)
      ∧ call.request.parameters = [("uuid", call.request.uuid)] := by
  obtain ⟨call', timetoken', hc', -, hposition, hquery⟩ := h
  obtain rfl := Option.some.inj (hc.symm.trans hc')
  obtain rfl := Except.ok.inj ((Cursor.position_advance cursor hne ht).symm.trans hposition)
  rw [Cursor.positions_advance] at hquery
  refine ⟨hquery, ?_⟩
  unfold Request.parameters
  rw [hquery]
  dsimp only
  rw [parameters_positions, Operation.positionParameters, if_pos (by simp)]
  rfl

/-- **A listener delivers every message once, in order.** Let a listener be started on a session
that nobody uses, and let anything happen then but that an application uses the session; let the
world give genuine outcomes, let the receiver exist throughout, and let the timetokens of the OK
results be numbers in ASCII digits. Then the listener delivers (`DeliversOnce`), however many
results come back, whichever of them are failures, whenever the listener is told to stop, and
whichever messages the receiver raises an exception at:

* its receiver is handed the messages of the OK results that the listener took up before it was told
  to stop, each with its channel: all of them, in order, and each once;
* after a failure it pauses, and its next subscription starts from the positions that there were;
* after an OK result its next subscription starts exactly at the timetoken of the result, for all of
  its channels. -/
theorem ReachableBy.delivers_every_message_once {channels timeout : Json} {receiver : String}
    (hu : ReachableBy Action.IsGenuine u) (hunused : u.IsUnused i s)
    {fault : Option Error}
    (hstart : u.startListener i channels (some receiver) timeout fault = (.ok (), w))
    (hg : ∀ action ∈ actions, action.IsGenuine) (huse : ∀ action ∈ actions, action.uses i = false)
    (hrun : w.run? actions = some v) (hthere : receiver ∉ v.collected)
    (hcaught : ∀ raised, .returnListener u.listeners.length raised ∈ actions →
      Error.IsCaught raised)
    (hdecimal : ∀ r ∈ w.returns u.listeners.length actions, r.result.code = .ok →
      ∀ timetoken, r.result.timetoken = some timetoken → IsDecimalText timetoken) :
    ∃ x, v.listeners[u.listeners.length]? = some x ∧ x.receiver = receiver ∧ x.session = i
      ∧ listenedChannels channels = .ok x.channels
      ∧ w.DeliversOnce u.listeners.length actions v x s.cursor := by
  generalize hl : u.listeners.length = l at hcaught hdecimal ⊢
  obtain ⟨new, hnew, rfl, rfl, hlist, hlooping, halone, hfollows⟩ := hunused.started hstart
  rw [hl] at hnew halone
  have hw : ReachableBy Action.IsGenuine w := by
    refine hu.act (.startListener new.session channels (some new.receiver) timeout fault) trivial ?_
    show some (u.startListener _ channels _ timeout fault).2 = some w
    rw [hstart]
  have hk : w.frontend.kind = .blocking := by
    obtain ⟨hblocking, -, list, -, henlist⟩ := startListener_eq_ok hstart
    rw [henlist, enlist, frontend_stopListener]
    exact eq_of_beq hblocking
  have hborn : ∀ e, new.phase ≠ .stillborn e := by
    rw [hlooping]
    rintro e ⟨⟩
  obtain ⟨x, hx, hreceiver, hsession, hchannels, htimeout, hborn'⟩ :=
    exists_same_listener_run? hnew hborn hrun
  have hnames : x.names = new.names := by
    unfold Listener.names
    rw [hchannels]
  have hv := hw.run hg hrun
  have hkv : v.frontend.kind = .blocking := (hw.reachable.kind_run? hrun).trans hk
  obtain ⟨halone', hfollows', hwhole, hready⟩ :=
    hfollows.run? hw hk hnew halone hg huse hrun hx
  have hready := hready hdecimal
  rw [← hnames] at hfollows' hready
  have hthere : x.receiver ∉ v.collected := hreceiver ▸ hthere
  have hvalid (hreturns : w.returns l actions ≠ []) :
      checkChannels (.arr x.channels) = .ok x.names ∧ x.names ≠ [] := by
    have hchannels := (hready (.inr hreturns)).channels
    exact ⟨hchannels, (checkChannels_eq_ok hchannels).1⟩
  refine ⟨x, hx, hreceiver, hsession, hchannels ▸ hlist, ?_⟩
  refine ⟨?_, hwhole, ?_, ?_, ?_, ?_, ?_, ?_, hvalid, ?_, ?_, ?_, ?_, ?_⟩
  · have hhanded := handed_run? hnew hrun hx (hreceiver ▸ hthere) hcaught
    rw [hlooping] at hhanded
    rw [hreceiver]
    exact hhanded
  · exact fun r hm hlate hcode => Return.map_messages hlate hcode (hwhole r hm)
  · intro channel message rest raised hp hexception
    obtain ⟨v', ha, hx', -⟩ := returnListener?_of_receiving hx hp hexception
    exact ⟨v', ha, hx'⟩
  · intro messages raises hp hlength hexceptions
    exact run?_handing hx hp hlength hexceptions
  · rintro first rest m y rfl hfirst hy hstopping
    rw [run?_append, hfirst] at hrun
    obtain ⟨y', hy', hreceiver', -⟩ := exists_same_listener_run? hnew hborn hfirst
    obtain rfl := Option.some.inj (hy.symm.trans hy')
    refine ⟨late_run? hy hstopping hrun, ?_⟩
    have hsame : x.receiver = y.receiver := hreceiver.trans hreceiver'.symm
    rw [hsame]
    exact handed_of_stopping hy hstopping hrun hx (hsame ▸ hthere)
      fun raised hm => hcaught raised (List.mem_append_right first hm)
  · intro m m' action r ho hreturn hlate hcode
    obtain ⟨-, y, -, hy, -⟩ := returnOf?_eq_some_iff.1 hreturn
    obtain ⟨before, after, -, -, ha, -⟩ := ho.exists_run? hrun
    obtain ⟨hy', hsessions, hjournal⟩ := pauses_of_returnOf? hy hreturn hlate hcode ha
    exact ⟨hjournal, hsessions, _, hy', rfl⟩
  · intro m m' action r ho hreturn hlate
    obtain ⟨-, y, -, hy, -⟩ := returnOf?_eq_some_iff.1 hreturn
    obtain ⟨before, after, -, -, ha, -⟩ := ho.exists_run? hrun
    obtain ⟨hy', hsessions, hjournal⟩ := leaves_of_returnOf? hy hreturn hlate ha
    exact ⟨hjournal, hsessions, _, hy', rfl⟩
  · intro hp hcrashed
    obtain ⟨t, ht, -⟩ := halone'.isOpen
    exact ⟨t, ht, (cursorAt_of_getElem? ht).symm.trans (hfollows'.cursorAt hp hcrashed)⟩
  · intro k c phase hp hphase hunderway
    exact hfollows'.startsFrom hp hphase hunderway
  · intro before r hlast hcode
    rw [hlast, cursorAfter_of_failure hcode]
  · intro before r hlast hcode
    have hm : r ∈ w.returns l actions := by simp [hlast]
    obtain ⟨_, _, timetoken, -, -, -, htimetoken⟩ := hwhole r hm hcode
    rw [hlast, cursorAfter_of_ok hcode htimetoken]
    refine ⟨timetoken, htimetoken, ?_, ?_⟩
    · intro name hname
      rw [Cursor.get?_advance, if_pos hname]
    · intro m c call hc hstarts
      exact hstarts.of_advance hc (hvalid (by simp [hlast])).2
        (hdecimal r hm hcode timetoken htimetoken)
  · intro hreturns hcrashed hp hstopping hconnected
    have hfares := (hv.reachable.attends hx).fares.resolve_right (by
      rintro ⟨e, he⟩
      exact hborn' e he)
    have hgoing := hfares.isGoing hstopping hthere hcrashed
    exact hfollows'.comesToSubscribe hv hkv hconnected hx halone' (hready (.inr hreturns)) hgoing hp
      hstopping hthere

/-- A client with a session that nobody uses. -/
def unusedClient : Client Unit :=
  (blockingClient.run? [.openSession ⟨.null, .null, .null, .null, true⟩ "u"]).getD blockingClient

/-- The client after a listener was started on the session. -/
def listeningClient : Client Unit :=
  (unusedClient.startListener 0 (.str "a") (some "r") .null none).2

/-- Two messages come, at the first of which the receiver raises an exception; then a response comes
that cannot be read. -/
def twoMessages : List (Action Unit) :=
  [.stepListener 0, .stepInvocation 0, .stepInvocation 0, .stepInvocation 0, .stepInvocation 0,
    .answerInvocation 0 (.ok (.reply 200 (utf8Bytes "[[1,2],\"20\"]"))), .stepInvocation 0,
    .stepInvocation 0, .stepListener 0, .stepListener 0,
    .returnListener 0 (some (.applicationFailed "no")), .stepListener 0, .returnListener 0 none,
    .stepListener 0, .stepListener 0, .stepInvocation 1, .stepInvocation 1, .stepInvocation 1,
    .stepInvocation 1,
    .answerInvocation 1 (.ok (.reply 200 (utf8Bytes "x"))), .stepInvocation 1, .stepInvocation 1,
    .stepListener 0]

theorem reachableBy_unusedClient : ReachableBy Action.IsGenuine unusedClient := by
  obtain ⟨u, hu⟩ := Option.isSome_iff_exists.1 (show (blockingClient.run?
    [.openSession ⟨.null, .null, .null, .null, true⟩ "u"]).isSome = true by decide +kernel)
  unfold unusedClient
  rw [hu]
  exact ReachableBy.run (.initial _ [] _) (by simp [Action.IsGenuine]) hu

theorem isUnused_unusedClient : ∃ s, unusedClient.IsUnused 0 s ∧ s.cursor = Cursor.empty := by
  have hfacts : ((unusedClient.sessions[0]?).any
        (fun s => s.closed == false && decide (s.cursor = Cursor.empty))
      && unusedClient.invocations.isEmpty && unusedClient.closings.isEmpty
      && unusedClient.listeners.isEmpty) = true := by decide +kernel
  simp only [Bool.and_eq_true, List.isEmpty_iff] at hfacts
  obtain ⟨⟨⟨hs, hinvocations⟩, hclosings⟩, hlisteners⟩ := hfacts
  obtain ⟨s, hs, hopen⟩ := (Option.any_eq_true _ _).1 hs
  simp only [Bool.and_eq_true, beq_iff_eq, decide_eq_true_eq] at hopen
  refine ⟨s, ⟨hs, hopen.1, ?_, ?_, ?_⟩, hopen.2⟩
  · rw [hinvocations]
    rintro v ⟨⟩
  · rw [hclosings]
    rintro closing ⟨⟩
  · rw [hlisteners]
    rintro x ⟨⟩

/-- The integer that a message is. -/
def wholeNumber? : Message → Option Int
  | .plain (.value (.int n)) => some n
  | _ => none

theorem eq_of_wholeNumber? {message : Message} {n : Int} (h : wholeNumber? message = some n) :
    message = .plain (.value (.int n)) := by
  unfold wholeNumber? at h
  split at h <;> cases h
  rfl

theorem eq_of_wholeNumbers {pairs : List (String × Message)} {numbers : List (String × Int)}
    (h : pairs.map (fun pair => (pair.1, wholeNumber? pair.2))
      = numbers.map fun pair => (pair.1, some pair.2)) :
    pairs = numbers.map fun pair => (pair.1, .plain (.value (.int pair.2))) := by
  induction pairs generalizing numbers with
  | nil =>
    rw [List.map_nil, eq_comm, List.map_eq_nil_iff] at h
    rw [h, List.map_nil]
  | cons pair pairs ih =>
    obtain ⟨number, numbers, rfl⟩ := List.exists_cons_of_ne_nil (l := numbers) (by
      rintro rfl
      cases h)
    obtain ⟨hfirst, hrest⟩ := List.cons.inj h
    obtain ⟨hchannel, hmessage⟩ := Prod.mk.inj hfirst
    rw [List.map_cons, ← ih hrest, ← hchannel, ← eq_of_wholeNumber? hmessage]

/-- Both messages are handed over, in spite of the exception; and in spite of the failure the
listener continues from where they left it. -/
theorem delivers_every_message_once_twoMessages :
    ∃ (v : Client Unit) (x : Listener),
      unusedClient.startListener 0 (.str "a") (some "r") .null none = (.ok (), listeningClient)
      ∧ listeningClient.run? twoMessages = some v ∧ v.listeners[0]? = some x
      ∧ listeningClient.handed 0 twoMessages
        = [("r", "a", .plain (.value (.int 1))), ("r", "a", .plain (.value (.int 2)))]
      ∧ v.ComesToSubscribe 0 x (Cursor.empty.set "a" "20") := by
  have hstarts : (unusedClient.startListener 0 (.str "a") (some "r") .null none).1.isOk = true := by
    decide +kernel
  have hstart : unusedClient.startListener 0 (.str "a") (some "r") .null none
      = (.ok (), listeningClient) := by
    unfold listeningClient
    generalize unusedClient.startListener 0 (.str "a") (some "r") .null none = started at hstarts
    obtain ⟨outcome, w⟩ := started
    cases outcome with
    | error e => cases hstarts
    | ok => rfl
  have hlength : unusedClient.listeners.length = 0 := by decide +kernel
  have hfacts : (listeningClient.run? twoMessages).any (fun v =>
      (v.listeners[0]?).any (fun x => x.phase.isGoing && x.phase.subscription?.isNone
        && x.phase.pending.isEmpty && x.stopping == false && x.names == ["a"])
        && v.collected.isEmpty && v.frontend.connectionsClosed == false) = true := by
    decide +kernel
  have hreturns : ((listeningClient.returns 0 twoMessages).all (fun r =>
        r.result.timetoken.all fun timetoken => decide (IsDecimalText timetoken))
      && decide (cursorAfter Cursor.empty ["a"] (listeningClient.returns 0 twoMessages)
        = Cursor.empty.set "a" "20")
      && (listeningClient.returns 0 twoMessages).isEmpty == false) = true := by
    decide +kernel
  have hmessages : ((listeningClient.returns 0 twoMessages).flatMap Return.messages).map
      (fun pair => (pair.1, wholeNumber? pair.2))
      = [(("a", 1) : String × Int), ("a", 2)].map fun pair => (pair.1, some pair.2) := by
    decide +kernel
  obtain ⟨v, hrun, hfacts⟩ := (Option.any_eq_true _ _).1 hfacts
  simp only [Bool.and_eq_true, beq_iff_eq, List.isEmpty_iff] at hfacts
  obtain ⟨⟨hlistener, hcollected⟩, hconnected⟩ := hfacts
  simp only [Bool.and_eq_true, List.all_eq_true, decide_eq_true_eq, beq_iff_eq] at hreturns
  obtain ⟨⟨hdecimal, hcursor⟩, hsome⟩ := hreturns
  obtain ⟨s, hunused, hempty⟩ := isUnused_unusedClient
  have hgenuine : ∀ action ∈ twoMessages, action.IsGenuine := by
    simp [twoMessages, Action.IsGenuine, Outcome.IsGenuine]
  have huse : ∀ action ∈ twoMessages, action.uses 0 = false := by
    simp [twoMessages, Action.uses]
  have hcaught : ∀ raised, .returnListener 0 raised ∈ twoMessages → Error.IsCaught raised := by
    simp [twoMessages, Error.IsCaught, Error.isException]
  have hthere : "r" ∉ v.collected := by simp [hcollected]
  obtain ⟨x, hx, hreceiver, -, -, hdelivers⟩ :=
    reachableBy_unusedClient.delivers_every_message_once hunused hstart hgenuine huse hrun hthere
      (hlength ▸ hcaught)
      (by
        rw [hlength]
        intro r hm hc timetoken htimetoken
        have htexts := hdecimal r hm
        rw [htimetoken] at htexts
        simpa using htexts)
  rw [hlength] at hx hdelivers
  rw [hx] at hlistener
  simp only [Option.any_some, Bool.and_eq_true, Option.isNone_iff_eq_none, List.isEmpty_iff,
    beq_iff_eq] at hlistener
  obtain ⟨⟨⟨⟨hgoing, hbetween⟩, hpending⟩, hstopping⟩, hnames⟩ := hlistener
  refine ⟨v, x, hstart, hrun, hx, ?_, ?_⟩
  · have hhanded := hdelivers.handed
    rw [hpending, hreceiver, List.map_nil, List.append_nil] at hhanded
    rw [hhanded, eq_of_wholeNumbers hmessages]
    rfl
  · have hsubscribes := hdelivers.subscribes (by simpa using hsome) ?_ hbetween hstopping hconnected
    · rwa [hnames, hempty, hcursor] at hsubscribes
    · intro e he
      rw [he] at hgoing
      cases hgoing

end Client

end Pubsub
