import Pubsub.Proofs.Positions
import Pubsub.Proofs.SingleFlight

/-!
# When a subscription can be built

A subscription on valid channels of a session that is free and open can fail to be built for one
reason only: the cursor holds a position that denotes no integer. This module follows an operation
from where it is asked for to where its request is built, and says which of the two happens, in
terms of the digits of the positions. A failure leaves the session as it was, position and all, so
the next subscription on the same channels fails as well.
-/

namespace Pubsub

variable {Handler : Type}

/-! ## Comparing positions -/

namespace Cursor

/-- The oldest position is found if all of them denote integers, and otherwise the comparison fails
on one that does not. -/
theorem leastFrom_spec (best : String × Int) (texts : List String) :
    (∃ text, leastFrom best texts = .ok text ∧ ∀ s ∈ texts, ∃ n, Json.integerOfText s = .ok n)
    ∨ ∃ e, leastFrom best texts = .error e ∧ e.family = "ValueError"
      ∧ ∃ s ∈ texts, ∀ n, Json.integerOfText s ≠ .ok n := by
  induction texts generalizing best with
  | nil => exact Or.inl ⟨best.1, rfl, by rintro s ⟨⟩⟩
  | cons s rest ih =>
    cases hs : Json.integerOfText s with
    | error e =>
      refine Or.inr ⟨e, ?_, Json.family_of_integerOfText hs, s, List.mem_cons_self, ?_⟩
      · unfold leastFrom
        rw [hs]
        rfl
      · intro n hn
        rw [hs] at hn
        cases hn
    | ok n =>
      have hstep : leastFrom best (s :: rest)
          = leastFrom (if n < best.2 then (s, n) else best) rest := by
        rw [leastFrom, hs]
        rfl
      rw [hstep]
      rcases ih (if n < best.2 then (s, n) else best) with
        ⟨text, hok, hall⟩ | ⟨e, he, hf, s', hm, hs'⟩
      · refine Or.inl ⟨text, hok, ?_⟩
        intro s' hm
        rcases List.mem_cons.1 hm with rfl | hm
        · exact ⟨n, hs⟩
        · exact hall s' hm
      · exact Or.inr ⟨e, he, hf, s', List.mem_cons_of_mem s hm, hs'⟩

/-- **The oldest position of some channels is found exactly if every position among them denotes an
integer.** A channel without a position does not matter. -/
theorem position_spec (cursor : Cursor) (channels : List String) :
    (∃ text, cursor.position channels = .ok text
      ∧ ∀ channel ∈ channels, ∀ position, cursor.get? channel = some position →
          ∃ n, Json.integerOfText position = .ok n)
    ∨ ∃ e, cursor.position channels = .error e ∧ e.family = "ValueError"
      ∧ ∃ channel ∈ channels, ∃ position, cursor.get? channel = some position
        ∧ ∀ n, Json.integerOfText position ≠ .ok n := by
  have horigin : Json.integerOfText origin = .ok 0 := rfl
  -- The texts that are compared are the positions that are not the origin, which is one itself.
  have hmem : ∀ {text}, text ∈ (cursor.positions channels).filter (· != origin)
      → ∃ channel ∈ channels, cursor.get? channel = some text := by
    intro text hm
    obtain ⟨hm, hne⟩ := List.mem_filter.1 hm
    obtain ⟨channel, hc, rfl⟩ := List.mem_map.1 hm
    refine ⟨channel, hc, ?_⟩
    cases hg : cursor.get? channel with
    | none => simp [hg] at hne
    | some position => rfl
  have hknown : ∀ {channel position}, channel ∈ channels → cursor.get? channel = some position →
      position = origin ∨ position ∈ (cursor.positions channels).filter (· != origin) := by
    intro channel position hc hg
    by_cases ho : position = origin
    · exact Or.inl ho
    · refine Or.inr (List.mem_filter.2 ⟨List.mem_map.2 ⟨channel, hc, ?_⟩, by simpa using ho⟩)
      rw [hg]
      rfl
  unfold position
  cases hp : (cursor.positions channels).filter (· != origin) with
  | nil =>
    refine Or.inl ⟨origin, rfl, ?_⟩
    intro channel hc position hg
    rcases hknown hc hg with rfl | hm
    · exact ⟨0, horigin⟩
    · rw [hp] at hm
      cases hm
  | cons s rest =>
    dsimp only
    have hs : ∀ {text}, text ∈ s :: rest →
        ∃ channel ∈ channels, cursor.get? channel = some text := by
      intro text hm
      exact hmem (hp ▸ hm)
    cases hn : Json.integerOfText s with
    | error e =>
      obtain ⟨channel, hc, hg⟩ := hs List.mem_cons_self
      refine Or.inr ⟨e, rfl, Json.family_of_integerOfText hn, channel, hc, s, hg, ?_⟩
      intro n hn'
      rw [hn] at hn'
      cases hn'
    | ok n =>
      rcases leastFrom_spec (s, n) rest with ⟨text, hok, hall⟩ | ⟨e, he, hf, text, hm, ht⟩
      · refine Or.inl ⟨text, hok, ?_⟩
        intro channel hc position hg
        rcases hknown hc hg with rfl | hm
        · exact ⟨0, horigin⟩
        · rw [hp] at hm
          rcases List.mem_cons.1 hm with rfl | hm
          · exact ⟨n, hn⟩
          · exact hall position hm
      · obtain ⟨channel, hc, hg⟩ := hs (List.mem_cons_of_mem s hm)
        exact Or.inr ⟨e, he, hf, channel, hc, text, hg, ht⟩

end Cursor

/-! ## The request of a subscription -/

/-- Is the text the name of a channel? -/
def IsChannelName (name : String) : Prop := name ≠ "" ∧ ',' ∉ name.toList

/-- The operation subscribes to these channels. -/
inductive Operation.SubscribesTo : Operation → List String → Prop where
  | one (name : String) : (subscribe (.str name)).SubscribesTo [name]
  | many (names : List String) : (subscribeMulti (.arr (names.map .str))).SubscribesTo names

theorem checkChannel_of_isChannelName {name : String} (h : IsChannelName name) :
    checkChannel (.str name) = .ok name := by
  unfold checkChannel
  dsimp only
  rw [if_neg h.1, if_neg]
  rw [List.contains_iff_mem]
  exact h.2

theorem mapM_checkChannel {names : List String} (h : ∀ name ∈ names, IsChannelName name) :
    (names.map Json.str).mapM checkChannel = .ok names := by
  induction names with
  | nil => rfl
  | cons name rest ih =>
    rw [List.map_cons, List.mapM_cons, checkChannel_of_isChannelName (h name List.mem_cons_self),
      ih fun name hm => h name (List.mem_cons_of_mem _ hm)]
    rfl

theorem checkChannels_of_isChannelName {names : List String} (hne : names ≠ [])
    (h : ∀ name ∈ names, IsChannelName name) :
    checkChannels (.arr (names.map .str)) = .ok names := by
  show (do
    let channels ← (names.map Json.str).mapM checkChannel
    if channels.isEmpty then throw .noChannels
    return channels) = Except.ok names
  rw [mapM_checkChannel h]
  show (do
    if names.isEmpty then throw Error.noChannels
    return names) = Except.ok names
  rw [if_neg (by simpa using hne)]
  rfl

theorem Query.ofSubscribe_of_isChannelName (cursor : Cursor) {names : List String}
    (hne : names ≠ []) (h : ∀ name ∈ names, IsChannelName name) :
    ofSubscribe cursor (.arr (names.map .str))
      = (cursor.position names).map fun timetoken =>
          .subscribe names timetoken (cursor.positions names) := by
  unfold ofSubscribe
  rw [checkChannels_of_isChannelName hne h]
  show (do
    let timetoken ← cursor.position names
    return Query.subscribe names timetoken (cursor.positions names)) = _
  cases cursor.position names <;> rfl

/-- An integer in the range of doubles is read as the nearest one. -/
theorem Json.toDouble_int {n : Int} (h : (Binary64.ofInt n).isFinite = true) :
    (Json.int n).toDouble = .ok (Binary64.ofInt n) := by
  unfold toDouble doubleOfInteger
  dsimp only
  rw [if_pos h]

/-- A timeout that is a number, and not a negative one, is taken as it is. -/
theorem Configuration.resolveTimeout_of_isNegative (c : Configuration) {timeout : Json}
    (h : timeout.isNegative = .ok false) (name : String) :
    c.resolveTimeout timeout name = (timeout.toDouble, c) := by
  unfold resolveTimeout
  cases timeout with
  | null => cases h
  | _ =>
    dsimp only
    rw [h]

/-- So is an integer that is not negative and in the range of doubles. -/
theorem Configuration.resolveTimeout_int (c : Configuration) {n : Int} (hn : 0 ≤ n)
    (h : (Binary64.ofInt n).isFinite = true) (name : String) :
    c.resolveTimeout (.int n) name = (.ok (Binary64.ofInt n), c) := by
  have hneg : (Json.int n).isNegative = .ok false := by
    simp [Json.isNegative, hn]
  rw [c.resolveTimeout_of_isNegative hneg, Json.toDouble_int h]

/-- **The request of a subscription on valid channels is built exactly if their oldest position is
found.** -/
theorem Request.build_of_subscribesTo {operation : Operation} {names : List String}
    (hop : operation.SubscribesTo names) (hne : names ≠ [])
    (hnames : ∀ name ∈ names, IsChannelName name) {timeout : Json} {seconds : Binary64}
    (hneg : timeout.isNegative = .ok false) (ht : timeout.toDouble = .ok seconds) (p : Profile)
    (cursor : Cursor) (fresh : Bytes) (c : Configuration) :
    Request.build p cursor fresh c operation timeout
      = ((cursor.position names).map fun timetoken =>
          { origin := p.origin, uuid := p.uuid, subscribeKey := p.subscribeKey, cipher := p.cipher
            timeout := seconds
            query := .subscribe names timetoken (cursor.positions names) }, c) := by
  have hprecheck : operation.precheck = .ok () := by
    cases hop with
    | one name =>
      unfold Operation.precheck
      dsimp only
      rw [checkChannel_of_isChannelName (hnames name List.mem_cons_self)]
      rfl
    | many => rfl
  have hquery : Query.ofOperation p cursor fresh operation
      = (cursor.position names).map fun timetoken =>
          .subscribe names timetoken (cursor.positions names) := by
    rw [← Query.ofSubscribe_of_isChannelName cursor hne hnames]
    cases hop with
    | one name => rfl
    | many => rfl
  unfold Request.build
  rw [hprecheck]
  dsimp only
  rw [Configuration.resolveTimeout_of_isNegative c hneg, ht]
  dsimp only
  rw [hquery]
  cases cursor.position names <;> rfl

/-! ## From asking to building -/

/-- The positions of these channels denote integers: they consist of decimal digits, and not of too
many. -/
def Session.CanCompare (s : Session) (names : List String) : Prop :=
  ∀ name ∈ names, ∀ position, s.cursor.get? name = some position → IsIntegerText position

/-- Among positions that are texts of digits the oldest is found exactly if they can be compared. -/
theorem Session.position_spec {s : Session} (h : s.HasTimetokens) (names : List String) :
    (s.CanCompare names ∧ ∃ text, s.cursor.position names = .ok text)
    ∨ (¬ s.CanCompare names
      ∧ ∃ e, s.cursor.position names = .error e ∧ e.family = "ValueError") := by
  rcases Cursor.position_spec s.cursor names with
    ⟨text, hok, hall⟩ | ⟨e, he, hf, name, hm, position, hg, hn⟩
  · refine Or.inl ⟨?_, text, hok⟩
    intro name hm position hg
    exact (Json.integerOfText_eq_ok_iff (h name position hg)).1 (hall name hm position hg)
  · refine Or.inr ⟨?_, e, he, hf⟩
    intro hcompare
    obtain ⟨n, hn'⟩ := (Json.integerOfText_eq_ok_iff (h name position hg)).2
      (hcompare name hm position hg)
    exact hn n hn'

namespace Client

variable {w : Client Handler} {i : Nat} {s : Session}

/-- An operation that is asked for while its session is free and open goes on to build its
request. -/
theorem run?_ask_of_free (hs : w.sessions[i]? = some s) (hb : s.busy = false)
    (hc : s.closed = false) (operation : Operation) (timeout : Json) (callback : Option Handler) :
    ∃ u, w.run? [.ask i operation timeout callback, .stepInvocation w.invocations.length] = some u
      ∧ u.invocations[w.invocations.length]? = some ⟨i, operation, timeout, callback, .claimed⟩
      ∧ u.sessions = w.sessions.set i { s with busy := true, idle := false }
      ∧ u.calls = w.calls := by
  have hv : (w.ask i operation timeout callback).invocations[w.invocations.length]?
      = some ⟨i, operation, timeout, callback, .asked⟩ := List.getElem?_concat_length
  have hclaim : s.claim = .ok { s with busy := true, idle := false } :=
    (Session.claim_eq_ok_iff s _).2 ⟨hc, hb, rfl⟩
  have hstep : (w.ask i operation timeout callback).stepInvocation? w.invocations.length
      = some (((w.ask i operation timeout callback).setSession i
          { s with busy := true, idle := false }).setInvocation w.invocations.length .claimed) := by
    rw [stepInvocation?_of_asked hv rfl]
    have hs' : (w.ask i operation timeout callback).sessions[i]? = some s := hs
    unfold claimFor?
    dsimp only
    rw [hs', Option.map_some, hclaim]
  refine ⟨((w.ask i operation timeout callback).setSession i
    { s with busy := true, idle := false }).setInvocation w.invocations.length .claimed, ?_, ?_,
    rfl, rfl⟩
  · show ((w.ask i operation timeout callback).stepInvocation? w.invocations.length).bind some = _
    rw [hstep]
    rfl
  · show ((w.ask i operation timeout callback).invocations.modify _ _)[w.invocations.length]? = _
    rw [List.getElem?_modify, hv]
    simp

/-- An operation whose request was built is accepted as a new call. -/
theorem buildFor?_of_eq_ok {k : Nat} {v : Invocation Handler} (hv : w.invocations[k]? = some v)
    (hs : w.sessions[v.session]? = some s) {request : Request} {config : Configuration}
    (hb : Request.build s.profile s.cursor w.fresh w.config v.operation v.timeout
      = (.ok request, config)) :
    ∃ w', w.buildFor? k v = some w'
      ∧ w'.invocationPhase? k = some (.launching w.calls.length) := by
  unfold buildFor?
  rw [hs, Option.map_some, hb]
  exact ⟨_, rfl, invocationPhase?_setInvocation hv _⟩

/-- An operation whose request could not be built ends with the error and gives its session
back. -/
theorem buildFor?_of_eq_error {k : Nat} {v : Invocation Handler} (hv : w.invocations[k]? = some v)
    (hs : w.sessions[v.session]? = some s) {e : Error} {config : Configuration}
    (hb : Request.build s.profile s.cursor w.fresh w.config v.operation v.timeout
      = (.error e, config)) :
    ∃ w', w.buildFor? k v = some w' ∧ w'.invocationPhase? k = some (.ended (.error e))
      ∧ w'.sessions = w.sessions.set v.session (s.release none) := by
  have hphase : ∀ sessions : List Session,
      (({ w with config, sessions } : Client Handler).setInvocation k
        (.ended (.error e))).invocationPhase? k = some (.ended (.error e)) :=
    fun _ => invocationPhase?_setInvocation hv _
  unfold buildFor?
  rw [hs, Option.map_some, hb]
  exact ⟨_, rfl, hphase _, rfl⟩

/-- A session that is claimed and released without a result is what it was, if it was free. -/
theorem set_release (h : Reachable w) (hs : w.sessions[i]? = some s) (hb : s.busy = false) :
    (w.sessions.set i { s with busy := true, idle := false }).set i
      (({ s with busy := true, idle := false } : Session).release none) = w.sessions := by
  have hidle : s.idle = true := by
    rw [h.isSound.idle i s hs, hb]
    rfl
  -- Without a result a release writes the flag and the signal only, and these it was free with.
  have hsame : ({ s with busy := true, idle := false } : Session).release none = s := by
    cases s
    cases hb
    cases hidle
    rfl
  rw [List.set_set, hsame]
  exact set_of_getElem?_eq_some hs

/-- **When a subscription can be built.** In a world that gives genuine outcomes, let a subscription
on valid channels be asked for while its session is free and open, with a timeout that is a number
and not negative. It is accepted as a new call exactly if the positions of its channels consist of
decimal digits, and not of too many. Otherwise it fails for the value of a position, and the
sessions are left as they were, so it fails again whenever it is asked for again. -/
theorem subscription_built_iff (h : ReachableBy Action.IsGenuine w) (hs : w.sessions[i]? = some s)
    (hb : s.busy = false) (hc : s.closed = false) {operation : Operation} {names : List String}
    (hop : operation.SubscribesTo names) (hne : names ≠ [])
    (hnames : ∀ name ∈ names, IsChannelName name) {timeout : Json} {seconds : Binary64}
    (hneg : timeout.isNegative = .ok false) (ht : timeout.toDouble = .ok seconds)
    (callback : Option Handler) :
    ∃ w', w.run? [.ask i operation timeout callback, .stepInvocation w.invocations.length,
        .stepInvocation w.invocations.length] = some w'
      ∧ (w'.invocationPhase? w.invocations.length = some (.launching w.calls.length)
          ↔ s.CanCompare names)
      ∧ (¬ s.CanCompare names →
          ∃ e, w'.invocationPhase? w.invocations.length = some (.ended (.error e))
            ∧ e.family = "ValueError" ∧ w'.sessions = w.sessions) := by
  obtain ⟨u, hu, hv, hsessions, hcalls⟩ := run?_ask_of_free hs hb hc operation timeout callback
  have hs' : u.sessions[i]? = some { s with busy := true, idle := false } := by
    rw [hsessions]
    exact List.getElem?_set_self (List.getElem?_eq_some_iff.1 hs).1
  have hbuild := Request.build_of_subscribesTo hop hne hnames hneg ht s.profile s.cursor u.fresh
    u.config
  have hrun : w.run? [.ask i operation timeout callback, .stepInvocation w.invocations.length,
      .stepInvocation w.invocations.length] = u.buildFor? w.invocations.length
        ⟨i, operation, timeout, callback, .claimed⟩ := by
    rw [← stepInvocation?_of_claimed hv rfl]
    refine (run?_append w [.ask i operation timeout callback, .stepInvocation w.invocations.length]
      [.stepInvocation w.invocations.length]).trans ?_
    rw [hu]
    exact Option.bind_fun_some _
  rw [hrun]
  rcases s.position_spec ((hasTimetokens h).of_getElem? hs) names with
    ⟨hcompare, text, hok⟩ | ⟨hcompare, e, he, hf⟩
  · rw [hok] at hbuild
    obtain ⟨w', hw', hphase⟩ := buildFor?_of_eq_ok hv hs' hbuild
    rw [hcalls] at hphase
    exact ⟨w', hw', ⟨fun _ => hcompare, fun _ => hphase⟩, fun hno => absurd hcompare hno⟩
  · rw [he] at hbuild
    obtain ⟨w', hw', hphase, hreleased⟩ := buildFor?_of_eq_error hv hs' hbuild
    refine ⟨w', hw', ⟨fun hp => ?_, fun hp => absurd hp hcompare⟩, fun _ => ⟨e, hphase, hf, ?_⟩⟩
    · cases hphase.symm.trans hp
    · rw [hreleased, hsessions]
      exact set_release h.reachable hs hb

/-- A subscription to one channel on a new session, answered with this content. -/
def subscribed (content : String) : List (Action Unit) :=
  [.openSession ⟨.null, .null, .null, .str "u", false⟩ "u",
    .ask 0 (.subscribe (.str "a")) (.int 5) none, .stepInvocation 0, .stepInvocation 0,
    .stepInvocation 0, .stepInvocation 0,
    .answerInvocation 0 (.ok (.reply 200 (utf8Bytes content))), .stepInvocation 0,
    .stepInvocation 0]

/-- The client that the subscription was made on, afterwards. -/
def afterSubscription (content : String) : Client Unit :=
  let w := initial (Configuration.initial ⟨[]⟩ none) [] (Frontend.borrowing .blocking)
  (w.run? (subscribed content)).getD w

/-- Another subscription to the same channel, as far as its request is built. -/
def subscribedAgain : List (Action Unit) :=
  [.ask 0 (.subscribe (.str "a")) (.int 5) none, .stepInvocation 1, .stepInvocation 1]

theorem reachableBy_afterSubscription {content : String}
    (h : ((initial (Configuration.initial ⟨[]⟩ none) [] (Frontend.borrowing .blocking)).run?
      (subscribed content)).isSome = true) :
    ReachableBy Action.IsGenuine (afterSubscription content) := by
  obtain ⟨w, hw⟩ := Option.isSome_iff_exists.1 h
  have hgenuine : ∀ action ∈ subscribed content, action.IsGenuine := by
    unfold subscribed
    simp [Action.IsGenuine, Outcome.IsGenuine]
  unfold afterSubscription
  dsimp only
  rw [hw]
  exact ReachableBy.run (.initial _ [] (Frontend.borrowing .blocking)) hgenuine hw

/-- After a timetoken of decimal digits the next subscription is built. -/
theorem subscription_built_iff_decimal :
    ∃ w, (afterSubscription "[[],\"20\"]").run? subscribedAgain = some w
      ∧ w.invocationPhase? 1 = some (.launching 1) := by
  obtain ⟨s, hs⟩ := Option.isSome_iff_exists.1
    (show ((afterSubscription "[[],\"20\"]").sessions[0]?).isSome = true by decide +kernel)
  have hfree : ((afterSubscription "[[],\"20\"]").sessions[0]?).all
      (fun s => !s.busy && !s.closed && s.cursor.get? "a" == some "20") = true := by decide +kernel
  have hlengths : (afterSubscription "[[],\"20\"]").invocations.length = 1
      ∧ (afterSubscription "[[],\"20\"]").calls.length = 1 := by decide +kernel
  rw [hs] at hfree
  simp only [Option.all_some, Bool.and_eq_true, Bool.not_eq_true', beq_iff_eq] at hfree
  obtain ⟨⟨hb, hc⟩, hg⟩ := hfree
  have hname : ∀ name ∈ ["a"], IsChannelName name := by
    intro name hm
    rw [List.mem_singleton.1 hm]
    exact ⟨by decide, by decide⟩
  have ht := Json.toDouble_int (n := 5) (by decide +kernel)
  have hreachable : ReachableBy Action.IsGenuine (afterSubscription "[[],\"20\"]") :=
    reachableBy_afterSubscription (by decide +kernel)
  obtain ⟨w, hw, hiff, -⟩ := subscription_built_iff hreachable hs hb hc (.one "a")
    (List.cons_ne_nil _ _) hname rfl ht none
  rw [hlengths.1] at hw hiff
  rw [hlengths.2] at hiff
  refine ⟨w, hw, hiff.2 ?_⟩
  intro name hm position hp
  rw [List.mem_singleton.1 hm, hg] at hp
  cases hp
  have hdecimal : "20".toList.all (fun c => (decimalValue c).isSome) = true := by decide +kernel
  exact ⟨List.all_eq_true.1 hdecimal, by decide +kernel⟩

/-- **A subscription can be wedged by a timetoken**: after a response that names a superscript two,
which is a digit, the next subscription to the same channel fails while its request is built. -/
theorem subscription_wedged :
    ReachableBy Action.IsGenuine (afterSubscription "[[],\"²\"]")
    ∧ ((afterSubscription "[[],\"²\"]").sessions.map fun s => (s.busy, s.idle, s.closed))
      = [(false, true, false)]
    ∧ ((afterSubscription "[[],\"²\"]").run? subscribedAgain).any
        (fun w => match w.invocationPhase? 1 with
          | some (.ended (.error e)) =>
            e.family == "ValueError" && e.message == "invalid literal for int() with base 10: '²'"
          | _ => false) = true :=
  ⟨reachableBy_afterSubscription (by decide +kernel), by decide +kernel, by decide +kernel⟩

end Client

end Pubsub
