import Mathlib.Data.List.Induction
import Pubsub.Proofs.Promptness
import Pubsub.Proofs.RetryCycle
import Pubsub.Proofs.Subscribing

/-!
# The cursor records the successful subscriptions

The positions of a session are what its successful subscriptions wrote, in the order in which their
replies were fed to the cycles: each writes its timetoken for all channels of its request, over what
was there. Nothing else moves a cursor but an application that clears it. So the cursor can be read
off the successes of the session (`Client.successes`), and no reply that failed, no other operation
and no change of a setting shows in it.

As long as the reactor is running the replies that are fed to cycles are those of calls that are not
settled. When it is told to stop this is lost: a late worker abandons its call at once, but what had
been handed over before is still taken up, and then the reply to an abandoned call moves a position
(`Client.abandoned_call_advances`).
-/

namespace Pubsub

variable {Handler : Type}

/-! ## What a success writes -/

namespace Cursor

/-- The cursor after a success: the channels of a request, and the timetoken that was replied. -/
def write (cursor : Cursor) (success : List String × String) : Cursor :=
  cursor.advance success.1 success.2

/-- The cursor is what the successes wrote one after the other: a channel has a position if one of
them names it, and the position is that of the last one that does. -/
structure Records (cursor : Cursor) (successes : List (List String × String)) : Prop where
  written : cursor = successes.foldl write empty
  named : ∀ {channel : String},
    (cursor.get? channel).isSome ↔ ∃ success ∈ successes, channel ∈ success.1
  latest : ∀ {channel position : String}, cursor.get? channel = some position
    ↔ ∃ before names after, successes = before ++ (names, position) :: after ∧ channel ∈ names
      ∧ ∀ later ∈ after, channel ∉ later.1

/-- Where a list with one more element can be split: at that element, or before. -/
theorem concat_eq_append_cons_iff {α : Type} {xs before after : List α} {x y : α} :
    xs ++ [x] = before ++ y :: after
      ↔ (xs = before ∧ x = y ∧ after = []) ∨ ∃ front, after = front ++ [x]
        ∧ xs = before ++ y :: front := by
  constructor
  · intro h
    rcases List.eq_nil_or_concat' after with rfl | ⟨front, z, rfl⟩
    · obtain ⟨hxs, hlast⟩ := List.append_inj' h rfl
      exact Or.inl ⟨hxs, List.singleton_inj.1 hlast, rfl⟩
    · rw [← List.cons_append, ← List.append_assoc] at h
      obtain ⟨hxs, hlast⟩ := List.append_inj' h rfl
      obtain rfl := List.singleton_inj.1 hlast
      exact Or.inr ⟨front, rfl, hxs⟩
  · rintro (⟨rfl, rfl, rfl⟩ | ⟨front, rfl, rfl⟩)
    · rfl
    · simp

section Written

variable {successes : List (List String × String)} {channel position : String}

/-- A success gives its channels its position, and leaves the others where they are. -/
theorem get?_foldl_concat (success : List String × String) :
    ((successes ++ [success]).foldl write empty).get? channel
      = if channel ∈ success.1 then some success.2
        else (successes.foldl write empty).get? channel := by
  rw [List.foldl_append]
  exact get?_advance _ _ _ _

theorem isSome_get?_foldl : ((successes.foldl write empty).get? channel).isSome
    ↔ ∃ success ∈ successes, channel ∈ success.1 := by
  induction successes using List.reverseRecOn with
  | nil => simp
  | append_singleton successes success ih =>
    rw [get?_foldl_concat]
    split
    · rename_i hnamed
      exact iff_of_true rfl
        ⟨success, List.mem_append_right successes (List.mem_singleton_self success), hnamed⟩
    · rename_i hother
      rw [ih]
      constructor
      · rintro ⟨earlier, hm, hnamed⟩
        exact ⟨earlier, List.mem_append_left _ hm, hnamed⟩
      · rintro ⟨earlier, hm, hnamed⟩
        rcases List.mem_append.1 hm with hm | hm
        · exact ⟨earlier, hm, hnamed⟩
        · rw [List.mem_singleton.1 hm] at hnamed
          exact absurd hnamed hother

/-- **The last writer wins.** -/
theorem get?_foldl : (successes.foldl write empty).get? channel = some position
    ↔ ∃ before names after, successes = before ++ (names, position) :: after ∧ channel ∈ names
      ∧ ∀ later ∈ after, channel ∉ later.1 := by
  induction successes using List.reverseRecOn with
  | nil => simp
  | append_singleton successes success ih =>
    obtain ⟨names, timetoken⟩ := success
    rw [get?_foldl_concat]
    dsimp only
    split
    · rename_i hnamed
      constructor
      · rintro ⟨⟩
        exact ⟨successes, names, [], rfl, hnamed, by rintro later ⟨⟩⟩
      · rintro ⟨before, names', after, hsplit, -, hlater⟩
        -- Were it not the last one, the last one would be among those after it.
        rcases concat_eq_append_cons_iff.1 hsplit with ⟨-, hlast, -⟩ | ⟨front, rfl, -⟩
        · cases hlast
          rfl
        · exact absurd hnamed (hlater _ (List.mem_append_right _ (List.mem_singleton_self _)))
    · rename_i hother
      rw [ih]
      constructor
      · rintro ⟨before, names', after, hsplit, hnamed, hlater⟩
        refine ⟨before, names', after ++ [(names, timetoken)],
          concat_eq_append_cons_iff.2 (Or.inr ⟨after, rfl, hsplit⟩), hnamed, ?_⟩
        intro later hm
        rcases List.mem_append.1 hm with hm | hm
        · exact hlater later hm
        · rw [List.mem_singleton.1 hm]
          exact hother
      · rintro ⟨before, names', after, hsplit, hnamed, hlater⟩
        rcases concat_eq_append_cons_iff.1 hsplit with ⟨-, hlast, -⟩ | ⟨front, rfl, hfront⟩
        · cases hlast
          exact absurd hnamed hother
        · exact ⟨before, names', front, hfront, hnamed,
            fun later hm => hlater later (List.mem_append_left _ hm)⟩

/-- What successes write one after the other is a record of them. -/
theorem records_foldl (successes : List (List String × String)) :
    (successes.foldl write empty).Records successes :=
  ⟨rfl, isSome_get?_foldl, get?_foldl⟩

end Written

end Cursor

/-! ## What a success is -/

/-- What a reply to a request writes into the cursor: the channels of the request and the timetoken
of the result, if the request names channels and the reply is a success. -/
def Request.success? (r : Request) : Outcome → Option (List String × String)
  | .reply status content => do
    let names ← r.query.channels?
    let result ← (r.classify (.reply status content)).toOption
    if result.code = .ok then result.timetoken.map fun timetoken => (names, timetoken) else none
  | .failure _ _ => none

/-- **A success is a reply with an OK result** to a request that names channels. -/
theorem Request.success?_eq_some_iff {r : Request} {outcome : Outcome} {names : List String}
    {timetoken : String} :
    r.success? outcome = some (names, timetoken)
      ↔ ∃ status content result, outcome = .reply status content
        ∧ r.classify outcome = .ok result ∧ result.code = .ok
        ∧ r.query.channels? = some names ∧ result.timetoken = some timetoken := by
  cases outcome with
  | failure code text => simp [success?]
  | reply status content =>
    unfold success?
    dsimp only
    cases hnames : r.query.channels? with
    | none => simp
    | some channels =>
      cases hresult : r.classify (.reply status content) with
      | error e => simp [Except.toOption]
      | ok result =>
        by_cases hok : result.code = .ok
        · simp [Except.toOption, hok, and_comm]
        · simp [Except.toOption, hok]

namespace Cycle

/-- Does the cycle move a cursor exactly if its request is a subscription? -/
def IsRecording (cycle : Cycle) : Prop :=
  cycle.movesCursor = (cycle.request.kind == .subscribe)

variable {cycle : Cycle} {cursor : Cursor} {now : Binary64} {fed : Option Outcome}
  {step : CycleStep}

theorem IsRecording.resume? (h : cycle.IsRecording)
    (hr : cycle.resume? cursor now fed = some step) : step.cycle.IsRecording := by
  rcases resume?_eq_some hr with ⟨-, start, rfl⟩ | ⟨start, outcome, -, -, rfl⟩
  · exact h
  · obtain ⟨⟨state, hstate⟩, -, -⟩ := afterOutcome_spec cycle cursor start now outcome
    rw [hstate]
    exact h

/-- The cursor after a success of the cycle. -/
theorem moveCursor_of_ok (h : cycle.IsRecording) {outcome : Outcome} {result : Result}
    (hg : outcome.IsGenuine) (hr : cycle.request.classify outcome = .ok result)
    (hc : result.code = .ok) :
    cycle.moveCursor cursor result
      = .ok ((cycle.request.success? outcome).toList.foldl Cursor.write cursor) := by
  unfold moveCursor
  rw [h]
  cases hnames : cycle.request.query.channels? with
  | some names =>
    obtain ⟨timetoken, ht, -⟩ := Request.timetoken_classify hnames hg.ne_success hr hc
    cases outcome with
    | reply status content =>
      rw [request_subscribe_of_channels? hnames, ht,
        Request.success?_eq_some_iff.2 ⟨status, content, result, rfl, hr, hc, hnames, ht⟩]
      rfl
    | failure code text =>
      obtain rfl : code = .ok := by
        cases hr
        exact hc
      exact absurd rfl (hg.ne_success text)
  | none =>
    have hnone : cycle.request.success? outcome = none := by
      rw [Option.eq_none_iff_forall_ne_some]
      rintro ⟨names, timetoken⟩ hs
      obtain ⟨-, -, -, -, -, -, hsome, -⟩ := Request.success?_eq_some_iff.1 hs
      rw [hnames] at hsome
      cases hsome
    have hkind : (cycle.request.kind == .subscribe) = false := by
      unfold Request.kind
      cases hquery : cycle.request.query with
      | subscribe channels timetoken timetokens =>
        rw [hquery] at hnames
        cases hnames
      | _ => rfl
    rw [hkind, hnone]
    rfl

/-- **A step writes a success into the cursor, and nothing else.** -/
theorem cursor_eq_foldl (h : cycle.IsRecording) (hg : ∀ outcome, fed = some outcome →
    outcome.IsGenuine) (hr : cycle.resume? cursor now fed = some step) :
    step.cursor = (fed.bind cycle.request.success?).toList.foldl Cursor.write cursor := by
  rcases resume?_eq_some hr with ⟨rfl, start, rfl⟩ | ⟨start, outcome, -, rfl, rfl⟩
  · rfl
  · rw [Option.bind_some]
    -- What is no success writes nothing.
    have hnone : (∀ result, cycle.request.classify outcome = .ok result → result.code ≠ .ok) →
        cycle.request.success? outcome = none := by
      intro hfailed
      rw [Option.eq_none_iff_forall_ne_some]
      rintro ⟨names, timetoken⟩ hs
      obtain ⟨-, -, result, -, hresult, hok, -, -⟩ := Request.success?_eq_some_iff.1 hs
      exact hfailed result hresult hok
    unfold afterOutcome
    cases hresult : cycle.request.classify outcome with
    | error e =>
      rw [hnone (by rw [hresult]; rintro result ⟨⟩)]
      rfl
    | ok result =>
      dsimp only
      by_cases hok : result.code = .ok
      · rw [if_pos hok, moveCursor_of_ok h (hg outcome rfl) hresult hok]
      · rw [if_neg hok, hnone (by rw [hresult]; rintro _ ⟨⟩; exact hok)]
        split
        · rfl
        · split <;> rfl

end Cycle

/-! ## Which cycles write -/

namespace Ledger

/-- The cycles of subscriptions move cursors, and no others do. -/
def IsRecording (l : Ledger Handler) : Prop := ∀ call ∈ l.calls, call.cycle.IsRecording

namespace IsRecording

variable {l l' : Ledger Handler} {c : Nat} {call : Call Handler} {s : Session}

theorem of_callOn? (h : l.IsRecording) (hc : l.callOn? c = some (call, s)) :
    call.cycle.IsRecording :=
  h call (List.mem_of_getElem? (callOn?_eq_some_iff.1 hc).1)

theorem set (h : l.IsRecording) {call' : Call Handler} (hcall : call'.cycle.IsRecording) :
    ∀ other ∈ l.calls.set c call', other.cycle.IsRecording := by
  intro other hm
  rcases List.mem_or_eq_of_mem_set hm with hm | rfl
  · exact h other hm
  · exact hcall

theorem entry {P : Outcome → Prop} (h : l.IsRecording) (he : Entry P l l') : l'.IsRecording := by
  cases he with
  | accepted hs hb request callback =>
    intro call hm
    rcases List.mem_append.1 hm with hm | hm
    · exact h call hm
    · rw [List.mem_singleton.1 hm]
      exact rfl
  | resumed now fed hc hP hr => exact h.set ((h.of_callOn? hc).resume? hr)
  | ended now fed hc hu hP hr ho =>
    rw [settle_setCall]
    exact h.set ((h.of_callOn? hc).resume? hr)
  | abandoned hc hu =>
    have hrecording := h.of_callOn? hc
    exact h.set hrecording
  | _ => exact h

end IsRecording

end Ledger

/-! ## The successes of a session -/

/-- The success that an event is for a session, if it is one: an outcome is fed to the cycle of a
call on that session, and is a success. -/
def CallEvent.success? (calls : List (Call Handler)) (i : Nat) :
    Option (Nat × CallEvent) → Option (List String × String)
  | some (c, .resumed (some outcome)) => do
    let call ← calls[c]?
    if call.session = i then call.request.success? outcome else none
  | _ => none

namespace Relay

variable {clearing : Prop} {r r' : Relay Handler} {event : Option (Nat × CallEvent)} {i a : Nat}

/-- The cursor of a session; a session that was not opened yet will have an empty one. -/
def cursorAt (r : Relay Handler) (i : Nat) : Cursor := (r.cursors[i]?).getD Cursor.empty

/-- **A move writes what the event is a success of**, if no cursor is cleared. -/
theorem Move.cursorAt (hm : Move clearing r event r') (hclear : ¬ clearing)
    (hcalls : ∀ call ∈ r.calls, call.cycle.request = call.request ∧ call.cycle.IsRecording)
    (hg : ∀ c outcome, event = some (c, .resumed (some outcome)) → outcome.IsGenuine) :
    r'.cursorAt i
      = (CallEvent.success? r.calls i event).toList.foldl Cursor.write (r.cursorAt i) := by
  cases hm with
  | cleared h => exact absurd h hclear
  | opened =>
    show ((r.cursors ++ [Cursor.empty])[i]?).getD _ = (r.cursors[i]?).getD _
    rcases Nat.lt_trichotomy i r.cursors.length with hlt | rfl | hgt
    · rw [List.getElem?_append_left hlt]
    · rw [List.getElem?_concat_length, List.getElem?_eq_none (Nat.le_refl _)]
      rfl
    · rw [List.getElem?_eq_none (by simpa using Nat.succ_le_of_lt hgt),
        List.getElem?_eq_none hgt.le]
  | @resumed c call cursor step b settled next rest now fed hb hc hcursor hf hr hn =>
    obtain ⟨hrequest, hrecording⟩ := hcalls call (List.mem_of_getElem? hc)
    have hstep := Cycle.cursor_eq_foldl hrecording
      (fun outcome hfed => hg c outcome (by rw [hfed])) hr
    rw [hrequest] at hstep
    show ((r.cursors.set call.session step.cursor)[i]?).getD _ = _
    by_cases hi : call.session = i
    · subst hi
      have hat : r.cursorAt call.session = cursor := by
        unfold Relay.cursorAt
        rw [hcursor]
        rfl
      have hsuccess : CallEvent.success? r.calls call.session (some (c, .resumed fed))
          = fed.bind call.request.success? := by
        cases fed with
        | none => rfl
        | some outcome =>
          show (r.calls[c]?).bind _ = _
          rw [hc]
          exact if_pos rfl
      rw [List.getElem?_set_self (List.getElem?_eq_some_iff.1 hcursor).1, hsuccess, hat]
      exact hstep
    · have hsuccess : CallEvent.success? r.calls i (some (c, .resumed fed)) = none := by
        cases fed with
        | none => rfl
        | some outcome =>
          show (r.calls[c]?).bind _ = _
          rw [hc]
          exact if_neg hi
      rw [List.getElem?_set_ne hi, hsuccess]
      rfl
  | passed hb hp => cases hp <;> rfl
  | _ => rfl

end Relay

namespace Client

variable {w w' : Client Handler} {i a : Nat} {action : Action Handler}

/-! ## The record of a run -/

/-- The action feeds a reply with an OK result to the cycle of a call of the session; the request of
the call names these channels, and the result has this timetoken. -/
inductive Succeeds (w : Client Handler) (i : Nat) (action : Action Handler) (names : List String)
    (timetoken : String) : Prop where
  | intro {c : Nat} {call : Call Handler} {status : Int} {content : Bytes} {result : Result}
      (event : w.event? action = some (c, .resumed (some (.reply status content))))
      (known : w.calls[c]? = some call) (session : call.session = i)
      (result_eq : call.request.classify (.reply status content) = .ok result)
      (ok : result.code = .ok) (channels : call.request.query.channels? = some names)
      (timetoken_eq : result.timetoken = some timetoken) : Succeeds w i action names timetoken

/-- The success that an action is for a session, if it is one. -/
def successOf (w : Client Handler) (i : Nat) (action : Action Handler) :
    Option (List String × String) :=
  CallEvent.success? w.calls i (w.event? action)

theorem successOf_eq_some_iff {names : List String} {timetoken : String} :
    w.successOf i action = some (names, timetoken) ↔ w.Succeeds i action names timetoken := by
  unfold successOf CallEvent.success?
  constructor
  · intro h
    split at h
    · rename_i c outcome hevent
      obtain ⟨call, hc, h⟩ := Option.bind_eq_some_iff.1 h
      split at h
      · rename_i hi
        obtain ⟨status, content, result, rfl, hclassify, hok, hnames, ht⟩ :=
          Request.success?_eq_some_iff.1 h
        exact ⟨hevent, hc, hi, hclassify, hok, hnames, ht⟩
      · cases h
    · cases h
  · rintro ⟨hevent, hc, hi, hclassify, hok, hnames, ht⟩
    rw [hevent]
    dsimp only
    rw [hc]
    exact (if_pos hi).trans
      (Request.success?_eq_some_iff.2 ⟨_, _, _, rfl, hclassify, hok, hnames, ht⟩)

/-- The successes of a session in a run, oldest first. -/
def successes (w : Client Handler) (i : Nat) : List (Action Handler) → List (List String × String)
  | [] => []
  | action :: rest =>
    (w.successOf i action).toList ++ match w.act? action with
      | some w' => w'.successes i rest
      | none => []

theorem successes_cons (h : w.act? action = some w') (i : Nat) (rest : List (Action Handler)) :
    w.successes i (action :: rest) = (w.successOf i action).toList ++ w'.successes i rest := by
  show _ ++ _ = _
  rw [h]

/-- What a cycle is fed was on its way. -/
theorem isGenuine_of_event? (hf : w.Feeds Outcome.IsGenuine) {c : Nat} {outcome : Outcome}
    (h : w.event? action = some (c, .resumed (some outcome))) : outcome.IsGenuine := by
  have hdrive : ∀ {d : Nat} {drive : Drive}, drive.Feeds Outcome.IsGenuine →
      drive.event? d = some (c, .resumed (some outcome)) → outcome.IsGenuine := by
    intro d drive hfeeds he
    cases drive with
    | resuming fed =>
      cases he
      exact hfeeds
    | _ => cases he
  unfold event? at h
  split at h
  · split at h
    · rename_i d drive hp
      obtain ⟨v, hv, hphase⟩ := Option.map_eq_some_iff.1 hp
      have hfeeds := hf.invocations v (List.mem_of_getElem? hv)
      rw [hphase] at hfeeds
      exact hdrive hfeeds h
    · cases h
  · split at h
    · rename_i d drive ht
      exact hdrive (hf.tasks _ (List.mem_of_getElem? ht)) h
    · cases h
  · have hwork := hf.work
    unfold workEvent? at h
    split at h
    · rename_i d fed hadvancing
      rw [hadvancing] at hwork
      cases h
      exact hwork
    · split at h <;> cases h
    · split at h <;> cases h
    · split at h
      · cases h
      · obtain ⟨attempt, -, he⟩ := Option.map_eq_some_iff.1 h
        cases he
    · cases h
    · split at h
      · -- What beginning a job is told by is never a step of a cycle.
        unfold jobEvent? at h
        split at h
        · split at h <;> cases h
        · obtain ⟨attempt, -, he⟩ := Option.map_eq_some_iff.1 h
          cases he
        · obtain ⟨attempt, -, h⟩ := Option.bind_eq_some_iff.1 h
          obtain ⟨call, -, he⟩ := Option.bind_eq_some_iff.1 h
          cases he
      · cases h
  · cases h

/-- Clearing the cursor of another session leaves the cursor where it is. -/
theorem cursorAt_clearCursor {j : Nat} (hj : j ≠ i) (channels : Option (List String)) :
    (w.clearCursor j channels).relay.cursorAt i = w.relay.cursorAt i := by
  unfold clearCursor
  split
  · show (((w.sessions.set j _).map Session.cursor)[i]?).getD _ = _
    rw [List.map_set, List.getElem?_set_ne hj]
    rfl
  · rfl

/-- **An action writes into the cursor of a session what it is a success of**, unless it clears that
cursor. -/
theorem ReachableBy.cursorAt_act? (hw : ReachableBy Action.IsGenuine w)
    (hclear : ∀ channels, action ≠ .clearCursor i channels) (ha : w.act? action = some w') :
    w'.relay.cursorAt i
      = (w.successOf i action).toList.foldl Cursor.write (w.relay.cursorAt i) := by
  have hrecording : w.ledger.IsRecording :=
    hw.reachable.ledger (by rintro call ⟨⟩) fun h he => h.entry he
  by_cases hany : ∃ j channels, action = .clearCursor j channels
  · obtain ⟨j, channels, rfl⟩ := hany
    obtain rfl := Option.some.inj ha
    refine cursorAt_clearCursor ?_ channels
    rintro rfl
    exact hclear channels rfl
  · exact (hw.reachable.move_act? ha).cursorAt hany
      (fun call hm => ⟨hw.reachable.isRegular.request call hm, hrecording call hm⟩)
      fun c outcome hevent => isGenuine_of_event? (feeds_isGenuine hw) hevent

/-- A run writes its successes one after the other. -/
theorem ReachableBy.cursorAt_run? (hw : ReachableBy Action.IsGenuine w)
    {actions : List (Action Handler)} (hg : ∀ action ∈ actions, action.IsGenuine)
    (hclear : ∀ action ∈ actions, ∀ channels, action ≠ .clearCursor i channels)
    (hr : w.run? actions = some w') :
    w'.relay.cursorAt i = (w.successes i actions).foldl Cursor.write (w.relay.cursorAt i) := by
  induction actions generalizing w with
  | nil =>
    cases hr
    rfl
  | cons action rest ih =>
    rw [run?_cons] at hr
    obtain ⟨v, hv, hr⟩ := Option.bind_eq_some_iff.1 hr
    have hmem := List.mem_cons_self (a := action) (l := rest)
    rw [successes_cons hv, List.foldl_append, ← hw.cursorAt_act? (hclear action hmem) hv]
    exact ih (hw.act action (hg action hmem) hv)
      (fun other hm => hg other (List.mem_cons_of_mem action hm))
      (fun other hm => hclear other (List.mem_cons_of_mem action hm)) hr

theorem cursorAt_of_getElem? {s : Session} (hs : w.sessions[i]? = some s) :
    w.relay.cursorAt i = s.cursor := by
  show (((w.sessions.map Session.cursor))[i]?).getD _ = _
  rw [List.getElem?_map, hs]
  rfl

/-! ## Every run -/

/-- **The cursor of a session records its successful subscriptions**, in every run in which the
world gives genuine outcomes and the application does not clear that cursor. A channel has a
position exactly if a success of the session names it, and the position is the timetoken of the last
one that does. Any further action leaves the positions as they are, or is a success and moves its
channels to its timetoken. No reply is fed to a settled call while the reactor is running; and a
response that a worker hands over when its attempt or its call is settled, or the reactor was told
to stop, is never taken. -/
theorem cursor_records_successes {config : Configuration} {fresh : Bytes}
    {frontend : Frontend Handler} {actions : List (Action Handler)} {s : Session}
    (hg : ∀ action ∈ actions, action.IsGenuine)
    (hclear : ∀ action ∈ actions, ∀ channels, action ≠ .clearCursor i channels)
    (hr : (initial config fresh frontend).run? actions = some w) (hs : w.sessions[i]? = some s) :
    s.cursor.Records ((initial config fresh frontend).successes i actions)
    ∧ (∀ {action : Action Handler} {w' : Client Handler} {s' : Session},
      (∀ channels, action ≠ .clearCursor i channels) → w.act? action = some w' →
      w'.sessions[i]? = some s' → s'.cursor = s.cursor ∨ ∃ names timetoken,
        w.Succeeds i action names timetoken ∧ s'.cursor = s.cursor.advance names timetoken)
    ∧ (∀ {action : Action Handler} {w' : Client Handler} {c : Nat} {status : Int} {content : Bytes},
      w.act? action = some w' →
      w.event? action = some (c, .resumed (some (.reply status content))) →
      w.reactor.stopped = false → w.isSettled c = false)
    ∧ ∀ {a : Nat} {attempt : Attempt} {answer : Except Error Outcome} {w' : Client Handler},
      w.attempts[a]? = some attempt →
      attempt.settled = true ∨ w.isSettled attempt.call = true ∨ w.reactor.stopped = true →
      w.act? (.postAttempt a answer) = some w' →
      ∀ {rest : List (Action Handler)} {u : Client Handler}, w'.run? rest = some u →
        ∀ c outcome, .arrived a outcome ∉ w'.history c rest := by
  have hinitial : ReachableBy Action.IsGenuine (initial config fresh frontend) :=
    .initial config fresh frontend
  have hw : ReachableBy Action.IsGenuine w := hinitial.run hg hr
  refine ⟨?_, ?_, ?_, ?_⟩
  · have hcursor := hinitial.cursorAt_run? hg hclear hr
    rw [cursorAt_of_getElem? hs] at hcursor
    rw [hcursor]
    exact Cursor.records_foldl _
  · intro action w' s' hkeep ha hs'
    have hcursor := hw.cursorAt_act? hkeep ha
    rw [cursorAt_of_getElem? hs, cursorAt_of_getElem? hs'] at hcursor
    cases hsuccess : w.successOf i action with
    | none =>
      rw [hsuccess] at hcursor
      exact Or.inl hcursor
    | some success =>
      rw [hsuccess] at hcursor
      exact Or.inr ⟨success.1, success.2, successOf_eq_some_iff.1 hsuccess, hcursor⟩
  · intro action w' c status content ha hevent hstopped
    cases hc : w.calls[c]? with
    | none =>
      unfold isSettled
      rw [hc]
      rfl
    | some call =>
      rw [isSettled_of_getElem? hc]
      exact hw.reachable.unsettled_of_reply ha hevent hc hstopped
  · intro a attempt answer w' ha hlate hpost rest u hrest c outcome
    have hw' : Reachable w' := hw.reachable.act _ trivial hpost
    exact hw'.not_arrived_of_isLost (hw.reachable.isLost_of_postAttempt? ha hlate hpost) hrest c
      outcome

/-- A subscription to a channel that was answered gives that channel a position and no other. -/
theorem cursor_records_successes_subscribed :
    ∃ (w : Client Unit) (s : Session),
      (initial (Configuration.initial ⟨[]⟩ none) [] (Frontend.borrowing .blocking)).run?
        (subscribed "[[],\"20\"]") = some w
      ∧ w.sessions[0]? = some s
      ∧ s.cursor.get? "a" = some "20" ∧ (s.cursor.get? "b").isSome = false := by
  obtain ⟨w, hrun⟩ := Option.isSome_iff_exists.1
    (show ((initial (Configuration.initial ⟨[]⟩ none) [] (Frontend.borrowing .blocking)).run?
      (subscribed "[[],\"20\"]")).isSome = true by decide +kernel)
  have hopen : ((initial (Configuration.initial ⟨[]⟩ none) [] (Frontend.borrowing .blocking)).run?
      (subscribed "[[],\"20\"]")).any (fun w => w.sessions[0]?.isSome) = true := by decide +kernel
  rw [hrun] at hopen
  obtain ⟨s, hs⟩ := Option.isSome_iff_exists.1 hopen
  have hgenuine : ∀ action ∈ subscribed "[[],\"20\"]", action.IsGenuine := by
    unfold subscribed
    simp [Action.IsGenuine, Outcome.IsGenuine]
  have hkept : ∀ action ∈ subscribed "[[],\"20\"]", ∀ channels,
      action ≠ .clearCursor 0 channels := by
    unfold subscribed
    simp
  have hsuccesses : (initial (Configuration.initial ⟨[]⟩ none) []
      (Frontend.borrowing .blocking)).successes 0 (subscribed "[[],\"20\"]")
      = [(["a"], "20")] := by
    decide +kernel
  obtain ⟨hrecords, -⟩ := cursor_records_successes hgenuine hkept hrun hs
  rw [hsuccesses] at hrecords
  refine ⟨w, s, hrun, hs, ?_, ?_⟩
  · exact hrecords.latest.2 ⟨[], ["a"], [], rfl, List.mem_singleton_self "a", by rintro later ⟨⟩⟩
  · refine Bool.eq_false_iff.2 fun hnamed => ?_
    obtain ⟨success, hm, hb⟩ := hrecords.named.1 hnamed
    rw [List.mem_singleton.1 hm] at hb
    exact absurd hb (by decide)

/-- A subscription on a client with a reactor. Its first attempt takes too long, and so it is made
again. The response to the second attempt is handed over; while the loop takes up what was handed
over the reactor is told to stop, and the worker of the first attempt, which is late, finds it
stopped and abandons the call. -/
def stoppedSubscription : List (Action Unit) :=
  [.openSession ⟨.null, .null, .null, .null, false⟩ "u",
    .ask 0 (.subscribe (.str "a")) (.int 1) none, .stepInvocation 0, .stepInvocation 0,
    .stepInvocation 0, .pollReactor, .stepReactor, .stepReactor, .stepReactor, .stepReactor,
    .stepReactor, .stepReactor, .stepReactor, .tick 2, .stepReactor, .pollReactor, .stepReactor,
    .stepReactor, .stepReactor, .stepReactor, .stepReactor, .stepReactor, .pollReactor,
    .stepReactor, .stepReactor, .stepReactor, .tick 4, .stepReactor, .pollReactor, .stepReactor,
    .stepReactor, .stepReactor, .stepReactor, .stepReactor, .stepReactor, .stepReactor,
    .postAttempt 1 (.ok (.reply 200 (utf8Bytes "[[],\"20\"]"))), .pollReactor, .stepReactor,
    .stopReactor, .postAttempt 0 (.ok (.reply 200 (utf8Bytes "[[],\"10\"]")))]

/-- **The reply to an abandoned call can move a position.** The call is settled, and its session has
no result; but the reply that was handed over before the reactor was told to stop is fed to the
cycle of the call all the same, and gives the channel a position. -/
theorem abandoned_call_advances :
    ∃ (w w' : Client Unit) (s s' : Session), ReachableBy Action.IsGenuine w
      ∧ w.isSettled 0 = true ∧ w.sessions[0]? = some s ∧ s.busy = false
      ∧ (s.cursor.get? "a").isSome = false
      ∧ w.run? [.stepReactor, .stepReactor, .stepReactor] = some w'
      ∧ w'.sessions[0]? = some s' ∧ s'.cursor.get? "a" = some "20"
      ∧ s'.lastResult.isSome = false := by
  have hfacts : ((initial (Configuration.initial ⟨[]⟩ none) [] (Frontend.borrowing .reactor)).run?
      stoppedSubscription).any (fun w =>
        w.isSettled 0
          && (w.sessions[0]?).any (fun s => !s.busy && !(s.cursor.get? "a").isSome)
          && (w.run? [.stepReactor, .stepReactor, .stepReactor]).any fun w' =>
            (w'.sessions[0]?).any fun s' => s'.cursor.get? "a" == some "20"
              && !s'.lastResult.isSome) = true := by
    decide +kernel
  have hgenuine : ∀ action ∈ stoppedSubscription, action.IsGenuine := by
    unfold stoppedSubscription
    simp [Action.IsGenuine, Outcome.IsGenuine]
  obtain ⟨w, hrun, hfacts⟩ := (Option.any_eq_true _ _).1 hfacts
  simp only [Option.any_eq_true, Bool.and_eq_true, beq_iff_eq, Bool.not_eq_true'] at hfacts
  obtain ⟨⟨hu, s, hs, hfree, hnone⟩, w', hw', s', hs', hposition, hlast⟩ := hfacts
  exact ⟨w, w', s, s', .run (.initial _ [] (Frontend.borrowing .reactor)) hgenuine hrun, hu, hs,
    hfree, hnone, hw', hs', hposition, hlast⟩

end Client

end Pubsub
