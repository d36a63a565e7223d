import Mathlib.Data.List.Induction
import Pubsub.Proofs.Soundness

/-!
# The course of a call on a reactor

On a reactor the events of a call follow each other in a fixed order. The call is started, its cycle
is resumed, and then either an attempt is made or a wait begins. The attempt is given to the pool,
and its response arrives or its time is over, whichever comes first; the timer of the wait goes off.
Then the cycle is resumed again, with what the attempt came to or with nothing. A call may stop
anywhere on this **course**, when it is settled, but it never leaves it.

So each attempt feeds its call at most once, and only what the latest attempt came to is fed. A
response that comes after the time of its attempt was over finds the attempt settled, and changes
nothing that an application can see.
-/

namespace Pubsub

variable {Handler : Type}

/-! ## Courses -/

/-- Where a call stands on its course. -/
inductive Stage where
  /-- Nothing has happened to it. -/
  | new
  /-- Its cycle is to be resumed with this. -/
  | ready (fed : Option Outcome)
  /-- Its cycle was resumed, and wants something. -/
  | due
  /-- An attempt was made; was it given to the pool? -/
  | waiting (attempt : Nat) (sent : Bool)
  /-- It waits for a timer. -/
  | asleep (timer : Nat)
deriving Inhabited

/-- What an event makes of a stage. -/
inductive Stage.Next : Stage → CallEvent → Stage → Prop where
  | started : Next new .started (ready none)
  | resumed {fed : Option Outcome} : Next (ready fed) (.resumed fed) due
  | attempted {a : Nat} : Next due (.attempted a) (waiting a false)
  | submitted {a : Nat} : Next (waiting a false) (.submitted a) (waiting a true)
  | arrived {a : Nat} {sent : Bool} {outcome : Outcome} :
      Next (waiting a sent) (.arrived a outcome) (ready (some outcome))
  | expired {a : Nat} {sent : Bool} {outcome : Outcome} :
      Next (waiting a sent) (.expired a outcome) (ready (some outcome))
  | slept {n : Nat} : Next due (.slept n) (asleep n)
  | woken {n : Nat} : Next (asleep n) (.woken n) (ready none)

/-- The events that bring a call to a stage. -/
inductive Course : List CallEvent → Stage → Prop where
  | nil : Course [] .new
  | concat {events : List CallEvent} {event : CallEvent} {stage stage' : Stage}
      (h : Course events stage) (hn : stage.Next event stage') : Course (events ++ [event]) stage'

namespace Course

variable {events before after : List CallEvent} {event : CallEvent} {stage : Stage}

/-- The last event of a course led on from a stage. -/
theorem of_concat (h : Course (events ++ [event]) stage) :
    ∃ earlier, Course events earlier ∧ earlier.Next event stage := by
  generalize he : events ++ [event] = all at h
  cases h with
  | nil => exact absurd he (by simp)
  | concat hc hn =>
    obtain ⟨rfl, hevent⟩ := List.append_inj' he rfl
    obtain rfl := List.singleton_inj.1 hevent
    exact ⟨_, hc, hn⟩

/-- What begins a course is a course. -/
theorem of_append (h : Course (before ++ after) stage) : ∃ earlier, Course before earlier := by
  induction after using List.reverseRecOn generalizing stage with
  | nil =>
    rw [List.append_nil] at h
    exact ⟨stage, h⟩
  | append_singleton after event ih =>
    rw [← List.append_assoc] at h
    obtain ⟨earlier, hc, -⟩ := h.of_concat
    exact ih hc

/-- Every event of a course led on from the stage that those before it led to. -/
theorem of_mid (h : Course (before ++ event :: after) stage) :
    ∃ earlier later, Course before earlier ∧ earlier.Next event later
      ∧ Course (before ++ [event]) later := by
  have hsplit : before ++ event :: after = (before ++ [event]) ++ after := by simp
  rw [hsplit] at h
  obtain ⟨later, hc⟩ := h.of_append
  obtain ⟨earlier, hc', hn⟩ := hc.of_concat
  exact ⟨earlier, later, hc', hn, hc⟩

/-- A course that leads anywhere but to its beginning ends with an event that leads there. -/
theorem exists_last (h : Course events stage) (hs : stage ≠ .new) :
    ∃ before event earlier, events = before ++ [event] ∧ Course before earlier
      ∧ earlier.Next event stage := by
  cases h with
  | nil => exact absurd rfl hs
  | concat hc hn => exact ⟨_, _, _, rfl, hc, hn⟩

theorem eq_new (h : Course [] stage) : stage = .new := by
  generalize he : [] = events at h
  cases h with
  | nil => rfl
  | concat hc hn => exact absurd he (by simp)

/-- Nothing has happened to a call that is new. -/
theorem eq_nil (h : Course events .new) : events = [] := by
  cases h with
  | nil => rfl
  | concat hc hn => cases hn

/-- An attempt is waited for right after it was made, and perhaps given to the pool. -/
theorem of_waiting {a : Nat} {sent : Bool} (h : Course events (.waiting a sent)) :
    ∃ first, events = first ++ .attempted a :: if sent then [.submitted a] else [] := by
  obtain ⟨before, event, earlier, rfl, hc, hn⟩ := h.exists_last (by rintro ⟨⟩)
  cases hn with
  | attempted => exact ⟨before, rfl⟩
  | submitted =>
    obtain ⟨before', event', earlier', rfl, -, hn'⟩ := hc.exists_last (by rintro ⟨⟩)
    cases hn'
    exact ⟨before', List.append_assoc _ _ _⟩

/-- A call is ready with an outcome right after the attempt that it waited for came to it. -/
theorem of_ready_some {outcome : Outcome} (h : Course events (.ready (some outcome))) :
    ∃ first a, ∃ sent : Bool, ∃ answer,
      events = first ++ .attempted a :: (if sent then [.submitted a] else []) ++ [answer]
      ∧ (answer = .arrived a outcome ∨ answer = .expired a outcome) := by
  obtain ⟨before, event, earlier, rfl, hc, hn⟩ := h.exists_last (by rintro ⟨⟩)
  cases hn with
  | arrived =>
    obtain ⟨first, rfl⟩ := hc.of_waiting
    exact ⟨first, _, _, _, rfl, Or.inl rfl⟩
  | expired =>
    obtain ⟨first, rfl⟩ := hc.of_waiting
    exact ⟨first, _, _, _, rfl, Or.inr rfl⟩

/-- A call is ready with nothing right after it was started, or after the timer that it waited for
went off. -/
theorem of_ready_none (h : Course events (.ready none)) :
    events = [.started] ∨ ∃ first n, events = first ++ [.slept n, .woken n] := by
  obtain ⟨before, event, earlier, rfl, hc, hn⟩ := h.exists_last (by rintro ⟨⟩)
  cases hn with
  | started =>
    rw [hc.eq_nil]
    exact Or.inl rfl
  | woken =>
    obtain ⟨first, event, earlier, rfl, -, hn⟩ := hc.exists_last (by rintro ⟨⟩)
    cases hn
    exact Or.inr ⟨first, _, List.append_assoc _ _ _⟩

end Course

/-! ## Every call follows its course -/

namespace Baton

/-- Where the holder of a baton on a reactor expects the call on its course. An attempt that is
about to be given to the pool was not given to it before. -/
def IsAt (submitting : Option Nat) : Baton → Stage → Prop
  | launching, stage => stage = .new
  | queued, stage => stage = .new
  | advancing fed, stage => stage = .ready fed
  | arming, stage => stage = .due
  | pausing, stage => stage = .due
  | awaiting a, stage => ∃ sent, stage = .waiting a sent ∧ (submitting = some a → sent = false)
  | timed n, stage => stage = .asleep n
  | _, _ => True

/-- What happens to a call leads it on to where the next holder of its baton expects it. -/
def LeadsOn (submitting submitting' : Option Nat) (b : Baton) (event : Option CallEvent)
    (next : Option Baton) : Prop :=
  ∀ stage, b.IsAt submitting stage → ∃ stage',
    (match event with
      | some event => stage.Next event stage'
      | none => stage' = stage)
    ∧ ∀ b', next = some b' → b'.IsAt submitting' stage'

/-- Handing a baton on leads the call on, on a reactor. -/
theorem Passes.leadsOn {b b' : Baton} {event : Option CallEvent} {call : Call Handler}
    (h : b.Passes .reactor event b') (hb : b.Fits .reactor call) (submitting : Option Nat) :
    b.LeadsOn submitting submitting event (some b') := by
  intro stage hstage
  cases h with
  | driving hk => cases hk
  | enlisting hk => cases hk
  | queueing => exact ⟨stage, rfl, by rintro _ ⟨⟩; exact hstage⟩
  | refused => exact ⟨stage, rfl, by rintro _ ⟨⟩; trivial⟩
  | started =>
    obtain rfl : stage = .new := hstage
    exact ⟨_, .started, by rintro _ ⟨⟩; rfl⟩
  | woken =>
    obtain rfl : stage = .asleep _ := hstage
    exact ⟨_, .woken, by rintro _ ⟨⟩; rfl⟩
  | begun => exact absurd rfl hb.1
  | cancelled => exact absurd rfl hb.1
  | answered => exact absurd rfl hb.1
  | rested => exact absurd rfl hb.1
  | broken => exact absurd rfl hb.1
  | returned => exact absurd rfl hb.1
  | raised => exact absurd rfl hb.1
  | escaped => exact absurd rfl hb.1

/-- So does resuming its cycle. -/
theorem Continues.leadsOn {b : Baton} {effect : Effect} {before settled : Bool}
    {next : Option Baton} {fed : Option Outcome} {call : Call Handler}
    (h : b.Continues effect before settled next) (hf : b.Resumes fed) (hb : b.Fits .reactor call)
    (submitting : Option Nat) : b.LeadsOn submitting submitting (some (.resumed fed)) next := by
  intro stage hstage
  cases hf with
  | driven => exact absurd rfl hb.1
  | advancing =>
    obtain rfl : stage = .ready fed := hstage
    refine ⟨.due, .resumed, ?_⟩
    cases h with
    | arming =>
      rintro _ ⟨⟩
      rfl
    | pausing =>
      rintro _ ⟨⟩
      rfl
    | ended => rintro _ ⟨⟩

end Baton

namespace Relay

variable {clearing : Prop} {r r' : Relay Handler} {c d : Nat} {events : List CallEvent}
  {stage : Stage} {b : Baton} {next : Option Baton} {rest : Multiset (Nat × Baton)}

/-- Nobody awaits again what a call was answered already, or waits for a timer that went off. -/
structure Remembers (r : Relay Handler) (c : Nat) (events : List CallEvent) : Prop where
  answered : ∀ {a : Nat}, a ∈ events.filterMap CallEvent.answered? →
    a < r.alarms.length ∧ ∀ d, (d, .awaiting a) ∉ r.batons
  woken : ∀ {n : Nat}, n ∈ events.filterMap CallEvent.woken? →
    n < r.created ∧ (c, .timed n) ∉ r.batons
  answeredOnce : (events.filterMap CallEvent.answered?).Nodup
  wokenOnce : (events.filterMap CallEvent.woken?).Nodup

/-- What has happened to a call so far is its course, and whoever holds its baton is where the
course has led. -/
structure Follows (r : Relay Handler) (c : Nat) (events : List CallEvent) (stage : Stage) :
    Prop where
  course : Course events stage
  unmade : r.calls.length ≤ c → events = []
  holder : ∀ {b : Baton}, (c, b) ∈ r.batons → b.IsAt r.submitting stage
  memory : r.Remembers c events

namespace Remembers

/-- New attempts and timers have new numbers. -/
theorem mono (h : r.Remembers c events)
    (ha : ∀ d a, a < r.alarms.length → (d, .awaiting a) ∈ r'.batons → (d, .awaiting a) ∈ r.batons)
    (ht : ∀ n, n < r.created → (c, .timed n) ∈ r'.batons → (c, .timed n) ∈ r.batons)
    (halarms : r.alarms.length ≤ r'.alarms.length) (hcreated : r.created ≤ r'.created) :
    r'.Remembers c events := by
  refine ⟨?_, ?_, h.answeredOnce, h.wokenOnce⟩
  · intro a hm
    obtain ⟨hlt, hd⟩ := h.answered hm
    exact ⟨hlt.trans_le halarms, fun d hda => hd d (ha d a hlt hda)⟩
  · intro n hm
    obtain ⟨hlt, hn⟩ := h.woken hm
    exact ⟨hlt.trans_le hcreated, fun hcn => hn (ht n hlt hcn)⟩

/-- One more is remembered, which was not answered before. -/
theorem concat (h : r.Remembers c events) (h' : r'.Remembers c events) (event : CallEvent)
    (ha : ∀ a, event.answered? = some a → (∃ d, (d, .awaiting a) ∈ r.batons)
      ∧ a < r'.alarms.length ∧ ∀ d, (d, .awaiting a) ∉ r'.batons)
    (ht : ∀ n, event.woken? = some n → (c, .timed n) ∈ r.batons
      ∧ n < r'.created ∧ (c, .timed n) ∉ r'.batons) :
    r'.Remembers c (events ++ [event]) := by
  have hanswered : [event].filterMap CallEvent.answered? = event.answered?.toList := by
    rw [List.filterMap_cons]
    cases event.answered? <;> rfl
  have hwoken : [event].filterMap CallEvent.woken? = event.woken?.toList := by
    rw [List.filterMap_cons]
    cases event.woken? <;> rfl
  refine ⟨?_, ?_, ?_, ?_⟩
  · intro a hm
    rw [List.filterMap_append, hanswered] at hm
    rcases List.mem_append.1 hm with hm | hm
    · exact h'.answered hm
    · exact (ha a (Option.mem_toList.1 hm)).2
  · intro n hm
    rw [List.filterMap_append, hwoken] at hm
    rcases List.mem_append.1 hm with hm | hm
    · exact h'.woken hm
    · exact (ht n (Option.mem_toList.1 hm)).2
  · rw [List.filterMap_append, hanswered]
    refine List.nodup_append.2 ⟨h.answeredOnce, by cases event.answered? <;> simp, ?_⟩
    rintro a hm _ hm' rfl
    obtain ⟨⟨d, hd⟩, -⟩ := ha a (Option.mem_toList.1 hm')
    exact (h.answered hm).2 d hd
  · rw [List.filterMap_append, hwoken]
    refine List.nodup_append.2 ⟨h.wokenOnce, by cases event.woken? <;> simp, ?_⟩
    rintro n hm _ hm' rfl
    exact (h.woken hm).2 (ht n (Option.mem_toList.1 hm')).1

end Remembers

namespace Follows

/-- Nothing has happened to a call before the first action. -/
theorem initial (hb : r.batons = 0) : Follows r c [] .new := by
  refine ⟨.nil, fun _ => rfl, ?_, ⟨?_, ?_, List.nodup_nil, List.nodup_nil⟩⟩
  · intro b hm
    rw [hb] at hm
    exact absurd hm (Multiset.notMem_zero _)
  · rintro a ⟨⟩
  · rintro n ⟨⟩

/-- A move that leaves all batons where they are. -/
theorem same (h : Follows r c events stage) (hb : r'.batons = r.batons)
    (hs : ∀ a, r'.submitting = some a → r.submitting = some a)
    (hcalls : r'.calls.length = r.calls.length) (halarms : r'.alarms = r.alarms)
    (hcreated : r'.created = r.created) : Follows r' c events stage := by
  refine ⟨h.course, fun hc => h.unmade (hcalls ▸ hc), ?_, ?_⟩
  · intro b hm
    rw [hb] at hm
    have hstage := h.holder hm
    cases b with
    | awaiting a =>
      obtain ⟨sent, rfl, hsent⟩ := hstage
      exact ⟨sent, rfl, fun ha => hsent (hs a ha)⟩
    | _ => exact hstage
  · refine h.memory.mono ?_ ?_ (halarms ▸ le_refl _) (hcreated ▸ le_refl _)
    · intro d a _ hm
      exact hb ▸ hm
    · intro n _ hm
      exact hb ▸ hm

/-- A move that passes the baton of one call on. -/
theorem replace (h : Follows r c events stage) (hs : r.IsSound)
    (hb : r.batons = {(d, b)} + rest) (next : Option Baton) (event : Option CallEvent)
    (hb' : r'.batons = Baton.held d next + rest)
    (hcalls : r'.calls.length = r.calls.length) (halarms : r.alarms.length ≤ r'.alarms.length)
    (hcreated : r.created ≤ r'.created)
    (hawaiting : ∀ a, next = some (.awaiting a) → r.alarms.length ≤ a)
    (htimed : ∀ n, next = some (.timed n) → r.created ≤ n)
    (hsubmitting : ∀ a, a < r.alarms.length → r'.submitting = some a → r.submitting = some a)
    (hlead : b.LeadsOn r.submitting r'.submitting event next)
    (hanswered : ∀ e a, event = some e → e.answered? = some a →
      b = .awaiting a ∧ ∀ x, (x, .awaiting a) ∉ r'.batons)
    (hwoken : ∀ e n, event = some e → e.woken? = some n → b = .timed n) :
    ∃ stage', Follows r' c (events ++ CallEvent.ofCall c (event.map fun e => (d, e))) stage' := by
  obtain ⟨hcarried, hawaited, htiming⟩ := hs.take hb
  have hself : (d, b) ∈ r.batons :=
    hb ▸ Multiset.mem_add.2 (Or.inl (Multiset.mem_singleton_self _))
  have hkept : ∀ {e x}, (e, x) ∈ rest → (e, x) ∈ r.batons :=
    fun hx => hb ▸ Multiset.mem_add.2 (Or.inr hx)
  have hmem : ∀ {e x}, (e, x) ∈ r'.batons → (e = d ∧ next = some x) ∨ (e ≠ d ∧ (e, x) ∈ rest) := by
    intro e x hx
    rw [hb'] at hx
    rcases Multiset.mem_add.1 hx with hx | hx
    · exact Or.inl (Baton.mem_held.1 hx)
    · exact Or.inr ⟨hcarried.ne_of_mem hx, hx⟩
  have hmemory : r'.Remembers c events := by
    refine h.memory.mono ?_ ?_ halarms hcreated
    · intro e a hlt hx
      rcases hmem hx with ⟨-, hnext⟩ | ⟨-, hx⟩
      · exact absurd (hawaiting a hnext) (Nat.not_le_of_lt hlt)
      · exact hkept hx
    · intro n hlt hx
      rcases hmem hx with ⟨-, hnext⟩ | ⟨-, hx⟩
      · exact absurd (htimed n hnext) (Nat.not_le_of_lt hlt)
      · exact hkept hx
  by_cases hdc : d = c
  · subst hdc
    obtain ⟨stage', hnext, hat⟩ := hlead stage (h.holder hself)
    have hholder : ∀ {x : Baton}, (d, x) ∈ r'.batons → x.IsAt r'.submitting stage' := by
      intro x hx
      rcases hmem hx with ⟨-, hx⟩ | ⟨hne, -⟩
      · exact hat x hx
      · exact absurd rfl hne
    obtain ⟨call, hcall, -⟩ := hs.exists_fits hb
    have hmade : ¬ r'.calls.length ≤ d := by
      rw [hcalls]
      exact Nat.not_le_of_lt (List.getElem?_eq_some_iff.1 hcall).1
    refine ⟨stage', ?_⟩
    cases event with
    | none =>
      obtain rfl : stage' = stage := hnext
      rw [Option.map_none, CallEvent.ofCall, List.append_nil]
      exact ⟨h.course, fun hc => absurd hc hmade, hholder, hmemory⟩
    | some e =>
      rw [Option.map_some, CallEvent.ofCall, if_pos rfl]
      refine ⟨h.course.concat hnext, fun hc => absurd hc hmade, hholder,
        h.memory.concat hmemory e ?_ ?_⟩
      · intro a ha
        obtain ⟨rfl, hnobody⟩ := hanswered e a rfl ha
        exact ⟨⟨d, hself⟩, (hs.awaited.known hself).trans_le halarms, hnobody⟩
      · intro n hn
        obtain rfl := hwoken e n rfl hn
        have hlt := (hs.timed.wait hself).1
        refine ⟨hself, hlt.trans_le hcreated, ?_⟩
        intro hx
        rcases hmem hx with ⟨-, hnext⟩ | ⟨hne, -⟩
        · exact absurd (htimed n hnext) (Nat.not_le_of_lt hlt)
        · exact hne rfl
  · have hnothing : CallEvent.ofCall c (event.map fun e => (d, e)) = [] := by
      cases event with
      | none => rfl
      | some e => exact if_neg hdc
    rw [hnothing, List.append_nil]
    refine ⟨stage, h.course, fun hc => h.unmade (hcalls ▸ hc), ?_, hmemory⟩
    intro x hx
    rcases hmem hx with ⟨hcd, -⟩ | ⟨-, hx⟩
    · exact absurd hcd.symm hdc
    · have hstage := h.holder (hkept hx)
      cases x with
      | awaiting a =>
        obtain ⟨sent, rfl, hsent⟩ := hstage
        exact ⟨sent, rfl, fun ha => hsent (hsubmitting a (hs.awaited.known (hkept hx)) ha)⟩
      | _ => exact hstage

/-- A new call. If it is this one, then nothing has happened to it yet. -/
theorem accept (h : Follows r c events stage) (call : Call Handler) :
    Follows { r with
      calls := r.calls ++ [call]
      batons := {(r.calls.length, .launching)} + r.batons } c events stage := by
  refine ⟨h.course, ?_, ?_, ?_⟩
  · intro hc
    rw [List.length_append, List.length_singleton] at hc
    exact h.unmade (Nat.le_of_succ_le hc)
  · intro x hx
    rcases Multiset.mem_add.1 hx with hx | hx
    · obtain ⟨rfl, rfl⟩ := Prod.mk.inj (Multiset.mem_singleton.1 hx)
      have hcourse := h.course
      rw [h.unmade (le_refl _)] at hcourse
      exact hcourse.eq_new
    · exact h.holder hx
  · refine h.memory.mono ?_ ?_ (le_refl _) (le_refl _)
    · intro d a _ hx
      exact mem_of_ne (by rintro ⟨⟩) hx
    · intro n _ hx
      exact mem_of_ne (by rintro ⟨⟩) hx

/-- An attempt of this call is given to the pool. -/
theorem submit (h : Follows r c events stage) (hs : r.IsSound) {a : Nat}
    (ha : r.submitting = some a) (hb : (c, .awaiting a) ∈ r.batons) :
    Follows { r with submitting := none } c (events ++ [.submitted a]) (.waiting a true) := by
  obtain ⟨sent, rfl, hsent⟩ := h.holder hb
  obtain rfl := hsent ha
  obtain ⟨call, hcall, -⟩ := hs.carried.fits hb
  have hmemory := h.memory.concat h.memory (.submitted a) (by rintro a ⟨⟩) (by rintro n ⟨⟩)
  refine ⟨h.course.concat .submitted, ?_, ?_, ⟨hmemory.answered, hmemory.woken,
    hmemory.answeredOnce, hmemory.wokenOnce⟩⟩
  · intro hc
    exact absurd hc (Nat.not_le_of_lt (List.getElem?_eq_some_iff.1 hcall).1)
  · intro x hx
    rw [hs.carried.eq_of_mem hx hb]
    exact ⟨true, rfl, by rintro ⟨⟩⟩

/-- **Every move leads every call on along its course.** -/
theorem move (h : Follows r c events stage) (hs : r.IsSound) (hk : r.kind = .reactor)
    {event : Option (Nat × CallEvent)} (hm : Move clearing r event r') :
    ∃ stage', Follows r' c (events ++ CallEvent.ofCall c event) stage' := by
  have hnothing : events ++ CallEvent.ofCall c none = events := List.append_nil events
  cases hm with
  | still stopped closed _ _ =>
    rw [hnothing]
    exact ⟨stage, h.same rfl (fun _ => id) rfl rfl rfl⟩
  | opened =>
    rw [hnothing]
    exact ⟨stage, h.same rfl (fun _ => id) rfl rfl rfl⟩
  | cleared _ cursors =>
    rw [hnothing]
    exact ⟨stage, h.same rfl (fun _ => id) rfl rfl rfl⟩
  | refused hs ho hu hc =>
    rw [hnothing]
    exact ⟨stage, h.same rfl (fun _ => id) List.length_set rfl rfl⟩
  | declined hclosed ha hb ho hu hc =>
    rw [hnothing]
    exact ⟨stage, h.same rfl (by rintro _ ⟨⟩) List.length_set rfl rfl⟩
  | dropped ho hu =>
    rw [hnothing]
    exact ⟨stage, h.same rfl (fun _ => id) rfl rfl rfl⟩
  | accepted hi request policy callback =>
    rw [hnothing]
    exact ⟨stage, h.accept _⟩
  | @passed d b b' event rest hb hp =>
    obtain ⟨call, -, hfits⟩ := hs.exists_fits hb
    rw [hk] at hp hfits
    obtain ⟨-, hafter, htimer⟩ := hp.isAwaiting
    refine h.replace hs hb (some b') _ (by rfl) (by rfl) (by rfl) (by rfl) ?_ ?_
      (by exact fun _ _ => id)
      (by exact hp.leadsOn hfits r.submitting) ?_ ?_
    · rintro a ⟨⟩
      cases hafter
    · rintro n ⟨⟩
      cases htimer
    · rintro e a rfl ha
      cases hp <;> cases ha
    · rintro e n rfl hn
      cases hp <;> cases hn
      rfl
  | left hb =>
    obtain ⟨call, -, hfits⟩ := hs.exists_fits hb
    exact absurd hk hfits.1
  | @abandoned d call b next rest hb hc hn =>
    obtain ⟨-, hafter⟩ := hn.isAwaiting
    refine h.replace hs hb next none (by rfl) (by simp [settle]) (by rfl) (by rfl) ?_ ?_
      (by exact fun _ _ => id) ?_ (by rintro e a ⟨⟩) (by rintro e n ⟨⟩)
    · rintro a rfl
      cases (hafter _ rfl).1
    · rintro n rfl
      cases (hafter _ rfl).2.1
    · intro stage hstage
      refine ⟨stage, rfl, ?_⟩
      cases hn with
      | failing =>
        rintro _ ⟨⟩
        trivial
      | _ => rintro _ ⟨⟩
  | @resumed d call cursor step b settled next rest now fed hb hc hcursor hf hr hn =>
    obtain ⟨call', -, hfits⟩ := hs.exists_fits hb
    rw [hk] at hfits
    obtain ⟨-, hafter⟩ := hn.isAwaiting
    refine h.replace hs hb next (some (.resumed fed)) (by rfl) (by simp [after]) (by rfl)
      (by rfl) ?_ ?_ (by exact fun _ _ => id) (by exact hn.leadsOn hf hfits r.submitting)
      (by rintro e a ⟨⟩ ⟨⟩) (by rintro e n ⟨⟩ ⟨⟩)
    · rintro a rfl
      cases (hafter _ rfl).1
    · rintro n rfl
      cases (hafter _ rfl).2
  | @slept d rest hb =>
    refine h.replace hs hb (some (.timed r.created)) (some (.slept r.created))
      (by rfl) (by rfl) (by rfl) (by simp) (by rintro a ⟨⟩) (by rintro n ⟨⟩; exact le_refl _)
      (by exact fun _ _ => id) ?_ (by rintro e a ⟨⟩ ⟨⟩) (by rintro e n ⟨⟩ ⟨⟩)
    intro stage hstage
    obtain rfl : stage = .due := hstage
    exact ⟨_, .slept, by rintro _ ⟨⟩; rfl⟩
  | @attempted d rest hi hb =>
    refine h.replace hs hb (some (.awaiting r.alarms.length))
      (some (.attempted r.alarms.length)) (by rfl) (by rfl) (by simp) (by simp)
      (by rintro a ⟨⟩; exact le_refl _) (by rintro n ⟨⟩) ?_ ?_ (by rintro e a ⟨⟩ ⟨⟩)
      (by rintro e n ⟨⟩ ⟨⟩)
    · rintro a hlt ⟨⟩
      exact absurd hlt (Nat.lt_irrefl _)
    · intro stage hstage
      obtain rfl : stage = .due := hstage
      exact ⟨_, .attempted, by rintro _ ⟨⟩; exact ⟨false, rfl, fun _ => rfl⟩⟩
  | @submitted d a hopen ha hb =>
    by_cases hdc : d = c
    · subst hdc
      rw [CallEvent.ofCall, if_pos rfl]
      exact ⟨.waiting a true, h.submit hs ha hb⟩
    · rw [CallEvent.ofCall, if_neg hdc, List.append_nil]
      exact ⟨stage, h.same rfl (by rintro _ ⟨⟩) rfl rfl rfl⟩
  | @arrived d a timer outcome rest others hi hb ho hu ht =>
    refine h.replace hs hb (some (.advancing (some outcome)))
      (some (.arrived a outcome)) (by rfl) (by rfl) (by rfl) (by rfl) (by rintro a ⟨⟩)
      (by rintro n ⟨⟩) (by exact fun _ _ => id) ?_ ?_ (by rintro e n ⟨⟩ ⟨⟩)
    · intro stage hstage
      obtain ⟨sent, rfl, -⟩ := hstage
      exact ⟨_, .arrived, by rintro _ ⟨⟩; rfl⟩
    · rintro e x ⟨⟩ ⟨⟩
      exact ⟨rfl, fun x hx => ho x (mem_of_ne (by rintro ⟨⟩) hx)⟩
  | @expired d a outcome rest hi hb ho _ =>
    refine h.replace hs hb (some (.advancing (some outcome)))
      (some (.expired a outcome)) (by rfl) (by rfl) (by rfl) (by rfl) (by rintro a ⟨⟩)
      (by rintro n ⟨⟩) (by exact fun _ _ => id) ?_ ?_ (by rintro e n ⟨⟩ ⟨⟩)
    · intro stage hstage
      obtain ⟨sent, rfl, -⟩ := hstage
      exact ⟨_, .expired, by rintro _ ⟨⟩; rfl⟩
    · rintro e x ⟨⟩ ⟨⟩
      exact ⟨rfl, fun x hx => ho x (mem_of_ne (by rintro ⟨⟩) hx)⟩

end Follows

/-- A frontend stays of its kind. -/
theorem Move.kind_eq {event : Option (Nat × CallEvent)} (hm : Move clearing r event r') :
    r'.kind = r.kind := by
  cases hm <;> rfl

end Relay

namespace Client

variable {w w' : Client Handler} {c : Nat} {events : List CallEvent} {stage : Stage}

/-- **Every run leads every call on along its course**, on a reactor. -/
theorem Reachable.follows (hw : Reachable w) (hk : w.frontend.kind = .reactor)
    (h : w.relay.Follows c events stage) {actions : List (Action Handler)}
    (hr : w.run? actions = some w') :
    ∃ stage', w'.relay.Follows c (events ++ w.history c actions) stage' := by
  induction actions generalizing w events stage with
  | nil =>
    cases hr
    exact ⟨stage, (List.append_nil events).symm ▸ h⟩
  | cons action rest ih =>
    rw [run?_cons] at hr
    obtain ⟨v, hv, hr⟩ := Option.bind_eq_some_iff.1 hr
    have hmove := hw.move_act? hv
    obtain ⟨stage', hnext⟩ := h.move hw.isSound_relay.1 hk hmove
    rw [history_cons hv, ← List.append_assoc]
    exact ih (hw.act action trivial hv) (hmove.kind_eq.trans hk) hnext hr

end Client

end Pubsub
