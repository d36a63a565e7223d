import Pubsub.Proofs.Failures

/-!
# Tasks that are done

An event loop makes a task of an operation, and the application can cancel the task whenever it is
suspended. The session was claimed before the task existed, and it is the task that gives it back:
it completes its call, or it abandons it when an error escapes. A cancellation is such an error in
most places, but a task that is cancelled before its first step does not take that step, so nobody
is left who could abandon the call.

That is the only way: a task that is done has settled its call unless it was cancelled before its
first step. If it settled its call, then the session is free or in the hands of another operation,
whose call, if it has one yet, is a later one. Otherwise nobody ever settles the call, and the
session is busy ever after.
-/

namespace Pubsub

variable {Handler : Type} {P : Outcome → Prop}

/-- Has the drive come to its end? -/
def Drive.isOver : Drive → Bool
  | .finished _ => true
  | .failed _ => true
  | _ => false

/-- Is the task done, with a result, an error or a cancellation? -/
def LoopTask.isDone (task : LoopTask) : Bool :=
  match task.phase with
  | .unstarted => false
  | .running drive => drive.isOver

theorem LoopTask.exists_of_isDone {task : LoopTask} (h : task.isDone = true) :
    ∃ drive, task.phase = .running drive ∧ drive.isOver = true := by
  unfold isDone at h
  split at h
  · cases h
  · exact ⟨_, ‹_›, h⟩

/-! ## The calls of a session -/

namespace Ledger

variable {l l' : Ledger Handler} {c : Nat} {call : Call Handler}

/-- The calls of a session follow each other: when there is a later one, the earlier one is
settled. -/
def IsSerial (l : Ledger Handler) : Prop :=
  ∀ (c d : Nat) (call later : Call Handler), c < d → l.calls[c]? = some call →
    l.calls[d]? = some later → call.session = later.session → call.settled = true

/-- A call may be rewritten as long as it stays on its session, and settled if it was. -/
theorem IsSerial.setCall (h : l.IsSerial) (hc : l.calls[c]? = some call) (call' : Call Handler)
    (hs : call'.session = call.session) (hu : call.settled = true → call'.settled = true)
    (t : Session) : (l.setCall c call' t).IsSerial := by
  have hself : (l.calls.set c call')[c]? = some call' :=
    List.getElem?_set_self (List.getElem?_eq_some_iff.1 hc).1
  -- A call of the new list was on the same session before, and settled at most later.
  have hold : ∀ {d : Nat} {x : Call Handler}, (l.calls.set c call')[d]? = some x →
      ∃ y, l.calls[d]? = some y ∧ x.session = y.session
        ∧ (y.settled = true → x.settled = true) := by
    intro d x hx
    by_cases hd : c = d
    · subst hd
      obtain rfl := Option.some.inj (hself.symm.trans hx)
      exact ⟨call, hc, hs, hu⟩
    · exact ⟨x, (List.getElem?_set_ne hd).symm.trans hx, rfl, id⟩
  intro a b x y hab hx hy hxy
  obtain ⟨x', hx', hxs, hxu⟩ := hold hx
  obtain ⟨y', hy', hys, -⟩ := hold hy
  exact hxu (h a b x' y' hab hx' hy' (hxs.symm.trans (hxy.trans hys)))

/-- **Every entry leaves the calls of a session one after the other**, because an operation is
accepted only while it holds the session. -/
theorem IsSerial.entry (h : l.IsSerial) (hl : l.IsSound) (he : Entry P l l') : l'.IsSerial := by
  cases he with
  | blank => exact h
  | opened hn => exact h
  | changed hs change ht => exact h
  | cleared hs cursor _ => exact h
  | closed hs => exact h
  | claimed hs ht => exact h
  | unbuilt hs hb => exact h
  | @accepted i s hs hb request callback =>
    intro a b x y hab hx hy hxy
    have hblt : b < (l.calls ++ [Call.start i request s.policy callback]).length :=
      (List.getElem?_eq_some_iff.1 hy).1
    rw [List.length_append, List.length_singleton] at hblt
    have halt : a < l.calls.length := by omega
    replace hx : l.calls[a]? = some x := (List.getElem?_append_left halt).symm.trans hx
    by_cases hblast : b = l.calls.length
    · subst hblast
      obtain rfl := Option.some.inj (List.getElem?_concat_length.symm.trans hy)
      by_contra hu
      obtain ⟨-, hone⟩ := hl.of_claims_pos hs (Nat.add_pos_left hb _)
      have hpos := unsettled_pos hx (Bool.eq_false_iff.2 hu)
      have hsession : x.session = i := hxy
      rw [hsession] at hpos
      unfold claims at hone
      omega
    · have hlt : b < l.calls.length := by omega
      exact h a b x y hab hx ((List.getElem?_append_left hlt).symm.trans hy) hxy
  | @resumed c call s step now fed hd hP hr =>
    exact h.setCall (callOn?_eq_some_iff.1 hd).1 (call.after step) rfl id _
  | @ended c call s step outcome now fed hd hu hP hr ho =>
    rw [settle_setCall]
    exact h.setCall (callOn?_eq_some_iff.1 hd).1 { call.after step with settled := true } rfl
      (fun _ => rfl) ((s.after step).release outcome)
  | @abandoned c call s hd hu =>
    exact h.setCall (callOn?_eq_some_iff.1 hd).1 { call with settled := true } rfl
      (fun _ => rfl) (s.release none)

end Ledger

namespace Client

variable {w w' v : Client Handler} {action : Action Handler} {actions : List (Action Handler)}
  {c t : Nat} {call : Call Handler} {s : Session} {task : LoopTask}

theorem Reachable.isSerial (h : Reachable w) : w.ledger.IsSerial := by
  have hboth : w.ledger.IsSound ∧ w.ledger.IsSerial :=
    Reachable.ledger (Q := fun l => l.IsSound ∧ l.IsSerial)
      ⟨.empty, fun _ _ _ _ _ hc _ _ => by cases hc⟩
      (fun hl he => ⟨hl.1.entry he, hl.2.entry hl.1 he⟩) h
  exact hboth.2

/-- Is the session in the hands of an operation that is not the one of the call: one that builds its
request, or a later call that is not settled? -/
inductive IsHeldAfter (w : Client Handler) (c i : Nat) : Prop where
  | building {v : Invocation Handler} (hv : v ∈ w.invocations) (hi : v.session = i)
      (hp : v.phase = .claimed)
  | carrying {d : Nat} {later : Call Handler} (hlt : c < d) (hd : w.calls[d]? = some later)
      (hi : later.session = i) (hu : later.settled = false)

/-- **A busy session is in the hands of a later operation** than any of its settled calls. -/
theorem Reachable.isHeldAfter (h : Reachable w) (hc : w.calls[c]? = some call)
    (hsettled : call.settled = true) (hs : w.sessions[call.session]? = some s)
    (hb : s.busy = true) : w.IsHeldAfter c call.session := by
  rcases h.exists_claim hs hb with ⟨k, v, hv, hp, hi⟩ | ⟨d, later, hd, hi, hu⟩
  · exact .building (List.mem_of_getElem? hv) hi hp
  · refine .carrying ?_ hd hi hu
    rcases Nat.lt_trichotomy c d with hlt | rfl | hgt
    · exact hlt
    · obtain rfl := Option.some.inj (hc.symm.trans hd)
      cases hu.symm.trans hsettled
    · have hearlier := h.isSerial d c later call hgt hd hc hi
      cases hu.symm.trans hearlier

/-! ## How a task comes to its end -/

/-- A task that was moved, in its new phase. -/
theorem of_getElem?_setTask {drive : Drive} (ht : (w.setTask t drive).tasks[t]? = some task) :
    task.phase = .running drive
      ∧ ∃ phase, w.tasks[t]? = some { task with phase } := by
  change (w.tasks.modify t _)[t]? = some task at ht
  rw [List.getElem?_modify_eq] at ht
  obtain ⟨old, hold, rfl⟩ := Option.map_eq_some_iff.1 ht
  exact ⟨rfl, old.phase, hold⟩

/-- The baton of a task is among those of the state. -/
theorem mem_batons_of_task (ht : w.tasks[t]? = some task) {b : Baton}
    (hb : task.baton? = some (task.call, b)) : (task.call, b) ∈ w.batons :=
  mem_batons_iff.2 (Or.inr (Or.inr (Or.inl ⟨task, List.mem_of_getElem? ht, hb⟩)))

/-- A task that runs finds its call where it expects it. -/
theorem Reachable.exists_fits_of_task (h : Reachable w) (ht : w.tasks[t]? = some task)
    {drive : Drive} (hp : task.phase = .running drive) :
    w.frontend.kind ≠ .reactor
      ∧ ∃ call, w.calls[task.call]? = some call ∧ drive.Fits call := by
  have hb : task.baton? = some (task.call, .driven drive) := by
    unfold LoopTask.baton?
    rw [hp]
  obtain ⟨call, hc, hk, hfits⟩ := h.isSound_relay.1.carried.fits (mem_batons_of_task ht hb)
  exact ⟨hk, call, hc, hfits⟩

/-- A drive that fails has abandoned its call. -/
theorem eq_abandonCall_of_failed {drive : Drive} {e : Error}
    (h : w.stepDrive? c drive = some (w', .failed e)) : w' = w.abandonCall c := by
  unfold stepDrive? at h
  split at h
  · split at h
    · cases h
    · split at h <;> cases h
    · cases h
    · cases h
    · split at h <;> cases h
  · cases h
    rfl
  · cases h

theorem Reachable.isSettled_abandonCall (h : Reachable w) (hc : w.calls[c]? = some call) :
    (w.abandonCall c).isSettled c = true := by
  obtain ⟨s, hs⟩ := exists_callOn? h.isRegular hc
  cases hu : call.settled with
  | true =>
    rw [abandonCall_of_settled hc hu, isSettled_of_getElem? hc]
    exact hu
  | false => exact (abandonCall_lets_go hs hu).2.2.1

/-- A task that failed by a step of its own has abandoned its call. -/
theorem Reachable.isSettled_of_stepTask? (hw : Reachable w) (h : w.stepTask? t = some w')
    (ht : w'.tasks[t]? = some task) {e : Error} (hp : task.phase = .running (.failed e)) :
    w'.isSettled task.call = true := by
  unfold stepTask? at h
  split at h
  · cases h
  · rename_i old hold
    split at h
    · cases h
      obtain ⟨hp', -⟩ := of_getElem?_setTask ht
      cases hp.symm.trans hp'
    · rename_i drive hphase
      obtain ⟨⟨w₁, drive'⟩, hd, rfl⟩ := Option.map_eq_some_iff.1 h
      obtain ⟨hp', phase, hold'⟩ := of_getElem?_setTask ht
      obtain rfl : drive' = .failed e := by
        rw [hp] at hp'
        cases hp'
        rfl
      -- The drive touches no task, so it is the same task as before.
      have htasks : w₁.tasks = w.tasks := by rw [agreesOutside_stepDrive? hd]
      rw [htasks] at hold'
      obtain rfl := Option.some.inj (hold.symm.trans hold')
      obtain rfl := eq_abandonCall_of_failed hd
      obtain ⟨-, call, hc, -⟩ := hw.exists_fits_of_task hold hphase
      exact hw.isSettled_abandonCall hc

/-- A task that failed because its callback raised an error had completed its call. -/
theorem Reachable.isSettled_of_returnTask? (hw : Reachable w) {raised : Option Error}
    (h : w.returnTask? t raised = some w') (ht : w'.tasks[t]? = some task) :
    w'.isSettled task.call = true := by
  have hcalling : ∀ {result : Result} {drive : Drive},
      w.taskPhase? t = some (.running (.calling result)) → w' = w.setTask t drive →
      w'.isSettled task.call = true := by
    rintro result drive hphase rfl
    obtain ⟨-, phase, hold⟩ := of_getElem?_setTask ht
    rw [taskPhase?_of_some hold] at hphase
    obtain ⟨-, call, hc, hfits⟩ := hw.exists_fits_of_task hold (Option.some.inj hphase)
    exact (isSettled_of_getElem? (w := w) hc).trans hfits
  unfold returnTask? at h
  split at h
  · cases h
    exact hcalling ‹_› rfl
  · cases h
    exact hcalling ‹_› rfl
  · cases h

/-- A task fails by an action of its own after its call was settled, or by a cancellation before its
first step. -/
theorem Reachable.cancels_or_settled_of_failed (hw : Reachable w) (ha : w.act? action = some w')
    (ho : action.isOfTask t = true) (ht : w'.tasks[t]? = some task) {e : Error}
    (hp : task.phase = .running (.failed e)) :
    (action = .cancelTask t ∧ w.taskPhase? t = some .unstarted)
      ∨ w'.isSettled task.call = true := by
  -- A task that is moved into another phase has not failed.
  have hmoved : ∀ {drive : Drive}, w' = w.setTask t drive → drive = .failed e := by
    rintro drive rfl
    have hphase := (of_getElem?_setTask ht).1
    rw [hp] at hphase
    cases hphase
    rfl
  cases action with
  | stepTask u =>
    obtain rfl : u = t := beq_iff_eq.1 ho
    exact Or.inr (hw.isSettled_of_stepTask? ha ht hp)
  | returnTask u raised =>
    obtain rfl : u = t := beq_iff_eq.1 ho
    exact Or.inr (hw.isSettled_of_returnTask? ha ht)
  | answerTask u answer =>
    obtain rfl : u = t := beq_iff_eq.1 ho
    unfold act? answerTask? at ha
    dsimp only at ha
    split at ha
    · obtain ⟨drive, hd, hw'⟩ := Option.map_eq_some_iff.1 ha
      obtain rfl := hmoved hw'.symm
      unfold Drive.answer? at hd
      split at hd <;> cases hd
    · cases ha
  | wakeTask u =>
    obtain rfl : u = t := beq_iff_eq.1 ho
    unfold act? wakeTask? at ha
    dsimp only at ha
    split at ha
    · obtain ⟨drive, hd, hw'⟩ := Option.map_eq_some_iff.1 ha
      obtain rfl := hmoved hw'.symm
      unfold Drive.wake? at hd
      split at hd <;> cases hd
    · cases ha
  | cancelTask u =>
    obtain rfl : u = t := beq_iff_eq.1 ho
    unfold act? cancelTask? at ha
    dsimp only at ha
    split at ha
    · exact Or.inl ⟨rfl, ‹_›⟩
    · cases hmoved (Option.some.inj ha).symm
    · cases hmoved (Option.some.inj ha).symm
    · cases ha
  | _ => cases ho

/-- **A task comes to its end with its call settled**, or by a cancellation before its first
step. -/
theorem Reachable.cancels_or_settled (hw : Reachable w) (ha : w.act? action = some w')
    (hbefore : ∀ old, w.tasks[t]? = some old → old.isDone = false)
    (ht : w'.tasks[t]? = some task) (hd : task.isDone = true) :
    (action = .cancelTask t ∧ w.taskPhase? t = some .unstarted)
      ∨ w'.isSettled task.call = true := by
  have hown : action.isOfTask t = true := by
    cases (frame_act? ha).tasks t with
    | own h => exact h
    | kept h =>
      rw [hbefore task (h ▸ ht)] at hd
      cases hd
    | created _ h =>
      obtain rfl := Option.some.inj (h.symm.trans ht)
      cases hd
  obtain ⟨drive, hp, hover⟩ := LoopTask.exists_of_isDone hd
  cases drive with
  | finished result =>
    have hw' : Reachable w' := hw.act _ trivial ha
    obtain ⟨-, call, hc, hfits⟩ := hw'.exists_fits_of_task ht hp
    exact Or.inr ((isSettled_of_getElem? hc).trans hfits)
  | failed e => exact hw.cancels_or_settled_of_failed ha hown ht hp
  | _ => cases hover

/-! ## Calls that nobody will settle -/

end Client

namespace Relay

variable {clearing : Prop} {r r' : Relay Handler} {event : Option (Nat × CallEvent)} {c : Nat}
  {call : Call Handler}

/-- **Nobody goes on with the call of a drive that failed.** -/
theorem Move.call_of_failed (hm : Move clearing r event r') (hs : r.IsSound) {e : Error}
    (hb : (c, .driven (.failed e)) ∈ r.batons) (hc : r.calls[c]? = some call) :
    r'.calls[c]? = some call := by
  have hkind : r.kind ≠ .reactor := by
    obtain ⟨-, -, hk, -⟩ := hs.carried.fits hb
    exact hk
  -- A call is changed by the holder of its baton, and this one has another kind of baton.
  have hset : ∀ {d : Nat} {b : Baton} {rest : Multiset (Nat × Baton)} {call' : Call Handler},
      r.batons = {(d, b)} + rest → b ≠ .driven (.failed e) →
      (r.calls.set d call')[c]? = some call := by
    intro d b rest call' hd hne
    by_cases hdc : d = c
    · subst hdc
      refine absurd (hs.carried.eq_of_mem ?_ hb) hne
      exact hd ▸ Multiset.mem_add.2 (Or.inl (Multiset.mem_singleton_self _))
    · exact (List.getElem?_set_ne hdc).trans hc
  cases hm with
  | accepted hi request policy callback =>
    exact (List.getElem?_append_left (List.getElem?_eq_some_iff.1 hc).1).trans hc
  | abandoned hd _ hn =>
    refine hset hd ?_
    rintro rfl
    cases hn
  | resumed now hd _ _ hf _ _ =>
    refine hset hd ?_
    rintro rfl
    cases hf
  | declined _ _ hd _ _ _ =>
    obtain ⟨-, -, hk, -⟩ := hs.carried.fits hd
    exact absurd hk hkind
  | refused _ _ hu _ =>
    have hk := (hs.awaited.bound (hu ▸ Multiset.mem_add.2
      (Or.inl (Multiset.mem_singleton_self _)))).2
    exact absurd hk hkind
  | _ => exact hc

end Relay

namespace Client

variable {w w' v : Client Handler} {action : Action Handler} {actions : List (Action Handler)}
  {t : Nat} {call : Call Handler} {task : LoopTask}

/-- A task that is done does nothing any more, and takes no answer. -/
theorem act?_eq_none_of_isDone (ht : w.tasks[t]? = some task) (hd : task.isDone = true)
    (ho : action.isOfTask t = true) : w.act? action = none := by
  obtain ⟨drive, hp, hover⟩ := LoopTask.exists_of_isDone hd
  have hphase : w.taskPhase? t = some (.running drive) := by
    rw [taskPhase?_of_some ht, hp]
  have hturn : ∀ answer, drive.answer? answer = none ∧ drive.wake? = none := by
    intro answer
    cases drive <;> first | exact ⟨rfl, rfl⟩ | cases hover
  cases action with
  | stepTask u =>
    obtain rfl : u = t := beq_iff_eq.1 ho
    show w.stepTask? u = none
    unfold stepTask?
    rw [ht]
    dsimp only
    rw [hp]
    cases drive <;> first | rfl | cases hover
  | answerTask u answer =>
    obtain rfl : u = t := beq_iff_eq.1 ho
    show w.answerTask? u answer = none
    unfold answerTask?
    rw [hphase]
    dsimp only
    rw [(hturn answer).1]
    rfl
  | wakeTask u =>
    obtain rfl : u = t := beq_iff_eq.1 ho
    show w.wakeTask? u = none
    unfold wakeTask?
    rw [hphase]
    dsimp only
    rw [(hturn (.error .cancelled)).2]
    rfl
  | returnTask u raised =>
    obtain rfl : u = t := beq_iff_eq.1 ho
    show w.returnTask? u raised = none
    unfold returnTask?
    rw [hphase]
    cases drive <;> cases raised <;> first | rfl | cases hover
  | cancelTask u =>
    obtain rfl : u = t := beq_iff_eq.1 ho
    show w.cancelTask? u = none
    unfold cancelTask?
    rw [hphase]
    cases drive <;> first | rfl | cases hover
  | _ => cases ho

/-- A task that is done stays as it is. -/
theorem task_act?_of_isDone (ht : w.tasks[t]? = some task) (hd : task.isDone = true)
    (ha : w.act? action = some w') : w'.tasks[t]? = some task := by
  cases (frame_act? ha).tasks t with
  | own ho =>
    rw [act?_eq_none_of_isDone ht hd ho] at ha
    cases ha
  | kept h => exact h.trans ht
  | created h _ => cases h.symm.trans ht

theorem task_run?_of_isDone (ht : w.tasks[t]? = some task) (hd : task.isDone = true)
    (hr : w.run? actions = some w') : w'.tasks[t]? = some task :=
  of_run? (P := fun v => v.tasks[t]? = some task) (fun ht ha => task_act?_of_isDone ht hd ha) ht hr

/-- The task failed, and did not settle its call. -/
structure IsForgotten (w : Client Handler) (t : Nat) (task : LoopTask) (call : Call Handler) :
    Prop where
  found : w.tasks[t]? = some task
  failed : ∃ e, task.phase = .running (.failed e)
  carried : w.calls[task.call]? = some call
  unsettled : call.settled = false

theorem IsForgotten.isDone (h : w.IsForgotten t task call) : task.isDone = true := by
  obtain ⟨e, hp⟩ := h.failed
  unfold LoopTask.isDone
  rw [hp]
  rfl

theorem IsForgotten.act? (h : w.IsForgotten t task call) (hw : Reachable w)
    (ha : w.act? action = some w') : w'.IsForgotten t task call := by
  obtain ⟨e, hp⟩ := h.failed
  have hb : task.baton? = some (task.call, .driven (.failed e)) := by
    unfold LoopTask.baton?
    rw [hp]
  refine ⟨task_act?_of_isDone h.found h.isDone ha, h.failed, ?_, h.unsettled⟩
  exact (hw.move_act? ha).call_of_failed hw.isSound_relay.1 (mem_batons_of_task h.found hb)
    h.carried

/-- **A forgotten call is never settled.** -/
theorem IsForgotten.run? (h : w.IsForgotten t task call) (hw : Reachable w)
    (hr : w.run? actions = some w') : w'.IsForgotten t task call :=
  hw.of_run? (P := fun v => v.IsForgotten t task call) (fun hu h ha => h.act? hu ha) h hr

/-- **The call of a task that is cancelled before its first step is forgotten.** -/
theorem Reachable.exists_isForgotten (hw : Reachable w) (hp : w.taskPhase? t = some .unstarted)
    (ha : w.act? (.cancelTask t) = some w') : ∃ task call, w'.IsForgotten t task call := by
  obtain ⟨⟨c, phase⟩, ht, rfl⟩ := Option.map_eq_some_iff.1 hp
  have hmem : (c, .unstarted) ∈ w.batons := mem_batons_of_task ht rfl
  have hcarried := hw.isSound_relay.1.carried
  obtain ⟨call, hc, hkind, -⟩ := hcarried.fits hmem
  change w.cancelTask? t = some w' at ha
  unfold cancelTask? at ha
  rw [hp] at ha
  cases ha
  refine ⟨⟨c, .running (.failed .cancelled)⟩, call, ?_, ⟨.cancelled, rfl⟩, hc, ?_⟩
  · show (w.tasks.modify t _)[t]? = _
    rw [List.getElem?_modify_eq, ht]
    rfl
  · by_contra hu
    exact hkind (hcarried.idle hmem hc (Bool.not_eq_false _ ▸ hu) rfl).1

/-- The session of a forgotten call is busy. -/
theorem IsForgotten.exists_busy (h : w.IsForgotten t task call) (hw : Reachable w) :
    ∃ s, w.sessions[call.session]? = some s ∧ s.busy = true := by
  obtain ⟨s, hs⟩ := exists_callOn? hw.isRegular h.carried
  obtain ⟨-, hs⟩ := callOn?_eq_some_iff.1 hs
  have hpos := Ledger.unsettled_pos (l := w.ledger) h.carried h.unsettled
  exact ⟨s, hs, (hw.isSound.of_claims_pos hs (Nat.add_pos_right _ hpos)).1⟩

/-! ## Tasks that are done -/

/-- Does the run cancel the task before its first step? -/
def CancelsUnstarted (w : Client Handler) (actions : List (Action Handler)) (t : Nat) : Prop :=
  ∃ u u', w.Occurs actions u (.cancelTask t) u' ∧ u.taskPhase? t = some .unstarted

/-- A run that cancels a task before its first step leaves its call unsettled. -/
theorem Reachable.exists_isForgotten_of_run? (hv : Reachable v) (hr : v.run? actions = some w)
    (hc : v.CancelsUnstarted actions t) : ∃ task call, w.IsForgotten t task call := by
  obtain ⟨u, u', hoccurs, hp⟩ := hc
  obtain ⟨before, after, -, hu, ha, hw⟩ := hoccurs.exists_run? hr
  have hreach : Reachable u := hv.run (fun _ _ => trivial) hu
  obtain ⟨task, call, hforgotten⟩ := hreach.exists_isForgotten hp ha
  exact ⟨task, call, hforgotten.run? (hreach.act _ trivial ha) hw⟩

/-- A task that comes to its end in a run that does not cancel it before its first step has settled
its call. -/
theorem Reachable.isSettled_of_isDone (hv : Reachable v) (hr : v.run? actions = some w)
    (hbefore : ∀ old, v.tasks[t]? = some old → old.isDone = false)
    (ht : w.tasks[t]? = some task) (hd : task.isDone = true)
    (hn : ¬ v.CancelsUnstarted actions t) : w.isSettled task.call = true := by
  induction actions generalizing v with
  | nil =>
    cases hr
    rw [hbefore task ht] at hd
    cases hd
  | cons action rest ih =>
    rw [run?_cons] at hr
    obtain ⟨x, ha, hr⟩ := Option.bind_eq_some_iff.1 hr
    have hrest : ¬ x.CancelsUnstarted rest t := by
      rintro ⟨u, u', hoccurs, hp⟩
      exact hn ⟨u, u', .later ha hoccurs, hp⟩
    by_cases hdone : ∃ old, x.tasks[t]? = some old ∧ old.isDone = true
    · -- This is the action by which the task comes to its end.
      obtain ⟨old, hold, hdone⟩ := hdone
      obtain rfl := Option.some.inj ((task_run?_of_isDone hold hdone hr).symm.trans ht)
      rcases hv.cancels_or_settled ha hbefore hold hd with ⟨rfl, hp⟩ | hsettled
      · exact absurd ⟨v, x, .now ha, hp⟩ hn
      · obtain ⟨call, hc, hu⟩ := exists_settled_of_isSettled hsettled
        exact (settled_of_run? hr hc hu).1
    · refine ih (hv.act _ trivial ha) hr ?_ hrest
      intro old hold
      exact Bool.eq_false_iff.2 fun hover => hdone ⟨old, hold, hover⟩

/-- **A task that is done has settled its call, unless it was cancelled before its first step.**
Whatever the threads of a client do, and in whatever order: if a task is done, with a result, an
error or a cancellation, then its call is settled exactly if no action of the run cancelled the
task before its first step. If it is settled, then its session is free or in the hands of a later
operation. Otherwise it is never settled, and its session is busy in every state that the run can
be continued to. -/
theorem done_task_settles {config : Configuration} {fresh : Bytes} {frontend : Frontend Handler}
    (hr : (initial config fresh frontend).run? actions = some w) (ht : w.tasks[t]? = some task)
    (hd : task.isDone = true) :
    ∃ call s, w.calls[task.call]? = some call ∧ w.sessions[call.session]? = some s
      ∧ (call.settled = true ↔ ¬ (initial config fresh frontend).CancelsUnstarted actions t)
      ∧ (call.settled = true → s.busy = true → w.IsHeldAfter task.call call.session)
      ∧ (call.settled = false → ∀ rest w', w.run? rest = some w' →
          ∃ s', w'.sessions[call.session]? = some s' ∧ s'.busy = true) := by
  have hinitial : Reachable (initial config fresh frontend) := .initial config fresh frontend
  have hw : Reachable w := hinitial.run (fun _ _ => trivial) hr
  have hbefore : ∀ old, (initial config fresh frontend).tasks[t]? = some old →
      old.isDone = false := by
    rintro old ⟨⟩
  obtain ⟨drive, hp, -⟩ := LoopTask.exists_of_isDone hd
  obtain ⟨-, call, hc, -⟩ := hw.exists_fits_of_task ht hp
  obtain ⟨s, hs⟩ := exists_callOn? hw.isRegular hc
  obtain ⟨-, hs⟩ := callOn?_eq_some_iff.1 hs
  have hforgotten : (initial config fresh frontend).CancelsUnstarted actions t →
      w.IsForgotten t task call := by
    intro hcancels
    obtain ⟨task', call', hforgotten⟩ := hinitial.exists_isForgotten_of_run? hr hcancels
    obtain rfl := Option.some.inj (hforgotten.found.symm.trans ht)
    obtain rfl := Option.some.inj (hforgotten.carried.symm.trans hc)
    exact hforgotten
  have hsettled : ¬ (initial config fresh frontend).CancelsUnstarted actions t →
      call.settled = true := by
    intro hn
    rw [← isSettled_of_getElem? hc]
    exact hinitial.isSettled_of_isDone hr hbefore ht hd hn
  refine ⟨call, s, hc, hs, ⟨?_, hsettled⟩, fun hu hb => hw.isHeldAfter hc hu hs hb, ?_⟩
  · intro hu hcancels
    rw [(hforgotten hcancels).unsettled] at hu
    cases hu
  · intro hu rest w' hrest
    have hcancels : (initial config fresh frontend).CancelsUnstarted actions t := by
      by_contra hn
      rw [hsettled hn] at hu
      cases hu
    exact ((hforgotten hcancels).run? hw hrest).exists_busy (hw.run (fun _ _ => trivial) hrest)

/-- A client on an event loop, before it does anything. -/
def onEventLoop : Client Unit :=
  initial (Configuration.initial ⟨[]⟩ none) [] (Frontend.borrowing .eventLoop)

/-- An operation is made a task. -/
def startedTask : List (Action Unit) :=
  [.openSession ⟨.null, .null, .null, .null, false⟩ "u", .ask 0 .time .null none,
    .stepInvocation 0, .stepInvocation 0, .stepInvocation 0]

/-- The task is cancelled while its request is in flight. -/
def cancelledInFlight : List (Action Unit) :=
  startedTask ++ [.stepTask 0, .stepTask 0, .cancelTask 0, .stepTask 0]

/-- The cancellation of a task whose request is in flight settles its call. -/
theorem done_task_settles_cancelledInFlight :
    ∃ (w : Client Unit) (task : LoopTask) (call : Call Unit) (s : Session),
      onEventLoop.run? cancelledInFlight = some w ∧ w.tasks[0]? = some task
      ∧ task.isDone = true ∧ w.calls[task.call]? = some call ∧ call.settled = true
      ∧ w.sessions[call.session]? = some s ∧ s.busy = false
      ∧ ¬ onEventLoop.CancelsUnstarted cancelledInFlight 0 := by
  have hfacts : (onEventLoop.run? cancelledInFlight).any (fun w =>
      (w.tasks[0]?).any LoopTask.isDone && w.calls.all Call.settled
        && w.sessions.all (fun s => !s.busy)) = true := by
    decide +kernel
  obtain ⟨w, hrun, hfacts⟩ := (Option.any_eq_true _ _).1 hfacts
  simp only [Option.any_eq_true, Bool.and_eq_true, List.all_eq_true, Bool.not_eq_true'] at hfacts
  obtain ⟨⟨⟨task, ht, hd⟩, hsettled⟩, hfree⟩ := hfacts
  obtain ⟨call, s, hc, hs, hiff, -⟩ := done_task_settles hrun ht hd
  have hu := hsettled call (List.mem_of_getElem? hc)
  exact ⟨w, task, call, s, hrun, ht, hd, hc, hu, hs, hfree s (List.mem_of_getElem? hs), hiff.1 hu⟩

/-- **A task can be done and leave its session busy**: after it was cancelled before its first step,
its call is not settled and its session is busy, although the client was asked for no other
operation. -/
theorem busy_after_early_cancellation :
    ∃ (w : Client Unit) (task : LoopTask) (call : Call Unit) (s : Session), Reachable w
      ∧ w.tasks[0]? = some task ∧ task.isDone = true ∧ w.calls[task.call]? = some call
      ∧ call.settled = false ∧ w.sessions[call.session]? = some s ∧ s.busy = true
      ∧ w.calls.length = 1 ∧ w.invocations.length = 1 := by
  have hfacts : (onEventLoop.run? (startedTask ++ [.cancelTask 0])).any (fun w =>
      (w.tasks[0]?).any (fun task => task.isDone
        && (w.calls[task.call]?).any fun call => !call.settled
          && (w.sessions[call.session]?).any Session.busy)
        && w.calls.length == 1 && w.invocations.length == 1) = true := by
    decide +kernel
  obtain ⟨w, hrun, hfacts⟩ := (Option.any_eq_true _ _).1 hfacts
  simp only [Option.any_eq_true, Bool.and_eq_true, beq_iff_eq, Bool.not_eq_true'] at hfacts
  obtain ⟨⟨⟨task, ht, hd, call, hc, hu, s, hs, hb⟩, hcalls⟩, hinvocations⟩ := hfacts
  exact ⟨w, task, call, s, .run (.initial _ [] _) (fun _ _ => trivial) hrun, ht, hd, hc, hu, hs, hb,
    hcalls, hinvocations⟩

end Client

end Pubsub
