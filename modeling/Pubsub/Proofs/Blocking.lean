import Pubsub.Proofs.Hands
import Pubsub.Proofs.Failures

/-!
# Who holds a session of a blocking client

A blocking frontend drives a call on the thread that asked for the operation, to its end. So there
are no tasks, and every call that is not settled is in the hands of an operation; and as a busy
session has a claim on it, a session of a blocking client is busy exactly as long as an operation
**holds** it: one that builds its request, or has a call that is not settled
(`Client.Reachable.busy_iff_holds`).
-/

namespace Pubsub

variable {Handler : Type}

namespace Baton

/-- The holder of the baton is the thread of an operation, if the frontend is blocking; and if it
has failed, then it has let the call go. -/
def IsOnThread (call : Call Handler) : Baton → Prop
  | unstarted => False
  | driven (.failed _) => call.settled = true
  | _ => True

theorem IsOnThread.settle {call : Call Handler} {b : Baton} (h : b.IsOnThread call) :
    b.IsOnThread { call with settled := true } := by
  cases b with
  | unstarted => exact h
  | driven drive => cases drive <;> first | exact trivial | rfl
  | _ => trivial

/-- Under a blocking frontend calls stay on threads. -/
theorem isPassedOn_isOnThread :
    IsPassedOn .blocking (IsOnThread : Call Handler → Baton → Prop) where
  settle := IsOnThread.settle
  start i request policy callback := trivial
  passes h hf hb := by
    cases h with
    | enlisting hk => cases hk
    | cancelled => cases hb
    | raised => exact hf.2
    | _ => trivial
  continues h := by cases h <;> trivial
  abandons h hs := by
    cases h
    exact hs
  timed call n := trivial
  awaiting call a := trivial
  advancing call fed := trivial

end Baton

namespace Client

variable {w w' : Client Handler} {action : Action Handler} {c i t : Nat} {call : Call Handler}
  {s : Session}

theorem Reachable.kind_run? (hw : Reachable w) {actions : List (Action Handler)}
    (hr : w.run? actions = some w') : w'.frontend.kind = w.frontend.kind :=
  hw.of_run? (P := fun v => v.frontend.kind = w.frontend.kind)
    (fun hu hk ha => (hu.move_act? ha).kind_eq.trans hk) rfl hr

theorem Reachable.isOnThread (hw : Reachable w) (hk : w.frontend.kind = .blocking) :
    w.relay.HoldersKnow Baton.IsOnThread := by
  induction hw with
  | initial config fresh frontend =>
    intro c b call hb
    exact absurd hb (Multiset.notMem_zero _)
  | @act w w' action hw _ ha ih =>
    have hw := ReachableBy.reachable hw
    have hmove := hw.move_act? ha
    have hkind : w.relay.kind = .blocking := hmove.kind_eq.symm.trans hk
    exact (ih hkind).move (hkind ▸ Baton.isPassedOn_isOnThread) hw.isSound_relay.1 hmove

/-- Only a task that is there acts. -/
theorem exists_task_of_isOfTask (ha : w.act? action = some w') (ho : action.isOfTask t = true) :
    ∃ task, w.tasks[t]? = some task := by
  have hphase {phase : TaskPhase} (h : w.taskPhase? t = some phase) :
      ∃ task, w.tasks[t]? = some task := by
    obtain ⟨task, ht, -⟩ := Option.map_eq_some_iff.1 h
    exact ⟨task, ht⟩
  cases action with
  | stepTask u =>
    obtain rfl : u = t := beq_iff_eq.1 ho
    by_contra hnone
    have hnone : w.tasks[u]? = none := Option.eq_none_iff_forall_ne_some.2 (not_exists.1 hnone)
    cases (stepTask?_of_none hnone).symm.trans ha
  | answerTask u answer =>
    obtain rfl : u = t := beq_iff_eq.1 ho
    obtain ⟨drive, h⟩ := exists_running_of_answerTask? ha
    exact hphase h
  | wakeTask u =>
    obtain rfl : u = t := beq_iff_eq.1 ho
    obtain ⟨drive, h⟩ := exists_running_of_wakeTask? ha
    exact hphase h
  | returnTask u raised =>
    obtain rfl : u = t := beq_iff_eq.1 ho
    obtain ⟨drive, h⟩ := exists_running_of_returnTask? ha
    exact hphase h
  | cancelTask u =>
    obtain rfl : u = t := beq_iff_eq.1 ho
    unfold act? cancelTask? at ha
    dsimp only at ha
    split at ha
    · exact hphase ‹_›
    · exact hphase ‹_›
    · exact hphase ‹_›
    · cases ha
  | _ => cases ho

/-- **A blocking frontend makes no tasks.** -/
theorem Reachable.tasks_eq_nil (hw : Reachable w) (hk : w.frontend.kind = .blocking) :
    w.tasks = [] := by
  induction hw with
  | initial config fresh frontend => rfl
  | @act w w' action hw htrivial ha ih =>
    have hw := ReachableBy.reachable hw
    have hnone : w.tasks = [] := ih ((hw.move_act? ha).kind_eq.symm.trans hk)
    have hafter : Reachable w' := hw.act action htrivial ha
    refine List.eq_nil_iff_forall_not_mem.2 ?_
    intro task hm
    obtain ⟨t, ht⟩ := List.getElem?_of_mem hm
    cases (frame_act? ha).tasks t with
    | own ho =>
      obtain ⟨task, htask⟩ := exists_task_of_isOfTask ha ho
      rw [hnone] at htask
      cases htask
    | kept heq =>
      rw [hnone] at heq
      cases ht.symm.trans heq
    | @created c _ hnew =>
      -- A task that was not run yet would be in the hands of an event loop.
      have hb : (c, Baton.unstarted) ∈ w'.batons :=
        mem_batons_iff.2 (.inr (.inr (.inl ⟨_, List.mem_of_getElem? hnew, rfl⟩)))
      obtain ⟨call, hc, -⟩ := hafter.isSound_relay.1.carried.fits hb
      exact (hafter.isOnThread hk c _ call hb hc).elim

/-- **An unsettled call of a blocking client is in the hands of an operation.** -/
theorem Reachable.exists_open (hw : Reachable w) (hk : w.frontend.kind = .blocking)
    (hc : w.calls[c]? = some call) (hu : call.settled = false) :
    ∃ (k : Nat) (x : Invocation Handler), w.invocations[k]? = some x
      ∧ x.phase.open? = some c := by
  have hcarried := hw.isSound_relay.1.carried
  obtain ⟨b, hb⟩ := hcarried.carried hc hu
  obtain ⟨call', hc', hfits⟩ := hcarried.fits hb
  obtain rfl := Option.some.inj (hc.symm.trans hc')
  have hthread := hw.isOnThread hk c b call hb hc
  have hkind : w.relay.kind = .blocking := hk
  rw [hkind] at hfits
  rcases mem_batons_iff.1 hb with
    h | ⟨x, hx, h⟩ | ⟨task, ht, -⟩ | ⟨command, -, h⟩ | ⟨timer, -, h⟩ | ⟨a, attempt, -, h⟩
  · unfold Work.baton? at h
    split at h <;> cases h <;> cases hfits.1
  · obtain ⟨k, hx⟩ := List.getElem?_of_mem hx
    refine ⟨k, x, hx, ?_⟩
    cases hp : x.phase with
    | launching d =>
      rw [hp] at h
      cases h
      rfl
    | unwinding d e =>
      rw [hp] at h
      cases h
      rfl
    | driving d drive =>
      rw [hp] at h
      cases h
      refine if_pos ?_
      -- A drive that is over has settled its call.
      cases drive with
      | calling result => cases hu.symm.trans hfits.2
      | finished result => cases hu.symm.trans hfits.2
      | failed e => cases hu.symm.trans hthread
      | _ => rfl
    | _ =>
      rw [hp] at h
      cases h
  · rw [hw.tasks_eq_nil hk] at ht
    cases ht
  · unfold Command.baton? at h
    split at h
    · cases h
      cases hfits.1
    · unfold Timer.baton? at h
      split at h
      · cases h
        cases hfits.1
      · cases h
    · cases h
  · unfold Timer.baton? at h
    split at h
    · cases h
      cases hfits.1
    · cases h
  · unfold Attempt.baton? at h
    split at h
    · cases h
    · cases h
      cases hfits.1

/-- **A session of a blocking client is busy exactly as long as an operation holds it.** -/
theorem Reachable.busy_iff_holds (hw : Reachable w) (hk : w.frontend.kind = .blocking)
    (hs : w.sessions[i]? = some s) :
    s.busy = true ↔ ∃ (k : Nat) (x : Invocation Handler), w.invocations[k]? = some x
      ∧ w.Holds i x := by
  constructor
  · intro hb
    rcases hw.exists_claim hs hb with ⟨k, x, hx, hp, hi⟩ | ⟨c, call, hc, hi, hu⟩
    · exact ⟨k, x, hx, .building hp hi⟩
    · obtain ⟨k, x, hx, hopen⟩ := hw.exists_open hk hc hu
      exact ⟨k, x, hx, .carrying hopen hc hi hu⟩
  · rintro ⟨k, x, hx, h⟩
    exact hw.busy_of_holds hx h hs

end Client

end Pubsub
