import Pubsub.Proofs.SingleFlight
import Pubsub.Proofs.Soundness

/-!
# Calls that a reactor leaves behind

When the loop of a reactor has ended, nothing in its queue is run any more and no timer goes off. A
call whose baton lies there is **stranded**: nobody will ever settle it, its session stays busy, and
closing the session waits for ever. Every other call that the reactor took up is settled by then,
once the pool has handed back all its attempts: a call that goes on is abandoned as soon as the
reactor refuses its next job.

So whether a session is released depends on where its call was when the loop ended. A call is left
behind, for example, when a callback that a timer led to starts another operation and then stops the
reactor: the turn ends with the timers, and the job of the new operation stays in the queue.
-/

namespace Pubsub

variable {Handler : Type}

/-- Has the loop ended, as it was told to or by an error? -/
def LoopPhase.isOver : LoopPhase → Bool
  | ended => true
  | failed _ => true
  | _ => false

namespace Client

variable {w : Client Handler} {c i : Nat} {s : Session}

/-- No attempt is in the pool: each one was handed back to the reactor, or refused by it. -/
def IsAnswered (w : Client Handler) : Prop := ∀ attempt ∈ w.attempts, attempt.inFlight = false

/-- The frontend has taken up the call: no operation is about to hand it over, or about to abandon
it since the frontend refused it. -/
def IsTakenUp (w : Client Handler) (c : Nat) : Prop :=
  ∀ v ∈ w.invocations, v.phase ≠ .launching c ∧ ∀ e, v.phase ≠ .unwinding c e

/-- The call can go on only by something that the reactor still holds: a job in its queue, a timer
of a wait, or the response to an attempt. -/
inductive Strands (w : Client Handler) (c : Nat) : Prop where
  | queued (h : .run (.advance c) ∈ w.reactor.queue)
  | arming {timer : Timer Job} (h : .arm timer ∈ w.reactor.queue) (hj : timer.job = .advance c)
  | waiting {timer : Timer Job} (h : timer ∈ w.reactor.timers) (hj : timer.job = .advance c)
  | arrived {a : Nat} {answer : Except Error Outcome} {attempt : Attempt}
      (h : .run (.arrive a answer) ∈ w.reactor.queue) (ha : w.attempts[a]? = some attempt)
      (hu : attempt.settled = false) (hc : attempt.call = c)

/-- Once the loop is over, its thread does nothing. -/
theorem IsOrderly.work_eq_none {reactor : Reactor Job} {work : Work} (h : IsOrderly reactor work)
    (ho : reactor.phase.isOver = true) : work = .none := by
  cases hp : reactor.phase with
  | ended => exact h.ended hp
  | failed e => exact h.failed e hp
  | _ =>
    rw [hp] at ho
    cases ho

/-- The baton of a timer is that of the call whose wait it ends. -/
theorem job_of_baton? {timer : Timer Job} {b : Baton} (h : timer.baton? = some (c, b)) :
    timer.job = .advance c := by
  unfold Timer.baton? at h
  split at h
  · rename_i d hj
    obtain ⟨rfl, -⟩ := Prod.mk.inj (Option.some.inj h)
    exact hj
  · cases h

/-- **The baton of a call that was left behind lies with the reactor.** -/
theorem Reachable.strands (hw : Reachable w) (hk : w.frontend.kind = .reactor)
    (ho : w.reactor.phase.isOver = true) (ha : w.IsAnswered) (ht : w.IsTakenUp c)
    {call : Call Handler} (hc : w.calls[c]? = some call) (hu : call.settled = false) :
    w.Strands c := by
  obtain ⟨hsound, horderly⟩ := hw.isSound_relay
  have hwork : w.work = .none := horderly.work_eq_none ho
  obtain ⟨b, hb⟩ := hsound.carried.carried hc hu
  obtain ⟨call', hc', hfits⟩ := hsound.carried.fits hb
  have hkind : w.relay.kind = .reactor := hk
  rw [hkind] at hfits
  rcases mem_batons_iff.1 hb with
    h | ⟨v, hv, h⟩ | ⟨task, -, h⟩ | ⟨command, hm, h⟩ | ⟨timer, hm, h⟩ | ⟨a, attempt, hattempt, h⟩
  · rw [hwork] at h
    cases h
  · -- An invocation does not drive a call on a reactor, and it holds no other baton any more.
    obtain ⟨hlaunching, hunwinding⟩ := ht v hv
    cases hphase : v.phase with
    | launching d =>
      rw [hphase] at h hlaunching
      obtain ⟨rfl, -⟩ := Prod.mk.inj (Option.some.inj h)
      exact absurd rfl hlaunching
    | unwinding d e =>
      rw [hphase] at h hunwinding
      obtain ⟨rfl, -⟩ := Prod.mk.inj (Option.some.inj h)
      exact absurd rfl (hunwinding e)
    | driving d drive =>
      rw [hphase] at h
      obtain ⟨-, rfl⟩ := Prod.mk.inj (Option.some.inj h)
      exact absurd rfl hfits.1
    | _ =>
      rw [hphase] at h
      cases h
  · -- There are no tasks on a reactor.
    unfold LoopTask.baton? at h
    split at h
    · obtain ⟨-, rfl⟩ := Prod.mk.inj (Option.some.inj h)
      exact absurd rfl hfits.1
    · obtain ⟨-, rfl⟩ := Prod.mk.inj (Option.some.inj h)
      exact absurd rfl hfits.1
  · unfold Command.baton? at h
    split at h
    · obtain ⟨rfl, -⟩ := Prod.mk.inj (Option.some.inj h)
      exact .queued hm
    · exact .arming hm (job_of_baton? h)
    · cases h
  · exact .waiting hm (job_of_baton? h)
  · unfold Attempt.baton? at h
    split at h
    · cases h
    · rename_i hsettled
      obtain ⟨hcall, rfl⟩ := Prod.mk.inj (Option.some.inj h)
      -- Its outcome is on its way, and no worker is busy with it, so its response is in the queue.
      have hpresent : a ∈ w.underway := hsound.awaited.present hb hc hu
      rcases mem_underway_iff.1 hpresent with h | ⟨attempt', ha', hbusy⟩ | ⟨command, hm, h⟩
      · unfold submitting? at h
        rw [hwork] at h
        cases h
      · rw [ha attempt' (List.mem_of_getElem? ha')] at hbusy
        cases hbusy
      · unfold Command.response? at h
        split at h
        · rename_i d answer
          obtain rfl := Option.some.inj h
          exact .arrived hm hattempt (Bool.eq_false_iff.2 hsettled) hcall
        · cases h

/-- **A stopped reactor settles every call that it does not leave behind.** Once its loop is over
and the pool has handed back all attempts, each call that the frontend had taken up is settled or
stranded; and a session on which no operation is in progress, except such as the reactor has
settled, is released, so that whoever waits to close it goes on. -/
theorem Reachable.settled_or_stranded (hw : Reachable w) (hk : w.frontend.kind = .reactor)
    (ho : w.reactor.phase.isOver = true) (ha : w.IsAnswered) :
    (∀ {c : Nat} {call : Call Handler}, w.calls[c]? = some call → w.IsTakenUp c →
      call.settled = true ∨ w.Strands c)
    ∧ ∀ {i : Nat} {s : Session}, w.sessions[i]? = some s → w.building i = 0 →
      (∀ c call, w.calls[c]? = some call → call.session = i → w.IsTakenUp c ∧ ¬ w.Strands c) →
      s.busy = false ∧ s.idle = true
        ∧ ∀ {k : Nat} {closing : Closing}, w.closings[k]? = some closing → closing.session = i →
          closing.phase = .waiting → w.act? (.stepClosing k) = some (w.setClosing k .woken) := by
  have hsettled : ∀ {c : Nat} {call : Call Handler}, w.calls[c]? = some call → w.IsTakenUp c →
      call.settled = true ∨ w.Strands c := by
    intro c call hc ht
    cases hu : call.settled with
    | true => exact Or.inl rfl
    | false => exact Or.inr (hw.strands hk ho ha ht hc hu)
  refine ⟨hsettled, ?_⟩
  intro i s hs hb hall
  have hnone : w.calls.countP (fun call => call.session == i && !call.settled) = 0 := by
    refine List.countP_eq_zero.2 ?_
    intro call hm hcall
    obtain ⟨c, hlt, rfl⟩ := List.mem_iff_getElem.1 hm
    simp only [Bool.and_eq_true, beq_iff_eq, Bool.not_eq_true'] at hcall
    have hc := List.getElem?_eq_getElem hlt
    obtain ⟨ht, hnot⟩ := hall c _ hc hcall.1
    rcases hsettled hc ht with hyes | hstrands
    · rw [hcall.2] at hyes
      cases hyes
    · exact hnot hstrands
  have hfree : s.busy = false := by
    have hclaims := hw.claims_eq hs
    unfold claims at hclaims
    rw [hb, hnone] at hclaims
    cases hbusy : s.busy with
    | false => rfl
    | true =>
      rw [hbusy] at hclaims
      cases hclaims
  have hidle : s.idle = true := by
    rw [hw.isSound.idle i s hs, hfree]
    rfl
  refine ⟨hfree, hidle, ?_⟩
  intro k closing hk' hi hp
  unfold act? stepClosing?
  dsimp only
  rw [hk', Option.bind_eq_bind, Option.bind_some, hi, hs, Option.bind_eq_bind, Option.bind_some, hp]
  exact if_pos hidle

/-- An operation takes too long, and its callback, which its timer leads to, starts another
operation and stops the reactor. Then the response to the first one comes. -/
def strandingCallback : List (Action Unit) :=
  [.openSession ⟨.null, .null, .null, .str "u", false⟩ "u",
    .changeSetting 0 (.policy (.int 0) (.bool false) .null .null), .ask 0 .time (.int 1) (some ()),
    .stepInvocation 0, .stepInvocation 0, .stepInvocation 0, .pollReactor, .stepReactor,
    .stepReactor, .stepReactor, .stepReactor, .stepReactor, .stepReactor, .stepReactor,
    .stepReactor, .tick 2, .pollReactor, .stepReactor, .stepReactor, .stepReactor, .stepReactor,
    .ask 0 .time .null none, .stepInvocation 1, .stepInvocation 1, .stepInvocation 1, .stopReactor,
    .returnReactor none, .stepReactor, .pollReactor,
    .postAttempt 0 (.ok (.reply 200 (utf8Bytes "[1]")))]

/-- Where that leads: the loop is over, no attempt is in the pool, and the second call is not
settled. -/
theorem exists_stranded :
    ∃ (w : Client Unit) (call : Call Unit), onReactor.run? strandingCallback = some w
      ∧ w.frontend.kind = .reactor ∧ w.reactor.phase.isOver = true ∧ w.IsAnswered
      ∧ w.calls[1]? = some call ∧ w.IsTakenUp 1 ∧ call.settled = false
      ∧ w.sessions.map Session.busy = [true]
      ∧ (w.run? [.beginClose 0 none, .stepClosing 0]).any
          (fun w' => (w'.act? (.stepClosing 0)).isNone) = true := by
  obtain ⟨w, hrun⟩ := Option.isSome_iff_exists.1
    (show (onReactor.run? strandingCallback).isSome = true by decide +kernel)
  have hfacts : (onReactor.run? strandingCallback).any (fun w =>
      w.frontend.kind == .reactor && w.reactor.phase.isOver
        && w.attempts.all (fun attempt => !attempt.inFlight)
        && (w.calls[1]?).any (fun call => !call.settled)
        && w.invocations.all (fun v => match v.phase with
          | .launching _ => false
          | .unwinding _ _ => false
          | _ => true)
        && w.sessions.map Session.busy == [true]
        && (w.run? [.beginClose 0 none, .stepClosing 0]).any
          (fun w' => (w'.act? (.stepClosing 0)).isNone)) = true := by
    decide +kernel
  rw [hrun] at hfacts
  simp only [Option.any_some, Bool.and_eq_true, beq_iff_eq] at hfacts
  obtain ⟨⟨⟨⟨⟨⟨hkind, hover⟩, hanswered⟩, hcall⟩, hidle⟩, hbusy⟩, hclosing⟩ := hfacts
  cases hc : w.calls[1]? with
  | none =>
    rw [hc] at hcall
    cases hcall
  | some call =>
    rw [hc] at hcall
    refine ⟨w, call, hrun, hkind, hover, ?_, hc, ?_, by simpa using hcall, hbusy, hclosing⟩
    · intro attempt hm
      simpa using List.all_eq_true.1 hanswered attempt hm
    · intro v hm
      have hv := List.all_eq_true.1 hidle v hm
      constructor
      · intro hphase
        rw [hphase] at hv
        cases hv
      · intro e hphase
        rw [hphase] at hv
        cases hv

/-- The second call is stranded: its first job is still in the queue. -/
theorem settled_or_stranded_callback :
    ∃ (w : Client Unit) (call : Call Unit), onReactor.run? strandingCallback = some w
      ∧ w.frontend.kind = .reactor ∧ w.reactor.phase.isOver = true ∧ w.IsAnswered
      ∧ w.calls[1]? = some call ∧ call.settled = false ∧ w.Strands 1 := by
  obtain ⟨w, call, hrun, hkind, hover, hanswered, hc, htaken, hu, -⟩ := exists_stranded
  refine ⟨w, call, hrun, hkind, hover, hanswered, hc, hu, ?_⟩
  obtain ⟨hcalls, -⟩ := (reachable_onReactor hrun).settled_or_stranded hkind hover hanswered
  rcases hcalls hc htaken with hs | hs
  · rw [hu] at hs
    cases hs
  · exact hs

/-- **A callback can strand a call**: after it stopped the reactor on which it started another
operation, that operation is left unsettled, although the loop is over and no attempt is in the
pool; its session stays busy, and closing the session does not get on. -/
theorem stranded_by_callback :
    ∃ (w : Client Unit) (call : Call Unit), Reachable w ∧ w.frontend.kind = .reactor
      ∧ w.reactor.phase.isOver = true ∧ w.IsAnswered ∧ w.calls[1]? = some call ∧ w.IsTakenUp 1
      ∧ call.settled = false ∧ w.sessions.map Session.busy = [true]
      ∧ (w.run? [.beginClose 0 none, .stepClosing 0]).any
          (fun w' => (w'.act? (.stepClosing 0)).isNone) = true := by
  obtain ⟨w, call, hrun, hkind, hover, hanswered, hc, htaken, hu, hbusy, hclosing⟩ :=
    exists_stranded
  exact ⟨w, call, reachable_onReactor hrun, hkind, hover, hanswered, hc, htaken, hu, hbusy,
    hclosing⟩

end Client

end Pubsub
