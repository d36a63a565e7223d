import Pubsub.Proofs.Reacting
import Pubsub.Proofs.Stirring

/-!
# Every action is at most one move

An action makes at most one move of the relay of a state (`Client.move_act?`), and the event of the
move is the one that `Client.event?` says. So the relay of every state that runs lead to is sound
(`Client.Reachable.isSound_relay`): every call that is not settled has exactly one baton, and its
cycle stands where the holder of the baton expects it.
-/

namespace Pubsub

variable {Handler : Type}

namespace Client

open Relay

variable {w w' : Client Handler} {clearing : Prop}

/-! ## What stays orderly -/

namespace IsOrderly

variable {r : Reactor Job} {work : Work}

theorem initial : IsOrderly Reactor.initial .none :=
  ⟨by rintro _ ⟨⟩, by rintro _ ⟨⟩, by rintro _ ⟨⟩, fun _ => rfl, fun _ _ => rfl⟩

/-- Anything but a timer that brings a response may be handed to the reactor. -/
theorem enqueue (h : IsOrderly r work) {command : Command Job}
    (hc : ∀ timer, command = .arm timer → ∀ a answer, timer.job ≠ .arrive a answer)
    (signalled : Bool) (created : Nat) :
    IsOrderly { r with queue := r.queue ++ [command], signalled, created } work := by
  refine ⟨?_, h.timers, h.reading, h.ended, h.failed⟩
  intro timer hm
  rcases List.mem_append.1 hm with hm | hm
  · exact h.queue hm
  · exact hc timer (List.mem_singleton.1 hm).symm

/-- While the loop goes on, its thread may do anything. -/
theorem withWork (h : IsOrderly r work) (he : r.phase ≠ .ended) (hf : ∀ e, r.phase ≠ .failed e)
    (work' : Work) : IsOrderly r work' :=
  ⟨h.queue, h.timers, h.reading, fun hp => absurd hp he, fun e hp => absurd hp (hf e)⟩

/-- A loop whose thread does something goes on. -/
theorem goesOn (h : IsOrderly r work) (hw : work ≠ .none) :
    r.phase ≠ .ended ∧ ∀ e, r.phase ≠ .failed e :=
  ⟨fun hp => hw (h.ended hp), fun e hp => hw (h.failed e hp)⟩

theorem turns (h : IsOrderly r work) {r' : Reactor Job} {next : Option Job}
    (ht : r.Turns r' next) (he : r.phase ≠ .ended) (hf : ∀ e, r.phase ≠ .failed e) :
    IsOrderly r' work ∧ r'.phase ≠ .ended ∧ ∀ e, r'.phase ≠ .failed e := by
  cases ht with
  | onward phase hp he' hf' =>
    exact ⟨⟨h.queue, h.timers, fun sockets hs => absurd hs (hp sockets),
      fun hs => absurd hs he', fun e hs => absurd hs (hf' e)⟩, he', hf'⟩
  | @armed timer rest hq =>
    refine ⟨⟨fun hm => h.queue (hq ▸ List.mem_cons_of_mem _ hm), ?_, h.reading, h.ended, h.failed⟩,
      he, hf⟩
    intro timer' hm
    have hperm := Heap.perm_push Timer.before r.timers timer
    rcases List.mem_cons.1 (hperm.mem_iff.1 hm) with rfl | hm
    · exact h.queue (hq ▸ List.mem_cons_self)
    · exact h.timers hm
  | @watched command rest hq _ _ sockets =>
    exact ⟨⟨fun hm => h.queue (hq ▸ List.mem_cons_of_mem _ hm), h.timers, h.reading, h.ended,
      h.failed⟩, he, hf⟩
  | @ran job rest _ hq =>
    exact ⟨⟨fun hm => h.queue (hq ▸ List.mem_cons_of_mem _ hm), h.timers, h.reading, h.ended,
      h.failed⟩, he, hf⟩
  | @fired timer rest _ ht _ =>
    exact ⟨⟨h.queue, fun hm => h.timers (ht.mem_iff.2 (List.mem_cons_of_mem _ hm)), h.reading,
      h.ended, h.failed⟩, he, hf⟩
  | @dropped timer rest ht _ =>
    exact ⟨⟨h.queue, fun hm => h.timers (ht.mem_iff.2 (List.mem_cons_of_mem _ hm)), h.reading,
      h.ended, h.failed⟩, he, hf⟩

theorem poll (h : IsOrderly r .none) (now : Binary64) :
    IsOrderly (r.poll now fun _ => false) .none := by
  unfold Reactor.poll
  split
  · split
    · exact ⟨h.queue, h.timers, by rintro _ ⟨⟩, fun _ => rfl, fun _ _ => rfl⟩
    · split
      · exact ⟨h.queue, h.timers, by rintro _ ⟨⟩, fun _ => rfl, fun _ _ => rfl⟩
      · refine ⟨h.queue, h.timers, ?_, fun _ => rfl, fun _ _ => rfl⟩
        rintro _ ⟨⟩
        exact List.filter_false _
  · exact h

end IsOrderly

/-- **Every action leaves the reactor orderly.** -/
theorem IsOrderly.stirs (h : IsOrderly w.reactor w.work) {action : Action Handler}
    {reactor : Reactor Job} {work : Work} {clock : Binary64}
    (hs : w.Stirs action reactor work clock) : IsOrderly reactor work := by
  cases hs with
  | aside => exact h
  | ticked => exact h
  | @handed _ _ job hcall =>
    obtain ⟨-, hreactor⟩ := Reactor.call_eq_ok hcall
    rw [hreactor]
    exact h.enqueue (by rintro _ ⟨⟩) true w.reactor.created
  | stopped => exact ⟨h.queue, h.timers, h.reading, h.ended, h.failed⟩
  | polled hw _ =>
    rw [hw] at h
    exact h.poll w.clock
  | @turned reactor next _ hstep cancelled work _ =>
    -- There is a step, so the loop goes on.
    have hgoes : w.reactor.phase ≠ .ended ∧ ∀ e, w.reactor.phase ≠ .failed e := by
      constructor <;> intros <;> intro hp <;> rw [Reactor.step?, hp] at hstep <;> cases hstep
    obtain ⟨horderly, he, hf⟩ := h.turns (Reactor.turns_of_step? h.reading hstep) hgoes.1 hgoes.2
    have hbegun := horderly.withWork he hf work
    exact ⟨hbegun.queue, hbegun.timers, hbegun.reading, hbegun.ended, hbegun.failed⟩
  | worked _ hw _ =>
    obtain ⟨he, hf⟩ := h.goesOn hw
    exact h.withWork he hf work
  | broke hw _ =>
    exact ⟨h.queue, h.timers, by rintro _ ⟨⟩, by rintro ⟨⟩, fun _ _ => rfl⟩
  | armed _ hsets hj hschedule _ =>
    have hw : w.work ≠ .none := by
      cases hsets with
      | pause hw => rw [hw]; rintro ⟨⟩
      | alarm hw _ => rw [hw]; rintro ⟨⟩
    obtain ⟨he, hf⟩ := h.goesOn hw
    obtain ⟨-, htimer, hreactor⟩ := Reactor.schedule_eq_ok hschedule
    rw [hreactor]
    refine (h.withWork he hf work).enqueue ?_ true _
    rintro _ ⟨⟩ a answer hjob
    rw [htimer] at hjob
    exact hj a answer hjob

/-! ## Sessions, closings and listeners -/

/-- Closing a frontend makes no call's baton change hands. -/
theorem move_closeFrontend (w : Client Handler) :
    Move clearing w.relay none w.closeFrontend.relay := by
  have hclose : w.frontend.close.kind = w.frontend.kind
      ∧ (w.frontend.poolClosed = true → w.frontend.close.poolClosed = true) := by
    unfold Frontend.close
    split
    · exact ⟨rfl, id⟩
    · split <;> exact ⟨rfl, id⟩
    · exact ⟨rfl, fun _ => rfl⟩
  obtain ⟨hkind, hclosed⟩ := hclose
  have hstill : ∀ stopped, (w.reactor.stopped = true → stopped = true) →
      Move clearing w.relay none
        { w.relay with
          kind := w.frontend.close.kind
          stopped
          closed := w.frontend.close.poolClosed } := by
    intro stopped hs
    rw [hkind]
    exact .still stopped _ hs hclosed
  unfold closeFrontend
  dsimp only
  split
  · exact hstill true fun _ => rfl
  · exact hstill w.reactor.stopped id

theorem exists_setClosing_of_giveUpClosing? {k : Nat} (h : w.giveUpClosing? k = some w') :
    ∃ phase, w' = w.setClosing k phase := by
  unfold giveUpClosing? at h
  obtain ⟨closing, -, h⟩ := Option.bind_eq_some_iff.1 h
  obtain ⟨s, -, h⟩ := Option.bind_eq_some_iff.1 h
  split at h
  · split at h <;> cases h
    exact ⟨_, rfl⟩
  · cases h

theorem move_stepClosing? {k : Nat} (h : w.stepClosing? k = some w') :
    Move clearing w.relay none w'.relay := by
  unfold stepClosing? at h
  obtain ⟨closing, -, h⟩ := Option.bind_eq_some_iff.1 h
  obtain ⟨s, hs, h⟩ := Option.bind_eq_some_iff.1 h
  split at h
  · split at h
    · cases h
      exact move_of_relay_eq rfl
    · split at h <;> cases h <;> exact move_of_relay_eq rfl
  · split at h <;> cases h
    exact move_of_relay_eq rfl
  · cases h
    exact move_of_relay_eq (relay_setSession hs rfl)
  · cases h
    split
    · exact move_closeFrontend w
    · exact move_of_relay_eq rfl
  · cases h

/-- An operation that is only asked for holds no baton. -/
theorem relay_ask (w : Client Handler) (session : Nat) (operation : Operation) (timeout : Json)
    (callback : Option Handler) : (w.ask session operation timeout callback).relay = w.relay := by
  refine Relay.ext rfl rfl rfl ?_ rfl rfl rfl rfl rfl rfl rfl
  show (w.ask session operation timeout callback).batons = w.batons
  have hnone : [(⟨session, operation, timeout, callback, .asked⟩ : Invocation Handler)].filterMap
      (fun v => v.phase.baton?) = [] := rfl
  unfold batons standing ask
  dsimp only
  rw [List.filterMap_append, hnone, List.append_nil]

/-- What a listener does on its own account concerns no call. -/
theorem relay_stepListener? {l : Nat} (h : w.stepListener? l = some w') : w'.relay = w.relay := by
  unfold stepListener? at h
  split at h
  · cases h
  · split at h
    · split at h
      · cases h
        rfl
      · cases h
        exact relay_ask w _ _ _ none
    · split at h
      · cases h
        rfl
      · split at h <;> cases h <;> rfl
      · cases h
    · cases h
      rfl
    · cases h
      rfl
    · split at h <;> cases h <;> rfl
    · split at h <;> cases h <;> rfl
    · cases h

theorem relay_stopListener (w : Client Handler) (receiver : String) :
    (w.stopListener receiver).relay = w.relay := by
  unfold stopListener
  split <;> rfl

theorem relay_startListener (w : Client Handler) (session : Nat) (channels : Json)
    (receiver : Option String) (timeout : Json) (fault : Option Error) :
    (w.startListener session channels receiver timeout fault).2.relay = w.relay := by
  obtain hkept | ⟨r, rfl, hstop | ⟨list, -, henlist⟩⟩ :=
    w.startListener_cases session channels receiver timeout fault
  · rw [hkept]
  · rw [hstop, relay_stopListener]
  · rw [henlist]
    exact relay_stopListener w r

/-! ## Actions -/

/-- **An action is at most one move**, and the event that it is said to be. Cursors are cleared by
nobody but an application. -/
theorem move_act? {action : Action Handler} (hreg : w.ledger.IsRegular) (hs : w.relay.IsSound)
    (ho : IsOrderly w.reactor w.work) (h : w.act? action = some w') :
    Move (∃ i channels, action = .clearCursor i channels) w.relay (w.event? action) w'.relay := by
  cases action with
  | openSession options identity =>
    unfold act? at h
    dsimp only at h
    cases hopen : w.openSession options identity with
    | error e =>
      rw [hopen] at h
      cases h
    | ok w₁ =>
      rw [hopen] at h
      cases h
      unfold openSession at hopen
      split at hopen <;> cases hopen
      rename_i s config hcreate
      have hcursors : (w.sessions ++ [s]).map Session.cursor
          = w.sessions.map Session.cursor ++ [Cursor.empty] := by
        rw [List.map_append, ← (isNew_create hcreate).cursor]
        rfl
      show Move _ w.relay none { w.relay with cursors := (w.sessions ++ [s]).map Session.cursor }
      rw [hcursors]
      exact .opened
  | ask session operation timeout callback =>
    cases h
    exact move_of_relay_eq (relay_ask w session operation timeout callback)
  | changeSetting session change =>
    cases h
    refine move_of_relay_eq ?_
    rcases w.changeSetting_cases session change with hkept | ⟨s, t, hsession, ht, heq⟩
    · rw [hkept]
    · rw [heq]
      obtain ⟨-, ht⟩ := Session.set_eq_ok ht
      exact relay_setSession hsession (by rw [ht])
  | clearCursor session channels =>
    cases h
    unfold clearCursor
    split
    · exact .cleared (r := w.relay) ⟨session, channels, rfl⟩ _
    · exact move_of_relay_eq rfl
  | beginClose session timeout =>
    cases h
    exact move_of_relay_eq rfl
  | closeFrontend =>
    cases h
    exact move_closeFrontend w
  | stopReactor =>
    cases h
    exact .still (r := w.relay) true w.frontend.poolClosed (fun _ => rfl) id
  | cancelTask t => exact move_cancelTask? h
  | startListener session channels receiver timeout fault =>
    cases h
    exact move_of_relay_eq (relay_startListener w session channels receiver timeout fault)
  | stopListener receiver =>
    cases h
    exact move_of_relay_eq (relay_stopListener w receiver)
  | stepInvocation i => exact move_stepInvocation? hreg hs h
  | stepTask t => exact move_stepTask? hreg hs h
  | stepReactor => exact move_stepReactor? hreg hs ho h
  | stepClosing k => exact move_stepClosing? h
  | stepListener l => exact move_of_relay_eq (relay_stepListener? h)
  | answerInvocation i answer => exact move_answerInvocation? h
  | wakeInvocation i => exact move_wakeInvocation? h
  | returnInvocation i raised => exact move_returnInvocation? h
  | answerTask t answer => exact move_answerTask? h
  | wakeTask t => exact move_wakeTask? h
  | returnTask t raised => exact move_returnTask? h
  | pollReactor => exact move_pollReactor? h
  | postAttempt a answer => exact move_postAttempt? hreg hs h
  | returnReactor raised => exact move_returnReactor? h
  | giveUpClosing k =>
    obtain ⟨phase, rfl⟩ := exists_setClosing_of_giveUpClosing? h
    exact move_of_relay_eq rfl
  | finishFrontend =>
    cases h
    exact move_of_relay_eq rfl
  | wakeListener l =>
    unfold act? wakeListener? at h
    dsimp only at h
    split at h <;> cases h
    exact move_of_relay_eq rfl
  | returnListener l raised =>
    obtain ⟨-, -, -, -, ⟨-, rfl⟩ | ⟨e, -, ⟨-, rfl⟩ | ⟨-, rfl⟩⟩⟩ := returnListener?_eq_some h
    all_goals exact move_of_relay_eq rfl
  | collect receiver =>
    cases h
    exact move_of_relay_eq rfl
  | tick now =>
    unfold act? tick? at h
    dsimp only at h
    split at h <;> cases h
    exact move_of_relay_eq rfl
  | draw vector =>
    cases h
    exact move_of_relay_eq rfl

/-! ## Reachable states -/

/-- The relay of a client without calls. -/
theorem isSound_relay_initial (config : Configuration) (fresh : Bytes)
    (frontend : Frontend Handler) : (initial config fresh frontend).relay.IsSound := by
  refine ⟨⟨?_, ?_, ?_, ?_⟩, ⟨?_, ?_, ?_, ?_, ?_, ?_⟩, ⟨?_, ?_, ?_⟩⟩
  · exact Multiset.nodup_zero
  · intro c b hb
    exact absurd hb (Multiset.notMem_zero _)
  · rintro c call ⟨⟩
  · intro c b call hb
    exact absurd hb (Multiset.notMem_zero _)
  · exact Multiset.nodup_zero
  · intro a ha
    exact absurd ha (Multiset.notMem_zero _)
  · intro c a ha
    exact absurd ha (Multiset.notMem_zero _)
  · intro c a call ha
    exact absurd ha (Multiset.notMem_zero _)
  · intro c a call ha
    exact absurd ha (Multiset.notMem_zero _)
  · rintro a ⟨⟩
  · intro c n hn
    exact absurd hn (Multiset.notMem_zero _)
  · intro n hn
    cases hn
  · intro n hn
    cases hn

/-- **In reachable states every call has one baton**, and the reactor is orderly. -/
theorem Reachable.isSound_relay (h : Reachable w) :
    w.relay.IsSound ∧ IsOrderly w.reactor w.work := by
  induction h with
  | initial config fresh frontend =>
    exact ⟨isSound_relay_initial config fresh frontend, IsOrderly.initial⟩
  | act action hw _ ha ih =>
    obtain ⟨hs, ho⟩ := ih
    exact ⟨hs.move (move_act? (ReachableBy.reachable hw).isRegular hs ho ha),
      ho.stirs (stirs_act? ha)⟩

/-- In reachable states an action is one move. -/
theorem Reachable.move_act? (h : Reachable w) {action : Action Handler}
    (ha : w.act? action = some w') :
    Move (∃ i channels, action = .clearCursor i channels) w.relay (w.event? action) w'.relay :=
  Client.move_act? h.isRegular h.isSound_relay.1 h.isSound_relay.2 ha

/-- A client whose operations go through a reactor, before its first action. -/
def onReactor : Client Unit :=
  initial (Configuration.initial ⟨[]⟩ none) [] (Frontend.borrowing .reactor)

theorem reachable_onReactor {actions : List (Action Unit)} {w : Client Unit}
    (h : onReactor.run? actions = some w) : Reachable w :=
  ReachableBy.run (.initial _ _ _) (fun _ _ => trivial) h

end Client

end Pubsub
