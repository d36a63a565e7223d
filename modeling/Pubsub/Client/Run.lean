import Pubsub.Client.Close
import Pubsub.Client.Dispatch
import Pubsub.Client.Listen

/-!
# Runs of a client

Everything that can happen to a client is an **action**: something that an application asks for, a
step that a thread takes by itself, or an answer of the world to a thread that waits for one. Most
actions are possible only in some states, and `Client.act?` says in which and what comes of them. A
run is a sequence of actions from a client without sessions, each possible where it is taken; the
states that runs lead to are the **reachable** ones. Actions of different threads may follow each
other in any order, so a run is an interleaving of the threads.
-/

namespace Pubsub

variable {Handler : Type}

/-- What can happen to a client. -/
inductive Action (Handler : Type) where
  -- What an application does.
  | openSession (options : SessionOptions) (identity : String)
  | ask (session : Nat) (operation : Operation) (timeout : Json) (callback : Option Handler)
  | changeSetting (session : Nat) (change : SettingChange)
  | clearCursor (session : Nat) (channels : Option (List String))
  | beginClose (session : Nat) (timeout : Option Binary64)
  | closeFrontend
  | stopReactor
  | cancelTask (task : Nat)
  | startListener (session : Nat) (channels : Json) (receiver : Option String) (timeout : Json)
      (fault : Option Error)
  | stopListener (receiver : String)
  -- What a thread does by itself.
  | stepInvocation (invocation : Nat)
  | stepTask (task : Nat)
  | stepReactor
  | stepClosing (closing : Nat)
  | stepListener (listener : Nat)
  -- What the world answers.
  | answerInvocation (invocation : Nat) (answer : Except Error Outcome)
  | wakeInvocation (invocation : Nat)
  | returnInvocation (invocation : Nat) (raised : Option Error)
  | answerTask (task : Nat) (answer : Except Error Outcome)
  | wakeTask (task : Nat)
  | returnTask (task : Nat) (raised : Option Error)
  | pollReactor
  | postAttempt (attempt : Nat) (answer : Except Error Outcome)
  | returnReactor (raised : Option Error)
  | giveUpClosing (closing : Nat)
  | finishFrontend
  | wakeListener (listener : Nat)
  | returnListener (listener : Nat) (raised : Option Error)
  /-- A receiver exists no more. -/
  | collect (receiver : String)
  /-- The clock goes on. -/
  | tick (now : Binary64)
  /-- The random source will give this vector. -/
  | draw (vector : Bytes)
deriving Inhabited

namespace Client

/-- The client after an action, where the action is possible. -/
def act? (w : Client Handler) : Action Handler → Option (Client Handler)
  | .openSession options identity => (w.openSession options identity).toOption
  | .ask session operation timeout callback => some (w.ask session operation timeout callback)
  | .changeSetting session change => some (w.changeSetting session change).2
  | .clearCursor session channels => some (w.clearCursor session channels)
  | .beginClose session timeout => some (w.beginClose session timeout)
  | .closeFrontend => some w.closeFrontend
  | .stopReactor => some w.stopReactor
  | .cancelTask t => w.cancelTask? t
  | .startListener session channels receiver timeout fault =>
    some (w.startListener session channels receiver timeout fault).2
  | .stopListener receiver => some (w.stopListener receiver)
  | .stepInvocation i => w.stepInvocation? i
  | .stepTask t => w.stepTask? t
  | .stepReactor => w.stepReactor?
  | .stepClosing k => w.stepClosing? k
  | .stepListener l => w.stepListener? l
  | .answerInvocation i answer => w.answerInvocation? i answer
  | .wakeInvocation i => w.wakeInvocation? i
  | .returnInvocation i raised => w.returnInvocation? i raised
  | .answerTask t answer => w.answerTask? t answer
  | .wakeTask t => w.wakeTask? t
  | .returnTask t raised => w.returnTask? t raised
  | .pollReactor => w.pollReactor?
  | .postAttempt a answer => w.postAttempt? a answer
  | .returnReactor raised => w.returnReactor? raised
  | .giveUpClosing k => w.giveUpClosing? k
  | .finishFrontend => some w.finishFrontend
  | .wakeListener l => w.wakeListener? l
  | .returnListener l raised => w.returnListener? l raised
  | .collect receiver => some (w.collect receiver)
  | .tick now => w.tick? now
  | .draw vector => some { w with fresh := vector }

/-- The client after the actions of a run. -/
def run? (w : Client Handler) (actions : List (Action Handler)) : Option (Client Handler) :=
  actions.foldlM act? w

@[simp] theorem run?_nil (w : Client Handler) : w.run? [] = some w := rfl

theorem run?_cons (w : Client Handler) (action : Action Handler) (rest : List (Action Handler)) :
    w.run? (action :: rest) = (w.act? action).bind fun w' => w'.run? rest := rfl

theorem run?_singleton (w : Client Handler) (action : Action Handler) :
    w.run? [action] = w.act? action := by
  rw [run?_cons]
  cases w.act? action <;> rfl

/-- A run in two parts. -/
theorem run?_append (w : Client Handler) (first rest : List (Action Handler)) :
    w.run? (first ++ rest) = (w.run? first).bind fun w' => w'.run? rest :=
  List.foldlM_append

/-- What every action keeps, every run keeps. -/
theorem of_run? {P : Client Handler → Prop}
    (hkeep : ∀ {u v : Client Handler} {action : Action Handler}, P u → u.act? action = some v → P v)
    {w w' : Client Handler} {actions : List (Action Handler)} (h : P w)
    (hr : w.run? actions = some w') : P w' := by
  induction actions generalizing w with
  | nil =>
    cases hr
    exact h
  | cons action rest ih =>
    rw [run?_cons] at hr
    obtain ⟨v, hv, hr⟩ := Option.bind_eq_some_iff.1 hr
    exact ih (hkeep h hv) hr

/-- **A moment of a run**: in the state `u` the run from `w` takes the action `a`, which leads to
`u'`. -/
inductive Occurs : Client Handler → List (Action Handler) → Client Handler → Action Handler →
    Client Handler → Prop where
  | now {w w' : Client Handler} {action : Action Handler} {rest : List (Action Handler)}
      (h : w.act? action = some w') : Occurs w (action :: rest) w action w'
  | later {w v u u' : Client Handler} {action a : Action Handler} {rest : List (Action Handler)}
      (h : w.act? action = some v) (ho : Occurs v rest u a u') : Occurs w (action :: rest) u a u'

/-- A moment of a run is its first one, or a moment of the rest. -/
theorem Occurs.now_or_later {w v u u' : Client Handler} {action a : Action Handler}
    {rest : List (Action Handler)} (h : w.Occurs (action :: rest) u a u')
    (hv : w.act? action = some v) : (u = w ∧ a = action ∧ u' = v) ∨ v.Occurs rest u a u' := by
  cases h with
  | now h => exact Or.inl ⟨rfl, rfl, Option.some.inj (h.symm.trans hv)⟩
  | later h ho =>
    obtain rfl := Option.some.inj (h.symm.trans hv)
    exact Or.inr ho

theorem Occurs.mem {w u u' : Client Handler} {a : Action Handler} {actions : List (Action Handler)}
    (h : w.Occurs actions u a u') : a ∈ actions := by
  induction h with
  | now h => exact List.mem_cons_self
  | later h ho ih => exact List.mem_cons_of_mem _ ih

/-- A moment of the first part of a run is a moment of the run. -/
theorem Occurs.append_left {w u u' : Client Handler} {a : Action Handler}
    {first : List (Action Handler)} (h : w.Occurs first u a u') (rest : List (Action Handler)) :
    w.Occurs (first ++ rest) u a u' := by
  induction h with
  | now h => exact .now h
  | later h ho ih => exact .later h ih

/-- A moment of what comes after the first part of a run is a moment of the run. -/
theorem Occurs.append_right {w v u u' : Client Handler} {a : Action Handler}
    {first rest : List (Action Handler)} (hr : w.run? first = some v)
    (h : v.Occurs rest u a u') : w.Occurs (first ++ rest) u a u' := by
  induction first generalizing w with
  | nil =>
    cases hr
    exact h
  | cons action first ih =>
    rw [run?_cons] at hr
    obtain ⟨x, hx, hr⟩ := Option.bind_eq_some_iff.1 hr
    exact .later hx (ih hr)

/-- A moment divides its run into what comes before and what comes after. -/
theorem Occurs.exists_run? {w w' u u' : Client Handler} {a : Action Handler}
    {actions : List (Action Handler)} (h : w.Occurs actions u a u')
    (hr : w.run? actions = some w') :
    ∃ before after, actions = before ++ a :: after ∧ w.run? before = some u
      ∧ u.act? a = some u' ∧ u'.run? after = some w' := by
  induction h with
  | @now w v a rest h =>
    rw [run?_cons, h, Option.bind_some] at hr
    exact ⟨[], rest, rfl, rfl, h, hr⟩
  | @later w v u u' action a rest h ho ih =>
    rw [run?_cons, h, Option.bind_some] at hr
    obtain ⟨before, after, rfl, hbefore, ha, hafter⟩ := ih hr
    refine ⟨action :: before, after, rfl, ?_, ha, hafter⟩
    rw [run?_cons, h]
    exact hbefore

/-- The states that runs lead to whose actions all satisfy `P`. -/
inductive ReachableBy (P : Action Handler → Prop) : Client Handler → Prop where
  | initial (config : Configuration) (fresh : Bytes) (frontend : Frontend Handler) :
      ReachableBy P (initial config fresh frontend)
  | act {w w' : Client Handler} (action : Action Handler) :
      ReachableBy P w → P action → w.act? action = some w' → ReachableBy P w'

/-- The states that runs lead to. -/
abbrev Reachable : Client Handler → Prop := ReachableBy fun _ => True

/-- What runs under a restriction lead to, other runs lead to as well. -/
theorem ReachableBy.reachable {P : Action Handler → Prop} {w : Client Handler}
    (h : ReachableBy P w) : Reachable w := by
  induction h with
  | initial config fresh frontend => exact .initial config fresh frontend
  | act action _ _ ha ih => exact ih.act action trivial ha

/-- What every action keeps in the reachable states, every run from one of them keeps. -/
theorem ReachableBy.of_run? {P : Client Handler → Prop}
    (hkeep : ∀ {u v : Client Handler} {action : Action Handler}, Reachable u → P u →
      u.act? action = some v → P v)
    {w w' : Client Handler} {actions : List (Action Handler)} (hw : Reachable w) (h : P w)
    (hr : w.run? actions = some w') : P w' :=
  (Client.of_run? (P := fun v => Reachable v ∧ P v)
    (fun hu ha => ⟨hu.1.act _ trivial ha, hkeep hu.1 hu.2 ha⟩) ⟨hw, h⟩ hr).2

/-- A run of actions that satisfy `P` leads from a state that such runs lead to on to another. -/
theorem ReachableBy.run {P : Action Handler → Prop} {w w' : Client Handler} (h : ReachableBy P w)
    {actions : List (Action Handler)} (hP : ∀ action ∈ actions, P action)
    (hr : w.run? actions = some w') : ReachableBy P w' := by
  induction actions generalizing w with
  | nil =>
    cases hr
    exact h
  | cons action rest ih =>
    rw [run?_cons] at hr
    obtain ⟨v, hv, hr⟩ := Option.bind_eq_some_iff.1 hr
    exact ih (h.act action (hP action List.mem_cons_self) hv)
      (fun a ha => hP a (List.mem_cons_of_mem action ha)) hr

end Client

end Pubsub
