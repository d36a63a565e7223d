import Pubsub.Client.Run

/-!
# The ledger of a client

Most of the state of a client says where its threads are. What an application relies on is less:
the sessions, which of them an operation holds, the calls, and what callbacks were told. That part
is the **ledger**, and this module says once what a client can do to it. Whatever an action is, it
makes at most one **entry**: a session is opened, changed or closed; an operation claims one, and
then either cannot build its request or has it accepted as a call; the cycle of a call goes on; a
call is settled.

Most actions only move a thread and make no entry. So an invariant of the ledger is proved by a case
for each kind of entry, and holds in every state that runs lead to.

The outcomes that cycles are fed come from the world, and some facts need to know which ones can
come. `Entry P` is therefore an entry in which every outcome fed to a cycle satisfies `P`.
-/

namespace Pubsub

variable {Handler : Type}

/-- A call after a step of its cycle. -/
def Call.after (call : Call Handler) (step : CycleStep) : Call Handler :=
  { call with cycle := step.cycle }

/-- A session after a step of the cycle of its call. -/
def Session.after (s : Session) (step : CycleStep) : Session :=
  { s with cursor := step.cursor }

/-- A session that was just opened: nothing holds it, nothing has come of it, and its origin is in
the form that origins are kept in. -/
structure Session.IsNew (s : Session) : Prop where
  busy : s.busy = false
  idle : s.idle = true
  cursor : s.cursor = Cursor.empty
  lastResult : s.lastResult = none
  origin : ∃ given, normalizeOrigin given = .ok s.profile.origin

/-- What a client keeps of its sessions and calls. -/
structure Ledger (Handler : Type) where
  sessions : List Session
  /-- How many operations on each session are building their requests. -/
  building : Nat → Nat
  calls : List (Call Handler)
  /-- What callbacks were told, oldest first, and for which call. -/
  notices : List (Nat × Handler × Notification)

namespace Ledger

/-- The ledger of a client without sessions. -/
def empty : Ledger Handler := ⟨[], fun _ => 0, [], []⟩

/-! ## What entries write -/

/-- The ledger with the state of a session replaced. -/
def setSession (l : Ledger Handler) (i : Nat) (s : Session) : Ledger Handler :=
  { l with sessions := l.sessions.set i s }

/-- The ledger with one more operation that builds its request. -/
def beginBuilding (l : Ledger Handler) (i : Nat) : Ledger Handler :=
  { l with building := fun j => l.building j + if i = j then 1 else 0 }

/-- The ledger with one operation less that builds its request. -/
def endBuilding (l : Ledger Handler) (i : Nat) : Ledger Handler :=
  { l with building := fun j => l.building j - if i = j then 1 else 0 }

/-- The ledger with one more call. -/
def addCall (l : Ledger Handler) (call : Call Handler) : Ledger Handler :=
  { l with calls := l.calls ++ [call] }

/-- The ledger with the state of a call and of its session replaced. -/
def setCall (l : Ledger Handler) (c : Nat) (call : Call Handler) (s : Session) : Ledger Handler :=
  { l with calls := l.calls.set c call, sessions := l.sessions.set call.session s }

/-- What is told of a call that is settled with this outcome: its callback, if it has one, learns
the result, if there is one. -/
def notice (c : Nat) (call : Call Handler) (outcome : Option Result) :
    List (Nat × Handler × Notification) :=
  match call.callback, outcome with
  | some handler, some result => [(c, handler, .ofResult result)]
  | _, _ => []

/-- Without a result nobody is told anything. -/
@[simp] theorem notice_none (c : Nat) (call : Call Handler) : notice c call none = [] := by
  unfold notice
  split
  · rename_i h
    cases h
  · rfl

/-- The ledger with a call settled: completed with a result, or abandoned. -/
def settle (l : Ledger Handler) (c : Nat) (call : Call Handler) (s : Session)
    (outcome : Option Result) : Ledger Handler :=
  { l.setCall c { call with settled := true } (s.release outcome) with
    notices := l.notices ++ notice c call outcome }

/-- Settling a call whose cycle made a step writes the call and its session over. -/
theorem settle_setCall (l : Ledger Handler) (c : Nat) (call : Call Handler) (s : Session)
    (outcome : Option Result) :
    (l.setCall c call s).settle c call s outcome = l.settle c call s outcome := by
  unfold settle setCall
  dsimp only
  rw [List.set_set, List.set_set]

/-- A call and the session it holds. -/
def callOn? (l : Ledger Handler) (c : Nat) : Option (Call Handler × Session) := do
  let call ← l.calls[c]?
  let s ← l.sessions[call.session]?
  return (call, s)

theorem callOn?_eq_some_iff {l : Ledger Handler} {c : Nat} {call : Call Handler} {s : Session} :
    l.callOn? c = some (call, s)
      ↔ l.calls[c]? = some call ∧ l.sessions[call.session]? = some s := by
  unfold callOn?
  constructor
  · intro h
    obtain ⟨call', hc, h⟩ := Option.bind_eq_some_iff.1 h
    obtain ⟨s', hs, h⟩ := Option.bind_eq_some_iff.1 h
    cases h
    exact ⟨hc, hs⟩
  · rintro ⟨hc, hs⟩
    simp [hc, hs]

/-- A call and its session, once written, are what is found. -/
theorem callOn?_setCall {l : Ledger Handler} {c : Nat} {call : Call Handler} {s : Session}
    (h : l.callOn? c = some (call, s)) (call' : Call Handler) (hs : call'.session = call.session)
    (s' : Session) :
    (l.setCall c call' s').callOn? c = some (call', s') := by
  obtain ⟨hc, hs'⟩ := callOn?_eq_some_iff.1 h
  obtain ⟨hlt, -⟩ := List.getElem?_eq_some_iff.1 hc
  obtain ⟨hlt', -⟩ := List.getElem?_eq_some_iff.1 hs'
  refine callOn?_eq_some_iff.2 ⟨List.getElem?_set_self hlt, ?_⟩
  show (l.sessions.set call'.session s')[call'.session]? = some s'
  exact List.getElem?_set_self (hs ▸ hlt')

/-! ## Entries -/

/-- One entry into a ledger, with the outcomes that cycles are fed satisfying `P`. -/
inductive Entry (P : Outcome → Prop) (l : Ledger Handler) : Ledger Handler → Prop where
  /-- Nothing is entered. -/
  | blank : Entry P l l
  /-- A session was opened. -/
  | opened {s : Session} (hn : s.IsNew) : Entry P l { l with sessions := l.sessions ++ [s] }
  /-- A setting was changed. -/
  | changed {i : Nat} {s t : Session} (hs : l.sessions[i]? = some s) (change : SettingChange)
      (ht : s.set change = (.ok (), t)) : Entry P l (l.setSession i t)
  /-- The positions of some channels, or of all, were cleared. -/
  | cleared {i : Nat} {s : Session} (hs : l.sessions[i]? = some s) (cursor : Cursor)
      (hc : ∀ channel position, cursor.get? channel = some position →
        s.cursor.get? channel = some position) :
      Entry P l (l.setSession i { s with cursor })
  /-- A session was closed. -/
  | closed {i : Nat} {s : Session} (hs : l.sessions[i]? = some s) :
      Entry P l (l.setSession i { s with closed := true })
  /-- An operation claimed a session. -/
  | claimed {i : Nat} {s t : Session} (hs : l.sessions[i]? = some s) (ht : s.claim = .ok t) :
      Entry P l ((l.setSession i t).beginBuilding i)
  /-- The request of an operation could not be built. -/
  | unbuilt {i : Nat} {s : Session} (hs : l.sessions[i]? = some s) (hb : 0 < l.building i) :
      Entry P l ((l.setSession i (s.release none)).endBuilding i)
  /-- The request of an operation was built, and its call made. -/
  | accepted {i : Nat} {s : Session} (hs : l.sessions[i]? = some s) (hb : 0 < l.building i)
      (request : Request) (callback : Option Handler) :
      Entry P l ((l.endBuilding i).addCall (.start i request s.policy callback))
  /-- The cycle of a call made a step. -/
  | resumed {c : Nat} {call : Call Handler} {s : Session} {step : CycleStep} (now : Binary64)
      (fed : Option Outcome) (hc : l.callOn? c = some (call, s)) (hP : ∀ o, fed = some o → P o)
      (hr : call.cycle.resume? s.cursor now fed = some step) :
      Entry P l (l.setCall c (call.after step) (s.after step))
  /-- The cycle of a call made its last step, and the call was settled in consequence: completed
  with its result, or abandoned. -/
  | ended {c : Nat} {call : Call Handler} {s : Session} {step : CycleStep}
      {outcome : Option Result} (now : Binary64) (fed : Option Outcome)
      (hc : l.callOn? c = some (call, s)) (hu : call.settled = false)
      (hP : ∀ o, fed = some o → P o) (hr : call.cycle.resume? s.cursor now fed = some step)
      (ho : ∀ result, outcome = some result → step.effect = .finish result) :
      Entry P l ((l.setCall c (call.after step) (s.after step)).settle c (call.after step)
        (s.after step) outcome)
  /-- A call was abandoned. -/
  | abandoned {c : Nat} {call : Call Handler} {s : Session} (hc : l.callOn? c = some (call, s))
      (hu : call.settled = false) : Entry P l (l.settle c call s none)

end Ledger

/-! ## The ledger of a state -/

namespace InvocationPhase

/-- Is the request being built? -/
def isBuilding : InvocationPhase → Bool
  | claimed => true
  | _ => false

end InvocationPhase

namespace Event

/-- What a callback was told, if that is what happened. -/
def notice? : Event Handler → Option (Nat × Handler × Notification)
  | notified c handler notification => some (c, handler, notification)
  | _ => none

end Event

namespace Client

/-- How many operations on a session are building their requests. -/
def building (w : Client Handler) (i : Nat) : Nat :=
  w.invocations.countP fun v => v.session == i && v.phase.isBuilding

/-- The ledger of a state. -/
def ledger (w : Client Handler) : Ledger Handler :=
  { sessions := w.sessions
    building := w.building
    calls := w.calls
    notices := w.journal.filterMap Event.notice? }

end Client

end Pubsub
