import Pubsub.Request.Basic
import Pubsub.Retry.Policy

/-!
# Sessions

A session is one conversation with the service: a profile, a retry policy, a cursor, and at most one
operation in progress. An operation **claims** the session before it builds its request and
**releases** it when it is settled, or when its request cannot be built; while the session is
claimed every other operation is refused, and so is every change of a setting. A closed session
refuses operations for ever.

`busy` says whether the session is claimed. `idle` is the signal on which closing waits; it is a
second field because the two are written separately. Claiming and releasing are sequences of small
steps, each of which reads or writes one thing. `Session.claim` and `Session.release` are these
sequences as a thread takes them that nobody overtakes; what comes of it when threads do overtake
each other in between is the subject of `Pubsub.Client.Crowd`.
-/

namespace Pubsub

/-- A session. -/
structure Session where
  /-- Who talks to whom. -/
  profile : Profile
  /-- Which failures are retried. -/
  policy : RetryPolicy
  /-- The positions of channels. -/
  cursor : Cursor
  /-- Does an operation hold the session? -/
  busy : Bool
  /-- The signal that no operation holds the session. -/
  idle : Bool
  /-- What the latest completed operation came to. -/
  lastResult : Option Result
  /-- Does the session refuse operations for ever? -/
  closed : Bool
  /-- Does closing the session close its frontend? -/
  ownsFrontend : Bool
deriving Inhabited

/-- What an application gives to open a session. -/
structure SessionOptions where
  publishKey : Json
  subscribeKey : Json
  /-- The origin; null stands for the setting. -/
  origin : Json
  /-- The identity; null stands for a fresh one. -/
  uuid : Json
  /-- Is the frontend to be closed with the session? -/
  ownsFrontend : Bool
deriving Inhabited

/-- A change of a setting. -/
inductive SettingChange where
  /-- Another retry policy, of which the delay and the budget may be null, to be kept. -/
  | policy (mask reports delay budget : Json)
  /-- Another cipher. -/
  | cipherKey (key : Json) (freshVector : Bool)
  /-- Another secret key, and perhaps another signature scheme. -/
  | secretKey (key : Option String) (choice : SchemeChoice)
  /-- Another origin. -/
  | origin (origin : Json)
  /-- Another identity. -/
  | uuid (uuid : Json)
deriving Inhabited

namespace Session

/-! ## Opening -/

/-- The origin that the options ask for. -/
def originOf (options : SessionOptions) (c : Configuration) : Except Error String × Configuration :=
  match options.origin with
  | .null =>
    let (value, c) := c.value .origin
    (value >>= fun value => normalizeOrigin value.toText, c)
  | value => (normalizeOrigin value.toText, c)

/-- The retry policy of a new session. -/
def initialPolicy (c : Configuration) : Except Error RetryPolicy × Configuration :=
  let (delay, c) := c.value .retryDelay
  let (budget, c) := c.value .retryBudget
  (do RetryPolicy.ofArguments (.int RetryPolicy.retryDefault) (.bool true) (← delay) (← budget), c)

/-- A new session; `identity` is the fresh identity that it takes if it is given none. -/
def create (options : SessionOptions) (identity : String) (c : Configuration) :
    Except Error Session × Configuration :=
  match originOf options c with
  | (.error e, c) => (.error e, c)
  | (.ok origin, c) =>
    let uuid := match options.uuid with
      | .null => identity
      | value => value.toText
    let profile := Profile.initial (keyOfArgument options.publishKey)
      (keyOfArgument options.subscribeKey) origin uuid
    let (policy, c) := initialPolicy c
    (policy.map fun policy =>
      { profile, policy, cursor := Cursor.empty, busy := false, idle := true, lastResult := none,
        closed := false, ownsFrontend := options.ownsFrontend }, c)

/-! ## Claiming and releasing -/

/-- A closed session is claimed by nobody. -/
def checkOpen (s : Session) : Except Error Unit :=
  if s.closed then .error .closed else .ok ()

/-- While an operation holds the session, nobody else gets it, and no setting is changed. -/
def checkIdle (s : Session) : Except Error Unit :=
  if s.busy then .error .busy else .ok ()

/-- The flag that an operation holds the session goes up. -/
def raiseBusy (s : Session) : Session := { s with busy := true }

/-- The signal that no operation holds the session goes down. -/
def clearIdle (s : Session) : Session := { s with idle := false }

/-- The result of a completed operation becomes the latest one. -/
def recordResult (s : Session) (result : Option Result) : Session :=
  { s with lastResult := result.or s.lastResult }

/-- The flag that an operation holds the session goes down. -/
def dropBusy (s : Session) : Session := { s with busy := false }

/-- The signal that no operation holds the session goes up. -/
def setIdle (s : Session) : Session := { s with idle := true }

/-- The session claimed for an operation. It is looked at whether the session is closed before the
lock is taken under which the rest is done. -/
def claim (s : Session) : Except Error Session := do
  s.checkOpen
  s.checkIdle
  return s.raiseBusy.clearIdle

/-- The session released by the operation that held it, with the result of that operation if it was
completed. No lock is taken for this. -/
def release (s : Session) (result : Option Result) : Session :=
  (s.recordResult result).dropBusy.setIdle

/-! ## Settings

As with a profile, a change gives what came of it and the session that it leaves. Whether an
operation holds the session is looked at first, and not again when the change is written.
-/

/-- The profile changed. -/
def writeProfile (s : Session) (f : Profile → Except Error Unit × Profile) :
    Except Error Unit × Session :=
  ((f s.profile).1, { s with profile := (f s.profile).2 })

/-- The retry policy changed; a null delay or budget stays as it is. -/
def writePolicy (s : Session) (mask reports delay budget : Json) : Except Error Unit × Session :=
  let delay := match delay with
    | .null => .float s.policy.delay
    | delay => delay
  let budget := match budget, s.policy.budget with
    | .null, some budget => .float budget
    | budget, _ => budget
  match RetryPolicy.ofArguments mask reports delay budget with
  | .error e => (.error e, s)
  | .ok policy => (.ok (), { s with policy })

/-- A setting changed, whoever holds the session. -/
def write (s : Session) : SettingChange → Except Error Unit × Session
  | .policy mask reports delay budget => s.writePolicy mask reports delay budget
  | .cipherKey key freshVector => s.writeProfile (·.setCipherKey key freshVector)
  | .secretKey key choice => s.writeProfile (·.setSecretKey key choice)
  | .origin origin => s.writeProfile (·.setOrigin origin)
  | .uuid uuid => s.writeProfile (·.setUuid uuid)

/-- Change a setting, which is refused while an operation holds the session. -/
def set (s : Session) (change : SettingChange) : Except Error Unit × Session :=
  match s.checkIdle with
  | .error e => (.error e, s)
  | .ok () => s.write change

/-- The session as messages show it. -/
def display (s : Session) : String :=
  "<Context " ++ s.profile.uuid ++ " " ++ s.profile.origin ++ " "
    ++ (if s.busy then "busy" else "idle") ++ ">"

/-! ## What claiming and releasing do -/

theorem claim_eq_ok_iff (s t : Session) :
    s.claim = .ok t
      ↔ s.closed = false ∧ s.busy = false ∧ t = { s with busy := true, idle := false } := by
  unfold claim checkOpen checkIdle
  cases hc : s.closed <;> cases hb : s.busy <;>
    simp [bind, Except.bind, pure, Except.pure, raiseBusy, clearIdle, hc, eq_comm]

@[simp] theorem busy_release (s : Session) (result : Option Result) :
    (s.release result).busy = false := rfl

@[simp] theorem idle_release (s : Session) (result : Option Result) :
    (s.release result).idle = true := rfl

/-- **A claimed session refuses claims**, for the reason that it is closed if it is. -/
theorem claim_of_busy {s : Session} (h : s.busy = true) :
    s.claim = .error (if s.closed then .closed else .busy) := by
  unfold claim checkOpen checkIdle
  rw [h]
  cases s.closed <;> rfl

/-- **A closed session refuses claims**, whether it is claimed or not. -/
theorem claim_of_closed {s : Session} (h : s.closed = true) : s.claim = .error .closed := by
  unfold claim checkOpen
  rw [h]
  rfl

/-! ## What changes of settings do -/

/-- **A change touches the profile or the policy**, and nothing else of the session. -/
theorem snd_write (s : Session) (change : SettingChange) :
    (s.write change).2
      = { s with profile := (s.write change).2.profile, policy := (s.write change).2.policy } := by
  cases change with
  | policy mask reports delay budget =>
    unfold write writePolicy
    dsimp only
    split <;> rfl
  | cipherKey key freshVector => rfl
  | secretKey key choice => rfl
  | origin origin => rfl
  | uuid uuid => rfl

/-- **A change that fails leaves the session as it was**: no setting is written before it is known
that the change will be made. -/
theorem write_eq_error {s t : Session} {change : SettingChange} {e : Error}
    (h : s.write change = (.error e, t)) : t = s := by
  have hprofile : ∀ {f : Profile → Except Error Unit × Profile},
      (∀ {p q : Profile}, f p = (.error e, q) → q = p) → s.writeProfile f = (.error e, t) →
      t = s := by
    intro f hf h
    obtain ⟨hfails, rfl⟩ := Prod.mk.inj h
    have hkept : (f s.profile).2 = s.profile := hf (Prod.ext hfails rfl)
    simp only [hkept]
  cases change with
  | policy mask reports delay budget =>
    unfold write writePolicy at h
    dsimp only at h
    split at h <;> cases h
    rfl
  | cipherKey key freshVector =>
    exact hprofile (f := (·.setCipherKey key freshVector)) Profile.setCipherKey_eq_error h
  | secretKey key choice =>
    exact hprofile (f := (·.setSecretKey key choice)) Profile.setSecretKey_eq_error h
  | origin origin => exact hprofile (f := (·.setOrigin origin)) Profile.setOrigin_eq_error h
  | uuid uuid => exact hprofile (f := (·.setUuid uuid)) Profile.setUuid_eq_error h

/-- A change was made if no operation held the session when it was asked for, and nothing else was
wrong with it. -/
theorem set_eq_ok_iff {s t : Session} {change : SettingChange} :
    s.set change = (.ok (), t) ↔ s.busy = false ∧ s.write change = (.ok (), t) := by
  unfold set checkIdle
  cases s.busy <;> simp

theorem set_eq_ok {s t : Session} {change : SettingChange} (h : s.set change = (.ok (), t)) :
    s.busy = false ∧ t = { s with profile := t.profile, policy := t.policy } := by
  obtain ⟨hb, hwrite⟩ := set_eq_ok_iff.1 h
  have ht := s.snd_write change
  rw [hwrite] at ht
  exact ⟨hb, ht⟩

theorem set_eq_error {s t : Session} {change : SettingChange} {e : Error}
    (h : s.set change = (.error e, t)) : t = s := by
  unfold set at h
  split at h
  · cases h
    rfl
  · exact write_eq_error h

/-- **A claimed session refuses every change.** -/
theorem set_of_busy {s : Session} (h : s.busy = true) (change : SettingChange) :
    s.set change = (.error .busy, s) := by
  unfold set checkIdle
  rw [h]
  rfl

end Session

end Pubsub
