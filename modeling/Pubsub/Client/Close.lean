import Pubsub.Client.Basic

/-!
# Closing

A session is closed in stages: the thread that closes it looks whether it is closed already and
whether it can wait at all, waits for the signal that no operation holds it, marks it as closed, and
then closes the frontend if the session owns it. Other threads may act between any two stages. A
thread that was woken goes on even if the session was claimed again in the meantime.
-/

namespace Pubsub

namespace Client

variable {Handler : Type}

/-- The client after its frontend was closed, and the reactor stopped if the frontend started it. -/
def closeFrontend (w : Client Handler) : Client Handler :=
  let w := { w with frontend := w.frontend.close }
  if w.frontend.kind = .reactor ∧ w.frontend.ownsReactor then { w with reactor := w.reactor.stop }
  else w

/-- The client after its event loop did what was scheduled. -/
def finishFrontend (w : Client Handler) : Client Handler :=
  { w with frontend := w.frontend.finishClose }

/-- The client after a thread began to close a session. -/
def beginClose (w : Client Handler) (session : Nat) (timeout : Option Binary64) : Client Handler :=
  { w with closings := w.closings ++ [⟨session, timeout, .asked⟩] }

/-- The client with the phase of a closing replaced. -/
def setClosing (w : Client Handler) (k : Nat) (phase : ClosingPhase) : Client Handler :=
  { w with closings := w.closings.modify k fun closing => { closing with phase } }

/-- The next step that a closing takes by itself. -/
def stepClosing? (w : Client Handler) (k : Nat) : Option (Client Handler) := do
  let closing ← w.closings[k]?
  let s ← w.sessions[closing.session]?
  match closing.phase with
  | .asked =>
    if s.closed then some (w.setClosing k (.ended (.ok ())))
    else if s.busy && !w.frontend.isWaitable then
      some (w.setClosing k (.ended (.error .cannotWait)))
    else some (w.setClosing k .waiting)
  | .waiting => if s.idle then some (w.setClosing k .woken) else none
  | .woken => some ((w.setSession closing.session { s with closed := true }).setClosing k .marked)
  | .marked =>
    let w := if s.ownsFrontend then w.closeFrontend else w
    some (w.setClosing k (.ended (.ok ())))
  | .ended _ => none

/-- The time that a closing may wait is over, and the session is still held. -/
def giveUpClosing? (w : Client Handler) (k : Nat) : Option (Client Handler) := do
  let closing ← w.closings[k]?
  let s ← w.sessions[closing.session]?
  match closing.phase, closing.timeout with
  | .waiting, some seconds =>
    if s.idle then none
    else some (w.setClosing k (.ended (.error (.stillBusy seconds.toTenths))))
  | _, _ => none

end Client

end Pubsub
