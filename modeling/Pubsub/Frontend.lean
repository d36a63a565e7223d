import Pubsub.Retry.Outcome
import Pubsub.Settings

/-!
# Frontends

A frontend decides how the cycle of a call is driven. A **blocking** one drives it on the thread
that asked for the operation, which waits. One on an **event loop** makes a task of it. One on a
**reactor** sends requests from a pool of workers and does everything else on the thread of the
reactor.

A frontend that was lent its connections, or its reactor, does not close them.
-/

namespace Pubsub

/-! ## Exchanges -/

/-- What one exchange with the server came to. -/
inductive Answer where
  | response (status : Int) (content : Bytes)
  /-- The network raised an error of this name. -/
  | fault (name text : String)
deriving Inhabited

namespace Answer

/-- The network errors that say that something took too long. -/
def timeouts : List String :=
  ["ConnectTimeout", "ReadTimeout", "WriteTimeout", "PoolTimeout", "TimeoutException"]

/-- The network errors that are no failures of an exchange: they escape from the frontend. -/
def escaping : List String := ["InvalidURL"]

/-- An error as a failed exchange describes it. -/
def describeFault (name text : String) : String :=
  if text = "" then name else name ++ ": " ++ text

/-- The outcome of the attempt that the exchange belongs to, or the error that escapes. -/
def outcome : Answer → Except Error Outcome
  | response status content => .ok (.reply status content)
  | fault name text =>
    if timeouts.contains name then .ok (.failure .timeout (some (describeFault name text)))
    else if escaping.contains name then .error (.network name text)
    else .ok (.failure .ioError (some (describeFault name text)))

end Answer

/-! ## Frontends -/

/-- The kinds of frontend. -/
inductive FrontendKind where
  | blocking
  | eventLoop
  | reactor
deriving DecidableEq, Repr, Inhabited

/-- A frontend. -/
structure Frontend (Handler : Type) where
  kind : FrontendKind
  /-- The callback of calls that were given none. -/
  callback : Option Handler
  /-- Is there a running event loop? -/
  loopRunning : Bool
  /-- The name under which its own connections present the client; none if the connections were lent
  to it. -/
  userAgent : Option String
  connectionsClosed : Bool
  /-- Will the event loop close the connections? -/
  closeScheduled : Bool
  /-- Does the worker pool refuse requests? -/
  poolClosed : Bool
  /-- Did it start its reactor itself? -/
  ownsReactor : Bool
deriving Inhabited

namespace Frontend

variable {Handler : Type}

/-- A frontend that was lent its connections and its reactor. -/
def borrowing (kind : FrontendKind) : Frontend Handler :=
  ⟨kind, none, true, none, false, false, false, false⟩

/-- Is the character an ASCII one? -/
def isAscii (c : Char) : Bool := c.toNat < 128

/-- The name under which a frontend presents the client, which has to be ASCII text. -/
def checkUserAgent : Json → Except Error String
  | .str s =>
    let start := (s.toList.takeWhile isAscii).length
    match s.toList.drop start with
    | [] => .ok s
    | first :: rest =>
      .error (.userAgentNotAscii first start
        (start + 1 + (rest.takeWhile fun c => !isAscii c).length))
  | value => .error (.userAgentNotText value.kindName)

/-- The name under which a new frontend presents the client. -/
def findUserAgent (c : Configuration) : Except Error String × Configuration :=
  let (value, c) := c.value .userAgent
  (value >>= checkUserAgent, c)

/-- Does an operation return only when it is settled? -/
def isBlocking (f : Frontend Handler) : Bool := f.kind == .blocking

/-- Can another thread wait for a call to be settled? The event loop needs the thread itself. -/
def isWaitable (f : Frontend Handler) : Bool := f.kind != .eventLoop

/-- Are the connections its own? -/
def ownsConnections (f : Frontend Handler) : Bool := f.userAgent.isSome

/-- The frontend closed, which stops its reactor too if it started it. A running event loop closes
the connections later. -/
def close (f : Frontend Handler) : Frontend Handler :=
  match f.kind with
  | .blocking => { f with connectionsClosed := f.connectionsClosed || f.ownsConnections }
  | .eventLoop =>
    if f.loopRunning then { f with closeScheduled := f.closeScheduled || f.ownsConnections }
    else { f with connectionsClosed := f.connectionsClosed || f.ownsConnections }
  | .reactor =>
    { f with
      poolClosed := true
      connectionsClosed := f.connectionsClosed || f.ownsConnections }

/-- The frontend after its event loop closed the connections. -/
def finishClose (f : Frontend Handler) : Frontend Handler :=
  { f with
    connectionsClosed := f.connectionsClosed || f.closeScheduled
    closeScheduled := false }

end Frontend

end Pubsub
