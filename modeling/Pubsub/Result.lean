import Pubsub.Cipher

/-!
# Results

Every operation that was accepted ends in one `Result`: a code, a text for people, the response body
as far as one was read, and for the operations that deliver messages the messages, the channels they
came from and the position after them. The number of a code is also its bit in a retry mask.
-/

namespace Pubsub

/-- The outcome of an operation. -/
inductive Code where
  | ok
  | occupied
  | timeout
  | ioError
  | httpError
  | formatError
  | publishFailed
  | decryptionError
deriving DecidableEq, Repr, Inhabited

namespace Code

/-- The codes in the order of their numbers. -/
def all : List Code :=
  [ok, occupied, timeout, ioError, httpError, formatError, publishFailed, decryptionError]

/-- The number of a code. -/
def number : Code → Nat
  | ok => 0
  | occupied => 1
  | timeout => 2
  | ioError => 3
  | httpError => 4
  | formatError => 5
  | publishFailed => 6
  | decryptionError => 7

/-- The code of a number. -/
def ofNumber (n : Int) : Except Error Code :=
  match all.find? (fun code => (code.number : Int) = n) with
  | some code => .ok code
  | none => .error (.unknownCode n)

/-- The name of a code in reports. -/
def name : Code → String
  | ok => "OK"
  | occupied => "OCCUPIED"
  | timeout => "TIMEOUT"
  | ioError => "IO_ERROR"
  | httpError => "HTTP_ERROR"
  | formatError => "FORMAT_ERROR"
  | publishFailed => "PUBLISH_FAILED"
  | decryptionError => "DECRYPTION_ERROR"

/-- What a code means. -/
def description : Code → String
  | ok => "success"
  | occupied => "another request is already in progress"
  | timeout => "timed out waiting for a response"
  | ioError => "communication error"
  | httpError => "unexpected HTTP status"
  | formatError => "unexpected response format"
  | publishFailed => "publish rejected by the server"
  | decryptionError => "message could not be decrypted"

end Code

/-- The kind of an operation, or of a result that the application made itself. -/
inductive Kind where
  | publish
  | subscribe
  | history
  | hereNow
  | time
  /-- The interface of requests, which is of no kind. -/
  | bare
  /-- A kind that is no operation's. -/
  | custom (name : String)
deriving DecidableEq, Repr, Inhabited

namespace Kind

/-- The name of a kind in reports. -/
def name : Kind → String
  | publish => "publish"
  | subscribe => "subscribe"
  | history => "history"
  | hereNow => "here_now"
  | time => "time"
  | bare => "None"
  | custom name => name

/-- The kind of a name. -/
def ofName (s : String) : Kind :=
  if s = "publish" then publish
  else if s = "subscribe" then subscribe
  else if s = "history" then history
  else if s = "here_now" then hereNow
  else if s = "time" then time
  else custom s

end Kind

/-- A message as it is handed to the application. -/
inductive Message where
  /-- The message itself. -/
  | plain (content : Delivered)
  /-- A record about the message, whose fields are handed on in their order; the one that holds the
  message is decrypted. -/
  | annotated (fields : List (String × Delivered))
deriving Inhabited

/-- The body of a result: the response as it was read, or the messages in it. -/
inductive Body where
  | value (v : Json)
  | messages (ms : List Message)
deriving Inhabited

/-- The terminal outcome of one operation. -/
structure Result where
  /-- The kind of the operation. -/
  kind : Kind
  /-- What came of it. -/
  code : Code
  /-- The response body; null if none was read. -/
  body : Body
  /-- A description for people. -/
  text : String
  /-- The messages delivered. -/
  messages : Option (List Message)
  /-- The channel of each message. -/
  channels : Option (List String)
  /-- The position after the messages, or the time. -/
  timetoken : Option String
deriving Inhabited

namespace Result

/-- A result with nothing but a code, a body and a text; without a text, it is the description of
the code. -/
def plain (kind : Kind) (code : Code) (body : Body) (text : Option String) : Result :=
  ⟨kind, code, body, text.getD code.description, none, none, none⟩

/-- Did the operation succeed? -/
def isOk (r : Result) : Bool := r.code == .ok

/-- The result as messages show it. -/
def display (r : Result) : String :=
  "<Result " ++ r.kind.name ++ " " ++ r.code.name ++ ": " ++ r.text ++ ">"

end Result

end Pubsub
