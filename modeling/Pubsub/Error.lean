import Pubsub.Crypto.Cbc
import Pubsub.Json.Display

/-!
# What can go wrong

Every way in which an operation is refused or fails before it has a result is a constructor of
`Error` that names the cause and carries what the message mentions. The wording is in
`Error.message`, the family under which the failure is reported in `Error.family`, and both are read
by the reports that are printed as well as by the application.
-/

namespace Pubsub

/-- A cause of failure. -/
inductive Error where
  /-- A value of this kind denotes no integer. -/
  | notAnInteger (kind : String)
  /-- The text denotes no integer. -/
  | malformedInteger (text : String)
  /-- The text of an integer has more digits than are read. -/
  | tooManyDigits (digits : Nat)
  /-- The double that is no number has no integer part. -/
  | integerOfNan
  /-- An infinity has no integer part. -/
  | integerOfInfinity
  /-- A value of this kind denotes no double. -/
  | notADouble (kind : String)
  /-- The text denotes no double. -/
  | malformedDouble (text : String)
  /-- The integer is out of the range of doubles. -/
  | doubleOutOfRange
  /-- A value of this kind cannot be compared with a number. -/
  | incomparable (kind : String)
  /-- A value of this kind has no elements. -/
  | notIterable (kind : String)
  /-- A channel was given by something else than a name. -/
  | channelNotText (kind : String)
  /-- A channel name is empty. -/
  | emptyChannel
  /-- A channel name contains the sign that separates channel names. -/
  | commaInChannel (name : String)
  /-- One name was given where a sequence of names is expected. -/
  | channelsAreText
  /-- A subscription names no channel. -/
  | noChannels
  /-- A history of no messages was asked for. -/
  | limitNotPositive
  /-- The session has no publish key. -/
  | noPublishKey
  /-- A cipher was asked for without a key. -/
  | emptyCipherKey
  /-- A cipher key is a value of another kind than a text. -/
  | cipherKeyNotText (kind : String)
  /-- No signature scheme has this name. -/
  | unknownScheme (name : Json)
  /-- A value of this kind cannot be looked up. -/
  | unhashable (kind : String)
  /-- The signature scheme cannot sign. -/
  | abstractScheme
  /-- The kind of request cannot interpret a response. -/
  | abstractRequest
  /-- The value has no text on the wire. -/
  | unwritable (cause : Json.EncodeError)
  /-- The bytes are no JSON text. -/
  | undecodable
  /-- The block cipher was given sizes that it has no meaning for. -/
  | refusedByCipher (cause : Cbc.SizeError)
  /-- The origin is empty. -/
  | emptyOrigin
  /-- The identity of the client is empty. -/
  | emptyUuid
  /-- The operating system refused to read a file. -/
  | unreadable (name text : String)
  /-- The settings directory is not absolute. -/
  | relativeDirectory
  /-- The settings file holds something else than an object. -/
  | settingsNotObject (path : String)
  /-- The settings file sets a name that is no setting. -/
  | unknownFileSetting (name path : String)
  /-- There is no setting of this name. -/
  | unknownSetting (name : String)
  /-- No result code has this number. -/
  | unknownCode (number : Int)
  /-- A response has not the shape of an answer to its request. -/
  | malformedResponse (reason : String)
  /-- A request of this kind names no channels whose position could be set. -/
  | withoutChannels (kind : String)
  /-- A request is in flight on the session. -/
  | busy
  /-- The session cannot wait for a request that its caller has to drive. -/
  | cannotWait
  /-- The request in flight did not settle in time. -/
  | stillBusy (seconds : String)
  /-- The session is closed. -/
  | closed
  /-- A call was completed twice. -/
  | alreadyCompleted (request : String)
  /-- There is no event loop to run on. -/
  | noEventLoop
  /-- The name under which the client presents itself is no text. -/
  | userAgentNotText (kind : String)
  /-- The name under which the client presents itself has a run of characters that are not ASCII: it
  begins with `first` at the position `start` and stops before the position `stop`. -/
  | userAgentNotAscii (first : Char) (start stop : Nat)
  /-- The task that drove a call was cancelled. -/
  | cancelled
  /-- The connections of the frontend are closed. -/
  | connectionClosed
  /-- The worker pool takes no more requests. -/
  | poolShutDown
  /-- The reactor takes no more work. -/
  | reactorStopped
  /-- No timer goes by this name. -/
  | unknownTimer (name : String)
  /-- A listener needs a frontend that blocks. -/
  | listenerNeedsBlocking
  /-- What should receive messages cannot be called. -/
  | receiverNotCallable
  /-- There are no weak references to a receiver of this kind. -/
  | notReferable (kind : String)
  /-- No further thread can be started. -/
  | noThread
  /-- The listener was never completed, and cannot be told to stop. -/
  | incompleteListener
  /-- No listener is registered for this receiver. -/
  | notRegistered (receiver : String)
  /-- The application raised an error of its own in a completion callback. -/
  | callbackFailed (text : String)
  /-- The application raised an error of its own on a value. -/
  | applicationFailed (text : String)
  /-- The network has no further reply to give. -/
  | noReply
  /-- The network raised an error that is not one of its own failures. -/
  | network (name text : String)
deriving Inhabited

namespace Error

/-- The wording of an error. -/
def message : Error → String
  | notAnInteger kind =>
    "int() argument must be a string, a bytes-like object or a real number, not '" ++ kind ++ "'"
  | malformedInteger text =>
    "invalid literal for int() with base 10: " ++ String.ofList ((quoteText text).take 200)
  | tooManyDigits digits =>
    "Exceeds the limit (4300 digits) for integer string conversion: value has "
      ++ toString digits ++ " digits; use sys.set_int_max_str_digits() to increase the limit"
  | integerOfNan => "cannot convert float NaN to integer"
  | integerOfInfinity => "cannot convert float infinity to integer"
  | notADouble kind => "float() argument must be a string or a real number, not '" ++ kind ++ "'"
  | malformedDouble text => "could not convert string to float: " ++ String.ofList (quoteText text)
  | doubleOutOfRange => "int too large to convert to float"
  | incomparable kind => "'<' not supported between instances of '" ++ kind ++ "' and 'int'"
  | notIterable kind => "'" ++ kind ++ "' object is not iterable"
  | channelNotText kind => "channel names must be strings, not " ++ kind
  | emptyChannel => "channel names cannot be empty"
  | commaInChannel name =>
    "channel names cannot contain a comma: " ++ String.ofList (quoteText name)
  | channelsAreText => "channels must be a sequence of channel names, not a string"
  | noChannels => "at least one channel is required to subscribe"
  | limitNotPositive => "the history limit must be a positive integer"
  | noPublishKey => "publish requires a publish key"
  | emptyCipherKey => "the cipher key must be a non-empty string"
  | cipherKeyNotText kind => "'" ++ kind ++ "' object has no attribute 'encode'"
  | unknownScheme name => "unknown signature scheme: " ++ name.display
  | unhashable kind => "unhashable type: '" ++ kind ++ "'"
  | abstractScheme => "Signature subclasses must implement sign()"
  | abstractRequest => "Request subclasses must implement interpret()"
  | unwritable .tooDeep => "Recursion limit reached"
  | unwritable .integerTooLarge => "Integer exceeds 64-bit range"
  | undecodable => ""
  | refusedByCipher cause => cause.message
  | emptyOrigin => "the origin cannot be empty"
  | emptyUuid => "the UUID cannot be empty"
  | unreadable _ text => text
  | relativeDirectory => "the default directory must be an absolute path"
  | settingsNotObject path => "expected a JSON object in " ++ path
  | unknownFileSetting name path => "unknown setting '" ++ name ++ "' in " ++ path
  | unknownSetting name => String.ofList (quoteText name)
  | unknownCode number => toString number ++ " is not a valid Code"
  | malformedResponse reason => reason
  | withoutChannels kind => "'" ++ kind ++ "' object has no attribute 'channels'"
  | busy => "a request is in progress on this context"
  | cannotWait => "cannot wait for an asyncio request from its own loop"
  | stillBusy seconds => "request still in progress after " ++ seconds ++ " sec"
  | closed => "this context is closed"
  | alreadyCompleted request => "call already completed: " ++ request
  | noEventLoop => "no running event loop"
  | userAgentNotText kind => "Header value must be str or bytes, not <class '" ++ kind ++ "'>"
  | userAgentNotAscii first start stop =>
    "'ascii' codec can't encode "
      ++ (if stop = start + 1 then
          "character '" ++ String.ofList (codePointEscape first) ++ "' in position "
            ++ toString start
        else "characters in position " ++ toString start ++ "-" ++ toString (stop - 1))
      ++ ": ordinal not in range(128)"
  | cancelled => ""
  | connectionClosed => "Cannot send a request, as the client has been closed."
  | poolShutDown => "cannot schedule new futures after shutdown"
  | reactorStopped => "the reactor has been stopped"
  | unknownTimer name => String.ofList (quoteText name)
  | listenerNeedsBlocking => "a background listener requires a blocking frontend"
  | receiverNotCallable => "the listening method must be callable"
  | notReferable kind => "cannot create weak reference to '" ++ kind ++ "' object"
  | noThread => "can't start new thread"
  | incompleteListener => "'_Listener' object has no attribute 'alarm'"
  | notRegistered receiver => String.ofList (quoteText receiver)
  | callbackFailed text => text
  | applicationFailed text => text
  | noReply => "no scripted reply left"
  | network _ text => text

/-- The family under which an error is reported. -/
def family : Error → String
  | notAnInteger _ | notADouble _ | incomparable _ | notIterable _ | channelNotText _
  | channelsAreText | unwritable _ | userAgentNotText _ | listenerNeedsBlocking
  | receiverNotCallable | notReferable _ | unhashable _ => "TypeError"
  | doubleOutOfRange | integerOfInfinity => "OverflowError"
  | abstractScheme | abstractRequest => "NotImplementedError"
  | undecodable => "JSONDecodeError"
  | unknownSetting _ | unknownTimer _ | notRegistered _ => "KeyError"
  | withoutChannels _ | cipherKeyNotText _ | incompleteListener => "AttributeError"
  | cancelled => "CancelledError"
  | userAgentNotAscii _ _ _ => "UnicodeEncodeError"
  | malformedResponse _ => "MalformedResponse"
  | busy | cannotWait | stillBusy _ => "ContextBusy"
  | closed | alreadyCompleted _ | noEventLoop | connectionClosed | poolShutDown | noThread
  | callbackFailed _ => "RuntimeError"
  | reactorStopped => "ReactorStopped"
  | noReply => "ScriptExhausted"
  | unreadable name _ | network name _ => name
  | malformedInteger _ | tooManyDigits _ | integerOfNan | malformedDouble _ | emptyChannel
  | commaInChannel _ | noChannels | limitNotPositive | noPublishKey | emptyCipherKey
  | unknownScheme _ | refusedByCipher _ | emptyOrigin | emptyUuid | relativeDirectory
  | settingsNotObject _ | unknownFileSetting _ _ | unknownCode _
  | applicationFailed _ => "ValueError"

/-- The error on one line, its family first. -/
def describe (e : Error) : String :=
  if e.message = "" then e.family else e.family ++ ": " ++ e.message

/-- Is the error one of those that handlers of exceptions catch? A cancellation passes them. -/
def isException : Error → Bool
  | cancelled => false
  | _ => true

/-- What something came to does not pass a handler of exceptions: it returned, or raised one. -/
def IsCaught (raised : Option Error) : Prop := ∀ e, raised = some e → e.isException = true

theorem isCaught_or (raised : Option Error) :
    IsCaught raised ∨ ∃ e, raised = some e ∧ e.isException = false := by
  cases raised with
  | none => exact .inl (by rintro e ⟨⟩)
  | some e =>
    cases he : e.isException with
    | true => exact .inl (by rintro _ ⟨⟩; exact he)
    | false => exact .inr ⟨e, rfl, he⟩

/-- Does the error say that a request is in flight? -/
def isBusy : Error → Bool
  | busy | cannotWait | stillBusy _ => true
  | _ => false

end Error

/-! ## Computations that can fail -/

section

variable {ε α β : Type}

/-- A computation whose value was rewritten came to a value itself. -/
theorem map_eq_ok_iff {x : Except ε α} {f : α → β} {b : β} :
    x.map f = .ok b ↔ ∃ a, x = .ok a ∧ f a = b := by
  constructor
  · intro h
    cases x with
    | error e => cases h
    | ok a => exact ⟨a, rfl, Except.ok.inj h⟩
  · rintro ⟨a, rfl, rfl⟩
    rfl

/-- Two computations after each other came to a value exactly if the first one did, and the second
one did from there. -/
theorem bind_eq_ok_iff {x : Except ε α} {f : α → Except ε β} {b : β} :
    (x >>= f) = .ok b ↔ ∃ a, x = .ok a ∧ f a = .ok b := by
  cases x with
  | error e => simp [bind, Except.bind]
  | ok a => simp [bind, Except.bind]

@[simp] theorem mapError_ok {ε' : Type} (f : ε → ε') (a : α) :
    (Except.ok a).mapError f = .ok a := rfl

@[simp] theorem mapError_error {ε' : Type} (f : ε → ε') (e : ε) :
    (Except.error e : Except ε α).mapError f = .error (f e) := rfl

/-- A computation whose error was rewritten comes to the values it came to. -/
theorem mapError_eq_ok_iff {ε' : Type} {x : Except ε α} {f : ε → ε'} {a : α} :
    x.mapError f = .ok a ↔ x = .ok a := by
  cases x <;> simp

end

end Pubsub
