import Pubsub.Json.Parser
import Pubsub.Request.Basic
import Pubsub.Text.Digit

/-!
# Reading responses

What a response body has to look like to be an answer to a request, and what result it then is. A
body of another shape is malformed, with a reason that says what is missing; a publish that the
server rejects is a result of its own.
-/

namespace Pubsub

/-- The value that the content of a response decodes to. Where it is not JSON, what the decoder has
to say about it is no part of the reason. -/
def decodeContent (content : Bytes) : Except Error Json :=
  if content.isEmpty then .error (.malformedResponse "empty response body")
  else match Json.decode? content with
    | some value => .ok value
    | none => .error (.malformedResponse "response is not JSON")

namespace Request

/-- The failure of a body that is no answer. -/
def malformed {α : Type} (reason : String) : Except Error α := .error (.malformedResponse reason)

/-- A publish is answered by `[1, "Sent", timetoken]`, or by a list that begins with something else
than one and then gives the reason of the rejection. -/
def interpretPublish : Json → Except Error Result
  | .arr (status :: reason :: rest) =>
    let body := Json.arr (status :: reason :: rest)
    if status.alike (.int 1) then
      .ok { Result.plain .publish .ok (.value body) none with
        timetoken := rest.head?.map Json.toText }
    else .ok (Result.plain .publish .publishFailed (.value body) (some reason.toText))
  | _ => malformed "publish response is not a status list"

/-- The timetoken of a subscribe response: a text or an integer, all digits. -/
def subscribeTimetoken (value : Json) : Except Error String :=
  let check (text : String) : Except Error String :=
    if !text.toList.isEmpty && text.toList.all isDigit then .ok text
    else malformed ("subscribe timetoken is not numeric: " ++ (Json.str text).display)
  match value with
  | .str s => check s
  | .int n => check (Json.int n).toText
  | value => malformed ("subscribe timetoken is not a string: " ++ value.display)

/-- The pieces of a text between commas. -/
def splitCommas (s : String) : List String :=
  (Form.splitAt ',' s.toList).map String.ofList

/-- The channel of each message of a subscribe response. Without a list of channels the messages are
those of the one channel asked for. -/
def subscribeChannels (asked : List String) (messages : List Json) (named : Option Json) :
    Except Error (List String) :=
  match named.filter Json.isTruthy with
  | some value =>
    let channels := splitCommas value.toText
    if channels.length = messages.length then .ok channels
    else malformed ("subscribe response names " ++ toString channels.length ++ " channels for "
      ++ toString messages.length ++ " messages")
  | none =>
    if messages.isEmpty then .ok []
    else match asked with
      | [channel] => .ok (messages.map fun _ => channel)
      | _ => malformed "subscribe response does not identify the channel of each message"

/-- A subscribe is answered by a list of messages and a timetoken, and a list of channels if there
is more than one channel. -/
def interpretSubscribe (cipher : Option Cipher) (asked : List String) : Json → Except Error Result
  | .arr (.arr messages :: timetoken :: rest) => do
    let timetoken ← subscribeTimetoken timetoken
    let channels ← subscribeChannels asked messages rest.head?
    let delivered := messages.map fun message => Message.plain (Delivered.of cipher message)
    return { Result.plain .subscribe .ok (.messages delivered) none with
      messages := some delivered, channels := some channels, timetoken := some timetoken }
  | _ => malformed "subscribe response is not a message list and timetoken"

/-- A record about a message, with the message in it decrypted. -/
def annotatedMessage (cipher : Option Cipher) : Json → Except Error Message
  | .obj fields =>
    if (Json.field? fields "message").isSome then
      .ok (.annotated (fields.map fun (key, value) =>
        (key, if key = "message" then Delivered.of cipher value else .value value)))
    else malformed ("history element lacks a message: " ++ (Json.obj fields).display)
  | value => malformed ("history element lacks a message: " ++ value.display)

/-- A history is answered by a list that begins with the messages, or with records about them. -/
def interpretHistory (cipher : Option Cipher) (includeToken : Option Bool) :
    Json → Except Error Result
  | .arr (.arr messages :: rest) => do
    let delivered ←
      if includeToken = some true then messages.mapM (annotatedMessage cipher)
      else pure (messages.map fun message => Message.plain (Delivered.of cipher message))
    return { Result.plain .history .ok (.messages delivered) none with
      messages := some delivered, timetoken := rest[1]?.map Json.toText }
  | _ => malformed "history response is not a message list"

/-- A presence query is answered by an object with an occupancy and a list of identities. -/
def interpretHereNow : Json → Except Error Result
  | .obj fields =>
    if (Json.field? fields "occupancy").isNone then
      malformed "here_now response lacks an occupancy"
    else match Json.field? fields "uuids" with
      | some (.arr _) => .ok (Result.plain .hereNow .ok (.value (.obj fields)) none)
      | _ => malformed "here_now uuids is not a list"
  | _ => malformed "here_now response lacks an occupancy"

/-- A time query is answered by a list that begins with the time, as anything that denotes an
integer. That a value denotes none because it is infinite is not caught here. -/
def interpretTime : Json → Except Error Result
  | .arr (first :: _) =>
    match first.toInteger with
    | .ok n =>
      .ok { Result.plain .time .ok (.value (.int n)) none with
        timetoken := some (Json.int n).toText }
    | .error .integerOfInfinity => .error .integerOfInfinity
    | .error _ => malformed ("server time is not an integer: " ++ first.display)
  | _ => malformed "time response is not a list"

/-- The result that a decoded body of a successful response is. -/
def interpret (r : Request) (body : Json) : Except Error Result :=
  match r.query with
  | .publish .. => interpretPublish body
  | .subscribe channels .. => interpretSubscribe r.cipher channels body
  | .history _ _ includeToken => interpretHistory r.cipher includeToken body
  | .hereNow _ => interpretHereNow body
  | .time => interpretTime body
  | .bare => .error .abstractRequest

end Request

end Pubsub
