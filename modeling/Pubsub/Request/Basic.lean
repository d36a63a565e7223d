import Pubsub.Cursor
import Pubsub.Profile
import Pubsub.Result
import Pubsub.Settings
import Pubsub.Wire.Percent

/-!
# Requests on the wire

A `Request` is what one operation sends, every time it is sent: it is built once from the profile of
the session, the cursor and the settings, and retries send the same again. Its address is the
origin, a path whose segments are coded one by one, and a query. A segment that is a list of names
is coded name by name, with plain commas between them, so a comma that is written always separates
names.

`build` states in which order the arguments of an operation are checked, since the first fault found
is the one reported.
-/

namespace Pubsub

/-- An operation as an application asks for it. What an application may get wrong is not checked
yet, so these arguments are arbitrary values. -/
inductive Operation where
  | publish (channel message : Json)
  /-- Subscribe to one channel. -/
  | subscribe (channel : Json)
  /-- Subscribe to several channels. -/
  | subscribeMulti (channels : Json)
  | history (channel limit : Json)
  /-- A history that may ask for the timetokens of the messages. -/
  | historyEx (channel limit includeToken : Json)
  | hereNow (channel : Json)
  | time
  /-- The interface of requests, which asks for nothing. -/
  | bare
deriving Inhabited

/-- What a request asks for, with checked arguments. -/
inductive Query where
  | publish (publishKey channel signature message : String)
  /-- The channels, the position in the path, and the position of each channel. -/
  | subscribe (channels : List String) (timetoken : String) (timetokens : List String)
  /-- `includeToken` is none if the parameter is not sent. -/
  | history (channel : String) (limit : Int) (includeToken : Option Bool)
  | hereNow (channel : String)
  | time
  | bare
deriving DecidableEq, Repr, Inhabited

/-- A segment of a path: a text, or a list of names. -/
inductive Segment where
  | text (s : String)
  | names (names : List String)
deriving DecidableEq, Repr

/-- The coded form of a segment. -/
def Segment.encode : Segment → String
  | text s => Percent.encode s
  | names list => ",".intercalate (list.map Percent.encode)

/-- A request. -/
structure Request where
  origin : String
  uuid : String
  subscribeKey : String
  /-- The cipher that its response is read with. -/
  cipher : Option Cipher
  /-- How long an attempt may take, in seconds. -/
  timeout : Binary64
  /-- What it asks for. -/
  query : Query
deriving Inhabited

namespace Query

/-- The kind of operation. -/
def kind : Query → Kind
  | publish .. => .publish
  | subscribe .. => .subscribe
  | history .. => .history
  | hereNow .. => .hereNow
  | time => .time
  | bare => .bare

/-- The channels whose position a successful response sets, if the query names channels at all. -/
def channels? : Query → Option (List String)
  | subscribe channels .. => some channels
  | _ => none

/-- What messages call a request for the query. -/
def requestName : Query → String
  | publish .. => "Publish"
  | subscribe .. => "Subscribe"
  | history .. => "History"
  | hereNow .. => "HereNow"
  | time => "Time"
  | bare => "Request"

end Query

namespace Request

/-- The kind of operation. -/
def kind (r : Request) : Kind := r.query.kind

/-- The segments of the path. -/
def path (r : Request) : List Segment :=
  match r.query with
  | .publish publishKey channel signature message =>
    [.text "publish", .text publishKey, .text r.subscribeKey, .text signature, .text channel,
      .text "0", .text message]
  | .subscribe channels timetoken _ =>
    [.text "subscribe", .text r.subscribeKey, .names channels, .text "0", .text timetoken]
  | .history channel .. =>
    [.text "v2", .text "history", .text "sub-key", .text r.subscribeKey, .text "channel",
      .text channel]
  | .hereNow channel =>
    [.text "v2", .text "presence", .text "sub-key", .text r.subscribeKey, .text "channel",
      .text channel]
  | .time => [.text "time", .text "0"]
  | .bare => []

/-- Do the texts differ among each other? -/
def disagree : List String → Bool
  | [] => false
  | s :: rest => rest.any (· != s)

/-- The names and values of the query. A subscription whose channels are at different positions
sends the position of each. -/
def parameters (r : Request) : List (String × String) :=
  match r.query with
  | .subscribe _ _ timetokens =>
    (if disagree timetokens then [("tt", ",".intercalate timetokens)] else []) ++ [("uuid", r.uuid)]
  | .history _ limit includeToken =>
    ("count", toString limit)
      :: (match includeToken with
        | none => []
        | some true => [("include_token", "true")]
        | some false => [("include_token", "false")])
      ++ [("uuid", r.uuid)]
  | .bare => []
  | _ => [("uuid", r.uuid)]

/-- The address; a bare request has none. -/
def url? (r : Request) : Option String :=
  match r.query with
  | .bare => none
  | _ =>
    some (r.origin ++ "/" ++ "/".intercalate (r.path.map Segment.encode)
      ++ "?" ++ Form.encode r.parameters)

/-- The method of the request. -/
def method (_ : Request) : String := "GET"

/-- The request as messages show it. -/
def display (r : Request) : String :=
  "<" ++ r.kind.name ++ " " ++ r.url?.getD "None" ++ ">"

end Request

/-! ## Checking arguments -/

/-- A channel name is a text, not empty, without the comma that separates names. -/
def checkChannel : Json → Except Error String
  | .str s =>
    if s = "" then .error .emptyChannel
    else if s.toList.contains ',' then .error (.commaInChannel s)
    else .ok s
  | value => .error (.channelNotText value.kindName)

/-- The channel names of a subscription: at least one, and all of them valid. -/
def checkChannels : Json → Except Error (List String)
  | .str _ => .error .channelsAreText
  | value => do
    let elements ← value.elements
    let channels ← elements.mapM checkChannel
    if channels.isEmpty then throw .noChannels
    return channels

/-- The number of messages of a history: at least one. -/
def checkLimit (value : Json) : Except Error Int := do
  let limit ← value.toInteger
  if limit < 1 then throw .limitNotPositive
  return limit

/-! ## Building -/

namespace Query

/-- The query of a publish. `fresh` is the vector that encryption uses if it needs a fresh one. -/
def ofPublish (p : Profile) (fresh : Bytes) (channel message : Json) : Except Error Query := do
  if p.publishKey = "" then throw .noPublishKey
  let channel ← checkChannel channel
  let content ← match p.cipher with
    | none => pure message
    | some cipher => (cipher.encrypt fresh message).map Json.str
  let serialized ← content.encode.mapError Error.unwritable
  let signature ← match p.secretKey with
    | none => pure "0"
    | some secretKey =>
      p.scheme.sign ⟨p.publishKey, p.subscribeKey, secretKey, channel, serialized⟩
  return .publish p.publishKey channel signature serialized

/-- The query of a subscription to channels, from their positions. -/
def ofSubscribe (cursor : Cursor) (channels : Json) : Except Error Query := do
  let channels ← checkChannels channels
  let timetoken ← cursor.position channels
  return .subscribe channels timetoken (cursor.positions channels)

/-- The query of a history. -/
def ofHistory (channel limit includeToken : Json) : Except Error Query := do
  let channel ← checkChannel channel
  let limit ← checkLimit limit
  return .history channel limit (match includeToken with
    | .null => none
    | value => some value.isTruthy)

/-- The query of an operation. -/
def ofOperation (p : Profile) (cursor : Cursor) (fresh : Bytes) : Operation → Except Error Query
  | .publish channel message => ofPublish p fresh channel message
  | .subscribe channel => ofSubscribe cursor (.arr [channel])
  | .subscribeMulti channels => ofSubscribe cursor channels
  | .history channel limit => ofHistory channel limit .null
  | .historyEx channel limit includeToken => ofHistory channel limit includeToken
  | .hereNow channel => (checkChannel channel).map .hereNow
  | .time => .ok .time
  | .bare => .ok .bare

end Query

/-- The name of the setting that an operation takes its timeout from. -/
def Operation.timeoutSetting : Operation → Setting
  | .subscribe _ | .subscribeMulti _ => .subscribeTimeout
  | _ => .timeout

/-- The check that comes before anything else: the one channel of a subscription to one channel is
looked at before the timeout is. -/
def Operation.precheck : Operation → Except Error Unit
  | .subscribe channel => (checkChannel channel).map fun _ => ()
  | _ => .ok ()

/-- The request of an operation, with the configuration that is left after its settings were looked
up. -/
def Request.build (p : Profile) (cursor : Cursor) (fresh : Bytes) (c : Configuration)
    (op : Operation) (timeout : Json) : Except Error Request × Configuration :=
  match op.precheck with
  | .error e => (.error e, c)
  | .ok () =>
    match c.resolveTimeout timeout op.timeoutSetting.name with
    | (.error e, c) => (.error e, c)
    | (.ok seconds, c) =>
      ((Query.ofOperation p cursor fresh op).map fun query =>
        { origin := p.origin, uuid := p.uuid, subscribeKey := p.subscribeKey, cipher := p.cipher,
          timeout := seconds, query }, c)

end Pubsub
