import Pubsub.Json.Convert
import Pubsub.Json.Parser

/-!
# Settings

Six settings have built-in values, which a settings file and environment variables override, the
variables last. The first setting that is asked for loads them all, and the values loaded then stay
in force until they are discarded by `reload`; so between two reloads every answer comes from one
snapshot. The directory of the settings file is found once in the same way.

A `Configuration` is all of that: the environment, the file, and what has been remembered of them.
The operations return the configuration they leave beside their answer, because a failed load
remembers no settings but may have found the directory.
-/

namespace Pubsub

/-- The settings there are. -/
inductive Setting where
  | origin
  | timeout
  | subscribeTimeout
  | retryDelay
  | retryBudget
  | userAgent
deriving DecidableEq, Repr

namespace Setting

/-- The settings in the order in which they are listed. -/
def all : List Setting := [origin, timeout, subscribeTimeout, retryDelay, retryBudget, userAgent]

/-- The name of a setting. -/
def name : Setting → String
  | origin => "origin"
  | timeout => "timeout"
  | subscribeTimeout => "subscribe_timeout"
  | retryDelay => "retry_delay"
  | retryBudget => "retry_budget"
  | userAgent => "user_agent"

/-- The setting of a name. -/
def ofName? (s : String) : Option Setting := all.find? (·.name == s)

/-- The built-in value of a setting. -/
def builtin : Setting → Json
  | origin => .str "http://pubsub.pubnub.com"
  | timeout => .float 10
  | subscribeTimeout => .float 310
  | retryDelay => .float 1
  | retryBudget => .null
  | userAgent => .str "pnclient/0.3"

/-- The environment variable that overrides a setting. -/
def environmentName? : Setting → Option String
  | origin => some "PNCLIENT_ORIGIN"
  | timeout => some "PNCLIENT_TIMEOUT"
  | subscribeTimeout => some "PNCLIENT_SUBSCRIBE_TIMEOUT"
  | retryDelay => some "PNCLIENT_RETRY_DELAY"
  | retryBudget => none
  | userAgent => none

end Setting

/-- A value for every setting. -/
abbrev Settings := Setting → Json

namespace Settings

/-- The built-in values. -/
def builtin : Settings := Setting.builtin

/-- The settings with one of them changed. -/
def set (settings : Settings) (s : Setting) (value : Json) : Settings :=
  fun t => if t = s then value else settings t

/-- The value of the setting of a name. -/
def named (settings : Settings) (name : String) : Except Error Json :=
  match Setting.ofName? name with
  | some s => .ok (settings s)
  | none => .error (.unknownSetting name)

end Settings

/-- The environment variables of the process. -/
structure Environment where
  entries : List (String × String)
deriving Inhabited

namespace Environment

/-- The value of a variable that is set. -/
def get? (env : Environment) (name : String) : Option String :=
  (env.entries.find? (·.1 == name)).map (·.2)

/-- The environment without a variable. -/
def unset (env : Environment) (name : String) : Environment :=
  ⟨env.entries.filter (·.1 != name)⟩

/-- The environment with a variable set. -/
def set (env : Environment) (name value : String) : Environment :=
  ⟨(name, value) :: (env.unset name).entries⟩

/-- May the character stand in the name of a variable that a text mentions? -/
def isNameChar (c : Char) : Bool := c.isAlphanum || c = '_'

/-- The text with the variables it mentions, as `$NAME` or between braces, replaced by their values;
unknown names stay. The values are not searched again. The fuel bounds the number of mentions. -/
def expandFrom (env : Environment) : Nat → List Char → List Char
  | 0, s => s
  | _ + 1, [] => []
  | fuel + 1, '$' :: rest =>
    match rest with
    | '{' :: inner =>
      let name := inner.takeWhile (· != '}')
      match inner.drop name.length with
      | '}' :: after =>
        match env.get? (String.ofList name) with
        | some value => value.toList ++ expandFrom env fuel after
        | none => '$' :: '{' :: name ++ '}' :: expandFrom env fuel after
      | _ => '$' :: expandFrom env fuel rest
    | rest =>
      let name := rest.takeWhile isNameChar
      if name.isEmpty then '$' :: expandFrom env fuel rest
      else
        let after := rest.drop name.length
        match env.get? (String.ofList name) with
        | some value => value.toList ++ expandFrom env fuel after
        | none => '$' :: name ++ expandFrom env fuel after
  | fuel + 1, c :: rest => c :: expandFrom env fuel rest

/-- The text with the variables it mentions replaced by their values. -/
def expand (env : Environment) (s : String) : String :=
  String.ofList (env.expandFrom s.length s.toList)

end Environment

/-- The path of a file in a directory. -/
def joinPath (directory file : String) : String :=
  if directory.toList.isEmpty || directory.toList.getLast? == some '/' then directory ++ file
  else directory ++ "/" ++ file

/-- Where settings come from, and what is remembered of them. -/
structure Configuration where
  /-- The environment of the process. -/
  env : Environment
  /-- The content of the settings file, if there is one. -/
  file : Option Bytes
  /-- The settings directory, once found. -/
  found : Option String
  /-- The settings, once loaded. -/
  loaded : Option Settings
  /-- The files opened so far. -/
  opened : List String
  /-- The error that the operating system raises on reading the settings file, if it does. -/
  refusal : Option Error
deriving Inhabited

namespace Configuration

/-- The configuration of a new process. -/
def initial (env : Environment) (file : Option Bytes) : Configuration :=
  ⟨env, file, none, none, [], none⟩

/-- The variable that names the settings directory. -/
def homeVariable : String := "PNCLIENT_HOME"

/-- The settings directory: the one found before, else the one that the environment names, else the
one in the home directory of the user. It is remembered. -/
def directory (c : Configuration) : Option String × Configuration :=
  match c.found with
  | some path => (some path, c)
  | none =>
    match c.env.get? homeVariable with
    | some path => (some path, { c with found := some path })
    | none =>
      match c.env.get? "HOME" with
      | some home =>
        let path := joinPath home ".pnclient"
        (some path, { c with found := some path })
      | none => (none, c)

/-- Make a directory the settings directory, in the environment too. It has to be absolute once its
variables are replaced. -/
def setDirectory (c : Configuration) (value : Json) : Except Error Configuration :=
  let path := c.env.expand value.toText
  if path.toList.head? == some '/' then
    .ok { c with env := c.env.set homeVariable path, found := some path }
  else .error .relativeDirectory

/-- What reading the settings file comes to; there may be no such file. -/
def content (c : Configuration) : Except Error (Option Bytes) :=
  match c.refusal with
  | some e => .error e
  | none => .ok c.file

/-- The settings with those of the file put over them. -/
def applyFile (settings : Settings) (path : String) : List (String × Json) → Except Error Settings
  | [] => .ok settings
  | (key, value) :: rest =>
    match Setting.ofName? key with
    | some s => applyFile (settings.set s value) path rest
    | none => .error (.unknownFileSetting key path)

/-- The settings with those of the file in the directory put over the built-in ones. -/
def readFile (path : String) : Option Bytes → Except Error Settings
  | none => .ok Settings.builtin
  | some bytes =>
    match Json.decode? bytes with
    | none => .error .undecodable
    | some (.obj fields) => applyFile Settings.builtin path fields
    | some _ => .error (.settingsNotObject path)

/-- The value that an environment variable gives a setting: a text for the origin, a number for the
others. -/
def variableValue (s : Setting) (text : String) : Except Error Json :=
  match s with
  | .origin => .ok (.str text)
  | _ => (Json.doubleOfText text).map .float

/-- The settings with those of the environment put over them. -/
def applyEnvironment (env : Environment) (settings : Settings) :
    List Setting → Except Error Settings
  | [] => .ok settings
  | s :: rest =>
    match s.environmentName?.bind env.get? with
    | none => applyEnvironment env settings rest
    | some text => do
      let value ← variableValue s text
      applyEnvironment env (settings.set s value) rest

/-- Read the settings afresh. -/
def load (c : Configuration) : Except Error Settings × Configuration :=
  match c.directory with
  | (none, c) => (applyEnvironment c.env Settings.builtin Setting.all, c)
  | (some base, c) =>
    let path := joinPath base "config.json"
    let c := { c with opened := c.opened ++ [path] }
    (c.content >>= readFile path >>= fun settings =>
      applyEnvironment c.env settings Setting.all, c)

/-- The settings in force: the ones loaded before, or freshly read ones, which are remembered if
they could be read. -/
def settings (c : Configuration) : Except Error Settings × Configuration :=
  match c.loaded with
  | some settings => (.ok settings, c)
  | none =>
    match c.load with
    | (.ok settings, c) => (.ok settings, { c with loaded := some settings })
    | (.error e, c) => (.error e, c)

/-- The value of a setting. -/
def value (c : Configuration) (s : Setting) : Except Error Json × Configuration :=
  let (settings, c) := c.settings
  (settings.map (· s), c)

/-- The value of the setting of a name. -/
def get (c : Configuration) (name : String) : Except Error Json × Configuration :=
  let (settings, c) := c.settings
  (settings >>= (·.named name), c)

/-- Forget the settings and the directory. -/
def reload (c : Configuration) : Configuration := { c with found := none, loaded := none }

/-- The seconds that a timeout argument means. Without one, or with a negative one, the timeout is
the setting `name`. -/
def resolveTimeout (c : Configuration) (timeout : Json) (name : String) :
    Except Error Binary64 × Configuration :=
  let configured :=
    let (value, c) := c.get name
    (value >>= Json.toDouble, c)
  match timeout with
  | .null => configured
  | timeout =>
    match timeout.isNegative with
    | .error e => (.error e, c)
    | .ok true => configured
    | .ok false => (timeout.toDouble, c)

end Configuration

end Pubsub
