import Pubsub.Cipher
import Pubsub.Signature
import Pubsub.Text.Blank

/-!
# Who talks to whom

A profile is what an application has told a session about itself and about the service: keys,
identity, origin, signature and encryption. Requests are built from the profile as it is at the
moment.

An origin is kept in one form: no blanks around it, a scheme in front, no slash at the end, so that
a path can be appended. A bare host gets the scheme `http`.

A function that changes a profile gives what came of it and the profile that it leaves, also where
it fails on the way. None of them writes before it knows that it will not fail.
-/

namespace Pubsub

/-- What an application has told a session about itself and the service. -/
structure Profile where
  publishKey : String
  subscribeKey : String
  /-- The secret key; without one publishes are not signed. -/
  secretKey : Option String
  /-- The scheme that publishes are signed with. -/
  scheme : Scheme
  /-- How messages are encrypted, if they are. -/
  cipher : Option Cipher
  /-- The server, in the form that `normalizeOrigin` gives. -/
  origin : String
  /-- The identity of the client. -/
  uuid : String
deriving Inhabited

/-- Does the text `part` occur in the text? -/
def occursIn (part : List Char) : List Char → Bool
  | [] => part.isEmpty
  | c :: rest => part.isPrefixOf (c :: rest) || occursIn part rest

/-- The mark between a scheme and the rest of an origin. -/
def schemeMark : List Char := [':', '/', '/']

/-- The form in which an origin is kept. -/
def normalizeOrigin (origin : String) : Except Error String :=
  let trimmed := trimBlanks origin.toList
  if trimmed.isEmpty then .error .emptyOrigin
  else
    let full := if occursIn schemeMark trimmed then trimmed else "http://".toList ++ trimmed
    .ok (String.ofList (dropTail (· = '/') full))

/-- A key given by an application: none is the empty key. -/
def keyOfArgument : Json → String
  | .null => ""
  | value => value.toText

namespace Profile

/-- The profile of a new session. -/
def initial (publishKey subscribeKey origin uuid : String) : Profile :=
  ⟨publishKey, subscribeKey, none, .md5, none, origin, uuid⟩

/-- Change the cipher; an absent or empty key turns encryption off. -/
def setCipherKey (p : Profile) (key : Json) (freshVector : Bool) : Except Error Unit × Profile :=
  match key with
  | .null => (.ok (), { p with cipher := none })
  | .str s =>
    if s = "" then (.ok (), { p with cipher := none })
    else match Cipher.ofPassphrase s freshVector with
      | .error e => (.error e, p)
      | .ok cipher => (.ok (), { p with cipher := some cipher })
  | key => (.error (.cipherKeyNotText key.kindName), p)

/-- Change the secret key, and perhaps the scheme, which is written first; an absent or empty key
turns signing off. A scheme that cannot be found leaves the key as it is. -/
def setSecretKey (p : Profile) (key : Option String) (choice : SchemeChoice) :
    Except Error Unit × Profile :=
  match choice.resolve p.scheme with
  | .error e => (.error e, p)
  | .ok scheme =>
    let p := { p with scheme }
    (.ok (), { p with secretKey := if key = some "" then none else key })

/-- Change the origin. -/
def setOrigin (p : Profile) (origin : Json) : Except Error Unit × Profile :=
  match normalizeOrigin origin.toText with
  | .error e => (.error e, p)
  | .ok origin => (.ok (), { p with origin })

/-- Change the identity. -/
def setUuid (p : Profile) (uuid : Json) : Except Error Unit × Profile :=
  if uuid.toText = "" then (.error .emptyUuid, p) else (.ok (), { p with uuid := uuid.toText })

theorem setCipherKey_eq_error {p q : Profile} {key : Json} {freshVector : Bool} {e : Error}
    (h : p.setCipherKey key freshVector = (.error e, q)) : q = p := by
  unfold setCipherKey at h
  split at h
  · cases h
  · split at h
    · cases h
    · split at h <;> cases h
      rfl
  · cases h
    rfl

theorem setSecretKey_eq_error {p q : Profile} {key : Option String} {choice : SchemeChoice}
    {e : Error} (h : p.setSecretKey key choice = (.error e, q)) : q = p := by
  unfold setSecretKey at h
  split at h <;> cases h
  rfl

theorem setOrigin_eq_error {p q : Profile} {origin : Json} {e : Error}
    (h : p.setOrigin origin = (.error e, q)) : q = p := by
  unfold setOrigin at h
  split at h <;> cases h
  rfl

theorem setUuid_eq_error {p q : Profile} {uuid : Json} {e : Error}
    (h : p.setUuid uuid = (.error e, q)) : q = p := by
  unfold setUuid at h
  split at h <;> cases h
  rfl

end Profile

end Pubsub
