import Pubsub.Crypto.Base64
import Pubsub.Crypto.Hmac
import Pubsub.Crypto.Md5
import Pubsub.Error

/-!
# Signed publishes

A publish carries a signature when the session has a secret key: a digest over the keys, the channel
and the serialized message, joined by slashes. The scheme `md5` puts the secret key among the
fields; `hmacSha256` keys the digest with it instead. A scheme can also be `bare`, an interface
without an implementation, which refuses to sign.
-/

namespace Pubsub

/-- A signature scheme. -/
inductive Scheme where
  | md5
  | hmacSha256
  /-- The interface of schemes, which cannot sign. -/
  | bare
deriving DecidableEq, Repr, Inhabited

/-- What an application says about the scheme when it sets a secret key. -/
inductive SchemeChoice where
  /-- The scheme stays as it is. -/
  | keep
  /-- The scheme of a name. -/
  | named (name : Json)
  /-- This scheme. -/
  | exactly (scheme : Scheme)
deriving Inhabited

/-- The fields that a signature covers. -/
structure SignedFields where
  publishKey : String
  subscribeKey : String
  secretKey : String
  channel : String
  message : String
deriving DecidableEq, Repr

namespace Scheme

/-- The names of the schemes that can sign. -/
def names : List (String × Scheme) := [("md5", md5), ("hmac-sha256", hmacSha256)]

/-- The scheme of a name. -/
def ofName (name : Json) : Except Error Scheme :=
  match name with
  | .str s => ((names.find? (·.1 == s)).map (·.2)).elim (.error (.unknownScheme name)) .ok
  | .arr _ | .obj _ => .error (.unhashable name.kindName)
  | _ => .error (.unknownScheme name)

/-- The text that the digest is taken of. -/
def plaintext (scheme : Scheme) (f : SignedFields) : String :=
  match scheme with
  | md5 => "/".intercalate [f.publishKey, f.subscribeKey, f.secretKey, f.channel, f.message]
  | _ => "/".intercalate [f.publishKey, f.subscribeKey, f.channel, f.message]

/-- The signature of the fields. -/
def sign (scheme : Scheme) (f : SignedFields) : Except Error String :=
  match scheme with
  | md5 => .ok (hexText (Md5.digest (utf8Bytes (scheme.plaintext f))))
  | hmacSha256 =>
    .ok (String.ofList (Base64.encode Base64.urlSafe
      (Hmac.sha256 (utf8Bytes f.secretKey) (utf8Bytes (scheme.plaintext f)))))
  | bare => .error .abstractScheme

end Scheme

/-- The scheme chosen, where `current` is the one in force. -/
def SchemeChoice.resolve (choice : SchemeChoice) (current : Scheme) : Except Error Scheme :=
  match choice with
  | keep => .ok current
  | named name => Scheme.ofName name
  | exactly scheme => .ok scheme

end Pubsub
