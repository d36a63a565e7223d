import Pubsub.Crypto.Sha256

/-!
# Keyed digests

HMAC of RFC 2104 over SHA-256. A key longer than a block is replaced by its digest, and a shorter
one is filled up with zeros.
-/

namespace Pubsub

namespace Hmac

/-- The key as one block of 64 bytes. -/
def blockKey (key : Bytes) : Bytes :=
  let short := if 64 < key.length then Sha256.digest key else key
  short ++ List.replicate (64 - short.length) 0

/-- The keyed digest of a message. -/
def sha256 (key message : Bytes) : Bytes :=
  let inner := (blockKey key).map (· ^^^ 0x36)
  let outer := (blockKey key).map (· ^^^ 0x5c)
  Sha256.digest (outer ++ Sha256.digest (inner ++ message))

end Hmac

end Pubsub
