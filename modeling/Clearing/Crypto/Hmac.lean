import Clearing.Crypto.Sha256

/-!
# Keyed digests

The keyed digest of a message hashes the message after one masked copy of the
key and hashes the result after another, so only who knows the key can make
it. A key longer than a block is replaced by its digest.
-/

namespace Clearing.Crypto.Hmac

def blockKey (key : List UInt8) : List UInt8 :=
  let k := if 64 < key.length then Sha256.digest key else key
  k ++ List.replicate (64 - k.length) 0

def digest (key message : List UInt8) : List UInt8 :=
  let k := blockKey key
  Sha256.digest (k.map (· ^^^ 0x5c) ++ Sha256.digest (k.map (· ^^^ 0x36) ++ message))

theorem digest_length (key message : List UInt8) : (digest key message).length = 32 :=
  Sha256.digest_length _

end Clearing.Crypto.Hmac
