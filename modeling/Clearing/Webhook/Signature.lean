import Clearing.Crypto.Hmac
import Clearing.Text.Blank
import Clearing.Text.Hex

/-!
# Signatures of webhook bodies

The provider signs the body as it stands with a shared secret, and sends the
digest in hexadecimal. A signature is good if it reads as exactly the digest,
in either letter case and with blanks around it.
-/

namespace Clearing.Webhook

def sign (secret body : List UInt8) : String :=
  Text.Hex.encode (Crypto.Hmac.digest secret body)

def verify (secret body : List UInt8) (signature : String) : Bool :=
  Text.Hex.decode? (Text.trim signature) == some (Crypto.Hmac.digest secret body)

end Clearing.Webhook
