import Clearing.Text.Blank

/-!
# Bitcoin networks

The four networks an address can belong to. A network is chosen by name, in
any letter case and with blanks around it; an unknown name means the test
network.
-/

namespace Clearing

inductive Network
  | mainnet
  | testnet
  | signet
  | regtest
deriving DecidableEq, Repr

namespace Network

def ofName (name : String) : Network :=
  let key := Text.lower (Text.trim name)
  if key = "mainnet" ∨ key = "bitcoin" then .mainnet
  else if key = "signet" then .signet
  else if key = "regtest" then .regtest
  else .testnet

def text : Network → String
  | .mainnet => "bitcoin"
  | .testnet => "testnet"
  | .signet => "signet"
  | .regtest => "regtest"

end Network
end Clearing
