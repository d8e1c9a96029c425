/-!
# Wallets

A wallet belongs to a user, holds one currency under an address of its own,
and may be the user's default wallet for that currency. Amounts are whole
minor units.
-/

namespace Clearing

structure Wallet where
  id : Nat
  owner : Nat
  currency : String
  address : String
  balance : Int
  isDefault : Bool
deriving DecidableEq, Repr

structure NewWallet where
  owner : Nat
  currency : String
  address : String
  isDefault : Bool
deriving DecidableEq, Repr

/-- What is to change in a wallet; the default flag is always set. -/
structure WalletChange where
  currency : Option String
  address : Option String
  isDefault : Bool
deriving DecidableEq, Repr

def Wallet.label (w : Wallet) : String :=
  "wallet " ++ toString w.id

end Clearing
