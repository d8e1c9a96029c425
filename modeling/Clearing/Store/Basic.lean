import Clearing.Payment.Basic
import Clearing.Store.Table
import Clearing.Transfer.Basic
import Clearing.Wallet

/-!
# The store

The store holds the wallets, payments and transfers, two indexes over the
wallets, and the last number given to a wallet and to a transfer. Every
operation of the store is one transaction: it gives the store it leaves
behind, and a fault leaves none, so nothing of a failed operation is kept.
-/

namespace Clearing

structure Store where
  wallets : Table Nat Wallet
  addresses : Table String Nat
  /-- The default wallet of each user and currency, see `Store.defaultKey`. -/
  defaults : Table String Nat
  payments : Table String Payment
  transfers : Table Nat Transfer
  /-- The last numbers given out. The service counts in 64 bits; here they have no
  bound, which is out of reach. -/
  lastWallet : Nat
  lastTransfer : Nat
deriving DecidableEq

namespace Store

def empty : Store where
  wallets := .empty
  addresses := .empty
  defaults := .empty
  payments := .empty
  transfers := .empty
  lastWallet := 0
  lastTransfer := 0

instance : Inhabited Store := ⟨empty⟩

end Store

inductive StoreFault
  /-- A row does not read back. -/
  | unreadable (reason : String)
  | notFound (what : String)
  | alreadyExists (what : String)
deriving DecidableEq, Repr

def StoreFault.message : StoreFault → String
  | .unreadable reason => "serialization error: " ++ reason
  | .notFound what => "not found: " ++ what
  | .alreadyExists what => "already exists: " ++ what

end Clearing
