import Clearing.Store.Basic
import Clearing.Text.Blank

/-!
# Wallets in the store

Each address belongs to one wallet, and each user has at most one default
wallet for a currency, in whatever letter case the currency is written. The
flag of a wallet and the index of the defaults change in one transaction.
-/

namespace Clearing.Store

def defaultKey (owner : Nat) (currency : String) : String :=
  toString owner ++ "|" ++ Text.upper currency

/-- The key of the slot that a wallet can be the default of. -/
def walletKey (w : Wallet) : String := defaultKey w.owner w.currency

/-! ### Reading -/

def wallet (s : Store) (id : Nat) : Except StoreFault Wallet :=
  match s.wallets.get? id with
  | some w => .ok w
  | none => .error (.notFound ("Wallet " ++ toString id))

def walletAt? (s : Store) (address : String) : Option Wallet :=
  (s.addresses.get? address).bind s.wallets.get?

def defaultWallet? (s : Store) (owner : Nat) (currency : String) : Option Wallet :=
  (s.defaults.get? (defaultKey owner currency)).bind s.wallets.get?

def walletsOf (s : Store) (owner : Nat) : List Wallet :=
  s.wallets.rows.filter (·.owner == owner)

/-! ### Writing -/

def putWallet (s : Store) (w : Wallet) : Store :=
  { s with wallets := s.wallets.insert w.id w }

theorem get?_putWallet (s : Store) (w : Wallet) (id : Nat) :
    (s.putWallet w).wallets.get? id = if id = w.id then some w else s.wallets.get? id :=
  Table.get?_insert ..

/-- Takes the flag off the default wallet of a slot, unless it is `id`. -/
def unflag (s : Store) (key : String) (id : Nat) : Store :=
  match (s.defaults.get? key).filter (· != id) with
  | none => s
  | some previous =>
    match s.wallets.get? previous with
    | none => s
    | some w => s.putWallet { w with isDefault := false }

/-- Gives a slot to the wallet `id`, whose own flag is left to the caller. -/
def takeSlot (s : Store) (key : String) (id : Nat) : Store :=
  let s := s.unflag key id
  { s with defaults := s.defaults.insert key id }

/-- Empties a slot if the wallet `id` has it. -/
def leaveSlot (s : Store) (key : String) (id : Nat) : Store :=
  if s.defaults.get? key = some id then { s with defaults := s.defaults.erase key } else s

def openWallet (s : Store) (new : NewWallet) : Except StoreFault (Wallet × Store) :=
  if s.addresses.contains new.address then
    .error (.alreadyExists ("Wallet address " ++ new.address))
  else
    let w : Wallet := {
      id := s.lastWallet + 1, owner := new.owner, currency := new.currency
      address := new.address, balance := 0, isDefault := new.isDefault }
    let s := { s with lastWallet := w.id }
    let s := if w.isDefault then s.takeSlot (walletKey w) w.id else s
    let s := s.putWallet w
    .ok (w, { s with addresses := s.addresses.insert w.address w.id })

def notOfUser (id owner : Nat) : String :=
  "Wallet " ++ toString id ++ " for user " ++ toString owner

def makeDefault (s : Store) (owner id : Nat) : Except StoreFault (Wallet × Store) := do
  let w ← s.wallet id
  if w.owner ≠ owner then
    .error (.notFound (notOfUser id owner))
  else
    let w' := { w with isDefault := true }
    .ok (w', (s.takeSlot (walletKey w) id).putWallet w')

def moveAddress (s : Store) (w : Wallet) (address : String) : Except StoreFault Store :=
  if s.addresses.contains address then
    .error (.alreadyExists ("Wallet address " ++ address))
  else .ok { s with addresses := (s.addresses.erase w.address).insert address w.id }

/-- Changes currency, address and default flag of a wallet. A default wallet
leaves its slot before its currency changes. -/
def changeWallet (s : Store) (id : Nat) (change : WalletChange) :
    Except StoreFault (Wallet × Store) := do
  let w ← s.wallet id
  let address := change.address.getD w.address
  let s ← if address = w.address then .ok s else s.moveAddress w address
  let s := if w.isDefault then s.leaveSlot (walletKey w) id else s
  let w' := { w with
    currency := change.currency.getD w.currency, address, isDefault := change.isDefault }
  let s := if change.isDefault then s.takeSlot (walletKey w') id else s
  return (w', s.putWallet w')

def closeWallet (s : Store) (id : Nat) : Except StoreFault (Wallet × Store) := do
  let w ← s.wallet id
  let s := { s with
    wallets := s.wallets.erase id, addresses := s.addresses.erase w.address }
  return (w, s.leaveSlot (walletKey w) id)

/-- Sets the balance of a wallet to what `compute` makes of the wallet; a
fault of `compute` writes nothing. -/
def rebalance {ε : Type} (s : Store) (ofStore : StoreFault → ε) (id : Nat)
    (compute : Wallet → Except ε Int) : Except ε (Wallet × Store) :=
  match s.wallet id with
  | .error fault => .error (ofStore fault)
  | .ok w =>
    match compute w with
    | .error fault => .error fault
    | .ok balance => .ok ({ w with balance }, s.putWallet { w with balance })

end Clearing.Store
