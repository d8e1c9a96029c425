import Clearing.Ledger.Fault
import Clearing.Store.Wallets

/-!
# The ledger

The ledger keeps the balances of the wallets between zero and the largest
64-bit integer, and the default wallet of each user and currency. An operation
that reads before it writes does so in two transactions; the one that reads is
named on its own.
-/

namespace Clearing.Ledger

/-- The currency whose wallets the node can give an address. -/
def bitcoin : String := "BTC"

/-- A currency without blanks around it and in upper case; it may not be
blank. -/
def currencyCode (currency : String) : Except LedgerFault String :=
  let currency := Text.trim currency
  if currency.isEmpty then .error (.refused "currency is required")
  else .ok (Text.upper currency)

/-- A text without blanks around it, if anything is left of it. -/
def filled (text : Option String) : Option String :=
  (text.map Text.trim).filter fun t => !t.isEmpty

/-! ### Balances -/

def credited (amount : Int) (w : Wallet) : Except LedgerFault Int :=
  if w.balance + amount ≤ maxInt64 then .ok (w.balance + amount) else .error (.overflow w.id)

def debited (amount : Int) (w : Wallet) : Except LedgerFault Int :=
  if w.balance < amount then .error (.insufficient w.id w.balance amount)
  else .ok (w.balance - amount)

def credit (s : Store) (id : Nat) (amount : Int) : Except LedgerFault (Int × Store) :=
  if amount ≤ 0 then .error (.notPositive amount)
  else (s.rebalance .ofStore id (credited amount)).map fun r => (r.1.balance, r.2)

def debit (s : Store) (id : Nat) (amount : Int) : Except LedgerFault (Int × Store) :=
  if amount ≤ 0 then .error (.notPositive amount)
  else (s.rebalance .ofStore id (debited amount)).map fun r => (r.1.balance, r.2)

def setBalance (s : Store) (id : Nat) (balance : Int) : Except LedgerFault (Wallet × Store) :=
  if balance < 0 then
    .error (.refused ("balance cannot be negative, got " ++ toString balance))
  else s.rebalance .ofStore id fun _ => .ok balance

/-! ### Wallets -/

inductive AddressSource
  | given (address : String)
  | fresh
deriving DecidableEq, Repr

/-- A wallet without an address gets one from the node if it holds bitcoin. -/
def addressSource (code : String) (address : Option String) : Except LedgerFault AddressSource :=
  match filled address with
  | some address => .ok (.given address)
  | none =>
    if code = bitcoin then .ok .fresh
    else .error (.refused ("an address is required for " ++ code ++ " wallets"))

def openWallet (s : Store) (new : NewWallet) : Except LedgerFault (Wallet × Store) :=
  (s.openWallet new).mapError .ofStore

def wallet (s : Store) (id : Nat) : Except LedgerFault Wallet :=
  (s.wallet id).mapError .ofStore

def walletAt (s : Store) (address : String) : Except LedgerFault Wallet :=
  match s.walletAt? address with
  | some w => .ok w
  | none => .error (.notFound ("Wallet with address " ++ address))

def defaultWallet (s : Store) (user : Nat) (currency : String) : Except LedgerFault Wallet := do
  let code ← currencyCode currency
  match s.defaultWallet? user code with
  | some w => .ok w
  | none =>
    .error (.notFound ("Default " ++ code ++ " wallet for user " ++ toString user))

def mayBeDefault (s : Store) (user id : Nat) (currency : String) : Except LedgerFault Unit := do
  let code ← currencyCode currency
  let w ← wallet s id
  if w.owner ≠ user then .error (.notFound (Store.notOfUser id user))
  else if Text.upper w.currency ≠ Text.upper code then
    .error (.refused
      ("wallet " ++ toString id ++ " holds " ++ w.currency ++ ", not " ++ code))
  else .ok ()

def setDefault (s : Store) (user id : Nat) (currency : String) :
    Except LedgerFault (Wallet × Store) := do
  mayBeDefault s user id currency
  (s.makeDefault user id).mapError .ofStore

/-- Changes a wallet; what is blank stays as it was. -/
def changeWallet (s : Store) (id : Nat) (change : WalletChange) :
    Except LedgerFault (Wallet × Store) :=
  let change : WalletChange := {
    currency := (filled change.currency).map Text.upper
    address := filled change.address
    isDefault := change.isDefault }
  (s.changeWallet id change).mapError .ofStore

/-- Whether a wallet can be removed: it may not be a default. -/
def mayClose (s : Store) (id : Nat) : Except LedgerFault Unit := do
  let w ← wallet s id
  if w.isDefault then .error (.refused "cannot delete the default wallet") else .ok ()

def closeWallet (s : Store) (id : Nat) : Except LedgerFault (Wallet × Store) := do
  mayClose s id
  (s.closeWallet id).mapError .ofStore

end Clearing.Ledger
