import Clearing.Desk.Basic

/-!
# Opening wallets at the desk

A bitcoin wallet that is opened without an address gets a fresh one from the
node; the address is spent even if the wallet is then refused.
-/

namespace Clearing.Desk

def freshAddress (d : Desk) : Except NodeFault String × Desk :=
  let (answer, node) := d.node.generate
  (answer, { d with node }.noteCall .generate)

def createWallet (d : Desk) (owner : Nat) (currency : String) (address : Option String)
    (isDefault : Bool) : Except LedgerFault Wallet × Desk :=
  match Ledger.currencyCode currency with
  | .error fault => (.error fault, d)
  | .ok code =>
    match Ledger.addressSource code address with
    | .error fault => (.error fault, d)
    | .ok (.given address) =>
      d.transact (Ledger.openWallet · { owner, currency := code, address, isDefault })
    | .ok .fresh =>
      match d.freshAddress with
      | (.error fault, d) => (.error (.node fault), d)
      | (.ok address, d) =>
        d.transact (Ledger.openWallet · { owner, currency := code, address, isDefault })

end Clearing.Desk
