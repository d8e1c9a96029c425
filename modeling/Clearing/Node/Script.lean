import Clearing.Node.Basic
import Clearing.Store.Table

/-!
# A node that answers from a script

The script says which addresses are handed out, what is found at an address,
how deep each transaction is, what fails, and how long an answer takes. An
answer that takes time is made when it is given, from the script as it is
then.
-/

namespace Clearing.Node

structure Script where
  addresses : List String
  /-- What every request for an address fails with. -/
  addressFault : Option NodeFault
  /-- Addresses with the transactions to be found there, in order. -/
  found : List (String × String)
  depths : Table String Int
  depthFaults : Table String NodeFault
  /-- How many of the next searches fail. -/
  failingSearches : Nat
  searchFault : NodeFault
  /-- How long a search takes, in milliseconds. -/
  searchDelay : Nat
  lookupDelay : Nat

namespace Script

def empty : Script where
  addresses := []
  addressFault := none
  found := []
  depths := .empty
  depthFaults := .empty
  failingSearches := 0
  searchFault := .unreachable ""
  searchDelay := 0
  lookupDelay := 0

instance : Inhabited Script := ⟨empty⟩

def generate (s : Script) : Except NodeFault String × Script :=
  match s.addressFault, s.addresses with
  | some fault, _ => (.error fault, s)
  | none, [] => (.error (.unreachable "no address left"), s)
  | none, address :: rest => (.ok address, { s with addresses := rest })

def search (s : Script) (address : String) (skip count : Nat) :
    Except NodeFault (List String) × Script :=
  match s.failingSearches with
  | n + 1 => (.error s.searchFault, { s with failingSearches := n })
  | 0 =>
    let here := (s.found.filter (·.1 == address)).map (·.2)
    (.ok ((here.drop skip).take count), s)

def depth (s : Script) (tx : String) : Except NodeFault Int :=
  match s.depthFaults.get? tx, s.depths.get? tx with
  | some fault, _ => .error fault
  | none, some depth => .ok depth
  | none, none => .error (.unknownTx tx)

end Script
end Clearing.Node
