/-!
# The node and its faults

The node hands out fresh addresses, lists the transactions at an address and
knows the depth of a transaction. Each call can fail; a fault keeps the node's
own words.
-/

namespace Clearing

inductive NodeFault
  | badUrl (reason : String)
  | unknownTx (txId : String)
  | unreachable (reason : String)
  | refused (code : Int) (reason : String)
  | badAnswer (reason : String)
deriving DecidableEq, Repr

def NodeFault.message : NodeFault → String
  | .badUrl reason => "Invalid RPC URL: " ++ reason
  | .unknownTx txId => "Transaction not found: " ++ txId
  | .unreachable reason => "RPC error: " ++ reason
  | .refused code reason => "Node error " ++ toString code ++ ": " ++ reason
  | .badAnswer reason => "Invalid RPC response: " ++ reason

inductive Call
  | generate
  | search (address : String) (skip count : Nat)
  | lookup (txId : String)
deriving DecidableEq, Repr

def Call.text : Call → String
  | .generate => "generate"
  | .search address skip count =>
    "search " ++ address ++ " " ++ toString skip ++ " " ++ toString count
  | .lookup txId => "lookup " ++ txId

end Clearing
