import Clearing.Address.Basic
import Clearing.Node.Basic

/-!
# Faults of a watch
-/

namespace Clearing

inductive WatchFault
  | undecodable (detail : String)
  | node (fault : NodeFault)
  | alreadyWatched (address : String)
  | stopped
deriving DecidableEq, Repr

namespace WatchFault

def message : WatchFault → String
  | .undecodable detail => "address decode failed: " ++ detail
  | .node fault => "node query failed: " ++ fault.message
  | .alreadyWatched address => "address is already watched: " ++ address
  | .stopped => "tracker is shutting down"

def ofAddress (given : String) (fault : AddressFault) : WatchFault :=
  .undecodable (given ++ ": " ++ fault.message)

end WatchFault

def decodeWatched (given : String) (network : Network) : Except WatchFault Address :=
  (Address.decode given network).mapError (.ofAddress given)

end Clearing
