import Clearing.Desk.Payments
import Clearing.Desk.Transfers

/-!
# Taking up open work

After a restart the store may hold payments that nobody watches and transfers
that nobody settles.
-/

namespace Clearing.Desk

/-- Watches the payments that are still open, then gives every unprocessed
transfer a task. -/
def resume (d : Desk) : Except ServiceFault Unit × Desk :=
  match d.resumeWatches with
  | (.error fault, d) => (.error fault, d)
  | (.ok _, d) => (.ok (), d.resumeTransfers.2)

end Clearing.Desk
