import Clearing.Desk.Wallets
import Clearing.Desk.Watches
import Clearing.Payment.Request
import Clearing.Store.Payments

/-!
# Payments at the desk

A payment is stored before its address is watched, so that the first sighting
finds it; if the watch is refused the payment is removed again. After a
restart the payments that a sighting could still carry further are watched
anew.
-/

namespace Clearing.Desk

def watchPayment (d : Desk) (p : Payment) : Except WatchFault Watch × Desk :=
  d.watch p.receivingAddress d.options.network (.payment p.id)

/-- Opens a payment under the given id, which should be fresh. -/
def createPayment (d : Desk) (id : String) (r : PaymentRequest) :
    Except ServiceFault Payment × Desk :=
  match r.check with
  | .error fault => (.error fault, d)
  | .ok r =>
    match d.freshAddress with
    | (.error fault, d) => (.error (.node fault), d)
    | (.ok address, d) =>
      let p := Payment.opened d.options.baseUrl id address r
      match d.store.addPayment p with
      | .error fault => (.error (.ofStore fault), d)
      | .ok store =>
        match { d with store }.watchPayment p with
        | (.ok _, d) => (.ok p, d)
        | (.error fault, d) =>
          (.error (.watch fault), { d with store := (d.store.removePayment id).2 })

/-- Watches the addresses of payments; one that is watched already is passed
over, and any other refusal ends it. Counts the watches started. -/
def watchAll (d : Desk) (started : Nat) : List Payment → Except ServiceFault Nat × Desk
  | [] => (.ok started, d)
  | p :: rest =>
    match d.watchPayment p with
    | (.ok _, d) => d.watchAll (started + 1) rest
    | (.error (.alreadyWatched _), d) => d.watchAll started rest
    | (.error fault, d) => (.error (.watch fault), d)

def resumeWatches (d : Desk) : Except ServiceFault Nat × Desk :=
  match d.store.unfinishedPayments with
  | .error fault => (.error (.ofStore fault), d)
  | .ok payments => d.watchAll 0 (payments.filter fun p => !p.status.endsWatch)

end Clearing.Desk
