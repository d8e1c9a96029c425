import Clearing.Desk.Basic

/-!
# Watches at the desk

The desk takes each watch through its polls. A call that the node answers at
once is answered within the same turn, so a whole page may be gone through in
one; a call that takes time lets the watch wait.
-/

namespace Clearing.Desk

def isCancelled (d : Desk) (w : Watch) : Bool := d.registry.isCancelled w.id

def endWatch (d : Desk) (w : Watch) : Desk := { d with registry := d.registry.release w }

def pauseWatch (d : Desk) (w : Watch) (time : Nat) : Desk :=
  if d.isCancelled w then d.endWatch w else d.later time (.watch w .pausing)

def report (d : Desk) (w : Watch) (seen : Sighting) : Desk :=
  match w.observer with
  | .payment id => (d.submit (.ofSighting id seen)).2
  | .journal label => d.noteSighting label seen

def answerLookup (d : Desk) (w : Watch) (tx : String) : Desk :=
  match Watch.heard tx (d.node.depth tx) with
  | some seen => d.report w seen
  | none => d

/-- Goes through what is left of a page, until the watch waits or ends. -/
def goThrough (d : Desk) (w : Watch) : List String → Desk
  | [] => d.pauseWatch w d.options.timing.pollInterval
  | tx :: rest =>
    match Watch.glance (d.isCancelled w) tx with
    | .stop => d.endWatch w
    | .pass => d.goThrough w rest
    | .ask =>
      let d := d.noteCall (.lookup tx)
      if d.node.lookupDelay = 0 then (d.answerLookup w tx).goThrough w rest
      else d.later d.node.lookupDelay (.watch w (.looking tx rest))

def hearLookup (d : Desk) (w : Watch) (tx : String) (rest : List String) : Desk :=
  (d.answerLookup w tx).goThrough w rest

def hearSearch (d : Desk) (w : Watch) (address : String) : Desk :=
  match d.node.search address 0 d.options.timing.pageSize with
  | (.error _, node) => { d with node }.pauseWatch w d.options.timing.backoff
  | (.ok page, node) => { d with node }.goThrough w page

def beginPoll (d : Desk) (w : Watch) : Desk :=
  if d.isCancelled w then d.endWatch w
  else
    match decodeWatched w.address w.network with
    | .error _ => d.pauseWatch w d.options.timing.backoff
    | .ok address =>
      let d := d.noteCall (.search address.text 0 d.options.timing.pageSize)
      if d.node.searchDelay = 0 then d.hearSearch w address.text
      else d.later d.node.searchDelay (.watch w (.searching address.text))

def resumeWatch (d : Desk) (w : Watch) : Watch.Stage → Desk
  | .pausing => d.beginPoll w
  | .searching address => d.hearSearch w address
  | .looking tx rest => d.hearLookup w tx rest

/-! ### From outside -/

/-- Starts a watch, which polls at once. -/
def watch (d : Desk) (address : String) (network : Network) (observer : Observer) :
    Except WatchFault Watch × Desk :=
  match d.registry.register address network observer with
  | .error fault => (.error fault, d)
  | .ok (w, registry) => (.ok w, { d with registry }.later 0 (.watch w .pausing))

/-- Cancels the watch of an address; says whether there was one. -/
def cancelAddress (d : Desk) (address : String) : Bool × Desk :=
  let (found, registry) := d.registry.cancel address
  (found, { d with registry })

def cancelHandle (d : Desk) (w : Watch) : Desk :=
  { d with registry := d.registry.cancelWatch w.id }

def stopWatches (d : Desk) : Desk := { d with registry := d.registry.shutdown }

end Clearing.Desk
