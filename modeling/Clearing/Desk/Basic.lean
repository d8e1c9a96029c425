import Clearing.Address.Network
import Clearing.Node.Script
import Clearing.Notice.Basic
import Clearing.Payment.Basic
import Clearing.ServiceFault
import Clearing.Store.Basic
import Clearing.Transfer.Attempt
import Clearing.Watch.Registry

/-!
# The desk

The desk is the service while it runs: its store, the node it asks, its
clock, the watches it has out, the updates handed in and not yet merged, and
the tasks that wait. A task waits for its time; of two tasks with the same
time the one that began to wait first goes first, which its ticket tells.
-/

namespace Clearing

structure Options where
  network : Network
  baseUrl : String
  secret : List UInt8
  timing : Timing
  policy : Policy

/-- What a task does when its time has come. -/
inductive Job
  | merge
  | watch (w : Watch) (stage : Watch.Stage)
  /-- Takes an attempt on, at its start or when the node has answered. -/
  | settle (a : Attempt)
  | retry (transfer : Nat)

structure Task where
  /-- When it is due, in milliseconds. -/
  due : Nat
  ticket : Nat
  job : Job

/-- What the outside has seen: notices, calls to the node, and sightings with
the label of the journal they went to; each in order. -/
structure Journal where
  notices : List Notice
  calls : List Call
  sightings : List (String × Sighting)

def Journal.empty : Journal := { notices := [], calls := [], sightings := [] }

structure Desk where
  options : Options
  store : Store
  node : Node.Script
  /-- The time, in milliseconds. -/
  now : Nat
  ticket : Nat
  tasks : List Task
  /-- The updates handed in and not yet merged, in order. -/
  inbox : List Update
  registry : Registry
  /-- No updates are taken any more, and nothing is retried. -/
  stopped : Bool
  journal : Journal

namespace Desk

def start (options : Options) : Desk where
  options := options
  store := .empty
  node := .empty
  now := 0
  ticket := 0
  tasks := []
  inbox := []
  registry := .empty
  stopped := false
  journal := .empty

/-- The desk opened anew over the same store: what was waiting is gone. -/
def restart (d : Desk) : Desk :=
  { d with tasks := [], inbox := [], registry := .empty, stopped := false }

/-- Ends everything for good; what waits for the node is still answered. -/
def stop (d : Desk) : Desk :=
  { d with stopped := true, inbox := [], registry := d.registry.stop }

def takeJournal (d : Desk) : Journal × Desk := (d.journal, { d with journal := .empty })

/-! ### Single effects -/

def later (d : Desk) (delay : Nat) (job : Job) : Desk :=
  { d with
    ticket := d.ticket + 1
    tasks := d.tasks ++ [{ due := d.now + delay, ticket := d.ticket, job }] }

def publish (d : Desk) (notices : List Notice) : Desk :=
  { d with journal := { d.journal with notices := d.journal.notices ++ notices } }

def noteCall (d : Desk) (call : Call) : Desk :=
  { d with journal := { d.journal with calls := d.journal.calls ++ [call] } }

def noteSighting (d : Desk) (label : String) (seen : Sighting) : Desk :=
  { d with journal := { d.journal with sightings := d.journal.sightings ++ [(label, seen)] } }

/-- Hands in an update, to be merged when the tasks before it are through. -/
def submit (d : Desk) (u : Update) : Except ServiceFault Unit × Desk :=
  if d.stopped then (.error .stopped, d)
  else
    let waiting := !d.inbox.isEmpty
    let d := { d with inbox := d.inbox ++ [u] }
    (.ok (), if waiting then d else d.later 0 .merge)

/-- Runs a transaction on the store; a fault leaves the desk as it was. -/
def transact {ε α : Type} (d : Desk) (run : Store → Except ε (α × Store)) :
    Except ε α × Desk :=
  match run d.store with
  | .error fault => (.error fault, d)
  | .ok (a, store) => (.ok a, { d with store })

end Desk
end Clearing
