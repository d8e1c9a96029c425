import Clearing.Store.Table
import Clearing.Watch.Basic

/-!
# The registry of watches

The registry knows the watch of each address. Cancelling by address takes the
entry out at once, so that the address can be watched anew while the old watch
is still ending; cancelling through a handle leaves the entry until the watch
ends. A watch that ends takes out its own entry and no other's.
-/

namespace Clearing

structure Registry where
  /-- The number of the watch at each address. -/
  entries : Table String Nat
  /-- The number of the next watch, without the bound of 64 bits. -/
  nextId : Nat
  /-- The watches cancelled one by one. -/
  cancelled : List Nat
  /-- Every watch is cancelled, and no more are taken. -/
  stopped : Bool
deriving DecidableEq

namespace Registry

def empty : Registry where
  entries := .empty
  nextId := 0
  cancelled := []
  stopped := false

instance : Inhabited Registry := ⟨empty⟩

def isCancelled (r : Registry) (id : Nat) : Bool :=
  r.stopped || r.cancelled.contains id

def isWatching (r : Registry) (address : String) : Bool :=
  r.entries.contains address

def size (r : Registry) : Nat := r.entries.size

def register (r : Registry) (address : String) (network : Network) (observer : Observer) :
    Except WatchFault (Watch × Registry) :=
  if r.stopped then .error .stopped
  else if r.isWatching address then .error (.alreadyWatched address)
  else
    .ok ({ id := r.nextId, address, network, observer },
      { r with entries := r.entries.insert address r.nextId, nextId := r.nextId + 1 })

def cancelWatch (r : Registry) (id : Nat) : Registry :=
  { r with cancelled := id :: r.cancelled }

/-- Cancels the watch of an address; says whether there was one. -/
def cancel (r : Registry) (address : String) : Bool × Registry :=
  match r.entries.get? address with
  | none => (false, r)
  | some id => (true, { r.cancelWatch id with entries := r.entries.erase address })

def release (r : Registry) (w : Watch) : Registry :=
  if r.entries.get? w.address = some w.id then
    { r with entries := r.entries.erase w.address }
  else r

theorem get?_release_of_ne {r : Registry} {w : Watch} {address : String} {id : Nat}
    (h : r.entries.get? address = some id) (hne : id ≠ w.id) :
    (r.release w).entries.get? address = some id := by
  unfold release
  split
  · rename_i hw
    rw [Table.get?_erase, if_neg]
    · exact h
    · rintro rfl
      exact hne (Option.some.inj (h.symm.trans hw))
  · exact h

/-- Cancels every watch, now and to come. -/
def stop (r : Registry) : Registry := { r with stopped := true }

/-- Cancels every watch and forgets them. -/
def shutdown (r : Registry) : Registry := { r.stop with entries := .empty }

end Registry
end Clearing
