import Clearing.Notice.Basic

/-!
# The notice channel

A channel hands every notice to every receiver that subscribed before it was
sent, in order. It keeps only so many of the latest notices; a receiver that
falls behind is told once how many it has lost and goes on with the oldest one
that is kept. The number kept is the capacity rounded up to a power of two.
-/

namespace Clearing

/-- The least power of two that is at least `n`, found within `fuel`
doublings of `p`. -/
def powerFrom (n : Nat) : Nat → Nat → Nat
  | 0, p => p
  | fuel + 1, p => if n ≤ p then p else powerFrom n fuel (2 * p)

structure Channel where
  /-- How many notices are kept. -/
  kept : Nat
  /-- How many notices were ever sent. -/
  sent : Nat
  /-- The notices that are kept, the latest first. -/
  latest : List Notice
  /-- For each receiver, how many of the notices sent it is past. -/
  positions : List Nat
deriving DecidableEq, Repr

inductive Reception
  | notice (n : Notice)
  | empty
  /-- So many notices were lost. -/
  | lagged (lost : Nat)
  | closed
deriving DecidableEq, Repr

namespace Channel

def standardCapacity : Nat := 256

def ofCapacity (capacity : Nat) : Channel where
  kept := powerFrom capacity capacity 1
  sent := 0
  latest := []
  positions := []

def subscribe (c : Channel) : Nat × Channel :=
  (c.positions.length, { c with positions := c.positions ++ [c.sent] })

/-- Sends a notice. It is not kept while nobody listens. -/
def publish (c : Channel) (n : Notice) : Channel :=
  if c.positions.isEmpty then c
  else { c with sent := c.sent + 1, latest := (n :: c.latest).take c.kept }

def receive (c : Channel) (receiver : Nat) : Reception × Channel :=
  match c.positions[receiver]? with
  | none => (.closed, c)
  | some position =>
    let oldest := c.sent - c.latest.length
    if c.sent ≤ position then (.empty, c)
    else if position < oldest then
      (.lagged (oldest - position), { c with positions := c.positions.set receiver oldest })
    else
      match c.latest[c.sent - 1 - position]? with
      | none => (.empty, c)
      | some n => (.notice n, { c with positions := c.positions.set receiver (position + 1) })

end Channel
end Clearing
