import Clearing.Confirmation
import Clearing.Text.Blank
import Clearing.Text.Integer

/-!
# The status of a payment

A payment waits, is seen, is confirmed block by block, is confirmed for good,
and is then completed or failed by the provider. The statuses are ranked along
this way; the last two rank highest, are never left and rank alike.

A status is written as a word, or as `pending_confirmation (n/6)` with its
block count. Reading takes the blanks off both ends, does not look at what
follows the first slash, and takes counts from 1 to 5 only, so a status with
another count has a written form that cannot be read back.
-/

namespace Clearing

inductive Status
  | waiting
  | pending
  /-- Mined, with the number of blocks reported. -/
  | confirming (count : Int)
  | confirmed
  | completed
  | failed
deriving DecidableEq, Repr

structure UnknownStatus where
  given : String
deriving DecidableEq, Repr

def UnknownStatus.message (e : UnknownStatus) : String :=
  "unknown payment status: " ++ e.given

def maxInt64 : Nat := UInt64.size / 2 - 1

namespace Status

def ofDepth (depth : Int) : Status :=
  match Confirmation.ofDepth depth with
  | .pending => .pending
  | .confirming => .confirming depth
  | .confirmed => .confirmed

/-- The place of a status on the way, and the count within its place. -/
def rank : Status → Nat × Int
  | .waiting => (0, 0)
  | .pending => (1, 0)
  | .confirming n => (2, n)
  | .confirmed => (3, 0)
  | .completed => (4, 0)
  | .failed => (4, 0)

def rankLe (a b : Status) : Bool :=
  a.rank.1 < b.rank.1 || (a.rank.1 == b.rank.1 && a.rank.2 ≤ b.rank.2)

def isTerminal : Status → Bool
  | .completed => true
  | .failed => true
  | _ => false

/-- A status for which the depth of the linked transaction is worth asking. -/
def isConfirming : Status → Bool
  | .confirming _ => true
  | .confirmed => true
  | _ => false

/-- A status that no sighting could carry further. -/
def endsWatch (s : Status) : Bool :=
  3 ≤ s.rank.1

/-- Whether `incoming` may take the place of `current`: nothing replaces a
terminal status, a terminal status replaces any other, and among the rest the
rank must not fall. -/
def accepts (current incoming : Status) : Bool :=
  !current.isTerminal && (incoming.isTerminal || rankLe current incoming)

def text : Status → String
  | .waiting => "waiting"
  | .pending => "pending"
  | .confirming n => "pending_confirmation (" ++ toString n ++ "/" ++ toString finalDepth ++ ")"
  | .confirmed => "confirmed"
  | .completed => "completed"
  | .failed => "failed"

/-- The statuses written as one word; a count that is not written is 1. -/
def ofWord? (cs : List Char) : Option Status :=
  if cs = "waiting".toList then some .waiting
  else if cs = "pending".toList then some .pending
  else if cs = "pending_confirmation".toList then some (.confirming 1)
  else if cs = "confirmed".toList then some .confirmed
  else if cs = "completed".toList then some .completed
  else if cs = "failed".toList then some .failed
  else none

def beforeSlash? (cs : List Char) : Option (List Char) :=
  if '/' ∈ cs then some (cs.takeWhile (· != '/')) else none

def count? (cs : List Char) : Option Int := do
  let rest ← "pending_confirmation (".toList.isPrefixOf? cs
  let inner ← [')'].isSuffixOf? rest
  let written ← beforeSlash? inner
  let n ← (Text.integer? maxInt64 (Text.trimChars written)).toOption
  if 1 ≤ n ∧ n < finalDepth then some n else none

def ofChars? (cs : List Char) : Option Status :=
  match ofWord? (Text.trimChars cs) with
  | some s => some s
  | none => (count? (Text.trimChars cs)).map .confirming

def parse (s : String) : Except UnknownStatus Status :=
  match ofChars? s.toList with
  | some status => .ok status
  | none => .error ⟨s⟩

end Status
end Clearing
