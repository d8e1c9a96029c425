import Clearing.Desk.Payments
import Clearing.Desk.Transfers
import Clearing.Desk.Updates

/-!
# The clock of the desk

Time passes only while the desk waits. Tasks are run in the order of the time
they are due and, at the same time, of their tickets; a task that only rests
is due at once when what it rests for is cancelled. A call from outside that
has to wait for the node goes before every task that is due when it is over.
-/

namespace Clearing.Desk

/-- The task rests, and has no reason to rest any longer. -/
def isInterrupted (d : Desk) (t : Task) : Bool :=
  match t.job with
  | .watch w .pausing => d.isCancelled w
  | .retry _ => d.stopped
  | _ => false

def dueAt (d : Desk) (t : Task) : Nat :=
  if d.isInterrupted t then min t.due d.now else t.due

/-- Whether a task comes before another: it is due earlier, or at the same
time and began to wait first. -/
def comesBefore (d : Desk) (a b : Task) : Bool :=
  d.dueAt a < d.dueAt b || (d.dueAt a == d.dueAt b && a.ticket < b.ticket)

def earlier (d : Desk) (a b : Task) : Task := if d.comesBefore b a then b else a

def nextTask? (d : Desk) : Option Task :=
  match d.tasks with
  | [] => none
  | t :: rest => some (rest.foldl d.earlier t)

def runJob (d : Desk) : Job → Desk
  | .merge => d.mergeInbox
  | .watch w stage => d.resumeWatch w stage
  | .settle a => d.resumeAttempt a
  | .retry transfer => d.retry transfer

def turn (d : Desk) (t : Task) : Desk :=
  { d with
    now := max d.now (d.dueAt t)
    tasks := d.tasks.filter (·.ticket != t.ticket) }.runJob t.job

/-- Gives up to so many turns, to tasks that are due before `time`. -/
def runFor (time : Nat) : Nat → Desk → Desk
  | 0, d => d
  | turns + 1, d =>
    match d.nextTask? with
    | none => d
    | some t => if d.dueAt t < time then runFor time turns (d.turn t) else d

/-- More turns than there can be before `time`, if no task rests for no time
at all: a task has one turn in each millisecond, one more when it is cancelled
or given up, and each may be followed by one turn of the merging task. -/
def turnsBefore (d : Desk) (time : Nat) : Nat :=
  let limit := match d.options.policy with
    | .failFast => 0
    | .retry _ limit => limit
  2 * (d.tasks.length + 1) * (time - d.now + limit + 2)

def runBefore (d : Desk) (time : Nat) : Desk := runFor time (d.turnsBefore time) d

/-- Runs tasks until none can go on without time passing. -/
def quiesce (d : Desk) : Desk := d.runBefore (d.now + 1)

/-- Lets time pass, with every task run when it is due. -/
def advance (d : Desk) (time : Nat) : Desk :=
  { d.runBefore (d.now + time + 1) with now := d.now + time }

/-- Waits until a call that takes `delay` is over, with the tasks run that are
due before. -/
def await (d : Desk) (delay : Nat) : Desk :=
  if delay = 0 then d else { d.runBefore (d.now + delay) with now := d.now + delay }

end Clearing.Desk
