import Handoff.Bench.Run
import Handoff.Threads.Flag
import Handoff.Threads.Ticket
import Handoff.Threads.Queue
import Handoff.Threads.Mutex

/-!
# The workers of a benchmark, access by access

Each worker takes the lock, reads the counter, writes it plus one, and gives the lock back, as often
as it is told. The calls on the lock are made access by access in the code of the lock
(`Primitive.code`), and reading and writing the counter are accesses of their own.
-/

namespace Handoff

/-- The code of a kind of lock. -/
def Primitive.code (ι : Type) [DecidableEq ι] : Primitive → LockCode ι
  | .ttas => FlagLock.code ι
  | .ticket => TicketLock.code ι
  | .mcs => QueueLock.code ι
  | .futex => Mutex.code ι

namespace Bench

/-- Where a worker is. `left` is the number of increments to go, the current one included. -/
inductive WorkerPoint (Q : Type)
  /-- Taking the lock. -/
  | acquiring (left : Nat) (p : Q)
  /-- Owning the lock, before reading the counter. -/
  | reading (left : Nat) (p : Q)
  /-- Owning the lock, before writing the counter. -/
  | writing (left : Nat) (p : Q) (value : UInt64)
  /-- Giving the lock back. -/
  | releasing (left : Nat) (p : Q)
  /-- Giving the lock back because of a panic. -/
  | unwinding (p : Q)
  | completed
  | panicked

/-- What the workers share. -/
structure WorkerMemory (M : Type) where
  lock : M
  counter : UInt64

variable {ι : Type} (P : LockCode ι)

/-- Where a worker with a number of increments to go starts the next one. -/
def nextIncrement : Nat → WorkerPoint P.Point
  | 0 => .completed
  | left + 1 => .acquiring (left + 1) P.lockEntry

/-- One access of a worker. -/
def workerAccess (t : ι) (choice : P.Choice) (m : WorkerMemory P.Memory) :
    WorkerPoint P.Point → WorkerMemory P.Memory × WorkerPoint P.Point
  | .acquiring left p =>
    let (lock, p) := P.step t choice m.lock p
    ({ m with lock },
      if P.owns p then .reading left p else if P.broken p then .panicked else .acquiring left p)
  | .reading left p => (m, .writing left p m.counter)
  | .writing left p value =>
    match Word.add? value 1 with
    | none => (m, .unwinding (P.unlockEntry p))
    | some counter => ({ m with counter }, .releasing left (P.unlockEntry p))
  | .releasing left p =>
    let (lock, p) := P.step t choice m.lock p
    ({ m with lock },
      if P.idle p then nextIncrement P (left - 1)
      else if P.broken p then .panicked else .releasing left p)
  | .unwinding p =>
    let (lock, p) := P.step t choice m.lock p
    ({ m with lock }, if P.idle p || P.broken p then .panicked else .unwinding p)
  | .completed => (m, .completed)
  | .panicked => (m, .panicked)

/-- The workers of a benchmark, each with a number of increments to make. -/
def workers (increments : Nat) : Program ι where
  Memory := WorkerMemory P.Memory
  Point := WorkerPoint P.Point
  Choice := P.Choice
  memory := ⟨P.memory, 0⟩
  entry := nextIncrement P increments
  step := workerAccess P

/-- How a worker at a point has ended, if it has. -/
def WorkerPoint.ended? {Q : Type} : WorkerPoint Q → Option WorkerEnd
  | .completed => some .completed
  | .panicked => some .panicked
  | _ => none

end Bench

end Handoff
