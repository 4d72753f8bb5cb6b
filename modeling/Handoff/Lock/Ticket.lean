import Handoff.Lock.Basic
import Handoff.Word

/-!
# The ticket lock

Two counters: the number of the next free ticket and the number of the ticket that is being served.
A thread draws a ticket and waits until its number is served, so the threads get the lock in the
order in which they drew. To unlock is to serve the next number.

The counters are words. Drawing wraps silently; the sum in `tryLock` is checked.
-/

namespace Handoff

/-- A ticket lock. -/
structure TicketLock where
  /-- The number of the next free ticket. -/
  next : UInt64
  /-- The number that is being served. -/
  owner : UInt64
deriving Repr, DecidableEq

namespace TicketLock

/-- A lock of which no ticket has been drawn. -/
def new : TicketLock := ⟨0, 0⟩

/-- Draws a ticket. -/
def draw (l : TicketLock) : UInt64 × TicketLock :=
  (l.next, { l with next := l.next + 1 })

/-- Whether a ticket is being served. -/
def serves (l : TicketLock) (ticket : UInt64) : Bool :=
  l.owner = ticket

/-- One compare-and-swap that draws the ticket `ticket` if that is the next free one; `after` is
the number that follows it. -/
def drawExactly (l : TicketLock) (ticket after : UInt64) : Bool × TicketLock :=
  if l.next = ticket then (true, { l with next := after }) else (false, l)

/-- Draws a ticket only if it would be served at once. -/
def tryLock (l : TicketLock) : Except Fault (Option UInt64 × TicketLock) :=
  let ticket := l.owner
  match Word.add? ticket 1 with
  | none => .error .ticketsExhausted
  | some after =>
    let (won, l) := l.drawExactly ticket after
    .ok (if won then some ticket else none, l)

/-- Whether some ticket is drawn and not yet done, as far as the two numbers given tell. -/
def outstanding (owner next : UInt64) : Bool :=
  owner < next

/-- Serves the next number. -/
def serveNext (l : TicketLock) : TicketLock :=
  { l with owner := l.owner + 1 }

/-- Gives the lock back; some ticket has to be drawn. -/
def unlock (l : TicketLock) : Except Fault TicketLock :=
  if outstanding l.owner l.next then .ok l.serveNext else .error .nobodyServed

/-- The number of tickets from `owner` up to but excluding `next`, zero if there are none. -/
def between (owner next : UInt64) : UInt64 :=
  if outstanding owner next then next - owner else 0

/-- The number of threads that hold the lock or wait for it. -/
def queueLen (l : TicketLock) : UInt64 :=
  between l.owner l.next

/-- Whether somebody holds the lock or waits for it. -/
def isLocked (l : TicketLock) : Bool :=
  0 < l.queueLen

/-- The ticket lock as a `RawLock`; a pass is a ticket. -/
def raw : RawLock where
  State := TicketLock
  Pass := UInt64
  new := new
  fair := true
  tryLock := tryLock
  lock l :=
    let (ticket, l) := l.draw
    ⟨l, ticket, l.serves ticket, none⟩
  recheck ticket l := (l.serves ticket, l)
  unlock _ l := return ⟨← l.unlock, true⟩
  unlockUnheld := some fun l => return ⟨← l.unlock, true⟩
  timed := none
  view l := ⟨l.isLocked, some l.queueLen, none⟩

end TicketLock

end Handoff
