import Handoff.Lock.Ticket
import Handoff.Threads.Basic

/-!
# The ticket lock, access by access

Each call looks at the two counters one after the other: a thread that tries the lock reads the
number being served and then draws exactly that ticket, or none; a release checks that the number
being served is below the next free one before it serves the next; and a thread that counts the
queue reads the number being served first.
-/

namespace Handoff.TicketLock

/-- Where a thread is in the code of the ticket lock. -/
inductive Point
  | idle
  /-- In `lock`, before drawing. -/
  | drawing
  /-- In `lock`, before a look at the number being served. -/
  | waiting (ticket : UInt64)
  | holding (ticket : UInt64)
  /-- In `tryLock`, before reading the number being served. -/
  | trying
  /-- In `tryLock`, before the swap that draws `ticket`. -/
  | drawingExactly (ticket after : UInt64)
  /-- In `unlock`, before reading the number being served. -/
  | checking (ticket : UInt64)
  /-- In `unlock`, before reading the number of the next free ticket. -/
  | comparing (ticket owner : UInt64)
  /-- In `unlock`, before the next number is served. -/
  | serving (ticket : UInt64)
  /-- In `queueLen`, before reading the number being served. -/
  | counting
  /-- In `queueLen`, before reading the number of the next free ticket. -/
  | countingFrom (owner : UInt64)
  /-- `queueLen` has returned. -/
  | counted (length : UInt64)
  | broken
deriving Repr, DecidableEq

/-- What a thread does next. -/
inductive Choice
  /-- Start a call. -/
  | lock
  | tryLock
  | unlock
  | queueLen
  /-- Make the next access. -/
  | proceed
deriving Repr, DecidableEq

/-- The start of a call by a thread that has none under way and does not own the lock. -/
def call (p : Point) : Choice → Point
  | .lock => .drawing
  | .tryLock => .trying
  | .queueLen => .counting
  | .unlock | .proceed => p

/-- One access of a thread. -/
def access (choice : Choice) (l : TicketLock) : Point → TicketLock × Point
  | .idle => (l, call .idle choice)
  | .counted n => (l, call (.counted n) choice)
  | .drawing =>
    let (ticket, l) := l.draw
    (l, .waiting ticket)
  | .waiting ticket => (l, if l.serves ticket then .holding ticket else .waiting ticket)
  | .trying =>
    match Word.add? l.owner 1 with
    | none => (l, .broken)
    | some after => (l, .drawingExactly l.owner after)
  | .drawingExactly ticket after =>
    match l.drawExactly ticket after with
    | (true, l) => (l, .holding ticket)
    | (false, l) => (l, .idle)
  | .holding ticket => (l, if choice = .unlock then .checking ticket else .holding ticket)
  | .checking ticket => (l, .comparing ticket l.owner)
  | .comparing ticket owner =>
    (l, if outstanding owner l.next then .serving ticket else .broken)
  | .serving _ => (l.serveNext, .idle)
  | .counting => (l, .countingFrom l.owner)
  | .countingFrom owner => (l, .counted (between owner l.next))
  | .broken => (l, .broken)

/-- The ticket lock as threads run it. -/
def code (ι : Type) : LockCode ι where
  Memory := TicketLock
  Point := Point
  Choice := Choice
  memory := new
  entry := .idle
  step _ := access
  lockEntry := .drawing
  unlockEntry
    | .holding ticket => .checking ticket
    | p => p
  owns
    | .holding _ => true
    | _ => false
  idle p := p = .idle
  broken p := p = .broken

end Handoff.TicketLock
