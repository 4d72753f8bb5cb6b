import Handoff.Lock.Flag
import Handoff.Spin
import Handoff.Threads.Basic

/-!
# The flag lock, access by access

A thread that wants the lock swaps; if that fails it reads the flag, again and again, until it is
down, and swaps again. The swap of a thread that waits may fail although the flag is down; the swap
of a thread that only tries fails for no such reason.
-/

namespace Handoff.FlagLock

/-- Where a thread is in the code of the flag lock. -/
inductive Point
  | idle
  /-- In `lock`, before the swap. -/
  | swapping (w : SpinWait)
  /-- In `lock`, before a look at the flag. -/
  | watching (w : SpinWait)
  /-- In `tryLock`, before the swap. -/
  | trying
  | holding
  /-- In `unlock`, before the check that the flag is up. -/
  | checking
  /-- In `unlock`, before the flag is lowered. -/
  | lowering
  | broken
deriving Repr, DecidableEq

/-- What a thread does next. -/
inductive Choice
  /-- Start a call. -/
  | lock
  | tryLock
  | unlock
  /-- Make the next access. -/
  | proceed
  /-- The same, and a swap that may fail for no reason does. -/
  | failSpuriously
deriving Repr, DecidableEq

/-- One access of a thread. -/
def access (choice : Choice) (l : FlagLock) : Point → FlagLock × Point
  | .idle =>
    match choice with
    | .lock => (l, .swapping .new)
    | .tryLock => (l, .trying)
    | _ => (l, .idle)
  | .swapping w =>
    if choice = .failSpuriously then (l, .watching w)
    else
      match l.raise with
      | (true, l) => (l, .holding)
      | (false, l) => (l, .watching w)
  | .watching w => if l.raised then (l, .watching w.spin) else (l, .swapping w)
  | .trying =>
    match l.raise with
    | (true, l) => (l, .holding)
    | (false, l) => (l, .idle)
  | .holding => if choice = .unlock then (l, .checking) else (l, .holding)
  | .checking => if l.raised then (l, .lowering) else (l, .broken)
  | .lowering => (⟨false⟩, .idle)
  | .broken => (l, .broken)

/-- The flag lock as threads run it. -/
def code (ι : Type) : LockCode ι where
  Memory := FlagLock
  Point := Point
  Choice := Choice
  memory := new
  entry := .idle
  step _ := access
  lockEntry := .swapping .new
  unlockEntry _ := .checking
  owns p := p = .holding
  idle p := p = .idle
  broken p := p = .broken

end Handoff.FlagLock
