import Handoff.Lock.Basic

/-!
# Values behind a lock

A `Guarded` value is a list that can be reached only while its lock is held. Whoever takes the lock
holds a guard, and giving up the guard gives the lock back, also while a panic unwinds. A guard can
be forgotten, and then the lock stays held; a lock that is held only while a closure runs has no
guard to forget.
-/

namespace Handoff

/-- A list behind a lock. -/
structure Guarded (L : RawLock) (α : Type) where
  lock : L.State
  items : Array α

/-- A use of a guarded list. -/
inductive GuardedStep (α : Type)
  /-- Append a value. -/
  | append (value : α)
  /-- Append a value if the lock is free. -/
  | tryAppend (value : α)
  /-- Append a value and panic. -/
  | appendAndPanic (value : α)
  /-- Append a value, and while holding the lock try to append another one. -/
  | appendTwice (value other : α)
  /-- Copy the list. -/
  | copy
  /-- Replace the list through the only reference to it, without the lock. -/
  | replace (items : Array α)
  /-- Let one thread per label append its label a number of times. -/
  | threads (labels : List α) (times : Nat)
  /-- Take the lock and forget the guard. -/
  | leak
  /-- Give the lock back without a guard. -/
  | forceUnlock
deriving Repr, DecidableEq

/-- What a use answers. -/
inductive GuardedAnswer (α : Type)
  | wouldBlock
  | length (length : Nat)
  /-- An attempt: the new length if it got the lock. -/
  | tried (length : Option Nat)
  | panicked
  /-- Whether the lock was held, and whether the second attempt got it. -/
  | held (locked got : Bool)
  | items (items : Array α)
  | leaked
  | unlocked
  | fault (fault : Fault)
  | refused
deriving Repr, DecidableEq

namespace Guarded

variable {L : RawLock} {α : Type}

/-- A list behind a new lock. -/
def new (items : Array α) : Guarded L α := ⟨L.new, items⟩

/-- Whether the lock is held. -/
def locked (g : Guarded L α) : Bool := (L.view g.lock).locked

/-- What a use of the list leaves behind if the guard can be given up. -/
def afterUse (g : Guarded L α) (pass : L.Pass) (answer : GuardedAnswer α) :
    GuardedAnswer α × Guarded L α :=
  match L.unlock pass g.lock with
  | .ok release => (answer, { g with lock := release.state })
  | .error fault => (.fault fault, g)

/-- Takes the lock, uses the list, and gives the lock back. -/
def hold (g : Guarded L α) (use : Guarded L α → GuardedAnswer α × Guarded L α) :
    GuardedAnswer α × Guarded L α :=
  if g.locked then (.wouldBlock, g)
  else
    let arrival := L.lock g.lock
    if arrival.holds then
      let (answer, g) := use { g with lock := arrival.state }
      g.afterUse arrival.pass answer
    else (.wouldBlock, g)

/-- Tries to take the lock, and if it got it, uses the list and gives the lock back. -/
def tryHold (g : Guarded L α) (use : Guarded L α → GuardedAnswer α × Guarded L α)
    (otherwise : GuardedAnswer α) : GuardedAnswer α × Guarded L α :=
  match L.tryLock g.lock with
  | .error fault => (.fault fault, g)
  | .ok (none, l) => (otherwise, { g with lock := l })
  | .ok (some pass, l) =>
    let (answer, g) := use { g with lock := l }
    g.afterUse pass answer

/-- The list with a value appended. -/
def pushed (g : Guarded L α) (value : α) : Guarded L α :=
  { g with items := g.items.push value }

/-- Appends a value under the lock. -/
def append (g : Guarded L α) (value : α) : GuardedAnswer α × Guarded L α :=
  g.hold fun g => (.length (g.items.size + 1), g.pushed value)

/-- Appends a value if the lock is free. -/
def tryAppend (g : Guarded L α) (value : α) : GuardedAnswer α × Guarded L α :=
  g.tryHold (fun g => (.tried (some (g.items.size + 1)), g.pushed value)) (.tried none)

/-- Appends values, each under a lock of its own. -/
def appendEach (g : Guarded L α) (values : List α) : Guarded L α :=
  values.foldl (fun g value => (g.append value).2) g

/-- Carries out a use. What threads append is kept in the order of their labels, so it does not
depend on their schedule. -/
def step (g : Guarded L α) : GuardedStep α → GuardedAnswer α × Guarded L α
  | .append value => g.append value
  | .tryAppend value => g.tryAppend value
  | .appendAndPanic value => g.hold fun g => (.panicked, g.pushed value)
  | .appendTwice value other => g.hold fun g =>
    let g := g.pushed value
    let locked := g.locked
    match g.tryAppend other with
    | (.tried got, g) => (.held locked got.isSome, g)
    | (answer, g) => (answer, g)
  | .copy => g.hold fun g => (.items g.items, g)
  | .replace items => (.items g.items, { g with items })
  | .threads labels times =>
    if g.locked then (.wouldBlock, g)
    else
      let g := g.appendEach (labels.flatMap (List.replicate times))
      (.length g.items.size, g)
  | .leak =>
    if L.unlockUnheld.isNone then (.refused, g)
    else if g.locked then (.wouldBlock, g)
    else
      let arrival := L.lock g.lock
      if arrival.holds then (.leaked, { g with lock := arrival.state })
      else (.wouldBlock, g)
  | .forceUnlock =>
    match L.unlockUnheld with
    | none => (.refused, g)
    | some call =>
      match call g.lock with
      | .ok release => (.unlocked, { g with lock := release.state })
      | .error fault => (.fault fault, g)

/-- Carries out uses in order: the answer to each, and whether the lock is held after it. -/
def run (g : Guarded L α) : List (GuardedStep α) → List (GuardedAnswer α × Bool) × Guarded L α
  | [] => ([], g)
  | step :: steps =>
    let (answer, g) := g.step step
    let locked := g.locked
    let (answers, g) := g.run steps
    ((answer, locked) :: answers, g)

end Guarded

end Handoff
