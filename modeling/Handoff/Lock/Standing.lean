import Handoff.Lock.Ideal
import Handoff.Lock.Primitive

/-!
# How a lock in use stands

The ideal lock knows its holder and its waiting threads. Those who use a real lock step by step see
little more, and all of it follows from one bit: whether it has been *announced*, since the holder
got the lock, that somebody waits. A thread that starts to wait announces itself, and so does an
attempt that gives up, unless its first look at the clock comes too late; a thread that gets the lock
after it has waited announces the others that may wait, because it does not know of them.

`Standing.step` carries out every step of a session on the ideal lock and this bit, without flags,
counters, nodes or words. The kinds of lock differ in their `Manner`: what can be seen of them, which
calls they have, and how they say that nobody holds them.
-/

namespace Handoff

/-- What tells one kind of lock from another when it is used. -/
structure Manner where
  /-- Whether the waiting threads get the lock in the order of their arrival. -/
  fair : Bool
  /-- Whether it can be seen how many threads hold the lock or wait for it. -/
  counts : Bool
  /-- For a lock on which waiting threads sleep, the number of spins before they do. Its word can be
  seen, and it has calls with a deadline. -/
  sleepsAfter : Option UInt64
  /-- What becomes of a release while nobody holds the lock, if there is such a call. -/
  unheld : Option Fault
deriving Repr, DecidableEq

/-- The manner of a kind of lock. -/
def Primitive.manner : Primitive → Manner
  | .ttas => ⟨false, false, none, some .flagDown⟩
  | .ticket => ⟨true, true, none, some .nobodyServed⟩
  | .mcs => ⟨true, false, none, none⟩
  | .futex => ⟨false, false, some Mutex.spinLimit, some .wordUnlocked⟩

namespace Manner

variable {ι : Type}

/-- Who gets the lock, as far as an answer tells. -/
def tell (m : Manner) : Option ι → Next ι
  | none => .nobody
  | some id => if m.fair then .thread id else .someone

/-- The number of spins after which a thread says that it goes to sleep. If it has been announced
that somebody waits, it does not spin. -/
def spins (m : Manner) (announced : Bool) : Option UInt64 :=
  m.sleepsAfter.map fun limit => if announced then 0 else limit

/-- What can be seen of a lock that so many threads hold or wait for. -/
def view (m : Manner) (users : Nat) (announced : Bool) : View where
  locked := 0 < users
  queueLen := if m.counts then some (UInt64.ofNat users) else none
  state :=
    if m.sleepsAfter.isSome then
      some (if users = 0 then .unlocked
        else if announced then .lockedHasWaiters else .lockedNoWaiters)
    else none

end Manner

/-- How a lock in use stands. -/
structure Standing (ι : Type) extends Ideal ι where
  /-- Whether it has been announced, since the holder got the lock, that somebody waits. -/
  announced : Bool
deriving Repr, DecidableEq

namespace Standing

variable {ι : Type}

/-- A lock that nobody holds. -/
def new (caller : ι) : Standing ι := ⟨.new caller, false⟩

/-- Somebody takes the free lock. -/
def take (a : Standing ι) (id : ι) : Standing ι :=
  { a with holder := some id, announced := false }

/-- A thread starts to wait. -/
def wait (a : Standing ι) (id : ι) : Standing ι :=
  { a with waiting := a.waiting ++ [id], announced := true }

/-- The holder gives the lock to the first of the waiting threads, if there is one. -/
def handOn (a : Standing ι) : Standing ι :=
  { a with holder := a.waiting.head?, waiting := a.waiting.tail, announced := !a.waiting.isEmpty }

/-- The caller takes the lock if it is free, and else leaves things as they are given. -/
def attempt (a otherwise : Standing ι) : Reply ι × Standing ι :=
  if a.locked then (⟨.got false, none⟩, otherwise) else (⟨.got true, none⟩, a.take a.caller)

/-- A thread comes for the lock. -/
def arrive (a : Standing ι) (id : ι) (spunBeforeSleep : Option UInt64) : Reply ι × Standing ι :=
  if a.locked then (⟨.waiting, spunBeforeSleep⟩, a.wait id) else (⟨.acquired id, none⟩, a.take id)

variable (m : Manner)

/-- Whoever holds the lock gives it back. -/
def unlock (a : Standing ι) : SessionAnswer ι × Standing ι :=
  if a.locked then (.handed (m.tell a.waiting.head?), a.handOn)
  else
    match m.unheld with
    | none => (.notHeld, a)
    | some fault => (.fault fault, a)

/-- The caller takes the lock, unless that would block it. -/
def lockByCaller (a : Standing ι) : Reply ι × Standing ι :=
  if a.locked then (⟨.wouldBlock, none⟩, a) else (⟨.got true, none⟩, a.take a.caller)

/-- The caller tries until a span is over, unless that would block it. An attempt announces that
somebody waits if its first look at the clock leaves time for that. -/
def tryUntil (span : Span) (clock : ClockReadings) (a : Standing ι) : Reply ι × Standing ι :=
  if a.locked && !clock.outlasts span then (⟨.wouldBlock, none⟩, a)
  else a.attempt { a with announced := a.announced || clock.leavesTime span }

/-- The caller tries for a span, unless it is not ready to wait for so long. -/
def tryFor (span : Span) (clock : ClockReadings) (a : Standing ι) : Reply ι × Standing ι :=
  if a.locked && Session.patience.shorterThan span then (⟨.wouldBlock, none⟩, a)
  else if (clock.start.later? span).isNone then a.lockByCaller
  else a.tryUntil span clock

/-- A thread is started that tries for a span. -/
def spawnFor (id : ι) (span : Span) (start : Instant) (a : Standing ι) : Reply ι × Standing ι :=
  if span.shorterThan Session.leastTime then (⟨.refused, none⟩, a)
  else if (start.later? span).isNone then a.arrive id (m.spins a.announced)
  else if a.locked && a.announced then (⟨.refused, none⟩, a)
  else a.arrive id none

/-- Whoever holds the lock unwinds, unless that is the caller. -/
def unwind [BEq ι] (a : Standing ι) : SessionAnswer ι × Standing ι :=
  match a.holder with
  | none => (.refused, a)
  | some id =>
    if id == a.caller then (.refused, a) else (.unwound (m.tell a.waiting.head?), a.handOn)

/-- Carries out a step. -/
def step [BEq ι] (a : Standing ι) : SessionStep ι → Reply ι × Standing ι
  | .lock => a.lockByCaller
  | .tryLock => a.attempt a
  | .threadTryLock => (⟨.got (!a.locked), none⟩, a)
  | .tryLockFor span clock =>
    if m.sleepsAfter.isSome then a.tryFor span clock else (⟨.unsupported, none⟩, a)
  | .tryLockUntilNow clock =>
    if m.sleepsAfter.isSome then a.tryUntil ⟨0⟩ clock else (⟨.unsupported, none⟩, a)
  | .spawn id => a.arrive id (m.spins a.announced)
  | .spawnFor id span start =>
    if m.sleepsAfter.isSome then a.spawnFor m id span start else (⟨.unsupported, none⟩, a)
  | .unlock =>
    let (answer, a) := a.unlock m
    (⟨answer, none⟩, a)
  | .unlockFair =>
    if m.fair && m.unheld.isSome then
      let (answer, a) := a.unlock m
      (⟨answer, none⟩, a)
    else (⟨.unsupported, none⟩, a)
  | .unwind =>
    if m.unheld.isSome then (⟨.unsupported, none⟩, a)
    else
      let (answer, a) := a.unwind m
      (⟨answer, none⟩, a)
  | .look => (⟨.shown, none⟩, a)

/-- The number of threads that hold the lock or wait for it. -/
def users (a : Standing ι) : Nat := a.holder.toList.length + a.waiting.length

/-- What can be seen of the lock. -/
def view (a : Standing ι) : View := m.view a.users a.announced

/-- Carries out steps in order: the reply to each and the view after it. -/
def run [BEq ι] (a : Standing ι) : List (SessionStep ι) → List (Reply ι × View) × Standing ι
  | [] => ([], a)
  | step :: steps =>
    let (reply, a) := a.step m step
    let view := a.view m
    let (replies, a) := a.run steps
    ((reply, view) :: replies, a)

/-- Gives the lock back until nobody holds it: who gets it each time. -/
def drain (a : Standing ι) : List (Next ι) :=
  if a.locked then a.waiting.map (fun id => m.tell (some id)) ++ [.nobody] else []

end Standing

end Handoff
