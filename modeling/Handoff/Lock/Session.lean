import Handoff.Lock.Basic

/-!
# Sessions

In a session one caller and any number of threads use one lock, step by step. A thread is started
only when it is certain how it ends up: it holds the lock or waits for it. A step that would block
the caller is not carried out.

Everybody in a session goes by an id, the caller too. Ids are only compared where a holder is to
unwind, because the caller never does; so a thread that goes by the caller's id is spared as well.

A session runs on the state of the lock itself (`Session.lock`). Beside it stands what the session
knows: who holds the lock and with which pass, and who waits for it. Whether a waiting thread gets
the lock after a release is the lock's decision: `serve` lets the waiting threads look again, in
the order of their arrival.

What the clock reads in a call with a deadline comes from outside, as a part of the step. An attempt
may be so late that its first look at the clock finds the deadline past.
-/

namespace Handoff

/-- A step of a session. -/
inductive SessionStep (ι : Type)
  /-- The caller takes the lock. -/
  | lock
  /-- The caller takes the lock if it is free. -/
  | tryLock
  /-- A thread takes the lock if it is free, and gives it back at once. -/
  | threadTryLock
  /-- The caller tries for a span of time, given what the clock reads. -/
  | tryLockFor (span : Span) (clock : ClockReadings)
  /-- The caller tries until the instant at which it starts. -/
  | tryLockUntilNow (clock : ClockReadings)
  /-- A thread takes the lock, and holds it until it is told to give it back. -/
  | spawn (id : ι)
  /-- The same with a thread that tries for a span of time from an instant on. -/
  | spawnFor (id : ι) (span : Span) (start : Instant)
  /-- Whoever holds the lock gives it back. -/
  | unlock
  /-- The same through the call that promises fairness. -/
  | unlockFair
  /-- Whoever holds the lock unwinds, unless that is the caller. -/
  | unwind
  /-- Only look at the lock. -/
  | look
deriving Repr, DecidableEq

/-- Who gets a lock that is given back. -/
inductive Next (ι : Type)
  | nobody
  | thread (id : ι)
  /-- One of the waiting threads; which one is not determined. -/
  | someone
deriving Repr, DecidableEq

/-- What a step answers. -/
inductive SessionAnswer (ι : Type)
  | wouldBlock
  /-- An attempt of the caller got the lock or not. -/
  | got (success : Bool)
  /-- A thread holds the lock. -/
  | acquired (id : ι)
  /-- A thread waits. -/
  | waiting
  | refused
  /-- The lock was given back. -/
  | handed (next : Next ι)
  /-- The lock was given back by unwinding. -/
  | unwound (next : Next ι)
  /-- Nobody holds the lock, and there is no call that would give it back. -/
  | notHeld
  | fault (fault : Fault)
  | shown
  /-- The lock has no such call. -/
  | unsupported
deriving Repr, DecidableEq

/-- An answer, and the number of spins after which a thread said that it goes to sleep, if one
did. -/
structure Reply (ι : Type) where
  answer : SessionAnswer ι
  spunBeforeSleep : Option UInt64
deriving Repr, DecidableEq

/-- A lock in use. -/
structure Session (L : RawLock) (ι : Type) where
  /-- The id that the caller goes by. -/
  caller : ι
  lock : L.State
  /-- Who holds the lock, and the pass. -/
  holder : Option (ι × L.Pass)
  /-- The waiting threads and their passes, in the order of their arrival. -/
  waiting : List (ι × L.Pass)

namespace Session

variable {L : RawLock} {ι : Type}

/-- A new lock, which nobody holds. The caller goes by the given id. -/
def new (caller : ι) : Session L ι := ⟨caller, L.new, none, []⟩

/-- The caller waits for no longer than this. -/
def patience : Span := .ofMillis 20

/-- A thread with a deadline is started only if its time is at least this. -/
def leastTime : Span := .ofMillis 10000

/-- What can be seen of the lock. -/
def view (s : Session L ι) : View := L.view s.lock

/-! ### Giving the lock back -/

/-- The waiting threads look at the lock in order until one of them holds it: that thread, and those
that keep waiting. The threads behind it would find the lock held. -/
def serve (l : L.State) :
    List (ι × L.Pass) → Option (ι × L.Pass) × List (ι × L.Pass) × L.State
  | [] => (none, [], l)
  | w :: ws =>
    match L.recheck w.2 l with
    | (true, l) => (some w, ws, l)
    | (false, l) =>
      let (winner, ws, l) := serve l ws
      (winner, w :: ws, l)

/-- Who got the lock, as far as an answer tells. -/
def next (L : RawLock) : Option ι → Next ι
  | none => .nobody
  | some id => if L.fair then .thread id else .someone

/-- The lock has been given back: one of the waiting threads may get it. -/
def afterRelease (s : Session L ι) (release : Release L.State) : Next ι × Session L ι :=
  let (winner, waiting, l) :=
    if release.wakes then serve release.state s.waiting else (none, s.waiting, release.state)
  (next L (winner.map Prod.fst), { s with lock := l, holder := winner, waiting })

/-- Whoever holds the lock gives it back. If nobody does, the call is made all the same, provided
that there is one. -/
def unlock (s : Session L ι) : SessionAnswer ι × Session L ι :=
  let call :=
    match s.holder with
    | some (_, pass) => some (L.unlock pass)
    | none => L.unlockUnheld
  match call with
  | none => (.notHeld, s)
  | some call =>
    match call s.lock with
    | .error fault => (.fault fault, s)
    | .ok release =>
      let (next, s) := s.afterRelease release
      (.handed next, s)

/-! ### Getting the lock -/

/-- The caller has tried to take the lock. -/
def afterTry (s : Session L ι) : Option L.Pass × L.State → Reply ι × Session L ι
  | (some pass, l) => (⟨.got true, none⟩, { s with lock := l, holder := some (s.caller, pass) })
  | (none, l) => (⟨.got false, none⟩, { s with lock := l })

/-- The caller takes the lock, unless that would block it. -/
def lockByCaller (s : Session L ι) : Reply ι × Session L ι :=
  match s.holder with
  | some _ => (⟨.wouldBlock, none⟩, s)
  | none =>
    let arrival := L.lock s.lock
    if arrival.holds then
      (⟨.got true, none⟩,
        { s with lock := arrival.state, holder := some (s.caller, arrival.pass) })
    else (⟨.wouldBlock, none⟩, s)

/-- A thread has come for the lock. -/
def afterArrival (s : Session L ι) (id : ι) (arrival : Arrival L.State L.Pass) :
    Reply ι × Session L ι :=
  if arrival.holds then
    (⟨.acquired id, arrival.spunBeforeSleep⟩,
      { s with lock := arrival.state, holder := some (id, arrival.pass) })
  else
    (⟨.waiting, arrival.spunBeforeSleep⟩,
      { s with lock := arrival.state, waiting := s.waiting ++ [(id, arrival.pass)] })

/-- A thread tries, and gives the lock back at once if it gets it. -/
def tryByThread (s : Session L ι) : SessionAnswer ι × Session L ι :=
  match L.tryLock s.lock with
  | .error fault => (.fault fault, s)
  | .ok (none, l) => (.got false, { s with lock := l })
  | .ok (some pass, l) =>
    match L.unlock pass l with
    | .error fault => (.fault fault, { s with lock := l })
    | .ok release => (.got true, { s with lock := release.state })

/-- The caller tries until a deadline, given the readings of the clock in turn, unless that would
block it because no reading is past the deadline. -/
def tryUntil (timed : TimedCalls L.State L.Pass) (deadline : Instant) (readings : List Instant)
    (s : Session L ι) : Reply ι × Session L ι :=
  match timed.tryLockUntil deadline readings s.lock with
  | (some outcome, l) => s.afterTry (outcome, l)
  | (none, _) => (⟨.wouldBlock, none⟩, s)

/-- The caller tries for a span, unless the lock is held and the span is longer than it is ready to
wait. If the clock ends before the deadline, there is none. -/
def tryFor (timed : TimedCalls L.State L.Pass) (span : Span) (clock : ClockReadings)
    (s : Session L ι) : Reply ι × Session L ι :=
  if s.holder.isSome && patience.shorterThan span then (⟨.wouldBlock, none⟩, s)
  else
    match clock.start.later? span with
    | none => s.lockByCaller
    | some deadline => s.tryUntil timed deadline clock.others

/-- A thread with a deadline is started, which is so far off that the thread goes to sleep before. It
cannot be seen to sleep if its announcement changes nothing, so then it is not started. -/
def spawnUntil (timed : TimedCalls L.State L.Pass) (id : ι) (span : Span) (start : Instant)
    (s : Session L ι) : Reply ι × Session L ι :=
  if span.shorterThan leastTime then (⟨.refused, none⟩, s)
  else
    match start.later? span with
    | none => s.afterArrival id (L.lock s.lock)
    | some _ =>
      if s.holder.isSome && s.view.state ≠ some .lockedNoWaiters then (⟨.refused, none⟩, s)
      else s.afterArrival id (timed.arrive s.lock)

/-! ### Steps -/

/-- Whoever holds the lock unwinds out of the call in which it is held. It is refused if nobody
holds the lock, or somebody does who goes by the caller's id. -/
def unwind [BEq ι] (s : Session L ι) : SessionAnswer ι × Session L ι :=
  match s.holder with
  | none => (.refused, s)
  | some (id, _) =>
    if id == s.caller then (.refused, s)
    else
      match s.unlock with
      | (.handed next, s) => (.unwound next, s)
      | (answer, s) => (answer, s)

/-- Carries out a step. -/
def step [BEq ι] (s : Session L ι) : SessionStep ι → Reply ι × Session L ι
  | .lock => s.lockByCaller
  | .tryLock =>
    match L.tryLock s.lock with
    | .error fault => (⟨.fault fault, none⟩, s)
    | .ok outcome => s.afterTry outcome
  | .threadTryLock =>
    let (answer, s) := s.tryByThread
    (⟨answer, none⟩, s)
  | .tryLockFor span clock =>
    match L.timed with
    | none => (⟨.unsupported, none⟩, s)
    | some timed => s.tryFor timed span clock
  | .tryLockUntilNow clock =>
    match L.timed with
    | none => (⟨.unsupported, none⟩, s)
    | some timed => s.tryUntil timed clock.start clock.others
  | .spawn id => s.afterArrival id (L.lock s.lock)
  | .spawnFor id span start =>
    match L.timed with
    | none => (⟨.unsupported, none⟩, s)
    | some timed => s.spawnUntil timed id span start
  | .unlock =>
    let (answer, s) := s.unlock
    (⟨answer, none⟩, s)
  | .unlockFair =>
    if L.fair && L.unlockUnheld.isSome then
      let (answer, s) := s.unlock
      (⟨answer, none⟩, s)
    else (⟨.unsupported, none⟩, s)
  | .unwind =>
    if L.unlockUnheld.isSome then (⟨.unsupported, none⟩, s)
    else
      let (answer, s) := s.unwind
      (⟨answer, none⟩, s)
  | .look => (⟨.shown, none⟩, s)

/-- Carries out steps in order: the reply to each and the view after it. -/
def run [BEq ι] (s : Session L ι) : List (SessionStep ι) → List (Reply ι × View) × Session L ι
  | [] => ([], s)
  | step :: steps =>
    let (reply, s) := s.step step
    let view := s.view
    let (replies, s) := s.run steps
    ((reply, view) :: replies, s)

/-- Gives the lock back while somebody holds it, but at most `turns` times: who got it each time. -/
def drainWithin : (turns : Nat) → Session L ι → List (Next ι) × Session L ι
  | 0, s => ([], s)
  | turns + 1, s =>
    match s.holder with
    | none => ([], s)
    | some _ =>
      match s.unlock with
      | (.handed next, s) =>
        let (nexts, s) := drainWithin turns s
        (next :: nexts, s)
      | (_, s) => ([], s)

/-- Gives the lock back while somebody holds it. Each turn but the last serves a waiting thread. -/
def drain (s : Session L ι) : List (Next ι) × Session L ι :=
  s.drainWithin (s.waiting.length + 1)

end Session

end Handoff
