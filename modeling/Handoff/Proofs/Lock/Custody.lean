import Handoff.Lock.Basic

/-!
# Custody

Whatever a lock is made of, behind it stands a *line* of passes: first that of the holder, then
those of the waiting threads in the order of their arrival. Nobody waits for a lock that nobody
holds, since the first of a line is its holder.

A `Custody` of a lock says which line stands behind a state, and that the calls of the lock do to
the line what they should: `lock` puts its pass at the end, `tryLock` does so only if the line is
empty, and a release drops the first pass and lets the second one find itself the holder. What is
proved of a custody holds for every lock that has one.

Passes may run out, as tickets do. So the line is kept together with the number of passes drawn so
far, and nothing is promised for a draw when there is no `Room` left.
-/

namespace Handoff

/-- Whether a fault says that nobody holds the lock. -/
def Fault.saysUnheld : Fault → Bool
  | .flagDown | .nobodyServed | .wordUnlocked => true
  | .ticketsExhausted | .successorUnlinked => false

/-- A line of passes behind every state of a lock. -/
structure Custody (L : RawLock) where
  /-- Whether a pass can be drawn after so many. -/
  Room : Nat → Prop
  /-- The line behind a state in which so many passes have been drawn. -/
  Holds : Nat → L.State → List L.Pass → Prop
  new : Holds 0 L.new []
  /-- The lock looks held exactly if somebody is in the line. -/
  locked {n : Nat} {l : L.State} {line : List L.Pass} (h : Holds n l line) :
    (L.view l).locked = !line.isEmpty
  /-- Whoever takes the lock comes last, and holds it if nobody is in front. -/
  lock {n : Nat} {l : L.State} {line : List L.Pass} (h : Holds n l line) (hroom : Room n) :
    (L.lock l).holds = line.isEmpty ∧
      Holds (n + 1) (L.lock l).state (line ++ [(L.lock l).pass])
  /-- An attempt on a free lock gets it. -/
  tryLock_nil {n : Nat} {l : L.State} (h : Holds n l []) (hroom : Room n) :
    ∃ pass l', L.tryLock l = .ok (some pass, l') ∧ Holds (n + 1) l' [pass]
  /-- An attempt on a held lock leaves no trace. -/
  tryLock_cons {n : Nat} {l : L.State} {pass : L.Pass} {line : List L.Pass}
    (h : Holds n l (pass :: line)) : L.tryLock l = .ok (none, l)
  /-- The last one of a line leaves the lock free. -/
  unlock_last {n : Nat} {l : L.State} {pass : L.Pass} (h : Holds n l [pass]) :
    ∃ release, L.unlock pass l = .ok release ∧ Holds n release.state []
  /-- Otherwise the next one is told to look again and finds itself the holder. -/
  unlock_next {n : Nat} {l : L.State} {pass heir : L.Pass} {line : List L.Pass}
    (h : Holds n l (pass :: heir :: line)) :
    ∃ release l', L.unlock pass l = .ok release ∧ release.wakes = true ∧
      L.recheck heir release.state = (true, l') ∧ Holds n l' (heir :: line)
  /-- A free lock cannot be given back. -/
  unlockUnheld {n : Nat} {l : L.State} {call : L.State → Except Fault (Release L.State)}
    (h : Holds n l []) (hcall : L.unlockUnheld = some call) :
    ∃ fault, call l = .error fault ∧ fault.saysUnheld = true

end Handoff
