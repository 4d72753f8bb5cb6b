import Handoff.Lock.Primitive
import Handoff.Proofs.Lock.Flag
import Handoff.Proofs.Lock.Ticket
import Handoff.Proofs.Lock.Queue
import Handoff.Proofs.Lock.Mutex
import Handoff.Proofs.Lock.Refinement

/-!
# The four locks agree

A flag, two counters, a chain of nodes and a word with three values: what can be told of them by
using them is the same. Each has a custody (`Primitive.custody`), so a session on any of them has
the outcome that it has for the ideal lock (`Custody.outcome_eq`), and `locks_agree` says what that
comes to for the four. Only the ticket lock needs a bound, on the number of tickets drawn.
-/

namespace Handoff

variable {ι : Type}

/-- What a script shows of a lock. -/
structure Outcome (ι : Type) where
  /-- The answer to each step, and whether the lock is held after it. -/
  results : List (SessionAnswer ι × Bool)
  /-- Who gets the lock each time when it is given back in the end. -/
  drained : List (Next ι)
deriving Repr, DecidableEq

/-- What is seen if the waiting threads cannot be told apart. -/
def Outcome.anonymous (o : Outcome ι) : Outcome ι :=
  ⟨o.results.map fun r => (r.1.known false, r.2), o.drained.map (Next.known false)⟩

/-- What a script shows of a new lock. -/
def Session.outcome [BEq ι] (L : RawLock) (caller : ι) (steps : List (SessionStep ι)) :
    Outcome ι :=
  let ran := (Session.new caller : Session L ι).run steps
  ⟨ran.1.map fun r => (r.1.answer.settled, r.2.locked), ran.2.drain.1⟩

/-- What a script shows of the ideal lock. -/
def Ideal.outcome (caller : ι) (steps : List (SessionStep ι)) : Outcome ι :=
  let ran := (Ideal.new caller).run steps
  ⟨ran.1, ran.2.drain⟩

/-- The number of tickets that a script draws of a new ticket lock. -/
def ticketsDrawn [BEq ι] (caller : ι) (steps : List (SessionStep ι)) : Nat :=
  passesDrawn ((Session.new caller : Session TicketLock.raw ι).run steps).1

section Outcomes

variable [BEq ι] {L : RawLock} {steps : List (SessionStep ι)}

/-- The outcome of a script is that of the ideal lock, as far as a lock tells who gets it. -/
theorem Custody.outcome_eq (C : Custody L) (caller : ι)
    (hcommon : ∀ step ∈ steps, step.isCommon = true)
    (hroom : ∀ n ≤ passesDrawn ((Session.new caller : Session L ι).run steps).1, C.Room n) :
    Session.outcome L caller steps =
      if L.fair then Ideal.outcome caller steps else (Ideal.outcome caller steps).anonymous := by
  obtain ⟨hresults, hideal, hkeeps⟩ := (C.keeps_new caller).run hcommon (by rwa [Nat.zero_add])
  have hdrain := hkeeps.drain.1
  rw [hideal] at hdrain
  have heq : Session.outcome L caller steps =
      ⟨((Ideal.new caller).run steps).1.map fun r => (r.1.known L.fair, r.2),
        ((Ideal.new caller).run steps).2.drain.map (Next.known L.fair)⟩ :=
    congrArg₂ Outcome.mk hresults hdrain
  rw [heq]
  cases L.fair with
  | false => rfl
  | true =>
    -- a fair lock tells everything that the ideal lock tells
    have hnext : (Next.known true : Next ι → Next ι) = id := funext Next.known_true
    simp only [SessionAnswer.known_true, hnext, List.map_id, if_true]
    exact congrArg (Outcome.mk · _) (List.map_id _)

/-- The custody of the lock of each kind. -/
def Primitive.custody : (p : Primitive) → Custody p.raw
  | .ttas => FlagLock.custody
  | .ticket => TicketLock.custody
  | .mcs => QueueLock.custody
  | .futex => Mutex.custody

/-- The last number of a word is not a ticket; addresses and the rest do not run out. -/
theorem Primitive.room (p : Primitive) {n : Nat} (h : p = .ticket → n < UInt64.size - 1) :
    p.custody.Room n := by
  cases p with
  | ticket => exact h rfl
  | _ => trivial

/-- **The four locks are one lock.** Whatever common steps are taken on a new lock, the ticket lock
and the queue lock answer as the ideal lock does, are held when it is, and serve the waiting threads
in the same order; so do the flag lock and the sleeping lock, except that they do not tell the
waiting threads apart. In every state that is reached the lock looks held exactly if somebody holds
it, and threads wait only then. The tickets drawn must stay below the last number of a word. -/
theorem locks_agree (caller : ι) (hcommon : ∀ step ∈ steps, step.isCommon = true) :
    let ideal := Ideal.outcome caller steps
    (ticketsDrawn caller steps < UInt64.size - 1 →
        Session.outcome TicketLock.raw caller steps = ideal) ∧
      Session.outcome QueueLock.raw caller steps = ideal ∧
      Session.outcome FlagLock.raw caller steps = ideal.anonymous ∧
      Session.outcome Mutex.raw caller steps = ideal.anonymous ∧
      ∀ p : Primitive, (p = .ticket → ticketsDrawn caller steps < UInt64.size - 1) →
        let s := ((Session.new caller : Session p.raw ι).run steps).2
        s.toIdeal = ((Ideal.new caller).run steps).2 ∧ s.view.locked = s.holder.isSome ∧
          (s.waiting ≠ [] → s.holder.isSome = true) := by
  intro ideal
  refine ⟨fun hfew => ?_, ?_, ?_, ?_, fun p hfew => ?_⟩
  · exact TicketLock.custody.outcome_eq caller hcommon fun n hn => Nat.lt_of_le_of_lt hn hfew
  · exact QueueLock.custody.outcome_eq caller hcommon fun _ _ => trivial
  · exact FlagLock.custody.outcome_eq caller hcommon fun _ _ => trivial
  · exact Mutex.custody.outcome_eq caller hcommon fun _ _ => trivial
  · have hroom : ∀ n ≤ 0 + passesDrawn ((Session.new caller : Session p.raw ι).run steps).1,
        p.custody.Room n := fun n hn => p.room fun hp => by
      subst hp
      rw [Nat.zero_add] at hn
      exact Nat.lt_of_le_of_lt hn (hfew rfl)
    obtain ⟨-, hideal, hkeeps⟩ := (p.custody.keeps_new caller).run hcommon hroom
    exact ⟨hideal, hkeeps.view_locked, hkeeps.isSome_of_waiting⟩

/-- Two threads behind the caller, an attempt in between, and a release too many. -/
theorem locks_agree_two_waiting :
    let steps : List (SessionStep Nat) :=
      [.lock, .spawn 1, .tryLock, .spawn 2, .unlock, .look, .threadTryLock, .unlock, .unlock,
        .unlock]
    let results : List (SessionAnswer Nat × Bool) :=
      [(.got true, true), (.waiting, true), (.got false, true), (.waiting, true),
        (.handed (.thread 1), true), (.shown, true), (.got false, true),
        (.handed (.thread 2), true), (.handed .nobody, false), (.notHeld, false)]
    (∀ step ∈ steps, step.isCommon = true) ∧ ticketsDrawn 0 steps < UInt64.size - 1 ∧
      (Session.outcome TicketLock.raw 0 steps).results = results ∧
      (Session.outcome QueueLock.raw 0 steps).results = results := by
  intro steps results
  have hcommon : ∀ step ∈ steps, step.isCommon = true := by decide
  have hfew : ticketsDrawn 0 steps < UInt64.size - 1 := by decide
  obtain ⟨hticket, hqueue, -⟩ := locks_agree 0 hcommon
  exact ⟨hcommon, hfew, congrArg Outcome.results (hticket hfew), congrArg Outcome.results hqueue⟩

end Outcomes

end Handoff
