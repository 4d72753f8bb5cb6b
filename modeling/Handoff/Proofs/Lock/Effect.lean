import Mathlib.Logic.Basic
import Handoff.Lock.Standing

/-!
# What a step can do

There are many steps, but only four things that one of them can do to how a lock stands: somebody
takes the free lock, a thread starts to wait for it, its holder hands it on, or an attempt that gives
up after a while leaves behind that somebody waits. `Standing.Effect` says which of these a step has
done and what its answer tells of it, and `Standing.effect_step` that every step does one of them or
nothing.
-/

namespace Handoff

variable {ι : Type}

/-! ### What answers tell -/

/-- Whether nobody gets the lock. -/
def Next.isNobody : Next ι → Bool
  | .nobody => true
  | .thread _ | .someone => false

/-- A release tells that nobody gets the lock exactly if nobody does. -/
theorem Manner.isNobody_tell (m : Manner) (heir : Option ι) :
    (m.tell heir).isNobody = !heir.isSome := by
  cases heir with
  | none => rfl
  | some id =>
    rw [tell]
    split <;> rfl

/-- Who gets the lock, if a step has given it back. -/
def SessionAnswer.next? : SessionAnswer ι → Option (Next ι)
  | .handed next | .unwound next => some next
  | _ => none

/-- Whether a step has handed the lock to a thread that waited for it. -/
def SessionAnswer.handsOver (answer : SessionAnswer ι) : Bool :=
  answer.next?.any fun next => !next.isNobody

namespace SessionStep

/-- The thread that has started to wait in a step. -/
def waiter? : SessionStep ι → SessionAnswer ι → Option ι
  | .spawn id, .waiting | .spawnFor id _ _, .waiting => some id
  | _, _ => none

/-- Whether somebody has taken the free lock in a step, and holds it still. -/
def takes : SessionStep ι → SessionAnswer ι → Bool
  | .threadTryLock, _ => false
  | _, .got success => success
  | _, .acquired _ => true
  | _, _ => false

/-- Whether an attempt has given up in a step after a while, which means that its first look at the
clock left it time for a round. -/
def givesUp : SessionStep ι → SessionAnswer ι → Bool
  | .tryLockFor span clock, .got false => clock.leavesTime span
  | _, _ => false

theorem waiter?_eq_none (step : SessionStep ι) {answer : SessionAnswer ι}
    (h : answer ≠ .waiting) : step.waiter? answer = none := by
  cases step <;> first | rfl | (cases answer <;> first | rfl | exact absurd rfl h)

/-- A step that takes the lock neither gives it back nor waits for it. -/
theorem next?_of_takes {step : SessionStep ι} {answer : SessionAnswer ι}
    (h : step.takes answer = true) : answer.next? = none ∧ answer ≠ .waiting := by
  cases answer with
  | waiting | handed next | unwound next => cases step <;> exact nomatch h
  | _ => exact ⟨rfl, nofun⟩

theorem next?_of_givesUp {step : SessionStep ι} {answer : SessionAnswer ι}
    (h : step.givesUp answer = true) : answer.next? = none ∧ answer ≠ .waiting := by
  cases answer with
  | waiting | handed next | unwound next => cases step <;> exact nomatch h
  | _ => exact ⟨rfl, nofun⟩

theorem takes_waiting (step : SessionStep ι) : step.takes .waiting = false := by
  cases step <;> rfl

theorem takes_of_givesUp {step : SessionStep ι} {answer : SessionAnswer ι}
    (h : step.givesUp answer = true) : step.takes answer = false := by
  cases answer with
  | got success =>
    cases success with
    | false => cases step <;> rfl
    | true => cases step <;> exact nomatch h
  | _ => cases step <;> exact nomatch h

end SessionStep

/-! ### Effects -/

namespace Standing

variable {m : Manner} {a a' : Standing ι} {step : SessionStep ι} {reply : Reply ι}

/-- What a step has done to how a lock stands, and what it has answered. -/
inductive Effect (m : Manner) (a : Standing ι) :
    SessionStep ι → Reply ι → Standing ι → Prop
  | take {step : SessionStep ι} {answer : SessionAnswer ι} {id : ι} (hfree : a.locked = false)
    (htakes : step.takes answer = true) : Effect m a step ⟨answer, none⟩ (a.take id)
  | wait {step : SessionStep ι} {id : ι} {spun : Option UInt64} (hheld : a.locked = true)
    (hwaiter : step.waiter? .waiting = some id) : Effect m a step ⟨.waiting, spun⟩ (a.wait id)
  | handOn {step : SessionStep ι} {answer : SessionAnswer ι} (hheld : a.locked = true)
    (hnext : answer.next? = some (m.tell a.waiting.head?)) :
    Effect m a step ⟨answer, none⟩ a.handOn
  | giveUp {step : SessionStep ι} {answer : SessionAnswer ι} (hheld : a.locked = true)
    (hgivesUp : step.givesUp answer = true) :
    Effect m a step ⟨answer, none⟩ { a with announced := true }
  /-- Nothing is done, and the answer tells so. -/
  | still {step : SessionStep ι} {answer : SessionAnswer ι} (htakes : step.takes answer = false)
    (hwaiting : answer ≠ .waiting) (hnext : answer.next? = none)
    (hgivesUp : step.givesUp answer = false) : Effect m a step ⟨answer, none⟩ a

/-- The caller's attempt takes the lock, or it may have announced that somebody waits. -/
theorem effect_attempt {announced : Bool} (htakes : step.takes (.got true) = true)
    (hlost : step.takes (.got false) = false)
    (hannounced : announced = (a.announced || step.givesUp (.got false))) :
    Effect m a step (a.attempt { a with announced }).1 (a.attempt { a with announced }).2 := by
  rw [attempt]
  cases hlocked : a.locked with
  | false => exact .take hlocked htakes
  | true =>
    subst hannounced
    cases hgivesUp : step.givesUp (.got false) with
    | false =>
      rw [Bool.or_false]
      exact .still hlost nofun rfl hgivesUp
    | true =>
      rw [Bool.or_true]
      exact .giveUp hlocked hgivesUp

/-- The caller takes the lock, if that does not block it. -/
theorem effect_lockByCaller (htakes : step.takes (.got true) = true)
    (hblocked : step.takes .wouldBlock = false ∧ step.givesUp .wouldBlock = false) :
    Effect m a step a.lockByCaller.1 a.lockByCaller.2 := by
  rw [lockByCaller]
  cases hlocked : a.locked with
  | false => exact .take hlocked htakes
  | true => exact .still hblocked.1 nofun rfl hblocked.2

/-- The caller's attempt for a span takes the lock or gives up, if that does not block it. -/
theorem effect_tryUntil {span : Span} {clock : ClockReadings}
    (htakes : step.takes (.got true) = true) (hlost : step.takes (.got false) = false)
    (hblocked : step.takes .wouldBlock = false ∧ step.givesUp .wouldBlock = false)
    (hgivesUp : clock.leavesTime span = step.givesUp (.got false)) :
    Effect m a step (a.tryUntil span clock).1 (a.tryUntil span clock).2 := by
  rw [tryUntil]
  split
  · exact .still hblocked.1 nofun rfl hblocked.2
  · exact effect_attempt htakes hlost (congrArg (a.announced || ·) hgivesUp)

/-- A thread that comes for the lock takes it or starts to wait. -/
theorem effect_arrive {id : ι} (htakes : step.takes (.acquired id) = true)
    (hwaiter : step.waiter? .waiting = some id) (spun : Option UInt64) :
    Effect m a step (a.arrive id spun).1 (a.arrive id spun).2 := by
  rw [arrive]
  cases hlocked : a.locked with
  | false => exact .take hlocked htakes
  | true => exact .wait hlocked hwaiter

/-- A release hands the lock on, unless nobody holds it. -/
theorem effect_unlock (step : SessionStep ι)
    (hstep : ∀ fault, step.takes (.fault fault) = false ∧ step.givesUp (.fault fault) = false)
    (hstep' : step.takes .notHeld = false ∧ step.givesUp .notHeld = false) :
    Effect m a step ⟨(a.unlock m).1, none⟩ (a.unlock m).2 := by
  rw [unlock]
  cases hlocked : a.locked with
  | true => exact .handOn hlocked rfl
  | false =>
    cases m.unheld with
    | none => exact .still hstep'.1 nofun rfl hstep'.2
    | some fault => exact .still (hstep fault).1 nofun rfl (hstep fault).2

theorem effect_unwind [BEq ι] : Effect m a .unwind ⟨(a.unwind m).1, none⟩ (a.unwind m).2 := by
  rw [unwind]
  cases hholder : a.holder with
  | none => exact .still rfl nofun rfl rfl
  | some id =>
    dsimp only
    split
    · exact .still rfl nofun rfl rfl
    · refine .handOn ?_ rfl
      rw [Ideal.locked, hholder]
      rfl

/-- Every step takes the lock, lets a thread wait for it, hands it on, leaves an announcement behind,
or does nothing. -/
theorem effect_step [BEq ι] (m : Manner) (a : Standing ι) (step : SessionStep ι) :
    Effect m a step (a.step m step).1 (a.step m step).2 := by
  cases step with
  | lock => exact effect_lockByCaller rfl ⟨rfl, rfl⟩
  | tryLock => exact effect_attempt rfl rfl (Bool.or_false _).symm
  | threadTryLock => exact .still rfl nofun rfl rfl
  | tryLockFor span clock =>
    rw [Standing.step]
    split
    · rw [tryFor]
      split
      · exact .still rfl nofun rfl rfl
      · split
        · exact effect_lockByCaller rfl ⟨rfl, rfl⟩
        · exact effect_tryUntil rfl rfl ⟨rfl, rfl⟩ rfl
    · exact .still rfl nofun rfl rfl
  | tryLockUntilNow clock =>
    rw [Standing.step]
    split
    · exact effect_tryUntil rfl rfl ⟨rfl, rfl⟩ clock.leavesTime_zero
    · exact .still rfl nofun rfl rfl
  | spawn id => exact effect_arrive rfl rfl _
  | spawnFor id span start =>
    rw [Standing.step]
    split
    · rw [spawnFor]
      split
      · exact .still rfl nofun rfl rfl
      · split
        · exact effect_arrive rfl rfl _
        · split
          · exact .still rfl nofun rfl rfl
          · exact effect_arrive rfl rfl _
    · exact .still rfl nofun rfl rfl
  | unlock => exact effect_unlock .unlock (fun _ => ⟨rfl, rfl⟩) ⟨rfl, rfl⟩
  | unlockFair =>
    rw [Standing.step]
    split
    · exact effect_unlock .unlockFair (fun _ => ⟨rfl, rfl⟩) ⟨rfl, rfl⟩
    · exact .still rfl nofun rfl rfl
  | unwind =>
    rw [Standing.step]
    split
    · exact .still rfl nofun rfl rfl
    · exact effect_unwind
  | look => exact .still rfl nofun rfl rfl

/-- Threads wait only for a lock that somebody holds, and it is announced that they do. -/
structure Sound (a : Standing ι) : Prop where
  waiting (hfree : a.locked = false) : a.waiting = []
  announced (hwaiting : a.waiting ≠ []) : a.announced = true

theorem sound_new (caller : ι) : (new caller).Sound := ⟨fun _ => rfl, nofun⟩

theorem Effect.sound (h : Effect m a step reply a') (ha : a.Sound) : a'.Sound := by
  cases h with
  | take hfree htakes => exact ⟨nofun, fun hwaiting => absurd (ha.waiting hfree) hwaiting⟩
  | wait hheld hwaiter =>
    exact ⟨fun hfree => absurd (hheld.symm.trans hfree) (by decide), fun _ => rfl⟩
  | handOn hheld hnext =>
    refine ⟨fun hfree => ?_, fun hwaiting => ?_⟩
    · have hnone : a.waiting = [] :=
        List.head?_eq_none_iff.1 (Option.not_isSome_iff_eq_none.1 (Bool.eq_false_iff.1 hfree))
      exact congrArg List.tail hnone
    · have hsome : a.waiting ≠ [] := fun e => hwaiting (congrArg List.tail e)
      rw [Standing.handOn, List.isEmpty_eq_false_iff.2 hsome, Bool.not_false]
  | giveUp hheld hgivesUp =>
    exact ⟨fun hfree => absurd (hheld.symm.trans hfree) (by decide), fun _ => rfl⟩
  | still htakes hwaiting hnext hgivesUp => exact ha

theorem sound_run [BEq ι] (ha : a.Sound) (m : Manner) (steps : List (SessionStep ι)) :
    (a.run m steps).2.Sound := by
  induction steps generalizing a with
  | nil => exact ha
  | cons step steps ih => exact ih ((effect_step m a step).sound ha)

end Standing

end Handoff
