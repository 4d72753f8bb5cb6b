import Handoff.Lock.Ideal
import Handoff.Proofs.Lock.Custody

/-!
# Sessions behave like the ideal lock

A session on a lock that has a custody goes step by step as the ideal lock does whose holder and
waiting threads are those of the session (`Session.toIdeal`). Two things are not compared: how a
lock says that nobody holds it (`SessionAnswer.settled`), and which of the waiting threads gets a
lock that does not serve them in order (`SessionAnswer.known`).

`Custody.Keeps` is the invariant of a session: the line behind its lock consists of the passes of
its holder and its waiting threads. Each step keeps it and mirrors the step of the ideal lock
(`Custody.Keeps.step`), hence so does a whole script (`Custody.Keeps.run`), and so does giving the
lock back in the end (`Custody.Keeps.drain`).
-/

namespace Handoff

variable {ι : Type}

/-! ### What is compared -/

/-- Whether a step is one that all locks have. -/
def SessionStep.isCommon : SessionStep ι → Bool
  | .lock | .tryLock | .threadTryLock | .spawn _ | .unlock | .look => true
  | .tryLockFor _ _ | .tryLockUntilNow _ | .spawnFor _ _ _ | .unlockFair | .unwind => false

/-- The answer, whichever way a lock has to say that nobody holds it. -/
def SessionAnswer.settled : SessionAnswer ι → SessionAnswer ι
  | .fault f => if f.saysUnheld then .notHeld else .fault f
  | answer => answer

/-- Who gets the lock, as far as a lock tells that is fair or not. -/
def Next.known (fair : Bool) : Next ι → Next ι
  | .nobody => .nobody
  | .thread id => if fair then .thread id else .someone
  | .someone => .someone

/-- The answer, as far as a lock tells who gets it that is fair or not. -/
def SessionAnswer.known (fair : Bool) : SessionAnswer ι → SessionAnswer ι
  | .handed next => .handed (next.known fair)
  | .unwound next => .unwound (next.known fair)
  | answer => answer

/-- How many passes a step draws that has an answer. -/
def SessionAnswer.draws : SessionAnswer ι → Nat
  | .got true | .acquired _ | .waiting => 1
  | _ => 0

/-- How many passes the steps draw that have the replies. -/
def passesDrawn : List (Reply ι × View) → Nat
  | [] => 0
  | (reply, _) :: replies => reply.answer.draws + passesDrawn replies

@[simp] theorem Next.known_true (next : Next ι) : next.known true = next := by
  cases next <;> rfl

@[simp] theorem SessionAnswer.known_true (answer : SessionAnswer ι) :
    answer.known true = answer := by
  cases answer with
  | handed next => rw [known, Next.known_true]
  | unwound next => rw [known, Next.known_true]
  | _ => rfl

/-! ### The line of a session -/

variable {L : RawLock}

/-- The ideal lock with the same holder and waiting threads. -/
def Session.toIdeal (s : Session L ι) : Ideal ι :=
  ⟨s.caller, s.holder.map Prod.fst, s.waiting.map Prod.fst⟩

namespace Custody

/-- The line behind the lock consists of the passes of the holder and the waiting threads. -/
inductive Keeps (C : Custody L) (drawn : Nat) : Session L ι → Prop
  | free {caller : ι} {l : L.State} (h : C.Holds drawn l []) :
    Keeps C drawn ⟨caller, l, none, []⟩
  | held {caller : ι} {l : L.State} {w : ι × L.Pass} {ws : List (ι × L.Pass)}
    (h : C.Holds drawn l (w.2 :: ws.map Prod.snd)) : Keeps C drawn ⟨caller, l, some w, ws⟩

/-- A step of a session has the outcome that it has for the ideal lock, and the session keeps its
line. -/
structure Mirrors (C : Custody L) (drawn : Nat) (outcome : Reply ι × Session L ι)
    (expected : SessionAnswer ι × Ideal ι) : Prop where
  answer : outcome.1.answer.settled = expected.1.known L.fair
  ideal : outcome.2.toIdeal = expected.2
  keeps : C.Keeps (drawn + outcome.1.answer.draws) outcome.2

variable {C : Custody L} {drawn : Nat} {s : Session L ι}

theorem keeps_new (C : Custody L) (caller : ι) : C.Keeps 0 (Session.new caller) := .free C.new

namespace Keeps

/-- The lock looks held exactly if somebody holds it. -/
theorem view_locked (h : C.Keeps drawn s) : s.view.locked = s.holder.isSome := by
  cases h with
  | free h => exact C.locked h
  | held h => exact C.locked h

/-- Threads wait only while somebody holds the lock. -/
theorem isSome_of_waiting (h : C.Keeps drawn s) (hwaiting : s.waiting ≠ []) :
    s.holder.isSome = true := by
  cases h with
  | free h => exact absurd rfl hwaiting
  | held h => rfl

/-! ### Getting the lock -/

theorem lockByCaller (h : C.Keeps drawn s) (hroom : C.Room drawn) :
    C.Mirrors drawn s.lockByCaller (s.toIdeal.step .lock) := by
  cases h with
  | free h =>
    obtain ⟨hholds, hnew⟩ := C.lock h hroom
    rw [Session.lockByCaller]
    simp only [hholds, List.isEmpty_nil, if_true]
    exact ⟨rfl, rfl, .held hnew⟩
  | held h => exact ⟨rfl, rfl, .held h⟩

/-- A thread that comes for the lock holds it or is the last to wait. -/
theorem spawn (h : C.Keeps drawn s) (hroom : C.Room drawn) (id : ι) :
    C.Mirrors drawn (s.afterArrival id (L.lock s.lock)) (s.toIdeal.step (.spawn id)) := by
  cases h with
  | free h =>
    obtain ⟨hholds, hnew⟩ := C.lock h hroom
    rw [Session.afterArrival]
    simp only [hholds, List.isEmpty_nil, if_true]
    exact ⟨rfl, rfl, .held hnew⟩
  | @held caller l w ws h =>
    obtain ⟨hholds, hnew⟩ := C.lock h hroom
    rw [Session.afterArrival]
    simp only [hholds, List.isEmpty_cons, Bool.false_eq_true, if_false]
    refine ⟨rfl, ?_, .held ?_⟩
    · simp [Session.toIdeal, Ideal.step, Ideal.locked]
    · rw [List.map_append]
      exact hnew

theorem tryLock [BEq ι] (h : C.Keeps drawn s) (hroom : C.Room drawn) :
    C.Mirrors drawn (s.step .tryLock) (s.toIdeal.step .tryLock) := by
  cases h with
  | free h =>
    obtain ⟨pass, l', htry, hnew⟩ := C.tryLock_nil h hroom
    simp only [Session.step, htry]
    exact ⟨rfl, rfl, .held hnew⟩
  | held h =>
    simp only [Session.step, C.tryLock_cons h]
    exact ⟨rfl, rfl, .held h⟩

/-- A thread that gives the lock back at once leaves nothing but the number of its pass. -/
theorem threadTryLock [BEq ι] (h : C.Keeps drawn s) (hroom : C.Room drawn) :
    C.Mirrors drawn (s.step .threadTryLock) (s.toIdeal.step .threadTryLock) := by
  cases h with
  | free h =>
    obtain ⟨pass, l', htry, hnew⟩ := C.tryLock_nil h hroom
    obtain ⟨release, hunlock, hfree⟩ := C.unlock_last hnew
    simp only [Session.step, Session.tryByThread, htry, hunlock]
    exact ⟨rfl, rfl, .free hfree⟩
  | held h =>
    simp only [Session.step, Session.tryByThread, C.tryLock_cons h]
    exact ⟨rfl, rfl, .held h⟩

/-! ### Giving the lock back -/

/-- The holder hands the lock to the first of the waiting threads, if there is one. -/
theorem unlock_held (caller : ι) {l : L.State} {w : ι × L.Pass} {ws : List (ι × L.Pass)}
    (h : C.Holds drawn l (w.2 :: ws.map Prod.snd)) :
    ∃ l', Session.unlock ⟨caller, l, some w, ws⟩ =
        (.handed (Session.next L (ws.head?.map Prod.fst)), ⟨caller, l', ws.head?, ws.tail⟩) ∧
      C.Holds drawn l' (ws.map Prod.snd) := by
  cases ws with
  | nil =>
    obtain ⟨release, hunlock, hfree⟩ := C.unlock_last h
    refine ⟨release.state, ?_, hfree⟩
    simp only [Session.unlock, hunlock, Session.afterRelease, Session.serve, ite_self]
    rfl
  | cons heir ws =>
    obtain ⟨release, l', hunlock, hwakes, hrecheck, hnew⟩ := C.unlock_next h
    refine ⟨l', ?_, hnew⟩
    simp only [Session.unlock, hunlock, Session.afterRelease, hwakes, if_true, Session.serve,
      hrecheck]
    rfl

/-- After a release the line is without its first. -/
theorem of_tail {caller : ι} {l : L.State} {ws : List (ι × L.Pass)}
    (h : C.Holds drawn l (ws.map Prod.snd)) : C.Keeps drawn ⟨caller, l, ws.head?, ws.tail⟩ := by
  cases ws with
  | nil => exact .free h
  | cons w ws => exact .held h

theorem unlock [BEq ι] (h : C.Keeps drawn s) :
    C.Mirrors drawn (s.step .unlock) (s.toIdeal.step .unlock) := by
  cases h with
  | @free caller l h =>
    cases hcall : L.unlockUnheld with
    | none =>
      simp only [Session.step, Session.unlock, hcall]
      exact ⟨rfl, rfl, .free h⟩
    | some call =>
      obtain ⟨fault, hfault, hsays⟩ := C.unlockUnheld h hcall
      simp only [Session.step, Session.unlock, hcall, hfault]
      exact ⟨if_pos hsays, rfl, .free h⟩
  | @held caller l w ws h =>
    obtain ⟨l', hunlock, hnew⟩ := unlock_held caller h
    simp only [Session.step, hunlock]
    refine ⟨?_, ?_, .of_tail hnew⟩
    · cases ws <;> rfl
    · cases ws <;> rfl

/-! ### Scripts -/

/-- Every step that all locks have mirrors that of the ideal lock. -/
theorem step [BEq ι] (h : C.Keeps drawn s) (hroom : C.Room drawn) {step : SessionStep ι}
    (hcommon : step.isCommon = true) : C.Mirrors drawn (s.step step) (s.toIdeal.step step) := by
  cases step with
  | lock => exact h.lockByCaller hroom
  | tryLock => exact h.tryLock hroom
  | threadTryLock => exact h.threadTryLock hroom
  | spawn id => exact h.spawn hroom id
  | unlock => exact h.unlock
  | look => exact ⟨rfl, rfl, h⟩
  | _ => nomatch hcommon

/-- A script of such steps mirrors that of the ideal lock, as long as there are passes to draw. -/
theorem run [BEq ι] (h : C.Keeps drawn s) {steps : List (SessionStep ι)}
    (hcommon : ∀ step ∈ steps, step.isCommon = true)
    (hroom : ∀ n ≤ drawn + passesDrawn (s.run steps).1, C.Room n) :
    (s.run steps).1.map (fun r => (r.1.answer.settled, r.2.locked)) =
        (s.toIdeal.run steps).1.map (fun r => (r.1.known L.fair, r.2)) ∧
      (s.run steps).2.toIdeal = (s.toIdeal.run steps).2 ∧
      C.Keeps (drawn + passesDrawn (s.run steps).1) (s.run steps).2 := by
  induction steps generalizing s drawn with
  | nil => exact ⟨rfl, rfl, h⟩
  | cons step steps ih =>
    obtain ⟨hhead, htail⟩ := List.forall_mem_cons.1 hcommon
    have hdrawn : passesDrawn (s.run (step :: steps)).1 =
        (s.step step).1.answer.draws + passesDrawn ((s.step step).2.run steps).1 := rfl
    -- the bound on all draws of the script covers those before each step
    rw [hdrawn, ← Nat.add_assoc] at hroom ⊢
    obtain ⟨hanswer, hideal, hkeeps⟩ := h.step (hroom drawn (by omega)) hhead
    obtain ⟨hanswers, hideals, hkept⟩ := ih hkeeps htail hroom
    have hlocked : (s.step step).2.view.locked = (s.toIdeal.step step).2.locked := by
      rw [hkeeps.view_locked, ← hideal]
      exact Option.isSome_map.symm
    rw [hideal] at hanswers hideals
    refine ⟨?_, hideals, hkept⟩
    exact List.cons_eq_cons.2 ⟨Prod.ext hanswer hlocked, hanswers⟩

/-- Giving the lock back until nobody holds it serves the waiting threads in order. -/
theorem drain_held (caller : ι) {l : L.State} {w : ι × L.Pass} {ws : List (ι × L.Pass)}
    (h : C.Holds drawn l (w.2 :: ws.map Prod.snd)) :
    ∃ l', Session.drainWithin (ws.length + 1) ⟨caller, l, some w, ws⟩ =
        (((ws.map Prod.fst).map Next.thread ++ [Next.nobody]).map (Next.known L.fair),
          ⟨caller, l', none, []⟩) ∧
      C.Holds drawn l' [] := by
  induction ws generalizing l w with
  | nil =>
    obtain ⟨l', hunlock, hfree⟩ := unlock_held caller h
    refine ⟨l', ?_, hfree⟩
    simp only [Session.drainWithin, hunlock]
    rfl
  | cons v ws ih =>
    obtain ⟨l', hunlock, hnew⟩ := unlock_held caller h
    obtain ⟨l'', hdrain, hfree⟩ := ih hnew
    refine ⟨l'', ?_, hfree⟩
    rw [Session.drainWithin]
    simp only [hunlock, List.head?_cons, List.tail_cons, List.length_cons, hdrain]
    rfl

theorem drain (h : C.Keeps drawn s) :
    s.drain.1 = s.toIdeal.drain.map (Next.known L.fair) ∧ s.drain.2.holder = none ∧
      C.Keeps drawn s.drain.2 := by
  cases h with
  | free h => exact ⟨rfl, rfl, .free h⟩
  | @held caller l w ws h =>
    obtain ⟨l', hdrain, hfree⟩ := drain_held caller h
    rw [Session.drain, hdrain]
    exact ⟨rfl, rfl, .free hfree⟩

end Keeps

end Custody

end Handoff
