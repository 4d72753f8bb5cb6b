import Mathlib.Data.Fintype.Card
import Handoff.Threads.Basic

/-!
# What a lock does for its users

A user of a lock is away, takes the lock, owns it, or gives it back, in turn. A `LockCode.Service`
says of the code of a lock what its users rely on, without a look at how the lock does it: their
calls go on from one stage to the next, at most one of them owns the lock, and no call panics, as
long as the number of calls fits a word. A `LockCode.PromptService` says besides that a lock which
nobody owns does not keep everybody waiting.

What is said is kept by the accesses of threads that have a call under way, and by those two steps
that are not accesses: a thread begins a call that takes the lock, or one that gives it back.
-/

namespace Handoff

/-- What a thread does with a lock. -/
inductive Stage
  | away
  | taking
  | owning
  | returning
  /-- Something that a thread which only takes the lock and gives it back never does. -/
  | elsewhere
deriving Repr, DecidableEq

namespace Stage

/-- Whether a call is under way. -/
def inCall : Stage → Bool
  | .taking | .returning => true
  | .away | .owning | .elsewhere => false

theorem inCall_iff {stage : Stage} :
    stage.inCall = true ↔ stage = .taking ∨ stage = .returning := by
  cases stage <;> simp [inCall]

/-- What an access of a call under way can do to the stage of its thread. -/
inductive Next : Stage → Stage → Prop
  | stay {stage : Stage} : Next stage stage
  | enter : Next .taking .owning
  | finish : Next .returning .away

end Stage

variable {ι : Type} [DecidableEq ι]

/-- What the users of a lock rely on. -/
structure LockCode.Service (P : LockCode ι) where
  stage : P.Point → Stage
  /-- What holds of the states in which so many calls that take the lock have been begun. -/
  Sound : Nat → P.State → Prop
  away_iff {p : P.Point} : stage p = .away ↔ p = P.entry
  idle_iff {p : P.Point} : P.idle p = true ↔ p = P.entry
  owns_iff {p : P.Point} : P.owns p = true ↔ stage p = .owning
  broken {p : P.Point} (h : stage p ≠ .elsewhere) : P.broken p = false
  lockEntry : stage P.lockEntry = .taking
  unlockEntry {p : P.Point} (h : stage p = .owning) : stage (P.unlockEntry p) = .returning
  start : Sound 0 (Program.start P.toProgram)
  /-- A thread begins to take the lock. -/
  begin {n : Nat} {s : P.State} {t : ι} (h : Sound n s) (ht : stage (s.point t) = .away)
    (hfew : n + 1 < UInt64.size) : Sound (n + 1) (s.moveTo t P.lockEntry)
  /-- The owner begins to give the lock back. -/
  leave {n : Nat} {s : P.State} {t : ι} (h : Sound n s) (ht : stage (s.point t) = .owning) :
    Sound n (s.moveTo t (P.unlockEntry (s.point t)))
  access {n : Nat} {s : P.State} (h : Sound n s) {m : P.Move}
    (hm : (stage (s.point m.1)).inCall = true) : Sound n (Program.move s m)
  next {n : Nat} {s : P.State} (h : Sound n s) {m : P.Move}
    (hm : (stage (s.point m.1)).inCall = true) :
    Stage.Next (stage (s.point m.1)) (stage ((Program.move s m).point m.1))
  unique {n : Nat} {s : P.State} {t u : ι} (h : Sound n s) (ht : stage (s.point t) = .owning)
    (hu : stage (s.point u) = .owning) : t = u

/-- A lock that does not keep everybody waiting. -/
structure LockCode.PromptService (P : LockCode ι) extends P.Service where
  /-- Whether a choice lets a call go on. -/
  OfUse : P.Memory → P.Choice → Prop
  /-- Whether a thread is so many accesses away from the next stage of its call. -/
  Ready : P.State → ι → Nat → Prop
  inCall {s : P.State} {t : ι} {k : Nat} (h : Ready s t k) : (stage (s.point t)).inCall = true
  /-- If nobody owns the lock and some call is under way, one is ready. -/
  exists_ready {n : Nat} {s : P.State} {t : ι} (h : Sound n s)
    (hnone : ∀ u, stage (s.point u) ≠ .owning) (ht : (stage (s.point t)).inCall = true) :
    ∃ u k, Ready s u k
  ready_other {n : Nat} {s : P.State} {m : P.Move} {t : ι} {k : Nat} (h : Sound n s)
    (hready : Ready s t k) (hne : m.1 ≠ t) (hm : (stage (s.point m.1)).inCall = true)
    (hstage : stage ((Program.move s m).point m.1) = stage (s.point m.1)) :
    Ready (Program.move s m) t k
  ready_self {n : Nat} {s : P.State} {m : P.Move} {k : Nat} (h : Sound n s)
    (huse : OfUse s.memory m.2) (hready : Ready s m.1 k)
    (hstage : stage ((Program.move s m).point m.1) = stage (s.point m.1)) :
    ∃ u k', k' < k ∧ Ready (Program.move s m) u k'

/-- The points after one thread has gone to another. -/
theorem Program.moveTo_point_eq_update {P : Program ι} (s : P.State) (t : ι) (p : P.Point) :
    (s.moveTo t p).point = Function.update s.point t p :=
  Function.eq_update_iff.2 ⟨moveTo_point_self s t p, fun _ hne => moveTo_point_of_ne s p hne⟩

theorem Program.move_point_eq_update {P : Program ι} (s : P.State) (m : P.Move) :
    (move s m).point = Function.update s.point m.1 (P.step m.1 m.2 s.memory (s.point m.1)).2 := by
  rw [move_eq_moveTo, moveTo_point_eq_update]

/-- To begin a call without a change of the memory is a move. -/
theorem Program.moveTo_of_move {P : Program ι} {I : P.State → Prop} {s : P.State} {t : ι}
    {choice : P.Choice} {p q : P.Point} (h : I (move s (t, choice))) (hp : s.point t = p)
    (hcall : P.step t choice s.memory p = (s.memory, q)) : I (s.moveTo t q) := by
  rw [← hp] at hcall
  rw [moveTo_eq_move hcall]
  exact h

namespace LockCode.Service

variable {P : LockCode ι} (S : P.Service)

theorem stage_entry : S.stage P.entry = .away := S.away_iff.2 rfl

/-- Any number of threads begin to take the lock. -/
theorem sound_begun (threads : Finset ι) (hfew : threads.card < UInt64.size) :
    S.Sound threads.card ⟨P.memory, fun t => if t ∈ threads then P.lockEntry else P.entry⟩ := by
  induction threads using Finset.induction_on with
  | empty => exact S.start
  | @insert t threads ht ih =>
    rw [Finset.card_insert_of_notMem ht] at hfew ⊢
    have hbegun := ih (Nat.lt_of_succ_lt hfew)
    have haway : S.stage (if t ∈ threads then P.lockEntry else P.entry) = .away := by
      rw [if_neg ht]
      exact S.stage_entry
    have hnext := S.begin hbegun haway hfew
    convert hnext using 1
    refine congrArg (Program.State.mk P.memory) (funext fun u => ?_)
    rcases eq_or_ne u t with rfl | hu
    · rw [if_pos (Finset.mem_insert_self u threads), if_pos rfl]
    · simp only [Finset.mem_insert, hu, false_or, if_false]

end LockCode.Service

end Handoff
