/-!
# Interleaving

A `Program` is code that a family of threads runs over shared memory, one access at a time. Where a
thread stands in the code is its *point*, and `step` is the access that it makes there, followed by
whatever the thread does by itself up to its next access. What the code leaves open, such as the
next call of a thread, a compare-and-swap that fails for no reason, or a reading of the clock, is a
*choice* that comes from outside.

A schedule says which thread moves next and with which choice. Memory is sequentially consistent:
`Program.run` carries out the accesses in the order of the schedule. To hold in every reachable
state is to hold after every schedule (`Program.run_of_step`).

A `LockCode` is a program whose calls take a lock and give it back.
-/

namespace Handoff

/-- Code that threads run over shared memory, one access at a time. -/
structure Program (ι : Type) where
  Memory : Type
  Point : Type
  Choice : Type
  /-- The memory at the start. -/
  memory : Memory
  /-- The point of each thread at the start. -/
  entry : Point
  /-- One access of a thread. -/
  step : ι → Choice → Memory → Point → Memory × Point

namespace Program

variable {ι : Type}

/-- The memory and the points of all threads. -/
structure State (P : Program ι) where
  memory : P.Memory
  point : ι → P.Point

/-- A thread and its choice. -/
abbrev Move (P : Program ι) := ι × P.Choice

variable (P : Program ι)

/-- The state in which no thread has moved. -/
def start : P.State := ⟨P.memory, fun _ => P.entry⟩

variable {P} [DecidableEq ι]

/-- The state with one thread at another point. -/
def State.moveTo (s : P.State) (t : ι) (p : P.Point) : P.State :=
  { s with point := fun u => if u = t then p else s.point u }

/-- One move. -/
def move (s : P.State) (m : P.Move) : P.State :=
  let (memory, p) := P.step m.1 m.2 s.memory (s.point m.1)
  { s with memory }.moveTo m.1 p

/-- The state after a schedule. -/
def run (s : P.State) (schedule : List P.Move) : P.State :=
  schedule.foldl move s

@[simp] theorem moveTo_point_self (s : P.State) (t : ι) (p : P.Point) :
    (s.moveTo t p).point t = p := by
  simp [State.moveTo]

theorem moveTo_point_of_ne (s : P.State) {t u : ι} (p : P.Point) (h : u ≠ t) :
    (s.moveTo t p).point u = s.point u := by
  simp [State.moveTo, h]

@[simp] theorem moveTo_memory (s : P.State) (t : ι) (p : P.Point) :
    (s.moveTo t p).memory = s.memory := rfl

@[simp] theorem run_nil (s : P.State) : run s [] = s := rfl

@[simp] theorem run_cons (s : P.State) (m : P.Move) (schedule : List P.Move) :
    run s (m :: schedule) = run (move s m) schedule := rfl

@[simp] theorem run_append (s : P.State) (first second : List P.Move) :
    run s (first ++ second) = run (run s first) second :=
  List.foldl_append

@[simp] theorem move_memory (s : P.State) (m : P.Move) :
    (move s m).memory = (P.step m.1 m.2 s.memory (s.point m.1)).1 := rfl

/-- A move is an access of one thread. -/
theorem move_eq_moveTo (s : P.State) (m : P.Move) :
    move s m = { s with memory := (P.step m.1 m.2 s.memory (s.point m.1)).1 }.moveTo m.1
      (P.step m.1 m.2 s.memory (s.point m.1)).2 := rfl

/-- A thread that goes to another point without a change of the memory does so by a move. -/
theorem moveTo_eq_move {s : P.State} {t : ι} {choice : P.Choice} {p : P.Point}
    (h : P.step t choice s.memory (s.point t) = (s.memory, p)) : s.moveTo t p = move s (t, choice) := by
  rw [move_eq_moveTo, h]

@[simp] theorem move_point_self (s : P.State) (m : P.Move) :
    (move s m).point m.1 = (P.step m.1 m.2 s.memory (s.point m.1)).2 := by
  rw [move_eq_moveTo, moveTo_point_self]

theorem move_point_of_ne (s : P.State) {m : P.Move} {t : ι} (h : t ≠ m.1) :
    (move s m).point t = s.point t := by
  rw [move_eq_moveTo, moveTo_point_of_ne _ _ h]

/-- A thread stands still while others move. -/
theorem run_point_of_forall_ne (s : P.State) {t : ι} {schedule : List P.Move}
    (h : ∀ m ∈ schedule, m.1 ≠ t) : (run s schedule).point t = s.point t := by
  induction schedule generalizing s with
  | nil => rfl
  | cons m schedule ih =>
    obtain ⟨hm, hrest⟩ := List.forall_mem_cons.1 h
    rw [run_cons, ih _ hrest, move_point_of_ne s hm.symm]

/-- What a move keeps, a schedule keeps. -/
theorem run_of_step {I : P.State → Prop} (hmove : ∀ s m, I s → I (move s m)) {s : P.State}
    (hs : I s) (schedule : List P.Move) : I (run s schedule) := by
  induction schedule generalizing s with
  | nil => exact hs
  | cons m schedule ih => exact ih (hmove s m hs)

/-- What an onlooker has written down after a schedule, who looks at the states before and after
each move. -/
def watch {η : Type} (note : P.State → P.Move → P.State → η → η) (s : P.State) (h : η) :
    List P.Move → η
  | [] => h
  | m :: schedule => watch note (move s m) (note s m (move s m) h) schedule

theorem watch_append {η : Type} (note : P.State → P.Move → P.State → η → η) (s : P.State) (h : η)
    (first second : List P.Move) :
    watch note s h (first ++ second) = watch note (run s first) (watch note s h first) second := by
  induction first generalizing s h with
  | nil => rfl
  | cons m first ih => exact ih (move s m) _

/-- What a move and its note keep, a schedule keeps. -/
theorem watch_of_step {η : Type} {note : P.State → P.Move → P.State → η → η}
    {I : P.State → η → Prop} (hmove : ∀ s m h, I s h → I (move s m) (note s m (move s m) h))
    {s : P.State} {h : η} (hs : I s h) (schedule : List P.Move) :
    I (run s schedule) (watch note s h schedule) := by
  induction schedule generalizing s h with
  | nil => exact hs
  | cons m schedule ih => exact ih (hmove s m h hs)

end Program

/-- Code whose calls take a lock and give it back. -/
structure LockCode (ι : Type) extends Program ι where
  /-- The first access of a call that takes the lock. -/
  lockEntry : Point
  /-- The first access of a call that gives the lock back, for a thread that owns it at a point. -/
  unlockEntry : Point → Point
  /-- Whether a thread at a point owns the lock and has no call under way. -/
  owns : Point → Bool
  /-- Whether a thread at a point does not own the lock and has no call under way. -/
  idle : Point → Bool
  /-- Whether a thread at a point has panicked. -/
  broken : Point → Bool

end Handoff
