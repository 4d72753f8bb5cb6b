import Handoff.Ring.Transfer

/-!
# The life of a ring

A script is what happens to a ring between its making and its end: pushes and pops, by whoever has
the whole ring or through the two halves of a split, and transfers between two threads. When the
ring is dropped, it pops the values that nobody has popped (`leftovers`).
-/

namespace Handoff

/-! ### Halves -/

/-- A ring split into a pushing and a popping half, which share it until they are joined again. -/
structure Halves (R : Type) where
  ring : R

namespace Halves

variable {R α : Type} [Spsc R α]

/-- Splits a ring. -/
def split (ring : R) : Halves R := ⟨ring⟩

/-- Pushes through the producer. -/
def push (h : Halves R) (value : α) : Pushed α × Halves R :=
  let (pushed, ring) := Spsc.push h.ring value
  (pushed, ⟨ring⟩)

/-- Pops through the consumer. -/
def pop (h : Halves R) : Option α × Halves R :=
  let (value, ring) := Spsc.pop h.ring
  (value, ⟨ring⟩)

/-- The capacity as the producer tells it. -/
def producerCapacity (h : Halves R) : UInt64 := Spsc.capacity h.ring

/-- The capacity as the consumer tells it. -/
def consumerCapacity (h : Halves R) : UInt64 := Spsc.capacity h.ring

/-- Gives the halves up and the ring back. -/
def join (h : Halves R) : R := h.ring

/-- A push through the producer is a push into the ring. -/
theorem push_split (ring : R) (value : α) :
    (split ring).push value = ((Spsc.push ring value).1, split (Spsc.push ring value).2) :=
  rfl

/-- A pop through the consumer is a pop from the ring. -/
theorem pop_split (ring : R) :
    (split ring).pop = ((Spsc.pop ring).1, split (Spsc.pop ring).2) :=
  rfl

end Halves

/-- A step through one of the halves. -/
inductive HalfStep (α : Type)
  | push (value : α)
  | pop
  /-- Ask both halves for the capacity. -/
  | capacity

/-- What a step through a half answers. -/
inductive HalfAnswer (α : Type)
  | pushed (pushed : Pushed α)
  | popped (value : Option α)
  | capacities (producer consumer : UInt64)

variable {R α : Type} [Spsc R α]

/-- Carries out a step through the halves. -/
def HalfStep.run (h : Halves R) : HalfStep α → HalfAnswer α × Halves R
  | .push value =>
    let (pushed, h) := h.push value
    (.pushed pushed, h)
  | .pop =>
    let (value, h) := h.pop
    (.popped value, h)
  | .capacity => (.capacities h.producerCapacity h.consumerCapacity, h)

/-- Carries out steps through the halves, in order. -/
def HalfStep.runAll (h : Halves R) : List (HalfStep α) → List (HalfAnswer α) × Halves R
  | [] => ([], h)
  | step :: steps =>
    let (answer, h) := step.run h
    let (answers, h) := HalfStep.runAll h steps
    (answer :: answers, h)

/-! ### Steps on the whole ring -/

namespace Spsc

/-- Pushes values in order; gives back those that were refused. -/
def pushMany (ring : R) : List α → List α × R
  | [] => ([], ring)
  | value :: values =>
    match push ring value with
    | (.accepted, ring) => pushMany ring values
    | (.refused value, ring) =>
      let (refused, ring) := pushMany ring values
      (value :: refused, ring)

/-- Pops a number of times; a pop from the empty ring counts and finds nothing. -/
def popMany (ring : R) : Nat → List (Option α) × R
  | 0 => ([], ring)
  | n + 1 =>
    let (value, ring) := pop ring
    let (values, ring) := popMany ring n
    (value :: values, ring)

/-- Pops until the ring is empty: the values popped, if at most `patience` pops do. -/
def drain? : (patience : Nat) → R → Option (List α × R)
  | 0, _ => none
  | patience + 1, ring =>
    match pop ring with
    | (none, ring) => some ([], ring)
    | (some value, ring) => do
      let (values, ring) ← drain? patience ring
      return (value :: values, ring)

/-- The values that a ring drops when it is dropped itself, in order. A ring holds fewer values
than it has slots, so no more pops than slots find it empty. -/
def leftovers (ring : R) : List α :=
  ((drain? (capacity ring).toNat ring).map Prod.fst).getD []

end Spsc

/-- A step of a script. -/
inductive RingStep (α : Type)
  | push (value : α)
  | pop
  | capacity
  | pushMany (values : List α)
  | popMany (times : Nat)
  /-- Split the ring, use the halves, join them. -/
  | split (steps : List (HalfStep α))
  /-- Send values through the ring to a thread that waits for them and for those already inside,
  and pop once more. -/
  | transfer (values : List α)

/-- What a step of a script answers. -/
inductive RingAnswer (α : Type)
  | pushed (pushed : Pushed α)
  | popped (value : Option α)
  | capacity (capacity : UInt64)
  | givenBack (values : List α)
  | poppedMany (values : List (Option α))
  | halves (answers : List (HalfAnswer α))
  /-- The values received, and whether one more pop found something. -/
  | transferred (got : Array α) (extra : Bool)

/-- Carries out a step of a script. -/
def RingStep.run (ring : R) : RingStep α → RingAnswer α × R
  | .push value =>
    let (pushed, ring) := Spsc.push ring value
    (.pushed pushed, ring)
  | .pop =>
    let (value, ring) := Spsc.pop ring
    (.popped value, ring)
  | .capacity => (.capacity (Spsc.capacity ring), ring)
  | .pushMany values =>
    let (refused, ring) := Spsc.pushMany ring values
    (.givenBack refused, ring)
  | .popMany times =>
    let (values, ring) := Spsc.popMany ring times
    (.poppedMany values, ring)
  | .split steps =>
    let (answers, halves) := HalfStep.runAll (Halves.split ring) steps
    (.halves answers, halves.join)
  | .transfer values =>
    let done := (Transfer.start ring values).alternate
    let (extra, ring) := Spsc.pop done.ring
    (.transferred done.got extra.isSome, ring)

/-- Carries out a script. -/
def RingStep.runAll (ring : R) : List (RingStep α) → List (RingAnswer α) × R
  | [] => ([], ring)
  | step :: steps =>
    let (answer, ring) := step.run ring
    let (answers, ring) := RingStep.runAll ring steps
    (answer :: answers, ring)

/-! ### Without halves -/

/-- The step on the whole ring that stands for a step through a half. -/
def HalfStep.direct : HalfStep α → RingStep α
  | .push value => .push value
  | .pop => .pop
  | .capacity => .capacity

/-- What the step on the whole ring answers. -/
def HalfAnswer.direct : HalfAnswer α → RingAnswer α
  | .pushed outcome => .pushed outcome
  | .popped found => .popped found
  | .capacities producer _ => .capacity producer

/-- Through the halves of a split a ring does what it does when it is whole. -/
theorem HalfStep.runAll_split (ring : R) (steps : List (HalfStep α)) :
    RingStep.runAll ring (steps.map direct) =
      let (answers, halves) := HalfStep.runAll (Halves.split ring) steps
      (answers.map HalfAnswer.direct, halves.join) := by
  induction steps generalizing ring with
  | nil => rfl
  | cons step steps ih =>
    cases step with
    | push value =>
      simp only [List.map_cons, direct, RingStep.runAll, RingStep.run, ih, runAll, run,
        Halves.push_split, HalfAnswer.direct]
    | pop =>
      simp only [List.map_cons, direct, RingStep.runAll, RingStep.run, ih, runAll, run,
        Halves.pop_split, HalfAnswer.direct]
    | capacity =>
      simp only [List.map_cons, direct, RingStep.runAll, RingStep.run, ih, runAll, run,
        HalfAnswer.direct]
      rfl

end Handoff
