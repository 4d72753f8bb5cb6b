import Handoff.Ring.Basic

/-!
# Rings with a record

A `Recorded` ring keeps a record of all that is done to it, the oldest deed first. It is a ring of
its own, so whatever can be done to a ring can be done to it: a split, repeated pushes and pops and
a transfer come down to single pushes and pops, and those are the deeds that are recorded.

From the record it can be told which values were offered to the ring, which of them it accepted or
gave back, and which values were received from it.
-/

namespace Handoff

/-- A push or a pop that has been carried out. -/
inductive RingDeed (α : Type)
  | push (value : α) (outcome : Pushed α)
  | pop (found : Option α)
deriving Repr, DecidableEq

namespace RingDeed

variable {α : Type}

/-- The value that a push was called with. -/
def offered? : RingDeed α → Option α
  | .push value _ => some value
  | .pop _ => none

/-- The value that a push has left in the ring. -/
def accepted? : RingDeed α → Option α
  | .push value .accepted => some value
  | .push _ (.refused _) | .pop _ => none

/-- The value that a push has given back. -/
def givenBack? : RingDeed α → Option α
  | .push _ (.refused value) => some value
  | .push _ .accepted | .pop _ => none

/-- The value that a pop has taken out of the ring. -/
def received? : RingDeed α → Option α
  | .pop found => found
  | .push _ _ => none

/-- Whether what a push has given back, if anything, is the value that it was called with. -/
def IsHonest : RingDeed α → Prop
  | .push value outcome => outcome = .accepted ∨ outcome = .refused value
  | .pop _ => True

end RingDeed

/-- A ring, and a record of what has been done to it. -/
structure Recorded (R α : Type) where
  ring : R
  deeds : List (RingDeed α)

namespace Recorded

variable {R α : Type}

/-- A ring to which nothing has been done yet. -/
def start (ring : R) : Recorded R α := ⟨ring, []⟩

/-- Puts a deed on record, after which the ring is the given one. -/
def note (r : Recorded R α) (ring : R) (deed : RingDeed α) : Recorded R α :=
  ⟨ring, r.deeds ++ [deed]⟩

instance [Spsc R α] : Spsc (Recorded R α) α where
  capacity r := Spsc.capacity r.ring
  push r value :=
    let (outcome, ring) := Spsc.push r.ring value
    (outcome, r.note ring (.push value outcome))
  pop r :=
    let (found, ring) := Spsc.pop r.ring
    (found, r.note ring (.pop found))
  size r := Spsc.size r.ring

/-- The values offered, in order. -/
def offered (r : Recorded R α) : List α := r.deeds.filterMap RingDeed.offered?

/-- The values accepted, in order. -/
def accepted (r : Recorded R α) : List α := r.deeds.filterMap RingDeed.accepted?

/-- The values given back, in order. -/
def givenBack (r : Recorded R α) : List α := r.deeds.filterMap RingDeed.givenBack?

/-- The values received, in order. -/
def received (r : Recorded R α) : List α := r.deeds.filterMap RingDeed.received?

theorem offered_note (r : Recorded R α) (ring : R) (deed : RingDeed α) :
    (r.note ring deed).offered = r.offered ++ deed.offered?.toList := by
  rw [offered, note, List.filterMap_append, offered]
  cases hdeed : deed.offered? <;> simp [hdeed]

theorem accepted_note (r : Recorded R α) (ring : R) (deed : RingDeed α) :
    (r.note ring deed).accepted = r.accepted ++ deed.accepted?.toList := by
  rw [accepted, note, List.filterMap_append, accepted]
  cases hdeed : deed.accepted? <;> simp [hdeed]

theorem received_note (r : Recorded R α) (ring : R) (deed : RingDeed α) :
    (r.note ring deed).received = r.received ++ deed.received?.toList := by
  rw [received, note, List.filterMap_append, received]
  cases hdeed : deed.received? <;> simp [hdeed]

theorem givenBack_note (r : Recorded R α) (ring : R) (deed : RingDeed α) :
    (r.note ring deed).givenBack = r.givenBack ++ deed.givenBack?.toList := by
  rw [givenBack, note, List.filterMap_append, givenBack]
  cases hdeed : deed.givenBack? <;> simp [hdeed]

end Recorded

end Handoff
