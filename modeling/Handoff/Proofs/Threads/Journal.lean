import Handoff.Threads.Ring

/-!
# The journal of a ring

What an onlooker writes down about the calls of the two sides of a ring while they run access by
access. Of the pushes he notes the value offered by the latest one, whether the ring has been full
at some instant of it, and all values that pushes have left in the ring, in the order in which they
returned (`PushLog`). Of the pops he notes whether the ring has been empty at some instant of the
latest one, and all values that pops have returned (`PopLog`).

The instants of a call are the states from its first point to its last, whichever side brought
about the state. The journal is kept beside the run (`Journal.keep`) and never looked at by it.
-/

namespace Handoff.RingCode

variable {α : Type}

/-! ### Calls under way -/

/-- Whether a push is under way at a point. -/
def Point.inPush : Point α → Bool
  | .pushing _ | .pushCopy _ _ | .pushLook _ _ | .pushRenew _ _ _ | .pushAgain _ _ | .filling _ _
  | .publishing _ _ => true
  | _ => false

/-- Whether a pop is under way at a point. -/
def Point.inPop : Point α → Bool
  | .popping | .popCopy _ | .popLook _ | .popRenew _ _ | .popAgain _ | .taking _
  | .vacating _ _ => true
  | _ => false

/-- The value that a choice offers to the ring. -/
def Choice.offer : Choice α → Option α
  | .push value => some value
  | _ => none

/-- Whether the indices are as far apart as they can be. -/
def isFull (r : Ring α) : Bool := r.size + 1 = r.capacity.toNat

/-- Whether the indices meet. -/
def isEmpty (r : Ring α) : Bool := r.size = 0

/-! ### The two logs -/

/-- The pushes, as an onlooker sees them. -/
structure PushLog (α : Type) where
  /-- The value that the latest push was called with. -/
  offered : Option α
  /-- Whether the ring has been full at some instant of the latest push. -/
  wasFull : Bool
  /-- The values of the pushes that were accepted, in the order of their return. -/
  accepted : List α

/-- The pops, as an onlooker sees them. -/
structure PopLog (α : Type) where
  /-- Whether the ring has been empty at some instant of the latest pop. -/
  wasEmpty : Bool
  /-- The values that pops have returned, in order. -/
  received : List α

/-- The log of the pushes after a move that brought the producer from one point to another and left
the ring full or not. -/
def PushLog.note (l : PushLog α) (full : Bool) (choice : Choice α) (before after : Point α) :
    PushLog α :=
  match before.inPush, after.inPush, after with
  | false, true, _ => { l with offered := choice.offer, wasFull := full }
  | true, true, _ => { l with wasFull := l.wasFull || full }
  | true, false, .pushed .accepted => { l with accepted := l.accepted ++ l.offered.toList }
  | _, _, _ => l

/-- The log of the pops after a move that brought the consumer from one point to another and left
the ring empty or not. -/
def PopLog.note (l : PopLog α) (empty : Bool) (before after : Point α) : PopLog α :=
  match before.inPop, after.inPop, after with
  | false, true, _ => { l with wasEmpty := empty }
  | true, true, _ => { l with wasEmpty := l.wasEmpty || empty }
  | true, false, .popped (some value) => { l with received := l.received ++ [value] }
  | _, _, _ => l

theorem PushLog.note_self (l : PushLog α) (full : Bool) (choice : Choice α) (p : Point α) :
    l.note full choice p p = { l with wasFull := l.wasFull || (p.inPush && full) } := by
  cases hp : p.inPush <;> simp [note, hp]

theorem PopLog.note_self (l : PopLog α) (empty : Bool) (c : Point α) :
    l.note empty c c = { l with wasEmpty := l.wasEmpty || (c.inPop && empty) } := by
  cases hc : c.inPop <;> simp [note, hc]

/-- The instants of a push are seen by its log. -/
theorem PushLog.wasFull_note (l : PushLog α) (full : Bool) (choice : Choice α) (p p' : Point α)
    (hp : p'.inPush = true) (hfull : full = true) :
    (l.note full choice p p').wasFull = true := by
  cases hbefore : p.inPush <;> simp [note, hbefore, hp, hfull]

theorem PopLog.wasEmpty_note (l : PopLog α) (empty : Bool) (c c' : Point α)
    (hc : c'.inPop = true) (hempty : empty = true) : (l.note empty c c').wasEmpty = true := by
  cases hbefore : c.inPop <;> simp [note, hbefore, hc, hempty]

/-- Unless a push is accepted, all that its log can learn is that the ring was full. -/
theorem PushLog.exists_note_eq (l : PushLog α) (full : Bool) (choice : Choice α)
    {p p' : Point α} (hp : p.inPush = true) (hp' : p' ≠ .pushed .accepted) :
    ∃ seen, l.note full choice p p' = { l with wasFull := l.wasFull || seen } := by
  cases hafter : p'.inPush with
  | true =>
    refine ⟨full, ?_⟩
    unfold note
    rw [hp, hafter]
  | false =>
    refine ⟨false, ?_⟩
    unfold note
    rw [hp, hafter, Bool.or_false]
    split
    · contradiction
    · contradiction
    · exact absurd rfl hp'
    · rfl

/-- Unless a pop returns a value, all that its log can learn is that the ring was empty. -/
theorem PopLog.exists_note_eq (l : PopLog α) (empty : Bool) {c c' : Point α}
    (hc : c.inPop = true) (hc' : ∀ value, c' ≠ .popped (some value)) :
    ∃ seen, l.note empty c c' = { l with wasEmpty := l.wasEmpty || seen } := by
  cases hafter : c'.inPop with
  | true =>
    refine ⟨empty, ?_⟩
    unfold note
    rw [hc, hafter]
  | false =>
    refine ⟨false, ?_⟩
    unfold note
    rw [hc, hafter, Bool.or_false]
    split
    · contradiction
    · contradiction
    · exact absurd rfl (hc' _)
    · rfl

/-! ### The journal of a schedule -/

/-- The logs of both sides. -/
structure Journal (α : Type) where
  pushes : PushLog α
  pops : PopLog α

namespace Journal

/-- The journal before anything has happened. -/
def blank : Journal α := ⟨⟨none, false, []⟩, ⟨false, []⟩⟩

variable {kind : Kind} {capacity : UInt64}

/-- The ring in a state. -/
def ring (s : (code α kind capacity).State) : Ring α := CachedRing.toRing s.memory

/-- The journal after a move with a given choice, from one state to another. -/
def note (j : Journal α) (choice : Choice α) (before after : (code α kind capacity).State) :
    Journal α :=
  ⟨j.pushes.note (isFull (ring after)) choice (before.point .producer) (after.point .producer),
    j.pops.note (isEmpty (ring after)) (before.point .consumer) (after.point .consumer)⟩

/-- The journal after a schedule. -/
def keep (j : Journal α) (s : (code α kind capacity).State) :
    List (code α kind capacity).Move → Journal α
  | [] => j
  | m :: moves => (j.note m.2 s (Program.move s m)).keep (Program.move s m) moves

end Journal

end Handoff.RingCode
