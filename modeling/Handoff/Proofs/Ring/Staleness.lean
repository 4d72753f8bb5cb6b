import Handoff.Proofs.Ring.BoundedFifo
import Handoff.Ring.Cached

/-!
# Old copies of indices do no harm

The copies in a `CachedRing` may be old by any number of operations, and an index tells nothing
about how often it went around. What keeps them apart from the real indices are the counts that
they stand for (`CachedRing.Knows`): counted from the copy of `read`, one meets `read`, the copy of
`write` and `write` in this order, all within less than one turn. So a copy that does not make the
ring seem full, or empty, tells the truth, and one that does is looked up again
(`CachedRing.Knows.full_iff`, `CachedRing.Knows.empty_iff`).

Hence the copies can be left out: without them, a cached ring goes through the very states of a
plain one (`CachedRing.simulation_extends`), and nobody can tell the two apart
(`cachedRing_agrees_with_ring`).
-/

namespace Handoff

variable {α : Type}

/-! ### The window of a ring with copies -/

/-- The ring holds the values of `q`, `first` values having been popped before; the producer knows
of `popped` pops and the consumer of `pushed` pushes. -/
structure CachedRing.Knows (r : CachedRing α) (first : Nat) (q : List α) (popped pushed : Nat) :
    Prop where
  ring : r.toRing.Window first q
  readCopy : StandsFor r.capacity.toNat r.readCopy popped
  popped_le : popped ≤ first
  lt_turn : first + q.length < popped + r.capacity.toNat
  writeCopy : StandsFor r.capacity.toNat r.writeCopy pushed
  le_pushed : first ≤ pushed
  pushed_le : pushed ≤ first + q.length

namespace CachedRing

variable {r : CachedRing α} {first popped pushed : Nat} {q : List α} {value : α}

theorem knows_ofCapacity {capacity : UInt64} (hpos : 0 < capacity) :
    (ofCapacity capacity : CachedRing α).Knows 0 [] 0 0 where
  ring := Ring.window_ofCapacity hpos
  readCopy := .zero _
  popped_le := Nat.le_refl 0
  lt_turn := Nat.add_lt_add_left (UInt64.lt_iff_toNat_lt.1 hpos) 0
  writeCopy := .zero _
  le_pushed := Nat.le_refl 0
  pushed_le := Nat.le_refl 0

namespace Knows

theorem length_lt (h : r.Knows first q popped pushed) : q.length < r.capacity.toNat :=
  h.ring.lt_capacity

theorem next_eq_read_iff (h : r.Knows first q popped pushed) :
    nextIndex r.write r.capacity = r.read ↔ q.length + 1 = r.capacity.toNat :=
  h.ring.full_iff

theorem read_eq_write_iff (h : r.Knows first q popped pushed) : r.read = r.write ↔ q = [] :=
  h.ring.empty_iff

/-! ### Looking up again -/

/-- The renewed copy of `read` makes the ring seem full exactly if it is. -/
theorem full_iff (h : r.Knows first q popped pushed) :
    nextIndex r.write r.capacity =
        (r.renewReadCopy (nextIndex r.write r.capacity)).readCopy ↔
      nextIndex r.write r.capacity = r.read := by
  by_cases hcopy : nextIndex r.write r.capacity = r.readCopy
  · rw [renewReadCopy, if_pos hcopy]
  · -- by the copy there is room, and since then there can only have been more
    have hlt := h.lt_turn
    have hle := h.popped_le
    have hnext : StandsFor r.capacity.toNat (nextIndex r.write r.capacity)
        (first + q.length + 1) := h.ring.write.next h.ring.pos
    have hroom : first + q.length + 1 ≠ popped + r.capacity.toNat := fun e =>
      hcopy ((h.readCopy.turn_iff hnext (by omega) (by omega)).2 e)
    have hreal : nextIndex r.write r.capacity ≠ r.read := fun e => by
      have hfull := h.next_eq_read_iff.1 e
      omega
    rw [renewReadCopy, if_neg hcopy]
    exact iff_of_false hcopy hreal

/-- The renewed copy of `write` makes the ring seem empty exactly if it is. -/
theorem empty_iff (h : r.Knows first q popped pushed) :
    r.read = r.renewWriteCopy.writeCopy ↔ r.read = r.write := by
  by_cases hcopy : r.read = r.writeCopy
  · rw [renewWriteCopy, if_pos hcopy]
  · have hle := h.le_pushed
    have hpushed := h.pushed_le
    have hlt := h.length_lt
    have hread : StandsFor r.capacity.toNat r.read first := h.ring.read
    have hbehind : first ≠ pushed := fun e =>
      hcopy ((hread.eq_iff h.writeCopy hle (by omega)).2 e)
    have hreal : r.read ≠ r.write := fun e => by
      have hnone := List.length_eq_zero_iff.2 (h.read_eq_write_iff.1 e)
      omega
    rw [renewWriteCopy, if_neg hcopy]
    exact iff_of_false hcopy hreal

theorem renewReadCopy (h : r.Knows first q popped pushed) (next : UInt64) :
    ∃ popped', (r.renewReadCopy next).Knows first q popped' pushed := by
  rw [CachedRing.renewReadCopy]
  split
  · refine ⟨first, h.ring, h.ring.read, Nat.le_refl _, ?_, h.writeCopy, h.le_pushed, h.pushed_le⟩
    exact Nat.add_lt_add_left h.ring.lt_capacity first
  · exact ⟨popped, h⟩

theorem renewWriteCopy (h : r.Knows first q popped pushed) :
    ∃ pushed', r.renewWriteCopy.Knows first q popped pushed' := by
  rw [CachedRing.renewWriteCopy]
  split
  · exact ⟨first + q.length, h.ring, h.readCopy, h.popped_le, h.lt_turn, h.ring.write,
      Nat.le_add_right _ _, Nat.le_refl _⟩
  · exact ⟨pushed, h⟩

end Knows

/-! ### The plain ring inside -/

theorem exists_renewReadCopy_eq (r : CachedRing α) (next : UInt64) :
    ∃ copy, r.renewReadCopy next = { r with readCopy := copy } := by
  rw [renewReadCopy]
  split
  · exact ⟨r.read, rfl⟩
  · exact ⟨r.readCopy, rfl⟩

theorem exists_renewWriteCopy_eq (r : CachedRing α) :
    ∃ copy, r.renewWriteCopy = { r with writeCopy := copy } := by
  rw [renewWriteCopy]
  split
  · exact ⟨r.write, rfl⟩
  · exact ⟨r.writeCopy, rfl⟩

/-- The cached ring has the plain one inside, and its copies are not too old. -/
def Extends (c : CachedRing α) (p : Ring α) : Prop :=
  c.toRing = p ∧ ∃ first q popped pushed, c.Knows first q popped pushed

/-- A push does to the ring inside what a plain push does. -/
theorem Knows.push (h : r.Knows first q popped pushed) (value : α) :
    Alike Extends (r.push value) (r.toRing.push value) := by
  obtain ⟨popped', hrenewed⟩ := h.renewReadCopy (nextIndex r.write r.capacity)
  have hfull := h.full_iff
  obtain ⟨copy, hcopy⟩ := r.exists_renewReadCopy_eq (nextIndex r.write r.capacity)
  rw [hcopy] at hrenewed hfull
  rw [CachedRing.push, hcopy]
  by_cases hreal : nextIndex r.write r.capacity = r.read
  · have hplain : r.toRing.push value = (.refused value, r.toRing) := if_pos hreal
    rw [if_pos (hfull.2 hreal), hplain]
    exact ⟨rfl, rfl, first, q, popped', pushed, hrenewed⟩
  · have hplain : r.toRing.push value = (.accepted, { r.toRing with
        slots := r.slots.write r.write value, write := nextIndex r.write r.capacity }) :=
      if_neg hreal
    have hlt := h.length_lt
    have hroom : q.length + 1 < r.capacity.toNat := by
      have := mt h.next_eq_read_iff.2 hreal
      omega
    have hwindow := (h.ring.push_of_room hroom value).2.2
    rw [if_neg (mt hfull.1 hreal), hplain] at *
    refine ⟨rfl, rfl, first, q ++ [value], popped', pushed, hwindow, hrenewed.readCopy,
      hrenewed.popped_le, ?_, hrenewed.writeCopy, hrenewed.le_pushed, ?_⟩
    · -- the renewed copy has seen the room that the push takes
      have hturn : first + q.length < popped' + r.capacity.toNat := hrenewed.lt_turn
      have hle := hrenewed.popped_le
      have hseen : StandsFor r.capacity.toNat copy popped' := hrenewed.readCopy
      have hnext : StandsFor r.capacity.toNat (nextIndex r.write r.capacity)
          (first + q.length + 1) := h.ring.write.next h.ring.pos
      have hne : first + q.length + 1 ≠ popped' + r.capacity.toNat := fun e =>
        hreal (hfull.1 ((hseen.turn_iff hnext (by omega) (by omega)).2 e))
      change first + (q ++ [value]).length < popped' + r.capacity.toNat
      rw [List.length_append, List.length_singleton]
      omega
    · rw [List.length_append]
      exact Nat.le_trans hrenewed.pushed_le (Nat.add_le_add_left (Nat.le_add_right _ _) first)

/-- A pop does to the ring inside what a plain pop does. -/
theorem Knows.pop (h : r.Knows first q popped pushed) :
    Alike Extends r.pop r.toRing.pop := by
  obtain ⟨pushed', hrenewed⟩ := h.renewWriteCopy
  have hempty := h.empty_iff
  obtain ⟨copy, hcopy⟩ := r.exists_renewWriteCopy_eq
  rw [hcopy] at hrenewed hempty
  rw [CachedRing.pop, hcopy]
  by_cases hreal : r.read = r.write
  · have hplain : r.toRing.pop = (none, r.toRing) := if_pos hreal
    rw [if_pos (hempty.2 hreal), hplain]
    exact ⟨rfl, rfl, first, q, popped, pushed', hrenewed⟩
  · have hplain : r.toRing.pop = (r.slots.get? r.read, { r.toRing with
        slots := r.slots.clear r.read, read := nextIndex r.read r.capacity }) := if_neg hreal
    cases q with
    | nil => exact absurd (h.read_eq_write_iff.2 rfl) hreal
    | cons value q =>
      have hwindow := h.ring.pop_of_cons.2.2
      rw [if_neg (mt hempty.1 hreal), hplain] at *
      have hturn : first + (q.length + 1) < popped + r.capacity.toNat := hrenewed.lt_turn
      have hle : pushed' ≤ first + (q.length + 1) := hrenewed.pushed_le
      refine ⟨rfl, rfl, first + 1, q, popped, pushed', hwindow, hrenewed.readCopy,
        Nat.le_succ_of_le hrenewed.popped_le, ?_, hrenewed.writeCopy, ?_, ?_⟩
      · change first + 1 + q.length < popped + r.capacity.toNat
        omega
      · -- the renewed copy has seen the value that the pop takes
        have hlt := h.length_lt
        rw [List.length_cons] at hlt
        have hread : StandsFor r.capacity.toNat r.read first := h.ring.read
        have hge := hrenewed.le_pushed
        have hne : first ≠ pushed' := fun e =>
          hreal (hempty.1 ((hread.eq_iff hrenewed.writeCopy hge (by omega)).2 e))
        omega
      · omega

/-- A cached ring answers as the plain ring inside it. -/
theorem simulation_extends : Simulation (Extends (α := α)) where
  capacity_eq := fun ⟨hring, _⟩ => congrArg Ring.capacity hring
  size_eq := fun ⟨hring, _⟩ => congrArg Ring.size hring
  push := by
    rintro c _ ⟨rfl, first, q, popped, pushed, h⟩ value
    exact h.push value
  pop := by
    rintro c _ ⟨rfl, first, q, popped, pushed, h⟩
    exact h.pop

theorem extends_ofCapacity {capacity : UInt64} (hpos : 0 < capacity) :
    (ofCapacity capacity : CachedRing α).Extends (Ring.ofCapacity capacity) :=
  ⟨rfl, 0, [], 0, 0, knows_ofCapacity hpos⟩

end CachedRing

/-! ### Every script -/

/-- **The copies cannot be noticed.** After any script a cached ring has answered as the plain ring
of that capacity, their indices are the same, and dropped now they would drop the same values, all
that are inside. However old the copies are, a push is refused only by a ring that is full, and a
pop finds nothing only in a ring that is empty. -/
theorem cachedRing_agrees_with_ring {capacity : UInt64} (hpos : 0 < capacity)
    (steps : List (RingStep α)) :
    let cached := RingStep.runAll (CachedRing.ofCapacity capacity : CachedRing α) steps
    let plain := RingStep.runAll (Ring.ofCapacity capacity : Ring α) steps
    let c := cached.2
    let p := plain.2
    cached.1 = plain.1 ∧ c.read = p.read ∧ c.write = p.write ∧
      (∀ value, (c.push value).1 = (p.push value).1 ∧
        ((c.push value).1 = .refused value ↔ c.toList.length = capacity.toNat - 1)) ∧
      (c.pop.1 = p.pop.1 ∧ (c.pop.1 = none ↔ c.toList = [])) ∧
      Spsc.leftovers c = Spsc.leftovers p ∧ Spsc.leftovers c = c.toList := by
  intro cached plain c p
  obtain ⟨hanswers, hext⟩ :=
    CachedRing.simulation_extends.runAll (CachedRing.extends_ofCapacity (α := α) hpos) steps
  change c.Extends p at hext
  obtain ⟨-, hfifo⟩ :=
    (Ring.simulation_isFifo capacity).runAll (Ring.IsFifo.ofCapacity (α := α) hpos) steps
  change Ring.IsFifo capacity p _ at hfifo
  obtain ⟨hring, -⟩ := id hext
  have hpush := fun value => (CachedRing.simulation_extends.push hext value).1
  have hpop := (CachedRing.simulation_extends.pop hext).1
  have hleft := CachedRing.simulation_extends.leftovers_eq hext
  have hlist : c.toList = p.toList := congrArg Ring.toList hring
  refine ⟨hanswers, congrArg Ring.read hring, congrArg Ring.write hring,
    fun value => ⟨hpush value, ?_⟩, ⟨hpop, ?_⟩, hleft, ?_⟩
  · rw [hlist, hfifo.toList_eq, ← hfifo.push_refused_iff value]
    exact Eq.congr_left (hpush value)
  · rw [hlist, hfifo.toList_eq, ← hfifo.pop_none_iff]
    exact Eq.congr_left hpop
  · rw [hleft, hlist, hfifo.leftovers_eq, hfifo.toList_eq]

/-- Both copies grow old and are looked up again. -/
theorem cachedRing_agrees_with_ring_three :
    let steps : List (RingStep Nat) :=
      [.push 1, .push 2, .push 3, .pop, .push 3, .split [.pop, .push 4, .push 5, .pop]]
    let cached := RingStep.runAll (CachedRing.ofCapacity 3 : CachedRing Nat) steps
    (0 : UInt64) < 3 ∧
      cached.1 =
        [.pushed .accepted, .pushed .accepted, .pushed (.refused 3), .popped (some 1),
          .pushed .accepted,
          .halves [.popped (some 2), .pushed .accepted, .pushed (.refused 5), .popped (some 3)]] ∧
      Spsc.leftovers cached.2 = [4] := by
  intro steps cached
  obtain ⟨hanswers, -, -, -, -, hleft, -⟩ :=
    cachedRing_agrees_with_ring (by decide : (0 : UInt64) < 3) steps
  exact ⟨by decide, hanswers.trans rfl, hleft.trans rfl⟩

end Handoff
