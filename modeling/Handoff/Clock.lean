/-!
# Spans and instants

A span of time is a number of nanoseconds. An instant, which is what the clock reads, is the time
since the clock started; the clock ends at `Instant.limit`, so adding a span to an instant may fail.
-/

namespace Handoff

/-- A span of time. -/
structure Span where
  nanoseconds : Nat
deriving Repr, DecidableEq

namespace Span

/-- The span of a number of seconds and nanoseconds. -/
def ofParts (seconds nanoseconds : Nat) : Span := ⟨seconds * 1000000000 + nanoseconds⟩

/-- The span of a number of milliseconds. -/
def ofMillis (ms : Nat) : Span := ⟨ms * 1000000⟩

/-- The longest span: as many seconds as a word counts, and almost one more. -/
def longest : Span := ofParts (UInt64.size - 1) 999999999

/-- Whether a span is shorter than another. -/
def shorterThan (a b : Span) : Bool := a.nanoseconds < b.nanoseconds

end Span

/-- A reading of the clock. -/
structure Instant where
  nanoseconds : Nat
deriving Repr, DecidableEq

namespace Instant

/-- The start of the clock. -/
def zero : Instant := ⟨0⟩

/-- The end of the clock: it counts seconds in a signed word. -/
def limit : Nat := UInt64.size / 2 * 1000000000

/-- The instant a span later, `none` if the clock ends before. -/
def later? (now : Instant) (span : Span) : Option Instant :=
  if now.nanoseconds + span.nanoseconds < limit then some ⟨now.nanoseconds + span.nanoseconds⟩
  else none

/-- The reading of the clock when a span has passed since an instant. -/
def plus (now : Instant) (span : Span) : Instant := ⟨now.nanoseconds + span.nanoseconds⟩

theorem eq_plus_of_later? {now deadline : Instant} {span : Span}
    (h : now.later? span = some deadline) : deadline = now.plus span := by
  rw [later?] at h
  split at h
  · exact (Option.some.inj h).symm
  · exact nomatch h

/-- Whether a reading of the clock is at or past a deadline. -/
def isPast (now deadline : Instant) : Bool := deadline.nanoseconds ≤ now.nanoseconds

/-- The span from a reading of the clock to a deadline that is not past. -/
def remaining (now deadline : Instant) : Span := ⟨deadline.nanoseconds - now.nanoseconds⟩

/-- After as much time as is left to a deadline the deadline is past, and not before. -/
theorem isPast_plus (start : Instant) (passed span : Span) :
    (start.plus passed).isPast (start.plus span) = !passed.shorterThan span := by
  have hiff : start.nanoseconds + span.nanoseconds ≤ start.nanoseconds + passed.nanoseconds ↔
      ¬passed.nanoseconds < span.nanoseconds := by
    omega
  exact (decide_eq_decide.2 hiff).trans decide_not

end Instant

/-- What the clock reads during a call: the first reading, and how much time has passed since by each
of the others. So no reading is before the first one; nothing else is said of them. -/
structure ClockReadings where
  start : Instant
  passed : List Span
deriving Repr, DecidableEq

namespace ClockReadings

/-- The readings after the first one. -/
def others (clock : ClockReadings) : List Instant := clock.passed.map clock.start.plus

/-- Whether the first look after the start finds that a span is not over yet. -/
def leavesTime (clock : ClockReadings) (span : Span) : Bool :=
  clock.passed.head?.any fun passed => passed.shorterThan span

/-- Whether some look finds that a span is over. -/
def outlasts (clock : ClockReadings) (span : Span) : Bool :=
  clock.passed.any fun passed => !passed.shorterThan span

/-- Of no time none is left. -/
theorem leavesTime_zero (clock : ClockReadings) : clock.leavesTime ⟨0⟩ = false := by
  rw [leavesTime]
  cases clock.passed.head? <;> rfl

theorem any_isPast_others (clock : ClockReadings) (span : Span) :
    clock.others.any (·.isPast (clock.start.plus span)) = clock.outlasts span := by
  rw [others, List.any_map, outlasts]
  exact congrArg _ (funext fun passed => Instant.isPast_plus clock.start passed span)

theorem any_head?_others (clock : ClockReadings) (span : Span) :
    clock.others.head?.any (fun now => !now.isPast (clock.start.plus span)) =
      clock.leavesTime span := by
  rw [others, List.head?_map, leavesTime]
  cases clock.passed.head? with
  | none => rfl
  | some passed =>
    change (!(clock.start.plus passed).isPast (clock.start.plus span)) = passed.shorterThan span
    rw [Instant.isPast_plus, Bool.not_not]

end ClockReadings

end Handoff
