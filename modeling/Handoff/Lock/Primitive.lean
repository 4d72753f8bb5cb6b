import Handoff.Lock.Flag
import Handoff.Lock.Ticket
import Handoff.Lock.Queue
import Handoff.Lock.Mutex

/-!
# The four locks by name

Each lock has a lower-case name by which it is chosen, and a name that is written in reports of
values. `Primitive.ofName?` reads exactly the lower-case names.
-/

namespace Handoff

/-- A kind of lock. -/
inductive Primitive
  | ttas
  | ticket
  | mcs
  | futex
deriving Repr, DecidableEq

namespace Primitive

/-- All kinds, in their order. -/
def all : List Primitive := [.ttas, .ticket, .mcs, .futex]

/-- The name by which a kind is chosen. -/
def name : Primitive → String
  | .ttas => "ttas"
  | .ticket => "ticket"
  | .mcs => "mcs"
  | .futex => "futex"

/-- The name of a kind as a value. -/
def variantName : Primitive → String
  | .ttas => "Ttas"
  | .ticket => "Ticket"
  | .mcs => "Mcs"
  | .futex => "Futex"

/-- The place of a kind among all. -/
def position : Primitive → Nat
  | .ttas => 0
  | .ticket => 1
  | .mcs => 2
  | .futex => 3

/-- The kind of a given name. -/
def ofName? (s : String) : Option Primitive :=
  all.find? fun p => p.name = s

/-- The text for a name that no kind has. -/
def unknownMessage : String := "Matching variant not found"

/-- All names, separated by commas. -/
def known : String := ",".intercalate (all.map name)

/-- The lock of a kind. -/
def raw : Primitive → RawLock
  | .ttas => FlagLock.raw
  | .ticket => TicketLock.raw
  | .mcs => QueueLock.raw
  | .futex => Mutex.raw

theorem mem_all (p : Primitive) : p ∈ all := by
  cases p <;> simp [all]

theorem name_injective {p q : Primitive} (h : p.name = q.name) : p = q := by
  cases p <;> cases q <;> simp_all [name]

theorem all_getElem?_position (p : Primitive) : all[p.position]? = some p := by
  cases p <;> rfl

theorem ofName?_eq_some_iff {s : String} {p : Primitive} : ofName? s = some p ↔ s = p.name := by
  constructor
  · intro h
    have := List.find?_some h
    simpa using (of_decide_eq_true this).symm
  · rintro rfl
    cases p <;> simp [ofName?, all, name]

end Primitive

end Handoff
