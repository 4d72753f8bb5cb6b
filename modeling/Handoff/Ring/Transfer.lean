import Handoff.Ring.Basic

/-!
# Transfers

A transfer moves values through a ring between two threads: the producer pushes its values in
order, trying again with the value given back by a full ring, and the consumer pops until it has
as many values as it waits for. `Transfer.attempt` is one attempt of either side, `Transfer.run`
carries out any schedule of attempts, and `Transfer.alternate` the one in which the sides take
turns.
-/

namespace Handoff

/-- A side of a ring. -/
inductive Side
  | producer
  | consumer
deriving Repr, DecidableEq

/-- A transfer under way. -/
structure Transfer (R α : Type) where
  ring : R
  /-- The values that are still to be pushed. -/
  unsent : List α
  /-- The values that have been popped, in order. -/
  got : Array α
  /-- The number of values that the consumer still waits for. -/
  missing : Nat

namespace Transfer

variable {R α : Type} [Spsc R α]

/-- The start of a transfer of `values`: the consumer waits for the values that are inside already
and for those. -/
def start (ring : R) (values : List α) : Transfer R α :=
  ⟨ring, values, #[], Spsc.size ring + values.length⟩

/-- One attempt of a side; a side that has finished does nothing. -/
def attempt (t : Transfer R α) : Side → Transfer R α
  | .producer =>
    match t.unsent with
    | [] => t
    | value :: rest =>
      match Spsc.push t.ring value with
      | (.accepted, ring) => { t with ring, unsent := rest }
      | (.refused value, ring) => { t with ring, unsent := value :: rest }
  | .consumer =>
    match t.missing with
    | 0 => t
    | missing + 1 =>
      match Spsc.pop t.ring with
      | (some value, ring) => { t with ring, got := t.got.push value, missing }
      | (none, ring) => { t with ring }

/-- Carries out a schedule of attempts. -/
def run (t : Transfer R α) (schedule : List Side) : Transfer R α :=
  schedule.foldl attempt t

/-- The work that is left: values to push and values to pop. -/
def outstanding (t : Transfer R α) : Nat :=
  t.unsent.length + t.missing

/-- Lets the sides take turns, the producer first, for as many rounds as the consumer waits for
values. -/
def alternate (t : Transfer R α) : Transfer R α :=
  t.run (List.replicate t.missing [.producer, .consumer]).flatten

end Transfer

end Handoff
