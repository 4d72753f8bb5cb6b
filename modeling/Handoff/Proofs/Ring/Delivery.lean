import Handoff.Proofs.Ring.Kinds

/-!
# Transfers deliver

Two threads share a ring: one tries to push its values until the ring takes them, the other one
tries to pop until it has as many values as there are. Over a list it is plain what an attempt does
(`Transfer.Sound.attempt`): the values received, those inside and those not yet sent are always the
same values in the same order, and what the receiver still waits for is what is inside or not yet
sent. So if nothing is inside, there is something to send and room for it; otherwise there is
something to receive (`Transfer.Sound.unstuck`). A ring of one slot has no room, and there the two
threads would wait for each other.

Both kinds of rings go through the transfers of the list (`Simulation.transfer`), so whatever the
schedule, all values are delivered in order (`transfer_delivers`).
-/

namespace Handoff

variable {R S α : Type}

/-- Whether a push was accepted. -/
def Pushed.isAccepted : Pushed α → Bool
  | .accepted => true
  | .refused _ => false

namespace Transfer

/-! ### Attempts -/

/-- Whether the next attempt of a side sends or receives a value. -/
def succeeds [Spsc R α] (t : Transfer R α) : Side → Bool
  | .producer =>
    match t.unsent with
    | [] => false
    | value :: _ => (Spsc.push t.ring value).1.isAccepted
  | .consumer => t.missing ≠ 0 && (Spsc.pop t.ring).1.isSome

/-- An attempt that succeeds does one piece of the work that is left, any other one does none. -/
theorem outstanding_attempt [Spsc R α] (t : Transfer R α) (side : Side) :
    (t.attempt side).outstanding + (t.succeeds side).toNat = t.outstanding := by
  obtain ⟨ring, unsent, got, missing⟩ := t
  cases side with
  | producer =>
    cases unsent with
    | nil => rfl
    | cons value rest =>
      simp only [attempt, succeeds]
      rcases Spsc.push ring value with ⟨_ | back, ring'⟩
      · change rest.length + missing + 1 = rest.length + 1 + missing
        omega
      · rfl
  | consumer =>
    cases missing with
    | zero => rfl
    | succ missing =>
      simp only [attempt, succeeds]
      rcases Spsc.pop ring with ⟨_ | value, ring'⟩
      · rfl
      · rfl

theorem missing_send [Spsc R α] (t : Transfer R α) :
    (t.attempt .producer).missing = t.missing := by
  obtain ⟨ring, unsent, got, missing⟩ := t
  cases unsent with
  | nil => rfl
  | cons value rest =>
    simp only [attempt]
    rcases Spsc.push ring value with ⟨_ | back, ring'⟩ <;> rfl

/-! ### Attempts over a list -/

section List

variable {capacity : UInt64} {items rest unsent : List α} {got : Array α} {missing : Nat}
  {value : α}

theorem send_of_room (h : items.length + 1 < capacity.toNat) :
    attempt ⟨(⟨capacity, items⟩ : Fifo α), value :: rest, got, missing⟩ .producer =
      ⟨⟨capacity, items ++ [value]⟩, rest, got, missing⟩ := by
  have hpush : Spsc.push (⟨capacity, items⟩ : Fifo α) value =
      (.accepted, ⟨capacity, items ++ [value]⟩) := if_pos h
  simp only [attempt, hpush]

theorem send_of_full (h : ¬items.length + 1 < capacity.toNat) :
    attempt ⟨(⟨capacity, items⟩ : Fifo α), value :: rest, got, missing⟩ .producer =
      ⟨⟨capacity, items⟩, value :: rest, got, missing⟩ := by
  have hpush : Spsc.push (⟨capacity, items⟩ : Fifo α) value =
      (.refused value, ⟨capacity, items⟩) := if_neg h
  simp only [attempt, hpush]

theorem receive_nil :
    attempt ⟨(⟨capacity, []⟩ : Fifo α), unsent, got, missing⟩ .consumer =
      ⟨⟨capacity, []⟩, unsent, got, missing⟩ := by
  cases missing <;> rfl

theorem receive_cons :
    attempt ⟨(⟨capacity, value :: items⟩ : Fifo α), unsent, got, missing + 1⟩ .consumer =
      ⟨⟨capacity, items⟩, unsent, got.push value, missing⟩ :=
  rfl

/-- Something inside is received if it is waited for. -/
theorem missing_receive {t : Transfer (Fifo α) α} (h : t.missing ≠ 0 → t.ring.items ≠ []) :
    (t.attempt .consumer).missing = t.missing - 1 := by
  obtain ⟨⟨capacity, items⟩, unsent, got, missing⟩ := t
  cases missing with
  | zero => rfl
  | succ missing =>
    cases items with
    | nil => exact absurd rfl (h (Nat.succ_ne_zero _))
    | cons value items => rfl

end List

/-- The values received, inside and not yet sent are the given ones in order, and the receiver waits
for those that it has not received. -/
structure Sound (capacity : UInt64) (total : List α) (t : Transfer (Fifo α) α) : Prop where
  capacity_eq : t.ring.capacity = capacity
  conserved : t.got.toList ++ t.ring.items ++ t.unsent = total
  missing_eq : t.missing = t.ring.items.length + t.unsent.length

theorem sound_start (q : Fifo α) (values : List α) :
    Sound q.capacity (q.items ++ values) (start q values) :=
  ⟨rfl, rfl, rfl⟩

namespace Sound

variable {capacity : UInt64} {total : List α} {t : Transfer (Fifo α) α}

theorem attempt (h : Sound capacity total t) (side : Side) :
    Sound capacity total (t.attempt side) := by
  obtain ⟨⟨bound, items⟩, unsent, got, missing⟩ := t
  obtain ⟨rfl, rfl, hmissing⟩ := id h
  simp only at hmissing
  cases side with
  | producer =>
    cases unsent with
    | nil => exact h
    | cons value rest =>
      by_cases hroom : items.length + 1 < bound.toNat
      · rw [send_of_room hroom]
        refine ⟨rfl, by simp, ?_⟩
        simp only [List.length_append, List.length_cons, List.length_nil] at hmissing ⊢
        omega
      · rw [send_of_full hroom]
        exact h
  | consumer =>
    cases items with
    | nil =>
      rw [receive_nil]
      exact h
    | cons value items =>
      cases missing with
      | zero => exact h
      | succ missing =>
        rw [receive_cons]
        refine ⟨rfl, by simp, ?_⟩
        simp only [List.length_cons] at hmissing ⊢
        omega

theorem run (h : Sound capacity total t) (schedule : List Side) :
    Sound capacity total (t.run schedule) := by
  induction schedule generalizing t with
  | nil => exact h
  | cons side schedule ih => exact ih (h.attempt side)

/-- When the receiver waits for nothing, everything has been received. -/
theorem finished (h : Sound capacity total t) (hmissing : t.missing = 0) :
    t.got.toList = total ∧ t.unsent = [] ∧ t.ring.items = [] := by
  obtain ⟨hinside, hunsent⟩ := Nat.add_eq_zero_iff.1 (h.missing_eq.symm.trans hmissing)
  have hitems := List.length_eq_zero_iff.1 hinside
  have hrest := List.length_eq_zero_iff.1 hunsent
  have hconserved := h.conserved
  rw [hitems, hrest, List.append_nil, List.append_nil] at hconserved
  exact ⟨hconserved, hrest, hitems⟩

/-- As long as there is work left, one of the sides can do some of it: what is inside can be
received, and if nothing is, there is room for what is not sent. -/
theorem unstuck (h : Sound capacity total t) (hroom : 1 < capacity.toNat)
    (hleft : t.outstanding ≠ 0) : ∃ side, t.succeeds side = true := by
  obtain ⟨⟨bound, items⟩, unsent, got, missing⟩ := t
  obtain ⟨rfl, -, hall⟩ := h
  obtain rfl : missing = items.length + unsent.length := hall
  cases items with
  | cons value items =>
    have hpop : (Spsc.pop (⟨bound, value :: items⟩ : Fifo α)).1 = some value := rfl
    exact ⟨.consumer, by simp [succeeds, hpop]⟩
  | nil =>
    cases unsent with
    | nil => exact absurd rfl hleft
    | cons value rest =>
      have hpush : Spsc.push (⟨bound, []⟩ : Fifo α) value = (.accepted, ⟨bound, [value]⟩) :=
        if_pos hroom
      exact ⟨.producer, by simp [succeeds, hpush, Pushed.isAccepted]⟩

/-! ### Taking turns -/

/-- After an attempt to send there is something to receive, unless all has been received. -/
theorem exists_inside_after_send (h : Sound capacity total t) (hroom : 1 < capacity.toNat)
    (hmissing : t.missing ≠ 0) : (t.attempt .producer).ring.items ≠ [] := by
  obtain ⟨⟨bound, items⟩, unsent, got, missing⟩ := t
  obtain ⟨rfl, -, hall⟩ := h
  obtain rfl : missing = items.length + unsent.length := hall
  cases unsent with
  | nil => exact fun hitems => hmissing (congrArg List.length hitems)
  | cons value rest =>
    by_cases hpush : items.length + 1 < bound.toNat
    · rw [send_of_room hpush]
      exact List.concat_ne_nil _ _
    · -- no room: as there are two slots or more, something is inside already
      rw [send_of_full hpush]
      rintro rfl
      exact hpush hroom

/-- A turn of each side brings a value to the receiver, as long as it waits for one. -/
theorem missing_round (h : Sound capacity total t) (hroom : 1 < capacity.toNat) :
    ((t.attempt .producer).attempt .consumer).missing = t.missing - 1 := by
  have hsame := missing_send t
  rw [missing_receive fun hmissing => h.exists_inside_after_send hroom (hsame ▸ hmissing), hsame]

theorem missing_rounds (h : Sound capacity total t) (hroom : 1 < capacity.toNat) (n : Nat) :
    (t.run (List.replicate n [.producer, .consumer]).flatten).missing = t.missing - n := by
  induction n generalizing t with
  | zero => rfl
  | succ n ih =>
    rw [List.replicate_succ, List.flatten_cons]
    have hrest := ih ((h.attempt .producer).attempt .consumer)
    rw [h.missing_round hroom, Nat.sub_sub, Nat.add_comm 1 n] at hrest
    exact hrest

/-- Taking turns brings all values to the receiver. -/
theorem missing_alternate (h : Sound capacity total t) (hroom : 1 < capacity.toNat) :
    t.alternate.missing = 0 := by
  rw [alternate, h.missing_rounds hroom, Nat.sub_self]

end Sound

end Transfer

/-! ### Rings that are lists -/

section Lists

variable [Spsc R α] [Spsc S α] {rel : R → S → Prop} {t : Transfer R α} {u : Transfer S α}

/-- The same attempts succeed over related rings. -/
theorem Simulation.succeeds_eq (h : Simulation rel) (htu : SameTransfer rel t u) (side : Side) :
    t.succeeds side = u.succeeds side := by
  obtain ⟨r, unsent, got, missing⟩ := t
  obtain ⟨s, _, _, _⟩ := u
  obtain ⟨hrel, rfl, rfl, rfl⟩ := htu
  cases side with
  | producer =>
    cases unsent with
    | nil => rfl
    | cons value rest => exact congrArg Pushed.isAccepted (h.push hrel value).1
  | consumer => exact congrArg (fun found => _ && Option.isSome found) (h.pop hrel).1

/-- What is true of a transfer of values whenever some attempts have been made. -/
structure Delivers (contents : R → List α) (total : List α) (t : Transfer R α) : Prop where
  /-- The values received, inside and not yet sent are all values in order. -/
  conserved : t.got.toList ++ contents t.ring ++ t.unsent = total
  /-- Unless all the work is done, the next attempt of one of the sides succeeds. -/
  unstuck : t.outstanding ≠ 0 → ∃ side, t.succeeds side = true
  /-- An attempt that succeeds does one piece of the work that is left, any other one does none. -/
  progress : ∀ side, (t.attempt side).outstanding + (t.succeeds side).toNat = t.outstanding
  /-- A receiver that waits for nothing has received all values in order. Then all have been sent,
  and nothing is inside. -/
  finished : t.missing = 0 →
    t.got.toList = total ∧ t.unsent = [] ∧ contents t.ring = [] ∧ (Spsc.pop t.ring).1 = none
  /-- Taking turns from here on, the sides complete the transfer. -/
  completes : t.alternate.missing = 0

end Lists

namespace Faithful

variable [Spsc R α] {capacity : UInt64} {contents : R → List α} {rel : R → Fifo α → Prop}
  {r : R} {q : Fifo α}

/-- A transfer delivers that goes along with a sound one over a list. -/
theorem delivers (h : Faithful capacity contents rel) (hroom : 1 < capacity) {t : Transfer R α}
    {u : Transfer (Fifo α) α} {total : List α} (htu : Simulation.SameTransfer rel t u)
    (hsound : u.Sound capacity total) : Delivers contents total t where
  conserved := by
    rw [htu.got, htu.unsent, h.contents_eq htu.ring]
    exact hsound.conserved
  unstuck hleft := by
    have hsame : t.outstanding = u.outstanding := by
      rw [Transfer.outstanding, Transfer.outstanding, htu.unsent, htu.missing]
    obtain ⟨side, hsucceeds⟩ := hsound.unstuck (UInt64.lt_iff_toNat_lt.1 hroom) (hsame ▸ hleft)
    exact ⟨side, (h.simulation.succeeds_eq htu side).trans hsucceeds⟩
  progress := t.outstanding_attempt
  finished hmissing := by
    obtain ⟨hgot, hunsent, hitems⟩ := hsound.finished (htu.missing ▸ hmissing)
    have hpop : (Spsc.pop u.ring).1 = none := List.head?_eq_none_iff.2 hitems
    exact ⟨(congrArg Array.toList htu.got).trans hgot, htu.unsent.trans hunsent,
      (h.contents_eq htu.ring).trans hitems, (h.simulation.pop htu.ring).1.trans hpop⟩
  completes :=
    (h.simulation.alternate htu).missing.trans
      (hsound.missing_alternate (UInt64.lt_iff_toNat_lt.1 hroom))

/-- Whatever attempts have been made, a transfer over a ring that stands for a list delivers what
was inside and what is sent. -/
theorem delivers_run (h : Faithful capacity contents rel) (hroom : 1 < capacity) (hrel : rel r q)
    (values : List α) (schedule : List Side) :
    Delivers contents (contents r ++ values) ((Transfer.start r values).run schedule) := by
  have hsame := h.simulation.transfer (h.simulation.start hrel values) schedule
  have hsound := (Transfer.sound_start q values).run schedule
  rw [h.capacity_eq hrel, ← h.contents_eq hrel] at hsound
  exact h.delivers hroom hsame hsound

/-- The step of a script that transfers values receives all of them and what was inside, and nothing
else. -/
theorem run_transfer (h : Faithful capacity contents rel) (hroom : 1 < capacity) (hrel : rel r q)
    (values : List α) :
    ((RingStep.transfer values).run r).1 = .transferred (contents r ++ values).toArray false := by
  have hmissing : (Transfer.start r values).alternate.missing = 0 :=
    (h.delivers_run hroom hrel values []).completes
  obtain ⟨hgot, -, -, hpop⟩ := (h.delivers_run hroom hrel values _).finished hmissing
  refine congrArg₂ RingAnswer.transferred ?_ (congrArg Option.isSome hpop)
  rw [← hgot]
  exact Array.toArray_toList.symm

end Faithful

/-! ### Every schedule -/

/-- **Transfers deliver.** Let a ring of either kind with more than one slot have come through any
script, and let values be sent through it. Whatever attempts the two sides have made and in whatever
order, the values received, those inside and those not yet sent are what was inside at first and
then what is sent; unless all the work is done, the next attempt of one of the sides succeeds and
leaves less to do; and when the receiver waits for no more, it has received all values in order, all
have been sent, nothing is inside, and one more pop finds nothing. -/
theorem transfer_delivers {capacity : UInt64} (hroom : 1 < capacity) (steps : List (RingStep α))
    (values : List α) (schedule : List Side) :
    let plain := (RingStep.runAll (Ring.ofCapacity capacity : Ring α) steps).2
    let cached := (RingStep.runAll (CachedRing.ofCapacity capacity : CachedRing α) steps).2
    Delivers Ring.toList (plain.toList ++ values) ((Transfer.start plain values).run schedule) ∧
      Delivers CachedRing.toList (cached.toList ++ values)
        ((Transfer.start cached values).run schedule) := by
  intro plain cached
  have hpos : 0 < capacity := UInt64.lt_trans (by decide) hroom
  have hplain := (Ring.faithful capacity).runAll (.ofCapacity hpos) steps
  have hcached := (CachedRing.faithful capacity).runAll (CachedRing.isFifo_ofCapacity hpos) steps
  exact ⟨(Ring.faithful capacity).delivers_run hroom hplain values schedule,
    (CachedRing.faithful capacity).delivers_run hroom hcached values schedule⟩

/-- Three values are sent through a ring of three slots with one inside. The sender fills it up and
fails once, and the receiver, when it is done, has all four. -/
theorem transfer_delivers_three :
    let steps : List (RingStep Nat) := [.push 1, .pop, .push 2]
    let ring := (RingStep.runAll (CachedRing.ofCapacity 3 : CachedRing Nat) steps).2
    let schedule : List Side :=
      [.producer, .producer, .consumer, .consumer, .producer, .consumer, .producer, .consumer]
    let t := (Transfer.start ring [3, 4, 5]).run schedule
    (1 : UInt64) < 3 ∧ t.missing = 0 ∧ t.got.toList = [2, 3, 4, 5] ∧ t.unsent = [] ∧
      (Spsc.pop t.ring).1 = none := by
  intro steps ring schedule t
  have hinside : ring.toList = [2] := by decide +kernel
  have hmissing : t.missing = 0 := by decide +kernel
  have h : Delivers CachedRing.toList (ring.toList ++ [3, 4, 5]) t :=
    (transfer_delivers (by decide : (1 : UInt64) < 3) steps [3, 4, 5] schedule).2
  rw [hinside] at h
  obtain ⟨hgot, hunsent, -, hpop⟩ := h.finished hmissing
  exact ⟨by decide, hmissing, hgot, hunsent, hpop⟩

/-- With a single slot neither side can do anything. -/
example : let t := Transfer.start (Ring.ofCapacity 1 : Ring Nat) [1]
    t.outstanding = 2 ∧ ∀ side, t.succeeds side = false := by
  refine ⟨rfl, fun side => ?_⟩
  cases side <;> decide +kernel

end Handoff
