import Mathlib.Data.Finset.Card
import Handoff.Proofs.Threads.Service
import Handoff.Proofs.Threads.Tickets

/-!
# The ticket lock does not keep everybody waiting

A thread that takes the ticket lock draws one ticket, so as long as the number of calls fits a word
there is a ticket for each: those that have not drawn yet are pending (`TicketLock.Stocked`). Hence
what holds of the tickets holds for the users of the lock, up to the very last number
(`TicketLock.service`).

If nobody owns the lock and some thread has a ticket, then the number being served is somebody's, and
that thread enters at its next look or is giving the lock back. If there are no tickets out, whoever
comes next draws one (`TicketLock.promptService`).
-/

namespace Handoff.TicketLock

/-! ### Stages -/

/-- What a thread at a point does with the lock. Calls of `tryLock` and `queueLen` are elsewhere. -/
def Point.stage : Point → Stage
  | .idle => .away
  | .drawing | .waiting _ => .taking
  | .holding _ => .owning
  | .checking _ | .comparing _ _ | .serving _ => .returning
  | _ => .elsewhere

theorem Point.stage_eq_away_iff {p : Point} : p.stage = .away ↔ p = .idle := by
  cases p <;> simp [stage]

theorem Point.stage_eq_owning_iff {p : Point} :
    p.stage = .owning ↔ ∃ ticket, p = .holding ticket := by
  cases p <;> simp [stage]

theorem Point.isOwner_of_stage {p : Point} (h : p.stage = .owning) : p.isOwner = true := by
  obtain ⟨ticket, rfl⟩ := stage_eq_owning_iff.1 h
  rfl

/-- A thread with a call under way has a ticket, or is about to draw one. -/
theorem Point.drawing_or_ticket {p : Point} (h : p.stage.inCall = true) :
    p = .drawing ∨ ∃ ticket, p.ticket? = some ticket ∧ p.draws = false := by
  cases p with
  | drawing => exact .inl rfl
  | waiting ticket | checking ticket | comparing ticket seen | serving ticket =>
    exact .inr ⟨ticket, rfl, rfl⟩
  | _ => exact nomatch h

section Access

variable {l : TicketLock} {p : Point} {choice : Choice}

/-- A call goes on from one stage to the next, unless it panics. -/
theorem next_access (hcall : p.stage.inCall = true) (hbroken : (access choice l p).2 ≠ .broken) :
    Stage.Next p.stage (access choice l p).2.stage := by
  cases p with
  | drawing => exact .stay
  | waiting ticket =>
    rw [access]
    split
    · exact .enter
    · exact .stay
  | checking ticket => exact .stay
  | comparing ticket seen =>
    rw [access] at hbroken ⊢
    split
    · exact .stay
    · rename_i hnone
      rw [if_neg hnone] at hbroken
      exact absurd rfl hbroken
  | serving ticket => exact .finish
  | _ => cases hcall

/-- The number being served changes only at the end of a release. -/
theorem access_owner (hcall : p.stage.inCall = true)
    (hstage : (access choice l p).2.stage = p.stage) : (access choice l p).1.owner = l.owner := by
  cases p with
  | drawing | waiting ticket | checking ticket | comparing ticket seen => rfl
  | serving ticket => exact nomatch hstage
  | _ => exact nomatch hcall

/-- Only one that draws no ticket stays without one. -/
theorem access_ne_drawing (hcall : p.stage.inCall = true) : (access choice l p).2 ≠ .drawing := by
  intro hdrawing
  cases p with
  | waiting ticket | comparing ticket seen =>
    rw [access] at hdrawing
    split at hdrawing <;> cases hdrawing
  | drawing | checking ticket | serving ticket => cases hdrawing
  | _ => cases hcall

end Access

/-! ### Service -/

section Run

variable {ι : Type}

theorem code_idle_iff {p : Point} : (code ι).idle p = true ↔ p = .idle := decide_eq_true_iff

theorem code_owns_iff {p : Point} : (code ι).owns p = true ↔ p.stage = .owning := by
  cases p <;> simp [code, Point.stage]

theorem code_broken_eq_false {p : Point} (h : p.stage ≠ .elsewhere) :
    (code ι).broken p = false :=
  decide_eq_false fun hp => h (congrArg Point.stage hp)

theorem stage_unlockEntry {p : Point} (h : p.stage = .owning) :
    Point.stage ((code ι).unlockEntry p) = .returning := by
  obtain ⟨ticket, rfl⟩ := Point.stage_eq_owning_iff.1 h
  rfl

/-- The tickets are in order, and there is one for each of the calls that have not drawn yet. -/
def Stocked (calls : Nat) (l : TicketLock) (point : ι → Point) : Prop :=
  ∃ (j : Ledger ι) (pending : Finset ι), InOrder l point j ∧
    (∀ t, point t = .drawing → t ∈ pending) ∧ j.drawn.length + pending.card ≤ calls ∧
    calls < UInt64.size

theorem stocked_start : Stocked 0 new fun _ : ι => .idle :=
  ⟨.blank, ∅, inOrder_start, nofun, Nat.le_refl 0, by decide⟩

variable [DecidableEq ι] {n : Nat} {l : TicketLock} {point : ι → Point} {t : ι}

theorem Stocked.begin (h : Stocked n l point) (hp : point t = .idle)
    (hfew : n + 1 < UInt64.size) : Stocked (n + 1) l (Function.update point t .drawing) := by
  obtain ⟨j, pending, horder, hpending, hcalls, -⟩ := h
  refine ⟨j, insert t pending, ?_, fun u hu => ?_, ?_, hfew⟩
  · refine horder.stay ?_ ?_ trivial <;> rw [hp] <;> rfl
  · rcases eq_or_ne u t with rfl | hne
    · exact Finset.mem_insert_self u pending
    · rw [Function.update_of_ne hne] at hu
      exact Finset.mem_insert_of_mem (hpending u hu)
  · have hcard := Finset.card_insert_le t pending
    omega

theorem Stocked.leave {ticket : UInt64} (h : Stocked n l point) (hp : point t = .holding ticket) :
    Stocked n l (Function.update point t (.checking ticket)) := by
  obtain ⟨j, pending, horder, hpending, hcalls, hfew⟩ := h
  refine ⟨j, pending, ?_, fun u hu => ?_, hcalls, hfew⟩
  · refine horder.stay ?_ ?_ trivial <;> rw [hp] <;> rfl
  · rcases eq_or_ne u t with rfl | hne
    · rw [Function.update_self] at hu
      exact nomatch hu
    · rw [Function.update_of_ne hne] at hu
      exact hpending u hu

theorem Stocked.access (h : Stocked n l point) (hcall : (point t).stage.inCall = true)
    (choice : Choice) :
    Stocked n (access choice l (point t)).1
      (Function.update point t (access choice l (point t)).2) := by
  obtain ⟨j, pending, horder, hpending, hcalls, hfew⟩ := h
  -- whoever is about to draw is pending, and the thread is not about to draw afterwards
  have hstill : ∀ u, Function.update point t (TicketLock.access choice l (point t)).2 u = .drawing →
      u ≠ t ∧ u ∈ pending := by
    intro u hu
    rcases eq_or_ne u t with rfl | hne
    · rw [Function.update_self] at hu
      exact absurd hu (access_ne_drawing hcall)
    · rw [Function.update_of_ne hne] at hu
      exact ⟨hne, hpending u hu⟩
  rcases Point.drawing_or_ticket hcall with hp | ⟨ticket, hticket, hdraws⟩
  · have hmem := hpending t hp
    have hpos := Finset.card_pos.2 ⟨t, hmem⟩
    have horderly := orderly_access horder (fun _ => by omega) hp choice
    rw [hp] at hstill ⊢
    refine ⟨_, pending.erase t, horderly, fun u hu => ?_, ?_, hfew⟩
    · obtain ⟨hne, hu⟩ := hstill u hu
      exact Finset.mem_erase.2 ⟨hne, hu⟩
    · rw [Finset.card_erase_of_mem hmem]
      have hdrawn : (j.note t .drawing (TicketLock.access choice l .drawing).2).drawn.length =
          j.drawn.length + 1 := List.length_append
      omega
  · have horderly := orderly_access horder
      (fun hd => absurd (hdraws.symm.trans hd) Bool.false_ne_true) rfl choice
    refine ⟨_, pending, horderly, fun u hu => (hstill u hu).2, ?_, hfew⟩
    rw [Ledger.note, hticket, if_neg (Option.some_ne_none ticket)]
    exact hcalls

/-- A call goes on from one stage to the next, and its release does not panic. -/
theorem Stocked.next (h : Stocked n l point) (hcall : (point t).stage.inCall = true)
    (choice : Choice) : Stage.Next (point t).stage (TicketLock.access choice l (point t)).2.stage := by
  obtain ⟨j, pending, horder, -⟩ := h.access hcall choice
  have hfits := horder.fits t
  rw [Function.update_self] at hfits
  exact next_access hcall hfits.ne_broken

/-- The ticket lock serves its users. -/
def service : (code ι).Service where
  stage := Point.stage
  Sound n s := Stocked n s.memory s.point
  away_iff := Point.stage_eq_away_iff
  idle_iff := code_idle_iff
  owns_iff := code_owns_iff
  broken := code_broken_eq_false
  lockEntry := rfl
  unlockEntry := stage_unlockEntry
  start := stocked_start
  begin {n s t} h ht hfew := by
    rw [Program.moveTo_point_eq_update]
    exact h.begin (Point.stage_eq_away_iff.1 ht) hfew
  leave {n s t} h ht := by
    obtain ⟨ticket, hp⟩ := Point.stage_eq_owning_iff.1 ht
    rw [Program.moveTo_point_eq_update, hp]
    exact h.leave hp
  access {n s} h {m} hm := by
    rw [Program.move_point_eq_update]
    exact h.access hm m.2
  next {n s} h {m} hm := by
    rw [Program.move_point_self]
    exact h.next hm m.2
  unique {n s t u} h ht hu := by
    obtain ⟨j, pending, horder, -⟩ := h
    exact horder.eq_of_owner (Point.isOwner_of_stage ht) (Point.isOwner_of_stage hu)

end Run

/-! ### Promptness -/

section Due

variable {ι : Type} {l : TicketLock} {point : ι → Point} {t : ι}

/-- Whether a thread is so many accesses away from the one that ends its stage, or from one after
which some thread is nearer to that. -/
inductive Due (l : TicketLock) (point : ι → Point) (t : ι) : Nat → Prop
  | draw (hp : point t = .drawing) (hnone : ∀ u, (point u).stage ≠ .owning) : Due l point t 3
  | enter (hp : point t = .waiting l.owner) : Due l point t 0
  | check {ticket : UInt64} (hp : point t = .checking ticket) : Due l point t 2
  | compare {ticket seen : UInt64} (hp : point t = .comparing ticket seen) : Due l point t 1
  | serve {ticket : UInt64} (hp : point t = .serving ticket) : Due l point t 0

theorem Due.inCall {k : Nat} (h : Due l point t k) : (point t).stage.inCall = true := by
  cases h with
  | draw hp _ | enter hp | check hp | compare hp | serve hp => rw [hp]; rfl

/-- If some thread has a ticket, somebody has the one that is being served. -/
theorem InOrder.exists_due {j : Ledger ι} {ticket : UInt64} (h : InOrder l point j)
    (hticket : (point t).ticket? = some ticket) (hnone : ∀ u, (point u).stage ≠ .owning) :
    ∃ u k, k < 3 ∧ Due l point u k := by
  obtain ⟨u, hu⟩ := h.exists_ticket (UInt64.le_refl _)
    (UInt64.lt_of_le_of_lt (h.owner_le hticket) (h.lt_next hticket))
  refine ⟨u, ?_⟩
  cases hp : point u with
  | waiting served =>
    rw [hp] at hu
    obtain rfl := Option.some.inj hu
    exact ⟨0, by decide, .enter hp⟩
  | holding served => exact absurd (congrArg Point.stage hp) (hnone u)
  | checking served => exact ⟨2, by decide, .check hp⟩
  | comparing served seen => exact ⟨1, by decide, .compare hp⟩
  | serving served => exact ⟨0, by decide, .serve hp⟩
  | _ =>
    rw [hp] at hu
    exact nomatch hu

theorem Stocked.exists_due {n : Nat} (h : Stocked n l point) (hnone : ∀ u, (point u).stage ≠ .owning)
    (hcall : (point t).stage.inCall = true) : ∃ u k, Due l point u k := by
  obtain ⟨j, pending, horder, -⟩ := h
  rcases Point.drawing_or_ticket hcall with hp | ⟨ticket, hticket, -⟩
  · exact ⟨t, 3, .draw hp hnone⟩
  · obtain ⟨u, k, -, hdue⟩ := horder.exists_due hticket hnone
    exact ⟨u, k, hdue⟩

variable [DecidableEq ι] {n k : Nat} {choice : Choice}

/-- A thread stays as near while another one makes an access that does not end its stage. -/
theorem Due.access_other {u : ι} (h : Due l point u k) (hne : u ≠ t)
    (hcall : (point t).stage.inCall = true)
    (hstage : (TicketLock.access choice l (point t)).2.stage = (point t).stage) :
    Due (TicketLock.access choice l (point t)).1
      (Function.update point t (TicketLock.access choice l (point t)).2) u k := by
  have hpoint : Function.update point t (TicketLock.access choice l (point t)).2 u = point u :=
    Function.update_of_ne hne _ _
  cases h with
  | draw hp hnone =>
    refine .draw (hpoint.trans hp) ?_
    exact (Function.forall_update_iff point fun _ p => p.stage ≠ .owning).2
      ⟨hstage ▸ hnone t, fun v _ => hnone v⟩
  | enter hp => exact .enter (by rw [hpoint, hp, access_owner hcall hstage])
  | check hp => exact .check (hpoint.trans hp)
  | compare hp => exact .compare (hpoint.trans hp)
  | serve hp => exact .serve (hpoint.trans hp)

/-- An access that does not end the stage of its thread brings some thread nearer to that. -/
theorem Due.access_self (h : Due l point t k) (hstocked : Stocked n l point)
    (hstage : (TicketLock.access choice l (point t)).2.stage = (point t).stage) :
    ∃ u k', k' < k ∧ Due (TicketLock.access choice l (point t)).1
      (Function.update point t (TicketLock.access choice l (point t)).2) u k' := by
  have hself : Function.update point t (TicketLock.access choice l (point t)).2 t =
    (TicketLock.access choice l (point t)).2 := Function.update_self ..
  have hafter := hstocked.access h.inCall choice
  cases h with
  | draw hp hnone =>
    -- the thread has a ticket now
    obtain ⟨j, pending, horder, -⟩ := hafter
    rw [hp] at hself horder hstage ⊢
    refine horder.exists_due (t := t) (congrArg Point.ticket? hself) ?_
    exact (Function.forall_update_iff point fun _ p => p.stage ≠ .owning).2
      ⟨fun howning => (by cases howning), fun v _ => hnone v⟩
  | enter hp =>
    have hserves : l.serves l.owner = true := decide_eq_true rfl
    rw [hp, access, hserves, if_pos rfl] at hstage
    cases hstage
  | check hp =>
    rw [hp] at hself ⊢
    exact ⟨t, 1, by decide, .compare hself⟩
  | compare hp =>
    rw [hp, access] at hself hstage ⊢
    split at hstage
    · rename_i houtstanding
      rw [if_pos houtstanding] at hself ⊢
      exact ⟨t, 0, by decide, .serve hself⟩
    · cases hstage
  | serve hp =>
    rw [hp] at hstage
    cases hstage

/-- The ticket lock does not keep everybody waiting. -/
def promptService : (code ι).PromptService where
  toService := service
  OfUse _ _ := True
  Ready s t k := Due s.memory s.point t k
  inCall h := h.inCall
  exists_ready h hnone ht := h.exists_due hnone ht
  ready_other {n s m t k} h hready hne hm hstage := by
    rw [Program.move_point_self] at hstage
    rw [Program.move_point_eq_update]
    exact hready.access_other hne.symm hm hstage
  ready_self {n s m k} h huse hready hstage := by
    rw [Program.move_point_self] at hstage
    rw [Program.move_point_eq_update]
    exact hready.access_self h hstage

end Due

end Handoff.TicketLock
