import Handoff.Proofs.Threads.Service
import Handoff.Proofs.Threads.Sleepers

/-!
# The sleeping lock does not keep everybody waiting

Threads that use the sleeping lock without a deadline go on from one stage of their calls to the next
(`Mutex.service`). If nobody owns the lock and no release is under way, then the word says "unlocked"
and nobody sleeps, since a sleeper has a word that says that somebody waits or a release that wakes
it. So whoever waits is on its way to a swap of the word, which succeeds (`Mutex.promptService`).
-/

namespace Handoff.Mutex

/-! ### Stages -/

/-- What a thread at a point does with the lock. Calls with a deadline or of `tryLock` are
elsewhere. -/
def Point.stage : Point → Stage
  | .idle => .away
  | .taking | .spinning _ _ | .takingAgain _ | .announcing .unlimited | .settling .unlimited
  | .asleep .unlimited | .seizing .unlimited => .taking
  | .holding => .owning
  | .checking | .releasing | .storing | .waking => .returning
  | _ => .elsewhere

theorem Point.stage_eq_away_iff {p : Point} : p.stage = .away ↔ p = .idle := by
  cases p with
  | announcing patience | settling patience | asleep patience | seizing patience =>
    cases patience <;> simp [stage]
  | _ => simp [stage]

theorem Point.stage_eq_owning_iff {p : Point} : p.stage = .owning ↔ p = .holding := by
  cases p with
  | announcing patience | settling patience | asleep patience | seizing patience =>
    cases patience <;> simp [stage]
  | _ => simp [stage]

/-- An owner that does not hold the lock gives it back. -/
theorem Point.stage_of_isOwner {p : Point} (hp : p.isOwner = true) (hstage : p.stage ≠ .owning) :
    p.stage = .returning := by
  cases p with
  | holding => exact absurd rfl hstage
  | checking | releasing | storing => rfl
  | _ => exact nomatch hp

/-- The number of accesses that a thread with a call under way makes before the one that ends its
stage, if the word says "unlocked" when it is to be taken. -/
def Point.turns : Point → Nat
  | .announcing _ => 2
  | .spinning _ _ | .settling _ | .asleep _ => 1
  | .checking => 3
  | .releasing => 2
  | .storing => 1
  | _ => 0

section Access

variable {ι : Type} {m : Memory ι} {p : Point}

/-- After a swap of the word a thread holds the lock or stays in its stage. -/
theorem next_after {swap : Bool × Mutex} {lost : Point} (hp : p.stage = .taking)
    (hlost : lost.stage = .taking) : Stage.Next p.stage (m.after swap .holding lost).2.stage := by
  rw [Memory.after, hp]
  cases swap.1 with
  | true => exact .enter
  | false =>
    rw [if_neg Bool.false_ne_true, hlost]
    exact .stay

/-- A thread that takes the lock without a deadline takes it, or goes on to do so. -/
theorem next_access_of_taking [DecidableEq ι] (t : ι) (choice : Choice) (m : Memory ι)
    (hp : p.stage = .taking) : Stage.Next p.stage (access t choice m p).2.stage := by
  cases p with
  | taking => exact next_after rfl rfl
  | spinning left w =>
    rw [access]
    split
    · split <;> exact .stay
    · exact .stay
  | takingAgain w => exact next_after rfl rfl
  | announcing patience =>
    cases patience with
    | unlimited => exact .stay
    | limited deadline left => cases hp
  | settling patience =>
    cases patience with
    | unlimited =>
      rw [access]
      split <;> exact .stay
    | limited deadline left => cases hp
  | asleep patience =>
    cases patience with
    | unlimited =>
      rw [access]
      split
      · exact .stay
      · split <;> exact .stay
    | limited deadline left => cases hp
  | seizing patience =>
    cases patience with
    | unlimited => exact next_after rfl rfl
    | limited deadline left => cases hp
  | _ => cases hp

/-- A call goes on from one stage to the next, and its release does not panic. -/
theorem next_access [DecidableEq ι] (t : ι) (choice : Choice) {state : LockState}
    (hlock : m.lock = ofState state) (hfits : p.Fits state) (hcall : p.stage.inCall = true) :
    Stage.Next p.stage (access t choice m p).2.stage := by
  cases p with
  | announcing patience | settling patience | asleep patience | seizing patience =>
    cases patience with
    | unlimited => exact next_access_of_taking t choice m rfl
    | limited deadline left => cases hcall
  | taking | spinning left w | takingAgain w => exact next_access_of_taking t choice m rfl
  | checking =>
    have hlocked : m.lock.state ≠ .unlocked := by
      rw [hlock, state_ofState]
      exact hfits
    rw [access, if_neg hlocked]
    exact .stay
  | releasing =>
    rw [access, Memory.after]
    split
    · exact .finish
    · exact .stay
  | storing => exact .stay
  | waking => exact .finish
  | _ => cases hcall

/-- An access of a call under way that does not end its stage does not make its thread an owner. -/
theorem not_owner_access [DecidableEq ι] (t : ι) (choice : Choice) (hcall : p.stage.inCall = true)
    (hstage : (access t choice m p).2.stage = p.stage) (hp : p.isOwner = false) :
    (access t choice m p).2.isOwner = false := by
  rw [Bool.eq_false_iff]
  intro howner
  have howning : (access t choice m p).2.stage ≠ .owning := by
    rw [hstage]
    intro e
    rw [e] at hcall
    contradiction
  -- so the thread gives the lock back, and only the last access of a release is not an owner's
  have hreturning := hstage.symm.trans (Point.stage_of_isOwner howner howning)
  cases p with
  | waking => exact nomatch howner
  | checking | releasing | storing => exact nomatch hp
  | announcing patience | settling patience | asleep patience | seizing patience =>
    cases patience <;> exact nomatch hreturning
  | _ => exact nomatch hreturning

/-- Whether a thread is so many accesses away from the one that ends its stage. -/
def Due (m : Memory ι) (t : ι) (p : Point) (k : Nat) : Prop :=
  k = p.turns ∧ (p.stage = .returning ∨
    p.stage = .taking ∧ m.lock = ofState .unlocked ∧ m.asleep t = false)

theorem Due.inCall {t : ι} {k : Nat} (h : Due m t p k) : p.stage.inCall = true := by
  obtain ⟨-, hreturning | ⟨htaking, -⟩⟩ := h
  · exact Stage.inCall_iff.2 (.inr hreturning)
  · exact Stage.inCall_iff.2 (.inl htaking)

/-- An access that does not end the stage of a call brings its end nearer. -/
theorem due_access [DecidableEq ι] {t : ι} {choice : Choice} {k : Nat} (hdue : Due m t p k)
    (hstage : (access t choice m p).2.stage = p.stage) :
    ∃ k', k' < k ∧ Due (access t choice m p).1 t (access t choice m p).2 k' := by
  obtain ⟨rfl, hreturning | ⟨htaking, hlock, hawake⟩⟩ := hdue
  · cases p with
    | checking =>
      rw [access] at hstage ⊢
      split at hstage
      · cases hstage
      · rename_i hlocked
        rw [if_neg hlocked]
        exact ⟨2, by decide, rfl, .inl rfl⟩
    | releasing =>
      rw [access, Memory.after] at hstage ⊢
      split at hstage
      · cases hstage
      · rename_i hlost
        rw [if_neg hlost]
        exact ⟨1, by decide, rfl, .inl rfl⟩
    | storing => exact ⟨0, by decide, rfl, .inl rfl⟩
    | waking => cases hstage
    | announcing patience | settling patience | asleep patience | seizing patience =>
      cases patience <;> cases hreturning
    | _ => cases hreturning
  · obtain ⟨lock, asleep⟩ := m
    obtain rfl : lock = ofState .unlocked := hlock
    cases p with
    | taking => cases hstage
    | spinning left w => exact ⟨0, Nat.one_pos, rfl, .inr ⟨rfl, rfl, hawake⟩⟩
    | takingAgain w => cases hstage
    | announcing patience =>
      cases patience with
      | unlimited => exact ⟨1, by decide, rfl, .inr ⟨rfl, rfl, hawake⟩⟩
      | limited deadline left => cases htaking
    | settling patience =>
      cases patience with
      | unlimited => exact ⟨0, by decide, rfl, .inr ⟨rfl, rfl, hawake⟩⟩
      | limited deadline left => cases htaking
    | asleep patience =>
      cases patience with
      | unlimited =>
        have haccess : access t choice ⟨ofState .unlocked, asleep⟩ (.asleep .unlimited) =
            (⟨ofState .unlocked, asleep⟩, .seizing .unlimited) := by
          rw [access, if_pos]
          rw [hawake, Bool.not_false]
        rw [haccess]
        exact ⟨0, by decide, rfl, .inr ⟨rfl, rfl, hawake⟩⟩
      | limited deadline left => cases htaking
    | seizing patience =>
      cases patience with
      | unlimited => cases hstage
      | limited deadline left => cases htaking
    | _ => cases htaking

end Access

/-! ### Service -/

section Run

variable {ι : Type} [DecidableEq ι]

/-- The word says "unlocked" if no thread owns the lock. -/
theorem Owned.unlocked {s : (code ι).State} (h : Owned s)
    (hnone : ∀ t, (s.point t).isOwner = false) : s.memory.lock = ofState .unlocked := by
  obtain ⟨state, hlock, -⟩ := h.fits
  have hstate := h.exclusive.free_iff.2 hnone
  rw [decide_eq_true_eq, hlock, state_ofState] at hstate
  rw [hlock, hstate]

/-- The word keeps saying so while nobody gets to another stage. -/
theorem Owned.unlocked_move {s : (code ι).State} (h : Owned s) {m : (code ι).Move}
    (hlock : s.memory.lock = ofState .unlocked) (hcall : (s.point m.1).stage.inCall = true)
    (hstage : (access m.1 m.2 s.memory (s.point m.1)).2.stage = (s.point m.1).stage) :
    (Program.move s m).memory.lock = ofState .unlocked := by
  have hstate : s.memory.lock.state = .unlocked := by rw [hlock, state_ofState]
  have hnone := h.exclusive.free_iff.1 (decide_eq_true hstate)
  refine (h.move m).unlocked fun u => ?_
  rcases eq_or_ne u m.1 with rfl | hu
  · rw [Program.move_point_self]
    exact not_owner_access m.1 m.2 hcall hstage (hnone m.1)
  · rw [Program.move_point_of_ne s hu]
    exact hnone u

theorem code_idle_iff {p : Point} : (code ι).idle p = true ↔ p = .idle := decide_eq_true_iff

theorem code_owns_iff {p : Point} : (code ι).owns p = true ↔ p = .holding := decide_eq_true_iff

theorem code_broken_eq_false {p : Point} (h : p.stage ≠ .elsewhere) :
    (code ι).broken p = false :=
  decide_eq_false fun hp => h (congrArg Point.stage hp)

/-- The sleeping lock serves its users. -/
def service : (code ι).Service where
  stage := Point.stage
  Sound _ s := Owned s ∧ Attended s
  away_iff := Point.stage_eq_away_iff
  idle_iff := code_idle_iff
  owns_iff := code_owns_iff.trans Point.stage_eq_owning_iff.symm
  broken := code_broken_eq_false
  lockEntry := rfl
  unlockEntry _ := rfl
  start := ⟨.start, .start⟩
  begin {n s t} h ht _ := by
    have hp : s.point t = .idle := Point.stage_eq_away_iff.1 ht
    exact ⟨Program.moveTo_of_move (h.1.move (t, Choice.lock)) hp rfl,
      Program.moveTo_of_move (h.2.move (t, Choice.lock)) hp rfl⟩
  leave {n s t} h ht := by
    have hp : s.point t = .holding := Point.stage_eq_owning_iff.1 ht
    rw [hp]
    exact ⟨Program.moveTo_of_move (h.1.move (t, Choice.unlock)) hp rfl,
      Program.moveTo_of_move (h.2.move (t, Choice.unlock)) hp rfl⟩
  access h _ _ := ⟨h.1.move _, h.2.move _⟩
  next {n s} h {m} hm := by
    obtain ⟨state, hlock, hfits⟩ := h.1.fits
    rw [Program.move_point_self]
    exact next_access m.1 m.2 hlock (hfits m.1) hm
  unique {n s t u} h ht hu := by
    have howns : ∀ {v}, (s.point v).stage = .owning → (s.point v).isOwner = true := fun hv =>
      congrArg Point.isOwner (Point.stage_eq_owning_iff.1 hv)
    exact h.1.exclusive.unique (howns ht) (howns hu)

/-- The sleeping lock does not keep everybody waiting. -/
def promptService : (code ι).PromptService where
  toService := service
  OfUse _ _ := True
  Ready s t k := Due s.memory t (s.point t) k
  inCall h := h.inCall
  exists_ready {n s t} h hnone ht := by
    by_cases hreturning : ∃ u, Point.stage (s.point u) = .returning
    · obtain ⟨u, hu⟩ := hreturning
      exact ⟨u, _, rfl, .inl hu⟩
    · have htaking : Point.stage (s.point t) = .taking :=
        (Stage.inCall_iff.1 ht).resolve_right fun he => hreturning ⟨t, he⟩
      have hfree : s.memory.lock = ofState .unlocked := h.1.unlocked fun u =>
        Bool.eq_false_iff.2 fun hu => hreturning ⟨u, Point.stage_of_isOwner hu (hnone u)⟩
      have hawake : s.memory.asleep t = false := by
        rw [Bool.eq_false_iff]
        intro hasleep
        rcases h.2.attended t hasleep with hlock | ⟨u, hu⟩
        · exact nomatch congrArg state (hfree.symm.trans hlock)
        · exact hreturning ⟨u, congrArg Point.stage hu⟩
      exact ⟨t, _, rfl, .inr ⟨htaking, hfree, hawake⟩⟩
  ready_other {n s m t k} h hready hne hm hstage := by
    rw [Program.move_point_of_ne s hne.symm]
    obtain ⟨hk, hreturning | ⟨htaking, hlock, hawake⟩⟩ := hready
    · exact ⟨hk, .inl hreturning⟩
    · rw [Program.move_point_self] at hstage
      refine ⟨hk, .inr ⟨htaking, h.1.unlocked_move hlock hm hstage, ?_⟩⟩
      · rw [Bool.eq_false_iff]
        intro hasleep
        rcases (heard_access m.2 (h.2.rests m.1)).asleep t hasleep with ⟨hbefore, -⟩ | ⟨he, -⟩
        · exact absurd (hawake.symm.trans hbefore) Bool.false_ne_true
        · exact hne he.symm
  ready_self {n s m k} h huse hready hstage := by
    rw [Program.move_point_self] at hstage
    obtain ⟨k', hlt, hdue⟩ := due_access hready hstage
    refine ⟨m.1, k', hlt, ?_⟩
    rw [Program.move_point_self]
    exact hdue

end Run

end Handoff.Mutex
