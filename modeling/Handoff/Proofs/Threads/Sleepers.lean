import Handoff.Proofs.Threads.Ownership

/-!
# No sleeper is forgotten

A release that finds nobody announced wakes nobody, so a thread must not sleep on a word that does
not say that somebody waits. Yet it may happen: between the store of "unlocked" and the waking of
the sleepers other threads may take the lock as one without waiters, and unlock it again, while the
sleepers still sleep. What saves them is that the release which stored "unlocked" has not ended.

So a thread sleeps only while the word says that somebody waits or some release still has to wake
the sleepers (`Mutex.Attended`). Access by access (`Mutex.heard_access`):

* a thread falls asleep only on a word that says so;
* a word that says so changes only by the store after which the sleepers are woken;
* when a release has woken the sleepers, nobody sleeps at all.

That the words are written by the owner alone is not used.
-/

namespace Handoff.Mutex

/-! ### Accesses -/

/-- Whether a release is under way at a point. -/
def Point.inUnlock : Point → Bool
  | .checking | .releasing | .storing | .waking => true
  | _ => false

theorem sleeps_iff {l : Mutex} : l.sleeps = true ↔ l = ofState .lockedHasWaiters := by
  obtain ⟨word⟩ := l
  rw [sleeps, decide_eq_true_eq, ofState, Mutex.mk.injEq]

/-- A swap that expects another word leaves one that says that somebody waits. -/
theorem transition_announced {expected : LockState} (h : expected ≠ .lockedHasWaiters)
    (new : LockState) :
    ((ofState .lockedHasWaiters).transition expected new).2 = ofState .lockedHasWaiters := by
  rw [transition_ofState, if_neg h.symm]

theorem announce_announced :
    (ofState .lockedHasWaiters).announce = ofState .lockedHasWaiters :=
  transition_announced (by decide) _

section Access

variable {ι : Type} {t : ι} {m : Memory ι} {p p' : Point}

/-- Whether a thread at a point neither sleeps nor is about to wake the sleepers. -/
def Point.isBystander : Point → Bool
  | .asleep _ | .waking => false
  | _ => true

theorem Point.isBystander_of_looks (hp : p.looks = true) : p.isBystander = true := by
  cases p with
  | asleep patience => contradiction
  | waking => contradiction
  | _ => rfl

theorem Point.ne_waking (hp : p.isBystander = true) : p ≠ .waking := by
  rintro rfl
  contradiction

/-- A thread at a point sleeps only if it has got to sleep there. -/
def Rests (m : Memory ι) (t : ι) (p : Point) : Prop :=
  m.asleep t = true → ∃ patience, p = .asleep patience

theorem Rests.awake (h : Rests m t p) (hp : p.isBystander = true) : m.asleep t = false := by
  rw [Bool.eq_false_iff]
  intro hasleep
  obtain ⟨patience, rfl⟩ := h hasleep
  contradiction

theorem Rests.of_awake (hawake : m.asleep t = false) : Rests m t p := by
  intro hasleep
  rw [hawake] at hasleep
  contradiction

/-- An access of a thread from a memory and a point to others does not leave a sleeper alone. -/
structure Heard (t : ι) (m : Memory ι) (p : Point) (after : Memory ι × Point) : Prop where
  /-- Once it says so, the word says that somebody waits until the sleepers are to be woken. -/
  announced : m.lock = ofState .lockedHasWaiters →
    after.1.lock = ofState .lockedHasWaiters ∨ after.2 = .waking
  /-- Whoever sleeps has slept before and was not woken, or has just fallen asleep. -/
  asleep : ∀ u, after.1.asleep u = true →
    (m.asleep u = true ∧ p ≠ .waking) ∨ (u = t ∧ after.1.lock = ofState .lockedHasWaiters)
  rests : Rests after.1 t after.2

/-- An access that changes no memory. -/
theorem Heard.still (hp : p ≠ .waking) (hrests : Rests m t p') : Heard t m p (m, p') where
  announced := fun hlock => .inl hlock
  asleep := fun _ hu => .inl ⟨hu, hp⟩
  rests := hrests

/-- A bystander that changes no memory may go anywhere. -/
theorem Heard.keep (h : Rests m t p) (hp : p.isBystander = true) : Heard t m p (m, p') :=
  .still (Point.ne_waking hp) (.of_awake (h.awake hp))

theorem Heard.look [DecidableEq ι] (h : Rests m t p) (hp : p.looks = true) (choice : Choice) :
    Heard t m p (access t choice m p) := by
  obtain ⟨p', haccess, -, -⟩ := access_of_looks t choice m hp
  rw [haccess]
  exact .keep h (Point.isBystander_of_looks hp)

/-- A write of a bystander, if it does not change a word that says that somebody waits. -/
theorem Heard.write {l : Mutex} (h : Rests m t p) (hp : p.isBystander = true)
    (hl : m.lock = ofState .lockedHasWaiters → l = ofState .lockedHasWaiters ∨ p' = .waking) :
    Heard t m p ({ m with lock := l }, p') where
  announced := hl
  asleep := fun _ hu => .inl ⟨hu, Point.ne_waking hp⟩
  rests := .of_awake (h.awake hp)

/-- A swap that does not expect a word which says that somebody waits. -/
theorem Heard.swap {expected new : LockState} {won lost : Point} (h : Rests m t p)
    (hp : p.isBystander = true) (hexpected : expected ≠ .lockedHasWaiters) :
    Heard t m p (m.after (m.lock.transition expected new) won lost) := by
  refine .write h hp fun hlock => .inl ?_
  rw [hlock]
  exact transition_announced hexpected new

/-- The word is looked at in the same access in which a thread falls asleep. -/
theorem Heard.fallAsleep [DecidableEq ι] {patience : Patience} (hp : p.isBystander = true)
    (hsleeps : m.lock.sleeps = true) : Heard t m p (m.setAsleep t true, .asleep patience) := by
  have hlock : m.lock = ofState .lockedHasWaiters := sleeps_iff.1 hsleeps
  refine ⟨fun _ => .inl hlock, fun u hu => ?_, fun _ => ⟨patience, rfl⟩⟩
  rcases eq_or_ne u t with hut | hut
  · exact .inr ⟨hut, hlock⟩
  · exact .inl ⟨(m.setAsleep_of_ne true hut).symm.trans hu, Point.ne_waking hp⟩

/-- A thread leaves its sleep unasked. -/
theorem Heard.wakeUp [DecidableEq ι] (hp : p ≠ .waking) :
    Heard t m p (m.setAsleep t false, p') := by
  have hawake : (m.setAsleep t false).asleep t = false := m.setAsleep_self t false
  refine ⟨fun hlock => .inl hlock, fun u hu => .inl ⟨?_, hp⟩, .of_awake hawake⟩
  rcases eq_or_ne u t with rfl | hut
  · rw [hawake] at hu
    contradiction
  · exact (m.setAsleep_of_ne false hut).symm.trans hu

/-- The sleepers are woken. -/
theorem Heard.wakeAll :
    Heard t m p ({ m with asleep := fun _ => false }, p') where
  announced := fun hlock => .inl hlock
  asleep := fun _ hu => absurd hu Bool.false_ne_true
  rests := .of_awake rfl

/-- No access leaves a sleeper alone. -/
theorem heard_access [DecidableEq ι] (choice : Choice) (h : Rests m t p) :
    Heard t m p (access t choice m p) := by
  cases p with
  | idle => exact .look h rfl choice
  | planning span => exact .look h rfl choice
  | trying => exact .swap h rfl (by decide)
  | taking => exact .swap h rfl (by decide)
  | spinning left w => exact .look h rfl choice
  | takingAgain w => exact .swap h rfl (by decide)
  | takingUntil deadline => exact .swap h rfl (by decide)
  | checkingClock deadline => exact .look h rfl choice
  | announcing patience =>
    refine .write h rfl fun hlock => .inl ?_
    rw [hlock]
    exact announce_announced
  | settling patience =>
    rw [access]
    split
    · next hsleeps => exact .fallAsleep rfl hsleeps
    · exact .keep h rfl
  | asleep patience =>
    have hp : Point.asleep patience ≠ .waking := by simp
    rw [access]
    split
    · next hwoken =>
      have hawake : m.asleep t = false := by simpa using hwoken
      exact .still hp (.of_awake hawake)
    · split
      · exact .wakeUp hp
      · exact .still hp h
  | seizing patience => exact .swap h rfl (by decide)
  | holding => exact .keep h rfl
  | checking => exact .keep h rfl
  | releasing => exact .swap h rfl (by decide)
  | storing => exact .write h rfl fun _ => .inr rfl
  | waking => exact .wakeAll
  | broken => exact .keep h rfl

end Access

/-- A release that finds nobody announced is over with its swap. -/
theorem access_releasing {ι : Type} [DecidableEq ι] {m : Memory ι}
    (hlock : m.lock = ofState .lockedNoWaiters) (t : ι) (choice : Choice) :
    access t choice m .releasing = ({ m with lock := ofState .unlocked }, .idle) := by
  change m.after (m.lock.transition .lockedNoWaiters .unlocked) .idle .storing = _
  rw [hlock, transition_ofState, if_pos rfl]
  rfl

/-! ### Every schedule -/

section Run

variable {ι : Type} [DecidableEq ι]

/-- Every sleeper has got to sleep, and the word says that somebody waits or a release still has to
wake the sleepers. -/
structure Attended (s : (code ι).State) : Prop where
  rests : ∀ t, Rests s.memory t (s.point t)
  attended : ∀ t, s.memory.asleep t = true →
    s.memory.lock = ofState .lockedHasWaiters ∨ ∃ u, s.point u = .waking

namespace Attended

theorem start : Attended (Program.start (code ι).toProgram) where
  rests := nofun
  attended := nofun

theorem move {s : (code ι).State} (h : Attended s) (m : (code ι).Move) :
    Attended (Program.move s m) := by
  have hheard := heard_access m.2 (h.rests m.1)
  have hpoint : (Program.move s m).point m.1 = _ := Program.move_point_self s m
  refine ⟨fun u => ?_, fun u hu => ?_⟩
  · rcases eq_or_ne u m.1 with rfl | hne
    · rw [hpoint]
      exact hheard.rests
    · rw [Program.move_point_of_ne s hne]
      intro hu
      rcases hheard.asleep u hu with ⟨hbefore, -⟩ | ⟨he, -⟩
      · exact h.rests u hbefore
      · exact absurd he hne
  · rcases hheard.asleep u hu with ⟨hbefore, hwaking⟩ | ⟨-, hlock⟩
    · rcases h.attended u hbefore with hlock | ⟨v, hv⟩
      · refine (hheard.announced hlock).imp id fun hpoint' => ⟨m.1, ?_⟩
        rw [hpoint]
        exact hpoint'
      · -- the release that still has to wake the sleepers is another one, so it has not moved
        refine .inr ⟨v, ?_⟩
        rw [Program.move_point_of_ne s, hv]
        rintro rfl
        exact hwaking hv
    · exact .inl hlock

theorem run {s : (code ι).State} (h : Attended s) (schedule : List (code ι).Move) :
    Attended (Program.run s schedule) :=
  Program.run_of_step (fun _ m hs => hs.move m) h schedule

end Attended

/-- **No sleeper is forgotten.** After any schedule, if a thread sleeps, then the word says that
somebody waits or some release has stored "unlocked" and not yet woken the sleepers. So the lock is
not free, with no release under way, while a thread sleeps; and a release that succeeds in swapping
"locked without waiters" for "unlocked" while a thread sleeps, and so wakes nobody, leaves another
release that will. -/
theorem no_sleeper_forgotten (schedule : List (code ι).Move) :
    let s := Program.run (Program.start (code ι).toProgram) schedule
    (∀ t, s.memory.asleep t = true → (∃ patience, s.point t = .asleep patience) ∧
      (s.memory.lock = ofState .lockedHasWaiters ∨ ∃ u, s.point u = .waking)) ∧
    ¬(s.memory.lock = ofState .unlocked ∧ (∀ u, (s.point u).inUnlock = false) ∧
      ∃ t, s.memory.asleep t = true) ∧
    ∀ t u choice, s.point t = .releasing → s.memory.lock = ofState .lockedNoWaiters →
      s.memory.asleep u = true →
        let s' := Program.move s (t, choice)
        s'.point t = .idle ∧ s'.memory.lock = ofState .unlocked ∧ s'.memory.asleep u = true ∧
          ∃ v, v ≠ t ∧ s'.point v = .waking := by
  intro s
  have hattended : Attended s := Attended.start.run schedule
  refine ⟨fun t ht => ⟨hattended.rests t ht, hattended.attended t ht⟩, ?_, ?_⟩
  · rintro ⟨hfree, hnone, t, ht⟩
    rcases hattended.attended t ht with hlock | ⟨u, hu⟩
    · rw [hfree] at hlock
      exact nomatch congrArg state hlock
    · have hu' := hnone u
      rw [hu] at hu'
      exact nomatch hu'
  · intro t u choice hreleasing hlock hu s'
    have hstep : access t choice s.memory (s.point t) =
        ({ s.memory with lock := ofState .unlocked }, .idle) := by
      rw [hreleasing]
      exact access_releasing hlock t choice
    have hmemory : s'.memory = { s.memory with lock := ofState .unlocked } :=
      congrArg Prod.fst hstep
    have hpoint : s'.point t = .idle :=
      (Program.move_point_self s (t, choice)).trans (congrArg Prod.snd hstep)
    rw [hmemory]
    refine ⟨hpoint, rfl, hu, ?_⟩
    rcases hattended.attended u hu with hannounced | ⟨v, hv⟩
    · rw [hlock] at hannounced
      exact nomatch congrArg state hannounced
    · have hne : v ≠ t := by
        rintro rfl
        exact nomatch hreleasing.symm.trans hv
      refine ⟨v, hne, ?_⟩
      rw [Program.move_point_of_ne s hne]
      exact hv

/-- A thread sleeps while another one is about to unlock a lock without waiters: it has taken the
lock between the two last accesses of the first release. -/
theorem no_sleeper_forgotten_barging :
    let schedule : List (code Nat).Move :=
      [(0, .tryLock), (0, .proceed), (1, .tryLockUntil ⟨5⟩), (1, .proceed), (1, .read ⟨0⟩),
        (1, .proceed), (1, .proceed), (0, .unlock), (0, .proceed), (0, .proceed), (0, .proceed),
        (2, .tryLock), (2, .proceed), (2, .unlock), (2, .proceed)]
    let s := Program.run (Program.start (code Nat).toProgram) schedule
    let s' := Program.move s (2, .proceed)
    s.point 2 = .releasing ∧ s.memory.lock = ofState .lockedNoWaiters ∧
      s.memory.asleep 1 = true ∧ s'.point 2 = .idle ∧ s'.memory.lock = ofState .unlocked ∧
      s'.memory.asleep 1 = true ∧ ∃ v, v ≠ 2 ∧ s'.point v = .waking := by
  intro schedule s s'
  have hpoint : s.point 2 = .releasing := rfl
  have hlock : s.memory.lock = ofState .lockedNoWaiters := rfl
  have hasleep : s.memory.asleep 1 = true := rfl
  obtain ⟨-, -, hrelease⟩ := no_sleeper_forgotten schedule
  exact ⟨hpoint, hlock, hasleep, hrelease 2 1 .proceed hpoint hlock hasleep⟩

end Run

end Handoff.Mutex
